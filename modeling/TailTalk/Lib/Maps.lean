/-
  Finite ordered maps whose key order is an order on the keys themselves.
-/
import Std.Data.TreeMap

namespace Lib

variable {κ ν : Type} {cmp : κ → κ → Ordering} [Std.TransCmp cmp] [Std.LawfulEqCmp cmp]

theorem getElem?_insert_eq [DecidableEq κ] (m : Std.TreeMap κ ν cmp) (k a : κ) (v : ν) :
    (m.insert k v)[a]? = if a = k then some v else m[a]? := by
  rw [Std.TreeMap.getElem?_insert]
  by_cases h : a = k
  · rw [if_pos h, h, if_pos Std.ReflCmp.compare_self]
  · rw [if_neg h, if_neg (fun hc => h (Std.LawfulEqCmp.eq_of_compare hc).symm)]

theorem getElem?_erase_eq [DecidableEq κ] (m : Std.TreeMap κ ν cmp) (k a : κ) :
    (m.erase k)[a]? = if a = k then none else m[a]? := by
  rw [Std.TreeMap.getElem?_erase]
  by_cases h : a = k
  · rw [if_pos h, h, if_pos Std.ReflCmp.compare_self]
  · rw [if_neg h, if_neg (fun hc => h (Std.LawfulEqCmp.eq_of_compare hc).symm)]

omit [Std.LawfulEqCmp cmp] in
theorem contains_iff_getElem? (m : Std.TreeMap κ ν cmp) (k : κ) :
    m.contains k = true ↔ ∃ v, m[k]? = some v := by
  rw [Std.TreeMap.contains_eq_isSome_getElem?, Option.isSome_iff_exists]

omit [Std.TransCmp cmp] [Std.LawfulEqCmp cmp] in
theorem values_eq (m : Std.TreeMap κ ν cmp) : m.values = m.toList.map (·.2) := by
  have hvalues := Std.DTreeMap.Internal.Impl.values_eq_map_snd (t := m.inner.inner)
  have hlist := Std.DTreeMap.Internal.Impl.Const.toList_eq_toListModel_map (t := m.inner.inner)
  change m.inner.inner.values = (Std.DTreeMap.Internal.Impl.Const.toList m.inner.inner).map _
  rw [hvalues, hlist]
  simp

theorem mem_values (m : Std.TreeMap κ ν cmp) {k : κ} {v : ν} (h : m[k]? = some v) :
    v ∈ m.values := by
  rw [values_eq]
  exact List.mem_map.2 ⟨(k, v), Std.TreeMap.mem_toList_iff_getElem?_eq_some.2 h, rfl⟩

theorem exists_of_mem_values (m : Std.TreeMap κ ν cmp) {v : ν} (h : v ∈ m.values) :
    ∃ k : κ, m[k]? = some v := by
  rw [values_eq, List.mem_map] at h
  obtain ⟨⟨k, w⟩, hmem, rfl⟩ := h
  exact ⟨k, Std.TreeMap.mem_toList_iff_getElem?_eq_some.1 hmem⟩

/-- A key is in the list of a map at most once. -/
theorem countP_toList [DecidableEq κ] (m : Std.TreeMap κ ν cmp) (k : κ) (P : ν → Bool) :
    (m.toList.countP fun kv => decide (kv.1 = k) && P kv.2) = if m[k]?.any P then 1 else 0 := by
  have hget : ∀ kv ∈ m.toList, m[kv.1]? = some kv.2 := fun kv hkv =>
    Std.TreeMap.mem_toList_iff_getElem?_eq_some.1 hkv
  rcases hk : m[k]? with _ | v
  · rw [Option.any_none, if_neg Bool.false_ne_true, List.countP_eq_zero]
    intro kv hkv hcount
    have hkey := of_decide_eq_true (Bool.and_eq_true_iff.1 hcount).1
    have := hget kv hkv
    rw [hkey, hk] at this
    cases this
  · obtain ⟨before, after, hlist⟩ :=
      List.append_of_mem (Std.TreeMap.mem_toList_iff_getElem?_eq_some.2 hk)
    have hdistinct := Std.TreeMap.distinct_keys_toList (t := m)
    rw [hlist, List.pairwise_append, List.pairwise_cons] at hdistinct
    obtain ⟨-, ⟨hafter, -⟩, hbefore⟩ := hdistinct
    have hnone : ∀ kv : κ × ν, kv ∈ before ∨ kv ∈ after → kv.1 ≠ k := by
      rintro kv (hkv | hkv) rfl
      · exact hbefore kv hkv _ List.mem_cons_self Std.ReflCmp.compare_self
      · exact hafter kv hkv Std.ReflCmp.compare_self
    have hzero : ∀ l : List (κ × ν), (∀ kv ∈ l, kv.1 ≠ k) →
        (l.countP fun kv => decide (kv.1 = k) && P kv.2) = 0 := by
      intro l hl
      refine List.countP_eq_zero.2 fun kv hkv => ?_
      simp [hl kv hkv]
    rw [hlist, List.countP_append, List.countP_cons, hzero before fun kv h => hnone kv (.inl h),
      hzero after fun kv h => hnone kv (.inr h)]
    simp

end Lib
