/-
  Cutting a list into pieces of a fixed length, the last one possibly shorter.

  `chunks n xs` lists the pieces in order; `chunks_getElem?` says where each
  comes from and `flatten_chunks` that nothing is lost.  `mapM_range_eq` puts a
  list together again from a table of its elements.
-/
import Mathlib.Data.Nat.Notation
import Mathlib.Data.List.Basic
import Mathlib.Data.List.Induction

namespace Lib

variable {α : Type*}

/-- The consecutive pieces of length `n` of `xs`. -/
def chunks (n : ℕ) (xs : List α) : List (List α) :=
  (List.range ((xs.length + n - 1) / n)).map fun i => (xs.drop (i * n)).take n

@[simp] theorem chunks_length (n : ℕ) (xs : List α) :
    (chunks n xs).length = (xs.length + n - 1) / n := by
  simp [chunks]

theorem chunks_getElem? {n i : ℕ} {xs c : List α} (h : (chunks n xs)[i]? = some c) :
    i < (xs.length + n - 1) / n ∧ c = (xs.drop (i * n)).take n := by
  simp only [chunks, List.getElem?_map, Option.map_eq_some_iff] at h
  obtain ⟨j, hj, rfl⟩ := h
  obtain ⟨hlt, rfl⟩ := List.getElem?_eq_some_iff.1 hj
  simp only [List.length_range] at hlt
  simp [hlt]

theorem flatten_take_chunks (n : ℕ) (xs : List α) :
    ∀ k, ((List.range k).map fun i => (xs.drop (i * n)).take n).flatten = xs.take (k * n)
  | 0 => by simp
  | k + 1 => by
    rw [List.range_succ, List.map_append, List.flatten_append, flatten_take_chunks n xs k]
    simp only [List.map_cons, List.map_nil, List.flatten_cons, List.flatten_nil, List.append_nil]
    rw [Nat.add_mul, Nat.one_mul, List.take_add]

theorem flatten_chunks {n : ℕ} (hn : 0 < n) (xs : List α) : (chunks n xs).flatten = xs := by
  rw [chunks, flatten_take_chunks, List.take_of_length_le]
  have h := Nat.div_add_mod (xs.length + n - 1) n
  have h' := Nat.mod_lt (xs.length + n - 1) hn
  rw [Nat.mul_comm] at h
  omega

theorem chunks_of_length_le {n : ℕ} {xs : List α} (hne : xs ≠ []) (h : xs.length ≤ n) :
    chunks n xs = [xs] := by
  have hpos := List.length_pos_iff.2 hne
  have hone : (xs.length + n - 1) / n = 1 := by
    rw [Nat.div_eq_iff (by omega)]; omega
  rw [chunks, hone]
  simp [List.take_of_length_le h]

/-- The first piece, and those of the rest. -/
theorem chunks_cons {n : ℕ} (hn : 0 < n) {xs : List α} (h : n < xs.length) :
    chunks n xs = xs.take n :: chunks n (xs.drop n) := by
  have hcount : (xs.length + n - 1) / n = ((xs.drop n).length + n - 1) / n + 1 := by
    have hshift : xs.length + n - 1 = (xs.drop n).length + n - 1 + n := by
      rw [List.length_drop]; omega
    rw [hshift, Nat.add_div_right _ hn]
  rw [chunks, hcount, List.range_succ_eq_map, List.map_cons, List.map_map, Nat.zero_mul,
    List.drop_zero, chunks]
  congr 1
  refine List.map_congr_left fun i _ => ?_
  simp only [Function.comp_apply, List.drop_drop]
  congr 2
  rw [Nat.succ_mul, Nat.add_comm]

theorem chunks_flatten_append {n : ℕ} (hn : 0 < n) {cs : List (List α)}
    (hfull : ∀ c ∈ cs, c.length = n) {part : List α} (hpart : part.length < n) :
    chunks n (cs.flatten ++ part) = cs ++ if part = [] then [] else [part] := by
  have hlast : chunks n part = if part = [] then [] else [part] := by
    split
    · rename_i hnil
      subst hnil
      exact List.length_eq_zero_iff.1 (by
        rw [chunks_length, List.length_nil, Nat.zero_add]
        exact Nat.div_eq_of_lt (Nat.sub_lt hn Nat.one_pos))
    · rename_i hne
      exact chunks_of_length_le hne (Nat.le_of_lt hpart)
  induction cs with
  | nil => exact hlast
  | cons c cs ih =>
    have hc : c.length = n := hfull c List.mem_cons_self
    have ih' := ih fun c' hc' => hfull c' (List.mem_cons_of_mem _ hc')
    rw [List.flatten_cons, List.append_assoc]
    by_cases hrest : cs.flatten ++ part = []
    · rw [hrest] at ih'
      have hne : c ≠ [] := List.ne_nil_of_length_pos (hc ▸ hn)
      rw [hrest, List.append_nil, chunks_of_length_le hne (Nat.le_of_eq hc), List.cons_append,
        ← ih']
      simp [chunks, Nat.div_eq_of_lt (Nat.sub_lt hn Nat.one_pos)]
    · have hlong : n < (c ++ (cs.flatten ++ part)).length := by
        rw [List.length_append, hc]
        exact Nat.lt_add_of_pos_right (List.length_pos_iff.2 hrest)
      rw [chunks_cons hn hlong, List.take_left' hc, List.drop_left' hc, ih']
      rfl

/-- A list is read back through its indices. -/
theorem mapM_range_eq (f : ℕ → Option α) (xs : List α)
    (h : ∀ i x, xs[i]? = some x → f i = some x) :
    (List.range xs.length).mapM f = some xs := by
  induction xs using List.reverseRecOn with
  | nil => rfl
  | append_singleton xs x ih =>
    have hxs := ih fun i y hi => h i y (by
      rw [List.getElem?_append_left (List.getElem?_eq_some_iff.1 hi).1]; exact hi)
    have hx : f xs.length = some x := h _ _ (by simp)
    rw [List.length_append, List.length_singleton, List.range_succ, List.mapM_append, hxs]
    simp [hx]

end Lib
