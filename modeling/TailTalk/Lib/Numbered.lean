/-
  Numbered answers — what an exchange with wrapping numbers and a bounded cache
  of answers needs.

  Numbers less than a period apart tell their indices apart.  `Cached` ties a
  log, some of whose entries are numbered, to the queue of its last answers.
-/
import Mathlib.Data.Nat.Notation
import Mathlib.Data.List.Basic
import Mathlib.Data.List.Induction
import Mathlib.Tactic.Common

namespace Lib

universe u v w
variable {α : Type u} {κ : Type v}

theorem find?_of_unique {l : List α} {p : α → Bool} {x : α} (hx : x ∈ l) (hp : p x = true)
    (hu : ∀ y ∈ l, p y = true → y = x) : l.find? p = some x := by
  rcases hf : l.find? p with _ | y
  · exact absurd hp (List.find?_eq_none.1 hf x hx)
  · rw [hu y (List.mem_of_find?_eq_some hf) (List.find?_some hf)]

theorem getElem?_snoc {xs : List α} {x y : α} {i : ℕ} :
    (xs ++ [x])[i]? = some y ↔ xs[i]? = some y ∨ (i = xs.length ∧ x = y) := by
  rcases Nat.lt_trichotomy i xs.length with hlt | rfl | hgt
  · simp [List.getElem?_append_left hlt, Nat.ne_of_lt hlt]
  · simp
  · simp [List.getElem?_eq_none (Nat.le_of_lt hgt), Nat.ne_of_gt hgt,
      List.getElem?_append_right (Nat.le_of_lt hgt), Nat.sub_ne_zero_of_lt hgt]

theorem prefix_snoc {xs ys : List α} {x y : α} (hp : ys ++ [y] <+: xs ++ [x]) :
    ys ++ [y] <+: xs ∨ (ys = xs ∧ y = x) := by
  rcases List.prefix_concat_iff.1 hp with heq | hp
  · obtain ⟨hys, hy⟩ := List.append_inj' heq rfl
    exact .inr ⟨hys, List.singleton_inj.1 hy⟩
  · exact .inl hp

/-! ## Bounded queues -/

/-- The last `n` entries. -/
@[irreducible] def recent (n : ℕ) (xs : List α) : List α := xs.drop (xs.length - n)

theorem length_recent (n : ℕ) (xs : List α) : (recent n xs).length = min n xs.length := by
  rw [recent, List.length_drop]
  omega

/-- Pushing to a queue that drops its oldest entry when full. -/
theorem recent_push {n : ℕ} (hn : 0 < n) (xs : List α) (x : α) :
    (if (recent n xs).length = n then (recent n xs).tail else recent n xs) ++ [x] =
      recent n (xs ++ [x]) := by
  have hlen : (xs ++ [x]).length - n ≤ xs.length := by
    rw [List.length_append, List.length_singleton]
    omega
  rw [length_recent, recent, recent, List.drop_append_of_le_length hlen, List.length_append,
    List.length_singleton]
  split_ifs with hfull
  · rw [List.tail_drop, show xs.length - n + 1 = xs.length + 1 - n by omega]
  · rw [show xs.length - n = xs.length + 1 - n by omega]

theorem mem_recent {n : ℕ} {xs : List α} {x : α} {i : ℕ} (hx : xs[i]? = some x)
    (hi : xs.length ≤ i + n) : x ∈ recent n xs := by
  apply List.mem_of_getElem? (i := i - (xs.length - n))
  rw [recent, List.getElem?_drop, ← hx]
  congr 1
  omega

theorem of_mem_recent {n : ℕ} {xs : List α} {x : α} (h : x ∈ recent n xs) :
    ∃ i, xs[i]? = some x ∧ xs.length ≤ i + n := by
  obtain ⟨j, hj⟩ := List.mem_iff_getElem?.1 h
  rw [recent, List.getElem?_drop] at hj
  exact ⟨_, hj, by omega⟩

@[simp] theorem recent_nil (n : ℕ) : recent n ([] : List α) = [] := by
  rw [recent, List.drop_nil]

/-! ## Wrapping numbers -/

/-- The `k`-th of the numbers 1, 2, …, p, 1, … -/
def wrap (p k : ℕ) : ℕ := k % p + 1

theorem wrap_succ {p k : ℕ} (hp : 0 < p) :
    wrap p (k + 1) = if wrap p k = p then 1 else wrap p k + 1 := by
  have hlt := Nat.mod_lt k hp
  have hmod : (k + 1) % p = (k % p + 1) % p := (Nat.mod_add_mod k p 1).symm
  unfold wrap
  split_ifs with h
  · rw [hmod, h, Nat.mod_self]
  · rw [hmod, Nat.mod_eq_of_lt (by omega)]

theorem wrap_inj {p j k : ℕ} (h : wrap p j = wrap p k) (hjk : j < k + p) (hkj : k < j + p) :
    j = k := by
  have hmod : j % p = k % p := Nat.succ.inj h
  have hj := Nat.div_add_mod j p
  have hk := Nat.div_add_mod k p
  have hdiv : j / p = k / p := by
    rcases Nat.lt_trichotomy (j / p) (k / p) with hlt | heq | hgt
    · have hmul : p * (j / p + 1) ≤ p * (k / p) := Nat.mul_le_mul_left p hlt
      rw [Nat.mul_succ] at hmul
      omega
    · exact heq
    · have hmul : p * (k / p + 1) ≤ p * (j / p) := Nat.mul_le_mul_left p hgt
      rw [Nat.mul_succ] at hmul
      omega
  rw [hdiv] at hj
  omega

/-! ## Numbered entries in a bounded queue -/

section
variable {β : Type w} [DecidableEq κ] {f : ℕ → κ} {g : α → β} {xs : List α} {n j : ℕ} {x : α}

/-- A number that the queue still holds. -/
theorem find?_recent (hinj : ∀ i k, f i = f k → i < k + n → k < i + n → i = k)
    (hx : xs[j]? = some x) (hj : xs.length ≤ j + n) :
    ((recent n (xs.mapIdx fun i y => (f i, g y))).find? fun c => c.1 = f j) =
      some (f j, g x) := by
  have hlt := (List.getElem?_eq_some_iff.1 hx).1
  apply find?_of_unique
  · refine mem_recent (i := j) ?_ (by rwa [List.length_mapIdx])
    rw [List.getElem?_mapIdx, hx]
    rfl
  · exact decide_eq_true rfl
  · intro c hc hnumber
    obtain ⟨k, hk, hrecent⟩ := of_mem_recent hc
    rw [List.length_mapIdx] at hrecent
    rw [List.getElem?_mapIdx] at hk
    obtain ⟨y, hy, rfl⟩ := Option.map_eq_some_iff.1 hk
    have hklt := (List.getElem?_eq_some_iff.1 hy).1
    obtain rfl : k = j := hinj _ _ (of_decide_eq_true hnumber) (by omega) (by omega)
    rw [hx] at hy
    cases hy
    rfl

theorem find?_recent_next (hnew : ∀ i, i < xs.length → xs.length ≤ i + n → f i ≠ f xs.length) :
    ((recent n (xs.mapIdx fun i y => (f i, g y))).find? fun c => c.1 = f xs.length) = none := by
  rw [List.find?_eq_none]
  intro c hc hnumber
  obtain ⟨k, hk, hrecent⟩ := of_mem_recent hc
  rw [List.length_mapIdx] at hrecent
  rw [List.getElem?_mapIdx] at hk
  obtain ⟨y, hy, rfl⟩ := Option.map_eq_some_iff.1 hk
  exact hnew k (List.getElem?_eq_some_iff.1 hy).1 hrecent (of_decide_eq_true hnumber)

end

/-! ## First entries -/

section
variable [DecidableEq κ] (key : α → Option κ)

/-- The entry has a key that one of `xs` has, too. -/
def Repeats (xs : List α) (x : α) : Prop := (key x).isSome ∧ key x ∈ xs.map key

instance (xs : List α) (x : α) : Decidable (Repeats key xs x) :=
  inferInstanceAs (Decidable (_ ∧ _))

/-- The entries without a key, and the first one of each key. -/
def firsts (xs : List α) : List α :=
  xs.foldl (fun kept x => if Repeats key kept x then kept else kept ++ [x]) []

@[simp] theorem firsts_nil : firsts key [] = [] := rfl

theorem firsts_snoc (xs : List α) (x : α) : firsts key (xs ++ [x]) =
    if Repeats key (firsts key xs) x then firsts key xs else firsts key xs ++ [x] := by
  rw [firsts, List.foldl_append]
  rfl

theorem mem_of_mem_firsts {xs : List α} {x : α} (h : x ∈ firsts key xs) : x ∈ xs := by
  induction xs using List.reverseRecOn with
  | nil => exact h
  | append_singleton xs y ih =>
    rw [firsts_snoc] at h
    split_ifs at h
    · exact List.mem_append_left _ (ih h)
    · rcases List.mem_append.1 h with h | h
      · exact List.mem_append_left _ (ih h)
      · exact List.mem_append_right _ h

end

/-! ## Cached answers -/

section
variable {β : Type w} (key : α → Option ℕ) {f : ℕ → κ} {g : α → β} {n j : ℕ} {xs : List α}
  {cache : List (κ × β)} {x y : α}

/-- The numbered entries, each number taken once. -/
def numbered (xs : List α) : List α := (firsts key xs).filter fun x => (key x).isSome

/-- The queue holds the last `n` answers of the log, under their numbers. -/
structure Cached (f : ℕ → κ) (g : α → β) (n : ℕ) (xs : List α) (cache : List (κ × β)) : Prop where
  indices : ∀ j x, (numbered key xs)[j]? = some x → key x = some j
  same : ∀ x ∈ xs, ∀ j, key x = some j → ∃ y, (numbered key xs)[j]? = some y ∧ g y = g x
  cache : cache = recent n ((numbered key xs).mapIdx fun j x => (f j, g x))

variable {key}

theorem firsts_new (h : ¬ Repeats key (firsts key xs) x) :
    firsts key (xs ++ [x]) = firsts key xs ++ [x] := by
  rw [firsts_snoc, if_neg h]

theorem firsts_unnumbered (hx : key x = none) :
    firsts key (xs ++ [x]) = firsts key xs ++ [x] := by
  refine firsts_new fun hrepeats => ?_
  rw [Repeats, hx] at hrepeats
  cases hrepeats.1

theorem numbered_unnumbered (hx : key x = none) : numbered key (xs ++ [x]) = numbered key xs := by
  rw [numbered, firsts_unnumbered hx, List.filter_append, List.filter_singleton, hx]
  exact List.append_nil _

namespace Cached

theorem nil : Cached key f g n [] [] where
  indices := fun j x hx => by cases hx
  same := fun x hx => by cases hx
  cache := (recent_nil n).symm

variable (h : Cached key f g n xs cache)
include h

theorem firsts_again (hy : (numbered key xs)[j]? = some y) (hx : key x = some j) :
    firsts key (xs ++ [x]) = firsts key xs := by
  rw [firsts_snoc, if_pos]
  refine ⟨by rw [hx]; rfl, ?_⟩
  rw [hx, ← h.indices j y hy]
  exact List.mem_map_of_mem (List.mem_filter.1 (List.mem_of_getElem? hy)).1

/-- An answer is given once more. -/
theorem again (hy : (numbered key xs)[j]? = some y) (hx : key x = some j) (hg : g y = g x) :
    Cached key f g n (xs ++ [x]) cache := by
  have hnumbered : numbered key (xs ++ [x]) = numbered key xs := by
    rw [numbered, h.firsts_again hy hx, numbered]
  refine
    { indices := by rw [hnumbered]; exact h.indices
      same := ?_
      cache := by rw [hnumbered]; exact h.cache }
  rw [hnumbered]
  intro z hz k hk
  rcases List.mem_append.1 hz with hz | hz
  · exact h.same z hz k hk
  · obtain rfl := List.mem_singleton.1 hz
    obtain rfl : j = k := Option.some.inj (hx.symm.trans hk)
    exact ⟨y, hy, hg⟩

/-- An answer without a number is not kept. -/
theorem unnumbered (hx : key x = none) : Cached key f g n (xs ++ [x]) cache := by
  refine
    { indices := by rw [numbered_unnumbered hx]; exact h.indices
      same := ?_
      cache := by rw [numbered_unnumbered hx]; exact h.cache }
  rw [numbered_unnumbered hx]
  intro z hz k hk
  rcases List.mem_append.1 hz with hz | hz
  · exact h.same z hz k hk
  · obtain rfl := List.mem_singleton.1 hz
    rw [hx] at hk
    cases hk

theorem firsts_next (hx : key x = some (numbered key xs).length) :
    firsts key (xs ++ [x]) = firsts key xs ++ [x] := by
  refine firsts_new ?_
  rintro ⟨-, hmem⟩
  obtain ⟨y, hy, hkey⟩ := List.mem_map.1 hmem
  rw [hx] at hkey
  have hnumbered : y ∈ numbered key xs := List.mem_filter.2 ⟨hy, by rw [hkey]; rfl⟩
  obtain ⟨j, hj⟩ := List.mem_iff_getElem?.1 hnumbered
  obtain rfl : j = (numbered key xs).length :=
    Option.some.inj ((h.indices j y hj).symm.trans hkey)
  exact absurd (List.getElem?_eq_some_iff.1 hj).1 (Nat.lt_irrefl _)

theorem numbered_next (hx : key x = some (numbered key xs).length) :
    numbered key (xs ++ [x]) = numbered key xs ++ [x] := by
  rw [numbered, h.firsts_next hx, List.filter_append, List.filter_singleton, hx]
  rfl

theorem next (hn : 0 < n) (hx : key x = some (numbered key xs).length) :
    Cached key f g n (xs ++ [x])
      ((if cache.length = n then cache.tail else cache) ++ [(f (numbered key xs).length, g x)]) := by
  refine { indices := ?_, same := ?_, cache := ?_ }
  · rw [h.numbered_next hx]
    intro j y hy
    rcases getElem?_snoc.1 hy with hy | ⟨rfl, rfl⟩
    · exact h.indices j y hy
    · exact hx
  · rw [h.numbered_next hx]
    intro z hz k hk
    rcases List.mem_append.1 hz with hz | hz
    · obtain ⟨y, hy, hg⟩ := h.same z hz k hk
      exact ⟨y, getElem?_snoc.2 (.inl hy), hg⟩
    · obtain rfl := List.mem_singleton.1 hz
      obtain rfl : (numbered key xs).length = k := Option.some.inj (hx.symm.trans hk)
      exact ⟨_, getElem?_snoc.2 (.inr ⟨rfl, rfl⟩), rfl⟩
  · rw [h.numbered_next hx, List.mapIdx_concat, ← recent_push hn, ← h.cache]

/-- The entry of an answer that is still kept. -/
theorem find?_eq [DecidableEq κ] (hinj : ∀ i k, f i = f k → i < k + n → k < i + n → i = k)
    (hy : (numbered key xs)[j]? = some y) (hj : (numbered key xs).length ≤ j + n) :
    (cache.find? fun c => c.1 = f j) = some (f j, g y) := by
  rw [h.cache]
  exact find?_recent hinj hy hj

theorem of_find? [DecidableEq κ] {k : κ} {c : κ × β} (hc : (cache.find? fun c => c.1 = k) = some c) :
    ∃ j y, (numbered key xs)[j]? = some y ∧ (numbered key xs).length ≤ j + n ∧ f j = k ∧
      c = (k, g y) := by
  have hmem := List.mem_of_find?_eq_some hc
  have hkey : c.1 = k :=
    of_decide_eq_true (List.find?_some (p := fun c : κ × β => decide (c.1 = k)) hc)
  rw [h.cache] at hmem
  obtain ⟨j, hj, hlen⟩ := of_mem_recent hmem
  rw [List.length_mapIdx] at hlen
  rw [List.getElem?_mapIdx] at hj
  obtain ⟨y, hy, rfl⟩ := Option.map_eq_some_iff.1 hj
  exact ⟨j, y, hy, hlen, hkey, by rw [← hkey]⟩

theorem filterMap_firsts :
    (firsts key xs).filterMap key = List.range (numbered key xs).length := by
  have hsome : (firsts key xs).filterMap key = (numbered key xs).filterMap key := by
    rw [numbered, List.filterMap_filter]
    refine List.filterMap_congr fun x _ => ?_
    cases key x <;> rfl
  have hmap : (numbered key xs).map key = (List.range (numbered key xs).length).map some := by
    apply List.ext_getElem?
    intro j
    rw [List.getElem?_map, List.getElem?_map]
    rcases hj : (numbered key xs)[j]? with _ | x
    · rw [List.getElem?_eq_none_iff] at hj
      rw [List.getElem?_eq_none (by rwa [List.length_range])]
      rfl
    · rw [List.getElem?_range (List.getElem?_eq_some_iff.1 hj).1]
      exact congrArg some (h.indices j x hj)
  calc (firsts key xs).filterMap key = ((numbered key xs).map key).filterMap id := by
        rw [hsome, List.filterMap_map]
        rfl
    _ = List.range (numbered key xs).length := by
        rw [hmap, List.filterMap_map]
        exact List.filterMap_some

end Cached

end

/-! ## Numbered logs -/

section
variable (key : α → ℕ) {xs : List α} {x : α}

/-- The first entry of each number. -/
def once (xs : List α) : List α := firsts (fun x => some (key x)) xs

/-- The numbers come up in order, from zero on. -/
def Counted (xs : List α) : Prop := ∀ j x, (once key xs)[j]? = some x → key x = j

variable {key}

theorem counted_nil : Counted key [] := by
  intro j x hx
  cases hx

/-- A number that has come up, or the next one. -/
theorem Counted.once_snoc (h : Counted key xs) : once key (xs ++ [x]) =
    if key x < (once key xs).length then once key xs else once key xs ++ [x] := by
  rw [once, firsts_snoc]
  refine if_congr ?_ rfl rfl
  constructor
  · rintro ⟨-, hrepeats⟩
    obtain ⟨y, hy, hkey⟩ := List.mem_map.1 hrepeats
    obtain ⟨i, hi⟩ := List.mem_iff_getElem?.1 hy
    rw [← Option.some.inj hkey, h i y hi]
    exact (List.getElem?_eq_some_iff.1 hi).1
  · intro hlt
    refine ⟨rfl, List.mem_map.2 ⟨_, List.getElem_mem hlt, ?_⟩⟩
    rw [h _ _ (List.getElem?_eq_getElem hlt)]

theorem Counted.snoc (h : Counted key xs) (hx : key x ≤ (once key xs).length) :
    Counted key (xs ++ [x]) := by
  intro j y hy
  rw [h.once_snoc] at hy
  split_ifs at hy with hlt
  · exact h j y hy
  · rcases getElem?_snoc.1 hy with hy | ⟨rfl, rfl⟩
    · exact h j y hy
    · exact Nat.le_antisymm hx (Nat.not_lt.1 hlt)

theorem Counted.map_key (h : Counted key xs) :
    (once key xs).map key = List.range (once key xs).length := by
  apply List.ext_getElem?
  intro j
  rw [List.getElem?_map]
  rcases hj : (once key xs)[j]? with _ | x
  · rw [List.getElem?_eq_none_iff] at hj
    rw [List.getElem?_eq_none (by rwa [List.length_range])]
    rfl
  · rw [List.getElem?_range (List.getElem?_eq_some_iff.1 hj).1]
    exact congrArg some (h j x hj)

theorem exists_mem_once (key : α → ℕ) (h : x ∈ xs) : ∃ y ∈ once key xs, key y = key x := by
  induction xs using List.reverseRecOn with
  | nil => cases h
  | append_singleton xs y ih =>
    rw [once, firsts_snoc]
    split_ifs with hrepeats
    · rcases List.mem_append.1 h with h | h
      · exact ih h
      · obtain rfl := List.mem_singleton.1 h
        obtain ⟨z, hz, hkey⟩ := List.mem_map.1 hrepeats.2
        exact ⟨z, hz, Option.some.inj hkey⟩
    · rcases List.mem_append.1 h with h | h
      · obtain ⟨z, hz, hkey⟩ := ih h
        exact ⟨z, List.mem_append_left _ hz, hkey⟩
      · exact ⟨y, List.mem_append_right _ (List.mem_singleton_self y), by
          rw [List.mem_singleton.1 h]⟩

/-- A number that has come up is below those that have not. -/
theorem Counted.lt_of_mem (h : Counted key xs) (hx : x ∈ xs) : key x < (once key xs).length := by
  obtain ⟨y, hy, hkey⟩ := exists_mem_once key hx
  obtain ⟨i, hi⟩ := List.mem_iff_getElem?.1 hy
  rw [← hkey, h i y hi]
  exact (List.getElem?_eq_some_iff.1 hi).1

theorem mem_of_mem_once (h : x ∈ once key xs) : x ∈ xs := mem_of_mem_firsts _ h

end

end Lib
