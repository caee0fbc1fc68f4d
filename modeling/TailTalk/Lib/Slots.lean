/-
  Tables of slots that are used again — an entry is put in the first free slot,
  and its slot is free once it is taken out.
-/
import Mathlib.Data.List.Basic

namespace Lib

universe u v
variable {α : Type u} {β : Type v}

/-- The entry in a slot. -/
def slotAt (xs : List (Option α)) (i : ℕ) : Option α := xs[i]?.join

/-- The first free slot; where none is, a new one at the end. -/
def freeSlot (xs : List (Option α)) : ℕ := xs.findIdx Option.isNone

/-- Put an entry in the first free slot. -/
def fillSlot (xs : List (Option α)) (x : α) : List (Option α) :=
  if freeSlot xs < xs.length then xs.set (freeSlot xs) (some x) else xs ++ [some x]

/-- Free a slot. -/
def vacate (xs : List (Option α)) (i : ℕ) : List (Option α) := xs.set i none

section
variable {xs ys : List (Option α)} {x y : α} {i j : ℕ}

@[simp] theorem slotAt_nil : slotAt ([] : List (Option α)) i = none := rfl

theorem slotAt_succ (o : Option α) : slotAt (o :: xs) (i + 1) = slotAt xs i := by
  simp [slotAt]

theorem lt_of_slotAt (h : slotAt xs i = some x) : i < xs.length := by
  by_contra hlen
  rw [slotAt, List.getElem?_eq_none (Nat.le_of_not_lt hlen)] at h
  cases h

theorem slotAt_set (hi : i < xs.length) (o : Option α) :
    slotAt (xs.set i o) j = if j = i then o else slotAt xs j := by
  unfold slotAt
  rw [List.getElem?_set]
  by_cases hij : i = j
  · subst hij
    simp [hi]
  · rw [if_neg hij, if_neg (Ne.symm hij)]

theorem slotAt_freeSlot : slotAt xs (freeSlot xs) = none := by
  unfold slotAt freeSlot
  by_cases hlen : xs.findIdx Option.isNone < xs.length
  · have hnone := List.findIdx_getElem (w := hlen)
    rw [List.getElem?_eq_getElem hlen, Option.isNone_iff_eq_none.1 hnone]
    rfl
  · rw [List.getElem?_eq_none (Nat.le_of_not_lt hlen)]
    rfl

theorem slotAt_fillSlot :
    slotAt (fillSlot xs x) j = if j = freeSlot xs then some x else slotAt xs j := by
  unfold fillSlot
  split_ifs with hfree hj hj
  · rw [slotAt_set hfree, if_pos hj]
  · rw [slotAt_set hfree, if_neg hj]
  · have hlen : freeSlot xs = xs.length :=
      Nat.le_antisymm List.findIdx_le_length (Nat.le_of_not_lt hfree)
    rw [hj, hlen]
    simp [slotAt]
  · have hlen : freeSlot xs = xs.length :=
      Nat.le_antisymm List.findIdx_le_length (Nat.le_of_not_lt hfree)
    rw [hlen] at hj
    unfold slotAt
    rcases Nat.lt_or_gt_of_ne hj with hlt | hgt
    · rw [List.getElem?_append_left hlt]
    · rw [List.getElem?_append_right (Nat.le_of_lt hgt),
        List.getElem?_eq_none (l := xs) (Nat.le_of_lt hgt), List.getElem?_eq_none]
      simp only [List.length_singleton]
      omega

theorem slotAt_vacate : slotAt (vacate xs i) j = if j = i then none else slotAt xs j := by
  by_cases hi : i < xs.length
  · exact slotAt_set hi none
  · rw [vacate, List.set_eq_of_length_le (Nat.le_of_not_lt hi)]
    split_ifs with hj
    · rw [hj, slotAt, List.getElem?_eq_none (Nat.le_of_not_lt hi)]
      rfl
    · rfl

end

/-! ## Going over the entries -/

/-- Change every entry; none where a change does not return. -/
def mapSlots (f : α → Option β) : List (Option α) → Option (List (Option β))
  | [] => some []
  | none :: xs => (mapSlots f xs).map (none :: ·)
  | some x :: xs => (f x).bind fun y => (mapSlots f xs).map (some y :: ·)

theorem slotAt_mapSlots {f : α → Option β} {xs : List (Option α)} {ys : List (Option β)}
    (h : mapSlots f xs = some ys) (i : ℕ) :
    (slotAt xs i = none ∧ slotAt ys i = none) ∨
      ∃ x y, slotAt xs i = some x ∧ f x = some y ∧ slotAt ys i = some y := by
  induction xs generalizing ys i with
  | nil =>
    obtain rfl := Option.some.inj h
    exact .inl ⟨rfl, rfl⟩
  | cons o xs ih =>
    cases o with
    | none =>
      obtain ⟨zs, hzs, rfl⟩ := Option.map_eq_some_iff.1 h
      cases i with
      | zero => exact .inl ⟨rfl, rfl⟩
      | succ i => simpa only [slotAt_succ] using ih hzs i
    | some x =>
      obtain ⟨y, hy, htail⟩ := Option.bind_eq_some_iff.1 h
      obtain ⟨zs, hzs, rfl⟩ := Option.map_eq_some_iff.1 htail
      cases i with
      | zero => exact .inr ⟨x, y, rfl, hy, rfl⟩
      | succ i => simpa only [slotAt_succ] using ih hzs i

/-- Ask the entries in turn, up to the first that has something to give. -/
def takeFirst (f : α → Option β × α) : List (Option α) → Option (ℕ × β) × List (Option α)
  | [] => (none, [])
  | none :: xs =>
    ((takeFirst f xs).1.map fun r => (r.1 + 1, r.2), none :: (takeFirst f xs).2)
  | some x :: xs =>
    match f x with
    | (some b, x) => (some (0, b), some x :: xs)
    | (none, x) => ((takeFirst f xs).1.map fun r => (r.1 + 1, r.2), some x :: (takeFirst f xs).2)

theorem slotAt_takeFirst (f : α → Option β × α) (xs : List (Option α)) (i : ℕ) :
    slotAt (takeFirst f xs).2 i = slotAt xs i ∨
      ∃ x, slotAt xs i = some x ∧ slotAt (takeFirst f xs).2 i = some (f x).2 := by
  induction xs generalizing i with
  | nil => exact .inl rfl
  | cons o xs ih =>
    cases o with
    | none =>
      cases i with
      | zero => exact .inl rfl
      | succ i => simpa only [takeFirst, slotAt_succ] using ih i
    | some x =>
      rcases hf : f x with ⟨b | b, x'⟩
      · simp only [takeFirst, hf]
        cases i with
        | zero => exact .inr ⟨x, rfl, by rw [hf]; rfl⟩
        | succ i => simpa only [slotAt_succ] using ih i
      · simp only [takeFirst, hf]
        cases i with
        | zero => exact .inr ⟨x, rfl, by rw [hf]; rfl⟩
        | succ i => exact .inl (by simp only [slotAt_succ])

/-- What is given is an entry's. -/
theorem of_takeFirst {f : α → Option β × α} {xs : List (Option α)} {i : ℕ} {b : β}
    (h : (takeFirst f xs).1 = some (i, b)) :
    ∃ x, slotAt xs i = some x ∧ (f x).1 = some b := by
  induction xs generalizing i with
  | nil => cases h
  | cons o xs ih =>
    have hlater : (takeFirst f xs).1.map (fun r => (r.1 + 1, r.2)) = some (i, b) →
        ∃ x, slotAt (o :: xs) i = some x ∧ (f x).1 = some b := by
      intro hmap
      obtain ⟨⟨j, b'⟩, hj, heq⟩ := Option.map_eq_some_iff.1 hmap
      obtain ⟨rfl, rfl⟩ := Prod.mk.inj heq
      obtain ⟨x, hx, hfx⟩ := ih hj
      exact ⟨x, by rw [slotAt_succ, hx], hfx⟩
    cases o with
    | none => exact hlater h
    | some x =>
      rcases hf : f x with ⟨b' | b', x'⟩
      · simp only [takeFirst, hf] at h
        exact hlater h
      · simp only [takeFirst, hf] at h
        obtain ⟨rfl, rfl⟩ := Prod.mk.inj (Option.some.inj h)
        exact ⟨x, rfl, by rw [hf]⟩

/-- Where none has anything to give, each was asked. -/
theorem takeFirst_none {f : α → Option β × α} {xs : List (Option α)}
    (h : (takeFirst f xs).1 = none) {i : ℕ} {x : α} (hx : slotAt xs i = some x) :
    (f x).1 = none ∧ slotAt (takeFirst f xs).2 i = some (f x).2 := by
  induction xs generalizing i with
  | nil => cases hx
  | cons o xs ih =>
    cases o with
    | none =>
      have htail : (takeFirst f xs).1 = none := Option.map_eq_none_iff.1 h
      cases i with
      | zero => cases hx
      | succ i =>
        rw [slotAt_succ] at hx
        simpa only [takeFirst, slotAt_succ] using ih htail hx
    | some z =>
      rcases hf : f z with ⟨b | b, z'⟩
      · simp only [takeFirst, hf] at h ⊢
        have htail : (takeFirst f xs).1 = none := Option.map_eq_none_iff.1 h
        cases i with
        | zero =>
          obtain rfl := Option.some.inj hx
          rw [hf]
          exact ⟨rfl, rfl⟩
        | succ i =>
          rw [slotAt_succ] at hx ⊢
          exact ih htail hx
      · simp only [takeFirst, hf] at h
        cases h

end Lib
