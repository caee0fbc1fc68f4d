/-
  Positional reads and writes — a sequence read from a place on and written at
  one, as a whole and piece by piece: writing one piece after another is
  writing all of it.
-/
import Mathlib

namespace Lib

universe u
variable {α : Type u}

/-! ## Reads -/

/-- Everything through the first stop. -/
def upTo (stops : α → Bool) : List α → List α
  | [] => []
  | a :: l => if stops a then [a] else a :: upTo stops l

section
variable {stops : α → Bool} {l l' : List α}

@[simp] theorem upTo_nil : upTo stops [] = [] := rfl

theorem upTo_append_of_none (h : l.any stops = false) : upTo stops (l ++ l') = l ++ upTo stops l' := by
  induction l with
  | nil => rfl
  | cons a l ih =>
    rw [List.any_cons, Bool.or_eq_false_iff] at h
    rw [List.cons_append, upTo, h.1, if_neg Bool.false_ne_true, ih h.2, List.cons_append]

/-- What comes after a stop is not read. -/
theorem upTo_append_of_any (h : l.any stops = true) : upTo stops (l ++ l') = upTo stops l := by
  induction l with
  | nil => cases h
  | cons a l ih =>
    rw [List.cons_append, upTo, upTo]
    split
    · rfl
    · rename_i ha
      rw [List.any_cons, Bool.eq_false_iff.2 ha, Bool.false_or] at h
      rw [ih h]

theorem upTo_of_findIdx? {i : ℕ} (h : l.findIdx? stops = some i) :
    upTo stops l = l.take (i + 1) := by
  induction l generalizing i with
  | nil => cases h
  | cons a l ih =>
    rw [List.findIdx?_cons] at h
    rw [upTo]
    split
    · rename_i ha
      rw [if_pos ha] at h
      obtain rfl := Option.some.inj h
      rfl
    · rename_i ha
      rw [if_neg ha] at h
      obtain ⟨j, hj, rfl⟩ := Option.map_eq_some_iff.1 h
      rw [ih hj]
      rfl

end

/-! ## Writes -/

/-- `new` is `old` with `data` written at `pos`; a write of nothing changes nothing. -/
structure Written (zero : α) (old : List α) (pos : ℕ) (data new : List α) : Prop where
  length : new.length = if data = [] then old.length else max old.length (pos + data.length)
  inside : ∀ i < data.length, new[pos + i]? = data[i]?
  outside : ∀ i < new.length, i < pos ∨ pos + data.length ≤ i → new[i]? = some (old.getD i zero)

namespace Written

variable {zero : α} {old mid new data more : List α} {pos : ℕ}

theorem nil (zero : α) (old : List α) (pos : ℕ) : Written zero old pos [] old where
  length := rfl
  inside := fun i hi => nomatch hi
  outside := by
    intro i hi _
    rw [List.getElem?_eq_getElem hi, List.getD_eq_getElem _ _ hi]

theorem length_le (h : Written zero old pos data new) : old.length ≤ new.length := by
  rw [h.length]
  split
  · exact Nat.le_refl _
  · exact Nat.le_max_left _ _

theorem getD (h : Written zero old pos data new) {i : ℕ} (hi : i < pos ∨ pos + data.length ≤ i) :
    new.getD i zero = old.getD i zero := by
  by_cases hlt : i < new.length
  · rw [List.getD_eq_getElem?_getD, h.outside i hlt hi, Option.getD_some]
  · have hle := h.length_le
    rw [List.getD_eq_default _ _ (by omega), List.getD_eq_default _ _ (by omega)]

/-- **One write after another is one write.** -/
theorem append (h : Written zero old pos data mid)
    (h' : Written zero mid (pos + data.length) more new) :
    Written zero old pos (data ++ more) new where
  length := by
    rw [h'.length, h.length, List.length_append]
    by_cases hdata : data = []
    · by_cases hmore : more = [] <;> simp [hdata, hmore]
    · by_cases hmore : more = []
      · simp [hdata, hmore]
      · simp only [hdata, hmore, List.append_eq_nil_iff, and_self, ↓reduceIte]
        omega
  inside := by
    intro i hi
    by_cases hlt : i < data.length
    · have hmid : mid[pos + i]? = data[i]? := h.inside i hlt
      have hlen : pos + i < mid.length := by
        by_contra hge
        rw [List.getElem?_eq_none (by omega), List.getElem?_eq_getElem hlt] at hmid
        cases hmid
      have hle := h'.length_le
      rw [h'.outside (pos + i) (by omega) (Or.inl (by omega)), List.getElem?_append_left hlt,
        ← hmid, List.getElem?_eq_getElem hlen, List.getD_eq_getElem _ _ hlen]
    · rw [List.length_append] at hi
      have hmore := h'.inside (i - data.length) (by omega)
      rw [List.getElem?_append_right (by omega), ← hmore]
      congr 1
      omega
  outside := by
    intro i hi hout
    rw [List.length_append] at hout
    rw [h'.outside i hi (by omega), h.getD (by omega)]

end Written

theorem written_splice (zero : α) (old : List α) (pos : ℕ) {data : List α} (hdata : data ≠ []) :
    Written zero old pos data ((old ++ List.replicate (pos - old.length) zero).take pos ++ data ++
      old.drop (pos + data.length)) := by
  have hfront : ((old ++ List.replicate (pos - old.length) zero).take pos).length = pos := by
    rw [List.length_take, List.length_append, List.length_replicate]
    omega
  have hlength : ((old ++ List.replicate (pos - old.length) zero).take pos ++ data ++
      old.drop (pos + data.length)).length = max old.length (pos + data.length) := by
    rw [List.length_append, List.length_append, hfront, List.length_drop]
    omega
  refine ⟨by rw [hlength, if_neg hdata], fun i hi => ?_, fun i hi hout => ?_⟩
  · rw [List.append_assoc, List.getElem?_append_right (by omega), hfront, Nat.add_sub_cancel_left,
      List.getElem?_append_left hi]
  · rw [hlength] at hi
    rcases hout with hlt | hge
    · rw [List.append_assoc, List.getElem?_append_left (by omega), List.getElem?_take_of_lt hlt]
      by_cases hold : i < old.length
      · rw [List.getElem?_append_left hold, List.getElem?_eq_getElem hold,
          List.getD_eq_getElem _ _ hold]
      · rw [List.getElem?_append_right (by omega), List.getD_eq_default _ _ (by omega),
          List.getElem?_replicate, if_pos (by omega)]
    · have hlen : i < old.length := by omega
      rw [List.getElem?_append_right (by rw [List.length_append]; omega), List.length_append, hfront,
        List.getElem?_drop, Nat.add_sub_cancel' hge, List.getElem?_eq_getElem hlen,
        List.getD_eq_getElem _ _ hlen]

end Lib
