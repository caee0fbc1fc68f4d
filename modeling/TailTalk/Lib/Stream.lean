/-
  Segments of a reference stream, and reassembly.

  A receiver that has taken the first `r` items of a stream and is handed a
  genuine segment of it can move on exactly when the segment starts at or
  before `r` and ends after it: `Segment.extend` says what it then holds.
-/
import Mathlib.Data.Nat.Notation
import Mathlib.Data.List.Basic

namespace Lib

variable {α : Type*}

/-- `xs` are the items of the stream `S` from position `p` on. -/
def Segment (S : List α) (p : ℕ) (xs : List α) : Prop := xs <+: S.drop p

namespace Segment
variable {S xs : List α} {p : ℕ}

theorem nil (S : List α) (p : ℕ) : Segment S p [] := List.nil_prefix

theorem append (h : Segment S p xs) (hp : p ≤ S.length) (T : List α) :
    Segment (S ++ T) p xs := by
  rw [Segment, List.drop_append_of_le_length hp]
  exact h.trans (List.prefix_append _ _)

theorem length_le (h : Segment S p xs) (hne : xs ≠ []) : p + xs.length ≤ S.length := by
  have hlen := List.IsPrefix.length_le h
  have hpos := List.length_pos_iff.2 hne
  rw [List.length_drop] at hlen
  omega

theorem mono {T : List α} (h : Segment S p xs) (hST : S <+: T) : Segment T p xs := by
  by_cases hne : xs = []
  · rw [hne]; exact nil T p
  · obtain ⟨U, rfl⟩ := hST
    exact h.append (by have := h.length_le hne; omega) U

theorem drop (h : Segment S p xs) (n : ℕ) : Segment S (p + n) (xs.drop n) := by
  obtain ⟨t, ht⟩ := h
  rw [Segment, ← List.drop_drop, ← ht]
  by_cases hn : n ≤ xs.length
  · rw [List.drop_append_of_le_length hn]; exact List.prefix_append _ _
  · rw [List.drop_eq_nil_of_le (by omega)]; exact List.nil_prefix

theorem take (h : Segment S p xs) (n : ℕ) : Segment S p (xs.take n) :=
  (List.take_prefix n xs).trans h

/-- **Reassembly.**  The first `r` items and a segment around `r` give the
    items up to the end of the segment. -/
theorem extend (h : Segment S p xs) {r : ℕ} (hp : p ≤ r) (hr : r ≤ p + xs.length) :
    S.take r ++ xs.drop (r - p) = S.take (p + xs.length) := by
  obtain ⟨t, ht⟩ := h
  have hdrop : S.drop r = xs.drop (r - p) ++ t := by
    calc S.drop r = (S.drop p).drop (r - p) := by rw [List.drop_drop]; congr 1; omega
      _ = xs.drop (r - p) ++ t := by
        rw [← ht, List.drop_append_of_le_length (by omega)]
  have hlen : (xs.drop (r - p)).length = p + xs.length - r := by rw [List.length_drop]; omega
  calc S.take r ++ xs.drop (r - p)
      = S.take r ++ (S.drop r).take (p + xs.length - r) := by
        rw [hdrop, ← hlen, List.take_left]
    _ = S.take (r + (p + xs.length - r)) := by rw [← List.take_add]
    _ = S.take (p + xs.length) := by congr 1; omega

end Segment

end Lib
