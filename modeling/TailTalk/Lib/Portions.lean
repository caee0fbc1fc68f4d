/-
  Texts handed out in portions, no portion with bytes of two texts.
-/
import Mathlib.Data.List.Basic

namespace Lib

variable {α : Type*}

/-- The texts `ws`, one after the other, cut into the portions `bs`. -/
inductive Portions : List (List α) → List (List α) → Prop
  | nil : Portions [] []
  /-- the rest of a text -/
  | whole {ws bs} (w : List α) (h : Portions ws bs) : Portions (w :: ws) (w :: bs)
  /-- a part of a text, with more of it to come -/
  | part {w ws bs} (b : List α) (h : Portions (w :: ws) bs) : Portions ((b ++ w) :: ws) (b :: bs)

namespace Portions
variable {ws vs bs cs left : List (List α)} {a b : List α}

theorem refl : ∀ ws : List (List α), Portions ws ws
  | [] => .nil
  | w :: ws => .whole w (refl ws)

theorem append (h : Portions ws bs) (h' : Portions vs cs) : Portions (ws ++ vs) (bs ++ cs) := by
  induction h with
  | nil => exact h'
  | whole w _ ih => exact .whole w ih
  | part b _ ih => exact .part b ih

/-- The portions together are the texts together. -/
theorem flatten (h : Portions ws bs) : bs.flatten = ws.flatten := by
  induction h with
  | nil => rfl
  | whole w _ ih => rw [List.flatten_cons, List.flatten_cons, ih]
  | part b _ ih =>
    rw [List.flatten_cons, ih, List.flatten_cons, List.flatten_cons, List.append_assoc]

theorem split (h : Portions ws (bs ++ (a ++ b) :: cs)) : Portions ws (bs ++ a :: b :: cs) := by
  induction bs generalizing ws with
  | nil =>
    generalize hab : a ++ b = ab at h
    cases h with
    | whole w h =>
      subst hab
      exact .part a (.whole b h)
    | part _ h =>
      subst hab
      rw [List.append_assoc]
      exact .part a (.part b h)
  | cons x bs ih =>
    cases h with
    | whole _ h => exact .whole x (ih h)
    | part _ h => exact .part x (ih h)

theorem done_iff (h : Portions ws (bs ++ left)) (hleft : ∀ b ∈ left, b ≠ []) :
    Portions ws bs ↔ left = [] := by
  constructor
  · intro hbs
    have hflat := h.flatten.trans hbs.flatten.symm
    rw [List.flatten_append] at hflat
    have hnil := List.flatten_eq_nil_iff.1
      (List.append_cancel_left (hflat.trans (List.append_nil _).symm))
    exact List.eq_nil_iff_forall_not_mem.2 fun b hb => hleft b hb (hnil b hb)
  · rintro rfl
    rwa [List.append_nil] at h

end Portions

end Lib
