/-
  Taking a text apart from the front.

  If at most one piece can be taken off, and none looks further ahead than the
  text it is taken from, then what comes out does not depend on how much of the
  text was there when: `TakesApart.append` and `TakesApart.unique`.
-/
import Mathlib.Data.List.Basic

namespace Lib

variable {α β : Type*} (Next : List α → List β → List α → Prop)

/-- Some pieces are taken off the front. -/
inductive TakesApart : List α → List β → List α → Prop
  | refl (t : List α) : TakesApart t [] t
  | step {t r r' : List α} {ws ws' : List β} (h : Next t ws r) (hrest : TakesApart r ws' r') :
    TakesApart t (ws ++ ws') r'

/-- No piece can be taken off. -/
def Stuck (t : List α) : Prop := ∀ ws r, ¬ Next t ws r

variable {Next}

theorem TakesApart.trans {t r r' : List α} {ws ws' : List β} (h : TakesApart Next t ws r)
    (h' : TakesApart Next r ws' r') : TakesApart Next t (ws ++ ws') r' := by
  induction h with
  | refl t => exact h'
  | step hnext hrest ih =>
    rw [List.append_assoc]
    exact .step hnext (ih h')

theorem TakesApart.snoc {t r r' : List α} {ws ws' : List β} (h : TakesApart Next t ws r)
    (h' : Next r ws' r') : TakesApart Next t (ws ++ ws') r' := by
  have hone := TakesApart.step h' (.refl r')
  rw [List.append_nil] at hone
  exact h.trans hone

theorem TakesApart.append {t r : List α} {ws : List β} (h : TakesApart Next t ws r)
    (hmore : ∀ t ws r, Next t ws r → ∀ p, Next (t ++ p) ws (r ++ p)) (p : List α) :
    TakesApart Next (t ++ p) ws (r ++ p) := by
  induction h with
  | refl t => exact .refl _
  | step hnext hrest ih => exact .step (hmore _ _ _ hnext p) ih

/-- **One way to take a text apart.** -/
theorem TakesApart.unique {t r r' : List α} {ws ws' : List β} (h : TakesApart Next t ws r)
    (h' : TakesApart Next t ws' r')
    (hone : ∀ t ws r ws' r', Next t ws r → Next t ws' r' → ws = ws' ∧ r = r') (hr : Stuck Next r) (hr' : Stuck Next r') :
    ws = ws' ∧ r = r' := by
  induction h generalizing ws' with
  | refl t =>
    cases h' with
    | refl => exact ⟨rfl, rfl⟩
    | step hnext hrest => exact absurd hnext (hr _ _)
  | step hnext hrest ih =>
    cases h' with
    | refl => exact absurd hnext (hr' _ _)
    | step hnext' hrest' =>
      obtain ⟨rfl, rfl⟩ := hone _ _ _ _ _ hnext hnext'
      obtain ⟨rfl, hend⟩ := ih hrest' hr
      exact ⟨rfl, hend⟩

end Lib
