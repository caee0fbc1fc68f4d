/-
  Work reported by its two ends — a mark when a piece of work opens and one
  when it closes.

  A desk is busy or free and keeps the marks it has put out.  One that becomes
  free without putting out a mark (`drops`) is not `Sound`, and never is again:
  `sound_run_iff`.
-/
import TailTalk.Lib.Run
import Mathlib.Tactic.Common

namespace Lib

/-- The two ends of a piece of work. -/
inductive Mark where
  | opens
  | closes
deriving DecidableEq

/-- The marks alternate, beginning with an opening. -/
def Alternates (marks : List Mark) : Prop :=
  ∀ i (h : i < marks.length), marks[i] = if i % 2 = 0 then .opens else .closes

section
variable {marks more : List Mark}

theorem alternates_nil : Alternates [] := fun _ h => absurd h (Nat.not_lt_zero _)

theorem alternates_concat {m : Mark} : Alternates (marks ++ [m]) ↔
    Alternates marks ∧ m = if marks.length % 2 = 0 then .opens else .closes := by
  constructor
  · intro h
    refine ⟨fun i hi => ?_, ?_⟩
    · have := h i (by rw [List.length_append]; omega)
      rwa [List.getElem_append_left hi] at this
    · have := h marks.length (by simp)
      rwa [List.getElem_concat_length rfl] at this
  · rintro ⟨h, rfl⟩ i hi
    rw [List.length_append, List.length_singleton] at hi
    rcases Nat.lt_succ_iff_lt_or_eq.1 hi with hlt | rfl
    · rw [List.getElem_append_left hlt]
      exact h i hlt
    · exact List.getElem_concat_length rfl _

/-- What has alternated so far did so at every time before. -/
theorem Alternates.of_append (h : Alternates (marks ++ more)) : Alternates marks := by
  intro i hi
  have := h i (by rw [List.length_append]; omega)
  rwa [List.getElem_append_left hi] at this

theorem Alternates.last_opens_iff (h : Alternates marks) :
    marks.getLast? = some .opens ↔ marks.length % 2 = 1 := by
  rcases List.eq_nil_or_concat' marks with rfl | ⟨before, m, rfl⟩
  · simp
  · obtain ⟨-, rfl⟩ := alternates_concat.1 h
    rw [List.getLast?_concat, List.length_append, List.length_singleton]
    split <;> simp <;> omega

theorem alternates_opens :
    Alternates (marks ++ [.opens]) ↔ Alternates marks ∧ marks.getLast? ≠ some .opens := by
  rw [alternates_concat]
  refine and_congr_right fun h => ?_
  rw [ne_eq, h.last_opens_iff]
  split <;> simp <;> omega

theorem alternates_closes :
    Alternates (marks ++ [.closes]) ↔ Alternates marks ∧ marks.getLast? = some .opens := by
  rw [alternates_concat]
  refine and_congr_right fun h => ?_
  rw [h.last_opens_iff]
  split <;> simp <;> omega

end

/-- Busy or not, and the marks put out. -/
structure Desk where
  busy : Bool
  marks : List Mark

namespace Desk

/-- What a desk does: it opens work, closes it, or drops it without a mark. -/
inductive Act where
  | starts
  | ends
  | drops
deriving DecidableEq

/-- One action at the desk. -/
def step (d : Desk) : Act → Desk
  | .starts => ⟨true, d.marks ++ [.opens]⟩
  | .ends => ⟨false, d.marks ++ [.closes]⟩
  | .drops => ⟨false, d.marks⟩

/-- Work is opened at a free desk, and given up at a busy one. -/
def Legal (d : Desk) (a : Act) : Prop := d.busy = true ↔ a ≠ .starts

/-- The marks alternate, and the last of them tells whether the desk is busy. -/
structure Sound (d : Desk) : Prop where
  alternates : Alternates d.marks
  busy_iff : d.busy = true ↔ d.marks.getLast? = some .opens

/-- Work was opened and the desk is free without a closing mark, or the marks
    went wrong after that. -/
def Lost (d : Desk) : Prop :=
  ¬ Alternates d.marks ∨ (d.busy = false ∧ d.marks.getLast? = some .opens)

section
variable {d : Desk} {a : Act}

theorem Lost.not_sound (h : d.Lost) : ¬ d.Sound := by
  intro hs
  rcases h with h | ⟨hfree, hlast⟩
  · exact h hs.alternates
  · rw [hs.busy_iff.2 hlast] at hfree
    cases hfree

theorem Sound.step (h : d.Sound) (hlegal : d.Legal a) (hkept : a ≠ .drops) :
    (d.step a).Sound := by
  cases a with
  | starts =>
    have hfree : d.marks.getLast? ≠ some .opens := fun hl =>
      absurd (h.busy_iff.2 hl) (mt hlegal.1 (not_not_intro rfl))
    exact ⟨alternates_opens.2 ⟨h.alternates, hfree⟩, by simp [Desk.step]⟩
  | ends =>
    have hbusy := h.busy_iff.1 (hlegal.2 nofun)
    exact ⟨alternates_closes.2 ⟨h.alternates, hbusy⟩, by simp [Desk.step]⟩
  | drops => exact absurd rfl hkept

theorem Sound.drop (h : d.Sound) (hlegal : d.Legal .drops) : (d.step .drops).Lost :=
  Or.inr ⟨rfl, h.busy_iff.1 (hlegal.2 nofun)⟩

/-- Nothing mends a lost desk: at a free one work can only be opened, for a second time. -/
theorem Lost.step (h : d.Lost) (hlegal : d.Legal a) : (d.step a).Lost := by
  rcases h with h | ⟨hfree, hlast⟩
  · left
    cases a with
    | drops => exact h
    | starts | ends => exact mt Alternates.of_append h
  · have hstart : a = .starts := by
      by_contra hne
      rw [hlegal.2 hne] at hfree
      cases hfree
    subst hstart
    exact Or.inl fun halt => (alternates_opens.1 halt).2 hlast

theorem Lost.run {acts : List Act} (h : d.Lost) (hlegal : Along Desk.step Legal d acts) :
    (run Desk.step d acts).Lost :=
  inv_run _ (fun _ _ hl hok => hl.step hok) h hlegal

/-- **The marks of a desk.**  After a run of a sound desk they are as they
    should be exactly when no work was dropped in it. -/
theorem sound_run_iff {acts : List Act} (h : d.Sound) (hlegal : Along Desk.step Legal d acts) :
    (run Desk.step d acts).Sound ↔ .drops ∉ acts := by
  induction acts generalizing d with
  | nil => simp [h]
  | cons a acts ih =>
    by_cases hdrop : a = .drops
    · subst hdrop
      have hlost : (run Desk.step (d.step .drops) acts).Lost := (h.drop hlegal.1).run hlegal.2
      simpa using hlost.not_sound
    · rw [run_cons, ih (h.step hlegal.1 hdrop) hlegal.2, List.mem_cons, not_or]
      exact ⟨fun hn => ⟨Ne.symm hdrop, hn⟩, And.right⟩

end

end Desk

end Lib
