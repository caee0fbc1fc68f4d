/-
  Windows — sources that send into a buffer of `size` units what they were
  given room for.

  A source is given the room that the last report showed; what came after the
  report, unseen, is `late`: so much too much it was given.  `held_run`: the
  buffer is overrun by no more than the slack of the sources and its own.
-/
import TailTalk.Lib.Run
import Mathlib

namespace Lib

/-- A buffer, and what its sources may still send. -/
structure Window (ι : Type*) where
  held : ℕ
  /-- so much of it at most is the buffer's own -/
  own : ℕ
  /-- what was held at the last report -/
  seen : ℕ
  /-- what a source may still send -/
  given : ι → ℕ
  /-- what had come since the report when that was given, and has not left -/
  late : ι → ℕ

namespace Window
variable {ι : Type*} [DecidableEq ι]

/-- What happens to the buffer. -/
inductive Act (ι : Type*) where
  /-- units come from a source -/
  | take (i : ι) (n : ℕ)
  /-- units of the buffer's own -/
  | own (n : ℕ)
  /-- every source is given the room last reported, a fresh one no more -/
  | give (fresh : ι → Bool)
  /-- units leave -/
  | drop (n : ℕ)
  /-- the buffer is looked at -/
  | report (held : ℕ)

/-- The units that an action brings. -/
def Act.units : Act ι → ℕ
  | take _ n | own n => n
  | _ => 0

/-- What the sources do, and what is done for them. -/
def Act.Incoming : Act ι → Prop
  | drop _ | report _ => False
  | _ => True

/-- An empty buffer, all of whose room is given. -/
def start (size : ℕ) : Window ι := ⟨0, 0, 0, fun _ => size, fun _ => 0⟩

/-- A source with less than the room reported is given that. -/
def Renewed (size : ℕ) (w : Window ι) (fresh : ι → Bool) (i : ι) : Prop :=
  fresh i = true ∨ w.given i < size - w.seen

instance (size : ℕ) (w : Window ι) (fresh : ι → Bool) (i : ι) :
    Decidable (w.Renewed size fresh i) := inferInstanceAs (Decidable (_ ∨ _))

/-- One of them. -/
def step (size : ℕ) (w : Window ι) : Act ι → Window ι
  | .take i n =>
    { w with
      held := w.held + n
      given := Function.update w.given i (w.given i - n)
      late := fun j => if j = i then w.late j else w.late j + n }
  | .own n => { w with held := w.held + n, own := w.own + n, late := fun j => w.late j + n }
  | .give fresh =>
    { w with
      given := fun i => if w.Renewed size fresh i then size - w.seen else w.given i
      late := fun i => if w.Renewed size fresh i then w.held - w.seen else w.late i }
  | .drop n =>
    { w with
      held := w.held - n
      own := min w.own (w.held - n)
      late := fun j => w.late j - min n w.held }
  | .report held =>
    { w with held := min held w.held, own := min w.own held, seen := min held w.held }

/-- The sources send no more than they were given. -/
def Conforms (w : Window ι) : Act ι → Prop
  | .take i n => n ≤ w.given i
  | _ => True

instance (w : Window ι) : ∀ a, Decidable (w.Conforms a)
  | .take i n => inferInstanceAs (Decidable (n ≤ w.given i))
  | .own _ | .give _ | .drop _ | .report _ => isTrue trivial

/-- A source leaves what it was given late, and the buffer's own units stay within the slack that
    the sources have not used. -/
def Timely (size slack : ℕ) (w : Window ι) : Act ι → Prop
  | .take i n => n ≠ 0 → n + w.late i ≤ w.given i + slack
  | .own n => w.own + n + (w.held - w.own - size) ≤ slack
  | _ => True

instance (size slack : ℕ) (w : Window ι) : ∀ a, Decidable (w.Timely size slack a)
  | .take i n => inferInstanceAs (Decidable (n ≠ 0 → n + w.late i ≤ w.given i + slack))
  | .own n => inferInstanceAs (Decidable (w.own + n + (w.held - w.own - size) ≤ slack))
  | .give _ | .drop _ | .report _ => isTrue trivial

/-- What is held and what may come exceed the size by what was given late. -/
def Kept (size : ℕ) (w : Window ι) : Prop :=
  ∀ i, w.given i = 0 ∨ w.held + w.given i ≤ size + w.late i

variable {size slack : ℕ} {w : Window ι}

omit [DecidableEq ι] in
theorem kept_start : (start size : Window ι).Kept size := fun _ =>
  .inr (Nat.le_of_eq (Nat.zero_add size))

/-- **The accounting invariant.** -/
theorem kept_step (h : w.Kept size) (a : Act ι) : (w.step size a).Kept size := by
  intro i
  have hi := h i
  cases a with
  | take j n =>
    by_cases hij : i = j
    · subst hij
      show Function.update w.given i (w.given i - n) i = 0 ∨ w.held + n +
        Function.update w.given i (w.given i - n) i ≤ size + if i = i then w.late i else _
      rw [Function.update_self, if_pos rfl]
      omega
    · show Function.update w.given j (w.given j - n) i = 0 ∨ w.held + n +
        Function.update w.given j (w.given j - n) i ≤ size + if i = j then _ else w.late i + n
      rw [Function.update_of_ne hij, if_neg hij]
      omega
  | own n =>
    show w.given i = 0 ∨ w.held + n + w.given i ≤ size + (w.late i + n)
    omega
  | give fresh =>
    show (if w.Renewed size fresh i then size - w.seen else w.given i) = 0 ∨
      w.held + (if w.Renewed size fresh i then size - w.seen else w.given i) ≤
        size + if w.Renewed size fresh i then w.held - w.seen else w.late i
    split
    · omega
    · exact hi
  | drop n =>
    show w.given i = 0 ∨ w.held - n + w.given i ≤ size + (w.late i - min n w.held)
    omega
  | report held =>
    show w.given i = 0 ∨ min held w.held + w.given i ≤ size + w.late i
    omega

theorem kept_run (h : w.Kept size) (as : List (Act ι)) : (run (step size) w as).Kept size := by
  induction as generalizing w with
  | nil => exact h
  | cons a as ih => exact ih (kept_step h a)

/-- **What comes in time fits.** -/
theorem held_step {a : Act ι} (h : w.Kept size) (hle : w.held ≤ size + slack)
    (hconf : w.Conforms a) (htime : w.Timely size slack a) :
    (w.step size a).held ≤ size + slack := by
  cases a with
  | take i n =>
    show w.held + n ≤ size + slack
    have hgiven : n ≤ w.given i := hconf
    have hlate : n ≠ 0 → n + w.late i ≤ w.given i + slack := htime
    by_cases hn : n = 0
    · subst hn
      exact hle
    · have hroom := h i
      have := hlate hn
      omega
  | own n =>
    show w.held + n ≤ size + slack
    have hown : w.own + n + (w.held - w.own - size) ≤ slack := htime
    omega
  | give fresh => exact hle
  | drop n => exact Nat.le_trans (Nat.sub_le _ _) hle
  | report held => exact Nat.le_trans (Nat.min_le_right _ _) hle

/-- **The window rule.** -/
theorem held_run {as : List (Act ι)} (h : w.Kept size) (hle : w.held ≤ size + slack)
    (hconf : Along (step size) Conforms w as) (htime : Along (step size) (Timely size slack) w as) :
    (run (step size) w as).held ≤ size + slack := by
  have hstep : ∀ (w : Window ι) (a : Act ι), w.Kept size ∧ w.held ≤ size + slack →
      w.Conforms a ∧ w.Timely size slack a →
      (w.step size a).Kept size ∧ (w.step size a).held ≤ size + slack :=
    fun _ a h hok => ⟨kept_step h.1 a, held_step h.1 h.2 hok.1 hok.2⟩
  exact (inv_run (step size) hstep ⟨h, hle⟩ (Along.and (step size) hconf htime)).2

theorem held_incoming {as : List (Act ι)} (h : ∀ a ∈ as, a.Incoming) :
    (run (step size) w as).held = w.held + (as.map Act.units).sum := by
  induction as generalizing w with
  | nil => rfl
  | cons a as ih =>
    rw [run_cons, ih fun b hb => h b (List.mem_cons_of_mem _ hb), List.map_cons, List.sum_cons,
      ← Nat.add_assoc]
    have ha := h a List.mem_cons_self
    cases a with
    | take i n => rfl
    | own n => rfl
    | give fresh => rfl
    | drop n => exact ha.elim
    | report held => exact ha.elim

end Window

end Lib
