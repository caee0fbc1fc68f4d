/-
  Credit — a source that may only send what a sink has reported room for.

  `Safe` says that what was delivered and what is promised fit in the last
  report.  It stays so (`safe_step`) while nothing is promised beyond the room
  left, no reply exceeds its promise, and no report below `cap` comes while a
  promise is out.
-/
import TailTalk.Lib.Run

namespace Lib

/-- What the sink has reported, and what was made of it. -/
structure Account where
  /-- the room last reported -/
  credit : ℕ
  /-- the units delivered since then -/
  used : ℕ
  /-- a client is there -/
  opened : Bool
  /-- a promise is out -/
  out : Bool

namespace Account

/-- What happens to an account. -/
inductive Act where
  | report (n : ℕ)
  | opens
  | closes
  /-- the promise is answered by `k` units -/
  | settle (k : ℕ)
  /-- make a promise, if the policy allows one -/
  | issue

/-- The policy looks at the report, not at what was delivered since. -/
def WouldIssue (cap : ℕ) (t : Account) : Prop :=
  t.opened = true ∧ t.out = false ∧ cap ≤ t.credit

instance (cap : ℕ) (t : Account) : Decidable (t.WouldIssue cap) := by
  unfold WouldIssue; infer_instance

/-- One of them; a promise is made whenever the last report allows one. -/
def step (cap : ℕ) (t : Account) : Act → Account
  | .report n => { t with credit := n, used := 0 }
  | .opens => if t.opened then t else { t with opened := true, out := false }
  | .closes => { t with opened := false, out := false }
  | .settle k => { t with out := false, used := t.used + k }
  | .issue => if t.WouldIssue cap then { t with out := true } else t

/-- What was delivered and promised fits in the room reported. -/
def Safe (cap : ℕ) (t : Account) : Prop := t.used + (if t.out then cap else 0) ≤ t.credit

/-- The condition on an action. -/
def Covered (cap : ℕ) (t : Account) : Act → Prop
  | .report n => t.out = true → cap ≤ n
  | .opens => True
  | .closes => True
  | .settle k => t.out = true ∧ k ≤ cap
  | .issue => t.WouldIssue cap → t.used + cap ≤ t.credit

instance (cap : ℕ) (t : Account) : ∀ a, Decidable (t.Covered cap a)
  | .report n => inferInstanceAs (Decidable (t.out = true → cap ≤ n))
  | .opens | .closes => isTrue trivial
  | .settle k => inferInstanceAs (Decidable (t.out = true ∧ k ≤ cap))
  | .issue => inferInstanceAs (Decidable (t.WouldIssue cap → t.used + cap ≤ t.credit))

variable {cap : ℕ} {t : Account}

theorem Safe.used_le (h : t.Safe cap) : t.used ≤ t.credit := Nat.le_of_add_right_le h

theorem Safe.room (h : t.Safe cap) (hout : t.out = true) : t.used + cap ≤ t.credit := by
  rw [Safe, if_pos hout] at h
  exact h

/-- **A covered action keeps the account safe.** -/
theorem safe_step {a : Act} (h : t.Safe cap) (hc : t.Covered cap a) : (t.step cap a).Safe cap := by
  have hused := h.used_le
  cases a with
  | report n =>
    show 0 + (if t.out then cap else 0) ≤ n
    split_ifs with hout
    · rw [Nat.zero_add]; exact hc hout
    · exact Nat.zero_le n
  | opens =>
    simp only [step]
    split_ifs
    · exact h
    · exact hused
  | closes => exact hused
  | settle k =>
    have hroom := h.room hc.1
    show t.used + k + 0 ≤ t.credit
    have := hc.2
    omega
  | issue =>
    simp only [step]
    split_ifs with hw
    · exact hc hw
    · exact h

theorem safe_run {as : List Act} (h : t.Safe cap) (hc : Along (step cap) (Covered cap) t as) :
    (run (step cap) t as).Safe cap := by
  have hstep : ∀ (t : Account) (a : Act), t.Safe cap → t.Covered cap a →
      (t.step cap a).Safe cap := fun _ _ h hc => safe_step h hc
  exact inv_run (step cap) hstep h hc

end Account

end Lib
