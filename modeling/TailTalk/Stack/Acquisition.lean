/-
  LocalTalk node address acquisition.

  Pick a random candidate, send a burst of ENQ frames addressed to it (with the
  candidate as the source too), and claim it if no ACK comes back.  An ACK
  whose source is the candidate means the address is defended: pick another and
  retry.
-/
import Mathlib.Tactic.Common
import TailTalk.Core

namespace TailTalk

/-- Server nodes allocate from 128..=254, user nodes from 1..=127. -/
inductive NodeClass where
  | user
  | server

/-- The numbers of a class. -/
def NodeClass.range : NodeClass → UInt8 × UInt8
  | user => (1, 127)
  | server => (128, 254)

/-- What the stack is told. -/
inductive AcquireEvent where
  | sendEnq (candidate : UInt8)
  | claimed (node : UInt8)

/-- The candidate and its probes. -/
structure Acquisition where
  rng : Rand
  nodeClass : NodeClass
  probesPerCandidate : ℕ
  probeInterval : Micros
  candidate : UInt8
  probesSent : ℕ
  nextActionAt : Micros
  done : Bool

namespace Acquisition

/-- Probes in a burst. -/
def DEFAULT_PROBES : ℕ := 8

/-- The time between them. -/
def DEFAULT_INTERVAL_US : Micros := 200

/-- A first candidate. -/
def new (nodeClass : NodeClass) (seed : UInt32) (now : Micros) : Acquisition :=
  let (lo, hi) := nodeClass.range
  let (candidate, rng) := (Rand.new seed).inRange lo hi
  { rng, nodeClass, probesPerCandidate := DEFAULT_PROBES, probeInterval := DEFAULT_INTERVAL_US,
    candidate, probesSent := 0, nextActionAt := now, done := false }

/-- A candidate other than the taken one. -/
def nextCandidate (a : Acquisition) : UInt8 × Rand :=
  let (lo, hi) := a.nodeClass.range
  let (next, rng) := a.rng.inRange lo hi
  (if next = a.candidate then if next = hi then lo else next + 1 else next, rng)

/-- An ACK arrived.  If its source is our candidate, some node is defending it. -/
def onAck (a : Acquisition) (srcNode : UInt8) (now : Micros) : Acquisition :=
  if a.done = true ∨ srcNode ≠ a.candidate then a
  else
    let (candidate, rng) := a.nextCandidate
    { a with rng, candidate, probesSent := 0, nextActionAt := now }

/-- When it is to be polled. -/
def nextDeadline (a : Acquisition) : Option Micros := if a.done then none else some a.nextActionAt

/-- Is something due? -/
def due (a : Acquisition) (now : Micros) : Bool := !a.done && decide (a.nextActionAt ≤ now)

/-- Advance the probe schedule. -/
def poll (a : Acquisition) (now : Micros) : Option AcquireEvent × Acquisition :=
  if a.done = true ∨ now < a.nextActionAt then (none, a)
  else if a.probesSent < a.probesPerCandidate then
    (some (.sendEnq a.candidate),
      { a with probesSent := a.probesSent + 1, nextActionAt := now + a.probeInterval })
  else
    -- The full burst went unanswered for a probe interval.
    (some (.claimed a.candidate), { a with done := true })

/-- Nothing before the deadline; then one more probe of the burst, or the claim that ends it. -/
inductive Polled (a : Acquisition) (now : Micros) : Option AcquireEvent → Acquisition → Prop
  | early : a.due now = false → Polled a now none a
  | probe : a.due now = true → a.probesSent < a.probesPerCandidate →
      Polled a now (some (.sendEnq a.candidate))
        { a with probesSent := a.probesSent + 1, nextActionAt := now + a.probeInterval }
  | claim : a.due now = true → a.probesPerCandidate ≤ a.probesSent →
      Polled a now (some (.claimed a.candidate)) { a with done := true }

theorem poll_cases (a : Acquisition) (now : Micros) :
    Polled a now (a.poll now).1 (a.poll now).2 := by
  unfold poll
  by_cases hdue : a.done = true ∨ now < a.nextActionAt
  · rw [if_pos hdue]
    refine .early ?_
    rcases hdue with hdone | hnow
    · simp [due, hdone]
    · simp [due, hnow]
  · have hdue' : a.due now = true := by
      simp only [not_or, Bool.not_eq_true, Nat.not_lt] at hdue
      simp [due, hdue]
    rw [if_neg hdue]
    by_cases hsent : a.probesSent < a.probesPerCandidate
    · rw [if_pos hsent]
      exact .probe hdue' hsent
    · rw [if_neg hsent]
      exact .claim hdue' (Nat.not_lt.1 hsent)

theorem poll_poll {a a' : Acquisition} {now : Micros} {c : UInt8} (hpos : 0 < a.probeInterval)
    (h : a.poll now = (some (.sendEnq c), a')) : a'.poll now = (none, a') := by
  have hcases := a.poll_cases now
  rw [h] at hcases
  generalize hev : some (AcquireEvent.sendEnq c) = ev at hcases
  cases hcases with
  | early => cases hev
  | probe => exact if_pos (Or.inr (Nat.lt_add_of_pos_right hpos))
  | claim => cases hev

/-- An ACK leaves the burst alone or starts it again. -/
theorem onAck_cases (a : Acquisition) (srcNode : UInt8) (now : Micros) :
    a.onAck srcNode now = a ∨ (a.onAck srcNode now).probesSent = 0 := by
  unfold onAck
  split_ifs
  · exact Or.inl rfl
  · exact Or.inr rfl

end Acquisition

end TailTalk
