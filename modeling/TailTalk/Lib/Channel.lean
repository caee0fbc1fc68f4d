/-
  Bounded channels, as seen by a sender that does not wait, and by the receiver.
-/
import Mathlib.Data.Nat.Notation
import Mathlib.Data.List.Basic

namespace Lib

/-- The messages not yet received, never more than the capacity; `closed` once the receiver
    is gone. -/
structure Channel (α : Type) (capacity : ℕ) where
  queue : List α
  closed : Bool
  bounded : queue.length ≤ capacity

/-- Why a channel refuses a value. -/
inductive TrySendError where
  | full
  | closed

namespace Channel

variable {α : Type} {capacity : ℕ}

/-- An open channel with nothing in it. -/
def empty : Channel α capacity := ⟨[], false, Nat.zero_le _⟩

/-- A send that does not wait. -/
def trySend (c : Channel α capacity) (a : α) : Except TrySendError (Channel α capacity) :=
  if c.closed then .error .closed
  else if h : c.queue.length < capacity then
    .ok { c with queue := c.queue ++ [a], bounded := by simpa using Nat.succ_le_of_lt h }
  else .error .full

/-- Send and ignore the outcome. -/
def offer (c : Channel α capacity) (a : α) : Channel α capacity :=
  match c.trySend a with
  | .ok c' => c'
  | .error _ => c

/-- The next message, if there is one, and what is left. -/
def recv (c : Channel α capacity) : Option (α × Channel α capacity) :=
  match h : c.queue with
  | [] => none
  | a :: rest =>
    have hrest : rest.length ≤ capacity := by
      have hbound := c.bounded
      rw [h] at hbound
      exact Nat.le_of_succ_le hbound
    some (a, ⟨rest, c.closed, hrest⟩)

theorem trySend_ok {c c' : Channel α capacity} {a : α} (h : c.trySend a = .ok c') :
    c.closed = false ∧ c'.closed = false := by
  unfold trySend at h
  split at h
  · cases h
  · rename_i hopen
    rw [Bool.not_eq_true] at hopen
    split at h
    · cases h
      exact ⟨hopen, hopen⟩
    · cases h

theorem trySend_closed {c : Channel α capacity} {a : α} (h : c.trySend a = .error .closed) :
    c.closed = true := by
  unfold trySend at h
  split at h
  · assumption
  · split at h
    · cases h
    · cases h

theorem recv_closed {c c' : Channel α capacity} {a : α} (h : c.recv = some (a, c')) :
    c'.closed = c.closed := by
  unfold recv at h
  split at h
  · cases h
  · cases h
    rfl

end Channel

end Lib
