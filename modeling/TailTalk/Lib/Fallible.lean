/-
  Computations that end in a value, an error of their own or a panic.

  `Calm` says that a computation does not panic; the `calm_*` lemmas take it
  apart along the computation.
-/
import TailTalk.Lib.Panic
import Mathlib

namespace Lib

/-- Computations with errors of their own, or a panic. -/
abbrev Fallible (ε α : Type) := Except (Panic ⊕ ε) α

section
variable {ε α β : Type}

/-- An error that is returned. -/
def fail (e : ε) : Fallible ε α := .error (.inr e)

/-- A computation with no errors of its own. -/
def orPanic : Checked α → Fallible ε α
  | .ok a => .ok a
  | .error p => .error (.inl p)

/-- A value, or the error in its absence. -/
def okOr (e : ε) : Option α → Fallible ε α
  | some a => .ok a
  | none => fail e

/-- The computation does not panic. -/
def Calm (x : Fallible ε α) : Prop := ∀ p, x ≠ .error (.inl p)

theorem calm_ok (a : α) : Calm (.ok a : Fallible ε α) := by
  intro p h
  cases h

theorem calm_fail (e : ε) : Calm (fail e : Fallible ε α) := by
  intro p h
  cases h

theorem calm_okOr (e : ε) (o : Option α) : Calm (okOr e o) := by
  cases o with
  | none => exact calm_fail e
  | some a => exact calm_ok a

theorem calm_orPanic {x : Checked α} : Calm (orPanic x : Fallible ε α) ↔ Returns x := by
  cases x with
  | ok a => exact ⟨fun _ => ⟨a, rfl⟩, fun _ => calm_ok a⟩
  | error p =>
    refine ⟨fun h => absurd rfl (h p), ?_⟩
    rintro ⟨a, h⟩
    cases h

@[simp] theorem orPanic_eq_ok {x : Checked α} {a : α} :
    (orPanic x : Fallible ε α) = .ok a ↔ x = .ok a := by
  cases x with
  | ok b =>
    constructor
    · intro h
      cases h
      rfl
    · intro h
      cases h
      rfl
  | error p =>
    constructor
    · intro h
      cases h
    · intro h
      cases h

@[simp] theorem okOr_eq_ok {e : ε} {o : Option α} {a : α} : okOr e o = .ok a ↔ o = some a := by
  cases o with
  | none =>
    constructor
    · intro h
      cases h
    · intro h
      cases h
  | some b =>
    constructor
    · intro h
      cases h
      rfl
    · intro h
      cases h
      rfl

/-- A computation is calm just when its first part is, and then the rest. -/
theorem calm_bind {x : Fallible ε α} {f : α → Fallible ε β} :
    Calm (x >>= f) ↔ Calm x ∧ ∀ a, x = .ok a → Calm (f a) := by
  cases x with
  | ok a =>
    refine ⟨fun h => ⟨calm_ok a, fun b hb => ?_⟩, fun h => h.2 a rfl⟩
    cases hb
    exact h
  | error e =>
    constructor
    · intro h
      refine ⟨fun p hp => h p (by rw [hp]; rfl), fun a ha => ?_⟩
      cases ha
    · rintro ⟨h, -⟩ p hp
      exact h p (by cases hp; rfl)

theorem calm_bind_of_calm {x : Fallible ε α} {f : α → Fallible ε β} (hf : ∀ a, Calm (f a)) :
    Calm (x >>= f) ↔ Calm x := by
  rw [calm_bind]
  exact ⟨And.left, fun h => ⟨h, fun a _ => hf a⟩⟩

@[simp] theorem orPanic_ok_bind (a : α) (f : α → Fallible ε β) :
    ((orPanic (.ok a) : Fallible ε α) >>= f) = f a := rfl

theorem calm_orPanic_bind {x : Checked α} {f : α → Fallible ε β} :
    Calm ((orPanic x : Fallible ε α) >>= f) ↔ Returns x ∧ ∀ a, x = .ok a → Calm (f a) := by
  rw [calm_bind, calm_orPanic]
  simp only [orPanic_eq_ok]

end

/-! ## Parts of byte strings that may be absent -/

/-- The bytes from `start` up to `stop`. -/
def getRange (b : Bytes) (start stop : ℕ) : Option Bytes :=
  if start ≤ stop ∧ stop ≤ b.length then some ((b.take stop).drop start) else none

/-- The bytes from `start` on. -/
def getFrom (b : Bytes) (start : ℕ) : Option Bytes :=
  if start ≤ b.length then some (b.drop start) else none

theorem getRange_length {b r : Bytes} {start stop : ℕ} (h : getRange b start stop = some r) :
    r.length = stop - start ∧ stop ≤ b.length := by
  unfold getRange at h
  split_ifs at h with hin
  cases h
  rw [List.length_drop, List.length_take]
  omega

/-! ## Numbers that may be out of range -/

/-- A number of 64 bits. -/
def asUsize (n : ℕ) : Checked ℕ := if n < 2 ^ 64 then .ok n else .error .overflow

/-- A number of 32 bits. -/
def asU32 (n : ℕ) : Checked ℕ := if n < 2 ^ 32 then .ok n else .error .overflow

theorem asUsize_eq {n : ℕ} (h : n < 2 ^ 64) : asUsize n = .ok n := if_pos h

theorem asU32_eq {n : ℕ} (h : n < 2 ^ 32) : asU32 n = .ok n := if_pos h

/-- The word at `i`. -/
def be16At (b : Bytes) (i : ℕ) : Checked UInt16 := do
  let hi ← byteAt b i
  let lo ← byteAt b (i + 1)
  .ok (ofBe16 hi lo)

/-- The double word at `i`. -/
def be32At (b : Bytes) (i : ℕ) : Checked UInt32 := do
  let b₃ ← byteAt b i
  let b₂ ← byteAt b (i + 1)
  let b₁ ← byteAt b (i + 2)
  let b₀ ← byteAt b (i + 3)
  .ok (readBe32 [b₃, b₂, b₁, b₀])

theorem be16At_eq {b : Bytes} {i : ℕ} (h : i + 2 ≤ b.length) :
    be16At b i = .ok (ofBe16 (b.getD i 0) (b.getD (i + 1) 0)) := by
  rw [be16At, byteAt_eq (by omega), byteAt_eq (by omega)]
  rfl

theorem be32At_eq {b : Bytes} {i : ℕ} (h : i + 4 ≤ b.length) :
    be32At b i = .ok (readBe32 [b.getD i 0, b.getD (i + 1) 0, b.getD (i + 2) 0,
      b.getD (i + 3) 0]) := by
  rw [be32At, byteAt_eq (by omega), byteAt_eq (by omega), byteAt_eq (by omega),
    byteAt_eq (by omega)]
  rfl

end Lib
