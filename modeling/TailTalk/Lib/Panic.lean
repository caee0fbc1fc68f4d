/-
  Byte access that can stop its task.

  `Checked` computations end in a value or a panic: an index past the end, a
  slice that starts after its end or ends after the bytes, an array of another
  length, the unwrapping of an error.  The `returns_*` lemmas reduce the absence
  of panics to arithmetic on lengths.
-/
import TailTalk.Lib.Bytes
import Mathlib.Data.List.Forall2
import Mathlib.Data.Vector.Basic
import Mathlib.Tactic.Common

namespace Lib

/-- What stops a task. -/
inductive Panic where
  | index (i length : ℕ)
  | slice (start stop length : ℕ)
  | unwrap
  | overflow
deriving DecidableEq

/-- A value, or a panic. -/
abbrev Checked (α : Type) := Except Panic α

/-- `b[i]`. -/
def byteAt (b : Bytes) (i : ℕ) : Checked UInt8 :=
  if h : i < b.length then .ok b[i] else .error (.index i b.length)

/-- `b[start..stop]`. -/
def slice (b : Bytes) (start stop : ℕ) : Checked Bytes :=
  if start ≤ stop ∧ stop ≤ b.length then .ok ((b.take stop).drop start)
  else .error (.slice start stop b.length)

/-- `b[start..]`. -/
def sliceFrom (b : Bytes) (start : ℕ) : Checked Bytes := slice b start b.length

/-- The value of a result that has to be one. -/
def unwrap {ε α : Type} : Except ε α → Checked α
  | .ok a => .ok a
  | .error _ => .error .unwrap

/-- The bytes as an array of a fixed length. -/
def toArray (n : ℕ) (b : Bytes) : Checked (Vector UInt8 n) :=
  if h : b.length = n then .ok ⟨b.toArray, by simpa using h⟩ else .error .unwrap

/-- The computation ends in a value. -/
def Returns {α : Type} (x : Checked α) : Prop := ∃ a, x = .ok a

section

variable {α β ε : Type}

@[simp] theorem returns_ok (a : α) : Returns (.ok a : Checked α) := ⟨a, rfl⟩

@[simp] theorem returns_pure (a : α) : Returns (pure a : Checked α) := ⟨a, rfl⟩

@[simp] theorem not_returns_error (p : Panic) : ¬ Returns (.error p : Checked α) := by
  rintro ⟨a, h⟩
  cases h

theorem ok_bind (a : α) (f : α → Except ε β) : (.ok a : Except ε α) >>= f = f a := rfl

/-- What follows a value decides alone. -/
@[simp] theorem returns_ok_bind (a : α) (f : α → Checked β) :
    Returns ((.ok a : Checked α) >>= f) ↔ Returns (f a) := Iff.rfl

theorem bind_eq_ok {x : Except ε α} {f : α → Except ε β} {b : β} :
    x >>= f = .ok b ↔ ∃ a, x = .ok a ∧ f a = .ok b := by
  cases x with
  | error p =>
    constructor
    · intro h
      cases h
    · rintro ⟨a, h, -⟩
      cases h
  | ok a =>
    constructor
    · intro h
      exact ⟨a, rfl, h⟩
    · rintro ⟨a', h, ha⟩
      cases h
      exact ha

theorem returns_bind (x : Checked α) (f : α → Checked β) :
    Returns (x >>= f) ↔ ∃ a, x = .ok a ∧ Returns (f a) := by
  constructor
  · rintro ⟨b, h⟩
    obtain ⟨a, ha, hb⟩ := bind_eq_ok.1 h
    exact ⟨a, ha, b, hb⟩
  · rintro ⟨a, ha, b, hb⟩
    exact ⟨b, bind_eq_ok.2 ⟨a, ha, hb⟩⟩

/-- A computation that goes on without a panic returns exactly if it starts well. -/
theorem returns_bind_iff {x : Checked α} {f : α → Checked β} (hf : ∀ a, Returns (f a)) :
    Returns (x >>= f) ↔ Returns x := by
  rw [returns_bind]
  constructor
  · rintro ⟨a, rfl, -⟩
    exact returns_ok a
  · rintro ⟨a, rfl⟩
    exact ⟨a, rfl, hf a⟩

/-- A task that takes one input after another returns exactly if no input stops it, where no input
    changes what decides this. -/
theorem returns_foldlM {σ ι : Type} {f : σ → ι → Checked σ} {P : ι → Prop} {I : σ → Prop}
    (hkeep : ∀ {s a s'}, I s → f s a = .ok s' → I s') {as : List ι}
    (hstep : ∀ {s}, ∀ a ∈ as, I s → (Returns (f s a) ↔ P a)) {s : σ} (hs : I s) :
    Returns (as.foldlM f s) ↔ ∀ a ∈ as, P a := by
  induction as generalizing s with
  | nil => simp
  | cons a as ih =>
    have ih' := @ih fun b hb => hstep b (List.mem_cons_of_mem _ hb)
    rw [List.foldlM_cons, returns_bind, List.forall_mem_cons, ← hstep a List.mem_cons_self hs]
    constructor
    · rintro ⟨s', hs', hrest⟩
      exact ⟨⟨s', hs'⟩, (ih' (hkeep hs hs')).1 hrest⟩
    · rintro ⟨⟨s', hs'⟩, hrest⟩
      exact ⟨s', hs', (ih' (hkeep hs hs')).2 hrest⟩

theorem mapM_eq_ok {f : α → Checked β} {as : List α} {bs : List β} :
    as.mapM f = .ok bs ↔ List.Forall₂ (fun a b => f a = .ok b) as bs := by
  induction as generalizing bs with
  | nil =>
    rw [List.mapM_nil, List.forall₂_nil_left_iff]
    constructor
    · intro h
      exact (Except.ok.inj h).symm
    · rintro rfl
      rfl
  | cons a as ih =>
    rw [List.mapM_cons, List.forall₂_cons_left_iff]
    constructor
    · intro h
      obtain ⟨b, hb, hrest⟩ := bind_eq_ok.1 h
      obtain ⟨rest, hrest, hbs⟩ := bind_eq_ok.1 hrest
      exact ⟨b, rest, hb, ih.1 hrest, (Except.ok.inj hbs).symm⟩
    · rintro ⟨b, rest, hb, hrest, rfl⟩
      rw [hb, ok_bind, ih.2 hrest]
      rfl

theorem returns_mapM {f : α → Checked β} {as : List α} (h : ∀ a ∈ as, Returns (f a)) :
    Returns (as.mapM f) := by
  induction as with
  | nil => exact returns_pure []
  | cons a as ih =>
    rw [List.forall_mem_cons] at h
    obtain ⟨b, hb⟩ := h.1
    obtain ⟨bs, hbs⟩ := ih h.2
    exact ⟨b :: bs, by rw [List.mapM_cons, hb, ok_bind, hbs]; rfl⟩

@[simp] theorem returns_unwrap (r : Except ε α) : Returns (unwrap r) ↔ ∃ a, r = .ok a := by
  cases r <;> simp [unwrap]

end

theorem byteAt_eq {b : Bytes} {i : ℕ} (h : i < b.length) : byteAt b i = .ok (b.getD i 0) := by
  rw [byteAt, dif_pos h, List.getD_eq_getElem?_getD, List.getElem?_eq_getElem h]
  rfl

theorem returns_slice (b : Bytes) (start stop : ℕ) :
    Returns (slice b start stop) ↔ start ≤ stop ∧ stop ≤ b.length := by
  unfold slice
  by_cases h : start ≤ stop ∧ stop ≤ b.length
  · rw [if_pos h]
    exact ⟨fun _ => h, fun _ => returns_ok _⟩
  · rw [if_neg h]
    exact ⟨fun hr => absurd hr (not_returns_error _), fun hp => absurd hp h⟩

theorem returns_slice_min {b : Bytes} {start : ℕ} (stop : ℕ) (h : start ≤ b.length) :
    Returns (slice b start (min stop b.length)) ↔ start ≤ stop := by
  rw [returns_slice]
  omega

theorem sliceFrom_eq {b : Bytes} {start : ℕ} (h : start ≤ b.length) :
    sliceFrom b start = .ok (b.drop start) := by
  rw [sliceFrom, slice, if_pos ⟨h, le_refl _⟩, List.take_length]

theorem slice_eq {b : Bytes} {start stop : ℕ} (h : start ≤ stop) (hb : stop ≤ b.length) :
    slice b start stop = .ok ((b.take stop).drop start) := by
  rw [slice, if_pos ⟨h, hb⟩]

/-- Six bytes out of longer ones, and the like. -/
theorem toArray_slice {b : Bytes} {start stop : ℕ} (h : start ≤ stop) (hb : stop ≤ b.length) :
    Returns (slice b start stop >>= toArray (stop - start)) := by
  rw [slice_eq h hb, returns_ok_bind, toArray, dif_pos (by simp; omega)]
  exact returns_ok _

end Lib
