/-
  Procedures — computations on a state that can return an error or panic.

  `wp` is the weakest precondition, with one rule for each way to build a
  procedure; a panic meets a postcondition or not as its argument `P` says, so
  that `wp True` is partial correctness and `wp False` excludes panics.
-/
import TailTalk.Lib.Panic

namespace Lib

/-- Ends in a value, an error or a panic. -/
def Proc (σ ε α : Type) := σ → Checked (Except ε α × σ)

namespace Proc

variable {σ ε α β : Type}

instance : Monad (Proc σ ε) where
  pure a := fun s => .ok (.ok a, s)
  bind m f := fun s =>
    match m s with
    | .error p => .error p
    | .ok (.error e, s') => .ok (.error e, s')
    | .ok (.ok a, s') => f a s'

/-- Return an error. -/
def throw (e : ε) : Proc σ ε α := fun s => .ok (.error e, s)

/-- The state. -/
def read : Proc σ ε σ := fun s => .ok (.ok s, s)

/-- Another state. -/
def modify (f : σ → σ) : Proc σ ε Unit := fun s => .ok (.ok (), f s)

/-- Go on with the error as a value. -/
def attempt (m : Proc σ ε α) : Proc σ ε (Except ε α) := fun s =>
  match m s with
  | .error p => .error p
  | .ok (r, s') => .ok (.ok r, s')

/-- What may panic and does not touch the state. -/
def lift (x : Checked α) : Proc σ ε α := fun s =>
  match x with
  | .error p => .error p
  | .ok a => .ok (.ok a, s)

/-- A value or an error. -/
def ofExcept (x : Except ε α) : Proc σ ε α := fun s => .ok (x, s)

/-- The value, or an error where there is none. -/
def orElse (o : Option α) (e : ε) : Proc σ ε α := fun s =>
  match o with
  | some a => .ok (.ok a, s)
  | none => .ok (.error e, s)

/-- Do `f` for each item in turn. -/
def each (f : α → Proc σ ε Unit) : List α → Proc σ ε Unit
  | [] => pure ()
  | a :: as => do
    f a
    each f as

/-- The state that a procedure ends in; none after a panic. -/
def after (m : Proc σ ε α) (s : σ) : Option σ :=
  match m s with
  | .error _ => none
  | .ok (_, s') => some s'

section
variable {m : Proc σ ε α} {f : α → Proc σ ε β} {s s' : σ}

theorem bind_ok {a : α} (h : m s = .ok (.ok a, s')) : (m >>= f) s = f a s' := by
  simp only [bind, h]

theorem bind_error {e : ε} (h : m s = .ok (.error e, s')) : (m >>= f) s = .ok (.error e, s') := by
  simp only [bind, h]

theorem bind_panic {p : Panic} (h : m s = .error p) : (m >>= f) s = .error p := by
  simp only [bind, h]

end

/-! ## Weakest preconditions -/

/-- `m` from `s` ends as `Q` says, or in a panic where `P` holds. -/
def wp (P : Prop) (m : Proc σ ε α) (Q : Except ε α → σ → Prop) (s : σ) : Prop :=
  match m s with
  | .error _ => P
  | .ok (r, s') => Q r s'

section
variable {P : Prop} {s : σ} {Q Q' : Except ε α → σ → Prop}

@[simp] theorem after_map (f : α → β) (m : Proc σ ε α) (s : σ) : (f <$> m).after s = m.after s := by
  rcases hm : m s with p | ⟨_ | a, s'⟩ <;> simp only [after, Functor.map, hm]
  rfl

theorem wp_ok {m : Proc σ ε α} {r : Except ε α} {s' : σ} (h : m s = .ok (r, s'))
    (hq : wp P m Q s) : Q r s' := by
  rw [wp, h] at hq
  exact hq

theorem wp_after {m : Proc σ ε α} {s' : σ} (h : m.after s = some s') (hq : wp P m Q s) :
    ∃ r, m s = .ok (r, s') ∧ Q r s' := by
  unfold after at h
  unfold wp at hq
  rcases hm : m s with _ | ⟨r, s''⟩
  · rw [hm] at h
    cases h
  · rw [hm] at h hq
    obtain rfl := Option.some.inj h
    exact ⟨r, rfl, hq⟩

/-- A procedure that panics nowhere ends somewhere. -/
theorem exists_of_wp {m : Proc σ ε α} (h : wp False m Q s) :
    ∃ r s', m s = .ok (r, s') ∧ Q r s' := by
  unfold wp at h
  rcases hm : m s with _ | ⟨r, s'⟩
  · rw [hm] at h
    exact h.elim
  · rw [hm] at h
    exact ⟨r, s', rfl, h⟩

theorem wp_of {m : Proc σ ε α} (h : ∀ r s', m s = .ok (r, s') → Q r s') : wp True m Q s := by
  unfold wp
  rcases hm : m s with _ | ⟨r, s'⟩
  · trivial
  · exact h r s' hm

theorem wp_mono {m : Proc σ ε α} (hq : wp P m Q s) (himp : ∀ r s', Q r s' → Q' r s') :
    wp P m Q' s := by
  unfold wp at hq ⊢
  generalize m s = x at hq ⊢
  rcases x with _ | ⟨r, s'⟩
  · exact hq
  · exact himp r s' hq

theorem wp_and {m : Proc σ ε α} (h : wp P m Q s) (h' : wp P m Q' s) :
    wp P m (fun r s' => Q r s' ∧ Q' r s') s := by
  unfold wp at h h' ⊢
  generalize m s = x at h h' ⊢
  rcases x with _ | ⟨r, s'⟩
  · exact h
  · exact ⟨h, h'⟩

/-- What a procedure that panics nowhere guarantees, it guarantees. -/
theorem wp_weaken {m : Proc σ ε α} (h : wp False m Q s) : wp P m Q s := by
  unfold wp at h ⊢
  generalize m s = x at h ⊢
  rcases x with _ | ⟨r, s'⟩
  · exact False.elim h
  · exact h

@[simp] theorem wp_pure {a : α} : wp P (pure a : Proc σ ε α) Q s ↔ Q (.ok a) s := Iff.rfl

@[simp] theorem wp_throw {e : ε} : wp P (throw e : Proc σ ε α) Q s ↔ Q (.error e) s := Iff.rfl

@[simp] theorem wp_read {Q : Except ε σ → σ → Prop} : wp P read Q s ↔ Q (.ok s) s := Iff.rfl

@[simp] theorem wp_modify {f : σ → σ} {Q : Except ε Unit → σ → Prop} :
    wp P (modify f) Q s ↔ Q (.ok ()) (f s) := Iff.rfl

@[simp] theorem wp_ofExcept {x : Except ε α} : wp P (ofExcept x) Q s ↔ Q x s := Iff.rfl

@[simp] theorem wp_orElse {o : Option α} {e : ε} : wp P (orElse o e) Q s ↔
    (∀ a, o = some a → Q (.ok a) s) ∧ (o = none → Q (.error e) s) := by
  cases o <;> simp [wp, orElse]

@[simp] theorem wp_lift {x : Checked α} : wp P (lift x) Q s ↔
    (∀ a, x = .ok a → Q (.ok a) s) ∧ (¬ Returns x → P) := by
  cases x <;> simp [wp, lift, Returns]

/-- The rest of a procedure after a value or an error. -/
def next (P : Prop) (f : α → Proc σ ε β) (Q : Except ε β → σ → Prop) :
    Except ε α → σ → Prop
  | .ok a, s => wp P (f a) Q s
  | .error e, s => Q (.error e) s

@[simp] theorem next_ok {f : α → Proc σ ε β} {Q : Except ε β → σ → Prop} {a : α} :
    next P f Q (.ok a) s ↔ wp P (f a) Q s := Iff.rfl

@[simp] theorem next_error {f : α → Proc σ ε β} {Q : Except ε β → σ → Prop} {e : ε} :
    next P f Q (.error e) s ↔ Q (.error e) s := Iff.rfl

@[simp] theorem wp_bind {m : Proc σ ε α} {f : α → Proc σ ε β} {Q : Except ε β → σ → Prop} :
    wp P (m >>= f) Q s ↔ wp P m (next P f Q) s := by
  have hbind : (m >>= f) s = match m s with
      | .error p => .error p
      | .ok (.error e, s') => .ok (.error e, s')
      | .ok (.ok a, s') => f a s' := rfl
  unfold wp
  rw [hbind]
  rcases m s with _ | ⟨_ | a, s'⟩ <;> rfl

@[simp] theorem wp_map {m : Proc σ ε α} {f : α → β} {Q : Except ε β → σ → Prop} :
    wp P (f <$> m) Q s ↔ wp P m (next P (fun a => pure (f a)) Q) s := wp_bind

/-- A map leaves the state as it is. -/
theorem wp_map_state {m : Proc σ ε α} {f : α → β} {I : σ → Prop}
    (h : wp P m (fun _ s' => I s') s) : wp P (f <$> m) (fun _ s' => I s') s := by
  rw [wp_map]
  exact wp_mono h fun r _ hi => by cases r <;> exact hi

@[simp] theorem wp_attempt {m : Proc σ ε α} {Q : Except ε (Except ε α) → σ → Prop} :
    wp P (attempt m) Q s ↔ wp P m (fun r s' => Q (.ok r) s') s := by
  unfold wp attempt
  rcases m s with _ | ⟨r, s'⟩ <;> rfl

@[simp] theorem wp_ite {c : Prop} [Decidable c] {m m' : Proc σ ε α} :
    wp P (if c then m else m') Q s ↔ (c → wp P m Q s) ∧ (¬ c → wp P m' Q s) := by
  by_cases h : c <;> simp [h]

/-- **The loop rule.**  An invariant that each turn keeps, also where it ends in
    an error. -/
theorem wp_each {f : α → Proc σ ε Unit} {I : σ → Prop} {as : List α}
    (hf : ∀ a ∈ as, ∀ s, I s → wp P (f a) (fun _ s' => I s') s) (hs : I s) :
    wp P (each f as) (fun _ s' => I s') s := by
  induction as generalizing s with
  | nil => exact hs
  | cons a as ih =>
    rw [each, wp_bind]
    refine wp_mono (hf a List.mem_cons_self s hs) fun r s' hi => ?_
    cases r with
    | error e => exact hi
    | ok _ => exact ih (fun b hb => hf b (List.mem_cons_of_mem _ hb)) hi

end

end Proc

end Lib
