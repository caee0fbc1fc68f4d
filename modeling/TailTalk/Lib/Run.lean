/-
  Runs of a machine — a total step function driven by a list of actions.

  `inv_run` is the induction that every safety result rests on: what one step
  preserves, a whole run preserves.  `refine_run` is the one for refinements: a
  machine each of whose steps is a few steps of another one runs as that one
  does.
-/
import Mathlib.Data.Nat.Notation
import Mathlib.Data.List.Basic

namespace Lib

universe u v
variable {σ : Type u} {α : Type v}

/-- The state after the actions `as`. -/
def run (step : σ → α → σ) (s : σ) (as : List α) : σ := as.foldl step s

section
variable (step : σ → α → σ)

@[simp] theorem run_nil (s : σ) : run step s [] = s := rfl

@[simp] theorem run_cons (s : σ) (a : α) (as : List α) :
    run step s (a :: as) = run step (step s a) as := rfl

theorem run_append (s : σ) (as bs : List α) :
    run step s (as ++ bs) = run step (run step s as) bs := List.foldl_append

/-- Every step of the run meets `ok`. -/
def Along (ok : σ → α → Prop) : σ → List α → Prop
  | _, [] => True
  | s, a :: as => ok s a ∧ Along ok (step s a) as

instance (ok : σ → α → Prop) [∀ s a, Decidable (ok s a)] :
    ∀ s as, Decidable (Along step ok s as)
  | _, [] => inferInstanceAs (Decidable True)
  | s, a :: as =>
    have : Decidable (Along step ok (step s a) as) := instDecidableAlong ok (step s a) as
    inferInstanceAs (Decidable (ok s a ∧ Along step ok (step s a) as))

theorem Along.append {ok : σ → α → Prop} {s : σ} {as bs : List α} :
    Along step ok s (as ++ bs) ↔ Along step ok s as ∧ Along step ok (run step s as) bs := by
  induction as generalizing s with
  | nil => simp [Along]
  | cons a as ih => simp only [List.cons_append, Along, ih, run_cons, and_assoc]

theorem Along.mono {ok ok' : σ → α → Prop} (himp : ∀ s a, ok s a → ok' s a) {s : σ}
    {as : List α} (h : Along step ok s as) : Along step ok' s as := by
  induction as generalizing s with
  | nil => trivial
  | cons a as ih => exact ⟨himp s a h.1, ih h.2⟩

theorem along_true {s : σ} (as : List α) : Along step (fun _ _ => True) s as := by
  induction as generalizing s with
  | nil => trivial
  | cons a as ih => exact ⟨trivial, ih⟩

theorem Along.and {ok ok' : σ → α → Prop} {s : σ} {as : List α} (h : Along step ok s as)
    (h' : Along step ok' s as) : Along step (fun s a => ok s a ∧ ok' s a) s as := by
  induction as generalizing s with
  | nil => trivial
  | cons a as ih => exact ⟨⟨h.1, h'.1⟩, ih h.2 h'.2⟩

/-- A condition on the actions alone. -/
theorem along_of_forall {p : α → Prop} {as : List α} (h : ∀ a ∈ as, p a) {s : σ} :
    Along step (fun _ a => p a) s as := by
  induction as generalizing s with
  | nil => trivial
  | cons a as ih =>
    exact ⟨h a List.mem_cons_self, ih fun b hb => h b (List.mem_cons_of_mem _ hb)⟩

theorem along_iff_forall {p : α → Prop} {as : List α} {s : σ} :
    Along step (fun _ a => p a) s as ↔ ∀ a ∈ as, p a := by
  refine ⟨fun h => ?_, fun h => along_of_forall step h⟩
  induction as generalizing s with
  | nil => exact fun a ha => absurd ha List.not_mem_nil
  | cons a as ih => exact List.forall_mem_cons.2 ⟨h.1, ih h.2⟩

theorem along_toList {ok : σ → α → Prop} {s : σ} {o : Option α} :
    Along step ok s o.toList ↔ ∀ a ∈ o, ok s a := by
  cases o with
  | none => simp [Along]
  | some a => simp [Along]

/-- **The run rule.**  An invariant kept by every step that meets `ok` holds
    after every run whose steps all meet `ok`. -/
theorem inv_run {Inv : σ → Prop} {ok : σ → α → Prop}
    (hstep : ∀ s a, Inv s → ok s a → Inv (step s a)) {s : σ} {as : List α} (h : Inv s)
    (hok : Along step ok s as) : Inv (run step s as) := by
  induction as generalizing s with
  | nil => exact h
  | cons a as ih => exact ih (hstep s a h hok.1) hok.2

theorem along_run {Inv : σ → Prop} {ok good : σ → α → Prop}
    (hgood : ∀ s a, Inv s → ok s a → good s a)
    (hstep : ∀ s a, Inv s → ok s a → Inv (step s a)) {s : σ} {as : List α} (h : Inv s)
    (hok : Along step ok s as) : Along step good s as := by
  induction as generalizing s with
  | nil => trivial
  | cons a as ih => exact ⟨hgood s a h hok.1, ih (hstep s a h hok.1) hok.2⟩

theorem along_congr {Inv : σ → Prop} {ok good : σ → α → Prop}
    (hiff : ∀ s a, Inv s → (good s a ↔ ok s a))
    (hstep : ∀ s a, Inv s → ok s a → Inv (step s a)) {s : σ} {as : List α} (h : Inv s) :
    Along step good s as ↔ Along step ok s as :=
  ⟨along_run step (fun s a hi => (hiff s a hi).1)
      (fun s a hi hg => hstep s a hi ((hiff s a hi).1 hg)) h,
    along_run step (fun s a hi => (hiff s a hi).2) hstep h⟩

/-- **The exact condition of a run.**  Where a step keeps a property exactly if it meets a
    condition, the property holds all along a run exactly if every step meets it.  `Aux` is what
    a run keeps as long as the property holds. -/
theorem along_iff (Aux : σ → Prop) {P : σ → Prop} {ok : σ → α → Prop}
    (haux : ∀ s a, Aux s → P s → P (step s a) → Aux (step s a))
    (hstep : ∀ s a, Aux s → P s → (P (step s a) ↔ ok s a)) {s : σ} {as : List α} (ha : Aux s)
    (hp : P s) : (∀ bs, bs <+: as → P (run step s bs)) ↔ Along step ok s as := by
  induction as generalizing s with
  | nil =>
    refine iff_of_true ?_ trivial
    intro bs hbs
    rw [List.prefix_nil.1 hbs]
    exact hp
  | cons a as ih =>
    constructor
    · intro hall
      have hone : P (step s a) := hall [a] ⟨as, rfl⟩
      refine ⟨(hstep s a ha hp).1 hone, (ih (haux s a ha hp hone) hone).1 fun bs hbs => ?_⟩
      exact hall (a :: bs) (List.cons_prefix_cons.2 ⟨rfl, hbs⟩)
    · rintro ⟨hok, halong⟩ bs hbs
      have hone : P (step s a) := (hstep s a ha hp).2 hok
      cases bs with
      | nil => exact hp
      | cons b bs =>
        obtain ⟨rfl, htail⟩ := List.cons_prefix_cons.1 hbs
        exact (ih (haux s b ha hp hone) hone).2 halong bs htail

theorem rel_run {R : σ → σ → Prop} (hrefl : ∀ s, R s s)
    (htrans : ∀ {a b c}, R a b → R b c → R a c) (hstep : ∀ s a, R s (step s a))
    (s : σ) (as : List α) : R s (run step s as) := by
  induction as generalizing s with
  | nil => exact hrefl s
  | cons a as ih => exact htrans (hstep s a) (ih (step s a))

end

/-! ## Steps that may not return -/

section
variable {f : σ → α → Option σ}

/-- A step that need not return, on what the steps before it returned. -/
def partialStep (f : σ → α → Option σ) (o : Option σ) (a : α) : Option σ := o.bind (f · a)

@[simp] theorem partialStep_some {s : σ} {a : α} : partialStep f (some s) a = f s a := rfl

theorem run_partialStep_none (as : List α) : run (partialStep f) none as = none := by
  induction as with
  | nil => rfl
  | cons a as ih => exact ih

theorem run_partialStep_map {τ : Type*} {g : τ → α → Option τ} (abs : σ → τ)
    (hstep : ∀ s a, (f s a).map abs = g (abs s) a) (o : Option σ) (as : List α) :
    (run (partialStep f) o as).map abs = run (partialStep g) (o.map abs) as := by
  induction as generalizing o with
  | nil => rfl
  | cons a as ih =>
    rw [run_cons, ih, run_cons]
    congr 1
    cases o with
    | none => rfl
    | some s => exact hstep s a

theorem run_partialStep_cons {s t : σ} {a : α} {as : List α}
    (h : run (partialStep f) (some s) (a :: as) = some t) :
    ∃ s', f s a = some s' ∧ run (partialStep f) (some s') as = some t := by
  rw [run_cons, partialStep_some] at h
  rcases hs : f s a with _ | s'
  · rw [hs, run_partialStep_none] at h
    cases h
  · exact ⟨s', rfl, hs ▸ h⟩

end

section
variable {f : σ → α → Option σ}

/-- A condition on the steps of a run that are reached. -/
def Reached (ok : σ → α → Prop) (o : Option σ) (a : α) : Prop := ∀ s, o = some s → ok s a

instance (ok : σ → α → Prop) [∀ s a, Decidable (ok s a)] :
    ∀ o a, Decidable (Reached ok o a)
  | none, _ => isTrue fun _ h => nomatch h
  | some s, a => decidable_of_iff (ok s a)
      ⟨fun h _ hs => Option.some.inj hs ▸ h, fun h => h s rfl⟩

/-- **The run rule for steps that may not return.**  What an invariant and the condition of a step
    give of it holds along the run, and the invariant at its end. -/
theorem along_reached {Inv : σ → Prop} {ok good : σ → α → Prop}
    (hgood : ∀ s a, Inv s → ok s a → good s a)
    (hstep : ∀ s a s', Inv s → ok s a → f s a = some s' → Inv s') {o : Option σ}
    (ho : ∀ s, o = some s → Inv s) {as : List α} (hok : Along (partialStep f) (Reached ok) o as) :
    Along (partialStep f) (Reached good) o as ∧
      ∀ s, run (partialStep f) o as = some s → Inv s := by
  induction as generalizing o with
  | nil => exact ⟨trivial, ho⟩
  | cons a as ih =>
    have hnext : ∀ s, partialStep f o a = some s → Inv s := by
      intro s' hs'
      obtain ⟨s, hs, hf⟩ := Option.bind_eq_some_iff.1 hs'
      exact hstep s a s' (ho s hs) (hok.1 s hs) hf
    obtain ⟨hrest, hend⟩ := ih hnext hok.2
    exact ⟨⟨fun s hs => hgood s a (ho s hs) (hok.1 s hs), hrest⟩, hend⟩

end

/-! ## Refinement -/

section
variable {τ : Type*} {β : Type*} {step : σ → α → σ} {step' : τ → β → τ} (abs : σ → τ)
  {f : σ → α → List β} {ok : σ → α → Prop}

/-- The actions of another machine that a run stands for. -/
def trace (step : σ → α → σ) (f : σ → α → List β) : σ → List α → List β
  | _, [] => []
  | s, a :: as => f s a ++ trace step f (step s a) as

/-- **The refinement rule.**  Where each step is what the abstract machine does
    on the actions it stands for, so is each run. -/
theorem refine_run (hstep : ∀ s a, ok s a → abs (step s a) = run step' (abs s) (f s a))
    {s : σ} {as : List α} (hok : Along step ok s as) :
    abs (run step s as) = run step' (abs s) (trace step f s as) := by
  induction as generalizing s with
  | nil => rfl
  | cons a as ih =>
    rw [run_cons, ih hok.2, hstep s a hok.1, trace, run_append]

theorem refine_along {ok' : τ → β → Prop}
    (hstep : ∀ s a, ok s a → abs (step s a) = run step' (abs s) (f s a))
    (hok' : ∀ s a, ok s a → Along step' ok' (abs s) (f s a)) {s : σ} {as : List α}
    (hok : Along step ok s as) : Along step' ok' (abs s) (trace step f s as) := by
  induction as generalizing s with
  | nil => trivial
  | cons a as ih =>
    rw [trace, Along.append, ← hstep s a hok.1]
    exact ⟨hok' s a hok.1, ih hok.2⟩

end

end Lib
