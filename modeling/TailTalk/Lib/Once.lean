/-
  Exactly-once transactions — what a responder has to remember about one that
  is asked for (any number of times), answered, and over when the requestor
  releases it or its answer expires.
-/
import TailTalk.Lib.Run

namespace Lib

/-- The memory of one transaction. -/
structure Once (β : Type*) where
  /-- delivered, and not answered since -/
  opened : Bool
  /-- the answers kept, each with the time it lasts to -/
  answers : List (β × ℕ)

namespace Once
variable {β : Type*}

/-- What happens to a transaction. -/
inductive Act (β : Type*) where
  | ask
  | answer (b : β) (expires : ℕ)
  | release
  | expire (now : ℕ)

/-- One of them. -/
def step (t : Once β) : Act β → Once β
  | .ask => if t.answers = [] then { t with opened := true } else t
  | .answer b expires => ⟨false, t.answers ++ [(b, expires)]⟩
  | .release => { t with answers := [] }
  | .expire now => { t with answers := t.answers.filter fun p => p.2 > now }

/-- Asking now would deliver the transaction. -/
def Delivers (t : Once β) : Prop := t.answers = [] ∧ t.opened = false

instance (t : Once β) : Decidable t.Delivers :=
  match t with
  | ⟨false, []⟩ => isTrue ⟨rfl, rfl⟩
  | ⟨true, []⟩ => isFalse fun h => Bool.noConfusion h.2
  | ⟨_, _ :: _⟩ => isFalse fun h => absurd h.1 (List.cons_ne_nil _ _)

/-- The answer that asking now would be met with. -/
def replay (t : Once β) : Option β := t.answers.head?.map (·.1)

/-- The action ends the transaction: it forgets the answer being replayed. -/
def Ends (t : Once β) : Act β → Prop
  | .ask => False
  | .answer _ _ => False
  | .release => t.answers ≠ []
  | .expire now => ∃ p ∈ t.answers.head?, p.2 ≤ now

instance (t : Once β) : ∀ a, Decidable (t.Ends a)
  | .ask => isFalse id
  | .answer _ _ => isFalse id
  | .release =>
    match t with
    | ⟨_, []⟩ => isFalse fun h => h rfl
    | ⟨_, p :: rest⟩ => isTrue (List.cons_ne_nil p rest)
  | .expire now =>
    match t with
    | ⟨_, []⟩ => isFalse fun ⟨_, h, _⟩ => nomatch h
    | ⟨_, p :: _⟩ => decidable_of_iff (p.2 ≤ now) (by simp [Ends])

/-- How often the actions deliver the transaction. -/
def deliveries (t : Once β) : List (Act β) → ℕ
  | [] => 0
  | a :: as => (match a with
    | .ask => if t.Delivers then 1 else 0
    | _ => 0) + deliveries (t.step a) as

theorem deliveries_append (t : Once β) (as bs : List (Act β)) :
    t.deliveries (as ++ bs) = t.deliveries as + (run step t as).deliveries bs := by
  induction as generalizing t with
  | nil => simp [deliveries]
  | cons a as ih => simp only [List.cons_append, deliveries, ih, run_cons, Nat.add_assoc]

/-! ## Between two ends -/

/-- Keep acting without ending the transaction. -/
abbrev Continues (t : Once β) (as : List (Act β)) : Prop := Along step (fun t a => ¬ t.Ends a) t as

theorem replay_step {t : Once β} {a : Act β} {b : β} (h : t.replay = some b)
    (he : ¬ t.Ends a) : (t.step a).replay = some b := by
  obtain ⟨opened, _ | ⟨p, rest⟩⟩ := t
  · cases h
  cases a with
  | ask => exact h
  | answer b' expires => exact h
  | release => exact absurd (List.cons_ne_nil p rest) he
  | expire now =>
    have hp : p.2 > now := by
      by_contra hle
      exact he ⟨p, rfl, Nat.le_of_not_lt hle⟩
    simp only [step, replay, List.filter_cons, hp, decide_true, if_true]
    exact h

theorem replay_run {t : Once β} {as : List (Act β)} {b : β} (h : t.replay = some b)
    (hc : t.Continues as) : (run step t as).replay = some b := by
  have hstep : ∀ (t : Once β) (a : Act β), t.replay = some b → ¬ t.Ends a →
      (t.step a).replay = some b := fun _ _ h he => replay_step h he
  exact inv_run step hstep h hc

theorem not_delivers_step {t : Once β} {a : Act β} (h : ¬ t.Delivers) (he : ¬ t.Ends a) :
    ¬ (t.step a).Delivers := by
  rintro ⟨hnone, hclosed⟩
  rcases hr : t.replay with _ | b
  · have hnil : t.answers = [] := by
      simpa only [replay, Option.map_eq_none_iff, List.head?_eq_none_iff] using hr
    refine h ⟨hnil, ?_⟩
    cases a with
    | ask => simp [step, hnil] at hclosed
    | answer b expires => simp [step] at hnone
    | release => exact hclosed
    | expire now => exact hclosed
  · have hkeep := replay_step hr he
    rw [replay, hnone] at hkeep
    cases hkeep

theorem ask_not_delivers (t : Once β) : ¬ (t.step .ask).Delivers := by
  rintro ⟨hnone, hclosed⟩
  by_cases hnil : t.answers = []
  · simp [step, hnil] at hclosed
  · simp only [step, if_neg hnil] at hnone
    exact hnil hnone

theorem deliveries_eq_zero {t : Once β} {as : List (Act β)} (h : ¬ t.Delivers)
    (hc : t.Continues as) : t.deliveries as = 0 := by
  induction as generalizing t with
  | nil => rfl
  | cons a as ih =>
    have hrest := ih (not_delivers_step h hc.1) hc.2
    cases a with
    | ask => simp only [deliveries, if_neg h, hrest]
    | answer b expires => simp only [deliveries, hrest]
    | release => simp only [deliveries, hrest]
    | expire now => simp only [deliveries, hrest]

/-- **At most one delivery** until the transaction ends. -/
theorem deliveries_le_one {t : Once β} {as : List (Act β)} (hc : t.Continues as) :
    t.deliveries as ≤ 1 := by
  induction as generalizing t with
  | nil => exact Nat.zero_le _
  | cons a as ih =>
    cases a with
    | ask =>
      have hrest := deliveries_eq_zero t.ask_not_delivers hc.2
      simp only [deliveries, hrest]
      split_ifs <;> decide
    | answer b expires => simpa only [deliveries, Nat.zero_add] using ih hc.2
    | release => simpa only [deliveries, Nat.zero_add] using ih hc.2
    | expire now => simpa only [deliveries, Nat.zero_add] using ih hc.2

end Once

end Lib
