/-
  Shared cables — every frame reaches every other station once.

  A frame that is awaited stays so until it is delivered (`awaits_step`).  With
  due polls restricted to settled stations this is how a sender knows that its
  last frame has been heard.
-/
import Mathlib.Logic.Function.Basic
import Mathlib.Tactic.Common
import TailTalk.Lib.Run

namespace Lib

/-- What starts a station, drives it and, by `transmit` alone, takes frames out of it. -/
structure Station (σ Frame Cfg Call : Type) where
  new : Cfg → ℕ → σ
  call : σ → Call → σ
  poll : σ → ℕ → σ
  recv : σ → Frame → ℕ → σ
  due : σ → ℕ → Bool
  outbox : σ → List Frame
  transmit : σ → Option Frame × σ
  outbox_call : ∀ {s c f}, f ∈ outbox s → f ∈ outbox (call s c)
  outbox_poll : ∀ {s now f}, f ∈ outbox s → f ∈ outbox (poll s now)
  outbox_recv : ∀ {s g now f}, f ∈ outbox s → f ∈ outbox (recv s g now)
  outbox_transmit : ∀ s, outbox s = (transmit s).1.toList ++ outbox (transmit s).2

/-- A frame on the cable and the stations that have still to hear it. -/
structure Cable.Flight (Frame ι : Type) where
  sender : ι
  frame : Frame
  waiting : ι → Bool

/-- The stations that have started, the frames on the cable and the time. -/
structure Cable (σ Frame ι : Type) where
  station : ι → Option σ
  flights : List (Cable.Flight Frame ι)
  now : ℕ

/-- What can happen next. -/
inductive Cable.Act (Cfg Call ι : Type) where
  | start (i : ι) (cfg : Cfg)
  | tick (d : ℕ)
  | call (i : ι) (c : Call)
  | poll (i : ι)
  | transmit (i : ι)
  /-- the `n`-th frame reaches `i` -/
  | deliver (n : ℕ) (i : ι)

namespace Cable

variable {σ Frame Cfg Call ι : Type} [DecidableEq ι] (P : Station σ Frame Cfg Call)

/-- Nothing has started. -/
def empty : Cable σ Frame ι := ⟨fun _ => none, [], 0⟩

/-- The cable with another state of one station. -/
def set (s : Cable σ Frame ι) (i : ι) (x : σ) : Cable σ Frame ι :=
  { s with station := Function.update s.station i (some x) }

/-- Everyone else who has started will hear a frame that `i` transmits now. -/
def audience (s : Cable σ Frame ι) (i j : ι) : Bool := decide (j ≠ i) && (s.station j).isSome

/-- One station less has still to hear the frame. -/
def Flight.heard (fl : Flight Frame ι) (i : ι) : Flight Frame ι :=
  { fl with waiting := Function.update fl.waiting i false }

/-- One action on the cable. -/
def step (s : Cable σ Frame ι) : Act Cfg Call ι → Cable σ Frame ι
  | .start i cfg =>
    match s.station i with
    | none => s.set i (P.new cfg s.now)
    | some _ => s
  | .tick d => { s with now := s.now + d }
  | .call i c =>
    match s.station i with
    | none => s
    | some x => s.set i (P.call x c)
  | .poll i =>
    match s.station i with
    | none => s
    | some x => s.set i (P.poll x s.now)
  | .transmit i =>
    match s.station i with
    | none => s
    | some x =>
      match P.transmit x with
      | (none, x') => s.set i x'
      | (some f, x') => { s.set i x' with flights := s.flights ++ [⟨i, f, s.audience i⟩] }
  | .deliver n i =>
    match s.flights[n]?, s.station i with
    | some fl, some x =>
      if fl.waiting i then
        { s.set i (P.recv x fl.frame s.now) with flights := s.flights.set n (fl.heard i) }
      else s
    | _, _ => s

/-- Station `i` hears frame `f` of station `k` in this step. -/
def Hears (s : Cable σ Frame ι) (a : Act Cfg Call ι) (k i : ι) (f : Frame) : Prop :=
  ∃ n fl, a = .deliver n i ∧ s.flights[n]? = some fl ∧ fl.sender = k ∧ fl.frame = f ∧
    fl.waiting i = true

/-- Station `h` has still to hear frame `f` of station `k`. -/
def Awaits (s : Cable σ Frame ι) (k h : ι) (f : Frame) : Prop :=
  (∃ x, s.station k = some x ∧ f ∈ P.outbox x) ∨
    ∃ fl ∈ s.flights, fl.sender = k ∧ fl.frame = f ∧ fl.waiting h = true

/-- All that station `k` wanted sent has been heard. -/
def Settled (s : Cable σ Frame ι) (k : ι) : Prop :=
  (∀ x ∈ s.station k, P.outbox x = []) ∧
    ∀ fl ∈ s.flights, fl.sender = k → ∀ j, fl.waiting j = false

/-- A station that is due is polled only once it is settled. -/
def Punctual (s : Cable σ Frame ι) : Act Cfg Call ι → Prop
  | .poll i => ∀ x ∈ s.station i, P.due x s.now = true → Settled P s i
  | _ => True

/-- What one step can do to one station. -/
inductive Moved (s : Cable σ Frame ι) (a : Act Cfg Call ι) (i : ι) :
    Option σ → Option σ → Prop
  | same (o) : Moved s a i o o
  | start {cfg} : a = .start i cfg → Moved s a i none (some (P.new cfg s.now))
  | call (x c) : Moved s a i (some x) (some (P.call x c))
  | poll {x} : a = .poll i → s.station i = some x → Moved s a i (some x) (some (P.poll x s.now))
  | transmit (x) : Moved s a i (some x) (some (P.transmit x).2)
  | recv (x) {k f} : Hears s a k i f → Moved s a i (some x) (some (P.recv x f s.now))

section
variable {P}

omit [DecidableEq ι] in
theorem Settled.not_awaits {s : Cable σ Frame ι} {k : ι} (h : Settled P s k) (j : ι) (f : Frame) :
    ¬ Awaits P s k j f := by
  rintro (⟨x, hx, hf⟩ | ⟨fl, hfl, hk, -, hw⟩)
  · rw [h.1 x hx] at hf
    cases hf
  · rw [h.2 fl hfl hk j] at hw
    cases hw

@[simp] theorem set_station_self (s : Cable σ Frame ι) (i : ι) (x : σ) :
    (s.set i x).station i = some x := Function.update_self ..

theorem set_station_ne (s : Cable σ Frame ι) {i j : ι} (h : j ≠ i) (x : σ) :
    (s.set i x).station j = s.station j := Function.update_of_ne h ..

theorem set_moved {s : Cable σ Frame ι} {a : Act Cfg Call ι} {i : ι} {x : σ}
    (h : Moved P s a i (s.station i) (some x)) (j : ι) :
    Moved P s a j (s.station j) ((s.set i x).station j) := by
  by_cases hj : j = i
  · subst hj
    rw [set_station_self]
    exact h
  · rw [set_station_ne s hj]
    exact .same _

theorem step_moved (s : Cable σ Frame ι) (a : Act Cfg Call ι) (j : ι) :
    Moved P s a j (s.station j) ((step P s a).station j) := by
  cases a with
  | start i cfg =>
    rcases hi : s.station i with _ | x
    · simp only [step, hi]
      exact set_moved (hi ▸ .start rfl) j
    · simp only [step, hi]
      exact .same _
  | tick d => exact .same _
  | call i c =>
    rcases hi : s.station i with _ | x
    · simp only [step, hi]
      exact .same _
    · simp only [step, hi]
      exact set_moved (hi ▸ .call x c) j
  | poll i =>
    rcases hi : s.station i with _ | x
    · simp only [step, hi]
      exact .same _
    · simp only [step, hi]
      exact set_moved (hi ▸ .poll rfl hi) j
  | transmit i =>
    rcases hi : s.station i with _ | x
    · simp only [step, hi]
      exact .same _
    have hm : Moved P s (.transmit i : Act Cfg Call ι) i (s.station i) (some (P.transmit x).2) :=
      hi ▸ .transmit x
    rcases ht : P.transmit x with ⟨_ | f, x'⟩
    · simp only [step, hi, ht]
      rw [ht] at hm
      exact set_moved hm j
    · simp only [step, hi, ht]
      rw [ht] at hm
      exact set_moved hm j
  | deliver n i =>
    rcases hn : s.flights[n]? with _ | fl
    · simp only [step, hn]
      exact .same _
    rcases hi : s.station i with _ | x
    · simp only [step, hn, hi]
      exact .same _
    by_cases hw : fl.waiting i = true
    · simp only [step, hn, hi, hw, if_true]
      exact set_moved (hi ▸ .recv x ⟨n, fl, rfl, hn, rfl, rfl, hw⟩) j
    · simp only [step, hn, hi, hw, Bool.false_eq_true, if_false]
      exact .same _

theorem Hears.station {s : Cable σ Frame ι} {a : Act Cfg Call ι} {k i : ι} {f : Frame} {x : σ}
    (hears : Hears s a k i f) (hx : s.station i = some x) :
    (step P s a).station i = some (P.recv x f s.now) := by
  obtain ⟨n, fl, rfl, hn, -, rfl, hw⟩ := hears
  simp only [step, hn, hx, hw, if_true]
  exact set_station_self ..

/-- A station that moves and keeps a frame in its outbox. -/
theorem outbox_set {s : Cable σ Frame ι} {k i : ι} {f : Frame} {x x' : σ}
    (hx : s.station i = some x) (hkeep : f ∈ P.outbox x → f ∈ P.outbox x')
    (h : ∃ y, s.station k = some y ∧ f ∈ P.outbox y) :
    ∃ y, (s.set i x').station k = some y ∧ f ∈ P.outbox y := by
  obtain ⟨y, hy, hf⟩ := h
  by_cases hki : k = i
  · subst hki
    obtain rfl := Option.some.inj (hx.symm.trans hy)
    exact ⟨x', set_station_self .., hkeep hf⟩
  · exact ⟨y, (set_station_ne s hki x').trans hy, hf⟩

theorem Awaits.set {s : Cable σ Frame ι} {k h i : ι} {f : Frame} {x x' : σ}
    (hx : s.station i = some x) (hkeep : f ∈ P.outbox x → f ∈ P.outbox x')
    (ha : Awaits P s k h f) : Awaits P (s.set i x') k h f :=
  ha.imp_left (outbox_set hx hkeep)

/-- **A frame that is awaited stays so until it is heard.** -/
theorem awaits_step {s : Cable σ Frame ι} (a : Act Cfg Call ι) {k h : ι} {f : Frame}
    (hkh : h ≠ k) (hh : (s.station h).isSome = true) (ha : Awaits P s k h f) :
    Awaits P (step P s a) k h f ∨ Hears s a k h f := by
  cases a with
  | start i cfg =>
    refine Or.inl ?_
    rcases hi : s.station i with _ | x
    · simp only [step, hi]
      rcases ha with ⟨y, hy, hf⟩ | hflight
      · have hki : k ≠ i := by
          rintro rfl
          rw [hi] at hy
          cases hy
        exact Or.inl ⟨y, (set_station_ne s hki _).trans hy, hf⟩
      · exact Or.inr hflight
    · simp only [step, hi]
      exact ha
  | tick d => exact Or.inl ha
  | call i c =>
    refine Or.inl ?_
    rcases hi : s.station i with _ | x
    · simp only [step, hi]
      exact ha
    · simp only [step, hi]
      exact ha.set hi P.outbox_call
  | poll i =>
    refine Or.inl ?_
    rcases hi : s.station i with _ | x
    · simp only [step, hi]
      exact ha
    · simp only [step, hi]
      exact ha.set hi P.outbox_poll
  | transmit i =>
    refine Or.inl ?_
    rcases hi : s.station i with _ | x
    · simp only [step, hi]
      exact ha
    have hout := P.outbox_transmit x
    rcases ht : P.transmit x with ⟨_ | g, x'⟩
    · simp only [step, hi, ht]
      rw [ht] at hout
      refine ha.set hi fun hf => ?_
      rw [hout] at hf
      exact hf
    · simp only [step, hi, ht]
      rw [ht] at hout
      rcases ha with ⟨y, hy, hf⟩ | ⟨fl, hfl, hrest⟩
      · by_cases hki : k = i
        · subst hki
          obtain rfl := Option.some.inj (hi.symm.trans hy)
          rw [hout] at hf
          rcases List.mem_cons.1 hf with rfl | hf
          · -- The frame leaves the outbox for the cable, and `h` is in its audience.
            refine Or.inr ⟨_, List.mem_append_right _ List.mem_cons_self, rfl, rfl, ?_⟩
            simp only [audience, hkh, ne_eq, not_false_eq_true, decide_true, Bool.true_and, hh]
          · exact Or.inl ⟨x', set_station_self .., hf⟩
        · exact Or.inl ⟨y, (set_station_ne s hki x').trans hy, hf⟩
      · exact Or.inr ⟨fl, List.mem_append_left _ hfl, hrest⟩
  | deliver n i =>
    rcases hn : s.flights[n]? with _ | fl
    · simp only [step, hn]
      exact Or.inl ha
    rcases hi : s.station i with _ | x
    · simp only [step, hn, hi]
      exact Or.inl ha
    by_cases hw : fl.waiting i = true
    · simp only [step, hn, hi, hw, if_true]
      rcases ha with hout | ⟨fl', hfl', hk, hf, hw'⟩
      · exact Or.inl (Or.inl (outbox_set hi P.outbox_recv hout))
      · obtain ⟨m, hm⟩ := List.mem_iff_getElem?.1 hfl'
        by_cases hmn : m = n
        · subst hmn
          obtain rfl := Option.some.inj (hn.symm.trans hm)
          by_cases hhi : h = i
          · subst hhi
            exact Or.inr ⟨m, fl, rfl, hn, hk, hf, hw⟩
          · refine Or.inl (Or.inr ⟨fl.heard i, ?_, hk, hf, ?_⟩)
            · exact List.mem_iff_getElem?.2 ⟨m, by
                rw [List.getElem?_set_self (List.getElem?_eq_some_iff.1 hm).1]⟩
            · exact (Function.update_of_ne hhi ..).trans hw'
        · refine Or.inl (Or.inr ⟨fl', ?_, hk, hf, hw'⟩)
          exact List.mem_iff_getElem?.2 ⟨m, by rw [List.getElem?_set_ne (Ne.symm hmn), hm]⟩
    · simp only [step, hn, hi, hw, Bool.false_eq_true, if_false]
      exact Or.inl ha

end

end Cable

end Lib
