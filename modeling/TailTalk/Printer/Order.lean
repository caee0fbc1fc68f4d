/-
  The order of a printer's bytes and events.

  A block that is handed out must stop at the next event (`Uncrossed`); as long
  as each one does, what was handed out and what waits are what was produced
  (`InStep`), and from the first one that does not, the two orders differ for
  good.
-/
import TailTalk.Lib.Weave
import TailTalk.Printer.Port

namespace TailTalk

open Lib

/-- A byte for the port, or an event for the application. -/
abbrev PortItem : Type := UInt8 ⊕ PortEvent

/-- What an event adds to the order. -/
def RoleEvent.items : RoleEvent → List PortItem
  | .toPrinter data => data.map .inl
  | .rename name => [.inr (.rename name)]
  | .event e => [.inr (.event e)]

namespace PortState
variable {ρ : Type} {R : Role ρ} {s s' : PortState ρ} {pos : ℕ} {now : Micros}

/-- What waits, from position `pos` on. -/
structure Queue (pos : ℕ) (s : PortState ρ) : Prop where
  placed : Placed pos s.queuedTotal s.events
  length : pos + s.toPrinter.length = s.queuedTotal

/-- The items of the events that `settle` sorts. -/
def settled (R : Role ρ) (role : ρ) : List PortItem :=
  (pollEvents R (R.queued role) role).1.flatMap RoleEvent.items

theorem queue_sort (h : Queue pos s) (e : RoleEvent) :
    Queue pos (s.sort e) ∧
      weave pos (s.sort e).toPrinter (s.sort e).events =
        weave pos s.toPrinter s.events ++ e.items := by
  have hplaced : Placed pos (pos + s.toPrinter.length) s.events := by
    rw [h.length]
    exact h.placed
  cases e with
  | toPrinter data =>
    refine ⟨⟨h.placed.mono (Nat.le_add_right _ _), ?_⟩, weave_append hplaced⟩
    show pos + (s.toPrinter ++ data).length = s.queuedTotal + data.length
    rw [List.length_append, ← Nat.add_assoc, h.length]
  | rename name =>
    refine ⟨⟨h.placed.push _, h.length⟩, ?_⟩
    show weave pos s.toPrinter (s.events ++ [(s.queuedTotal, .rename name)]) = _
    rw [← h.length]
    exact weave_push hplaced
  | event e =>
    refine ⟨⟨h.placed.push _, h.length⟩, ?_⟩
    show weave pos s.toPrinter (s.events ++ [(s.queuedTotal, .event e)]) = _
    rw [← h.length]
    exact weave_push hplaced

theorem sort_totals (s : PortState ρ) (e : RoleEvent) :
    (s.sort e).writing = s.writing ∧ (s.sort e).writtenTotal = s.writtenTotal := by
  cases e <;> exact ⟨rfl, rfl⟩

theorem queue_run (events : List RoleEvent) (h : Queue pos s) :
    Queue pos (run sort s events) ∧
      weave pos (run sort s events).toPrinter (run sort s events).events =
        weave pos s.toPrinter s.events ++ events.flatMap RoleEvent.items ∧
      (run sort s events).writing = s.writing ∧
      (run sort s events).writtenTotal = s.writtenTotal := by
  induction events generalizing s with
  | nil => exact ⟨h, (List.append_nil _).symm, rfl, rfl⟩
  | cons e events ih =>
    obtain ⟨hq, hw⟩ := queue_sort h e
    obtain ⟨hwriting, hwritten⟩ := s.sort_totals e
    obtain ⟨hq', hw', hwriting', hwritten'⟩ := ih hq
    refine ⟨hq', ?_, hwriting'.trans hwriting, hwritten'.trans hwritten⟩
    rw [run_cons, hw', hw, List.flatMap_cons, List.append_assoc]

/-- **Settling.**  What the role produced goes to the end of what waits. -/
theorem queue_settle (h : Queue pos s) (hs : settle R s now = some s') :
    Queue pos s' ∧
      weave pos s'.toPrinter s'.events = weave pos s.toPrinter s.events ++ settled R s.role ∧
      s'.writing = s.writing ∧ s'.writtenTotal = s.writtenTotal := by
  obtain ⟨role, -, rfl⟩ := Option.map_eq_some_iff.1 hs
  obtain ⟨hq, hrest⟩ := queue_run
    (s := { s with role := (pollEvents R (R.queued s.role) s.role).2 })
    (pollEvents R (R.queued s.role) s.role).1 ⟨h.placed, h.length⟩
  exact ⟨⟨hq.placed, hq.length⟩, hrest⟩

end PortState

/-! ## Journals -/

/-- A printer, and what went on so far. -/
structure Journal (ρ : Type) where
  printer : Printer ρ
  /-- what the role produced -/
  produced : List PortItem
  /-- the bytes handed to writes and the events returned -/
  handed : List PortItem
  /-- the bytes that the port took and the events returned -/
  taken : List PortItem
  /-- bytes of writes that ended before the port took them -/
  abandoned : Bytes

namespace Printer
variable {ρ : Type} (R : Role ρ) (p : Printer ρ)

/-- What the role produces in a step. -/
def produces : PrinterAct → List PortItem
  | .handleDatagram dst src payload now =>
    ((R.handleDatagram p.port.role dst src payload now).map (PortState.settled R)).getD []
  | .poll now => ((R.poll p.port.role now).map (PortState.settled R)).getD []
  | .endWrite _ => if p.write.isSome then PortState.settled R p.port.role else []
  | .input data now =>
    if p.write.isNone then PortState.settled R (R.printerInput p.port.role data now) else []
  | _ => []

/-- The event that a step returns. -/
def returns : PrinterAct → List PortItem
  | .nextEvent => if p.write.isNone then (p.port.nextEvent.1.map .inr).toList else []
  | _ => []

/-- The bytes that a step hands to a write. -/
def hands : PrinterAct → List PortItem
  | .startWrite => if p.write.isNone then p.port.block.map .inl else []
  | _ => []

/-- What the port has not taken of the current block. -/
def rest : Bytes := (p.write.map (·.rest)).getD []

/-- The bytes that the port takes in a step. -/
def takes : PrinterAct → List PortItem
  | .accept n => (p.rest.take n).map .inl
  | _ => []

/-- The bytes that a step gives up. -/
def abandons : PrinterAct → Bytes
  | .endWrite _ => p.rest
  | _ => []

/-- A block handed to a write stops at the next event. -/
def Uncrossed : PrinterAct → Prop
  | .startWrite => p.write.isNone →
      ∀ e ∈ p.port.events.head?, p.port.writtenTotal + p.port.block.length ≤ e.1
  | _ => True

instance : ∀ a, Decidable (p.Uncrossed a)
  | .startWrite => inferInstanceAs (Decidable (_ → _))
  | .handleDatagram _ _ _ _ => isTrue trivial
  | .poll _ => isTrue trivial
  | .pollTransmit => isTrue trivial
  | .nextEvent => isTrue trivial
  | .accept _ => isTrue trivial
  | .endWrite _ => isTrue trivial
  | .input _ _ => isTrue trivial

end Printer

namespace Journal
variable {ρ : Type} (R : Role ρ)

/-- One action, with what it produces, hands out and takes. -/
def step (j : Journal ρ) (a : PrinterAct) : Option (Journal ρ) :=
  (j.printer.step R a).map fun printer => {
    printer
    produced := j.produced ++ j.printer.produces R a
    handed := j.handed ++ (j.printer.returns a ++ j.printer.hands a)
    taken := j.taken ++ (j.printer.returns a ++ j.printer.takes a)
    abandoned := j.abandoned ++ j.printer.abandons a }

/-- **The printer runs as it does without the journal beside it.** -/
theorem step_printer (j : Journal ρ) (a : PrinterAct) :
    (j.step R a).map (·.printer) = j.printer.step R a := by
  rw [step, Option.map_map]
  exact Option.map_id'

/-- A printer that is bound: what its role has to say already counts. -/
def new (role : ρ) (now : Micros) : Option (Journal ρ) :=
  (PortState.bind R role now).map fun port => {
    printer := ⟨port, none⟩
    produced := PortState.settled R role
    handed := []
    taken := []
    abandoned := [] }

end Journal

/-- What was handed out and what waits are what was produced. -/
structure InStep {ρ : Type} (produced handed : List PortItem) (p : Printer ρ) : Prop where
  queue : PortState.Queue (p.port.writtenTotal + p.port.writing) p.port
  order : produced = handed ++
    weave (p.port.writtenTotal + p.port.writing) p.port.toPrinter p.port.events
  writing : p.port.writing = (p.write.map (·.n)).getD 0

section
variable {ρ : Type} {R : Role ρ} {produced handed : List PortItem} {p p' : Printer ρ}
  {a : PrinterAct}

theorem inStep_bind {role : ρ} {now : Micros} {port : PortState ρ}
    (h : PortState.bind R role now = some port) :
    InStep (PortState.settled R role) [] ⟨port, none⟩ := by
  obtain ⟨hq, hw, hwriting, hwritten⟩ := PortState.queue_settle
    (s := ⟨role, [], 0, 0, 0, []⟩) ⟨Nat.le_refl 0, rfl⟩ h
  have hpos : port.writtenTotal + port.writing = 0 := by
    rw [hwriting, hwritten]
    rfl
  refine ⟨?_, ?_, hwriting⟩
  · show PortState.Queue (port.writtenTotal + port.writing) port
    rw [hpos]
    exact hq
  · show PortState.settled R role = [] ++ weave (port.writtenTotal + port.writing) _ _
    rw [hpos, hw]
    rfl

theorem InStep.settle (h : InStep produced handed p) {s port : PortState ρ} {now : Micros}
    {write : Option PortWrite} (hs : PortState.settle R s now = some port)
    (htoPrinter : s.toPrinter = p.port.toPrinter) (hevents : s.events = p.port.events)
    (hqueued : s.queuedTotal = p.port.queuedTotal)
    (hpos : s.writtenTotal + s.writing = p.port.writtenTotal + p.port.writing)
    (hwrite : s.writing = (write.map (·.n)).getD 0) :
    InStep (produced ++ PortState.settled R s.role) handed ⟨port, write⟩ := by
  have hqueue : PortState.Queue (p.port.writtenTotal + p.port.writing) s := by
    refine ⟨?_, ?_⟩
    · rw [hevents, hqueued]
      exact h.queue.placed
    · rw [htoPrinter, hqueued]
      exact h.queue.length
  obtain ⟨hq, hw, hwriting, hwritten⟩ := PortState.queue_settle hqueue hs
  have hpos' : port.writtenTotal + port.writing = p.port.writtenTotal + p.port.writing := by
    rw [hwriting, hwritten, hpos]
  refine ⟨?_, ?_, hwriting.trans hwrite⟩
  · show PortState.Queue (port.writtenTotal + port.writing) port
    rw [hpos']
    exact hq
  · show produced ++ PortState.settled R s.role =
      handed ++ weave (port.writtenTotal + port.writing) port.toPrinter port.events
    rw [hpos', hw, htoPrinter, hevents, h.order, List.append_assoc]

theorem InStep.nextEvent (h : InStep produced handed p) (hw : p.write = none) :
    InStep produced (handed ++ (p.port.nextEvent.1.map .inr).toList)
      { p with port := p.port.nextEvent.2 } := by
  have hwriting : p.port.writing = 0 := by rw [h.writing, hw]; rfl
  rcases hevents : p.port.events with _ | ⟨⟨after, e⟩, events⟩
  · have hnone : p.port.nextEvent = (none, p.port) := by rw [PortState.nextEvent, hevents]
    rw [hnone]
    exact ⟨h.queue, by rw [h.order, List.append_assoc]; rfl, h.writing⟩
  by_cases hdue : after ≤ p.port.writtenTotal
  · have hsome : p.port.nextEvent = (some e, { p.port with events }) := by
      rw [PortState.nextEvent, hevents]
      exact if_pos hdue
    have hplaced := h.queue.placed
    rw [hevents] at hplaced
    have hafter : after = p.port.writtenTotal + p.port.writing := by
      have := hplaced.1
      omega
    subst hafter
    rw [hsome]
    refine ⟨⟨hplaced.2, h.queue.length⟩, ?_, h.writing⟩
    rw [h.order, hevents, weave_event, List.append_assoc]
    rfl
  · have hnone : p.port.nextEvent = (none, p.port) := by
      rw [PortState.nextEvent, hevents]
      exact if_neg hdue
    rw [hnone]
    exact ⟨h.queue, by rw [h.order, List.append_assoc]; rfl, h.writing⟩

theorem length_block (s : PortState ρ) : s.block.length = min s.toPrinter.length OUT_LEN := by
  rw [PortState.block, List.length_take]
  omega

theorem InStep.startWrite (h : InStep produced handed p) (hw : p.write = none)
    (hstop : ∀ e ∈ p.port.events.head?, p.port.writtenTotal + p.port.block.length ≤ e.1) :
    InStep produced (handed ++ p.port.block.map .inl)
      ⟨p.port.take, some ⟨p.port.block.length, p.port.block⟩⟩ := by
  have hwriting : p.port.writing = 0 := by rw [h.writing, hw]; rfl
  have hpos : p.port.take.writtenTotal + p.port.take.writing =
      p.port.writtenTotal + p.port.writing + p.port.block.length := by
    show p.port.writtenTotal + (p.port.writing + min p.port.toPrinter.length OUT_LEN) = _
    rw [length_block, Nat.add_assoc]
  have hfirst : ∀ e ∈ p.port.events.head?,
      p.port.writtenTotal + p.port.writing + p.port.block.length ≤ e.1 := by
    intro e he
    rw [hwriting]
    exact hstop e he
  have hle : p.port.block.length ≤ p.port.toPrinter.length := by
    rw [length_block]
    exact Nat.min_le_left _ _
  have hlength := h.queue.length
  have hdrop : p.port.take.toPrinter = p.port.toPrinter.drop p.port.block.length := by
    rw [length_block]
    rfl
  have htake : p.port.block = p.port.toPrinter.take p.port.block.length := by
    rw [length_block]
    rfl
  refine ⟨⟨?_, ?_⟩, ?_, ?_⟩
  · rw [hpos]
    exact h.queue.placed.from (by omega) hfirst
  · rw [hpos, hdrop, List.length_drop]
    show _ = p.port.queuedTotal
    omega
  · rw [hpos, hdrop, h.order, weave_take hfirst, ← htake, List.append_assoc]
    rfl
  · show p.port.writing + min p.port.toPrinter.length OUT_LEN = p.port.block.length
    rw [hwriting, length_block, Nat.zero_add]

theorem InStep.differ (h : InStep produced handed p) (hw : p.write = none)
    {e : ℕ × PortEvent} (he : e ∈ p.port.events.head?)
    (hpast : e.1 < p.port.writtenTotal + p.port.block.length) :
    Differ (handed ++ p.port.block.map .inl) produced := by
  have hwriting : p.port.writing = 0 := by rw [h.writing, hw]; rfl
  obtain ⟨events, hevents⟩ := List.head?_eq_some_iff.1 he
  have hplaced := h.queue.placed
  rw [hevents] at hplaced
  have htake : p.port.block = p.port.toPrinter.take p.port.block.length := by
    rw [length_block]
    rfl
  have hle : p.port.block.length ≤ p.port.toPrinter.length := by
    rw [length_block]
    exact Nat.min_le_left _ _
  obtain ⟨hevent, x, hx⟩ := weave_past (e := e.2) hplaced.1
    (show e.1 < p.port.writtenTotal + p.port.writing + p.port.block.length by omega) hle
  rw [h.order, hevents]
  rw [← htake] at hx
  exact differ_append_left ⟨_, _, _, hx, hevent, nofun⟩ handed

/-- **One step.**  As long as blocks stop at the next event, the order is kept. -/
theorem InStep.step (h : InStep produced handed p) (ha : p.Uncrossed a)
    (hs : p.step R a = some p') :
    InStep (produced ++ p.produces R a) (handed ++ (p.returns a ++ p.hands a)) p' := by
  cases a with
  | handleDatagram dst src payload now =>
    have hquiet : handed ++ (p.returns (.handleDatagram dst src payload now) ++
        p.hands (.handleDatagram dst src payload now)) = handed := List.append_nil handed
    obtain ⟨port, hport, rfl⟩ := Option.map_eq_some_iff.1 hs
    obtain ⟨role, hrole, hport⟩ := Option.bind_eq_some_iff.1 hport
    have hproduces : p.produces R (.handleDatagram dst src payload now) =
        PortState.settled R role := by
      rw [Printer.produces, hrole]
      rfl
    rw [hproduces, hquiet]
    exact h.settle (s := { p.port with role }) hport rfl rfl rfl rfl h.writing
  | poll now =>
    have hquiet : handed ++ (p.returns (.poll now) ++ p.hands (.poll now)) = handed :=
      List.append_nil handed
    obtain ⟨port, hport, rfl⟩ := Option.map_eq_some_iff.1 hs
    obtain ⟨role, hrole, hport⟩ := Option.bind_eq_some_iff.1 hport
    have hproduces : p.produces R (.poll now) = PortState.settled R role := by
      rw [Printer.produces, hrole]
      rfl
    rw [hproduces, hquiet]
    exact h.settle (s := { p.port with role }) hport rfl rfl rfl rfl h.writing
  | pollTransmit =>
    cases hs
    have hquiet : handed ++ (p.returns .pollTransmit ++ p.hands .pollTransmit) = handed :=
      List.append_nil handed
    have hnone : produced ++ p.produces R .pollTransmit = produced := List.append_nil produced
    rw [hquiet, hnone]
    exact ⟨⟨h.queue.placed, h.queue.length⟩, h.order, h.writing⟩
  | nextEvent =>
    cases hs
    have hnone : produced ++ p.produces R .nextEvent = produced := List.append_nil produced
    have hhands : p.returns .nextEvent ++ p.hands .nextEvent = p.returns .nextEvent :=
      List.append_nil _
    rw [hnone, hhands, Printer.returns]
    by_cases hw : p.write.isNone
    · rw [if_pos hw, if_pos hw]
      exact h.nextEvent (Option.isNone_iff_eq_none.1 hw)
    · rw [if_neg hw, if_neg hw, List.append_nil]
      exact h
  | startWrite =>
    cases hs
    have hnone : produced ++ p.produces R .startWrite = produced := List.append_nil produced
    have hreturns : p.returns .startWrite ++ p.hands .startWrite = p.hands .startWrite := rfl
    rw [hnone, hreturns, Printer.hands]
    by_cases hw : p.write.isNone
    · have hstart := h.startWrite (Option.isNone_iff_eq_none.1 hw) (ha hw)
      rw [if_pos hw]
      by_cases hblock : p.port.block = []
      · rw [if_neg fun hboth => hboth.2 hblock, hblock]
        rw [List.map_nil, List.append_nil]
        exact h
      · rw [if_pos ⟨hw, hblock⟩]
        exact hstart
    · rw [if_neg hw, if_neg fun hboth => hw hboth.1, List.append_nil]
      exact h
  | accept n =>
    cases hs
    have hquiet : handed ++ (p.returns (.accept n) ++ p.hands (.accept n)) = handed :=
      List.append_nil handed
    have hnone : produced ++ p.produces R (.accept n) = produced := List.append_nil produced
    rw [hquiet, hnone]
    refine ⟨h.queue, h.order, ?_⟩
    rw [h.writing]
    cases p.write <;> rfl
  | endWrite now =>
    have hquiet : handed ++ (p.returns (.endWrite now) ++ p.hands (.endWrite now)) = handed :=
      List.append_nil handed
    rw [hquiet, Printer.produces]
    rcases hw : p.write with _ | w
    · simp only [Printer.step, hw] at hs
      cases hs
      exact ⟨h.queue, by rw [h.order]; exact (List.append_nil _), h.writing⟩
    · simp only [Printer.step, hw] at hs
      obtain ⟨port, hport, rfl⟩ := Option.map_eq_some_iff.1 hs
      have hwriting : p.port.writing = w.n := by rw [h.writing, hw]; rfl
      refine h.settle (s := { p.port with
        writing := p.port.writing - w.n
        writtenTotal := p.port.writtenTotal + w.n }) hport rfl rfl rfl ?_ ?_
      · show p.port.writtenTotal + w.n + (p.port.writing - w.n) = _
        omega
      · show p.port.writing - w.n = 0
        omega
  | input data now =>
    have hquiet : handed ++ (p.returns (.input data now) ++ p.hands (.input data now)) = handed :=
      List.append_nil handed
    rw [hquiet, Printer.produces]
    rw [Printer.step] at hs
    by_cases hw : p.write.isNone
    · rw [if_pos hw] at hs ⊢
      obtain ⟨port, hport, rfl⟩ := Option.map_eq_some_iff.1 hs
      exact h.settle hport rfl rfl rfl rfl h.writing
    · rw [if_neg hw] at hs ⊢
      cases hs
      rw [List.append_nil]
      exact h

theorem InStep.crossed (h : InStep produced handed p) (ha : ¬ p.Uncrossed a) :
    Differ (handed ++ (p.returns a ++ p.hands a)) produced := by
  cases a with
  | startWrite =>
    simp only [Printer.Uncrossed, not_forall, exists_prop, Nat.not_le] at ha
    obtain ⟨hw, e, he, hpast⟩ := ha
    have hreturns : p.returns .startWrite ++ p.hands .startWrite = p.hands .startWrite := rfl
    rw [hreturns, Printer.hands, if_pos hw]
    exact h.differ (Option.isNone_iff_eq_none.1 hw) he hpast
  | _ => exact absurd trivial ha

end

/-! ## Runs -/

namespace Journal
variable {ρ : Type} {R : Role ρ} {j j' : Journal ρ} {a : PrinterAct}

/-- What the port took, and what it still has to take of the current block. -/
def toTake (j : Journal ρ) : List PortItem := j.taken ++ j.printer.rest.map Sum.inl

/-- The bytes handed to the port and the events returned are what the role produced, up to what
    waits; the port takes them in order, each at most once, and all unless a write ends early. -/
structure Ordered (j : Journal ρ) : Prop where
  order : j.produced = j.handed ++
    weave (j.printer.port.writtenTotal + j.printer.port.writing) j.printer.port.toPrinter
      j.printer.port.events
  taken : j.toTake.Sublist j.handed
  whole : j.abandoned = [] → j.toTake = j.handed

theorem toTake_step (hs : j.step R a = some j') :
    ∃ items, j'.handed = j.handed ++ items ∧
      ((j'.toTake = j.toTake ++ items ∧ j'.abandoned = j.abandoned) ∨
      ∃ gave : Bytes, items = [] ∧ j.toTake = j'.toTake ++ gave.map Sum.inl ∧
        j'.abandoned = j.abandoned ++ gave) := by
  obtain ⟨p', hp', rfl⟩ := Option.map_eq_some_iff.1 hs
  refine ⟨_, rfl, ?_⟩
  -- A step that leaves the write alone and hands out nothing.
  have hquiet : ∀ q : Printer ρ, q.write = j.printer.write → j.printer.returns a = [] →
      j.printer.takes a = [] → j.printer.hands a = [] → j.printer.abandons a = [] →
      (j.taken ++ (j.printer.returns a ++ j.printer.takes a) ++ q.rest.map Sum.inl =
          j.toTake ++ (j.printer.returns a ++ j.printer.hands a) ∧
        j.abandoned ++ j.printer.abandons a = j.abandoned) := by
    intro q hwrite hreturns htakes hhands habandons
    rw [hreturns, htakes, hhands, habandons, Printer.rest, hwrite, List.append_nil,
      List.append_nil, List.append_nil, List.append_nil]
    exact ⟨rfl, rfl⟩
  have hnone : j.printer.write.isNone → j.printer.rest = [] := by
    intro hw
    rw [Printer.rest, Option.isNone_iff_eq_none.1 hw]
    rfl
  cases a with
  | handleDatagram dst src payload now =>
    obtain ⟨port, -, rfl⟩ := Option.map_eq_some_iff.1 hp'
    exact .inl (hquiet _ rfl rfl rfl rfl rfl)
  | poll now =>
    obtain ⟨port, -, rfl⟩ := Option.map_eq_some_iff.1 hp'
    exact .inl (hquiet _ rfl rfl rfl rfl rfl)
  | pollTransmit =>
    cases hp'
    exact .inl (hquiet _ rfl rfl rfl rfl rfl)
  | nextEvent =>
    cases hp'
    by_cases hw : j.printer.write.isNone
    · refine .inl ⟨?_, List.append_nil _⟩
      have hrest : ({ j.printer with port := j.printer.port.nextEvent.2 } : Printer ρ).rest = [] :=
        hnone hw
      show j.taken ++ (j.printer.returns .nextEvent ++ []) ++ _ =
        j.toTake ++ (j.printer.returns .nextEvent ++ [])
      rw [if_pos hw, hrest, toTake, hnone hw]
      simp only [List.map_nil, List.append_nil]
    · rw [if_neg hw]
      exact .inl (hquiet _ rfl (if_neg hw) rfl rfl rfl)
  | startWrite =>
    cases hp'
    by_cases hw : j.printer.write.isNone
    · by_cases hblock : j.printer.port.block = []
      · rw [if_neg fun hboth => hboth.2 hblock]
        refine .inl (hquiet _ rfl rfl rfl ?_ rfl)
        rw [Printer.hands, if_pos hw, hblock]
        rfl
      · rw [if_pos ⟨hw, hblock⟩]
        refine .inl ⟨?_, List.append_nil _⟩
        show j.taken ++ [] ++ j.printer.port.block.map Sum.inl =
          j.toTake ++ j.printer.hands .startWrite
        rw [toTake, hnone hw, Printer.hands, if_pos hw]
        simp only [List.map_nil, List.append_nil]
    · rw [if_neg fun hboth => hw hboth.1]
      exact .inl (hquiet _ rfl rfl rfl (if_neg hw) rfl)
  | accept n =>
    cases hp'
    refine .inl ⟨?_, List.append_nil _⟩
    have hrest : ({ j.printer with write := j.printer.write.map fun w =>
        { w with rest := w.rest.drop n } } : Printer ρ).rest = j.printer.rest.drop n := by
      unfold Printer.rest
      cases j.printer.write with
      | none => exact List.drop_nil.symm
      | some w => rfl
    show j.taken ++ (j.printer.rest.take n).map Sum.inl ++ _ = j.toTake ++ []
    rw [hrest, List.append_assoc, ← List.map_append, List.take_append_drop, List.append_nil]
    rfl
  | endWrite now =>
    refine .inr ⟨j.printer.rest, rfl, ?_, rfl⟩
    have hrest : p'.rest = [] := by
      rw [Printer.step] at hp'
      rcases hw : j.printer.write with _ | w
      · rw [hw] at hp'
        cases hp'
        exact hnone (by rw [hw]; rfl)
      · rw [hw] at hp'
        obtain ⟨port, -, rfl⟩ := Option.map_eq_some_iff.1 hp'
        rfl
    show j.taken ++ _ = j.taken ++ [] ++ p'.rest.map Sum.inl ++ _
    rw [hrest]
    simp only [List.map_nil, List.append_nil]
  | input data now =>
    rw [Printer.step] at hp'
    split_ifs at hp' with hw
    · obtain ⟨port, -, rfl⟩ := Option.map_eq_some_iff.1 hp'
      exact .inl (hquiet _ rfl rfl rfl rfl rfl)
    · cases hp'
      exact .inl (hquiet _ rfl rfl rfl rfl rfl)

theorem taken_step (hs : j.step R a = some j')
    (h : j.toTake.Sublist j.handed ∧ (j.abandoned = [] → j.toTake = j.handed)) :
    j'.toTake.Sublist j'.handed ∧ (j'.abandoned = [] → j'.toTake = j'.handed) := by
  obtain ⟨items, hhanded, ⟨htake, habandoned⟩ | ⟨gave, rfl, htake, habandoned⟩⟩ := toTake_step hs
  · rw [hhanded, htake, habandoned]
    exact ⟨h.1.append (List.Sublist.refl _), fun hnone => by rw [h.2 hnone]⟩
  · rw [hhanded, List.append_nil, habandoned]
    refine ⟨?_, fun hnone => ?_⟩
    · have hsub : j'.toTake.Sublist j.toTake := by
        rw [htake]
        exact List.sublist_append_left _ _
      exact hsub.trans h.1
    · obtain ⟨hbefore, rfl⟩ := List.append_eq_nil_iff.1 hnone
      rw [← h.2 hbefore, htake]
      exact (List.append_nil _).symm

theorem differ_step (hs : j.step R a = some j') (h : Differ j.handed j.produced) :
    Differ j'.handed j'.produced := by
  obtain ⟨p', -, rfl⟩ := Option.map_eq_some_iff.1 hs
  exact h.append _ _

theorem differ_run {as : List PrinterAct} (h : Differ j.handed j.produced)
    (hrun : run (partialStep (step R)) (some j) as = some j') : Differ j'.handed j'.produced := by
  induction as generalizing j with
  | nil =>
    cases hrun
    exact h
  | cons a as ih =>
    obtain ⟨j₁, hs, hrest⟩ := run_partialStep_cons hrun
    exact ih (differ_step hs h) hrest

theorem ordered_run_iff {as : List PrinterAct} (h : InStep j.produced j.handed j.printer)
    (htaken : j.toTake.Sublist j.handed ∧ (j.abandoned = [] → j.toTake = j.handed))
    (hrun : run (partialStep (step R)) (some j) as = some j') :
    j'.Ordered ↔ Along (partialStep (step R)) (Reached fun j a => j.printer.Uncrossed a) (some j)
      as := by
  induction as generalizing j with
  | nil =>
    cases hrun
    exact iff_of_true ⟨h.order, htaken.1, htaken.2⟩ trivial
  | cons a as ih =>
    obtain ⟨j₁, hs, hrest⟩ := run_partialStep_cons hrun
    have hnext : partialStep (step R) (some j) a = some j₁ := hs
    rw [Along, hnext]
    by_cases ha : j.printer.Uncrossed a
    · obtain ⟨p', hp', rfl⟩ := Option.map_eq_some_iff.1 hs
      rw [ih (h.step ha hp') (taken_step hs htaken) hrest]
      exact ⟨fun halong => ⟨fun k hk => Option.some.inj hk ▸ ha, halong⟩, And.right⟩
    · refine iff_of_false (fun hordered => ?_) fun halong => ha (halong.1 j rfl)
      obtain ⟨p', hp', rfl⟩ := Option.map_eq_some_iff.1 hs
      have hdiffer : Differ j'.handed j'.produced := by
        refine differ_run ?_ hrest
        have hafter := (h.crossed ha).append [] (j.printer.produces R a)
        rwa [List.append_nil] at hafter
      exact hdiffer.not_prefix ⟨_, hordered.order.symm⟩

/-- **Bytes and events come in order.** In every run of a printer, whatever its role, what was
    handed to the port and returned by `run` is what the role produced exactly when no block handed
    to the port went past an event that had not been returned. -/
theorem ordered_iff (R : Role ρ) (role : ρ) (now : Micros) (as : List PrinterAct)
    (hnew : new R role now = some j) (hrun : run (partialStep (step R)) (some j) as = some j') :
    j'.Ordered ↔
      Along (partialStep (step R)) (Reached fun j a => j.printer.Uncrossed a) (some j) as := by
  obtain ⟨port, hport, rfl⟩ := Option.map_eq_some_iff.1 hnew
  exact ordered_run_iff (inStep_bind hport) ⟨List.Sublist.refl _, fun _ => rfl⟩ hrun

/-- A PAP client at socket 70 of node 10 opens a session. -/
def papOpens : PrinterAct := .handleDatagram 190 ⟨0, 10, 70⟩
  (AtpEndpoint.requestBytes true 1 1 #v[70, 1, 0, 0] [70, 8, 0, 0]) 0

/-- It answers the pull with TID `tid`. -/
def papAnswers (tid : UInt16) (eof : UInt8) (data : Bytes) : PrinterAct :=
  .handleDatagram 191 ⟨0, 10, 70⟩ (AtpEndpoint.responseBytes tid 1 0 (#v[70, 4, eof, 0], data)) 10

/-- A run of a plain PAP printer on sockets 190 and 191. -/
def papRun (as : List PrinterAct) : Option (Journal PapServer) :=
  run (partialStep (step PapServer.role)) (new PapServer.role (PapServer.new 190 191) 0) as

/-- One job, written in two goes; the last byte of the write is given up. -/
def oneJob : List PrinterAct :=
  [papOpens, papAnswers 1 1 [65, 66, 67], .nextEvent, .startWrite, .accept 1, .accept 1,
    .endWrite 20, .nextEvent]

theorem ordered_iff_oneJob : ∃ j, papRun oneJob = some j ∧ j.Ordered ∧
    j.handed = [.inr (.event .jobStarted), .inl 65, .inl 66, .inl 67, .inr (.event .jobEof)] := by
  have hlog : (papRun oneJob).any (fun j => decide (j.handed = [.inr (.event .jobStarted), .inl 65,
      .inl 66, .inl 67, .inr (.event .jobEof)])) = true := by
    decide +kernel
  have hstops : Along (partialStep (step PapServer.role))
      (Reached fun j a => j.printer.Uncrossed a)
      (new PapServer.role (PapServer.new 190 191) 0) oneJob := by
    decide +kernel
  obtain ⟨j', hrun, hhanded⟩ := (Option.any_eq_true _ _).1 hlog
  rcases hnew : new PapServer.role (PapServer.new 190 191) 0 with _ | j
  · rw [papRun, hnew, run_partialStep_none] at hrun
    cases hrun
  · rw [hnew] at hstops
    refine ⟨j', hrun, ?_, of_decide_eq_true hhanded⟩
    rw [papRun, hnew] at hrun
    exact (ordered_iff PapServer.role _ 0 oneJob hnew hrun).2 hstops

/-- The end of one job and the start of the next wait together, and go out in
    one block. -/
def twoJobs : List PrinterAct :=
  [papOpens, papAnswers 1 1 [65, 66], papAnswers 2 0 [67], .nextEvent, .startWrite]

/-- The first byte of a job is handed to the port before the end of the job
    before it is reported. -/
theorem twoJobs_out_of_order : ∃ j, papRun twoJobs = some j ∧ ¬ j.Ordered := by
  have hlog : (papRun twoJobs).any (fun j => decide (
      j.handed = [.inr (.event .jobStarted), .inl 65, .inl 66, .inl 67] ∧
      j.produced = [.inr (.event .jobStarted), .inl 65, .inl 66, .inr (.event .jobEof),
        .inl 67])) = true := by
    decide +kernel
  obtain ⟨j, hrun, hlogs⟩ := (Option.any_eq_true _ _).1 hlog
  obtain ⟨hhanded, hproduced⟩ := of_decide_eq_true hlogs
  refine ⟨j, hrun, fun hordered => ?_⟩
  have hdiffer : Differ j.handed j.produced := by
    rw [hhanded, hproduced]
    exact ⟨3, .inl 67, .inr (.event .jobEof), rfl, rfl, nofun⟩
  exact hdiffer.not_prefix ⟨_, hordered.order.symm⟩

end Journal

end TailTalk
