/-
  The bytes that a StyleWriter role hands to its printer, and what its peers
  have been given to send.

  Job bytes come in the data of the pipe, and a reset is put behind a job whose
  client vanished.  A call that queues a datagram advertises the receive window
  to every connection, one that it opened included.
-/
import TailTalk.Lib.Window
import TailTalk.StyleWriter.Role

namespace TailTalk

open Lib

/-- The bytes for the printer in some events. -/
def spooled (events : List StyleWriterEvent) : ℕ :=
  (events.map fun e => match e with
    | .toPrinter data => data.length
    | _ => 0).sum

@[simp] theorem spooled_append (xs ys : List StyleWriterEvent) :
    spooled (xs ++ ys) = spooled xs + spooled ys := by
  simp [spooled]

@[simp] theorem spooled_singleton (e : StyleWriterEvent) :
    spooled [e] = match e with
      | .toPrinter data => data.length
      | _ => 0 := by
  simp [spooled]

namespace StyleWriterRole

/-- Our ConnID of a connection. -/
def sourceOf (s : StyleWriterRole) (conn : UInt16) : UInt16 :=
  (s.endpoint.connections[conn]?.map (·.ourConnId)).getD 0

/-- Some peer has been told of this ConnID of ours. -/
def known (s : StyleWriterRole) (id : UInt16) : Bool :=
  s.endpoint.pendingOpens.contains id || s.endpoint.connections.values.any (·.ourConnId == id)

/-- What an ADSP event brings for the printer. -/
def eventWindow (s : StyleWriterRole) : AdspEvent → List (Window.Act UInt16)
  | .data conn data _ =>
    match s.state with
    | .piping dc _ => if conn = dc then [.take (s.sourceOf dc) data.length] else []
    | _ => []
  | .closed conn =>
    match s.state with
    | .piping dc false => if conn = dc then [.own PRINTER_RESET.length] else []
    | _ => []
  | _ => []

/-- What the events of the endpoint bring. -/
def drainWindow (s : StyleWriterRole) (now : Micros) : List (Window.Act UInt16) :=
  trace (partialStep (handleAdspEvent now))
    (fun o e => (o.map fun s => s.eventWindow e).getD [])
    (some { s with endpoint := { s.endpoint with events := [] } }) s.endpoint.events

/-- What a call from `s` to `s'` advertises. -/
def advertises (s s' : StyleWriterRole) : List (Window.Act UInt16) :=
  if s'.endpoint.outbox = s.endpoint.outbox then [] else [.give fun id => !s.known id]

section
variable {s s' : StyleWriterRole} {conn code : UInt16} {data : Bytes} {now : Micros}

theorem spooled_followPrinterClock (s : StyleWriterRole) (on : Bool) :
    spooled (s.followPrinterClock on).events = spooled s.events := by
  unfold followPrinterClock
  split
  · cases on <;> simp [emit]
  · rfl

theorem spooled_attention :
    spooled (s.handleAttention conn code data now).events = spooled s.events := by
  have hreply : ∀ d, spooled (s.reply conn d).events = spooled s.events := fun _ => rfl
  have hclock : ∀ d on, spooled ((s.reply conn d).followPrinterClock on).events =
      spooled s.events := fun _ on => spooled_followPrinterClock _ on
  refine handleAttention_cases (P := fun t => spooled t.events = spooled s.events) hreply
    (fun _ => ?print) (fun _ => ?withdraw) (fun _ => ?endSession) (fun _ => ?options) ?status
    (fun _ => ?name) (fun _ => ?control) (hclock _ _)
  case print =>
    unfold handlePrintRequest
    split
    · rfl
    split
    · rfl
    split
    · rfl
    · simp [emit, enter]
  case withdraw =>
    unfold handleWithdraw
    dsimp only
    split
    · rfl
    split
    · rfl
    · split <;> simp [emit, enter]
  case endSession =>
    refine handleEndSession_cases (P := fun t => spooled t.events = spooled s.events)
      (fun _ _ => rfl) ?_ rfl
    intro name _
    simp [emit]
  case options =>
    unfold handleSerialOptions
    split
    · exact hclock _ _
    · exact hreply _
  case status =>
    unfold handleSetStatus
    dsimp only
    rw [reply_events]
    split <;> rfl
  case name =>
    unfold handleSetName
    dsimp only
    rw [reply_events]
    split
    · split <;> rfl
    · rfl
  case control =>
    unfold handleSerialControl
    split
    · exact hclock _ _
    · exact hreply _

theorem spooled_endJob (killSeen : Bool) : spooled (s.endJob killSeen now).events =
    spooled s.events + if killSeen then 0 else PRINTER_RESET.length := by
  have hclock := spooled_followPrinterClock
    (if killSeen then s else s.emit (.toPrinter PRINTER_RESET)) false
  unfold endJob
  simp only [enter, emit, spooled_append, spooled_singleton, Nat.add_zero] at hclock ⊢
  rw [hclock]
  cases killSeen
  · simp
  · rfl

/-- **What an ADSP event hands out is what it brings.** -/
theorem spooled_event {ev : AdspEvent} (h : handleAdspEvent now s ev = some s') :
    spooled s'.events ≤ spooled s.events + ((s.eventWindow ev).map Window.Act.units).sum := by
  unfold handleAdspEvent at h
  cases ev with
  | opened conn remote inbound pending =>
    dsimp only at h
    split at h
    · split at h <;> obtain rfl := Option.some.inj h <;> exact Nat.le_refl _
    · split at h <;> obtain rfl := Option.some.inj h <;> exact Nat.le_refl _
    · obtain rfl := Option.some.inj h
      exact Nat.le_refl _
  | attention conn code data =>
    obtain rfl := Option.some.inj h
    exact Nat.le_of_eq spooled_attention
  | data conn data eom =>
    dsimp only at h
    split at h
    · rename_i dc killSeen hst
      obtain rfl := Option.some.inj h
      by_cases hpipe : conn = dc ∧ data ≠ []
      · rw [if_pos hpipe]
        unfold handleData
        dsimp only
        split
        · exact Nat.le_add_right _ _
        · simp [eventWindow, hst, hpipe.1, emit, Window.Act.units]
      · rw [if_neg hpipe]
        exact Nat.le_add_right _ _
    · obtain rfl := Option.some.inj h
      exact Nat.le_add_right _ _
  | closed conn =>
    simp only [handleClosed] at h
    split at h
    · split at h
      · obtain ⟨⟨id, endpoint⟩, -, rfl⟩ := Option.map_eq_some_iff.1 h
        exact Nat.le_add_right _ _
      · obtain rfl := Option.some.inj h
        exact Nat.le_add_right _ _
    · rename_i dc killSeen hst
      split at h
      · rename_i hconn
        obtain rfl := Option.some.inj h
        rw [spooled_endJob]
        cases killSeen <;> simp [eventWindow, hst, hconn, dropName, Window.Act.units]
      · obtain rfl := Option.some.inj h
        exact Nat.le_add_right _ _
    · obtain rfl := Option.some.inj h
      exact Nat.le_add_right _ _
  | attentionAcked conn | attentionFailed conn =>
    obtain rfl := Option.some.inj h
    exact Nat.le_refl _
  | openFailed conn =>
    obtain rfl := Option.some.inj h
    split <;> exact Nat.le_refl _

theorem incoming_eventWindow (ev : AdspEvent) : ∀ a ∈ s.eventWindow ev, a.Incoming := by
  intro a ha
  unfold eventWindow at ha
  split at ha
  · split at ha
    · split at ha
      · obtain rfl := List.mem_singleton.1 ha
        trivial
      · cases ha
    · cases ha
  · split at ha
    · split at ha
      · obtain rfl := List.mem_singleton.1 ha
        trivial
      · cases ha
    · cases ha
  · cases ha

/-- The events of a drain, one after another. -/
theorem spooled_run {evs : List AdspEvent}
    (h : run (partialStep (handleAdspEvent now)) (some s) evs = some s') :
    spooled s'.events ≤ spooled s.events + ((trace (partialStep (handleAdspEvent now))
      (fun o e => (o.map fun s => s.eventWindow e).getD []) (some s) evs).map
        Window.Act.units).sum := by
  induction evs generalizing s with
  | nil =>
    obtain rfl := Option.some.inj h
    exact Nat.le_refl _
  | cons ev evs ih =>
    obtain ⟨s₁, hone, hrest⟩ := run_partialStep_cons h
    have hle := spooled_event hone
    have hle' := ih hrest
    rw [trace, partialStep_some, hone, List.map_append, List.sum_append]
    simp only [Option.map_some, Option.getD_some]
    omega

theorem spooled_drain (h : s.drainEndpoint now = some s') :
    spooled s'.events ≤ spooled s.events + ((s.drainWindow now).map Window.Act.units).sum :=
  spooled_run (s := { s with endpoint := { s.endpoint with events := [] } }) h

theorem incoming_trace (o : Option StyleWriterRole) (evs : List AdspEvent) :
    ∀ a ∈ trace (partialStep (handleAdspEvent now))
      (fun o e => (o.map fun s => s.eventWindow e).getD []) o evs, a.Incoming := by
  induction evs generalizing o with
  | nil => exact fun a ha => nomatch ha
  | cons ev evs ih =>
    intro a ha
    rcases List.mem_append.1 ha with ha | ha
    · cases o with
      | none => cases ha
      | some s => exact incoming_eventWindow ev a ha
    · exact ih _ a ha

theorem incoming_advertises : ∀ a ∈ advertises s s', a.Incoming := by
  intro a ha
  unfold advertises at ha
  split at ha
  · cases ha
  · obtain rfl := List.mem_singleton.1 ha
    trivial

end

end StyleWriterRole

end TailTalk
