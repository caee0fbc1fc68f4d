/-
  The jobs of a StyleWriter role, as its embedder sees them.

  The role is a desk (`Lib.Bracket`): busy outside `Idle`, with a mark for each
  `JobStarted` and each `JobEnded`.  The one way out of a job without a mark is
  a call back that fails (`DialFails`); `jobs_alternate_iff` is the result
  about runs.
-/
import TailTalk.Lib.Bracket
import TailTalk.StyleWriter.Role

namespace TailTalk

open Lib

/-- The end of a job that an event reports. -/
def jobMark : StyleWriterEvent → Option Mark
  | .jobStarted _ => some .opens
  | .jobEnded _ => some .closes
  | _ => none

/-- The inputs of a role: the ADSP events, the calls of its embedder, and any
    datagram from anywhere. -/
inductive RoleInput where
  | event (ev : AdspEvent) (now : Micros)
  | datagram (src : ServiceAddress) (payload : Bytes) (now : Micros)
  | poll (now : Micros)
  | setPrinterCredit (bytes : ℕ)
  | setPrinterDrained (drained : Bool)
  | printerInput (data : Bytes)
  | pollTransmit
  | pollEvent

/-- A role and the events its embedder has taken. -/
structure RoleSession where
  role : StyleWriterRole
  taken : List StyleWriterEvent

namespace RoleSession

/-- No event was taken. -/
def start (controlSocket : UInt8) (seed : UInt32) (fastClock : FastClock) : RoleSession :=
  ⟨StyleWriterRole.new controlSocket seed fastClock, []⟩

/-- One input of the role. -/
def step (s : RoleSession) : RoleInput → Option RoleSession
  | .event ev now => (s.role.handleAdspEvent now ev).map (⟨·, s.taken⟩)
  | .datagram src payload now => (s.role.handleDatagram src payload now).map (⟨·, s.taken⟩)
  | .poll now => (s.role.poll now).map (⟨·, s.taken⟩)
  | .setPrinterCredit bytes => some ⟨s.role.setPrinterCredit bytes, s.taken⟩
  | .setPrinterDrained drained => some ⟨s.role.setPrinterDrained drained, s.taken⟩
  | .printerInput data => some ⟨s.role.printerInput data, s.taken⟩
  | .pollTransmit => some ⟨s.role.pollTransmit.2, s.taken⟩
  | .pollEvent => some ⟨s.role.pollEvent.2, s.taken ++ s.role.pollEvent.1.toList⟩

/-- Everything the role has emitted. -/
def emitted (s : RoleSession) : List StyleWriterEvent := s.taken ++ s.role.events

end RoleSession

namespace StyleWriterRole

/-- The desk of a role whose embedder has taken some events before. -/
def desk (s : StyleWriterRole) (taken : List StyleWriterEvent) : Desk where
  busy := s.busy
  marks := (taken ++ s.events).filterMap jobMark

/-- The connection the role is calling back on fails to open. -/
def DialFails (s : StyleWriterRole) (ev : AdspEvent) : Prop :=
  ∃ conn, s.state = .connecting conn ∧ ev = .openFailed conn

/-- What happens to the desk between two states of a role. -/
structure Does (s s' : StyleWriterRole) (acts : List Desk.Act) : Prop where
  desk : ∀ taken, s'.desk taken = run Desk.step (s.desk taken) acts
  legal : ∀ taken, Along Desk.step Desk.Legal (s.desk taken) acts
  queued : s'.endpoint.events = s.endpoint.events

section
variable {s s' s'' : StyleWriterRole} {acts acts' : List Desk.Act}

theorem Does.trans (h : Does s s' acts) (h' : Does s' s'' acts') :
    Does s s'' (acts ++ acts') := by
  refine ⟨fun taken => ?_, fun taken => ?_, h'.queued.trans h.queued⟩
  · rw [h'.desk, h.desk, run_append]
  · rw [Along.append, ← h.desk]
    exact ⟨h.legal taken, h'.legal taken⟩

/-- Nothing is reported about jobs, and the role stays busy or free. -/
theorem does_nothing (new : List StyleWriterEvent) (hbusy : s'.busy = s.busy)
    (hevents : s'.events = s.events ++ new) (hnew : new.filterMap jobMark = [])
    (hqueued : s'.endpoint.events = s.endpoint.events) : Does s s' [] := by
  refine ⟨fun taken => ?_, fun _ => trivial, hqueued⟩
  simp only [StyleWriterRole.desk, hbusy, hevents, List.filterMap_append, hnew, List.append_nil,
    run_nil]

theorem does_refl (s : StyleWriterRole) : Does s s [] :=
  does_nothing [] rfl (List.append_nil _).symm rfl rfl

theorem does_starts {user : Bytes} (hfree : s.busy = false) (hbusy : s'.busy = true)
    (hevents : s'.events = s.events ++ [.jobStarted user])
    (hqueued : s'.endpoint.events = s.endpoint.events) : Does s s' [.starts] := by
  refine ⟨fun taken => ?_, fun taken => ⟨?_, trivial⟩, hqueued⟩
  · simp [StyleWriterRole.desk, hbusy, hevents, Desk.step, jobMark]
  · simp [Desk.Legal, StyleWriterRole.desk, hfree]

theorem does_ends (new : List StyleWriterEvent) (clean : Bool) (hbusy : s.busy = true)
    (hfree : s'.busy = false) (hevents : s'.events = s.events ++ (new ++ [.jobEnded clean]))
    (hnew : new.filterMap jobMark = []) (hqueued : s'.endpoint.events = s.endpoint.events) :
    Does s s' [.ends] := by
  refine ⟨fun taken => ?_, fun taken => ⟨?_, trivial⟩, hqueued⟩
  · simp [StyleWriterRole.desk, hfree, hevents, hnew, Desk.step, jobMark]
  · simp [Desk.Legal, StyleWriterRole.desk, hbusy]

theorem does_drops (hbusy : s.busy = true) (hfree : s'.busy = false)
    (hevents : s'.events = s.events) (hqueued : s'.endpoint.events = s.endpoint.events) :
    Does s s' [.drops] := by
  refine ⟨fun taken => ?_, fun taken => ⟨?_, trivial⟩, hqueued⟩
  · simp [StyleWriterRole.desk, hfree, hevents, Desk.step]
  · simp [Desk.Legal, StyleWriterRole.desk, hbusy]

/-- A choice between two things that do the same to the desk. -/
theorem does_ite {c : Prop} [Decidable c] (h : Does s s' acts) (h' : Does s s'' acts) :
    Does s (if c then s' else s'') acts := by
  split
  · exact h
  · exact h'

/-- What only touches the endpoint, the name and the like. -/
theorem does_same (hstate : s'.state = s.state) (hevents : s'.events = s.events)
    (hqueued : s'.endpoint.events = s.endpoint.events) : Does s s' [] :=
  does_nothing [] (by rw [busy, hstate, busy]) (by rw [hevents, List.append_nil]) rfl hqueued

theorem does_reply (s : StyleWriterRole) (conn : UInt16) (data : Bytes) :
    Does s (s.reply conn data) [] :=
  does_same rfl rfl reply_endpoint_events

theorem does_then_reply {conn : UInt16} {data : Bytes} (h : Does s s' []) :
    Does s (s'.reply conn data) [] :=
  h.trans (does_reply s' conn data)

/-- The events that switch the port's clock. -/
theorem followPrinterClock_events (s : StyleWriterRole) (on : Bool) :
    ∃ new, (s.followPrinterClock on).events = s.events ++ new ∧ new.filterMap jobMark = [] := by
  unfold followPrinterClock
  split
  · refine ⟨_, rfl, ?_⟩
    cases on <;> rfl
  · exact ⟨[], (List.append_nil _).symm, rfl⟩

theorem does_followPrinterClock (s : StyleWriterRole) (on : Bool) :
    Does s (s.followPrinterClock on) [] := by
  obtain ⟨new, hevents, hnew⟩ := s.followPrinterClock_events on
  refine does_nothing new ?_ hevents hnew ?_
  · rw [busy, followPrinterClock_state, busy]
  · rw [followPrinterClock_endpoint]

theorem busy_of_handshake (h : s.state.handshake = true) : s.busy = true := by
  rcases hst : s.state with _ | _ | _ | _ <;> rw [hst] at h <;> simp_all [busy, RoleState.handshake]

end

/-! ## The handlers -/

section
variable {s s' : StyleWriterRole} {conn code : UInt16} {data : Bytes} {now : Micros}

/-- What an attention means for the desk. -/
def attentionAct (s : StyleWriterRole) (conn code : UInt16) (data : Bytes) : Option Desk.Act :=
  if code = ATTN_PRINT_REQUEST then
    if data.length < 5 ∨ s.busy ∨ s.endpoint.remoteOf conn = none then none else some .starts
  else if code = ATTN_WITHDRAW then
    if s.state.handshake ∧ printRequestBlock data = s.jobRequest then some .ends else none
  else none

/-- What an ADSP event means for the desk. -/
def eventAct (s : StyleWriterRole) : AdspEvent → Option Desk.Act
  | .attention conn code data => s.attentionAct conn code data
  | .closed conn =>
    match s.state with
    | .piping dc _ => if conn = dc then some .ends else none
    | _ => none
  | .openFailed conn => if s.state = .connecting conn then some .drops else none
  | _ => none

theorem does_printRequest : Does s (s.handlePrintRequest conn data now)
    (s.attentionAct conn ATTN_PRINT_REQUEST data).toList := by
  rw [attentionAct, if_pos rfl]
  unfold handlePrintRequest
  by_cases hshort : data.length < 5
  · rw [if_pos hshort, if_pos (Or.inl hshort)]
    exact does_reply s _ _
  rw [if_neg hshort]
  by_cases hbusy : s.busy = true
  · rw [if_pos hbusy, if_pos (Or.inr (Or.inl hbusy))]
    exact does_reply s _ _
  rw [if_neg hbusy]
  rcases hremote : s.endpoint.remoteOf conn with _ | remote
  · rw [if_pos (Or.inr (Or.inr rfl))]
    exact does_reply s _ _
  · rw [if_neg (by simp [hshort, hbusy])]
    exact does_starts (Bool.eq_false_iff.2 hbusy) rfl rfl reply_endpoint_events

theorem does_withdraw : Does s (s.handleWithdraw conn data now)
    (s.attentionAct conn ATTN_WITHDRAW data).toList := by
  rw [attentionAct, if_neg (by decide), if_pos rfl]
  unfold handleWithdraw
  by_cases hwait : s.state.handshake = true
  · by_cases hsame : printRequestBlock data = s.jobRequest
    · rw [if_neg (not_not_intro hwait), if_neg (not_not_intro hsame), if_pos ⟨hwait, hsame⟩]
      refine does_ends [] true (busy_of_handshake hwait) rfl ?_ rfl ?_
      · dsimp only [enter, emit]
        split <;> rfl
      · dsimp only [enter, emit]
        split
        · exact reply_endpoint_events
        · exact reply_endpoint_events
    · rw [if_neg (not_not_intro hwait), if_pos hsame, if_neg (fun h => hsame h.2)]
      exact does_reply s _ _
  · rw [if_pos hwait, if_neg (fun h => hwait h.1)]
    exact does_reply s _ _

theorem does_endSession : Does s (s.handleEndSession conn now) [] := by
  refine handleEndSession_cases (P := fun t => Does s t []) ?_ ?_ (does_reply s _ _)
  · intro kill hst
    refine does_nothing [] ?_ (List.append_nil _).symm rfl reply_endpoint_events
    simp [busy, enter, hst]
  · exact fun name _ => does_then_reply (does_nothing [.rename name] rfl rfl rfl rfl)

theorem does_attention : Does s (s.handleAttention conn code data now)
    (s.attentionAct conn code data).toList := by
  by_cases hprint : code = ATTN_PRINT_REQUEST
  · subst hprint
    exact does_printRequest
  by_cases hwithdraw : code = ATTN_WITHDRAW
  · subst hwithdraw
    exact does_withdraw
  rw [attentionAct, if_neg hprint, if_neg hwithdraw]
  -- Every other code is answered and does not touch the job.
  have hclock : ∀ on, Does s ((s.reply conn RESULT_ACCEPTED).followPrinterClock on) [] :=
    fun on => (does_reply s _ _).trans (does_followPrinterClock _ on)
  refine handleAttention_cases (P := fun t => Does s t []) (does_reply s conn)
    (fun h => absurd h hprint) (fun h => absurd h hwithdraw) (fun _ => does_endSession)
    (fun _ => ?options) ?status (fun _ => ?name) (fun _ => ?control) (hclock _)
  case options => exact does_ite (hclock _) (does_reply s _ _)
  case status =>
    refine does_then_reply ?_
    split
    · exact does_same rfl rfl rfl
    · exact does_refl s
  case name =>
    refine does_then_reply ?_
    split
    · exact does_ite (does_same rfl rfl rfl) (does_refl s)
    · exact does_refl s
  case control =>
    unfold handleSerialControl
    split
    · exact hclock _
    · exact does_reply s _ _

theorem does_data {eom : Bool} : Does s (s.handleData data eom) [] := by
  unfold handleData
  dsimp only
  split
  · exact does_same rfl rfl rfl
  · exact does_nothing [.toPrinter data] rfl rfl rfl rfl

theorem does_dropName : Does s (s.dropName conn) [] := does_same rfl rfl rfl

theorem does_callBack {macNode : ServiceAddress} {dataSocket : UInt8} (hbusy : s.busy = true)
    (h : s.callBack macNode dataSocket now = some s') : Does s s' [] := by
  obtain ⟨⟨id, endpoint⟩, hconnect, rfl⟩ := Option.map_eq_some_iff.1 h
  refine does_nothing [] hbusy.symm (List.append_nil _).symm rfl ?_
  obtain ⟨⟨id', rng⟩, -, he⟩ := Option.map_eq_some_iff.1 hconnect
  obtain ⟨-, rfl⟩ := Prod.mk.inj he
  rfl

theorem does_endJob {killSeen : Bool} (hbusy : s.busy = true) :
    Does s (s.endJob killSeen now) [.ends] := by
  have hreset : ∃ new, (if killSeen then s else s.emit (.toPrinter PRINTER_RESET)).events =
      s.events ++ new ∧ new.filterMap jobMark = [] := by
    split
    · exact ⟨[], (List.append_nil _).symm, rfl⟩
    · exact ⟨[.toPrinter PRINTER_RESET], rfl, rfl⟩
  obtain ⟨new, hevents, hnew⟩ := hreset
  obtain ⟨new', hevents', hnew'⟩ :=
    (if killSeen then s else s.emit (.toPrinter PRINTER_RESET)).followPrinterClock_events false
  refine does_ends (new ++ new') killSeen hbusy rfl ?_ ?_ ?_
  · rw [List.append_assoc, ← List.append_assoc, ← hevents, ← List.append_assoc, ← hevents']
    rfl
  · rw [List.filterMap_append, hnew, hnew', List.append_nil]
  · refine (congrArg AdspEndpoint.events followPrinterClock_endpoint).trans ?_
    split <;> rfl

theorem does_closed (h : s.handleClosed conn now = some s') :
    Does s s' (s.eventAct (.closed conn)).toList := by
  unfold handleClosed at h
  simp only [eventAct]
  rcases hst : s.state with _ | ⟨ctrl, macNode, dataSocket⟩ | pending | ⟨dc, killSeen⟩ <;>
    rw [hst] at h
  case awaitingCtrlClose =>
    dsimp only at h
    split at h
    · exact does_dropName.trans (does_callBack (by simp [busy, dropName, hst]) h)
    · obtain rfl := Option.some.inj h
      exact does_dropName
  case piping =>
    dsimp only at h ⊢
    split at h
    · rename_i hconn
      rw [if_pos hconn]
      obtain rfl := Option.some.inj h
      exact does_dropName.trans (does_endJob (by simp [busy, dropName, hst]))
    · rename_i hconn
      rw [if_neg hconn]
      obtain rfl := Option.some.inj h
      exact does_dropName
  all_goals
    obtain rfl := Option.some.inj h
    exact does_dropName

/-- **What an ADSP event does to the desk.** -/
theorem does_event {ev : AdspEvent} (h : handleAdspEvent now s ev = some s') :
    Does s s' (s.eventAct ev).toList := by
  unfold handleAdspEvent at h
  cases ev with
  | opened conn remote inbound pending =>
    have hopened : ∀ t, s.busy = true → some t = some s' →
        t = { s with dataMsgStart := true }.enter (.piping conn false) now → Does s s' [] := by
      rintro t hbusy ht rfl
      obtain rfl := Option.some.inj ht
      exact does_nothing [] hbusy.symm (List.append_nil _).symm rfl rfl
    rcases hst : s.state with _ | _ | _ | _ <;> rw [hst] at h
    · obtain rfl := Option.some.inj h
      exact does_refl s
    · obtain rfl := Option.some.inj h
      exact does_refl s
    all_goals
      cases inbound with
      | true =>
        obtain rfl := Option.some.inj h
        exact does_refl s
      | false => exact hopened _ (by simp [busy, hst]) h (by rw [hst])
  | openFailed conn =>
    obtain rfl := Option.some.inj h
    simp only [eventAct]
    split
    · rename_i hst
      exact does_drops (by simp [busy, hst]) rfl rfl rfl
    · exact does_refl s
  | data conn data eom =>
    rcases hst : s.state with _ | _ | _ | ⟨dc, killSeen⟩ <;> rw [hst] at h <;>
      obtain rfl := Option.some.inj h
    · exact does_refl s
    · exact does_refl s
    · exact does_refl s
    · exact does_ite does_data (does_refl s)
  | attention conn code data =>
    obtain rfl := Option.some.inj h
    exact does_attention
  | attentionAcked conn | attentionFailed conn =>
    obtain rfl := Option.some.inj h
    exact does_refl s
  | closed conn => exact does_closed h

theorem handleAdspEvent_events {ev : AdspEvent} (h : handleAdspEvent now s ev = some s') :
    s'.endpoint.events = s.endpoint.events := (does_event h).queued

theorem eventAct_eq_drops_iff {ev : AdspEvent} :
    s.eventAct ev = some .drops ↔ s.DialFails ev := by
  cases ev with
  | openFailed conn => simp [eventAct, DialFails]
  | attention conn code data =>
    simp only [eventAct, attentionAct, DialFails]
    constructor
    · intro h
      split_ifs at h <;> cases h
    · rintro ⟨_, -, h⟩
      cases h
  | closed conn =>
    simp only [eventAct, DialFails]
    constructor
    · intro h
      split at h
      · split at h <;> cases h
      · cases h
    · rintro ⟨_, -, h⟩
      cases h
  | opened _ _ _ _ | data _ _ _ | attentionAcked _ | attentionFailed _ =>
    simp [eventAct, DialFails]

end

/-! ## Calls -/

/-- No call back fails among some ADSP events. -/
def AllDialed (now : Micros) (s : StyleWriterRole) (evs : List AdspEvent) : Prop :=
  Along (partialStep (handleAdspEvent now)) (fun o ev => ∀ t ∈ o, ¬ t.DialFails ev) (some s) evs

/-- No call back fails among the ADSP events that the endpoint reports. -/
def DialsOn (now : Micros) (s : StyleWriterRole) (endpoint : AdspEndpoint) : Prop :=
  AllDialed now { s with endpoint := { endpoint with events := [] } } endpoint.events

/-- No call back fails in the handling of an input. -/
def Dials (s : StyleWriterRole) : RoleInput → Prop
  | .event ev now => AllDialed now s [ev]
  | .datagram src payload now => DialsOn now s (s.endpoint.handleDatagram src payload now)
  | .poll now => DialsOn now s (s.endpoint.poll now)
  | _ => True

/-- What some work does to the desk, and whether a job is dropped by it. -/
def Works (s s' : StyleWriterRole) (kept : Prop) : Prop :=
  ∃ acts : List Desk.Act, (∀ taken, s'.desk taken = run Desk.step (s.desk taken) acts) ∧
    (∀ taken, Along Desk.step Desk.Legal (s.desk taken) acts) ∧ (.drops ∉ acts ↔ kept)

section
variable {s s' s'' : StyleWriterRole} {now : Micros} {kept kept' : Prop}

theorem Does.works {acts : List Desk.Act} (h : Does s s' acts) (hkept : .drops ∉ acts ↔ kept) :
    Works s s' kept := ⟨acts, h.desk, h.legal, hkept⟩

theorem Works.trans (h : Works s s' kept) (h' : Works s' s'' kept') :
    Works s s'' (kept ∧ kept') := by
  obtain ⟨acts, hdesk, hlegal, hkept⟩ := h
  obtain ⟨acts', hdesk', hlegal', hkept'⟩ := h'
  refine ⟨acts ++ acts', fun taken => ?_, fun taken => ?_, ?_⟩
  · rw [hdesk', hdesk, run_append]
  · rw [Along.append, ← hdesk]
    exact ⟨hlegal taken, hlegal' taken⟩
  · rw [List.mem_append, not_or, hkept, hkept']

/-- Handling ADSP events one after another. -/
theorem works_events {evs : List AdspEvent}
    (h : run (partialStep (handleAdspEvent now)) (some s) evs = some s') :
    Works s s' (AllDialed now s evs) := by
  induction evs generalizing s with
  | nil =>
    obtain rfl := Option.some.inj h
    exact (does_refl s).works ⟨fun _ => trivial, fun _ => List.not_mem_nil⟩
  | cons ev evs ih =>
    obtain ⟨t, hev, hrest⟩ := run_partialStep_cons h
    have hfirst : Works s t (¬ s.DialFails ev) := by
      refine (does_event hev).works (not_congr ?_)
      rw [Option.mem_toList]
      exact eventAct_eq_drops_iff
    have hall : AllDialed now s (ev :: evs) ↔ ¬ s.DialFails ev ∧ AllDialed now t evs := by
      simp only [AllDialed, Along, partialStep_some, hev, Option.mem_some_iff, forall_eq']
    rw [hall]
    exact hfirst.trans (ih hrest)

theorem works_drain {endpoint : AdspEndpoint}
    (h : { s with endpoint }.drainEndpoint now = some s') :
    Works s s' (DialsOn now s endpoint) := by
  obtain ⟨acts, hdesk, hlegal, hkept⟩ := works_events h
  exact ⟨acts, hdesk, hlegal, hkept⟩

theorem does_expire (s : StyleWriterRole) (now : Micros) :
    ∃ acts, Does s (s.expireStalledHandshake now) acts ∧ Desk.Act.drops ∉ acts := by
  unfold expireStalledHandshake
  split
  · rename_i h
    exact ⟨[.ends], does_ends [] false (busy_of_handshake h.1) rfl rfl rfl rfl, by simp⟩
  · exact ⟨[], does_refl s, List.not_mem_nil⟩

theorem works_poll (h : s.poll now = some s') :
    Works s s' (DialsOn now s (s.endpoint.poll now)) := by
  obtain ⟨t, hdrain, rfl⟩ := Option.map_eq_some_iff.1 h
  obtain ⟨acts, hexpire, hkept⟩ := does_expire t now
  have := (works_drain hdrain).trans (hexpire.works (iff_true_intro hkept))
  rwa [and_true] at this

end

end StyleWriterRole

/-! ## Runs -/

namespace RoleSession

/-- The marks of the jobs, in the order they were emitted, and whether the
    role is busy. -/
def desk (s : RoleSession) : Desk := s.role.desk s.taken

/-- `JobStarted` and `JobEnded` strictly alternate, and the role is busy exactly when the last is a
    `JobStarted`. -/
def JobsOk (s : RoleSession) : Prop :=
  Alternates (s.emitted.filterMap jobMark) ∧
    (s.role.busy = true ↔ (s.emitted.filterMap jobMark).getLast? = some .opens)

theorem jobsOk_iff {s : RoleSession} : s.JobsOk ↔ s.desk.Sound :=
  ⟨fun h => ⟨h.1, h.2⟩, fun h => ⟨h.1, h.2⟩⟩

theorem jobsOk_start (socket : UInt8) (seed : UInt32) (clock : FastClock) :
    (start socket seed clock).JobsOk :=
  ⟨alternates_nil, by simp [start, emitted, StyleWriterRole.new, StyleWriterRole.busy]⟩

theorem step_desk {s s' : RoleSession} {i : RoleInput} (h : s.step i = some s') :
    ∃ acts : List Desk.Act, s'.desk = run Desk.step s.desk acts ∧
      Along Desk.step Desk.Legal s.desk acts ∧ (.drops ∉ acts ↔ s.role.Dials i) := by
  -- Most inputs leave the job alone; the others are the role's own work.
  have hsame : ∀ r : StyleWriterRole, s' = ⟨r, s.taken⟩ → r.busy = s.role.busy →
      r.events = s.role.events → ∃ acts : List Desk.Act, s'.desk = run Desk.step s.desk acts ∧
      Along Desk.step Desk.Legal s.desk acts ∧ (.drops ∉ acts ↔ True) := by
    rintro r rfl hbusy hevents
    refine ⟨[], ?_, trivial, by simp⟩
    simp only [desk, StyleWriterRole.desk, hbusy, hevents, run_nil]
  have hwork : ∀ (r : StyleWriterRole) kept, StyleWriterRole.Works s.role r kept →
      s' = ⟨r, s.taken⟩ → ∃ acts : List Desk.Act, s'.desk = run Desk.step s.desk acts ∧
      Along Desk.step Desk.Legal s.desk acts ∧ (.drops ∉ acts ↔ kept) := by
    rintro r kept ⟨acts, hdesk, hlegal, hkept⟩ rfl
    exact ⟨acts, hdesk s.taken, hlegal s.taken, hkept⟩
  cases i with
  | event ev now =>
    obtain ⟨r, hr, rfl⟩ := Option.map_eq_some_iff.1 h
    exact hwork r _ (StyleWriterRole.works_events hr) rfl
  | datagram src payload now =>
    obtain ⟨r, hr, rfl⟩ := Option.map_eq_some_iff.1 h
    exact hwork r _ (StyleWriterRole.works_drain hr) rfl
  | poll now =>
    obtain ⟨r, hr, rfl⟩ := Option.map_eq_some_iff.1 h
    exact hwork r _ (StyleWriterRole.works_poll hr) rfl
  | setPrinterCredit bytes => exact hsame _ (Option.some.inj h).symm rfl rfl
  | setPrinterDrained drained => exact hsame _ (Option.some.inj h).symm rfl rfl
  | printerInput data =>
    refine hsame _ (Option.some.inj h).symm ?_ ?_ <;>
      unfold StyleWriterRole.printerInput <;> split <;> rfl
  | pollTransmit => exact hsame _ (Option.some.inj h).symm rfl rfl
  | pollEvent =>
    obtain rfl := Option.some.inj h
    refine ⟨[], ?_, trivial, by simp [StyleWriterRole.Dials]⟩
    simp only [desk, StyleWriterRole.desk, List.append_assoc, StyleWriterRole.pollEvent_events,
      run_nil]
    rfl

/-- No call back fails in a run. -/
def AllDial (s : RoleSession) (inputs : List RoleInput) : Prop :=
  Along (partialStep step) (fun o i => ∀ t ∈ o, t.role.Dials i) (some s) inputs

theorem run_desk {s s' : RoleSession} {inputs : List RoleInput}
    (h : run (partialStep step) (some s) inputs = some s') :
    ∃ acts : List Desk.Act, s'.desk = run Desk.step s.desk acts ∧
      Along Desk.step Desk.Legal s.desk acts ∧ (.drops ∉ acts ↔ AllDial s inputs) := by
  induction inputs generalizing s with
  | nil =>
    obtain rfl := Option.some.inj h
    exact ⟨[], rfl, trivial, by simp [AllDial, Along]⟩
  | cons i inputs ih =>
    obtain ⟨t, hi, hrest⟩ := run_partialStep_cons h
    obtain ⟨acts, hdesk, hlegal, hkept⟩ := step_desk hi
    obtain ⟨acts', hdesk', hlegal', hkept'⟩ := ih hrest
    refine ⟨acts ++ acts', by rw [hdesk', hdesk, run_append], ?_, ?_⟩
    · rw [Along.append, ← hdesk]
      exact ⟨hlegal, hlegal'⟩
    · simp only [List.mem_append, not_or, hkept, hkept', AllDial, Along, partialStep_some, hi,
        Option.mem_some_iff, forall_eq']

theorem jobsOk_run_iff {s s' : RoleSession} {inputs : List RoleInput} (hs : s.JobsOk)
    (h : run (partialStep step) (some s) inputs = some s') : s'.JobsOk ↔ AllDial s inputs := by
  obtain ⟨acts, hdesk, hlegal, hkept⟩ := run_desk h
  rw [jobsOk_iff, hdesk, Desk.sound_run_iff (jobsOk_iff.1 hs) hlegal, hkept]

end RoleSession

/-- **Job events alternate.**  In a run of calls that return, of a role of any
    seed and kind, the job events alternate and agree with `busy` at every
    point exactly when no call back fails to open. -/
theorem jobs_alternate_iff (socket : UInt8) (seed : UInt32) (clock : FastClock)
    {inputs : List RoleInput}
    (hruns : run (partialStep RoleSession.step) (some (.start socket seed clock)) inputs ≠ none) :
    (∀ before after, inputs = before ++ after →
      ∀ s ∈ run (partialStep RoleSession.step) (some (.start socket seed clock)) before,
        s.JobsOk) ↔
      RoleSession.AllDial (.start socket seed clock) inputs := by
  have hstart := RoleSession.jobsOk_start socket seed clock
  constructor
  · intro h
    obtain ⟨s, hs⟩ := Option.ne_none_iff_exists'.1 hruns
    exact (RoleSession.jobsOk_run_iff hstart hs).1 (h inputs [] (List.append_nil _).symm s hs)
  · rintro hdial before after rfl s hs
    exact (RoleSession.jobsOk_run_iff hstart hs).2 ((Along.append _).1 hdial).1

/-- A datagram of a Mac at node 10: a packet with sequence numbers 0. -/
def fromMac (descriptor : AdspDescriptor) (connectionId : UInt16) (flags : UInt8)
    (data : Bytes) : RoleInput :=
  .datagram ⟨0, 10, 70⟩ (({ descriptor
                            connectionId
                            firstByteSeq := 0
                            nextRecvSeq := 0
                            recvWindow := 1024
                            flags } : AdspPacket).toBytes ++ data) 0

/-- A Mac opens a control connection, is accepted, and closes it. -/
def acceptedJob (conn : UInt16) : List RoleInput :=
  [fromMac .openConnRequest conn 0 (be16 0x0100 ++ List.replicate 6 0),
    fromMac .dataPacket conn AdspPacket.FLAG_ATTENTION
      (be16 ATTN_PRINT_REQUEST ++ [0, 0, 0, 70, 1, 65]),
    fromMac .closeAdvice conn 0 []]

/-- The answer to the call back, with the ConnID that the role drew. -/
def answerDial (descriptor : AdspDescriptor) : RoleInput :=
  fromMac descriptor 9 0 (be16 0x0100 ++ (be16 7685 ++ List.replicate 4 0))

/-- The Mac takes the call, ends the job and closes. -/
def printedRun : List RoleInput :=
  acceptedJob 7 ++ [answerDial .openConnReqAck,
    fromMac .dataPacket 9 0 [0x41, 0x42],
    fromMac .dataPacket 9 AdspPacket.FLAG_ATTENTION (be16 ATTN_END_SESSION),
    fromMac .closeAdvice 9 0 []]

theorem jobs_alternate_iff_printedRun :
    run (partialStep RoleSession.step) (some (.start 129 5 .unsupported)) printedRun ≠ none ∧
    ((∀ before after, printedRun = before ++ after →
      ∀ s ∈ run (partialStep RoleSession.step) (some (.start 129 5 .unsupported)) before,
        s.JobsOk) ↔
      RoleSession.AllDial (.start 129 5 .unsupported) printedRun) ∧
    (run (partialStep RoleSession.step) (some (.start 129 5 .unsupported)) printedRun).map
      (·.emitted) =
      some [.jobStarted [65], .toPrinter [0x41, 0x42], .jobEnded true] := by
  have hruns : run (partialStep RoleSession.step) (some (.start 129 5 .unsupported))
      printedRun ≠ none := by
    rw [← Option.isSome_iff_ne_none]
    decide
  exact ⟨hruns, jobs_alternate_iff 129 5 .unsupported hruns, by decide⟩

/-- The Mac denies the call back: the role is free again with no `JobEnded`, and the next job starts
    where the first has not ended. -/
theorem deniedRun_not_alternating :
    (run (partialStep RoleSession.step) (some (.start 129 5 .unsupported))
      (acceptedJob 7 ++ [answerDial .openConnDeny])).map
        (fun s => (s.role.busy, s.emitted)) = some (false, [.jobStarted [65]]) ∧
    ∃ s, run (partialStep RoleSession.step) (some (.start 129 5 .unsupported))
      (acceptedJob 7 ++ [answerDial .openConnDeny] ++ acceptedJob 8) = some s ∧
      s.emitted = [.jobStarted [65], .jobStarted [65]] ∧ ¬ s.JobsOk := by
  refine ⟨by decide, ?_⟩
  have hruns : (run (partialStep RoleSession.step) (some (.start 129 5 .unsupported))
      (acceptedJob 7 ++ [answerDial .openConnDeny] ++ acceptedJob 8)).map (·.emitted) =
      some [.jobStarted [65], .jobStarted [65]] := by
    decide
  obtain ⟨s, hs, hemitted⟩ := Option.map_eq_some_iff.1 hruns
  refine ⟨s, hs, hemitted, fun hok => ?_⟩
  have := hok.1 1
  rw [hemitted] at this
  exact absurd (this (by decide)) (by decide)

end TailTalk
