/-
  ATP sockets of the embedded stack — what a socket keeps between its endpoint
  and its user, and its back-pressure on the requesters.

  With `REQUEST_QUEUE_LEN` requests waiting a new one is dropped, and its
  retransmit is to bring it back.  By then the endpoint has it down as in
  progress, and such a request is not delivered twice.
-/
import TailTalk.Atp.ExactlyOnce

namespace TailTalk

open Lib

/-- Inbound requests held for a responder that is not reading. -/
def REQUEST_QUEUE_LEN : ℕ := 16

/-- An inbound transaction. -/
structure AtpRequest where
  source : ServiceAddress
  tid : UInt16
  userBytes : UserBytes
  data : Bytes
  /-- the response packets the requester accepts, already widened -/
  bitmap : UInt8
  xo : Bool
deriving DecidableEq

/-- A complete response to one of our requests. -/
structure AtpResponse where
  userBytes : UserBytes
  data : Bytes

/-- The request went unanswered through every retry. -/
inductive AtpTimeout where
  | timeout

/-- The endpoint, the requests to read and the outcomes of our own. -/
structure AtpState where
  ep : AtpEndpoint
  requests : List AtpRequest
  /-- by handle; there is an entry only while someone waits for it -/
  outcomes : Std.TreeMap UInt16 (Option (Except AtpTimeout AtpResponse))

/-- Datagrams, timers, the port that sends, and the calls of users. `outcome` is a waiter looking
    for the outcome, `forget` one that gave up. -/
inductive AtpSocketCall where
  | datagram (src : ServiceAddress) (payload : Bytes)
  | poll (now : Micros)
  | pollTransmit
  | request (dest : ServiceAddress) (userBytes : UserBytes) (data : Bytes) (bitmap : UInt8)
      (now : Micros)
  | outcome (handle : UInt16)
  | forget (handle : UInt16)
  | sendAlo (dest : ServiceAddress) (userBytes : UserBytes)
  | nextRequest
  | respondChunked (request : AtpRequest) (userBytes : UserBytes) (data : Bytes) (chunkSize : ℕ)
      (now : Micros)

namespace AtpState

/-- `AtpSocket::bind`, on a socket that the stack has opened. -/
def bind (socket : UInt8) : AtpState where
  ep := AtpEndpoint.new socket
  requests := []
  outcomes := ∅

/-- An outcome has somewhere to land only while its handle is waited for. -/
def land (s : AtpState) (handle : UInt16) (outcome : Except AtpTimeout AtpResponse) : AtpState :=
  if s.outcomes.contains handle then
    { s with outcomes := s.outcomes.insert handle (some outcome) }
  else s

/-- The body of the loop of `sort_events`. -/
def sortEvent (s : AtpState) : AtpEvent → AtpState
  | .request source tid userBytes data bitmap xo =>
    if s.requests.length < REQUEST_QUEUE_LEN then
      { s with requests := s.requests ++ [⟨source, tid, userBytes, data, bitmap, xo⟩] }
    else s
  | .response handle userBytes data => s.land handle (.ok ⟨userBytes, data⟩)
  | .requestFailed handle => s.land handle (.error .timeout)

/-- Drain the events of the endpoint; sorting one adds none. -/
def sortEvents (s : AtpState) : AtpState :=
  s.ep.events.foldl sortEvent { s with ep := { s.ep with events := [] } }

/-- A datagram, and its events. -/
def handleDatagram (s : AtpState) (src : ServiceAddress) (payload : Bytes) : AtpState :=
  { s with ep := s.ep.handleDatagram src payload }.sortEvents

/-- The timers, and their events. -/
def poll (s : AtpState) (now : Micros) : AtpState := { s with ep := s.ep.poll now }.sortEvents

/-- When the endpoint is to be polled. -/
def nextDeadline (s : AtpState) : Option Micros := s.ep.nextDeadline

/-- The next packet of the endpoint. -/
def pollTransmit (s : AtpState) : Option (ServiceAddress × Bytes) × AtpState :=
  (s.ep.pollTransmit.1, { s with ep := s.ep.pollTransmit.2 })

/-- The first half of `AtpSocket::request`; `none` where no TID is free. -/
def request (s : AtpState) (dest : ServiceAddress) (userBytes : UserBytes) (data : Bytes)
    (bitmap : UInt8) (now : Micros) : Option (UInt16 × AtpState) :=
  (s.ep.request dest userBytes data bitmap now).map fun r =>
    (r.1, { s with ep := r.2, outcomes := s.outcomes.insert r.1 none })

/-- The second half of it: take the outcome, once there is one. -/
def outcome (s : AtpState) (handle : UInt16) :
    Option (Except AtpTimeout AtpResponse) × AtpState :=
  match s.outcomes[handle]? with
  | some (some o) => (some o, { s with outcomes := s.outcomes.erase handle })
  | some none => (none, s)
  | none => (none, s)

/-- The future of a request is dropped before its outcome. -/
def forget (s : AtpState) (handle : UInt16) : AtpState :=
  { s with outcomes := s.outcomes.erase handle }

/-- A request that anyone may answer twice. -/
def sendAlo (s : AtpState) (dest : ServiceAddress) (userBytes : UserBytes) : Option AtpState :=
  (s.ep.sendAlo dest userBytes).map fun ep => { s with ep }

/-- One look of `next_request` at the queue. -/
def nextRequest (s : AtpState) : Option AtpRequest × AtpState :=
  (s.requests.head?, { s with requests := s.requests.tail })

/-- An answer, cut as asked. -/
def respondChunked (s : AtpState) (request : AtpRequest) (userBytes : UserBytes) (data : Bytes)
    (chunkSize : ℕ) (now : Micros) : AtpState :=
  { s with ep := s.ep.respond request.source request.tid userBytes data chunkSize now }

/-- An answer. -/
def respond (s : AtpState) (request : AtpRequest) (userBytes : UserBytes) (data : Bytes)
    (now : Micros) : AtpState :=
  s.respondChunked request userBytes data ATP_MAX_DATA_PER_PACKET now

/-- `none` where the call does not return. -/
def call (s : AtpState) : AtpSocketCall → Option AtpState
  | .datagram src payload => some (s.handleDatagram src payload)
  | .poll now => some (s.poll now)
  | .pollTransmit => some s.pollTransmit.2
  | .request dest userBytes data bitmap now =>
    (s.request dest userBytes data bitmap now).map (·.2)
  | .outcome handle => some (s.outcome handle).2
  | .forget handle => some (s.forget handle)
  | .sendAlo dest userBytes => s.sendAlo dest userBytes
  | .nextRequest => some s.nextRequest.2
  | .respondChunked request userBytes data chunkSize now =>
    some (s.respondChunked request userBytes data chunkSize now)

/-! ## Sorting -/

section
variable (s : AtpState)

@[simp] theorem sortEvents_ep : s.sortEvents.ep = { s.ep with events := [] } := by
  have hkeep : ∀ (events : List AtpEvent) (t : AtpState),
      (events.foldl sortEvent t).ep = t.ep := by
    intro events
    induction events with
    | nil => simp
    | cons event events ih =>
      intro t
      rw [List.foldl_cons, ih]
      cases event with
      | request source tid userBytes data bitmap xo =>
        simp only [sortEvent]
        split <;> rfl
      | response handle userBytes data =>
        simp only [sortEvent, land]
        split <;> rfl
      | requestFailed handle =>
        simp only [sortEvent, land]
        split <;> rfl
  exact hkeep _ _

theorem sortEvents_nil (h : s.ep.events = []) : s.sortEvents.requests = s.requests := by
  simp [sortEvents, h]

theorem events_call {c : AtpSocketCall} {s s' : AtpState} (hs : s.ep.events = [])
    (h : s.call c = some s') : s'.ep.events = [] := by
  cases c with
  | datagram src payload =>
    obtain rfl := Option.some.inj h
    simp [handleDatagram]
  | poll now =>
    obtain rfl := Option.some.inj h
    simp [poll]
  | pollTransmit =>
    obtain rfl := Option.some.inj h
    exact hs
  | request dest userBytes data bitmap now =>
    simp only [call, request, Option.map_map, Option.map_eq_some_iff] at h
    obtain ⟨r, hr, rfl⟩ := h
    have hevents := (AtpHost.sameResponder_request hr).2
    simp [hevents, hs]
  | outcome handle =>
    obtain rfl := Option.some.inj h
    simp only [outcome]
    split <;> exact hs
  | forget handle =>
    obtain rfl := Option.some.inj h
    exact hs
  | sendAlo dest userBytes =>
    simp only [call, sendAlo, Option.map_eq_some_iff] at h
    obtain ⟨ep, hep, rfl⟩ := h
    have hevents := (AtpHost.sameResponder_sendAlo hep).2
    simp [hevents, hs]
  | nextRequest =>
    obtain rfl := Option.some.inj h
    exact hs
  | respondChunked request userBytes data chunkSize now =>
    obtain rfl := Option.some.inj h
    exact hs

end

/-! ## A request that arrives -/

/-- The packet of an exactly-once request. -/
def xoRequest (payload : Bytes) : Option AtpPacket :=
  match AtpPacket.parse payload with
  | .error _ => none
  | .ok packet => if packet.function = .request ∧ packet.xo then some packet else none

theorem xoRequest_eq_some {payload : Bytes} {packet : AtpPacket} :
    xoRequest payload = some packet ↔
      AtpPacket.parse payload = .ok packet ∧ packet.function = .request ∧ packet.xo := by
  unfold xoRequest
  rcases AtpPacket.parse payload with e | p
  · simp
  · simp only [Except.ok.injEq]
    constructor
    · intro h
      split_ifs at h with hp
      obtain rfl := Option.some.inj h
      exact ⟨rfl, hp⟩
    · rintro ⟨rfl, hp⟩
      exact if_pos hp

/-- What its reader gets of a request. -/
def requestOf (src : ServiceAddress) (packet : AtpPacket) (payload : Bytes) : AtpRequest where
  source := src
  tid := packet.tid
  userBytes := packet.userBytes
  data := payload.drop AtpPacket.HEADER_LEN
  bitmap := if packet.bitmapSeqNum = 0 then 0xFF else packet.bitmapSeqNum
  xo := packet.xo

/-- The endpoint remembers the transaction, in progress or answered. -/
def Remembers (s : AtpState) (src : ServiceAddress) (tid : UInt16) : Prop :=
  (src, tid) ∈ s.ep.inProgress ∨ (s.ep.cached src tid).isSome

instance (s : AtpState) (src : ServiceAddress) (tid : UInt16) : Decidable (s.Remembers src tid) :=
  inferInstanceAs (Decidable (_ ∨ _))

/-- The endpoint delivers the payload to its socket. -/
def Delivers (s : AtpState) (src : ServiceAddress) (payload : Bytes) : Prop :=
  (s.ep.handleDatagram src payload).events ≠ []

instance (s : AtpState) (src : ServiceAddress) (payload : Bytes) :
    Decidable (s.Delivers src payload) := inferInstanceAs (Decidable (_ ≠ _))

section
variable {s : AtpState} {src : ServiceAddress} {payload : Bytes} {packet : AtpPacket}

theorem handleDatagram_xo (src : ServiceAddress) (h : xoRequest payload = some packet) :
    s.ep.handleDatagram src payload =
        (s.ep.remember src packet.tid).emit
          (AtpEndpoint.requestEvent src packet (payload.drop AtpPacket.HEADER_LEN)) ∧
        ¬ s.Remembers src packet.tid ∨
      (s.ep.handleDatagram src payload).events = s.ep.events ∧ s.Remembers src packet.tid := by
  obtain ⟨hparse, hf, hxo⟩ := xoRequest_eq_some.1 h
  have hask := AtpHost.asked_handleRequest { AtpHost.new 0 with ep := s.ep } src packet
    (payload.drop AtpPacket.HEADER_LEN)
  have heq : s.ep.handleDatagram src payload =
      s.ep.handleRequest src packet (payload.drop AtpPacket.HEADER_LEN) := by
    simp only [AtpEndpoint.handleDatagram, hparse, hf]
  rw [← heq] at hask
  generalize s.ep.handleDatagram src payload = ep at hask
  cases hask with
  | replayed c hc => exact .inr ⟨rfl, .inr (Option.isSome_iff_exists.2 ⟨c, hc⟩)⟩
  | inProgress hxo hc hp => exact .inr ⟨rfl, .inl hp⟩
  | delivered hxo hc hp =>
    refine .inl ⟨rfl, ?_⟩
    rintro (hmem | hcached)
    · exact hp hmem
    · rw [hc] at hcached
      cases hcached
  | atLeastOnce hxo' hc =>
    rw [hxo] at hxo'
    cases hxo'

theorem delivers_iff (h : xoRequest payload = some packet) (hs : s.ep.events = []) :
    s.Delivers src payload ↔ ¬ s.Remembers src packet.tid := by
  unfold Delivers
  rcases handleDatagram_xo (s := s) src h with ⟨heq, hnot⟩ | ⟨heq, hrem⟩
  · simp [heq, hnot, AtpEndpoint.emit]
  · simp [heq, hrem, hs]

theorem requests_handleDatagram (h : xoRequest payload = some packet) (hs : s.ep.events = []) :
    (s.handleDatagram src payload).requests =
      if s.Delivers src payload ∧ s.requests.length < REQUEST_QUEUE_LEN then
        s.requests ++ [requestOf src packet payload]
      else s.requests := by
  rcases handleDatagram_xo (s := s) src h with ⟨heq, hnot⟩ | ⟨heq, hrem⟩
  · have hdelivers : s.Delivers src payload := (delivers_iff h hs).2 hnot
    simp only [hdelivers, true_and, handleDatagram, heq, sortEvents, AtpEndpoint.emit,
      AtpEndpoint.remember, hs, List.nil_append, List.foldl_cons, List.foldl_nil, sortEvent,
      AtpEndpoint.requestEvent]
    split <;> rfl
  · have hnot : ¬ s.Delivers src payload := fun hd => (delivers_iff h hs).1 hd hrem
    rw [if_neg fun hd => hnot hd.1, handleDatagram, sortEvents_nil _ (heq.trans hs)]

end

end AtpState

/-! ## The requests dropped for a full queue -/

/-- A socket, and the requests that were dropped for a full queue and have not been offered
    since. -/
structure WatchedSocket where
  state : AtpState
  dropped : List (ServiceAddress × Bytes)

namespace WatchedSocket

/-- A socket that has dropped nothing. -/
def bind (socket : UInt8) : WatchedSocket := ⟨AtpState.bind socket, []⟩

/-- A delivered request is queued where there is room, and dropped where there is none. -/
def droppedAfter (w : WatchedSocket) : AtpSocketCall → List (ServiceAddress × Bytes)
  | .datagram src payload =>
    if (AtpState.xoRequest payload).isSome ∧ w.state.Delivers src payload then
      if w.state.requests.length < REQUEST_QUEUE_LEN then
        w.dropped.filter fun d => d ≠ (src, payload)
      else (src, payload) :: w.dropped
    else w.dropped
  | _ => w.dropped

/-- One call, and what it drops. -/
def step (w : WatchedSocket) (c : AtpSocketCall) : Option WatchedSocket :=
  (w.state.call c).map fun state => ⟨state, w.droppedAfter c⟩

/-- A requester retransmits a dropped request, and the queue has room. -/
def Retransmitted (w : WatchedSocket) (src : ServiceAddress) (payload : Bytes) : Prop :=
  (src, payload) ∈ w.dropped ∧ w.state.requests.length < REQUEST_QUEUE_LEN

instance (w : WatchedSocket) (src : ServiceAddress) (payload : Bytes) :
    Decidable (w.Retransmitted src payload) := inferInstanceAs (Decidable (_ ∧ _))

/-- Such a retransmit is queued for `next_request`. -/
def Offered (w : WatchedSocket) : AtpSocketCall → Prop
  | .datagram src payload => w.Retransmitted src payload →
      ∀ packet ∈ AtpState.xoRequest payload, (w.state.handleDatagram src payload).requests =
        w.state.requests ++ [AtpState.requestOf src packet payload]
  | _ => True

instance (w : WatchedSocket) : ∀ c, Decidable (w.Offered c)
  | .datagram _ _ => inferInstanceAs (Decidable (_ → ∀ packet ∈ _, _ = _))
  | .poll _ | .pollTransmit | .request _ _ _ _ _ | .outcome _ | .forget _ | .sendAlo _ _
  | .nextRequest | .respondChunked _ _ _ _ _ => inferInstanceAs (Decidable True)

/-- Such a retransmit comes when the endpoint has forgotten the transaction. -/
def Forgotten (w : WatchedSocket) : AtpSocketCall → Prop
  | .datagram src payload => w.Retransmitted src payload →
      ∀ packet ∈ AtpState.xoRequest payload, ¬ w.state.Remembers src packet.tid
  | _ => True

theorem offered_step_iff {w : WatchedSocket} (hw : w.state.ep.events = []) (c : AtpSocketCall) :
    w.Offered c ↔ w.Forgotten c := by
  cases c with
  | datagram src payload =>
    refine forall_congr' fun hr => forall_congr' fun packet => forall_congr' fun hp => ?_
    rw [AtpState.requests_handleDatagram hp hw, ← AtpState.delivers_iff hp hw]
    by_cases hd : w.state.Delivers src payload
    · simp [hd, hr.2]
    · simp [hd]
  | poll now => exact Iff.rfl
  | pollTransmit => exact Iff.rfl
  | request dest userBytes data bitmap now => exact Iff.rfl
  | outcome handle => exact Iff.rfl
  | forget handle => exact Iff.rfl
  | sendAlo dest userBytes => exact Iff.rfl
  | nextRequest => exact Iff.rfl
  | respondChunked request userBytes data chunkSize now => exact Iff.rfl

theorem events_step {w w' : WatchedSocket} {c : AtpSocketCall} (hw : w.state.ep.events = [])
    (h : w.step c = some w') : w'.state.ep.events = [] := by
  obtain ⟨state, hstate, rfl⟩ := Option.map_eq_some_iff.1 h
  exact AtpState.events_call hw hstate

/-- **When a dropped request comes back.** In every run of an ATP socket the retransmits of dropped
    requests that find room in the queue are all offered exactly if each comes when the endpoint has
    forgotten the transaction it put down as in progress at the drop. -/
theorem offered_iff_forgotten (socket : UInt8) (calls : List AtpSocketCall) :
    Along (partialStep step) (Reached Offered) (some (bind socket)) calls ↔
      Along (partialStep step) (Reached Forgotten) (some (bind socket)) calls := by
  have hstart : ∀ w, some (bind socket) = some w → w.state.ep.events = [] := by
    rintro w hw
    obtain rfl := Option.some.inj hw
    rfl
  constructor
  · intro h
    exact (along_reached
      (fun w c hw hc => (offered_step_iff hw c).1 hc)
      (fun w c w' hw _ hs => events_step hw hs) hstart h).1
  · intro h
    exact (along_reached
      (fun w c hw hc => (offered_step_iff hw c).2 hc)
      (fun w c w' hw _ hs => events_step hw hs) hstart h).1

/-- Exactly-once request `tid` of node 1. -/
def ask (tid : UInt16) : AtpSocketCall :=
  .datagram ⟨0, 1, 140⟩ (AtpEndpoint.requestBytes true 1 tid (.replicate 4 0) [])

/-- Seventeen requests, the last for a full queue; one is read, and the last comes again. -/
def crowdedCalls : List AtpSocketCall :=
  ((List.range 17).map fun i => ask (UInt16.ofNat (i + 1))) ++ [.nextRequest, ask 17]

/-- It is not offered, though there is room. -/
theorem crowdedCalls_lost :
    ¬ Along (partialStep step) (Reached Offered) (some (bind 130)) crowdedCalls := by
  decide +kernel

end WatchedSocket

end TailTalk
