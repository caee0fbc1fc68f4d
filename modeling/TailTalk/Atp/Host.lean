/-
  ATP endpoints on a network.

  An `AtpHost` is an endpoint with its owner: the handles of the requests
  made, the answers given, and what was taken out of the two queues.
  `atpParty` makes it a party of a datagram network of any number of hosts.
-/
import TailTalk.Atp.Endpoint
import TailTalk.Lib.Network

namespace TailTalk

open Lib

/-- An answer that the owner gave. -/
structure AtpAnswer where
  source : ServiceAddress
  tid : UInt16
  chunks : List (UserBytes × Bytes)
deriving DecidableEq

namespace AtpAnswer

/-- The transaction answered. -/
def key (a : AtpAnswer) : ServiceAddress × UInt16 := (a.source, a.tid)

/-- The packets of an answer. -/
def packets (a : AtpAnswer) : List Bytes := AtpEndpoint.frame a.tid a.chunks

end AtpAnswer

/-- An endpoint and what its owner did and saw. -/
structure AtpHost where
  ep : AtpEndpoint
  /-- the handles of the requests made so far -/
  handles : List UInt16
  /-- the answers given so far -/
  answered : List AtpAnswer
  /-- the events taken with `poll_event` so far -/
  drained : List AtpEvent
  /-- the datagrams taken with `poll_transmit` so far -/
  sent : List (ServiceAddress × Bytes)

/-- What the owner of an endpoint can do. -/
inductive AtpCall where
  | request (dest : ServiceAddress) (userBytes : UserBytes) (data : Bytes) (bitmap : UInt8)
      (now : Micros)
  | sendAlo (dest : ServiceAddress) (userBytes : UserBytes)
  | respond (source : ServiceAddress) (tid : UInt16) (userBytes : UserBytes) (data : Bytes)
      (chunkSize : ℕ) (now : Micros)
  | respondPackets (source : ServiceAddress) (tid : UInt16) (chunks : List (UserBytes × Bytes))
      (now : Micros)
  | poll (now : Micros)
  | pollEvent

/-- The answer that a call gives, and when. -/
def AtpCall.answer : AtpCall → Option (AtpAnswer × Micros)
  | .respond source tid userBytes data chunkSize now =>
    some (⟨source, tid, AtpEndpoint.split userBytes data chunkSize⟩, now)
  | .respondPackets source tid chunks now => some (⟨source, tid, chunks⟩, now)
  | _ => none

namespace AtpHost

/-- A host with nothing asked and nothing answered. -/
def new (localSocket : UInt8) : AtpHost := ⟨AtpEndpoint.new localSocket, [], [], [], []⟩

/-- A call that never returns (no TID is free) changes nothing. -/
def call (h : AtpHost) : AtpCall → AtpHost
  | .request dest userBytes data bitmap now =>
    match h.ep.request dest userBytes data bitmap now with
    | some (tid, ep) => { h with ep, handles := h.handles ++ [tid] }
    | none => h
  | .sendAlo dest userBytes =>
    match h.ep.sendAlo dest userBytes with
    | some ep => { h with ep }
    | none => h
  | .respond source tid userBytes data chunkSize now =>
    { h with
      ep := h.ep.respond source tid userBytes data chunkSize now
      answered := h.answered ++ [⟨source, tid, AtpEndpoint.split userBytes data chunkSize⟩] }
  | .respondPackets source tid chunks now =>
    { h with
      ep := h.ep.respondPackets source tid chunks now
      answered := h.answered ++ [⟨source, tid, chunks⟩] }
  | .poll now => { h with ep := h.ep.poll now }
  | .pollEvent =>
    { h with ep := h.ep.pollEvent.2, drained := h.drained ++ h.ep.pollEvent.1.toList }

/-- Receive a datagram. -/
def recv (h : AtpHost) (src : ServiceAddress) (payload : Bytes) (_now : Micros) : AtpHost :=
  { h with ep := h.ep.handleDatagram src payload }

/-- Take the next datagram to send. -/
def transmit (h : AtpHost) : Option (ServiceAddress × Bytes) × AtpHost :=
  (h.ep.pollTransmit.1,
    { h with ep := h.ep.pollTransmit.2, sent := h.sent ++ h.ep.pollTransmit.1.toList })

/-- Every event emitted so far. -/
def emitted (h : AtpHost) : List AtpEvent := h.drained ++ h.ep.events

/-- Every datagram queued so far. -/
def queued (h : AtpHost) : List (ServiceAddress × Bytes) := h.sent ++ h.ep.outbox

end AtpHost

/-- A host as a party of a network. -/
def atpParty : Party AtpHost ServiceAddress Bytes AtpCall where
  call := AtpHost.call
  recv := AtpHost.recv
  outbox h := h.ep.outbox
  transmit := AtpHost.transmit
  transmit_mem := List.mem_of_mem_head?
  outbox_transmit := List.mem_of_mem_tail

/-- What can happen to a host. -/
abbrev AtpInput := Net.Input ServiceAddress Bytes AtpCall

/-- A host on its own, whatever reaches it. -/
abbrev AtpHost.step : AtpHost → AtpInput → AtpHost := Net.solo atpParty

/-- Hosts on a network. -/
abbrev AtpNet (ι : Type) := Net AtpHost ServiceAddress Bytes ι

/-- The state after some steps of the network. -/
abbrev atpRun {ι : Type} [DecidableEq ι] (addr : ι → ServiceAddress) (s : AtpNet ι)
    (as : List (Net.Act AtpCall ι)) : AtpNet ι := run (Net.step atpParty addr) s as

/-- Fresh hosts, each on the socket of its address, and an empty wire. -/
def atpStart {ι : Type} (addr : ι → ServiceAddress) : AtpNet ι where
  host i := AtpHost.new (addr i).socketNumber
  wire := []

/-- Two addresses. -/
def atpAddr (i : Bool) : ServiceAddress := if i then ⟨0, 1, 70⟩ else ⟨0, 2, 80⟩

namespace AtpHost

/-! ## What an input does to the two logs -/

theorem emitted_pollEvent (h : AtpHost) : (h.call .pollEvent).emitted = h.emitted := by
  simp only [emitted, call, AtpEndpoint.pollEvent, List.append_assoc]
  rcases h.ep.events with _ | ⟨e, es⟩ <;> rfl

theorem emitted_transmit (h : AtpHost) : h.transmit.2.emitted = h.emitted := rfl

theorem call_answer {h : AtpHost} {c : AtpCall} {a : AtpAnswer} {now : Micros}
    (hc : c.answer = some (a, now)) :
    h.call c = { h with
      ep := h.ep.respondPackets a.source a.tid a.chunks now
      answered := h.answered ++ [a] } := by
  cases c with
  | respond source tid userBytes data chunkSize now' => cases hc; rfl
  | respondPackets source tid chunks now' => cases hc; rfl
  | request dest userBytes data bitmap now' => cases hc
  | sendAlo dest userBytes => cases hc
  | poll now' => cases hc
  | pollEvent => cases hc

/-- Answers stay in the log. -/
theorem answered_call (h : AtpHost) (c : AtpCall) :
    ∀ a ∈ h.answered, a ∈ (h.call c).answered := by
  intro a ha
  cases c with
  | request dest userBytes data bitmap now =>
    simp only [call]
    rcases h.ep.request dest userBytes data bitmap now with _ | p <;> exact ha
  | sendAlo dest userBytes =>
    simp only [call]
    rcases h.ep.sendAlo dest userBytes with _ | p <;> exact ha
  | respond source tid userBytes data chunkSize now => exact List.mem_append_left _ ha
  | respondPackets source tid chunks now => exact List.mem_append_left _ ha
  | poll now => exact ha
  | pollEvent => exact ha

/-! ## Received requests -/

/-- What a received request does. -/
inductive Asked (h : AtpHost) (src : ServiceAddress) (packet : AtpPacket) (data : Bytes) :
    AtpEndpoint → Prop
  | replayed (c : CachedResponse) (hc : h.ep.cached src packet.tid = some c) :
      Asked h src packet data (h.ep.push src c.packets)
  | inProgress (hxo : packet.xo) (hc : h.ep.cached src packet.tid = none)
      (hp : (src, packet.tid) ∈ h.ep.inProgress) : Asked h src packet data h.ep
  | delivered (hxo : packet.xo) (hc : h.ep.cached src packet.tid = none)
      (hp : (src, packet.tid) ∉ h.ep.inProgress) : Asked h src packet data
      ((h.ep.remember src packet.tid).emit (AtpEndpoint.requestEvent src packet data))
  | atLeastOnce (hxo : packet.xo = false) (hc : h.ep.cached src packet.tid = none) :
      Asked h src packet data (h.ep.emit (AtpEndpoint.requestEvent src packet data))

theorem asked_handleRequest (h : AtpHost) (src : ServiceAddress) (packet : AtpPacket)
    (data : Bytes) : Asked h src packet data (h.ep.handleRequest src packet data) := by
  unfold AtpEndpoint.handleRequest
  rcases hc : h.ep.cached src packet.tid with _ | c
  · dsimp only
    by_cases hxo : packet.xo
    · by_cases hp : (src, packet.tid) ∈ h.ep.inProgress
      · have hany : (h.ep.inProgress.any fun p => p.1 = src ∧ p.2 = packet.tid) = true :=
          List.any_eq_true.2 ⟨_, hp, by simp⟩
        rw [if_pos hxo, if_pos hany]
        exact .inProgress hxo hc hp
      · have hany : ¬ (h.ep.inProgress.any fun p => p.1 = src ∧ p.2 = packet.tid) = true := by
          intro hany
          obtain ⟨p, hmem, heq⟩ := List.any_eq_true.1 hany
          have hpair : p = (src, packet.tid) := Prod.ext_iff.2 (of_decide_eq_true heq)
          exact hp (hpair ▸ hmem)
        rw [if_pos hxo, if_neg hany]
        exact .delivered hxo hc hp
    · rw [if_neg hxo]
      exact .atLeastOnce (Bool.eq_false_iff.2 hxo) hc
  · exact .replayed c hc

theorem recv_request {h : AtpHost} {src : ServiceAddress} {payload : Bytes} {now : Micros}
    {packet : AtpPacket}
    (hp : AtpPacket.parse payload = .ok packet) (hf : packet.function = .request) :
    h.recv src payload now =
      { h with ep := h.ep.handleRequest src packet (payload.drop AtpPacket.HEADER_LEN) } := by
  simp only [recv, AtpEndpoint.handleDatagram, hp, hf]

end AtpHost

end TailTalk
