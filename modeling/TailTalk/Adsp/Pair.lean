/-
  Two ADSP endpoints with one connection between them, over a network.

  The endpoints only ever talk about this connection: `handleDatagram_plain`
  reduces a received datagram to one operation on it.
-/
import TailTalk.Adsp.Datagrams
import TailTalk.Adsp.Endpoint
import TailTalk.Lib.Maps
import TailTalk.Lib.Network
import TailTalk.Lib.Stream

namespace TailTalk

open Lib

/-- An endpoint and what its owner knows about the connection `conn`. -/
structure AdspHost where
  ep : AdspEndpoint
  /-- the handle of the connection -/
  conn : UInt16
  /-- everything accepted by `send` so far -/
  sent : List StreamItem
  /-- the attentions accepted by `send_attention` so far -/
  attentions : List (UInt16 × Bytes)
  /-- the events taken with `poll_event` so far -/
  drained : List AdspEvent

/-- What the owner of an endpoint can do. -/
inductive AdspCall where
  | send (data : Bytes) (eom : Bool)
  | sendAttention (code : UInt16) (data : Bytes) (now : Micros)
  | close
  | setRecvWindow (window : UInt16)
  | poll (now : Micros)
  | pollEvent

namespace AdspHost

/-- A call of the owner. -/
def call (h : AdspHost) : AdspCall → AdspHost
  | .send data eom =>
    match h.ep.send h.conn data eom with
    | (.ok _, ep) => { h with ep, sent := h.sent ++ record data eom }
    | (.error _, ep) => { h with ep }
  | .sendAttention code data now =>
    match h.ep.sendAttention h.conn code data now with
    | (.ok _, ep) => { h with ep, attentions := h.attentions ++ [(code, data)] }
    | (.error _, ep) => { h with ep }
  | .close => { h with ep := h.ep.close h.conn }
  | .setRecvWindow window => { h with ep := h.ep.setRecvWindow window }
  | .poll now => { h with ep := h.ep.poll now }
  | .pollEvent =>
    let (event, ep) := h.ep.pollEvent
    { h with ep, drained := h.drained ++ event.toList }

/-- Every event emitted so far. -/
def emitted (h : AdspHost) : List AdspEvent := h.drained ++ h.ep.events

/-- The connection, while the endpoint has it. -/
def connection (h : AdspHost) : Option Connection := h.ep.connections[h.conn]?

/-- Run an operation on the connection. -/
def onConn (h : AdspHost) (f : Connection → Effect) : AdspHost :=
  { h with ep := h.ep.onConn h.conn f }

/-- The connection is gone and its owner is told. -/
def closed (h : AdspHost) : AdspHost :=
  { h with ep := (h.ep.forget h.conn).emit (.closed h.conn) }

/-- The retransmission timer of the connection. -/
def pollData (h : AdspHost) (now : Micros) : AdspHost :=
  { h with ep := h.ep.pollData now h.conn }

end AdspHost

namespace AdspHost

/-- Receive a datagram. -/
def recv (h : AdspHost) (src : ServiceAddress) (payload : Bytes) (now : Micros) : AdspHost :=
  { h with ep := h.ep.handleDatagram src payload now }

/-- Take the next datagram to send. -/
def transmit (h : AdspHost) : Option (ServiceAddress × Bytes) × AdspHost :=
  (h.ep.pollTransmit.1, { h with ep := h.ep.pollTransmit.2 })

end AdspHost

/-- A host as a party of a network. -/
def adspParty : Party AdspHost ServiceAddress Bytes AdspCall where
  call := AdspHost.call
  recv := AdspHost.recv
  outbox h := h.ep.outbox
  transmit := AdspHost.transmit
  transmit_mem := List.mem_of_mem_head?
  outbox_transmit := List.mem_of_mem_tail

/-- The two sides; the peer of `i` is `!i`. -/
abbrev AdspNet := Net AdspHost ServiceAddress Bytes Bool

/-- The state after some steps of the network. -/
abbrev adspRun (addr : Bool → ServiceAddress) (s : AdspNet)
    (as : List (Net.Act AdspCall Bool)) : AdspNet := run (Net.step adspParty addr) s as

/-- One connection just established on each side, keyed by the ConnID the other uses, and nothing on
    the way. -/
structure Joined (addr : Bool → ServiceAddress) (s : AdspNet) : Prop where
  addr_ne : addr true ≠ addr false
  wire : s.wire = []
  outbox : ∀ i, (s.host i).ep.outbox = []
  opens : ∀ i, (s.host i).ep.pendingOpens.toList = []
  others : ∀ i k, k ≠ (s.host i).conn → (s.host i).ep.connections[k]? = none
  fresh : ∀ i, ∃ window now,
    (s.host i).connection = some (Connection.new (s.host (!i)).conn (addr !i) window now)
  sent : ∀ i, (s.host i).sent = []
  attentions : ∀ i, (s.host i).attentions = []
  emitted : ∀ i, (s.host i).emitted = []

/-- A host with one fresh connection to `remote`, under the handle `conn`. -/
def AdspHost.start (conn ourConnId : UInt16) (remote : ServiceAddress) (window : UInt16) :
    AdspHost where
  ep := { AdspEndpoint.new 0 0 with
    connections := (∅ : Std.TreeMap UInt16 Connection).insert conn
      (Connection.new ourConnId remote window 0) }
  conn := conn
  sent := []
  attentions := []
  drained := []

/-- Two hosts with one fresh connection between them. -/
def adspStart (addr : Bool → ServiceAddress) (conn : Bool → UInt16) (window : UInt16) :
    AdspNet where
  host i := AdspHost.start (conn i) (conn !i) (addr !i) window
  wire := []

theorem joined_adspStart {addr : Bool → ServiceAddress} (h : addr true ≠ addr false)
    (conn : Bool → UInt16) (window : UInt16) : Joined addr (adspStart addr conn window) where
  addr_ne := h
  wire := rfl
  outbox _ := rfl
  opens _ := rfl
  others i k hk := by
    simp only [adspStart, AdspHost.start] at hk ⊢
    rw [getElem?_insert_eq, if_neg hk]; simp
  fresh i := ⟨window, 0, by simp [adspStart, AdspHost.start, AdspHost.connection]⟩
  sent _ := rfl
  attentions _ := rfl
  emitted _ := rfl

/-- Two addresses, and two hosts joined over them. -/
def pairAddr (i : Bool) : ServiceAddress := if i then ⟨0, 1, 130⟩ else ⟨0, 2, 131⟩

/-- Two endpoints that have opened a connection. -/
def pairStart : AdspNet := adspStart pairAddr (fun i => if i then 20 else 10) 1024

namespace AdspHost

/-- The endpoint has no connection but `conn` and no open of its own. -/
structure Solo (h : AdspHost) : Prop where
  others : ∀ k, k ≠ h.conn → h.ep.connections[k]? = none
  opens : h.ep.pendingOpens.toList = []

/-! ## Operations on the connection -/

section
variable {h : AdspHost} {f : Connection → Effect} {c : Connection}

theorem onConn_none (hc : h.connection = none) : h.onConn f = h := by
  rw [connection] at hc
  simp only [onConn, AdspEndpoint.onConn, hc]

theorem onConn_some (hc : h.connection = some c) :
    h.onConn f = { h with ep := { h.ep with
      connections := h.ep.connections.insert h.conn (f c).conn
      outbox := h.ep.outbox ++ (f c).packets.map fun p => ((f c).conn.remote, p)
      events := h.ep.events ++ (f c).events } } := by
  rw [connection] at hc
  simp only [onConn, AdspEndpoint.onConn, hc]

@[simp] theorem onConn_conn : (h.onConn f).conn = h.conn := rfl

@[simp] theorem onConn_sent : (h.onConn f).sent = h.sent := rfl

@[simp] theorem onConn_attentions : (h.onConn f).attentions = h.attentions := rfl

theorem connection_onConn (hc : h.connection = some c) :
    (h.onConn f).connection = some (f c).conn := by
  rw [onConn_some hc]; simp [connection]

theorem outbox_onConn (hc : h.connection = some c) : (h.onConn f).ep.outbox =
    h.ep.outbox ++ (f c).packets.map fun p => ((f c).conn.remote, p) := by
  rw [onConn_some hc]

theorem emitted_onConn (hc : h.connection = some c) :
    (h.onConn f).emitted = h.emitted ++ (f c).events := by
  rw [onConn_some hc]; simp only [emitted, List.append_assoc]

theorem Solo.onConn (hs : h.Solo) (f : Connection → Effect) : (h.onConn f).Solo := by
  rcases hc : h.connection with _ | c
  · rw [onConn_none hc]; exact hs
  · rw [onConn_some hc]
    refine ⟨fun k hk => ?_, hs.opens⟩
    rw [getElem?_insert_eq, if_neg hk]
    exact hs.others k hk

theorem connection_closed : h.closed.connection = none := by
  simp [closed, connection, AdspEndpoint.forget, AdspEndpoint.emit]

theorem emitted_closed : h.closed.emitted = h.emitted ++ [.closed h.conn] := by
  simp only [emitted, closed, AdspEndpoint.emit, AdspEndpoint.forget, List.append_assoc]

theorem Solo.forget (hs : h.Solo) {ep : AdspEndpoint}
    (hc : ep.connections = h.ep.connections.erase h.conn)
    (ho : ep.pendingOpens = h.ep.pendingOpens) : ({ h with ep } : AdspHost).Solo := by
  refine ⟨fun k hk => ?_, by rw [← hs.opens]; exact congrArg _ ho⟩
  simp only [hc]
  rw [getElem?_erase_eq, if_neg hk]
  exact hs.others k hk

theorem Solo.closed (hs : h.Solo) : h.closed.Solo := hs.forget rfl rfl

/-- The keys of an endpoint with at most one connection. -/
theorem Solo.keys (hs : h.Solo) :
    h.ep.connections.keys = [] ∨ h.ep.connections.keys = [h.conn] := by
  have hall : ∀ k ∈ h.ep.connections.keys, k = h.conn := by
    intro k hk
    by_contra hne
    have hmem := Std.TreeMap.mem_keys.1 hk
    rw [← Std.TreeMap.isSome_getElem?_iff_mem, hs.others k hne] at hmem
    cases hmem
  have hnodup := Std.TreeMap.nodup_keys (t := h.ep.connections)
  rcases hk : h.ep.connections.keys with _ | ⟨a, _ | ⟨b, rest⟩⟩
  · exact Or.inl rfl
  · rw [hk] at hall
    rw [hall a (by simp)]; exact Or.inr rfl
  · rw [hk] at hall hnodup
    have ha := hall a (by simp)
    have hb := hall b (by simp)
    simp [ha, hb] at hnodup

/-- Without the connection there are no keys. -/
theorem keys_ne_nil (hc : h.connection = some c) : h.ep.connections.keys ≠ [] := by
  intro hnil
  have hmem : h.conn ∈ h.ep.connections := by
    rw [← Std.TreeMap.isSome_getElem?_iff_mem]
    rw [connection] at hc; rw [hc]; rfl
  have := Std.TreeMap.mem_keys.2 hmem
  rw [hnil] at this
  cases this

/-- Going over the keys is acting on the one connection, for an action that
    does nothing where there is none. -/
theorem Solo.foldl_keys (hs : h.Solo) (g : AdspEndpoint → UInt16 → AdspEndpoint)
    {ep : AdspEndpoint} (hg : h.connection = none → g ep h.conn = ep) :
    h.ep.connections.keys.foldl g ep = g ep h.conn := by
  rcases hs.keys with hk | hk
  · rcases hc : h.connection with _ | c
    · rw [hk, List.foldl_nil, hg hc]
    · exact absurd hk (keys_ne_nil hc)
  · rw [hk]; rfl

end

/-! ## The calls -/

section
variable {h : AdspHost}

theorem call_send_none {data : Bytes} {eom : Bool} (hc : h.connection = none) :
    h.call (.send data eom) = h := by
  rw [connection] at hc
  simp only [call, AdspEndpoint.send, hc]

theorem call_send_some {c : Connection} {data : Bytes} {eom : Bool} (hc : h.connection = some c) :
    h.call (.send data eom) = { h.onConn fun c => (c.queueWrite data eom).pump h.ep.recvWindow none
      with sent := h.sent ++ record data eom } := by
  rw [connection] at hc
  simp only [call, AdspEndpoint.send, hc]; rfl

theorem call_sendAttention_refused {code : UInt16} {data : Bytes} {now : Micros}
    (hc : ∀ c, h.connection = some c → c.attnInFlight ≠ none) :
    h.call (.sendAttention code data now) = h := by
  rcases h' : h.connection with _ | c
  · rw [connection] at h'
    simp only [call, AdspEndpoint.sendAttention, h']
  · have hsome := Option.isSome_iff_ne_none.2 (hc c h')
    rw [connection] at h'
    simp only [call, AdspEndpoint.sendAttention, h', hsome, if_true]

theorem call_sendAttention {c : Connection} {code : UInt16} {data : Bytes} {now : Micros}
    (hc : h.connection = some c) (ha : c.attnInFlight = none) :
    h.call (.sendAttention code data now) =
      { h.onConn (Connection.startAttention code data now) with
        attentions := h.attentions ++ [(code, data)] } := by
  rw [connection] at hc
  simp only [call, AdspEndpoint.sendAttention, hc, ha, Option.isSome_none, Bool.false_eq_true,
    if_false]; rfl

theorem call_close_none (hc : h.connection = none) : h.call .close = h := by
  rw [connection] at hc
  simp only [call, AdspEndpoint.close, hc]

/-- The host with another window to advertise. -/
def withWindow (h : AdspHost) (w : UInt16) : AdspHost :=
  { h with ep := { h.ep with recvWindow := w } }

theorem onConn_ep_none {ep : AdspEndpoint} {key : UInt16} {f : Connection → Effect}
    (hc : ep.connections[key]? = none) : ep.onConn key f = ep := by
  simp only [AdspEndpoint.onConn, hc]

theorem call_setRecvWindow (hs : h.Solo) (w : UInt16) : h.call (.setRecvWindow w) =
    if h.ep.recvWindow == 0 && w > 0 then (h.withWindow w).onConn (Connection.sendAck w)
    else h.withWindow w := by
  simp only [call, AdspEndpoint.setRecvWindow]
  split_ifs with hw
  · rw [hs.foldl_keys]
    · rfl
    · exact fun hc => onConn_ep_none hc
  · rfl

/-- Polling is the attention timer, then the retransmission timer. -/
theorem call_poll (hs : h.Solo) (now : Micros) : h.call (.poll now) =
    (h.onConn (Connection.pollAttention h.conn now)).pollData now := by
  have hopens : h.ep.pollOpens now = h.ep := by
    simp only [AdspEndpoint.pollOpens, hs.opens, List.filter_nil, List.foldl_nil]
  have hattn : h.ep.connections.keys.foldl
      (fun ep key => ep.onConn key (Connection.pollAttention key now)) h.ep =
      (h.onConn (Connection.pollAttention h.conn now)).ep :=
    hs.foldl_keys _ fun hc => onConn_ep_none hc
  have hdata : (h.onConn (Connection.pollAttention h.conn now)).ep.connections.keys.foldl
      (AdspEndpoint.pollData now) (h.onConn (Connection.pollAttention h.conn now)).ep =
      ((h.onConn (Connection.pollAttention h.conn now)).pollData now).ep := by
    refine (hs.onConn (Connection.pollAttention h.conn now)).foldl_keys _ fun hc => ?_
    rw [connection] at hc
    simp only [AdspEndpoint.pollData, hc]
  simp only [call, AdspEndpoint.poll, hopens, hattn, hdata]
  rfl

/-- What the retransmission timer does. -/
theorem pollData_cases (h : AdspHost) (now : Micros) :
    h.pollData now = h ∨ h.pollData now = h.closed ∨
    ∃ c, h.connection = some c ∧ c.retransmitDue now ∧ c.retries < ADSP_MAX_RETRIES ∧
      h.pollData now = h.onConn fun c =>
        ({ c with retries := c.retries + 1 } : Connection).resendUnacked h.ep.recvWindow now := by
  rcases hc : h.connection with _ | c
  · left
    rw [connection] at hc
    simp only [pollData, AdspEndpoint.pollData, hc]
  have hget := hc
  rw [connection] at hget
  by_cases hdue : c.retransmitDue now
  · by_cases hmax : min (c.retries + 1) 255 > ADSP_MAX_RETRIES
    · right; left
      simp only [pollData, AdspEndpoint.pollData, hget]
      rw [if_neg (not_not.2 hdue), if_pos hmax]; rfl
    · right; right
      have hlt : c.retries < ADSP_MAX_RETRIES := by simp only [ADSP_MAX_RETRIES] at hmax ⊢; omega
      have hmin : min (c.retries + 1) 255 = c.retries + 1 := by
        simp only [ADSP_MAX_RETRIES] at hlt; omega
      refine ⟨c, rfl, hdue, hlt, ?_⟩
      rw [onConn_some hc]
      simp only [pollData, AdspEndpoint.pollData, hget]
      rw [if_neg (not_not.2 hdue), if_neg hmax]
      simp only [AdspEndpoint.onConn, hget, hmin]
  · left
    simp only [pollData, AdspEndpoint.pollData, hget]
    rw [if_pos hdue]

end

/-! ## Received datagrams -/

/-- A datagram that is about the connection `conn` and opens nothing. -/
def Plain (conn : UInt16) (payload : Bytes) : Prop :=
  ∀ packet, AdspPacket.parse payload = .ok packet → packet.connectionId = conn ∧
    (packet.flags &&& AdspPacket.FLAG_ATTENTION ≠ 0 ∨ packet.descriptor = .dataPacket ∨
      packet.descriptor = .controlPacket ∨ packet.descriptor = .closeAdvice)

/-- What receiving a plain datagram can do. -/
inductive Received (h : AdspHost) (payload : Bytes) (now : Micros) : AdspHost → Prop
  | ignored : Received h payload now h
  | attentionAck (packet : AdspPacket) (hp : AdspPacket.parse payload = .ok packet)
      (hattn : packet.flags &&& AdspPacket.FLAG_ATTENTION ≠ 0)
      (hctl : packet.flags &&& AdspPacket.FLAG_CONTROL ≠ 0 ∨ packet.descriptor = .controlPacket) :
      Received h payload now (h.onConn (Connection.handleAttentionAck h.conn packet))
  | attention (packet : AdspPacket) (hp : AdspPacket.parse payload = .ok packet)
      (hattn : packet.flags &&& AdspPacket.FLAG_ATTENTION ≠ 0)
      (hctl : ¬ (packet.flags &&& AdspPacket.FLAG_CONTROL ≠ 0 ∨
        packet.descriptor = .controlPacket)) :
      Received h payload now (h.onConn (Connection.handleAttention h.conn packet
        (payload.drop AdspPacket.HEADER_LEN)))
  | data (packet : AdspPacket) (hp : AdspPacket.parse payload = .ok packet)
      (hattn : packet.flags &&& AdspPacket.FLAG_ATTENTION = 0)
      (hdesc : packet.descriptor = .dataPacket ∨ packet.descriptor = .controlPacket) :
      Received h payload now (h.onConn (Connection.handleData h.ep.recvWindow h.conn packet
        (payload.drop AdspPacket.HEADER_LEN) now))
  | closed : Received h payload now h.closed

theorem recv_plain {h : AdspHost} {payload : Bytes} (hp : Plain h.conn payload)
    (src : ServiceAddress) (now : Micros) : Received h payload now (h.recv src payload now) := by
  rcases hpkt : AdspPacket.parse payload with err | packet
  · simp only [recv, AdspEndpoint.handleDatagram, hpkt]; exact .ignored
  obtain ⟨hid, hkind⟩ := hp packet hpkt
  by_cases hattn : packet.flags &&& AdspPacket.FLAG_ATTENTION ≠ 0
  · by_cases hctl : packet.flags &&& AdspPacket.FLAG_CONTROL ≠ 0 ∨
      packet.descriptor = .controlPacket
    · have hgot : Received h payload now _ := .attentionAck packet hpkt hattn hctl
      simp only [recv, AdspEndpoint.handleDatagram, hpkt, if_pos hattn, if_pos hctl, hid]
      exact hgot
    · have hgot : Received h payload now _ := .attention packet hpkt hattn hctl
      simp only [recv, AdspEndpoint.handleDatagram, hpkt, if_pos hattn, if_neg hctl, hid]
      exact hgot
  · have hattn' := not_not.1 hattn
    rcases hkind with hk | hk | hk | hk
    · exact absurd hattn' hk
    · have hgot : Received h payload now _ := .data packet hpkt hattn' (Or.inl hk)
      simp only [recv, AdspEndpoint.handleDatagram, hpkt, if_neg hattn, hk, hid]
      exact hgot
    · have hgot : Received h payload now _ := .data packet hpkt hattn' (Or.inr hk)
      simp only [recv, AdspEndpoint.handleDatagram, hpkt, if_neg hattn, hk, hid]
      exact hgot
    · simp only [recv, AdspEndpoint.handleDatagram, hpkt, if_neg hattn, hk, hid]
      by_cases hc : h.ep.connections.contains h.conn
      · simp only [hc, if_true]; exact .closed
      · simp only [hc, Bool.false_eq_true, if_false]; exact .ignored

end AdspHost

end TailTalk
