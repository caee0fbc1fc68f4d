/-
  ADSP attentions.

  Each side moves to the next attention number only when the present one is
  acknowledged.  One that is given up does not move it: if the peer had
  accepted it, or still receives a copy, the next attention is acknowledged and
  never delivered.  `AttentionFree` excludes this.
-/
import TailTalk.Adsp.Pair
import TailTalk.Lib.Exchange

namespace TailTalk

open Lib

/-- The outcomes of our attentions on a connection: acknowledged or given up. -/
def outcomesOf (conn : UInt16) (events : List AdspEvent) : List Bool :=
  events.filterMap fun
    | .attentionAcked c => if c = conn then some true else none
    | .attentionFailed c => if c = conn then some false else none
    | _ => none

/-- The attentions delivered on a connection. -/
def attentionsOf (conn : UInt16) (events : List AdspEvent) : List (UInt16 × Bytes) :=
  events.filterMap fun
    | .attention c code data => if c = conn then some (code, data) else none
    | _ => none

theorem outcomesOf_append (conn : UInt16) (a b : List AdspEvent) :
    outcomesOf conn (a ++ b) = outcomesOf conn a ++ outcomesOf conn b := List.filterMap_append

theorem attentionsOf_append (conn : UInt16) (a b : List AdspEvent) :
    attentionsOf conn (a ++ b) = attentionsOf conn a ++ attentionsOf conn b :=
  List.filterMap_append

namespace AdspHost

/-- What became of its attentions. -/
def outcomes (h : AdspHost) : List Bool := outcomesOf h.conn h.emitted

/-- The attentions delivered to the owner. -/
def got (h : AdspHost) : List (UInt16 × Bytes) := attentionsOf h.conn h.emitted

end AdspHost

/-! ## Kinds of packets -/

/-- A packet of the data stream, or one that closes it. -/
def StreamKind (packet : AdspPacket) : Prop :=
  packet.flags &&& AdspPacket.FLAG_ATTENTION = 0 ∧ (packet.descriptor = .dataPacket ∨
    packet.descriptor = .controlPacket ∨ packet.descriptor = .closeAdvice)

/-- An attention message. -/
def IsMessage (packet : AdspPacket) : Prop :=
  packet.flags &&& AdspPacket.FLAG_ATTENTION ≠ 0 ∧
    ¬ (packet.flags &&& AdspPacket.FLAG_CONTROL ≠ 0 ∨ packet.descriptor = .controlPacket)

/-- An acknowledgement of an attention. -/
def IsAck (packet : AdspPacket) : Prop :=
  packet.flags &&& AdspPacket.FLAG_ATTENTION ≠ 0 ∧
    (packet.flags &&& AdspPacket.FLAG_CONTROL ≠ 0 ∨ packet.descriptor = .controlPacket)

instance (packet : AdspPacket) : Decidable (IsMessage packet) :=
  inferInstanceAs (Decidable (_ ∧ _))

instance (packet : AdspPacket) : Decidable (IsAck packet) := inferInstanceAs (Decidable (_ ∧ _))

/-- A datagram of the connection `id` that belongs to its data stream. -/
def StreamDatagram (id : UInt16) (payload : Bytes) : Prop :=
  ∀ packet, AdspPacket.parse payload = .ok packet → packet.connectionId = id ∧ StreamKind packet

theorem streamDatagram_data (c : Connection) (w : UInt16) (seq : UInt32) (eom : Bool)
    (chunk : Bytes) : StreamDatagram c.ourConnId (c.dataPacket w seq eom chunk) := by
  intro packet hp
  rw [parse_dataPacket] at hp
  obtain rfl := Except.ok.inj hp
  have hflags : (if eom then 0x60 else 0x40 : UInt8) &&& AdspPacket.FLAG_ATTENTION = 0 := by
    cases eom <;> decide
  exact ⟨rfl, hflags, Or.inl rfl⟩

theorem streamDatagram_control {p : AdspPacket}
    (hd : p.descriptor = .controlPacket ∨ p.descriptor = .closeAdvice) (hf : p.flags = 0) :
    StreamDatagram p.connectionId p.toBytes := by
  intro packet hp
  rw [parse_control hd hf] at hp
  obtain rfl := Except.ok.inj hp
  exact ⟨rfl, show (0x80 : UInt8) &&& AdspPacket.FLAG_ATTENTION = 0 by decide,
    hd.elim (fun h => Or.inr (Or.inl h)) fun h => Or.inr (Or.inr h)⟩

/-! ## The data stream keeps apart from the attentions -/

section
variable {key : UInt16} {c : Connection}

/-- An operation of the data stream: it leaves the attentions of the connection alone. -/
structure Apart (key : UInt16) (c : Connection) (e : Effect) : Prop where
  ourConnId : e.conn.ourConnId = c.ourConnId
  remote : e.conn.remote = c.remote
  sendSeq : e.conn.attnSendSeq = c.attnSendSeq
  recvSeq : e.conn.attnRecvSeq = c.attnRecvSeq
  inFlight : e.conn.attnInFlight = c.attnInFlight
  packets : ∀ p ∈ e.packets, StreamDatagram c.ourConnId p
  outcomes : outcomesOf key e.events = []
  attentions : attentionsOf key e.events = []

theorem Apart.quiet (key : UInt16) (c : Connection) : Apart key c (.quiet c) :=
  ⟨rfl, rfl, rfl, rfl, rfl, nofun, rfl, rfl⟩

theorem Apart.andThen {e : Effect} {f : Connection → Effect} (he : Apart key c e)
    (hf : Apart key e.conn (f e.conn)) : Apart key c (e.andThen f) := by
  refine ⟨hf.ourConnId.trans he.ourConnId, hf.remote.trans he.remote,
    hf.sendSeq.trans he.sendSeq, hf.recvSeq.trans he.recvSeq, hf.inFlight.trans he.inFlight,
    fun p hp => ?_, ?_, ?_⟩
  · rcases List.mem_append.1 hp with hp | hp
    · exact he.packets p hp
    · rw [← he.ourConnId]; exact hf.packets p hp
  · simp only [Effect.andThen, outcomesOf_append, he.outcomes, hf.outcomes, List.append_nil]
  · simp only [Effect.andThen, attentionsOf_append, he.attentions, hf.attentions, List.append_nil]

theorem apart_pump (w : UInt16) (now : Option Micros) (c : Connection) :
    Apart key c (c.pump w now) := by
  refine Connection.pump_induct (Q := Apart key) w now (.quiet key) (fun {c _ _} f hc ih => ?_) c
  obtain ⟨chunk, eom, hcut⟩ := Connection.cut_cases hc
  refine Apart.andThen ?_ (ih _)
  have hnext := hcut.next
  refine ⟨by rw [hnext], by rw [hnext], by rw [hnext], by rw [hnext], by rw [hnext], ?_, rfl, rfl⟩
  rcases hcut.packets with ⟨rfl, -, -⟩ | rfl
  · intro p hp
    cases hp
  · intro p hp
    obtain rfl := List.mem_singleton.1 hp
    exact streamDatagram_data c w _ eom chunk

/-- An operation that starts by changing the stream's part of the connection. -/
theorem Apart.congr {c' : Connection} {e : Effect} (h : Apart key c' e)
    (hid : c'.ourConnId = c.ourConnId) (hremote : c'.remote = c.remote)
    (hsend : c'.attnSendSeq = c.attnSendSeq) (hrecv : c'.attnRecvSeq = c.attnRecvSeq)
    (hin : c'.attnInFlight = c.attnInFlight) : Apart key c e :=
  ⟨h.ourConnId.trans hid, h.remote.trans hremote, h.sendSeq.trans hsend, h.recvSeq.trans hrecv,
    h.inFlight.trans hin, hid ▸ h.packets, h.outcomes, h.attentions⟩

theorem apart_applyAck (w : UInt16) (packet : AdspPacket) (now : Micros) (c : Connection) :
    Apart key c (c.applyAck w packet now) := by
  simp only [Connection.applyAck]
  split_ifs <;> exact (apart_pump w (some now) _).congr rfl rfl rfl rfl rfl

theorem apart_receive (packet : AdspPacket) (data : Bytes) (c : Connection) :
    Apart key c (c.receive key packet data) := by
  simp only [Connection.receive]
  split_ifs
  · exact .quiet key c
  · exact ⟨rfl, rfl, rfl, rfl, rfl, nofun, rfl, rfl⟩
  · exact ⟨rfl, rfl, rfl, rfl, rfl, nofun, rfl, rfl⟩
  · exact .quiet key c

theorem apart_sendAck (w : UInt16) (c : Connection) : Apart key c (c.sendAck w) := by
  refine ⟨rfl, rfl, rfl, rfl, rfl, fun p hp => ?_, rfl, rfl⟩
  obtain rfl := List.mem_singleton.1 hp
  exact streamDatagram_control (Or.inl rfl) rfl

theorem apart_handleData (w : UInt16) (packet : AdspPacket) (data : Bytes) (now : Micros)
    (c : Connection) : Apart key c (c.handleData w key packet data now) := by
  refine (((apart_receive packet data c).andThen (apart_applyAck w packet now _)).andThen
    ?_).andThen (apart_pump w (some now) _)
  split_ifs
  · exact apart_sendAck w _
  · exact .quiet key _

theorem apart_resendUnacked (w : UInt16) (now : Micros) (c : Connection) :
    Apart key c (c.resendUnacked w now) := by
  simp only [Connection.resendUnacked]
  split_ifs
  · exact .quiet key c
  · refine ⟨rfl, rfl, rfl, rfl, rfl, fun p hp => ?_, rfl, rfl⟩
    obtain ⟨i, hi⟩ := List.mem_iff_getElem?.1 hp
    simp only [List.getElem?_mapIdx, Option.map_eq_some_iff] at hi
    obtain ⟨chunk, -, rfl⟩ := hi
    exact streamDatagram_data c w _ false chunk

end

/-! ## The exchange -/

/-- An attention message on its way: it carries the latest call if it bears the present number. -/
structure Message (calls : List (UInt16 × Bytes)) (o : List Bool) (packet : AdspPacket)
    (data : Bytes) : Prop where
  kind : IsMessage packet
  seq_le : packet.firstByteSeq.toNat ≤ (hits o).length
  latest : packet.firstByteSeq.toNat = (hits o).length → 2 ≤ data.length ∧
    ∃ l, l + 1 = calls.length ∧ calls[l]? = some (readBe16 data, data.drop 2) ∧
      ∀ k ∈ hits o, k < l

/-- An acknowledgement on its way: if it names the present number the latest call was taken. -/
structure Acks (calls : List (UInt16 × Bytes)) (o : List Bool) (got : List (UInt16 × Bytes))
    (packet : AdspPacket) : Prop where
  kind : IsAck packet
  le : packet.nextRecvSeq.toNat ≤ got.length
  taken : packet.nextRecvSeq.toNat = (hits o).length + 1 →
    ∃ l, l + 1 = calls.length ∧ Exchange calls o got (some l)

/-- A datagram from host `a` to host `b`. -/
def AttentionFlight (_ : Bool) (a b : AdspHost) (body : Bytes) : Prop :=
  ∀ packet, AdspPacket.parse body = .ok packet → packet.connectionId = b.conn ∧
    (StreamKind packet ∨
      Message a.attentions a.outcomes packet (body.drop AdspPacket.HEADER_LEN) ∨
      Acks b.attentions b.outcomes a.got packet)

theorem AttentionFlight.plain {i : Bool} {a b : AdspHost} {body : Bytes}
    (h : AttentionFlight i a b body) : AdspHost.Plain b.conn body := by
  intro packet hp
  obtain ⟨hid, hs | hm | ha⟩ := h packet hp
  · exact ⟨hid, Or.inr hs.2⟩
  · exact ⟨hid, Or.inl hm.kind.1⟩
  · exact ⟨hid, Or.inl ha.kind.1⟩

/-- A datagram of the connection `id` that holds an attention message of host
    `a`. -/
def MessageDatagram (a : AdspHost) (id : UInt16) (body : Bytes) : Prop :=
  ∀ packet, AdspPacket.parse body = .ok packet → packet.connectionId = id ∧
    Message a.attentions a.outcomes packet (body.drop AdspPacket.HEADER_LEN)

theorem MessageDatagram.flight {i : Bool} {a b : AdspHost} {body : Bytes}
    (h : MessageDatagram a b.conn body) : AttentionFlight i a b body :=
  fun packet hp => ⟨(h packet hp).1, Or.inr (Or.inl (h packet hp).2)⟩

/-- The sender's half: numbers follow successes, and the attention in flight is
    the latest call. -/
structure AttentionSender (a b : AdspHost) (c : Connection) : Prop where
  seq : c.attnSendSeq.toNat = (hits a.outcomes).length
  idle : c.attnInFlight = none → a.outcomes.length = a.attentions.length
  busy : ∀ p, c.attnInFlight = some p → p.seq = c.attnSendSeq ∧
    a.outcomes.length + 1 = a.attentions.length ∧ MessageDatagram a b.conn p.packet

/-- The invariant of host `a` and its peer `b`: what `b` has taken of `a`'s
    attentions is an exchange. -/
structure AttentionPair (addr : Bool → ServiceAddress) (i : Bool) (a b : AdspHost) : Prop where
  solo : a.Solo
  ids : ∀ c, a.connection = some c → c.ourConnId = b.conn ∧ c.remote = addr !i
  few : a.attentions.length < 2 ^ 32 - 1
  sender : ∀ c, a.connection = some c → AttentionSender a b c
  exchange : ∃ extra, Exchange a.attentions a.outcomes b.got extra ∧
    ∀ c, b.connection = some c → c.attnRecvSeq.toNat = b.got.length ∧
      ∀ j ∈ extra, j + 1 = a.attentions.length

theorem AttentionPair.hits_le {addr : Bool → ServiceAddress} {i : Bool} {a b : AdspHost}
    (h : AttentionPair addr i a b) : (hits a.outcomes).length ≤ a.outcomes.length ∧
      a.outcomes.length ≤ a.attentions.length := by
  obtain ⟨extra, hex, -⟩ := h.exchange
  refine ⟨?_, hex.resolved⟩
  have := List.length_filter_le (fun k => decide (a.outcomes[k]? = some true))
    (List.range a.outcomes.length)
  rwa [List.length_range] at this

/-! ## Moves -/

/-- Host `a'` looks like `a` as far as attentions go. -/
structure Resembles (a a' : AdspHost) : Prop where
  conn : a'.conn = a.conn
  attentions : a'.attentions = a.attentions
  outcomes : a'.outcomes = a.outcomes
  got : a'.got = a.got
  solo : a'.Solo
  connection : ∀ c', a'.connection = some c' → ∃ c, a.connection = some c ∧
    c'.ourConnId = c.ourConnId ∧ c'.remote = c.remote ∧ c'.attnSendSeq = c.attnSendSeq ∧
    c'.attnRecvSeq = c.attnRecvSeq ∧
    c'.attnInFlight.map (fun p => (p.seq, p.packet)) =
      c.attnInFlight.map fun p => (p.seq, p.packet)

section
variable {addr : Bool → ServiceAddress} {i : Bool} {a a' b : AdspHost}

theorem Resembles.flight (h : Resembles a a') {body : Bytes} :
    AttentionFlight i a' b body ↔ AttentionFlight i a b body := by
  simp only [AttentionFlight, h.attentions, h.outcomes, h.got]

theorem Resembles.flight_peer (h : Resembles a a') {body : Bytes} :
    AttentionFlight i b a' body ↔ AttentionFlight i b a body := by
  simp only [AttentionFlight, h.attentions, h.outcomes, h.conn]

/-- A move of endpoint `i` that keeps the pair, whatever is on its way. -/
abbrev AttentionMoves (addr : Bool → ServiceAddress) (i : Bool) (a b a' : AdspHost) : Prop :=
  Net.Moves adspParty addr (AttentionPair addr) AttentionFlight (fun _ _ => True) i a b a'

theorem Resembles.moves (h : Resembles a a') (hm : AttentionPair addr i a b)
    (hp : AttentionPair addr (!i) b a)
    (hfresh : ∀ p ∈ a'.ep.outbox, p ∈ a.ep.outbox ∨
      (p.1 = addr (!i) ∧ AttentionFlight i a b p.2)) :
    AttentionMoves addr i a b a' := by
  refine ⟨?_, ?_, fun body _ hg => h.flight.2 hg, fun body _ hg => h.flight_peer.2 hg,
    fun p hp => ?_⟩
  · refine ⟨h.solo, fun c' hc' => ?_, ?_, fun c' hc' => ?_, ?_⟩
    · obtain ⟨c, hc, hid, hr, -⟩ := h.connection c' hc'
      rw [hid, hr]; exact hm.ids c hc
    · rw [h.attentions]; exact hm.few
    · obtain ⟨c, hc, -, -, hs, -, hin⟩ := h.connection c' hc'
      have hsend := hm.sender c hc
      refine ⟨by rw [hs, h.outcomes]; exact hsend.seq, fun hn => ?_, fun p hp => ?_⟩
      · rw [h.outcomes, h.attentions]
        rw [hn] at hin
        exact hsend.idle (Option.map_eq_none_iff.1 hin.symm)
      · rw [hp] at hin
        obtain ⟨q, hq, heq⟩ := Option.map_eq_some_iff.1 hin.symm
        simp only [Prod.mk.injEq] at heq
        obtain ⟨hseq, hlen, hg⟩ := hsend.busy q hq
        rw [← heq.1, ← heq.2, hs, h.outcomes, h.attentions]
        refine ⟨hseq, hlen, ?_⟩
        simpa only [MessageDatagram, h.attentions, h.outcomes] using hg
    · rw [h.attentions, h.outcomes]; exact hm.exchange
  · refine ⟨hp.solo, fun c hc => ?_, hp.few, fun c hc => ?_, ?_⟩
    · rw [h.conn]; exact hp.ids c hc
    · have hsend := hp.sender c hc
      refine ⟨hsend.seq, hsend.idle, fun p hin => ?_⟩
      rw [h.conn]; exact hsend.busy p hin
    · obtain ⟨extra, hex, hrecv⟩ := hp.exchange
      refine ⟨extra, by rw [h.got]; exact hex, fun c' hc' => ?_⟩
      obtain ⟨c, hc, -, -, -, hr, -⟩ := h.connection c' hc'
      rw [hr, h.got]; exact hrecv c hc
  · rcases hfresh p hp with h' | ⟨hd, hg⟩
    · exact Or.inl h'
    · exact Or.inr ⟨hd, h.flight.2 hg⟩

theorem outcomes_onConn {f : Connection → Effect} {c : Connection} (hc : a.connection = some c) :
    (a.onConn f).outcomes = a.outcomes ++ outcomesOf a.conn (f c).events := by
  rw [AdspHost.outcomes, AdspHost.emitted_onConn hc, outcomesOf_append]; rfl

theorem got_onConn {f : Connection → Effect} {c : Connection} (hc : a.connection = some c) :
    (a.onConn f).got = a.got ++ attentionsOf a.conn (f c).events := by
  rw [AdspHost.got, AdspHost.emitted_onConn hc, attentionsOf_append]; rfl

theorem Resembles.refl (hs : a.Solo) : Resembles a a :=
  ⟨rfl, rfl, rfl, rfl, hs, fun c hc => ⟨c, hc, rfl, rfl, rfl, rfl, rfl⟩⟩

/-- A host with the same connection, handle and events. -/
theorem Resembles.of_same (hs : a.Solo) (hconn : a'.conn = a.conn)
    (hatt : a'.attentions = a.attentions) (hem : a'.emitted = a.emitted)
    (hcs : a'.ep.connections = a.ep.connections)
    (ho : a'.ep.pendingOpens = a.ep.pendingOpens) : Resembles a a' := by
  have hc : a'.connection = a.connection := by rw [AdspHost.connection, hconn, hcs]; rfl
  refine ⟨hconn, hatt, by rw [AdspHost.outcomes, hem, hconn]; rfl,
    by rw [AdspHost.got, hem, hconn]; rfl, ⟨fun k hk => ?_, by rw [ho]; exact hs.opens⟩,
    fun c hc' => ⟨c, hc ▸ hc', rfl, rfl, rfl, rfl, rfl⟩⟩
  rw [hcs]; exact hs.others k (hconn ▸ hk)

/-- Running an operation that reports no attention and leaves the numbers and
    the framed attention in place. -/
theorem Resembles.onConn (hs : a.Solo) {f : Connection → Effect}
    (hf : ∀ c, a.connection = some c → (f c).conn.ourConnId = c.ourConnId ∧
      (f c).conn.remote = c.remote ∧ (f c).conn.attnSendSeq = c.attnSendSeq ∧
      (f c).conn.attnRecvSeq = c.attnRecvSeq ∧
      (f c).conn.attnInFlight.map (fun p => (p.seq, p.packet)) =
        c.attnInFlight.map (fun p => (p.seq, p.packet)) ∧
      outcomesOf a.conn (f c).events = [] ∧ attentionsOf a.conn (f c).events = []) :
    Resembles a (a.onConn f) := by
  rcases hc : a.connection with _ | c
  · rw [AdspHost.onConn_none hc]; exact .refl hs
  obtain ⟨h1, h2, h3, h4, h5, ho, hg⟩ := hf c hc
  refine ⟨rfl, rfl, by rw [outcomes_onConn hc, ho, List.append_nil],
    by rw [got_onConn hc, hg, List.append_nil], hs.onConn f, fun c' hc' => ?_⟩
  rw [AdspHost.connection_onConn hc] at hc'
  obtain rfl := Option.some.inj hc'
  exact ⟨c, hc, h1, h2, h3, h4, h5⟩

theorem Resembles.closed (hs : a.Solo) : Resembles a a.closed := by
  refine ⟨rfl, rfl, ?_, ?_, hs.closed, fun c hc => ?_⟩
  · rw [AdspHost.outcomes, AdspHost.emitted_closed, outcomesOf_append]
    exact List.append_nil _
  · rw [AdspHost.got, AdspHost.emitted_closed, attentionsOf_append]
    exact List.append_nil _
  · rw [AdspHost.connection_closed] at hc; cases hc

/-- The datagrams of an operation's packets. -/
theorem fresh_onConn {f : Connection → Effect} (hm : AttentionPair addr i a b)
    (hf : ∀ c, a.connection = some c → (f c).conn.remote = c.remote ∧
      ∀ p ∈ (f c).packets, AttentionFlight i a b p) :
    ∀ p ∈ (a.onConn f).ep.outbox, p ∈ a.ep.outbox ∨
      (p.1 = addr (!i) ∧ AttentionFlight i a b p.2) := by
  intro p hp
  rcases hc : a.connection with _ | c
  · rw [AdspHost.onConn_none hc] at hp; exact Or.inl hp
  · rw [AdspHost.outbox_onConn hc] at hp
    rcases List.mem_append.1 hp with hp | hp
    · exact Or.inl hp
    · obtain ⟨q, hq, rfl⟩ := List.mem_map.1 hp
      obtain ⟨hr, hg⟩ := hf c hc
      exact Or.inr ⟨hr.trans (hm.ids c hc).2, hg q hq⟩

theorem StreamDatagram.flight {id : UInt16} {payload : Bytes} (h : StreamDatagram id payload)
    (hid : id = b.conn) : AttentionFlight i a b payload :=
  fun packet hp => ⟨(h packet hp).1.trans hid, Or.inl (h packet hp).2⟩

theorem apart_moves (hm : AttentionPair addr i a b) (hp : AttentionPair addr (!i) b a)
    {f : Connection → Effect} (hf : ∀ c, Apart a.conn c (f c)) :
    AttentionMoves addr i a b (a.onConn f) := by
  have hres : Resembles a (a.onConn f) := .onConn hm.solo fun c _ =>
    ⟨(hf c).ourConnId, (hf c).remote, (hf c).sendSeq, (hf c).recvSeq, by rw [(hf c).inFlight],
      (hf c).outcomes, (hf c).attentions⟩
  exact hres.moves hm hp (fresh_onConn hm fun c hc =>
    ⟨(hf c).remote, fun p hp => ((hf c).packets p hp).flight (hm.ids c hc).1⟩)

theorem closed_moves (hm : AttentionPair addr i a b) (hp : AttentionPair addr (!i) b a) :
    AttentionMoves addr i a b a.closed :=
  (Resembles.closed hm.solo).moves hm hp fun _ h => Or.inl h

theorem close_moves (hm : AttentionPair addr i a b) (hp : AttentionPair addr (!i) b a) :
    AttentionMoves addr i a b (a.call .close) := by
  rcases hc : a.connection with _ | c
  · rw [AdspHost.call_close_none hc]
    exact (Resembles.refl hm.solo).moves hm hp fun _ h => Or.inl h
  have hids := hm.ids c hc
  have hres : Resembles a (a.call .close) := by
    rw [AdspHost.connection] at hc
    simp only [AdspHost.call, AdspEndpoint.close, hc]
    refine ⟨rfl, rfl, rfl, rfl, hm.solo.forget rfl rfl, fun c' hc' => ?_⟩
    simp [AdspHost.connection, AdspEndpoint.push, AdspEndpoint.forget] at hc'
  refine hres.moves hm hp fun p hp => ?_
  rw [AdspHost.connection] at hc
  simp only [AdspHost.call, AdspEndpoint.close, hc] at hp
  rcases List.mem_append.1 hp with hp | hp
  · exact Or.inl hp
  · obtain rfl := List.mem_singleton.1 hp
    exact Or.inr ⟨hids.2, (streamDatagram_control (Or.inr rfl) rfl).flight hids.1⟩

/-! ## Settling the attention in flight -/

theorem hits_length_append (o : List Bool) (v : Bool) :
    (hits (o ++ [v])).length = (hits o).length + if v then 1 else 0 := by
  rw [hits_append]
  cases v <;> simp

theorem Message.settle {calls : List (UInt16 × Bytes)} {o : List Bool} {packet : AdspPacket}
    {data : Bytes} (h : Message calls o packet data) (v : Bool) :
    Message calls (o ++ [v]) packet data := by
  have hle := h.seq_le
  refine ⟨h.kind, ?_, fun heq => ?_⟩
  · rw [hits_length_append]; omega
  · rw [hits_length_append] at heq
    cases v
    · have hh : hits (o ++ [false]) = hits o := by rw [hits_append]; simp
      rw [hh]; exact h.latest heq
    · simp only [if_true] at heq; omega

theorem Acks.settle {calls got : List (UInt16 × Bytes)} {o : List Bool} {packet : AdspPacket}
    (h : Acks calls o got packet) {v : Bool} (hlen : o.length < calls.length)
    (hgot : v = true → got.length ≤ (hits o).length + 1) :
    Acks calls (o ++ [v]) got packet := by
  refine ⟨h.kind, h.le, fun heq => ?_⟩
  have hle := h.le
  rw [hits_length_append] at heq
  cases v
  · obtain ⟨l, hl, hex⟩ := h.taken heq
    exact ⟨l, hl, hex.fail hlen⟩
  · have := hgot rfl
    simp only [if_true] at heq; omega

theorem settle_moves (hm : AttentionPair addr i a b) (hp : AttentionPair addr (!i) b a)
    {c : Connection} {p : AttnInFlight} (hc : a.connection = some c)
    (hin : c.attnInFlight = some p) {v : Bool} {f : Connection → Effect}
    (hf : f c = ⟨{ c with attnInFlight := none,
                          attnSendSeq := if v then c.attnSendSeq + 1 else c.attnSendSeq }, [],
      [if v then .attentionAcked a.conn else .attentionFailed a.conn]⟩)
    (htaken : v = true → ∃ l, l + 1 = a.attentions.length ∧
      Exchange a.attentions a.outcomes b.got (some l)) :
    AttentionMoves addr i a b (a.onConn f) := by
  have hsend := hm.sender c hc
  obtain ⟨-, hlen, -⟩ := hsend.busy p hin
  have hlt : a.outcomes.length < a.attentions.length := by omega
  have hout : (a.onConn f).outcomes = a.outcomes ++ [v] := by
    rw [outcomes_onConn hc, hf]
    cases v <;> simp [outcomesOf]
  have hgot : (a.onConn f).got = a.got := by
    rw [got_onConn hc, hf]
    cases v <;> simp [attentionsOf]
  have hconn : (a.onConn f).connection = some { c with
      attnInFlight := none,
      attnSendSeq := if v then c.attnSendSeq + 1 else c.attnSendSeq } := by
    rw [AdspHost.connection_onConn hc, hf]
  have hone : v = true → b.got.length ≤ (hits a.outcomes).length + 1 := by
    intro hv
    obtain ⟨l, -, hex⟩ := htaken hv
    rw [hex.length_got]; simp
  have hfew := hm.few
  have hle := hm.hits_le
  refine ⟨⟨hm.solo.onConn f, fun c' hc' => ?_, hm.few, fun c' hc' => ?_, ?_⟩,
    ⟨hp.solo, hp.ids, hp.few, fun c' hc' => ?_, ?_⟩, fun body _ hg packet hpk => ?_,
    fun body _ hg packet hpk => ?_, fun q hq => ?_⟩
  · rw [hconn] at hc'
    obtain rfl := Option.some.inj hc'
    exact hm.ids c hc
  · rw [hconn] at hc'
    obtain rfl := Option.some.inj hc'
    refine ⟨?_, fun _ => ?_, nofun⟩
    · rw [hout, hits_length_append, ← hsend.seq]
      cases v
      · rfl
      · have hs := hsend.seq
        simp only [if_true]
        rw [UInt32.toNat_add, UInt32.toNat_one]; omega
    · rw [hout, List.length_append, List.length_singleton]; exact hlen
  · obtain ⟨extra, hex, hrecv⟩ := hm.exchange
    rw [hout]
    cases v
    · exact ⟨extra, hex.fail hlt, hrecv⟩
    · obtain ⟨l, hl, hex'⟩ := htaken rfl
      obtain rfl : l = a.outcomes.length := by omega
      exact ⟨none, hex'.succeed hlt, fun c' hc' => ⟨(hrecv c' hc').1, nofun⟩⟩
  · have hs := hp.sender c' hc'
    exact ⟨hs.seq, hs.idle, hs.busy⟩
  · obtain ⟨extra, hex, hrecv⟩ := hp.exchange
    refine ⟨extra, by rw [hgot]; exact hex, fun c' hc' => ?_⟩
    rw [hconn] at hc'
    obtain rfl := Option.some.inj hc'
    rw [hgot]; exact hrecv c hc
  · obtain ⟨hid, h | h | h⟩ := hg packet hpk
    · exact ⟨hid, Or.inl h⟩
    · rw [hout]; exact ⟨hid, Or.inr (Or.inl (h.settle v))⟩
    · rw [hgot]; exact ⟨hid, Or.inr (Or.inr h)⟩
  · obtain ⟨hid, h | h | h⟩ := hg packet hpk
    · exact ⟨hid, Or.inl h⟩
    · exact ⟨hid, Or.inr (Or.inl h)⟩
    · rw [hout]; exact ⟨hid, Or.inr (Or.inr (h.settle hlt hone))⟩
  · change q ∈ (a.onConn f).ep.outbox at hq
    rw [AdspHost.outbox_onConn hc, hf] at hq
    rw [List.map_nil, List.append_nil] at hq
    exact Or.inl hq

/-- An acknowledgement that names the attention in flight settles it. -/
theorem handleAttentionAck_moves (hm : AttentionPair addr i a b)
    (hp : AttentionPair addr (!i) b a) {packet : AdspPacket}
    (hack : Acks a.attentions a.outcomes b.got packet) :
    AttentionMoves addr i a b (a.onConn (Connection.handleAttentionAck a.conn packet)) := by
  by_cases hnow : ∃ c p, a.connection = some c ∧ c.attnInFlight = some p ∧
      packet.nextRecvSeq = p.seq + 1
  · obtain ⟨c, p, hc, hin, hnext⟩ := hnow
    have hsend := hm.sender c hc
    obtain ⟨hseq, hlen, -⟩ := hsend.busy p hin
    refine settle_moves hm hp hc hin (v := true) ?_ fun _ => hack.taken ?_
    · simp only [Connection.handleAttentionAck, hin, hnext, ne_eq, not_true, if_false, if_true]
    · have hfew := hm.few
      have hle := hm.hits_le
      have hs := hsend.seq
      rw [hnext, hseq, UInt32.toNat_add, UInt32.toNat_one]; omega
  · have hquiet : ∀ c, a.connection = some c →
        c.handleAttentionAck a.conn packet = .quiet c := by
      intro c hc
      simp only [Connection.handleAttentionAck]
      rcases hin : c.attnInFlight with _ | p
      · rfl
      · exact if_pos fun heq => hnow ⟨c, p, hc, hin, heq⟩
    refine (Resembles.onConn hm.solo fun c hc => ?_).moves hm hp
      (fresh_onConn hm fun c hc => ?_)
    · rw [hquiet c hc]; exact ⟨rfl, rfl, rfl, rfl, rfl, rfl, rfl⟩
    · rw [hquiet c hc]; exact ⟨rfl, nofun⟩

theorem pollAttention_moves (hm : AttentionPair addr i a b) (hp : AttentionPair addr (!i) b a)
    (now : Micros) :
    AttentionMoves addr i a b (a.onConn (Connection.pollAttention a.conn now)) := by
  by_cases hgive : ∃ c p, a.connection = some c ∧ c.attnInFlight = some p ∧
      ¬ now - p.lastTx < ATTN_RETRY_INTERVAL ∧ p.retries + 1 > MAX_ATTN_RETRIES
  · obtain ⟨c, p, hc, hin, hdue, hmax⟩ := hgive
    refine settle_moves hm hp hc hin (v := false) ?_ nofun
    simp only [Connection.pollAttention, hin, hdue, hmax, if_false, if_true, Bool.false_eq_true]
  · refine (Resembles.onConn hm.solo fun c hc => ?_).moves hm hp
      (fresh_onConn hm fun c hc => ?_)
    · rcases hin : c.attnInFlight with _ | p
      · simp only [Connection.pollAttention, hin]
        exact ⟨rfl, rfl, rfl, rfl, congrArg _ hin, rfl, rfl⟩
      · simp only [Connection.pollAttention, hin]
        split_ifs with hdue hmax
        · exact ⟨rfl, rfl, rfl, rfl, congrArg _ hin, rfl, rfl⟩
        · exact absurd ⟨c, p, hc, hin, hdue, hmax⟩ hgive
        · exact ⟨rfl, rfl, rfl, rfl, rfl, rfl, rfl⟩
    · simp only [Connection.pollAttention]
      rcases hin : c.attnInFlight with _ | p
      · exact ⟨rfl, nofun⟩
      · dsimp only
        split_ifs with hdue hmax
        · exact ⟨rfl, nofun⟩
        · exact ⟨rfl, nofun⟩
        · refine ⟨rfl, fun q hq => ?_⟩
          obtain rfl := List.mem_singleton.1 hq
          exact ((hm.sender c hc).busy p hin).2.2.flight

/-! ## A message arrives -/

theorem Acks.grow {calls got : List (UInt16 × Bytes)} {o : List Bool} {packet : AdspPacket}
    (h : Acks calls o got packet) (x : UInt16 × Bytes) (hgot : got.length = (hits o).length) :
    Acks calls o (got ++ [x]) packet := by
  have hle := h.le
  refine ⟨h.kind, ?_, fun heq => ?_⟩
  · rw [List.length_append]; omega
  · omega

/-- The acknowledgement of `b`'s attentions that `a` sends. -/
theorem ackDatagram {id : UInt16} {send recv : UInt32} {code : UInt16} {body : Bytes}
    (hbody : body = ({ descriptor := .controlPacket
                       connectionId := id
                       firstByteSeq := send
                       nextRecvSeq := recv
                       recvWindow := 0
                       flags := AdspPacket.FLAG_ATTENTION } : AdspPacket).toBytes ++ be16 code)
    (hid : id = b.conn) (hle : recv.toNat ≤ a.got.length)
    (htaken : recv.toNat = (hits b.outcomes).length + 1 →
      ∃ l, l + 1 = b.attentions.length ∧ Exchange b.attentions b.outcomes a.got (some l)) :
    AttentionFlight i a b body := by
  intro packet hp
  rw [hbody, parse_attentionAck rfl rfl] at hp
  obtain rfl := Except.ok.inj hp
  refine ⟨hid, Or.inr (Or.inr ⟨⟨?_, Or.inr rfl⟩, hle, htaken⟩)⟩
  exact show (0x90 : UInt8) &&& AdspPacket.FLAG_ATTENTION ≠ 0 by decide

/-- A message with the number expected is delivered, and acknowledged with the next number. -/
theorem takeAttention_moves (hm : AttentionPair addr i a b) (hp : AttentionPair addr (!i) b a)
    {packet : AdspPacket} {data : Bytes} (hmsg : Message b.attentions b.outcomes packet data)
    {c : Connection} (hc : a.connection = some c) (hshort : ¬ data.length < 2)
    (hfresh : packet.firstByteSeq = c.attnRecvSeq) :
    AttentionMoves addr i a b (a.onConn (Connection.handleAttention a.conn packet data)) := by
  obtain ⟨extra, hex, hrecv⟩ := hp.exchange
  have hseq := (hrecv c hc).1
  have hlen := hex.length_got
  have hle := hmsg.seq_le
  have hfew := hp.few
  have hhits := hp.hits_le
  rw [hfresh] at hle
  -- The number is the sender's present one, so everything taken was settled.
  obtain rfl : extra = none := by
    rcases extra with _ | j
    · rfl
    · simp only [Option.toList_some, List.length_singleton] at hlen; omega
  have hgot : a.got.length = (hits b.outcomes).length := by simpa using hlen
  obtain ⟨-, l, hl, hcall, hlast⟩ := hmsg.latest (by rw [hfresh]; omega)
  have hf : c.handleAttention a.conn packet data =
      ⟨{ c with attnRecvSeq := c.attnRecvSeq + 1 },
        [({ descriptor := .controlPacket
            connectionId := c.ourConnId
            firstByteSeq := c.attnSendSeq
            nextRecvSeq := c.attnRecvSeq + 1
            recvWindow := 0
            flags := AdspPacket.FLAG_ATTENTION } : AdspPacket).toBytes ++ be16 (readBe16 data)],
        [.attention a.conn (readBe16 data) (data.drop 2)]⟩ := by
    simp only [Connection.handleAttention, hshort, hfresh, beq_self_eq_true, if_true, if_false]
  generalize hg : Connection.handleAttention a.conn packet data = f at *
  have hconn : (a.onConn f).connection = some { c with attnRecvSeq := c.attnRecvSeq + 1 } := by
    rw [AdspHost.connection_onConn hc, hf]
  have hgot' : (a.onConn f).got = a.got ++ [(readBe16 data, data.drop 2)] := by
    rw [got_onConn hc, hf]; simp [attentionsOf]
  have hout : (a.onConn f).outcomes = a.outcomes := by
    rw [outcomes_onConn hc, hf]; simp [outcomesOf]
  have hex' : Exchange b.attentions b.outcomes (a.onConn f).got (some l) := by
    rw [hgot']; exact hex.take hcall hlast
  have hnext : (c.attnRecvSeq + 1).toNat = (a.onConn f).got.length := by
    rw [hgot', List.length_append, List.length_singleton, UInt32.toNat_add, UInt32.toNat_one]
    omega
  refine ⟨⟨hm.solo.onConn f, fun c' hc' => ?_, hm.few, fun c' hc' => ?_, ?_⟩,
    ⟨hp.solo, hp.ids, hp.few, fun c' hc' => ?_, ⟨some l, hex', fun c' hc' => ?_⟩⟩,
    fun body _ hg packet hpk => ?_, fun body _ hg packet hpk => ?_, fun q hq => ?_⟩
  · rw [hconn] at hc'
    obtain rfl := Option.some.inj hc'
    exact hm.ids c hc
  · rw [hconn] at hc'
    obtain rfl := Option.some.inj hc'
    have hs := hm.sender c hc
    refine ⟨by rw [hout]; exact hs.seq, by rw [hout]; exact hs.idle, fun p hin => ?_⟩
    rw [hout, MessageDatagram, hout]; exact hs.busy p hin
  · rw [hout]; exact hm.exchange
  · have hs := hp.sender c' hc'
    exact ⟨hs.seq, hs.idle, hs.busy⟩
  · rw [hconn] at hc'
    obtain rfl := Option.some.inj hc'
    refine ⟨hnext, fun j hj => ?_⟩
    obtain rfl := Option.some.inj hj
    exact hl
  · obtain ⟨hid, h | h | h⟩ := hg packet hpk
    · exact ⟨hid, Or.inl h⟩
    · rw [hout]; exact ⟨hid, Or.inr (Or.inl h)⟩
    · rw [hgot']; exact ⟨hid, Or.inr (Or.inr (h.grow _ hgot))⟩
  · obtain ⟨hid, h | h | h⟩ := hg packet hpk
    · exact ⟨hid, Or.inl h⟩
    · exact ⟨hid, Or.inr (Or.inl h)⟩
    · rw [hout]; exact ⟨hid, Or.inr (Or.inr h)⟩
  · change q ∈ (a.onConn f).ep.outbox at hq
    rw [AdspHost.outbox_onConn hc, hf] at hq
    rcases List.mem_append.1 hq with hq | hq
    · exact Or.inl hq
    · obtain rfl := List.mem_singleton.1 hq
      have hids := hm.ids c hc
      exact Or.inr ⟨hids.2, ackDatagram rfl hids.1 (Nat.le_of_eq hnext) fun _ => ⟨l, hl, hex'⟩⟩

theorem handleAttention_moves (hm : AttentionPair addr i a b)
    (hp : AttentionPair addr (!i) b a) {packet : AdspPacket} {data : Bytes}
    (hmsg : Message b.attentions b.outcomes packet data) :
    AttentionMoves addr i a b (a.onConn (Connection.handleAttention a.conn packet data)) := by
  by_cases htake : ∃ c, a.connection = some c ∧ ¬ data.length < 2 ∧
      packet.firstByteSeq = c.attnRecvSeq
  · obtain ⟨c, hc, hshort, hfresh⟩ := htake
    exact takeAttention_moves hm hp hmsg hc hshort hfresh
  have hcases : ∀ c, a.connection = some c →
      c.handleAttention a.conn packet data = .quiet c ∨
      c.handleAttention a.conn packet data =
        ⟨c, [({ descriptor := .controlPacket
                connectionId := c.ourConnId
                firstByteSeq := c.attnSendSeq
                nextRecvSeq := c.attnRecvSeq
                recvWindow := 0
                flags := AdspPacket.FLAG_ATTENTION } : AdspPacket).toBytes ++
              be16 (readBe16 data)], []⟩ := by
    intro c hc
    simp only [Connection.handleAttention]
    by_cases hshort : data.length < 2
    · exact Or.inl (if_pos hshort)
    · have hold : (packet.firstByteSeq == c.attnRecvSeq) = false :=
        beq_eq_false_iff_ne.2 fun h => htake ⟨c, hc, hshort, h⟩
      rw [if_neg hshort, hold]
      exact Or.inr rfl
  refine (Resembles.onConn hm.solo fun c hc => ?_).moves hm hp (fresh_onConn hm fun c hc => ?_)
  · rcases hcases c hc with h | h <;> rw [h] <;> exact ⟨rfl, rfl, rfl, rfl, rfl, rfl, rfl⟩
  · rcases hcases c hc with h | h <;> rw [h]
    · exact ⟨rfl, nofun⟩
    · refine ⟨rfl, fun q hq => ?_⟩
      obtain rfl := List.mem_singleton.1 hq
      obtain ⟨extra, hex, hrecv⟩ := hp.exchange
      obtain ⟨hseq, hlast⟩ := hrecv c hc
      refine ackDatagram rfl (hm.ids c hc).1 (Nat.le_of_eq hseq) fun heq => ?_
      -- Acknowledging the present number again: the latest call was taken.
      have hlen := hex.length_got
      rcases extra with _ | j
      · simp only [Option.toList_none, List.length_nil] at hlen; omega
      · exact ⟨j, hlast j rfl, hex⟩

/-! ## A new attention -/

/-- A datagram with an attention message that bears the number `seq`. -/
def CarriesAttention (seq : UInt32) (body : Bytes) : Prop :=
  match AdspPacket.parse body with
  | .ok packet => IsMessage packet ∧ packet.firstByteSeq = seq
  | .error _ => False

/-- A datagram that acknowledges attentions below `seq`. -/
def AcksAttention (seq : UInt32) (body : Bytes) : Prop :=
  match AdspPacket.parse body with
  | .ok packet => IsAck packet ∧ packet.nextRecvSeq = seq
  | .error _ => False

instance (seq : UInt32) (body : Bytes) : Decidable (CarriesAttention seq body) := by
  unfold CarriesAttention; split <;> infer_instance

instance (seq : UInt32) (body : Bytes) : Decidable (AcksAttention seq body) := by
  unfold AcksAttention; split <;> infer_instance

/-- The present attention number of host `i` is free: its peer has not received it, and neither a
    copy nor an acknowledgement of it is on its way. -/
def AttentionFree (addr : Bool → ServiceAddress) (s : AdspNet) (i : Bool) : Prop :=
  match (s.host i).connection with
  | none => True
  | some c => c.attnInFlight = none →
    (∀ p ∈ (s.host !i).connection, p.attnRecvSeq = c.attnSendSeq) ∧
    (∀ body ∈ Net.underWay adspParty addr s i, ¬ CarriesAttention c.attnSendSeq body) ∧
    ∀ body ∈ Net.underWay adspParty addr s (!i), ¬ AcksAttention (c.attnSendSeq + 1) body

instance decidableAttentionFree (addr : Bool → ServiceAddress) (s : AdspNet) (j : Bool) :
    Decidable (AttentionFree addr s j) := by
  unfold AttentionFree; split <;> infer_instance

/-- Attentions are sent under a free number, and there are fewer than `2 ^ 32 - 1` of them. -/
def AttentionOk (addr : Bool → ServiceAddress) (s : AdspNet) : Net.Act AdspCall Bool → Prop
  | .call i (.sendAttention ..) =>
    AttentionFree addr s i ∧ (s.host i).attentions.length + 1 < 2 ^ 32 - 1
  | _ => True

instance (addr : Bool → ServiceAddress) (s : AdspNet) : ∀ a, Decidable (AttentionOk addr s a)
  | .call _ (.sendAttention ..) => inferInstanceAs (Decidable (_ ∧ _))
  | .call _ (.send ..) | .call _ .close | .call _ (.setRecvWindow _) | .call _ (.poll _)
  | .call _ .pollEvent | .transmit _ | .deliver .. | .drop _ => inferInstanceAs (Decidable True)

theorem sendAttention_moves {s : AdspNet} (hm : AttentionPair addr i (s.host i) (s.host !i))
    (hp : AttentionPair addr (!i) (s.host !i) (s.host i)) {code : UInt16} {data : Bytes}
    {now : Micros} (hok : AttentionOk addr s (.call i (.sendAttention code data now)))
    {c : Connection} (hc : (s.host i).connection = some c) (hin : c.attnInFlight = none) :
    Net.Moves adspParty addr (AttentionPair addr) AttentionFlight
      (fun j body => body ∈ Net.underWay adspParty addr s j) i (s.host i) (s.host !i)
      ((s.host i).call (.sendAttention code data now)) := by
  obtain ⟨hfree, hfew⟩ := hok
  rw [AttentionFree, hc] at hfree
  obtain ⟨hexpects, hcopies, hacks⟩ := hfree hin
  rw [AdspHost.call_sendAttention hc hin]
  generalize s.host i = a at *
  generalize s.host (!i) = b at *
  generalize hf : Connection.startAttention code data now = f
  have hfc : f c = ⟨{ c with attnInFlight := some ⟨c.attnSendSeq,
      Connection.buildAttention c.ourConnId c.attnSendSeq c.attnRecvSeq code data, now, 0⟩ },
      [Connection.buildAttention c.ourConnId c.attnSendSeq c.attnRecvSeq code data], []⟩ := by
    rw [← hf]; rfl
  have hsend := hm.sender c hc
  have hidle := hsend.idle hin
  have hids := hm.ids c hc
  have hle := hm.hits_le
  generalize ha' :
    ({ a.onConn f with attentions := a.attentions ++ [(code, data)] } : AdspHost) = a'
  have hcalls : a'.attentions = a.attentions ++ [(code, data)] := by rw [← ha']
  have hid : a'.conn = a.conn := by rw [← ha']; rfl
  have hout : a'.outcomes = a.outcomes := by
    have := outcomes_onConn (f := f) hc
    rw [hfc] at this
    rw [← ha']; exact this.trans (List.append_nil _)
  have hgot : a'.got = a.got := by
    have := got_onConn (f := f) hc
    rw [hfc] at this
    rw [← ha']; exact this.trans (List.append_nil _)
  have hconn : a'.connection = some (f c).conn := by
    rw [← ha']; exact AdspHost.connection_onConn hc
  have hmsg : MessageDatagram a' b.conn
      (Connection.buildAttention c.ourConnId c.attnSendSeq c.attnRecvSeq code data) := by
    intro packet hpk
    rw [parse_buildAttention] at hpk
    obtain rfl := Except.ok.inj hpk
    refine ⟨hids.1, ⟨show (0x50 : UInt8) &&& AdspPacket.FLAG_ATTENTION ≠ 0 by decide, ?_⟩, ?_,
      fun _ => ?_⟩
    · rintro (h | h)
      · exact h (show (0x50 : UInt8) &&& AdspPacket.FLAG_CONTROL = 0 by decide)
      · cases h
    · rw [hout]; exact Nat.le_of_eq hsend.seq
    · rw [drop_buildAttention, hout, hcalls]
      have hdrop : (be16 code ++ data).drop 2 = data := rfl
      rw [readBe16_be16, hdrop]
      refine ⟨by simp, a.attentions.length, by simp, by simp, fun k hk => ?_⟩
      rw [← hidle]; exact hits_lt hk
  refine ⟨⟨?_, fun c' hc' => ?_, ?_, fun c' hc' => ?_, ?_⟩,
    ⟨hp.solo, ?_, hp.few, fun c' hc' => ?_, ?_⟩, fun body hb hg packet hpk => ?_,
    fun body hb hg packet hpk => ?_, fun q hq => ?_⟩
  · rw [← ha']
    exact ⟨(hm.solo.onConn f).others, (hm.solo.onConn f).opens⟩
  · rw [hconn, hfc] at hc'
    obtain rfl := Option.some.inj hc'
    exact hids
  · rw [hcalls, List.length_append]; exact hfew
  · rw [hconn, hfc] at hc'
    obtain rfl := Option.some.inj hc'
    refine ⟨by rw [hout]; exact hsend.seq, nofun, fun p hp => ?_⟩
    obtain rfl := Option.some.inj hp
    exact ⟨rfl, by rw [hout, hcalls, hidle, List.length_append]; rfl, hmsg⟩
  · obtain ⟨extra, hex, hrecv⟩ := hm.exchange
    rw [hcalls, hout]
    refine ⟨extra, hex.call _, fun p hpc => ⟨(hrecv p hpc).1, fun j hj => ?_⟩⟩
    -- The peer expects the present number: it has taken no call but the settled ones.
    have hsame := hexpects p hpc
    have hseq := (hrecv p hpc).1
    have hlen := hex.length_got
    rw [hsame, hsend.seq] at hseq
    rw [Option.mem_def.1 hj] at hlen
    simp only [Option.toList_some, List.length_singleton] at hlen; omega
  · rw [hid]; exact hp.ids
  · have hs := hp.sender c' hc'
    exact ⟨hs.seq, hs.idle, by rw [hid]; exact hs.busy⟩
  · obtain ⟨extra, hex, hrecv⟩ := hp.exchange
    refine ⟨extra, by rw [hgot]; exact hex, fun c' hc' => ?_⟩
    rw [hconn, hfc] at hc'
    obtain rfl := Option.some.inj hc'
    rw [hgot]; exact hrecv c hc
  · obtain ⟨hpid, h | h | h⟩ := hg packet hpk
    · exact ⟨hpid, Or.inl h⟩
    · refine ⟨hpid, Or.inr (Or.inl ⟨h.kind, by rw [hout]; exact h.seq_le, fun heq => ?_⟩)⟩
      rw [hout, ← hsend.seq] at heq
      refine absurd ?_ (hcopies body hb)
      rw [CarriesAttention, hpk]
      exact ⟨h.kind, UInt32.toNat_inj.1 heq⟩
    · rw [hgot]; exact ⟨hpid, Or.inr (Or.inr h)⟩
  · obtain ⟨hpid, h | h | h⟩ := hg packet hpk
    · exact ⟨hid ▸ hpid, Or.inl h⟩
    · exact ⟨hid ▸ hpid, Or.inr (Or.inl h)⟩
    · refine ⟨hid ▸ hpid, Or.inr (Or.inr ⟨h.kind, h.le, fun heq => ?_⟩)⟩
      rw [hout, ← hsend.seq] at heq
      refine absurd ?_ (hacks body hb)
      rw [AcksAttention, hpk]
      refine ⟨h.kind, UInt32.toNat_inj.1 ?_⟩
      have hs := hsend.seq
      rw [heq, UInt32.toNat_add, UInt32.toNat_one]; omega
  · change q ∈ a'.ep.outbox at hq
    have hob := AdspHost.outbox_onConn (f := f) hc
    rw [← ha'] at hq
    change q ∈ (a.onConn f).ep.outbox at hq
    rw [hob, hfc] at hq
    rcases List.mem_append.1 hq with hq | hq
    · exact Or.inl hq
    · obtain rfl := List.mem_singleton.1 hq
      exact Or.inr ⟨hids.2, hmsg.flight⟩

/-! ## Runs -/

/-- A call that only acts through the data stream, or is none. -/
theorem call_moves {s : AdspNet} (hm : AttentionPair addr i (s.host i) (s.host !i))
    (hp : AttentionPair addr (!i) (s.host !i) (s.host i)) {c : AdspCall}
    (hok : AttentionOk addr s (.call i c)) :
    Net.Moves adspParty addr (AttentionPair addr) AttentionFlight
      (fun j body => body ∈ Net.underWay adspParty addr s j) i (s.host i) (s.host !i)
      ((s.host i).call c) := by
  have hsame : Resembles (s.host i) (s.host i) := .refl hm.solo
  cases c with
  | send data eom =>
    rcases hc : (s.host i).connection with _ | c
    · rw [AdspHost.call_send_none hc]
      exact (hsame.moves hm hp fun _ h => Or.inl h).mono fun _ _ _ => trivial
    · rw [AdspHost.call_send_some hc]
      have hpump := apart_moves (f := fun c => (c.queueWrite data eom).pump
        (s.host i).ep.recvWindow none) hm hp fun c =>
          (apart_pump _ none _).congr rfl rfl rfl rfl rfl
      refine (hpump.trans fun hm' hp' => ?_).mono fun _ _ _ => trivial
      refine Resembles.moves ?_ hm' hp' fun _ h => Or.inl h
      exact .of_same hm'.solo rfl rfl rfl rfl rfl
  | sendAttention code data now =>
    by_cases hfree : ∃ c, (s.host i).connection = some c ∧ c.attnInFlight = none
    · obtain ⟨c, hc, hin⟩ := hfree
      exact sendAttention_moves hm hp hok hc hin
    · rw [AdspHost.call_sendAttention_refused fun c hc hin => hfree ⟨c, hc, hin⟩]
      exact (hsame.moves hm hp fun _ h => Or.inl h).mono fun _ _ _ => trivial
  | close => exact (close_moves hm hp).mono fun _ _ _ => trivial
  | setRecvWindow w =>
    rw [AdspHost.call_setRecvWindow hm.solo]
    have hw : AttentionMoves addr i (s.host i) (s.host !i) ((s.host i).withWindow w) := by
      refine Resembles.moves ?_ hm hp fun _ h => Or.inl h
      exact .of_same hm.solo rfl rfl rfl rfl rfl
    split_ifs
    · exact (hw.trans fun hm' hp' => apart_moves hm' hp' (apart_sendAck w)).mono
        fun _ _ _ => trivial
    · exact hw.mono fun _ _ _ => trivial
  | poll now =>
    rw [AdspHost.call_poll hm.solo]
    refine ((pollAttention_moves hm hp now).trans fun hm' hp' => ?_).mono fun _ _ _ => trivial
    generalize (s.host i).onConn (Connection.pollAttention (s.host i).conn now) = a at *
    rcases a.pollData_cases now with h | h | ⟨c, hc, -, -, h⟩ <;> rw [h]
    · exact (Resembles.refl hm'.solo).moves hm' hp' fun _ h => Or.inl h
    · exact closed_moves hm' hp'
    · exact apart_moves hm' hp' fun c =>
        (apart_resendUnacked _ now _).congr rfl rfl rfl rfl rfl
  | pollEvent =>
    have hres : Resembles (s.host i) ((s.host i).call .pollEvent) := by
      refine .of_same hm.solo rfl rfl ?_ rfl rfl
      simp only [AdspHost.emitted, AdspHost.call, AdspEndpoint.pollEvent, List.append_assoc]
      rcases (s.host i).ep.events with _ | ⟨e, es⟩ <;> rfl
    exact (hres.moves hm hp fun _ h => Or.inl h).mono fun _ _ _ => trivial

theorem recv_moves (hm : AttentionPair addr i a b) (hp : AttentionPair addr (!i) b a)
    {body : Bytes} (hg : AttentionFlight (!i) b a body) (src : ServiceAddress) (now : Micros) :
    AttentionMoves addr i a b (a.recv src body now) := by
  have hrecv := AdspHost.recv_plain hg.plain src now
  generalize a.recv src body now = t at hrecv ⊢
  cases hrecv with
  | ignored => exact (Resembles.refl hm.solo).moves hm hp fun _ h => Or.inl h
  | attentionAck packet hpk hattn hctl =>
    obtain ⟨-, h | h | h⟩ := hg packet hpk
    · exact absurd h.1 hattn
    · exact absurd hctl h.kind.2
    · exact handleAttentionAck_moves hm hp h
  | attention packet hpk hattn hctl =>
    obtain ⟨-, h | h | h⟩ := hg packet hpk
    · exact absurd h.1 hattn
    · exact handleAttention_moves hm hp h
    · exact absurd h.kind.2 hctl
  | data packet hpk hattn hdesc => exact apart_moves hm hp (apart_handleData _ packet _ now)
  | closed => exact closed_moves hm hp

end

theorem attention_rule {addr : Bool → ServiceAddress} (hne : addr true ≠ addr false) :
    Net.PairRule adspParty addr (AttentionOk addr) (AttentionPair addr) AttentionFlight where
  addr_ne := hne
  call hm hp hok := call_moves hm hp hok
  recv hm hp hg := recv_moves hm hp hg _ _
  pop hm hp := by
    refine Resembles.moves ?_ hm hp fun _ h => Or.inl (List.mem_of_mem_tail h)
    exact .of_same hm.solo rfl rfl rfl rfl rfl

theorem attention_start {addr : Bool → ServiceAddress} {s : AdspNet} (h : Joined addr s) :
    Net.PairInv adspParty addr (AttentionPair addr) AttentionFlight s := by
  have hout : ∀ i, (s.host i).outcomes = [] := fun i => by rw [AdspHost.outcomes, h.emitted]; rfl
  have hgot : ∀ i, (s.host i).got = [] := fun i => by rw [AdspHost.got, h.emitted]; rfl
  have hconn : ∀ i c, (s.host i).connection = some c → ∃ window now,
      c = Connection.new (s.host (!i)).conn (addr !i) window now := by
    intro i c hc
    obtain ⟨window, now, hfresh⟩ := h.fresh i
    rw [hfresh] at hc
    exact ⟨window, now, (Option.some.inj hc).symm⟩
  refine ⟨fun i => ⟨⟨h.others i, h.opens i⟩, fun c hc => ?_, ?_, fun c hc => ?_, none, ?_,
    fun c hc => ?_⟩, ?_⟩
  · obtain ⟨window, now, rfl⟩ := hconn i c hc
    exact ⟨rfl, rfl⟩
  · rw [h.attentions]; decide
  · obtain ⟨window, now, rfl⟩ := hconn i c hc
    exact ⟨by rw [hout]; rfl, fun _ => by rw [hout, h.attentions]; rfl, nofun⟩
  · rw [h.attentions, hout, hgot]; exact .nil
  · obtain ⟨window, now, rfl⟩ := hconn (!i) c hc
    exact ⟨by rw [hgot]; rfl, nofun⟩
  · rintro f (hf | ⟨i, -, hf⟩)
    · rw [h.wire] at hf; cases hf
    · change _ ∈ (s.host i).ep.outbox at hf
      rw [h.outbox i] at hf; cases hf

/-- **Attentions are acknowledged once delivered, once, and in order**, in every run of two joined
    endpoints that sends them only under free numbers: what one side delivers are calls of the other
    side in order, each at most once, those reported acknowledged among them. -/
theorem attentions_in_order {addr : Bool → ServiceAddress} {s : AdspNet} (h : Joined addr s)
    {as : List (Net.Act AdspCall Bool)}
    (hok : Along (Net.step adspParty addr) (AttentionOk addr) s as) (i : Bool) :
    InOrder ((adspRun addr s as).host i).attentions ((adspRun addr s as).host i).outcomes
      ((adspRun addr s as).host !i).got :=
  have ⟨_, hex, _⟩ :=
    (((attention_rule h.addr_ne).inv_run (attention_start h) hok).hosts i).exchange
  hex.inOrder

/-- An attention is lost, sent again when its timer fires, arrives and is
    acknowledged; another follows. -/
def retriedRun : List (Net.Act AdspCall Bool) :=
  [.call true (.sendAttention 1 [65] 0), .transmit true, .drop 0, .call true (.poll 1000000),
    .transmit true, .deliver false 0 1000001, .transmit false, .deliver true 1 1000002,
    .drop 0, .drop 0, .call true (.sendAttention 2 [66] 2000000), .transmit true,
    .deliver false 0 2000001]

theorem attentions_in_order_retriedRun :
    Joined pairAddr pairStart ∧
    Along (Net.step adspParty pairAddr) (AttentionOk pairAddr) pairStart retriedRun ∧
    InOrder ((adspRun pairAddr pairStart retriedRun).host true).attentions
      ((adspRun pairAddr pairStart retriedRun).host true).outcomes
      ((adspRun pairAddr pairStart retriedRun).host false).got ∧
    ((adspRun pairAddr pairStart retriedRun).host true).outcomes = [true] ∧
    ((adspRun pairAddr pairStart retriedRun).host false).got = [(1, [65]), (2, [66])] :=
  have hj : Joined pairAddr pairStart := joined_adspStart (by decide) _ _
  have hok : Along (Net.step adspParty pairAddr) (AttentionOk pairAddr) pairStart retriedRun := by
    decide
  ⟨hj, hok, attentions_in_order hj hok true, by decide, by decide⟩

/-- The acknowledgement of an attention is slow, and the sender gives up and sends another before it
    arrives. -/
def givenUpRun : List (Net.Act AdspCall Bool) :=
  [.call true (.sendAttention 1 [65] 0), .transmit true, .deliver false 0 1,
    .call true (.poll 1000000), .call true (.poll 2000000), .call true (.poll 3000000),
    .call true (.poll 4000000), .call true (.poll 5000000), .call true (.poll 6000000),
    .call true (.sendAttention 2 [66] 6000001), .transmit false, .deliver true 1 6000002]

/-- The second attention is reported acknowledged, and only the first was
    delivered. -/
theorem givenUpRun_not_in_order :
    Joined pairAddr pairStart ∧
    ((adspRun pairAddr pairStart givenUpRun).host true).attentions = [(1, [65]), (2, [66])] ∧
    ((adspRun pairAddr pairStart givenUpRun).host true).outcomes = [false, true] ∧
    ((adspRun pairAddr pairStart givenUpRun).host false).got = [(1, [65])] ∧
    ¬ InOrder ((adspRun pairAddr pairStart givenUpRun).host true).attentions
      ((adspRun pairAddr pairStart givenUpRun).host true).outcomes
      ((adspRun pairAddr pairStart givenUpRun).host false).got := by
  have hcalls : ((adspRun pairAddr pairStart givenUpRun).host true).attentions =
      [(1, [65]), (2, [66])] := by decide
  have hout : ((adspRun pairAddr pairStart givenUpRun).host true).outcomes = [false, true] := by
    decide
  have hgot : ((adspRun pairAddr pairStart givenUpRun).host false).got = [(1, [65])] := by decide
  refine ⟨joined_adspStart (by decide) _ _, hcalls, hout, hgot, ?_⟩
  rw [hcalls, hout, hgot]
  rintro ⟨taken, -, hmap, hk⟩
  have hmem := hk 1 rfl
  obtain ⟨k, rfl⟩ : ∃ k, taken = [k] := by
    have := congrArg List.length hmap
    simp only [List.map_cons, List.map_nil, List.length_cons, List.length_nil,
      List.length_map] at this
    exact List.length_eq_one_iff.1 this.symm
  obtain rfl := List.mem_singleton.1 hmem
  simp at hmap

end TailTalk
