/-
  The ADSP record stream.

  A data packet is genuine if it carries a segment of its sender's stream at
  its true sequence number.  First transmissions always are.  A retransmission
  sends the flight buffer as if no mark lay among or before its bytes:
  `Aligned` is the condition under which it is genuine.
-/
import TailTalk.Adsp.Pair

namespace TailTalk

open Lib

/-- The stream items that some events deliver on a connection. -/
def streamOf (conn : UInt16) (events : List AdspEvent) : List StreamItem :=
  events.flatMap fun
    | .data c data eom => if c = conn then record data eom else []
    | _ => []

theorem streamOf_append (conn : UInt16) (a b : List AdspEvent) :
    streamOf conn (a ++ b) = streamOf conn a ++ streamOf conn b := List.flatMap_append

/-- Whatever stream data of `id` it carries is there in `S` at its true sequence number. -/
def Genuine (S : List StreamItem) (id : UInt16) (payload : Bytes) : Prop :=
  ∀ packet, AdspPacket.parse payload = .ok packet → packet.connectionId = id ∧
    (packet.flags &&& AdspPacket.FLAG_ATTENTION ≠ 0 ∨
      ((packet.descriptor = .dataPacket ∨ packet.descriptor = .controlPacket) ∧
        Segment S packet.firstByteSeq.toNat (record (payload.drop AdspPacket.HEADER_LEN)
          (packet.flags &&& AdspPacket.FLAG_EOM != 0))) ∨
      packet.descriptor = .closeAdvice)

theorem Genuine.plain {S : List StreamItem} {id : UInt16} {payload : Bytes}
    (h : Genuine S id payload) : AdspHost.Plain id payload := by
  intro packet hp
  obtain ⟨hid, ha | ⟨hd, -⟩ | hc⟩ := h packet hp
  · exact ⟨hid, Or.inl ha⟩
  · exact ⟨hid, hd.elim (fun h => Or.inr (Or.inl h)) fun h => Or.inr (Or.inr (Or.inl h))⟩
  · exact ⟨hid, Or.inr (Or.inr (Or.inr hc))⟩

theorem Genuine.mono {S T : List StreamItem} {id : UInt16} {payload : Bytes}
    (h : Genuine S id payload) (hST : S <+: T) : Genuine T id payload := by
  intro packet hp
  obtain ⟨hid, ha | ⟨hd, hseg⟩ | hc⟩ := h packet hp
  · exact ⟨hid, Or.inl ha⟩
  · exact ⟨hid, Or.inr (Or.inl ⟨hd, hseg.mono hST⟩)⟩
  · exact ⟨hid, Or.inr (Or.inr hc)⟩

/-! ## The packets of a connection -/

theorem genuine_dataPacket {S : List StreamItem} {c : Connection} {w : UInt16} {seq : UInt32}
    {eom : Bool} {chunk : Bytes} (h : Segment S seq.toNat (record chunk eom)) :
    Genuine S c.ourConnId (c.dataPacket w seq eom chunk) := by
  intro packet hp
  rw [parse_dataPacket] at hp
  obtain rfl := Except.ok.inj hp
  have hflag : ((if eom then 0x60 else 0x40 : UInt8) &&& AdspPacket.FLAG_EOM != 0) = eom := by
    cases eom <;> decide
  refine ⟨rfl, Or.inr (Or.inl ⟨Or.inl rfl, ?_⟩)⟩
  rw [drop_dataPacket, hflag]
  exact h

theorem genuine_control {S : List StreamItem} {p : AdspPacket}
    (hd : p.descriptor = .controlPacket ∨ p.descriptor = .closeAdvice) (hf : p.flags = 0) :
    Genuine S p.connectionId p.toBytes := by
  intro packet hp
  rw [parse_control hd hf] at hp
  obtain rfl := Except.ok.inj hp
  refine ⟨rfl, ?_⟩
  rcases hd with hd | hd
  · refine Or.inr (Or.inl ⟨Or.inr hd, ?_⟩)
    have hnil : p.toBytes.drop AdspPacket.HEADER_LEN = [] := by
      rw [← List.append_nil p.toBytes, AdspPacket.drop_toBytes]
    have heom : ((0x80 : UInt8) &&& AdspPacket.FLAG_EOM != 0) = false := by decide
    rw [hnil, heom]; exact Segment.nil S _
  · exact Or.inr (Or.inr hd)

/-- A datagram of the connection `id` with the Attention flag. -/
def AttentionDatagram (id : UInt16) (payload : Bytes) : Prop :=
  ∀ packet, AdspPacket.parse payload = .ok packet → packet.connectionId = id ∧
    packet.flags &&& AdspPacket.FLAG_ATTENTION ≠ 0

theorem AttentionDatagram.genuine {S : List StreamItem} {id : UInt16} {payload : Bytes}
    (h : AttentionDatagram id payload) : Genuine S id payload :=
  fun packet hp => ⟨(h packet hp).1, Or.inl (h packet hp).2⟩

theorem attentionDatagram_build (id : UInt16) (send recv : UInt32) (code : UInt16)
    (data : Bytes) :
    AttentionDatagram id (Connection.buildAttention id send recv code data) := by
  intro packet hp
  rw [parse_buildAttention] at hp
  obtain rfl := Except.ok.inj hp
  exact ⟨rfl, show (0x50 : UInt8) &&& AdspPacket.FLAG_ATTENTION ≠ 0 by decide⟩

theorem attentionDatagram_ack {p : AdspPacket} (hd : p.descriptor = .controlPacket)
    (hf : p.flags = AdspPacket.FLAG_ATTENTION) (data : Bytes) :
    AttentionDatagram p.connectionId (p.toBytes ++ data) := by
  intro packet hp
  rw [parse_attentionAck hd hf] at hp
  obtain rfl := Except.ok.inj hp
  exact ⟨rfl, show (0x90 : UInt8) &&& AdspPacket.FLAG_ATTENTION ≠ 0 by decide⟩

/-! ## Sequence numbers -/

theorem record_length (data : Bytes) (eom : Bool) :
    (record data eom).length = data.length + if eom then 1 else 0 := by
  cases eom <;> simp [record]

/-- As long as it fits, the sequence length is the number of items. -/
theorem seqLen_toNat {data : Bytes} {eom : Bool} (h : (record data eom).length < 2 ^ 32) :
    (seqLen data eom).toNat = (record data eom).length := by
  rw [record_length] at h ⊢
  cases eom
  · simp only [seqLen, Bool.false_eq_true, if_false, UInt32.add_zero] at h ⊢
    rw [UInt32.toNat_ofNat_of_lt' (by simpa [UInt32.size] using h)]; rfl
  · simp only [seqLen, if_true] at h ⊢
    rw [UInt32.toNat_add, UInt32.toNat_ofNat_of_lt' (by simp only [UInt32.size]; omega),
      UInt32.toNat_one]
    omega

theorem record_drop {data : Bytes} {n : ℕ} (h : n ≤ data.length) (eom : Bool) :
    (record data eom).drop n = record (data.drop n) eom := by
  rw [record, List.drop_append_of_le_length (by simpa using h), ← List.map_drop]; rfl

/-! ## One side of the stream -/

section
variable (S P : List StreamItem) (id key : UInt16)

/-- A connection that has cut the first `sendSeq` items of `S` and taken the first `recvSeq` of `P`.
    -/
structure Flowing (c : Connection) : Prop where
  ourConnId : c.ourConnId = id
  oldest_le : c.oldestUnackedSeq.toNat ≤ c.sendSeq.toNat
  send_le : c.sendSeq.toNat ≤ S.length
  queue : S.drop c.sendSeq.toNat = Connection.queued c.pendingWrites
  recv_le : c.recvSeq.toNat ≤ P.length
  attn : ∀ a, c.attnInFlight = some a → AttentionDatagram id a.packet

/-- It sends genuine packets and delivers the items it moves `recvSeq` over. -/
structure Flows (c : Connection) (e : Effect) : Prop where
  flowing : Flowing S P id e.conn
  remote : e.conn.remote = c.remote
  packets : ∀ p ∈ e.packets, Genuine S id p
  delivered : P.take c.recvSeq.toNat ++ streamOf key e.events = P.take e.conn.recvSeq.toNat

variable {S P id key}

theorem Flows.quiet {c : Connection} (h : Flowing S P id c) : Flows S P id key c (.quiet c) :=
  ⟨h, rfl, nofun, by simp [Effect.quiet, streamOf]⟩

theorem Flows.andThen {c : Connection} {e : Effect} {f : Connection → Effect}
    (he : Flows S P id key c e)
    (hf : Flowing S P id e.conn → Flows S P id key e.conn (f e.conn)) :
    Flows S P id key c (e.andThen f) := by
  have hfe := hf he.flowing
  refine ⟨hfe.flowing, hfe.remote.trans he.remote, ?_, ?_⟩
  · intro p hp
    rcases List.mem_append.1 hp with hp | hp
    · exact he.packets p hp
    · exact hfe.packets p hp
  · simp only [Effect.andThen, streamOf_append]
    rw [← List.append_assoc, he.delivered, hfe.delivered]

theorem Flows.congr {c c' : Connection} {e : Effect} (h : Flows S P id key c' e)
    (hrecv : c'.recvSeq = c.recvSeq) (hremote : c'.remote = c.remote) :
    Flows S P id key c e :=
  ⟨h.flowing, h.remote.trans hremote, h.packets, hrecv ▸ h.delivered⟩

theorem Flows.of_frame {c c' : Connection} {ps : List Bytes} {es : List AdspEvent}
    (h : Flowing S P id c)
    (hc : c' = { c with
      sendWindow := c'.sendWindow, lastTx := c'.lastTx, retries := c'.retries
      attnSendSeq := c'.attnSendSeq, attnRecvSeq := c'.attnRecvSeq
      attnInFlight := c'.attnInFlight })
    (ha : ∀ a, c'.attnInFlight = some a → AttentionDatagram id a.packet)
    (hps : ∀ p ∈ ps, Genuine S id p) (hes : streamOf key es = []) :
    Flows S P id key c ⟨c', ps, es⟩ := by
  rw [hc]
  exact ⟨⟨h.ourConnId, h.oldest_le, h.send_le, h.queue, h.recv_le, ha⟩, rfl, hps,
    by rw [hes, List.append_nil]⟩

/-! ## Cutting and acknowledging -/

theorem Flowing.cut (hS : S.length < 2 ^ 31) {c c' : Connection} {w : UInt16} {ps : List Bytes}
    {chunk : Bytes} {eom : Bool} (h : Flowing S P id c)
    (hcut : Connection.Cut w c c' ps chunk eom) : Flows S P id key c ⟨c', ps, []⟩ := by
  have hseg : S.drop c.sendSeq.toNat = record chunk eom ++ Connection.queued c'.pendingWrites := by
    rw [h.queue, hcut.queue]
  have hlen : c.sendSeq.toNat + (record chunk eom).length ≤ S.length := by
    have := congrArg List.length hseg
    rw [List.length_drop, List.length_append] at this
    have := h.send_le
    omega
  have hseq : (c.sendSeq + seqLen chunk eom).toNat =
      c.sendSeq.toNat + (record chunk eom).length := by
    rw [UInt32.toNat_add, seqLen_toNat (by omega)]; omega
  refine ⟨?_, ?_, ?_, ?_⟩
  · rw [hcut.next]
    refine ⟨h.ourConnId, ?_, ?_, ?_, h.recv_le, h.attn⟩
    · have := h.oldest_le
      simp only [hseq]; omega
    · simp only [hseq]; exact hlen
    · simp only [hseq]
      rw [← List.drop_drop, hseg, List.drop_left]
  · rw [hcut.next]
  · rcases hcut.packets with ⟨rfl, -, -⟩ | rfl
    · exact nofun
    · intro p hp
      obtain rfl := List.mem_singleton.1 hp
      rw [← h.ourConnId]
      exact genuine_dataPacket (by rw [Segment, hseg]; exact List.prefix_append _ _)
  · rw [hcut.next]; simp [streamOf]

theorem Flowing.pump (hS : S.length < 2 ^ 31) {c : Connection} (h : Flowing S P id c)
    (w : UInt16) (now : Option Micros) : Flows S P id key c (c.pump w now) := by
  refine Connection.pump_induct (Q := fun c e => Flowing S P id c → Flows S P id key c e) w now
    (fun _ => .quiet) (fun f hc ih h => ?_) c h
  obtain ⟨chunk, eom, hcut⟩ := Connection.cut_cases hc
  exact (h.cut hS hcut).andThen (ih _)

theorem Flowing.queueWrite {c : Connection} (h : Flowing S P id c) (data : Bytes) (eom : Bool) :
    Flowing (S ++ record data eom) P id (c.queueWrite data eom) := by
  refine ⟨h.ourConnId, h.oldest_le, ?_, ?_, h.recv_le, h.attn⟩
  · have := h.send_le
    simp only [Connection.queueWrite, List.length_append]; omega
  · simp only [Connection.queueWrite, Connection.queued, List.flatMap_append]
    rw [List.drop_append_of_le_length h.send_le, h.queue]
    simp [Connection.queued]

theorem Flowing.applyAck (hS : S.length < 2 ^ 31) {c : Connection} (h : Flowing S P id c)
    (w : UInt16) (packet : AdspPacket) (now : Micros) :
    Flows S P id key c (c.applyAck w packet now) := by
  simp only [Connection.applyAck]
  split_ifs with hack
  · have hle := h.oldest_le
    have hsend := h.send_le
    -- An acknowledgement within the valid range names a position cut already.
    have hnext : packet.nextRecvSeq.toNat ≤ c.sendSeq.toNat := by
      obtain ⟨-, hack⟩ := hack
      have h1 := packet.nextRecvSeq.toNat_lt
      rw [UInt32.toNat_sub, UInt32.toNat_sub] at hack
      omega
    refine (Flowing.pump hS ?_ w (some now)).congr rfl rfl
    exact ⟨h.ourConnId, hnext, h.send_le, h.queue, h.recv_le, h.attn⟩
  · refine (Flowing.pump hS ?_ w (some now)).congr rfl rfl
    exact ⟨h.ourConnId, h.oldest_le, h.send_le, h.queue, h.recv_le, h.attn⟩

theorem Flowing.sendAck {c : Connection} (h : Flowing S P id c) (w : UInt16) :
    Flows S P id key c (c.sendAck w) := by
  refine ⟨h, rfl, ?_, by simp [Connection.sendAck, streamOf]⟩
  intro p hp
  obtain rfl := List.mem_singleton.1 hp
  rw [← h.ourConnId]
  exact genuine_control (Or.inl rfl) rfl

/-! ## Delivering -/

variable (P key) in
/-- It delivers the items that it moves `recvSeq` over, and moves it no further than `stop`. -/
structure Received (stop : ℕ) (c : Connection) (e : Effect) : Prop where
  recv_le : e.conn.recvSeq.toNat ≤ P.length
  stop_le : e.conn.recvSeq.toNat ≤ max c.recvSeq.toNat stop
  delivered : P.take c.recvSeq.toNat ++ streamOf key e.events = P.take e.conn.recvSeq.toNat

theorem Received.quiet {c : Connection} (hr : c.recvSeq.toNat ≤ P.length) (stop : ℕ) :
    Received P key stop c (.quiet c) :=
  ⟨hr, le_max_left _ _, by simp [Effect.quiet, streamOf]⟩

variable (key) in
/-- A packet that carries a segment of the stream moves `recvSeq` over exactly
    the items it delivers. -/
theorem received_receive (hP : P.length < 2 ^ 31) {c : Connection}
    (hr : c.recvSeq.toNat ≤ P.length) {packet : AdspPacket} {data : Bytes}
    (hseg : Segment P packet.firstByteSeq.toNat
      (record data (packet.flags &&& AdspPacket.FLAG_EOM != 0))) :
    Received P key (packet.firstByteSeq.toNat +
        (record data (packet.flags &&& AdspPacket.FLAG_EOM != 0)).length) c
      (c.receive key packet data) := by
  simp only [Connection.receive]
  generalize (packet.flags &&& AdspPacket.FLAG_EOM != 0) = eom at hseg ⊢
  by_cases hnil : record data eom = []
  · have hz : seqLen data eom = 0 := by
      apply UInt32.toNat_inj.1
      rw [seqLen_toNat (by rw [hnil]; decide), hnil]; rfl
    rw [if_pos hz]; exact .quiet hr _
  have hend := hseg.length_le hnil
  have htotal : (seqLen data eom).toNat = (record data eom).length := seqLen_toNat (by omega)
  have hpos := List.length_pos_iff.2 hnil
  have hz : seqLen data eom ≠ 0 := by
    intro hz
    rw [hz] at htotal
    simp only [UInt32.toNat_zero] at htotal; omega
  rw [if_neg hz]
  by_cases hnew : (c.recvSeq - packet.firstByteSeq).toNat < 2 ^ 31 ∧
      c.recvSeq - packet.firstByteSeq < seqLen data eom
  · rw [if_pos hnew]
    obtain ⟨hdiff, hlt⟩ := hnew
    rw [UInt32.lt_iff_toNat_lt, htotal] at hlt
    have hfirst := packet.firstByteSeq.toNat_lt
    have hsub := UInt32.toNat_sub c.recvSeq packet.firstByteSeq
    have hle : packet.firstByteSeq.toNat ≤ c.recvSeq.toNat := by omega
    have hd : (c.recvSeq - packet.firstByteSeq).toNat =
        c.recvSeq.toNat - packet.firstByteSeq.toNat := by omega
    rw [hd] at hlt ⊢
    have hrecv : (packet.firstByteSeq + seqLen data eom).toNat =
        packet.firstByteSeq.toNat + (record data eom).length := by
      rw [UInt32.toNat_add, htotal]; omega
    have hskip : c.recvSeq.toNat - packet.firstByteSeq.toNat ≤ data.length := by
      rw [record_length] at hlt
      cases eom <;> simp at hlt <;> omega
    rw [Nat.min_eq_left hskip]
    have hdel : P.take c.recvSeq.toNat ++
        record (data.drop (c.recvSeq.toNat - packet.firstByteSeq.toNat)) eom =
        P.take (packet.firstByteSeq.toNat + (record data eom).length) := by
      rw [← record_drop hskip]
      exact hseg.extend hle (by omega)
    refine ⟨?_, ?_, ?_⟩
    · rw [hrecv]; exact hend
    · rw [hrecv]; exact le_max_right _ _
    · rw [hrecv, ← hdel]
      congr 1
      split_ifs with hne
      · simp [streamOf]
      · rw [not_or, not_not] at hne
        simp [streamOf, record, hne.1, hne.2]
  · rw [if_neg hnew]; exact .quiet hr _

/-- A genuine packet moves `recvSeq` over exactly the items it delivers. -/
theorem Flowing.receive (hP : P.length < 2 ^ 31) {c : Connection} (h : Flowing S P id c)
    {packet : AdspPacket} {data : Bytes}
    (hseg : Segment P packet.firstByteSeq.toNat
      (record data (packet.flags &&& AdspPacket.FLAG_EOM != 0))) :
    Flows S P id key c (c.receive key packet data) := by
  obtain ⟨hr, -, hdel⟩ := received_receive key hP h.recv_le hseg
  have hconn := Connection.receive_conn key packet data c
  refine ⟨?_, ?_, ?_, hdel⟩
  · rw [hconn]
    exact ⟨h.ourConnId, h.oldest_le, h.send_le, h.queue, hr, h.attn⟩
  · rw [hconn]
  · rw [Connection.receive_packets]; exact nofun

theorem Flowing.handleData (hS : S.length < 2 ^ 31) (hP : P.length < 2 ^ 31) {c : Connection}
    (h : Flowing S P id c) {packet : AdspPacket} {data : Bytes}
    (hseg : Segment P packet.firstByteSeq.toNat
      (record data (packet.flags &&& AdspPacket.FLAG_EOM != 0))) (w : UInt16) (now : Micros) :
    Flows S P id key c (c.handleData w key packet data now) := by
  refine (((h.receive hP hseg).andThen fun h1 => h1.applyAck hS w packet now).andThen
    fun h2 => ?_).andThen fun h3 => h3.pump hS w (some now)
  split_ifs
  · exact h2.sendAck w
  · exact .quiet h2

/-! ## Attentions and retransmission -/

theorem Flowing.handleAttention {c : Connection} (h : Flowing S P id c) (packet : AdspPacket)
    (data : Bytes) : Flows S P id key c (c.handleAttention key packet data) := by
  simp only [Connection.handleAttention]
  split_ifs with hshort hfresh
  · exact .quiet h
  all_goals
    refine .of_frame h rfl h.attn (fun p hp => ?_) (by simp [streamOf])
    obtain rfl := List.mem_singleton.1 hp
    rw [← h.ourConnId]
    exact (attentionDatagram_ack rfl rfl _).genuine

theorem Flowing.handleAttentionAck {c : Connection} (h : Flowing S P id c) (packet : AdspPacket) :
    Flows S P id key c (c.handleAttentionAck key packet) := by
  simp only [Connection.handleAttentionAck]
  rcases c.attnInFlight with _ | a
  · exact .quiet h
  · dsimp only
    split_ifs
    · exact .quiet h
    · exact .of_frame h rfl nofun nofun (by simp [streamOf])

theorem Flowing.startAttention {c : Connection} (h : Flowing S P id c) (code : UInt16)
    (data : Bytes) (now : Micros) : Flows S P id key c (c.startAttention code data now) := by
  have hd : AttentionDatagram id
      (Connection.buildAttention c.ourConnId c.attnSendSeq c.attnRecvSeq code data) := by
    rw [← h.ourConnId]
    exact attentionDatagram_build _ _ _ _ _
  refine .of_frame h rfl (fun a ha => ?_) (fun p hp => ?_) rfl
  · obtain rfl := Option.some.inj ha; exact hd
  · obtain rfl := List.mem_singleton.1 hp; exact hd.genuine

theorem Flowing.pollAttention {c : Connection} (h : Flowing S P id c) (now : Micros) :
    Flows S P id key c (c.pollAttention key now) := by
  simp only [Connection.pollAttention]
  rcases ha : c.attnInFlight with _ | a
  · exact .quiet h
  · dsimp only
    split_ifs
    · exact .quiet h
    · exact .of_frame h rfl nofun nofun (by simp [streamOf])
    · refine .of_frame h rfl (fun b hb => ?_) (fun p hp => ?_) (by simp [streamOf])
      · obtain rfl := Option.some.inj hb; exact h.attn a ha
      · obtain rfl := List.mem_singleton.1 hp; exact (h.attn a ha).genuine

/-- The flight buffer holds the items from the oldest unacknowledged one on, no mark among or before
    them. -/
def Aligned (S : List StreamItem) (c : Connection) : Prop :=
  c.flightBuffer.map .byte <+: S.drop c.oldestUnackedSeq.toNat

instance (S : List StreamItem) (c : Connection) : Decidable (Aligned S c) :=
  inferInstanceAs (Decidable (_ <+: _))

theorem Flowing.resendUnacked (hS : S.length < 2 ^ 31) {c : Connection} (h : Flowing S P id c)
    (hal : Aligned S c) (w : UInt16) (now : Micros) :
    Flows S P id key c (c.resendUnacked w now) := by
  simp only [Connection.resendUnacked]
  split_ifs with hne
  · exact .quiet h
  refine .of_frame h rfl h.attn (fun p hp => ?_) rfl
  obtain ⟨i, hi⟩ := List.mem_iff_getElem?.1 hp
  simp only [List.getElem?_mapIdx, Option.map_eq_some_iff] at hi
  obtain ⟨chunk, hchunk, rfl⟩ := hi
  obtain ⟨-, rfl⟩ := chunks_getElem? hchunk
  rw [← h.ourConnId]
  refine genuine_dataPacket ?_
  by_cases hlt : i * ADSP_MAX_DATA < c.flightBuffer.length
  · have hlen := Segment.length_le hal (by simpa using hne)
    rw [List.length_map] at hlen
    have hseq : (c.oldestUnackedSeq + UInt32.ofNat (i * ADSP_MAX_DATA)).toNat =
        c.oldestUnackedSeq.toNat + i * ADSP_MAX_DATA := by
      rw [UInt32.toNat_add, UInt32.toNat_ofNat_of_lt' (by simp only [UInt32.size]; omega)]
      omega
    have hsub := (Segment.drop hal (i * ADSP_MAX_DATA)).take ADSP_MAX_DATA
    rw [← List.map_drop, ← List.map_take, ← hseq] at hsub
    simpa [record] using hsub
  · rw [List.drop_eq_nil_of_le (by omega)]
    exact Segment.nil S _

end

/-! ## A host -/

/-- The stream invariant of a host whose peer has sent `P` and knows the
    connection as `id`. -/
structure StreamHost (S P : List StreamItem) (id : UInt16) (remote : ServiceAddress)
    (h : AdspHost) : Prop where
  solo : h.Solo
  flowing : ∀ c, h.connection = some c → Flowing S P id c ∧ c.remote = remote ∧
    streamOf h.conn h.emitted = P.take c.recvSeq.toNat
  inOrder : streamOf h.conn h.emitted <+: P
  outbox : ∀ p ∈ h.ep.outbox, p.1 = remote ∧ Genuine S id p.2

namespace StreamHost
variable {S S' P : List StreamItem} {id : UInt16} {remote : ServiceAddress} {h : AdspHost}

/-- A host that is left alone while its peer sends on. -/
theorem mono (hh : StreamHost S P id remote h) {P' : List StreamItem} (hP : P <+: P') :
    StreamHost S P' id remote h := by
  refine ⟨hh.solo, fun c hc => ?_, hh.inOrder.trans hP, hh.outbox⟩
  obtain ⟨hf, hr, hd⟩ := hh.flowing c hc
  obtain ⟨T, rfl⟩ := hP
  refine ⟨⟨hf.ourConnId, hf.oldest_le, hf.send_le, hf.queue, ?_, hf.attn⟩, hr, ?_⟩
  · have := hf.recv_le
    rw [List.length_append]; omega
  · rw [hd, List.take_append_of_le_length hf.recv_le]

theorem of_same (hh : StreamHost S P id remote h) {t : AdspHost} (hconn : t.conn = h.conn)
    (hcs : t.ep.connections = h.ep.connections) (hopens : t.ep.pendingOpens = h.ep.pendingOpens)
    (hem : t.emitted = h.emitted) (hout : t.ep.outbox ⊆ h.ep.outbox) :
    StreamHost S P id remote t := by
  have hc : t.connection = h.connection := by rw [AdspHost.connection, hconn, hcs]; rfl
  refine ⟨⟨fun k hk => ?_, ?_⟩, ?_, ?_, ?_⟩
  · rw [hcs]; exact hh.solo.others k (hconn ▸ hk)
  · rw [hopens]; exact hh.solo.opens
  · rw [hc, hconn, hem]; exact hh.flowing
  · rw [hconn, hem]; exact hh.inOrder
  · exact fun p hp => hh.outbox p (hout hp)

theorem onConn (hh : StreamHost S P id remote h) (hS : S <+: S') {f : Connection → Effect}
    (hf : ∀ c, h.connection = some c → Flowing S P id c → Flows S' P id h.conn c (f c)) :
    StreamHost S' P id remote (h.onConn f) := by
  rcases hc : h.connection with _ | c
  · rw [AdspHost.onConn_none hc]
    refine ⟨hh.solo, fun c hc' => ?_, hh.inOrder, fun p hp => ?_⟩
    · rw [hc] at hc'; cases hc'
    · exact ⟨(hh.outbox p hp).1, (hh.outbox p hp).2.mono hS⟩
  obtain ⟨hflow, hrem, hdel⟩ := hh.flowing c hc
  have hstep := hf c hc hflow
  have hnew : streamOf h.conn (h.emitted ++ (f c).events) = P.take (f c).conn.recvSeq.toNat := by
    rw [streamOf_append, hdel, hstep.delivered]
  refine ⟨hh.solo.onConn f, fun c' hc' => ?_, ?_, fun p hp => ?_⟩
  · rw [AdspHost.connection_onConn hc] at hc'
    obtain rfl := Option.some.inj hc'
    rw [AdspHost.emitted_onConn hc]
    exact ⟨hstep.flowing, hstep.remote.trans hrem, hnew⟩
  · rw [AdspHost.emitted_onConn hc, AdspHost.onConn_conn, hnew]
    exact List.take_prefix _ _
  · rw [AdspHost.outbox_onConn hc] at hp
    rcases List.mem_append.1 hp with hp | hp
    · exact ⟨(hh.outbox p hp).1, (hh.outbox p hp).2.mono hS⟩
    · obtain ⟨b, hb, rfl⟩ := List.mem_map.1 hp
      exact ⟨hstep.remote.trans hrem, hstep.packets b hb⟩

/-- The connection is gone: nothing more is delivered. -/
theorem closed (hh : StreamHost S P id remote h) : StreamHost S P id remote h.closed := by
  refine ⟨hh.solo.closed, fun c hc => ?_, ?_, hh.outbox⟩
  · rw [AdspHost.connection_closed] at hc; cases hc
  · rw [AdspHost.emitted_closed, streamOf_append]
    simp only [streamOf, List.flatMap_cons, List.flatMap_nil, List.append_nil]
    exact hh.inOrder

theorem close (hh : StreamHost S P id remote h) : StreamHost S P id remote (h.call .close) := by
  rcases hc : h.connection with _ | c
  · rw [AdspHost.call_close_none hc]; exact hh
  obtain ⟨hflow, hrem, -⟩ := hh.flowing c hc
  rw [AdspHost.connection] at hc
  simp only [AdspHost.call, AdspEndpoint.close, hc]
  refine ⟨hh.solo.forget rfl rfl, fun c' hc' => ?_, hh.inOrder, fun p hp => ?_⟩
  · simp [AdspHost.connection, AdspEndpoint.push, AdspEndpoint.forget] at hc'
  · rcases List.mem_append.1 hp with hp | hp
    · exact hh.outbox p hp
    · obtain rfl := List.mem_singleton.1 hp
      refine ⟨hrem, ?_⟩
      rw [← hflow.ourConnId]
      exact genuine_control (Or.inr rfl) rfl

end StreamHost

/-- The retransmission that polling at `now` makes, if any, is aligned. -/
def RetransmitsAligned (h : AdspHost) (now : Micros) : Prop :=
  match h.connection with
  | none => True
  | some c => c.retransmitDue now → c.retries < ADSP_MAX_RETRIES → Aligned h.sent c

instance (h : AdspHost) (now : Micros) : Decidable (RetransmitsAligned h now) := by
  unfold RetransmitsAligned; split <;> infer_instance

/-- The condition on a call: fewer than `2 ^ 31` sequence numbers are used, and
    retransmissions are aligned. -/
def StreamCallOk (h : AdspHost) : AdspCall → Prop
  | .send data eom => h.sent.length + (record data eom).length < 2 ^ 31
  | .poll now => RetransmitsAligned h now
  | _ => True

instance (h : AdspHost) : ∀ c, Decidable (StreamCallOk h c)
  | .send _ _ => inferInstanceAs (Decidable (_ < _))
  | .poll now => inferInstanceAs (Decidable (RetransmitsAligned h now))
  | .sendAttention .. | .close | .setRecvWindow _ | .pollEvent => inferInstanceAs (Decidable True)

namespace StreamHost
variable {P : List StreamItem} {id : UInt16} {remote : ServiceAddress} {h : AdspHost}

theorem pollData {S : List StreamItem} (hh : StreamHost S P id remote h)
    (hS : S.length < 2 ^ 31) {now : Micros} (hok : RetransmitsAligned h now) (hs : h.sent = S) :
    StreamHost S P id remote (h.pollData now) := by
  subst hs
  rcases h.pollData_cases now with hp | hp | ⟨c, hc, hdue, hlt, hp⟩ <;> rw [hp]
  · exact hh
  · exact hh.closed
  · rw [RetransmitsAligned, hc] at hok
    refine hh.onConn List.prefix_rfl fun c' hc' hflow => ?_
    rw [hc] at hc'
    obtain rfl := Option.some.inj hc'
    have hflow' : Flowing h.sent P id { c with retries := c.retries + 1 } :=
      ⟨hflow.ourConnId, hflow.oldest_le, hflow.send_le, hflow.queue, hflow.recv_le, hflow.attn⟩
    exact (hflow'.resendUnacked hS (hok hdue hlt) h.ep.recvWindow now).congr rfl rfl

theorem retransmitsAligned_pollAttention {now : Micros} (hok : RetransmitsAligned h now) :
    RetransmitsAligned (h.onConn (Connection.pollAttention h.conn now)) now := by
  rcases hc : h.connection with _ | c
  · rw [AdspHost.onConn_none hc]; exact hok
  · rw [RetransmitsAligned, hc] at hok
    rw [RetransmitsAligned, AdspHost.connection_onConn hc]
    simp only [Connection.pollAttention]
    rcases c.attnInFlight with _ | a
    · exact hok
    · dsimp only
      split_ifs <;> exact hok

/-- **What a call does to the stream of its host.** -/
theorem call (hh : StreamHost h.sent P id remote h) (hS : h.sent.length < 2 ^ 31) (c : AdspCall)
    (hok : StreamCallOk h c) : StreamHost (h.call c).sent P id remote (h.call c) ∧
      h.sent <+: (h.call c).sent ∧ (h.call c).conn = h.conn ∧
      (h.call c).sent.length < 2 ^ 31 := by
  cases c with
  | send data eom =>
    rcases hc : h.connection with _ | c
    · rw [AdspHost.call_send_none hc]; exact ⟨hh, List.prefix_rfl, rfl, hS⟩
    · have hlen : (h.sent ++ record data eom).length < 2 ^ 31 := by
        rw [List.length_append]; exact hok
      rw [AdspHost.call_send_some hc]
      refine ⟨?_, List.prefix_append _ _, rfl, hlen⟩
      refine (hh.onConn (List.prefix_append _ (record data eom)) fun c _ hflow => ?_).of_same
        rfl rfl rfl rfl (List.Subset.refl _)
      exact ((hflow.queueWrite data eom).pump hlen h.ep.recvWindow none).congr rfl rfl
  | sendAttention code data now =>
    by_cases hfree : ∃ c, h.connection = some c ∧ c.attnInFlight = none
    · obtain ⟨c, hc, ha⟩ := hfree
      rw [AdspHost.call_sendAttention hc ha]
      refine ⟨?_, List.prefix_rfl, rfl, hS⟩
      exact (hh.onConn List.prefix_rfl fun c _ hflow =>
        hflow.startAttention code data now).of_same rfl rfl rfl rfl (List.Subset.refl _)
    · rw [AdspHost.call_sendAttention_refused fun c hc ha => hfree ⟨c, hc, ha⟩]
      exact ⟨hh, List.prefix_rfl, rfl, hS⟩
  | close => exact ⟨hh.close, List.prefix_rfl, rfl, hS⟩
  | setRecvWindow w =>
    have hw : StreamHost h.sent P id remote (h.withWindow w) :=
      hh.of_same rfl rfl rfl rfl (List.Subset.refl _)
    rw [AdspHost.call_setRecvWindow hh.solo]
    split_ifs
    · exact ⟨hw.onConn List.prefix_rfl fun c _ hflow => hflow.sendAck w, List.prefix_rfl, rfl, hS⟩
    · exact ⟨hw, List.prefix_rfl, rfl, hS⟩
  | poll now =>
    rw [AdspHost.call_poll hh.solo]
    have hattn : StreamHost h.sent P id remote
        (h.onConn (Connection.pollAttention h.conn now)) :=
      hh.onConn List.prefix_rfl fun c _ hflow => hflow.pollAttention now
    exact ⟨hattn.pollData hS (retransmitsAligned_pollAttention hok) rfl, List.prefix_rfl, rfl, hS⟩
  | pollEvent =>
    refine ⟨hh.of_same rfl rfl rfl ?_ (List.Subset.refl _), List.prefix_rfl, rfl, hS⟩
    simp only [AdspHost.emitted, AdspHost.call, AdspEndpoint.pollEvent, List.append_assoc]
    rcases h.ep.events with _ | ⟨e, es⟩ <;> rfl

/-- **What a genuine datagram does to the stream of its receiver.** -/
theorem recv (hh : StreamHost h.sent P id remote h) (hS : h.sent.length < 2 ^ 31)
    (hP : P.length < 2 ^ 31) {payload : Bytes} (hg : Genuine P h.conn payload)
    (src : ServiceAddress) (now : Micros) :
    StreamHost h.sent P id remote (h.recv src payload now) := by
  have hrecv := AdspHost.recv_plain hg.plain src now
  generalize h.recv src payload now = t at hrecv ⊢
  cases hrecv with
  | ignored => exact hh
  | attentionAck packet hp ha hc =>
    exact hh.onConn List.prefix_rfl fun c _ hflow => hflow.handleAttentionAck packet
  | attention packet hp ha hc =>
    exact hh.onConn List.prefix_rfl fun c _ hflow => hflow.handleAttention packet _
  | data packet hp ha hd =>
    have hseg : Segment P packet.firstByteSeq.toNat (record (payload.drop AdspPacket.HEADER_LEN)
        (packet.flags &&& AdspPacket.FLAG_EOM != 0)) := by
      obtain ⟨-, h | ⟨-, h⟩ | h⟩ := hg packet hp
      · exact absurd ha h
      · exact h
      · rcases hd with hd | hd <;> rw [hd] at h <;> cases h
    exact hh.onConn List.prefix_rfl fun c _ hflow => hflow.handleData hS hP hseg _ now
  | closed => exact hh.closed

end StreamHost

/-! ## The two hosts -/

/-- The condition on a step. -/
def StreamOk (s : AdspNet) : Net.Act AdspCall Bool → Prop
  | .call i c => StreamCallOk (s.host i) c
  | _ => True

instance (s : AdspNet) : ∀ a, Decidable (StreamOk s a)
  | .call i c => inferInstanceAs (Decidable (StreamCallOk (s.host i) c))
  | .transmit _ | .deliver .. | .drop _ => inferInstanceAs (Decidable True)

/-- The invariant of a host and its peer, and that of a datagram. -/
def StreamPair (addr : Bool → ServiceAddress) (i : Bool) (a b : AdspHost) : Prop :=
  StreamHost a.sent b.sent b.conn (addr !i) a ∧ a.sent.length < 2 ^ 31 ∧ b.sent.length < 2 ^ 31

/-- A packet of one side's stream on its way. -/
def StreamFlight (_ : Bool) (a b : AdspHost) (body : Bytes) : Prop := Genuine a.sent b.conn body

theorem stream_moves {addr : Bool → ServiceAddress} {known : Bool → Bytes → Prop} {i : Bool}
    {a b a' : AdspHost} (hpeer : StreamPair addr (!i) b a)
    (hmine : StreamHost a'.sent b.sent b.conn (addr !i) a') (hpre : a.sent <+: a'.sent)
    (hconn : a'.conn = a.conn) (hlen : a'.sent.length < 2 ^ 31) :
    Net.Moves adspParty addr (StreamPair addr) StreamFlight known i a b a' := by
  obtain ⟨hh, hb, -⟩ := hpeer
  refine ⟨⟨hmine, hlen, hb⟩, ⟨?_, hb, hlen⟩, fun body _ hg => hg.mono hpre, fun body _ hg => ?_,
    fun p hp => Or.inr (hmine.outbox p hp)⟩
  · rw [hconn]; exact hh.mono hpre
  · rw [StreamFlight, hconn]; exact hg

theorem stream_rule {addr : Bool → ServiceAddress} (hne : addr true ≠ addr false) :
    Net.PairRule adspParty addr StreamOk (StreamPair addr) StreamFlight where
  addr_ne := hne
  call := by
    rintro s i c ⟨hh, ha, -⟩ hpeer hok
    obtain ⟨hcall, hpre, hconn, hlen⟩ := hh.call ha c hok
    exact stream_moves hpeer hcall hpre hconn hlen
  recv := by
    rintro i a b body now ⟨hh, ha, hb⟩ hpeer hg
    exact stream_moves hpeer (hh.recv ha hb hg _ now) List.prefix_rfl rfl ha
  pop := by
    rintro i a b ⟨hh, ha, -⟩ hpeer
    exact stream_moves hpeer (hh.of_same rfl rfl rfl rfl fun _ hp => List.mem_of_mem_tail hp)
      List.prefix_rfl rfl ha

theorem stream_start {addr : Bool → ServiceAddress} {s : AdspNet} (h : Joined addr s) :
    Net.PairInv adspParty addr (StreamPair addr) StreamFlight s := by
  refine ⟨fun i => ⟨⟨⟨h.others i, h.opens i⟩, fun c hc => ?_, ?_, ?_⟩, ?_, ?_⟩, ?_⟩
  · obtain ⟨window, now, hfresh⟩ := h.fresh i
    rw [hfresh] at hc
    obtain rfl := Option.some.inj hc
    rw [h.sent i, h.emitted i]
    exact ⟨⟨rfl, Nat.le_refl _, Nat.zero_le _, rfl, Nat.zero_le _, nofun⟩, rfl, rfl⟩
  · rw [h.emitted i]; exact List.nil_prefix
  · rw [h.outbox i]; exact nofun
  · rw [h.sent i]; decide
  · rw [h.sent]; decide
  · rintro f (hf | ⟨i, -, hf⟩)
    · rw [h.wire] at hf; cases hf
    · change _ ∈ (s.host i).ep.outbox at hf
      rw [h.outbox i] at hf; cases hf

/-- **Records arrive in order.** In every run of two joined endpoints whose retransmissions are
    aligned, what one side delivers is a prefix of what the other side sent, whatever the network
    loses, duplicates or reorders. -/
theorem stream_in_order {addr : Bool → ServiceAddress} {s : AdspNet} (h : Joined addr s)
    {as : List (Net.Act AdspCall Bool)}
    (hok : Along (Net.step adspParty addr) StreamOk s as) (i : Bool) :
    streamOf ((adspRun addr s as).host i).conn ((adspRun addr s as).host i).emitted <+:
      ((adspRun addr s as).host !i).sent :=
  (((stream_rule h.addr_ne).inv_run (stream_start h) hok).hosts i).1.inOrder

/-- A write is lost, sent again when its timer fires, and arrives. -/
def lossyRun : List (Net.Act AdspCall Bool) :=
  [.call true (.send [104, 105] false), .transmit true, .drop 0, .call true (.poll 3000000),
    .transmit true, .deliver false 0 3000001]

theorem stream_in_order_lossyRun :
    Joined pairAddr pairStart ∧ Along (Net.step adspParty pairAddr) StreamOk pairStart lossyRun ∧
    streamOf ((adspRun pairAddr pairStart lossyRun).host false).conn
        ((adspRun pairAddr pairStart lossyRun).host false).emitted <+:
      ((adspRun pairAddr pairStart lossyRun).host true).sent ∧
    ((adspRun pairAddr pairStart lossyRun).host false).emitted = [.data 10 [104, 105] false] :=
  have hj : Joined pairAddr pairStart := joined_adspStart (by decide) _ _
  have hok : Along (Net.step adspParty pairAddr) StreamOk pairStart lossyRun := by decide
  ⟨hj, hok, stream_in_order hj hok false, by decide⟩

/-- A record and the start of the next are lost together and sent again. -/
def lostMarkRun : List (Net.Act AdspCall Bool) :=
  [.call true (.send [104, 105] true), .call true (.send [120] false), .transmit true,
    .transmit true, .drop 0, .drop 0, .call true (.poll 3000000), .transmit true,
    .deliver false 0 3000001]

/-- The retransmission runs the records together: three bytes are read where two and an EOM mark
    were sent. -/
theorem lostMarkRun_out_of_order :
    Joined pairAddr pairStart ∧
    ((adspRun pairAddr pairStart lostMarkRun).host true).sent =
      [.byte 104, .byte 105, .eom, .byte 120] ∧
    streamOf ((adspRun pairAddr pairStart lostMarkRun).host false).conn
      ((adspRun pairAddr pairStart lostMarkRun).host false).emitted =
        [.byte 104, .byte 105, .byte 120] ∧
    ¬ streamOf ((adspRun pairAddr pairStart lostMarkRun).host false).conn
        ((adspRun pairAddr pairStart lostMarkRun).host false).emitted <+:
      ((adspRun pairAddr pairStart lostMarkRun).host true).sent :=
  ⟨joined_adspStart (by decide) _ _, by decide, by decide, by decide⟩

end TailTalk
