/-
  Flow control between two ADSP endpoints.

  A `FlowNet` is the two endpoints and the network with a record of who queued
  what and of the newest advertisement that has reached each side.  `applyAck`
  takes the window of whatever arrives last, so an overtaken advertisement may
  widen it: `FlowOk` is that it does not.
-/
import TailTalk.Adsp.Isolation
import TailTalk.Adsp.Stream

namespace TailTalk

open Lib

/-- Room for `window` sequence numbers from `next` on. The serial counts the datagrams that its
    sender had queued. -/
structure Advert where
  serial : ℕ
  next : UInt32
  window : UInt16
deriving DecidableEq

/-- A sequence number lies in an advertised window. -/
def Advert.Admits (ad : Advert) (q : UInt32) : Prop := (q - ad.next).toNat < ad.window.toNat

instance (ad : Advert) (q : UInt32) : Decidable (ad.Admits q) := inferInstanceAs (Decidable (_ < _))

/-- The packet of a datagram, if it is one whose acknowledgement and window
    the receiver takes. -/
def ackBearing (body : Bytes) : Option AdspPacket :=
  (AdspPacket.parse body).toOption.filter fun packet =>
    packet.flags &&& AdspPacket.FLAG_ATTENTION = 0 ∧
      (packet.descriptor = .dataPacket ∨ packet.descriptor = .controlPacket)

/-- What a datagram advertises as the `serial`-th of its sender. -/
def advertOf (serial : ℕ) (body : Bytes) : Option Advert :=
  (ackBearing body).map fun packet => ⟨serial, packet.nextRecvSeq, packet.recvWindow⟩

/-- The sequence numbers of the stream bytes that a datagram carries. -/
def dataSeqs (body : Bytes) : List UInt32 :=
  match AdspPacket.parse body with
  | .error _ => []
  | .ok packet =>
    if packet.flags &&& AdspPacket.FLAG_ATTENTION = 0 ∧ packet.descriptor = .dataPacket then
      (List.range (body.drop AdspPacket.HEADER_LEN).length).map fun i =>
        packet.firstByteSeq + UInt32.ofNat i
    else []

/-! ## The datagrams of a connection -/

theorem dataSeqs_dataPacket (c : Connection) (w : UInt16) (seq : UInt32) (eom : Bool)
    (chunk : Bytes) : dataSeqs (c.dataPacket w seq eom chunk) =
      (List.range chunk.length).map fun i => seq + UInt32.ofNat i := by
  have hattn : (if eom then 0x60 else 0x40 : UInt8) &&& AdspPacket.FLAG_ATTENTION = 0 := by
    cases eom <;> decide
  simp only [dataSeqs, parse_dataPacket, hattn, true_and, if_true, drop_dataPacket]

theorem dataSeqs_control {p : AdspPacket}
    (hd : p.descriptor = .controlPacket ∨ p.descriptor = .closeAdvice) (hf : p.flags = 0) :
    dataSeqs p.toBytes = [] := by
  have hne : p.descriptor ≠ .dataPacket := by
    rcases hd with hd | hd <;> rw [hd] <;> decide
  simp only [dataSeqs, parse_control hd hf, hne, and_false, if_false]

theorem plain_dataPacket (c : Connection) (w : UInt16) (seq : UInt32) (eom : Bool)
    (chunk : Bytes) : AdspHost.Plain c.ourConnId (c.dataPacket w seq eom chunk) := by
  intro packet hp
  rw [parse_dataPacket] at hp
  obtain rfl := Except.ok.inj hp
  exact ⟨rfl, Or.inr (Or.inl rfl)⟩

theorem plain_control {p : AdspPacket}
    (hd : p.descriptor = .controlPacket ∨ p.descriptor = .closeAdvice) (hf : p.flags = 0) :
    AdspHost.Plain p.connectionId p.toBytes := by
  intro packet hp
  rw [parse_control hd hf] at hp
  obtain rfl := Except.ok.inj hp
  exact ⟨rfl, Or.inr (Or.inr hd)⟩

theorem AttentionDatagram.plain {id : UInt16} {body : Bytes} (h : AttentionDatagram id body) :
    AdspHost.Plain id body := fun packet hp => ⟨(h packet hp).1, Or.inl (h packet hp).2⟩

theorem AttentionDatagram.dataSeqs {id : UInt16} {body : Bytes} (h : AttentionDatagram id body) :
    dataSeqs body = [] := by
  unfold TailTalk.dataSeqs
  rcases hparse : AdspPacket.parse body with err | packet
  · rfl
  · simp only [(h packet hparse).2, false_and, if_false]

theorem attentionDatagram_reply (c : Connection) (code : UInt16) :
    AttentionDatagram c.ourConnId (({ descriptor := .controlPacket
                                      connectionId := c.ourConnId
                                      firstByteSeq := c.attnSendSeq
                                      nextRecvSeq := c.attnRecvSeq
                                      recvWindow := 0
                                      flags := AdspPacket.FLAG_ATTENTION } :
      AdspPacket).toBytes ++ be16 code) := attentionDatagram_ack rfl rfl _

/-! ## The invariant of a connection -/

section
variable (Sent : Advert → Prop) (newest : Advert) (id : UInt16)

/-- A connection that keeps to the newest advertisement, of those that its
    peer has `Sent`. -/
structure Paced (c : Connection) : Prop where
  ourConnId : c.ourConnId = id
  attn : ∀ a, c.attnInFlight = some a → AttentionDatagram id a.packet
  sent : Sent newest
  oldest : c.oldestUnackedSeq = newest.next
  window : c.sendWindow ≤ newest.window
  flight : c.flightBuffer.length ≤ (c.sendSeq - c.oldestUnackedSeq).toNat
  /-- what is in flight and queued fits in the sequence number space -/
  total : (c.sendSeq - c.oldestUnackedSeq).toNat + (Connection.queued c.pendingWrites).length <
    2 ^ 32
  /-- all of the flight buffer, sent again from the oldest number on, lies in a
      window -/
  covered : c.flightBuffer ≠ [] → ∃ ad, Sent ad ∧
    (c.oldestUnackedSeq - ad.next).toNat + c.flightBuffer.length ≤ ad.window.toNat

/-- Its stream bytes lie in a window that was sent; in the newest one if it is a first transmission.
    -/
structure InWindow (first : Prop) (body : Bytes) : Prop where
  talks : AdspHost.Plain id body
  sent : ∀ q ∈ dataSeqs body, ∃ ad, Sent ad ∧ ad.Admits q
  newest : first → ∀ q ∈ dataSeqs body, newest.Admits q

/-- What an operation does to a paced connection. -/
structure Paces (first : Prop) (c : Connection) (e : Effect) : Prop where
  paced : Paced Sent newest id e.conn
  remote : e.conn.remote = c.remote
  packets : ∀ p ∈ e.packets, InWindow Sent newest id first p

variable {Sent newest id}

theorem InWindow.of_nil {first : Prop} {body : Bytes} (ht : AdspHost.Plain id body)
    (h : dataSeqs body = []) : InWindow Sent newest id first body := by
  refine ⟨ht, ?_, ?_⟩
  · rw [h]; exact nofun
  · rw [h]; exact fun _ => nofun

theorem Paces.quiet {first : Prop} {c : Connection} (h : Paced Sent newest id c) :
    Paces Sent newest id first c (.quiet c) := ⟨h, rfl, nofun⟩

theorem Paces.andThen {first : Prop} {c : Connection} {e : Effect} {f : Connection → Effect}
    (he : Paces Sent newest id first c e)
    (hf : Paced Sent newest id e.conn → Paces Sent newest id first e.conn (f e.conn)) :
    Paces Sent newest id first c (e.andThen f) := by
  have hfe := hf he.paced
  refine ⟨hfe.paced, hfe.remote.trans he.remote, fun p hp => ?_⟩
  rcases List.mem_append.1 hp with hp | hp
  · exact he.packets p hp
  · exact hfe.packets p hp

theorem Paces.congr {first : Prop} {c c' : Connection} {e : Effect}
    (h : Paces Sent newest id first c' e) (hremote : c'.remote = c.remote) :
    Paces Sent newest id first c e := ⟨h.paced, h.remote.trans hremote, h.packets⟩

theorem Paced.congr {c c' : Connection} (h : Paced Sent newest id c)
    (hc : c' = { c with
      recvSeq := c'.recvSeq, lastTx := c'.lastTx, retries := c'.retries
      attnSendSeq := c'.attnSendSeq, attnRecvSeq := c'.attnRecvSeq
      attnInFlight := c'.attnInFlight })
    (ha : ∀ a, c'.attnInFlight = some a → AttentionDatagram id a.packet) :
    Paced Sent newest id c' := by
  rw [hc]
  exact ⟨h.ourConnId, ha, h.sent, h.oldest, h.window, h.flight, h.total, h.covered⟩

/-! ## Cutting -/

theorem Paced.cut {c c' : Connection} {w : UInt16} {ps : List Bytes} {chunk : Bytes} {eom : Bool}
    (h : Paced Sent newest id c) (hcut : Connection.Cut w c c' ps chunk eom) {first : Prop} :
    Paces Sent newest id first c ⟨c', ps, []⟩ := by
  have hlen : (record chunk eom).length = chunk.length + if eom then 1 else 0 := by
    cases eom <;> simp [record]
  have hqueue := congrArg List.length hcut.queue
  rw [List.length_append, hlen] at hqueue
  have htotal := h.total
  have hseqLen : (seqLen chunk eom).toNat = chunk.length + if eom then 1 else 0 := by
    cases eom
    · simp only [seqLen, Bool.false_eq_true, if_false, UInt32.add_zero] at hqueue ⊢
      rw [UInt32.toNat_ofNat_of_lt' (by simp only [UInt32.size]; omega)]; rfl
    · simp only [seqLen, if_true] at hqueue ⊢
      rw [UInt32.toNat_add, UInt32.toNat_ofNat_of_lt' (by simp only [UInt32.size]; omega),
        UInt32.toNat_one]
      omega
  have hseq : (c.sendSeq + seqLen chunk eom - c.oldestUnackedSeq).toNat =
      (c.sendSeq - c.oldestUnackedSeq).toNat + (chunk.length + if eom then 1 else 0) := by
    rw [← hseqLen] at hqueue ⊢
    simp only [UInt32.toNat_sub, UInt32.toNat_add] at htotal ⊢
    have := c.sendSeq.toNat_lt
    have := c.oldestUnackedSeq.toNat_lt
    omega
  have hwindow : chunk ≠ [] →
      (c.sendSeq - c.oldestUnackedSeq).toNat + chunk.length ≤ newest.window.toNat := fun hne =>
    Nat.le_trans (hcut.window hne) (UInt16.le_iff_toNat_le.1 h.window)
  have hflight := h.flight
  refine ⟨?_, by rw [hcut.next], ?_⟩
  · rw [hcut.next]
    refine ⟨h.ourConnId, h.attn, h.sent, h.oldest, h.window, ?_, ?_, ?_⟩
    · rw [hseq, List.length_append]; omega
    · dsimp only
      rw [hseq]; omega
    · intro hne
      by_cases hnil : chunk = []
      · subst hnil
        rw [List.append_nil] at hne ⊢
        exact h.covered hne
      · refine ⟨newest, h.sent, ?_⟩
        have := hwindow hnil
        simp only [h.oldest, UInt32.sub_self, UInt32.toNat_zero, List.length_append]
          at hflight this ⊢
        omega
  · intro p hp
    rcases hcut.packets with ⟨rfl, -, -⟩ | rfl
    · cases hp
    obtain rfl := List.mem_singleton.1 hp
    have hadmits : ∀ q ∈ dataSeqs (c.dataPacket w c.sendSeq eom chunk), newest.Admits q := by
      intro q hq
      rw [dataSeqs_dataPacket] at hq
      obtain ⟨j, hj, rfl⟩ := List.mem_map.1 hq
      have hj := List.mem_range.1 hj
      have hw := hwindow (List.ne_nil_of_length_pos (by omega))
      have hwlt := newest.window.toNat_lt
      rw [h.oldest] at hw
      simp only [Advert.Admits, UInt32.toNat_sub, UInt32.toNat_add] at hw ⊢
      rw [UInt32.toNat_ofNat_of_lt' (by simp only [UInt32.size]; omega)]
      have := c.sendSeq.toNat_lt
      have := newest.next.toNat_lt
      omega
    refine ⟨?_, fun q hq => ⟨newest, h.sent, hadmits q hq⟩, fun _ => hadmits⟩
    rw [← h.ourConnId]
    exact plain_dataPacket c w c.sendSeq eom chunk

theorem Paced.pump {c : Connection} (h : Paced Sent newest id c) (w : UInt16)
    (now : Option Micros) {first : Prop} : Paces Sent newest id first c (c.pump w now) := by
  refine Connection.pump_induct (Q := fun c e => Paced Sent newest id c →
    Paces Sent newest id first c e) w now (fun _ => .quiet) (fun f hc ih h => ?_) c h
  obtain ⟨chunk, eom, hcut⟩ := Connection.cut_cases hc
  exact (h.cut hcut).andThen (ih _)

/-! ## The other operations -/

theorem Paced.resendUnacked {c : Connection} (h : Paced Sent newest id c) (w : UInt16)
    (now : Micros) : Paces Sent newest id False c (c.resendUnacked w now) := by
  unfold Connection.resendUnacked
  split
  · exact .quiet h
  · rename_i hne
    refine ⟨h.congr rfl h.attn, rfl, fun p hp => ?_⟩
    obtain ⟨i, hi⟩ := List.mem_iff_getElem?.1 hp
    simp only [List.getElem?_mapIdx, Option.map_eq_some_iff] at hi
    obtain ⟨chunk, hchunk, rfl⟩ := hi
    obtain ⟨-, rfl⟩ := chunks_getElem? hchunk
    obtain ⟨ad, had, hcover⟩ := h.covered hne
    refine ⟨?_, fun q hq => ⟨ad, had, ?_⟩, fun hf => hf.elim⟩
    · rw [← h.ourConnId]
      exact plain_dataPacket c w _ false _
    · rw [dataSeqs_dataPacket] at hq
      obtain ⟨j, hj, rfl⟩ := List.mem_map.1 hq
      have hj := List.mem_range.1 hj
      rw [List.length_take, List.length_drop] at hj
      have hwlt := ad.window.toNat_lt
      have hsmall : i * ADSP_MAX_DATA + j < c.flightBuffer.length := by omega
      simp only [Advert.Admits]
      rw [UInt32.add_assoc, ← UInt32.ofNat_add, UInt32.toNat_sub, UInt32.toNat_add,
        UInt32.toNat_ofNat_of_lt' (by simp only [UInt32.size]; omega)]
      rw [UInt32.toNat_sub] at hcover
      have := c.oldestUnackedSeq.toNat_lt
      have := ad.next.toNat_lt
      omega

theorem Paced.sendAck {c : Connection} (h : Paced Sent newest id c) (w : UInt16) {first : Prop} :
    Paces Sent newest id first c (c.sendAck w) := by
  refine ⟨h, rfl, fun p hp => ?_⟩
  obtain rfl := List.mem_singleton.1 hp
  rw [← h.ourConnId]
  exact .of_nil (plain_control (Or.inl rfl) rfl) (dataSeqs_control (Or.inl rfl) rfl)

theorem Paced.startAttention {c : Connection} (h : Paced Sent newest id c) (code : UInt16)
    (data : Bytes) (now : Micros) {first : Prop} :
    Paces Sent newest id first c (c.startAttention code data now) := by
  have hattn := attentionDatagram_build c.ourConnId c.attnSendSeq c.attnRecvSeq code data
  rw [h.ourConnId] at hattn
  refine ⟨h.congr rfl fun a ha => ?_, rfl, fun p hp => ?_⟩
  · obtain rfl := Option.some.inj ha
    simp only [h.ourConnId]; exact hattn
  · obtain rfl := List.mem_singleton.1 hp
    rw [h.ourConnId]
    exact .of_nil hattn.plain hattn.dataSeqs

theorem Paced.handleAttention {c : Connection} (h : Paced Sent newest id c) (key : UInt16)
    (packet : AdspPacket) (data : Bytes) {first : Prop} :
    Paces Sent newest id first c (c.handleAttention key packet data) := by
  unfold Connection.handleAttention
  split
  · exact .quiet h
  dsimp only
  have hpaced : Paced Sent newest id
      (if (packet.firstByteSeq == c.attnRecvSeq) = true then
        { c with attnRecvSeq := c.attnRecvSeq + 1 } else c) := by
    split
    · exact h.congr rfl h.attn
    · exact h
  have hremote : (if (packet.firstByteSeq == c.attnRecvSeq) = true then
      { c with attnRecvSeq := c.attnRecvSeq + 1 } else c).remote = c.remote := by
    split <;> rfl
  generalize (if (packet.firstByteSeq == c.attnRecvSeq) = true then
    { c with attnRecvSeq := c.attnRecvSeq + 1 } else c) = c' at hpaced hremote ⊢
  refine ⟨hpaced, hremote, fun p hp => ?_⟩
  obtain rfl := List.mem_singleton.1 hp
  have hattn := attentionDatagram_reply c' (readBe16 data)
  rw [hpaced.ourConnId] at hattn ⊢
  exact .of_nil hattn.plain hattn.dataSeqs

theorem Paced.handleAttentionAck {c : Connection} (h : Paced Sent newest id c) (key : UInt16)
    (packet : AdspPacket) {first : Prop} :
    Paces Sent newest id first c (c.handleAttentionAck key packet) := by
  unfold Connection.handleAttentionAck
  split
  · exact .quiet h
  split
  · exact .quiet h
  · exact ⟨h.congr rfl nofun, rfl, nofun⟩

theorem Paced.pollAttention {c : Connection} (h : Paced Sent newest id c) (key : UInt16)
    (now : Micros) {first : Prop} : Paces Sent newest id first c (c.pollAttention key now) := by
  unfold Connection.pollAttention
  split
  · exact .quiet h
  rename_i a ha
  split
  · exact .quiet h
  split
  · exact ⟨h.congr rfl nofun, rfl, nofun⟩
  · refine ⟨h.congr rfl fun b hb => ?_, rfl, fun p hp => ?_⟩
    · obtain rfl := Option.some.inj hb; exact h.attn a ha
    · obtain rfl := List.mem_singleton.1 hp
      exact .of_nil (h.attn a ha).plain (h.attn a ha).dataSeqs

theorem Paced.queueWrite {c : Connection} (h : Paced Sent newest id c) (data : Bytes) (eom : Bool)
    (htotal : (c.sendSeq - c.oldestUnackedSeq).toNat +
      (Connection.queued (c.queueWrite data eom).pendingWrites).length < 2 ^ 32) :
    Paced Sent newest id (c.queueWrite data eom) :=
  ⟨h.ourConnId, h.attn, h.sent, h.oldest, h.window, h.flight, htotal, h.covered⟩

/-! ## Taking an advertisement -/

/-- In order, it acknowledges a number between `oldestUnackedSeq` and `sendSeq`; overtaken, it
    acknowledges nothing and brings no larger window. -/
def TakesOk (newest : Advert) (serial : ℕ) (packet : AdspPacket) (c : Connection) : Prop :=
  if newest.serial < serial then packet.nextRecvSeq = c.oldestUnackedSeq ∨ c.Acks packet
  else ¬ c.Acks packet ∧ packet.recvWindow ≤ newest.window

instance (newest : Advert) (serial : ℕ) (packet : AdspPacket) (c : Connection) :
    Decidable (TakesOk newest serial packet c) := by unfold TakesOk; infer_instance

/-- The newer of what was newest and what has arrived. -/
def Advert.newer (newest ad : Advert) : Advert := if newest.serial < ad.serial then ad else newest

theorem Paced.takeAck {c : Connection} (h : Paced Sent newest id c) {serial : ℕ}
    {packet : AdspPacket} (hok : TakesOk newest serial packet c)
    (hsent : Sent ⟨serial, packet.nextRecvSeq, packet.recvWindow⟩) :
    Paced Sent (newest.newer ⟨serial, packet.nextRecvSeq, packet.recvWindow⟩) id
      (c.takeAck packet) := by
  unfold TakesOk at hok
  unfold Advert.newer Connection.takeAck
  dsimp only
  by_cases hacks : c.Acks packet
  · -- Only a packet in order acknowledges something.
    have hnew : newest.serial < serial := by
      by_contra hold
      rw [if_neg hold] at hok
      exact hok.1 hacks
    rw [if_pos hnew, if_pos hacks]
    obtain ⟨hpos, hle⟩ := hacks
    have hflight := h.flight
    have htotal := h.total
    have hshift : (c.sendSeq - packet.nextRecvSeq).toNat =
        (c.sendSeq - c.oldestUnackedSeq).toNat -
          (packet.nextRecvSeq - c.oldestUnackedSeq).toNat := by
      simp only [UInt32.toNat_sub] at hpos hle ⊢
      have := c.sendSeq.toNat_lt
      have := c.oldestUnackedSeq.toNat_lt
      have := packet.nextRecvSeq.toNat_lt
      omega
    refine ⟨h.ourConnId, h.attn, hsent, rfl, UInt16.le_refl _, ?_, ?_, ?_⟩
    · rw [hshift, List.length_drop]; omega
    · dsimp only
      rw [hshift]; omega
    · intro hne
      obtain ⟨ad, had, hcover⟩ := h.covered (by rintro hnil; simp [hnil] at hne)
      refine ⟨ad, had, ?_⟩
      have hlen := List.length_pos_iff.2 hne
      rw [List.length_drop] at hlen ⊢
      have hmin : min (packet.nextRecvSeq - c.oldestUnackedSeq).toNat c.flightBuffer.length =
          (packet.nextRecvSeq - c.oldestUnackedSeq).toNat := by omega
      rw [hmin] at hlen ⊢
      have hwlt := ad.window.toNat_lt
      simp only [UInt32.toNat_sub] at hcover hlen ⊢
      have := ad.next.toNat_lt
      have := c.oldestUnackedSeq.toNat_lt
      have := packet.nextRecvSeq.toNat_lt
      omega
  · rw [if_neg hacks]
    split
    · rename_i hnew
      rw [if_pos hnew] at hok
      have hold := hok.resolve_right hacks
      exact ⟨h.ourConnId, h.attn, hsent, hold.symm, UInt16.le_refl _, h.flight, h.total, h.covered⟩
    · rename_i hold
      rw [if_neg hold] at hok
      exact ⟨h.ourConnId, h.attn, h.sent, h.oldest, hok.2, h.flight, h.total, h.covered⟩

/-- **A data or control packet**: its window is taken, and what is sent then
    lies in the newest one. -/
theorem Paced.handleData {c : Connection} (h : Paced Sent newest id c) {serial : ℕ}
    {packet : AdspPacket} (hok : TakesOk newest serial packet c)
    (hsent : Sent ⟨serial, packet.nextRecvSeq, packet.recvWindow⟩) (w key : UInt16) (data : Bytes)
    (now : Micros) {first : Prop} :
    Paces Sent (newest.newer ⟨serial, packet.nextRecvSeq, packet.recvWindow⟩) id first c
      (c.handleData w key packet data now) := by
  have hconn := Connection.receive_conn key packet data c
  have htaken : Paced Sent (newest.newer ⟨serial, packet.nextRecvSeq, packet.recvWindow⟩) id
      ((c.receive key packet data).conn.takeAck packet) := by
    rw [hconn, Connection.takeAck_recvSeq]
    exact (h.takeAck hok hsent).congr rfl (h.takeAck hok hsent).attn
  have hremote : ((c.receive key packet data).conn.takeAck packet).remote = c.remote := by
    rw [hconn, Connection.takeAck]
    split <;> rfl
  have happly : Paces Sent (newest.newer ⟨serial, packet.nextRecvSeq, packet.recvWindow⟩) id first
      c ((c.receive key packet data).andThen (Connection.applyAck w packet now)) := by
    have hpump : Paces Sent (newest.newer ⟨serial, packet.nextRecvSeq, packet.recvWindow⟩) id
        first c _ := (htaken.pump w (some now)).congr hremote
    rw [← Connection.applyAck_eq] at hpump
    refine ⟨hpump.paced, hpump.remote, ?_⟩
    simp only [Effect.andThen, Connection.receive_packets, List.nil_append]
    exact hpump.packets
  rw [Connection.handleData_eq]
  refine happly.andThen fun h' => ?_
  split
  · exact h'.sendAck w
  · exact .quiet h'

end

/-! ## A host -/

section
variable (Sent : Advert → Prop) (newest : Advert) (id : UInt16) (remote : ServiceAddress)

/-- A host whose connection keeps to the newest advertisement. -/
structure FlowHost (h : AdspHost) : Prop where
  solo : h.Solo
  paced : ∀ c, h.connection = some c → Paced Sent newest id c ∧ c.remote = remote

/-- A host that moves from `h` to `t`, queueing datagrams that lie in
    windows. -/
structure FlowStep (first : Prop) (h t : AdspHost) : Prop where
  host : FlowHost Sent newest id remote t
  conn : t.conn = h.conn
  queued : ∃ bodies : List Bytes, t.ep.outbox = h.ep.outbox ++ bodies.map (fun b => (remote, b)) ∧
    ∀ b ∈ bodies, InWindow Sent newest id first b

variable {Sent newest id remote} {h : AdspHost} {first : Prop}

theorem FlowHost.same (hh : FlowHost Sent newest id remote h) {t : AdspHost}
    (hconn : t.conn = h.conn) (hcs : t.ep.connections = h.ep.connections)
    (hopens : t.ep.pendingOpens = h.ep.pendingOpens) (hout : t.ep.outbox = h.ep.outbox) :
    FlowStep Sent newest id remote first h t := by
  have hc : t.connection = h.connection := by rw [AdspHost.connection, hconn, hcs]; rfl
  refine ⟨⟨⟨fun k hk => ?_, by rw [hopens]; exact hh.solo.opens⟩, ?_⟩, hconn, [], ?_, ?_⟩
  · rw [hcs]; exact hh.solo.others k (hconn ▸ hk)
  · rw [hc]; exact hh.paced
  · rw [hout]; simp
  · intro b hb
    cases hb

theorem FlowStep.trans {t u : AdspHost} (ht : FlowStep Sent newest id remote first h t)
    (hu : FlowHost Sent newest id remote t → FlowStep Sent newest id remote first t u) :
    FlowStep Sent newest id remote first h u := by
  obtain ⟨hhost, hconn, bodies, hout, hin⟩ := hu ht.host
  obtain ⟨bodies', hout', hin'⟩ := ht.queued
  refine ⟨hhost, hconn.trans ht.conn, bodies' ++ bodies, ?_, fun b hb => ?_⟩
  · rw [hout, hout', List.map_append, List.append_assoc]
  · rcases List.mem_append.1 hb with hb | hb
    · exact hin' b hb
    · exact hin b hb

theorem FlowStep.of_first {t : AdspHost} {first' : Prop}
    (ht : FlowStep Sent newest id remote first h t) (himp : first' → first) :
    FlowStep Sent newest id remote first' h t := by
  obtain ⟨bodies, hout, hin⟩ := ht.queued
  exact ⟨ht.host, ht.conn, bodies, hout, fun b hb =>
    ⟨(hin b hb).talks, (hin b hb).sent, fun hf => (hin b hb).newest (himp hf)⟩⟩

theorem FlowHost.onConn {newest' : Advert} (hh : FlowHost Sent newest id remote h)
    {f : Connection → Effect} (hf : ∀ c, h.connection = some c → Paced Sent newest id c →
      Paces Sent newest' id first c (f c)) :
    FlowStep Sent newest' id remote first h (h.onConn f) := by
  rcases hc : h.connection with _ | c
  · rw [AdspHost.onConn_none hc]
    refine ⟨⟨hh.solo, fun c hc' => ?_⟩, rfl, [], by simp, nofun⟩
    rw [hc] at hc'; cases hc'
  obtain ⟨hpaced, hremote⟩ := hh.paced c hc
  have hstep := hf c hc hpaced
  refine ⟨⟨hh.solo.onConn f, fun c' hc' => ?_⟩, rfl, (f c).packets, ?_, hstep.packets⟩
  · rw [AdspHost.connection_onConn hc] at hc'
    obtain rfl := Option.some.inj hc'
    exact ⟨hstep.paced, hstep.remote.trans hremote⟩
  · rw [AdspHost.outbox_onConn hc, hstep.remote, hremote]

theorem FlowHost.closed (hh : FlowHost Sent newest id remote h) :
    FlowStep Sent newest id remote first h h.closed := by
  refine ⟨⟨hh.solo.closed, fun c hc => ?_⟩, rfl, [], by simp [AdspHost.closed,
    AdspEndpoint.emit, AdspEndpoint.forget], nofun⟩
  rw [AdspHost.connection_closed] at hc; cases hc

theorem FlowHost.close (hh : FlowHost Sent newest id remote h) :
    FlowStep Sent newest id remote first h (h.call .close) := by
  rcases hc : h.connection with _ | c
  · rw [AdspHost.call_close_none hc]
    exact hh.same rfl rfl rfl rfl
  obtain ⟨hpaced, hremote⟩ := hh.paced c hc
  rw [AdspHost.connection] at hc
  simp only [AdspHost.call, AdspEndpoint.close, hc]
  refine ⟨⟨hh.solo.forget rfl rfl, fun c' hc' => ?_⟩, rfl,
    [({ descriptor := .closeAdvice
        connectionId := c.ourConnId
        firstByteSeq := c.sendSeq
        nextRecvSeq := c.recvSeq
        recvWindow := 0
        flags := 0 } : AdspPacket).toBytes], ?_, fun b hb => ?_⟩
  · simp [AdspHost.connection, AdspEndpoint.push, AdspEndpoint.forget] at hc'
  · rw [← hremote]; rfl
  · obtain rfl := List.mem_singleton.1 hb
    rw [← hpaced.ourConnId]
    exact .of_nil (plain_control (Or.inr rfl) rfl) (dataSeqs_control (Or.inr rfl) rfl)

/-- The sequence numbers in flight and queued stay apart. -/
def FlowCallOk (h : AdspHost) : AdspCall → Prop
  | .send data eom => ∀ c ∈ h.connection, (c.sendSeq - c.oldestUnackedSeq).toNat +
      (Connection.queued (c.queueWrite data eom).pendingWrites).length < 2 ^ 32
  | _ => True

instance (h : AdspHost) : ∀ c, Decidable (FlowCallOk h c)
  | .send _ _ => by unfold FlowCallOk; infer_instance
  | .sendAttention .. | .close | .setRecvWindow _ | .poll _ | .pollEvent =>
    inferInstanceAs (Decidable True)

/-- **What a call sends.**  Polling is the one that may send again. -/
theorem FlowHost.call (hh : FlowHost Sent newest id remote h) (c : AdspCall)
    (hok : FlowCallOk h c) :
    FlowStep Sent newest id remote (∀ now, c ≠ .poll now) h (h.call c) := by
  cases c with
  | send data eom =>
    rcases hc : h.connection with _ | c
    · rw [AdspHost.call_send_none hc]; exact hh.same rfl rfl rfl rfl
    · rw [AdspHost.call_send_some hc]
      refine (hh.onConn fun c hc hpaced => ?_).trans fun hh' => hh'.same rfl rfl rfl rfl
      exact ((hpaced.queueWrite data eom (hok c hc)).pump h.ep.recvWindow none).congr rfl
  | sendAttention code data now =>
    by_cases hfree : ∃ c, h.connection = some c ∧ c.attnInFlight = none
    · obtain ⟨c, hc, ha⟩ := hfree
      rw [AdspHost.call_sendAttention hc ha]
      exact (hh.onConn fun c _ hpaced => hpaced.startAttention code data now).trans
        fun hh' => hh'.same rfl rfl rfl rfl
    · rw [AdspHost.call_sendAttention_refused fun c hc ha => hfree ⟨c, hc, ha⟩]
      exact hh.same rfl rfl rfl rfl
  | close => exact hh.close
  | setRecvWindow w =>
    have hw : FlowStep Sent newest id remote (∀ now, AdspCall.setRecvWindow w ≠ .poll now) h
        (h.withWindow w) := hh.same rfl rfl rfl rfl
    rw [AdspHost.call_setRecvWindow hh.solo]
    split
    · exact hw.trans fun hh' => hh'.onConn fun c _ hpaced => hpaced.sendAck w
    · exact hw
  | poll now =>
    rw [AdspHost.call_poll hh.solo]
    have hattn : FlowStep Sent newest id remote False h
        (h.onConn (Connection.pollAttention h.conn now)) :=
      hh.onConn fun c _ hpaced => hpaced.pollAttention h.conn now
    refine (hattn.trans fun hh' => ?_).of_first fun hpoll => hpoll now rfl
    generalize h.onConn (Connection.pollAttention h.conn now) = t at hh' ⊢
    rcases t.pollData_cases now with hp | hp | ⟨c, hc, hdue, hlt, hp⟩ <;> rw [hp]
    · exact hh'.same rfl rfl rfl rfl
    · exact hh'.closed
    · refine hh'.onConn fun c' _ hpaced => ?_
      have hretried : Paced Sent newest id { c' with retries := c'.retries + 1 } :=
        hpaced.congr rfl hpaced.attn
      exact (hretried.resendUnacked t.ep.recvWindow now).congr rfl
  | pollEvent => exact hh.same rfl rfl rfl rfl

/-- The newest advertisement after a datagram has arrived. -/
def Advert.after (newest : Advert) (serial : ℕ) (body : Bytes) : Advert :=
  (advertOf serial body).elim newest newest.newer

theorem ackBearing_eq_some {body : Bytes} {packet : AdspPacket} :
    ackBearing body = some packet ↔ AdspPacket.parse body = .ok packet ∧
      packet.flags &&& AdspPacket.FLAG_ATTENTION = 0 ∧
      (packet.descriptor = .dataPacket ∨ packet.descriptor = .controlPacket) := by
  unfold ackBearing
  rcases AdspPacket.parse body with err | p
  · simp [Except.toOption]
  · simp only [Except.toOption, Option.filter_eq_some_iff, Option.some.injEq, decide_eq_true_eq,
      Except.ok.injEq]

/-- **What a datagram sends.** -/
theorem FlowHost.recv (hh : FlowHost Sent newest id remote h) {serial : ℕ} {body : Bytes}
    (htalks : AdspHost.Plain h.conn body)
    (hok : ∀ packet ∈ ackBearing body, ∀ c ∈ h.connection, TakesOk newest serial packet c)
    (hsent : ∀ ad ∈ advertOf serial body, Sent ad) (src : ServiceAddress) (now : Micros) :
    FlowStep Sent (newest.after serial body) id remote True h (h.recv src body now) := by
  rcases hack : ackBearing body with _ | packet
  · have hsame : newest.after serial body = newest := by
      simp [Advert.after, advertOf, hack]
    rw [hsame]
    have hrecv := AdspHost.recv_plain htalks src now
    generalize h.recv src body now = t at hrecv ⊢
    cases hrecv with
    | ignored => exact hh.same rfl rfl rfl rfl
    | attentionAck packet hp ha hc =>
      exact hh.onConn fun c _ hpaced => hpaced.handleAttentionAck h.conn packet
    | attention packet hp ha hc =>
      exact hh.onConn fun c _ hpaced => hpaced.handleAttention h.conn packet _
    | data packet hp ha hd =>
      rw [ackBearing_eq_some.2 ⟨hp, ha, hd⟩] at hack; cases hack
    | closed => exact hh.closed
  · obtain ⟨hp, ha, hd⟩ := ackBearing_eq_some.1 hack
    have had : advertOf serial body = some ⟨serial, packet.nextRecvSeq, packet.recvWindow⟩ := by
      rw [advertOf, hack]; rfl
    have hnew : newest.after serial body =
        newest.newer ⟨serial, packet.nextRecvSeq, packet.recvWindow⟩ := by
      rw [Advert.after, had]; rfl
    have hrecv : h.recv src body now = h.onConn (Connection.handleData h.ep.recvWindow h.conn
        packet (body.drop AdspPacket.HEADER_LEN) now) := by
      have hid := (htalks packet hp).1
      have hattn : ¬ packet.flags &&& AdspPacket.FLAG_ATTENTION ≠ 0 := not_not_intro ha
      simp only [AdspHost.recv, AdspEndpoint.handleDatagram, hp, if_neg hattn, hid]
      rcases hd with hd | hd <;> rw [hd] <;> rfl
    rw [hnew, hrecv]
    exact hh.onConn fun c hc hpaced =>
      hpaced.handleData (hok packet hack c hc) (hsent _ had) _ _ _ now

end

/-! ## The two hosts and the record -/

/-- Two hosts and their network, with a record of the datagrams. -/
structure FlowNet where
  net : AdspNet
  /-- the window that the peer of a side advertised when the connection was
      opened -/
  opening : Bool → UInt16
  /-- everything a side has queued, in order -/
  log : Bool → List Bytes
  /-- how much of that has left its outbox -/
  taken : Bool → ℕ
  /-- the place in its sender's log of each datagram on the wire -/
  places : List ℕ
  /-- the newest advertisement that has reached a side -/
  newest : Bool → Advert

namespace FlowNet

/-- What a side queues from one state of the network to the next. -/
def queued (net net' : AdspNet) (i : Bool) : List Bytes :=
  ((net'.host i).ep.outbox.drop (net.host i).ep.outbox.length).map (·.2)

/-- One step of the network, recorded. -/
def step (addr : Bool → ServiceAddress) (s : FlowNet) (a : Net.Act AdspCall Bool) : FlowNet :=
  let net := Net.step adspParty addr s.net a
  match a with
  | .call i _ => { s with
      net, log := Function.update s.log i (s.log i ++ queued s.net net i) }
  | .transmit i =>
    if (s.net.host i).ep.outbox = [] then { s with net }
    else { s with
      net
      taken := Function.update s.taken i (s.taken i + 1)
      places := s.places ++ [s.taken i] }
  | .deliver i n _ =>
    match s.net.wire[n]?, s.places[n]? with
    | some f, some place =>
      if f.dst = addr i then { s with
        net
        log := Function.update s.log i (s.log i ++ queued s.net net i)
        newest := Function.update s.newest i ((s.newest i).after (place + 1) f.body) }
      else { s with net }
    | _, _ => { s with net }
  | .drop n => { s with net, places := s.places.eraseIdx n }

/-- Two joined hosts with nothing queued, and the window each was told at the open. -/
def start (net : AdspNet) : FlowNet :=
  let opening := fun i => ((net.host i).connection.map (·.sendWindow)).getD 0
  { net
    opening
    log := fun _ => []
    taken := fun _ => 0
    places := []
    newest := fun i => ⟨0, 0, opening i⟩ }

/-- The advertisement that opened a connection, and those in a log. -/
def adverts (opening : UInt16) (log : List Bytes) : List Advert :=
  ⟨0, 0, opening⟩ :: log.zipIdx.filterMap fun bk => advertOf (bk.2 + 1) bk.1

/-- The advertisements that the peer of `i` has made. -/
def Advertised (s : FlowNet) (i : Bool) (ad : Advert) : Prop :=
  ad ∈ adverts (s.opening i) (s.log !i)

instance (s : FlowNet) (i : Bool) (ad : Advert) : Decidable (s.Advertised i ad) :=
  inferInstanceAs (Decidable (_ ∈ _))

/-- Sequence numbers in use stay apart, and an overtaken advertisement brings no larger window. -/
def Ok (addr : Bool → ServiceAddress) (s : FlowNet) : Net.Act AdspCall Bool → Prop
  | .call i c => FlowCallOk (s.net.host i) c
  | .deliver i n _ => ∀ f ∈ s.net.wire[n]?, ∀ place ∈ s.places[n]?, f.dst = addr i →
      ∀ packet ∈ ackBearing f.body, ∀ c ∈ (s.net.host i).connection,
        TakesOk (s.newest i) (place + 1) packet c
  | _ => True

instance (addr : Bool → ServiceAddress) (s : FlowNet) : ∀ a, Decidable (s.Ok addr a)
  | .call _ _ => by unfold Ok; infer_instance
  | .deliver _ _ _ => by unfold Ok; infer_instance
  | .transmit _ | .drop _ => inferInstanceAs (Decidable True)

/-- The record changes nothing. -/
theorem net_step (addr : Bool → ServiceAddress) (s : FlowNet) (a : Net.Act AdspCall Bool) :
    (s.step addr a).net = Net.step adspParty addr s.net a := by
  cases a with
  | call i c => rfl
  | transmit i => simp only [step]; split <;> rfl
  | deliver i n now =>
    simp only [step]
    split
    · split <;> rfl
    · rfl
  | drop n => rfl

/-- The invariant: both hosts are paced, and the record is right. -/
structure Good (addr : Bool → ServiceAddress) (s : FlowNet) : Prop where
  hosts : ∀ i, FlowHost (s.Advertised i) (s.newest i) (s.net.host !i).conn (addr !i) (s.net.host i)
  talks : ∀ i, ∀ body ∈ s.log i, AdspHost.Plain (s.net.host !i).conn body
  taken : ∀ i, s.taken i ≤ (s.log i).length
  outbox : ∀ i, (s.net.host i).ep.outbox =
    ((s.log i).drop (s.taken i)).map fun body => (addr (!i), body)
  places : s.places.length = s.net.wire.length
  wire : ∀ (n : ℕ) (f : Flight ServiceAddress Bytes) (place : ℕ), s.net.wire[n]? = some f →
    s.places[n]? = some place →
    ∃ j, f.src = addr j ∧ f.dst = addr (!j) ∧ (s.log j)[place]? = some f.body

theorem mem_adverts_mono {opening : UInt16} {log log' : List Bytes} {ad : Advert}
    (h : ad ∈ adverts opening log) (hlog : log <+: log') : ad ∈ adverts opening log' := by
  obtain ⟨more, rfl⟩ := hlog
  rw [adverts, List.zipIdx_append, List.filterMap_append]
  exact List.mem_cons.2 ((List.mem_cons.1 h).imp_right (List.mem_append_left _))

theorem mem_adverts {opening : UInt16} {log : List Bytes} {place : ℕ} {body : Bytes} {ad : Advert}
    (hget : log[place]? = some body) (had : advertOf (place + 1) body = some ad) :
    ad ∈ adverts opening log :=
  List.mem_cons_of_mem _ (List.mem_filterMap.2
    ⟨(body, place), List.mk_mem_zipIdx_iff_getElem?.2 hget, had⟩)

section
variable {addr : Bool → ServiceAddress} {s : FlowNet}

theorem queued_eq {net net' : AdspNet} {i : Bool} {bodies : List Bytes} {remote : ServiceAddress}
    (h : (net'.host i).ep.outbox =
      (net.host i).ep.outbox ++ bodies.map fun b => (remote, b)) : queued net net' i = bodies := by
  rw [queued, h, List.drop_left, List.map_map]
  exact List.map_id _

theorem queued_eq_nil {net net' : AdspNet} {i : Bool}
    (h : (net'.host i).ep.outbox.length ≤ (net.host i).ep.outbox.length) :
    queued net net' i = [] := by
  rw [queued, List.drop_eq_nil_of_le h, List.map_nil]

theorem good_start {net : AdspNet} (h : Joined addr net) : (start net).Good addr := by
  refine ⟨fun i => ⟨⟨h.others i, h.opens i⟩, fun c hc => ?_⟩, fun i => nofun,
    fun i => Nat.le_refl _, fun i => ?_, ?_, ?_⟩
  · obtain ⟨window, now, hfresh⟩ := h.fresh i
    have hc' : (net.host i).connection = some c := hc
    rw [hfresh] at hc'
    obtain rfl := Option.some.inj hc'
    have hopening : (start net).opening i = window := by simp [start, hfresh, Connection.new]
    have hnewest : (start net).newest i = ⟨0, 0, window⟩ := by simp [start, hfresh, Connection.new]
    refine ⟨⟨rfl, nofun, ?_, ?_, ?_, Nat.zero_le _, ?_, fun hne => absurd rfl hne⟩, rfl⟩
    · rw [hnewest, Advertised, hopening]
      exact List.mem_cons_self
    · rw [hnewest]; rfl
    · rw [hnewest]; exact UInt16.le_refl _
    · show ((0 : UInt32) - 0).toNat + 0 < 2 ^ 32
      decide
  · simp [start, h.outbox i]
  · simp [start, h.wire]
  · intro n f place hf
    simp [start, h.wire] at hf

theorem FlowHost.mono {Sent Sent' : Advert → Prop} {newest : Advert} {id : UInt16}
    {remote : ServiceAddress} {h : AdspHost} (hh : FlowHost Sent newest id remote h)
    (himp : ∀ ad, Sent ad → Sent' ad) : FlowHost Sent' newest id remote h := by
  refine ⟨hh.solo, fun c hc => ?_⟩
  obtain ⟨hp, hremote⟩ := hh.paced c hc
  refine ⟨⟨hp.ourConnId, hp.attn, himp _ hp.sent, hp.oldest, hp.window, hp.flight, hp.total,
    fun hne => ?_⟩, hremote⟩
  obtain ⟨ad, had, hcover⟩ := hp.covered hne
  exact ⟨ad, himp ad had, hcover⟩

theorem Good.move (hg : s.Good addr) {i : Bool} {t : AdspHost} {first : Prop} {s' : FlowNet}
    (hstep : FlowStep (s.Advertised i) (s'.newest i) (s.net.host !i).conn (addr !i) first
      (s.net.host i) t)
    (hnet : s'.net = s.net.set i t) (hopening : s'.opening = s.opening)
    (hlog : s'.log = Function.update s.log i (s.log i ++ queued s.net s'.net i))
    (htaken : s'.taken = s.taken) (hplaces : s'.places = s.places)
    (hnewest : s'.newest (!i) = s.newest (!i)) : s'.Good addr := by
  obtain ⟨hhost, hconn, bodies, hout, hin⟩ := hstep
  have hmine : s'.net.host i = t := by rw [hnet]; exact Function.update_self ..
  have hpeer : s'.net.host (!i) = s.net.host !i := by
    rw [hnet]; exact Function.update_of_ne (by simp) ..
  have hbodies : queued s.net s'.net i = bodies := queued_eq (by rw [hmine, hout])
  rw [hbodies] at hlog
  have hlogMine : s'.log i = s.log i ++ bodies := by rw [hlog, Function.update_self]
  have hlogPeer : s'.log (!i) = s.log !i := by
    rw [hlog]; exact Function.update_of_ne (by simp) ..
  have hgrow : ∀ j, s.log j <+: s'.log j := by
    intro j
    by_cases hj : j = i
    · subst hj; rw [hlogMine]; exact List.prefix_append _ _
    · obtain rfl : j = !i := Bool.eq_not_of_ne hj
      exact ⟨[], (List.append_nil _).trans hlogPeer.symm⟩
  have hwire : s'.net.wire = s.net.wire := by rw [hnet]; rfl
  refine ⟨fun j => ?_, fun j => ?_, fun j => ?_, fun j => ?_, ?_, fun n f place hf hplace => ?_⟩
  · by_cases hj : j = i
    · subst hj
      have hsame : s'.Advertised j = s.Advertised j := by
        funext ad; rw [Advertised, hopening, hlogPeer]; rfl
      rw [hmine, hpeer, hsame]; exact hhost
    · obtain rfl : j = !i := Bool.eq_not_of_ne hj
      have hold := hg.hosts !i
      rw [Bool.not_not] at hold
      rw [hpeer, Bool.not_not, hmine, hconn, hnewest]
      refine FlowHost.mono hold fun ad had => ?_
      rw [Advertised, Bool.not_not] at had
      rw [Advertised, hopening, Bool.not_not]
      exact mem_adverts_mono had (hgrow i)
  · by_cases hj : j = i
    · subst hj
      rw [hlogMine, hpeer]
      intro body hbody
      rcases List.mem_append.1 hbody with hbody | hbody
      · exact hg.talks j body hbody
      · exact (hin body hbody).talks
    · obtain rfl : j = !i := Bool.eq_not_of_ne hj
      rw [hlogPeer, Bool.not_not, hmine, hconn]
      simpa using hg.talks !i
  · rw [htaken]
    exact Nat.le_trans (hg.taken j) (hgrow j).length_le
  · rw [htaken]
    by_cases hj : j = i
    · subst hj
      rw [hmine, hlogMine, hout, hg.outbox j, List.drop_append_of_le_length (hg.taken j),
        List.map_append]
    · obtain rfl : j = !i := Bool.eq_not_of_ne hj
      rw [hpeer, hlogPeer]; exact hg.outbox !i
  · rw [hplaces, hwire]; exact hg.places
  · rw [hwire] at hf
    rw [hplaces] at hplace
    obtain ⟨j, hsrc, hdst, hget⟩ := hg.wire n f place hf hplace
    refine ⟨j, hsrc, hdst, ?_⟩
    obtain ⟨more, hmore⟩ := hgrow j
    rw [← hmore, List.getElem?_append_left (List.getElem?_eq_some_iff.1 hget).1, hget]

/-- What reaches a side was queued by its peer. -/
theorem Good.arrives (hg : s.Good addr) (hne : addr true ≠ addr false) {n : ℕ}
    {f : Flight ServiceAddress Bytes} {place : ℕ} {i : Bool} (hf : s.net.wire[n]? = some f)
    (hplace : s.places[n]? = some place) (hdst : f.dst = addr i) :
    (s.log !i)[place]? = some f.body := by
  obtain ⟨j, -, hdst', hget⟩ := hg.wire n f place hf hplace
  obtain rfl : i = !j := Net.addr_injective hne (hdst.symm.trans hdst')
  rwa [Bool.not_not]

/-- What a delivery does to the side it reaches. -/
theorem Good.deliver (hg : s.Good addr) (hne : addr true ≠ addr false) {n : ℕ} {now : Micros}
    {f : Flight ServiceAddress Bytes} {place : ℕ} {i : Bool} (hok : s.Ok addr (.deliver i n now))
    (hf : s.net.wire[n]? = some f) (hplace : s.places[n]? = some place) (hdst : f.dst = addr i) :
    FlowStep (s.Advertised i) ((s.newest i).after (place + 1) f.body) (s.net.host !i).conn
      (addr !i) True (s.net.host i) ((s.net.host i).recv f.src f.body now) := by
  have hget := hg.arrives hne hf hplace hdst
  have htalks := hg.talks (!i) f.body (List.mem_of_getElem? hget)
  rw [Bool.not_not] at htalks
  exact (hg.hosts i).recv htalks (hok f hf place hplace hdst)
    (fun ad had => mem_adverts hget had) f.src now

/-- Taking a datagram out of the outbox of a side. -/
theorem Good.transmit (hg : s.Good addr) (i : Bool) : (s.step addr (.transmit i)).Good addr := by
  have houtbox := hg.outbox i
  have htransmit : adspParty.transmit (s.net.host i) =
      ((s.net.host i).ep.outbox.head?, (s.net.host i).transmit.2) := rfl
  have htail : (s.net.host i).transmit.2.ep.outbox = (s.net.host i).ep.outbox.tail := rfl
  rcases hlog : (s.log i).drop (s.taken i) with _ | ⟨body, rest⟩
  · rw [hlog, List.map_nil] at houtbox
    have hstep : FlowStep (s.Advertised i) (s.newest i) (s.net.host !i).conn (addr !i) True
        (s.net.host i) (s.net.host i).transmit.2 :=
      (hg.hosts i).same rfl rfl rfl (by rw [htail, houtbox]; rfl)
    have hnet : Net.step adspParty addr s.net (.transmit i) =
        s.net.set i (s.net.host i).transmit.2 := by
      simp only [Net.step, htransmit, houtbox, List.head?_nil]
    have hnone : queued s.net (s.net.set i (s.net.host i).transmit.2) i = [] :=
      queued_eq_nil (by
        simp only [Net.set, Function.update_self, htail, houtbox, List.tail_nil, Nat.le_refl])
    simp only [FlowNet.step, houtbox, if_true, hnet]
    refine hg.move hstep rfl rfl ?_ rfl rfl rfl
    simp only [hnone, List.append_nil, Function.update_eq_self]
  · have hlt : s.taken i < (s.log i).length := by
      by_contra hge
      rw [List.drop_eq_nil_of_le (Nat.le_of_not_lt hge)] at hlog; cases hlog
    have hbody : (s.log i)[s.taken i]? = some body := by
      have h0 := congrArg (·[0]?) hlog
      simpa [List.getElem?_drop] using h0
    have hrest : (s.log i).drop (s.taken i + 1) = rest := by
      rw [← List.drop_drop, hlog]; rfl
    rw [hlog, List.map_cons] at houtbox
    have hnet : Net.step adspParty addr s.net (.transmit i) =
        { s.net.set i (s.net.host i).transmit.2 with
          wire := s.net.wire ++ [⟨addr i, addr (!i), body⟩] } := by
      simp only [Net.step, htransmit, houtbox, List.head?_cons]
    have hmine : ∀ j, (s.net.set i (s.net.host i).transmit.2).host j =
        if i = j then (s.net.host i).transmit.2 else s.net.host j := fun j => Net.host_set
    have hconn : ∀ j, ((s.net.set i (s.net.host i).transmit.2).host j).conn =
        (s.net.host j).conn := by
      intro j
      rw [hmine]
      split
      · rename_i hij; rw [← hij]; rfl
      · rfl
    have hne : ¬ (s.net.host i).ep.outbox = [] := by rw [houtbox]; exact List.cons_ne_nil _ _
    simp only [FlowNet.step, hne, if_false, hnet]
    refine ⟨fun j => ?_, fun j => ?_, fun j => ?_, fun j => ?_, ?_, fun n f place hf hplace => ?_⟩
    · have hold : FlowHost (s.Advertised j) (s.newest j) (s.net.host !j).conn (addr !j)
          ((s.net.set i (s.net.host i).transmit.2).host j) := by
        rw [hmine]
        split
        · rename_i hij
          subst hij
          exact ⟨⟨(hg.hosts i).solo.others, (hg.hosts i).solo.opens⟩, (hg.hosts i).paced⟩
        · exact hg.hosts j
      rw [← hconn !j] at hold
      exact hold
    · intro b hb
      change AdspHost.Plain ((s.net.set i (s.net.host i).transmit.2).host !j).conn b
      rw [hconn]
      exact hg.talks j b hb
    · dsimp only
      by_cases hj : j = i
      · subst hj; rw [Function.update_self]; exact hlt
      · rw [Function.update_of_ne hj]; exact hg.taken j
    · dsimp only
      rw [hmine]
      by_cases hj : i = j
      · subst hj
        rw [if_pos rfl, Function.update_self, hrest, htail, houtbox, List.tail_cons]
      · rw [if_neg hj, Function.update_of_ne (Ne.symm hj)]; exact hg.outbox j
    · simp [hg.places]
    · dsimp only at hf hplace ⊢
      by_cases hn : n < s.net.wire.length
      · rw [List.getElem?_append_left hn] at hf
        rw [List.getElem?_append_left (hg.places ▸ hn)] at hplace
        exact hg.wire n f place hf hplace
      · have hlast : n = s.net.wire.length := by
          have hlt := (List.getElem?_eq_some_iff.1 hf).1
          rw [List.length_append, List.length_singleton] at hlt
          omega
        subst hlast
        rw [List.getElem?_concat_length] at hf
        rw [← hg.places, List.getElem?_concat_length] at hplace
        obtain rfl := Option.some.inj hf
        obtain rfl := Option.some.inj hplace
        exact ⟨i, rfl, rfl, hbody⟩

/-- **One step keeps the record right**, and what it queues lies in windows. -/
theorem Good.step (hne : addr true ≠ addr false) (hg : s.Good addr)
    {a : Net.Act AdspCall Bool} (hok : s.Ok addr a) : (s.step addr a).Good addr := by
  cases a with
  | call i c =>
    have hstep := (hg.hosts i).call c hok
    exact hg.move hstep rfl rfl rfl rfl rfl rfl
  | transmit i => exact hg.transmit i
  | deliver i n now =>
    rcases hf : s.net.wire[n]? with _ | f
    · have hidle : s.step addr (.deliver i n now) = s := by
        simp only [FlowNet.step, Net.step, hf]
      rw [hidle]; exact hg
    obtain ⟨place, hplace⟩ : ∃ place, s.places[n]? = some place := by
      have hlt := (List.getElem?_eq_some_iff.1 hf).1
      rw [← hg.places] at hlt
      exact ⟨_, List.getElem?_eq_getElem hlt⟩
    by_cases hdst : f.dst = addr i
    · have hstep := hg.deliver hne hok hf hplace hdst
      have hnet : Net.step adspParty addr s.net (.deliver i n now) =
          s.net.set i ((s.net.host i).recv f.src f.body now) := by
        simp only [Net.step, hf, if_pos hdst]; rfl
      rw [← Function.update_self i ((s.newest i).after (place + 1) f.body) s.newest] at hstep
      simp only [FlowNet.step, hf, hplace, if_pos hdst, hnet]
      exact hg.move hstep rfl rfl rfl rfl rfl (Function.update_of_ne (by simp) ..)
    · have hidle : s.step addr (.deliver i n now) = s := by
        simp only [FlowNet.step, Net.step, hf, hplace, if_neg hdst]
      rw [hidle]; exact hg
  | drop n =>
    refine ⟨hg.hosts, hg.talks, hg.taken, hg.outbox, ?_, fun m f place hf hplace => ?_⟩
    · simp only [FlowNet.step, Net.step, List.length_eraseIdx, hg.places]
    · simp only [FlowNet.step, Net.step, List.getElem?_eraseIdx] at hf hplace
      split at hf
      · rename_i hlt
        rw [if_pos hlt] at hplace
        exact hg.wire m f place hf hplace
      · rename_i hlt
        rw [if_neg hlt] at hplace
        exact hg.wire (m + 1) f place hf hplace

theorem good_run (hne : addr true ≠ addr false) (hg : s.Good addr)
    {as : List (Net.Act AdspCall Bool)} (hok : Along (FlowNet.step addr) (Ok addr) s as) :
    (run (FlowNet.step addr) s as).Good addr :=
  inv_run (FlowNet.step addr) (fun _ _ hg hok => hg.step hne hok) hg hok

theorem windows_queued {Sent : Advert → Prop} {newest : Advert} {id : UInt16}
    {remote : ServiceAddress} {first first' : Prop} {net net' : AdspNet} {i : Bool}
    (h : FlowStep Sent newest id remote first (net.host i) (net'.host i))
    (himp : first' → first) :
    ∀ body ∈ queued net net' i, InWindow Sent newest id first' body := by
  obtain ⟨-, -, bodies, hout, hin⟩ := h.of_first himp
  rw [queued_eq hout]
  exact hin

/-- **What one step queues** lies in windows. -/
theorem Good.queued (hne : addr true ≠ addr false) (hg : s.Good addr)
    {a : Net.Act AdspCall Bool} (hok : s.Ok addr a) (i : Bool) :
    ∀ body ∈ FlowNet.queued s.net (s.step addr a).net i,
      InWindow (s.Advertised i) ((s.step addr a).newest i) (s.net.host !i).conn
        (∀ now, a ≠ .call i (.poll now)) body := by
  rw [net_step]
  have hnone : (Net.step adspParty addr s.net a).host i = s.net.host i →
      ∀ body ∈ FlowNet.queued s.net (Net.step adspParty addr s.net a) i,
      InWindow (s.Advertised i) ((s.step addr a).newest i) (s.net.host !i).conn
        (∀ now, a ≠ .call i (.poll now)) body := by
    intro hsame
    rw [queued_eq_nil (Nat.le_of_eq (by rw [hsame]))]
    exact nofun
  cases a with
  | call j c =>
    by_cases hj : j = i
    · subst hj
      have hmine : (Net.step adspParty addr s.net (.call j c)).host j = (s.net.host j).call c := by
        simp only [Net.step, Net.host_set, if_true]; rfl
      have hstep := (hg.hosts j).call c hok
      rw [← hmine] at hstep
      exact windows_queued hstep fun hfirst now hpoll => hfirst now (congrArg _ hpoll)
    · exact hnone (by simp only [Net.step, Net.host_set, if_neg hj])
  | transmit j =>
    have hout : ((Net.step adspParty addr s.net (.transmit j)).host i).ep.outbox.length ≤
        (s.net.host i).ep.outbox.length := by
      have hstep := Net.host_step adspParty addr i s.net (.transmit j)
      rw [hstep]
      simp only [Net.input]
      split
      · show (s.net.host i).ep.outbox.tail.length ≤ _
        rw [List.length_tail]; exact Nat.sub_le _ _
      · exact Nat.le_refl _
    rw [queued_eq_nil hout]
    exact nofun
  | deliver j n now =>
    rcases hf : s.net.wire[n]? with _ | f
    · exact hnone (by simp only [Net.step, hf])
    by_cases hdst : f.dst = addr j
    · by_cases hj : j = i
      · subst hj
        obtain ⟨place, hplace⟩ : ∃ place, s.places[n]? = some place := by
          have hlt := (List.getElem?_eq_some_iff.1 hf).1
          rw [← hg.places] at hlt
          exact ⟨_, List.getElem?_eq_getElem hlt⟩
        have hnewest : (s.step addr (.deliver j n now)).newest j =
            (s.newest j).after (place + 1) f.body := by
          simp only [FlowNet.step, hf, hplace, if_pos hdst, Function.update_self]
        have hmine : (Net.step adspParty addr s.net (.deliver j n now)).host j =
            (s.net.host j).recv f.src f.body now := by
          simp only [Net.step, hf, if_pos hdst, Net.host_set, if_true]; rfl
        have hstep := hg.deliver hne hok hf hplace hdst
        rw [← hmine] at hstep
        rw [hnewest]
        exact windows_queued hstep fun _ => trivial
      · exact hnone (by simp only [Net.step, hf, if_pos hdst, Net.host_set, if_neg hj])
    · exact hnone (by simp only [Net.step, hf, if_neg hdst])
  | drop n => exact hnone rfl

end

end FlowNet

/-- **Data stays within advertised windows.** In every run whose steps meet `Ok`, whatever the
    network does, every stream byte that is sent lies in a window that the receiver has advertised,
    and if it is not sent by a poll, so not sent again, in the newest one that has arrived. -/
theorem sends_in_window {addr : Bool → ServiceAddress} {net : AdspNet} (h : Joined addr net)
    {as : List (Net.Act AdspCall Bool)} {a : Net.Act AdspCall Bool}
    (hok : Along (FlowNet.step addr) (FlowNet.Ok addr) (FlowNet.start net) (as ++ [a]))
    (i : Bool) (body : Bytes)
    (hbody : body ∈ FlowNet.queued (run (FlowNet.step addr) (FlowNet.start net) as).net
      (run (FlowNet.step addr) (FlowNet.start net) (as ++ [a])).net i) :
    (∀ q ∈ dataSeqs body, ∃ ad,
      (run (FlowNet.step addr) (FlowNet.start net) as).Advertised i ad ∧ ad.Admits q) ∧
    ((∀ now, a ≠ .call i (.poll now)) → ∀ q ∈ dataSeqs body,
      ((run (FlowNet.step addr) (FlowNet.start net) (as ++ [a])).newest i).Admits q) := by
  obtain ⟨has, ha, -⟩ := (Along.append _).1 hok
  have hg := FlowNet.good_run h.addr_ne (FlowNet.good_start h) has
  rw [run_append] at hbody ⊢
  have hin := hg.queued h.addr_ne ha i body hbody
  exact ⟨hin.sent, hin.newest⟩

/-- Two joined hosts whose peers have room for four bytes. -/
def narrowStart : AdspNet := adspStart pairAddr (fun i => if i then 20 else 10) 4

/-- Five bytes are written, four of them fit; the acknowledgement makes room
    for the fifth. -/
def narrowRun : List (Net.Act AdspCall Bool) :=
  [.call false (.setRecvWindow 1), .call true (.send [1, 2, 3, 4, 5] false), .transmit true,
    .deliver false 0 1, .transmit false]

theorem sends_in_window_narrowRun :
    FlowNet.queued (run (FlowNet.step pairAddr) (FlowNet.start narrowStart) narrowRun).net
        (run (FlowNet.step pairAddr) (FlowNet.start narrowStart)
          (narrowRun ++ [.deliver true 1 2])).net true =
      [Connection.dataPacket (Connection.new 10 ⟨0, 2, 131⟩ 1 0) 1024 4 false [5]] ∧
    (∀ q ∈ dataSeqs (Connection.dataPacket (Connection.new 10 ⟨0, 2, 131⟩ 1 0) 1024 4 false [5]),
      ((run (FlowNet.step pairAddr) (FlowNet.start narrowStart)
        (narrowRun ++ [.deliver true 1 2])).newest true).Admits q) := by
  have hj : Joined pairAddr narrowStart := joined_adspStart (by decide) _ _
  have hok : Along (FlowNet.step pairAddr) (FlowNet.Ok pairAddr) (FlowNet.start narrowStart)
      (narrowRun ++ [.deliver true 1 2]) := by decide
  have hqueued : FlowNet.queued
      (run (FlowNet.step pairAddr) (FlowNet.start narrowStart) narrowRun).net
      (run (FlowNet.step pairAddr) (FlowNet.start narrowStart)
        (narrowRun ++ [.deliver true 1 2])).net true =
      [Connection.dataPacket (Connection.new 10 ⟨0, 2, 131⟩ 1 0) 1024 4 false [5]] := by decide
  refine ⟨hqueued, (sends_in_window hj hok true _ ?_).2 nofun⟩
  rw [hqueued]; exact List.mem_singleton_self _

/-- A data packet that advertises four is overtaken by an acknowledgement that advertises one. -/
def overtakenRun : List (Net.Act AdspCall Bool) :=
  [.call false (.setRecvWindow 4), .call false (.send [9] false), .transmit false,
    .call true (.send [1, 2, 3, 4] false), .transmit true, .call false (.setRecvWindow 1),
    .deliver false 1 1, .transmit false, .deliver true 2 2, .deliver true 0 3]

/-- Then four bytes more are sent; the last three of them lie in no window the
    receiver has advertised. -/
theorem overtakenRun_out_of_window :
    Joined pairAddr narrowStart ∧
    FlowNet.queued (run (FlowNet.step pairAddr) (FlowNet.start narrowStart) overtakenRun).net
        (run (FlowNet.step pairAddr) (FlowNet.start narrowStart)
          (overtakenRun ++ [.call true (.send [5, 6, 7, 8] false)])).net true =
      [Connection.dataPacket { Connection.new 10 ⟨0, 2, 131⟩ 1 0 with recvSeq := 1 } 1024 4 false
        [5, 6, 7, 8]] ∧
    (∀ ad ∈ FlowNet.adverts 4 ((run (FlowNet.step pairAddr) (FlowNet.start narrowStart)
      overtakenRun).log false), ¬ ad.Admits 7) ∧
    ¬ ((run (FlowNet.step pairAddr) (FlowNet.start narrowStart) overtakenRun).newest true).Admits
      7 :=
  ⟨joined_adspStart (by decide) _ _, by decide, by decide, by decide⟩

end TailTalk
