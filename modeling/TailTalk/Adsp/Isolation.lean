/-
  Whose datagram a connection heeds.

  A datagram finds its connection by the ConnID it carries, which its sender
  chose; the address it came from is not looked at.  So a datagram from
  anywhere that carries the ConnID of a connection is taken as its peer's,
  unless it `Spares` it: `isolated_iff_spares`.
-/
import TailTalk.Adsp.Datagrams
import TailTalk.Adsp.Endpoint
import TailTalk.Lib.Maps

namespace TailTalk

open Lib

/-- The connection an event is about; a failed open has none. -/
def AdspEvent.about : AdspEvent → Option UInt16
  | .opened conn .. | .data conn .. | .attention conn .. | .attentionAcked conn
  | .attentionFailed conn | .closed conn => some conn
  | .openFailed _ => none

/-- The ConnID in the header of a datagram. -/
def datagramConnId (payload : Bytes) : Option UInt16 :=
  (AdspPacket.parse payload).toOption.map (·.connectionId)

/-- The datagrams queued for a connection: sent to its remote under its own
    ConnID. -/
def Connection.queuedFor (c : Connection) (outbox : List (ServiceAddress × Bytes)) :
    List (ServiceAddress × Bytes) :=
  outbox.filter fun rp => rp.1 = c.remote ∧ datagramConnId rp.2 = some c.ourConnId

/-- The events reported of the connection `k`. -/
def eventsAbout (k : UInt16) (events : List AdspEvent) : List AdspEvent :=
  events.filter fun e => e.about = some k

/-- From `ep` to `ep'` nothing happened to the connection `c` under `k`. -/
structure Isolated (k : UInt16) (c : Connection) (ep ep' : AdspEndpoint) : Prop where
  state : ep'.connections[k]? = some c
  packets : c.queuedFor ep'.outbox = c.queuedFor ep.outbox
  events : eventsAbout k ep'.events = eventsAbout k ep.events

/-! ## Operations keep to their connection -/

section
variable (key : UInt16)

/-- An effect on `c` that speaks for `c` only. -/
structure Own (c : Connection) (e : Effect) : Prop where
  ourConnId : e.conn.ourConnId = c.ourConnId
  remote : e.conn.remote = c.remote
  packets : ∀ p ∈ e.packets, datagramConnId p = some c.ourConnId
  events : ∀ ev ∈ e.events, ev.about = some key

variable {key}

theorem Own.quiet (c : Connection) : Own key c (.quiet c) := ⟨rfl, rfl, nofun, nofun⟩

theorem Own.andThen {c : Connection} {e : Effect} {f : Connection → Effect} (he : Own key c e)
    (hf : ∀ c', Own key c' (f c')) : Own key c (e.andThen f) := by
  have hfe := hf e.conn
  refine ⟨hfe.ourConnId.trans he.ourConnId, hfe.remote.trans he.remote, ?_, ?_⟩
  · intro p hp
    rcases List.mem_append.1 hp with hp | hp
    · exact he.packets p hp
    · rw [← he.ourConnId]; exact hfe.packets p hp
  · intro ev hev
    rcases List.mem_append.1 hev with hev | hev
    · exact he.events ev hev
    · exact hfe.events ev hev

/-- A connection that names the same peer may stand for another. -/
theorem Own.congr {c c' : Connection} {e : Effect} (h : Own key c' e)
    (hid : c'.ourConnId = c.ourConnId) (hremote : c'.remote = c.remote) : Own key c e :=
  ⟨h.ourConnId.trans hid, h.remote.trans hremote, hid ▸ h.packets, h.events⟩

theorem datagramConnId_dataPacket (c : Connection) (w : UInt16) (seq : UInt32) (eom : Bool)
    (chunk : Bytes) : datagramConnId (c.dataPacket w seq eom chunk) = some c.ourConnId := by
  rw [datagramConnId, parse_dataPacket]; rfl

theorem own_cut {c c' : Connection} {w : UInt16} {ps : List Bytes} {chunk : Bytes} {eom : Bool}
    (h : Connection.Cut w c c' ps chunk eom) : Own key c ⟨c', ps, []⟩ := by
  refine ⟨by rw [h.next], by rw [h.next], ?_, nofun⟩
  intro p hp
  rcases h.packets with ⟨rfl, -, -⟩ | rfl
  · cases hp
  · obtain rfl := List.mem_singleton.1 hp
    exact datagramConnId_dataPacket ..

theorem own_pump (w : UInt16) (now : Option Micros) (c : Connection) :
    Own key c (c.pump w now) := by
  refine Connection.pump_induct (Q := Own key) w now .quiet (fun f hc ih => ?_) c
  obtain ⟨chunk, eom, hcut⟩ := Connection.cut_cases hc
  exact (own_cut hcut).andThen ih

theorem own_applyAck (w : UInt16) (packet : AdspPacket) (now : Micros) (c : Connection) :
    Own key c (c.applyAck w packet now) := by
  rw [Connection.applyAck_eq]
  refine (own_pump w _ _).congr ?_ ?_ <;>
    simp only [Connection.takeAck] <;> split_ifs <;> rfl

theorem own_sendAck (w : UInt16) (c : Connection) : Own key c (c.sendAck w) := by
  refine ⟨rfl, rfl, ?_, nofun⟩
  intro p hp
  obtain rfl := List.mem_singleton.1 hp
  rw [datagramConnId, parse_control (Or.inl rfl) rfl]; rfl

theorem own_resendUnacked (w : UInt16) (now : Micros) (c : Connection) :
    Own key c (c.resendUnacked w now) := by
  unfold Connection.resendUnacked
  split_ifs with h
  · exact .quiet c
  · refine ⟨rfl, rfl, ?_, nofun⟩
    intro p hp
    obtain ⟨i, hi, rfl⟩ := List.mem_mapIdx.1 hp
    exact datagramConnId_dataPacket ..

theorem own_receive (packet : AdspPacket) (data : Bytes) (c : Connection) :
    Own key c (c.receive key packet data) := by
  unfold Connection.receive
  dsimp only
  split
  · exact .quiet c
  split
  · refine ⟨rfl, rfl, nofun, ?_⟩
    intro ev hev
    split at hev
    · obtain rfl := List.mem_singleton.1 hev; rfl
    · cases hev
  · exact .quiet c

theorem own_handleData (w : UInt16) (packet : AdspPacket) (data : Bytes) (now : Micros)
    (c : Connection) : Own key c (c.handleData w key packet data now) := by
  unfold Connection.handleData
  refine (((own_receive packet data c).andThen (own_applyAck w packet now)).andThen ?_).andThen
    (own_pump w _)
  intro c'
  split
  · exact own_sendAck w c'
  · exact .quiet c'

theorem own_advice (w : UInt16) (packet : AdspPacket) (now : Micros) (c : Connection) :
    Own key c ((c.applyAck w packet now).andThen (Connection.resendUnacked w now)) :=
  (own_applyAck w packet now c).andThen (own_resendUnacked w now)

theorem own_handleAttention (packet : AdspPacket) (data : Bytes) (c : Connection) :
    Own key c (c.handleAttention key packet data) := by
  unfold Connection.handleAttention
  split
  · exact .quiet c
  · refine ⟨by dsimp only; split <;> rfl, by dsimp only; split <;> rfl, ?_, ?_⟩
    · intro p hp
      obtain rfl := List.mem_singleton.1 hp
      rw [datagramConnId, parse_attentionAck rfl rfl]
      dsimp only [Except.toOption, Option.map]
      split <;> rfl
    · intro ev hev
      dsimp only at hev
      split at hev
      · obtain rfl := List.mem_singleton.1 hev; rfl
      · cases hev

theorem own_handleAttentionAck (packet : AdspPacket) (c : Connection) :
    Own key c (c.handleAttentionAck key packet) := by
  unfold Connection.handleAttentionAck
  split
  · exact .quiet c
  split
  · exact .quiet c
  · refine ⟨rfl, rfl, nofun, ?_⟩
    intro ev hev
    obtain rfl := List.mem_singleton.1 hev; rfl

end

/-! ## When an operation does nothing -/

namespace Connection

/-- A packet carries stream items that this connection has not taken. -/
def Accepts (packet : AdspPacket) (data : Bytes) (c : Connection) : Prop :=
  seqLen data (packet.flags &&& AdspPacket.FLAG_EOM != 0) ≠ 0 ∧
    (c.recvSeq - packet.firstByteSeq).toNat < 2 ^ 31 ∧
    c.recvSeq - packet.firstByteSeq < seqLen data (packet.flags &&& AdspPacket.FLAG_EOM != 0)

/-- A packet brings no other window, acknowledges nothing and unblocks
    nothing. -/
structure IgnoresAck (packet : AdspPacket) (c : Connection) : Prop where
  window : packet.recvWindow = c.sendWindow
  acks : ¬ c.Acks packet
  blocked : c.Blocked

/-- A data or control packet that does nothing to its connection. -/
structure IgnoresData (packet : AdspPacket) (data : Bytes) (c : Connection) : Prop
    extends c.IgnoresAck packet where
  noReply : packet.flags &&& AdspPacket.FLAG_ACK = 0
  accepts : ¬ c.Accepts packet data

/-- A retransmit advice that does nothing to its connection. -/
structure IgnoresAdvice (packet : AdspPacket) (c : Connection) : Prop
    extends c.IgnoresAck packet where
  flight : c.flightBuffer = []

/-- An attention acknowledgement that retires nothing. -/
def IgnoresAttentionAck (packet : AdspPacket) (c : Connection) : Prop :=
  ∀ attn, c.attnInFlight = some attn → packet.nextRecvSeq ≠ attn.seq + 1

/-! ## The frame of the pump -/

/-- The parts of a connection that cutting packets leaves alone. -/
structure SameAcked (c c' : Connection) : Prop where
  oldest : c'.oldestUnackedSeq = c.oldestUnackedSeq
  recvSeq : c'.recvSeq = c.recvSeq
  window : c'.sendWindow = c.sendWindow

theorem sameAcked_pump (w : UInt16) (now : Option Micros) (c : Connection) :
    SameAcked c (c.pump w now).conn := by
  rw [pump]
  generalize backlog c.pendingWrites = fuel
  induction fuel generalizing c with
  | zero => exact ⟨rfl, rfl, rfl⟩
  | succ fuel ih =>
    simp only [pumpLoop]
    rcases hc : c.cut w now with _ | ⟨c', ps⟩
    · exact ⟨rfl, rfl, rfl⟩
    · obtain ⟨chunk, eom, hcut⟩ := cut_cases hc
      obtain ⟨h1, h2, h3⟩ := ih c'
      have hnext := hcut.next
      refine ⟨h1.trans ?_, h2.trans ?_, h3.trans ?_⟩ <;> rw [hnext]

theorem recvSeq_takeAck (packet : AdspPacket) (c : Connection) :
    (c.takeAck packet).recvSeq = c.recvSeq := by
  unfold takeAck; split <;> rfl

theorem receive_of_not_accepts {key : UInt16} {packet : AdspPacket} {data : Bytes}
    {c : Connection} (h : ¬ c.Accepts packet data) : c.receive key packet data = .quiet c := by
  unfold receive
  dsimp only
  split
  · rfl
  · rename_i hz
    rw [if_neg fun hnew => h ⟨hz, hnew⟩]

/-- What is accepted moves `recvSeq`. -/
theorem Accepts.recvSeq_ne {packet : AdspPacket} {data : Bytes} {c : Connection}
    (h : c.Accepts packet data) (key : UInt16) :
    (c.receive key packet data).conn.recvSeq ≠ c.recvSeq := by
  obtain ⟨hz, hnew⟩ := h
  have hlt := UInt32.lt_iff_toNat_lt.1 hnew.2
  unfold receive
  dsimp only
  rw [if_neg hz, if_pos hnew]
  intro heq
  dsimp only at heq
  rw [← heq, UInt32.toNat_sub, UInt32.toNat_add] at hlt
  have := (seqLen data (packet.flags &&& AdspPacket.FLAG_EOM != 0)).toNat_lt
  have := packet.firstByteSeq.toNat_lt
  omega

/-! ## Doing nothing, exactly -/

theorem window_takeAck (packet : AdspPacket) (c : Connection) :
    (c.takeAck packet).sendWindow = packet.recvWindow := by
  unfold takeAck; split <;> rfl

theorem not_acks_of_oldest {packet : AdspPacket} {c : Connection}
    (h : (c.takeAck packet).oldestUnackedSeq = c.oldestUnackedSeq) : ¬ c.Acks packet := by
  intro hack
  rw [takeAck, if_pos hack] at h
  have hold : packet.nextRecvSeq = c.oldestUnackedSeq := h
  simp [Acks, hold] at hack

/-- If the connection comes out of `applyAck` as it went in, the packet did
    nothing to it. -/
theorem IgnoresAck.of_conn {w : UInt16} {packet : AdspPacket} {now : Micros} {c : Connection}
    (h : (c.applyAck w packet now).conn = c) : c.IgnoresAck packet := by
  rw [applyAck_eq] at h
  have hframe := sameAcked_pump w (some now) (c.takeAck packet)
  have hblocked := blocked_pump w (some now) (c.takeAck packet)
  rw [h] at hframe hblocked
  refine ⟨?_, not_acks_of_oldest hframe.oldest.symm, hblocked⟩
  rw [hframe.window, window_takeAck]

theorem IgnoresAck.applyAck {packet : AdspPacket} {c : Connection} (h : c.IgnoresAck packet)
    (w : UInt16) (now : Micros) : c.applyAck w packet now = .quiet c := by
  rw [applyAck_eq, takeAck_eq_self_iff.2 ⟨h.window, h.acks⟩]
  exact h.blocked.pump w _

theorem blocked_applyAck (w : UInt16) (packet : AdspPacket) (now : Micros) (c : Connection) :
    ((c.applyAck w packet now).conn).Blocked := by
  rw [applyAck_eq]; exact blocked_pump ..

theorem quiet_andThen (c : Connection) (f : Connection → Effect) :
    (Effect.quiet c).andThen f = f c := rfl

theorem andThen_pump {e : Effect} (h : e.conn.Blocked) (w : UInt16) (now : Option Micros) :
    e.andThen (pump w now) = e := by
  rw [Effect.andThen, h.pump]
  simp [Effect.quiet]

/-- The last pump of `handleData` finds nothing to do. -/
theorem handleData_eq (w key : UInt16) (packet : AdspPacket) (data : Bytes) (now : Micros)
    (c : Connection) : c.handleData w key packet data now =
      ((c.receive key packet data).andThen (applyAck w packet now)).andThen
        (if packet.flags &&& AdspPacket.FLAG_ACK != 0 then sendAck w else .quiet) := by
  unfold handleData
  refine andThen_pump ?_ w _
  have h := blocked_applyAck w packet now (c.receive key packet data).conn
  split <;> exact h

theorem conn_handleData (w key : UInt16) (packet : AdspPacket) (data : Bytes) (now : Micros)
    (c : Connection) : (c.handleData w key packet data now).conn =
      ((c.receive key packet data).conn.applyAck w packet now).conn := by
  rw [handleData_eq]
  split <;> rfl

theorem packets_handleData (w key : UInt16) (packet : AdspPacket) (data : Bytes) (now : Micros)
    (c : Connection) : (c.handleData w key packet data now).packets = [] ↔
      packet.flags &&& AdspPacket.FLAG_ACK = 0 ∧
        ((c.receive key packet data).conn.applyAck w packet now).packets = [] := by
  rw [handleData_eq]
  by_cases hflag : packet.flags &&& AdspPacket.FLAG_ACK = 0
  · simp [hflag, Effect.andThen, Effect.quiet, receive_packets]
  · simp [hflag, Effect.andThen, sendAck]

theorem recvSeq_applyAck (w : UInt16) (packet : AdspPacket) (now : Micros) (c : Connection) :
    (c.applyAck w packet now).conn.recvSeq = c.recvSeq := by
  rw [applyAck_eq, (sameAcked_pump _ _ _).recvSeq, recvSeq_takeAck]

/-- A data or control packet does nothing to its connection exactly if it
    `IgnoresData`. -/
theorem handleData_eq_quiet_iff {w key : UInt16} {packet : AdspPacket} {data : Bytes}
    {now : Micros} {c : Connection} :
    c.handleData w key packet data now = .quiet c ↔ c.IgnoresData packet data := by
  constructor
  · intro h
    have hconn : (c.handleData w key packet data now).conn = c := by rw [h]; rfl
    have hpackets : (c.handleData w key packet data now).packets = [] := by rw [h]; rfl
    rw [conn_handleData] at hconn
    have haccepts : ¬ c.Accepts packet data := by
      intro hacc
      refine hacc.recvSeq_ne key ?_
      rw [← recvSeq_applyAck w packet now, hconn]
    rw [receive_of_not_accepts haccepts] at hconn
    exact ⟨.of_conn hconn, ((packets_handleData ..).1 hpackets).1, haccepts⟩
  · intro h
    have hflag : (packet.flags &&& AdspPacket.FLAG_ACK != 0) = false := by simp [h.noReply]
    rw [handleData_eq, receive_of_not_accepts h.accepts, quiet_andThen,
      h.toIgnoresAck.applyAck, quiet_andThen, hflag]
    rfl

theorem packets_resendUnacked {w : UInt16} {now : Micros} {c : Connection} :
    (c.resendUnacked w now).packets = [] ↔ c.flightBuffer = [] := by
  unfold resendUnacked
  split_ifs with h
  · simp [h, Effect.quiet]
  · have hpos := List.length_pos_iff.2 h
    simp only [List.mapIdx_eq_nil_iff, h, iff_false]
    intro hnil
    have hlen := congrArg List.length hnil
    simp only [chunks_length, List.length_nil, ADSP_MAX_DATA] at hlen
    omega

theorem resendUnacked_of_nil {w : UInt16} {now : Micros} {c : Connection}
    (h : c.flightBuffer = []) : c.resendUnacked w now = .quiet c := by
  rw [resendUnacked, if_pos h]

theorem advice_eq_quiet_iff {w : UInt16} {packet : AdspPacket} {now : Micros} {c : Connection} :
    (c.applyAck w packet now).andThen (resendUnacked w now) = .quiet c ↔
      c.IgnoresAdvice packet := by
  constructor
  · intro h
    have hpackets := congrArg Effect.packets h
    simp only [Effect.andThen, Effect.quiet, List.append_eq_nil_iff] at hpackets
    have hflight := packets_resendUnacked.1 hpackets.2
    rw [Effect.andThen, resendUnacked_of_nil hflight] at h
    have hconn : (c.applyAck w packet now).conn = c := congrArg Effect.conn h
    exact ⟨.of_conn hconn, hconn ▸ hflight⟩
  · intro h
    rw [h.toIgnoresAck.applyAck, quiet_andThen, resendUnacked_of_nil h.flight]

theorem packets_handleAttention {key : UInt16} {packet : AdspPacket} {data : Bytes}
    {c : Connection} : (c.handleAttention key packet data).packets = [] ↔ data.length < 2 := by
  unfold handleAttention
  split_ifs with h
  · simp [h, Effect.quiet]
  · simp [h]

theorem handleAttention_eq_quiet_iff {key : UInt16} {packet : AdspPacket} {data : Bytes}
    {c : Connection} : c.handleAttention key packet data = .quiet c ↔ data.length < 2 := by
  constructor
  · intro h
    refine packets_handleAttention.1 (?_ : (c.handleAttention key packet data).packets = [])
    rw [h]; rfl
  · intro h
    rw [handleAttention, if_pos h]

theorem packets_handleAttentionAck (key : UInt16) (packet : AdspPacket) (c : Connection) :
    (c.handleAttentionAck key packet).packets = [] := by
  unfold handleAttentionAck
  split
  · rfl
  split <;> rfl

theorem handleAttentionAck_eq_quiet_iff {key : UInt16} {packet : AdspPacket} {c : Connection} :
    c.handleAttentionAck key packet = .quiet c ↔ c.IgnoresAttentionAck packet := by
  unfold handleAttentionAck IgnoresAttentionAck
  rcases hattn : c.attnInFlight with _ | attn
  · simp
  · by_cases hseq : packet.nextRecvSeq = attn.seq + 1
    · simp [hseq, Effect.quiet]
    · simp [hseq]

/-! ## Sending nothing, exactly -/

/-- Nothing queued could be sent now: past empty writes the first one waits for the window. -/
def Mute (c : Connection) : Prop :=
  match c.pendingWrites.dropWhile fun w => w.remaining = 0 ∧ ¬ w.eom with
  | [] => True
  | front :: _ =>
    0 < front.remaining ∧ c.sendWindow.toNat ≤ (c.sendSeq - c.oldestUnackedSeq).toNat

theorem mute_skip {c : Connection} {front : PendingWrite} {rest : List PendingWrite}
    (hp : c.pendingWrites = front :: rest) (hrem : front.remaining = 0) (heom : front.eom = false)
    {n : ℕ} : ({ c with pendingWrites := rest, writesCompleted := n } : Connection).Mute ↔ c.Mute
    := by
  simp only [Mute, hp, List.dropWhile_cons, hrem, heom, Bool.false_eq_true, not_false_eq_true,
    and_self, decide_true, if_true]

theorem mute_cons {c : Connection} {front : PendingWrite} {rest : List PendingWrite}
    (hp : c.pendingWrites = front :: rest) (hkeep : ¬ (front.remaining = 0 ∧ ¬ front.eom)) :
    c.Mute ↔ 0 < front.remaining ∧
      c.sendWindow.toNat ≤ (c.sendSeq - c.oldestUnackedSeq).toNat := by
  rw [Mute, hp, List.dropWhile_cons, if_neg (by simpa using hkeep)]

theorem packets_pumpLoop {w : UInt16} {now : Option Micros} :
    ∀ {fuel : ℕ} {c : Connection}, backlog c.pendingWrites ≤ fuel →
      ((pumpLoop w now fuel c).packets = [] ↔ c.Mute)
  | 0, c, h => by
    have hp : c.pendingWrites = [] := by
      rcases hp : c.pendingWrites with _ | ⟨front, rest⟩
      · rfl
      · simp [backlog, hp] at h
    simp [pumpLoop, Effect.quiet, Mute, hp]
  | fuel + 1, c, h => by
    rcases hp : c.pendingWrites with _ | ⟨front, rest⟩
    · have hnone : c.cut w now = none := by simp [cut, hp]
      simp [pumpLoop, hnone, Effect.quiet, Mute, hp]
    by_cases h1 : front.remaining = 0
    · rcases heom : front.eom with _ | _
      · have hskip : c.cut w now = some ({ c with
            pendingWrites := rest, writesCompleted := c.writesCompleted + 1 }, []) := by
          simp [cut, hp, h1, heom]
        have hle : backlog rest ≤ fuel := by
          simp only [backlog, hp, List.map_cons, List.sum_cons] at h ⊢; omega
        rw [pumpLoop, hskip, ← mute_skip hp h1 heom]
        exact packets_pumpLoop hle
      · rw [mute_cons hp (by simp [heom])]
        simp [pumpLoop, cut, hp, h1, heom, Effect.andThen]
    · rw [mute_cons hp (by simp [h1])]
      by_cases h2 : c.sendWindow.toNat - (c.sendSeq - c.oldestUnackedSeq).toNat = 0
      · have hnone : c.cut w now = none := by simp [cut, hp, h1, h2]
        rw [pumpLoop, hnone]
        simp only [Effect.quiet, true_iff]; omega
      · simp only [pumpLoop, cut, hp, h1, h2, false_and, if_false, Effect.andThen,
          List.cons_append, reduceCtorEq, false_iff]
        omega

theorem packets_pump {w : UInt16} {now : Option Micros} {c : Connection} :
    (c.pump w now).packets = [] ↔ c.Mute := packets_pumpLoop (Nat.le_refl _)

theorem flight_pump {w : UInt16} {now : Option Micros} {c : Connection}
    (h : (c.pump w now).packets = []) : (c.pump w now).conn.flightBuffer = c.flightBuffer := by
  rw [pump] at h ⊢
  generalize backlog c.pendingWrites = fuel at h ⊢
  induction fuel generalizing c with
  | zero => rfl
  | succ fuel ih =>
    simp only [pumpLoop] at h ⊢
    rcases hc : c.cut w now with _ | ⟨c', ps⟩
    · rfl
    · obtain ⟨chunk, eom, hcut⟩ := cut_cases hc
      simp only [hc, Effect.andThen, List.append_eq_nil_iff] at h ⊢
      obtain ⟨hps, hrest⟩ := h
      rw [ih hrest, hcut.next]
      rcases hcut.packets with ⟨-, rfl, -⟩ | hone
      · exact List.append_nil _
      · rw [hone] at hps; cases hps

theorem packets_applyAck {w : UInt16} {packet : AdspPacket} {now : Micros} {c : Connection} :
    (c.applyAck w packet now).packets = [] ↔ (c.takeAck packet).Mute := by
  rw [applyAck_eq, packets_pump]

theorem takeAck_recvSeq (packet : AdspPacket) (c : Connection) (n : UInt32) :
    ({ c with recvSeq := n } : Connection).takeAck packet =
      { c.takeAck packet with recvSeq := n } := by
  have hacks : ({ c with recvSeq := n } : Connection).Acks packet ↔ c.Acks packet := Iff.rfl
  unfold takeAck
  by_cases h : c.Acks packet
  · rw [if_pos h, if_pos (hacks.2 h)]
  · rw [if_neg h, if_neg (mt hacks.1 h)]

/-- What was received has no bearing on what there is to send. -/
theorem mute_receive {key : UInt16} {packet : AdspPacket} {data : Bytes} {c : Connection} :
    ((c.receive key packet data).conn.takeAck packet).Mute ↔ (c.takeAck packet).Mute := by
  rw [receive_conn, takeAck_recvSeq]; exact Iff.rfl

/-- A retransmit advice is silent exactly if there is nothing to send and
    nothing left in flight. -/
theorem packets_advice {w : UInt16} {packet : AdspPacket} {now : Micros} {c : Connection} :
    ((c.applyAck w packet now).andThen (resendUnacked w now)).packets = [] ↔
      (c.takeAck packet).Mute ∧ (c.takeAck packet).flightBuffer = [] := by
  simp only [Effect.andThen, List.append_eq_nil_iff, packets_resendUnacked]
  rw [applyAck_eq]
  constructor
  · rintro ⟨hps, hflight⟩
    exact ⟨packets_pump.1 hps, flight_pump hps ▸ hflight⟩
  · rintro ⟨hmute, hflight⟩
    have hps : ((c.takeAck packet).pump w (some now)).packets = [] := packets_pump.2 hmute
    exact ⟨hps, (flight_pump hps).trans hflight⟩

end Connection

/-! ## One datagram -/

section
variable {k : UInt16} {c : Connection} {ep : AdspEndpoint}

/-- What is appended goes unnoticed if none of it is picked. -/
theorem filter_append_eq_left_iff {α : Type*} {p : α → Bool} {xs ys : List α} :
    (xs ++ ys).filter p = xs.filter p ↔ ∀ y ∈ ys, ¬ p y = true := by
  rw [List.filter_append, List.append_right_eq_self, List.filter_eq_nil_iff]

theorem Isolated.refl (hc : ep.connections[k]? = some c) : Isolated k c ep ep := ⟨hc, rfl, rfl⟩

/-- Its peer cannot tell it from `c`: the same remote and ConnID of ours. -/
def Connection.Twin (c d : Connection) : Prop := d.remote = c.remote ∧ d.ourConnId = c.ourConnId

/-- An operation on the connection under `key` passes `c` by exactly if it does nothing should
    `key` be that of `c`, and sends nothing as a twin of `c`. -/
theorem isolated_onConn {key : UInt16} {f : Connection → Effect}
    (hc : ep.connections[k]? = some c) (hown : ∀ d, Own key d (f d)) :
    Isolated k c ep (ep.onConn key f) ↔ (key = k → f c = .quiet c) ∧
      ∀ d, ep.connections[key]? = some d → c.Twin d → (f d).packets = [] := by
  rcases hd : ep.connections[key]? with _ | d
  · have hsame : ep.onConn key f = ep := by simp only [AdspEndpoint.onConn, hd]
    rw [hsame]
    refine iff_of_true (.refl hc) ⟨?_, nofun⟩
    rintro rfl
    rw [hc] at hd; cases hd
  have hev : ep.onConn key f = { ep with
      connections := ep.connections.insert key (f d).conn
      outbox := ep.outbox ++ (f d).packets.map fun p => ((f d).conn.remote, p)
      events := ep.events ++ (f d).events } := by simp only [AdspEndpoint.onConn, hd]
  have hd' := hown d
  rw [hev]
  constructor
  · rintro ⟨hstate, hpackets, hevents⟩
    have hpackets := filter_append_eq_left_iff.1 hpackets
    have hevents := filter_append_eq_left_iff.1 hevents
    have hsilent : c.Twin d → (f d).packets = [] := by
      rintro ⟨hremote, hid⟩
      refine List.eq_nil_iff_forall_not_mem.2 fun p hp => ?_
      refine hpackets _ (List.mem_map_of_mem hp) ?_
      simp [hd'.remote, hremote, hd'.packets p hp, hid]
    refine ⟨?_, ?_⟩
    · rintro rfl
      obtain rfl : d = c := Option.some.inj (hd.symm.trans hc)
      have hconn : (f d).conn = d := by simpa using hstate
      have hnone : (f d).events = [] := by
        refine List.eq_nil_iff_forall_not_mem.2 fun e he => ?_
        exact hevents e he (by simp [hd'.events e he])
      have heffect : f d = ⟨(f d).conn, (f d).packets, (f d).events⟩ := rfl
      rw [heffect, hsilent ⟨rfl, rfl⟩, hnone, hconn]; rfl
    · intro d' hdd' htwin
      obtain rfl := Option.some.inj hdd'
      exact hsilent htwin
  · rintro ⟨hquiet, hsilent⟩
    refine ⟨?_, ?_, ?_⟩
    · by_cases hk : key = k
      · subst hk
        obtain rfl : d = c := Option.some.inj (hd.symm.trans hc)
        simp [hquiet rfl, Effect.quiet]
      · rw [getElem?_insert_eq, if_neg (Ne.symm hk)]; exact hc
    · refine filter_append_eq_left_iff.2 fun rp hrp htwin => ?_
      obtain ⟨p, hp, rfl⟩ := List.mem_map.1 hrp
      simp only [hd'.remote, hd'.packets p hp, Option.some.injEq, decide_eq_true_eq] at htwin
      rw [hsilent d rfl htwin] at hp; cases hp
    · refine filter_append_eq_left_iff.2 fun e he habout => ?_
      rw [hd'.events e he, decide_eq_true_eq] at habout
      obtain rfl := Option.some.inj habout
      obtain rfl : d = c := Option.some.inj (hd.symm.trans hc)
      rw [hquiet rfl] at he; cases he

/-- It carries another ConnID than `c`, or does nothing of its kind; and should it find a twin of
    `c`, nothing is sent for that one. -/
def Spares (ep : AdspEndpoint) (k : UInt16) (c : Connection) (payload : Bytes) : Prop :=
  match AdspPacket.parse payload with
  | .error _ => True
  | .ok packet =>
    let key := packet.connectionId
    let data := payload.drop AdspPacket.HEADER_LEN
    if packet.flags &&& AdspPacket.FLAG_ATTENTION ≠ 0 then
      if packet.flags &&& AdspPacket.FLAG_CONTROL ≠ 0 ∨ packet.descriptor = .controlPacket then
        key = k → c.IgnoresAttentionAck packet
      else ∀ d, ep.connections[key]? = some d → c.Twin d → data.length < 2
    else
      match packet.descriptor with
      | .dataPacket | .controlPacket =>
        (key = k → c.IgnoresData packet data) ∧
          ∀ d, ep.connections[key]? = some d → c.Twin d →
            packet.flags &&& AdspPacket.FLAG_ACK = 0 ∧ (d.takeAck packet).Mute
      | .retransmitAdvice =>
        (key = k → c.IgnoresAdvice packet) ∧
          ∀ d, ep.connections[key]? = some d → c.Twin d →
            (d.takeAck packet).Mute ∧ (d.takeAck packet).flightBuffer = []
      | .openConnAck | .openConnReqAck =>
        -- The peer that answers an open twice moves its connection to a new key.
        let ourConnId := AdspEndpoint.echoedConnId packet payload
        ep.connections.contains key ∨ ep.pendingOpens.contains ourConnId ∨
          ∀ d, ep.connections.toList.find? (fun kc => kc.2.ourConnId = ourConnId) ≠ some (k, d)
      | .closeAdvice => key ≠ k
      | .openConnRequest | .openConnDeny | .forwardReset | .forwardResetAck => True

theorem isolated_push {src : ServiceAddress} {p : Bytes} {ep' : AdspEndpoint}
    (h : Isolated k c ep ep') (hsrc : src ≠ c.remote) : Isolated k c ep (ep'.push src p) := by
  refine ⟨h.state, ?_, h.events⟩
  rw [← h.packets]
  refine filter_append_eq_left_iff.2 fun rp hrp => ?_
  obtain rfl := List.mem_singleton.1 hrp
  simp [hsrc]

theorem isolated_emit {e : AdspEvent} {ep' : AdspEndpoint} (h : Isolated k c ep ep')
    (he : e.about ≠ some k) : Isolated k c ep (ep'.emit e) := by
  refine ⟨h.state, h.packets, ?_⟩
  rw [← h.events]
  refine filter_append_eq_left_iff.2 fun ev hev => ?_
  obtain rfl := List.mem_singleton.1 hev
  simp [he]

theorem isolated_handleOpenRequest {src : ServiceAddress} (hc : ep.connections[k]? = some c)
    (hsrc : src ≠ c.remote) (packet : AdspPacket) (now : Micros) :
    Isolated k c ep (ep.handleOpenRequest src packet now) := by
  unfold AdspEndpoint.handleOpenRequest
  split
  · exact .refl hc
  dsimp only
  split
  · exact isolated_push (.refl hc) hsrc
  · rename_i hnone
    have hne : packet.connectionId ≠ k := by
      rintro rfl
      rw [hc] at hnone; cases hnone
    refine isolated_emit (isolated_push ⟨?_, rfl, rfl⟩ hsrc) (by simpa [AdspEvent.about] using hne)
    rw [getElem?_insert_eq, if_neg (Ne.symm hne)]; exact hc

theorem isolated_handleOpenAck {src : ServiceAddress} (hc : ep.connections[k]? = some c)
    (hsrc : src ≠ c.remote) (packet : AdspPacket) (payload : Bytes) (now : Micros) :
    Isolated k c ep (ep.handleOpenAck src packet payload now) ↔
      (ep.connections.contains packet.connectionId ∨
        ep.pendingOpens.contains (AdspEndpoint.echoedConnId packet payload) ∨
        ∀ d, ep.connections.toList.find?
          (fun kc => kc.2.ourConnId = AdspEndpoint.echoedConnId packet payload) ≠
            some (k, d)) := by
  unfold AdspEndpoint.handleOpenAck
  dsimp only
  by_cases hkey : ep.connections.contains packet.connectionId = true
  · rw [if_pos hkey]
    refine iff_of_true ?_ (Or.inl hkey)
    split
    · exact isolated_push (.refl hc) hsrc
    · exact .refl hc
  have hne : packet.connectionId ≠ k := by
    rintro rfl
    exact hkey ((contains_iff_getElem? _ _).2 ⟨c, hc⟩)
  have hopened : (AdspEvent.opened packet.connectionId src false
      (some (AdspEndpoint.echoedConnId packet payload))).about ≠ some k := by
    simpa [AdspEvent.about] using hne
  rw [if_neg hkey]
  by_cases hpend : ep.pendingOpens.contains (AdspEndpoint.echoedConnId packet payload) = true
  · rw [if_neg (not_not_intro hpend)]
    refine iff_of_true (isolated_emit ?_ hopened) (Or.inr (Or.inl hpend))
    have hbase : Isolated k c ep { ep with
        pendingOpens := ep.pendingOpens.erase (AdspEndpoint.echoedConnId packet payload)
        connections := ep.connections.insert packet.connectionId
          (Connection.new (AdspEndpoint.echoedConnId packet payload) src packet.recvWindow
            now) } := by
      refine ⟨?_, rfl, rfl⟩
      rw [getElem?_insert_eq, if_neg (Ne.symm hne)]; exact hc
    split
    · exact isolated_push hbase hsrc
    · exact hbase
  rw [if_pos hpend]
  simp only [hkey, hpend, Bool.false_eq_true, false_or]
  generalize ep.connections.toList.find?
    (fun kc => kc.2.ourConnId = AdspEndpoint.echoedConnId packet payload) = found
  rcases found with _ | ⟨stale, d⟩
  · exact iff_of_true (.refl hc) nofun
  by_cases hstale : stale = k
  · subst hstale
    refine iff_of_false ?_ (fun h => h d rfl)
    intro h
    have hstate := h.state
    simp only [AdspEndpoint.emit, AdspEndpoint.sendOpenReply, AdspEndpoint.push,
      getElem?_insert_eq, getElem?_erase_eq, if_neg (Ne.symm hne), if_true] at hstate
    cases hstate
  · refine iff_of_true (isolated_emit (isolated_push ⟨?_, rfl, rfl⟩ hsrc) hopened) ?_
    · rw [getElem?_insert_eq, if_neg (Ne.symm hne), getElem?_erase_eq, if_neg (Ne.symm hstale)]
      exact hc
    · rintro d' heq
      exact hstale (congrArg Prod.fst (Option.some.inj heq))

theorem isolated_handleDatagram {src : ServiceAddress} (hc : ep.connections[k]? = some c)
    (hsrc : src ≠ c.remote) (payload : Bytes) (now : Micros) :
    Isolated k c ep (ep.handleDatagram src payload now) ↔ Spares ep k c payload := by
  unfold AdspEndpoint.handleDatagram Spares
  rcases hparse : AdspPacket.parse payload with err | packet
  · exact iff_of_true (.refl hc) trivial
  dsimp only
  have hself : packet.connectionId = k → ∃ d, ep.connections[packet.connectionId]? = some d ∧
      c.Twin d := by
    rintro rfl
    exact ⟨c, hc, rfl, rfl⟩
  by_cases hattn : packet.flags &&& AdspPacket.FLAG_ATTENTION ≠ 0
  · rw [if_pos hattn, if_pos hattn]
    split
    · rw [isolated_onConn hc fun d => own_handleAttentionAck packet d,
        Connection.handleAttentionAck_eq_quiet_iff]
      simp [Connection.packets_handleAttentionAck]
    · rw [isolated_onConn hc fun d => own_handleAttention packet _ d,
        Connection.handleAttention_eq_quiet_iff]
      simp only [Connection.packets_handleAttention]
      refine ⟨fun h => h.2, fun h => ⟨fun hk => ?_, h⟩⟩
      obtain ⟨d, hd, htwin⟩ := hself hk
      exact h d hd htwin
  rw [if_neg hattn, if_neg hattn]
  cases packet.descriptor with
  | controlPacket | dataPacket =>
    dsimp only
    rw [isolated_onConn hc fun d => own_handleData _ packet _ now d,
      Connection.handleData_eq_quiet_iff]
    simp only [Connection.packets_handleData, Connection.packets_applyAck, Connection.mute_receive]
  | openConnRequest =>
    exact iff_of_true (isolated_handleOpenRequest hc hsrc packet now) trivial
  | openConnAck | openConnReqAck => exact isolated_handleOpenAck hc hsrc packet payload now
  | openConnDeny =>
    refine iff_of_true ?_ trivial
    dsimp only
    split
    · exact isolated_emit ⟨hc, rfl, rfl⟩ nofun
    · exact .refl hc
  | closeAdvice =>
    dsimp only
    by_cases hk : packet.connectionId = k
    · refine iff_of_false ?_ (fun h => h hk)
      rw [hk, if_pos ((contains_iff_getElem? _ _).2 ⟨c, hc⟩)]
      intro h
      have hstate := h.state
      simp only [AdspEndpoint.emit, AdspEndpoint.forget, getElem?_erase_eq, if_true] at hstate
      cases hstate
    · refine iff_of_true ?_ hk
      split
      · refine isolated_emit ⟨?_, rfl, rfl⟩ (by simpa [AdspEvent.about] using hk)
        simp only [AdspEndpoint.forget, getElem?_erase_eq, if_neg (Ne.symm hk)]; exact hc
      · exact .refl hc
  | forwardReset | forwardResetAck => exact iff_of_true (.refl hc) trivial
  | retransmitAdvice =>
    dsimp only
    rw [isolated_onConn hc fun d => own_advice _ packet now d, Connection.advice_eq_quiet_iff]
    simp only [Connection.packets_advice]

end

/-! ## Two opens with one ConnID -/

/-- A request to open a connection, from a peer that calls it `id`. -/
def IsOpen (id : UInt16) (payload : Bytes) : Prop :=
  ∃ packet, AdspPacket.parse payload = .ok packet ∧
    packet.flags &&& AdspPacket.FLAG_ATTENTION = 0 ∧ packet.descriptor = .openConnRequest ∧
    packet.connectionId = id

/-- From `ep` to `ep'` each of two peers got a connection of its own. -/
def EachOwn (ep ep' : AdspEndpoint) (a b : ServiceAddress) : Prop :=
  ∃ j k, j ≠ k ∧ ep.connections[j]? = none ∧ ep.connections[k]? = none ∧
    ep'.remoteOf j = some a ∧ ep'.remoteOf k = some b

/-- An open request adds no connection but under the ConnID it carries. -/
theorem getElem?_open {ep : AdspEndpoint} {src : ServiceAddress} {id j : UInt16}
    {payload : Bytes} (h : IsOpen id payload) (now : Micros) (hj : j ≠ id) :
    (ep.handleDatagram src payload now).connections[j]? = ep.connections[j]? := by
  obtain ⟨packet, hparse, hflags, hdesc, rfl⟩ := h
  simp only [AdspEndpoint.handleDatagram, hparse, hflags, hdesc, ne_eq, not_true_eq_false,
    if_false, AdspEndpoint.handleOpenRequest]
  split
  · rfl
  split
  · rfl
  · simp only [AdspEndpoint.emit, AdspEndpoint.sendOpenReply, AdspEndpoint.push,
      getElem?_insert_eq, if_neg hj]

/-- Two opens with one ConnID never make two connections. -/
theorem opens_not_eachOwn {id : UInt16} {p q : Bytes} (hp : IsOpen id p) (hq : IsOpen id q)
    (ep : AdspEndpoint) (a b : ServiceAddress) (s t : Micros) :
    ¬ EachOwn ep ((ep.handleDatagram a p s).handleDatagram b q t) a b := by
  rintro ⟨j, k, hjk, hj, hk, hja, hkb⟩
  have honly : ∀ {i : UInt16} {r : ServiceAddress}, ep.connections[i]? = none →
      ((ep.handleDatagram a p s).handleDatagram b q t).remoteOf i = some r → i = id := by
    intro i r hnone hremote
    by_cases hi : i = id
    · exact hi
    · rw [AdspEndpoint.remoteOf, getElem?_open hq t hi, getElem?_open hp s hi, hnone] at hremote
      cases hremote
  exact hjk ((honly hj hja).trans (honly hk hkb).symm)

/-- **Who is isolated from whom.** A connection is isolated from a datagram that is not from its
    remote exactly if the datagram spares it. Two peers that open with one ConnID never each get a
    connection of their own. -/
theorem isolated_iff_spares (ep : AdspEndpoint) :
    (∀ (k : UInt16) (c : Connection) (src : ServiceAddress) (payload : Bytes) (now : Micros),
      ep.connections[k]? = some c → src ≠ c.remote →
      (Isolated k c ep (ep.handleDatagram src payload now) ↔ Spares ep k c payload)) ∧
    ∀ (a b : ServiceAddress) (id : UInt16) (p q : Bytes) (s t : Micros),
      IsOpen id p → IsOpen id q →
      ¬ EachOwn ep ((ep.handleDatagram a p s).handleDatagram b q t) a b :=
  ⟨fun _ _ _ payload now hc hsrc => isolated_handleDatagram hc hsrc payload now,
    fun a b _ _ _ s t hp hq => opens_not_eachOwn hp hq ep a b s t⟩

/-- An open request with ConnID 7. -/
def openSeven : Bytes :=
  ({ descriptor := .openConnRequest, connectionId := 7, firstByteSeq := 0, nextRecvSeq := 0
     recvWindow := 1024, flags := 0 } : AdspPacket).toBytes ++ (be16 0x0100 ++ List.replicate 6 0)

/-- CloseAdvice with ConnID 7. -/
def closeSeven : Bytes :=
  ({ descriptor := .closeAdvice, connectionId := 7, firstByteSeq := 0, nextRecvSeq := 0
     recvWindow := 0, flags := 0 } : AdspPacket).toBytes

/-- A listener to which the peer at node 1 has opened its connection 7. -/
def openedSeven : AdspEndpoint :=
  ((AdspEndpoint.new 130 1).setListening true).handleDatagram ⟨0, 1, 140⟩ openSeven 0

/-- That connection. -/
def connSeven : Connection := Connection.new 8225 ⟨0, 1, 140⟩ 1024 0

theorem isOpen_openSeven : IsOpen 7 openSeven := ⟨_, rfl, by decide, rfl, rfl⟩

theorem connSeven_opened : openedSeven.connections[(7 : UInt16)]? = some connSeven := by decide

theorem isolated_iff_spares_openedSeven :
    Isolated 7 connSeven openedSeven (openedSeven.handleDatagram ⟨0, 2, 150⟩ openSeven 1) ∧
      ¬ EachOwn ((AdspEndpoint.new 130 1).setListening true)
        (openedSeven.handleDatagram ⟨0, 2, 150⟩ openSeven 1) ⟨0, 1, 140⟩ ⟨0, 2, 150⟩ := by
  have hne : (⟨0, 2, 150⟩ : ServiceAddress) ≠ connSeven.remote := by decide
  constructor
  · exact ((isolated_iff_spares openedSeven).1 _ _ _ _ _ connSeven_opened hne).2 (by
      unfold Spares; exact trivial)
  · exact (isolated_iff_spares _).2 _ _ 7 _ _ _ _ isOpen_openSeven isOpen_openSeven

/-- CloseAdvice with its ConnID, from another node, removes the connection; and
    a second peer that opens with that ConnID gets no connection. -/
theorem openedSeven_not_isolated :
    openedSeven.connections[(7 : UInt16)]? = some connSeven ∧
      (⟨0, 9, 99⟩ : ServiceAddress) ≠ connSeven.remote ∧
      ¬ Isolated 7 connSeven openedSeven (openedSeven.handleDatagram ⟨0, 9, 99⟩ closeSeven 1) ∧
      ((openedSeven.handleDatagram ⟨0, 2, 150⟩ openSeven 1).connections.toList.map fun kc =>
        (kc.1, kc.2.remote)) = [(7, ⟨0, 1, 140⟩)] := by
  refine ⟨connSeven_opened, by decide, ?_, by decide⟩
  intro h
  have hgone : (openedSeven.handleDatagram ⟨0, 9, 99⟩ closeSeven 1).connections[(7 : UInt16)]? =
      none := by decide
  rw [h.state] at hgone
  cases hgone

end TailTalk
