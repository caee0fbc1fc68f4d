/-
  One ADSP connection — sequenced data with EOM marks, the receive window,
  attentions.

  What the endpoint does to a connection is an `Effect`.  `cut` is one turn of
  the loop of `pump`, and `pump_done` shows that the loop returns.
-/
import TailTalk.Core
import TailTalk.Lib.Chunks
import TailTalk.Packets.Adsp
import Mathlib

namespace TailTalk

open Lib

/-- Stream bytes per data packet. -/
def ADSP_MAX_DATA : ℕ := 572
/-- The receive window of a new endpoint. -/
def DEFAULT_RECV_WINDOW : UInt16 := 1024
/-- How long data in flight waits for its acknowledgement. -/
def RETRANSMIT_TIMEOUT : Micros := 3000000
/-- Retransmissions before a connection is given up. -/
def ADSP_MAX_RETRIES : ℕ := 5
/-- Between the requests of one open. -/
def OPEN_RETRY_INTERVAL : Micros := 1000000
/-- Repeated requests before an open fails. -/
def MAX_OPEN_RETRIES : ℕ := 5
/-- Between the copies of one attention. -/
def ATTN_RETRY_INTERVAL : Micros := 1000000
/-- Repeated copies before an attention fails. -/
def MAX_ATTN_RETRIES : ℕ := 5

/-- What an endpoint reports to its owner. -/
inductive AdspEvent where
  | opened (conn : UInt16) (remote : ServiceAddress) (inbound : Bool) (pending : Option UInt16)
  | openFailed (conn : UInt16)
  | data (conn : UInt16) (data : Bytes) (eom : Bool)
  | attention (conn : UInt16) (code : UInt16) (data : Bytes)
  | attentionAcked (conn : UInt16)
  | attentionFailed (conn : UInt16)
  | closed (conn : UInt16)
deriving DecidableEq

/-- The stream is a sequence of bytes and EOM marks. -/
inductive StreamItem where
  | byte (b : UInt8)
  | eom
deriving DecidableEq

/-- The items of some data, with an EOM mark after it or not. -/
def record (data : Bytes) (eom : Bool) : List StreamItem :=
  data.map .byte ++ if eom then [.eom] else []

/-- The sequence numbers they take: an EOM takes one even with no payload. -/
def seqLen (data : Bytes) (eom : Bool) : UInt32 :=
  UInt32.ofNat data.length + if eom then 1 else 0

/-- A queued write, cut into packets up to `offset`. -/
structure PendingWrite where
  data : Bytes
  offset : ℕ
  eom : Bool
  offset_le : offset ≤ data.length
deriving DecidableEq

namespace PendingWrite

/-- Bytes not yet cut. -/
def remaining (w : PendingWrite) : ℕ := w.data.length - w.offset

/-- The next `n` bytes to cut. -/
def chunk (w : PendingWrite) (n : ℕ) : Bytes := (w.data.drop w.offset).take n

/-- Cut `n` more bytes, at most all that remain. -/
def advance (w : PendingWrite) (n : ℕ) : PendingWrite :=
  { w with offset := min (w.offset + n) w.data.length, offset_le := Nat.min_le_right _ _ }

end PendingWrite

/-- An attention message awaiting its acknowledgement. -/
structure AttnInFlight where
  seq : UInt32
  /-- the framed packet, resent verbatim -/
  packet : Bytes
  lastTx : Micros
  retries : ℕ
deriving DecidableEq

/-- One side of an open connection. -/
structure Connection where
  /-- our ConnID, placed in every outgoing packet -/
  ourConnId : UInt16
  remote : ServiceAddress
  sendSeq : UInt32
  oldestUnackedSeq : UInt32
  recvSeq : UInt32
  sendWindow : UInt16
  flightBuffer : Bytes
  pendingWrites : List PendingWrite
  lastTx : Micros
  retries : ℕ
  attnSendSeq : UInt32
  attnRecvSeq : UInt32
  attnInFlight : Option AttnInFlight
  writesSubmitted : ℕ
  writesCompleted : ℕ
deriving DecidableEq

/-- What an operation does to a connection and to the queues. -/
structure Effect where
  conn : Connection
  packets : List Bytes
  events : List AdspEvent

namespace Effect

/-- No packet and no event. -/
def quiet (c : Connection) : Effect := ⟨c, [], []⟩

/-- First `e`, then `f` on the connection it leaves. -/
def andThen (e : Effect) (f : Connection → Effect) : Effect :=
  ⟨(f e.conn).conn, e.packets ++ (f e.conn).packets, e.events ++ (f e.conn).events⟩

end Effect

namespace Connection

/-- A connection just established. -/
def new (ourConnId : UInt16) (remote : ServiceAddress) (peerWindow : UInt16) (now : Micros) :
    Connection where
  ourConnId := ourConnId
  remote := remote
  sendSeq := 0
  oldestUnackedSeq := 0
  recvSeq := 0
  sendWindow := peerWindow
  flightBuffer := []
  pendingWrites := []
  lastTx := now
  retries := 0
  attnSendSeq := 0
  attnRecvSeq := 0
  attnInFlight := none
  writesSubmitted := 0
  writesCompleted := 0

/-! ## Sending -/

/-- A data packet of this connection, always asking for an acknowledgement. -/
def dataPacket (c : Connection) (recvWindow : UInt16) (seq : UInt32) (eom : Bool)
    (chunk : Bytes) : Bytes :=
  ({ descriptor := .dataPacket
     connectionId := c.ourConnId
     firstByteSeq := seq
     nextRecvSeq := c.recvSeq
     recvWindow
     flags := AdspPacket.FLAG_ACK ||| (if eom then AdspPacket.FLAG_EOM else 0) } :
    AdspPacket).toBytes ++ chunk

/-- The transmission time that `pump` records, if it was given one. -/
def touch (c : Connection) (now : Option Micros) : Micros := now.getD c.lastTx

/-- One turn of the loop of `pump`: `none` where the loop returns. -/
def cut (recvWindow : UInt16) (now : Option Micros) (c : Connection) :
    Option (Connection × List Bytes) :=
  match c.pendingWrites with
  | [] => none
  | front :: rest =>
    let inFlight := c.sendSeq - c.oldestUnackedSeq
    let available := c.sendWindow.toNat - inFlight.toNat
    if front.remaining = 0 ∧ front.eom then
      -- Bare EOM: a phantom sequence byte, no window needed.
      some ({ c with
          sendSeq := c.sendSeq + 1
          lastTx := c.touch now
          pendingWrites := rest
          writesCompleted := c.writesCompleted + 1 },
        [c.dataPacket recvWindow c.sendSeq true []])
    else if front.remaining = 0 then
      some ({ c with pendingWrites := rest, writesCompleted := c.writesCompleted + 1 }, [])
    else if available = 0 then none
    else
      let take := min (min front.remaining available) ADSP_MAX_DATA
      let eom := front.eom && take == front.remaining
      let chunk := front.chunk take
      let done := front.offset + take == front.data.length
      some ({ c with
          flightBuffer := c.flightBuffer ++ chunk
          sendSeq := c.sendSeq + seqLen chunk eom
          lastTx := c.touch now
          pendingWrites := if done then rest else front.advance take :: rest
          writesCompleted := if done then c.writesCompleted + 1 else c.writesCompleted },
        [c.dataPacket recvWindow c.sendSeq eom chunk])

/-- At most `fuel` turns of the loop of `pump`. -/
def pumpLoop (recvWindow : UInt16) (now : Option Micros) : ℕ → Connection → Effect
  | 0, c => .quiet c
  | fuel + 1, c =>
    match c.cut recvWindow now with
    | none => .quiet c
    | some (c', packets) => Effect.andThen ⟨c', packets, []⟩ (pumpLoop recvWindow now fuel)

/-- Turns that the queued writes can take: one for each byte and each write. -/
def backlog (ws : List PendingWrite) : ℕ :=
  (ws.map fun w => w.remaining + 1).sum

/-- Push queued writes into the window: cut data packets while the peer's
    receive window has room. -/
def pump (recvWindow : UInt16) (now : Option Micros) (c : Connection) : Effect :=
  pumpLoop recvWindow now (backlog c.pendingWrites) c

/-- Acknowledge what we have received. -/
def sendAck (recvWindow : UInt16) (c : Connection) : Effect :=
  ⟨c, [({ descriptor := .controlPacket
          connectionId := c.ourConnId
          firstByteSeq := c.sendSeq
          nextRecvSeq := c.recvSeq
          recvWindow
          flags := 0 } : AdspPacket).toBytes], []⟩

/-- A write waits behind the others. -/
def queueWrite (data : Bytes) (eom : Bool) (c : Connection) : Connection :=
  { c with
    writesSubmitted := c.writesSubmitted + 1
    pendingWrites := c.pendingWrites ++ [⟨data, 0, eom, Nat.zero_le _⟩] }

/-- Send again everything in the flight buffer, from the oldest
    unacknowledged sequence number on. -/
def resendUnacked (recvWindow : UInt16) (now : Micros) (c : Connection) : Effect :=
  if c.flightBuffer = [] then .quiet c
  else
    ⟨{ c with lastTx := now },
      (chunks ADSP_MAX_DATA c.flightBuffer).mapIdx fun i chunk =>
        c.dataPacket recvWindow (c.oldestUnackedSeq + UInt32.ofNat (i * ADSP_MAX_DATA)) false chunk,
      []⟩

/-! ## Receiving -/

/-- The receiving half of `handle_data`: validate the sequence number, deliver
    what is new. -/
def receive (key : UInt16) (packet : AdspPacket) (data : Bytes) (c : Connection) : Effect :=
  let eom := packet.flags &&& AdspPacket.FLAG_EOM != 0
  let totalLen := seqLen data eom
  if totalLen = 0 then .quiet c
  else
    -- Read as a signed difference: negative is data beyond a hole.
    let diff := c.recvSeq - packet.firstByteSeq
    if diff.toNat < 2 ^ 31 ∧ diff < totalLen then
      let fresh := data.drop (min diff.toNat data.length)
      ⟨{ c with recvSeq := packet.firstByteSeq + totalLen }, [],
        if fresh ≠ [] ∨ eom then [.data key fresh eom] else []⟩
    else .quiet c

/-- Take the peer's window and acknowledgement, then pump. -/
def applyAck (recvWindow : UInt16) (packet : AdspPacket) (now : Micros) (c : Connection) :
    Effect :=
  let c := { c with sendWindow := packet.recvWindow }
  -- `maxValid` counts the phantom byte of an EOM, the flight buffer does not.
  let maxValid := (c.sendSeq - c.oldestUnackedSeq).toNat
  let acked := (packet.nextRecvSeq - c.oldestUnackedSeq).toNat
  let c :=
    if 0 < acked ∧ acked ≤ maxValid then
      { c with
        flightBuffer := c.flightBuffer.drop (min acked c.flightBuffer.length)
        oldestUnackedSeq := packet.nextRecvSeq
        retries := 0 }
    else c
  c.pump recvWindow (some now)

/-- `handle_data`: deliver, take the acknowledgement, reply if asked, pump. -/
def handleData (recvWindow : UInt16) (key : UInt16) (packet : AdspPacket) (data : Bytes)
    (now : Micros) (c : Connection) : Effect :=
  let wantsAck := packet.flags &&& AdspPacket.FLAG_ACK != 0
  (((c.receive key packet data).andThen (applyAck recvWindow packet now)).andThen
    (if wantsAck then sendAck recvWindow else .quiet)).andThen (pump recvWindow (some now))

/-! ## Attentions -/

/-- Frame an attention message: the header carries the attention sequence
    space, a zero window and AckReq. -/
def buildAttention (ourConnId : UInt16) (attnSendSeq attnRecvSeq : UInt32) (code : UInt16)
    (data : Bytes) : Bytes :=
  ({ descriptor := .dataPacket
     connectionId := ourConnId
     firstByteSeq := attnSendSeq
     nextRecvSeq := attnRecvSeq
     recvWindow := 0
     flags := AdspPacket.FLAG_ACK ||| AdspPacket.FLAG_ATTENTION } : AdspPacket).toBytes ++
    (be16 code ++ data)

/-- The effect of an accepted `send_attention`. -/
def startAttention (code : UInt16) (data : Bytes) (now : Micros) (c : Connection) : Effect :=
  let packet := buildAttention c.ourConnId c.attnSendSeq c.attnRecvSeq code data
  ⟨{ c with attnInFlight := some ⟨c.attnSendSeq, packet, now, 0⟩ }, [packet], []⟩

/-- An inbound attention message: deliver it if fresh, then acknowledge. -/
def handleAttention (key : UInt16) (packet : AdspPacket) (data : Bytes) (c : Connection) :
    Effect :=
  if data.length < 2 then .quiet c
  else
    let code := readBe16 data
    -- Any other sequence number is the peer resending after a lost ack.
    let fresh := packet.firstByteSeq == c.attnRecvSeq
    let c := if fresh then { c with attnRecvSeq := c.attnRecvSeq + 1 } else c
    ⟨c, [({ descriptor := .controlPacket
            connectionId := c.ourConnId
            firstByteSeq := c.attnSendSeq
            nextRecvSeq := c.attnRecvSeq
            recvWindow := 0
            flags := AdspPacket.FLAG_ATTENTION } : AdspPacket).toBytes ++ be16 code],
      if fresh then [.attention key code (data.drop 2)] else []⟩

/-- An inbound attention acknowledgement: retire the message it names. -/
def handleAttentionAck (key : UInt16) (packet : AdspPacket) (c : Connection) : Effect :=
  match c.attnInFlight with
  | none => .quiet c
  | some inFlight =>
    if packet.nextRecvSeq ≠ inFlight.seq + 1 then .quiet c
    else
      ⟨{ c with attnInFlight := none, attnSendSeq := c.attnSendSeq + 1 }, [],
        [.attentionAcked key]⟩

/-- The attention timer of a connection. -/
def pollAttention (key : UInt16) (now : Micros) (c : Connection) : Effect :=
  match c.attnInFlight with
  | none => .quiet c
  | some attn =>
    if now - attn.lastTx < ATTN_RETRY_INTERVAL then .quiet c
    else if attn.retries + 1 > MAX_ATTN_RETRIES then
      ⟨{ c with attnInFlight := none }, [], [.attentionFailed key]⟩
    else
      ⟨{ c with attnInFlight := some { attn with retries := attn.retries + 1, lastTx := now } },
        [attn.packet], []⟩

/-- A data retransmission is due. -/
def retransmitDue (now : Micros) (c : Connection) : Bool :=
  c.flightBuffer ≠ [] ∧ ¬ now - c.lastTx < RETRANSMIT_TIMEOUT

/-! ## What a turn of the pump does -/

/-- The items of the writes that wait. -/
def queued (ws : List PendingWrite) : List StreamItem :=
  ws.flatMap fun w => record (w.data.drop w.offset) w.eom

/-- A turn of the pump that cuts `chunk`, with an EOM mark or not, out of the
    queue. -/
structure Cut (w : UInt16) (c c' : Connection) (ps : List Bytes) (chunk : Bytes) (eom : Bool) :
    Prop where
  /-- nothing else in the connection changes -/
  next : c' = { c with
    flightBuffer := c.flightBuffer ++ chunk
    sendSeq := c.sendSeq + seqLen chunk eom
    lastTx := c'.lastTx
    pendingWrites := c'.pendingWrites
    writesCompleted := c'.writesCompleted }
  queue : queued c.pendingWrites = record chunk eom ++ queued c'.pendingWrites
  packets : (ps = [] ∧ chunk = [] ∧ eom = false) ∨ ps = [c.dataPacket w c.sendSeq eom chunk]
  length_le : chunk.length ≤ ADSP_MAX_DATA
  window : chunk ≠ [] →
    (c.sendSeq - c.oldestUnackedSeq).toNat + chunk.length ≤ c.sendWindow.toNat
  backlog_lt : backlog c'.pendingWrites < backlog c.pendingWrites

theorem record_nil_false : record [] false = [] := rfl

theorem record_append (a b : Bytes) (eom : Bool) :
    record (a ++ b) eom = record a false ++ record b eom := by
  simp [record]

theorem drop_eq_nil_of_remaining {front : PendingWrite} (h : front.remaining = 0) :
    front.data.drop front.offset = [] := by
  rw [List.drop_eq_nil_iff]; rw [PendingWrite.remaining] at h; omega

/-- Cutting some bytes leaves the rest of the write. -/
theorem record_advance {front : PendingWrite} {n : ℕ} (h : n ≤ front.remaining) (eom : Bool) :
    record (front.data.drop front.offset) eom =
      record (front.chunk n) false ++ record (front.data.drop (front.advance n).offset) eom := by
  have hle := front.offset_le
  rw [PendingWrite.remaining] at h
  have hoff : (front.advance n).offset = front.offset + n := by
    simp only [PendingWrite.advance]; omega
  rw [← record_append, hoff, ← List.drop_drop, PendingWrite.chunk, List.take_append_drop]

theorem chunk_length {front : PendingWrite} {n : ℕ} (h : n ≤ front.remaining) :
    (front.chunk n).length = n := by
  rw [PendingWrite.remaining] at h
  rw [PendingWrite.chunk, List.length_take, List.length_drop]; omega

theorem chunk_remaining (front : PendingWrite) :
    front.chunk front.remaining = front.data.drop front.offset := by
  rw [PendingWrite.chunk, PendingWrite.remaining, ← List.length_drop, List.take_length]

theorem cut_cases {w : UInt16} {now : Option Micros} {c c' : Connection} {ps : List Bytes}
    (h : c.cut w now = some (c', ps)) : ∃ chunk eom, Cut w c c' ps chunk eom := by
  unfold cut at h
  rcases hp : c.pendingWrites with _ | ⟨front, rest⟩
  · simp [hp] at h
  simp only [hp] at h
  by_cases h1 : front.remaining = 0
  · have hnil := drop_eq_nil_of_remaining h1
    rcases heom : front.eom with _ | _
    · simp only [h1, heom, Bool.false_eq_true, and_false, if_false, if_true,
        Option.some.injEq, Prod.mk.injEq] at h
      obtain ⟨rfl, rfl⟩ := h
      refine ⟨[], false, ?_, ?_, Or.inl ⟨rfl, rfl, rfl⟩, Nat.zero_le _, nofun, ?_⟩
      · simp [seqLen]
      · simp only [queued, hp, List.flatMap_cons, hnil, heom, record_nil_false]
      · simp [backlog, hp]
    · simp only [h1, heom, and_self, if_true, Option.some.injEq, Prod.mk.injEq] at h
      obtain ⟨rfl, rfl⟩ := h
      refine ⟨[], true, ?_, ?_, Or.inr rfl, Nat.zero_le _, nofun, ?_⟩
      · simp [seqLen]
      · simp only [queued, hp, List.flatMap_cons, hnil, heom]
      · simp [backlog, hp]
  by_cases h2 : c.sendWindow.toNat - (c.sendSeq - c.oldestUnackedSeq).toNat = 0
  · simp [h1, h2] at h
  simp only [h1, h2, false_and, if_false, Option.some.injEq, Prod.mk.injEq] at h
  generalize htake : min (min front.remaining
    (c.sendWindow.toNat - (c.sendSeq - c.oldestUnackedSeq).toNat)) ADSP_MAX_DATA = take at h
  obtain ⟨rfl, rfl⟩ := h
  have hle := front.offset_le
  have hmax : take ≤ ADSP_MAX_DATA := htake ▸ Nat.min_le_right _ _
  have hrem : take ≤ front.remaining := by omega
  have hpos : 0 < take := by simp only [ADSP_MAX_DATA] at htake; omega
  have hlen := chunk_length hrem
  have hwin : (c.sendSeq - c.oldestUnackedSeq).toNat + take ≤ c.sendWindow.toNat := by omega
  refine ⟨_, _, rfl, ?_, Or.inr rfl, hlen.symm ▸ hmax, fun _ => hlen.symm ▸ hwin, ?_⟩
  · by_cases hdone : take = front.remaining
    · have hend : front.offset + take = front.data.length := by
        rw [hdone, PendingWrite.remaining]; omega
      simp only [queued, hp, List.flatMap_cons, hend, beq_self_eq_true, if_true]
      simp only [hdone, beq_self_eq_true, Bool.and_true, chunk_remaining]
    · have hend : front.offset + take ≠ front.data.length := by
        rw [PendingWrite.remaining] at hdone hrem; omega
      simp only [queued, hp, List.flatMap_cons, beq_eq_false_iff_ne.2 hend,
        beq_eq_false_iff_ne.2 hdone, Bool.and_false, Bool.false_eq_true, if_false]
      rw [record_advance hrem, List.append_assoc]; rfl
  · rw [PendingWrite.remaining] at hrem
    by_cases hend : front.offset + take = front.data.length
    · simp only [backlog, hp, hend, beq_self_eq_true, if_true, List.map_cons, List.sum_cons]
      omega
    · simp only [backlog, hp, beq_eq_false_iff_ne.2 hend, Bool.false_eq_true, if_false,
        List.map_cons, List.sum_cons, PendingWrite.remaining, PendingWrite.advance]
      omega

theorem cut_pumpLoop {w : UInt16} {now : Option Micros} :
    ∀ {fuel : ℕ} {c : Connection}, backlog c.pendingWrites ≤ fuel →
      ((pumpLoop w now fuel c).conn).cut w now = none
  | 0, c, h => by
    rcases hc : c.cut w now with _ | ⟨c', ps⟩
    · exact hc
    · obtain ⟨chunk, eom, hcut⟩ := cut_cases hc
      have := hcut.backlog_lt; omega
  | fuel + 1, c, h => by
    simp only [pumpLoop]
    rcases hc : c.cut w now with _ | ⟨c', ps⟩
    · exact hc
    · obtain ⟨chunk, eom, hcut⟩ := cut_cases hc
      have := hcut.backlog_lt
      have hle : backlog c'.pendingWrites ≤ fuel := by omega
      exact cut_pumpLoop hle

/-- **The pump returns**: it leaves nothing that the window would still admit. -/
theorem cut_pump (w : UInt16) (now : Option Micros) (c : Connection) :
    ((c.pump w now).conn).cut w now = none := cut_pumpLoop (Nat.le_refl _)

/-- **The rule of the pump**: what a cut and the rest of the pump keep, the pump keeps. -/
theorem pump_induct {Q : Connection → Effect → Prop} (w : UInt16) (now : Option Micros)
    (hquiet : ∀ c, Q c (.quiet c))
    (hcut : ∀ {c c' ps} (f : Connection → Effect), c.cut w now = some (c', ps) →
      (∀ d, Q d (f d)) → Q c (Effect.andThen ⟨c', ps, []⟩ f)) (c : Connection) :
    Q c (c.pump w now) := by
  rw [pump]
  generalize backlog c.pendingWrites = fuel
  induction fuel generalizing c with
  | zero => exact hquiet c
  | succ fuel ih =>
    rw [pumpLoop]
    rcases hc : c.cut w now with _ | ⟨c', ps⟩
    · exact hquiet c
    · exact hcut _ hc ih

/-! ## Where the pump stops -/

/-- The first queued write waits for the window, or there is none. -/
def Blocked (c : Connection) : Prop :=
  match c.pendingWrites with
  | [] => True
  | front :: _ =>
    0 < front.remaining ∧ c.sendWindow.toNat ≤ (c.sendSeq - c.oldestUnackedSeq).toNat

theorem cut_eq_none_iff {w : UInt16} {now : Option Micros} {c : Connection} :
    c.cut w now = none ↔ c.Blocked := by
  unfold cut Blocked
  rcases c.pendingWrites with _ | ⟨front, rest⟩
  · simp
  by_cases h1 : front.remaining = 0
  · rcases heom : front.eom with _ | _ <;> simp [h1, heom]
  · by_cases h2 : c.sendWindow.toNat - (c.sendSeq - c.oldestUnackedSeq).toNat = 0
    · simp only [h1, h2, false_and, if_false, if_true, true_iff]; omega
    · simp only [h1, h2, false_and, if_false, reduceCtorEq, false_iff]; omega

theorem blocked_pump (w : UInt16) (now : Option Micros) (c : Connection) :
    ((c.pump w now).conn).Blocked := cut_eq_none_iff.1 (cut_pump w now c)

theorem Blocked.pump {c : Connection} (h : c.Blocked) (w : UInt16) (now : Option Micros) :
    c.pump w now = .quiet c := by
  have hnone : c.cut w now = none := cut_eq_none_iff.2 h
  rw [Connection.pump]
  cases backlog c.pendingWrites with
  | zero => rfl
  | succ fuel => simp only [pumpLoop, hnone]

theorem pump_events (w : UInt16) (now : Option Micros) (c : Connection) :
    (c.pump w now).events = [] := by
  rw [pump]
  generalize backlog c.pendingWrites = fuel
  induction fuel generalizing c with
  | zero => rfl
  | succ fuel ih =>
    simp only [pumpLoop]
    rcases c.cut w now with _ | ⟨c', ps⟩
    · rfl
    · simp only [Effect.andThen, ih, List.append_nil]

/-! ## What the receiving half of a packet changes -/

/-- What `receive` does to a connection is to move `recvSeq`. -/
theorem receive_conn (key : UInt16) (packet : AdspPacket) (data : Bytes) (c : Connection) :
    (c.receive key packet data).conn =
      { c with recvSeq := (c.receive key packet data).conn.recvSeq } := by
  unfold receive
  dsimp only
  split
  · rfl
  split <;> rfl

theorem receive_packets (key : UInt16) (packet : AdspPacket) (data : Bytes) (c : Connection) :
    (c.receive key packet data).packets = [] := by
  unfold receive
  dsimp only
  split
  · rfl
  split <;> rfl

/-! ## What the acknowledgement half of a packet changes -/

/-- A packet acknowledges something still in flight. -/
def Acks (packet : AdspPacket) (c : Connection) : Prop :=
  0 < (packet.nextRecvSeq - c.oldestUnackedSeq).toNat ∧
    (packet.nextRecvSeq - c.oldestUnackedSeq).toNat ≤ (c.sendSeq - c.oldestUnackedSeq).toNat

instance (packet : AdspPacket) (c : Connection) : Decidable (c.Acks packet) :=
  inferInstanceAs (Decidable (_ ∧ _))

/-- `applyAck` before it pumps: the window, and what is acknowledged. -/
def takeAck (packet : AdspPacket) (c : Connection) : Connection :=
  if c.Acks packet then
    { c with
      sendWindow := packet.recvWindow
      flightBuffer := c.flightBuffer.drop
        (min (packet.nextRecvSeq - c.oldestUnackedSeq).toNat c.flightBuffer.length)
      oldestUnackedSeq := packet.nextRecvSeq
      retries := 0 }
  else { c with sendWindow := packet.recvWindow }

theorem applyAck_eq (w : UInt16) (packet : AdspPacket) (now : Micros) (c : Connection) :
    c.applyAck w packet now = (c.takeAck packet).pump w (some now) := by
  unfold applyAck takeAck Acks
  split_ifs <;> rfl

/-- A packet's window and acknowledgement change nothing exactly if the window is the known one
    and nothing in flight is acknowledged. -/
theorem takeAck_eq_self_iff {packet : AdspPacket} {c : Connection} :
    c.takeAck packet = c ↔ packet.recvWindow = c.sendWindow ∧ ¬ c.Acks packet := by
  unfold takeAck
  constructor
  · intro h
    split_ifs at h with hack
    · have hold : packet.nextRecvSeq = c.oldestUnackedSeq :=
        congrArg Connection.oldestUnackedSeq h
      simp [Acks, hold] at hack
    · exact ⟨congrArg Connection.sendWindow h, hack⟩
  · rintro ⟨hw, hack⟩
    rw [if_neg hack, hw]

end Connection

end TailTalk
