/-
  What a receiver makes of the pieces of a stream, lost, repeated, reordered,
  cut anew and overlapping in any way.  It does not hold its peer to the window
  it advertises.
-/
import TailTalk.Adsp.Isolation
import TailTalk.Adsp.Stream

namespace TailTalk

open Lib

/-- A datagram that arrives. -/
structure Arrival where
  src : ServiceAddress
  payload : Bytes
  now : Micros

/-- The endpoint takes a datagram in. -/
def AdspEndpoint.arrive (ep : AdspEndpoint) (a : Arrival) : AdspEndpoint :=
  ep.handleDatagram a.src a.payload a.now

/-- A data packet for `key` with data of `P` at its true sequence number, and a mark only where `P`
    has one. -/
def Piece (P : List StreamItem) (key : UInt16) (payload : Bytes) : Prop :=
  ∃ packet, AdspPacket.parse payload = .ok packet ∧ packet.descriptor = .dataPacket ∧
    packet.flags &&& AdspPacket.FLAG_ATTENTION = 0 ∧ packet.connectionId = key ∧
    Segment P packet.firstByteSeq.toNat (record (payload.drop AdspPacket.HEADER_LEN)
      (packet.flags &&& AdspPacket.FLAG_EOM != 0))

/-- The position in the stream at which the data of a packet ends. -/
def pieceEnd (payload : Bytes) : ℕ :=
  match AdspPacket.parse payload with
  | .error _ => 0
  | .ok packet => packet.firstByteSeq.toNat + (record (payload.drop AdspPacket.HEADER_LEN)
      (packet.flags &&& AdspPacket.FLAG_EOM != 0)).length

theorem piece_dataPacket {P : List StreamItem} {c : Connection} {w : UInt16} {seq : UInt32}
    {eom : Bool} {chunk : Bytes} (h : Segment P seq.toNat (record chunk eom)) :
    Piece P c.ourConnId (c.dataPacket w seq eom chunk) := by
  refine ⟨_, parse_dataPacket c w seq eom chunk, rfl, ?_, rfl, ?_⟩
  · show (if eom then 0x60 else 0x40 : UInt8) &&& AdspPacket.FLAG_ATTENTION = 0
    cases eom <;> decide
  · have hflag : ((if eom then 0x60 else 0x40 : UInt8) &&& AdspPacket.FLAG_EOM != 0) = eom := by
      cases eom <;> decide
    rw [drop_dataPacket, hflag]
    exact h

/-- What was delivered on the connection are the items that `recvSeq` moved over. -/
structure DeliversStream (P : List StreamItem) (key : UInt16) (c : Connection)
    (ep ep' : AdspEndpoint) (c' : Connection) (new : List AdspEvent) : Prop where
  conn : ep'.connections[key]? = some c'
  events : ep'.events = ep.events ++ new
  recv_le : c'.recvSeq.toNat ≤ P.length
  delivered : P.take c.recvSeq.toNat ++ streamOf key new = P.take c'.recvSeq.toNat

section
variable {P : List StreamItem} {key : UInt16} {c : Connection} {ep : AdspEndpoint}

theorem DeliversStream.refl (hc : ep.connections[key]? = some c) (hr : c.recvSeq.toNat ≤ P.length) :
    DeliversStream P key c ep ep c [] :=
  ⟨hc, (List.append_nil _).symm, hr, by simp [streamOf]⟩

theorem DeliversStream.trans {c' c'' : Connection} {ep' ep'' : AdspEndpoint}
    {new new' : List AdspEvent}
    (h : DeliversStream P key c ep ep' c' new) (h' : DeliversStream P key c' ep' ep'' c'' new') :
    DeliversStream P key c ep ep'' c'' (new ++ new') := by
  refine ⟨h'.conn, ?_, h'.recv_le, ?_⟩
  · rw [h'.events, h.events, List.append_assoc]
  · rw [streamOf_append, ← List.append_assoc, h.delivered, h'.delivered]

theorem Connection.handleData_events (w key : UInt16) (packet : AdspPacket) (data : Bytes)
    (now : Micros) (c : Connection) :
    (c.handleData w key packet data now).events = (c.receive key packet data).events := by
  rw [handleData_eq]
  split <;> simp [Effect.andThen, sendAck, Effect.quiet, applyAck_eq, pump_events]

/-- **A piece that arrives.**  It delivers the items that it moves `recvSeq`
    over, and moves it at most to the end of the piece. -/
theorem delivers_arrive (hP : P.length < 2 ^ 31) (hc : ep.connections[key]? = some c)
    (hr : c.recvSeq.toNat ≤ P.length) {a : Arrival} (h : Piece P key a.payload) :
    ∃ c' new, DeliversStream P key c ep (ep.arrive a) c' new ∧
      c'.recvSeq.toNat ≤ max c.recvSeq.toNat (pieceEnd a.payload) := by
  obtain ⟨packet, hparse, hdesc, hflags, rfl, hseg⟩ := h
  obtain ⟨hle, hstop, hdel⟩ := received_receive packet.connectionId hP hr hseg
  have harrive : ep.arrive a = ep.onConn packet.connectionId (Connection.handleData ep.recvWindow
      packet.connectionId packet (a.payload.drop AdspPacket.HEADER_LEN) a.now) := by
    simp [AdspEndpoint.arrive, AdspEndpoint.handleDatagram, hparse, hdesc, hflags]
  simp only [pieceEnd, hparse]
  generalize a.payload.drop AdspPacket.HEADER_LEN = data at *
  have hconn : (c.handleData ep.recvWindow packet.connectionId packet data a.now).conn.recvSeq =
      (c.receive packet.connectionId packet data).conn.recvSeq := by
    rw [Connection.conn_handleData, Connection.recvSeq_applyAck]
  refine ⟨(c.handleData ep.recvWindow packet.connectionId packet data a.now).conn,
    (c.receive packet.connectionId packet data).events, ⟨?_, ?_, ?_, ?_⟩, ?_⟩
  · rw [harrive]
    simp only [AdspEndpoint.onConn, hc, getElem?_insert_eq, if_true]
  · rw [harrive]
    simp only [AdspEndpoint.onConn, hc, Connection.handleData_events]
  · rw [hconn]; exact hle
  · rw [hconn]; exact hdel
  · rw [hconn]; exact hstop

end

/-- **Reassembly.** Whatever pieces of a stream arrive, in whatever order and how often, the Data
    events deliver the items that `recvSeq` moves over, each once and in order, and never one past
    the end of the furthest piece. -/
theorem reassembles_pieces (P : List StreamItem) (hP : P.length < 2 ^ 31) (key : UInt16)
    (ep : AdspEndpoint) (c : Connection) (hc : ep.connections[key]? = some c)
    (hr : c.recvSeq.toNat ≤ P.length) (arrivals : List Arrival)
    (hpieces : ∀ a ∈ arrivals, Piece P key a.payload) :
    ∃ c' new, DeliversStream P key c ep (run AdspEndpoint.arrive ep arrivals) c' new ∧
      ∀ limit, c.recvSeq.toNat ≤ limit → (∀ a ∈ arrivals, pieceEnd a.payload ≤ limit) →
        c'.recvSeq.toNat ≤ limit := by
  induction arrivals generalizing ep c with
  | nil => exact ⟨c, [], .refl hc hr, fun limit hlimit _ => hlimit⟩
  | cons a arrivals ih =>
    obtain ⟨c₁, new₁, h₁, hstop⟩ := delivers_arrive hP hc hr (hpieces a List.mem_cons_self)
    obtain ⟨c₂, new₂, h₂, hlimit₂⟩ := ih (ep.arrive a) c₁ h₁.conn h₁.recv_le
      fun b hb => hpieces b (List.mem_cons_of_mem _ hb)
    refine ⟨c₂, new₁ ++ new₂, h₁.trans h₂, ?_⟩
    intro limit hlimit hall
    refine hlimit₂ limit ?_ fun b hb => hall b (List.mem_cons_of_mem _ hb)
    exact hstop.trans (max_le hlimit (hall a List.mem_cons_self))

/-- The peer's side of the connection 7. -/
def peerSeven : Connection := Connection.new 7 ⟨0, 2, 130⟩ 1024 0

/-- A record of two bytes, and the start of the next. -/
def twoRecords : List StreamItem := [.byte 104, .byte 105, .eom, .byte 120]

/-- One from beyond a hole, the record without its mark, one that overlaps it, the whole record, and
    the first again. -/
def jumbledPieces : List Bytes :=
  [peerSeven.dataPacket 1024 3 false [120], peerSeven.dataPacket 1024 0 false [104, 105],
    peerSeven.dataPacket 1024 1 true [105], peerSeven.dataPacket 1024 0 true [104, 105],
    peerSeven.dataPacket 1024 3 false [120]]

theorem piece_jumbledPieces : ∀ p ∈ jumbledPieces, Piece twoRecords 7 p := by
  simp only [jumbledPieces, List.forall_mem_cons]
  have hseven : (7 : UInt16) = peerSeven.ourConnId := rfl
  rw [hseven]
  refine ⟨piece_dataPacket ?_, piece_dataPacket ?_, piece_dataPacket ?_, piece_dataPacket ?_,
    piece_dataPacket ?_, nofun⟩ <;> unfold Segment <;> decide

theorem reassembles_pieces_jumbledPieces :
    ∃ c' new, DeliversStream twoRecords 7 connSeven openedSeven
      (run AdspEndpoint.arrive openedSeven (jumbledPieces.map (⟨⟨0, 1, 140⟩, ·, 5⟩))) c' new ∧
    ∀ limit, connSeven.recvSeq.toNat ≤ limit →
      (∀ a ∈ jumbledPieces.map (Arrival.mk ⟨0, 1, 140⟩ · 5), pieceEnd a.payload ≤ limit) →
      c'.recvSeq.toNat ≤ limit :=
  reassembles_pieces twoRecords (by decide) 7 openedSeven connSeven connSeven_opened
    (Nat.zero_le _) _ (by
      intro a ha
      obtain ⟨p, hp, rfl⟩ := List.mem_map.1 ha
      exact piece_jumbledPieces p hp)

/-- A listener that advertises no room, to which the peer at node 1 has opened
    its connection 7. -/
def closedSeven : AdspEndpoint :=
  (((AdspEndpoint.new 130 1).setListening true).setRecvWindow 0).handleDatagram ⟨0, 1, 140⟩
    openSeven 0

/-- The windows that some datagrams advertise. -/
def advertised (outbox : List (ServiceAddress × Bytes)) : List (Option UInt16) :=
  outbox.map fun rp => (AdspPacket.parse rp.2).toOption.map (·.recvWindow)

/-- A byte past the advertised window is delivered. -/
theorem closedSeven_past_window :
    Piece [.byte 65] 7 (peerSeven.dataPacket 1024 0 false [65]) ∧
    closedSeven.connections[(7 : UInt16)]? = some connSeven ∧
    advertised closedSeven.outbox = [some 0] ∧
    ((closedSeven.arrive ⟨⟨0, 1, 140⟩, peerSeven.dataPacket 1024 0 false [65], 5⟩).connections[
      (7 : UInt16)]?.map (·.recvSeq)) = some 1 ∧
    ¬ (1 : UInt32).toNat ≤ connSeven.recvSeq.toNat + (0 : UInt16).toNat ∧
    (closedSeven.arrive ⟨⟨0, 1, 140⟩, peerSeven.dataPacket 1024 0 false [65], 5⟩).events =
      closedSeven.events ++ [.data 7 [65] false] :=
  ⟨piece_dataPacket (c := peerSeven) (by unfold Segment; decide), by decide, by decide,
    by decide, by decide, by decide⟩

end TailTalk
