/-
  The ADSP endpoint — every connection on one DDP socket.

  Connections are keyed by the peer's ConnID, which inbound packets carry, and
  an outbound open by our own until it is acknowledged.  `onConn` runs a
  connection's operation and queues what it produces.
-/
import Std.Data.TreeMap
import TailTalk.Adsp.Connection

namespace TailTalk

open Lib

/-- Why an application call is refused. -/
inductive AdspError where
  | noSuchConnection
  | attentionInFlight

/-- An outbound open awaiting its acknowledgement. -/
structure PendingOpen where
  remote : ServiceAddress
  lastTx : Micros
  retries : ℕ

/-- The connections of one socket, with what is to be sent and reported of them. -/
structure AdspEndpoint where
  localSocket : UInt8
  /-- accept inbound opens -/
  listening : Bool
  recvWindow : UInt16
  connections : Std.TreeMap UInt16 Connection
  pendingOpens : Std.TreeMap UInt16 PendingOpen
  rng : Rand
  outbox : List (ServiceAddress × Bytes)
  events : List AdspEvent

namespace AdspEndpoint

/-- An endpoint with no connection. -/
def new (localSocket : UInt8) (seed : UInt32) : AdspEndpoint where
  localSocket := localSocket
  listening := false
  recvWindow := DEFAULT_RECV_WINDOW
  connections := ∅
  pendingOpens := ∅
  rng := Rand.new seed
  outbox := []
  events := []

/-- Queue a datagram. -/
def push (ep : AdspEndpoint) (remote : ServiceAddress) (payload : Bytes) : AdspEndpoint :=
  { ep with outbox := ep.outbox ++ [(remote, payload)] }

/-- Report an event. -/
def emit (ep : AdspEndpoint) (event : AdspEvent) : AdspEndpoint :=
  { ep with events := ep.events ++ [event] }

/-- Run an operation on the connection under `key`, if there is one. -/
def onConn (ep : AdspEndpoint) (key : UInt16) (f : Connection → Effect) : AdspEndpoint :=
  match ep.connections[key]? with
  | none => ep
  | some c =>
    { ep with
      connections := ep.connections.insert key (f c).conn
      outbox := ep.outbox ++ (f c).packets.map fun p => ((f c).conn.remote, p)
      events := ep.events ++ (f c).events }

/-- A connection is gone. -/
def forget (ep : AdspEndpoint) (key : UInt16) : AdspEndpoint :=
  { ep with connections := ep.connections.erase key }

/-! ## Application calls -/

/-- The peer of a connection. -/
def remoteOf (ep : AdspEndpoint) (conn : UInt16) : Option ServiceAddress :=
  ep.connections[conn]?.map (·.remote)

/-- Accept inbound opens, or do not. -/
def setListening (ep : AdspEndpoint) (on : Bool) : AdspEndpoint := { ep with listening := on }

/-- Set the receive window. Reopening a closed one is announced on every connection. -/
def setRecvWindow (ep : AdspEndpoint) (window : UInt16) : AdspEndpoint :=
  let reopened := ep.recvWindow == 0 && window > 0
  let ep := { ep with recvWindow := window }
  if reopened then
    ep.connections.keys.foldl (fun ep key => ep.onConn key (Connection.sendAck ep.recvWindow)) ep
  else ep

/-- The first leg of the handshake. -/
def sendOpenRequest (ep : AdspEndpoint) (connId : UInt16) (remote : ServiceAddress) :
    AdspEndpoint :=
  -- Version 0x0100, DestConnID 0, attention receive sequence 0.
  ep.push remote (({ descriptor := .openConnRequest
                     connectionId := connId
                     firstByteSeq := 0
                     nextRecvSeq := 0
                     recvWindow := ep.recvWindow
                     flags := 0 } : AdspPacket).toBytes ++ (be16 0x0100 ++ List.replicate 6 0))

/-- A later leg, with the ConnID it answers. -/
def sendOpenReply (ep : AdspEndpoint) (descriptor : AdspDescriptor)
    (ourConnId destConnId : UInt16) (remote : ServiceAddress) : AdspEndpoint :=
  ep.push remote (({ descriptor
                     connectionId := ourConnId
                     firstByteSeq := 0
                     nextRecvSeq := 0
                     recvWindow := ep.recvWindow
                     flags := 0 } : AdspPacket).toBytes ++
    (be16 0x0100 ++ (be16 destConnId ++ List.replicate 4 0)))

/-- The loop of `connect` that draws a free ConnID; `none` where `fuel` draws
    gave none. -/
def drawConnId (pendingOpens : Std.TreeMap UInt16 PendingOpen) :
    ℕ → Rand → Option (UInt16 × Rand)
  | 0, _ => none
  | fuel + 1, rng =>
    let (x, rng) := rng.nextU32
    let id := x.toUInt16
    if id ≠ 0 ∧ ¬ pendingOpens.contains id then some (id, rng)
    else drawConnId pendingOpens fuel rng

/-- Begin an outbound connect. The generator has fewer than `2 ^ 32` states, so a loop that has not
    ended by then never does. -/
def connect (ep : AdspEndpoint) (remote : ServiceAddress) (now : Micros) :
    Option (UInt16 × AdspEndpoint) :=
  (drawConnId ep.pendingOpens 4294967296 ep.rng).map fun (connId, rng) =>
    (connId, ({ ep with
      rng
      pendingOpens := ep.pendingOpens.insert connId ⟨remote, now, 0⟩ }).sendOpenRequest
        connId remote)

/-- Bytes queued or unacknowledged toward the peer. -/
def txBacklog (ep : AdspEndpoint) (conn : UInt16) : ℕ :=
  match ep.connections[conn]? with
  | none => 0
  | some c => c.flightBuffer.length +
      (c.pendingWrites.map fun w => w.data.length - w.offset).sum

/-- Queue stream data; `eom` marks a record boundary after it. The result identifies the write. -/
def send (ep : AdspEndpoint) (conn : UInt16) (data : Bytes) (eom : Bool) :
    Except AdspError ℕ × AdspEndpoint :=
  match ep.connections[conn]? with
  | none => (.error .noSuchConnection, ep)
  | some c =>
    (.ok (c.writesSubmitted + 1),
      ep.onConn conn fun c => (c.queueWrite data eom).pump ep.recvWindow none)

/-- How many writes the peer's window has admitted. -/
def writesCompleted (ep : AdspEndpoint) (conn : UInt16) : Option ℕ :=
  ep.connections[conn]?.map (·.writesCompleted)

/-- Send an out-of-band attention message; only one may be outstanding. -/
def sendAttention (ep : AdspEndpoint) (conn : UInt16) (code : UInt16) (data : Bytes)
    (now : Micros) : Except AdspError Unit × AdspEndpoint :=
  match ep.connections[conn]? with
  | none => (.error .noSuchConnection, ep)
  | some c =>
    if c.attnInFlight.isSome then (.error .attentionInFlight, ep)
    else (.ok (), ep.onConn conn (Connection.startAttention code data now))

/-- Give up an open that was not answered. -/
def abandonOpen (ep : AdspEndpoint) (pending : UInt16) : AdspEndpoint :=
  { ep with pendingOpens := ep.pendingOpens.erase pending }

/-- Send CloseAdvice and forget the connection. -/
def close (ep : AdspEndpoint) (conn : UInt16) : AdspEndpoint :=
  match ep.connections[conn]? with
  | none => ep
  | some c =>
    (ep.forget conn).push c.remote ({ descriptor := .closeAdvice
                                      connectionId := c.ourConnId
                                      firstByteSeq := c.sendSeq
                                      nextRecvSeq := c.recvSeq
                                      recvWindow := 0
                                      flags := 0 } : AdspPacket).toBytes

/-! ## Received datagrams -/

/-- A peer opens a connection. -/
def handleOpenRequest (ep : AdspEndpoint) (src : ServiceAddress) (packet : AdspPacket)
    (now : Micros) : AdspEndpoint :=
  if ¬ ep.listening then ep
  else
    let clientConnId := packet.connectionId
    match ep.connections[clientConnId]? with
    | some c =>
      -- A retransmitted open, our reply was lost: acknowledge it again.
      ep.sendOpenReply .openConnReqAck c.ourConnId clientConnId src
    | none =>
      let (x, rng) := ep.rng.nextU32
      let ourConnId := x.toUInt16 ||| 1
      (({ ep with
          rng
          connections := ep.connections.insert clientConnId
            (Connection.new ourConnId src packet.recvWindow now) }).sendOpenReply
        .openConnReqAck ourConnId clientConnId src).emit
          (.opened clientConnId src true none)

/-- Our ConnID in the open parameters, or the sender's where they are cut
    off. -/
def echoedConnId (packet : AdspPacket) (payload : Bytes) : UInt16 :=
  if 17 ≤ payload.length then readBe16 (payload.drop 15) else packet.connectionId

/-- A peer answers an open, or completes its own. -/
def handleOpenAck (ep : AdspEndpoint) (src : ServiceAddress) (packet : AdspPacket)
    (payload : Bytes) (now : Micros) : AdspEndpoint :=
  let serverConnId := packet.connectionId
  let ourConnId := echoedConnId packet payload
  -- Only the second leg is answered; the third completes the handshake.
  let isReqAck := packet.descriptor == .openConnReqAck
  let answer := fun ep : AdspEndpoint =>
    ep.sendOpenReply .openConnAck ourConnId serverConnId src
  let opened := AdspEvent.opened serverConnId src false (some ourConnId)
  if ep.connections.contains serverConnId then
    if isReqAck then answer ep else ep
  else if ¬ ep.pendingOpens.contains ourConnId then
    -- A second answer to one of our opens: the peer talks on the newer key.
    match ep.connections.toList.find? fun kc => kc.2.ourConnId = ourConnId with
    | none => ep
    | some (stale, c) =>
      (answer { ep with
        connections := (ep.connections.erase stale).insert serverConnId c }).emit opened
  else
    let ep := { ep with
      pendingOpens := ep.pendingOpens.erase ourConnId
      connections := ep.connections.insert serverConnId
        (Connection.new ourConnId src packet.recvWindow now) }
    (if isReqAck then answer ep else ep).emit opened

/-- Feed a received DDP payload addressed to our socket. -/
def handleDatagram (ep : AdspEndpoint) (src : ServiceAddress) (payload : Bytes)
    (now : Micros) : AdspEndpoint :=
  match AdspPacket.parse payload with
  | .error _ => ep
  | .ok packet =>
    let data := payload.drop AdspPacket.HEADER_LEN
    let key := packet.connectionId
    if packet.flags &&& AdspPacket.FLAG_ATTENTION ≠ 0 then
      -- A message and its acknowledgement share the Attention flag.
      if packet.flags &&& AdspPacket.FLAG_CONTROL ≠ 0 ∨ packet.descriptor = .controlPacket then
        ep.onConn key (Connection.handleAttentionAck key packet)
      else ep.onConn key (Connection.handleAttention key packet data)
    else
      match packet.descriptor with
      | .openConnRequest => ep.handleOpenRequest src packet now
      | .openConnAck | .openConnReqAck => ep.handleOpenAck src packet payload now
      | .openConnDeny =>
        let ourId := echoedConnId packet payload
        if ep.pendingOpens.contains ourId then (ep.abandonOpen ourId).emit (.openFailed ourId)
        else ep
      | .dataPacket | .controlPacket =>
        ep.onConn key (Connection.handleData ep.recvWindow key packet data now)
      | .retransmitAdvice =>
        ep.onConn key fun c => (c.applyAck ep.recvWindow packet now).andThen
          (Connection.resendUnacked ep.recvWindow now)
      | .closeAdvice =>
        if ep.connections.contains key then (ep.forget key).emit (.closed key) else ep
      | .forwardReset | .forwardResetAck => ep

/-! ## Timers -/

/-- The deadline of the next timed action. -/
def nextDeadline (ep : AdspEndpoint) : Option Micros :=
  let conns := ep.connections.values
  let retrans := (conns.filter (·.flightBuffer ≠ [])).map (·.lastTx + RETRANSMIT_TIMEOUT)
  let opens := ep.pendingOpens.values.map (·.lastTx + OPEN_RETRY_INTERVAL)
  let attns := (conns.filterMap (·.attnInFlight)).map (·.lastTx + ATTN_RETRY_INTERVAL)
  (retrans ++ (opens ++ attns)).min?

/-- Open request retries: those that ran out fail first, then the others are
    sent again. -/
def pollOpens (ep : AdspEndpoint) (now : Micros) : AdspEndpoint :=
  let due := ep.pendingOpens.toList.filter fun io => ¬ now - io.2.lastTx < OPEN_RETRY_INTERVAL
  let failed := due.filter fun io => io.2.retries + 1 > MAX_OPEN_RETRIES
  let retry := due.filter fun io => ¬ io.2.retries + 1 > MAX_OPEN_RETRIES
  let ep := failed.foldl (fun ep io => (ep.abandonOpen io.1).emit (.openFailed io.1)) ep
  retry.foldl (fun ep io =>
    ({ ep with
      pendingOpens := ep.pendingOpens.insert io.1 ⟨io.2.remote, now, io.2.retries + 1⟩ }
      ).sendOpenRequest io.1 io.2.remote) ep

/-- Data retransmission on one connection. -/
def pollData (now : Micros) (ep : AdspEndpoint) (key : UInt16) : AdspEndpoint :=
  match ep.connections[key]? with
  | none => ep
  | some c =>
    if ¬ c.retransmitDue now then ep
    else
      let retries := min (c.retries + 1) 255
      if retries > ADSP_MAX_RETRIES then (ep.forget key).emit (.closed key)
      else ep.onConn key fun c => ({ c with retries } : Connection).resendUnacked ep.recvWindow now

/-- Drive the timers: opens, then attentions, then data. -/
def poll (ep : AdspEndpoint) (now : Micros) : AdspEndpoint :=
  let ep := ep.pollOpens now
  let ep := ep.connections.keys.foldl
    (fun ep key => ep.onConn key (Connection.pollAttention key now)) ep
  ep.connections.keys.foldl (pollData now) ep

/-- The next outgoing payload. -/
def pollTransmit (ep : AdspEndpoint) : Option (ServiceAddress × Bytes) × AdspEndpoint :=
  (ep.outbox.head?, { ep with outbox := ep.outbox.tail })

/-- The next event for the owner. -/
def pollEvent (ep : AdspEndpoint) : Option AdspEvent × AdspEndpoint :=
  (ep.events.head?, { ep with events := ep.events.tail })

end AdspEndpoint

end TailTalk
