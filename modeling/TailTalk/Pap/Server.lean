/-
  The PAP printer server — one print job at a time, over two ATP sockets.

  The listener socket answers SendStatus and OpenConn; the connection socket
  carries the session: the client's reads, CloseConn, and the server's own
  SendData pulls.  A call that needs a TID while all are pending never returns,
  and is `none`.
-/
import TailTalk.Atp.Endpoint
import TailTalk.Lib.Run
import TailTalk.Packets.Pap

namespace TailTalk

open Lib

/-- The data of one packet. -/
def PAP_MAX_DATA_PER_PACKET : ℕ := 512

/-- Response packets one SendData pull may bring back. -/
def FLOW_QUANTUM : UInt8 := 8

/-- Bytes one of our SendData pulls can bring in. -/
def PULL_CAPACITY : ℕ := FLOW_QUANTUM.toNat * PAP_MAX_DATA_PER_PACKET

/-- How long a read is left waiting for output while the client is quiet. -/
def READ_IDLE_ANSWER : Micros := 2000000

/-- Between two tickles. -/
def TICKLE_INTERVAL : Micros := 30000000

/-- How long a client may be silent. -/
def INACTIVITY_TIMEOUT : Micros := 120000000

/-- Replies to client reads kept for retransmits with a fresh TID. -/
def READ_REPLY_CACHE_LEN : ℕ := 8

/-- Advance a PAP sequence number: 1-65535, wrapping to 1. -/
def nextPapSeq (seq : UInt16) : UInt16 := if seq = 65535 then 1 else seq + 1

/-- What the embedder is told. -/
inductive PapEvent where
  | connectionOpened (client : ServiceAddress)
  /-- job bytes for the printer -/
  | toPrinter (data : Bytes)
  /-- the client marked the end of a job -/
  | jobEof
  | connectionClosed
deriving DecidableEq

/-- A client read that waits for output. -/
structure PendingRead where
  source : ServiceAddress
  tid : UInt16
  bitmap : UInt8
  seq : UInt16

/-- A client's connection. -/
structure PapSession where
  connId : UInt8
  client : ServiceAddress
  pullSeq : UInt16
  /-- the ATP handle of the pull in flight -/
  outstandingPull : Option UInt16
  /-- bytes received since the last end of job -/
  jobBytes : ℕ
  readSeq : UInt16
  readCache : List (UInt16 × UserBytes × Bytes)
  pendingRead : Option PendingRead
  /-- printer output toward the client -/
  stdout : Bytes
  eofQueued : Bool
  lastClientWrite : Micros
  lastActivity : Micros
  nextTickle : Micros

/-- The two sockets, and the session if there is one. -/
structure PapServer where
  listener : AtpEndpoint
  connEp : AtpEndpoint
  status : Bytes
  session : Option PapSession
  sinkCredit : ℕ
  events : List PapEvent

namespace PapServer

/-- A server with no session. -/
def new (listenerSocket connSocket : UInt8) : PapServer where
  listener := AtpEndpoint.new listenerSocket
  connEp := AtpEndpoint.new connSocket
  status := []
  session := none
  sinkCredit := 0
  events := []

/-- There is a session. -/
def busy (s : PapServer) : Bool := s.session.isSome

/-- Set the status answered to SendStatus and embedded in OpenConnReply. -/
def setStatus (s : PapServer) (status : Bytes) : PapServer := { s with status := status.take 255 }

/-- The status with its length. -/
def statusPascal (s : PapServer) : Bytes := UInt8.ofNat s.status.length :: s.status

/-- Report an event. -/
def emit (s : PapServer) (event : PapEvent) : PapServer := { s with events := s.events ++ [event] }

/-- Answer a request with a PAP packet. -/
def respondPap (s : PapServer) (onListener : Bool) (source : ServiceAddress) (tid : UInt16)
    (pap : PapPacket) (now : Micros) : PapServer :=
  let (userBytes, data) := pap.toAtpParts
  if onListener then
    { s with
      listener := s.listener.respond source tid userBytes data PAP_MAX_DATA_PER_PACKET now }
  else
    { s with connEp := s.connEp.respond source tid userBytes data PAP_MAX_DATA_PER_PACKET now }

/-! ## The client's reads -/

/-- Serve a waiting read: output, EOF when it ended, or an empty reply once the client has been
    idle. -/
def answerRead (s : PapServer) (now : Micros) : PapServer :=
  match s.session with
  | none => s
  | some session =>
    match session.pendingRead with
    | none => s
    | some read =>
      let haveOutput := !session.stdout.isEmpty || session.eofQueued
      let idle := decide (now ≥ session.lastClientWrite + READ_IDLE_ANSWER)
      if !haveOutput && !idle then s
      else
        let maxPackets := min (max (countOnes read.bitmap) 1) 8
        let take := min session.stdout.length (maxPackets * PAP_MAX_DATA_PER_PACKET)
        let chunk := session.stdout.take take
        let stdout := session.stdout.drop take
        let eof := session.eofQueued && stdout.isEmpty
        let (userBytes, data) := ({ connectionId := session.connId
                                    function := .data
                                    sequenceNum := 0
                                    eof
                                    data := chunk } : PapPacket).toAtpParts
        let session := { session with
          pendingRead := none
          stdout
          eofQueued := if eof then false else session.eofQueued }
        let session :=
          if read.seq ≠ 0 then
            let cache := if session.readCache.length = READ_REPLY_CACHE_LEN
              then session.readCache.tail else session.readCache
            { session with
              readSeq := nextPapSeq session.readSeq
              readCache := cache ++ [(read.seq, userBytes, data)] }
          else session
        { s with
          session := some session
          connEp := s.connEp.respond read.source read.tid userBytes data
            PAP_MAX_DATA_PER_PACKET now }

/-! ## Pulls -/

/-- Issue the next pull if none is in flight and the sink can absorb a full reply. -/
def maybePull (s : PapServer) (now : Micros) : Option PapServer :=
  match s.session with
  | none => some s
  | some session =>
    if session.outstandingPull.isSome ∨ s.sinkCredit < PULL_CAPACITY then some s
    else
      let (userBytes, data) := ({ connectionId := session.connId
                                  function := .sendData
                                  sequenceNum := session.pullSeq
                                  eof := false
                                  data := [] } : PapPacket).toAtpParts
      (s.connEp.request session.client userBytes data 0xFF now).map fun (handle, connEp) =>
        { s with
          connEp
          session := some { session with outstandingPull := some handle } }

/-! ## ATP events -/

/-- The session that an accepted OpenConn starts. -/
def newSession (connId : UInt8) (client : ServiceAddress) (now : Micros) : PapSession where
  connId := connId
  client := client
  pullSeq := 1
  outstandingPull := none
  jobBytes := 0
  readSeq := 1
  readCache := []
  pendingRead := none
  stdout := []
  eofQueued := false
  lastClientWrite := now
  lastActivity := now
  nextTickle := now + TICKLE_INTERVAL

/-- The answer to SendStatus. -/
def statusReply (s : PapServer) : PapPacket where
  connectionId := 0
  function := .status
  sequenceNum := 0
  eof := false
  -- four unused bytes, then the Pascal string
  data := [0, 0, 0, 0] ++ s.statusPascal

/-- The reply to an OpenConn: the connection socket, the quantum, a result. -/
def openConnReply (s : PapServer) (connId socket : UInt8) (result : Bytes) : PapPacket where
  connectionId := connId
  function := .openConnReply
  sequenceNum := 0
  eof := false
  data := [socket, FLOW_QUANTUM] ++ result ++ s.statusPascal

/-- An event of the listener socket. -/
def handleListenerEvent (now : Micros) (s : PapServer) : AtpEvent → PapServer
  | .request source tid userBytes data _ _ =>
    match PapPacket.parseFromAtp userBytes data with
    | .error _ => s
    | .ok pap =>
      match pap.function with
      | .sendStatus => s.respondPap true source tid s.statusReply now
      | .openConn =>
        if pap.data.length < 2 then s
        else if s.session.isSome then
          -- busy: result 0xFFFF, the driver retries
          s.respondPap true source tid (s.openConnReply pap.connectionId 0 [0xFF, 0xFF]) now
        else
          let client : ServiceAddress :=
            ⟨source.networkNumber, source.nodeNumber, pap.data.getD 0 0⟩
          ({ s.respondPap true source tid
              (s.openConnReply pap.connectionId s.connEp.localSocket [0, 0]) now with
            session := some (newSession pap.connectionId client now) } : PapServer).emit
              (.connectionOpened client)
      | _ => s
  | _ => s

/-- A request on the connection socket, of the session `session`. -/
def handleConnRequest (now : Micros) (s : PapServer) (session : PapSession)
    (source : ServiceAddress) (tid : UInt16) (bitmap : UInt8) (pap : PapPacket) : PapServer :=
  let session := { session with lastActivity := now }
  match pap.function with
  | .sendData =>
    if pap.sequenceNum ≠ 0 ∧ pap.sequenceNum ≠ session.readSeq then
      -- A retransmit of an answered read gets the identical reply; anything
      -- else out of order is stale.
      match session.readCache.find? fun c => c.1 = pap.sequenceNum with
      | some (_, userBytes, data) =>
        { s with
          session := some session
          connEp := s.connEp.respond source tid userBytes data PAP_MAX_DATA_PER_PACKET now }
      | none => { s with session := some session }
    else
      { s with session := some { session with
          pendingRead := some ⟨source, tid, bitmap, pap.sequenceNum⟩ } }
  | .closeConn =>
    ({ s.respondPap false source tid
        { connectionId := pap.connectionId
          function := .closeConnReply
          sequenceNum := 0
          eof := false
          data := [] } now with
      session := none } : PapServer).emit .connectionClosed
  | _ => { s with session := some session }

/-- A Data reply to the pull of the session `session`. -/
def handlePullReply (now : Micros) (s : PapServer) (session : PapSession) (pap : PapPacket) :
    PapServer :=
  let jobBytes := session.jobBytes + pap.data.length
  let printed := if pap.data.isEmpty then [] else [PapEvent.toPrinter pap.data]
  -- An empty EOF that answers a pull after the job's own ends no job.
  let ended := pap.eof && decide (jobBytes > 0)
  { s with
    session := some { session with
      lastActivity := now
      lastClientWrite := now
      pullSeq := nextPapSeq session.pullSeq
      jobBytes := if ended then 0 else jobBytes }
    events := s.events ++ printed ++ if ended then [.jobEof] else [] }

/-- An event of the connection socket. -/
def handleConnEvent (now : Micros) (s : PapServer) : AtpEvent → PapServer
  | .request source tid userBytes data bitmap _ =>
    match PapPacket.parseFromAtp userBytes data, s.session with
    | .ok pap, some session =>
      if pap.connectionId ≠ session.connId then s
      else s.handleConnRequest now session source tid bitmap pap
    | _, _ => s
  | .response handle userBytes data =>
    match s.session with
    | none => s
    | some session =>
      if session.outstandingPull ≠ some handle then s
      else
        let session := { session with outstandingPull := none }
        match PapPacket.parseFromAtp userBytes data with
        | .error _ => { s with session := some session }
        | .ok pap =>
          if pap.function ≠ .data then { s with session := some session }
          else s.handlePullReply now session pap
  | .requestFailed handle =>
    -- The client is idle or gone; the pull is issued again.
    match s.session with
    | none => s
    | some session =>
      if session.outstandingPull = some handle then
        { s with session := some { session with outstandingPull := none } }
      else s

/-- Handle what the listener reports: its handler queues nothing there. -/
def drainListener (s : PapServer) (now : Micros) : PapServer :=
  run (handleListenerEvent now) { s with listener := { s.listener with events := [] } }
    s.listener.events

/-- Handle what the connection socket reports. -/
def drainConn (s : PapServer) (now : Micros) : PapServer :=
  run (handleConnEvent now) { s with connEp := { s.connEp with events := [] } } s.connEp.events

/-- Handle all events, then answer and pull. -/
def drain (s : PapServer) (now : Micros) : Option PapServer :=
  (((s.drainListener now).drainConn now).answerRead now).maybePull now

/-! ## The owner's calls -/

/-- Report free space in the printer sink. -/
def setSinkCredit (s : PapServer) (bytes : ℕ) (now : Micros) : Option PapServer :=
  ({ s with sinkCredit := bytes } : PapServer).maybePull now

/-- Queue printer output for the client's reads. -/
def queueOutput (s : PapServer) (data : Bytes) (now : Micros) : PapServer :=
  ({ s with session := s.session.map fun session =>
      { session with stdout := session.stdout ++ data } } : PapServer).answerRead now

/-- Mark the end of the printer output. -/
def endOutput (s : PapServer) (now : Micros) : PapServer :=
  ({ s with session := s.session.map fun session =>
      { session with eofQueued := true } } : PapServer).answerRead now

/-- A datagram for one of the sockets. -/
def handleDatagram (s : PapServer) (localSocket : UInt8) (src : ServiceAddress) (payload : Bytes)
    (now : Micros) : Option PapServer :=
  if localSocket = s.listener.localSocket then
    ({ s with listener := s.listener.handleDatagram src payload } : PapServer).drain now
  else if localSocket = s.connEp.localSocket then
    ({ s with connEp := s.connEp.handleDatagram src payload } : PapServer).drain now
  else s.drain now

/-- The session's own timers: end it when the client is gone, or tickle. -/
def pollSession (s : PapServer) (now : Micros) : Option PapServer :=
  match s.session with
  | none => some s
  | some session =>
    if now - session.lastActivity > INACTIVITY_TIMEOUT then
      some (({ s with session := none } : PapServer).emit .connectionClosed)
    else if now ≥ session.nextTickle then
      let tickle : PapPacket := { connectionId := session.connId
                                  function := .tickle
                                  sequenceNum := 0
                                  eof := false
                                  data := [] }
      (s.connEp.sendAlo session.client tickle.toAtpParts.1).map fun connEp =>
        { s with
          connEp
          session := some { session with nextTickle := now + TICKLE_INTERVAL } }
    else some s

/-- The timers. -/
def poll (s : PapServer) (now : Micros) : Option PapServer := do
  let s ← ({ s with listener := s.listener.poll now, connEp := s.connEp.poll now } :
    PapServer).drain now
  let s ← s.pollSession now
  (s.answerRead now).maybePull now

/-- When it is to be polled. -/
def nextDeadline (s : PapServer) : Option Micros :=
  let session := match s.session with
    | none => []
    | some session =>
      [session.nextTickle, session.lastActivity + INACTIVITY_TIMEOUT] ++
        if session.pendingRead.isSome then [session.lastClientWrite + READ_IDLE_ANSWER] else []
  (s.listener.nextDeadline.toList ++ s.connEp.nextDeadline.toList ++ session).min?

/-- Next outgoing DDP payload, with the socket it is sent from. -/
def pollTransmit (s : PapServer) : Option (UInt8 × ServiceAddress × Bytes) × PapServer :=
  match s.listener.pollTransmit with
  | (some (dest, payload), listener) =>
    (some (s.listener.localSocket, dest, payload), { s with listener })
  | (none, _) =>
    match s.connEp.pollTransmit with
    | (some (dest, payload), connEp) =>
      (some (s.connEp.localSocket, dest, payload), { s with connEp })
    | (none, _) => (none, s)

/-- The next event for the embedder. -/
def pollEvent (s : PapServer) : Option PapEvent × PapServer :=
  (s.events.head?, { s with events := s.events.tail })

end PapServer

end TailTalk
