/-
  A connection of the LaserWriter emulator — jobs in, the printer's stdout out.

  An input is one arm of the `select!` of `PapServer::accept`.  Requests to the
  listener are answered beside the session and touch nothing of it, so their
  replies are not kept here.
-/
import TailTalk.LaserWriter.Session
import TailTalk.Pap.Client

namespace TailTalk

open Lib

/-- How long a read is left waiting by a client that does not write. -/
def PAP_READ_IDLE_ANSWER : Micros := 2000000

/-- The writes a real interpreter would have flushed, waiting to be read. -/
structure PrinterStdout where
  writes : List Bytes
  /-- how far into the first of them the last response got -/
  pos : ℕ
  pos_le : pos ≤ (writes.headD []).length

namespace PrinterStdout

/-- Nothing was written. -/
def empty : PrinterStdout := ⟨[], 0, Nat.le_refl 0⟩

/-- More is written. -/
def queue (s : PrinterStdout) (writes : List Bytes) : PrinterStdout where
  writes := s.writes ++ writes
  pos := s.pos
  pos_le := by
    obtain ⟨ws, pos, hle⟩ := s
    cases ws with
    | nil => exact Nat.le_trans hle (Nat.zero_le _)
    | cons => exact hle

/-- The next response body, and whether it is the last for this job. -/
def nextChunk (s : PrinterStdout) (max : ℕ) : (Bytes × Bool) × PrinterStdout :=
  match s.writes with
  | [] => (([], true), s)
  | write :: rest =>
    let take := min (write.length - s.pos) max
    let chunk := (write.drop s.pos).take take
    if h : s.pos + take ≥ write.length then ((chunk, rest.isEmpty), ⟨rest, 0, Nat.zero_le _⟩)
    else ((chunk, false), ⟨write :: rest, s.pos + take, Nat.le_of_not_le h⟩)

end PrinterStdout

/-- Why a read is answered. -/
inductive AnswerKind where
  /-- there is output, or the end of it -/
  | output
  /-- the client does not write, either -/
  | idle
  /-- it was answered before -/
  | again
deriving DecidableEq

/-- A read, and the reply that is sent to it. -/
structure ReadAnswer where
  req : AtpTransaction
  seq : UInt16
  userBytes : UserBytes
  chunk : Bytes
  kind : AnswerKind
deriving DecidableEq

/-- What a turn has the ATP endpoint of the connection do. -/
inductive HostCommand where
  | pull (seq : UInt16)
  | tickle
  | closeConnReply (req : AtpTransaction)
  | answer (answer : ReadAnswer)

/-- The write side, the printer's stdout and the client's read. -/
structure HostSession where
  connectionId : UInt8
  clientDataAddr : ServiceAddress
  /-- the number of the pull in flight -/
  seq : UInt16
  write : LaserSession
  stdout : PrinterStdout
  /-- output may be handed to a waiting read -/
  responseReady : Bool
  pendingRead : Option (AtpTransaction × UInt16)
  lastClientWrite : Micros
  readSeq : UInt16
  readReplyCache : List CachedReply
  lastActivity : Micros
  /-- the loop has returned -/
  closed : Bool

/-- The arms of the loop. -/
inductive HostInput where
  | idleRead
  /-- what the client wrote, and what the printer says of itself at the time -/
  | pulled (userBytes : UserBytes) (data : Bytes) (attrs : PrinterAttributes)
  | pullTimedOut
  | request (req : AtpTransaction)
  | responderClosed
  | listener (userBytes : UserBytes) (data : Bytes)
  | listenerClosed
  | tickleTick

/-- Where an arm leads: to the waiting read, straight to the next turn, or out
    of the loop. -/
inductive ArmEnd where
  | serves
  | continues
  | returns

namespace HostSession

/-- A connection that was just opened. -/
def start (connectionId : UInt8) (clientDataAddr : ServiceAddress) (now : Micros) :
    HostSession where
  connectionId
  clientDataAddr
  seq := 1
  write := .start
  stdout := .empty
  responseReady := false
  pendingRead := none
  lastClientWrite := now
  readSeq := 1
  readReplyCache := []
  lastActivity := now
  closed := false

/-- Queue the printer's answers. -/
def queue (s : HostSession) (writes : List Bytes) : HostSession :=
  { s with stdout := s.stdout.queue writes, responseReady := true }

/-- Once a packet is in the job buffer. -/
def handleJob (attrs : PrinterAttributes) (s : HostSession) (eof : Bool) : HostSession :=
  if eof ∧ s.write.job.data.isEmpty then s
  else if eof then
    { s with write := s.write.finishJob attrs }.queue
      (if pqpIsQuery s.write.job.data then pqpWrites attrs s.write.job.unanswered else [])
  else if pqpIsQuery s.write.job.data then
    match pqpAnswerablePrefix s.write.job.unanswered with
    | some stop =>
      { s with write := s.write.answer attrs stop }.queue
        (pqpWrites attrs (s.write.job.unanswered.take stop))
    | none => s
  else s

/-- The client answers the pull. -/
def pulled (s : HostSession) (userBytes : UserBytes) (data : Bytes) (attrs : PrinterAttributes)
    (now : Micros) : HostSession × List HostCommand × ArmEnd :=
  let s := { s with lastActivity := now }
  match PapPacket.parseFromAtp userBytes data with
  | .error _ => (s, [], .returns)
  | .ok packet =>
    if packet.function ≠ .data then (s, [], .returns)
    else
      let s := { s with lastClientWrite := now, write := s.write.push packet.data }.handleJob attrs
        packet.eof
      ({ s with seq := nextPapSeq s.seq }, [.pull (nextPapSeq s.seq)], .serves)

/-- A read of the client. -/
def sendData (s : HostSession) (req : AtpTransaction) (seq : UInt16) :
    HostSession × List HostCommand :=
  if seq ≠ 0 ∧ seq ≠ s.readSeq then
    match cachedReply s.readReplyCache seq with
    | some (_, userBytes, chunk) => (s, [.answer ⟨req, seq, userBytes, chunk, .again⟩])
    | none => (s, [])
  else ({ s with pendingRead := some (req, seq) }, [])

/-- The client asks for something. -/
def request (s : HostSession) (req : AtpTransaction) (now : Micros) :
    HostSession × List HostCommand × ArmEnd :=
  match PapPacket.parseFromAtp req.userBytes req.data with
  | .error _ => (s, [], .continues)
  | .ok pap =>
    if pap.connectionId ≠ s.connectionId then (s, [], .continues)
    else
      let s := { s with lastActivity := now }
      match pap.function with
      | .sendData =>
        let (s, out) := s.sendData req pap.sequenceNum
        (s, out, .serves)
      | .closeConn => ({ s with write := s.write.close }, [.closeConnReply req], .returns)
      | _ => (s, [], .serves)

/-- One arm of the loop. -/
def arm (s : HostSession) (now : Micros) : HostInput → HostSession × List HostCommand × ArmEnd
  | .idleRead => (s, [], .serves)
  | .pulled userBytes data attrs => s.pulled userBytes data attrs now
  | .pullTimedOut =>
    if now - s.lastActivity > INACTIVITY_TIMEOUT then (s, [], .returns)
    else (s, [.pull s.seq], .serves)
  | .request req => s.request req now
  | .responderClosed => (s, [], .returns)
  | .listener userBytes data =>
    match PapPacket.parseFromAtp userBytes data with
    | .error _ => (s, [], .continues)
    | .ok _ => (s, [], .serves)
  | .listenerClosed => (s, [], .returns)
  | .tickleTick =>
    if now - s.lastActivity > INACTIVITY_TIMEOUT then (s, [], .returns)
    else (s, [.tickle], .serves)

/-- A read was answered. -/
def answered (s : HostSession) (seq : UInt16) (userBytes : UserBytes) (chunk : Bytes) (eof : Bool)
    (stdout : PrinterStdout) : HostSession :=
  { s with
    stdout
    pendingRead := none
    readSeq := if seq ≠ 0 then nextPapSeq s.readSeq else s.readSeq
    readReplyCache :=
      if seq ≠ 0 then rememberReply s.readReplyCache seq userBytes chunk else s.readReplyCache
    -- with the eof the output of this job is served
    responseReady := s.responseReady && !eof }

/-- The packet that carries the printer's output. -/
def outputPacket (connectionId : UInt8) (eof : Bool) (chunk : Bytes) : PapPacket where
  connectionId
  function := .data
  sequenceNum := 0
  eof
  data := chunk

/-- Answer the waiting read: with output, or empty once the client has not written for a while. -/
def answerRead (s : HostSession) (now : Micros) : HostSession × List HostCommand :=
  match s.pendingRead with
  | none => (s, [])
  | some (req, seq) =>
    let idleAnswer := !s.responseReady && decide (now ≥ s.lastClientWrite + PAP_READ_IDLE_ANSWER)
    if s.responseReady || idleAnswer then
      let ((chunk, eof), stdout) :=
        if idleAnswer then (([], false), s.stdout)
        else s.stdout.nextChunk (req.maxPackets * PAP_MAX_DATA_PER_PACKET)
      let (userBytes, data) := (outputPacket s.connectionId eof chunk).toAtpParts
      (s.answered seq userBytes data eof stdout,
        [.answer ⟨req, seq, userBytes, data, if idleAnswer then .idle else .output⟩])
    else (s, [])

/-- One turn of the loop, and what it sends. -/
def step (s : HostSession) (input : HostInput) (now : Micros) : HostSession × List HostCommand :=
  if s.closed then (s, [])
  else
    match s.arm now input with
    | (s, out, .serves) => ((s.answerRead now).1, out ++ (s.answerRead now).2)
    | (s, out, .continues) => (s, out)
    | (s, out, .returns) => ({ s with closed := true }, out)

end HostSession

end TailTalk
