/-
  ASP server — the sessions of one service.

  A channel keeps all that was delivered on it, and the log all requests that
  were handled; the task looks at neither.
-/
import TailTalk.Atp.Request
import TailTalk.Lib.Run
import TailTalk.Packets.Asp

namespace TailTalk

open Lib

/-- The node of an address: a service keeps it while its sockets change. -/
def ServiceAddress.node (a : ServiceAddress) : UInt16 × UInt8 := (a.networkNumber, a.nodeNumber)

/-- A command for the owner of a session. -/
structure AspCommand where
  sequenceNumber : UInt16
  clientAddress : ServiceAddress
  data : Bytes
  atpMaxResponseBytes : ℕ
deriving DecidableEq

/-- The channel of an accepted session. -/
structure AspChannel where
  /-- where the session was opened from, and when -/
  opener : ServiceAddress
  openedAt : ℕ
  /-- whether the application still has its end -/
  open_ : Bool
  delivered : List AspCommand
deriving DecidableEq

/-- A command sent on a channel; it is lost where the application is gone. -/
def AspChannel.deliver (channel : AspChannel) (command : AspCommand) : AspChannel :=
  if channel.open_ then { channel with delivered := channel.delivered ++ [command] } else channel

/-- An open session. -/
structure AspState where
  addr : ServiceAddress
  /-- socket for what the server sends unasked -/
  sessionAddr : ServiceAddress
  /-- which channel commands go to -/
  channel : ℕ
  lastActivity : ℕ
deriving DecidableEq

/-- What the server sends. -/
inductive AspOutput where
  | response (dest : ServiceAddress) (userBytes : UserBytes) (data : Bytes)
  | tickle (dest : ServiceAddress) (sessionId : UInt8)
  | closeSess (dest : ServiceAddress) (sessionId : UInt8)

/-- Times are in milliseconds. -/
structure AspServer where
  /-- what GetStatus is answered with -/
  statusData : Bytes
  actualSocket : UInt8
  sessions : Std.TreeMap UInt8 AspState
  nextSessionId : UInt8
  /-- callers that wait for a session, and whether they still do -/
  acceptors : List Bool
  channels : List AspChannel
  sent : List AspOutput
  log : List (ℕ × AtpReceivedRequest)
  clock : ℕ
  running : Bool

namespace AspServer

/-- How long a session may be silent. -/
def SESSION_TIMEOUT : ℕ := 120 * 1000

/-- A server with no session. -/
def new (statusData : Bytes) (actualSocket : UInt8) : AspServer where
  statusData
  actualSocket
  sessions := ∅
  nextSessionId := 1
  acceptors := []
  channels := []
  sent := []
  log := []
  clock := 0
  running := true

/-- More to send. -/
def send (s : AspServer) (out : List AspOutput) : AspServer := { s with sent := s.sent ++ out }

/-- The response to a request. -/
def respond (s : AspServer) (req : AtpReceivedRequest) (userBytes : UserBytes) (data : Bytes) :
    AspServer :=
  s.send [.response req.source userBytes data]

/-- `user_bytes[1]` is the socket where the client wants to be sent to. -/
def openSess (s : AspServer) (req : AtpReceivedRequest) (header : AspHeader) : AspServer :=
  match s.acceptors with
  | [] => s.respond req ⟨⟨be32 ASP_SERVER_BUSY.toUInt32⟩, rfl⟩ []
  | waiting :: acceptors =>
    let sessionId := s.nextSessionId
    let clientCss : ServiceAddress := { req.source with socketNumber := header.sessionId }
    let s : AspServer := { s with
      acceptors
      nextSessionId := if sessionId = 255 then 1 else sessionId + 1
      sessions := s.sessions.insert sessionId ⟨req.source, clientCss, s.channels.length, s.clock⟩
      channels := s.channels ++ [⟨req.source, s.clock, waiting, []⟩] }
    s.respond req #v[s.actualSocket, sessionId, 0, 0] []

/-- The node is compared, but the session is closed either way; success is sent even where there
    is none. -/
def closeSess (s : AspServer) (req : AtpReceivedRequest) (header : AspHeader) : AspServer :=
  let s := match s.sessions[header.sessionId]? with
    | some sess =>
      if sess.addr.node = req.source.node then
        { s with sessions := s.sessions.erase header.sessionId }
      else { s with sessions := s.sessions.erase header.sessionId }
    | none => s
  s.respond req #v[0, header.sessionId, 0, 0] []

/-- The watchdog is reset before the owner is looked at. -/
def command (s : AspServer) (req : AtpReceivedRequest) (header : AspHeader) : AspServer :=
  match s.sessions[header.sessionId]? with
  | none => s
  | some sess =>
    let sess := { sess with lastActivity := s.clock }
    if sess.addr.node = req.source.node then
      { s with
        sessions := s.sessions.insert header.sessionId { sess with addr := req.source }
        channels := s.channels.modify sess.channel fun channel => channel.deliver
          ⟨header.sequenceNumber, req.source, req.data, req.maxResponseBytes⟩ }
    else { s with sessions := s.sessions.insert header.sessionId sess }

/-- Whoever sends it. -/
def tickle (s : AspServer) (header : AspHeader) : AspServer :=
  match s.sessions[header.sessionId]? with
  | none => s
  | some sess =>
    { s with sessions := s.sessions.insert header.sessionId { sess with lastActivity := s.clock } }

/-- One request, by the function it names. -/
def dispatch (s : AspServer) (req : AtpReceivedRequest) : AspServer :=
  match AspHeader.parse req.userBytes with
  | .error _ => s
  | .ok header =>
    match header.function with
    | .getStatus => s.respond req
        #v[0, header.sessionId, req.userBytes.toList.getD 2 0, req.userBytes.toList.getD 3 0]
        s.statusData
    | .openSess => s.openSess req header
    | .closeSess => s.closeSess req header
    | .command | .write => s.command req header
    | .tickle => s.tickle header
    | _ => s

/-- The same, with the log. -/
def handleRequest (s : AspServer) (req : AtpReceivedRequest) : AspServer :=
  { s.dispatch req with log := s.log ++ [(s.clock, req)] }

/-- Nothing was heard of a session for too long. -/
def timedOut (s : AspServer) (sess : AspState) : Bool := s.clock - sess.lastActivity > SESSION_TIMEOUT

/-- The 30-second timer. -/
def tick (s : AspServer) : AspServer :=
  let alive := s.sessions.filter fun _ sess => !s.timedOut sess
  let s := { s with sessions := alive }
  s.send (alive.toList.map fun e => .tickle e.2.sessionAddr e.1)

/-- Clients are told, and the task ends. -/
def shutdown (s : AspServer) : AspServer :=
  let out := s.sessions.toList.map fun e => AspOutput.closeSess e.2.sessionAddr e.1
  let s := { s with sessions := ∅, running := false }
  s.send out

/-- What the task waits for, and the time between. -/
inductive Event where
  | request (req : AtpReceivedRequest)
  | tick
  /-- a caller starts to wait for a session -/
  | accept
  /-- a caller that waits gives up -/
  | abandon (i : ℕ)
  /-- the application drops its end of a session -/
  | drop (channel : ℕ)
  | wait (time : ℕ)
  | shutdown

/-- One turn of it. -/
def step (s : AspServer) (event : Event) : AspServer :=
  match event with
  | .wait time => { s with clock := s.clock + time }
  | .drop channel =>
    { s with channels := s.channels.modify channel fun c => { c with open_ := false } }
  | event =>
    if s.running then
      match event with
      | .request req => s.handleRequest req
      | .tick => s.tick
      | .accept => { s with acceptors := s.acceptors ++ [true] }
      | .abandon i => { s with acceptors := s.acceptors.modify i fun _ => false }
      | .shutdown => s.shutdown
      | _ => s
    else s

end AspServer

end TailTalk
