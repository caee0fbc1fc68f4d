/-
  The ImageWriter role — a PAP printer with the option card's own commands.

  Job data is piped to the printer as it comes, except for a rename at the head
  of a job, which is the card's.  Between jobs the role asks the printer for
  its self ID and reads the colour ribbon out of the reply.
-/
import TailTalk.Pap.Server
import Mathlib

namespace TailTalk

open Lib

/-- Self ID query; the answer is `IW<width>[C][F]`. -/
def SELF_ID : Bytes := [0x1B, 0x3F]

/-- The card's rename command, followed by the new name as a Pascal string. -/
def RENAME : Bytes := [0x1B, 0x62]

/-- The ribbon, in the status of the card. -/
def STATUS_COLOUR_RIBBON : UInt16 := 0x0080

/-- Longest self ID reply worth waiting for. -/
def SELF_ID_MAX : ℕ := 6

/-- Quiet time that marks the end of the reply. -/
def SELF_ID_GAP : Micros := 150000

/-- How long to wait for a reply that never starts. -/
def SELF_ID_TIMEOUT : Micros := 2000000

/-- Where the role is in identifying the ribbon. -/
inductive Ident where
  /-- nothing asked yet, or a job just ended -/
  | due
  /-- the query is out; `last` is when a byte of the reply came -/
  | waiting (since : Micros) (last : Option Micros)
  | settled
deriving DecidableEq

/-- What the embedder is told. -/
inductive ImageWriterEvent where
  | connectionOpened (client : ServiceAddress)
  | toPrinter (data : Bytes)
  | jobEof
  | connectionClosed
  | rename (name : Bytes)
deriving DecidableEq

/-- The PAP server and what the role adds. -/
structure ImageWriterRole where
  server : PapServer
  ident : Ident
  identReply : Bytes
  /-- events of the role itself, ahead of the server's -/
  events : List ImageWriterEvent
  colourRibbon : Bool
  /-- the next job bytes are the first of a job -/
  jobStart : Bool

/-- A rename in a job's opening bytes: the command, a Pascal string, and
    nothing else. -/
def parseRename (bytes : Bytes) : Option Bytes :=
  if RENAME <+: bytes then
    match bytes.drop RENAME.length with
    | len :: name => if len = 0 ∨ name.length ≠ len.toNat then none else some name
    | [] => none
  else none

namespace ImageWriterRole

/-- Put the ribbon bit into the status, low byte first. -/
def applyStatus (s : ImageWriterRole) : ImageWriterRole :=
  let word : UInt16 := if s.colourRibbon then STATUS_COLOUR_RIBBON else 0
  { s with server := s.server.setStatus [(word &&& 0xFF).toUInt8, (word >>> 8).toUInt8] }

/-- Override the ribbon reading. -/
def setColourRibbon (s : ImageWriterRole) (colour : Bool) : ImageWriterRole :=
  { s with colourRibbon := colour }.applyStatus

/-- Report a whole status word, the ribbon bit with it. -/
def setStatusWord (s : ImageWriterRole) (word : UInt16) : ImageWriterRole :=
  { s with
    colourRibbon := word &&& STATUS_COLOUR_RIBBON != 0
    server := s.server.setStatus [(word &&& 0xFF).toUInt8, (word >>> 8).toUInt8] }

/-- A role that has not asked for the ribbon yet. -/
def new (listenerSocket connSocket : UInt8) : ImageWriterRole :=
  applyStatus {
    server := PapServer.new listenerSocket connSocket
    ident := .due
    identReply := []
    events := []
    colourRibbon := true
    jobStart := true }

/-- The room of the printer. -/
def setSinkCredit (s : ImageWriterRole) (bytes : ℕ) (now : Micros) : Option ImageWriterRole :=
  (s.server.setSinkCredit bytes now).map fun server => { s with server }

/-- Read the ribbon out of what arrived; only a reply that starts with `IW` is
    believed. -/
def settleIdent (s : ImageWriterRole) : ImageWriterRole :=
  let s :=
    if [0x49, 0x57] <+: s.identReply then
      { s with colourRibbon := s.identReply.contains 0x43 }.applyStatus
    else s
  { s with identReply := [], ident := .settled }

/-- Bytes the printer sent: only a self ID reply is of interest. -/
def printerInput (s : ImageWriterRole) (data : Bytes) (now : Micros) : ImageWriterRole :=
  match s.ident with
  | .waiting since _ =>
    let s := { s with identReply := s.identReply ++ data.take (SELF_ID_MAX - s.identReply.length) }
    if s.identReply.length ≥ SELF_ID_MAX then s.settleIdent
    else { s with ident := .waiting since (some now) }
  | _ => s

/-- A datagram for the server. -/
def handleDatagram (s : ImageWriterRole) (localSocket : UInt8) (src : ServiceAddress)
    (payload : Bytes) (now : Micros) : Option ImageWriterRole :=
  (s.server.handleDatagram localSocket src payload now).map fun server => { s with server }

/-- Issue or time out the self ID query, never while a job is open. -/
def pollIdent (s : ImageWriterRole) (now : Micros) : ImageWriterRole :=
  match s.ident with
  | .due =>
    if s.server.busy then s
    else
      { s with
        identReply := []
        events := s.events ++ [.toPrinter SELF_ID]
        ident := .waiting now none }
  | .waiting since last =>
    if (last.any fun t => now - t ≥ SELF_ID_GAP) || now - since ≥ SELF_ID_TIMEOUT then
      s.settleIdent
    else s
  | .settled => s

/-- The timers of the server and of the query. -/
def poll (s : ImageWriterRole) (now : Micros) : Option ImageWriterRole :=
  (s.server.poll now).map fun server => { s with server }.pollIdent now

/-- When it is to be polled. -/
def nextDeadline (s : ImageWriterRole) : Option Micros :=
  let ident := match s.ident with
    | .waiting since (some t) => some (min (t + SELF_ID_GAP) (since + SELF_ID_TIMEOUT))
    | .waiting since none => some (since + SELF_ID_TIMEOUT)
    -- While a job is open it is its end that wakes the query, not the clock.
    | .due => if s.server.busy then none else some 0
    | .settled => none
  (s.server.nextDeadline.toList ++ ident.toList).min?

/-- The next packet of the server. -/
def pollTransmit (s : ImageWriterRole) :
    Option (UInt8 × ServiceAddress × Bytes) × ImageWriterRole :=
  (s.server.pollTransmit.1, { s with server := s.server.pollTransmit.2 })

/-- The next event, the role's own first. -/
def pollEvent (s : ImageWriterRole) : Option ImageWriterEvent × ImageWriterRole :=
  match s.events with
  | event :: events => (some event, { s with events })
  | [] =>
    let (event, server) := s.server.pollEvent
    let s := { s with server }
    match event with
    | none => (none, s)
    | some (.connectionOpened client) =>
      (some (.connectionOpened client), { s with jobStart := true })
    | some .jobEof => (some .jobEof, { s with jobStart := true })
    | some .connectionClosed =>
      (some .connectionClosed, { s with ident := .due, jobStart := true })
    | some (.toPrinter bytes) =>
      -- A rename is only honoured at the head of a job: later on it may be
      -- part of a bitmap.
      (some (match parseRename bytes, s.jobStart with
        | some name, true => .rename name
        | _, _ => .toPrinter bytes), { s with jobStart := false })

end ImageWriterRole

end TailTalk
