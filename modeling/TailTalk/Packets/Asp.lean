/-
  ASP headers — the four user bytes of an ATP request.
-/
import TailTalk.Packets.Atp

namespace TailTalk

open Lib

/-- Why a header is refused. -/
inductive AspError where
  | unknownFunction (value : UInt8)

/-- The result of an open that finds no room. -/
def ASP_SERVER_BUSY : Int32 := -1071

/-- What a request asks for. -/
inductive SPFunction where
  | closeSess
  | command
  | getStatus
  | openSess
  | tickle
  | write
  | writeContinue
  | attention
deriving DecidableEq

namespace SPFunction

/-- The function of a number. -/
def ofU8 (value : UInt8) : Except AspError SPFunction :=
  if value = 1 then .ok closeSess
  else if value = 2 then .ok command
  else if value = 3 then .ok getStatus
  else if value = 4 then .ok openSess
  else if value = 5 then .ok tickle
  else if value = 6 then .ok write
  else if value = 7 then .ok writeContinue
  else if value = 8 then .ok attention
  else .error (.unknownFunction value)

/-- The number on the wire. -/
def code : SPFunction → UInt8
  | closeSess => 1
  | command => 2
  | getStatus => 3
  | openSess => 4
  | tickle => 5
  | write => 6
  | writeContinue => 7
  | attention => 8

end SPFunction

/-- The user bytes of a request. -/
structure AspHeader where
  function : SPFunction
  sessionId : UInt8
  sequenceNumber : UInt16

namespace AspHeader

/-- User bytes are function, session and sequence number; there are always four. -/
def parse (buf : UserBytes) : Except AspError AspHeader :=
  match SPFunction.ofU8 (buf.toList.getD 0 0) with
  | .ok function =>
    .ok ⟨function, buf.toList.getD 1 0, ofBe16 (buf.toList.getD 2 0) (buf.toList.getD 3 0)⟩
  | .error e => .error e

end AspHeader

end TailTalk
