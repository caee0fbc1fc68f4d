/-
  AEP packets — a function code before the bytes to echo.
-/
import TailTalk.Lib.Bytes

namespace TailTalk

open Lib

/-- Why a packet is refused. -/
inductive AepError where
  | unknownFunction (code : UInt8)
  | invalidSize (expected found : ℕ)

/-- An echo, or its reply. -/
inductive AepFunction where
  | request
  | reply

namespace AepFunction

/-- The number on the wire. -/
def code : AepFunction → UInt8
  | request => 1
  | reply => 2

/-- The function of a number. -/
def tryFrom (data : UInt8) : Except AepError AepFunction :=
  if data = 1 then .ok request
  else if data = 2 then .ok reply
  else .error (.unknownFunction data)

theorem tryFrom_code (f : AepFunction) : tryFrom f.code = .ok f := by
  cases f <;> rfl

end AepFunction

/-- The function of a packet. -/
def AepPacket.parse : Bytes → Except AepError AepFunction
  | [] => .error (.invalidSize 1 0)
  | code :: _ => AepFunction.tryFrom code

namespace Aep

/-- The well-known AEP socket. -/
def AEP_SOCKET : UInt8 := 4

/-- The reply to an AEP Request. -/
def respond (payload : Bytes) : Option Bytes :=
  match AepPacket.parse payload with
  | .ok .request => some (AepFunction.reply.code :: payload.tail)
  | _ => none

end Aep

end TailTalk
