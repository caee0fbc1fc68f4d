/-
  PAP packets as they travel over ATP — the four user bytes of the
  transaction hold the connection ID, the function code and, depending on the
  function, an EOF flag or a sequence number; the data is the payload.
-/
import TailTalk.Packets.Atp

namespace TailTalk

open Lib

/-- Why a PAP packet is refused. -/
inductive PapError where
  | unknownFunction (code : UInt8)

/-- What a packet is for. -/
inductive PapFunction where
  | openConn
  | openConnReply
  | sendData
  | data
  | tickle
  | closeConn
  | closeConnReply
  | sendStatus
  | status
deriving DecidableEq

namespace PapFunction

/-- The number on the wire. -/
def code : PapFunction → UInt8
  | openConn => 1
  | openConnReply => 2
  | sendData => 3
  | data => 4
  | tickle => 5
  | closeConn => 6
  | closeConnReply => 7
  | sendStatus => 8
  | status => 9

/-- The function of a number. -/
def tryFrom (value : UInt8) : Except PapError PapFunction :=
  if value = 1 then .ok openConn
  else if value = 2 then .ok openConnReply
  else if value = 3 then .ok sendData
  else if value = 4 then .ok data
  else if value = 5 then .ok tickle
  else if value = 6 then .ok closeConn
  else if value = 7 then .ok closeConnReply
  else if value = 8 then .ok sendStatus
  else if value = 9 then .ok status
  else .error (.unknownFunction value)

theorem tryFrom_code (f : PapFunction) : tryFrom f.code = .ok f := by
  cases f <;> rfl

end PapFunction

/-- The user bytes of a transaction. -/
structure PapPacket where
  connectionId : UInt8
  function : PapFunction
  /-- meaningful only for `sendData` -/
  sequenceNum : UInt16
  /-- meaningful only for `data` -/
  eof : Bool
  data : Bytes

namespace PapPacket

/-- The ATP user bytes and payload. -/
def toAtpParts (p : PapPacket) : UserBytes × Bytes :=
  (match p.function with
    | .data => #v[p.connectionId, p.function.code, if p.eof then 1 else 0, 0]
    | .sendData => #v[p.connectionId, p.function.code,
        UInt8.ofNat (p.sequenceNum.toNat / 256), UInt8.ofNat p.sequenceNum.toNat]
    | _ => #v[p.connectionId, p.function.code, 0, 0],
    p.data)

/-- Read a packet from ATP user bytes and payload. -/
def parseFromAtp (userBytes : UserBytes) (data : Bytes) : Except PapError PapPacket := do
  let function ← PapFunction.tryFrom (userBytes.toList.getD 1 0)
  .ok {
    connectionId := userBytes.toList.getD 0 0
    function
    sequenceNum :=
      if function = .sendData then
        readBe16 [userBytes.toList.getD 2 0, userBytes.toList.getD 3 0]
      else 0
    eof := function == .data && userBytes.toList.getD 2 0 != 0
    data }

/-- What a reader sees: the fields that the function does not carry are lost. -/
def onAtp (p : PapPacket) : PapPacket :=
  { p with
    sequenceNum := if p.function = .sendData then p.sequenceNum else 0
    eof := p.function == .data && p.eof }

/-- **Parsing reads back what was written.** -/
theorem parseFromAtp_toAtpParts (p : PapPacket) :
    parseFromAtp p.toAtpParts.1 p.toAtpParts.2 = .ok p.onAtp := by
  obtain ⟨id, f, seq, eof, data⟩ := p
  have hseq : readBe16 [UInt8.ofNat (seq.toNat / 256), UInt8.ofNat seq.toNat] = seq :=
    readBe16_be16 seq []
  cases f with
  | data => cases eof <;> rfl
  | sendData =>
    change Except.ok (PapPacket.mk id .sendData
        (readBe16 [UInt8.ofNat (seq.toNat / 256), UInt8.ofNat seq.toNat]) false data) =
      Except.ok (PapPacket.mk id .sendData seq false data)
    rw [hseq]
  | _ => rfl

end PapPacket

end TailTalk
