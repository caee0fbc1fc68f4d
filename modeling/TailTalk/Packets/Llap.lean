/-
  LLAP packets — the 3-byte header of a LocalTalk frame.
-/
import TailTalk.Lib.Bytes

namespace TailTalk

open Lib

/-- What a frame carries. -/
inductive LlapType where
  | ddpShort
  | ddpLong
  | enquiry
  | acknowledge
  | other (code : UInt8)
deriving DecidableEq

namespace LlapType

/-- The type of a number. -/
def ofU8 (orig : UInt8) : LlapType :=
  if orig = 1 then ddpShort
  else if orig = 2 then ddpLong
  else if orig = 0x81 then enquiry
  else if orig = 0x82 then acknowledge
  else other orig

/-- The number on the wire. -/
def code : LlapType → UInt8
  | ddpShort => 1
  | ddpLong => 2
  | enquiry => 0x81
  | acknowledge => 0x82
  | other n => n

end LlapType

/-- Why a frame is refused. -/
inductive LlapError where
  | tooShort

/-- The header of a frame. -/
structure LlapPacket where
  dstNode : UInt8
  srcNode : UInt8
  type : LlapType

namespace LlapPacket

/-- Its length. -/
def LEN : ℕ := 3

/-- Every index carries its bound. -/
def parse (buf : Bytes) : Except LlapError LlapPacket :=
  if h : buf.length < 3 then .error .tooShort
  else .ok {
    dstNode := buf[0]
    srcNode := buf[1]
    type := .ofU8 buf[2] }

/-- The header, as written at the front of a sized buffer. -/
def toBytes (p : LlapPacket) : Bytes := [p.dstNode, p.srcNode, p.type.code]

theorem parse_eq {buf : Bytes} (h : LEN ≤ buf.length) :
    parse buf = .ok ⟨buf.getD 0 0, buf.getD 1 0, .ofU8 (buf.getD 2 0)⟩ := by
  have h3 : ¬ buf.length < 3 := Nat.not_lt.2 h
  simp [parse, h3, List.getD_eq_getElem?_getD, show 0 < buf.length by omega,
    show 1 < buf.length by omega, show 2 < buf.length by omega]

/-- **Parsing reads back what was written**, whatever follows, for every header whose type
    is one of the named ones or none of their codes. -/
theorem parse_toBytes (p : LlapPacket) (rest : Bytes) (h : LlapType.ofU8 p.type.code = p.type) :
    parse (p.toBytes ++ rest) = .ok p := by
  rw [parse_eq (by simp [LEN, toBytes])]
  simp [toBytes, h]

end LlapPacket

end TailTalk
