/-
  ATP packets — the 8-byte transaction header.

  The control byte holds the function code in bits 7-6 and the XO, EOM and STS
  flags below it; the next byte is the request's bitmap or the response's
  sequence number.  `parse_toBytes` is the round trip.
-/
import TailTalk.Lib.Bytes
import Mathlib

namespace TailTalk

open Lib

/-- Why an ATP header is refused. -/
inductive AtpError where
  | invalidSize (expected found : ℕ)
  | unknownFunction (code : UInt8)
deriving DecidableEq

/-- What a packet is. -/
inductive AtpFunction where
  | request
  | response
  | release
deriving DecidableEq

namespace AtpFunction

/-- The number in its control byte. -/
def code : AtpFunction → UInt8
  | request => 1
  | response => 2
  | release => 3

/-- The function of a number. -/
def tryFrom (value : UInt8) : Except AtpError AtpFunction :=
  if value = 1 then .ok request
  else if value = 2 then .ok response
  else if value = 3 then .ok release
  else .error (.unknownFunction value)

/-- The control byte: the function code and the flags below it. -/
def control (f : AtpFunction) (xo eom sts : Bool) : UInt8 :=
  (f.code <<< 6) ||| (if xo then 0x20 else 0) ||| (if eom then 0x10 else 0) |||
    (if sts then 0x08 else 0)

theorem tryFrom_control (f : AtpFunction) (xo eom sts : Bool) :
    tryFrom ((f.control xo eom sts >>> 6) &&& 0x03) = .ok f := by
  cases f <;> cases xo <;> cases eom <;> cases sts <;> decide

theorem control_flags (f : AtpFunction) (xo eom sts : Bool) :
    (f.control xo eom sts &&& 0x20 != 0) = xo ∧ (f.control xo eom sts &&& 0x10 != 0) = eom ∧
      (f.control xo eom sts &&& 0x08 != 0) = sts := by
  cases f <;> cases xo <;> cases eom <;> cases sts <;> decide

end AtpFunction

/-- The four bytes of a transaction that belong to the client. -/
abbrev UserBytes := Vector UInt8 4

/-- The ATP header. -/
structure AtpPacket where
  function : AtpFunction
  xo : Bool
  eom : Bool
  sts : Bool
  bitmapSeqNum : UInt8
  tid : UInt16
  userBytes : UserBytes

namespace AtpPacket

/-- The length of the header. -/
def HEADER_LEN : ℕ := 8

/-- Parse a header; the data that follows it is left to the caller. -/
def parse (buf : Bytes) : Except AtpError AtpPacket := do
  if buf.length < HEADER_LEN then
    .error (.invalidSize HEADER_LEN buf.length)
  else
    let control := buf.getD 0 0
    let function ← AtpFunction.tryFrom ((control >>> 6) &&& 0x03)
    .ok {
      function
      xo := control &&& 0x20 != 0
      eom := control &&& 0x10 != 0
      sts := control &&& 0x08 != 0
      bitmapSeqNum := buf.getD 1 0
      tid := readBe16 (buf.drop 2)
      userBytes := .ofFn fun i => buf.getD (4 + i) 0 }

/-- The 8 header bytes, as written at the front of a sized buffer. -/
def toBytes (p : AtpPacket) : Bytes :=
  p.function.control p.xo p.eom p.sts :: p.bitmapSeqNum :: (be16 p.tid ++ p.userBytes.toList)

@[simp] theorem toBytes_length (p : AtpPacket) : p.toBytes.length = HEADER_LEN := by
  simp [toBytes, HEADER_LEN]

/-- **Parsing reads back what was written**, whatever data follows. -/
theorem parse_toBytes (p : AtpPacket) (data : Bytes) : parse (p.toBytes ++ data) = .ok p := by
  have hlen : ¬ (p.toBytes ++ data).length < HEADER_LEN := by simp
  have hcontrol : (p.toBytes ++ data).getD 0 0 = p.function.control p.xo p.eom p.sts := rfl
  have hseq : (p.toBytes ++ data).getD 1 0 = p.bitmapSeqNum := rfl
  have htid : readBe16 ((p.toBytes ++ data).drop 2) = p.tid := by
    have hdrop : (p.toBytes ++ data).drop 2 = be16 p.tid ++ (p.userBytes.toList ++ data) := by
      simp [toBytes]
    rw [hdrop, readBe16_be16]
  have huser : Vector.ofFn (fun i : Fin 4 => (p.toBytes ++ data).getD (4 + i) 0) =
      p.userBytes := by
    ext i hi
    simp only [Vector.getElem_ofFn, toBytes, be16, List.cons_append, List.nil_append]
    rw [show 4 + i = i + 1 + 1 + 1 + 1 by omega]
    simp only [List.getD_eq_getElem?_getD, List.getElem?_cons_succ]
    rw [List.getElem?_append_left (by simpa using hi)]
    simp [hi]
  obtain ⟨hxo, heom, hsts⟩ := AtpFunction.control_flags p.function p.xo p.eom p.sts
  simp only [parse, hlen, if_false, hcontrol, AtpFunction.tryFrom_control, hseq, htid, huser, hxo,
    heom, hsts]
  rfl

theorem drop_toBytes (p : AtpPacket) (data : Bytes) :
    (p.toBytes ++ data).drop HEADER_LEN = data := by
  rw [← toBytes_length p, List.drop_left]

end AtpPacket

end TailTalk
