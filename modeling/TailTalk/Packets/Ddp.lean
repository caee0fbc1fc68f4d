/-
  DDP packets — the 13-byte long header and the 5-byte short one.

  The low ten bits of the first word are the datagram's length, header
  included.  The short form takes its node numbers from the LLAP header that
  carries it.
-/
import TailTalk.Lib.Bytes

namespace TailTalk

open Lib

/-- Why a DDP header is refused. -/
inductive DdpError where
  | invalidSize (expected found : ℕ)
  | unknownHeader (header : UInt8)
deriving DecidableEq

/-- Whom a datagram is for. -/
inductive DdpProtocolType where
  | rtmpResponse
  | nbp
  | atp
  | aep
  | rtmpRequest
  | zip
  | adsp
  | other (code : UInt8)
deriving DecidableEq

namespace DdpProtocolType

/-- The protocol of a number. -/
def ofU8 (data : UInt8) : DdpProtocolType :=
  if data = 1 then rtmpResponse
  else if data = 2 then nbp
  else if data = 3 then atp
  else if data = 4 then aep
  else if data = 5 then rtmpRequest
  else if data = 6 then zip
  else if data = 7 then adsp
  else other data

/-- The number on the wire. -/
def code : DdpProtocolType → UInt8
  | rtmpResponse => 1
  | nbp => 2
  | atp => 3
  | aep => 4
  | rtmpRequest => 5
  | zip => 6
  | adsp => 7
  | other v => v

end DdpProtocolType

/-- A header of either form. -/
structure DdpPacket where
  hopCount : UInt8
  len : ℕ
  chksum : UInt16
  destNetworkNum : UInt16
  srcNetworkNum : UInt16
  destNodeId : UInt8
  destSockNum : UInt8
  srcSockNum : UInt8
  srcNodeId : UInt8
  protocolTyp : DdpProtocolType
deriving DecidableEq

namespace DdpPacket

/-- The length of the long form. -/
def LEN : ℕ := 13

/-- The length of the short one. -/
def SHORT_LEN : ℕ := 5

/-- One byte into the rotating sum. -/
def checksumByte (csum : UInt16) (byte : UInt8) : UInt16 :=
  let csum := csum + byte.toUInt16
  (csum <<< 1) ||| (csum >>> 15)

/-- A sum of zero is sent as all ones. -/
def computeChecksum (buf : Bytes) : UInt16 :=
  let csum := buf.foldl checksumByte 0
  if csum = 0 then 0xFFFF else csum

/-- The 10-bit length field at the front of either header. -/
def lengthField (bytes : Bytes) : ℕ := (readBe16 bytes &&& 0x3FF).toNat

/-- Every index carries its bound. -/
def parse (bytes : Bytes) : Except DdpError DdpPacket :=
  if h : bytes.length < 13 then .error (.invalidSize 13 bytes.length)
  else .ok {
    hopCount := (bytes[0] &&& 0x3C) >>> 2
    len := (ofBe16 bytes[0] bytes[1] &&& 0x3FF).toNat
    chksum := ofBe16 bytes[2] bytes[3]
    destNetworkNum := ofBe16 bytes[4] bytes[5]
    srcNetworkNum := ofBe16 bytes[6] bytes[7]
    destNodeId := bytes[8]
    srcNodeId := bytes[9]
    destSockNum := bytes[10]
    srcSockNum := bytes[11]
    protocolTyp := .ofU8 bytes[12] }

/-- The header of a short datagram. -/
def parseShort (bytes : Bytes) (dstNode srcNode : UInt8) : Except DdpError DdpPacket :=
  if h : bytes.length < 5 then .error (.invalidSize 5 bytes.length)
  else .ok {
    destNodeId := dstNode
    hopCount := 0
    len := (ofBe16 bytes[0] bytes[1] &&& 0x3FF).toNat
    chksum := 0
    destNetworkNum := 0
    srcNetworkNum := 0
    srcNodeId := srcNode
    destSockNum := bytes[2]
    srcSockNum := bytes[3]
    protocolTyp := .ofU8 bytes[4] }

/-- The long header, as written at the front of a sized buffer. -/
def toBytes (p : DdpPacket) : Bytes :=
  be16 (((p.hopCount.toUInt16 &&& 0xF) <<< 10) ||| (UInt16.ofNat p.len &&& 0x3FF)) ++
    be16 p.chksum ++ be16 p.destNetworkNum ++ be16 p.srcNetworkNum ++
    [p.destNodeId, p.srcNodeId, p.destSockNum, p.srcSockNum, p.protocolTyp.code]

/-- The short header, as written at the front of a sized buffer. -/
def toBytesShort (p : DdpPacket) : Bytes :=
  be16 (UInt16.ofNat p.len &&& 0x3FF) ++ [p.destSockNum, p.srcSockNum, p.protocolTyp.code]

@[simp] theorem toBytes_length (p : DdpPacket) : p.toBytes.length = LEN := rfl

@[simp] theorem toBytesShort_length (p : DdpPacket) : p.toBytesShort.length = SHORT_LEN := rfl

theorem lengthField_eq {bytes : Bytes} (h : 2 ≤ bytes.length) :
    (ofBe16 bytes[0] bytes[1] &&& 0x3FF).toNat = lengthField bytes := by
  simp [lengthField, readBe16, ofBe16, List.getD_eq_getElem?_getD,
    show 0 < bytes.length by omega, show 1 < bytes.length by omega]

/-- A header of `size` bytes is refused for want of bytes alone, and carries the length
    field. -/
def SizeChecked (size : ℕ) (bytes : Bytes) (r : Except DdpError DdpPacket) : Prop :=
  (bytes.length < size ∧ r = .error (.invalidSize size bytes.length)) ∨
    (size ≤ bytes.length ∧ ∃ p, r = .ok p ∧ p.len = lengthField bytes)

theorem parse_sizeChecked (bytes : Bytes) : SizeChecked LEN bytes (parse bytes) := by
  by_cases h : bytes.length < 13
  · exact Or.inl ⟨h, dif_pos h⟩
  · refine Or.inr ⟨Nat.not_lt.1 h, _, dif_neg h, ?_⟩
    exact lengthField_eq (by omega)

theorem parseShort_sizeChecked (bytes : Bytes) (dstNode srcNode : UInt8) :
    SizeChecked SHORT_LEN bytes (parseShort bytes dstNode srcNode) := by
  by_cases h : bytes.length < 5
  · exact Or.inl ⟨h, dif_pos h⟩
  · refine Or.inr ⟨Nat.not_lt.1 h, _, dif_neg h, ?_⟩
    exact lengthField_eq (by omega)

/-! ## Reading back -/

/-- The low ten bits of a word, written out. -/
theorem and_lengthMask (v : UInt16) : (v &&& 0x3FF).toNat = v.toNat % 1024 := by
  rw [UInt16.toNat_and]
  exact Nat.and_two_pow_sub_one_eq_mod v.toNat 10

theorem firstWord_toNat {hopCount : UInt8} {len : ℕ} (hhop : hopCount.toNat < 16)
    (hlen : len < 1024) : (((hopCount.toUInt16 &&& 0xF) <<< 10) |||
      (UInt16.ofNat len &&& 0x3FF)).toNat = 1024 * hopCount.toNat + len := by
  have hlow : (UInt16.ofNat len &&& 0x3FF).toNat = len := by
    rw [and_lengthMask, UInt16.toNat_ofNat']
    omega
  have hhigh : ((hopCount.toUInt16 &&& 0xF) <<< 10).toNat = 2 ^ 10 * hopCount.toNat := by
    rw [UInt16.toNat_shiftLeft, UInt16.toNat_and]
    have hmask : hopCount.toUInt16.toNat &&& 15 = hopCount.toNat % 16 :=
      Nat.and_two_pow_sub_one_eq_mod hopCount.toNat 4
    change (hopCount.toUInt16.toNat &&& 15) <<< 10 % 2 ^ 16 = _
    rw [hmask, Nat.shiftLeft_eq]
    omega
  rw [UInt16.toNat_or, hlow, hhigh]
  exact (Nat.two_pow_add_eq_or_of_lt hlen hopCount.toNat).symm

theorem hopByte {n : ℕ} (h : n < 64) : ((UInt8.ofNat n &&& 0x3C) >>> 2).toNat = n / 4 := by
  have hall : ∀ n < 64, ((UInt8.ofNat n &&& 0x3C) >>> 2).toNat = n / 4 := by decide
  exact hall n h

/-- What a reader of a long header sees: a protocol that has a name goes by it. -/
def onWire (p : DdpPacket) : DdpPacket := { p with protocolTyp := .ofU8 p.protocolTyp.code }

/-- What a reader of a short header sees, with the node numbers of the link. -/
def onShortWire (p : DdpPacket) (dstNode srcNode : UInt8) : DdpPacket :=
  { p.onWire with
    hopCount := 0
    chksum := 0
    destNetworkNum := 0
    srcNetworkNum := 0
    destNodeId := dstNode
    srcNodeId := srcNode }

/-- **Parsing reads back what was written**, whatever follows. -/
theorem parse_toBytes {p : DdpPacket} (hhop : p.hopCount.toNat < 16) (hlen : p.len < 1024)
    (data : Bytes) : parse (p.toBytes ++ data) = .ok p.onWire := by
  have hword := firstWord_toNat hhop hlen
  have hsize : ¬ (p.toBytes ++ data).length < 13 := by
    rw [List.length_append, toBytes_length, LEN]
    omega
  have hcount : (UInt8.ofNat ((1024 * p.hopCount.toNat + p.len) / 256) &&& 0x3C) >>> 2 =
      p.hopCount := by
    apply UInt8.toNat_inj.1
    rw [hopByte (by omega)]
    omega
  rw [parse, dif_neg hsize]
  simp only [toBytes, be16, List.cons_append, List.nil_append, List.getElem_cons_zero,
    List.getElem_cons_succ]
  simp only [ofBe16_be16, and_lengthMask]
  rw [hword, hcount, show (1024 * p.hopCount.toNat + p.len) % 1024 = p.len by omega]
  rfl

theorem parseShort_toBytesShort {p : DdpPacket} (hlen : p.len < 1024) (dstNode srcNode : UInt8)
    (data : Bytes) : parseShort (p.toBytesShort ++ data) dstNode srcNode =
      .ok (p.onShortWire dstNode srcNode) := by
  have hsize : ¬ (p.toBytesShort ++ data).length < 5 := by
    rw [List.length_append, toBytesShort_length, SHORT_LEN]
    omega
  rw [parseShort, dif_neg hsize]
  simp only [toBytesShort, be16, List.cons_append, List.nil_append, List.getElem_cons_zero,
    List.getElem_cons_succ]
  rw [ofBe16_be16, and_lengthMask, and_lengthMask, UInt16.toNat_ofNat',
    show p.len % 2 ^ 16 % 1024 % 1024 = p.len by omega]
  rfl

end DdpPacket

end TailTalk
