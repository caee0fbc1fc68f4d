/-
  AARP packets — 28 bytes that bind AppleTalk addresses to Ethernet ones.
-/
import TailTalk.Lib.Bytes
import Mathlib.Data.Vector.Basic

namespace TailTalk

open Lib

/-- The address of an Ethernet card. -/
abbrev EthernetMac := Vector UInt8 6

/-- Why an AARP packet is refused. -/
inductive AarpError where
  | invalidSize
  | unknownOpcode (code : UInt16)
  | unsupportedHardwareSize (size : UInt8)

/-- The address of a node. -/
structure AppleTalkAddress where
  networkNumber : UInt16
  nodeNumber : UInt8
deriving DecidableEq, Hashable, Repr

/-- The link a packet arrived on. -/
inductive AddressSource where
  | etherTalkPhase2
  | etherTalkPhase1
  | localTalk
deriving DecidableEq

namespace AppleTalkAddress

/-- The first of the four bytes is not used. -/
def decode (b : Vector UInt8 4) : AppleTalkAddress :=
  ⟨ofBe16 (b.toList.getD 1 0) (b.toList.getD 2 0), b.toList.getD 3 0⟩

/-- An address on the wire, in four bytes. -/
def encode (a : AppleTalkAddress) : Bytes := 0 :: (be16 a.networkNumber ++ [a.nodeNumber])

end AppleTalkAddress

/-- What a packet is for. -/
inductive AarpOpcode where
  | request
  | response
  | probe
deriving DecidableEq

namespace AarpOpcode

/-- Its number on the wire. -/
def code : AarpOpcode → UInt16
  | request => 1
  | response => 2
  | probe => 3

/-- The opcode of a number. -/
def tryFrom (n : UInt16) : Except AarpError AarpOpcode :=
  if n = 1 then .ok request
  else if n = 2 then .ok response
  else if n = 3 then .ok probe
  else .error (.unknownOpcode n)

theorem tryFrom_code (o : AarpOpcode) : tryFrom o.code = .ok o := by
  cases o <;> rfl

theorem tryFrom_isOk (n : UInt16) : (∃ o, tryFrom n = .ok o) ↔ n = 1 ∨ n = 2 ∨ n = 3 := by
  constructor
  · rintro ⟨o, ho⟩
    unfold tryFrom at ho
    split_ifs at ho with h₁ h₂ h₃
    · exact Or.inl h₁
    · exact Or.inr (Or.inl h₂)
    · exact Or.inr (Or.inr h₃)
  · rintro (rfl | rfl | rfl)
    · exact ⟨request, rfl⟩
    · exact ⟨response, rfl⟩
    · exact ⟨probe, rfl⟩

end AarpOpcode

/-- Two pairs of addresses. -/
structure AarpPacket where
  hardwareType : UInt16
  protocolType : UInt16
  hardwareSize : UInt8
  protocolSize : UInt8
  opcode : AarpOpcode
  senderAddr : EthernetMac
  senderProtocol : AppleTalkAddress
  targetAddr : EthernetMac
  targetProtocol : AppleTalkAddress

namespace AarpPacket

/-- The length of a packet. -/
def LEN : ℕ := 28

/-- `buf[start..start + n]`, copied into an array. -/
def field (buf : Bytes) (start n : ℕ) (h : start + n ≤ buf.length) : Vector UInt8 n :=
  .ofFn fun i => buf[start + i.1]

/-- First the size, then the opcode, then the hardware size; every index and field carries its
    bound. -/
def parse (buf : Bytes) : Except AarpError AarpPacket :=
  if h : buf.length < 28 then .error .invalidSize
  else
    match AarpOpcode.tryFrom (ofBe16 buf[6] buf[7]) with
    | .error e => .error e
    | .ok opcode =>
      if buf[4] ≠ 6 then .error (.unsupportedHardwareSize buf[4])
      else .ok {
        hardwareType := ofBe16 buf[0] buf[1]
        protocolType := ofBe16 buf[2] buf[3]
        hardwareSize := buf[4]
        protocolSize := buf[5]
        opcode
        senderAddr := field buf 8 6 (by omega)
        senderProtocol := .decode (field buf 14 4 (by omega))
        targetAddr := field buf 18 6 (by omega)
        targetProtocol := .decode (field buf 24 4 (by omega)) }

/-- The packet, as written at the front of a sized buffer. -/
def toBytes (p : AarpPacket) : Bytes :=
  be16 p.hardwareType ++ be16 p.protocolType ++ [p.hardwareSize, p.protocolSize] ++
    be16 p.opcode.code ++ p.senderAddr.toList ++ p.senderProtocol.encode ++
    p.targetAddr.toList ++ p.targetProtocol.encode

@[simp] theorem toBytes_length (p : AarpPacket) : p.toBytes.length = LEN := by
  simp [toBytes, AppleTalkAddress.encode, LEN]

/-- Long enough, with a known opcode and six-byte hardware addresses. -/
def WellFormed (buf : Bytes) : Prop :=
  LEN ≤ buf.length ∧ (ofBe16 (buf.getD 6 0) (buf.getD 7 0) = 1 ∨
    ofBe16 (buf.getD 6 0) (buf.getD 7 0) = 2 ∨ ofBe16 (buf.getD 6 0) (buf.getD 7 0) = 3) ∧
    buf.getD 4 0 = 6

instance (buf : Bytes) : Decidable (WellFormed buf) := by
  unfold WellFormed
  infer_instance

theorem parse_isOk (buf : Bytes) : (∃ p, parse buf = .ok p) ↔ WellFormed buf := by
  by_cases hlen : buf.length < 28
  · have hno : ¬ WellFormed buf := fun hw => absurd hw.1 (Nat.not_le.2 hlen)
    constructor
    · rintro ⟨p, hp⟩
      rw [parse, dif_pos hlen] at hp
      cases hp
    · intro hw
      exact absurd hw hno
  · have h4 : buf.getD 4 0 = buf[4] := by
      simp [List.getD_eq_getElem?_getD, show 4 < buf.length by omega]
    have h6 : buf.getD 6 0 = buf[6] := by
      simp [List.getD_eq_getElem?_getD, show 6 < buf.length by omega]
    have h7 : buf.getD 7 0 = buf[7] := by
      simp [List.getD_eq_getElem?_getD, show 7 < buf.length by omega]
    have hlen' : LEN ≤ buf.length := Nat.not_lt.1 hlen
    simp only [WellFormed, hlen', true_and, h4, h6, h7, ← AarpOpcode.tryFrom_isOk, parse, hlen,
      dif_neg, not_false_iff]
    cases AarpOpcode.tryFrom (ofBe16 buf[6] buf[7]) with
    | error e =>
      constructor
      · rintro ⟨p, hp⟩
        cases hp
      · rintro ⟨⟨o, ho⟩, -⟩
        cases ho
    | ok o =>
      simp only [ne_eq, ite_not]
      by_cases hsize : buf[4] = 6
      · rw [if_pos hsize]
        exact ⟨fun _ => ⟨⟨o, rfl⟩, hsize⟩, fun _ => ⟨_, rfl⟩⟩
      · rw [if_neg hsize]
        constructor
        · rintro ⟨p, hp⟩
          cases hp
        · rintro ⟨-, hs⟩
          exact absurd hs hsize

theorem senderAddr_eq (m : EthernetMac) : ∃ a b c d e f, m = #v[a, b, c, d, e, f] := by
  obtain ⟨⟨bytes⟩, hsize⟩ := m
  match bytes, hsize with
  | [a, b, c, d, e, f], _ => exact ⟨a, b, c, d, e, f, rfl⟩

/-- **What is written is read back.** -/
theorem parse_toBytes {p : AarpPacket} (h : p.hardwareSize = 6) : parse p.toBytes = .ok p := by
  obtain ⟨hardwareType, protocolType, hardwareSize, protocolSize, opcode, senderAddr,
    senderProtocol, targetAddr, targetProtocol⟩ := p
  obtain ⟨a, b, c, d, e, f, rfl⟩ := senderAddr_eq senderAddr
  obtain ⟨a', b', c', d', e', f', rfl⟩ := senderAddr_eq targetAddr
  obtain rfl : hardwareSize = 6 := h
  have hopcode : AarpOpcode.tryFrom (ofBe16 (UInt8.ofNat (opcode.code.toNat / 256))
      (UInt8.ofNat opcode.code.toNat)) = .ok opcode := by
    rw [ofBe16_be16, AarpOpcode.tryFrom_code]
  have hdecode : ∀ x : AppleTalkAddress, AppleTalkAddress.decode #v[0,
      UInt8.ofNat (x.networkNumber.toNat / 256), UInt8.ofNat x.networkNumber.toNat,
      x.nodeNumber] = x :=
    fun x => congrArg (AppleTalkAddress.mk · x.nodeNumber) (ofBe16_be16 x.networkNumber)
  unfold parse
  rw [dif_neg (by rw [toBytes_length]; decide)]
  simp only [toBytes, AppleTalkAddress.encode, be16, List.cons_append, List.nil_append,
    List.getElem_cons_succ, List.getElem_cons_zero, Vector.toList_mk, hopcode]
  refine (if_neg fun hne => hne rfl).trans (congrArg Except.ok ?_)
  rw [AarpPacket.mk.injEq]
  exact ⟨ofBe16_be16 _, ofBe16_be16 _, rfl, rfl, rfl, rfl, hdecode senderProtocol, rfl,
    hdecode targetProtocol⟩

end AarpPacket

end TailTalk
