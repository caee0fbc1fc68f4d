/-
  ADSP packets — the 13-byte header and its descriptor byte.

  The descriptor byte is the last one of the header: bit 7 tells control
  packets from data, bits 6-4 are the AckReq, EOM and Attention flags, and the
  low bits name the control code.  `parse_toBytes` is the round trip.
-/
import TailTalk.Lib.Bytes

namespace TailTalk

open Lib

/-- Why an ADSP header is refused. -/
inductive AdspPacketError where
  | invalidSize (expected found : ℕ)
  | unknownDescriptor (code : UInt8)
deriving DecidableEq

/-- Packet type codes. -/
inductive AdspDescriptor where
  | dataPacket
  | controlPacket
  | openConnRequest
  | openConnAck
  | openConnReqAck
  | openConnDeny
  | closeAdvice
  | forwardReset
  | forwardResetAck
  | retransmitAdvice
deriving DecidableEq

namespace AdspDescriptor

/-- The low bits of a descriptor. -/
def code : AdspDescriptor → UInt8
  | dataPacket => 0x00
  | controlPacket => 0x80
  | openConnRequest => 0x81
  | openConnAck => 0x82
  | openConnReqAck => 0x83
  | openConnDeny => 0x84
  | closeAdvice => 0x85
  | forwardReset => 0x86
  | forwardResetAck => 0x87
  | retransmitAdvice => 0x88

/-- What a descriptor byte stands for. -/
def tryFrom (value : UInt8) : Except AdspPacketError AdspDescriptor :=
  if value &&& 0x80 = 0 then .ok dataPacket
  else
    let code := value &&& 0x8F
    if code = 0x80 then .ok controlPacket
    else if code = 0x81 then .ok openConnRequest
    else if code = 0x82 then .ok openConnAck
    else if code = 0x83 then .ok openConnReqAck
    else if code = 0x84 then .ok openConnDeny
    else if code = 0x85 then .ok closeAdvice
    else if code = 0x86 then .ok forwardReset
    else if code = 0x87 then .ok forwardResetAck
    else if code = 0x88 then .ok retransmitAdvice
    else .error (.unknownDescriptor value)

theorem tryFrom_code (d : AdspDescriptor) : tryFrom d.code = .ok d := by
  cases d <;> decide

end AdspDescriptor

/-- The ADSP header. -/
structure AdspPacket where
  descriptor : AdspDescriptor
  connectionId : UInt16
  firstByteSeq : UInt32
  nextRecvSeq : UInt32
  recvWindow : UInt16
  flags : UInt8

namespace AdspPacket

/-- The length of the header. -/
def HEADER_LEN : ℕ := 13

/-- The flags of a descriptor byte. -/
def FLAG_CONTROL : UInt8 := 0x80
def FLAG_ACK : UInt8 := 0x40
def FLAG_EOM : UInt8 := 0x20
def FLAG_ATTENTION : UInt8 := 0x10

/-- Parse a header; the data that follows it is left to the caller. -/
def parse (buf : Bytes) : Except AdspPacketError AdspPacket := do
  if buf.length < HEADER_LEN then
    .error (.invalidSize HEADER_LEN buf.length)
  else
    let descByte := buf.getD 12 0
    let descriptor ← AdspDescriptor.tryFrom descByte
    .ok {
      descriptor
      connectionId := readBe16 buf
      firstByteSeq := readBe32 (buf.drop 2)
      nextRecvSeq := readBe32 (buf.drop 6)
      recvWindow := readBe16 (buf.drop 10)
      flags := descByte &&& 0xF0 }

/-- The 13 header bytes, as written at the front of a sized buffer. -/
def toBytes (p : AdspPacket) : Bytes :=
  be16 p.connectionId ++ (be32 p.firstByteSeq ++ (be32 p.nextRecvSeq ++
    (be16 p.recvWindow ++ [p.descriptor.code ||| p.flags])))

@[simp] theorem toBytes_length (p : AdspPacket) : p.toBytes.length = HEADER_LEN := by
  simp [toBytes, HEADER_LEN]

/-- What a reader of the header sees: the flags share their byte with the
    descriptor's control bit. -/
def onWire (p : AdspPacket) : AdspPacket :=
  { p with flags := (p.descriptor.code ||| p.flags) &&& 0xF0 }

/-- **Parsing reads back what was written**, whatever data follows, as long as
    the flags do not disturb the descriptor. -/
theorem parse_toBytes {p : AdspPacket}
    (hp : AdspDescriptor.tryFrom (p.descriptor.code ||| p.flags) = .ok p.descriptor)
    (data : Bytes) : parse (p.toBytes ++ data) = .ok p.onWire := by
  have hlen : ¬ (p.toBytes ++ data).length < HEADER_LEN := by simp
  have h12 : (p.toBytes ++ data).getD 12 0 = p.descriptor.code ||| p.flags := by
    simp [toBytes, be16, be32]
  have h2 : (p.toBytes ++ data).drop 2 = be32 p.firstByteSeq ++ (be32 p.nextRecvSeq ++
      (be16 p.recvWindow ++ ([p.descriptor.code ||| p.flags] ++ data))) := by
    simp [toBytes, be16, be32]
  have h6 : (p.toBytes ++ data).drop 6 = be32 p.nextRecvSeq ++
      (be16 p.recvWindow ++ ([p.descriptor.code ||| p.flags] ++ data)) := by
    simp [toBytes, be16, be32]
  have h10 : (p.toBytes ++ data).drop 10 = be16 p.recvWindow ++
      ([p.descriptor.code ||| p.flags] ++ data) := by
    simp [toBytes, be16, be32]
  have h0 : readBe16 (p.toBytes ++ data) = p.connectionId := by
    rw [toBytes, List.append_assoc, readBe16_be16]
  simp only [parse, hlen, if_false, h12, hp, h0, h2, h6, h10, readBe32_be32, readBe16_be16]
  rfl

theorem drop_toBytes (p : AdspPacket) (data : Bytes) :
    (p.toBytes ++ data).drop HEADER_LEN = data := by
  rw [← toBytes_length p, List.drop_left]

end AdspPacket

end TailTalk
