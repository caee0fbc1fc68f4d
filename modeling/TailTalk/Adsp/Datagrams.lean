/-
  The datagrams of a connection, as its peer parses them.

  Four kinds leave a connection: data packets, control packets (plain
  acknowledgements and CloseAdvice), attention messages and attention
  acknowledgements.  The last two carry the Attention flag, the first two do
  not.
-/
import TailTalk.Adsp.Connection

namespace TailTalk

open Lib

theorem parse_dataPacket (c : Connection) (w : UInt16) (seq : UInt32) (eom : Bool)
    (chunk : Bytes) : AdspPacket.parse (c.dataPacket w seq eom chunk) =
      .ok { descriptor := .dataPacket
            connectionId := c.ourConnId
            firstByteSeq := seq
            nextRecvSeq := c.recvSeq
            recvWindow := w
            flags := if eom then 0x60 else 0x40 } := by
  have htry : AdspDescriptor.tryFrom (AdspDescriptor.dataPacket.code |||
      (AdspPacket.FLAG_ACK ||| if eom then AdspPacket.FLAG_EOM else 0)) = .ok .dataPacket := by
    cases eom <;> decide
  have hflags : (AdspDescriptor.dataPacket.code |||
      (AdspPacket.FLAG_ACK ||| if eom then AdspPacket.FLAG_EOM else 0)) &&& 0xF0 =
      if eom then 0x60 else 0x40 := by
    cases eom <;> decide
  rw [Connection.dataPacket, AdspPacket.parse_toBytes]
  · simp only [AdspPacket.onWire, hflags]
  · exact htry

/-- A control packet without flags of its own shows the control bit. -/
theorem parse_control {p : AdspPacket}
    (hd : p.descriptor = .controlPacket ∨ p.descriptor = .closeAdvice) (hf : p.flags = 0) :
    AdspPacket.parse p.toBytes = .ok { p with flags := 0x80 } := by
  rw [← List.append_nil p.toBytes, AdspPacket.parse_toBytes]
  · rcases hd with hd | hd <;> simp only [AdspPacket.onWire, hd, hf] <;> rfl
  · rcases hd with hd | hd <;> rw [hd, hf] <;> decide

theorem parse_buildAttention (id : UInt16) (send recv : UInt32) (code : UInt16) (data : Bytes) :
    AdspPacket.parse (Connection.buildAttention id send recv code data) =
      .ok { descriptor := .dataPacket
            connectionId := id
            firstByteSeq := send
            nextRecvSeq := recv
            recvWindow := 0
            flags := 0x50 } := by
  have hflags : (AdspDescriptor.dataPacket.code |||
      (AdspPacket.FLAG_ACK ||| AdspPacket.FLAG_ATTENTION)) &&& 0xF0 = 0x50 := by decide
  have htry : AdspDescriptor.tryFrom (AdspDescriptor.dataPacket.code |||
      (AdspPacket.FLAG_ACK ||| AdspPacket.FLAG_ATTENTION)) = .ok .dataPacket := by decide
  rw [Connection.buildAttention, AdspPacket.parse_toBytes]
  · simp only [AdspPacket.onWire, hflags]
  · exact htry

theorem parse_attentionAck {p : AdspPacket} (hd : p.descriptor = .controlPacket)
    (hf : p.flags = AdspPacket.FLAG_ATTENTION) (data : Bytes) :
    AdspPacket.parse (p.toBytes ++ data) = .ok { p with flags := 0x90 } := by
  have hflags : (AdspDescriptor.controlPacket.code ||| AdspPacket.FLAG_ATTENTION) &&& 0xF0 =
      0x90 := by decide
  have htry : AdspDescriptor.tryFrom (AdspDescriptor.controlPacket.code |||
      AdspPacket.FLAG_ATTENTION) = .ok .controlPacket := by decide
  rw [AdspPacket.parse_toBytes]
  · simp only [AdspPacket.onWire, hd, hf, hflags]
  · rw [hd, hf]; exact htry

theorem drop_dataPacket (c : Connection) (w : UInt16) (seq : UInt32) (eom : Bool)
    (chunk : Bytes) : (c.dataPacket w seq eom chunk).drop AdspPacket.HEADER_LEN = chunk := by
  rw [Connection.dataPacket, AdspPacket.drop_toBytes]

theorem drop_buildAttention (id : UInt16) (send recv : UInt32) (code : UInt16) (data : Bytes) :
    (Connection.buildAttention id send recv code data).drop AdspPacket.HEADER_LEN =
      be16 code ++ data := by
  rw [Connection.buildAttention, AdspPacket.drop_toBytes]

end TailTalk
