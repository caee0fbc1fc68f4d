/-
  LLAP control frames — the firmware's autoresponder.

  Frames here include their two FCS bytes.  An ENQ for our node is answered
  with an ACK, an RTS with a CTS.
-/
import TailTalk.LocalTalk.Crc

namespace TailTalk.LocalTalk

open Lib

/-! ## Control frame types -/

/-- The types of control frames. -/
def ENQ : UInt8 := 0x81
def ACK : UInt8 := 0x82
def RTS : UInt8 := 0x84
def CTS : UInt8 := 0x85

/-- A complete frame: header, body and a valid FCS. -/
def frameCrcOk (frame : Bytes) : Bool := decide (5 ≤ frame.length) && crcOk frame

/-- A 5-byte control frame. -/
def control (dst src type : UInt8) : Bytes := [dst, src, type] ++ ltCrc [dst, src, type]

/-- ACK carries `dest = src = node` because we are claiming to own that ID. -/
def composeAck (node : UInt8) : Bytes := control node node ACK

/-- The answer to an RTS. -/
def composeCts (requester ourNode : UInt8) : Bytes := control requester ourNode CTS

/-- A frame is announced. -/
def composeRts (dest src : UInt8) : Bytes := control dest src RTS

/-- Decision the autoresponder reaches for a received frame. -/
inductive AutoReply where
  | none
  | ack (node : UInt8)
  | cts (requester ourNode : UInt8)

/-- The frame of a reply. -/
def AutoReply.intoFrame : AutoReply → Option Bytes
  | none => .none
  | ack node => some (composeAck node)
  | cts requester ourNode => some (composeCts requester ourNode)

/-- Decide whether a received frame requires an autonomous reply. -/
def autoReply (frame : Bytes) (ourNode : UInt8) : AutoReply :=
  if !frameCrcOk frame then .none
  else
    match frame with
    | dest :: src :: type :: _ =>
      if dest ≠ ourNode then .none
      else if type &&& 0x80 = 0 then .none
      else if type = ENQ then .ack dest
      else if type = RTS then .cts src dest
      else .none
    | _ => .none

theorem frameCrcOk_control (dst src type : UInt8) : frameCrcOk (control dst src type) = true := by
  have hlen : (control dst src type).length = 5 := rfl
  rw [frameCrcOk, hlen, control, crcOk_append_ltCrc]
  rfl

theorem autoReply_enq (ourNode src : UInt8) :
    autoReply (control ourNode src ENQ) ourNode = .ack ourNode := by
  have hself : ¬ ourNode ≠ ourNode := fun h => h rfl
  have hcontrol : ¬ ENQ &&& 0x80 = 0 := by decide
  unfold autoReply
  rw [frameCrcOk_control]
  exact (if_neg hself).trans ((if_neg hcontrol).trans (if_pos rfl))

end TailTalk.LocalTalk
