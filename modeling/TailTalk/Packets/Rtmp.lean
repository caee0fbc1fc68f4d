/-
  RTMP Data packets — what a router broadcasts on every cable.
-/
import TailTalk.Packets.Aarp

namespace TailTalk

open Lib

/-- Why a packet is refused. -/
inductive RtmpError where
  | tooShort (expected found : ℕ)
  | unsupportedIdLength (length : UInt8)
  | tooManyTuples

/-- A routing tuple: one network, or a contiguous range of them. -/
inductive RtmpTuple where
  | nonExtended (network : UInt16) (distance : UInt8)
  | extended (rangeStart : UInt16) (distance : UInt8) (rangeEnd : UInt16)

/-- A router and the networks it knows. -/
structure RtmpDataPacket where
  routerNetwork : UInt16
  nodeId : UInt8
  tuples : List RtmpTuple

namespace RtmpDataPacket

/-- Most routing tuples one DDP datagram can carry. -/
def MAX_RTMP_TUPLES : ℕ := (586 - 4) / 3

/-- The tuples in `rest`, after those in `tuples`.  The high bit of the third byte tells the
    two kinds apart. -/
def parseTuples (tuples : List RtmpTuple) : Bytes → Except RtmpError (List RtmpTuple)
  | [] => .ok tuples
  | hi :: lo :: dist :: tail =>
    if dist &&& 0x80 = 0 then
      if tuples.length < MAX_RTMP_TUPLES then
        parseTuples (tuples ++ [.nonExtended (ofBe16 hi lo) dist]) tail
      else .error .tooManyTuples
    else
      match tail with
      | eHi :: eLo :: _ :: tail =>
        if tuples.length < MAX_RTMP_TUPLES then
          parseTuples (tuples ++ [.extended (ofBe16 hi lo) (dist &&& 0x7F) (ofBe16 eHi eLo)]) tail
        else .error .tooManyTuples
      | _ => .error (.tooShort 6 (3 + tail.length))
  | rest => .error (.tooShort 3 rest.length)

/-- The version indicator of a non-extended network is skipped. -/
def skipVersion : Bytes → Bytes
  | 0x00 :: 0x00 :: 0x82 :: rest => rest
  | rest => rest

/-- A packet, all of whose tuples are whole. -/
def parse : Bytes → Except RtmpError RtmpDataPacket
  | netHi :: netLo :: idLength :: nodeId :: rest =>
    if idLength ≠ 8 then .error (.unsupportedIdLength idLength)
    else
      match parseTuples [] (skipVersion rest) with
      | .ok tuples => .ok { routerNetwork := ofBe16 netHi netLo, nodeId, tuples }
      | .error e => .error e
  | buf => .error (.tooShort 4 buf.length)

end RtmpDataPacket

namespace Rtmp

/-- The well-known RTMP socket. -/
def RTMP_SOCKET : UInt8 := 1

/-- What one RTMP broadcast taught us. -/
structure RtmpObservation where
  router : AppleTalkAddress
  cableNetwork : Option UInt16

/-- Digest an RTMP Data packet.  A short-form source falls back to the cable's own number. -/
def observe (payload : Bytes) (srcNetwork : UInt16) (srcNode : UInt8) : Option RtmpObservation :=
  match RtmpDataPacket.parse payload with
  | .error _ => none
  | .ok data =>
    some {
      router := ⟨if srcNetwork ≠ 0 then srcNetwork else data.routerNetwork, srcNode⟩
      cableNetwork := if data.routerNetwork ≠ 0 then some data.routerNetwork else none }

end Rtmp

end TailTalk
