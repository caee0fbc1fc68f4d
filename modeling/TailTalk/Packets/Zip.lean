/-
  ZIP packets — what a node asks a router about its cable, and what it hears.

  A GetNetInfo request carries the zone the node believes to be in; the reply has
  the range of the cable, the zone as the router got it and, if that is no zone
  of the cable, the default one.  `Notify` only says that something changed.
-/
import TailTalk.Lib.Bytes

namespace TailTalk

open Lib

/-- The socket of routers. -/
def ZIP_SOCKET : UInt8 := 6

/-- The longest name of a zone. -/
def MAX_ZONE_LENGTH : ℕ := 32

/-- The longest multicast address. -/
def MAX_MULTICAST_LEN : ℕ := 6

/-- The operations. -/
def ZIPOP_GNI : UInt8 := 5
def ZIPOP_GNIREPLY : UInt8 := 6
def ZIPOP_NOTIFY : UInt8 := 7

/-- The zone of the request is no longer one of the cable's. -/
def ZIPGNI_INVALID : UInt8 := 0x80

/-- Why a packet is refused. -/
inductive ZipError where
  | tooShort (expected found : ℕ)
  | unexpectedOp (expected found : UInt8)
  | zoneTooLong (length : ℕ)
  | bufferTooSmall (needed available : ℕ)
  | multicastTooLong (length : ℕ)

/-- A zone name, in the encoding it has on the wire. -/
abbrev ZoneName := { bytes : Bytes // bytes.length ≤ MAX_ZONE_LENGTH }

namespace ZoneName

/-- A name, if it is not too long. -/
def fromWire (bytes : Bytes) : Option ZoneName :=
  if h : bytes.length ≤ MAX_ZONE_LENGTH then some ⟨bytes, h⟩ else none

/-- No zone. -/
def empty : ZoneName := ⟨[], by decide⟩

/-- No zone. -/
def isEmpty (z : ZoneName) : Bool := z.1.isEmpty

end ZoneName

/-- A multicast address of a zone. -/
abbrev MulticastAddr := { bytes : Bytes // bytes.length ≤ MAX_MULTICAST_LEN }

/-- The length-prefixed bytes at `offset`, and how many bytes they take with their length. -/
def readPbytes (buf : Bytes) (offset : ℕ) : Except ZipError (Bytes × ℕ) :=
  match buf[offset]? with
  | none => .error (.tooShort (offset + 1) buf.length)
  | some len =>
    let start := offset + 1
    let stop := start + len.toNat
    if stop ≤ buf.length then .ok ((buf.take stop).drop start, 1 + len.toNat)
    else .error (.tooShort stop buf.length)

/-- A name with its length. -/
def readPstring (buf : Bytes) (offset : ℕ) : Except ZipError (ZoneName × ℕ) := do
  let (bytes, consumed) ← readPbytes buf offset
  match ZoneName.fromWire bytes with
  | some name => .ok (name, consumed)
  | none => .error (.zoneTooLong bytes.length)

/-- What a node asks a router. -/
structure GetNetInfoRequest where
  /-- empty where the node has none -/
  zone : ZoneName

/-- The request in a buffer of `available` bytes. -/
def GetNetInfoRequest.toBytes (r : GetNetInfoRequest) (available : ℕ) : Except ZipError Bytes :=
  let needed := 7 + r.zone.1.length
  if available < needed then .error (.bufferTooSmall needed available)
  else .ok (ZIPOP_GNI :: 0 :: 0 :: 0 :: 0 :: 0 :: UInt8.ofNat r.zone.1.length :: r.zone.1)

/-- What the router knows of the cable. -/
structure GetNetInfoReply where
  flags : UInt8
  rangeStart : UInt16
  rangeEnd : UInt16
  zone : ZoneName
  multicast : MulticastAddr
  defaultZone : Option ZoneName

namespace GetNetInfoReply

/-- The zone asked for is none of the cable. -/
def zoneInvalid (r : GetNetInfoReply) : Bool := r.flags &&& ZIPGNI_INVALID ≠ 0

/-- A reply. -/
def parse (buf : Bytes) : Except ZipError GetNetInfoReply :=
  match buf with
  | op :: flags :: b2 :: b3 :: b4 :: b5 :: _ :: _ =>
    if op ≠ ZIPOP_GNIREPLY then .error (.unexpectedOp ZIPOP_GNIREPLY op)
    else do
      let (zone, consumed) ← readPstring buf 6
      let offset := 6 + consumed
      let (multicast, consumed) ← readPbytes buf offset
      let offset := offset + consumed
      if h : multicast.length ≤ MAX_MULTICAST_LEN then
        -- no bytes at all, and no length, both mean that there is no default zone
        let defaultZone ← if offset < buf.length then do
            let (zone, _) ← readPstring buf offset
            .ok (if zone.isEmpty then none else some zone)
          else .ok none
        .ok ⟨flags, ofBe16 b2 b3, ofBe16 b4 b5, zone, ⟨multicast, h⟩, defaultZone⟩
      else .error (.multicastTooLong multicast.length)
  | _ => .error (.tooShort 7 buf.length)

end GetNetInfoReply

/-- Something changed. -/
structure Notify where
  flags : UInt8

/-- A notification. -/
def Notify.parse : Bytes → Except ZipError Notify
  | op :: flags :: _ =>
    if op ≠ ZIPOP_NOTIFY then .error (.unexpectedOp ZIPOP_NOTIFY op) else .ok ⟨flags⟩
  | buf => .error (.tooShort 2 buf.length)

/-- **A request always fits** the buffer it is made in. -/
theorem GetNetInfoRequest.toBytes_eq (r : GetNetInfoRequest) :
    r.toBytes 64 =
      .ok (ZIPOP_GNI :: 0 :: 0 :: 0 :: 0 :: 0 :: UInt8.ofNat r.zone.1.length :: r.zone.1) := by
  have hlen : r.zone.1.length ≤ 32 := r.zone.2
  rw [toBytes]
  exact if_neg (by omega)

end TailTalk
