/-
  NBP packets — lookups of entity names and the replies to them.

  A packet is an operation with a tuple count in its low nibble, a transaction
  id and the tuples; a tuple is an address and an entity name of three
  length-prefixed components.
-/
import TailTalk.Lib.Bytes

namespace TailTalk

open Lib

/-- Why a packet is refused. -/
inductive NbpError where
  | tooShort
  | outOfBounds
  | nameTooLong
  | tooManyTuples
  | bufferTooSmall (needed available : ℕ)

/-- Longest entity-name component. -/
def MAX_NBP_NAME : ℕ := 32

/-- NBP packs the tuple count into the low nibble of the control byte. -/
def MAX_NBP_TUPLES : ℕ := 15

/-- An entity-name component, in the encoding it has on the wire. -/
abbrev NbpName := { bytes : Bytes // bytes.length ≤ MAX_NBP_NAME }

/-- A component, if it is not too long. -/
def NbpName.fromWire (bytes : Bytes) : Option NbpName :=
  if h : bytes.length ≤ MAX_NBP_NAME then some ⟨bytes, h⟩ else none

/-- The name of an entity. -/
structure EntityName where
  object : NbpName
  entityType : NbpName
  zone : NbpName
deriving DecidableEq

/-- What a packet is for. -/
inductive NbpOperation where
  | broadcastRequest
  | lookup
  | lookupReply
  | forwardRequest
  | unknown (value : UInt8)
deriving DecidableEq

namespace NbpOperation

/-- The operation of a number. -/
def ofU8 (value : UInt8) : NbpOperation :=
  if value = 1 then broadcastRequest
  else if value = 2 then lookup
  else if value = 3 then lookupReply
  else if value = 4 then forwardRequest
  else unknown value

/-- The number in its control byte. -/
def code : NbpOperation → UInt8
  | broadcastRequest => 1
  | lookup => 2
  | lookupReply => 3
  | forwardRequest => 4
  | unknown value => value

end NbpOperation

/-- An entity and where it is. -/
structure NbpTuple where
  networkNumber : UInt16
  nodeId : UInt8
  socketNumber : UInt8
  enumerator : UInt8
  entityName : EntityName

/-- An operation and its tuples. -/
structure NbpPacket where
  operation : NbpOperation
  transactionId : UInt8
  tuples : List NbpTuple

/-! ## Entity names -/

namespace EntityName

/-- The component at the front of `data`, and what follows it. -/
def component : Bytes → Except NbpError (NbpName × Bytes)
  | [] => .error .tooShort
  | length :: rest =>
    if rest.length < length.toNat then .error .outOfBounds
    else
      match NbpName.fromWire (rest.take length.toNat) with
      | some name => .ok (name, rest.drop length.toNat)
      | none => .error .nameTooLong

/-- The three components at the front of `data`, and what follows them. -/
def fromBytes (data : Bytes) : Except NbpError (EntityName × Bytes) := do
  let (object, data) ← component data
  let (entityType, data) ← component data
  let (zone, data) ← component data
  .ok ({ object, entityType, zone }, data)

/-- A component with its length. -/
def componentBytes (n : NbpName) : Bytes := UInt8.ofNat n.1.length :: n.1

/-- A name on the wire. -/
def wire (n : EntityName) : Bytes :=
  componentBytes n.object ++ componentBytes n.entityType ++ componentBytes n.zone

/-- The name in a buffer with `available` bytes left. -/
def toBytes (n : EntityName) (available : ℕ) : Except NbpError Bytes :=
  if available < n.wire.length then .error (.bufferTooSmall n.wire.length available)
  else .ok n.wire

/-! ### Matching -/

/-- Any zone, or ours. -/
def WILDCARD_STAR : UInt8 := 0x2A

/-- Any object or type. -/
def WILDCARD_EQUALS : UInt8 := 0x3D

/-- The MacRoman encoding of `≈`. -/
def WILDCARD_APPROX : UInt8 := 0xC5

/-- Lower case, as far as ASCII goes. -/
def asciiLower (b : UInt8) : UInt8 := if 0x41 ≤ b ∧ b ≤ 0x5A then b + 0x20 else b

/-- The same but for case. -/
def eqIgnoreAsciiCase (a b : Bytes) : Bool := a.map asciiLower == b.map asciiLower

/-- One component against its pattern. A single `≈` stands for any bytes between two parts, which
    must not overlap. -/
def matchPart (concrete pattern : Bytes) : Bool :=
  if pattern = [WILDCARD_EQUALS] ∨ pattern = [WILDCARD_APPROX] ∨ pattern = [WILDCARD_STAR] then
    true
  else
    match pattern.idxOf? WILDCARD_APPROX with
    | some i =>
      let start := pattern.take i
      let rest := pattern.drop (i + 1)
      decide (concrete.length ≥ start.length + rest.length) &&
        eqIgnoreAsciiCase (concrete.take start.length) start &&
        eqIgnoreAsciiCase (concrete.drop (concrete.length - rest.length)) rest
    | none => eqIgnoreAsciiCase concrete pattern

/-- An empty zone in a pattern means this zone. -/
def isMatch (n pattern : EntityName) : Bool :=
  matchPart n.object.1 pattern.object.1 && matchPart n.entityType.1 pattern.entityType.1 &&
    (pattern.zone.1.isEmpty || matchPart n.zone.1 pattern.zone.1)

/-- Object and type hold no wildcard; the zone may be `*`. -/
def fullyQualified (n : EntityName) : Bool :=
  ! [WILDCARD_STAR, WILDCARD_EQUALS, WILDCARD_APPROX].any fun f =>
    n.object.1.contains f || n.entityType.1.contains f

end EntityName

/-! ## Packets -/

namespace NbpPacket

/-- `count` tuples from the front of `data`, after those in `tuples`. -/
def tuplesFromBytes (tuples : List NbpTuple) : ℕ → Bytes → Except NbpError (List NbpTuple)
  | 0, _ => .ok tuples
  | count + 1, data =>
    if h : data.length < 5 then .error .tooShort
    else
      have hlen : ∀ i : Fin 5, i < data.length := fun i => by omega
      match EntityName.fromBytes (data.drop 5) with
      | .error e => .error e
      | .ok (entityName, rest) =>
        if tuples.length < MAX_NBP_TUPLES then
          let tuple : NbpTuple := {
            networkNumber := ofBe16 (getElem data 0 (hlen 0)) (getElem data 1 (hlen 1))
            nodeId := getElem data 2 (hlen 2)
            socketNumber := getElem data 3 (hlen 3)
            enumerator := getElem data 4 (hlen 4)
            entityName }
          tuplesFromBytes (tuples ++ [tuple]) count rest
        else .error .tooManyTuples

/-- A packet, all of whose tuples are there. -/
def fromBytes : Bytes → Except NbpError NbpPacket
  | controlByte :: transactionId :: data => do
    let tuples ← tuplesFromBytes [] (controlByte &&& 0x0F).toNat data
    .ok { operation := .ofU8 (controlByte >>> 4), transactionId, tuples }
  | _ => .error .tooShort

/-- Write the tuples after what is in `out`, in a buffer of `size` bytes. -/
def tuplesToBytes (size : ℕ) (out : Bytes) : List NbpTuple → Except NbpError Bytes
  | [] => .ok out
  | t :: tuples =>
    if size < out.length + 5 then .error (.bufferTooSmall (out.length + 5) size)
    else
      let out := out ++ be16 t.networkNumber ++ [t.nodeId, t.socketNumber, t.enumerator]
      match t.entityName.toBytes (size - out.length) with
      | .error e => .error e
      | .ok name => tuplesToBytes size (out ++ name) tuples

/-- The packet in a buffer of `size` bytes. -/
def toBytes (p : NbpPacket) (size : ℕ) : Except NbpError Bytes :=
  if size < 2 then .error (.bufferTooSmall 2 size)
  else
    tuplesToBytes size
      [(p.operation.code <<< 4) ||| (UInt8.ofNat p.tuples.length &&& 0x0F), p.transactionId]
      p.tuples

end NbpPacket

end TailTalk
