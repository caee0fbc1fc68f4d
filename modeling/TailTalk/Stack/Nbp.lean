/-
  NBP name registration and the LkUp responder.
-/
import TailTalk.Packets.Aarp
import TailTalk.Packets.Nbp

namespace TailTalk

open Lib

/-- A name and its socket. -/
structure RegisteredName where
  name : EntityName
  socket : UInt8
deriving DecidableEq

/-- Where a LkUp-Reply must be sent. -/
structure NbpReply where
  dest : AppleTalkAddress
  destSocket : UInt8
  payload : Bytes

/-- The names of a node. -/
structure NbpRegistry where
  names : List RegisteredName

/-- Why a name is not taken. -/
inductive RegisterError where
  | wildcards
  | duplicate

namespace NbpRegistry

/-- The well-known Names Information Socket. -/
def NBP_SOCKET : UInt8 := 2

/-- No name. -/
def new : NbpRegistry := ⟨[]⟩

/-- Fails on wildcard names and exact duplicates. -/
def register (r : NbpRegistry) (name : EntityName) (socket : UInt8) :
    Except RegisterError NbpRegistry :=
  if !name.fullyQualified then .error .wildcards
  else if (⟨name, socket⟩ : RegisteredName) ∈ r.names then .error .duplicate
  else .ok ⟨r.names ++ [⟨name, socket⟩]⟩

/-- Take a name back. -/
def unregister (r : NbpRegistry) (name : EntityName) (socket : UInt8) : Bool × NbpRegistry :=
  let kept := r.names.filter fun n => !(n.name = name ∧ n.socket = socket)
  (decide (kept.length < r.names.length), ⟨kept⟩)

theorem asterisk_length : ([0x2A] : Bytes).length ≤ MAX_NBP_NAME := by decide

theorem equals_length : ([0x3D] : Bytes).length ≤ MAX_NBP_NAME := by decide

/-- The zone every reply tuple carries. -/
def ZONE_WILDCARD : NbpName := ⟨[0x2A], asterisk_length⟩

/-- A name with its address. -/
def replyTuple (ourAddr : AppleTalkAddress) (n : RegisteredName) : NbpTuple where
  networkNumber := ourAddr.networkNumber
  nodeId := ourAddr.nodeNumber
  socketNumber := n.socket
  enumerator := 0
  entityName := { object := n.name.object, entityType := n.name.entityType, zone := ZONE_WILDCARD }

/-- The tuples of a reply: for each request tuple in turn the names it matches, as many as
    fit. -/
def replyTuples (r : NbpRegistry) (packet : NbpPacket) (ourAddr : AppleTalkAddress) :
    List NbpTuple :=
  (packet.tuples.flatMap fun req =>
    (r.names.filter fun n => n.name.isMatch req.entityName).map (replyTuple ourAddr)).take
      MAX_NBP_TUPLES

/-- A packet on socket 2. The reply goes to the first tuple's address, not to the DDP source. -/
def handlePacket (r : NbpRegistry) (payload : Bytes) (ourAddr : AppleTalkAddress) :
    Option NbpReply :=
  match NbpPacket.fromBytes payload with
  | .error _ => none
  | .ok packet =>
    if packet.operation ≠ .lookup then none
    else
      match r.replyTuples packet ourAddr, packet.tuples with
      | [], _ => none
      | _, [] => none
      | tuples, reqTuple :: _ =>
        let reply : NbpPacket :=
          { operation := .lookupReply, transactionId := packet.transactionId, tuples }
        match reply.toBytes 600 with
        | .error _ => none
        | .ok payload =>
          some {
            dest := ⟨reqTuple.networkNumber, reqTuple.nodeId⟩
            destSocket := reqTuple.socketNumber
            payload }

end NbpRegistry

end TailTalk
