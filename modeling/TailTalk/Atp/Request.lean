/-
  The requests that the ATP endpoint of the host hands on, and the responses
  that a handler has it send.

  A response goes out in packets of a fixed size, and in no more of them than
  the bitmap of its request has room for: `data_responsePackets` says that
  nothing is cut off up to that limit.
-/
import TailTalk.Atp.Endpoint

namespace TailTalk

open Lib

/-- A request that the ATP endpoint hands on. -/
structure AtpReceivedRequest where
  source : ServiceAddress
  userBytes : UserBytes
  data : Bytes
  bitmap : UInt8
deriving DecidableEq

namespace AtpReceivedRequest

/-- A bitmap of zero means no restriction. -/
def maxPackets (req : AtpReceivedRequest) : ℕ :=
  let effective := if req.bitmap = 0 then 0xFF else req.bitmap
  min 8 (max 1 ((List.range 8).countP fun i => effective.toNat.testBit i))

/-- How much the requestor takes. -/
def maxResponseBytes (req : AtpReceivedRequest) : ℕ := req.maxPackets * ATP_MAX_DATA_PER_PACKET

theorem maxPackets_pos (req : AtpReceivedRequest) : 0 < req.maxPackets := by
  rw [maxPackets]
  omega

theorem maxPackets_le (req : AtpReceivedRequest) : req.maxPackets ≤ 8 := Nat.min_le_left _ _

theorem maxPackets_congr {req req' : AtpReceivedRequest} (h : req.bitmap = req'.bitmap) :
    req.maxPackets = req'.maxPackets := by
  rw [maxPackets, maxPackets, h]

end AtpReceivedRequest

/-! ## Responses -/

/-- A request, and the transaction ID that its response needs. -/
structure AtpTransaction extends AtpReceivedRequest where
  transactionId : UInt16
deriving DecidableEq

/-- A response for the endpoint to send. -/
structure AtpSendResponse where
  destination : ServiceAddress
  tid : UInt16
  packets : List (UserBytes × Bytes)

/-- What the handlers have the ATP endpoint do. -/
inductive AtpCommand where
  | sendResponse (response : AtpSendResponse)
  | sendAlo (address : ServiceAddress) (userBytes : UserBytes)

/-- The response that a command is. -/
def AtpCommand.response? : AtpCommand → Option AtpSendResponse
  | .sendResponse response => some response
  | .sendAlo _ _ => none

namespace AtpSendResponse

/-- The data that the requester puts together. -/
def data (r : AtpSendResponse) : Bytes := r.packets.flatMap (·.2)

/-- The user bytes of the first packet, which the requester reads. -/
def userBytes (r : AtpSendResponse) : UserBytes :=
  (r.packets.head?.map (·.1)).getD #v[0, 0, 0, 0]

end AtpSendResponse

/-- The packets of a response, at least one even where there is no data. -/
def responsePackets (maxPackets chunkSize : ℕ) (userBytes : UserBytes) (data : Bytes) :
    List (UserBytes × Bytes) :=
  let packets := (chunks chunkSize (data.take (maxPackets * chunkSize))).map fun chunk =>
    (userBytes, chunk)
  if packets.isEmpty then [(userBytes, [])] else packets

namespace AtpTransaction

/-- Send pre-split packets. `open_` tells whether the ATP endpoint still takes commands. -/
def sendResponseInternal (req : AtpTransaction) (packets : List (UserBytes × Bytes))
    (open_ : Bool) : Option AtpSendResponse :=
  if packets.length > 8 then none
  else if open_ then some ⟨req.source, req.transactionId, packets⟩
  else none

/-- Send a response cut into packets of `chunkSize` bytes, a positive number. -/
def sendResponseChunked (req : AtpTransaction) (data : Bytes) (userBytes : UserBytes)
    (chunkSize : ℕ) (open_ : Bool) : Option AtpSendResponse :=
  req.sendResponseInternal (responsePackets req.maxPackets chunkSize userBytes data) open_

/-- A response cut into packets. -/
def sendResponse (req : AtpTransaction) (data : Bytes) (userBytes : UserBytes) (open_ : Bool) :
    Option AtpSendResponse :=
  req.sendResponseChunked data userBytes ATP_MAX_DATA_PER_PACKET open_

end AtpTransaction

section
variable {maxPackets chunkSize : ℕ} (userBytes : UserBytes) (data : Bytes)

theorem length_responsePackets (hn : 0 < chunkSize) (hm : 0 < maxPackets) :
    (responsePackets maxPackets chunkSize userBytes data).length ≤ maxPackets := by
  simp only [responsePackets]
  split_ifs with hempty
  · exact hm
  · rw [List.length_map, chunks_length, List.length_take]
    have hle := Nat.min_le_left (maxPackets * chunkSize) data.length
    have hlt : min (maxPackets * chunkSize) data.length + chunkSize - 1 <
        chunkSize * (maxPackets + 1) := by
      rw [Nat.mul_succ, Nat.mul_comm chunkSize]
      omega
    exact Nat.lt_succ_iff.1 (Nat.div_lt_of_lt_mul hlt)

/-- **Nothing is cut off** up to what the packets have room for. -/
theorem data_responsePackets (hn : 0 < chunkSize) (h : data.length ≤ maxPackets * chunkSize) :
    (responsePackets maxPackets chunkSize userBytes data).flatMap (·.2) = data := by
  simp only [responsePackets, List.take_of_length_le h]
  have hflat : ((chunks chunkSize data).map fun chunk => (userBytes, chunk)).flatMap (·.2) =
      data := by
    rw [List.flatMap_map]
    simp only [List.flatMap_id']
    exact flatten_chunks hn data
  split_ifs with hempty
  · rw [← hflat, List.isEmpty_iff.1 hempty]
    rfl
  · exact hflat

theorem head?_responsePackets :
    (responsePackets maxPackets chunkSize userBytes data).head?.map (·.1) = some userBytes := by
  simp only [responsePackets]
  split_ifs with hempty
  · rfl
  · rw [List.isEmpty_iff, List.map_eq_nil_iff] at hempty
    obtain ⟨chunk, rest, hchunks⟩ := List.exists_cons_of_ne_nil hempty
    rw [hchunks]
    rfl

end

end TailTalk
