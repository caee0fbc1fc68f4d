/-
  The ATP endpoint — requestor and responder on one DDP socket.

  The responder implements exactly-once (XO) transactions: `inProgress`
  remembers the requests that were delivered and not answered yet, `replyCache`
  the framed answers, which are resent verbatim until the requestor's TRel or
  the release timer.
-/
import Std.Data.TreeMap
import TailTalk.Core
import TailTalk.Lib.Chunks
import TailTalk.Lib.Maps
import TailTalk.Packets.Atp

namespace TailTalk

open Lib

/-- Maximum data bytes per ATP packet: a 586-byte DDP payload minus the ATP
    header. -/
def ATP_MAX_DATA_PER_PACKET : ℕ := 578

/-- Between the copies of a request. -/
def RETRY_INTERVAL : Micros := 2000000

/-- Repeated requests before one fails. -/
def MAX_RETRIES : ℕ := 8

/-- How long an answer is kept without a TRel. -/
def RELEASE_TIMEOUT : Micros := 30000000

/-- How many answers are kept, and how many requests in progress. -/
def REPLY_CACHE_LEN : ℕ := 16

/-- What the owner is told. -/
inductive AtpEvent where
  /-- an inbound transaction request; the bitmap is already normalised -/
  | request (source : ServiceAddress) (tid : UInt16) (userBytes : UserBytes) (data : Bytes)
      (bitmap : UInt8) (xo : Bool)
  /-- a complete response to one of our requests -/
  | response (handle : UInt16) (userBytes : UserBytes) (data : Bytes)
  /-- one of our requests exhausted its retries -/
  | requestFailed (handle : UInt16)
deriving DecidableEq

/-! ## Our requests -/

/-- A transaction of its own, with the packets of the response so far. -/
structure PendingRequest where
  dest : ServiceAddress
  rawPacket : Bytes
  requestedBitmap : UInt8
  received : Std.TreeMap UInt8 Bytes
  userBytes : Option UserBytes
  eomSeq : Option UInt8
  retries : ℕ
  retryAt : Micros

/-- The number of set bits. -/
def countOnes (b : UInt8) : ℕ := (List.range 8).countP fun i => b.toNat.testBit i

namespace PendingRequest

/-- A response packet arrives: a later copy of a packet replaces an earlier
    one, the first user bytes stay. -/
def receive (p : PendingRequest) (packet : AtpPacket) (data : Bytes) : PendingRequest :=
  { p with
    received := p.received.insert packet.bitmapSeqNum data
    userBytes := some (p.userBytes.getD packet.userBytes)
    eomSeq := if packet.eom then some packet.bitmapSeqNum else p.eomSeq }

/-- Every packet up to the EOM is here or, without EOM, as many as the bitmap
    asks for. -/
def complete (p : PendingRequest) : Bool :=
  match p.eomSeq with
  | some eom => (List.range (eom.toNat + 1)).all fun i => p.received.contains (UInt8.ofNat i)
  | none => !p.received.isEmpty && p.received.size == countOnes p.requestedBitmap

/-- The number of packets to put together, as the `u8` it is compared with. -/
def expected (p : PendingRequest) : ℕ :=
  match p.eomSeq with
  | some eom => (eom.toNat + 1) % 256
  | none => p.received.size % 256

/-- The response data; `none` where a packet is missing. -/
def assemble (p : PendingRequest) : Option Bytes :=
  ((List.range p.expected).mapM fun i => p.received[UInt8.ofNat i]?).map List.flatten

/-- The retry timer; `none` when the retries are exhausted. -/
def tick (now : Micros) (p : PendingRequest) : Option PendingRequest :=
  if now < p.retryAt then some p
  else if p.retries + 1 > MAX_RETRIES then none
  else some { p with retries := p.retries + 1, retryAt := now + RETRY_INTERVAL }

end PendingRequest

/-- An answer that may have to be sent again. -/
structure CachedResponse where
  source : ServiceAddress
  tid : UInt16
  packets : List Bytes
  expiresAt : Micros

/-- Both sides of one socket. -/
structure AtpEndpoint where
  localSocket : UInt8
  nextTid : UInt16
  pending : Std.TreeMap UInt16 PendingRequest
  replyCache : List CachedResponse
  inProgress : List (ServiceAddress × UInt16)
  outbox : List (ServiceAddress × Bytes)
  events : List AtpEvent

namespace AtpEndpoint

/-- An endpoint with no transaction. -/
def new (localSocket : UInt8) : AtpEndpoint where
  localSocket := localSocket
  nextTid := 1
  pending := ∅
  replyCache := []
  inProgress := []
  outbox := []
  events := []

/-- Queue datagrams for one destination. -/
def push (ep : AtpEndpoint) (dest : ServiceAddress) (payloads : List Bytes) : AtpEndpoint :=
  { ep with outbox := ep.outbox ++ payloads.map fun p => (dest, p) }

/-- Report an event. -/
def emit (ep : AtpEndpoint) (event : AtpEvent) : AtpEndpoint :=
  { ep with events := ep.events ++ [event] }

/-! ## Requests -/

/-- The first TID from `tid` on that is neither zero nor pending, and where the next search starts.
    -/
def findTid (pending : Std.TreeMap UInt16 PendingRequest) :
    ℕ → UInt16 → Option (UInt16 × UInt16)
  | 0, _ => none
  | fuel + 1, tid =>
    if tid ≠ 0 ∧ ¬ pending.contains tid then some (tid, tid + 1)
    else findTid pending fuel (tid + 1)

/-- All 65536 TIDs are tried; with every one of them taken the source loops
    for ever (`none`). -/
def allocateTid (ep : AtpEndpoint) : Option (UInt16 × AtpEndpoint) :=
  (findTid ep.pending 65536 ep.nextTid).map fun (tid, nextTid) => (tid, { ep with nextTid })

/-- The datagram of a request. -/
def requestBytes (xo : Bool) (bitmap : UInt8) (tid : UInt16) (userBytes : UserBytes)
    (data : Bytes) : Bytes :=
  ({ function := .request
     xo
     eom := false
     sts := false
     bitmapSeqNum := bitmap
     tid
     userBytes } : AtpPacket).toBytes ++ data

/-- The transaction that `request` starts. -/
def newRequest (dest : ServiceAddress) (raw : Bytes) (bitmap : UInt8) (now : Micros) :
    PendingRequest where
  dest := dest
  rawPacket := raw
  requestedBitmap := bitmap
  received := ∅
  userBytes := none
  eomSeq := none
  retries := 0
  retryAt := now + RETRY_INTERVAL

/-- Send an XO request; the handle is that of the response or failure event. -/
def request (ep : AtpEndpoint) (dest : ServiceAddress) (userBytes : UserBytes) (data : Bytes)
    (bitmap : UInt8) (now : Micros) : Option (UInt16 × AtpEndpoint) :=
  ep.allocateTid.map fun (tid, ep) =>
    let raw := requestBytes true bitmap tid userBytes data
    (tid, { ep.push dest [raw] with
      pending := ep.pending.insert tid (newRequest dest raw bitmap now) })

/-- Send a fire-and-forget ALO packet; any response is discarded. -/
def sendAlo (ep : AtpEndpoint) (dest : ServiceAddress) (userBytes : UserBytes) :
    Option AtpEndpoint :=
  ep.allocateTid.map fun (tid, ep) => ep.push dest [requestBytes false 0xFF tid userBytes []]

theorem request_eq {ep ep' : AtpEndpoint} {dest : ServiceAddress} {userBytes : UserBytes}
    {data : Bytes} {bitmap : UInt8} {now : Micros} {tid : UInt16}
    (h : ep.request dest userBytes data bitmap now = some (tid, ep')) :
    ∃ nextTid, ep' = { ({ ep with nextTid } : AtpEndpoint).push dest
        [requestBytes true bitmap tid userBytes data] with
      pending := ep.pending.insert tid
        (newRequest dest (requestBytes true bitmap tid userBytes data) bitmap now) } := by
  simp only [request, allocateTid, Option.map_map, Option.map_eq_some_iff] at h
  obtain ⟨⟨t, nextTid⟩, -, h⟩ := h
  obtain ⟨rfl, rfl⟩ := Prod.mk.inj h
  exact ⟨nextTid, rfl⟩

theorem sendAlo_eq {ep ep' : AtpEndpoint} {dest : ServiceAddress} {userBytes : UserBytes}
    (h : ep.sendAlo dest userBytes = some ep') :
    ∃ tid nextTid, ep' = ({ ep with nextTid } : AtpEndpoint).push dest
      [requestBytes false 0xFF tid userBytes []] := by
  simp only [sendAlo, allocateTid, Option.map_map, Option.map_eq_some_iff] at h
  obtain ⟨⟨tid, nextTid⟩, -, rfl⟩ := h
  exact ⟨tid, nextTid, rfl⟩

/-! ## Answers -/

/-- The `i`-th of `count` packets of an answer. -/
def responseBytes (tid : UInt16) (count i : ℕ) (c : UserBytes × Bytes) : Bytes :=
  ({ function := .response
     xo := false
     eom := i == count - 1
     sts := false
     bitmapSeqNum := UInt8.ofNat i
     tid
     userBytes := c.1 } : AtpPacket).toBytes ++ c.2

/-- The number of packets of an answer, as the EOM flag counts them. -/
def packetCount (chunks : List (UserBytes × Bytes)) : ℕ := min (max chunks.length 1) 8

/-- The framed packets of an answer: at most 8, EOM on the last. -/
def frame (tid : UInt16) (chunks : List (UserBytes × Bytes)) : List Bytes :=
  (chunks.take 8).mapIdx (responseBytes tid (packetCount chunks))

/-- Answer with pre-split packets, each carrying its own user bytes. -/
def respondPackets (ep : AtpEndpoint) (source : ServiceAddress) (tid : UInt16)
    (chunks : List (UserBytes × Bytes)) (now : Micros) : AtpEndpoint :=
  let packets := frame tid chunks
  let cache := if ep.replyCache.length = REPLY_CACHE_LEN then ep.replyCache.tail
    else ep.replyCache
  { ep.push source packets with
    inProgress := ep.inProgress.filter fun p => ¬ (p.1 = source ∧ p.2 = tid)
    replyCache := cache ++ [{ source, tid, packets, expiresAt := now + RELEASE_TIMEOUT }] }

/-- The packets `data` is split into: at least one, at most 8, each with the
    same user bytes. -/
def split (userBytes : UserBytes) (data : Bytes) (chunkSize : ℕ) : List (UserBytes × Bytes) :=
  if data.isEmpty then [(userBytes, [])]
  else ((chunks (max chunkSize 1) data).take 8).map fun c => (userBytes, c)

/-- Answer an inbound request with `data`. -/
def respond (ep : AtpEndpoint) (source : ServiceAddress) (tid : UInt16) (userBytes : UserBytes)
    (data : Bytes) (chunkSize : ℕ) (now : Micros) : AtpEndpoint :=
  ep.respondPackets source tid (split userBytes data chunkSize) now

/-! ## Received datagrams -/

/-- The answer to replay for a transaction. -/
def cached (ep : AtpEndpoint) (src : ServiceAddress) (tid : UInt16) : Option CachedResponse :=
  ep.replyCache.find? fun c => c.source = src ∧ c.tid = tid

/-- Remember an XO request until it is answered. -/
def remember (ep : AtpEndpoint) (src : ServiceAddress) (tid : UInt16) : AtpEndpoint :=
  let kept := if ep.inProgress.length ≥ REPLY_CACHE_LEN then ep.inProgress.tail
    else ep.inProgress
  { ep with inProgress := kept ++ [(src, tid)] }

/-- The event of a request; a bitmap of zero means no restriction. -/
def requestEvent (src : ServiceAddress) (packet : AtpPacket) (data : Bytes) : AtpEvent :=
  .request src packet.tid packet.userBytes data
    (if packet.bitmapSeqNum = 0 then 0xFF else packet.bitmapSeqNum) packet.xo

/-- A TReq: delivered, answered from the cache, or swallowed. -/
def handleRequest (ep : AtpEndpoint) (src : ServiceAddress) (packet : AtpPacket) (data : Bytes) :
    AtpEndpoint :=
  match ep.cached src packet.tid with
  -- A request already answered is a retransmit: the framed packets again.
  | some c => ep.push src c.packets
  | none =>
    if packet.xo then
      -- One still in progress is not delivered again.
      if ep.inProgress.any fun p => p.1 = src ∧ p.2 = packet.tid then ep
      else (ep.remember src packet.tid).emit (requestEvent src packet data)
    else ep.emit (requestEvent src packet data)

/-- The datagram of a TRel. -/
def releaseBytes (tid : UInt16) : Bytes :=
  ({ function := .release
     xo := false
     eom := false
     sts := false
     bitmapSeqNum := 0
     tid
     userBytes := .replicate 4 0 } : AtpPacket).toBytes

/-- A TResp, by its number alone. -/
def handleResponse (ep : AtpEndpoint) (src : ServiceAddress) (packet : AtpPacket) (data : Bytes) :
    AtpEndpoint :=
  match ep.pending[packet.tid]? with
  | none => ep
  | some p =>
    let p := p.receive packet data
    if p.complete then
      let ep := { ep with pending := ep.pending.erase packet.tid }
      match p.assemble with
      | none => ep
      | some full => (ep.push src [releaseBytes packet.tid]).emit
          (.response packet.tid (p.userBytes.getD (.replicate 4 0)) full)
    else { ep with pending := ep.pending.insert packet.tid p }

/-- A TRel clears the cache. -/
def handleRelease (ep : AtpEndpoint) (src : ServiceAddress) (tid : UInt16) : AtpEndpoint :=
  { ep with replyCache := ep.replyCache.filter fun c => ¬ (c.source = src ∧ c.tid = tid) }

/-- A DDP payload addressed to our socket arrives. -/
def handleDatagram (ep : AtpEndpoint) (src : ServiceAddress) (payload : Bytes) : AtpEndpoint :=
  match AtpPacket.parse payload with
  | .error _ => ep
  | .ok packet =>
    let data := payload.drop AtpPacket.HEADER_LEN
    match packet.function with
    | .request => ep.handleRequest src packet data
    | .response => ep.handleResponse src packet data
    | .release => ep.handleRelease src packet.tid

/-! ## Timers and queues -/

/-- The requests whose retry timer has run out. -/
def due (ep : AtpEndpoint) (now : Micros) : List (UInt16 × PendingRequest) :=
  ep.pending.toList.filter fun p => ¬ now < p.2.retryAt

/-- The answers whose release timer has not run out. -/
def unexpired (ep : AtpEndpoint) (now : Micros) : List CachedResponse :=
  ep.replyCache.filter fun c => c.expiresAt > now

/-- Drive retransmission and cache expiry. -/
def poll (ep : AtpEndpoint) (now : Micros) : AtpEndpoint :=
  let due := ep.due now
  let failed := due.filter fun p => p.2.retries + 1 > MAX_RETRIES
  let resend := due.filter fun p => ¬ p.2.retries + 1 > MAX_RETRIES
  { ep with
    pending := ep.pending.filterMap fun _ p => p.tick now
    events := ep.events ++ failed.map fun p => .requestFailed p.1
    outbox := ep.outbox ++ resend.map fun p => (p.2.dest, p.2.rawPacket)
    replyCache := ep.unexpired now }

/-- When it is to be polled. -/
def nextDeadline (ep : AtpEndpoint) : Option Micros :=
  (ep.pending.values.map (·.retryAt) ++ ep.replyCache.map (·.expiresAt)).min?

/-- Next outgoing DDP payload. -/
def pollTransmit (ep : AtpEndpoint) : Option (ServiceAddress × Bytes) × AtpEndpoint :=
  (ep.outbox.head?, { ep with outbox := ep.outbox.tail })

/-- The next event for the owner. -/
def pollEvent (ep : AtpEndpoint) : Option AtpEvent × AtpEndpoint :=
  (ep.events.head?, { ep with events := ep.events.tail })

end AtpEndpoint

end TailTalk
