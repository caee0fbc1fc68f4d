/-
  What a host sends.

  The DDP task sends a datagram over the cable of its next hop: the one that
  the route table has, or the destination itself.  Where the table has none, or
  one on a cable that is not there, the cable is guessed.  The table is read
  twice, and may change in between.
-/
import TailTalk.Host.OnEther

namespace TailTalk

open Lib

/-- A socket of a node. -/
structure DdpAddress where
  addr : AppleTalkAddress
  sock : UInt8

/-- A datagram on its way out; its socket takes no longer payload. -/
structure OutboundPacket where
  dest : DdpAddress
  srcSock : UInt8
  protocol : DdpProtocolType
  payload : Bytes
  /-- the only cable for it, if it is for 0.255 -/
  iface : Option Interface
  payload_le : payload.length ≤ 586

/-- A datagram for a socket. -/
structure Packet where
  headers : DdpPacket
  payload : Bytes
  source : AddressSource

/-- A frame for a node. -/
structure DataLinkPacket where
  destNode : Addressing.Node
  payload : Bytes
  srcNodeId : UInt8
  ddpLong : Bool

/-- An EtherTalk interface that has its address. -/
structure EtherAddressing where
  phase : AddressSource
  etherTalk : phase ≠ .localTalk
  shared : LocalAddressing
  onEther : ∀ addr node, shared.bound addr = some node → node.cable = .etherTalk
  addr : AppleTalkAddress

/-- An interface that was told the inputs, with its address. -/
def EtherInterface.addressing (phase : AddressSource) (etherTalk : phase ≠ .localTalk)
    (inputs : List EtherInput) (our : AppleTalkAddress) : EtherAddressing where
  phase
  etherTalk
  shared := (run step (new phase etherTalk) inputs).shared
  onEther := (onEther_run phase etherTalk inputs).bound
  addr := our

namespace EtherAddressing

/-- What the AARP cache says. -/
def tryLookup (et : EtherAddressing) (addr : AppleTalkAddress) : Option Addressing.Node :=
  et.shared.tryLookup et.phase addr

/-- An address that has no node is asked for. -/
def lookup (et : EtherAddressing) (addr : AppleTalkAddress)
    (asked : Except LookupError NodeOfEther) : Except LookupError Addressing.Node :=
  match et.tryLookup addr with
  | some node => .ok node
  | none => asked.map (·.val)

end EtherAddressing

/-- The node itself. -/
def toSelf (dest : AppleTalkAddress) : Prop := dest.networkNumber = 0 ∧ dest.nodeNumber = 0

instance (dest : AppleTalkAddress) : Decidable (toSelf dest) := instDecidableAnd

/-- Without a network, a node is one of Phase 1, not one of Phase 2. -/
def EtherAddressing.owns (et : EtherAddressing) (dest : AppleTalkAddress) : Bool :=
  toSelf dest ∨ dest.nodeNumber = et.addr.nodeNumber ∧
    (dest.networkNumber = et.addr.networkNumber ∨
      dest.networkNumber = 0 ∧ et.phase ≠ .etherTalkPhase2)

/-- Without a network, a node is one of LocalTalk. -/
def ltOwns (our dest : AppleTalkAddress) : Bool :=
  toSelf dest ∨ dest.nodeNumber = our.nodeNumber ∧
    (dest.networkNumber = our.networkNumber ∨ dest.networkNumber = 0)

/-- The table at one of the two times. -/
structure RouteReading where
  table : Inner
  now : Instant

namespace RouteReading

/-- The next hop for a network. -/
def resolve (r : RouteReading) (net : UInt16) : Option NextHop := r.table.routeFor net r.now

/-- There is a router. -/
def hasRouter (r : RouteReading) : Bool := r.table.hasRouter r.now

end RouteReading

/-- The DDP task; `ethertalk` has what it sent, over either cable. -/
structure DdpProcessor where
  sockets : Std.HashMap UInt8 (Channel Packet 100)
  ethertalk : List DataLinkPacket
  etAddressing : Option EtherAddressing
  /-- the address of the LocalTalk interface -/
  ltAddressing : Option AppleTalkAddress

namespace OutboundPacket

/-- The header of a datagram, to be completed. -/
def headers (p : OutboundPacket) (our : AppleTalkAddress) (headerLen : ℕ) : DdpPacket where
  hopCount := 0
  len := p.payload.length + headerLen
  chksum := 0
  destNetworkNum := p.dest.addr.networkNumber
  destSockNum := p.dest.sock
  destNodeId := p.dest.addr.nodeNumber
  srcNetworkNum := our.networkNumber
  srcSockNum := p.srcSock
  srcNodeId := our.nodeNumber
  protocolTyp := p.protocol

/-- The datagram for a node. The short form is for LocalTalk, as long as no router is known. -/
def frame (p : OutboundPacket) (destNode : Addressing.Node) (our : AppleTalkAddress)
    (routes : RouteReading) : DataLinkPacket :=
  let useShort := destNode.cable = .localTalk ∧ routes.hasRouter = false
  let payload :=
    if useShort then (p.headers our DdpPacket.SHORT_LEN).toBytesShort ++ p.payload
    else
      let payload := (p.headers our DdpPacket.LEN).toBytes ++ p.payload
      -- Everything after the checksum field counts.
      let chksum := DdpPacket.computeChecksum (payload.drop 4)
      (payload.set 2 (chksum >>> 8).toUInt8).set 3 (chksum &&& 0xFF).toUInt8
  { destNode, payload, srcNodeId := our.nodeNumber, ddpLong := !decide useShort }

/-- A broadcast is wanted on a cable. -/
def wanted (p : OutboundPacket) (iface : Interface) : Bool := p.iface.all (· = iface)

end OutboundPacket

namespace DdpProcessor

/-- Our address on EtherTalk. -/
def etAddr (d : DdpProcessor) : Except String AppleTalkAddress :=
  match d.etAddressing with
  | some et => .ok et.addr
  | none => .error "no EtherTalk interface"

/-- Our address on LocalTalk. -/
def ltAddr (d : DdpProcessor) : Except String AppleTalkAddress :=
  match d.ltAddressing with
  | some addr => .ok addr
  | none => .error "no LocalTalk interface"

/-- The address that a datagram for the node comes from. -/
def addrFor (d : DdpProcessor) : Addressing.Node → Except String AppleTalkAddress
  | .localTalk _ => d.ltAddr
  | _ => d.etAddr

/-- Hand a datagram to the socket that it is for. -/
def deliverLocal (d : DdpProcessor) (p : OutboundPacket) (our : AppleTalkAddress)
    (source : AddressSource) : DdpProcessor :=
  match d.sockets[p.dest.sock]? with
  | some socket =>
    match socket.trySend ⟨p.headers our DdpPacket.LEN, p.payload, source⟩ with
    | .ok socket => { d with sockets := d.sockets.insert p.dest.sock socket }
    | .error .closed => { d with sockets := d.sockets.erase p.dest.sock }
    | .error .full => d
  | none => d

/-- A datagram in a frame for a node. -/
def sendDdpToNode (d : DdpProcessor) (p : OutboundPacket) (destNode : Addressing.Node)
    (our : AppleTalkAddress) (routes : RouteReading) : DdpProcessor :=
  { d with ethertalk := d.ethertalk ++ [p.frame destNode our routes] }

/-- The address of ours that a destination is, and the link that it is on. -/
def ours (d : DdpProcessor) (dest : AppleTalkAddress) : Option (AppleTalkAddress × AddressSource) :=
  match d.etAddressing.filter (·.owns dest) with
  | some et => some (et.addr, et.phase)
  | none => (d.ltAddressing.filter (ltOwns · dest)).map (·, .localTalk)

/-- The next hop for a destination, and the cable that it is known to be on. -/
def nextHop (routes : RouteReading) (dest : AppleTalkAddress) :
    AppleTalkAddress × Option Interface :=
  if dest.networkNumber = 0 then (dest, none)
  else
    match routes.resolve dest.networkNumber with
    | some (.via router interface) => (router, some interface)
    | some (.local interface) => (dest, some interface)
    | none => (dest, none)

/-- The node of a hop whose cable is not known. -/
def guessNode (d : DdpProcessor) (hop : AppleTalkAddress) (asked : Except LookupError NodeOfEther) :
    Option Addressing.Node :=
  if hop.networkNumber = 0 then
    match d.ltAddressing, d.etAddressing with
    | some _, none => some (.localTalk hop.nodeNumber)
    | none, some et => et.tryLookup hop
    | some _, some et => some ((et.tryLookup hop).getD (.localTalk hop.nodeNumber))
    | none, none => none
  else
    match d.ltAddressing, d.etAddressing with
    | some _, none => some (.localTalk hop.nodeNumber)
    | lt, some et =>
      match et.lookup hop asked with
      | .ok node => some node
      | .error _ => if lt.isSome then some (.localTalk hop.nodeNumber) else none
    | none, none => none

/-- The node that a datagram for a hop is sent to; there may be none. -/
def destNode (d : DdpProcessor) (hop : AppleTalkAddress) (routeIface : Option Interface)
    (asked : Except LookupError NodeOfEther) : Checked (Option Addressing.Node) :=
  if routeIface = some .localTalk ∧ d.ltAddressing.isSome then
    pure (some (.localTalk hop.nodeNumber))
  else if routeIface = some .etherTalk ∧ d.etAddressing.isSome then do
    let et ← unwrap (d.etAddressing.elim (.error ()) .ok)
    pure (et.lookup hop asked).toOption
  else pure (d.guessNode hop asked)

/-- A broadcast for one cable, if it is there and wanted. -/
def sendWanted (d : DdpProcessor) (p : OutboundPacket) (iface : Interface)
    (configured : Bool) (addr : Except String AppleTalkAddress) (destNode : Addressing.Node)
    (routes : RouteReading) : Checked DdpProcessor :=
  if configured ∧ p.wanted iface then do
    let our ← unwrap addr
    pure (d.sendDdpToNode p destNode our routes)
  else pure d

/-- Send a datagram; `first` and `last` are what the route table is read as, `asked` what comes of a
    lookup. -/
def handleOutbound (d : DdpProcessor) (p : OutboundPacket) (first last : RouteReading)
    (asked : Except LookupError NodeOfEther) : Checked DdpProcessor :=
  if p.dest.addr.networkNumber = 0 ∧ p.dest.addr.nodeNumber = 255 then do
    let d ← d.sendWanted p .etherTalk d.etAddressing.isSome d.etAddr
      (.etherTalkPhase2 Addressing.APPLETALK_BROADCAST_MULTICAST) last
    d.sendWanted p .localTalk d.ltAddressing.isSome d.ltAddr (.localTalk 255) last
  else
    match d.ours p.dest.addr with
    | some (our, source) => pure (d.deliverLocal p our source)
    | none => do
      let (hop, routeIface) := nextHop first p.dest.addr
      match ← d.destNode hop routeIface asked with
      | none => pure d
      | some destNode =>
        let our ← unwrap (d.addrFor destNode)
        pure (d.sendDdpToNode p destNode our last)

end DdpProcessor

/-! ## What a frame carries -/

/-- The node number that a frame for the node bears on LocalTalk. -/
def Addressing.Node.number : Addressing.Node → UInt8
  | .localTalk n => n
  | _ => 0

namespace DataLinkPacket

/-- The header as a receiver reads it; the short form has the node numbers of the link. -/
def header (f : DataLinkPacket) : Except DdpError DdpPacket :=
  if f.ddpLong then DdpPacket.parse f.payload
  else DdpPacket.parseShort f.payload f.destNode.number f.srcNodeId

/-- The length of the DDP header in a frame. -/
def headerLen (f : DataLinkPacket) : ℕ :=
  if f.ddpLong then DdpPacket.LEN else DdpPacket.SHORT_LEN

end DataLinkPacket

/-- A frame with the header `h` carries a datagram from an address of ours. -/
structure Carries (p : OutboundPacket) (our : AppleTalkAddress) (routes : RouteReading)
    (f : DataLinkPacket) (h : DdpPacket) : Prop where
  header : f.header = .ok h
  payload : f.payload.drop f.headerLen = p.payload
  length : h.len = f.payload.length
  protocol : h.protocolTyp = .ofU8 p.protocol.code
  sockets : h.destSockNum = p.dest.sock ∧ h.srcSockNum = p.srcSock
  source : h.srcNodeId = our.nodeNumber ∧ f.srcNodeId = our.nodeNumber
  /-- both addresses are in the long form -/
  long : f.ddpLong = true → h.destNetworkNum = p.dest.addr.networkNumber ∧
    h.destNodeId = p.dest.addr.nodeNumber ∧ h.srcNetworkNum = our.networkNumber ∧
    h.chksum = DdpPacket.computeChecksum (f.payload.drop 4)
  short : f.ddpLong = false → f.destNode.cable = .localTalk ∧ routes.hasRouter = false ∧
    h.destNodeId = f.destNode.number

theorem be16_eq_shift (v : UInt16) : be16 v = [(v >>> 8).toUInt8, (v &&& 0xFF).toUInt8] := by
  have hhigh : UInt8.ofNat (v.toNat / 256) = (v >>> 8).toUInt8 := by
    apply UInt8.toNat_inj.1
    rw [UInt8.toNat_ofNat', UInt16.toNat_toUInt8, UInt16.toNat_shiftRight]
    exact congrArg (· % 256) (Nat.shiftRight_eq_div_pow v.toNat 8).symm
  have hlow : UInt8.ofNat v.toNat = (v &&& 0xFF).toUInt8 := by
    apply UInt8.toNat_inj.1
    rw [UInt8.toNat_ofNat', UInt16.toNat_toUInt8, UInt16.toNat_and]
    have hmask : v.toNat &&& 255 = v.toNat % 256 := Nat.and_two_pow_sub_one_eq_mod v.toNat 8
    change v.toNat % 256 = (v.toNat &&& 255) % 256
    rw [hmask, Nat.mod_mod]
  rw [be16, hhigh, hlow]

theorem set_chksum (h : DdpPacket) (chksum : UInt16) (payload : Bytes) :
    ((h.toBytes ++ payload).set 2 (chksum >>> 8).toUInt8).set 3 (chksum &&& 0xFF).toUInt8 =
      { h with chksum }.toBytes ++ payload := by
  have hbytes := be16_eq_shift chksum
  simp only [DdpPacket.toBytes, hbytes]
  rfl

theorem drop_chksum (h : DdpPacket) (chksum : UInt16) (payload : Bytes) :
    ({ h with chksum }.toBytes ++ payload).drop 4 = (h.toBytes ++ payload).drop 4 := rfl

/-- **A frame carries the datagram.** -/
theorem OutboundPacket.frame_carries (p : OutboundPacket) (destNode : Addressing.Node)
    (our : AppleTalkAddress) (routes : RouteReading) :
    ∃ h, Carries p our routes (p.frame destNode our routes) h := by
  have hle := p.payload_le
  by_cases hshort : destNode.cable = .localTalk ∧ routes.hasRouter = false
  · have hlong : (p.frame destNode our routes).ddpLong = false := by
      simp only [OutboundPacket.frame, hshort, decide_true, Bool.not_true, and_self]
    have hpayload : (p.frame destNode our routes).payload =
        (p.headers our DdpPacket.SHORT_LEN).toBytesShort ++ p.payload := if_pos hshort
    have hlen : (p.headers our DdpPacket.SHORT_LEN).len < 1024 := by
      simp only [OutboundPacket.headers, DdpPacket.SHORT_LEN]
      omega
    have hheader : (p.frame destNode our routes).header =
        .ok ((p.headers our DdpPacket.SHORT_LEN).onShortWire destNode.number our.nodeNumber) := by
      rw [DataLinkPacket.header, if_neg (by rw [hlong]; exact Bool.false_ne_true), hpayload]
      exact DdpPacket.parseShort_toBytesShort hlen _ _ _
    refine ⟨_, hheader, ?_, ?_, rfl, ⟨rfl, rfl⟩, ⟨rfl, rfl⟩, ?_, ?_⟩
    · rw [DataLinkPacket.headerLen, if_neg (by rw [hlong]; exact Bool.false_ne_true), hpayload,
        List.drop_left' (DdpPacket.toBytesShort_length _)]
    · rw [hpayload, List.length_append, DdpPacket.toBytesShort_length]
      exact Nat.add_comm _ _
    · intro h
      rw [hlong] at h
      cases h
    · exact fun _ => ⟨hshort.1, hshort.2, rfl⟩
  · have hlong : (p.frame destNode our routes).ddpLong = true := by
      simp only [OutboundPacket.frame, hshort, decide_false, Bool.not_false]
    let headers := p.headers our DdpPacket.LEN
    let chksum := DdpPacket.computeChecksum ((headers.toBytes ++ p.payload).drop 4)
    have hpayload : (p.frame destNode our routes).payload =
        { headers with chksum }.toBytes ++ p.payload := by
      rw [← set_chksum]
      exact if_neg hshort
    have hlen : { headers with chksum }.len < 1024 := by
      simp only [headers, OutboundPacket.headers, DdpPacket.LEN]
      omega
    have hheader : (p.frame destNode our routes).header =
        .ok ({ headers with chksum } : DdpPacket).onWire := by
      rw [DataLinkPacket.header, if_pos hlong, hpayload]
      have hhop : (0 : UInt8).toNat < 16 := by decide
      exact DdpPacket.parse_toBytes hhop hlen _
    refine ⟨_, hheader, ?_, ?_, rfl, ⟨rfl, rfl⟩, ⟨rfl, rfl⟩, ?_, ?_⟩
    · rw [DataLinkPacket.headerLen, if_pos hlong, hpayload,
        List.drop_left' (DdpPacket.toBytes_length _)]
    · rw [hpayload, List.length_append, DdpPacket.toBytes_length]
      exact Nat.add_comm _ _
    · intro _
      refine ⟨rfl, rfl, rfl, ?_⟩
      rw [hpayload, drop_chksum]
      rfl
    · intro h
      rw [hlong] at h
      cases h

end TailTalk
