/-
  Datagrams from one stack to another.

  `handleFrame_encodeDdp`: the frame of a datagram, in either form, is read back
  by every stack that hears it.  `sendDdp_delivers` is what becomes of a datagram
  for a socket, and `ping` that of an AEP Request and its Reply.
-/
import TailTalk.Stack.Stack

namespace TailTalk

open Lib

namespace Stack

/-- The node of the link that a datagram is sent to. -/
def llapDst (s : Stack) (dest : AppleTalkAddress) : UInt8 :=
  if dest.nodeNumber = 255 then 0xFF
  else
    match s.router with
    | some router =>
      if dest.networkNumber = 0 ∨ dest.networkNumber = s.network then dest.nodeNumber
      else router.nodeNumber
    | none => dest.nodeNumber

/-- The header that a receiver of a datagram sees; the short form carries no network numbers. -/
def seen (useShort : Bool) (our dest : AppleTalkAddress) (llapDst destSocket srcSocket : UInt8)
    (proto : DdpProtocolType) (payload : Bytes) : DdpPacket where
  hopCount := 0
  len := payload.length + if useShort then DdpPacket.SHORT_LEN else DdpPacket.LEN
  chksum :=
    if useShort then 0
    else
      DdpPacket.computeChecksum (be16 dest.networkNumber ++ be16 our.networkNumber ++
        [dest.nodeNumber, our.nodeNumber, destSocket, srcSocket, proto.code] ++ payload)
  destNetworkNum := if useShort then 0 else dest.networkNumber
  srcNetworkNum := if useShort then 0 else our.networkNumber
  destNodeId := if useShort then llapDst else dest.nodeNumber
  destSockNum := destSocket
  srcSockNum := srcSocket
  srcNodeId := our.nodeNumber
  protocolTyp := .ofU8 proto.code

section
variable {s d : Stack} {our dest : AppleTalkAddress} {destSocket srcSocket : UInt8}
  {proto : DdpProtocolType} {payload : Bytes}

theorem ddpPayload_append (pre payload : Bytes) (headers : DdpPacket) {start : ℕ}
    (hpre : pre.length = start) (hlen : headers.len + 3 = start + payload.length) :
    ddpPayload (pre ++ payload) start headers = some payload := by
  have hstop : min (3 + headers.len) (pre ++ payload).length = (pre ++ payload).length := by
    rw [List.length_append]
    omega
  have hge : (pre ++ payload).length ≥ start := by
    rw [List.length_append]
    omega
  rw [ddpPayload, hstop, if_pos hge, List.take_length, ← hpre, List.drop_left]

theorem handleFrame_short {data : Bytes} {now : Micros} {dst src : UInt8} {headers : DdpPacket}
    (hllap : LlapPacket.parse data = .ok ⟨dst, src, .ddpShort⟩) (hecho : ¬ some src = d.node)
    (hparse : DdpPacket.parseShort (data.drop 3) dst src = .ok headers)
    (hpayload : ddpPayload data 8 headers = some payload) :
    d.handleFrame data now = d.dispatch headers payload := by
  simp only [handleFrame, hllap, hecho, false_and, if_false, hparse, hpayload]

theorem handleFrame_long {data : Bytes} {now : Micros} {dst src : UInt8} {headers : DdpPacket}
    (hllap : LlapPacket.parse data = .ok ⟨dst, src, .ddpLong⟩) (hecho : ¬ some src = d.node)
    (hparse : DdpPacket.parse (data.drop 3) = .ok headers)
    (hpayload : ddpPayload data (3 + DdpPacket.LEN) headers = some payload) :
    d.handleFrame data now = d.dispatch headers payload := by
  simp only [handleFrame, hllap, hecho, false_and, if_false, hparse, hpayload]

/-- **A frame is read back** by every stack but its sender. -/
theorem handleFrame_encodeDdp (useShort : Bool) (hlen : payload.length ≤ MAX_DDP_PAYLOAD)
    (hecho : d.node ≠ some our.nodeNumber) (llapDst : UInt8) (now : Micros) :
    d.handleFrame (OutFrame.toBytes ⟨llapDst, our.nodeNumber,
        if useShort then .ddpShort else .ddpLong,
        encodeDdp useShort our srcSocket dest destSocket proto payload⟩) now =
      d.dispatch (seen useShort our dest llapDst destSocket srcSocket proto payload) payload := by
  have hmax : payload.length ≤ 586 := hlen
  have hecho' : ¬ some our.nodeNumber = d.node := fun h => hecho h.symm
  cases useShort with
  | true =>
    let headers : DdpPacket := { seen false our dest llapDst destSocket srcSocket proto payload with
      chksum := 0, len := payload.length + DdpPacket.SHORT_LEN, protocolTyp := proto }
    have hparse := DdpPacket.parseShort_toBytesShort (p := headers)
      (by change payload.length + 5 < 1024; omega) llapDst our.nodeNumber payload
    have hpayload := ddpPayload_append (llapDst :: our.nodeNumber :: 1 :: headers.toBytesShort)
      payload (headers.onShortWire llapDst our.nodeNumber) rfl
      (by change payload.length + 5 + 3 = 8 + _; omega)
    exact handleFrame_short (LlapPacket.parse_toBytes ⟨_, _, .ddpShort⟩ _ rfl) hecho' hparse
      hpayload
  | false =>
    let headers : DdpPacket := { seen false our dest llapDst destSocket srcSocket proto payload with
      protocolTyp := proto }
    have hparse := DdpPacket.parse_toBytes (p := headers) (by change (0 : ℕ) < 16; decide)
      (by change payload.length + 13 < 1024; omega) payload
    have hpayload := ddpPayload_append (llapDst :: our.nodeNumber :: 2 :: headers.toBytes)
      payload headers.onWire rfl (by change payload.length + 13 + 3 = 16 + _; omega)
    exact handleFrame_long (LlapPacket.parse_toBytes ⟨_, _, .ddpLong⟩ _ rfl) hecho' hparse hpayload

/-- The frame of a datagram to another node. -/
def ddpFrame (s : Stack) (our dest : AppleTalkAddress) (destSocket srcSocket : UInt8)
    (proto : DdpProtocolType) (payload : Bytes) : OutFrame :=
  ⟨s.llapDst dest, our.nodeNumber, if s.router.isNone then .ddpShort else .ddpLong,
    encodeDdp s.router.isNone our srcSocket dest destSocket proto payload⟩

theorem sendDdp_frame (hour : s.ourAddress = some our) (hlen : payload.length ≤ MAX_DDP_PAYLOAD)
    (hother : dest.nodeNumber ≠ our.nodeNumber) :
    s.sendDdp dest destSocket srcSocket proto payload = (.ok (), { s with
      outbox := s.outbox ++ [s.ddpFrame our dest destSocket srcSocket proto payload] }) := by
  unfold sendDdp
  rw [hour]
  dsimp only
  rw [if_neg (Nat.not_lt.2 hlen), if_neg fun h => hother h.1]
  rfl

theorem seen_destNodeId {node : UInt8} (hdest : dest.nodeNumber = 255 ∨ dest.nodeNumber = node) :
    (seen s.router.isNone our dest (s.llapDst dest) destSocket srcSocket proto
      payload).destNodeId = 255 ∨
    (seen s.router.isNone our dest (s.llapDst dest) destSocket srcSocket proto
      payload).destNodeId = node := by
  unfold seen llapDst
  rcases s.router with _ | router
  · by_cases hall : dest.nodeNumber = 255
    · simp [hall]
    · simpa [hall] using hdest
  · simpa using hdest

theorem dispatch_socket {node : UInt8} {headers : DdpPacket} (hnode : d.node = some node)
    (hdest : headers.destNodeId = 255 ∨ headers.destNodeId = node)
    (hopen : headers.destSockNum ∈ d.sockets) (hrtmp : headers.destSockNum ≠ Rtmp.RTMP_SOCKET)
    (hnbp : headers.destSockNum ≠ NbpRegistry.NBP_SOCKET)
    (haep : headers.destSockNum ≠ Aep.AEP_SOCKET) :
    d.dispatch headers payload = { d with events := d.events ++ [.datagram {
      src := ⟨headers.srcNetworkNum, headers.srcNodeId⟩
      srcSocket := headers.srcSockNum
      dstSocket := headers.destSockNum
      proto := headers.protocolTyp
      payload }] } := by
  have hours : ¬ (headers.destNodeId ≠ 255 ∧ headers.destNodeId ≠ node) := by tauto
  simp only [dispatch, hnode, if_neg hours, if_neg hrtmp, if_neg hnbp, if_neg haep, if_pos hopen]

theorem dispatch_aep {node : UInt8} {headers : DdpPacket} {reply : Bytes}
    (hnode : d.node = some node) (hdest : headers.destNodeId = 255 ∨ headers.destNodeId = node)
    (haep : headers.destSockNum = Aep.AEP_SOCKET) (hreply : Aep.respond payload = some reply) :
    d.dispatch headers payload = (d.sendDdp ⟨headers.srcNetworkNum, headers.srcNodeId⟩
      headers.srcSockNum Aep.AEP_SOCKET .aep reply).2 := by
  have hours : ¬ (headers.destNodeId ≠ 255 ∧ headers.destNodeId ≠ node) := by tauto
  have hrtmp : ¬ Aep.AEP_SOCKET = Rtmp.RTMP_SOCKET := by decide
  have hnbp : ¬ Aep.AEP_SOCKET = NbpRegistry.NBP_SOCKET := by decide
  simp only [dispatch, hnode, if_neg hours, haep, if_neg hrtmp, if_neg hnbp, if_true, hreply]

/-- Where a datagram seems to come from. -/
def seenFrom (s : Stack) (our : AppleTalkAddress) : AppleTalkAddress :=
  if s.router.isNone then ⟨0, our.nodeNumber⟩ else our

/-- The responders have these sockets. -/
def Reserved (socket : UInt8) : Prop :=
  socket = Rtmp.RTMP_SOCKET ∨ socket = NbpRegistry.NBP_SOCKET ∨ socket = Aep.AEP_SOCKET

theorem handleFrame_ddpFrame (our dest : AppleTalkAddress)
    (hlen : payload.length ≤ MAX_DDP_PAYLOAD) (hreserved : ¬ Reserved destSocket) {node : UInt8}
    (hnode : d.node = some node) (hne : node ≠ our.nodeNumber)
    (hdest : dest.nodeNumber = 255 ∨ dest.nodeNumber = node) (hopen : destSocket ∈ d.sockets)
    (now : Micros) :
    d.handleFrame (s.ddpFrame our dest destSocket srcSocket proto payload).toBytes now =
      { d with events := d.events ++ [.datagram {
        src := s.seenFrom our
        srcSocket
        dstSocket := destSocket
        proto := .ofU8 proto.code
        payload }] } := by
  have hecho : d.node ≠ some our.nodeNumber := by
    rw [hnode]
    exact fun h => hne (Option.some.inj h)
  rw [ddpFrame, handleFrame_encodeDdp _ hlen hecho, dispatch_socket hnode
    (seen_destNodeId hdest) hopen (fun h => hreserved (.inl h))
    (fun h => hreserved (.inr (.inl h))) (fun h => hreserved (.inr (.inr h)))]
  unfold seen seenFrom
  rcases s.router with _ | router
  · rfl
  · rfl

/-- **A datagram is delivered.** It becomes one frame, and every stack that hears it and has its
    node number, or that of all nodes, hands it to the socket if it is open: one event, with its
    payload and sockets and the node of its sender. -/
theorem sendDdp_delivers (s : Stack) {our : AppleTalkAddress} (dest : AppleTalkAddress)
    (destSocket srcSocket : UInt8) (proto : DdpProtocolType) {payload : Bytes}
    (hour : s.ourAddress = some our) (hlen : payload.length ≤ MAX_DDP_PAYLOAD)
    (hother : dest.nodeNumber ≠ our.nodeNumber) (hreserved : ¬ Reserved destSocket) :
    ∃ f, s.sendDdp dest destSocket srcSocket proto payload =
        (.ok (), { s with outbox := s.outbox ++ [f] }) ∧
      ∀ (d : Stack) (node : UInt8) (now : Micros), d.node = some node → node ≠ our.nodeNumber →
        dest.nodeNumber = 255 ∨ dest.nodeNumber = node → destSocket ∈ d.sockets →
        d.handleFrame f.toBytes now = { d with events := d.events ++ [.datagram {
          src := s.seenFrom our
          srcSocket
          dstSocket := destSocket
          proto := .ofU8 proto.code
          payload }] } :=
  ⟨_, sendDdp_frame hour hlen hother, fun _ _ now hnode hne hdest hopen =>
    handleFrame_ddpFrame our dest hlen hreserved hnode hne hdest hopen now⟩

/-- A node of an unrouted cable whose probe is over. -/
def settled (node : UInt8) (sockets : Finset UInt8) : Stack :=
  { Stack.new ⟨.user, 1, true⟩ 0 with acquire := none, node := some node, sockets }

theorem sendDdp_delivers_settled : ∃ f,
    (settled 5 {80}).sendDdp ⟨0, 7⟩ 90 80 .atp [1, 2] =
      (.ok (), { settled 5 {80} with outbox := [f] }) ∧
    (settled 7 {90}).handleFrame f.toBytes 0 = { settled 7 {90} with
      events := [.datagram ⟨⟨0, 5⟩, 80, 90, .atp, [1, 2]⟩] } := by
  have hlen : ([1, 2] : Bytes).length ≤ MAX_DDP_PAYLOAD := by decide
  obtain ⟨f, hsent, hgot⟩ := sendDdp_delivers (settled 5 {80}) ⟨0, 7⟩ 90 80 .atp rfl hlen
    (by decide) (by unfold Reserved; decide)
  exact ⟨f, hsent, hgot (settled 7 {90}) 7 0 rfl (by decide) (.inr rfl) (by decide)⟩

/-- A Request makes a node queue the frame of the Reply. -/
theorem handleFrame_request (our : AppleTalkAddress) {node : UInt8} (hnode : d.node = some node)
    (hother : node ≠ our.nodeNumber) {data : Bytes} (hlen : data.length + 1 ≤ MAX_DDP_PAYLOAD)
    (now : Micros) :
    d.handleFrame (s.ddpFrame our ⟨0, node⟩ Aep.AEP_SOCKET srcSocket .aep
        (AepFunction.request.code :: data)).toBytes now = { d with
      outbox := d.outbox ++ [d.ddpFrame ⟨d.network, node⟩
        ⟨(s.seenFrom our).networkNumber, our.nodeNumber⟩ srcSocket Aep.AEP_SOCKET .aep
        (AepFunction.reply.code :: data)] } := by
  have hour : d.ourAddress = some ⟨d.network, node⟩ := by
    rw [ourAddress, hnode]
    rfl
  have hecho : d.node ≠ some our.nodeNumber := by
    rw [hnode]
    exact fun h => hother (Option.some.inj h)
  have hrequest : (AepFunction.request.code :: data).length ≤ MAX_DDP_PAYLOAD := hlen
  have hlen' : (AepFunction.reply.code :: data).length ≤ MAX_DDP_PAYLOAD := hlen
  have hne : (⟨(s.seenFrom our).networkNumber, our.nodeNumber⟩ : AppleTalkAddress).nodeNumber ≠
      (⟨d.network, node⟩ : AppleTalkAddress).nodeNumber := hother.symm
  have hreply : Aep.respond (AepFunction.request.code :: data) =
      some (AepFunction.reply.code :: data) := rfl
  have hours : (⟨0, node⟩ : AppleTalkAddress).nodeNumber = 255 ∨
      (⟨0, node⟩ : AppleTalkAddress).nodeNumber = node := .inr rfl
  have hanswer : d.dispatch (seen s.router.isNone our ⟨0, node⟩ (s.llapDst ⟨0, node⟩)
      Aep.AEP_SOCKET srcSocket .aep (AepFunction.request.code :: data))
      (AepFunction.request.code :: data) =
        (d.sendDdp ⟨(s.seenFrom our).networkNumber, our.nodeNumber⟩ srcSocket Aep.AEP_SOCKET
          .aep (AepFunction.reply.code :: data)).2 := by
    have hsock : (seen s.router.isNone our ⟨0, node⟩ (s.llapDst ⟨0, node⟩) Aep.AEP_SOCKET
        srcSocket .aep (AepFunction.request.code :: data)).destSockNum = Aep.AEP_SOCKET := rfl
    rw [dispatch_aep hnode (seen_destNodeId hours) hsock hreply]
    unfold seen seenFrom
    rcases s.router with _ | router
    · rfl
    · rfl
  rw [ddpFrame, handleFrame_encodeDdp _ hrequest hecho, hanswer]
  exact congrArg Prod.snd (sendDdp_frame hour hlen' hne)

/-- **A node answers a ping.**  An AEP Request from an open socket to another node makes it send one
    frame, and that makes the socket receive one datagram: the Reply, with the data of the
    Request. -/
theorem ping {node : UInt8} (hour : s.ourAddress = some our) (hnode : d.node = some node)
    (hother : node ≠ our.nodeNumber) {data : Bytes} (hlen : data.length + 1 ≤ MAX_DDP_PAYLOAD)
    (hopen : srcSocket ∈ s.sockets) (hreserved : ¬ Reserved srcSocket) (now now' : Micros) :
    ∃ f g, s.sendDdp ⟨0, node⟩ Aep.AEP_SOCKET srcSocket .aep
          (AepFunction.request.code :: data) = (.ok (), { s with outbox := s.outbox ++ [f] }) ∧
      d.handleFrame f.toBytes now = { d with outbox := d.outbox ++ [g] } ∧
      { s with outbox := s.outbox ++ [f] }.handleFrame g.toBytes now' = { s with
        outbox := s.outbox ++ [f]
        events := s.events ++ [.datagram {
          src := d.seenFrom ⟨d.network, node⟩
          srcSocket := Aep.AEP_SOCKET
          dstSocket := srcSocket
          proto := .aep
          payload := AepFunction.reply.code :: data }] } := by
  have hsnode : s.node = some our.nodeNumber := node_of_ourAddress hour
  have hrequest : (AepFunction.request.code :: data).length ≤ MAX_DDP_PAYLOAD := hlen
  have hlen' : (AepFunction.reply.code :: data).length ≤ MAX_DDP_PAYLOAD := hlen
  refine ⟨_, _, sendDdp_frame hour hrequest hother,
    handleFrame_request our hnode hother hlen now, ?_⟩
  generalize s.outbox ++ [s.ddpFrame our ⟨0, node⟩ Aep.AEP_SOCKET srcSocket .aep
    (AepFunction.request.code :: data)] = outbox
  exact handleFrame_ddpFrame (d := { s with outbox }) ⟨d.network, node⟩
    ⟨(s.seenFrom our).networkNumber, our.nodeNumber⟩ hlen' hreserved hsnode hother.symm
    (.inr rfl) hopen now'

theorem ping_settled : ∃ f g,
    (settled 5 {80}).sendDdp ⟨0, 7⟩ 4 80 .aep [1, 9] =
      (.ok (), { settled 5 {80} with outbox := [f] }) ∧
    (settled 7 ∅).handleFrame f.toBytes 0 = { settled 7 ∅ with outbox := [g] } ∧
    { settled 5 {80} with outbox := [f] }.handleFrame g.toBytes 0 = { settled 5 {80} with
      outbox := [f]
      events := [.datagram ⟨⟨0, 7⟩, 4, 80, .aep, [2, 9]⟩] } :=
  ping rfl rfl (by decide) (by decide) (by decide) (by unfold Reserved; decide) 0 0

end

end Stack

end TailTalk
