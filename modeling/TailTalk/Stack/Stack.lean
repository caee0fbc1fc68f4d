/-
  The LocalTalk-facing AppleTalk stack.

  LLAP address acquisition, DDP framing and socket dispatch, and the always-on
  responders: NBP, AEP and the RTMP listener.  Driven by `handleFrame` and
  `poll`, drained by `pollTransmit` and `pollEvent`.

  `handleFrame_cases` says once what a received frame can do.
-/
import Mathlib.Data.Finset.Basic
import TailTalk.Packets.Aep
import TailTalk.Packets.Ddp
import TailTalk.Packets.Llap
import TailTalk.Packets.Rtmp
import TailTalk.Stack.Acquisition
import TailTalk.Stack.Nbp

namespace TailTalk

open Lib

/-- An LLAP frame the stack wants on the wire. -/
structure OutFrame where
  dst : UInt8
  src : UInt8
  kind : LlapType
  payload : Bytes

/-- Raw LLAP bytes, no FCS. -/
def OutFrame.toBytes (f : OutFrame) : Bytes := f.dst :: f.src :: f.kind.code :: f.payload

/-- A received datagram delivered to a socket owner. -/
structure Datagram where
  src : AppleTalkAddress
  srcSocket : UInt8
  dstSocket : UInt8
  proto : DdpProtocolType
  payload : Bytes

/-- How a stack starts. -/
structure StackConfig where
  nodeClass : NodeClass
  seed : UInt32
  autoAckEnq : Bool

/-- What its driver is told. -/
inductive StackEvent where
  | addressAcquired (addr : AppleTalkAddress)
  | networkNumberChanged (network : UInt16)
  | datagram (d : Datagram)

/-- Why a datagram is not sent. -/
inductive SendError where
  | noAddress
  | tooLarge

/-- Why no socket is opened. -/
inductive SocketError where
  | inUse
  | exhausted

/-- The node, its sockets and what is queued. -/
structure Stack where
  autoAckEnq : Bool
  acquire : Option Acquisition
  node : Option UInt8
  network : UInt16
  router : Option AppleTalkAddress
  nbp : NbpRegistry
  sockets : Finset UInt8
  rng : Rand
  outbox : List OutFrame
  events : List StackEvent

/-- The most that a datagram carries. -/
def MAX_DDP_PAYLOAD : ℕ := 586

/-- The first number that is drawn. -/
def DYNAMIC_SOCKET_LO : UInt8 := 64

/-- The last one. -/
def DYNAMIC_SOCKET_HI : UInt8 := 254

/-- A DDP body, short or long form; the long form's checksum covers everything after it. -/
def encodeDdp (useShort : Bool) (src : AppleTalkAddress) (srcSocket : UInt8)
    (dest : AppleTalkAddress) (destSocket : UInt8) (proto : DdpProtocolType) (payload : Bytes) :
    Bytes :=
  let headerLen := if useShort then DdpPacket.SHORT_LEN else DdpPacket.LEN
  let headers : DdpPacket := {
    hopCount := 0
    len := payload.length + headerLen
    chksum := 0
    destNetworkNum := dest.networkNumber
    destSockNum := destSocket
    destNodeId := dest.nodeNumber
    srcNetworkNum := src.networkNumber
    srcSockNum := srcSocket
    srcNodeId := src.nodeNumber
    protocolTyp := proto }
  if useShort then headers.toBytesShort ++ payload
  else
    let buf := headers.toBytes ++ payload
    buf.take 2 ++ be16 (DdpPacket.computeChecksum (buf.drop 4)) ++ buf.drop 4

namespace Stack

/-- A stack that is getting its address. -/
def new (cfg : StackConfig) (now : Micros) : Stack where
  autoAckEnq := cfg.autoAckEnq
  acquire := some (.new cfg.nodeClass cfg.seed now)
  node := none
  network := 0
  router := none
  nbp := .new
  sockets := ∅
  rng := .new (cfg.seed ^^^ 0xA5A55A5A)
  outbox := []
  events := []

/-- Our settled DDP address; `none` while the probe runs. -/
def ourAddress (s : Stack) : Option AppleTalkAddress := s.node.map fun n => ⟨s.network, n⟩

/-- When it is to be polled. -/
def nextDeadline (s : Stack) : Option Micros := s.acquire.bind Acquisition.nextDeadline

/-- The ENQ that probes for a candidate. -/
def enqFrame (candidate : UInt8) : OutFrame := ⟨candidate, candidate, .enquiry, []⟩

/-- The lapACK that defends a node. -/
def ackFrame (node : UInt8) : OutFrame := ⟨node, node, .acknowledge, []⟩

/-- Advance timers.  The loop of the source goes round once (`Acquisition.poll_poll`). -/
def poll (s : Stack) (now : Micros) : Stack :=
  match s.acquire with
  | none => s
  | some acquire =>
    match acquire.poll now with
    | (none, acquire) => { s with acquire := some acquire }
    | (some (.sendEnq candidate), acquire) =>
      { s with acquire := some acquire, outbox := s.outbox ++ [enqFrame candidate] }
    | (some (.claimed node), _) =>
      { s with
        node := some node
        acquire := none
        events := s.events ++ [.addressAcquired ⟨s.network, node⟩] }

/-! ## Sending -/

/-- Send a DDP datagram: short form while the cable is unrouted, long form once a router has
    been seen. -/
def sendDdp (s : Stack) (dest : AppleTalkAddress) (destSocket srcSocket : UInt8)
    (proto : DdpProtocolType) (payload : Bytes) : Except SendError Unit × Stack :=
  match s.ourAddress with
  | none => (.error .noAddress, s)
  | some our =>
    if payload.length > MAX_DDP_PAYLOAD then (.error .tooLarge, s)
    else
      let onCable := dest.networkNumber = 0 ∨ dest.networkNumber = s.network
      if dest.nodeNumber = our.nodeNumber ∧ onCable then
        -- A datagram to ourselves never comes back off the wire.
        if destSocket ∈ s.sockets then
          (.ok (), { s with events := s.events ++
            [.datagram { src := our, srcSocket, dstSocket := destSocket, proto, payload }] })
        else (.ok (), s)
      else
        let useShort := s.router.isNone
        let body := encodeDdp useShort our srcSocket dest destSocket proto payload
        let llapDst :=
          if dest.nodeNumber = 255 then 0xFF
          else
            match s.router with
            | some router => if onCable then dest.nodeNumber else router.nodeNumber
            | none => dest.nodeNumber
        (.ok (), { s with outbox := s.outbox ++
          [⟨llapDst, our.nodeNumber, if useShort then .ddpShort else .ddpLong, body⟩] })

/-! ## Receiving -/

/-- A broadcast of a router. -/
def handleRtmp (s : Stack) (payload : Bytes) (src : AppleTalkAddress) : Stack :=
  match Rtmp.observe payload src.networkNumber src.nodeNumber with
  | none => s
  | some o =>
    let s := { s with router := some o.router }
    match o.cableNetwork with
    | some net =>
      if net ≠ s.network then
        { s with network := net, events := s.events ++ [.networkNumberChanged net] }
      else s
    | none => s

/-- Hand a datagram to the responder or the socket it is for. -/
def dispatch (s : Stack) (headers : DdpPacket) (payload : Bytes) : Stack :=
  match s.node with
  | none => s
  | some node =>
    if headers.destNodeId ≠ 255 ∧ headers.destNodeId ≠ node then s
    else
      let src : AppleTalkAddress := ⟨headers.srcNetworkNum, headers.srcNodeId⟩
      if headers.destSockNum = Rtmp.RTMP_SOCKET then s.handleRtmp payload src
      else if headers.destSockNum = NbpRegistry.NBP_SOCKET then
        match s.nbp.handlePacket payload ⟨s.network, node⟩ with
        | none => s
        | some reply =>
          (s.sendDdp reply.dest reply.destSocket NbpRegistry.NBP_SOCKET .nbp reply.payload).2
      else if headers.destSockNum = Aep.AEP_SOCKET then
        match Aep.respond payload with
        | none => s
        | some reply => (s.sendDdp src headers.srcSockNum Aep.AEP_SOCKET .aep reply).2
      else if headers.destSockNum ∈ s.sockets then
        { s with events := s.events ++ [.datagram {
          src
          srcSocket := headers.srcSockNum
          dstSocket := headers.destSockNum
          proto := headers.protocolTyp
          payload }] }
      else s

/-- The payload of a DDP packet at `start`, if the frame and the length field reach it. -/
def ddpPayload (data : Bytes) (start : ℕ) (headers : DdpPacket) : Option Bytes :=
  let stop := min (3 + headers.len) data.length
  if stop ≥ start then some ((data.take stop).drop start) else none

/-- Feed one received LLAP frame (dst, src, type, payload - no FCS). -/
def handleFrame (s : Stack) (data : Bytes) (now : Micros) : Stack :=
  match LlapPacket.parse data with
  | .error _ => s
  | .ok llap =>
    -- Self-echo: the transceiver hears our own transmissions.
    if some llap.srcNode = s.node ∧ llap.type ≠ .acknowledge then s
    else
      match llap.type with
      | .acknowledge =>
        match s.acquire with
        | some acquire => { s with acquire := some (acquire.onAck llap.srcNode now) }
        | none => s
      | .enquiry =>
        match s.node with
        | some node =>
          if s.autoAckEnq = true ∧ llap.dstNode = node ∧ s.acquire.isNone = true then
            -- Defend our address: lapACK with dst = src = our node.
            { s with outbox := s.outbox ++ [ackFrame node] }
          else s
        | none => s
      | .ddpShort =>
        match DdpPacket.parseShort (data.drop 3) llap.dstNode llap.srcNode with
        | .error _ => s
        | .ok headers =>
          match ddpPayload data 8 headers with
          | some payload => s.dispatch headers payload
          | none => s
      | .ddpLong =>
        match DdpPacket.parse (data.drop 3) with
        | .error _ => s
        | .ok headers =>
          match ddpPayload data (3 + DdpPacket.LEN) headers with
          | some payload => s.dispatch headers payload
          | none => s
      | .other _ => s

/-! ## Sockets, names and drains -/

/-- Draw numbers until a free one comes up, at most `tries` times. -/
def drawSocket (sockets : Finset UInt8) : ℕ → Rand → Option UInt8 × Rand
  | 0, rng => (none, rng)
  | tries + 1, rng =>
    let (n, rng) := rng.inRange DYNAMIC_SOCKET_LO DYNAMIC_SOCKET_HI
    if n ∈ sockets then drawSocket sockets tries rng else (some n, rng)

/-- A socket with a number, or with one that is drawn. -/
def openSocket (s : Stack) : Option UInt8 → Except SocketError UInt8 × Stack
  | some n =>
    if n = Rtmp.RTMP_SOCKET ∨ n = NbpRegistry.NBP_SOCKET ∨ n = Aep.AEP_SOCKET ∨ n ∈ s.sockets then
      (.error .inUse, s)
    else (.ok n, { s with sockets := insert n s.sockets })
  | none =>
    let tries := (DYNAMIC_SOCKET_HI - DYNAMIC_SOCKET_LO).toNat * 2 + 1
    match drawSocket s.sockets tries s.rng with
    | (some n, rng) => (.ok n, { s with sockets := insert n s.sockets, rng })
    | (none, rng) => (.error .exhausted, { s with rng })

/-- It is no longer in use. -/
def closeSocket (s : Stack) (socket : UInt8) : Stack :=
  { s with sockets := s.sockets.erase socket }

/-- Name a socket. -/
def nbpRegister (s : Stack) (name : EntityName) (socket : UInt8) :
    Except RegisterError Unit × Stack :=
  match s.nbp.register name socket with
  | .ok nbp => (.ok (), { s with nbp })
  | .error e => (.error e, s)

/-- Take the name back. -/
def nbpUnregister (s : Stack) (name : EntityName) (socket : UInt8) : Bool × Stack :=
  let (removed, nbp) := s.nbp.unregister name socket
  (removed, { s with nbp })

/-- A value for the layers above that need randomness. -/
def nextRandom (s : Stack) : UInt32 × Stack :=
  let (x, rng) := s.rng.nextU32
  (x, { s with rng })

/-- Next frame to put on the wire, if any. -/
def pollTransmit (s : Stack) : Option OutFrame × Stack :=
  match s.outbox with
  | [] => (none, s)
  | f :: rest => (some f, { s with outbox := rest })

/-- Next application-visible event, if any. -/
def pollEvent (s : Stack) : Option StackEvent × Stack :=
  match s.events with
  | [] => (none, s)
  | e :: rest => (some e, { s with events := rest })

/-! ## What the steps do -/

/-- A frame of the layers above LLAP. -/
def IsData (s : Stack) (f : OutFrame) : Prop :=
  some f.src = s.node ∧ (f.kind = .ddpShort ∨ f.kind = .ddpLong)

/-- The layers above LLAP leave the node number and its acquisition alone, and only add data frames.
    -/
structure Above (s s' : Stack) : Prop where
  node : s'.node = s.node
  acquire : s'.acquire = s.acquire
  autoAckEnq : s'.autoAckEnq = s.autoAckEnq
  outbox : ∃ fs, s'.outbox = s.outbox ++ fs ∧ ∀ f ∈ fs, s.IsData f

theorem Above.refl (s : Stack) : Above s s := ⟨rfl, rfl, rfl, [], by simp⟩

/-- A step that changes neither LLAP state nor outbox. -/
theorem Above.of_eq {s s' : Stack} (hnode : s'.node = s.node) (hacquire : s'.acquire = s.acquire)
    (hauto : s'.autoAckEnq = s.autoAckEnq) (hout : s'.outbox = s.outbox) : Above s s' :=
  ⟨hnode, hacquire, hauto, [], by simp [hout]⟩

theorem node_of_ourAddress {s : Stack} {our : AppleTalkAddress} (h : s.ourAddress = some our) :
    s.node = some our.nodeNumber := by
  obtain ⟨n, hn, rfl⟩ := Option.map_eq_some_iff.1 h
  exact hn

theorem above_sendDdp (s : Stack) (dest : AppleTalkAddress) (destSocket srcSocket : UInt8)
    (proto : DdpProtocolType) (payload : Bytes) :
    Above s (s.sendDdp dest destSocket srcSocket proto payload).2 := by
  unfold sendDdp
  rcases hour : s.ourAddress with _ | our
  · exact .refl s
  dsimp only
  split
  · exact .refl s
  split
  · split
    · exact .of_eq rfl rfl rfl rfl
    · exact .refl s
  · refine ⟨rfl, rfl, rfl, _, rfl, ?_⟩
    intro f hf
    obtain rfl := List.mem_singleton.1 hf
    refine ⟨(node_of_ourAddress hour).symm, ?_⟩
    cases s.router.isNone
    · exact Or.inr rfl
    · exact Or.inl rfl

theorem above_handleRtmp (s : Stack) (payload : Bytes) (src : AppleTalkAddress) :
    Above s (s.handleRtmp payload src) := by
  unfold handleRtmp
  split
  · exact .refl s
  · dsimp only
    split
    · split_ifs
      · exact .of_eq rfl rfl rfl rfl
      · exact .of_eq rfl rfl rfl rfl
    · exact .of_eq rfl rfl rfl rfl

theorem above_dispatch (s : Stack) (headers : DdpPacket) (payload : Bytes) :
    Above s (s.dispatch headers payload) := by
  unfold dispatch
  split
  · exact .refl s
  dsimp only
  split_ifs
  · exact .refl s
  · exact above_handleRtmp s _ _
  · split
    · exact .refl s
    · exact above_sendDdp s _ _ _ _ _
  · split
    · exact .refl s
    · exact above_sendDdp s _ _ _ _ _
  · exact .of_eq rfl rfl rfl rfl
  · exact .refl s

/-- Nothing to LLAP; an ACK for the acquisition; or the defence of our node against an ENQ from
    another source. -/
inductive Received (s : Stack) (data : Bytes) (now : Micros) : Stack → Prop
  | above {s'} : Above s s' → Received s data now s'
  | ack {a} (src : UInt8) : s.acquire = some a →
      Received s data now { s with acquire := some (a.onAck src now) }
  | defend {n src} : s.node = some n → src ≠ n →
      LlapPacket.parse data = .ok ⟨n, src, .enquiry⟩ →
      Received s data now { s with outbox := s.outbox ++ [ackFrame n] }

theorem handleFrame_cases (s : Stack) (data : Bytes) (now : Micros) :
    Received s data now (s.handleFrame data now) := by
  unfold handleFrame
  rcases hparse : LlapPacket.parse data with _ | ⟨dst, src, type⟩
  · exact .above (.refl s)
  dsimp only
  split_ifs with hecho
  · exact .above (.refl s)
  cases type with
  | acknowledge =>
    rcases hacq : s.acquire with _ | a
    · exact .above (.refl s)
    · exact .ack src hacq
  | enquiry =>
    dsimp only
    split
    · rename_i n hnode
      split
      · rename_i hdefend
        obtain ⟨-, rfl, -⟩ := hdefend
        refine .defend hnode ?_ hparse
        rintro rfl
        exact hecho ⟨hnode.symm, by simp⟩
      · exact .above (.refl s)
    · exact .above (.refl s)
  | ddpShort =>
    dsimp only
    split
    · exact .above (.refl s)
    · split
      · exact .above (above_dispatch s _ _)
      · exact .above (.refl s)
  | ddpLong =>
    dsimp only
    split
    · exact .above (.refl s)
    · split
      · exact .above (above_dispatch s _ _)
      · exact .above (.refl s)
  | other n => exact .above (.refl s)

/-- A received frame never changes the node number. -/
theorem handleFrame_node (s : Stack) (data : Bytes) (now : Micros) :
    (s.handleFrame data now).node = s.node := by
  have h := s.handleFrame_cases data now
  generalize s.handleFrame data now = s' at h ⊢
  cases h with
  | above h => exact h.node
  | ack src ha => rfl
  | defend hn hsrc hp => rfl

theorem mem_outbox_handleFrame {s : Stack} {data : Bytes} {now : Micros} {f : OutFrame}
    (h : f ∈ s.outbox) : f ∈ (s.handleFrame data now).outbox := by
  have hcases := s.handleFrame_cases data now
  generalize s.handleFrame data now = s' at hcases ⊢
  cases hcases with
  | above habove =>
    obtain ⟨fs, hfs, -⟩ := habove.outbox
    rw [hfs]
    exact List.mem_append_left _ h
  | ack src ha => exact h
  | defend hn hsrc hp => exact List.mem_append_left _ h

/-- What a poll does: nothing, one probe, or the claim that ends the acquisition. -/
inductive Polled (s : Stack) (now : Micros) : Stack → Prop
  | idle : (∀ a ∈ s.acquire, a.due now = false) → Polled s now s
  | probe {a} : s.acquire = some a → a.due now = true → a.probesSent < a.probesPerCandidate →
      Polled s now { s with
        acquire := some { a with
          probesSent := a.probesSent + 1, nextActionAt := now + a.probeInterval }
        outbox := s.outbox ++ [enqFrame a.candidate] }
  | claim {a} : s.acquire = some a → a.due now = true → a.probesPerCandidate ≤ a.probesSent →
      Polled s now { s with
        node := some a.candidate
        acquire := none
        events := s.events ++ [.addressAcquired ⟨s.network, a.candidate⟩] }

theorem poll_cases (s : Stack) (now : Micros) : Polled s now (s.poll now) := by
  unfold poll
  rcases hacq : s.acquire with _ | a
  · refine .idle ?_
    intro a ha
    rw [hacq] at ha
    cases ha
  dsimp only
  have h := a.poll_cases now
  rcases hpoll : a.poll now with ⟨ev, a'⟩
  rw [hpoll] at h
  dsimp only at h ⊢
  cases h with
  | early hdue =>
    have hself : ({ s with acquire := some a } : Stack) = s := by rw [← hacq]
    dsimp only
    rw [hself]
    refine .idle ?_
    intro b hb
    rw [hacq] at hb
    cases hb
    exact hdue
  | probe hdue hsent => exact .probe hacq hdue hsent
  | claim hdue hsent => exact .claim hacq hdue hsent

theorem mem_outbox_poll {s : Stack} {now : Micros} {f : OutFrame} (h : f ∈ s.outbox) :
    f ∈ (s.poll now).outbox := by
  have hcases := s.poll_cases now
  generalize s.poll now = s' at hcases ⊢
  cases hcases with
  | idle hd => exact h
  | probe ha hd hs => exact List.mem_append_left _ h
  | claim ha hd hs => exact h

/-! ## Calls -/

/-- What the embedding code can ask of a stack between frames and polls. -/
inductive Call where
  | sendDdp (dest : AppleTalkAddress) (destSocket srcSocket : UInt8) (proto : DdpProtocolType)
      (payload : Bytes)
  | openSocket (socket : Option UInt8)
  | closeSocket (socket : UInt8)
  | nbpRegister (name : EntityName) (socket : UInt8)
  | nbpUnregister (name : EntityName) (socket : UInt8)
  | nextRandom
  | pollEvent

/-- A call of its owner. -/
def call (s : Stack) : Call → Stack
  | .sendDdp dest destSocket srcSocket proto payload =>
    (s.sendDdp dest destSocket srcSocket proto payload).2
  | .openSocket socket => (s.openSocket socket).2
  | .closeSocket socket => s.closeSocket socket
  | .nbpRegister name socket => (s.nbpRegister name socket).2
  | .nbpUnregister name socket => (s.nbpUnregister name socket).2
  | .nextRandom => s.nextRandom.2
  | .pollEvent => s.pollEvent.2

theorem above_call (s : Stack) (c : Call) : Above s (s.call c) := by
  cases c with
  | sendDdp dest destSocket srcSocket proto payload => exact above_sendDdp s _ _ _ _ _
  | openSocket socket =>
    cases socket with
    | some n =>
      simp only [call, openSocket]
      split_ifs
      · exact .refl s
      · exact .of_eq rfl rfl rfl rfl
    | none =>
      simp only [call, openSocket]
      split
      · exact .of_eq rfl rfl rfl rfl
      · exact .of_eq rfl rfl rfl rfl
  | closeSocket socket => exact .of_eq rfl rfl rfl rfl
  | nbpRegister name socket =>
    simp only [call, nbpRegister]
    split
    · exact .of_eq rfl rfl rfl rfl
    · exact .refl s
  | nbpUnregister name socket => exact .of_eq rfl rfl rfl rfl
  | nextRandom => exact .of_eq rfl rfl rfl rfl
  | pollEvent =>
    simp only [call, pollEvent]
    split
    · exact .refl s
    · exact .of_eq rfl rfl rfl rfl

end Stack

end TailTalk
