/-
  The receive loops of a host — EtherTalk frames and TashTalk frames.

  Parse errors drop the frame; a slice out of range or a failed unwrap stops
  the task for good.  The loops check neither the AARP packet before unwrapping
  it nor the DDP length field against the header length.
-/
import TailTalk.Host.Addressing
import TailTalk.LocalTalk.Crc
import TailTalk.Packets.Ddp
import TailTalk.Packets.EtherTalk
import TailTalk.Packets.Llap

namespace TailTalk

open Lib

/-! ## The hand-off to DDP -/

/-- A datagram on its way to the DDP task. -/
structure ReceivedDdp where
  headers : DdpPacket
  payload : Bytes
  source : AddressSource
  sourceMac : EthernetMac

/-- The commands of the DDP task; those of the sockets are not looked at here. -/
inductive DdpCommand where
  | receivedPkt (pkt : ReceivedDdp)
  | socket

/-- The DDP task of this process, or of a daemon. -/
inductive DdpHandle where
  | inProcess (command : Channel DdpCommand 100)
  | remote

namespace DdpHandle

/-- Only meaningful when the underlay is in-process. -/
def receivedParsedPkt (d : DdpHandle) (headers : DdpPacket) (payload : Bytes)
    (source : AddressSource) (sourceMac : EthernetMac) : DdpHandle :=
  match d with
  | inProcess command =>
    inProcess (command.offer (.receivedPkt { headers, payload, source, sourceMac }))
  | remote => remote

/-- A datagram for the task. -/
def receivedPkt (d : DdpHandle) (pkt : Bytes) (source : AddressSource)
    (sourceMac : EthernetMac) : Checked DdpHandle :=
  match DdpPacket.parse pkt with
  | .ok headers => do
    let payload ← slice pkt DdpPacket.LEN (min headers.len pkt.length)
    pure (d.receivedParsedPkt headers payload source sourceMac)
  | .error _ => pure d

end DdpHandle

/-! ## The receive loops -/

/-- The two tasks a receive loop feeds. -/
structure HostLink where
  ddp : DdpHandle
  addressing : AddressingHandle

namespace HostLink

/-- Relay an AARP packet; a full channel is logged and forgotten. -/
def relayAarp (l : HostLink) (pkt : Bytes) (source : AddressSource) : Checked HostLink := do
  let (_, addressing) ← l.addressing.receivedPkt pkt source
  pure { l with addressing }

/-- EtherTalk Phase 2 – IEEE 802.2 LLC/SNAP encapsulation. -/
def receivePhase2 (l : HostLink) (data : Bytes) : Checked HostLink :=
  match EtherTalkPhase2Frame.parse data with
  | .error _ => pure l
  | .ok header => do
    let payload ← sliceFrom data EtherTalkPhase2Frame.FRAME_LEN
    match header.protocol with
    | .ddp =>
      let ddp ← l.ddp.receivedPkt payload .etherTalkPhase2 header.srcMac
      pure { l with ddp }
    | .aarp => l.relayAarp payload .etherTalkPhase2

/-- EtherTalk Phase 1 – LLAP encapsulated in Ethernet. -/
def receivePhase1Llap (l : HostLink) (data : Bytes) : Checked HostLink :=
  if data.length > 14 + LlapPacket.LEN then do
    match LlapPacket.parse (← sliceFrom data 14) with
    | .error _ => pure l
    | .ok llap =>
      match llap.type with
      | .ddpShort =>
        let payload ← sliceFrom data (14 + LlapPacket.LEN)
        if payload.length ≥ 5 then
          match DdpPacket.parseShort payload llap.dstNode llap.srcNode with
          | .error _ => pure l
          | .ok headers =>
            let ddpPayload ← slice payload 5 (min headers.len payload.length)
            let sourceMac ← slice data 6 12 >>= toArray 6
            pure { l with
              ddp := l.ddp.receivedParsedPkt headers ddpPayload .etherTalkPhase1 sourceMac }
        else pure l
      | .ddpLong =>
        let payload ← sliceFrom data (14 + LlapPacket.LEN)
        if payload.length ≥ DdpPacket.LEN then
          match DdpPacket.parse payload with
          | .error _ => pure l
          | .ok headers =>
            let ddpPayload ← slice payload DdpPacket.LEN (min headers.len payload.length)
            let sourceMac ← slice data 6 12 >>= toArray 6
            pure { l with
              ddp := l.ddp.receivedParsedPkt headers ddpPayload .etherTalkPhase1 sourceMac }
        else pure l
      | _ => pure l
  else pure l

/-- One frame of the EtherTalk receive task. -/
def receiveEtherTalk (l : HostLink) (data : Bytes) : Checked HostLink := do
  let ethertypeOrLen := ofBe16 (← byteAt data 12) (← byteAt data 13)
  if ethertypeOrLen ≤ 1500 then l.receivePhase2 data
  else if ethertypeOrLen = 0x80F3 then
    -- EtherTalk Phase 1 AARP.
    if data.length > 14 then l.relayAarp (← sliceFrom data 14) .etherTalkPhase1
    else pure l
  else if ethertypeOrLen = 0x809B then l.receivePhase1Llap data
  else pure l

/-- No link-level source address on LocalTalk. -/
def noMac : EthernetMac := .replicate 6 0

/-- One frame of the TashTalk receive task. -/
def receiveTashTalk (l : HostLink) (data : Bytes) : Checked HostLink :=
  if data.length < 3 then pure l
  else
    match LlapPacket.parse data with
    | .error _ => pure l
    | .ok llap =>
      match llap.type with
      | .ddpShort => do
        match DdpPacket.parseShort (← sliceFrom data 3) llap.dstNode llap.srcNode with
        | .error _ => pure l
        | .ok headers =>
          let payload ← slice data 8 (min (3 + headers.len) data.length)
          pure { l with ddp := l.ddp.receivedParsedPkt headers payload .localTalk noMac }
      | .enquiry => pure { l with addressing := l.addressing.receivedLlapEnq llap.dstNode }
      | .acknowledge => pure { l with addressing := l.addressing.receivedLlapAck llap.srcNode }
      | .ddpLong => do
        match DdpPacket.parse (← sliceFrom data 3) with
        | .error _ => pure l
        | .ok headers =>
          let payload ← slice data (3 + DdpPacket.LEN) (min (3 + headers.len) data.length)
          pure { l with ddp := l.ddp.receivedParsedPkt headers payload .localTalk noMac }
      | .other _ => pure l

end HostLink

/-! ## Hand-offs -/

/-- Drop the frame, hand one packet to DDP or to AARP, or pass an LLAP control frame on. -/
inductive HandsOff (l : HostLink) : HostLink → Prop
  | dropped : HandsOff l l
  | ddp (headers payload source sourceMac) :
      HandsOff l { l with ddp := l.ddp.receivedParsedPkt headers payload source sourceMac }
  | aarp {pkt source r a} : l.addressing.receivedPkt pkt source = .ok (r, a) →
      HandsOff l { l with addressing := a }
  | enquiry (node) : HandsOff l { l with addressing := l.addressing.receivedLlapEnq node }
  | acknowledge (node) : HandsOff l { l with addressing := l.addressing.receivedLlapAck node }

theorem HandsOff.isLocal {l l' : HostLink} (h : HandsOff l l') :
    l'.addressing.isLocal = l.addressing.isLocal := by
  cases h with
  | dropped => rfl
  | ddp => rfl
  | aarp h => exact AddressingHandle.receivedPkt_isLocal h
  | enquiry n => exact AddressingHandle.receivedLlapEnq_isLocal _ n
  | acknowledge n => exact AddressingHandle.receivedLlapAck_isLocal _ n

namespace HostLink

theorem relayAarp_handsOff {l l' : HostLink} {pkt : Bytes} {source : AddressSource}
    (h : l.relayAarp pkt source = .ok l') : HandsOff l l' := by
  obtain ⟨⟨r, a⟩, ha, hl⟩ := bind_eq_ok.1 h
  cases hl
  exact .aarp ha

theorem receivePhase2_handsOff {l l' : HostLink} {data : Bytes}
    (h : l.receivePhase2 data = .ok l') : HandsOff l l' := by
  unfold receivePhase2 at h
  split at h
  · cases h
    exact .dropped
  · obtain ⟨payload, -, h⟩ := bind_eq_ok.1 h
    split at h
    · obtain ⟨d, hd, hl⟩ := bind_eq_ok.1 h
      cases hl
      unfold DdpHandle.receivedPkt at hd
      split at hd
      · obtain ⟨ddpPayload, -, hd⟩ := bind_eq_ok.1 hd
        cases hd
        exact .ddp _ _ _ _
      · cases hd
        exact .dropped
    · exact relayAarp_handsOff h

theorem deliver_handsOff {l l' : HostLink} {headers : DdpPacket} {source : AddressSource}
    {payload : Checked Bytes} {mac : Checked EthernetMac}
    (h : (do
      let ddpPayload ← payload
      let sourceMac ← mac
      pure { l with ddp := l.ddp.receivedParsedPkt headers ddpPayload source sourceMac }) =
        .ok l') : HandsOff l l' := by
  obtain ⟨p, -, h⟩ := bind_eq_ok.1 h
  obtain ⟨m, -, h⟩ := bind_eq_ok.1 h
  cases h
  exact .ddp _ _ _ _

theorem receivePhase1Llap_handsOff {l l' : HostLink} {data : Bytes}
    (h : l.receivePhase1Llap data = .ok l') : HandsOff l l' := by
  unfold receivePhase1Llap at h
  split at h
  · obtain ⟨pkt, -, h⟩ := bind_eq_ok.1 h
    split at h
    · cases h
      exact .dropped
    · split at h
      · obtain ⟨payload, -, h⟩ := bind_eq_ok.1 h
        split at h
        · split at h
          · cases h
            exact .dropped
          · exact deliver_handsOff h
        · cases h
          exact .dropped
      · obtain ⟨payload, -, h⟩ := bind_eq_ok.1 h
        split at h
        · split at h
          · cases h
            exact .dropped
          · exact deliver_handsOff h
        · cases h
          exact .dropped
      · cases h
        exact .dropped
  · cases h
    exact .dropped

theorem receiveEtherTalk_handsOff {l l' : HostLink} {data : Bytes}
    (h : l.receiveEtherTalk data = .ok l') : HandsOff l l' := by
  obtain ⟨hi, -, h⟩ := bind_eq_ok.1 h
  obtain ⟨lo, -, h⟩ := bind_eq_ok.1 h
  dsimp only at h
  split at h
  · exact receivePhase2_handsOff h
  split at h
  · split at h
    · obtain ⟨pkt, -, h⟩ := bind_eq_ok.1 h
      exact relayAarp_handsOff h
    · cases h
      exact .dropped
  split at h
  · exact receivePhase1Llap_handsOff h
  · cases h
    exact .dropped

theorem receiveTashTalk_handsOff {l l' : HostLink} {data : Bytes}
    (h : l.receiveTashTalk data = .ok l') : HandsOff l l' := by
  unfold receiveTashTalk at h
  split at h
  · cases h
    exact .dropped
  split at h
  · cases h
    exact .dropped
  split at h
  · obtain ⟨pkt, -, h⟩ := bind_eq_ok.1 h
    split at h
    · cases h
      exact .dropped
    · obtain ⟨payload, -, h⟩ := bind_eq_ok.1 h
      cases h
      exact .ddp _ _ _ _
  · cases h
    exact .enquiry _
  · cases h
    exact .acknowledge _
  · obtain ⟨pkt, -, h⟩ := bind_eq_ok.1 h
    split at h
    · cases h
      exact .dropped
    · obtain ⟨payload, -, h⟩ := bind_eq_ok.1 h
      cases h
      exact .ddp _ _ _ _
  · cases h
    exact .dropped

end HostLink

/-! ## What a frame carries -/

/-- The packet that a frame hands to AARP or to a DDP parser. -/
inductive Carried where
  | nothing
  | aarp (pkt : Bytes)
  | ddpShort (pkt : Bytes)
  | ddpLong (pkt : Bytes)

/-- An AARP packet is well formed; a DDP packet that holds its header announces at least its length.
    -/
def Carried.Survivable (isLocal : Bool) : Carried → Prop
  | nothing => True
  | aarp pkt => isLocal → AarpPacket.WellFormed pkt
  | ddpShort pkt =>
    DdpPacket.SHORT_LEN ≤ pkt.length → DdpPacket.SHORT_LEN ≤ DdpPacket.lengthField pkt
  | ddpLong pkt => DdpPacket.LEN ≤ pkt.length → DdpPacket.LEN ≤ DdpPacket.lengthField pkt

/-- What a LocalTalk frame hands on. -/
def llapCarries (type : LlapType) (pkt : Bytes) : Carried :=
  match type with
  | .ddpShort => .ddpShort pkt
  | .ddpLong => .ddpLong pkt
  | _ => .nothing

/-- The packet in an Ethernet frame. -/
def etherTalkCarries (data : Bytes) : Carried :=
  let ethertypeOrLen := ofBe16 (data.getD 12 0) (data.getD 13 0)
  if ethertypeOrLen ≤ 1500 then
    match EtherTalkPhase2Frame.protocolOf data with
    | some .ddp => .ddpLong (data.drop 22)
    | some .aarp => .aarp (data.drop 22)
    | none => .nothing
  else if ethertypeOrLen = 0x80F3 then
    if 14 < data.length then .aarp (data.drop 14) else .nothing
  else if ethertypeOrLen = 0x809B then
    if 17 < data.length then llapCarries (.ofU8 (data.getD 16 0)) (data.drop 17) else .nothing
  else .nothing

/-- The packet in a LocalTalk frame. -/
def tashTalkCarries (data : Bytes) : Carried :=
  if data.length < 3 then .nothing else llapCarries (.ofU8 (data.getD 2 0)) (data.drop 3)

/-! ## When a turn returns -/

theorem returns_parsed {α : Type} {size : ℕ} {pkt : Bytes} {r : Except DdpError DdpPacket}
    (hr : DdpPacket.SizeChecked size pkt r) (dropped : α) (k : DdpPacket → Checked α)
    (hk : size ≤ pkt.length → ∀ headers, Returns (k headers) ↔ size ≤ headers.len) :
    Returns (match r with
      | .error _ => pure dropped
      | .ok headers => k headers) ↔
      (size ≤ pkt.length → size ≤ DdpPacket.lengthField pkt) := by
  rcases hr with ⟨hlen, rfl⟩ | ⟨hlen, headers, rfl, hfield⟩
  · simp only [returns_pure, true_iff]
    intro h
    omega
  · dsimp only
    rw [hk hlen, hfield]
    exact ⟨fun h _ => h, fun h => h hlen⟩

theorem DdpHandle.returns_receivedPkt (d : DdpHandle) (pkt : Bytes) (source : AddressSource)
    (mac : EthernetMac) (isLocal : Bool) :
    Returns (d.receivedPkt pkt source mac) ↔ (Carried.ddpLong pkt).Survivable isLocal := by
  unfold receivedPkt Carried.Survivable
  rcases DdpPacket.parse_sizeChecked pkt with ⟨hlen, hp⟩ | ⟨hlen, headers, hp, hfield⟩
  · simp only [hp, returns_pure, true_iff]
    intro h
    omega
  · simp only [hp]
    rw [returns_bind_iff (fun _ => returns_pure _), returns_slice_min _ hlen, hfield]
    exact ⟨fun h _ => h, fun h => h hlen⟩

namespace HostLink

theorem returns_relayAarp (l : HostLink) (pkt : Bytes) (source : AddressSource) :
    Returns (l.relayAarp pkt source) ↔ (Carried.aarp pkt).Survivable l.addressing.isLocal := by
  unfold relayAarp Carried.Survivable
  rw [returns_bind_iff (fun _ => returns_pure _), AddressingHandle.returns_receivedPkt]

theorem returns_receivePhase2 (l : HostLink) (data : Bytes) :
    Returns (l.receivePhase2 data) ↔
      Carried.Survivable l.addressing.isLocal
        (match EtherTalkPhase2Frame.protocolOf data with
        | some .ddp => .ddpLong (data.drop 22)
        | some .aarp => .aarp (data.drop 22)
        | none => .nothing) := by
  unfold receivePhase2
  rcases EtherTalkPhase2Frame.parse_cases data with ⟨e, hp, hnone⟩ | ⟨f, hp, hsome, hlen⟩
  · simp only [hp, hnone, returns_pure, Carried.Survivable]
  · simp only [hp, hsome, sliceFrom_eq hlen, returns_ok_bind]
    cases f.protocol with
    | ddp =>
      rw [returns_bind_iff (fun _ => returns_pure _)]
      exact DdpHandle.returns_receivedPkt _ _ _ _ _
    | aarp => exact returns_relayAarp l _ _

theorem returns_payload_then_mac {payload data : Bytes} {start len : ℕ}
    (hstart : start ≤ payload.length) (hdata : 12 ≤ data.length)
    (f : Bytes → EthernetMac → HostLink) :
    Returns (do
      let ddpPayload ← slice payload start (min len payload.length)
      let sourceMac ← slice data 6 12 >>= toArray 6
      pure (f ddpPayload sourceMac)) ↔ start ≤ len := by
  rw [returns_bind_iff, returns_slice_min _ hstart]
  intro ddpPayload
  rw [returns_bind_iff (fun _ => returns_pure _)]
  exact toArray_slice (by omega) hdata

/-- The guard on the payload's size repeats the parser's own. -/
theorem returns_guarded {size : ℕ} {payload data : Bytes} {r : Except DdpError DdpPacket}
    (hr : DdpPacket.SizeChecked size payload r) (hdata : 12 ≤ data.length) (l : HostLink)
    (f : DdpPacket → Bytes → EthernetMac → HostLink) :
    Returns (if payload.length ≥ size then
        match r with
        | .error _ => pure l
        | .ok headers => do
          let ddpPayload ← slice payload size (min headers.len payload.length)
          let sourceMac ← slice data 6 12 >>= toArray 6
          pure (f headers ddpPayload sourceMac)
      else pure l) ↔
      (size ≤ payload.length → size ≤ DdpPacket.lengthField payload) := by
  by_cases hsize : payload.length ≥ size
  · rw [if_pos hsize]
    exact returns_parsed hr l _ fun h headers => returns_payload_then_mac h hdata _
  · rw [if_neg hsize]
    exact ⟨fun _ h => absurd h hsize, fun _ => returns_pure _⟩

theorem returns_receivePhase1Llap (l : HostLink) (data : Bytes) :
    Returns (l.receivePhase1Llap data) ↔
      Carried.Survivable l.addressing.isLocal
        (if 17 < data.length then llapCarries (.ofU8 (data.getD 16 0)) (data.drop 17)
        else .nothing) := by
  unfold receivePhase1Llap
  by_cases hlen : 17 < data.length
  · have h14 : 14 ≤ data.length := by omega
    have h17 : 14 + LlapPacket.LEN ≤ data.length := Nat.le_of_lt hlen
    have h12 : 12 ≤ data.length := by omega
    have hllap : LlapPacket.LEN ≤ (data.drop 14).length := by
      simp only [LlapPacket.LEN, List.length_drop]
      omega
    have htype : (data.drop 14).getD 2 0 = data.getD 16 0 := by
      simp [List.getD_eq_getElem?_getD]
    have hgt : data.length > 14 + LlapPacket.LEN := hlen
    simp only [hgt, hlen, if_true, sliceFrom_eq h14, returns_ok_bind, LlapPacket.parse_eq hllap,
      htype]
    cases LlapType.ofU8 (data.getD 16 0) with
    | ddpShort =>
      simp only [sliceFrom_eq h17, returns_ok_bind, llapCarries, Carried.Survivable]
      exact returns_guarded (DdpPacket.parseShort_sizeChecked _ _ _) h12 l _
    | ddpLong =>
      simp only [sliceFrom_eq h17, returns_ok_bind, llapCarries, Carried.Survivable]
      exact returns_guarded (DdpPacket.parse_sizeChecked _) h12 l _
    | enquiry => simp only [returns_pure, llapCarries, Carried.Survivable]
    | acknowledge => simp only [returns_pure, llapCarries, Carried.Survivable]
    | other n => simp only [returns_pure, llapCarries, Carried.Survivable]
  · simp only [hlen, LlapPacket.LEN, if_false, returns_pure, Carried.Survivable]

theorem returns_receiveEtherTalk (l : HostLink) {data : Bytes} (h : 14 ≤ data.length) :
    Returns (l.receiveEtherTalk data) ↔
      (etherTalkCarries data).Survivable l.addressing.isLocal := by
  have h12 : 12 < data.length := by omega
  have h13 : 13 < data.length := by omega
  simp only [receiveEtherTalk, byteAt_eq h12, byteAt_eq h13, returns_ok_bind, etherTalkCarries]
  generalize ofBe16 (data.getD 12 0) (data.getD 13 0) = ethertypeOrLen
  by_cases hphase2 : ethertypeOrLen ≤ 1500
  · simp only [hphase2, if_true]
    exact returns_receivePhase2 l data
  simp only [if_neg hphase2]
  by_cases haarp : ethertypeOrLen = 0x80F3
  · simp only [if_pos haarp]
    by_cases hlen : 14 < data.length
    · simp only [gt_iff_lt, if_pos hlen, sliceFrom_eq h, returns_ok_bind]
      exact returns_relayAarp l _ _
    · simp only [gt_iff_lt, if_neg hlen, returns_pure, Carried.Survivable]
  simp only [if_neg haarp]
  by_cases hllap : ethertypeOrLen = 0x809B
  · simp only [if_pos hllap]
    exact returns_receivePhase1Llap l data
  · simp only [if_neg hllap, returns_pure, Carried.Survivable]

theorem returns_receiveTashTalk (l : HostLink) (data : Bytes) :
    Returns (l.receiveTashTalk data) ↔
      (tashTalkCarries data).Survivable l.addressing.isLocal := by
  unfold receiveTashTalk tashTalkCarries
  by_cases hshort : data.length < 3
  · simp only [hshort, if_true, returns_pure, Carried.Survivable]
  have h3 : 3 ≤ data.length := Nat.not_lt.1 hshort
  -- The slices start and end three bytes later than the packet's own.
  have hslice : ∀ {size : ℕ}, size ≤ (data.drop 3).length → ∀ headers : DdpPacket,
      ∀ f : Bytes → HostLink, Returns (do
        let payload ← slice data (3 + size) (min (3 + headers.len) data.length)
        pure (f payload)) ↔ size ≤ headers.len := by
    intro size hsize headers f
    rw [List.length_drop] at hsize
    rw [returns_bind_iff (fun _ => returns_pure _), returns_slice_min _ (by omega)]
    omega
  simp only [hshort, if_false, LlapPacket.parse_eq h3]
  cases LlapType.ofU8 (data.getD 2 0) with
  | ddpShort =>
    simp only [sliceFrom_eq h3, returns_ok_bind, llapCarries, Carried.Survivable]
    exact returns_parsed (DdpPacket.parseShort_sizeChecked _ _ _) l _ fun h headers =>
      hslice h headers _
  | ddpLong =>
    simp only [sliceFrom_eq h3, returns_ok_bind, llapCarries, Carried.Survivable]
    exact returns_parsed (DdpPacket.parse_sizeChecked _) l _ fun h headers =>
      hslice h headers _
  | enquiry => simp only [returns_pure, llapCarries, Carried.Survivable]
  | acknowledge => simp only [returns_pure, llapCarries, Carried.Survivable]
  | other n => simp only [returns_pure, llapCarries, Carried.Survivable]

end HostLink

/-! ## The receive tasks -/

/-- A LocalTalk or AARP ethertype or an 802.3 length, not sent by this interface. -/
def captureFilter (ourMac : EthernetMac) (data : Bytes) : Bool :=
  let ethertypeOrLen := ofBe16 (data.getD 12 0) (data.getD 13 0)
  (ethertypeOrLen == 0x809B || ethertypeOrLen == 0x80F3 || decide (ethertypeOrLen ≤ 1500)) &&
    (data.take 12).drop 6 != ourMac.toList

/-- What the TashTalk codec delivers: at least a control frame, with a valid CRC. -/
def codecDelivers (frame : Bytes) : Bool := decide (5 ≤ frame.length) && crcOk frame

/-- The turn drops the frame or hands it off. -/
def Handled (l : HostLink) (turn : Checked HostLink) : Prop :=
  ∃ l', turn = .ok l' ∧ HandsOff l l'

theorem handled_iff {l : HostLink} {turn : Checked HostLink}
    (h : ∀ {l'}, turn = .ok l' → HandsOff l l') : Handled l turn ↔ Returns turn := by
  constructor
  · rintro ⟨l', hl, -⟩
    exact ⟨l', hl⟩
  · rintro ⟨l', hl⟩
    exact ⟨l', hl, h hl⟩

/-- **A receive task drops a frame or hands it off exactly if what the frame carries is
    survivable**: the AARP packet is well formed, and the length field of a DDP packet is at least
    the length of its header. Any other frame stops the task. -/
theorem receive_handled_iff (l : HostLink) :
    (∀ data : Bytes, 14 ≤ data.length →
      (Handled l (l.receiveEtherTalk data) ↔
        (etherTalkCarries data).Survivable l.addressing.isLocal)) ∧
    (∀ data : Bytes, Handled l (l.receiveTashTalk data) ↔
      (tashTalkCarries data).Survivable l.addressing.isLocal) := by
  constructor
  · intro data h
    rw [handled_iff HostLink.receiveEtherTalk_handsOff]
    exact l.returns_receiveEtherTalk h
  · intro data
    rw [handled_iff HostLink.receiveTashTalk_handsOff]
    exact l.returns_receiveTashTalk data

/-- A host that owns its interface, with nothing yet received. -/
def idleHost : HostLink where
  ddp := .inProcess .empty
  addressing := .inProcess ⟨.empty, .empty, .empty, ∅⟩

theorem receive_handled_iff_idleHost :
    Handled idleHost (idleHost.receiveEtherTalk (List.replicate 60 0)) ↔
      (etherTalkCarries (List.replicate 60 0)).Survivable true :=
  (receive_handled_iff idleHost).1 _ (by decide)

/-- A Phase 1 AARP frame with no known opcode. -/
def badAarpFrame : Bytes :=
  List.replicate 6 0xFF ++ [2, 0, 0, 0, 0, 1] ++ [0x80, 0xF3] ++ List.replicate 46 0

/-- A short DDP packet of five bytes that announces four. -/
def shortDdpFrame : Bytes := [5, 6, 1, 0, 4, 64, 65, 3] ++ ltCrc [5, 6, 1, 0, 4, 64, 65, 3]

/-- Frames that the filter and the codec deliver stop their tasks. -/
theorem receive_panics :
    (14 ≤ badAarpFrame.length ∧ captureFilter HostLink.noMac badAarpFrame = true ∧
      ¬ Handled idleHost (idleHost.receiveEtherTalk badAarpFrame)) ∧
    (codecDelivers shortDdpFrame = true ∧
      ¬ Handled idleHost (idleHost.receiveTashTalk shortDdpFrame)) := by
  refine ⟨⟨by decide, by decide, ?_⟩, crcOk_append_ltCrc _, ?_⟩
  · rw [handled_iff HostLink.receiveEtherTalk_handsOff,
      idleHost.returns_receiveEtherTalk (by decide)]
    intro h
    exact absurd (h rfl) (by decide)
  · rw [handled_iff HostLink.receiveTashTalk_handsOff, idleHost.returns_receiveTashTalk]
    intro h
    exact absurd (h (by decide)) (by decide)

/-! ## Runs of a receive task -/

/-- **An EtherTalk task is alive after any number of frames exactly if each was
    survivable.** -/
theorem receiveEtherTalk_run (l : HostLink) {frames : List Bytes}
    (h : ∀ data ∈ frames, 14 ≤ data.length) :
    Returns (frames.foldlM HostLink.receiveEtherTalk l) ↔
      ∀ data ∈ frames, (etherTalkCarries data).Survivable l.addressing.isLocal := by
  refine returns_foldlM (I := fun s : HostLink => s.addressing.isLocal = l.addressing.isLocal)
    ?_ ?_ rfl
  · intro s data s' hs hstep
    rw [← hs]
    exact (HostLink.receiveEtherTalk_handsOff hstep).isLocal
  · intro s data hdata hs
    rw [← hs]
    exact s.returns_receiveEtherTalk (h data hdata)

theorem receiveEtherTalk_run_idleHost :
    Returns ([List.replicate 60 0, badAarpFrame].foldlM HostLink.receiveEtherTalk idleHost) ↔
      ∀ data ∈ [List.replicate 60 0, badAarpFrame],
        (etherTalkCarries data).Survivable idleHost.addressing.isLocal :=
  receiveEtherTalk_run idleHost (by decide)

/-- **A TashTalk task is alive after any number of frames exactly if each was survivable.** -/
theorem receiveTashTalk_run (l : HostLink) (frames : List Bytes) :
    Returns (frames.foldlM HostLink.receiveTashTalk l) ↔
      ∀ data ∈ frames, (tashTalkCarries data).Survivable l.addressing.isLocal := by
  refine returns_foldlM (I := fun s : HostLink => s.addressing.isLocal = l.addressing.isLocal)
    ?_ ?_ rfl
  · intro s data s' hs hstep
    rw [← hs]
    exact (HostLink.receiveTashTalk_handsOff hstep).isLocal
  · intro s data _ hs
    rw [← hs]
    exact s.returns_receiveTashTalk data

end TailTalk
