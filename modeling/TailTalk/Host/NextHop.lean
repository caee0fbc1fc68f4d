/-
  Where a datagram goes — its cable and its next hop: every datagram comes to
  what `Outgoing` says, and none stops the task (`handleOutbound_outgoing`).
-/
import TailTalk.Host.Outbound

namespace TailTalk

open Lib

/-- The address of the hop. -/
def NextHop.target (dest : AppleTalkAddress) : NextHop → AppleTalkAddress
  | .local _ => dest
  | .via router _ => router

namespace DdpProcessor

/-- Everyone, on every cable. -/
def everyone : AppleTalkAddress := ⟨0, 255⟩

/-- Our address on a cable. -/
def addrOn (d : DdpProcessor) : Interface → Option AppleTalkAddress
  | .etherTalk => d.etAddressing.map (·.addr)
  | .localTalk => d.ltAddressing

/-- The node that a hop has on a cable. -/
def nodeOn (d : DdpProcessor) (hop : AppleTalkAddress) (asked : Except LookupError NodeOfEther) :
    Interface → Option Addressing.Node
  | .etherTalk => d.etAddressing.bind fun et => (et.lookup hop asked).toOption
  | .localTalk => d.ltAddressing.map fun _ => .localTalk hop.nodeNumber

/-- A destination is an address of ours, or 0.0. -/
def IsOurs (d : DdpProcessor) (dest : AppleTalkAddress) : Prop :=
  (∃ iface, d.addrOn iface = some dest) ∨ dest = ⟨0, 0⟩ ∧ ∃ iface, (d.addrOn iface).isSome

/-- A destination has a router for its next hop. -/
def Routed (routes : RouteReading) (dest : AppleTalkAddress) : Prop :=
  dest.networkNumber ≠ 0 ∧
    ∃ router iface, routes.resolve dest.networkNumber = some (.via router iface)

/-- The socket that a datagram is for gets it, if there is one and it has room. -/
structure Delivered (d : DdpProcessor) (p : OutboundPacket) (d' : DdpProcessor) : Prop where
  room : ∀ c, d.sockets[p.dest.sock]? = some c → c.closed = false → c.queue.length < 100 →
    ∃ c' our source, d.addrOn (Interface.ofSource source) = some our ∧
      d'.sockets[p.dest.sock]? = some c' ∧
      c'.queue = c.queue ++ [⟨p.headers our DdpPacket.LEN, p.payload, source⟩]
  others : ∀ sock, sock ≠ p.dest.sock → d'.sockets[sock]? = d.sockets[sock]?

/-- What a datagram comes to. -/
structure Outgoing (d : DdpProcessor) (p : OutboundPacket) (first last : RouteReading)
    (asked : Except LookupError NodeOfEther) (d' : DdpProcessor) (sent : List DataLinkPacket) :
    Prop where
  queued : d'.ethertalk = d.ethertalk ++ sent
  ours : p.dest.addr ≠ everyone → d.IsOurs p.dest.addr → sent = [] ∧ d.Delivered p d'
  broadcast : p.dest.addr = everyone → sent.map (·.destNode.cable) =
    [Interface.etherTalk, .localTalk].filter fun iface =>
      (d.addrOn iface).isSome && p.wanted iface
  single : p.dest.addr ≠ everyone → sent.length ≤ 1
  nextHop : p.dest.addr.networkNumber ≠ 0 → ¬ d.IsOurs p.dest.addr →
    ∀ hop, first.resolve p.dest.addr.networkNumber = some hop →
      (d.addrOn hop.interface).isSome → sent.map (·.destNode) =
        (d.nodeOn (hop.target p.dest.addr) asked hop.interface).toList
  carries : ∀ f ∈ sent, ∃ our h, d.addrOn f.destNode.cable = some our ∧
    Carries p our last f h ∧ (¬ Routed first p.dest.addr → h.destNodeId = p.dest.addr.nodeNumber)

variable {d : DdpProcessor}

theorem lookup_cable {et : EtherAddressing} {hop : AppleTalkAddress}
    {asked : Except LookupError NodeOfEther} {node : Addressing.Node}
    (h : et.lookup hop asked = .ok node) : node.cable = .etherTalk := by
  unfold EtherAddressing.lookup at h
  split at h
  · rename_i found hfound
    cases h
    exact LocalAddressing.tryLookup_cable et.etherTalk et.onEther hfound
  · cases asked with
    | error e => cases h
    | ok found =>
      cases h
      exact found.2

theorem lookup_of_tryLookup {et : EtherAddressing} {hop : AppleTalkAddress}
    (asked : Except LookupError NodeOfEther) {node : Addressing.Node}
    (h : et.tryLookup hop = some node) : et.lookup hop asked = .ok node := by
  rw [EtherAddressing.lookup, h]

theorem nodeOn_cable {hop : AppleTalkAddress} {asked : Except LookupError NodeOfEther}
    {iface : Interface} {node : Addressing.Node} (h : d.nodeOn hop asked iface = some node) :
    node.cable = iface ∧ (d.addrOn iface).isSome ∧
      (iface = .localTalk → node.number = hop.nodeNumber) := by
  cases iface with
  | etherTalk =>
    obtain ⟨et, het, hlookup⟩ := Option.bind_eq_some_iff.1 h
    have hok : et.lookup hop asked = .ok node := by
      cases hresult : et.lookup hop asked with
      | error e =>
        rw [hresult] at hlookup
        cases hlookup
      | ok found =>
        rw [hresult] at hlookup
        cases hlookup
        rfl
    refine ⟨lookup_cable hok, ?_, (fun h => nomatch h)⟩
    simp only [addrOn, het, Option.map_some, Option.isSome_some]
  | localTalk =>
    obtain ⟨our, hour, rfl⟩ := Option.map_eq_some_iff.1 h
    refine ⟨rfl, ?_, fun _ => rfl⟩
    simp only [addrOn, hour, Option.isSome_some]

section
variable {hop : AppleTalkAddress} {asked : Except LookupError NodeOfEther} {node : Addressing.Node}

theorem exists_localTalk {lt : AppleTalkAddress} (hlt : d.ltAddressing = some lt)
    (hnode : node = .localTalk hop.nodeNumber) : ∃ iface, d.nodeOn hop asked iface = some node := by
  refine ⟨.localTalk, ?_⟩
  rw [nodeOn, hlt, Option.map_some, hnode]

theorem exists_etherTalk {et : EtherAddressing} (het : d.etAddressing = some et)
    (hlookup : et.lookup hop asked = .ok node) : ∃ iface, d.nodeOn hop asked iface = some node := by
  refine ⟨.etherTalk, ?_⟩
  rw [nodeOn, het, Option.bind_some, hlookup]
  rfl

theorem guessNode_spec (h : d.guessNode hop asked = some node) :
    ∃ iface, d.nodeOn hop asked iface = some node := by
  unfold guessNode at h
  by_cases hzero : hop.networkNumber = 0
  · rw [if_pos hzero] at h
    cases hlt : d.ltAddressing with
    | none =>
      cases het : d.etAddressing with
      | none =>
        rw [hlt, het] at h
        cases h
      | some et =>
        rw [hlt, het] at h
        exact exists_etherTalk het (lookup_of_tryLookup asked h)
    | some lt =>
      cases het : d.etAddressing with
      | none =>
        rw [hlt, het] at h
        exact exists_localTalk hlt (Option.some.inj h).symm
      | some et =>
        rw [hlt, het] at h
        dsimp only at h
        cases hfound : et.tryLookup hop with
        | none =>
          rw [hfound] at h
          exact exists_localTalk hlt (Option.some.inj h).symm
        | some found =>
          rw [hfound] at h
          cases h
          exact exists_etherTalk het (lookup_of_tryLookup asked hfound)
  · rw [if_neg hzero] at h
    cases het : d.etAddressing with
    | none =>
      rw [het] at h
      cases hlt : d.ltAddressing with
      | none =>
        rw [hlt] at h
        cases h
      | some lt =>
        rw [hlt] at h
        exact exists_localTalk hlt (Option.some.inj h).symm
    | some et =>
      rw [het] at h
      cases hfound : et.lookup hop asked with
      | ok found =>
        simp only [hfound] at h
        cases h
        exact exists_etherTalk het hfound
      | error e =>
        simp only [hfound] at h
        split_ifs at h with hsome
        obtain ⟨lt, hlt⟩ := Option.isSome_iff_exists.1 hsome
        exact exists_localTalk hlt (Option.some.inj h).symm

end

/-- A datagram goes to a node that its hop has on some cable: on the cable of the hop, if that
    is known and there. -/
theorem destNode_spec (d : DdpProcessor) (hop : AppleTalkAddress) (routeIface : Option Interface)
    (asked : Except LookupError NodeOfEther) :
    ∃ found, d.destNode hop routeIface asked = .ok found ∧
      (∀ node, found = some node → ∃ iface, d.nodeOn hop asked iface = some node) ∧
      ∀ iface, routeIface = some iface → (d.addrOn iface).isSome →
        found = d.nodeOn hop asked iface := by
  unfold destNode
  split_ifs with hlocal hether
  · obtain ⟨hiface, hlt⟩ := hlocal
    obtain ⟨lt, hlt⟩ := Option.isSome_iff_exists.1 hlt
    have hnode : d.nodeOn hop asked .localTalk = some (.localTalk hop.nodeNumber) := by
      rw [nodeOn, hlt, Option.map_some]
    refine ⟨_, rfl, ?_, ?_⟩
    · rintro node hnode'
      cases hnode'
      exact ⟨.localTalk, hnode⟩
    · intro iface hiface' _
      rw [hiface] at hiface'
      cases hiface'
      exact hnode.symm
  · obtain ⟨hiface, het⟩ := hether
    obtain ⟨et, het⟩ := Option.isSome_iff_exists.1 het
    have hnode : d.nodeOn hop asked .etherTalk = (et.lookup hop asked).toOption := by
      rw [nodeOn, het, Option.bind_some]
    refine ⟨(et.lookup hop asked).toOption, ?_, ?_, ?_⟩
    · rw [het]
      rfl
    · intro node hfound
      exact ⟨.etherTalk, hnode.trans hfound⟩
    · intro iface hiface' _
      rw [hiface] at hiface'
      cases hiface'
      exact hnode.symm
  · refine ⟨_, rfl, fun node hnode => guessNode_spec hnode, ?_⟩
    intro iface hiface hsome
    cases iface with
    | etherTalk => exact absurd ⟨hiface, by simpa [addrOn] using hsome⟩ hether
    | localTalk => exact absurd ⟨hiface, hsome⟩ hlocal

theorem ours_eq_some {dest our : AppleTalkAddress} {source : AddressSource} :
    d.ours dest = some (our, source) → d.addrOn (Interface.ofSource source) = some our ∧
      (toSelf dest ∨ dest.nodeNumber = our.nodeNumber ∧
        (dest.networkNumber = our.networkNumber ∨ dest.networkNumber = 0)) := by
  intro h
  unfold ours at h
  split at h
  · rename_i et het
    obtain ⟨het, howns⟩ := Option.filter_eq_some_iff.1 het
    cases h
    have hphase : Interface.ofSource et.phase = .etherTalk := by
      cases hphase : et.phase with
      | etherTalkPhase1 => rfl
      | etherTalkPhase2 => rfl
      | localTalk => exact absurd hphase et.etherTalk
    rw [hphase, addrOn, het, Option.map_some]
    refine ⟨rfl, ?_⟩
    rcases of_decide_eq_true howns with hself | ⟨hnode, hnet | ⟨hzero, -⟩⟩
    · exact Or.inl hself
    · exact Or.inr ⟨hnode, Or.inl hnet⟩
    · exact Or.inr ⟨hnode, Or.inr hzero⟩
  · obtain ⟨lt, hlt, heq⟩ := Option.map_eq_some_iff.1 h
    cases heq
    obtain ⟨hlt, howns⟩ := Option.filter_eq_some_iff.1 hlt
    exact ⟨hlt, of_decide_eq_true howns⟩

theorem exists_ours {dest : AppleTalkAddress} (h : d.IsOurs dest) :
    ∃ our source, d.ours dest = some (our, source) := by
  have hether : ∀ et, d.etAddressing = some et → et.owns dest = true →
      ∃ our source, d.ours dest = some (our, source) := by
    intro et het howns
    refine ⟨et.addr, et.phase, ?_⟩
    rw [ours, het, Option.filter_some, if_pos howns]
  have hlocal : ∀ lt, d.ltAddressing = some lt → ltOwns lt dest = true →
      ∃ our source, d.ours dest = some (our, source) := by
    intro lt hlt howns
    unfold ours
    split
    · exact ⟨_, _, rfl⟩
    · rw [hlt, Option.filter_some, if_pos howns]
      exact ⟨_, _, rfl⟩
  rcases h with ⟨iface, haddr⟩ | ⟨rfl, iface, hsome⟩
  · cases iface with
    | etherTalk =>
      obtain ⟨et, het, rfl⟩ := Option.map_eq_some_iff.1 haddr
      exact hether et het (decide_eq_true (Or.inr ⟨rfl, Or.inl rfl⟩))
    | localTalk => exact hlocal dest haddr (decide_eq_true (Or.inr ⟨rfl, Or.inl rfl⟩))
  · obtain ⟨our, haddr⟩ := Option.isSome_iff_exists.1 hsome
    cases iface with
    | etherTalk =>
      obtain ⟨et, het, -⟩ := Option.map_eq_some_iff.1 haddr
      exact hether et het (decide_eq_true (Or.inl ⟨rfl, rfl⟩))
    | localTalk => exact hlocal our haddr (decide_eq_true (Or.inl ⟨rfl, rfl⟩))

theorem isOurs_of_ours {dest our : AppleTalkAddress} {source : AddressSource}
    (hnet : dest.networkNumber ≠ 0) (h : d.ours dest = some (our, source)) : d.IsOurs dest := by
  obtain ⟨haddr, hself | ⟨hnode, heq | hzero⟩⟩ := ours_eq_some h
  · exact absurd hself.1 hnet
  · refine Or.inl ⟨_, haddr.trans (congrArg some ?_)⟩
    cases dest
    cases our
    simp_all
  · exact absurd hzero hnet

/-- What is for ourselves is put into the socket, as far as that has room. -/
theorem deliverLocal_delivered {our : AppleTalkAddress} {source : AddressSource}
    (h : d.addrOn (Interface.ofSource source) = some our) (p : OutboundPacket) :
    d.Delivered p (d.deliverLocal p our source) := by
  constructor
  · intro c hc hopen hroom
    obtain ⟨c', hsend, hqueue⟩ : ∃ c', c.trySend ⟨p.headers our DdpPacket.LEN, p.payload, source⟩ =
        .ok c' ∧ c'.queue = c.queue ++ [⟨p.headers our DdpPacket.LEN, p.payload, source⟩] := by
      rw [Channel.trySend, hopen]
      exact ⟨_, dif_pos hroom, rfl⟩
    refine ⟨c', our, source, h, ?_, hqueue⟩
    simp only [deliverLocal, hc, hsend]
    exact Std.HashMap.getElem?_insert_self
  · intro sock hsock
    have hne : ¬ (p.dest.sock == sock) = true := fun heq => hsock (beq_iff_eq.1 heq).symm
    unfold deliverLocal
    split
    · split
      · exact (Std.HashMap.getElem?_insert ..).trans (if_neg hne)
      · exact (Std.HashMap.getElem?_erase ..).trans (if_neg hne)
      · rfl
    · rfl

theorem deliverLocal_ethertalk (d : DdpProcessor) (p : OutboundPacket) (our : AppleTalkAddress)
    (source : AddressSource) : (d.deliverLocal p our source).ethertalk = d.ethertalk := by
  unfold deliverLocal
  split
  · split
    · rfl
    · rfl
    · rfl
  · rfl

theorem addrFor_eq {node : Addressing.Node} {our : AppleTalkAddress}
    (h : d.addrOn node.cable = some our) : d.addrFor node = .ok our := by
  have hether : d.addrOn .etherTalk = some our → d.etAddr = .ok our := by
    intro h
    obtain ⟨et, het, rfl⟩ := Option.map_eq_some_iff.1 h
    rw [etAddr, het]
  cases node with
  | localTalk n =>
    have hlt : d.ltAddressing = some our := h
    rw [addrFor, ltAddr, hlt]
  | etherTalkPhase1 mac => exact hether h
  | etherTalkPhase2 mac => exact hether h

/-- What a broadcast adds on one cable. -/
theorem sendWanted_spec (d : DdpProcessor) (p : OutboundPacket) (iface : Interface)
    {destNode : Addressing.Node} (routes : RouteReading) (hnode : destNode.cable = iface) :
    ∃ sent, d.sendWanted p iface (d.addrOn iface).isSome (d.addrFor destNode) destNode routes =
        .ok { d with ethertalk := d.ethertalk ++ sent } ∧
      sent.map (·.destNode.cable) =
        [iface].filter (fun iface => (d.addrOn iface).isSome && p.wanted iface) ∧
      ∀ f ∈ sent, ∃ our, d.addrOn iface = some our ∧ f = p.frame destNode our routes := by
  unfold sendWanted
  split_ifs with hsend
  · obtain ⟨hconfigured, hwanted⟩ := hsend
    obtain ⟨our, heq⟩ := Option.isSome_iff_exists.1 hconfigured
    refine ⟨[p.frame destNode our routes], ?_, ?_, ?_⟩
    · rw [← hnode] at heq
      rw [addrFor_eq heq]
      rfl
    · have hyes : ((d.addrOn iface).isSome && p.wanted iface) = true := by
        rw [hconfigured, hwanted, Bool.and_true]
      simp only [List.filter_cons, hyes, if_true, List.filter_nil]
      exact congrArg (fun c => [c]) hnode
    · intro f hf
      exact ⟨our, heq, List.mem_singleton.1 hf⟩
  · refine ⟨[], ?_, ?_, fun _ hf => (List.not_mem_nil hf).elim⟩
    · rw [List.append_nil]
      rfl
    · refine (List.filter_eq_nil_iff.2 ?_).symm
      intro c hc
      rw [List.mem_singleton.1 hc, Bool.and_eq_true]
      exact hsend

theorem frame_outgoing {p : OutboundPacket} {node : Addressing.Node} {our : AppleTalkAddress}
    {first last : RouteReading} (haddr : d.addrOn node.cable = some our)
    (hnumber : node.cable = .localTalk → ¬ Routed first p.dest.addr →
      node.number = p.dest.addr.nodeNumber) :
    ∃ our' h, d.addrOn (p.frame node our last).destNode.cable = some our' ∧
      Carries p our' last (p.frame node our last) h ∧
      (¬ Routed first p.dest.addr → h.destNodeId = p.dest.addr.nodeNumber) := by
  obtain ⟨h, hcarries⟩ := p.frame_carries node our last
  refine ⟨our, h, haddr, hcarries, fun hunrouted => ?_⟩
  cases hlong : (p.frame node our last).ddpLong with
  | true => exact (hcarries.long hlong).2.1
  | false =>
    obtain ⟨hcable, -, hdest⟩ := hcarries.short hlong
    exact hdest.trans (hnumber hcable hunrouted)

theorem broadcast_outgoing (d : DdpProcessor) {p : OutboundPacket} (first last : RouteReading)
    (asked : Except LookupError NodeOfEther) (hdest : p.dest.addr = everyone) :
    ∃ d' sent, d.handleOutbound p first last asked = .ok d' ∧
      Outgoing d p first last asked d' sent := by
  let etherNode : Addressing.Node := .etherTalkPhase2 Addressing.APPLETALK_BROADCAST_MULTICAST
  let localNode : Addressing.Node := .localTalk 255
  obtain ⟨sent, hsend, hcables, hframes⟩ :=
    d.sendWanted_spec p .etherTalk last (rfl : etherNode.cable = .etherTalk)
  let d₁ : DdpProcessor := { d with ethertalk := d.ethertalk ++ sent }
  obtain ⟨sent', hsend', hcables', hframes'⟩ :=
    d₁.sendWanted_spec p .localTalk last (rfl : localNode.cable = .localTalk)
  refine ⟨{ d₁ with ethertalk := d₁.ethertalk ++ sent' }, sent ++ sent', ?_, ?_⟩
  · have hyes : p.dest.addr.networkNumber = 0 ∧ p.dest.addr.nodeNumber = 255 := by
      rw [hdest]
      exact ⟨rfl, rfl⟩
    rw [addrOn, Option.isSome_map] at hsend
    unfold handleOutbound
    rw [if_pos hyes]
    exact bind_eq_ok.2 ⟨d₁, hsend, hsend'⟩
  · constructor
    · exact List.append_assoc _ _ _
    · exact fun h => absurd hdest h
    · intro _
      rw [List.map_append, hcables, hcables']
      exact (List.filter_append [Interface.etherTalk] [.localTalk]).symm
    · exact fun h => absurd hdest h
    · intro hnet
      rw [hdest] at hnet
      exact absurd rfl hnet
    · intro f hf
      rcases List.mem_append.1 hf with hf | hf
      · obtain ⟨our, haddr, rfl⟩ := hframes f hf
        exact frame_outgoing haddr (fun h => nomatch h)
      · obtain ⟨our, haddr, rfl⟩ := hframes' f hf
        refine frame_outgoing haddr fun _ _ => ?_
        rw [hdest]
        rfl

theorem nextHop_eq (first : RouteReading) (dest : AppleTalkAddress) :
    (dest.networkNumber = 0 ∧ nextHop first dest = (dest, none)) ∨
    (dest.networkNumber ≠ 0 ∧ nextHop first dest =
      (((first.resolve dest.networkNumber).elim dest (·.target dest)),
        (first.resolve dest.networkNumber).map NextHop.interface)) := by
  unfold nextHop
  split_ifs with hnet
  · exact Or.inl ⟨hnet, rfl⟩
  · refine Or.inr ⟨hnet, ?_⟩
    split
    · rename_i heq
      rw [heq]
      rfl
    · rename_i heq
      rw [heq]
      rfl
    · rename_i heq
      rw [heq]
      rfl

theorem nextHop_unrouted {first : RouteReading} {dest : AppleTalkAddress}
    (h : ¬ Routed first dest) : (nextHop first dest).1 = dest := by
  rcases nextHop_eq first dest with ⟨-, heq⟩ | ⟨hnet, heq⟩
  · rw [heq]
  · rw [heq]
    cases hresolve : first.resolve dest.networkNumber with
    | none => rfl
    | some hop =>
      cases hop with
      | «local» iface => rfl
      | via router iface => exact absurd ⟨hnet, router, iface, hresolve⟩ h

theorem eq_everyone_iff {dest : AppleTalkAddress} :
    dest = everyone ↔ dest.networkNumber = 0 ∧ dest.nodeNumber = 255 := by
  constructor
  · rintro rfl
    exact ⟨rfl, rfl⟩
  · rintro ⟨hnet, hnode⟩
    cases dest
    cases hnet
    cases hnode
    rfl

theorem handleOutbound_found {p : OutboundPacket} {first last : RouteReading}
    {asked : Except LookupError NodeOfEther} (hdest : p.dest.addr ≠ everyone)
    (hours : d.ours p.dest.addr = none) {found : Option Addressing.Node}
    (hfound : d.destNode (nextHop first p.dest.addr).1 (nextHop first p.dest.addr).2 asked = .ok found)
    (hnode : ∀ node, found = some node →
      ∃ iface, d.nodeOn (nextHop first p.dest.addr).1 asked iface = some node) :
    ∃ sent, d.handleOutbound p first last asked =
        .ok { d with ethertalk := d.ethertalk ++ sent } ∧ sent.map (·.destNode) = found.toList ∧
      ∀ f ∈ sent, ∃ node our, found = some node ∧ d.addrOn node.cable = some our ∧
        f = p.frame node our last := by
  have hno : ¬ (p.dest.addr.networkNumber = 0 ∧ p.dest.addr.nodeNumber = 255) :=
    fun h => hdest (eq_everyone_iff.2 h)
  unfold handleOutbound
  rw [if_neg hno, hours]
  simp only [hfound]
  cases found with
  | none =>
    refine ⟨[], ?_, rfl, fun _ hf => (List.not_mem_nil hf).elim⟩
    rw [List.append_nil]
    rfl
  | some node =>
    obtain ⟨iface, honcable⟩ := hnode node rfl
    obtain ⟨hcable, hsome, -⟩ := nodeOn_cable honcable
    obtain ⟨our, haddr⟩ := Option.isSome_iff_exists.1 hsome
    rw [← hcable] at haddr
    refine ⟨[p.frame node our last], ?_, rfl, ?_⟩
    · refine bind_eq_ok.2 ⟨some node, rfl, bind_eq_ok.2 ⟨our, ?_, rfl⟩⟩
      rw [addrFor_eq haddr]
      rfl
    · intro f hf
      exact ⟨node, our, rfl, haddr, List.mem_singleton.1 hf⟩

theorem unicast_outgoing (d : DdpProcessor) {p : OutboundPacket} (first last : RouteReading)
    (asked : Except LookupError NodeOfEther) (hdest : p.dest.addr ≠ everyone)
    (hours : d.ours p.dest.addr = none) :
    ∃ d' sent, d.handleOutbound p first last asked = .ok d' ∧
      Outgoing d p first last asked d' sent := by
  have hforeign : ¬ d.IsOurs p.dest.addr := by
    intro h
    obtain ⟨our, source, heq⟩ := exists_ours h
    rw [hours] at heq
    cases heq
  obtain ⟨found, hfound, hnode, hknown⟩ := d.destNode_spec (nextHop first p.dest.addr).1
    (nextHop first p.dest.addr).2 asked
  obtain ⟨sent, hrun, hnodes, hframes⟩ :=
    @handleOutbound_found d p first last asked hdest hours found hfound hnode
  refine ⟨_, sent, hrun, ?_⟩
  constructor
  · rfl
  · exact fun _ h => absurd h hforeign
  · exact fun h => absurd h hdest
  · intro _
    rw [← List.length_map (·.destNode), hnodes]
    cases found with
    | none => exact Nat.zero_le 1
    | some node => exact Nat.le_refl 1
  · intro hnet _ hop hresolve hsome
    rcases nextHop_eq first p.dest.addr with ⟨hzero, -⟩ | ⟨-, heq⟩
    · exact absurd hzero hnet
    · rw [hresolve, Option.elim_some, Option.map_some] at heq
      rw [heq] at hknown
      rw [hnodes, hknown hop.interface rfl hsome]
  · intro f hf
    obtain ⟨node, our, rfl, haddr, rfl⟩ := hframes f hf
    refine frame_outgoing haddr fun hlocal hunrouted => ?_
    obtain ⟨iface, honcable⟩ := hnode node rfl
    obtain ⟨hcable, -, hnumber⟩ := nodeOn_cable honcable
    rw [nextHop_unrouted hunrouted] at hnumber
    exact hnumber (hcable.symm.trans hlocal)

/-- **What a host sends**: every datagram is for the node itself, for every cable, or for one next
    hop, and every frame of it carries it. -/
theorem handleOutbound_outgoing (d : DdpProcessor) (p : OutboundPacket)
    (first last : RouteReading) (asked : Except LookupError NodeOfEther) :
    ∃ d' sent, d.handleOutbound p first last asked = .ok d' ∧
      Outgoing d p first last asked d' sent := by
  by_cases heveryone : p.dest.addr = everyone
  · exact d.broadcast_outgoing first last asked heveryone
  cases hours : d.ours p.dest.addr with
  | none => exact d.unicast_outgoing first last asked heveryone hours
  | some found =>
    obtain ⟨our, source⟩ := found
    refine ⟨d.deliverLocal p our source, [], ?_, ?_⟩
    · unfold handleOutbound
      rw [if_neg fun h => heveryone (eq_everyone_iff.2 h), hours]
      rfl
    · constructor
      · rw [deliverLocal_ethertalk, List.append_nil]
      · exact fun _ _ => ⟨rfl, deliverLocal_delivered (ours_eq_some hours).1 p⟩
      · exact fun h => absurd h heveryone
      · exact fun _ => Nat.zero_le 1
      · exact fun hnet hforeign => absurd (isOurs_of_ours hnet hours) hforeign
      · exact fun _ hf => (List.not_mem_nil hf).elim

/-- A host without an interface. -/
def offline : DdpProcessor where
  sockets := (∅ : Std.HashMap UInt8 (Channel Packet 100)).insert 4 .empty
  ethertalk := []
  etAddressing := none
  ltAddressing := none

/-- The table of a cable on which nothing was heard. -/
def unheard : RouteReading := ⟨RouteTable.new .dynamic, 0⟩

/-- A byte from the socket 128 to the socket 4. -/
def byteTo (dest : AppleTalkAddress) : OutboundPacket where
  dest := ⟨dest, 4⟩
  srcSock := 128
  protocol := .nbp
  payload := [7]
  iface := none
  payload_le := by decide

/-- A host without an interface does not hear itself; a short header for 5.7 names no network. -/
theorem offline_not_delivered :
    (offline.handleOutbound (byteTo ⟨0, 0⟩) unheard unheard (.error .timedOut) = .ok offline ∧
      (offline.sockets[(4 : UInt8)]?).map (·.queue) = some []) ∧
    ∃ d' f h, { offline with ltAddressing := some ⟨5, 9⟩ }.handleOutbound (byteTo ⟨5, 7⟩)
        unheard unheard (.error .timedOut) = .ok d' ∧
      d'.ethertalk = [f] ∧ f.header = .ok h ∧ h.destNetworkNum = 0 := by
  refine ⟨⟨rfl, ?_⟩, ?_⟩
  · simp [offline, Channel.empty]
  · let h := ((byteTo ⟨5, 7⟩).headers ⟨5, 9⟩ DdpPacket.SHORT_LEN).onShortWire 7 9
    let f := (byteTo ⟨5, 7⟩).frame (.localTalk 7) ⟨5, 9⟩ unheard
    have hheader : f.header = .ok h := by decide
    exact ⟨_, f, h, rfl, rfl, hheader, rfl⟩

end DdpProcessor

end TailTalk
