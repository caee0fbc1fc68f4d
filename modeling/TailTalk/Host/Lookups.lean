/-
  Answers to NBP lookups — by the embedded responder and by the host's.

  Both put the first fifteen matches in one datagram.  It may be too long; then
  neither sends any, and the host stops if they do not even fit its buffer.
-/
import TailTalk.Host.Outbound
import TailTalk.Packets.NbpCodec
import TailTalk.Routes.Zones
import TailTalk.Stack.Stack

namespace TailTalk

open Lib

/-! ## Registries -/

/-- The owner names a socket, or takes the name back. -/
inductive NbpCall where
  | register (name : EntityName) (socket : UInt8)
  | unregister (name : EntityName) (socket : UInt8)

namespace NbpRegistry

/-- One of them, an error leaving the registry. -/
def call (r : NbpRegistry) : NbpCall → NbpRegistry
  | .register name socket =>
    match r.register name socket with
    | .ok r => r
    | .error _ => r
  | .unregister name socket => (r.unregister name socket).2

/-- The registry after some calls. -/
def build (calls : List NbpCall) : NbpRegistry := run call .new calls

theorem nodup_call {r : NbpRegistry} (h : r.names.Nodup) (c : NbpCall) :
    (r.call c).names.Nodup := by
  cases c with
  | register name socket =>
    simp only [call, register]
    split_ifs with hwild hdup
    · exact h
    · exact h
    · exact List.nodup_append.2 ⟨h, List.nodup_singleton _, by
        rintro a ha b hb rfl
        rw [List.mem_singleton.1 hb] at ha
        exact hdup ha⟩
  | unregister name socket => exact h.filter _

theorem nodup_build (calls : List NbpCall) : (build calls).names.Nodup := by
  have hstep (r : NbpRegistry) (c : NbpCall) (h : r.names.Nodup) (_ : True) :
      (r.call c).names.Nodup := nodup_call h c
  have hnew : NbpRegistry.new.names.Nodup := List.nodup_nil
  exact inv_run call hstep hnew (along_true call calls)

end NbpRegistry

/-! ## The host's responder -/

/-- The NBP task of a host.  Packets come over an interface, so there is one. -/
structure Nbp where
  registeredNames : List RegisteredName
  etAddressing : Option AppleTalkAddress
  ltAddressing : Option AppleTalkAddress
  configured : etAddressing.isSome ∨ ltAddressing.isSome
  routeTable : Inner

/-- The zones of the ranges on an interface. -/
def Inner.zonesOn (t : Inner) (iface : Interface) : List Zone :=
  (t.localRanges.filter (·.interface = iface)).flatMap fun r => t.zip.zonesForRange r.range

/-- `eq_ignore_ascii_case`. -/
def Zone.eqIgnoreAsciiCase (a b : Zone) : Bool := a.map Char.toLower == b.map Char.toLower

namespace Nbp

/-- Our address on an interface, or the primary one; with none it panics. -/
def addrOn (n : Nbp) (iface : Interface) : Checked AppleTalkAddress :=
  let handle :=
    match iface with
    | .localTalk => if n.ltAddressing.isSome then n.ltAddressing else n.etAddressing
    | .etherTalk => if n.etAddressing.isSome then n.etAddressing else n.ltAddressing
  match handle with
  | some addr => .ok addr
  | none => .error .unwrap

variable (decode : NbpName → Option Zone)

/-- Whether a lookup heard on a cable asks about a zone we are in. -/
def zoneIsOurs (n : Nbp) (zone : NbpName) (source : AddressSource) : Bool :=
  match source with
  | .localTalk => true
  | .etherTalkPhase1 => true
  | .etherTalkPhase2 =>
    let ours := n.routeTable.zonesOn (.ofSource source)
    if ours = [] then true
    else
      match decode zone with
      | some z => ours.any fun o => o.eqIgnoreAsciiCase z
      | none => false

/-- A name of this zone is also matched as if the request had said `*`, where its zone is ours. -/
def isMatch (n : Nbp) (source : AddressSource) (req : EntityName) (name : RegisteredName) : Bool :=
  name.name.isMatch req ||
    (decide (name.name.zone = NbpRegistry.ZONE_WILDCARD) && n.zoneIsOurs decode req.zone source &&
      name.name.isMatch { req with zone := NbpRegistry.ZONE_WILDCARD })

/-- The tuples of the names that match, until there is no room for one. -/
def pushMatches (ourAddr : AppleTalkAddress) (matched : RegisteredName → Bool) :
    List NbpTuple → List RegisteredName → List NbpTuple
  | tuples, [] => tuples
  | tuples, name :: names =>
    if matched name then
      if tuples.length < MAX_NBP_TUPLES then
        pushMatches ourAddr matched (tuples ++ [NbpRegistry.replyTuple ourAddr name]) names
      else tuples
    else pushMatches ourAddr matched tuples names

/-- The host's answer. -/
def generateResponse (n : Nbp) (packet : NbpPacket) (source : AddressSource) :
    Checked NbpPacket := do
  let ourAddr ← n.addrOn (.ofSource source)
  return {
    operation := .lookupReply
    transactionId := packet.transactionId
    tuples := packet.tuples.foldl (fun tuples req =>
      pushMatches ourAddr (n.isMatch decode source req.entityName) tuples n.registeredNames) [] }

/-- The answer to a lookup and where it goes. A socket takes 586 bytes; the error is logged. -/
def handlePacket (n : Nbp) (payload : Bytes) (source : AddressSource) :
    Checked (Option (DdpAddress × Bytes)) :=
  match NbpPacket.fromBytes payload with
  | .error _ => return none
  | .ok packet =>
    if packet.operation ≠ .lookup then return none
    else do
      let response ← n.generateResponse decode packet source
      match response.tuples, packet.tuples with
      | [], _ => return none
      | _, [] => return none
      | _, reqTuple :: _ =>
        let buf ← unwrap (response.toBytes 1024)
        if buf.length > 586 then return none
        else
          return some (⟨⟨reqTuple.networkNumber, reqTuple.nodeId⟩, reqTuple.socketNumber⟩, buf)

end Nbp

/-! ## Answers -/

/-- The bytes of a reply with tuples for these names: two, and for each name its own and nine. -/
def replyLength (names : List RegisteredName) : ℕ :=
  2 + (names.map fun n => n.name.object.1.length + n.name.entityType.1.length + 9).sum

/-- An answer with its tuples. -/
def lookupReply (transactionId : UInt8) (tuples : List NbpTuple) : NbpPacket :=
  ⟨.lookupReply, transactionId, tuples⟩

theorem wire_lookupReply_length (transactionId : UInt8) (ourAddr : AppleTalkAddress)
    (names : List RegisteredName) :
    (lookupReply transactionId (names.map (NbpRegistry.replyTuple ourAddr))).wire.length =
      replyLength names := by
  have htuple (n : RegisteredName) : (NbpRegistry.replyTuple ourAddr n).wire.length =
      n.name.object.1.length + n.name.entityType.1.length + 9 := by
    simp only [NbpTuple.wire, NbpRegistry.replyTuple, EntityName.wire, EntityName.componentBytes,
      NbpRegistry.ZONE_WILDCARD, List.length_append, be16_length, List.length_cons,
      List.length_nil]
    omega
  rw [NbpPacket.wire, List.length_append, replyLength, List.length_flatMap]
  simp only [lookupReply, List.map_map]
  congr 2
  exact List.map_congr_left fun n _ => htuple n

/-- A datagram that answers a lookup with as many of the tuples as there is room for. -/
structure AnswersLookup (candidates : List NbpTuple) (transactionId : UInt8) (payload : Bytes) :
    Prop where
  length_le : payload.length ≤ 586
  reply : ∃ tuples, NbpPacket.fromBytes payload = .ok (lookupReply transactionId tuples) ∧
    tuples <+: candidates ∧
    ∀ more, more <+: candidates → more.length ≤ MAX_NBP_TUPLES →
      (lookupReply transactionId more).wire.length ≤ 586 → more.length ≤ tuples.length

theorem answersLookup_take (transactionId : UInt8) (ourAddr : AppleTalkAddress)
    {names : List RegisteredName} (hle : replyLength (names.take MAX_NBP_TUPLES) ≤ 586) :
    AnswersLookup (names.map (NbpRegistry.replyTuple ourAddr)) transactionId
      (lookupReply transactionId
        ((names.take MAX_NBP_TUPLES).map (NbpRegistry.replyTuple ourAddr))).wire := by
  rw [← wire_lookupReply_length transactionId ourAddr, List.map_take] at hle
  rw [List.map_take]
  generalize names.map (NbpRegistry.replyTuple ourAddr) = candidates at hle ⊢
  refine ⟨hle, candidates.take MAX_NBP_TUPLES, ?_, List.take_prefix _ _, ?_⟩
  · have hcount : (lookupReply transactionId (candidates.take MAX_NBP_TUPLES)).tuples.length ≤
        MAX_NBP_TUPLES := List.length_take_le _ _
    exact (NbpPacket.fromBytes_toBytes_iff hcount (NbpPacket.toBytes_of_le hle)).2
      ⟨3, by decide, rfl⟩
  · intro more hmore hcount _
    rw [List.length_take]
    exact Nat.le_min.2 ⟨hcount, hmore.length_le⟩

/-! ## The embedded responder -/

namespace NbpRegistry

/-- The names that a lookup matches, for one request tuple after the other. -/
def matching (r : NbpRegistry) (packet : NbpPacket) : List RegisteredName :=
  packet.tuples.flatMap fun req => r.names.filter fun n => n.name.isMatch req.entityName

theorem replyTuples_eq (r : NbpRegistry) (packet : NbpPacket) (ourAddr : AppleTalkAddress) :
    r.replyTuples packet ourAddr =
      ((r.matching packet).map (replyTuple ourAddr)).take MAX_NBP_TUPLES := by
  rw [replyTuples, matching, List.map_flatMap]

end NbpRegistry

/-- What the stack sends in answer to an NBP packet, where the datagram is taken. -/
def Stack.answer (s : Stack) (node : UInt8) (payload : Bytes) : Option Bytes :=
  match s.nbp.handlePacket payload ⟨s.network, node⟩ with
  | none => none
  | some reply =>
    match (s.sendDdp reply.dest reply.destSocket NbpRegistry.NBP_SOCKET .nbp reply.payload).1 with
    | .ok () => some reply.payload
    | .error _ => none

theorem Stack.sendDdp_fst {s : Stack} {node : UInt8} (hnode : s.node = some node)
    (dest : AppleTalkAddress) (destSocket srcSocket : UInt8) (proto : DdpProtocolType)
    (payload : Bytes) :
    (s.sendDdp dest destSocket srcSocket proto payload).1 =
      if payload.length > MAX_DDP_PAYLOAD then .error .tooLarge else .ok () := by
  have hour : s.ourAddress = some ⟨s.network, node⟩ := by
    rw [ourAddress, hnode]
    rfl
  unfold sendDdp
  rw [hour]
  simp only
  split_ifs
  all_goals rfl

section
variable {payload : Bytes} {packet : NbpPacket} (hparse : NbpPacket.fromBytes payload = .ok packet)
  (hop : packet.operation = .lookup)
include hparse hop

theorem NbpRegistry.handlePacket_eq (r : NbpRegistry) (ourAddr : AppleTalkAddress)
    (hmatch : r.matching packet ≠ []) :
    ∃ req : NbpTuple, r.handlePacket payload ourAddr =
      match (lookupReply packet.transactionId
        (((r.matching packet).take MAX_NBP_TUPLES).map (replyTuple ourAddr))).toBytes 600 with
      | .error _ => none
      | .ok buf => some ⟨⟨req.networkNumber, req.nodeId⟩, req.socketNumber, buf⟩ := by
  have hreqs : packet.tuples ≠ [] := by
    intro hnil
    exact hmatch (by rw [matching, hnil]; rfl)
  obtain ⟨req, reqs, hreq⟩ := List.exists_cons_of_ne_nil hreqs
  obtain ⟨name, names, hname⟩ := List.exists_cons_of_ne_nil hmatch
  refine ⟨req, ?_⟩
  have htuples := r.replyTuples_eq packet ourAddr
  rw [← List.map_take, hname] at htuples
  unfold handlePacket
  rw [hparse]
  simp only [hop, ne_eq, not_true_eq_false, if_false]
  rw [htuples, hreq, hname]
  rfl

theorem Stack.answer_eq {s : Stack} {node : UInt8} (hnode : s.node = some node)
    (hmatch : s.nbp.matching packet ≠ []) :
    s.answer node payload =
      if replyLength ((s.nbp.matching packet).take MAX_NBP_TUPLES) ≤ 586 then
        some (lookupReply packet.transactionId (((s.nbp.matching packet).take MAX_NBP_TUPLES).map
          (NbpRegistry.replyTuple ⟨s.network, node⟩))).wire
      else none := by
  obtain ⟨req, hhandle⟩ := s.nbp.handlePacket_eq hparse hop ⟨s.network, node⟩ hmatch
  rw [← wire_lookupReply_length packet.transactionId ⟨s.network, node⟩]
  generalize lookupReply packet.transactionId _ = reply at hhandle ⊢
  rw [answer, hhandle]
  by_cases hbuf : reply.wire.length ≤ 600
  · rw [NbpPacket.toBytes_of_le hbuf]
    simp only [sendDdp_fst hnode]
    by_cases hle : reply.wire.length ≤ 586
    · have hfits : ¬ reply.wire.length > MAX_DDP_PAYLOAD := Nat.not_lt.2 hle
      rw [if_neg hfits, if_pos hle]
    · have hlong : reply.wire.length > MAX_DDP_PAYLOAD := Nat.lt_of_not_le hle
      rw [if_pos hlong, if_neg hle]
  · obtain ⟨e, he⟩ := NbpPacket.toBytes_of_gt (Nat.lt_of_not_le hbuf)
    rw [he, if_neg fun hle => hbuf (hle.trans (by decide))]

theorem Stack.answer_iff {s : Stack} {node : UInt8} (hnode : s.node = some node)
    (hmatch : s.nbp.matching packet ≠ []) :
    (∃ reply, s.answer node payload = some reply ∧
      AnswersLookup ((s.nbp.matching packet).map (NbpRegistry.replyTuple ⟨s.network, node⟩))
        packet.transactionId reply) ↔
    replyLength ((s.nbp.matching packet).take MAX_NBP_TUPLES) ≤ 586 := by
  rw [s.answer_eq hparse hop hnode hmatch]
  by_cases hle : replyLength ((s.nbp.matching packet).take MAX_NBP_TUPLES) ≤ 586
  · rw [if_pos hle]
    exact iff_of_true ⟨_, rfl, answersLookup_take _ _ hle⟩ hle
  · rw [if_neg hle]
    exact iff_of_false (by rintro ⟨_, hnone, -⟩; cases hnone) hle

end

/-! ## The host's answers -/

namespace Nbp

variable (decode : NbpName → Option Zone)

theorem addrOn_ok (n : Nbp) (iface : Interface) : ∃ addr, n.addrOn iface = .ok addr := by
  obtain ⟨_, et, lt, hconfigured, _⟩ := n
  cases et with
  | none =>
    cases lt with
    | none => simp at hconfigured
    | some lt =>
      cases iface
      · exact ⟨lt, rfl⟩
      · exact ⟨lt, rfl⟩
  | some et =>
    cases lt with
    | none =>
      cases iface
      · exact ⟨et, rfl⟩
      · exact ⟨et, rfl⟩
    | some lt =>
      cases iface
      · exact ⟨et, rfl⟩
      · exact ⟨lt, rfl⟩

theorem pushMatches_eq (ourAddr : AppleTalkAddress) (matched : RegisteredName → Bool)
    {tuples : List NbpTuple} (names : List RegisteredName)
    (h : tuples.length ≤ MAX_NBP_TUPLES) :
    pushMatches ourAddr matched tuples names =
      (tuples ++ (names.filter matched).map (NbpRegistry.replyTuple ourAddr)).take
        MAX_NBP_TUPLES := by
  induction names generalizing tuples with
  | nil => simp [pushMatches, List.take_of_length_le h]
  | cons name names ih =>
    rw [pushMatches]
    by_cases hname : matched name = true
    · rw [if_pos hname, List.filter_cons_of_pos hname, List.map_cons]
      by_cases hroom : tuples.length < MAX_NBP_TUPLES
      · rw [if_pos hroom, ih (by simpa using Nat.succ_le_of_lt hroom), List.append_assoc]
        rfl
      · have hfull : tuples.length = MAX_NBP_TUPLES := Nat.le_antisymm h (Nat.not_lt.1 hroom)
        rw [if_neg hroom, ← hfull, List.take_left]
    · rw [if_neg hname, List.filter_cons_of_neg hname, ih h]

/-- The names that a lookup matches, for one request tuple after the other. -/
def matching (n : Nbp) (packet : NbpPacket) (source : AddressSource) : List RegisteredName :=
  packet.tuples.flatMap fun req => n.registeredNames.filter (n.isMatch decode source req.entityName)

theorem foldl_pushMatches (ourAddr : AppleTalkAddress) (matched : NbpTuple → RegisteredName → Bool)
    (names : List RegisteredName) {tuples : List NbpTuple} (reqs : List NbpTuple)
    (h : tuples.length ≤ MAX_NBP_TUPLES) :
    reqs.foldl (fun tuples req => pushMatches ourAddr (matched req) tuples names) tuples =
      (tuples ++ (reqs.flatMap fun req => names.filter (matched req)).map
        (NbpRegistry.replyTuple ourAddr)).take MAX_NBP_TUPLES := by
  induction reqs generalizing tuples with
  | nil => simp [List.take_of_length_le h]
  | cons req reqs ih =>
    rw [List.foldl_cons, pushMatches_eq ourAddr (matched req) names h,
      ih (List.length_take_le _ _), List.flatMap_cons, List.map_append, ← List.append_assoc]
    generalize tuples ++ (names.filter (matched req)).map (NbpRegistry.replyTuple ourAddr) = front
    rw [List.take_append, List.take_append, List.take_take, Nat.min_self, List.length_take]
    congr 2
    omega

theorem generateResponse_eq (n : Nbp) (packet : NbpPacket) (source : AddressSource)
    {ourAddr : AppleTalkAddress} (haddr : n.addrOn (.ofSource source) = .ok ourAddr) :
    n.generateResponse decode packet source = .ok (lookupReply packet.transactionId
      (((n.matching decode packet source).take MAX_NBP_TUPLES).map
        (NbpRegistry.replyTuple ourAddr))) := by
  have htuples := foldl_pushMatches ourAddr
    (fun req => n.isMatch decode source req.entityName) n.registeredNames packet.tuples
    (show ([] : List NbpTuple).length ≤ MAX_NBP_TUPLES from Nat.zero_le _)
  rw [List.nil_append, ← List.map_take] at htuples
  rw [matching, ← htuples, generateResponse, haddr]
  rfl

section
variable {payload : Bytes} {packet : NbpPacket} (hparse : NbpPacket.fromBytes payload = .ok packet)
  (hop : packet.operation = .lookup)
include hparse hop

/-- The host sends the first fifteen tuples, or nothing where they do not fit a datagram, and stops
    where they do not fit its buffer. -/
theorem handlePacket_eq (n : Nbp) (source : AddressSource) {ourAddr : AppleTalkAddress}
    (haddr : n.addrOn (.ofSource source) = .ok ourAddr)
    (hmatch : n.matching decode packet source ≠ []) :
    ∃ dest, n.handlePacket decode payload source =
      if replyLength ((n.matching decode packet source).take MAX_NBP_TUPLES) ≤ 586 then
        .ok (some (dest, (lookupReply packet.transactionId
          (((n.matching decode packet source).take MAX_NBP_TUPLES).map
            (NbpRegistry.replyTuple ourAddr))).wire))
      else if replyLength ((n.matching decode packet source).take MAX_NBP_TUPLES) ≤ 1024 then
        .ok none
      else .error .unwrap := by
  have hreqs : packet.tuples ≠ [] := by
    intro hnil
    exact hmatch (by rw [matching, hnil]; rfl)
  obtain ⟨req, reqs, hreq⟩ := List.exists_cons_of_ne_nil hreqs
  have hgen := n.generateResponse_eq decode packet source haddr
  rw [← wire_lookupReply_length packet.transactionId ourAddr]
  generalize hreply : lookupReply packet.transactionId _ = reply at hgen ⊢
  have htuples : reply.tuples ≠ [] := by
    rw [← hreply]
    simpa [lookupReply, MAX_NBP_TUPLES] using hmatch
  obtain ⟨first, rest, htuples⟩ := List.exists_cons_of_ne_nil htuples
  refine ⟨⟨⟨req.networkNumber, req.nodeId⟩, req.socketNumber⟩, ?_⟩
  unfold handlePacket
  rw [hparse]
  simp only [hop, ne_eq, not_true_eq_false, if_false, hgen]
  simp only [bind, Except.bind, pure, Except.pure]
  rw [htuples, hreq]
  simp only
  by_cases hbuf : reply.wire.length ≤ 1024
  · rw [NbpPacket.toBytes_of_le hbuf, if_pos hbuf]
    simp only [unwrap]
    by_cases hle : reply.wire.length ≤ 586
    · rw [if_neg (Nat.not_lt.2 hle), if_pos hle]
    · rw [if_pos (Nat.lt_of_not_le hle), if_neg hle]
  · obtain ⟨e, he⟩ := NbpPacket.toBytes_of_gt (Nat.lt_of_not_le hbuf)
    rw [he, if_neg fun hle => hbuf (hle.trans (by decide)), if_neg hbuf]
    rfl

/-- The host answers exactly if the first fifteen tuples fit a datagram. -/
theorem handlePacket_iff (n : Nbp) (source : AddressSource) {ourAddr : AppleTalkAddress}
    (haddr : n.addrOn (.ofSource source) = .ok ourAddr)
    (hmatch : n.matching decode packet source ≠ []) :
    (∃ dest reply, n.handlePacket decode payload source = .ok (some (dest, reply)) ∧
      AnswersLookup ((n.matching decode packet source).map (NbpRegistry.replyTuple ourAddr))
        packet.transactionId reply) ↔
    replyLength ((n.matching decode packet source).take MAX_NBP_TUPLES) ≤ 586 := by
  obtain ⟨dest, hhandle⟩ := n.handlePacket_eq decode hparse hop source haddr hmatch
  rw [hhandle]
  by_cases hle : replyLength ((n.matching decode packet source).take MAX_NBP_TUPLES) ≤ 586
  · rw [if_pos hle]
    exact iff_of_true ⟨dest, _, rfl, answersLookup_take _ _ hle⟩ hle
  · rw [if_neg hle]
    refine iff_of_false ?_ hle
    rintro ⟨_, _, hnone, -⟩
    split_ifs at hnone
    cases hnone

end

end Nbp

/-! ## Both -/

/-- A lookup that matches is answered by either responder exactly if the first fifteen tuples fit
    a datagram. -/
theorem lookup_answered_iff (calls : List NbpCall) {payload : Bytes} {packet : NbpPacket}
    (hparse : NbpPacket.fromBytes payload = .ok packet) (hop : packet.operation = .lookup) :
    let r := NbpRegistry.build calls
    r.names.Nodup ∧
    (∀ (s : Stack) (node : UInt8), s.nbp = r → s.node = some node → r.matching packet ≠ [] →
      ((∃ reply, s.answer node payload = some reply ∧
        AnswersLookup ((r.matching packet).map (NbpRegistry.replyTuple ⟨s.network, node⟩))
          packet.transactionId reply) ↔
      replyLength ((r.matching packet).take MAX_NBP_TUPLES) ≤ 586)) ∧
    ∀ (decode : NbpName → Option Zone) (n : Nbp) (source : AddressSource),
      n.registeredNames = r.names → n.matching decode packet source ≠ [] →
      ∃ ourAddr, n.addrOn (.ofSource source) = .ok ourAddr ∧
      ((∃ dest reply, n.handlePacket decode payload source = .ok (some (dest, reply)) ∧
        AnswersLookup ((n.matching decode packet source).map (NbpRegistry.replyTuple ourAddr))
          packet.transactionId reply) ↔
      replyLength ((n.matching decode packet source).take MAX_NBP_TUPLES) ≤ 586) := by
  refine ⟨NbpRegistry.nodup_build calls, ?_, ?_⟩
  · intro s node hnbp hnode hmatch
    rw [← hnbp] at hmatch ⊢
    exact s.answer_iff hparse hop hnode hmatch
  · intro decode n source _ hmatch
    obtain ⟨ourAddr, haddr⟩ := n.addrOn_ok (.ofSource source)
    exact ⟨ourAddr, haddr, n.handlePacket_iff decode hparse hop source haddr hmatch⟩

/-- A lookup of everything. -/
def lookupAll : NbpPacket where
  operation := .lookup
  transactionId := 7
  tuples := [{
    networkNumber := 1
    nodeId := 2
    socketNumber := 254
    enumerator := 0
    entityName := {
      object := ⟨[0x3D], NbpRegistry.equals_length⟩
      entityType := ⟨[0x3D], NbpRegistry.equals_length⟩
      zone := NbpRegistry.ZONE_WILDCARD } }]

theorem fromBytes_lookupAll : NbpPacket.fromBytes lookupAll.wire = .ok lookupAll :=
  (NbpPacket.fromBytes_toBytes_iff (by decide) (NbpPacket.toBytes_of_le le_rfl)).2
    ⟨2, by decide, rfl⟩

/-- A stack after some calls. -/
def Stack.named (calls : List NbpCall) : Stack :=
  { Stack.new ⟨.user, 0, true⟩ 0 with node := some 5, nbp := .build calls }

/-- A host on LocalTalk, at node 5, with these names. -/
def Nbp.named (calls : List NbpCall) : Nbp where
  registeredNames := (NbpRegistry.build calls).names
  etAddressing := none
  ltAddressing := some ⟨0, 5⟩
  configured := by decide
  routeTable := RouteTable.new .dynamic

/-- A name of 32 bytes, and a type of as many. -/
def longName (last : UInt8) : EntityName where
  object := ⟨List.replicate 31 0x41 ++ [last], by simp [MAX_NBP_NAME]⟩
  entityType := ⟨List.replicate 32 0x42, by simp [MAX_NBP_NAME]⟩
  zone := NbpRegistry.ZONE_WILDCARD

/-- Many names of 32-byte parts. -/
def longNames (count : ℕ) : List NbpCall :=
  (List.range count).map fun i => .register (longName (0x61 + UInt8.ofNat i)) 4

theorem lookup_answered_eight :
    ∃ reply, (Stack.named (longNames 8)).answer 5 lookupAll.wire = some reply ∧
      AnswersLookup (((NbpRegistry.build (longNames 8)).matching lookupAll).map
        (NbpRegistry.replyTuple ⟨0, 5⟩)) 7 reply :=
  ((lookup_answered_iff (longNames 8) fromBytes_lookupAll rfl).2.1 (Stack.named (longNames 8)) 5
    rfl rfl (by decide)).2 (by decide)

/-- The tuples of nine long names do not fit a datagram, those of fifteen not the buffer of the
    host either. -/
theorem long_names_unanswered :
    (NbpRegistry.build (longNames 9)).matching lookupAll ≠ [] ∧
      (Stack.named (longNames 9)).answer 5 lookupAll.wire = none ∧
      (Nbp.named (longNames 9)).handlePacket (fun _ => none) lookupAll.wire .localTalk =
        .ok none ∧
      (Nbp.named (longNames 15)).handlePacket (fun _ => none) lookupAll.wire .localTalk =
        .error .unwrap := by
  refine ⟨by decide, ?_, ?_, ?_⟩
  · rw [Stack.answer_eq fromBytes_lookupAll rfl rfl (by decide), if_neg (by decide)]
  · obtain ⟨dest, hanswer⟩ := (Nbp.named (longNames 9)).handlePacket_eq (fun _ => none)
      fromBytes_lookupAll rfl .localTalk rfl (by decide)
    rw [hanswer, if_neg (by decide), if_pos (by decide)]
  · obtain ⟨dest, hanswer⟩ := (Nbp.named (longNames 15)).handlePacket_eq (fun _ => none)
      fromBytes_lookupAll rfl .localTalk rfl (by decide)
    rw [hanswer, if_neg (by decide), if_neg (by decide)]

end TailTalk
