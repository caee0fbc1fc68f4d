/-
  AARP bindings — which node packets to an address are sent to.

  The hand-off of an AARP packet writes them, the addressing task on a response
  that somebody waits for, and the DDP task for an address that has none; a
  lookup that nobody answers in time writes that there is none.
-/
import TailTalk.Host.Aarp
import TailTalk.Host.Receive

namespace TailTalk

open Lib

namespace LocalAddressing

/-- The node that the cache has for an address. -/
def bound (l : LocalAddressing) (addr : AppleTalkAddress) : Option Addressing.Node :=
  match l.cache[addr]? with
  | some (.valid node) => some node
  | _ => none

/-- Node 255 is the cable's broadcast; without a network, a node of LocalTalk is its own. -/
def tryLookup (phase : AddressSource) (l : LocalAddressing) (addr : AppleTalkAddress) :
    Option Addressing.Node :=
  if addr.nodeNumber = 255 then
    some (match phase with
      | .etherTalkPhase2 => .etherTalkPhase2 Addressing.APPLETALK_BROADCAST_MULTICAST
      | .etherTalkPhase1 => .etherTalkPhase1 Addressing.BROADCAST_MAC
      | .localTalk => .localTalk 255)
  else if addr.networkNumber = 0 ∧ phase = .localTalk then some (.localTalk addr.nodeNumber)
  else l.bound addr

/-- An entry of the cache. -/
def write (l : LocalAddressing) (addr : AppleTalkAddress) (entry : CacheEntry) : LocalAddressing :=
  { l with cache := l.cache.insert addr entry }

end LocalAddressing

/-- A call that asks for the node of an address. -/
structure Lookup where
  id : ℕ
  addr : AppleTalkAddress
deriving DecidableEq

/-- Why a lookup fails. -/
inductive LookupError where
  | negativeCacheHit
  | timedOut

/-- An EtherTalk interface and its lookups. -/
structure EtherInterface where
  phase : AddressSource
  etherTalk : phase ≠ .localTalk
  shared : LocalAddressing
  /-- none while the first one is probed for -/
  ourAddr : Option AppleTalkAddress
  /-- lookups on their way to the task, and those it has asked for -/
  requests : List Lookup
  pending : List Lookup
  /-- lookups that have not returned, and what the others have -/
  waiting : List Lookup
  returned : List (Lookup × Except LookupError Addressing.Node)
  /-- a malformed packet has stopped the receiver, which hands off nothing from then on -/
  deaf : Bool

/-- What happens to an interface. -/
inductive EtherInput where
  /-- an AARP packet is handed off -/
  | aarp (pkt : Bytes) (source : AddressSource)
  /-- the task takes the next one, perhaps while it probes a candidate -/
  | taken (candidate : Option AppleTalkAddress)
  | ddp (pkt : ReceivedDdp)
  | lookup (l : Lookup) (now : Micros)
  /-- the task takes the next lookup -/
  | asked
  | timeOut (l : Lookup) (now : Micros)
  /-- the address is settled, or set -/
  | setAddr (addr : AppleTalkAddress)

/-- The address that a datagram comes from. -/
def ReceivedDdp.sourceAddr (pkt : ReceivedDdp) : AppleTalkAddress :=
  ⟨pkt.headers.srcNetworkNum, pkt.headers.srcNodeId⟩

namespace EtherInterface

/-- How long nobody is asked again for an address that nobody answered for. -/
def NEGATIVE_TTL : Micros := 60000000

/-- What the cache says. -/
def tryLookup (i : EtherInterface) (addr : AppleTalkAddress) : Option Addressing.Node :=
  i.shared.tryLookup i.phase addr

/-- A packet that is malformed stops the receiver. -/
def receivedAarp (i : EtherInterface) (pkt : Bytes) (source : AddressSource) : EtherInterface :=
  if i.deaf then i
  else match (AddressingHandle.inProcess i.shared).receivedPkt pkt source with
    | .ok (_, .inProcess shared) => { i with shared := shared }
    | .ok (_, .remote) => i
    | .error _ => { i with deaf := true }

/-- What the task makes of a packet: a response is for everybody who waits for it. -/
def handleAarp (i : EtherInterface) (pkt : AarpPacket) (source : AddressSource) : EtherInterface :=
  match pkt.opcode with
  | .response =>
    let asked := i.pending.filter fun l => l.addr = pkt.senderProtocol
    let i := { i with pending := i.pending.filter fun l => l.addr ≠ pkt.senderProtocol }
    if asked = [] ∨ source = .localTalk then i
    else
      let node := Addressing.nodeOf pkt.senderAddr source
      { i with
        shared := i.shared.write pkt.senderProtocol (.valid node)
        waiting := i.waiting.filter fun l => l ∉ asked
        returned := i.returned ++ (asked.filter fun l => l ∈ i.waiting).map fun l => (l, .ok node) }
  | _ => i

/-- A packet that tells that a candidate is taken goes no further, and none does before there is an
    address. -/
def take (i : EtherInterface) (candidate : Option AppleTalkAddress) : EtherInterface :=
  match i.shared.packetSend.recv with
  | none => i
  | some ((pkt, source), packetSend) =>
    let i := { i with shared := { i.shared with packetSend := packetSend } }
    if i.ourAddr = none ∨ candidate.any (Addressing.takenInProbe pkt) then i
    else i.handleAarp pkt source

/-- The DDP task learns an address that has no node. -/
def receivedDdp (i : EtherInterface) (pkt : ReceivedDdp) : EtherInterface :=
  if pkt.source = .localTalk ∨ i.tryLookup pkt.sourceAddr ≠ none then i
  else
    let node := Addressing.nodeOf pkt.sourceMac pkt.source
    { i with shared := i.shared.write pkt.sourceAddr (.valid node) }

/-- What a lookup returns at once. -/
def answer (i : EtherInterface) (addr : AppleTalkAddress) (now : Micros) :
    Option (Except LookupError Addressing.Node) :=
  match i.tryLookup addr with
  | some node => some (.ok node)
  | none =>
    match i.shared.cache[addr]? with
    | some (.negative expiresAt) =>
      if now < expiresAt then some (.error .negativeCacheHit) else none
    | _ => none

/-- A lookup is answered from the cache, or asked. -/
def lookup (i : EtherInterface) (l : Lookup) (now : Micros) : EtherInterface :=
  match i.answer l.addr now with
  | some result => { i with returned := i.returned ++ [(l, result)] }
  | none => { i with requests := i.requests ++ [l], waiting := i.waiting ++ [l] }

/-- The next lookup goes out. -/
def ask (i : EtherInterface) : EtherInterface :=
  match i.ourAddr, i.requests with
  | some _, l :: requests => { i with requests := requests, pending := i.pending ++ [l] }
  | _, _ => i

/-- The task is not told. -/
def timeOut (i : EtherInterface) (l : Lookup) (now : Micros) : EtherInterface :=
  if l ∈ i.waiting then
    { i with
      shared := i.shared.write l.addr (.negative (now + NEGATIVE_TTL))
      waiting := i.waiting.erase l
      returned := i.returned ++ [(l, .error .timedOut)] }
  else i

/-- One input of the interface. -/
def step (i : EtherInterface) : EtherInput → EtherInterface
  | .aarp pkt source => i.receivedAarp pkt source
  | .taken candidate => i.take candidate
  | .ddp pkt => i.receivedDdp pkt
  | .lookup l now => i.lookup l now
  | .asked => i.ask
  | .timeOut l now => i.timeOut l now
  | .setAddr addr => { i with ourAddr := some addr }

/-- An interface that has heard nothing. -/
def new (phase : AddressSource) (etherTalk : phase ≠ .localTalk) : EtherInterface where
  phase
  etherTalk
  shared := ⟨.empty, .empty, .empty, ∅⟩
  ourAddr := none
  requests := []
  pending := []
  waiting := []
  returned := []
  deaf := false

end EtherInterface

/-! ## Who claims an address -/

/-- The node that a packet claims its source for; that of a probe is tentative, LocalTalk has no
    bindings, and a receiver that has stopped hears nothing. -/
def EtherInput.claim (deaf : Bool) : EtherInput → Option (AppleTalkAddress × Addressing.Node)
  | .aarp pkt source =>
    match AarpPacket.parse pkt with
    | .ok headers =>
      if deaf = false ∧ headers.opcode ≠ .probe ∧ source ≠ .localTalk then
        some (headers.senderProtocol, Addressing.nodeOf headers.senderAddr source)
      else none
    | .error _ => none
  | .ddp pkt =>
    if pkt.source ≠ .localTalk then
      some (pkt.sourceAddr, Addressing.nodeOf pkt.sourceMac pkt.source)
    else none
  | _ => none

/-- An interface, and the node that claimed each address last. -/
structure Watched where
  interface : EtherInterface
  owner : AppleTalkAddress → Option Addressing.Node

namespace Watched

/-- The same, with the claim in it. -/
def step (w : Watched) (input : EtherInput) : Watched where
  interface := w.interface.step input
  owner := match input.claim w.interface.deaf with
    | some (addr, node) => Function.update w.owner addr (some node)
    | none => w.owner

/-- Nothing is claimed. -/
def new (phase : AddressSource) (etherTalk : phase ≠ .localTalk) : Watched :=
  ⟨.new phase etherTalk, fun _ => none⟩

/-- A lookup gives the node that claimed the address last; nobody holds the broadcast. -/
def Known (w : Watched) : Prop := ∀ addr node, addr.nodeNumber ≠ 255 →
  w.owner addr = some node → ∀ now, w.interface.answer addr now = some (.ok node)

/-- **What a step should do**: what claims nothing changes no binding, and a claim is what lookups
    give from then on. -/
structure Respects (w : Watched) (input : EtherInput) : Prop where
  kept : input.claim w.interface.deaf = none → ∀ addr node, w.interface.tryLookup addr = some node →
    (w.step input).interface.tryLookup addr = some node
  known : (w.step input).Known

end Watched

namespace EtherInterface

/-- If an address has a node, it is this one. -/
def Free (i : EtherInterface) (addr : AppleTalkAddress) (node : Addressing.Node) : Prop :=
  addr.nodeNumber ≠ 255 → ∀ other, i.tryLookup addr = some other → other = node

/-- The next packet for the task, if it gets to it and somebody waits for it. -/
def Answers (i : EtherInterface) (candidate : Option AppleTalkAddress) (pkt : AarpPacket)
    (source : AddressSource) : Prop :=
  (∃ packetSend, i.shared.packetSend.recv = some ((pkt, source), packetSend)) ∧
    i.ourAddr ≠ none ∧ candidate.any (Addressing.takenInProbe pkt) = false ∧
    pkt.opcode = .response ∧ (∃ l ∈ i.pending, l.addr = pkt.senderProtocol) ∧ source ≠ .localTalk

/-- **The condition of a step.** A probe, a response that somebody waits for, and a datagram are
    from the node that their address is bound to, if it is; a lookup times out for an address that
    is not bound. -/
def Sound (i : EtherInterface) : EtherInput → Prop
  | .aarp pkt source => i.deaf = false → ∀ headers, AarpPacket.parse pkt = .ok headers →
      source ≠ .localTalk → headers.opcode = .probe →
      i.Free headers.senderProtocol (Addressing.nodeOf headers.senderAddr source)
  | .taken candidate => ∀ pkt source, i.Answers candidate pkt source →
      i.Free pkt.senderProtocol (Addressing.nodeOf pkt.senderAddr source)
  | .ddp pkt => pkt.source ≠ .localTalk →
      i.Free pkt.sourceAddr (Addressing.nodeOf pkt.sourceMac pkt.source)
  | .timeOut l _ => l ∈ i.waiting → l.addr.nodeNumber ≠ 255 → i.tryLookup l.addr = none
  | _ => True

/-! ## What a step writes -/

variable {i : EtherInterface} {addr : AppleTalkAddress} {node : Addressing.Node}

/-- A step leaves all addresses as they are, or writes the entry of one. -/
inductive Writes (i i' : EtherInterface) : Option (AppleTalkAddress × CacheEntry) → Prop
  | nothing (hphase : i'.phase = i.phase) (hcache : i'.shared.cache = i.shared.cache) :
      Writes i i' none
  | entry (addr : AppleTalkAddress) (e : CacheEntry) (hphase : i'.phase = i.phase)
      (hcache : i'.shared.cache = i.shared.cache.insert addr e) : Writes i i' (some (addr, e))

theorem tryLookup_eq (i : EtherInterface) (h : addr.nodeNumber ≠ 255) :
    i.tryLookup addr = i.shared.bound addr := by
  unfold tryLookup LocalAddressing.tryLookup
  rw [if_neg h, if_neg fun hand => i.etherTalk hand.2]

theorem Writes.unchanged {i' : EtherInterface} (h : Writes i i' none) (addr : AppleTalkAddress) :
    i'.tryLookup addr = i.tryLookup addr := by
  cases h with
  | nothing hphase hcache =>
    unfold tryLookup LocalAddressing.tryLookup LocalAddressing.bound
    rw [hphase, hcache]

/-- What an entry makes of a lookup. -/
def entryNode : CacheEntry → Option Addressing.Node
  | .valid node => some node
  | .negative _ => none

theorem Writes.changed {i' : EtherInterface} {e : CacheEntry} (h : Writes i i' (some (addr, e)))
    (other : AppleTalkAddress) : i'.tryLookup other =
      if other = addr ∧ addr.nodeNumber ≠ 255 then entryNode e else i.tryLookup other := by
  cases h with
  | entry _ _ hphase hcache =>
    by_cases hbroadcast : other.nodeNumber = 255
    · have hno : ¬ (other = addr ∧ addr.nodeNumber ≠ 255) := by
        rintro ⟨rfl, hne⟩
        exact hne hbroadcast
      rw [if_neg hno]
      unfold tryLookup LocalAddressing.tryLookup
      rw [if_pos hbroadcast, if_pos hbroadcast, hphase]
    · rw [tryLookup_eq i' hbroadcast, tryLookup_eq i hbroadcast, LocalAddressing.bound, hcache,
        Std.HashMap.getElem?_insert]
      by_cases heq : other = addr
      · have hyes : other = addr ∧ addr.nodeNumber ≠ 255 := ⟨heq, heq ▸ hbroadcast⟩
        rw [if_pos hyes, if_pos (beq_iff_eq.2 heq.symm)]
        cases e <;> rfl
      · have hno : ¬ (other = addr ∧ addr.nodeNumber ≠ 255) := fun h => heq h.1
        rw [if_neg hno, if_neg fun h => heq (beq_iff_eq.1 h).symm]
        rfl

theorem receivedAarp_writes (i : EtherInterface) (pkt : Bytes) (source : AddressSource) :
    (∃ headers, i.deaf = false ∧ AarpPacket.parse pkt = .ok headers ∧ source ≠ .localTalk ∧
      Writes i (i.receivedAarp pkt source)
        (some (headers.senderProtocol, .valid (Addressing.nodeOf headers.senderAddr source)))) ∨
    ((i.deaf = false → ∀ headers, AarpPacket.parse pkt = .ok headers → source = .localTalk) ∧
      Writes i (i.receivedAarp pkt source) none) := by
  have hlearn : ∀ headers node, ∃ r shared, i.shared.learn headers source node =
      (r, .inProcess shared) ∧
        shared.cache = i.shared.cache.insert headers.senderProtocol (.valid node) := by
    intro headers node
    unfold LocalAddressing.learn
    dsimp only
    split
    · exact ⟨_, _, rfl, rfl⟩
    · exact ⟨_, _, rfl, rfl⟩
  unfold receivedAarp AddressingHandle.receivedPkt
  cases hdeaf : i.deaf with
  | true => exact Or.inr ⟨(fun h => by cases h), .nothing rfl rfl⟩
  | false =>
  rw [if_neg Bool.false_ne_true]
  cases hparse : AarpPacket.parse pkt with
  | error e => exact Or.inr ⟨(fun _ _ h => by cases h), .nothing rfl rfl⟩
  | ok headers =>
    cases source with
    | localTalk => exact Or.inr ⟨fun _ _ _ => rfl, .nothing rfl rfl⟩
    | etherTalkPhase2 =>
      obtain ⟨r, shared, heq, hcache⟩ := hlearn headers (.etherTalkPhase2 headers.senderAddr)
      refine Or.inl ⟨headers, rfl, rfl, by decide, ?_⟩
      simp only [unwrap, pure, Except.pure, bind, Except.bind, heq]
      exact .entry _ _ rfl hcache
    | etherTalkPhase1 =>
      obtain ⟨r, shared, heq, hcache⟩ := hlearn headers (.etherTalkPhase1 headers.senderAddr)
      refine Or.inl ⟨headers, rfl, rfl, by decide, ?_⟩
      simp only [unwrap, pure, Except.pure, bind, Except.bind, heq]
      exact .entry _ _ rfl hcache

theorem receivedAarp_toBytes {p : AarpPacket} (hdeaf : i.deaf = false) (h : p.hardwareSize = 6)
    {source : AddressSource} (hsource : source ≠ .localTalk) :
    Writes i (i.receivedAarp p.toBytes source)
      (some (p.senderProtocol, .valid (Addressing.nodeOf p.senderAddr source))) := by
  rcases receivedAarp_writes i p.toBytes source with ⟨headers, -, hparse, -, hwrites⟩ | ⟨hno, -⟩
  · rw [AarpPacket.parse_toBytes h] at hparse
    rwa [← Except.ok.inj hparse] at hwrites
  · exact absurd (hno hdeaf p (AarpPacket.parse_toBytes h)) hsource

theorem handleAarp_writes (i : EtherInterface) (pkt : AarpPacket) (source : AddressSource) :
    ((pkt.opcode = .response ∧ (∃ l ∈ i.pending, l.addr = pkt.senderProtocol) ∧
        source ≠ .localTalk) ∧ Writes i (i.handleAarp pkt source)
      (some (pkt.senderProtocol, .valid (Addressing.nodeOf pkt.senderAddr source)))) ∨
    (¬ (pkt.opcode = .response ∧ (∃ l ∈ i.pending, l.addr = pkt.senderProtocol) ∧
        source ≠ .localTalk) ∧ Writes i (i.handleAarp pkt source) none) := by
  have hasked : (i.pending.filter fun l => l.addr = pkt.senderProtocol) = [] ↔
      ¬ ∃ l ∈ i.pending, l.addr = pkt.senderProtocol := by
    rw [List.filter_eq_nil_iff]
    simp
  unfold handleAarp
  cases hopcode : pkt.opcode with
  | request => exact Or.inr ⟨(fun h => nomatch h.1), .nothing rfl rfl⟩
  | probe => exact Or.inr ⟨(fun h => nomatch h.1), .nothing rfl rfl⟩
  | response =>
    dsimp only
    split_ifs with hnobody
    · refine Or.inr ⟨fun h => ?_, .nothing rfl rfl⟩
      rcases hnobody with hnobody | hlocal
      · exact hasked.1 hnobody h.2.1
      · exact h.2.2 hlocal
    · obtain ⟨hsomebody, hsource⟩ := not_or.1 hnobody
      exact Or.inl ⟨⟨rfl, not_not.1 fun h => hsomebody (hasked.2 h), hsource⟩, .entry _ _ rfl rfl⟩

theorem take_writes (i : EtherInterface) (candidate : Option AppleTalkAddress) :
    (∃ pkt source, i.Answers candidate pkt source ∧ Writes i (i.take candidate)
      (some (pkt.senderProtocol, .valid (Addressing.nodeOf pkt.senderAddr source)))) ∨
    ((∀ pkt source, ¬ i.Answers candidate pkt source) ∧ Writes i (i.take candidate) none) := by
  unfold take Answers
  cases hrecv : i.shared.packetSend.recv with
  | none => exact Or.inr ⟨(fun _ _ ⟨⟨_, h⟩, _⟩ => nomatch h), .nothing rfl rfl⟩
  | some next =>
    obtain ⟨⟨pkt, source⟩, packetSend⟩ := next
    have hnext : ∀ {pkt' source'}, (∃ packetSend', some ((pkt, source), packetSend) =
        some ((pkt', source'), packetSend')) → pkt' = pkt ∧ source' = source := by
      rintro pkt' source' ⟨packetSend', h⟩
      cases h
      exact ⟨rfl, rfl⟩
    dsimp only
    split_ifs with hdropped
    · refine Or.inr ⟨?_, .nothing rfl rfl⟩
      rintro pkt' source' ⟨hpkt, haddr, hcandidate, -⟩
      obtain ⟨rfl, rfl⟩ := hnext hpkt
      rcases hdropped with hnone | htaken
      · exact haddr hnone
      · rw [hcandidate] at htaken
        cases htaken
    · obtain ⟨haddr, hcandidate⟩ := not_or.1 hdropped
      rcases handleAarp_writes
        { i with shared := { i.shared with packetSend := packetSend } } pkt source with
        ⟨⟨hopcode, hpending, hsource⟩, hwrites⟩ | ⟨hno, hwrites⟩
      · refine Or.inl ⟨pkt, source, ⟨⟨packetSend, rfl⟩, haddr,
          Bool.eq_false_iff.2 hcandidate, hopcode, hpending, hsource⟩, ?_⟩
        cases hwrites with
        | entry _ _ hphase hcache => exact .entry _ _ hphase hcache
      · refine Or.inr ⟨?_, ?_⟩
        · rintro pkt' source' ⟨hpkt, -, -, hrest⟩
          obtain ⟨rfl, rfl⟩ := hnext hpkt
          exact hno hrest
        · cases hwrites with
          | nothing hphase hcache => exact .nothing hphase hcache

theorem receivedDdp_writes (i : EtherInterface) (pkt : ReceivedDdp) :
    ((pkt.source ≠ .localTalk ∧ i.tryLookup pkt.sourceAddr = none) ∧
      Writes i (i.receivedDdp pkt)
        (some (pkt.sourceAddr, .valid (Addressing.nodeOf pkt.sourceMac pkt.source)))) ∨
    ((pkt.source = .localTalk ∨ i.tryLookup pkt.sourceAddr ≠ none) ∧
      Writes i (i.receivedDdp pkt) none) := by
  unfold receivedDdp
  split_ifs with hskip
  · exact Or.inr ⟨hskip, .nothing rfl rfl⟩
  · obtain ⟨hsource, hnone⟩ := not_or.1 hskip
    exact Or.inl ⟨⟨hsource, not_not.1 hnone⟩, .entry _ _ rfl rfl⟩

theorem timeOut_writes (i : EtherInterface) (l : Lookup) (now : Micros) :
    (l ∈ i.waiting ∧ Writes i (i.timeOut l now)
      (some (l.addr, .negative (now + NEGATIVE_TTL)))) ∨
    (l ∉ i.waiting ∧ Writes i (i.timeOut l now) none) := by
  unfold timeOut
  split_ifs with hwaits
  · exact Or.inl ⟨hwaits, .entry _ _ rfl rfl⟩
  · exact Or.inr ⟨hwaits, .nothing rfl rfl⟩

theorem lookup_writes (i : EtherInterface) (l : Lookup) (now : Micros) :
    Writes i (i.lookup l now) none := by
  unfold lookup
  split
  · exact .nothing rfl rfl
  · exact .nothing rfl rfl

theorem ask_writes (i : EtherInterface) : Writes i i.ask none := by
  unfold ask
  split
  · exact .nothing rfl rfl
  · exact .nothing rfl rfl

/-! ## What bindings come to -/

/-- **A write keeps the bindings** exactly if its address is not bound to another node. -/
theorem Writes.kept_iff {i' : EtherInterface} {e : CacheEntry} (h : Writes i i' (some (addr, e))) :
    (∀ other m, i.tryLookup other = some m → i'.tryLookup other = some m) ↔
      (addr.nodeNumber ≠ 255 → ∀ m, i.tryLookup addr = some m → entryNode e = some m) := by
  constructor
  · intro hkept hne m hm
    have hafter := hkept addr m hm
    rwa [h.changed, if_pos ⟨rfl, hne⟩] at hafter
  · intro hentry other m hm
    rw [h.changed]
    split_ifs with hwritten
    · obtain ⟨rfl, hne⟩ := hwritten
      exact hentry hne m hm
    · exact hm

theorem answer_iff (i : EtherInterface) (addr : AppleTalkAddress) (node : Addressing.Node) :
    (∀ now, i.answer addr now = some (.ok node)) ↔ i.tryLookup addr = some node := by
  unfold answer
  cases i.tryLookup addr with
  | some other =>
    constructor
    · intro h
      have hone := h 0
      exact congrArg some (Except.ok.inj (Option.some.inj hone))
    · intro h _
      rw [Option.some.inj h]
  | none =>
    refine iff_of_false (fun h => ?_) (fun h => nomatch h)
    have hone := h 0
    dsimp only at hone
    split at hone
    · split_ifs at hone
      cases hone
    · cases hone

end EtherInterface

namespace Watched

open EtherInterface

variable {w : Watched}

theorem known_iff (w : Watched) : w.Known ↔ ∀ addr node, addr.nodeNumber ≠ 255 →
    w.owner addr = some node → w.interface.tryLookup addr = some node := by
  constructor
  · exact fun h addr node hne howner => (answer_iff _ _ _).1 (h addr node hne howner)
  · exact fun h addr node hne howner => (answer_iff _ _ _).2 (h addr node hne howner)

theorem respects_of_quiet (h : w.Known) {input : EtherInput}
    (hclaim : input.claim w.interface.deaf = none) :
    w.Respects input ↔ ∀ addr node, w.interface.tryLookup addr = some node →
      (w.interface.step input).tryLookup addr = some node := by
  constructor
  · exact fun hrespects => hrespects.kept hclaim
  · intro hkept
    refine ⟨fun _ => hkept, (known_iff _).2 fun addr node hne howner => hkept addr node ?_⟩
    simp only [step, hclaim] at howner
    exact (known_iff w).1 h addr node hne howner

theorem respects_of_idle (h : w.Known) {input : EtherInput}
    (hclaim : input.claim w.interface.deaf = none)
    (hwrites : Writes w.interface (w.interface.step input) none) : w.Respects input :=
  (respects_of_quiet h hclaim).2 fun addr _ hbound => (hwrites.unchanged addr).trans hbound

theorem respects_of_write (h : w.Known) {input : EtherInput}
    (hclaim : input.claim w.interface.deaf = none)
    {addr : AppleTalkAddress} {node : Addressing.Node}
    (hwrites : Writes w.interface (w.interface.step input) (some (addr, .valid node))) :
    w.Respects input ↔ w.interface.Free addr node := by
  rw [respects_of_quiet h hclaim, hwrites.kept_iff]
  constructor
  · exact fun hkept hne m hm => (Option.some.inj (hkept hne m hm)).symm
  · exact fun hfree hne m hm => congrArg some (hfree hne m hm).symm

/-- **A claim is heard** where it is written. -/
theorem respects_of_claim (h : w.Known) {input : EtherInput} {addr : AppleTalkAddress}
    {node : Addressing.Node} (hclaim : input.claim w.interface.deaf = some (addr, node))
    (hwrites : Writes w.interface (w.interface.step input) (some (addr, .valid node))) :
    w.Respects input := by
  refine ⟨fun hnone => absurd (hclaim.symm.trans hnone) (by simp), (known_iff _).2 ?_⟩
  intro other m hne howner
  simp only [step, hclaim] at howner ⊢
  rw [hwrites.changed]
  by_cases heq : other = addr
  · rw [heq, Function.update_self] at howner
    rw [if_pos ⟨heq, heq ▸ hne⟩]
    exact howner
  · rw [Function.update_of_ne heq] at howner
    rw [if_neg fun hand => heq hand.1]
    exact (known_iff w).1 h other m hne howner

theorem respects_of_unwritten (h : w.Known) {input : EtherInput} {addr : AppleTalkAddress}
    {node : Addressing.Node} (hclaim : input.claim w.interface.deaf = some (addr, node))
    (hbound : w.interface.tryLookup addr ≠ none)
    (hwrites : Writes w.interface (w.interface.step input) none) :
    w.Respects input ↔ w.interface.Free addr node := by
  obtain ⟨m, hm⟩ := Option.ne_none_iff_exists'.1 hbound
  constructor
  · intro hrespects hne other hother
    have howner : (w.step input).owner addr = some node := by
      simp only [step, hclaim, Function.update_self]
    have hafter := (known_iff _).1 hrespects.known addr node hne howner
    simp only [step] at hafter
    rw [hwrites.unchanged, hother] at hafter
    exact Option.some.inj hafter
  · intro hfree
    refine ⟨fun hnone => absurd (hclaim.symm.trans hnone) (by simp), (known_iff _).2 ?_⟩
    intro other m' hne howner
    simp only [step, hclaim] at howner ⊢
    rw [hwrites.unchanged]
    by_cases heq : other = addr
    · subst heq
      rw [Function.update_self] at howner
      rw [hm, hfree hne m hm]
      exact howner
    · rw [Function.update_of_ne heq] at howner
      exact (known_iff w).1 h other m' hne howner

theorem respects_aarp (h : w.Known) (pkt : Bytes) (source : AddressSource) :
    w.Respects (.aarp pkt source) ↔ w.interface.Sound (.aarp pkt source) := by
  rcases receivedAarp_writes w.interface pkt source with
    ⟨headers, hdeaf, hparse, hsource, hwrites⟩ | ⟨hunread, hwrites⟩
  · by_cases hprobe : headers.opcode = .probe
    · have hclaim : (EtherInput.aarp pkt source).claim w.interface.deaf = none := by
        simp [EtherInput.claim, hparse, hprobe]
      rw [respects_of_write h hclaim hwrites]
      constructor
      · intro hfree _ headers' hparse' _ _
        rwa [← Except.ok.inj (hparse.symm.trans hparse')]
      · exact fun hsound => hsound hdeaf headers hparse hsource hprobe
    · have hclaim : (EtherInput.aarp pkt source).claim w.interface.deaf =
          some (headers.senderProtocol, Addressing.nodeOf headers.senderAddr source) := by
        simp [EtherInput.claim, hdeaf, hparse, hprobe, hsource]
      refine iff_of_true (respects_of_claim h hclaim hwrites) ?_
      intro _ headers' hparse' _ hprobe'
      rw [← Except.ok.inj (hparse.symm.trans hparse')] at hprobe'
      exact absurd hprobe' hprobe
  · have hclaim : (EtherInput.aarp pkt source).claim w.interface.deaf = none := by
      simp only [EtherInput.claim]
      split
      · rename_i headers hparse
        exact if_neg fun hand => hand.2.2 (hunread hand.1 headers hparse)
      · rfl
    refine iff_of_true (respects_of_idle h hclaim hwrites) ?_
    exact fun hdeaf headers hparse hsource _ => absurd (hunread hdeaf headers hparse) hsource

theorem respects_taken (h : w.Known) (candidate : Option AppleTalkAddress) :
    w.Respects (.taken candidate) ↔ w.interface.Sound (.taken candidate) := by
  rcases take_writes w.interface candidate with ⟨pkt, source, hanswers, hwrites⟩ | ⟨hno, hwrites⟩
  · have hiff : w.Respects (.taken candidate) ↔ w.interface.Free pkt.senderProtocol
        (Addressing.nodeOf pkt.senderAddr source) := respects_of_write h rfl hwrites
    rw [hiff]
    constructor
    · intro hfree pkt' source' hanswers'
      obtain ⟨packetSend, hrecv⟩ := hanswers.1
      obtain ⟨packetSend', hrecv'⟩ := hanswers'.1
      cases hrecv.symm.trans hrecv'
      exact hfree
    · exact fun hsound => hsound pkt source hanswers
  · exact iff_of_true (respects_of_idle h rfl hwrites) fun pkt source hanswers =>
      absurd hanswers (hno pkt source)

theorem respects_ddp (h : w.Known) (pkt : ReceivedDdp) :
    w.Respects (.ddp pkt) ↔ w.interface.Sound (.ddp pkt) := by
  rcases receivedDdp_writes w.interface pkt with ⟨⟨hsource, hnone⟩, hwrites⟩ | ⟨hskip, hwrites⟩
  · have hclaim : (EtherInput.ddp pkt).claim w.interface.deaf =
        some (pkt.sourceAddr, Addressing.nodeOf pkt.sourceMac pkt.source) := if_pos hsource
    refine iff_of_true (respects_of_claim h hclaim hwrites) fun _ _ other hother => ?_
    rw [hnone] at hother
    cases hother
  · by_cases hsource : pkt.source = .localTalk
    · have hclaim : (EtherInput.ddp pkt).claim w.interface.deaf = none :=
        if_neg (not_not_intro hsource)
      exact iff_of_true (respects_of_idle h hclaim hwrites) fun hne => absurd hsource hne
    · have hclaim : (EtherInput.ddp pkt).claim w.interface.deaf =
          some (pkt.sourceAddr, Addressing.nodeOf pkt.sourceMac pkt.source) := if_pos hsource
      rw [respects_of_unwritten h hclaim (hskip.resolve_left hsource) hwrites]
      exact ⟨fun hfree _ => hfree, fun hsound => hsound hsource⟩

/-- The end of a request forgets what it was for. -/
theorem respects_timeOut (h : w.Known) (l : Lookup) (now : Micros) :
    w.Respects (.timeOut l now) ↔ w.interface.Sound (.timeOut l now) := by
  rcases timeOut_writes w.interface l now with ⟨hwaits, hwrites⟩ | ⟨hno, hwrites⟩
  · refine (respects_of_quiet h rfl).trans ((Writes.kept_iff hwrites).trans ?_)
    constructor
    · intro hkept _ hne
      refine Option.eq_none_iff_forall_ne_some.2 fun m hm => ?_
      cases hkept hne m hm
    · intro hsound hne m hm
      rw [hsound hwaits hne] at hm
      cases hm
  · exact iff_of_true (respects_of_idle h rfl hwrites) fun hwaits => absurd hwaits hno

/-- **One step** respects the bindings exactly if it is sound. -/
theorem respects_iff (h : w.Known) (input : EtherInput) :
    w.Respects input ↔ w.interface.Sound input := by
  cases input with
  | aarp pkt source => exact respects_aarp h pkt source
  | taken candidate => exact respects_taken h candidate
  | ddp pkt => exact respects_ddp h pkt
  | timeOut l now => exact respects_timeOut h l now
  | lookup l now => exact iff_of_true (respects_of_idle h rfl (lookup_writes _ l now)) trivial
  | asked => exact iff_of_true (respects_of_idle h rfl (ask_writes _)) trivial
  | setAddr addr => exact iff_of_true (respects_of_idle h rfl (.nothing rfl rfl)) trivial

/-- **Bindings are neither stolen nor forgotten in a run exactly if every step of it is sound.** -/
theorem bindings_kept_iff (phase : AddressSource) (etherTalk : phase ≠ .localTalk)
    (inputs : List EtherInput) :
    Along step Respects (new phase etherTalk) inputs ↔
      Along step (fun w input => w.interface.Sound input) (new phase etherTalk) inputs := by
  have hstart : (new phase etherTalk).Known := fun _ _ _ howner => nomatch howner
  generalize new phase etherTalk = w at hstart
  induction inputs generalizing w with
  | nil => exact Iff.rfl
  | cons input inputs ih =>
    rw [Along, Along, respects_iff hstart]
    refine and_congr_right fun hsound => ?_
    exact ih _ ((respects_iff hstart input).2 hsound).known

/-- Node 3.7, at the Ethernet address that ends in `mac`. -/
def nodeOfThree (opcode : AarpOpcode) (mac : UInt8) : AarpPacket :=
  Addressing.aarpHeader #v[0, 0, 0, 0, 0, mac] ⟨3, 9⟩ #v[0, 0, 0, 0, 0, 0] ⟨3, 7⟩ opcode

theorem free_of_owner (h : w.Known) {addr : AppleTalkAddress} {node : Addressing.Node}
    (howner : w.owner addr = some node) : w.interface.Free addr node := by
  intro hne other hother
  rw [(known_iff w).1 h addr node hne howner] at hother
  exact (Option.some.inj hother).symm

/-- Along a sound run, lookups keep giving the owners. -/
theorem along_sound (h : w.Known) {input : EtherInput} {inputs : List EtherInput}
    (hsound : w.interface.Sound input)
    (hrest : (w.step input).Known →
      Along step (fun w input => w.interface.Sound input) (w.step input) inputs) :
    Along step (fun w input => w.interface.Sound input) w (input :: inputs) :=
  ⟨hsound, hrest ((respects_iff h input).2 hsound).known⟩

/-- Of two lookups one times out, while 3.7 asks, probes and sends a datagram, and 3.8 responds. -/
def exchange : List EtherInput :=
  [.lookup ⟨0, ⟨3, 8⟩⟩ 1, .lookup ⟨1, ⟨3, 10⟩⟩ 1, .setAddr ⟨3, 9⟩, .asked, .asked,
    .timeOut ⟨1, ⟨3, 10⟩⟩ 2, .aarp (nodeOfThree .request 1).toBytes .etherTalkPhase2,
    .aarp (nodeOfThree .probe 1).toBytes .etherTalkPhase2,
    .aarp { nodeOfThree .response 2 with senderProtocol := ⟨3, 8⟩ }.toBytes .etherTalkPhase2,
    .taken none, .taken none, .taken none,
    .ddp ⟨⟨0, 13, 0, 3, 3, 9, 4, 4, 7, .nbp⟩, [], .etherTalkPhase2, #v[0, 0, 0, 0, 0, 1]⟩]

theorem bindings_kept_iff_exchange :
    Along step Respects (new .etherTalkPhase2 (by decide)) exchange := by
  refine (bindings_kept_iff .etherTalkPhase2 (by decide) _).2 ⟨trivial, trivial, ?_⟩
  have hasked : ((new .etherTalkPhase2 (by decide)).step (.lookup ⟨0, ⟨3, 8⟩⟩ 1)).step
      (.lookup ⟨1, ⟨3, 10⟩⟩ 1) = ⟨{ EtherInterface.new .etherTalkPhase2 (by decide) with
        requests := [⟨0, ⟨3, 8⟩⟩, ⟨1, ⟨3, 10⟩⟩]
        waiting := [⟨0, ⟨3, 8⟩⟩, ⟨1, ⟨3, 10⟩⟩] }, fun _ => none⟩ := by
    simp [step, EtherInterface.step, lookup, answer, tryLookup_eq, LocalAddressing.bound, new,
      EtherInterface.new, EtherInput.claim]
  rw [hasked]
  refine along_sound (fun _ _ _ h => by cases h) trivial fun k => along_sound k trivial fun k =>
    along_sound k trivial fun k => along_sound k (fun _ _ => ?_) fun k => along_sound k ?_ fun k =>
    along_sound k ?_ fun k => along_sound k ?_ fun k => along_sound k ?_ fun k => along_sound k ?_
    fun k => along_sound k ?_ fun k => along_sound k (fun _ => ?_) fun _ => trivial
  · rw [tryLookup_eq _ (by decide)]
    simp [step, EtherInterface.step, ask, LocalAddressing.bound, EtherInterface.new]
  · intro _ headers hparse _ hprobe
    rw [AarpPacket.parse_toBytes rfl] at hparse
    cases hparse
    cases hprobe
  · intro _ headers hparse _ _
    rw [AarpPacket.parse_toBytes rfl] at hparse
    cases hparse
    exact free_of_owner k rfl
  · intro _ headers hparse _ hprobe
    rw [AarpPacket.parse_toBytes rfl] at hparse
    cases hparse
    cases hprobe
  · rintro pkt source ⟨⟨_, hrecv⟩, -, -, hresponse, -⟩
    cases hrecv
    cases hresponse
  · rintro pkt source ⟨⟨_, hrecv⟩, -, -, hresponse, -⟩
    cases hrecv
    cases hresponse
  · rintro pkt source ⟨⟨_, hrecv⟩, -⟩
    cases hrecv
    exact free_of_owner k rfl
  · exact free_of_owner k rfl

/-- A node asks for another one from 3.7, and a second one only probes for 3.7. -/
theorem probe_steals : ¬ Along step Respects (new .etherTalkPhase2 (by decide))
    [.aarp (nodeOfThree .request 1).toBytes .etherTalkPhase2,
      .aarp (nodeOfThree .probe 2).toBytes .etherTalkPhase2] := by
  rintro ⟨-, hrespects, -⟩
  have hclaim : ∀ deaf,
      (EtherInput.aarp (nodeOfThree .probe 2).toBytes .etherTalkPhase2).claim deaf = none := by
    intro deaf
    simp only [EtherInput.claim, AarpPacket.parse_toBytes (p := nodeOfThree .probe 2) rfl]
    exact if_neg fun h => h.2.1 rfl
  have hbound : ∀ (i : EtherInterface) opcode mac, i.deaf = false →
      (i.receivedAarp (nodeOfThree opcode mac).toBytes .etherTalkPhase2).tryLookup ⟨3, 7⟩ =
        some (.etherTalkPhase2 #v[0, 0, 0, 0, 0, mac]) := by
    intro i opcode mac hdeaf
    have hwrites := @receivedAarp_toBytes i (nodeOfThree opcode mac) hdeaf rfl
      .etherTalkPhase2 (by decide)
    have hnode : (⟨3, 7⟩ : AppleTalkAddress).nodeNumber ≠ 255 := by decide
    rw [hwrites.changed, if_pos ⟨rfl, hnode⟩]
    rfl
  have hkept := hrespects.kept (hclaim _) ⟨3, 7⟩ _ (hbound _ .request 1 rfl)
  have hstolen := hkept.symm.trans (hbound _ .probe 2 rfl)
  revert hstolen
  decide

end Watched

end TailTalk
