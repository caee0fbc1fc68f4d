/-
  The nodes that an EtherTalk interface knows.

  They come from AARP packets, responses and datagrams of EtherTalk, whatever
  the interface is told: `onEther_run`.  So what is looked up there is never
  sent over the LocalTalk cable.
-/
import TailTalk.Host.Bindings
import TailTalk.Routes.RouteTable

namespace TailTalk

open Lib

/-- The cable of a node. -/
def Addressing.Node.cable : Addressing.Node → Interface
  | .localTalk _ => .localTalk
  | .etherTalkPhase1 _ => .etherTalk
  | .etherTalkPhase2 _ => .etherTalk

/-- A node of EtherTalk. -/
abbrev NodeOfEther := { node : Addressing.Node // node.cable = .etherTalk }

theorem Addressing.nodeOf_cable (mac : EthernetMac) {source : AddressSource}
    (h : source ≠ .localTalk) : (Addressing.nodeOf mac source).cable = .etherTalk := by
  cases source with
  | etherTalkPhase2 => rfl
  | etherTalkPhase1 => rfl
  | localTalk => exact absurd rfl h

theorem LocalAddressing.tryLookup_cable {l : LocalAddressing} {phase : AddressSource}
    (hphase : phase ≠ .localTalk)
    (hbound : ∀ addr node, l.bound addr = some node → node.cable = .etherTalk)
    {addr : AppleTalkAddress} {node : Addressing.Node} (h : l.tryLookup phase addr = some node) :
    node.cable = .etherTalk := by
  unfold LocalAddressing.tryLookup at h
  split_ifs at h with hbroadcast hzero
  · cases h
    cases phase with
    | etherTalkPhase2 => rfl
    | etherTalkPhase1 => rfl
    | localTalk => exact absurd rfl hphase
  · exact absurd hzero.2 hphase
  · exact hbound addr node h

namespace EtherInterface

/-- All nodes that are known, and all that a lookup has returned, are on EtherTalk. -/
structure OnEther (i : EtherInterface) : Prop where
  bound : ∀ addr node, i.shared.bound addr = some node → node.cable = .etherTalk
  returned : ∀ r ∈ i.returned, ∀ node, r.2 = .ok node → node.cable = .etherTalk

variable {i : EtherInterface}

theorem step_writes (i : EtherInterface) (input : EtherInput) :
    ∃ w, Writes i (i.step input) w ∧
      ∀ addr node, w = some (addr, .valid node) → node.cable = .etherTalk := by
  have hnothing : ∀ addr node, (none : Option (AppleTalkAddress × CacheEntry)) =
      some (addr, .valid node) → node.cable = .etherTalk := fun _ _ h => by cases h
  have hnode : ∀ {a mac source}, source ≠ .localTalk → ∀ addr node,
      (some (a, .valid (Addressing.nodeOf mac source)) : Option (AppleTalkAddress × CacheEntry)) =
        some (addr, .valid node) → node.cable = .etherTalk := by
    rintro a mac source hsource addr node h
    cases h
    exact Addressing.nodeOf_cable mac hsource
  cases input with
  | aarp pkt source =>
    rcases receivedAarp_writes i pkt source with ⟨headers, -, -, hsource, hw⟩ | ⟨-, hw⟩
    · exact ⟨_, hw, hnode hsource⟩
    · exact ⟨_, hw, hnothing⟩
  | taken candidate =>
    rcases take_writes i candidate with ⟨pkt, source, ⟨-, -, -, -, -, hsource⟩, hw⟩ | ⟨-, hw⟩
    · exact ⟨_, hw, hnode hsource⟩
    · exact ⟨_, hw, hnothing⟩
  | ddp pkt =>
    rcases receivedDdp_writes i pkt with ⟨⟨hsource, -⟩, hw⟩ | ⟨-, hw⟩
    · exact ⟨_, hw, hnode hsource⟩
    · exact ⟨_, hw, hnothing⟩
  | lookup l now => exact ⟨_, lookup_writes i l now, hnothing⟩
  | asked => exact ⟨_, ask_writes i, hnothing⟩
  | timeOut l now =>
    rcases timeOut_writes i l now with ⟨-, hw⟩ | ⟨-, hw⟩
    · exact ⟨_, hw, fun _ _ h => by cases h⟩
    · exact ⟨_, hw, hnothing⟩
  | setAddr addr => exact ⟨_, .nothing rfl rfl, hnothing⟩

theorem Writes.onEther {i' : EtherInterface} {w : Option (AppleTalkAddress × CacheEntry)}
    (h : Writes i i' w) (hw : ∀ addr node, w = some (addr, .valid node) → node.cable = .etherTalk)
    (hi : ∀ addr node, i.shared.bound addr = some node → node.cable = .etherTalk)
    {addr : AppleTalkAddress} {node : Addressing.Node} (hbound : i'.shared.bound addr = some node) :
    node.cable = .etherTalk := by
  cases h with
  | nothing _ hcache =>
    rw [LocalAddressing.bound, hcache] at hbound
    exact hi addr node hbound
  | entry a e _ hcache =>
    rw [LocalAddressing.bound, hcache, Std.HashMap.getElem?_insert] at hbound
    split_ifs at hbound with ha
    · cases e with
      | negative expiresAt => cases hbound
      | valid n =>
        cases hbound
        exact hw a node rfl
    · exact hi addr node hbound

/-- Lookups that return between two states return nodes of EtherTalk. -/
def Returned (i i' : EtherInterface) : Prop :=
  ∃ rs, i'.returned = i.returned ++ rs ∧
    ∀ r ∈ rs, ∀ node, r.2 = .ok node → node.cable = .etherTalk

theorem returned_same {i' : EtherInterface} (h : i'.returned = i.returned) : Returned i i' := by
  refine ⟨[], ?_, fun _ hr => (List.not_mem_nil hr).elim⟩
  rw [h, List.append_nil]

theorem returned_one {i' : EtherInterface} {l : Lookup}
    {result : Except LookupError Addressing.Node} (h : i'.returned = i.returned ++ [(l, result)])
    (hresult : ∀ node, result = .ok node → node.cable = .etherTalk) : Returned i i' := by
  refine ⟨_, h, fun r hr => ?_⟩
  rw [List.mem_singleton.1 hr]
  exact hresult

/-- The task answers lookups with nodes of EtherTalk. -/
theorem handleAarp_returned (i : EtherInterface) (pkt : AarpPacket) (source : AddressSource) :
    Returned i (i.handleAarp pkt source) := by
  unfold handleAarp
  cases pkt.opcode with
  | request => exact returned_same rfl
  | probe => exact returned_same rfl
  | response =>
    dsimp only
    split_ifs with hnobody
    · exact returned_same rfl
    · refine ⟨_, rfl, ?_⟩
      intro r hr node hnode
      obtain ⟨l, -, rfl⟩ := List.mem_map.1 hr
      cases hnode
      exact Addressing.nodeOf_cable _ (not_or.1 hnobody).2

theorem lookup_returned (h : i.OnEther) (l : Lookup) (now : Micros) :
    Returned i (i.lookup l now) := by
  unfold lookup answer
  cases hnode : i.tryLookup l.addr with
  | some node =>
    refine returned_one rfl fun node' hnode' => ?_
    cases hnode'
    exact LocalAddressing.tryLookup_cable i.etherTalk h.bound hnode
  | none =>
    dsimp only
    split
    · rename_i result hresult
      refine returned_one rfl fun node' hnode' => ?_
      rw [hnode'] at hresult
      split at hresult
      · split_ifs at hresult
        cases hresult
      · cases hresult
    · exact returned_same rfl

theorem step_returned (h : i.OnEther) (input : EtherInput) : Returned i (i.step input) := by
  cases input with
  | aarp pkt source =>
    refine returned_same ?_
    simp only [step, receivedAarp]
    split
    · rfl
    split
    · rfl
    · rfl
    · rfl
  | taken candidate =>
    simp only [step, take]
    split
    · exact returned_same rfl
    · split_ifs with hdropped
      · exact returned_same rfl
      · exact handleAarp_returned _ _ _
  | ddp pkt =>
    refine returned_same ?_
    simp only [step, receivedDdp]
    split_ifs
    · rfl
    · rfl
  | lookup l now => exact lookup_returned h l now
  | asked =>
    refine returned_same ?_
    simp only [step, ask]
    split
    · rfl
    · rfl
  | timeOut l now =>
    simp only [step, timeOut]
    split_ifs
    · exact returned_one rfl fun _ hnode => by cases hnode
    · exact returned_same rfl
  | setAddr addr => exact returned_same rfl

theorem onEther_step (h : i.OnEther) (input : EtherInput) : (i.step input).OnEther where
  bound := by
    obtain ⟨w, hwrites, hw⟩ := step_writes i input
    exact fun addr node hbound => hwrites.onEther hw h.bound hbound
  returned := by
    obtain ⟨rs, heq, hrs⟩ := step_returned h input
    rw [heq]
    intro r hr
    rcases List.mem_append.1 hr with hr | hr
    · exact h.returned r hr
    · exact hrs r hr

/-- **An EtherTalk interface knows nodes of EtherTalk alone**, whatever it is told. -/
theorem onEther_run (phase : AddressSource) (etherTalk : phase ≠ .localTalk)
    (inputs : List EtherInput) : (run step (new phase etherTalk) inputs).OnEther := by
  have hnew : (new phase etherTalk).OnEther := by
    refine ⟨fun addr node hbound => ?_, fun _ hr => (List.not_mem_nil hr).elim⟩
    simp [new, LocalAddressing.bound] at hbound
  have hstep : ∀ (i : EtherInterface) (input : EtherInput), i.OnEther → True →
      (i.step input).OnEther := fun _ input h _ => onEther_step h input
  exact inv_run step hstep hnew (along_true step inputs)

theorem onEther_run_exchange :
    (run step (new .etherTalkPhase2 (by decide)) Watched.exchange).OnEther :=
  onEther_run .etherTalkPhase2 (by decide) _

end EtherInterface

end TailTalk
