/-
  Address acquisition on an Ethernet.

  A probe window ends only once all frames sent in it have been heard.  While
  two nodes try one address, or one tries what the other holds, one of them has
  a frame that tells so still to hear, so no window ends in a conflict.  The
  probe loop does not look at responses, and a malformed frame leaves a node
  deaf.
-/
import TailTalk.Host.Aarp
import Mathlib.Data.Fintype.Basic

namespace TailTalk

open Lib

namespace Addressing

theorem mem_outbox_receivedFrame {a : Addressing} {g : AarpFrame} (f : AarpFrame) (now : Micros)
    (h : g ∈ a.outbox) : g ∈ (a.receivedFrame f now).outbox := by
  unfold receivedFrame
  split
  · exact h
  rcases AarpPacket.parse f.payload with e | pkt
  · exact h
  · dsimp only
    split
    · exact h
    · unfold receive
      split
      · split
        · exact List.mem_append_left _ h
        · exact h
      · unfold handleAarpPacket
        split
        · split
          · exact List.mem_append_left _ h
          · exact h
        · exact h
        · split
          · exact List.mem_append_left _ h
          · exact h

theorem lookups_state (addr : AppleTalkAddress) (requests : List AppleTalkAddress) (a : Addressing) :
    (requests.foldl (·.lookup addr) a).state = a.state ∧
      (requests.foldl (·.lookup addr) a).heard = a.heard ∧
      (requests.foldl (·.lookup addr) a).deaf = a.deaf ∧
      ∀ f ∈ a.outbox, f ∈ (requests.foldl (·.lookup addr) a).outbox := by
  refine List.foldlRecOn (motive := fun b : Addressing => b.state = a.state ∧ b.heard = a.heard ∧
    b.deaf = a.deaf ∧ ∀ f ∈ a.outbox, f ∈ b.outbox) requests _ ⟨rfl, rfl, rfl, fun _ h => h⟩ ?_
  rintro b ⟨hstate, hheard, hdeaf, hout⟩ request -
  exact ⟨hstate, hheard, hdeaf, fun f hf => List.mem_append_left _ (hout f hf)⟩

theorem mem_outbox_poll {a : Addressing} {g : AarpFrame} (now : Micros) (h : g ∈ a.outbox) :
    g ∈ (a.poll now).outbox := by
  unfold poll
  split
  · split
    · exact (lookups_state _ _ _).2.2.2 g h
    · exact h
  · exact h

theorem mem_outbox_request {a : Addressing} {g : AarpFrame} (addr : AppleTalkAddress)
    (h : g ∈ a.outbox) : g ∈ (a.request addr).outbox := by
  unfold request
  split
  · exact h
  · exact List.mem_append_left _ h

end Addressing

/-! ## Nodes on a cable -/

namespace EtherNode

theorem outbox_call {x : EtherNode} {c : EtherCall} {f : AarpFrame} (h : f ∈ x.outbox) :
    f ∈ (x.call c).outbox := by
  cases x with
  | host a =>
    cases c with
    | lookup addr => exact Addressing.mem_outbox_request addr h
    | send g => exact h
  | foreign outbox =>
    cases c with
    | lookup addr => exact h
    | send g => exact List.mem_append_left _ h

theorem outbox_poll {x : EtherNode} {now : Micros} {f : AarpFrame} (h : f ∈ x.outbox) :
    f ∈ (x.poll now).outbox := by
  cases x with
  | host a => exact Addressing.mem_outbox_poll now h
  | foreign outbox => exact h

theorem outbox_recv {x : EtherNode} {g : AarpFrame} {now : Micros} {f : AarpFrame}
    (h : f ∈ x.outbox) : f ∈ (x.recv g now).outbox := by
  cases x with
  | host a => exact Addressing.mem_outbox_receivedFrame g now h
  | foreign outbox => exact h

theorem withOutbox_outbox (x : EtherNode) (outbox : List AarpFrame) :
    (x.withOutbox outbox).outbox = outbox := by
  cases x with
  | host a => rfl
  | foreign _ => rfl

theorem outbox_transmit (x : EtherNode) :
    x.outbox = x.transmit.1.toList ++ x.transmit.2.outbox := by
  unfold transmit
  rcases hout : x.outbox with _ | ⟨f, rest⟩
  · simp only [hout, Option.toList_none, List.nil_append]
  · simp only [withOutbox_outbox, Option.toList_some, List.singleton_append]

end EtherNode

/-- A node as a station; frames cross the cable as bytes. -/
def etherStation : Station EtherNode AarpFrame EtherConfig EtherCall where
  new := EtherNode.new
  call := EtherNode.call
  poll := EtherNode.poll
  recv := EtherNode.recv
  due := EtherNode.due
  outbox := EtherNode.outbox
  transmit := EtherNode.transmit
  outbox_call := EtherNode.outbox_call
  outbox_poll := EtherNode.outbox_poll
  outbox_recv := EtherNode.outbox_recv
  outbox_transmit := EtherNode.outbox_transmit

variable {ι : Type} [DecidableEq ι]

/-- The nodes on one cable. -/
abbrev EtherCable (ι : Type) := Cable EtherNode AarpFrame ι

/-- What happens there. -/
abbrev EtherAct (ι : Type) := Cable.Act EtherConfig EtherCall ι

/-- A run from a cable with no node. -/
def etherRun (as : List (EtherAct ι)) : EtherCable ι := run (Cable.step etherStation) .empty as

/-- A probe window ends only once the frames of the node have been heard, and it has heard those of
    the others. -/
def Delivered (s : EtherCable ι) : EtherAct ι → Prop
  | .poll i => ∀ x ∈ s.station i, x.due s.now = true → Cable.Settled etherStation s i ∧
      (∀ k, k ≠ i → ∀ y ∈ s.station k, y.outbox = []) ∧ ∀ fl ∈ s.flights, fl.waiting i = false
  | _ => True

instance [Fintype ι] (s : EtherCable ι) (a : EtherAct ι) : Decidable (Delivered s a) := by
  unfold Delivered Cable.Settled
  cases a <;> infer_instance

/-! ## Frames that tell of an address -/

/-- What the task makes of a frame. -/
def Reads (f : AarpFrame) (pkt : AarpPacket) : Prop :=
  AarpPacket.parse f.payload = .ok pkt ∧ f.source ≠ .localTalk

/-- A frame that probes for an address. -/
def Probes (addr : AppleTalkAddress) (f : AarpFrame) : Prop :=
  ∃ pkt, Reads f pkt ∧ pkt.opcode = .probe ∧ pkt.targetProtocol = addr

/-- A frame that answers for it. -/
def Defends (addr : AppleTalkAddress) (f : AarpFrame) : Prop :=
  ∃ pkt, Reads f pkt ∧ pkt.opcode = .response ∧ pkt.senderProtocol = addr

/-- No response from an address is heard by a node that probes for it. -/
def NoDefence (s : EtherCable ι) (a : EtherAct ι) : Prop :=
  ∀ i k f addr, Cable.Hears s a k i f → (s.station i).bind EtherNode.probingFor = some addr →
    ¬ Defends addr f

/-- Every frame that a node of this program hears parses. -/
def Legible (s : EtherCable ι) (a : EtherAct ι) : Prop :=
  ∀ i k f a', Cable.Hears s a k i f → s.station i = some (.host a') →
    (AarpPacket.parse f.payload).isOk = true

theorem reads_createPacket (a : Addressing) (target : AppleTalkAddress) (targetMac : EthernetMac)
    (ourAddr : AppleTalkAddress) (opcode : AarpOpcode) {sourceType : AddressSource}
    (h : sourceType ≠ .localTalk) : Reads (a.createPacket target targetMac ourAddr opcode sourceType)
      (Addressing.aarpHeader a.ourMac target targetMac ourAddr opcode) := by
  refine ⟨AarpPacket.parse_toBytes rfl, ?_⟩
  cases sourceType with
  | etherTalkPhase2 => exact h
  | etherTalkPhase1 => exact h
  | localTalk => exact absurd rfl h

namespace Addressing

variable {a : Addressing} {addr : AppleTalkAddress} {now : Micros}

/-- The address that a turn of the loop draws. -/
def next (a : Addressing) : AppleTalkAddress := provisional a.phase (a.draws a.drawn)

/-- A turn of the loop sends a probe for the address it draws. -/
theorem probe_outbox (a : Addressing) (now : Micros) : ∃ f ∈ (a.probe now).outbox, Probes a.next f :=
  ⟨_, List.mem_append_right _ List.mem_cons_self, _, reads_createPacket a _ _ _ _ a.etherTalk, rfl,
    rfl⟩

theorem handleAarpPacket_state (a : Addressing) (pkt : AarpPacket) (source : AddressSource)
    (ourAddr : AppleTalkAddress) : (a.handleAarpPacket pkt source ourAddr).state = a.state ∧
      (a.handleAarpPacket pkt source ourAddr).heard = a.heard ∧
      (a.handleAarpPacket pkt source ourAddr).deaf = a.deaf := by
  unfold handleAarpPacket
  split
  · split
    · exact ⟨rfl, rfl, rfl⟩
    · exact ⟨rfl, rfl, rfl⟩
  · exact ⟨rfl, rfl, rfl⟩
  · split
    · exact ⟨rfl, rfl, rfl⟩
    · exact ⟨rfl, rfl, rfl⟩

/-- **What a frame does** to the address: another turn of the loop if it is a conflict. -/
inductive Received (a : Addressing) (f : AarpFrame) (now : Micros) : Addressing → Prop
  | unread (deaf : Bool) (h : a.deaf = true ∨ ∀ pkt, ¬ Reads f pkt)
      (hdeaf : deaf = a.deaf ∨ (AarpPacket.parse f.payload).isOk = false) :
      Received a f now { a with deaf }
  | conflict (pkt : AarpPacket) (hread : Reads f pkt) (addr : AppleTalkAddress) (deadline : Micros)
      (hstate : a.state = .probing addr deadline) (htaken : takenInLoop pkt addr = true) :
      Received a f now (a.probe now)
  | kept (pkt : AarpPacket) (hread : Reads f pkt) (addr : AppleTalkAddress) (deadline : Micros)
      (hstate : a.state = .probing addr deadline) (htaken : takenInLoop pkt addr = false) :
      Received a f now { a with heard := a.heard ++ [pkt] }
  | handled (pkt : AarpPacket) (hread : Reads f pkt) (ourAddr : AppleTalkAddress)
      (hstate : a.state = .settled ourAddr) :
      Received a f now (a.handleAarpPacket pkt f.source ourAddr)

theorem receivedFrame_cases (a : Addressing) (f : AarpFrame) (now : Micros) :
    Received a f now (a.receivedFrame f now) := by
  unfold receivedFrame
  split
  · rename_i hdeaf
    exact .unread a.deaf (.inl hdeaf) (.inl rfl)
  rcases hparse : AarpPacket.parse f.payload with e | pkt
  · refine .unread true (.inr fun pkt h => ?_) (.inr (by rw [hparse]; rfl))
    have heq := hparse.symm.trans h.1
    cases heq
  · dsimp only
    split
    · rename_i hsource
      exact .unread a.deaf (.inr fun pkt h => h.2 hsource) (.inl rfl)
    · rename_i hsource
      unfold receive
      split
      · rename_i addr deadline hstate
        split
        · rename_i htaken
          exact .conflict pkt ⟨hparse, hsource⟩ addr deadline hstate htaken
        · rename_i htaken
          exact .kept pkt ⟨hparse, hsource⟩ addr deadline hstate (Bool.eq_false_iff.2 htaken)
      · rename_i ourAddr hstate
        exact .handled pkt ⟨hparse, hsource⟩ ourAddr hstate

end Addressing

namespace EtherNode

variable {x x' : EtherNode} {addr : AppleTalkAddress} {f : AarpFrame} {now : Micros}

theorem probingFor_eq_some : x.probingFor = some addr ↔
    ∃ a deadline, x = .host a ∧ a.state = .probing addr deadline := by
  constructor
  · intro h
    cases x with
    | host a =>
      simp only [probingFor] at h
      split at h
      · rename_i addr' deadline hstate
        obtain rfl := Option.some.inj h
        exact ⟨a, deadline, rfl, hstate⟩
      · cases h
    | foreign outbox => cases h
  · rintro ⟨a, deadline, rfl, hstate⟩
    simp only [probingFor, hstate]

theorem settledOn_eq_some : x.settledOn = some addr ↔
    ∃ a, x = .host a ∧ a.state = .settled addr := by
  constructor
  · intro h
    cases x with
    | host a =>
      simp only [settledOn] at h
      split at h
      · cases h
      · rename_i addr' hstate
        obtain rfl := Option.some.inj h
        exact ⟨a, rfl, hstate⟩
    | foreign outbox => cases h
  · rintro ⟨a, rfl, hstate⟩
    simp only [settledOn, hstate]

theorem new_probes {cfg : EtherConfig} (h : (new cfg now).probingFor = some addr) :
    ∃ f ∈ (new cfg now).outbox, Probes addr f := by
  cases cfg with
  | host ourMac phase etherTalk draws =>
    obtain rfl := Option.some.inj h
    exact Addressing.probe_outbox _ now
  | foreign => cases h

theorem new_settledOn (cfg : EtherConfig) (now : Micros) : (new cfg now).settledOn = none := by
  cases cfg with
  | host => rfl
  | foreign => rfl

theorem call_address (x : EtherNode) (c : EtherCall) : (x.call c).probingFor = x.probingFor ∧
    (x.call c).settledOn = x.settledOn ∧ (x.call c).heard = x.heard ∧ (x.call c).deaf = x.deaf := by
  cases x with
  | host a =>
    cases c with
    | lookup addr =>
      simp only [call, Addressing.request]
      split
      · exact ⟨rfl, rfl, rfl, rfl⟩
      · exact ⟨rfl, rfl, rfl, rfl⟩
    | send g => exact ⟨rfl, rfl, rfl, rfl⟩
  | foreign outbox =>
    cases c with
    | lookup addr => exact ⟨rfl, rfl, rfl, rfl⟩
    | send g => exact ⟨rfl, rfl, rfl, rfl⟩

theorem transmit_address (x : EtherNode) : x.transmit.2.probingFor = x.probingFor ∧
    x.transmit.2.settledOn = x.settledOn ∧ x.transmit.2.heard = x.heard ∧
    x.transmit.2.deaf = x.deaf := by
  unfold transmit
  split
  · exact ⟨rfl, rfl, rfl, rfl⟩
  · cases x with
    | host a => exact ⟨rfl, rfl, rfl, rfl⟩
    | foreign outbox => exact ⟨rfl, rfl, rfl, rfl⟩

theorem poll_cases (x : EtherNode) (now : Micros) : (x.poll now).heard = x.heard ∧
    (x.poll now).deaf = x.deaf ∧
      (((x.poll now).probingFor = x.probingFor ∧ (x.poll now).settledOn = x.settledOn) ∨
      x.due now = true ∧ (x.poll now).probingFor = none ∧ (x.poll now).settledOn = x.probingFor) := by
  cases x with
  | foreign outbox => exact ⟨rfl, rfl, Or.inl ⟨rfl, rfl⟩⟩
  | host a =>
    rcases hstate : a.state with ⟨addr, deadline⟩ | ourAddr
    · by_cases hdue : deadline ≤ now
      · have hpoll : a.poll now = a.requests.foldl (·.lookup addr)
            { a with state := .settled addr, requests := [] } := by
          rw [Addressing.poll, hstate]
          exact if_pos hdue
        obtain ⟨hsettled, hheard, hdeaf, -⟩ := Addressing.lookups_state addr a.requests
          { a with state := .settled addr, requests := [] }
        rw [← hpoll] at hsettled hheard hdeaf
        refine ⟨hheard, hdeaf, Or.inr ⟨?_, ?_, ?_⟩⟩
        · simp only [due, Addressing.due, hstate, hdue, decide_true]
        · simp only [poll, probingFor, hsettled]
        · simp only [poll, settledOn, probingFor, hsettled, hstate]
      · have hpoll : a.poll now = a := by
          rw [Addressing.poll, hstate]
          exact if_neg hdue
        simp only [poll, hpoll]
        exact ⟨trivial, trivial, Or.inl ⟨trivial, trivial⟩⟩
    · have hpoll : a.poll now = a := by
        rw [Addressing.poll, hstate]
      simp only [poll, hpoll]
      exact ⟨trivial, trivial, Or.inl ⟨trivial, trivial⟩⟩

/-- A frame that is received leaves the address alone, or is a conflict and has another drawn. -/
theorem recv_cases (x : EtherNode) (f : AarpFrame) (now : Micros) :
    ((x.recv f now).probingFor = x.probingFor ∧ (x.recv f now).settledOn = x.settledOn ∧
      ∀ addr, x.probingFor = some addr → Probes addr f → x.deaf = true) ∨
    ((x.recv f now).settledOn = none ∧ ∀ addr, (x.recv f now).probingFor = some addr →
      ∃ g ∈ (x.recv f now).outbox, Probes addr g) := by
  cases x with
  | foreign outbox => exact Or.inl ⟨rfl, rfl, fun _ h => by cases h⟩
  | host a =>
    simp only [recv]
    have hcases := a.receivedFrame_cases f now
    generalize a.receivedFrame f now = a' at hcases ⊢
    cases hcases with
    | unread deaf hnot =>
      exact Or.inl ⟨rfl, rfl, fun _ _ ⟨pkt, hread, _⟩ => hnot.resolve_right fun h => h pkt hread⟩
    | conflict =>
      refine Or.inr ⟨rfl, fun addr h => ?_⟩
      obtain rfl := Option.some.inj h
      exact a.probe_outbox now
    | kept pkt hread addr deadline hstate htaken =>
      refine Or.inl ⟨rfl, rfl, fun addr' h ⟨pkt', hread', hprobe, htarget⟩ => ?_⟩
      obtain rfl : pkt = pkt' := Except.ok.inj (hread.1.symm.trans hread'.1)
      simp only [probingFor, hstate] at h
      obtain rfl := Option.some.inj h
      rw [Addressing.takenInLoop, decide_eq_false_iff_not] at htaken
      exact absurd ⟨hprobe, htarget⟩ htaken
    | handled pkt hread ourAddr hstate =>
      obtain ⟨hstate', -⟩ := a.handleAarpPacket_state pkt f.source ourAddr
      refine Or.inl ⟨?_, ?_, fun addr h => ?_⟩
      · simp only [probingFor, hstate']
      · simp only [settledOn, hstate']
      · simp only [probingFor, hstate] at h
        cases h

/-- Only a malformed frame makes a node deaf. -/
theorem recv_deaf (x : EtherNode) (f : AarpFrame) (now : Micros) :
    (x.recv f now).deaf = x.deaf ∨
      (∃ a, x = .host a) ∧ (AarpPacket.parse f.payload).isOk = false := by
  cases x with
  | foreign outbox => exact Or.inl rfl
  | host a =>
    simp only [recv]
    have hcases := a.receivedFrame_cases f now
    generalize a.receivedFrame f now = a' at hcases ⊢
    cases hcases with
    | unread deaf _ hdeaf => exact hdeaf.imp_right fun h => ⟨⟨a, rfl⟩, h⟩
    | conflict => exact Or.inl rfl
    | kept => exact Or.inl rfl
    | handled pkt _ ourAddr _ => exact Or.inl (a.handleAarpPacket_state pkt f.source ourAddr).2.2

/-- A probe for the address that a node holds is answered, if the node can hear. -/
theorem recv_defends (h : x.settledOn = some addr) (hhears : x.deaf = false) (hf : Probes addr f)
    (now : Micros) : ∃ g ∈ (x.recv f now).outbox, Defends addr g := by
  obtain ⟨a, rfl, hstate⟩ := settledOn_eq_some.1 h
  obtain ⟨pkt, hread, hprobe, htarget⟩ := hf
  have hrecv : a.receivedFrame f now = a.sendResponse pkt addr f.source := by
    rw [Addressing.receivedFrame, if_neg (by rw [show a.deaf = false from hhears]; decide), hread.1]
    dsimp only
    rw [if_neg hread.2, Addressing.receive, hstate]
    dsimp only
    rw [Addressing.handleAarpPacket, hprobe]
    exact if_pos htarget
  simp only [recv, hrecv]
  exact ⟨_, List.mem_append_right _ List.mem_cons_self, _, reads_createPacket a _ _ _ _ hread.2, rfl,
    rfl⟩

end EtherNode

/-! ## One step of the cable -/

section

variable {s : EtherCable ι} {a : EtherAct ι} {i j k : ι} {addr : AppleTalkAddress} {f : AarpFrame}

/-- A node is probing for an address. -/
def Tries (s : EtherCable ι) (i : ι) (addr : AppleTalkAddress) : Prop :=
  ∃ x, s.station i = some x ∧ x.probingFor = some addr

/-- A node has settled on it. -/
def Holds (s : EtherCable ι) (i : ι) (addr : AppleTalkAddress) : Prop :=
  ∃ x, s.station i = some x ∧ x.settledOn = some addr

/-- A node that has something to say about an address. -/
def Says (s : EtherCable ι) (i : ι) (about : AarpFrame → Prop) : Prop :=
  ∃ x, s.station i = some x ∧ ∃ f ∈ x.outbox, about f

theorem tries_step (h : Tries (Cable.step etherStation s a) i addr) :
    Tries s i addr ∨ Says (Cable.step etherStation s a) i (Probes addr) := by
  obtain ⟨x', hx', htries⟩ := h
  have hmoved := Cable.step_moved (P := etherStation) s a i
  rw [hx'] at hmoved
  rw [Says, hx']
  generalize ho : s.station i = o at hmoved
  generalize ho' : some x' = o' at hmoved
  cases hmoved with
  | same => exact Or.inl ⟨x', ho.trans ho'.symm, htries⟩
  | start =>
    obtain rfl := Option.some.inj ho'
    exact Or.inr ⟨_, rfl, EtherNode.new_probes htries⟩
  | call x c =>
    obtain rfl := Option.some.inj ho'
    exact Or.inl ⟨x, ho, (x.call_address c).1.symm.trans htries⟩
  | @poll x hpoll hx =>
    obtain rfl := Option.some.inj ho'
    rcases (x.poll_cases s.now).2.2 with ⟨hsame, -⟩ | ⟨-, hnone, -⟩
    · exact Or.inl ⟨x, ho, hsame.symm.trans htries⟩
    · exact nomatch hnone.symm.trans htries
  | transmit x =>
    obtain rfl := Option.some.inj ho'
    exact Or.inl ⟨x, ho, x.transmit_address.1.symm.trans htries⟩
  | @recv x k f hears =>
    obtain rfl := Option.some.inj ho'
    rcases x.recv_cases f s.now with ⟨hsame, -, -⟩ | ⟨-, hprobe⟩
    · exact Or.inl ⟨x, ho, hsame.symm.trans htries⟩
    · exact Or.inr ⟨_, rfl, hprobe addr htries⟩

theorem holds_step (h : Holds (Cable.step etherStation s a) i addr) :
    Holds s i addr ∨ Tries s i addr ∧ a = .poll i ∧ ∃ x, s.station i = some x ∧ x.due s.now = true := by
  obtain ⟨x', hx', hholds⟩ := h
  have hmoved := Cable.step_moved (P := etherStation) s a i
  rw [hx'] at hmoved
  generalize ho : s.station i = o at hmoved
  generalize ho' : some x' = o' at hmoved
  cases hmoved with
  | same => exact Or.inl ⟨x', ho.trans ho'.symm, hholds⟩
  | start =>
    obtain rfl := Option.some.inj ho'
    exact nomatch (EtherNode.new_settledOn _ s.now).symm.trans hholds
  | call x c =>
    obtain rfl := Option.some.inj ho'
    exact Or.inl ⟨x, ho, (x.call_address c).2.1.symm.trans hholds⟩
  | @poll x hpoll hx =>
    obtain rfl := Option.some.inj ho'
    rcases (x.poll_cases s.now).2.2 with ⟨-, hsame⟩ | ⟨hdue, -, hsettled⟩
    · exact Or.inl ⟨x, ho, hsame.symm.trans hholds⟩
    · exact Or.inr ⟨⟨x, ho, hsettled.symm.trans hholds⟩, hpoll, x, rfl, hdue⟩
  | transmit x =>
    obtain rfl := Option.some.inj ho'
    exact Or.inl ⟨x, ho, x.transmit_address.2.1.symm.trans hholds⟩
  | @recv x k f hears =>
    obtain rfl := Option.some.inj ho'
    rcases x.recv_cases f s.now with ⟨-, hsame, -⟩ | ⟨hnone, -⟩
    · exact Or.inl ⟨x, ho, hsame.symm.trans hholds⟩
    · exact nomatch hnone.symm.trans hholds

/-- All nodes can hear. -/
def Hearing (s : EtherCable ι) : Prop := ∀ i, ∀ x ∈ s.station i, x.deaf = false

theorem hearing_step (h : Hearing s) (hlegible : Legible s a) :
    Hearing (Cable.step etherStation s a) := by
  intro i x' hx'
  have hmoved := Cable.step_moved (P := etherStation) s a i
  rw [show (Cable.step etherStation s a).station i = some x' from hx'] at hmoved
  generalize ho : s.station i = o at hmoved
  generalize ho' : some x' = o' at hmoved
  cases hmoved with
  | same => exact h i x' (ho.trans ho'.symm)
  | @start cfg =>
    obtain rfl := Option.some.inj ho'
    cases cfg with
    | host => rfl
    | foreign => rfl
  | call x c =>
    obtain rfl := Option.some.inj ho'
    exact (x.call_address c).2.2.2.trans (h i x ho)
  | @poll x =>
    obtain rfl := Option.some.inj ho'
    exact (x.poll_cases s.now).2.1.trans (h i x ho)
  | transmit x =>
    obtain rfl := Option.some.inj ho'
    exact x.transmit_address.2.2.2.trans (h i x ho)
  | @recv x k f hears =>
    obtain rfl := Option.some.inj ho'
    rcases x.recv_deaf f s.now with hsame | ⟨⟨b, rfl⟩, hbad⟩
    · exact hsame.trans (h i x ho)
    · exact absurd (hlegible i k f b hears ho) (by rw [hbad]; decide)

theorem tries_hears (hhearing : Hearing s) (hears : Cable.Hears s a k i f) (hf : Probes addr f)
    (h : Tries s i addr) :
    ¬ Holds (Cable.step etherStation s a) i addr ∧
      (Tries (Cable.step etherStation s a) i addr →
        Says (Cable.step etherStation s a) i (Probes addr)) := by
  obtain ⟨x, hx, htries⟩ := h
  have hx' := hears.station (P := etherStation) hx
  rcases x.recv_cases f s.now with ⟨-, -, hnot⟩ | ⟨hnone, hprobe⟩
  · exact absurd (hnot addr htries hf) (by rw [hhearing i x hx]; decide)
  · constructor
    · rintro ⟨x'', hx'', hholds⟩
      obtain rfl := Option.some.inj (hx'.symm.trans hx'')
      exact nomatch hnone.symm.trans hholds
    · rintro ⟨x'', hx'', htries'⟩
      obtain rfl := Option.some.inj (hx'.symm.trans hx'')
      exact ⟨_, hx', hprobe addr htries'⟩

theorem holds_hears (hhearing : Hearing s) (hears : Cable.Hears s a k i f) (hf : Probes addr f)
    (h : Holds s i addr) : Says (Cable.step etherStation s a) i (Defends addr) := by
  obtain ⟨x, hx, hholds⟩ := h
  exact ⟨_, hears.station (P := etherStation) hx,
    EtherNode.recv_defends hholds (hhearing i x hx) hf s.now⟩

/-! ## Contested addresses -/

/-- One of two nodes has still to hear a probe of either, or a response to the first. -/
def Threat (s : EtherCable ι) (i j : ι) (addr : AppleTalkAddress) : Prop :=
  ∃ f, (Cable.Awaits etherStation s i j f ∧ Probes addr f) ∨
    Cable.Awaits etherStation s j i f ∧ (Probes addr f ∨ Defends addr f)

/-- **The invariant.**  No address is held by two nodes, and one that is contested is told of. -/
structure Contested (s : EtherCable ι) : Prop where
  hearing : Hearing s
  threat : ∀ i j addr, i ≠ j → Tries s i addr → Tries s j addr ∨ Holds s j addr → Threat s i j addr
  apart : ∀ i j addr, i ≠ j → Holds s i addr → ¬ Holds s j addr

omit [DecidableEq ι] in
theorem threat_of_probe (h : Says s i (Probes addr)) : Threat s i j addr := by
  obtain ⟨x, hx, f, hf, hprobe⟩ := h
  exact ⟨f, Or.inl ⟨Or.inl ⟨x, hx, hf⟩, hprobe⟩⟩

omit [DecidableEq ι] in
theorem threat_of_says (h : Says s j (Probes addr) ∨ Says s j (Defends addr)) :
    Threat s i j addr := by
  rcases h with ⟨x, hx, f, hf, hprobe⟩ | ⟨x, hx, f, hf, hdefends⟩
  · exact ⟨f, Or.inr ⟨Or.inl ⟨x, hx, hf⟩, Or.inl hprobe⟩⟩
  · exact ⟨f, Or.inr ⟨Or.inl ⟨x, hx, hf⟩, Or.inr hdefends⟩⟩

omit [DecidableEq ι] in
theorem Tries.started (h : Tries s i addr) : (s.station i).isSome = true := by
  obtain ⟨x, hx, -⟩ := h
  rw [hx]
  rfl

omit [DecidableEq ι] in
theorem Holds.started (h : Holds s i addr) : (s.station i).isSome = true := by
  obtain ⟨x, hx, -⟩ := h
  rw [hx]
  rfl

/-- **A threat stays** as long as both nodes keep to the address, unless a response is heard. -/
theorem threat_step (hhearing : Hearing s) (hij : i ≠ j) (hquiet : NoDefence s a)
    (hi : Tries s i addr)
    (hi' : Tries (Cable.step etherStation s a) i addr) (hj : Tries s j addr ∨ Holds s j addr)
    (hj' : Tries (Cable.step etherStation s a) j addr ∨ Holds (Cable.step etherStation s a) j addr)
    (h : Threat s i j addr) : Threat (Cable.step etherStation s a) i j addr := by
  obtain ⟨f, ⟨hawaits, hprobe⟩ | ⟨hawaits, habout⟩⟩ := h
  · have hstarted := hj.elim Tries.started Holds.started
    rcases Cable.awaits_step a hij.symm hstarted hawaits with hstill | hears
    · exact ⟨f, Or.inl ⟨hstill, hprobe⟩⟩
    · rcases hj with hj | hj
      · obtain ⟨hnot, hhears⟩ := tries_hears hhearing hears hprobe hj
        exact threat_of_says (Or.inl (hhears (hj'.resolve_right hnot)))
      · exact threat_of_says (Or.inr (holds_hears hhearing hears hprobe hj))
  · rcases Cable.awaits_step a hij hi.started hawaits with hstill | hears
    · exact ⟨f, Or.inr ⟨hstill, habout⟩⟩
    · rcases habout with hprobe | hdefends
      · exact threat_of_probe ((tries_hears hhearing hears hprobe hi).2 hi')
      · obtain ⟨x, hx, htries⟩ := hi
        exact absurd hdefends (hquiet i j f addr hears (by rw [hx]; exact htries))

omit [DecidableEq ι] in
/-- No window ends while there is a threat to either node. -/
theorem Threat.not_due (hij : i ≠ j) (hdelivered : Delivered s a) (h : Threat s i j addr)
    (hpoll : (a = .poll i ∧ ∃ x, s.station i = some x ∧ x.due s.now = true) ∨
      a = .poll j ∧ ∃ x, s.station j = some x ∧ x.due s.now = true) : False := by
  have hnone : ∀ {i j : ι} {f}, i ≠ j → a = .poll i → (∃ x, s.station i = some x ∧
      x.due s.now = true) → ¬ Cable.Awaits etherStation s i j f ∧
        ¬ Cable.Awaits etherStation s j i f := by
    rintro i j f hij rfl ⟨x, hx, hdue⟩
    obtain ⟨hsettled, hempty, hheard⟩ := hdelivered x hx hdue
    refine ⟨hsettled.not_awaits j f, ?_⟩
    rintro (⟨y, hy, hf⟩ | ⟨fl, hfl, -, -, hw⟩)
    · have hf' : f ∈ y.outbox := hf
      rw [hempty j hij.symm y hy] at hf'
      cases hf'
    · exact Bool.noConfusion (hw.symm.trans (hheard fl hfl))
  obtain ⟨f, ⟨hawaits, -⟩ | ⟨hawaits, -⟩⟩ := h
  · rcases hpoll with ⟨ha, hx⟩ | ⟨ha, hx⟩
    · exact (hnone hij ha hx).1 hawaits
    · exact (hnone hij.symm ha hx).2 hawaits
  · rcases hpoll with ⟨ha, hx⟩ | ⟨ha, hx⟩
    · exact (hnone hij ha hx).2 hawaits
    · exact (hnone hij.symm ha hx).1 hawaits

/-- **One step.** -/
theorem Contested.step (h : Contested s) (hdelivered : Delivered s a) (hquiet : NoDefence s a)
    (hlegible : Legible s a) : Contested (Cable.step etherStation s a) := by
  refine ⟨hearing_step h.hearing hlegible, ?_, ?_⟩
  · intro i j addr hij hi' hj'
    rcases tries_step hi' with hi | hhears
    · have hj : (Tries s j addr ∨ Holds s j addr) ∨
          Says (Cable.step etherStation s a) j (Probes addr) := by
        rcases hj' with hj' | hj'
        · exact (tries_step hj').imp_left Or.inl
        · rcases holds_step hj' with hj | ⟨hj, -⟩
          · exact Or.inl (Or.inr hj)
          · exact Or.inl (Or.inl hj)
      rcases hj with hj | hhears
      · exact threat_step h.hearing hij hquiet hi hi' hj hj' (h.threat i j addr hij hi hj)
      · exact threat_of_says (Or.inl hhears)
    · exact threat_of_probe hhears
  · intro i j addr hij hi' hj'
    rcases holds_step hi' with hi | ⟨hi, hpoll⟩
    · rcases holds_step hj' with hj | ⟨hj, hpoll⟩
      · exact h.apart i j addr hij hi hj
      · exact (h.threat j i addr hij.symm hj (Or.inr hi)).not_due hij.symm hdelivered (Or.inl hpoll)
    · rcases holds_step hj' with hj | ⟨hj, -⟩
      · exact (h.threat i j addr hij hi (Or.inr hj)).not_due hij hdelivered (Or.inl hpoll)
      · exact (h.threat i j addr hij hi (Or.inl hj)).not_due hij hdelivered (Or.inl hpoll)

end

/-! ## Whole runs -/

/-- The condition along a run from nothing. -/
abbrev AlongEther (ok : EtherCable ι → EtherAct ι → Prop) (as : List (EtherAct ι)) : Prop :=
  Along (Cable.step etherStation) ok .empty as

/-- Nothing that was received in its probe window tells against the address of a node. -/
def Unopposed (x : EtherNode) : Prop :=
  ∀ addr, x.probingFor = some addr ∨ x.settledOn = some addr →
    ∀ pkt ∈ x.heard, Addressing.takenInProbe pkt addr = false

theorem takenInProbe_eq_false {pkt : AarpPacket} {addr : AppleTalkAddress} {f : AarpFrame}
    (hread : Reads f pkt) (hprobe : ¬ Probes addr f) (hdefends : ¬ Defends addr f) :
    Addressing.takenInProbe pkt addr = false := by
  rw [Addressing.takenInProbe, decide_eq_false_iff_not]
  rintro (⟨hopcode, hsender⟩ | ⟨hopcode, htarget⟩)
  · exact hdefends ⟨pkt, hread, hopcode, hsender⟩
  · exact hprobe ⟨pkt, hread, hopcode, htarget⟩

/-- A frame that is received is kept in mind if it tells nothing against the address. -/
theorem Unopposed.recv {x : EtherNode} (h : Unopposed x) {f : AarpFrame}
    (hquiet : ∀ addr, x.probingFor = some addr → ¬ Defends addr f) (now : Micros) :
    Unopposed (x.recv f now) := by
  cases x with
  | foreign outbox => exact h
  | host a =>
    have hcases := a.receivedFrame_cases f now
    intro addr haddr pkt hpkt
    simp only [EtherNode.recv] at haddr hpkt
    generalize a.receivedFrame f now = a' at hcases haddr hpkt
    cases hcases with
    | unread => exact h addr haddr pkt hpkt
    | conflict => cases hpkt
    | kept pkt' hread addr' deadline hstate htaken =>
      have htries : (EtherNode.host a).probingFor = some addr' :=
        EtherNode.probingFor_eq_some.2 ⟨a, deadline, rfl, hstate⟩
      have hsame : addr' = addr := by
        simp only [EtherNode.probingFor, EtherNode.settledOn, hstate] at haddr
        rcases haddr with haddr | haddr
        · exact Option.some.inj haddr
        · cases haddr
      rcases List.mem_append.1 hpkt with hpkt | hpkt
      · exact h addr haddr pkt hpkt
      · obtain rfl := List.mem_singleton.1 hpkt
        refine takenInProbe_eq_false hread ?_ (hsame ▸ hquiet addr' htries)
        rintro ⟨pkt', hread', hopcode, htarget⟩
        obtain rfl : pkt = pkt' := Except.ok.inj (hread.1.symm.trans hread'.1)
        rw [Addressing.takenInLoop, decide_eq_false_iff_not] at htaken
        exact htaken ⟨hopcode, hsame ▸ htarget⟩
    | handled pkt' hread ourAddr hstate =>
      obtain ⟨hstate', hheard, -⟩ := a.handleAarpPacket_state pkt' f.source ourAddr
      simp only [EtherNode.probingFor, EtherNode.settledOn, EtherNode.heard, hstate', hheard]
        at haddr hpkt
      exact h addr haddr pkt hpkt

theorem Unopposed.of_eq {x x' : EtherNode} (h : Unopposed x) (hprobing : x'.probingFor = x.probingFor)
    (hsettled : x'.settledOn = x.settledOn) (hheard : x'.heard = x.heard) : Unopposed x' := by
  intro addr haddr pkt hpkt
  rw [hprobing, hsettled] at haddr
  rw [hheard] at hpkt
  exact h addr haddr pkt hpkt

theorem unopposed_step {s : EtherCable ι} {a : EtherAct ι} (hquiet : NoDefence s a)
    (h : ∀ i, ∀ x ∈ s.station i, Unopposed x) (i : ι) :
    ∀ x ∈ (Cable.step etherStation s a).station i, Unopposed x := by
  have hmoved := Cable.step_moved (P := etherStation) s a i
  have hold := h i
  generalize (Cable.step etherStation s a).station i = o' at hmoved
  generalize ho : s.station i = o at hmoved hold
  intro x' hx'
  obtain rfl : o' = some x' := hx'
  cases hmoved with
  | same => exact hold x' rfl
  | @start cfg =>
    intro addr _ pkt hpkt
    cases cfg with
    | host => cases hpkt
    | foreign => cases hpkt
  | call x c =>
    obtain ⟨hprobing, hsettled, hheard, -⟩ := x.call_address c
    exact (hold x rfl).of_eq hprobing hsettled hheard
  | @poll x =>
    obtain ⟨hheard, -, ⟨hprobing, hsettled⟩ | ⟨-, hnone, hsettled⟩⟩ := x.poll_cases s.now
    · exact (hold x rfl).of_eq hprobing hsettled hheard
    · intro addr haddr pkt hpkt
      have haddr : (x.poll s.now).probingFor = some addr ∨ (x.poll s.now).settledOn = some addr :=
        haddr
      rw [hnone, hsettled] at haddr
      refine hold x rfl addr (Or.inl (haddr.resolve_left fun h => nomatch h)) pkt ?_
      rw [← hheard]
      exact hpkt
  | transmit x =>
    obtain ⟨hprobing, hsettled, hheard, -⟩ := x.transmit_address
    exact (hold x rfl).of_eq hprobing hsettled hheard
  | @recv x k f hears =>
    refine (hold x rfl).recv (fun addr htries => hquiet i k f addr hears ?_) s.now
    rw [ho]
    exact htries

theorem takenInLoop_eq_iff (pkt : AarpPacket) (addr : AppleTalkAddress) :
    Addressing.takenInLoop pkt addr = Addressing.takenInProbe pkt addr ↔
      ¬ (pkt.opcode = .response ∧ pkt.senderProtocol = addr) := by
  rw [Addressing.takenInLoop, Addressing.takenInProbe, decide_eq_decide]
  constructor
  · intro h hdefends
    have hprobe := h.2 (Or.inl hdefends)
    exact nomatch hdefends.1.symm.trans hprobe.1
  · intro hnot
    exact ⟨Or.inr, fun h => h.resolve_left hnot⟩

/-- **What a safe acquisition is.** What a node settled on was neither answered for nor probed for
    in the window, and no two nodes settled on one address. -/
structure Safe (s : EtherCable ι) : Prop where
  unopposed : ∀ i x addr, s.station i = some x → x.settledOn = some addr → ∀ pkt ∈ x.heard,
    ¬ (pkt.opcode = .response ∧ pkt.senderProtocol = addr) ∧
      ¬ (pkt.opcode = .probe ∧ pkt.targetProtocol = addr)
  apart : ∀ i j x y addr, i ≠ j → s.station i = some x → s.station j = some y →
    x.settledOn = some addr → y.settledOn ≠ some addr

/-- **Acquisition is safe** where no response from an address reaches a node that probes for it,
    and no malformed frame any node; and the two loops differ in such responses only. -/
theorem acquired_run {as : List (EtherAct ι)} (hdelivered : AlongEther Delivered as)
    (hquiet : AlongEther NoDefence as) (hlegible : AlongEther Legible as) :
    Safe (etherRun as) ∧
    ∀ pkt addr, Addressing.takenInLoop pkt addr = Addressing.takenInProbe pkt addr ↔
      ¬ (pkt.opcode = .response ∧ pkt.senderProtocol = addr) := by
  have hempty : Contested (Cable.empty : EtherCable ι) :=
    ⟨(fun _ _ hx => by cases hx), (fun _ _ _ _ ⟨_, hx, _⟩ _ => by cases hx),
      fun _ _ _ _ ⟨_, hx, _⟩ _ => by cases hx⟩
  have hcontested : Contested (etherRun as) :=
    inv_run _ (fun _ _ h hok => h.step hok.1 hok.2.1 hok.2.2) hempty
      (Along.and _ hdelivered (Along.and _ hquiet hlegible))
  have hstep : ∀ (s : EtherCable ι) (a : EtherAct ι), (∀ i, ∀ x ∈ s.station i, Unopposed x) →
      NoDefence s a → ∀ i, ∀ x ∈ (Cable.step etherStation s a).station i, Unopposed x :=
    fun _ _ h hok => unopposed_step hok h
  have hnone : ∀ i, ∀ x ∈ (Cable.empty : EtherCable ι).station i, Unopposed x := by
    intro i x hx
    cases hx
  have hunopposed := inv_run _ hstep hnone hquiet
  refine ⟨⟨fun i x addr hx hsettled pkt hpkt => ?_, fun i j x y addr hij hx hy hx' hy' => ?_⟩,
    takenInLoop_eq_iff⟩
  · have hfree := hunopposed i x hx addr (Or.inr hsettled) pkt hpkt
    rw [Addressing.takenInProbe, decide_eq_false_iff_not, not_or] at hfree
    exact hfree
  · exact hcontested.apart i j addr hij ⟨x, hx, hx'⟩ ⟨y, hy, hy'⟩

/-! ## Two nodes that draw the same address -/

/-- A node of Phase 2. -/
def startHost (i : Bool) (host : UInt8) (draws : ℕ → ℕ × ℕ) : EtherAct Bool :=
  .start i (.host #v[8, 0, 7, 0, 0, host] .etherTalkPhase2 (by decide) draws)

/-- Two nodes probe for one address at once; each hears the other and draws again. -/
def together : List (EtherAct Bool) :=
  [startHost true 1 fun n => (6, n), startHost false 2 fun n => (6, 2 * n), .tick 300000,
    .transmit true, .transmit false, .deliver 0 false, .deliver 1 true, .transmit true,
    .transmit false, .deliver 2 false, .deliver 3 true, .tick 1000000, .poll true, .poll false]

instance (addr : AppleTalkAddress) (f : AarpFrame) : Decidable (Defends addr f) :=
  match hparse : AarpPacket.parse f.payload with
  | .error e => isFalse fun ⟨_, hread, _⟩ => nomatch hparse.symm.trans hread.1
  | .ok pkt => decidable_of_iff
      (f.source ≠ .localTalk ∧ pkt.opcode = .response ∧ pkt.senderProtocol = addr)
      ⟨fun ⟨hsource, hrest⟩ => ⟨pkt, ⟨hparse, hsource⟩, hrest⟩, fun ⟨pkt', hread, hrest⟩ => by
        obtain rfl : pkt = pkt' := Except.ok.inj (hparse.symm.trans hread.1)
        exact ⟨hread.2, hrest⟩⟩

/-- The frames that are still to be heard parse, and none is a response from the address that a
    node tries. -/
def quiet (s : EtherCable ι) (i : ι) : Prop :=
  ∀ fl ∈ s.flights, (AarpPacket.parse fl.frame.payload).isOk = true ∧
    ∀ addr ∈ (s.station i).bind EtherNode.probingFor, ¬ Defends addr fl.frame

omit [DecidableEq ι] in
theorem noDefence_of_quiet {s : EtherCable ι} {a : EtherAct ι}
    (h : ∀ n i, a = .deliver n i → quiet s i) : NoDefence s a ∧ Legible s a := by
  constructor
  · rintro i k f addr ⟨n, fl, rfl, hn, -, rfl, -⟩ htries
    exact (h n i rfl fl (List.mem_of_getElem? hn)).2 addr htries
  · rintro i k f a' ⟨n, fl, rfl, hn, -, rfl, -⟩ _
    exact (h n i rfl fl (List.mem_of_getElem? hn)).1

/-- A condition for `NoDefence` and `Legible` that can be evaluated. -/
def Quiet (s : EtherCable ι) : EtherAct ι → Prop
  | .deliver _ i => quiet s i
  | _ => True

instance (s : EtherCable ι) (a : EtherAct ι) : Decidable (Quiet s a) := by
  unfold Quiet quiet
  cases a <;> infer_instance

theorem acquired_run_together : Safe (etherRun together) ∧
    ∀ pkt addr, Addressing.takenInLoop pkt addr = Addressing.takenInProbe pkt addr ↔
      ¬ (pkt.opcode = .response ∧ pkt.senderProtocol = addr) := by
  have hquiet : AlongEther Quiet together := by decide +kernel
  have hboth : ∀ (s : EtherCable Bool) a, Quiet s a → NoDefence s a ∧ Legible s a := by
    intro s a h
    refine noDefence_of_quiet fun n i ha => ?_
    rw [ha] at h
    exact h
  exact acquired_run (by decide +kernel) (Along.mono _ (fun s a h => (hboth s a h).1) hquiet)
    (Along.mono _ (fun s a h => (hboth s a h).2) hquiet)

/-- The second node hears the first one's response and settles on its address all the same. -/
theorem acquired_run_fails : ¬ ∀ as : List (EtherAct Bool), AlongEther Delivered as →
    Safe (etherRun as) ∧
    ∀ pkt addr, Addressing.takenInLoop pkt addr = Addressing.takenInProbe pkt addr := by
  intro h
  let as : List (EtherAct Bool) := [startHost true 1 fun _ => (6, 41), .transmit true,
    .tick 1000000, .poll true, startHost false 2 fun _ => (6, 41), .transmit false,
    .deliver 1 true, .transmit true, .deliver 2 false, .tick 1000000, .poll false]
  have hsafe := (h as (by decide +kernel)).1
  have hsettled : ∀ i, ((etherRun as).station i).bind EtherNode.settledOn =
      some ⟨0xFF06, 42⟩ := by decide +kernel
  obtain ⟨x, hx, hx'⟩ := Option.bind_eq_some_iff.1 (hsettled true)
  obtain ⟨y, hy, hy'⟩ := Option.bind_eq_some_iff.1 (hsettled false)
  exact hsafe.apart true false x y ⟨0xFF06, 42⟩ (by decide) hx hy hx' hy'

end TailTalk
