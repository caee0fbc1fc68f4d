/-
  Which slot has a socket number, through every step of the node.

  `Consistent` says that the open sockets are those that a slot lists, and that
  `bySocket` leads to that slot; between opening sockets and hosting something
  on them, some are pending.
-/
import Mathlib.Data.Finset.Insert
import TailTalk.Net.Slots

namespace TailTalk

open Lib

/-! ## The sockets of a stack -/

namespace Stack

section
variable (s : Stack)

@[simp] theorem sockets_sendDdp (dest : AppleTalkAddress) (destSocket srcSocket : UInt8)
    (proto : DdpProtocolType) (payload : Bytes) :
    (s.sendDdp dest destSocket srcSocket proto payload).2.sockets = s.sockets := by
  unfold sendDdp
  split
  · rfl
  dsimp only
  split_ifs <;> rfl

@[simp] theorem sockets_dispatch (headers : DdpPacket) (payload : Bytes) :
    (s.dispatch headers payload).sockets = s.sockets := by
  unfold dispatch
  split
  · rfl
  dsimp only
  split_ifs
  · rfl
  · unfold handleRtmp
    split
    · rfl
    · dsimp only
      split
      · split_ifs <;> rfl
      · rfl
  · split
    · rfl
    · exact s.sockets_sendDdp _ _ _ _ _
  · split
    · rfl
    · exact s.sockets_sendDdp _ _ _ _ _
  · rfl
  · rfl

@[simp] theorem sockets_handleFrame (data : Bytes) (now : Micros) :
    (s.handleFrame data now).sockets = s.sockets := by
  unfold handleFrame
  split
  · rfl
  split
  · rfl
  split
  · split <;> rfl
  · split
    · split <;> rfl
    · rfl
  · split
    · rfl
    · split
      · exact s.sockets_dispatch _ _
      · rfl
  · split
    · rfl
    · split
      · exact s.sockets_dispatch _ _
      · rfl
  · rfl

@[simp] theorem sockets_poll (now : Micros) : (s.poll now).sockets = s.sockets := by
  unfold poll
  split
  · rfl
  · split <;> rfl

@[simp] theorem sockets_nbpRegister (name : EntityName) (socket : UInt8) :
    (s.nbpRegister name socket).2.sockets = s.sockets := by
  unfold nbpRegister
  split <;> rfl

@[simp] theorem sockets_pollEvent : s.pollEvent.2.sockets = s.sockets := by
  unfold pollEvent
  split <;> rfl

@[simp] theorem sockets_pollTransmit : s.pollTransmit.2.sockets = s.sockets := by
  unfold pollTransmit
  split <;> rfl

theorem drawSocket_free {sockets : Finset UInt8} {tries : ℕ} {rng rng' : Rand} {n : UInt8}
    (h : drawSocket sockets tries rng = (some n, rng')) : n ∉ sockets := by
  induction tries generalizing rng with
  | zero => cases h
  | succ tries ih =>
    simp only [drawSocket] at h
    split_ifs at h with htaken
    · exact ih h
    · obtain ⟨hn, -⟩ := Prod.mk.inj h
      rwa [← Option.some.inj hn]

/-- A socket that is opened was free. -/
theorem openSocket_ok {s s' : Stack} {socket : Option UInt8} {n : UInt8}
    (h : s.openSocket socket = (.ok n, s')) :
    n ∉ s.sockets ∧ s'.sockets = insert n s.sockets := by
  cases socket with
  | some m =>
    simp only [openSocket] at h
    split at h
    · cases (Prod.mk.inj h).1
    · rename_i hreserved
      obtain ⟨hm, rfl⟩ := Prod.mk.inj h
      obtain rfl := Except.ok.inj hm
      exact ⟨fun hmem => hreserved (.inr (.inr (.inr hmem))), rfl⟩
  | none =>
    simp only [openSocket] at h
    split at h
    · rename_i hdraw
      obtain ⟨hm, rfl⟩ := Prod.mk.inj h
      obtain rfl := Except.ok.inj hm
      exact ⟨drawSocket_free hdraw, rfl⟩
    · cases (Prod.mk.inj h).1

theorem openSocket_error {s s' : Stack} {socket : Option UInt8} {e : SocketError}
    (h : s.openSocket socket = (.error e, s')) : s'.sockets = s.sockets := by
  cases socket with
  | some m =>
    simp only [openSocket] at h
    split at h
    · obtain ⟨-, rfl⟩ := Prod.mk.inj h
      rfl
    · cases (Prod.mk.inj h).1
  | none =>
    simp only [openSocket] at h
    split at h
    · cases (Prod.mk.inj h).1
    · obtain ⟨-, rfl⟩ := Prod.mk.inj h
      rfl

theorem mem_closeSockets {sockets : List UInt8} {n : UInt8} {s : Stack} :
    n ∈ (sockets.foldl closeSocket s).sockets ↔ n ∈ s.sockets ∧ n ∉ sockets := by
  induction sockets generalizing s with
  | nil => simp
  | cons m sockets ih =>
    rw [List.foldl_cons, ih, closeSocket, Finset.mem_erase, List.mem_cons, not_or]
    constructor
    · rintro ⟨⟨hne, hmem⟩, hnot⟩
      exact ⟨hmem, hne, hnot⟩
    · rintro ⟨hmem, hne, hnot⟩
      exact ⟨⟨hne, hmem⟩, hnot⟩

end

end Stack

/-! ## What the runner leaves of a state machine -/

namespace Hosted

/-- Its kind stays, and of an ADSP socket what handles hold. -/
inductive Steady : Hosted → Hosted → Prop
  | raw {s s'} : Steady (.raw s) (.raw s')
  | atp {s s'} : Steady (.atp s) (.atp s')
  | adsp {s s'} (h : Relation.ReflTransGen Streams.Sorts s.streams s'.streams) :
      Steady (.adsp s) (.adsp s')
  | port {p p'} : Steady (.port p) (.port p')

/-- What the endpoint of an ADSP socket reports opens no stream numbered like one in use. -/
def Numbers (next : AdspEndpoint → AdspEndpoint) : Hosted → Prop
  | .adsp s => s.Unclashed (next s.ep)
  | .raw _ | .atp _ | .port _ => True

instance (next : AdspEndpoint → AdspEndpoint) : ∀ h : Hosted, Decidable (h.Numbers next)
  | .adsp _ => inferInstanceAs (Decidable (Along _ _ _ _))
  | .raw _ | .atp _ | .port _ => inferInstanceAs (Decidable True)

theorem Steady.refl (h : Hosted) : Steady h h := by
  cases h with
  | raw s => exact .raw
  | atp s => exact .atp
  | adsp s => exact .adsp .refl
  | port p => exact .port

theorem steady_handleDatagram {h h' : Hosted} {dg : Datagram} {now : Micros}
    (hnumbers : h.Numbers fun ep => ep.handleDatagram dg.source dg.payload now)
    (heq : h.handleDatagram dg now = some h') : Steady h h' := by
  cases h with
  | raw s =>
    obtain rfl := Option.some.inj heq
    exact .raw
  | atp s =>
    obtain rfl := Option.some.inj heq
    exact .atp
  | adsp s =>
    obtain rfl := Option.some.inj heq
    exact .adsp (AdspState.sortEvents_sorts hnumbers)
  | port p =>
    obtain ⟨port, -, rfl⟩ := Option.map_eq_some_iff.1 heq
    exact .port

theorem steady_poll {h h' : Hosted} {now : Micros} (hnumbers : h.Numbers fun ep => ep.poll now)
    (heq : h.poll now = some h') : Steady h h' := by
  cases h with
  | raw s =>
    obtain rfl := Option.some.inj heq
    exact .raw
  | atp s =>
    obtain rfl := Option.some.inj heq
    exact .atp
  | adsp s =>
    obtain rfl := Option.some.inj heq
    exact .adsp (AdspState.sortEvents_sorts hnumbers)
  | port p =>
    obtain ⟨port, -, rfl⟩ := Option.map_eq_some_iff.1 heq
    exact .port

theorem steady_pollTransmit (h : Hosted) : Steady h h.pollTransmit.2 := by
  cases h with
  | raw s => exact .raw
  | atp s => exact .atp
  | adsp s => exact .adsp .refl
  | port p => exact .port

end Hosted

/-! ## Slots and socket numbers -/

namespace NetInner

/-- The slot has the socket number. -/
def Lists (s : NetInner) (n : UInt8) (id : ℕ) : Prop :=
  ∃ slot, s.slot id = some slot ∧ n ∈ slot.sockets

/-- The open sockets are those that a slot lists and those that are pending, and the map leads
    to the slot. -/
structure Consistent (s : NetInner) (pending : List UInt8) : Prop where
  opened : ∀ n, n ∈ s.stack.sockets ↔ n ∈ pending ∨ ∃ id, s.Lists n id
  mapped : ∀ n id, s.bySocket[n]? = some id ↔ s.Lists n id
  apart : ∀ n ∈ pending, ∀ id, ¬ s.Lists n id

/-- A step that neither fills nor frees a slot. -/
structure Kept (R : ℕ → Hosted → Hosted → Prop) (s s' : NetInner) : Prop where
  sockets : s'.stack.sockets = s.stack.sockets
  bySocket : s'.bySocket = s.bySocket
  generation : s'.nextGeneration = s.nextGeneration
  slots : ∀ id, (s.slot id = none ∧ s'.slot id = none) ∨
    ∃ slot hosted, s.slot id = some slot ∧ s'.slot id = some { slot with hosted } ∧
      R id slot.hosted hosted

section
variable {s s' s'' : NetInner} {R : ℕ → Hosted → Hosted → Prop} {pending : List UInt8}

theorem Kept.some_iff (h : Kept R s s') {id : ℕ} {slot : Slot} (hs : s.slot id = some slot) :
    ∃ hosted, s'.slot id = some { slot with hosted } ∧ R id slot.hosted hosted := by
  rcases h.slots id with ⟨hnone, -⟩ | ⟨slot', hosted, hs', h', hR⟩
  · cases hs.symm.trans hnone
  · obtain rfl := Option.some.inj (hs.symm.trans hs')
    exact ⟨hosted, h', hR⟩

theorem Kept.of_some (h : Kept R s s') {id : ℕ} {slot' : Slot} (hs : s'.slot id = some slot') :
    ∃ slot, s.slot id = some slot ∧ slot'.sockets = slot.sockets ∧
      slot'.generation = slot.generation ∧ R id slot.hosted slot'.hosted := by
  rcases h.slots id with ⟨-, hnone⟩ | ⟨slot, hosted, hslot, h', hR⟩
  · cases hs.symm.trans hnone
  · obtain rfl := Option.some.inj (hs.symm.trans h')
    exact ⟨slot, hslot, rfl, rfl, hR⟩

theorem Kept.lists (h : Kept R s s') (n : UInt8) (id : ℕ) : s'.Lists n id ↔ s.Lists n id := by
  constructor
  · rintro ⟨slot', hs', hn⟩
    obtain ⟨slot, hs, hsockets, -, -⟩ := h.of_some hs'
    exact ⟨slot, hs, hsockets ▸ hn⟩
  · rintro ⟨slot, hs, hn⟩
    obtain ⟨hosted, hs', -⟩ := h.some_iff hs
    exact ⟨_, hs', hn⟩

theorem Consistent.kept (hc : s.Consistent pending) (h : Kept R s s') :
    s'.Consistent pending := by
  constructor
  · intro n
    rw [h.sockets, hc.opened n]
    simp only [h.lists]
  · intro n id
    rw [h.bySocket, hc.mapped n id, h.lists]
  · intro n hn id
    rw [h.lists]
    exact hc.apart n hn id

/-- Only the stack changes, and not its sockets. -/
theorem kept_stack (hR : ∀ id h, R id h h) {stack : Stack}
    (h : stack.sockets = s.stack.sockets) : Kept R s { s with stack } := by
  refine ⟨h, rfl, rfl, fun id => ?_⟩
  rcases hs : s.slot id with _ | slot
  · exact .inl ⟨rfl, hs⟩
  · exact .inr ⟨slot, slot.hosted, rfl, hs, hR id _⟩

theorem Kept.refl (hR : ∀ id h, R id h h) (s : NetInner) : Kept R s s := kept_stack hR rfl

theorem Kept.trans (h : Kept R s s') (h' : Kept R s' s'')
    (hR : ∀ id a b c, R id a b → R id b c → R id a c) : Kept R s s'' := by
  refine ⟨h'.sockets.trans h.sockets, h'.bySocket.trans h.bySocket,
    h'.generation.trans h.generation, fun id => ?_⟩
  rcases h.slots id with ⟨hs, hs'⟩ | ⟨slot, hosted, hs, hs', hab⟩
  · rcases h'.slots id with ⟨-, hs''⟩ | ⟨slot, hosted, hnot, -, -⟩
    · exact .inl ⟨hs, hs''⟩
    · cases hs'.symm.trans hnot
  · obtain ⟨hosted', hs'', hbc⟩ := h'.some_iff hs'
    exact .inr ⟨slot, hosted', hs, hs'', hR _ _ _ _ hab hbc⟩

theorem slot_setHosted {id : ℕ} {slot : Slot} (hs : s.slot id = some slot) (hosted : Hosted)
    (j : ℕ) : (s.setHosted id hosted).slot j =
      if j = id then some { slot with hosted } else s.slot j := by
  rw [setHosted, hs]
  exact slotAt_set (lt_of_slotAt hs) _

/-- One state machine changes. -/
theorem kept_setHosted {id : ℕ} {slot : Slot} (hs : s.slot id = some slot) {hosted : Hosted}
    (hR : ∀ j h, j ≠ id → R j h h) (hRid : R id slot.hosted hosted) :
    Kept R s (s.setHosted id hosted) := by
  refine ⟨?_, ?_, ?_, fun j => ?_⟩
  · rw [setHosted, hs]
  · rw [setHosted, hs]
  · rw [setHosted, hs]
  · rw [slot_setHosted hs]
    split_ifs with hj
    · subst hj
      exact .inr ⟨slot, hosted, hs, rfl, hRid⟩
    · rcases hsj : s.slot j with _ | slot'
      · exact .inl ⟨rfl, rfl⟩
      · exact .inr ⟨slot', slot'.hosted, rfl, rfl, hR j _ hj⟩

/-! ## The runner -/

/-- What the runner leaves of the slots it does not drop. -/
abbrev Runs : NetInner → NetInner → Prop := Kept fun _ => Hosted.Steady

theorem runs_deliver {dg : Datagram} {now : Micros}
    (hnumbers : ∀ id ∈ s.bySocket[dg.dstSocket]?, ∀ slot ∈ s.slot id,
      slot.hosted.Numbers fun ep => ep.handleDatagram dg.source dg.payload now)
    (h : s.deliver dg now = some s') : Runs s s' := by
  unfold deliver at h
  split at h
  · obtain rfl := Option.some.inj h
    exact .refl (fun _ => .refl) s
  rename_i id hid
  split at h
  · obtain rfl := Option.some.inj h
    exact .refl (fun _ => .refl) s
  rename_i slot hs
  obtain ⟨hosted, heq, rfl⟩ := Option.map_eq_some_iff.1 h
  exact kept_setHosted hs (fun _ h _ => .refl h)
    (Hosted.steady_handleDatagram (hnumbers id hid slot hs) heq)

/-- A datagram changes the slot that lists its socket, and no other. -/
theorem deliver_reaches (hc : s.Consistent pending) {dg : Datagram} {now : Micros}
    (h : s.deliver dg now = some s') {id : ℕ} {slot : Slot} (hs : s.slot id = some slot) :
    (dg.dstSocket ∉ slot.sockets ∧ s'.slot id = some slot) ∨
      (dg.dstSocket ∈ slot.sockets ∧ ∃ hosted, slot.hosted.handleDatagram dg now = some hosted ∧
        s'.slot id = some { slot with hosted }) := by
  unfold deliver at h
  split at h
  · rename_i hnone
    obtain rfl := Option.some.inj h
    refine .inl ⟨fun hmem => ?_, hs⟩
    cases hnone.symm.trans ((hc.mapped _ _).2 ⟨slot, hs, hmem⟩)
  rename_i j hj
  obtain ⟨slot', hs', hmem'⟩ := (hc.mapped _ _).1 hj
  rw [hs'] at h
  obtain ⟨hosted, heq, rfl⟩ := Option.map_eq_some_iff.1 h
  by_cases hid : id = j
  · subst hid
    obtain rfl := Option.some.inj (hs.symm.trans hs')
    exact .inr ⟨hmem', hosted, heq, by rw [slot_setHosted hs, if_pos rfl]⟩
  · refine .inl ⟨fun hmem => hid ?_, by rw [slot_setHosted hs', if_neg hid, hs]⟩
    exact Option.some.inj (((hc.mapped _ _).2 ⟨slot, hs, hmem⟩).symm.trans hj)

theorem runs_pollTimers {now : Micros}
    (hnumbers : ∀ id slot, s.slot id = some slot → slot.due now = true →
      slot.hosted.Numbers fun ep => ep.poll now)
    (h : s.pollTimers now = some s') : Runs s s' := by
  obtain ⟨slots, hslots, rfl⟩ := Option.map_eq_some_iff.1 h
  refine ⟨s.stack.sockets_poll now, rfl, rfl, fun id => ?_⟩
  rcases slotAt_mapSlots hslots id with hnone | ⟨slot, slot', hs, hpoll, hs'⟩
  · exact .inl hnone
  · unfold Slot.poll at hpoll
    split_ifs at hpoll with hdue
    · obtain ⟨hosted, heq, rfl⟩ := Option.map_eq_some_iff.1 hpoll
      exact .inr ⟨slot, hosted, hs, hs', Hosted.steady_poll (hnumbers id slot hs hdue) heq⟩
    · obtain rfl := Option.some.inj hpoll
      exact .inr ⟨slot, slot.hosted, hs, hs', .refl _⟩

theorem runs_take (s : NetInner) : Runs s { s with slots := (takeFirst Slot.take s.slots).2 } := by
  refine ⟨rfl, rfl, rfl, fun id => ?_⟩
  rcases slotAt_takeFirst Slot.take s.slots id with heq | ⟨slot, hs, hs'⟩
  · rcases hs : s.slot id with _ | slot
    · exact .inl ⟨rfl, heq.trans hs⟩
    · exact .inr ⟨slot, slot.hosted, rfl, heq.trans hs, .refl _⟩
  · exact .inr ⟨slot, _, hs, hs', Hosted.steady_pollTransmit _⟩

/-- It hands on an event or a frame, moves one datagram down into the stack, or drops the slots that
    are finished, once no slot wants anything sent. -/
inductive Turns (s : NetInner) (now : Micros) : NetInner → Prop
  | event {s' : NetInner} (h : Runs s s') (hevents : s.stack.events ≠ [])
      (hquiet : ∀ dg, s.stack.pollEvent.1 ≠ some (.datagram dg)) : Turns s now s'
  | delivers {dg} {s' : NetInner} (hevent : s.stack.pollEvent.1 = some (.datagram dg))
      (h : { s with stack := s.stack.pollEvent.2 }.deliver dg now = some s') : Turns s now s'
  | frame {s' : NetInner} (h : Runs s s') (hevents : s.stack.events = [])
      (hframe : s.stack.outbox ≠ []) :
      Turns s now s'
  | moves {id t slots} (hevents : s.stack.events = []) (hframe : s.stack.outbox = [])
      (ht : takeFirst Slot.take s.slots = (some (id, t), slots)) :
      Turns s now { s with slots, stack := (s.stack.sendTransmit t).2 }
  | sweeps {slots} (hevents : s.stack.events = []) (hframe : s.stack.outbox = [])
      (ht : takeFirst Slot.take s.slots = (none, slots)) :
      Turns s now { s with slots }.sweep

theorem pollEvent_none {s : Stack} (h : s.pollEvent.1 = none) : s.events = [] := by
  unfold Stack.pollEvent at h
  split at h
  · assumption
  · cases h

theorem pollTransmit_none {s : Stack} (h : s.pollTransmit.1 = none) : s.outbox = [] := by
  unfold Stack.pollTransmit at h
  split at h
  · assumption
  · cases h

theorem turn_cases {now : Micros} {r : Turned} (h : s.turn now = some (r, s')) :
    Turns s now s' := by
  have hstack : ∀ {stack : Stack}, stack.sockets = s.stack.sockets →
      Runs s { s with stack } := fun h => kept_stack (fun _ => .refl) h
  have hevents : ∀ {ev}, s.stack.pollEvent.1 = some ev → s.stack.events ≠ [] := by
    intro ev hev hnil
    simp [Stack.pollEvent, hnil] at hev
  have htells : ∀ {ev stack}, s.stack.pollEvent = (some ev, stack) →
      (∀ dg, some ev ≠ some (.datagram dg)) → Turns s now { s with stack } := by
    intro ev stack hev hno
    have hev1 := congrArg Prod.fst hev
    obtain rfl : s.stack.pollEvent.2 = stack := congrArg Prod.snd hev
    exact .event (hstack s.stack.sockets_pollEvent) (hevents hev1) fun dg hdg =>
      hno dg (hev1.symm.trans hdg)
  unfold turn at h
  split at h
  · rename_i hev
    obtain ⟨-, rfl⟩ := Prod.mk.inj (Option.some.inj h)
    exact htells hev fun _ hdg => by cases hdg
  · rename_i hev
    obtain ⟨-, rfl⟩ := Prod.mk.inj (Option.some.inj h)
    exact htells hev fun _ hdg => by cases hdg
  · rename_i dg stack hev
    have hev1 := congrArg Prod.fst hev
    have hev2 := congrArg Prod.snd hev
    obtain ⟨t, ht, heq⟩ := Option.map_eq_some_iff.1 h
    obtain ⟨-, rfl⟩ := Prod.mk.inj heq
    obtain rfl : s.stack.pollEvent.2 = stack := hev2
    exact .delivers hev1 ht
  · rename_i hev
    have hnil := pollEvent_none (congrArg Prod.fst hev)
    split at h
    · rename_i frame stack hframe
      have hframe2 := congrArg Prod.snd hframe
      obtain ⟨-, rfl⟩ := Prod.mk.inj (Option.some.inj h)
      obtain rfl : s.stack.pollTransmit.2 = stack := hframe2
      refine .frame (hstack s.stack.sockets_pollTransmit) hnil fun hout => ?_
      simp [Stack.pollTransmit, hout] at hframe
    · rename_i hframe
      have hout := pollTransmit_none (congrArg Prod.fst hframe)
      split at h
      · rename_i id t slots ht
        obtain ⟨-, rfl⟩ := Prod.mk.inj (Option.some.inj h)
        exact .moves hnil hout ht
      · rename_i slots ht
        obtain ⟨-, rfl⟩ := Prod.mk.inj (Option.some.inj h)
        exact .sweeps hnil hout ht

end

/-! ## Filling and freeing -/

section
variable {s s' : NetInner} {pending sockets : List UInt8}

theorem getElem?_foldl_insert (m : Std.TreeMap UInt8 ℕ) (sockets : List UInt8) (id : ℕ)
    (n : UInt8) : (sockets.foldl (fun m n => m.insert n id) m)[n]? =
      if n ∈ sockets then some id else m[n]? := by
  induction sockets generalizing m with
  | nil => simp
  | cons k sockets ih =>
    rw [List.foldl_cons, ih, getElem?_insert_eq]
    by_cases hmem : n ∈ sockets
    · simp [hmem]
    · by_cases hk : n = k
      · simp [hk]
      · simp [hmem, hk]

/-- What `insert` does to the slots. -/
structure Fills (s : NetInner) (hosted : Hosted) (id : ℕ) (socket : UInt8) (s' : NetInner) :
    Prop where
  free : s.slot id = none
  filled : ∃ sockets, sockets.head? = some socket ∧
    s'.slot id = some ⟨hosted, sockets, s.nextGeneration⟩
  slots : ∀ j, j ≠ id → s'.slot j = s.slot j
  generation : s'.nextGeneration = s.nextGeneration + 1
  consistent : s'.Consistent []

theorem slot_insert (s : NetInner) (hosted : Hosted) (sockets : List UInt8) (j : ℕ) :
    (s.insert hosted sockets).2.slot j =
      if j = (s.insert hosted sockets).1 then some ⟨hosted, sockets, s.nextGeneration⟩
      else s.slot j := slotAt_fillSlot

/-- Hosting on the sockets that are pending. -/
theorem fills_insert (hc : s.Consistent sockets) (hosted : Hosted) {socket : UInt8}
    (hhead : sockets.head? = some socket) :
    Fills s hosted (s.insert hosted sockets).1 socket (s.insert hosted sockets).2 := by
  have hfree : s.slot (s.insert hosted sockets).1 = none := slotAt_freeSlot
  have hslot := s.slot_insert hosted sockets
  have hlists : ∀ n id, (s.insert hosted sockets).2.Lists n id ↔
      (id = (s.insert hosted sockets).1 ∧ n ∈ sockets) ∨ s.Lists n id := by
    intro n id
    simp only [Lists, hslot]
    split_ifs with hid
    · subst hid
      simp [hfree]
    · simp [hid]
  refine ⟨hfree, ⟨sockets, hhead, by rw [hslot, if_pos rfl]⟩,
    fun j hj => by rw [hslot, if_neg hj], rfl, ?_, fun n id => ?_, nofun⟩
  · intro n
    rw [show (s.insert hosted sockets).2.stack = s.stack from rfl, hc.opened n]
    simp only [hlists, List.not_mem_nil, false_or]
    constructor
    · rintro (hn | ⟨id, hid⟩)
      · exact ⟨_, .inl ⟨rfl, hn⟩⟩
      · exact ⟨id, .inr hid⟩
    · rintro ⟨id, ⟨-, hn⟩ | hid⟩
      · exact .inl hn
      · exact .inr ⟨id, hid⟩
  · rw [hlists, insert, getElem?_foldl_insert, ← hc.mapped n id]
    split_ifs with hn
    · have hnone : s.bySocket[n]? ≠ some id := fun h => hc.apart n hn id ((hc.mapped n id).1 h)
      simp [hn, hnone, eq_comm]
    · simp [hn]

/-- What dropping a slot does to the slots. -/
structure Frees (s : NetInner) (gone : ℕ → Prop) (s' : NetInner) : Prop where
  freed : ∀ j, gone j → s'.slot j = none
  slots : ∀ j, ¬ gone j → s'.slot j = s.slot j
  generation : s'.nextGeneration = s.nextGeneration

theorem foldl_release (sockets : List UInt8) (s : NetInner) :
    (sockets.foldl release s).slots = s.slots ∧
    (sockets.foldl release s).nextGeneration = s.nextGeneration ∧
    (∀ n, n ∈ (sockets.foldl release s).stack.sockets ↔
      n ∈ s.stack.sockets ∧ n ∉ sockets) ∧
    ∀ n, (sockets.foldl release s).bySocket[n]? =
      if n ∈ sockets then none else s.bySocket[n]? := by
  induction sockets generalizing s with
  | nil => simp
  | cons k sockets ih =>
    obtain ⟨hslots, hgeneration, hsockets, hmap⟩ := ih (s.release k)
    refine ⟨hslots, hgeneration, fun n => ?_, fun n => ?_⟩
    · rw [List.foldl_cons, hsockets, release, Stack.closeSocket, Finset.mem_erase, List.mem_cons,
        not_or]
      constructor
      · rintro ⟨⟨hne, hmem⟩, hnot⟩
        exact ⟨hmem, hne, hnot⟩
      · rintro ⟨hmem, hne, hnot⟩
        exact ⟨⟨hne, hmem⟩, hnot⟩
    · rw [List.foldl_cons, hmap, release, getElem?_erase_eq]
      by_cases hmem : n ∈ sockets
      · simp [hmem]
      · by_cases hk : n = k
        · simp [hk]
        · simp [hmem, hk]

theorem frees_remove (s : NetInner) (id : ℕ) : Frees s (· = id) (s.remove id) := by
  unfold remove
  rcases hs : s.slot id with _ | slot
  · refine ⟨fun j hj => ?_, fun j _ => rfl, rfl⟩
    rw [hj, hs]
  · obtain ⟨hslots, hgeneration, -, -⟩ :=
      foldl_release slot.sockets { s with slots := vacate s.slots id }
    refine ⟨fun j hj => ?_, fun j hj => ?_, hgeneration⟩
    · rw [NetInner.slot, hslots, slotAt_vacate, if_pos hj]
    · rw [NetInner.slot, hslots, slotAt_vacate, if_neg hj]
      rfl

theorem consistent_remove (hc : s.Consistent []) (id : ℕ) : (s.remove id).Consistent [] := by
  have hfrees := frees_remove s id
  unfold remove at hfrees ⊢
  rcases hs : s.slot id with _ | slot
  · exact hc
  rw [hs] at hfrees
  dsimp only at hfrees ⊢
  obtain ⟨-, -, hsockets, hmap⟩ :=
    foldl_release slot.sockets { s with slots := vacate s.slots id }
  have hlists : ∀ n j,
      (slot.sockets.foldl release { s with slots := vacate s.slots id }).Lists n j ↔
        j ≠ id ∧ s.Lists n j := by
    intro n j
    by_cases hj : j = id
    · unfold Lists
      rw [hfrees.freed j hj]
      simp [hj]
    · unfold Lists
      rw [hfrees.slots j hj]
      simp [hj]
  -- Another slot does not list what this one does.
  have hother : ∀ n j, s.Lists n j → (j ≠ id ↔ n ∉ slot.sockets) := by
    intro n j hj
    rw [not_iff_not]
    constructor
    · rintro rfl
      obtain ⟨slot', hs', hn⟩ := hj
      obtain rfl := Option.some.inj (hs.symm.trans hs')
      exact hn
    · intro hn
      exact Option.some.inj (((hc.mapped n j).2 hj).symm.trans ((hc.mapped n id).2 ⟨slot, hs, hn⟩))
  refine ⟨fun n => ?_, fun n j => ?_, nofun⟩
  · rw [hsockets, hc.opened n]
    simp only [hlists, List.not_mem_nil, false_or]
    constructor
    · rintro ⟨⟨j, hj⟩, hn⟩
      exact ⟨j, (hother n j hj).2 hn, hj⟩
    · rintro ⟨j, hne, hj⟩
      exact ⟨⟨j, hj⟩, (hother n j hj).1 hne⟩
  · rw [hmap, hlists]
    split_ifs with hn
    · refine ⟨nofun, fun h => ?_⟩
      exact absurd hn ((hother n j h.2).1 h.1)
    · rw [hc.mapped n j]
      exact ⟨fun hj => ⟨(hother n j hj).2 hn, hj⟩, fun h => h.2⟩

theorem mem_done {id : ℕ} : id ∈ s.done ↔ ∃ slot, s.slot id = some slot ∧
    slot.hosted.finished = true := by
  unfold done
  rw [List.mem_filter, List.mem_range]
  constructor
  · rintro ⟨-, h⟩
    exact (Option.any_eq_true _ _).1 h
  · rintro ⟨slot, hs, hfinished⟩
    exact ⟨lt_of_slotAt hs, (Option.any_eq_true _ _).2 ⟨slot, hs, hfinished⟩⟩

theorem frees_foldl_remove (ids : List ℕ) (s : NetInner) :
    Frees s (· ∈ ids) (ids.foldl remove s) := by
  induction ids generalizing s with
  | nil => exact ⟨nofun, fun _ _ => rfl, rfl⟩
  | cons id ids ih =>
    have hfirst := frees_remove s id
    have hrest := ih (s.remove id)
    refine ⟨fun j hj => ?_, fun j hj => ?_, hrest.generation.trans hfirst.generation⟩
    · by_cases hmem : j ∈ ids
      · exact hrest.freed j hmem
      · exact (hrest.slots j hmem).trans (hfirst.freed j ((List.mem_cons.1 hj).resolve_right hmem))
    · rw [List.mem_cons, not_or] at hj
      exact (hrest.slots j hj.2).trans (hfirst.slots j hj.1)

theorem consistent_sweep (hc : s.Consistent []) : s.sweep.Consistent [] := by
  unfold sweep
  generalize s.done = ids
  induction ids generalizing s with
  | nil => exact hc
  | cons id ids ih => exact ih (consistent_remove hc id)

/-! ## Binding -/

theorem consistent_open (hc : s.Consistent pending) {socket : Option UInt8} {n : UInt8}
    {stack : Stack} (h : s.stack.openSocket socket = (.ok n, stack)) :
    Consistent { s with stack } (pending ++ [n]) := by
  obtain ⟨hfree, hsockets⟩ := Stack.openSocket_ok h
  rw [hc.opened, not_or] at hfree
  refine ⟨fun m => ?_, hc.mapped, fun m hm id hid => ?_⟩
  · rw [show ({ s with stack } : NetInner).stack = stack from rfl, hsockets, Finset.mem_insert,
      hc.opened m, List.mem_append, List.mem_singleton, ← or_assoc, or_comm (a := m = n)]
    rfl
  · rcases List.mem_append.1 hm with hm | hm
    · exact hc.apart m hm id hid
    · rw [List.mem_singleton.1 hm] at hid
      exact hfree.2 ⟨id, hid⟩

/-- The sockets that are pending are given back. -/
theorem consistent_close (hc : s.Consistent pending) :
    Consistent { s with stack := pending.foldl Stack.closeSocket s.stack } [] := by
  refine ⟨fun m => ?_, hc.mapped, nofun⟩
  rw [Stack.mem_closeSockets, hc.opened m]
  constructor
  · rintro ⟨hm | hm, hnot⟩
    · exact absurd hm hnot
    · exact .inr hm
  · rintro (hm | ⟨id, hid⟩)
    · cases hm
    · exact ⟨.inr ⟨id, hid⟩, fun hm => hc.apart m hm id hid⟩

theorem Consistent.stack (hc : s.Consistent pending) {k : Stack}
    (h : k.sockets = s.stack.sockets) : Consistent { s with stack := k } pending :=
  ⟨fun n => by rw [h]; exact hc.opened n, hc.mapped, hc.apart⟩

/-- A step that gave back what it opened. -/
theorem runs_of_consistent (hc : s.Consistent []) {stack : Stack}
    (hc' : Consistent { s with stack } []) : Runs s { s with stack } := by
  refine kept_stack (fun _ => .refl) (Finset.ext fun n => ?_)
  exact (hc'.opened n).trans (hc.opened n).symm

theorem bindOn_cases (hc : s.Consistent []) {socket : Option UInt8}
    {make : UInt8 → Stack → Hosted × Stack}
    (hmake : ∀ n stack, (make n stack).2.sockets = stack.sockets)
    {r : Except BindError (ℕ × UInt8)} (h : s.bindOn socket make = (r, s')) :
    (∃ e, r = .error e ∧ Runs s s') ∨
      ∃ id n stack, r = .ok (id, n) ∧ Fills s (make n stack).1 id n s' := by
  unfold bindOn at h
  split at h
  · rename_i e stack hopen
    obtain ⟨rfl, rfl⟩ := Prod.mk.inj h
    exact .inl ⟨_, rfl, kept_stack (fun _ => .refl) (Stack.openSocket_error hopen)⟩
  · rename_i n stack hopen
    obtain ⟨rfl, rfl⟩ := Prod.mk.inj h
    have hpending := (consistent_open hc hopen).stack (k := (make n stack).2) (hmake n stack)
    have hfills := fills_insert hpending (make n stack).1 rfl
    exact .inr ⟨_, n, stack, rfl, hfills.free, hfills.filled, hfills.slots, hfills.generation,
      hfills.consistent⟩

theorem connect_cases (hc : s.Consistent []) {remote : ServiceAddress} {now : Micros}
    {r : Except AdspStreamError (ℕ × UInt16 × UInt8)} (h : s.connect remote now = some (r, s')) :
    (∃ e, r = .error e ∧ Runs s s') ∨
      ∃ id n stack handle a, r = .ok (id, handle, n) ∧
        AdspState.connect n stack remote now = some (handle, a) ∧ Fills s (.adsp a) id n s' := by
  unfold connect at h
  split at h
  · rename_i e stack hopen
    obtain ⟨rfl, rfl⟩ := Prod.mk.inj (Option.some.inj h)
    exact .inl ⟨_, rfl, kept_stack (fun _ => .refl) (Stack.openSocket_error hopen)⟩
  · rename_i n stack hopen
    obtain ⟨opened, hconnect, heq⟩ := Option.map_eq_some_iff.1 h
    obtain ⟨rfl, rfl⟩ := Prod.mk.inj heq
    have hpending := (consistent_open hc hopen).stack (k := stack.nextRandom.2) rfl
    have hfills := fills_insert hpending (.adsp opened.2) rfl
    exact .inr ⟨_, n, _, opened.1, opened.2, rfl, hconnect, hfills.free, hfills.filled,
      hfills.slots, hfills.generation, hfills.consistent⟩

/-- Opening the sockets of a printer: all of them, or none. -/
theorem openSockets_cases {count : ℕ} {opened : List UInt8} {stack : Stack}
    (hc : s.Consistent opened) {r : Except SocketError (List UInt8)}
    (h : openSockets count opened s.stack = (r, stack)) :
    (∃ e, r = .error e ∧ Consistent { s with stack } []) ∨
      ∃ more, r = .ok (opened ++ more) ∧ more.length = count ∧
        Consistent { s with stack } (opened ++ more) := by
  induction count generalizing s opened with
  | zero =>
    obtain ⟨rfl, rfl⟩ := Prod.mk.inj h
    exact .inr ⟨[], by simp, rfl, by simpa using hc⟩
  | succ count ih =>
    unfold openSockets at h
    split at h
    · rename_i n stack' hopen
      rcases ih (s := { s with stack := stack' }) (consistent_open hc hopen) h with
        herror | ⟨more, hr, hlen, hc'⟩
      · exact .inl herror
      · exact .inr ⟨n :: more, by simpa using hr, by simp [hlen], by simpa using hc'⟩
    · rename_i e stack' hopen
      obtain ⟨rfl, rfl⟩ := Prod.mk.inj h
      have hstack := hc.stack (Stack.openSocket_error hopen)
      exact .inl ⟨e, rfl, consistent_close hstack⟩

theorem bindPrinter_cases {encode : Bytes → Option NbpName} (hc : s.Consistent [])
    {model : PrinterModel} {name : Bytes} {now : Micros} {r : Except BindError (ℕ × UInt8)}
    (h : s.bindPrinter encode model name now = some (r, s')) :
    (∃ e, r = .error e ∧ Runs s s') ∨
      ∃ id n p, r = .ok (id, n) ∧ Fills s (.port p) id n s' := by
  unfold bindPrinter at h
  split at h
  · obtain ⟨rfl, rfl⟩ := Prod.mk.inj (Option.some.inj h)
    exact .inl ⟨_, rfl, .refl (fun _ => .refl) s⟩
  rename_i entity hentity
  split at h
  · rename_i e stack hopen
    obtain ⟨rfl, rfl⟩ := Prod.mk.inj (Option.some.inj h)
    rcases openSockets_cases hc hopen with ⟨_, -, hc'⟩ | ⟨more, hr, -⟩
    · exact .inl ⟨_, rfl, runs_of_consistent hc hc'⟩
    · cases hr
  rename_i sockets stack hopen
  rcases openSockets_cases hc hopen with ⟨_, hr, -⟩ | ⟨more, hr, hlen, hc'⟩
  · cases hr
  rw [List.nil_append] at hr hc'
  obtain rfl := Except.ok.inj hr
  split at h
  · rename_i stack' hregister
    obtain ⟨rfl, rfl⟩ := Prod.mk.inj (Option.some.inj h)
    have hsockets := stack.sockets_nbpRegister entity (sockets.headD 0)
    rw [hregister] at hsockets
    exact .inl ⟨_, rfl, runs_of_consistent hc (consistent_close (hc'.stack hsockets))⟩
  · rename_i stack' hregister
    have hsockets := stack.sockets_nbpRegister entity (sockets.headD 0)
    rw [hregister] at hsockets
    obtain ⟨⟨bound, s''⟩, hhost, heq⟩ := Option.map_eq_some_iff.1 h
    obtain ⟨rfl, rfl⟩ := Prod.mk.inj heq
    obtain ⟨port, -, heq'⟩ := Option.map_eq_some_iff.1 hhost
    obtain ⟨rfl, rfl⟩ := Prod.mk.inj heq'
    have hmade : (model.kind stack').2.sockets = stack'.sockets := by
      cases model <;> rfl
    have hhead : sockets.head? = some (sockets.headD 0) := by
      cases sockets with
      | nil => cases model <;> cases hlen
      | cons n sockets => rfl
    have hpending := (hc'.stack hsockets).stack hmade
    have hfills := fills_insert hpending
      (.port ⟨_, port, ⟨sockets.headD 0, model.nbpType, name, some entity⟩⟩) hhead
    exact .inr ⟨_, _, _, rfl, hfills.free, hfills.filled, hfills.slots, hfills.generation,
      hfills.consistent⟩

end

end NetInner

end TailTalk
