/-
  Slots are used again, and no handle reaches another one's.

  A slot may be freed when its owner is dropped, or when the runner finds it
  finished and with nothing left to send (`Released`).
-/
import TailTalk.Net.Handles

namespace TailTalk

open Lib

namespace World

/-! ## What a step may do -/

section
variable (w : World)

/-- No slot is freed. -/
def Stays (w' : World) : Prop :=
  ∀ id slot, w.inner.slot id = some slot →
    (∃ slot', w'.inner.slot id = some slot') ∧ w'.occupant id = w.occupant id

/-- Why a step frees a slot: its owner is dropped, or it is finished and has nothing to send. -/
inductive Released (id : ℕ) (slot : Slot) : NetAct → Prop
  | owner {h : NetHandle} (hmem : h ∈ w.handles) (hslot : h.slot = id) (howns : h.stake.Owns) :
      Released id slot (.drop h)
  | swept {now : Micros} {s : AdspState} (hadsp : slot.hosted = .adsp s)
      (hfinished : s.finished = true) (hfree : ∀ h ∈ w.handles, h.slot ≠ id)
      (hqueued : s.ep.outbox = []) (hframes : w.inner.stack.outbox = []) :
      Released id slot (.turn now)

/-- Only the slots for which there is a reason are freed. -/
def Frees (a : NetAct) (w' : World) : Prop :=
  ∀ id slot, w.inner.slot id = some slot →
    ((∃ slot', w'.inner.slot id = some slot') ∧ w'.occupant id = w.occupant id) ∨
      w.Released id slot a

/-- A turn that hands on a datagram gives it to the slot that lists its socket, and to no other. -/
def Delivers (a : NetAct) (w' : World) : Prop :=
  ∀ now dg, a = .turn now → w.inner.stack.pollEvent.1 = some (.datagram dg) →
    ∀ id slot, w.inner.slot id = some slot →
      (dg.dstSocket ∉ slot.sockets ∧ w'.inner.slot id = some slot) ∨
        (dg.dstSocket ∈ slot.sockets ∧ ∃ hosted, slot.hosted.handleDatagram dg now = some hosted ∧
          w'.inner.slot id = some { slot with hosted })

/-- A datagram is lost where the stack has no address to send it from, or it is too long. -/
def Loses (w' : World) : Prop :=
  ∃ more, w'.lost = w.lost ++ more ∧ ∀ l ∈ more,
    (∃ id slot, w.inner.slot id = some slot ∧ slot.take.1 = some l.datagram ∧
      l.occupant = w.occupant id) ∧
    (w.inner.stack.ourAddress = none ∨ MAX_DDP_PAYLOAD < l.datagram.payload.length)

/-- What every step does to the slots. -/
structure Steps (a : NetAct) (w' : World) : Prop where
  valid : w'.Valid
  frees : w.Frees a w'
  loses : w.Loses w'

end

section
variable {w w' : World} {h : NetHandle} {slot : Slot} {inner : NetInner} {a : NetAct}

/-! ## Steps that free nothing -/

theorem Stays.frees (hstays : w.Stays w') : w.Frees a w' :=
  fun id slot hs => .inl (hstays id slot hs)

theorem loses_same (hlost : w'.lost = w.lost) : w.Loses w' :=
  ⟨[], by rw [hlost, List.append_nil], nofun⟩

theorem stays_runs (hruns : w.inner.Runs w'.inner) (hocc : w'.occupant = w.occupant) :
    w.Stays w' := by
  intro id slot hs
  obtain ⟨hosted, hs', -⟩ := hruns.some_iff hs
  exact ⟨⟨_, hs'⟩, congrFun hocc id⟩

theorem stays_hold {hosted : Hosted} {id : ℕ} {stake : Stake} {socket : UInt8}
    (hfills : w.inner.Fills hosted id socket inner) : w.Stays (w.hold inner id stake socket) := by
  intro j slot hs
  have hj : j ≠ id := by
    rintro rfl
    cases hfills.free.symm.trans hs
  exact ⟨⟨slot, (hfills.slots j hj).trans hs⟩, Function.update_of_ne hj _ _⟩

theorem stays_put {id : ℕ} {hosted : Hosted} (hs : w.inner.slot id = some slot)
    (hinner : w'.inner = w.inner.setHosted id hosted) (hocc : w'.occupant = w.occupant) :
    w.Stays w' := by
  intro j slot' hs'
  rw [hinner, NetInner.slot_setHosted hs]
  refine ⟨?_, congrFun hocc j⟩
  split_ifs
  · exact ⟨_, rfl⟩
  · exact ⟨slot', hs'⟩

/-- The runner leaves the handles what they hold. -/
theorem Valid.runs_valid (hv : w.Valid) (h : w.inner.Runs inner) (lost : List Lost) :
    ({ w with inner, lost } : World).Valid := by
  refine ⟨hv.consistent.kept h, h.generation.trans hv.generation, fun id slot' hs' => ?_,
    fun id slot' s' hs' hs => ?_, fun h' hmem => ?_, hv.apart, hv.names⟩
  · obtain ⟨slot, hs, -, hgeneration, -⟩ := h.of_some hs'
    exact hgeneration.trans (hv.occupied id slot hs)
  · obtain ⟨slot, hslot, -, -, hsteady⟩ := h.of_some hs'
    rw [hs] at hsteady
    generalize heq : slot.hosted = hosted at hsteady
    cases hsteady with
    | adsp hsorts => exact owned_sorts (hv.owned id slot _ hslot heq) hsorts
  · obtain ⟨slot, hfinds⟩ := hv.finds h' hmem
    obtain ⟨hosted, hs', hsteady⟩ := h.some_iff hfinds.here
    exact ⟨_, hs', hfinds.own, hfinds.socket, keeps_steady hfinds.keeps hsteady⟩

theorem Valid.runs (hv : w.Valid) (h : w.inner.Runs inner) : w.Steps a { w with inner } :=
  ⟨hv.runs_valid h w.lost, Stays.frees (stays_runs h rfl),
    loses_same rfl⟩

theorem Valid.same (hv : w.Valid) : w.Steps a w := hv.runs (.refl (fun _ => .refl) _)

theorem Valid.stack (hv : w.Valid) {stack : Stack} (h : stack.sockets = w.inner.stack.sockets) :
    w.Steps a { w with inner := { w.inner with stack } } := hv.runs (runs_stack h)

theorem Valid.pollTimers (hv : w.Valid) {stack : Stack}
    (hsockets : stack.sockets = w.inner.stack.sockets) {now : Micros}
    (hclash : w.Unclashed (.timers now))
    (h : ({ w.inner with stack } : NetInner).pollTimers now = some inner) :
    w.Steps a { w with inner } := by
  refine hv.runs (runs_trans (runs_stack hsockets) (NetInner.runs_pollTimers ?_ h))
  intro id slot hs hdue
  refine hclash (some slot) (List.mem_of_getElem? (i := id) ?_) slot rfl hdue
  exact Option.join_eq_some_iff.1 hs

/-! ## Steps of the handles -/

theorem Valid.hold (hv : w.Valid) {hosted : Hosted} {id : ℕ} {stake : Stake} {socket : UInt8}
    (hfills : w.inner.Fills hosted id socket inner)
    (howned : ∀ s, hosted = .adsp s → s.streams.Owned)
    (hkeeps : ∀ slot : Slot, slot.hosted = hosted → slot.generation = w.inner.nextGeneration →
      slot.Keeps stake) : w.Steps a (w.hold inner id stake socket) := by
  obtain ⟨sockets, hhead, hfilled⟩ := hfills.filled
  have hother : ∀ h ∈ w.handles, h.slot ≠ id := by
    intro h hmem heq
    obtain ⟨slot, hfinds⟩ := hv.finds h hmem
    cases hfills.free.symm.trans (heq ▸ hfinds.here)
  have hnew : (w.hold inner id stake socket).occupant id = w.filled := Function.update_self _ _ _
  have hold : ∀ j, j ≠ id → (w.hold inner id stake socket).occupant j = w.occupant j :=
    fun j hj => Function.update_of_ne hj _ _
  refine ⟨⟨hfills.consistent, ?_, fun j slot hs => ?_, fun j slot s hs hadsp => ?_,
    fun h hmem => ?_, ?_, hv.names⟩, (stays_hold hfills).frees, loses_same rfl⟩
  · rw [show (w.hold inner id stake socket).inner = inner from rfl, hfills.generation,
      hv.generation]
    exact (UInt32.ofNat_add w.filled 1).symm
  · by_cases hj : j = id
    · subst hj
      obtain rfl := Option.some.inj (hs.symm.trans hfilled)
      rw [hnew]
      exact hv.generation
    · rw [hold j hj]
      exact hv.occupied j slot ((hfills.slots j hj).symm.trans hs)
  · by_cases hj : j = id
    · subst hj
      obtain rfl := Option.some.inj (hs.symm.trans hfilled)
      exact howned s hadsp
    · exact hv.owned j slot s ((hfills.slots j hj).symm.trans hs) hadsp
  · rcases List.mem_cons.1 hmem with rfl | hmem
    · exact ⟨_, hfilled, hnew, hhead, hkeeps _ rfl rfl⟩
    · obtain ⟨slot, hfinds⟩ := hv.finds h hmem
      have hne := hother h hmem
      exact ⟨slot, (hfills.slots _ hne).trans hfinds.here,
        (hold _ hne).trans hfinds.own, hfinds.socket, hfinds.keeps⟩
  · exact List.pairwise_cons.2 ⟨fun h hmem heq _ => absurd heq.symm (hother h hmem), hv.apart⟩

theorem Valid.put (hv : w.Valid) {id : ℕ} {o : Hosted} {handles : List NetHandle}
    (hs : w.inner.slot id = some slot) (howned : ∀ s, o = .adsp s → s.streams.Owned)
    (hfinds : ∀ h ∈ handles,
      (h ∈ w.handles ∧ (h.slot = id → slot.Keeps h.stake →
        ({ slot with hosted := o } : Slot).Keeps h.stake)) ∨
      (h.slot = id ∧ w.occupant id = h.occupant ∧ slot.sockets.head? = some h.socket ∧
        ({ slot with hosted := o } : Slot).Keeps h.stake))
    (hapart : handles.Pairwise NetHandle.Apart) :
    w.Steps a { w with inner := w.inner.setHosted id o, handles } := by
  have hkept : w.inner.Kept (fun j a b => j = id ∨ b = a) (w.inner.setHosted id o) :=
    NetInner.kept_setHosted hs (fun _ _ _ => .inr rfl) (.inl rfl)
  have hslot := NetInner.slot_setHosted hs o
  refine ⟨⟨hv.consistent.kept hkept, hkept.generation.trans hv.generation,
    fun j slot' hs' => ?_, fun j slot' s hs' hadsp => ?_, fun h hmem => ?_, hapart, hv.names⟩,
    Stays.frees (stays_put hs rfl
      rfl), loses_same rfl⟩
  · obtain ⟨slot'', hs'', -, hgeneration, -⟩ := hkept.of_some hs'
    exact hgeneration.trans (hv.occupied j slot'' hs'')
  · rw [show ({ w with inner := w.inner.setHosted id o, handles } : World).inner.slot j = _
      from hslot j] at hs'
    split_ifs at hs' with hj
    · obtain rfl := Option.some.inj hs'
      exact howned s hadsp
    · exact hv.owned j slot' s hs' hadsp
  · rcases hfinds h hmem with ⟨hold, hkeeps⟩ | ⟨rfl, hown, hsocket, hkeeps⟩
    · obtain ⟨slot', hfinds'⟩ := hv.finds h hold
      by_cases hid : h.slot = id
      · subst hid
        obtain rfl := Option.some.inj (hs.symm.trans hfinds'.here)
        exact ⟨_, (hslot _).trans (if_pos rfl), hfinds'.own, hfinds'.socket,
          hkeeps rfl hfinds'.keeps⟩
      · exact ⟨slot', (hslot _).trans ((if_neg hid).trans hfinds'.here), hfinds'.own,
          hfinds'.socket, hfinds'.keeps⟩
    · exact ⟨_, (hslot _).trans (if_pos rfl), hown, hsocket, hkeeps⟩

/-- A call that changes the state machine and no handle. -/
theorem Valid.put_same (hv : w.Valid) {hosted : Hosted} (hs : w.inner.slot h.slot = some slot)
    (hraw : ∀ s, hosted ≠ .adsp s)
    (hkeeps : ∀ stake, slot.Keeps stake → ({ slot with hosted } : Slot).Keeps stake) :
    w.Steps a (w.put h hosted) :=
  hv.put hs (fun s heq => absurd heq (hraw s)) (fun _ hmem => .inl ⟨hmem, fun _ => hkeeps _⟩)
    hv.apart

theorem Valid.put_call (hv : w.Valid) {s : AdspState} {c : AdspSocketCall}
    (hs : w.inner.slot h.slot = some slot) (hadsp : slot.hosted = .adsp s) (hquiet : c.Quiet)
    (hstream : ∀ id, c = .dropStream id → s.streams.Held (.stream id)) {handles : List NetHandle}
    (hsub : handles.Sublist w.handles)
    (hkept : ∀ h' ∈ handles, h'.slot = h.slot → ∀ part, h'.stake = .adsp part →
      Streams.givesUp c ≠ some part) :
    w.Steps a { w with inner := w.inner.setHosted h.slot (.adsp (s.call c)), handles } := by
  have hmoves := AdspState.call_moves (s := s) hquiet
  refine hv.put hs (fun s' heq => ?_) (fun h' hmem => .inl ⟨hsub.subset hmem, fun hslot hk => ?_⟩)
    (hv.apart.sublist hsub)
  · obtain rfl := Hosted.adsp.inj heq
    exact (hv.owned _ _ _ hs hadsp).moves hmoves hstream
  · exact keeps_adsp hadsp hk fun part hpart hheld =>
      hheld.moves hmoves (hkept h' hmem hslot part hpart)

theorem Valid.bound (hv : w.Valid) {stake : Stake} {socket : Option UInt8}
    {make : UInt8 → Stack → Hosted × Stack}
    (hmake : ∀ n stack, (make n stack).2.sockets = stack.sockets)
    (howned : ∀ n stack s, (make n stack).1 = .adsp s → s.streams.Owned)
    (hkeeps : ∀ n stack (slot : Slot), slot.hosted = (make n stack).1 → slot.Keeps stake) :
    w.Steps a (w.bound stake (w.inner.bindOn socket make)) := by
  rcases NetInner.bindOn_cases hv.consistent (r := (w.inner.bindOn socket make).1) hmake rfl with
    ⟨e, he, hruns⟩ | ⟨id, n, stack, hok, hfills⟩
  · rw [World.bound, he]
    exact hv.runs hruns
  · rw [World.bound, hok]
    exact hv.hold hfills (howned n stack) fun slot hs _ => hkeeps n stack slot hs

theorem Valid.accept (hv : w.Valid) (hmem : h ∈ w.handles) {s : AdspState}
    (hs : w.inner.slot h.slot = some slot) (hadsp : slot.hosted = .adsp s) :
    w.Steps a (w.lookAccept h s) := by
  have howned := hv.owned _ _ _ hs hadsp
  have hfinds := hv.finds_here hmem hs
  unfold World.lookAccept
  rcases haccept : s.acceptNext with ⟨x | x, s'⟩
  · exact hv.same
  obtain ⟨rfl, rest, hfront, hstreams⟩ := AdspState.acceptNext_some haccept
  obtain ⟨hheld, hnot⟩ := howned.accepts hfront
  have hmoves := AdspState.call_moves (s := s) (c := .acceptNext) trivial
  refine hv.put hs (fun t heq => ?_) (fun h' hmem' => ?_) (List.pairwise_cons.2 ⟨?_, hv.apart⟩)
  · obtain rfl := Hosted.adsp.inj heq
    exact howned.moves hmoves nofun
  · rcases List.mem_cons.1 hmem' with rfl | hmem'
    · exact .inr ⟨rfl, hfinds.own, hfinds.socket, _, rfl, by rw [hstreams]; exact hheld⟩
    · exact .inl ⟨hmem', fun _ hk => keeps_adsp hadsp hk fun part _ hpart =>
        hpart.moves hmoves nofun⟩
  · intro h' hmem' hslot hstake
    obtain ⟨t, ht, hpart⟩ := hstake ▸ (hv.finds_here hmem' (hslot ▸ hs)).keeps
    obtain rfl := Hosted.adsp.inj (ht.symm.trans hadsp)
    exact absurd hpart hnot

theorem Valid.connected (hv : w.Valid) (hmem : h ∈ w.handles) {s : AdspState} {handle : UInt16}
    (hs : w.inner.slot h.slot = some slot) (hadsp : slot.hosted = .adsp s)
    (hstake : h.stake = .adsp (.connect handle)) : w.Steps a (w.lookConnect h handle s) := by
  have howned := hv.owned _ _ _ hs hadsp
  have hfinds := hv.finds_here hmem hs
  have hmoves := AdspState.call_moves (s := s) (c := .connectOutcome handle) trivial
  -- Nobody else waits for this connect.
  have hothers : ∀ h' ∈ w.handles.erase h, h'.slot = h.slot → ∀ part, h'.stake = .adsp part →
      Streams.givesUp (.connectOutcome handle) ≠ some part := by
    intro h' hmem' hslot part hpart hgives
    obtain rfl := Option.some.inj hgives
    obtain ⟨tid, htid⟩ := apart_of_mem_erase hv.apart hmem hmem' hslot.symm
      (hstake.trans hpart.symm)
    cases hstake.symm.trans htid
  unfold World.lookConnect
  rcases houtcome : s.connectOutcome handle with ⟨_ | _ | id, s'⟩
  · exact hv.same
  · obtain rfl : s.call (.connectOutcome handle) = s' := congrArg Prod.snd houtcome
    exact hv.put_call (c := .connectOutcome handle) hs hadsp trivial nofun List.erase_sublist
      hothers
  obtain ⟨rfl, hawaits, hstreams⟩ := AdspState.connectOutcome_ok houtcome
  obtain ⟨hheld, hnot⟩ := howned.outcome hawaits
  refine hv.put hs (fun t heq => ?_) (fun h' hmem' => ?_)
    (List.pairwise_cons.2 ⟨?_, hv.apart.sublist List.erase_sublist⟩)
  · obtain rfl := Hosted.adsp.inj heq
    exact howned.moves hmoves nofun
  · rcases List.mem_cons.1 hmem' with rfl | hmem'
    · exact .inr ⟨rfl, hfinds.own, hfinds.socket, _, rfl, by rw [hstreams]; exact hheld⟩
    · exact .inl ⟨List.mem_of_mem_erase hmem', fun hslot hk => keeps_adsp hadsp hk
        fun part hpart hold => hold.moves hmoves (hothers h' hmem' hslot part hpart)⟩
  · intro h' hmem' hslot hstake'
    have hold := List.mem_of_mem_erase hmem'
    obtain ⟨t, ht, hpart⟩ := hstake' ▸ (hv.finds_here hold (hslot ▸ hs)).keeps
    obtain rfl := Hosted.adsp.inj (ht.symm.trans hadsp)
    exact absurd hpart hnot

/-! ## Freeing -/

theorem Valid.free (hv : w.Valid) {gone : ℕ → Prop} (hfrees : w.inner.Frees gone inner)
    (hc : inner.Consistent []) {handles : List NetHandle} (hsub : handles.Sublist w.handles)
    (hnone : ∀ h ∈ handles, ¬ gone h.slot) : ({ w with inner, handles } : World).Valid := by
  have hstays : ∀ {id slot}, inner.slot id = some slot → w.inner.slot id = some slot := by
    intro id slot hs
    by_cases hgone : gone id
    · cases (hfrees.freed id hgone).symm.trans hs
    · rw [← hfrees.slots id hgone, hs]
  refine ⟨hc, hfrees.generation.trans hv.generation,
    fun id slot hs => hv.occupied id slot (hstays hs),
    fun id slot s hs => hv.owned id slot s (hstays hs), fun h hmem => ?_, hv.apart.sublist hsub,
    hv.names⟩
  obtain ⟨slot, hfinds⟩ := hv.finds h (hsub.subset hmem)
  exact ⟨slot, (hfrees.slots _ (hnone h hmem)).trans hfinds.here, hfinds.own, hfinds.socket,
    hfinds.keeps⟩

theorem Valid.release (hv : w.Valid) (hmem : h ∈ w.handles) (howns : h.stake.Owns)
    (hborrow : h.stake = .atp → ∀ h' ∈ w.handles, h'.slot = h.slot → h'.stake = .atp)
    (hfrees : w.inner.Frees (· = h.slot) inner) (hc : inner.Consistent []) :
    w.Steps (.drop h) { w.forget h with inner } := by
  obtain ⟨slot, hfinds⟩ := hv.finds h hmem
  refine ⟨hv.free hfrees hc List.erase_sublist fun h' hmem' hslot => ?_, fun id slot hs => ?_,
    loses_same rfl⟩
  · have hold := List.mem_of_mem_erase hmem'
    have hsame : h.stake = h'.stake := by
      have hk' := (hv.finds_here hold (hslot ▸ hfinds.here)).keeps
      rcases Slot.Keeps.owned howns hfinds.keeps hk' with hsame | ⟨hatp, tid, htid⟩
      · exact hsame.symm
      · cases htid.symm.trans (hborrow hatp h' hold hslot)
    obtain ⟨tid, htid⟩ := apart_of_mem_erase hv.apart hmem hmem' hslot.symm hsame
    rw [htid] at howns
    exact howns
  · by_cases hid : id = h.slot
    · exact .inr (.owner hmem hid.symm howns)
    · exact .inl ⟨⟨slot, (hfrees.slots id hid).trans hs⟩, rfl⟩

theorem dropPrinter_frees (hc : w.inner.Consistent []) {id : ℕ} {socket : UInt8}
    (h : w.inner.dropPrinter id socket = some inner) :
    w.inner.Frees (· = id) inner ∧ inner.Consistent [] := by
  obtain ⟨p, -, rfl⟩ := Option.map_eq_some_iff.1 h
  split
  · rename_i name hname
    have hc' := hc.stack (k := (w.inner.stack.nbpUnregister name socket).2) rfl
    have hfrees := NetInner.frees_remove
      { w.inner with stack := (w.inner.stack.nbpUnregister name socket).2 } id
    exact ⟨⟨hfrees.freed, hfrees.slots, hfrees.generation⟩, NetInner.consistent_remove hc' id⟩
  · exact ⟨NetInner.frees_remove w.inner id, NetInner.consistent_remove hc id⟩

theorem Valid.dropHandle (hv : w.Valid) {w' : World} (hmem : h ∈ w.handles)
    (hdrop : w.dropHandle h = some w') : w.Steps (.drop h) w' := by
  obtain ⟨slot, hfinds⟩ := hv.finds h hmem
  have hk := hfinds.keeps
  unfold World.dropHandle at hdrop
  split at hdrop
  · rename_i hstake
    obtain rfl := Option.some.inj hdrop
    exact hv.release hmem (by rw [hstake]; trivial) (fun hatp => by cases hstake.symm.trans hatp)
      (NetInner.frees_remove _ _) (NetInner.consistent_remove hv.consistent _)
  · rename_i hstake
    split_ifs at hdrop with hborrow
    obtain rfl := Option.some.inj hdrop
    exact hv.release hmem (by rw [hstake]; trivial) (fun _ => hborrow)
      (NetInner.frees_remove _ _) (NetInner.consistent_remove hv.consistent _)
  · rename_i tid hstake
    obtain ⟨s, hs, rfl⟩ := Option.map_eq_some_iff.1 hdrop
    obtain ⟨slot', hs', hatp⟩ := slot_of_atp hs
    exact hv.put hs' (fun t heq => by cases heq) (fun h' hmem' =>
      .inl ⟨List.mem_of_mem_erase hmem', fun _ hk => keeps_atp hatp hk⟩)
      (hv.apart.sublist List.erase_sublist)
  · rename_i part hstake
    obtain ⟨s, hs, rfl⟩ := Option.map_eq_some_iff.1 hdrop
    obtain ⟨slot', hs', hadsp⟩ := slot_of_adsp hs
    obtain rfl := Option.some.inj (hfinds.here.symm.trans hs')
    have hquiet : part.drop.Quiet := by cases part <;> trivial
    refine hv.put_call hs' hadsp hquiet (fun id hcall => ?_) List.erase_sublist
      fun h' hmem' hslot part' hpart' hgives => ?_
    · rw [hstake] at hk
      obtain ⟨t, ht, hheld⟩ := hk
      obtain rfl := Hosted.adsp.inj (ht.symm.trans hadsp)
      cases part with
      | listener => cases hcall
      | stream j =>
        cases hcall
        exact hheld
      | connect handle => cases hcall
    · have hsame : part = part' := by
        cases part with
        | listener => exact Option.some.inj hgives
        | stream j => exact Option.some.inj hgives
        | connect handle => exact Option.some.inj hgives
      obtain ⟨tid, htid⟩ := apart_of_mem_erase hv.apart hmem hmem' hslot.symm
        (by rw [hstake, hpart', hsame])
      cases hstake.symm.trans htid
  · rename_i generation hstake
    obtain ⟨inner, hinner, rfl⟩ := Option.map_eq_some_iff.1 hdrop
    obtain ⟨hfrees, hc⟩ := dropPrinter_frees hv.consistent hinner
    exact hv.release hmem (by rw [hstake]; trivial) (fun hatp => by cases hstake.symm.trans hatp)
      hfrees hc

/-! ## Turns of the runner -/

/-- A state machine that has nothing to send stays as it is when it is asked. -/
theorem take_of_adsp {s : AdspState} (hadsp : slot.hosted = .adsp s) (hnone : slot.take.1 = none) :
    s.ep.outbox = [] ∧ slot.take.2 = slot := by
  obtain ⟨hosted, sockets, generation⟩ := slot
  obtain rfl : hosted = .adsp s := hadsp
  have hnil : s.ep.outbox = [] := by
    simpa [Slot.take, Hosted.pollTransmit, AdspState.pollTransmit, AdspEndpoint.pollTransmit]
      using hnone
  refine ⟨hnil, ?_⟩
  simp [Slot.take, Hosted.pollTransmit, AdspState.pollTransmit, AdspEndpoint.pollTransmit, hnil]
  rw [← hnil]

theorem frees_sweep (hv : w.Valid) {now : Micros} {slots : List (Option Slot)}
    (hframes : w.inner.stack.outbox = []) (ht : takeFirst Slot.take w.inner.slots = (none, slots))
    {lost : List Lost} :
    w.Frees (.turn now) { w with inner := ({ w.inner with slots } : NetInner).sweep, lost } := by
  intro id slot hs
  have hfirst : (takeFirst Slot.take w.inner.slots).1 = none := by rw [ht]
  obtain ⟨hnone, htaken⟩ := takeFirst_none hfirst hs
  rw [ht] at htaken
  have hasked : ({ w.inner with slots } : NetInner).slot id = some slot.take.2 := htaken
  by_cases hdone : id ∈ ({ w.inner with slots } : NetInner).done
  · obtain ⟨slot', hs', hfinished⟩ := NetInner.mem_done.1 hdone
    obtain rfl := Option.some.inj (hasked.symm.trans hs')
    rcases hhosted : slot.hosted with s | s | s | p
    · rw [Slot.take, hhosted] at hfinished
      cases hfinished
    · rw [Slot.take, hhosted] at hfinished
      cases hfinished
    · obtain ⟨hqueued, hsame⟩ := take_of_adsp hhosted hnone
      rw [hsame, hhosted] at hfinished
      refine .inr (.swept hhosted hfinished (fun h hmem hslot => ?_) hqueued hframes)
      subst hslot
      have hnot := hv.not_finished hmem hs
      rw [hhosted] at hnot
      cases hnot.symm.trans hfinished
    · rw [Slot.take, hhosted] at hfinished
      cases hfinished
  · have hkept := (NetInner.frees_foldl_remove ({ w.inner with slots } : NetInner).done
      { w.inner with slots }).slots id hdone
    exact .inl ⟨⟨_, hkept.trans hasked⟩, rfl⟩

theorem frees_turn (hv : w.Valid) {now : Micros} (hclash : w.Unclashed (.turn now))
    (h : w.inner.Turns now inner) (lost : List Lost) :
    w.Frees (.turn now) { w with inner, lost } := by
  cases h with
  | event hruns => exact Stays.frees (stays_runs hruns rfl)
  | @delivers dg _ hevent hdeliver =>
    simp only [Unclashed, hevent] at hclash
    exact Stays.frees (stays_runs (runs_trans (runs_stack w.inner.stack.sockets_pollEvent)
      (NetInner.runs_deliver hclash hdeliver)) rfl)
  | frame hruns => exact Stays.frees (stays_runs hruns rfl)
  | @moves id t slots hevents hframe ht =>
    have htake := w.inner.runs_take
    rw [ht] at htake
    refine Stays.frees (stays_runs ?_ rfl)
    exact runs_trans htake (runs_stack (Stack.sockets_sendDdp _ _ _ _ _ _))
  | sweeps hevents hframe ht => exact frees_sweep hv hframe ht

theorem Valid.turn_valid (hv : w.Valid) {now : Micros} (hclash : w.Unclashed (.turn now))
    (h : w.inner.Turns now inner) (lost : List Lost) : ({ w with inner, lost } : World).Valid := by
  cases h with
  | event hruns hevents hquiet => exact hv.runs_valid hruns lost
  | @delivers dg _ hevent hdeliver =>
    simp only [Unclashed, hevent] at hclash
    exact hv.runs_valid (runs_trans (runs_stack w.inner.stack.sockets_pollEvent)
      (NetInner.runs_deliver hclash hdeliver)) lost
  | frame hruns hevents hframe => exact hv.runs_valid hruns lost
  | @moves id t slots hevents hframe ht =>
    have htake := w.inner.runs_take
    rw [ht] at htake
    exact hv.runs_valid (runs_trans htake (runs_stack (Stack.sockets_sendDdp _ _ _ _ _ _))) lost
  | @sweeps slots hevents hframe ht =>
    have htake := w.inner.runs_take
    rw [ht] at htake
    have hv' := hv.runs_valid htake lost
    refine hv'.free (NetInner.frees_foldl_remove _ _) (NetInner.consistent_sweep hv'.consistent)
      (List.Sublist.refl _) fun h hmem hdone => ?_
    obtain ⟨slot, hs, hfinished⟩ := NetInner.mem_done.1 hdone
    rw [hv'.not_finished hmem hs] at hfinished
    cases hfinished

theorem sendTransmit_error {s : Stack} {t : Transmit} {e : SendError}
    (h : (s.sendTransmit t).1 = .error e) :
    s.ourAddress = none ∨ MAX_DDP_PAYLOAD < t.payload.length := by
  unfold Stack.sendTransmit Stack.sendDdp at h
  split at h
  · rename_i hnone
    exact .inl hnone
  dsimp only at h
  split_ifs at h with hlong
  exact .inr hlong

theorem mem_loses {l : Lost} (hmem : l ∈ w.loses) :
    (∃ id slot, w.inner.slot id = some slot ∧ slot.take.1 = some l.datagram ∧
      l.occupant = w.occupant id) ∧
    (w.inner.stack.ourAddress = none ∨ MAX_DDP_PAYLOAD < l.datagram.payload.length) := by
  unfold loses at hmem
  split_ifs at hmem
  · split at hmem
    · rename_i x htake
      split at hmem
      · rename_i e hsend
        obtain rfl := List.mem_singleton.1 hmem
        obtain ⟨slot, hs, hgiven⟩ := of_takeFirst htake
        exact ⟨⟨x.1, slot, hs, hgiven, rfl⟩, sendTransmit_error hsend⟩
      · cases hmem
    · cases hmem
  · cases hmem

theorem Valid.turn (hv : w.Valid) {now : Micros} (hclash : w.Unclashed (.turn now))
    (h : w.inner.Turns now inner) :
    w.Steps (.turn now) { w with inner, lost := w.lost ++ w.loses } :=
  ⟨hv.turn_valid hclash h _, frees_turn hv hclash h _, w.loses, rfl, fun _ hmem => mem_loses hmem⟩

/-! ## Every step -/

section
variable {encode : Bytes → Option NbpName}

/-- A handle for the name of a printer moves the registration, and nothing in the slots. -/
theorem Valid.rename (hv : w.Valid) {id : ℕ} {generation : UInt32} {name nbpType : Option Bytes}
    {r : Except RenameError Unit × NetInner}
    (h : w.inner.reregister encode id generation name nbpType = some r) :
    w.Steps a { w with inner := r.2 } := by
  unfold NetInner.reregister at h
  split at h
  · obtain rfl := Option.some.inj h
    exact hv.same
  · rename_i p sockets generation' hget
    obtain rfl := Option.some.inj h
    have hs : w.inner.slot id = some ⟨.port p, sockets, generation'⟩ :=
      (Option.filter_eq_some_iff.1 hget).1
    have hv' := hv.put (a := a) (o := .port { p with
        name := (PortName.reregister encode (some p.name) w.inner.stack.nbp name nbpType).2.1.getD
          p.name }) hs (fun s heq => by cases heq)
      (fun h' hmem => .inl ⟨hmem, fun _ hk => keeps_port rfl hk⟩) hv.apart
    refine ⟨(hv'.valid.stack (a := a) ?_).valid, hv'.frees, loses_same rfl⟩
    rfl
  · cases h

/-- **Every step does what it is to do.** -/
theorem Valid.step (hv : w.Valid) {a : NetAct} {w' : World} (hclash : w.Unclashed a)
    (h : w.step encode a = some w') : w.Steps a w' := by
  cases a with
  | bindDdp socket =>
    obtain rfl := Option.some.inj h
    exact hv.bound (fun _ _ => rfl) (fun _ _ s heq => by cases heq) fun _ _ slot hs => ⟨_, hs⟩
  | bindAtp socket =>
    obtain rfl := Option.some.inj h
    exact hv.bound (fun _ _ => rfl) (fun _ _ s heq => by cases heq) fun _ _ slot hs => ⟨_, hs⟩
  | listen socket =>
    obtain rfl := Option.some.inj h
    refine hv.bound (fun _ _ => rfl) (fun n stack s heq => ?_) fun n stack slot hs => ?_
    · obtain rfl := Hosted.adsp.inj heq
      rw [AdspState.streams_listen]
      exact ⟨.nil, nofun, nofun, nofun⟩
    · refine ⟨_, hs, ?_⟩
      rw [AdspState.streams_listen]
      trivial
  | connect remote now =>
    obtain ⟨r, hr, rfl⟩ := Option.map_eq_some_iff.1 h
    rcases NetInner.connect_cases hv.consistent hr with ⟨e, he, hruns⟩ |
      ⟨id, n, stack, handle, a, hok, hconnect, hfills⟩
    · rw [he]
      exact hv.runs hruns
    · rw [hok]
      have hstreams := AdspState.streams_connect hconnect
      refine hv.hold hfills (fun s heq => ?_) fun slot hs _ => ⟨a, hs, ?_⟩
      · obtain rfl := Hosted.adsp.inj heq
        rw [hstreams]
        have hnone : ∀ handle' id, Function.update (fun _ => none) handle (some none) handle' ≠
            some (some (Except.ok id : Except AdspStreamError UInt32)) := by
          intro handle' id
          rw [Function.update_apply]
          split_ifs <;> nofun
        exact ⟨.nil, nofun, fun handle' id ha => absurd ha (hnone handle' id),
          fun handle₁ _ id h₁ => absurd h₁ (hnone handle₁ id)⟩
      · rw [hstreams]
        simp [Streams.Held]
  | bindPrinter model name now =>
    obtain ⟨r, hr, rfl⟩ := Option.map_eq_some_iff.1 h
    rcases NetInner.bindPrinter_cases hv.consistent hr with ⟨e, he, hruns⟩ | ⟨id, n, p, hok, hfills⟩
    · rw [he]
      exact hv.runs hruns
    · rw [hok]
      obtain ⟨sockets, -, hfilled⟩ := hfills.filled
      refine hv.hold hfills (fun s heq => by cases heq) fun slot hs hgeneration => ⟨⟨p, hs⟩, ?_⟩
      rw [hgeneration, NetInner.generation, hfilled]
      rfl
  | sendTo h dest proto payload =>
    simp only [World.step] at h
    split_ifs at h
    obtain rfl := Option.some.inj h
    exact hv.stack (Stack.sockets_sendDdp _ _ _ _ _ _)
  | recv h =>
    simp only [World.step] at h
    split_ifs at h
    obtain ⟨s, hs, rfl⟩ := Option.map_eq_some_iff.1 h
    obtain ⟨slot, hslot, hraw⟩ := slot_of_raw hs
    exact hv.put_same hslot (fun _ => Hosted.noConfusion) fun _ => keeps_raw hraw
  | atp h c =>
    simp only [World.step] at h
    split_ifs at h
    obtain ⟨s, hs, h⟩ := Option.bind_eq_some_iff.1 h
    obtain ⟨s', -, rfl⟩ := Option.map_eq_some_iff.1 h
    obtain ⟨slot, hslot, hatp⟩ := slot_of_atp hs
    exact hv.put_same hslot (fun _ => Hosted.noConfusion) fun _ => keeps_atp hatp
  | request h dest userBytes data bitmap now =>
    simp only [World.step] at h
    split_ifs at h with hcond
    obtain ⟨s, hs, h⟩ := Option.bind_eq_some_iff.1 h
    obtain ⟨r, -, rfl⟩ := Option.map_eq_some_iff.1 h
    obtain ⟨slot, hslot, hatp⟩ := slot_of_atp hs
    have hfinds := hv.finds_here hcond.1 hslot
    refine hv.put hslot (fun s heq => by cases heq) (fun h' hmem' => ?_)
      (List.pairwise_cons.2 ⟨fun h' _ _ _ => ⟨r.1, rfl⟩, hv.apart⟩)
    rcases List.mem_cons.1 hmem' with rfl | hmem'
    · exact .inr ⟨rfl, hfinds.own, hfinds.socket, _, rfl⟩
    · exact .inl ⟨hmem', fun _ hk => keeps_atp hatp hk⟩
  | outcome h =>
    simp only [World.step] at h
    split_ifs at h with hmem
    split at h
    · rename_i tid hstake
      obtain ⟨s, hs, rfl⟩ := Option.map_eq_some_iff.1 h
      obtain ⟨slot, hslot, hatp⟩ := slot_of_atp hs
      unfold World.lookOutcome
      split
      · exact hv.same
      · exact hv.put hslot (fun s heq => by cases heq)
          (fun h' hmem' => .inl ⟨List.mem_of_mem_erase hmem', fun _ hk => keeps_atp hatp hk⟩)
          (hv.apart.sublist List.erase_sublist)
    all_goals cases h
  | accept h =>
    simp only [World.step] at h
    split_ifs at h with hcond
    obtain ⟨s, hs, rfl⟩ := Option.map_eq_some_iff.1 h
    obtain ⟨slot, hslot, hadsp⟩ := slot_of_adsp hs
    exact hv.accept hcond.1 hslot hadsp
  | connected h =>
    simp only [World.step] at h
    split_ifs at h with hmem
    split at h
    · rename_i handle hstake
      obtain ⟨s, hs, rfl⟩ := Option.map_eq_some_iff.1 h
      obtain ⟨slot, hslot, hadsp⟩ := slot_of_adsp hs
      exact hv.connected hmem hslot hadsp hstake
    all_goals cases h
  | stream h c =>
    simp only [World.step] at h
    split_ifs at h with hmem
    split at h
    · rename_i id hstake
      split_ifs at h with hid
      obtain ⟨s, hs, rfl⟩ := Option.map_eq_some_iff.1 h
      obtain ⟨slot, hslot, hadsp⟩ := slot_of_adsp hs
      have hquiet : c.Quiet := by
        cases c with
        | datagram src payload now => cases hid
        | poll now => cases hid
        | _ => trivial
      have hgives : Streams.givesUp c = none := by
        cases c with
        | dropListener => cases hid
        | dropStream j => cases hid
        | connectOutcome handle => cases hid
        | dropConnect handle => cases hid
        | _ => rfl
      refine hv.put_call hslot hadsp hquiet (fun j hc => ?_) (List.Sublist.refl _)
        fun _ _ _ part _ hpart => ?_
      · rw [hc] at hid
        cases hid
      · rw [hgives] at hpart
        cases hpart
    all_goals cases h
  | port h c =>
    simp only [World.step] at h
    split_ifs at h with hmem
    split at h
    · obtain ⟨p, hp, h⟩ := Option.bind_eq_some_iff.1 h
      obtain ⟨p', -, rfl⟩ := Option.map_eq_some_iff.1 h
      obtain ⟨slot, hslot, hport⟩ := slot_of_port hp
      exact hv.put_same hslot (fun _ => Hosted.noConfusion) fun _ => keeps_port hport
    all_goals cases h
  | nameHandle h =>
    simp only [World.step] at h
    split_ifs at h with hmem
    split at h
    · rename_i generation hstake
      obtain rfl := Option.some.inj h
      obtain ⟨slot, hfinds⟩ := hv.finds _ hmem
      refine ⟨⟨hv.consistent, hv.generation, hv.occupied, hv.owned, fun h' hmem' => ?_, hv.apart,
        fun n hn => ?_⟩, hv.same.frees, loses_same rfl⟩
      · obtain ⟨slot', hfinds'⟩ := hv.finds h' hmem'
        exact ⟨slot', hfinds'.here, hfinds'.own, hfinds'.socket, hfinds'.keeps⟩
      · rcases List.mem_cons.1 hn with rfl | hn
        · have hk := hfinds.keeps
          rw [hstake] at hk
          rw [← hfinds.own]
          exact hk.2.symm.trans (hv.occupied _ slot hfinds.here)
        · exact hv.names n hn
    all_goals cases h
  | rename n name nbpType =>
    simp only [World.step] at h
    split_ifs at h
    obtain ⟨r, hr, rfl⟩ := Option.map_eq_some_iff.1 h
    exact hv.rename hr
  | nbpRegister name socket =>
    obtain rfl := Option.some.inj h
    exact hv.stack (Stack.sockets_nbpRegister _ _ _)
  | nbpUnregister name socket =>
    obtain rfl := Option.some.inj h
    exact hv.stack rfl
  | drop h =>
    simp only [World.step] at h
    split_ifs at h with hmem
    exact hv.dropHandle hmem h
  | frame data now =>
    obtain ⟨inner, hinner, rfl⟩ := Option.map_eq_some_iff.1 h
    exact hv.pollTimers (Stack.sockets_handleFrame _ _ _) hclash hinner
  | timers now =>
    obtain ⟨inner, hinner, rfl⟩ := Option.map_eq_some_iff.1 h
    exact hv.pollTimers rfl hclash hinner
  | turn now =>
    obtain ⟨r, hr, rfl⟩ := Option.map_eq_some_iff.1 h
    exact hv.turn hclash (NetInner.turn_cases (r := r.1) hr)

theorem Valid.delivers (hv : w.Valid)
    (h : w.step encode a = some w') : w.Delivers a w' := by
  rintro now dg rfl hevent id slot hs
  obtain ⟨r, hr, rfl⟩ := Option.map_eq_some_iff.1 h
  have hturns := NetInner.turn_cases (r := r.1) hr
  have hnil : w.inner.stack.events ≠ [] := by
    intro hnil
    simp [Stack.pollEvent, hnil] at hevent
  generalize r.2 = inner at hturns
  cases hturns with
  | event hruns hevents hquiet => exact absurd hevent (hquiet dg)
  | @delivers dg' _ hevent' hdeliver =>
    obtain rfl := StackEvent.datagram.inj (Option.some.inj (hevent'.symm.trans hevent))
    have hc := hv.consistent.stack w.inner.stack.sockets_pollEvent
    exact NetInner.deliver_reaches hc hdeliver hs
  | frame hruns hevents => exact absurd hevents hnil
  | moves hevents => exact absurd hevents hnil
  | sweeps hevents => exact absurd hevents hnil

end

end

instance (w : World) (a : NetAct) : Decidable (w.Unclashed a) := by
  unfold Unclashed
  split
  · split <;> infer_instance
  all_goals infer_instance

/-! ## Every run -/

section
variable {encode : Bytes → Option NbpName} {cfg : StackConfig} {now : Micros} {as : List NetAct}

theorem along_run
    (hclash :
      Along (partialStep (World.step encode)) (Reached Unclashed) (some (.new cfg now)) as) :
    Along (partialStep (World.step encode))
        (Reached fun w a => ∀ w', w.step encode a = some w' → w.Delivers a w' ∧ w.Steps a w')
        (some (.new cfg now)) as ∧
      ∀ w, run (partialStep (World.step encode)) (some (.new cfg now)) as = some w → w.Valid :=
  along_reached (f := World.step encode)
    (fun _ _ hv hclash _ h => ⟨hv.delivers h, hv.step hclash h⟩)
    (fun _ _ _ hv hclash h => (hv.step hclash h).valid)
    (fun _ hw => Option.some.inj hw ▸ Valid.new cfg now) hclash

end

/-- A node takes its address. -/
def acquiring : List NetAct :=
  (List.range 9).flatMap fun i => [.timers (200000 * (i + 1)), .turn (200000 * (i + 1)),
    .turn (200000 * (i + 1))]

/-- A client asks a socket for a stream, and is answered. -/
def opening (socket : UInt8) : List NetAct :=
  [.frame ([114, 5, 1, 0, 26, socket, 200, 7] ++ ((⟨.openConnRequest, 7, 0, 0, 4096, 0⟩ :
      AdspPacket).toBytes ++ [1, 0, 0, 0, 0, 0, 0, 0])) 2000000,
    .turn 2000000, .turn 2000000, .turn 2000000]

/-- A listener and its stream are dropped, and their slot is swept; a printer is bound there, named
    and dropped, and the slot bound again. Another printer and a stream stay. -/
def rebinding : List NetAct :=
  .listen (some 130) :: acquiring ++ opening 130 ++
    [.accept ⟨0, .adsp .listener, 130, 0⟩, .drop ⟨0, .adsp .listener, 130, 0⟩,
      .drop ⟨0, .adsp (.stream 0), 130, 0⟩, .turn 2000000, .turn 2000000, .turn 2000000,
      .bindPrinter (.pap [0x4C] [0x69]) [0x50] 2000000, .nameHandle ⟨0, .printer 1, 169, 1⟩,
      .drop ⟨0, .printer 1, 169, 1⟩, .bindDdp (some 200),
      .bindPrinter (.pap [0x4C] [0x69]) [0x51] 2000000, .nameHandle ⟨1, .printer 3, 125, 3⟩,
      .listen (some 131)] ++ opening 131 ++ [.accept ⟨2, .adsp .listener, 131, 4⟩]

theorem unclashed_rebinding : Along (partialStep (World.step NbpName.fromWire)) (Reached Unclashed)
    (some (.new ⟨.user, 1, true⟩ 0)) rebinding := by decide +kernel

theorem run_rebinding : ∃ w, run (partialStep (World.step NbpName.fromWire))
      (some (.new ⟨.user, 1, true⟩ 0)) rebinding = some w ∧
    200 ∈ w.inner.stack.sockets ∧ w.handles.length = 4 ∧
      w.names.map (fun n => (w.inner.tryGet n.slot n.generation).isSome) = [true, false] := by
  have hany : ((run (partialStep (World.step NbpName.fromWire)) (some (.new ⟨.user, 1, true⟩ 0))
      rebinding).any fun w => decide (200 ∈ w.inner.stack.sockets ∧ w.handles.length = 4 ∧
        w.names.map (fun n => (w.inner.tryGet n.slot n.generation).isSome) = [true, false])) =
      true := by decide +kernel
  obtain ⟨w, hrun, hw⟩ := (Option.any_eq_true _ _).1 hany
  exact ⟨w, hrun, of_decide_eq_true hw⟩

section
variable (encode : Bytes → Option NbpName) (cfg : StackConfig) (now : Micros) (as : List NetAct)
  (hclash : Along (partialStep (World.step encode)) (Reached Unclashed) (some (.new cfg now)) as)
include hclash

/-- **Sockets**: a socket number is open where just one slot lists it, and a datagram for it is
    led there. -/
theorem sockets_run (w : World)
    (hrun : run (partialStep (World.step encode)) (some (.new cfg now)) as = some w) (n : UInt8) :
    (n ∈ w.inner.stack.sockets ↔
      ∃ id, (∀ j, w.inner.Lists n j ↔ j = id) ∧ w.inner.bySocket[n]? = some id) ∧
    ∀ id, w.inner.bySocket[n]? = some id ↔ w.inner.Lists n id := by
  have hc := ((along_run hclash).2 w hrun).consistent
  refine ⟨?_, fun id => hc.mapped n id⟩
  rw [hc.opened n]
  constructor
  · rintro (hn | ⟨id, hid⟩)
    · cases hn
    · have hmap := (hc.mapped n id).2 hid
      refine ⟨id, fun j => ⟨fun hj => ?_, fun hj => hj ▸ hid⟩, hmap⟩
      exact Option.some.inj (((hc.mapped n j).2 hj).symm.trans hmap)
  · rintro ⟨id, hid, -⟩
    exact .inr ⟨id, (hid id).2 rfl⟩

/-- **Handles**: a handle that is alive finds the state machine it was made for, a printer also by
    the generation. -/
theorem handles_run (w : World)
    (hrun : run (partialStep (World.step encode)) (some (.new cfg now)) as = some w) :
    ∀ h ∈ w.handles, ∃ slot, w.Finds h slot ∧ ∀ generation, h.stake = .printer generation →
      w.inner.tryGet h.slot generation = some slot := by
  intro h hmem
  obtain ⟨slot, hfinds⟩ := ((along_run hclash).2 w hrun).finds h hmem
  refine ⟨slot, hfinds, fun generation hstake => ?_⟩
  have hk := hfinds.keeps
  rw [hstake] at hk
  rw [NetInner.tryGet, hfinds.here]
  exact Option.filter_eq_some_iff.2 ⟨rfl, decide_eq_true hk.2⟩

/-- **Names**: what the name of a printer finds is the printer, or came so many fillings after it
    that the generations have wrapped. -/
theorem names_run (w : World)
    (hrun : run (partialStep (World.step encode)) (some (.new cfg now)) as = some w) :
    ∀ n ∈ w.names, ∀ slot, w.inner.tryGet n.slot n.generation = some slot →
      w.occupant n.slot ≡ n.occupant [MOD 2 ^ 32] := by
  intro n hn slot hget
  have hv := (along_run hclash).2 w hrun
  obtain ⟨hs, hgeneration⟩ := Option.filter_eq_some_iff.1 hget
  have heq : UInt32.ofNat (w.occupant n.slot) = UInt32.ofNat n.occupant :=
    (hv.occupied n.slot slot hs).symm.trans ((of_decide_eq_true hgeneration).trans (hv.names n hn))
  have hmod : w.occupant n.slot % 2 ^ 32 = n.occupant % 2 ^ 32 := by
    simpa only [UInt32.toNat_ofNat'] using congrArg UInt32.toNat heq
  exact hmod

/-- **Slots**: a datagram reaches the slot that lists its socket and no other, a slot is freed with
    its owner or once it is finished, and what a slot gives is sent or has no way out. -/
theorem slots_run : Along (partialStep (World.step encode))
    (Reached fun w a => ∀ w', w.step encode a = some w' →
      w.Delivers a w' ∧ w.Frees a w' ∧ w.Loses w') (some (.new cfg now)) as :=
  Along.mono _ (fun _ _ h w hw w' hw' =>
    ⟨(h w hw w' hw').1, (h w hw w' hw').2.frees, (h w hw w' hw').2.loses⟩) (along_run hclash).1

end

theorem sockets_run_rebinding : ∃ w : World, 200 ∈ w.inner.stack.sockets ∧
    ∃ id, (∀ j, w.inner.Lists 200 j ↔ j = id) ∧ w.inner.bySocket[(200 : UInt8)]? = some id := by
  obtain ⟨w, hrun, hopen, -⟩ := run_rebinding
  exact ⟨w, hopen, (sockets_run _ _ _ _ unclashed_rebinding w hrun 200).1.1 hopen⟩

theorem handles_run_rebinding :
    ∃ w : World, w.handles.length = 4 ∧ ∀ h ∈ w.handles, ∃ slot, w.Finds h slot := by
  obtain ⟨w, hrun, -, hfour, -⟩ := run_rebinding
  exact ⟨w, hfour, fun h hmem =>
    (handles_run _ _ _ _ unclashed_rebinding w hrun h hmem).imp fun _ hfinds => hfinds.1⟩

theorem names_run_rebinding : ∃ w : World,
    w.names.map (fun n => (w.inner.tryGet n.slot n.generation).isSome) = [true, false] ∧
      ∀ n ∈ w.names, ∀ slot, w.inner.tryGet n.slot n.generation = some slot →
        w.occupant n.slot ≡ n.occupant [MOD 2 ^ 32] := by
  obtain ⟨w, hrun, -, -, hnames⟩ := run_rebinding
  exact ⟨w, hnames, names_run _ _ _ _ unclashed_rebinding w hrun⟩

theorem slots_run_rebinding : Along (partialStep (World.step NbpName.fromWire))
    (Reached fun w a => ∀ w', w.step NbpName.fromWire a = some w' →
      w.Delivers a w' ∧ w.Frees a w' ∧ w.Loses w') (some (.new ⟨.user, 1, true⟩ 0)) rebinding :=
  slots_run _ _ _ _ unclashed_rebinding

end World

end TailTalk
