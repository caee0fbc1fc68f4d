/-
  Who holds the streams of an ADSP socket.

  A stream waits to be accepted, or is the outcome of a connect that its caller
  has not looked at, or is in the hands of its user; no stream has two holders
  (`Owned`).  The numbers of streams wrap; `Unclashed` says that a new stream
  is not numbered like one in use.
-/
import Mathlib.Data.Set.Insert
import Mathlib.Logic.Function.Basic
import Mathlib.Logic.Relation
import TailTalk.Lib.Run
import TailTalk.Net.Adsp

namespace TailTalk

open Lib

/-- What of an ADSP socket decides who holds its streams. -/
@[ext] structure Streams where
  /-- the numbers in use -/
  live : Set UInt32
  accept : List UInt32
  connects : UInt16 → Option (Option (Except AdspStreamError UInt32))
  listening : Prop

/-- What a handle holds of an ADSP socket. -/
inductive StreamStake where
  | listener
  | stream (id : UInt32)
  | connect (handle : UInt16)
deriving DecidableEq

namespace Streams

/-- The stream is the outcome of a connect, not looked at. -/
def Awaits (t : Streams) (handle : UInt16) (id : UInt32) : Prop :=
  t.connects handle = some (some (.ok id))

/-- No stream has two holders. -/
structure Owned (t : Streams) : Prop where
  nodup : t.accept.Nodup
  accepted : ∀ id ∈ t.accept, id ∈ t.live
  awaited : ∀ handle id, t.Awaits handle id → id ∈ t.live ∧ id ∉ t.accept
  unique : ∀ handle handle' id, t.Awaits handle id → t.Awaits handle' id → handle = handle'

/-- A part of the socket that a handle holds is there. -/
def Held (t : Streams) : StreamStake → Prop
  | .listener => t.listening
  | .stream id => id ∈ t.live ∧ id ∉ t.accept ∧ ∀ handle, ¬ t.Awaits handle id
  | .connect handle => t.connects handle ≠ none

/-! ## Events -/

/-- What sorting an event can do. -/
inductive Sorts (t : Streams) : Streams → Prop
  | same : Sorts t t
  | inbound {id} (hfresh : id ∉ t.live) :
      Sorts t { t with live := insert id t.live, accept := t.accept ++ [id] }
  | outbound {handle id} (hfresh : id ∉ t.live) (hwaits : t.connects handle = some none) :
      Sorts t { t with
        live := insert id t.live
        connects := Function.update t.connects handle (some (some (.ok id))) }
  | failed {handle} (hthere : t.connects handle ≠ none) :
      Sorts t { t with
        connects := Function.update t.connects handle (some (some (.error .openFailed))) }

section
variable {t t' : Streams}

theorem awaits_update {handle handle' : UInt16}
    {o : Option (Option (Except AdspStreamError UInt32))} {id : UInt32}
    (h : Function.update t.connects handle o handle' = some (some (.ok id))) :
    (handle' = handle ∧ o = some (some (.ok id))) ∨ (handle' ≠ handle ∧ t.Awaits handle' id) := by
  by_cases heq : handle' = handle
  · subst heq
    rw [Function.update_self] at h
    exact .inl ⟨rfl, h⟩
  · rw [Function.update_of_ne heq] at h
    exact .inr ⟨heq, h⟩

theorem Owned.sorts (ht : t.Owned) (h : Sorts t t') : t'.Owned := by
  cases h with
  | same => exact ht
  | @inbound id hfresh =>
    have hnew : id ∉ t.accept := fun hmem => hfresh (ht.accepted id hmem)
    constructor
    · exact List.nodup_append.2 ⟨ht.nodup, List.nodup_singleton id, fun a ha b hb heq =>
        hnew (by rwa [← List.mem_singleton.1 hb, ← heq])⟩
    · intro j hj
      rcases List.mem_append.1 hj with hj | hj
      · exact .inr (ht.accepted j hj)
      · exact .inl (List.mem_singleton.1 hj)
    · intro handle j hj
      obtain ⟨hlive, haccept⟩ := ht.awaited handle j hj
      refine ⟨.inr hlive, fun hmem => ?_⟩
      rcases List.mem_append.1 hmem with hmem | hmem
      · exact haccept hmem
      · exact hfresh (List.mem_singleton.1 hmem ▸ hlive)
    · exact ht.unique
  | @outbound handle id hfresh hwaits =>
    constructor
    · exact ht.nodup
    · exact fun j hj => .inr (ht.accepted j hj)
    · intro handle' j hj
      rcases awaits_update hj with ⟨-, ho⟩ | ⟨-, hj⟩
      · cases ho
        exact ⟨.inl rfl, fun hmem => hfresh (ht.accepted _ hmem)⟩
      · exact ⟨.inr (ht.awaited _ _ hj).1, (ht.awaited _ _ hj).2⟩
    · intro handle₁ handle₂ j h₁ h₂
      rcases awaits_update h₁ with ⟨heq₁, ho₁⟩ | ⟨-, hold₁⟩
      · cases ho₁
        rcases awaits_update h₂ with ⟨heq₂, -⟩ | ⟨-, hold₂⟩
        · rw [heq₁, heq₂]
        · exact absurd (ht.awaited _ _ hold₂).1 hfresh
      · rcases awaits_update h₂ with ⟨-, ho₂⟩ | ⟨-, hold₂⟩
        · cases ho₂
          exact absurd (ht.awaited _ _ hold₁).1 hfresh
        · exact ht.unique _ _ _ hold₁ hold₂
  | @failed handle hthere =>
    have hold : ∀ {handle' j}, Function.update t.connects handle
        (some (some (.error .openFailed))) handle' = some (some (.ok j)) → t.Awaits handle' j := by
      intro handle' j hj
      rcases awaits_update hj with ⟨-, ho⟩ | ⟨-, hj⟩
      · cases ho
      · exact hj
    exact ⟨ht.nodup, ht.accepted, fun _ _ hj => ht.awaited _ _ (hold hj),
      fun _ _ _ h₁ h₂ => ht.unique _ _ _ (hold h₁) (hold h₂)⟩

theorem Held.sorts {p : StreamStake} (hp : t.Held p) (h : Sorts t t') : t'.Held p := by
  cases h with
  | same => exact hp
  | @inbound id hfresh =>
    cases p with
    | listener => exact hp
    | stream j =>
      obtain ⟨hlive, haccept, hawaits⟩ := hp
      refine ⟨.inr hlive, fun hmem => ?_, hawaits⟩
      rcases List.mem_append.1 hmem with hmem | hmem
      · exact haccept hmem
      · exact hfresh (List.mem_singleton.1 hmem ▸ hlive)
    | connect handle => exact hp
  | @outbound handle id hfresh hwaits =>
    cases p with
    | listener => exact hp
    | stream j =>
      obtain ⟨hlive, haccept, hawaits⟩ := hp
      refine ⟨.inr hlive, haccept, fun handle' hj => ?_⟩
      rcases awaits_update hj with ⟨-, ho⟩ | ⟨-, hj⟩
      · cases ho
        exact hfresh hlive
      · exact hawaits handle' hj
    | connect handle' =>
      intro hnone
      dsimp only at hnone
      by_cases heq : handle' = handle
      · rw [heq, Function.update_self] at hnone
        cases hnone
      · rw [Function.update_of_ne heq] at hnone
        exact hp hnone
  | @failed handle hthere =>
    cases p with
    | listener => exact hp
    | stream j =>
      obtain ⟨hlive, haccept, hawaits⟩ := hp
      refine ⟨hlive, haccept, fun handle' hj => ?_⟩
      rcases awaits_update hj with ⟨-, ho⟩ | ⟨-, hj⟩
      · cases ho
      · exact hawaits handle' hj
    | connect handle' =>
      intro hnone
      dsimp only at hnone
      by_cases heq : handle' = handle
      · rw [heq, Function.update_self] at hnone
        cases hnone
      · rw [Function.update_of_ne heq] at hnone
        exact hp hnone

/-! ## Calls -/

/-- The streams in `gone` are given up, and a connect among `looked` is forgotten. -/
inductive Moves (t : Streams) : AdspSocketCall → Streams → Prop
  | same {c} : Moves t c t
  | accept {id rest} (haccept : t.accept = id :: rest) :
      Moves t .acceptNext { t with accept := rest }
  | dropListener {live} (hlive : ∀ id, id ∈ live ↔ id ∈ t.live ∧ id ∉ t.accept) :
      Moves t .dropListener { t with live, accept := [], listening := False }
  | connectOutcome {handle o} (ho : t.connects handle = some (some o)) :
      Moves t (.connectOutcome handle)
        { t with connects := Function.update t.connects handle none }
  | dropConnect {handle live}
      (hlive : ∀ id, id ∈ live ↔ id ∈ t.live ∧ ¬ t.Awaits handle id) :
      Moves t (.dropConnect handle)
        { t with live, connects := Function.update t.connects handle none }
  | dropStream {id live} (hlive : ∀ j, j ∈ live ↔ j ∈ t.live ∧ j ≠ id) :
      Moves t (.dropStream id) { t with live }

/-- The part of the socket that a call gives up, once it has what it waits for. -/
def givesUp : AdspSocketCall → Option StreamStake
  | .dropListener => some .listener
  | .dropStream id => some (.stream id)
  | .connectOutcome handle | .dropConnect handle => some (.connect handle)
  | _ => none

theorem awaits_forget {handle handle' : UInt16} {id : UInt32}
    (h : Function.update t.connects handle none handle' = some (some (.ok id))) :
    handle' ≠ handle ∧ t.Awaits handle' id := by
  rcases awaits_update h with ⟨-, ho⟩ | hold
  · cases ho
  · exact hold

theorem Owned.moves {c : AdspSocketCall} (ht : t.Owned) (h : Moves t c t')
    (hstream : ∀ id, c = .dropStream id → t.Held (.stream id)) : t'.Owned := by
  cases h with
  | same => exact ht
  | accept haccept =>
    have hnodup := ht.nodup
    rw [haccept, List.nodup_cons] at hnodup
    have hmem : ∀ j, j ∈ _ → j ∈ t.accept := fun j hj => by
      rw [haccept]
      exact List.mem_cons_of_mem _ hj
    exact ⟨hnodup.2, fun j hj => ht.accepted j (hmem j hj),
      fun _ j hj => ⟨(ht.awaited _ j hj).1, fun hin => (ht.awaited _ j hj).2 (hmem j hin)⟩,
      ht.unique⟩
  | dropListener hlive =>
    exact ⟨List.nodup_nil, nofun, fun _ j hj => ⟨(hlive j).2 (ht.awaited _ j hj), nofun⟩,
      ht.unique⟩
  | connectOutcome ho =>
    exact ⟨ht.nodup, ht.accepted, fun _ j hj => ht.awaited _ j (awaits_forget hj).2,
      fun _ _ j h₁ h₂ => ht.unique _ _ j (awaits_forget h₁).2 (awaits_forget h₂).2⟩
  | @dropConnect handle live hlive =>
    refine ⟨ht.nodup, fun j hj => ?_, fun handle' j hj => ?_, fun _ _ j h₁ h₂ =>
      ht.unique _ _ j (awaits_forget h₁).2 (awaits_forget h₂).2⟩
    · exact (hlive j).2 ⟨ht.accepted j hj, fun ha => (ht.awaited _ j ha).2 hj⟩
    · obtain ⟨hne, hj⟩ := awaits_forget hj
      have := ht.awaited handle' j hj
      exact ⟨(hlive j).2 ⟨this.1, fun ha => hne (ht.unique _ _ j hj ha)⟩, this.2⟩
  | @dropStream id live hlive =>
    obtain ⟨-, haccept, hawaits⟩ := hstream id rfl
    refine ⟨ht.nodup, fun j hj => ?_, fun handle j hj => ?_, ht.unique⟩
    · exact (hlive j).2 ⟨ht.accepted j hj, fun heq => haccept (heq ▸ hj)⟩
    · have := ht.awaited handle j hj
      exact ⟨(hlive j).2 ⟨this.1, fun heq => hawaits handle (heq ▸ hj)⟩, this.2⟩

/-- What a handle holds stays until the call that gives it up. -/
theorem Held.moves {c : AdspSocketCall} {p : StreamStake} (hp : t.Held p) (h : Moves t c t')
    (hkept : givesUp c ≠ some p) : t'.Held p := by
  have hconnect : ∀ {handle handle' : UInt16}, t.connects handle' ≠ none → handle' ≠ handle →
      Function.update t.connects handle none handle' ≠ none := by
    intro handle handle' hthere hne
    rwa [Function.update_of_ne hne]
  cases h with
  | same => exact hp
  | accept haccept =>
    cases p with
    | listener => exact hp
    | stream j =>
      refine ⟨hp.1, fun hmem => hp.2.1 ?_, hp.2.2⟩
      rw [haccept]
      exact List.mem_cons_of_mem _ hmem
    | connect handle => exact hp
  | dropListener hlive =>
    cases p with
    | listener => exact absurd rfl hkept
    | stream j => exact ⟨(hlive j).2 ⟨hp.1, hp.2.1⟩, nofun, hp.2.2⟩
    | connect handle => exact hp
  | @connectOutcome handle o ho =>
    cases p with
    | listener => exact hp
    | stream j => exact ⟨hp.1, hp.2.1, fun _ hj => hp.2.2 _ (awaits_forget hj).2⟩
    | connect handle' =>
      exact hconnect hp fun heq => hkept (by rw [heq]; rfl)
  | @dropConnect handle live hlive =>
    cases p with
    | listener => exact hp
    | stream j =>
      exact ⟨(hlive j).2 ⟨hp.1, hp.2.2 handle⟩, hp.2.1, fun _ hj => hp.2.2 _ (awaits_forget hj).2⟩
    | connect handle' =>
      exact hconnect hp fun heq => hkept (by rw [heq]; rfl)
  | @dropStream id live hlive =>
    cases p with
    | listener => exact hp
    | stream j =>
      refine ⟨(hlive j).2 ⟨hp.1, fun heq => hkept (by rw [heq]; rfl)⟩, hp.2⟩
    | connect handle => exact hp

theorem Owned.accepts {id : UInt32} {rest : List UInt32} (ht : t.Owned)
    (haccept : t.accept = id :: rest) :
    ({ t with accept := rest } : Streams).Held (.stream id) ∧ ¬ t.Held (.stream id) := by
  have hmem : id ∈ t.accept := by simp [haccept]
  have hnodup := ht.nodup
  rw [haccept, List.nodup_cons] at hnodup
  exact ⟨⟨ht.accepted id hmem, hnodup.1, fun handle ha => (ht.awaited handle id ha).2 hmem⟩,
    fun hheld => hheld.2.1 hmem⟩

theorem Owned.outcome {handle : UInt16} {id : UInt32} (ht : t.Owned) (ha : t.Awaits handle id) :
    ({ t with connects := Function.update t.connects handle none } : Streams).Held (.stream id) ∧
      ¬ t.Held (.stream id) := by
  obtain ⟨hlive, haccept⟩ := ht.awaited handle id ha
  refine ⟨⟨hlive, haccept, fun handle' ha' => ?_⟩, fun hheld => hheld.2.2 handle ha⟩
  obtain ⟨hne, hold⟩ := awaits_forget ha'
  exact hne (ht.unique _ _ id hold ha)

end

end Streams

/-! ## The streams of a socket -/

namespace AdspState

/-- What of the socket decides it. -/
def streams (s : AdspState) : Streams where
  live := {id | s.conns[id]? ≠ none}
  accept := s.accept
  connects handle := s.connects[handle]?
  listening := s.listenerAlive = true

/-- A new stream is not numbered like one in use. -/
def Fresh (s : AdspState) (ev : AdspEvent) : Prop := s.adds ev = true → s.conns[s.nextId]? = none

instance (s : AdspState) (ev : AdspEvent) : Decidable (s.Fresh ev) :=
  inferInstanceAs (Decidable (_ → _))

/-- The events of an endpoint are sorted without two streams of one number. -/
def Unclashed (s : AdspState) (ep : AdspEndpoint) : Prop :=
  Along sortEvent Fresh { s with ep := { ep with events := [] } } ep.events

section
variable {s s' : AdspState}

theorem streams_eq {t : Streams} (hlive : ∀ id, s.conns[id]? ≠ none ↔ id ∈ t.live)
    (haccept : s.accept = t.accept) (hconnects : ∀ handle, s.connects[handle]? = t.connects handle)
    (hlistening : s.listenerAlive = true ↔ t.listening) : s.streams = t :=
  Streams.ext (Set.ext hlive) haccept (funext hconnects) (propext hlistening)

/-- A socket whose streams have only changed in place. -/
theorem streams_congr (hconns : ∀ id : UInt32, s'.conns[id]? = none ↔ s.conns[id]? = none)
    (haccept : s'.accept = s.accept) (hconnects : s'.connects = s.connects)
    (hlistening : s'.listenerAlive = s.listenerAlive) : s'.streams = s.streams := by
  refine streams_eq (fun id => not_congr (hconns id)) haccept (fun handle => ?_) ?_
  · rw [hconnects]
    rfl
  · rw [hlistening]
    rfl

/-- A stream changed in place. -/
theorem getElem?_insert_none {id : UInt32} {c c' : Conn} (hc : s.conns[id]? = some c)
    (j : UInt32) : (s.conns.insert id c')[j]? = none ↔ s.conns[j]? = none := by
  rw [getElem?_insert_eq]
  split_ifs with hj
  · simp [hj, hc]
  · rfl

@[simp] theorem streams_updateWindow (s : AdspState) : s.updateWindow.streams = s.streams := rfl

@[simp] theorem streams_closeKey (s : AdspState) (key : UInt16) :
    (s.closeKey key).streams = s.streams := rfl

@[simp] theorem streams_onKey (s : AdspState) (key : UInt16) (f : Conn → Conn) :
    (s.onKey key f).streams = s.streams := by
  unfold onKey
  split
  · rfl
  · rename_i hby
    exact streams_congr (getElem?_insert_none (byKey_eq_some hby).1) rfl rfl rfl

@[simp] theorem streams_follow (s : AdspState) (handle conn : UInt16) :
    (s.follow handle conn).streams = s.streams := by
  unfold follow
  split
  · split
    · rename_i hc
      exact streams_congr (getElem?_insert_none hc) rfl rfl rfl
    · rfl
  · rfl

theorem getElem?_connects_insert (s : AdspState) (handle : UInt16)
    (o : Option (Except AdspStreamError UInt32)) (handle' : UInt16) :
    (s.connects.insert handle o)[handle']? =
      Function.update s.streams.connects handle (some o) handle' := by
  rw [getElem?_insert_eq, Function.update_apply]
  rfl

theorem getElem?_connects_erase (s : AdspState) (handle handle' : UInt16) :
    (s.connects.erase handle)[handle']? =
      Function.update s.streams.connects handle none handle' := by
  rw [getElem?_erase_eq, Function.update_apply]
  rfl

/-- The numbers in use, with a new one. -/
theorem live_add (s : AdspState) (key : UInt16) (remote : ServiceAddress) (id : UInt32) :
    (s.add key remote).2.conns[id]? ≠ none ↔ id ∈ insert s.nextId s.streams.live := by
  simp only [add, getElem?_insert_eq, Set.mem_insert_iff]
  split_ifs with hid
  · simp [hid]
  · rw [or_iff_right hid]
    rfl

theorem sortEvent_sorts {ev : AdspEvent} (hfresh : s.Fresh ev) :
    s.streams.Sorts (s.sortEvent ev).streams := by
  cases ev with
  | opened conn remote inbound pending =>
    cases inbound with
    | true =>
      simp only [sortEvent]
      split_ifs with hroom
      · have hnew : s.nextId ∉ s.streams.live := fun h => h (hfresh (by simp [adds, hroom]))
        have heq := streams_eq
          (s := { (s.add conn remote).2 with accept := s.accept ++ [(s.add conn remote).1] })
          (t := { s.streams with
            live := insert s.nextId s.streams.live, accept := s.streams.accept ++ [s.nextId] })
          (s.live_add conn remote) rfl (fun _ => rfl) Iff.rfl
        rw [heq]
        exact .inbound hnew
      · exact .same
    | false =>
      simp only [sortEvent]
      rcases hw : s.connects[pending.getD conn]? with _ | o
      · simp only [streams_follow]
        exact .same
      cases o with
      | none =>
        have hnew : s.nextId ∉ s.streams.live := fun h => h (hfresh (by simp [adds, hw]))
        have heq := streams_eq
          (s := { (s.add conn remote).2 with
            connects := s.connects.insert (pending.getD conn) (some (.ok (s.add conn remote).1))
            outbound := s.outbound.insert (pending.getD conn) (s.add conn remote).1 })
          (t := { s.streams with
            live := insert s.nextId s.streams.live
            connects := Function.update s.streams.connects (pending.getD conn)
              (some (some (.ok s.nextId))) })
          (s.live_add conn remote) rfl (s.getElem?_connects_insert _ _) Iff.rfl
        dsimp only
        rw [heq]
        exact .outbound hnew hw
      | some o =>
        simp only [streams_follow]
        exact .same
  | openFailed conn =>
    simp only [sortEvent]
    split_ifs with hthere
    · obtain ⟨o, ho⟩ := (contains_iff_getElem? _ _).1 hthere
      have heq := streams_eq
        (s := { s with connects := s.connects.insert conn (some (.error .openFailed)) })
        (t := { s.streams with
          connects := Function.update s.streams.connects conn (some (some (.error .openFailed))) })
        (fun _ => Iff.rfl) rfl (s.getElem?_connects_insert _ _) Iff.rfl
      rw [heq]
      refine .failed fun hnone => ?_
      cases ho.symm.trans hnone
    · exact .same
  | data conn bytes eom =>
    simp only [sortEvent, streams_onKey]
    exact .same
  | attention conn code bytes =>
    simp only [sortEvent, streams_onKey]
    exact .same
  | attentionAcked conn =>
    simp only [sortEvent, streams_onKey]
    exact .same
  | attentionFailed conn =>
    simp only [sortEvent, streams_onKey]
    exact .same
  | closed conn =>
    simp only [sortEvent, streams_onKey]
    exact .same

theorem sortEvents_sorts {ep : AdspEndpoint} (hclash : s.Unclashed ep) :
    Relation.ReflTransGen Streams.Sorts s.streams { s with ep }.sortEvents.streams := by
  have hrun : ∀ (evs : List AdspEvent) (t : AdspState), Along sortEvent Fresh t evs →
      Relation.ReflTransGen Streams.Sorts t.streams (evs.foldl sortEvent t).streams := by
    intro evs
    induction evs with
    | nil => exact fun t _ => .refl
    | cons ev evs ih => exact fun t ht => .head (sortEvent_sorts ht.1) (ih _ ht.2)
  exact hrun ep.events _ hclash

/-! ## Calls -/

theorem conns_removeOpen_eq (s : AdspState) (id j : UInt32) :
    (s.removeOpen id).conns[j]? = none ↔ s.conns[j]? = none ∨ j = id := by
  unfold removeOpen
  split
  · rename_i hc
    constructor
    · exact .inl
    · rintro (hj | rfl)
      · exact hj
      · exact hc
  · have herase : (s.conns.erase id)[j]? = none ↔ s.conns[j]? = none ∨ j = id := by
      rw [getElem?_erase_eq]
      split_ifs with hj
      · simp [hj]
      · simp [hj]
    dsimp only
    split_ifs
    · exact herase
    · exact herase

theorem removeOpen_keeps (s : AdspState) (id : UInt32) : (s.removeOpen id).accept = s.accept ∧
    (s.removeOpen id).connects = s.connects ∧
    (s.removeOpen id).listenerAlive = s.listenerAlive := by
  unfold removeOpen
  split
  · exact ⟨rfl, rfl, rfl⟩
  · dsimp only
    split_ifs
    · exact ⟨rfl, rfl, rfl⟩
    · exact ⟨rfl, rfl, rfl⟩

theorem dropListener_moves (s : AdspState) :
    s.streams.Moves .dropListener s.dropListener.streams := by
  have hrun : ∀ (ids : List UInt32) (t : AdspState),
      (ids.foldl removeOpen t).accept = t.accept ∧
      (ids.foldl removeOpen t).connects = t.connects ∧
      (ids.foldl removeOpen t).listenerAlive = t.listenerAlive ∧
      ∀ j, (ids.foldl removeOpen t).conns[j]? = none ↔ t.conns[j]? = none ∨ j ∈ ids := by
    intro ids
    induction ids with
    | nil => exact fun t => ⟨rfl, rfl, rfl, fun j => by simp⟩
    | cons id ids ih =>
      intro t
      obtain ⟨haccept, hconnects, hlistening, hconns⟩ := ih (t.removeOpen id)
      obtain ⟨haccept', hconnects', hlistening'⟩ := t.removeOpen_keeps id
      refine ⟨haccept.trans haccept', hconnects.trans hconnects', hlistening.trans hlistening',
        fun j => ?_⟩
      rw [List.foldl_cons, hconns j, conns_removeOpen_eq, List.mem_cons, or_assoc]
  obtain ⟨haccept, hconnects, hlistening, hconns⟩ := hrun s.accept
    { s with listenerAlive := false, ep := s.ep.setListening false, accept := [] }
  have heq : s.dropListener.streams =
      { s.streams with
        live := s.dropListener.streams.live
        accept := []
        listening := False } := by
    refine streams_eq (fun _ => Iff.rfl) haccept (fun handle => ?_) ?_
    · rw [dropListener, hconnects]
      rfl
    · rw [dropListener, hlistening]
      simp
  rw [heq]
  refine .dropListener fun id => ?_
  exact (not_congr (hconns id)).trans not_or

theorem dropConnect_moves (s : AdspState) (handle : UInt16) :
    s.streams.Moves (.dropConnect handle) (s.dropConnect handle).streams := by
  have hmove : ∀ t : AdspState, t.accept = s.accept → t.connects = s.connects.erase handle →
      t.listenerAlive = s.listenerAlive →
      (∀ id, t.conns[id]? = none ↔ s.conns[id]? = none ∨
        s.connects[handle]? = some (some (.ok id))) →
      s.streams.Moves (.dropConnect handle) t.streams := by
    intro t haccept hconnects hlistening hconns
    have heq : t.streams = { s.streams with
        live := t.streams.live
        connects := Function.update s.streams.connects handle none } := by
      refine streams_eq (fun _ => Iff.rfl) haccept (fun handle' => ?_) ?_
      · rw [hconnects]
        exact s.getElem?_connects_erase handle handle'
      · rw [hlistening]
        rfl
    rw [heq]
    refine .dropConnect fun id => ?_
    exact (not_congr (hconns id)).trans not_or
  unfold dropConnect
  dsimp only
  split
  · rename_i j hj
    rcases hc : s.conns[j]? with _ | c
    · refine hmove _ rfl rfl rfl fun id => ⟨.inl, ?_⟩
      rintro (hid | hid)
      · exact hid
      · rw [hj] at hid
        cases hid
        exact hc
    · refine hmove _ rfl rfl rfl fun id => ?_
      rw [conns_closeKey, getElem?_erase_eq]
      split_ifs with hid
      · simp [hid, hj]
      · simp [hj, Ne.symm hid]
  all_goals
    rename_i hj
    refine hmove _ rfl rfl rfl fun id => ?_
    simp [hj]

/-- **What a call of a handle does to the streams**: most leave who holds them. -/
theorem call_moves {c : AdspSocketCall} (hquiet : c.Quiet) :
    s.streams.Moves c (s.call c).streams := by
  have hkept : ∀ {t : AdspState}, t.streams = s.streams → s.streams.Moves c t.streams :=
    fun heq => heq ▸ .same
  cases c with
  | datagram src payload now => cases hquiet
  | poll now => cases hquiet
  | pollTransmit => exact .same
  | flushData j => exact .same
  | acceptNext =>
    simp only [call, acceptNext]
    rcases haccept : s.accept with _ | ⟨id, rest⟩
    · exact .same
    · exact .accept (t := s.streams) haccept
  | dropListener => exact s.dropListener_moves
  | connectOutcome handle =>
    simp only [call, connectOutcome]
    rcases ho : s.connects[handle]? with _ | _ | o
    · exact .same
    · exact .same
    · have heq := streams_eq (s := { s with connects := s.connects.erase handle })
        (t := { s.streams with connects := Function.update s.streams.connects handle none })
        (fun _ => Iff.rfl) rfl (s.getElem?_connects_erase handle) Iff.rfl
      dsimp only
      rw [heq]
      exact .connectOutcome ho
  | dropConnect handle => exact s.dropConnect_moves handle
  | readWithEom j len =>
    refine hkept ?_
    simp only [call, readWithEom]
    split_ifs
    · rfl
    rcases hd : s.conns[j]? with _ | d
    · rfl
    · rw [Option.bind_some]
      split
      · rfl
      · exact streams_congr (getElem?_insert_none hd) rfl rfl rfl
  | readMessage j len =>
    refine hkept ?_
    simp only [call, readMessage]
    rcases hd : s.conns[j]? with _ | d
    · rfl
    · rw [Option.bind_some]
      split
      · rfl
      · exact streams_congr (getElem?_insert_none hd) rfl rfl rfl
  | writeChunk j data eomAtEnd =>
    refine hkept ?_
    simp only [call, writeChunk]
    split_ifs
    · rfl
    split
    · rfl
    split_ifs
    · rfl
    · rfl
    · split <;> rfl
  | writeEom j =>
    refine hkept ?_
    simp only [call, writeEom]
    split
    · rfl
    split_ifs
    · rfl
    · split <;> rfl
  | sendAttention j code data now =>
    refine hkept ?_
    simp only [call, sendAttention]
    split
    · rfl
    rename_i d hd
    split_ifs
    · rfl
    split
    · rfl
    · rfl
    · split
      · exact streams_congr (getElem?_insert_none hd) rfl rfl rfl
      · rfl
      · rfl
  | attentionOutcome j =>
    refine hkept ?_
    simp only [call, attentionOutcome]
    split
    · rfl
    rename_i d hd
    split
    · exact streams_congr (getElem?_insert_none hd) rfl rfl rfl
    · rfl
    · rfl
  | dropAttention j =>
    refine hkept ?_
    simp only [call, dropAttention]
    split
    · rfl
    rename_i d hd
    exact streams_congr (getElem?_insert_none hd) rfl rfl rfl
  | attention j =>
    refine hkept ?_
    simp only [call, attention]
    split
    · rfl
    rename_i d hd
    split
    · exact streams_congr (getElem?_insert_none hd) rfl rfl rfl
    · rfl
  | tryAttention j =>
    refine hkept ?_
    simp only [call, tryAttention]
    split
    · rfl
    rename_i d hd
    exact streams_congr (getElem?_insert_none hd) rfl rfl rfl
  | dropStream j =>
    obtain ⟨haccept, hconnects, hlistening⟩ := s.removeOpen_keeps j
    have heq : (s.call (.dropStream j)).streams =
        { s.streams with live := (s.call (.dropStream j)).streams.live } := by
      refine streams_eq (fun _ => Iff.rfl) haccept (fun handle => ?_) ?_
      · change (s.removeOpen j).connects[handle]? = _
        rw [hconnects]
        rfl
      · change (s.removeOpen j).listenerAlive = true ↔ _
        rw [hlistening]
        rfl
    rw [heq]
    refine .dropStream fun id => ?_
    exact (not_congr (s.conns_removeOpen_eq j id)).trans not_or

theorem acceptNext_some {x : UInt32 × ServiceAddress} (h : s.acceptNext = (some x, s')) :
    s' = s.call .acceptNext ∧ ∃ rest, s.streams.accept = x.1 :: rest ∧
      s'.streams = { s.streams with accept := rest } := by
  refine ⟨(congrArg Prod.snd h).symm, ?_⟩
  unfold acceptNext at h
  split at h
  · cases (Prod.mk.inj h).1
  · rename_i id rest haccept
    obtain ⟨hx, rfl⟩ := Prod.mk.inj h
    obtain ⟨c, -, rfl⟩ := Option.map_eq_some_iff.1 hx
    exact ⟨rest, haccept, rfl⟩

theorem connectOutcome_ok {handle : UInt16} {id : UInt32}
    (h : s.connectOutcome handle = (some (.ok id), s')) :
    s' = s.call (.connectOutcome handle) ∧ s.streams.Awaits handle id ∧ s'.streams =
      { s.streams with connects := Function.update s.streams.connects handle none } := by
  refine ⟨(congrArg Prod.snd h).symm, ?_⟩
  unfold connectOutcome at h
  split at h
  · rename_i o ho
    obtain ⟨hid, rfl⟩ := Prod.mk.inj h
    obtain rfl := Option.some.inj hid
    exact ⟨ho, streams_eq (fun _ => Iff.rfl) rfl (s.getElem?_connects_erase handle) Iff.rfl⟩
  · cases (Prod.mk.inj h).1
  · cases (Prod.mk.inj h).1

/-- A listener just bound. -/
theorem streams_listen (socket : UInt8) (seed : UInt32) : (listen socket seed).streams =
    { live := ∅, accept := [], connects := fun _ => none, listening := True } := by
  refine streams_eq (fun id => ?_) rfl (fun handle => ?_) ?_
  · simp [listen, new]
  · simp [listen, new]
  · simp [listen, new]

theorem streams_connect {socket : UInt8} {seed : UInt32} {remote : ServiceAddress} {now : Micros}
    {handle : UInt16} (h : connect socket seed remote now = some (handle, s)) :
    s.streams =
      { live := ∅
        accept := []
        connects := Function.update (fun _ => none) handle (some none)
        listening := False } := by
  obtain ⟨r, -, heq⟩ := Option.map_eq_some_iff.1 h
  obtain ⟨rfl, rfl⟩ := Prod.mk.inj heq
  refine streams_eq (fun id => ?_) rfl (fun handle => ?_) ?_
  · simp [new]
  · rw [getElem?_insert_eq]
    simp [Function.update_apply]
  · simp [new]

/-- A socket is finished when no part of it can be held. -/
theorem finished_iff : s.finished = true ↔ ¬ s.streams.listening ∧ s.streams.live = ∅ ∧
    ∀ handle, s.streams.connects handle = none := by
  have hempty : ∀ {κ ν : Type} {cmp : κ → κ → Ordering} [Std.TransCmp cmp]
      (m : Std.TreeMap κ ν cmp), m.isEmpty = true ↔ ∀ k : κ, m[k]? = none := by
    intro κ ν cmp _ m
    rw [Std.TreeMap.isEmpty_iff_forall_not_mem]
    refine forall_congr' fun k => ?_
    rw [Std.TreeMap.mem_iff_isSome_getElem?]
    simp
  have hlive : s.streams.live = ∅ ↔ ∀ id : UInt32, s.conns[id]? = none := by
    rw [Set.eq_empty_iff_forall_notMem]
    exact forall_congr' fun id => not_not
  rw [hlive, finished, Bool.and_eq_true, Bool.and_eq_true, hempty, hempty, and_assoc]
  simp [streams]

theorem not_held_of_finished (h : s.finished = true) (p : StreamStake) : ¬ s.streams.Held p := by
  obtain ⟨hlistening, hlive, hconnects⟩ := finished_iff.1 h
  cases p with
  | listener => exact hlistening
  | stream id =>
    rintro ⟨hid, -⟩
    rw [hlive] at hid
    exact hid
  | connect handle => exact fun hthere => hthere (hconnects handle)

end

end AdspState

end TailTalk
