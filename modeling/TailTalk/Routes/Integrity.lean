/-
  Integrity of the route table.

  Placing a range keeps the table `Intact` only if its ends are in order, and
  neither the listener nor `insert_route` looks at them: `intact_run_fails` is
  about one range that is not.
-/
import TailTalk.Routes.Rtmp

namespace TailTalk

open Lib

namespace RtmpTable

/-- The ranges of a table are apart. -/
def Ranged (t : RtmpTable) : Prop := Spaced RtmpEntry.lo RtmpEntry.hi t.entries

/-- **What integrity means.** -/
structure Intact (t : RtmpTable) : Prop where
  sorted : t.entries.Pairwise fun a b => a.rangeLo < b.rangeLo
  ordered : ∀ e ∈ t.entries, e.rangeLo ≤ e.rangeHi
  apart : t.entries.Pairwise fun a b => a.rangeHi < b.rangeLo
  lookup : ∀ net now e, t.lookup net now = some e ↔
    e ∈ t.entries ∧ (e.rangeLo ≤ net ∧ net ≤ e.rangeHi) ∧ e.expired now = false

/-- **Looking up** finds the live entry that contains a network. -/
theorem Ranged.lookup {t : RtmpTable} (h : t.Ranged) (net : UInt16) (now : Instant)
    (e : RtmpEntry) : t.lookup net now = some e ↔
      e ∈ t.entries ∧ (e.rangeLo ≤ net ∧ net ≤ e.rangeHi) ∧ e.expired now = false := by
  have hsearch := Spaced.search (a := e) (n := net.toNat) h
  rw [RtmpTable.lookup, Option.filter_eq_some_iff]
  simp only [decide_eq_true_eq]
  constructor
  · rintro ⟨he, hhi, hlive⟩
    obtain ⟨hmem, hlo, -⟩ := hsearch.1 ⟨e, he, rfl, UInt16.le_iff_toNat_le.1 hhi⟩
    exact ⟨hmem, ⟨UInt16.le_iff_toNat_le.2 hlo, hhi⟩, hlive⟩
  · rintro ⟨hmem, ⟨hlo, hhi⟩, hlive⟩
    obtain ⟨b, hb, rfl, -⟩ := hsearch.2
      ⟨hmem, UInt16.le_iff_toNat_le.1 hlo, UInt16.le_iff_toNat_le.1 hhi⟩
    exact ⟨hb, hhi, hlive⟩

theorem Ranged.intact {t : RtmpTable} (h : t.Ranged) : t.Intact where
  sorted := h.sorted.imp UInt16.lt_iff_toNat_lt.2
  ordered := fun e he => UInt16.le_iff_toNat_le.2 (h.range e he)
  apart := h.apart.imp UInt16.lt_iff_toNat_lt.2
  lookup := h.lookup

theorem ranged_new : Ranged new := .nil

theorem ranged_remove {t : RtmpTable} (h : t.Ranged) (lo hi : UInt16) : (t.remove lo hi).Ranged :=
  h.sublist List.filter_sublist

theorem ranged_purgeExpired {t : RtmpTable} (h : t.Ranged) (now : Instant) :
    (t.purgeExpired now).Ranged :=
  h.sublist List.filter_sublist

theorem mem_insert (t : RtmpTable) (e : RtmpEntry) : e ∈ (t.insert e).1.entries :=
  List.mem_append_right _ List.mem_cons_self

/-- **Inserting** keeps the table intact if and only if the range is one. -/
theorem ranged_insert {t : RtmpTable} (h : t.Ranged) {e : RtmpEntry} :
    (t.insert e).1.Ranged ↔ e.rangeLo ≤ e.rangeHi := by
  constructor
  · intro h'
    exact UInt16.le_iff_toNat_le.2 (h'.range e (mem_insert t e))
  · intro he
    exact h.place (UInt16.le_iff_toNat_le.1 he)

end RtmpTable

namespace RouteTable

open RtmpTable

/-! ## What a call changes -/

theorem insertEntry_eq (t : Inner) (e : RtmpEntry) :
    ∃ sent, insertEntry t e = { t with rtmp := (t.rtmp.insert e).1, publisher := sent } := by
  simp only [insertEntry]
  split
  · exact ⟨_, rfl⟩
  · exact ⟨_, rfl⟩

theorem upsertLocalRange_eq (t : Inner) (interface : Interface) (range : CableRange) :
    ∃ ranges, (t.upsertLocalRange interface range).1 = { t with localRanges := ranges } := by
  unfold Inner.upsertLocalRange
  split
  · split
    · exact ⟨_, rfl⟩
    · exact ⟨_, rfl⟩
  · exact ⟨_, rfl⟩

theorem setLocalRangeFor_eq (t : Inner) (interface : Interface) (lo hi : UInt16) :
    ∃ ranges sent, setLocalRangeFor t interface lo hi =
      { t with localRanges := ranges, publisher := sent } := by
  obtain ⟨ranges, h⟩ := upsertLocalRange_eq t interface ⟨lo, hi⟩
  simp only [setLocalRangeFor]
  split
  · exact ⟨ranges, _, by rw [h]; rfl⟩
  · exact ⟨ranges, _, h⟩

theorem handleRtmp_keeps {P : Inner → Prop} {t : Inner} {src : AppleTalkAddress}
    {interface : Interface} {tuples : List (UInt16 × UInt16 × UInt8)} {now : Instant} (h : P t)
    (hstep : t.mode ≠ .static → ∀ t, P t → ∀ tuple ∈ tuples, P (insertEntry t
      ⟨tuple.1, tuple.2.1, tuple.2.2, src, interface, some (now + RTMP_ROUTE_TTL)⟩)) :
    P (handleRtmp t src interface tuples now) := by
  rw [handleRtmp]
  split
  · exact h
  · rename_i hmode
    exact List.foldlRecOn tuples _ h (hstep hmode)

/-! ## Whole runs -/

/-- The ranges that a call inserts. -/
def inserted (mode : LearningMode) : Operation → List CableRange
  | .insertRoute lo hi _ _ => [⟨lo, hi⟩]
  | .handleRtmp _ _ tuples =>
    if mode = .static then [] else tuples.map fun tuple => ⟨tuple.1, tuple.2.1⟩
  | _ => []

/-- A table of some mode whose ranges are apart. -/
structure Sound (mode : LearningMode) (t : Inner) : Prop where
  mode : t.mode = mode
  ranged : t.rtmp.Ranged

variable {mode : LearningMode}

theorem Sound.insertEntry {t : Inner} (h : Sound mode t) {e : RtmpEntry}
    (he : e.rangeLo ≤ e.rangeHi) : Sound mode (insertEntry t e) := by
  obtain ⟨sent, heq⟩ := insertEntry_eq t e
  rw [heq]
  exact ⟨h.mode, (ranged_insert h.ranged).2 he⟩

/-- **One call.** -/
theorem Sound.perform {t : Inner} (h : Sound mode t) (now : Instant) {op : Operation}
    (horder : ∀ r ∈ inserted mode op, r.lo ≤ r.hi) : Sound mode (perform t now op) := by
  cases op with
  | setLocalRangeFor interface lo hi =>
    obtain ⟨ranges, sent, heq⟩ := setLocalRangeFor_eq t interface lo hi
    rw [RouteTable.perform, heq]
    exact ⟨h.mode, h.ranged⟩
  | insertRoute lo hi nextHop interface => exact h.insertEntry (horder ⟨lo, hi⟩ List.mem_cons_self)
  | removeRoute lo hi => exact ⟨h.mode, ranged_remove h.ranged lo hi⟩
  | insertZone zone ranges => exact ⟨h.mode, h.ranged⟩
  | removeZone zone => exact ⟨h.mode, h.ranged⟩
  | handleRtmp src interface tuples =>
    refine handleRtmp_keeps h fun hmode t ht tuple htuple => ht.insertEntry ?_
    rw [h.mode] at hmode
    rw [inserted, if_neg hmode, List.forall_mem_map] at horder
    exact horder tuple htuple
  | noteRouter router interface =>
    rw [RouteTable.perform, noteRouter]
    split
    · exact h
    · exact ⟨h.mode, h.ranged⟩
  | purgeExpired => exact ⟨h.mode, ranged_purgeExpired h.ranged now⟩
  | handleZipReply range zones =>
    rw [RouteTable.perform, handleZipReply]
    split
    · exact h
    · exact ⟨h.mode, h.ranged⟩

/-- What happens to a table: a packet on the RTMP socket, or a call. -/
inductive Event where
  | packet (pkt : ReceivedDdp)
  | call (op : Operation)

/-- The calls that an event makes. -/
def Event.operations : Event → List Operation
  | packet pkt => RtmpListener.calls pkt
  | call op => [op]

/-- One event. -/
def step (t : Inner) (event : Event × Instant) : Inner :=
  run (perform · event.2) t event.1.operations

/-- Every range that the event inserts is one. -/
def Ordered (mode : LearningMode) (event : Event × Instant) : Prop :=
  ∀ op ∈ event.1.operations, ∀ r ∈ inserted mode op, r.lo ≤ r.hi

instance (event : Event × Instant) : Decidable (Ordered mode event) :=
  inferInstanceAs (Decidable (∀ op ∈ event.1.operations, ∀ r ∈ inserted mode op, r.lo ≤ r.hi))

/-- **One event.** -/
theorem Sound.step {t : Inner} (h : Sound mode t) {event : Event × Instant}
    (horder : Ordered mode event) : Sound mode (step t event) :=
  List.foldlRecOn event.1.operations _ h fun _ h op hop => h.perform event.2 (horder op hop)

theorem sound_new : Sound mode (new mode) := ⟨rfl, ranged_new⟩

/-- **Integrity of every run** whose ranges are ordered. -/
theorem intact_run {events : List (Event × Instant)} (horder : ∀ event ∈ events,
    Ordered mode event) : (run RouteTable.step (new mode) events).rtmp.Intact :=
  Ranged.intact (List.foldlRecOn (motive := Sound mode) events _ sound_new
    fun _ h event hevent => h.step (horder event hevent)).ranged

/-! ## An ordered run, and one that is not -/

/-- A broadcast that a router on the EtherTalk cable sends. -/
def broadcast (payload : Bytes) : ReceivedDdp where
  headers := ⟨0, 13 + payload.length, 0, 0, 3, 0xFF, 1, 1, 254, .rtmpResponse⟩
  payload := payload
  source := .etherTalkPhase2
  sourceMac := (Vector.replicate 5 0).push 1

/-- Router 3.254 on the cable 3-5, with network 2 behind it and network 7 withdrawn. -/
def bridgeBroadcast : ReceivedDdp :=
  broadcast [0, 3, 8, 254, 0, 3, 0x80, 0, 5, 0x82, 0, 2, 0, 0, 7, 31]

theorem intact_run_bridge : (run step (new .dynamic)
    [(.call (.insertRoute 4 9 ⟨8, 1⟩ .localTalk), 0), (.packet bridgeBroadcast, 5),
      (.call (.removeRoute 2 2), 6), (.packet bridgeBroadcast, 7),
      (.call .purgeExpired, 8 + RTMP_ROUTE_TTL)]).rtmp.Intact :=
  intact_run (by decide +kernel)

/-- The range 10-5 of a tuple is an entry all the same, and hides the networks from 10 to 20 of an
    entry for 6-20. -/
theorem intact_run_fails : ¬ ∀ (mode : LearningMode) (events : List (Event × Instant)),
    (run step (new mode) events).rtmp.Intact := by
  intro h
  have hlookup := (h .dynamic [(.packet (broadcast
    [0, 3, 8, 254, 0, 10, 0x80, 0, 5, 0x82, 0, 6, 0x80, 0, 20, 0x82]), 0)]).lookup 12 0
    ⟨6, 20, 1, ⟨3, 254⟩, .etherTalk, some RTMP_ROUTE_TTL⟩
  exact absurd (hlookup.2 (by decide +kernel)) (by decide +kernel)

end RouteTable

end TailTalk
