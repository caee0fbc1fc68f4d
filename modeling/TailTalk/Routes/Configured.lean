/-
  Configured routes — which packets leave them alone.

  An entry of a call and one of a broadcast are in one list, where an insertion
  removes what overlaps it, a withdrawal what has its range; and the local
  range and the zones are set whatever the mode.
-/
import TailTalk.Routes.Replica
import TailTalk.Routes.Zip

namespace TailTalk

open Lib

/-- The calls that a packet on the ZIP socket makes, in order. -/
def Zip.calls (pkt : ReceivedDdp) : List Operation :=
  match GetNetInfoReply.parse pkt.payload with
  | .error _ => []
  | .ok reply => reply.rangeCalls (Interface.ofSource pkt.source) ++ reply.zoneCalls

namespace RouteTable

/-- What a table hears: a packet on the RTMP or the ZIP socket, or a call. -/
inductive Input where
  | rtmp (pkt : ReceivedDdp)
  | zip (pkt : ReceivedDdp)
  | call (op : Operation)

namespace Input

/-- The calls that an input makes. -/
def operations : Input → List Operation
  | rtmp pkt => RtmpListener.calls pkt
  | zip pkt => Zip.calls pkt
  | call op => [op]

end Input

/-- One input. -/
def hear (t : Inner) (input : Input × Instant) : Inner :=
  run (perform · input.2) t input.1.operations

/-! ## Ranges that spare a range -/

/-- A range behind `lo` to `hi`, or before it and not begun in it: one that is no range is looked at
    all the same. -/
def Apart (lo hi : UInt16) (r : CableRange) : Prop := hi < r.lo ∨ (r.hi < lo ∧ r.lo ≤ lo)

instance (lo hi : UInt16) : DecidablePred (Apart lo hi) :=
  fun _ => inferInstanceAs (Decidable (_ ∨ _))

/-- No network of `lo` to `hi` is in the range. -/
def Outside (lo hi : UInt16) (r : CableRange) : Prop := hi < r.lo ∨ r.hi < lo ∨ r.hi < r.lo

instance (lo hi : UInt16) : DecidablePred (Outside lo hi) :=
  fun _ => inferInstanceAs (Decidable (_ ∨ _))

/-- A call makes none of the networks local, inserts no range that is not apart, and does not
    withdraw `lo` to `hi`. -/
def Spares (mode : LearningMode) (lo hi : UInt16) : Operation → Prop
  | .setLocalRangeFor _ lo' hi' => Outside lo hi ⟨lo', hi'⟩
  | .insertRoute lo' hi' _ _ => Apart lo hi ⟨lo', hi'⟩
  | .removeRoute lo' hi' => ¬ (lo = lo' ∧ hi = hi')
  | .handleRtmp _ _ tuples => mode = .static ∨ ∀ tuple ∈ tuples, Apart lo hi ⟨tuple.1, tuple.2.1⟩
  | _ => True

instance (mode : LearningMode) (lo hi : UInt16) : DecidablePred (Spares mode lo hi)
  | .setLocalRangeFor _ lo' hi' => inferInstanceAs (Decidable (Outside lo hi ⟨lo', hi'⟩))
  | .insertRoute lo' hi' _ _ => inferInstanceAs (Decidable (Apart lo hi ⟨lo', hi'⟩))
  | .removeRoute lo' hi' => inferInstanceAs (Decidable (¬ (lo = lo' ∧ hi = hi')))
  | .handleRtmp _ _ tuples =>
    -- not over all the tuples there are
    have : Decidable (∀ tuple ∈ tuples, Apart lo hi ⟨tuple.1, tuple.2.1⟩) :=
      List.decidableBAll (fun tuple => Apart lo hi ⟨tuple.1, tuple.2.1⟩) tuples
    inferInstanceAs (Decidable (mode = .static ∨ _))
  | .insertZone _ _ => isTrue trivial
  | .removeZone _ => isTrue trivial
  | .noteRouter _ _ => isTrue trivial
  | .purgeExpired => isTrue trivial
  | .handleZipReply _ _ => isTrue trivial

/-- None of the networks is local, and no entry that ends before it begins in it. -/
def Clear (t : Inner) (lo hi : UInt16) : Prop :=
  (∀ r ∈ t.localRanges, Outside lo hi r.range) ∧
    ∀ e ∈ t.rtmp.entries, e.rangeHi < lo → e.rangeLo < lo ∨ hi < e.rangeLo

instance (t : Inner) (lo hi : UInt16) : Decidable (Clear t lo hi) :=
  inferInstanceAs (Decidable (_ ∧ _))

/-! ## Tables that are sorted -/

/-- A table of some mode whose entries are sorted. -/
structure Kept (mode : LearningMode) (t : Inner) : Prop where
  mode : t.mode = mode
  sorted : Sorted RtmpEntry.lo t.rtmp.entries

variable {mode : LearningMode} {t : Inner}

theorem Kept.insertEntry (h : Kept mode t) (e : RtmpEntry) : Kept mode (insertEntry t e) := by
  obtain ⟨sent, heq⟩ := insertEntry_eq t e
  rw [heq]
  exact ⟨h.mode, h.sorted.place e⟩

theorem Kept.perform (h : Kept mode t) (now : Instant) (op : Operation) :
    Kept mode (perform t now op) := by
  cases op with
  | setLocalRangeFor interface lo hi =>
    obtain ⟨ranges, sent, heq⟩ := setLocalRangeFor_eq t interface lo hi
    rw [RouteTable.perform, heq]
    exact ⟨h.mode, h.sorted⟩
  | insertRoute lo hi nextHop interface => exact h.insertEntry _
  | removeRoute lo hi => exact ⟨h.mode, h.sorted.sublist List.filter_sublist⟩
  | insertZone zone ranges => exact ⟨h.mode, h.sorted⟩
  | removeZone zone => exact ⟨h.mode, h.sorted⟩
  | handleRtmp src interface tuples =>
    exact handleRtmp_keeps h fun _ t ht tuple _ => ht.insertEntry _
  | noteRouter router interface =>
    rw [RouteTable.perform, noteRouter]
    split
    · exact h
    · exact ⟨h.mode, h.sorted⟩
  | purgeExpired => exact ⟨h.mode, h.sorted.sublist List.filter_sublist⟩
  | handleZipReply range zones =>
    rw [RouteTable.perform, handleZipReply]
    split
    · exact h
    · exact ⟨h.mode, h.sorted⟩

theorem Kept.hear (h : Kept mode t) (input : Input × Instant) : Kept mode (hear t input) :=
  inv_run _ (fun _ op h _ => h.perform input.2 op) h (along_true _ _)

/-- **Every table is sorted**, whatever it has heard. -/
theorem kept_run (mode : LearningMode) (inputs : List (Input × Instant)) :
    Kept mode (run hear (new mode) inputs) :=
  inv_run hear (fun _ input h _ => h.hear input) ⟨rfl, .nil⟩ (along_true _ _)

/-! ## An entry that stands -/

/-- The entry is found for every network of its range, and none of them is local. -/
structure Stands (mode : LearningMode) (e : RtmpEntry) (t : Inner) : Prop where
  mode : t.mode = mode
  served : Served RtmpEntry.lo RtmpEntry.hi e t.rtmp.entries
  foreign : ∀ r ∈ t.localRanges, Outside e.rangeLo e.rangeHi r.range

variable {e : RtmpEntry}

/-- **What an entry that stands answers.** -/
theorem Stands.routeFor (h : Stands mode e t) (he : e.expiresAt = none) {net : UInt16}
    (hlo : e.rangeLo ≤ net) (hhi : net ≤ e.rangeHi) (now : Instant) :
    t.routeFor net now = some (.via e.nextHop e.interface) := by
  have hlocal : t.localRangeFor net = none := by
    refine List.find?_eq_none.2 fun r hr hin => ?_
    obtain ⟨hrlo, hrhi⟩ := of_decide_eq_true hin
    rcases h.foreign r hr with hlt | hlt | hlt
    · exact absurd (UInt16.le_trans hrlo hhi) (UInt16.not_le.2 hlt)
    · exact absurd (UInt16.le_trans hlo hrhi) (UInt16.not_le.2 hlt)
    · exact absurd (UInt16.le_trans hrlo hrhi) (UInt16.not_le.2 hlt)
  have hfound := h.served.search (n := net.toNat) (UInt16.le_iff_toNat_le.1 hlo)
    (UInt16.le_iff_toNat_le.1 hhi)
  have hlookup : t.rtmp.lookup net now = some e := by
    rw [RtmpTable.lookup, hfound, Option.filter_some, if_pos]
    simp [RtmpEntry.expired, he, hhi]
  rw [Inner.routeFor, hlocal, hlookup]

theorem Stands.insertEntry (h : Stands mode e t) {b : RtmpEntry}
    (hb : Apart e.rangeLo e.rangeHi ⟨b.rangeLo, b.rangeHi⟩) : Stands mode e (insertEntry t b) := by
  obtain ⟨sent, heq⟩ := insertEntry_eq t b
  rw [heq]
  refine ⟨h.mode, h.served.place ?_, h.foreign⟩
  rcases hb with hb | ⟨hb, hb'⟩
  · exact Or.inl (UInt16.lt_iff_toNat_lt.1 hb)
  · exact Or.inr ⟨UInt16.lt_iff_toNat_lt.1 hb, UInt16.le_iff_toNat_le.1 hb'⟩

theorem upsertLocalRange_mem {interface : Interface} {range : CableRange} {r : LocalRange}
    (h : r ∈ (t.upsertLocalRange interface range).1.localRanges) :
    r ∈ t.localRanges ∨ r.range = range := by
  unfold Inner.upsertLocalRange at h
  split at h
  · split at h
    · exact Or.inl h
    · rcases List.mem_or_eq_of_mem_set h with h | rfl
      · exact Or.inl h
      · exact Or.inr rfl
  · rcases List.mem_append.1 h with h | h
    · exact Or.inl h
    · exact Or.inr (by rw [List.mem_singleton.1 h])

theorem setLocalRangeFor_mem {interface : Interface} {lo hi : UInt16} {r : LocalRange}
    (h : r ∈ (setLocalRangeFor t interface lo hi).localRanges) :
    r ∈ t.localRanges ∨ r.range = ⟨lo, hi⟩ := by
  simp only [setLocalRangeFor] at h
  split at h
  · exact upsertLocalRange_mem h
  · exact upsertLocalRange_mem h

/-- **One call** that spares the range of an entry. -/
theorem Stands.perform (h : Stands mode e t) (he : e.expiresAt = none) (now : Instant)
    {op : Operation} (hop : Spares mode e.rangeLo e.rangeHi op) : Stands mode e (perform t now op) := by
  cases op with
  | setLocalRangeFor interface lo hi =>
    obtain ⟨ranges, sent, heq⟩ := setLocalRangeFor_eq t interface lo hi
    have hmem : ∀ r ∈ (setLocalRangeFor t interface lo hi).localRanges,
        Outside e.rangeLo e.rangeHi r.range := by
      intro r hr
      rcases setLocalRangeFor_mem hr with hr | hr
      · exact h.foreign r hr
      · exact hr ▸ hop
    rw [RouteTable.perform]
    rw [heq] at hmem ⊢
    exact ⟨h.mode, h.served, hmem⟩
  | insertRoute lo hi nextHop interface => exact h.insertEntry hop
  | removeRoute lo hi =>
    refine ⟨h.mode, h.served.filter ?_, h.foreign⟩
    exact decide_eq_true hop
  | insertZone zone ranges => exact ⟨h.mode, h.served, h.foreign⟩
  | removeZone zone => exact ⟨h.mode, h.served, h.foreign⟩
  | handleRtmp src interface tuples =>
    refine handleRtmp_keeps h fun hmode t ht tuple htuple => ht.insertEntry ?_
    rw [h.mode] at hmode
    exact hop.resolve_left hmode tuple htuple
  | noteRouter router interface =>
    rw [RouteTable.perform, noteRouter]
    split
    · exact h
    · exact ⟨h.mode, h.served, h.foreign⟩
  | purgeExpired =>
    refine ⟨h.mode, h.served.filter ?_, h.foreign⟩
    simp [RtmpEntry.expired, he]
  | handleZipReply range zones =>
    rw [RouteTable.perform, handleZipReply]
    split
    · exact h
    · exact ⟨h.mode, h.served, h.foreign⟩

/-- **What is heard** and spares the range of an entry. -/
theorem Stands.hear (h : Stands mode e t) (he : e.expiresAt = none) {input : Input × Instant}
    (hinput : ∀ op ∈ input.1.operations, Spares mode e.rangeLo e.rangeHi op) :
    Stands mode e (hear t input) :=
  List.foldlRecOn input.1.operations _ h fun _ h op hop => h.perform he input.2 (hinput op hop)

theorem stands_insertRoute (h : Kept mode t) {lo hi : UInt16} (hclear : Clear t lo hi)
    (nextHop : AppleTalkAddress) (interface : Interface) :
    Stands mode ⟨lo, hi, 0, nextHop, interface, none⟩ (insertRoute t lo hi nextHop interface) := by
  obtain ⟨sent, heq⟩ := insertEntry_eq t ⟨lo, hi, 0, nextHop, interface, none⟩
  rw [insertRoute, heq]
  refine ⟨h.mode, h.sorted.served_place fun b hb hends => ?_, hclear.1⟩
  rcases hclear.2 b hb (UInt16.lt_iff_toNat_lt.2 hends) with hlt | hlt
  · exact Or.inl (UInt16.lt_iff_toNat_lt.1 hlt)
  · exact Or.inr (UInt16.lt_iff_toNat_lt.1 hlt)

/-! ## Tables that are configured only -/

/-- Two tables that answer alike. -/
structure Agrees (t t' : Inner) : Prop where
  resolve : ∀ net now, t'.routeFor net now = t.routeFor net now
  hasRouter : ∀ now, t'.hasRouter now = t.hasRouter now
  nbpDispatch : ∀ zone now, t'.nbpDispatch zone now = t.nbpDispatch zone now

theorem Agrees.refl (t : Inner) : Agrees t t := ⟨fun _ _ => rfl, fun _ => rfl, fun _ _ => rfl⟩

theorem Agrees.trans {t t' t'' : Inner} (h : Agrees t t') (h' : Agrees t' t'') : Agrees t t'' :=
  ⟨fun net now => (h'.resolve net now).trans (h.resolve net now),
    fun now => (h'.hasRouter now).trans (h.hasRouter now),
    fun zone now => (h'.nbpDispatch zone now).trans (h.nbpDispatch zone now)⟩

/-- The range that the call sets is there, no entry has the one it withdraws, and a zone it ties has
    the range already, or one that no route serves. -/
def Unmoved (t : Inner) : Operation → Prop
  | .setLocalRangeFor interface lo hi => (t.upsertLocalRange interface ⟨lo, hi⟩).2 = false
  | .removeRoute lo hi => ∀ e ∈ t.rtmp.entries, ¬ (e.rangeLo = lo ∧ e.rangeHi = hi)
  | .insertZone zone ranges => ∀ r ∈ ranges,
      r ∈ t.zip.rangesForZone zone ∨ ∀ now, t.rtmp.lookup r.lo now = none
  | .noteRouter _ _ => True
  | .handleRtmp _ _ _ => True
  | .handleZipReply _ _ => True
  -- no packet makes the other calls
  | _ => False

theorem upsertLocalRange_same {interface : Interface} {range : CableRange}
    (h : (t.upsertLocalRange interface range).2 = false) :
    (t.upsertLocalRange interface range).1 = t := by
  unfold Inner.upsertLocalRange at h ⊢
  split at h
  · split at h
    · rename_i hsame
      rw [if_pos hsame]
    · cases h
  · cases h

theorem routersForZone_pushNew (ranges : List CableRange) (now : Instant) {rs : List CableRange}
    (h : ∀ r ∈ ranges, r ∈ rs ∨ t.rtmp.lookup r.lo now = none) :
    (ranges.foldl (fun l r => ZipTable.pushNew r l) rs).filterMap
        (fun r => t.rtmp.lookup r.lo now) = rs.filterMap fun r => t.rtmp.lookup r.lo now := by
  induction ranges generalizing rs with
  | nil => rfl
  | cons r ranges ih =>
    obtain ⟨hr, hranges⟩ := List.forall_mem_cons.1 h
    rw [List.foldl_cons]
    by_cases hmem : r ∈ rs
    · have hsame : ZipTable.pushNew r rs = rs := if_pos hmem
      rw [hsame]
      exact ih hranges
    · have hmore : ZipTable.pushNew r rs = rs ++ [r] := if_neg hmem
      have hnone : [r].filterMap (fun r => t.rtmp.lookup r.lo now) = [] := by
        simp [hr.resolve_left hmem]
      rw [hmore, ih fun r' hr' => (hranges r' hr').imp_left fun h' => List.mem_append_left _ h',
        List.filterMap_append, hnone, List.append_nil]

theorem agrees_insertZone {zone : Zone} {ranges : List CableRange}
    (h : ∀ r ∈ ranges, r ∈ t.zip.rangesForZone zone ∨ ∀ now, t.rtmp.lookup r.lo now = none) :
    Agrees t (insertZone t zone ranges) := by
  have hrouters : ∀ name now,
      (insertZone t zone ranges).routersForZone name now = t.routersForZone name now := by
    intro name now
    have hzip : (insertZone t zone ranges).zip.rangesForZone name =
        if name = zone then
          ranges.foldl (fun l r => ZipTable.pushNew r l) (t.zip.rangesForZone zone)
        else t.zip.rangesForZone name :=
      ZipTable.rangesForZone_insertRanges ranges t.zip zone name
    have hrtmp : (insertZone t zone ranges).rtmp = t.rtmp := rfl
    rw [Inner.routersForZone, Inner.routersForZone, hzip, hrtmp]
    split
    · rename_i hname
      rw [routersForZone_pushNew ranges now fun r hr => (h r hr).imp_right fun hall => hall now,
        hname]
    · rfl
  refine ⟨fun _ _ => rfl, fun _ => rfl, fun z now => ?_⟩
  have hall : (insertZone t zone ranges).allRouters now = t.allRouters now := rfl
  cases z with
  | «local» => rfl
  | all => rw [Inner.nbpDispatch, Inner.nbpDispatch, hall]
  | named name => rw [Inner.nbpDispatch, Inner.nbpDispatch, hall, hrouters]

/-- **One call of a packet** that moves nothing. -/
theorem agrees_perform (hmode : t.mode = .static) (now : Instant) {op : Operation}
    (hop : Unmoved t op) : Agrees t (perform t now op) := by
  cases op with
  | setLocalRangeFor interface lo hi =>
    have hsame : setLocalRangeFor t interface lo hi = t := by
      have heq := upsertLocalRange_same hop
      have hno : (t.upsertLocalRange interface ⟨lo, hi⟩).2 = false := hop
      unfold setLocalRangeFor
      generalize t.upsertLocalRange interface ⟨lo, hi⟩ = u at heq hno
      obtain ⟨t', changed⟩ := u
      dsimp only at heq hno ⊢
      rw [hno, if_neg Bool.false_ne_true, heq]
    rw [RouteTable.perform, hsame]
    exact .refl t
  | insertRoute lo hi nextHop interface => exact absurd hop id
  | removeRoute lo hi =>
    have hsame : t.rtmp.remove lo hi = t.rtmp := by
      rw [RtmpTable.remove, List.filter_eq_self.2]
      exact fun e he => decide_eq_true (hop e he)
    rw [RouteTable.perform, removeRoute, hsame]
    exact ⟨fun _ _ => rfl, fun _ => rfl, fun _ _ => rfl⟩
  | insertZone zone ranges => exact agrees_insertZone hop
  | removeZone zone => exact absurd hop id
  | handleRtmp src interface tuples =>
    rw [RouteTable.perform, handleRtmp, if_pos hmode]
    exact .refl t
  | noteRouter router interface =>
    rw [RouteTable.perform, noteRouter, if_pos hmode]
    exact .refl t
  | purgeExpired => exact absurd hop id
  | handleZipReply range zones =>
    rw [RouteTable.perform, handleZipReply, if_pos hmode]
    exact .refl t

/-- A packet moves nothing, call after call. -/
def Still (t : Inner) (input : Input × Instant) : Prop :=
  Along (perform · input.2) Unmoved t input.1.operations

theorem agrees_calls {now : Instant} {ops : List Operation} (hkept : Kept .static t)
    (hops : Along (perform · now) Unmoved t ops) : Agrees t (run (perform · now) t ops) := by
  induction ops generalizing t with
  | nil => exact .refl t
  | cons op ops ih =>
    exact (agrees_perform hkept.mode now hops.1).trans (ih (hkept.perform now op) hops.2)

/-- **What is heard** and moves nothing. -/
theorem agrees_hear {inputs : List (Input × Instant)} (hkept : Kept .static t)
    (hstill : Along hear Still t inputs) : Agrees t (run hear t inputs) := by
  induction inputs generalizing t with
  | nil => exact .refl t
  | cons input inputs ih =>
    exact (agrees_calls hkept hstill.1).trans (ih (hkept.hear input) hstill.2)

/-! ## Runs -/

/-- **A configured route stands as long as what is heard spares its range, and a table in static
    mode answers as before as long as the packets move nothing**, whatever was heard before. -/
theorem configured_routes_stand (before inputs : List (Input × Instant)) :
    (∀ (mode : LearningMode) (lo hi : UInt16) (nextHop : AppleTalkAddress) (interface : Interface),
      Clear (run hear (new mode) before) lo hi →
      (∀ input ∈ inputs, ∀ op ∈ input.1.operations, Spares mode lo hi op) →
      ∀ net now, lo ≤ net → net ≤ hi →
        (run hear (insertRoute (run hear (new mode) before) lo hi nextHop interface)
          inputs).routeFor net now = some (.via nextHop interface)) ∧
    (Along hear Still (run hear (new .static) before) inputs →
      Agrees (run hear (new .static) before)
        (run hear (run hear (new .static) before) inputs)) := by
  refine ⟨?_, agrees_hear (kept_run .static before)⟩
  intro mode lo hi nextHop interface hclear hspares net now hlo hhi
  have hstands : Stands mode ⟨lo, hi, 0, nextHop, interface, none⟩
      (run hear (insertRoute (run hear (new mode) before) lo hi nextHop interface) inputs) :=
    List.foldlRecOn inputs _ (stands_insertRoute (kept_run mode before) hclear nextHop interface)
      fun _ h input hinput => h.hear rfl (hspares input hinput)
  exact hstands.routeFor rfl hlo hhi now

theorem configured_routes_stand_bridge :
    (run hear (insertRoute (new .dynamic) 20 25 ⟨8, 1⟩ .localTalk)
      [(.rtmp bridgeBroadcast, 5), (.call .purgeExpired, 8)]).routeFor 22 9 =
        some (.via ⟨8, 1⟩ .localTalk) ∧
    Agrees (run hear (new .static) [(.call (.setLocalRangeFor .etherTalk 3 5), 0)])
      (run hear (run hear (new .static) [(.call (.setLocalRangeFor .etherTalk 3 5), 0)])
        [(.rtmp bridgeBroadcast, 5)]) := by
  constructor
  · exact (configured_routes_stand [] [(.rtmp bridgeBroadcast, 5), (.call .purgeExpired, 8)]).1
      .dynamic 20 25 ⟨8, 1⟩ .localTalk (by decide +kernel) (by decide +kernel) 22 9 (by decide)
      (by decide)
  · refine (configured_routes_stand [(.call (.setLocalRangeFor .etherTalk 3 5), 0)]
      [(.rtmp bridgeBroadcast, 5)]).2 ⟨?_, trivial⟩
    have hcalls : Input.operations (.rtmp bridgeBroadcast) = [.setLocalRangeFor .etherTalk 3 5,
        .noteRouter ⟨3, 254⟩ .etherTalk, .removeRoute 7 7,
        .handleRtmp ⟨3, 254⟩ .etherTalk [(3, 5, 1), (2, 2, 1)]] := by
      decide +kernel
    rw [Still, hcalls]
    exact ⟨rfl, trivial, fun _ he => absurd he List.not_mem_nil, trivial, trivial⟩

/-- A router on the cable 3 withdraws the configured range 4-9, and nothing learns. -/
theorem configured_route_withdrawn :
    (insertRoute (new .static) 4 9 ⟨8, 1⟩ .localTalk).routeFor 5 1 =
      some (.via ⟨8, 1⟩ .localTalk) ∧
    (run hear (insertRoute (new .static) 4 9 ⟨8, 1⟩ .localTalk)
      [(.rtmp (broadcast [0, 3, 8, 254, 0, 4, 0x9F, 0, 9, 0x82]), 1)]).routeFor 5 1 = none := by
  decide +kernel

end RouteTable

end TailTalk
