/-
  The replica of a daemon's route table at a client.

  The daemon broadcasts a snapshot whenever its table has published a change.
  The snapshot has one local range, no router of last resort and no expiry, and
  the table does not publish all that changes its answers.
-/
import TailTalk.Routes.Proto
import TailTalk.Routes.View

namespace TailTalk

open Lib

/-! ## What a client makes of a snapshot -/

namespace ZipTable

theorem rangesForZone_insertZoneRange (t : ZipTable) (zone : Zone) (range : CableRange)
    (z : Zone) : (t.insertZoneRange zone range).rangesForZone z =
      if z = zone then pushNew range (t.rangesForZone zone) else t.rangesForZone z := by
  simp only [rangesForZone, insertZoneRange]
  rw [getElem?_insert_eq]
  split
  · rfl
  · rfl

theorem rangesForZone_insertRanges (ranges : List CableRange) (t : ZipTable) (zone z : Zone) :
    (ranges.foldl (·.insertZoneRange zone) t).rangesForZone z =
      if z = zone then ranges.foldl (fun l r => pushNew r l) (t.rangesForZone zone)
      else t.rangesForZone z := by
  induction ranges generalizing t with
  | nil =>
    split
    · rename_i h
      rw [h]
      rfl
    · rfl
  | cons range ranges ih =>
    rw [List.foldl_cons, ih]
    simp only [rangesForZone_insertZoneRange, if_true, List.foldl_cons]
    split
    · rfl
    · rfl

theorem pushNew_nodup {α : Type} [DecidableEq α] {as : List α} (h : as.Nodup) (a : α) :
    (pushNew a as).Nodup := by
  rw [pushNew]
  split
  · exact h
  · rename_i ha
    exact h.append (List.nodup_singleton a) (List.disjoint_singleton.2 ha)

/-- Values that are new and differ come in order. -/
theorem foldl_pushNew {α : Type} [DecidableEq α] {as bs : List α} (h : (as ++ bs).Nodup) :
    bs.foldl (fun l b => pushNew b l) as = as ++ bs := by
  induction bs generalizing as with
  | nil => exact (List.append_nil as).symm
  | cons b bs ih =>
    have hb : b ∉ as := fun hmem => (List.nodup_append.1 h).2.2 b hmem b List.mem_cons_self rfl
    have hsplit : as ++ b :: bs = as ++ [b] ++ bs := (List.append_assoc as [b] bs).symm
    rw [hsplit] at h ⊢
    rw [List.foldl_cons, pushNew, if_neg hb, ih h]

theorem rangesForZone_insertZones {zones : List (Zone × List CableRange)}
    (hkeys : zones.Pairwise fun a b => a.1 ≠ b.1) (hranges : ∀ z ∈ zones, z.2.Nodup) (t : ZipTable)
    (hnew : ∀ z ∈ zones, t.rangesForZone z.1 = []) (z : Zone) :
    (zones.foldl (fun zip z => z.2.foldl (·.insertZoneRange z.1) zip) t).rangesForZone z =
      ((zones.find? fun entry => entry.1 = z).map (·.2)).getD (t.rangesForZone z) := by
  induction zones generalizing t with
  | nil => rfl
  | cons entry zones ih =>
    obtain ⟨hne, hkeys⟩ := List.pairwise_cons.1 hkeys
    rw [List.forall_mem_cons] at hranges hnew
    have hinsert : ∀ z, (entry.2.foldl (·.insertZoneRange entry.1) t).rangesForZone z =
        if z = entry.1 then entry.2 else t.rangesForZone z := by
      intro z
      have hnodup : ([] ++ entry.2).Nodup := hranges.1
      rw [rangesForZone_insertRanges, hnew.1, foldl_pushNew hnodup, List.nil_append]
    rw [List.foldl_cons, ih hkeys hranges.2 _ fun e he => ?_, hinsert, List.find?_cons]
    · split
      · rename_i hz
        have hnone : zones.find? (fun e => e.1 = z) = none := by
          refine List.find?_eq_none.2 fun e he hez => hne e he ?_
          rw [of_decide_eq_true hez, hz]
        rw [hnone, decide_eq_true hz.symm]
        rfl
      · rename_i hz
        rw [decide_eq_false fun h => hz h.symm]
    · rw [hinsert, if_neg fun h => hne e he h.symm, hnew.2 e he]

theorem rangesForZone_of_mem {t : ZipTable} {z : Zone × List CableRange}
    (h : z ∈ t.zoneToRanges.toList) : t.rangesForZone z.1 = z.2 := by
  rw [rangesForZone, Std.TreeMap.mem_toList_iff_getElem?_eq_some.1 h]
  rfl

theorem rangesForZone_toList (t : ZipTable) (zone : Zone) :
    ((t.zoneToRanges.toList.find? fun entry => entry.1 = zone).map (·.2)).getD [] =
      t.rangesForZone zone := by
  generalize hfind : t.zoneToRanges.toList.find? (fun entry => decide (entry.1 = zone)) = found
  rcases found with _ | z
  · rcases hzone : t.zoneToRanges[zone]? with _ | ranges
    · rw [rangesForZone, hzone]
      rfl
    · have hnot := List.find?_eq_none.1 hfind (zone, ranges)
        (Std.TreeMap.mem_toList_iff_getElem?_eq_some.2 hzone)
      exact absurd (decide_eq_true rfl) hnot
  · have hz := List.find?_some hfind
    rw [← of_decide_eq_true hz]
    exact (rangesForZone_of_mem (List.mem_of_find?_eq_some hfind)).symm

theorem rangesForZone_ofList {t : ZipTable} (h : ∀ zone, (t.rangesForZone zone).Nodup)
    (zone : Zone) : (t.zoneToRanges.toList.foldl (fun zip (z : Zone × List CableRange) =>
      z.2.foldl (·.insertZoneRange z.1) zip) ZipTable.new).rangesForZone zone =
        t.rangesForZone zone := by
  rw [rangesForZone_insertZones ?_ ?_ .new (fun _ _ => rfl) zone]
  · exact rangesForZone_toList t zone
  · refine Std.TreeMap.distinct_keys_toList.imp fun hne heq => hne ?_
    rw [heq]
    exact Std.ReflCmp.compare_self
  · exact fun z hz => rangesForZone_of_mem hz ▸ h z.1

end ZipTable

namespace Replica

/-- A table that a client got from its daemon: nothing in it expires. -/
structure Lasting (t : Inner) : Prop where
  ranged : t.rtmp.Ranged
  lasting : ∀ e ∈ t.rtmp.entries, e.expiresAt = none
  router : t.defaultRouter = none

theorem Lasting.view {t : Inner} (h : Lasting t) (now later : Instant) :
    t.view now = t.view later := by
  have hlive : ∀ now, (t.rtmp.entries.filter fun e => !e.expired now) = t.rtmp.entries := by
    intro now
    refine List.filter_eq_self.2 fun e he => ?_
    rw [RtmpEntry.expired, h.lasting e he]
    rfl
  simp only [Inner.view, hlive, Inner.liveDefaultRouter, h.router]
  rfl

/-- An entry for a route that a snapshot lists. -/
def entryOf (r : SnapshotRoute) : RtmpEntry :=
  ⟨r.lo, r.hi, 0, r.nextHop, r.interface.getD .etherTalk, none⟩

/-- A table that a snapshot can be taken of. -/
structure Sane (t : Inner) : Prop where
  ranged : t.rtmp.Ranged
  locals : ∀ r ∈ t.localRanges, t.localRanges = [r] ∧ r.interface = .etherTalk
  router : t.defaultRouter = none
  zones : ∀ zone, (t.zip.rangesForZone zone).Nodup

/-- **What a client makes of a snapshot** is a table with the view of the daemon's. -/
theorem replaceContents_snapshot {t : Inner} (h : Sane t) (client : Inner) (now later : Instant) :
    Lasting (RouteTable.replaceContents client (RouteTable.snapshot t now)) ∧
      (RouteTable.replaceContents client (RouteTable.snapshot t now)).view later = t.view now := by
  have hlive : Spaced RtmpEntry.lo RtmpEntry.hi (t.rtmp.entries.filter fun e => !e.expired now) :=
    h.ranged.sublist List.filter_sublist
  have hentries : ∀ (routes : List SnapshotRoute) (table : RtmpTable),
      (routes.foldl (fun table r => (table.insert (entryOf r)).1) table).entries =
        (routes.map entryOf).foldl (fun l e => place RtmpEntry.lo RtmpEntry.hi e l) table.entries := by
    intro routes
    induction routes with
    | nil => exact fun _ => rfl
    | cons r routes ih => exact fun table => ih _
  have hspaced : Spaced RtmpEntry.lo RtmpEntry.hi ((RouteTable.snapshot t now).routes.map entryOf) := by
    rw [RouteTable.snapshot, List.map_map]
    exact hlive.map (fun _ => rfl) fun _ => rfl
  have hrtmp : (RouteTable.replaceContents client (RouteTable.snapshot t now)).rtmp.entries =
      (RouteTable.snapshot t now).routes.map entryOf :=
    (hentries _ _).trans (Spaced.place_all (l := []) hspaced)
  have hlasting : Lasting (RouteTable.replaceContents client (RouteTable.snapshot t now)) := by
    refine ⟨?_, ?_, rfl⟩
    · rw [RtmpTable.Ranged, hrtmp]
      exact hspaced
    · rw [hrtmp, List.forall_mem_map]
      exact fun _ _ => rfl
  refine ⟨hlasting, ?_⟩
  have hlocals : (RouteTable.replaceContents client (RouteTable.snapshot t now)).localRanges =
      t.localRanges := by
    rw [RouteTable.replaceContents, RouteTable.snapshot]
    rcases hranges : t.localRanges with _ | ⟨r, rest⟩
    · rfl
    · obtain ⟨hone, hinterface⟩ := h.locals r (hranges ▸ List.mem_cons_self)
      rw [← hranges, hone]
      simp only [List.head?_cons, Option.map_some, Option.toList_some, ← hinterface]
  have hroutes : ((RouteTable.replaceContents client (RouteTable.snapshot t now)).rtmp.entries.filter
      fun e => !e.expired later).map RtmpEntry.route = (RouteTable.snapshot t now).routes := by
    rw [hrtmp, List.filter_eq_self.2, List.map_map, RouteTable.snapshot, List.map_map]
    · rfl
    · rw [List.forall_mem_map]
      exact fun _ _ => rfl
  have hzones : (RouteTable.replaceContents client (RouteTable.snapshot t now)).zip.rangesForZone =
      t.zip.rangesForZone := funext (ZipTable.rangesForZone_ofList h.zones)
  simp only [Inner.view, hlocals, hroutes, hzones]
  simp only [Inner.liveDefaultRouter, h.router]
  rfl

/-! ## Calls that the client hears of -/

/-- All that was published has been broadcast. -/
def Quiet (t : Inner) : Prop := t.publisher = some []

instance (t : Inner) : Decidable (Quiet t) := inferInstanceAs (Decidable (_ = _))

/-- The entry is a range; where it replaces one alike, a change is waiting or the old one was live
    and on the same interface. -/
def Heard (now : Instant) (t : Inner) (e : RtmpEntry) : Prop :=
  e.rangeLo ≤ e.rangeHi ∧ (Quiet t → ∀ old ∈ t.rtmp.entries, old.rangeLo = e.rangeLo ∧
    old.rangeHi = e.rangeHi ∧ old.nextHop = e.nextHop →
      old.interface = e.interface ∧ old.expired now = false)

instance (now : Instant) (t : Inner) (e : RtmpEntry) : Decidable (Heard now t e) :=
  inferInstanceAs (Decidable (_ ∧ (_ → ∀ _ ∈ _, _ → _)))

/-- A call whose effects the client hears of. -/
def HeardCall (t : Inner) (now : Instant) : Operation → Prop
  | .setLocalRangeFor interface _ _ => interface = .etherTalk
  | .insertRoute lo hi nextHop interface => Heard now t ⟨lo, hi, 0, nextHop, interface, none⟩
  | .handleRtmp src interface tuples => t.mode = .static ∨ Along RouteTable.insertEntry (Heard now)
      t (tuples.map fun tuple =>
        ⟨tuple.1, tuple.2.1, tuple.2.2, src, interface, some (now + RTMP_ROUTE_TTL)⟩)
  | .noteRouter _ _ => t.mode = .static
  | .handleZipReply range zones =>
    t.mode = .static ∨ (Quiet t → ∀ zone ∈ zones, range ∈ t.zip.rangesForZone zone)
  | _ => True

instance (t : Inner) (now : Instant) (op : Operation) : Decidable (HeardCall t now op) := by
  unfold HeardCall
  split <;> infer_instance

/-- What the daemon's table answers changes only if something is waiting to be broadcast. -/
structure Tells (now : Instant) (t t' : Inner) : Prop where
  sane : Sane t'
  quiet : Quiet t' → Quiet t ∧ t'.view now = t.view now

theorem Tells.refl {now : Instant} {t : Inner} (h : Sane t) : Tells now t t :=
  ⟨h, fun hquiet => ⟨hquiet, rfl⟩⟩

theorem Tells.trans {now : Instant} {t t' t'' : Inner} (h : Tells now t t')
    (h' : Tells now t' t'') : Tells now t t'' := by
  refine ⟨h'.sane, fun hquiet => ?_⟩
  obtain ⟨hquiet, hview⟩ := h'.quiet hquiet
  exact ⟨(h.quiet hquiet).1, hview.trans (h.quiet hquiet).2⟩

theorem publish_not_quiet (t : Inner) (change : RouteChange) : ¬ Quiet (t.publish change) := by
  rw [Quiet, Inner.publish]
  rcases t.publisher with _ | sent
  · intro h
    cases h
  · intro h
    exact List.append_ne_nil_of_right_ne_nil sent (List.cons_ne_nil change []) (Option.some.inj h)

theorem tells_publish {now : Instant} {t t' : Inner} (h : Sane t') (change : RouteChange) :
    Tells now t (t'.publish change) :=
  ⟨⟨h.ranged, h.locals, h.router, h.zones⟩, fun hquiet => absurd hquiet (publish_not_quiet t' change)⟩

theorem Sane.withRtmp {t : Inner} (h : Sane t) {rtmp : RtmpTable} (hrtmp : rtmp.Ranged) :
    Sane { t with rtmp } :=
  ⟨hrtmp, h.locals, h.router, h.zones⟩

/-- **One entry.** -/
theorem tells_insertEntry {now : Instant} {t : Inner} (h : Sane t) {e : RtmpEntry}
    (hheard : Heard now t e) (hlive : e.expired now = false) :
    Tells now t (RouteTable.insertEntry t e) := by
  have hsane : Sane { t with rtmp := (t.rtmp.insert e).1 } :=
    h.withRtmp ((RtmpTable.ranged_insert h.ranged).2 hheard.1)
  simp only [RouteTable.insertEntry]
  split
  · exact tells_publish hsane _
  · rename_i hrefresh
    refine ⟨hsane, fun hquiet => ⟨hquiet, ?_⟩⟩
    simp only [RtmpTable.insert, Bool.not_eq_true', Bool.not_eq_false, List.any_eq_true,
      decide_eq_true_eq] at hrefresh
    obtain ⟨old, hold, hsame⟩ := hrefresh
    obtain ⟨hinterface, holdLive⟩ := hheard.2 hquiet old hold hsame
    obtain ⟨before, behind, hsplit⟩ := List.append_of_mem hold
    have hinsert : (t.rtmp.insert e).1.entries = before ++ e :: behind := by
      have hranged := h.ranged
      rw [RtmpTable.Ranged, hsplit] at hranged
      rw [RtmpTable.insert, hsplit]
      exact hranged.place_again (congrArg UInt16.toNat hsame.1.symm)
        (congrArg UInt16.toNat hsame.2.1.symm)
    have hroute : e.route = old.route := by
      rw [RtmpEntry.route, RtmpEntry.route, hsame.1, hsame.2.1, hsame.2.2, hinterface]
    simp only [Inner.view, hinsert, hsplit, List.filter_append, List.filter_cons, hlive, holdLive,
      Bool.not_false, if_true, List.map_append, List.map_cons, hroute]
    rfl

theorem tells_insertEntries {now : Instant} {es : List RtmpEntry} {t : Inner} (h : Sane t)
    (hheard : Along RouteTable.insertEntry (Heard now) t es)
    (hlive : ∀ e ∈ es, e.expired now = false) :
    Tells now t (run RouteTable.insertEntry t es) := by
  induction es generalizing t with
  | nil => exact .refl h
  | cons e es ih =>
    rw [List.forall_mem_cons] at hlive
    have hstep := tells_insertEntry h hheard.1 hlive.1
    exact hstep.trans (ih hstep.sane hheard.2 hlive.2)

theorem tells_setLocalRangeFor {now : Instant} {t : Inner} (h : Sane t) (lo hi : UInt16) :
    Tells now t (RouteTable.setLocalRangeFor t .etherTalk lo hi) := by
  have hsane : Sane { t with localRanges := [⟨.etherTalk, ⟨lo, hi⟩⟩] } := by
    refine ⟨h.ranged, fun r hr => ?_, h.router, h.zones⟩
    rw [List.mem_singleton.1 hr]
    exact ⟨rfl, rfl⟩
  rcases hranges : t.localRanges with _ | ⟨r, rest⟩
  · simp only [RouteTable.setLocalRangeFor, Inner.upsertLocalRange, hranges, List.findIdx?_nil,
      List.nil_append, if_true]
    exact tells_publish hsane _
  · obtain ⟨hone, hinterface⟩ := h.locals r (hranges ▸ List.mem_cons_self)
    simp only [RouteTable.setLocalRangeFor, Inner.upsertLocalRange, hone, List.findIdx?_cons,
      hinterface, decide_true, if_true, List.getElem?_cons_zero, Option.map_some, Option.some.injEq,
      List.set_cons_zero]
    split
    · exact .refl h
    · exact tells_publish hsane _

theorem rangesForZone_removeZone (t : ZipTable) (zone z : Zone) :
    (t.removeZone zone).rangesForZone z = if z = zone then [] else t.rangesForZone z := by
  simp only [ZipTable.rangesForZone, ZipTable.removeZone]
  rcases hzone : t.zoneToRanges[zone]? with _ | ranges
  · dsimp only
    split
    · rename_i hz
      rw [hz, hzone]
      rfl
    · rfl
  · dsimp only
    rw [getElem?_erase_eq]
    split
    · rfl
    · rfl

theorem nodup_insertZoneRange {t : ZipTable} (h : ∀ z, (t.rangesForZone z).Nodup) (zone : Zone)
    (range : CableRange) (z : Zone) : ((t.insertZoneRange zone range).rangesForZone z).Nodup := by
  rw [ZipTable.rangesForZone_insertZoneRange]
  split
  · exact ZipTable.pushNew_nodup (h zone) range
  · exact h z

theorem Sane.withZip {t : Inner} (h : Sane t) {zip : ZipTable}
    (hzip : ∀ zone, (zip.rangesForZone zone).Nodup) : Sane { t with zip } :=
  ⟨h.ranged, h.locals, h.router, hzip⟩

theorem tells_handleZipReply {now : Instant} {t : Inner} (h : Sane t) {range : CableRange}
    {zones : List Zone} (hheard : t.mode = .static ∨
      (Quiet t → ∀ zone ∈ zones, range ∈ t.zip.rangesForZone zone)) :
    Tells now t (RouteTable.handleZipReply t range zones) := by
  rw [RouteTable.handleZipReply]
  split
  · exact .refl h
  · rename_i hmode
    refine ⟨h.withZip (List.foldlRecOn (motive := fun zip : ZipTable =>
      ∀ zone, (zip.rangesForZone zone).Nodup) zones _ h.zones fun zip hzip zone _ =>
        nodup_insertZoneRange hzip zone range), fun hquiet => ⟨hquiet, ?_⟩⟩
    have hsame : ∀ z, (zones.foldl (fun zip zone => zip.insertZoneRange zone range)
        t.zip).rangesForZone z = t.zip.rangesForZone z := by
      refine List.foldlRecOn (motive := fun zip : ZipTable =>
        ∀ z, zip.rangesForZone z = t.zip.rangesForZone z) zones _ (fun _ => rfl) ?_
      intro zip hzip zone hzone z
      rw [ZipTable.rangesForZone_insertZoneRange]
      split
      · rename_i hz
        rw [hzip, hz, ZipTable.pushNew, if_pos ((hheard.resolve_left hmode) hquiet zone hzone)]
      · exact hzip z
    simp only [Inner.view, funext hsame]
    rfl

theorem tells_purgeExpired {now : Instant} {t : Inner} (h : Sane t) :
    Tells now t (RouteTable.purgeExpired t now) := by
  refine ⟨⟨RtmpTable.ranged_purgeExpired h.ranged now, h.locals, ?_, h.zones⟩,
    fun hquiet => ⟨hquiet, ?_⟩⟩
  · simp only [RouteTable.purgeExpired, Inner.liveDefaultRouter, h.router]
    rfl
  · simp only [RouteTable.purgeExpired, Inner.view, RtmpTable.purgeExpired,
      Inner.liveDefaultRouter, h.router, List.filter_filter, Bool.and_self]
    rfl

theorem live_of_ttl {e : RtmpEntry} {now : Instant}
    (h : e.expiresAt = some (now + RTMP_ROUTE_TTL)) : e.expired now = false := by
  have hpos : 0 < RTMP_ROUTE_TTL := by decide
  rw [RtmpEntry.expired, h, Option.any_some]
  exact decide_eq_false (Nat.not_le.2 (Nat.lt_add_of_pos_right hpos))

/-- **One call.** -/
theorem tells_perform {now : Instant} {t : Inner} (h : Sane t) {op : Operation}
    (hheard : HeardCall t now op) : Tells now t (RouteTable.perform t now op) := by
  cases op with
  | setLocalRangeFor interface lo hi =>
    obtain rfl : interface = .etherTalk := hheard
    exact tells_setLocalRangeFor h lo hi
  | insertRoute lo hi nextHop interface => exact tells_insertEntry h hheard rfl
  | removeRoute lo hi =>
    exact tells_publish (h.withRtmp (RtmpTable.ranged_remove h.ranged lo hi)) _
  | insertZone zone ranges =>
    refine tells_publish (h.withZip ?_) _
    exact List.foldlRecOn (motive := fun zip : ZipTable => ∀ z, (zip.rangesForZone z).Nodup) ranges _
      h.zones fun zip hzip range _ => nodup_insertZoneRange hzip zone range
  | removeZone zone =>
    refine tells_publish (h.withZip fun z => ?_) _
    rw [rangesForZone_removeZone]
    split
    · exact List.nodup_nil
    · exact h.zones z
  | handleRtmp src interface tuples =>
    rw [RouteTable.perform, RouteTable.handleRtmp]
    split
    · exact .refl h
    · rename_i hmode
      have hentries := tells_insertEntries h (hheard.resolve_left hmode) fun e he => by
        obtain ⟨tuple, -, rfl⟩ := List.mem_map.1 he
        exact live_of_ttl rfl
      rwa [run, List.foldl_map] at hentries
  | noteRouter router interface =>
    have hmode : t.mode = .static := hheard
    rw [RouteTable.perform, RouteTable.noteRouter, if_pos hmode]
    exact .refl h
  | purgeExpired => exact tells_purgeExpired h
  | handleZipReply range zones => exact tells_handleZipReply h hheard

end Replica

/-! ## The daemon and its client -/

/-- The two tables, the snapshots on their way and the clock. -/
structure Replica where
  daemon : Inner
  /-- listings on their way to the client -/
  channel : List Proto.ListRoutesReply
  client : Inner
  clock : Instant

namespace Replica

/-- What happens at a daemon with a client. -/
inductive Action where
  | call (op : Operation)
  | wait (time : ℕ)
  /-- the daemon broadcasts its table, for all changes that wait -/
  | broadcast
  /-- the session has passed on some listings, then misses some and has a new one taken -/
  | lag (passed missed : ℕ)
  | deliver

/-- The listing of the daemon's table as it is. -/
def listing (r : Replica) : Proto.ListRoutesReply :=
  routesToProto (RouteTable.snapshot r.daemon r.clock)

/-- What the client does with a listing. -/
def apply (client : Inner) (reply : Proto.ListRoutesReply) : Inner :=
  RouteTable.replaceContents client (snapshotFromProto reply)

/-- One action. -/
def step (r : Replica) : Action → Replica
  | .call op => { r with daemon := RouteTable.perform r.daemon r.clock op }
  | .wait time => { r with clock := r.clock + time }
  | .broadcast =>
    match r.daemon.publisher with
    | some (_ :: _) =>
      { r with
        daemon := { r.daemon with publisher := some [] }
        channel := r.channel ++ [r.listing] }
    | _ => r
  | .lag passed missed =>
    if passed + missed < r.channel.length then
      { r with channel := r.channel.take passed ++ r.listing :: r.channel.drop (passed + missed) }
    else r
  | .deliver =>
    match r.channel with
    | [] => r
    | reply :: rest => { r with client := apply r.client reply, channel := rest }

/-- A client that has just connected to a daemon. -/
def start (mode : LearningMode) : Replica :=
  let daemon := RouteTable.setPublisher (RouteTable.new mode)
  let listing := routesToProto (RouteTable.snapshot daemon 0)
  { daemon, channel := [], client := apply (RouteTable.new .static) listing, clock := 0 }

/-- Every change that was published has been applied. -/
def Settled (r : Replica) : Prop := Quiet r.daemon ∧ r.channel = []

instance (r : Replica) : Decidable r.Settled := inferInstanceAs (Decidable (_ ∧ _))

/-- Two tables give the same answers. -/
structure Agree (now : Instant) (a b : Inner) : Prop where
  resolve : ∀ net, a.routeFor net now = b.routeFor net now
  interfaceForNet : ∀ net, a.interfaceForNet net now = b.interfaceForNet net now
  nbpDispatch : ∀ zone, a.nbpDispatch zone now = b.nbpDispatch zone now

theorem agree_of_view {now : Instant} {a b : Inner} (ha : a.rtmp.Ranged) (hb : b.rtmp.Ranged)
    (hview : a.view now = b.view now) : Agree now a b := by
  have hresolve : ∀ net, a.routeFor net now = b.routeFor net now := by
    intro net
    rw [Inner.routeFor_view ha, Inner.routeFor_view hb, hview]
  refine ⟨hresolve, fun net => ?_, fun zone => ?_⟩
  · rw [Inner.interfaceForNet, Inner.interfaceForNet, hresolve]
  · rw [Inner.nbpDispatch_view ha, Inner.nbpDispatch_view hb, hview]

/-- The effects of an action are published, or there are none. -/
def Faithful (r : Replica) : Action → Prop
  | .call op => HeardCall r.daemon r.clock op
  | .wait time => Quiet r.daemon → ∀ e ∈ r.daemon.rtmp.entries,
      e.expired r.clock = false → e.expired (r.clock + time) = false
  | _ => True

instance (r : Replica) (action : Action) : Decidable (Faithful r action) := by
  unfold Faithful
  split <;> infer_instance

/-- The client's table once all listings on their way have been applied. -/
def upcoming (r : Replica) : Inner :=
  match r.channel.getLast? with
  | none => r.client
  | some reply => apply r.client reply

/-- The client has the daemon's view, or a change waits to be broadcast. -/
structure Synced (r : Replica) : Prop where
  sane : Sane r.daemon
  lasting : Lasting r.upcoming
  view : Quiet r.daemon → r.upcoming.view r.clock = r.daemon.view r.clock

theorem apply_lasting {a : Inner} {reply : Proto.ListRoutesReply} (h : Lasting (apply a reply))
    (b : Inner) : Lasting (apply b reply) :=
  ⟨h.ranged, h.lasting, h.router⟩

theorem apply_listing {r : Replica} (h : Sane r.daemon) (client : Inner) (now : Instant) :
    Lasting (apply client r.listing) ∧
      (apply client r.listing).view now = r.daemon.view r.clock := by
  rw [apply, listing, snapshotFromProto_routesToProto]
  exact replaceContents_snapshot h client r.clock now

theorem synced_start (mode : LearningMode) : Synced (start mode) := by
  have hsane : Sane (start mode).daemon :=
    ⟨RtmpTable.ranged_new, (fun _ h => nomatch h), rfl, fun _ => List.nodup_nil⟩
  obtain ⟨hlasting, hview⟩ := apply_listing (r := start mode) hsane (RouteTable.new .static) 0
  exact ⟨hsane, hlasting, fun _ => hview⟩

theorem expired_mono {e : RtmpEntry} {now : Instant} (h : e.expired now = true) (time : ℕ) :
    e.expired (now + time) = true := by
  rw [RtmpEntry.expired, Option.any_eq_true] at h ⊢
  obtain ⟨at_, hat, hle⟩ := h
  exact ⟨at_, hat, decide_eq_true (Nat.le_add_right_of_le (of_decide_eq_true hle))⟩

theorem view_wait {t : Inner} (h : Sane t) {now : Instant} {time : ℕ}
    (hlive : ∀ e ∈ t.rtmp.entries, e.expired now = false → e.expired (now + time) = false) :
    t.view (now + time) = t.view now := by
  have hfilter : (t.rtmp.entries.filter fun e => !e.expired (now + time)) =
      t.rtmp.entries.filter fun e => !e.expired now := by
    refine List.filter_congr fun e he => ?_
    rcases hnow : e.expired now with _ | _
    · rw [hlive e he hnow]
    · rw [expired_mono hnow]
  simp only [Inner.view, hfilter, Inner.liveDefaultRouter, h.router]
  rfl

/-- **One action.** -/
theorem Synced.step {r : Replica} (h : Synced r) {action : Action} (hok : Faithful r action) :
    Synced (step r action) := by
  cases action with
  | call op =>
    have htells := tells_perform h.sane hok
    refine ⟨htells.sane, h.lasting, fun hquiet => ?_⟩
    obtain ⟨hquiet, hview⟩ := htells.quiet hquiet
    exact (h.view hquiet).trans hview.symm
  | wait time =>
    refine ⟨h.sane, h.lasting, fun hquiet => ?_⟩
    calc r.upcoming.view (r.clock + time) = r.upcoming.view r.clock := h.lasting.view _ _
      _ = r.daemon.view r.clock := h.view hquiet
      _ = r.daemon.view (r.clock + time) := (view_wait h.sane (hok hquiet)).symm
  | broadcast =>
    rw [Replica.step]
    split
    · have hupcoming : upcoming { r with
          daemon := { r.daemon with publisher := some [] }, channel := r.channel ++ [r.listing] } =
          apply r.client r.listing := by
        rw [upcoming, List.getLast?_concat]
      obtain ⟨hlasting, hview⟩ := apply_listing h.sane r.client r.clock
      refine ⟨⟨h.sane.ranged, h.sane.locals, h.sane.router, h.sane.zones⟩, ?_, fun _ => ?_⟩
      · rw [hupcoming]
        exact hlasting
      · rw [hupcoming]
        exact hview
    · exact h
  | lag passed missed =>
    rw [Replica.step]
    split
    · rename_i hlt
      have hlast : (r.channel.take passed ++ r.listing ::
          r.channel.drop (passed + missed)).getLast? = r.channel.getLast? := by
        rw [List.getLast?_append, List.getLast?_cons, List.getLast?_drop, if_neg (Nat.not_le.2 hlt),
          List.getLast?_eq_getElem?, List.getElem?_eq_getElem (by omega)]
        rfl
      generalize r.channel.take passed ++ r.listing :: r.channel.drop (passed + missed) = channel
        at hlast ⊢
      have hupcoming : upcoming { r with channel } = r.upcoming := by
        rw [upcoming, upcoming, hlast]
      exact ⟨h.sane, hupcoming ▸ h.lasting, fun hquiet => hupcoming ▸ h.view hquiet⟩
    · exact h
  | deliver =>
    rw [Replica.step]
    split
    · exact h
    · rename_i reply rest hchannel
      have hlast : r.channel.getLast? = some (rest.getLast?.getD reply) := by
        rw [hchannel, List.getLast?_cons]
      have hlasting := h.lasting
      have hview := h.view
      rw [upcoming, hlast] at hlasting hview
      rcases hrest : rest.getLast? with _ | last
      · rw [hrest] at hlasting hview
        refine ⟨h.sane, ?_, ?_⟩
        · rw [upcoming, hrest]
          exact hlasting
        · rw [upcoming, hrest]
          exact hview
      · rw [hrest] at hlasting hview
        refine ⟨h.sane, ?_, ?_⟩
        · rw [upcoming, hrest]
          exact apply_lasting hlasting _
        · rw [upcoming, hrest]
          exact hview

/-- **The replica agrees with the daemon's table** whenever every change that was published has
    been applied. -/
theorem replica_agrees {mode : LearningMode} {actions : List Action}
    (hok : Along step Faithful (start mode) actions)
    (hsettled : (run step (start mode) actions).Settled) :
    Agree (run step (start mode) actions).clock (run step (start mode) actions).client
      (run step (start mode) actions).daemon := by
  have hsynced := inv_run step (fun _ _ h hok => h.step hok) (synced_start mode) hok
  generalize run step (start mode) actions = r at hsynced hsettled
  obtain ⟨hquiet, hchannel⟩ := hsettled
  have hupcoming : r.upcoming = r.client := by
    rw [upcoming, hchannel]
    rfl
  have hlasting := hsynced.lasting
  have hview := hsynced.view hquiet
  rw [hupcoming] at hlasting hview
  exact agree_of_view hlasting.ranged hsynced.sane.ranged hview

/-! ## A run the client follows, and one it does not -/

/-- Routes of broadcasts and of calls, a zone, and a listing that the client misses. -/
def followed : List Action :=
  [.call (.setLocalRangeFor .etherTalk 3 5),
    .call (.handleRtmp ⟨3, 254⟩ .etherTalk [(10, 20, 1), (2, 2, 1)]),
    .broadcast, .call (.insertZone "Twilight".toList [⟨10, 20⟩]), .wait 1000000000, .broadcast,
    .lag 0 1, .deliver, .call (.handleRtmp ⟨3, 254⟩ .etherTalk [(10, 20, 1)]),
    .call (.removeRoute 2 2), .broadcast, .deliver, .deliver, .wait 1000000000,
    .call (.handleRtmp ⟨3, 254⟩ .etherTalk [(10, 20, 1)])]

theorem replica_agrees_followed :
    Agree (run step (start .dynamic) followed).clock (run step (start .dynamic) followed).client
      (run step (start .dynamic) followed).daemon :=
  replica_agrees (by decide +kernel) (by decide +kernel)

/-- A router of last resort is never told of. -/
theorem replica_agrees_fails : ¬ ∀ (mode : LearningMode) (actions : List Action),
    (run step (start mode) actions).Settled →
      Agree (run step (start mode) actions).clock (run step (start mode) actions).client
        (run step (start mode) actions).daemon := by
  intro h
  have hresolve := (h .dynamic [.call (.noteRouter ⟨2, 254⟩ .localTalk)] (by decide)).resolve 7
  exact absurd hresolve (by decide +kernel)

end Replica

end TailTalk
