/-
  Zones and cable ranges — the two maps of the ZIP table: each map is what the
  other says, read the other way, a range that is listed has a zone, and a zone
  that is removed takes nothing with it but its own entries.
-/
import TailTalk.Routes.Replica

namespace TailTalk

open Lib

namespace ZipTable

/-- The zones of a range. -/
def zonesForRange (t : ZipTable) (range : CableRange) : List Zone := t.rangeToZones[range]?.getD []

/-- Two maps that are each other's inverse. -/
structure Consistent (t : ZipTable) : Prop where
  inverse : ∀ range zone, zone ∈ t.zonesForRange range ↔ range ∈ t.rangesForZone zone
  zones : ∀ range, (t.zonesForRange range).Nodup
  ranges : ∀ zone, (t.rangesForZone zone).Nodup
  nonempty : ∀ range : CableRange, t.rangeToZones[range]? ≠ some []

/-- A zone that is gone, and all else as it was. -/
structure Removed (zone : Zone) (t t' : ZipTable) : Prop where
  gone : ∀ range, zone ∉ t'.zonesForRange range
  zones : ∀ range, t'.zonesForRange range = (t.zonesForRange range).filter (· ≠ zone)
  ranges : ∀ other, t'.rangesForZone other = if other = zone then [] else t.rangesForZone other

/-! ## One operation -/

theorem mem_pushNew {α : Type} [DecidableEq α] {a b : α} {as : List α} :
    b ∈ pushNew a as ↔ b ∈ as ∨ b = a := by
  rw [pushNew]
  split
  · rename_i ha
    exact ⟨Or.inl, fun h => h.elim id fun hb => hb ▸ ha⟩
  · rw [List.mem_append, List.mem_singleton]

theorem pushNew_ne_nil {α : Type} [DecidableEq α] (a : α) (as : List α) : pushNew a as ≠ [] :=
  List.ne_nil_of_mem (mem_pushNew.2 (Or.inr rfl))

theorem zonesForRange_insertZoneRange (t : ZipTable) (zone : Zone) (range r : CableRange) :
    (t.insertZoneRange zone range).zonesForRange r =
      if r = range then pushNew zone (t.zonesForRange range) else t.zonesForRange r := by
  simp only [zonesForRange, insertZoneRange]
  rw [getElem?_insert_eq]
  split
  · rfl
  · rfl

theorem Consistent.insertZoneRange {t : ZipTable} (h : Consistent t) (zone : Zone)
    (range : CableRange) : Consistent (t.insertZoneRange zone range) where
  inverse := by
    intro r z
    rw [zonesForRange_insertZoneRange, rangesForZone_insertZoneRange]
    by_cases hr : r = range
    · by_cases hz : z = zone
      · rw [if_pos hr, if_pos hz, mem_pushNew, mem_pushNew]
        exact iff_of_true (Or.inr hz) (Or.inr hr)
      · rw [if_pos hr, if_neg hz, mem_pushNew, hr, ← h.inverse]
        exact or_iff_left hz
    · by_cases hz : z = zone
      · rw [if_neg hr, if_pos hz, mem_pushNew, hz, h.inverse]
        exact (or_iff_left hr).symm
      · rw [if_neg hr, if_neg hz, h.inverse]
  zones := by
    intro r
    rw [zonesForRange_insertZoneRange]
    split
    · exact pushNew_nodup (h.zones range) zone
    · exact h.zones r
  ranges := Replica.nodup_insertZoneRange h.ranges zone range
  nonempty := by
    intro r
    simp only [ZipTable.insertZoneRange]
    rw [getElem?_insert_eq]
    split
    · exact fun hnone => pushNew_ne_nil zone _ (Option.some.inj hnone)
    · exact h.nonempty r

/-- What is left of a range's zones; no range is left with none. -/
def withoutZone (zone : Zone) (zones : Option (List Zone)) : Option (List Zone) :=
  zones.bind fun names =>
    if names.filter (· ≠ zone) = [] then none else some (names.filter (· ≠ zone))

theorem withoutZone_withoutZone (zone : Zone) (zones : Option (List Zone)) :
    withoutZone zone (withoutZone zone zones) = withoutZone zone zones := by
  cases zones with
  | none => rfl
  | some names =>
    simp only [withoutZone, Option.bind_some]
    by_cases hnone : names.filter (· ≠ zone) = []
    · rw [if_pos hnone, Option.bind_none]
    · have htwice : (names.filter (· ≠ zone)).filter (· ≠ zone) = names.filter (· ≠ zone) := by
        rw [List.filter_filter]
        simp only [Bool.and_self]
      rw [if_neg hnone, Option.bind_some, htwice, if_neg hnone]

theorem getElem?_forgetZone (zone : Zone) (zones : Std.TreeMap CableRange (List Zone))
    (range r : CableRange) : (forgetZone zone zones range)[r]? =
      if r = range then withoutZone zone zones[r]? else zones[r]? := by
  by_cases hr : r = range
  · rw [if_pos hr, hr, forgetZone]
    cases hrange : zones[range]? with
    | none => exact hrange
    | some names =>
      dsimp only [withoutZone, Option.bind_some]
      split
      · rw [getElem?_erase_eq, if_pos rfl]
      · rw [getElem?_insert_eq, if_pos rfl]
  · rw [if_neg hr, forgetZone]
    split
    · rfl
    · dsimp only
      split
      · rw [getElem?_erase_eq, if_neg hr]
      · rw [getElem?_insert_eq, if_neg hr]

theorem getElem?_forgetZones (zone : Zone) (ranges : List CableRange)
    (zones : Std.TreeMap CableRange (List Zone)) (r : CableRange) :
    (ranges.foldl (forgetZone zone) zones)[r]? =
      if r ∈ ranges then withoutZone zone zones[r]? else zones[r]? := by
  induction ranges generalizing zones with
  | nil => rfl
  | cons range ranges ih =>
    rw [List.foldl_cons, ih, getElem?_forgetZone]
    by_cases hr : r = range
    · simp [hr, withoutZone_withoutZone]
    · simp [hr]

/-- A zone is taken off all ranges that have it. -/
theorem getElem?_removeZone {t : ZipTable} (h : Consistent t) (zone : Zone) (r : CableRange) :
    (t.removeZone zone).rangeToZones[r]? = withoutZone zone t.rangeToZones[r]? := by
  have hnot : r ∉ t.rangesForZone zone →
      withoutZone zone t.rangeToZones[r]? = t.rangeToZones[r]? := by
    intro hr
    have hzone := mt (h.inverse r zone).1 hr
    rw [zonesForRange] at hzone
    cases hnames : t.rangeToZones[r]? with
    | none => rfl
    | some names =>
      rw [hnames, Option.getD_some] at hzone
      have hall : names.filter (· ≠ zone) = names :=
        List.filter_eq_self.2 fun name hname => decide_eq_true fun heq => hzone (heq ▸ hname)
      have hsome : names ≠ [] := fun hnone => h.nonempty r (hnone ▸ hnames)
      rw [withoutZone, Option.bind_some, hall, if_neg hsome]
  rw [removeZone]
  rw [rangesForZone] at hnot
  cases hranges : t.zoneToRanges[zone]? with
  | none =>
    rw [hranges] at hnot
    exact (hnot List.not_mem_nil).symm
  | some ranges =>
    rw [hranges] at hnot
    dsimp only
    rw [getElem?_forgetZones]
    split
    · rfl
    · rename_i hr
      exact (hnot hr).symm

theorem zonesForRange_removeZone {t : ZipTable} (h : Consistent t) (zone : Zone) (r : CableRange) :
    (t.removeZone zone).zonesForRange r = (t.zonesForRange r).filter (· ≠ zone) := by
  rw [zonesForRange, getElem?_removeZone h, zonesForRange]
  cases t.rangeToZones[r]? with
  | none => rfl
  | some names =>
    rw [withoutZone, Option.bind_some, Option.getD_some]
    split
    · rename_i hnone
      exact hnone.symm
    · rfl

theorem Consistent.removed {t : ZipTable} (h : Consistent t) (zone : Zone) :
    Removed zone t (t.removeZone zone) where
  gone := by
    intro range hmem
    rw [zonesForRange_removeZone h] at hmem
    exact of_decide_eq_true (List.mem_filter.1 hmem).2 rfl
  zones := zonesForRange_removeZone h zone
  ranges := Replica.rangesForZone_removeZone t zone

theorem Consistent.removeZone {t : ZipTable} (h : Consistent t) (zone : Zone) :
    Consistent (t.removeZone zone) where
  inverse := by
    intro range other
    rw [zonesForRange_removeZone h, Replica.rangesForZone_removeZone, List.mem_filter]
    by_cases hother : other = zone
    · rw [if_pos hother]
      exact iff_of_false (fun hmem => of_decide_eq_true hmem.2 hother) List.not_mem_nil
    · rw [if_neg hother, ← h.inverse]
      exact and_iff_left (decide_eq_true hother)
  zones := by
    intro range
    rw [zonesForRange_removeZone h]
    exact (h.zones range).filter _
  ranges := by
    intro other
    rw [Replica.rangesForZone_removeZone]
    split
    · exact List.nodup_nil
    · exact h.ranges other
  nonempty := by
    intro range hnone
    rw [getElem?_removeZone h, withoutZone] at hnone
    obtain ⟨names, -, hleft⟩ := Option.bind_eq_some_iff.1 hnone
    split_ifs at hleft with hempty
    exact hempty (Option.some.inj hleft)

/-! ## Runs -/

/-- The operations on the maps. -/
inductive ZoneOp where
  | insertZoneRange (zone : Zone) (range : CableRange)
  | removeZone (zone : Zone)

/-- One of them. -/
def step (t : ZipTable) : ZoneOp → ZipTable
  | .insertZoneRange zone range => t.insertZoneRange zone range
  | .removeZone zone => t.removeZone zone

theorem consistent_new : Consistent new where
  inverse := fun _ _ => iff_of_false List.not_mem_nil List.not_mem_nil
  zones := fun _ => List.nodup_nil
  ranges := fun _ => List.nodup_nil
  nonempty := fun _ h => nomatch h

/-- **The two maps agree.**  After any operations on a new table each map is the other's inverse,
    without duplicates or empty ranges, and the next removal takes its own zone and nothing else. -/
theorem zones_consistent (ops : List ZoneOp) :
    Consistent (run step new ops) ∧
      ∀ zone, Removed zone (run step new ops) ((run step new ops).removeZone zone) := by
  have hrun : Consistent (run step new ops) := by
    refine inv_run step (fun t op ht _ => ?_) consistent_new (along_true step ops)
    cases op with
    | insertZoneRange zone range => exact ht.insertZoneRange zone range
    | removeZone zone => exact ht.removeZone zone
  exact ⟨hrun, hrun.removed⟩

end ZipTable

end TailTalk
