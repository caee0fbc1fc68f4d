/-
  Views — what a route table answers from.

  A `RouteView` has no hop counts, expiry or order of maps.  The answers of a
  table whose ranges are apart are those of its view: tables of one view agree.
-/
import TailTalk.Routes.Integrity

namespace TailTalk

open Lib

/-- What the answers depend on. -/
structure RouteView where
  localRanges : List LocalRange
  routes : List SnapshotRoute
  router : Option (AppleTalkAddress × Interface)
  zones : Zone → List CableRange

namespace RouteView

/-- The route to a network. -/
def routeAt (t : RouteView) (net : UInt16) : Option SnapshotRoute :=
  t.routes.find? fun r => r.lo ≤ net ∧ net ≤ r.hi

/-- The next hop for a network. -/
def resolve (t : RouteView) (net : UInt16) : Option NextHop :=
  match t.localRanges.find? fun r => r.range.contains net with
  | some r => some (.local r.interface)
  | none => match t.routeAt net with
    | some r => some (.via r.nextHop (r.interface.getD .etherTalk))
    | none => t.router.map fun r => .via r.1 r.2

/-- Every router. -/
def allRouters (t : RouteView) : List AppleTalkAddress :=
  let routers := dedup (t.routes.map (·.nextHop))
  match t.router with
  | some r => if r.1 ∈ routers then routers else routers ++ [r.1]
  | none => routers

/-- The routers that lead to a zone. -/
def routersForZone (t : RouteView) (zone : Zone) : List AppleTalkAddress :=
  dedup (((t.zones zone).filterMap fun r => t.routeAt r.lo).map (·.nextHop))

/-- Where a lookup goes. -/
def nbpDispatch (t : RouteView) : NbpZone → NbpDispatch
  | .local => .localBroadcast
  | .all => if t.allRouters = [] then .localBroadcast else .routerBroadcast t.allRouters
  | .named name =>
    if t.routersForZone name ≠ [] then .routerBroadcast (t.routersForZone name)
    else if t.allRouters = [] then .zoneUnknown else .routerBroadcast t.allRouters

end RouteView

/-- An entry without its hop count and its end. -/
def RtmpEntry.route (e : RtmpEntry) : SnapshotRoute :=
  ⟨e.rangeLo, e.rangeHi, e.nextHop, some e.interface⟩

namespace Inner

/-- The view of a table at some time. -/
def view (t : Inner) (now : Instant) : RouteView where
  localRanges := t.localRanges
  routes := (t.rtmp.entries.filter fun e => !e.expired now).map RtmpEntry.route
  router := (t.liveDefaultRouter now).map fun r => (r.addr, r.interface)
  zones := t.zip.rangesForZone

variable {t : Inner} {now : Instant}

theorem lookup_eq_find? (h : t.rtmp.Ranged) (net : UInt16) : t.rtmp.lookup net now =
    (t.rtmp.entries.filter fun e => !e.expired now).find? fun e =>
      decide (e.rangeLo ≤ net ∧ net ≤ e.rangeHi) := by
  have hlive : Spaced RtmpEntry.lo RtmpEntry.hi (t.rtmp.entries.filter fun e => !e.expired now) :=
    h.sublist List.filter_sublist
  refine Option.ext fun e => ?_
  have hfind := hlive.find? (a := e) (n := net.toNat)
  simp only [RtmpEntry.lo, RtmpEntry.hi, ← UInt16.le_iff_toNat_le, List.mem_filter,
    Bool.not_eq_true'] at hfind
  rw [h.lookup, hfind]
  exact ⟨fun ⟨hmem, hin, hlive⟩ => ⟨⟨hmem, hlive⟩, hin⟩, fun ⟨⟨hmem, hlive⟩, hin⟩ =>
    ⟨hmem, hin, hlive⟩⟩

theorem routeAt_view (h : t.rtmp.Ranged) (net : UInt16) :
    (t.view now).routeAt net = (t.rtmp.lookup net now).map RtmpEntry.route := by
  rw [lookup_eq_find? h, RouteView.routeAt, view, List.find?_map]
  rfl

/-- **Next hops** are those of the view. -/
theorem routeFor_view (h : t.rtmp.Ranged) (net : UInt16) :
    t.routeFor net now = (t.view now).resolve net := by
  rw [routeFor, RouteView.resolve, routeAt_view h, localRangeFor, view]
  dsimp only
  generalize t.localRanges.find? (fun r => r.range.contains net) = range
  rcases range with _ | r
  · rcases t.rtmp.lookup net now with _ | e
    · simp only [Option.map_none, Option.map_map]
      rfl
    · rfl
  · rfl

theorem allRouters_view : t.allRouters now = (t.view now).allRouters := by
  have hrouters : t.rtmp.allNextHopsDeduped now = dedup ((t.view now).routes.map (·.nextHop)) := by
    rw [RtmpTable.allNextHopsDeduped, view, List.map_map]
    rfl
  rw [allRouters, RouteView.allRouters, hrouters, view]
  dsimp only
  rcases t.liveDefaultRouter now with _ | r
  · rfl
  · rfl

theorem routersForZone_view (h : t.rtmp.Ranged) (zone : Zone) :
    t.routersForZone zone now = (t.view now).routersForZone zone := by
  have hroutes : ((t.zip.rangesForZone zone).filterMap fun r => (t.view now).routeAt r.lo) =
      ((t.zip.rangesForZone zone).filterMap fun r => t.rtmp.lookup r.lo now).map RtmpEntry.route := by
    rw [List.map_filterMap]
    simp only [routeAt_view h]
  have hzones : (t.view now).zones zone = t.zip.rangesForZone zone := rfl
  rw [routersForZone, RouteView.routersForZone, hzones, hroutes, List.map_map]
  rfl

/-- **Requests for names** go where the view sends them. -/
theorem nbpDispatch_view (h : t.rtmp.Ranged) (zone : NbpZone) :
    t.nbpDispatch zone now = (t.view now).nbpDispatch zone := by
  cases zone with
  | «local» => rfl
  | all => rw [nbpDispatch, allRouters_view, RouteView.nbpDispatch]
  | named name =>
    rw [nbpDispatch, allRouters_view, routersForZone_view h, RouteView.nbpDispatch]

end Inner

end TailTalk
