/-
  Route listings — what a daemon tells its clients about its route table.

  A listing is the snapshot of a table in the messages of the wire, whose
  numbers are 32 bits wide; `snapshotFromProto_routesToProto` is the round trip.
-/
import TailTalk.Routes.RouteTable

namespace TailTalk

namespace Proto

/-- A range on the wire. -/
structure CableRange where
  lo : UInt32
  hi : UInt32

/-- An address on the wire. -/
structure AppleTalkAddress where
  network : UInt32
  node : UInt32

/-- An entry on the wire. -/
structure Route where
  range : Option CableRange
  nextHop : Option AppleTalkAddress
  /-- 0 none, 1 and 2 the phases of EtherTalk, 3 LocalTalk -/
  interface : Int

/-- A zone on the wire. -/
structure Zone where
  name : TailTalk.Zone
  ranges : List CableRange

/-- A listing. -/
structure ListRoutesReply where
  routes : List Route
  zones : List Zone
  localRange : Option CableRange

end Proto

/-- A range for the wire. -/
def rangeToProto (r : CableRange) : Proto.CableRange := ⟨r.lo.toUInt32, r.hi.toUInt32⟩

/-- The number of an interface. -/
def interfaceToProto : Option Interface → Int
  | some .etherTalk => 2
  | some .localTalk => 3
  | none => 0

/-- An entry for the wire. -/
def routeToProto (r : SnapshotRoute) : Proto.Route where
  range := some (rangeToProto ⟨r.lo, r.hi⟩)
  nextHop := some ⟨r.nextHop.networkNumber.toUInt32, r.nextHop.nodeNumber.toUInt32⟩
  interface := interfaceToProto r.interface

/-- A snapshot in its wire representation. -/
def routesToProto (snapshot : RouteSnapshot) : Proto.ListRoutesReply where
  routes := snapshot.routes.map routeToProto
  zones := snapshot.zones.map fun z => ⟨z.1, z.2.map rangeToProto⟩
  localRange := snapshot.localRange.map rangeToProto

/-- Only the low halves are looked at. -/
def rangeOfProto (r : Proto.CableRange) : CableRange := ⟨r.lo.toUInt16, r.hi.toUInt16⟩

/-- The interface of a number. -/
def interfaceOfProto (interface : Int) : Option Interface :=
  if interface = 1 ∨ interface = 2 then some .etherTalk
  else if interface = 3 then some .localTalk else none

/-- A route without a range or a next hop is left out. -/
def routeOfProto (route : Proto.Route) : Option SnapshotRoute := do
  let range ← route.range
  let nextHop ← route.nextHop
  some ⟨range.lo.toUInt16, range.hi.toUInt16, ⟨nextHop.network.toUInt16, nextHop.node.toUInt8⟩,
    interfaceOfProto route.interface⟩

/-- The snapshot that a listing is of. -/
def snapshotFromProto (reply : Proto.ListRoutesReply) : RouteSnapshot where
  localRange := reply.localRange.map rangeOfProto
  routes := reply.routes.filterMap routeOfProto
  zones := reply.zones.map fun zone => (zone.name, zone.ranges.map rangeOfProto)

theorem rangeOfProto_rangeToProto (r : CableRange) : rangeOfProto (rangeToProto r) = r := by
  rw [rangeOfProto, rangeToProto, UInt16.toUInt16_toUInt32, UInt16.toUInt16_toUInt32]

theorem interfaceOfProto_interfaceToProto (interface : Option Interface) :
    interfaceOfProto (interfaceToProto interface) = interface := by
  rcases interface with _ | _ | _
  · rfl
  · rfl
  · rfl

theorem routeOfProto_routeToProto (r : SnapshotRoute) : routeOfProto (routeToProto r) = some r := by
  simp only [routeOfProto, routeToProto, rangeToProto, Option.bind_eq_bind, Option.bind_some,
    UInt16.toUInt16_toUInt32, UInt8.toUInt8_toUInt32, interfaceOfProto_interfaceToProto]

/-- **Nothing of a snapshot is lost on the wire.** -/
theorem snapshotFromProto_routesToProto (snapshot : RouteSnapshot) :
    snapshotFromProto (routesToProto snapshot) = snapshot := by
  have hranges : ∀ ranges : List CableRange, (ranges.map rangeToProto).map rangeOfProto = ranges := by
    intro ranges
    rw [List.map_map]
    exact List.map_id'' rangeOfProto_rangeToProto ranges
  have hlocal : (snapshot.localRange.map rangeToProto).map rangeOfProto = snapshot.localRange := by
    rcases snapshot.localRange with _ | r
    · rfl
    · exact congrArg some (rangeOfProto_rangeToProto r)
  have hroutes : (snapshot.routes.map routeToProto).filterMap routeOfProto = snapshot.routes := by
    rw [List.filterMap_map]
    exact (List.filterMap_congr fun r _ => routeOfProto_routeToProto r).trans List.filterMap_some
  have hzones : (snapshot.zones.map fun z => (⟨z.1, z.2.map rangeToProto⟩ : Proto.Zone)).map
      (fun zone => (zone.name, zone.ranges.map rangeOfProto)) = snapshot.zones := by
    rw [List.map_map]
    refine (List.map_congr_left (g := id) fun z _ => ?_).trans (List.map_id _)
    exact Prod.ext rfl (hranges z.2)
  rw [snapshotFromProto, routesToProto]
  dsimp only
  rw [hlocal, hroutes, hzones]

end TailTalk
