/-
  The route table — which router or cable a network number is behind, and which
  routers a zone is.

  What a table publishes goes to a queue, if one is attached.  Maps are ordered
  where the code's are hashed; only the order of iteration differs.
-/
import Mathlib.Order.Defs.LinearOrder
import Mathlib.Order.Nat
import TailTalk.Lib.Maps
import TailTalk.Lib.Ranges
import TailTalk.Packets.Aarp

namespace TailTalk

open Lib

/-- Text of the protocols. -/
abbrev Zone := List Char

/-- An instant, in nanoseconds. -/
abbrev Instant := ℕ

/-- How long a learned route stays without being advertised again. -/
def RTMP_ROUTE_TTL : Instant := 60 * 1000000000

/-- Who fills a table. -/
inductive LearningMode where
  /-- tables filled from RTMP and ZIP broadcasts -/
  | dynamic
  /-- tables filled by the programmatic calls only -/
  | static
deriving DecidableEq

/-- A cable. -/
inductive Interface where
  | etherTalk
  | localTalk
deriving DecidableEq

/-- The cable that a packet came over. -/
def Interface.ofSource : AddressSource → Interface
  | .localTalk => localTalk
  | .etherTalkPhase1 => etherTalk
  | .etherTalkPhase2 => etherTalk

/-- Where to send a packet for a network. -/
inductive NextHop where
  | local (interface : Interface)
  | via (router : AppleTalkAddress) (interface : Interface)
deriving DecidableEq

/-- The cable of a next hop. -/
def NextHop.interface : NextHop → Interface
  | .local interface => interface
  | .via _ interface => interface

/-- The zone of a lookup. -/
inductive NbpZone where
  | local
  | all
  | named (name : Zone)

/-- Where a lookup is to be sent. -/
inductive NbpDispatch where
  | localBroadcast
  | routerBroadcast (routers : List AppleTalkAddress)
  | zoneUnknown

/-- A range of networks, both ends in it. -/
structure CableRange where
  lo : UInt16
  hi : UInt16
deriving DecidableEq

namespace CableRange

/-- The range as a number, for the order of maps. -/
def key (r : CableRange) : ℕ := r.lo.toNat * 65536 + r.hi.toNat

theorem key_inj {a b : CableRange} (h : a.key = b.key) : a = b := by
  have ha := a.hi.toNat_lt
  have hb := b.hi.toNat_lt
  simp only [key] at h
  have hlo : a.lo = b.lo := UInt16.toNat.inj (by omega)
  have hhi : a.hi = b.hi := UInt16.toNat.inj (by omega)
  cases a
  cases b
  simp only [CableRange.mk.injEq]
  exact ⟨hlo, hhi⟩

instance : Ord CableRange := ⟨fun a b => compare a.key b.key⟩

instance : Std.TransOrd CableRange where
  eq_swap {a b} :=
    (Std.OrientedCmp.eq_swap : compare a.key b.key = (compare b.key a.key).swap)
  isLE_trans {a b c} hab hbc := by
    have htrans : (compare a.key b.key).isLE → (compare b.key c.key).isLE →
      (compare a.key c.key).isLE := Std.TransCmp.isLE_trans
    exact htrans hab hbc

instance : Std.LawfulEqOrd CableRange where
  compare_self {a} := (Std.ReflCmp.compare_self : compare a.key a.key = .eq)
  eq_of_compare {a b} h := by
    have hkey : compare a.key b.key = .eq → a.key = b.key := Std.LawfulEqCmp.eq_of_compare
    exact key_inj (hkey h)

/-- A network is in the range. -/
def contains (r : CableRange) (net : UInt16) : Bool := r.lo ≤ net ∧ net ≤ r.hi

end CableRange

/-! ## RTMP table -/

/-- A range of networks and the way there. -/
structure RtmpEntry where
  rangeLo : UInt16
  rangeHi : UInt16
  hopCount : UInt8
  nextHop : AppleTalkAddress
  interface : Interface
  /-- when it stops being served; those of programmatic calls never do -/
  expiresAt : Option Instant
deriving DecidableEq

namespace RtmpEntry

/-- The first network. -/
def lo (e : RtmpEntry) : ℕ := e.rangeLo.toNat

/-- The last one. -/
def hi (e : RtmpEntry) : ℕ := e.rangeHi.toNat

/-- The entry is too old. -/
def expired (e : RtmpEntry) (now : Instant) : Bool := e.expiresAt.any fun at_ => now ≥ at_

end RtmpEntry

/-- The router of last resort. -/
structure DefaultRouter where
  addr : AppleTalkAddress
  interface : Interface
  expiresAt : Option Instant

/-- The router of last resort was not heard of. -/
def DefaultRouter.expired (r : DefaultRouter) (now : Instant) : Bool :=
  r.expiresAt.any fun at_ => now ≥ at_

/-- Each value once, where it is first. -/
def dedup {α : Type} [DecidableEq α] : List α → List α
  | [] => []
  | a :: as => a :: (dedup as).filter (· ≠ a)

/-- Sorted, non-overlapping list of cable range → next-hop mappings. -/
structure RtmpTable where
  entries : List RtmpEntry

namespace RtmpTable

/-- No entry. -/
def new : RtmpTable := ⟨[]⟩

/-- The live entry whose range contains `net`, found by halves. -/
def lookup (t : RtmpTable) (net : UInt16) (now : Instant) : Option RtmpEntry :=
  (search RtmpEntry.lo t.entries net.toNat).filter fun e => net ≤ e.rangeHi ∧ e.expired now = false

/-- Entries that overlap are removed wholesale.  `true` for a route that is new or has another next
    hop. -/
def insert (t : RtmpTable) (e : RtmpEntry) : RtmpTable × Bool :=
  let refresh := t.entries.any fun old =>
    old.rangeLo = e.rangeLo ∧ old.rangeHi = e.rangeHi ∧ old.nextHop = e.nextHop
  (⟨place RtmpEntry.lo RtmpEntry.hi e t.entries⟩, !refresh)

/-- Without the entry of exactly that range. -/
def remove (t : RtmpTable) (lo hi : UInt16) : RtmpTable :=
  ⟨t.entries.filter fun e => ¬ (e.rangeLo = lo ∧ e.rangeHi = hi)⟩

/-- The routers that are known. -/
def allNextHopsDeduped (t : RtmpTable) (now : Instant) : List AppleTalkAddress :=
  dedup ((t.entries.filter fun e => !e.expired now).map (·.nextHop))

/-- Without the entries that are too old. -/
def purgeExpired (t : RtmpTable) (now : Instant) : RtmpTable :=
  ⟨t.entries.filter fun e => !e.expired now⟩

end RtmpTable

/-! ## ZIP table -/

/-- Zones and cable ranges, both ways. -/
structure ZipTable where
  rangeToZones : Std.TreeMap CableRange (List Zone)
  zoneToRanges : Std.TreeMap Zone (List CableRange)

namespace ZipTable

/-- No zone. -/
def new : ZipTable := ⟨∅, ∅⟩

/-- At the end, unless it is there. -/
def pushNew {α : Type} [DecidableEq α] (a : α) (as : List α) : List α :=
  if a ∈ as then as else as ++ [a]

/-- A range is in a zone. -/
def insertZoneRange (t : ZipTable) (zone : Zone) (range : CableRange) : ZipTable where
  rangeToZones := t.rangeToZones.insert range (pushNew zone (t.rangeToZones[range]?.getD []))
  zoneToRanges := t.zoneToRanges.insert zone (pushNew range (t.zoneToRanges[zone]?.getD []))

/-- A zone taken off a range; a range without zones goes. -/
def forgetZone (zone : Zone) (zones : Std.TreeMap CableRange (List Zone)) (range : CableRange) :
    Std.TreeMap CableRange (List Zone) :=
  match zones[range]? with
  | none => zones
  | some names =>
    let names := names.filter (· ≠ zone)
    if names = [] then zones.erase range else zones.insert range names

/-- A zone is gone. -/
def removeZone (t : ZipTable) (zone : Zone) : ZipTable :=
  match t.zoneToRanges[zone]? with
  | none => t
  | some ranges =>
    ⟨ranges.foldl (forgetZone zone) t.rangeToZones, t.zoneToRanges.erase zone⟩

/-- The ranges of a zone. -/
def rangesForZone (t : ZipTable) (zone : Zone) : List CableRange := t.zoneToRanges[zone]?.getD []

end ZipTable

/-! ## Changes and snapshots -/

/-- A change that is published. -/
inductive RouteChange where
  | setLocalRange (range : CableRange)
  | insertRoute (lo hi : UInt16) (nextHop : AppleTalkAddress) (interface : Option Interface)
  | removeRoute (lo hi : UInt16)
  | insertZone (zone : Zone) (ranges : List CableRange)
  | removeZone (zone : Zone)
deriving DecidableEq

/-- An entry in a snapshot. -/
structure SnapshotRoute where
  lo : UInt16
  hi : UInt16
  nextHop : AppleTalkAddress
  interface : Option Interface

/-- The contents of a table at some time. -/
structure RouteSnapshot where
  localRange : Option CableRange
  routes : List SnapshotRoute
  zones : List (Zone × List CableRange)

/-! ## Tables -/

/-- The range of a cable of our own. -/
structure LocalRange where
  interface : Interface
  range : CableRange

/-- All that a table knows. -/
structure Inner where
  mode : LearningMode
  localRanges : List LocalRange
  rtmp : RtmpTable
  defaultRouter : Option DefaultRouter
  zip : ZipTable
  /-- what was sent to the publisher, if there is one -/
  publisher : Option (List RouteChange)

namespace Inner

/-- A change for the queue. -/
def publish (t : Inner) (change : RouteChange) : Inner :=
  { t with publisher := t.publisher.map (· ++ [change]) }

/-- `true` where the range of the interface changed. -/
def upsertLocalRange (t : Inner) (interface : Interface) (range : CableRange) : Inner × Bool :=
  match t.localRanges.findIdx? fun r => r.interface = interface with
  | some i =>
    if (t.localRanges[i]?).map (·.range) = some range then (t, false)
    else ({ t with localRanges := t.localRanges.set i ⟨interface, range⟩ }, true)
  | none => ({ t with localRanges := t.localRanges ++ [⟨interface, range⟩] }, true)

/-- Our own range that has a network. -/
def localRangeFor (t : Inner) (net : UInt16) : Option LocalRange :=
  t.localRanges.find? fun r => r.range.contains net

/-- The router of last resort. -/
def liveDefaultRouter (t : Inner) (now : Instant) : Option DefaultRouter :=
  t.defaultRouter.filter fun r => !r.expired now

/-- Local ranges first, then routes, then the router of last resort. -/
def routeFor (t : Inner) (net : UInt16) (now : Instant) : Option NextHop :=
  match t.localRangeFor net with
  | some r => some (.local r.interface)
  | none => match t.rtmp.lookup net now with
    | some e => some (.via e.nextHop e.interface)
    | none => (t.liveDefaultRouter now).map fun r => .via r.addr r.interface

/-- The cable that leads to a network. -/
def interfaceForNet (t : Inner) (net : UInt16) (now : Instant) : Option Interface :=
  (t.routeFor net now).map NextHop.interface

/-- At least one live router is known. -/
def hasRouter (t : Inner) (now : Instant) : Bool :=
  t.rtmp.entries.any (fun e => !e.expired now) || (t.liveDefaultRouter now).isSome

/-- Every router, that of last resort included. -/
def allRouters (t : Inner) (now : Instant) : List AppleTalkAddress :=
  let routers := t.rtmp.allNextHopsDeduped now
  match t.liveDefaultRouter now with
  | some r => if r.addr ∈ routers then routers else routers ++ [r.addr]
  | none => routers

/-- The routers that lead to a zone. -/
def routersForZone (t : Inner) (zone : Zone) (now : Instant) : List AppleTalkAddress :=
  dedup (((t.zip.rangesForZone zone).filterMap fun r => t.rtmp.lookup r.lo now).map (·.nextHop))

/-- Where a lookup for a zone goes. -/
def nbpDispatch (t : Inner) (zone : NbpZone) (now : Instant) : NbpDispatch :=
  match zone with
  | .local => .localBroadcast
  | .all => if t.allRouters now = [] then .localBroadcast else .routerBroadcast (t.allRouters now)
  | .named name =>
    if t.routersForZone name now ≠ [] then .routerBroadcast (t.routersForZone name now)
    else if t.allRouters now = [] then .zoneUnknown else .routerBroadcast (t.allRouters now)

end Inner

/-! ## Operations -/

namespace RouteTable

/-- A table that knows nothing. -/
def new (mode : LearningMode) : Inner := ⟨mode, [], .new, none, .new, none⟩

/-- Attach a queue. -/
def setPublisher (t : Inner) : Inner := { t with publisher := some [] }

/-- Our range on a cable. -/
def setLocalRangeFor (t : Inner) (interface : Interface) (lo hi : UInt16) : Inner :=
  let (t, changed) := t.upsertLocalRange interface ⟨lo, hi⟩
  if changed then t.publish (.setLocalRange ⟨lo, hi⟩) else t

/-- An entry, in place of what it overlaps. -/
def insertEntry (t : Inner) (e : RtmpEntry) : Inner :=
  let (rtmp, changed) := t.rtmp.insert e
  let t := { t with rtmp }
  if changed then t.publish (.insertRoute e.rangeLo e.rangeHi e.nextHop (some e.interface)) else t

/-- A configured entry. -/
def insertRoute (t : Inner) (lo hi : UInt16) (nextHop : AppleTalkAddress)
    (interface : Interface) : Inner :=
  insertEntry t ⟨lo, hi, 0, nextHop, interface, none⟩

/-- Withdraw the entry of a range. -/
def removeRoute (t : Inner) (lo hi : UInt16) : Inner :=
  { t with rtmp := t.rtmp.remove lo hi }.publish (.removeRoute lo hi)

/-- The ranges of a zone. -/
def insertZone (t : Inner) (zone : Zone) (ranges : List CableRange) : Inner :=
  { t with zip := ranges.foldl (·.insertZoneRange zone) t.zip }.publish (.insertZone zone ranges)

/-- A zone is gone. -/
def removeZone (t : Inner) (zone : Zone) : Inner :=
  { t with zip := t.zip.removeZone zone }.publish (.removeZone zone)

/-- Nothing of the old contents stays, and nothing is published. -/
def replaceContents (t : Inner) (snapshot : RouteSnapshot) : Inner :=
  { t with
    localRanges := (snapshot.localRange.map fun range => ⟨.etherTalk, range⟩).toList
    rtmp := snapshot.routes.foldl (fun table r =>
      (table.insert ⟨r.lo, r.hi, 0, r.nextHop, r.interface.getD .etherTalk, none⟩).1) .new
    defaultRouter := none
    zip := snapshot.zones.foldl (fun zip z => z.2.foldl (·.insertZoneRange z.1) zip) .new }

/-- What is told of the table. -/
def snapshot (t : Inner) (now : Instant) : RouteSnapshot where
  localRange := t.localRanges.head?.map (·.range)
  routes := (t.rtmp.entries.filter fun e => !e.expired now).map fun e =>
    ⟨e.rangeLo, e.rangeHi, e.nextHop, some e.interface⟩
  zones := t.zip.zoneToRanges.toList

/-- The tuples of a broadcast, each with its range and hop count. -/
def handleRtmp (t : Inner) (src : AppleTalkAddress) (interface : Interface)
    (tuples : List (UInt16 × UInt16 × UInt8)) (now : Instant) : Inner :=
  if t.mode = .static then t
  else tuples.foldl (fun t tuple => insertEntry t
    ⟨tuple.1, tuple.2.1, tuple.2.2, src, interface, some (now + RTMP_ROUTE_TTL)⟩) t

/-- A router was heard of. -/
def noteRouter (t : Inner) (router : AppleTalkAddress) (interface : Interface) (now : Instant) :
    Inner :=
  if t.mode = .static then t
  else { t with defaultRouter := some ⟨router, interface, some (now + RTMP_ROUTE_TTL)⟩ }

/-- Without what is too old. -/
def purgeExpired (t : Inner) (now : Instant) : Inner :=
  { t with
    rtmp := t.rtmp.purgeExpired now
    defaultRouter := t.liveDefaultRouter now }

/-- The zones of a range. -/
def handleZipReply (t : Inner) (range : CableRange) (zones : List Zone) : Inner :=
  if t.mode = .static then t
  else { t with zip := zones.foldl (fun zip zone => zip.insertZoneRange zone range) t.zip }

end RouteTable

end TailTalk
