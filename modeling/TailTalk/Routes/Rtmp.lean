/-
  RTMP listener — what the broadcasts of routers do to the route table.

  A broadcast names the router that sent it, the cable it came over and the
  networks behind the router; `calls` are the calls it makes to the table.
  `Operation` is a call of any sort, and `perform` makes one at some time.
-/
import TailTalk.Host.Receive
import TailTalk.Lib.Run
import TailTalk.Packets.Rtmp
import TailTalk.Routes.RouteTable

namespace TailTalk

open Lib

/-- A call to the route table. -/
inductive Operation where
  | setLocalRangeFor (interface : Interface) (lo hi : UInt16)
  | insertRoute (lo hi : UInt16) (nextHop : AppleTalkAddress) (interface : Interface)
  | removeRoute (lo hi : UInt16)
  | insertZone (zone : Zone) (ranges : List CableRange)
  | removeZone (zone : Zone)
  | handleRtmp (src : AppleTalkAddress) (interface : Interface)
      (tuples : List (UInt16 × UInt16 × UInt8))
  | noteRouter (router : AppleTalkAddress) (interface : Interface)
  | purgeExpired
  | handleZipReply (range : CableRange) (zones : List Zone)
deriving DecidableEq

namespace RouteTable

/-- Make a call. -/
def perform (t : Inner) (now : Instant) : Operation → Inner
  | .setLocalRangeFor interface lo hi => setLocalRangeFor t interface lo hi
  | .insertRoute lo hi nextHop interface => insertRoute t lo hi nextHop interface
  | .removeRoute lo hi => removeRoute t lo hi
  | .insertZone zone ranges => insertZone t zone ranges
  | .removeZone zone => removeZone t zone
  | .handleRtmp src interface tuples => handleRtmp t src interface tuples now
  | .noteRouter router interface => noteRouter t router interface now
  | .purgeExpired => purgeExpired t now
  | .handleZipReply range zones => handleZipReply t range zones

end RouteTable

namespace RtmpListener

/-- Distance at which a tuple means that the route is gone. -/
def RTMP_DISTANCE_UNREACHABLE : UInt8 := 31

/-- What a packet reveals about the cable it came over. -/
def localCableRange (iface : Interface) (data : RtmpDataPacket) : Option CableRange :=
  match iface, data.tuples.head? with
  -- extended cable: the first tuple is the range of the sender
  | .etherTalk, some (.extended rangeStart 0 rangeEnd) =>
    if rangeStart ≠ 0 then some ⟨rangeStart, rangeEnd⟩ else none
  | _, _ =>
    if data.routerNetwork ≠ 0 then some ⟨data.routerNetwork, data.routerNetwork⟩ else none

/-- The range of a tuple and its distance. -/
def rangeOf : RtmpTuple → UInt16 × UInt16 × UInt8
  | .nonExtended network distance => (network, network, distance)
  | .extended rangeStart distance rangeEnd => (rangeStart, rangeEnd, distance)

/-- The network cannot be reached any more. -/
def poisoned (tuple : RtmpTuple) : Bool := (rangeOf tuple).2.2 ≥ RTMP_DISTANCE_UNREACHABLE

/-- A tuple as a route; routes are one hop further from here. -/
def routeOf (tuple : RtmpTuple) : UInt16 × UInt16 × UInt8 :=
  let (lo, hi, distance) := rangeOf tuple
  (lo, hi, UInt8.ofNat (min 255 (distance.toNat + 1)))

/-- The routes of a packet, and the ranges its router has withdrawn. -/
def tuplesForRouteTable (data : RtmpDataPacket) :
    List (UInt16 × UInt16 × UInt8) × List (UInt16 × UInt16) :=
  ((data.tuples.filter fun tuple => !poisoned tuple).map routeOf,
    (data.tuples.filter poisoned).map fun tuple => ((rangeOf tuple).1, (rangeOf tuple).2.1))

/-- Short-form DDP has no source network; the header then names it. -/
def routerOf (pkt : ReceivedDdp) (data : RtmpDataPacket) : AppleTalkAddress :=
  ⟨if pkt.headers.srcNetworkNum ≠ 0 then pkt.headers.srcNetworkNum else data.routerNetwork,
    pkt.headers.srcNodeId⟩

/-- The calls that a packet makes, in order. -/
def calls (pkt : ReceivedDdp) : List Operation :=
  match RtmpDataPacket.parse pkt.payload with
  | .error _ => []
  | .ok data =>
    let iface := Interface.ofSource pkt.source
    let router := routerOf pkt data
    let (tuples, poisoned) := tuplesForRouteTable data
    (localCableRange iface data).toList.map (fun r => .setLocalRangeFor iface r.lo r.hi) ++
      [.noteRouter router iface] ++ poisoned.map (fun r => .removeRoute r.1 r.2) ++
      if tuples = [] then [] else [.handleRtmp router iface tuples]

end RtmpListener

end TailTalk
