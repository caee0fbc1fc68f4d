/-
  The addressing task of an EtherTalk interface.

  It draws an address and probes for it over AARP; a competing probe within the
  window makes it draw another, and after a window without one the address is
  settled and answered for.
-/
import TailTalk.Core
import TailTalk.Host.Addressing
import TailTalk.Lib.Cable

namespace TailTalk

open Lib

/-- A packet for the data link. -/
structure AarpFrame where
  destNode : Addressing.Node
  payload : Bytes

/-- The link that a frame arrives on. -/
def AarpFrame.source (f : AarpFrame) : AddressSource :=
  match f.destNode with
  | .etherTalkPhase1 _ => .etherTalkPhase1
  | .etherTalkPhase2 _ => .etherTalkPhase2
  | .localTalk _ => .localTalk

/-- Whether there is an address. -/
inductive AddressState where
  | probing (addr : AppleTalkAddress) (deadline : Micros)
  | settled (ourAddr : AppleTalkAddress)

/-- The task of one interface. -/
structure Addressing where
  ourMac : EthernetMac
  phase : AddressSource
  etherTalk : phase ≠ .localTalk
  /-- the numbers that are drawn, and how many have been -/
  draws : ℕ → ℕ × ℕ
  drawn : ℕ
  state : AddressState
  /-- lookups that wait for the address, and for a response -/
  requests : List AppleTalkAddress
  pending : List AppleTalkAddress
  answered : List (AppleTalkAddress × Addressing.Node)
  outbox : List AarpFrame
  /-- what was received in the last probe window; the task does not keep it -/
  heard : List AarpPacket
  /-- a malformed packet has stopped the receiver -/
  deaf : Bool

namespace Addressing

/-- Where the probes of phase 1 go. -/
def BROADCAST_MAC : EthernetMac := #v[0xFF, 0xFF, 0xFF, 0xFF, 0xFF, 0xFF]

/-- Where those of phase 2 go. -/
def APPLETALK_BROADCAST_MULTICAST : EthernetMac := #v[0x09, 0x00, 0x07, 0xFF, 0xFF, 0xFF]

/-- How long a probe waits for another. -/
def PROBE_WINDOW : Micros := 1000000

/-- The broadcast of a phase. -/
def broadcastMac : AddressSource → EthernetMac
  | .etherTalkPhase2 => APPLETALK_BROADCAST_MULTICAST
  | _ => BROADCAST_MAC

/-- AARP is not used on LocalTalk. -/
def nodeOf (mac : EthernetMac) : AddressSource → Addressing.Node
  | .etherTalkPhase2 => .etherTalkPhase2 mac
  | .etherTalkPhase1 => .etherTalkPhase1 mac
  | .localTalk => .localTalk 0

/-- The fields of a packet. -/
def aarpHeader (ourMac : EthernetMac) (target : AppleTalkAddress) (targetMac : EthernetMac)
    (ourAddr : AppleTalkAddress) (opcode : AarpOpcode) : AarpPacket where
  hardwareType := 1
  protocolType := 0x809B
  hardwareSize := 6
  protocolSize := 4
  opcode
  senderAddr := ourMac
  senderProtocol := ourAddr
  targetAddr := targetMac
  targetProtocol := target

/-- A packet in its frame. -/
def createPacket (a : Addressing) (target : AppleTalkAddress) (targetMac : EthernetMac)
    (ourAddr : AppleTalkAddress) (opcode : AarpOpcode) (sourceType : AddressSource) : AarpFrame where
  destNode := nodeOf targetMac sourceType
  payload := (aarpHeader a.ourMac target targetMac ourAddr opcode).toBytes

/-- An address of the startup range on Phase 2, of network 0 elsewhere. -/
def provisional (phase : AddressSource) (draw : ℕ × ℕ) : AppleTalkAddress :=
  match phase with
  | .etherTalkPhase2 => ⟨UInt16.ofNat (0xFF00 + draw.1 % 255), UInt8.ofNat (1 + draw.2 % 253)⟩
  | _ => ⟨0, UInt8.ofNat (1 + draw.2 % 254)⟩

/-- A turn of the probe loop: another address, a probe for it and a new window. -/
def probe (a : Addressing) (now : Micros) : Addressing :=
  let addr := provisional a.phase (a.draws a.drawn)
  { a with
    drawn := a.drawn + 1
    state := .probing addr (now + PROBE_WINDOW)
    heard := []
    outbox := a.outbox ++ [a.createPacket addr (broadcastMac a.phase) addr .probe a.phase] }

/-- The task tries a first address. -/
def new (ourMac : EthernetMac) (phase : AddressSource) (etherTalk : phase ≠ .localTalk)
    (draws : ℕ → ℕ × ℕ) (now : Micros) : Addressing :=
  probe ⟨ourMac, phase, etherTalk, draws, 0, .settled ⟨0, 0⟩, [], [], [], [], [], false⟩ now

/-- A conflict, in the probe loop. -/
def takenInLoop (pkt : AarpPacket) (addr : AppleTalkAddress) : Bool :=
  pkt.opcode = .probe ∧ pkt.targetProtocol = addr

/-- A conflict, when a candidate is probed. -/
def takenInProbe (pkt : AarpPacket) (candidate : AppleTalkAddress) : Bool :=
  (pkt.opcode = .response ∧ pkt.senderProtocol = candidate) ∨
    (pkt.opcode = .probe ∧ pkt.targetProtocol = candidate)

/-- Answer for our address. -/
def sendResponse (a : Addressing) (pkt : AarpPacket) (ourAddr : AppleTalkAddress)
    (sourceType : AddressSource) : Addressing :=
  { a with outbox := a.outbox ++
      [a.createPacket pkt.senderProtocol pkt.senderAddr ourAddr .response sourceType] }

/-- A packet, once there is an address. -/
def handleAarpPacket (a : Addressing) (pkt : AarpPacket) (source : AddressSource)
    (ourAddr : AppleTalkAddress) : Addressing :=
  match pkt.opcode with
  | .request =>
    if pkt.targetProtocol.nodeNumber = ourAddr.nodeNumber then a.sendResponse pkt ourAddr source
    else a
  | .response =>
    -- the cache has the node already, since the packet was received
    let asked := a.pending.filter fun addr => addr = pkt.senderProtocol
    { a with
      pending := a.pending.filter fun addr => addr ≠ pkt.senderProtocol
      answered := if source = .localTalk then a.answered
        else a.answered ++ asked.map fun addr => (addr, nodeOf pkt.senderAddr source) }
  | .probe => if pkt.targetProtocol = ourAddr then a.sendResponse pkt ourAddr source else a

/-- A packet, in either state. -/
def receive (a : Addressing) (pkt : AarpPacket) (source : AddressSource) (now : Micros) :
    Addressing :=
  match a.state with
  | .probing addr _ =>
    if takenInLoop pkt addr then a.probe now else { a with heard := a.heard ++ [pkt] }
  | .settled ourAddr => a.handleAarpPacket pkt source ourAddr

/-- `received_pkt`: it panics on a malformed packet, and nothing is heard from then on. LocalTalk is
    not relayed. -/
def receivedFrame (a : Addressing) (f : AarpFrame) (now : Micros) : Addressing :=
  if a.deaf then a
  else match AarpPacket.parse f.payload with
    | .ok pkt => if f.source = .localTalk then a else a.receive pkt f.source now
    | .error _ => { a with deaf := true }

/-- Ask for the node of an address. -/
def lookup (a : Addressing) (ourAddr addr : AppleTalkAddress) : Addressing :=
  { a with
    outbox := a.outbox ++
      [a.createPacket addr (broadcastMac a.phase) ourAddr .request a.phase]
    pending := a.pending ++ [addr] }

/-- Lookups wait until the address is settled. -/
def request (a : Addressing) (addr : AppleTalkAddress) : Addressing :=
  match a.state with
  | .probing _ _ => { a with requests := a.requests ++ [addr] }
  | .settled ourAddr => a.lookup ourAddr addr

/-- The window is over. -/
def due (a : Addressing) (now : Micros) : Bool :=
  match a.state with
  | .probing _ deadline => deadline ≤ now
  | .settled _ => false

/-- The end of a probe window. -/
def poll (a : Addressing) (now : Micros) : Addressing :=
  match a.state with
  | .probing addr deadline =>
    if deadline ≤ now then
      a.requests.foldl (·.lookup addr) { a with state := .settled addr, requests := [] }
    else a
  | .settled _ => a

end Addressing

/-! ## Stations of an Ethernet -/

/-- A node of this program, or another one that sends what it likes. -/
inductive EtherNode where
  | host (a : Addressing)
  | foreign (outbox : List AarpFrame)

/-- What a node of the cable is. -/
inductive EtherConfig where
  | host (ourMac : EthernetMac) (phase : AddressSource) (etherTalk : phase ≠ .localTalk)
      (draws : ℕ → ℕ × ℕ)
  | foreign

/-- What it is made to do. -/
inductive EtherCall where
  | lookup (addr : AppleTalkAddress)
  | send (f : AarpFrame)

namespace EtherNode

/-- A node of either kind. -/
def new : EtherConfig → Micros → EtherNode
  | .host ourMac phase etherTalk draws, now => .host (.new ourMac phase etherTalk draws now)
  | .foreign, _ => .foreign []

/-- A call of its owner. -/
def call : EtherNode → EtherCall → EtherNode
  | .host a, .lookup addr => .host (a.request addr)
  | .foreign outbox, .send f => .foreign (outbox ++ [f])
  | x, _ => x

/-- The end of a window. -/
def poll : EtherNode → Micros → EtherNode
  | .host a, now => .host (a.poll now)
  | x, _ => x

/-- A frame arrives. -/
def recv : EtherNode → AarpFrame → Micros → EtherNode
  | .host a, f, now => .host (a.receivedFrame f now)
  | x, _, _ => x

/-- A window has ended. -/
def due : EtherNode → Micros → Bool
  | .host a, now => a.due now
  | .foreign _, _ => false

/-- The frames it wants sent. -/
def outbox : EtherNode → List AarpFrame
  | .host a => a.outbox
  | .foreign outbox => outbox

/-- The address it holds. -/
def settledOn : EtherNode → Option AppleTalkAddress
  | .host a => match a.state with
    | .probing _ _ => none
    | .settled ourAddr => some ourAddr
  | .foreign _ => none

/-- The address it tries. -/
def probingFor : EtherNode → Option AppleTalkAddress
  | .host a => match a.state with
    | .probing addr _ => some addr
    | .settled _ => none
  | .foreign _ => none

/-- The packets it has parsed. -/
def heard : EtherNode → List AarpPacket
  | .host a => a.heard
  | .foreign _ => []

/-- Its receiver has stopped. -/
def deaf : EtherNode → Bool
  | .host a => a.deaf
  | .foreign _ => false

/-- Other frames to send. -/
def withOutbox (outbox : List AarpFrame) : EtherNode → EtherNode
  | .host a => .host { a with outbox }
  | .foreign _ => .foreign outbox

/-- Its next frame. -/
def transmit (x : EtherNode) : Option AarpFrame × EtherNode :=
  match x.outbox with
  | [] => (none, x)
  | f :: rest => (some f, x.withOutbox rest)

end EtherNode

end TailTalk
