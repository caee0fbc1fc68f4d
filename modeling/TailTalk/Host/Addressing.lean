/-
  The receiving side of an interface's addressing handle.

  A handle to an interface of this process shares the AARP cache with the
  addressing task and feeds it through bounded channels; a handle to a
  daemon's interface ignores what the link receives.
-/
import TailTalk.Lib.Channel
import TailTalk.Lib.Panic
import TailTalk.Packets.Aarp
import Std.Data.HashMap

namespace TailTalk

open Lib

/-- A link-level destination. -/
inductive Addressing.Node where
  | etherTalkPhase1 (mac : EthernetMac)
  | etherTalkPhase2 (mac : EthernetMac)
  | localTalk (node : UInt8)
deriving DecidableEq

/-- A negative entry holds until its time. -/
inductive CacheEntry where
  | valid (node : Addressing.Node)
  | negative (expiresAt : ℕ)

/-- What a handle shares with the addressing task of its own process. -/
structure LocalAddressing where
  packetSend : Channel (AarpPacket × AddressSource) 100
  ltAckSend : Channel UInt8 16
  ltEnqSend : Channel UInt8 16
  cache : Std.HashMap AppleTalkAddress CacheEntry

/-- An interface of this process, or of a daemon. -/
inductive AddressingHandle where
  | inProcess (inner : LocalAddressing)
  | remote

/-- Cache the sender's address, then pass the packet on if there is room. -/
def LocalAddressing.learn (l : LocalAddressing) (headers : AarpPacket) (source : AddressSource)
    (node : Addressing.Node) : Except TrySendError Unit × AddressingHandle :=
  let l := { l with cache := l.cache.insert headers.senderProtocol (.valid node) }
  match l.packetSend.trySend (headers, source) with
  | .ok c => (.ok (), .inProcess { l with packetSend := c })
  | .error e => (.error e, .inProcess l)

namespace AddressingHandle

/-- Is the interface owned by this process? -/
def isLocal : AddressingHandle → Bool
  | inProcess _ => true
  | remote => false

/-- Relay an AARP packet to the addressing task.  The parse result is unwrapped. -/
def receivedPkt (a : AddressingHandle) (pkt : Bytes) (source : AddressSource) :
    Checked (Except TrySendError Unit × AddressingHandle) :=
  match a with
  | remote => pure (.ok (), remote)
  | inProcess l => do
    let headers ← unwrap (AarpPacket.parse pkt)
    match source with
    | .etherTalkPhase2 => pure (l.learn headers source (.etherTalkPhase2 headers.senderAddr))
    | .etherTalkPhase1 => pure (l.learn headers source (.etherTalkPhase1 headers.senderAddr))
    | .localTalk => pure (.ok (), inProcess l)

/-- An ACK, for the LocalTalk interface. -/
def receivedLlapAck (a : AddressingHandle) (srcNode : UInt8) : AddressingHandle :=
  match a with
  | inProcess l => inProcess { l with ltAckSend := l.ltAckSend.offer srcNode }
  | remote => remote

/-- An ENQ, for it too. -/
def receivedLlapEnq (a : AddressingHandle) (dstNode : UInt8) : AddressingHandle :=
  match a with
  | inProcess l => inProcess { l with ltEnqSend := l.ltEnqSend.offer dstNode }
  | remote => remote

/-- An AARP packet passes unless this process owns the interface and the packet is
    malformed. -/
theorem returns_receivedPkt (a : AddressingHandle) (pkt : Bytes) (source : AddressSource) :
    Returns (a.receivedPkt pkt source) ↔ (a.isLocal → AarpPacket.WellFormed pkt) := by
  cases a with
  | remote => simp [receivedPkt, isLocal]
  | inProcess l =>
    simp only [receivedPkt, isLocal, true_implies]
    rw [returns_bind_iff, returns_unwrap, AarpPacket.parse_isOk]
    intro headers
    cases source <;> exact returns_pure _

theorem learn_isLocal (l : LocalAddressing) (headers : AarpPacket) (source : AddressSource)
    (node : Addressing.Node) : (l.learn headers source node).2.isLocal = true := by
  unfold LocalAddressing.learn
  dsimp only
  split <;> rfl

theorem receivedPkt_isLocal {a a' : AddressingHandle} {pkt : Bytes} {source : AddressSource}
    {r : Except TrySendError Unit} (h : a.receivedPkt pkt source = .ok (r, a')) :
    a'.isLocal = a.isLocal := by
  cases a with
  | remote =>
    cases h
    rfl
  | inProcess l =>
    simp only [receivedPkt] at h
    cases hp : AarpPacket.parse pkt with
    | error e =>
      rw [hp] at h
      cases h
    | ok headers =>
      rw [hp] at h
      have hlearn := learn_isLocal l headers source
      cases source with
      | etherTalkPhase2 =>
        have hl := hlearn (.etherTalkPhase2 headers.senderAddr)
        rwa [show l.learn headers _ _ = (r, a') from Except.ok.inj h] at hl
      | etherTalkPhase1 =>
        have hl := hlearn (.etherTalkPhase1 headers.senderAddr)
        rwa [show l.learn headers _ _ = (r, a') from Except.ok.inj h] at hl
      | localTalk =>
        cases h
        rfl

@[simp] theorem receivedLlapAck_isLocal (a : AddressingHandle) (n : UInt8) :
    (a.receivedLlapAck n).isLocal = a.isLocal := by
  cases a <;> rfl

@[simp] theorem receivedLlapEnq_isLocal (a : AddressingHandle) (n : UInt8) :
    (a.receivedLlapEnq n).isLocal = a.isLocal := by
  cases a <;> rfl

end AddressingHandle

end TailTalk
