/-
  EtherTalk Phase 2 frames — IEEE 802.2 LLC and SNAP.
-/
import TailTalk.Packets.Aarp

namespace TailTalk

open Lib

/-- What a frame carries. -/
inductive EtherTalkPhase2Type where
  | aarp
  | ddp

/-- Why a frame is refused. -/
inductive EtherTalkError where
  | invalidSize (found : ℕ)
  | notSNAP
  | unknownHeader

/-- The header of a frame. -/
structure EtherTalkPhase2Frame where
  dstMac : EthernetMac
  srcMac : EthernetMac
  len : UInt16
  protocol : EtherTalkPhase2Type

namespace EtherTalkPhase2Frame

/-- Its length. -/
def FRAME_LEN : ℕ := 22

/-- What tells such a frame. -/
def SNAP_MARKER : Bytes := [0xAA, 0xAA, 0x03]

/-- AARP, in a frame. -/
def AARP_OUI : Bytes := [0x00, 0x00, 0x00, 0x80, 0xF3]

/-- DDP, in a frame. -/
def DDP_OUI : Bytes := [0x08, 0x00, 0x07, 0x80, 0x9B]

/-- The three LLC bytes. -/
def snap (buf : Bytes) : Bytes := (buf.take 17).drop 14

/-- The five bytes of OUI and protocol. -/
def oui (buf : Bytes) : Bytes := (buf.take 22).drop 17

/-- The slices compared are within the 22 bytes checked first; the fields carry their
    bounds. -/
def parse (buf : Bytes) : Except EtherTalkError EtherTalkPhase2Frame :=
  if h : buf.length < 22 then .error (.invalidSize buf.length)
  else if snap buf ≠ SNAP_MARKER then .error .notSNAP
  else
    let dstMac := AarpPacket.field buf 0 6 (by omega)
    let srcMac := AarpPacket.field buf 6 6 (by omega)
    if oui buf = AARP_OUI then .ok { dstMac, srcMac, len := 10, protocol := .aarp }
    else if oui buf = DDP_OUI then .ok { dstMac, srcMac, len := 10, protocol := .ddp }
    else .error .unknownHeader

/-- The protocol a frame carries, if it is a Phase 2 frame at all. -/
def protocolOf (buf : Bytes) : Option EtherTalkPhase2Type :=
  if buf.length < FRAME_LEN ∨ snap buf ≠ SNAP_MARKER then none
  else if oui buf = AARP_OUI then some .aarp
  else if oui buf = DDP_OUI then some .ddp
  else none

theorem parse_cases (buf : Bytes) :
    (∃ e, parse buf = .error e ∧ protocolOf buf = none) ∨
      (∃ f, parse buf = .ok f ∧ protocolOf buf = some f.protocol ∧ FRAME_LEN ≤ buf.length) := by
  by_cases hlen : buf.length < 22
  · exact Or.inl ⟨_, dif_pos hlen, if_pos (Or.inl hlen)⟩
  by_cases hsnap : snap buf ≠ SNAP_MARKER
  · refine Or.inl ⟨.notSNAP, ?_, if_pos (Or.inr hsnap)⟩
    rw [parse, dif_neg hlen, if_pos hsnap]
  have hframe : ¬ (buf.length < FRAME_LEN ∨ snap buf ≠ SNAP_MARKER) := not_or.2 ⟨hlen, hsnap⟩
  rw [parse, dif_neg hlen, if_neg hsnap, protocolOf, if_neg hframe]
  have hlen' : FRAME_LEN ≤ buf.length := Nat.not_lt.1 hlen
  by_cases haarp : oui buf = AARP_OUI
  · exact Or.inr ⟨_, if_pos haarp, if_pos haarp, hlen'⟩
  by_cases hddp : oui buf = DDP_OUI
  · exact Or.inr ⟨_, (if_neg haarp).trans (if_pos hddp), (if_neg haarp).trans (if_pos hddp),
      hlen'⟩
  · exact Or.inl ⟨_, (if_neg haarp).trans (if_neg hddp), (if_neg haarp).trans (if_neg hddp)⟩

end EtherTalkPhase2Frame

end TailTalk
