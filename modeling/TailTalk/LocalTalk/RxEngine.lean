/-
  The firmware's receive engine at the end of a frame.

  `frameEnd` counts the frame, drops what it takes for an echo of our own
  transmissions, passes the rest to the other core and queues the
  autoresponder's reply.
-/
import TailTalk.Core
import TailTalk.LocalTalk.Llap

namespace TailTalk.LocalTalk

open Lib

/-- An auto-reply waiting for the line to go quiet. -/
structure PendingReply where
  frame : Bytes
  since : Micros
deriving DecidableEq

/-- The counters of the receive path, and the first eight bytes of the last frames. -/
structure RxCounters where
  echoSkip : UInt32
  directedRx : UInt32
  goodCrc : UInt32
  badCrc : UInt32
  badReal : UInt32
  rxDrop : UInt32
  lastGoodLen : UInt16
  lastGoodFrame : Bytes
  lastBadLen : UInt16
  lastBadFrame : Bytes

/-- The state of core 1. -/
structure RxEngine where
  /-- 0 while none is claimed -/
  ourNode : UInt8
  framesSeen : UInt32
  pending : Option PendingReply
  counters : RxCounters
  /-- the frames the other core has not read yet, and whether their CRC was good -/
  rxSlots : List (Bytes × Bool)

namespace RxEngine

/-- Frames that wait for the other core. -/
def RX_SLOT_COUNT : ℕ := 4

/-- A frame for the other core. -/
def pushRx (e : RxEngine) (frame : Bytes) (crcOk : Bool) : RxEngine :=
  if e.rxSlots.length ≥ RX_SLOT_COUNT then
    { e with counters := { e.counters with rxDrop := e.counters.rxDrop + 1 } }
  else { e with rxSlots := e.rxSlots ++ [(frame, crcOk)] }

/-- Count the frame by the state of its CRC; a frame addressed to us is counted first. -/
def count (e : RxEngine) (frame : Bytes) (crcOk : Bool) : RxCounters :=
  let c := e.counters
  let c := if frame.head? = some e.ourNode ∧ e.ourNode ≠ 0 then
    { c with directedRx := c.directedRx + 1 } else c
  if crcOk then
    { c with
      goodCrc := c.goodCrc + 1
      lastGoodLen := UInt16.ofNat frame.length
      lastGoodFrame := frame.take 8 }
  else
    { c with
      badCrc := c.badCrc + 1
      badReal := if frame.length > 5 then c.badReal + 1 else c.badReal
      lastBadLen := UInt16.ofNat frame.length
      lastBadFrame := frame.take 8 }

/-- The frame names our node as its source. -/
def isEcho (e : RxEngine) (frame : Bytes) : Bool :=
  decide (frame[1]? = some e.ourNode) && e.ourNode != 0

/-- The closing flag of `frame`; `analyzer` is the debugging mode in which everything is passed on.
    -/
def frameEnd (e : RxEngine) (analyzer : Bool) (now : Micros) (frame : Bytes) : RxEngine :=
  let e := { e with framesSeen := e.framesSeen + 1 }
  let crcOk := frameCrcOk frame
  if e.isEcho frame && !analyzer then
    { e with counters := { e.counters with echoSkip := e.counters.echoSkip + 1 } }
  else
    let e := { e with counters := e.count frame crcOk }
    let reply := if crcOk then (autoReply frame e.ourNode).intoFrame else none
    let e := if crcOk || analyzer then e.pushRx frame crcOk else e
    match reply with
    | some frame => { e with pending := some ⟨frame, now⟩ }
    | none => e

/-- **An ENQ for our own node that names it as its source is answered in analyzer mode
    alone**; otherwise it is taken for an echo. -/
theorem frameEnd_probe (e : RxEngine) (analyzer : Bool) (now : Micros) (h : e.ourNode ≠ 0) :
    (e.frameEnd analyzer now (control e.ourNode e.ourNode ENQ)).pending =
      if analyzer then some ⟨composeAck e.ourNode, now⟩ else e.pending := by
  have hecho : isEcho { e with framesSeen := e.framesSeen + 1 }
      (control e.ourNode e.ourNode ENQ) = true := by
    simp only [isEcho, control, List.cons_append, List.getElem?_cons_succ,
      List.getElem?_cons_zero, decide_true, Bool.true_and, bne_iff_ne]
    exact h
  unfold frameEnd
  dsimp only
  rw [hecho, frameCrcOk_control, autoReply_enq]
  cases analyzer <;> rfl

end RxEngine

end TailTalk.LocalTalk
