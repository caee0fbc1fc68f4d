/-
  Taking turns on the LocalTalk line (CSMA/CA).

  Before an attempt a node waits until the line has been quiet for the gap
  between dialogs and a random while more, which grows with what became of the
  frames before.  A frame for one node is announced with an RTS and sent once
  that node has answered with a CTS; any other is sent at once.
-/
import TailTalk.Lib.Positional
import TailTalk.Lib.Run
import TailTalk.LocalTalk.Assembler
import TailTalk.LocalTalk.Llap

namespace TailTalk.LocalTalk

open Lib

/-! ## Backoff -/

/-- The gap between dialogs, in units of 100 µs. -/
def IDG_UNITS : UInt8 := 4

/-- The longest random wait. -/
def MAX_BACKOFF_MASK : UInt8 := 0x0F

/-- Attempts to send a frame. -/
def MAX_ATTEMPTS : UInt8 := 32

/-- What became of the last frames. -/
structure BackoffState where
  globalMask : UInt8
  localMask : UInt8
  /-- collisions of the last eight frames, the newest in bit 0 -/
  colHistory : UInt8
  /-- deferrals of the last eight frames -/
  defHistory : UInt8
  attempts : UInt8

namespace BackoffState

/-- No frame was sent. -/
def new : BackoffState := ⟨0, 0, 0, 0, MAX_ATTEMPTS⟩

/-- The frames that a history counts. -/
def countOnes (b : UInt8) : ℕ := (byteBits b).count true

/-- A mask of one more bit, up to four. -/
def grow (mask : UInt8) : UInt8 := (mask <<< 1 ||| 1) &&& MAX_BACKOFF_MASK

/-- A frame begins; the histories move on. -/
def prepForNextFrame (s : BackoffState) : BackoffState :=
  let colCount := countOnes s.colHistory
  let defCount := countOnes s.defHistory
  let s := if colCount > 2 then { s with globalMask := grow s.globalMask, colHistory := 0 } else s
  let s :=
    if defCount < 2 then { s with globalMask := s.globalMask >>> 1, defHistory := 0xFF } else s
  { s with
    colHistory := s.colHistory <<< 1
    defHistory := s.defHistory <<< 1
    localMask := s.globalMask ||| 0x03
    attempts := MAX_ATTEMPTS }

/-- The wait before an attempt, in units of 100 µs; the addition saturates. -/
def nextBackoffUnits (s : BackoffState) (entropy : UInt8) : UInt8 :=
  UInt8.ofNat (min 255 ((entropy &&& s.localMask).toNat + IDG_UNITS.toNat))

/-- No CTS came. -/
def recordCollision (s : BackoffState) : BackoffState :=
  { s with colHistory := s.colHistory ||| 1, localMask := grow s.localMask }

/-- The line was busy. -/
def recordDeferral (s : BackoffState) : BackoffState :=
  { s with defHistory := s.defHistory ||| 1, localMask := s.localMask ||| 1 }

/-- One attempt less. -/
def consumeAttempt (s : BackoffState) : BackoffState :=
  { s with attempts := if s.attempts > 0 then s.attempts - 1 else s.attempts }

/-- There is none left. -/
def exhausted (s : BackoffState) : Bool := s.attempts == 0

end BackoffState

/-! ## Sending -/

/-- A frame that waits to be sent. -/
structure TxSlot where
  frame : Bytes
  rts : Bytes
  frameDest : UInt8
  frameSrc : UInt8
  isDirected : Bool

/-- What `submit_tx` queues, if it takes the frame. -/
def submitTx (frame : Bytes) : Option TxSlot :=
  if frame.length < 5 ∨ frame.length > MAX_FRAME_LEN then none
  else
    let frameDest := frame.getD 0 0
    let frameSrc := frame.getD 1 0
    let isDirected := decide (frame.getD 2 0 < 0x80) && frameDest != 0xFF
    some {
      frame
      rts := if isDirected then composeRts frameDest frameSrc else []
      frameDest
      frameSrc
      isDirected }

/-- The CTS is for our RTS. -/
def ctsMatchesPending (frame : Bytes) (ourSrc theirDest : UInt8) : Bool :=
  decide (frame.length ≥ 5) && frame.getD 0 0 == ourSrc && frame.getD 1 0 == theirDest &&
    frame.getD 2 0 == CTS && frameCrcOk frame

/-- The line does not stay quiet, or it does, and then some words are received while a CTS is due.
    -/
inductive Heard where
  | busy
  | quiet (words : List UInt32)

/-- The loop of attempts: whether one has succeeded, and the wait of each with what it sends.
    `sending` is what an attempt sends on a quiet line, and whether it is the last.  `none`: the
    attempts given are not enough. -/
def attempt (sending : List UInt32 → List Bytes × Bool) :
    BackoffState → List (UInt8 × Heard) → Option (Bool × BackoffState × List (UInt8 × List Bytes))
  | s, [] => if s.exhausted then some (false, s, []) else none
  | s, (entropy, heard) :: tries =>
    if s.exhausted then some (false, s, [])
    else
      let wait := s.nextBackoffUnits entropy
      match heard with
      | .busy =>
        (attempt sending s.recordDeferral.consumeAttempt tries).map fun r =>
          (r.1, r.2.1, (wait, []) :: r.2.2)
      | .quiet words =>
        if (sending words).2 then some (true, s, [(wait, (sending words).1)])
        else
          (attempt sending s.recordCollision.consumeAttempt tries).map fun r =>
            (r.1, r.2.1, (wait, (sending words).1) :: r.2.2)

namespace TxSlot

/-- The loop that listens for a CTS takes one.  The end of a burst aborts nothing there. -/
def gotCts (slot : TxSlot) (words : List UInt32) : Bool :=
  (taken .new (callsWith [.flag] .new words)).any (ctsMatchesPending · slot.frameSrc slot.frameDest)

/-- What an attempt sends on a quiet line, and whether it is the last. -/
def sending (slot : TxSlot) (words : List UInt32) : List Bytes × Bool :=
  if slot.isDirected then
    if slot.gotCts words then ([slot.rts, slot.frame], true) else ([slot.rts], false)
  else ([slot.frame], true)

/-- `csma_transmit`, and `directed_tx` for a frame for one node. -/
def csmaTransmit (slot : TxSlot) (s : BackoffState) (tries : List (UInt8 × Heard)) :
    Option (Bool × BackoffState × List (UInt8 × List Bytes)) :=
  attempt slot.sending s.prepForNextFrame tries

end TxSlot

/-! ## The masks -/

namespace BackoffState

/-- The low bits of a byte, up to four of them. -/
def masks : List UInt8 := [0, 1, 3, 7, 15]

/-- Both waits are powers of two, less one. -/
structure Masked (s : BackoffState) : Prop where
  global : s.globalMask ∈ masks
  here : s.localMask ∈ masks

theorem masks_closed : ∀ m ∈ masks, grow m ∈ masks ∧ m >>> 1 ∈ masks ∧ m ||| 3 ∈ masks ∧
    m ||| 1 ∈ masks := by decide +kernel

variable {s : BackoffState}

theorem Masked.prep (h : s.Masked) : s.prepForNextFrame.Masked := by
  have hmask : s.prepForNextFrame.globalMask ∈ masks := by
    have hgrow := (masks_closed _ h.global).1
    unfold prepForNextFrame
    dsimp only
    split_ifs
    · exact (masks_closed _ hgrow).2.1
    · exact (masks_closed _ h.global).2.1
    · exact hgrow
    · exact h.global
  exact ⟨hmask, (masks_closed _ hmask).2.2.1⟩

theorem Masked.collision (h : s.Masked) : s.recordCollision.consumeAttempt.Masked :=
  ⟨h.global, (masks_closed _ h.here).1⟩

theorem Masked.deferral (h : s.Masked) : s.recordDeferral.consumeAttempt.Masked :=
  ⟨h.global, (masks_closed _ h.here).2.2.2⟩

theorem Masked.units (h : s.Masked) (entropy : UInt8) :
    IDG_UNITS ≤ s.nextBackoffUnits entropy ∧ s.nextBackoffUnits entropy ≤ IDG_UNITS + 15 := by
  have hall : ∀ m ∈ masks, ∀ e : Fin 256,
      IDG_UNITS ≤ UInt8.ofNat (min 255 ((UInt8.ofNat e &&& m).toNat + IDG_UNITS.toNat)) ∧
      UInt8.ofNat (min 255 ((UInt8.ofNat e &&& m).toNat + IDG_UNITS.toNat)) ≤ IDG_UNITS + 15 := by
    decide +kernel
  have hone := hall _ h.here ⟨entropy.toNat, entropy.toNat_lt⟩
  rwa [UInt8.ofNat_toNat] at hone

theorem attempts_consume (hleft : s.exhausted = false) {t : BackoffState}
    (ht : t.attempts = s.attempts) : t.consumeAttempt.attempts.toNat + 1 = s.attempts.toNat := by
  have hne : s.attempts ≠ 0 := by simpa [exhausted] using hleft
  have hpos : 0 < s.attempts.toNat := Nat.pos_of_ne_zero fun h => hne (UInt8.toNat_inj.1 h)
  have hgt : s.attempts > 0 := UInt8.lt_iff_toNat_lt.2 hpos
  have hle : (1 : UInt8) ≤ s.attempts := UInt8.le_iff_toNat_le.2 hpos
  rw [consumeAttempt, ht, if_pos hgt, UInt8.toNat_sub_of_le _ _ hle]
  exact Nat.succ_pred_eq_of_pos hpos

end BackoffState

/-! ## What is sent -/

section
variable (sending : List UInt32 → List Bytes × Bool)

/-- What an attempt sends. -/
def sentIn : UInt8 × Heard → List Bytes
  | (_, .busy) => []
  | (_, .quiet words) => (sending words).1

/-- An attempt is the last. -/
def succeeds : UInt8 × Heard → Bool
  | (_, .busy) => false
  | (_, .quiet words) => (sending words).2

/-- The attempts go up to the first that succeeds, each after a wait. -/
def Attempted (s : BackoffState) (tries : List (UInt8 × Heard)) : Prop :=
  ∃ s' log, attempt sending s tries = some (tries.any (succeeds sending), s', log) ∧ s'.Masked ∧
    (∀ x ∈ log, IDG_UNITS ≤ x.1 ∧ x.1 ≤ IDG_UNITS + 15) ∧
    log.map Prod.snd = (upTo (succeeds sending) tries).map (sentIn sending)

variable {sending}

theorem attempted {s : BackoffState} {tries : List (UInt8 × Heard)} (hs : s.Masked)
    (hlen : tries.length = s.attempts.toNat) : Attempted sending s tries := by
  induction tries generalizing s with
  | nil =>
    have hzero : s.attempts = 0 := UInt8.toNat_inj.1 hlen.symm
    exact ⟨s, [], by simp [attempt, BackoffState.exhausted, hzero], hs, by simp, by simp⟩
  | cons t tries ih =>
    obtain ⟨entropy, heard⟩ := t
    have hleft : s.exhausted = false := by
      refine beq_eq_false_iff_ne.2 fun hzero => ?_
      rw [hzero] at hlen
      cases hlen
    have hunits := hs.units entropy
    -- An attempt that fails, and the others.
    have hnext {u : BackoffState} (hu : u.attempts = s.attempts) (hm : u.consumeAttempt.Masked)
        (hfails : succeeds sending (entropy, heard) = false)
        (hstep : attempt sending s ((entropy, heard) :: tries) =
          (attempt sending u.consumeAttempt tries).map fun r => (r.1, r.2.1,
            (s.nextBackoffUnits entropy, sentIn sending (entropy, heard)) :: r.2.2)) :
        Attempted sending s ((entropy, heard) :: tries) := by
      have hdown := BackoffState.attempts_consume hleft hu
      rw [List.length_cons] at hlen
      obtain ⟨s', log, hrun, hs', hwaits, hlog⟩ := ih hm (by omega)
      refine ⟨s', (s.nextBackoffUnits entropy, sentIn sending (entropy, heard)) :: log, ?_, hs',
        ?_, ?_⟩
      · rw [hstep, hrun]
        simp [hfails]
      · exact List.forall_mem_cons.2 ⟨hunits, hwaits⟩
      · rw [upTo, hfails]
        simpa using hlog
    cases heard with
    | busy =>
      exact hnext (u := s.recordDeferral) rfl hs.deferral rfl (by simp [attempt, hleft, sentIn])
    | quiet words =>
      rcases hdone : (sending words).2 with _ | _
      · exact hnext (u := s.recordCollision) rfl hs.collision hdone
          (by simp [attempt, hleft, hdone, sentIn])
      · exact ⟨s, [(s.nextBackoffUnits entropy, (sending words).1)],
          by simp [attempt, hleft, hdone, succeeds], hs, by simpa using hunits,
          by simp [upTo, succeeds, hdone, sentIn]⟩

end

/-- An RTS for each attempt on a quiet line where a frame is for one node, and the frame at most
    once and last. -/
def Carries (slot : TxSlot) (ok : Bool) (sent : List Bytes) : Prop :=
  ∃ k ≤ MAX_ATTEMPTS.toNat, sent = List.replicate k slot.rts ++ (if ok then [slot.frame] else []) ∧
    (slot.isDirected = false → k = 0) ∧ (slot.isDirected = true → ok = true → 0 < k)

theorem carries (slot : TxSlot) {tries : List (UInt8 × Heard)}
    (hlen : tries.length ≤ MAX_ATTEMPTS.toNat) : Carries slot (tries.any (succeeds slot.sending))
      ((upTo (succeeds slot.sending) tries).flatMap (sentIn slot.sending)) := by
  unfold Carries
  generalize MAX_ATTEMPTS.toNat = n at hlen ⊢
  induction tries generalizing n with
  | nil => exact ⟨0, Nat.zero_le n, rfl, fun _ => rfl, by simp⟩
  | cons t tries ih =>
    obtain ⟨m, rfl⟩ := Nat.exists_eq_add_one.2 (Nat.zero_lt_of_lt hlen)
    obtain ⟨k, hk, hsent, hnone, hsome⟩ := ih m (Nat.le_of_succ_le_succ hlen)
    obtain ⟨entropy, _ | words⟩ := t
    · have hfails : succeeds slot.sending (entropy, .busy) = false := rfl
      rw [List.any_cons, upTo, hfails, Bool.false_or]
      exact ⟨k, Nat.le_succ_of_le hk, by simpa [sentIn] using hsent, hnone, hsome⟩
    have hone : succeeds slot.sending (entropy, .quiet words) = (slot.sending words).2 := rfl
    rw [List.any_cons, hone, TxSlot.sending]
    rcases hdir : slot.isDirected with _ | _
    · exact ⟨0, Nat.zero_le _, by simp [upTo, succeeds, sentIn, TxSlot.sending, hdir], by simp,
        by simp⟩
    · rcases hgot : slot.gotCts words with _ | _
      · refine ⟨k + 1, Nat.succ_le_succ hk, ?_, by simp, by simp⟩
        have hrest : upTo (succeeds slot.sending) ((entropy, .quiet words) :: tries) =
            (entropy, .quiet words) :: upTo (succeeds slot.sending) tries := by
          rw [upTo, hone, TxSlot.sending, hdir, hgot]
          rfl
        rw [hrest, List.flatMap_cons, hsent, sentIn, TxSlot.sending, hdir, hgot]
        rfl
      · exact ⟨1, by omega, by simp [upTo, succeeds, sentIn, TxSlot.sending, hdir, hgot], by simp,
          by simp⟩

/-- A frame to send, and what the line is to do in each attempt. -/
abbrev TxJob : Type := TxSlot × (ℕ → UInt8 × Heard)

/-- What the line does in the attempts that a frame may take. -/
def TxJob.tries (job : TxJob) : List (UInt8 × Heard) :=
  (List.range MAX_ATTEMPTS.toNat).map job.2

/-- Core 1 takes a frame from the queue. -/
def transmit (s : BackoffState) (job : TxJob) : Option BackoffState :=
  (job.1.csmaTransmit s job.tries).map (·.2.1)

/-- What becomes of a frame. -/
def Transmits (s : BackoffState) (job : TxJob) : Prop :=
  ∃ ok s' log, job.1.csmaTransmit s job.tries = some (ok, s', log) ∧
    ok = job.tries.any (succeeds job.1.sending) ∧
    (∀ x ∈ log, IDG_UNITS ≤ x.1 ∧ x.1 ≤ IDG_UNITS + 15) ∧
    log.map Prod.snd = (upTo (succeeds job.1.sending) job.tries).map (sentIn job.1.sending) ∧
    Carries job.1 ok (log.flatMap Prod.snd)

theorem transmits {s : BackoffState} (hs : s.Masked) (job : TxJob) :
    Transmits s job ∧ ∃ s', transmit s job = some s' ∧ s'.Masked := by
  have hlen : job.tries.length = MAX_ATTEMPTS.toNat := by
    rw [TxJob.tries, List.length_map, List.length_range]
  obtain ⟨s', log, hrun, hs', hwaits, hlog⟩ := attempted hs.prep hlen
  have hsent : log.flatMap Prod.snd =
      (upTo (succeeds job.1.sending) job.tries).flatMap (sentIn job.1.sending) := by
    rw [List.flatMap_def, hlog, List.flatMap_def]
  refine ⟨⟨_, s', log, hrun, rfl, hwaits, hlog, ?_⟩, s', ?_, hs'⟩
  · rw [hsent]
    exact carries job.1 hlen.le
  · rw [transmit, TxSlot.csmaTransmit, hrun]
    rfl

/-- **What becomes of every frame**, whatever the line does: it is attempted until an attempt
    succeeds, 32 times at most, each time after the gap between dialogs and up to 1.5 ms more; the
    line carries an RTS for each attempt of a frame for one node, and the frame once and last. -/
theorem transmissions_run (jobs : List TxJob) :
    Along (partialStep transmit) (Reached Transmits) (some .new) jobs := by
  have hgood : ∀ (s : BackoffState) job, s.Masked → True → Transmits s job :=
    fun s job hs _ => (transmits hs job).1
  have hstep : ∀ (s : BackoffState) job s', s.Masked → True → transmit s job = some s' →
      s'.Masked := by
    intro s job s' hs _ h
    obtain ⟨t, ht, hmasked⟩ := (transmits hs job).2
    rw [ht] at h
    exact Option.some.inj h ▸ hmasked
  have hstart : ∀ s, some BackoffState.new = some s → s.Masked := by
    intro s hs
    obtain rfl := Option.some.inj hs
    exact ⟨by decide, by decide⟩
  have hall : Along (partialStep transmit) (Reached fun (_ : BackoffState) (_ : TxJob) => True)
      (some .new) jobs := Along.mono _ (fun _ _ _ _ _ => trivial) (along_true _ jobs)
  exact (along_reached hgood hstep hstart hall).1

/-! ## Dialogs -/

theorem ctsMatchesPending_composeCts (dest src : UInt8) :
    ctsMatchesPending (composeCts src dest) src dest = true := by
  unfold ctsMatchesPending composeCts
  rw [frameCrcOk_control]
  simp [control, ltCrc]

theorem autoReply_rts (dest src : UInt8) :
    (autoReply (composeRts dest src) dest).intoFrame = some (composeCts src dest) := by
  have hself : ¬ dest ≠ dest := fun h => h rfl
  have hcontrol : ¬ RTS &&& 0x80 = 0 := by decide
  have henq : ¬ RTS = ENQ := by decide
  have hreply : autoReply (composeRts dest src) dest = .cts src dest := by
    unfold autoReply composeRts
    rw [frameCrcOk_control]
    exact (if_neg hself).trans ((if_neg hcontrol).trans ((if_neg henq).trans (if_pos rfl)))
  rw [hreply]
  rfl

/-- **Only the node asked lets a frame go.**  Of the replies of all nodes to all frames, a node that
    has sent an RTS takes for its CTS only that of the destination to such an RTS. -/
theorem only_dest_answers (heard reply : Bytes) (node dest src : UInt8)
    (hreply : (autoReply heard node).intoFrame = some reply)
    (hmatches : ctsMatchesPending reply src dest = true) :
    node = dest ∧ frameCrcOk heard = true ∧ heard.take 3 = [dest, src, RTS] := by
  have hfields : reply.getD 0 0 = src ∧ reply.getD 1 0 = dest ∧ reply.getD 2 0 = CTS := by
    simp only [ctsMatchesPending, Bool.and_eq_true, beq_iff_eq] at hmatches
    exact ⟨hmatches.1.1.1.2, hmatches.1.1.2, hmatches.1.2⟩
  obtain ⟨hdest, hsrc, htype⟩ := hfields
  unfold autoReply at hreply
  split_ifs at hreply with hcrc
  · cases hreply
  split at hreply
  · rename_i d s t rest
    split_ifs at hreply with hnode hcontrol henq hrts
    · cases hreply
    · cases hreply
    · obtain rfl := Option.some.inj hreply
      have hack : (composeAck d).getD 2 0 = ACK := rfl
      exact absurd (hack.symm.trans htype) (by decide)
    · obtain rfl := Option.some.inj hreply
      obtain rfl : s = src := hdest
      obtain rfl : d = dest := hsrc
      exact ⟨(not_not.1 hnode).symm, by simpa using hcrc, by rw [hrts]; rfl⟩
    · cases hreply
  · cases hreply

theorem only_dest_answers_cts :
    (5 : UInt8) = 5 ∧ frameCrcOk (composeRts 5 7) = true ∧
      (composeRts 5 7).take 3 = [5, 7, RTS] :=
  only_dest_answers (composeRts 5 7) (composeCts 7 5) 5 5 7 (autoReply_rts 5 7)
    (ctsMatchesPending_composeCts 5 7)

theorem control_fits (d s t : UInt8) :
    5 ≤ (control d s t).length ∧ (control d s t).length ≤ MAX_FRAME_LEN := by
  have hlen : (control d s t).length = 5 := rfl
  rw [hlen]
  decide

/-- What is queued of a frame for one node. -/
theorem submitTx_directed {frame : Bytes} {slot : TxSlot} (hslot : submitTx frame = some slot)
    (hdirected : slot.isDirected = true) : 5 ≤ frame.length ∧ frame.length ≤ MAX_FRAME_LEN ∧
      slot = ⟨frame, composeRts (frame.getD 0 0) (frame.getD 1 0), frame.getD 0 0, frame.getD 1 0,
        true⟩ := by
  unfold submitTx at hslot
  split_ifs at hslot with hlen
  obtain rfl := Option.some.inj hslot
  rw [not_or, not_lt, not_lt] at hlen
  refine ⟨hlen.1, hlen.2, ?_⟩
  dsimp only at hdirected
  rw [hdirected, if_pos rfl]

/-- With the CTS among what is heard, the frame is sent. -/
theorem sending_answered (frame : Bytes) {dest src : UInt8} {frames : List Bytes}
    (hall : ∀ f ∈ frames, 5 ≤ f.length ∧ f.length ≤ MAX_FRAME_LEN)
    (hmem : composeCts src dest ∈ frames) :
    TxSlot.sending ⟨frame, composeRts dest src, dest, src, true⟩ (bursts frames) =
      ([composeRts dest src, frame], true) := by
  have htaken := taken_bursts (a := .new) (.inl rfl) (.inr rfl) frames
  rw [List.filter_eq_self.2 fun f hf => decide_eq_true (hall f hf)] at htaken
  have hgot : TxSlot.gotCts ⟨frame, composeRts dest src, dest, src, true⟩ (bursts frames) =
      true := by
    rw [TxSlot.gotCts, htaken]
    exact List.any_eq_true.2 ⟨_, hmem, ctsMatchesPending_composeCts dest src⟩
  rw [TxSlot.sending, if_pos rfl, if_pos hgot]

/-- **A dialog.** On a line that carries what is sent, the destination takes the RTS of a frame and
    answers it with a CTS; with the CTS, after the echo of the RTS or without it, the frame is sent;
    and the destination takes it. -/
theorem dialog (frame : Bytes) (slot : TxSlot) (hslot : submitTx frame = some slot)
    (hdirected : slot.isDirected = true) (noise : List UInt32) :
    ∃ cts, (autoReply slot.rts slot.frameDest).intoFrame = some cts ∧
      slot.sending (bursts [cts]) = ([slot.rts, frame], true) ∧
      slot.sending (bursts [slot.rts, cts]) = ([slot.rts, frame], true) ∧
      taken .new (ringCalls .new (noise ++ FRAME_END_MARKER :: bursts [slot.rts, frame])) =
        taken .new (ringCalls .new (noise ++ [FRAME_END_MARKER])) ++ [slot.rts, frame] := by
  obtain ⟨hmin, hmax, rfl⟩ := submitTx_directed hslot hdirected
  generalize frame.getD 0 0 = dest
  generalize frame.getD 1 0 = src
  have hrts : 5 ≤ (composeRts dest src).length ∧ (composeRts dest src).length ≤ MAX_FRAME_LEN :=
    control_fits dest src RTS
  have hcts : 5 ≤ (composeCts src dest).length ∧ (composeCts src dest).length ≤ MAX_FRAME_LEN :=
    control_fits src dest CTS
  refine ⟨composeCts src dest, autoReply_rts dest src, sending_answered frame ?_ ?_,
    sending_answered frame ?_ ?_, ?_⟩
  · simpa using hcts
  · simp
  · simpa using ⟨hrts, hcts⟩
  · simp
  · rw [ringCalls_marker, taken_append, ← after, after_marker, ringCalls_eq .new (bursts _),
      taken_bursts (a := .new) (.inl rfl) (.inl rfl),
      List.filter_eq_self.2 (by simpa using ⟨hrts, hmin, hmax⟩)]

theorem dialog_short :
    ∃ cts, (autoReply (composeRts 5 7) 5).intoFrame = some cts ∧
      TxSlot.sending ⟨[5, 7, 1, 0, 0], composeRts 5 7, 5, 7, true⟩ (bursts [cts]) =
        ([composeRts 5 7, [5, 7, 1, 0, 0]], true) := by
  obtain ⟨cts, hreply, hsent, -⟩ :=
    dialog [5, 7, 1, 0, 0] ⟨[5, 7, 1, 0, 0], composeRts 5 7, 5, 7, true⟩ rfl rfl []
  exact ⟨cts, hreply, hsent⟩

end TailTalk.LocalTalk
