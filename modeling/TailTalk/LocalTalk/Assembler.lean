/-
  Receptions — the bits of the line as bytes, flags and aborts, and those as
  frames.

  The assembler has room for the longest frame and pays no attention to what
  does not fit, so what it holds is the front of what has come since the last
  flag.
-/
import TailTalk.LocalTalk.Hdlc

namespace TailTalk.LocalTalk

open Lib

/-! ## Unstuffing -/

/-- What a bit completes. -/
inductive UnstuffEvent where
  | byte (b : UInt8)
  | flag
  | abort
  | none

/-- The byte so far. -/
structure BitUnstuffer where
  bitPos : ℕ
  accum : UInt8
  /-- the ones seen in a row -/
  ones : ℕ
deriving DecidableEq

namespace BitUnstuffer

/-- No bit was read. -/
def new : BitUnstuffer := ⟨0, 0, 0⟩

/-- One bit. -/
def feedBit (u : BitUnstuffer) (bit : Bool) : UnstuffEvent × BitUnstuffer :=
  if u.ones = 5 then
    -- a stuffed zero, or the sixth one of a flag or an abort
    if bit then (.none, { u with ones := 6 }) else (.none, { u with ones := 0 })
  else if u.ones = 6 then (if bit then .abort else .flag, new)
  else
    let accum := u.accum ||| bit.toUInt8 <<< UInt8.ofNat u.bitPos
    let ones := if bit then u.ones + 1 else 0
    if u.bitPos + 1 = 8 then (.byte accum, ⟨0, 0, ones⟩) else (.none, ⟨u.bitPos + 1, accum, ones⟩)

end BitUnstuffer

/-! ## Assembling -/

/-- Between frames, or in one. -/
inductive AsmState where
  | idle
  | inFrame
deriving DecidableEq

/-- How a frame ends. -/
inductive AsmEvent where
  | frameEnd
  | aborted

/-- The frame so far. -/
structure FrameAssembler where
  state : AsmState
  current : Bytes

namespace FrameAssembler

/-- No frame. -/
def new : FrameAssembler := ⟨.idle, []⟩

/-- A byte of it. -/
def feedByte (a : FrameAssembler) (byte : UInt8) : FrameAssembler :=
  if a.state = .inFrame then { a with current := pushLossy MAX_FRAME_LEN a.current byte } else a

/-- A flag ends it, or begins one. -/
def feedFlag (a : FrameAssembler) : Option AsmEvent × FrameAssembler :=
  match a.state with
  | .idle => (none, ⟨.inFrame, []⟩)
  | .inFrame => if a.current = [] then (none, a) else (some .frameEnd, a)

/-- The closing flag also opens the next frame. -/
def ackFrameEnd (a : FrameAssembler) : FrameAssembler := { a with current := [] }

/-- An abort ends it. -/
def feedAbort (a : FrameAssembler) : Option AsmEvent × FrameAssembler :=
  (if a.current = [] then none else some .aborted, ⟨.idle, []⟩)

end FrameAssembler

/-! ## The receive loop -/

/-- A call of the assembler. -/
inductive AsmCall where
  | byte (b : UInt8)
  | flag
  | abort
deriving DecidableEq

/-- A call, and the frame taken if it ended one. -/
def FrameAssembler.feed (a : FrameAssembler) : AsmCall → Option Bytes × FrameAssembler
  | .byte b => (none, a.feedByte b)
  | .flag =>
    match a.feedFlag with
    | (some .frameEnd, a) => (some a.current, a.ackFrameEnd)
    | (_, a) => (none, a)
  | .abort => (none, a.feedAbort.2)

/-- What the PIO pushes when the line has gone quiet. -/
def FRAME_END_MARKER : UInt32 := 0xFFFFFFFF

/-- What one bit gives the assembler. -/
def bitCalls : List AsmCall × BitUnstuffer → Bool → List AsmCall × BitUnstuffer
  | (calls, unstuffer), bit =>
    match unstuffer.feedBit bit with
    | (.byte b, unstuffer) => (calls ++ [.byte b], unstuffer)
    | (.flag, unstuffer) => (calls ++ [.flag], unstuffer)
    | (.abort, _) => (calls ++ [.abort], .new)
    | (.none, unstuffer) => (calls, unstuffer)

/-- The calls that a word of the receive ring leads to; its top byte holds eight bits. -/
def wordCalls (unstuffer : BitUnstuffer) (word : UInt32) : List AsmCall × BitUnstuffer :=
  if word = FRAME_END_MARKER then ([.flag, .abort], .new)
  else (byteBits (word >>> 24).toUInt8).foldl bitCalls ([], unstuffer)

/-- What the words of the ring give it. -/
def ringCalls : BitUnstuffer → List UInt32 → List AsmCall
  | _, [] => []
  | unstuffer, word :: words =>
    let r := wordCalls unstuffer word
    r.1 ++ ringCalls r.2 words

/-- The assembler after some calls. -/
def after (calls : List AsmCall) : FrameAssembler :=
  calls.foldl (fun a call => (a.feed call).2) .new

/-! ## What has been received -/

/-- The bytes since the last flag, unless there was an abort since. -/
def sinceFlag : List AsmCall → Option Bytes :=
  List.foldl (fun bytes call =>
    match call with
    | .byte b => bytes.map (· ++ [b])
    | .flag => some []
    | .abort => none) none

theorem sinceFlag_snoc (calls : List AsmCall) (call : AsmCall) :
    sinceFlag (calls ++ [call]) =
      match call with
      | .byte b => (sinceFlag calls).map (· ++ [b])
      | .flag => some []
      | .abort => none := by
  rw [sinceFlag, List.foldl_append]
  rfl

/-- The assembler that has received `bytes` since a flag. -/
def FrameAssembler.holding : Option Bytes → FrameAssembler
  | none => ⟨.idle, []⟩
  | some bytes => ⟨.inFrame, bytes.take MAX_FRAME_LEN⟩

theorem FrameAssembler.feed_flag_holding (received : Option Bytes) :
    (holding received).feed .flag =
      ((received.filter (· ≠ [])).map (·.take MAX_FRAME_LEN), holding (some [])) := by
  rcases received with _ | bytes
  · rfl
  · rcases bytes with _ | ⟨b, bytes⟩
    · rfl
    · rfl

theorem FrameAssembler.feed_byte_holding (received : Option Bytes) (b : UInt8) :
    ((holding received).feed (.byte b)).2 = holding (received.map (· ++ [b])) := by
  rcases received with _ | bytes
  · rfl
  · have hpush : pushLossy MAX_FRAME_LEN (bytes.take MAX_FRAME_LEN) b =
        (bytes ++ [b]).take MAX_FRAME_LEN := by
      have hall (bs : Bytes) : bs.foldl (pushLossy MAX_FRAME_LEN) [] = bs.take MAX_FRAME_LEN :=
        foldl_pushLossy bs (Nat.zero_le _)
      rw [← hall, ← hall, List.foldl_append]
      rfl
    simp only [feed, feedByte, holding, if_true, Option.map_some, hpush]

/-- **What the assembler holds**: the front of what has come since the last flag. -/
theorem after_eq (calls : List AsmCall) : after calls = .holding (sinceFlag calls) := by
  induction calls using List.reverseRecOn with
  | nil => rfl
  | append_singleton calls call ih =>
    have hstep : after (calls ++ [call]) = ((after calls).feed call).2 := by
      rw [after, List.foldl_append]
      rfl
    rw [hstep, ih, sinceFlag_snoc]
    cases call with
    | byte b => exact FrameAssembler.feed_byte_holding _ b
    | flag => rw [FrameAssembler.feed_flag_holding]
    | abort => rfl

/-! ## Frames -/

/-- Each frame that a flag ends is what was received since the flag before. -/
def FramesExact (calls : List AsmCall) : Prop :=
  ∀ before rest, calls = before ++ .flag :: rest →
    ∀ frame, ((after before).feed .flag).1 = some frame → sinceFlag before = some frame

/-- No reception that a flag ends is longer than a frame may be. -/
def NoneOverlong (calls : List AsmCall) : Prop :=
  ∀ before rest, calls = before ++ .flag :: rest →
    ∀ bytes, sinceFlag before = some bytes → bytes.length ≤ MAX_FRAME_LEN

theorem framesExact_iff (calls : List AsmCall) : FramesExact calls ↔ NoneOverlong calls := by
  constructor
  · intro h before rest hcalls bytes hbytes
    rcases hnil : bytes with _ | ⟨b, bs⟩
    · exact Nat.zero_le _
    · have hframe : ((after before).feed .flag).1 = some (bytes.take MAX_FRAME_LEN) := by
        rw [after_eq, hbytes, FrameAssembler.feed_flag_holding, hnil]
        rfl
      have hexact := h before rest hcalls _ hframe
      rw [hbytes, Option.some.injEq] at hexact
      rw [← hnil, hexact]
      exact List.length_take_le _ _
  · intro h before rest hcalls frame hframe
    rw [after_eq, FrameAssembler.feed_flag_holding] at hframe
    obtain ⟨bytes, hbytes, rfl⟩ := Option.map_eq_some_iff.1 hframe
    have hsince : sinceFlag before = some bytes := (Option.filter_eq_some_iff.1 hbytes).1
    rw [hsince, List.take_of_length_le (h before rest hcalls bytes hsince)]

/-- **Frames are exact where no reception is too long.**  In the calls that the words of the
    receive ring lead to, each frame end carries all bytes since the flag before exactly if no
    reception that ends in a flag is longer than 605 bytes. -/
theorem frameEnd_exact_iff (words : List UInt32) :
    FramesExact (ringCalls .new words) ↔ NoneOverlong (ringCalls .new words) :=
  framesExact_iff _

/-- A reception of zeros. -/
def zerosBetweenFlags (n : ℕ) : List UInt32 :=
  0x7E000000 :: List.replicate n 0 ++ [0x7E000000]

theorem ringCalls_zeros (n : ℕ) (words : List UInt32) :
    ringCalls .new (List.replicate n 0 ++ words) =
      List.replicate n (.byte 0) ++ ringCalls .new words := by
  induction n with
  | zero => rfl
  | succ n ih =>
    have hword : wordCalls .new 0 = ([.byte 0], .new) := by decide
    rw [List.replicate_succ, List.cons_append, ringCalls, hword]
    exact congrArg (AsmCall.byte 0 :: ·) ih

theorem sinceFlag_zeros (n : ℕ) :
    sinceFlag (.flag :: List.replicate n (.byte 0)) = some (List.replicate n 0) := by
  induction n with
  | zero => rfl
  | succ n ih =>
    rw [List.replicate_succ', ← List.cons_append, sinceFlag_snoc, ih, List.replicate_succ']
    rfl

/-- A reception of 606 zeros is reported as a frame of 605. -/
theorem overlong_reported : ¬ ∀ words, FramesExact (ringCalls .new words) := by
  intro h
  have hflag : wordCalls .new 0x7E000000 = ([.flag], .new) := by decide
  have hcalls : ringCalls .new (zerosBetweenFlags 606) =
      (.flag :: List.replicate 606 (.byte 0)) ++ .flag :: [] := by
    rw [zerosBetweenFlags, List.cons_append, ringCalls, hflag, ringCalls_zeros, ringCalls, hflag]
    rfl
  have hlen := (framesExact_iff _).1 (h (zerosBetweenFlags 606)) _ _ hcalls _ (sinceFlag_zeros 606)
  rw [List.length_replicate] at hlen
  exact absurd hlen (by decide)

/-! ## What was sent -/

/-- The bits of the cells on the line, a bit for two half-cell levels. -/
def cellBits : List Bool → List Bool
  | boundary :: mid :: symbols => (boundary == mid) :: cellBits symbols
  | _ => []

/-- What the PIO pushes: eight bits at a time, in the top byte, the first the lowest; on a quiet
    line the marker, and what is left of the bits is gone. -/
def burstWords : List Bool → List UInt32
  | b₀ :: b₁ :: b₂ :: b₃ :: b₄ :: b₅ :: b₆ :: b₇ :: bits =>
    packWord [b₀, b₁, b₂, b₃, b₄, b₅, b₆, b₇] <<< 24 :: burstWords bits
  | _ => [FRAME_END_MARKER]

/-- What some bits give it. -/
def bitsCalls (u : BitUnstuffer) (bits : List Bool) : List AsmCall × BitUnstuffer :=
  bits.foldl bitCalls ([], u)

/-- The calls that the words of the ring lead to, where the end of a burst leads to `ending`. -/
def callsWith (ending : List AsmCall) : BitUnstuffer → List UInt32 → List AsmCall
  | _, [] => []
  | unstuffer, word :: words =>
    if word = FRAME_END_MARKER then ending ++ callsWith ending .new words
    else
      (bitsCalls unstuffer (byteBits (word >>> 24).toUInt8)).1 ++
        callsWith ending (bitsCalls unstuffer (byteBits (word >>> 24).toUInt8)).2 words

theorem ringCalls_eq (u : BitUnstuffer) (words : List UInt32) :
    ringCalls u words = callsWith [.flag, .abort] u words := by
  induction words generalizing u with
  | nil => rfl
  | cons word words ih =>
    have hword : ringCalls u (word :: words) =
      (wordCalls u word).1 ++ ringCalls (wordCalls u word).2 words := rfl
    rw [hword, ih, callsWith, wordCalls]
    split_ifs
    · rfl
    · rfl

/-- The frames that some calls end. -/
def taken : FrameAssembler → List AsmCall → List Bytes
  | _, [] => []
  | a, call :: calls => (a.feed call).1.toList ++ taken (a.feed call).2 calls

theorem cellBits_symbols (enc : Fm0Encoder) (bits : List Bool) :
    cellBits (enc.symbols bits) = bits := by
  induction bits generalizing enc with
  | nil => rfl
  | cons bit bits ih =>
    simp only [Fm0Encoder.symbols, cellBits, ih, Fm0Encoder.encodeBit]
    cases bit <;> simp

theorem foldl_bitCalls (calls : List AsmCall) (u : BitUnstuffer) (bits : List Bool) :
    bits.foldl bitCalls (calls, u) = (calls ++ (bitsCalls u bits).1, (bitsCalls u bits).2) := by
  induction bits generalizing calls u with
  | nil => simp [bitsCalls]
  | cons bit bits ih =>
    have hone : bitCalls (calls, u) bit =
        (calls ++ (bitCalls ([], u) bit).1, (bitCalls ([], u) bit).2) := by
      rcases h : u.feedBit bit with ⟨b | _ | _ | _, u'⟩ <;> simp [bitCalls, h]
    rw [bitsCalls, List.foldl_cons, List.foldl_cons, hone, ih, ih (bitCalls ([], u) bit).1,
      List.append_assoc]

theorem bitsCalls_append (u : BitUnstuffer) (as bs : List Bool) :
    bitsCalls u (as ++ bs) = ((bitsCalls u as).1 ++ (bitsCalls (bitsCalls u as).2 bs).1,
      (bitsCalls (bitsCalls u as).2 bs).2) := by
  rw [bitsCalls, List.foldl_append, ← bitsCalls, ← foldl_bitCalls]

theorem packWord_byte (b₀ b₁ b₂ b₃ b₄ b₅ b₆ b₇ : Bool) :
    packWord [b₀, b₁, b₂, b₃, b₄, b₅, b₆, b₇] <<< 24 ≠ FRAME_END_MARKER ∧
      byteBits (packWord [b₀, b₁, b₂, b₃, b₄, b₅, b₆, b₇] <<< 24 >>> 24).toUInt8 =
        [b₀, b₁, b₂, b₃, b₄, b₅, b₆, b₇] := by
  revert b₀ b₁ b₂ b₃ b₄ b₅ b₆ b₇
  decide +kernel

/-- The calls of a burst: whole bytes of it, and the end of it. -/
theorem callsWith_burst (ending : List AsmCall) (u : BitUnstuffer) (bits : List Bool)
    (words : List UInt32) : callsWith ending u (burstWords bits ++ words) =
      (bitsCalls u (bits.take (bits.length / 8 * 8))).1 ++
        (ending ++ callsWith ending .new words) := by
  induction bits using burstWords.induct generalizing u with
  | case1 b₀ b₁ b₂ b₃ b₄ b₅ b₆ b₇ bits ih =>
    have hlen : (b₀ :: b₁ :: b₂ :: b₃ :: b₄ :: b₅ :: b₆ :: b₇ :: bits).length / 8 * 8 =
        bits.length / 8 * 8 + 8 := by
      simp only [List.length_cons]
      omega
    have htake : (b₀ :: b₁ :: b₂ :: b₃ :: b₄ :: b₅ :: b₆ :: b₇ :: bits).take
        (bits.length / 8 * 8 + 8) =
          [b₀, b₁, b₂, b₃, b₄, b₅, b₆, b₇] ++ bits.take (bits.length / 8 * 8) := rfl
    obtain ⟨hmarker, hbits⟩ := packWord_byte b₀ b₁ b₂ b₃ b₄ b₅ b₆ b₇
    rw [hlen, htake, burstWords, List.cons_append, callsWith, if_neg hmarker, hbits, ih,
      bitsCalls_append, List.append_assoc]
  | case2 bits hshort =>
    have hlt : bits.length / 8 = 0 := by
      refine Nat.div_eq_of_lt (Nat.lt_of_not_le fun hle => ?_)
      match bits, hle with
      | _ :: _ :: _ :: _ :: _ :: _ :: _ :: _ :: _, _ => exact hshort _ _ _ _ _ _ _ _ _ rfl
    have hmarker : burstWords bits = [FRAME_END_MARKER] := by
      rw [burstWords]
      exact hshort
    rw [hlt, hmarker]
    rfl

/-! ### Unstuffing what was stuffed -/

/-- The ones at the end, after `ones` ones; five are followed by a stuffed zero. -/
def onesAfter : ℕ → List Bool → ℕ
  | ones, [] => ones
  | _, false :: bits => onesAfter 0 bits
  | ones, true :: bits => onesAfter (if ones + 1 = 5 then 0 else ones + 1) bits

theorem stuffed_append (ones : ℕ) (as bs : List Bool) :
    stuffed ones (as ++ bs) = stuffed ones as ++ stuffed (onesAfter ones as) bs := by
  induction as generalizing ones with
  | nil => rfl
  | cons a as ih =>
    cases a with
    | false => simp [stuffed, onesAfter, ih]
    | true =>
      simp only [List.cons_append, stuffed, onesAfter]
      split_ifs
      · simp [ih]
      · simp [ih]

theorem onesAfter_lt {ones : ℕ} (h : ones < 5) (bits : List Bool) : onesAfter ones bits < 5 := by
  induction bits generalizing ones with
  | nil => exact h
  | cons bit bits ih =>
    cases bit with
    | false => exact ih (by decide)
    | true =>
      refine ih ?_
      split_ifs
      · decide
      · omega

theorem bitsCalls_byte {ones : ℕ} (h : ones < 5) (b : UInt8) :
    bitsCalls ⟨0, 0, ones⟩ (stuffed ones (byteBits b)) =
      ([.byte b], ⟨0, 0, onesAfter ones (byteBits b)⟩) := by
  have hall : ∀ ones : Fin 5, ∀ b : Fin 256,
      bitsCalls ⟨0, 0, ones⟩ (stuffed ones (byteBits (UInt8.ofNat b))) =
        ([.byte (UInt8.ofNat b)], ⟨0, 0, onesAfter ones (byteBits (UInt8.ofNat b))⟩) := by
    decide +kernel
  have hb := hall ⟨ones, h⟩ ⟨b.toNat, b.toNat_lt⟩
  rwa [UInt8.ofNat_toNat] at hb

theorem bitsCalls_stuffed {ones : ℕ} (h : ones < 5) (bytes : Bytes) :
    bitsCalls ⟨0, 0, ones⟩ (stuffed ones (wireBits bytes)) =
      (bytes.map .byte, ⟨0, 0, onesAfter ones (wireBits bytes)⟩) := by
  induction bytes generalizing ones with
  | nil => rfl
  | cons b bytes ih =>
    have hones : onesAfter ones (wireBits (b :: bytes)) =
        onesAfter (onesAfter ones (byteBits b)) (wireBits bytes) := by
      rw [wireBits_cons]
      generalize byteBits b = as
      induction as generalizing ones with
      | nil => rfl
      | cons a as ih' =>
        cases a with
        | false => exact ih' (by decide)
        | true =>
          refine ih' ?_
          split_ifs
          · decide
          · omega
    rw [hones, wireBits_cons, stuffed_append, bitsCalls_append, bitsCalls_byte h,
      ih (onesAfter_lt h _)]
    rfl

/-- The closing flag, whatever ones come before it, and the abort that is cut off. -/
theorem bitsCalls_closing {ones k : ℕ} (h : ones < 5) (hk : 9 ≤ k) (hk' : k ≤ 16) :
    ∃ n, (bitsCalls ⟨0, 0, ones⟩ (byteBits FLAG ++ List.replicate k true)).1 =
      .flag :: List.replicate n .abort := by
  have hall : ∀ ones : Fin 5, ∀ k : Fin 8, (bitsCalls ⟨0, 0, ones⟩
      (byteBits FLAG ++ List.replicate (9 + k) true)).1 =
        .flag :: List.replicate ((9 + k) / 7) .abort := by decide +kernel
  have hone := hall ⟨ones, h⟩ ⟨k - 9, by omega⟩
  have hsum : 9 + (k - 9) = k := by omega
  exact ⟨_, by simpa only [hsum] using hone⟩

theorem bitsCalls_flags : bitsCalls .new (wireBits (List.replicate NUM_OPENING_FLAGS FLAG)) =
    ([.flag, .flag], .new) := by decide

theorem take_bytes_ones (bits : List Bool) :
    (bits ++ List.replicate 16 true).take ((bits ++ List.replicate 16 true).length / 8 * 8) =
      bits ++ List.replicate (16 - (bits.length + 16) % 8) true := by
  have hlen : (bits ++ List.replicate 16 true).length = bits.length + 16 := by simp
  rw [hlen, List.take_append, List.take_of_length_le (by omega), List.take_replicate]
  congr 2
  omega

theorem callsWith_hdlcBits (ending : List AsmCall) (frame : Bytes) :
    ∃ n, ∀ words, callsWith ending .new (burstWords (hdlcBits frame) ++ words) =
      .flag :: .flag :: (frame.map .byte ++ .flag :: (List.replicate n .abort ++
        (ending ++ callsWith ending .new words))) := by
  -- The cut is in the abort.
  have hcut : ∃ k, 9 ≤ k ∧ k ≤ 16 ∧ (hdlcBits frame).take ((hdlcBits frame).length / 8 * 8) =
      wireBits (List.replicate NUM_OPENING_FLAGS FLAG) ++ (stuffed 0 (wireBits frame) ++
        (byteBits FLAG ++ List.replicate k true)) := by
    have hsplit : hdlcBits frame = (wireBits (List.replicate NUM_OPENING_FLAGS FLAG) ++
        (stuffed 0 (wireBits frame) ++ byteBits FLAG)) ++ List.replicate 16 true := by
      simp only [hdlcBits, List.append_assoc, NUM_ABORT_BITS]
    rw [hsplit, take_bytes_ones]
    generalize hm : (_ + 16) % 8 = m
    exact ⟨16 - m, by omega, Nat.sub_le _ _, by simp only [List.append_assoc]⟩
  obtain ⟨k, hk, hk', htake⟩ := hcut
  obtain ⟨n, hn⟩ := bitsCalls_closing (onesAfter_lt (show 0 < 5 by decide) (wireBits frame)) hk hk'
  have hbody := bitsCalls_stuffed (show 0 < 5 by decide) frame
  refine ⟨n, fun words => ?_⟩
  rw [callsWith_burst, htake, bitsCalls_append, bitsCalls_flags, bitsCalls_append,
    show BitUnstuffer.new = ⟨0, 0, 0⟩ from rfl, hbody]
  simp only [hn]
  simp

/-! ### Taking the frames -/

theorem taken_bytes (received : Bytes) (bytes : Bytes) (calls : List AsmCall) :
    taken (.holding (some received)) (bytes.map .byte ++ calls) =
      taken (.holding (some (received ++ bytes))) calls := by
  induction bytes generalizing received with
  | nil => simp
  | cons b bytes ih =>
    have hfeed := FrameAssembler.feed_byte_holding (some received) b
    rw [List.map_cons, List.cons_append, taken, hfeed, Option.map_some, ih, List.append_assoc]
    rfl

theorem taken_append (a : FrameAssembler) (calls calls' : List AsmCall) :
    taken a (calls ++ calls') =
      taken a calls ++ taken (calls.foldl (fun a call => (a.feed call).2) a) calls' := by
  induction calls generalizing a with
  | nil => rfl
  | cons call calls ih =>
    rw [List.cons_append, taken, ih, taken, List.foldl_cons, List.append_assoc]

/-- There is nothing of a frame. -/
def FrameAssembler.Clear (a : FrameAssembler) : Prop := a = .holding none ∨ a = .holding (some [])

theorem taken_aborts {a : FrameAssembler} (h : a.Clear) (n : ℕ) : ∃ a' : FrameAssembler, a'.Clear ∧
    ∀ calls, taken a (List.replicate n .abort ++ calls) = taken a' calls := by
  induction n generalizing a with
  | zero => exact ⟨a, h, fun _ => rfl⟩
  | succ n ih =>
    have habort : a.feed .abort = (none, .holding none) := by rcases h with rfl | rfl <;> rfl
    obtain ⟨a', ha', hcalls⟩ := ih (a := .holding none) (.inl rfl)
    refine ⟨a', ha', fun calls => ?_⟩
    rw [List.replicate_succ, List.cons_append, taken, habort]
    exact hcalls calls

/-- What the end of a burst leads to, after the burst or while a CTS is due. -/
def Ends (ending : List AsmCall) : Prop := ending = [.flag, .abort] ∨ ending = [.flag]

theorem taken_ending {a : FrameAssembler} (h : a.Clear) {ending : List AsmCall}
    (hends : Ends ending) : ∃ a' : FrameAssembler, a'.Clear ∧
      ∀ calls, taken a (ending ++ calls) = taken a' calls := by
  rcases hends with rfl | rfl
  · exact ⟨.holding none, .inl rfl, fun calls => by rcases h with rfl | rfl <;> rfl⟩
  · exact ⟨.holding (some []), .inr rfl, fun calls => by rcases h with rfl | rfl <;> rfl⟩

theorem taken_burst {a : FrameAssembler} (h : a.Clear) {ending : List AsmCall} (hends : Ends ending)
    {frame : Bytes} (hne : frame ≠ []) (hmax : frame.length ≤ MAX_FRAME_LEN) :
    ∃ a' : FrameAssembler, a'.Clear ∧ ∀ words,
      taken a (callsWith ending .new (burstWords (hdlcBits frame) ++ words)) =
        frame :: taken a' (callsWith ending .new words) := by
  have hopen (calls : List AsmCall) :
      taken a (.flag :: .flag :: calls) = taken (.holding (some [])) calls := by
    rcases h with rfl | rfl <;> rfl
  have hfilter : (some frame).filter (· ≠ []) = some frame := by simp [hne]
  have hflag := FrameAssembler.feed_flag_holding (some frame)
  rw [hfilter, Option.map_some, List.take_of_length_le hmax] at hflag
  obtain ⟨n, hcalls⟩ := callsWith_hdlcBits ending frame
  obtain ⟨a₁, h₁, haborts⟩ := taken_aborts (a := .holding (some [])) (.inr rfl) n
  obtain ⟨a₂, h₂, hending⟩ := taken_ending h₁ hends
  refine ⟨a₂, h₂, fun words => ?_⟩
  rw [hcalls, hopen, taken_bytes, List.nil_append, taken, hflag, haborts, hending]
  rfl

/-- The bursts of some frames: those that are too short or too long are not sent. -/
def bursts (frames : List Bytes) : List UInt32 :=
  (frames.filterMap buildTxBuffer).flatMap fun symbols => burstWords (cellBits symbols)

theorem taken_bursts {a : FrameAssembler} (h : a.Clear) {ending : List AsmCall}
    (hends : Ends ending) (frames : List Bytes) :
    taken a (callsWith ending .new (bursts frames)) =
      frames.filter fun frame => 5 ≤ frame.length ∧ frame.length ≤ MAX_FRAME_LEN := by
  induction frames generalizing a with
  | nil => rfl
  | cons frame frames ih =>
    by_cases hfits : 5 ≤ frame.length ∧ frame.length ≤ MAX_FRAME_LEN
    · have hne : frame ≠ [] := List.ne_nil_of_length_pos (by omega)
      have hbursts : bursts (frame :: frames) = burstWords (hdlcBits frame) ++ bursts frames := by
        simp [bursts, buildTxBuffer_eq hfits.1 hfits.2, cellBits_symbols]
      obtain ⟨a', h', htaken⟩ := taken_burst h hends hne hfits.2
      rw [hbursts, htaken, ih h', List.filter_cons_of_pos (by simpa using hfits)]
    · have hrefused : buildTxBuffer frame = none := by
        rw [buildTxBuffer, buildHdlcBitstream, if_pos (by omega), Option.map_none]
      have hbursts : bursts (frame :: frames) = bursts frames := by simp [bursts, hrefused]
      rw [hbursts, ih h, List.filter_cons_of_neg (by simpa using hfits)]

theorem ringCalls_marker (u : BitUnstuffer) (noise words : List UInt32) :
    ringCalls u (noise ++ FRAME_END_MARKER :: words) =
      ringCalls u (noise ++ [FRAME_END_MARKER]) ++ ringCalls .new words := by
  induction noise generalizing u with
  | nil => rfl
  | cons word noise ih => simp only [List.cons_append, ringCalls, ih, List.append_assoc]

/-- A marker leaves the assembler between frames. -/
theorem after_marker (u : BitUnstuffer) (noise : List UInt32) :
    after (ringCalls u (noise ++ [FRAME_END_MARKER])) = .new := by
  have hend : ∃ calls, ringCalls u (noise ++ [FRAME_END_MARKER]) = calls ++ [.abort] := by
    induction noise generalizing u with
    | nil => exact ⟨[.flag], rfl⟩
    | cons word noise ih =>
      obtain ⟨calls, hcalls⟩ := ih (wordCalls u word).2
      exact ⟨(wordCalls u word).1 ++ calls, by rw [List.cons_append, ringCalls, hcalls,
        List.append_assoc]⟩
  obtain ⟨calls, hcalls⟩ := hend
  rw [hcalls, after_eq, sinceFlag_snoc]
  rfl

/-- **Frames that are sent are received.**  Whatever was on the line before it last went quiet, the
    receive loop takes the frames of the bursts that follow, each once, in order and whole. -/
theorem received_sent (noise : List UInt32) (frames : List Bytes) :
    taken .new (ringCalls .new (noise ++ FRAME_END_MARKER :: bursts frames)) =
      taken .new (ringCalls .new (noise ++ [FRAME_END_MARKER])) ++
        frames.filter fun frame => 5 ≤ frame.length ∧ frame.length ≤ MAX_FRAME_LEN := by
  rw [ringCalls_marker, taken_append, ← after, after_marker, ringCalls_eq .new (bursts frames)]
  exact congrArg _ (taken_bursts (.inl rfl) (.inl rfl) frames)

end TailTalk.LocalTalk
