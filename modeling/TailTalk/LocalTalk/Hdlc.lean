/-
  What goes out on the wire for a frame.

  Two flags, the frame with a zero after every five ones, a flag and an abort
  are encoded as two FM-0 symbols a bit: the level changes at the start of
  every cell, and in the middle of a zero.
-/
import TailTalk.Lib.Bits
import TailTalk.Lib.Bounded

namespace TailTalk.LocalTalk

open Lib

/-- The SDLC flag byte. -/
def FLAG : UInt8 := 0x7E

/-- Maximum LocalTalk frame size. -/
def MAX_FRAME_LEN : ℕ := 605

/-- Flags before a frame. -/
def NUM_OPENING_FLAGS : ℕ := 2

/-- Ones after it. -/
def NUM_ABORT_BITS : ℕ := 16

/-- Room for its bits. -/
def MAX_HDLC_BITS : ℕ := 8192

/-- Room for its symbols. -/
def MAX_FM0_SYMBOLS : ℕ := 16384

/-- The level of the line. -/
structure Fm0Encoder where
  /-- current output level -/
  level : Bool

namespace Fm0Encoder

/-- The line is low. -/
def new : Fm0Encoder := ⟨false⟩

/-- The two half-cell symbols of a bit. -/
def encodeBit (enc : Fm0Encoder) (bit : Bool) : (Bool × Bool) × Fm0Encoder :=
  let boundary := !enc.level
  let mid := if bit then boundary else !boundary
  ((boundary, mid), ⟨mid⟩)

/-- The symbols of some bits. -/
def symbols : Fm0Encoder → List Bool → List Bool
  | _, [] => []
  | enc, bit :: bits =>
    let r := enc.encodeBit bit
    r.1.1 :: r.1.2 :: symbols r.2 bits

theorem symbols_length (enc : Fm0Encoder) (bits : List Bool) :
    (enc.symbols bits).length = 2 * bits.length := by
  induction bits generalizing enc with
  | nil => rfl
  | cons bit bits ih => simp only [symbols, List.length_cons, ih]; omega

end Fm0Encoder

/-! ## The bit stream -/

/-- The bits of a byte. -/
def pushByteAsBits (bits : List Bool) (byte : UInt8) : List Bool :=
  (byteBits byte).foldl (pushLossy MAX_HDLC_BITS) bits

/-- A bit of the frame, and the zero after the fifth one. -/
def stuffBit : List Bool × ℕ → Bool → List Bool × ℕ
  | (bits, ones), bit =>
    let bits := pushLossy MAX_HDLC_BITS bits bit
    if bit then
      if ones + 1 = 5 then (pushLossy MAX_HDLC_BITS bits false, 0) else (bits, ones + 1)
    else (bits, 0)

/-- The bits of a frame that ends in its FCS. -/
def buildHdlcBitstream (frame : Bytes) : Option (List Bool) :=
  if frame.length < 5 ∨ MAX_FRAME_LEN < frame.length then none
  else
    let bits := (List.replicate NUM_OPENING_FLAGS FLAG).foldl pushByteAsBits []
    let bits := ((wireBits frame).foldl stuffBit (bits, 0)).1
    let bits := pushByteAsBits bits FLAG
    some ((List.replicate NUM_ABORT_BITS true).foldl (pushLossy MAX_HDLC_BITS) bits)

/-- The symbols of a bit. -/
def pushCell : Fm0Encoder × List Bool → Bool → Fm0Encoder × List Bool
  | (enc, fm0), bit =>
    let r := enc.encodeBit bit
    (r.2, pushLossy MAX_FM0_SYMBOLS (pushLossy MAX_FM0_SYMBOLS fm0 r.1.1) r.1.2)

/-- The FM-0 symbols of a frame. -/
def buildTxBuffer (frame : Bytes) : Option (List Bool) :=
  (buildHdlcBitstream frame).map fun hdlc => (hdlc.foldl pushCell (.new, [])).2

/-! ## Nothing is lost -/

/-- The bits that a frame is sent as. -/
def hdlcBits (frame : Bytes) : List Bool :=
  wireBits (List.replicate NUM_OPENING_FLAGS FLAG) ++ stuffed 0 (wireBits frame) ++
    byteBits FLAG ++ List.replicate NUM_ABORT_BITS true

theorem hdlcBits_length_le (frame : Bytes) :
    5 * (hdlcBits frame).length ≤ 48 * frame.length + 200 := by
  have hstuffed := stuffed_length_le (show 0 < 5 by decide) (wireBits frame)
  rw [wireBits_length] at hstuffed
  simp only [hdlcBits, List.length_append, wireBits_length, byteBits_length,
    List.length_replicate, NUM_OPENING_FLAGS, NUM_ABORT_BITS]
  omega

theorem foldl_pushByteAsBits (bits : List Bool) (bytes : Bytes)
    (h : bits.length + 8 * bytes.length ≤ MAX_HDLC_BITS) :
    bytes.foldl pushByteAsBits bits = bits ++ wireBits bytes := by
  have hfold : bytes.foldl pushByteAsBits bits =
      (wireBits bytes).foldl (pushLossy MAX_HDLC_BITS) bits := by
    rw [wireBits, List.foldl_flatMap]
    rfl
  rw [hfold, foldl_pushLossy_of_le (by rwa [wireBits_length])]

theorem foldl_stuffBit {bits : List Bool} {ones : ℕ} (data : List Bool)
    (h : bits.length + (stuffed ones data).length ≤ MAX_HDLC_BITS) :
    (data.foldl stuffBit (bits, ones)).1 = bits ++ stuffed ones data := by
  induction data generalizing bits ones with
  | nil => simp [stuffed]
  | cons bit data ih =>
    rw [List.foldl_cons]
    cases bit with
    | false =>
      simp only [stuffed, List.length_cons] at h
      simp only [stuffBit, Bool.false_eq_true, if_false, stuffed]
      rw [pushLossy_of_lt _ (by omega), ih (by simp only [List.length_append]; simpa using by omega)]
      simp
    | true =>
      simp only [stuffed] at h
      simp only [stuffBit, if_true, stuffed]
      split at h
      · simp only [List.length_cons] at h
        rename_i hfive
        rw [if_pos hfive, if_pos hfive, pushLossy_of_lt (v := bits) _ (by omega),
          pushLossy_of_lt _ (by simpa using by omega), ih (by simpa using by omega)]
        simp
      · simp only [List.length_cons] at h
        rename_i hfive
        rw [if_neg hfive, if_neg hfive, pushLossy_of_lt _ (by omega), ih (by simpa using by omega)]
        simp

theorem buildHdlcBitstream_eq {frame : Bytes} (hmin : 5 ≤ frame.length)
    (hmax : frame.length ≤ MAX_FRAME_LEN) :
    buildHdlcBitstream frame = some (hdlcBits frame) := by
  have hfit : (hdlcBits frame).length ≤ MAX_HDLC_BITS := by
    have hlen := hdlcBits_length_le frame
    rw [MAX_FRAME_LEN] at hmax
    rw [MAX_HDLC_BITS]
    omega
  unfold hdlcBits at hfit ⊢
  generalize hflags : List.replicate NUM_OPENING_FLAGS FLAG = flags at hfit ⊢
  generalize habort : List.replicate NUM_ABORT_BITS true = abort at hfit ⊢
  simp only [List.length_append, byteBits_length] at hfit
  have hopen : flags.foldl pushByteAsBits [] = wireBits flags := by
    refine foldl_pushByteAsBits [] flags ?_
    rw [← wireBits_length, List.length_nil]
    omega
  have hbody : ((wireBits frame).foldl stuffBit (wireBits flags, 0)).1 =
      wireBits flags ++ stuffed 0 (wireBits frame) := foldl_stuffBit _ (by omega)
  have hclose (bits : List Bool) (h : bits.length + 8 ≤ MAX_HDLC_BITS) :
      pushByteAsBits bits FLAG = bits ++ byteBits FLAG :=
    foldl_pushLossy_of_le (by rwa [byteBits_length])
  have hroom : ¬ (frame.length < 5 ∨ MAX_FRAME_LEN < frame.length) := by omega
  simp only [buildHdlcBitstream, if_neg hroom, hflags, habort, hopen, hbody]
  rw [hclose _ (by rw [List.length_append]; omega), foldl_pushLossy_of_le]
  rw [List.length_append, List.length_append, byteBits_length]
  omega

theorem foldl_pushCell {enc : Fm0Encoder} {fm0 : List Bool} (bits : List Bool)
    (h : fm0.length + 2 * bits.length ≤ MAX_FM0_SYMBOLS) :
    (bits.foldl pushCell (enc, fm0)).2 = fm0 ++ enc.symbols bits := by
  induction bits generalizing enc fm0 with
  | nil => simp [Fm0Encoder.symbols]
  | cons bit bits ih =>
    rw [List.length_cons] at h
    rw [List.foldl_cons]
    simp only [pushCell, Fm0Encoder.symbols]
    rw [pushLossy_of_lt (v := fm0) _ (by omega), pushLossy_of_lt _ (by simpa using by omega),
      ih (by simpa using by omega)]
    simp

/-- **Any frame that is accepted goes out whole.** -/
theorem buildTxBuffer_eq {frame : Bytes} (hmin : 5 ≤ frame.length)
    (hmax : frame.length ≤ MAX_FRAME_LEN) :
    buildTxBuffer frame = some (Fm0Encoder.new.symbols (hdlcBits frame)) := by
  have hlen := hdlcBits_length_le frame
  have hroom : 2 * (hdlcBits frame).length ≤ MAX_FM0_SYMBOLS := by
    rw [MAX_FRAME_LEN] at hmax
    rw [MAX_FM0_SYMBOLS]
    omega
  rw [buildTxBuffer, buildHdlcBitstream_eq hmin hmax, Option.map_some,
    foldl_pushCell _ (by simpa using hroom), List.nil_append]

end TailTalk.LocalTalk
