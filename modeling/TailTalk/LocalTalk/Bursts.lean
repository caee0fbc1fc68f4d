/-
  What the frame check sequence is good for.

  The table is eight steps of a division of bits at once (`lut_eq_steps`), so
  the register of a frame is that of its bits as they go over the wire
  (`feed_toBitVec`), and errors within sixteen bits in a row never pass
  (`frame_check_sequence`).
-/
import TailTalk.Lib.Bits
import TailTalk.Lib.Crc
import TailTalk.LocalTalk.Llap
import TailTalk.TashTalk.Crc

namespace TailTalk.LocalTalk

open Lib

/-- The polynomial, lowest power in the highest bit. -/
def POLY : BitVec 16 := 0x8408#16

theorem poly_msb : POLY.msb = true := rfl

theorem lut_eq_steps : ∀ i : Fin 256,
    LT_CRC_LUT[i].toBitVec = (Crc.step POLY)^[8] (BitVec.ofNat 16 i) := by decide +kernel

theorem feedByte_toBitVec (c : CrcCalculator) (byte : UInt8) :
    (c.feedByte byte).reg.toBitVec = Crc.feedBits POLY c.reg.toBitVec (byteBits byte) := by
  have hword : Crc.word 16 (byteBits byte) = byte.toBitVec.setWidth 16 := by
    apply BitVec.eq_of_getLsbD_eq
    intro i hi
    rw [Crc.getLsbD_word, BitVec.getLsbD_setWidth, byteBits]
    by_cases h8 : i < 8
    · simp [hi, h8]
    · simp [h8, BitVec.getLsbD_of_ge byte.toBitVec i (Nat.not_lt.1 h8)]
  have hindex : BitVec.ofNat 16 (c.reg.toUInt8 ^^^ byte).toNat =
      ((c.reg.toBitVec ^^^ byte.toBitVec.setWidth 16).setWidth 8).setWidth 16 := by
    apply BitVec.eq_of_toNat_eq
    simp
  have hhigh : (c.reg.toBitVec ^^^ byte.toBitVec.setWidth 16) >>> 8 = (c.reg >>> 8).toBitVec := by
    have hbyte : byte.toBitVec.setWidth 16 >>> 8 = 0#16 := by
      apply BitVec.eq_of_getLsbD_eq
      intro i hi
      rw [BitVec.getLsbD_ushiftRight, BitVec.getLsbD_setWidth,
        BitVec.getLsbD_of_ge byte.toBitVec (8 + i) (Nat.le_add_right 8 i)]
      simp
    rw [BitVec.ushiftRight_xor_distrib, hbyte, BitVec.xor_zero]
    rfl
  have hlut := lut_eq_steps ⟨(c.reg.toUInt8 ^^^ byte).toNat, UInt8.toNat_lt _⟩
  rw [Crc.feedBits_eq POLY _ (by simp), hword, byteBits_length, Crc.steps_split, ← hindex, hhigh,
    ← hlut]
  rfl

theorem feed_toBitVec (c : CrcCalculator) (data : Bytes) :
    (c.feed data).reg.toBitVec = Crc.feedBits POLY c.reg.toBitVec (wireBits data) := by
  induction data generalizing c with
  | nil => rfl
  | cons byte data ih =>
    rw [wireBits_cons, Crc.feedBits_append, ← feedByte_toBitVec]
    exact ih (c.feedByte byte)

/-- The frame that arrives when the bits of `errors` are inverted. -/
def corrupt (frame errors : Bytes) : Bytes := List.zipWith (· ^^^ ·) frame errors

theorem feed_corrupt {frame errors : Bytes} (hlen : errors.length = frame.length)
    (hburst : Crc.Burst 16 (wireBits errors)) (c : CrcCalculator) :
    c.feed (corrupt frame errors) ≠ c.feed frame := by
  intro h
  have hbits : (wireBits frame).length = (wireBits errors).length := by
    rw [wireBits_length, wireBits_length, hlen]
  have hreg := congrArg (fun c : CrcCalculator => c.reg.toBitVec) h
  simp only [feed_toBitVec, corrupt] at hreg
  rw [wireBits_zipWith_xor hlen.symm] at hreg
  exact Crc.feedBits_corrupt poly_msb _ hbits hburst hreg

theorem crcOk_iff (frame : Bytes) :
    crcOk frame = true ↔ CrcCalculator.new.feed frame = ⟨0xF0B8⟩ := by
  rw [crcOk, CrcCalculator.isOk, beq_iff_eq]
  exact ⟨fun h => congrArg CrcCalculator.mk h, congrArg CrcCalculator.reg⟩

/-- **The frame check sequence.**  A string of at least three bytes is accepted with its own check
    bytes behind it; no frame is accepted both as sent and with errors within sixteen bits in a
    row of the wire; and the host's register computes what the firmware's does. -/
theorem frame_check_sequence :
    (∀ b, frameCrcOk (b ++ ltCrc b) = decide (3 ≤ b.length)) ∧
      (∀ frame errors, errors.length = frame.length → Crc.Burst 16 (wireBits errors) →
        frameCrcOk frame = true → frameCrcOk (corrupt frame errors) = false) ∧
      (∀ b, TashTalk.ltCrc b = ltCrc b ∧
        (TashTalk.CrcCalculator.new.feed b).isOkay = crcOk b) := by
  refine ⟨fun b => ?_, fun frame errors hlen hburst hok => ?_, fun b => ?_⟩
  · have hlen : (b ++ ltCrc b).length = b.length + 2 := List.length_append
    rw [frameCrcOk, crcOk_append_ltCrc, hlen, Bool.and_true]
    exact decide_eq_decide.2 (by omega)
  · rw [Bool.eq_false_iff]
    intro hok'
    rw [frameCrcOk, Bool.and_eq_true] at hok hok'
    refine feed_corrupt hlen hburst CrcCalculator.new ?_
    rw [(crcOk_iff _).1 hok.2, (crcOk_iff _).1 hok'.2]
  · exact ⟨TashTalk.ltCrc_eq b, TashTalk.crcOk_eq b⟩

/-- Nine bits of a frame inverted. -/
theorem frame_check_sequence_inverted :
    let frame := [241, 7, 0x81] ++ ltCrc [241, 7, 0x81]
    frameCrcOk frame = true ∧ frameCrcOk (corrupt frame [0, 0xFF, 0x01, 0, 0]) = false ∧
      TashTalk.ltCrc frame = ltCrc frame := by
  obtain ⟨hcheck, hburst, hhost⟩ := frame_check_sequence
  have hok : frameCrcOk ([241, 7, 0x81] ++ ltCrc [241, 7, 0x81]) = true := hcheck [241, 7, 0x81]
  have hnine : Crc.Burst 16 (wireBits [0, 0xFF, 0x01, 0, 0]) :=
    ⟨8, List.replicate 9 true, 23, by decide, by decide, by decide⟩
  exact ⟨hok, hburst _ _ (by decide) hnine hok, (hhost _).1⟩

/-- The check bytes of nothing are no frame. -/
theorem empty_not_accepted : ¬ ∀ b : Bytes, frameCrcOk (b ++ ltCrc b) = true :=
  fun h => absurd (h []) (by decide)

end TailTalk.LocalTalk
