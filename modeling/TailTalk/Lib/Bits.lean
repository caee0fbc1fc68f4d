/-
  Bits of bytes, the lowest first — the order in which a serial line sends them
  — words of bits, and bit stuffing, a zero after every five ones.

  Rows of 1-bit pixels have the highest bit of each byte first; `ext_bitAt`
  compares them pixel by pixel.
-/
import Mathlib
import TailTalk.Lib.Bytes
import TailTalk.Lib.Chunks

namespace Lib

/-- The bits of a byte, lowest first. -/
def byteBits (b : UInt8) : List Bool := (List.range 8).map fun i => b.toBitVec.getLsbD i

/-- The bits of a byte string on the line. -/
def wireBits (bs : Bytes) : List Bool := bs.flatMap byteBits

@[simp] theorem byteBits_length (b : UInt8) : (byteBits b).length = 8 := by simp [byteBits]

@[simp] theorem wireBits_nil : wireBits [] = [] := rfl

@[simp] theorem wireBits_cons (b : UInt8) (bs : Bytes) :
    wireBits (b :: bs) = byteBits b ++ wireBits bs := rfl

@[simp] theorem wireBits_append (as bs : Bytes) :
    wireBits (as ++ bs) = wireBits as ++ wireBits bs := List.flatMap_append

theorem wireBits_length (bs : Bytes) : (wireBits bs).length = 8 * bs.length := by
  induction bs with
  | nil => rfl
  | cons b bs ih => simp [ih, Nat.mul_succ, Nat.add_comm]

theorem byteBits_xor (a b : UInt8) :
    byteBits (a ^^^ b) = List.zipWith xor (byteBits a) (byteBits b) := by
  simp only [byteBits, UInt8.toBitVec_xor, BitVec.getLsbD_xor, List.zipWith_map]
  rw [List.zipWith_self]

/-- Bytes that differ by `es` are bits that differ by those of `es`. -/
theorem wireBits_zipWith_xor {bs es : Bytes} (h : bs.length = es.length) :
    wireBits (List.zipWith (· ^^^ ·) bs es) = List.zipWith xor (wireBits bs) (wireBits es) := by
  induction bs generalizing es with
  | nil =>
    cases es with
    | nil => rfl
    | cons e es => cases h
  | cons b bs ih =>
    cases es with
    | nil => cases h
    | cons e es =>
      rw [List.zipWith_cons_cons, wireBits_cons, wireBits_cons, wireBits_cons, byteBits_xor,
        ih (Nat.succ.inj h), List.zipWith_append]
      simp

/-! ## Words -/

/-- Bits as a word, the first the lowest. -/
def packWord (bits : List Bool) : UInt32 :=
  bits.zipIdx.foldl (fun word bit => word ||| bit.1.toUInt32 <<< UInt32.ofNat bit.2) 0

/-- Words of 32 bits, the last one possibly of fewer. -/
def packWords (bits : List Bool) : List UInt32 := (chunks 32 bits).map packWord

@[simp] theorem packWord_nil : packWord [] = 0 := rfl

theorem packWord_snoc (bits : List Bool) (bit : Bool) :
    packWord (bits ++ [bit]) = packWord bits ||| bit.toUInt32 <<< UInt32.ofNat bits.length := by
  simp [packWord, List.zipIdx_append]

theorem packWords_flatten_append {cs : List (List Bool)} (hfull : ∀ c ∈ cs, c.length = 32)
    {part : List Bool} (hpart : part.length < 32) :
    packWords (cs.flatten ++ part) =
      cs.map packWord ++ if part = [] then [] else [packWord part] := by
  rw [packWords, chunks_flatten_append (by decide) hfull hpart, List.map_append]
  split
  · rfl
  · rfl

/-! ## Stuffing -/

/-- The bits with the zeros put in, after `ones` ones. -/
def stuffed : ℕ → List Bool → List Bool
  | _, [] => []
  | _, false :: bits => false :: stuffed 0 bits
  | ones, true :: bits =>
    if ones + 1 = 5 then true :: false :: stuffed 0 bits else true :: stuffed (ones + 1) bits

/-- One bit in five is put in at most. -/
theorem stuffed_length_le {ones : ℕ} (h : ones < 5) (bits : List Bool) :
    5 * (stuffed ones bits).length ≤ 6 * bits.length + ones := by
  induction bits generalizing ones with
  | nil => exact Nat.zero_le _
  | cons bit bits ih =>
    cases bit with
    | false =>
      have ih' := ih (show 0 < 5 by decide)
      simp only [stuffed, List.length_cons]
      omega
    | true =>
      simp only [stuffed]
      split
      · have ih' := ih (show 0 < 5 by decide)
        simp only [List.length_cons]
        omega
      · have ih' := ih (show ones + 1 < 5 by omega)
        simp only [List.length_cons]
        omega

/-! ## Rows of pixels -/

/-- The bit of its byte that pixel `x` has. -/
def pixelMask (x : ℕ) : UInt8 := 0x80 >>> UInt8.ofNat (x % 8)

/-- The pixel `x` of a row. -/
def bitAt (row : Bytes) (x : ℕ) : Bool := row.getD (x / 8) 0 &&& pixelMask x != 0

/-- The row with that pixel black. -/
def setAt (row : Bytes) (x : ℕ) : Bytes := row.modify (x / 8) (· ||| pixelMask x)

/-- The row with that pixel inverted. -/
def flipAt (row : Bytes) (x : ℕ) : Bytes := row.modify (x / 8) (· ^^^ pixelMask x)

@[simp] theorem setAt_length (row : Bytes) (x : ℕ) : (setAt row x).length = row.length :=
  List.length_modify _ _ _

@[simp] theorem flipAt_length (row : Bytes) (x : ℕ) : (flipAt row x).length = row.length :=
  List.length_modify _ _ _

theorem pixelMask_eq (x : ℕ) : (pixelMask x).toBitVec = BitVec.twoPow 8 (7 - x % 8) := by
  have hx : x % 8 < 8 := Nat.mod_lt _ (by decide)
  unfold pixelMask
  generalize x % 8 = k at hx ⊢
  interval_cases k <;> decide

theorem and_pixelMask (b : UInt8) (x : ℕ) :
    (b &&& pixelMask x != 0) = b.toBitVec.getLsbD (7 - x % 8) := by
  have hbits : (b &&& pixelMask x).toBitVec =
      if b.toBitVec.getLsbD (7 - x % 8) then BitVec.twoPow 8 (7 - x % 8) else 0#8 := by
    rw [UInt8.toBitVec_and, pixelMask_eq, BitVec.and_twoPow]
  have hpow : BitVec.twoPow 8 (7 - x % 8) ≠ 0#8 := by
    have hk : 7 - x % 8 < 8 := by omega
    generalize 7 - x % 8 = k at hk ⊢
    interval_cases k <;> decide
  cases hbit : b.toBitVec.getLsbD (7 - x % 8) with
  | true =>
    rw [if_pos hbit] at hbits
    refine bne_iff_ne.2 fun hzero => hpow ?_
    rw [← hbits, hzero]
    rfl
  | false =>
    rw [if_neg (by simp [hbit])] at hbits
    rw [UInt8.toBitVec_inj.1 hbits]
    rfl

theorem bitAt_eq (row : Bytes) (x : ℕ) :
    bitAt row x = (row.getD (x / 8) 0).toBitVec.getLsbD (7 - x % 8) := and_pixelMask _ x

/-- Flipping a pixel changes that pixel only. -/
theorem bitAt_flipAt {row : Bytes} {x : ℕ} (hx : x < 8 * row.length) (y : ℕ) :
    bitAt (flipAt row x) y = if y = x then !bitAt row x else bitAt row y := by
  have hin : x / 8 < row.length := by omega
  simp only [bitAt_eq, flipAt, List.getD_eq_getElem?_getD, List.getElem?_modify]
  by_cases hbyte : x / 8 = y / 8
  · have hmask : (pixelMask x).toBitVec.getLsbD (7 - y % 8) = decide (y = x) := by
      rw [pixelMask_eq, BitVec.getLsbD_twoPow]
      have : 7 - x % 8 < 8 := by omega
      have : (7 - x % 8 = 7 - y % 8) ↔ y = x := by omega
      simp [*]
    rw [← hbyte, List.getElem?_eq_getElem hin]
    simp only [if_true, Option.map_eq_map, Option.map_some, Option.getD_some,
      UInt8.toBitVec_xor, BitVec.getLsbD_xor, hmask]
    by_cases hyx : y = x
    · subst hyx
      simp
    · simp [hyx]
  · have hyx : y ≠ x := by
      rintro rfl
      exact hbyte rfl
    rw [if_neg hyx]
    cases row[y / 8]? <;> simp [hbyte]

/-- Rows of one length with the same pixels are the same. -/
theorem ext_bitAt {as bs : Bytes} (hlen : as.length = bs.length)
    (hbits : ∀ x, bitAt as x = bitAt bs x) : as = bs := by
  refine List.ext_getElem hlen fun i hi hi' => ?_
  refine UInt8.toBitVec_inj.1 (BitVec.eq_of_getLsbD_eq fun k hk => ?_)
  have h := hbits (8 * i + (7 - k))
  have hdiv : (8 * i + (7 - k)) / 8 = i := by omega
  have hmod : 7 - (8 * i + (7 - k)) % 8 = k := by omega
  rw [bitAt_eq, bitAt_eq, hdiv, hmod, List.getD_eq_getElem?_getD, List.getD_eq_getElem?_getD,
    List.getElem?_eq_getElem hi, List.getElem?_eq_getElem hi'] at h
  exact h

end Lib
