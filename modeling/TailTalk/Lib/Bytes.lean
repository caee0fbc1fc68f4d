/-
  Big-endian words in byte strings, absent bytes being read as zero: callers
  check the length first.
-/
import Mathlib.Data.Nat.Notation
import Mathlib.Data.List.Basic

namespace Lib

/-- A byte string. -/
abbrev Bytes := List UInt8

/-- The two bytes of a 16-bit word, most significant first. -/
def be16 (v : UInt16) : Bytes := [UInt8.ofNat (v.toNat / 256), UInt8.ofNat v.toNat]

/-- The four bytes of a 32-bit word, most significant first. -/
def be32 (v : UInt32) : Bytes :=
  [UInt8.ofNat (v.toNat / 16777216), UInt8.ofNat (v.toNat / 65536),
    UInt8.ofNat (v.toNat / 256), UInt8.ofNat v.toNat]

/-- The word of two bytes. -/
def ofBe16 (hi lo : UInt8) : UInt16 := UInt16.ofNat (256 * hi.toNat + lo.toNat)

/-- The word at the front of `b`. -/
def readBe16 (b : Bytes) : UInt16 :=
  UInt16.ofNat (256 * (b.getD 0 0).toNat + (b.getD 1 0).toNat)

/-- The double word at the front of `b`. -/
def readBe32 (b : Bytes) : UInt32 :=
  UInt32.ofNat (16777216 * (b.getD 0 0).toNat + 65536 * (b.getD 1 0).toNat +
    256 * (b.getD 2 0).toNat + (b.getD 3 0).toNat)

@[simp] theorem be16_length (v : UInt16) : (be16 v).length = 2 := rfl

@[simp] theorem be32_length (v : UInt32) : (be32 v).length = 4 := rfl

@[simp] theorem readBe16_be16 (v : UInt16) (rest : Bytes) : readBe16 (be16 v ++ rest) = v := by
  apply UInt16.toNat_inj.1
  have hv := v.toNat_lt
  simp only [readBe16, be16, List.cons_append, List.nil_append, List.getD_cons_zero,
    List.getD_cons_succ, UInt8.toNat_ofNat', UInt16.toNat_ofNat']
  omega

/-- The two bytes of a word make the word. -/
theorem ofBe16_be16 (v : UInt16) :
    ofBe16 (UInt8.ofNat (v.toNat / 256)) (UInt8.ofNat v.toNat) = v := by
  apply UInt16.toNat_inj.1
  have hv := v.toNat_lt
  simp only [ofBe16, UInt8.toNat_ofNat', UInt16.toNat_ofNat']
  omega

/-- A word is written as the two bytes it was made of. -/
theorem be16_ofBe16 (hi lo : UInt8) : be16 (ofBe16 hi lo) = [hi, lo] := by
  have hhi := hi.toNat_lt
  have hlo := lo.toNat_lt
  have hword : (ofBe16 hi lo).toNat = 256 * hi.toNat + lo.toNat := by
    rw [ofBe16, UInt16.toNat_ofNat']
    omega
  have hfst : UInt8.ofNat ((256 * hi.toNat + lo.toNat) / 256) = hi := by
    apply UInt8.toNat_inj.1
    rw [UInt8.toNat_ofNat']
    omega
  have hsnd : UInt8.ofNat (256 * hi.toNat + lo.toNat) = lo := by
    apply UInt8.toNat_inj.1
    rw [UInt8.toNat_ofNat']
    omega
  rw [be16, hword, hfst, hsnd]

@[simp] theorem readBe32_be32 (v : UInt32) (rest : Bytes) : readBe32 (be32 v ++ rest) = v := by
  apply UInt32.toNat_inj.1
  have hv := v.toNat_lt
  simp only [readBe32, be32, List.cons_append, List.nil_append, List.getD_cons_zero,
    List.getD_cons_succ, UInt8.toNat_ofNat', UInt32.toNat_ofNat']
  omega

theorem be16_readBe16 (b₁ b₀ : UInt8) (rest : Bytes) :
    be16 (readBe16 (b₁ :: b₀ :: rest)) = [b₁, b₀] := be16_ofBe16 b₁ b₀

theorem be32_readBe32 (b₃ b₂ b₁ b₀ : UInt8) (rest : Bytes) :
    be32 (readBe32 (b₃ :: b₂ :: b₁ :: b₀ :: rest)) = [b₃, b₂, b₁, b₀] := by
  have h₃ := b₃.toNat_lt
  have h₂ := b₂.toNat_lt
  have h₁ := b₁.toNat_lt
  have h₀ := b₀.toNat_lt
  have hword : (readBe32 (b₃ :: b₂ :: b₁ :: b₀ :: rest)).toNat =
      16777216 * b₃.toNat + 65536 * b₂.toNat + 256 * b₁.toNat + b₀.toNat := by
    simp only [readBe32, List.getD_cons_zero, List.getD_cons_succ, UInt32.toNat_ofNat']
    omega
  have hbyte : ∀ {n : ℕ} {b : UInt8}, n % 256 = b.toNat → UInt8.ofNat n = b := by
    intro n b h
    apply UInt8.toNat_inj.1
    rw [UInt8.toNat_ofNat']
    exact h
  rw [be32, hword, hbyte (b := b₃) (by omega), hbyte (b := b₂) (by omega),
    hbyte (b := b₁) (by omega), hbyte (b := b₀) (by omega)]

end Lib
