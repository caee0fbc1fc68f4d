/-
  LEB128 numbers — seven bits a byte, least significant first, with the top bit
  set on every byte but the last.
-/
import TailTalk.Lib.Bytes
import Mathlib

namespace Lib.Leb128

open Lib

/-- The minimal encoding. -/
def encode (n : ℕ) : Bytes :=
  if n < 128 then [UInt8.ofNat n] else UInt8.ofNat (n % 128 + 128) :: encode (n / 128)
termination_by n
decreasing_by omega

/-- What the bytes at the front of a buffer come to. -/
inductive Reading where
  | more
  | tooLong
  | number (n : ℕ) (rest : Bytes)
deriving DecidableEq

/-- Read on with `acc` from the bytes before and the next bits at `shift`; over `limit` no byte is
    to follow. -/
def readPart (limit acc shift : ℕ) : Bytes → Reading
  | [] => .more
  | byte :: rest =>
    let acc := acc ||| (byte &&& 0x7F).toNat <<< shift
    if byte &&& 0x80 = 0 then .number acc rest
    else if limit < shift + 7 then .tooLong
    else readPart limit acc (shift + 7) rest

theorem encode_of_lt {n : ℕ} (h : n < 128) : encode n = [UInt8.ofNat n] := by
  rw [encode, if_pos h]

theorem encode_of_le {n : ℕ} (h : 128 ≤ n) :
    encode n = UInt8.ofNat (n % 128 + 128) :: encode (n / 128) := by
  rw [encode, if_neg (by omega)]

theorem encode_ne_nil (n : ℕ) : encode n ≠ [] := by
  by_cases h : n < 128
  · rw [encode_of_lt h]
    simp
  · rw [encode_of_le (by omega)]
    simp

theorem last_byte {n : ℕ} (h : n < 128) :
    UInt8.ofNat n &&& 0x80 = 0 ∧ (UInt8.ofNat n &&& 0x7F).toNat = n := by
  interval_cases n <;> exact ⟨rfl, rfl⟩

theorem other_byte (n : ℕ) :
    UInt8.ofNat (n % 128 + 128) &&& 0x80 ≠ 0 ∧
      (UInt8.ofNat (n % 128 + 128) &&& 0x7F).toNat = n % 128 := by
  have h : n % 128 < 128 := Nat.mod_lt _ (by decide)
  generalize n % 128 = m at h ⊢
  interval_cases m <;> exact ⟨by decide, rfl⟩

theorem or_shift {acc shift : ℕ} (hacc : acc < 2 ^ shift) (b : ℕ) :
    acc ||| b <<< shift = acc + b * 2 ^ shift := by
  rw [Nat.shiftLeft_eq, Nat.mul_comm b, Nat.add_comm, Nat.or_comm,
    ← Nat.two_pow_add_eq_or_of_lt hacc]

/-- **A minimal encoding is read back**, or is too long by the reader's limit. -/
theorem readPart_encode (limit : ℕ) (n : ℕ) :
    ∀ acc shift rest, acc < 2 ^ shift →
      readPart limit acc shift (encode n ++ rest) = .number (acc + n * 2 ^ shift) rest ∨
        limit < shift + 7 * ((encode n).length - 1) ∧
          readPart limit acc shift (encode n ++ rest) = .tooLong := by
  induction n using Nat.strong_induction_on with
  | _ n ih =>
    intro acc shift rest hacc
    by_cases h : n < 128
    · obtain ⟨htop, hbits⟩ := last_byte h
      left
      rw [encode_of_lt h]
      simp only [List.singleton_append, readPart, htop, if_true, hbits, or_shift hacc]
    · have hle : 128 ≤ n := by omega
      obtain ⟨htop, hbits⟩ := other_byte n
      have hne := List.length_pos_iff.2 (encode_ne_nil (n / 128))
      rw [encode_of_le hle]
      simp only [List.cons_append, readPart, htop, if_false, hbits, or_shift hacc,
        List.length_cons]
      by_cases hlimit : limit < shift + 7
      · right
        exact ⟨by omega, by rw [if_pos hlimit]⟩
      · rw [if_neg hlimit]
        have hm : n % 128 < 128 := Nat.mod_lt _ (by decide)
        have hacc' : acc + n % 128 * 2 ^ shift < 2 ^ (shift + 7) := by
          have hpow : (2 : ℕ) ^ (shift + 7) = 128 * 2 ^ shift := by rw [pow_add]; ring
          rw [hpow]
          nlinarith [Nat.two_pow_pos shift]
        rcases ih (n / 128) (by omega) _ (shift + 7) rest hacc' with hread | ⟨hlong, hread⟩
        · left
          rw [hread]
          congr 1
          have hn : n = n % 128 + 128 * (n / 128) := (Nat.mod_add_div n 128).symm
          calc acc + n % 128 * 2 ^ shift + n / 128 * 2 ^ (shift + 7)
              = acc + (n % 128 + 128 * (n / 128)) * 2 ^ shift := by rw [pow_add]; ring
            _ = acc + n * 2 ^ shift := by rw [← hn]
        · right
          exact ⟨by omega, hread⟩

/-- **A proper prefix of a minimal encoding wants more**, as long as the encoding is not too
    long. -/
theorem readPart_front (limit : ℕ) (n : ℕ) :
    ∀ acc shift p, p <+: encode n → p ≠ encode n →
      shift + 7 * ((encode n).length - 1) ≤ limit → readPart limit acc shift p = .more := by
  induction n using Nat.strong_induction_on with
  | _ n ih =>
    intro acc shift p hp hne hlimit
    cases p with
    | nil => rfl
    | cons byte p =>
      by_cases h : n < 128
      · rw [encode_of_lt h] at hp hne
        obtain ⟨hbyte, hp⟩ := List.cons_prefix_cons.1 hp
        rw [hbyte, List.prefix_nil.1 hp] at hne
        exact absurd rfl hne
      · rw [encode_of_le (by omega)] at hp hne hlimit
        obtain ⟨hbyte, hp⟩ := List.cons_prefix_cons.1 hp
        have hpos := List.length_pos_iff.2 (encode_ne_nil (n / 128))
        rw [List.length_cons] at hlimit
        rw [hbyte, readPart]
        simp only [(other_byte n).1, if_false]
        rw [if_neg (by omega)]
        refine ih (n / 128) (by omega) _ _ p hp ?_ (by omega)
        rintro rfl
        exact hne (by rw [hbyte])

theorem readPart_lt {limit n : ℕ} {rest : Bytes} (b : Bytes) :
    ∀ acc shift, readPart limit acc shift b = .number n rest → rest.length < b.length := by
  induction b with
  | nil =>
    intro acc shift h
    cases h
  | cons byte b ih =>
    intro acc shift h
    rw [readPart] at h
    split_ifs at h
    · cases h
      simp
    · have hlt := ih _ _ h
      rw [List.length_cons]
      omega

theorem length_encode_le (k : ℕ) : ∀ n, n < 128 ^ (k + 1) → (encode n).length ≤ k + 1 := by
  induction k with
  | zero =>
    intro n h
    rw [encode_of_lt (by omega)]
    rfl
  | succ k ih =>
    intro n h
    by_cases hn : n < 128
    · rw [encode_of_lt hn]
      simp
    · rw [encode_of_le (by omega), List.length_cons]
      have hdiv : n / 128 < 128 ^ (k + 1) := by
        rw [Nat.div_lt_iff_lt_mul (by decide), ← pow_succ]
        exact h
      have := ih (n / 128) hdiv
      omega

end Lib.Leb128
