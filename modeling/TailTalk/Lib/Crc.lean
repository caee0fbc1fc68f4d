/-
  Cyclic checks — the division behind a reflected CRC of any width.

  The division is linear (`feedBits_xor`), no longer than the register a string
  goes in all at once (`feedBits_eq`), and a register that is not zero stays so
  (`steps_eq_zero`): errors within the width of the register show
  (`feedBits_burst`).
-/
import Mathlib.Data.Nat.Notation
import Mathlib.Logic.Function.Iterate

namespace Lib.Crc

variable {w : ℕ} (poly : BitVec w)

/-- One step of the division. -/
def step (r : BitVec w) : BitVec w := if r.getLsbD 0 then r >>> 1 ^^^ poly else r >>> 1

/-- A bit goes into the register. -/
def feedBit (r : BitVec w) (b : Bool) : BitVec w := step poly (r ^^^ if b then 1#w else 0#w)

/-- Bits go in one after another. -/
def feedBits (r : BitVec w) (bs : List Bool) : BitVec w := bs.foldl (feedBit poly) r

/-- Bits as a word, the first the lowest. -/
def word (w : ℕ) (bs : List Bool) : BitVec w := (BitVec.ofBoolListLE bs).setWidth w

theorem getLsbD_word (bs : List Bool) (i : ℕ) :
    (word w bs).getLsbD i = (decide (i < w) && bs.getD i false) := by
  rw [word, BitVec.getLsbD_setWidth, BitVec.getLsbD_ofBoolListLE]

@[simp] theorem word_nil : word w [] = 0#w := by
  apply BitVec.eq_of_getLsbD_eq
  intro i hi
  simp [getLsbD_word]

theorem word_cons (b : Bool) (bs : List Bool) :
    word w (b :: bs) = (if b then 1#w else 0#w) ^^^ (word w bs <<< 1) := by
  apply BitVec.eq_of_getLsbD_eq
  intro i hi
  rw [BitVec.getLsbD_xor, BitVec.getLsbD_shiftLeft, getLsbD_word, getLsbD_word]
  cases i with
  | zero => cases b <;> simp [hi]
  | succ i =>
    have hone : (if b then 1#w else 0#w).getLsbD (i + 1) = false := by
      cases b <;> simp [BitVec.getLsbD_one]
    rw [hone]
    simp [hi, Nat.lt_of_succ_lt hi]

theorem shiftLeft_ushiftRight_eq {r : BitVec w} {n : ℕ}
    (h : ∀ i, w ≤ n + i → r.getLsbD i = false) : (r <<< n) >>> n = r := by
  apply BitVec.eq_of_getLsbD_eq
  intro i hi
  rw [BitVec.getLsbD_ushiftRight, BitVec.getLsbD_shiftLeft]
  by_cases hw : n + i < w
  · simp [hw]
  · simp [hw, h i (Nat.not_lt.1 hw)]

/-! ## Steps -/

theorem step_of_even {r : BitVec w} (h : r.getLsbD 0 = false) : step poly r = r >>> 1 := by
  rw [step, h, if_neg Bool.false_ne_true]

theorem step_xor (a b : BitVec w) : step poly (a ^^^ b) = step poly a ^^^ step poly b := by
  simp only [step, BitVec.getLsbD_xor, BitVec.ushiftRight_xor_distrib]
  rcases a.getLsbD 0 with _ | _
  · rcases b.getLsbD 0 with _ | _
    · rfl
    · exact BitVec.xor_assoc _ _ _
  · rcases b.getLsbD 0 with _ | _
    · exact (BitVec.xor_assoc _ _ _).trans (by
        rw [BitVec.xor_comm _ poly, ← BitVec.xor_assoc]
        rfl)
    · -- the two copies of `poly` cancel
      change a >>> 1 ^^^ b >>> 1 = (a >>> 1 ^^^ poly) ^^^ (b >>> 1 ^^^ poly)
      rw [BitVec.xor_comm (b >>> 1), ← BitVec.xor_assoc, BitVec.xor_assoc _ poly poly,
        BitVec.xor_self, BitVec.xor_zero]

theorem steps_xor (n : ℕ) (a b : BitVec w) :
    (step poly)^[n] (a ^^^ b) = (step poly)^[n] a ^^^ (step poly)^[n] b := by
  induction n generalizing a b with
  | zero => rfl
  | succ n ih => rw [Function.iterate_succ_apply, step_xor, ih]; rfl

/-- A register whose low bits are clear only goes down. -/
theorem steps_high {n : ℕ} {r : BitVec w} (h : ∀ i < n, r.getLsbD i = false) :
    (step poly)^[n] r = r >>> n := by
  induction n with
  | zero => simp
  | succ n ih =>
    have hlow : (r >>> n).getLsbD 0 = false := by
      rw [BitVec.getLsbD_ushiftRight]
      exact h n n.lt_succ_self
    rw [Function.iterate_succ_apply', ih fun i hi => h i (Nat.lt_succ_of_lt hi),
      step_of_even poly hlow, BitVec.shiftRight_add]

theorem steps_split (n : ℕ) (r : BitVec w) :
    (step poly)^[n] r = (step poly)^[n] ((r.setWidth n).setWidth w) ^^^ (r >>> n) := by
  have hsplit : r = (r.setWidth n).setWidth w ^^^ ((r >>> n) <<< n) := by
    apply BitVec.eq_of_getLsbD_eq
    intro i hi
    rw [BitVec.getLsbD_xor, BitVec.getLsbD_setWidth, BitVec.getLsbD_setWidth,
      BitVec.getLsbD_shiftLeft, BitVec.getLsbD_ushiftRight]
    by_cases hn : i < n
    · simp [hi, hn]
    · simp [hi, hn, Nat.add_sub_cancel' (Nat.not_lt.1 hn)]
  have hlow : ∀ i < n, ((r >>> n) <<< n).getLsbD i = false := by
    intro i hi
    rw [BitVec.getLsbD_shiftLeft]
    simp [hi]
  have hdown : ((r >>> n) <<< n) >>> n = r >>> n := by
    refine shiftLeft_ushiftRight_eq fun i hi => ?_
    rw [BitVec.getLsbD_ushiftRight]
    exact BitVec.getLsbD_of_ge r (n + i) hi
  calc (step poly)^[n] r
      = (step poly)^[n] ((r.setWidth n).setWidth w ^^^ ((r >>> n) <<< n)) := congrArg _ hsplit
    _ = (step poly)^[n] ((r.setWidth n).setWidth w) ^^^ (r >>> n) := by
      rw [steps_xor, steps_high poly hlow, hdown]

variable {poly}

theorem step_eq_zero (hp : poly.msb = true) {r : BitVec w} : step poly r = 0#w ↔ r = 0#w := by
  constructor
  · intro h
    rw [step] at h
    split at h
    · -- a bit that fell out has put in the top one
      have hmsb := congrArg BitVec.msb h
      rw [BitVec.msb_xor, hp, BitVec.msb_ushiftRight] at hmsb
      simp at hmsb
    · rename_i hlow
      apply BitVec.eq_of_getLsbD_eq
      intro i hi
      rw [BitVec.getLsbD_zero]
      cases i with
      | zero => exact Bool.not_eq_true _ ▸ hlow
      | succ i =>
        have hbit := congrArg (BitVec.getLsbD · i) h
        simp only [BitVec.getLsbD_ushiftRight, BitVec.getLsbD_zero] at hbit
        rw [Nat.add_comm, hbit]
  · rintro rfl
    simp [step]

theorem steps_eq_zero (hp : poly.msb = true) {n : ℕ} {r : BitVec w} :
    (step poly)^[n] r = 0#w ↔ r = 0#w := by
  induction n with
  | zero => exact Iff.rfl
  | succ n ih => rw [Function.iterate_succ_apply', step_eq_zero hp, ih]

/-! ## Strings of bits -/

variable (poly)

theorem feedBits_append (r : BitVec w) (as bs : List Bool) :
    feedBits poly r (as ++ bs) = feedBits poly (feedBits poly r as) bs := List.foldl_append

/-- **The division is linear.** -/
theorem feedBits_xor (r s : BitVec w) {as bs : List Bool} (h : as.length = bs.length) :
    feedBits poly (r ^^^ s) (List.zipWith xor as bs) =
      feedBits poly r as ^^^ feedBits poly s bs := by
  induction as generalizing r s bs with
  | nil =>
    cases bs with
    | nil => rfl
    | cons b bs => cases h
  | cons a as ih =>
    cases bs with
    | nil => cases h
    | cons b bs =>
      have hbit : feedBit poly (r ^^^ s) (xor a b) = feedBit poly r a ^^^ feedBit poly s b := by
        rw [feedBit, feedBit, feedBit, ← step_xor]
        congr 1
        have hxor : (if xor a b then 1#w else 0#w) =
            (if a then 1#w else 0#w) ^^^ (if b then 1#w else 0#w) := by
          cases a <;> cases b <;> simp
        rw [hxor]
        ac_rfl
      have ih' := ih (feedBit poly r a) (feedBit poly s b) (Nat.succ.inj h)
      rw [← hbit] at ih'
      exact ih'

theorem feedBits_zeros (r : BitVec w) (n : ℕ) :
    feedBits poly r (List.replicate n false) = (step poly)^[n] r := by
  induction n generalizing r with
  | zero => rfl
  | succ n ih =>
    rw [List.replicate_succ, Function.iterate_succ_apply, ← ih]
    simp [feedBits, feedBit]

/-- **A short string goes in all at once.** -/
theorem feedBits_eq (r : BitVec w) {bs : List Bool} (h : bs.length ≤ w) :
    feedBits poly r bs = (step poly)^[bs.length] (r ^^^ word w bs) := by
  induction bs generalizing r with
  | nil => simp [feedBits]
  | cons b bs ih =>
    have hlen : bs.length < w := h
    have hlow : (word w bs <<< 1).getLsbD 0 = false := by simp
    have hup : (word w bs <<< 1) >>> 1 = word w bs := by
      refine shiftLeft_ushiftRight_eq fun i hi => ?_
      have hi' : bs.length ≤ i := by omega
      simp [getLsbD_word, List.getElem?_eq_none hi']
    have hstep : step poly (r ^^^ word w (b :: bs)) = feedBit poly r b ^^^ word w bs := by
      rw [word_cons, ← BitVec.xor_assoc, step_xor, step_of_even poly hlow, hup]
      rfl
    rw [List.length_cons, Function.iterate_succ_apply, hstep]
    exact ih (feedBit poly r b) (Nat.le_of_succ_le h)

/-! ## Bursts -/

/-- Errors, all of them within `k` bits in a row. -/
def Burst (k : ℕ) (es : List Bool) : Prop :=
  ∃ m burst n, es = List.replicate m false ++ burst ++ List.replicate n false ∧
    burst.length ≤ k ∧ true ∈ burst

variable {poly}

theorem feedBits_burst (hp : poly.msb = true) {es : List Bool} (h : Burst w es) :
    feedBits poly 0#w es ≠ 0#w := by
  obtain ⟨m, burst, n, rfl, hlen, htrue⟩ := h
  have hzero : feedBits poly 0#w (List.replicate m false) = 0#w := by
    rw [feedBits_zeros]
    exact (steps_eq_zero hp).2 rfl
  rw [feedBits_append, feedBits_append, hzero, feedBits_zeros, feedBits_eq poly _ hlen,
    Ne, steps_eq_zero hp, steps_eq_zero hp, BitVec.zero_xor]
  intro hword
  obtain ⟨i, hi, hget⟩ := List.mem_iff_getElem.1 htrue
  have hbit := congrArg (BitVec.getLsbD · i) hword
  simp only [getLsbD_word, BitVec.getLsbD_zero] at hbit
  rw [List.getD_eq_getElem?_getD, List.getElem?_eq_getElem hi, hget] at hbit
  simp [Nat.lt_of_lt_of_le hi hlen] at hbit

/-- **Errors within the width of the register change the check.** -/
theorem feedBits_corrupt (hp : poly.msb = true) (r : BitVec w) {bs es : List Bool}
    (hlen : bs.length = es.length) (h : Burst w es) :
    feedBits poly r (List.zipWith xor bs es) ≠ feedBits poly r bs := by
  have hxor := feedBits_xor poly r 0#w hlen
  rw [BitVec.xor_zero] at hxor
  rw [hxor]
  intro hsame
  refine feedBits_burst hp h ?_
  have hcancel := congrArg (feedBits poly r bs ^^^ ·) hsame
  simpa only [← BitVec.xor_assoc, BitVec.xor_self, BitVec.zero_xor] using hcancel

end Lib.Crc
