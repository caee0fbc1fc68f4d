/-
  UTF-16 — decoding bytes that need not be it, in units of two, a lead and a
  trail surrogate together.
-/
import TailTalk.Lib.Utf8

namespace Lib

/-! ## Characters -/

/-- A unit of two bytes, the lower one first. -/
def unitLe (a b : UInt8) : ℕ := a.toNat + 256 * b.toNat

/-- A unit of two bytes, the higher one first. -/
def unitBe (a b : UInt8) : ℕ := 256 * a.toNat + b.toNat

/-- The first half of a pair. -/
def isLead (u : ℕ) : Bool := 0xD800 ≤ u && u ≤ 0xDBFF

/-- The second half of one. -/
def isTrail (u : ℕ) : Bool := 0xDC00 ≤ u && u ≤ 0xDFFF

/-- What is no pair and no character is replaced, and so is what the end cuts off. -/
def fromUtf16Lossy (unit : UInt8 → UInt8 → ℕ) : Bytes → List Char
  | [] => []
  | [_] => [REPLACEMENT]
  | a :: b :: rest =>
    if isLead (unit a b) then
      match rest with
      | c :: d :: rest =>
        if isTrail (unit c d) then
          Char.ofNat (0x10000 + (unit a b - 0xD800) * 1024 + (unit c d - 0xDC00)) ::
            fromUtf16Lossy unit rest
        else REPLACEMENT :: fromUtf16Lossy unit (c :: d :: rest)
      | _ => [REPLACEMENT]
    else (if isTrail (unit a b) then REPLACEMENT else Char.ofNat (unit a b)) ::
      fromUtf16Lossy unit rest

section
variable {unit : UInt8 → UInt8 → ℕ}

theorem fromUtf16Lossy_length (bs : Bytes) :
    2 * (fromUtf16Lossy unit bs).length ≤ bs.length + 1 := by
  induction bs using fromUtf16Lossy.induct unit with
  | case1 => simp [fromUtf16Lossy]
  | case2 => simp [fromUtf16Lossy]
  | case3 a b hlead c d rest htrail ih =>
    simp only [fromUtf16Lossy, hlead, htrail, if_true, List.length_cons]
    omega
  | case4 a b hlead c d rest htrail ih =>
    simp only [fromUtf16Lossy, hlead, htrail, if_true, List.length_cons, Bool.false_eq_true,
      if_false] at ih ⊢
    omega
  | case5 a b rest hlead hrest =>
    rw [fromUtf16Lossy.eq_def]
    dsimp only
    rw [if_pos hlead]
    split
    · exact absurd rfl (hrest _ _ _)
    · simp only [List.length_cons, List.length_nil]
      omega
  | case6 a b rest hlead ih =>
    rw [fromUtf16Lossy.eq_def]
    dsimp only
    rw [if_neg hlead, List.length_cons, List.length_cons, List.length_cons]
    omega

/-! ## Units -/

/-- A character of the basic plane, and not the one that stands for others. -/
def Basic (c : Char) : Prop := c ≠ REPLACEMENT ∧ c.toNat < 65536

theorem toNat_ofNat {n : ℕ} (h : n.isValidChar) : (Char.ofNat n).toNat = n := by
  rw [Char.ofNat, dif_pos h]
  rfl

theorem unit_of_decoded (hunit : ∀ a b, unit a b < 65536) {bs : Bytes} {c : Char} {cs : List Char}
    (h : fromUtf16Lossy unit bs = c :: cs) (hc : Basic c) :
    ∃ a b rest, bs = a :: b :: rest ∧ c.toNat = unit a b ∧ fromUtf16Lossy unit rest = cs := by
  obtain ⟨hrep, hplane⟩ := hc
  match bs, h with
  | [_], h =>
    rw [fromUtf16Lossy] at h
    exact absurd (List.cons.inj h).1.symm hrep
  | a :: b :: rest, h =>
    have hbound := hunit a b
    rw [fromUtf16Lossy.eq_def] at h
    dsimp only at h
    split at h
    · rename_i hlead
      split at h
      · rename_i d e rest'
        split at h
        · -- a pair is above the plane
          rename_i htrail
          simp only [isLead, isTrail, Bool.and_eq_true, decide_eq_true_eq] at hlead htrail
          obtain ⟨rfl, -⟩ := List.cons.inj h
          rw [toNat_ofNat (Or.inr ⟨by omega, by omega⟩)] at hplane
          omega
        · exact absurd (List.cons.inj h).1.symm hrep
      · exact absurd (List.cons.inj h).1.symm hrep
    · rename_i hlead
      split at h
      · exact absurd (List.cons.inj h).1.symm hrep
      · rename_i htrail
        simp only [isLead, isTrail, Bool.and_eq_true, decide_eq_true_eq] at hlead htrail
        obtain ⟨rfl, hrest⟩ := List.cons.inj h
        refine ⟨a, b, rest, rfl, toNat_ofNat ?_, hrest⟩
        unfold Nat.isValidChar
        omega

/-- The bytes of some units. -/
def ofUnits (units : List (UInt8 × UInt8)) : Bytes := units.flatMap fun u => [u.1, u.2]

/-- **A decoded text of the basic plane is its units.** -/
theorem units_of_decoded (hunit : ∀ a b, unit a b < 65536) {bs : Bytes} {cs rest : List Char}
    (h : fromUtf16Lossy unit bs = cs ++ rest) (hcs : ∀ c ∈ cs, Basic c) :
    ∃ units tail, bs = ofUnits units ++ tail ∧
      cs.map Char.toNat = units.map fun u => unit u.1 u.2 := by
  induction cs generalizing bs with
  | nil => exact ⟨[], bs, rfl, rfl⟩
  | cons c cs ih =>
    obtain ⟨a, b, bs', rfl, hc, hbs'⟩ := unit_of_decoded hunit h (hcs c List.mem_cons_self)
    obtain ⟨units, tail, rfl, hunits⟩ := ih hbs' fun c' hc' => hcs c' (List.mem_cons_of_mem c hc')
    refine ⟨(a, b) :: units, tail, rfl, ?_⟩
    rw [List.map_cons, List.map_cons, hc, hunits]

theorem ofUnits_length (units : List (UInt8 × UInt8)) :
    (ofUnits units).length = 2 * units.length := by
  induction units with
  | nil => rfl
  | cons u units ih =>
    rw [ofUnits, List.flatMap_cons, List.length_append, ← ofUnits, ih, List.length_cons,
      List.length_cons, List.length_cons, List.length_nil]
    omega

theorem getElem?_ofUnits (units : List (UInt8 × UInt8)) (i : ℕ) :
    (ofUnits units)[2 * i]? = units[i]?.map Prod.fst ∧
      (ofUnits units)[2 * i + 1]? = units[i]?.map Prod.snd := by
  induction units generalizing i with
  | nil => exact ⟨rfl, rfl⟩
  | cons u units ih =>
    cases i with
    | zero => exact ⟨rfl, rfl⟩
    | succ i => exact ih i

end

end Lib
