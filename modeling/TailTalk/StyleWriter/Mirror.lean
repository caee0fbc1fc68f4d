/-
  Mirroring a row for paper printed from the back: the first `width` pixels
  reversed, the padding as it was, and the row again when it is mirrored twice.
-/
import TailTalk.StyleWriter.Raster

namespace TailTalk.StyleWriter

open Lib

theorem getPixel_eq {row : Bytes} {x : ℕ} (h : x < 8 * row.length) :
    getPixel row x = .ok (bitAt row x) := by
  unfold getPixel
  rw [byteAt_eq (by omega)]
  rfl

theorem getPixel_error {row : Bytes} {x : ℕ} (h : 8 * row.length ≤ x) :
    getPixel row x = .error (.index (x / 8) row.length) := by
  unfold getPixel byteAt
  rw [dif_neg (by omega)]
  rfl

/-! ## One turn -/

/-- The pixel that `i` has once `x` and `y` have exchanged theirs. -/
def exchanged (x y i : ℕ) : ℕ := if i = x then y else if i = y then x else i

/-- Flipping both of two pixels that differ exchanges them. -/
theorem bitAt_flip_both {row : Bytes} {x y : ℕ} (hx : x < 8 * row.length)
    (hy : y < 8 * row.length) (hxy : x ≠ y) (hne : bitAt row x ≠ bitAt row y) (i : ℕ) :
    bitAt (flipAt (flipAt row x) y) i = bitAt row (exchanged x y i) := by
  have hother : (!bitAt row y) = bitAt row x := (Bool.eq_not.2 hne).symm
  rw [bitAt_flipAt (by simpa using hy), bitAt_flipAt hx, bitAt_flipAt hx, exchanged]
  by_cases hix : i = x
  · subst hix
    simp [hxy, ← hother]
  · by_cases hiy : i = y
    · subst hiy
      simp [hix, hother]
    · simp [hix, hiy]

theorem bitAt_exchanged {row : Bytes} {x y : ℕ} (heq : bitAt row x = bitAt row y) (i : ℕ) :
    bitAt row (exchanged x y i) = bitAt row i := by
  unfold exchanged
  split_ifs with hix hiy
  · rw [hix, heq]
  · rw [hiy, heq]
  · rfl

theorem mirrorPair_eq {width : ℕ} (row : Bytes) {x : ℕ} (hw : width ≤ 8 * row.length)
    (hx : x < width / 2) :
    ∃ out, mirrorPair width row x = .ok out ∧ out.length = row.length ∧
      ∀ i, bitAt out i = bitAt row (exchanged x (width - 1 - x) i) := by
  have hxr : x < 8 * row.length := by omega
  have hyr : width - 1 - x < 8 * row.length := by omega
  refine ⟨if bitAt row x ≠ bitAt row (width - 1 - x) then
    flipAt (flipAt row x) (width - 1 - x) else row, ?_, ?_, ?_⟩
  · simp only [mirrorPair, getPixel_eq hxr, getPixel_eq hyr]
    rfl
  · split_ifs <;> simp
  · intro i
    split_ifs with hne
    · exact bitAt_flip_both hxr hyr (by omega) hne i
    · exact (bitAt_exchanged (not_not.1 hne) i).symm

/-! ## All turns -/

/-- The pixel that `i` has after `k` turns. -/
def mirroredFrom (width k i : ℕ) : ℕ :=
  if i < width ∧ (i < k ∨ width ≤ i + k) then width - 1 - i else i

theorem mirroredFrom_zero (width i : ℕ) : mirroredFrom width 0 i = i := by
  unfold mirroredFrom
  split_ifs <;> omega

theorem mirroredFrom_succ {width k : ℕ} (hk : k < width / 2) (i : ℕ) :
    mirroredFrom width (k + 1) i = mirroredFrom width k (exchanged k (width - 1 - k) i) := by
  unfold mirroredFrom exchanged
  split_ifs <;> omega

theorem mirroredFrom_half {width i : ℕ} :
    mirroredFrom width (width / 2) i = if i < width then width - 1 - i else i := by
  unfold mirroredFrom
  split_ifs <;> omega

theorem mirrorPairs_eq {width : ℕ} {row : Bytes} (hw : width ≤ 8 * row.length) {k : ℕ}
    (hk : k ≤ width / 2) :
    ∃ out, (List.range k).foldlM (mirrorPair width) row = .ok out ∧ out.length = row.length ∧
      ∀ i, bitAt out i = bitAt row (mirroredFrom width k i) := by
  induction k with
  | zero => exact ⟨row, rfl, rfl, fun i => by rw [mirroredFrom_zero]⟩
  | succ k ih =>
    obtain ⟨before, hbefore, hlen, hbits⟩ := ih (by omega)
    obtain ⟨out, hout, hlen', hbits'⟩ := mirrorPair_eq before (by omega) hk
    refine ⟨out, ?_, by omega, ?_⟩
    · rw [List.range_succ, List.foldlM_append, hbefore]
      simp only [List.foldlM_cons, List.foldlM_nil, bind_pure]
      exact hout
    · intro i
      rw [hbits', hbits, mirroredFrom_succ hk]

theorem mirrorBits_eq {row : Bytes} {width : ℕ} (hw : width ≤ 8 * row.length) :
    ∃ out, mirrorBits row width = .ok out ∧ out.length = row.length ∧
      ∀ i, bitAt out i = bitAt row (if i < width then width - 1 - i else i) := by
  obtain ⟨out, hout, hlen, hbits⟩ := mirrorPairs_eq hw le_rfl
  refine ⟨out, hout, hlen, ?_⟩
  intro i
  rw [hbits, mirroredFrom_half]

/-- With two pixels or more, the last has to be in the row. -/
theorem mirrorBits_error {row : Bytes} {width : ℕ} (hw : 8 * row.length < width)
    (h2 : 2 ≤ width) : ¬ Returns (mirrorBits row width) := by
  obtain ⟨turns, hturns⟩ : ∃ turns, width / 2 = turns + 1 := ⟨width / 2 - 1, by omega⟩
  have hlast : getPixel row (width - 1 - 0) = .error (.index ((width - 1) / 8) row.length) :=
    getPixel_error (by omega)
  rw [mirrorBits, hturns, List.range_succ_eq_map, List.foldlM_cons, returns_bind]
  rintro ⟨after, hafter, -⟩
  simp only [mirrorPair, hlast] at hafter
  obtain ⟨a, -, hb⟩ := bind_eq_ok.1 hafter
  cases hb

theorem mirrorBits_short {row : Bytes} {width : ℕ} (h : width ≤ 1) :
    mirrorBits row width = .ok row := by
  rw [mirrorBits, show width / 2 = 0 by omega]
  rfl

theorem returns_mirrorBits (row : Bytes) (width : ℕ) :
    Returns (mirrorBits row width) ↔ width ≤ 8 * row.length ∨ width ≤ 1 := by
  constructor
  · intro hreturns
    by_contra! hnot
    exact mirrorBits_error hnot.1 hnot.2 hreturns
  · rintro (hw | h1)
    · obtain ⟨out, hout, -⟩ := mirrorBits_eq hw
      exact ⟨out, hout⟩
    · exact ⟨row, mirrorBits_short h1⟩

/-- A row that holds its pixels is mirrored: what was at `width - 1 - x` is at `x`, the padding
    and the length are as they were, and mirroring once more gives the row back.  No other row is,
    but for one pixel or none. -/
theorem mirrorBits_mirrors (row : Bytes) (width : ℕ) :
    (Returns (mirrorBits row width) ↔ width ≤ 8 * row.length ∨ width ≤ 1) ∧
      ∀ out, mirrorBits row width = .ok out →
        out.length = row.length ∧
        (∀ x < width, bitAt out x = bitAt row (width - 1 - x)) ∧
        (∀ x, width ≤ x → bitAt out x = bitAt row x) ∧
        mirrorBits out width = .ok row := by
  refine ⟨returns_mirrorBits row width, fun out hout => ?_⟩
  rcases (returns_mirrorBits row width).1 ⟨out, hout⟩ with hw | h1
  · obtain ⟨out', hout', hlen, hbits⟩ := mirrorBits_eq hw
    obtain rfl : out = out' := Except.ok.inj (hout.symm.trans hout')
    obtain ⟨twice, htwice, hlen', hbits'⟩ := @mirrorBits_eq out _ (hlen ▸ hw)
    refine ⟨hlen, fun x hx => ?_, fun x hx => ?_, ?_⟩
    · rw [hbits, if_pos hx]
    · rw [hbits, if_neg (by omega)]
    · have hback : twice = row := by
        refine ext_bitAt (hlen'.trans hlen) fun x => ?_
        rw [hbits', hbits]
        congr 1
        split_ifs <;> omega
      rw [htwice, hback]
  · rw [mirrorBits_short h1] at hout ⊢
    obtain rfl := Except.ok.inj hout
    refine ⟨rfl, fun x hx => ?_, fun _ _ => rfl, rfl⟩
    rw [show width - 1 - x = x by omega]

example : mirrorBits [0x80, 0x0F] 12 = .ok [0x00, 0x1F] := by decide

end TailTalk.StyleWriter
