/-
  The arithmetic of the scattering is exact.

  `scatterStep` adds and multiplies in 32 bits, and the carry is narrowed
  between stretches.  `exactStep` and `strictly` are the same without either:
  the sums are whole numbers, and a narrowing that loses anything stops.
-/
import TailTalk.StyleWriter.Raster

namespace TailTalk.StyleWriter

open Lib

/-! ## One dot -/

/-- The shares that a job's quality asks for. -/
def IsSplit (split : ℤ) : Prop := split = SCATTER_SPLIT ∨ split = SCATTER_SPLIT_DRAFT

/-- Where a carry stays. -/
def Carried (carry : ℤ) : Prop := -384 ≤ carry ∧ carry ≤ 383

/-- What is left of a dot once it has been compared with its threshold. -/
def leftOver (r v : ℤ) : ℤ := if r / 8 + 0x6F < v then v - 0xFF else v

/-- `scatterStep` in whole numbers. -/
def exactStep (value : UInt8) (carry : ℤ) (down : Int8) (lcg : UInt32) (split : ℤ) : Dot :=
  let lcg := lcg * 513 + 1
  let r : ℤ := (lcg >>> 24).toNat
  let v := carry + value.toNat + down.toInt
  let carry := (split - r) * leftOver r v / 1024
  { reached := r / 8 + 0x6F < v, carry, down := Int8.ofInt (leftOver r v - carry), lcg }

theorem asI32_eq {n : ℤ} (hlo : -2 ^ 31 ≤ n) (hhi : n < 2 ^ 31) : asI32 n = .ok n :=
  if_pos ⟨hlo, hhi⟩

theorem byte_of_lcg (lcg : UInt32) : ((lcg >>> 24).toNat : ℤ) ≤ 255 := by
  have hshift : (lcg >>> 24).toNat = lcg.toNat / 2 ^ 24 := by
    rw [UInt32.toNat_shiftRight, Nat.shiftRight_eq_div_pow]
    rfl
  have hlt := lcg.toNat_lt
  omega

theorem leftOver_bounds {carry r : ℤ} (value : UInt8) (down : Int8) (hc : Carried carry)
    (hr : 0 ≤ r ∧ r ≤ 255) :
    -512 ≤ leftOver r (carry + value.toNat + down.toInt) ∧
      leftOver r (carry + value.toNat + down.toInt) ≤ 511 := by
  have hvalue : (value.toNat : ℤ) < 256 := by exact_mod_cast value.toNat_lt
  have hdown := Int8.le_toInt down
  have hdown' := Int8.toInt_lt down
  unfold Carried at hc
  unfold leftOver
  split_ifs <;> omega

/-- The share of what is left that goes along. -/
theorem product_bounds {split r v : ℤ} (hs : IsSplit split) (hr : 0 ≤ r ∧ r ≤ 255)
    (hv : -512 ≤ v ∧ v ≤ 511) :
    -(767 * 512) ≤ (split - r) * v ∧ (split - r) * v ≤ 767 * 511 := by
  have hshare : 0 ≤ split - r ∧ split - r ≤ 767 := by
    rcases hs with rfl | rfl <;> simp only [SCATTER_SPLIT, SCATTER_SPLIT_DRAFT] <;> omega
  constructor <;> nlinarith

theorem carried_share {split r v : ℤ} (hs : IsSplit split) (hr : 0 ≤ r ∧ r ≤ 255)
    (hv : -512 ≤ v ∧ v ≤ 511) : Carried ((split - r) * v / 1024) := by
  have hproduct := product_bounds hs hr hv
  unfold Carried
  omega

/-- The end of a step, from what is left of the dot. -/
theorem passOn_exact {split r v : ℤ} (hs : IsSplit split) (hr : 0 ≤ r ∧ r ≤ 255)
    (hv : -512 ≤ v ∧ v ≤ 511) (reached : Bool) (lcg : UInt32) :
    (do
      let share ← asI32 (split - r)
      let product ← asI32 (share * v)
      let carry := product / 1024
      let left ← asI32 (v - carry)
      .ok ({ reached, carry, down := Int8.ofInt left, lcg } : Dot)) =
    .ok {
      reached
      carry := (split - r) * v / 1024
      down := Int8.ofInt (v - (split - r) * v / 1024)
      lcg } := by
  have hshare : 0 ≤ split ∧ split ≤ 767 := by
    rcases hs with rfl | rfl <;> exact ⟨by decide, by decide⟩
  have hproduct := product_bounds hs hr hv
  have hcarry := carried_share hs hr hv
  unfold Carried at hcarry
  rw [asI32_eq (n := split - r) (by omega) (by omega), ok_bind,
    asI32_eq (n := (split - r) * v) (by omega) (by omega), ok_bind]
  dsimp only
  rw [asI32_eq (by omega) (by omega), ok_bind]

theorem scatterStep_exact {split carry : ℤ} (hs : IsSplit split) (hc : Carried carry)
    (value : UInt8) (down : Int8) (lcg : UInt32) :
    scatterStep value carry down lcg split = .ok (exactStep value carry down lcg split) ∧
      Carried (exactStep value carry down lcg split).carry := by
  have hr : (0 : ℤ) ≤ ((lcg * 513 + 1) >>> 24).toNat ∧
      (((lcg * 513 + 1) >>> 24).toNat : ℤ) ≤ 255 := ⟨by omega, byte_of_lcg _⟩
  have hleft := leftOver_bounds value down hc hr
  constructor
  swap
  · simp only [exactStep]
    exact carried_share hs hr hleft
  have hvalue : (value.toNat : ℤ) < 256 := by exact_mod_cast value.toNat_lt
  have hdown := Int8.le_toInt down
  have hdown' := Int8.toInt_lt down
  unfold Carried at hc
  simp only [scatterStep, exactStep]
  generalize (((lcg * 513 + 1) >>> 24).toNat : ℤ) = r at hr hleft ⊢
  rw [asI32_eq (n := carry + value.toNat) (by omega) (by omega), ok_bind,
    asI32_eq (n := carry + value.toNat + down.toInt) (by omega) (by omega), ok_bind,
    asI32_eq (n := r / 8 + 0x6F) (by omega) (by omega), ok_bind]
  generalize hv : carry + (value.toNat : ℤ) + down.toInt = v at hleft ⊢
  have hpass := passOn_exact hs hr hleft (decide (r / 8 + 0x6F < v)) (lcg * 513 + 1)
  unfold leftOver at hpass ⊢
  by_cases hreached : r / 8 + 0x6F < v
  · simp only [hreached, if_true, decide_true] at hpass ⊢
    rw [asI32_eq (n := v - 0xFF) (by omega) (by omega), ok_bind]
    exact hpass
  · simp only [hreached, if_false, decide_false] at hpass ⊢
    exact hpass

/-! ## One pixel -/

section
variable {π : Type} {N : ℕ}

/-- The carry of every dot is small. -/
def AllCarried (carry : Vector ℤ N) : Prop := ∀ i : Fin N, Carried (carry.get i)

theorem allCarried_zero : AllCarried (.replicate N 0) := by
  intro i
  simp [Vector.get, Carried]

theorem AllCarried.set {carry : Vector ℤ N} (h : AllCarried carry) {c : ℤ} (hc : Carried c)
    (ch : Fin N) : AllCarried (carry.set ch c) := by
  intro i
  have hi := h i
  simp only [Vector.get_eq_getElem, Vector.getElem_set] at hi ⊢
  split_ifs
  · exact hc
  · exact hi

/-- A narrowing that stops where it would lose anything. -/
def strictly (narrow : Vector ℤ N → Vector ℤ N) (carry : Vector ℤ N) : Checked (Vector ℤ N) :=
  if narrow carry = carry then .ok carry else .error .overflow

/-- Two ways to scatter that give the same, and keep the carries where they should be. -/
structure Alike (d e : Dots π N) : Prop where
  pixel {carry : Vector ℤ N} (h : AllCarried carry) (backward : Bool) (px : π)
    (down : Vector Int8 N) (lcg : UInt32) :
    ∃ s, d.pixel backward px carry down lcg = .ok s ∧ e.pixel backward px carry down lcg = .ok s ∧
      AllCarried s.carry
  narrow {carry : Vector ℤ N} (h : AllCarried carry) :
    d.narrow carry = .ok carry ∧ e.narrow carry = .ok carry

end

/-- One dot of a pixel. -/
def exactInk (split : ℤ) (s : Scattered Ink 4) (ch : Fin 4) : Scattered Ink 4 :=
  let dot := exactStep (s.pixel.get ch) (s.carry.get ch) (s.down.get ch) s.lcg split
  { pixel := s.pixel.set ch (if dot.reached then 0xFF else 0) (channel_lt ch)
    carry := s.carry.set ch dot.carry (channel_lt ch)
    down := s.down.set ch dot.down (channel_lt ch)
    lcg := dot.lcg }

/-- Ink, in whole numbers. -/
def exactColorDots (split : ℤ) : Dots Ink 4 where
  pixel backward ink carry down lcg :=
    if ink = NO_INK then .ok ⟨ink, .replicate 4 0, .replicate 4 0, lcg⟩
    else .ok ((inkOrder backward).foldl (exactInk split) ⟨ink, carry, down, lcg⟩)
  narrow := strictly narrowColor

/-- Gray, in whole numbers. -/
def exactGrayDots (split : ℤ) : Dots UInt8 1 where
  pixel _ light carry down lcg :=
    if light = 0xFF then .ok ⟨0, .singleton 0, .singleton 0, lcg⟩
    else
      let dot := exactStep light (carry.get ⟨0, Nat.one_pos⟩) (down.get ⟨0, Nat.one_pos⟩) lcg split
      .ok ⟨if dot.reached then 0 else 0xFF, .singleton dot.carry, .singleton dot.down, dot.lcg⟩
  narrow := strictly narrowGray

section
variable {split : ℤ}

theorem scatterInk_exact (hs : IsSplit split) {s : Scattered Ink 4} (h : AllCarried s.carry)
    (ch : Fin 4) :
    scatterInk split s ch = .ok (exactInk split s ch) ∧ AllCarried (exactInk split s ch).carry := by
  obtain ⟨hstep, hcarry⟩ := scatterStep_exact hs (h ch) (s.pixel.get ch) (s.down.get ch) s.lcg
  constructor
  · rw [scatterInk, hstep, ok_bind, exactInk]
  · exact h.set hcarry ch

theorem scatterInks_exact (hs : IsSplit split) (order : List (Fin 4)) {s : Scattered Ink 4}
    (h : AllCarried s.carry) :
    order.foldlM (scatterInk split) s = .ok (order.foldl (exactInk split) s) ∧
      AllCarried (order.foldl (exactInk split) s).carry := by
  induction order generalizing s with
  | nil => exact ⟨rfl, h⟩
  | cons ch order ih =>
    obtain ⟨hink, hcarry⟩ := scatterInk_exact hs h ch
    rw [List.foldlM_cons, hink, ok_bind, List.foldl_cons]
    exact ih hcarry

theorem narrowed {c : ℤ} (h : Carried c) : c.bmod (2 ^ 15) = c ∧ c.bmod (2 ^ 16) = c := by
  unfold Carried at h
  constructor <;> rw [Int.bmod_def] <;> split_ifs <;> omega

theorem narrowColor_eq {carry : Vector ℤ 4} (h : AllCarried carry) : narrowColor carry = carry := by
  ext i hi
  obtain ⟨h15, h16⟩ := narrowed (h ⟨i, hi⟩)
  interval_cases i
  · exact h15
  · exact h16
  · exact h16
  · exact h16

theorem narrowGray_eq {carry : Vector ℤ 1} (h : AllCarried carry) : narrowGray carry = carry := by
  ext i hi
  obtain ⟨-, h16⟩ := narrowed (h ⟨i, hi⟩)
  interval_cases i
  exact h16

theorem colorDots_alike (hs : IsSplit split) : Alike (colorDots split) (exactColorDots split) where
  pixel h backward ink down lcg := by
    simp only [colorDots, exactColorDots, colorPixel]
    split_ifs
    · exact ⟨_, rfl, rfl, allCarried_zero⟩
    · obtain ⟨hinks, hcarry⟩ :=
        scatterInks_exact hs (inkOrder backward) (s := ⟨ink, _, down, lcg⟩) h
      exact ⟨_, hinks, rfl, hcarry⟩
  narrow h := by
    have heq := narrowColor_eq h
    simp only [colorDots, exactColorDots, strictly, heq, if_true, and_self]

theorem grayDots_alike (hs : IsSplit split) : Alike (grayDots split) (exactGrayDots split) where
  pixel {carry} h _ light down lcg := by
    simp only [grayDots, exactGrayDots, grayPixel]
    by_cases hwhite : light = 0xFF
    · rw [if_pos hwhite, if_pos hwhite]
      exact ⟨_, rfl, rfl, allCarried_zero⟩
    · obtain ⟨hstep, hcarry⟩ := scatterStep_exact hs (h 0) light (down.get 0) lcg
      rw [if_neg hwhite, if_neg hwhite, hstep, ok_bind]
      refine ⟨_, rfl, rfl, ?_⟩
      intro i
      obtain rfl : i = 0 := Subsingleton.elim _ _
      exact hcarry
  narrow h := by
    have heq := narrowGray_eq h
    simp only [grayDots, exactGrayDots, strictly, heq, if_true, and_self]

end

/-! ## Rows -/

section
variable {π : Type} {N : ℕ} {d e : Dots π N}

theorem scatterCells_alike (h : Alike d e) (backward : Bool) (cells : List (π × Vector Int8 N))
    {carry : Vector ℤ N} (hc : AllCarried carry) (lcg : UInt32) :
    ∃ passed, scatterCells d backward cells carry lcg = .ok passed ∧
      scatterCells e backward cells carry lcg = .ok passed ∧
      passed.cells.length = cells.length ∧ AllCarried passed.carry := by
  induction cells generalizing carry lcg with
  | nil => exact ⟨_, rfl, rfl, rfl, hc⟩
  | cons cell cells ih =>
    obtain ⟨px, down⟩ := cell
    obtain ⟨s, hd, he, hs⟩ := h.pixel hc backward px down lcg
    obtain ⟨rest, hd', he', hlen, hrest⟩ := ih hs s.lcg
    refine ⟨{ rest with cells := (s.pixel, s.down) :: rest.cells }, ?_, ?_, ?_, hrest⟩
    · rw [scatterCells, hd, ok_bind, hd', ok_bind]
    · rw [scatterCells, he, ok_bind, he', ok_bind]
    · simp [hlen]

@[simp] theorem inOrder_length {γ : Type} (backward : Bool) (cells : List γ) :
    (inOrder backward cells).length = cells.length := by
  unfold inOrder
  split_ifs <;> simp

theorem scatterRow_alike (h : Alike d e) {s : Scatter N} (hc : AllCarried s.carry) {row : List π}
    (hroom : row.length ≤ s.down.length) (lcg : UInt32) :
    ∃ row' s' lcg', scatterRow d s row lcg = .ok (row', s', lcg') ∧
      scatterRow e s row lcg = .ok (row', s', lcg') ∧
      row'.length = row.length ∧ s'.down.length = s.down.length ∧ AllCarried s'.carry := by
  have hin : ¬ s.down.length < row.length := by omega
  obtain ⟨passed, hd, he, hlen, hcarry⟩ :=
    scatterCells_alike h s.backward (inOrder s.backward (row.zip s.down)) hc lcg
  have hcells : passed.cells.length = row.length := by simpa [hroom] using hlen
  refine ⟨(inOrder s.backward passed.cells).map (·.1), {
      carry := passed.carry
      backward := !s.backward
      down := (inOrder s.backward passed.cells).map (·.2) ++ s.down.drop row.length },
    passed.lcg, ?_, ?_, ?_, ?_, hcarry⟩
  · rw [scatterRow, if_neg hin, hd, ok_bind]
  · rw [scatterRow, if_neg hin, he, ok_bind]
  · simp [hcells]
  · simp [hcells, hroom]

theorem scatterStretch_alike (h : Alike d e) (rows : List (List π)) {s : Scatter N}
    (hc : AllCarried s.carry) (hroom : ∀ row ∈ rows, row.length ≤ s.down.length) (lcg : UInt32) :
    ∃ rows' s', scatterStretch d rows s lcg = .ok (rows', s') ∧
      scatterStretch e rows s lcg = .ok (rows', s') ∧
      rows'.map List.length = rows.map List.length ∧ s'.down.length = s.down.length ∧
      AllCarried s'.carry := by
  induction rows generalizing s lcg with
  | nil => exact ⟨_, _, rfl, rfl, rfl, rfl, hc⟩
  | cons row rows ih =>
    rw [List.forall_mem_cons] at hroom
    obtain ⟨row', s', lcg', hd, he, hlen, hdown, hc'⟩ := scatterRow_alike h hc hroom.1 lcg
    obtain ⟨rows', t, hd', he', hlens, hdown', ht⟩ := ih hc' (hdown ▸ hroom.2) lcg'
    refine ⟨row' :: rows', t, ?_, ?_, ?_, hdown'.trans hdown, ht⟩
    · rw [scatterStretch, hd, ok_bind]
      dsimp only
      rw [hd', ok_bind]
    · rw [scatterStretch, he, ok_bind]
      dsimp only
      rw [he', ok_bind]
    · rw [List.map_cons, List.map_cons, hlen, hlens]

theorem scatterStretches_alike (h : Alike d e) (stretches : List (List (List π))) {s : Scatter N}
    (hc : AllCarried s.carry)
    (hroom : ∀ stretch ∈ stretches, ∀ row ∈ stretch, row.length ≤ s.down.length) (rand : CRand) :
    ∃ rows s' rand', scatterStretches d stretches s rand = .ok (rows, s', rand') ∧
      scatterStretches e stretches s rand = .ok (rows, s', rand') ∧
      rows.map List.length = stretches.flatten.map List.length ∧
      s'.down.length = s.down.length ∧ AllCarried s'.carry := by
  induction stretches generalizing s rand with
  | nil => exact ⟨_, _, _, rfl, rfl, rfl, rfl, hc⟩
  | cons stretch stretches ih =>
    rw [List.forall_mem_cons] at hroom
    obtain ⟨rows, t, hd, he, hlens, hdown, ht⟩ :=
      scatterStretch_alike h stretch hc hroom.1 (rand.next.1 <<< 16)
    obtain ⟨hnarrow, hnarrow'⟩ := h.narrow ht
    obtain ⟨rest, u, rand', hd', he', hlens', hdown', hu⟩ :=
      ih (s := { t with carry := t.carry }) ht (hdown ▸ hroom.2) rand.next.2
    refine ⟨rows ++ rest, u, rand', ?_, ?_, ?_, hdown'.trans hdown, hu⟩
    · rw [scatterStretches]
      dsimp only
      rw [hd, ok_bind]
      dsimp only
      rw [hnarrow, ok_bind, hd', ok_bind]
    · rw [scatterStretches]
      dsimp only
      rw [he, ok_bind]
      dsimp only
      rw [hnarrow', ok_bind, he', ok_bind]
    · rw [List.map_append, hlens, hlens', List.flatten_cons, List.map_append]

/-- Rows of pixels of one width. -/
def Uniform (rows : List (List π)) : Prop :=
  ∀ row ∈ rows, row.length = rows.head?.elim 0 List.length

theorem fit_length (s : Scatter N) (width : ℕ) : width ≤ (s.fit width).down.length := by
  unfold Scatter.fit
  split_ifs
  · simp
  · omega

theorem AllCarried.fit {s : Scatter N} (h : AllCarried s.carry) (width : ℕ) :
    AllCarried (s.fit width).carry := by
  unfold Scatter.fit
  split_ifs
  · exact allCarried_zero
  · exact h

theorem scatterRows_alike (h : Alike d e) {rows : List (List π)} (hrows : Uniform rows)
    {s : Scatter N} (hc : AllCarried s.carry) (rand : CRand) :
    ∃ rows' s' rand', scatterRows d rows s rand = .ok (rows', s', rand') ∧
      scatterRows e rows s rand = .ok (rows', s', rand') ∧
      rows'.map List.length = rows.map List.length ∧ AllCarried s'.carry := by
  have hflat : (chunks SCATTER_ROWS rows).flatten = rows := flatten_chunks (by decide) rows
  obtain ⟨rows', s', rand', hd, he, hlens, -, hs⟩ := scatterStretches_alike h
    (chunks SCATTER_ROWS rows) (hc.fit (rows.head?.elim 0 List.length))
    (fun stretch hin row hrow => by
      have hmem : row ∈ rows := hflat ▸ List.mem_flatten_of_mem hin hrow
      exact (hrows row hmem).trans_le (fit_length _ _)) rand
  exact ⟨rows', s', rand', hd, he, hflat ▸ hlens, hs⟩

end

/-! ## The bands of a job -/

/-- The rows of a band, in inks or in grays. -/
inductive Tones where
  | inks (rows : List (List Ink))
  | grays (rows : List Bytes)

/-- The rows are of one width. -/
def Tones.Uniform : Tones → Prop
  | inks rows => StyleWriter.Uniform rows
  | grays rows => StyleWriter.Uniform rows

namespace Imager

/-- The next band that a job scatters. -/
def scatter (im : Imager) : Tones → Checked (Tones × Imager)
  | .inks rows => do
    let (rows, im) ← im.scatterColor rows
    .ok (.inks rows, im)
  | .grays rows => do
    let (rows, im) ← im.scatterGray rows
    .ok (.grays rows, im)

/-- The same in whole numbers, stopped by a narrowing that loses anything. -/
def scatterExactly (im : Imager) : Tones → Checked (Tones × Imager)
  | .inks rows => do
    let (rows, colorScatter, rand) ←
      scatterRows (exactColorDots im.split) rows im.colorScatter im.rand
    .ok (.inks rows, { im with colorScatter, rand })
  | .grays rows => do
    let (rows, grayScatter, rand) ←
      scatterRows (exactGrayDots im.split) rows im.grayScatter im.rand
    .ok (.grays rows, { im with grayScatter, rand })

/-- The bands of a job one after another. -/
def scatterBands (f : Imager → Tones → Checked (Tones × Imager)) :
    Imager → List Tones → Checked (List Tones × Imager)
  | im, [] => .ok ([], im)
  | im, band :: bands => do
    let (band, im) ← f im band
    let (bands, im) ← scatterBands f im bands
    .ok (band :: bands, im)

/-- What an imager keeps of the errors it carries. -/
structure Scatters (im : Imager) : Prop where
  split : IsSplit im.split
  color : AllCarried im.colorScatter.carry
  gray : AllCarried im.grayScatter.carry

/-- Another band on: the same job, and carries where they should be. -/
structure Continues (im after : Imager) : Prop where
  family : after.family = im.family
  rendering : after.rendering = im.rendering
  scatters : after.Scatters

theorem scatters_new (family : StyleWriterFamily) (job : JobOptions) :
    (new family job).Scatters where
  split := by
    simp only [new]
    split_ifs
    · exact .inr rfl
    · exact .inl rfl
  color := allCarried_zero
  gray := allCarried_zero

theorem scatterColor_exact {im : Imager} (h : im.Scatters) {rows : List (List Ink)}
    (hrows : StyleWriter.Uniform rows) :
    ∃ rows' im', im.scatterColor rows = .ok (rows', im') ∧
      im.scatterExactly (.inks rows) = .ok (.inks rows', im') ∧
      rows'.map List.length = rows.map List.length ∧ im.Continues im' := by
  obtain ⟨rows', s, rand, hd, he, hlens, hs⟩ :=
    scatterRows_alike (colorDots_alike h.split) hrows h.color im.rand
  refine ⟨rows', { im with colorScatter := s, rand }, ?_, ?_, hlens,
    rfl, rfl, h.split, hs, h.gray⟩
  · rw [scatterColor, hd, ok_bind]
  · rw [scatterExactly, he, ok_bind]

theorem scatterGray_exact {im : Imager} (h : im.Scatters) {rows : List Bytes}
    (hrows : StyleWriter.Uniform rows) :
    ∃ rows' im', im.scatterGray rows = .ok (rows', im') ∧
      im.scatterExactly (.grays rows) = .ok (.grays rows', im') ∧
      rows'.map List.length = rows.map List.length ∧ im.Continues im' := by
  obtain ⟨rows', s, rand, hd, he, hlens, hs⟩ :=
    scatterRows_alike (grayDots_alike h.split) hrows h.gray im.rand
  refine ⟨rows', { im with grayScatter := s, rand }, ?_, ?_, hlens,
    rfl, rfl, h.split, h.color, hs⟩
  · rw [scatterGray, hd, ok_bind]
  · rw [scatterExactly, he, ok_bind]

theorem scatter_exact {im : Imager} (h : im.Scatters) {band : Tones} (hband : band.Uniform) :
    ∃ band' im', im.scatter band = .ok (band', im') ∧
      im.scatterExactly band = .ok (band', im') ∧ im'.Scatters := by
  cases band with
  | inks rows =>
    obtain ⟨rows', im', hd, he, -, h'⟩ := scatterColor_exact h hband
    exact ⟨.inks rows', im', by rw [scatter, hd, ok_bind], he, h'.scatters⟩
  | grays rows =>
    obtain ⟨rows', im', hd, he, -, h'⟩ := scatterGray_exact h hband
    exact ⟨.grays rows', im', by rw [scatter, hd, ok_bind], he, h'.scatters⟩

theorem scatterBands_exact {im : Imager} (h : im.Scatters) (bands : List Tones)
    (hbands : ∀ band ∈ bands, band.Uniform) :
    ∃ out im', scatterBands scatter im bands = .ok (out, im') ∧
      scatterBands scatterExactly im bands = .ok (out, im') ∧ im'.Scatters := by
  induction bands generalizing im with
  | nil => exact ⟨_, _, rfl, rfl, h⟩
  | cons band bands ih =>
    rw [List.forall_mem_cons] at hbands
    obtain ⟨band', im', hd, he, h'⟩ := scatter_exact h hbands.1
    obtain ⟨out, last, hd', he', hlast⟩ := ih h' hbands.2
    refine ⟨band' :: out, last, ?_, ?_, hlast⟩
    · rw [scatterBands, hd, ok_bind]
      dsimp only
      rw [hd', ok_bind]
    · rw [scatterBands, he, ok_bind]
      dsimp only
      rw [he', ok_bind]

/-- Whatever a job scatters, of any width and in any order of color and gray, comes out as in whole
    numbers: nothing leaves 32 bits, and no narrowing loses anything.  What is carried on is never
    more than a dot and a half. -/
theorem scattering_is_exact (family : StyleWriterFamily) (job : JobOptions)
    (bands : List { band : Tones // band.Uniform }) :
    ∃ out im, scatterBands scatter (new family job) (bands.map (·.1)) = .ok (out, im) ∧
      scatterBands scatterExactly (new family job) (bands.map (·.1)) = .ok (out, im) ∧
      AllCarried im.colorScatter.carry ∧ AllCarried im.grayScatter.carry := by
  obtain ⟨out, im, hd, he, h⟩ := scatterBands_exact (scatters_new family job) (bands.map (·.1)) (by
      intro band hband
      obtain ⟨⟨band, huniform⟩, -, rfl⟩ := List.mem_map.1 hband
      exact huniform)
  exact ⟨out, im, hd, he, h.color, h.gray⟩

end Imager

end TailTalk.StyleWriter
