/-
  The bands of a page partition it.

  A band takes the row it starts at and those below, up to the engine's band
  height; a blank row where a band would start is left out.  So the bands of
  each page are in order and apart, and every row with ink on it is in exactly
  one of them (`bands_partition`).
-/
import TailTalk.StyleWriter.Rows
import TailTalk.StyleWriter.Scatter

namespace TailTalk.StyleWriter

open Lib

/-! ## Planes -/

theorem packDot_length (row : Bytes) (dot : Bool × ℕ) :
    (packDot row dot).length = row.length + if dot.2 % 8 = 0 then 1 else 0 := by
  unfold packDot
  split_ifs <;> simp

@[simp] theorem pack_length (dots : List Bool) : (pack dots).length = rowBytes dots.length := by
  unfold pack
  induction dots using List.reverseRecOn with
  | nil => rfl
  | append_singleton dots dot ih =>
    rw [List.zipIdx_append, List.foldl_append, List.zipIdx_singleton, List.foldl_cons,
      List.foldl_nil, packDot_length, ih]
    simp only [rowBytes, List.length_append, List.length_singleton, Nat.zero_add]
    split_ifs <;> omega

theorem patternDot_length (threshold amount : UInt8) {x : ℕ} {plane : Bytes}
    (h : x < 8 * plane.length) :
    ∃ out, patternDot threshold amount x plane = .ok out ∧ out.length = plane.length := by
  unfold patternDot
  split_ifs
  · exact ⟨_, setPixel_eq h, setAt_length _ _⟩
  · exact ⟨_, rfl, rfl⟩

/-- Planes of `n` bytes each. -/
def Planes {N : ℕ} (n : ℕ) (planes : Vector Bytes N) : Prop :=
  ∀ plane ∈ planes.toList, plane.length = n

theorem Planes.get {N n : ℕ} {planes : Vector Bytes N} (h : Planes n planes) (i : Fin N) :
    (planes.get i).length = n := h _ (by simp [Vector.get_eq_getElem])

theorem patternInk_planes {row : Fin HALFTONE_SIZE} {planes : Vector Bytes 4} {n : ℕ}
    (h : Planes n planes) {dot : Ink × ℕ} (hx : dot.2 < 8 * n) :
    ∃ out, patternInk row planes dot = .ok out ∧ Planes n out := by
  unfold patternInk
  by_cases hnone : dot.1 = NO_INK
  · exact ⟨planes, if_pos hnone, h⟩
  · have hdot (i : Fin 4) (threshold amount : UInt8) := patternDot_length threshold amount
      (x := dot.2) (by rw [h.get i]; exact hx)
    obtain ⟨cyan, hcyan, hlen⟩ := hdot 0 (thresholdAt row dot.2) (dot.1.get 0)
    obtain ⟨magenta, hmagenta, hlen'⟩ := hdot 1 (thresholdAt row dot.2) (dot.1.get 1)
    obtain ⟨yellow, hyellow, hlen''⟩ := hdot 2 (thresholdAt row dot.2) (dot.1.get 2)
    obtain ⟨black, hblack, hlen'''⟩ :=
      hdot 3 (HALFTONE_MAX - thresholdAt row dot.2) (dot.1.get 3)
    refine ⟨#v[cyan, magenta, yellow, black], ?_, ?_⟩
    · rw [if_neg hnone]
      dsimp only
      rw [hcyan, ok_bind, hmagenta, ok_bind, hyellow, ok_bind, hblack, ok_bind]
    · simp [Planes, hlen, hlen', hlen'', hlen''', h.get]

theorem patternInks_planes {row : Fin HALFTONE_SIZE} {n : ℕ} (inks : List (Ink × ℕ))
    {p : Vector Bytes 4} (h : Planes n p) (hx : ∀ dot ∈ inks, dot.2 < 8 * n) :
    ∃ out, inks.foldlM (patternInk row) p = .ok out ∧ Planes n out := by
  induction inks generalizing p with
  | nil => exact ⟨p, rfl, h⟩
  | cons dot inks ih =>
    rw [List.forall_mem_cons] at hx
    obtain ⟨next, hnext, hplanes⟩ := patternInk_planes h hx.1
    rw [List.foldlM_cons, hnext, ok_bind]
    exact ih hplanes hx.2

namespace Imager

/-- What turning rows into planes changes of an imager. -/
def Counted (im after : Imager) : Prop := after = { im with patternRows := after.patternRows }

theorem patternColor_planes (im : Imager) (row : List Ink) :
    ∃ planes after, im.patternColor row = .ok (planes, after) ∧
      Planes (rowBytes row.length) planes ∧ im.Counted after := by
  obtain ⟨planes, heq, hplanes⟩ := patternInks_planes
    (n := rowBytes row.length) row.zipIdx (p := .replicate 4 (.replicate (rowBytes row.length) 0))
    (by simp [Planes]) fun dot hdot => lt_rowBytes hdot
  exact ⟨planes, im.nextPatternRow.2, by rw [patternColor]; dsimp only; rw [heq, ok_bind], hplanes,
    rfl⟩

theorem patternGray_planes (im : Imager) (row : Bytes) :
    ∃ planes after, im.patternGray row = .ok (planes, after) ∧
      Planes (rowBytes row.length) planes ∧ im.Counted after :=
  ⟨_, _, rfl, by simp [Planes], rfl⟩

theorem dots_planes (im : Imager) (row : List Ink) :
    ∃ planes after, im.dots row = .ok (planes, after) ∧
      Planes (rowBytes row.length) planes ∧ im.Counted after := by
  refine ⟨_, _, rfl, ?_, rfl⟩
  intro plane hplane
  obtain ⟨i, hi, rfl⟩ := List.getElem_of_mem hplane
  simp

theorem scatteredGray_planes (im : Imager) (row : Bytes) :
    ∃ planes after, im.scatteredGray row = .ok (planes, after) ∧
      Planes (rowBytes row.length) planes ∧ im.Counted after :=
  ⟨_, _, rfl, by simp [Planes], rfl⟩

theorem Counted.trans {im mid after : Imager} (h : im.Counted mid) (h' : mid.Counted after) :
    im.Counted after := by
  unfold Counted at h h' ⊢
  rw [h', h]

theorem eachRow_planes {π : Type} {N : ℕ} {f : Imager → List π → Checked (Vector Bytes N × Imager)}
    (hf : ∀ im row, ∃ planes after, f im row = .ok (planes, after) ∧
      Planes (rowBytes row.length) planes ∧ im.Counted after)
    (im : Imager) {rows : List (List π)} {w : ℕ} (hrows : ∀ row ∈ rows, row.length = w) :
    ∃ out after, eachRow f im rows = .ok (out, after) ∧ out.length = rows.length ∧
      (∀ planes ∈ out, Planes (rowBytes w) planes) ∧ im.Counted after := by
  induction rows generalizing im with
  | nil => exact ⟨[], im, rfl, rfl, by simp, rfl⟩
  | cons row rows ih =>
    rw [List.forall_mem_cons] at hrows
    obtain ⟨planes, mid, heq, hplanes, hmid⟩ := hf im row
    obtain ⟨out, after, heq', hlen, hout, hafter⟩ := ih mid hrows.2
    refine ⟨planes :: out, after, ?_, by simp [hlen], ?_, hmid.trans hafter⟩
    · rw [eachRow, heq, ok_bind]
      dsimp only
      rw [heq', ok_bind]
    · rw [List.forall_mem_cons]
      exact ⟨hrows.1 ▸ hplanes, hout⟩

end Imager

/-! ## One band -/

/-- A band that starts at `top` and takes `n` rows of a page `w` dots across. -/
structure Takes (band : RawBand) (top w n : ℕ) : Prop where
  top : band.top = top
  width : band.width = w
  rows : band.rows.length = n
  plane : ∀ row ∈ band.rows, ∀ plane ∈ row, plane.length = rowBytes w

theorem takes_ofPlanes {top w n : ℕ} {kind : BandKind} {rows : List (Vector Bytes kind.planes)}
    (hn : rows.length = n) (h : ∀ planes ∈ rows, Planes (rowBytes w) planes) :
    Takes (.ofPlanes top w kind rows) top w n where
  top := rfl
  width := rfl
  rows := (List.length_map _).trans hn
  plane row hrow := by
    obtain ⟨planes, hplanes, rfl⟩ := List.mem_map.1 hrow
    exact h planes hplanes

namespace Imager

theorem Continues.refl {im : Imager} (h : im.Scatters) : im.Continues im := ⟨rfl, rfl, h⟩

theorem Continues.trans {im mid after : Imager} (h : im.Continues mid)
    (h' : mid.Continues after) : im.Continues after where
  family := h'.family.trans h.family
  rendering := h'.rendering.trans h.rendering
  scatters := h'.scatters

theorem Counted.continues {im after : Imager} (h : im.Counted after) (hs : im.Scatters) :
    im.Continues after := by
  rw [h]
  exact ⟨rfl, rfl, hs.split, hs.color, hs.gray⟩

@[simp] theorem separated_length (im : Imager) (row : SourceRow) :
    (im.separated row).length = row.width := by
  cases row <;> exact List.length_map _

@[simp] theorem toned_length (im : Imager) (row : SourceRow) :
    (im.toned row).length = row.width := by
  cases row <;> exact List.length_map _

theorem uniform_of_length {π : Type} {rows : List (List π)} {w : ℕ}
    (h : ∀ row ∈ rows, row.length = w) : Uniform rows := by
  intro row hrow
  cases rows with
  | nil => cases hrow
  | cons first rows =>
    rw [h row hrow]
    exact (h first List.mem_cons_self).symm

/-- Scattered rows are as long as they were. -/
theorem length_of_lengths {π : Type} {rows rows' : List (List π)} {w : ℕ}
    (hlens : rows'.map List.length = rows.map List.length) (h : ∀ row ∈ rows, row.length = w) :
    rows'.length = rows.length ∧ ∀ row ∈ rows', row.length = w := by
  constructor
  · simpa using congrArg List.length hlens
  · intro row hrow
    have hmem : row.length ∈ rows.map List.length := hlens ▸ List.mem_map_of_mem hrow
    obtain ⟨row', hrow', heq⟩ := List.mem_map.1 hmem
    rw [← heq, h row' hrow']

/-- What a job's halftone asks of the ways to do it. -/
structure Halftones {π : Type} {N : ℕ}
    (pattern dots : Imager → List π → Checked (Vector Bytes N × Imager))
    (scatter : Imager → List (List π) → Checked (List (List π) × Imager)) : Prop where
  pattern (im : Imager) (row : List π) : ∃ planes after, pattern im row = .ok (planes, after) ∧
    Planes (rowBytes row.length) planes ∧ im.Counted after
  dots (im : Imager) (row : List π) : ∃ planes after, dots im row = .ok (planes, after) ∧
    Planes (rowBytes row.length) planes ∧ im.Counted after
  scatter {im : Imager} (hs : im.Scatters) {rows : List (List π)} (h : Uniform rows) :
    ∃ rows' after, scatter im rows = .ok (rows', after) ∧
      rows'.map List.length = rows.map List.length ∧ im.Continues after

theorem halftones_color : Halftones patternColor dots scatterColor where
  pattern := patternColor_planes
  dots := dots_planes
  scatter hs _ h := by
    obtain ⟨rows', after, heq, -, hlens, hafter⟩ := scatterColor_exact hs h
    exact ⟨rows', after, heq, hlens, hafter⟩

theorem halftones_gray : Halftones patternGray scatteredGray scatterGray where
  pattern := patternGray_planes
  dots := scatteredGray_planes
  scatter hs _ h := by
    obtain ⟨rows', after, heq, -, hlens, hafter⟩ := scatterGray_exact hs h
    exact ⟨rows', after, heq, hlens, hafter⟩

theorem halftoned_spec {π : Type} {N : ℕ}
    {pattern dots : Imager → List π → Checked (Vector Bytes N × Imager)}
    {scatter : Imager → List (List π) → Checked (List (List π) × Imager)}
    (h : Halftones pattern dots scatter) {im : Imager} (hs : im.Scatters) {rows : List (List π)}
    {w : ℕ} (hrows : ∀ row ∈ rows, row.length = w) :
    ∃ out after, halftoned pattern dots scatter im rows = .ok (out, after) ∧
      out.length = rows.length ∧ (∀ planes ∈ out, Planes (rowBytes w) planes) ∧
      im.Continues after := by
  unfold halftoned
  cases im.halftone with
  | pattern =>
    obtain ⟨out, after, heq, hlen, hplanes, hafter⟩ := eachRow_planes h.pattern im hrows
    exact ⟨out, after, heq, hlen, hplanes, hafter.continues hs⟩
  | diffusion =>
    obtain ⟨rows', mid, heq, hlens, hmid⟩ := h.scatter hs (uniform_of_length hrows)
    obtain ⟨hlen, hrows'⟩ := length_of_lengths hlens hrows
    obtain ⟨out, after, heq', hlen', hplanes, hafter⟩ := eachRow_planes h.dots mid hrows'
    refine ⟨out, after, ?_, hlen'.trans hlen, hplanes, hmid.trans (hafter.continues hmid.scatters)⟩
    dsimp only
    rw [heq, ok_bind]
    exact heq'

theorem deepBand_spec {im : Imager} (hs : im.Scatters) (top : ℕ) {w : ℕ} {rows : List SourceRow}
    (hrows : ∀ row ∈ rows, row.width = w) :
    ∃ band after, im.deepBand top w rows = .ok (band, after) ∧ Takes band top w rows.length ∧
      im.Continues after := by
  unfold deepBand
  by_cases hcolor : im.rendering = .color
  · have hinks : ∀ row ∈ rows.map im.separated, row.length = w := by simpa using hrows
    obtain ⟨planes, after, heq, hlen, hplanes, hafter⟩ := halftoned_spec halftones_color hs hinks
    rw [if_pos hcolor, heq, ok_bind]
    exact ⟨_, after, rfl, takes_ofPlanes (hlen.trans (List.length_map _)) hplanes, hafter⟩
  · have htones : ∀ row ∈ rows.map im.toned, row.length = w := by simpa using hrows
    obtain ⟨planes, after, heq, hlen, hplanes, hafter⟩ := halftoned_spec halftones_gray hs htones
    rw [if_neg hcolor, heq, ok_bind]
    exact ⟨_, after, rfl, takes_ofPlanes (hlen.trans (List.length_map _)) hplanes, hafter⟩

theorem lightened_width (row : SourceRow) : (lightened row).width = row.width := by
  cases row with
  | gray pixels => rfl
  | rgb pixels => exact List.length_map _

theorem lightenedBand_spec {im : Imager} (hs : im.Scatters) (top : ℕ) {w : ℕ}
    {rows : List SourceRow} (hrows : ∀ row ∈ rows, row.width = w) :
    ∃ band after, im.lightenedBand top w rows = .ok (band, after) ∧
      Takes band top w rows.length ∧ im.Continues after := by
  have hgray : Scatters { im with rendering := .grayscale } := ⟨hs.split, hs.color, hs.gray⟩
  have hlightened : ∀ row ∈ rows.map lightened, row.width = w := by
    simpa [lightened_width] using hrows
  obtain ⟨band, after, heq, htakes, hafter⟩ := deepBand_spec hgray top hlightened
  refine ⟨band, { after with rendering := im.rendering }, ?_, by simpa using htakes,
    hafter.family, rfl, ?_⟩
  · rw [lightenedBand, heq, ok_bind]
  · exact ⟨hafter.scatters.split, hafter.scatters.color, hafter.scatters.gray⟩

theorem takes_blackBand (top : ℕ) {w : ℕ} {rows : List SourceRow}
    (hrows : ∀ row ∈ rows, row.width = w) : Takes (blackBand top w rows) top w rows.length := by
  have hplanes : ∀ planes ∈ rows.map fun row => (#v[row.blackBits] : Vector Bytes 1),
      Planes (rowBytes w) planes := by
    intro planes hmem
    obtain ⟨row, hrow, rfl⟩ := List.mem_map.1 hmem
    have hw := hrows row hrow
    cases row <;> simpa [Planes, SourceRow.blackBits, SourceRow.width] using congrArg rowBytes hw
  exact takes_ofPlanes (List.length_map _) hplanes

theorem band_spec {im : Imager} (hs : im.Scatters) (top : ℕ) {w : ℕ} {rows : List SourceRow}
    (hrows : ∀ row ∈ rows, row.width = w) :
    ∃ band after, im.band top w rows = .ok (band, after) ∧ Takes band top w rows.length ∧
      im.Continues after := by
  unfold band
  split_ifs
  · exact deepBand_spec hs top hrows
  · exact lightenedBand_spec hs top hrows
  · exact ⟨_, im, rfl, takes_blackBand top hrows, .refl hs⟩

end Imager

/-! ## The bands of a page -/

/-- Row `y` is in the band. -/
def RawBand.has (band : RawBand) (y : ℕ) : Bool :=
  band.top ≤ y ∧ y < band.top + band.rows.length

/-- The bands from row `start` on: in order and apart, none of more rows than the engine takes, and
    every row with ink in exactly one. -/
structure Partition (page : Page) (maxRows : ℕ) (inked : ℕ → Prop) (start : ℕ)
    (bands : List RawBand) : Prop where
  bounds : ∀ band ∈ bands, start ≤ band.top ∧ band.top + band.rows.length ≤ page.height
  height : ∀ band ∈ bands, 0 < band.rows.length ∧ band.rows.length ≤ maxRows
  apart : bands.Pairwise fun a b => a.top + a.rows.length ≤ b.top
  once : ∀ y, start ≤ y → y < page.height → inked y → bands.countP (·.has y) = 1
  planes : ∀ band ∈ bands, band.width = page.width ∧ ∀ row ∈ band.rows,
    row.length = band.kind.planes ∧ ∀ plane ∈ row, plane.length = rowBytes page.width

namespace Partition

variable {page : Page} {maxRows : ℕ} {inked : ℕ → Prop} {top : ℕ} {bands : List RawBand}

theorem nil (h : page.height ≤ top) : Partition page maxRows inked top [] where
  bounds := by simp
  height := by simp
  apart := .nil
  once y hle hlt := by omega
  planes := by simp

/-- A row with nothing on it where a band would start. -/
theorem skip (h : Partition page maxRows inked (top + 1) bands) (hblank : ¬ inked top) :
    Partition page maxRows inked top bands where
  bounds band hband := by
    have := h.bounds band hband
    omega
  height := h.height
  apart := h.apart
  once y hle hlt hink := by
    rcases hle.eq_or_lt with rfl | hlt'
    · exact absurd hink hblank
    · exact h.once y hlt' hlt hink
  planes := h.planes

/-- A band and those that start below it. -/
theorem cons {band : RawBand} {n : ℕ} (hband : Takes band top page.width n) (hpos : 0 < n)
    (hmax : n ≤ maxRows) (hfit : top + n ≤ page.height)
    (h : Partition page maxRows inked (top + n) bands) :
    Partition page maxRows inked top (band :: bands) where
  bounds := by
    rw [List.forall_mem_cons, hband.top, hband.rows]
    refine ⟨⟨le_rfl, hfit⟩, fun below hbelow => ?_⟩
    have := h.bounds below hbelow
    omega
  height := by
    rw [List.forall_mem_cons, hband.rows]
    exact ⟨⟨hpos, hmax⟩, h.height⟩
  apart := by
    rw [List.pairwise_cons, hband.top, hband.rows]
    exact ⟨fun below hbelow => (h.bounds below hbelow).1, h.apart⟩
  once y hle hlt hink := by
    have hhas : band.has y = decide (y < top + n) := by
      simp [RawBand.has, hband.top, hband.rows, hle]
    rw [List.countP_cons, hhas]
    by_cases hin : y < top + n
    · have hbelow : bands.countP (·.has y) = 0 := by
        rw [List.countP_eq_zero]
        intro below hbelow
        have := h.bounds below hbelow
        simp only [RawBand.has, decide_eq_true_eq]
        omega
      simp [hin, hbelow]
    · simp [hin, h.once y (by omega) hlt hink]
  planes := by
    rw [List.forall_mem_cons]
    exact ⟨⟨hband.width, fun row hrow => ⟨band.planes row hrow, hband.plane row hrow⟩⟩, h.planes⟩

end Partition

namespace Imager

variable {im : Imager} {page : Page} {top : ℕ}

theorem bandEnd_bounds (im : Imager) (h : top < page.height) :
    im.bandEnd page top - top ≤ im.family.maxBandRows ∧
      top + (im.bandEnd page top - top) = im.bandEnd page top ∧
      im.bandEnd page top ≤ page.height := by
  have hlt : top < im.bandEnd page top := lt_bandEnd h
  unfold bandEnd at hlt ⊢
  omega

/-- The rows that come of the rows of a band. -/
theorem forall_of_mapM {α : Type} {f : ℕ → Checked α} {P : α → Prop} {ys : List ℕ} {rows : List α}
    (h : ys.mapM f = .ok rows) (hf : ∀ y row, f y = .ok row → P row) :
    rows.length = ys.length ∧ ∀ row ∈ rows, P row := by
  have hall := mapM_eq_ok.1 h
  refine ⟨hall.length_eq.symm, fun row hrow => ?_⟩
  obtain ⟨i, hi, rfl⟩ := List.getElem_of_mem hrow
  exact hf _ _ (List.Forall₂.get hall (hall.length_eq ▸ hi) hi)

theorem takes_blackAndWhite {rows : List Bytes} {w n : ℕ} (hn : rows.length = n)
    (h : ∀ row ∈ rows, row.length = rowBytes w) :
    Takes (.ofPlanes top w .mono (rows.map (#v[·]))) top w n := by
  refine takes_ofPlanes ((List.length_map _).trans hn) fun planes hplanes => ?_
  obtain ⟨row, hrow, rfl⟩ := List.mem_map.1 hplanes
  intro plane hplane
  obtain rfl : plane = row := List.mem_singleton.1 hplane
  exact h plane hrow

theorem blackAndWhiteBands_spec {bands : List RawBand}
    (h : im.blackAndWhiteBands page top = .ok bands) :
    Partition page im.family.maxBandRows (fun _ => True) top bands := by
  induction hleft : page.height - top using Nat.strong_induction_on generalizing top bands with
  | _ left ih =>
    rw [blackAndWhiteBands] at h
    split_ifs at h with hin
    · obtain ⟨rows, hrows, h⟩ := bind_eq_ok.1 h
      obtain ⟨rest, hrest, h⟩ := bind_eq_ok.1 h
      obtain rfl := Except.ok.inj h
      obtain ⟨hmax, hstop, hfit⟩ := im.bandEnd_bounds hin
      have hlt : top < im.bandEnd page top := lt_bandEnd hin
      obtain ⟨hlen, hlens⟩ := forall_of_mapM hrows fun y row => blackAndWhiteRow_length
      rw [List.length_range'] at hlen
      have hpart := ih (page.height - im.bandEnd page top) (by omega) hrest rfl
      exact .cons (takes_blackAndWhite hlen hlens) (by omega) hmax (by omega) (hstop.symm ▸ hpart)
    · obtain rfl := Except.ok.inj h
      exact .nil (by omega)

theorem returns_blackAndWhiteBands (hpage : page.WellFormed) :
    Returns (im.blackAndWhiteBands page top) := by
  induction hleft : page.height - top using Nat.strong_induction_on generalizing top with
  | _ left ih =>
    rw [blackAndWhiteBands]
    split_ifs with hin
    · have hlt : top < im.bandEnd page top := lt_bandEnd hin
      obtain ⟨-, -, hfit⟩ := im.bandEnd_bounds hin
      have hrow : ∀ y ∈ List.range' top (im.bandEnd page top - top),
          Returns (im.blackAndWhiteRow page y) := by
        intro y hy
        rw [List.mem_range'_1] at hy
        exact returns_blackAndWhiteRow im hpage (by omega)
      obtain ⟨rows, hrows⟩ := returns_mapM hrow
      obtain ⟨rest, hrest⟩ := ih (page.height - im.bandEnd page top) (by omega) rfl
      dsimp only
      rw [hrows, ok_bind, hrest, ok_bind]
      exact returns_ok _
    · exact returns_ok _

theorem bandsFrom_spec (hs : im.Scatters) {bands : List RawBand} {after : Imager}
    (h : im.bandsFrom page top = .ok (bands, after)) :
    Partition page im.family.maxBandRows page.Inked top bands ∧ im.Continues after := by
  induction hleft : page.height - top using Nat.strong_induction_on
    generalizing im top bands after with
  | _ left ih =>
    rw [bandsFrom] at h
    split_ifs at h with hin
    · obtain ⟨first, hfirst, h⟩ := bind_eq_ok.1 h
      obtain ⟨hwidth, hblank⟩ := sourceRow_spec hfirst
      split_ifs at h with hskip
      · obtain ⟨hpart, hafter⟩ := ih (page.height - (top + 1)) (by omega) hs h rfl
        have hink : ¬ page.Inked top := by
          rw [← hblank, hskip]
          decide
        exact ⟨hpart.skip hink, hafter⟩
      · obtain ⟨rows, hrows, h⟩ := bind_eq_ok.1 h
        obtain ⟨hmax, hstop, hfit⟩ := im.bandEnd_bounds hin
        have hlt : top < im.bandEnd page top := lt_bandEnd hin
        obtain ⟨hlen, hwidths⟩ := forall_of_mapM (P := fun row => row.width = page.width) hrows
          fun y row hrow => (sourceRow_spec hrow).1
        rw [List.length_range'] at hlen
        obtain ⟨band, mid, hband, htakes, hmid⟩ := band_spec hs top
          (List.forall_mem_cons.2 ⟨hwidth, hwidths⟩)
        rw [hband, ok_bind] at h
        obtain ⟨⟨rest, last⟩, hrest, h⟩ := bind_eq_ok.1 h
        obtain ⟨rfl, rfl⟩ := Prod.mk.inj (Except.ok.inj h)
        obtain ⟨hpart, hlast⟩ :=
          ih (page.height - im.bandEnd page top) (by omega) hmid.scatters hrest rfl
        rw [hmid.family] at hpart
        have hn : (first :: rows).length = im.bandEnd page top - top := by
          rw [List.length_cons]
          omega
        rw [hn] at htakes
        exact ⟨.cons htakes (by omega) hmax (by omega) (hstop.symm ▸ hpart), hmid.trans hlast⟩
    · obtain ⟨rfl, rfl⟩ := Prod.mk.inj (Except.ok.inj h)
      exact ⟨.nil (by omega), .refl hs⟩

theorem returns_bandsFrom (hs : im.Scatters) (hpage : page.WellFormed) :
    Returns (im.bandsFrom page top) := by
  induction hleft : page.height - top using Nat.strong_induction_on generalizing im top with
  | _ left ih =>
    rw [bandsFrom]
    split_ifs with hin
    · obtain ⟨first, hfirst⟩ := returns_sourceRow im hpage hin
      rw [hfirst, ok_bind]
      split_ifs with hskip
      · exact ih (page.height - (top + 1)) (by omega) hs rfl
      · have hlt : top < im.bandEnd page top := lt_bandEnd hin
        obtain ⟨-, -, hfit⟩ := im.bandEnd_bounds hin
        have hrow : ∀ y ∈ List.range' (top + 1) (im.bandEnd page top - (top + 1)),
            Returns (im.sourceRow page y) := by
          intro y hy
          rw [List.mem_range'_1] at hy
          exact returns_sourceRow im hpage (by omega)
        obtain ⟨rows, hrows⟩ := returns_mapM hrow
        obtain ⟨-, hwidths⟩ := forall_of_mapM (P := fun row => row.width = page.width) hrows
          fun y row hrow => (sourceRow_spec hrow).1
        obtain ⟨band, mid, hband, -, hmid⟩ := band_spec hs top
          (List.forall_mem_cons.2 ⟨(sourceRow_spec hfirst).1, hwidths⟩)
        obtain ⟨⟨rest, last⟩, hrest⟩ :=
          ih (page.height - im.bandEnd page top) (by omega) hmid.scatters rfl
        dsimp only
        rw [hrows, ok_bind, hband, ok_bind]
        dsimp only
        rw [hrest, ok_bind]
        exact returns_ok _
    · exact returns_ok _

/-- The rows of a page that a job prints: all of them in black and white, else those with ink. -/
def Prints (rendering : Rendering) (page : Page) (y : ℕ) : Prop :=
  rendering = .blackAndWhite ∨ page.Inked y

theorem bands_spec (hs : im.Scatters) {bands : List RawBand} {after : Imager}
    (h : im.bands page = .ok (bands, after)) :
    Partition page im.family.maxBandRows (Prints im.rendering page) 0 bands ∧
      im.Continues after := by
  have hs' : Scatters { im with patternRows := 0 } := ⟨hs.split, hs.color, hs.gray⟩
  unfold Imager.bands at h
  dsimp only at h
  split_ifs at h with hblack
  · obtain ⟨found, hfound, h⟩ := bind_eq_ok.1 h
    obtain ⟨rfl, rfl⟩ := Prod.mk.inj (Except.ok.inj h)
    have hpart := blackAndWhiteBands_spec hfound
    exact ⟨{ hpart with once := fun y hle hlt _ => hpart.once y hle hlt trivial }, rfl, rfl, hs'⟩
  · obtain ⟨hpart, hafter⟩ := bandsFrom_spec hs' h
    refine ⟨{ hpart with once := fun y hle hlt hink => ?_ },
      hafter.family, hafter.rendering, hafter.scatters⟩
    exact hpart.once y hle hlt (hink.resolve_left hblack)

theorem returns_bands (hs : im.Scatters) (hpage : page.WellFormed) : Returns (im.bands page) := by
  unfold Imager.bands
  dsimp only
  split_ifs
  · exact (returns_bind_iff fun _ => returns_ok _).2 (returns_blackAndWhiteBands hpage)
  · exact returns_bandsFrom ⟨hs.split, hs.color, hs.gray⟩ hpage

theorem pages_spec (hs : im.Scatters) {pages : List Page} {out : List (List RawBand)}
    {after : Imager} (h : im.pages pages = .ok (out, after)) :
    List.Forall₂ (fun page => Partition page im.family.maxBandRows (Prints im.rendering page) 0)
      pages out := by
  induction pages generalizing im out with
  | nil =>
    obtain ⟨rfl, -⟩ := Prod.mk.inj (Except.ok.inj h)
    exact .nil
  | cons page pages ih =>
    obtain ⟨⟨bands, mid⟩, hbands, h⟩ := bind_eq_ok.1 h
    obtain ⟨⟨more, last⟩, hmore, h⟩ := bind_eq_ok.1 h
    obtain ⟨rfl, rfl⟩ := Prod.mk.inj (Except.ok.inj h)
    obtain ⟨hpart, hmid⟩ := bands_spec hs hbands
    have hrest := ih hmid.scatters hmore
    rw [hmid.family, hmid.rendering] at hrest
    exact .cons hpart hrest

theorem returns_pages (hs : im.Scatters) {pages : List Page}
    (hpages : ∀ page ∈ pages, page.WellFormed) : Returns (im.pages pages) := by
  induction pages generalizing im with
  | nil => exact returns_ok _
  | cons page pages ih =>
    rw [List.forall_mem_cons] at hpages
    obtain ⟨⟨bands, mid⟩, hbands⟩ := returns_bands hs hpages.1
    obtain ⟨⟨more, last⟩, hmore⟩ := ih (bands_spec hs hbands).2.scatters hpages.2
    rw [Imager.pages, hbands, ok_bind]
    dsimp only
    rw [hmore, ok_bind]
    exact returns_ok _

/-- A job images every page that holds its rows, one after another, and the bands of each are a
    partition of its rows, in black and white all of them and else those with any ink.  No page
    is ever imaged otherwise. -/
theorem bands_partition (family : StyleWriterFamily) (job : JobOptions) (pages : List Page) :
    ((∀ page ∈ pages, page.WellFormed) → Returns ((new family job).pages pages)) ∧
      ∀ out after, (new family job).pages pages = .ok (out, after) →
        List.Forall₂
          (fun page => Partition page family.maxBandRows (Prints job.rendering page) 0) pages out :=
  ⟨returns_pages (scatters_new family job), fun _ _ h => pages_spec (scatters_new family job) h⟩

/-- A blank row between two of three gray pixels. -/
def grayPage : Page := ⟨3, 3, .gray [0, 128, 255, 255, 255, 255, 64, 255, 255]⟩

theorem bands_partition_grayPage : ∃ out after,
    (new .styleWriterII ⟨.grayscale, .normal, .plain, .diffusion⟩).pages [grayPage] =
        .ok (out, after) ∧
      List.Forall₂ (fun page => Partition page StyleWriterFamily.styleWriterII.maxBandRows
        (Prints .grayscale page) 0) [grayPage] out := by
  obtain ⟨hreturns, hparts⟩ :=
    bands_partition .styleWriterII ⟨.grayscale, .normal, .plain, .diffusion⟩ [grayPage]
  have hwell : ∀ page ∈ [grayPage], page.WellFormed := by
    intro page hpage
    obtain rfl := List.mem_singleton.1 hpage
    rfl
  obtain ⟨⟨out, after⟩, hpages⟩ := hreturns hwell
  exact ⟨out, after, hpages, hparts out after hpages⟩

end Imager

end TailTalk.StyleWriter
