/-
  Rows of a page as they are drawn: one is as wide as the page, blank exactly
  if there is no ink in it, and there is one for every row of a page that holds
  its rows.
-/
import TailTalk.StyleWriter.Mirror

namespace TailTalk.StyleWriter

open Lib

/-- The dots across a row. -/
def SourceRow.width : SourceRow → ℕ
  | gray pixels => pixels.length
  | rgb pixels => pixels.length

theorem le_rowBytes (w : ℕ) : w ≤ 8 * rowBytes w := by
  unfold rowBytes
  omega

/-- Every pixel of a row is in its bytes. -/
theorem lt_rowBytes {α : Type} {row : List α} {px : α × ℕ} (h : px ∈ row.zipIdx) :
    px.2 < 8 * rowBytes row.length := by
  have hlt := List.snd_lt_of_mem_zipIdx h
  unfold rowBytes
  omega

theorem setPixel_eq {row : Bytes} {x : ℕ} (h : x < 8 * row.length) :
    setPixel row x = .ok (setAt row x) := if_pos (by omega)

/-! ## Rows as they are drawn -/

namespace Page

/-- The bytes of a page. -/
def bytes (page : Page) : Bytes :=
  match page.pixels with
  | .blackAndWhite bits => bits
  | .gray gray => gray
  | .rgb rgb => rgb

/-- The bytes of a row. -/
def stride (page : Page) : ℕ :=
  match page.pixels with
  | .blackAndWhite _ => rowBytes page.width
  | .gray _ => page.width
  | .rgb _ => page.width * 3

/-- Those of a row. -/
def rowAt (page : Page) (y : ℕ) : Bytes := (page.bytes.drop (y * page.stride)).take page.stride

/-- The page holds its rows and nothing else. -/
def WellFormed (page : Page) : Prop := page.bytes.length = page.height * page.stride

/-- Anything but white in row `y`. -/
def Inked (page : Page) (y : ℕ) : Prop :=
  match page.pixels with
  | .blackAndWhite _ => ∃ x < page.width, bitAt (page.rowAt y) x
  | _ => ∃ c ∈ page.rowAt y, c ≠ 0xFF

/-- The slice of a row. -/
def sliceAt (page : Page) (y : ℕ) : Checked Bytes :=
  slice page.bytes (y * page.stride) ((y + 1) * page.stride)

theorem sliceAt_eq {page : Page} {y : ℕ} {row : Bytes} (h : page.sliceAt y = .ok row) :
    row = page.rowAt y ∧ row.length = page.stride := by
  have hroom := (returns_slice _ _ _).1 ⟨row, h⟩
  have hstop : (y + 1) * page.stride = y * page.stride + page.stride := by ring
  rw [sliceAt, slice_eq hroom.1 hroom.2, hstop, List.drop_take, Nat.add_sub_cancel_left] at h
  obtain rfl := Except.ok.inj h
  refine ⟨rfl, ?_⟩
  rw [List.length_take, List.length_drop]
  omega

theorem returns_sliceAt {page : Page} (h : page.WellFormed) {y : ℕ} (hy : y < page.height) :
    Returns (page.sliceAt y) := by
  have hle : (y + 1) * page.stride ≤ page.height * page.stride := Nat.mul_le_mul_right _ hy
  exact (returns_slice _ _ _).2 ⟨Nat.mul_le_mul_right _ (by omega), h.symm ▸ hle⟩

end Page

theorem asPixels_length : ∀ bytes : Bytes, (asPixels bytes).length = bytes.length / 3
  | r :: g :: b :: rest => by
    rw [asPixels, List.length_cons, asPixels_length rest]
    simp only [List.length_cons]
    omega
  | [] => by simp [asPixels]
  | [_] => by simp [asPixels]
  | [_, _] => by simp [asPixels]

theorem eq_white (r g b : UInt8) :
    (#v[r, g, b] : Rgb) = WHITE ↔ r = 0xFF ∧ g = 0xFF ∧ b = 0xFF := by
  have hwhite : WHITE = #v[0xFF, 0xFF, 0xFF] := rfl
  rw [hwhite]
  simp

theorem asPixels_blank : ∀ bytes : Bytes, bytes.length % 3 = 0 →
    ((asPixels bytes).all (· == WHITE) ↔ ∀ c ∈ bytes, c = 0xFF)
  | r :: g :: b :: rest, h => by
    have ih := asPixels_blank rest (by simp only [List.length_cons] at h; omega)
    simp only [asPixels, List.all_cons, Bool.and_eq_true, beq_iff_eq, eq_white, ih,
      List.forall_mem_cons]
    tauto
  | [], _ => by simp [asPixels]

/-- Only white is as light as white. -/
theorem luma_white (px : Rgb) : luma px = 0xFF ↔ px = WHITE := by
  obtain ⟨r, g, b, rfl⟩ : ∃ r g b, px = #v[r, g, b] := by
    refine ⟨px.get 0, px.get 1, px.get 2, ?_⟩
    ext i hi
    interval_cases i <;> rfl
  rw [eq_white, ← UInt8.toNat_inj, ← UInt8.toNat_inj (a := r), ← UInt8.toNat_inj (a := g),
    ← UInt8.toNat_inj (a := b)]
  have hr := r.toNat_lt
  have hg := g.toNat_lt
  have hb := b.toNat_lt
  have hlight : (luma #v[r, g, b]).toNat =
      (r.toNat * 30 + g.toNat * 59 + b.toNat * 11) / 100 := by
    have hlt : (r.toNat * 30 + g.toNat * 59 + b.toNat * 11) / 100 < 2 ^ 8 := by omega
    exact (UInt8.toNat_ofNat' ..).trans (Nat.mod_eq_of_lt hlt)
  rw [hlight]
  simp only [UInt8.reduceToNat]
  omega

theorem getPixels_eq {row : Bytes} {w : ℕ} {pixels : List Bool}
    (h : (List.range w).mapM (getPixel row) = .ok pixels) (hw : w ≤ 8 * row.length) :
    pixels = (List.range w).map (bitAt row) := by
  have hall : List.Forall₂ (fun x px => getPixel row x = .ok px) (List.range w)
      ((List.range w).map (bitAt row)) := by
    rw [List.forall₂_map_right_iff, List.forall₂_same]
    intro x hx
    exact getPixel_eq (by rw [List.mem_range] at hx; omega)
  exact Except.ok.inj (h.symm.trans (mapM_eq_ok.2 hall))

theorem SourceRow.width_reverse (row : SourceRow) : row.reverse.width = row.width := by
  cases row <;> exact List.length_reverse

theorem SourceRow.blank_reverse (row : SourceRow) : row.reverse.blank = row.blank := by
  cases row <;> exact List.all_reverse

namespace Imager

/-- What a row is drawn as before it is mirrored. -/
def drawn (im : Imager) (page : Page) (bytes : Bytes) : Checked SourceRow :=
  match page.pixels, im.rendering with
  | .rgb _, .color => .ok (.rgb (asPixels bytes))
  | .rgb _, _ => .ok (.gray ((asPixels bytes).map luma))
  | .gray _, .color => .ok (.rgb (bytes.map (.replicate 3 ·)))
  | .gray _, _ => .ok (.gray bytes)
  | .blackAndWhite _, _ => do
    let pixels ← (List.range page.width).mapM (getPixel bytes)
    .ok (.gray (pixels.map fun black => if black then 0 else 0xFF))

theorem sourceRow_eq (im : Imager) (page : Page) (y : ℕ) :
    im.sourceRow page y = page.sliceAt y >>= fun bytes => im.drawn page bytes >>= fun row =>
      .ok (if im.mirrored then row.reverse else row) := by
  unfold sourceRow drawn Page.sliceAt Page.bytes Page.stride
  obtain ⟨w, height, pixels⟩ := page
  generalize im.rendering = rendering
  cases pixels with
  | blackAndWhite bits => cases rendering <;> simp only [bind_assoc, ok_bind]
  | gray gray => cases rendering <;> simp only [ok_bind]
  | rgb rgb => cases rendering <;> simp only [ok_bind, Nat.mul_assoc]

theorem not_blank_gray (pixels : Bytes) :
    (SourceRow.gray pixels).blank = false ↔ ∃ c ∈ pixels, c ≠ 0xFF := by
  simp [SourceRow.blank]

/-- Grays drawn in color. -/
theorem not_blank_replicate (pixels : Bytes) :
    (SourceRow.rgb (pixels.map (.replicate 3 ·))).blank = false ↔ ∃ c ∈ pixels, c ≠ 0xFF := by
  have hwhite (c : UInt8) : (Vector.replicate 3 c : Rgb) = WHITE ↔ c = 0xFF :=
    (eq_white c c c).trans (by simp)
  simp [SourceRow.blank, hwhite]

theorem not_blank_rgb {bytes : Bytes} (h : bytes.length % 3 = 0) :
    (SourceRow.rgb (asPixels bytes)).blank = false ↔ ∃ c ∈ bytes, c ≠ 0xFF := by
  have hblank := asPixels_blank bytes h
  rw [SourceRow.blank, ← Bool.not_eq_true, hblank]
  push Not
  rfl

/-- Colors drawn in gray. -/
theorem not_blank_luma {bytes : Bytes} (h : bytes.length % 3 = 0) :
    (SourceRow.gray ((asPixels bytes).map luma)).blank = false ↔ ∃ c ∈ bytes, c ≠ 0xFF := by
  rw [← not_blank_rgb h, not_blank_gray]
  simp [SourceRow.blank, luma_white]

theorem drawn_spec {im : Imager} {page : Page} {y : ℕ} {row : SourceRow}
    (hlen : (page.rowAt y).length = page.stride) (h : im.drawn page (page.rowAt y) = .ok row) :
    row.width = page.width ∧ (row.blank = false ↔ page.Inked y) := by
  unfold Page.Inked
  unfold drawn at h
  unfold Page.stride at hlen
  generalize page.rowAt y = bytes at hlen h ⊢
  obtain ⟨w, height, pixels⟩ := page
  generalize im.rendering = rendering at h
  cases pixels with
  | blackAndWhite bits =>
    replace h : ((List.range w).mapM (getPixel bytes) >>= fun pixels =>
        (.ok (.gray (pixels.map fun black => if black then 0 else 0xFF)) : Checked SourceRow)) =
        .ok row := by
      cases rendering <;> exact h
    obtain ⟨pixels, hpixels, hrow⟩ := bind_eq_ok.1 h
    obtain rfl := Except.ok.inj hrow
    rw [getPixels_eq hpixels (hlen ▸ le_rowBytes w), not_blank_gray]
    simp [SourceRow.width]
  | gray gray =>
    cases rendering with
    | color =>
      obtain rfl := Except.ok.inj h
      exact ⟨(List.length_map _).trans hlen, not_blank_replicate bytes⟩
    | _ =>
      obtain rfl := Except.ok.inj h
      exact ⟨hlen, not_blank_gray bytes⟩
  | rgb rgb =>
    have hthree : bytes.length % 3 = 0 := by rw [hlen, Nat.mul_mod_left]
    have hcount : (asPixels bytes).length = w := by
      rw [asPixels_length, hlen, Nat.mul_div_cancel _ (by decide)]
    cases rendering with
    | color =>
      obtain rfl := Except.ok.inj h
      exact ⟨hcount, not_blank_rgb hthree⟩
    | _ =>
      obtain rfl := Except.ok.inj h
      exact ⟨(List.length_map _).trans hcount, not_blank_luma hthree⟩

theorem sourceRow_spec {im : Imager} {page : Page} {y : ℕ} {row : SourceRow}
    (h : im.sourceRow page y = .ok row) :
    row.width = page.width ∧ (row.blank = false ↔ page.Inked y) := by
  rw [sourceRow_eq] at h
  obtain ⟨bytes, hbytes, h⟩ := bind_eq_ok.1 h
  obtain ⟨rfl, hlen⟩ := Page.sliceAt_eq hbytes
  obtain ⟨drawn, hdrawn, hrow⟩ := bind_eq_ok.1 h
  have hspec := drawn_spec hlen hdrawn
  obtain rfl := Except.ok.inj hrow
  split_ifs
  · rwa [SourceRow.width_reverse, SourceRow.blank_reverse]
  · exact hspec

theorem returns_sourceRow (im : Imager) {page : Page} (hpage : page.WellFormed) {y : ℕ}
    (hy : y < page.height) : Returns (im.sourceRow page y) := by
  obtain ⟨bytes, hbytes⟩ := Page.returns_sliceAt hpage hy
  obtain ⟨-, hlen⟩ := Page.sliceAt_eq hbytes
  rw [sourceRow_eq, hbytes, ok_bind]
  refine (returns_bind_iff fun row => returns_ok _).2 ?_
  unfold drawn
  unfold Page.stride at hlen
  obtain ⟨w, height, pixels⟩ := page
  cases pixels with
  | blackAndWhite bits =>
    have hpixels : Returns ((List.range w).mapM (getPixel bytes)) := returns_mapM fun x hx => by
      have hw := le_rowBytes w
      rw [List.mem_range] at hx
      exact ⟨_, getPixel_eq (by dsimp only at hlen; omega)⟩
    generalize im.rendering = rendering
    cases rendering <;> exact (returns_bind_iff fun _ => returns_ok _).2 hpixels
  | gray gray => cases im.rendering <;> exact returns_ok _
  | rgb rgb => cases im.rendering <;> exact returns_ok _

/-! ## Black and white rows -/

theorem setPixels_length (xs : List (UInt8 × ℕ)) (bits : Bytes)
    (h : ∀ px ∈ xs, px.2 < 8 * bits.length) :
    ∃ out, xs.foldlM (fun bits px => setPixel bits px.2) bits = .ok out ∧
      out.length = bits.length := by
  induction xs generalizing bits with
  | nil => exact ⟨bits, rfl, rfl⟩
  | cons px xs ih =>
    rw [List.forall_mem_cons] at h
    obtain ⟨out, hout, hlen⟩ := ih (setAt bits px.2) (by simpa using h.2)
    refine ⟨out, ?_, by simpa using hlen⟩
    rw [List.foldlM_cons, setPixel_eq h.1, ok_bind, hout]

theorem darkBits_length {w : ℕ} {row : SourceRow} (h : row.width = w) :
    ∃ bits, darkBits w row = .ok bits ∧ bits.length = rowBytes w := by
  cases row with
  | rgb pixels => exact ⟨_, rfl, List.length_replicate⟩
  | gray pixels =>
    obtain rfl : pixels.length = w := h
    obtain ⟨out, hout, hlen⟩ := setPixels_length (pixels.zipIdx.filter (·.1 < 0x80))
      (.replicate (rowBytes pixels.length) 0) (by
        intro px hpx
        rw [List.length_replicate]
        exact lt_rowBytes (List.mem_of_mem_filter hpx))
    exact ⟨out, hout, by simpa using hlen⟩

/-- A row of a page that is black and white already. -/
def mirroredBits (im : Imager) (width : ℕ) (row : Bytes) : Checked Bytes :=
  if im.mirrored then mirrorBits row width else .ok row

theorem mirroredBits_length (im : Imager) {w : ℕ} {row : Bytes} (h : row.length = rowBytes w) :
    ∃ out, im.mirroredBits w row = .ok out ∧ out.length = rowBytes w := by
  unfold mirroredBits
  split_ifs
  · obtain ⟨out, hout, hlen, -⟩ := mirrorBits_eq (h ▸ le_rowBytes w)
    exact ⟨out, hout, hlen.trans h⟩
  · exact ⟨row, rfl, h⟩

theorem blackAndWhiteRow_eq (im : Imager) (page : Page) (y : ℕ) :
    im.blackAndWhiteRow page y =
      match page.pixels with
      | .blackAndWhite _ => page.sliceAt y >>= im.mirroredBits page.width
      | _ => im.sourceRow page y >>= darkBits page.width := by
  obtain ⟨w, height, pixels⟩ := page
  cases pixels <;> rfl

theorem blackAndWhiteRow_length {im : Imager} {page : Page} {y : ℕ} {row : Bytes}
    (h : im.blackAndWhiteRow page y = .ok row) : row.length = rowBytes page.width := by
  rw [blackAndWhiteRow_eq] at h
  have hdark (hsource : im.sourceRow page y >>= darkBits page.width = .ok row) :
      row.length = rowBytes page.width := by
    obtain ⟨source, heq, hbits⟩ := bind_eq_ok.1 hsource
    obtain ⟨bits, hbits', hlen⟩ := darkBits_length (sourceRow_spec heq).1
    rwa [Except.ok.inj (hbits.symm.trans hbits')]
  cases hpixels : page.pixels with
  | blackAndWhite bits =>
    rw [hpixels] at h
    obtain ⟨bytes, hbytes, hout⟩ := bind_eq_ok.1 h
    have hlen : bytes.length = rowBytes page.width := by
      have hstride := (Page.sliceAt_eq hbytes).2
      rwa [Page.stride, hpixels] at hstride
    obtain ⟨out, hout', hlen'⟩ := im.mirroredBits_length hlen
    rwa [Except.ok.inj (hout.symm.trans hout')]
  | gray gray => exact hdark (by rwa [hpixels] at h)
  | rgb rgb => exact hdark (by rwa [hpixels] at h)

theorem returns_blackAndWhiteRow (im : Imager) {page : Page} (hpage : page.WellFormed) {y : ℕ}
    (hy : y < page.height) : Returns (im.blackAndWhiteRow page y) := by
  rw [blackAndWhiteRow_eq]
  have hdark : Returns (im.sourceRow page y >>= darkBits page.width) := by
    obtain ⟨source, heq⟩ := returns_sourceRow im hpage hy
    obtain ⟨bits, hbits, -⟩ := darkBits_length (sourceRow_spec heq).1
    exact (returns_bind _ _).2 ⟨source, heq, bits, hbits⟩
  cases hpixels : page.pixels with
  | blackAndWhite bits =>
    obtain ⟨bytes, hbytes⟩ := Page.returns_sliceAt hpage hy
    have hlen : bytes.length = rowBytes page.width := by
      have hstride := (Page.sliceAt_eq hbytes).2
      rwa [Page.stride, hpixels] at hstride
    obtain ⟨out, hout, -⟩ := im.mirroredBits_length hlen
    exact (returns_bind _ _).2 ⟨bytes, hbytes, out, hout⟩
  | gray gray => exact hdark
  | rgb rgb => exact hdark

end Imager

end TailTalk.StyleWriter
