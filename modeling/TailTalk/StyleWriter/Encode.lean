/-
  The StyleWriter raster format — run-length coded rows and the blocks they go
  out in.

  A plane of a row is coded as literals, repeats and runs of white or black; a
  blank plane is one code of no count.  On all printers but the original, every
  row of a band but its first is coded as its difference from the row before.
-/
import TailTalk.Lib.Bytes
import Mathlib

namespace TailTalk.StyleWriter

open Lib

/-! ## Printers -/

/-- The color printers. -/
inductive ColorModel where
  | cs1500
  | cs2200
  | cs2400
  | cs2500
  | unknown

/-- The printers. -/
inductive StyleWriterFamily where
  | color (model : ColorModel)
  | styleWriterII
  | styleWriter1200
  | original

/-- What a band carries: black alone, or cyan, magenta, yellow and black. -/
inductive BandKind where
  | mono
  | color
deriving DecidableEq

/-- How many planes a row has. -/
def BandKind.planes : BandKind → ℕ
  | mono => 1
  | color => 4

/-- The room of a block. -/
def COLOR_BLOCK_ROOM_MONO : ℕ := 0x7E77

/-- The same in color. -/
def COLOR_BLOCK_ROOM_COLOR : ℕ := 0x79FA

/-- Less a row of every plane in the block. -/
def BLOCK_ROOM_1200 : ℕ := 0x76ED

namespace StyleWriterFamily

/-- The printers with the newer engine. -/
def is1200Series : StyleWriterFamily → Bool
  | color .cs2200 | color .cs2400 | color .cs2500 | color .unknown => false
  | _ => true

/-- Each row is sent as its difference from the one before. -/
def deltaRows : StyleWriterFamily → Bool
  | original => false
  | _ => true

/-- How big a block grows before it goes out; a row too wide for a block is an overflow. -/
def blockRoom (family : StyleWriterFamily) (kind : BandKind) (rowBytes : ℕ) : Option ℕ :=
  if family.is1200Series then
    if BLOCK_ROOM_1200 < rowBytes * kind.planes then none
    else some (BLOCK_ROOM_1200 - rowBytes * kind.planes)
  else
    match kind with
    | .mono => some COLOR_BLOCK_ROOM_MONO
    | .color => some COLOR_BLOCK_ROOM_COLOR

end StyleWriterFamily

/-! ## Coding a plane -/

/-- The bytes a block adds to its rows. -/
def G_FRAMING : ℕ := 4

/-- The longest count one code carries. -/
def MAX_RUN : ℕ := 0x3E

/-- The codes. -/
def DATA_WHITE : UInt8 := 0x00
def DATA_BLACK : UInt8 := 0xFF
def MASK_LITERAL : UInt8 := 0x00
def MASK_REPEAT : UInt8 := 0x40
def MASK_RUNWHT : UInt8 := 0x80
def MASK_RUNBLK : UInt8 := 0xC0

/-- `row` cut or padded with white to `len` bytes. -/
def resize (row : Bytes) (len : ℕ) : Bytes :=
  row.take len ++ List.replicate (len - row.length) DATA_WHITE

/-- How many of the first `left` bytes are `a`, one after another. -/
def runLength (a : UInt8) : ℕ → Bytes → ℕ
  | left + 1, c :: rest => if c = a then runLength a left rest + 1 else 0
  | _, _ => 0

/-- How far a literal goes: up to the next pair of white or black bytes or three of any other. -/
def literalLength (prev : UInt8) (n : ℕ) : ℕ → Bytes → ℕ
  | left + 1, c :: rest =>
    if c ≠ prev then literalLength c (n + 1) left rest
    else if c = DATA_WHITE ∨ c = DATA_BLACK ∨ (0 < left ∧ rest.head? = some c) then n + 1 - 2
    else literalLength prev (n + 1) left rest
  | _, _ => n

theorem literalLength_pos {prev : UInt8} {n : ℕ} (hn : 2 ≤ n) (left : ℕ) (rest : Bytes) :
    0 < literalLength prev n left rest := by
  induction left generalizing prev n rest with
  | zero =>
    cases rest <;> simp only [literalLength] <;> omega
  | succ left ih =>
    cases rest with
    | nil =>
      simp only [literalLength]
      omega
    | cons c rest =>
      rw [literalLength]
      split_ifs
      · exact ih (by omega) rest
      · omega
      · exact ih (by omega) rest

/-- The loop over a row that is not all white. -/
def codes : Bytes → Bytes
  | [] => []
  | [a] => [MASK_LITERAL + 1, a]
  | a :: b :: rest =>
    let left := min (rest.length + 2) MAX_RUN - 2
    if a = b ∧ (a = DATA_WHITE ∨ a = DATA_BLACK) then
      let run := runLength a left rest
      let mask := if a = DATA_WHITE then MASK_RUNWHT else MASK_RUNBLK
      (mask + UInt8.ofNat (run + 2)) :: codes (rest.drop run)
    else if a = b ∧ 3 ≤ left ∧ rest.head? = some b then
      let run := runLength b left rest
      (MASK_REPEAT + UInt8.ofNat (run + 2)) :: b :: codes (rest.drop run)
    else
      let n := literalLength b 2 left rest
      (MASK_LITERAL + UInt8.ofNat n) :: ((a :: b :: rest).take n ++ codes ((a :: b :: rest).drop n))
termination_by row => row.length
decreasing_by
  · simp only [List.length_drop, List.length_cons]
    omega
  · simp only [List.length_drop, List.length_cons]
    omega
  · have hpos := @literalLength_pos b 2 le_rfl (min (rest.length + 2) MAX_RUN - 2) rest
    simp only [List.length_drop, List.length_cons]
    omega

/-- Code one plane of a row, padded to `widthBytes`.  A blank plane is a single code. -/
def scanline (src : Bytes) (widthBytes : ℕ) : Bytes :=
  let row := resize src widthBytes
  if row.all (· == DATA_WHITE) then [MASK_RUNWHT] else codes row

/-! ## Coding a band -/

/-- One band before it is coded: its rows, each of as many planes as its kind has. -/
structure RawBand where
  top : ℕ
  /-- dots across -/
  width : ℕ
  kind : BandKind
  rows : List (List Bytes)
  planes : ∀ row ∈ rows, row.length = kind.planes

/-- The bytes of a row. -/
def RawBand.rowBytes (raw : RawBand) : ℕ := (raw.width + 7) / 8

/-- A band, its rows coded. -/
structure Band where
  top : UInt16
  width : UInt16
  kind : BandKind
  rows : List Bytes

/-- A plane of a row as it is coded, `before` being the same plane of the row before. -/
def difference (family : StyleWriterFamily) (rowBytes : ℕ) (before : Option Bytes)
    (plane : Bytes) : Bytes :=
  let row := resize plane rowBytes
  match before with
  | some before =>
    if family.deltaRows then List.zipWith (· ^^^ ·) row (resize before rowBytes) else row
  | none => row

/-- The planes of a row, coded one after another from plane `i` on. -/
def encodePlanes (family : StyleWriterFamily) (rowBytes : ℕ) (last : Option (List Bytes)) :
    ℕ → List Bytes → Bytes
  | _, [] => []
  | i, plane :: planes =>
    scanline (difference family rowBytes (last.map (·.getD i [])) plane) rowBytes ++
      encodePlanes family rowBytes last (i + 1) planes

/-- The rows, each coded with the one before at hand. -/
def encodeRows (family : StyleWriterFamily) (rowBytes : ℕ) :
    Option (List Bytes) → List (List Bytes) → List Bytes
  | _, [] => []
  | last, planes :: rows =>
    encodePlanes family rowBytes last 0 planes :: encodeRows family rowBytes (some planes) rows

/-- All rows of a band. -/
def encodeBand (raw : RawBand) (family : StyleWriterFamily) : Band where
  top := UInt16.ofNat raw.top
  width := UInt16.ofNat raw.width
  kind := raw.kind
  rows := encodeRows family raw.rowBytes none raw.rows

/-! ## Blocks -/

/-- `G`, the length, the rows and a zero byte. -/
def gBlock (coded : Bytes) : Bytes :=
  0x47 :: UInt8.ofNat coded.length :: UInt8.ofNat (coded.length / 256) :: (coded ++ [0x00])

/-- The rows of each block, `block` being those of the one that has not gone yet. -/
def blockData (room : ℕ) (block : Bytes) : List Bytes → List Bytes
  | [] => if block.isEmpty then [] else [block]
  | row :: rows =>
    if room < (block ++ row).length + G_FRAMING then (block ++ row) :: blockData room [] rows
    else blockData room (block ++ row) rows

/-- A band's rows in the blocks they go out in. -/
def bandBlocks (band : Band) (room : ℕ) : List Bytes := (blockData room [] band.rows).map gBlock

/-! ## Codes -/

/-- A code, as what it stands for. -/
inductive Code where
  | literal (bytes : Bytes)
  | repeated (n : ℕ) (b : UInt8)
  | white (n : ℕ)
  | black (n : ℕ)

namespace Code

/-- How many bytes that is. -/
def count : Code → ℕ
  | literal bytes => bytes.length
  | repeated n _ | white n | black n => n

/-- The bytes of a code. -/
def wire : Code → Bytes
  | literal bytes => (MASK_LITERAL + UInt8.ofNat bytes.length) :: bytes
  | repeated n b => [MASK_REPEAT + UInt8.ofNat n, b]
  | white n => [MASK_RUNWHT + UInt8.ofNat n]
  | black n => [MASK_RUNBLK + UInt8.ofNat n]

/-- The bytes a code stands for. -/
def meaning : Code → Bytes
  | literal bytes => bytes
  | repeated n b => List.replicate n b
  | white n => List.replicate n DATA_WHITE
  | black n => List.replicate n DATA_BLACK

/-- The count fits. -/
def Valid (c : Code) : Prop := 1 ≤ c.count ∧ c.count ≤ MAX_RUN

theorem meaning_length (c : Code) : c.meaning.length = c.count := by
  cases c <;> simp [meaning, count]

theorem wire_length_le (c : Code) (hc : c.Valid) : c.wire.length ≤ 2 * c.meaning.length := by
  have hpos := hc.1
  rw [c.meaning_length]
  cases c <;> simp only [wire, count, List.length_cons, List.length_nil] at hpos ⊢ <;> omega

end Code

/-! ### What the loops count -/

theorem runLength_le (a : UInt8) (left : ℕ) : ∀ rest, runLength a left rest ≤ left := by
  induction left with
  | zero =>
    intro rest
    cases rest <;> simp [runLength]
  | succ left ih =>
    intro rest
    cases rest with
    | nil => simp [runLength]
    | cons c rest =>
      rw [runLength]
      split_ifs
      · have := ih rest
        omega
      · omega

theorem replicate_runLength (a : UInt8) (left : ℕ) :
    ∀ rest, List.replicate (runLength a left rest) a ++ rest.drop (runLength a left rest) = rest := by
  induction left with
  | zero =>
    intro rest
    cases rest <;> simp [runLength]
  | succ left ih =>
    intro rest
    cases rest with
    | nil => simp [runLength]
    | cons c rest =>
      rw [runLength]
      split_ifs with hc
      · rw [List.replicate_succ, List.drop_succ_cons, List.cons_append, ih rest, hc]
      · rw [List.replicate_zero, List.drop_zero, List.nil_append]

theorem runLength_pos {a : UInt8} {left : ℕ} {rest : Bytes} (hleft : 0 < left)
    (hhead : rest.head? = some a) : 0 < runLength a left rest := by
  cases rest with
  | nil => cases hhead
  | cons c rest =>
    obtain rfl : c = a := Option.some.inj hhead
    obtain ⟨left, rfl⟩ : ∃ k, left = k + 1 := ⟨left - 1, by omega⟩
    rw [runLength, if_pos rfl]
    omega

theorem literalLength_le {prev : UInt8} {n : ℕ} (left : ℕ) (rest : Bytes) :
    literalLength prev n left rest ≤ n + min left rest.length := by
  induction left generalizing prev n rest with
  | zero => cases rest <;> simp [literalLength]
  | succ left ih =>
    cases rest with
    | nil => simp [literalLength]
    | cons c rest =>
      rw [literalLength]
      split_ifs
      · have := @ih c (n + 1) rest
        simp only [List.length_cons]
        omega
      · omega
      · have := @ih prev (n + 1) rest
        simp only [List.length_cons]
        omega

theorem literalLength_stop (left : ℕ) :
    ∀ (front : Bytes) (prev : UInt8) (rest : Bytes),
      literalLength prev (front.length + 1) left rest = front.length + 1 + min left rest.length ∨
      ∃ c t, (front ++ prev :: rest).drop (literalLength prev (front.length + 1) left rest) =
        c :: c :: t ∧ (c = DATA_WHITE ∨ c = DATA_BLACK ∨ t.head? = some c) := by
  induction left with
  | zero =>
    intro front prev rest
    left
    cases rest <;> simp [literalLength]
  | succ left ih =>
    intro front prev rest
    cases rest with
    | nil =>
      left
      simp [literalLength]
    | cons c rest =>
      have hgo : ∀ next, (literalLength next (front.length + 1 + 1) left rest =
          front.length + 1 + 1 + min left rest.length ∨
          ∃ d t, (front ++ prev :: next :: rest).drop
            (literalLength next (front.length + 1 + 1) left rest) = d :: d :: t ∧
              (d = DATA_WHITE ∨ d = DATA_BLACK ∨ t.head? = some d)) := by
        intro next
        have hnext := ih (front ++ [prev]) next rest
        rw [List.length_append, List.length_singleton] at hnext
        rwa [List.append_assoc, List.singleton_append] at hnext
      have hmin : min (left + 1) (rest.length + 1) = min left rest.length + 1 := by omega
      rw [literalLength]
      split_ifs with hne hstop
      · rw [List.length_cons, hmin]
        rcases hgo c with hend | hpair
        · left
          omega
        · exact .inr hpair
      · obtain rfl : c = prev := not_not.1 hne
        right
        refine ⟨c, rest, ?_, ?_⟩
        · have hk : front.length + 1 + 1 - 2 = front.length := by omega
          rw [hk, List.drop_left]
        · rcases hstop with hw | hb | ⟨-, hthird⟩
          · exact .inl hw
          · exact .inr (.inl hb)
          · exact .inr (.inr hthird)
      · obtain rfl : c = prev := not_not.1 hne
        rw [List.length_cons, hmin]
        rcases hgo c with hend | hpair
        · left
          omega
        · exact .inr hpair

/-! ### A row as valid codes -/

/-- `coded` is some valid codes that stand for `row`. -/
def CodedBy (coded row : Bytes) : Prop :=
  ∃ cs : List Code, (∀ c ∈ cs, c.Valid) ∧ coded = cs.flatMap Code.wire ∧
    cs.flatMap Code.meaning = row

theorem codedBy_nil : CodedBy [] [] := by
  refine ⟨[], ?_, rfl, rfl⟩
  intro c hc
  cases hc

theorem CodedBy.cons {coded rest : Bytes} (h : CodedBy coded rest) {c : Code} (hc : c.Valid) :
    CodedBy (c.wire ++ coded) (c.meaning ++ rest) := by
  obtain ⟨cs, hvalid, rfl, rfl⟩ := h
  refine ⟨c :: cs, ?_, rfl, rfl⟩
  intro d hd
  rcases List.mem_cons.1 hd with rfl | hd
  · exact hc
  · exact hvalid d hd

theorem run_le (a : UInt8) (rest : Bytes) :
    runLength a (min (rest.length + 2) MAX_RUN - 2) rest + 2 ≤ MAX_RUN := by
  have hle := runLength_le a (min (rest.length + 2) MAX_RUN - 2) rest
  have hmax : MAX_RUN = 62 := rfl
  omega

/-- **A row is coded** as valid codes that stand for it. -/
theorem codes_eq (row : Bytes) : CodedBy (codes row) row := by
  fun_induction codes row with
  | case1 => exact codedBy_nil
  | case2 a =>
    have hc : (Code.literal [a]).Valid := ⟨le_rfl, (by decide : 1 ≤ MAX_RUN)⟩
    exact codedBy_nil.cons hc
  | case3 a b rest left h run mask ih =>
    have hle : run + 2 ≤ MAX_RUN := run_le a rest
    have hrun : List.replicate run a ++ rest.drop run = rest := replicate_runLength a left rest
    have hrow : a :: b :: rest = List.replicate (run + 2) a ++ rest.drop run := by
      rw [← h.1, List.replicate_succ, List.replicate_succ, List.cons_append, List.cons_append, hrun]
    rw [hrow]
    rcases h.2 with hw | hb
    · have hmask : mask = MASK_RUNWHT := if_pos hw
      have hc : (Code.white (run + 2)).Valid := ⟨Nat.le_add_left 1 (run + 1), hle⟩
      rw [hmask, hw]
      exact ih.cons hc
    · have hmask : mask = MASK_RUNBLK := if_neg (by rw [hb]; decide)
      have hc : (Code.black (run + 2)).Valid := ⟨Nat.le_add_left 1 (run + 1), hle⟩
      rw [hmask, hb]
      exact ih.cons hc
  | case4 a b rest left h h' run ih =>
    have hle : run + 2 ≤ MAX_RUN := run_le b rest
    have hrun : List.replicate run b ++ rest.drop run = rest := replicate_runLength b left rest
    have hc : (Code.repeated (run + 2) b).Valid := ⟨Nat.le_add_left 1 (run + 1), hle⟩
    have hrow : a :: b :: rest = List.replicate (run + 2) b ++ rest.drop run := by
      rw [h'.1, List.replicate_succ, List.replicate_succ, List.cons_append, List.cons_append, hrun]
    rw [hrow]
    exact ih.cons hc
  | case5 a b rest left h h' n ih =>
    have hpos : 0 < n := literalLength_pos le_rfl left rest
    have hle : n ≤ 2 + min left rest.length := literalLength_le left rest
    have hmax : MAX_RUN = 62 := rfl
    have hleft : left = min (rest.length + 2) MAX_RUN - 2 := rfl
    have hlen : ((a :: b :: rest).take n).length = n := by
      rw [List.length_take, List.length_cons, List.length_cons]
      omega
    have hc : (Code.literal ((a :: b :: rest).take n)).Valid := by
      show 1 ≤ ((a :: b :: rest).take n).length ∧ ((a :: b :: rest).take n).length ≤ MAX_RUN
      omega
    have hcoded := ih.cons hc
    simp only [Code.wire, Code.meaning, hlen, List.take_append_drop] at hcoded
    exact hcoded

/-! ### How much longer a coded row is -/

/-- A row that starts with a run of white or black, or with a repeat. -/
def StartsRun (row : Bytes) : Prop :=
  ∃ a rest, row = a :: a :: rest ∧
    (a = DATA_WHITE ∨ a = DATA_BLACK ∨ 3 ≤ rest.length ∧ rest.head? = some a)

theorem CodedBy.length_le {coded row : Bytes} (h : CodedBy coded row) :
    coded.length ≤ 2 * row.length := by
  obtain ⟨cs, hvalid, rfl, rfl⟩ := h
  induction cs with
  | nil => simp
  | cons c cs ih =>
    have hc := c.wire_length_le (hvalid c List.mem_cons_self)
    have hcs := ih fun d hd => hvalid d (List.mem_cons_of_mem c hd)
    simp only [List.flatMap_cons, List.length_append]
    omega

/-- **Coding adds** one byte in 62, and a few at the end of the row; it adds one less where a
    run starts.  A literal that ends early ends where a run starts or near the end. -/
theorem codes_length (row : Bytes) :
    (codes row).length ≤ row.length + row.length / 62 + 5 ∧
      (StartsRun row → (codes row).length + 1 ≤ row.length + row.length / 62 + 5) := by
  fun_induction codes row with
  | case1 =>
    refine ⟨by simp, ?_⟩
    rintro ⟨a, rest, h, -⟩
    cases h
  | case2 a =>
    refine ⟨by simp, ?_⟩
    rintro ⟨a, rest, h, -⟩
    cases h
  | case3 a b rest left h run mask ih =>
    have hih := ih.1
    simp only [List.length_cons, List.length_drop] at hih ⊢
    exact ⟨by omega, fun _ => by omega⟩
  | case4 a b rest left h h' run ih =>
    have hpos : 0 < run := runLength_pos (by omega) h'.2.2
    have hih := ih.1
    have hle : run ≤ rest.length := by
      have hrun := congrArg List.length (replicate_runLength b left rest)
      rw [List.length_append, List.length_replicate] at hrun
      omega
    simp only [List.length_cons, List.length_drop] at hih ⊢
    exact ⟨by omega, fun _ => by omega⟩
  | case5 a b rest left h h' n ih =>
    have hle : n ≤ 2 + min left rest.length := literalLength_le left rest
    have hmax : MAX_RUN = 62 := rfl
    have hleft : left = min (rest.length + 2) MAX_RUN - 2 := rfl
    have hcrude := (codes_eq ((a :: b :: rest).drop n)).length_le
    have hlen : ((a :: b :: rest).take n).length = n := by
      rw [List.length_take, List.length_cons, List.length_cons]
      omega
    have hbound : (codes ((a :: b :: rest).drop n)).length + n + 1 ≤
        rest.length + 2 + (rest.length + 2) / 62 + 5 := by
      obtain ⟨hih, hrun⟩ := ih
      simp only [List.length_drop, List.length_cons] at hih hrun hcrude
      rcases literalLength_stop left [a] b rest with hend | ⟨c, t, hdrop, hstop⟩
      · have hn : n = 2 + min left rest.length := hend
        omega
      · have hdrop' : (a :: b :: rest).drop n = c :: c :: t := hdrop
        have htail : t.length + 2 = rest.length + 2 - n := by
          have hl := congrArg List.length hdrop'
          simp only [List.length_drop, List.length_cons] at hl
          omega
        by_cases hnear : t.length < 3 ∧ c ≠ DATA_WHITE ∧ c ≠ DATA_BLACK
        · omega
        · have hstart : StartsRun ((a :: b :: rest).drop n) := by
            refine ⟨c, t, hdrop', ?_⟩
            by_cases hw : c = DATA_WHITE
            · exact .inl hw
            · by_cases hb : c = DATA_BLACK
              · exact .inr (.inl hb)
              · refine .inr (.inr ⟨?_, ?_⟩)
                · by_contra hshort
                  exact hnear ⟨by omega, hw, hb⟩
                · rcases hstop with hw' | hb' | hthird
                  · exact absurd hw' hw
                  · exact absurd hb' hb
                  · exact hthird
          have hih' := hrun hstart
          omega
    have hnot : ¬ StartsRun (a :: b :: rest) := by
      rintro ⟨c, t, heq, hkind⟩
      cases heq
      rcases hkind with hw | hb | ⟨hthree, hhead⟩
      · exact h ⟨rfl, .inl hw⟩
      · exact h ⟨rfl, .inr hb⟩
      · exact h' ⟨rfl, by omega, hhead⟩
    constructor
    · simp only [List.length_cons, List.length_append, hlen]
      omega
    · intro hstart
      exact absurd hstart hnot

@[simp] theorem resize_length (row : Bytes) (len : ℕ) : (resize row len).length = len := by
  simp only [resize, List.length_append, List.length_take, List.length_replicate]
  omega

theorem scanline_length_le (src : Bytes) (widthBytes : ℕ) :
    (scanline src widthBytes).length ≤ widthBytes + widthBytes / 62 + 5 := by
  have hcodes := (codes_length (resize src widthBytes)).1
  rw [resize_length] at hcodes
  unfold scanline
  dsimp only
  split_ifs
  · simp
  · exact hcodes

/-! ## Undoing the codes -/

/-- The bytes that the code at the front stands for, and what follows it. -/
def readCode : Bytes → Option (Bytes × Bytes)
  | [] => none
  | code :: rest =>
    let n := (code &&& 0x3F).toNat
    let kind := code &&& 0xC0
    if kind = MASK_LITERAL then
      if rest.length < n then none else some (rest.take n, rest.drop n)
    else if kind = MASK_REPEAT then
      match rest with
      | b :: rest => some (List.replicate n b, rest)
      | [] => none
    else if kind = MASK_RUNWHT then some (List.replicate n DATA_WHITE, rest)
    else some (List.replicate n DATA_BLACK, rest)

/-- Codes for `need` bytes; each stands for a byte at least, so `need` of them are enough. -/
def readCodes : ℕ → ℕ → Bytes → Option (Bytes × Bytes)
  | 0, need, coded => if need = 0 then some ([], coded) else none
  | fuel + 1, need, coded =>
    if need = 0 then some ([], coded)
    else do
      let (bytes, rest) ← readCode coded
      if need < bytes.length then none
      else
        let (more, rest) ← readCodes fuel (need - bytes.length) rest
        some (bytes ++ more, rest)

/-- The inverse of `scanline`. -/
def readPlane (widthBytes : ℕ) : Bytes → Option (Bytes × Bytes)
  | [] => none
  | code :: rest =>
    if code = MASK_RUNWHT then some (List.replicate widthBytes DATA_WHITE, rest)
    else readCodes widthBytes widthBytes (code :: rest)

theorem code_fields {n : ℕ} (hn : n ≤ MAX_RUN) :
    ∀ mask ∈ [MASK_LITERAL, MASK_REPEAT, MASK_RUNWHT, MASK_RUNBLK],
      ((mask + UInt8.ofNat n) &&& 0x3F).toNat = n ∧ (mask + UInt8.ofNat n) &&& 0xC0 = mask := by
  have hall : ∀ n : Fin 63, ∀ mask ∈ [MASK_LITERAL, MASK_REPEAT, MASK_RUNWHT, MASK_RUNBLK],
      ((mask + UInt8.ofNat n.1) &&& 0x3F).toNat = n.1 ∧
        (mask + UInt8.ofNat n.1) &&& 0xC0 = mask := by
    decide +kernel
  exact hall ⟨n, Nat.lt_succ_of_le hn⟩

theorem readCode_wire {c : Code} (hc : c.Valid) (rest : Bytes) :
    readCode (c.wire ++ rest) = some (c.meaning, rest) := by
  have hfields := code_fields hc.2
  cases c with
  | literal bytes =>
    obtain ⟨hn, hkind⟩ := hfields MASK_LITERAL (by decide)
    have hroom : ¬ (bytes ++ rest).length < bytes.length := by
      rw [List.length_append]
      omega
    simp only [Code.count] at hn hkind
    simp only [Code.wire, List.cons_append, readCode, hn, hkind, if_true, if_neg hroom,
      List.take_left, List.drop_left, Code.meaning]
  | repeated n b =>
    obtain ⟨hn, hkind⟩ := hfields MASK_REPEAT (by decide)
    simp only [Code.count] at hn hkind
    simp only [Code.wire, List.cons_append, List.nil_append, readCode, hn, hkind, Code.meaning]
    rfl
  | white n =>
    obtain ⟨hn, hkind⟩ := hfields MASK_RUNWHT (by decide)
    simp only [Code.count] at hn hkind
    simp only [Code.wire, List.cons_append, List.nil_append, readCode, hn, hkind, Code.meaning]
    rfl
  | black n =>
    obtain ⟨hn, hkind⟩ := hfields MASK_RUNBLK (by decide)
    simp only [Code.count] at hn hkind
    simp only [Code.wire, List.cons_append, List.nil_append, readCode, hn, hkind, Code.meaning]
    rfl

theorem readCodes_wire (cs : List Code) :
    ∀ fuel, (∀ c ∈ cs, c.Valid) → (cs.flatMap Code.meaning).length ≤ fuel → ∀ rest,
      readCodes fuel (cs.flatMap Code.meaning).length (cs.flatMap Code.wire ++ rest) =
        some (cs.flatMap Code.meaning, rest) := by
  induction cs with
  | nil =>
    intro fuel _ _ rest
    cases fuel <;> rfl
  | cons c cs ih =>
    intro fuel hvalid hfuel rest
    have hc := hvalid c List.mem_cons_self
    have hpos : 1 ≤ c.meaning.length := by
      rw [c.meaning_length]
      exact hc.1
    rw [List.flatMap_cons, List.length_append] at hfuel
    obtain ⟨fuel, rfl⟩ : ∃ k, fuel = k + 1 := ⟨fuel - 1, by omega⟩
    have hneed : ((c :: cs).flatMap Code.meaning).length =
        c.meaning.length + (cs.flatMap Code.meaning).length := by
      rw [List.flatMap_cons, List.length_append]
    have hcs := ih fuel (fun d hd => hvalid d (List.mem_cons_of_mem c hd)) (by omega) rest
    have hrest : c.meaning.length + (cs.flatMap Code.meaning).length - c.meaning.length =
        (cs.flatMap Code.meaning).length := by
      omega
    have hread : readCode ((c :: cs).flatMap Code.wire ++ rest) =
        some (c.meaning, cs.flatMap Code.wire ++ rest) := by
      rw [List.flatMap_cons, List.append_assoc]
      exact readCode_wire hc _
    rw [hneed, readCodes, if_neg (by omega), hread]
    simp only [Option.bind_eq_bind, Option.bind_some]
    rw [if_neg (by omega), hrest, hcs]
    rfl

theorem resize_white {src : Bytes} {widthBytes : ℕ}
    (h : (resize src widthBytes).all (· == DATA_WHITE) = true) :
    resize src widthBytes = List.replicate widthBytes DATA_WHITE := by
  rw [List.eq_replicate_iff]
  refine ⟨resize_length src widthBytes, fun b hb => ?_⟩
  exact eq_of_beq (List.all_eq_true.1 h b hb)

theorem wire_head_ne {c : Code} (hc : c.Valid) : ∃ code tail, c.wire = code :: tail ∧
    code ≠ MASK_RUNWHT := by
  have hfields := code_fields hc.2
  have hne : ∀ mask ∈ [MASK_LITERAL, MASK_REPEAT, MASK_RUNWHT, MASK_RUNBLK],
      mask + UInt8.ofNat c.count ≠ MASK_RUNWHT := by
    intro mask hmask heq
    have hcount := (hfields mask hmask).1
    rw [heq] at hcount
    have hzero : (MASK_RUNWHT &&& 0x3F).toNat = 0 := by decide
    have hpos := hc.1
    omega
  cases c with
  | literal bytes => exact ⟨_, _, rfl, hne MASK_LITERAL (by decide)⟩
  | repeated n b => exact ⟨_, _, rfl, hne MASK_REPEAT (by decide)⟩
  | white n => exact ⟨_, _, rfl, hne MASK_RUNWHT (by decide)⟩
  | black n => exact ⟨_, _, rfl, hne MASK_RUNBLK (by decide)⟩

/-- **What a plane is coded as**: a blank one is a single code of no count, any other valid
    codes that stand for it. -/
theorem scanline_cases (src : Bytes) (widthBytes : ℕ) :
    (resize src widthBytes = List.replicate widthBytes DATA_WHITE ∧
      scanline src widthBytes = [MASK_RUNWHT]) ∨
    ∃ c cs, (∀ d ∈ c :: cs, Code.Valid d) ∧
      scanline src widthBytes = (c :: cs).flatMap Code.wire ∧
      (c :: cs).flatMap Code.meaning = resize src widthBytes := by
  by_cases hblank : (resize src widthBytes).all (· == DATA_WHITE) = true
  · exact .inl ⟨resize_white hblank, if_pos hblank⟩
  · obtain ⟨cs, hvalid, hcodes, hmeaning⟩ := codes_eq (resize src widthBytes)
    have hscan : scanline src widthBytes = cs.flatMap Code.wire := by
      rw [← hcodes]
      exact if_neg hblank
    cases cs with
    | nil =>
      rw [← hmeaning] at hblank
      exact absurd rfl hblank
    | cons c cs => exact .inr ⟨c, cs, hvalid, hscan, hmeaning⟩

/-- **A plane is read back**, padded or cut to the width. -/
theorem readPlane_scanline (src : Bytes) (widthBytes : ℕ) (rest : Bytes) :
    readPlane widthBytes (scanline src widthBytes ++ rest) =
      some (resize src widthBytes, rest) := by
  rcases scanline_cases src widthBytes with ⟨hwhite, hscan⟩ | ⟨c, cs, hvalid, hscan, hmeaning⟩
  · rw [hscan, hwhite]
    rfl
  · have hlen : ((c :: cs).flatMap Code.meaning).length = widthBytes := by
      rw [hmeaning, resize_length]
    have hread := readCodes_wire (c :: cs) widthBytes hvalid hlen.le rest
    rw [hlen, hmeaning] at hread
    obtain ⟨code, tail, hwire, hne⟩ := wire_head_ne (hvalid c List.mem_cons_self)
    rw [hscan]
    rw [List.flatMap_cons, hwire] at hread ⊢
    show (if code = MASK_RUNWHT then _ else _) = _
    rw [if_neg hne]
    exact hread

/-! ## Undoing the differences -/

/-- A plane from its difference to the same plane of the row before. -/
def undoDifference (family : StyleWriterFamily) (before : Option Bytes) (row : Bytes) : Bytes :=
  match before with
  | some before => if family.deltaRows then List.zipWith (· ^^^ ·) row before else row
  | none => row

/-- The planes of a row from plane `i` on, of which there are `count`. -/
def decodePlanes (family : StyleWriterFamily) (rowBytes : ℕ) (last : Option (List Bytes)) :
    ℕ → ℕ → Bytes → Option (List Bytes)
  | _, 0, coded => if coded = [] then some [] else none
  | i, count + 1, coded => do
    let (row, rest) ← readPlane rowBytes coded
    let planes ← decodePlanes family rowBytes last (i + 1) count rest
    some (undoDifference family (last.map (·.getD i [])) row :: planes)

/-- The rows back from their codes. -/
def decodeRows (family : StyleWriterFamily) (rowBytes count : ℕ) :
    Option (List Bytes) → List Bytes → Option (List (List Bytes))
  | _, [] => some []
  | last, coded :: rows => do
    let planes ← decodePlanes family rowBytes last 0 count coded
    let rest ← decodeRows family rowBytes count (some planes) rows
    some (planes :: rest)

theorem zipWith_xor_cancel (a b : Bytes) (h : a.length = b.length) :
    List.zipWith (· ^^^ ·) (List.zipWith (· ^^^ ·) a b) b = a := by
  induction a generalizing b with
  | nil => simp
  | cons x a ih =>
    cases b with
    | nil => simp at h
    | cons y b =>
      have hxy : x ^^^ y ^^^ y = x := by rw [UInt8.xor_assoc, UInt8.xor_self, UInt8.xor_zero]
      simp only [List.zipWith_cons_cons, hxy, ih b (by simpa using h)]

theorem difference_length (family : StyleWriterFamily) (rowBytes : ℕ) (before : Option Bytes)
    (plane : Bytes) : (difference family rowBytes before plane).length = rowBytes := by
  unfold difference
  cases before with
  | none => exact resize_length plane rowBytes
  | some before =>
    dsimp only
    split_ifs
    · rw [List.length_zipWith, resize_length, resize_length, Nat.min_self]
    · exact resize_length plane rowBytes

/-- Rows of the right width stay as they are. -/
theorem resize_of_length {row : Bytes} {len : ℕ} (h : row.length = len) : resize row len = row := by
  rw [resize, ← h, List.take_length, Nat.sub_self, List.replicate_zero, List.append_nil]

theorem undoDifference_difference (family : StyleWriterFamily) (rowBytes : ℕ)
    (before : Option Bytes) (plane : Bytes) :
    undoDifference family (before.map (resize · rowBytes)) (difference family rowBytes before plane) =
      resize plane rowBytes := by
  cases before with
  | none => rfl
  | some before =>
    show (if family.deltaRows then _ else _) = _
    unfold difference
    dsimp only
    split_ifs
    · exact zipWith_xor_cancel _ _ (by rw [resize_length, resize_length])
    · rfl

theorem decodePlanes_encodePlanes (family : StyleWriterFamily) (rowBytes : ℕ)
    (last : Option (List Bytes)) (planes : List Bytes) :
    ∀ i, (∀ l, last = some l → l.length = i + planes.length) →
      decodePlanes family rowBytes (last.map (·.map (resize · rowBytes))) i planes.length
        (encodePlanes family rowBytes last i planes) = some (planes.map (resize · rowBytes)) := by
  induction planes with
  | nil =>
    intro i _
    rfl
  | cons plane planes ih =>
    intro i hlast
    have hrest := ih (i + 1) (fun l hl => by rw [hlast l hl, List.length_cons]; omega)
    have hbefore : (last.map (·.map (resize · rowBytes))).map (·.getD i []) =
        (last.map (·.getD i [])).map (resize · rowBytes) := by
      cases hl : last with
      | none => rfl
      | some l =>
        have hi : i < l.length := by
          rw [hlast l hl, List.length_cons]
          omega
        simp only [Option.map_some, List.getD_eq_getElem?_getD, List.getElem?_map,
          List.getElem?_eq_getElem hi, Option.getD_some]
    have hread := readPlane_scanline (difference family rowBytes (last.map (·.getD i [])) plane)
      rowBytes (encodePlanes family rowBytes last (i + 1) planes)
    rw [resize_of_length (difference_length _ _ _ _)] at hread
    simp only [encodePlanes, List.length_cons, decodePlanes, hread, Option.bind_eq_bind,
      Option.bind_some, hrest, hbefore, undoDifference_difference, List.map_cons]

theorem decodeRows_encodeRows (family : StyleWriterFamily) (rowBytes count : ℕ)
    (rows : List (List Bytes)) :
    ∀ last, (∀ l, last = some l → l.length = count) → (∀ row ∈ rows, row.length = count) →
      decodeRows family rowBytes count (last.map (·.map (resize · rowBytes)))
        (encodeRows family rowBytes last rows) = some (rows.map (·.map (resize · rowBytes))) := by
  induction rows with
  | nil =>
    intro last _ _
    rfl
  | cons planes rows ih =>
    intro last hlast hrows
    have hcount := hrows planes List.mem_cons_self
    have hplanes := decodePlanes_encodePlanes family rowBytes last planes 0 (fun l hl => by
      rw [hlast l hl, hcount, Nat.zero_add])
    rw [hcount] at hplanes
    have hrest := ih (some planes) (fun l hl => by rw [← Option.some.inj hl, hcount])
      (fun row hrow => hrows row (List.mem_cons_of_mem planes hrow))
    simp only [encodeRows, decodeRows, hplanes, Option.bind_eq_bind, Option.bind_some,
      List.map_cons]
    rw [Option.map_some] at hrest
    rw [hrest]
    rfl

/-- A band's planes from its coded rows. -/
def decodeBand (family : StyleWriterFamily) (rowBytes : ℕ) (band : Band) :
    Option (List (List Bytes)) :=
  decodeRows family rowBytes band.kind.planes none band.rows

/-- **A band is coded without loss.**  Undoing the codes and the differences gives every row's
    planes, padded or cut to the band's row bytes. -/
theorem decodeBand_encodeBand (raw : RawBand) (family : StyleWriterFamily) :
    decodeBand family raw.rowBytes (encodeBand raw family) =
      some (raw.rows.map (·.map (resize · raw.rowBytes))) :=
  decodeRows_encodeRows family raw.rowBytes raw.kind.planes raw.rows none
    (fun _ h => by cases h) raw.planes

/-! ## What the blocks hold -/

theorem blockData_flatten (room : ℕ) (rows : List Bytes) :
    ∀ block, (blockData room block rows).flatten = block ++ rows.flatten := by
  induction rows with
  | nil =>
    intro block
    cases block <;> simp [blockData]
  | cons row rows ih =>
    intro block
    rw [blockData]
    split_ifs
    · rw [List.flatten_cons, ih, List.nil_append, List.flatten_cons, List.append_assoc]
    · rw [ih, List.flatten_cons, List.append_assoc]

theorem blockData_length_le (room longest : ℕ) (rows : List Bytes)
    (hrows : ∀ row ∈ rows, row.length ≤ longest) :
    ∀ block, block.length ≤ room - G_FRAMING →
      ∀ data ∈ blockData room block rows, data.length ≤ room - G_FRAMING + longest := by
  induction rows with
  | nil =>
    intro block hblock data hdata
    unfold blockData at hdata
    split_ifs at hdata
    · cases hdata
    · rw [List.mem_singleton.1 hdata]
      omega
  | cons row rows ih =>
    intro block hblock data hdata
    have hrow := hrows row List.mem_cons_self
    have hrest := ih fun r hr => hrows r (List.mem_cons_of_mem row hr)
    rw [blockData] at hdata
    split_ifs at hdata with hfull
    · rcases List.mem_cons.1 hdata with rfl | hdata
      · rw [List.length_append]
        omega
      · exact hrest [] (Nat.zero_le _) data hdata
    · exact hrest _ (by omega) data hdata

theorem encodePlanes_length_le (family : StyleWriterFamily) (rowBytes : ℕ)
    (last : Option (List Bytes)) (planes : List Bytes) :
    ∀ i, (encodePlanes family rowBytes last i planes).length ≤
      planes.length * (rowBytes + rowBytes / 62 + 5) := by
  induction planes with
  | nil =>
    intro i
    simp [encodePlanes]
  | cons plane planes ih =>
    intro i
    have hplane := scanline_length_le (difference family rowBytes (last.map (·.getD i [])) plane)
      rowBytes
    have hrest := ih (i + 1)
    rw [encodePlanes, List.length_append, List.length_cons, Nat.succ_mul]
    omega

theorem encodeRows_length_le (family : StyleWriterFamily) (rowBytes count : ℕ)
    (rows : List (List Bytes)) :
    ∀ last, (∀ row ∈ rows, row.length = count) →
      ∀ coded ∈ encodeRows family rowBytes last rows,
        coded.length ≤ count * (rowBytes + rowBytes / 62 + 5) := by
  induction rows with
  | nil =>
    intro last _ coded hcoded
    cases hcoded
  | cons planes rows ih =>
    intro last hrows coded hcoded
    rcases List.mem_cons.1 hcoded with rfl | hcoded
    · rw [← hrows planes List.mem_cons_self]
      exact encodePlanes_length_le family rowBytes last planes 0
    · exact ih _ (fun row hrow => hrows row (List.mem_cons_of_mem planes hrow)) coded hcoded

theorem blockRoom_le {family : StyleWriterFamily} {kind : BandKind} {rowBytes room : ℕ}
    (h : family.blockRoom kind rowBytes = some room) :
    room ≤ if kind = .mono then COLOR_BLOCK_ROOM_MONO else COLOR_BLOCK_ROOM_COLOR := by
  have hmono : BLOCK_ROOM_1200 ≤ COLOR_BLOCK_ROOM_MONO := by decide
  have hcolor : BLOCK_ROOM_1200 ≤ COLOR_BLOCK_ROOM_COLOR := by decide
  unfold StyleWriterFamily.blockRoom at h
  split_ifs at h with hseries hwide
  · obtain rfl := Option.some.inj h
    split_ifs <;> omega
  · cases kind with
    | mono =>
      rw [if_pos rfl, ← Option.some.inj h]
    | color =>
      rw [if_neg (by decide), ← Option.some.inj h]

/-- **A block's length fits its field** on every band whose width fits its own. -/
theorem block_fits (raw : RawBand) (family : StyleWriterFamily) (hwidth : raw.width ≤ 65535)
    {room : ℕ} (hroom : family.blockRoom raw.kind raw.rowBytes = some room) :
    ∀ data ∈ blockData room [] (encodeBand raw family).rows, data.length ≤ 65535 := by
  intro data hdata
  have hbytes : raw.rowBytes ≤ 8192 := by
    unfold RawBand.rowBytes
    omega
  have hle := blockData_length_le room _ _
    (encodeRows_length_le family raw.rowBytes raw.kind.planes raw.rows none raw.planes) []
    (Nat.zero_le _) data hdata
  have hsum : room - G_FRAMING + raw.kind.planes * (raw.rowBytes + raw.rowBytes / 62 + 5) ≤
      65535 := by
    have hle := blockRoom_le hroom
    unfold G_FRAMING
    cases hkind : raw.kind with
    | mono =>
      rw [hkind] at hle
      have hroom : room ≤ 0x7E77 := hle
      show room - 4 + 1 * (raw.rowBytes + raw.rowBytes / 62 + 5) ≤ 65535
      omega
    | color =>
      rw [hkind] at hle
      have hroom : room ≤ 0x79FA := hle
      show room - 4 + 4 * (raw.rowBytes + raw.rowBytes / 62 + 5) ≤ 65535
      omega
  omega

/-- The length in a block's header. -/
def blockLength (block : Bytes) : ℕ := (block.getD 1 0).toNat + 256 * (block.getD 2 0).toNat

/-- A block without its framing. -/
def blockRows (block : Bytes) : Bytes := (block.drop 3).dropLast

@[simp] theorem blockRows_gBlock (data : Bytes) : blockRows (gBlock data) = data := by
  simp [blockRows, gBlock]

theorem blockLength_gBlock {data : Bytes} (h : data.length ≤ 65535) :
    blockLength (gBlock data) = data.length := by
  simp only [blockLength, gBlock, List.getD_cons_succ, List.getD_cons_zero, UInt8.toNat_ofNat']
  omega

/-- **Band coding is lossless.** For every band and printer, decoding the rows gives their planes at
    the band's row bytes; every code counts 1 to 62 bytes, but for a blank plane; the blocks hold
    the coded rows in order; and every block's header says its length where the room and the longest
    row together fit it, as on every band whose width fits its field. -/
theorem band_coding_lossless (raw : RawBand) (family : StyleWriterFamily) :
    decodeBand family raw.rowBytes (encodeBand raw family) =
      some (raw.rows.map (·.map (resize · raw.rowBytes))) ∧
    (∀ (src : Bytes) (widthBytes : ℕ),
      (resize src widthBytes = List.replicate widthBytes DATA_WHITE ∧
        scanline src widthBytes = [MASK_RUNWHT]) ∨
      ∃ cs : List Code, (∀ c ∈ cs, 1 ≤ c.count ∧ c.count ≤ 62) ∧
        scanline src widthBytes = cs.flatMap Code.wire ∧
        cs.flatMap Code.meaning = resize src widthBytes) ∧
    ∀ room : ℕ,
      (bandBlocks (encodeBand raw family) room).flatMap blockRows =
        (encodeBand raw family).rows.flatten ∧
      ∀ longest : ℕ, (∀ row ∈ (encodeBand raw family).rows, row.length ≤ longest) →
        (room - G_FRAMING + longest ≤ 65535 ∨
          raw.width ≤ 65535 ∧ family.blockRoom raw.kind raw.rowBytes = some room) →
        ∀ block ∈ bandBlocks (encodeBand raw family) room,
          blockLength block = (blockRows block).length := by
  refine ⟨decodeBand_encodeBand raw family, ?_, fun room => ⟨?_, ?_⟩⟩
  · intro src widthBytes
    rcases scanline_cases src widthBytes with hblank | ⟨c, cs, hvalid, hscan, hmeaning⟩
    · exact .inl hblank
    · exact .inr ⟨c :: cs, hvalid, hscan, hmeaning⟩
  · have hrows := blockData_flatten room (encodeBand raw family).rows []
    rw [List.nil_append] at hrows
    rw [bandBlocks, List.flatMap_map, ← hrows]
    simp only [blockRows_gBlock, List.flatMap_id']
  · intro longest hlongest hfits block hblock
    obtain ⟨data, hdata, rfl⟩ := List.mem_map.1 hblock
    rw [blockRows_gBlock]
    refine blockLength_gBlock ?_
    rcases hfits with hroom | ⟨hwidth, hroom⟩
    · have hle := blockData_length_le room longest _ hlongest [] (Nat.zero_le _) data hdata
      omega
    · exact block_fits raw family hwidth hroom data hdata

/-- Two equal rows of three bytes. -/
def twoRows : RawBand where
  top := 10
  width := 20
  kind := .mono
  rows := [[[0x11, 0x22, 0x33]], [[0x11, 0x22, 0x33]]]
  planes := by
    intro row hrow
    rcases List.mem_pair.1 hrow with rfl | rfl <;> rfl

theorem band_coding_two_rows :
    ∀ block ∈ bandBlocks (encodeBand twoRows .styleWriterII) 30442,
      blockLength block = (blockRows block).length :=
  ((band_coding_lossless twoRows .styleWriterII).2.2 30442).2
    ((encodeBand twoRows .styleWriterII).rows.map List.length).sum
    (fun _ hrow => List.single_le_sum (fun _ _ => Nat.zero_le _) _ (List.mem_map_of_mem hrow))
    (.inr ⟨by decide, rfl⟩)

/-- The code of a blank plane counts nothing. -/
theorem blank_plane_counts_nothing :
    (encodeBand { top := 0, width := 8, kind := .mono, rows := [[[0x00]]], planes := by decide }
        .original).rows = [[0x80]] ∧
      ¬ (1 ≤ ((0x80 : UInt8) &&& 0x3F).toNat ∧ ((0x80 : UInt8) &&& 0x3F).toNat ≤ 62) :=
  ⟨rfl, by decide⟩

end TailTalk.StyleWriter
