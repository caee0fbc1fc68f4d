/-
  How a band's blocks are paced by the printer's buffer.

  A job reads the buffer's free space while it is empty and takes every block
  off it.  A band's rows go into a block until it no longer fits or is past the
  block size; it then waits for room and goes.
-/
import TailTalk.StyleWriter.Encode
import TailTalk.Lib.Run

namespace TailTalk.StyleWriter

open Lib

namespace StyleWriterFamily

/-- The left edge of every band's rect. -/
def rectLeft : StyleWriterFamily → ℕ
  | original => 0
  | family => if family.is1200Series then 16 else 0

/-- Free bytes for a reading of the buffer, less 2 KB. -/
def freeBytes (family : StyleWriterFamily) (b : UInt8) : ℤ :=
  let unit : ℤ := match family with
    | original => 64
    | _ => 256
  b.toNat * unit - 2048

end StyleWriterFamily

/-! ## The rect -/

/-- How a block of the kind begins. -/
def BandKind.tag : BandKind → UInt8
  | mono => 0x52
  | color => 0x63

namespace Band

/-- The bytes of a row. -/
def rowBytes (band : Band) : ℕ := (band.width.toNat + 7) / 8

/-- Where a band ends, its last row counted in 16 bits. -/
def bottom (band : Band) : ℕ := band.top.toNat + (band.rows.length - 1) % 65536

end Band

/-- The tag and the four edges, little-endian. -/
def rect (tag : UInt8) (left top right bottom : ℕ) : Bytes :=
  tag :: [left, top, right, bottom].flatMap fun edge =>
    [UInt8.ofNat edge, UInt8.ofNat (edge / 256)]

/-- The rect of a band, unless an edge overflows. -/
def bandRect (family : StyleWriterFamily) (band : Band) : Option Bytes :=
  let left := family.rectLeft
  if 65535 < left + band.width.toNat ∨ left + band.width.toNat = 0 ∨ 65535 < band.bottom then none
  else some (rect band.kind.tag left band.top.toNat (left + band.width.toNat - 1) band.bottom)

/-! ## Waiting for room -/

/-- The wait for room for `need` bytes, the free space it ends with, and whether there is room. Each
    answer is one turn's reading, `none` where it fails; the deadline comes after the last. -/
def makeRoom (family : StyleWriterFamily) (need maxFree : ℤ) : ℤ → List (Option UInt8) → ℤ × Bool
  | free, [] => (free, decide (need ≤ free ∨ maxFree ≤ free))
  | free, answer :: answers =>
    if need ≤ free ∨ maxFree ≤ free then (free, true)
    else match answer with
      | none => (free, false)
      | some b => makeRoom family need maxFree (family.freeBytes b) answers

/-- The free space by each reading, up to the turn that fails. -/
def readings (family : StyleWriterFamily) : List (Option UInt8) → List ℤ
  | [] => []
  | none :: _ => []
  | some b :: answers => family.freeBytes b :: readings family answers

/-- The first free space that will do: the one there is, or that of a reading. -/
def firstRoom (family : StyleWriterFamily) (need maxFree free : ℤ) (answers : List (Option UInt8)) :
    Option ℤ :=
  (free :: readings family answers).find? fun v => decide (need ≤ v ∨ maxFree ≤ v)

/-- **The wait ends at the first free space that will do**, and only there. -/
theorem makeRoom_eq_true_iff {family : StyleWriterFamily} {need maxFree v : ℤ}
    (answers : List (Option UInt8)) (free : ℤ) :
    makeRoom family need maxFree free answers = (v, true) ↔
      firstRoom family need maxFree free answers = some v := by
  induction answers generalizing free with
  | nil =>
    rw [makeRoom, firstRoom, readings, List.find?_singleton]
    by_cases hroom : need ≤ free ∨ maxFree ≤ free
    · simp [hroom]
    · simp [hroom]
  | cons answer answers ih =>
    rw [firstRoom, List.find?_cons]
    unfold makeRoom
    by_cases hroom : need ≤ free ∨ maxFree ≤ free
    · simp [hroom]
    · rw [if_neg hroom, decide_eq_false hroom]
      cases answer with
      | none => simp [readings]
      | some b => exact ih (family.freeBytes b)

theorem firstRoom_some {family : StyleWriterFamily} {need maxFree free v : ℤ}
    {answers : List (Option UInt8)} (h : firstRoom family need maxFree free answers = some v) :
    need ≤ v ∨ maxFree ≤ v := by
  have hv := List.find?_some h
  exact of_decide_eq_true hv

/-! ## A band -/

/-- A block as it goes out, with the free space it goes by. -/
structure Block where
  data : Bytes
  free : ℤ
  maxFree : ℤ
deriving DecidableEq

namespace Block

/-- The payload and its framing. -/
def framed (b : Block) : ℕ := b.data.length + G_FRAMING

/-- A block that holds something and fits, or goes to a buffer as empty as at the start. -/
def Paced (b : Block) : Prop := b.data ≠ [] ∧ ((b.framed : ℤ) ≤ b.free ∨ b.maxFree ≤ b.free)

instance : DecidablePred Paced := fun _ => inferInstanceAs (Decidable (_ ∧ _))

/-- **A paced block does not take the free space below zero**, unless it is bigger than the whole
    buffer. -/
theorem Paced.free_nonneg {b : Block} (h : b.Paced) :
    0 ≤ b.free - b.framed ∨ b.maxFree < b.framed := by
  rcases h.2 with hfits | hempty
  · exact Or.inl (Int.sub_nonneg.2 hfits)
  · rcases lt_or_ge b.maxFree b.framed with hbig | hsmall
    · exact Or.inr hbig
    · exact Or.inl (Int.sub_nonneg.2 (hsmall.trans hempty))

end Block

/-- The free space, the rows of the block that has not gone yet, the blocks that have, and whether
    nothing has failed. -/
structure Sending where
  free : ℤ
  block : Bytes
  sent : List Block
  ok : Bool

/-- What a row meets: the answers to its wait, and whether its block goes out. -/
structure RowAnswers where
  answers : List (Option UInt8)
  goesOut : Bool

section
variable (family : StyleWriterFamily) (maxFree : ℤ)

/-- The block goes.  One past its size field stops at the assertion. -/
def sendBlock (s : Sending) (goesOut : Bool) : Sending :=
  let free := s.free - (s.block.length + G_FRAMING : ℕ)
  if s.block.length ≤ 65535 ∧ goesOut = true then
    { free := free, block := [], sent := s.sent ++ [⟨s.block, s.free, maxFree⟩], ok := true }
  else { s with free := free, block := [], ok := false }

/-- One row more. -/
def writeRow (room : ℕ) (s : Sending) (a : Bytes × RowAnswers) : Sending :=
  if s.ok then
    let block := s.block ++ a.1
    let blockLen := block.length + G_FRAMING
    if s.free < blockLen ∨ room < blockLen then
      -- the wait is for the payload, and the framing goes with it
      match makeRoom family block.length maxFree s.free a.2.answers with
      | (free, true) => sendBlock maxFree { s with free := free, block := block } a.2.goesOut
      | (free, false) => { s with free := free, block := block, ok := false }
    else { s with block := block }
  else s

/-- The last block goes without a wait. -/
def sendRest (s : Sending) (goesOut : Bool) : Sending :=
  if s.ok = true ∧ s.block ≠ [] then sendBlock maxFree s goesOut else s

end

/-! ## A session -/

/-- A band as it went: its blocks, and whether all of it did. -/
structure BandLog where
  band : Band
  rect : Option Bytes
  blocks : List Block
  done : Bool

/-- Whether the printer is clear and drained, whether the rect and the last block go out, and what
    each row meets. -/
structure BandAnswers where
  clear : Bool
  rectOut : Bool
  rows : ℕ → RowAnswers
  restOut : Bool

/-- The part of a session that paces the blocks, with the bands it has sent. -/
structure StyleWriterSession where
  family : StyleWriterFamily
  free : ℤ
  maxFree : ℤ
  bands : List BandLog

namespace StyleWriterSession

/-- A session that has not been set up. -/
def start (family : StyleWriterFamily) : StyleWriterSession :=
  { family := family, free := 0, maxFree := 0, bands := [] }

/-- The reading of the empty buffer. -/
def readFreeSpace (s : StyleWriterSession) (answer : Option UInt8) : StyleWriterSession :=
  match answer with
  | none => s
  | some b => { s with free := s.family.freeBytes b, maxFree := s.family.freeBytes b }

/-- What the rows of a band meet, in order. -/
def rowActions (band : Band) (rows : ℕ → RowAnswers) : List (Bytes × RowAnswers) :=
  band.rows.mapIdx fun i row => (row, rows i)

/-- The rows go by the free space there is. -/
def sending (s : StyleWriterSession) : Sending :=
  { free := s.free, block := [], sent := [], ok := true }

/-- The room for the blocks of a band, where the band gets as far as its rows. -/
def rowsRoom (s : StyleWriterSession) (band : Band) (e : BandAnswers) : Option ℕ :=
  if e.clear = true ∧ e.rectOut = true ∧ (bandRect s.family band).isSome then
    s.family.blockRoom band.kind band.rowBytes
  else none

/-- A band, row by row. -/
def writeBand (s : StyleWriterSession) (band : Band) (e : BandAnswers) : StyleWriterSession :=
  match s.rowsRoom band e with
  | none =>
    let rect := if e.clear = true ∧ e.rectOut = true then bandRect s.family band else none
    { s with bands := s.bands ++ [⟨band, rect, [], false⟩] }
  | some room =>
    let sent := sendRest s.maxFree
      (run (writeRow s.family s.maxFree room) s.sending (rowActions band e.rows)) e.restOut
    { s with
      free := sent.free
      bands := s.bands ++ [⟨band, bandRect s.family band, sent.sent, sent.ok⟩] }

end StyleWriterSession

/-! ## What a row does -/

section
variable {family : StyleWriterFamily} {maxFree : ℤ} {room : ℕ} {s : Sending}

namespace Sending

/-- The row takes the block past the free space or past its size. -/
def Flushes (room : ℕ) (s : Sending) (row : Bytes) : Prop :=
  s.free < ((s.block ++ row).length + G_FRAMING : ℕ) ∨ room < (s.block ++ row).length + G_FRAMING

instance (room : ℕ) (s : Sending) (row : Bytes) : Decidable (s.Flushes room row) :=
  inferInstanceAs (Decidable (_ ∨ _))

/-- The blocks that have gone are all paced. -/
def AllPaced (s : Sending) : Prop := ∀ b ∈ s.sent, b.Paced

/-- What has not gone yet fits. -/
def RestFits (s : Sending) : Prop :=
  s.ok = true → s.block ≠ [] → ((s.block.length + G_FRAMING : ℕ) : ℤ) ≤ s.free

/-- The payloads that have gone. -/
def payload (s : Sending) : Bytes := (s.sent.map Block.data).flatten

/-- What has gone are the first of the rows, and what has not gone yet the rest of them. -/
structure Carries (rows : List Bytes) (s : Sending) : Prop where
  goes : s.payload <+: rows.flatten
  all : s.ok = true → s.payload ++ s.block = rows.flatten

end Sending

theorem sendBlock_cases (maxFree : ℤ) (s : Sending) (goesOut : Bool) :
    ((s.block.length ≤ 65535 ∧ goesOut = true) ∧
      (sendBlock maxFree s goesOut).sent = s.sent ++ [⟨s.block, s.free, maxFree⟩] ∧
      (sendBlock maxFree s goesOut).block = [] ∧ (sendBlock maxFree s goesOut).ok = true) ∨
    (¬ (s.block.length ≤ 65535 ∧ goesOut = true) ∧
      (sendBlock maxFree s goesOut).sent = s.sent ∧ (sendBlock maxFree s goesOut).ok = false) := by
  unfold sendBlock
  by_cases hgoes : s.block.length ≤ 65535 ∧ goesOut = true
  · rw [if_pos hgoes]
    exact Or.inl ⟨hgoes, rfl, rfl, rfl⟩
  · rw [if_neg hgoes]
    exact Or.inr ⟨hgoes, rfl, rfl⟩

theorem writeRow_cases (family : StyleWriterFamily) (maxFree : ℤ) (room : ℕ)
    (a : Bytes × RowAnswers) (hok : s.ok = true) :
    (¬ s.Flushes room a.1 ∧
      writeRow family maxFree room s a = { s with block := s.block ++ a.1 }) ∨
    (s.Flushes room a.1 ∧
      firstRoom family (s.block ++ a.1).length maxFree s.free a.2.answers = none ∧
      (writeRow family maxFree room s a).sent = s.sent ∧
      (writeRow family maxFree room s a).ok = false) ∨
    (s.Flushes room a.1 ∧ ∃ v,
      firstRoom family (s.block ++ a.1).length maxFree s.free a.2.answers = some v ∧
      writeRow family maxFree room s a =
        sendBlock maxFree { s with free := v, block := s.block ++ a.1 } a.2.goesOut) := by
  unfold writeRow
  rw [if_pos hok]
  dsimp only
  by_cases hflush : s.Flushes room a.1
  · refine Or.inr ?_
    rw [if_pos (show s.free < ((s.block ++ a.1).length + G_FRAMING : ℕ) ∨ _ from hflush)]
    cases hwait : makeRoom family (s.block ++ a.1).length maxFree s.free a.2.answers with
    | mk v made =>
      cases made with
      | true => exact Or.inr ⟨hflush, v, (makeRoom_eq_true_iff _ _).1 hwait, rfl⟩
      | false =>
        refine Or.inl ⟨hflush, ?_, rfl, rfl⟩
        refine Option.eq_none_iff_forall_ne_some.2 fun w hw => ?_
        have hmade := (makeRoom_eq_true_iff _ _).2 hw
        rw [hwait] at hmade
        cases hmade
  · refine Or.inl ⟨hflush, ?_⟩
    rw [if_neg (show ¬ (s.free < ((s.block ++ a.1).length + G_FRAMING : ℕ) ∨ _) from hflush)]

theorem writeRow_of_failed (a : Bytes × RowAnswers) (hok : s.ok = false) :
    writeRow family maxFree room s a = s := by
  rw [writeRow, if_neg (by rw [hok]; exact Bool.false_ne_true)]

/-! ## The rows in order -/

theorem Sending.Carries.sendBlock {rows : List Bytes} (h : s.Carries rows) (hok : s.ok = true)
    (goesOut : Bool) : (sendBlock maxFree s goesOut).Carries rows := by
  have hall := h.all hok
  rcases sendBlock_cases maxFree s goesOut with
    ⟨-, hsent, hblock, -⟩ | ⟨-, hsent, hfailed⟩
  · have hpayload : (StyleWriter.sendBlock maxFree s goesOut).payload = rows.flatten := by
      rw [← hall, payload, hsent]
      simp [payload]
    exact ⟨hpayload ▸ List.prefix_rfl, fun _ => by rw [hpayload, hblock, List.append_nil]⟩
  · refine ⟨?_, fun hok => absurd hok (by rw [hfailed]; exact Bool.false_ne_true)⟩
    rw [payload, hsent]
    exact h.goes

theorem Sending.Carries.row {rows : List Bytes} (h : s.Carries rows) (hok : s.ok = true)
    (free : ℤ) (row : Bytes) :
    Sending.Carries (rows ++ [row]) { s with free := free, block := s.block ++ row } := by
  have hflat : (rows ++ [row]).flatten = rows.flatten ++ row := by simp
  constructor
  · rw [hflat]
    exact h.goes.trans (List.prefix_append _ _)
  · intro _
    rw [hflat, ← h.all hok, List.append_assoc]
    rfl

theorem Sending.Carries.writeRow {rows : List Bytes} (h : s.Carries rows)
    (a : Bytes × RowAnswers) :
    (writeRow family maxFree room s a).Carries (rows ++ [a.1]) := by
  have hmore : rows.flatten <+: (rows ++ [a.1]).flatten := by
    rw [List.flatten_append]
    exact List.prefix_append _ _
  cases hok : s.ok with
  | false =>
    rw [writeRow_of_failed a hok]
    exact ⟨h.goes.trans hmore, fun hok' => absurd (hok.symm.trans hok') Bool.false_ne_true⟩
  | true =>
    rcases writeRow_cases family maxFree room a hok with
      ⟨-, heq⟩ | ⟨-, -, hsent, hfailed⟩ | ⟨-, v, -, heq⟩
    · rw [heq]
      exact h.row hok s.free a.1
    · refine ⟨?_, fun hok' => absurd (hfailed.symm.trans hok') Bool.false_ne_true⟩
      rw [payload, hsent]
      exact h.goes.trans hmore
    · rw [heq]
      exact (h.row hok v a.1).sendBlock hok a.2.goesOut

/-- **The blocks hold the rows in order**, as far as they have gone. -/
theorem Sending.Carries.run {rows : List Bytes} (h : s.Carries rows)
    (as : List (Bytes × RowAnswers)) :
    (run (StyleWriter.writeRow family maxFree room) s as).Carries (rows ++ as.map Prod.fst) := by
  induction as generalizing s rows with
  | nil => simpa using h
  | cons a as ih =>
    rw [run_cons, List.map_cons, List.append_cons]
    exact ih (h.writeRow a)

/-! ## The blocks and the buffer -/

/-- The row's block is not empty, and the free space it goes by has not room for the payload alone
    while the buffer is not empty. -/
def RowFits (family : StyleWriterFamily) (maxFree : ℤ) (room : ℕ) (s : Sending)
    (a : Bytes × RowAnswers) : Prop :=
  let block := s.block ++ a.1
  s.ok = true → s.Flushes room a.1 → block.length ≤ 65535 → a.2.goesOut = true →
    ∀ v ∈ firstRoom family block.length maxFree s.free a.2.answers,
      block ≠ [] ∧ ¬ ((block.length : ℤ) ≤ v ∧ v < (block.length + G_FRAMING : ℕ) ∧ v < maxFree)

theorem allPaced_sendBlock_iff (hpaced : s.AllPaced) (goesOut : Bool) :
    (sendBlock maxFree s goesOut).AllPaced ↔
      (s.block.length ≤ 65535 → goesOut = true → Block.Paced ⟨s.block, s.free, maxFree⟩) := by
  rcases sendBlock_cases maxFree s goesOut with
    ⟨⟨hlen, hout⟩, hsent, -, -⟩ | ⟨hstays, hsent, -⟩
  · rw [Sending.AllPaced, hsent]
    constructor
    · intro hall _ _
      exact hall _ (List.mem_append_right _ List.mem_cons_self)
    · intro hblock b hb
      rcases List.mem_append.1 hb with hb | hb
      · exact hpaced b hb
      · rw [List.mem_singleton.1 hb]
        exact hblock hlen hout
  · rw [Sending.AllPaced, hsent]
    exact iff_of_true hpaced fun hlen hout => absurd ⟨hlen, hout⟩ hstays

/-- **A row sends a paced block**, if it sends one, exactly if it fits. -/
theorem writeRow_paced_iff (hpaced : s.AllPaced) (a : Bytes × RowAnswers) :
    (writeRow family maxFree room s a).AllPaced ↔ RowFits family maxFree room s a := by
  cases hok : s.ok with
  | false =>
    rw [writeRow_of_failed a hok]
    exact iff_of_true hpaced fun hok' => absurd (hok.symm.trans hok') Bool.false_ne_true
  | true =>
    rcases writeRow_cases family maxFree room a hok with
      ⟨hstays, heq⟩ | ⟨-, hnone, hsent, -⟩ | ⟨hflush, v, hv, heq⟩
    · rw [heq]
      exact iff_of_true hpaced fun _ hflush => absurd hflush hstays
    · rw [Sending.AllPaced, hsent]
      refine iff_of_true hpaced fun _ _ _ _ v hv => ?_
      rw [hnone] at hv
      cases hv
    · rw [heq, allPaced_sendBlock_iff (s := { s with free := v, block := s.block ++ a.1 }) hpaced]
      have hends := firstRoom_some hv
      constructor
      · intro hblock _ _ hlen hout w hw
        obtain rfl := Option.some.inj (hv.symm.trans hw)
        obtain ⟨hne, hfits⟩ := hblock hlen hout
        refine ⟨hne, fun htight => ?_⟩
        rcases hfits with hfits | hempty
        · exact absurd htight.2.1 (not_lt.2 hfits)
        · exact absurd htight.2.2 (not_lt.2 hempty)
      · intro hrow hlen hout
        obtain ⟨hne, htight⟩ := hrow hok hflush hlen hout v hv
        refine ⟨hne, ?_⟩
        rcases hends with hneed | hempty
        · by_contra hshort
          obtain ⟨hfits, hempty⟩ := not_or.1 hshort
          exact htight ⟨hneed, not_le.1 hfits, not_le.1 hempty⟩
        · exact Or.inr hempty

theorem writeRow_restFits (a : Bytes × RowAnswers) (h : s.RestFits) :
    (writeRow family maxFree room s a).RestFits := by
  cases hok : s.ok with
  | false =>
    rw [writeRow_of_failed a hok]
    exact h
  | true =>
    rcases writeRow_cases family maxFree room a hok with
      ⟨hstays, heq⟩ | ⟨-, -, -, hfailed⟩ | ⟨-, v, -, heq⟩
    · rw [heq]
      exact fun _ _ => not_lt.1 (not_or.1 hstays).1
    · exact fun hok' => absurd (hfailed.symm.trans hok') Bool.false_ne_true
    · rw [heq]
      rcases sendBlock_cases maxFree { s with free := v, block := s.block ++ a.1 } a.2.goesOut with
        ⟨-, -, hblock, -⟩ | ⟨-, -, hfailed⟩
      · exact fun _ hne => absurd hblock hne
      · exact fun hok' => absurd (hfailed.symm.trans hok') Bool.false_ne_true

theorem writeRow_sent_prefix (a : Bytes × RowAnswers) :
    s.sent <+: (writeRow family maxFree room s a).sent := by
  cases hok : s.ok with
  | false => rw [writeRow_of_failed a hok]
  | true =>
    rcases writeRow_cases family maxFree room a hok with
      ⟨-, heq⟩ | ⟨-, -, hsent, -⟩ | ⟨-, v, -, heq⟩
    · rw [heq]
    · rw [hsent]
    · rw [heq]
      rcases sendBlock_cases maxFree { s with free := v, block := s.block ++ a.1 } a.2.goesOut with
        ⟨-, hsent, -, -⟩ | ⟨-, hsent, -⟩
      · rw [hsent]
        exact List.prefix_append _ _
      · rw [hsent]

/-- **The blocks of the rows are paced exactly if every row fits.** -/
theorem writeRows_paced_iff (hpaced : s.AllPaced) (hrest : s.RestFits)
    (as : List (Bytes × RowAnswers)) :
    (run (writeRow family maxFree room) s as).AllPaced ↔
      Along (writeRow family maxFree room) (RowFits family maxFree room) s as := by
  have hiff : (∀ bs, bs <+: as → (run (writeRow family maxFree room) s bs).AllPaced) ↔
      Along (writeRow family maxFree room) (RowFits family maxFree room) s as :=
    along_iff (writeRow family maxFree room) Sending.RestFits (P := Sending.AllPaced)
      (fun _ a hrest _ _ => writeRow_restFits a hrest)
      (fun _ a _ hpaced => writeRow_paced_iff hpaced a) hrest hpaced
  rw [← hiff]
  constructor
  · rintro hall bs ⟨cs, rfl⟩ b hb
    rw [run_append] at hall
    have hgrows : (run (writeRow family maxFree room) s bs).sent <+:
        (run (writeRow family maxFree room) (run (writeRow family maxFree room) s bs) cs).sent :=
      rel_run (writeRow family maxFree room) (R := fun s t => s.sent <+: t.sent)
        (fun _ => List.prefix_rfl) (fun h h' => h.trans h') (fun _ a => writeRow_sent_prefix a) _ cs
    exact hall b (hgrows.subset hb)
  · intro hall
    exact hall as List.prefix_rfl

theorem sendRest_paced_iff (hrest : s.RestFits) (goesOut : Bool) :
    (sendRest maxFree s goesOut).AllPaced ↔ s.AllPaced := by
  unfold sendRest
  by_cases hgoes : s.ok = true ∧ s.block ≠ []
  · rw [if_pos hgoes]
    constructor
    · rcases sendBlock_cases maxFree s goesOut with
        ⟨-, hsent, -, -⟩ | ⟨-, hsent, -⟩
      · intro hall b hb
        exact hall b (hsent ▸ List.mem_append_left _ hb)
      · intro hall b hb
        exact hall b (hsent ▸ hb)
    · intro hpaced
      rw [allPaced_sendBlock_iff hpaced]
      exact fun _ _ => ⟨hgoes.2, Or.inl (hrest hgoes.1 hgoes.2)⟩
  · rw [if_neg hgoes]

theorem Sending.Carries.sendRest {rows : List Bytes} (h : s.Carries rows) (goesOut : Bool) :
    (sendRest maxFree s goesOut).Carries rows := by
  unfold StyleWriter.sendRest
  split_ifs with hgoes
  · exact h.sendBlock hgoes.1 goesOut
  · exact h

theorem sendRest_block {goesOut : Bool} (hok : (sendRest maxFree s goesOut).ok = true) :
    (sendRest maxFree s goesOut).block = [] := by
  unfold sendRest at hok ⊢
  split_ifs at hok ⊢ with hgoes
  · rcases sendBlock_cases maxFree s goesOut with
      ⟨-, -, hblock, -⟩ | ⟨-, -, hfailed⟩
    · exact hblock
    · exact absurd (hfailed.symm.trans hok) Bool.false_ne_true
  · by_contra hne
    exact hgoes ⟨hok, hne⟩

end

/-! ## Runs of a session -/

/-- A band whose blocks are paced and hold its rows in order, all of them if it went. -/
structure BandLog.Paced (log : BandLog) : Prop where
  blocks : ∀ b ∈ log.blocks, b.Paced
  free : ∀ b ∈ log.blocks, 0 ≤ b.free - b.framed ∨ b.maxFree < b.framed
  inOrder : (log.blocks.map Block.data).flatten <+: log.band.rows.flatten
  whole : log.done = true → (log.blocks.map Block.data).flatten = log.band.rows.flatten

theorem bandLog_paced_iff {t : Sending} {band : Band} (hcarries : t.Carries band.rows)
    (hrest : t.ok = true → t.block = []) (rect : Option Bytes) :
    BandLog.Paced ⟨band, rect, t.sent, t.ok⟩ ↔ t.AllPaced := by
  constructor
  · exact fun h => h.blocks
  · intro hpaced
    refine ⟨hpaced, fun b hb => (hpaced b hb).free_nonneg, hcarries.goes, fun hdone => ?_⟩
    have hall := hcarries.all hdone
    rw [hrest hdone, List.append_nil] at hall
    exact hall

namespace StyleWriterSession

/-- The calls that read the free space or take it. -/
inductive Call where
  /-- the part of the setup that reads the buffer, for a family -/
  | setup (family : StyleWriterFamily) (answer : Option UInt8)
  | writeBand (band : Band) (e : BandAnswers)

/-- A call of the session. -/
def call (s : StyleWriterSession) : Call → StyleWriterSession
  | .setup family answer => { s with family := family }.readFreeSpace answer
  | .writeBand band e => s.writeBand band e

/-- The bands that have been sent are all paced. -/
def Paced (s : StyleWriterSession) : Prop := ∀ log ∈ s.bands, log.Paced

/-- Every row of the band fits, where the band gets as far as its rows. -/
def Fits (s : StyleWriterSession) : Call → Prop
  | .setup _ _ => True
  | .writeBand band e => ∀ room ∈ s.rowsRoom band e,
      Along (writeRow s.family s.maxFree room) (RowFits s.family s.maxFree room) s.sending
        (rowActions band e.rows)

theorem rowActions_rows (band : Band) (rows : ℕ → RowAnswers) :
    (rowActions band rows).map Prod.fst = band.rows := by
  refine List.ext_getElem (by simp [rowActions]) fun i _ _ => ?_
  simp [rowActions]

theorem paced_append_iff {s : StyleWriterSession} (hs : s.Paced) (log : BandLog) :
    (∀ l ∈ s.bands ++ [log], l.Paced) ↔ log.Paced := by
  constructor
  · intro hall
    exact hall log (List.mem_append_right _ List.mem_cons_self)
  · intro hlog l hl
    rcases List.mem_append.1 hl with hl | hl
    · exact hs l hl
    · exact List.mem_singleton.1 hl ▸ hlog

theorem BandLog.paced_nil (band : Band) (rect : Option Bytes) :
    BandLog.Paced ⟨band, rect, [], false⟩ :=
  ⟨fun _ hb => absurd hb List.not_mem_nil, fun _ hb => absurd hb List.not_mem_nil,
    List.nil_prefix, fun hdone => absurd hdone Bool.false_ne_true⟩

/-- **A band is sent in paced blocks exactly if every row of it fits.** -/
theorem writeBand_paced_iff {s : StyleWriterSession} (hs : s.Paced) (band : Band)
    (e : BandAnswers) : (s.writeBand band e).Paced ↔ s.Fits (.writeBand band e) := by
  unfold writeBand Fits
  cases hrows : s.rowsRoom band e with
  | none =>
    refine iff_of_true ?_ fun room hroom => absurd (hrows ▸ hroom) (Option.not_mem_none room)
    exact (paced_append_iff hs _).2 (BandLog.paced_nil band _)
  | some room =>
    have hstart : s.sending.Carries [] := ⟨List.nil_prefix, fun _ => rfl⟩
    have hpaced : s.sending.AllPaced := fun _ hb => absurd hb List.not_mem_nil
    have hfits : s.sending.RestFits := fun _ hne => absurd rfl hne
    have hcarries : (run (writeRow s.family s.maxFree room) s.sending
        (rowActions band e.rows)).Carries ([] ++ (rowActions band e.rows).map Prod.fst) :=
      hstart.run (rowActions band e.rows)
    rw [rowActions_rows, List.nil_append] at hcarries
    have hkeeps : ∀ t a, t.RestFits → True → (writeRow s.family s.maxFree room t a).RestFits :=
      fun _ a h _ => writeRow_restFits a h
    have hfits' : (run (writeRow s.family s.maxFree room) s.sending
        (rowActions band e.rows)).RestFits :=
      inv_run _ hkeeps hfits (along_true _ _)
    have hsent : (sendRest s.maxFree _ e.restOut).Carries band.rows := hcarries.sendRest e.restOut
    have hlog := bandLog_paced_iff hsent sendRest_block (bandRect s.family band)
    rw [sendRest_paced_iff hfits', writeRows_paced_iff hpaced hfits] at hlog
    refine ((paced_append_iff hs _).trans hlog).trans ⟨?_, fun h => h room hrows⟩
    rintro halong room' hroom
    obtain rfl := Option.some.inj (hrows.symm.trans hroom)
    exact halong

theorem call_paced_iff {s : StyleWriterSession} (hs : s.Paced) (c : Call) :
    (s.call c).Paced ↔ s.Fits c := by
  cases c with
  | setup family answer =>
    cases answer <;> exact iff_of_true hs trivial
  | writeBand band e => exact writeBand_paced_iff hs band e

/-- **A session's blocks respect the printer's buffer exactly if every row of its bands fits**: the
    free space that ends a wait has room for the framing of the block as well, or the buffer is as
    empty as at the start, and no empty row goes out as a block. -/
theorem blocks_paced_iff (family : StyleWriterFamily) (calls : List Call) :
    (∀ cs, cs <+: calls → (run call (start family) cs).Paced) ↔
      Along call Fits (start family) calls := by
  have hstart : (start family).Paced := fun _ hl => absurd hl List.not_mem_nil
  exact along_iff call (fun _ => True) (P := Paced) (fun _ _ _ _ _ => trivial)
    (fun _ c _ hs => call_paced_iff hs c) trivial hstart

/-- Two rows of 123 bytes: literals, and literals with white behind them. -/
def tightBand : Band where
  top := 0
  width := 984
  kind := .mono
  rows :=
    [0x3E :: List.replicate 62 0xA5 ++ 0x3D :: List.replicate 61 0xA5,
      0x3C :: List.replicate 60 0x5A ++ [0xBE, 0x81]]

/-- 128 bytes free when empty, and 64 when the second row waits. -/
def tightCalls : List Call :=
  [.setup .original (some 34),
    .writeBand tightBand
      { clear := true
        rectOut := true
        rows := fun i => ⟨if i = 0 then [] else [some 33], true⟩
        restOut := true }]

/-- The second row goes as a block of 67 bytes by a reading of 64. -/
theorem tightCalls_not_paced : ¬ (run call (start .original) tightCalls).Paced := by
  intro hpaced
  have hsent : (⟨0x3C :: List.replicate 60 0x5A ++ [0xBE, 0x81], 64, 128⟩ : Block) ∈
      (run call (start .original) tightCalls).bands.flatMap BandLog.blocks := by
    decide +kernel
  obtain ⟨log, hlog, hblock⟩ := List.mem_flatMap.1 hsent
  have hfits := (hpaced log hlog).blocks _ hblock
  revert hfits
  decide

end StyleWriterSession

end TailTalk.StyleWriter
