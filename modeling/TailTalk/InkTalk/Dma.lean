/-
  DMA words — the symbols of a frame, thirty-two to a word.

  Frames to send are packed from the symbols of the general encoder; core 1
  builds the words of its short replies itself, bit by bit.
  `buildSmallFrameDma_eq`: the words are the same.
-/
import TailTalk.LocalTalk.Hdlc
import Mathlib.Tactic.Common

namespace TailTalk.InkTalk

open Lib
open LocalTalk (FLAG Fm0Encoder buildTxBuffer hdlcBits)

/-- Room for any frame. -/
def TX_DMA_BUF_WORDS : ℕ := 512

/-- Room for a reply. -/
def AUTOREPLY_DMA_BUF_WORDS : ℕ := 16

/-! ## The general path -/

/-- One more word. -/
def packChunk : Vector UInt32 TX_DMA_BUF_WORDS × ℕ → List Bool →
    Checked (Vector UInt32 TX_DMA_BUF_WORDS × ℕ)
  | (dmaBuf, count), chunk => do
    let dmaBuf ← storeAt dmaBuf count (packWord chunk)
    return (dmaBuf, count + 1)

/-- Pack the symbols into the words at the front of `dmaBuf`; the number of words. -/
def packFm0IntoDmaBuf (fm0 : List Bool) (dmaBuf : Vector UInt32 TX_DMA_BUF_WORDS) :
    Checked (Vector UInt32 TX_DMA_BUF_WORDS × ℕ) :=
  (chunks 32 fm0).foldlM packChunk (dmaBuf, 0)

/-! ## The small frames of core 1 -/

/-- One more bit in an array of 256. -/
def pushBit (bits : List Bool) (b : Bool) : Checked (List Bool) :=
  if bits.length < 256 then .ok (bits ++ [b]) else .error (.index bits.length 256)

/-- A bit of the frame, and the zero after five ones. -/
def pushFrameBit : List Bool × ℕ → Bool → Checked (List Bool × ℕ)
  | (bits, onesCount), bit => do
    let bits ← pushBit bits bit
    if bit then
      if onesCount + 1 = 5 then
        let bits ← pushBit bits false
        return (bits, 0)
      else return (bits, onesCount + 1)
    else return (bits, 0)

/-- The bits of a small frame.  The CRC that the source runs over them is not used. -/
def smallFrameBits (frame : Vector UInt8 5) : Checked (List Bool) := do
  let bits ← (wireBits [FLAG, FLAG]).foldlM pushBit []
  let (bits, _) ← (wireBits frame.toList).foldlM pushFrameBit (bits, 0)
  let bits ← (byteBits FLAG).foldlM pushBit bits
  (List.replicate 16 true).foldlM pushBit bits

/-- The words written so far and the one that is being filled. -/
structure WordPacker where
  dmaBuf : Vector UInt32 AUTOREPLY_DMA_BUF_WORDS
  fm0Count : ℕ
  wordCount : ℕ
  currentWord : UInt32
  bitInWord : ℕ

namespace WordPacker

/-- An empty buffer. -/
def new (dmaBuf : Vector UInt32 AUTOREPLY_DMA_BUF_WORDS) : WordPacker := ⟨dmaBuf, 0, 0, 0, 0⟩

/-- A symbol more. -/
def pushSymbol (p : WordPacker) (sym : Bool) : Checked WordPacker := do
  let p := { p with
    currentWord := p.currentWord ||| sym.toUInt32 <<< UInt32.ofNat p.bitInWord
    bitInWord := p.bitInWord + 1
    fm0Count := p.fm0Count + 1 }
  if p.bitInWord = 32 then
    let dmaBuf ← storeAt p.dmaBuf p.wordCount p.currentWord
    return { p with dmaBuf, wordCount := p.wordCount + 1, currentWord := 0, bitInWord := 0 }
  else return p

/-- The two symbols of a bit. -/
def pushCell : Fm0Encoder × WordPacker → Bool → Checked (Fm0Encoder × WordPacker)
  | (enc, p), bit => do
    let ((boundary, mid), enc) := enc.encodeBit bit
    let p ← p.pushSymbol boundary
    let p ← p.pushSymbol mid
    return (enc, p)

/-- The last word, if it was begun. -/
def finish (p : WordPacker) : Checked WordPacker := do
  if 0 < p.bitInWord then
    let dmaBuf ← storeAt p.dmaBuf p.wordCount p.currentWord
    return { p with dmaBuf, wordCount := p.wordCount + 1 }
  else return p

end WordPacker

/-- The words of a frame in `dmaBuf`, how many there are, and the number of symbols. -/
def buildSmallFrameDma (frame : Vector UInt8 5) (dmaBuf : Vector UInt32 AUTOREPLY_DMA_BUF_WORDS) :
    Checked (Vector UInt32 AUTOREPLY_DMA_BUF_WORDS × ℕ × ℕ) := do
  let bits ← smallFrameBits frame
  let (_, p) ← bits.foldlM WordPacker.pushCell (.new, .new dmaBuf)
  let p ← p.finish
  return (p.dmaBuf, p.wordCount, p.fm0Count)

/-! ## The words of the general path -/

/-- The words behind those already written. -/
theorem foldlM_packChunk (cs : List (List Bool)) (dmaBuf : Vector UInt32 TX_DMA_BUF_WORDS)
    (count : ℕ) (h : count + cs.length ≤ TX_DMA_BUF_WORDS) :
    ∃ dmaBuf', cs.foldlM packChunk (dmaBuf, count) = .ok (dmaBuf', count + cs.length) ∧
      dmaBuf'.toList.take (count + cs.length) =
        dmaBuf.toList.take count ++ cs.map packWord := by
  induction cs generalizing dmaBuf count with
  | nil => exact ⟨dmaBuf, rfl, by simp⟩
  | cons c cs ih =>
    have hcount : count + (c :: cs).length = count + 1 + cs.length := by
      rw [List.length_cons, Nat.add_comm cs.length, Nat.add_assoc]
    rw [hcount] at h ⊢
    obtain ⟨dmaBuf', hstore, htake⟩ :=
      storeAt_eq dmaBuf (packWord c) (show count < TX_DMA_BUF_WORDS by omega)
    obtain ⟨dmaBuf'', hrest, htake'⟩ := ih dmaBuf' (count + 1) h
    have hword : packChunk (dmaBuf, count) c = .ok (dmaBuf', count + 1) := by
      simp only [packChunk, hstore]
      rfl
    refine ⟨dmaBuf'', ?_, ?_⟩
    · rw [List.foldlM_cons, hword]
      exact hrest
    · rw [htake', htake, List.append_assoc]
      rfl

theorem packFm0IntoDmaBuf_eq {fm0 : List Bool} (dmaBuf : Vector UInt32 TX_DMA_BUF_WORDS)
    (h : (packWords fm0).length ≤ TX_DMA_BUF_WORDS) :
    ∃ dmaBuf', packFm0IntoDmaBuf fm0 dmaBuf = .ok (dmaBuf', (packWords fm0).length) ∧
      dmaBuf'.toList.take (packWords fm0).length = packWords fm0 := by
  rw [packWords, List.length_map] at h ⊢
  obtain ⟨dmaBuf', hbuf, htake⟩ :=
    foldlM_packChunk (chunks 32 fm0) dmaBuf 0 (by rwa [Nat.zero_add])
  rw [Nat.zero_add] at hbuf htake
  exact ⟨dmaBuf', hbuf, htake⟩

/-! ## The bits of a small frame -/

theorem pushBit_of_lt {bits : List Bool} (b : Bool) (h : bits.length < 256) :
    pushBit bits b = .ok (bits ++ [b]) := if_pos h

theorem foldlM_pushBit {bits : List Bool} (bs : List Bool) (h : bits.length + bs.length ≤ 256) :
    bs.foldlM pushBit bits = .ok (bits ++ bs) := by
  induction bs generalizing bits with
  | nil => simp; rfl
  | cons b bs ih =>
    rw [List.length_cons] at h
    rw [List.foldlM_cons, pushBit_of_lt b (by omega)]
    refine (ih (by rw [List.length_append, List.length_singleton]; omega)).trans ?_
    rw [List.append_assoc]
    rfl

theorem foldlM_pushFrameBit (bits : List Bool) (onesCount : ℕ) (data : List Bool)
    (h : bits.length + (stuffed onesCount data).length ≤ 256) :
    ∃ onesCount', data.foldlM pushFrameBit (bits, onesCount) =
      .ok (bits ++ stuffed onesCount data, onesCount') := by
  induction data generalizing bits onesCount with
  | nil => exact ⟨onesCount, by simp [stuffed]; rfl⟩
  | cons bit data ih =>
    cases bit with
    | false =>
      simp only [stuffed, List.length_cons] at h
      obtain ⟨onesCount', hrest⟩ := ih (bits ++ [false]) 0
        (by rw [List.length_append, List.length_singleton]; omega)
      refine ⟨onesCount', ?_⟩
      have hbit : pushFrameBit (bits, onesCount) false = .ok (bits ++ [false], 0) := by
        simp only [pushFrameBit]
        rw [pushBit_of_lt _ (by omega)]
        rfl
      rw [List.foldlM_cons, hbit, stuffed]
      refine hrest.trans ?_
      rw [List.append_assoc]
      rfl
    | true =>
      by_cases hfive : onesCount + 1 = 5
      · simp only [stuffed, if_pos hfive, List.length_cons] at h ⊢
        obtain ⟨onesCount', hrest⟩ := ih (bits ++ [true] ++ [false]) 0
          (by simp only [List.length_append, List.length_singleton]; omega)
        refine ⟨onesCount', ?_⟩
        have hbit : pushFrameBit (bits, onesCount) true = .ok (bits ++ [true] ++ [false], 0) := by
          simp only [pushFrameBit]
          rw [pushBit_of_lt _ (by omega)]
          simp only [if_true, if_pos hfive]
          change (pushBit (bits ++ [true]) false >>= fun bits => .ok (bits, 0)) = _
          rw [pushBit_of_lt _ (by rw [List.length_append, List.length_singleton]; omega)]
          rfl
        rw [List.foldlM_cons, hbit]
        refine hrest.trans ?_
        rw [List.append_assoc, List.append_assoc]
        rfl
      · simp only [stuffed, if_neg hfive, List.length_cons] at h ⊢
        obtain ⟨onesCount', hrest⟩ := ih (bits ++ [true]) (onesCount + 1)
          (by rw [List.length_append, List.length_singleton]; omega)
        refine ⟨onesCount', ?_⟩
        have hbit : pushFrameBit (bits, onesCount) true =
            .ok (bits ++ [true], onesCount + 1) := by
          simp only [pushFrameBit]
          rw [pushBit_of_lt _ (by omega)]
          simp only [if_true, if_neg hfive]
          rfl
        rw [List.foldlM_cons, hbit]
        refine hrest.trans ?_
        rw [List.append_assoc]
        rfl

/-- The bits are those of the general encoder. -/
theorem smallFrameBits_eq (frame : Vector UInt8 5) :
    smallFrameBits frame = .ok (hdlcBits frame.toList) := by
  have hstuffed := stuffed_length_le (show 0 < 5 by decide) (wireBits frame.toList)
  rw [wireBits_length, Vector.length_toList] at hstuffed
  have hopen : (wireBits [FLAG, FLAG]).foldlM pushBit [] = .ok (wireBits [FLAG, FLAG]) :=
    foldlM_pushBit _ (by decide)
  have hflags : (wireBits [FLAG, FLAG]).length = 16 := rfl
  obtain ⟨onesCount, hbody⟩ := foldlM_pushFrameBit (wireBits [FLAG, FLAG]) 0
    (wireBits frame.toList) (by omega)
  rw [smallFrameBits, hopen]
  simp only [bind, Except.bind] at hbody ⊢
  rw [hbody]
  simp only
  rw [foldlM_pushBit _ (by simp only [List.length_append, hflags, byteBits_length]; omega)]
  simp only
  rw [foldlM_pushBit _ (by
    simp only [List.length_append, hflags, byteBits_length, List.length_replicate]; omega)]
  rfl

/-! ## The words of a small frame -/

namespace WordPacker

/-- The packer holds `syms`: full words in the buffer, and the rest in the current one. -/
structure Holds (p : WordPacker) (full : List (List Bool)) (part : List Bool) : Prop where
  lengths : ∀ c ∈ full, c.length = 32
  rest_lt : part.length < 32
  wordCount : p.wordCount = full.length
  bitInWord : p.bitInWord = part.length
  currentWord : p.currentWord = packWord part
  dmaBuf : p.dmaBuf.toList.take full.length = full.map packWord
  fm0Count : p.fm0Count = (full.flatten ++ part).length

theorem Holds.length_eq {p : WordPacker} {full : List (List Bool)} {part : List Bool}
    (h : p.Holds full part) : (full.flatten ++ part).length = 32 * full.length + part.length := by
  rw [List.length_append, List.length_flatten, List.map_congr_left h.lengths]
  simp [Nat.mul_comm]

theorem Holds.new (dmaBuf : Vector UInt32 AUTOREPLY_DMA_BUF_WORDS) :
    (WordPacker.new dmaBuf).Holds [] [] where
  lengths := by simp
  rest_lt := by decide
  wordCount := rfl
  bitInWord := rfl
  currentWord := rfl
  dmaBuf := by simp
  fm0Count := rfl

theorem Holds.pushSymbol {p : WordPacker} {full : List (List Bool)} {part : List Bool}
    (h : p.Holds full part) (sym : Bool)
    (hroom : (full.flatten ++ part).length < 32 * AUTOREPLY_DMA_BUF_WORDS) :
    ∃ p' full' part', p.pushSymbol sym = .ok p' ∧ p'.Holds full' part' ∧
      full'.flatten ++ part' = full.flatten ++ part ++ [sym] := by
  have hlen := h.length_eq
  have hword : p.currentWord ||| sym.toUInt32 <<< UInt32.ofNat p.bitInWord =
      packWord (part ++ [sym]) := by
    rw [packWord_snoc, h.currentWord, h.bitInWord]
  by_cases hlast : part.length + 1 = 32
  · obtain ⟨dmaBuf', hstore, htake⟩ := storeAt_eq p.dmaBuf (packWord (part ++ [sym]))
      (show full.length < AUTOREPLY_DMA_BUF_WORDS by omega)
    refine ⟨⟨dmaBuf', p.fm0Count + 1, p.wordCount + 1, 0, 0⟩, full ++ [part ++ [sym]], [],
      ?_, ?_, ?_⟩
    · simp only [WordPacker.pushSymbol]
      rw [if_pos (by rw [h.bitInWord]; exact hlast), hword, h.wordCount, hstore]
      rfl
    · exact {
        lengths := by
          intro c hc
          rcases List.mem_append.1 hc with hc | hc
          · exact h.lengths c hc
          · rw [List.mem_singleton.1 hc, List.length_append]
            exact hlast
        rest_lt := by decide
        wordCount := by rw [List.length_append, h.wordCount]; rfl
        bitInWord := rfl
        currentWord := rfl
        dmaBuf := by
          rw [List.length_append, List.length_singleton, htake, h.dmaBuf, List.map_append]
          rfl
        fm0Count := by
          change p.fm0Count + 1 = _
          rw [h.fm0Count]
          simp [Nat.add_assoc] }
    · simp
  · refine ⟨⟨p.dmaBuf, p.fm0Count + 1, p.wordCount, packWord (part ++ [sym]), p.bitInWord + 1⟩,
      full, part ++ [sym], ?_, ?_, ?_⟩
    · simp only [WordPacker.pushSymbol]
      rw [if_neg (by rw [h.bitInWord]; exact hlast), hword]
      rfl
    · exact { h with
        rest_lt := by
          rw [List.length_append, List.length_singleton]
          exact Nat.lt_of_le_of_ne h.rest_lt hlast
        bitInWord := by rw [List.length_append, h.bitInWord]; rfl
        currentWord := rfl
        fm0Count := by
          change p.fm0Count + 1 = _
          rw [h.fm0Count]
          simp [Nat.add_assoc] }
    · rw [List.append_assoc]

theorem Holds.foldlM_pushCell {p : WordPacker} {full : List (List Bool)} {part : List Bool}
    (h : p.Holds full part) (enc : Fm0Encoder) (bits : List Bool)
    (hroom : (full.flatten ++ part).length + 2 * bits.length ≤ 32 * AUTOREPLY_DMA_BUF_WORDS) :
    ∃ enc' p' full' part', bits.foldlM pushCell (enc, p) = .ok (enc', p') ∧ p'.Holds full' part' ∧
      full'.flatten ++ part' = full.flatten ++ part ++ enc.symbols bits := by
  induction bits generalizing enc p full part with
  | nil => exact ⟨enc, p, full, part, rfl, h, (List.append_nil _).symm⟩
  | cons bit bits ih =>
    rw [List.length_cons] at hroom
    obtain ⟨p₁, full₁, part₁, hp₁, h₁, heq₁⟩ := h.pushSymbol (enc.encodeBit bit).1.1 (by omega)
    have hlen₁ : (full₁.flatten ++ part₁).length = (full.flatten ++ part).length + 1 := by
      rw [heq₁, List.length_append, List.length_singleton]
    obtain ⟨p₂, full₂, part₂, hp₂, h₂, heq₂⟩ := h₁.pushSymbol (enc.encodeBit bit).1.2 (by omega)
    have hlen₂ : (full₂.flatten ++ part₂).length = (full₁.flatten ++ part₁).length + 1 := by
      rw [heq₂, List.length_append, List.length_singleton]
    obtain ⟨enc', p', full', part', hp', h', heq'⟩ := ih h₂ (enc.encodeBit bit).2 (by omega)
    refine ⟨enc', p', full', part', ?_, h', ?_⟩
    · have hcell : pushCell (enc, p) bit = .ok ((enc.encodeBit bit).2, p₂) := by
        simp only [pushCell, hp₁, bind, Except.bind, hp₂]
        rfl
      rw [List.foldlM_cons, hcell]
      exact hp'
    · rw [heq', heq₂, heq₁, Fm0Encoder.symbols]
      simp

theorem Holds.finish {p : WordPacker} {full : List (List Bool)} {part : List Bool}
    (h : p.Holds full part)
    (hroom : (full.flatten ++ part).length ≤ 32 * AUTOREPLY_DMA_BUF_WORDS) :
    ∃ p', p.finish = .ok p' ∧ p'.fm0Count = (full.flatten ++ part).length ∧
      p'.wordCount = (packWords (full.flatten ++ part)).length ∧
      p'.dmaBuf.toList.take p'.wordCount = packWords (full.flatten ++ part) := by
  have hlen := h.length_eq
  have hwords := packWords_flatten_append h.lengths h.rest_lt
  rcases part with _ | ⟨sym, part⟩
  · have hfull : packWords (full.flatten ++ []) = full.map packWord := by
      rw [hwords, if_pos rfl, List.append_nil]
    have hcount : p.wordCount = (packWords (full.flatten ++ [])).length := by
      rw [hfull, List.length_map]
      exact h.wordCount
    refine ⟨p, ?_, h.fm0Count, hcount, ?_⟩
    · rw [WordPacker.finish, if_neg (by rw [h.bitInWord]; decide)]
      rfl
    · rw [hfull, h.wordCount]
      exact h.dmaBuf
  · rw [if_neg (List.cons_ne_nil _ _)] at hwords
    rw [List.length_cons] at hlen
    obtain ⟨dmaBuf', hstore, htake⟩ := storeAt_eq p.dmaBuf (packWord (sym :: part))
      (show full.length < AUTOREPLY_DMA_BUF_WORDS by omega)
    have hcount : full.length + 1 = (packWords (full.flatten ++ sym :: part)).length := by
      rw [hwords, List.length_append, List.length_map]
      rfl
    refine ⟨{ p with dmaBuf := dmaBuf', wordCount := full.length + 1 }, ?_, h.fm0Count, hcount, ?_⟩
    · rw [WordPacker.finish, if_pos (by rw [h.bitInWord]; exact Nat.succ_pos _), h.currentWord,
        h.wordCount, hstore]
      rfl
    · rw [hwords, htake, h.dmaBuf]

end WordPacker

/-- **The fast path is the general one.** For every frame of five bytes core 1 builds the words that
    the symbols of the general encoder are packed into; they fit the buffer, and no access is out of
    range. -/
theorem buildSmallFrameDma_eq (frame : Vector UInt8 5)
    (autoreplyBuf : Vector UInt32 AUTOREPLY_DMA_BUF_WORDS)
    (dmaBuf : Vector UInt32 TX_DMA_BUF_WORDS) :
    ∃ fm0 autoreplyBuf' dmaBuf' count, buildTxBuffer frame.toList = some fm0 ∧
      packFm0IntoDmaBuf fm0 dmaBuf = .ok (dmaBuf', count) ∧
      buildSmallFrameDma frame autoreplyBuf = .ok (autoreplyBuf', count, fm0.length) ∧
      count ≤ AUTOREPLY_DMA_BUF_WORDS ∧
      autoreplyBuf'.toList.take count = dmaBuf'.toList.take count := by
  have hframe : frame.toList.length = 5 := Vector.length_toList
  have hbits := LocalTalk.hdlcBits_length_le frame.toList
  have htx : buildTxBuffer frame.toList = some (Fm0Encoder.new.symbols (hdlcBits frame.toList)) :=
    LocalTalk.buildTxBuffer_eq (by omega) (by rw [hframe]; decide)
  have hsyms := Fm0Encoder.new.symbols_length (hdlcBits frame.toList)
  have hfit : (Fm0Encoder.new.symbols (hdlcBits frame.toList)).length ≤
      32 * AUTOREPLY_DMA_BUF_WORDS := by
    rw [AUTOREPLY_DMA_BUF_WORDS]
    omega
  obtain ⟨enc', p, full, part, hcells, hholds, hsplit⟩ :=
    (WordPacker.Holds.new autoreplyBuf).foldlM_pushCell .new (hdlcBits frame.toList) (by
      rw [← hsyms]
      simpa using hfit)
  rw [List.flatten_nil, List.nil_append, List.nil_append] at hsplit
  obtain ⟨p', hfinish, hfm0, hcount, htake⟩ := hholds.finish (hsplit ▸ hfit)
  rw [hsplit] at hfm0 hcount htake
  have hle : (packWords (Fm0Encoder.new.symbols (hdlcBits frame.toList))).length ≤
      AUTOREPLY_DMA_BUF_WORDS := by
    rw [packWords, List.length_map, chunks_length]
    omega
  obtain ⟨dmaBuf', hpack, htake'⟩ := packFm0IntoDmaBuf_eq dmaBuf
    (hle.trans (show AUTOREPLY_DMA_BUF_WORDS ≤ TX_DMA_BUF_WORDS by decide))
  refine ⟨_, p'.dmaBuf, dmaBuf', p'.wordCount, htx, ?_, ?_, ?_, ?_⟩
  · rw [hcount]
    exact hpack
  · rw [buildSmallFrameDma, smallFrameBits_eq, ← hfm0]
    simp only [bind, Except.bind] at hcells hfinish ⊢
    rw [hcells]
    simp only
    rw [hfinish]
    rfl
  · rw [hcount]
    exact hle
  · rw [htake, hcount, htake']

end TailTalk.InkTalk
