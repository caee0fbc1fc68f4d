/-
  Pascal strings on the wire and back — which names are written as they were
  read.

  A byte of MacRoman comes back as it was.  But the decoder takes a byte order
  mark for what it announces, and then no bytes come back.
-/
import TailTalk.Afp.Names
import TailTalk.Lib.Utf16

namespace TailTalk

open Lib

/-! ## The encoding with its marks -/

/-- `MACINTOSH`: text with a UTF-16 byte order mark is decoded as it says. -/
@[reducible] def MACINTOSH : MacRoman :=
  { macintosh with
    decodeUtf16le := fromUtf16Lossy unitLe
    decodeUtf16be := fromUtf16Lossy unitBe }

/-- Does the text start with a byte order mark? -/
def startsWithBom : Bytes → Bool
  | 0xEF :: 0xBB :: 0xBF :: _ => true
  | 0xFF :: 0xFE :: _ => true
  | 0xFE :: 0xFF :: _ => true
  | _ => false

namespace MacRoman

section
variable [MacRoman]

theorem byteOf_toChar (b : UInt8) : byteOf (toChar b) = some b := by
  unfold byteOf
  split
  · rename_i hlt
    have hsmall : (UInt8.ofNat (toChar b).toNat).toNat = (toChar b).toNat := by
      rw [UInt8.toNat_ofNat', Nat.mod_eq_of_lt (by omega)]
    have hchar : toChar (UInt8.ofNat (toChar b).toNat) = toChar b := by
      rw [toChar_ascii _ (UInt8.lt_iff_toNat_lt.2 (by rw [hsmall]; exact hlt)), hsmall,
        Char.ofNat_toNat]
    rw [toChar_inj hchar]
  · rcases hfind : ((List.range 256).map UInt8.ofNat).find? (fun b' => toChar b' = toChar b) with
      _ | b'
    · have hnone := List.find?_eq_none.1 hfind b
        (List.mem_map.2 ⟨b.toNat, List.mem_range.2 b.toNat_lt, UInt8.ofNat_toNat⟩)
      simp at hnone
    · have hsome := List.find?_some hfind
      rw [decide_eq_true_eq] at hsome
      rw [toChar_inj hsome]

theorem encodeChar_toChar (b : UInt8) : encodeChar (toChar b) = [b] := by
  rw [encodeChar, byteOf_toChar]

/-- **Every byte has its character.** -/
theorem encode_map_toChar (data : Bytes) : encode (data.map toChar) = data := by
  induction data with
  | nil => rfl
  | cons b data ih =>
    rw [List.map_cons, encode, List.flatMap_cons, encodeChar_toChar]
    exact congrArg (b :: ·) ih

theorem toChar_of_byteOf {c : Char} {b : UInt8} (h : byteOf c = some b) : toChar b = c := by
  unfold byteOf at h
  split at h
  · rename_i hlt
    obtain rfl := Option.some.inj h
    have hsmall : (UInt8.ofNat c.toNat).toNat = c.toNat := by
      rw [UInt8.toNat_ofNat', Nat.mod_eq_of_lt (by omega)]
    rw [toChar_ascii _ (UInt8.lt_iff_toNat_lt.2 (by rw [hsmall]; exact hlt)), hsmall,
      Char.ofNat_toNat]
  · have hsome := List.find?_some h
    rwa [decide_eq_true_eq] at hsome

theorem decode_of_no_bom {data : Bytes} (h : startsWithBom data = false) :
    decode data = data.map toChar := by
  unfold decode
  split
  · cases h
  · cases h
  · cases h
  · rfl

/-! ## A UTF-8 mark -/

/-- The bytes that are not ASCII. -/
def high (data : Bytes) : ℕ := data.countP fun b => 0x80 ≤ b

omit [MacRoman] in
theorem high_reference (c : Char) : high (reference c) = 0 := by
  rw [high, List.countP_eq_zero]
  intro b hb
  rw [reference, ascii, List.mem_map] at hb
  obtain ⟨d, hd, rfl⟩ := hb
  have hascii : d.toNat < 128 := by
    rcases List.mem_append.1 hd with hd | hd
    · rcases List.mem_append.1 hd with hd | hd
      · have hmark : ∀ d ∈ ['&', '#'], d.toNat < 128 := by simp
        exact hmark d hd
      · have hdigit := Nat.isDigit_of_mem_toDigits (by decide) (by decide) hd
        rw [Char.isDigit_iff_toNat] at hdigit
        exact lt_of_le_of_lt hdigit.2 (by decide)
    · obtain rfl := List.mem_singleton.1 hd
      decide
  rw [decide_eq_true_eq, UInt8.le_iff_toNat_le, UInt8.toNat_ofNat', Nat.mod_eq_of_lt (by omega)]
  simp only [UInt8.reduceToNat]
  omega

theorem high_encodeChar_le (c : Char) : high (encodeChar c) ≤ if c.toNat < 128 then 0 else 1 := by
  unfold encodeChar
  split
  · rename_i b hb
    split
    · rename_i hlt
      rw [byteOf, if_pos hlt] at hb
      obtain rfl := Option.some.inj hb
      have hnot : ¬ 0x80 ≤ UInt8.ofNat c.toNat := by
        rw [UInt8.le_iff_toNat_le, UInt8.toNat_ofNat', Nat.mod_eq_of_lt (by omega)]
        simp only [UInt8.reduceToNat]
        omega
      simp [high, hnot]
    · exact List.countP_le_length
  · rw [high_reference]
    exact Nat.zero_le _

theorem high_encode_utf8_le (bs : Bytes) : high (encode (fromUtf8Lossy bs)) ≤ high bs := by
  induction bs using utf8_induction with
  | hnil => exact Nat.le_refl 0
  | hcons b rest ih =>
    rw [fromUtf8Lossy_cons, encode, List.flatMap_cons, high, List.countP_append]
    have hrest : high (encode (fromUtf8Lossy (utf8Char b rest).2)) ≤ high rest :=
      ih.trans (utf8Char_suffix b rest).sublist.countP_le
    have hchar := high_encodeChar_le (utf8Char b rest).1
    have hfirst : high (encodeChar (utf8Char b rest).1) ≤ if 0x80 ≤ b then 1 else 0 := by
      refine hchar.trans ?_
      by_cases hb : 0x80 ≤ b
      · rw [if_pos hb]
        split <;> omega
      · have hlt := UInt8.not_le.1 hb
        have hval : (utf8Char b rest).1.toNat = b.toNat := by
          unfold utf8Char
          dsimp only
          rw [if_pos hlt]
          exact toNat_ofNat (Or.inl (by have := b.toNat_lt; omega))
        have hsmall := UInt8.lt_iff_toNat_lt.1 hlt
        simp only [UInt8.reduceToNat] at hsmall
        rw [hval, if_pos hsmall]
        exact Nat.zero_le _
    have hcons : high (b :: rest) = high rest + if 0x80 ≤ b then 1 else 0 := by
      rw [high, List.countP_cons, high]
      simp only [decide_eq_true_eq]
    rw [hcons]
    unfold high encode at *
    omega

theorem utf8_mark_lost (rest : Bytes) (n : ℕ) :
    (encode (decode (0xEF :: 0xBB :: 0xBF :: rest))).take n ≠ 0xEF :: 0xBB :: 0xBF :: rest := by
  intro h
  have hle : high ((encode (fromUtf8Lossy rest)).take n) ≤ high rest :=
    ((List.take_sublist n _).countP_le).trans (high_encode_utf8_le rest)
  have hmark : high (0xEF :: 0xBB :: 0xBF :: rest) = high rest + 3 := by
    simp [high]
  change (encode (fromUtf8Lossy rest)).take n = _ at h
  rw [h, hmark] at hle
  omega

end

/-! ## A UTF-16 mark -/

section

local instance stringsRoman : MacRoman := MACINTOSH

theorem macintosh_basic (b : UInt8) : Basic (macintoshChar b) ∧
    (macintoshChar b).toNat / 256 ≠ 0x26 ∧ (macintoshChar b).toNat / 256 ≠ 0x23 := by
  have hall : ∀ i < 256, (macintoshChar (UInt8.ofNat i) ≠ REPLACEMENT ∧
      (macintoshChar (UInt8.ofNat i)).toNat < 65536) ∧
        (macintoshChar (UInt8.ofNat i)).toNat / 256 ≠ 0x26 ∧
          (macintoshChar (UInt8.ofNat i)).toNat / 256 ≠ 0x23 := by
    decide +kernel
  have hb := hall b.toNat b.toNat_lt
  rwa [UInt8.ofNat_toNat] at hb

/-- A text up to its first reference. -/
theorem encode_split (cs : Name) : (encode cs).length = cs.length ∨
    ∃ mapped c rest, cs = mapped ++ c :: rest ∧ (encode mapped).length = mapped.length ∧
      (∀ c ∈ mapped, (byteOf c).isSome) ∧ byteOf c = none := by
  induction cs with
  | nil => exact Or.inl rfl
  | cons c cs ih =>
    rcases hc : byteOf c with _ | b
    · exact Or.inr ⟨[], c, cs, rfl, rfl, fun _ h => (nomatch h), hc⟩
    · have hlen : ∀ s, (encode (c :: s)).length = (encode s).length + 1 := by
        intro s
        rw [encode, List.flatMap_cons, encodeChar, hc]
        rfl
      rcases ih with ih | ⟨mapped, c', rest, rfl, hmapped, hsome, hnone⟩
      · exact Or.inl (by rw [hlen, ih, List.length_cons])
      · refine Or.inr ⟨c :: mapped, c', rest, rfl, ?_, ?_, hnone⟩
        · rw [hlen, hmapped, List.length_cons]
        · exact List.forall_mem_cons.2 ⟨by rw [hc]; rfl, hsome⟩

theorem getElem?_reference (mapped rest : Name) {c : Char} (hc : byteOf c = none) :
    (encode (mapped ++ c :: rest))[(encode mapped).length]? = some 0x26 ∧
      (encode (mapped ++ c :: rest))[(encode mapped).length + 1]? = some 0x23 := by
  have hreference : ∃ digits, reference c = 0x26 :: 0x23 :: digits := ⟨_, rfl⟩
  obtain ⟨digits, hdigits⟩ := hreference
  have hsplit : encode (mapped ++ c :: rest) =
      encode mapped ++ (0x26 :: 0x23 :: (digits ++ encode rest)) := by
    rw [encode, List.flatMap_append, List.flatMap_cons, encodeChar, hc]
    dsimp only
    rw [hdigits]
    rfl
  rw [hsplit]
  exact ⟨by rw [List.getElem?_append_right (le_refl _), Nat.sub_self]; rfl,
    by rw [List.getElem?_append_right (Nat.le_add_right _ 1), Nat.add_sub_cancel_left]; rfl⟩

theorem utf16_mark_lost {unit : UInt8 → UInt8 → ℕ} {highByte : UInt8 × UInt8 → UInt8}
    {place : ℕ} (hunit : ∀ a b, unit a b < 65536)
    (hhigh : ∀ u, unit u.1 u.2 / 256 = (highByte u).toNat) (hplace : place < 2)
    (hat : ∀ units i, (ofUnits units)[2 * i + place]? = units[i]?.map highByte)
    {mark : UInt8 × UInt8} (hmark : highByte mark ≠ 0x26 ∧ highByte mark ≠ 0x23)
    (rest : Bytes) (n : ℕ) :
    (encode (fromUtf16Lossy unit rest)).take n ≠ mark.1 :: mark.2 :: rest := by
  intro h
  have hlen := congrArg List.length h
  rw [List.length_take, List.length_cons, List.length_cons] at hlen
  have hfew := @fromUtf16Lossy_length unit rest
  rcases encode_split (fromUtf16Lossy unit rest) with hall | ⟨mapped, c, cs, hcs, hmapped, hsome, hc⟩
  · omega
  -- the reference starts at a character, and both of its first bytes are those of earlier units
  obtain ⟨hamp, hnum⟩ := getElem?_reference mapped cs hc
  rw [hcs, List.length_append, List.length_cons] at hfew
  have hbasic : ∀ c ∈ mapped, ∃ b, macintoshChar b = c := by
    intro c hc
    obtain ⟨b, hb⟩ := Option.isSome_iff_exists.1 (hsome c hc)
    exact ⟨b, toChar_of_byteOf hb⟩
  obtain ⟨units, tail, htail, hunits⟩ := units_of_decoded hunit hcs
    fun c hc => by
      obtain ⟨b, rfl⟩ := hbasic c hc
      exact (macintosh_basic b).1
  have hcount : units.length = mapped.length := by
    have := congrArg List.length hunits
    rwa [List.length_map, List.length_map, eq_comm] at this
  have hclear : ∀ u ∈ mark :: units, highByte u ≠ 0x26 ∧ highByte u ≠ 0x23 := by
    refine List.forall_mem_cons.2 ⟨hmark, fun u hu => ?_⟩
    have hmem : unit u.1 u.2 ∈ mapped.map Char.toNat := by
      rw [hunits]
      exact List.mem_map_of_mem hu
    obtain ⟨c, hc, hval⟩ := List.mem_map.1 hmem
    obtain ⟨b, rfl⟩ := hbasic c hc
    have hbyte := (macintosh_basic b).2
    rw [hval, hhigh] at hbyte
    exact ⟨fun heq => hbyte.1 (by rw [heq]; rfl), fun heq => hbyte.2 (by rw [heq]; rfl)⟩
  have hbytes : mark.1 :: mark.2 :: rest = ofUnits (mark :: units) ++ tail := by
    rw [htail]
    rfl
  have hsame : ∀ p, p ≤ mapped.length + 1 →
      (ofUnits (mark :: units))[p]? = (encode (mapped ++ c :: cs))[p]? := by
    intro p hp
    have hwithin : p < (ofUnits (mark :: units)).length := by
      rw [ofUnits_length, List.length_cons, hcount]
      omega
    have hfirst : (ofUnits (mark :: units) ++ tail)[p]? = (ofUnits (mark :: units))[p]? :=
      List.getElem?_append_left hwithin
    rw [← hfirst, ← hbytes, ← h, hcs, List.getElem?_take_of_lt (by omega)]
  have hfind : ∃ i, 2 * i + place = mapped.length ∨ 2 * i + place = mapped.length + 1 :=
    ⟨(mapped.length + 1 - place) / 2, by omega⟩
  obtain ⟨i, hi⟩ := hfind
  have hbyte : (ofUnits (mark :: units))[2 * i + place]? = some 0x26 ∨
      (ofUnits (mark :: units))[2 * i + place]? = some 0x23 := by
    rcases hi with hi | hi
    · rw [hi, hsame _ (by omega), ← hmapped]
      exact Or.inl hamp
    · rw [hi, hsame _ le_rfl, ← hmapped]
      exact Or.inr hnum
  rw [hat] at hbyte
  rcases hbyte with hbyte | hbyte
  · obtain ⟨u, hu, heq⟩ := Option.map_eq_some_iff.1 hbyte
    exact (hclear u (List.mem_of_getElem? hu)).1 heq
  · obtain ⟨u, hu, heq⟩ := Option.map_eq_some_iff.1 hbyte
    exact (hclear u (List.mem_of_getElem? hu)).2 heq

theorem unitLe_high (a b : UInt8) : unitLe a b < 65536 ∧ unitLe a b / 256 = b.toNat := by
  have ha := a.toNat_lt
  have hb := b.toNat_lt
  unfold unitLe
  omega

theorem unitBe_high (a b : UInt8) : unitBe a b < 65536 ∧ unitBe a b / 256 = a.toNat := by
  have ha := a.toNat_lt
  have hb := b.toNat_lt
  unfold unitBe
  omega

theorem no_bom_of_encode_decode {data : Bytes} {n : ℕ} (h : (encode (decode data)).take n = data) :
    startsWithBom data = false := by
  unfold startsWithBom
  split
  · exact absurd h (utf8_mark_lost _ _)
  · exact absurd h (@utf16_mark_lost unitLe Prod.snd 1 (fun a b => (unitLe_high a b).1)
      (fun u => (unitLe_high u.1 u.2).2) (by omega) (fun units i => (getElem?_ofUnits units i).2)
      (0xFF, 0xFE) (by decide) _ _)
  · exact absurd h (@utf16_mark_lost unitBe Prod.fst 0 (fun a b => (unitBe_high a b).1)
      (fun u => (unitBe_high u.1 u.2).2) (by omega) (fun units i => (getElem?_ofUnits units i).1)
      (0xFE, 0xFF) (by decide) _ _)
  · rfl

end

end MacRoman

/-! ## Pascal strings -/

/-- What a client can send as a name: at most 255 bytes. -/
structure PascalString where
  data : Bytes
  short : data.length ≤ 255

/-- The length byte and the bytes. -/
def PascalString.wire (p : PascalString) : Bytes := UInt8.ofNat p.data.length :: p.data

namespace MacString

/-- `MacString::bytes`: the buffer, and the number of bytes that were written to it. -/
def bytes [MacRoman] (s : MacString) (buf : Bytes) : Except AfpError (Bytes × ℕ) :=
  let encoded := MacRoman.encode s.value
  let len := min encoded.length 255
  if buf.length < 1 + len then .error .invalidSize
  else .ok (UInt8.ofNat len :: encoded.take len ++ buf.drop (1 + len), 1 + len)

theorem parse_wire [MacRoman] (p : PascalString) (rest : Bytes) :
    parse (p.wire ++ rest) = .ok ⟨MacRoman.decode p.data, some (1 + p.data.length)⟩ := by
  have hlen : (UInt8.ofNat p.data.length).toNat = p.data.length := by
    have hshort := p.short
    rw [UInt8.toNat_ofNat', Nat.mod_eq_of_lt (by omega)]
  simp only [parse, PascalString.wire, List.cons_append, hlen]
  split
  · rename_i hnil
    rw [List.eq_nil_of_length_eq_zero hnil]
    rfl
  · rw [if_neg (by rw [List.length_append]; omega), List.take_left]

/-- Read, whatever follows it, and written to a buffer that has room for it, the string is the
    same. -/
def Survives [MacRoman] (p : PascalString) : Prop :=
  ∀ rest, ∃ s, parse (p.wire ++ rest) = .ok s ∧ ∀ buf, p.wire.length ≤ buf.length →
    s.bytes buf = .ok (p.wire ++ buf.drop p.wire.length, p.wire.length)

theorem bytes_eq [MacRoman] {s : MacString} (p : PascalString) (h : MacRoman.encode s.value = p.data)
    {buf : Bytes} (hbuf : p.wire.length ≤ buf.length) :
    s.bytes buf = .ok (p.wire ++ buf.drop p.wire.length, p.wire.length) := by
  have hwire : p.wire.length = 1 + p.data.length := by
    rw [PascalString.wire, List.length_cons, Nat.add_comm]
  rw [hwire] at hbuf ⊢
  rw [bytes, h, Nat.min_eq_left p.short, if_neg (Nat.not_lt.2 hbuf), List.take_length]
  rfl

theorem encode_of_bytes [MacRoman] {s : MacString} {p : PascalString}
    (h : s.bytes p.wire = .ok (p.wire, p.wire.length)) :
    (MacRoman.encode s.value).take p.data.length = p.data := by
  have hwire : p.wire.length = 1 + p.data.length := by
    rw [PascalString.wire, List.length_cons, Nat.add_comm]
  rw [bytes] at h
  split at h
  · cases h
  · obtain ⟨hbytes, hlen⟩ := Prod.mk.inj (Except.ok.inj h)
    rw [hwire] at hlen
    rw [Nat.add_left_cancel hlen, ← hwire, List.drop_length, List.append_nil] at hbytes
    exact (List.cons.inj hbytes).2

/-- **A name survives exactly if it does not start with a byte order mark.** -/
theorem survives_iff (p : PascalString) :
    @Survives MACINTOSH p ↔ startsWithBom p.data = false := by
  let _ := MACINTOSH
  constructor
  · intro h
    obtain ⟨s, hparse, hbytes⟩ := h []
    obtain rfl := Except.ok.inj ((parse_wire p []).symm.trans hparse)
    have hwritten := hbytes p.wire le_rfl
    rw [List.drop_length, List.append_nil] at hwritten
    exact MacRoman.no_bom_of_encode_decode (encode_of_bytes hwritten)
  · intro h rest
    refine ⟨_, parse_wire p rest, fun buf hbuf => bytes_eq p ?_ hbuf⟩
    rw [MacRoman.decode_of_no_bom h]
    exact MacRoman.encode_map_toChar p.data

/-- A name of two bytes comes back as none. -/
theorem mark_not_survives : ¬ @Survives MACINTOSH ⟨[0xFF, 0xFE], by decide⟩ := by
  intro h
  obtain ⟨s, hparse, hbytes⟩ := h []
  obtain rfl := Except.ok.inj ((@parse_wire MACINTOSH _ []).symm.trans hparse)
  have hwritten := hbytes [0, 0, 0] (by decide)
  exact absurd hwritten (by decide)

end MacString

end TailTalk
