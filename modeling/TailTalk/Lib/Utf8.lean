/-
  UTF-8 — decoding bytes that need not be it, the replacement character
  standing where they are no sequence.
-/
import TailTalk.Lib.Bytes
import Mathlib

namespace Lib

/-! ## Characters -/

/-- A continuation byte of UTF-8. -/
def isCont (b : UInt8) : Bool := 0x80 ≤ b && b ≤ 0xBF

/-- The range of the byte after the first one of a sequence. -/
def secondRange (b : UInt8) : UInt8 × UInt8 :=
  if b = 0xE0 then (0xA0, 0xBF)
  else if b = 0xED then (0x80, 0x9F)
  else if b = 0xF0 then (0x90, 0xBF)
  else if b = 0xF4 then (0x80, 0x8F)
  else (0x80, 0xBF)

/-- The character for what is no sequence. -/
def REPLACEMENT : Char := Char.ofNat 0xFFFD

/-- The character that starts with `b`. What cannot be part of a sequence is replaced, as much of it
    as began one. -/
def utf8Char (b : UInt8) (rest : Bytes) : Char × Bytes :=
  let second (c : UInt8) : Bool := (secondRange b).1 ≤ c && c ≤ (secondRange b).2
  if b < 0x80 then (Char.ofNat b.toNat, rest)
  else if 0xC2 ≤ b ∧ b ≤ 0xDF then
    match rest with
    | c :: rest => if isCont c then (Char.ofNat (b.toNat % 32 * 64 + c.toNat % 64), rest)
      else (REPLACEMENT, c :: rest)
    | [] => (REPLACEMENT, [])
  else if 0xE0 ≤ b ∧ b ≤ 0xEF then
    match rest with
    | c :: rest =>
      if ¬ second c then (REPLACEMENT, c :: rest)
      else
        match rest with
        | d :: rest =>
          if isCont d then
            (Char.ofNat (b.toNat % 16 * 4096 + c.toNat % 64 * 64 + d.toNat % 64), rest)
          else (REPLACEMENT, d :: rest)
        | [] => (REPLACEMENT, [])
    | [] => (REPLACEMENT, [])
  else if 0xF0 ≤ b ∧ b ≤ 0xF4 then
    match rest with
    | c :: rest =>
      if ¬ second c then (REPLACEMENT, c :: rest)
      else
        match rest with
        | d :: rest =>
          if ¬ isCont d then (REPLACEMENT, d :: rest)
          else
            match rest with
            | e :: rest =>
              if isCont e then
                (Char.ofNat (b.toNat % 8 * 262144 + c.toNat % 64 * 4096 + d.toNat % 64 * 64 +
                  e.toNat % 64), rest)
              else (REPLACEMENT, e :: rest)
            | [] => (REPLACEMENT, [])
        | [] => (REPLACEMENT, [])
    | [] => (REPLACEMENT, [])
  else (REPLACEMENT, rest)

/-- Decode at most `fuel` characters. -/
def decodeLoop : ℕ → Bytes → List Char
  | 0, _ => []
  | _ + 1, [] => []
  | fuel + 1, b :: rest => (utf8Char b rest).1 :: decodeLoop fuel (utf8Char b rest).2

/-- `String::from_utf8_lossy`. -/
def fromUtf8Lossy (bs : Bytes) : List Char := decodeLoop bs.length bs

/-! ## Enough fuel -/

theorem utf8Char_suffix (b : UInt8) (rest : Bytes) : (utf8Char b rest).2 <:+ rest := by
  have hone : ∀ (c : UInt8) (r : Bytes), r <:+ c :: r := List.suffix_cons
  have htwo : ∀ (c d : UInt8) (r : Bytes), r <:+ c :: d :: r := fun c d r =>
    (hone d r).trans (hone c _)
  have hthree : ∀ (c d e : UInt8) (r : Bytes), r <:+ c :: d :: e :: r := fun c d e r =>
    (htwo d e r).trans (hone c _)
  unfold utf8Char
  dsimp only
  split
  · exact List.suffix_rfl
  split
  · split
    · split
      · exact hone _ _
      · exact List.suffix_rfl
    · exact List.suffix_rfl
  split
  · split
    · split
      · exact List.suffix_rfl
      split
      · split
        · exact htwo _ _ _
        · exact hone _ _
      · exact hone _ _
    · exact List.suffix_rfl
  split
  · split
    · split
      · exact List.suffix_rfl
      split
      · split
        · exact hone _ _
        split
        · split
          · exact hthree _ _ _ _
          · exact htwo _ _ _
        · exact htwo _ _ _
      · exact hone _ _
    · exact List.suffix_rfl
  · exact List.suffix_rfl

theorem utf8Char_length_le (b : UInt8) (rest : Bytes) :
    (utf8Char b rest).2.length ≤ rest.length := (utf8Char_suffix b rest).length_le

theorem decodeLoop_of_le {fuel : ℕ} {bs : Bytes} (h : bs.length ≤ fuel) :
    decodeLoop fuel bs = fromUtf8Lossy bs := by
  have hmore : ∀ n bs, bs.length ≤ n → ∀ fuel, n ≤ fuel → decodeLoop fuel bs = decodeLoop n bs := by
    intro n
    induction n with
    | zero =>
      intro bs hbs fuel _
      obtain rfl := List.length_eq_zero_iff.1 (Nat.le_zero.1 hbs)
      cases fuel <;> rfl
    | succ n ih =>
      intro bs hbs fuel hfuel
      obtain ⟨fuel, rfl⟩ := Nat.exists_eq_add_of_le' (Nat.le_trans (Nat.succ_pos n) hfuel)
      cases bs with
      | nil => rfl
      | cons b rest =>
        have hle := utf8Char_length_le b rest
        rw [List.length_cons] at hbs
        rw [decodeLoop, decodeLoop, ih _ (by omega) fuel (by omega)]
  exact hmore _ _ (Nat.le_refl _) _ h

@[simp] theorem fromUtf8Lossy_nil : fromUtf8Lossy [] = [] := rfl

theorem fromUtf8Lossy_cons (b : UInt8) (rest : Bytes) :
    fromUtf8Lossy (b :: rest) = (utf8Char b rest).1 :: fromUtf8Lossy (utf8Char b rest).2 := by
  rw [fromUtf8Lossy, List.length_cons, decodeLoop, decodeLoop_of_le (utf8Char_length_le b rest)]

/-- Character by character. -/
theorem utf8_induction {P : Bytes → Prop} (hnil : P [])
    (hcons : ∀ b rest, P (utf8Char b rest).2 → P (b :: rest)) (bs : Bytes) : P bs := by
  have hall : ∀ n bs, bs.length ≤ n → P bs := by
    intro n
    induction n with
    | zero =>
      intro bs hbs
      obtain rfl := List.length_eq_zero_iff.1 (Nat.le_zero.1 hbs)
      exact hnil
    | succ n ih =>
      intro bs hbs
      cases bs with
      | nil => exact hnil
      | cons b rest =>
        refine hcons b rest (ih _ ?_)
        rw [List.length_cons] at hbs
        exact Nat.le_trans (utf8Char_length_le b rest) (Nat.le_of_succ_le_succ hbs)
  exact hall _ bs (Nat.le_refl _)

/-! ## ASCII -/

/-- Characters of longer sequences are not ASCII; what is not a scalar value
    would be read as NUL. -/
theorem ofNat_ne {n : ℕ} (hn : 128 ≤ n) {c : Char} (hc : c.toNat < 128) (hpos : 0 < c.toNat) :
    Char.ofNat n ≠ c := by
  intro h
  rw [Char.ofNat] at h
  split at h
  · have hval : c.toNat = n := by
      rw [← h]
      rfl
    omega
  · rw [← h] at hpos
    exact absurd hpos (by decide)

theorem replacement_ne {c : Char} (hc : c.toNat < 128) : REPLACEMENT ≠ c := by
  rintro rfl
  exact absurd hc (by decide)

theorem toNat_range {lo b hi : UInt8} (h : lo ≤ b ∧ b ≤ hi) :
    lo.toNat ≤ b.toNat ∧ b.toNat ≤ hi.toNat :=
  ⟨UInt8.le_iff_toNat_le.1 h.1, UInt8.le_iff_toNat_le.1 h.2⟩

/-- **ASCII is itself**: such a character comes from one byte. -/
theorem utf8Char_ascii {b : UInt8} {rest : Bytes} {c : Char} (h : (utf8Char b rest).1 = c)
    (hc : c.toNat < 128) (hpos : 0 < c.toNat) :
    b = UInt8.ofNat c.toNat ∧ (utf8Char b rest).2 = rest := by
  have hrep := replacement_ne hc
  have hbig : ∀ n, 128 ≤ n → Char.ofNat n ≠ c := fun n hn => ofNat_ne hn hc hpos
  revert h
  unfold utf8Char
  dsimp only
  split
  · rename_i hb
    intro h
    refine ⟨?_, rfl⟩
    have hlt : b.toNat < 128 := UInt8.lt_iff_toNat_lt.1 hb
    have hval : c.toNat = b.toNat := by
      rw [← h, Char.ofNat, dif_pos (Or.inl (by omega))]
      rfl
    rw [hval]
    exact (UInt8.ofNat_toNat).symm
  split
  · rename_i hb
    obtain ⟨hlo, hhi⟩ := toNat_range hb
    simp only [UInt8.reduceToNat] at hlo hhi
    split
    · split
      · intro h
        exact absurd h (hbig _ (by omega))
      · exact fun h => absurd h hrep
    · exact fun h => absurd h hrep
  split
  · rename_i hb
    obtain ⟨hlo, hhi⟩ := toNat_range hb
    simp only [UInt8.reduceToNat] at hlo hhi
    split
    · split
      · exact fun h => absurd h hrep
      rename_i d _ hsecond
      split
      · split
        · intro h
          refine absurd h (hbig _ ?_)
          -- after the shortest first byte the second one is not small
          by_cases hE0 : b = 0xE0
          · subst hE0
            simp only [secondRange, if_true, Bool.and_eq_true, decide_eq_true_eq, not_not] at hsecond
            obtain ⟨h1, h2⟩ := toNat_range hsecond
            simp only [UInt8.reduceToNat] at h1 h2 ⊢
            omega
          · have hne : b.toNat ≠ 0xE0 := fun heq => hE0 (UInt8.toNat_inj.1 heq)
            omega
        · exact fun h => absurd h hrep
      · exact fun h => absurd h hrep
    · exact fun h => absurd h hrep
  split
  · rename_i hb
    obtain ⟨hlo, hhi⟩ := toNat_range hb
    simp only [UInt8.reduceToNat] at hlo hhi
    split
    · split
      · exact fun h => absurd h hrep
      rename_i d _ hsecond
      split
      · split
        · exact fun h => absurd h hrep
        split
        · split
          · intro h
            refine absurd h (hbig _ ?_)
            by_cases hF0 : b = 0xF0
            · subst hF0
              have hrange : secondRange 0xF0 = (0x90, 0xBF) := by decide
              simp only [hrange, Bool.and_eq_true, decide_eq_true_eq, not_not] at hsecond
              obtain ⟨h1, h2⟩ := toNat_range hsecond
              simp only [UInt8.reduceToNat] at h1 h2 ⊢
              omega
            · have hne : b.toNat ≠ 0xF0 := fun heq => hF0 (UInt8.toNat_inj.1 heq)
              omega
          · exact fun h => absurd h hrep
        · exact fun h => absurd h hrep
      · exact fun h => absurd h hrep
    · exact fun h => absurd h hrep
  · exact fun h => absurd h hrep

/-- List Char of ASCII characters other than NUL. -/
def IsAscii (t : List Char) : Prop := ∀ c ∈ t, 0 < c.toNat ∧ c.toNat < 128

instance (t : List Char) : Decidable (IsAscii t) :=
  List.decidableBAll (fun c : Char => 0 < c.toNat ∧ c.toNat < 128) t

/-- The bytes of an ASCII text. -/
def asciiBytes (t : List Char) : Bytes := t.map fun c => UInt8.ofNat c.toNat

theorem prefix_of_decoded {pat : List Char} {bs : Bytes} (hpat : IsAscii pat)
    (h : pat <+: fromUtf8Lossy bs) : asciiBytes pat <+: bs := by
  induction pat generalizing bs with
  | nil => exact List.nil_prefix
  | cons c pat ih =>
    cases bs with
    | nil =>
      rw [fromUtf8Lossy_nil, List.prefix_nil] at h
      cases h
    | cons b rest =>
      rw [fromUtf8Lossy_cons, List.cons_prefix_cons] at h
      have hc := hpat c List.mem_cons_self
      obtain ⟨hb, hrest⟩ := utf8Char_ascii h.1.symm hc.2 hc.1
      rw [asciiBytes, List.map_cons, List.cons_prefix_cons]
      refine ⟨hb.symm, ih (fun c' hc' => hpat c' (List.mem_cons_of_mem c hc')) ?_⟩
      rw [← hrest]
      exact h.2

theorem countP_decoded_le (q : UInt8 → Bool) (bs : Bytes) :
    (fromUtf8Lossy bs).countP (fun c => decide (0 < c.toNat) && decide (c.toNat < 128) &&
      q (UInt8.ofNat c.toNat)) ≤ bs.countP q := by
  induction bs using utf8_induction with
  | hnil => exact Nat.le_refl 0
  | hcons b rest ih =>
    rw [fromUtf8Lossy_cons, List.countP_cons, List.countP_cons]
    have hle := (utf8Char_suffix b rest).sublist.countP_le (p := q)
    by_cases hq : (decide (0 < (utf8Char b rest).1.toNat) &&
        decide ((utf8Char b rest).1.toNat < 128) &&
        q (UInt8.ofNat (utf8Char b rest).1.toNat)) = true
    · simp only [Bool.and_eq_true, decide_eq_true_eq] at hq
      obtain ⟨hb, -⟩ := utf8Char_ascii rfl hq.1.2 hq.1.1
      have hqb : q b = true := by
        rw [hb]
        exact hq.2
      rw [if_pos hqb]
      split <;> omega
    · rw [if_neg hq]
      omega

/-! ## One byte more -/

theorem utf8Char_concat (b : UInt8) (rest : Bytes) {e : UInt8} (he : e < 0x80) :
    utf8Char b (rest ++ [e]) = ((utf8Char b rest).1, (utf8Char b rest).2 ++ [e]) := by
  have hcont : isCont e = false := by
    rw [isCont, Bool.and_eq_false_iff]
    exact .inl (decide_eq_false (UInt8.not_le.2 he))
  have hsecond : (decide ((secondRange b).1 ≤ e) && decide (e ≤ (secondRange b).2)) = false := by
    rw [Bool.and_eq_false_iff]
    refine .inl (decide_eq_false (UInt8.not_le.2 (UInt8.lt_of_lt_of_le he ?_)))
    unfold secondRange
    split_ifs <;> decide
  unfold utf8Char
  dsimp only
  split
  · rfl
  split
  · rcases rest with _ | ⟨c, rest⟩
    · simp [hcont]
    · dsimp only [List.cons_append]
      split <;> rfl
  split
  · rcases rest with _ | ⟨c, _ | ⟨d, rest⟩⟩
    · simp [hsecond]
    · dsimp only [List.cons_append, List.nil_append]
      split
      · rfl
      · simp [hcont]
    · dsimp only [List.cons_append]
      split
      · rfl
      · split <;> rfl
  split
  · rcases rest with _ | ⟨c, _ | ⟨d, _ | ⟨f, rest⟩⟩⟩
    · simp [hsecond]
    · dsimp only [List.cons_append, List.nil_append]
      split
      · rfl
      · simp [hcont]
    · dsimp only [List.cons_append, List.nil_append]
      split
      · rfl
      split
      · rfl
      · simp [hcont]
    · dsimp only [List.cons_append]
      split
      · rfl
      split
      · rfl
      · split <;> rfl
  · rfl

theorem fromUtf8Lossy_concat (bs : Bytes) {e : UInt8} (he : e < 0x80) :
    fromUtf8Lossy (bs ++ [e]) = fromUtf8Lossy bs ++ [Char.ofNat e.toNat] := by
  induction bs using utf8_induction with
  | hnil =>
    rw [List.nil_append, fromUtf8Lossy_cons]
    have hchar : utf8Char e [] = (Char.ofNat e.toNat, []) := by
      rw [utf8Char, if_pos he]
    rw [hchar]
    rfl
  | hcons b rest ih =>
    rw [List.cons_append, fromUtf8Lossy_cons, fromUtf8Lossy_cons, utf8Char_concat b rest he, ih,
      List.cons_append]

/-! ## Encoding -/

theorem utf8EncodeChar_ascii {b : UInt8} (h : b < 0x80) :
    String.utf8EncodeChar (Char.ofNat b.toNat) = [b] := by
  have hall : ∀ i < 128, String.utf8EncodeChar (Char.ofNat i) = [UInt8.ofNat i] := by
    decide +kernel
  have hb := hall b.toNat (by simpa [UInt8.lt_iff_toNat_lt] using h)
  rwa [UInt8.ofNat_toNat] at hb

theorem isValidUTF8_of_ascii {s : Bytes} (h : ∀ b ∈ s, b < 0x80) :
    s.toByteArray.IsValidUTF8 := by
  refine ⟨s.map fun b => Char.ofNat b.toNat, ?_⟩
  rw [List.utf8Encode, List.flatMap_map]
  congr 1
  induction s with
  | nil => rfl
  | cons b s ih =>
    rw [List.flatMap_cons, utf8EncodeChar_ascii (h b List.mem_cons_self),
      ← ih fun c hc => h c (List.mem_cons_of_mem b hc)]
    rfl

end Lib
