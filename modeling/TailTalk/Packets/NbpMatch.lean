/-
  NBP name matching, as the glob that it is: `Globs` is what a pattern of a
  component stands for, split at its first `≈`, and `isMatch_iff` the result
  about registered names.
-/
import Mathlib.Data.List.Forall2
import TailTalk.Packets.Nbp

namespace TailTalk

open Lib

namespace EntityName

/-! ## What patterns stand for -/

/-- The same byte, or the same ASCII letter in the other case. -/
def SameLetter (a b : UInt8) : Prop :=
  a = b ∨ (0x41 ≤ a ∧ a ≤ 0x5A ∧ b = a + 0x20) ∨ (0x41 ≤ b ∧ b ≤ 0x5A ∧ a = b + 0x20)

/-- Equality but for the case of ASCII letters. -/
def SameName (a b : Bytes) : Prop := List.Forall₂ SameLetter a b

/-- A pattern that matches anything. -/
def Anything (pattern : Bytes) : Prop :=
  pattern = [WILDCARD_EQUALS] ∨ pattern = [WILDCARD_APPROX] ∨ pattern = [WILDCARD_STAR]

/-- What starts with one name and ends with another, one behind the other. -/
def Between (start rest concrete : Bytes) : Prop :=
  ∃ a mid b, concrete = a ++ mid ++ b ∧ SameName a start ∧ SameName b rest

/-- What a pattern stands for: anything, what is between the parts around its first `≈`, or the
    name itself. -/
def Globs (pattern concrete : Bytes) : Prop :=
  Anything pattern ∨
    (∃ start rest, pattern = start ++ WILDCARD_APPROX :: rest ∧ WILDCARD_APPROX ∉ start ∧
      Between start rest concrete) ∨
    (WILDCARD_APPROX ∉ pattern ∧ SameName concrete pattern)

/-- The same with `≈` for a wildcard where it stands once, and for itself otherwise. -/
def GlobsOnce (pattern concrete : Bytes) : Prop :=
  Anything pattern ∨
    (∃ start rest, pattern = start ++ WILDCARD_APPROX :: rest ∧ WILDCARD_APPROX ∉ start ∧
      WILDCARD_APPROX ∉ rest ∧ Between start rest concrete) ∨
    (pattern.count WILDCARD_APPROX ≠ 1 ∧ SameName concrete pattern)

/-! ## Letters and names -/

theorem asciiLower_toNat (a : UInt8) :
    (asciiLower a).toNat = if 0x41 ≤ a.toNat ∧ a.toNat ≤ 0x5A then a.toNat + 0x20 else a.toNat := by
  have hiff : (0x41 ≤ a ∧ a ≤ 0x5A) ↔ (0x41 ≤ a.toNat ∧ a.toNat ≤ 0x5A) := Iff.rfl
  rw [asciiLower]
  by_cases h : 0x41 ≤ a ∧ a ≤ 0x5A
  · have hnat := hiff.1 h
    have hsum : (0x20 : UInt8).toNat = 0x20 := rfl
    rw [if_pos h, if_pos hnat, UInt8.toNat_add, hsum]
    omega
  · rw [if_neg h, if_neg fun hnat => h (hiff.2 hnat)]

theorem asciiLower_eq_iff (a b : UInt8) : asciiLower a = asciiLower b ↔ SameLetter a b := by
  have hsum : ∀ c : UInt8, (c + 0x20).toNat = (c.toNat + 0x20) % 256 := fun c => by
    rw [UInt8.toNat_add]
    rfl
  have hle : ∀ c d : UInt8, c ≤ d ↔ c.toNat ≤ d.toNat := fun _ _ => Iff.rfl
  have h41 : (0x41 : UInt8).toNat = 0x41 := rfl
  have h5A : (0x5A : UInt8).toNat = 0x5A := rfl
  have ha := a.toNat_lt
  have hb := b.toNat_lt
  rw [SameLetter, ← UInt8.toNat_inj, ← UInt8.toNat_inj, ← UInt8.toNat_inj, ← UInt8.toNat_inj,
    asciiLower_toNat, asciiLower_toNat, hsum, hsum, hle, hle, hle, hle, h41, h5A]
  split_ifs
  · omega
  · omega
  · omega
  · omega

theorem eqIgnoreAsciiCase_iff (a b : Bytes) : eqIgnoreAsciiCase a b = true ↔ SameName a b := by
  rw [eqIgnoreAsciiCase, beq_iff_eq, SameName, ← List.forall₂_eq_eq_eq, List.forall₂_map_left_iff,
    List.forall₂_map_right_iff]
  simp only [asciiLower_eq_iff]

theorem SameName.length {a b : Bytes} (h : SameName a b) : a.length = b.length :=
  List.Forall₂.length_eq h

theorem asciiLower_eq_approx (a : UInt8) : asciiLower a = WILDCARD_APPROX ↔ a = WILDCARD_APPROX := by
  have hC5 : WILDCARD_APPROX.toNat = 0xC5 := rfl
  rw [← UInt8.toNat_inj, ← UInt8.toNat_inj, asciiLower_toNat, hC5]
  split_ifs
  · omega
  · exact Iff.rfl

theorem mem_approx_iff {a b : Bytes} (h : SameName a b) :
    WILDCARD_APPROX ∈ a ↔ WILDCARD_APPROX ∈ b := by
  induction h with
  | nil => exact Iff.rfl
  | @cons x y _ _ hxy _ ih =>
    have hlower := (asciiLower_eq_iff x y).2 hxy
    rw [List.mem_cons, List.mem_cons, ih, eq_comm, ← asciiLower_eq_approx x, hlower,
      asciiLower_eq_approx y, eq_comm]

/-! ## Components -/

theorem between_iff (start rest concrete : Bytes) : Between start rest concrete ↔
    start.length + rest.length ≤ concrete.length ∧
      SameName (concrete.take start.length) start ∧
      SameName (concrete.drop (concrete.length - rest.length)) rest := by
  constructor
  · rintro ⟨a, mid, b, rfl, ha, hb⟩
    have hlen : (a ++ mid ++ b).length - rest.length = (a ++ mid).length := by
      rw [← hb.length, List.length_append, Nat.add_sub_cancel]
    refine ⟨?_, ?_, ?_⟩
    · rw [← ha.length, ← hb.length, List.length_append, List.length_append]
      omega
    · rw [← ha.length, List.append_assoc, List.take_left]
      exact ha
    · rw [hlen, List.drop_left]
      exact hb
  · rintro ⟨hlen, hstart, hrest⟩
    have htake : (concrete.take (concrete.length - rest.length)).take start.length =
        concrete.take start.length := by
      rw [List.take_take, Nat.min_eq_left (Nat.le_sub_of_add_le hlen)]
    refine ⟨_, (concrete.take (concrete.length - rest.length)).drop start.length, _, ?_, hstart,
      hrest⟩
    rw [← htake, List.take_append_drop, List.take_append_drop]

theorem idxOf?_approx {start : Bytes} (h : WILDCARD_APPROX ∉ start) (rest : Bytes) :
    (start ++ WILDCARD_APPROX :: rest).idxOf? WILDCARD_APPROX = some start.length := by
  induction start with
  | nil => exact List.idxOf?_cons.trans (if_pos (beq_self_eq_true _))
  | cons b start ih =>
    rw [List.mem_cons, not_or] at h
    have hb : (b == WILDCARD_APPROX) = false := beq_false_of_ne (Ne.symm h.1)
    rw [List.cons_append, List.idxOf?_cons, hb, ih h.2]
    rfl

/-- **The matching of a component** is the glob. -/
theorem matchPart_iff (concrete pattern : Bytes) :
    matchPart concrete pattern = true ↔ Globs pattern concrete := by
  rw [matchPart, Globs]
  by_cases hany : Anything pattern
  · exact iff_of_true (if_pos hany) (Or.inl hany)
  rw [or_iff_right hany]
  refine Iff.trans (iff_of_eq (congrArg (· = true) (if_neg hany))) ?_
  cases hfind : pattern.idxOf? WILDCARD_APPROX with
  | none =>
    have hnot := List.idxOf?_eq_none_iff.1 hfind
    dsimp only
    rw [eqIgnoreAsciiCase_iff, or_iff_right, and_iff_right hnot]
    rintro ⟨start, rest, rfl, -, -⟩
    exact hnot (List.mem_append_right _ List.mem_cons_self)
  | some i =>
    obtain ⟨hi, hat, hbefore⟩ := List.idxOf?_eq_some_iff.1 hfind
    have hsplit : pattern = pattern.take i ++ WILDCARD_APPROX :: pattern.drop (i + 1) := by
      rw [← hat, ← List.drop_eq_getElem_cons hi, List.take_append_drop]
    have hstart : WILDCARD_APPROX ∉ pattern.take i := by
      intro hmem
      obtain ⟨j, hj, heq⟩ := List.mem_iff_getElem.1 hmem
      rw [List.length_take] at hj
      rw [List.getElem_take] at heq
      exact hbefore j (Nat.lt_of_lt_of_le hj (Nat.min_le_left _ _)) heq
    have hmem : WILDCARD_APPROX ∈ pattern := hat ▸ List.getElem_mem hi
    dsimp only
    rw [Bool.and_eq_true, Bool.and_eq_true, decide_eq_true_iff, eqIgnoreAsciiCase_iff,
      eqIgnoreAsciiCase_iff, and_assoc, ← between_iff, or_iff_left fun h => h.1 hmem]
    constructor
    · exact fun h => ⟨_, _, hsplit, hstart, h⟩
    · rintro ⟨start, rest, rfl, hnot, h⟩
      rw [idxOf?_approx hnot] at hfind
      obtain rfl := Option.some.inj hfind
      rwa [List.take_left, List.append_cons, List.drop_left' (by simp)]

theorem globs_iff_once {pattern concrete : Bytes} (h : WILDCARD_APPROX ∉ concrete) :
    Globs pattern concrete ↔ GlobsOnce pattern concrete := by
  constructor
  · rintro (hany | ⟨start, rest, hpattern, hstart, hbetween⟩ | ⟨hnot, hsame⟩)
    · exact Or.inl hany
    · refine Or.inr (Or.inl ⟨start, rest, hpattern, hstart, fun hrest => h ?_, hbetween⟩)
      obtain ⟨a, mid, b, rfl, -, hb⟩ := hbetween
      exact List.mem_append_right _ ((mem_approx_iff hb).2 hrest)
    · refine Or.inr (Or.inr ⟨?_, hsame⟩)
      rw [List.count_eq_zero_of_not_mem hnot]
      exact Nat.zero_ne_one
  · rintro (hany | ⟨start, rest, hpattern, hstart, -, hbetween⟩ | ⟨-, hsame⟩)
    · exact Or.inl hany
    · exact Or.inr (Or.inl ⟨start, rest, hpattern, hstart, hbetween⟩)
    · exact Or.inr (Or.inr ⟨fun hmem => h ((mem_approx_iff hsame).2 hmem), hsame⟩)

/-! ## Names -/

/-- **Matching is the documented glob** for registered names: in object and type `=`, `*` or `≈`
    alone match anything, one `≈` in a pattern any bytes between its parts, and all else itself
    without regard to case. The zone matches alike, and an empty one anything. -/
theorem isMatch_iff {n pattern : EntityName} (hn : n.fullyQualified = true) :
    n.isMatch pattern = true ↔ GlobsOnce pattern.object.1 n.object.1 ∧
      GlobsOnce pattern.entityType.1 n.entityType.1 ∧
      (pattern.zone.1 = [] ∨ Globs pattern.zone.1 n.zone.1) := by
  obtain ⟨hobject, htype⟩ : WILDCARD_APPROX ∉ n.object.1 ∧ WILDCARD_APPROX ∉ n.entityType.1 := by
    have hall := hn
    simp [fullyQualified] at hall
    exact hall.2.2
  rw [isMatch, Bool.and_eq_true, Bool.and_eq_true, Bool.or_eq_true, List.isEmpty_iff,
    matchPart_iff, matchPart_iff, matchPart_iff, globs_iff_once hobject, globs_iff_once htype,
    and_assoc]

/-- A workstation in a zone of its own. -/
def steve : EntityName where
  object := ⟨[0x53, 0x74, 0x65, 0x76, 0x65], by decide⟩
  entityType := ⟨[0x57], by decide⟩
  zone := ⟨[0x54], by decide⟩

theorem isMatch_steve :
    steve.isMatch steve = true ↔ GlobsOnce steve.object.1 steve.object.1 ∧
      GlobsOnce steve.entityType.1 steve.entityType.1 ∧
      (steve.zone.1 = [] ∨ Globs steve.zone.1 steve.zone.1) :=
  isMatch_iff (by decide)

/-- A zone pattern is more than a name, an empty one or `*`. -/
theorem zone_not_equality : ¬ ∀ n pattern : EntityName, n.fullyQualified = true →
    (n.isMatch pattern = true ↔ GlobsOnce pattern.object.1 n.object.1 ∧
      GlobsOnce pattern.entityType.1 n.entityType.1 ∧
      (pattern.zone.1 = [] ∨ pattern.zone.1 = [WILDCARD_STAR] ∨
        SameName n.zone.1 pattern.zone.1)) := by
  intro h
  have hiff := h steve { steve with zone := ⟨[WILDCARD_EQUALS], by decide⟩ } (by decide)
  obtain ⟨-, -, hzone⟩ := hiff.1 (by decide)
  rcases hzone with hempty | hstar | hsame
  · cases hempty
  · exact absurd hstar (by decide)
  · exact absurd ((eqIgnoreAsciiCase_iff _ _).2 hsame) (by decide)

end EntityName

end TailTalk
