/-
  Parsers that undo writers, both ways.

  `Inverse` says that a parser reads back what the writer writes, whatever
  follows, and that it reads nothing that the writer does not write;
  `Inverse.seq` and `Inverse.list` build such parsers from smaller ones.
-/
import Mathlib

namespace Lib

variable {β ε α γ : Type*}

/-- Take a value off the front of a buffer. -/
abbrev Parser (β ε α : Type*) := List β → Except ε (α × List β)

/-- `read` reads exactly what `write` writes. -/
structure Inverse (read : Parser β ε α) (write : α → List β) : Prop where
  reads : ∀ a rest, read (write a ++ rest) = .ok (a, rest)
  canonical : ∀ b a rest, read b = .ok (a, rest) → b = write a ++ rest

/-- One value after another. -/
def Parser.seq (first : Parser β ε α) (second : Parser β ε γ) : Parser β ε (α × γ) := fun b =>
  match first b with
  | .error e => .error e
  | .ok (a, rest) =>
    match second rest with
    | .error e => .error e
    | .ok (c, rest) => .ok ((a, c), rest)

/-- `count` values, one after another. -/
def Parser.list (read : Parser β ε α) : ℕ → Parser β ε (List α)
  | 0, b => .ok ([], b)
  | count + 1, b =>
    match read b with
    | .error e => .error e
    | .ok (a, rest) =>
      match Parser.list read count rest with
      | .error e => .error e
      | .ok (as, rest) => .ok (a :: as, rest)

namespace Inverse

variable {read : Parser β ε α} {write : α → List β}

/-- A parser followed by a one-to-one change of its values. -/
theorem map (h : Inverse read write) (f : α → γ) (g : γ → α) (hfg : ∀ c, f (g c) = c)
    (hgf : ∀ a, g (f a) = a) :
    Inverse (fun b => (read b).map fun p => (f p.1, p.2)) (fun c => write (g c)) where
  reads := by
    intro c rest
    simp only [h.reads, Except.map, hfg]
  canonical := by
    intro b c rest hb
    cases hread : read b with
    | error e =>
      rw [hread] at hb
      cases hb
    | ok p =>
      obtain ⟨a, rest'⟩ := p
      rw [hread] at hb
      obtain ⟨rfl, rfl⟩ := Prod.mk.inj (Except.ok.inj hb)
      rw [hgf]
      exact h.canonical b a rest' hread

theorem seq (h : Inverse read write) {second : Parser β ε γ} {write' : γ → List β}
    (h' : Inverse second write') :
    Inverse (read.seq second) (fun p => write p.1 ++ write' p.2) where
  reads := by
    rintro ⟨a, c⟩ rest
    simp only [Parser.seq, List.append_assoc, h.reads, h'.reads]
  canonical := by
    rintro b ⟨a, c⟩ rest hb
    unfold Parser.seq at hb
    split at hb
    · cases hb
    · next a' mid ha =>
      split at hb
      · cases hb
      · next c' rest' hc =>
        cases hb
        rw [h.canonical b a mid ha, h'.canonical mid c rest hc, List.append_assoc]

theorem list_reads (h : Inverse read write) (as : List α) :
    ∀ rest, read.list as.length (as.flatMap write ++ rest) = .ok (as, rest) := by
  induction as with
  | nil =>
    intro rest
    rfl
  | cons a as ih =>
    intro rest
    simp only [List.length_cons, Parser.list, List.flatMap_cons, List.append_assoc, h.reads, ih]

theorem list_canonical (h : Inverse read write) (count : ℕ) :
    ∀ b as rest, read.list count b = .ok (as, rest) →
      as.length = count ∧ b = as.flatMap write ++ rest := by
  induction count with
  | zero =>
    intro b as rest hb
    cases hb
    exact ⟨rfl, rfl⟩
  | succ count ih =>
    intro b as rest hb
    unfold Parser.list at hb
    split at hb
    · cases hb
    · next a mid ha =>
      split at hb
      · cases hb
      · next as' rest' has =>
        cases hb
        obtain ⟨hlen, hmid⟩ := ih mid as' rest has
        refine ⟨by rw [List.length_cons, hlen], ?_⟩
        rw [h.canonical b a mid ha, hmid, List.flatMap_cons, List.append_assoc]

theorem list_front (h : Inverse read write) (as : List α) {p : List β}
    (hp : p <+: as.flatMap write) (hne : p ≠ as.flatMap write) :
    ∃ e, read.list as.length p = .error e := by
  cases hread : read.list as.length p with
  | error e => exact ⟨e, rfl⟩
  | ok r =>
    obtain ⟨as', rest⟩ := r
    obtain ⟨hlen, hwrite⟩ := h.list_canonical as.length p as' rest hread
    obtain ⟨t, ht⟩ := hp
    have hsame : read.list as.length (as.flatMap write ++ []) = .ok (as', rest ++ t) := by
      rw [List.append_nil, ← ht, hwrite, List.append_assoc, ← hlen]
      exact h.list_reads as' (rest ++ t)
    rw [h.list_reads as []] at hsame
    obtain ⟨rfl, hnil⟩ := Prod.mk.inj (Except.ok.inj hsame)
    obtain ⟨rfl, rfl⟩ := List.append_eq_nil_iff.1 hnil.symm
    rw [List.append_nil] at hwrite
    exact absurd hwrite hne

end Inverse

end Lib
