/-
  Texts and their lines — a line ends with a separator, or the text does.

  `splitInclusive` keeps the separators, `List.splitOnP` drops them;
  `lines_induction` takes a text line by line, the last one perhaps unfinished.
  At the end of a whole text both ways of splitting split the rest alone.
-/
import TailTalk.Lib.Run

namespace Lib

variable {α : Type*} {p : α → Bool}

/-- The lines of a text with their separators. -/
def splitInclusive (p : α → Bool) : List α → List (List α)
  | [] => []
  | x :: xs =>
    if p x then [x] :: splitInclusive p xs
    else
      match splitInclusive p xs with
      | [] => [[x]]
      | line :: lines => (x :: line) :: lines

/-- A text whose last line is finished. -/
def Whole (p : α → Bool) (x : List α) : Prop := ∀ s ∈ x.getLast?, p s = true

instance (x : List α) : Decidable (Whole p x) := by
  unfold Whole
  infer_instance

theorem whole_nil : Whole p [] := nofun

theorem Whole.of_append {x y : List α} (h : Whole p (x ++ y)) : Whole p y := by
  intro s hs
  refine h s ?_
  rw [List.getLast?_append, Option.mem_def.1 hs]
  rfl

/-- Text by text of one line. -/
theorem lines_induction {P : List α → Prop} (hnil : P [])
    (hlast : ∀ line, line ≠ [] → (∀ x ∈ line, p x = false) → P line)
    (hline : ∀ line s rest, (∀ x ∈ line, p x = false) → p s = true → P rest →
      P (line ++ s :: rest)) (x : List α) : P x := by
  have hrun : ∀ xs line : List α, (∀ x ∈ line, p x = false) → P (line ++ xs) := by
    intro xs
    induction xs with
    | nil =>
      intro line hno
      rw [List.append_nil]
      by_cases hempty : line = []
      · exact hempty ▸ hnil
      · exact hlast line hempty hno
    | cons s xs ih =>
      intro line hno
      by_cases hs : p s = true
      · exact hline line s xs hno hs (ih [] nofun)
      · have hmore := ih (line ++ [s]) fun x hx => by
          rcases List.mem_append.1 hx with hx | hx
          · exact hno x hx
          · rw [List.mem_singleton.1 hx]
            exact Bool.eq_false_iff.2 hs
        rwa [List.append_assoc] at hmore
  exact hrun x [] nofun

/-! ## Splitting off the first line -/

section
variable {line : List α} {s : α} {rest : List α}

theorem splitInclusive_last (hne : line ≠ []) (hno : ∀ x ∈ line, p x = false) :
    splitInclusive p line = [line] := by
  induction line with
  | nil => exact absurd rfl hne
  | cons x xs ih =>
    have hx : ¬ p x = true := Bool.eq_false_iff.1 (hno x List.mem_cons_self)
    rw [splitInclusive, if_neg hx]
    cases xs with
    | nil => rfl
    | cons y ys => rw [ih (by simp) fun z hz => hno z (List.mem_cons_of_mem x hz)]

theorem splitInclusive_line (hno : ∀ x ∈ line, p x = false) (hs : p s = true) :
    splitInclusive p (line ++ s :: rest) = (line ++ [s]) :: splitInclusive p rest := by
  induction line with
  | nil => rw [List.nil_append, splitInclusive, if_pos hs, List.nil_append]
  | cons x xs ih =>
    have hx : ¬ p x = true := Bool.eq_false_iff.1 (hno x List.mem_cons_self)
    rw [List.cons_append, splitInclusive, if_neg hx,
      ih fun z hz => hno z (List.mem_cons_of_mem x hz), List.cons_append]

theorem splitOnP_line (hno : ∀ x ∈ line, p x = false) (hs : p s = true) :
    (line ++ s :: rest).splitOnP p = line :: rest.splitOnP p :=
  List.splitOnP_append_cons_of_forall_mem hno s hs rest

theorem whole_line (h : Whole p (line ++ s :: rest)) : Whole p rest := by
  have heq : line ++ s :: rest = (line ++ [s]) ++ rest := by simp
  rw [heq] at h
  exact h.of_append

end

theorem not_whole_last {line : List α} (hne : line ≠ []) (hno : ∀ x ∈ line, p x = false) :
    ¬ Whole p line := by
  intro h
  have hlast := h _ (List.getLast?_eq_some_getLast hne)
  rw [hno _ (List.getLast_mem hne)] at hlast
  cases hlast

/-! ## Splitting after a whole text -/

theorem splitInclusive_append {x : List α} (h : Whole p x) (y : List α) :
    splitInclusive p (x ++ y) = splitInclusive p x ++ splitInclusive p y := by
  induction x using lines_induction (p := p) with
  | hnil => rfl
  | hlast line hne hno => exact absurd h (not_whole_last hne hno)
  | hline line s rest hno hs ih =>
    rw [List.append_assoc, List.cons_append, splitInclusive_line hno hs,
      splitInclusive_line hno hs, ih (whole_line h), List.cons_append]

/-- A fold over the lines of a text, for which an empty line counts nothing. -/
theorem run_splitOnP_append {σ : Type*} {f : σ → List α → σ} (hnil : ∀ s, f s [] = s)
    {x : List α} (h : Whole p x) (y : List α) (s : σ) :
    run f s ((x ++ y).splitOnP p) = run f (run f s (x.splitOnP p)) (y.splitOnP p) := by
  induction x using lines_induction (p := p) generalizing s with
  | hnil => rw [List.nil_append, List.splitOnP_nil, run_cons, run_nil, hnil]
  | hlast line hne hno => exact absurd h (not_whole_last hne hno)
  | hline line sep rest hno hs ih =>
    rw [List.append_assoc, List.cons_append, splitOnP_line hno hs, splitOnP_line hno hs, run_cons,
      run_cons, ih (whole_line h)]

end Lib
