/-
  A queue of items with events at positions among them.

  `weave` puts the two back in one order; `Placed` says that the events stand
  in order between two positions.
-/
import Mathlib.Data.Nat.Notation
import Mathlib.Data.List.Basic
import Mathlib.Tactic.Common

namespace Lib

universe u v
variable {α : Type u} {β : Type v}

/-- The items from position `pos` on and the events, in order. -/
def weave : ℕ → List α → List (ℕ × β) → List (α ⊕ β)
  | _, xs, [] => xs.map .inl
  | pos, xs, (at_, e) :: es =>
    (xs.take (at_ - pos)).map .inl ++ .inr e :: weave at_ (xs.drop (at_ - pos)) es

/-- The events stand in order from `lo` to `hi`. -/
def Placed (lo hi : ℕ) : List (ℕ × β) → Prop
  | [] => lo ≤ hi
  | (at_, _) :: es => lo ≤ at_ ∧ Placed at_ hi es

section
variable {pos lo hi n : ℕ} {xs ys : List α} {es : List (ℕ × β)} {e : β}

theorem Placed.le (h : Placed lo hi es) : lo ≤ hi := by
  induction es generalizing lo with
  | nil => exact h
  | cons p es ih => exact Nat.le_trans h.1 (ih h.2)

theorem Placed.mono (h : Placed lo hi es) {hi' : ℕ} (hle : hi ≤ hi') : Placed lo hi' es := by
  induction es generalizing lo with
  | nil => exact Nat.le_trans h hle
  | cons p es ih => exact ⟨h.1, ih h.2⟩

theorem Placed.push (h : Placed lo hi es) (e : β) : Placed lo hi (es ++ [(hi, e)]) := by
  induction es generalizing lo with
  | nil => exact ⟨h, Nat.le_refl hi⟩
  | cons p es ih => exact ⟨h.1, ih h.2⟩

/-- The events from the first one on. -/
theorem Placed.from (h : Placed lo hi es) (hn : n ≤ hi) (hfirst : ∀ p ∈ es.head?, n ≤ p.1) :
    Placed n hi es := by
  cases es with
  | nil => exact hn
  | cons p es => exact ⟨hfirst p rfl, h.2⟩

theorem weave_append (h : Placed pos (pos + xs.length) es) :
    weave pos (xs ++ ys) es = weave pos xs es ++ ys.map .inl := by
  induction es generalizing pos xs with
  | nil => exact List.map_append
  | cons p es ih =>
    obtain ⟨at_, e⟩ := p
    have hle : at_ - pos ≤ xs.length := by
      have := h.2.le
      have := h.1
      omega
    have hrest : Placed at_ (at_ + (xs.drop (at_ - pos)).length) es := by
      rw [List.length_drop]
      exact h.2.mono (by have := h.1; omega)
    rw [weave, weave, List.take_append_of_le_length hle, List.drop_append_of_le_length hle,
      ih hrest, List.append_assoc, List.cons_append]

theorem weave_push (h : Placed pos (pos + xs.length) es) :
    weave pos xs (es ++ [(pos + xs.length, e)]) = weave pos xs es ++ [.inr e] := by
  induction es generalizing pos xs with
  | nil =>
    have hall : pos + xs.length - pos = xs.length := Nat.add_sub_cancel_left pos xs.length
    rw [List.nil_append, weave, weave, hall, List.take_length, List.drop_length]
    rfl
  | cons p es ih =>
    obtain ⟨at_, e'⟩ := p
    have hle : at_ - pos ≤ xs.length := by
      have := h.2.le
      have := h.1
      omega
    have hend : at_ + (xs.drop (at_ - pos)).length = pos + xs.length := by
      rw [List.length_drop]
      have := h.1
      omega
    have hrest : Placed at_ (at_ + (xs.drop (at_ - pos)).length) es := by
      rw [hend]
      exact h.2
    rw [List.cons_append, weave, weave, ← hend, ih hrest, List.append_assoc, List.cons_append]

/-- Items that stop at the first event. -/
theorem weave_take (hfirst : ∀ p ∈ es.head?, pos + n ≤ p.1) :
    weave pos xs es = (xs.take n).map .inl ++ weave (pos + n) (xs.drop n) es := by
  cases es with
  | nil => rw [weave, weave, ← List.map_append, List.take_append_drop]
  | cons p es =>
    obtain ⟨at_, e⟩ := p
    have hle : pos + n ≤ at_ := hfirst _ rfl
    have hsub : at_ - pos = n + (at_ - (pos + n)) := by omega
    rw [weave, weave, hsub, List.take_add, List.map_append, ← List.drop_drop, List.append_assoc]

theorem weave_event (es : List (ℕ × β)) :
    weave pos xs ((pos, e) :: es) = .inr e :: weave pos xs es := by
  rw [weave, Nat.sub_self]
  rfl

/-- Items that go past the first event. -/
theorem weave_past {at_ : ℕ} (hpos : pos ≤ at_) (hn : at_ < pos + n) (hlen : n ≤ xs.length) :
    (weave pos xs ((at_, e) :: es))[at_ - pos]? = some (.inr e) ∧
      ∃ x, ((xs.take n).map (Sum.inl (β := β)))[at_ - pos]? = some (.inl x) := by
  have hlt : at_ - pos < n := by omega
  constructor
  · have hlength : ((xs.take (at_ - pos)).map (Sum.inl (β := β))).length = at_ - pos := by
      rw [List.length_map, List.length_take]
      omega
    rw [weave, List.getElem?_append_right (Nat.le_of_eq hlength), hlength, Nat.sub_self]
    rfl
  · refine ⟨xs.get ⟨at_ - pos, by omega⟩, ?_⟩
    rw [List.getElem?_map, List.getElem?_take_of_lt hlt, List.getElem?_eq_getElem]
    rfl

end

/-! ## Lists that disagree -/

section
variable {γ : Type*} {xs ys : List γ}

/-- The lists differ at a place that both have. -/
def Differ (xs ys : List γ) : Prop :=
  ∃ (i : ℕ) (x y : γ), xs[i]? = some x ∧ ys[i]? = some y ∧ x ≠ y

theorem getElem?_append_of_some {i : ℕ} {x : γ} (h : xs[i]? = some x) (zs : List γ) :
    (xs ++ zs)[i]? = some x := by
  rw [List.getElem?_append_left (List.getElem?_eq_some_iff.1 h).1, h]

theorem Differ.append (h : Differ xs ys) (xs' ys' : List γ) : Differ (xs ++ xs') (ys ++ ys') := by
  obtain ⟨i, x, y, hx, hy, hne⟩ := h
  exact ⟨i, x, y, getElem?_append_of_some hx xs', getElem?_append_of_some hy ys', hne⟩

theorem Differ.not_prefix (h : Differ xs ys) : ¬ xs <+: ys := by
  rintro ⟨zs, rfl⟩
  obtain ⟨i, x, y, hx, hy, hne⟩ := h
  rw [getElem?_append_of_some hx] at hy
  exact hne (Option.some.inj hy)

theorem differ_append_left (h : Differ xs ys) (zs : List γ) : Differ (zs ++ xs) (zs ++ ys) := by
  obtain ⟨i, x, y, hx, hy, hne⟩ := h
  refine ⟨zs.length + i, x, y, ?_, ?_, hne⟩
  · rw [List.getElem?_append_right (Nat.le_add_right _ _), Nat.add_sub_cancel_left, hx]
  · rw [List.getElem?_append_right (Nat.le_add_right _ _), Nat.add_sub_cancel_left, hy]

end

end Lib
