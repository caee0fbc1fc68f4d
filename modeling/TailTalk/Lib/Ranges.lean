/-
  Sorted lists of ranges that do not overlap.

  `Spaced` survives leaving ranges out and `place`, which puts a range in place
  of all that overlap it; `search` finds the only range that can contain a
  point by binary search.  Where a range is none, `Served` says that a range is
  found all the same.
-/
import Mathlib

namespace Lib

/-! ## Binary search -/

section
variable {α : Type*}

/-- The last of `size` places from `base` on where `p` holds, or `base`. Each turn leaves half of
    them at most. -/
def bisect (p : ℕ → Bool) : ℕ → ℕ → ℕ → ℕ
  | 0, base, _ => base
  | fuel + 1, base, size =>
    if size ≤ 1 then base
    else bisect p fuel (if p (base + size / 2) then base + size / 2 else base) (size - size / 2)

/-- Whether `p` holds of the element at a place. -/
def holdsAt (p : α → Bool) (l : List α) (i : ℕ) : Bool := (l[i]?).any p

/-- Where the elements that satisfy `p` end, halving what is left to look at. -/
def partitionPoint (p : α → Bool) (l : List α) : ℕ :=
  if l = [] then 0
  else
    let base := bisect (holdsAt p l) l.length 0 l.length
    if holdsAt p l base then base + 1 else base

theorem bisect_spec {p : ℕ → Bool} {k n : ℕ} (hp : ∀ i < n, p i = true ↔ i < k) {fuel base size : ℕ}
    (hfuel : size ≤ fuel + 1) (hn : base + size ≤ n) (hbase : base = 0 ∨ base < k)
    (hk : k ≤ base + size) :
    (bisect p fuel base size = 0 ∨ bisect p fuel base size < k) ∧
      k ≤ bisect p fuel base size + 1 := by
  induction fuel generalizing base size with
  | zero => exact ⟨hbase, Nat.le_trans hk (Nat.add_le_add_left hfuel base)⟩
  | succ fuel ih =>
    rw [bisect]
    split
    · rename_i hsize
      exact ⟨hbase, Nat.le_trans hk (Nat.add_le_add_left hsize base)⟩
    · have hmid := hp (base + size / 2) (by omega)
      split
      · rename_i h
        exact ih (by omega) (by omega) (Or.inr (hmid.1 h)) (by omega)
      · rename_i h
        have hle : ¬ base + size / 2 < k := fun hlt => h (hmid.2 hlt)
        exact ih (by omega) (by omega) hbase (by omega)

/-- **The partition point.** -/
theorem partitionPoint_append {p : α → Bool} {as bs : List α} (has : ∀ a ∈ as, p a = true)
    (hbs : ∀ b ∈ bs, p b = false) : partitionPoint p (as ++ bs) = as.length := by
  have hp : ∀ i < (as ++ bs).length, holdsAt p (as ++ bs) i = true ↔ i < as.length := by
    intro i hi
    rw [holdsAt, List.getElem?_append]
    split
    · rename_i hlt
      rw [List.getElem?_eq_getElem hlt]
      simpa [hlt] using has _ (List.getElem_mem hlt)
    · rename_i hge
      rw [List.length_append] at hi
      rw [List.getElem?_eq_getElem (by omega)]
      simpa [hge] using hbs _ (List.getElem_mem (by omega))
  unfold partitionPoint
  split
  · rename_i hnil
    rw [(List.append_eq_nil_iff.1 hnil).1, List.length_nil]
  · rename_i hne
    have hpos : 0 < (as ++ bs).length := List.length_pos_iff.2 hne
    obtain ⟨hlt, hle⟩ := bisect_spec hp (Nat.le_succ (as ++ bs).length) (by omega) (Or.inl rfl)
      (by rw [List.length_append]; omega)
    have hbound : bisect (holdsAt p (as ++ bs)) (as ++ bs).length 0 (as ++ bs).length <
        (as ++ bs).length := by
      rw [List.length_append] at hpos hlt ⊢
      omega
    have hbase := hp _ hbound
    dsimp only
    split
    · rename_i h
      have := hbase.1 h
      omega
    · rename_i h
      have : ¬ _ < as.length := fun hlt => h (hbase.2 hlt)
      omega

theorem partitionPoint_split {p : α → Bool} {l : List α}
    (h : l.Pairwise fun a b => p b = true → p a = true) :
    partitionPoint p l ≤ l.length ∧ (∀ a ∈ l.take (partitionPoint p l), p a = true) ∧
      ∀ b ∈ l.drop (partitionPoint p l), p b = false := by
  have hsplit : ∃ as bs, l = as ++ bs ∧ (∀ a ∈ as, p a = true) ∧ ∀ b ∈ bs, p b = false := by
    induction l with
    | nil => exact ⟨[], [], rfl, (fun _ h => nomatch h), fun _ h => nomatch h⟩
    | cons a l ih =>
      rw [List.pairwise_cons] at h
      rcases ha : p a with _ | _
      · refine ⟨[], a :: l, rfl, (fun _ h => nomatch h), fun b hb => ?_⟩
        rcases List.mem_cons.1 hb with rfl | hb
        · exact ha
        · refine Bool.eq_false_iff.2 fun hpb => ?_
          rw [h.1 b hb hpb] at ha
          cases ha
      · obtain ⟨as, bs, rfl, has, hbs⟩ := ih h.2
        refine ⟨a :: as, bs, rfl, fun c hc => ?_, hbs⟩
        rcases List.mem_cons.1 hc with rfl | hc
        · exact ha
        · exact has c hc
  obtain ⟨as, bs, rfl, has, hbs⟩ := hsplit
  rw [partitionPoint_append has hbs, List.take_left, List.drop_left, List.length_append]
  exact ⟨Nat.le_add_right _ _, has, hbs⟩

end

/-! ## Ranges -/

section
variable {α β : Type*} [LinearOrder β] (lo hi : α → β)

/-- Each range ends before the next begins. -/
structure Spaced (l : List α) : Prop where
  range : ∀ a ∈ l, lo a ≤ hi a
  apart : l.Pairwise fun a b => hi a < lo b

/-- Ranges that do not touch `a`. -/
def clear (a b : α) : Bool := decide (hi b < lo a ∨ hi a < lo b)

/-- A range in place of all that overlap it. -/
def place (a : α) (l : List α) : List α :=
  let kept := l.filter (clear lo hi a)
  let pos := partitionPoint (fun b => decide (lo b < lo a)) kept
  kept.take pos ++ a :: kept.drop pos

/-- The last range that does not begin behind a point. -/
def search (l : List α) (n : β) : Option α :=
  match partitionPoint (fun a => decide (lo a ≤ n)) l with
  | 0 => none
  | i + 1 => l[i]?

namespace Spaced

variable {lo hi} {l l' : List α} {a b : α} {n : β}

theorem nil : Spaced lo hi [] := ⟨(fun _ h => nomatch h), .nil⟩

theorem sublist (h : Spaced lo hi l) (hl : l'.Sublist l) : Spaced lo hi l' :=
  ⟨fun a ha => h.range a (hl.subset ha), h.apart.sublist hl⟩

theorem map {γ : Type*} {lo' hi' : γ → β} {f : α → γ} (h : Spaced lo hi l)
    (hlo : ∀ a, lo' (f a) = lo a) (hhi : ∀ a, hi' (f a) = hi a) : Spaced lo' hi' (l.map f) := by
  constructor
  · intro c hc
    obtain ⟨a, ha, rfl⟩ := List.mem_map.1 hc
    rw [hlo, hhi]
    exact h.range a ha
  · refine h.apart.map f fun a b hab => ?_
    rw [hhi, hlo]
    exact hab

theorem sorted (h : Spaced lo hi l) : l.Pairwise fun a b => lo a < lo b := by
  refine h.apart.imp_of_mem fun ha _ hab => ?_
  exact lt_of_le_of_lt (h.range _ ha) hab

theorem unique (h : Spaced lo hi l) (ha : a ∈ l) (hb : b ∈ l) (han : lo a ≤ n ∧ n ≤ hi a)
    (hbn : lo b ≤ n ∧ n ≤ hi b) : a = b := by
  induction l with
  | nil => cases ha
  | cons c l ih =>
    have hrest := h.sublist (List.sublist_cons_self c l)
    have hfirst := (List.pairwise_cons.1 h.apart).1
    rcases List.mem_cons.1 ha with rfl | ha
    · rcases List.mem_cons.1 hb with rfl | hb
      · rfl
      · exact absurd (lt_of_lt_of_le (lt_of_le_of_lt han.2 (hfirst b hb)) hbn.1) (lt_irrefl n)
    · rcases List.mem_cons.1 hb with hbc | hb
      · exact absurd (lt_of_lt_of_le (lt_of_le_of_lt (hbc ▸ hbn.2) (hfirst a ha)) han.1)
          (lt_irrefl n)
      · exact ih hrest ha hb

/-- **Placing a range.** -/
theorem place (h : Spaced lo hi l) (ha : lo a ≤ hi a) : Spaced lo hi (place lo hi a l) := by
  have hkept : Spaced lo hi (l.filter (clear lo hi a)) := h.sublist List.filter_sublist
  have hclear : ∀ b ∈ l.filter (clear lo hi a), hi b < lo a ∨ hi a < lo b := fun b hb =>
    of_decide_eq_true (List.mem_filter.1 hb).2
  obtain ⟨-, hbefore, hbehind⟩ := partitionPoint_split
    (p := fun b => decide (lo b < lo a)) (l := l.filter (clear lo hi a))
    (hkept.sorted.imp fun hbc hc => decide_eq_true (lt_trans hbc (of_decide_eq_true hc)))
  simp only [decide_eq_true_eq, decide_eq_false_iff_not] at hbefore hbehind
  unfold Lib.place
  dsimp only
  generalize partitionPoint _ (l.filter (clear lo hi a)) = pos at hbefore hbehind
  have hparts := hkept
  rw [← List.take_append_drop pos (l.filter (clear lo hi a))] at hparts
  obtain ⟨hleft, hright, hcross⟩ := List.pairwise_append.1 hparts.apart
  have hend : ∀ b ∈ (l.filter (clear lo hi a)).take pos, hi b < lo a := fun b hb =>
    (hclear b (List.mem_of_mem_take hb)).resolve_right fun hlt =>
      absurd (lt_of_le_of_lt ha hlt) (not_lt_of_gt (hbefore b hb))
  have hstart : ∀ b ∈ (l.filter (clear lo hi a)).drop pos, hi a < lo b := fun b hb =>
    (hclear b (List.mem_of_mem_drop hb)).resolve_left fun hlt =>
      hbehind b hb (lt_of_le_of_lt (hkept.range b (List.mem_of_mem_drop hb)) hlt)
  constructor
  · intro b hb
    rcases List.mem_append.1 hb with hb | hb
    · exact hkept.range b (List.mem_of_mem_take hb)
    · rcases List.mem_cons.1 hb with rfl | hb
      · exact ha
      · exact hkept.range b (List.mem_of_mem_drop hb)
  · refine List.pairwise_append.2 ⟨hleft, List.pairwise_cons.2 ⟨hstart, hright⟩, ?_⟩
    intro b hb c hc
    rcases List.mem_cons.1 hc with rfl | hc
    · exact hend b hb
    · exact hcross b hb c hc

/-- **Searching.**  A range that contains the point is found, and only the range found can. -/
theorem search (h : Spaced lo hi l) :
    (∃ b ∈ search lo l n, b = a ∧ n ≤ hi b) ↔ a ∈ l ∧ lo a ≤ n ∧ n ≤ hi a := by
  obtain ⟨hpos, hbefore, hbehind⟩ := partitionPoint_split (p := fun b => decide (lo b ≤ n)) (l := l)
    (h.sorted.imp fun hbc hc => decide_eq_true (le_trans hbc.le (of_decide_eq_true hc)))
  simp only [decide_eq_true_eq, decide_eq_false_iff_not] at hbefore hbehind
  unfold Lib.search
  generalize partitionPoint _ l = pos at hpos hbefore hbehind
  constructor
  · rintro ⟨b, hb, rfl, hn⟩
    cases pos with
    | zero => cases hb
    | succ i =>
      have hb : l[i]? = some b := hb
      refine ⟨List.mem_of_getElem? hb, hbefore b ?_, hn⟩
      exact List.mem_of_getElem? (i := i) (by rw [List.getElem?_take_of_lt (Nat.lt_succ_self i), hb])
  · rintro ⟨ha, han, hna⟩
    obtain ⟨j, hj, rfl⟩ := List.getElem_of_mem ha
    have hlt : j < pos := by
      refine Nat.lt_of_not_le fun hle => hbehind l[j] ?_ han
      exact List.mem_of_getElem? (i := j - pos) (by
        rw [List.getElem?_drop, Nat.add_sub_cancel' hle, List.getElem?_eq_getElem hj])
    cases pos with
    | zero => cases hlt
    | succ i =>
      -- a range behind this one would begin before the point, and this one end before it
      have hlast : j = i := by
        refine Nat.le_antisymm (Nat.le_of_lt_succ hlt) (Nat.le_of_not_lt fun hji => ?_)
        have hmem : l[i] ∈ l.take (i + 1) := List.mem_of_getElem? (i := i) (by
          rw [List.getElem?_take_of_lt (Nat.lt_succ_self i), List.getElem?_eq_getElem hpos])
        have hapart := List.pairwise_iff_getElem.1 h.apart j i hj hpos hji
        exact absurd (lt_of_le_of_lt hna hapart) (not_lt_of_ge (hbefore _ hmem))
      subst hlast
      exact ⟨l[j], List.getElem?_eq_getElem hj, rfl, hna⟩

theorem find? (h : Spaced lo hi l) : l.find? (fun b => decide (lo b ≤ n ∧ n ≤ hi b)) = some a ↔
    a ∈ l ∧ lo a ≤ n ∧ n ≤ hi a := by
  have hin : ∀ b ∈ l.find? (fun b => decide (lo b ≤ n ∧ n ≤ hi b)), lo b ≤ n ∧ n ≤ hi b := by
    intro b hb
    have hn := List.find?_some hb
    exact of_decide_eq_true hn
  constructor
  · intro ha
    exact ⟨List.mem_of_find?_eq_some ha, hin a ha⟩
  · rintro ⟨ha, hn⟩
    have hsome : (l.find? fun b => decide (lo b ≤ n ∧ n ≤ hi b)).isSome :=
      List.find?_isSome.2 ⟨a, ha, by simpa using hn⟩
    obtain ⟨b, hb⟩ := Option.isSome_iff_exists.1 hsome
    rw [hb, h.unique (List.mem_of_find?_eq_some hb) ha (hin b hb) hn]

theorem place_between {as bs cs : List α} (h : Spaced lo hi (as ++ bs ++ cs)) (ha : lo a ≤ hi a)
    (has : ∀ b ∈ as, hi b < lo a) (hbs : ∀ b ∈ bs, lo a ≤ hi b ∧ lo b ≤ hi a)
    (hcs : ∀ b ∈ cs, hi a < lo b) : Lib.place lo hi a (as ++ bs ++ cs) = as ++ a :: cs := by
  have hkept : (as ++ bs ++ cs).filter (clear lo hi a) = as ++ cs := by
    rw [List.filter_append, List.filter_append]
    have hleft : as.filter (clear lo hi a) = as :=
      List.filter_eq_self.2 fun b hb => decide_eq_true (Or.inl (has b hb))
    have hmiddle : bs.filter (clear lo hi a) = [] := by
      refine List.filter_eq_nil_iff.2 fun b hb hclear => ?_
      rcases of_decide_eq_true hclear with hlt | hlt
      · exact absurd hlt (not_lt_of_ge (hbs b hb).1)
      · exact absurd hlt (not_lt_of_ge (hbs b hb).2)
    have hright : cs.filter (clear lo hi a) = cs :=
      List.filter_eq_self.2 fun b hb => decide_eq_true (Or.inr (hcs b hb))
    rw [hleft, hmiddle, hright, List.append_nil]
  have hpos : partitionPoint (fun b => decide (lo b < lo a)) (as ++ cs) = as.length := by
    refine partitionPoint_append (fun b hb => decide_eq_true ?_) (fun b hb => decide_eq_false ?_)
    · have hrange := h.range b (List.mem_append_left _ (List.mem_append_left _ hb))
      exact lt_of_le_of_lt hrange (has b hb)
    · exact not_lt_of_ge (le_trans ha (hcs b hb).le)
  unfold Lib.place
  dsimp only
  rw [hkept, hpos, List.take_left, List.drop_left]

theorem place_last (h : Spaced lo hi (l ++ [a])) : Lib.place lo hi a l = l ++ [a] := by
  have hl : Spaced lo hi (l ++ [] ++ []) := by
    rw [List.append_nil, List.append_nil]
    exact h.sublist (List.sublist_append_left l [a])
  have hplace := hl.place_between (h.range a (List.mem_append_right _ List.mem_cons_self))
    (fun b hb => (List.pairwise_append.1 h.apart).2.2 b hb a List.mem_cons_self)
    (fun _ h => nomatch h) (fun _ h => nomatch h)
  rwa [List.append_nil, List.append_nil] at hplace

theorem place_again {as cs : List α} (h : Spaced lo hi (as ++ b :: cs)) (hlo : lo a = lo b)
    (hhi : hi a = hi b) : Lib.place lo hi a (as ++ b :: cs) = as ++ a :: cs := by
  have hb := h.range b (List.mem_append_right _ List.mem_cons_self)
  obtain ⟨-, hright, hcross⟩ := List.pairwise_append.1 h.apart
  have hsplit : as ++ b :: cs = as ++ [b] ++ cs := (List.append_assoc as [b] cs).symm
  rw [hsplit] at h ⊢
  refine h.place_between (hlo ▸ hhi ▸ hb) ?_ ?_ ?_
  · intro c hc
    rw [hlo]
    exact hcross c hc b List.mem_cons_self
  · intro c hc
    rw [List.mem_singleton.1 hc, hlo, hhi]
    exact ⟨hb, hb⟩
  · intro c hc
    rw [hhi]
    exact (List.pairwise_cons.1 hright).1 c hc

theorem place_all {l' : List α} (h : Spaced lo hi (l ++ l')) :
    l'.foldl (fun l a => Lib.place lo hi a l) l = l ++ l' := by
  induction l' generalizing l with
  | nil => exact (List.append_nil l).symm
  | cons a l' ih =>
    have hsplit : l ++ a :: l' = l ++ [a] ++ l' := (List.append_assoc l [a] l').symm
    rw [hsplit] at h ⊢
    rw [List.foldl_cons, place_last (h.sublist (List.sublist_append_left _ l')), ih h]

end Spaced

/-! ## Lists that are sorted, and no more -/

/-- Sorted by where the ranges begin, whether they overlap or not. -/
def Sorted (l : List α) : Prop := l.Pairwise fun a b => lo a ≤ lo b

/-- A range that a search finds for every point in it: those behind it begin behind its end. -/
def Served (a : α) (l : List α) : Prop :=
  Sorted lo l ∧ ∃ as bs, l = as ++ a :: bs ∧ ∀ b ∈ bs, hi a < lo b

variable {lo hi} {l : List α} {a b : α}

theorem Sorted.place_split (h : Sorted lo l) (hi : α → β) (a : α) :
    ∃ as bs, l.filter (clear lo hi a) = as ++ bs ∧ place lo hi a l = as ++ a :: bs ∧
      (∀ b ∈ as, lo b < lo a) ∧ ∀ b ∈ bs, lo a ≤ lo b := by
  have hkept : Sorted lo (l.filter (clear lo hi a)) := h.sublist List.filter_sublist
  obtain ⟨-, hbefore, hbehind⟩ := partitionPoint_split
    (p := fun b => decide (lo b < lo a)) (l := l.filter (clear lo hi a))
    (hkept.imp fun hbc hc => decide_eq_true (lt_of_le_of_lt hbc (of_decide_eq_true hc)))
  refine ⟨_, _, (List.take_append_drop _ _).symm, rfl, fun b hb => ?_, fun b hb => ?_⟩
  · exact of_decide_eq_true (hbefore b hb)
  · exact not_lt.1 (of_decide_eq_false (hbehind b hb))

theorem Sorted.place (h : Sorted lo l) (a : α) : Sorted lo (place lo hi a l) := by
  obtain ⟨as, bs, hkept, hplace, has, hbs⟩ := h.place_split hi a
  have hsorted : Sorted lo (as ++ bs) := hkept ▸ h.sublist List.filter_sublist
  obtain ⟨hleft, hright, hcross⟩ := List.pairwise_append.1 hsorted
  rw [hplace]
  refine List.pairwise_append.2 ⟨hleft, List.pairwise_cons.2 ⟨hbs, hright⟩, fun b hb c hc => ?_⟩
  rcases List.mem_cons.1 hc with rfl | hc
  · exact (has b hb).le
  · exact hcross b hb c hc

/-- **A range that is served is found.** -/
theorem Served.search (h : Served lo hi a l) {n : β} (hlo : lo a ≤ n) (hhi : n ≤ hi a) :
    search lo l n = some a := by
  obtain ⟨hsorted, as, bs, rfl, hbs⟩ := h
  have hsplit : as ++ a :: bs = (as ++ [a]) ++ bs := List.append_cons as a bs
  have hpos : partitionPoint (fun b => decide (lo b ≤ n)) (as ++ a :: bs) = as.length + 1 := by
    rw [hsplit, partitionPoint_append, List.length_append]
    · rfl
    · intro b hb
      rcases List.mem_append.1 hb with hb | hb
      · have hba := (List.pairwise_append.1 hsorted).2.2 b hb a List.mem_cons_self
        exact decide_eq_true (hba.trans hlo)
      · rw [List.mem_singleton.1 hb]
        exact decide_eq_true hlo
    · exact fun b hb => decide_eq_false (not_le.2 (lt_of_le_of_lt hhi (hbs b hb)))
  unfold Lib.search
  rw [hpos]
  show (as ++ a :: bs)[as.length]? = some a
  rw [List.getElem?_append_right le_rfl, Nat.sub_self, List.getElem?_cons_zero]

theorem Served.filter (h : Served lo hi a l) {p : α → Bool} (hp : p a = true) :
    Served lo hi a (l.filter p) := by
  obtain ⟨hsorted, as, bs, rfl, hbs⟩ := h
  refine ⟨hsorted.sublist List.filter_sublist, as.filter p, bs.filter p, ?_, fun b hb => ?_⟩
  · rw [List.filter_append, List.filter_cons_of_pos hp]
  · exact hbs b (List.mem_filter.1 hb).1

/-- **A range stays served** when one is placed behind it, or before it and not begun in it. -/
theorem Served.place (h : Served lo hi a l)
    (hb : hi a < lo b ∨ (hi b < lo a ∧ lo b ≤ lo a)) : Served lo hi a (place lo hi b l) := by
  have hclear : clear lo hi b a = true := by
    rcases hb with hb | ⟨hb, -⟩
    · exact decide_eq_true (Or.inl hb)
    · exact decide_eq_true (Or.inr hb)
  obtain ⟨hkept, cs, ds, hsplit, hds⟩ := h.filter hclear
  obtain ⟨as, bs, hfilter, hplace, has, hbs⟩ := h.1.place_split hi b
  refine ⟨h.1.place b, ?_⟩
  rw [hplace]
  rw [hfilter] at hsplit
  -- the range is in one of the two parts, as the one that is placed begins
  rcases List.append_eq_append_iff.1 hsplit with ⟨es, rfl, rfl⟩ | ⟨es, rfl, hes⟩
  · exact ⟨as ++ b :: es, ds, by simp, hds⟩
  · cases es with
    | nil =>
      obtain rfl : a :: ds = bs := hes
      exact ⟨cs ++ [b], ds, by simp, hds⟩
    | cons e es =>
      obtain ⟨rfl, rfl⟩ := List.cons.inj hes
      have hbegin : lo a < lo b := has a (List.mem_append_right _ List.mem_cons_self)
      have hbehind : hi a < lo b := hb.resolve_right fun h => absurd hbegin (not_lt.2 h.2)
      refine ⟨cs, es ++ b :: bs, by simp, fun c hc => ?_⟩
      rcases List.mem_append.1 hc with hc | hc
      · exact hds c (List.mem_append_left _ hc)
      · rcases List.mem_cons.1 hc with rfl | hc
        · exact hbehind
        · exact hds c (List.mem_append_right _ hc)

theorem Sorted.served_place (h : Sorted lo l)
    (ha : ∀ b ∈ l, hi b < lo a → lo b < lo a ∨ hi a < lo b) : Served lo hi a (Lib.place lo hi a l) := by
  obtain ⟨as, bs, hfilter, hplace, -, hbs⟩ := h.place_split hi a
  refine ⟨h.place a, as, bs, hplace, fun b hb => ?_⟩
  have hmem : b ∈ l.filter (clear lo hi a) := hfilter ▸ List.mem_append_right _ hb
  rcases of_decide_eq_true (List.mem_filter.1 hmem).2 with hends | hbegins
  · exact (ha b (List.mem_filter.1 hmem).1 hends).resolve_left (not_lt.2 (hbs b hb))
  · exact hbegins

end

end Lib
