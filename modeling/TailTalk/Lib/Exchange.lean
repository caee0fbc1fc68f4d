/-
  One-at-a-time exchanges — calls that are made one after another, each ending
  in success or failure.  What the other side has taken are the successful
  ones, in order, and possibly one more: the acknowledgement of a call that was
  taken may be lost.
-/
import Mathlib.Data.Nat.Notation
import Mathlib.Data.List.Basic
import Mathlib.Data.List.Pairwise

namespace Lib

/-- The positions of the `true`s. -/
def hits (o : List Bool) : List ℕ := (List.range o.length).filter fun k => o[k]? = some true

theorem mem_hits {o : List Bool} {k : ℕ} : k ∈ hits o ↔ o[k]? = some true := by
  simp only [hits, List.mem_filter, List.mem_range, decide_eq_true_eq, and_iff_right_iff_imp]
  intro h
  exact (List.getElem?_eq_some_iff.1 h).1

theorem hits_lt {o : List Bool} {k : ℕ} (h : k ∈ hits o) : k < o.length :=
  List.mem_range.1 (List.mem_filter.1 h).1

theorem hits_sorted (o : List Bool) : (hits o).Pairwise (· < ·) :=
  List.Pairwise.filter _ List.pairwise_lt_range

theorem hits_append (o : List Bool) (b : Bool) :
    hits (o ++ [b]) = hits o ++ if b then [o.length] else [] := by
  have hold : (List.range o.length).filter (fun k => (o ++ [b])[k]? = some true) =
      (List.range o.length).filter fun k => o[k]? = some true := by
    refine List.filter_congr fun k hk => ?_
    rw [List.getElem?_append_left (List.mem_range.1 hk)]
  rw [hits, List.length_append, List.length_singleton, List.range_succ, List.filter_append, hold]
  cases b <;> simp [hits]

variable {α : Type*}

/-- What was taken are the successful calls, and possibly one later call. -/
structure Exchange (calls : List α) (o : List Bool) (got : List α) (extra : Option ℕ) : Prop where
  resolved : o.length ≤ calls.length
  later : ∀ j ∈ extra, j < calls.length ∧ ∀ k ∈ hits o, k < j
  contents : got.map some = (hits o ++ extra.toList).map (calls[·]?)

/-- Every success was taken exactly once, nothing was taken twice, and in the
    order of the calls. -/
def InOrder (calls : List α) (o : List Bool) (got : List α) : Prop :=
  ∃ taken : List ℕ, taken.Pairwise (· < ·) ∧ got.map some = taken.map (calls[·]?) ∧
    ∀ k, o[k]? = some true → k ∈ taken

namespace Exchange
variable {calls : List α} {o : List Bool} {got : List α} {extra : Option ℕ}

theorem nil : Exchange ([] : List α) [] [] none := ⟨Nat.le_refl _, nofun, rfl⟩

theorem length_got (h : Exchange calls o got extra) :
    got.length = (hits o).length + extra.toList.length := by
  have := congrArg List.length h.contents
  simpa only [List.length_map, List.length_append] using this

theorem lt_length (h : Exchange calls o got extra) {k : ℕ} (hk : k ∈ hits o ++ extra.toList) :
    k < calls.length := by
  rcases List.mem_append.1 hk with hk | hk
  · exact Nat.lt_of_lt_of_le (hits_lt hk) h.resolved
  · exact (h.later k (Option.mem_toList.1 hk)).1

theorem call (h : Exchange calls o got extra) (x : α) : Exchange (calls ++ [x]) o got extra := by
  refine ⟨?_, fun j hj => ?_, ?_⟩
  · have := h.resolved
    rw [List.length_append]; omega
  · obtain ⟨hlt, hk⟩ := h.later j hj
    refine ⟨?_, hk⟩
    rw [List.length_append]; omega
  · rw [h.contents]
    refine List.map_congr_left fun k hk => ?_
    rw [List.getElem?_append_left (h.lt_length hk)]

/-- The pending call fails. -/
theorem fail (h : Exchange calls o got extra) (hp : o.length < calls.length) :
    Exchange calls (o ++ [false]) got extra := by
  have hh : hits (o ++ [false]) = hits o := by rw [hits_append]; simp
  refine ⟨?_, fun j hj => ?_, ?_⟩
  · rw [List.length_append]; exact hp
  · rw [hh]; exact h.later j hj
  · rw [hh]; exact h.contents

/-- The pending call was taken and succeeds. -/
theorem succeed (h : Exchange calls o got (some o.length)) (hp : o.length < calls.length) :
    Exchange calls (o ++ [true]) got none := by
  refine ⟨?_, nofun, ?_⟩
  · rw [List.length_append]; exact hp
  · rw [h.contents, hits_append]; simp

/-- A call later than every success is taken. -/
theorem take (h : Exchange calls o got none) {j : ℕ} {x : α} (hx : calls[j]? = some x)
    (hj : ∀ k ∈ hits o, k < j) : Exchange calls o (got ++ [x]) (some j) := by
  refine ⟨h.resolved, fun i hi => ?_, ?_⟩
  · obtain rfl := Option.some.inj hi
    exact ⟨(List.getElem?_eq_some_iff.1 hx).1, hj⟩
  · rw [List.map_append, h.contents]; simp [hx]

theorem inOrder (h : Exchange calls o got extra) : InOrder calls o got := by
  refine ⟨hits o ++ extra.toList, ?_, h.contents, fun k hk => ?_⟩
  · rw [List.pairwise_append]
    refine ⟨hits_sorted o, ?_, fun k hk j hj => ?_⟩
    · cases extra <;> simp
    · exact (h.later j (Option.mem_toList.1 hj)).2 k hk
  · exact List.mem_append_left _ (mem_hits.2 hk)

end Exchange

end Lib
