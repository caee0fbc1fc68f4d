/-
  Walks over a graph that is read as it is walked, from a stack of nodes to go
  to.  Reading a node may panic; the walk ends in a value just when no node it
  can come to does, and is then at each of them exactly once.
-/
import TailTalk.Lib.Panic
import Mathlib

namespace Lib

/-- A graph whose nodes are looked up by name and read when they are come to. -/
structure Graph (ν N τ : Type) where
  /-- names that lead nowhere -/
  skip : ν → Bool
  look : ν → Option N
  read : N → Checked τ
  next : τ → List ν
  /-- the names that can be looked up -/
  names : List ν
  mem_names : ∀ v, (look v).isSome → v ∈ names

namespace Graph

variable {ν N τ : Type} [DecidableEq ν] (g : Graph ν N τ)

/-- The nodes still to be seen. -/
def unseen (visited : List ν) : ℕ := (g.names.filter fun v => v ∉ visited).length

theorem unseen_cons_le (v : ν) (visited : List ν) : g.unseen (v :: visited) ≤ g.unseen visited := by
  apply List.Sublist.length_le
  apply List.monotone_filter_right
  intro u hu
  simp only [decide_eq_true_eq] at hu ⊢
  exact fun h => hu (List.mem_cons_of_mem v h)

theorem unseen_cons_lt {v : ν} {visited : List ν} (hv : (g.look v).isSome) (hnew : v ∉ visited) :
    g.unseen (v :: visited) < g.unseen visited := by
  have hle := List.monotone_filter_right g.names (p := fun u => decide (u ∉ v :: visited))
    (q := fun u => decide (u ∉ visited)) (by
      intro u hu
      simp only [decide_eq_true_eq] at hu ⊢
      exact fun h => hu (List.mem_cons_of_mem v h))
  refine lt_of_le_of_ne hle.length_le fun heq => ?_
  have hsame := hle.eq_of_length heq
  have hmem : v ∈ g.names.filter fun u => decide (u ∉ visited) :=
    List.mem_filter.2 ⟨g.mem_names v hv, by simpa using hnew⟩
  rw [← hsame] at hmem
  simp at hmem

/-- Walk from the `stack`; what was read at each node, in the order of the walk. -/
def explore : List ν → List ν → Checked (List τ)
  | [], _ => .ok []
  | v :: stack, visited =>
    if g.skip v ∨ v ∈ visited then explore stack visited
    else
      match _hlook : g.look v with
      | none => explore stack (v :: visited)
      | some n =>
        match g.read n with
        | .error p => .error p
        | .ok t =>
          match explore (g.next t ++ stack) (v :: visited) with
          | .error p => .error p
          | .ok ts => .ok (t :: ts)
termination_by stack visited => (g.unseen visited, stack.length)
decreasing_by
  · exact .right _ (Nat.lt_succ_self _)
  · rcases lt_or_eq_of_le (g.unseen_cons_le v visited) with h | h
    · exact .left _ _ h
    · rw [h]
      exact .right _ (Nat.lt_succ_self _)
  · have hnew : ¬ (g.skip v = true ∨ v ∈ visited) := by assumption
    exact .left _ _ (g.unseen_cons_lt (by rw [_hlook]; rfl) fun h => hnew (.inr h))

/-! ## What a walk comes to -/

/-- The names a walk from `start` can come to. -/
inductive Reaches (start : List ν) : ν → Prop
  | start {v} : v ∈ start → Reaches start v
  | next {u v n t} : Reaches start u → g.skip u = false → g.look u = some n → g.read n = .ok t →
      v ∈ g.next t → Reaches start v

variable {g}

omit [DecidableEq ν] in
theorem Reaches.mono {start start' : List ν} (h : ∀ v ∈ start, g.Reaches start' v) {v : ν}
    (hv : g.Reaches start v) : g.Reaches start' v := by
  induction hv with
  | start hmem => exact h _ hmem
  | next _ hskip hlook hread hmem ih => exact .next ih hskip hlook hread hmem

/-- `t` was read at `v`. -/
def ReadAt (g : Graph ν N τ) (v : ν) (t : τ) : Prop := ∃ n, g.look v = some n ∧ g.read n = .ok t

/-- A name a walk does not go to any more. -/
def Done (g : Graph ν N τ) (visited : List ν) (v : ν) : Prop :=
  g.skip v = true ∨ v ∈ visited ∨ g.look v = none

/-- The walk was at the nodes `vs`, from `stack` and without those in `visited`. -/
structure Explored (g : Graph ν N τ) (stack visited vs : List ν) (ts : List τ) : Prop where
  readAt : List.Forall₂ g.ReadAt vs ts
  nodup : vs.Nodup
  fresh : ∀ v ∈ vs, v ∉ visited ∧ g.skip v = false ∧ g.Reaches stack v
  stack_done : ∀ v ∈ stack, g.Done (vs ++ visited) v
  next_done : ∀ v ∈ vs, ∀ t, g.ReadAt v t → ∀ w ∈ g.next t, g.Done (vs ++ visited) w

omit [DecidableEq ν] in
theorem ReadAt.inj {v : ν} {t t' : τ} (h : g.ReadAt v t) (h' : g.ReadAt v t') : t = t' := by
  obtain ⟨n, hlook, hread⟩ := h
  obtain ⟨n', hlook', hread'⟩ := h'
  rw [hlook] at hlook'
  cases hlook'
  rw [hread] at hread'
  exact Except.ok.inj hread'

omit [DecidableEq ν] in
theorem Done.mono {visited visited' : List ν} (h : ∀ v ∈ visited, v ∈ visited') {v : ν}
    (hv : g.Done visited v) : g.Done visited' v := by
  rcases hv with hskip | hmem | hlook
  · exact .inl hskip
  · exact .inr (.inl (h v hmem))
  · exact .inr (.inr hlook)

theorem explored (stack visited : List ν) :
    ∀ ts, g.explore stack visited = .ok ts → ∃ vs, g.Explored stack visited vs ts := by
  fun_induction explore g stack visited with
  | case1 visited =>
    intro ts h
    cases h
    exact ⟨[], .nil, List.nodup_nil, by simp, by simp, by simp⟩
  | case2 v stack visited hknown ih =>
    intro ts h
    obtain ⟨vs, hvs⟩ := ih ts h
    refine ⟨vs, hvs.readAt, hvs.nodup, ?_, ?_, hvs.next_done⟩
    · intro u hu
      obtain ⟨hnew, hskip, hreach⟩ := hvs.fresh u hu
      exact ⟨hnew, hskip, hreach.mono fun w hw => .start (List.mem_cons_of_mem v hw)⟩
    · intro u hu
      rcases List.mem_cons.1 hu with rfl | hu
      · rcases hknown with hskip | hseen
        · exact .inl hskip
        · exact .inr (.inl (List.mem_append_right _ hseen))
      · exact hvs.stack_done u hu
  | case3 v stack visited hknown hlook ih =>
    intro ts h
    obtain ⟨vs, hvs⟩ := ih ts h
    have hdone : ∀ {u}, g.Done (vs ++ v :: visited) u → g.Done (vs ++ visited) u := by
      rintro u (hskip | hmem | hnone)
      · exact .inl hskip
      · rcases List.mem_append.1 hmem with hmem | hmem
        · exact .inr (.inl (List.mem_append_left _ hmem))
        · rcases List.mem_cons.1 hmem with rfl | hmem
          · exact .inr (.inr hlook)
          · exact .inr (.inl (List.mem_append_right _ hmem))
      · exact .inr (.inr hnone)
    refine ⟨vs, hvs.readAt, hvs.nodup, ?_, ?_, fun u hu t ht w hw => hdone (hvs.next_done u hu t ht w hw)⟩
    · intro u hu
      obtain ⟨hnew, hskip, hreach⟩ := hvs.fresh u hu
      exact ⟨fun hmem => hnew (List.mem_cons_of_mem v hmem), hskip,
        hreach.mono fun w hw => .start (List.mem_cons_of_mem v hw)⟩
    · intro u hu
      rcases List.mem_cons.1 hu with rfl | hu
      · exact .inr (.inr hlook)
      · exact hdone (hvs.stack_done u hu)
  | case4 v stack visited hknown n hlook p hread =>
    intro ts h
    cases h
  | case5 v stack visited hknown n hlook t hread p hrest ih =>
    intro ts h
    cases h
  | case6 v stack visited hknown n hlook t hread rest hrest ih =>
    intro ts h
    cases h
    obtain ⟨vs, hvs⟩ := ih rest hrest
    have hskip : g.skip v = false := by
      simpa using fun hs => hknown (.inl hs)
    have hmove : ∀ u, u ∈ vs ++ v :: visited → u ∈ (v :: vs) ++ visited := by
      intro u hu
      simp only [List.mem_append, List.mem_cons] at hu ⊢
      tauto
    have hat : g.ReadAt v t := ⟨n, hlook, hread⟩
    refine ⟨v :: vs, .cons hat hvs.readAt, ?_, ?_, ?_, ?_⟩
    · refine List.nodup_cons.2 ⟨fun hmem => ?_, hvs.nodup⟩
      exact (hvs.fresh v hmem).1 List.mem_cons_self
    · intro u hu
      rcases List.mem_cons.1 hu with rfl | hu
      · exact ⟨fun hmem => hknown (.inr hmem), hskip, .start List.mem_cons_self⟩
      · obtain ⟨hnew, huskip, hreach⟩ := hvs.fresh u hu
        refine ⟨fun hmem => hnew (List.mem_cons_of_mem v hmem), huskip, hreach.mono fun w hw => ?_⟩
        rcases List.mem_append.1 hw with hw | hw
        · exact .next (.start List.mem_cons_self) hskip hlook hread hw
        · exact .start (List.mem_cons_of_mem v hw)
    · intro u hu
      rcases List.mem_cons.1 hu with rfl | hu
      · exact .inr (.inl (List.mem_append_left _ List.mem_cons_self))
      · exact (hvs.stack_done u (List.mem_append_right _ hu)).mono hmove
    · intro u hu t' ht' w hw
      rcases List.mem_cons.1 hu with rfl | hu
      · obtain rfl := hat.inj ht'
        exact (hvs.stack_done w (List.mem_append_left _ hw)).mono hmove
      · exact (hvs.next_done u hu t' ht' w hw).mono hmove

/-- **A walk is at every node** it can come to, and at each once. -/
theorem explore_nodes {start : List ν} {ts : List τ} (h : g.explore start [] = .ok ts) :
    ∃ vs, List.Forall₂ g.ReadAt vs ts ∧ vs.Nodup ∧
      ∀ v, v ∈ vs ↔ g.Reaches start v ∧ g.skip v = false ∧ (g.look v).isSome := by
  obtain ⟨vs, hvs⟩ := explored start [] ts h
  have hlook : ∀ v ∈ vs, ∃ t, g.ReadAt v t := by
    intro v hv
    obtain ⟨i, hi, rfl⟩ := List.mem_iff_getElem.1 hv
    have hlen := hvs.readAt.length_eq
    exact ⟨ts[i], hvs.readAt.get hi (by omega)⟩
  have hin : ∀ {v}, g.Done (vs ++ []) v → g.skip v = false → (g.look v).isSome → v ∈ vs := by
    rintro v (hskip | hmem | hnone) hs hl
    · rw [hskip] at hs
      cases hs
    · rwa [List.append_nil] at hmem
    · rw [hnone] at hl
      cases hl
  refine ⟨vs, hvs.readAt, hvs.nodup, fun v => ⟨fun hv => ?_, ?_⟩⟩
  · obtain ⟨-, hskip, hreach⟩ := hvs.fresh v hv
    obtain ⟨t, n, hl, -⟩ := hlook v hv
    exact ⟨hreach, hskip, by rw [hl]; rfl⟩
  · rintro ⟨hreach, hskip, hl⟩
    induction hreach with
    | start hmem => exact hin (hvs.stack_done _ hmem) hskip hl
    | @next u v n t _ huskip hulook huread hmem ih =>
      have hu := ih huskip (by rw [hulook]; rfl)
      exact hin (hvs.next_done u hu t ⟨n, hulook, huread⟩ v hmem) hskip hl

theorem explore_panic (stack visited : List ν) :
    ∀ p, g.explore stack visited = .error p →
      ∃ v n, g.Reaches stack v ∧ g.skip v = false ∧ g.look v = some n ∧ g.read n = .error p := by
  fun_induction explore g stack visited with
  | case1 visited =>
    intro p h
    cases h
  | case2 v stack visited hknown ih =>
    intro p h
    obtain ⟨u, n, hreach, hu⟩ := ih p h
    exact ⟨u, n, hreach.mono fun w hw => .start (List.mem_cons_of_mem v hw), hu⟩
  | case3 v stack visited hknown hlook ih =>
    intro p h
    obtain ⟨u, n, hreach, hu⟩ := ih p h
    exact ⟨u, n, hreach.mono fun w hw => .start (List.mem_cons_of_mem v hw), hu⟩
  | case4 v stack visited hknown n hlook p hread =>
    intro p' h
    cases h
    exact ⟨v, n, .start List.mem_cons_self, by simpa using fun hs => hknown (.inl hs), hlook, hread⟩
  | case5 v stack visited hknown n hlook t hread p hrest ih =>
    intro p' h
    cases h
    obtain ⟨u, m, hreach, hu⟩ := ih p hrest
    refine ⟨u, m, hreach.mono fun w hw => ?_, hu⟩
    rcases List.mem_append.1 hw with hw | hw
    · exact .next (.start List.mem_cons_self) (by simpa using fun hs => hknown (.inl hs)) hlook
        hread hw
    · exact .start (List.mem_cons_of_mem v hw)
  | case6 v stack visited hknown n hlook t hread rest hrest ih =>
    intro p h
    cases h

/-- **A walk ends in a value** just when no node it can come to panics. -/
theorem explore_returns_iff (start : List ν) :
    Returns (g.explore start []) ↔
      ∀ v n, g.Reaches start v → g.skip v = false → g.look v = some n → Returns (g.read n) := by
  constructor
  · rintro ⟨ts, h⟩ v n hreach hskip hlook
    obtain ⟨vs, hread, -, hvs⟩ := explore_nodes h
    have hv := (hvs v).2 ⟨hreach, hskip, by rw [hlook]; rfl⟩
    obtain ⟨i, hi, rfl⟩ := List.mem_iff_getElem.1 hv
    have hlen := hread.length_eq
    obtain ⟨m, hm, ht⟩ : g.ReadAt vs[i] ts[i] := hread.get hi (by omega)
    rw [hlook] at hm
    cases hm
    exact ⟨_, ht⟩
  · intro hall
    cases h : g.explore start [] with
    | ok ts => exact ⟨ts, rfl⟩
    | error p =>
      obtain ⟨v, n, hreach, hskip, hlook, hread⟩ := explore_panic start [] p h
      obtain ⟨t, ht⟩ := hall v n hreach hskip hlook
      rw [hread] at ht
      cases ht

end Graph

end Lib
