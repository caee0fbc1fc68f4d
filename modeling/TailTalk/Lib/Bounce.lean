/-
  Two parties that rename their entries for each other.

  A message `(u, v)` asks for the entry `v` to be moved to the key `u`; a party
  that has the key free and the entry does so, and answers with `(v, u)`.  This
  ends: entries that messages name for ever sit under keys these name, with one
  key free, so they are fewer; but the entries of one side are the keys of the
  other.
-/
import Mathlib.Data.Multiset.Count
import Mathlib.Order.Filter.AtTopBot.Basic
import Mathlib.Order.Filter.Finite
import Mathlib.Order.WellFounded
import Mathlib.Order.Lattice.Nat
import Mathlib.Data.Finset.Card

namespace Lib

open Filter

universe u
variable {κ : Type u}

/-- A message to a side: the key, and the entry to be moved there. -/
abbrev BounceMsg (κ : Type u) : Type u := Bool × κ × κ

/-- The message that answers one that is followed. -/
def BounceMsg.back (b : BounceMsg κ) : BounceMsg κ := (!b.1, b.2.2, b.2.1)

@[simp] theorem BounceMsg.back_back (b : BounceMsg κ) : b.back.back = b := by
  obtain ⟨side, u, v⟩ := b
  simp [BounceMsg.back]

variable [DecidableEq κ]

/-- The entries of both sides by key, and the messages under way. -/
structure Bounce (κ : Type u) where
  keys : Bool → κ → Option κ
  msgs : Multiset (BounceMsg κ)

namespace Bounce

/-- Entry `v` is moved from key `k` to key `u`. -/
def rename (keys : κ → Option κ) (k u v : κ) : κ → Option κ :=
  Function.update (Function.update keys k none) u (some v)

/-- A message is delivered. -/
inductive Step (s : Bounce κ) : Bounce κ → Prop
  | dies {b : BounceMsg κ} {rest : Multiset (BounceMsg κ)} (h : s.msgs = b ::ₘ rest) :
    Step s ⟨s.keys, rest⟩
  | moves {b : BounceMsg κ} {rest : Multiset (BounceMsg κ)} {k : κ} (h : s.msgs = b ::ₘ rest)
    (hfree : s.keys b.1 b.2.1 = none) (hk : s.keys b.1 k = some b.2.2) :
    Step s ⟨Function.update s.keys b.1 (rename (s.keys b.1) k b.2.1 b.2.2), b.back ::ₘ rest⟩

/-- What is known of a message that is followed. -/
structure Follows (s s' : Bounce κ) (b : BounceMsg κ) : Prop where
  msgs : ∃ rest, s.msgs = b ::ₘ rest ∧ s'.msgs = b.back ::ₘ rest
  free : s.keys b.1 b.2.1 = none
  keys : ∃ k, s'.keys = Function.update s.keys b.1 (rename (s.keys b.1) k b.2.1 b.2.2) ∧
    s.keys b.1 k = some b.2.2

theorem Step.card_le {s s' : Bounce κ} (h : Step s s') : s'.msgs.card ≤ s.msgs.card := by
  cases h with
  | dies h => rw [h, Multiset.card_cons]; exact Nat.le_succ _
  | moves h => rw [h, Multiset.card_cons, Multiset.card_cons]

theorem Step.follows {s s' : Bounce κ} (h : Step s s') (hcard : s'.msgs.card = s.msgs.card) :
    ∃ b, Follows s s' b := by
  cases h with
  | dies h =>
    rw [h, Multiset.card_cons] at hcard
    exact absurd hcard (Nat.ne_of_lt (Nat.lt_succ_self _))
  | @moves b rest k h hfree hk => exact ⟨b, ⟨rest, h, rfl⟩, hfree, k, rfl, hk⟩

section
variable {s s' : Bounce κ} {b c : BounceMsg κ}

theorem Follows.mem (h : Follows s s' b) : b ∈ s.msgs := by
  obtain ⟨rest, hs, -⟩ := h.msgs
  rw [hs]
  exact Multiset.mem_cons_self b rest

theorem Follows.mem_of_mem (h : Follows s s' b) (hc : c ∈ s'.msgs) : c ∈ s.msgs ∨ c = b.back := by
  obtain ⟨rest, hs, hs'⟩ := h.msgs
  rw [hs'] at hc
  rcases Multiset.mem_cons.1 hc with rfl | hc
  · exact .inr rfl
  · rw [hs]
    exact .inl (Multiset.mem_cons_of_mem hc)

theorem Follows.count (h : Follows s s' b) : s'.msgs.count c + (if c = b then 1 else 0) =
    s.msgs.count c + (if c = b.back then 1 else 0) := by
  obtain ⟨rest, hs, hs'⟩ := h.msgs
  rw [hs, hs', Multiset.count_cons, Multiset.count_cons]
  omega

theorem Follows.placed (h : Follows s s' b) : s'.keys b.1 b.2.1 = some b.2.2 := by
  obtain ⟨k, hk, -⟩ := h.keys
  rw [hk, Function.update_self, rename, Function.update_self]

theorem Follows.stays (h : Follows s s' b) {side : Bool} {u v : κ}
    (hu : s.keys side u = some v) (hne : ¬ (side = b.1 ∧ v = b.2.2)) :
    s'.keys side u = some v := by
  obtain ⟨k, hk, hold⟩ := h.keys
  rw [hk]
  by_cases hside : side = b.1
  · subst hside
    have hfree : u ≠ b.2.1 := by
      rintro rfl
      rw [h.free] at hu
      cases hu
    have hkey : u ≠ k := by
      rintro rfl
      rw [hold] at hu
      exact hne ⟨rfl, (Option.some.inj hu).symm⟩
    rw [Function.update_self, rename, Function.update_of_ne hfree, Function.update_of_ne hkey, hu]
  · rw [Function.update_of_ne hside, hu]

end

/-! ## Endless runs -/

/-- A sequence that never grows is constant in the end. -/
theorem eventually_const {f : ℕ → ℕ} {N : ℕ} (h : ∀ n ≥ N, f (n + 1) ≤ f n) :
    ∃ M ≥ N, ∀ n ≥ M, f n = f M := by
  obtain ⟨M, hM, hmin⟩ : ∃ M ≥ N, ∀ n ≥ N, f M ≤ f n := by
    have hne : ({m | ∃ n ≥ N, f n = m} : Set ℕ).Nonempty := ⟨f N, N, Nat.le_refl N, rfl⟩
    obtain ⟨M, hM, heq⟩ := Nat.sInf_mem hne
    exact ⟨M, hM, fun n hn => heq ▸ Nat.sInf_le ⟨n, hn, rfl⟩⟩
  have hle : ∀ n ≥ M, f n ≤ f M := by
    intro n hn
    induction n, hn using Nat.le_induction with
    | base => exact Nat.le_refl _
    | succ n hn ih => exact Nat.le_trans (h n (Nat.le_trans hM hn)) ih
  exact ⟨M, hM, fun n hn => Nat.le_antisymm (hle n hn) (hmin n (Nat.le_trans hM hn))⟩

section
variable {s : ℕ → Bounce κ} {d : ℕ → BounceMsg κ}

/-- The messages that are followed again and again. -/
def Recurs (d : ℕ → BounceMsg κ) (b : BounceMsg κ) : Prop := ∃ᶠ n in atTop, d n = b

/-- What may be under way at all: what is under way at first, and its answers. -/
def possible (t : Bounce κ) : Finset (BounceMsg κ) :=
  t.msgs.toFinset ∪ t.msgs.toFinset.image BounceMsg.back

theorem back_mem_possible {t : Bounce κ} {b : BounceMsg κ} (h : b ∈ t.possible) :
    b.back ∈ t.possible := by
  simp only [possible, Finset.mem_union, Finset.mem_image, Multiset.mem_toFinset] at h ⊢
  rcases h with h | ⟨c, hc, rfl⟩
  · exact .inr ⟨b, h, rfl⟩
  · rw [BounceMsg.back_back]
    exact .inl hc

/-- The entries that recurring messages to a side name. -/
noncomputable def entries (t : Bounce κ) (d : ℕ → BounceMsg κ) (side : Bool) : Finset κ :=
  open Classical in (t.possible.filter fun b => Recurs d b ∧ b.1 = side).image fun b => b.2.2

/-- The keys they name. -/
noncomputable def targets (t : Bounce κ) (d : ℕ → BounceMsg κ) (side : Bool) : Finset κ :=
  open Classical in (t.possible.filter fun b => Recurs d b ∧ b.1 = side).image fun b => b.2.1

theorem mem_entries {t : Bounce κ} {side : Bool} {v : κ} :
    v ∈ t.entries d side ↔ ∃ u, (side, u, v) ∈ t.possible ∧ Recurs d (side, u, v) := by
  simp only [entries, Finset.mem_image, Finset.mem_filter]
  constructor
  · rintro ⟨⟨i, u, v⟩, ⟨hp, hr, rfl⟩, rfl⟩
    exact ⟨u, hp, hr⟩
  · rintro ⟨u, hp, hr⟩
    exact ⟨(side, u, v), ⟨hp, hr, rfl⟩, rfl⟩

theorem mem_targets {t : Bounce κ} {side : Bool} {u : κ} :
    u ∈ t.targets d side ↔ ∃ v, (side, u, v) ∈ t.possible ∧ Recurs d (side, u, v) := by
  simp only [targets, Finset.mem_image, Finset.mem_filter]
  constructor
  · rintro ⟨⟨i, u, v⟩, ⟨hp, hr, rfl⟩, rfl⟩
    exact ⟨v, hp, hr⟩
  · rintro ⟨v, hp, hr⟩
    exact ⟨(side, u, v), ⟨hp, hr, rfl⟩, rfl⟩

variable (hd : ∀ n, Follows (s n) (s (n + 1)) (d n))
include hd

theorem mem_possible (n : ℕ) : ∀ b ∈ (s n).msgs, b ∈ (s 0).possible := by
  induction n with
  | zero =>
    intro b hb
    exact Finset.mem_union_left _ (Multiset.mem_toFinset.2 hb)
  | succ n ih =>
    intro b hb
    rcases (hd n).mem_of_mem hb with hb | rfl
    · exact ih b hb
    · exact back_mem_possible (ih _ (hd n).mem)

theorem followed_possible (n : ℕ) : d n ∈ (s 0).possible := mem_possible hd n _ (hd n).mem

theorem eventually_recurs : ∀ᶠ n in atTop, Recurs d (d n) := by
  have hone : ∀ b ∈ (s 0).possible, ∀ᶠ n in atTop, d n = b → Recurs d b := by
    intro b _
    by_cases hb : Recurs d b
    · exact Eventually.of_forall fun _ _ => hb
    · exact (not_frequently.1 hb).mono fun n hn heq => absurd heq hn
  filter_upwards [(eventually_all_finset _).2 hone] with n hall
  exact hall (d n) (followed_possible hd n) rfl

theorem recurs_back {b : BounceMsg κ} (h : Recurs d b) : Recurs d b.back := by
  by_contra hback
  -- Only the answer puts the message under way again.
  obtain ⟨M, hM⟩ := eventually_atTop.1 (not_frequently.1 hback)
  have hcount : ∀ n ≥ M, (s (n + 1)).msgs.count b + (if b = d n then 1 else 0) =
      (s n).msgs.count b := by
    intro n hn
    have hother : ¬ b = (d n).back := by
      rintro rfl
      exact hM n hn (BounceMsg.back_back _).symm
    have hstep := (hd n).count (c := b)
    rwa [if_neg hother, Nat.add_zero] at hstep
  obtain ⟨M', hM', hconst⟩ := eventually_const (f := fun n => (s n).msgs.count b) (N := M)
    fun n hn => Nat.le.intro (hcount n hn)
  obtain ⟨n, hn, hb⟩ := frequently_atTop.1 h M'
  have hlast := hcount n (Nat.le_trans hM' hn)
  rw [if_pos hb.symm] at hlast
  have hnow : (s n).msgs.count b = (s M').msgs.count b := hconst n hn
  have hnext : (s (n + 1)).msgs.count b = (s M').msgs.count b :=
    hconst (n + 1) (Nat.le_succ_of_le hn)
  omega

theorem entries_eq_targets (side : Bool) :
    (s 0).entries d side = (s 0).targets d (!side) := by
  ext v
  rw [mem_entries, mem_targets]
  constructor
  · rintro ⟨u, hp, hr⟩
    exact ⟨u, back_mem_possible hp, recurs_back hd hr⟩
  · rintro ⟨u, hp, hr⟩
    have hback : BounceMsg.back (!side, v, u) = (side, u, v) := by simp [BounceMsg.back]
    exact ⟨u, hback ▸ back_mem_possible hp, hback ▸ recurs_back hd hr⟩

/-- Once a recurring message was followed, its entry stays under a key that
    recurring messages name. -/
theorem eventually_placed (side : Bool) :
    ∀ᶠ n in atTop, ∀ v ∈ (s 0).entries d side, ∃ u ∈ (s 0).targets d side,
      (s n).keys side u = some v := by
  refine (eventually_all_finset _).2 fun v hv => ?_
  obtain ⟨u, hp, hr⟩ := mem_entries.1 hv
  obtain ⟨M, hM⟩ := eventually_atTop.1 (eventually_recurs hd)
  obtain ⟨m, hm, hmd⟩ := frequently_atTop.1 hr M
  have htarget : ∀ n ≥ M, (d n).2.1 ∈ (s 0).targets d (d n).1 := fun n hn =>
    mem_targets.2 ⟨_, followed_possible hd n, hM n hn⟩
  refine eventually_atTop.2 ⟨m + 1, fun n hn => ?_⟩
  induction n, hn using Nat.le_induction with
  | base =>
    have hplaced := (hd m).placed
    rw [hmd] at hplaced
    exact ⟨u, mem_targets.2 ⟨v, hp, hr⟩, hplaced⟩
  | succ n hn ih =>
    obtain ⟨w, hw, hkey⟩ := ih
    by_cases hsame : side = (d n).1 ∧ v = (d n).2.2
    · obtain ⟨rfl, rfl⟩ := hsame
      exact ⟨_, htarget n (Nat.le_trans hm (Nat.le_of_succ_le hn)), (hd n).placed⟩
    · exact ⟨w, hw, (hd n).stays hkey hsame⟩

/-- There are fewer entries than keys among the recurring messages to a side. -/
theorem card_entries_lt {b : BounceMsg κ} (hb : Recurs d b) :
    ((s 0).entries d b.1).card < ((s 0).targets d b.1).card := by
  obtain ⟨M, hM⟩ := eventually_atTop.1 (eventually_placed hd b.1)
  obtain ⟨n, hn, rfl⟩ := frequently_atTop.1 hb M
  have hfree := (hd n).free
  have htarget : (d n).2.1 ∈ (s 0).targets d (d n).1 :=
    mem_targets.2 ⟨_, followed_possible hd n, hb⟩
  have hplaced := hM n hn
  choose! key hkey hold using hplaced
  have hle : ((s 0).entries d (d n).1).card ≤
      (((s 0).targets d (d n).1).erase (d n).2.1).card := by
    refine Finset.card_le_card_of_injOn key (fun v hv => ?_) fun v hv w hw heq => ?_
    · refine Finset.mem_erase.2 ⟨fun heq => ?_, hkey v hv⟩
      have hused := hold v hv
      rw [heq, hfree] at hused
      cases hused
    · have hv' := hold v hv
      rw [heq, hold w hw] at hv'
      exact (Option.some.inj hv').symm
  exact Nat.lt_of_le_of_lt hle (Finset.card_erase_lt_of_mem htarget)

theorem not_follows_forever : False := by
  obtain ⟨M, hM⟩ := eventually_atTop.1 (eventually_recurs hd)
  have hrec := hM M (Nat.le_refl M)
  have hlt := card_entries_lt hd hrec
  have hlt' := card_entries_lt hd (recurs_back hd hrec)
  have hside : (d M).back.1 = !(d M).1 := rfl
  have heq := entries_eq_targets hd (!(d M).1)
  rw [Bool.not_not] at heq
  rw [hside, heq] at hlt'
  rw [entries_eq_targets hd (d M).1] at hlt
  exact Nat.lt_asymm hlt hlt'

end

/-- **No endless exchange.**  However the messages are delivered, none is under way in the end. -/
theorem step_wellFounded : WellFounded fun s' s : Bounce κ => Step s s' := by
  refine wellFounded_iff_isEmpty_descending_chain.2 ⟨?_⟩
  rintro ⟨s, hs⟩
  obtain ⟨N, -, hN⟩ := eventually_const (f := fun n => (s n).msgs.card) (N := 0)
    fun n _ => (hs n).card_le
  have hfollows : ∀ n, ∃ b, Follows (s (N + n)) (s (N + n + 1)) b := by
    intro n
    refine (hs (N + n)).follows ?_
    exact (hN (N + n + 1) (Nat.le_trans (Nat.le_add_right N n) (Nat.le_succ _))).trans
      (hN (N + n) (Nat.le_add_right N n)).symm
  choose d hd using hfollows
  exact not_follows_forever (s := fun n => s (N + n)) hd

end Bounce

end Lib
