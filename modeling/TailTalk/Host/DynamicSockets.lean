/-
  Sockets for those who ask for no number — drawn at random, a bounded number
  of times.

  Neither the embedded stack nor the host looks for a free number: each draws
  from 64 to 254, the one 381 times and the other 191 times, and gives up if
  all that it drew are in use (`opens_dynamic_iff`).
-/
import TailTalk.Host.Sockets
import TailTalk.Stack.Stack

namespace TailTalk

open Lib

/-- A number of the dynamic range. -/
def IsDynamic (n : UInt8) : Prop := DYNAMIC_SOCKETS.1 ≤ n ∧ n ≤ DYNAMIC_SOCKETS.2

/-- The numbers that a generator comes up with. -/
def Rand.draws (lo hi : UInt8) : ℕ → Rand → List UInt8
  | 0, _ => []
  | k + 1, rng => (rng.inRange lo hi).1 :: draws lo hi k (rng.inRange lo hi).2

theorem Rand.mem_draws {lo hi : UInt8} (h : lo ≤ hi) {k : ℕ} {rng : Rand} {n : UInt8}
    (hn : n ∈ rng.draws lo hi k) : lo ≤ n ∧ n ≤ hi := by
  induction k generalizing rng with
  | zero => cases hn
  | succ k ih =>
    rcases List.mem_cons.1 hn with rfl | hn
    · exact rng.inRange_mem h
    · exact ih hn

/-! ## The embedded stack -/

namespace Stack

/-- What the stack draws when it opens a dynamic socket. -/
def dynamicDraws (s : Stack) : List UInt8 := s.rng.draws DYNAMIC_SOCKET_LO DYNAMIC_SOCKET_HI 381

theorem drawSocket_fst (sockets : Finset UInt8) (tries : ℕ) (rng : Rand) :
    (drawSocket sockets tries rng).1 =
      (rng.draws DYNAMIC_SOCKET_LO DYNAMIC_SOCKET_HI tries).find? (· ∉ sockets) := by
  induction tries generalizing rng with
  | zero => rfl
  | succ tries ih =>
    simp only [drawSocket, Rand.draws, List.find?_cons]
    by_cases hused : (rng.inRange DYNAMIC_SOCKET_LO DYNAMIC_SOCKET_HI).1 ∈ sockets
    · rw [if_pos hused, ih]
      simp [hused]
    · rw [if_neg hused]
      simp [hused]

theorem openSocket_none (s : Stack) :
    (s.openSocket none).1 =
      match s.dynamicDraws.find? (· ∉ s.sockets) with
      | some n => .ok n
      | none => .error .exhausted := by
  have hfst := drawSocket_fst s.sockets 381 s.rng
  have htries : (DYNAMIC_SOCKET_HI - DYNAMIC_SOCKET_LO).toNat * 2 + 1 = 381 := rfl
  rw [openSocket, htries, dynamicDraws, ← hfst]
  rcases drawSocket s.sockets 381 s.rng with ⟨_ | n, rng⟩
  · rfl
  · rfl

/-- The stack gives out a free dynamic number, or all of them are in use. -/
def OpensDynamic (s : Stack) : Prop :=
  match (s.openSocket none).1 with
  | .ok n => IsDynamic n ∧ n ∉ s.sockets
  | .error e => e = .exhausted ∧ ∀ n, IsDynamic n → n ∈ s.sockets

theorem opensDynamic_iff (s : Stack) :
    s.OpensDynamic ↔ (∃ n ∈ s.dynamicDraws, n ∉ s.sockets) ∨ ∀ n, IsDynamic n → n ∈ s.sockets := by
  rw [OpensDynamic, openSocket_none]
  rcases hfind : s.dynamicDraws.find? (· ∉ s.sockets) with _ | n
  · have hnone : ¬ ∃ n ∈ s.dynamicDraws, n ∉ s.sockets := by
      rintro ⟨n, hn, hfree⟩
      exact List.find?_eq_none.1 hfind n hn (decide_eq_true hfree)
    constructor
    · exact fun h => Or.inr h.2
    · exact fun h => ⟨rfl, h.resolve_left hnone⟩
  · have hmem := List.mem_of_find?_eq_some hfind
    have hfree : n ∉ s.sockets := by simpa using List.find?_some hfind
    exact iff_of_true ⟨Rand.mem_draws (by decide) hmem, hfree⟩ (Or.inl ⟨n, hmem, hfree⟩)

end Stack

/-! ## The host -/

namespace DdpProcessor.Registry

/-- The number is registered, and its owner has not gone. -/
def InUse (r : Registry) (n : UInt8) : Prop := ∃ tx, r.sockets n = some tx ∧ r.isClosed tx = false

theorem reap_isNone (r : Registry) (n : UInt8) :
    (r.reap.sockets n).isNone = true ↔ ¬ r.InUse n := by
  rw [Option.isNone_iff_eq_none, InUse]
  change (r.sockets n).filter (fun tx => !r.isClosed tx) = none ↔ _
  rcases r.sockets n with _ | tx
  · simp
  · rcases hclosed : r.isClosed tx with _ | _ <;> simp [Option.filter, hclosed]

/-- The host gives out a free dynamic number, or all of them are in use. -/
def OpensDynamic (r : Registry) (protocol : DdpProtocolType) (draws : ℕ → DynamicSocket) : Prop :=
  match (r.newSock protocol none draws).1 with
  | .ok sock => IsDynamic sock.sockNum ∧ ¬ r.InUse sock.sockNum
  | .error e => e = .addrInUse ∧ ∀ n, IsDynamic n → r.InUse n

theorem opensDynamic_iff (r : Registry) (protocol : DdpProtocolType) (draws : ℕ → DynamicSocket) :
    r.OpensDynamic protocol draws ↔
      (∃ i < 191, ¬ r.InUse (draws i).1) ∨ ∀ n, IsDynamic n → r.InUse n := by
  rcases hfind : chooseSock r.reap.sockets none draws with _ | n
  · have hres : (r.newSock protocol none draws).1 = .error .addrInUse := by
      simp only [newSock, hfind]
    have hnone : ¬ ∃ i < 191, ¬ r.InUse (draws i).1 := by
      rintro ⟨i, hi, hfree⟩
      have hmem : (draws i).1 ∈ (List.range 191).map fun i => (draws i).1 :=
        List.mem_map_of_mem (List.mem_range.2 hi)
      exact List.find?_eq_none.1 hfind _ hmem ((r.reap_isNone _).2 hfree)
    rw [OpensDynamic, hres]
    constructor
    · exact fun h => Or.inr h.2
    · exact fun h => ⟨rfl, h.resolve_left hnone⟩
  · have hres : (r.newSock protocol none draws).1 = .ok ⟨protocol, n, r.made⟩ := by
      simp only [newSock, hfind]
      rfl
    have hfree : ¬ r.InUse n := by
      rw [← r.reap_isNone, chooseSock_free hfind]
      rfl
    obtain ⟨i, hi, hdraw⟩ := List.mem_map.1 (List.mem_of_find?_eq_some hfind)
    rw [OpensDynamic, hres]
    refine iff_of_true ⟨?_, hfree⟩ (Or.inl ⟨i, List.mem_range.1 hi, ?_⟩)
    · rw [← hdraw]
      exact (draws i).2
    · rw [hdraw]
      exact hfree

end DdpProcessor.Registry

/-- **When a dynamic socket is had.**  Either implementation gives out a free number of the range,
    or fails with all of them in use, exactly if one of its bounded number of draws is free or all
    are in use. -/
theorem opens_dynamic_iff (s : Stack) (r : DdpProcessor.Registry) (protocol : DdpProtocolType)
    (draws : ℕ → DynamicSocket) :
    (s.OpensDynamic ↔
      (∃ n ∈ s.dynamicDraws, n ∉ s.sockets) ∨ ∀ n, IsDynamic n → n ∈ s.sockets) ∧
    (r.OpensDynamic protocol draws ↔
      (∃ i < 191, ¬ r.InUse (draws i).1) ∨ ∀ n, IsDynamic n → r.InUse n) :=
  ⟨s.opensDynamic_iff, r.opensDynamic_iff protocol draws⟩

/-- A stack in which the 161 numbers that it is about to draw are in use. -/
def unlucky : Stack :=
  let s := Stack.new ⟨.user, 0, true⟩ 0
  { s with sockets := (s.rng.draws DYNAMIC_SOCKET_LO DYNAMIC_SOCKET_HI 381).toFinset }

/-- The stack fails with number 95, and 29 others, free. -/
theorem unlucky_exhausted : ¬ ∀ s : Stack, s.OpensDynamic := by
  intro h
  have hsockets : unlucky.sockets =
      (unlucky.rng.draws DYNAMIC_SOCKET_LO DYNAMIC_SOCKET_HI 381).toFinset := by
    rw [unlucky]
  have hused : ∀ n ∈ unlucky.dynamicDraws, n ∈ unlucky.sockets := by
    intro n hn
    rw [hsockets, List.mem_toFinset]
    exact hn
  have hfree : (95 : UInt8) ∉ unlucky.sockets := by
    rw [hsockets, List.mem_toFinset]
    decide +kernel
  have h95 : IsDynamic 95 := ⟨by decide, by decide⟩
  have hopens := fun s => (Stack.opensDynamic_iff s).1 (h s)
  rcases hopens unlucky with ⟨n, hn, hn'⟩ | hall
  · exact hn' (hused n hn)
  · exact hfree (hall 95 h95)

end TailTalk
