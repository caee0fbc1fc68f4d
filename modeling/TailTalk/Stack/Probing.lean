/-
  The bursts of an acquisition.

  `Burst n k` is a log of ACKs and probes that ends in `k` probes for `n` that
  no ACK from `n` has answered; the counter of the machine is such a `k`, and a
  claim needs a full one (`claimed_after_burst`).
-/
import TailTalk.Lib.Run
import TailTalk.Stack.Acquisition

namespace TailTalk

open Lib

/-- What the machine is given. -/
inductive AcquireInput where
  | ack (srcNode : UInt8) (now : Micros)
  | poll (now : Micros)

/-- What has come in and gone out. -/
inductive AcquireEntry where
  | ack (srcNode : UInt8)
  | event (event : AcquireEvent)

/-- The candidate of a probe. -/
def AcquireEntry.enq? : AcquireEntry → Option UInt8
  | event (.sendEnq candidate) => some candidate
  | _ => none

/-- The machine and its log. -/
structure AcquireRun where
  acq : Acquisition
  log : List AcquireEntry

namespace AcquireRun

/-- A first candidate, nothing sent. -/
def start (nodeClass : NodeClass) (seed : UInt32) (now : Micros) : AcquireRun :=
  ⟨.new nodeClass seed now, []⟩

/-- An ACK or a poll. -/
def step (r : AcquireRun) : AcquireInput → AcquireRun
  | .ack srcNode now => ⟨r.acq.onAck srcNode now, r.log ++ [.ack srcNode]⟩
  | .poll now => ⟨(r.acq.poll now).2, r.log ++ (r.acq.poll now).1.toList.map .event⟩

end AcquireRun

/-- The number is of the class. -/
def NodeClass.Contains (c : NodeClass) (node : UInt8) : Prop := c.range.1 ≤ node ∧ node ≤ c.range.2

instance (c : NodeClass) (node : UInt8) : Decidable (c.Contains node) :=
  inferInstanceAs (Decidable (_ ∧ _))

/-! ## Candidates -/

theorem NodeClass.lo_lt_hi (c : NodeClass) : c.range.1 < c.range.2 := by cases c <;> decide

namespace Acquisition

theorem new_candidate (c : NodeClass) (seed : UInt32) (now : Micros) :
    c.Contains (Acquisition.new c seed now).candidate :=
  Rand.inRange_mem _ (UInt8.le_of_lt c.lo_lt_hi)

theorem nextCandidate_mem (a : Acquisition) : a.nodeClass.Contains a.nextCandidate.1 := by
  have hlt := a.nodeClass.lo_lt_hi
  obtain ⟨hlo, hhi⟩ := Rand.inRange_mem a.rng (UInt8.le_of_lt hlt)
  simp only [nextCandidate, NodeClass.Contains]
  split_ifs with hsame htop
  · exact ⟨UInt8.le_refl _, UInt8.le_of_lt hlt⟩
  · -- below the top of the range the successor does not wrap
    have hne : (a.rng.inRange a.nodeClass.range.1 a.nodeClass.range.2).1.toNat ≠
        a.nodeClass.range.2.toNat := fun h => htop (UInt8.toNat_inj.1 h)
    have hmax := a.nodeClass.range.2.toNat_lt
    rw [UInt8.le_iff_toNat_le] at hlo hhi ⊢
    rw [UInt8.le_iff_toNat_le, UInt8.toNat_add, UInt8.toNat_one]
    omega
  · exact ⟨hlo, hhi⟩

theorem nextCandidate_ne (a : Acquisition) : a.nextCandidate.1 ≠ a.candidate := by
  simp only [nextCandidate]
  split_ifs with hsame htop
  · rw [← hsame, htop]
    exact UInt8.ne_of_lt a.nodeClass.lo_lt_hi
  · rw [hsame]
    intro h
    have h' := congrArg UInt8.toNat h
    rw [UInt8.toNat_add, UInt8.toNat_one] at h'
    omega
  · exact hsame

theorem onAck_stale {a : Acquisition} {srcNode : UInt8} (now : Micros)
    (h : a.done = true ∨ srcNode ≠ a.candidate) : a.onAck srcNode now = a := if_pos h

theorem onAck_defended {a : Acquisition} (now : Micros) (hdone : a.done = false) :
    a.onAck a.candidate now = { a with
      rng := a.nextCandidate.2, candidate := a.nextCandidate.1, probesSent := 0,
      nextActionAt := now } := by
  unfold onAck
  rw [if_neg (by simp [hdone])]

end Acquisition

/-! ## Bursts -/

/-- The log ends in `k` probes for `n`, none for another node among them and no ACK from `n`. -/
def Burst (n : UInt8) (k : ℕ) (log : List AcquireEntry) : Prop :=
  ∃ before burst, log = before ++ burst ∧
    (∀ e ∈ burst.head?, e = .event (.sendEnq n)) ∧
    burst.filterMap AcquireEntry.enq? = List.replicate k n ∧
    AcquireEntry.ack n ∉ burst

theorem Burst.zero (n : UInt8) (log : List AcquireEntry) : Burst n 0 log :=
  ⟨log, [], by simp⟩

/-- An ACK from another node. -/
theorem Burst.ack {n src : UInt8} {k : ℕ} {log : List AcquireEntry} (h : Burst n k log)
    (hne : src ≠ n) : Burst n k (log ++ [.ack src]) := by
  obtain ⟨before, burst, rfl, hhead, hsent, hack⟩ := h
  rcases burst with _ | ⟨e, burst⟩
  · exact ⟨before ++ [.ack src], [], by simpa using hsent⟩
  · refine ⟨before, (e :: burst) ++ [.ack src], by simp, hhead, ?_, ?_⟩
    · rw [List.filterMap_append, hsent]
      simp [AcquireEntry.enq?]
    · rw [List.mem_append, List.mem_singleton]
      rintro (h | h)
      · exact hack h
      · exact hne (AcquireEntry.ack.inj h).symm

/-- One more probe. -/
theorem Burst.enq {n : UInt8} {k : ℕ} {log : List AcquireEntry} (h : Burst n k log) :
    Burst n (k + 1) (log ++ [.event (.sendEnq n)]) := by
  obtain ⟨before, burst, rfl, hhead, hsent, hack⟩ := h
  refine ⟨before, burst ++ [.event (.sendEnq n)], by simp, ?_, ?_, ?_⟩
  · rcases burst with _ | ⟨e, burst⟩
    · simp
    · exact hhead
  · rw [List.filterMap_append, hsent, List.replicate_succ']
    rfl
  · simpa using hack

/-- Every claim of the log was earned by a full burst. -/
def Earned (log : List AcquireEntry) : Prop :=
  ∀ before n after, log = before ++ .event (.claimed n) :: after →
    Burst n Acquisition.DEFAULT_PROBES before

theorem Earned.nil : Earned [] := by
  intro before n after h
  cases before with
  | nil => cases h
  | cons e before => cases h

theorem Earned.snoc {log : List AcquireEntry} {e : AcquireEntry} (h : Earned log)
    (he : ∀ n, e = .event (.claimed n) → Burst n Acquisition.DEFAULT_PROBES log) :
    Earned (log ++ [e]) := by
  intro before n after heq
  rcases List.eq_nil_or_concat' after with rfl | ⟨after, last, rfl⟩
  · obtain ⟨rfl, hlast⟩ := List.append_inj' heq rfl
    exact he n (List.singleton_inj.1 hlast)
  · rw [← List.cons_append, ← List.append_assoc] at heq
    exact h before n after (List.append_inj' heq rfl).1

/-! ## The invariant -/

/-- A log of nodes of the class, and one more entry. -/
theorem inRange_snoc {c : NodeClass} {log : List AcquireEntry} {e : AcquireEntry}
    (h : ∀ e ∈ log, ∀ n, e = .event (.sendEnq n) ∨ e = .event (.claimed n) → c.Contains n)
    (he : ∀ n, e = .event (.sendEnq n) ∨ e = .event (.claimed n) → c.Contains n) :
    ∀ e' ∈ log ++ [e], ∀ n,
      e' = .event (.sendEnq n) ∨ e' = .event (.claimed n) → c.Contains n := by
  intro e' he' n hn
  rcases List.mem_append.1 he' with hold | hnew
  · exact h e' hold n hn
  · rw [List.mem_singleton.1 hnew] at hn
    exact he n hn

/-- What holds of a run of the machine. -/
structure Probing (c : NodeClass) (r : AcquireRun) : Prop where
  nodeClass : r.acq.nodeClass = c
  candidate : c.Contains r.acq.candidate
  probes : r.acq.probesPerCandidate = Acquisition.DEFAULT_PROBES
  sent : r.acq.probesSent ≤ Acquisition.DEFAULT_PROBES
  burst : r.acq.done = false → Burst r.acq.candidate r.acq.probesSent r.log
  earned : Earned r.log
  inRange : ∀ e ∈ r.log, ∀ n, e = .event (.sendEnq n) ∨ e = .event (.claimed n) → c.Contains n

theorem Probing.start (c : NodeClass) (seed : UInt32) (now : Micros) :
    Probing c (AcquireRun.start c seed now) where
  nodeClass := rfl
  candidate := Acquisition.new_candidate c seed now
  probes := rfl
  sent := Nat.zero_le _
  burst _ := Burst.zero _ _
  earned := Earned.nil
  inRange _ he := absurd he List.not_mem_nil

theorem Probing.ack {c : NodeClass} {r : AcquireRun} (h : Probing c r) (src : UInt8)
    (now : Micros) : Probing c (r.step (.ack src now)) := by
  have hearned : Earned (r.log ++ [.ack src]) := h.earned.snoc (fun _ he => by cases he)
  have hrange := inRange_snoc (e := .ack src) h.inRange (by rintro n (hn | hn) <;> cases hn)
  rcases hdone : r.acq.done with _ | _
  · by_cases hsrc : src = r.acq.candidate
    · subst hsrc
      have hstep : r.step (.ack r.acq.candidate now) =
          ⟨_, r.log ++ [.ack r.acq.candidate]⟩ :=
        congrArg (AcquireRun.mk · _) (Acquisition.onAck_defended now hdone)
      rw [hstep]
      exact {
        nodeClass := h.nodeClass
        candidate := h.nodeClass ▸ r.acq.nextCandidate_mem
        probes := h.probes
        sent := Nat.zero_le _
        burst := fun _ => Burst.zero _ _
        earned := hearned
        inRange := hrange }
    · have hstep : r.step (.ack src now) = ⟨r.acq, r.log ++ [.ack src]⟩ :=
        congrArg (AcquireRun.mk · _) (Acquisition.onAck_stale now (Or.inr hsrc))
      rw [hstep]
      exact { h with
        burst := fun _ => (h.burst hdone).ack hsrc
        earned := hearned
        inRange := hrange }
  · have hstep : r.step (.ack src now) = ⟨r.acq, r.log ++ [.ack src]⟩ :=
      congrArg (AcquireRun.mk · _) (Acquisition.onAck_stale now (Or.inl hdone))
    rw [hstep]
    exact { h with
      burst := fun hdone' => absurd (hdone.symm.trans hdone') (by decide)
      earned := hearned
      inRange := hrange }

theorem Acquisition.done_of_due {a : Acquisition} {now : Micros} (h : a.due now = true) :
    a.done = false := by
  simp only [Acquisition.due, Bool.and_eq_true, Bool.not_eq_true'] at h
  exact h.1

theorem Probing.poll {c : NodeClass} {r : AcquireRun} (h : Probing c r) (now : Micros) :
    Probing c (r.step (.poll now)) := by
  have hcases := r.acq.poll_cases now
  simp only [AcquireRun.step]
  generalize (r.acq.poll now).1 = event, (r.acq.poll now).2 = acq at hcases ⊢
  cases hcases with
  | early =>
    simp only [Option.toList_none, List.map_nil, List.append_nil]
    exact h
  | probe hdue hsent =>
    exact { h with
      sent := h.probes ▸ hsent
      burst := fun _ => (h.burst (Acquisition.done_of_due hdue)).enq
      earned := h.earned.snoc (fun _ he => by cases he)
      inRange := by
        refine inRange_snoc h.inRange ?_
        rintro n (hn | hn)
        · cases hn
          exact h.candidate
        · cases hn }
  | claim hdue hsent =>
    have hfull : r.acq.probesSent = Acquisition.DEFAULT_PROBES :=
      Nat.le_antisymm h.sent (h.probes ▸ hsent)
    have hburst := h.burst (Acquisition.done_of_due hdue)
    rw [hfull] at hburst
    exact { h with
      burst := fun hdone => by cases hdone
      earned := h.earned.snoc (fun n he => by cases he; exact hburst)
      inRange := by
        refine inRange_snoc h.inRange ?_
        rintro n (hn | hn)
        · cases hn
        · cases hn
          exact h.candidate }

theorem Probing.step {c : NodeClass} {r : AcquireRun} (h : Probing c r) (i : AcquireInput) :
    Probing c (r.step i) := by
  cases i with
  | ack src now => exact h.ack src now
  | poll now => exact h.poll now

theorem Probing.run (c : NodeClass) (seed : UInt32) (now : Micros) (is : List AcquireInput) :
    Probing c (run AcquireRun.step (.start c seed now) is) :=
  inv_run AcquireRun.step (fun _ i h _ => h.step i) (Probing.start c seed now)
    (along_true AcquireRun.step is)

/-! ## Claims -/

/-- **A claim follows a full burst.**  In every run a node is claimed after eight probes in a row
    that it has not answered; what is probed for and what is claimed is in the range of the
    class; and an ACK from the candidate, of all ACKs, replaces it and starts the count again. -/
theorem claimed_after_burst (c : NodeClass) (seed : UInt32) (start : Micros)
    (is : List AcquireInput) :
    let r := run AcquireRun.step (.start c seed start) is
    Earned r.log ∧
      (∀ n, .event (.sendEnq n) ∈ r.log ∨ .event (.claimed n) ∈ r.log → c.Contains n) ∧
      (r.acq.done = false → Burst r.acq.candidate r.acq.probesSent r.log) ∧
      ∀ src now, let a := r.acq.onAck src now
        if r.acq.done = false ∧ src = r.acq.candidate then
          a.candidate ≠ src ∧ c.Contains a.candidate ∧ a.probesSent = 0
        else a = r.acq := by
  intro r
  have h := Probing.run c seed start is
  refine ⟨h.earned, ?_, h.burst, ?_⟩
  · rintro n (hn | hn)
    · exact h.inRange _ hn n (Or.inl rfl)
    · exact h.inRange _ hn n (Or.inr rfl)
  · intro src now a
    split_ifs with hsrc
    · obtain ⟨hdone, rfl⟩ := hsrc
      have ha : a = _ := Acquisition.onAck_defended now hdone
      rw [ha]
      exact ⟨Acquisition.nextCandidate_ne _, h.nodeClass ▸ Acquisition.nextCandidate_mem _, rfl⟩
    · refine Acquisition.onAck_stale now ?_
      rw [Decidable.not_and_iff_or_not, Bool.not_eq_false] at hsrc
      exact hsrc

end TailTalk
