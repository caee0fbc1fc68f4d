/-
  The defence of LLAP node numbers.

  A stack that is due is polled only once the others have heard all it had to
  send, so each probe of a burst is heard before the next one.  But a stack
  drops every ENQ that carries its own number as its source, and that is how
  `Acquisition` sends them.
-/
import Mathlib.Data.Fintype.Basic
import TailTalk.Lib.Cable
import TailTalk.LocalTalk.RxEngine
import TailTalk.Stack.Stack

namespace TailTalk

open Lib

/-! ## Stacks on a cable -/

/-- Due is what makes a poll act. -/
def Stack.due (s : Stack) (now : Micros) : Bool :=
  match s.acquire with
  | some a => a.due now
  | none => false

theorem Stack.outbox_pollTransmit (s : Stack) :
    s.outbox = s.pollTransmit.1.toList ++ s.pollTransmit.2.outbox := by
  unfold pollTransmit
  rcases hout : s.outbox with _ | ⟨f, rest⟩
  · simp [hout]
  · rfl

theorem Stack.mem_outbox_call {s : Stack} {c : Stack.Call} {f : OutFrame} (h : f ∈ s.outbox) :
    f ∈ (s.call c).outbox := by
  obtain ⟨fs, hfs, -⟩ := (s.above_call c).outbox
  rw [hfs]
  exact List.mem_append_left _ h

/-- A stack as a station: frames cross the cable as bytes. -/
def stackStation : Station Stack OutFrame StackConfig Stack.Call where
  new := Stack.new
  call := Stack.call
  poll := Stack.poll
  recv s f now := s.handleFrame f.toBytes now
  due := Stack.due
  outbox := Stack.outbox
  transmit := Stack.pollTransmit
  outbox_call := Stack.mem_outbox_call
  outbox_poll := Stack.mem_outbox_poll
  outbox_recv := Stack.mem_outbox_handleFrame
  outbox_transmit := Stack.outbox_pollTransmit

variable {ι : Type} [DecidableEq ι]

/-- The stacks on one cable. -/
abbrev StackCable (ι : Type) := Cable Stack OutFrame ι

/-- What happens there. -/
abbrev CableAct (ι : Type) := Cable.Act StackConfig Stack.Call ι

/-- A run from a cable with no stack. -/
def cableRun (as : List (CableAct ι)) : StackCable ι := run (Cable.step stackStation) .empty as

/-- A stack that starts answers ENQs in software. -/
def AutoAcks : CableAct ι → Prop
  | .start _ cfg => cfg.autoAckEnq = true
  | _ => True

/-- Stacks answer ENQs in software, and are polled when due only once everyone has heard what
    they sent. -/
def Orderly (s : StackCable ι) (a : CableAct ι) : Prop :=
  Cable.Punctual stackStation s a ∧ AutoAcks a

instance [Fintype ι] (s : StackCable ι) (a : CableAct ι) : Decidable (Orderly s a) := by
  unfold Orderly Cable.Punctual AutoAcks Cable.Settled
  cases a <;> infer_instance

/-! ## Probes answered and numbers claimed -/

/-- In this step the stack of `h`, which holds `n`, hears another stack's probe for `n`. -/
def HearsProbe (s : StackCable ι) (a : CableAct ι) (h : ι) (n : UInt8) (x : Stack) : Prop :=
  (∃ k, Cable.Hears s a k h (Stack.enqFrame n)) ∧ s.station h = some x ∧ x.node = some n

/-- A probe for a held number is answered with an ACK. -/
def AnswersProbe (s : StackCable ι) (a : CableAct ι) : Prop :=
  ∀ h n x, HearsProbe s a h n x →
    ∃ x', (Cable.step stackStation s a).station h = some x' ∧
      x'.outbox = x.outbox ++ [Stack.ackFrame n]

/-- A stack that does not hold `n` and has not started to probe for it. -/
def Fresh (n : UInt8) (o : Option Stack) : Prop :=
  ∀ y ∈ o, y.node ≠ some n ∧ ∀ a ∈ y.acquire, a.candidate = n → a.probesSent = 0

/-- A stack that starts probing for a number that another one holds never claims it. -/
def NeverClaimedTwice (as : List (CableAct ι)) : Prop :=
  ∀ before after : List (CableAct ι), as = before ++ after →
    ∀ h k n x, h ≠ k → (cableRun before).station h = some x → x.node = some n →
      Fresh n ((cableRun before).station k) →
      ∀ y, (cableRun as).station k = some y → y.node ≠ some n

/-- No probe for a held number reaches its holder. -/
def NoProbeHeard (s : StackCable ι) (a : CableAct ι) : Prop := ∀ h n x, ¬ HearsProbe s a h n x

/-! ## A probe is dropped by the number's holder -/

theorem hears_probe {x : Stack} {n : UInt8} (hx : x.node = some n) (now : Micros) :
    x.handleFrame (Stack.enqFrame n).toBytes now = x := by
  have hparse : LlapPacket.parse (Stack.enqFrame n).toBytes = .ok ⟨n, n, .enquiry⟩ := rfl
  have hecho : some n = x.node ∧ LlapType.enquiry ≠ .acknowledge := ⟨hx.symm, by decide⟩
  simp only [Stack.handleFrame, hparse]
  exact if_pos hecho

/-- **A probe for a held number is never answered by its holder.** -/
theorem not_answersProbe {s : StackCable ι} {a : CableAct ι} {h : ι} {n : UInt8} {x : Stack}
    (hp : HearsProbe s a h n x) : ¬ AnswersProbe s a := by
  intro hans
  obtain ⟨⟨k, hears⟩, hx, hn⟩ := hp
  obtain ⟨x', hx', hout⟩ := hans h n x ⟨⟨k, hears⟩, hx, hn⟩
  rw [hears.station hx] at hx'
  rw [show stackStation.recv x (Stack.enqFrame n) s.now = x from hears_probe hn s.now] at hx'
  obtain rfl := Option.some.inj hx'
  have hlen := congrArg List.length hout
  rw [List.length_append, List.length_singleton] at hlen
  omega

/-! ## The acquisition of one stack -/

/-- A stack holds a number or probes for one, in bursts of the default length. -/
structure Stack.Ok (x : Stack) : Prop where
  settled : x.node ≠ none → x.acquire = none
  burst : ∀ a ∈ x.acquire, 0 < a.probesPerCandidate

namespace Stack

theorem Ok.new (cfg : StackConfig) (now : Micros) : Ok (Stack.new cfg now) where
  settled := fun h => absurd rfl h
  burst := by
    intro a ha
    obtain rfl := Option.some.inj ha
    exact Nat.succ_pos 7

theorem Ok.above {x x' : Stack} (h : x.Ok) (ha : Above x x') : x'.Ok where
  settled := by
    rw [ha.node, ha.acquire]
    exact h.settled
  burst := by
    rw [ha.acquire]
    exact h.burst

theorem Ok.poll {x : Stack} (h : x.Ok) (now : Micros) : (x.poll now).Ok := by
  have hcases := x.poll_cases now
  generalize x.poll now = x' at hcases ⊢
  cases hcases with
  | idle hd => exact h
  | @probe a ha hd hs =>
    constructor
    · intro hnode
      have hnone := h.settled hnode
      rw [ha] at hnone
      cases hnone
    · intro b hb
      obtain rfl := Option.some.inj hb
      exact h.burst a ha
  | claim ha hd hs => exact ⟨fun _ => rfl, fun b hb => nomatch hb⟩

theorem onAck_burst (a : Acquisition) (src : UInt8) (now : Micros) :
    (a.onAck src now).probesPerCandidate = a.probesPerCandidate := by
  unfold Acquisition.onAck
  split <;> rfl

theorem Ok.handleFrame {x : Stack} (h : x.Ok) (data : Bytes) (now : Micros) :
    (x.handleFrame data now).Ok := by
  have hcases := x.handleFrame_cases data now
  generalize x.handleFrame data now = x' at hcases ⊢
  cases hcases with
  | above ha => exact h.above ha
  | @ack a src ha =>
    constructor
    · intro hnode
      have hnone := h.settled hnode
      rw [ha] at hnone
      cases hnone
    · intro b hb
      obtain rfl := Option.some.inj hb
      rw [onAck_burst]
      exact h.burst a ha
  | defend hn hsrc hp => exact ⟨h.settled, h.burst⟩

theorem above_pollTransmit_fields (x : Stack) :
    x.pollTransmit.2.node = x.node ∧ x.pollTransmit.2.acquire = x.acquire := by
  unfold pollTransmit
  split <;> exact ⟨rfl, rfl⟩

end Stack

omit [DecidableEq ι] in
theorem ok_moved {s : StackCable ι} {a : CableAct ι} {i : ι} {o o' : Option Stack}
    (hm : Cable.Moved stackStation s a i o o') (h : ∀ x ∈ o, x.Ok) : ∀ x ∈ o', x.Ok := by
  cases hm with
  | same => exact h
  | start ha =>
    intro x hx
    obtain rfl := Option.some.inj hx
    exact Stack.Ok.new _ _
  | call x c =>
    intro x' hx'
    obtain rfl := Option.some.inj hx'
    exact (h x rfl).above (x.above_call c)
  | @poll x ha hx =>
    intro x' hx'
    obtain rfl := Option.some.inj hx'
    exact (h x rfl).poll _
  | transmit x =>
    intro x' hx'
    obtain rfl := Option.some.inj hx'
    obtain ⟨hnode, hacq⟩ := x.above_pollTransmit_fields
    refine ⟨fun hne => ?_, fun b hb => ?_⟩
    · exact hacq.trans ((h x rfl).settled fun hnone => hne (hnode.trans hnone))
    · exact (h x rfl).burst b (hacq ▸ hb)
  | recv x hears =>
    intro x' hx'
    obtain rfl := Option.some.inj hx'
    exact (h x rfl).handleFrame (OutFrame.toBytes _) s.now

omit [DecidableEq ι] in
theorem node_moved {s : StackCable ι} {a : CableAct ι} {i : ι} {o o' : Option Stack} {n : UInt8}
    (hm : Cable.Moved stackStation s a i o o') (hok : ∀ x ∈ o, x.Ok)
    (h : ∃ x, o = some x ∧ x.node = some n) : ∃ x, o' = some x ∧ x.node = some n := by
  obtain ⟨x, rfl, hn⟩ := h
  cases hm with
  | same => exact ⟨x, rfl, hn⟩
  | call _ c => exact ⟨_, rfl, (x.above_call c).node.trans hn⟩
  | poll ha hx =>
    have hnone : x.acquire = none := (hok x rfl).settled (by rw [hn]; simp)
    refine ⟨_, rfl, ?_⟩
    have hcases := x.poll_cases s.now
    show (x.poll s.now).node = some n
    generalize x.poll s.now = x' at hcases ⊢
    cases hcases with
    | idle hd => exact hn
    | probe ha' => rw [hnone] at ha'; cases ha'
    | claim ha' => rw [hnone] at ha'; cases ha'
  | transmit _ => exact ⟨_, rfl, x.above_pollTransmit_fields.1.trans hn⟩
  | recv _ hears => exact ⟨_, rfl, (x.handleFrame_node _ _).trans hn⟩

/-! ## What keeps a number from being claimed twice -/

/-- The stack does not hold `n`, and if it has sent a probe for it in its present burst then
    `A`. -/
structure Stack.Probes (n : UInt8) (A : Prop) (y : Stack) : Prop where
  node : y.node ≠ some n
  probing : ∀ q ∈ y.acquire, q.candidate = n → q.probesSent ≠ 0 → A

namespace Stack

variable {n : UInt8} {A : Prop} {y y' : Stack}

theorem Probes.mono {B : Prop} (h : y.Probes n A) (hAB : A → B) : y.Probes n B :=
  ⟨h.node, fun q hq hc hs => hAB (h.probing q hq hc hs)⟩

theorem Probes.of_eq (h : y.Probes n A) (hnode : y'.node = y.node)
    (hacquire : y'.acquire = y.acquire) : y'.Probes n A where
  node := hnode ▸ h.node
  probing := hacquire ▸ h.probing

theorem Probes.new (cfg : StackConfig) (now : Micros) : (Stack.new cfg now).Probes n A where
  node := by
    intro h
    cases h
  probing := by
    intro q hq hc hs
    obtain rfl := Option.some.inj hq
    exact absurd rfl hs

/-- An ACK leaves the burst alone or starts it again. -/
theorem Probes.handleFrame (h : y.Probes n A) (data : Bytes) (now : Micros) :
    (y.handleFrame data now).Probes n A := by
  have hcases := y.handleFrame_cases data now
  generalize y.handleFrame data now = y' at hcases ⊢
  cases hcases with
  | above ha => exact h.of_eq ha.node ha.acquire
  | @ack a src ha =>
    refine ⟨h.node, ?_⟩
    intro q hq hc hs
    obtain rfl := Option.some.inj hq
    rcases a.onAck_cases src now with hsame | hzero
    · rw [hsame] at hc hs
      exact h.probing a ha hc hs
    · exact absurd hzero hs
  | defend hn hsrc hp => exact h.of_eq rfl rfl

theorem Probes.poll (h : y.Probes n A) (now : Micros)
    (hclaim : ∀ q ∈ y.acquire, q.due now = true → q.probesPerCandidate ≤ q.probesSent →
      q.candidate ≠ n)
    (hsent : enqFrame n ∈ (y.poll now).outbox → A) : (y.poll now).Probes n A := by
  have hcases := y.poll_cases now
  generalize y.poll now = y' at hcases hsent ⊢
  cases hcases with
  | idle hd => exact h
  | @probe a ha hd hs =>
    refine ⟨h.node, ?_⟩
    intro q hq hc _
    obtain rfl := Option.some.inj hq
    subst hc
    exact hsent (List.mem_append_right _ List.mem_cons_self)
  | @claim a ha hd hs =>
    constructor
    · intro hn
      exact hclaim a ha hd hs (Option.some.inj hn)
    · intro q hq
      cases hq

end Stack

/-- Station `h` holds `n`, `k` does not, and a probe for `n` of its present burst is one that `h`
    has still to hear. -/
structure Guarded (h k : ι) (n : UInt8) (s : StackCable ι) : Prop where
  ok : ∀ i, ∀ x ∈ s.station i, x.Ok
  holder : ∃ x, s.station h = some x ∧ x.node = some n
  rival : ∀ y ∈ s.station k,
    y.Probes n (Cable.Awaits stackStation s k h (Stack.enqFrame n))

theorem awaits_of_unheard {s : StackCable ι} {a : CableAct ι} {h k : ι} {n : UInt8}
    (hhk : h ≠ k) (hholder : ∃ x, s.station h = some x ∧ x.node = some n)
    (hquiet : NoProbeHeard s a)
    (haw : Cable.Awaits stackStation s k h (Stack.enqFrame n)) :
    Cable.Awaits stackStation (Cable.step stackStation s a) k h (Stack.enqFrame n) := by
  obtain ⟨x, hx, hn⟩ := hholder
  have hstarted : (s.station h).isSome = true := by rw [hx]; rfl
  rcases Cable.awaits_step a hhk hstarted haw with hstill | hears
  · exact hstill
  · exact absurd ⟨⟨k, hears⟩, hx, hn⟩ (hquiet h n x)

omit [DecidableEq ι] in
theorem Guarded.not_claims {s : StackCable ι} {h k : ι} {n : UInt8} {x : Stack}
    (hg : Guarded h k n s) (hord : Orderly s (.poll k)) (hx : s.station k = some x) :
    ∀ q ∈ x.acquire, q.due s.now = true → q.probesPerCandidate ≤ q.probesSent →
      q.candidate ≠ n := by
  intro q hq hdue hfull hcand
  have hdue' : stackStation.due x s.now = true := by
    show x.due s.now = true
    rw [Option.mem_def] at hq
    simp only [Stack.due, hq, hdue]
  have hsettled := hord.1 x hx hdue'
  have hburst := (hg.ok k x hx).burst q hq
  have hne : q.probesSent ≠ 0 := by omega
  exact hsettled.not_awaits h _ ((hg.rival x hx).probing q hq hcand hne)

theorem guarded_step {s : StackCable ι} {a : CableAct ι} {h k : ι} {n : UInt8} (hhk : h ≠ k)
    (hg : Guarded h k n s) (hord : Orderly s a) (hquiet : NoProbeHeard s a) :
    Guarded h k n (Cable.step stackStation s a) := by
  refine ⟨fun i => ok_moved (Cable.step_moved s a i) (hg.ok i),
    node_moved (Cable.step_moved s a h) (hg.ok h) hg.holder, ?_⟩
  have hmove := Cable.step_moved (P := stackStation) s a k
  have hrival : ∀ y ∈ s.station k, y.Probes n
      (Cable.Awaits stackStation (Cable.step stackStation s a) k h (Stack.enqFrame n)) :=
    fun y hy => (hg.rival y hy).mono (awaits_of_unheard hhk hg.holder hquiet)
  have hclaim := fun x hx (ha : a = .poll k) => hg.not_claims (ha ▸ hord) (x := x) hx
  -- A probe sent in this very step is in the outbox of `k`.
  have hout : ∀ y, (Cable.step stackStation s a).station k = some y →
      Stack.enqFrame n ∈ y.outbox →
      Cable.Awaits stackStation (Cable.step stackStation s a) k h (Stack.enqFrame n) :=
    fun y hy hf => Or.inl ⟨y, hy, hf⟩
  generalize Cable.Awaits stackStation (Cable.step stackStation s a) k h (Stack.enqFrame n) = A
    at hrival hout ⊢
  generalize (Cable.step stackStation s a).station k = o' at hmove hout ⊢
  generalize s.station k = o at hmove hrival hclaim
  intro y' hy'
  obtain rfl := hy'
  cases hmove with
  | same => exact hrival y' rfl
  | start ha => exact Stack.Probes.new _ _
  | call x c => exact (hrival x rfl).of_eq (x.above_call c).node (x.above_call c).acquire
  | @poll x ha hx => exact (hrival x rfl).poll s.now (hclaim x rfl ha) (hout _ rfl)
  | transmit x =>
    obtain ⟨hnode, hacq⟩ := x.above_pollTransmit_fields
    exact (hrival x rfl).of_eq hnode hacq
  | recv x hears => exact (hrival x rfl).handleFrame (OutFrame.toBytes _) s.now

/-! ## Whole runs -/

/-- The condition along a run from nothing. -/
abbrev AlongCable (ok : StackCable ι → CableAct ι → Prop) (as : List (CableAct ι)) : Prop :=
  Along (Cable.step stackStation) ok .empty as

theorem cableRun_ok (as : List (CableAct ι)) : ∀ i, ∀ x ∈ (cableRun as).station i, x.Ok := by
  have hstep : ∀ (s : StackCable ι) (a : CableAct ι), (∀ i, ∀ x ∈ s.station i, x.Ok) → True →
      ∀ i, ∀ x ∈ (Cable.step stackStation s a).station i, x.Ok :=
    fun s a h _ i => ok_moved (Cable.step_moved s a i) (h i)
  have hstart : ∀ i, ∀ x ∈ (Cable.empty : StackCable ι).station i, x.Ok := by
    intro i x hx
    cases hx
  exact inv_run _ hstep hstart (along_true _ as)

/-- **In a run in which no holder hears a probe for its number, none is claimed twice.** -/
theorem neverClaimedTwice_of_quiet {as : List (CableAct ι)} (hord : AlongCable Orderly as)
    (hquiet : AlongCable NoProbeHeard as) : NeverClaimedTwice as := by
  intro before after has h k n x hhk hx hn hfresh y hy
  subst has
  have hstart : Guarded h k n (cableRun before) := by
    refine ⟨cableRun_ok before, ⟨x, hx, hn⟩, ?_⟩
    intro z hz
    obtain ⟨hnode, hburst⟩ := hfresh z hz
    exact ⟨hnode, fun q hq hc hs => absurd (hburst q hq hc) hs⟩
  obtain ⟨-, hord'⟩ := (Along.append _).1 hord
  obtain ⟨-, hquiet'⟩ := (Along.append _).1 hquiet
  have hend : Guarded h k n (run (Cable.step stackStation) (cableRun before) after) :=
    inv_run _ (fun s a hg hok => guarded_step hhk hg hok.1 hok.2) hstart
      (Along.and _ hord' hquiet')
  rw [cableRun, run_append] at hy
  exact (hend.rival y hy).node

open LocalTalk in
/-- **Held numbers are defended in exactly the runs in which no probe for a held number is heard by
    its holder**, for any number of stacks. The firmware's receive engine answers a probe for its
    own node in analyzer mode alone. -/
theorem node_defended_iff (as : List (CableAct ι)) (hord : AlongCable Orderly as) :
    (AlongCable AnswersProbe as ∧ NeverClaimedTwice as ↔ AlongCable NoProbeHeard as) ∧
    ∀ (e : RxEngine) (analyzer : Bool) (now : Micros), e.ourNode ≠ 0 →
      e.pending ≠ some ⟨composeAck e.ourNode, now⟩ →
      ((e.frameEnd analyzer now (control e.ourNode e.ourNode ENQ)).pending =
        some ⟨composeAck e.ourNode, now⟩ ↔ analyzer = true) := by
  refine ⟨⟨?_, ?_⟩, ?_⟩
  · rintro ⟨hans, -⟩
    refine Along.mono _ ?_ hans
    intro s a hok h n x hp
    exact not_answersProbe hp hok
  · intro hquiet
    refine ⟨Along.mono _ ?_ hquiet, neverClaimedTwice_of_quiet hord hquiet⟩
    intro s a hok h n x hp
    exact absurd hp (hok h n x)
  · intro e analyzer now hnode hpending
    rw [e.frameEnd_probe analyzer now hnode]
    cases analyzer with
    | true => exact ⟨fun _ => rfl, fun _ => if_pos rfl⟩
    | false =>
      constructor
      · intro h
        exact absurd h hpending
      · intro h
        cases h

/-! ## Two stacks with one number -/

/-- One probe of stack `i`, heard by the other if it has started, before the next deadline. -/
def probeOnce (i : Bool) (n : ℕ) : List (CableAct Bool) :=
  [.poll i, .transmit i, .deliver n (!i), .tick 200]

/-- Stack `i` starts, sends its burst and claims. -/
def acquireRun (i : Bool) (n : ℕ) : List (CableAct Bool) :=
  .start i ⟨.server, 1, true⟩ ::
    ((List.range 8).flatMap fun j => probeOnce i (n + j)) ++ [.poll i]

/-- Two stacks that draw the same candidate, one after the other. -/
def twiceRun : List (CableAct Bool) := acquireRun false 0 ++ acquireRun true 8

/-- A receive engine that answers for `node` and has seen nothing. -/
def idleEngine (node : UInt8) : LocalTalk.RxEngine where
  ourNode := node
  framesSeen := 0
  pending := none
  counters := ⟨0, 0, 0, 0, 0, 0, 0, [], 0, []⟩
  rxSlots := []

open LocalTalk in
/-- The first stack hears the probes of the second for its number. -/
theorem node_defended_iff_twiceRun :
    (AlongCable AnswersProbe twiceRun ∧ NeverClaimedTwice twiceRun ↔
      AlongCable NoProbeHeard twiceRun) ∧
    (((idleEngine 241).frameEnd true 0 (control 241 241 ENQ)).pending =
      some ⟨composeAck 241, 0⟩ ↔ true = true) :=
  have h := node_defended_iff twiceRun (by decide +kernel)
  ⟨h.1, h.2 (idleEngine 241) true 0 (by decide) (by decide)⟩

open LocalTalk in
/-- Both stacks get one number, and the receive engine leaves a probe for its own node
    unanswered. -/
theorem twiceRun_claims_twice :
    AlongCable Orderly twiceRun ∧ ¬ NeverClaimedTwice twiceRun ∧
      ((idleEngine 241).frameEnd false 0 (control 241 241 ENQ)).pending = none := by
  refine ⟨by decide +kernel, ?_, by decide⟩
  intro hnever
  have hholder : ((cableRun (acquireRun false 0)).station false).map (·.node) =
      some (some 241) := by decide +kernel
  have hfresh : ((cableRun (acquireRun false 0)).station true).isNone = true := by
    decide +kernel
  have hclaimed : ((cableRun twiceRun).station true).map (·.node) = some (some 241) := by
    decide +kernel
  obtain ⟨x, hx, hn⟩ := Option.map_eq_some_iff.1 hholder
  obtain ⟨y, hy, hyn⟩ := Option.map_eq_some_iff.1 hclaimed
  refine hnever (acquireRun false 0) (acquireRun true 8) rfl false true 241 x (by decide) hx hn
    ?_ y hy hyn
  intro z hz
  rw [Option.isNone_iff_eq_none.1 hfresh] at hz
  cases hz

end TailTalk
