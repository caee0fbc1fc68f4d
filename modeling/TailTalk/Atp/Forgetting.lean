/-
  When a responder forgets a transaction.

  It is among the requests in progress until it is answered, and from then on
  its answer is in the cache.  Its TRel and its expiry clear the cache only, so
  a request never answered stays in progress, and another one with its number
  is taken for a copy of it.
-/
import TailTalk.Atp.ExactlyOnce

namespace TailTalk

open Lib

/-! ## What the two queues remember -/

/-- The memory of a transaction changed as an input of its kind can change it, evictions included.
    -/
def Remembers (t t' : Once (List Bytes)) : Option (Once.Act (List Bytes)) → Prop
  | some .ask => t'.answers = t.answers
  | some (.answer _ expires) =>
    t'.answers ≠ [] ∧ ∀ a ∈ t'.answers, a ∈ t.answers ∨ a.2 = expires
  | some .release => t'.answers = [] ∧ t'.opened = t.opened
  | some (.expire now) => t' = t.step (.expire now)
  | none => t'.answers ⊆ t.answers ∧ (t'.opened = true → t.opened = true)

namespace AtpHost

section
variable {h h' : AtpHost} {k : AtpKey}

/-- An exactly-once request of the transaction would be delivered now. -/
def Forgets (h : AtpHost) (k : AtpKey) : Prop :=
  ∀ payload packet, AtpPacket.parse payload = .ok packet → packet.function = .request →
    packet.xo = true → packet.tid = k.2 →
    (h.ep.handleDatagram k.1 payload).events =
      h.ep.events ++ [AtpEndpoint.requestEvent k.1 packet (payload.drop AtpPacket.HEADER_LEN)]

theorem forgets_iff : h.Forgets k ↔ (h.once k).Delivers := by
  obtain ⟨src, tid⟩ := k
  rw [delivers_once]
  constructor
  · intro hforgets
    have hparse := AtpPacket.parse_toBytes ⟨.request, true, false, false, 0, tid, .replicate 4 0⟩ []
    have hevents := hforgets _ _ hparse rfl rfl rfl
    simp only [AtpEndpoint.handleDatagram, hparse, AtpPacket.drop_toBytes] at hevents
    have hask := asked_handleRequest h src ⟨.request, true, false, false, 0, tid, .replicate 4 0⟩ []
    generalize h.ep.handleRequest src ⟨.request, true, false, false, 0, tid, .replicate 4 0⟩ [] =
      ep at hask hevents
    cases hask with
    | replayed c hc => simp [AtpEndpoint.push] at hevents
    | inProgress hxo hc hp => simp at hevents
    | delivered hxo hc hp => exact ⟨hc, hp⟩
    | atLeastOnce hxo hc => cases hxo
  · rintro ⟨hc, hp⟩ payload packet hparse hf hxo rfl
    have hany : ¬ (h.ep.inProgress.any fun p => p.1 = src ∧ p.2 = packet.tid) = true := by
      intro hany
      obtain ⟨p, hmem, heq⟩ := List.any_eq_true.1 hany
      exact hp ((Prod.ext_iff.2 (of_decide_eq_true heq) : p = (src, packet.tid)) ▸ hmem)
    simp only [AtpEndpoint.handleDatagram, hparse, hf, AtpEndpoint.handleRequest, hc, hxo, if_true,
      if_neg hany]
    rfl

theorem remembers_same (ho : h'.once k = h.once k) : Remembers (h.once k) (h'.once k) none :=
  ho ▸ ⟨List.Subset.refl _, id⟩

theorem remembers_answer {a : AtpAnswer} {now : Micros}
    (hep : h'.ep = h.ep.respondPackets a.source a.tid a.chunks now) :
    Remembers (h.once k) (h'.once k)
      (if a.key = k then some (.answer a.packets (now + RELEASE_TIMEOUT)) else none) := by
  have hkept : (if h.ep.replyCache.length = REPLY_CACHE_LEN then h.ep.replyCache.tail
      else h.ep.replyCache) ⊆ h.ep.replyCache := by
    split_ifs
    · exact fun c hc => List.mem_of_mem_tail hc
    · exact List.Subset.refl _
  generalize hcache : (if h.ep.replyCache.length = REPLY_CACHE_LEN then h.ep.replyCache.tail
      else h.ep.replyCache) = kept at hkept
  have hanswers : (h'.once k).answers = ((kept ++ [(⟨a.source, a.tid,
      AtpEndpoint.frame a.tid a.chunks, now + RELEASE_TIMEOUT⟩ : CachedResponse)]).filter
        fun c => c.source = k.1 ∧ c.tid = k.2).map fun c => (c.packets, c.expiresAt) := by
    simp only [once, hep, AtpEndpoint.respondPackets, hcache]
  split_ifs with hk
  · subst hk
    refine ⟨?_, ?_⟩
    · rw [hanswers]
      simp [AtpAnswer.key]
    · rw [hanswers]
      intro r hr
      obtain ⟨c, hc, rfl⟩ := List.mem_map.1 hr
      obtain ⟨hmem, hkey⟩ := List.mem_filter.1 hc
      rcases List.mem_append.1 hmem with hmem | hmem
      · exact Or.inl (List.mem_map.2 ⟨c, List.mem_filter.2 ⟨hkept hmem, hkey⟩, rfl⟩)
      · rw [List.mem_singleton.1 hmem]
        exact Or.inr rfl
  · refine ⟨?_, ?_⟩
    · rw [hanswers]
      intro r hr
      obtain ⟨c, hc, rfl⟩ := List.mem_map.1 hr
      obtain ⟨hmem, hkey⟩ := List.mem_filter.1 hc
      rcases List.mem_append.1 hmem with hmem | hmem
      · exact List.mem_map.2 ⟨c, List.mem_filter.2 ⟨hkept hmem, hkey⟩, rfl⟩
      · rw [List.mem_singleton.1 hmem, decide_eq_true_eq] at hkey
        exact absurd (Prod.ext hkey.1 hkey.2) hk
    · simp only [once, hep, AtpEndpoint.respondPackets, List.contains_iff_mem, List.mem_filter]
      exact fun hmem => hmem.1

theorem remembers_ask {src : ServiceAddress} {tid : UInt16} {event : AtpEvent}
    (hep : h'.ep = (h.ep.remember src tid).emit event) :
    Remembers (h.once k) (h'.once k) (if (src, tid) = k then some .ask else none) := by
  split_ifs with hk
  · simp only [Remembers, once, hep]
    rfl
  · refine ⟨?_, ?_⟩
    · simp only [once, hep]
      exact List.Subset.refl _
    · simp only [once, hep, AtpEndpoint.emit, AtpEndpoint.remember, List.contains_iff_mem,
        List.mem_append, List.mem_singleton]
      rintro (hmem | rfl)
      · split_ifs at hmem
        · exact List.mem_of_mem_tail hmem
        · exact hmem
      · exact absurd rfl hk

theorem remembers_call (c : AtpCall) :
    Remembers (h.once k) ((h.call c).once k) (onceAct k (.call c)) := by
  cases c with
  | request dest userBytes data bitmap now =>
    exact remembers_same ((sameResponder_call_request h dest userBytes data bitmap now).1.once k)
  | sendAlo dest userBytes =>
    exact remembers_same ((sameResponder_call_sendAlo h dest userBytes).1.once k)
  | respond source tid userBytes data chunkSize now =>
    rw [onceAct_answer rfl]
    exact remembers_answer rfl
  | respondPackets source tid chunks now =>
    rw [onceAct_answer rfl]
    exact remembers_answer rfl
  | poll now => exact once_poll rfl
  | pollEvent => exact remembers_same (once_congr rfl rfl)

theorem remembers_request (src : ServiceAddress) (packet : AtpPacket) (data : Bytes) :
    Remembers (h.once k)
      (({ h with ep := h.ep.handleRequest src packet data } : AtpHost).once k)
      (if (src, packet.tid) = k then if packet.xo then some .ask else none else none) := by
  have hask := asked_handleRequest h src packet data
  generalize h.ep.handleRequest src packet data = ep at hask ⊢
  have hsame : ∀ act : Option (Once.Act (List Bytes)), act = some .ask ∨ act = none →
      ({ h with ep } : AtpHost).once k = h.once k →
      Remembers (h.once k) (({ h with ep } : AtpHost).once k) act := by
    rintro act (rfl | rfl) ho
    · exact congrArg Once.answers ho
    · exact remembers_same ho
  have hact : (if (src, packet.tid) = k then if packet.xo then some Once.Act.ask else none
      else none : Option (Once.Act (List Bytes))) = some .ask ∨
      (if (src, packet.tid) = k then if packet.xo then some Once.Act.ask else none
      else none : Option (Once.Act (List Bytes))) = none := by
    split_ifs
    · exact Or.inl rfl
    · exact Or.inr rfl
    · exact Or.inr rfl
  cases hask with
  | replayed c hc => exact hsame _ hact (once_congr rfl rfl)
  | inProgress hxo hc hpend => exact hsame _ hact (once_congr rfl rfl)
  | delivered hxo hc hpend =>
    rw [if_pos hxo]
    exact remembers_ask rfl
  | atLeastOnce hxo hc => exact hsame _ hact (once_congr rfl rfl)

theorem remembers_release (src : ServiceAddress) (tid : UInt16) :
    Remembers (h.once k) (({ h with ep := h.ep.handleRelease src tid } : AtpHost).once k)
      (if (src, tid) = k then some .release else none) := by
  have ho : ({ h with ep := h.ep.handleRelease src tid } : AtpHost).once k =
      if (src, tid) = k then (h.once k).step .release else h.once k := once_release rfl
  split_ifs at ho ⊢ with hk
  · rw [ho]
    exact ⟨rfl, rfl⟩
  · exact remembers_same ho

/-- **What an input does to the memory of a transaction.** -/
theorem remembers_step (x : AtpInput) :
    Remembers (h.once k) ((h.step x).once k) (onceAct k x) := by
  cases x with
  | call c => exact remembers_call c
  | recv src payload now =>
    change Remembers (h.once k) ((h.recv src payload now).once k) _
    rcases hp : AtpPacket.parse payload with err | packet
    · obtain ⟨hsame, hact⟩ := recv_malformed h src now hp k
      rw [hsame, hact]
      exact remembers_same rfl
    cases hf : packet.function with
    | request =>
      rw [recv_request hp hf, onceAct_request hp hf]
      exact remembers_request src packet _
    | response =>
      have hs := (sameResponder_handleResponse h.ep src packet
        (payload.drop AtpPacket.HEADER_LEN)).1
      rw [onceAct_response hp hf]
      simp only [recv, AtpEndpoint.handleDatagram, hp, hf]
      exact remembers_same (hs.once k)
    | release =>
      rw [onceAct_release hp hf]
      simp only [recv, AtpEndpoint.handleDatagram, hp, hf]
      exact remembers_release src packet.tid
  | transmit => exact remembers_same (once_congr rfl rfl)

end

end AtpHost

/-! ## Phases -/

/-- Where a transaction is: its responder never heard of it, or it is live
    until its expiry, or it has ended. -/
inductive Phase where
  | fresh
  | live (expiry : Micros)
  | ended
deriving DecidableEq

/-- When a datagram arrives. -/
def arrivalTime : AtpInput → Micros
  | .recv _ _ now => now
  | _ => 0

/-- A request or an answer makes a transaction live for the release time; its TRel ends it, and a
    poll past its expiry. -/
def Phase.next (k : AtpKey) (x : AtpInput) (phase : Phase) : Phase :=
  match AtpHost.onceAct k x, phase with
  | some .ask, .fresh | some .ask, .ended => .live (arrivalTime x + RELEASE_TIMEOUT)
  | some (.answer _ expires), .fresh => .live expires
  | some (.answer _ expires), .live expiry => .live (max expiry expires)
  | some .release, _ => .ended
  | some (.expire now), .live expiry => if expiry ≤ now then .ended else .live expiry
  | _, phase => phase

/-- The answers that a transaction in a phase may have: those of a live one expire when it
    does. -/
def Phase.Dates : Phase → List (List Bytes × Micros) → Prop
  | .fresh, answers => answers = []
  | .live expiry, answers => ∀ a ∈ answers, a.2 ≤ expiry
  | .ended, _ => True

theorem Phase.Dates.mono {phase : Phase} {answers answers' : List (List Bytes × Micros)}
    (h : phase.Dates answers) (hsub : answers' ⊆ answers) : phase.Dates answers' := by
  cases phase with
  | fresh => exact List.subset_nil.1 (h ▸ hsub)
  | live expiry => exact fun a ha => h a (hsub ha)
  | ended => trivial

/-- A host, and the phases of the transactions it is responder of. -/
structure WatchedHost where
  host : AtpHost
  phase : AtpKey → Phase

namespace WatchedHost

/-- A host that has seen no transaction. -/
def new (localSocket : UInt8) : WatchedHost := ⟨AtpHost.new localSocket, fun _ => .fresh⟩

/-- One input; every transaction goes on to its next phase. -/
def step (w : WatchedHost) (x : AtpInput) : WatchedHost :=
  ⟨w.host.step x, fun k => (w.phase k).next k x⟩

/-- Whatever has ended is forgotten. -/
def ForgetsEnded (w : WatchedHost) : Prop :=
  ∀ k, w.phase k = .ended → w.host.Forgets k

/-- A transaction that ends, or has ended, is not in progress, and is not
    answered. -/
def Tidy (w : WatchedHost) (x : AtpInput) : Prop :=
  ∀ k, (w.phase k).next k x = .ended →
    k ∉ w.host.ep.inProgress ∧
      ∀ packets expires, AtpHost.onceAct k x ≠ some (.answer packets expires)

/-- The answers kept are as old as the phases say. -/
def Dated (w : WatchedHost) : Prop := ∀ k, (w.phase k).Dates (w.host.once k).answers

variable {w : WatchedHost}

theorem dated_step (hd : w.Dated) (hf : w.ForgetsEnded) (x : AtpInput) : (w.step x).Dated := by
  intro k
  have hk := hd k
  have hmem := AtpHost.remembers_step (h := w.host) (k := k) x
  have hended : w.phase k = .ended → (w.host.once k).answers = [] := fun h =>
    (AtpHost.forgets_iff.1 (hf k h)).1
  change ((w.phase k).next k x).Dates ((w.host.step x).once k).answers
  unfold Phase.next
  rcases hact : AtpHost.onceAct k x with _ | act
  · rw [hact] at hmem
    exact hk.mono hmem.1
  rw [hact] at hmem
  cases act with
  | ask =>
    have hsame : ((w.host.step x).once k).answers = (w.host.once k).answers := hmem
    rw [hsame]
    cases hphase : w.phase k with
    | fresh =>
      rw [hphase] at hk
      rw [show (w.host.once k).answers = [] from hk]
      exact nofun
    | live expiry =>
      rw [hphase] at hk
      exact hk
    | ended =>
      rw [hended hphase]
      exact nofun
  | answer packets expires =>
    obtain ⟨-, hin⟩ := hmem
    cases hphase : w.phase k with
    | fresh =>
      rw [hphase] at hk
      intro a ha
      rcases hin a ha with hold | hnew
      · rw [show (w.host.once k).answers = [] from hk] at hold
        cases hold
      · exact hnew.le
    | live expiry =>
      rw [hphase] at hk
      intro a ha
      rcases hin a ha with hold | hnew
      · exact le_max_of_le_left (hk a hold)
      · exact le_max_of_le_right hnew.le
    | ended => trivial
  | release => cases w.phase k <;> trivial
  | expire now =>
    have hstep : (w.host.step x).once k = (w.host.once k).step (.expire now) := hmem
    have hsub : ((w.host.step x).once k).answers ⊆ (w.host.once k).answers := by
      rw [hstep]
      exact fun a ha => List.mem_of_mem_filter ha
    have hkept := hk.mono hsub
    cases hphase : w.phase k with
    | fresh =>
      rw [hphase] at hkept
      exact hkept
    | live expiry =>
      rw [hphase] at hkept
      dsimp only
      split_ifs
      · trivial
      · exact hkept
    | ended => trivial

theorem opened_iff {k : AtpKey} : (w.host.once k).opened = false ↔ k ∉ w.host.ep.inProgress := by
  simp [AtpHost.once]

/-- **A step keeps what has ended forgotten exactly if it is tidy.** -/
theorem forgetsEnded_step_iff (hd : w.Dated) (hf : w.ForgetsEnded) (x : AtpInput) :
    (w.step x).ForgetsEnded ↔ w.Tidy x := by
  refine forall_congr' fun k => ?_
  have hk := hd k
  have hmem := AtpHost.remembers_step (h := w.host) (k := k) x
  change ((w.phase k).next k x = .ended → (w.host.step x).Forgets k) ↔ _
  rw [AtpHost.forgets_iff, ← opened_iff, Once.Delivers]
  refine forall_congr' fun hnext => ?_
  unfold Phase.next at hnext
  have hended : w.phase k = .ended →
      (w.host.once k).answers = [] ∧ (w.host.once k).opened = false := fun h =>
    AtpHost.forgets_iff.1 (hf k h)
  rcases hact : AtpHost.onceAct k x with _ | act
  · rw [hact] at hmem hnext
    obtain ⟨hsub, hopen⟩ := hmem
    obtain ⟨hnil, hclosed⟩ := hended hnext
    refine iff_of_true ⟨List.subset_nil.1 (hnil ▸ hsub), ?_⟩ ⟨hclosed, fun _ _ h => by cases h⟩
    exact Bool.eq_false_iff.2 fun h => by rw [hopen h] at hclosed; cases hclosed
  rw [hact] at hmem hnext
  cases act with
  | ask => cases hphase : w.phase k <;> rw [hphase] at hnext <;> cases hnext
  | answer packets expires =>
    -- Answered after its end, it is remembered again.
    exact iff_of_false (fun h => hmem.1 h.1) fun h => h.2 packets expires rfl
  | release =>
    obtain ⟨hnil, hopen⟩ := hmem
    rw [hopen]
    exact ⟨fun h => ⟨h.2, fun _ _ h => by cases h⟩, fun h => ⟨hnil, h.1⟩⟩
  | expire now =>
    have hstep : (w.host.step x).once k = (w.host.once k).step (.expire now) := hmem
    have hopen : ((w.host.step x).once k).opened = (w.host.once k).opened := by rw [hstep]; rfl
    have hnil : ((w.host.step x).once k).answers = [] := by
      rw [hstep]
      refine List.filter_eq_nil_iff.2 fun a ha => ?_
      cases hphase : w.phase k with
      | fresh => rw [hphase] at hnext; cases hnext
      | live expiry =>
        rw [hphase] at hnext hk
        have hle := hk a ha
        by_cases hexpiry : expiry ≤ now
        · simpa using hle.trans hexpiry
        · simp [hexpiry] at hnext
      | ended =>
        rw [(hended hphase).1] at ha
        cases ha
    rw [hopen]
    exact ⟨fun h => ⟨h.2, fun _ _ h => by cases h⟩, fun h => ⟨hnil, h.1⟩⟩

end WatchedHost

open WatchedHost in
/-- **A transaction that has ended is forgotten**: after its TRel, or a poll past its expiry, its
    next exactly-once request is delivered, exactly if no transaction ends while it is in progress
    and none is answered after its end. -/
theorem forgets_iff_tidy (localSocket : UInt8) (xs : List AtpInput) :
    (∀ ys, ys <+: xs → (run step (new localSocket) ys).ForgetsEnded) ↔
      Along step Tidy (new localSocket) xs := by
  refine along_iff step Dated (fun w x hd hf _ => dated_step hd hf x)
    (fun w x hd hf => forgetsEnded_step_iff hd hf x) ?_ ?_
  · intro k
    simp [new, AtpHost.new, AtpEndpoint.new, AtpHost.once, Phase.Dates]
  · intro k hk
    cases hk

/-- An exactly-once request, transaction 7 of node 1. -/
def askSeven (now : Micros) : AtpInput :=
  .recv ⟨0, 1, 140⟩ (AtpEndpoint.requestBytes true 0xFF 7 (.replicate 4 0) [1]) now

/-- It is released, though it was never answered, and asked again. -/
def droppedRun : List AtpInput := [askSeven 0, .recv ⟨0, 1, 140⟩ (AtpEndpoint.releaseBytes 7) 1]

/-- The transaction has ended, and its next request is not delivered. -/
theorem droppedRun_remembers :
    (run WatchedHost.step (WatchedHost.new 130) droppedRun).phase (⟨0, 1, 140⟩, 7) = .ended ∧
    (run AtpHost.step (AtpHost.new 130) droppedRun).emitted.length = 1 ∧
    ((run AtpHost.step (AtpHost.new 130) droppedRun).step (askSeven 2)).emitted.length = 1 ∧
    ¬ (run WatchedHost.step (WatchedHost.new 130) droppedRun).ForgetsEnded := by
  have hended : (run WatchedHost.step (WatchedHost.new 130) droppedRun).phase (⟨0, 1, 140⟩, 7) =
      .ended := by decide
  refine ⟨hended, by decide, by decide, fun h => ?_⟩
  have hdelivers := AtpHost.forgets_iff.1 (h _ hended)
  have hopen : ((run WatchedHost.step (WatchedHost.new 130) droppedRun).host.once
      (⟨0, 1, 140⟩, 7)).opened = true := by decide
  rw [hdelivers.2] at hopen
  cases hopen

end TailTalk
