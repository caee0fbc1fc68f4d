/-
  The timers of a PAP printer server.

  Between two calls the server is `Settled`: nothing is queued that it has not
  handled, and a pull is missing only where the sink has no room for one.

  A poll leaves no timer due, but exactly `INACTIVITY_TIMEOUT` after the client
  was last heard of, and when a tickle is due and finds every TID in use.
-/
import TailTalk.Atp.Resolution
import TailTalk.Pap.Credit
import TailTalk.Stack.Timers

namespace TailTalk

open Lib

/-! ## The ATP endpoints under the server's calls -/

namespace AtpEndpoint
variable {ep ep' : AtpEndpoint} {now : Micros} {dest : ServiceAddress} {userBytes : UserBytes}
  {data : Bytes} {bitmap : UInt8}

/-- Some TID is neither zero nor pending. -/
def TidFree (ep : AtpEndpoint) : Prop := ∃ tid : UInt16, tid ≠ 0 ∧ tid ∉ ep.pending

/-- The search looks at `fuel` numbers in a row. -/
theorem findTid_isSome_iff {pending : Std.TreeMap UInt16 PendingRequest} {fuel : ℕ}
    {tid : UInt16} : (findTid pending fuel tid).isSome ↔
      ∃ i < fuel, tid + UInt16.ofNat i ≠ 0 ∧ tid + UInt16.ofNat i ∉ pending := by
  induction fuel generalizing tid with
  | zero => simp [findTid]
  | succ fuel ih =>
    have hshift : ∀ i : ℕ, tid + 1 + UInt16.ofNat i = tid + UInt16.ofNat (i + 1) := by
      intro i
      rw [UInt16.ofNat_add, add_assoc, add_comm 1]
      rfl
    rw [findTid]
    split_ifs with hfree
    · refine iff_of_true rfl ⟨0, Nat.succ_pos _, ?_⟩
      simpa using hfree
    · rw [ih]
      constructor
      · rintro ⟨i, hi, h⟩
        rw [hshift] at h
        exact ⟨i + 1, Nat.succ_lt_succ hi, h⟩
      · rintro ⟨i, hi, h⟩
        cases i with
        | zero => exact absurd (by simpa using h) hfree
        | succ i => exact ⟨i, Nat.lt_of_succ_lt_succ hi, by rwa [hshift]⟩

/-- **The search for a TID ends exactly if one is free.** -/
theorem allocateTid_isSome_iff : ep.allocateTid.isSome ↔ ep.TidFree := by
  rw [allocateTid, Option.isSome_map, findTid_isSome_iff]
  constructor
  · rintro ⟨i, -, h⟩
    exact ⟨_, h⟩
  · rintro ⟨tid, h⟩
    refine ⟨(tid - ep.nextTid).toNat, UInt16.toNat_lt _, ?_⟩
    rwa [UInt16.ofNat_toNat, add_sub_cancel]

theorem request_isSome_iff :
    (ep.request dest userBytes data bitmap now).isSome ↔ ep.TidFree := by
  rw [request, Option.isSome_map, allocateTid_isSome_iff]

theorem sendAlo_isSome_iff : (ep.sendAlo dest userBytes).isSome ↔ ep.TidFree := by
  rw [sendAlo, Option.isSome_map, allocateTid_isSome_iff]

theorem findTid_ne_zero {pending : Std.TreeMap UInt16 PendingRequest} {fuel : ℕ}
    {tid found next : UInt16} (h : findTid pending fuel tid = some (found, next)) : found ≠ 0 := by
  induction fuel generalizing tid with
  | zero => cases h
  | succ fuel ih =>
    rw [findTid] at h
    split_ifs at h with hfree
    · obtain ⟨rfl, -⟩ := Prod.mk.inj (Option.some.inj h)
      exact hfree.1
    · exact ih h

theorem request_ne_zero {tid : UInt16}
    (h : ep.request dest userBytes data bitmap now = some (tid, ep')) : tid ≠ 0 := by
  simp only [request, allocateTid, Option.map_map, Option.map_eq_some_iff] at h
  obtain ⟨⟨t, nextTid⟩, hfound, heq⟩ := h
  obtain ⟨rfl, -⟩ := Prod.mk.inj heq
  exact findTid_ne_zero hfound

theorem zero_notMem_request {tid : UInt16} (hz : 0 ∉ ep.pending)
    (h : ep.request dest userBytes data bitmap now = some (tid, ep')) : 0 ∉ ep'.pending := by
  have hne := request_ne_zero h
  obtain ⟨nextTid, rfl⟩ := request_eq h
  simpa using ⟨hne, hz⟩

theorem zero_notMem_poll (hz : 0 ∉ ep.pending) : 0 ∉ (ep.poll now).pending := by
  intro h
  rw [Std.TreeMap.mem_iff_contains, contains_poll, Std.TreeMap.getElem?_eq_none hz] at h
  cases h

theorem mem_of_mem_handleResponse {src : ServiceAddress} {packet : AtpPacket} {tid : UInt16} :
    tid ∈ (ep.handleResponse src packet data).pending → tid ∈ ep.pending := by
  unfold handleResponse
  rcases hp : ep.pending[packet.tid]? with _ | p
  · exact id
  have hmem : packet.tid ∈ ep.pending := Std.TreeMap.isSome_getElem?_iff_mem.1 (by rw [hp]; rfl)
  dsimp only
  split_ifs
  · split <;> exact Std.TreeMap.mem_of_mem_erase
  · intro h
    rcases Std.TreeMap.mem_insert.1 h with hcmp | h
    · rwa [← Std.LawfulEqCmp.compare_eq_iff_eq.1 hcmp]
    · exact h

theorem mem_of_mem_handleDatagram {src : ServiceAddress} {payload : Bytes} {tid : UInt16} :
    tid ∈ (ep.handleDatagram src payload).pending → tid ∈ ep.pending := by
  unfold handleDatagram
  rcases AtpPacket.parse payload with err | packet
  · exact id
  dsimp only
  split
  · unfold handleRequest
    split
    · exact id
    split_ifs <;> exact id
  · exact mem_of_mem_handleResponse
  · exact id

/-- An answer is kept for a while. -/
theorem Ahead.respond (h : ep.Ahead now) (source : ServiceAddress) (tid : UInt16)
    (userBytes : UserBytes) (data : Bytes) (chunkSize : ℕ) :
    (ep.respond source tid userBytes data chunkSize now).Ahead now := by
  refine ⟨h.retry, fun c hc => ?_⟩
  simp only [AtpEndpoint.respond, respondPackets, List.mem_append, List.mem_singleton] at hc
  rcases hc with hc | rfl
  · refine h.release c ?_
    split_ifs at hc
    · exact List.mem_of_mem_tail hc
    · exact hc
  · simp [RELEASE_TIMEOUT]

theorem Ahead.request (h : ep.Ahead now) {tid : UInt16}
    (hr : ep.request dest userBytes data bitmap now = some (tid, ep')) : ep'.Ahead now := by
  obtain ⟨nextTid, rfl⟩ := request_eq hr
  refine ⟨fun k p hp => ?_, h.release⟩
  simp only [getElem?_insert_eq] at hp
  split_ifs at hp with hk
  · obtain rfl := Option.some.inj hp
    simp [newRequest, RETRY_INTERVAL]
  · exact h.retry k p hp

theorem Ahead.sendAlo (h : ep.Ahead now) (hs : ep.sendAlo dest userBytes = some ep') :
    ep'.Ahead now := by
  obtain ⟨tid, nextTid, rfl⟩ := sendAlo_eq hs
  exact ⟨h.retry, h.release⟩

end AtpEndpoint

namespace PapServer

/-! ## What the handlers leave of the endpoints -/

/-- The ATP endpoints answer requests, and no more. -/
structure Serves (now : Micros) (s s' : PapServer) : Prop where
  listenerEvents : s'.listener.events = s.listener.events
  connEvents : s'.connEp.events = s.connEp.events
  pending : s'.connEp.pending = s.connEp.pending
  credit : s'.sinkCredit = s.sinkCredit
  listener : s.listener.Ahead now → s'.listener.Ahead now
  connEp : s.connEp.Ahead now → s'.connEp.Ahead now

section
variable {s s' s'' : PapServer} {now : Micros}

/-- The endpoints are left alone. -/
theorem serves_same (hl : s'.listener = s.listener) (hc : s'.connEp = s.connEp)
    (hcredit : s'.sinkCredit = s.sinkCredit) : Serves now s s' := by
  refine ⟨?_, ?_, ?_, hcredit, ?_, ?_⟩ <;> simp [hl, hc]

theorem serves_refl (s : PapServer) : Serves now s s := serves_same rfl rfl rfl

theorem Serves.trans (h : Serves now s s') (h' : Serves now s' s'') : Serves now s s'' where
  listenerEvents := h'.listenerEvents.trans h.listenerEvents
  connEvents := h'.connEvents.trans h.connEvents
  pending := h'.pending.trans h.pending
  credit := h'.credit.trans h.credit
  listener := h'.listener ∘ h.listener
  connEp := h'.connEp ∘ h.connEp

/-- An answer on the connection socket. -/
theorem serves_respond {source : ServiceAddress} {tid : UInt16} {userBytes : UserBytes}
    {data : Bytes} {chunkSize : ℕ} (hl : s'.listener = s.listener)
    (hc : s'.connEp = s.connEp.respond source tid userBytes data chunkSize now)
    (hcredit : s'.sinkCredit = s.sinkCredit) : Serves now s s' := by
  refine ⟨by rw [hl], by rw [hc]; rfl, by rw [hc]; rfl, hcredit, by rw [hl]; exact id, ?_⟩
  rw [hc]
  intro h
  exact h.respond ..

theorem serves_respondPap (s : PapServer) (onListener : Bool) (source : ServiceAddress)
    (tid : UInt16) (pap : PapPacket) (now : Micros) :
    Serves now s (s.respondPap onListener source tid pap now) := by
  cases onListener with
  | true => exact ⟨rfl, rfl, rfl, rfl, fun h => h.respond .., id⟩
  | false => exact serves_respond rfl rfl rfl

theorem serves_answerRead (s : PapServer) (now : Micros) : Serves now s (s.answerRead now) := by
  unfold answerRead
  split
  · exact serves_refl s
  split
  · exact serves_refl s
  dsimp only
  split
  · exact serves_refl s
  · exact serves_respond rfl rfl rfl

theorem serves_listenerEvent (now : Micros) (s : PapServer) (e : AtpEvent) :
    Serves now s (handleListenerEvent now s e) := by
  unfold handleListenerEvent
  split
  · split
    · exact serves_refl s
    split
    · exact serves_respondPap ..
    · split_ifs
      · exact serves_refl s
      · exact serves_respondPap ..
      · exact (serves_respondPap s true _ _ _ now).trans (serves_same rfl rfl rfl)
    · exact serves_refl s
  · exact serves_refl s

theorem serves_connEvent (now : Micros) (s : PapServer) (e : AtpEvent) :
    Serves now s (handleConnEvent now s e) := by
  cases e with
  | request source tid userBytes data bitmap xo =>
    simp only [handleConnEvent]
    split
    · split_ifs
      · exact serves_refl s
      · unfold handleConnRequest
        dsimp only
        split
        · split_ifs
          · split
            · exact serves_respond rfl rfl rfl
            · exact serves_same rfl rfl rfl
          · exact serves_same rfl rfl rfl
        · exact (serves_respondPap s false source tid _ now).trans (serves_same rfl rfl rfl)
        · exact serves_same rfl rfl rfl
    · exact serves_refl s
  | response handle userBytes data =>
    simp only [handleConnEvent]
    split
    · exact serves_refl s
    split_ifs
    · exact serves_refl s
    split
    · exact serves_same rfl rfl rfl
    split_ifs
    · exact serves_same rfl rfl rfl
    · exact serves_same rfl rfl rfl
  | requestFailed handle =>
    simp only [handleConnEvent]
    split
    · exact serves_refl s
    split_ifs
    · exact serves_same rfl rfl rfl
    · exact serves_refl s

end

/-! ## Pulls -/

/-- A pull is missing that the sink has room for. -/
def Wants (s : PapServer) : Prop :=
  s.session.isSome ∧ s.pull = none ∧ PULL_CAPACITY ≤ s.sinkCredit

section
variable {s s' : PapServer} {now : Micros}

/-- What `maybePull` does. -/
theorem maybePull_cases (h : s.maybePull now = some s') :
    (¬ s.Wants ∧ s' = s) ∨
    (s.Wants ∧ ∃ session userBytes data handle connEp, s.session = some session ∧
      s.connEp.request session.client userBytes data 0xFF now = some (handle, connEp) ∧
      s' = { s with connEp, session := some { session with outstandingPull := some handle } }) := by
  unfold maybePull at h
  rcases hs : s.session with _ | session
  · simp only [hs, Option.some.injEq] at h
    left
    exact ⟨fun hw => by simpa [hs] using hw.1, h.symm⟩
  simp only [hs] at h
  have hpull : s.pull = session.outstandingPull := by rw [pull, hs]; rfl
  split_ifs at h with hwait
  · left
    refine ⟨?_, (Option.some.inj h).symm⟩
    rintro ⟨-, hout, hcap⟩
    rw [hpull] at hout
    rcases hwait with hwait | hwait
    · rw [hout] at hwait
      cases hwait
    · exact absurd hcap (Nat.not_le.2 hwait)
  · right
    rw [not_or, Nat.not_lt] at hwait
    obtain ⟨⟨handle, connEp⟩, hrequest, rfl⟩ := Option.map_eq_some_iff.1 h
    refine ⟨⟨by rw [hs]; rfl, ?_, hwait.2⟩, session, _, _, handle, connEp, rfl, hrequest, rfl⟩
    rw [hpull]
    simpa using hwait.1

theorem maybePull_of_not_wants (h : ¬ s.Wants) : s.maybePull now = some s := by
  unfold maybePull
  rcases hs : s.session with _ | session
  · rfl
  dsimp only
  refine if_pos ?_
  by_contra hwait
  rw [not_or, Nat.not_lt] at hwait
  refine h ⟨by rw [hs]; rfl, ?_, hwait.2⟩
  rw [pull, hs]
  simpa using hwait.1

theorem maybePull_isSome_of_free (h : s.connEp.TidFree) : (s.maybePull now).isSome := by
  unfold maybePull
  rcases s.session with _ | session
  · rfl
  dsimp only
  split_ifs
  · rfl
  · rw [Option.isSome_map, AtpEndpoint.request_isSome_iff]
    exact h

end

/-! ## Between two calls -/

/-- What the endpoints reported is handled. -/
structure Handled (s : PapServer) : Prop where
  listener : s.listener.events = []
  connEp : s.connEp.events = []
  tids : 0 ∉ s.connEp.pending

/-- And no pull is missing: a server between two calls. -/
structure Settled (s : PapServer) : Prop extends Handled s where
  pulling : ¬ s.Wants

section
variable {s s' : PapServer} {now : Micros}

theorem Serves.handled (h : Serves now s s') (hs : s.Handled) : s'.Handled :=
  ⟨h.listenerEvents.trans hs.listener, h.connEvents.trans hs.connEp, h.pending ▸ hs.tids⟩

theorem serves_drainListener (s : PapServer) (now : Micros) :
    Serves now { s with listener := { s.listener with events := [] } } (s.drainListener now) :=
  rel_run _ serves_refl Serves.trans (serves_listenerEvent now) _ _

theorem serves_drainConn (s : PapServer) (now : Micros) :
    Serves now { s with connEp := { s.connEp with events := [] } } (s.drainConn now) :=
  rel_run _ serves_refl Serves.trans (serves_connEvent now) _ _

theorem handled_drained (hz : 0 ∉ s.connEp.pending) :
    (((s.drainListener now).drainConn now).answerRead now).Handled := by
  have hl := serves_drainListener s now
  have hc := serves_drainConn (s.drainListener now) now
  refine (serves_answerRead _ now).handled ⟨?_, hc.connEvents, ?_⟩
  · exact hc.listenerEvents.trans hl.listenerEvents
  · rw [hc.pending]
    show 0 ∉ (s.drainListener now).connEp.pending
    rw [hl.pending]
    exact hz

theorem Handled.maybePull (hs : s.Handled) (h : s.maybePull now = some s') : s'.Settled := by
  rcases maybePull_cases h with ⟨hno, rfl⟩ | ⟨-, session, _, _, handle, connEp, -, hr, rfl⟩
  · exact ⟨hs, hno⟩
  · have hz := AtpEndpoint.zero_notMem_request hs.tids hr
    obtain ⟨nextTid, rfl⟩ := AtpEndpoint.request_eq hr
    refine ⟨⟨hs.listener, hs.connEp, hz⟩, ?_⟩
    rintro ⟨-, hout, -⟩
    cases hout

theorem settled_drain (hz : 0 ∉ s.connEp.pending) (h : s.drain now = some s') : s'.Settled :=
  (handled_drained hz).maybePull h

theorem SameAccount.wants_iff (h : SameAccount s s') : s'.Wants ↔ s.Wants := by
  rw [Wants, Wants, h.opened, h.pull, h.credit]

theorem settled_congr (hs : s.Settled) (hl : s'.listener.events = s.listener.events)
    (hc : s'.connEp.events = s.connEp.events) (hp : s'.connEp.pending = s.connEp.pending)
    (hacct : SameAccount s s') : s'.Settled :=
  ⟨⟨hl.trans hs.listener, hc.trans hs.connEp, hp ▸ hs.tids⟩, mt hacct.wants_iff.1 hs.pulling⟩

/-- The session's timers close it or tickle, and no more. -/
theorem handled_pollSession (hs : s.Handled) (h : s.pollSession now = some s') : s'.Handled := by
  unfold pollSession at h
  split at h
  · obtain rfl := Option.some.inj h
    exact hs
  split_ifs at h
  · obtain rfl := Option.some.inj h
    exact ⟨hs.listener, hs.connEp, hs.tids⟩
  · obtain ⟨connEp, hsend, rfl⟩ := Option.map_eq_some_iff.1 h
    obtain ⟨tid, nextTid, rfl⟩ := AtpEndpoint.sendAlo_eq hsend
    exact ⟨hs.listener, hs.connEp, hs.tids⟩
  · obtain rfl := Option.some.inj h
    exact hs

/-- **Every call leaves the server settled.** -/
theorem settled_call {c : PapCall} (hs : s.Settled) (h : s.call c = some s') : s'.Settled := by
  cases c with
  | setStatus status =>
    obtain rfl := Option.some.inj h
    exact settled_congr hs rfl rfl rfl ⟨rfl, rfl, rfl, rfl⟩
  | setSinkCredit bytes now =>
    exact Handled.maybePull (s := { s with sinkCredit := bytes })
      ⟨hs.listener, hs.connEp, hs.tids⟩ h
  | queueOutput data now =>
    obtain rfl := Option.some.inj h
    have hserves := serves_answerRead { s with session := s.session.map fun session =>
      { session with stdout := session.stdout ++ data } } now
    exact settled_congr hs hserves.listenerEvents hserves.connEvents hserves.pending
      (PapHost.sameAccount_output s now _ fun _ => rfl)
  | endOutput now =>
    obtain rfl := Option.some.inj h
    have hserves := serves_answerRead { s with session := s.session.map fun session =>
      { session with eofQueued := true } } now
    exact settled_congr hs hserves.listenerEvents hserves.connEvents hserves.pending
      (PapHost.sameAccount_output s now _ fun _ => rfl)
  | handleDatagram localSocket src payload now =>
    simp only [call, handleDatagram] at h
    split_ifs at h
    · exact settled_drain (s := { s with listener := s.listener.handleDatagram src payload })
        hs.tids h
    · exact settled_drain (mt AtpEndpoint.mem_of_mem_handleDatagram hs.tids) h
    · exact settled_drain hs.tids h
  | poll now =>
    obtain ⟨s₁, hdrain, h⟩ := Option.bind_eq_some_iff.1 h
    obtain ⟨s₂, hsession, hpull⟩ := Option.bind_eq_some_iff.1 h
    have hdrained := settled_drain (AtpEndpoint.zero_notMem_poll hs.tids) hdrain
    have hsettled := handled_pollSession hdrained.toHandled hsession
    exact ((serves_answerRead s₂ now).handled hsettled).maybePull hpull
  | pollTransmit =>
    obtain rfl := Option.some.inj h
    have hacct := PapHost.sameAccount_pollTransmit s
    unfold pollTransmit at hacct ⊢
    rcases hl : s.listener.pollTransmit with ⟨_ | ⟨dest, payload⟩, listener⟩
    · rcases hc : s.connEp.pollTransmit with ⟨_ | ⟨dest, payload⟩, connEp⟩
      · exact hs
      · obtain ⟨-, rfl⟩ := Prod.mk.inj hc
        simp only [hl, hc] at hacct
        exact settled_congr hs rfl rfl rfl hacct
    · obtain ⟨-, rfl⟩ := Prod.mk.inj hl
      simp only [hl] at hacct
      exact settled_congr hs rfl rfl rfl hacct
  | pollEvent =>
    obtain rfl := Option.some.inj h
    exact ⟨⟨hs.listener, hs.connEp, hs.tids⟩, hs.pulling⟩

theorem settled_new (listenerSocket connSocket : UInt8) : (new listenerSocket connSocket).Settled :=
  ⟨⟨rfl, rfl, Std.TreeMap.not_mem_emptyc⟩, fun h => Bool.noConfusion h.1⟩

end

/-! ## What a poll finds to handle -/

/-- When the client was last heard of, and when the next tickle is due. -/
def timers (s : PapServer) : Option (Micros × Micros) :=
  s.session.map fun session => (session.lastActivity, session.nextTickle)

section
variable {s s' : PapServer} {now : Micros}

theorem timers_answerRead (s : PapServer) (now : Micros) :
    (s.answerRead now).timers = s.timers := by
  unfold answerRead
  rcases hs : s.session with _ | session
  · rfl
  rcases hr : session.pendingRead with _ | read
  · simp only [hr]
  simp only [hr]
  split_ifs
  · rfl
  all_goals simp only [timers, hs]; rfl

theorem timers_maybePull (h : s.maybePull now = some s') : s'.timers = s.timers := by
  rcases maybePull_cases h with ⟨-, rfl⟩ | ⟨-, session, _, _, handle, connEp, hs, -, rfl⟩
  · rfl
  · simp only [timers, hs]
    rfl

theorem run_listener_failed (s : PapServer) (tids : List UInt16) :
    run (handleListenerEvent now) s (tids.map .requestFailed) = s := by
  induction tids with
  | nil => rfl
  | cons tid tids ih => exact ih

theorem conn_failed (now : Micros) (s : PapServer) (tid : UInt16) :
    (handleConnEvent now s (.requestFailed tid)).timers = s.timers ∧
    (handleConnEvent now s (.requestFailed tid)).pull =
      if s.pull = some tid then none else s.pull := by
  unfold handleConnEvent
  rcases hs : s.session with _ | session
  · simp [pull, hs]
  have hpull : s.pull = session.outstandingPull := by rw [pull, hs]; rfl
  dsimp only
  split_ifs with hout hp hp
  · exact ⟨by simp only [timers, hs]; rfl, rfl⟩
  · exact absurd (hpull.trans hout) hp
  · exact absurd (hpull.symm.trans hp) hout
  · exact ⟨rfl, rfl⟩

theorem run_conn_failed (now : Micros) (s : PapServer) (tids : List UInt16) :
    (run (handleConnEvent now) s (tids.map .requestFailed)).timers = s.timers ∧
    (run (handleConnEvent now) s (tids.map .requestFailed)).pull =
      if ∃ tid ∈ tids, s.pull = some tid then none else s.pull := by
  induction tids generalizing s with
  | nil => simp
  | cons tid tids ih =>
    obtain ⟨htimers, hpull⟩ := conn_failed now s tid
    obtain ⟨ihtimers, ihpull⟩ := ih (handleConnEvent now s (.requestFailed tid))
    refine ⟨ihtimers.trans htimers, ?_⟩
    rw [List.map_cons, run_cons, ihpull, hpull]
    by_cases hp : s.pull = some tid <;> simp [hp]

/-- The requests that a poll gives up. -/
def failing (ep : AtpEndpoint) (now : Micros) : List UInt16 :=
  ((ep.due now).filter fun p => p.2.retries + 1 > MAX_RETRIES).map Prod.fst

theorem mem_failing {ep : AtpEndpoint} {tid : UInt16} :
    tid ∈ failing ep now ↔ ∃ p, ep.pending[tid]? = some p ∧ p.tick now = none := by
  have htick : ∀ p : PendingRequest, p.tick now = none ↔
      ¬ now < p.retryAt ∧ p.retries + 1 > MAX_RETRIES := by
    intro p
    unfold PendingRequest.tick
    by_cases hlt : now < p.retryAt
    · simp [hlt]
    · by_cases hretries : p.retries + 1 > MAX_RETRIES <;> simp [hlt, hretries]
  simp only [failing, AtpEndpoint.due, List.mem_map, List.mem_filter, decide_eq_true_eq, htick]
  constructor
  · rintro ⟨⟨k, p⟩, ⟨⟨hmem, hdue⟩, hretries⟩, rfl⟩
    exact ⟨p, Std.TreeMap.mem_toList_iff_getElem?_eq_some.1 hmem, hdue, hretries⟩
  · rintro ⟨p, hp, hdue, hretries⟩
    exact ⟨(tid, p), ⟨⟨Std.TreeMap.mem_toList_iff_getElem?_eq_some.2 hp, hdue⟩, hretries⟩, rfl⟩

theorem mem_pending_poll {ep : AtpEndpoint} {tid : UInt16} :
    tid ∈ (ep.poll now).pending ↔ ∃ p, ep.pending[tid]? = some p ∧ (p.tick now).isSome := by
  rw [Std.TreeMap.mem_iff_contains, AtpEndpoint.contains_poll, Option.any_eq_true]

/-- The server once a poll has handled what the endpoints report. -/
def handled (s : PapServer) (now : Micros) : PapServer :=
  ((((s.ticked now).drainListener now).drainConn now).answerRead now)

/-- **What a poll finds to handle** are failed requests. -/
theorem handled_spec (hs : s.Settled) (now : Micros) :
    Serves now { s.ticked now with
      listener := { (s.ticked now).listener with events := [] }
      connEp := { (s.ticked now).connEp with events := [] } } (s.handled now) ∧
    (s.handled now).timers = s.timers ∧
    (s.handled now).pull =
      if ∃ tid ∈ failing s.connEp now, s.pull = some tid then none else s.pull := by
  have hl : (s.ticked now).drainListener now =
      { s.ticked now with listener := { (s.ticked now).listener with events := [] } } := by
    have hevents : (s.ticked now).listener.events =
        (failing s.listener now).map .requestFailed := by
      simp [ticked, AtpEndpoint.poll, hs.listener, failing]
    rw [drainListener, hevents, run_listener_failed]
  have hevents : (s.ticked now).connEp.events = (failing s.connEp now).map .requestFailed := by
    simp [ticked, AtpEndpoint.poll, hs.connEp, failing]
  have hc := serves_drainConn ((s.ticked now).drainListener now) now
  have hrun := run_conn_failed now { (s.ticked now).drainListener now with
    connEp := { ((s.ticked now).drainListener now).connEp with events := [] } }
    (failing s.connEp now)
  rw [hl] at hc hrun
  rw [← hevents] at hrun
  have hread := sameAccount_answerRead (((s.ticked now).drainListener now).drainConn now) now
  refine ⟨?_, ?_, ?_⟩
  · unfold handled
    rw [hl]
    exact hc.trans (serves_answerRead _ now)
  · unfold handled
    rw [timers_answerRead, hl]
    exact hrun.1
  · unfold handled
    rw [hread.pull, hl]
    exact hrun.2

/-- A TID stays in use over a poll: its request does, or it is that of the pull
    that is made again. -/
def TidKept (s : PapServer) (now : Micros) (tid : UInt16) : Prop :=
  ∃ p, s.connEp.pending[tid]? = some p ∧
    ((p.tick now).isSome ∨ (s.pull = some tid ∧ PULL_CAPACITY ≤ s.sinkCredit))

theorem mem_pending_handled (hs : s.Settled) {tid : UInt16} :
    tid ∈ (s.handled now).connEp.pending ↔
      ∃ p, s.connEp.pending[tid]? = some p ∧ (p.tick now).isSome := by
  rw [(handled_spec hs now).1.pending]
  exact mem_pending_poll

theorem notMem_handled_of_failing (hs : s.Settled) {tid : UInt16}
    (h : tid ∈ failing s.connEp now) :
    tid ≠ 0 ∧ tid ∉ (s.handled now).connEp.pending := by
  obtain ⟨p, hp, htick⟩ := mem_failing.1 h
  constructor
  · rintro rfl
    rw [Std.TreeMap.getElem?_eq_none hs.tids] at hp
    cases hp
  · rw [mem_pending_handled hs]
    rintro ⟨q, hq, hstay⟩
    obtain rfl := Option.some.inj (hp.symm.trans hq)
    rw [htick] at hstay
    cases hstay

/-- The one pull that a poll makes is that of a failed one. -/
theorem wants_handled_iff (hs : s.Settled) : (s.handled now).Wants ↔
    ∃ tid ∈ failing s.connEp now, s.pull = some tid ∧ PULL_CAPACITY ≤ s.sinkCredit := by
  obtain ⟨hserves, htimers, hpull⟩ := handled_spec hs now
  have hopen : (s.handled now).session.isSome = s.session.isSome := by
    simpa [timers] using congrArg Option.isSome htimers
  have hcredit : (s.handled now).sinkCredit = s.sinkCredit := hserves.credit
  rw [Wants, hopen, hpull, hcredit]
  constructor
  · rintro ⟨hsome, hnone, hcap⟩
    split_ifs at hnone with hfailed
    · obtain ⟨tid, hfail, htid⟩ := hfailed
      exact ⟨tid, hfail, htid, hcap⟩
    · exact absurd ⟨hsome, hnone, hcap⟩ hs.pulling
  · rintro ⟨tid, hfail, htid, hcap⟩
    refine ⟨?_, if_pos ⟨tid, hfail, htid⟩, hcap⟩
    rw [pull] at htid
    obtain ⟨session, hsession, -⟩ := Option.bind_eq_some_iff.1 htid
    exact Option.isSome_iff_exists.2 ⟨session, hsession⟩

theorem tidKept_iff (hs : s.Settled) {tid : UInt16} : s.TidKept now tid ↔
    tid ∈ (s.handled now).connEp.pending ∨
      (tid ∈ failing s.connEp now ∧ s.pull = some tid ∧ PULL_CAPACITY ≤ s.sinkCredit) := by
  rw [mem_pending_handled hs, mem_failing]
  constructor
  · rintro ⟨p, hp, hstay | hpull⟩
    · exact Or.inl ⟨p, hp, hstay⟩
    · rcases htick : p.tick now with _ | p'
      · exact Or.inr ⟨⟨p, hp, htick⟩, hpull⟩
      · exact Or.inl ⟨p, hp, by rw [htick]; rfl⟩
  · rintro (⟨p, hp, hstay⟩ | ⟨⟨p, hp, -⟩, hpull⟩)
    · exact ⟨p, hp, Or.inl hstay⟩
    · exact ⟨p, hp, Or.inr hpull⟩

theorem tidFree_pulled (hs : s.Settled) {old tid : UInt16}
    (hfail : old ∈ failing s.connEp now) (hold : s.pull = some old)
    (hcap : PULL_CAPACITY ≤ s.sinkCredit) {dest : ServiceAddress} {userBytes : UserBytes}
    {data : Bytes} {connEp : AtpEndpoint}
    (hr : (s.handled now).connEp.request dest userBytes data 0xFF now = some (tid, connEp)) :
    connEp.TidFree ↔ ¬ ∀ t ≠ 0, s.TidKept now t := by
  have hkept : ∀ t, s.TidKept now t ↔ t ∈ (s.handled now).connEp.pending ∨ t = old := by
    intro t
    rw [tidKept_iff hs]
    refine or_congr_right ⟨?_, ?_⟩
    · rintro ⟨-, ht, -⟩
      exact Option.some.inj (ht.symm.trans hold)
    · rintro rfl
      exact ⟨hfail, hold, hcap⟩
  obtain ⟨hold0, holdfree⟩ := notMem_handled_of_failing hs hfail
  have htid0 := AtpEndpoint.request_ne_zero hr
  have htidfree : tid ∉ (s.handled now).connEp.pending := by
    rw [Std.TreeMap.mem_iff_contains, AtpEndpoint.request_free hr]
    exact Bool.false_ne_true
  obtain ⟨nextTid, rfl⟩ := AtpEndpoint.request_eq hr
  simp only [AtpEndpoint.TidFree, Std.TreeMap.mem_insert, Std.LawfulEqCmp.compare_eq_iff_eq, hkept,
    not_forall, not_or]
  constructor
  · rintro ⟨t, ht0, hne, hfree⟩
    -- Where `t` is the number that became free, the one just taken is another.
    by_cases ht : t = old
    · exact ⟨tid, htid0, htidfree, ht ▸ hne⟩
    · exact ⟨t, ht0, hfree, ht⟩
  · rintro ⟨t, ht0, hfree, hne⟩
    by_cases ht : tid = t
    · exact ⟨old, hold0, ht ▸ hne, holdfree⟩
    · exact ⟨t, ht0, ht, hfree⟩

/-- **A poll can always make its pull**, and finds a TID for a tickle unless all of them stay in
    use. -/
theorem drain_ticked (hs : s.Settled) (now : Micros) : ∃ s₁, (s.ticked now).drain now = some s₁ ∧
    s₁.Settled ∧ s₁.timers = s.timers ∧ s₁.listener.Ahead now ∧ s₁.connEp.Ahead now ∧
    (s₁.connEp.TidFree ↔ ¬ ∀ tid ≠ 0, s.TidKept now tid) := by
  obtain ⟨hserves, htimers, hpull⟩ := handled_spec hs now
  have hl := hserves.listener ⟨(AtpEndpoint.ahead_poll s.listener now).retry,
    (AtpEndpoint.ahead_poll s.listener now).release⟩
  have hc := hserves.connEp ⟨(AtpEndpoint.ahead_poll s.connEp now).retry,
    (AtpEndpoint.ahead_poll s.connEp now).release⟩
  have hz : 0 ∉ (s.ticked now).connEp.pending := AtpEndpoint.zero_notMem_poll hs.tids
  have hreturns : ∃ s₁, (s.handled now).maybePull now = some s₁ := by
    by_cases hwants : (s.handled now).Wants
    · obtain ⟨old, hfail, -⟩ := (wants_handled_iff hs).1 hwants
      exact Option.isSome_iff_exists.1
        (maybePull_isSome_of_free ⟨old, notMem_handled_of_failing hs hfail⟩)
    · exact ⟨_, maybePull_of_not_wants hwants⟩
  obtain ⟨s₁, hs₁⟩ := hreturns
  refine ⟨s₁, hs₁, settled_drain hz hs₁, (timers_maybePull hs₁).trans htimers, ?_⟩
  rcases maybePull_cases hs₁ with ⟨hno, rfl⟩ | ⟨hwants, session, _, _, tid, connEp, -, hr, rfl⟩
  · refine ⟨hl, hc, ?_⟩
    rw [wants_handled_iff hs] at hno
    simp only [AtpEndpoint.TidFree, tidKept_iff hs, not_forall, not_or, exists_prop]
    refine exists_congr fun tid => and_congr_right fun _ => (and_iff_left ?_).symm
    rintro ⟨hfail, hpull⟩
    exact hno ⟨tid, hfail, hpull⟩
  · obtain ⟨old, hfail, hold, hcap⟩ := (wants_handled_iff hs).1 hwants
    exact ⟨hl, hc.request hr, tidFree_pulled hs hfail hold hcap hr⟩

end

/-! ## The session's timers -/

/-- The timers of a session, but for the read that waits for an answer. -/
def TimersAhead (now : Micros) (timers : Option (Micros × Micros)) : Prop :=
  ∀ t, timers = some t → now < t.1 + INACTIVITY_TIMEOUT ∧ now < t.2

section
variable {s s' : PapServer} {now : Micros}

theorem pendingRead_answerRead {session : PapSession}
    (h : (s.answerRead now).session = some session) (hread : session.pendingRead.isSome) :
    now < session.lastClientWrite + READ_IDLE_ANSWER := by
  unfold answerRead at h
  rcases hs : s.session with _ | session'
  · simp only [hs] at h
    cases h
  rcases hr : session'.pendingRead with _ | read
  · simp only [hs, hr] at h
    obtain rfl := Option.some.inj h
    rw [hr] at hread
    cases hread
  simp only [hs, hr] at h
  split_ifs at h with hwait hseq
  · obtain rfl := Option.some.inj (hs.symm.trans h)
    simp only [Bool.and_eq_true, Bool.not_eq_true', decide_eq_false_iff_not] at hwait
    exact Nat.lt_of_not_le hwait.2
  all_goals
    obtain rfl := Option.some.inj h
    cases hread

theorem ahead_answered (hl : s.listener.Ahead now) (hc : s.connEp.Ahead now) :
    (∀ d ∈ (s.answerRead now).nextDeadline, now < d) ↔ TimersAhead now s.timers := by
  have hserves := serves_answerRead s now
  rw [← timers_answerRead s now]
  have hread : ∀ session, (s.answerRead now).session = some session →
      session.pendingRead.isSome → now < session.lastClientWrite + READ_IDLE_ANSWER :=
    fun session => pendingRead_answerRead
  have hl' : ∀ d : ℕ, (s.answerRead now).listener.nextDeadline = some d → now < d :=
    fun _ => (hserves.listener hl).lt_nextDeadline
  have hc' : ∀ d : ℕ, (s.answerRead now).connEp.nextDeadline = some d → now < d :=
    fun _ => (hserves.connEp hc).lt_nextDeadline
  generalize s.answerRead now = s' at hread hl' hc'
  rw [nextDeadline, lt_min?_iff]
  rcases hs : s'.session with _ | session
  · have htimers : s'.timers = none := by rw [timers, hs]; rfl
    simp only [TimersAhead, htimers, reduceCtorEq, false_implies, implies_true, iff_true,
      List.append_nil, List.mem_append, Option.mem_toList]
    rintro d (hd | hd)
    · exact hl' d hd
    · exact hc' d hd
  · have htimers : s'.timers = some (session.lastActivity, session.nextTickle) := by
      rw [timers, hs]; rfl
    simp only [TimersAhead, htimers, Option.some.injEq, forall_eq', List.mem_append,
      Option.mem_toList, List.mem_cons, List.not_mem_nil, or_false]
    constructor
    · intro h
      exact ⟨h _ (Or.inr (Or.inl (Or.inr rfl))), h _ (Or.inr (Or.inl (Or.inl rfl)))⟩
    · rintro ⟨hactive, htickle⟩ d ((hd | hd) | (rfl | rfl) | hd)
      · exact hl' d hd
      · exact hc' d hd
      · exact htickle
      · exact hactive
      · split_ifs at hd with hwait
        · obtain rfl := List.mem_singleton.1 hd
          exact hread session hs hwait
        · cases hd

/-- The client was last heard of exactly `INACTIVITY_TIMEOUT` ago. -/
def AtInactivity (s : PapServer) (now : Micros) : Prop :=
  ∃ session, s.session = some session ∧ now = session.lastActivity + INACTIVITY_TIMEOUT

/-- The poll sends a tickle. -/
def TickleDue (s : PapServer) (now : Micros) : Prop :=
  ∃ session, s.session = some session ∧ now ≤ session.lastActivity + INACTIVITY_TIMEOUT ∧
    session.nextTickle ≤ now

/-- A tickle is due, and every TID is in use. -/
def TidsSpent (s : PapServer) (now : Micros) : Prop :=
  s.TickleDue now ∧ ∀ tid ≠ 0, s.TidKept now tid

theorem atInactivity_iff :
    s.AtInactivity now ↔ ∃ t, s.timers = some t ∧ now = t.1 + INACTIVITY_TIMEOUT := by
  simp only [AtInactivity, timers, Option.map_eq_some_iff, ↓existsAndEq, and_true]

theorem tickleDue_iff : s.TickleDue now ↔
    ∃ t, s.timers = some t ∧ now ≤ t.1 + INACTIVITY_TIMEOUT ∧ t.2 ≤ now := by
  simp only [TickleDue, timers, Option.map_eq_some_iff, ↓existsAndEq, and_true]

theorem pollSession_tickle {session : PapSession} (hs : s.session = some session)
    (hkept : ¬ now - session.lastActivity > INACTIVITY_TIMEOUT)
    (htickle : now ≥ session.nextTickle) :
    (¬ s.connEp.TidFree ∧ s.pollSession now = none) ∨
    (s.connEp.TidFree ∧ ∃ userBytes connEp,
      s.connEp.sendAlo session.client userBytes = some connEp ∧
      s.pollSession now = some { s with
        connEp
        session := some { session with nextTickle := now + TICKLE_INTERVAL } }) := by
  simp only [pollSession, hs, hkept, if_false, if_pos htickle]
  rcases hsend : s.connEp.sendAlo session.client _ with _ | connEp
  · left
    rw [← AtpEndpoint.sendAlo_isSome_iff, hsend]
    exact ⟨Bool.false_ne_true, rfl⟩
  · right
    refine ⟨?_, _, connEp, hsend, rfl⟩
    rw [← AtpEndpoint.sendAlo_isSome_iff, hsend]
    rfl

/-- **A poll leaves no timer due** but in the two cases. -/
theorem poll_ahead_iff (hs : s.Settled) :
    (∃ s', s.poll now = some s' ∧ ∀ d ∈ s'.nextDeadline, now < d) ↔
      ¬ s.AtInactivity now ∧ ¬ s.TidsSpent now := by
  obtain ⟨s₁, hdrain, hsettled, htimers, hl, hc, hfree⟩ := drain_ticked hs now
  have hpoll : s.poll now =
      (s₁.pollSession now).bind fun s₂ => (s₂.answerRead now).maybePull now := by
    show (s.ticked now).drain now >>= _ = _
    rw [hdrain]
    rfl
  -- Nothing the session's timers do calls for a pull.
  have hend : ∀ {s₂}, s₁.pollSession now = some s₂ → ¬ s₂.Wants → s₂.listener.Ahead now →
      s₂.connEp.Ahead now → ((∃ s', s.poll now = some s' ∧ ∀ d ∈ s'.nextDeadline, now < d) ↔
        TimersAhead now s₂.timers) := by
    intro s₂ hsession hno hl hc
    rw [← (sameAccount_answerRead s₂ now).wants_iff] at hno
    rw [hpoll, hsession, Option.bind_some, maybePull_of_not_wants hno, ← ahead_answered hl hc]
    simp
  rw [TidsSpent, atInactivity_iff, tickleDue_iff, ← htimers]
  rcases hs₁ : s₁.session with _ | session
  · have hnone : s₁.timers = none := by rw [timers, hs₁]; rfl
    rw [hend (by rw [pollSession, hs₁]) hsettled.pulling hl hc, hnone]
    simp [TimersAhead]
  have hsome : s₁.timers = some (session.lastActivity, session.nextTickle) := by
    rw [timers, hs₁]; rfl
  simp only [hsome, Option.some.injEq, exists_eq_left']
  by_cases hgone : now - session.lastActivity > INACTIVITY_TIMEOUT
  · -- The session ends.
    have hclosed : s₁.pollSession now =
        some (({ s₁ with session := none } : PapServer).emit .connectionClosed) := by
      rw [pollSession, hs₁]
      exact if_pos hgone
    rw [hend hclosed (fun hw => Bool.noConfusion hw.1) hl hc]
    have hlate : session.lastActivity + INACTIVITY_TIMEOUT < now := Nat.add_lt_of_lt_sub' hgone
    exact iff_of_true (fun t ht => nomatch ht) ⟨hlate.ne', fun h => Nat.not_le.2 hlate h.1.1⟩
  have hkept : now ≤ session.lastActivity + INACTIVITY_TIMEOUT :=
    Nat.sub_le_iff_le_add'.1 (Nat.not_lt.1 hgone)
  have hlt : now < session.lastActivity + INACTIVITY_TIMEOUT ↔
      ¬ now = session.lastActivity + INACTIVITY_TIMEOUT :=
    ⟨fun h => h.ne, fun h => lt_of_le_of_ne hkept h⟩
  by_cases htickle : now ≥ session.nextTickle
  · -- A tickle is sent, if there is a TID for it.
    have hdue : now ≤ session.lastActivity + INACTIVITY_TIMEOUT ∧ session.nextTickle ≤ now :=
      ⟨hkept, htickle⟩
    rw [and_iff_right hdue, ← hfree]
    rcases pollSession_tickle hs₁ hgone htickle with
      ⟨hspent, hnone⟩ | ⟨hfree, _, connEp, hsend, hsession⟩
    · rw [hpoll, hnone]
      simp [hspent]
    · rw [hend hsession ?_ hl (hc.sendAlo hsend)]
      · simp [TimersAhead, timers, hlt, hfree, TICKLE_INTERVAL]
      · intro hw
        refine hsettled.pulling ⟨by rw [hs₁]; rfl, ?_, hw.2.2⟩
        rw [pull, hs₁]
        exact hw.2.1
  · -- No timer is due.
    have hquiet : s₁.pollSession now = some s₁ := by
      rw [pollSession, hs₁]
      dsimp only
      rw [if_neg hgone, if_neg htickle]
    rw [hend hquiet hsettled.pulling hl hc, hsome]
    simp only [TimersAhead, Option.some.injEq, forall_eq', hlt]
    exact and_congr_right fun _ =>
      ⟨fun _ h' => htickle h'.1.2, fun _ => Nat.lt_of_not_le htickle⟩

end

end PapServer

end TailTalk
