/-
  The events of a PAP session, and its pulls.

  The reports are in order, and a pull is made when the one before it is
  settled.  A pull that a connection leaves behind is still pending when the
  next one makes its own (`reopenedCalls_two_pulls`).
-/
import TailTalk.Pap.Reads
import TailTalk.Pap.Timers

namespace TailTalk

open Lib

/-! ## What may be reported -/

/-- No connection, or one that has printed so many bytes since its last end of
    job. -/
inductive PapPhase where
  | closed
  | opened (bytes : ℕ)

/-- The event that may come next, and where it leads. -/
def PapPhase.next : PapPhase → PapEvent → Option PapPhase
  | .closed, .connectionOpened _ => some (.opened 0)
  | .opened n, .toPrinter data => if data = [] then none else some (.opened (n + data.length))
  | .opened n, .jobEof => if 0 < n then some (.opened 0) else none
  | .opened _, .connectionClosed => some .closed
  | _, _ => none

/-- Where some events lead; `none` where one of them may not come. -/
def phaseAfter (events : List PapEvent) : Option PapPhase :=
  run (partialStep PapPhase.next) (some .closed) events

/-! ## What happens to a session -/

/-- What of a session its events and pulls depend on. -/
structure Pulling where
  jobBytes : ℕ
  pullSeq : UInt16
  pull : Option UInt16

/-- What can happen to a session, with what it reports. -/
inductive PapAct where
  | opens (client : ServiceAddress)
  | closes
  /-- the pull in flight is answered, with job bytes and an EOF flag, or it has
      failed -/
  | settles (reply : Option (Bytes × Bool))
  | pulls (tid : UInt16)

namespace PapAct

/-- The session after it. -/
def next : Option Pulling → PapAct → Option Pulling
  | _, .opens _ => some ⟨0, 1, none⟩
  | _, .closes => none
  | p, .settles none => p.map fun p => { p with pull := none }
  | p, .settles (some (data, eof)) => p.map fun p =>
    ⟨if eof && decide (p.jobBytes + data.length > 0) then 0 else p.jobBytes + data.length,
      nextPapSeq p.pullSeq, none⟩
  | p, .pulls tid => p.map fun p => { p with pull := some tid }

/-- What it reports. -/
def events : Option Pulling → PapAct → List PapEvent
  | _, .opens client => [.connectionOpened client]
  | _, .closes => [.connectionClosed]
  | some p, .settles (some (data, eof)) => (if data.isEmpty then [] else [.toPrinter data]) ++
    if eof && decide (p.jobBytes + data.length > 0) then [.jobEof] else []
  | _, _ => []

/-- When it can happen. -/
def Legal : Option Pulling → PapAct → Prop
  | p, .opens _ => p = none
  | p, .closes => p.isSome
  | p, .settles _ => ∃ q, p = some q ∧ q.pull.isSome
  | p, .pulls _ => ∃ q, p = some q ∧ q.pull = none

end PapAct

/-- Where a session is. -/
def phaseOf : Option Pulling → PapPhase
  | none => .closed
  | some p => .opened p.jobBytes

/-- **What an act reports may come next**, and leads where the session is. -/
theorem phase_act {p : Option Pulling} {a : PapAct} (h : a.Legal p) :
    run (partialStep PapPhase.next) (some (phaseOf p)) (a.events p) =
      some (phaseOf (a.next p)) := by
  cases a with
  | opens client =>
    obtain rfl : p = none := h
    rfl
  | closes =>
    obtain ⟨q, rfl⟩ := Option.isSome_iff_exists.1 h
    rfl
  | pulls tid =>
    obtain ⟨q, rfl, -⟩ := h
    rfl
  | settles reply =>
    obtain ⟨q, rfl, -⟩ := h
    rcases reply with _ | ⟨data, eof⟩
    · rfl
    have hprint : run (partialStep PapPhase.next) (some (.opened q.jobBytes))
        (if data.isEmpty then [] else [.toPrinter data]) =
          some (.opened (q.jobBytes + data.length)) := by
      cases data with
      | nil => rfl
      | cons b data => rfl
    simp only [PapAct.events, phaseOf, run_append, hprint]
    by_cases hended : (eof && decide (q.jobBytes + data.length > 0)) = true
    · have hsome : 0 < q.jobBytes + data.length := by
        simpa using (Bool.and_eq_true_iff.1 hended).2
      simp only [hended, if_true, PapAct.next, Option.map_some]
      exact if_pos hsome
    · simp only [hended, PapAct.next, Option.map_some]
      rfl

/-- What was counted of a session since it was opened. -/
structure Tally where
  /-- Data replies that were accepted -/
  accepted : ℕ
  /-- pulls that were answered or have failed -/
  settled : ℕ
  /-- the TIDs of the pulls that were made -/
  made : List UInt16

/-- Count it. -/
def Tally.step (t : Tally) : PapAct → Tally
  | .opens _ => ⟨0, 0, []⟩
  | .closes => t
  | .settles none => { t with settled := t.settled + 1 }
  | .settles (some _) => { t with accepted := t.accepted + 1, settled := t.settled + 1 }
  | .pulls tid => { t with made := t.made ++ [tid] }

/-- The sequence number counts the accepted replies, and at most one pull is not
    settled. -/
def Tally.Fits (t : Tally) (p : Option Pulling) : Prop :=
  ∀ q, p = some q → q.pullSeq = papSeq t.accepted ∧
    t.made.length = t.settled + if q.pull.isSome then 1 else 0

theorem Tally.Fits.step {t : Tally} {p : Option Pulling} {a : PapAct} (h : t.Fits p)
    (hlegal : a.Legal p) : (t.step a).Fits (a.next p) := by
  intro q' hq'
  cases a with
  | opens client =>
    obtain rfl := Option.some.inj hq'
    exact ⟨rfl, rfl⟩
  | closes => cases hq'
  | settles reply =>
    obtain ⟨q, rfl, hpull⟩ := hlegal
    obtain ⟨hseq, hmade⟩ := h q rfl
    rw [if_pos hpull] at hmade
    rcases reply with _ | ⟨data, eof⟩ <;> obtain rfl := Option.some.inj hq'
    · exact ⟨hseq, hmade⟩
    · refine ⟨?_, hmade⟩
      show nextPapSeq q.pullSeq = papSeq (t.accepted + 1)
      rw [hseq, nextPapSeq_papSeq]
  | pulls tid =>
    obtain ⟨q, rfl, hpull⟩ := hlegal
    obtain ⟨hseq, hmade⟩ := h q rfl
    obtain rfl := Option.some.inj hq'
    refine ⟨hseq, ?_⟩
    rw [hpull] at hmade
    simpa [Tally.step] using hmade

/-! ## The pieces of a server -/

/-- A piece of a server's work. -/
inductive PapMove where
  /-- an event of the listener is handled -/
  | listenerEvent (e : AtpEvent) (now : Micros)
  /-- an event of the connection socket is handled -/
  | connEvent (e : AtpEvent) (now : Micros)
  | answerRead (now : Micros)
  | maybePull (now : Micros)
  | pollSession (now : Micros)
  | setStatus (status : Bytes)
  | creditSink (bytes : ℕ)
  | addOutput (data : Bytes)
  | endOutput
  /-- a datagram reaches its ATP endpoint -/
  | received (localSocket : UInt8) (src : ServiceAddress) (payload : Bytes)
  /-- the timers of the ATP endpoints run -/
  | ticked (now : Micros)
  /-- the events of the listener are taken -/
  | takeListener
  /-- those of the connection socket are -/
  | takeConn
  | pollTransmit
  | pollEvent
deriving DecidableEq

namespace AtpEndpoint
variable {ep : AtpEndpoint}

/-- A response that is reported is that of a request no longer pending. -/
theorem resolved_handleDatagram (hq : ep.events = []) {src : ServiceAddress} {payload : Bytes} :
    ∀ e ∈ (ep.handleDatagram src payload).events, ∀ tid, e.resolves tid →
      tid ∉ (ep.handleDatagram src payload).pending := by
  unfold handleDatagram
  rcases AtpPacket.parse payload with err | packet
  · simp [hq]
  dsimp only
  split
  · unfold handleRequest
    split
    · simp [push, hq]
    split_ifs
    · simp [hq]
    · simp [remember, emit, requestEvent, hq, AtpEvent.resolves]
    · simp [emit, requestEvent, hq, AtpEvent.resolves]
  · unfold handleResponse
    split
    · simp [hq]
    dsimp only
    split_ifs
    · split
      · simp [hq]
      · simp [push, emit, hq, AtpEvent.resolves]
    · simp [hq]
  · simp [handleRelease, hq]

theorem resolved_poll (hq : ep.events = []) {now : Micros} :
    ∀ e ∈ (ep.poll now).events, ∀ tid, e.resolves tid → tid ∉ (ep.poll now).pending := by
  intro e he tid hresolves
  have hevents : (ep.poll now).events = (PapServer.failing ep now).map .requestFailed := by
    simp [poll, hq, PapServer.failing]
  rw [hevents] at he
  obtain ⟨failed, hfailed, rfl⟩ := List.mem_map.1 he
  obtain rfl : failed = tid := by simpa [AtpEvent.resolves] using hresolves
  obtain ⟨p, hp, htick⟩ := PapServer.mem_failing.1 hfailed
  rw [PapServer.mem_pending_poll]
  rintro ⟨q, hq, hstay⟩
  obtain rfl := Option.some.inj (hp.symm.trans hq)
  rw [htick] at hstay
  cases hstay

end AtpEndpoint

namespace PapServer

/-- One piece of the server. -/
def move (s : PapServer) : PapMove → Option PapServer
  | .listenerEvent e now => some (s.handleListenerEvent now e)
  | .connEvent e now => some (s.handleConnEvent now e)
  | .answerRead now => some (s.answerRead now)
  | .maybePull now => s.maybePull now
  | .pollSession now => s.pollSession now
  | .setStatus status => some (s.setStatus status)
  | .creditSink bytes => some { s with sinkCredit := bytes }
  | .addOutput data => some { s with session := s.session.map fun session =>
      { session with stdout := session.stdout ++ data } }
  | .endOutput => some { s with session := s.session.map fun session =>
      { session with eofQueued := true } }
  | .received localSocket src payload => some (s.received localSocket src payload)
  | .ticked now => some (s.ticked now)
  | .takeListener => some { s with listener := { s.listener with events := [] } }
  | .takeConn => some { s with connEp := { s.connEp with events := [] } }
  | .pollTransmit => some s.pollTransmit.2
  | .pollEvent => some s.pollEvent.2

/-- All that waits at the two endpoints. -/
def drainMoves (s : PapServer) (now : Micros) : List PapMove :=
  .takeListener :: s.listener.events.map (.listenerEvent · now) ++
    (.takeConn :: s.connEp.events.map (.connEvent · now) ++ [.answerRead now, .maybePull now])

/-- The pieces of a call. -/
def moves (s : PapServer) : PapCall → List PapMove
  | .setStatus status => [.setStatus status]
  | .setSinkCredit bytes now => [.creditSink bytes, .maybePull now]
  | .queueOutput data now => [.addOutput data, .answerRead now]
  | .endOutput now => [.endOutput, .answerRead now]
  | .handleDatagram localSocket src payload now =>
    .received localSocket src payload :: (s.received localSocket src payload).drainMoves now
  | .poll now => .ticked now :: (s.ticked now).drainMoves now ++
      [.pollSession now, .answerRead now, .maybePull now]
  | .pollTransmit => [.pollTransmit]
  | .pollEvent => [.pollEvent]

section
variable {s s' : PapServer} {now : Micros}

theorem run_listenerMoves (s : PapServer) (evs : List AtpEvent) :
    run (partialStep move) (some s) (evs.map (.listenerEvent · now)) =
      some (run (handleListenerEvent now) s evs) := by
  induction evs generalizing s with
  | nil => rfl
  | cons e evs ih => exact ih _

theorem run_connMoves (s : PapServer) (evs : List AtpEvent) :
    run (partialStep move) (some s) (evs.map (.connEvent · now)) =
      some (run (handleConnEvent now) s evs) := by
  induction evs generalizing s with
  | nil => rfl
  | cons e evs ih => exact ih _

theorem run_takeListener (s : PapServer) (now : Micros) :
    run (partialStep move) (some s)
      (.takeListener :: s.listener.events.map (.listenerEvent · now)) =
        some (s.drainListener now) := run_listenerMoves _ _

theorem run_drainMoves (s : PapServer) (now : Micros) :
    run (partialStep move) (some s) (s.drainMoves now) = s.drain now := by
  have hconn : run (partialStep move) (some (s.drainListener now))
      (.takeConn :: s.connEp.events.map (.connEvent · now)) =
        some ((s.drainListener now).drainConn now) := by
    rw [← show (s.drainListener now).connEp.events = s.connEp.events from
      (serves_drainListener s now).connEvents]
    exact run_connMoves _ _
  rw [drainMoves, run_append, run_takeListener, run_append, hconn]
  rfl

/-- **A call is a list of moves.** -/
theorem call_eq_moves (s : PapServer) (c : PapCall) :
    s.call c = run (partialStep move) (some s) (s.moves c) := by
  cases c with
  | setStatus status | pollTransmit | pollEvent => rfl
  | setSinkCredit bytes now | queueOutput data now | endOutput now => rfl
  | handleDatagram localSocket src payload now =>
    rw [moves, run_cons, partialStep_some, move, run_drainMoves]
    simp only [call, handleDatagram, received]
    split_ifs <;> rfl
  | poll now =>
    rw [moves, List.cons_append, run_cons, partialStep_some, move, run_append, run_drainMoves]
    show (s.ticked now).drain now >>= _ = _
    rcases (s.ticked now).drain now with _ | s₁
    · exact (run_partialStep_none _).symm
    · show s₁.pollSession now >>= _ = _
      rw [run_cons, partialStep_some, move]
      rcases s₁.pollSession now with _ | s₂
      · exact (run_partialStep_none _).symm
      · rfl

end

/-! ## What a move does to the session -/

/-- What of the session the discipline is about. -/
def core (s : PapServer) : Option Pulling :=
  s.session.map fun session => ⟨session.jobBytes, session.pullSeq, session.outstandingPull⟩

/-- The job bytes and the EOF flag of a Data reply. -/
def replyOf (userBytes : UserBytes) (data : Bytes) : Option (Bytes × Bool) :=
  match PapPacket.parseFromAtp userBytes data with
  | .ok pap => if pap.function = .data then some (pap.data, pap.eof) else none
  | .error _ => none

/-- What an event of the listener comes to. -/
def listenerTurn (s : PapServer) : AtpEvent → Option PapAct
  | .request source _ userBytes data _ _ =>
    match PapPacket.parseFromAtp userBytes data with
    | .ok pap =>
      if pap.function = .openConn ∧ 2 ≤ pap.data.length ∧ s.session.isNone then
        some (.opens ⟨source.networkNumber, source.nodeNumber, pap.data.getD 0 0⟩)
      else none
    | .error _ => none
  | _ => none

/-- What an event of the connection socket does. -/
def connTurn (s : PapServer) : AtpEvent → Option PapAct
  | .request _ _ userBytes data _ _ =>
    match PapPacket.parseFromAtp userBytes data, s.session with
    | .ok pap, some session =>
      if pap.connectionId = session.connId ∧ pap.function = .closeConn then some .closes else none
    | _, _ => none
  | .response handle userBytes data =>
    if s.pull = some handle then some (.settles (replyOf userBytes data)) else none
  | .requestFailed handle => if s.pull = some handle then some (.settles none) else none

/-- What a move does to the session. -/
def act (s : PapServer) : PapMove → Option PapAct
  | .listenerEvent e _ => s.listenerTurn e
  | .connEvent e _ => s.connTurn e
  | .maybePull now =>
    if s.pull.isSome then none else ((s.maybePull now).bind (·.pull)).map .pulls
  | .pollSession now =>
    match s.session with
    | some session => if now - session.lastActivity > INACTIVITY_TIMEOUT then some .closes else none
    | none => none
  | _ => none

/-- An act, or nothing, happens between two states. -/
structure Turns (s s' : PapServer) (a : Option PapAct) : Prop where
  legal : ∀ b ∈ a, b.Legal s.core
  core : s'.core = a.elim s.core (PapAct.next s.core)
  events : s'.events = s.events ++ a.elim [] (PapAct.events s.core)

section
variable {s s' : PapServer} {now : Micros}

theorem turns_same (hcore : s'.core = s.core) (hevents : s'.events = s.events) :
    Turns s s' none :=
  ⟨nofun, hcore, hevents.trans (List.append_nil _).symm⟩

theorem turns_refl (s : PapServer) : Turns s s none := turns_same rfl rfl

theorem turns_session {session session' : PapSession} (hs : s.session = some session)
    (hs' : s'.session = some session') (hbytes : session'.jobBytes = session.jobBytes)
    (hseq : session'.pullSeq = session.pullSeq)
    (hpull : session'.outstandingPull = session.outstandingPull) (hevents : s'.events = s.events) :
    Turns s s' none := by
  refine turns_same ?_ hevents
  simp only [PapServer.core, hs, hs', Option.map_some, hbytes, hseq, hpull]

theorem pull_eq_core (s : PapServer) : s.pull = s.core.bind (·.pull) := by
  unfold pull PapServer.core
  cases s.session <;> rfl

theorem turns_respondPap (s : PapServer) (onListener : Bool) (source : ServiceAddress)
    (tid : UInt16) (pap : PapPacket) (now : Micros) :
    Turns s (s.respondPap onListener source tid pap now) none := by
  cases onListener <;> exact turns_same rfl rfl

theorem turns_answerRead (s : PapServer) (now : Micros) : Turns s (s.answerRead now) none := by
  unfold answerRead
  rcases hs : s.session with _ | session
  · exact turns_refl s
  rcases hr : session.pendingRead with _ | read
  · simp only [hr]
    exact turns_refl s
  simp only [hr]
  split_ifs
  · exact turns_refl s
  all_goals exact turns_session hs rfl rfl rfl rfl rfl

theorem turns_listenerEvent (now : Micros) (s : PapServer) (e : AtpEvent) :
    Turns s (handleListenerEvent now s e) (s.listenerTurn e) := by
  cases e with
  | request source tid userBytes data bitmap xo =>
    simp only [handleListenerEvent, listenerTurn]
    rcases PapPacket.parseFromAtp userBytes data with err | pap
    · exact turns_refl s
    dsimp only
    rcases hf : pap.function with _ | _ | _ | _ | _ | _ | _ | _ | _
    case openConn =>
      simp only [true_and]
      by_cases hshort : pap.data.length < 2
      · rw [if_pos hshort, if_neg fun h => absurd h.1 (Nat.not_le.2 hshort)]
        exact turns_refl s
      rw [if_neg hshort]
      rcases hs : s.session with _ | session
      · simp only [Option.isSome_none, Bool.false_eq_true, if_false, Option.isNone_none, and_true,
          if_pos (Nat.le_of_not_lt hshort)]
        refine ⟨?_, rfl, rfl⟩
        rintro b ⟨⟩
        show s.core = none
        rw [PapServer.core, hs]
        rfl
      · simp only [Option.isSome_some, if_true, Option.isNone_some, Bool.false_eq_true, and_false,
          if_false]
        exact turns_respondPap s true source tid _ now
    case sendStatus => exact turns_respondPap s true source tid _ now
    all_goals exact turns_refl s
  | response handle userBytes data => exact turns_refl s
  | requestFailed handle => exact turns_refl s

theorem turns_connRequest {session : PapSession} (hs : s.session = some session) (now : Micros)
    (source : ServiceAddress) (tid : UInt16) (bitmap : UInt8) (pap : PapPacket) :
    Turns s (s.handleConnRequest now session source tid bitmap pap)
      (if pap.function = .closeConn then some .closes else none) := by
  unfold handleConnRequest
  rcases hf : pap.function with _ | _ | _ | _ | _ | _ | _ | _ | _
  case closeConn =>
    refine ⟨?_, rfl, rfl⟩
    rintro b ⟨⟩
    show s.core.isSome
    rw [PapServer.core, hs]
    rfl
  case sendData =>
    simp only [reduceCtorEq, if_false]
    split
    · split
      · exact turns_session hs rfl rfl rfl rfl rfl
      · exact turns_session hs rfl rfl rfl rfl rfl
    · exact turns_session hs rfl rfl rfl rfl rfl
  all_goals exact turns_session hs rfl rfl rfl rfl rfl

theorem turns_settles {session : PapSession} {handle : UInt16} (hs : s.session = some session)
    (hpull : session.outstandingPull = some handle) {reply : Option (Bytes × Bool)}
    (hcore : s'.core = PapAct.next s.core (.settles reply))
    (hevents : s'.events = s.events ++ PapAct.events s.core (.settles reply)) :
    Turns s s' (some (.settles reply)) := by
  refine ⟨?_, hcore, hevents⟩
  rintro b ⟨⟩
  refine ⟨⟨session.jobBytes, session.pullSeq, some handle⟩, ?_, rfl⟩
  rw [PapServer.core, hs, Option.map_some, hpull]

theorem core_of_some {session : PapSession} (hs : s.session = some session) :
    s.core = some ⟨session.jobBytes, session.pullSeq, session.outstandingPull⟩ := by
  rw [PapServer.core, hs]
  rfl

theorem turns_fails {session : PapSession} (hs : s.session = some session) {handle : UInt16}
    (hpull : session.outstandingPull = some handle) :
    Turns s { s with session := some { session with outstandingPull := none } }
      (some (.settles none)) := by
  refine turns_settles hs hpull ?_ ?_
  · rw [core_of_some hs]
    rfl
  · rw [core_of_some hs]
    exact (List.append_nil _).symm

theorem turns_connEvent (now : Micros) (s : PapServer) (e : AtpEvent) :
    Turns s (handleConnEvent now s e) (s.connTurn e) := by
  cases e with
  | request source tid userBytes data bitmap xo =>
    simp only [handleConnEvent, connTurn]
    rcases PapPacket.parseFromAtp userBytes data with err | pap
    · exact turns_refl s
    rcases hs : s.session with _ | session
    · exact turns_refl s
    dsimp only
    by_cases hid : pap.connectionId = session.connId
    · simp only [hid, ne_eq, not_true, if_false, true_and]
      exact turns_connRequest hs now source tid bitmap pap
    · simp only [hid, ne_eq, not_false_eq_true, if_true, false_and, if_false]
      exact turns_refl s
  | response handle userBytes data =>
    simp only [handleConnEvent, connTurn, replyOf]
    rcases hs : s.session with _ | session
    · simp only [pull, hs, Option.bind_none, reduceCtorEq, if_false]
      exact turns_refl s
    have hpull : s.pull = session.outstandingPull := by rw [pull, hs]; rfl
    simp only [hpull]
    by_cases hp : session.outstandingPull = some handle
    · simp only [hp, ne_eq, not_true, if_false, if_true]
      rcases PapPacket.parseFromAtp userBytes data with err | pap
      · exact turns_fails hs hp
      dsimp only
      by_cases hf : pap.function = .data
      · simp only [hf, not_true, if_false, if_true]
        refine turns_settles hs hp ?_ ?_
        · rw [core_of_some hs]
          rfl
        · rw [core_of_some hs]
          exact List.append_assoc _ _ _
      · simp only [hf, not_false_eq_true, if_true, if_false]
        exact turns_fails hs hp
    · simp only [hp, ne_eq, not_false_eq_true, if_true, if_false]
      exact turns_refl s
  | requestFailed handle =>
    simp only [handleConnEvent, connTurn]
    rcases hs : s.session with _ | session
    · simp only [pull, hs, Option.bind_none, reduceCtorEq, if_false]
      exact turns_refl s
    have hpull : s.pull = session.outstandingPull := by rw [pull, hs]; rfl
    simp only [hpull]
    split_ifs with hp
    · exact turns_fails hs hp
    · exact turns_refl s

theorem isSome_core (s : PapServer) : s.session.isSome = s.core.isSome := by
  rw [PapServer.core, Option.isSome_map]

theorem act_settles {m : PapMove} {reply : Option (Bytes × Bool)}
    (h : s.act m = some (.settles reply)) : ∃ e now, m = .connEvent e now ∧
      ∃ tid, e.resolves tid = true ∧ s.pull = some tid := by
  cases m with
  | connEvent e now =>
    refine ⟨e, now, rfl, ?_⟩
    simp only [act, connTurn] at h
    cases e with
    | request source tid userBytes data bitmap xo =>
      simp only at h
      split at h
      · split at h <;> cases h
      · cases h
    | response handle userBytes data =>
      simp only at h
      split_ifs at h with hpull
      exact ⟨handle, by simp [AtpEvent.resolves], hpull⟩
    | requestFailed handle =>
      simp only at h
      split_ifs at h with hpull
      exact ⟨handle, by simp [AtpEvent.resolves], hpull⟩
  | listenerEvent e now =>
    simp only [act, listenerTurn] at h
    split at h
    · split at h
      · split at h <;> cases h
      · cases h
    · cases h
  | maybePull now =>
    simp only [act] at h
    split_ifs at h
    obtain ⟨tid, -, h⟩ := Option.map_eq_some_iff.1 h
    cases h
  | pollSession now =>
    simp only [act] at h
    split at h
    · split at h <;> cases h
    · cases h
  | _ => cases h

theorem turns_maybePull (h : s.maybePull now = some s') :
    Turns s s' (s.act (.maybePull now)) := by
  simp only [act, h, Option.bind_some]
  rcases maybePull_cases h with ⟨-, rfl⟩ | ⟨hwants, session, _, _, handle, connEp, hs, -, rfl⟩
  · rcases hp : s'.pull with _ | tid
    · exact turns_refl s'
    · exact turns_refl s'
  · have hpull : session.outstandingPull = none := by
      rw [← hwants.2.1, pull, hs]
      rfl
    rw [hwants.2.1]
    refine ⟨?_, ?_, (List.append_nil _).symm⟩
    · rintro b ⟨⟩
      exact ⟨_, core_of_some hs, hpull⟩
    · rw [core_of_some hs]
      rfl

theorem turns_pollSession (h : s.pollSession now = some s') :
    Turns s s' (s.act (.pollSession now)) := by
  unfold pollSession at h
  simp only [act]
  rcases hs : s.session with _ | session
  · simp only [hs, Option.some.injEq] at h
    obtain rfl := h
    exact turns_refl s
  simp only [hs] at h
  dsimp only
  by_cases hgone : now - session.lastActivity > INACTIVITY_TIMEOUT
  · rw [if_pos hgone] at h ⊢
    obtain rfl := Option.some.inj h
    refine ⟨?_, rfl, rfl⟩
    rintro b ⟨⟩
    show s.core.isSome
    rw [core_of_some hs]
    rfl
  · rw [if_neg hgone] at h ⊢
    split_ifs at h
    · obtain ⟨connEp, -, rfl⟩ := Option.map_eq_some_iff.1 h
      exact turns_session hs rfl rfl rfl rfl rfl
    · obtain rfl := Option.some.inj h
      exact turns_refl s

/-- **What a move does to the session.**  Taking an event away does nothing to it. -/
theorem turns_move {m : PapMove} (h : s.move m = some s') (hm : m ≠ .pollEvent) :
    Turns s s' (s.act m) := by
  cases m with
  | listenerEvent e now =>
    obtain rfl := Option.some.inj h
    exact turns_listenerEvent now s e
  | connEvent e now =>
    obtain rfl := Option.some.inj h
    exact turns_connEvent now s e
  | answerRead now =>
    obtain rfl := Option.some.inj h
    exact turns_answerRead s now
  | maybePull now => exact turns_maybePull h
  | pollSession now => exact turns_pollSession h
  | addOutput data =>
    obtain rfl := Option.some.inj h
    refine turns_same ?_ rfl
    simp only [PapServer.core, Option.map_map]
    rfl
  | endOutput =>
    obtain rfl := Option.some.inj h
    refine turns_same ?_ rfl
    simp only [PapServer.core, Option.map_map]
    rfl
  | received localSocket src payload =>
    obtain rfl := Option.some.inj h
    unfold received
    split_ifs <;> exact turns_same rfl rfl
  | pollTransmit =>
    obtain rfl := Option.some.inj h
    unfold pollTransmit
    split
    · exact turns_same rfl rfl
    split <;> exact turns_same rfl rfl
  | pollEvent => exact absurd rfl hm
  | setStatus _ | creditSink _ | ticked _ | takeListener | takeConn =>
    obtain rfl := Option.some.inj h
    exact turns_same rfl rfl

/-- A tickle waits for no response. -/
theorem pending_pollSession {now : Micros} (h : s.pollSession now = some s') :
    s'.connEp.pending = s.connEp.pending := by
  unfold pollSession at h
  split at h
  · obtain rfl := Option.some.inj h
    rfl
  split_ifs at h
  · obtain rfl := Option.some.inj h
    rfl
  · obtain ⟨connEp, hsend, rfl⟩ := Option.map_eq_some_iff.1 h
    obtain ⟨_, nextTid, rfl⟩ := AtpEndpoint.sendAlo_eq hsend
    rfl
  · obtain rfl := Option.some.inj h
    rfl

theorem pending_move {m : PapMove} (h : s.move m = some s') (tid : UInt16)
    (htid : tid ∈ s'.connEp.pending) :
    tid ∈ s.connEp.pending ∨ s.act m = some (.pulls tid) := by
  cases m with
  | listenerEvent e now =>
    obtain rfl := Option.some.inj h
    rw [(serves_listenerEvent now s e).pending] at htid
    exact Or.inl htid
  | connEvent e now =>
    obtain rfl := Option.some.inj h
    rw [(serves_connEvent now s e).pending] at htid
    exact Or.inl htid
  | answerRead now =>
    obtain rfl := Option.some.inj h
    rw [(serves_answerRead s now).pending] at htid
    exact Or.inl htid
  | maybePull now =>
    simp only [act, show s.maybePull now = some s' from h, Option.bind_some]
    rcases maybePull_cases h with ⟨-, rfl⟩ | ⟨hwants, session, _, _, handle, connEp, hs, hr, rfl⟩
    · exact Or.inl htid
    · obtain ⟨nextTid, rfl⟩ := AtpEndpoint.request_eq hr
      rw [hwants.2.1]
      simp only [Std.TreeMap.mem_insert, Std.LawfulEqCmp.compare_eq_iff_eq] at htid
      rcases htid with rfl | htid
      · exact Or.inr rfl
      · exact Or.inl htid
  | pollSession now =>
    rw [pending_pollSession h] at htid
    exact Or.inl htid
  | received localSocket src payload =>
    obtain rfl := Option.some.inj h
    left
    unfold received at htid
    split_ifs at htid
    · exact htid
    · exact AtpEndpoint.mem_of_mem_handleDatagram htid
    · exact htid
  | ticked now =>
    obtain rfl := Option.some.inj h
    obtain ⟨p, hp, -⟩ := mem_pending_poll.1 htid
    exact Or.inl (Std.TreeMap.isSome_getElem?_iff_mem.1 (by rw [hp]; rfl))
  | pollTransmit =>
    obtain rfl := Option.some.inj h
    left
    unfold pollTransmit at htid
    split at htid
    · exact htid
    split at htid
    · rename_i hc
      obtain ⟨-, rfl⟩ := Prod.mk.inj hc
      exact htid
    · exact htid
  | setStatus _ | creditSink _ | addOutput _ | endOutput | takeListener | takeConn | pollEvent =>
    obtain rfl := Option.some.inj h
    exact Or.inl htid

end

end PapServer

/-! ## Runs -/

/-- A server, the events its owner has taken, and what was counted. -/
structure PapWatch where
  server : PapServer
  taken : List PapEvent
  tally : Tally

namespace PapWatch

/-- Nothing was reported. -/
def new (listenerSocket connSocket : UInt8) : PapWatch :=
  ⟨PapServer.new listenerSocket connSocket, [], ⟨0, 0, []⟩⟩

/-- Everything the server has reported. -/
def emitted (w : PapWatch) : List PapEvent := w.taken ++ w.server.events

/-- A move that never returns changes nothing. -/
def step (w : PapWatch) (m : PapMove) : PapWatch :=
  match w.server.move m with
  | none => w
  | some server =>
    { server
      taken := if m = .pollEvent then w.taken ++ w.server.events.head?.toList else w.taken
      tally := (w.server.act m).elim w.tally w.tally.step }

/-- The moves of a call that returns. -/
def call (w : PapWatch) (c : PapCall) : PapWatch :=
  match w.server.call c with
  | none => w
  | some _ => run step w (w.server.moves c)

/-- **The discipline.** -/
structure Sound (w : PapWatch) : Prop where
  /-- what was reported came in order, and led where the session is -/
  phase : phaseAfter w.emitted = some (phaseOf w.server.core)
  /-- the sequence number has gone on once for each accepted reply -/
  pullSeq : ∀ session, w.server.session = some session →
    session.pullSeq = papSeq w.tally.accepted ∧ session.pullSeq ≠ 0
  /-- all pulls of the session but the one in flight are settled -/
  pulls : ∀ session, w.server.session = some session →
    w.tally.made.length = w.tally.settled + if session.outstandingPull.isSome then 1 else 0

/-- Of the session's pulls that are still pending, none but the one in flight. -/
def OnePending (w : PapWatch) : Prop :=
  w.server.session.isSome → ∀ tid ∈ w.tally.made, tid ∈ w.server.connEp.pending →
    w.server.pull = some tid

section
variable {w : PapWatch} {m : PapMove}

theorem sound_of_fits (hphase : phaseAfter w.emitted = some (phaseOf w.server.core))
    (hfits : w.tally.Fits w.server.core) : w.Sound := by
  refine ⟨hphase, fun session hs => ?_, fun session hs => ?_⟩
  · have hseq : session.pullSeq = papSeq w.tally.accepted := (hfits _ (PapServer.core_of_some hs)).1
    exact ⟨hseq, hseq ▸ papSeq_ne_zero _⟩
  · exact (hfits _ (PapServer.core_of_some hs)).2

theorem Sound.fits (h : w.Sound) : w.tally.Fits w.server.core := by
  intro q hq
  obtain ⟨session, hs, rfl⟩ := Option.map_eq_some_iff.1 hq
  exact ⟨(h.pullSeq session hs).1, h.pulls session hs⟩

theorem sound_new (listenerSocket connSocket : UInt8) : (new listenerSocket connSocket).Sound :=
  sound_of_fits rfl fun _ h => nomatch h

/-- **Every move keeps the discipline.** -/
theorem Sound.step (h : w.Sound) (m : PapMove) : (w.step m).Sound := by
  rcases hmove : w.server.move m with _ | server
  · simp only [PapWatch.step, hmove]
    exact h
  by_cases hm : m = .pollEvent
  · -- The event only changes hands.
    subst hm
    obtain rfl := Option.some.inj hmove
    have hemitted : (w.step .pollEvent).emitted = w.emitted := by
      simp only [PapWatch.step, PapServer.move, emitted, if_true, PapServer.pollEvent]
      cases w.server.events <;> simp
    refine sound_of_fits ?_ h.fits
    rw [hemitted]
    exact h.phase
  · have hturns := PapServer.turns_move hmove hm
    have hemitted : (w.step m).emitted = w.emitted ++
        (w.server.act m).elim [] (PapAct.events w.server.core) := by
      simp only [PapWatch.step, hmove, emitted, if_neg hm, hturns.events, List.append_assoc]
    have hserver : (w.step m).server = server := by simp only [PapWatch.step, hmove]
    have htally : (w.step m).tally = (w.server.act m).elim w.tally w.tally.step := by
      simp only [PapWatch.step, hmove]
    refine sound_of_fits ?_ ?_
    · rw [hemitted, phaseAfter, run_append, ← phaseAfter, h.phase, hserver, hturns.core]
      rcases ha : w.server.act m with _ | a
      · rfl
      · exact phase_act (hturns.legal a ha)
    · rw [hserver, htally, hturns.core]
      rcases ha : w.server.act m with _ | a
      · exact h.fits
      · exact h.fits.step (hturns.legal a ha)

theorem sound_run (h : w.Sound) (ms : List PapMove) : (run step w ms).Sound :=
  inv_run step (fun _ m h _ => h.step m) h (along_true step ms)

/-- The ATP endpoint is done with a request that it reports on. -/
def Reported (w : PapWatch) : PapMove → Prop
  | .connEvent e _ => ∀ tid, e.resolves tid → tid ∉ w.server.connEp.pending
  | _ => True

theorem OnePending.step (h : w.OnePending) (hm : w.Reported m) : (w.step m).OnePending := by
  rcases hmove : w.server.move m with _ | server
  · simp only [PapWatch.step, hmove]
    exact h
  by_cases hevent : m = .pollEvent
  · subst hevent
    obtain rfl := Option.some.inj hmove
    exact h
  have hturns := PapServer.turns_move hmove hevent
  have hpending := PapServer.pending_move hmove
  unfold OnePending at h ⊢
  simp only [PapWatch.step, hmove, PapServer.pull_eq_core, PapServer.isSome_core, hturns.core]
    at h ⊢
  rcases ha : w.server.act m with _ | a
  · intro hopen tid hmade htid
    exact h hopen tid hmade ((hpending tid htid).resolve_right (by rw [ha]; nofun))
  have hlegal := hturns.legal a ha
  have hold : ∀ tid, tid ∈ server.connEp.pending → a ≠ .pulls tid →
      tid ∈ w.server.connEp.pending := fun tid htid hne =>
    (hpending tid htid).resolve_right fun hpulls => hne (Option.some.inj (ha.symm.trans hpulls))
  cases a with
  | opens client =>
    intro _ tid hmade
    cases hmade
  | closes =>
    intro hopen
    cases hopen
  | settles reply =>
    -- The request that is settled is no longer pending.
    obtain ⟨e, now, rfl, settled, hresolves, hpull⟩ := PapServer.act_settles ha
    obtain ⟨q, hq, -⟩ := hlegal
    have hmade : (w.tally.step (.settles reply)).made = w.tally.made := by cases reply <;> rfl
    intro _ tid htally htid
    simp only [Option.elim_some, hmade] at htally
    have hpend := hold tid htid nofun
    have hown := h (by rw [hq]; rfl) tid htally hpend
    rw [← PapServer.pull_eq_core, hpull] at hown
    obtain rfl := Option.some.inj hown
    exact absurd hpend (hm _ hresolves)
  | pulls new =>
    obtain ⟨q, hq, hnone⟩ := hlegal
    intro _ tid hmade htid
    have hnew : tid = new := by
      by_contra hne
      have hpend := hold tid htid fun h => hne (PapAct.pulls.inj h).symm
      have hmem : tid ∈ w.tally.made :=
        (List.mem_append.1 hmade).resolve_right fun h => hne (List.mem_singleton.1 h)
      have hown := h (by rw [hq]; rfl) tid hmem hpend
      rw [hq, Option.bind_some, hnone] at hown
      cases hown
    rw [hnew, hq]
    rfl

end

/-! ### Calls -/

section
variable {w : PapWatch}

theorem server_run_step {ms : List PapMove} {s : PapServer}
    (h : run (partialStep PapServer.move) (some w.server) ms = some s) :
    (run step w ms).server = s := by
  induction ms generalizing w with
  | nil => exact Option.some.inj h
  | cons m ms ih =>
    obtain ⟨s', hmove, hrest⟩ := run_partialStep_cons h
    have hserver : (w.step m).server = s' := by simp only [step, hmove]
    exact ih (hserver ▸ hrest)

theorem server_call (w : PapWatch) (c : PapCall) :
    (w.call c).server = (w.server.call c).getD w.server := by
  unfold call
  rcases hc : w.server.call c with _ | server
  · rfl
  · exact server_run_step ((PapServer.call_eq_moves w.server c).symm.trans hc)

theorem along_reported {ms : List PapMove} (h : ∀ m ∈ ms, ∀ e now, m ≠ .connEvent e now) :
    Along step Reported w ms := by
  induction ms generalizing w with
  | nil => trivial
  | cons m ms ih =>
    refine ⟨?_, ih fun m' hm' => h m' (List.mem_cons_of_mem _ hm')⟩
    cases m with
    | connEvent e now => exact absurd rfl (h _ List.mem_cons_self e now)
    | _ => trivial

theorem along_connMoves {evs : List AtpEvent} {now : Micros}
    (h : ∀ e ∈ evs, ∀ tid, e.resolves tid → tid ∉ w.server.connEp.pending) :
    Along step Reported w (evs.map (.connEvent · now)) := by
  induction evs generalizing w with
  | nil => trivial
  | cons e evs ih =>
    refine ⟨h e List.mem_cons_self, ih fun e' he' tid hresolves => ?_⟩
    show tid ∉ (PapServer.handleConnEvent now w.server e).connEp.pending
    rw [(PapServer.serves_connEvent now w.server e).pending]
    exact h e' (List.mem_cons_of_mem _ he') tid hresolves

theorem along_drainMoves {now : Micros}
    (h : ∀ e ∈ w.server.connEp.events, ∀ tid, e.resolves tid → tid ∉ w.server.connEp.pending) :
    Along step Reported w (w.server.drainMoves now) := by
  unfold PapServer.drainMoves
  rw [Along.append, Along.append]
  refine ⟨along_reported ?_, ⟨trivial, along_connMoves ?_⟩, along_reported ?_⟩
  · simp
  · -- Nothing has changed what is pending since.
    intro e he tid hresolves
    have hserver := server_run_step (w := w) (PapServer.run_takeListener w.server now)
    have hpending := (PapServer.serves_drainListener w.server now).pending
    simp only [step, PapServer.move, hserver, hpending]
    exact h e he tid hresolves
  · simp

/-- **In a call the ATP endpoint is done with what it reports.** -/
theorem along_moves (hs : w.server.Settled) (c : PapCall) :
    Along step Reported w (w.server.moves c) := by
  cases c with
  | handleDatagram localSocket src payload now =>
    refine ⟨trivial, along_drainMoves (w := w.step (.received localSocket src payload)) ?_⟩
    simp only [step, PapServer.move, PapServer.received]
    split_ifs
    · simp [hs.connEp]
    · exact AtpEndpoint.resolved_handleDatagram hs.connEp
    · simp [hs.connEp]
  | poll now =>
    rw [PapServer.moves, List.cons_append]
    refine ⟨trivial, (Along.append _).2 ⟨along_drainMoves (w := w.step (.ticked now)) ?_,
      along_reported (by simp)⟩⟩
    exact AtpEndpoint.resolved_poll hs.connEp
  | _ => exact along_reported (by simp [PapServer.moves])

/-- What every call keeps. -/
structure Kept (w : PapWatch) : Prop where
  settled : w.server.Settled
  sound : w.Sound
  onePending : w.OnePending

theorem Kept.call (h : w.Kept) (c : PapCall) : (w.call c).Kept := by
  unfold PapWatch.call
  rcases hc : w.server.call c with _ | server
  · exact h
  have hserver : (run step w (w.server.moves c)).server = server :=
    server_run_step ((PapServer.call_eq_moves w.server c).symm.trans hc)
  refine ⟨?_, sound_run h.sound _, ?_⟩
  · show (run step w (w.server.moves c)).server.Settled
    rw [hserver]
    exact PapServer.settled_call h.settled hc
  · exact inv_run step (fun _ _ h hm => h.step hm) h.onePending (along_moves h.settled c)

theorem kept_new (listenerSocket connSocket : UInt8) : (new listenerSocket connSocket).Kept :=
  ⟨PapServer.settled_new listenerSocket connSocket, sound_new listenerSocket connSocket,
    fun h => nomatch h⟩

theorem server_run_call (listenerSocket connSocket : UInt8) (cs : List PapCall) :
    (run call (new listenerSocket connSocket) cs).server =
      (run PapHost.step (.new listenerSocket connSocket) cs).server := by
  have hsame : ∀ (cs : List PapCall) (w : PapWatch) (h : PapHost), w.server = h.server →
      (run call w cs).server = (run PapHost.step h cs).server := by
    intro cs
    induction cs with
    | nil => exact fun w h hserver => hserver
    | cons c cs ih =>
      intro w h hserver
      refine ih _ _ ?_
      rw [server_call, hserver, PapHost.step]
      cases h.server.call c <;> rfl
  exact hsame cs _ _ rfl

end

/-- **The discipline of a session.** Over any moves and over any calls, what a server reports comes
    in order, its sequence number goes on once for each accepted reply, and all pulls of the open
    session but the one in flight are settled. Over calls, the ATP endpoint has none of them pending
    but that one. -/
theorem session_discipline (listenerSocket connSocket : UInt8) (ms : List PapMove)
    (cs : List PapCall) :
    (run step (new listenerSocket connSocket) ms).Sound ∧
    (run call (new listenerSocket connSocket) cs).Sound ∧
    (run call (new listenerSocket connSocket) cs).OnePending ∧
    (run call (new listenerSocket connSocket) cs).server =
      (run PapHost.step (.new listenerSocket connSocket) cs).server := by
  have hkept := inv_run call (fun _ c h _ => h.call c) (kept_new listenerSocket connSocket)
    (along_true call cs)
  exact ⟨sound_run (sound_new listenerSocket connSocket) ms, hkept.sound, hkept.onePending,
    server_run_call listenerSocket connSocket cs⟩

/-- The request is a pull. -/
def asksForData (p : PendingRequest) : Bool :=
  match AtpPacket.parse p.rawPacket with
  | .ok packet =>
    match PapPacket.parseFromAtp packet.userBytes [] with
    | .ok pap => pap.function = .sendData
    | .error _ => false
  | .error _ => false

/-- A request of the client. -/
def fromClient (tid : UInt16) (function : PapFunction) (data : Bytes) : Bytes :=
  let (userBytes, data) := ({ connectionId := 70
                              function
                              sequenceNum := 0
                              eof := false
                              data } : PapPacket).toAtpParts
  AtpEndpoint.requestBytes true 0x01 tid userBytes data

/-- A session is closed with its pull in flight, and opened again. -/
def reopenedCalls : List PapCall :=
  [.setSinkCredit 8192 0,
    .handleDatagram 190 PapHost.aClient (fromClient 1 .openConn [70, 8, 0, 0]) 0,
    .handleDatagram 191 PapHost.aClient (fromClient 2 .closeConn []) 1,
    .handleDatagram 190 PapHost.aClient (fromClient 3 .openConn [70, 8, 0, 0]) 2]

/-- The pull of the first session is still pending, beside that of the second. -/
theorem reopenedCalls_two_pulls :
    (run PapHost.step (.new 190 191) reopenedCalls).server.pull = some 2 ∧
    ((run PapHost.step (.new 190 191) reopenedCalls).server.connEp.pending.toList.filter
      (fun p => asksForData p.2)).map Prod.fst = [1, 2] := by
  refine ⟨?_, ?_⟩ <;> decide

end PapWatch

end TailTalk
