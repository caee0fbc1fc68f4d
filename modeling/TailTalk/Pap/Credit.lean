/-
  The sink credit of a PAP printer server.

  Where the credit is not overdrawn (`Covered`), the bytes handed out since a
  report, and the pull in flight, fit in what was reported.
-/
import TailTalk.Lib.Credit
import TailTalk.Pap.Server
import Mathlib

namespace TailTalk

open Lib

/-- The job bytes in some events. -/
def printed (events : List PapEvent) : ℕ :=
  (events.map fun e => match e with
    | .toPrinter data => data.length
    | _ => 0).sum

@[simp] theorem printed_append (xs ys : List PapEvent) :
    printed (xs ++ ys) = printed xs + printed ys := by
  simp [printed]

/-- The job bytes that the reply to a pull carries. -/
def replyBytes (userBytes : UserBytes) (data : Bytes) : ℕ :=
  match PapPacket.parseFromAtp userBytes data with
  | .ok pap => if pap.function = .data then pap.data.length else 0
  | .error _ => 0

namespace PapServer

/-- The pull in flight. -/
def pull (s : PapServer) : Option UInt16 := s.session.bind (·.outstandingPull)

/-- The credit account, with `used` bytes handed out since the last report. -/
def account (s : PapServer) (used : ℕ) : Account where
  credit := s.sinkCredit
  used := used
  opened := s.session.isSome
  out := s.pull.isSome

/-- What happens to the account between two states of a server. -/
def Does (s s' : PapServer) (acts : List Account.Act) : Prop :=
  ∃ new, s'.events = s.events ++ new ∧ ∀ used,
    s'.account (used + printed new) = run (Account.step PULL_CAPACITY) (s.account used) acts

/-- The session and the queue of events stay as they are, as far as the
    account is concerned. -/
structure SameAccount (s s' : PapServer) : Prop where
  credit : s'.sinkCredit = s.sinkCredit
  opened : s'.session.isSome = s.session.isSome
  pull : s'.pull = s.pull
  events : s'.events = s.events

section
variable {s s' s'' : PapServer} {acts acts' : List Account.Act}

theorem SameAccount.does (h : SameAccount s s') : Does s s' [] := by
  refine ⟨[], by rw [h.events, List.append_nil], fun used => ?_⟩
  simp only [account, h.credit, h.opened, h.pull]
  rfl

theorem SameAccount.account_eq (h : SameAccount s s') (used : ℕ) :
    s'.account used = s.account used := by
  simp only [account, h.credit, h.opened, h.pull]

theorem Does.trans (h : Does s s' acts) (h' : Does s' s'' acts') : Does s s'' (acts ++ acts') := by
  obtain ⟨new, he, hacct⟩ := h
  obtain ⟨new', he', hacct'⟩ := h'
  refine ⟨new ++ new', by rw [he', he, List.append_assoc], fun used => ?_⟩
  rw [printed_append, ← Nat.add_assoc, hacct', hacct, run_append]

/-- Along a list of events each of which does its part. -/
theorem does_run {f : PapServer → AtpEvent → PapServer}
    {act : PapServer → AtpEvent → Option Account.Act}
    (hf : ∀ s e, Does s (f s e) (act s e).toList) (s : PapServer) (events : List AtpEvent) :
    Does s (run f s events) (trace f (fun s e => (act s e).toList) s events) := by
  induction events generalizing s with
  | nil => exact SameAccount.does ⟨rfl, rfl, rfl, rfl⟩
  | cons e events ih => exact (hf s e).trans (ih (f s e))

end

/-! ## The handlers -/

/-- What an event of the listener means for the account. -/
def listenerAct (_ : PapServer) : AtpEvent → Option Account.Act
  | .request _ _ userBytes data _ _ =>
    match PapPacket.parseFromAtp userBytes data with
    | .ok pap => if pap.function = .openConn ∧ 2 ≤ pap.data.length then some .opens else none
    | .error _ => none
  | _ => none

/-- What an event of the connection socket means for the account. -/
def connAct (s : PapServer) : AtpEvent → Option Account.Act
  | .request _ _ userBytes data _ _ =>
    match PapPacket.parseFromAtp userBytes data, s.session with
    | .ok pap, some session =>
      if pap.connectionId = session.connId ∧ pap.function = .closeConn then some .closes else none
    | _, _ => none
  | .response handle userBytes data =>
    if s.pull = some handle then some (.settle (replyBytes userBytes data)) else none
  | .requestFailed handle => if s.pull = some handle then some (.settle 0) else none

theorem sameAccount_answerRead (s : PapServer) (now : Micros) :
    SameAccount s (s.answerRead now) := by
  unfold answerRead
  rcases hs : s.session with _ | session
  · exact ⟨rfl, rfl, rfl, rfl⟩
  rcases hr : session.pendingRead with _ | read
  · simp only [hr]; exact ⟨rfl, rfl, rfl, rfl⟩
  simp only [hr]
  split_ifs
  all_goals first
    | exact ⟨rfl, rfl, rfl, rfl⟩
    | exact ⟨rfl, by rw [hs]; rfl, by simp only [pull, hs]; rfl, rfl⟩

theorem sameAccount_respondPap (s : PapServer) (onListener : Bool) (source : ServiceAddress)
    (tid : UInt16) (pap : PapPacket) (now : Micros) :
    SameAccount s (s.respondPap onListener source tid pap now) := by
  cases onListener <;> exact ⟨rfl, rfl, rfl, rfl⟩

/-- A session that changes in other respects than its pull. -/
theorem sameAccount_session {s : PapServer} {session session' : PapSession} {connEp : AtpEndpoint}
    (hs : s.session = some session)
    (hp : session'.outstandingPull = session.outstandingPull) :
    SameAccount s { s with session := some session', connEp } := by
  refine ⟨rfl, by rw [hs]; rfl, ?_, rfl⟩
  simp only [pull, hs, Option.bind_some, hp]

theorem does_listenerEvent (now : Micros) (s : PapServer) (e : AtpEvent) :
    Does s (handleListenerEvent now s e) (s.listenerAct e).toList := by
  cases e with
  | request source tid userBytes data bitmap xo =>
    simp only [handleListenerEvent, listenerAct]
    rcases PapPacket.parseFromAtp userBytes data with err | pap
    · exact SameAccount.does ⟨rfl, rfl, rfl, rfl⟩
    dsimp only
    rcases hf : pap.function with _ | _ | _ | _ | _ | _ | _ | _ | _
    case openConn =>
      simp only [true_and]
      by_cases hshort : pap.data.length < 2
      · rw [if_pos hshort, if_neg (Nat.not_le.2 hshort)]
        exact SameAccount.does ⟨rfl, rfl, rfl, rfl⟩
      rw [if_neg hshort, if_pos (Nat.le_of_not_lt hshort)]
      split_ifs with hbusy
      · have hsame := sameAccount_respondPap s true source tid
          (s.openConnReply pap.connectionId 0 [0xFF, 0xFF]) now
        refine ⟨[], by rw [hsame.events, List.append_nil], fun used => ?_⟩
        have hstay : (s.account used).step PULL_CAPACITY .opens = s.account used := by
          simp only [Account.step, account, hbusy, if_true]
        exact (hsame.account_eq _).trans hstay.symm
      · have hopen : (s.account 0).opened = false := Bool.eq_false_iff.2 hbusy
        refine ⟨_, rfl, fun used => ?_⟩
        show _ = (s.account used).step PULL_CAPACITY .opens
        simp only [Account.step, account, hbusy]
        rfl
    case sendStatus => exact (sameAccount_respondPap s true source tid _ now).does
    all_goals exact SameAccount.does ⟨rfl, rfl, rfl, rfl⟩
  | response handle userBytes data => exact SameAccount.does ⟨rfl, rfl, rfl, rfl⟩
  | requestFailed handle => exact SameAccount.does ⟨rfl, rfl, rfl, rfl⟩

theorem sameAccount_connRequest {s : PapServer} {session : PapSession}
    (hs : s.session = some session) (now : Micros) (source : ServiceAddress) (tid : UInt16)
    (bitmap : UInt8) {pap : PapPacket} (hf : pap.function ≠ .closeConn) :
    SameAccount s (s.handleConnRequest now session source tid bitmap pap) := by
  unfold handleConnRequest
  rcases hfun : pap.function with _ | _ | _ | _ | _ | _ | _ | _ | _
  case closeConn => exact absurd hfun hf
  case sendData =>
    dsimp only
    split_ifs
    · split
      · exact sameAccount_session hs rfl
      · exact sameAccount_session hs rfl
    · exact sameAccount_session hs rfl
  all_goals exact sameAccount_session hs rfl

theorem does_closeConn (s : PapServer) (session : PapSession) (now : Micros)
    (source : ServiceAddress) (tid : UInt16) (bitmap : UInt8) {pap : PapPacket}
    (hf : pap.function = .closeConn) :
    Does s (s.handleConnRequest now session source tid bitmap pap) [.closes] := by
  simp only [handleConnRequest, hf]
  exact ⟨[.connectionClosed], rfl, fun used => rfl⟩

theorem does_pullReply {s : PapServer} {session : PapSession} (hs : s.session = some session)
    (now : Micros) (pap : PapPacket) :
    Does s (s.handlePullReply now { session with outstandingPull := none } pap)
      [.settle pap.data.length] := by
  unfold handlePullReply
  refine ⟨_, List.append_assoc _ _ _, fun used => ?_⟩
  have hbytes : printed ((if pap.data.isEmpty then [] else [PapEvent.toPrinter pap.data]) ++
      if (pap.eof && decide (session.jobBytes + pap.data.length > 0)) = true then [PapEvent.jobEof]
      else []) = pap.data.length := by
    have hprint : printed (if pap.data.isEmpty then [] else [PapEvent.toPrinter pap.data]) =
        pap.data.length := by
      split_ifs with hempty
      · rw [List.isEmpty_iff.1 hempty]; rfl
      · exact Nat.add_zero _
    have heof : ∀ b : Bool, printed (if b = true then [PapEvent.jobEof] else []) = 0 := by
      intro b
      cases b <;> rfl
    rw [printed_append, hprint, heof, Nat.add_zero]
  rw [hbytes]
  simp only [run_cons, run_nil, Account.step, account, pull, hs, Option.isSome_some,
    Option.bind_some, Option.isSome_none]

theorem does_connEvent (now : Micros) (s : PapServer) (e : AtpEvent) :
    Does s (handleConnEvent now s e) (s.connAct e).toList := by
  cases e with
  | request source tid userBytes data bitmap xo =>
    simp only [handleConnEvent, connAct]
    rcases PapPacket.parseFromAtp userBytes data with err | pap
    · exact SameAccount.does ⟨rfl, rfl, rfl, rfl⟩
    rcases hs : s.session with _ | session
    · exact SameAccount.does ⟨rfl, rfl, rfl, rfl⟩
    dsimp only
    by_cases hid : pap.connectionId = session.connId
    · simp only [hid, not_true, if_false, true_and, ne_eq]
      split_ifs with hf
      · exact does_closeConn s session now source tid bitmap hf
      · exact (sameAccount_connRequest hs now source tid bitmap hf).does
    · simp only [hid, ne_eq, not_false_eq_true, if_true, false_and, if_false]
      exact SameAccount.does ⟨rfl, rfl, rfl, rfl⟩
  | response handle userBytes data =>
    simp only [handleConnEvent, connAct, replyBytes]
    rcases hs : s.session with _ | session
    · simp only [pull, hs, Option.bind_none, reduceCtorEq, if_false]
      exact SameAccount.does ⟨rfl, rfl, rfl, rfl⟩
    have hpull : s.pull = session.outstandingPull := by rw [pull, hs]; rfl
    simp only [hpull]
    by_cases hp : session.outstandingPull = some handle
    · have hquiet : Does s
          { s with session := some { session with outstandingPull := none } } [.settle 0] := by
        refine ⟨[], (List.append_nil _).symm, fun used => ?_⟩
        simp only [run_cons, run_nil, Account.step, account, pull, hs, Option.isSome_some,
          Option.bind_some, Option.isSome_none]
        rfl
      simp only [hp, ne_eq, not_true, if_false, if_true]
      rcases PapPacket.parseFromAtp userBytes data with err | pap
      · exact hquiet
      dsimp only
      by_cases hf : pap.function = .data
      · simp only [hf, not_true, if_false, if_true]
        exact does_pullReply hs now pap
      · simp only [hf, not_false_eq_true, if_true, if_false]
        exact hquiet
    · simp only [hp, ne_eq, not_false_eq_true, if_true, if_false]
      exact SameAccount.does ⟨rfl, rfl, rfl, rfl⟩
  | requestFailed handle =>
    simp only [handleConnEvent, connAct]
    rcases hs : s.session with _ | session
    · simp only [pull, hs, Option.bind_none, reduceCtorEq, if_false]
      exact SameAccount.does ⟨rfl, rfl, rfl, rfl⟩
    have hpull : s.pull = session.outstandingPull := by rw [pull, hs]; rfl
    simp only [hpull]
    split_ifs with hp
    · refine ⟨[], (List.append_nil _).symm, fun used => ?_⟩
      simp only [Option.toList_some, run_cons, run_nil, Account.step, account, pull, hs,
        Option.isSome_some, Option.bind_some, Option.isSome_none]
      rfl
    · exact SameAccount.does ⟨rfl, rfl, rfl, rfl⟩

/-- A pull is a promise, and hands out nothing. -/
theorem account_maybePull {s s' : PapServer} {now : Micros} (h : s.maybePull now = some s') :
    s'.events = s.events ∧
      ∀ used, s'.account used = (s.account used).step PULL_CAPACITY .issue := by
  unfold maybePull at h
  rcases hs : s.session with _ | session
  · simp only [hs, Option.some.injEq] at h
    subst h
    refine ⟨rfl, fun used => ?_⟩
    have hno : ¬ (s.account used).WouldIssue PULL_CAPACITY := by
      rintro ⟨ho, -⟩
      rw [account, hs] at ho
      cases ho
    rw [Account.step, if_neg hno]
  simp only [hs] at h
  have hpull : s.pull = session.outstandingPull := by rw [pull, hs]; rfl
  split_ifs at h with hwait
  · obtain rfl := Option.some.inj h
    refine ⟨rfl, fun used => ?_⟩
    have hno : ¬ (s.account used).WouldIssue PULL_CAPACITY := by
      rintro ⟨-, hout, hcap⟩
      simp only [account, hpull] at hout hcap
      rcases hwait with hwait | hwait
      · rw [hout] at hwait; cases hwait
      · omega
    rw [Account.step, if_neg hno]
  · obtain ⟨⟨handle, connEp⟩, -, rfl⟩ := Option.map_eq_some_iff.1 h
    refine ⟨rfl, fun used => ?_⟩
    have hyes : (s.account used).WouldIssue PULL_CAPACITY := by
      rw [not_or, Nat.not_lt] at hwait
      refine ⟨by simp only [account, hs]; rfl, ?_, hwait.2⟩
      simp only [account, hpull]
      exact Bool.eq_false_iff.2 hwait.1
    rw [Account.step, if_pos hyes]
    simp only [account, hs]
    rfl

theorem does_maybePull {s s' : PapServer} {now : Micros} (h : s.maybePull now = some s') :
    Does s s' [.issue] := by
  obtain ⟨he, hacct⟩ := account_maybePull h
  exact ⟨[], by rw [he, List.append_nil], hacct⟩

/-! ## The calls -/

/-- What the events that the two ATP endpoints report mean for the account. -/
def drainActs (s : PapServer) (now : Micros) : List Account.Act :=
  trace (handleListenerEvent now) (fun s e => (s.listenerAct e).toList)
    { s with listener := { s.listener with events := [] } } s.listener.events ++
  (trace (handleConnEvent now) (fun s e => (s.connAct e).toList)
    { s.drainListener now with
      connEp := { (s.drainListener now).connEp with events := [] } }
    (s.drainListener now).connEp.events ++ [.issue])

theorem does_drain {s s' : PapServer} {now : Micros} (h : s.drain now = some s') :
    Does s s' (s.drainActs now) := by
  have hlistener : Does s (s.drainListener now) _ :=
    (SameAccount.does ⟨rfl, rfl, rfl, rfl⟩).trans (does_run (does_listenerEvent now)
      { s with listener := { s.listener with events := [] } } s.listener.events)
  have hconn : Does (s.drainListener now) ((s.drainListener now).drainConn now) _ :=
    (SameAccount.does ⟨rfl, rfl, rfl, rfl⟩).trans (does_run (does_connEvent now)
      { s.drainListener now with connEp := { (s.drainListener now).connEp with events := [] } }
      (s.drainListener now).connEp.events)
  have hpull := (sameAccount_answerRead ((s.drainListener now).drainConn now) now).does.trans
    (does_maybePull h)
  exact hlistener.trans (hconn.trans hpull)

/-- The session's own timer runs out. -/
def pollActs (s : PapServer) (now : Micros) : List Account.Act :=
  match s.session with
  | none => []
  | some session => if now - session.lastActivity > INACTIVITY_TIMEOUT then [.closes] else []

theorem does_pollSession {s s' : PapServer} {now : Micros} (h : s.pollSession now = some s') :
    Does s s' (s.pollActs now) := by
  unfold pollSession at h
  unfold pollActs
  rcases hs : s.session with _ | session
  · simp only [hs, Option.some.injEq] at h
    subst h
    exact SameAccount.does ⟨rfl, rfl, rfl, rfl⟩
  simp only [hs] at h
  dsimp only
  by_cases hgone : now - session.lastActivity > INACTIVITY_TIMEOUT
  · rw [if_pos hgone] at h ⊢
    obtain rfl := Option.some.inj h
    exact ⟨[.connectionClosed], rfl, fun used => rfl⟩
  rw [if_neg hgone] at h ⊢
  split_ifs at h with htickle
  · obtain ⟨connEp, -, rfl⟩ := Option.map_eq_some_iff.1 h
    exact SameAccount.does ⟨rfl, by rw [hs]; rfl, by simp only [pull, hs]; rfl, rfl⟩
  · obtain rfl := Option.some.inj h
    exact SameAccount.does ⟨rfl, rfl, rfl, rfl⟩

end PapServer

/-- What the owner and the network can do. -/
inductive PapCall where
  | setStatus (status : Bytes)
  | setSinkCredit (bytes : ℕ) (now : Micros)
  | queueOutput (data : Bytes) (now : Micros)
  | endOutput (now : Micros)
  | handleDatagram (localSocket : UInt8) (src : ServiceAddress) (payload : Bytes) (now : Micros)
  | poll (now : Micros)
  | pollTransmit
  | pollEvent

namespace PapServer

/-- Anything that its embedder does with a server. -/
def call (s : PapServer) : PapCall → Option PapServer
  | .setStatus status => some (s.setStatus status)
  | .setSinkCredit bytes now => s.setSinkCredit bytes now
  | .queueOutput data now => some (s.queueOutput data now)
  | .endOutput now => some (s.endOutput now)
  | .handleDatagram localSocket src payload now => s.handleDatagram localSocket src payload now
  | .poll now => s.poll now
  | .pollTransmit => some s.pollTransmit.2
  | .pollEvent => some s.pollEvent.2

/-- The server once a datagram has reached its ATP endpoint. -/
def received (s : PapServer) (localSocket : UInt8) (src : ServiceAddress) (payload : Bytes) :
    PapServer :=
  if localSocket = s.listener.localSocket then
    { s with listener := s.listener.handleDatagram src payload }
  else if localSocket = s.connEp.localSocket then
    { s with connEp := s.connEp.handleDatagram src payload }
  else s

/-- The server once the timers of its ATP endpoints have run. -/
def ticked (s : PapServer) (now : Micros) : PapServer :=
  { s with listener := s.listener.poll now, connEp := s.connEp.poll now }

/-- What a call means for the credit account. -/
def acts (s : PapServer) : PapCall → List Account.Act
  | .setSinkCredit bytes _ => [.report bytes, .issue]
  | .handleDatagram localSocket src payload now =>
    (s.received localSocket src payload).drainActs now
  | .poll now =>
    (s.ticked now).drainActs now ++
      match (s.ticked now).drain now with
      | some s => s.pollActs now ++ [.issue]
      | none => []
  | _ => []

theorem does_handleDatagram {s s' : PapServer} {localSocket : UInt8} {src : ServiceAddress}
    {payload : Bytes} {now : Micros} (h : s.handleDatagram localSocket src payload now = some s') :
    Does s s' ((s.received localSocket src payload).drainActs now) := by
  have hdrain : (s.received localSocket src payload).drain now = some s' := by
    rw [← h]
    unfold handleDatagram received
    split_ifs <;> rfl
  have hsame : SameAccount s (s.received localSocket src payload) := by
    unfold received
    split_ifs <;> exact ⟨rfl, rfl, rfl, rfl⟩
  exact hsame.does.trans (does_drain hdrain)

theorem does_poll {s s' : PapServer} {now : Micros} (h : s.poll now = some s') :
    Does s s' (s.acts (.poll now)) := by
  unfold poll at h
  change (s.ticked now).drain now >>= _ = some s' at h
  obtain ⟨s₁, hdrain, h⟩ := Option.bind_eq_some_iff.1 h
  obtain ⟨s₂, hsession, hpull⟩ := Option.bind_eq_some_iff.1 h
  have hsame : SameAccount s (s.ticked now) := ⟨rfl, rfl, rfl, rfl⟩
  have hall := ((hsame.does.trans (does_drain hdrain)).trans (does_pollSession hsession)).trans
    ((sameAccount_answerRead s₂ now).does.trans (does_maybePull hpull))
  simp only [acts, hdrain]
  simpa only [List.nil_append, List.append_assoc] using hall

end PapServer

/-! ## Runs -/

/-- A server and the bytes it has handed out since the last report. -/
structure PapHost where
  server : PapServer
  used : ℕ

namespace PapHost

/-- Nothing was handed out. -/
def new (listenerSocket connSocket : UInt8) : PapHost :=
  ⟨PapServer.new listenerSocket connSocket, 0⟩

/-- A call that never returns changes nothing. -/
def step (h : PapHost) (c : PapCall) : PapHost :=
  match h.server.call c with
  | none => h
  | some server =>
    { server
      used := match c with
        | .setSinkCredit _ _ => 0
        -- taking an event hands out nothing new: the subtraction is zero
        | _ => h.used + (printed server.events - printed h.server.events) }

/-- The credit account of the host. -/
def account (h : PapHost) : Account := h.server.account h.used

/-- What is left of the last report covers each promise of the call, and it reports no less than a
    promise already made. -/
def Covered (h : PapHost) (c : PapCall) : Prop :=
  Along (Account.step PULL_CAPACITY) (Account.Covered PULL_CAPACITY) h.account (h.server.acts c)

instance (h : PapHost) (c : PapCall) : Decidable (h.Covered c) := by
  unfold Covered; infer_instance

variable {h : PapHost}

theorem printed_tail_le (events : List PapEvent) : printed events.tail ≤ printed events := by
  cases events with
  | nil => exact Nat.le_refl _
  | cons e events => exact Nat.le_add_left _ _

theorem sameAccount_output (s : PapServer) (now : Micros) (f : PapSession → PapSession)
    (hf : ∀ session, (f session).outstandingPull = session.outstandingPull) :
    s.SameAccount (({ s with session := s.session.map f } : PapServer).answerRead now) := by
  have hread := PapServer.sameAccount_answerRead { s with session := s.session.map f } now
  refine ⟨hread.credit, ?_, ?_, hread.events⟩
  · rw [hread.opened, Option.isSome_map]
  · rw [hread.pull, PapServer.pull, PapServer.pull]
    rcases s.session with _ | session
    · rfl
    · exact hf session

theorem sameAccount_pollTransmit (s : PapServer) : s.SameAccount s.pollTransmit.2 := by
  unfold PapServer.pollTransmit
  rcases s.listener.pollTransmit with ⟨_ | ⟨dest, payload⟩, listener⟩
  · rcases s.connEp.pollTransmit with ⟨_ | ⟨dest, payload⟩, connEp⟩
    · exact ⟨rfl, rfl, rfl, rfl⟩
    · exact ⟨rfl, rfl, rfl, rfl⟩
  · exact ⟨rfl, rfl, rfl, rfl⟩

theorem account_step {c : PapCall} {server : PapServer} (hc : h.server.call c = some server) :
    (h.step c).account = run (Account.step PULL_CAPACITY) h.account (h.server.acts c) := by
  -- the bytes counted are those of the events that the call adds
  have hdoes : ∀ {acts}, PapServer.Does h.server server acts →
      server.account (h.used + (printed server.events - printed h.server.events)) =
        run (Account.step PULL_CAPACITY) h.account acts := by
    rintro acts ⟨new, he, hacct⟩
    rw [he, printed_append, Nat.add_sub_cancel_left]
    exact hacct h.used
  have hsame : PapServer.SameAccount h.server server →
      server.account (h.used + (printed server.events - printed h.server.events)) = h.account :=
    fun hs => hdoes hs.does
  simp only [step, hc]
  cases c with
  | setStatus status =>
    obtain rfl := Option.some.inj hc
    exact hsame ⟨rfl, rfl, rfl, rfl⟩
  | setSinkCredit bytes now => exact (PapServer.account_maybePull hc).2 0
  | queueOutput data now =>
    obtain rfl := Option.some.inj hc
    exact hsame (sameAccount_output h.server now _ fun _ => rfl)
  | endOutput now =>
    obtain rfl := Option.some.inj hc
    exact hsame (sameAccount_output h.server now _ fun _ => rfl)
  | handleDatagram localSocket src payload now => exact hdoes (PapServer.does_handleDatagram hc)
  | poll now => exact hdoes (PapServer.does_poll hc)
  | pollTransmit =>
    obtain rfl := Option.some.inj hc
    exact hsame (sameAccount_pollTransmit h.server)
  | pollEvent =>
    obtain rfl := Option.some.inj hc
    have hzero : printed h.server.events.tail - printed h.server.events = 0 :=
      Nat.sub_eq_zero_of_le (printed_tail_le _)
    show h.server.account (h.used + (printed h.server.events.tail - printed h.server.events)) = _
    rw [hzero]
    rfl

/-- **A covered call keeps the account safe.** -/
theorem safe_step {c : PapCall} (hs : h.account.Safe PULL_CAPACITY) (hok : h.Covered c) :
    (h.step c).account.Safe PULL_CAPACITY := by
  rcases hc : h.server.call c with _ | server
  · simp only [step, hc]
    exact hs
  · rw [account_step hc]
    exact Account.safe_run hs hok

/-- **The sink is not overrun.**  In every run whose calls are all covered, the
    bytes handed out since the last report do not exceed it, and a pull is in
    flight only when its whole reply still fits. -/
theorem sink_not_overrun (listenerSocket connSocket : UInt8) {cs : List PapCall}
    (hok : Along step Covered (new listenerSocket connSocket) cs) :
    (run step (new listenerSocket connSocket) cs).used ≤
        (run step (new listenerSocket connSocket) cs).server.sinkCredit ∧
      ((run step (new listenerSocket connSocket) cs).server.pull.isSome →
        (run step (new listenerSocket connSocket) cs).used + PULL_CAPACITY ≤
          (run step (new listenerSocket connSocket) cs).server.sinkCredit) := by
  have hstart : (new listenerSocket connSocket).account.Safe PULL_CAPACITY := Nat.le_refl 0
  have hstep : ∀ (h : PapHost) (c : PapCall), h.account.Safe PULL_CAPACITY → h.Covered c →
      (h.step c).account.Safe PULL_CAPACITY := fun _ _ hs hok => safe_step hs hok
  have hsafe := inv_run step hstep hstart hok
  exact ⟨hsafe.used_le, fun hout => hsafe.room hout⟩

/-- The client of the runs below, and its OpenConn. -/
def aClient : ServiceAddress := ⟨0, 10, 70⟩

/-- A client opens a connection. -/
def openDatagram : Bytes :=
  let (userBytes, data) := ({ connectionId := 70
                              function := .openConn
                              sequenceNum := 0
                              eof := false
                              data := [70, 8, 0, 0] } : PapPacket).toAtpParts
  AtpEndpoint.requestBytes true 0x01 1 userBytes data

/-- The datagrams of a reply of `n` bytes to the pull with TID `tid`. -/
def replyDatagrams (tid : UInt16) (n : ℕ) : List Bytes :=
  let (userBytes, data) := ({ connectionId := 70
                              function := .data
                              sequenceNum := 0
                              eof := false
                              data := List.replicate n 0 } : PapPacket).toAtpParts
  AtpEndpoint.frame tid (AtpEndpoint.split userBytes data PAP_MAX_DATA_PER_PACKET)

/-- A session with room for two full replies, and one short reply. -/
def roomyRun : List PapCall :=
  [.setSinkCredit 8192 0, .handleDatagram 190 aClient openDatagram 0] ++
    (replyDatagrams 1 3).map fun p => .handleDatagram 191 aClient p 1

theorem sink_not_overrun_roomyRun :
    Along step Covered (new 190 191) roomyRun ∧
    (run step (new 190 191) roomyRun).used = 3 ∧
    (run step (new 190 191) roomyRun).used ≤
      (run step (new 190 191) roomyRun).server.sinkCredit :=
  have hok : Along step Covered (new 190 191) roomyRun := by decide
  ⟨hok, by decide, (sink_not_overrun 190 191 hok).1⟩

/-- A session with room for one full reply: a reply of one byte, then, to the
    pull issued on it, a full one. -/
def overrunRun : List PapCall :=
  [.setSinkCredit PULL_CAPACITY 0, .handleDatagram 190 aClient openDatagram 0] ++
    (replyDatagrams 1 1).map (fun p => .handleDatagram 191 aClient p 1) ++
    (replyDatagrams 2 PULL_CAPACITY).map fun p => .handleDatagram 191 aClient p 2

/-- One byte more than was ever reported is handed out, in replies of at most
    `PULL_CAPACITY` bytes. -/
theorem overrunRun_overruns :
    (run step (new 190 191) overrunRun).server.sinkCredit = 4096 ∧
    (run step (new 190 191) overrunRun).used = 4097 ∧
    PULL_CAPACITY = 4096 := by
  refine ⟨?_, ?_, ?_⟩ <;> decide +kernel

end PapHost

end TailTalk
