/-
  The timers of the printer roles, in every state that a run reaches.

  The two exceptions at a deadline come from one slip, an expiry test that is
  strict (`>`) where the deadline is the very moment it compares with.
-/
import TailTalk.Pap.Timers
import TailTalk.StyleWriter.Timers

namespace TailTalk

open Lib

namespace PapHost

theorem settled_step (h : PapHost) (c : PapCall) (hs : h.server.Settled) :
    (h.step c).server.Settled := by
  unfold step
  rcases hc : h.server.call c with _ | server
  · exact hs
  · exact PapServer.settled_call hs hc

theorem settled_run (listenerSocket connSocket : UInt8) (cs : List PapCall) :
    (run step (new listenerSocket connSocket) cs).server.Settled :=
  inv_run step (fun h c hs _ => settled_step h c hs)
    (PapServer.settled_new listenerSocket connSocket) (along_true step cs)

end PapHost

/-- **Exactly when a poll makes progress.** In every state that a PAP server or a StyleWriter role
    reaches, a poll leaves no deadline or one that is yet to come, unless the session's inactivity
    or the handshake's wait ends at that very moment, or the poll looks for a number that it never
    finds. -/
theorem timers_progress_iff (listenerSocket connSocket : UInt8) (calls : List PapCall)
    {controlSocket : UInt8} {seed : UInt32} {fastClock : FastClock} {inputs : List RoleInput}
    {session : RoleSession}
    (hrun : run (partialStep RoleSession.step)
      (some (.start controlSocket seed fastClock)) inputs = some session) (now : Micros) :
    let server := (run PapHost.step (.new listenerSocket connSocket) calls).server
    ((∃ s', server.poll now = some s' ∧ ∀ d ∈ s'.nextDeadline, now < d) ↔
      ¬ server.AtInactivity now ∧ ¬ server.TidsSpent now) ∧
    ((∃ r', session.role.poll now = some r' ∧ ∀ d ∈ r'.nextDeadline, now < d) ↔
      ¬ session.role.AtHandshake now ∧ ¬ session.role.DialStuck now) :=
  ⟨PapServer.poll_ahead_iff (PapHost.settled_run listenerSocket connSocket calls),
    StyleWriterRole.poll_ahead_iff (RoleSession.handled_run hrun)⟩

/-- A client opens a session and is not heard of again. -/
def idleCalls : List PapCall :=
  [.handleDatagram 190 PapHost.aClient PapHost.openDatagram 0, .poll 30000000, .poll 60000000,
    .poll 90000000]

/-- A Mac has its job accepted and is not heard of again. -/
def idleInputs : List RoleInput :=
  (acceptedJob 7).take 2 ++ [.poll 3000000, .poll 6000000, .poll 9000000, .poll 12000000]

theorem timers_progress_iff_idle :
    ∃ session, run (partialStep RoleSession.step) (some (.start 129 5 .unsupported)) idleInputs =
      some session ∧
    ¬ (∃ s', (run PapHost.step (.new 190 191) idleCalls).server.poll 120000000 = some s' ∧
      ∀ d ∈ s'.nextDeadline, 120000000 < d) ∧
    ((∃ r', session.role.poll 15000000 = some r' ∧ ∀ d ∈ r'.nextDeadline, 15000000 < d) ↔
      ¬ session.role.AtHandshake 15000000 ∧ ¬ session.role.DialStuck 15000000) := by
  have hruns : (run (partialStep RoleSession.step) (some (.start 129 5 .unsupported))
      idleInputs).isSome := by
    decide
  obtain ⟨session, hrun⟩ := Option.isSome_iff_exists.1 hruns
  have hinactive : (run PapHost.step (.new 190 191) idleCalls).server.AtInactivity 120000000 :=
    ⟨_, rfl, rfl⟩
  refine ⟨session, hrun, ?_, (timers_progress_iff 190 191 idleCalls hrun 15000000).2⟩
  rw [(timers_progress_iff 190 191 idleCalls hrun 120000000).1]
  exact fun h => h.1 hinactive

/-- Polled exactly at its deadline, either role keeps it: its driver spins. -/
theorem idle_spins :
    (run PapHost.step (.new 190 191) idleCalls).server.nextDeadline = some 120000000 ∧
    ((run PapHost.step (.new 190 191) idleCalls).server.poll 120000000).map (·.nextDeadline) =
      some (some 120000000) ∧
    ∃ session, run (partialStep RoleSession.step) (some (.start 129 5 .unsupported)) idleInputs =
      some session ∧ session.role.nextDeadline = some 15000000 ∧
      (session.role.poll 15000000).map (·.nextDeadline) = some (some 15000000) := by
  have hrole : (run (partialStep RoleSession.step) (some (.start 129 5 .unsupported))
      idleInputs).map (fun s =>
        (s.role.nextDeadline, (s.role.poll 15000000).map (·.nextDeadline))) =
      some (some 15000000, some (some 15000000)) := by
    decide
  obtain ⟨session, hrun, hdeadlines⟩ := Option.map_eq_some_iff.1 hrole
  obtain ⟨hbefore, hafter⟩ := Prod.mk.inj hdeadlines
  exact ⟨by decide, by decide, session, hrun, hbefore, hafter⟩

end TailTalk
