/-
  How much job data a printer holds.

  What is promised out of the window of a port is an account of `Lib.Window`: a
  PAP pull or the receive window of an ADSP connection gives the client what was
  free at the last report, and the reply or data packet that comes with it in
  the same call is not counted yet.
-/
import TailTalk.Pap.Credit
import TailTalk.Printer.Port
import TailTalk.StyleWriter.Spool

namespace TailTalk

open Lib

/-! ## Metered roles -/

/-- The calls of a role that hand it something. -/
inductive RoleCall where
  | handleDatagram (dst : UInt8) (src : ServiceAddress) (payload : Bytes) (now : Micros)
  | poll (now : Micros)
  | pollTransmit
  | setCredit (bytes : ℕ) (now : Micros)
  | printerInput (data : Bytes) (now : Micros)

/-- Anything that the port does with a role. -/
def Role.call {ρ : Type} (R : Role ρ) (r : ρ) : RoleCall → Option ρ
  | .handleDatagram dst src payload now => R.handleDatagram r dst src payload now
  | .poll now => R.poll r now
  | .pollTransmit => some (R.pollTransmit r)
  | .setCredit bytes now => R.setCredit r bytes now
  | .printerInput data now => some (R.printerInput r data now)

/-- The job bytes of an event. -/
def RoleEvent.bytes : RoleEvent → ℕ
  | .toPrinter data => data.length
  | _ => 0

/-- What some actions bring. -/
def unitsOf {ι : Type} (as : List (Window.Act ι)) : ℕ := (as.map Window.Act.units).sum

@[simp] theorem unitsOf_nil {ι : Type} : unitsOf ([] : List (Window.Act ι)) = 0 := rfl

@[simp] theorem unitsOf_append {ι : Type} (as bs : List (Window.Act ι)) :
    unitsOf (as ++ bs) = unitsOf as + unitsOf bs := by
  rw [unitsOf, List.map_append, List.sum_append]
  rfl

/-- What a role does to the window in front of its port. -/
structure Meter {ρ : Type} (R : Role ρ) (ι : Type) where
  /-- job bytes among the events that wait -/
  waiting : ρ → ℕ
  /-- what a call does to the window -/
  acts : ρ → RoleCall → List (Window.Act ι)
  incoming : ∀ r c, ∀ a ∈ acts r c, a.Incoming
  waiting_call : ∀ r c r', R.call r c = some r' → waiting r' ≤ waiting r + unitsOf (acts r c)
  waiting_pollEvent : ∀ r e r', R.pollEvent r = some (e, r') → e.bytes + waiting r' ≤ waiting r
  waiting_done : ∀ r, R.pollEvent r = none → waiting r = 0
  /-- being told of room brings nothing -/
  quiet : ∀ r bytes now, unitsOf (acts r (.setCredit bytes now)) = 0

/-! ## PAP -/

namespace PapServer

/-- The credit account as the window has it: an answered pull brings its bytes, and the next gives
    the client another window. -/
def windowAct (t : Account) : Account.Act → List (Window.Act Unit)
  | .settle k => [.take () k]
  | .issue => if t.WouldIssue PULL_CAPACITY then [.give fun _ => false] else []
  | _ => []

/-- The actions on the credit account, on the window. -/
def windowActs (t : Account) (as : List Account.Act) : List (Window.Act Unit) :=
  trace (Account.step PULL_CAPACITY) windowAct t as

theorem incoming_windowAct (t : Account) (b : Account.Act) :
    ∀ a ∈ windowAct t b, a.Incoming := by
  intro a ha
  cases b with
  | settle k =>
    obtain rfl := List.mem_singleton.1 ha
    trivial
  | issue =>
    simp only [windowAct] at ha
    split_ifs at ha with hissue
    · obtain rfl := List.mem_singleton.1 ha
      trivial
    · cases ha
  | report n => cases ha
  | opens => cases ha
  | closes => cases ha

theorem incoming_windowActs (t : Account) (as : List Account.Act) :
    ∀ a ∈ windowActs t as, a.Incoming := by
  induction as generalizing t with
  | nil => exact fun a ha => nomatch ha
  | cons b as ih =>
    intro a ha
    rcases List.mem_append.1 ha with ha | ha
    · exact incoming_windowAct t b a ha
    · exact ih _ a ha

theorem used_run (t : Account) (as : List Account.Act) :
    (run (Account.step PULL_CAPACITY) t as).used ≤ t.used + unitsOf (windowActs t as) := by
  induction as generalizing t with
  | nil => exact Nat.le_refl _
  | cons a as ih =>
    have hone : (t.step PULL_CAPACITY a).used ≤ t.used + unitsOf (windowAct t a) := by
      cases a with
      | report n => exact Nat.zero_le _
      | opens =>
        simp only [Account.step]
        split_ifs <;> exact Nat.le_refl _
      | closes => exact Nat.le_refl _
      | settle k => exact Nat.le_refl _
      | issue =>
        simp only [Account.step]
        split_ifs <;> exact Nat.le_add_right _ _
    have hrest := ih (t.step PULL_CAPACITY a)
    rw [run_cons]
    show _ ≤ t.used + unitsOf (windowAct t a ++ windowActs (t.step PULL_CAPACITY a) as)
    rw [unitsOf_append]
    omega

/-- The same call of a PAP server. -/
def ofRoleCall : RoleCall → PapCall
  | .handleDatagram dst src payload now => .handleDatagram dst src payload now
  | .poll now => .poll now
  | .pollTransmit => .pollTransmit
  | .setCredit bytes now => .setSinkCredit bytes now
  | .printerInput data now => .queueOutput data now

/-- What a call does to the window. -/
def meterActs (s : PapServer) (c : RoleCall) : List (Window.Act Unit) :=
  windowActs (s.account 0) (s.acts (ofRoleCall c))

theorem printed_call {s s' : PapServer} {c : RoleCall} (h : s.call (ofRoleCall c) = some s') :
    printed s'.events ≤ printed s.events + unitsOf (s.meterActs c) := by
  by_cases hreport : ∃ bytes now, c = .setCredit bytes now
  · obtain ⟨bytes, now, rfl⟩ := hreport
    rw [(account_maybePull h).1]
    exact Nat.le_add_right _ _
  · have hacct := congrArg Account.used (PapHost.account_step (h := ⟨s, 0⟩) h)
    have hused := used_run (s.account 0) (s.acts (ofRoleCall c))
    have hstep : ((PapHost.mk s 0).step (ofRoleCall c)).account.used =
        0 + (printed s'.events - printed s.events) := by
      unfold PapHost.step
      simp only [h]
      cases c with
      | setCredit bytes now => exact absurd ⟨bytes, now, rfl⟩ hreport
      | handleDatagram dst src payload now => rfl
      | poll now => rfl
      | pollTransmit => rfl
      | printerInput data now => rfl
    have hnew : 0 + (printed s'.events - printed s.events) =
        (run (Account.step PULL_CAPACITY) (s.account 0) (s.acts (ofRoleCall c))).used :=
      hstep.symm.trans hacct
    have hzero : (s.account 0).used = 0 := rfl
    unfold meterActs
    omega

theorem quiet_setCredit (s : PapServer) (bytes : ℕ) (now : Micros) :
    unitsOf (s.meterActs (.setCredit bytes now)) = 0 := by
  show unitsOf (windowActs (s.account 0) [.report bytes, .issue]) = 0
  simp only [windowActs, trace, windowAct]
  split_ifs <;> rfl

theorem printed_head {s : PapServer} {e : PapEvent} (h : s.events.head? = some e) :
    (roleEvent e).bytes + printed s.events.tail = printed s.events := by
  obtain ⟨events, hevents⟩ := List.head?_eq_some_iff.1 h
  rw [hevents]
  cases e <;> simp [printed, roleEvent, RoleEvent.bytes]

/-- What a PAP server does to the window. -/
def meter : Meter role Unit where
  waiting s := printed s.events
  acts := meterActs
  incoming s c := incoming_windowActs _ _
  waiting_call s c s' h := printed_call (by cases c <;> exact h)
  waiting_pollEvent := by
    intro s e s' h
    obtain ⟨e', he, heq⟩ := Option.map_eq_some_iff.1 h
    obtain ⟨rfl, rfl⟩ := Prod.mk.inj heq
    exact Nat.le_of_eq (printed_head he)
  waiting_done := by
    intro s h
    rw [List.head?_eq_none_iff.1 (Option.map_eq_none_iff.1 h)]
    rfl
  quiet := quiet_setCredit

end PapServer

/-! ## ADSP -/

namespace StyleWriterRole

/-- What a call does to the window. -/
def meterActs (s : StyleWriterRole) (c : RoleCall) : List (Window.Act UInt16) :=
  let advertised := ((role.call s c).map s.advertises).getD []
  match c with
  | .handleDatagram _ src payload now =>
    { s with endpoint := s.endpoint.handleDatagram src payload now }.drainWindow now ++ advertised
  | .poll now => { s with endpoint := s.endpoint.poll now }.drainWindow now ++ advertised
  | .setCredit _ _ | .printerInput _ _ => advertised
  | .pollTransmit => []

theorem incoming_meterActs (s : StyleWriterRole) (c : RoleCall) :
    ∀ a ∈ s.meterActs c, a.Incoming := by
  have hadv : ∀ a ∈ ((role.call s c).map s.advertises).getD [], a.Incoming := by
    intro a ha
    rcases hc : role.call s c with _ | s'
    · rw [hc] at ha
      cases ha
    · rw [hc] at ha
      exact incoming_advertises a ha
  intro a ha
  cases c with
  | handleDatagram dst src payload now =>
    rcases List.mem_append.1 ha with ha | ha
    · exact incoming_trace _ _ a ha
    · exact hadv a ha
  | poll now =>
    rcases List.mem_append.1 ha with ha | ha
    · exact incoming_trace _ _ a ha
    · exact hadv a ha
  | pollTransmit => cases ha
  | setCredit bytes now => exact hadv a ha
  | printerInput data now => exact hadv a ha

theorem spooled_call {s s' : StyleWriterRole} {c : RoleCall} (h : role.call s c = some s') :
    spooled s'.events ≤ spooled s.events + unitsOf (s.meterActs c) := by
  unfold meterActs
  cases c with
  | handleDatagram dst src payload now =>
    rw [unitsOf_append]
    exact Nat.le_trans (spooled_drain h) (Nat.add_le_add_left (Nat.le_add_right _ _) _)
  | poll now =>
    obtain ⟨s₁, hdrain, rfl⟩ := Option.map_eq_some_iff.1 h
    have hexpire : spooled (s₁.expireStalledHandshake now).events = spooled s₁.events := by
      unfold expireStalledHandshake
      split
      · simp [enter, emit]
      · rfl
    rw [unitsOf_append, hexpire]
    exact Nat.le_trans (spooled_drain hdrain) (Nat.add_le_add_left (Nat.le_add_right _ _) _)
  | pollTransmit =>
    obtain rfl := Option.some.inj h
    exact Nat.le_refl _
  | setCredit bytes now =>
    obtain rfl := Option.some.inj h
    exact Nat.le_add_right _ _
  | printerInput data now =>
    obtain rfl := Option.some.inj h
    have hsame : (s.printerInput data).events = s.events := by
      unfold printerInput
      split <;> rfl
    show spooled (s.printerInput data).events ≤ _
    rw [hsame]
    exact Nat.le_add_right _ _

/-- What a StyleWriter does to the window. -/
def meter : Meter role UInt16 where
  waiting s := spooled s.events
  acts := meterActs
  incoming := incoming_meterActs
  waiting_call _ _ _ h := spooled_call h
  waiting_pollEvent := by
    intro s e s' h
    obtain ⟨e', he, heq⟩ := Option.map_eq_some_iff.1 h
    obtain ⟨rfl, rfl⟩ := Prod.mk.inj heq
    obtain ⟨events, hevents⟩ := List.head?_eq_some_iff.1 he
    simp only [pollEvent, hevents, List.tail_cons]
    cases e' <;> simp [spooled, roleEvent, RoleEvent.bytes]
  waiting_done := by
    intro s h
    rw [List.head?_eq_none_iff.1 (Option.map_eq_none_iff.1 h)]
    rfl
  quiet s bytes now := by
    show unitsOf (s.advertises _) = 0
    unfold advertises
    split <;> rfl

end StyleWriterRole

/-! ## PAP with an option card -/

namespace ImageWriterRole

/-- The bytes for the printer among the role's own events. -/
def asked (events : List ImageWriterEvent) : ℕ :=
  (events.map fun e => (roleEvent e).bytes).sum

/-- The self ID query is put out by a poll that finds the server `server`. -/
def Asks (s : ImageWriterRole) (server : PapServer) : Prop :=
  s.ident = .due ∧ server.busy = false

instance (s : ImageWriterRole) (server : PapServer) : Decidable (s.Asks server) :=
  inferInstanceAs (Decidable (_ ∧ _))

/-- What a call does to the window. -/
def meterActs (s : ImageWriterRole) (c : RoleCall) : List (Window.Act Unit) :=
  match c with
  | .poll now => s.server.meterActs c ++
    match s.server.poll now with
    | some server => if s.Asks server then [.own SELF_ID.length] else []
    | none => []
  | .printerInput _ _ => []
  | _ => s.server.meterActs c

theorem incoming_meterActs (s : ImageWriterRole) (c : RoleCall) :
    ∀ a ∈ s.meterActs c, a.Incoming := by
  have hserver : ∀ a ∈ s.server.meterActs c, a.Incoming := PapServer.incoming_windowActs _ _
  intro a ha
  cases c with
  | poll now =>
    rcases List.mem_append.1 ha with ha | ha
    · exact hserver a ha
    split at ha
    · split at ha
      · obtain rfl := List.mem_singleton.1 ha
        trivial
      · cases ha
    · cases ha
  | printerInput data now => cases ha
  | handleDatagram dst src payload now => exact hserver a ha
  | pollTransmit => exact hserver a ha
  | setCredit bytes now => exact hserver a ha

/-- Bytes for the printer among the events that wait. -/
def waiting (s : ImageWriterRole) : ℕ := asked s.events + printed s.server.events

theorem settleIdent_waiting (s : ImageWriterRole) : s.settleIdent.waiting = s.waiting := by
  unfold settleIdent
  dsimp only
  split <;> rfl

theorem pollIdent_waiting (s : ImageWriterRole) (now : Micros) :
    (s.pollIdent now).waiting =
      s.waiting + unitsOf (if s.Asks s.server then [Window.Act.own (ι := Unit) SELF_ID.length]
        else []) := by
  unfold pollIdent
  split
  · rename_i hident
    rcases hbusy : s.server.busy with _ | _
    · rw [if_neg Bool.false_ne_true, if_pos ⟨hident, hbusy⟩]
      show asked (s.events ++ [.toPrinter SELF_ID]) + printed s.server.events = _
      rw [waiting, asked, List.map_append, List.sum_append]
      exact Nat.add_right_comm _ _ _
    · rw [if_pos rfl, if_neg fun h => Bool.false_ne_true (h.2.symm.trans hbusy)]
      rfl
  · rename_i since last hident
    have hasks : ¬ s.Asks s.server := fun h => Ident.noConfusion (h.1.symm.trans hident)
    rw [if_neg hasks]
    split
    · exact settleIdent_waiting s
    · rfl
  · rename_i hident
    have hasks : ¬ s.Asks s.server := fun h => Ident.noConfusion (h.1.symm.trans hident)
    rw [if_neg hasks]
    rfl

theorem waiting_call {s s' : ImageWriterRole} {c : RoleCall} (h : role.call s c = some s') :
    s'.waiting ≤ s.waiting + unitsOf (s.meterActs c) := by
  have hserver : ∀ server, s.server.call (PapServer.ofRoleCall c) = some server →
      asked s.events + printed server.events ≤ s.waiting + unitsOf (s.server.meterActs c) :=
    fun server hcall => by
      have := PapServer.printed_call hcall
      unfold waiting
      omega
  cases c with
  | handleDatagram dst src payload now =>
    obtain ⟨server, hcall, rfl⟩ := Option.map_eq_some_iff.1 h
    exact hserver server hcall
  | poll now =>
    obtain ⟨server, hcall, rfl⟩ := Option.map_eq_some_iff.1 h
    have hle := hserver server hcall
    rw [pollIdent_waiting]
    have hcall' : s.server.poll now = some server := hcall
    simp only [meterActs, hcall', unitsOf_append]
    have hasks : ({ s with server } : ImageWriterRole).Asks server ↔ s.Asks server := Iff.rfl
    simp only [hasks]
    have hwaiting : ({ s with server } : ImageWriterRole).waiting =
        asked s.events + printed server.events := rfl
    omega
  | pollTransmit =>
    obtain rfl := Option.some.inj h
    exact hserver s.server.pollTransmit.2 rfl
  | setCredit bytes now =>
    obtain ⟨server, hcall, rfl⟩ := Option.map_eq_some_iff.1 h
    exact hserver server hcall
  | printerInput data now =>
    obtain rfl := Option.some.inj h
    have hsame : (s.printerInput data now).waiting = s.waiting := by
      unfold printerInput
      split
      · dsimp only
        split
        · rw [settleIdent_waiting]
          rfl
        · rfl
      · rfl
    exact Nat.le_trans (Nat.le_of_eq hsame) (Nat.le_add_right _ _)

theorem waiting_pollEvent {s : ImageWriterRole} {e : ImageWriterEvent}
    (h : s.pollEvent.1 = some e) : (roleEvent e).bytes + s.pollEvent.2.waiting ≤ s.waiting := by
  unfold waiting
  unfold pollEvent at h ⊢
  rcases hown : s.events with _ | ⟨event, events⟩
  · simp only [hown, PapServer.pollEvent] at h ⊢
    rcases hserver : s.server.events with _ | ⟨event, events⟩
    · rw [hserver] at h
      cases h
    · rw [hserver] at h
      cases event with
      | toPrinter bytes =>
        simp only [List.head?_cons, Option.some.injEq] at h
        -- a rename brings no byte for the printer
        have hle : (roleEvent e).bytes ≤ bytes.length := by
          rw [← h]
          split
          · exact Nat.zero_le _
          · exact Nat.le_refl _
        simp only [List.head?_cons, List.tail_cons, printed, List.map_cons, List.sum_cons]
        omega
      | connectionOpened client =>
        obtain rfl := Option.some.inj h
        simp [printed, roleEvent, RoleEvent.bytes]
      | jobEof =>
        obtain rfl := Option.some.inj h
        simp [printed, roleEvent, RoleEvent.bytes]
      | connectionClosed =>
        obtain rfl := Option.some.inj h
        simp [printed, roleEvent, RoleEvent.bytes]
  · simp only [hown] at h ⊢
    obtain rfl := Option.some.inj h
    simp only [asked, List.map_cons, List.sum_cons]
    omega

theorem waiting_done {s : ImageWriterRole} (h : s.pollEvent.1 = none) : s.waiting = 0 := by
  rcases Nat.eq_zero_or_pos s.queued with hzero | hpos
  · unfold queued at hzero
    have hown : s.events = [] := List.eq_nil_of_length_eq_zero (by omega)
    have hserver : s.server.events = [] := List.eq_nil_of_length_eq_zero (by omega)
    unfold waiting
    rw [hown, hserver]
    rfl
  · have hsome := pollEvent_of_queued (s := s) (by omega)
    rw [h] at hsome
    cases hsome

/-- What an ImageWriter does to the window. -/
def meter : Meter role Unit where
  waiting := waiting
  acts := meterActs
  incoming := incoming_meterActs
  waiting_call _ _ _ h := waiting_call h
  waiting_pollEvent := by
    intro s e s' h
    obtain ⟨e', he, heq⟩ := Option.map_eq_some_iff.1 h
    obtain ⟨rfl, rfl⟩ := Prod.mk.inj heq
    exact waiting_pollEvent he
  waiting_done _ h := waiting_done (Option.map_eq_none_iff.1 h)
  quiet s := PapServer.quiet_setCredit s.server

end ImageWriterRole

/-! ## The port -/

namespace PortState
variable {ρ ι : Type} [DecidableEq ι] {R : Role ρ} (M : Meter R ι)

/-- The job bytes of some events. -/
def bytesOf (events : List RoleEvent) : ℕ := (events.map RoleEvent.bytes).sum

/-- What settling does to the window: it is looked at, and the role told. -/
def settleActs (s : PortState ρ) (now : Micros) : List (Window.Act ι) :=
  let s := run sort { s with role := (pollEvents R (R.queued s.role) s.role).2 }
    (pollEvents R (R.queued s.role) s.role).1
  .report s.held :: M.acts s.role (.setCredit (WINDOW - s.held) now)

theorem held_sort (s : PortState ρ) (e : RoleEvent) : (s.sort e).held = s.held + e.bytes := by
  cases e with
  | toPrinter data =>
    show (s.toPrinter ++ data).length + s.writing = s.toPrinter.length + s.writing + data.length
    rw [List.length_append]
    omega
  | rename name => rfl
  | event e => rfl

theorem held_run_sort (s : PortState ρ) (events : List RoleEvent) :
    (run sort s events).held = s.held + bytesOf events ∧ (run sort s events).role = s.role ∧
      (run sort s events).writing = s.writing := by
  induction events generalizing s with
  | nil => exact ⟨rfl, rfl, rfl⟩
  | cons e events ih =>
    obtain ⟨hheld, hrole, hwriting⟩ := ih (s.sort e)
    have hrole' : (s.sort e).role = s.role := by cases e <;> rfl
    have hwriting' : (s.sort e).writing = s.writing := by cases e <;> rfl
    refine ⟨?_, hrole.trans hrole', hwriting.trans hwriting'⟩
    have hcons : bytesOf (e :: events) = e.bytes + bytesOf events := rfl
    rw [run_cons, hheld, held_sort, hcons]
    omega

omit [DecidableEq ι] in
theorem bytesOf_pollEvents (fuel : ℕ) (r : ρ) :
    bytesOf (pollEvents R fuel r).1 + M.waiting (pollEvents R fuel r).2 ≤ M.waiting r := by
  induction fuel generalizing r with
  | zero => exact Nat.le_of_eq (Nat.zero_add _)
  | succ fuel ih =>
    rw [pollEvents]
    rcases hpoll : R.pollEvent r with _ | ⟨e, r'⟩
    · exact Nat.le_of_eq (Nat.zero_add _)
    · have hone := M.waiting_pollEvent r e r' hpoll
      have hrest := ih r'
      simp only [bytesOf, List.map_cons, List.sum_cons] at hrest ⊢
      omega

/-- The window knows of all that is held and all that waits. -/
def Tied (s : PortState ρ) (w : Window ι) : Prop := s.held + M.waiting s.role ≤ w.held

variable {M} {s s' : PortState ρ} {w : Window ι} {now : Micros}

theorem tied_call {c : RoleCall} {role : ρ} (h : s.Tied M w)
    (hc : R.call s.role c = some role) :
    Tied M { s with role } (run (Window.step WINDOW) w (M.acts s.role c)) := by
  have hle := M.waiting_call s.role c role hc
  have hheld : (run (Window.step WINDOW) w (M.acts s.role c)).held = _ :=
    Window.held_incoming (M.incoming s.role c)
  have hunits : unitsOf (M.acts s.role c) = ((M.acts s.role c).map Window.Act.units).sum := rfl
  unfold Tied at h ⊢
  rw [hheld]
  show s.held + M.waiting role ≤ _
  omega

/-- **Settling** ties the window to what is held. -/
theorem tied_settle (h : s.Tied M w) (hs : settle R s now = some s') :
    s'.Tied M (run (Window.step WINDOW) w (s.settleActs M now)) ∧ s'.writing = s.writing := by
  obtain ⟨role, hcredit, rfl⟩ := Option.map_eq_some_iff.1 hs
  have hpolled := bytesOf_pollEvents M (R.queued s.role) s.role
  have hdone := M.waiting_done _ (pollEvents_done R s.role)
  obtain ⟨hheld, hrole, hwriting⟩ := held_run_sort
    { s with role := (pollEvents R (R.queued s.role) s.role).2 }
    (pollEvents R (R.queued s.role) s.role).1
  refine ⟨?_, hwriting⟩
  generalize hsorted : run sort { s with role := (pollEvents R (R.queued s.role) s.role).2 }
    (pollEvents R (R.queued s.role) s.role).1 = sorted at hcredit hheld hrole hwriting
  have hle : sorted.held ≤ w.held := by
    have hs₀ : ({ s with role := (pollEvents R (R.queued s.role) s.role).2 } : PortState ρ).held =
        s.held := rfl
    unfold Tied at h
    omega
  have htied : sorted.Tied M (w.step WINDOW (.report sorted.held)) := by
    show sorted.held + M.waiting sorted.role ≤ min sorted.held w.held
    rw [hrole, hdone, Nat.min_eq_left hle]
    exact Nat.le_refl _
  unfold settleActs
  rw [hsorted]
  exact tied_call htied hcredit

end PortState

/-! ## Printers and their windows -/

/-- A printer, and the account of what its port has promised. -/
structure Watch (ρ ι : Type) where
  printer : Printer ρ
  window : Window ι

namespace Watch
variable {ρ ι : Type} [DecidableEq ι] {R : Role ρ} (M : Meter R ι)

/-- What a call does to the window. -/
def callActs (s : PortState ρ) (c : RoleCall) (now : Micros) : List (Window.Act ι) :=
  match R.call s.role c with
  | some role => M.acts s.role c ++ PortState.settleActs M { s with role } now
  | none => []

/-- What happens to the window in a step. -/
def acts (p : Printer ρ) : PrinterAct → List (Window.Act ι)
  | .handleDatagram dst src payload now =>
    callActs M p.port (.handleDatagram dst src payload now) now
  | .poll now => callActs M p.port (.poll now) now
  | .pollTransmit => M.acts p.port.role .pollTransmit
  | .endWrite now =>
    match p.write with
    | none => []
    | some w => .drop w.n :: PortState.settleActs M
      { p.port with
        writing := p.port.writing - w.n
        writtenTotal := p.port.writtenTotal + w.n } now
  | .input data now =>
    if p.write.isNone then callActs M p.port (.printerInput data now) now else []
  | .nextEvent | .startWrite | .accept _ => []

/-- A call that never returns changes nothing. -/
def step (s : Watch ρ ι) (a : PrinterAct) : Watch ρ ι :=
  match s.printer.step R a with
  | none => s
  | some printer => ⟨printer, run (Window.step WINDOW) s.window (acts M s.printer a)⟩

/-- **The printer runs as it does without the account beside it.** -/
theorem step_printer (s : Watch ρ ι) (a : PrinterAct) :
    (s.step M a).printer = (s.printer.step R a).getD s.printer := by
  unfold step
  cases s.printer.step R a <;> rfl

/-- A printer that is bound: its first settling already counts. -/
def new (role : ρ) (now : Micros) : Option (Watch ρ ι) :=
  (PortState.bind R role now).map fun port =>
    ⟨⟨port, none⟩, run (Window.step WINDOW) (Window.start WINDOW)
      (PortState.settleActs M ⟨role, [], 0, 0, 0, []⟩ now)⟩

/-- The clients send no more than they were given. -/
def Conforms (s : Watch ρ ι) (a : PrinterAct) : Prop :=
  Along (Window.step WINDOW) Window.Conforms s.window (acts M s.printer a)

instance (s : Watch ρ ι) (a : PrinterAct) : Decidable (s.Conforms M a) := by
  unfold Conforms
  infer_instance

/-- Job bytes leave what was given late, but for 64 bytes of it that the role's own bytes may use.
    -/
def Timely (s : Watch ρ ι) (a : PrinterAct) : Prop :=
  Along (Window.step WINDOW) (Window.Timely WINDOW 64) s.window (acts M s.printer a)

instance (s : Watch ρ ι) (a : PrinterAct) : Decidable (s.Timely M a) := by
  unfold Timely
  infer_instance

/-- The account is right, and the buffer not overrun. -/
structure Bounded (s : Watch ρ ι) : Prop where
  tied : s.printer.port.Tied M s.window
  writing : s.printer.port.writing = (s.printer.write.map (·.n)).getD 0
  kept : s.window.Kept WINDOW
  held : s.window.held ≤ WINDOW + 64

variable {M} {s : Watch ρ ι} {a : PrinterAct}

theorem tied_step {p p' : Printer ρ} {w : Window ι} (h : p.port.Tied M w)
    (hwriting : p.port.writing = (p.write.map (·.n)).getD 0) (hs : p.step R a = some p') :
    p'.port.Tied M (run (Window.step WINDOW) w (acts M p a)) ∧
      p'.port.writing = (p'.write.map (·.n)).getD 0 := by
  have hcall : ∀ {c : RoleCall} {now : Micros} {port : PortState ρ},
      ((R.call p.port.role c).bind fun role => PortState.settle R { p.port with role } now) =
        some port →
      port.Tied M (run (Window.step WINDOW) w (callActs M p.port c now)) ∧
        port.writing = p.port.writing := by
    intro c now port hc
    obtain ⟨role, hrole, hsettle⟩ := Option.bind_eq_some_iff.1 hc
    simp only [callActs, hrole, run_append]
    exact PortState.tied_settle (PortState.tied_call h hrole) hsettle
  cases a with
  | handleDatagram dst src payload now =>
    obtain ⟨port, hport, rfl⟩ := Option.map_eq_some_iff.1 hs
    obtain ⟨htied, hw⟩ := hcall (c := .handleDatagram dst src payload now) hport
    exact ⟨htied, hw.trans hwriting⟩
  | poll now =>
    obtain ⟨port, hport, rfl⟩ := Option.map_eq_some_iff.1 hs
    obtain ⟨htied, hw⟩ := hcall (c := .poll now) hport
    exact ⟨htied, hw.trans hwriting⟩
  | pollTransmit =>
    obtain rfl := Option.some.inj hs
    exact ⟨PortState.tied_call h rfl, hwriting⟩
  | nextEvent =>
    obtain rfl := Option.some.inj hs
    have hnext : ∀ t : PortState ρ, t.nextEvent.2.held = t.held ∧
        t.nextEvent.2.role = t.role ∧ t.nextEvent.2.writing = t.writing := by
      intro t
      unfold PortState.nextEvent
      split
      · split <;> exact ⟨rfl, rfl, rfl⟩
      · exact ⟨rfl, rfl, rfl⟩
    obtain ⟨hheld, hrole, hw⟩ := hnext p.port
    split
    · refine ⟨?_, hw.trans hwriting⟩
      show p.port.nextEvent.2.held + M.waiting p.port.nextEvent.2.role ≤ w.held
      rw [hheld, hrole]
      exact h
    · exact ⟨h, hwriting⟩
  | startWrite =>
    obtain rfl := Option.some.inj hs
    split
    · rename_i hstart
      have hzero : p.port.writing = 0 := by
        rw [hwriting, Option.isNone_iff_eq_none.1 hstart.1]
        rfl
      have hblock : p.port.block.length = min p.port.toPrinter.length OUT_LEN := by
        rw [PortState.block, List.length_take]
        omega
      have hheld : p.port.take.held = p.port.held := by
        show (p.port.toPrinter.drop (min p.port.toPrinter.length OUT_LEN)).length +
          (p.port.writing + min p.port.toPrinter.length OUT_LEN) = _
        rw [List.length_drop, PortState.held]
        omega
      refine ⟨?_, ?_⟩
      · show p.port.take.held + M.waiting p.port.role ≤ w.held
        rw [hheld]
        exact h
      · show p.port.writing + min p.port.toPrinter.length OUT_LEN = p.port.block.length
        rw [hzero, hblock, Nat.zero_add]
    · exact ⟨h, hwriting⟩
  | accept n =>
    obtain rfl := Option.some.inj hs
    refine ⟨h, hwriting.trans ?_⟩
    cases p.write <;> rfl
  | endWrite now =>
    rcases hwrite : p.write with _ | write
    · simp only [Printer.step, hwrite] at hs
      obtain rfl := Option.some.inj hs
      simp only [acts, hwrite]
      exact ⟨h, hwriting.trans (by rw [hwrite])⟩
    · simp only [Printer.step, hwrite] at hs
      obtain ⟨port, hport, rfl⟩ := Option.map_eq_some_iff.1 hs
      simp only [acts, hwrite, run_cons]
      have hn : p.port.writing = write.n := by rw [hwriting, hwrite]; rfl
      have hdropped : PortState.Tied M
          { p.port with
            writing := p.port.writing - write.n
            writtenTotal := p.port.writtenTotal + write.n }
          (w.step WINDOW (.drop write.n)) := by
        show p.port.toPrinter.length + (p.port.writing - write.n) + M.waiting p.port.role ≤
          w.held - write.n
        have htied : p.port.toPrinter.length + p.port.writing + M.waiting p.port.role ≤ w.held := h
        omega
      obtain ⟨htied, hw⟩ := PortState.tied_settle hdropped hport
      refine ⟨htied, hw.trans ?_⟩
      show p.port.writing - write.n = 0
      omega
  | input data now =>
    simp only [Printer.step] at hs
    simp only [acts]
    split at hs
    · rename_i hnone
      obtain ⟨port, hport, rfl⟩ := Option.map_eq_some_iff.1 hs
      rw [if_pos hnone]
      obtain ⟨htied, hw⟩ := hcall (c := .printerInput data now) hport
      exact ⟨htied, hw.trans hwriting⟩
    · rename_i hsome
      obtain rfl := Option.some.inj hs
      rw [if_neg hsome]
      exact ⟨h, hwriting⟩

/-- **A timely step of conforming clients keeps the bound.** -/
theorem bounded_step (h : s.Bounded M) (hconf : s.Conforms M a) (htime : s.Timely M a) :
    (s.step M a).Bounded M := by
  unfold step
  rcases hs : s.printer.step R a with _ | printer
  · exact h
  · obtain ⟨htied, hwriting⟩ := tied_step h.tied h.writing hs
    exact ⟨htied, hwriting, Window.kept_run h.kept _,
      Window.held_run h.kept h.held hconf htime⟩

theorem bounded_run {as : List PrinterAct} (h : s.Bounded M)
    (hconf : Along (step M) (Conforms M) s as) (htime : Along (step M) (Timely M) s as) :
    (run (step M) s as).Bounded M := by
  have hstep : ∀ (s : Watch ρ ι) (a : PrinterAct), s.Bounded M →
      s.Conforms M a ∧ s.Timely M a → (s.step M a).Bounded M :=
    fun _ _ h hok => bounded_step h hok.1 hok.2
  exact inv_run (step M) hstep h (Along.and (step M) hconf htime)

theorem bounded_new {role : ρ} {now : Micros} (hrole : M.waiting role = 0)
    (hs : new M role now = some s) : s.Bounded M := by
  obtain ⟨port, hport, rfl⟩ := Option.map_eq_some_iff.1 hs
  have hstart : PortState.Tied M ⟨role, [], 0, 0, 0, []⟩ (Window.start WINDOW) := by
    show 0 + M.waiting role ≤ 0
    omega
  obtain ⟨htied, hwriting⟩ := PortState.tied_settle hstart hport
  refine ⟨htied, hwriting, Window.kept_run Window.kept_start _, ?_⟩
  unfold PortState.settleActs
  rw [run_cons, Window.held_incoming (M.incoming _ _)]
  have hquiet := M.quiet (run PortState.sort
    { role := (PortState.pollEvents R (R.queued role) role).2
      toPrinter := []
      writing := 0
      queuedTotal := 0
      writtenTotal := 0
      events := [] } (PortState.pollEvents R (R.queued role) role).1).role
  unfold unitsOf at hquiet
  rw [hquiet]
  exact Nat.le_trans (Nat.min_le_right _ _) (Nat.zero_le _)

end Watch

/-! ## The printers -/

/-- A role with its meter. -/
structure MeteredRole where
  State : Type
  Source : Type
  decEq : DecidableEq Source
  role : Role State
  meter : Meter role Source

instance (m : MeteredRole) : DecidableEq m.Source := m.decEq

/-- What `Printer` can be bound as. -/
inductive PrinterKind where
  | styleWriter (seed : UInt32) (fastClock : FastClock)
  | imageWriter
  | pap (status : Bytes)

namespace PrinterKind

/-- The three of them. -/
def metered : PrinterKind → MeteredRole
  | styleWriter _ _ => ⟨StyleWriterRole, UInt16, inferInstance, _, StyleWriterRole.meter⟩
  | imageWriter => ⟨ImageWriterRole, Unit, inferInstance, _, ImageWriterRole.meter⟩
  | pap _ => ⟨PapServer, Unit, inferInstance, _, PapServer.meter⟩

/-- The role that is bound, on the sockets opened for it. -/
def new (socket connSocket : UInt8) : ∀ k : PrinterKind, k.metered.State
  | styleWriter seed fastClock => StyleWriterRole.new socket seed fastClock
  | imageWriter => ImageWriterRole.new socket connSocket
  | pap status => (PapServer.new socket connSocket).setStatus status

theorem waiting_new (k : PrinterKind) (socket connSocket : UInt8) :
    k.metered.meter.waiting (k.new socket connSocket) = 0 := by
  cases k <;> rfl

/-- A printer of this kind, just bound. -/
def bind (k : PrinterKind) (socket connSocket : UInt8) (now : Micros) :
    Option (Watch k.metered.State k.metered.Source) :=
  Watch.new k.metered.meter (k.new socket connSocket) now

end PrinterKind

/-- **The job data held is bounded** in every run of a printer, of any kind,
    whose clients keep to what they were given and leave what they were given
    too late. -/
theorem held_bounded (k : PrinterKind) (socket connSocket : UInt8) (now : Micros)
    {w : Watch k.metered.State k.metered.Source} {as : List PrinterAct}
    (hbind : k.bind socket connSocket now = some w)
    (hconf : Along (Watch.step k.metered.meter) (Watch.Conforms k.metered.meter) w as)
    (htime : Along (Watch.step k.metered.meter) (Watch.Timely k.metered.meter) w as) :
    (run (Watch.step k.metered.meter) w as).printer.port.held ≤ WINDOW + 64 := by
  have hnew := Watch.bounded_new (k.waiting_new socket connSocket) hbind
  have hrun := Watch.bounded_run hnew hconf htime
  have htied : (run (Watch.step k.metered.meter) w as).printer.port.held + _ ≤ _ := hrun.tied
  have hheld := hrun.held
  omega

/-! ## A PAP printer and its client -/

/-- A printer without a protocol of its own. -/
def papPrinter : PrinterKind := .pap []

/-- The client opens a connection and answers the first pull with `n` bytes. -/
def firstReply (n : ℕ) : List PrinterAct :=
  .handleDatagram 190 PapHost.aClient PapHost.openDatagram 0 ::
    (PapHost.replyDatagrams 1 n).map fun p => .handleDatagram 191 PapHost.aClient p 1

/-- It answers the second one with all that a pull may bring. -/
def secondReply : List PrinterAct :=
  (PapHost.replyDatagrams 2 PULL_CAPACITY).map fun p => .handleDatagram 191 PapHost.aClient p 2

/-- The port takes a block of `n` bytes. -/
def portWrites (n : ℕ) : List PrinterAct := [.startWrite, .accept n, .endWrite 2]

/-- Once the first reply is written, the second one is held as a whole. -/
theorem held_bounded_written : ∃ w, papPrinter.bind 190 191 0 = some w ∧
    (run (Watch.step papPrinter.metered.meter) w
      (firstReply 65 ++ portWrites 65 ++ secondReply)).printer.port.held ≤ WINDOW + 64 := by
  refine ⟨_, rfl, held_bounded papPrinter 190 191 0 rfl ?_ ?_⟩
  · decide +kernel
  · decide +kernel

/-- The second pull goes out with the first reply, before the port has looked at it: more is held
    than there is room for. -/
theorem two_replies_overrun : ∃ w, papPrinter.bind 190 191 0 = some w ∧
    Along (Watch.step papPrinter.metered.meter) (Watch.Conforms papPrinter.metered.meter) w
      (firstReply 65 ++ secondReply) ∧
    ¬ (run (Watch.step papPrinter.metered.meter) w
      (firstReply 65 ++ secondReply)).printer.port.held ≤ WINDOW + 64 := by
  refine ⟨_, rfl, ?_, ?_⟩
  · decide +kernel
  · decide +kernel

end TailTalk
