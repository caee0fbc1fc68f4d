/-
  The names that a StyleWriter role publishes, and the sessions they are of.

  A Mac stages a name with one attention and publishes it with another.  The
  role keeps the staged name by the key of its connection, and a connection that
  moves to another key leaves it to whoever opens one under the old key.
-/
import TailTalk.StyleWriter.Clock

namespace TailTalk

open Lib

/-- The name that an event publishes. -/
def renameOf : StyleWriterEvent → Option Bytes
  | .rename name => some name
  | _ => none

/-- The name that the payload of an `ATTN_SET_NAME` stages. -/
def stagedName : Bytes → Option Bytes
  | len :: name =>
    if len > 0 ∧ (len :: name).length > len.toNat then some (name.take len.toNat) else none
  | [] => none

/-- What is under a key from here on is not what was there before. -/
def AdspEvent.Renews (conn : UInt16) : AdspEvent → Prop
  | .opened k .. | .closed k => k = conn
  | _ => False

/-- A published name, the place of the event that staged it, and that of the
    one that published it. -/
structure Publication where
  conn : UInt16
  name : Bytes
  staged : ℕ
  ended : ℕ

/-- The name was staged and published on one connection, open all the time. -/
structure Publication.Genuine (p : Publication) (heard : List AdspEvent) : Prop where
  order : p.staged < p.ended
  set : ∃ data, heard[p.staged]? = some (.attention p.conn ATTN_SET_NAME data) ∧
    stagedName data = some p.name
  ends : ∃ data, heard[p.ended]? = some (.attention p.conn ATTN_END_SESSION data)
  same : ∀ k e, p.staged < k → k < p.ended → heard[k]? = some e → ¬ e.Renews p.conn

/-- Each name was published by its own session, and no staged name twice. -/
def NamesOk (heard : List AdspEvent) (names : List Bytes) : Prop :=
  ∃ ps : List Publication, ps.map (·.name) = names ∧ (∀ p ∈ ps, p.Genuine heard) ∧
    ps.Pairwise fun p q => p.ended < q.staged

theorem Publication.Genuine.append {p : Publication} {heard : List AdspEvent} (h : p.Genuine heard)
    (more : List AdspEvent) : p.Genuine (heard ++ more) := by
  obtain ⟨data, hends⟩ := h.ends
  have hlen : p.ended < heard.length := (List.getElem?_eq_some_iff.1 hends).1
  have hsame : ∀ {k}, k ≤ p.ended → (heard ++ more)[k]? = heard[k]? :=
    fun hk => List.getElem?_append_left (lt_of_le_of_lt hk hlen)
  refine ⟨h.order, ?_, ⟨data, (hsame le_rfl).trans hends⟩, fun k e hk hk' he => ?_⟩
  · rw [hsame h.order.le]
    exact h.set
  · rw [hsame hk'.le] at he
    exact h.same k e hk hk' he

namespace StyleWriterRole

/-- No connection is opened under the key that a name is staged on. -/
def NameKept (s : StyleWriterRole) : AdspEvent → Prop
  | .opened conn .. => ∀ staged ∈ s.pendingName, staged.1 ≠ conn
  | _ => True

instance (s : StyleWriterRole) (e : AdspEvent) : Decidable (s.NameKept e) :=
  match e with
  | .opened conn .. => inferInstanceAs (Decidable (∀ staged ∈ s.pendingName, staged.1 ≠ conn))
  | .attention .. | .data .. | .openFailed _ | .closed _ | .attentionAcked _
  | .attentionFailed _ => inferInstanceAs (Decidable True)

/-- The names published, by an embedder that has taken some events before. -/
def names (s : StyleWriterRole) (taken : List StyleWriterEvent) : List Bytes :=
  (taken ++ s.events).filterMap renameOf

/-- What an event does to the staged name and to those published. -/
inductive Names (s s' : StyleWriterRole) (e : AdspEvent) : Prop where
  | keeps (hname : s'.pendingName = s.pendingName)
      (hopen : ∀ staged ∈ s.pendingName, e ≠ .closed staged.1)
      (hnames : ∀ taken, s'.names taken = s.names taken)
  | stages {conn name data} (he : e = .attention conn ATTN_SET_NAME data)
      (hdata : stagedName data = some name) (hname : s'.pendingName = some (conn, name))
      (hnames : ∀ taken, s'.names taken = s.names taken)
  | publishes {conn name data} (he : e = .attention conn ATTN_END_SESSION data)
      (hstaged : s.pendingName = some (conn, name)) (hname : s'.pendingName = none)
      (hnames : ∀ taken, s'.names taken = s.names taken ++ [name])
  | drops (hname : s'.pendingName = none) (hnames : ∀ taken, s'.names taken = s.names taken)

section
variable {s s' : StyleWriterRole} {conn code : UInt16} {data : Bytes} {now : Micros} {e : AdspEvent}

theorem names_of_events (taken : List StyleWriterEvent) (new : List StyleWriterEvent)
    (hevents : s'.events = s.events ++ new) (hnew : new.filterMap renameOf = []) :
    s'.names taken = s.names taken := by
  rw [names, names, hevents, ← List.append_assoc, List.filterMap_append, hnew, List.append_nil]

/-- What leaves the staged name alone and publishes none. -/
theorem names_keep (new : List StyleWriterEvent) (hname : s'.pendingName = s.pendingName)
    (hevents : s'.events = s.events ++ new) (hnew : new.filterMap renameOf = [])
    (he : ∀ k, e ≠ .closed k) : Names s s' e :=
  .keeps hname (fun _ _ => he _) fun taken => names_of_events taken new hevents hnew

theorem names_same (hname : s'.pendingName = s.pendingName) (hevents : s'.events = s.events)
    (he : ∀ k, e ≠ .closed k) : Names s s' e :=
  names_keep [] hname (by rw [hevents, List.append_nil]) rfl he

theorem names_ite {c : Prop} [Decidable c] {s'' : StyleWriterRole} (h : c → Names s s' e)
    (h' : ¬ c → Names s s'' e) : Names s (if c then s' else s'') e := by
  split
  · rename_i hc
    exact h hc
  · rename_i hc
    exact h' hc

theorem Names.reply (h : Names s s' e) : Names s (s'.reply conn data) e := by
  cases h with
  | keeps hname hopen hnames => exact .keeps hname hopen hnames
  | stages he hdata hname hnames => exact .stages he hdata hname hnames
  | publishes he hstaged hname hnames => exact .publishes he hstaged hname hnames
  | drops hname hnames => exact .drops hname hnames

theorem followPrinterClock_names (s : StyleWriterRole) (on : Bool) :
    (s.followPrinterClock on).pendingName = s.pendingName ∧
      ∃ new, (s.followPrinterClock on).events = s.events ++ new ∧ new.filterMap renameOf = [] := by
  unfold followPrinterClock
  split
  · refine ⟨rfl, _, rfl, ?_⟩
    cases on <;> rfl
  · exact ⟨rfl, [], (List.append_nil _).symm, rfl⟩

theorem names_clock (on : Bool) (he : ∀ k, e ≠ .closed k) :
    Names s ((s.reply conn data).followPrinterClock on) e := by
  obtain ⟨hname, new, hevents, hnew⟩ := (s.reply conn data).followPrinterClock_names on
  exact names_keep new hname hevents hnew he

/-! ### The handlers -/

theorem names_printRequest (he : ∀ k, e ≠ .closed k) :
    Names s (s.handlePrintRequest conn data now) e := by
  unfold handlePrintRequest
  refine names_ite (fun _ => names_same rfl rfl he) fun _ =>
    names_ite (fun _ => names_same rfl rfl he) fun _ => ?_
  split
  · exact names_same rfl rfl he
  · exact names_keep [.jobStarted (requestUser data)] rfl rfl rfl he

theorem names_withdraw (he : ∀ k, e ≠ .closed k) :
    Names s (s.handleWithdraw conn data now) e := by
  unfold handleWithdraw
  refine names_ite (fun _ => names_same rfl rfl he) fun _ =>
    names_ite (fun _ => names_same rfl rfl he) fun _ => ?_
  refine names_keep [.jobEnded true] ?_ ?_ rfl he <;> dsimp only [enter, emit] <;> split <;> rfl

theorem names_endSession : Names s (s.handleEndSession conn now)
    (.attention conn ATTN_END_SESSION data) := by
  refine handleEndSession_cases (P := fun t => Names s t (.attention conn ATTN_END_SESSION data))
    (fun _ _ => names_same rfl rfl (by simp)) ?_ (names_same rfl rfl (by simp))
  intro name hstaged
  refine Names.reply (.publishes rfl hstaged rfl fun taken => ?_)
  simp [names, emit, renameOf]

theorem names_setName : Names s (s.handleSetName conn data) (.attention conn ATTN_SET_NAME data) := by
  refine Names.reply ?_
  split
  · refine names_ite (fun hfits => ?_) fun _ => names_same rfl rfl nofun
    exact .stages rfl (if_pos hfits) rfl fun _ => rfl
  · exact names_same rfl rfl nofun

theorem names_setStatus (he : ∀ k, e ≠ .closed k) : Names s (s.handleSetStatus conn data) e := by
  refine Names.reply ?_
  split <;> exact names_same rfl rfl he

theorem names_attention :
    Names s (s.handleAttention conn code data now) (.attention conn code data) := by
  have hreply : ∀ d, Names s (s.reply conn d) (.attention conn code data) :=
    fun d => names_same rfl rfl nofun
  refine handleAttention_cases (P := fun t => Names s t (.attention conn code data)) hreply
    (fun _ => names_printRequest nofun) (fun _ => names_withdraw nofun) ?session
    (fun _ => names_ite (fun _ => names_clock _ nofun) fun _ => hreply _) (names_setStatus nofun)
    ?name (fun _ => ?control) (names_clock _ nofun)
  case session =>
    rintro rfl
    exact names_endSession
  case name =>
    rintro rfl
    exact names_setName
  case control =>
    unfold handleSerialControl
    split
    · exact names_clock _ nofun
    · exact hreply _

theorem dropName_eq (s : StyleWriterRole) (conn : UInt16) :
    (s.dropName conn).pendingName = none ∨
      (s.dropName conn).pendingName = s.pendingName ∧
        ∀ staged ∈ s.pendingName, staged.1 ≠ conn := by
  unfold dropName
  rcases hstaged : s.pendingName with _ | ⟨c, name⟩
  · exact Or.inl rfl
  · by_cases hc : c = conn
    · exact Or.inl (by simp [hc])
    · exact Or.inr ⟨by simp [hc], by simpa using hc⟩

theorem names_closed (h : s.handleClosed conn now = some s') : Names s s' (.closed conn) := by
  -- The role does nothing else to the names.
  have hrest : ∀ t : StyleWriterRole, some t = some s' →
      t.pendingName = (s.dropName conn).pendingName →
      (∃ new, t.events = s.events ++ new ∧ new.filterMap renameOf = []) →
      Names s s' (.closed conn) := by
    rintro t ht hname ⟨new, hevents, hnew⟩
    obtain rfl := Option.some.inj ht
    have hnames : ∀ taken, t.names taken = s.names taken :=
      fun taken => names_of_events taken new hevents hnew
    rcases dropName_eq s conn with hdrop | ⟨hkeep, hother⟩
    · exact .drops (hname.trans hdrop) hnames
    · refine .keeps (hname.trans hkeep) (fun staged hstaged hclosed => ?_) hnames
      exact hother staged hstaged (AdspEvent.closed.inj hclosed).symm
  have hsame : ∀ t : StyleWriterRole, some t = some s' →
      t.pendingName = (s.dropName conn).pendingName → t.events = s.events →
      Names s s' (.closed conn) := fun t ht hname hevents =>
    hrest t ht hname ⟨[], by rw [hevents, List.append_nil], rfl⟩
  unfold handleClosed at h
  split at h
  · split at h
    · obtain ⟨⟨id, endpoint⟩, -, hs'⟩ := Option.map_eq_some_iff.1 h
      exact hsame _ (congrArg some hs') rfl rfl
    · exact hsame _ h rfl rfl
  · split at h
    · rename_i dc kill _ _
      refine hrest _ h ?_ ?_
      · refine ((StyleWriterRole.followPrinterClock_names _ false).1).trans ?_
        split <;> rfl
      · obtain ⟨new, hevents, hnew⟩ := (StyleWriterRole.followPrinterClock_names
          (if kill then s.dropName conn else
            (s.dropName conn).emit (.toPrinter PRINTER_RESET)) false).2
        have hreset : ∃ new, (if kill then s.dropName conn else
            (s.dropName conn).emit (.toPrinter PRINTER_RESET)).events = s.events ++ new ∧
            new.filterMap renameOf = [] := by
          split
          · exact ⟨[], (List.append_nil _).symm, rfl⟩
          · exact ⟨[.toPrinter PRINTER_RESET], rfl, rfl⟩
        obtain ⟨reset, hreset, hnone⟩ := hreset
        refine ⟨reset ++ new ++ [.jobEnded kill], ?_, ?_⟩
        · rw [hreset] at hevents
          simp only [endJob, enter, emit] at hevents ⊢
          rw [hevents, List.append_assoc, List.append_assoc, List.append_assoc]
        · rw [List.filterMap_append, List.filterMap_append, hnone, hnew]
          rfl
    · exact hsame _ h rfl rfl
  · exact hsame _ h rfl rfl

/-- **What an event does to the names.** -/
theorem names_event (h : handleAdspEvent now s e = some s') : Names s s' e := by
  have hsame : ∀ t : StyleWriterRole, some t = some s' → t.pendingName = s.pendingName →
      t.events = s.events → (∀ k, e ≠ .closed k) → Names s s' e := by
    rintro t ht hname hevents he
    obtain rfl := Option.some.inj ht
    exact names_same hname hevents he
  cases e with
  | attention conn code data =>
    obtain rfl := Option.some.inj h
    exact names_attention
  | closed conn => exact names_closed h
  | attentionAcked | attentionFailed => exact hsame _ h rfl rfl (by simp)
  | openFailed conn =>
    obtain rfl := Option.some.inj h
    exact names_ite (fun _ => names_same rfl rfl (by simp)) fun _ => names_same rfl rfl (by simp)
  | data conn data eom =>
    simp only [handleAdspEvent] at h
    split at h
    · obtain rfl := Option.some.inj h
      refine names_ite (fun _ => ?_) fun _ => names_same rfl rfl (by simp)
      exact names_ite (fun _ => names_same rfl rfl (by simp))
        fun _ => names_keep [.toPrinter data] rfl rfl rfl (by simp)
    · exact hsame _ h rfl rfl (by simp)
  | opened conn remote inbound pending =>
    simp only [handleAdspEvent] at h
    split at h
    · split at h <;> exact hsame _ h rfl rfl (by simp)
    · split at h <;> exact hsame _ h rfl rfl (by simp)
    · exact hsame _ h rfl rfl (by simp)

end

/-! ## The staged name -/

/-- The names published are those of some publications among the events handled, and the staged
    name came after them, on a connection that is still the same. -/
structure Tracked (s : StyleWriterRole) (taken : List StyleWriterEvent) (heard : List AdspEvent)
    (ps : List Publication) : Prop where
  names : ps.map (·.name) = s.names taken
  genuine : ∀ p ∈ ps, p.Genuine heard
  ordered : ps.Pairwise fun p q => p.ended < q.staged
  staged : ∀ staged ∈ s.pendingName, ∃ i data,
    heard[i]? = some (.attention staged.1 ATTN_SET_NAME data) ∧ stagedName data = some staged.2 ∧
    (∀ p ∈ ps, p.ended < i) ∧ ∀ k e, i < k → heard[k]? = some e → ¬ e.Renews staged.1

section
variable {s s' : StyleWriterRole} {taken : List StyleWriterEvent} {heard : List AdspEvent}
  {ps : List Publication} {e : AdspEvent} {now : Micros}

/-- A published name was published by an event that has been handled. -/
theorem Tracked.ended_lt (h : Tracked s taken heard ps) {p : Publication} (hp : p ∈ ps) :
    p.ended < heard.length := by
  obtain ⟨data, hends⟩ := (h.genuine p hp).ends
  exact (List.getElem?_eq_some_iff.1 hends).1

/-- **An event keeps track of the staged name.** -/
theorem Tracked.event (h : Tracked s taken heard ps) (hkept : s.NameKept e) (hn : Names s s' e) :
    ∃ ps', Tracked s' taken (heard ++ [e]) ps' := by
  have hgenuine : ∀ p ∈ ps, p.Genuine (heard ++ [e]) := fun p hp => (h.genuine p hp).append [e]
  have hlast : (heard ++ [e])[heard.length]? = some e := by simp
  cases hn with
  | keeps hname hopen hnames =>
    refine ⟨ps, h.names.trans (hnames taken).symm, hgenuine, h.ordered, fun staged hstaged => ?_⟩
    rw [hname] at hstaged
    obtain ⟨i, data, hset, hdata, hafter, hsame⟩ := h.staged staged hstaged
    refine ⟨i, data, ?_, hdata, hafter, fun k e' hk he' => ?_⟩
    · rw [List.getElem?_append_left (List.getElem?_eq_some_iff.1 hset).1]
      exact hset
    rcases lt_or_ge k heard.length with hlt | hge
    · rw [List.getElem?_append_left hlt] at he'
      exact hsame k e' hk he'
    · obtain rfl : e' = e := by
        rw [List.getElem?_append_right hge] at he'
        exact List.mem_singleton.1 (List.mem_of_getElem? he')
      intro hrenews
      cases e' with
      | closed k => exact hopen staged hstaged (congrArg _ hrenews)
      | opened k remote inbound pending => exact hkept staged hstaged (Eq.symm hrenews)
      | attention | data | openFailed | attentionAcked | attentionFailed => exact hrenews
  | @stages conn name data he hdata hname hnames =>
    refine ⟨ps, h.names.trans (hnames taken).symm, hgenuine, h.ordered, fun staged hstaged => ?_⟩
    obtain rfl := Option.some.inj (hname.symm.trans hstaged)
    refine ⟨heard.length, data, hlast.trans (congrArg some he), hdata,
      fun p hp => h.ended_lt hp, fun k e' hk he' => ?_⟩
    have hlen := (List.getElem?_eq_some_iff.1 he').1
    rw [List.length_append, List.length_singleton] at hlen
    omega
  | @publishes conn name data he hstaged hname hnames =>
    obtain ⟨i, data', hset, hdata, hafter, hsame⟩ := h.staged _ hstaged
    have hlt : i < heard.length := (List.getElem?_eq_some_iff.1 hset).1
    refine ⟨ps ++ [⟨conn, name, i, heard.length⟩], ?_, fun p hp => ?_, ?_, fun staged hs => ?_⟩
    · rw [List.map_append, h.names, hnames]
      rfl
    · rcases List.mem_append.1 hp with hp | hp
      · exact hgenuine p hp
      obtain rfl := List.mem_singleton.1 hp
      refine ⟨hlt, ⟨data', ?_, hdata⟩, ⟨data, hlast.trans (congrArg some he)⟩, fun k e' hk hk' he' => ?_⟩
      · rw [List.getElem?_append_left hlt]
        exact hset
      · rw [List.getElem?_append_left hk'] at he'
        exact hsame k e' hk he'
    · rw [List.pairwise_append]
      refine ⟨h.ordered, List.pairwise_singleton _ _, fun p hp q hq => ?_⟩
      obtain rfl := List.mem_singleton.1 hq
      exact hafter p hp
    · cases hname.symm.trans hs
  | drops hname hnames =>
    exact ⟨ps, h.names.trans (hnames taken).symm, hgenuine, h.ordered,
      fun staged hstaged => nomatch hname.symm.trans hstaged⟩

theorem Tracked.events {evs : List AdspEvent} (h : Tracked s taken heard ps)
    (hkept : Along (partialStep (handleAdspEvent now)) (Reached NameKept) (some s) evs)
    (hrun : run (partialStep (handleAdspEvent now)) (some s) evs = some s') :
    ∃ ps', Tracked s' taken (heard ++ evs) ps' := by
  induction evs generalizing s heard ps with
  | nil =>
    obtain rfl := Option.some.inj hrun
    exact ⟨ps, by rwa [List.append_nil]⟩
  | cons e evs ih =>
    obtain ⟨t, ht, hrest⟩ := run_partialStep_cons hrun
    obtain ⟨ps₁, h₁⟩ := h.event (hkept.1 s rfl) (names_event ht)
    have hkept' : Along (partialStep (handleAdspEvent now)) (Reached NameKept) (some t) evs := by
      rw [← ht]
      exact hkept.2
    obtain ⟨ps', h'⟩ := ih h₁ hkept' hrest
    exact ⟨ps', by rwa [List.append_assoc] at h'⟩

theorem Tracked.of_same (h : Tracked s taken heard ps) (hname : s'.pendingName = s.pendingName)
    (hevents : s'.events = s.events) : Tracked s' taken heard ps :=
  ⟨by rw [h.names, StyleWriterRole.names, StyleWriterRole.names, hevents], h.genuine, h.ordered,
    by rw [hname]; exact h.staged⟩

theorem Tracked.expire (h : Tracked s taken heard ps) (now : Micros) :
    Tracked (s.expireStalledHandshake now) taken heard ps := by
  unfold expireStalledHandshake
  split
  · refine ⟨h.names.trans ?_, h.genuine, h.ordered, h.staged⟩
    exact (names_of_events taken [.jobEnded false] rfl rfl).symm
  · exact h

end

/-- The staged name is kept in the handling of an input. -/
def KeepsName (s : StyleWriterRole) : RoleInput → Prop
  | .event ev _ => s.NameKept ev
  | .datagram src payload now => Drains NameKept now s (s.endpoint.handleDatagram src payload now)
  | .poll now => Drains NameKept now s (s.endpoint.poll now)
  | _ => True

instance (s : StyleWriterRole) (i : RoleInput) : Decidable (s.KeepsName i) :=
  match i with
  | .event ev _ => inferInstanceAs (Decidable (s.NameKept ev))
  | .datagram .. => inferInstanceAs (Decidable (Drains ..))
  | .poll _ => inferInstanceAs (Decidable (Drains ..))
  | .setPrinterCredit _ | .setPrinterDrained _ | .printerInput _ | .pollTransmit | .pollEvent =>
    inferInstanceAs (Decidable True)

end StyleWriterRole

/-! ## Runs -/

/-- A session, and the ADSP events that its role has handled. -/
structure EventLog where
  session : RoleSession
  heard : List AdspEvent

namespace EventLog

/-- No event was handled. -/
def start (controlSocket : UInt8) (seed : UInt32) (fastClock : FastClock) : EventLog :=
  ⟨.start controlSocket seed fastClock, []⟩

/-- The events that an input has the role handle. -/
def reports (s : EventLog) : RoleInput → List AdspEvent
  | .event ev _ => [ev]
  | .datagram src payload now => (s.session.role.endpoint.handleDatagram src payload now).events
  | .poll now => (s.session.role.endpoint.poll now).events
  | _ => []

/-- One input, with the events it brings. -/
def step (s : EventLog) (i : RoleInput) : Option EventLog :=
  (s.session.step i).map fun t => ⟨t, s.heard ++ s.reports i⟩

/-- The names published so far. -/
def names (s : EventLog) : List Bytes := s.session.emitted.filterMap renameOf

/-- The staged name and those published are of events that were handled. -/
def Tracked (s : EventLog) : Prop :=
  ∃ ps, s.session.role.Tracked s.session.taken s.heard ps

theorem Tracked.namesOk {s : EventLog} (h : s.Tracked) : NamesOk s.heard s.names := by
  obtain ⟨ps, h⟩ := h
  exact ⟨ps, h.names, h.genuine, h.ordered⟩

theorem tracked_start (controlSocket : UInt8) (seed : UInt32) (fastClock : FastClock) :
    (start controlSocket seed fastClock).Tracked :=
  ⟨[], rfl, nofun, .nil, nofun⟩

/-- **Every input keeps track of the staged name.** -/
theorem tracked_step {s s' : EventLog} {i : RoleInput} (h : s.Tracked)
    (hkept : s.session.role.KeepsName i) (hs : s.step i = some s') : s'.Tracked := by
  obtain ⟨ps, h⟩ := h
  obtain ⟨t, ht, rfl⟩ := Option.map_eq_some_iff.1 hs
  have hsame : ∀ r : StyleWriterRole, some (⟨r, s.session.taken⟩ : RoleSession) = some t →
      r.pendingName = s.session.role.pendingName → r.events = s.session.role.events →
      (⟨t, s.heard ++ []⟩ : EventLog).Tracked := by
    rintro r hr hname hevents
    obtain rfl := Option.some.inj hr
    rw [List.append_nil]
    exact ⟨ps, h.of_same hname hevents⟩
  cases i with
  | event ev now =>
    obtain ⟨r, hr, rfl⟩ := Option.map_eq_some_iff.1 ht
    exact h.event hkept (StyleWriterRole.names_event hr)
  | datagram src payload now =>
    obtain ⟨r, hr, rfl⟩ := Option.map_eq_some_iff.1 ht
    have hep : StyleWriterRole.Tracked { s.session.role with endpoint :=
        { s.session.role.endpoint.handleDatagram src payload now with events := [] } }
        s.session.taken s.heard ps := h.of_same rfl rfl
    exact hep.events hkept hr
  | poll now =>
    obtain ⟨r, hr, rfl⟩ := Option.map_eq_some_iff.1 ht
    obtain ⟨r₀, hdrain, rfl⟩ := Option.map_eq_some_iff.1 hr
    have hep : StyleWriterRole.Tracked { s.session.role with endpoint :=
        { s.session.role.endpoint.poll now with events := [] } }
        s.session.taken s.heard ps := h.of_same rfl rfl
    obtain ⟨ps', h'⟩ := hep.events hkept hdrain
    exact ⟨ps', h'.expire now⟩
  | setPrinterCredit bytes => exact hsame _ ht rfl rfl
  | setPrinterDrained drained => exact hsame _ ht rfl rfl
  | pollTransmit => exact hsame _ ht rfl rfl
  | printerInput data =>
    refine hsame _ ht ?_ ?_ <;> unfold StyleWriterRole.printerInput <;> split <;> rfl
  | pollEvent =>
    obtain rfl := Option.some.inj ht
    have hnone : s.heard ++ s.reports .pollEvent = s.heard := List.append_nil _
    refine ⟨ps, ?_⟩
    rw [hnone]
    refine ⟨h.names.trans ?_, h.genuine, h.ordered, h.staged⟩
    simp only [StyleWriterRole.names, List.append_assoc, StyleWriterRole.pollEvent_events]

end EventLog

/-- **A name is published by its own session.** While no connection is opened under the key that a
    name is staged on, each name published was staged by an attention and published by a later one
    on the same connection, with no other opened under its key and no end of it in between, and none
    was published twice. -/
theorem renames_by_own_session (controlSocket : UInt8) (seed : UInt32) (fastClock : FastClock)
    {inputs : List RoleInput}
    (hkept : Along (partialStep EventLog.step) (Reached fun s i => s.session.role.KeepsName i)
      (some (.start controlSocket seed fastClock)) inputs) :
    ∀ before after, inputs = before ++ after →
      ∀ s ∈ run (partialStep EventLog.step) (some (.start controlSocket seed fastClock)) before,
        NamesOk s.heard s.names := by
  rintro before after rfl s hs
  have hstart : ∀ s, some (EventLog.start controlSocket seed fastClock) = some s → s.Tracked := by
    intro s hs
    obtain rfl := Option.some.inj hs
    exact EventLog.tracked_start controlSocket seed fastClock
  have hstep : ∀ (s : EventLog) (i : RoleInput) (s' : EventLog), s.Tracked →
      s.session.role.KeepsName i → s.step i = some s' → s'.Tracked :=
    fun s i s' h hk hs => EventLog.tracked_step h hk hs
  have hgood : ∀ (s : EventLog) (i : RoleInput), s.Tracked →
      s.session.role.KeepsName i → True := fun _ _ _ _ => trivial
  exact ((along_reached hgood hstep hstart ((Along.append _).1 hkept).1).2 s hs).namesOk

/-- Two Macs: the first stages a name and ends its session, the second stages
    one and closes. -/
def renameRun : List RoleInput :=
  [controlOpened 7, controlOpened 8, attentionFrom 7 0 ATTN_SET_NAME [2, 65, 66],
    attentionFrom 7 1 ATTN_END_SESSION [], attentionFrom 8 0 ATTN_SET_NAME [1, 67],
    fromMac .closeAdvice 8 0 [], controlOpened 8, attentionFrom 8 0 ATTN_END_SESSION []]

theorem renames_by_own_session_renameRun :
    (∀ before after, renameRun = before ++ after →
      ∀ s ∈ run (partialStep EventLog.step) (some (.start 129 5 .unsupported)) before,
        NamesOk s.heard s.names) ∧
    (run (partialStep EventLog.step) (some (.start 129 5 .unsupported)) renameRun).map (·.names) =
      some [[65, 66]] :=
  ⟨renames_by_own_session 129 5 .unsupported (by decide), by decide⟩

/-- A name is staged on the data connection, which moves to another key; whoever opens one under the
    old key and ends its session publishes it. -/
def movedRun : List RoleInput :=
  acceptedJob 7 ++ [answerDial .openConnReqAck, attentionFrom 9 0 ATTN_SET_NAME [2, 65, 66],
    fromMac .openConnAck 11 0 (be16 0x0100 ++ (be16 7685 ++ List.replicate 4 0)),
    controlOpened 9, attentionFrom 9 0 ATTN_END_SESSION []]

theorem movedRun_publishes : ∃ s,
    run (partialStep EventLog.step) (some (.start 129 5 .unsupported)) movedRun = some s ∧
    s.names = [[65, 66]] ∧ ¬ NamesOk s.heard s.names := by
  have hruns : (run (partialStep EventLog.step) (some (.start 129 5 .unsupported)) movedRun).map
      (fun s => (s.names, s.heard)) = some ([[65, 66]],
        [.opened 7 ⟨0, 10, 70⟩ true none, .attention 7 ATTN_PRINT_REQUEST [0, 0, 0, 70, 1, 65],
          .closed 7, .opened 9 ⟨0, 10, 70⟩ false (some 7685),
          .attention 9 ATTN_SET_NAME [2, 65, 66], .opened 11 ⟨0, 10, 70⟩ false (some 7685),
          .opened 9 ⟨0, 10, 70⟩ true none, .attention 9 ATTN_END_SESSION []]) := by
    decide
  obtain ⟨s, hs, hview⟩ := Option.map_eq_some_iff.1 hruns
  obtain ⟨hnames, hheard⟩ := Prod.mk.inj hview
  refine ⟨s, hs, hnames, ?_⟩
  rw [hnames, hheard]
  rintro ⟨ps, hps, hgenuine, -⟩
  obtain ⟨p, rfl, -⟩ := List.map_eq_singleton_iff.1 hps
  obtain ⟨horder, ⟨data, hset, -⟩, ⟨data', hends⟩, hsame⟩ := hgenuine p List.mem_cons_self
  -- The one end of a session is at 7, the one name at 4, and 6 opens the key again.
  have hended : p.ended = 7 ∧ p.conn = 9 := by
    have hlt := (List.getElem?_eq_some_iff.1 hends).1
    generalize p.ended = j at hends hlt
    simp only [List.length_cons, List.length_nil] at hlt
    interval_cases j <;> simp_all [ATTN_PRINT_REQUEST, ATTN_END_SESSION, ATTN_SET_NAME]
  have hstaged : p.staged = 4 := by
    have hlt := (List.getElem?_eq_some_iff.1 hset).1
    generalize p.staged = i at hset hlt
    simp only [List.length_cons, List.length_nil] at hlt
    interval_cases i <;> simp_all [ATTN_PRINT_REQUEST, ATTN_END_SESSION, ATTN_SET_NAME]
  exact hsame 6 (.opened 9 ⟨0, 10, 70⟩ true none) (by omega) (by omega) rfl hended.2.symm

end TailTalk
