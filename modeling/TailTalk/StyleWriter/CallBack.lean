/-
  The call back of a StyleWriter role, and the job it is made for.

  A `CallLog` also notes, for each ConnID, the job that last asked for an open
  under it.  `Kept` leaves out a poll that gives up on a handshake and forgets
  the open it waits for, and an answer that moves some other connection, which
  the role takes for the one it called back on.
-/
import TailTalk.Adsp.Opens
import TailTalk.StyleWriter.Timers

namespace TailTalk

open Lib

/-! ## What a poll of the endpoint leaves -/

namespace AdspEndpoint

/-- The pending opens stay; a connection that goes is reported. -/
structure Sheds (ep ep' : AdspEndpoint) : Prop where
  opens : ∀ c, c ∈ ep'.pendingOpens ↔ c ∈ ep.pendingOpens
  events : ∀ e ∈ ep.events, e ∈ ep'.events
  ids : ∀ k, ep'.ourConnId? k = ep.ourConnId? k ∨ .closed k ∈ ep'.events

section
variable {ep ep' ep'' : AdspEndpoint} {now : Micros} {k c : UInt16}

theorem Sheds.refl (ep : AdspEndpoint) : ep.Sheds ep :=
  ⟨fun _ => Iff.rfl, fun _ => id, fun _ => Or.inl rfl⟩

theorem Sheds.trans (h : ep.Sheds ep') (h' : ep'.Sheds ep'') : ep.Sheds ep'' := by
  refine ⟨fun c => (h'.opens c).trans (h.opens c), fun e he => h'.events e (h.events e he),
    fun k => ?_⟩
  rcases h'.ids k with hk' | hk'
  · rw [hk']
    exact (h.ids k).imp_right (h'.events _)
  · exact Or.inr hk'

theorem sheds_onConn {f : Connection → Effect} (hf : ∀ c, (f c).conn.ourConnId = c.ourConnId) :
    ep.Sheds (ep.onConn k f) := by
  have htends : ep.Tends (ep.onConn k f) := tends_onConn hf
  refine ⟨htends.opens, fun e he => ?_, fun j => Or.inl (htends.ids j)⟩
  unfold onConn
  split
  · exact he
  · exact List.mem_append_left _ he

theorem sheds_pollData (ep : AdspEndpoint) (now : Micros) (k : UInt16) :
    ep.Sheds (ep.pollData now k) := by
  unfold pollData
  rcases ep.connections[k]? with _ | c
  · exact .refl ep
  dsimp only
  split
  · exact .refl ep
  split
  · refine ⟨fun _ => Iff.rfl, fun e => List.mem_append_left _, fun j => ?_⟩
    by_cases hj : j = k
    · rw [hj]
      exact Or.inr (List.mem_append_right _ List.mem_cons_self)
    · exact Or.inl (ourConnId?_erase ep.connections hj)
  · exact sheds_onConn fun c => (@own_resendUnacked k _ _ _).ourConnId

theorem sheds_foldl {g : AdspEndpoint → UInt16 → AdspEndpoint}
    (hg : ∀ ep k, Sheds ep (g ep k)) (keys : List UInt16) (ep : AdspEndpoint) :
    ep.Sheds (keys.foldl g ep) :=
  rel_run (R := Sheds) g Sheds.refl (fun h h' => h.trans h') hg ep keys

theorem sheds_poll (ep : AdspEndpoint) (now : Micros) : (ep.pollOpens now).Sheds (ep.poll now) := by
  unfold poll
  dsimp only
  refine (sheds_foldl (fun ep k => sheds_onConn fun c => ?_) _ _).trans
    (sheds_foldl (fun ep k => sheds_pollData ep now k) _ _)
  rw [pollAttention_conn]

theorem mem_opens_poll : c ∈ (ep.poll now).pendingOpens ↔
    ∃ o, ep.pendingOpens[c]? = some o ∧ ¬ o.Spent now :=
  ((sheds_poll ep now).opens c).trans ((pollOpens_spec ep now).2.2.2 c)

theorem openFailed_mem_poll_iff (hq : ep.events = []) : .openFailed c ∈ (ep.poll now).events ↔
    ∃ o, ep.pendingOpens[c]? = some o ∧ o.Spent now := by
  refine ⟨fun h => ?_, fun ⟨o, ho, hspent⟩ => openFailed_mem_poll ho hspent⟩
  rcases mem_events_poll hq h with ⟨k, h⟩ | ⟨k, o, h, ho⟩ | ⟨k, _, h, -⟩
  · cases h
  · obtain rfl := AdspEvent.openFailed.inj h
    exact ⟨o, ho⟩
  · cases h

theorem ourConnId?_poll (ep : AdspEndpoint) (now : Micros) (k : UInt16) :
    (ep.poll now).ourConnId? k = ep.ourConnId? k ∨ .closed k ∈ (ep.poll now).events := by
  obtain ⟨-, hconns, -, -⟩ := pollOpens_spec ep now
  have hsame : (ep.pollOpens now).ourConnId? k = ep.ourConnId? k := by
    rw [ourConnId?, hconns]
    rfl
  exact hsame ▸ (sheds_poll ep now).ids k

/-- The ConnID that is drawn is free. -/
theorem drawConnId_fresh {opens : Std.TreeMap UInt16 PendingOpen} {fuel : ℕ} {rng : Rand}
    {r : UInt16 × Rand} (h : drawConnId opens fuel rng = some r) : r.1 ∉ opens := by
  induction fuel generalizing rng with
  | zero => cases h
  | succ fuel ih =>
    simp only [drawConnId] at h
    split at h
    · rename_i hfree
      obtain rfl := Option.some.inj h
      exact hfree.2
    · exact ih h

theorem tends_setRecvWindow (ep : AdspEndpoint) (window : UInt16) :
    ep.Tends (ep.setRecvWindow window) := by
  unfold setRecvWindow
  dsimp only
  split
  · have hack : ∀ (ep : AdspEndpoint) (key : UInt16),
        ep.Tends (ep.onConn key (Connection.sendAck ep.recvWindow)) :=
      fun ep key => tends_onConn fun _ => rfl
    have hwindow : ep.Tends { ep with recvWindow := window } :=
      ⟨fun _ => Iff.rfl, fun _ => rfl⟩
    exact hwindow.trans (rel_run (R := Tends) _ Tends.refl (fun h h' => h.trans h') hack
      { ep with recvWindow := window } ep.connections.keys)
  · exact ⟨fun _ => Iff.rfl, fun _ => rfl⟩

end

end AdspEndpoint

/-! ## The role -/

/-- A call back was made for the job. -/
def RoleState.Dialled : RoleState → Prop
  | connecting _ | piping .. => True
  | idle | awaitingCtrlClose .. => False

instance : DecidablePred RoleState.Dialled
  | .connecting _ | .piping .. => isTrue trivial
  | .idle | .awaitingCtrlClose .. => isFalse id

/-- The timer's report that ends a state. -/
def RoleState.Over : RoleState → AdspEvent → Prop
  | .awaitingCtrlClose ctrl _ _, e => e = .closed ctrl
  | .connecting conn, e => e = .openFailed conn
  | .piping dc _, e => e = .closed dc
  | .idle, _ => False

theorem RoleState.Over.unique {st : RoleState} {e e' : AdspEvent} (h : st.Over e)
    (h' : st.Over e') : e = e' := by
  cases st with
  | idle => exact h.elim
  | awaitingCtrlClose | connecting | piping => exact Eq.trans h (Eq.symm h')

namespace StyleWriterRole

/-- The ConnID that the call back for the job in hand went out under. -/
def callId (s : StyleWriterRole) : Option UInt16 :=
  match s.state with
  | .connecting conn => some conn
  | .piping dc _ => s.endpoint.ourConnId? dc
  | .idle | .awaitingCtrlClose .. => none

/-- The jobs reported to have started, among the events not taken yet. -/
def starts (s : StyleWriterRole) : ℕ := (s.events.filterMap jobMark).count .opens

/-- What an event about a connection that stays does to the role. -/
inductive Turn (s s' : StyleWriterRole) : Prop where
  | stays (h : s.endpoint.Tends s'.endpoint) (hstate : s'.state = s.state)
  | takes {ctrl mac sock} (h : s.endpoint.Tends s'.endpoint) (hidle : s.state = .idle)
      (hstate : s'.state = .awaitingCtrlClose ctrl mac sock)
  | marks {dc a b} (h : s.endpoint.Tends s'.endpoint) (hpiping : s.state = .piping dc a)
      (hstate : s'.state = .piping dc b)
  | withdrawn (hwaits : s.state.handshake = true) (hstate : s'.state = .idle)
      (hopens : ∀ c, c ∈ s'.endpoint.pendingOpens ↔
        c ∈ s.endpoint.pendingOpens ∧ s.state ≠ .connecting c)

/-- What a call leaves of the call back. -/
structure Follows (s s' : StyleWriterRole) : Prop where
  pending : ∀ c, c ∈ s'.endpoint.pendingOpens ↔ s'.state = .connecting c
  /-- it is the one of before, or a new one -/
  call : s'.state.Dialled → (s.state.Dialled ∧ s'.callId = s.callId) ∨
    ∃ c, s'.state = .connecting c ∧ c ∉ s.endpoint.pendingOpens

section
variable {s s' : StyleWriterRole} {conn code : UInt16} {data : Bytes} {now : Micros} {e : AdspEvent}

theorem tends_reply (s : StyleWriterRole) (conn : UInt16) (data : Bytes) :
    s.endpoint.Tends (s.reply conn data).endpoint := by
  unfold reply AdspEndpoint.send
  split
  · exact .refl _
  · exact AdspEndpoint.tends_onConn fun c =>
      (@own_pump conn _ none (c.queueWrite data false)).ourConnId

theorem turn_reply (s : StyleWriterRole) (conn : UInt16) (data : Bytes) :
    Turn s (s.reply conn data) := .stays (tends_reply s conn data) rfl

theorem turn_followPrinterClock (on : Bool) :
    Turn s ((s.reply conn data).followPrinterClock on) :=
  .stays (by rw [followPrinterClock_endpoint]; exact tends_reply s conn data)
    (by rw [followPrinterClock_state, reply_state])

theorem turn_then_reply {t : StyleWriterRole} (hep : t.endpoint = s.endpoint)
    (hstate : t.state = s.state) : Turn s (t.reply conn data) :=
  .stays (hep ▸ tends_reply t conn data) hstate

theorem turn_printRequest : Turn s (s.handlePrintRequest conn data now) := by
  unfold handlePrintRequest
  split
  · exact s.turn_reply conn _
  split
  · exact s.turn_reply conn _
  rename_i hbusy
  split
  · exact s.turn_reply conn _
  · exact .takes (tends_reply s conn _) (by simpa [busy] using hbusy) rfl

theorem turn_withdraw : Turn s (s.handleWithdraw conn data now) := by
  unfold handleWithdraw
  dsimp only
  split
  · exact s.turn_reply conn _
  rename_i hwaits
  split
  · exact s.turn_reply conn _
  refine .withdrawn (not_not.1 hwaits) rfl fun c => ?_
  have hopens := (tends_reply s conn RESULT_ACCEPTED).opens
  split
  · rename_i pending hstate
    simp only [enter, emit, AdspEndpoint.abandonOpen, AdspEndpoint.mem_erase_open, hopens, hstate,
      ne_eq, RoleState.connecting.injEq, eq_comm (a := c)]
  · rename_i hnot
    simp only [enter, emit, hopens]
    exact ⟨fun h => ⟨h, fun hc => hnot c hc⟩, And.left⟩

theorem turn_endSession : Turn s (s.handleEndSession conn now) :=
  handleEndSession_cases (fun _ hstate => .marks (tends_reply s conn _) hstate rfl)
    (fun _ _ => turn_then_reply rfl rfl) (turn_then_reply rfl rfl)

theorem turn_attention : Turn s (s.handleAttention conn code data now) := by
  refine handleAttention_cases (s.turn_reply conn) (fun _ => turn_printRequest)
    (fun _ => turn_withdraw) (fun _ => turn_endSession) (fun _ => ?options) ?status
    (fun _ => ?name) (fun _ => ?control) (turn_followPrinterClock false)
  case options =>
    unfold handleSerialOptions
    split
    · exact turn_followPrinterClock _
    · exact s.turn_reply conn _
  case status =>
    unfold handleSetStatus
    refine turn_then_reply ?_ ?_ <;> split <;> rfl
  case name =>
    unfold handleSetName
    refine turn_then_reply ?_ ?_
    · split
      · split <;> rfl
      · rfl
    · split
      · split <;> rfl
      · rfl
  case control =>
    unfold handleSerialControl
    split
    · exact turn_followPrinterClock _
    · exact s.turn_reply conn _

theorem turn_plain (he : e.Plain) (h : handleAdspEvent now s e = some s') : Turn s s' := by
  have hsame : ∀ t : StyleWriterRole, t.endpoint = s.endpoint → t.state = s.state → Turn s t :=
    fun t hep hstate => .stays (hep ▸ .refl _) hstate
  cases e with
  | attention conn code data =>
    obtain rfl := Option.some.inj h
    exact turn_attention
  | data conn data eom =>
    simp only [handleAdspEvent] at h
    split at h
    · obtain rfl := Option.some.inj h
      split
      · unfold handleData
        dsimp only
        split
        · exact hsame _ rfl rfl
        · exact hsame _ rfl rfl
      · exact hsame _ rfl rfl
    · obtain rfl := Option.some.inj h
      exact hsame _ rfl rfl
  | attentionAcked conn =>
    obtain rfl := Option.some.inj h
    exact hsame _ rfl rfl
  | opened | openFailed | attentionFailed | closed => exact he.elim

/-! ### Jobs -/

theorem starts_event (h : handleAdspEvent now s e = some s') (hno : s.eventAct e ≠ some .starts) :
    s'.starts = s.starts := by
  have hdesk : (s'.desk []).marks.count .opens = (s.desk []).marks.count .opens := by
    rw [(does_event h).desk]
    rcases hact : s.eventAct e with _ | act
    · rfl
    · cases act with
      | starts => exact absurd hact hno
      | ends => simp [Desk.step]
      | drops => rfl
  exact hdesk

theorem busy_of_dialled (hd : s.state.Dialled) : s.busy = true := by
  rcases hst : s.state <;> rw [hst] at hd <;> first | exact hd.elim | simp [busy, hst]

theorem starts_of_dialled (h : handleAdspEvent now s e = some s') (hd : s.state.Dialled) :
    s'.starts = s.starts := by
  refine starts_event h fun hact => ?_
  have hlegal := (does_event h).legal []
  rw [hact] at hlegal
  exact hlegal.1.1 (busy_of_dialled hd) rfl

/-! ### Timers -/

theorem timer_passes (now : Micros) (he : FromTimer e) (hover : ¬ s.state.Over e) :
    ∃ s', handleAdspEvent now s e = some s' ∧ s'.endpoint = s.endpoint ∧ s'.state = s.state ∧
      s'.stateSince = s.stateSince := by
  rcases he with ⟨k, rfl⟩ | ⟨k, rfl⟩ | ⟨k, rfl⟩
  · exact ⟨s, rfl, rfl, rfl, rfl⟩
  · refine ⟨s, ?_, rfl, rfl, rfl⟩
    simp only [handleAdspEvent]
    rw [if_neg]
    intro h
    rw [h] at hover
    exact hover rfl
  · refine ⟨s.dropName k, ?_, rfl, rfl, rfl⟩
    simp only [handleAdspEvent, handleClosed]
    split
    · rename_i ctrl mac sock hstate
      rw [if_neg]
      rintro rfl
      rw [hstate] at hover
      exact hover rfl
    · rename_i dc kill hstate
      rw [if_neg]
      rintro rfl
      rw [hstate] at hover
      exact hover rfl
    · rfl

theorem timers_pass (now : Micros) {evs : List AdspEvent} (hevs : ∀ e ∈ evs, FromTimer e)
    (hover : ∀ e ∈ evs, ¬ s.state.Over e) :
    ∃ s', run (partialStep (handleAdspEvent now)) (some s) evs = some s' ∧
      s'.endpoint = s.endpoint ∧ s'.state = s.state ∧ s'.stateSince = s.stateSince := by
  induction evs generalizing s with
  | nil => exact ⟨s, rfl, rfl, rfl, rfl⟩
  | cons e evs ih =>
    obtain ⟨t, ht, hep, hstate, hsince⟩ :=
      timer_passes now (hevs e List.mem_cons_self) (hover e List.mem_cons_self)
    obtain ⟨s', hs', hep', hstate', hsince'⟩ := ih (s := t)
      (fun e he => hevs e (List.mem_cons_of_mem _ he))
      (fun e he => hstate ▸ hover e (List.mem_cons_of_mem _ he))
    refine ⟨s', ?_, hep'.trans hep, hstate'.trans hstate, hsince'.trans hsince⟩
    rw [run_cons, partialStep_some, ht, hs']

theorem starts_timers {evs : List AdspEvent} (hevs : ∀ e ∈ evs, FromTimer e)
    (h : run (partialStep (handleAdspEvent now)) (some s) evs = some s') :
    s'.starts = s.starts := by
  induction evs generalizing s with
  | nil =>
    obtain rfl := Option.some.inj h
    rfl
  | cons e evs ih =>
    obtain ⟨t, ht, hrest⟩ := run_partialStep_cons h
    rw [ih (fun e he => hevs e (List.mem_cons_of_mem _ he)) hrest]
    refine starts_event ht fun hact => ?_
    rcases hevs e List.mem_cons_self with ⟨k, rfl⟩ | ⟨k, rfl⟩ | ⟨k, rfl⟩
    · cases hact
    · simp only [eventAct] at hact
      split at hact <;> cases hact
    · simp only [eventAct] at hact
      split at hact
      · split at hact <;> cases hact
      · cases hact

theorem timer_ends (hover : s.state.Over e) (h : handleAdspEvent now s e = some s') :
    (s'.state = .idle ∧ s'.endpoint = s.endpoint) ∨
    ∃ c ctrl mac sock, s.state = .awaitingCtrlClose ctrl mac sock ∧ s'.state = .connecting c ∧
      s'.stateSince = now ∧ c ∉ s.endpoint.pendingOpens ∧
      ∀ c', c' ∈ s'.endpoint.pendingOpens ↔ c' = c ∨ c' ∈ s.endpoint.pendingOpens := by
  rcases hstate : s.state with _ | ⟨ctrl, mac, sock⟩ | conn | ⟨dc, kill⟩ <;> rw [hstate] at hover
  · exact hover.elim
  · obtain rfl : e = .closed ctrl := hover
    simp only [handleAdspEvent, handleClosed, hstate, if_true, callBack, AdspEndpoint.connect,
      Option.map_map] at h
    obtain ⟨⟨c, rng⟩, hdraw, rfl⟩ := Option.map_eq_some_iff.1 h
    refine Or.inr ⟨c, ctrl, mac, sock, rfl, rfl, rfl, ?_, fun c' => ?_⟩
    · exact AdspEndpoint.drawConnId_fresh hdraw
    · simp [enter, AdspEndpoint.sendOpenRequest, AdspEndpoint.push, dropName, eq_comm (a := c)]
  · obtain rfl : e = .openFailed conn := hover
    simp only [handleAdspEvent, hstate, if_true] at h
    obtain rfl := Option.some.inj h
    exact Or.inl ⟨rfl, rfl⟩
  · obtain rfl : e = .closed dc := hover
    simp only [handleAdspEvent, handleClosed, hstate, if_true] at h
    obtain rfl := Option.some.inj h
    refine Or.inl ⟨rfl, ?_⟩
    simp only [endJob, emit, enter, followPrinterClock_endpoint]
    split <;> rfl

/-! ### Calls -/

theorem told_of_datagram {src : ServiceAddress} {payload : Bytes} (hq : s.endpoint.events = [])
    (h : s.handleDatagram src payload now = some s') : ∃ t e, t.state = s.state ∧
      t.starts = s.starts ∧ AdspEndpoint.Outcome s.endpoint payload t.endpoint e ∧
      run (partialStep (handleAdspEvent now)) (some t) e.toList = some s' := by
  obtain ⟨e, hout, hevents⟩ := s.endpoint.handleDatagram_outcome src payload now
  rw [hq, List.nil_append] at hevents
  refine ⟨{ s with endpoint := { s.endpoint.handleDatagram src payload now with events := [] } }, e,
    rfl, rfl, hout.withEvents [], ?_⟩
  rw [← hevents]
  exact h

/-- A connection that a Mac opens makes no difference. -/
theorem same_of_inbound {remote : ServiceAddress} {pending : Option UInt16}
    (h : handleAdspEvent now s (.opened conn remote true pending) = some s') : s' = s := by
  simp only [handleAdspEvent] at h
  split at h <;> exact (Option.some.inj h).symm

theorem callId_congr (hstate : s'.state = s.state)
    (hids : ∀ dc kill, s.state = .piping dc kill →
      s'.endpoint.ourConnId? dc = s.endpoint.ourConnId? dc) : s'.callId = s.callId := by
  unfold callId
  rw [hstate]
  rcases hst : s.state with _ | _ | _ | ⟨dc, kill⟩
  · rfl
  · rfl
  · rfl
  · exact hids dc kill hst

/-- The role is free, and nothing is left of a call back. -/
theorem follows_idle (hstate : s'.state = .idle)
    (hopens : ∀ c, c ∉ s'.endpoint.pendingOpens) : Follows s s' := by
  refine ⟨fun c => ⟨fun h => absurd h (hopens c), fun h => ?_⟩, fun hd => ?_⟩
  · rw [hstate] at h
    cases h
  · rw [hstate] at hd
    exact hd.elim

theorem follows_expire {t : StyleWriterRole} (h : Follows s t)
    (hkept : ∀ c, t.state = .connecting c → ¬ now - t.stateSince > HANDSHAKE_TIMEOUT_US) :
    Follows s (t.expireStalledHandshake now) := by
  unfold expireStalledHandshake
  split
  · rename_i hstalled
    refine follows_idle rfl fun c hc => ?_
    exact hkept c ((h.pending c).1 hc) hstalled.2
  · exact h

section
variable (hpending : ∀ c, c ∈ s.endpoint.pendingOpens ↔ s.state = .connecting c)
include hpending

theorem follows_same (hstate : s'.state = s.state)
    (hopens : ∀ c, c ∈ s'.endpoint.pendingOpens ↔ c ∈ s.endpoint.pendingOpens)
    (hids : ∀ dc kill, s.state = .piping dc kill →
      s'.endpoint.ourConnId? dc = s.endpoint.ourConnId? dc) : Follows s s' := by
  refine ⟨fun c => ?_, fun hd => Or.inl ⟨hstate ▸ hd, callId_congr hstate hids⟩⟩
  rw [hopens, hpending, hstate]

theorem not_pending (hnot : ∀ c, s.state ≠ .connecting c) (c : UInt16) :
    c ∉ s.endpoint.pendingOpens := fun h => hnot c ((hpending c).1 h)

theorem follows_turn {t : StyleWriterRole} (ht : s.endpoint.Tends t.endpoint)
    (hstate : t.state = s.state) (h : Turn t s') : Follows s s' := by
  cases h with
  | stays h hstate' =>
    have htends := ht.trans h
    exact follows_same hpending (hstate'.trans hstate) htends.opens fun dc _ _ => htends.ids dc
  | @takes ctrl mac sock h hidle hstate' =>
    have hnone : ∀ c, c ∉ s'.endpoint.pendingOpens := by
      intro c hc
      refine not_pending hpending (fun c h => ?_) c (((ht.trans h).opens c).1 hc)
      rw [← hstate, hidle] at h
      cases h
    refine ⟨fun c => ⟨fun hc => absurd hc (hnone c), fun h => ?_⟩, fun hd => ?_⟩
    · rw [hstate'] at h
      cases h
    · rw [hstate'] at hd
      exact hd.elim
  | marks h hpiping hstate' =>
    have htends := ht.trans h
    rw [hstate] at hpiping
    refine ⟨fun c => ?_, fun _ => Or.inl ⟨?_, ?_⟩⟩
    · rw [htends.opens, hpending, hpiping, hstate']
      exact iff_of_false nofun nofun
    · rw [hpiping]
      trivial
    · rw [callId, callId, hpiping, hstate']
      exact htends.ids _
  | withdrawn hwaits hstate' hopens =>
    refine follows_idle hstate' fun c hc => ?_
    obtain ⟨hmem, hnot⟩ := (hopens c).1 hc
    exact hnot (hstate.trans ((hpending c).1 ((ht.opens c).1 hmem)))

section
variable {t : StyleWriterRole} (hstate : t.state = s.state)
include hstate

/-- The open of the call back is answered. -/
theorem follows_completes {id k : UInt16} {src : ServiceAddress} (hmem : id ∈ s.endpoint.pendingOpens)
    (hopens : ∀ c, c ∈ t.endpoint.pendingOpens ↔ c ∈ s.endpoint.pendingOpens ∧ c ≠ id)
    (hid : t.endpoint.ourConnId? k = some id)
    (h : handleAdspEvent now t (.opened k src false (some id)) = some s') : Follows s s' := by
  have hconn := (hpending id).1 hmem
  simp only [handleAdspEvent, hstate, hconn] at h
  obtain rfl := Option.some.inj h
  refine ⟨fun c => ⟨fun hc => ?_, fun h => by cases h⟩, fun _ => Or.inl ⟨?_, ?_⟩⟩
  · obtain ⟨hc, hne⟩ := (hopens c).1 hc
    have hsame := hconn.symm.trans ((hpending c).1 hc)
    exact absurd (RoleState.connecting.inj hsame).symm hne
  · rw [hconn]
    trivial
  · rw [show s.callId = some id by rw [callId, hconn]]
    exact hid

theorem follows_moves {id k : UInt16} {src : ServiceAddress}
    (hopens : ∀ c, c ∈ t.endpoint.pendingOpens ↔ c ∈ s.endpoint.pendingOpens)
    (hnot : id ∉ s.endpoint.pendingOpens) (hid : t.endpoint.ourConnId? k = some id)
    (hkept : s.state.Dialled → s.callId = some id)
    (h : handleAdspEvent now t (.opened k src false (some id)) = some s') : Follows s s' := by
  rcases hst : s.state with _ | ⟨ctrl, mac, sock⟩ | conn | ⟨dc, kill⟩
  · simp only [handleAdspEvent, hstate, hst] at h
    obtain rfl := Option.some.inj h
    exact follows_same hpending hstate hopens fun dc kill hpiping =>
      by cases hst.symm.trans hpiping
  · simp only [handleAdspEvent, hstate, hst] at h
    obtain rfl := Option.some.inj h
    exact follows_same hpending hstate hopens fun dc kill hpiping =>
      by cases hst.symm.trans hpiping
  · -- The open of the call back is pending, the one that is answered is not.
    have hcall := hkept (by rw [hst]; trivial)
    rw [callId, hst] at hcall
    exact absurd ((hpending _).2 (hst.trans (congrArg _ (Option.some.inj hcall)))) hnot
  · simp only [handleAdspEvent, hstate, hst] at h
    obtain rfl := Option.some.inj h
    have hcall := hkept (by rw [hst]; trivial)
    refine ⟨fun c => ⟨fun hc => ?_, fun h => by cases h⟩, fun _ => Or.inl ⟨?_, ?_⟩⟩
    · have hconn := (hpending c).1 ((hopens c).1 hc)
      rw [hst] at hconn
      cases hconn
    · rw [hst]
      trivial
    · rw [hcall]
      exact hid

theorem follows_closes {k : UInt16}
    (hopens : ∀ c, c ∈ t.endpoint.pendingOpens ↔ c ∈ s.endpoint.pendingOpens)
    (hids : ∀ j, j ≠ k → t.endpoint.ourConnId? j = s.endpoint.ourConnId? j)
    (h : handleAdspEvent now t (.closed k) = some s') : Follows s s' := by
  by_cases hover : t.state.Over (.closed k)
  · rcases timer_ends hover h with ⟨hidle, hep⟩ |
      ⟨c, ctrl, mac, sock, hwaits, hconn, -, -, hnext⟩
    · refine follows_idle hidle fun c hc => ?_
      rw [hep, hopens, hpending, ← hstate] at hc
      rw [hc] at hover
      cases hover
    · have hnone : ∀ c', c' ∉ s.endpoint.pendingOpens := not_pending hpending fun c' hc => by
        rw [← hstate, hwaits] at hc
        cases hc
      refine ⟨fun c' => ?_, fun _ => Or.inr ⟨c, hconn, hnone c⟩⟩
      rw [hnext, hopens, hconn, RoleState.connecting.injEq, eq_comm (a := c)]
      exact or_iff_left (hnone c')
  · obtain ⟨s'', hs'', hep, hstate', -⟩ := timer_passes now (Or.inr (Or.inr ⟨k, rfl⟩)) hover
    obtain rfl := Option.some.inj (hs''.symm.trans h)
    refine follows_same hpending (hstate'.trans hstate) (fun c => by rw [hep, hopens])
      fun dc kill hpiping => ?_
    rw [hep, hids dc]
    rintro rfl
    rw [hstate, hpiping] at hover
    exact hover rfl

end

/-- **A datagram follows the call back.** -/
theorem follows_datagram {src : ServiceAddress} {payload : Bytes}
    (hq : s.endpoint.events = []) (hcall : s.state.Dialled → ∃ id, s.callId = some id)
    (hkept : ∀ stale ∈ s.endpoint.rekeyed payload, s.state.Dialled →
      s.callId = some stale.2.ourConnId)
    (h : s.handleDatagram src payload now = some s') :
    Follows s s' ∧ (s.state.Dialled → s'.starts = s.starts) := by
  obtain ⟨t, e, hstate, hstarts, hout, hrun⟩ := told_of_datagram hq h
  rcases e with _ | e
  · obtain rfl := Option.some.inj hrun
    cases hout with
    | quiet htends =>
      exact ⟨follows_same hpending hstate htends.opens fun dc _ _ => htends.ids dc,
        fun _ => hstarts⟩
  replace hrun : handleAdspEvent now t e = some s' := hrun
  refine ⟨?_, fun hd => (starts_of_dialled hrun (hstate ▸ hd)).trans hstarts⟩
  cases hout with
  | hears htends hplain => exact follows_turn hpending htends hstate (turn_plain hplain hrun)
  | @accepts k src hnone hopens hids =>
    rw [same_of_inbound hrun]
    refine follows_same hpending hstate hopens fun dc kill hpiping => hids dc ?_
    rintro rfl
    obtain ⟨id, hcall⟩ := hcall (by rw [hpiping]; trivial)
    rw [callId, hpiping] at hcall
    cases hnone.symm.trans hcall
  | completes hmem hopens hid => exact follows_completes hpending hstate hmem hopens hid hrun
  | @moves k src stale hmoved hopens hnot hid =>
    exact follows_moves hpending hstate hopens hnot hid (hkept stale hmoved) hrun
  | @denied id hopens hmem hids =>
    have hconn := (hpending id).1 hmem
    simp only [handleAdspEvent, hstate, hconn, if_true] at hrun
    obtain rfl := Option.some.inj hrun
    refine follows_idle rfl fun c hc => ?_
    obtain ⟨hc, hne⟩ := (hopens c).1 hc
    have hsame := hconn.symm.trans ((hpending c).1 hc)
    exact hne (RoleState.connecting.inj hsame).symm
  | closes hopens hids => exact follows_closes hpending hstate hopens hids hrun

theorem mem_opens_afterPoll (hq : s.endpoint.events = []) (now : Micros) (c : UInt16) :
    c ∈ (s.endpoint.poll now).pendingOpens ↔
      s.state = .connecting c ∧ .openFailed c ∉ (s.endpoint.poll now).events := by
  rw [AdspEndpoint.mem_opens_poll, ← hpending, Std.TreeMap.mem_iff_isSome_getElem?,
    Option.isSome_iff_exists, AdspEndpoint.openFailed_mem_poll_iff hq]
  constructor
  · rintro ⟨o, ho, hnot⟩
    refine ⟨⟨o, ho⟩, ?_⟩
    rintro ⟨o', ho', hspent⟩
    obtain rfl := Option.some.inj (ho.symm.trans ho')
    exact hnot hspent
  · rintro ⟨⟨o, ho⟩, hnot⟩
    exact ⟨o, ho, fun hspent => hnot ⟨o, ho, hspent⟩⟩

theorem connecting_of_failed (hq : s.endpoint.events = []) {c : UInt16}
    (hc : .openFailed c ∈ (s.endpoint.poll now).events) : s.state = .connecting c := by
  obtain ⟨o, ho, -⟩ := (AdspEndpoint.openFailed_mem_poll_iff hq).1 hc
  exact (hpending c).1 (Std.TreeMap.mem_iff_isSome_getElem?.2 (by rw [ho]; rfl))

section
variable (hq : s.endpoint.events = []) {t r : StyleWriterRole} (hstate : t.state = s.state)
  (hpolled : ∀ c, c ∈ t.endpoint.pendingOpens ↔ c ∈ (s.endpoint.poll now).pendingOpens)
  (hevs : ∀ e ∈ (s.endpoint.poll now).events, FromTimer e)
include hq hstate hpolled hevs

theorem follows_over (hover : ∃ e ∈ (s.endpoint.poll now).events, s.state.Over e)
    (hrun : run (partialStep (handleAdspEvent now)) (some t) (s.endpoint.poll now).events = some r) :
    Follows s (r.expireStalledHandshake now) := by
  obtain ⟨e, he, hover⟩ := hover
  obtain ⟨before, after, hsplit, hfirst⟩ := List.eq_append_cons_of_mem he
  have hmem : ∀ e', e' ∈ before ∨ e' ∈ after → e' ∈ (s.endpoint.poll now).events := by
    intro e' he'
    rw [hsplit]
    rcases he' with he' | he'
    · exact List.mem_append_left _ he'
    · exact List.mem_append_right _ (List.mem_cons_of_mem _ he')
  have hbefore : ∀ e' ∈ before, ¬ t.state.Over e' := by
    intro e' he' hover'
    rw [hstate] at hover'
    rw [hover.unique hover'] at hfirst
    exact hfirst he'
  rw [hsplit, run_append] at hrun
  obtain ⟨s₁, hs₁, hep₁, hstate₁, -⟩ :=
    timers_pass now (fun e' he' => hevs e' (hmem e' (Or.inl he'))) hbefore
  rw [hs₁] at hrun
  obtain ⟨s₂, hs₂, hrest⟩ := run_partialStep_cons hrun
  have hpending₁ : ∀ c, c ∈ s₁.endpoint.pendingOpens ↔
      s.state = .connecting c ∧ .openFailed c ∉ (s.endpoint.poll now).events := by
    intro c
    rw [hep₁, hpolled, mem_opens_afterPoll hpending hq]
  -- Nothing that is reported later ends what the role is now.
  rcases timer_ends ((hstate₁.trans hstate).symm ▸ hover) hs₂ with ⟨hidle, hep₂⟩ |
    ⟨c, ctrl, mac, sock, hwaits, hconn, hsince, -, hnext⟩
  · obtain ⟨r', hr', hep', hstate', -⟩ := timers_pass now
      (fun e' he' => hevs e' (hmem e' (Or.inr he'))) fun e' _ => by rw [hidle]; exact id
    obtain rfl := Option.some.inj (hr'.symm.trans hrest)
    refine follows_expire (follows_idle (hstate'.trans hidle) fun c hc => ?_) fun c hc => ?_
    · rw [hep', hep₂, hpending₁] at hc
      obtain ⟨hconn, hnot⟩ := hc
      rw [hconn] at hover
      exact hnot (hover ▸ he)
    · rw [hstate', hidle] at hc
      cases hc
  · have hnot : ∀ c, s.state ≠ .connecting c := by
      intro c hc
      have hboth := hwaits.symm.trans ((hstate₁.trans hstate).trans hc)
      cases hboth
    obtain ⟨r', hr', hep', hstate', hsince'⟩ := timers_pass now
      (fun e' he' => hevs e' (hmem e' (Or.inr he'))) fun e' he' hover' => by
        rw [hconn] at hover'
        exact hnot c (connecting_of_failed hpending hq (hover' ▸ hmem e' (Or.inr he')))
    obtain rfl := Option.some.inj (hr'.symm.trans hrest)
    refine follows_expire ⟨fun c' => ?_, fun _ =>
      Or.inr ⟨c, hstate'.trans hconn, not_pending hpending hnot c⟩⟩ fun c' _ => ?_
    · rw [hep', hnext, hpending₁, hstate', hconn, RoleState.connecting.injEq, eq_comm (a := c)]
      exact or_iff_left fun h => hnot c' h.1
    · rw [hsince', hsince, Nat.sub_self]
      exact Nat.not_lt_zero _

/-- A poll whose timers leave the state alone. -/
theorem follows_unmarked (hno : ∀ e ∈ (s.endpoint.poll now).events, ¬ s.state.Over e)
    (hsince : t.stateSince = s.stateSince)
    (hids : ∀ k, t.endpoint.ourConnId? k = (s.endpoint.poll now).ourConnId? k)
    (hkept : ∀ c, s.state = .connecting c → now - s.stateSince > HANDSHAKE_TIMEOUT_US →
      ∀ o ∈ s.endpoint.pendingOpens[c]?, o.Spent now)
    (hrun : run (partialStep (handleAdspEvent now)) (some t) (s.endpoint.poll now).events = some r) :
    Follows s (r.expireStalledHandshake now) := by
  obtain ⟨r', hr', hep', hstate', hsince'⟩ := timers_pass now hevs (hstate ▸ hno)
  obtain rfl := Option.some.inj (hr'.symm.trans hrun)
  have hgoes : ∀ c, s.state = .connecting c → .openFailed c ∉ (s.endpoint.poll now).events :=
    fun c hc hfail => hno _ hfail (by rw [hc]; rfl)
  refine follows_expire (follows_same hpending (hstate'.trans hstate) (fun c => ?_)
    fun dc kill hpiping => ?_) fun c hc hlate => ?_
  · rw [hep', hpolled, hpending, mem_opens_afterPoll hpending hq]
    exact and_iff_left_of_imp (hgoes c)
  · rw [hep', hids]
    refine (s.endpoint.ourConnId?_poll now dc).resolve_right fun hclosed => hno _ hclosed ?_
    rw [hpiping]
    rfl
  · have hconn : s.state = .connecting c := (hstate'.trans hstate).symm.trans hc
    rw [hsince', hsince] at hlate
    obtain ⟨o, ho⟩ := Option.isSome_iff_exists.1
      (Std.TreeMap.mem_iff_isSome_getElem?.1 ((hpending c).2 hconn))
    exact hgoes c hconn (AdspEndpoint.openFailed_mem_poll ho (hkept c hconn hlate o ho))

end

/-- **A poll follows the call back.** -/
theorem follows_poll (hq : s.endpoint.events = [])
    (hkept : ∀ c, s.state = .connecting c → now - s.stateSince > HANDSHAKE_TIMEOUT_US →
      ∀ o ∈ s.endpoint.pendingOpens[c]?, o.Spent now)
    (h : s.poll now = some s') : Follows s s' ∧ s'.starts = s.starts := by
  obtain ⟨r, hrun, rfl⟩ := Option.map_eq_some_iff.1 h
  have hevs := fromTimer_of_mem_poll hq now
  have hstarts : (r.expireStalledHandshake now).starts = r.starts := by
    unfold expireStalledHandshake
    split
    · simp [starts, enter, emit, jobMark]
    · rfl
  rw [hstarts, starts_timers hevs hrun]
  refine ⟨?_, rfl⟩
  -- What the role is when it is told.
  let t : StyleWriterRole := { s with endpoint := { s.endpoint.poll now with events := [] } }
  by_cases hover : ∃ e ∈ (s.endpoint.poll now).events, s.state.Over e
  · exact follows_over (t := t) hpending hq rfl (fun _ => Iff.rfl) hevs hover hrun
  · exact follows_unmarked (t := t) hpending hq rfl (fun _ => Iff.rfl) hevs
      (fun e he h => hover ⟨e, he, h⟩) rfl (fun _ => rfl) hkept hrun

end

end

end StyleWriterRole

/-! ## Runs -/

/-- The calls of a role's embedder; it takes the ADSP events from its endpoint itself. -/
def RoleInput.IsCall : RoleInput → Prop
  | .event .. => False
  | _ => True

namespace RoleSession

/-- The jobs reported to have started. -/
def jobs (s : RoleSession) : ℕ := (s.emitted.filterMap jobMark).count .opens

theorem jobs_eq (s : RoleSession) :
    s.jobs = (s.taken.filterMap jobMark).count .opens + s.role.starts := by
  rw [jobs, emitted, List.filterMap_append, List.count_append, StyleWriterRole.starts]

end RoleSession

/-- A session, and for each ConnID the job that last asked for an open under
    it. -/
structure CallLog where
  session : RoleSession
  askedBy : UInt16 → Option ℕ

namespace CallLog

/-- No open was asked for. -/
def start (controlSocket : UInt8) (seed : UInt32) (fastClock : FastClock) : CallLog :=
  ⟨.start controlSocket seed fastClock, fun _ => none⟩

/-- The role of the session. -/
def role (s : CallLog) : StyleWriterRole := s.session.role

/-- An open that was not pending before a call was asked for in it. -/
def step (s : CallLog) (i : RoleInput) : Option CallLog :=
  (s.session.step i).map fun t =>
    ⟨t, fun c => if c ∈ t.role.endpoint.pendingOpens ∧ c ∉ s.role.endpoint.pendingOpens then
      some t.jobs else s.askedBy c⟩

/-- Every call back is that of the job in hand. -/
structure Matched (s : CallLog) : Prop where
  /-- an open is pending exactly while the role waits for it, so there is at
      most one, and a handshake that is over leaves none -/
  pending : ∀ c, c ∈ s.role.endpoint.pendingOpens ↔ s.role.state = .connecting c
  asked : ∀ c, s.role.state = .connecting c → s.askedBy c = some s.session.jobs
  /-- the data connection came of an open that the job in hand asked for -/
  pipe : ∀ dc kill, s.role.state = .piping dc kill →
    ∃ c, s.role.endpoint.ourConnId? dc = some c ∧ s.askedBy c = some s.session.jobs

/-- A poll that gives up on a handshake finds its open failed, and an answer moves the connection of
    the call back only. -/
def Kept (s : CallLog) : RoleInput → Prop
  | .poll now => ∀ c, s.role.state = .connecting c →
      now - s.role.stateSince > HANDSHAKE_TIMEOUT_US →
      ∀ o ∈ s.role.endpoint.pendingOpens[c]?, o.Spent now
  | .datagram _ payload _ => ∀ moved ∈ s.role.endpoint.rekeyed payload, s.role.state.Dialled →
      s.role.callId = some moved.2.ourConnId
  | _ => True

instance (s : CallLog) (i : RoleInput) : Decidable (s.Kept i) :=
  match i with
  | .poll now => decidable_of_iff
      (∀ c ∈ s.role.callId, s.role.state = .connecting c →
        now - s.role.stateSince > HANDSHAKE_TIMEOUT_US →
        ∀ o ∈ s.role.endpoint.pendingOpens[c]?, o.Spent now)
      ⟨fun h c hc => h c (by simp [StyleWriterRole.callId, hc]) hc, fun h c _ => h c⟩
  | .datagram _ payload _ => inferInstanceAs (Decidable
      (∀ moved ∈ s.role.endpoint.rekeyed payload, s.role.state.Dialled →
        s.role.callId = some moved.2.ourConnId))
  | .event .. | .setPrinterCredit _ | .setPrinterDrained _ | .printerInput _ | .pollTransmit
  | .pollEvent => inferInstanceAs (Decidable True)

section
variable {s s' : CallLog} {i : RoleInput}

theorem matched_start (controlSocket : UInt8) (seed : UInt32) (fastClock : FastClock) :
    (start controlSocket seed fastClock).Matched := by
  refine ⟨fun c => iff_of_false ?_ nofun, nofun, nofun⟩
  exact Std.TreeMap.not_mem_emptyc

theorem Matched.call (h : s.Matched) (hd : s.role.state.Dialled) :
    ∃ c, s.role.callId = some c ∧ s.askedBy c = some s.session.jobs := by
  rcases hst : s.role.state with _ | _ | c | ⟨dc, kill⟩
  · rw [hst] at hd
    exact hd.elim
  · rw [hst] at hd
    exact hd.elim
  · exact ⟨c, by rw [StyleWriterRole.callId, hst], h.asked c hst⟩
  · obtain ⟨c, hc⟩ := h.pipe dc kill hst
    exact ⟨c, by rw [StyleWriterRole.callId, hst]; exact hc⟩

/-- A call that follows the call back, and starts no job while there is one. -/
theorem Matched.follows (h : s.Matched) (hs : s.step i = some s')
    (hf : s.role.Follows s'.role)
    (hjobs : s.role.state.Dialled → s'.session.jobs = s.session.jobs) : s'.Matched := by
  obtain ⟨t, -, rfl⟩ := Option.map_eq_some_iff.1 hs
  have hcall : t.role.state.Dialled → ∃ c, t.role.callId = some c ∧
      (if c ∈ t.role.endpoint.pendingOpens ∧ c ∉ s.role.endpoint.pendingOpens then
        some t.jobs else s.askedBy c) = some t.jobs := by
    intro hd
    rcases hf.call hd with ⟨hd', hsame⟩ | ⟨c, hconn, hnew⟩
    · obtain ⟨c, hc, hasked⟩ := h.call hd'
      refine ⟨c, hsame.trans hc, ?_⟩
      split
      · rfl
      · rw [hasked, ← hjobs hd']
    · have hconn' : t.role.state = .connecting c := hconn
      refine ⟨c, by rw [StyleWriterRole.callId, hconn'], if_pos ⟨(hf.pending c).2 hconn, hnew⟩⟩
  refine ⟨hf.pending, fun c hconn => ?_, fun dc kill hpiping => ?_⟩
  · have hconn' : t.role.state = .connecting c := hconn
    obtain ⟨c', hc', hasked⟩ := hcall (by rw [hconn']; trivial)
    rw [StyleWriterRole.callId, hconn'] at hc'
    obtain rfl := Option.some.inj hc'
    exact hasked
  · have hpiping' : t.role.state = .piping dc kill := hpiping
    obtain ⟨c, hc, hasked⟩ := hcall (by rw [hpiping']; trivial)
    rw [StyleWriterRole.callId, hpiping'] at hc
    exact ⟨c, hc, hasked⟩

/-- **Every call that keeps to the call back leaves it matched.** -/
theorem matched_step (h : s.Matched) (hq : s.role.endpoint.events = []) (hcall : i.IsCall)
    (hkept : s.Kept i) (hs : s.step i = some s') : s'.Matched := by
  have hid : s.role.state.Dialled → ∃ c, s.role.callId = some c :=
    fun hd => (h.call hd).imp fun c hc => hc.1
  -- A call that leaves the opens, the ConnIDs and the state alone.
  have hsame : ∀ t : RoleSession, s.session.step i = some t → t.jobs = s.session.jobs →
      s.role.endpoint.Tends t.role.endpoint → t.role.state = s.role.state → s'.Matched := by
    intro t ht hjobs htends hstate
    obtain ⟨t', ht', rfl⟩ := Option.map_eq_some_iff.1 hs
    obtain rfl := Option.some.inj (ht.symm.trans ht')
    exact h.follows hs (StyleWriterRole.follows_same h.pending hstate htends.opens
      fun dc _ _ => htends.ids dc) fun _ => hjobs
  have hjobs : ∀ r : StyleWriterRole, r.starts = s.role.starts →
      (⟨r, s.session.taken⟩ : RoleSession).jobs = s.session.jobs := by
    intro r hr
    rw [RoleSession.jobs_eq, RoleSession.jobs_eq, hr]
    rfl
  cases i with
  | event => exact hcall.elim
  | datagram src payload now =>
    obtain ⟨t, ht, rfl⟩ := Option.map_eq_some_iff.1 hs
    obtain ⟨r, hr, rfl⟩ := Option.map_eq_some_iff.1 ht
    obtain ⟨hf, hstarts⟩ := StyleWriterRole.follows_datagram h.pending hq hid hkept hr
    exact h.follows hs hf fun hd => hjobs r (hstarts hd)
  | poll now =>
    obtain ⟨t, ht, rfl⟩ := Option.map_eq_some_iff.1 hs
    obtain ⟨r, hr, rfl⟩ := Option.map_eq_some_iff.1 ht
    obtain ⟨hf, hstarts⟩ := StyleWriterRole.follows_poll h.pending hq hkept hr
    exact h.follows hs hf fun _ => hjobs r hstarts
  | setPrinterCredit bytes =>
    exact hsame _ rfl (hjobs _ rfl) (s.role.endpoint.tends_setRecvWindow _) rfl
  | setPrinterDrained drained => exact hsame _ rfl (hjobs _ rfl) (.refl _) rfl
  | printerInput data =>
    refine hsame _ rfl (hjobs _ ?_) ?_ ?_ <;> unfold StyleWriterRole.printerInput <;> split
    · rfl
    · rfl
    · exact StyleWriterRole.tends_reply _ _ data
    · exact .refl _
    · rfl
    · rfl
  | pollTransmit =>
    exact hsame _ rfl (hjobs _ rfl) ⟨fun _ => Iff.rfl, fun _ => rfl⟩ rfl
  | pollEvent =>
    refine hsame _ rfl ?_ (.refl _) rfl
    simp only [RoleSession.jobs, RoleSession.emitted, List.append_assoc,
      StyleWriterRole.pollEvent_events]

end

end CallLog

/-- **A call back is the job's own.**  In every run of calls on a role, of any seed and kind, that
    keeps to the call back, an open is pending exactly while the role waits for it, and it and
    the data connection are those that the job in hand asked for. -/
theorem call_backs_matched (controlSocket : UInt8) (seed : UInt32) (fastClock : FastClock)
    {inputs : List RoleInput} (hcalls : ∀ i ∈ inputs, i.IsCall)
    (hkept : Along (partialStep CallLog.step) (Reached CallLog.Kept)
      (some (.start controlSocket seed fastClock)) inputs) :
    ∀ before after, inputs = before ++ after →
      ∀ s ∈ run (partialStep CallLog.step) (some (.start controlSocket seed fastClock)) before,
        s.Matched := by
  rintro before after rfl s hs
  have hok : Along (partialStep CallLog.step) (Reached fun s i => s.Kept i ∧ i.IsCall)
      (some (.start controlSocket seed fastClock)) before := by
    have hcalls' := along_of_forall (partialStep CallLog.step)
      (s := some (.start controlSocket seed fastClock))
      fun i hi => hcalls i (List.mem_append_left after hi)
    exact (((Along.append _).1 hkept).1.and _ hcalls').mono _
      fun o i h t ht => ⟨h.1 t ht, h.2⟩
  have hstart : ∀ s, some (CallLog.start controlSocket seed fastClock) = some s →
      s.Matched ∧ s.role.endpoint.events = [] := by
    intro s hs
    obtain rfl := Option.some.inj hs
    exact ⟨CallLog.matched_start controlSocket seed fastClock, rfl⟩
  have hstep : ∀ (s : CallLog) (i : RoleInput) (s' : CallLog),
      s.Matched ∧ s.role.endpoint.events = [] → s.Kept i ∧ i.IsCall → s.step i = some s' →
      s'.Matched ∧ s'.role.endpoint.events = [] := by
    rintro s i s' ⟨hm, hq⟩ ⟨hkept, hcall⟩ hs
    refine ⟨CallLog.matched_step hm hq hcall hkept hs, ?_⟩
    obtain ⟨t, ht, rfl⟩ := Option.map_eq_some_iff.1 hs
    exact RoleSession.handled_step hq ht
  have hgood : ∀ (s : CallLog) (i : RoleInput), s.Matched ∧ s.role.endpoint.events = [] →
      s.Kept i ∧ i.IsCall → True := fun _ _ _ _ => trivial
  exact ((along_reached hgood hstep hstart hok).2 s hs).1

/-- The state, the open that one ConnID stands for, and the job that asked for it. -/
def CallLog.view (s : CallLog) (id : UInt16) : RoleState × Bool × Option ℕ × ℕ :=
  (s.role.state, s.role.endpoint.pendingOpens.contains id, s.askedBy id, s.session.jobs)

theorem call_backs_matched_printedRun :
    (∀ before after, printedRun = before ++ after →
      ∀ s ∈ run (partialStep CallLog.step) (some (.start 129 5 .unsupported)) before,
        s.Matched) ∧
    (run (partialStep CallLog.step) (some (.start 129 5 .unsupported)) (acceptedJob 7)).map
      (·.view 7685) = some (.connecting 7685, true, some 1, 1) := by
  refine ⟨call_backs_matched 129 5 .unsupported ?_ ?_, by decide⟩
  · simp [printedRun, acceptedJob, answerDial, fromMac, RoleInput.IsCall]
  · decide

/-- The same input at another time. -/
def RoleInput.at (now : Micros) : RoleInput → RoleInput
  | .datagram src payload _ => .datagram src payload now
  | .poll _ => .poll now
  | i => i

/-- The Mac of the first job does not answer; a second Mac has a job accepted. -/
def lateRun : List RoleInput :=
  acceptedJob 7 ++ (RoleInput.poll 15000001 :: (acceptedJob 8).map (·.at 15000001))

/-- The open that the free role gave up on is still pending, and becomes the data connection of the
    second job. -/
theorem lateRun_not_matched :
    (∃ s, run (partialStep CallLog.step) (some (.start 129 5 .unsupported))
      (acceptedJob 7 ++ [.poll 15000001]) = some s ∧
      s.view 7685 = (.idle, true, some 1, 1) ∧ ¬ s.Matched) ∧
    ∃ s, run (partialStep CallLog.step) (some (.start 129 5 .unsupported))
      (lateRun ++ [(answerDial .openConnReqAck).at 15000001]) = some s ∧
      s.view 7685 = (.piping 9 false, false, some 1, 2) ∧
      s.role.endpoint.ourConnId? 9 = some 7685 ∧ ¬ s.Matched := by
  have hfirst : (run (partialStep CallLog.step) (some (.start 129 5 .unsupported))
      (acceptedJob 7 ++ [.poll 15000001])).map (·.view 7685) = some (.idle, true, some 1, 1) := by
    decide
  have hthen : (run (partialStep CallLog.step) (some (.start 129 5 .unsupported))
      (lateRun ++ [(answerDial .openConnReqAck).at 15000001])).map
      (fun s => (s.view 7685, s.role.endpoint.ourConnId? 9)) =
      some ((.piping 9 false, false, some 1, 2), some 7685) := by
    decide
  obtain ⟨s, hs, hview⟩ := Option.map_eq_some_iff.1 hfirst
  obtain ⟨t, ht, hview'⟩ := Option.map_eq_some_iff.1 hthen
  obtain ⟨hview', hid⟩ := Prod.mk.inj hview'
  refine ⟨⟨s, hs, hview, fun hm => ?_⟩, t, ht, hview', hid, fun hm => ?_⟩
  · simp only [CallLog.view, Prod.mk.injEq] at hview
    have hconn := (hm.pending 7685).1 (Std.TreeMap.mem_iff_contains.2 hview.2.1)
    cases hview.1.symm.trans hconn
  · simp only [CallLog.view, Prod.mk.injEq] at hview'
    obtain ⟨c, hc, hasked⟩ := hm.pipe 9 false hview'.1
    obtain rfl := Option.some.inj (hid.symm.trans hc)
    rw [hview'.2.2.1, hview'.2.2.2] at hasked
    cases hasked

/-- An open ack with the ConnID of a control connection moves that one, and a role that waits for
    its call back takes it for the answer. -/
example : (run (partialStep CallLog.step) (some (.start 129 5 .unsupported))
    (fromMac .openConnRequest 8 0 (be16 0x0100 ++ List.replicate 6 0) :: acceptedJob 7 ++
      [fromMac .openConnAck 9 0 (be16 0x0100 ++ (be16 41125 ++ List.replicate 4 0))])).map
    (·.view 6593) = some (.piping 9 false, true, some 1, 1) := by decide

end TailTalk
