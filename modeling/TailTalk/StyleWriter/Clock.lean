/-
  The printer's clock, as the embedder of a StyleWriter role hears of it.

  `FastClockEnable` and `FastClockDisable` are the marks of a desk
  (`Lib.Bracket`).  The clock outlives its job, or starts without one, where a
  Mac asks for it while the role is free, or a handshake ends with it on and
  not by its connection.
-/
import TailTalk.StyleWriter.CallBack

namespace TailTalk

open Lib

/-- The switch of the clock that an event reports. -/
def clockMark : StyleWriterEvent → Option Mark
  | .fastClockEnable => some .opens
  | .fastClockDisable => some .closes
  | _ => none

/-- An attention that asks a port to follow the printer's clock. -/
def AsksFast (clock : FastClock) (code : UInt16) (data : Bytes) : Prop :=
  clock = .supported ∧
    ((code = ATTN_SERIAL_OPTIONS ∧ (data.head?.any fun o => o &&& SERIAL_EXTERNAL_CLOCK != 0)) ∨
      (code = ATTN_SERIAL_CONTROL_JF ∧ 2 ≤ data.length ∧ data.take 2 ≠ [0, 0]))

instance (clock : FastClock) (code : UInt16) (data : Bytes) : Decidable (AsksFast clock code data) :=
  inferInstanceAs (Decidable (_ ∧ _))

namespace StyleWriterRole

/-- The desk of the clock, for an embedder that has taken some events before. -/
def clockDesk (s : StyleWriterRole) (taken : List StyleWriterEvent) : Desk where
  busy := s.fastClockOn
  marks := (taken ++ s.events).filterMap clockMark

/-- A free role is not asked for the fast clock, and no handshake is withdrawn
    or fails with the clock on. -/
def ClockKept (s : StyleWriterRole) : AdspEvent → Prop
  | .attention conn code data =>
    (AsksFast s.fastClock code data → s.busy = true) ∧
      (s.attentionAct conn code data = some .ends → s.fastClockOn = false)
  | .openFailed conn => s.state = .connecting conn → s.fastClockOn = false
  | _ => True

instance (s : StyleWriterRole) (e : AdspEvent) : Decidable (s.ClockKept e) :=
  match e with
  | .attention .. => inferInstanceAs (Decidable (_ ∧ _))
  | .openFailed _ => inferInstanceAs (Decidable (_ → _))
  | .opened .. | .data .. | .closed _ | .attentionAcked _ | .attentionFailed _ =>
    inferInstanceAs (Decidable True)

/-- The marks stay sound, and where the piece is kept the clock is on only within a job. -/
structure Beats (s s' : StyleWriterRole) (kept : Prop) : Prop where
  sound : ∀ taken, (s.clockDesk taken).Sound → (s'.clockDesk taken).Sound
  busy : kept → (s.fastClockOn = true → s.busy = true) → s'.fastClockOn = true → s'.busy = true

section
variable {s s' s'' : StyleWriterRole} {kept kept' : Prop}

theorem Beats.trans (h : Beats s s' kept) (h' : Beats s' s'' kept') :
    Beats s s'' (kept ∧ kept') :=
  ⟨fun taken hs => h'.sound taken (h.sound taken hs),
    fun hk hs => h'.busy hk.2 (h.busy hk.1 hs)⟩

theorem Beats.mono (h : Beats s s' kept) (himp : kept' → kept) : Beats s s' kept' :=
  ⟨h.sound, fun hk => h.busy (himp hk)⟩

/-- The clock is left alone. -/
theorem beats_same (new : List StyleWriterEvent) (hon : s'.fastClockOn = s.fastClockOn)
    (hevents : s'.events = s.events ++ new) (hnew : new.filterMap clockMark = [])
    (hbusy : kept → s.fastClockOn = true → s.busy = true → s'.busy = true) : Beats s s' kept := by
  refine ⟨fun taken hs => ?_, fun hk hs hs' => ?_⟩
  · have hdesk : s'.clockDesk taken = s.clockDesk taken := by
      simp only [clockDesk, hon, hevents, List.filterMap_append, hnew, List.append_nil]
    rwa [hdesk]
  · rw [hon] at hs'
    exact hbusy hk hs' (hs hs')

theorem beats_quiet (hon : s'.fastClockOn = s.fastClockOn) (hevents : s'.events = s.events)
    (hbusy : s'.busy = s.busy) : Beats s s' kept :=
  beats_same [] hon (by rw [hevents, List.append_nil]) rfl fun _ _ h => hbusy.trans h

theorem beats_refl (s : StyleWriterRole) : Beats s s kept := beats_quiet rfl rfl rfl

theorem busy_followPrinterClock (s : StyleWriterRole) (on : Bool) :
    (s.followPrinterClock on).busy = s.busy := by
  rw [busy, followPrinterClock_state, busy]

theorem followPrinterClock_on (s : StyleWriterRole) (on : Bool) :
    (s.followPrinterClock on).fastClockOn = on := by
  unfold followPrinterClock
  split
  · rfl
  · rename_i h
    exact (not_not.1 h).symm

theorem beats_followPrinterClock (on : Bool) (hon : kept → on = true → s.busy = true) :
    Beats s (s.followPrinterClock on) kept := by
  refine ⟨fun taken hs => ?_, fun hk _ hon' => ?_⟩
  · by_cases hsame : on = s.fastClockOn
    · rwa [followPrinterClock, if_neg (not_not_intro hsame)]
    · have hdesk : (s.followPrinterClock on).clockDesk taken =
          (s.clockDesk taken).step (if on then .starts else .ends) := by
        simp only [followPrinterClock, if_pos hsame, clockDesk, emit]
        cases on <;> simp [Desk.step, clockMark]
      rw [hdesk]
      refine hs.step ?_ ?_
      · cases on <;> simp_all [Desk.Legal, clockDesk]
      · cases on <;> simp
  · rw [followPrinterClock_on] at hon'
    rw [busy_followPrinterClock]
    exact hon hk hon'

theorem beats_ite {c : Prop} [Decidable c] (h : c → Beats s s' kept) (h' : ¬ c → Beats s s'' kept) :
    Beats s (if c then s' else s'') kept := by
  split
  · rename_i hc
    exact h hc
  · rename_i hc
    exact h' hc

end

/-! ## The handlers -/

section
variable {s s' : StyleWriterRole} {conn code : UInt16} {data : Bytes} {now : Micros} {kept : Prop}

theorem beats_reply (s : StyleWriterRole) (conn : UInt16) (data : Bytes) :
    Beats s (s.reply conn data) kept := beats_quiet rfl rfl rfl

/-- An answer after something that leaves the clock alone. -/
theorem Beats.reply (h : Beats s s' kept) : Beats s (s'.reply conn data) kept :=
  (h.trans (beats_reply s' conn data)).mono fun hk => ⟨hk, hk⟩

theorem beats_begun (new : List StyleWriterEvent) (hon : s'.fastClockOn = s.fastClockOn)
    (hevents : s'.events = s.events ++ new) (hnew : new.filterMap clockMark = [])
    (hbusy : s'.busy = true) : Beats s s' kept :=
  beats_same new hon hevents hnew fun _ _ _ => hbusy

theorem beats_printRequest : Beats s (s.handlePrintRequest conn data now) kept := by
  unfold handlePrintRequest
  refine beats_ite (fun _ => beats_reply s _ _) fun _ => beats_ite (fun _ => beats_reply s _ _)
    fun _ => ?_
  split
  · exact beats_reply s _ _
  · exact beats_begun [.jobStarted (requestUser data)] rfl rfl rfl rfl

theorem beats_withdraw : Beats s (s.handleWithdraw conn data now)
    (s.attentionAct conn ATTN_WITHDRAW data = some .ends → s.fastClockOn = false) := by
  unfold handleWithdraw
  refine beats_ite (fun _ => beats_reply s _ _) fun hwaits =>
    beats_ite (fun _ => beats_reply s _ _) fun hsame => ?_
  -- The handshake is over, and the clock is off.
  have hends : s.attentionAct conn ATTN_WITHDRAW data = some .ends := by
    rw [attentionAct, if_neg (by decide), if_pos rfl, if_pos ⟨not_not.1 hwaits, not_not.1 hsame⟩]
  refine beats_same [.jobEnded true] ?_ ?_ rfl fun hoff hon => ?_
  · dsimp only [enter, emit]
    split <;> rfl
  · dsimp only [enter, emit]
    split <;> rfl
  · rw [hoff hends] at hon
    cases hon

theorem beats_endSession : Beats s (s.handleEndSession conn now) kept := by
  refine handleEndSession_cases (P := fun t => Beats s t kept) ?_ ?_ (beats_refl s).reply
  · exact fun _ _ => beats_begun [] rfl (List.append_nil _).symm rfl rfl
  · exact fun _ _ => Beats.reply (beats_same [.rename _] rfl rfl rfl fun _ _ h => h)

theorem beats_serialControl : Beats s (s.handleSerialControl conn data)
    (AsksFast s.fastClock ATTN_SERIAL_CONTROL_JF data → s.busy = true) := by
  unfold handleSerialControl
  split
  · rename_i hclock
    refine ((beats_reply s conn _).trans (beats_followPrinterClock _ ?_)).mono fun h => ⟨h, h⟩
    intro h hfast
    simp only [Bool.and_eq_true, decide_eq_true_eq, bne_iff_ne] at hfast
    exact h ⟨hclock, Or.inr ⟨rfl, hfast⟩⟩
  · exact beats_reply s _ _

theorem beats_serialOptions : Beats s (s.handleSerialOptions conn data)
    (AsksFast s.fastClock ATTN_SERIAL_OPTIONS data → s.busy = true) := by
  unfold handleSerialOptions
  refine beats_ite (fun hclock => ?_) fun _ => beats_reply s _ _
  refine ((beats_reply s conn _).trans (beats_followPrinterClock _ ?_)).mono fun h => ⟨h, h⟩
  exact fun h hfast => h ⟨hclock, Or.inl ⟨rfl, hfast⟩⟩

theorem beats_attention :
    Beats s (s.handleAttention conn code data now) (s.ClockKept (.attention conn code data)) := by
  have hreply : ∀ d, Beats s (s.reply conn d) (s.ClockKept (.attention conn code data)) :=
    fun d => beats_reply s conn d
  refine handleAttention_cases (P := fun t => Beats s t _) hreply (fun _ => beats_printRequest)
    ?withdraw (fun _ => beats_endSession) ?options ?status (fun _ => ?name) ?control ?config
  case withdraw =>
    rintro rfl
    exact beats_withdraw.mono And.right
  case options =>
    rintro rfl
    exact beats_serialOptions.mono And.left
  case control =>
    rintro rfl
    exact beats_serialControl.mono And.left
  case status =>
    refine Beats.reply ?_
    split
    · exact beats_quiet rfl rfl rfl
    · exact beats_refl s
  case name =>
    refine Beats.reply ?_
    split
    · exact beats_ite (fun _ => beats_quiet rfl rfl rfl) fun _ => beats_refl s
    · exact beats_refl s
  case config =>
    exact ((hreply _).trans (beats_followPrinterClock false nofun)).mono fun h => ⟨h, trivial⟩

theorem beats_data {eom : Bool} : Beats s (s.handleData data eom) kept := by
  unfold handleData
  dsimp only
  split
  · exact beats_quiet rfl rfl rfl
  · exact beats_same [.toPrinter data] rfl rfl rfl fun _ _ h => h

theorem beats_callBack {macNode : ServiceAddress} {dataSocket : UInt8}
    (h : s.callBack macNode dataSocket now = some s') : Beats s s' kept := by
  obtain ⟨⟨id, endpoint⟩, -, rfl⟩ := Option.map_eq_some_iff.1 h
  exact beats_begun [] rfl (List.append_nil _).symm rfl rfl

theorem beats_endJob {killSeen : Bool} : Beats s (s.endJob killSeen now) kept := by
  have hreset : Beats s (if killSeen then s else s.emit (.toPrinter PRINTER_RESET)) kept :=
    beats_ite (fun _ => beats_refl s)
      fun _ => beats_same [.toPrinter PRINTER_RESET] rfl rfl rfl fun _ _ h => h
  have hend : ∀ t : StyleWriterRole, t.fastClockOn = false →
      Beats t ((t.emit (.jobEnded killSeen)).enter .idle now) kept := by
    intro t hoff
    refine beats_same [.jobEnded killSeen] rfl rfl rfl fun _ hon => ?_
    rw [hoff] at hon
    cases hon
  have hoff := hreset.trans (@beats_followPrinterClock _ kept false nofun)
  exact (hoff.trans (hend _ (followPrinterClock_on _ false))).mono fun hk => ⟨⟨hk, hk⟩, hk⟩

theorem beats_dropName : Beats s (s.dropName conn) kept := beats_quiet rfl rfl rfl

theorem beats_closed (h : s.handleClosed conn now = some s') : Beats s s' kept := by
  have hdrop : ∀ {t}, Beats (s.dropName conn) t kept → Beats s t kept :=
    fun ht => (beats_dropName.trans ht).mono fun hk => ⟨hk, hk⟩
  unfold handleClosed at h
  split at h
  · split at h
    · exact hdrop (beats_callBack h)
    · obtain rfl := Option.some.inj h
      exact beats_dropName
  · split at h
    · obtain rfl := Option.some.inj h
      exact hdrop beats_endJob
    · obtain rfl := Option.some.inj h
      exact beats_dropName
  · obtain rfl := Option.some.inj h
    exact beats_dropName

/-- **What an ADSP event does to the clock.** -/
theorem beats_event {e : AdspEvent} (h : handleAdspEvent now s e = some s') :
    Beats s s' (s.ClockKept e) := by
  cases e with
  | attention conn code data =>
    obtain rfl := Option.some.inj h
    exact beats_attention
  | closed conn => exact beats_closed h
  | attentionAcked | attentionFailed =>
    obtain rfl := Option.some.inj h
    exact beats_refl s
  | openFailed conn =>
    obtain rfl := Option.some.inj h
    refine beats_ite (fun hconn => ?_) fun _ => beats_refl s
    refine beats_same [] rfl (List.append_nil _).symm rfl fun hoff hon => ?_
    rw [hoff hconn] at hon
    cases hon
  | data conn data eom =>
    simp only [handleAdspEvent] at h
    split at h
    · obtain rfl := Option.some.inj h
      exact beats_ite (fun _ => beats_data) fun _ => beats_refl s
    · obtain rfl := Option.some.inj h
      exact beats_refl s
  | opened conn remote inbound pending =>
    have hopened : ∀ t : StyleWriterRole, some t = some s' → t = s ∨
        t = { s with dataMsgStart := true }.enter (.piping conn false) now →
        Beats s s' (s.ClockKept (.opened conn remote inbound pending)) := by
      rintro t ht hcase
      obtain rfl := Option.some.inj ht
      rcases hcase with rfl | rfl
      · exact beats_refl _
      · exact beats_begun [] rfl (List.append_nil _).symm rfl rfl
    simp only [handleAdspEvent] at h
    split at h
    · split at h
      · exact hopened _ h (Or.inl rfl)
      · exact hopened _ h (Or.inr rfl)
    · split at h
      · exact hopened _ h (Or.inl rfl)
      · exact hopened _ h (Or.inr rfl)
    · exact hopened _ h (Or.inl rfl)

end

/-! ## Calls -/

/-- What the endpoint reports is handled, one event after another, under a
    condition. -/
def Drains (ok : StyleWriterRole → AdspEvent → Prop) (now : Micros) (s : StyleWriterRole)
    (endpoint : AdspEndpoint) : Prop :=
  Along (partialStep (handleAdspEvent now)) (Reached ok)
    (some { s with endpoint := { endpoint with events := [] } }) endpoint.events

instance (ok : StyleWriterRole → AdspEvent → Prop) [∀ s e, Decidable (ok s e)] (now : Micros)
    (s : StyleWriterRole) (endpoint : AdspEndpoint) : Decidable (Drains ok now s endpoint) :=
  inferInstanceAs (Decidable (Along _ _ _ _))

/-- No handshake is late with the clock on. -/
def ExpiryKeepsClock (now : Micros) (s : StyleWriterRole) : Prop :=
  s.state.handshake = true → now - s.stateSince > HANDSHAKE_TIMEOUT_US → s.fastClockOn = false

instance (now : Micros) (s : StyleWriterRole) : Decidable (ExpiryKeepsClock now s) :=
  inferInstanceAs (Decidable (_ → _ → _))

/-- The clock is only ever on within a job. -/
def KeepsClock (s : StyleWriterRole) : RoleInput → Prop
  | .event ev _ => s.ClockKept ev
  | .datagram src payload now => Drains ClockKept now s (s.endpoint.handleDatagram src payload now)
  | .poll now => Drains ClockKept now s (s.endpoint.poll now) ∧
      ∀ t ∈ { s with endpoint := s.endpoint.poll now }.drainEndpoint now, ExpiryKeepsClock now t
  | _ => True

instance (s : StyleWriterRole) (i : RoleInput) : Decidable (s.KeepsClock i) :=
  match i with
  | .event ev _ => inferInstanceAs (Decidable (s.ClockKept ev))
  | .datagram .. => inferInstanceAs (Decidable (Drains ..))
  | .poll now => inferInstanceAs (Decidable (_ ∧ ∀ t ∈ _, ExpiryKeepsClock now t))
  | .setPrinterCredit _ | .setPrinterDrained _ | .printerInput _ | .pollTransmit | .pollEvent =>
    inferInstanceAs (Decidable True)

/-- The data connection of a job is there. -/
def Piped (s : StyleWriterRole) : Prop :=
  ∀ dc kill, s.state = .piping dc kill → ∃ id, s.endpoint.ourConnId? dc = some id

section
variable {s s' : StyleWriterRole} {now : Micros} {kept : Prop}

theorem beats_events {evs : List AdspEvent}
    (h : run (partialStep (handleAdspEvent now)) (some s) evs = some s') :
    Beats s s' (Along (partialStep (handleAdspEvent now)) (Reached ClockKept) (some s) evs) := by
  induction evs generalizing s with
  | nil =>
    obtain rfl := Option.some.inj h
    exact beats_refl s
  | cons e evs ih =>
    obtain ⟨t, ht, hrest⟩ := run_partialStep_cons h
    refine ((beats_event ht).trans (ih hrest)).mono fun hk => ⟨hk.1 s rfl, ?_⟩
    rw [← ht]
    exact hk.2

theorem beats_drain {endpoint : AdspEndpoint}
    (h : { s with endpoint }.drainEndpoint now = some s') :
    Beats s s' (Drains ClockKept now s endpoint) := by
  have hep : Beats s { s with endpoint := { endpoint with events := [] } }
      (Drains ClockKept now s endpoint) := beats_quiet rfl rfl rfl
  exact (hep.trans (beats_events h)).mono fun hk => ⟨hk, hk⟩

theorem beats_expire (s : StyleWriterRole) (now : Micros) :
    Beats s (s.expireStalledHandshake now) (ExpiryKeepsClock now s) := by
  refine beats_ite (fun hlate => ?_) fun _ => beats_refl s
  refine beats_same [.jobEnded false] rfl rfl rfl fun hoff hon => ?_
  rw [hoff hlate.1 hlate.2] at hon
  cases hon

theorem beats_poll (h : s.poll now = some s') : Beats s s' (s.KeepsClock (.poll now)) := by
  obtain ⟨t, ht, rfl⟩ := Option.map_eq_some_iff.1 h
  exact ((beats_drain ht).trans (beats_expire t now)).mono fun hk => ⟨hk.1, hk.2 t ht⟩

/-! ### The data connection -/

theorem piped_same (hp : s.Piped) (hstate : s'.state = s.state)
    (hids : ∀ dc kill, s.state = .piping dc kill →
      s'.endpoint.ourConnId? dc = s.endpoint.ourConnId? dc) : s'.Piped := by
  intro dc kill hpiping
  rw [hstate] at hpiping
  rw [hids dc kill hpiping]
  exact hp dc kill hpiping

theorem piped_turn {t : StyleWriterRole} (hp : t.Piped) (h : Turn t s') : s'.Piped := by
  cases h with
  | stays h hstate => exact piped_same hp hstate fun dc _ _ => h.ids dc
  | takes h hidle hstate =>
    intro dc kill hpiping
    rw [hstate] at hpiping
    cases hpiping
  | marks h hpiping hstate =>
    intro dc kill hpiping'
    rw [hstate] at hpiping'
    obtain ⟨rfl, -⟩ := RoleState.piping.inj hpiping'
    rw [h.ids]
    exact hp _ _ hpiping
  | withdrawn hwaits hstate hopens =>
    intro dc kill hpiping
    rw [hstate] at hpiping
    cases hpiping

/-- An outbound open is taken for the data connection, where one is waited for. -/
theorem piped_opened {conn : UInt16} {remote : ServiceAddress} {pending : Option UInt16} {id : UInt16}
    (hid : s.endpoint.ourConnId? conn = some id)
    (h : handleAdspEvent now s (.opened conn remote false pending) = some s') :
    s'.Piped := by
  simp only [handleAdspEvent] at h
  split at h
  · obtain rfl := Option.some.inj h
    intro dc kill hpiping
    obtain ⟨rfl, -⟩ := RoleState.piping.inj hpiping
    exact ⟨id, hid⟩
  · obtain rfl := Option.some.inj h
    intro dc kill hpiping
    obtain ⟨rfl, -⟩ := RoleState.piping.inj hpiping
    exact ⟨id, hid⟩
  · rename_i hconn hpiping'
    obtain rfl := Option.some.inj h
    exact fun dc kill hpiping => absurd hpiping (hpiping' dc kill)

/-- A datagram that closes the data connection ends the job. -/
theorem piped_datagram {src : ServiceAddress} {payload : Bytes} (hq : s.endpoint.events = [])
    (hp : s.Piped) (h : s.handleDatagram src payload now = some s') : s'.Piped := by
  obtain ⟨t, e, hstate, -, hout, hrun⟩ := told_of_datagram hq h
  have hkeeps : (∀ dc kill, s.state = .piping dc kill →
      t.endpoint.ourConnId? dc = s.endpoint.ourConnId? dc) → t.Piped := piped_same hp hstate
  rcases e with _ | e
  · obtain rfl := Option.some.inj hrun
    cases hout with
    | quiet htends => exact hkeeps fun dc _ _ => htends.ids dc
  replace hrun : handleAdspEvent now t e = some s' := hrun
  cases hout with
  | hears htends hplain =>
    exact piped_turn (hkeeps fun dc _ _ => htends.ids dc) (turn_plain hplain hrun)
  | @accepts k src hnone hopens hids =>
    rw [same_of_inbound hrun]
    refine hkeeps fun dc kill hpiping => hids dc ?_
    rintro rfl
    obtain ⟨id, hdc⟩ := hp dc kill hpiping
    cases hnone.symm.trans hdc
  | completes hmem hopens hid => exact piped_opened hid hrun
  | moves hmoved hopens hnot hid => exact piped_opened hid hrun
  | denied hopens hmem hids =>
    have ht' : t.Piped := hkeeps fun dc _ _ => hids dc
    obtain rfl := Option.some.inj hrun
    split
    · exact fun dc kill hpiping => nomatch hpiping
    · exact ht'
  | @closes k hopens hids =>
    by_cases hover : t.state.Over (.closed k)
    · intro dc kill hpiping
      rcases timer_ends hover hrun with ⟨hidle, -⟩ | ⟨c, ctrl, mac, sock, -, hconn, -⟩
      · cases hidle.symm.trans hpiping
      · cases hconn.symm.trans hpiping
    · obtain ⟨s'', hs'', hep, hstate', -⟩ := timer_passes now (Or.inr (Or.inr ⟨k, rfl⟩)) hover
      obtain rfl := Option.some.inj (hs''.symm.trans hrun)
      refine piped_same hp (hstate'.trans hstate) fun dc kill hpiping => ?_
      rw [hep, hids dc]
      rintro rfl
      rw [hstate, hpiping] at hover
      exact hover rfl

theorem piping_timers {evs : List AdspEvent} (hevs : ∀ e ∈ evs, FromTimer e)
    (h : run (partialStep (handleAdspEvent now)) (some s) evs = some s') {dc : UInt16} {kill : Bool}
    (hpiping : s'.state = .piping dc kill) :
    s.state = .piping dc kill ∧ s'.endpoint = s.endpoint ∧ .closed dc ∉ evs := by
  induction evs generalizing s with
  | nil =>
    obtain rfl := Option.some.inj h
    exact ⟨hpiping, rfl, List.not_mem_nil⟩
  | cons e evs ih =>
    obtain ⟨t, ht, hrest⟩ := run_partialStep_cons h
    obtain ⟨hpiping', hep', hnot⟩ := ih (fun e he => hevs e (List.mem_cons_of_mem _ he)) hrest
    by_cases hover : s.state.Over e
    · rcases timer_ends hover ht with ⟨hidle, -⟩ | ⟨c, ctrl, mac, sock, -, hconn, -⟩
      · cases hidle.symm.trans hpiping'
      · cases hconn.symm.trans hpiping'
    · obtain ⟨t', ht', hep, hstate, -⟩ := timer_passes now (hevs e List.mem_cons_self) hover
      obtain rfl := Option.some.inj (ht'.symm.trans ht)
      have hst := hstate.symm.trans hpiping'
      refine ⟨hst, hep'.trans hep, fun hmem => ?_⟩
      rcases List.mem_cons.1 hmem with rfl | hmem
      · rw [hst] at hover
        exact hover rfl
      · exact hnot hmem

theorem piped_poll (hq : s.endpoint.events = []) (hp : s.Piped) (h : s.poll now = some s') :
    s'.Piped := by
  obtain ⟨t, hrun, rfl⟩ := Option.map_eq_some_iff.1 h
  have hevs := fromTimer_of_mem_poll hq now
  intro dc kill hpiping
  have hsame : t.state = .piping dc kill ∧ (t.expireStalledHandshake now).endpoint = t.endpoint := by
    unfold expireStalledHandshake at hpiping ⊢
    split
    · rename_i hlate
      rw [if_pos hlate] at hpiping
      cases hpiping
    · rename_i hlate
      rw [if_neg hlate] at hpiping
      exact ⟨hpiping, rfl⟩
  obtain ⟨hpiping', hep, hnot⟩ := piping_timers hevs hrun hsame.1
  rw [hsame.2, hep]
  refine Eq.subst (motive := fun o => ∃ id, o = some id)
    ((s.endpoint.ourConnId?_poll now dc).resolve_right hnot).symm (hp dc kill hpiping')

end

end StyleWriterRole

/-! ## Runs -/

namespace RoleSession

/-- The marks of the clock, in order, and whether the port follows the printer's clock. -/
def clockDesk (s : RoleSession) : Desk := s.role.clockDesk s.taken

/-- The `FastClockEnable` and `FastClockDisable` events strictly alternate, and the last of them is
    no `FastClockEnable` while the role is free, or while the data connection of its job is gone. -/
structure ClockOk (s : RoleSession) : Prop where
  alternates : Alternates (s.emitted.filterMap clockMark)
  free : s.role.busy = false → (s.emitted.filterMap clockMark).getLast? ≠ some .opens
  gone : ∀ dc kill, s.role.state = .piping dc kill → s.role.endpoint.remoteOf dc = none →
    (s.emitted.filterMap clockMark).getLast? ≠ some .opens

/-- What a run keeps of the clock and the job. -/
structure Timed (s : RoleSession) : Prop where
  sound : s.clockDesk.Sound
  busy : s.role.fastClockOn = true → s.role.busy = true
  piped : s.role.Piped
  handled : s.role.endpoint.events = []

section
variable {s s' : RoleSession} {i : RoleInput}

theorem beats_step (h : s.step i = some s') :
    (s.clockDesk.Sound → s'.clockDesk.Sound) ∧
      (s.role.KeepsClock i → (s.role.fastClockOn = true → s.role.busy = true) →
        s'.role.fastClockOn = true → s'.role.busy = true) := by
  have hwork : ∀ (r : StyleWriterRole) kept, StyleWriterRole.Beats s.role r kept →
      (s.clockDesk.Sound → (⟨r, s.taken⟩ : RoleSession).clockDesk.Sound) ∧
        (kept → (s.role.fastClockOn = true → s.role.busy = true) →
          r.fastClockOn = true → r.busy = true) := fun r kept hb => ⟨hb.sound s.taken, hb.busy⟩
  have hsame : ∀ r : StyleWriterRole, some (⟨r, s.taken⟩ : RoleSession) = some s' →
      r.fastClockOn = s.role.fastClockOn → r.events = s.role.events → r.busy = s.role.busy →
      (s.clockDesk.Sound → s'.clockDesk.Sound) ∧
        (s.role.KeepsClock i → (s.role.fastClockOn = true → s.role.busy = true) →
          s'.role.fastClockOn = true → s'.role.busy = true) := by
    rintro r hr hon hevents hbusy
    obtain rfl := Option.some.inj hr
    exact hwork r _ (StyleWriterRole.beats_quiet hon hevents hbusy)
  cases i with
  | event ev now =>
    obtain ⟨r, hr, rfl⟩ := Option.map_eq_some_iff.1 h
    exact hwork r _ (StyleWriterRole.beats_event hr)
  | datagram src payload now =>
    obtain ⟨r, hr, rfl⟩ := Option.map_eq_some_iff.1 h
    exact hwork r _ (StyleWriterRole.beats_drain hr)
  | poll now =>
    obtain ⟨r, hr, rfl⟩ := Option.map_eq_some_iff.1 h
    exact hwork r _ (StyleWriterRole.beats_poll hr)
  | setPrinterCredit bytes => exact hsame _ h rfl rfl rfl
  | setPrinterDrained drained => exact hsame _ h rfl rfl rfl
  | pollTransmit => exact hsame _ h rfl rfl rfl
  | printerInput data =>
    refine hsame _ h ?_ ?_ ?_ <;> unfold StyleWriterRole.printerInput <;> split <;> rfl
  | pollEvent =>
    obtain rfl := Option.some.inj h
    refine ⟨fun hs => ?_, fun _ hbusy hon => hbusy hon⟩
    have hdesk : (⟨s.role.pollEvent.2, s.taken ++ s.role.pollEvent.1.toList⟩ :
        RoleSession).clockDesk = s.clockDesk := by
      simp only [clockDesk, StyleWriterRole.clockDesk, List.append_assoc,
        StyleWriterRole.pollEvent_events]
      rfl
    exact hdesk ▸ hs

/-- No call loses the data connection and keeps its job. -/
theorem piped_step (hcall : i.IsCall) (hq : s.role.endpoint.events = []) (hp : s.role.Piped)
    (h : s.step i = some s') : s'.role.Piped := by
  have hsame : ∀ r : StyleWriterRole, some (⟨r, s.taken⟩ : RoleSession) = some s' →
      r.state = s.role.state → s.role.endpoint.Tends r.endpoint → s'.role.Piped := by
    rintro r hr hstate htends
    obtain rfl := Option.some.inj hr
    exact StyleWriterRole.piped_same hp hstate fun dc _ _ => htends.ids dc
  cases i with
  | event => exact hcall.elim
  | datagram src payload now =>
    obtain ⟨r, hr, rfl⟩ := Option.map_eq_some_iff.1 h
    exact StyleWriterRole.piped_datagram hq hp hr
  | poll now =>
    obtain ⟨r, hr, rfl⟩ := Option.map_eq_some_iff.1 h
    exact StyleWriterRole.piped_poll hq hp hr
  | setPrinterCredit bytes => exact hsame _ h rfl (s.role.endpoint.tends_setRecvWindow _)
  | setPrinterDrained drained => exact hsame _ h rfl (.refl _)
  | pollTransmit => exact hsame _ h rfl ⟨fun _ => Iff.rfl, fun _ => rfl⟩
  | printerInput data =>
    refine hsame _ h ?_ ?_ <;> unfold StyleWriterRole.printerInput <;> split
    · rfl
    · rfl
    · exact StyleWriterRole.tends_reply _ _ data
    · exact .refl _
  | pollEvent =>
    obtain rfl := Option.some.inj h
    exact StyleWriterRole.piped_same hp rfl fun _ _ _ => rfl

theorem timed_step (ht : s.Timed) (hkept : s.role.KeepsClock i) (hcall : i.IsCall)
    (h : s.step i = some s') : s'.Timed := by
  obtain ⟨hsound, hbusy⟩ := beats_step h
  exact ⟨hsound ht.sound, hbusy hkept ht.busy, piped_step hcall ht.handled ht.piped h,
    handled_step ht.handled h⟩

theorem timed_start (controlSocket : UInt8) (seed : UInt32) (fastClock : FastClock) :
    (start controlSocket seed fastClock).Timed :=
  ⟨⟨alternates_nil, by simp [clockDesk, StyleWriterRole.clockDesk, start, StyleWriterRole.new]⟩,
    nofun, nofun, rfl⟩

theorem Timed.clockOk (h : s.Timed) : s.ClockOk := by
  refine ⟨h.sound.alternates, fun hfree hlast => ?_, fun dc kill hpiping hgone _ => ?_⟩
  · have hbusy := h.busy (h.sound.busy_iff.2 hlast)
    rw [hfree] at hbusy
    cases hbusy
  · obtain ⟨id, hid⟩ := h.piped dc kill hpiping
    rw [AdspEndpoint.remoteOf, Option.map_eq_none_iff] at hgone
    rw [AdspEndpoint.ourConnId?, hgone] at hid
    cases hid

end

end RoleSession

/-- **The switches of the clock alternate**, in every run of every role, and the last of them tells
    whether the port follows the printer. -/
theorem clock_alternates (controlSocket : UInt8) (seed : UInt32) (fastClock : FastClock)
    (inputs : List RoleInput) :
    ∀ s ∈ run (partialStep RoleSession.step) (some (.start controlSocket seed fastClock)) inputs,
      s.clockDesk.Sound := by
  have hgood : ∀ (s : RoleSession) (i : RoleInput), s.clockDesk.Sound → True → True :=
    fun _ _ _ _ => trivial
  have hstep : ∀ (s : RoleSession) (i : RoleInput) (s' : RoleSession),
      s.clockDesk.Sound → True → s.step i = some s' → s'.clockDesk.Sound :=
    fun s i s' hs _ h => (RoleSession.beats_step h).1 hs
  have hstart : ∀ s, some (RoleSession.start controlSocket seed fastClock) = some s →
      s.clockDesk.Sound := by
    intro s hs
    obtain rfl := Option.some.inj hs
    exact (RoleSession.timed_start controlSocket seed fastClock).sound
  have hall : Along (partialStep RoleSession.step)
      (Reached fun (_ : RoleSession) (_ : RoleInput) => True)
      (some (.start controlSocket seed fastClock)) inputs :=
    (along_true _ inputs).mono _ fun _ _ _ _ _ => trivial
  exact (along_reached hgood hstep hstart hall).2

/-- **The fast clock is that of a job.** In every run of calls on a role that keeps the clock, its
    switches alternate, and the last of them is no `FastClockEnable` while the role is free or the
    data connection of its job is gone. -/
theorem clock_follows_job (controlSocket : UInt8) (seed : UInt32) (fastClock : FastClock)
    {inputs : List RoleInput} (hcalls : ∀ i ∈ inputs, i.IsCall)
    (hkept : Along (partialStep RoleSession.step) (Reached fun s i => s.role.KeepsClock i)
      (some (.start controlSocket seed fastClock)) inputs) :
    ∀ before after, inputs = before ++ after →
      ∀ s ∈ run (partialStep RoleSession.step) (some (.start controlSocket seed fastClock)) before,
        s.ClockOk := by
  rintro before after rfl s hs
  have hok : Along (partialStep RoleSession.step)
      (Reached fun s i => s.role.KeepsClock i ∧ i.IsCall)
      (some (.start controlSocket seed fastClock)) before := by
    have hcalls' := along_of_forall (partialStep RoleSession.step)
      (s := some (.start controlSocket seed fastClock))
      fun i hi => hcalls i (List.mem_append_left after hi)
    exact (((Along.append _).1 hkept).1.and _ hcalls').mono _
      fun o i h t ht => ⟨h.1 t ht, h.2⟩
  have hstart : ∀ s, some (RoleSession.start controlSocket seed fastClock) = some s → s.Timed := by
    intro s hs
    obtain rfl := Option.some.inj hs
    exact RoleSession.timed_start controlSocket seed fastClock
  have hstep : ∀ (s : RoleSession) (i : RoleInput) (s' : RoleSession), s.Timed →
      s.role.KeepsClock i ∧ i.IsCall → s.step i = some s' → s'.Timed :=
    fun s i s' ht hok h => RoleSession.timed_step ht hok.1 hok.2 h
  have hgood : ∀ (s : RoleSession) (i : RoleInput), s.Timed →
      s.role.KeepsClock i ∧ i.IsCall → True := fun _ _ _ _ => trivial
  exact ((along_reached hgood hstep hstart hok).2 s hs).clockOk

/-- An attention of the Mac on a connection, and its place among them. -/
def attentionFrom (conn : UInt16) (seq : UInt32) (code : UInt16) (data : Bytes) : RoleInput :=
  .datagram ⟨0, 10, 70⟩ (({ descriptor := .dataPacket
                            connectionId := conn
                            firstByteSeq := seq
                            nextRecvSeq := 0
                            recvWindow := 0
                            flags := AdspPacket.FLAG_ATTENTION } : AdspPacket).toBytes ++
    (be16 code ++ data)) 0

/-- The Mac opens a control connection. -/
def controlOpened (conn : UInt16) : RoleInput :=
  fromMac .openConnRequest conn 0 (be16 0x0100 ++ List.replicate 6 0)

/-- The clock of a Mac that has no job. -/
theorem clock_alternates_free : ∃ s : RoleSession, s.emitted = [.fastClockEnable] ∧
    s.role.busy = false ∧ s.clockDesk.Sound := by
  have hrun : (run (partialStep RoleSession.step) (some (.start 129 5 .supported))
      [controlOpened 7, attentionFrom 7 0 ATTN_SERIAL_OPTIONS [SERIAL_EXTERNAL_CLOCK]]).map
      (fun s => (s.emitted, s.role.busy)) = some ([.fastClockEnable], false) := by decide
  obtain ⟨s, hs, hview⟩ := Option.map_eq_some_iff.1 hrun
  obtain ⟨hemitted, hfree⟩ := Prod.mk.inj hview
  exact ⟨s, hemitted, hfree, clock_alternates 129 5 .supported _ s hs⟩

/-- The Mac asks for the fast clock in its job, and vanishes. -/
def fastRun : List RoleInput :=
  acceptedJob 7 ++ [answerDial .openConnReqAck,
    attentionFrom 9 0 ATTN_SERIAL_OPTIONS [SERIAL_EXTERNAL_CLOCK],
    fromMac .closeAdvice 9 0 []]

theorem clock_follows_job_fastRun :
    (∀ before after, fastRun = before ++ after →
      ∀ s ∈ run (partialStep RoleSession.step) (some (.start 129 5 .supported)) before,
        s.ClockOk) ∧
    (run (partialStep RoleSession.step) (some (.start 129 5 .supported)) fastRun).map (·.emitted) =
      some [.jobStarted [65], .fastClockEnable, .toPrinter PRINTER_RESET, .fastClockDisable,
        .jobEnded false] := by
  refine ⟨clock_follows_job 129 5 .supported ?_ ?_, by decide⟩
  · simp [fastRun, acceptedJob, answerDial, fromMac, attentionFrom, RoleInput.IsCall]
  · decide

/-- A Mac without a job gets the fast clock; one that withdraws its request leaves it on. -/
theorem clock_without_job :
    (∃ s, run (partialStep RoleSession.step) (some (.start 129 5 .supported))
      [controlOpened 7, attentionFrom 7 0 ATTN_SERIAL_OPTIONS [SERIAL_EXTERNAL_CLOCK]] = some s ∧
      s.emitted = [.fastClockEnable] ∧ s.role.state = .idle ∧ ¬ s.ClockOk) ∧
    ∃ s, run (partialStep RoleSession.step) (some (.start 129 5 .supported))
      [controlOpened 7, attentionFrom 7 0 ATTN_PRINT_REQUEST [0, 0, 0, 70, 1, 65],
        attentionFrom 7 1 ATTN_SERIAL_OPTIONS [SERIAL_EXTERNAL_CLOCK],
        attentionFrom 7 2 ATTN_WITHDRAW [0, 0, 0, 70, 1, 65]] = some s ∧
      s.emitted = [.jobStarted [65], .fastClockEnable, .jobEnded true] ∧ s.role.state = .idle ∧
      ¬ s.ClockOk := by
  have hnot : ∀ s : RoleSession, s.role.state = .idle →
      (s.emitted.filterMap clockMark).getLast? = some .opens → ¬ s.ClockOk :=
    fun s hidle hlast hok => hok.free (by rw [StyleWriterRole.busy, hidle]; rfl) hlast
  have hfree : (run (partialStep RoleSession.step) (some (.start 129 5 .supported))
      [controlOpened 7, attentionFrom 7 0 ATTN_SERIAL_OPTIONS [SERIAL_EXTERNAL_CLOCK]]).map
      (fun s => (s.emitted, s.role.state)) = some ([.fastClockEnable], .idle) := by
    decide
  have hwithdrawn : (run (partialStep RoleSession.step) (some (.start 129 5 .supported))
      [controlOpened 7, attentionFrom 7 0 ATTN_PRINT_REQUEST [0, 0, 0, 70, 1, 65],
        attentionFrom 7 1 ATTN_SERIAL_OPTIONS [SERIAL_EXTERNAL_CLOCK],
        attentionFrom 7 2 ATTN_WITHDRAW [0, 0, 0, 70, 1, 65]]).map
      (fun s => (s.emitted, s.role.state)) =
      some ([.jobStarted [65], .fastClockEnable, .jobEnded true], .idle) := by
    decide
  obtain ⟨s, hs, hview⟩ := Option.map_eq_some_iff.1 hfree
  obtain ⟨t, ht, hview'⟩ := Option.map_eq_some_iff.1 hwithdrawn
  obtain ⟨hemitted, hidle⟩ := Prod.mk.inj hview
  obtain ⟨hemitted', hidle'⟩ := Prod.mk.inj hview'
  exact ⟨⟨s, hs, hemitted, hidle, hnot s hidle (by rw [hemitted]; rfl)⟩,
    t, ht, hemitted', hidle', hnot t hidle' (by rw [hemitted']; rfl)⟩

end TailTalk
