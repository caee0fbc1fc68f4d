/-
  The timers of a StyleWriter role.

  A poll leaves no timer due, with two exceptions: exactly
  `HANDSHAKE_TIMEOUT_US` into a wait that goes on (`AtHandshake`), when the
  handshake is kept; and a call back for which no ConnID is ever drawn
  (`DialStuck`).
-/
import TailTalk.Stack.Timers
import TailTalk.StyleWriter.Jobs

namespace TailTalk

open Lib

/-! ## What the timers of the endpoint report -/

/-- An open that is due and has no retry left. -/
def PendingOpen.Spent (now : Micros) (o : PendingOpen) : Prop :=
  OPEN_RETRY_INTERVAL ≤ now - o.lastTx ∧ MAX_OPEN_RETRIES < o.retries + 1

instance (now : Micros) : DecidablePred (PendingOpen.Spent now) := fun _ => instDecidableAnd

/-- A connection whose data is due and has no retry left. -/
def Connection.Spent (now : Micros) (c : Connection) : Prop :=
  c.retransmitDue now = true ∧ ADSP_MAX_RETRIES < c.retries + 1

namespace AdspEndpoint
variable {ep : AdspEndpoint} {now : Micros} {k : UInt16}

/-! ### Opens -/

theorem failOpens_spec (failed : List (UInt16 × PendingOpen)) : ∀ ep : AdspEndpoint,
    let ep' := failed.foldl (fun ep io => (ep.abandonOpen io.1).emit (.openFailed io.1)) ep
    ep'.events = ep.events ++ failed.map (fun io => .openFailed io.1) ∧
      ep'.connections = ep.connections ∧ ep'.rng = ep.rng ∧
      ∀ k, k ∈ ep'.pendingOpens ↔ k ∈ ep.pendingOpens ∧ k ∉ failed.map Prod.fst := by
  induction failed with
  | nil => intro ep; simp
  | cons io failed ih =>
    intro ep
    obtain ⟨hevents, hconns, hrng, hopens⟩ := ih ((ep.abandonOpen io.1).emit (.openFailed io.1))
    refine ⟨?_, hconns, hrng, fun k => ?_⟩
    · rw [List.foldl_cons, hevents]
      simp [emit, abandonOpen]
    · rw [List.foldl_cons, hopens]
      simp only [emit, abandonOpen, Std.TreeMap.mem_erase, List.map_cons, List.mem_cons, not_or,
        ne_eq, Std.LawfulEqCmp.compare_eq_iff_eq, eq_comm (a := io.1)]
      tauto

theorem retryOpens_spec (now : Micros) (retry : List (UInt16 × PendingOpen)) : ∀ ep : AdspEndpoint,
    let ep' := retry.foldl (fun ep io =>
        ({ ep with
          pendingOpens := ep.pendingOpens.insert io.1 ⟨io.2.remote, now, io.2.retries + 1⟩ }
          : AdspEndpoint).sendOpenRequest io.1 io.2.remote) ep
    ep'.events = ep.events ∧ ep'.connections = ep.connections ∧ ep'.rng = ep.rng ∧
      ∀ k, k ∈ ep'.pendingOpens ↔ k ∈ ep.pendingOpens ∨ k ∈ retry.map Prod.fst := by
  induction retry with
  | nil => intro ep; simp
  | cons io retry ih =>
    intro ep
    obtain ⟨hevents, hconns, hrng, hopens⟩ := ih (({ ep with
      pendingOpens := ep.pendingOpens.insert io.1 ⟨io.2.remote, now, io.2.retries + 1⟩ }
        : AdspEndpoint).sendOpenRequest io.1 io.2.remote)
    refine ⟨hevents, hconns, hrng, fun k => ?_⟩
    rw [List.foldl_cons, hopens]
    simp only [sendOpenRequest, push, Std.TreeMap.mem_insert, List.map_cons, List.mem_cons,
      Std.LawfulEqCmp.compare_eq_iff_eq, eq_comm (a := io.1)]
    tauto

theorem pollOpens_spec (ep : AdspEndpoint) (now : Micros) :
    (∀ e, e ∈ (ep.pollOpens now).events ↔ e ∈ ep.events ∨
      ∃ k o, e = .openFailed k ∧ ep.pendingOpens[k]? = some o ∧ o.Spent now) ∧
    (ep.pollOpens now).connections = ep.connections ∧ (ep.pollOpens now).rng = ep.rng ∧
    ∀ k, k ∈ (ep.pollOpens now).pendingOpens ↔
      ∃ o, ep.pendingOpens[k]? = some o ∧ ¬ o.Spent now := by
  have hdue : ∀ k o, (k, o) ∈ (ep.pendingOpens.toList.filter
      fun io => ¬ now - io.2.lastTx < OPEN_RETRY_INTERVAL) ↔
      ep.pendingOpens[k]? = some o ∧ OPEN_RETRY_INTERVAL ≤ now - o.lastTx := by
    intro k o
    simp [List.mem_filter, Std.TreeMap.mem_toList_iff_getElem?_eq_some]
  unfold pollOpens
  dsimp only
  generalize ep.pendingOpens.toList.filter
    (fun io => ¬ now - io.2.lastTx < OPEN_RETRY_INTERVAL) = due at hdue
  obtain ⟨hevents, hconns, hrng, hopens⟩ :=
    failOpens_spec (due.filter fun io => io.2.retries + 1 > MAX_OPEN_RETRIES) ep
  obtain ⟨hevents', hconns', hrng', hopens'⟩ := retryOpens_spec now
    (due.filter fun io => ¬ io.2.retries + 1 > MAX_OPEN_RETRIES)
    ((due.filter fun io => io.2.retries + 1 > MAX_OPEN_RETRIES).foldl
      (fun ep io => (ep.abandonOpen io.1).emit (.openFailed io.1)) ep)
  refine ⟨fun e => ?_, hconns'.trans hconns, hrng'.trans hrng, fun k => ?_⟩
  · rw [hevents', hevents, List.mem_append, List.mem_map]
    refine or_congr_right ⟨?_, ?_⟩
    · rintro ⟨⟨k, o⟩, hmem, rfl⟩
      obtain ⟨hmem, hretries⟩ := List.mem_filter.1 hmem
      obtain ⟨ho, hold⟩ := (hdue k o).1 hmem
      exact ⟨k, o, rfl, ho, hold, by simpa using hretries⟩
    · rintro ⟨k, o, rfl, ho, hold, hretries⟩
      exact ⟨(k, o), List.mem_filter.2 ⟨(hdue k o).2 ⟨ho, hold⟩, by simpa using hretries⟩, rfl⟩
  · have hfailed : k ∈ (due.filter fun io => io.2.retries + 1 > MAX_OPEN_RETRIES).map Prod.fst ↔
        ∃ o, ep.pendingOpens[k]? = some o ∧ o.Spent now := by
      simp [hdue, PendingOpen.Spent, and_assoc]
    have hretry : k ∈ (due.filter fun io => ¬ io.2.retries + 1 > MAX_OPEN_RETRIES).map Prod.fst →
        ∃ o, ep.pendingOpens[k]? = some o ∧ ¬ o.Spent now := by
      simp only [List.mem_map, List.mem_filter, Prod.exists, hdue]
      rintro ⟨_, o, ⟨⟨ho, -⟩, hretries⟩, rfl⟩
      exact ⟨o, ho, fun hspent => by simp [hspent.2] at hretries⟩
    rw [hopens', hopens, hfailed]
    constructor
    · rintro (⟨hmem, hnot⟩ | hmem)
      · obtain ⟨o, ho⟩ := Option.isSome_iff_exists.1 (Std.TreeMap.isSome_getElem?_iff_mem.2 hmem)
        exact ⟨o, ho, fun hspent => hnot ⟨o, ho, hspent⟩⟩
      · exact hretry hmem
    · rintro ⟨o, ho, hnot⟩
      refine Or.inl ⟨Std.TreeMap.isSome_getElem?_iff_mem.1 (by rw [ho]; rfl), ?_⟩
      rintro ⟨o', ho', hspent⟩
      obtain rfl := Option.some.inj (ho.symm.trans ho')
      exact hnot hspent

/-! ### Connections -/

theorem mem_events_attention {keys : List UInt16} {e : AdspEvent} : ∀ {ep : AdspEndpoint},
    (e ∈ ep.events → e ∈ (keys.foldl
      (fun ep key => ep.onConn key (Connection.pollAttention key now)) ep).events) ∧
    (e ∈ (keys.foldl (fun ep key => ep.onConn key (Connection.pollAttention key now)) ep).events →
      e ∈ ep.events ∨ ∃ k, e = .attentionFailed k) := by
  induction keys with
  | nil => exact fun {ep} => ⟨id, Or.inl⟩
  | cons key keys ih =>
    intro ep
    have hone :
        (∀ x, x ∈ ep.events → x ∈ (ep.onConn key (Connection.pollAttention key now)).events) ∧
        (e ∈ (ep.onConn key (Connection.pollAttention key now)).events →
          e ∈ ep.events ∨ ∃ k, e = .attentionFailed k) := by
      unfold onConn
      rcases ep.connections[key]? with _ | c
      · exact ⟨fun _ => id, Or.inl⟩
      refine ⟨fun x hx => List.mem_append_left _ hx, fun h => (List.mem_append.1 h).imp_right ?_⟩
      unfold Connection.pollAttention
      split
      · exact fun h => nomatch h
      split_ifs
      · exact fun h => nomatch h
      · exact fun h => ⟨key, List.mem_singleton.1 h⟩
      · exact fun h => nomatch h
    obtain ⟨hup, hdown⟩ := @ih (ep.onConn key (Connection.pollAttention key now))
    refine ⟨fun h => hup (hone.1 e h), fun h => ?_⟩
    rcases hdown h with h | h
    · exact hone.2 h
    · exact Or.inr h

theorem getElem?_attention (ep : AdspEndpoint) (now : Micros) (k : UInt16) :
    (ep.connections.keys.foldl (fun ep key => ep.onConn key (Connection.pollAttention key now))
      ep).connections[k]? = ep.connections[k]?.map fun c => (c.pollAttention k now).conn := by
  have hapart : ∀ (ep : AdspEndpoint) (j : UInt16), j ≠ k →
      Apart k ep (ep.onConn j (Connection.pollAttention j now)) :=
    fun ep j hj => apart_onConn ep hj _
  by_cases hk : k ∈ ep.connections
  · obtain ⟨ep', hsame, hafter⟩ := foldl_keys_at hapart hk ep
    rw [hafter.connection]
    obtain ⟨c, hc⟩ := Option.isSome_iff_exists.1 (Std.TreeMap.isSome_getElem?_iff_mem.2 hk)
    rw [(onConn_of_some (hsame.connection.trans hc)).1, hc]
    rfl
  · have hsame := apart_foldl_ne hapart (mt Std.TreeMap.mem_keys.1 hk) ep
    rw [hsame.connection, Std.TreeMap.getElem?_eq_none hk]
    rfl

theorem spent_pollAttention (c : Connection) :
    (c.pollAttention k now).conn.Spent now ↔ c.Spent now := by
  rw [pollAttention_conn]
  rfl

theorem mem_events_pollData {e : AdspEvent} : e ∈ (ep.pollData now k).events ↔
    e ∈ ep.events ∨ (e = .closed k ∧ ∃ c, ep.connections[k]? = some c ∧ c.Spent now) := by
  unfold pollData
  rcases hc : ep.connections[k]? with _ | c
  · simp
  dsimp only
  by_cases hdue : c.retransmitDue now = true
  · have hlast : min (c.retries + 1) 255 > ADSP_MAX_RETRIES ↔ ADSP_MAX_RETRIES < c.retries + 1 := by
      rw [gt_iff_lt, lt_min_iff]
      exact and_iff_left (by decide)
    rw [if_neg (not_not.2 hdue)]
    split_ifs with hretries
    · have hspent : c.Spent now := ⟨hdue, hlast.1 hretries⟩
      simp [emit, forget, hspent]
    · have hno : ¬ c.Spent now := fun h => hretries (hlast.2 h.2)
      have hresend : (({ c with retries := min (c.retries + 1) 255 } :
          Connection).resendUnacked ep.recvWindow now).events = [] := by
        unfold Connection.resendUnacked
        split <;> rfl
      simp [onConn, hc, hresend, hno]
  · simp [hdue, Connection.Spent]

theorem mem_events_data {e : AdspEvent} {keys : List UInt16} (hnodup : keys.Nodup) :
    ∀ {ep : AdspEndpoint}, e ∈ (keys.foldl (pollData now) ep).events ↔
      e ∈ ep.events ∨
        ∃ k ∈ keys, e = .closed k ∧ ∃ c, ep.connections[k]? = some c ∧ c.Spent now := by
  induction keys with
  | nil => simp
  | cons key keys ih =>
    intro ep
    obtain ⟨hnot, hnodup⟩ := List.nodup_cons.1 hnodup
    -- the other connections are as they were
    have hother : ∀ k ∈ keys, (ep.pollData now key).connections[k]? = ep.connections[k]? :=
      fun k hk => (apart_pollData ep now (ne_of_mem_of_not_mem hk hnot).symm).connection
    rw [List.foldl_cons, ih hnodup, mem_events_pollData, or_assoc]
    refine or_congr_right ?_
    simp only [List.mem_cons, or_and_right, exists_or, exists_eq_left]
    refine or_congr_right (exists_congr fun k => and_congr_right fun hk => ?_)
    rw [hother k hk]

/-- **What the timers of the endpoint report.** -/
theorem mem_events_poll {e : AdspEvent} (hq : ep.events = []) (h : e ∈ (ep.poll now).events) :
    (∃ k, e = .attentionFailed k) ∨
    (∃ k o, e = .openFailed k ∧ ep.pendingOpens[k]? = some o ∧ o.Spent now) ∨
    ∃ k c, e = .closed k ∧ ep.connections[k]? = some c ∧ c.Spent now := by
  obtain ⟨hevents, hconns, -, -⟩ := pollOpens_spec ep now
  rw [poll, mem_events_data Std.TreeMap.nodup_keys] at h
  rcases h with h | ⟨k, -, rfl, c, hc, hspent⟩
  · rcases mem_events_attention.2 h with h | h
    · rw [hevents, hq] at h
      exact Or.inr (Or.inl (h.resolve_left List.not_mem_nil))
    · exact Or.inl h
  · rw [getElem?_attention, hconns] at hc
    obtain ⟨c', hc', rfl⟩ := Option.map_eq_some_iff.1 hc
    exact Or.inr (Or.inr ⟨k, c', rfl, hc', (spent_pollAttention c').1 hspent⟩)

theorem openFailed_mem_poll {o : PendingOpen} (ho : ep.pendingOpens[k]? = some o)
    (hspent : o.Spent now) : .openFailed k ∈ (ep.poll now).events := by
  rw [poll, mem_events_data Std.TreeMap.nodup_keys]
  have hfails := ((pollOpens_spec ep now).1 _).2 (Or.inr ⟨k, o, rfl, ho, hspent⟩)
  exact Or.inl (mem_events_attention.1 hfails)

theorem closed_mem_poll {c : Connection} (hc : ep.connections[k]? = some c)
    (hspent : c.Spent now) : .closed k ∈ (ep.poll now).events := by
  obtain ⟨-, hconns, -, -⟩ := pollOpens_spec ep now
  rw [poll, mem_events_data Std.TreeMap.nodup_keys]
  have hc' : (((ep.pollOpens now).connections.keys.foldl (fun ep key =>
      ep.onConn key (Connection.pollAttention key now)) (ep.pollOpens now)).connections[k]?) =
      some (c.pollAttention k now).conn := by
    rw [getElem?_attention, hconns, hc]
    rfl
  refine Or.inr ⟨k, Std.TreeMap.mem_keys.2 (Std.TreeMap.isSome_getElem?_iff_mem.1 ?_), rfl, _, hc',
    (spent_pollAttention c).2 hspent⟩
  rw [hc']
  rfl

end AdspEndpoint

/-! ## The role -/

/-- What an ADSP event ends the wait of. -/
def RoleState.Ends : RoleState → AdspEvent → Prop
  | .awaitingCtrlClose ctrl _ _, e => e = .closed ctrl
  | .connecting conn, e => e = .openFailed conn
  | .idle, _ | .piping .., _ => False

namespace StyleWriterRole

/-- The events that timers report. -/
def FromTimer (e : AdspEvent) : Prop :=
  (∃ k, e = .attentionFailed k) ∨ (∃ k, e = .openFailed k) ∨ ∃ k, e = .closed k

/-- The role waits for no control connection, and if it is in a handshake, it
    has only just entered it. -/
structure Fresh (now : Micros) (s : StyleWriterRole) : Prop where
  ahead : s.endpoint.Ahead now
  since : s.state.handshake → s.stateSince = now
  called : ∀ ctrl mac sock, s.state ≠ .awaitingCtrlClose ctrl mac sock

section
variable {s s' : StyleWriterRole} {now : Micros} {e : AdspEvent} {evs : List AdspEvent}

theorem fromTimer_of_mem_poll (hq : s.endpoint.events = []) (now : Micros) :
    ∀ e ∈ (s.endpoint.poll now).events, FromTimer e := by
  intro e he
  rcases AdspEndpoint.mem_events_poll hq he with h | ⟨k, o, h, -⟩ | ⟨k, c, h, -⟩
  · exact Or.inl h
  · exact Or.inr (Or.inl ⟨k, h⟩)
  · exact Or.inr (Or.inr ⟨k, h⟩)

theorem fromTimer_of_not_ends (now : Micros) (he : FromTimer e) (hends : ¬ s.state.Ends e)
    (hs : s.state.handshake) : ∃ s', handleAdspEvent now s e = some s' ∧
      s'.endpoint = s.endpoint ∧ s'.state = s.state ∧ s'.stateSince = s.stateSince := by
  rcases he with ⟨k, rfl⟩ | ⟨k, rfl⟩ | ⟨k, rfl⟩
  · exact ⟨s, rfl, rfl, rfl, rfl⟩
  · refine ⟨s, ?_, rfl, rfl, rfl⟩
    simp only [handleAdspEvent]
    rw [if_neg]
    intro h
    rw [h] at hends
    exact hends rfl
  · refine ⟨s.dropName k, ?_, rfl, rfl, rfl⟩
    simp only [handleAdspEvent, handleClosed]
    split
    · rename_i ctrl mac sock hstate
      rw [if_neg]
      rintro rfl
      rw [hstate] at hends
      exact hends rfl
    · rename_i dc killSeen hstate
      rw [hstate] at hs
      cases hs
    · rfl

theorem Fresh.fromTimer (hf : s.Fresh now) (he : FromTimer e) :
    ∃ s', handleAdspEvent now s e = some s' ∧ s'.Fresh now := by
  have hidle : ∀ s' : StyleWriterRole, s'.endpoint = s.endpoint → s'.state = .idle →
      s'.Fresh now := by
    intro s' hep hstate
    refine ⟨hep ▸ hf.ahead, fun h => ?_, fun ctrl mac sock h => ?_⟩
    · rw [hstate] at h
      cases h
    · rw [hstate] at h
      cases h
  rcases he with ⟨k, rfl⟩ | ⟨k, rfl⟩ | ⟨k, rfl⟩
  · exact ⟨s, rfl, hf⟩
  · refine ⟨_, rfl, ?_⟩
    split_ifs
    · exact hidle _ rfl rfl
    · exact hf
  · simp only [handleAdspEvent, handleClosed]
    split
    · rename_i ctrl mac sock hstate
      exact absurd hstate (hf.called ctrl mac sock)
    · split_ifs
      · refine ⟨_, rfl, hidle _ ?_ rfl⟩
        simp only [endJob, emit, enter, followPrinterClock_endpoint]
        split <;> rfl
      · exact ⟨_, rfl, hf.ahead, hf.since, hf.called⟩
    · exact ⟨_, rfl, hf.ahead, hf.since, hf.called⟩

theorem Fresh.run (hf : s.Fresh now) (hevs : ∀ e ∈ evs, FromTimer e) :
    ∃ s', run (partialStep (handleAdspEvent now)) (some s) evs = some s' ∧ s'.Fresh now := by
  induction evs generalizing s with
  | nil => exact ⟨s, rfl, hf⟩
  | cons e evs ih =>
    obtain ⟨s', hs', hf'⟩ := hf.fromTimer (hevs e List.mem_cons_self)
    obtain ⟨s'', hrun, hf''⟩ := ih hf' fun e' he' => hevs e' (List.mem_cons_of_mem _ he')
    exact ⟨s'', by rw [run_cons, partialStep_some, hs', hrun], hf''⟩

/-- No ConnID is ever drawn. -/
def NeverDraws (endpoint : AdspEndpoint) : Prop :=
  AdspEndpoint.drawConnId endpoint.pendingOpens 4294967296 endpoint.rng = none

theorem connect_eq_none_iff {endpoint : AdspEndpoint} {remote : ServiceAddress} :
    endpoint.connect remote now = none ↔ NeverDraws endpoint := by
  rw [AdspEndpoint.connect, Option.map_eq_none_iff, NeverDraws]

theorem ahead_connect {endpoint endpoint' : AdspEndpoint} {remote : ServiceAddress} {conn : UInt16}
    (h : endpoint.Ahead now) (hc : endpoint.connect remote now = some (conn, endpoint')) :
    endpoint'.Ahead now := by
  obtain ⟨⟨id, rng⟩, -, heq⟩ := Option.map_eq_some_iff.1 hc
  obtain ⟨-, rfl⟩ := Prod.mk.inj heq
  refine ⟨h.connections, fun k o ho => ?_⟩
  simp only [AdspEndpoint.sendOpenRequest, AdspEndpoint.push, getElem?_insert_eq] at ho
  split_ifs at ho
  · obtain rfl := Option.some.inj ho
    simp [OPEN_RETRY_INTERVAL]
  · exact h.opens k o ho

/-- The call back would never return. -/
def Stuck (s : StyleWriterRole) : Prop :=
  NeverDraws s.endpoint ∧ ∃ ctrl mac sock, s.state = .awaitingCtrlClose ctrl mac sock

/-- The end of a wait: the handshake is over, or it goes on with the call back. -/
theorem ends_fromTimer (ha : s.endpoint.Ahead now) (hends : s.state.Ends e) :
    (¬ s.Stuck ∧ ∃ s', handleAdspEvent now s e = some s' ∧ s'.Fresh now) ∨
    (s.Stuck ∧ handleAdspEvent now s e = none) := by
  rcases hstate : s.state with _ | ⟨ctrl, mac, sock⟩ | conn | ⟨conn, killSeen⟩
  · rw [hstate] at hends
    exact hends.elim
  · rw [hstate] at hends
    obtain rfl : e = .closed ctrl := hends
    have hcall : handleAdspEvent now s (.closed ctrl) =
        (s.dropName ctrl).callBack mac sock now := by
      simp only [handleAdspEvent, handleClosed, hstate, if_true]
    rw [hcall, callBack]
    rcases hconnect : (s.dropName ctrl).endpoint.connect _ now with _ | ⟨pending, endpoint⟩
    · exact Or.inr ⟨⟨connect_eq_none_iff.1 hconnect, ctrl, mac, sock, hstate⟩, rfl⟩
    · refine Or.inl
        ⟨fun h => ?_, _, rfl, ahead_connect ha hconnect, fun _ => rfl, fun _ _ _ h => ?_⟩
      · cases hconnect.symm.trans (connect_eq_none_iff.2 h.1)
      · cases h
  · rw [hstate] at hends
    obtain rfl : e = .openFailed conn := hends
    refine Or.inl
      ⟨fun h => ?_, s.enter .idle now, ?_, ha, (fun h => nomatch h), fun _ _ _ h => nomatch h⟩
    · obtain ⟨ctrl, mac, sock, h⟩ := h.2
      cases hstate.symm.trans h
    · simp only [handleAdspEvent, hstate, if_true]
  · rw [hstate] at hends
    exact hends.elim

/-- **What timers report to a handshake.** -/
theorem run_timed (ha : s.endpoint.Ahead now) (hs : s.state.handshake)
    (hevs : ∀ e ∈ evs, FromTimer e) :
    ((∀ e ∈ evs, ¬ s.state.Ends e) ∧
      ∃ s', run (partialStep (handleAdspEvent now)) (some s) evs = some s' ∧
        s'.endpoint = s.endpoint ∧ s'.state = s.state ∧ s'.stateSince = s.stateSince) ∨
    ((∃ e ∈ evs, s.state.Ends e) ∧
      ((¬ s.Stuck ∧
        ∃ s', run (partialStep (handleAdspEvent now)) (some s) evs = some s' ∧ s'.Fresh now) ∨
      (s.Stuck ∧ run (partialStep (handleAdspEvent now)) (some s) evs = none))) := by
  induction evs generalizing s with
  | nil => exact Or.inl ⟨fun _ h => (List.not_mem_nil h).elim, s, rfl, rfl, rfl, rfl⟩
  | cons e evs ih =>
    have hrest : ∀ e ∈ evs, FromTimer e := fun e' he' => hevs e' (List.mem_cons_of_mem _ he')
    by_cases hends : s.state.Ends e
    · refine Or.inr ⟨⟨e, List.mem_cons_self, hends⟩, ?_⟩
      rw [run_cons, partialStep_some]
      rcases ends_fromTimer ha hends with ⟨hfree, s', hs', hf⟩ | ⟨hstuck, hnone⟩
      · rw [hs']
        exact Or.inl ⟨hfree, hf.run hrest⟩
      · rw [hnone, run_partialStep_none]
        exact Or.inr ⟨hstuck, rfl⟩
    · obtain ⟨s', hs', hep, hstate, hsince⟩ :=
        fromTimer_of_not_ends now (hevs e List.mem_cons_self) hends hs
      have hih := ih (s := s') (hep ▸ ha) (hstate ▸ hs) hrest
      rw [run_cons, partialStep_some, hs']
      rw [Stuck, hep, hstate, hsince] at hih
      rcases hih with ⟨hno, hgoes⟩ | ⟨⟨e', he', hends'⟩, hover⟩
      · exact Or.inl ⟨List.forall_mem_cons.2 ⟨hends, hno⟩, hgoes⟩
      · exact Or.inr ⟨⟨e', List.mem_cons_of_mem _ he', hends'⟩, hover⟩

/-! ## The result -/

/-- The control connection is given up, or the open of the call back. -/
def WaitEnds (s : StyleWriterRole) (now : Micros) : Prop :=
  match s.state with
  | .awaitingCtrlClose ctrl _ _ => ∃ c, s.endpoint.connections[ctrl]? = some c ∧ c.Spent now
  | .connecting conn => ∃ o, s.endpoint.pendingOpens[conn]? = some o ∧ o.Spent now
  | .idle | .piping .. => False

/-- A handshake has waited for exactly `HANDSHAKE_TIMEOUT_US`, and goes on waiting. -/
def AtHandshake (s : StyleWriterRole) (now : Micros) : Prop :=
  s.state.handshake ∧ now = s.stateSince + HANDSHAKE_TIMEOUT_US ∧ ¬ s.WaitEnds now

/-- The Mac is to be called back, and all draws of a ConnID find it in use by an
    open that goes on. -/
def DialStuck (s : StyleWriterRole) (now : Micros) : Prop :=
  (∃ ctrl mac sock, s.state = .awaitingCtrlClose ctrl mac sock) ∧ s.WaitEnds now ∧
    AdspEndpoint.drawConnId (s.endpoint.pendingOpens.filter fun _ o => ¬ o.Spent now) 4294967296
      s.endpoint.rng = none

theorem drawConnId_congr {opens opens' : Std.TreeMap UInt16 PendingOpen}
    (h : ∀ k, k ∈ opens ↔ k ∈ opens') (fuel : ℕ) (rng : Rand) :
    AdspEndpoint.drawConnId opens fuel rng = AdspEndpoint.drawConnId opens' fuel rng := by
  induction fuel generalizing rng with
  | zero => rfl
  | succ fuel ih => simp only [AdspEndpoint.drawConnId, Std.TreeMap.contains_iff_mem, h, ih]

theorem neverDraws_poll_iff (endpoint : AdspEndpoint) (now : Micros) :
    NeverDraws (endpoint.poll now) ↔
      AdspEndpoint.drawConnId (endpoint.pendingOpens.filter fun _ o => ¬ o.Spent now) 4294967296
        endpoint.rng = none := by
  obtain ⟨-, -, hrng, hopens⟩ := AdspEndpoint.pollOpens_spec endpoint now
  obtain ⟨hopens', hrng'⟩ := AdspEndpoint.sameOpens_poll endpoint now
  rw [NeverDraws, hopens', hrng', hrng, drawConnId_congr]
  intro k
  rw [hopens, ← Std.TreeMap.isSome_getElem?_iff_mem, Std.TreeMap.getElem?_filter']
  cases endpoint.pendingOpens[k]? <;> simp [Option.filter_some]

theorem waitEnds_iff (now : Micros) (hq : s.endpoint.events = []) :
    s.WaitEnds now ↔ ∃ e ∈ (s.endpoint.poll now).events, s.state.Ends e := by
  constructor
  · intro h
    unfold WaitEnds at h
    rcases hstate : s.state with _ | ⟨ctrl, mac, sock⟩ | conn | ⟨conn, killSeen⟩ <;>
      rw [hstate] at h
    · exact h.elim
    · obtain ⟨c, hc, hspent⟩ := h
      exact ⟨.closed ctrl, AdspEndpoint.closed_mem_poll hc hspent, rfl⟩
    · obtain ⟨o, ho, hspent⟩ := h
      exact ⟨.openFailed conn, AdspEndpoint.openFailed_mem_poll ho hspent, rfl⟩
    · exact h.elim
  · rintro ⟨e, he, hends⟩
    unfold WaitEnds
    rcases hstate : s.state with _ | ⟨ctrl, mac, sock⟩ | conn | ⟨conn, killSeen⟩ <;>
      rw [hstate] at hends
    · exact hends
    · obtain rfl : e = .closed ctrl := hends
      rcases AdspEndpoint.mem_events_poll hq he with ⟨k, h⟩ | ⟨k, o, h, -⟩ | ⟨k, c, h, hc⟩
      · cases h
      · cases h
      · cases h
        exact ⟨c, hc⟩
    · obtain rfl : e = .openFailed conn := hends
      rcases AdspEndpoint.mem_events_poll hq he with ⟨k, h⟩ | ⟨k, o, h, ho⟩ | ⟨k, c, h, -⟩
      · cases h
      · cases h
        exact ⟨o, ho⟩
      · cases h
    · exact hends

theorem ahead_nextDeadline_iff (ha : s.endpoint.Ahead now) : (∀ d ∈ s.nextDeadline, now < d) ↔
    (s.state.handshake → now < s.stateSince + HANDSHAKE_TIMEOUT_US) := by
  rw [nextDeadline, lt_min?_iff]
  constructor
  · intro h hs
    exact h _ (List.mem_append_right _ (by rw [if_pos hs]; exact List.mem_singleton_self _))
  · intro h d hd
    rcases List.mem_append.1 hd with hd | hd
    · exact ha.lt_nextDeadline (Option.mem_toList.1 hd)
    · split_ifs at hd with hs
      · obtain rfl := List.mem_singleton.1 hd
        exact h hs
      · cases hd

/-- What is left of a handshake that has only just been entered, or of none. -/
theorem Fresh.expire (hf : s.Fresh now) :
    ∀ d ∈ (s.expireStalledHandshake now).nextDeadline, now < d := by
  have hkeep : s.expireStalledHandshake now = s := by
    refine if_neg ?_
    rintro ⟨hs, hlate⟩
    rw [hf.since hs, Nat.sub_self] at hlate
    exact Nat.not_lt_zero _ hlate
  rw [hkeep, ahead_nextDeadline_iff hf.ahead]
  intro hs
  rw [hf.since hs]
  simp [HANDSHAKE_TIMEOUT_US]

theorem expire_ahead_iff {now : Micros} (ha : s.endpoint.Ahead now) (hs : s.state.handshake) :
    (∀ d ∈ (s.expireStalledHandshake now).nextDeadline, now < d) ↔
      now ≠ s.stateSince + HANDSHAKE_TIMEOUT_US := by
  unfold expireStalledHandshake
  split_ifs with hlate
  · have hlt : s.stateSince + HANDSHAKE_TIMEOUT_US < now := Nat.add_lt_of_lt_sub' hlate.2
    rw [ahead_nextDeadline_iff (s := (s.emit (.jobEnded false)).enter .idle now) ha]
    exact iff_of_true (fun h => nomatch h) hlt.ne'
  · rw [ahead_nextDeadline_iff ha, forall_prop_of_true hs]
    have hle : now ≤ s.stateSince + HANDSHAKE_TIMEOUT_US :=
      Nat.sub_le_iff_le_add'.1 (Nat.not_lt.1 fun h => hlate ⟨hs, h⟩)
    exact ⟨fun h => h.ne, fun h => lt_of_le_of_ne hle h⟩

/-- **A poll leaves no timer due** but in the two cases. -/
theorem poll_ahead_iff (hq : s.endpoint.events = []) :
    (∃ s', s.poll now = some s' ∧ ∀ d ∈ s'.nextDeadline, now < d) ↔
      ¬ s.AtHandshake now ∧ ¬ s.DialStuck now := by
  have ha : (s.endpoint.poll now).Ahead now := AdspEndpoint.ahead_poll s.endpoint now
  have hevs := fromTimer_of_mem_poll hq now
  -- the role whose endpoint has been polled
  let t : StyleWriterRole := { s with endpoint := { s.endpoint.poll now with events := [] } }
  have hta : t.endpoint.Ahead now := ⟨ha.connections, ha.opens⟩
  have hpoll : s.poll now = (run (partialStep (handleAdspEvent now)) (some t)
      (s.endpoint.poll now).events).map fun s' => s'.expireStalledHandshake now := rfl
  rw [hpoll]
  by_cases hs : s.state.handshake
  · have hwait := waitEnds_iff now hq
    rcases run_timed (s := t) hta hs hevs with
      ⟨hno, s', hrun, hep, hstate, hsince⟩ | ⟨hends, ⟨hfree, s', hrun, hf⟩ | ⟨hstuck, hnone⟩⟩
    · -- The wait goes on.
      have hgoes : ¬ s.WaitEnds now := by
        rw [hwait]
        rintro ⟨e, he, hends⟩
        exact hno e he hends
      have hexpire := expire_ahead_iff (s := s') (hep ▸ hta) (hstate ▸ hs)
      simp only [hrun, Option.map_some, Option.some.injEq, exists_eq_left', hexpire, hsince,
        AtHandshake, DialStuck, hs, hgoes, true_and, not_false_eq_true, and_true, false_and,
        and_false]
      rfl
    · -- The wait is over, and nothing else is waited for or it is the call back.
      have hover := hwait.2 hends
      have hdial : ¬ s.DialStuck now := fun h =>
        hfree ⟨(neverDraws_poll_iff s.endpoint now).2 h.2.2, h.1⟩
      simp only [hrun, Option.map_some, Option.some.injEq, exists_eq_left', AtHandshake, hover,
        hdial, not_true, and_false, not_false_eq_true, and_true, iff_true]
      exact hf.expire
    · have hdial : s.DialStuck now :=
        ⟨hstuck.2, hwait.2 hends, (neverDraws_poll_iff s.endpoint now).1 hstuck.1⟩
      simp [hnone, hdial]
  · have hfresh : t.Fresh now := by
      refine ⟨hta, fun h => absurd h hs, fun ctrl mac sock h => hs ?_⟩
      rw [show s.state = .awaitingCtrlClose ctrl mac sock from h]
      rfl
    obtain ⟨s', hrun, hf⟩ := hfresh.run hevs
    have hdial : ¬ s.DialStuck now := by
      rintro ⟨⟨ctrl, mac, sock, h⟩, -⟩
      rw [h] at hs
      exact hs rfl
    have hnot : ¬ s.AtHandshake now := fun h => hs h.1
    simp only [hrun, Option.map_some, Option.some.injEq, exists_eq_left', hnot, hdial,
      not_false_eq_true, and_true, iff_true]
    exact hf.expire

end

end StyleWriterRole

/-! ## Runs -/

namespace RoleSession

theorem events_drainEndpoint {s s' : StyleWriterRole} {now : Micros}
    (h : s.drainEndpoint now = some s') : s'.endpoint.events = [] := by
  unfold StyleWriterRole.drainEndpoint at h
  have hkeep : ∀ (evs : List AdspEvent) (t : StyleWriterRole), t.endpoint.events = [] →
      run (partialStep (StyleWriterRole.handleAdspEvent now)) (some t) evs = some s' →
      s'.endpoint.events = [] := by
    intro evs
    induction evs with
    | nil =>
      intro t ht h
      obtain rfl := Option.some.inj h
      exact ht
    | cons e evs ih =>
      intro t ht h
      obtain ⟨t', he, hrest⟩ := run_partialStep_cons h
      exact ih t' ((StyleWriterRole.handleAdspEvent_events he).trans ht) hrest
  exact hkeep _ _ rfl h

theorem events_setRecvWindow (ep : AdspEndpoint) (window : UInt16) :
    (ep.setRecvWindow window).events = ep.events := by
  unfold AdspEndpoint.setRecvWindow
  dsimp only
  split
  · refine rel_run (R := fun a b : AdspEndpoint => b.events = a.events) _ (fun _ => rfl)
      (fun h h' => h'.trans h) (fun ep key => ?_) _ _
    unfold AdspEndpoint.onConn
    split
    · rfl
    · exact List.append_nil _
  · rfl

/-- **Every input leaves nothing unhandled.** -/
theorem handled_step {s s' : RoleSession} {i : RoleInput} (hs : s.role.endpoint.events = [])
    (h : s.step i = some s') : s'.role.endpoint.events = [] := by
  cases i with
  | event ev now =>
    obtain ⟨role, hrole, rfl⟩ := Option.map_eq_some_iff.1 h
    exact (StyleWriterRole.handleAdspEvent_events hrole).trans hs
  | datagram src payload now =>
    obtain ⟨role, hrole, rfl⟩ := Option.map_eq_some_iff.1 h
    exact events_drainEndpoint hrole
  | poll now =>
    obtain ⟨role, hrole, rfl⟩ := Option.map_eq_some_iff.1 h
    obtain ⟨role, hdrain, rfl⟩ := Option.map_eq_some_iff.1 hrole
    have hevents := events_drainEndpoint hdrain
    unfold StyleWriterRole.expireStalledHandshake
    split <;> exact hevents
  | setPrinterCredit bytes =>
    obtain rfl := Option.some.inj h
    exact (events_setRecvWindow _ _).trans hs
  | printerInput data =>
    obtain rfl := Option.some.inj h
    simp only [StyleWriterRole.printerInput]
    split
    · rw [StyleWriterRole.reply_endpoint_events, hs]
    · exact hs
  | setPrinterDrained drained | pollTransmit | pollEvent =>
    obtain rfl := Option.some.inj h
    exact hs

theorem handled_run {controlSocket : UInt8} {seed : UInt32} {fastClock : FastClock}
    {inputs : List RoleInput} {s : RoleSession}
    (h : run (partialStep step) (some (start controlSocket seed fastClock)) inputs = some s) :
    s.role.endpoint.events = [] := by
  have hstart : ∀ s, some (start controlSocket seed fastClock) = some s →
      s.role.endpoint.events = [] := by
    intro s hs
    obtain rfl := Option.some.inj hs
    rfl
  have hany : Along (partialStep step) (Reached fun _ _ => True)
      (some (start controlSocket seed fastClock)) inputs :=
    (along_true _ inputs).mono _ fun _ _ _ _ _ => trivial
  have hgood : ∀ (s : RoleSession) (i : RoleInput), s.role.endpoint.events = [] → True → True :=
    fun _ _ _ _ => trivial
  exact (along_reached hgood (fun _ _ _ hs _ => handled_step hs) hstart hany).2 s h

end RoleSession

end TailTalk
