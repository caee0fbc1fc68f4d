/-
  The timers of the transport endpoints.

  A driver sleeps until `nextDeadline` and then polls.  It spins if a poll at
  `now` leaves a deadline at or before `now`: every timer that a poll finds due
  has to be armed again or cleared.  `poll_makes_progress` is the result for
  ATP and ADSP endpoints, from any state.
-/
import TailTalk.Adsp.Retransmit
import TailTalk.Atp.Endpoint

namespace TailTalk

open Lib

theorem lt_min?_iff {xs : List ℕ} {n : ℕ} : (∀ d ∈ xs.min?, n < d) ↔ ∀ d ∈ xs, n < d := by
  constructor
  · intro h d hd
    obtain ⟨m, hm, hle⟩ := min?_le_of_mem hd
    exact (h m hm).trans_le hle
  · intro h d hd
    exact h d (List.min?_mem hd)

/-! ## ATP -/

namespace PendingRequest

theorem lt_retryAt_tick {p p' : PendingRequest} {now : Micros} (h : p.tick now = some p') :
    now < p'.retryAt := by
  unfold tick at h
  split_ifs at h with hlt hretries
  · obtain rfl := Option.some.inj h
    exact hlt
  · obtain rfl := Option.some.inj h
    simp [RETRY_INTERVAL]

end PendingRequest

namespace AtpEndpoint

/-- No timer of the endpoint is due. -/
structure Ahead (ep : AtpEndpoint) (now : Micros) : Prop where
  retry : ∀ (tid : UInt16) p, ep.pending[tid]? = some p → now < p.retryAt
  release : ∀ c ∈ ep.replyCache, now < c.expiresAt

theorem Ahead.lt_nextDeadline {ep : AtpEndpoint} {now d : Micros} (h : ep.Ahead now)
    (hd : ep.nextDeadline = some d) : now < d := by
  rcases List.mem_append.1 (List.min?_mem hd) with hd | hd
  · obtain ⟨p, hp, rfl⟩ := List.mem_map.1 hd
    obtain ⟨tid, htid⟩ := exists_of_mem_values _ hp
    exact h.retry tid p htid
  · obtain ⟨c, hc, rfl⟩ := List.mem_map.1 hd
    exact h.release c hc

theorem ahead_poll (ep : AtpEndpoint) (now : Micros) : (ep.poll now).Ahead now := by
  constructor
  · intro tid p hp
    simp only [poll, Std.TreeMap.getElem?_filterMap', Option.bind_eq_some_iff] at hp
    obtain ⟨q, -, hq⟩ := hp
    exact PendingRequest.lt_retryAt_tick hq
  · intro c hc
    simp only [poll, unexpired, List.mem_filter, decide_eq_true_eq] at hc
    exact hc.2

end AtpEndpoint

/-! ## ADSP: the opens -/

namespace AdspEndpoint

theorem getElem?_failOpens {failed : List (UInt16 × PendingOpen)} {k : UInt16} {o : PendingOpen} :
    ∀ {ep : AdspEndpoint}, (failed.foldl (fun ep io =>
        (ep.abandonOpen io.1).emit (.openFailed io.1)) ep).pendingOpens[k]? = some o →
      ep.pendingOpens[k]? = some o ∧ k ∉ failed.map Prod.fst := by
  induction failed with
  | nil =>
    intro ep h
    exact ⟨h, List.not_mem_nil⟩
  | cons io failed ih =>
    intro ep h
    obtain ⟨hstill, hnot⟩ := ih h
    simp only [emit, abandonOpen, getElem?_erase_eq] at hstill
    split_ifs at hstill with hk
    refine ⟨hstill, ?_⟩
    rw [List.map_cons, List.mem_cons, not_or]
    exact ⟨hk, hnot⟩

/-- Each open that is tried again was sent just now. -/
theorem getElem?_retryOpens {retry : List (UInt16 × PendingOpen)} {now : Micros} {k : UInt16}
    {o : PendingOpen} : ∀ {ep : AdspEndpoint}, (retry.foldl (fun ep io =>
        ({ ep with
          pendingOpens := ep.pendingOpens.insert io.1 ⟨io.2.remote, now, io.2.retries + 1⟩ }
          : AdspEndpoint).sendOpenRequest io.1 io.2.remote) ep).pendingOpens[k]? = some o →
      o.lastTx = now ∨ (ep.pendingOpens[k]? = some o ∧ k ∉ retry.map Prod.fst) := by
  induction retry with
  | nil =>
    intro ep h
    exact Or.inr ⟨h, List.not_mem_nil⟩
  | cons io retry ih =>
    intro ep h
    rcases ih h with hnow | ⟨hstill, hnot⟩
    · exact Or.inl hnow
    · simp only [sendOpenRequest, push, getElem?_insert_eq] at hstill
      split_ifs at hstill with hk
      · obtain rfl := Option.some.inj hstill
        exact Or.inl rfl
      · refine Or.inr ⟨hstill, ?_⟩
        rw [List.map_cons, List.mem_cons, not_or]
        exact ⟨hk, hnot⟩

theorem not_due_pollOpens {ep : AdspEndpoint} {now : Micros} {k : UInt16} {o : PendingOpen}
    (h : (ep.pollOpens now).pendingOpens[k]? = some o) :
    now - o.lastTx < OPEN_RETRY_INTERVAL := by
  unfold pollOpens at h
  rcases getElem?_retryOpens h with rfl | ⟨hfailed, hretry⟩
  · simp [OPEN_RETRY_INTERVAL]
  · obtain ⟨hk, hfail⟩ := getElem?_failOpens hfailed
    by_contra hdue
    -- A due open is among those that fail or those that are tried again.
    have hmem : (k, o) ∈ ep.pendingOpens.toList.filter
        fun io => ¬ now - io.2.lastTx < OPEN_RETRY_INTERVAL :=
      List.mem_filter.2 ⟨Std.TreeMap.mem_toList_iff_getElem?_eq_some.2 hk, by simpa using hdue⟩
    by_cases hretries : o.retries + 1 > MAX_OPEN_RETRIES
    · exact hfail (List.mem_map.2 ⟨(k, o), List.mem_filter.2 ⟨hmem, by simpa using hretries⟩, rfl⟩)
    · exact hretry (List.mem_map.2 ⟨(k, o), List.mem_filter.2 ⟨hmem, by simpa using hretries⟩, rfl⟩)

/-! ## ADSP: the connections -/

theorem each_keys {I I' : Connection → Prop} {g : AdspEndpoint → UInt16 → AdspEndpoint}
    (hapart : ∀ ep j k, j ≠ k → Apart k ep (g ep j))
    (hg : ∀ ep k c', (g ep k).connections[k]? = some c' →
      ∃ c, ep.connections[k]? = some c ∧ (I c → I' c'))
    {ep : AdspEndpoint} (h : ∀ (k : UInt16) c, ep.connections[k]? = some c → I c) :
    ∀ (k : UInt16) c, (ep.connections.keys.foldl g ep).connections[k]? = some c → I' c := by
  intro k c' hc'
  by_cases hk : k ∈ ep.connections
  · obtain ⟨ep', hsame, hafter⟩ := foldl_keys_at (k := k) (hapart · · k) hk ep
    rw [hafter.connection] at hc'
    obtain ⟨c, hc, himp⟩ := hg ep' k c' hc'
    rw [hsame.connection] at hc
    exact himp (h k c hc)
  · have hsame := apart_foldl_ne (k := k) (hapart · · k) (mt Std.TreeMap.mem_keys.1 hk) ep
    rw [hsame.connection, Std.TreeMap.getElem?_eq_none hk] at hc'
    cases hc'

/-- The opens, and the generator that numbers them. -/
def SameOpens (ep ep' : AdspEndpoint) : Prop :=
  ep'.pendingOpens = ep.pendingOpens ∧ ep'.rng = ep.rng

theorem sameOpens_onConn (ep : AdspEndpoint) (key : UInt16) (f : Connection → Effect) :
    SameOpens ep (ep.onConn key f) := by
  unfold onConn
  split <;> exact ⟨rfl, rfl⟩

theorem sameOpens_pollData (ep : AdspEndpoint) (now : Micros) (key : UInt16) :
    SameOpens ep (ep.pollData now key) := by
  unfold pollData
  split
  · exact ⟨rfl, rfl⟩
  split
  · exact ⟨rfl, rfl⟩
  dsimp only
  split
  · exact ⟨rfl, rfl⟩
  · exact sameOpens_onConn ..

theorem sameOpens_poll (ep : AdspEndpoint) (now : Micros) :
    SameOpens (ep.pollOpens now) (ep.poll now) := by
  have hfold : ∀ {g : AdspEndpoint → UInt16 → AdspEndpoint}, (∀ ep k, SameOpens ep (g ep k)) →
      ∀ (keys : List UInt16) ep, SameOpens ep (keys.foldl g ep) := by
    intro g hg keys ep
    exact rel_run g (fun _ => ⟨rfl, rfl⟩) (fun h h' => ⟨h'.1.trans h.1, h'.2.trans h.2⟩) hg ep keys
  simp only [poll]
  obtain ⟨hopens, hrng⟩ := hfold
    (fun ep k => sameOpens_onConn ep k (Connection.pollAttention k now))
    (ep.pollOpens now).connections.keys (ep.pollOpens now)
  obtain ⟨hopens', hrng'⟩ := hfold (fun ep k => sameOpens_pollData ep now k) _ _
  exact ⟨hopens'.trans hopens, hrng'.trans hrng⟩

end AdspEndpoint

namespace Connection

/-- No attention is due to be sent again. -/
def AttentionQuiet (now : Micros) (c : Connection) : Prop :=
  ∀ a, c.attnInFlight = some a → now - a.lastTx < ATTN_RETRY_INTERVAL

/-- Nor is any data. -/
def Quiet (now : Micros) (c : Connection) : Prop :=
  c.AttentionQuiet now ∧ (c.flightBuffer ≠ [] → now - c.lastTx < RETRANSMIT_TIMEOUT)

theorem attentionQuiet_pollAttention (key : UInt16) (now : Micros) (c : Connection) :
    (c.pollAttention key now).conn.AttentionQuiet now := by
  unfold pollAttention AttentionQuiet
  rcases ha : c.attnInFlight with _ | a
  · simp [Effect.quiet, ha]
  dsimp only
  split_ifs with hlt hretries
  · simp [Effect.quiet, ha, hlt]
  · simp
  · simp [ATTN_RETRY_INTERVAL]

theorem quiet_resendUnacked {now : Micros} {c : Connection} (h : c.AttentionQuiet now)
    (w : UInt16) : (c.resendUnacked w now).conn.Quiet now := by
  unfold resendUnacked
  split_ifs with hflight
  · exact ⟨h, fun hne => absurd hflight hne⟩
  · exact ⟨h, fun _ => by simp [RETRANSMIT_TIMEOUT]⟩

end Connection

namespace AdspEndpoint

theorem pollData_quiet (now : Micros) (ep : AdspEndpoint) (k : UInt16) {c' : Connection}
    (h : (ep.pollData now k).connections[k]? = some c') :
    ∃ c, ep.connections[k]? = some c ∧ (c.AttentionQuiet now → c'.Quiet now) := by
  unfold pollData at h
  rcases hc : ep.connections[k]? with _ | c
  · rw [hc] at h
    cases hc.symm.trans h
  refine ⟨c, rfl, fun hattn => ?_⟩
  simp only [hc] at h
  split_ifs at h with hdue hretries
  · simp only [emit, forget, getElem?_erase_eq, if_true] at h
    cases h
  · rw [(onConn_of_some hc).1] at h
    obtain rfl := Option.some.inj h
    exact Connection.quiet_resendUnacked (c := { c with retries := min (c.retries + 1) 255 })
      hattn _
  · obtain rfl := Option.some.inj (hc.symm.trans h)
    refine ⟨hattn, fun hne => ?_⟩
    simpa [Connection.retransmitDue, hne] using hdue

/-- **After a poll no timer of a connection is due.** -/
theorem quiet_poll {ep : AdspEndpoint} {now : Micros} {k : UInt16} {c : Connection}
    (h : (ep.poll now).connections[k]? = some c) : c.Quiet now := by
  refine each_keys (I := Connection.AttentionQuiet now) (fun ep j k hj => apart_pollData ep now hj)
    (fun ep k c' hc' => pollData_quiet now ep k hc') ?_ k c h
  refine each_keys (I := fun _ => True) (fun ep j k hj => apart_onConn ep hj _) ?_
    (fun _ _ _ => trivial)
  intro ep k c' hc'
  rcases getElem?_onConn hc' with ⟨hne, -⟩ | ⟨-, c, hc, rfl⟩
  · exact absurd rfl hne
  · exact ⟨c, hc, fun _ => Connection.attentionQuiet_pollAttention k now c⟩

/-- No timer of the endpoint is due. -/
structure Ahead (ep : AdspEndpoint) (now : Micros) : Prop where
  connections : ∀ (k : UInt16) c, ep.connections[k]? = some c → c.Quiet now
  opens : ∀ (k : UInt16) o, ep.pendingOpens[k]? = some o → now - o.lastTx < OPEN_RETRY_INTERVAL

theorem Ahead.lt_nextDeadline {ep : AdspEndpoint} {now d : Micros} (h : ep.Ahead now)
    (hd : ep.nextDeadline = some d) : now < d := by
  rcases List.mem_append.1 (List.min?_mem hd) with hd | hd
  · obtain ⟨c, hc, rfl⟩ := List.mem_map.1 hd
    obtain ⟨hmem, hflight⟩ := List.mem_filter.1 hc
    obtain ⟨k, hk⟩ := exists_of_mem_values _ hmem
    exact lt_add_of_tsub_lt_left ((h.connections k c hk).2 (by simpa using hflight))
  rcases List.mem_append.1 hd with hd | hd
  · obtain ⟨o, ho, rfl⟩ := List.mem_map.1 hd
    obtain ⟨k, hk⟩ := exists_of_mem_values _ ho
    exact lt_add_of_tsub_lt_left (h.opens k o hk)
  · obtain ⟨a, ha, rfl⟩ := List.mem_map.1 hd
    obtain ⟨c, hc, hattn⟩ := List.mem_filterMap.1 ha
    obtain ⟨k, hk⟩ := exists_of_mem_values _ hc
    exact lt_add_of_tsub_lt_left ((h.connections k c hk).1 a hattn)

theorem ahead_poll (ep : AdspEndpoint) (now : Micros) : (ep.poll now).Ahead now := by
  constructor
  · intro k c hc
    exact quiet_poll hc
  · intro k o ho
    rw [(sameOpens_poll ep now).1] at ho
    exact not_due_pollOpens ho

end AdspEndpoint

/-- **Timers make progress.**  In every state of either endpoint, a poll leaves
    no deadline, or one that is yet to come. -/
theorem poll_makes_progress (atp : AtpEndpoint) (adsp : AdspEndpoint) (now : Micros) :
    (∀ d ∈ (atp.poll now).nextDeadline, now < d) ∧
      ∀ d ∈ (adsp.poll now).nextDeadline, now < d :=
  ⟨fun _ hd => (AtpEndpoint.ahead_poll atp now).lt_nextDeadline hd,
    fun _ hd => (AdspEndpoint.ahead_poll adsp now).lt_nextDeadline hd⟩

/-- A request, sent at time 0. -/
def askedOnce : AtpEndpoint :=
  (((AtpEndpoint.new 130).request ⟨0, 1, 140⟩ (.replicate 4 0) [] 0xFF 0).elim
    (AtpEndpoint.new 130) Prod.snd)

/-- Both endpoints are polled exactly at their deadlines. -/
theorem poll_makes_progress_at_deadline :
    askedOnce.nextDeadline = some 2000000 ∧
    (openedSeven.send 7 [104, 105] false).2.nextDeadline = some 3000000 ∧
    2000000 < 4000000 ∧ 3000000 < 6000000 :=
  ⟨by decide, by decide,
    (poll_makes_progress askedOnce openedSeven 2000000).1 4000000 (by decide +kernel),
    (poll_makes_progress askedOnce (openedSeven.send 7 [104, 105] false).2 3000000).2 6000000
      (by decide)⟩

end TailTalk
