/-
  The answers of a StyleWriter role to attentions.

  The driver of a Mac reads an answer in band after every attention, and how
  many bytes it reads depends on the code.  `Answered` is what some work of the
  role sends: it leaves the connections as sending the answers, one after
  another, leaves them.
-/
import TailTalk.Lib.Maps
import TailTalk.StyleWriter.Jobs

namespace TailTalk

open Lib

namespace Connection

theorem cut_writesSubmitted {c c' : Connection} {w : UInt16} {now : Option Micros}
    {ps : List Bytes} (h : c.cut w now = some (c', ps)) :
    c'.writesSubmitted = c.writesSubmitted := by
  unfold cut at h
  split at h
  · cases h
  dsimp only at h
  split_ifs at h <;> cases h <;> rfl

/-- Writes are counted when they are queued. -/
theorem pump_writesSubmitted (w : UInt16) (now : Option Micros) (c : Connection) :
    (c.pump w now).conn.writesSubmitted = c.writesSubmitted := by
  unfold pump
  generalize backlog c.pendingWrites = fuel
  induction fuel generalizing c with
  | zero => rfl
  | succ fuel ih =>
    rw [pumpLoop]
    rcases hcut : c.cut w now with _ | ⟨c', ps⟩
    · rfl
    · exact (ih c').trans (cut_writesSubmitted hcut)

end Connection

namespace AdspEndpoint

/-- The endpoint after some data is sent, on one connection or another. -/
def sendAll (ep : AdspEndpoint) (sends : List (UInt16 × Bytes)) : AdspEndpoint :=
  run (fun ep r => (ep.send r.1 r.2 false).2) ep sends

/-- Nothing was sent on any connection. -/
structure SameConnections (ep ep' : AdspEndpoint) : Prop where
  connections : ep'.connections = ep.connections
  recvWindow : ep'.recvWindow = ep.recvWindow

section
variable {ep ep' ep'' : AdspEndpoint} {conn : UInt16} {data : Bytes}

theorem SameConnections.refl (ep : AdspEndpoint) : ep.SameConnections ep := ⟨rfl, rfl⟩

theorem SameConnections.trans (h : ep.SameConnections ep') (h' : ep'.SameConnections ep'') :
    ep.SameConnections ep'' :=
  ⟨h'.connections.trans h.connections, h'.recvWindow.trans h.recvWindow⟩

theorem SameConnections.send (h : ep.SameConnections ep') :
    (ep.send conn data false).2.SameConnections (ep'.send conn data false).2 := by
  unfold AdspEndpoint.send onConn
  rw [h.connections]
  split
  · exact h
  · constructor
    · simp only [h.recvWindow]
    · exact h.recvWindow

theorem SameConnections.sendAll (h : ep.SameConnections ep') (sends : List (UInt16 × Bytes)) :
    (ep.sendAll sends).SameConnections (ep'.sendAll sends) := by
  induction sends generalizing ep ep' with
  | nil => exact h
  | cons r sends ih => exact ih h.send

theorem sendAll_append (a b : List (UInt16 × Bytes)) :
    ep.sendAll (a ++ b) = (ep.sendAll a).sendAll b := run_append _ _ _ _

theorem writesSubmitted_send (conn : UInt16) (data : Bytes) {k : UInt16} {c : Connection}
    (h : ep.connections[k]? = some c) :
    ∃ c', (ep.send conn data false).2.connections[k]? = some c' ∧
      c'.writesSubmitted = c.writesSubmitted + if conn = k then 1 else 0 := by
  unfold AdspEndpoint.send onConn
  split
  · rename_i hnone
    have hne : conn ≠ k := by
      rintro rfl
      cases hnone.symm.trans h
    exact ⟨c, h, by rw [if_neg hne]; rfl⟩
  rename_i c₀ hc₀
  by_cases hk : conn = k
  · subst hk
    obtain rfl := Option.some.inj (hc₀.symm.trans h)
    refine ⟨((c₀.queueWrite data false).pump ep.recvWindow none).conn, ?_, ?_⟩
    · simp only [getElem?_insert_eq, if_true]
    · rw [Connection.pump_writesSubmitted, if_pos rfl]
      rfl
  · refine ⟨c, ?_, by rw [if_neg hk]; rfl⟩
    simp only [getElem?_insert_eq, if_neg (Ne.symm hk)]
    exact h

theorem writesSubmitted_sendAll (sends : List (UInt16 × Bytes)) {k : UInt16} {c : Connection}
    (h : ep.connections[k]? = some c) :
    ∃ c', (ep.sendAll sends).connections[k]? = some c' ∧
      c'.writesSubmitted = c.writesSubmitted + sends.countP (·.1 = k) := by
  induction sends generalizing ep c with
  | nil => exact ⟨c, h, rfl⟩
  | cons r sends ih =>
    obtain ⟨c₁, hc₁, hcount₁⟩ := writesSubmitted_send r.1 r.2 h
    obtain ⟨c', hc', hcount⟩ := ih hc₁
    refine ⟨c', hc', ?_⟩
    rw [hcount, hcount₁, List.countP_cons]
    simp only [decide_eq_true_eq]
    omega

end

end AdspEndpoint

namespace StyleWriterRole

/-- Length of the answer to a code. -/
def replyLength (code : UInt16) : ℕ :=
  if code = ATTN_JOB_USER then PRINT_REQUEST_LEN + 2
  else if code = ATTN_JOB_STATUS then JOB_STATUS_TEXT_LEN + 4
  else 2

/-- The answer that an event calls for: on which connection, and how long. -/
def due : AdspEvent → Option (UInt16 × ℕ)
  | .attention conn code _ => some (conn, replyLength code)
  | _ => none

/-- One answer of a length is sent. -/
def Answers (s s' : StyleWriterRole) (conn : UInt16) (len : ℕ) : Prop :=
  ∃ data : Bytes, data.length = len ∧
    (s.endpoint.send conn data false).2.SameConnections s'.endpoint

/-- The answers that are sent, in order. -/
def Answered (s s' : StyleWriterRole) (sends : List (UInt16 × Bytes)) : Prop :=
  (s.endpoint.sendAll sends).SameConnections s'.endpoint

section
variable {s s' s'' : StyleWriterRole} {conn code : UInt16} {data : Bytes} {now : Micros} {len : ℕ}
  {sends sends' : List (UInt16 × Bytes)}

theorem Answered.trans (h : Answered s s' sends) (h' : Answered s' s'' sends') :
    Answered s s'' (sends ++ sends') := by
  rw [Answered, AdspEndpoint.sendAll_append]
  exact AdspEndpoint.SameConnections.trans
    (AdspEndpoint.SameConnections.sendAll h sends') h'

/-- What leaves the connections alone sends nothing. -/
theorem answered_nothing (h : s.endpoint.SameConnections s'.endpoint) : Answered s s' [] := h

theorem answers_ite {c : Prop} [Decidable c] (h : Answers s s' conn len)
    (h' : Answers s s'' conn len) : Answers s (if c then s' else s'') conn len := by
  split
  · exact h
  · exact h'

theorem answers_reply {t : StyleWriterRole} (ht : t.endpoint = s.endpoint)
    (hlen : data.length = len) : Answers s (t.reply conn data) conn len :=
  ⟨data, hlen, by rw [reply, ht]; exact .refl _⟩

theorem Answers.followPrinterClock (h : Answers s s' conn len) (on : Bool) :
    Answers s (s'.followPrinterClock on) conn len := by
  obtain ⟨data, hlen, hsame⟩ := h
  exact ⟨data, hlen, by rw [followPrinterClock_endpoint]; exact hsame⟩

/-! ### The codes with a handler of their own -/

theorem answers_printRequest : Answers s (s.handlePrintRequest conn data now) conn 2 := by
  have hreply : ∀ d : Bytes, d.length = 2 → Answers s (s.reply conn d) conn 2 :=
    fun d hd => answers_reply rfl hd
  unfold handlePrintRequest
  refine answers_ite (hreply _ rfl) (answers_ite (hreply _ rfl) ?_)
  split
  · exact hreply _ rfl
  · exact hreply RESULT_ACCEPTED rfl

theorem answers_withdraw : Answers s (s.handleWithdraw conn data now) conn 2 := by
  have hreply : Answers s (s.reply conn RESULT_ACCEPTED) conn 2 := answers_reply rfl rfl
  unfold handleWithdraw
  refine answers_ite hreply (answers_ite hreply ?_)
  -- Giving up the call back leaves the connections alone.
  obtain ⟨d, hlen, hsame⟩ := hreply
  refine ⟨d, hlen, hsame.trans ?_⟩
  dsimp only [enter, emit]
  split
  · exact ⟨rfl, rfl⟩
  · exact .refl _

theorem answers_endSession : Answers s (s.handleEndSession conn now) conn 2 :=
  handleEndSession_cases (P := fun t => Answers s t conn 2)
    (fun _ _ => answers_reply (t := s) rfl rfl)
    (fun _ _ => answers_reply rfl rfl) (answers_reply rfl rfl)

theorem answers_setStatus : Answers s (s.handleSetStatus conn data) conn 2 := by
  refine answers_reply ?_ rfl
  split <;> rfl

theorem answers_setName : Answers s (s.handleSetName conn data) conn 2 := by
  refine answers_reply ?_ rfl
  split
  · split <;> rfl
  · rfl

theorem answers_serialControl : Answers s (s.handleSerialControl conn data) conn 2 := by
  unfold handleSerialControl
  split
  · exact (answers_reply rfl rfl).followPrinterClock _
  · exact answers_reply rfl rfl

theorem answers_serialOptions : Answers s (s.handleSerialOptions conn data) conn 2 := by
  have hreply : Answers s (s.reply conn RESULT_ACCEPTED) conn 2 := answers_reply rfl rfl
  unfold handleSerialOptions
  exact answers_ite (hreply.followPrinterClock _) hreply

/-- **One answer to an attention**, of the length of its code. -/
theorem answers_attention (s : StyleWriterRole) (conn code : UInt16) (data : Bytes) (now : Micros) :
    Answers s (s.handleAttention conn code data now) conn (replyLength code) := by
  by_cases huser : code = ATTN_JOB_USER
  · subst huser
    exact answers_reply rfl s.length_jobUserReply
  by_cases hstatus : code = ATTN_JOB_STATUS
  · subst hstatus
    exact answers_reply rfl s.length_jobStatusReply
  rw [replyLength, if_neg huser, if_neg hstatus]
  have hreply : ∀ d : Bytes, d.length = 2 → Answers s (s.reply conn d) conn 2 :=
    fun d hd => answers_reply rfl hd
  unfold handleAttention
  rw [if_neg huser, if_neg hstatus]
  refine answers_ite answers_printRequest <| answers_ite answers_withdraw <|
    answers_ite (hreply _ ?drained) <| answers_ite answers_endSession <|
    answers_ite (hreply _ rfl) <| answers_ite (hreply _ rfl) <| answers_ite (hreply _ ?query) <|
    answers_ite answers_serialOptions <| answers_ite answers_setStatus <|
    answers_ite answers_setName <| answers_ite answers_serialControl <|
    answers_ite ((hreply _ rfl).followPrinterClock false) (hreply _ rfl)
  case drained => split <;> rfl
  case query => split <;> rfl

/-! ### Any events -/

theorem answered_callBack {macNode : ServiceAddress} {dataSocket : UInt8}
    (h : s.callBack macNode dataSocket now = some s') : Answered s s' [] := by
  obtain ⟨⟨id, endpoint⟩, hconnect, rfl⟩ := Option.map_eq_some_iff.1 h
  obtain ⟨⟨id', rng⟩, -, he⟩ := Option.map_eq_some_iff.1 hconnect
  obtain ⟨-, rfl⟩ := Prod.mk.inj he
  exact answered_nothing ⟨rfl, rfl⟩

theorem answered_closed (h : s.handleClosed conn now = some s') : Answered s s' [] := by
  have hsame : ∀ t : StyleWriterRole, some t = some s' → t.endpoint = s.endpoint →
      Answered s s' [] := by
    rintro t h ht
    obtain rfl := Option.some.inj h
    exact answered_nothing (ht ▸ .refl _)
  unfold handleClosed at h
  split at h
  · split at h
    · exact answered_callBack (s := s.dropName conn) h
    · exact hsame _ h rfl
  · split at h
    · refine hsame _ h ?_
      refine Eq.trans followPrinterClock_endpoint ?_
      split <;> rfl
    · exact hsame _ h rfl
  · exact hsame _ h rfl

/-- **What an event makes the role send.** -/
theorem answered_event {e : AdspEvent} (h : handleAdspEvent now s e = some s') :
    ∃ sends, sends.map (fun r => (r.1, r.2.length)) = (due e).toList ∧ Answered s s' sends := by
  have hnone : Answered s s' [] → due e = none →
      ∃ sends, sends.map (fun r : UInt16 × Bytes => (r.1, r.2.length)) = (due e).toList ∧
        Answered s s' sends := fun h hdue => ⟨[], by rw [hdue]; rfl, h⟩
  have hsame : ∀ t : StyleWriterRole, some t = some s' → t.endpoint = s.endpoint →
      Answered s s' [] := by
    rintro t h ht
    obtain rfl := Option.some.inj h
    exact answered_nothing (ht ▸ .refl _)
  cases e with
  | attention conn code data =>
    obtain rfl := Option.some.inj h
    obtain ⟨d, hlen, hsent⟩ := answers_attention s conn code data now
    exact ⟨[(conn, d)], by simp [due, hlen], hsent⟩
  | closed conn => exact hnone (answered_closed h) rfl
  | attentionAcked | attentionFailed => exact hnone (hsame s h rfl) rfl
  | opened conn remote inbound pending =>
    refine hnone ?_ rfl
    simp only [handleAdspEvent] at h
    split at h
    · split at h <;> exact hsame _ h rfl
    · split at h <;> exact hsame _ h rfl
    · exact hsame _ h rfl
  | openFailed conn =>
    refine hnone (hsame _ h ?_) rfl
    split <;> rfl
  | data conn data eom =>
    refine hnone ?_ rfl
    simp only [handleAdspEvent] at h
    split at h
    · refine hsame _ h ?_
      split
      · unfold handleData
        dsimp only
        split <;> rfl
      · rfl
    · exact hsame _ h rfl

theorem answered_events {evs : List AdspEvent}
    (h : run (partialStep (handleAdspEvent now)) (some s) evs = some s') :
    ∃ sends, sends.map (fun r => (r.1, r.2.length)) = evs.filterMap due ∧
      Answered s s' sends := by
  induction evs generalizing s with
  | nil =>
    obtain rfl := Option.some.inj h
    exact ⟨[], rfl, .refl _⟩
  | cons e evs ih =>
    obtain ⟨t, ht, hrest⟩ := run_partialStep_cons h
    obtain ⟨first, hfirst, hsent⟩ := answered_event ht
    obtain ⟨rest, hrest, hsent'⟩ := ih hrest
    refine ⟨first ++ rest, ?_, hsent.trans hsent'⟩
    rw [List.map_append, hfirst, hrest, List.filterMap_cons]
    cases due e <;> rfl

end

/-- What `attentions_answered` says about an attention, after some events. -/
structure AnsweredOnce (s t : StyleWriterRole) (evs : List AdspEvent) (now : Micros)
    (conn code : UInt16) (data : Bytes) : Prop where
  /-- the answers to the attentions before have all been sent by then, in their order -/
  before : ∃ sends : List (UInt16 × Bytes),
    sends.map (fun r => (r.1, r.2.length)) = evs.filterMap due ∧ Answered s t sends
  /-- and no connection has another write -/
  counted : ∀ k c, s.endpoint.connections[k]? = some c →
    ∃ c', t.endpoint.connections[k]? = some c' ∧
      c'.writesSubmitted = c.writesSubmitted + (evs.filterMap due).countP (·.1 = k)
  /-- this one is answered on its own connection -/
  answer : ∃ s', handleAdspEvent now t (.attention conn code data) = some s' ∧
    Answers t s' conn (replyLength code) ∧
    ∀ k c, t.endpoint.connections[k]? = some c →
      ∃ c', s'.endpoint.connections[k]? = some c' ∧
        c'.writesSubmitted = c.writesSubmitted + if conn = k then 1 else 0

/-- **Every attention is answered once.**  After any events, whatever they were, a role answers an
    attention of any code and payload with one write on the connection it came on, of the length
    of its code. -/
theorem attentions_answered {s t : StyleWriterRole} {evs : List AdspEvent} {now : Micros}
    (h : run (partialStep (handleAdspEvent now)) (some s) evs = some t)
    (conn code : UInt16) (data : Bytes) : AnsweredOnce s t evs now conn code data := by
  obtain ⟨sends, hsends, hsent⟩ := answered_events h
  obtain ⟨answer, hlen, hone⟩ := answers_attention t conn code data now
  refine ⟨⟨sends, hsends, hsent⟩, fun k c hc => ?_, _, rfl, ⟨answer, hlen, hone⟩, fun k c hc => ?_⟩
  · rw [hsent.connections, ← hsends, List.countP_map]
    exact AdspEndpoint.writesSubmitted_sendAll sends hc
  · rw [hone.connections]
    exact AdspEndpoint.writesSubmitted_send conn answer hc

/-- A role with a Mac on a control connection. -/
def visited : StyleWriterRole :=
  let role := new 129 5 .supported
  { role with
    endpoint := role.endpoint.handleDatagram ⟨0, 10, 70⟩ (({ descriptor := .openConnRequest
                                                             connectionId := 7
                                                             firstByteSeq := 0
                                                             nextRecvSeq := 0
                                                             recvWindow := 1024
                                                             flags := 0 } : AdspPacket).toBytes ++
      (be16 0x0100 ++ List.replicate 6 0)) 0 }

/-- A print request that is too short and a user asked for, then the status. -/
theorem attentions_answered_visited : ∃ t,
    run (partialStep (handleAdspEvent 0)) (some visited)
      [.attention 7 ATTN_PRINT_REQUEST [0], .attention 7 ATTN_JOB_USER []] = some t ∧
    t.endpoint.connections[(7 : UInt16)]?.map (·.writesSubmitted) = some 2 ∧
    AnsweredOnce visited t [.attention 7 ATTN_PRINT_REQUEST [0], .attention 7 ATTN_JOB_USER []] 0
      7 ATTN_JOB_STATUS [] := by
  have hruns : (run (partialStep (handleAdspEvent 0)) (some visited)
      [.attention 7 ATTN_PRINT_REQUEST [0], .attention 7 ATTN_JOB_USER []]).map
      (fun t => t.endpoint.connections[(7 : UInt16)]?.map (·.writesSubmitted)) = some (some 2) := by
    decide
  obtain ⟨t, ht, hwrites⟩ := Option.map_eq_some_iff.1 hruns
  exact ⟨t, ht, hwrites, attentions_answered ht 7 ATTN_JOB_STATUS []⟩

end StyleWriterRole

end TailTalk
