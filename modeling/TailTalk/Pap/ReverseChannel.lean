/-
  The reverse channel of a PAP session.

  `Told` ties a session to its history: what is in the replies and what is
  still queued make up the output.  It holds at every point of a run, and with
  it `ReadsBack`, what the client can tell.
-/
import TailTalk.Pap.Reads

namespace TailTalk

open Lib

/-! ## Histories -/

theorem eof_toAtpParts {p : PapPacket} (hp : p.function = .data) {r : ReadReply}
    (hr : (r.userBytes, r.data) = p.toAtpParts) : r.eof = p.eof := by
  have hu : r.userBytes = p.toAtpParts.1 := congrArg Prod.fst hr
  have hd : r.data = p.toAtpParts.2 := congrArg Prod.snd hr
  rw [ReadReply.eof, hu, hd, PapPacket.parseFromAtp_toAtpParts]
  simp only [PapPacket.onAtp, hp]
  rfl

namespace Readout
variable {h : Readout} {j : ℕ}

/-- The numbered replies, each taken once. -/
def answers (h : Readout) : List ReadReply := h.fresh.filter (·.index.isSome)

/-- A number that no later read has is that of its read. -/
theorem indexOf_papSeq (hj : j < h.issued) (hi : h.issued ≤ j + 65535) :
    h.indexOf (papSeq j) = some j :=
  find?_papSeq hj hi

theorem indexOf_zero : h.indexOf 0 = none :=
  find?_papSeq_zero h.issued

end Readout

/-- What ties a session to its history. -/
structure Told (session : PapSession) (h : Readout) : Prop where
  delivered : h.delivered ++ session.stdout = h.queued
  indices : ∀ j (a : ReadReply), h.answers[j]? = some a → a.index = some j
  same : ∀ r ∈ h.replies, ∀ j, r.index = some j →
    ∃ a, h.answers[j]? = some a ∧ a.userBytes = r.userBytes ∧ a.data = r.data
  readSeq : session.readSeq = papSeq h.answers.length
  cache : session.readCache = recent READ_REPLY_CACHE_LEN
    (h.answers.mapIdx fun j a => (papSeq j, a.userBytes, a.data))
  issued : h.answers.length ≤ h.issued ∧ h.issued ≤ h.answers.length + 1
  pending : ∀ read ∈ session.pendingRead,
    read.seq = 0 ∨ (read.seq = session.readSeq ∧ h.issued = h.answers.length + 1)
  ended : session.eofQueued = h.ended
  eof : ∀ sofar r, sofar ++ [r] <+: h.fresh →
    (r.eof = true ↔ r.ended = true ∧ (sofar ++ [r]).flatMap (·.data) = r.queued)

/-- The parts of a session that its reads depend on. -/
structure SameReads (session session' : PapSession) : Prop where
  stdout : session'.stdout = session.stdout
  eofQueued : session'.eofQueued = session.eofQueued
  readSeq : session'.readSeq = session.readSeq
  readCache : session'.readCache = session.readCache
  pendingRead : session'.pendingRead = session.pendingRead

/-- No read waits while there is something to answer it with. -/
def PapSession.Waits (session : PapSession) : Prop :=
  session.pendingRead.isSome → session.stdout = [] ∧ session.eofQueued = false

theorem SameReads.refl (session : PapSession) : SameReads session session :=
  ⟨rfl, rfl, rfl, rfl, rfl⟩

section
variable {session session' : PapSession} {h : Readout}

theorem Told.keep (ht : Told session h) (hs : SameReads session session') :
    Told session' h where
  delivered := by rw [hs.stdout, ht.delivered]
  indices := ht.indices
  same := ht.same
  readSeq := by rw [hs.readSeq, ht.readSeq]
  cache := by rw [hs.readCache, ht.cache]
  issued := ht.issued
  pending := by rw [hs.pendingRead, hs.readSeq]; exact ht.pending
  ended := by rw [hs.eofQueued, ht.ended]
  eof := ht.eof

theorem SameReads.waits (hs : SameReads session session') (hw : session.Waits) :
    session'.Waits := by
  rw [PapSession.Waits, hs.pendingRead, hs.stdout, hs.eofQueued]
  exact hw

theorem told_start (connId : UInt8) (client : ServiceAddress) (now : Micros) :
    Told (PapServer.newSession connId client now) .start where
  delivered := rfl
  indices := fun j a ha => by cases ha
  same := fun r hr => by cases hr
  readSeq := rfl
  cache := (recent_nil _).symm
  issued := ⟨Nat.le_refl _, Nat.zero_le _⟩
  pending := fun read hr => by cases hr
  ended := rfl
  eof := fun sofar r hr => absurd (List.prefix_nil.1 hr) (List.append_ne_nil_of_right_ne_nil _
    (List.cons_ne_nil _ _))

/-! ## Reads -/

/-- A read that the client may send has no number, the one expected next, or one answered before. -/
theorem Told.allowed (ht : Told session h) {seq : UInt16} (ha : h.Allows seq) :
    (seq = 0 ∧ h.ask seq = h) ∨
    (seq = session.readSeq ∧ h.ask seq = { h with issued := h.answers.length + 1 }) ∨
    ∃ j a, h.answers[j]? = some a ∧ h.answers.length ≤ j + READ_REPLY_CACHE_LEN ∧
      h.issued ≤ j + READ_REPLY_CACHE_LEN ∧ seq = papSeq j ∧ seq ≠ session.readSeq ∧
      h.ask seq = h := by
  obtain ⟨hle, hlt⟩ := ht.issued
  have hsame : seq ≠ papSeq h.issued → h.ask seq = h := fun hne => if_neg hne
  have hfar : ∀ j, j < h.issued → h.issued ≤ j + READ_REPLY_CACHE_LEN →
      papSeq j ≠ papSeq h.issued := by
    intro j hj hi heq
    have hlen : READ_REPLY_CACHE_LEN = 8 := rfl
    have := papSeq_inj heq (by omega) (by omega)
    omega
  rcases ha with rfl | ⟨rfl, hall⟩ | ⟨j, hj, hi, rfl⟩
  · exact .inl ⟨rfl, hsame (papSeq_ne_zero _).symm⟩
  · have heq : h.issued = h.answers.length := by
      by_contra hne
      have hlast : some h.answers.length ∈ h.replies.map (·.index) :=
        hall _ (List.mem_range.2 (by omega)) (by omega)
      obtain ⟨r, hr, hindex⟩ := List.mem_map.1 hlast
      obtain ⟨a, hget, -⟩ := ht.same r hr _ hindex
      exact absurd (List.getElem?_eq_some_iff.1 hget).1 (Nat.lt_irrefl _)
    refine .inr (.inl ⟨by rw [heq, ht.readSeq], ?_⟩)
    rw [Readout.ask, if_pos rfl, heq]
  · have hj := List.mem_range.1 hj
    by_cases hm : j = h.answers.length
    · subst hm
      refine .inr (.inl ⟨ht.readSeq.symm, ?_⟩)
      rw [hsame (hfar _ hj hi), ← Nat.le_antisymm hlt hj]
    · have hjm : j < h.answers.length := by omega
      have hlen : READ_REPLY_CACHE_LEN = 8 := rfl
      refine .inr (.inr ⟨j, _, List.getElem?_eq_getElem hjm, by omega, hi, rfl, ?_,
        hsame (hfar _ hj hi)⟩)
      rw [ht.readSeq]
      intro heq
      have := papSeq_inj heq (by omega) (by omega)
      omega

theorem Told.wait (ht : Told session h) {read : PendingRead} (ha : h.Allows read.seq)
    (hseq : ¬ (read.seq ≠ 0 ∧ read.seq ≠ session.readSeq)) :
    Told { session with pendingRead := some read } (h.ask read.seq) := by
  rcases ht.allowed ha with ⟨hzero, hask⟩ | ⟨hnext, hask⟩ | ⟨j, a, -, -, -, hj, hne, -⟩
  · rw [hask]
    exact { ht with pending := fun r hr => by cases hr; exact .inl hzero }
  · rw [hask]
    exact { ht with
      issued := ⟨Nat.le_succ _, Nat.le_refl _⟩
      pending := fun r hr => by cases hr; exact .inr ⟨hnext, rfl⟩ }
  · exact absurd ⟨hj ▸ papSeq_ne_zero j, hne⟩ hseq

/-- The reply cache holds the last answers. -/
theorem Told.cached (ht : Told session h) : Cached ReadReply.index papSeq
    (fun r => (r.userBytes, r.data)) READ_REPLY_CACHE_LEN h.replies session.readCache where
  indices := ht.indices
  same := by
    intro r hr j hj
    obtain ⟨a, ha, hu, hd⟩ := ht.same r hr j hj
    exact ⟨a, ha, by rw [hu, hd]⟩
  cache := ht.cache

theorem Told.find_cache (ht : Told session h) {j : ℕ} {a : ReadReply}
    (ha : h.answers[j]? = some a) (hj : h.answers.length ≤ j + READ_REPLY_CACHE_LEN) :
    (session.readCache.find? fun c => c.1 = papSeq j) =
      some (papSeq j, a.userBytes, a.data) := by
  have hlen : READ_REPLY_CACHE_LEN = 8 := rfl
  refine ht.cached.find?_eq (fun i k hik hi hk => ?_) ha hj
  exact papSeq_inj hik (by omega) (by omega)

/-- The answers of a history are those of its cache. -/
theorem same_of_cached {replies : List ReadReply} {cache : List (UInt16 × UserBytes × Bytes)}
    (hc : Cached ReadReply.index papSeq (fun r => (r.userBytes, r.data)) READ_REPLY_CACHE_LEN
      replies cache) : ∀ r ∈ replies, ∀ j, r.index = some j →
    ∃ a, (numbered ReadReply.index replies)[j]? = some a ∧ a.userBytes = r.userBytes ∧
      a.data = r.data := by
  intro r hr j hj
  obtain ⟨a, ha, hsame⟩ := hc.same r hr j hj
  exact ⟨a, ha, Prod.mk.inj hsame⟩

theorem Told.again (ht : Told session h) {j : ℕ} {a : ReadReply}
    (ha : h.answers[j]? = some a) (hi : h.issued ≤ j + READ_REPLY_CACHE_LEN)
    {read : PendingRead} (hseq : read.seq = papSeq j) :
    Told session (h.again read (a.userBytes, a.data)) := by
  have hlen : READ_REPLY_CACHE_LEN = 8 := rfl
  have hjm := (List.getElem?_eq_some_iff.1 ha).1
  have hindex : (h.replyTo read (a.userBytes, a.data)).index = some j := by
    rw [Readout.replyTo_index, hseq]
    exact Readout.indexOf_papSeq (Nat.lt_of_lt_of_le hjm ht.issued.1) (by omega)
  have hfresh : (h.again read (a.userBytes, a.data)).fresh = h.fresh :=
    ht.cached.firsts_again ha hindex
  have hanswers : (h.again read (a.userBytes, a.data)).answers = h.answers := by
    rw [Readout.answers, hfresh, Readout.answers]
  have hdelivered : (h.again read (a.userBytes, a.data)).delivered = h.delivered := by
    rw [Readout.delivered, hfresh, Readout.delivered]
  have hcached := ht.cached.again ha hindex (h.replyTo_content read (a.userBytes, a.data)).symm
  exact { ht with
    delivered := by rw [hdelivered]; exact ht.delivered
    indices := hcached.indices
    same := same_of_cached hcached
    readSeq := by rw [hanswers]; exact ht.readSeq
    cache := hcached.cache
    issued := by rw [hanswers]; exact ht.issued
    pending := by rw [hanswers]; exact ht.pending
    eof := by rw [hfresh]; exact ht.eof }

theorem Told.answer_stream (ht : Told session h) {read : PendingRead} {n : ℕ}
    (hfresh : (h.answer read (session.reply n).toAtpParts).fresh =
      h.fresh ++ [h.replyTo read (session.reply n).toAtpParts]) :
    (h.answer read (session.reply n).toAtpParts).delivered ++ session.stdout.drop n = h.queued ∧
    (session.eofQueued && !(session.reply n).eof) =
      (h.answer read (session.reply n).toAtpParts).ended ∧
    ∀ sofar r, sofar ++ [r] <+: (h.answer read (session.reply n).toAtpParts).fresh →
      (r.eof = true ↔ r.ended = true ∧ (sofar ++ [r]).flatMap (·.data) = r.queued) := by
  have heof : (h.replyTo read (session.reply n).toAtpParts).eof = (session.reply n).eof :=
    eof_toAtpParts rfl (h.replyTo_content read _)
  have hsplit : h.delivered ++ session.stdout.take n ++ session.stdout.drop n = h.queued := by
    rw [List.append_assoc, List.take_append_drop, ht.delivered]
  have hdelivered : ∀ r : ReadReply, r.data = session.stdout.take n →
      (h.fresh ++ [r]).flatMap (·.data) = h.delivered ++ session.stdout.take n := by
    intro r hr
    rw [List.flatMap_append, List.flatMap_singleton, hr, Readout.delivered]
  have hdata : (h.replyTo read (session.reply n).toAtpParts).data = session.stdout.take n := rfl
  refine ⟨?_, ?_, ?_⟩
  · rw [Readout.delivered, hfresh, hdelivered _ hdata, hsplit]
  · rw [Readout.answer, heof, ht.ended]
  · rw [hfresh]
    intro sofar r hp
    rcases prefix_snoc hp with hp | ⟨rfl, rfl⟩
    · exact ht.eof sofar r hp
    rw [heof, hdelivered _ hdata]
    show (session.eofQueued && (session.stdout.drop n).isEmpty) = true ↔
      h.ended = true ∧ h.delivered ++ session.stdout.take n = h.queued
    rw [Bool.and_eq_true, ht.ended, List.isEmpty_iff]
    refine and_congr_right fun _ => ?_
    constructor
    · intro hdrop
      rw [← hsplit, hdrop, List.append_nil]
    · intro hall
      rw [← List.append_cancel_left_eq (h.delivered ++ session.stdout.take n), hsplit, hall,
        List.append_nil]

theorem Told.answer_unnumbered (ht : Told session h) {read : PendingRead} {n : ℕ}
    (hseq : read.seq = 0) :
    Told (session.served read n) (h.answer read (session.reply n).toAtpParts) := by
  have hindex : (h.replyTo read (session.reply n).toAtpParts).index = none := by
    rw [Readout.replyTo_index, hseq, Readout.indexOf_zero]
  obtain ⟨hdelivered, hended, heof⟩ := ht.answer_stream (firsts_unnumbered hindex)
  have hanswers : (h.answer read (session.reply n).toAtpParts).answers = h.answers :=
    numbered_unnumbered hindex
  have hcached := ht.cached.unnumbered hindex
  have hsame : ¬ (read.seq ≠ 0) := fun hne => hne hseq
  refine
    { delivered := hdelivered
      indices := hcached.indices
      same := same_of_cached hcached
      readSeq := ?_
      cache := ?_
      issued := by rw [hanswers]; exact ht.issued
      pending := fun r hr => by cases hr
      ended := hended
      eof := heof }
  · rw [hanswers, ← ht.readSeq]
    exact if_neg hsame
  · exact (if_neg hsame).trans hcached.cache

theorem Told.answer_next (ht : Told session h) {read : PendingRead} {n : ℕ}
    (hseq : read.seq = session.readSeq) (hi : h.issued = h.answers.length + 1) :
    Told (session.served read n) (h.answer read (session.reply n).toAtpParts) := by
  have hseq' : read.seq = papSeq h.answers.length := by rw [hseq, ht.readSeq]
  have hindex : (h.replyTo read (session.reply n).toAtpParts).index = some h.answers.length := by
    rw [Readout.replyTo_index, hseq']
    exact Readout.indexOf_papSeq (by omega) (by omega)
  obtain ⟨hdelivered, hended, heof⟩ := ht.answer_stream (ht.cached.firsts_next hindex)
  have hanswers : (h.answer read (session.reply n).toAtpParts).answers =
      h.answers ++ [h.replyTo read (session.reply n).toAtpParts] :=
    ht.cached.numbered_next hindex
  have hcached := ht.cached.next (Nat.succ_pos 7) hindex
  have hne : read.seq ≠ 0 := by
    rw [hseq']
    exact papSeq_ne_zero _
  refine
    { delivered := hdelivered
      indices := hcached.indices
      same := same_of_cached hcached
      readSeq := ?_
      cache := ?_
      issued := ?_
      pending := fun r hr => by cases hr
      ended := hended
      eof := heof }
  · rw [hanswers, List.length_append, List.length_singleton, ← nextPapSeq_papSeq, ← ht.readSeq]
    exact if_pos hne
  · refine (if_pos hne).trans ?_
    rw [hseq']
    exact hcached.cache
  · rw [hanswers, List.length_append, List.length_singleton, ← hi]
    exact ⟨Nat.le_refl _, Nat.le_succ _⟩

theorem Told.answer (ht : Told session h) {read : PendingRead}
    (hread : session.pendingRead = some read) (n : ℕ) :
    Told (session.served read n) (h.answer read (session.reply n).toAtpParts) := by
  rcases ht.pending read hread with hseq | ⟨hseq, hi⟩
  · exact ht.answer_unnumbered hseq
  · exact ht.answer_next hseq hi

/-- Output for the client. -/
theorem Told.output (ht : Told session h) (data : Bytes) :
    Told { session with stdout := session.stdout ++ data }
      { h with queued := h.queued ++ data } :=
  { ht with
    delivered := by
      show h.delivered ++ (session.stdout ++ data) = h.queued ++ data
      rw [← List.append_assoc, ht.delivered] }

theorem Told.finish (ht : Told session h) :
    Told { session with eofQueued := true } { h with ended := true } :=
  { ht with ended := rfl }

end

/-! ## The server's steps -/

namespace PapServer
variable {s s' : PapServer}

/-- The session that a server ends up with is the one it had, as far as reads
    go. -/
def KeepsReads (s s' : PapServer) : Prop :=
  ∀ session' ∈ s'.session, ∃ session ∈ s.session, SameReads session session'

theorem KeepsReads.of_eq (h : s'.session = s.session) : KeepsReads s s' := by
  intro session' hs'
  exact ⟨session', h ▸ hs', SameReads.refl session'⟩

theorem KeepsReads.of_closed (h : s'.session = none) : KeepsReads s s' := by
  intro session' hs'
  rw [h] at hs'
  cases hs'

theorem KeepsReads.of_some {session session' : PapSession} (hs : s.session = some session)
    (hs' : s'.session = some session') (h : SameReads session session') : KeepsReads s s' := by
  intro t ht
  obtain rfl := Option.some.inj (hs'.symm.trans ht)
  exact ⟨session, hs, h⟩

theorem keepsReads_maybePull {now : Micros} (h : s.maybePull now = some s') :
    KeepsReads s s' := by
  unfold maybePull at h
  rcases hs : s.session with _ | session
  · rw [hs] at h
    cases h
    exact .of_eq rfl
  simp only [hs] at h
  split_ifs at h with hwait
  · cases h
    exact .of_eq rfl
  · obtain ⟨⟨handle, connEp⟩, -, rfl⟩ := Option.map_eq_some_iff.1 h
    exact .of_some hs rfl ⟨rfl, rfl, rfl, rfl, rfl⟩

theorem keepsReads_pollSession {now : Micros} (h : s.pollSession now = some s') :
    KeepsReads s s' := by
  unfold pollSession at h
  rcases hs : s.session with _ | session
  · rw [hs] at h
    cases h
    exact .of_eq rfl
  simp only [hs] at h
  split_ifs at h with hgone htickle
  · cases h
    exact .of_closed rfl
  · obtain ⟨connEp, -, rfl⟩ := Option.map_eq_some_iff.1 h
    exact .of_some hs rfl ⟨rfl, rfl, rfl, rfl, rfl⟩
  · cases h
    exact .of_eq rfl

/-- An event of the connection socket that brings no read. -/
theorem keepsReads_connEvent (now : Micros) {e : AtpEvent} (h : s.readOf e = none) :
    KeepsReads s (handleConnEvent now s e) := by
  cases e with
  | request source tid userBytes data bitmap xo =>
    simp only [readOf] at h
    simp only [handleConnEvent]
    generalize PapPacket.parseFromAtp userBytes data = parsed at h ⊢
    rcases parsed with err | pap
    · exact .of_eq rfl
    rcases hs : s.session with _ | session
    · exact .of_eq rfl
    rw [hs] at h
    dsimp only at h ⊢
    by_cases hid : pap.connectionId = session.connId
    · have hfun : pap.function ≠ .sendData := fun hf => by
        rw [if_pos ⟨hid, hf⟩] at h
        cases h
      rw [if_neg (not_not.2 hid)]
      unfold handleConnRequest
      rcases hf : pap.function with _ | _ | _ | _ | _ | _ | _ | _ | _
      case sendData => exact absurd hf hfun
      case closeConn => exact .of_closed rfl
      all_goals exact .of_some hs rfl ⟨rfl, rfl, rfl, rfl, rfl⟩
    · rw [if_pos hid]
      exact .of_eq rfl
  | response handle userBytes data =>
    simp only [handleConnEvent]
    rcases hs : s.session with _ | session
    · exact .of_eq rfl
    dsimp only
    split_ifs with hpull
    · exact .of_eq rfl
    rcases PapPacket.parseFromAtp userBytes data with err | pap
    · exact .of_some hs rfl ⟨rfl, rfl, rfl, rfl, rfl⟩
    dsimp only
    split_ifs with hfun
    · exact .of_some hs rfl ⟨rfl, rfl, rfl, rfl, rfl⟩
    · exact .of_some hs rfl ⟨rfl, rfl, rfl, rfl, rfl⟩
  | requestFailed handle =>
    simp only [handleConnEvent]
    rcases hs : s.session with _ | session
    · exact .of_eq rfl
    dsimp only
    split_ifs
    · exact .of_some hs rfl ⟨rfl, rfl, rfl, rfl, rfl⟩
    · exact .of_eq rfl

/-- A read is met with the cached reply, is stale, or waits. -/
theorem connEvent_read (now : Micros) {e : AtpEvent} {read : PendingRead}
    (h : s.readOf e = some read) : ∃ session, s.session = some session ∧
    handleConnEvent now s e =
      if read.seq ≠ 0 ∧ read.seq ≠ session.readSeq then
        match s.cachedReply read with
        | some (userBytes, data) =>
          { s with
            session := some { session with lastActivity := now }
            connEp := s.connEp.respond read.source read.tid userBytes data
              PAP_MAX_DATA_PER_PACKET now }
        | none => { s with session := some { session with lastActivity := now } }
      else { s with
        session := some { session with lastActivity := now, pendingRead := some read } } := by
  cases e with
  | request source tid userBytes data bitmap xo =>
    simp only [readOf] at h
    simp only [handleConnEvent]
    generalize PapPacket.parseFromAtp userBytes data = parsed at h ⊢
    rcases parsed with err | pap
    · cases h
    rcases hs : s.session with _ | session
    · rw [hs] at h
      cases h
    simp only [hs] at h ⊢
    split_ifs at h with hid
    obtain ⟨hid, hfun⟩ := hid
    obtain rfl := Option.some.inj h
    refine ⟨session, rfl, ?_⟩
    simp only [hid, ne_eq, not_true, if_false, handleConnRequest, hfun, cachedReply, hs,
      Option.bind_eq_bind, Option.bind_some]
    split_ifs with hseq
    · generalize (session.readCache.find? fun c => decide (c.1 = pap.sequenceNum)) = found
      cases found with
      | none => rfl
      | some entry => rfl
    · rfl
  | response handle userBytes data => cases h
  | requestFailed handle => cases h

theorem answerRead_eq (now : Micros) (s : PapServer) :
    s.answerRead now = match s.freshReply now with
      | none => s
      | some (read, userBytes, data) =>
        { s with
          session := s.session.map fun session => session.served read (session.readLength read)
          connEp := s.connEp.respond read.source read.tid userBytes data
            PAP_MAX_DATA_PER_PACKET now } := by
  unfold answerRead freshReply
  rcases hs : s.session with _ | session
  · rfl
  simp only [Option.bind_eq_bind, Option.bind_some, PapSession.answerable]
  rcases hr : session.pendingRead with _ | read
  · simp only [ite_self, Option.bind_none]
  dsimp only
  have hswap : (!(!session.stdout.isEmpty || session.eofQueued) &&
      !decide (now ≥ session.lastClientWrite + READ_IDLE_ANSWER)) =
      !(!session.stdout.isEmpty || session.eofQueued ||
        decide (now ≥ session.lastClientWrite + READ_IDLE_ANSWER)) := by
    rw [Bool.not_or (!session.stdout.isEmpty || session.eofQueued)]
  rw [hswap]
  generalize (!session.stdout.isEmpty || session.eofQueued ||
    decide (now ≥ session.lastClientWrite + READ_IDLE_ANSWER)) = ready
  cases ready with
  | false => rfl
  | true =>
    have heof : ∀ q e : Bool, (if (q && e) = true then false else q) = (q && !(q && e)) := by
      intro q e
      cases q <;> cases e <;> rfl
    simp only [Bool.not_true, Bool.false_eq_true, if_false, if_true, Option.bind_some,
      Option.map_some, heof]
    unfold PapSession.served
    by_cases hseq : read.seq = 0
    · simp only [hseq, ne_eq, not_true, if_false]
      rfl
    · simp only [hseq, ne_eq, not_false_eq_true, if_true]
      rfl

theorem listenerEvent_busy (now : Micros) {session : PapSession} (hs : s.session = some session)
    (e : AtpEvent) : (handleListenerEvent now s e).session = some session := by
  cases e with
  | request source tid userBytes data bitmap xo =>
    simp only [handleListenerEvent]
    rcases PapPacket.parseFromAtp userBytes data with err | pap
    · exact hs
    dsimp only
    rcases hf : pap.function with _ | _ | _ | _ | _ | _ | _ | _ | _
    case openConn =>
      dsimp only
      split_ifs with hshort hbusy
      · exact hs
      · exact hs
      · exact absurd (by rw [hs]; rfl) hbusy
    all_goals exact hs
  | response handle userBytes data => exact hs
  | requestFailed handle => exact hs

theorem listenerEvent_idle (now : Micros) (hs : s.session = none) (e : AtpEvent) :
    (handleListenerEvent now s e).session = none ∨
      ∃ connId client, (handleListenerEvent now s e).session =
        some (newSession connId client now) := by
  cases e with
  | request source tid userBytes data bitmap xo =>
    simp only [handleListenerEvent]
    rcases PapPacket.parseFromAtp userBytes data with err | pap
    · exact .inl hs
    dsimp only
    rcases hf : pap.function with _ | _ | _ | _ | _ | _ | _ | _ | _
    case openConn =>
      dsimp only
      split_ifs
      · exact .inl hs
      · exact .inl hs
      · exact .inr ⟨_, _, rfl⟩
    all_goals exact .inl hs
  | response handle userBytes data => exact .inl hs
  | requestFailed handle => exact .inl hs

end PapServer

/-! ## Dialogues -/

namespace Dialogue
variable {d d' : Dialogue} {now : Micros}

/-- Every session is tied to its history. -/
def Sound (d : Dialogue) : Prop := ∀ session ∈ d.server.session, Told session d.told

/-- No read waits with something to answer it. -/
def Rests (d : Dialogue) : Prop := ∀ session ∈ d.server.session, session.Waits

theorem sound_of_keeps {server : PapServer} (h : PapServer.KeepsReads d.server server)
    (hd : d.Sound) : ({ d with server } : Dialogue).Sound := by
  intro session' hs'
  obtain ⟨session, hs, hsame⟩ := h session' hs'
  exact (hd session hs).keep hsame

theorem rests_of_keeps {server : PapServer} (h : PapServer.KeepsReads d.server server)
    (hd : d.Rests) : ({ d with server } : Dialogue).Rests := by
  intro session' hs'
  obtain ⟨session, hs, hsame⟩ := h session' hs'
  exact hsame.waits (hd session hs)

theorem sound_listenerEvent (hd : d.Sound) (e : AtpEvent) : (d.listenerEvent now e).Sound := by
  intro session' hs'
  rcases hs : d.server.session with _ | session
  · have htold : (d.listenerEvent now e).told = .start := by rw [listenerEvent, hs]; rfl
    rw [htold]
    rcases PapServer.listenerEvent_idle now hs e with h | ⟨connId, client, h⟩
    · rw [Option.mem_def, listenerEvent, h] at hs'
      cases hs'
    · obtain rfl := Option.some.inj (h.symm.trans hs')
      exact told_start connId client now
  · have htold : (d.listenerEvent now e).told = d.told := by rw [listenerEvent, hs]; rfl
    rw [htold]
    obtain rfl := Option.some.inj ((PapServer.listenerEvent_busy now hs e).symm.trans hs')
    exact hd session hs

theorem cachedReply_eq {session : PapSession} (hs : d.server.session = some session)
    (read : PendingRead) : d.server.cachedReply read =
      if read.seq ≠ 0 ∧ read.seq ≠ session.readSeq then
        (session.readCache.find? fun c => c.1 = read.seq).map (·.2)
      else none := by
  rw [PapServer.cachedReply, hs]
  rfl

/-- A read that the client may send, by what becomes of it. -/
theorem connEvent_cases (hd : d.Sound) {e : AtpEvent} {read : PendingRead}
    (hread : d.server.readOf e = some read) (ha : d.told.Allows read.seq) :
    ∃ session, d.server.session = some session ∧
    ((¬ (read.seq ≠ 0 ∧ read.seq ≠ session.readSeq) ∧
      (d.connEvent now e).server.session =
        some { session with lastActivity := now, pendingRead := some read } ∧
      (d.connEvent now e).told = d.told.ask read.seq) ∨
    ∃ j a, d.told.answers[j]? = some a ∧ d.told.issued ≤ j + READ_REPLY_CACHE_LEN ∧
      read.seq = papSeq j ∧ d.told.ask read.seq = d.told ∧
      (d.connEvent now e).server.session = some { session with lastActivity := now } ∧
      (d.connEvent now e).server.connEp = d.server.connEp.respond read.source read.tid
        a.userBytes a.data PAP_MAX_DATA_PER_PACKET now ∧
      (d.connEvent now e).told = d.told.again read (a.userBytes, a.data)) := by
  obtain ⟨session, hs, heq⟩ := PapServer.connEvent_read now hread
  have ht := hd session hs
  refine ⟨session, hs, ?_⟩
  by_cases hseq : read.seq ≠ 0 ∧ read.seq ≠ session.readSeq
  · rcases ht.allowed ha with ⟨hzero, -⟩ | ⟨hnext, -⟩ | ⟨j, a, hj, hm, hi, hjseq, -, hask⟩
    · exact absurd hzero hseq.1
    · exact absurd hnext hseq.2
    have hcached : d.server.cachedReply read = some (a.userBytes, a.data) := by
      rw [cachedReply_eq hs, if_pos hseq, hjseq, ht.find_cache hj hm]
      rfl
    rw [if_pos hseq, hcached] at heq
    refine .inr ⟨j, a, hj, hi, hjseq, hask, ?_, ?_, ?_⟩
    · rw [connEvent, heq]
    · rw [connEvent, heq]
    · rw [connEvent, hread]
      dsimp only
      rw [hcached, hask]
  · rw [if_neg hseq] at heq
    refine .inl ⟨hseq, by rw [connEvent, heq], ?_⟩
    rw [connEvent, hread]
    dsimp only
    rw [cachedReply_eq hs, if_neg hseq]

theorem sound_connEvent (hd : d.Sound) {e : AtpEvent} (hobeys : Obeys now d e) :
    (d.connEvent now e).Sound := by
  rcases hread : d.server.readOf e with _ | read
  · have htold : (d.connEvent now e).told = d.told := by rw [connEvent, hread]
    have := sound_of_keeps (PapServer.keepsReads_connEvent now hread) hd
    rwa [← htold] at this
  intro session' hs'
  obtain ⟨session, hs, ⟨hseq, hs₁, htold⟩ | ⟨j, a, hj, hi, hseq, hask, hs₁, -, htold⟩⟩ :=
    connEvent_cases hd hread (hobeys read hread)
  · obtain rfl := Option.some.inj (hs₁.symm.trans hs')
    have hwait := (hd session hs).wait (hobeys read hread) hseq
    rw [htold]
    exact hwait.keep ⟨rfl, rfl, rfl, rfl, rfl⟩
  · obtain rfl := Option.some.inj (hs₁.symm.trans hs')
    rw [htold]
    exact ((hd session hs).again hj hi hseq).keep ⟨rfl, rfl, rfl, rfl, rfl⟩

theorem repeated_connEvent (hd : d.Sound) {e : AtpEvent} (hobeys : Obeys now d e) :
    Repeated now d e := by
  intro read hread a ha hsome hindex
  obtain ⟨session, hs, ⟨hseq, -, -⟩ | ⟨j, b, hj, hi, hseq, hask, -, hep, -⟩⟩ :=
    connEvent_cases hd hread (hobeys read hread)
  · have ht := hd session hs
    obtain ⟨j, hj⟩ := Option.isSome_iff_exists.1 hsome
    obtain ⟨b, hb, -⟩ := ht.same a ha j hj
    have hjm := (List.getElem?_eq_some_iff.1 hb).1
    rcases ht.allowed (hobeys read hread) with ⟨hzero, -⟩ | ⟨hnext, hask⟩ | ⟨k, c, hc⟩
    · rw [hzero, Readout.indexOf_zero] at hindex
      rw [hindex] at hsome
      cases hsome
    · rw [hnext, ht.readSeq] at hindex
      rw [hnext, ht.readSeq] at hask
      have hwaits := Readout.indexOf_papSeq (h := d.told.ask (papSeq d.told.answers.length))
        (j := d.told.answers.length) (by rw [hask]; exact Nat.lt_succ_self _)
        (by rw [hask]; exact Nat.add_le_add_left (by omega) _)
      rw [hwaits, hj] at hindex
      exact absurd hjm (by rw [Option.some.inj hindex]; exact Nat.lt_irrefl _)
    · exact absurd ⟨hc.2.2.2.1 ▸ papSeq_ne_zero k, hc.2.2.2.2.1⟩ hseq
  · have ht := hd session hs
    have hjm := (List.getElem?_eq_some_iff.1 hj).1
    have hlen : READ_REPLY_CACHE_LEN = 8 := rfl
    rw [hask, hseq, Readout.indexOf_papSeq (Nat.lt_of_lt_of_le hjm ht.issued.1) (by omega)]
      at hindex
    obtain ⟨c, hc, hu, hdata⟩ := ht.same a ha j hindex
    rw [hj] at hc
    cases hc
    rw [hep, hu, hdata]

theorem answerRead_cases (d : Dialogue) (now : Micros) :
    (d.answerRead now = d ∧ d.Rests) ∨
    ∃ session read, d.server.session = some session ∧ session.pendingRead = some read ∧
      (d.answerRead now).server.session =
        some (session.served read (session.readLength read)) ∧
      (d.answerRead now).told =
        d.told.answer read (session.reply (session.readLength read)).toAtpParts := by
  rcases hs : d.server.session with _ | session
  · refine .inl ⟨?_, fun session hsession => ?_⟩
    · rw [answerRead, PapServer.answerRead_eq, PapServer.freshReply, hs]
      rfl
    · rw [hs] at hsession
      cases hsession
  have hfresh : d.server.freshReply now = (session.answerable now).map fun read =>
      (read, (session.reply (session.readLength read)).toAtpParts) := by
    rw [PapServer.freshReply, hs, Option.bind_eq_bind, Option.bind_some]
    generalize session.answerable now = read
    cases read with
    | none => rfl
    | some read => rfl
  rcases hr : session.answerable now with _ | read
  · rw [hr] at hfresh
    refine .inl ⟨by rw [answerRead, PapServer.answerRead_eq, hfresh]; rfl, ?_⟩
    intro session' hs' hwaits
    obtain rfl := Option.some.inj (hs.symm.trans hs')
    rw [PapSession.answerable] at hr
    split_ifs at hr with hready
    · rw [hr] at hwaits
      cases hwaits
    · simp only [Bool.or_eq_true, not_or, Bool.not_eq_true, Bool.not_eq_false',
        List.isEmpty_iff] at hready
      exact hready.1
  · rw [hr] at hfresh
    have hpending : session.pendingRead = some read := by
      rw [PapSession.answerable] at hr
      split_ifs at hr
      exact hr
    refine .inr ⟨session, read, rfl, hpending, ?_, ?_⟩
    · rw [answerRead, PapServer.answerRead_eq, hfresh, hs]
      rfl
    · rw [answerRead, hfresh]
      rfl

theorem sound_answerRead (hd : d.Sound) : (d.answerRead now).Sound ∧ (d.answerRead now).Rests := by
  rcases d.answerRead_cases now with ⟨heq, hrests⟩ | ⟨session, read, hs, hread, hs', htold⟩
  · rw [heq]
    exact ⟨hd, hrests⟩
  · refine ⟨fun session' h => ?_, fun session' h hwaits => ?_⟩
    · obtain rfl := Option.some.inj (hs'.symm.trans h)
      rw [htold]
      exact (hd session hs).answer hread _
    · obtain rfl := Option.some.inj (hs'.symm.trans h)
      cases hwaits

theorem sound_drainListener (hd : d.Sound) : (d.drainListener now).Sound := by
  have hstep : ∀ d e, Sound d → True → (listenerEvent now d e).Sound :=
    fun _ e h _ => sound_listenerEvent h e
  exact inv_run (listenerEvent now) hstep (sound_of_keeps (.of_eq rfl) hd)
    (along_true (listenerEvent now) d.server.listener.events)

theorem sound_quiet (hd : d.Sound) : d.quiet.Sound := sound_of_keeps (.of_eq rfl) hd

theorem sound_drainConn (hd : d.Sound)
    (hobeys : Along (connEvent now) (Obeys now) d.quiet d.server.connEp.events) :
    (d.drainConn now).Sound ∧
      Along (connEvent now) (Repeated now) d.quiet d.server.connEp.events := by
  have hstep : ∀ d e, Sound d → Obeys now d e → (connEvent now d e).Sound :=
    fun _ _ hd ho => sound_connEvent hd ho
  have hgood : ∀ d e, Sound d → Obeys now d e → Repeated now d e :=
    fun _ _ hd ho => repeated_connEvent hd ho
  exact ⟨inv_run (connEvent now) hstep (sound_quiet hd) hobeys,
    along_run (connEvent now) hgood hstep (sound_quiet hd) hobeys⟩

/-- What holds of a dialogue between two calls. -/
def Between (d : Dialogue) : Prop := d.Sound ∧ d.Rests

theorem between_of_keeps {server : PapServer} (h : PapServer.KeepsReads d.server server)
    (hd : d.Between) : ({ d with server } : Dialogue).Between :=
  ⟨sound_of_keeps h hd.1, rests_of_keeps h hd.2⟩

theorem between_onOption {f : PapServer → Option PapServer}
    (hf : ∀ s s', f s = some s' → PapServer.KeepsReads s s') (hd : d.Between)
    (h : d.onOption f = some d') : d'.Between := by
  obtain ⟨server, hs, rfl⟩ := Option.map_eq_some_iff.1 h
  exact between_of_keeps (hf _ _ hs) hd

theorem between_drain (hd : d.Sound)
    (hobeys : Along (connEvent now) (Obeys now) (d.drainListener now).quiet
      (d.drainListener now).server.connEp.events) (h : d.drain now = some d') : d'.Between :=
  between_onOption (fun _ _ => PapServer.keepsReads_maybePull)
    (sound_answerRead (sound_drainConn (sound_drainListener hd) hobeys).1) h

theorem sound_received (hd : d.Sound) (localSocket : UInt8) (src : ServiceAddress)
    (payload : Bytes) : (d.on (·.received localSocket src payload)).Sound := by
  refine sound_of_keeps (.of_eq ?_) hd
  show (d.server.received localSocket src payload).session = d.server.session
  unfold PapServer.received
  split_ifs <;> rfl

theorem sound_ticked (hd : d.Sound) (now : Micros) : (d.on (·.ticked now)).Sound :=
  sound_of_keeps (.of_eq rfl) hd

theorem sound_output (hd : d.Sound) (data : Bytes) : ({
    server := { d.server with session := d.server.session.map fun session =>
      { session with stdout := session.stdout ++ data } }
    told := { d.told with queued := d.told.queued ++ data } } : Dialogue).Sound := by
  intro session' hs'
  obtain ⟨session, hs, rfl⟩ := Option.map_eq_some_iff.1 hs'
  exact (hd session hs).output data

theorem sound_finish (hd : d.Sound) : ({
    server := { d.server with session := d.server.session.map fun session =>
      { session with eofQueued := true } }
    told := { d.told with ended := true } } : Dialogue).Sound := by
  intro session' hs'
  obtain ⟨session, hs, rfl⟩ := Option.map_eq_some_iff.1 hs'
  exact (hd session hs).finish

/-- **One call.**  Where the client keeps to the rule, a call leaves the session and its history in
    step, and repeats what was answered. -/
theorem between_call (hd : d.Between) {c : PapCall} (hobeys : OnReads Obeys d c) :
    OnReads Repeated d c ∧ ∀ d', d.call c = some d' → d'.Between := by
  cases c with
  | setStatus status =>
    refine ⟨trivial, fun d' h => ?_⟩
    cases h
    exact between_of_keeps (.of_eq rfl) hd
  | setSinkCredit bytes now =>
    refine ⟨trivial, fun d' h => between_onOption (f := (·.setSinkCredit bytes now)) ?_ hd h⟩
    intro s s' hs
    have hpull : ({ s with sinkCredit := bytes } : PapServer).maybePull now = some s' := hs
    have hkeeps := PapServer.keepsReads_maybePull hpull
    exact hkeeps
  | queueOutput data now =>
    refine ⟨trivial, fun d' h => ?_⟩
    cases h
    exact sound_answerRead (sound_output hd.1 data)
  | endOutput now =>
    refine ⟨trivial, fun d' h => ?_⟩
    cases h
    exact sound_answerRead (sound_finish hd.1)
  | handleDatagram localSocket src payload now =>
    have hreceived := sound_received hd.1 localSocket src payload
    exact ⟨(sound_drainConn (sound_drainListener hreceived) hobeys).2,
      fun d' h => between_drain hreceived hobeys h⟩
  | poll now =>
    have hticked := sound_ticked hd.1 now
    refine ⟨(sound_drainConn (sound_drainListener hticked) hobeys).2, fun d' h => ?_⟩
    obtain ⟨d₁, hdrain, h⟩ := Option.bind_eq_some_iff.1 h
    obtain ⟨d₂, hsession, h⟩ := Option.bind_eq_some_iff.1 h
    have h₂ := between_onOption (fun _ _ => PapServer.keepsReads_pollSession)
      (between_drain hticked hobeys hdrain) hsession
    exact between_onOption (fun _ _ => PapServer.keepsReads_maybePull)
      (sound_answerRead h₂.1) h
  | pollTransmit =>
    refine ⟨trivial, fun d' h => ?_⟩
    cases h
    refine between_of_keeps (.of_eq ?_) hd
    show d.server.pollTransmit.2.session = d.server.session
    unfold PapServer.pollTransmit
    split
    · rfl
    · split <;> rfl
  | pollEvent =>
    refine ⟨trivial, fun d' h => ?_⟩
    cases h
    exact between_of_keeps (.of_eq rfl) hd

end Dialogue

/-- What the replies of a session say of its output. -/
structure ReadsBack (session : PapSession) (h : Readout) : Prop where
  /-- the replies, each number taken once, make up the output read so far -/
  delivered : h.delivered ++ session.stdout = h.queued
  /-- a read waits only when that is all of it -/
  waiting : session.pendingRead.isSome → h.delivered = h.queued
  /-- the numbers come in order, and at most the last one is not answered -/
  numbered : ∃ n, h.fresh.filterMap (·.index) = List.range n ∧ n ≤ h.issued ∧ h.issued ≤ n + 1
  /-- a number always gets the same reply -/
  same : ∀ r ∈ h.replies, ∀ r' ∈ h.replies, r.index.isSome → r.index = r'.index →
    r.userBytes = r'.userBytes ∧ r.data = r'.data
  /-- eof is on the replies that leave nothing queued of an output that ended -/
  eof : ∀ sofar r, sofar ++ [r] <+: h.fresh →
    (r.eof = true ↔ r.ended = true ∧ (sofar ++ [r]).flatMap (·.data) = r.queued)

theorem Told.readsBack {session : PapSession} {h : Readout} (ht : Told session h)
    (hw : session.Waits) : ReadsBack session h where
  delivered := ht.delivered
  waiting := fun hsome => by rw [← ht.delivered, (hw hsome).1, List.append_nil]
  numbered := ⟨_, ht.cached.filterMap_firsts, ht.issued⟩
  same := by
    intro r hr r' hr' hsome heq
    obtain ⟨j, hj⟩ := Option.isSome_iff_exists.1 hsome
    obtain ⟨a, ha, hu, hd⟩ := ht.same r hr j hj
    obtain ⟨a', ha', hu', hd'⟩ := ht.same r' hr' j (heq ▸ hj)
    rw [ha] at ha'
    cases ha'
    exact ⟨hu.symm.trans hu', hd.symm.trans hd'⟩
  eof := ht.eof

namespace Dialogue

theorem between_new (listenerSocket connSocket : UInt8) :
    (new listenerSocket connSocket).Between :=
  ⟨fun session hs => (by cases hs), fun session hs => (by cases hs)⟩

/-- The client keeps to the rule in a run from a new server. -/
def Conforms (listenerSocket connSocket : UInt8) (calls : List PapCall) : Prop :=
  Along (partialStep call) (Reached (OnReads Obeys)) (some (new listenerSocket connSocket)) calls

instance (listenerSocket connSocket : UInt8) (calls : List PapCall) :
    Decidable (Conforms listenerSocket connSocket calls) :=
  inferInstanceAs (Decidable (Along _ _ _ _))

/-- **The client reads back the output.** While the client sends the reads it may, the replies to a
    session's reads, each number taken once, are the output queued for it in order; a number sent
    again is met with the reply it had; and eof is on exactly the replies that leave nothing of an
    output that was ended. -/
theorem reads_back (listenerSocket connSocket : UInt8) (calls : List PapCall)
    (hc : Conforms listenerSocket connSocket calls) :
    Along (partialStep call) (Reached (OnReads Repeated)) (some (new listenerSocket connSocket))
      calls ∧
    ∀ d, run (partialStep call) (some (new listenerSocket connSocket)) calls = some d →
      run (partialStep PapServer.call) (some (PapServer.new listenerSocket connSocket)) calls =
        some d.server ∧
      ∀ session, d.server.session = some session → ReadsBack session d.told := by
  obtain ⟨hrepeated, hend⟩ := along_reached (f := call)
    (fun d c hd ho => (between_call hd ho).1) (fun d c d' hd ho h => (between_call hd ho).2 d' h)
    (fun d hd => Option.some.inj hd ▸ between_new listenerSocket connSocket) hc
  refine ⟨hrepeated, fun d hd => ⟨?_, fun session hs => ?_⟩⟩
  · have hrun := run_partialStep_map (·.server) call_server
      (some (new listenerSocket connSocket)) calls
    rw [hd] at hrun
    exact hrun.symm
  · exact ((hend d hd).1 session hs).readsBack ((hend d hd).2 session hs)

/-- A request of a client at socket 70 of node 10. -/
def clientSends (localSocket : UInt8) (tid : UInt16) (pap : PapPacket) (now : Micros) : PapCall :=
  .handleDatagram localSocket ⟨0, 10, 70⟩
    (AtpEndpoint.requestBytes true 0xFF tid pap.toAtpParts.1 pap.toAtpParts.2) now

/-- The client opens a connection. -/
def clientOpens : PapCall := clientSends 190 1
  { connectionId := 70
    function := .openConn
    sequenceNum := 0
    eof := false
    data := [70, 8, 0, 0] } 0

/-- The client reads. -/
def clientReads (tid seq : UInt16) (now : Micros) : PapCall := clientSends 191 tid
  { connectionId := 70
    function := .sendData
    sequenceNum := seq
    eof := false
    data := [] } now

/-- Two reads, the first one sent again after its reply, of an output that ends. -/
def readTwice : List PapCall :=
  [clientOpens, clientReads 2 1 10, .queueOutput [88] 20, clientReads 3 1 30, clientReads 4 2 40,
    .endOutput 50]

theorem reads_back_twice : ∃ d, run (partialStep call) (some (new 190 191)) readTwice = some d ∧
    d.told.replies.map (fun r => (r.index, r.data, r.eof)) =
      [(some 0, [88], false), (some 0, [88], false), (some 1, [], true)] ∧
    ∀ session, d.server.session = some session → ReadsBack session d.told := by
  have hrun : (run (partialStep call) (some (new 190 191)) readTwice).any (fun d => decide
      (d.told.replies.map (fun r => (r.index, r.data, r.eof)) =
        [(some 0, [88], false), (some 0, [88], false), (some 1, [], true)])) = true := by
    decide +kernel
  obtain ⟨d, hd, hreplies⟩ := (Option.any_eq_true _ _).1 hrun
  exact ⟨d, hd, of_decide_eq_true hreplies,
    ((reads_back 190 191 readTwice (by decide +kernel)).2 d hd).2⟩

/-- A reply that leaves nothing queued has no eof where the output has not been ended. -/
theorem reads_back_fails : ¬ ∀ (listenerSocket connSocket : UInt8) (calls : List PapCall),
    Conforms listenerSocket connSocket calls →
    ∀ d, run (partialStep call) (some (new listenerSocket connSocket)) calls = some d →
    ∀ sofar r, sofar ++ [r] <+: d.told.fresh →
      (r.eof = true ↔ (sofar ++ [r]).flatMap (·.data) = r.queued) := by
  intro h
  have hrun : (run (partialStep call) (some (new 190 191))
      [clientOpens, clientReads 2 1 10, .queueOutput [88] 20]).any (fun d => decide
        (d.told.fresh.map (fun r => (r.eof, r.data, r.queued)) = [(false, [88], [88])])) =
          true := by
    decide +kernel
  obtain ⟨d, hd, hfresh⟩ := (Option.any_eq_true _ _).1 hrun
  obtain ⟨r, hr, hvalues⟩ := List.map_eq_singleton_iff.1 (of_decide_eq_true hfresh)
  obtain ⟨heof, hvalues⟩ := Prod.mk.inj hvalues
  obtain ⟨hdata, hqueued⟩ := Prod.mk.inj hvalues
  have hprefix : [] ++ [r] <+: d.told.fresh := by
    rw [hr]
    exact List.prefix_refl _
  have hdrains := (h 190 191 _ (by decide +kernel) d hd [] r hprefix).2
    (by rw [List.nil_append, List.flatMap_singleton, hdata, hqueued])
  rw [heof] at hdrains
  cases hdrains

end Dialogue

end TailTalk
