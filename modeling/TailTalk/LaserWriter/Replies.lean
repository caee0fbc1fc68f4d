/-
  What a driver reads back from the LaserWriter emulator.

  `Told` ties a session to the replies it has sent: these, each read taken
  once, and what is left on the printer's stdout are the writes in portions.
-/
import TailTalk.LaserWriter.Stdout
import TailTalk.Lib.Portions
import TailTalk.Pap.Reads

namespace TailTalk

open Lib

/-! ## The printer's stdout -/

/-- The answers of a query are never empty. -/
theorem pqpBlockWrites_ne_nil (attrs : PrinterAttributes) (block : Option (Text × Text))
    (defaultVal : Text) : ∀ w ∈ pqpBlockWrites attrs block defaultVal, w ≠ [] := by
  have hsnoc : ∀ (t : Text) (c : Char), ∀ w ∈ [t ++ [c]], w ≠ [] := by
    intro t c w hw
    obtain rfl := List.mem_singleton.1 hw
    exact List.append_ne_nil_of_right_ne_nil _ (List.cons_ne_nil _ _)
  unfold pqpBlockWrites
  rcases block with _ | ⟨kind, name⟩
  · exact hsnoc _ _
  dsimp only
  split_ifs
  · intro w hw
    obtain rfl := List.mem_singleton.1 hw
    simp
  · intro w hw
    rcases List.mem_append.1 hw with hw | hw
    · obtain ⟨font, -, rfl⟩ := List.mem_map.1 hw
      exact List.append_ne_nil_of_right_ne_nil _ (List.cons_ne_nil _ _)
    · obtain rfl := List.mem_singleton.1 hw
      decide
  · exact hsnoc _ _
  · intro w hw
    obtain rfl := List.mem_singleton.1 hw
    decide
  · exact hsnoc _ _

theorem intoBytes_ne_nil {t : Text} (h : t ≠ []) : intoBytes t ≠ [] := by
  obtain ⟨c, cs, rfl⟩ := List.exists_cons_of_ne_nil h
  have hlen := String.length_utf8EncodeChar c
  have hpos := c.utf8Size_pos
  intro hnil
  rw [intoBytes, List.flatMap_cons, List.append_eq_nil_iff] at hnil
  rw [hnil.1, List.length_nil] at hlen
  omega

theorem pqpWrites_ne_nil (attrs : PrinterAttributes) (jobData : Bytes) :
    ∀ w ∈ pqpWrites attrs jobData, w ≠ [] := by
  have hline : ∀ (s : QueryScan) (l : Bytes), (∀ w ∈ s.out, w ≠ []) → True →
      ∀ w ∈ (s.line attrs l).out, w ≠ [] := by
    intro s l hs _
    unfold QueryScan.line
    dsimp only
    split
    · exact hs
    split
    · intro w hw
      rcases List.mem_append.1 hw with hw | hw
      · exact hs w hw
      · obtain ⟨t, ht, rfl⟩ := List.mem_map.1 hw
        exact intoBytes_ne_nil (pqpBlockWrites_ne_nil attrs _ _ t ht)
    · exact hs
  exact inv_run (QueryScan.line attrs) hline (fun w hw => by cases hw)
    (along_true (QueryScan.line attrs) (jobData.splitOnP isEol))

namespace PrinterStdout

/-- What is left to read, the rest of a write first. -/
def left (s : PrinterStdout) : List Bytes :=
  match s.writes with
  | [] => []
  | write :: rest => write.drop s.pos :: rest

variable {s : PrinterStdout}

theorem left_eq_nil_iff : s.left = [] ↔ s.writes = [] := by
  unfold left
  rcases s.writes with _ | ⟨w, ws⟩ <;> simp

theorem left_queue (s : PrinterStdout) (writes : List Bytes) :
    (s.queue writes).left = s.left ++ writes := by
  obtain ⟨ws, pos, hle⟩ := s
  cases ws with
  | nil =>
    obtain rfl : pos = 0 := Nat.le_zero.1 hle
    cases writes <;> rfl
  | cons w ws => rfl

/-- What is handed out of `left`, and what stays. -/
structure Hands (s : PrinterStdout) (max : ℕ) (chunk : Bytes) (s' : PrinterStdout) : Prop where
  fits : chunk.length ≤ max
  empty : chunk = [] → s.left = []
  left : ∀ b ∈ s'.left, b ≠ []
  /-- the chunk is a portion of a write -/
  portions : ∀ q bs, Portions q (bs ++ s.left) →
    Portions q (bs ++ [chunk].filter (· ≠ []) ++ s'.left)

theorem hands_nothing (h : s.writes = []) (max : ℕ) : Hands s max [] s where
  fits := Nat.zero_le _
  empty := fun _ => left_eq_nil_iff.2 h
  left := by
    rw [left_eq_nil_iff.2 h]
    intro b hb
    cases hb
  portions := fun q bs hp => by
    rw [show [([] : Bytes)].filter (· ≠ []) = [] from rfl, List.append_nil]
    exact hp

theorem filter_ne_nil {chunk : Bytes} (h : chunk ≠ []) : [chunk].filter (· ≠ []) = [chunk] := by
  rw [List.filter_singleton, decide_eq_true h]
  rfl

theorem nextChunk_hands (s : PrinterStdout) {max : ℕ} (hmax : 0 < max)
    (hleft : ∀ b ∈ s.left, b ≠ []) :
    Hands s max (s.nextChunk max).1.1 (s.nextChunk max).2 ∧
      ((s.nextChunk max).1.2 = true ↔ (s.nextChunk max).2.left = []) := by
  obtain ⟨writes, pos, hle⟩ := s
  rcases writes with _ | ⟨write, rest⟩
  · exact ⟨hands_nothing rfl max, iff_of_true rfl rfl⟩
  have hposle : pos ≤ write.length := hle
  have hne : write.drop pos ≠ [] := hleft _ List.mem_cons_self
  have hpos : 0 < (write.drop pos).length := List.length_pos_iff.2 hne
  rw [List.length_drop] at hpos
  by_cases hwhole : write.length ≤ pos + min (write.length - pos) max
  · -- the rest of the write
    have hchunk : (write.drop pos).take (min (write.length - pos) max) = write.drop pos :=
      List.take_of_length_le (by rw [List.length_drop]; omega)
    have hnext : nextChunk ⟨write :: rest, pos, hle⟩ max =
        ((write.drop pos, rest.isEmpty), ⟨rest, 0, Nat.zero_le _⟩) := by
      rw [← hchunk]
      exact dif_pos hwhole
    have hrest : PrinterStdout.left ⟨rest, 0, Nat.zero_le _⟩ = rest := by
      cases rest <;> rfl
    rw [hnext]
    refine ⟨⟨?_, fun h => absurd h hne, ?_, fun q bs hp => ?_⟩, ?_⟩
    · rw [List.length_drop]
      omega
    · rw [hrest]
      exact fun b hb => hleft b (List.mem_cons_of_mem _ hb)
    · rw [filter_ne_nil hne, hrest, List.append_assoc, List.singleton_append, show (write.drop pos :: rest) = left ⟨write :: rest, pos, hle⟩ from rfl]
      exact hp
    · rw [hrest]
      exact List.isEmpty_iff
  · -- a part of it
    have hlt := Nat.lt_of_not_le hwhole
    have hnext : nextChunk ⟨write :: rest, pos, hle⟩ max =
        (((write.drop pos).take (min (write.length - pos) max), false),
          ⟨write :: rest, pos + min (write.length - pos) max, Nat.le_of_lt hlt⟩) :=
      dif_neg hwhole
    have hsplit : write.drop pos = (write.drop pos).take (min (write.length - pos) max) ++
        write.drop (pos + min (write.length - pos) max) := by
      rw [← List.drop_drop, List.take_append_drop]
    have htaken : (write.drop pos).take (min (write.length - pos) max) ≠ [] := by
      rw [← List.length_pos_iff, List.length_take, List.length_drop]
      omega
    have hmore : write.drop (pos + min (write.length - pos) max) ≠ [] := by
      rw [← List.length_pos_iff, List.length_drop]
      omega
    rw [hnext]
    refine ⟨⟨?_, fun h => absurd h htaken, ?_, fun q bs hp => ?_⟩, ?_⟩
    · rw [List.length_take]
      omega
    · intro b hb
      rcases List.mem_cons.1 hb with rfl | hb
      · exact hmore
      · exact hleft b (List.mem_cons_of_mem _ hb)
    · change Portions q (bs ++ write.drop pos :: rest) at hp
      rw [hsplit] at hp
      rw [filter_ne_nil htaken, List.append_assoc]
      exact hp.split
    · exact iff_of_false Bool.false_ne_true (List.cons_ne_nil _ _)

end PrinterStdout


/-! ## Histories -/

/-- A reply to a read, with the writes queued when it was sent. -/
structure StdoutReply where
  /-- which numbered read of the session it answers -/
  index : Option ℕ
  answer : ReadAnswer
  queued : List Bytes
deriving DecidableEq

namespace StdoutReply

/-- What the client puts together. -/
def body (r : StdoutReply) : Bytes :=
  (r.answer.req.sendResponseChunked r.answer.chunk r.answer.userBytes PAP_MAX_DATA_PER_PACKET
    true).elim [] AtpSendResponse.data

/-- The eof flag that the client reads. -/
def eof (r : StdoutReply) : Bool :=
  match PapPacket.parseFromAtp r.answer.userBytes r.body with
  | .ok pap => pap.eof
  | .error _ => false

/-- What the read has room for. -/
def room (r : StdoutReply) : ℕ := r.answer.req.maxPackets * PAP_MAX_DATA_PER_PACKET

theorem body_eq (r : StdoutReply) : r.body = r.answer.chunk.take r.room := by
  have hpackets : (responsePackets r.answer.req.maxPackets PAP_MAX_DATA_PER_PACKET
      r.answer.userBytes r.answer.chunk).length ≤ 8 :=
    (length_responsePackets _ _ (by decide) r.answer.req.maxPackets_pos).trans
      r.answer.req.maxPackets_le
  have hcut : responsePackets r.answer.req.maxPackets PAP_MAX_DATA_PER_PACKET
      r.answer.userBytes r.answer.chunk =
        responsePackets r.answer.req.maxPackets PAP_MAX_DATA_PER_PACKET r.answer.userBytes
          (r.answer.chunk.take r.room) := by
    simp only [responsePackets, room, List.take_take, Nat.min_self]
  rw [body, AtpTransaction.sendResponseChunked, AtpTransaction.sendResponseInternal,
    if_neg (Nat.not_lt.2 hpackets), if_pos rfl]
  show (responsePackets _ _ _ _).flatMap (·.2) = _
  rw [hcut]
  refine data_responsePackets _ _ (by decide) ?_
  rw [List.length_take]
  exact Nat.min_le_left _ _

end StdoutReply

/-- The reply to a read among what a turn sends. -/
def HostCommand.readAnswer : HostCommand → Option ReadAnswer
  | .answer a => some a
  | _ => none

/-- A session, and the replies it has sent to reads. -/
structure HostLog where
  session : HostSession
  replies : List StdoutReply

namespace HostLog

/-- The replies, each numbered read taken once. -/
def fresh (rs : List StdoutReply) : List StdoutReply := firsts StdoutReply.index rs

/-- The output in replies. -/
def bodies (rs : List StdoutReply) : List Bytes := (rs.map (·.body)).filter (· ≠ [])

/-- The last read with a number: one of those answered, or the next one. -/
def indexOf (rs : List StdoutReply) (seq : UInt16) : Option ℕ :=
  (recent 65535 (List.range ((numbered StdoutReply.index rs).length + 1))).find? fun k =>
    papSeq k = seq

/-- An answer goes out. -/
def record (queued : List Bytes) (rs : List StdoutReply) (answer : ReadAnswer) :
    List StdoutReply :=
  rs ++ [⟨indexOf rs answer.seq, answer, queued⟩]

/-- What is recorded of the commands of a turn. -/
def recordAll (queued : List Bytes) (rs : List StdoutReply) (out : List HostCommand) :
    List StdoutReply :=
  run (record queued) rs (out.filterMap HostCommand.readAnswer)

/-- Nothing was answered. -/
def start (connectionId : UInt8) (clientDataAddr : ServiceAddress) (now : Micros) : HostLog :=
  ⟨.start connectionId clientDataAddr now, []⟩

/-- A turn of the session, and the replies it sends. -/
def step (h : HostLog) (input : HostInput × Micros) : HostLog :=
  let (session, out) := h.session.step input.1 input.2
  ⟨session, recordAll session.write.stdout h.replies out⟩

/-- What is said of a reply when it is sent. -/
structure Answered (sofar : List StdoutReply) (r : StdoutReply) : Prop where
  whole : r.body = r.answer.chunk
  /-- eof is on the output that leaves nothing queued -/
  eof : r.eof = true ↔ r.answer.kind = .output ∧ Portions r.queued (bodies (sofar ++ [r]))
  /-- a reply is empty when nothing is queued -/
  empty : r.body = [] → Portions r.queued (bodies sofar)

/-- What ties a session to the replies it has sent. -/
structure Told (s : HostSession) (rs : List StdoutReply) : Prop where
  portions : Portions s.write.stdout (bodies (fresh rs) ++ s.stdout.left)
  left : ∀ b ∈ s.stdout.left, b ≠ []
  ready : s.stdout.left ≠ [] → s.responseReady = true
  cached : Cached StdoutReply.index papSeq (fun r => (r.answer.userBytes, r.answer.chunk))
    PAP_REPLY_CACHE_LEN rs s.readReplyCache
  readSeq : s.readSeq = papSeq (numbered StdoutReply.index rs).length
  pending : ∀ read ∈ s.pendingRead, read.2 = 0 ∨ read.2 = s.readSeq
  answered : ∀ sofar r, sofar ++ [r] <+: fresh rs → Answered sofar r

/-- No read waits while there is output for it. -/
def Waits (s : HostSession) : Prop := s.pendingRead.isSome → s.responseReady = false

section
variable {s s' : HostSession} {rs : List StdoutReply} {r : StdoutReply} {stdout : PrinterStdout}
  {connectionId : UInt8} {chunk : Bytes} {eof : Bool}

theorem told_start (connectionId : UInt8) (clientDataAddr : ServiceAddress) (now : Micros) :
    Told (.start connectionId clientDataAddr now) [] where
  portions := .nil
  left := fun b hb => by cases hb
  ready := fun h => absurd rfl h
  cached := .nil
  readSeq := rfl
  pending := fun read hr => by cases hr
  answered := fun sofar r hr => absurd (List.prefix_nil.1 hr)
    (List.append_ne_nil_of_right_ne_nil _ (List.cons_ne_nil _ _))

theorem bodies_append (rs rs' : List StdoutReply) : bodies (rs ++ rs') = bodies rs ++ bodies rs' := by
  rw [bodies, List.map_append, List.filter_append, bodies, bodies]

theorem Told.queue (ht : Told s rs) {writes : List Bytes} (hwrites : ∀ w ∈ writes, w ≠ [])
    (write : LaserSession) (hstdout : write.stdout = s.write.stdout ++ writes) :
    Told ({ s with write }.queue writes) rs := by
  have hleft : ({ s with write }.queue writes).stdout.left = s.stdout.left ++ writes :=
    PrinterStdout.left_queue s.stdout writes
  refine { ht with portions := ?_, left := ?_, ready := fun _ => rfl }
  · rw [hleft, ← List.append_assoc]
    show Portions write.stdout _
    rw [hstdout]
    exact ht.portions.append (.refl writes)
  · rw [hleft]
    intro b hb
    rcases List.mem_append.1 hb with hb | hb
    · exact ht.left b hb
    · exact hwrites b hb

/-- A change that the reads do not see. -/
theorem Told.write (ht : Told s rs) (write : LaserSession)
    (hstdout : write.stdout = s.write.stdout) : Told { s with write } rs :=
  { ht with
    portions := by
      show Portions write.stdout _
      rw [hstdout]
      exact ht.portions }

theorem Told.handleJob (ht : Told s rs) (attrs : PrinterAttributes) (eof : Bool) :
    Told (s.handleJob attrs eof) rs := by
  unfold HostSession.handleJob
  split
  · exact ht
  split
  · refine ht.queue ?_ _ ?_
    · split_ifs
      · exact pqpWrites_ne_nil _ _
      · intro w hw
        cases hw
    · by_cases hquery : pqpIsQuery s.write.job.data = true
      · rw [if_pos hquery, LaserSession.finishJob, if_pos hquery]
      · rw [if_neg hquery, LaserSession.finishJob, if_neg hquery, List.append_nil]
  split
  · rcases pqpAnswerablePrefix s.write.job.unanswered with _ | stop
    · exact ht
    · exact ht.queue (pqpWrites_ne_nil _ _) _ rfl
  · exact ht

theorem indexOf_zero : indexOf rs 0 = none := find?_papSeq_zero _

theorem indexOf_papSeq {j : ℕ} (hj : j ≤ (numbered StdoutReply.index rs).length)
    (hi : (numbered StdoutReply.index rs).length ≤ j + 8) : indexOf rs (papSeq j) = some j :=
  find?_papSeq (Nat.lt_succ_of_le hj) (by omega)

theorem Told.again (ht : Told s rs) {seq : UInt16} {c : CachedReply}
    (hc : cachedReply s.readReplyCache seq = some c) (req : AtpTransaction)
    (queued : List Bytes) :
    Told s (record queued rs ⟨req, seq, c.2.1, c.2.2, .again⟩) := by
  obtain ⟨j, a, ha, hlen, rfl, rfl⟩ := ht.cached.of_find? hc
  have hj := (List.getElem?_eq_some_iff.1 ha).1
  have hindex := indexOf_papSeq (Nat.le_of_lt hj) hlen
  have hfresh : fresh (record queued rs ⟨req, papSeq j, a.answer.userBytes, a.answer.chunk,
      .again⟩) = fresh rs := ht.cached.firsts_again ha hindex
  exact
    { ht with
      portions := by rw [hfresh]; exact ht.portions
      cached := ht.cached.again ha hindex rfl
      readSeq := by
        rw [numbered, record, ht.cached.firsts_again ha hindex]
        exact ht.readSeq
      answered := by rw [hfresh]; exact ht.answered }

/-- What is sent to the read that waits, and what it leaves. -/
structure Serves (s : HostSession) (answer : ReadAnswer) (eof : Bool) (stdout : PrinterStdout) :
    Prop where
  hands : PrinterStdout.Hands s.stdout (answer.req.maxPackets * PAP_MAX_DATA_PER_PACKET)
    answer.chunk stdout
  packet : (answer.userBytes, answer.chunk) =
    (HostSession.outputPacket s.connectionId eof answer.chunk).toAtpParts
  ends : eof = true ↔ answer.kind = .output ∧ stdout.left = []
  ready : stdout.left ≠ [] → s.responseReady = true

theorem Serves.whole {answer : ReadAnswer} (hs : Serves s answer eof stdout)
    (hr : r.answer = answer) : r.body = answer.chunk := by
  subst hr
  rw [r.body_eq]
  exact List.take_of_length_le hs.hands.fits

theorem Serves.eof_eq {answer : ReadAnswer} (hs : Serves s answer eof stdout)
    (hr : r.answer = answer) : r.eof = eof := by
  have hwhole := hs.whole hr
  have huser : r.answer.userBytes =
      (HostSession.outputPacket s.connectionId eof answer.chunk).toAtpParts.1 := by
    rw [hr]
    exact congrArg Prod.fst hs.packet
  have hparse : PapPacket.parseFromAtp r.answer.userBytes answer.chunk =
      .ok (HostSession.outputPacket s.connectionId eof answer.chunk).onAtp := by
    rw [huser]
    exact (HostSession.outputPacket s.connectionId eof answer.chunk).parseFromAtp_toAtpParts
  rw [StdoutReply.eof, hwhole, hparse]
  rfl

theorem Told.answer_stream (ht : Told s rs) {answer : ReadAnswer}
    (hs : Serves s answer eof stdout) {rs' : List StdoutReply} (hr : r.answer = answer)
    (hqueued : r.queued = s.write.stdout) (hfresh : fresh rs' = fresh rs ++ [r]) :
    Portions s.write.stdout (bodies (fresh rs') ++ stdout.left) ∧
      ∀ sofar r', sofar ++ [r'] <+: fresh rs' → Answered sofar r' := by
  have hwhole : r.body = answer.chunk := hs.whole hr
  have hbody : bodies [r] = [answer.chunk].filter (· ≠ []) := by
    rw [bodies, List.map_singleton, hwhole]
  have hportions : Portions s.write.stdout (bodies (fresh rs') ++ stdout.left) := by
    rw [hfresh, bodies_append, hbody]
    exact hs.hands.portions _ _ ht.portions
  refine ⟨hportions, ?_⟩
  rw [hfresh]
  intro sofar r' hp
  rcases prefix_snoc hp with hp | ⟨rfl, rfl⟩
  · exact ht.answered sofar r' hp
  · refine { whole := by rw [hwhole, hr], eof := ?_, empty := fun hempty => ?_ }
    · rw [hs.eof_eq hr, hs.ends, hr, hqueued, ← hfresh,
        hportions.done_iff hs.hands.left]
    · rw [hqueued, ht.portions.done_iff ht.left]
      exact hs.hands.empty (hwhole.symm.trans hempty)

/-- **A reply.**  Answering the read that waits. -/
theorem Told.answer (ht : Told s rs) {answer : ReadAnswer} (hs : Serves s answer eof stdout)
    (hpending : answer.seq = 0 ∨ answer.seq = s.readSeq) :
    Told (s.answered answer.seq answer.userBytes answer.chunk eof stdout)
      (record s.write.stdout rs answer) := by
  have hready : stdout.left ≠ [] → (s.responseReady && !eof) = true := by
    intro hleft
    have hends : eof ≠ true := fun heof => hleft (hs.ends.1 heof).2
    rw [hs.ready hleft, Bool.eq_false_of_not_eq_true hends]
    rfl
  obtain ⟨r, hr⟩ : ∃ r : StdoutReply, r = ⟨indexOf rs answer.seq, answer, s.write.stdout⟩ :=
    ⟨_, rfl⟩
  have hrecord : record s.write.stdout rs answer = rs ++ [r] := by rw [record, hr]
  have hanswer : r.answer = answer := by rw [hr]
  have hqueued : r.queued = s.write.stdout := by rw [hr]
  have hkept : (r.answer.userBytes, r.answer.chunk) = (answer.userBytes, answer.chunk) := by
    rw [hanswer]
  rw [hrecord]
  rcases hpending with hseq | hseq
  · -- an unnumbered read
    have hindex : r.index = none := by rw [hr, hseq, indexOf_zero]
    obtain ⟨hportions, hanswered⟩ :=
      ht.answer_stream hs hanswer hqueued (firsts_unnumbered hindex)
    have hsame : ¬ (answer.seq ≠ 0) := fun hne => hne hseq
    exact
      { portions := hportions
        left := hs.hands.left
        ready := hready
        cached := by
          show Cached _ _ _ _ _ (if answer.seq ≠ 0 then _ else _)
          rw [if_neg hsame]
          exact ht.cached.unnumbered hindex
        readSeq := by
          show (if answer.seq ≠ 0 then _ else _) = _
          rw [if_neg hsame, numbered_unnumbered hindex, ht.readSeq]
        pending := fun read hr => by cases hr
        answered := hanswered }
  · -- the numbered read expected next
    have hnext : answer.seq = papSeq (numbered StdoutReply.index rs).length := by
      rw [hseq, ht.readSeq]
    have hindex : r.index = some (numbered StdoutReply.index rs).length := by
      rw [hr, hnext]
      exact indexOf_papSeq (Nat.le_refl _) (Nat.le_add_right _ _)
    obtain ⟨hportions, hanswered⟩ :=
      ht.answer_stream hs hanswer hqueued (ht.cached.firsts_next hindex)
    have hne : answer.seq ≠ 0 := by
      rw [hnext]
      exact papSeq_ne_zero _
    exact
      { portions := hportions
        left := hs.hands.left
        ready := hready
        cached := by
          show Cached _ _ _ _ _ (if answer.seq ≠ 0 then _ else _)
          rw [if_pos hne, rememberReply, hnext, ← hkept]
          exact ht.cached.next (Nat.succ_pos 7) hindex
        readSeq := by
          show (if answer.seq ≠ 0 then _ else _) = _
          rw [if_pos hne, ht.cached.numbered_next hindex, List.length_append,
            List.length_singleton, ← nextPapSeq_papSeq, ht.readSeq]
        pending := fun read hr => by cases hr
        answered := hanswered }

/-! ## Turns -/

theorem recordAll_append (queued : List Bytes) (rs : List StdoutReply) (out out' : List HostCommand) :
    recordAll queued rs (out ++ out') = recordAll queued (recordAll queued rs out) out' := by
  rw [recordAll, List.filterMap_append, run_append]
  rfl

theorem Told.answerRead_cases (ht : Told s rs) (now : Micros) :
    (s.answerRead now = (s, []) ∧ Waits s) ∨
      ∃ answer eof stdout, Serves s answer eof stdout ∧
        (answer.seq = 0 ∨ answer.seq = s.readSeq) ∧ s.answerRead now =
          (s.answered answer.seq answer.userBytes answer.chunk eof stdout, [.answer answer]) := by
  rcases hpending : s.pendingRead with _ | ⟨req, seq⟩
  · refine .inl ⟨?_, fun h => ?_⟩
    · unfold HostSession.answerRead
      rw [hpending]
    · rw [hpending] at h
      cases h
  have hroom : 0 < req.maxPackets * PAP_MAX_DATA_PER_PACKET :=
    Nat.mul_pos req.maxPackets_pos (by decide)
  have hseq := ht.pending (req, seq) hpending
  unfold HostSession.answerRead
  rw [hpending]
  dsimp only
  cases hready : s.responseReady
  · by_cases hidle : now ≥ s.lastClientWrite + PAP_READ_IDLE_ANSWER
    · -- the client is idle, and nothing is queued
      have hleft : s.stdout.left = [] := by
        by_contra hne
        rw [ht.ready hne] at hready
        cases hready
      have hserves : Serves s ⟨req, seq,
          (HostSession.outputPacket s.connectionId false []).toAtpParts.1, [], .idle⟩ false
            s.stdout :=
        { hands := PrinterStdout.hands_nothing (PrinterStdout.left_eq_nil_iff.1 hleft) _
          packet := rfl
          ends := iff_of_false Bool.false_ne_true fun h => (by cases h.1)
          ready := fun hne => absurd hleft hne }
      refine .inr ⟨_, _, _, hserves, hseq, ?_⟩
      rw [decide_eq_true hidle]
      rfl
    · refine .inl ⟨?_, fun _ => hready⟩
      rw [decide_eq_false hidle]
      rfl
  · -- there is output, or the end of it
    obtain ⟨hhands, hends⟩ := s.stdout.nextChunk_hands hroom ht.left
    generalize s.stdout.nextChunk (req.maxPackets * PAP_MAX_DATA_PER_PACKET) = next at hhands hends
    obtain ⟨⟨chunk, eof⟩, stdout⟩ := next
    have hserves : Serves s ⟨req, seq,
        (HostSession.outputPacket s.connectionId eof chunk).toAtpParts.1, chunk, .output⟩ eof
          stdout :=
      { hands := hhands
        packet := rfl
        ends := hends.trans ⟨fun h => ⟨rfl, h⟩, fun h => h.2⟩
        ready := fun _ => hready }
    exact .inr ⟨_, _, _, hserves, hseq, rfl⟩

theorem Told.answerRead (ht : Told s rs) (now : Micros) :
    Told (s.answerRead now).1 (recordAll s.write.stdout rs (s.answerRead now).2) ∧
      (s.answerRead now).1.write = s.write ∧ Waits (s.answerRead now).1 := by
  rcases ht.answerRead_cases now with ⟨heq, hwaits⟩ | ⟨answer, eof, stdout, hs, hseq, heq⟩
  · rw [heq]
    exact ⟨ht, rfl, hwaits⟩
  · rw [heq]
    exact ⟨ht.answer hs hseq, rfl, fun h => by cases h⟩

/-- A read arrives. -/
theorem Told.sendData (ht : Told s rs) (req : AtpTransaction) (seq : UInt16)
    (queued : List Bytes) :
    Told (s.sendData req seq).1 (recordAll queued rs (s.sendData req seq).2) := by
  unfold HostSession.sendData
  split
  · rcases hc : cachedReply s.readReplyCache seq with _ | c
    · exact ht
    · exact ht.again hc req queued
  · rename_i hnext
    refine { ht with pending := fun read hr => ?_ }
    obtain rfl := Option.some.inj hr
    by_cases hzero : seq = 0
    · exact .inl hzero
    · exact .inr (not_not.1 fun hne => hnext ⟨hzero, hne⟩)

theorem Told.arm (ht : Told s rs) (now : Micros) (input : HostInput) (queued : List Bytes) :
    Told (s.arm now input).1 (recordAll queued rs (s.arm now input).2.1) ∧
      ((s.arm now input).2.2 ≠ .serves → Waits s → Waits (s.arm now input).1) := by
  cases input with
  | idleRead => exact ⟨ht, fun _ hw => hw⟩
  | pulled userBytes data attrs =>
    change Told (s.pulled userBytes data attrs now).1
      (recordAll queued rs (s.pulled userBytes data attrs now).2.1) ∧
        ((s.pulled userBytes data attrs now).2.2 ≠ .serves → _ →
          Waits (s.pulled userBytes data attrs now).1)
    unfold HostSession.pulled
    rcases PapPacket.parseFromAtp userBytes data with e | packet
    · exact ⟨{ ht with }, fun _ hw => hw⟩
    dsimp only
    split
    · exact ⟨{ ht with }, fun _ hw => hw⟩
    · have hpushed : Told { s with
          lastActivity := now, lastClientWrite := now, write := s.write.push packet.data } rs :=
        { ht with }
      exact ⟨{ hpushed.handleJob attrs packet.eof with }, fun h => absurd rfl h⟩
  | pullTimedOut =>
    unfold HostSession.arm
    dsimp only
    split
    · exact ⟨ht, fun _ hw => hw⟩
    · exact ⟨ht, fun _ hw => hw⟩
  | request req =>
    change Told (s.request req now).1 (recordAll queued rs (s.request req now).2.1) ∧
      ((s.request req now).2.2 ≠ .serves → _ → Waits (s.request req now).1)
    unfold HostSession.request
    rcases PapPacket.parseFromAtp req.userBytes req.data with e | pap
    · exact ⟨ht, fun _ hw => hw⟩
    dsimp only
    split
    · exact ⟨ht, fun _ hw => hw⟩
    have hactive : Told { s with lastActivity := now } rs := { ht with }
    split
    · exact ⟨hactive.sendData req pap.sequenceNum queued, fun h => absurd rfl h⟩
    · refine ⟨hactive.write _ ?_, fun _ hw => hw⟩
      unfold LaserSession.close
      split_ifs <;> rfl
    · exact ⟨hactive, fun h => absurd rfl h⟩
  | responderClosed => exact ⟨ht, fun _ hw => hw⟩
  | listener userBytes data =>
    unfold HostSession.arm
    dsimp only
    rcases PapPacket.parseFromAtp userBytes data with e | pap
    · exact ⟨ht, fun _ hw => hw⟩
    · exact ⟨ht, fun _ hw => hw⟩
  | listenerClosed => exact ⟨ht, fun _ hw => hw⟩
  | tickleTick =>
    unfold HostSession.arm
    dsimp only
    split
    · exact ⟨ht, fun _ hw => hw⟩
    · exact ⟨ht, fun _ hw => hw⟩

end

/-- What holds of a session and its replies between two turns. -/
def Sound (h : HostLog) : Prop := Told h.session h.replies ∧ Waits h.session

/-- **One turn** leaves a session and its replies in step. -/
theorem sound_step {h : HostLog} (hs : h.Sound) (input : HostInput × Micros) :
    (h.step input).Sound := by
  obtain ⟨s, rs⟩ := h
  obtain ⟨input, now⟩ := input
  obtain ⟨ht, hw⟩ := hs
  unfold step HostSession.step
  split_ifs with hclosed
  · exact ⟨ht, hw⟩
  dsimp only
  have harm := ht.arm now input
  generalize s.arm now input = next at harm
  obtain ⟨s', out, e⟩ := next
  cases e with
  | serves =>
    obtain ⟨hanswer, hwrite, hwaits⟩ := (harm s'.write.stdout).1.answerRead now
    refine ⟨?_, hwaits⟩
    show Told (s'.answerRead now).1
      (recordAll (s'.answerRead now).1.write.stdout rs (out ++ (s'.answerRead now).2))
    rw [recordAll_append, hwrite]
    exact hanswer
  | continues =>
    obtain ⟨hkept, hwaits⟩ := harm s'.write.stdout
    exact ⟨hkept, hwaits (fun heq => by cases heq) hw⟩
  | returns =>
    obtain ⟨hkept, hwaits⟩ := harm s'.write.stdout
    exact ⟨{ hkept with }, hwaits (fun heq => by cases heq) hw⟩

theorem step_session (h : HostLog) (input : HostInput × Micros) :
    (h.step input).session = (h.session.step input.1 input.2).1 := rfl

/-- What the replies of a session say of the printer's output. -/
structure StdoutRead (h : HostLog) : Prop where
  /-- the replies, each numbered read taken once, are the writes in portions, up to what is left -/
  portions : Portions h.session.write.stdout (bodies (fresh h.replies) ++ h.session.stdout.left)
  inOrder : (bodies (fresh h.replies)).flatten ++ h.session.stdout.left.flatten =
    h.session.write.stdout.flatten
  left : ∀ b ∈ h.session.stdout.left, b ≠ []
  /-- a read waits only when nothing is left -/
  waiting : h.session.pendingRead.isSome → h.session.stdout.left = []
  /-- the numbers come in order -/
  numbered : (fresh h.replies).filterMap (·.index) =
    List.range (numbered StdoutReply.index h.replies).length
  /-- a read that comes again gets the same bytes, as far as it has room -/
  same : ∀ r ∈ fresh h.replies, ∀ r' ∈ h.replies, r.index.isSome → r.index = r'.index →
    r'.answer.userBytes = r.answer.userBytes ∧ r'.body = r.body.take r'.room
  /-- any of the last 8 reads is answered again -/
  again : ∀ j r, (Lib.numbered StdoutReply.index h.replies)[j]? = some r →
    (Lib.numbered StdoutReply.index h.replies).length ≤ j + PAP_REPLY_CACHE_LEN →
    ∀ req, h.session.sendData req (papSeq j) =
      (h.session, [.answer ⟨req, papSeq j, r.answer.userBytes, r.body, .again⟩])
  answered : ∀ sofar r, sofar ++ [r] <+: fresh h.replies → Answered sofar r

section
variable {s : HostSession} {rs : List StdoutReply} {r r' : StdoutReply}

theorem Told.whole (ht : Told s rs) (hr : r ∈ fresh rs) : r.body = r.answer.chunk := by
  obtain ⟨sofar, rest, heq⟩ := List.append_of_mem hr
  refine (ht.answered sofar r ⟨rest, ?_⟩).whole
  rw [heq, List.append_assoc]
  rfl

theorem Told.same (ht : Told s rs) (hr : r ∈ fresh rs) (hr' : r' ∈ rs) (hsome : r.index.isSome)
    (hindex : r.index = r'.index) :
    r'.answer.userBytes = r.answer.userBytes ∧ r'.body = r.body.take r'.room := by
  obtain ⟨i, hi⟩ := List.mem_iff_getElem?.1 (List.mem_filter (p := fun r => r.index.isSome).2
    ⟨hr, hsome⟩)
  have hj := ht.cached.indices i r hi
  obtain ⟨a, ha, hkept⟩ := ht.cached.same r' hr' i (hindex ▸ hj)
  obtain rfl : a = r := Option.some.inj (ha.symm.trans hi)
  obtain ⟨huser, hchunk⟩ := Prod.mk.inj hkept
  exact ⟨huser.symm, by rw [ht.whole hr, hchunk, r'.body_eq]⟩

theorem Told.sendData_again (ht : Told s rs) {j : ℕ}
    (hr : (numbered StdoutReply.index rs)[j]? = some r)
    (hj : (numbered StdoutReply.index rs).length ≤ j + PAP_REPLY_CACHE_LEN)
    (req : AtpTransaction) : s.sendData req (papSeq j) =
      (s, [.answer ⟨req, papSeq j, r.answer.userBytes, r.body, .again⟩]) := by
  have hlen : PAP_REPLY_CACHE_LEN = 8 := rfl
  have hlt := (List.getElem?_eq_some_iff.1 hr).1
  have hne : papSeq j ≠ s.readSeq := by
    rw [ht.readSeq]
    intro heq
    have := papSeq_inj heq (by omega) (by omega)
    omega
  have hkept : cachedReply s.readReplyCache (papSeq j) =
      some (papSeq j, r.answer.userBytes, r.answer.chunk) := by
    refine ht.cached.find?_eq (fun i k hik hi hk => ?_) hr hj
    exact papSeq_inj hik (by omega) (by omega)
  rw [HostSession.sendData, if_pos ⟨papSeq_ne_zero j, hne⟩, hkept,
    ht.whole (List.mem_filter.1 (List.mem_of_getElem? hr)).1]

end

theorem Sound.stdoutRead {h : HostLog} (hs : h.Sound) : StdoutRead h where
  portions := hs.1.portions
  inOrder := by rw [← List.flatten_append, hs.1.portions.flatten]
  left := hs.1.left
  waiting := fun hsome => by
    by_contra hne
    have hready := hs.1.ready hne
    rw [hs.2 hsome] at hready
    cases hready
  numbered := hs.1.cached.filterMap_firsts
  same := fun _ hr _ hr' => hs.1.same hr hr'
  again := fun _ _ => hs.1.sendData_again
  answered := hs.1.answered

/-- **What is read is what was written.** The replies to a session's reads, each numbered read taken
    once, are the writes queued on the printer's stdout, in order and without loss, no portion with
    bytes of two writes; a read that comes again gets the same bytes; and eof is on exactly the
    replies with output, or the end of it, that leave nothing queued. -/
theorem stdout_read (connectionId : UInt8) (clientDataAddr : ServiceAddress) (now : Micros)
    (inputs : List (HostInput × Micros)) :
    (run step (start connectionId clientDataAddr now) inputs).session =
      run (fun s (input : HostInput × Micros) => (s.step input.1 input.2).1)
        (.start connectionId clientDataAddr now) inputs ∧
    StdoutRead (run step (start connectionId clientDataAddr now) inputs) := by
  constructor
  · exact (List.foldl_hom HostLog.session fun h input => (step_session h input).symm).symm
  · have hstart : (start connectionId clientDataAddr now).Sound :=
      ⟨told_start connectionId clientDataAddr now, fun h => by cases h⟩
    have hstep : ∀ (h : HostLog) input, h.Sound → True → (h.step input).Sound :=
      fun _ input hs _ => sound_step hs input
    exact (inv_run step hstep hstart (along_true step inputs)).stdoutRead

/-- A read of a client at socket 70 of node 10. -/
def clientRead (connectionId : UInt8) (seq : UInt16) : AtpTransaction where
  source := ⟨0, 10, 70⟩
  userBytes := #v[connectionId, 3, UInt8.ofNat (seq.toNat / 256), UInt8.ofNat seq.toNat]
  data := []
  bitmap := 0xFF
  transactionId := 1

/-- A read that waits until the client is idle is answered without eof, though nothing is
    queued. -/
theorem stdout_read_idle : ¬ ∀ (connectionId : UInt8) (clientDataAddr : ServiceAddress)
    (now : Micros) (inputs : List (HostInput × Micros)) (sofar : List StdoutReply)
    (r : StdoutReply),
    sofar ++ [r] <+: fresh (run step (start connectionId clientDataAddr now) inputs).replies →
    (r.eof = true ↔ Portions r.queued (bodies (sofar ++ [r]))) := by
  intro h
  obtain ⟨r, hr⟩ : ∃ r : StdoutReply,
      r = ⟨some 0, ⟨clientRead 1 1, 1, #v[1, 4, 0, 0], [], .idle⟩, []⟩ := ⟨_, rfl⟩
  have hfresh : fresh (run step (start 1 ⟨0, 10, 70⟩ 0)
      [(.request (clientRead 1 1), 0), (.idleRead, 2000000)]).replies = [r] := by
    subst hr
    decide +kernel
  have hempty : r.eof = false ∧ r.queued = [] ∧ bodies [r] = [] := by
    subst hr
    decide +kernel
  obtain ⟨heof, hqueued, hbodies⟩ := hempty
  have hends := h 1 ⟨0, 10, 70⟩ 0 _ [] r (by rw [hfresh]; exact List.prefix_refl _)
  rw [heof, hqueued, List.nil_append, hbodies] at hends
  cases hends.2 .nil

end HostLog

end TailTalk
