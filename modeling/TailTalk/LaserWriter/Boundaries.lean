/-
  How the driver's stream is cut into packets.

  A block whose last line is not finished is answered all the same, a job is
  only told from an answered query when one more packet arrives, and a `%%EOF`
  is only noticed together with its block.  Where no packet comes to any of
  this (`Clean`), the cuts do not matter.
-/
import TailTalk.Adsp.Connection
import TailTalk.LaserWriter.Jobs

namespace TailTalk

open Lib

/-! ## Clean packets -/

/-- Of what stands behind an answer, nothing would be answered in its turn. -/
def Behind (r : Bytes) : Prop :=
  ∀ m ∈ pqpMagicOffset r, PlainText (r.take m) ∧
    (pqpIsQuery (r.drop m) = true → pqpAnswerablePrefix (r.drop m) = none)

instance (r : Bytes) : Decidable (Behind r) := by
  unfold Behind
  infer_instance

/-- The `m` bytes behind the answered part neither open nor close a block, with no `%%EOF` among
    them. -/
structure Idle (h : Bytes) (answered m : ℕ) : Prop where
  plain : PlainText ((h.drop answered).take m)
  going : pqpAnswerablePrefix (h.take (answered + m)) = some answered

instance (h : Bytes) (answered m : ℕ) : Decidable (Idle h answered m) :=
  decidable_of_iff (PlainText ((h.drop answered).take m) ∧
    pqpAnswerablePrefix (h.take (answered + m)) = some answered)
    ⟨fun ⟨h1, h2⟩ => ⟨h1, h2⟩, fun ⟨h1, h2⟩ => ⟨h1, h2⟩⟩

namespace JobBuffer

/-- How far the job is answered once the packet is handled. -/
def answeredNext (job : JobBuffer) : ℕ :=
  job.answered + (pqpAnswerablePrefix job.unanswered).getD 0

/-- A query whose buffer, with a packet just pushed, holds nothing of another
    job that counts. -/
structure Handled (job : JobBuffer) (eof : Bool) : Prop where
  /-- no job starts in what is answered, or ends, behind a block -/
  single : ∀ c ≤ job.data.length, Stop (job.data.take c) →
    ∀ m < (if eof then job.data.length else job.answeredNext), c ≤ m → ¬ Magic (job.data.drop m)
  /-- nothing follows the `%%EOF` of an answered block -/
  ended : ∀ c ≤ job.data.length, Stop (job.data.take c) →
    jobEndsAtEof (job.data.take c) = true → c = job.data.length
  /-- what is answered ends with its line -/
  lines : eof = false → ∀ stop ∈ pqpAnswerablePrefix job.unanswered,
    Whole isEol (job.unanswered.take stop)
  /-- no `%%EOF` comes later than the block it closes -/
  noticed : eof = false →
    pqpAnswerablePrefix job.data =
      if job.answeredNext = 0 then none else some job.answeredNext
  behind : eof = false → Behind (job.data.drop job.answeredNext)

instance (job : JobBuffer) (eof : Bool) : Decidable (job.Handled eof) :=
  decidable_of_iff
    ((∀ c ≤ job.data.length, Stop (job.data.take c) →
        ∀ m < (if eof then job.data.length else job.answeredNext), c ≤ m →
          ¬ Magic (job.data.drop m)) ∧
      (∀ c ≤ job.data.length, Stop (job.data.take c) →
        jobEndsAtEof (job.data.take c) = true → c = job.data.length) ∧
      (eof = false → ∀ stop ∈ pqpAnswerablePrefix job.unanswered,
        Whole isEol (job.unanswered.take stop)) ∧
      (eof = false → pqpAnswerablePrefix job.data =
        if job.answeredNext = 0 then none else some job.answeredNext) ∧
      (eof = false → Behind (job.data.drop job.answeredNext)))
    ⟨fun ⟨h1, h2, h3, h4, h5⟩ => ⟨h1, h2, h3, h4, h5⟩,
      fun ⟨h1, h2, h3, h4, h5⟩ => ⟨h1, h2, h3, h4, h5⟩⟩

end JobBuffer

namespace LaserSession

/-- A packet that leaves nothing unnoticed and takes nothing for finished that
    is not. -/
structure Clean (s : LaserSession) (packet : DataPacket) : Prop where
  /-- what is dropped without an answer opens, closes and ends nothing -/
  dropped : s.job.answered ≠ 0 → ∀ m ∈ pqpMagicOffset (s.job.unanswered ++ packet.data),
    Idle (s.job.data ++ packet.data) s.job.answered m
  /-- an answered query is not given up for an empty packet -/
  kept : s.job.answered ≠ 0 → s.job.unanswered ++ packet.data = [] → packet.eof = true
  handled : pqpIsQuery (s.job.push packet.data).data = true →
    (s.job.push packet.data).Handled packet.eof

instance (s : LaserSession) (packet : DataPacket) : Decidable (Clean s packet) :=
  decidable_of_iff
    ((s.job.answered ≠ 0 → ∀ m ∈ pqpMagicOffset (s.job.unanswered ++ packet.data),
        Idle (s.job.data ++ packet.data) s.job.answered m) ∧
      (s.job.answered ≠ 0 → s.job.unanswered ++ packet.data = [] → packet.eof = true) ∧
      (pqpIsQuery (s.job.push packet.data).data = true →
        (s.job.push packet.data).Handled packet.eof))
    ⟨fun ⟨h1, h2, h3⟩ => ⟨h1, h2, h3⟩, fun ⟨h1, h2, h3⟩ => ⟨h1, h2, h3⟩⟩

/-- The session may close: no job waits unnoticed behind an answered query. -/
def CleanClose (s : LaserSession) : Prop :=
  s.job.answered ≠ 0 → pqpMagicOffset s.job.unanswered = none

instance (s : LaserSession) : Decidable s.CleanClose := inferInstanceAs (Decidable (_ → _))

end LaserSession

/-! ## A job and how far it is answered -/

/-- A job that is answered up to `a`, and not over before or there. -/
structure Replied (h : Bytes) (a : ℕ) : Prop where
  le : a ≤ h.length
  query : a ≠ 0 → pqpIsQuery h = true
  stop : a ≠ 0 → Stop (h.take a)
  first : ∀ n < a, ¬ Boundary h n
  going : a ≠ 0 → jobEndsAtEof (h.take a) = false

/-- The same after a packet: nothing more of it can be answered yet. -/
structure Settled (h : Bytes) (a : ℕ) : Prop extends Replied h a where
  last : pqpIsQuery h = true → pqpAnswerablePrefix h = if a = 0 then none else some a
  behind : a ≠ 0 → Behind (h.drop a)

section
variable {attrs : PrinterAttributes} {h : Bytes} {a : ℕ}

theorem answered_zero (h : Bytes) : Replied h 0 :=
  ⟨Nat.zero_le _, fun hne => absurd rfl hne, fun hne => absurd rfl hne, nofun,
    fun hne => absurd rfl hne⟩

theorem settled_nil : Settled [] 0 :=
  { answered_zero [] with last := nofun, behind := fun hne => absurd rfl hne }

theorem Replied.nil_or_stop (ha : Replied h a) : h.take a = [] ∨ Stop (h.take a) := by
  by_cases hzero : a = 0
  · exact .inl (by rw [hzero, List.take_zero])
  · exact .inr (ha.stop hzero)

theorem Replied.writes_append (ha : Replied h a) (y : Bytes) :
    pqpWrites attrs (h.take a ++ y) = pqpWrites attrs (h.take a) ++ pqpWrites attrs y :=
  pqpWrites_append ha.nil_or_stop y

theorem Replied.writes_drop (ha : Replied h a) :
    pqpWrites attrs (h.take a) ++ pqpWrites attrs (h.drop a) = pqpWrites attrs h := by
  rw [← ha.writes_append, List.take_append_drop]

theorem pqpWrites_nil : pqpWrites attrs [] = [] := rfl

theorem Replied.append (ha : Replied h a) (hne : a ≠ 0) (p : Bytes) : Replied (h ++ p) a where
  le := by
    rw [List.length_append]
    exact Nat.le_trans ha.le (Nat.le_add_right _ _)
  query _ := by
    rw [isQuery_append_of_stop (ha.stop hne)]
    exact ha.query hne
  stop _ := by
    rw [take_append_of_le ha.le]
    exact ha.stop hne
  first n hn hb := ha.first n hn (hb.of_append hn ha.le fun hlen => by
    have hwhole := (ha.stop hne).1
    rwa [hlen, List.take_length] at hwhole)
  going _ := by
    rw [take_append_of_le ha.le]
    exact ha.going hne

/-! ## Pushing a packet -/

theorem drop_resync_zero (t : Bytes) : t.drop (pqpResync t 0) = header t := by
  rw [pqpResync, Nat.zero_min, List.drop_zero]
  split
  · rename_i hmagic
    rw [header_of_magic hmagic.2, List.drop_zero]
  · unfold header
    cases pqpMagicOffset t with
    | none => simp
    | some m => simp

theorem push_unanswered (t p : Bytes) :
    (JobBuffer.mk (header t) 0).push p = ⟨header (t ++ p), 0⟩ := by
  rw [JobBuffer.push, drop_resync_zero, header_header_append, Nat.zero_sub]

theorem resync_answered {t : Bytes} {a : ℕ} (hle : a ≤ t.length) (hne : a ≠ 0) : pqpResync t a =
    match pqpMagicOffset (t.drop a) with
    | some magic => a + magic
    | none => if a = t.length then a else 0 := by
  rw [pqpResync, Nat.min_eq_left hle]
  exact if_neg fun h => hne h.1

theorem unanswered_eq {job : JobBuffer} (hle : job.answered ≤ job.data.length) :
    job.unanswered = job.data.drop job.answered := by
  rw [JobBuffer.unanswered, Nat.min_eq_left hle]

variable (attrs) in
theorem push_answered {b : Bytes} (ha : Replied (header b) a) (hne : a ≠ 0) (p : Bytes)
    (hdropped : ∀ m ∈ pqpMagicOffset ((header b).drop a ++ p), Idle (header b ++ p) a m) :
    ((header b).drop a ++ p = [] ∧ (JobBuffer.mk (header b) a).push p = .empty) ∨
    ((JobBuffer.mk (header b) a).push p = ⟨header (b ++ p), a⟩ ∧ Replied (header (b ++ p)) a ∧
      (header (b ++ p)).take a = (header b).take a) ∨
    ∃ r, Next attrs (b ++ p) (pqpWrites attrs ((header b).take a)) r ∧
      (JobBuffer.mk (header b) a).push p = ⟨header r, 0⟩ := by
  obtain ⟨k, hk⟩ := magic_of_magic_header (magic_of_isQuery (ha.query hne))
  have hheader := header_append_of_some hk p
  rw [hheader]
  have hmore := ha.append hne p
  have hdrop : (header b ++ p).drop a = (header b).drop a ++ p :=
    List.drop_append_of_le_length ha.le
  have htake : (header b ++ p).take a = (header b).take a := take_append_of_le ha.le
  rw [← hdrop] at hdropped ⊢
  rw [← htake]
  rw [JobBuffer.push, resync_answered hmore.le hne]
  generalize header b ++ p = h at *
  rcases hm : pqpMagicOffset (h.drop a) with _ | m
  · dsimp only
    split
    · rename_i hlen
      have hnil : h.drop a = [] := by rw [hlen, List.drop_length]
      refine .inl ⟨hnil, ?_⟩
      rw [hnil, Nat.sub_self]
      rfl
    · exact .inr (.inl ⟨rfl, hmore, rfl⟩)
  · -- the next job starts
    obtain ⟨hle, hmagic, hfirst⟩ := magicOffset_eq_some hm
    have hidle := hdropped m hm
    rw [List.drop_drop] at hmagic
    rw [List.length_drop] at hle
    have hlen := hmore.le
    have hplace : Boundary h (a + m) :=
      ⟨by omega, ⟨a, Nat.le_add_right a m, hmore.stop hne⟩, .inl hmagic⟩
    have hwrites : pqpWrites attrs (h.take (a + m)) = pqpWrites attrs (h.take a) := by
      rw [List.take_add, pqpWrites_plain hmore.nil_or_stop hidle.plain]
    refine .inr (.inr ⟨h.drop (a + m), ?_, ?_⟩)
    · rw [← hwrites]
      refine next_of_boundary hheader (hmore.query hne) hplace fun n hn hb => ?_
      by_cases hna : n < a
      · exact hmore.first n hna hb
      rcases hb.ends with hm' | ⟨hstop, hover⟩
      · refine hfirst (n - a) (by omega) ?_
        rwa [List.drop_drop, Nat.add_sub_cancel' (Nat.le_of_not_lt hna)]
      · have htaken : (h.take (a + m)).take n = h.take n := by
          rw [List.take_take, Nat.min_eq_left (Nat.le_of_lt hn)]
        rw [← htaken] at hstop
        obtain ⟨d, hd, hnd⟩ := hstop.le_answerable (by
          rw [List.length_take]
          exact Nat.le_min.2 ⟨Nat.le_of_lt hn, hb.le⟩)
        rw [hidle.going] at hd
        obtain rfl := Option.some.inj hd
        obtain rfl := Nat.le_antisymm hnd (Nat.le_of_not_lt hna)
        rw [hmore.going hne] at hover
        cases hover
    · dsimp only
      rw [header_of_magic hmagic, Nat.sub_eq_zero_of_le (Nat.le_add_right a m)]

/-! ## What a session knows of its text -/

/-- The finished queries are taken off; the rest is in the buffer, and `P` says how far it is
    answered. -/
def Tracks (attrs : PrinterAttributes) (P : Bytes → ℕ → Prop) (text : Bytes)
    (before : List Bytes) (s : LaserSession) : Prop :=
  ∃ ws b, TakesApart (Next attrs) text ws b ∧ s.job.data = header b ∧
    P (header b) s.job.answered ∧
    s.stdout = before ++ ws ++ pqpWrites attrs ((header b).take s.job.answered)

/-- What a text comes to when it ends: a job or none, and the answers. -/
def Ends (attrs : PrinterAttributes) (text : Bytes) (jobs writes : List Bytes) : Prop :=
  ∃ ws b, TakesApart (Next attrs) text ws b ∧ Stuck (Next attrs) b ∧
    jobs = (if pqpIsQuery (header b) = true ∨ header b = [] then [] else [header b]) ∧
    writes = ws ++ if pqpIsQuery (header b) = true then pqpWrites attrs (header b) else []

theorem ends_unique {text : Bytes} {jobs jobs' writes writes' : List Bytes}
    (h : Ends attrs text jobs writes) (h' : Ends attrs text jobs' writes') :
    jobs = jobs' ∧ writes = writes' := by
  obtain ⟨ws, b, hapart, hstuck, rfl, rfl⟩ := h
  obtain ⟨ws', b', hapart', hstuck', rfl, rfl⟩ := h'
  obtain ⟨rfl, rfl⟩ := hapart.unique hapart' (fun _ _ _ _ _ => next_unique) hstuck hstuck'
  exact ⟨rfl, rfl⟩

section
variable {text : Bytes} {before : List Bytes} {s : LaserSession} {packet : DataPacket}

/-- A job that is answered to its end is over with nothing more to say. -/
theorem Replied.stuck (ha : Replied h a) (hne : a ≠ 0) (hall : h.drop a = []) (n : ℕ) :
    ¬ Boundary h n := by
  have hlen : h.length ≤ a := List.drop_eq_nil_iff.1 hall
  intro hb
  by_cases hn : n < a
  · exact ha.first n hn hb
  · obtain rfl : n = a := Nat.le_antisymm (Nat.le_trans hb.le hlen) (Nat.le_of_not_lt hn)
    rcases hb.ends with hmagic | ⟨-, hover⟩
    · rw [hall] at hmagic
      exact hmagic.ne_nil rfl
    · rw [ha.going hne] at hover
      cases hover

theorem tracks_push (ht : Tracks attrs Settled text before s) (hclean : s.Clean packet) :
    Tracks attrs Replied (text ++ packet.data) before (s.push packet.data) ∨
    packet.eof = true ∧ (s.push packet.data).job = .empty ∧
      ∃ ws, s.stdout = before ++ ws ∧ Ends attrs (text ++ packet.data) [] ws := by
  obtain ⟨ws, b, hapart, hdata, hsettled, hout⟩ := ht
  have hmore := hapart.append (fun _ _ _ => next_append) packet.data
  obtain ⟨⟨data, a⟩, jobs, stdout⟩ := s
  dsimp only at hdata hsettled hout
  subst hdata
  by_cases hzero : a = 0
  · subst hzero
    refine .inl ⟨ws, b ++ packet.data, hmore, ?_, ?_, ?_⟩
    · rw [LaserSession.push, push_unanswered]
    · rw [LaserSession.push, push_unanswered]
      exact answered_zero _
    · rw [LaserSession.push, push_unanswered]
      exact hout
  · have hunanswered : (JobBuffer.mk (header b) a).unanswered = (header b).drop a :=
      unanswered_eq hsettled.le
    have hdropped := hclean.dropped hzero
    have hkept := hclean.kept hzero
    rw [hunanswered] at hdropped hkept
    rcases push_answered attrs hsettled.toReplied hzero packet.data hdropped with
      ⟨hnil, hpush⟩ | ⟨hpush, hanswered, htake⟩ | ⟨r, hnext, hpush⟩
    · refine .inr ⟨hkept hnil, hpush, ws ++ pqpWrites attrs ((header b).take a), ?_, ?_⟩
      · exact hout.trans (List.append_assoc _ _ _)
      · obtain ⟨hall, hempty⟩ := List.append_eq_nil_iff.1 hnil
        have hquery := hsettled.query hzero
        have htake : (header b).take a = header b :=
          List.take_of_length_le (List.drop_eq_nil_iff.1 hall)
        rw [hempty, List.append_nil]
        refine ⟨ws, b, hapart, stuck_of_no_boundary (hsettled.stuck hzero hall), ?_, ?_⟩
        · rw [if_pos (.inl hquery)]
        · rw [if_pos hquery, htake]
    · refine .inl ⟨ws, b ++ packet.data, hmore, ?_, ?_, ?_⟩
      · rw [LaserSession.push, hpush]
      · rw [LaserSession.push, hpush]
        exact hanswered
      · rw [LaserSession.push, hpush, htake]
        exact hout
    · refine .inl ⟨ws ++ pqpWrites attrs ((header b).take a), r, hmore.snoc hnext, ?_, ?_, ?_⟩
      · rw [LaserSession.push, hpush]
      · rw [LaserSession.push, hpush]
        exact answered_zero _
      · rw [LaserSession.push, hpush]
        dsimp only
        rw [List.take_zero, pqpWrites_nil, List.append_nil, ← List.append_assoc]
        exact hout

theorem tracks_handle (ht : Tracks attrs Replied text before s)
    (hhandled : pqpIsQuery s.job.data = true → s.job.Handled false) :
    Tracks attrs Settled text before (s.handleJob attrs false) ∧
      (s.handleJob attrs false).jobs = s.jobs := by
  obtain ⟨ws, b, hapart, hdata, ha, hout⟩ := ht
  obtain ⟨⟨data, a⟩, jobs, stdout⟩ := s
  dsimp only at hdata ha hout hhandled
  subst hdata
  have hfalse : ¬ (false = true ∧ (header b).isEmpty = true) := fun h => nomatch h.1
  rw [LaserSession.handleJob, if_neg hfalse, if_neg Bool.false_ne_true]
  dsimp only
  split
  swap
  · rename_i hquery
    refine ⟨⟨ws, b, hapart, rfl, { ha with last := fun hq => absurd hq hquery, behind := ?_ }, hout⟩,
      rfl⟩
    exact fun hne => absurd (ha.query hne) hquery
  rename_i hquery
  have hh := hhandled hquery
  have hnoticed := hh.noticed rfl
  have hbehind := hh.behind rfl
  have hlines := hh.lines rfl
  have hsingle := hh.single
  have hended : ∀ c ≤ (header b).length, Stop ((header b).take c) →
    jobEndsAtEof ((header b).take c) = true → c = (header b).length := hh.ended
  have hunanswered : (JobBuffer.mk (header b) a).unanswered = (header b).drop a :=
    unanswered_eq ha.le
  simp only [JobBuffer.answeredNext, hunanswered] at hnoticed hbehind hlines hsingle
  rw [hunanswered]
  rcases hstop : pqpAnswerablePrefix ((header b).drop a) with _ | e
  · rw [hstop, Option.getD_none, Nat.add_zero] at hnoticed hbehind
    exact ⟨⟨ws, b, hapart, rfl, { ha with last := fun _ => hnoticed, behind := fun _ => hbehind },
      hout⟩, rfl⟩
  · obtain ⟨hpos, hle, hblock⟩ := answerablePrefix_spec hstop
    rw [hstop, Option.getD_some] at hnoticed hbehind hsingle
    rw [if_neg (by omega)] at hnoticed
    rw [List.length_drop] at hle
    have hsum : (header b).take (a + e) = (header b).take a ++ ((header b).drop a).take e :=
      List.take_add
    have hwhole : Whole isEol ((header b).take (a + e)) := by
      have hline := hlines e hstop
      intro c hc
      rw [hsum, List.getLast?_append] at hc
      rcases hlast : (((header b).drop a).take e).getLast? with _ | c'
      · rw [List.getLast?_eq_none_iff] at hlast
        rw [hlast] at hblock
        cases hblock
      · rw [hlast] at hc
        obtain rfl := Option.some.inj hc
        exact hline c' hlast
    have hplace := stop_of_answerable hnoticed hwhole
    have hfirst : ∀ n < a + e, ¬ Boundary (header b) n := by
      intro n hn hb
      obtain ⟨c, hc, hstop'⟩ := hb.answered
      rcases hb.ends with hmagic | ⟨hstop', hover⟩
      · exact hsingle c (Nat.le_trans hc hb.le) hstop' n hn hc hmagic
      · have := hended n hb.le hstop' hover
        omega
    have hover : jobEndsAtEof ((header b).take (a + e)) =
        jobEndsAtEof (((header b).drop a).take e) := by
      rw [hsum]
      refine jobEndsAtEof_append ?_ _
      rw [hblock, List.length_take, List.length_drop, Nat.min_eq_left hle]
    have hwrites : pqpWrites attrs ((header b).take (a + e)) =
        pqpWrites attrs ((header b).take a) ++ pqpWrites attrs (((header b).drop a).take e) := by
      rw [hsum, ha.writes_append]
    dsimp only [LaserSession.answer]
    rw [hunanswered]
    split
    · -- the query is over with its block
      rename_i hends
      rw [← hover] at hends
      have hlen : a + e = (header b).length := hended (a + e) (by omega) hplace hends
      have hnext : Next attrs b (pqpWrites attrs ((header b).take (a + e)))
          ((header b).drop (a + e)) := next_of_boundary rfl hquery
        ⟨Nat.le_of_eq hlen, ⟨a + e, Nat.le_refl _, hplace⟩, .inr ⟨hplace, hends⟩⟩ hfirst
      have hnil : (header b).drop (a + e) = [] := by rw [hlen, List.drop_length]
      rw [hnil] at hnext
      refine ⟨⟨_, [], hapart.snoc hnext, rfl, settled_nil, ?_⟩, rfl⟩
      dsimp only [JobBuffer.empty]
      rw [hout, hwrites, List.take_zero, pqpWrites_nil, List.append_nil]
      simp only [List.append_assoc]
    · rename_i hgoing
      rw [← hover, Bool.not_eq_true] at hgoing
      have hnew : Replied (header b) (a + e) :=
        ⟨by omega, fun _ => hquery, fun _ => hplace, hfirst, fun _ => hgoing⟩
      have hsettled : Settled (header b) (a + e) :=
        { hnew with
          last := fun _ => by
            rw [if_neg (by omega)]
            exact hnoticed
          behind := fun _ => hbehind }
      refine ⟨⟨ws, b, hapart, rfl, hsettled, ?_⟩, rfl⟩
      dsimp only [JobBuffer.markAnswered]
      rw [hout, hwrites]
      simp only [List.append_assoc]

theorem ends_handle (ht : Tracks attrs Replied text before s)
    (hhandled : pqpIsQuery s.job.data = true → s.job.Handled true) :
    ∃ jobs writes, Ends attrs text jobs writes ∧
      s.handleJob attrs true = ⟨.empty, s.jobs ++ jobs, before ++ writes⟩ := by
  obtain ⟨ws, b, hapart, hdata, ha, hout⟩ := ht
  obtain ⟨⟨data, a⟩, jobs, stdout⟩ := s
  dsimp only at hdata ha hout hhandled
  subst hdata
  have hunanswered : (JobBuffer.mk (header b) a).unanswered = (header b).drop a :=
    unanswered_eq ha.le
  by_cases hempty : header b = []
  · have hquery : pqpIsQuery (header b) = false := by
      rw [hempty]
      rfl
    have hzero : a = 0 := by
      have hle := ha.le
      rw [hempty] at hle
      exact Nat.le_zero.1 hle
    refine ⟨_, _, ⟨ws, b, hapart, stuck_of_not_query hquery, rfl, rfl⟩, ?_⟩
    rw [LaserSession.handleJob, if_pos ⟨rfl, List.isEmpty_iff.2 hempty⟩, if_pos (.inr hempty), hquery,
      if_neg Bool.false_ne_true, List.append_nil, List.append_nil, hout, hzero, hempty,
      List.take_zero, pqpWrites_nil, List.append_nil]
    rfl
  have hnot : ¬ (true = true ∧ (header b).isEmpty = true) :=
    fun hc => hempty (List.isEmpty_iff.1 hc.2)
  rw [LaserSession.handleJob, if_neg hnot, if_pos rfl, LaserSession.finishJob]
  dsimp only
  split
  · rename_i hquery
    have hh := hhandled hquery
    rw [hunanswered, hout, List.append_assoc, List.append_assoc, ha.writes_drop]
    by_cases hplace : ∃ n, Boundary (header b) n
    · -- its `%%EOF` is the end of the text
      obtain ⟨n, hn⟩ := hplace
      have hend : ∀ n, Boundary (header b) n → n = (header b).length := by
        intro n hn
        obtain ⟨c, hc, hstop⟩ := hn.answered
        rcases hn.ends with hmagic | ⟨hstop', hover⟩
        · by_contra hne
          exact hh.single c (Nat.le_trans hc hn.le) hstop n (Nat.lt_of_le_of_ne hn.le hne) hc hmagic
        · exact hh.ended n hn.le hstop' hover
      obtain rfl := hend n hn
      have hnext : Next attrs b _ _ := next_of_boundary rfl hquery hn fun m hm hb =>
        Nat.lt_irrefl m (Nat.lt_of_lt_of_eq hm (hend m hb).symm)
      rw [List.take_length, List.drop_length] at hnext
      refine ⟨[], ws ++ pqpWrites attrs (header b), ⟨_, [], hapart.snoc hnext, ?_, rfl, ?_⟩, ?_⟩
      · exact stuck_of_not_query rfl
      · exact (List.append_nil _).symm
      · rw [List.append_nil]
    · refine ⟨_, _, ⟨ws, b, hapart, ?_, rfl, rfl⟩, ?_⟩
      · exact stuck_of_no_boundary fun n hn => hplace ⟨n, hn⟩
      · rw [if_pos (.inl hquery), if_pos hquery, List.append_nil]
  · rename_i hquery
    have hzero : a = 0 := by
      by_contra hne
      exact hquery (ha.query hne)
    refine ⟨_, _, ⟨ws, b, hapart, stuck_of_not_query (Bool.eq_false_iff.2 hquery), rfl, rfl⟩, ?_⟩
    rw [if_neg (not_or.2 ⟨hquery, hempty⟩), if_neg hquery, hout, hzero, List.take_zero,
      pqpWrites_nil, List.append_nil, List.append_nil]

/-! ## The stream -/

/-- The stream of the driver's packets. -/
def written (packets : List DataPacket) : List StreamItem :=
  packets.flatMap fun p => record p.data p.eof

/-- What a stream comes to behind some text: jobs and answers up to the last
    eof, and the text after it. -/
def Delivers (attrs : PrinterAttributes) :
    Bytes → List StreamItem → List Bytes → List Bytes → Bytes → Prop
  | text, [], jobs, writes, text' => jobs = [] ∧ writes = [] ∧ text' = text
  | text, .byte b :: items, jobs, writes, text' =>
    Delivers attrs (text ++ [b]) items jobs writes text'
  | text, .eom :: items, jobs, writes, text' =>
    ∃ jobs₁ writes₁ jobs₂ writes₂, Ends attrs text jobs₁ writes₁ ∧
      Delivers attrs [] items jobs₂ writes₂ text' ∧ jobs = jobs₁ ++ jobs₂ ∧
      writes = writes₁ ++ writes₂

theorem delivers_unique {items : List StreamItem} {text text' text'' : Bytes}
    {jobs jobs' writes writes' : List Bytes} (h : Delivers attrs text items jobs writes text')
    (h' : Delivers attrs text items jobs' writes' text'') :
    jobs = jobs' ∧ writes = writes' ∧ text' = text'' := by
  induction items generalizing text jobs jobs' writes writes' with
  | nil =>
    obtain ⟨rfl, rfl, rfl⟩ := h
    obtain ⟨rfl, rfl, rfl⟩ := h'
    exact ⟨rfl, rfl, rfl⟩
  | cons item items ih =>
    cases item with
    | byte b => exact ih h h'
    | eom =>
      obtain ⟨jobs₁, writes₁, jobs₂, writes₂, hends, hrest, rfl, rfl⟩ := h
      obtain ⟨jobs₃, writes₃, jobs₄, writes₄, hends', hrest', rfl, rfl⟩ := h'
      obtain ⟨rfl, rfl⟩ := ends_unique hends hends'
      obtain ⟨rfl, rfl, rfl⟩ := ih hrest hrest'
      exact ⟨rfl, rfl, rfl⟩

theorem delivers_bytes {items : List StreamItem} {text text' : Bytes} {jobs writes : List Bytes}
    (data : Bytes) : Delivers attrs text (data.map .byte ++ items) jobs writes text' ↔
      Delivers attrs (text ++ data) items jobs writes text' := by
  induction data generalizing text with
  | nil => rw [List.append_nil, List.map_nil, List.nil_append]
  | cons b data ih =>
    rw [List.map_cons, List.cons_append, Delivers, ih, List.append_assoc, List.singleton_append]

theorem tracks_receive (ht : Tracks attrs Settled text before s) (hclean : s.Clean packet) :
    if packet.eof = true then ∃ jobs writes, Ends attrs (text ++ packet.data) jobs writes ∧
      Tracks attrs Settled [] (before ++ writes) (s.receive attrs packet) ∧
      (s.receive attrs packet).jobs = s.jobs ++ jobs
    else Tracks attrs Settled (text ++ packet.data) before (s.receive attrs packet) ∧
      (s.receive attrs packet).jobs = s.jobs := by
  have hfresh : ∀ jobs writes, Tracks attrs Settled [] writes ⟨.empty, jobs, writes⟩ := by
    intro jobs writes
    refine ⟨[], [], .refl [], rfl, settled_nil, ?_⟩
    dsimp only [JobBuffer.empty]
    rw [List.take_zero, pqpWrites_nil, List.append_nil, List.append_nil]
  rcases tracks_push ht hclean with hpushed | ⟨heof, hempty, ws, hout, hends⟩
  · rcases heof : packet.eof with _ | _
    · rw [if_neg Bool.false_ne_true, LaserSession.receive, heof]
      exact tracks_handle hpushed fun hq => heof ▸ hclean.handled hq
    · rw [if_pos rfl, LaserSession.receive, heof]
      obtain ⟨jobs, writes, hends, hdone⟩ := ends_handle hpushed fun hq => heof ▸ hclean.handled hq
      refine ⟨jobs, writes, hends, ?_, ?_⟩
      · rw [hdone]
        exact hfresh _ _
      · rw [hdone]
        rfl
  · rw [if_pos heof]
    have hdone : s.receive attrs packet = ⟨.empty, s.jobs, before ++ ws⟩ := by
      rw [LaserSession.receive, LaserSession.handleJob, if_pos ⟨heof, by rw [hempty]; rfl⟩,
        ← hout, ← hempty]
      rfl
    refine ⟨[], ws, hends, ?_, ?_⟩
    · rw [hdone]
      exact hfresh _ _
    · rw [hdone, List.append_nil]

end

/-- **What a run of clean packets comes to is what their stream comes to.** -/
theorem delivers_run {packets : List DataPacket} {text : Bytes} {before : List Bytes}
    {s : LaserSession} (ht : Tracks attrs Settled text before s)
    (hclean : Along (LaserSession.receive attrs) LaserSession.Clean s packets) :
    ∃ jobs writes text', Delivers attrs text (written packets) jobs writes text' ∧
      Tracks attrs Settled text' (before ++ writes) (run (LaserSession.receive attrs) s packets) ∧
      (run (LaserSession.receive attrs) s packets).jobs = s.jobs ++ jobs := by
  induction packets generalizing text before s with
  | nil => exact ⟨[], [], text, ⟨rfl, rfl, rfl⟩, by rwa [List.append_nil], (List.append_nil _).symm⟩
  | cons packet packets ih =>
    have hone := tracks_receive ht hclean.1
    rw [written, List.flatMap_cons, record, List.append_assoc]
    simp only [delivers_bytes, run_cons]
    rcases heof : packet.eof with _ | _
    · rw [heof, if_neg Bool.false_ne_true] at hone
      obtain ⟨jobs, writes, text', hdelivers, htracks, hjobs⟩ := ih hone.1 hclean.2
      exact ⟨jobs, writes, text', hdelivers, htracks, by rw [hjobs, hone.2]⟩
    · rw [heof, if_pos rfl] at hone
      obtain ⟨jobs₁, writes₁, hends, hnext, hjobs₁⟩ := hone
      obtain ⟨jobs, writes, text', hdelivers, htracks, hjobs⟩ := ih hnext hclean.2
      refine ⟨jobs₁ ++ jobs, writes₁ ++ writes, text',
        ⟨jobs₁, writes₁, jobs, writes, hends, hdelivers, rfl, rfl⟩, ?_, ?_⟩
      · rw [← List.append_assoc]
        exact htracks
      · rw [hjobs, hjobs₁, List.append_assoc]

/-! ## What is left without an eof -/

/-- What a text comes to when nothing follows it: the job it is if the driver
    closes, and the answers so far. -/
def Rests (attrs : PrinterAttributes) (text : Bytes) (jobs writes : List Bytes) : Prop :=
  ∃ ws b, TakesApart (Next attrs) text ws b ∧ Stuck (Next attrs) b ∧
    jobs = (if pqpIsQuery (header b) = false ∧ jobEndsAtEof (header b) = true then [header b]
      else []) ∧
    writes = ws ++ if pqpIsQuery (header b) = true then
      pqpWrites attrs ((header b).take ((pqpAnswerablePrefix (header b)).getD 0)) else []

theorem rests_unique {text : Bytes} {jobs jobs' writes writes' : List Bytes}
    (h : Rests attrs text jobs writes) (h' : Rests attrs text jobs' writes') :
    jobs = jobs' ∧ writes = writes' := by
  obtain ⟨ws, b, hapart, hstuck, rfl, rfl⟩ := h
  obtain ⟨ws', b', hapart', hstuck', rfl, rfl⟩ := h'
  obtain ⟨rfl, rfl⟩ := hapart.unique hapart' (fun _ _ _ _ _ => next_unique) hstuck hstuck'
  exact ⟨rfl, rfl⟩

/-- Behind its last stop a job is only over where the next one starts. -/
theorem Settled.magic_of_boundary (hs : Settled h a) (hne : a ≠ 0) {n : ℕ} (hb : Boundary h n) :
    a ≤ n ∧ Magic (h.drop n) := by
  have hle : a ≤ n := Nat.le_of_not_lt fun hn => hs.first n hn hb
  refine ⟨hle, ?_⟩
  rcases hb.ends with hmagic | ⟨hstop, hover⟩
  · exact hmagic
  · obtain ⟨d, hd, hnd⟩ := hstop.le_answerable hb.le
    rw [hs.last (hs.query hne), if_neg hne] at hd
    obtain rfl := Option.some.inj hd
    obtain rfl := Nat.le_antisymm hle hnd
    rw [hs.going hne] at hover
    cases hover

theorem rests_run {text : Bytes} {before : List Bytes} {s : LaserSession}
    (ht : Tracks attrs Settled text before s) : ∃ jobs writes, Rests attrs text jobs writes ∧
      s.stdout = before ++ writes ∧
      s.close.stdout = before ++ writes ∧ (s.CleanClose → s.close.jobs = s.jobs ++ jobs) := by
  obtain ⟨ws, b, hapart, hdata, hsettled, hout⟩ := ht
  obtain ⟨⟨data, a⟩, jobs, stdout⟩ := s
  dsimp only at hdata hsettled hout
  subst hdata
  have hunanswered : (JobBuffer.mk (header b) a).unanswered = (header b).drop a :=
    unanswered_eq hsettled.le
  have hclose : (LaserSession.mk ⟨header b, a⟩ jobs stdout).close.stdout = stdout := by
    unfold LaserSession.close
    split
    · rfl
    split <;> rfl
  rw [hclose]
  dsimp only [LaserSession.CleanClose]
  rw [hunanswered]
  by_cases hzero : a = 0
  · subst hzero
    have hlast := hsettled.last
    rw [if_pos rfl] at hlast
    have hstuck : Stuck (Next attrs) b := by
      rcases hquery : pqpIsQuery (header b) with _ | _
      · exact stuck_of_not_query hquery
      · exact stuck_of_no_boundary (no_boundary_of_unanswerable (hlast hquery))
    have hwrites : stdout = before ++ (ws ++ if pqpIsQuery (header b) = true then
        pqpWrites attrs ((header b).take ((pqpAnswerablePrefix (header b)).getD 0)) else []) := by
      rw [hout, List.take_zero, pqpWrites_nil, List.append_nil]
      split
      · rename_i hquery
        rw [hlast hquery, Option.getD_none, List.take_zero, pqpWrites_nil, List.append_nil]
      · rw [List.append_nil]
    refine ⟨_, _, ⟨ws, b, hapart, hstuck, rfl, rfl⟩, hwrites, hwrites, fun _ => ?_⟩
    rw [LaserSession.close, hunanswered, List.drop_zero]
    split
    · rename_i hempty
      have hends : jobEndsAtEof [] = false := by decide
      rw [List.isEmpty_iff.1 hempty, hends, if_neg fun hc => Bool.false_ne_true hc.2,
        List.append_nil]
    · simp only [Bool.not_eq_true]
      split
      · rfl
      · rw [List.append_nil]
  · have hquery := hsettled.query hzero
    have hlast := hsettled.last hquery
    rw [if_neg hzero] at hlast
    rcases hm : pqpMagicOffset ((header b).drop a) with _ | m
    · have hstuck : Stuck (Next attrs) b := by
        refine stuck_of_no_boundary fun n hb => ?_
        obtain ⟨hle, hmagic⟩ := hsettled.magic_of_boundary hzero hb
        refine magicOffset_eq_none hm (n - a) ?_
        rwa [List.drop_drop, Nat.add_sub_cancel' hle]
      have hwrites : stdout = before ++ (ws ++ if pqpIsQuery (header b) = true then
          pqpWrites attrs ((header b).take ((pqpAnswerablePrefix (header b)).getD 0)) else []) := by
        rw [if_pos hquery, hlast, Option.getD_some, ← List.append_assoc]
        exact hout
      refine ⟨_, _, ⟨ws, b, hapart, hstuck, rfl, rfl⟩, hwrites, hwrites, fun _ => ?_⟩
      rw [if_neg fun hc => Bool.false_ne_true (hc.1.symm.trans hquery), List.append_nil,
        LaserSession.close]
      split
      · rfl
      · rw [if_neg fun hc => hc.1 hquery]
    · -- the next job is in the buffer already
      obtain ⟨hle, hmagic, hfirst⟩ := magicOffset_eq_some hm
      obtain ⟨hplain, hquiet⟩ := hsettled.behind hzero m hm
      rw [List.drop_drop] at hmagic hquiet
      rw [List.length_drop] at hle
      have halen := hsettled.le
      have hplace : Boundary (header b) (a + m) :=
        ⟨by omega, ⟨a, Nat.le_add_right a m, hsettled.stop hzero⟩, .inl hmagic⟩
      have hnext : Next attrs b _ _ := next_of_boundary rfl hquery hplace fun n hn hb => by
        obtain ⟨han, hmagic'⟩ := hsettled.magic_of_boundary hzero hb
        refine hfirst (n - a) (by omega) ?_
        rwa [List.drop_drop, Nat.add_sub_cancel' han]
      have hstuck : Stuck (Next attrs) ((header b).drop (a + m)) := by
        rcases hq : pqpIsQuery ((header b).drop (a + m)) with _ | _
        · exact stuck_of_not_query (by rwa [header_of_magic hmagic])
        · refine stuck_of_no_boundary ?_
          rw [header_of_magic hmagic]
          exact no_boundary_of_unanswerable (hquiet hq)
      have hwrites : stdout = before ++ (ws ++ pqpWrites attrs ((header b).take (a + m)) ++
          if pqpIsQuery (header ((header b).drop (a + m))) = true then
            pqpWrites attrs ((header ((header b).drop (a + m))).take
              ((pqpAnswerablePrefix (header ((header b).drop (a + m)))).getD 0)) else []) := by
        rw [hout, List.take_add, pqpWrites_plain hsettled.nil_or_stop hplain, List.append_assoc,
          header_of_magic hmagic]
        split
        · rename_i hq
          rw [hquiet hq, Option.getD_none, List.take_zero, pqpWrites_nil, List.append_nil]
        · rw [List.append_nil]
      refine ⟨_, _, ⟨_, _, hapart.snoc hnext, hstuck, rfl, rfl⟩, hwrites, hwrites, fun hclean => ?_⟩
      exact nomatch hclean hzero

/-- **Packet boundaries do not matter** where no packet leaves anything
    unnoticed: two ways of cutting one stream give the sink the same jobs and
    the driver the same answers, whether the driver closes at its end or not. -/
theorem packets_do_not_matter (attrs : PrinterAttributes) {packets packets' : List DataPacket}
    {closed : Bool} (hsame : written packets = written packets')
    (hclean : Along (LaserSession.receive attrs) LaserSession.Clean .start packets)
    (hclean' : Along (LaserSession.receive attrs) LaserSession.Clean .start packets')
    (hclose : closed = true → (run (LaserSession.receive attrs) .start packets).CleanClose)
    (hclose' : closed = true → (run (LaserSession.receive attrs) .start packets').CleanClose) :
    (LaserSession.session attrs packets closed).jobs =
        (LaserSession.session attrs packets' closed).jobs ∧
      (LaserSession.session attrs packets closed).stdout =
        (LaserSession.session attrs packets' closed).stdout := by
  have hstart : Tracks attrs Settled [] [] .start := by
    refine ⟨[], [], .refl [], rfl, settled_nil, ?_⟩
    rfl
  obtain ⟨jobs, writes, text, hdelivers, htracks, hjobs⟩ := delivers_run hstart hclean
  obtain ⟨jobs', writes', text', hdelivers', htracks', hjobs'⟩ := delivers_run hstart hclean'
  rw [hsame] at hdelivers
  obtain ⟨rfl, rfl, rfl⟩ := delivers_unique hdelivers hdelivers'
  obtain ⟨last, out, hrests, hout, hcout, hlast⟩ := rests_run htracks
  obtain ⟨last', out', hrests', hout', hcout', hlast'⟩ := rests_run htracks'
  obtain ⟨rfl, rfl⟩ := rests_unique hrests hrests'
  cases closed with
  | false => exact ⟨hjobs.trans hjobs'.symm, hout.trans hout'.symm⟩
  | true =>
    refine ⟨?_, hcout.trans hcout'.symm⟩
    exact (hlast (hclose rfl)).trans (hjobs ▸ hjobs' ▸ (hlast' (hclose' rfl)).symm)

/-! ## A driver that asks and then prints -/

/-- The attributes of a printer. -/
def askedPrinter : PrinterAttributes :=
  ⟨"LaserWriter", 2, "2010.020", 0, ["Courier"], false, [300]⟩

/-- A query. -/
def spoolerQuery : Bytes :=
  intoBytes "%!PS-Adobe-2.0 Query\r%%?BeginQuery: ADOSpooler\r%%?EndQuery: x\r".toList

/-- A job. -/
def printJob : Bytes := intoBytes "%!PS-Adobe-3.0\rshowpage\r".toList

/-- A query and a job, cut in the middle of the query or with the job behind
    it, come out the same. -/
theorem packets_do_not_matter_asked :
    let packets := [⟨spoolerQuery.take 30, false⟩, ⟨spoolerQuery.drop 30, false⟩, ⟨printJob, true⟩]
    let packets' := [⟨spoolerQuery ++ printJob, false⟩, ⟨[], true⟩]
    (LaserSession.session askedPrinter packets true).jobs =
        (LaserSession.session askedPrinter packets' true).jobs ∧
      (LaserSession.session askedPrinter packets true).stdout =
        (LaserSession.session askedPrinter packets' true).stdout :=
  packets_do_not_matter askedPrinter (by decide +kernel) (by decide +kernel) (by decide +kernel)
    (fun _ => by decide +kernel) (fun _ => by decide +kernel)

/-- A job that shares the packet with the eof mark is taken for the rest of the query. -/
theorem packet_swallows_job :
    let packets := [⟨spoolerQuery ++ printJob, true⟩]
    let packets' := [⟨spoolerQuery, false⟩, ⟨printJob, true⟩]
    written packets = written packets' ∧
      (LaserSession.session askedPrinter packets false).jobs = [] ∧
      (LaserSession.session askedPrinter packets' false).jobs = [printJob] := by
  intro packets packets'
  refine ⟨?_, ?_, ?_⟩
  · decide +kernel
  · decide +kernel
  · decide +kernel

end

end TailTalk
