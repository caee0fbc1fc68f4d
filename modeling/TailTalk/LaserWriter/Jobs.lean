/-
  Where a job ends in what a driver sends.

  Whether a place is a boundary depends on the text up to it only, so `Next`,
  which takes a finished query off the front of a text, does the same however
  much of the text has arrived.
-/
import TailTalk.LaserWriter.Session
import TailTalk.Lib.Pieces

namespace TailTalk

open Lib

/-! ## Lines decoded -/

theorem isEol_iff {b : UInt8} : isEol b = true ↔ b = 0x0D ∨ b = 0x0A := by
  rw [isEol, Bool.or_eq_true, beq_iff_eq, beq_iff_eq]

theorem decoded_no_eol {line : Bytes} (hno : ∀ x ∈ line, isEol x = false) :
    ∀ c ∈ fromUtf8Lossy line, isEolChar c = false := by
  have hzero : line.countP isEol = 0 := List.countP_eq_zero.2 fun x hx => by
    rw [hno x hx]
    exact Bool.false_ne_true
  have hle := countP_decoded_le isEol line
  rw [hzero] at hle
  intro c hc
  by_contra hcr
  rw [Bool.not_eq_false, isEolChar, Bool.or_eq_true, beq_iff_eq, beq_iff_eq] at hcr
  refine List.countP_eq_zero.1 (Nat.le_zero.1 hle) c hc ?_
  rcases hcr with rfl | rfl <;> decide

/-- **The separator counts nothing**: a line trimmed of it decodes to what the
    line decodes to. -/
theorem trimmed_concat {line : Bytes} {e : UInt8} (hno : ∀ x ∈ line, isEol x = false)
    (he : isEol e = true) :
    (fromUtf8Lossy (line ++ [e])).rdropWhile isEolChar = fromUtf8Lossy line := by
  have hlt : e < 0x80 := by rcases isEol_iff.1 he with rfl | rfl <;> decide
  have hchar : isEolChar (Char.ofNat e.toNat) = true := by
    rcases isEol_iff.1 he with rfl | rfl <;> decide
  rw [fromUtf8Lossy_concat line hlt, List.rdropWhile_concat_pos _ _ _ hchar]
  refine List.rdropWhile_eq_self_iff.2 fun hne => ?_
  rw [decoded_no_eol hno _ (List.getLast_mem hne)]
  exact Bool.false_ne_true

/-! ## The scan for an answerable prefix -/

namespace PrefixScan

theorem stop_line (s : PrefixScan) (l : Bytes) : (s.line l).stop = s.stop ∨
    (s.line l).stop = some (s.pos + l.length) ∧ (s.line l).depth = 0 := by
  unfold line
  dsimp only
  split
  · exact .inl rfl
  split
  · split
    · rename_i hd
      exact .inr ⟨rfl, hd⟩
    · exact .inl rfl
  split
  · rename_i h
    exact .inr ⟨rfl, h.1⟩
  · exact .inl rfl

theorem pos_line (s : PrefixScan) (l : Bytes) : (s.line l).pos = s.pos + l.length := by
  unfold line
  dsimp only
  split
  · rfl
  split
  · rfl
  split <;> rfl

/-- The stop is behind, and where it is just here no block is open. -/
structure Good (s : PrefixScan) : Prop where
  le : ∀ c ∈ s.stop, c ≤ s.pos
  depth : s.stop = some s.pos → s.depth = 0

theorem good_start : Good start := ⟨nofun, nofun⟩

theorem Good.line {s : PrefixScan} (h : s.Good) {l : Bytes} (hl : l ≠ []) : (s.line l).Good := by
  have hpos := pos_line s l
  have hlen := List.length_pos_iff.2 hl
  rcases stop_line s l with hsame | ⟨hstop, hdepth⟩
  · constructor
    · intro c hc
      rw [hsame] at hc
      have := h.le c hc
      omega
    · intro hc
      rw [hsame] at hc
      have := h.le _ hc
      omega
  · refine ⟨fun c hc => ?_, fun _ => hdepth⟩
    rw [hstop] at hc
    obtain rfl := Option.some.inj hc
    omega

theorem Good.stop_le {s : PrefixScan} (h : s.Good) (l : Bytes) {c : ℕ}
    (hc : s.stop = some c) : ∃ d, (s.line l).stop = some d ∧ c ≤ d := by
  rcases stop_line s l with hsame | ⟨hstop, -⟩
  · exact ⟨c, hsame.trans hc, Nat.le_refl c⟩
  · exact ⟨_, hstop, Nat.le_trans (h.le c hc) (Nat.le_add_right _ _)⟩

theorem Good.run {s : PrefixScan} (h : s.Good) (u : Bytes) :
    (Lib.run PrefixScan.line s (splitInclusive isEol u)).Good ∧
      (Lib.run PrefixScan.line s (splitInclusive isEol u)).pos = s.pos + u.length ∧
      ∀ c, s.stop = some c →
        ∃ d, (Lib.run PrefixScan.line s (splitInclusive isEol u)).stop = some d ∧ c ≤ d := by
  induction u using lines_induction (p := isEol) generalizing s with
  | hnil => exact ⟨h, rfl, fun c hc => ⟨c, hc, Nat.le_refl c⟩⟩
  | hlast l hne hno =>
    rw [splitInclusive_last hne hno]
    exact ⟨h.line hne, pos_line s l, fun c hc => h.stop_le _ hc⟩
  | hline l sep rest hno hsep ih =>
    rw [splitInclusive_line hno hsep, run_cons]
    have hne : l ++ [sep] ≠ [] := by simp
    obtain ⟨hgood, hpos, hstop⟩ := ih (h.line hne)
    refine ⟨hgood, ?_, fun c hc => ?_⟩
    · rw [hpos, pos_line]
      simp only [List.length_append, List.length_cons, List.length_nil]
      omega
    · obtain ⟨d, hd, hcd⟩ := h.stop_le _ hc
      obtain ⟨e, he, hde⟩ := hstop d hd
      exact ⟨e, he, Nat.le_trans hcd hde⟩

theorem stop_run {s : PrefixScan} {u : Bytes} {d : ℕ}
    (h : (Lib.run line s (splitInclusive isEol u)).stop = some d) : s.stop = some d ∨
      ∃ e, 0 < e ∧ e ≤ u.length ∧ d = s.pos + e ∧
        (Lib.run line s (splitInclusive isEol (u.take e))).stop = some d := by
  induction u using lines_induction (p := isEol) generalizing s with
  | hnil => exact .inl h
  | hlast l hne hno =>
    rw [splitInclusive_last hne hno, run_cons, run_nil] at h
    rcases stop_line s l with hsame | ⟨hstop, -⟩
    · exact .inl (hsame.symm.trans h)
    · refine .inr ⟨l.length, List.length_pos_iff.2 hne, Nat.le_refl _, ?_, ?_⟩
      · exact Option.some.inj (h.symm.trans hstop)
      · rw [List.take_length, splitInclusive_last hne hno]
        exact h
  | hline l sep rest hno hsep ih =>
    rw [splitInclusive_line hno hsep, run_cons] at h
    have hlen : (l ++ [sep]).length = l.length + 1 := by simp
    have htake : ∀ e, (l ++ sep :: rest).take (l.length + 1 + e) = l ++ sep :: rest.take e := by
      intro e
      have heq : l ++ sep :: rest = (l ++ [sep]) ++ rest := by simp
      rw [heq, List.take_append, hlen, Nat.add_sub_cancel_left, List.take_of_length_le (by omega),
        List.append_assoc, List.singleton_append]
    rcases ih h with hone | ⟨e, hpos, hle, hd, hstop⟩
    · rcases stop_line s (l ++ [sep]) with hsame | ⟨hstop, -⟩
      · exact .inl (hsame.symm.trans hone)
      · refine .inr ⟨l.length + 1, Nat.succ_pos _, by simp, ?_, ?_⟩
        · rw [hstop, hlen] at hone
          exact (Option.some.inj hone).symm
        · have hfirst := htake 0
          rw [Nat.add_zero, List.take_zero] at hfirst
          rw [hfirst, splitInclusive_line hno hsep]
          exact hone
    · refine .inr ⟨l.length + 1 + e, by omega, by simp; omega, ?_, ?_⟩
      · rw [hd, pos_line, hlen, Nat.add_assoc]
      · rw [htake, splitInclusive_line hno hsep, run_cons]
        exact hstop

end PrefixScan

/-- A text that can be answered to its end, which is the end of a line. -/
def Stop (x : Bytes) : Prop := Whole isEol x ∧ pqpAnswerablePrefix x = some x.length

instance (x : Bytes) : Decidable (Stop x) := inferInstanceAs (Decidable (_ ∧ _))

theorem answerablePrefix_spec {u : Bytes} {e : ℕ} (h : pqpAnswerablePrefix u = some e) :
    0 < e ∧ e ≤ u.length ∧ pqpAnswerablePrefix (u.take e) = some e := by
  rcases PrefixScan.stop_run h with hstart | ⟨e', hpos, hle, heq, hstop⟩
  · cases hstart
  · rw [show PrefixScan.start.pos = 0 from rfl, Nat.zero_add] at heq
    subst heq
    exact ⟨hpos, hle, hstop⟩

theorem stop_of_answerable {u : Bytes} {e : ℕ} (h : pqpAnswerablePrefix u = some e)
    (hwhole : Whole isEol (u.take e)) : Stop (u.take e) := by
  obtain ⟨-, hle, hstop⟩ := answerablePrefix_spec h
  exact ⟨hwhole, by rw [hstop, List.length_take, Nat.min_eq_left hle]⟩

theorem not_stop_nil : ¬ Stop [] := fun h => nomatch h.2

theorem Stop.le_answerable {u : Bytes} {c : ℕ} (hc : c ≤ u.length) (h : Stop (u.take c)) :
    ∃ d, pqpAnswerablePrefix u = some d ∧ c ≤ d := by
  have hgood := (PrefixScan.good_start.run (u.take c)).1
  obtain ⟨-, -, hmore⟩ := hgood.run (u.drop c)
  have hstop := h.2
  rw [List.length_take, Nat.min_eq_left hc] at hstop
  obtain ⟨d, hd, hcd⟩ := hmore c hstop
  refine ⟨d, ?_, hcd⟩
  rw [← run_append, ← splitInclusive_append h.1, List.take_append_drop] at hd
  exact hd

/-! ## The scan for the answers -/

section
variable {attrs : PrinterAttributes}

theorem QueryScan.line_nil (s : QueryScan) : s.line attrs [] = s := rfl

/-- A text that opens and closes no block. -/
def PlainText (x : Bytes) : Prop :=
  ∀ l ∈ x.splitOnP isEol,
    pqpBeginLine (fromUtf8Lossy l) = none ∧ pqpEndLine (fromUtf8Lossy l) = none

instance (x : Bytes) : Decidable (PlainText x) := inferInstanceAs (Decidable (∀ l ∈ _, _))

theorem run_plain {x : Bytes} (h : PlainText x) (s : QueryScan) :
    run (QueryScan.line attrs) s (x.splitOnP isEol) = s := by
  unfold PlainText at h
  generalize x.splitOnP isEol = ls at h
  induction ls with
  | nil => rfl
  | cons l ls ih =>
    have hl := h l List.mem_cons_self
    rw [run_cons, QueryScan.line, hl.1]
    dsimp only
    rw [hl.2]
    exact ih fun l' hl' => h l' (List.mem_cons_of_mem l hl')

/-- What was written before stays in front. -/
theorem run_out (o : List Bytes) (c : Option (Text × Text)) (ls : List Bytes) :
    run (QueryScan.line attrs) ⟨o, c⟩ ls =
      ⟨o ++ (run (QueryScan.line attrs) ⟨[], c⟩ ls).out,
        (run (QueryScan.line attrs) ⟨[], c⟩ ls).current⟩ := by
  induction ls generalizing o c with
  | nil => simp
  | cons l ls ih =>
    have hline : ∃ ws c', ∀ o, QueryScan.line attrs ⟨o, c⟩ l = ⟨o ++ ws, c'⟩ := by
      simp only [QueryScan.line]
      split
      · exact ⟨[], _, fun o => by rw [List.append_nil]⟩
      · split
        · exact ⟨_, _, fun o => rfl⟩
        · exact ⟨[], _, fun o => by rw [List.append_nil]⟩
    obtain ⟨ws, c', hline⟩ := hline
    rw [run_cons, run_cons, hline, hline, ih, ih ([] ++ ws), List.nil_append, List.append_assoc]

/-- A block that is open counts in the depth. -/
theorem current_run {x : Bytes} (hwhole : Whole isEol x) {s : PrefixScan} {q : QueryScan}
    (h : s.depth = 0 → q.current = none)
    (hdepth : (run PrefixScan.line s (splitInclusive isEol x)).depth = 0) :
    (run (QueryScan.line attrs) q (x.splitOnP isEol)).current = none := by
  induction x using lines_induction (p := isEol) generalizing s q with
  | hnil =>
    rw [List.splitOnP_nil, run_cons, run_nil, QueryScan.line_nil]
    exact h hdepth
  | hlast l hne hno => exact absurd hwhole (not_whole_last hne hno)
  | hline l sep rest hno hsep ih =>
    rw [splitInclusive_line hno hsep, run_cons] at hdepth
    rw [splitOnP_line hno hsep, run_cons]
    refine ih (whole_line hwhole) ?_ hdepth
    rw [PrefixScan.line, trimmed_concat hno hsep, QueryScan.line]
    rcases hbegin : pqpBeginLine (fromUtf8Lossy l) with _ | ⟨kind, arg⟩
    · rcases hend : pqpEndLine (fromUtf8Lossy l) with _ | ⟨kind, arg⟩
      · simp only [Option.isSome_none, Bool.false_eq_true, if_false]
        intro hd
        split at hd <;> exact h hd
      · exact fun _ => rfl
    · -- The line opens a block: the depth is not zero.
      intro hd
      rw [Option.isSome_some, if_pos rfl] at hd
      exact absurd hd (Nat.succ_ne_zero _)

/-- **The answers of a block do not depend on what follows it.** -/
theorem pqpWrites_append {x : Bytes} (h : x = [] ∨ Stop x) (y : Bytes) :
    pqpWrites attrs (x ++ y) = pqpWrites attrs x ++ pqpWrites attrs y := by
  have hwhole : Whole isEol x := by
    rcases h with rfl | h
    · exact whole_nil
    · exact h.1
  have hcurrent : (run (QueryScan.line attrs) ⟨[], none⟩ (x.splitOnP isEol)).current = none := by
    refine current_run hwhole (s := .start) (fun _ => rfl) ?_
    rcases h with rfl | h
    · rfl
    · obtain ⟨hgood, hpos, -⟩ := PrefixScan.good_start.run x
      refine hgood.depth ?_
      rw [hpos, show PrefixScan.start.pos = 0 from rfl, Nat.zero_add]
      exact h.2
  rw [pqpWrites, run_splitOnP_append QueryScan.line_nil hwhole]
  have hx : (run (QueryScan.line attrs) ⟨[], none⟩ (x.splitOnP isEol)).out = pqpWrites attrs x := rfl
  generalize run (QueryScan.line attrs) ⟨[], none⟩ (x.splitOnP isEol) = q at hcurrent hx ⊢
  obtain ⟨out, current⟩ := q
  obtain rfl : current = none := hcurrent
  rw [run_out, ← hx]
  rfl

/-- Text without blocks is answered with nothing. -/
theorem pqpWrites_plain {x : Bytes} (h : x = [] ∨ Stop x) {y : Bytes} (hy : PlainText y) :
    pqpWrites attrs (x ++ y) = pqpWrites attrs x := by
  have hnone : pqpWrites attrs y = [] := by rw [pqpWrites, run_plain hy]
  rw [pqpWrites_append h, hnone, List.append_nil]

end

/-! ## Job headers -/

/-- The `%!` of a header. -/
def Magic (t : Bytes) : Prop := MAGIC <+: t

instance (t : Bytes) : Decidable (Magic t) := inferInstanceAs (Decidable (_ <+: _))

theorem Magic.append {t : Bytes} (h : Magic t) (p : Bytes) : Magic (t ++ p) :=
  h.trans (List.prefix_append t p)

theorem Magic.of_append {t p : Bytes} (h : Magic (t ++ p)) (hlen : 2 ≤ t.length) : Magic t :=
  List.prefix_of_prefix_length_le h (List.prefix_append t p) hlen

theorem Magic.ne_nil {t : Bytes} (h : Magic t) : t ≠ [] := by
  rintro rfl
  exact nomatch List.prefix_nil.1 h

theorem magicOffset_cons (b : UInt8) (bs : Bytes) : pqpMagicOffset (b :: bs) =
    if Magic (b :: bs) then some 0 else (pqpMagicOffset bs).map (· + 1) := rfl

/-- The first header. -/
theorem magicOffset_eq_some {t : Bytes} {m : ℕ} (h : pqpMagicOffset t = some m) :
    m ≤ t.length ∧ Magic (t.drop m) ∧ ∀ k < m, ¬ Magic (t.drop k) := by
  induction t generalizing m with
  | nil => cases h
  | cons b bs ih =>
    rw [magicOffset_cons] at h
    split at h
    · rename_i hm
      obtain rfl := Option.some.inj h
      exact ⟨Nat.zero_le _, hm, nofun⟩
    · rename_i hm
      obtain ⟨k, hk, rfl⟩ := Option.map_eq_some_iff.1 h
      obtain ⟨hle, hmagic, hfirst⟩ := ih hk
      refine ⟨Nat.succ_le_succ hle, hmagic, fun j hj => ?_⟩
      cases j with
      | zero => exact hm
      | succ j => exact hfirst j (Nat.lt_of_succ_lt_succ hj)

theorem magicOffset_eq_none {t : Bytes} (h : pqpMagicOffset t = none) (k : ℕ) :
    ¬ Magic (t.drop k) := by
  induction t generalizing k with
  | nil =>
    rw [List.drop_nil]
    exact fun hm => hm.ne_nil rfl
  | cons b bs ih =>
    rw [magicOffset_cons] at h
    split at h
    · cases h
    · rename_i hm
      cases k with
      | zero => exact hm
      | succ k => exact ih (Option.map_eq_none_iff.1 h) k

theorem magicOffset_append {t : Bytes} {m : ℕ} (h : pqpMagicOffset t = some m) (p : Bytes) :
    pqpMagicOffset (t ++ p) = some m := by
  induction t generalizing m with
  | nil => cases h
  | cons b bs ih =>
    rw [magicOffset_cons] at h
    rw [List.cons_append, magicOffset_cons]
    split at h
    · rename_i hm
      rw [if_pos (List.cons_append ▸ hm.append p)]
      exact h
    · rename_i hm
      obtain ⟨k, hk, rfl⟩ := Option.map_eq_some_iff.1 h
      have hlen : 2 ≤ (b :: bs).length := by
        cases bs with
        | nil => cases hk
        | cons c cs => simp
      have hm' : ¬ Magic (b :: (bs ++ p)) := fun hm' => hm (Magic.of_append hm' hlen)
      rw [if_neg hm', ih hk]
      rfl

theorem magicOffset_of_magic {t : Bytes} (h : Magic t) : pqpMagicOffset t = some 0 := by
  cases t with
  | nil => exact absurd rfl h.ne_nil
  | cons b bs => rw [magicOffset_cons, if_pos h]

/-- A text from its first header on, or all of it. -/
def header (t : Bytes) : Bytes := t.drop ((pqpMagicOffset t).getD 0)

theorem header_of_magic {t : Bytes} (h : Magic t) : header t = t := by
  rw [header, magicOffset_of_magic h]
  rfl

theorem header_append_of_some {t : Bytes} {m : ℕ} (h : pqpMagicOffset t = some m) (p : Bytes) :
    header (t ++ p) = header t ++ p := by
  rw [header, header, magicOffset_append h, h, Option.getD_some,
    List.drop_append_of_le_length (magicOffset_eq_some h).1]

theorem magic_header {t : Bytes} {m : ℕ} (h : pqpMagicOffset t = some m) : Magic (header t) := by
  rw [header, h]
  exact (magicOffset_eq_some h).2.1

theorem header_header_append (t p : Bytes) : header (header t ++ p) = header (t ++ p) := by
  rcases h : pqpMagicOffset t with _ | m
  · rw [show header t = t by rw [header, h]; rfl]
  · rw [header_append_of_some h, header_of_magic ((magic_header h).append p)]

theorem magic_of_magic_header {t : Bytes} (h : Magic (header t)) : ∃ m, pqpMagicOffset t = some m := by
  rcases hm : pqpMagicOffset t with _ | m
  · have hno := magicOffset_eq_none hm 0
    rw [header, hm] at h
    exact absurd h hno
  · exact ⟨m, rfl⟩

theorem magic_of_isQuery {t : Bytes} (h : pqpIsQuery t = true) : Magic t := by
  unfold pqpIsQuery at h
  dsimp only at h
  obtain ⟨rest, hrest⟩ := Option.isSome_iff_exists.1 h
  obtain ⟨body, hbody, -⟩ := Option.bind_eq_some_iff.1 hrest
  rw [stripPrefix] at hbody
  split at hbody
  · rename_i hpre
    have hline : "%!PS-Adobe".toList <+:
        fromUtf8Lossy (t.takeWhile fun b => !isEol b) :=
      (List.isPrefixOf_iff_prefix.1 hpre).trans (List.rdropWhile_prefix _ _)
    have hbytes := prefix_of_decoded (by decide) hline
    have hmagic : MAGIC <+: asciiBytes "%!PS-Adobe".toList := by decide
    exact (hmagic.trans hbytes).trans (List.takeWhile_prefix _)
  · cases hbody

theorem isQuery_append {t : Bytes} (h : ∃ b ∈ t, isEol b = true) (p : Bytes) :
    pqpIsQuery (t ++ p) = pqpIsQuery t := by
  have hline : (t ++ p).takeWhile (fun b => !isEol b) = t.takeWhile fun b => !isEol b := by
    obtain ⟨b, hb, hsep⟩ := h
    rw [List.takeWhile_append, if_neg]
    intro hlen
    have hall : t.takeWhile (fun b => !isEol b) = t :=
      (List.takeWhile_prefix _).eq_of_length hlen
    have hno := List.takeWhile_eq_self_iff.1 hall b hb
    rw [hsep] at hno
    cases hno
  rw [pqpIsQuery, pqpIsQuery, hline]

/-! ## Boundaries -/

/-- Some of a query was answered, and the next job starts at `n` or its own `%%EOF` was answered
    there. -/
structure Boundary (h : Bytes) (n : ℕ) : Prop where
  le : n ≤ h.length
  answered : ∃ c ≤ n, Stop (h.take c)
  ends : Magic (h.drop n) ∨ Stop (h.take n) ∧ jobEndsAtEof (h.take n) = true

theorem take_append_of_le {t p : Bytes} {n : ℕ} (h : n ≤ t.length) : (t ++ p).take n = t.take n :=
  List.take_append_of_le_length h

theorem Boundary.append {h : Bytes} {n : ℕ} (hb : Boundary h n) (p : Bytes) :
    Boundary (h ++ p) n := by
  obtain ⟨c, hc, hstop⟩ := hb.answered
  refine ⟨?_, ⟨c, hc, ?_⟩, ?_⟩
  · rw [List.length_append]
    exact Nat.le_trans hb.le (Nat.le_add_right _ _)
  · rw [take_append_of_le (Nat.le_trans hc hb.le)]
    exact hstop
  · rw [take_append_of_le hb.le, List.drop_append_of_le_length hb.le]
    exact hb.ends.imp (fun hm => hm.append p) id

/-- Before a place that more text does not touch it makes no boundary. -/
theorem Boundary.of_append {h p : Bytes} {m n : ℕ} (hmn : m < n) (hn : n ≤ h.length)
    (hwhole : n = h.length → Whole isEol h) (hb : Boundary (h ++ p) m) : Boundary h m := by
  have hle : m ≤ h.length := Nat.le_trans (Nat.le_of_lt hmn) hn
  obtain ⟨c, hc, hstop⟩ := hb.answered
  rw [take_append_of_le (Nat.le_trans hc hle)] at hstop
  refine ⟨hle, ⟨c, hc, hstop⟩, ?_⟩
  have hends := hb.ends
  rw [take_append_of_le hle, List.drop_append_of_le_length hle] at hends
  rcases hends with hmagic | hover
  · refine .inl (hmagic.of_append ?_)
    rw [List.length_drop]
    by_contra hlen
    -- then `m` is the last place of a finished line
    obtain ⟨b, hlast⟩ : ∃ b, h.drop m = [b] := by
      refine List.length_eq_one_iff.1 ?_
      rw [List.length_drop]
      omega
    rw [hlast, List.singleton_append, Magic, MAGIC, List.cons_prefix_cons] at hmagic
    have hsep := hwhole (by omega) b (by
      rw [← List.take_append_drop m h, hlast, List.getLast?_concat]
      rfl)
    rw [← hmagic.1] at hsep
    cases hsep
  · exact .inr hover

/-- A boundary at the end of a text is the end of a line. -/
theorem Boundary.whole {h : Bytes} {n : ℕ} (hn : Boundary h n) (hlen : n = h.length) :
    Whole isEol h := by
  rcases hn.ends with hmagic | ⟨hstop, -⟩
  · rw [hlen, List.drop_length] at hmagic
    exact absurd rfl hmagic.ne_nil
  · rw [hlen, List.take_length] at hstop
    exact hstop.1

/-- A finished query is taken off the front of a text, with its answers. -/
def Next (attrs : PrinterAttributes) (t : Bytes) (ws : List Bytes) (r : Bytes) : Prop :=
  pqpIsQuery (header t) = true ∧ ∃ n, Boundary (header t) n ∧
    (∀ m < n, ¬ Boundary (header t) m) ∧
    ws = pqpWrites attrs ((header t).take n) ∧ r = (header t).drop n

section
variable {attrs : PrinterAttributes} {t r : Bytes} {ws : List Bytes}

theorem next_of_boundary {h : Bytes} {n : ℕ} (hheader : header t = h)
    (hquery : pqpIsQuery h = true) (hn : Boundary h n) (hfirst : ∀ m < n, ¬ Boundary h m) :
    Next attrs t (pqpWrites attrs (h.take n)) (h.drop n) := by
  subst hheader
  exact ⟨hquery, n, hn, hfirst, rfl, rfl⟩

theorem next_unique {r' : Bytes} {ws' : List Bytes} (h : Next attrs t ws r)
    (h' : Next attrs t ws' r') : ws = ws' ∧ r = r' := by
  obtain ⟨-, n, hn, hfirst, rfl, rfl⟩ := h
  obtain ⟨-, n', hn', hfirst', rfl, rfl⟩ := h'
  rcases Nat.lt_trichotomy n n' with hlt | rfl | hlt
  · exact absurd hn (hfirst' n hlt)
  · exact ⟨rfl, rfl⟩
  · exact absurd hn' (hfirst n' hlt)

theorem Stop.exists_eol {x : Bytes} (h : Stop x) : ∃ b ∈ x, isEol b = true := by
  rcases hlast : x.getLast? with _ | b
  · rw [List.getLast?_eq_none_iff.1 hlast] at h
    exact absurd h not_stop_nil
  · exact ⟨b, List.mem_of_getLast? hlast, h.1 b hlast⟩

theorem isQuery_append_of_stop {h : Bytes} {c : ℕ} (hstop : Stop (h.take c)) (p : Bytes) :
    pqpIsQuery (h ++ p) = pqpIsQuery h := by
  obtain ⟨b, hb, hsep⟩ := hstop.exists_eol
  exact isQuery_append ⟨b, List.mem_of_mem_take hb, hsep⟩ p

/-- **Taking a query off does not wait for more text.** -/
theorem next_append (h : Next attrs t ws r) (p : Bytes) : Next attrs (t ++ p) ws (r ++ p) := by
  obtain ⟨hquery, n, hn, hfirst, rfl, rfl⟩ := h
  obtain ⟨m, hm⟩ := magic_of_magic_header (magic_of_isQuery hquery)
  obtain ⟨c, hc, hstop⟩ := hn.answered
  rw [Next, header_append_of_some hm]
  refine ⟨?_, n, hn.append p, fun k hk hb =>
    hfirst k hk (hb.of_append hk hn.le hn.whole), ?_, ?_⟩
  · rw [isQuery_append_of_stop hstop]
    exact hquery
  · rw [take_append_of_le hn.le]
  · rw [List.drop_append_of_le_length hn.le]

/-- Nothing can be taken off a text without answers. -/
theorem stuck_of_no_boundary (h : ∀ n, ¬ Boundary (header t) n) : Stuck (Next attrs) t := by
  rintro ws r ⟨-, n, hn, -⟩
  exact h n hn

theorem stuck_of_not_query (h : pqpIsQuery (header t) = false) : Stuck (Next attrs) t := by
  rintro ws r ⟨hquery, -⟩
  rw [h] at hquery
  cases hquery

theorem no_boundary_of_unanswerable {h : Bytes} (hnone : pqpAnswerablePrefix h = none) (n : ℕ) :
    ¬ Boundary h n := by
  intro hb
  obtain ⟨c, hc, hstop⟩ := hb.answered
  obtain ⟨d, hd, -⟩ := hstop.le_answerable (Nat.le_trans hc hb.le)
  rw [hnone] at hd
  cases hd

end

/-! ## The trailer of a job -/

/-- A byte that no padding is. -/
def isSolid (b : UInt8) : Bool := !isPadding b

theorem rdropWhile_append_of_ne {p : UInt8 → Bool} {x : Bytes} (h : x.rdropWhile p ≠ [])
    (y : Bytes) : (y ++ x).rdropWhile p = y ++ x.rdropWhile p := by
  induction x using List.reverseRecOn with
  | nil => exact absurd (List.rdropWhile_nil p) h
  | append_singleton x b ih =>
    rw [← List.append_assoc]
    by_cases hb : p b = true
    · rw [List.rdropWhile_concat_pos _ _ _ hb] at h ⊢
      rw [List.rdropWhile_concat_pos _ _ _ hb]
      exact ih h
    · rw [List.rdropWhile_concat_neg _ _ _ hb, List.rdropWhile_concat_neg _ _ _ hb,
        List.append_assoc]

theorem solid_of_sublist {pat : Text} {l : Bytes} (h : pat.Sublist (fromUtf8Lossy l))
    (hpat : pat.all (fun c => decide (0 < c.toNat) && decide (c.toNat < 128) &&
      isSolid (UInt8.ofNat c.toNat)) = true) : pat.length ≤ l.countP isSolid := by
  rw [← List.countP_eq_length.2 (List.all_eq_true.1 hpat)]
  exact Nat.le_trans h.countP_le (countP_decoded_le isSolid l)

theorem solid_of_stop {s : PrefixScan} (hgood : s.Good) {l : Bytes} (hne : l ≠ [])
    (h : (s.line l).stop = some (s.pos + l.length)) : EOF_COMMENT.length ≤ l.countP isSolid := by
  have hlen := List.length_pos_iff.2 hne
  have hold : s.stop ≠ some (s.pos + l.length) := by
    intro hstop
    have := hgood.le _ hstop
    omega
  have htrimmed := (List.rdropWhile_prefix isEolChar (fromUtf8Lossy l)).sublist
  unfold PrefixScan.line at h
  dsimp only at h
  split at h
  · exact absurd h hold
  split at h
  · rename_i hend
    obtain ⟨kv, hend⟩ := Option.isSome_iff_exists.1 hend
    obtain ⟨body, hbody, -⟩ := Option.bind_eq_some_iff.1 hend
    rw [stripPrefix] at hbody
    split at hbody
    · rename_i hpre
      have hsub := (List.isPrefixOf_iff_prefix.1 hpre).sublist.trans htrimmed
      exact Nat.le_trans (by decide) (solid_of_sublist hsub (by decide))
    · cases hbody
  split at h
  · rename_i htrailer
    have hsub : "%%EOF".toList.Sublist (fromUtf8Lossy l) := by
      rw [← htrailer.2.2]
      exact ((List.rdropWhile_prefix _ _).sublist.trans
        (List.dropWhile_suffix _).sublist).trans htrimmed
    exact Nat.le_trans (by decide) (solid_of_sublist hsub (by decide))
  · exact absurd h hold

theorem solid_of_run {s : PrefixScan} (hgood : s.Good) {u : Bytes} (hne : u ≠ [])
    (h : (run PrefixScan.line s (splitInclusive isEol u)).stop = some (s.pos + u.length)) :
    EOF_COMMENT.length ≤ u.countP isSolid := by
  induction u using lines_induction (p := isEol) generalizing s with
  | hnil => exact absurd rfl hne
  | hlast l hne' hno =>
    rw [splitInclusive_last hne' hno] at h
    exact solid_of_stop hgood hne' h
  | hline l sep rest hno hsep ih =>
    rw [splitInclusive_line hno hsep, run_cons] at h
    have hne' : l ++ [sep] ≠ [] := by simp
    have hcons : l ++ sep :: rest = (l ++ [sep]) ++ rest := by simp
    rw [hcons, List.countP_append]
    by_cases hrest : rest = []
    · subst hrest
      exact Nat.le_trans (solid_of_stop hgood hne' h) (Nat.le_add_right _ _)
    · refine Nat.le_trans (ih (hgood.line hne') hrest ?_) (Nat.le_add_left _ _)
      rw [h, PrefixScan.pos_line, hcons, List.length_append, Nat.add_assoc]

/-- **A job ends at its `%%EOF` as its last block does.** -/
theorem jobEndsAtEof_append {block : Bytes}
    (hstop : pqpAnswerablePrefix block = some block.length) (y : Bytes) :
    jobEndsAtEof (y ++ block) = jobEndsAtEof block := by
  have hne : block ≠ [] := by
    rintro rfl
    cases hstop
  have hsolid := solid_of_run PrefixScan.good_start hne (by
    rw [show PrefixScan.start.pos = 0 from rfl, Nat.zero_add]
    exact hstop)
  have hlen : EOF_COMMENT.length ≤ (block.rdropWhile isPadding).length := by
    have hnone : (block.rtakeWhile isPadding).countP isSolid = 0 := by
      refine List.countP_eq_zero.2 fun b hb => ?_
      rw [isSolid, List.mem_rtakeWhile_imp hb]
      exact Bool.false_ne_true
    have hsplit := List.rdropWhile_append_rtakeWhile (p := isPadding) (l := block)
    rw [← hsplit, List.countP_append, hnone,
      Nat.add_zero] at hsolid
    exact Nat.le_trans hsolid List.countP_le_length
  have hkeep := rdropWhile_append_of_ne
    (List.length_pos_iff.1 (Nat.lt_of_lt_of_le (by decide) hlen)) y
  rw [jobEndsAtEof, jobEndsAtEof, hkeep, Bool.eq_iff_iff, List.isSuffixOf_iff_suffix,
    List.isSuffixOf_iff_suffix]
  constructor
  · exact fun h => List.suffix_of_suffix_length_le h (List.suffix_append _ _) hlen
  · exact fun h => h.trans (List.suffix_append y _)

end TailTalk
