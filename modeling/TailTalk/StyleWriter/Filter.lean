/-
  The fast mode filter of a StyleWriter role.

  A port that cannot be clocked by the printer does not pass on the two
  messages that switch the printer to its fast mode.  They only count as whole
  messages, and ADSP may cut a message anywhere.
-/
import TailTalk.Adsp.Segmentation
import TailTalk.StyleWriter.Jobs

namespace TailTalk

open Lib

namespace StyleWriterRole

/-- A message that switches the printer to its fast mode. -/
def fastModeSwitch (m : Bytes) : Bool := m == [FAST_CLOCK] || m == [FAST_CLOCK_SW]

/-- The filter by messages: all bytes but those of the switches, after `m` of a message. -/
def passFrom : Bytes → List StreamItem → Bytes
  | m, [] => m
  | m, .byte b :: items => passFrom (m ++ [b]) items
  | m, .eom :: items => (if fastModeSwitch m then [] else m) ++ passFrom [] items

/-- The bytes of a stream. -/
def allBytes : List StreamItem → Bytes
  | [] => []
  | .byte b :: items => b :: allBytes items
  | .eom :: items => allBytes items

/-- What there is for the printer in a stream of messages. -/
def passMessages (clock : FastClock) (items : List StreamItem) : Bytes :=
  match clock with
  | .supported => allBytes items
  | .unsupported => passFrom [] items

/-- What the role passes on of some data events; `start` is whether the last one with bytes had a
    mark. -/
def handOver (clock : FastClock) : Bool → List (Bytes × Bool) → List Bytes
  | _, [] => []
  | start, (data, eom) :: cuts =>
    if data = [] then handOver clock start cuts
    else if (start && eom) ∧ fastModeSwitch data ∧ clock = .unsupported then
      handOver clock eom cuts
    else data :: handOver clock eom cuts

/-- Whether the last event with bytes had an EOM mark, and the bytes since the last mark. -/
structure Reader where
  start : Bool
  message : Bytes

namespace Reader

/-- One data event. -/
def step (r : Reader) (c : Bytes × Bool) : Reader where
  start := if c.1 = [] then r.start else c.2
  message := if c.2 then [] else r.message ++ c.1

/-- A switch that ends here has its mark on its byte, and the bytes before it
    had theirs. -/
def Seen (r : Reader) (c : Bytes × Bool) : Prop :=
  c.2 = true → fastModeSwitch (r.message ++ c.1) = true → c.1 ≠ [] ∧ r.start = true

instance (r : Reader) (c : Bytes × Bool) : Decidable (r.Seen c) :=
  inferInstanceAs (Decidable (_ → _ → _))

/-- A message does not begin in the middle of one. -/
def Sound (r : Reader) : Prop := r.start = true → r.message = []

end Reader

/-- Every switch among some data events is seen. -/
def SwitchesSeen (cuts : List (Bytes × Bool)) : Prop :=
  Along Reader.step Reader.Seen ⟨true, []⟩ cuts

instance (cuts : List (Bytes × Bool)) : Decidable (SwitchesSeen cuts) :=
  inferInstanceAs (Decidable (Along _ _ _ _))

section
variable {m data : Bytes} {items : List StreamItem} {cuts : List (Bytes × Bool)} {clock : FastClock}

theorem fastModeSwitch_length (h : fastModeSwitch m = true) : m.length = 1 := by
  simp only [fastModeSwitch, Bool.or_eq_true, beq_iff_eq] at h
  rcases h with rfl | rfl <;> rfl

theorem passFrom_bytes (m data : Bytes) (items : List StreamItem) :
    passFrom m (data.map .byte ++ items) = passFrom (m ++ data) items := by
  induction data generalizing m with
  | nil => simp
  | cons b data ih =>
    rw [List.map_cons, List.cons_append, passFrom, ih, List.append_assoc]
    rfl

theorem allBytes_bytes (data : Bytes) (items : List StreamItem) :
    allBytes (data.map .byte ++ items) = data ++ allBytes items := by
  induction data with
  | nil => rfl
  | cons b data ih => exact congrArg (b :: ·) ih

theorem passFrom_record (m data : Bytes) (eom : Bool) (items : List StreamItem) :
    passFrom m (record data eom ++ items) =
      if eom then (if fastModeSwitch (m ++ data) then [] else m ++ data) ++ passFrom [] items
      else passFrom (m ++ data) items := by
  rw [record, List.append_assoc, passFrom_bytes]
  cases eom <;> rfl

theorem allBytes_record (data : Bytes) (eom : Bool) (items : List StreamItem) :
    allBytes (record data eom ++ items) = data ++ allBytes items := by
  rw [record, List.append_assoc, allBytes_bytes]
  cases eom <;> rfl

theorem recordsOf_cons (c : Bytes × Bool) (cuts : List (Bytes × Bool)) :
    recordsOf (c :: cuts) = record c.1 c.2 ++ recordsOf cuts := rfl

theorem Reader.Sound.step {r : Reader} (h : r.Sound) (c : Bytes × Bool) : (r.step c).Sound := by
  simp only [Reader.Sound, Reader.step]
  split <;> split
  · exact fun _ => rfl
  · rename_i hdata hopen
    intro hstart
    rw [h hstart, hdata]
    rfl
  · exact fun _ => rfl
  · rename_i hopen
    exact fun hstart => absurd hstart hopen

theorem handOver_supported (start : Bool) (cuts : List (Bytes × Bool)) :
    (handOver .supported start cuts).flatten = allBytes (recordsOf cuts) := by
  induction cuts generalizing start with
  | nil => rfl
  | cons c cuts ih =>
    obtain ⟨data, eom⟩ := c
    rw [recordsOf_cons, allBytes_record, handOver]
    split
    · rename_i hdata
      rw [ih, hdata]
      rfl
    · rw [if_neg (by simp), List.flatten_cons, ih]

/-- What the role has passed on, with what there was of the message before. -/
def Reader.handed (r : Reader) (cuts : List (Bytes × Bool)) : Bytes :=
  r.message ++ (handOver .unsupported r.start cuts).flatten

theorem Reader.Sound.handed_cons {r : Reader} (h : r.Sound) (c : Bytes × Bool)
    (cuts : List (Bytes × Bool)) :
    ∃ p q : Bytes, r.handed (c :: cuts) = p ++ (r.step c).handed cuts ∧
      passFrom r.message (recordsOf (c :: cuts)) =
        q ++ passFrom (r.step c).message (recordsOf cuts) ∧
      (r.Seen c → p = q) ∧ (¬ r.Seen c → q.length < p.length) := by
  obtain ⟨data, eom⟩ := c
  obtain ⟨start, m⟩ := r
  rw [recordsOf_cons, passFrom_record]
  simp only [handed, handOver, Reader.step, Reader.Seen]
  rcases Bool.eq_false_or_eq_true eom with rfl | rfl
  · -- The message ends here.
    simp only [if_true, List.nil_append, forall_const]
    by_cases hswitch : fastModeSwitch (m ++ data) = true
    · rw [if_pos hswitch]
      by_cases hseen : data ≠ [] ∧ start = true
      · obtain ⟨hdata, rfl⟩ := hseen
        obtain rfl : m = [] := h rfl
        rw [if_neg hdata, if_neg hdata, if_pos (by simpa using hswitch)]
        exact ⟨[], [], rfl, rfl, fun _ => rfl, fun hn => absurd (fun _ => ⟨hdata, rfl⟩) hn⟩
      · refine ⟨m ++ data, [], ?_, rfl, fun hs => absurd (hs hswitch) hseen, fun _ => ?_⟩
        · by_cases hdata : data = []
          · rw [if_pos hdata, if_pos hdata, hdata, List.append_nil]
          · have hstart : start = false := by simpa [hdata] using hseen
            rw [if_neg hdata, if_neg hdata, if_neg (by simp [hstart]), List.flatten_cons,
              List.append_assoc]
        · rw [fastModeSwitch_length hswitch]
          exact Nat.zero_lt_one
    · rw [if_neg hswitch]
      refine ⟨m ++ data, m ++ data, ?_, rfl, fun _ => rfl, fun hn => absurd ?_ hn⟩
      · by_cases hdata : data = []
        · rw [if_pos hdata, if_pos hdata, hdata, List.append_nil]
        · have hkept : ¬ ((start && true) = true ∧ fastModeSwitch data = true ∧ True) := by
            rintro ⟨hstart, hone, -⟩
            obtain rfl : m = [] := h (by simpa using hstart)
            exact hswitch hone
          rw [if_neg hdata, if_neg hdata, if_neg hkept, List.flatten_cons, List.append_assoc]
      · exact fun hs => absurd hs hswitch
  · refine ⟨[], [], ?_, rfl, fun _ => rfl, fun hn => absurd nofun hn⟩
    by_cases hdata : data = []
    · simp [hdata]
    · simp [hdata]

theorem Reader.Sound.length_le {r : Reader} (h : r.Sound) (cuts : List (Bytes × Bool)) :
    (passFrom r.message (recordsOf cuts)).length ≤ (r.handed cuts).length := by
  induction cuts generalizing r with
  | nil => simp [handed, handOver, recordsOf, passFrom]
  | cons c cuts ih =>
    obtain ⟨p, q, hp, hq, hseen, hmissed⟩ := h.handed_cons c cuts
    have hrest := ih (h.step c)
    rw [hp, hq, List.length_append, List.length_append]
    by_cases hs : r.Seen c
    · rw [hseen hs]
      omega
    · have := hmissed hs
      omega

/-- **The filter of data events is that of messages** exactly where every switch
    is seen. -/
theorem Reader.Sound.handed_eq_iff {r : Reader} (h : r.Sound) (cuts : List (Bytes × Bool)) :
    r.handed cuts = passFrom r.message (recordsOf cuts) ↔
      Along Reader.step Reader.Seen r cuts := by
  induction cuts generalizing r with
  | nil => simp [handed, handOver, recordsOf, passFrom, Along]
  | cons c cuts ih =>
    obtain ⟨p, q, hp, hq, hseen, hmissed⟩ := h.handed_cons c cuts
    rw [hp, hq, Along, ← ih (h.step c)]
    by_cases hs : r.Seen c
    · rw [hseen hs, List.append_cancel_left_eq]
      exact (and_iff_right hs).symm
    · refine iff_of_false (fun heq => ?_) fun hand => hs hand.1
      have hlen := congrArg List.length heq
      have hle := (h.step c).length_le cuts
      have := hmissed hs
      rw [List.length_append, List.length_append] at hlen
      omega

end

section
variable {s : StyleWriterRole} {dc : UInt16} {kill : Bool}

theorem handleAdspEvent_data (hpipe : s.state = .piping dc kill) (now : Micros)
    (c : Bytes × Bool) (cuts : List (Bytes × Bool)) :
    ∃ t new, handleAdspEvent now s (.data dc c.1 c.2) = some t ∧
      t.state = s.state ∧ t.fastClock = s.fastClock ∧ t.fastClockOn = s.fastClockOn ∧
      t.events = s.events ++ new.map .toPrinter ∧
      handOver s.fastClock s.dataMsgStart (c :: cuts) =
        new ++ handOver s.fastClock t.dataMsgStart cuts := by
  obtain ⟨data, eom⟩ := c
  simp only [handleAdspEvent, hpipe, true_and, handOver]
  by_cases hdata : data = []
  · rw [if_neg (not_not_intro hdata), if_pos hdata]
    exact ⟨s, [], rfl, hpipe, rfl, rfl, (List.append_nil _).symm, rfl⟩
  rw [if_pos hdata, if_neg hdata]
  unfold handleData
  dsimp only
  by_cases hdrop : (s.dataMsgStart && eom) ∧ (data == [FAST_CLOCK] || data == [FAST_CLOCK_SW]) ∧
      s.fastClock = .unsupported
  · have hswitch : (s.dataMsgStart && eom) ∧ fastModeSwitch data ∧ s.fastClock = .unsupported :=
      hdrop
    rw [if_pos hdrop, if_pos hswitch]
    exact ⟨_, [], rfl, hpipe, rfl, rfl, (List.append_nil _).symm, rfl⟩
  · have hkept : ¬ ((s.dataMsgStart && eom) ∧ fastModeSwitch data ∧ s.fastClock = .unsupported) :=
      hdrop
    rw [if_neg hdrop, if_neg hkept]
    exact ⟨_, [data], rfl, hpipe, rfl, rfl, rfl, rfl⟩

theorem run_data (hpipe : s.state = .piping dc kill) (now : Micros)
    (cuts : List (Bytes × Bool)) :
    ∃ s', run (partialStep (handleAdspEvent now)) (some s)
        (cuts.map fun c => .data dc c.1 c.2) = some s' ∧
      s'.state = s.state ∧ s'.fastClockOn = s.fastClockOn ∧
      s'.events = s.events ++ (handOver s.fastClock s.dataMsgStart cuts).map .toPrinter := by
  induction cuts generalizing s with
  | nil => exact ⟨s, rfl, rfl, rfl, (List.append_nil _).symm⟩
  | cons c cuts ih =>
    obtain ⟨t, new, ht, hstate, hclock, hon, hevents, hover⟩ :=
      handleAdspEvent_data hpipe now c cuts
    obtain ⟨s', hrun, hstate', hon', hevents'⟩ := ih (hstate.trans hpipe)
    refine ⟨s', ?_, hstate'.trans hstate, hon'.trans hon, ?_⟩
    · rw [List.map_cons, run_cons, partialStep_some, ht, hrun]
    · rw [hevents', hevents, hover, hclock, List.map_append, List.append_assoc]

/-- **The fast mode filter sees messages**, exactly where every switch is seen: however the messages
    are cut, their bytes are passed on to the printer, without the switches where the port cannot
    follow it, if and only if, at such a port, every switch has its EOM mark in the event of its
    byte and the last event with bytes before that one had its own. -/
theorem filter_by_message_iff (hpipe : s.state = .piping dc kill) (hstart : s.dataMsgStart = true)
    (now : Micros) (cuts : List (Bytes × Bool)) :
    ∃ (s' : StyleWriterRole) (passed : List Bytes),
      run (partialStep (handleAdspEvent now)) (some s)
        (cuts.map fun c => .data dc c.1 c.2) = some s' ∧
      s'.state = s.state ∧ s'.fastClockOn = s.fastClockOn ∧
      s'.events = s.events ++ passed.map .toPrinter ∧
      (passed.flatten = passMessages s.fastClock (recordsOf cuts) ↔
        (s.fastClock = .unsupported → SwitchesSeen cuts)) := by
  obtain ⟨s', hrun, hstate, hon, hevents⟩ := run_data hpipe now cuts
  refine ⟨s', _, hrun, hstate, hon, hevents, ?_⟩
  rw [hstart]
  rcases hclock : s.fastClock with _ | _
  · exact iff_of_true (handOver_supported true cuts) nofun
  · have hsound : Reader.Sound ⟨true, []⟩ := fun _ => rfl
    exact (hsound.handed_eq_iff cuts).trans ⟨fun h _ => h, fun h => h rfl⟩

end

/-- A role with a job on a data connection, and a port of one kind or the other. -/
def piping (clock : FastClock) : StyleWriterRole :=
  { new 129 5 clock with state := .piping 9 false }

/-- Two messages, the second a switch, with their marks. -/
theorem filter_by_message_iff_piping : ∃ (s' : StyleWriterRole) (passed : List Bytes),
    run (partialStep (handleAdspEvent 0)) (some (piping .unsupported))
      [.data 9 [0x41] false, .data 9 [0x42] true, .data 9 [FAST_CLOCK] true] = some s' ∧
    s'.events = passed.map .toPrinter ∧ passed.flatten = [0x41, 0x42] := by
  obtain ⟨s', passed, hrun, -, -, hevents, hiff⟩ :=
    filter_by_message_iff (s := piping .unsupported) rfl rfl 0
      [([0x41], false), ([0x42], true), ([FAST_CLOCK], true)]
  exact ⟨s', passed, hrun, hevents, hiff.2 fun _ => by decide⟩

end StyleWriterRole

/-- A data packet on the data connection of the accepted job. -/
def pipePacket (seq : UInt32) (flags : UInt8) (data : Bytes) : RoleInput :=
  .datagram ⟨0, 10, 70⟩ (({ descriptor := .dataPacket
                            connectionId := 9
                            firstByteSeq := seq
                            nextRecvSeq := 0
                            recvWindow := 1024
                            flags } : AdspPacket).toBytes ++ data) 0

/-- Two messages, an `A` and a switch; in the second cutting the mark of the first comes in a
    packet of its own. -/
theorem cutting_changes_filter :
    recordsOf [([0x41], true), ([FAST_CLOCK], true)] =
      recordsOf [([0x41], false), ([], true), ([FAST_CLOCK], true)] ∧
    (run (partialStep RoleSession.step) (some (.start 129 5 .unsupported))
      (acceptedJob 7 ++ [answerDial .openConnReqAck,
        pipePacket 0 AdspPacket.FLAG_EOM [0x41],
        pipePacket 2 AdspPacket.FLAG_EOM [FAST_CLOCK]])).map (·.emitted) =
      some [.jobStarted [65], .toPrinter [0x41]] ∧
    (run (partialStep RoleSession.step) (some (.start 129 5 .unsupported))
      (acceptedJob 7 ++ [answerDial .openConnReqAck,
        pipePacket 0 0 [0x41],
        pipePacket 1 AdspPacket.FLAG_EOM [],
        pipePacket 2 AdspPacket.FLAG_EOM [FAST_CLOCK]])).map (·.emitted) =
      some [.jobStarted [65], .toPrinter [0x41], .toPrinter [FAST_CLOCK]] := by
  refine ⟨rfl, by decide, by decide⟩

end TailTalk
