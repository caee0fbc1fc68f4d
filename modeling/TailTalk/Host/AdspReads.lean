/-
  Reading an ADSP stream of the host.

  A read that waits is modelled by its poll, taken again at each wake-up:
  `none` is pending.  `Consumes` is what a poll may use of the stream, by what
  it returned, and `reads_framed` is the result, for every mix of reads and
  arrivals.
-/
import Mathlib.Order.MinMax
import TailTalk.Lib.Bytes
import TailTalk.Lib.Messages
import TailTalk.Lib.Run

namespace TailTalk

open Lib

/-- Why a read of a whole message failed. -/
inductive AdspReadError where
  /-- closed in the middle of a message -/
  | unexpectedEof
deriving DecidableEq

/-- The receive half of a stream. -/
structure ReadState where
  /-- chunks in the channel from the actor -/
  rx : List (Bytes × Bool)
  /-- the actor has hung up -/
  hungUp : Bool
  /-- bytes that nobody has read yet -/
  held : Bytes
  /-- where messages end in `held`, as offsets from its front -/
  eoms : List ℕ

namespace ReadState

/-- Nothing has come. -/
def new : ReadState := ⟨[], false, [], []⟩

/-- A chunk is moved into `held`. -/
def hold (s : ReadState) (data : Bytes) (eom : Bool) : ReadState :=
  { s with
    held := s.held ++ data
    eoms := if eom then s.eoms ++ [(s.held ++ data).length] else s.eoms }

/-- Move the next chunk from the channel; `false` at the end of the stream. -/
def pollChunk (s : ReadState) : Option Bool × ReadState :=
  match s.rx with
  | (data, eom) :: rx => (some true, { s with rx }.hold data eom)
  | [] => (if s.hungUp then some false else none, s)

/-- At most `fuel` turns of the loop of `poll_readable`. -/
def readableLoop : ℕ → ReadState → Bool × ReadState
  | 0, s => (false, s)
  | fuel + 1, s =>
    if s.held = [] ∧ s.eoms = [] then
      match s.pollChunk with
      | (some true, s) => readableLoop fuel s
      | (some false, s) => (true, s)
      | (none, s) => (false, s)
    else (true, s)

/-- Ready once there is something to read, or the stream has ended; a turn of the loop takes a
    chunk. -/
def pollReadable (s : ReadState) : Bool × ReadState := readableLoop (s.rx.length + 1) s

/-- Up to `max` held bytes, stopping at the end of a message, and whether they reached it. -/
def take (max : ℕ) (s : ReadState) : (Bytes × Bool) × ReadState :=
  let toEnd := s.eoms.head?.getD s.held.length
  let n := min toEnd max
  let eoms := s.eoms.map (· - n)
  let eom := eoms.head? == some 0
  ((s.held.take n, eom),
    { s with held := s.held.drop n, eoms := if eom then eoms.tail else eoms })

/-- At most `fuel` turns of the loop of `poll_take`. -/
def takeLoop (max : ℕ) : ℕ → ReadState → Option Bytes × ReadState
  | 0, s => (none, s)
  | fuel + 1, s =>
    match s.pollReadable with
    | (false, s) => (none, s)
    | (true, s) =>
      match s.take max with
      | ((bytes, eom), s) =>
        -- An empty message is skipped: an empty read means the end of the stream.
        if eom ∧ bytes = [] ∧ max > 0 then takeLoop max fuel s else (some bytes, s)

/-- `take` for a reader of bytes; a turn of the loop takes an end of a message. -/
def pollTake (max : ℕ) (s : ReadState) : Option Bytes × ReadState :=
  takeLoop max (s.eoms.length + s.rx.length + 1) s

/-- At most `fuel` turns of the loop of `poll_message`. -/
def messageLoop : ℕ → ReadState → Option (Except AdspReadError (Option Bytes)) × ReadState
  | 0, s => (none, s)
  | fuel + 1, s =>
    match s.eoms with
    | stop :: rest =>
      (some (.ok (some (s.held.take stop))),
        { s with held := s.held.drop stop, eoms := rest.map (· - stop) })
    | [] =>
      match s.pollChunk with
      | (some true, s) => messageLoop fuel s
      | (some false, s) => (some (if s.held = [] then .ok none else .error .unexpectedEof), s)
      | (none, s) => (none, s)

/-- The next whole message, once its end has arrived; a turn of the loop takes a chunk. -/
def pollMessage (s : ReadState) : Option (Except AdspReadError (Option Bytes)) × ReadState :=
  messageLoop (s.rx.length + 1) s

/-- The poll of `read_with_eom`. -/
def pollWithEom (max : ℕ) (s : ReadState) : Option (Bytes × Bool) × ReadState :=
  match s.pollReadable with
  | (false, s) => (none, s)
  | (true, s) => (some (s.take max).1, (s.take max).2)

end ReadState

/-! ## A stream and its reads -/

/-- A poll of a read, by the length of its buffer, and what it returned. -/
inductive AdspRead where
  | withEom (len : ℕ) (r : Option (Bytes × Bool))
  | data (len : ℕ) (r : Option Bytes)
  | message (r : Option (Except AdspReadError (Option Bytes)))
deriving DecidableEq

/-- What happens to the receive half: the actor sends or hangs up, and reads are polled. -/
inductive AdspReaderAct where
  | arrive (data : Bytes) (eom : Bool)
  | hangUp
  | readWithEom (len : ℕ)
  | readData (len : ℕ)
  | readMessage

/-- A receive half, the chunks the actor has sent and the polls so far. -/
structure AdspReader where
  state : ReadState
  arrived : List (Bytes × Bool)
  reads : List AdspRead

namespace AdspReader

/-- A stream that was just opened. -/
def new : AdspReader := ⟨.new, [], []⟩

/-- A chunk, a poll or the end. -/
def step (w : AdspReader) : AdspReaderAct → AdspReader
  | .arrive data eom =>
    if w.state.hungUp then w
    else
      { w with
        state := { w.state with rx := w.state.rx ++ [(data, eom)] }
        arrived := w.arrived ++ [(data, eom)] }
  | .hangUp => { w with state := { w.state with hungUp := true } }
  | .readWithEom len =>
    { w with
      state := (w.state.pollWithEom len).2
      reads := w.reads ++ [.withEom len (w.state.pollWithEom len).1] }
  | .readData len =>
    { w with
      state := (w.state.pollTake len).2
      reads := w.reads ++ [.data len (w.state.pollTake len).1] }
  | .readMessage =>
    { w with
      state := w.state.pollMessage.2
      reads := w.reads ++ [.message w.state.pollMessage.1] }

end AdspReader

/-! ## What the reads may use of the stream -/

/-- The bytes and marks of a stream: a mark is `none`. -/
abbrev StreamItems := List (Option UInt8)

/-- The bytes and marks of some chunks. -/
def itemsOf (chunks : List (Bytes × Bool)) : StreamItems := chunks.flatMap Messages.chunkItems

/-- After these items the stream has a mark that came in an empty chunk. -/
def BareMark (arrived : List (Bytes × Bool)) (before : StreamItems) : Prop :=
  ∃ cs ds, arrived = cs ++ ([], true) :: ds ∧ itemsOf cs = before

/-- What a poll uses of the stream after what was used before. -/
inductive Consumes (arrived : List (Bytes × Bool)) (shut : Bool) (before : StreamItems) :
    AdspRead → StreamItems → Prop
  | withEomWaits {len} : Consumes arrived shut before (.withEom len none) []
  | withEom {len bytes eom} (hlen : bytes.length ≤ len)
      (hbare : 0 < len → bytes = [] → eom = true ∧ BareMark arrived before) :
      Consumes arrived shut before (.withEom len (some (bytes, eom)))
        (Messages.chunkItems (bytes, eom))
  | withEomEnd {len} (hshut : shut = true) (hall : before = itemsOf arrived) :
      Consumes arrived shut before (.withEom len (some ([], false))) []
  | dataWaits {len} (skipped : ℕ) :
      Consumes arrived shut before (.data len none) (List.replicate skipped none)
  | data {len bytes} (skipped : ℕ) (eom : Bool) (hlen : bytes.length ≤ len)
      (hne : 0 < len → bytes ≠ []) : Consumes arrived shut before (.data len (some bytes))
        (List.replicate skipped none ++ Messages.chunkItems (bytes, eom))
  | dataEnd {len n} (hshut : shut = true)
      (hall : before ++ List.replicate n none = itemsOf arrived) :
      Consumes arrived shut before (.data len (some [])) (List.replicate n none)
  | messageWaits : Consumes arrived shut before (.message none) []
  | message {bytes} : Consumes arrived shut before (.message (some (.ok (some bytes))))
      (Messages.chunkItems (bytes, true))
  | messageEnd (hshut : shut = true) (hall : before = itemsOf arrived) :
      Consumes arrived shut before (.message (some (.ok none))) []
  | messageCut {rest} (hshut : shut = true) (hne : rest ≠ [])
      (hall : before ++ Messages.chunkItems (rest, false) = itemsOf arrived) :
      Consumes arrived shut before (.message (some (.error .unexpectedEof))) []

/-- What some polls used of the stream, one after the other. -/
inductive Used (arrived : List (Bytes × Bool)) (shut : Bool) : List AdspRead → StreamItems → Prop
  | start : Used arrived shut [] []
  | read {reads before r part} (h : Used arrived shut reads before)
      (hr : Consumes arrived shut before r part) : Used arrived shut (reads ++ [r]) (before ++ part)

section
variable {arrived : List (Bytes × Bool)} {shut : Bool} {before : StreamItems}

theorem itemsOf_append (cs ds : List (Bytes × Bool)) :
    itemsOf (cs ++ ds) = itemsOf cs ++ itemsOf ds := List.flatMap_append

theorem BareMark.arrive (h : BareMark arrived before) (c : Bytes × Bool) :
    BareMark (arrived ++ [c]) before := by
  obtain ⟨cs, ds, harrived, hitems⟩ := h
  exact ⟨cs, ds ++ [c], by simp [harrived], hitems⟩

theorem Used.arrive {reads : List AdspRead} (h : Used arrived false reads before)
    (c : Bytes × Bool) : Used (arrived ++ [c]) false reads before := by
  induction h with
  | start => exact .start
  | read h hr ih =>
    refine .read ih ?_
    cases hr with
    | withEomWaits => exact .withEomWaits
    | withEom hlen hbare =>
      exact .withEom hlen fun hpos hnil => (hbare hpos hnil).imp_right (·.arrive c)
    | dataWaits skipped => exact .dataWaits skipped
    | data skipped eom hlen hne => exact .data skipped eom hlen hne
    | messageWaits => exact .messageWaits
    | message => exact .message
    | withEomEnd hshut hall => cases hshut
    | dataEnd hshut hall => cases hshut
    | messageEnd hshut hall => cases hshut
    | messageCut hshut hne hall => cases hshut

theorem Used.hangUp {reads : List AdspRead} (h : Used arrived shut reads before) :
    Used arrived true reads before := by
  induction h with
  | start => exact .start
  | read h hr ih =>
    refine .read ih ?_
    cases hr with
    | withEomWaits => exact .withEomWaits
    | withEom hlen hbare => exact .withEom hlen hbare
    | withEomEnd hshut hall => exact .withEomEnd rfl hall
    | dataWaits skipped => exact .dataWaits skipped
    | data skipped eom hlen hne => exact .data skipped eom hlen hne
    | dataEnd hshut hall => exact .dataEnd rfl hall
    | messageWaits => exact .messageWaits
    | message => exact .message
    | messageEnd hshut hall => exact .messageEnd rfl hall
    | messageCut hshut hne hall => exact .messageCut rfl hne hall

end

/-! ## What a read state holds of the stream -/

/-- After `used`, the read state holds `m`, and the rest of what arrived is in the channel. -/
structure Tallies (arrived : List (Bytes × Bool)) (used : StreamItems) (s : ReadState)
    (m : Messages UInt8) : Prop where
  held : s.held = m.elems
  eoms : s.eoms = m.ends
  chunks : ∃ cs, arrived = cs ++ s.rx ∧ itemsOf cs = used ++ m.items
  /-- an empty message that is held came in an empty chunk -/
  bare : ∀ i, m.ended[i]? = some [] →
    BareMark arrived (used ++ Messages.items ⟨m.ended.take i, []⟩)

section
variable {arrived : List (Bytes × Bool)} {used : StreamItems} {s : ReadState}
  {m : Messages UInt8}

theorem Tallies.new : Tallies [] [] .new .empty :=
  ⟨rfl, rfl, ⟨[], rfl, rfl⟩, fun i h => by simp [Messages.empty] at h⟩

theorem Tallies.prefix (h : Tallies arrived used s m) : used <+: itemsOf arrived := by
  obtain ⟨cs, harrived, hitems⟩ := h.chunks
  rw [harrived, itemsOf_append, hitems, List.append_assoc]
  exact List.prefix_append _ _

/-- Where nothing is held and nothing in the channel, everything was used. -/
theorem Tallies.all (h : Tallies arrived used s m) (hrx : s.rx = []) :
    used ++ m.items = itemsOf arrived := by
  obtain ⟨cs, harrived, hitems⟩ := h.chunks
  rw [harrived, hrx, List.append_nil, hitems]

theorem Tallies.arrive (h : Tallies arrived used s m) (c : Bytes × Bool) :
    Tallies (arrived ++ [c]) used { s with rx := s.rx ++ [c] } m := by
  obtain ⟨cs, harrived, hitems⟩ := h.chunks
  exact ⟨h.held, h.eoms, ⟨cs, by simp [harrived], hitems⟩, fun i hi => (h.bare i hi).arrive c⟩

theorem Tallies.hangUp (h : Tallies arrived used s m) :
    Tallies arrived used { s with hungUp := true } m := ⟨h.held, h.eoms, h.chunks, h.bare⟩

theorem Tallies.empty_iff (h : Tallies arrived used s m) :
    s.held = [] ∧ s.eoms = [] ↔ m.ended = [] ∧ m.rest = [] := by
  rw [h.held, h.eoms, Messages.ends, Messages.offsets_eq_nil, Messages.elems]
  constructor
  · rintro ⟨helems, hended⟩
    rw [hended] at helems
    exact ⟨hended, helems⟩
  · rintro ⟨hended, hrest⟩
    rw [hended, hrest]
    exact ⟨rfl, rfl⟩

/-- A chunk is moved out of the channel. -/
theorem Tallies.hold (h : Tallies arrived used s m) {data : Bytes} {eom : Bool}
    {rx : List (Bytes × Bool)} (hrx : s.rx = (data, eom) :: rx) :
    Tallies arrived used ({ s with rx }.hold data eom) (m.push data eom) := by
  obtain ⟨cs, harrived, hitems⟩ := h.chunks
  rw [hrx] at harrived
  refine ⟨?_, ?_, ⟨cs ++ [(data, eom)], ?_, ?_⟩, fun i hi => ?_⟩
  · rw [Messages.elems_push, ReadState.hold, h.held]
  · rw [Messages.ends_push, ReadState.hold, h.held, h.eoms]
  · rw [harrived, List.append_assoc]
    rfl
  · rw [itemsOf_append, hitems, Messages.items_push, List.append_assoc]
    simp [itemsOf]
  · cases eom with
    | false => exact h.bare i hi
    | true =>
      rcases Nat.lt_trichotomy i m.ended.length with hlt | rfl | hgt
      · simp only [Messages.push, if_true, List.getElem?_append_left hlt] at hi ⊢
        rw [List.take_append_of_le_length hlt.le]
        exact h.bare i hi
      · -- The message that ends is empty: so is the chunk, and nothing of it was held.
        simp only [Messages.push, if_true, List.getElem?_concat_length, Option.some.injEq] at hi ⊢
        obtain ⟨hrest, rfl⟩ := List.append_eq_nil_iff.1 hi
        rw [List.take_left]
        refine ⟨cs, rx, harrived, hitems.trans ?_⟩
        rw [← hrest]
      · have hlen : (m.push data true).ended.length ≤ i := by
          simpa [Messages.push] using Nat.succ_le_of_lt hgt
        rw [List.getElem?_eq_none hlen] at hi
        cases hi

theorem Tallies.pollChunk (h : Tallies arrived used s m) :
    (s.rx = [] ∧ s.pollChunk = (if s.hungUp then some false else none, s)) ∨
      ∃ data eom s', s.pollChunk = (some true, s') ∧ s'.hungUp = s.hungUp ∧
        s'.rx.length + 1 = s.rx.length ∧ s'.eoms.length ≤ s.eoms.length + 1 ∧
        Tallies arrived used s' (m.push data eom) := by
  unfold ReadState.pollChunk
  rcases hrx : s.rx with _ | ⟨⟨data, eom⟩, rx⟩
  · exact .inl ⟨rfl, rfl⟩
  · refine .inr ⟨data, eom, _, rfl, rfl, rfl, ?_, h.hold hrx⟩
    simp only [ReadState.hold]
    split <;> simp

/-- What `poll_readable` comes to. -/
structure Readable (arrived : List (Bytes × Bool)) (used : StreamItems) (s : ReadState)
    (r : Bool × ReadState) (m : Messages UInt8) : Prop where
  tracks : Tallies arrived used r.2 m
  hungUp : r.2.hungUp = s.hungUp
  /-- each turn takes a chunk, which has at most one end -/
  taken : r.2.eoms.length + r.2.rx.length ≤ s.eoms.length + s.rx.length
  waits : r.1 = false → m.items = [] ∧ r.2.rx = [] ∧ s.hungUp = false
  ready : r.1 = true → m.items ≠ [] ∨ r.2.rx = [] ∧ s.hungUp = true

theorem Tallies.readableLoop {fuel : ℕ} (h : Tallies arrived used s m)
    (hfuel : s.rx.length < fuel) :
    ∃ m', Readable arrived used s (ReadState.readableLoop fuel s) m' := by
  induction fuel generalizing s m with
  | zero => cases hfuel
  | succ fuel ih =>
    unfold ReadState.readableLoop
    split_ifs with hempty
    · have hitems : m.items = [] := Messages.items_eq_nil.2 (h.empty_iff.1 hempty)
      rcases h.pollChunk with ⟨hrx, hpoll⟩ | ⟨data, eom, s', hpoll, hhung, hlen, heoms, h'⟩
      · rw [hpoll]
        cases hhung : s.hungUp with
        | true => exact ⟨m, h, rfl, le_rfl, nofun, fun _ => .inr ⟨hrx, hhung⟩⟩
        | false => exact ⟨m, h, rfl, le_rfl, fun _ => ⟨hitems, hrx, hhung⟩, nofun⟩
      · rw [hpoll]
        obtain ⟨m', hr⟩ := ih h' (by omega)
        refine ⟨m', hr.tracks, hr.hungUp.trans hhung, hr.taken.trans (by omega), ?_, ?_⟩
        · rw [← hhung]
          exact hr.waits
        · rw [← hhung]
          exact hr.ready
    · refine ⟨m, h, rfl, le_rfl, nofun, fun _ => .inl ?_⟩
      rw [ne_eq, Messages.items_eq_nil]
      exact fun hm => hempty (h.empty_iff.2 hm)

theorem Tallies.pollReadable (h : Tallies arrived used s m) :
    ∃ m', Readable arrived used s s.pollReadable m' := h.readableLoop (Nat.lt_succ_self _)

/-! ## What is taken -/

theorem Tallies.takeMessage {x : Bytes} {xs : List Bytes} {rest : Bytes}
    (h : Tallies arrived used s ⟨x :: xs, rest⟩) {s' : ReadState} (hrx : s'.rx = s.rx)
    (hheld : s'.held = s.held.drop x.length)
    (heoms : s'.eoms = s.eoms.tail.map (· - x.length)) :
    Tallies arrived (used ++ Messages.chunkItems (x, true)) s' ⟨xs, rest⟩ := by
  obtain ⟨cs, harrived, hitems⟩ := h.chunks
  refine ⟨?_, ?_, ⟨cs, by rw [harrived, hrx], ?_⟩, fun i hi => ?_⟩
  · rw [hheld, h.held, Messages.drop_elems le_rfl, List.drop_length, Messages.elems_nil_cons]
  · rw [heoms, h.eoms]
    exact Messages.offsets_tail x xs
  · rw [hitems, Messages.items_cons, List.append_assoc]
  · have hbare := h.bare (i + 1) (by simpa using hi)
    rwa [List.take_succ_cons, Messages.items_cons, ← List.append_assoc] at hbare

theorem Tallies.take (h : Tallies arrived used s m) (max : ℕ) :
    ∃ m', Tallies arrived (used ++ Messages.chunkItems (s.take max).1) (s.take max).2 m' ∧
      (s.take max).2.rx = s.rx ∧ (s.take max).2.hungUp = s.hungUp ∧
      (s.take max).1.1.length ≤ max ∧
      ((s.take max).1.2 = true → (s.take max).2.eoms.length < s.eoms.length) ∧
      (0 < max → m.items ≠ [] → (s.take max).1.1 = [] →
        (s.take max).1.2 = true ∧ BareMark arrived used) := by
  obtain ⟨ended, rest⟩ := m
  obtain ⟨cs, harrived, hitems⟩ := h.chunks
  rcases ended with _ | ⟨x, xs⟩
  · have heoms : s.eoms = [] := h.eoms
    have hheld : s.held = rest := h.held
    have htake : s.take max =
        ((rest.take (min rest.length max), false),
          { s with held := rest.drop (min rest.length max), eoms := [] }) := by
      simp [ReadState.take, heoms, hheld]
    rw [htake]
    refine ⟨⟨[], rest.drop (min rest.length max)⟩, ⟨?_, rfl, ⟨cs, harrived, ?_⟩, ?_⟩, rfl, rfl, ?_,
      fun heom => absurd heom Bool.false_ne_true, fun hpos hne hnil => absurd ?_ hne⟩
    · rfl
    · rw [hitems, List.append_assoc]
      simp only [Messages.items_nil, Messages.chunkItems, Bool.false_eq_true, if_false,
        List.append_nil]
      rw [← List.map_append, List.take_append_drop]
    · simp
    · rw [List.length_take]
      omega
    · have hlen : rest.length = 0 := by
        have hnil' := congrArg List.length hnil
        rw [List.length_take, List.length_nil] at hnil'
        omega
      rw [Messages.items_eq_nil]
      exact ⟨rfl, List.length_eq_zero_iff.1 hlen⟩
  · have heoms : s.eoms = Messages.offsets (x :: xs) := h.eoms
    have hheads : s.eoms.head?.getD s.held.length = x.length := by
      rw [heoms]
      rfl
    by_cases hshort : max < x.length
    · -- Part of the first message.
      have hmin : min x.length max = max := min_eq_right hshort.le
      have hpos : x.length - max ≠ 0 := by omega
      have htake : s.take max = ((x.take max, false),
          { s with
            held := s.held.drop max
            eoms := s.eoms.map (· - max) }) := by
        have hfirst : ((s.eoms.map (· - max)).head? == some 0) = false := by
          rw [heoms]
          simpa [Messages.offsets] using hpos
        have hbytes : s.held.take max = x.take max := by
          rw [h.held, Messages.take_elems hshort.le]
        simp only [ReadState.take, hheads, hmin, hfirst, hbytes, Bool.false_eq_true, if_false]
      rw [htake]
      refine ⟨⟨x.drop max :: xs, rest⟩, ⟨?_, ?_, ⟨cs, harrived, ?_⟩, fun i hi => ?_⟩, rfl, rfl, ?_,
        fun heom => absurd heom Bool.false_ne_true, fun hpos' _ hnil => ?_⟩
      · exact (congrArg (List.drop max) h.held).trans (Messages.drop_elems hshort.le xs rest)
      · exact (congrArg (List.map (· - max)) heoms).trans (Messages.offsets_drop hshort.le xs)
      · rw [hitems, List.append_assoc, ← Messages.items_take_drop]
      · cases i with
        | zero =>
          have hnil : x.drop max = [] := Option.some.inj hi
          rw [List.drop_eq_nil_iff] at hnil
          omega
        | succ i =>
          have hbare := h.bare (i + 1) hi
          rw [List.take_succ_cons] at hbare ⊢
          rwa [Messages.items_take_drop max x, ← List.append_assoc] at hbare
      · exact List.length_take_le max x
      · have hlen := congrArg List.length hnil
        rw [List.length_take, List.length_nil] at hlen
        omega
    · -- The whole of it.
      have hmin : min x.length max = x.length := min_eq_left (Nat.le_of_not_lt hshort)
      have htake : s.take max = ((x, true),
          { s with
            held := s.held.drop x.length
            eoms := (s.eoms.map (· - x.length)).tail }) := by
        have hfirst : ((s.eoms.map (· - x.length)).head? == some 0) = true := by
          rw [heoms]
          simp [Messages.offsets]
        have hbytes : s.held.take x.length = x := by
          rw [h.held, Messages.take_elems le_rfl, List.take_length]
        simp only [ReadState.take, hheads, hmin, hfirst, hbytes, if_true]
      rw [htake]
      refine ⟨⟨xs, rest⟩, h.takeMessage rfl rfl ?_, rfl, rfl, Nat.le_of_not_lt hshort, fun _ => ?_,
        fun _ _ hnil => ⟨rfl, ?_⟩⟩
      · exact List.map_tail.symm
      · rw [heoms]
        simp [Messages.offsets]
      · obtain rfl : x = [] := hnil
        have hbare := h.bare 0 rfl
        rwa [List.take_zero, Messages.items_nil, List.map_nil, List.append_nil] at hbare

/-- Nothing is taken where nothing is held. -/
theorem Tallies.take_empty (h : Tallies arrived used s m) (hm : m.items = []) (max : ℕ) :
    (s.take max).1 = ([], false) := by
  obtain ⟨hheld, heoms⟩ := h.empty_iff.2 (Messages.items_eq_nil.1 hm)
  simp [ReadState.take, hheld, heoms]

/-! ## What each read covers -/

/-- A mark that is skipped counts to the read that skipped it. -/
theorem Consumes.skip {shut : Bool} {len : ℕ} {r : Option Bytes} {part : StreamItems}
    (h : Consumes arrived shut (used ++ [none]) (.data len r) part) :
    Consumes arrived shut used (.data len r) (none :: part) := by
  cases h with
  | dataWaits skipped => exact .dataWaits (skipped + 1)
  | data skipped eom hlen hne => exact .data (skipped + 1) eom hlen hne
  | @dataEnd _ skipped hshut hall =>
    refine .dataEnd (n := skipped + 1) hshut ?_
    rwa [List.append_assoc] at hall

/-- What a poll comes to: it covers a part of the stream, and the rest is still held. -/
structure Polled (arrived : List (Bytes × Bool)) (used : StreamItems) (s : ReadState)
    (r : AdspRead) (s' : ReadState) (part : StreamItems) (m : Messages UInt8) : Prop where
  covers : Consumes arrived s.hungUp used r part
  tracks : Tallies arrived (used ++ part) s' m
  hungUp : s'.hungUp = s.hungUp

theorem Tallies.takeLoop {max fuel : ℕ} (h : Tallies arrived used s m)
    (hfuel : s.eoms.length + s.rx.length < fuel) :
    ∃ part m', Polled arrived used s (.data max (ReadState.takeLoop max fuel s).1)
      (ReadState.takeLoop max fuel s).2 part m' := by
  induction fuel generalizing s used m with
  | zero => cases hfuel
  | succ fuel ih =>
    obtain ⟨m₁, hr⟩ := h.pollReadable
    unfold ReadState.takeLoop
    rcases hpoll : s.pollReadable with ⟨ready, s₁⟩
    rw [hpoll] at hr
    cases ready with
    | false =>
      exact ⟨[], m₁, .dataWaits 0, by simpa using hr.tracks, hr.hungUp⟩
    | true =>
      obtain ⟨m₂, htracks, hrx, hhung, hlen, heoms, hbare⟩ := hr.tracks.take max
      dsimp only
      rcases htake : s₁.take max with ⟨⟨bytes, eom⟩, s₂⟩
      rw [htake] at htracks hrx hhung hlen heoms hbare
      dsimp only at htracks hrx hhung hlen heoms hbare ⊢
      split_ifs with hskip
      · -- An empty message, whose end is taken.
        obtain ⟨rfl, rfl, hpos⟩ := hskip
        have hless : s₂.eoms.length + s₂.rx.length < fuel := by
          have htaken := hr.taken
          have hdrop := heoms rfl
          rw [hrx]
          dsimp only at htaken
          omega
        obtain ⟨part, m₃, hcovers, htracks', hhung'⟩ := ih htracks hless
        have hsame : s₂.hungUp = s.hungUp := hhung.trans hr.hungUp
        rw [hsame] at hcovers hhung'
        refine ⟨none :: part, m₃, hcovers.skip, ?_, hhung'⟩
        simpa [Messages.chunkItems] using htracks'
      · by_cases hitems : m₁.items = []
        · -- The stream has ended.
          have hempty := hr.tracks.take_empty hitems max
          rw [htake] at hempty
          obtain ⟨rfl, rfl⟩ := Prod.mk.inj hempty
          obtain ⟨hrx', hshut⟩ := (hr.ready rfl).resolve_left fun hne => hne hitems
          have hall := hr.tracks.all hrx'
          rw [hitems] at hall
          exact ⟨[], m₂, .dataEnd (n := 0) hshut hall,
            by simpa [Messages.chunkItems] using htracks, hhung.trans hr.hungUp⟩
        · refine ⟨_, m₂, .data 0 eom hlen fun hpos hnil => hskip ?_, htracks, hhung.trans hr.hungUp⟩
          exact ⟨(hbare hpos hitems hnil).1, hnil, hpos⟩

theorem Tallies.pollTake (h : Tallies arrived used s m) (max : ℕ) :
    ∃ part m', Polled arrived used s (.data max (s.pollTake max).1) (s.pollTake max).2 part m' :=
  h.takeLoop (Nat.lt_succ_self _)

theorem Tallies.pollWithEom (h : Tallies arrived used s m) (max : ℕ) :
    ∃ part m', Polled arrived used s (.withEom max (s.pollWithEom max).1) (s.pollWithEom max).2
      part m' := by
  obtain ⟨m₁, hr⟩ := h.pollReadable
  unfold ReadState.pollWithEom
  rcases hpoll : s.pollReadable with ⟨ready, s₁⟩
  rw [hpoll] at hr
  cases ready with
  | false => exact ⟨[], m₁, .withEomWaits, by simpa using hr.tracks, hr.hungUp⟩
  | true =>
    obtain ⟨m₂, htracks, -, hhung, hlen, -, hbare⟩ := hr.tracks.take max
    dsimp only at hhung htracks hlen hbare ⊢
    by_cases hitems : m₁.items = []
    · have hempty := hr.tracks.take_empty hitems max
      dsimp only at hempty
      obtain ⟨hrx', hshut⟩ := (hr.ready rfl).resolve_left fun hne => hne hitems
      have hall := hr.tracks.all hrx'
      rw [hitems, List.append_nil] at hall
      rw [hempty] at htracks ⊢
      exact ⟨[], m₂, .withEomEnd hshut hall, by simpa [Messages.chunkItems] using htracks,
        hhung.trans hr.hungUp⟩
    · exact ⟨_, m₂, .withEom hlen fun hpos hnil => hbare hpos hitems hnil, htracks,
        hhung.trans hr.hungUp⟩

theorem Tallies.messageLoop {fuel : ℕ} (h : Tallies arrived used s m)
    (hfuel : s.rx.length < fuel) :
    ∃ part m', Polled arrived used s (.message (ReadState.messageLoop fuel s).1)
        (ReadState.messageLoop fuel s).2 part m' ∧
      ((ReadState.messageLoop fuel s).1 = none →
        s.hungUp = false ∧ part = [] ∧ m'.ended = [] ∧ used ++ m'.items = itemsOf arrived) := by
  induction fuel generalizing s m with
  | zero => cases hfuel
  | succ fuel ih =>
    obtain ⟨ended, rest⟩ := m
    unfold ReadState.messageLoop
    rcases ended with _ | ⟨x, xs⟩
    · have heoms : s.eoms = [] := h.eoms
      have hheld : s.held = rest := h.held
      rw [heoms]
      dsimp only
      rcases h.pollChunk with ⟨hrx, hpoll⟩ | ⟨data, eom, s', hpoll, hhung, hlen, -, h'⟩
      · have hall := h.all hrx
        rw [hpoll]
        cases hshut : s.hungUp with
        | false =>
          exact ⟨[], ⟨[], rest⟩, ⟨.messageWaits, by simpa using h, rfl⟩, fun _ =>
            ⟨rfl, rfl, rfl, hall⟩⟩
        | true =>
          simp only [if_true]
          by_cases hrest : rest = []
          · rw [if_pos (hheld.trans hrest)]
            rw [hrest] at hall h
            refine ⟨[], ⟨[], []⟩, ⟨.messageEnd hshut ?_, by simpa using h, rfl⟩,
              fun hnone => by cases hnone⟩
            simpa using hall
          · rw [if_neg (by rwa [hheld])]
            refine ⟨[], ⟨[], rest⟩, ⟨.messageCut hshut hrest ?_, by simpa using h, rfl⟩,
              fun hnone => by cases hnone⟩
            simpa [Messages.chunkItems] using hall
      · rw [hpoll]
        obtain ⟨part, m', hp, hwaits⟩ := ih h' (by omega)
        refine ⟨part, m', ⟨?_, hp.tracks, hp.hungUp.trans hhung⟩, fun hr => ?_⟩
        · rw [← hhung]
          exact hp.covers
        · rw [← hhung]
          exact hwaits hr
    · have heoms : s.eoms = x.length :: (Messages.offsets xs).map (· + x.length) := h.eoms
      have hbytes : s.held.take x.length = x := by
        rw [h.held, Messages.take_elems le_rfl, List.take_length]
      rw [heoms]
      dsimp only
      rw [hbytes]
      refine ⟨_, ⟨xs, rest⟩, ⟨.message, h.takeMessage rfl rfl ?_, rfl⟩,
        fun hnone => by cases hnone⟩
      rw [heoms]
      rfl

/-- A message that is not there yet is waited for until the actor hangs up. -/
theorem Tallies.pollMessage (h : Tallies arrived used s m) :
    ∃ part m', Polled arrived used s (.message s.pollMessage.1) s.pollMessage.2 part m' ∧
      (s.pollMessage.1 = none →
        s.hungUp = false ∧ part = [] ∧ m'.ended = [] ∧ used ++ m'.items = itemsOf arrived) :=
  h.messageLoop (Nat.lt_succ_self _)

end

/-! ## A stream read by messages alone -/

namespace AdspRead

/-- The read returned a whole message. -/
def IsMessage : AdspRead → Prop
  | .message _ => True
  | .withEom .. | .data .. => False

/-- The message that a poll returned. -/
def message? : AdspRead → Option Bytes
  | .message (some (.ok bytes)) => bytes
  | .message (some (.error _)) | .message none | .withEom .. | .data .. => none

end AdspRead

/-- The messages that some polls returned. -/
def messagesOf (reads : List AdspRead) : List Bytes := reads.filterMap AdspRead.message?

section
variable {arrived : List (Bytes × Bool)} {shut : Bool} {used : StreamItems}
  {reads : List AdspRead}

theorem itemsOf_eq (arrived : List (Bytes × Bool)) :
    itemsOf arrived = (Messages.ofChunks arrived).items := (Messages.items_ofChunks arrived).symm

theorem Used.messages (h : Used arrived shut reads used) (honly : ∀ r ∈ reads, r.IsMessage) :
    used = Messages.items ⟨messagesOf reads, []⟩ := by
  induction h with
  | start => rfl
  | @read reads before r part h hr ih =>
    have hbefore := ih fun r' hr' => honly r' (List.mem_append_left _ hr')
    have hmessage := honly r (List.mem_append_right _ List.mem_cons_self)
    rw [messagesOf, List.filterMap_append, Messages.items_append, hbefore, messagesOf]
    congr 1
    cases hr with
    | withEomWaits => cases hmessage
    | withEom hlen hbare => cases hmessage
    | withEomEnd hshut hall => cases hmessage
    | dataWaits skipped => cases hmessage
    | data skipped eom hlen hne => cases hmessage
    | dataEnd hshut hall => cases hmessage
    | messageWaits => rfl
    | message => exact (List.append_nil _).symm.trans (Messages.items_cons _ [] []).symm
    | messageEnd hshut hall => rfl
    | messageCut hshut hne hall => rfl

theorem ofChunks_of_items {xs : List Bytes} {rest : Bytes}
    (h : Messages.items ⟨xs, []⟩ ++ Messages.chunkItems (rest, false) = itemsOf arrived) :
    Messages.ofChunks arrived = ⟨xs, rest⟩ := by
  rw [itemsOf_eq] at h
  obtain ⟨ys, hended, hrest⟩ := Messages.ended_of_items h
  have hmark : none ∉ Messages.items ⟨ys, (Messages.ofChunks arrived).rest⟩ := by
    rw [← hrest]
    simp [Messages.chunkItems]
  cases ys with
  | nil =>
    rw [List.append_nil] at hended
    have hsame : rest = (Messages.ofChunks arrived).rest := by
      refine List.map_inj_right (f := some) (fun _ _ => Option.some.inj) |>.1 ?_
      simpa [Messages.chunkItems] using hrest
    rw [← hended, hsame]
  | cons y ys => simp [Messages.items_cons, Messages.chunkItems] at hmark

theorem Used.ended (h : Used arrived shut reads used) (honly : ∀ r ∈ reads, r.IsMessage) :
    (.message (some (.ok none)) ∈ reads → shut = true ∧
        (Messages.ofChunks arrived).ended <+: messagesOf reads ∧
        (Messages.ofChunks arrived).rest = []) ∧
      (.message (some (.error .unexpectedEof)) ∈ reads → shut = true ∧
        (Messages.ofChunks arrived).ended <+: messagesOf reads ∧
        (Messages.ofChunks arrived).rest ≠ []) := by
  induction h with
  | start => exact ⟨nofun, nofun⟩
  | @read reads before r part h hr ih =>
    have honly' : ∀ r ∈ reads, r.IsMessage := fun r' hr' => honly r' (List.mem_append_left _ hr')
    have hbefore := h.messages honly'
    obtain ⟨hend, hcut⟩ := ih honly'
    have hgrow : messagesOf reads <+: messagesOf (reads ++ [r]) :=
      ⟨messagesOf [r], (List.filterMap_append ..).symm⟩
    refine ⟨fun hmem => ?_, fun hmem => ?_⟩
    · rcases List.mem_append.1 hmem with hmem | hmem
      · obtain ⟨hshut, hpre, hrest⟩ := hend hmem
        exact ⟨hshut, hpre.trans hgrow, hrest⟩
      · obtain rfl := List.mem_singleton.1 hmem
        cases hr with
        | messageEnd hshut hall =>
          have hm : Messages.ofChunks arrived = ⟨messagesOf reads, []⟩ :=
            ofChunks_of_items (by rw [← hall, hbefore]; simp [Messages.chunkItems])
          rw [hm]
          exact ⟨hshut, hgrow, rfl⟩
    · rcases List.mem_append.1 hmem with hmem | hmem
      · obtain ⟨hshut, hpre, hrest⟩ := hcut hmem
        exact ⟨hshut, hpre.trans hgrow, hrest⟩
      · obtain rfl := List.mem_singleton.1 hmem
        cases hr with
        | @messageCut rest hshut hne hall =>
          have hm : Messages.ofChunks arrived = ⟨messagesOf reads, rest⟩ :=
            ofChunks_of_items (by rw [← hbefore, hall])
          rw [hm]
          exact ⟨hshut, hgrow, hne⟩

theorem Used.messages_prefix (h : Used arrived shut reads used)
    (honly : ∀ r ∈ reads, r.IsMessage) (hpre : used <+: itemsOf arrived) :
    messagesOf reads <+: (Messages.ofChunks arrived).ended := by
  obtain ⟨more, hmore⟩ := hpre
  rw [h.messages honly, itemsOf_eq] at hmore
  obtain ⟨ys, hended, -⟩ := Messages.ended_of_items hmore
  exact ⟨ys, hended.symm⟩

end

/-! ## Along a run -/

namespace AdspReader

/-- The polls so far used some of the stream, and the rest is there. -/
def Good (w : AdspReader) : Prop :=
  ∃ used m, Used w.arrived w.state.hungUp w.reads used ∧ Tallies w.arrived used w.state m

theorem Good.step {w : AdspReader} (h : w.Good) (a : AdspReaderAct) : (w.step a).Good := by
  obtain ⟨used, m, hused, htracks⟩ := h
  have hpolled : ∀ {r s' part m'}, Polled w.arrived used w.state r s' part m' →
      ({ w with state := s', reads := w.reads ++ [r] } : AdspReader).Good := by
    rintro r s' part m' ⟨hcovers, htracks', hhung⟩
    refine ⟨used ++ part, m', ?_, htracks'⟩
    rw [hhung]
    exact hused.read hcovers
  cases a with
  | arrive data eom =>
    unfold AdspReader.step
    split_ifs with hshut
    · exact ⟨used, m, hused, htracks⟩
    · have hopen : w.state.hungUp = false := Bool.eq_false_iff.2 hshut
      refine ⟨used, m, ?_, htracks.arrive _⟩
      rw [hopen] at hused ⊢
      exact hused.arrive _
  | hangUp => exact ⟨used, m, hused.hangUp, htracks.hangUp⟩
  | readWithEom len =>
    obtain ⟨part, m', hp⟩ := htracks.pollWithEom len
    exact hpolled hp
  | readData len =>
    obtain ⟨part, m', hp⟩ := htracks.pollTake len
    exact hpolled hp
  | readMessage =>
    obtain ⟨part, m', hp, -⟩ := htracks.pollMessage
    exact hpolled hp

theorem good_run (acts : List AdspReaderAct) : (run step new acts).Good :=
  inv_run step (fun _ a h _ => h.step a)
    ⟨[], .empty, .start, .new⟩ (along_true step acts)

/-- A stream whose reads return what its peer sent. -/
structure Framed (w : AdspReader) : Prop where
  /-- the reads, one after the other, cover the beginning of the stream -/
  used : ∃ used, Used w.arrived w.state.hungUp w.reads used ∧ used <+: itemsOf w.arrived
  /-- reads of whole messages return the messages in order -/
  messages : (∀ r ∈ w.reads, r.IsMessage) →
    messagesOf w.reads <+: (Messages.ofChunks w.arrived).ended
  /-- the next one waits only where every message that has ended was returned -/
  waits : (∀ r ∈ w.reads, r.IsMessage) → w.state.pollMessage.1 = none →
    w.state.hungUp = false ∧ messagesOf w.reads = (Messages.ofChunks w.arrived).ended
  /-- they find the end of the stream after the last message, where that has ended -/
  closed : (∀ r ∈ w.reads, r.IsMessage) → .message (some (.ok none)) ∈ w.reads →
    w.state.hungUp = true ∧ Messages.ofChunks w.arrived = ⟨messagesOf w.reads, []⟩
  /-- and that it was cut off, where it has not -/
  cut : (∀ r ∈ w.reads, r.IsMessage) → .message (some (.error .unexpectedEof)) ∈ w.reads →
    w.state.hungUp = true ∧ (Messages.ofChunks w.arrived).ended = messagesOf w.reads ∧
      (Messages.ofChunks w.arrived).rest ≠ []

/-- **Reading a stream of the host**, by any mix of reads and arrivals. -/
theorem reads_framed (acts : List AdspReaderAct) : (run step new acts).Framed := by
  have hgood := good_run acts
  generalize run step new acts = w at hgood ⊢
  obtain ⟨used, m, hused, htracks⟩ := hgood
  have hfront := fun honly => hused.messages_prefix honly htracks.prefix
  refine ⟨⟨used, hused, htracks.prefix⟩, hfront, fun honly hnone => ?_, fun honly hmem => ?_,
    fun honly hmem => ?_⟩
  · obtain ⟨part, m', -, hwaits⟩ := htracks.pollMessage
    obtain ⟨hopen, -, hended, hall⟩ := hwaits hnone
    obtain ⟨ended, rest⟩ := m'
    obtain rfl : ended = [] := hended
    have hm : Messages.ofChunks w.arrived = ⟨messagesOf w.reads, rest⟩ := by
      refine ofChunks_of_items ?_
      rw [← hused.messages honly, ← hall]
      simp [Messages.chunkItems]
    rw [hm]
    exact ⟨hopen, rfl⟩
  · obtain ⟨hshut, hpre, hrest⟩ := (hused.ended honly).1 hmem
    refine ⟨hshut, ?_⟩
    have hended := (hfront honly).eq_of_length_le hpre.length_le
    rw [hended, ← hrest]
  · obtain ⟨hshut, hpre, hrest⟩ := (hused.ended honly).2 hmem
    exact ⟨hshut, ((hfront honly).eq_of_length_le hpre.length_le).symm, hrest⟩

/-! ## Marks that come late, and empty buffers -/

/-- The poll reported the end of a message. -/
def Marks : AdspRead → Bool
  | .withEom _ (some (_, eom)) => eom
  | .message (some (.ok (some _))) => true
  | .withEom _ none | .data .. | .message (some (.ok none)) | .message (some (.error _))
  | .message none => false

/-- A mark that is reported alone is that of an empty message. -/
def AloneIfEmpty (w : AdspReader) : Prop :=
  ∀ before len after, w.reads = before ++ .withEom len (some ([], true)) :: after →
    (Messages.ofChunks w.arrived).ended[(before.filter Marks).length]? = some []

/-- A read of no byte finds the end of the stream. -/
def ZeroAtEnd (w : AdspReader) : Prop :=
  ∀ len, .data len (some []) ∈ w.reads → w.state.hungUp = true

/-- The mark of "hi" comes after its bytes have gone out; one read has an empty buffer. -/
def lateMark : List AdspReaderAct :=
  [.arrive [104, 105] false, .readData 0, .readWithEom 4, .arrive [] true, .readWithEom 4]

/-- The mark is reported alone, after its message; and the empty buffer got no byte before the end
    of the stream. -/
theorem lateMark_not_framed :
    ¬ (run step new lateMark).AloneIfEmpty ∧ ¬ (run step new lateMark).ZeroAtEnd := by
  constructor
  · intro h
    have halone := h [.data 0 (some []), .withEom 4 (some ([104, 105], false))] 4 [] (by decide)
    revert halone
    decide
  · intro h
    have hend := h 0 (by decide)
    revert hend
    decide

end AdspReader

end TailTalk
