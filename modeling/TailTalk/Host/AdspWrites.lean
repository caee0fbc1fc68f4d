/-
  Writing to an ADSP stream of the host.

  A flush and `write_eom` send the buffer to the actor as a command, and wait
  for its answer, which comes once the peer's window has admitted all of it.  A
  future that waits is its poll, taken again at each wake-up; dropping a flush
  changes nothing, and dropping `write_eom` is a step.
-/
import TailTalk.Adsp.Segmentation

namespace TailTalk

open Lib

/-- How a write failed. -/
inductive AdspWriteError where
  /-- the connection is gone -/
  | notConnected
  /-- the connection closed while the write waited -/
  | connectionAborted
  /-- the actor has ended -/
  | brokenPipe
deriving DecidableEq

/-- Where a `write_eom` is suspended. -/
inductive EomCall where
  /-- it waits for room in the channel, the buffer in hand -/
  | sending (data : Bytes)
  /-- it waits for the answer to a command -/
  | waiting (command : ℕ)

/-- What the endpoint does to a connection that is no write of its owner. -/
inductive ConnOp where
  | handleData (w key : UInt16) (packet : AdspPacket) (data : Bytes) (now : Micros)
  | retransmitAdvice (w : UInt16) (packet : AdspPacket) (now : Micros)
  | resendUnacked (w : UInt16) (now : Micros)
  | sendAck (w : UInt16)
  | handleAttention (key : UInt16) (packet : AdspPacket) (data : Bytes)
  | handleAttentionAck (key : UInt16) (packet : AdspPacket)
  | startAttention (code : UInt16) (data : Bytes) (now : Micros)
  | pollAttention (key : UInt16) (now : Micros)

/-- The operation on the connection. -/
def ConnOp.run (c : Connection) : ConnOp → Connection
  | .handleData w key packet data now => (c.handleData w key packet data now).conn
  | .retransmitAdvice w packet now =>
    ((c.applyAck w packet now).andThen (Connection.resendUnacked w now)).conn
  | .resendUnacked w now => (c.resendUnacked w now).conn
  | .sendAck w => (c.sendAck w).conn
  | .handleAttention key packet data => (c.handleAttention key packet data).conn
  | .handleAttentionAck key packet => (c.handleAttentionAck key packet).conn
  | .startAttention code data now => (c.startAttention code data now).conn
  | .pollAttention key now => (c.pollAttention key now).conn

/-- The stream, its channel, and the actor's half of the connection. -/
structure AdspWriter where
  writeBuf : Bytes
  /-- the command whose answer a flush is waiting on -/
  flushReply : Option ℕ
  eomCall : Option EomCall
  /-- the commands of the stream, in the order in which they were put into the channel -/
  sent : List (Bytes × Bool)
  /-- how many of them the actor has taken -/
  taken : ℕ
  /-- the connection, until it closes -/
  conn : Option Connection
  /-- it has been re-keyed, and commands no longer find it -/
  moved : Bool
  /-- writes handed to the endpoint, oldest first, with their commands -/
  writes : List (ℕ × ℕ)
  /-- the actor has ended -/
  dead : Bool
  /-- the answers given to the commands -/
  replies : ℕ → Option (Except AdspWriteError Unit)
  /-- what was written to the stream, a mark for each `write_eom` that was not given up -/
  written : List StreamItem
  /-- the commands of the writes in the endpoint's queue -/
  queue : List ℕ
  /-- the commands that the peer's window has admitted -/
  admitted : List ℕ
  /-- the commands nobody waits for any more: that failed, or whose `write_eom` was dropped -/
  forsaken : List ℕ

/-- What happens to a stream and to the actor behind it. -/
inductive AdspWriterAct where
  | pollWrite (buf : Bytes)
  /-- `poll_flush`, up to the answer; the channel has room or not -/
  | pollFlush (room : Bool)
  /-- its look at the answer -/
  | pollReply
  | writeEom
  | pollEom (room : Bool)
  | dropEom
  /-- the actor takes a command -/
  | take (w : UInt16)
  | conn (op : ConnOp)
  | settleWrites
  | closed
  /-- the connection is re-keyed; the plumbing follows it or not -/
  | rekey (follows : Bool)
  /-- a connection is opened under the ConnID of the stream -/
  | opened (ourConnId : UInt16) (remote : ServiceAddress) (window : UInt16) (now : Micros)
  | ended

namespace AdspWriter

/-- A stream that was just opened. -/
def start (ourConnId : UInt16) (remote : ServiceAddress) (window : UInt16) (now : Micros) :
    AdspWriter where
  writeBuf := []
  flushReply := none
  eomCall := none
  sent := []
  taken := 0
  conn := some (.new ourConnId remote window now)
  moved := false
  writes := []
  dead := false
  replies := fun _ => none
  written := []
  queue := []
  admitted := []
  forsaken := []

/-! ## The stream -/

/-- A command is put into the channel. -/
def send (s : AdspWriter) (data : Bytes) (eom : Bool) : AdspWriter :=
  { s with sent := s.sent ++ [(data, eom)] }

/-- The caller of a command has its answer. -/
def settle (s : AdspWriter) (command : ℕ) : Except AdspWriteError Unit → AdspWriter
  | .ok () => s
  | .error _ => { s with forsaken := s.forsaken ++ [command] }

/-- More in the buffer. -/
def pollWrite (s : AdspWriter) (buf : Bytes) : AdspWriter :=
  { s with writeBuf := s.writeBuf ++ buf, written := s.written ++ buf.map .byte }

/-- The first half of `poll_flush`; where the actor has ended it fails, and keeps the buffer. -/
def pollFlush (s : AdspWriter) (room : Bool) : AdspWriter :=
  if s.flushReply = none ∧ s.writeBuf ≠ [] ∧ ¬ s.dead ∧ room then
    { s.send s.writeBuf false with writeBuf := [], flushReply := some s.sent.length }
  else s

/-- The second half. -/
def pollReply (s : AdspWriter) : AdspWriter :=
  match s.flushReply with
  | none => s
  | some command =>
    match s.replies command with
    | none => s
    | some result => { s.settle command result with flushReply := none }

/-- The buffer and the end of a message, as one command. -/
def writeEom (s : AdspWriter) : AdspWriter :=
  { s with
    writeBuf := []
    eomCall := some (.sending s.writeBuf)
    written := s.written ++ [.eom] }

/-- A `write_eom` is over before its command was sent: there is no mark. -/
def giveUp (s : AdspWriter) : AdspWriter :=
  { s with eomCall := none, written := s.written.dropLast }

/-- The future of it is polled. -/
def pollEom (s : AdspWriter) (room : Bool) : AdspWriter :=
  match s.eomCall with
  | none => s
  | some (.sending data) =>
    if s.dead then s.giveUp
    else if room then { s.send data true with eomCall := some (.waiting s.sent.length) }
    else s
  | some (.waiting command) =>
    match s.replies command with
    | none => s
    | some result => { s.settle command result with eomCall := none }

/-- The future of it is dropped. -/
def dropEom (s : AdspWriter) : AdspWriter :=
  match s.eomCall with
  | none => s
  | some (.sending _) => s.giveUp
  | some (.waiting command) => { s with eomCall := none, forsaken := s.forsaken ++ [command] }

/-! ## The actor -/

/-- The connection goes on from `c` to `c'`: the writes that left its queue have been admitted. -/
def serve (s : AdspWriter) (queue : List ℕ) (c c' : Connection) : AdspWriter :=
  let n := c.pendingWrites.length - c'.pendingWrites.length
  { s with
    conn := some c'
    queue := queue.drop n
    admitted := s.admitted ++ queue.take n }

/-- The actor takes the next command. -/
def take (s : AdspWriter) (w : UInt16) : AdspWriter :=
  match s.sent[s.taken]?, s.conn, s.moved with
  | none, _, _ => s
  | some (data, eom), some c, false =>
    { s with
      taken := s.taken + 1
      writes := s.writes ++ [(c.writesSubmitted + 1, s.taken)] }.serve (s.queue ++ [s.taken])
        (c.queueWrite data eom) ((c.queueWrite data eom).pump w none).conn
  | some _, _, _ =>
    { s with
      taken := s.taken + 1
      replies := Function.update s.replies s.taken (some (.error .notConnected)) }

/-- Answer some commands. -/
def answer (s : AdspWriter) (writes : List (ℕ × ℕ)) (result : Except AdspWriteError Unit) :
    AdspWriter :=
  { s with replies := fun j => if j ∈ writes.map (·.2) then some result else s.replies j }

/-- Complete every write the endpoint has finished cutting into packets. -/
def settleWrites (s : AdspWriter) : AdspWriter :=
  match s.conn with
  | none => s
  | some c =>
    { s.answer (s.writes.takeWhile fun w => w.1 ≤ c.writesCompleted) (.ok ()) with
      writes := s.writes.dropWhile fun w => w.1 ≤ c.writesCompleted }

/-- The connection has closed; the callers still waiting fail. -/
def closed (s : AdspWriter) : AdspWriter :=
  { s.answer s.writes (.error .connectionAborted) with
    conn := none
    moved := false
    writes := []
    queue := [] }

/-- The peer opens anew. -/
def rekey (s : AdspWriter) (follows : Bool) : AdspWriter :=
  if follows then { s with moved := true } else { s with conn := none, queue := [] }

/-- Its plumbing replaces what was there, and the callers waiting on that get no answer. -/
def opened (s : AdspWriter) (c : Connection) : AdspWriter :=
  match s.conn with
  | some _ => s
  | none =>
    { s.answer s.writes (.error .brokenPipe) with
      conn := some c
      moved := false
      writes := []
      queue := [] }

/-- The connection is gone. -/
def ended (s : AdspWriter) : AdspWriter :=
  { s with
    dead := true
    replies := fun j => (s.replies j).or (some (.error .brokenPipe)) }

/-- One step.  While a `write_eom` is suspended it has the stream to itself. -/
def step (s : AdspWriter) : AdspWriterAct → AdspWriter
  | .pollWrite buf => if s.eomCall = none then s.pollWrite buf else s
  | .pollFlush room => if s.eomCall = none then s.pollFlush room else s
  | .pollReply => if s.eomCall = none then s.pollReply else s
  | .writeEom => if s.eomCall = none then s.writeEom else s
  | .pollEom room => s.pollEom room
  | .dropEom => s.dropEom
  | .take w => if s.dead then s else s.take w
  | .conn op => if s.dead then s else s.conn.elim s fun c => s.serve s.queue c (op.run c)
  | .settleWrites => if s.dead then s else s.settleWrites
  | .closed => if s.dead then s else s.closed
  | .rekey follows => if s.dead then s else s.rekey follows
  | .opened ourConnId remote window now =>
    if s.dead then s else s.opened (.new ourConnId remote window now)
  | .ended => s.ended

/-! ## What writes are to do -/

/-- What was written and is not yet sent. -/
def unsent (s : AdspWriter) : List StreamItem :=
  match s.eomCall with
  | some (.sending data) => record data true ++ s.writeBuf.map .byte
  | some (.waiting _) | none => s.writeBuf.map .byte

/-- The commands carry what was written, marks in their places, and the stream has the rest. -/
def Lossless (s : AdspWriter) : Prop := recordsOf s.sent ++ s.unsent = s.written

/-- Everything that was written has been sent, and every byte of it was admitted. -/
def Delivered (s : AdspWriter) : Prop :=
  recordsOf s.sent = s.written ∧
    ∀ j data eom, s.sent[j]? = some (data, eom) → data ≠ [] → j ∈ s.admitted

/-- `poll_flush` returns that all is well. -/
def flushed (s : AdspWriter) : AdspWriterAct → Prop
  | .pollFlush _ => s.eomCall = none ∧ s.flushReply = none ∧ s.writeBuf = []
  | .pollReply => s.eomCall = none ∧ ∃ j, s.flushReply = some j ∧ s.replies j = some (.ok ())
  | _ => False

/-- A step loses nothing, and a flush that succeeds tells the truth. -/
def Survives (s : AdspWriter) (a : AdspWriterAct) : Prop :=
  (s.flushed a → s.Delivered) ∧ (s.step a).Lossless

/-- The bytes of the commands nobody waits for have been admitted. -/
def Caught (s : AdspWriter) : Prop :=
  ∀ j ∈ s.forsaken, ∀ data eom, s.sent[j]? = some (data, eom) → data ≠ [] → j ∈ s.admitted

/-- No `write_eom` is given up with bytes in hand; and where a flush succeeds, nothing was written
    since it sent the buffer or waits though given up. -/
def Patient (s : AdspWriter) : AdspWriterAct → Prop
  | .pollFlush _ => s.eomCall = none → s.flushReply = none → s.writeBuf = [] → s.Caught
  | .pollReply => s.eomCall = none → ∀ j, s.flushReply = some j → s.replies j = some (.ok ()) →
      s.writeBuf = [] ∧ s.Caught
  | .pollEom _ => ∀ data, s.eomCall = some (.sending data) → s.dead = true → data = []
  | .dropEom => ∀ data, s.eomCall = some (.sending data) → data = []
  | _ => True

end AdspWriter

/-! ## The queue of the endpoint -/

/-- Some writes at the front of the queue may have been completed. -/
structure Serves (c c' : Connection) : Prop where
  submitted : c'.writesSubmitted = c.writesSubmitted
  balance : c'.writesCompleted + c'.pendingWrites.length =
    c.writesCompleted + c.pendingWrites.length
  le : c.writesCompleted ≤ c'.writesCompleted

section
variable {c c' c'' : Connection}

theorem Serves.trans (h : Serves c c') (h' : Serves c' c'') : Serves c c'' :=
  ⟨h'.submitted.trans h.submitted, h'.balance.trans h.balance, h.le.trans h'.le⟩

theorem Serves.of_same (hsubmitted : c'.writesSubmitted = c.writesSubmitted)
    (hcompleted : c'.writesCompleted = c.writesCompleted)
    (hqueue : c'.pendingWrites = c.pendingWrites) : Serves c c' :=
  ⟨hsubmitted, by rw [hcompleted, hqueue], hcompleted.ge⟩

theorem serves_cut {w : UInt16} {now : Option Micros} {ps : List Bytes}
    (h : c.cut w now = some (c', ps)) : Serves c c' := by
  obtain ⟨chunk, eom, hcut⟩ := Connection.cut_cases h
  have hsubmitted : c'.writesSubmitted = c.writesSubmitted := by rw [hcut.next]
  obtain ⟨front, rest, hp, ⟨hrest, hcount⟩ | ⟨n, hrest, hcount⟩⟩ := Connection.cut_writes h
  · refine ⟨hsubmitted, ?_, by omega⟩
    rw [hrest, hcount, hp, List.length_cons]
    omega
  · refine ⟨hsubmitted, ?_, hcount.ge⟩
    rw [hrest, hcount, hp, List.length_cons, List.length_cons]

theorem serves_pump (w : UInt16) (now : Option Micros) (c : Connection) :
    Serves c (c.pump w now).conn := by
  exact Connection.pump_induct (Q := fun c e => Serves c e.conn) w now
    (fun _ => .of_same rfl rfl rfl) (fun _ hc ih => (serves_cut hc).trans (ih _)) c

theorem serves_applyAck (w : UInt16) (packet : AdspPacket) (now : Micros) (c : Connection) :
    Serves c (c.applyAck w packet now).conn := by
  rw [Connection.applyAck_eq]
  refine Serves.trans ?_ (serves_pump w (some now) _)
  unfold Connection.takeAck
  split_ifs <;> exact .of_same rfl rfl rfl

theorem serves_resendUnacked (w : UInt16) (now : Micros) (c : Connection) :
    Serves c (c.resendUnacked w now).conn := by
  unfold Connection.resendUnacked
  split <;> exact .of_same rfl rfl rfl

/-- Nothing that the endpoint does touches the queue but the pump. -/
theorem serves_connOp (op : ConnOp) (c : Connection) : Serves c (op.run c) := by
  cases op with
  | handleData w key packet data now =>
    have hreceive : Serves c (c.receive key packet data).conn := by
      rw [Connection.receive_conn]
      exact .of_same rfl rfl rfl
    simp only [ConnOp.run, Connection.conn_handleData]
    exact hreceive.trans (serves_applyAck w packet now _)
  | retransmitAdvice w packet now =>
    exact (serves_applyAck w packet now c).trans (serves_resendUnacked w now _)
  | resendUnacked w now => exact serves_resendUnacked w now c
  | sendAck w => exact .of_same rfl rfl rfl
  | handleAttention key packet data =>
    simp only [ConnOp.run, Connection.handleAttention]
    split
    · exact .of_same rfl rfl rfl
    dsimp only
    split <;> exact .of_same rfl rfl rfl
  | handleAttentionAck key packet =>
    simp only [ConnOp.run, Connection.handleAttentionAck]
    split
    · exact .of_same rfl rfl rfl
    split <;> exact .of_same rfl rfl rfl
  | startAttention code data now => exact .of_same rfl rfl rfl
  | pollAttention key now =>
    simp only [ConnOp.run, Connection.pollAttention]
    split
    · exact .of_same rfl rfl rfl
    split
    · exact .of_same rfl rfl rfl
    split <;> exact .of_same rfl rfl rfl

end

/-- The queue of a connection, by the commands of its writes, and the writes that wait to be
    answered. -/
structure Tagged (c : Connection) (queue : List ℕ) (writes : List (ℕ × ℕ)) (admitted : List ℕ) :
    Prop where
  submitted : c.writesSubmitted = c.writesCompleted + c.pendingWrites.length
  length : queue.length = c.pendingWrites.length
  writes : ∀ id j, (id, j) ∈ writes → (id ≤ c.writesCompleted ∧ j ∈ admitted) ∨
    ∃ i, queue[i]? = some j ∧ id = c.writesCompleted + 1 + i

section
variable {c c' : Connection} {queue : List ℕ} {writes : List (ℕ × ℕ)} {admitted : List ℕ}

theorem tagged_new (ourConnId : UInt16) (remote : ServiceAddress) (window : UInt16)
    (now : Micros) (admitted : List ℕ) :
    Tagged (.new ourConnId remote window now) [] [] admitted := ⟨rfl, rfl, nofun⟩

/-- A command is handed to the endpoint. -/
theorem Tagged.queueWrite (h : Tagged c queue writes admitted) (j : ℕ) (data : Bytes)
    (eom : Bool) : Tagged (c.queueWrite data eom) (queue ++ [j])
      (writes ++ [(c.writesSubmitted + 1, j)]) admitted := by
  refine ⟨?_, ?_, fun id k hmem => ?_⟩
  · simp only [Connection.queueWrite, List.length_append, List.length_singleton, h.submitted]
    omega
  · simp [Connection.queueWrite, h.length]
  · rcases List.mem_append.1 hmem with hmem | hmem
    · rcases h.writes id k hmem with hdone | ⟨i, hi, hid⟩
      · exact .inl hdone
      · have hlt := (List.getElem?_eq_some_iff.1 hi).1
        exact .inr ⟨i, by rw [List.getElem?_append_left hlt, hi], hid⟩
    · obtain ⟨rfl, rfl⟩ := Prod.mk.inj (List.mem_singleton.1 hmem)
      refine .inr ⟨queue.length, by simp, ?_⟩
      simp only [Connection.queueWrite, h.submitted, h.length]
      omega

theorem Tagged.serve (h : Tagged c queue writes admitted) (hs : Serves c c') :
    Tagged c' (queue.drop (c.pendingWrites.length - c'.pendingWrites.length)) writes
      (admitted ++ queue.take (c.pendingWrites.length - c'.pendingWrites.length)) := by
  have hbalance := hs.balance
  have hle := hs.le
  have hlength := h.length
  have hsubmitted := h.submitted
  refine ⟨?_, ?_, fun id j hmem => ?_⟩
  · rw [hs.submitted, hsubmitted, hbalance]
  · rw [List.length_drop]
    omega
  · rcases h.writes id j hmem with ⟨hid, hj⟩ | ⟨i, hi, hid⟩
    · exact .inl ⟨hid.trans hle, List.mem_append_left _ hj⟩
    · generalize hn : c.pendingWrites.length - c'.pendingWrites.length = n
      by_cases hlt : i < n
      · refine .inl ⟨by omega, List.mem_append_right _ ?_⟩
        refine List.mem_of_getElem? (i := i) ?_
        rw [List.getElem?_take_of_lt hlt, hi]
      · refine .inr ⟨i - n, ?_, by omega⟩
        rw [List.getElem?_drop, Nat.add_sub_cancel' (Nat.le_of_not_lt hlt), hi]

theorem Tagged.settled (h : Tagged c queue writes admitted) :
    Tagged c queue (writes.dropWhile fun w => w.1 ≤ c.writesCompleted) admitted ∧
      ∀ j ∈ (writes.takeWhile fun w => w.1 ≤ c.writesCompleted).map (·.2), j ∈ admitted := by
  refine ⟨⟨h.submitted, h.length, fun id j hmem => ?_⟩, fun j hmem => ?_⟩
  · exact h.writes id j ((List.dropWhile_sublist _).subset hmem)
  · obtain ⟨⟨id, j⟩, hw, rfl⟩ := List.mem_map.1 hmem
    have hid : id ≤ c.writesCompleted := by simpa using List.mem_takeWhile_imp hw
    rcases h.writes id j ((List.takeWhile_sublist _).subset hw) with ⟨-, hj⟩ | ⟨i, -, hi⟩
    · exact hj
    · omega

end

/-! ## Along a run -/

namespace AdspWriter

/-- What is told is true, and every command is admitted, given up or still waited for. -/
structure Sound (s : AdspWriter) : Prop where
  lossless : s.Lossless
  /-- while `write_eom` has the buffer, nothing else is written -/
  lent : ∀ data, s.eomCall = some (.sending data) → s.writeBuf = []
  tagged : ∀ c, s.conn = some c → Tagged c s.queue s.writes s.admitted
  answered : ∀ j, s.replies j = some (.ok ()) → j ∈ s.admitted
  awaited : ∀ j < s.sent.length, j ∈ s.admitted ∨ j ∈ s.forsaken ∨ s.flushReply = some j ∨
    s.eomCall = some (.waiting j)

theorem sound_start (ourConnId : UInt16) (remote : ServiceAddress) (window : UInt16)
    (now : Micros) : (start ourConnId remote window now).Sound := by
  refine ⟨rfl, nofun, fun c hc => ?_, nofun, nofun⟩
  obtain rfl := Option.some.inj hc
  exact tagged_new _ _ _ _ _

section
variable {s t : AdspWriter}

theorem Sound.of_actor (h : s.Sound) (hlossless : t.Lossless) (hbuf : t.writeBuf = s.writeBuf)
    (hflush : t.flushReply = s.flushReply) (heom : t.eomCall = s.eomCall)
    (hsent : t.sent = s.sent) (hforsaken : t.forsaken = s.forsaken)
    (hadmitted : ∀ j ∈ s.admitted, j ∈ t.admitted)
    (htagged : ∀ c, t.conn = some c → Tagged c t.queue t.writes t.admitted)
    (hanswered : ∀ j, t.replies j = some (.ok ()) → s.replies j = some (.ok ()) ∨
      j ∈ t.admitted) : t.Sound := by
  refine ⟨hlossless, fun data hdata => ?_, htagged, fun j hj => ?_, fun j hj => ?_⟩
  · rw [hbuf]
    exact h.lent data (heom ▸ hdata)
  · rcases hanswered j hj with hold | hnew
    · exact hadmitted j (h.answered j hold)
    · exact hnew
  · rw [hsent] at hj
    rw [hforsaken, hflush, heom]
    exact (h.awaited j hj).imp_left (hadmitted j)

theorem answer_error {writes : List (ℕ × ℕ)} {e : AdspWriteError} {j : ℕ}
    (h : (s.answer writes (.error e)).replies j = some (.ok ())) : s.replies j = some (.ok ()) := by
  simp only [answer] at h
  split at h
  · cases h
  · exact h

theorem Sound.serve (h : s.Sound) {queue : List ℕ} {writes : List (ℕ × ℕ)} {c c' : Connection}
    {taken : ℕ} (htagged : Tagged c queue writes s.admitted) (hs : Serves c c') :
    ({ s with taken, writes }.serve queue c c').Sound := by
  refine h.of_actor h.lossless rfl rfl rfl rfl rfl (fun j hj => List.mem_append_left _ hj)
    (fun d hd => ?_) fun j hj => .inl hj
  obtain rfl := Option.some.inj hd
  exact htagged.serve hs

theorem Sound.take (h : s.Sound) (w : UInt16) : (s.take w).Sound := by
  unfold AdspWriter.take
  split
  · exact h
  · rename_i data eom c hsent hconn hmoved
    exact h.serve ((h.tagged c hconn).queueWrite s.taken data eom) (serves_pump w none _)
  · refine h.of_actor h.lossless rfl rfl rfl rfl rfl (fun _ hj => hj) h.tagged fun j hj => .inl ?_
    simp only [Function.update_apply] at hj
    split at hj
    · cases hj
    · exact hj

theorem Sound.settleWrites (h : s.Sound) : s.settleWrites.Sound := by
  unfold AdspWriter.settleWrites
  split
  · exact h
  · rename_i c hconn
    obtain ⟨hleft, hdone⟩ := (h.tagged c hconn).settled
    refine h.of_actor h.lossless rfl rfl rfl rfl rfl (fun _ hj => hj) (fun d hd => ?_)
      fun j hj => ?_
    · obtain rfl : c = d := Option.some.inj (hconn.symm.trans hd)
      exact hleft
    · simp only [answer] at hj
      split at hj
      · rename_i hmem
        exact .inr (hdone j hmem)
      · exact .inl hj

theorem Sound.closed (h : s.Sound) : s.closed.Sound :=
  h.of_actor h.lossless rfl rfl rfl rfl rfl (fun _ hj => hj) nofun
    fun _ hj => .inl (answer_error hj)

theorem Sound.rekey (h : s.Sound) (follows : Bool) : (s.rekey follows).Sound := by
  unfold AdspWriter.rekey
  split
  · exact h.of_actor h.lossless rfl rfl rfl rfl rfl (fun _ hj => hj) h.tagged fun _ hj => .inl hj
  · exact h.of_actor h.lossless rfl rfl rfl rfl rfl (fun _ hj => hj) nofun fun _ hj => .inl hj

theorem Sound.opened (h : s.Sound) (ourConnId : UInt16) (remote : ServiceAddress)
    (window : UInt16) (now : Micros) : (s.opened (.new ourConnId remote window now)).Sound := by
  unfold AdspWriter.opened
  split
  · exact h
  · refine h.of_actor h.lossless rfl rfl rfl rfl rfl (fun _ hj => hj) (fun d hd => ?_)
      fun j hj => .inl (answer_error hj)
    obtain rfl := Option.some.inj hd
    exact tagged_new _ _ _ _ _

theorem Sound.ended (h : s.Sound) : s.ended.Sound := by
  refine h.of_actor h.lossless rfl rfl rfl rfl rfl (fun _ hj => hj) h.tagged fun j hj => .inl ?_
  simp only [AdspWriter.ended] at hj
  rcases hr : s.replies j with _ | r
  · rw [hr] at hj
    cases hj
  · rwa [hr] at hj

/-! ## The steps of the stream -/

theorem Sound.pollWrite (h : s.Sound) (heom : s.eomCall = none) (buf : Bytes) :
    (s.pollWrite buf).Sound := by
  refine ⟨?_, fun data hdata => ?_, h.tagged, h.answered, h.awaited⟩
  · have hold := h.lossless
    simp only [Lossless, unsent, heom] at hold
    simp only [Lossless, unsent, AdspWriter.pollWrite, heom, List.map_append]
    rw [← hold, List.append_assoc]
  · rw [show (s.pollWrite buf).eomCall = s.eomCall from rfl, heom] at hdata
    cases hdata

/-- A command is put into the channel, and the stream waits for its answer. -/
theorem Sound.send (h : s.Sound) {data : Bytes} {eom : Bool} (hsent : t.sent = s.sent ++ [(data, eom)])
    (hlossless : t.Lossless) (hlent : ∀ data, t.eomCall ≠ some (.sending data))
    (hconn : t.conn = s.conn) (hqueue : t.queue = s.queue) (hwrites : t.writes = s.writes)
    (hadmitted : t.admitted = s.admitted) (hreplies : t.replies = s.replies)
    (hforsaken : t.forsaken = s.forsaken)
    (hwaits : t.flushReply = some s.sent.length ∨ t.eomCall = some (.waiting s.sent.length))
    (hkept : ∀ j, s.flushReply = some j ∨ s.eomCall = some (.waiting j) →
      t.flushReply = some j ∨ t.eomCall = some (.waiting j)) : t.Sound := by
  refine ⟨hlossless, fun d hd => absurd hd (hlent d), fun c hc => ?_, fun j hj => ?_, fun j hj => ?_⟩
  · rw [hqueue, hwrites, hadmitted]
    exact h.tagged c (hconn ▸ hc)
  · rw [hadmitted]
    exact h.answered j (hreplies ▸ hj)
  · rw [hadmitted, hforsaken]
    rw [hsent, List.length_append, List.length_singleton] at hj
    rcases Nat.lt_succ_iff_lt_or_eq.1 hj with hlt | rfl
    · exact (h.awaited j hlt).imp_right (.imp_right (hkept j))
    · exact .inr (.inr hwaits)

theorem Sound.pollFlush (h : s.Sound) (heom : s.eomCall = none) (room : Bool) :
    (s.pollFlush room).Sound := by
  unfold AdspWriter.pollFlush
  split_ifs with hsend
  · refine h.send rfl ?_ ?_ rfl rfl rfl rfl rfl rfl (.inl rfl)
      fun j hj => ?_
    · have hold := h.lossless
      simp only [Lossless, unsent, heom] at hold
      simp only [Lossless, unsent, AdspWriter.send, heom, recordsOf_append]
      rw [← hold]
      simp [recordsOf, record]
    · intro data hdata
      cases heom.symm.trans hdata
    · rcases hj with hj | hj
      · rw [hsend.1] at hj
        cases hj
      · rw [heom] at hj
        cases hj
  · exact h

/-- The caller of a command gets its answer, or gives up. -/
theorem Sound.settle (h : s.Sound) (hlossless : t.Lossless)
    (hlent : ∀ data, t.eomCall = some (.sending data) → t.writeBuf = [])
    (hconn : t.conn = s.conn) (hqueue : t.queue = s.queue) (hwrites : t.writes = s.writes)
    (hsent : t.sent = s.sent) (hadmitted : t.admitted = s.admitted) (hreplies : t.replies = s.replies)
    (hforsaken : ∀ j ∈ s.forsaken, j ∈ t.forsaken)
    (hdone : ∀ j, s.flushReply = some j ∨ s.eomCall = some (.waiting j) → j ∈ s.admitted ∨
      j ∈ t.forsaken ∨ t.flushReply = some j ∨ t.eomCall = some (.waiting j)) : t.Sound := by
  refine ⟨hlossless, hlent, fun c hc => ?_, fun j hj => ?_, fun j hj => ?_⟩
  · rw [hqueue, hwrites, hadmitted]
    exact h.tagged c (hconn ▸ hc)
  · rw [hadmitted]
    exact h.answered j (hreplies ▸ hj)
  · rw [hadmitted]
    rcases h.awaited j (hsent ▸ hj) with hj | hj | hj
    · exact .inl hj
    · exact .inr (.inl (hforsaken j hj))
    · exact hdone j hj

theorem Sound.settled (h : s.Sound) {j : ℕ} {result : Except AdspWriteError Unit}
    (hr : s.replies j = some result) : j ∈ s.admitted ∨ j ∈ (s.settle j result).forsaken := by
  cases result with
  | ok u => exact .inl (h.answered j hr)
  | error e => exact .inr (List.mem_append_right _ List.mem_cons_self)

theorem settle_forsaken {j : ℕ} (command : ℕ) (result : Except AdspWriteError Unit)
    (hj : j ∈ s.forsaken) : j ∈ (s.settle command result).forsaken := by
  cases result with
  | ok u => exact hj
  | error e => exact List.mem_append_left _ hj

theorem settle_same (command : ℕ) (result : Except AdspWriteError Unit) :
    s.settle command result = { s with forsaken := (s.settle command result).forsaken } := by
  cases result <;> rfl

theorem Sound.pollReply (h : s.Sound) (heom : s.eomCall = none) : s.pollReply.Sound := by
  unfold AdspWriter.pollReply
  split
  · exact h
  rename_i command hflush
  split
  · exact h
  rename_i result hr
  rw [settle_same]
  refine h.settle h.lossless h.lent rfl rfl rfl rfl rfl rfl (fun j => settle_forsaken command result)
    fun j hj => ?_
  rcases hj with hj | hj
  · obtain rfl : command = j := Option.some.inj (hflush.symm.trans hj)
    exact (h.settled hr).imp_right .inl
  · rw [heom] at hj
    cases hj

theorem Sound.writeEom (h : s.Sound) (heom : s.eomCall = none) : s.writeEom.Sound := by
  refine h.settle ?_ (fun _ _ => rfl) rfl rfl rfl rfl rfl rfl (fun _ hj => hj) fun j hj => ?_
  · have hold := h.lossless
    simp only [Lossless, unsent, heom] at hold
    simp only [Lossless, unsent, AdspWriter.writeEom]
    rw [← hold]
    simp [record]
  · rcases hj with hj | hj
    · exact .inr (.inr (.inl hj))
    · rw [heom] at hj
      cases hj

theorem Sound.giveUp_lossless (h : s.Sound) {data : Bytes}
    (heom : s.eomCall = some (.sending data)) : s.giveUp.Lossless ↔ data = [] := by
  have hold := h.lossless
  have hbuf := h.lent data heom
  simp only [Lossless, unsent, heom, hbuf, List.map_nil, List.append_nil, record, if_true] at hold
  simp only [Lossless, unsent, giveUp, hbuf, List.map_nil, List.append_nil]
  rw [← hold, ← List.append_assoc, List.dropLast_concat, List.self_eq_append_right, List.map_eq_nil_iff]

theorem Sound.giveUp (h : s.Sound) (heom : s.eomCall = some (.sending [])) : s.giveUp.Sound := by
  refine h.settle ((h.giveUp_lossless heom).2 rfl) nofun rfl rfl rfl rfl rfl rfl (fun _ hj => hj)
    fun j hj => ?_
  rcases hj with hj | hj
  · exact .inr (.inr (.inl hj))
  · rw [heom] at hj
    cases hj

theorem Sound.pollEom (h : s.Sound) (room : Bool)
    (hok : ∀ data, s.eomCall = some (.sending data) → s.dead = true → data = []) :
    (s.pollEom room).Sound := by
  unfold AdspWriter.pollEom
  split
  · exact h
  · rename_i data heom
    split_ifs with hdead hroom
    · obtain rfl := hok data heom hdead
      exact h.giveUp heom
    · refine h.send rfl ?_ (fun data hsending => by cases hsending) rfl rfl rfl rfl rfl rfl (.inr rfl)
        fun j hj => ?_
      · have hold := h.lossless
        simp only [Lossless, unsent, heom] at hold
        simp only [Lossless, unsent, AdspWriter.send, recordsOf_append]
        rw [← hold]
        simp [recordsOf]
      · rcases hj with hj | hj
        · exact .inl hj
        · rw [heom] at hj
          cases hj
    · exact h
  · rename_i command heom
    split
    · exact h
    rename_i result hr
    rw [settle_same]
    refine h.settle ?_ (fun data hsending => by cases hsending) rfl rfl rfl rfl rfl rfl
      (fun j => settle_forsaken command result) fun j hj => ?_
    · have hold := h.lossless
      simp only [Lossless, unsent, heom] at hold
      exact hold
    · rcases hj with hj | hj
      · exact .inr (.inr (.inl hj))
      · obtain ⟨⟩ := heom.symm.trans hj
        exact (h.settled hr).imp_right .inl

theorem Sound.dropEom (h : s.Sound)
    (hok : ∀ data, s.eomCall = some (.sending data) → data = []) : s.dropEom.Sound := by
  unfold AdspWriter.dropEom
  split
  · exact h
  · rename_i data heom
    obtain rfl := hok data heom
    exact h.giveUp heom
  · rename_i command heom
    refine h.settle ?_ nofun rfl rfl rfl rfl rfl rfl (fun j => List.mem_append_left _) fun j hj => ?_
    · have hold := h.lossless
      simp only [Lossless, unsent, heom] at hold
      exact hold
    · rcases hj with hj | hj
      · exact .inr (.inr (.inl hj))
      · obtain ⟨⟩ := heom.symm.trans hj
        exact .inr (.inl (List.mem_append_right _ List.mem_cons_self))

/-! ## When writes survive -/

/-- **One step** keeps what is sound, where it is a patient one. -/
theorem Sound.step (h : s.Sound) {a : AdspWriterAct} (hok : s.Patient a) : (s.step a).Sound := by
  cases a with
  | pollWrite buf =>
    simp only [AdspWriter.step]
    split_ifs with heom
    · exact h.pollWrite heom buf
    · exact h
  | pollFlush room =>
    simp only [AdspWriter.step]
    split_ifs with heom
    · exact h.pollFlush heom room
    · exact h
  | pollReply =>
    simp only [AdspWriter.step]
    split_ifs with heom
    · exact h.pollReply heom
    · exact h
  | writeEom =>
    simp only [AdspWriter.step]
    split_ifs with heom
    · exact h.writeEom heom
    · exact h
  | pollEom room => exact h.pollEom room hok
  | dropEom => exact h.dropEom hok
  | take w =>
    simp only [AdspWriter.step]
    split_ifs
    · exact h
    · exact h.take w
  | conn op =>
    simp only [AdspWriter.step]
    split_ifs
    · exact h
    · rcases hc : s.conn with _ | c
      · exact h
      · exact h.serve (h.tagged c hc) (serves_connOp op c)
  | settleWrites =>
    simp only [AdspWriter.step]
    split_ifs
    · exact h
    · exact h.settleWrites
  | closed =>
    simp only [AdspWriter.step]
    split_ifs
    · exact h
    · exact h.closed
  | rekey follows =>
    simp only [AdspWriter.step]
    split_ifs
    · exact h
    · exact h.rekey follows
  | opened ourConnId remote window now =>
    simp only [AdspWriter.step]
    split_ifs
    · exact h
    · exact h.opened ourConnId remote window now
  | ended => exact h.ended

theorem Sound.delivered_iff (h : s.Sound) (heom : s.eomCall = none)
    (hflush : ∀ j, s.flushReply = some j → j ∈ s.admitted) :
    s.Delivered ↔ s.writeBuf = [] ∧ s.Caught := by
  have hold := h.lossless
  simp only [Lossless, unsent, heom] at hold
  constructor
  · rintro ⟨hall, hadmitted⟩
    rw [← hold, List.self_eq_append_right, List.map_eq_nil_iff] at hall
    exact ⟨hall, fun j _ => hadmitted j⟩
  · rintro ⟨hbuf, hcaught⟩
    refine ⟨by rw [← hold, hbuf, List.map_nil, List.append_nil], fun j data eom hj hne => ?_⟩
    have hlt := (List.getElem?_eq_some_iff.1 hj).1
    rcases h.awaited j hlt with hj' | hj' | hj' | hj'
    · exact hj'
    · exact hcaught j hj' data eom hj hne
    · exact hflush j hj'
    · rw [heom] at hj'
      cases hj'

/-- A sound stream survives a step exactly if the step is patient. -/
theorem Sound.survives_step_iff (h : s.Sound) (a : AdspWriterAct) : s.Survives a ↔ s.Patient a := by
  have hkept : s.Patient a → (s.step a).Lossless := fun hok => (h.step hok).lossless
  cases a with
  | pollFlush room =>
    refine ⟨fun hs heom hflush hbuf => ?_, fun hok => ⟨?_, hkept hok⟩⟩
    · refine ((h.delivered_iff heom ?_).1 (hs.1 ⟨heom, hflush, hbuf⟩)).2
      rw [hflush]
      nofun
    · rintro ⟨heom, hflush, hbuf⟩
      refine (h.delivered_iff heom ?_).2 ⟨hbuf, hok heom hflush hbuf⟩
      rw [hflush]
      nofun
  | pollReply =>
    have hadmitted : ∀ j, s.flushReply = some j → s.replies j = some (.ok ()) →
        ∀ i, s.flushReply = some i → i ∈ s.admitted := by
      intro j hj hr i hi
      obtain rfl : j = i := Option.some.inj (hj.symm.trans hi)
      exact h.answered j hr
    refine ⟨fun hs heom j hj hr => ?_, fun hok => ⟨?_, hkept hok⟩⟩
    · exact (h.delivered_iff heom (hadmitted j hj hr)).1 (hs.1 ⟨heom, j, hj, hr⟩)
    · rintro ⟨heom, j, hj, hr⟩
      exact (h.delivered_iff heom (hadmitted j hj hr)).2 (hok heom j hj hr)
  | pollEom room =>
    refine ⟨fun hs data heom hdead => ?_, fun hok => ⟨nofun, hkept hok⟩⟩
    have hlossless := hs.2
    simp only [AdspWriter.step, AdspWriter.pollEom, heom, hdead, if_true] at hlossless
    exact (h.giveUp_lossless heom).1 hlossless
  | dropEom =>
    refine ⟨fun hs data heom => ?_, fun hok => ⟨nofun, hkept hok⟩⟩
    have hlossless := hs.2
    simp only [AdspWriter.step, AdspWriter.dropEom, heom] at hlossless
    exact (h.giveUp_lossless heom).1 hlossless
  | _ => exact ⟨fun _ => trivial, fun hok => ⟨nofun, hkept hok⟩⟩

/-- **Writes survive exactly if nothing is given up with bytes in hand, and no flush succeeds
    past something that was written since or was given up**, in every run. -/
theorem survives_iff_patient (ourConnId : UInt16) (remote : ServiceAddress) (window : UInt16)
    (now : Micros) (acts : List AdspWriterAct) :
    Along step Survives (start ourConnId remote window now) acts ↔
      Along step Patient (start ourConnId remote window now) acts :=
  along_congr step (fun _ a h => h.survives_step_iff a) (fun _ _ h hok => h.step hok)
    (sound_start ourConnId remote window now)

/-- A byte is written while a flush waits, which is then polled to its end. -/
def writtenMeanwhile : List AdspWriterAct :=
  [.pollWrite [1], .pollFlush true, .pollReply, .pollWrite [2], .take 1024, .settleWrites,
   .pollReply]

/-- A `write_eom` that waits for room in the channel is dropped. -/
def droppedEom : List AdspWriterAct := [.pollWrite [1], .writeEom, .pollEom false, .dropEom]

/-- The flush succeeds with the second byte still in the buffer, and the byte of the `write_eom`
    is gone. -/
theorem writtenMeanwhile_not_survives :
    ¬ Along step Survives (start 9 ⟨0, 1, 140⟩ 1024 0) writtenMeanwhile ∧
      ¬ Along step Survives (start 9 ⟨0, 1, 140⟩ 1024 0) droppedEom := by
  constructor
  · intro h
    obtain ⟨-, -, -, -, -, -, ⟨htold, -⟩, -⟩ := h
    have hflushed := htold ⟨by decide, 0, by decide, by decide⟩
    exact absurd hflushed.1 (by decide)
  · intro h
    obtain ⟨-, -, -, ⟨-, hlossless⟩, -⟩ := h
    exact absurd hlossless (by unfold Lossless; decide)

end

end AdspWriter

end TailTalk
