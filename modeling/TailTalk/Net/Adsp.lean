/-
  ADSP sockets of the embedded stack — listener and streams over one endpoint.

  After each datagram and each poll the endpoint's events go to the streams,
  and the room the fullest of them has left is advertised.  A method that waits
  is modelled by its look at the state, taken again at each wake-up: `none` is
  to wait on.
-/
import TailTalk.Adsp.Endpoint
import TailTalk.Lib.Maps

namespace TailTalk

open Lib

/-- Received bytes a connection holds for a reader before its window closes. -/
def RX_WINDOW : ℕ := 4096

/-- Bytes a connection holds toward its peer before a write waits. -/
def TX_BUFFER : ℕ := 4096

/-- Inbound connections held for a listener that has not accepted them. -/
def ACCEPT_QUEUE_LEN : ℕ := 4

/-- Attention messages held for a reader. -/
def ATTN_QUEUE_LEN : ℕ := 8

/-- Why a call on a stream failed. -/
inductive AdspStreamError where
  | noSocket
  | openFailed
  | closed
  | attentionUnacknowledged

/-- Why `readMessage` returned no message. -/
inductive MessageError where
  | tooLong
  | closed
deriving DecidableEq

/-- Where a connection's one permitted outgoing attention stands. -/
inductive Attn where
  | idle
  | inFlight (abandoned : Bool)
  | done (outcome : Except AdspStreamError Unit)

/-- What a stream keeps. -/
structure Conn where
  /-- the endpoint's key for this connection -/
  key : UInt16
  remote : ServiceAddress
  rx : Bytes
  /-- where messages end in `rx`, as offsets from its front -/
  eoms : List ℕ
  /-- throwing away the rest of a message that was too long to read -/
  skipping : Bool
  attnRx : List (UInt16 × Bytes)
  attn : Attn
  closed : Bool

namespace Conn

/-- A stream that was just opened. -/
def new (key : UInt16) (remote : ServiceAddress) : Conn where
  key := key
  remote := remote
  rx := []
  eoms := []
  skipping := false
  attnRx := []
  attn := .idle
  closed := false

/-- Stream data arrives. -/
def data (bytes : Bytes) (eom : Bool) (c : Conn) : Conn :=
  if c.skipping then { c with skipping := !eom }
  else
    { c with
      rx := c.rx ++ bytes
      eoms := if eom then c.eoms ++ [(c.rx ++ bytes).length] else c.eoms }

/-- An attention reaches the stream. -/
def attention (code : UInt16) (bytes : Bytes) (c : Conn) : Conn :=
  if c.attnRx.length < ATTN_QUEUE_LEN then { c with attnRx := c.attnRx ++ [(code, bytes)] } else c

/-- The attention in flight has an outcome; nobody waits for that of an abandoned one. -/
def settleAttention (outcome : Except AdspStreamError Unit) (c : Conn) : Conn :=
  { c with
    attn :=
      match c.attn with
      | .inFlight false => .done outcome
      | .inFlight true | .idle | .done _ => .idle }

/-- The connection has closed. -/
def close (c : Conn) : Conn :=
  { c with
    closed := true
    attn :=
      match c.attn with
      | .inFlight abandoned => if abandoned then .idle else .done (.error .closed)
      | .idle => .idle
      | .done outcome => .done outcome }

/-- The sender of an attention gives up waiting. -/
def abandonAttention (c : Conn) : Conn :=
  { c with
    attn :=
      match c.attn with
      | .inFlight _ => .inFlight true
      | .idle | .done _ => .idle }

/-- A look of `read_with_eom` at the queue, with a buffer of `len` bytes. -/
def readWithEom (len : ℕ) (c : Conn) : Option ((Bytes × Bool) × Conn) :=
  let toEnd := c.eoms.head?.getD c.rx.length
  if toEnd = 0 ∧ c.eoms = [] then if c.closed then some (([], false), c) else none
  else
    let n := min len toEnd
    let eoms := c.eoms.map (· - n)
    let eom := eoms.head? == some 0
    some ((c.rx.take n, eom),
      { c with rx := c.rx.drop n, eoms := if eom then eoms.tail else eoms })

/-- A look of `read_message` at the queue. -/
def readMessage (len : ℕ) (c : Conn) : Option (Except MessageError Bytes × Conn) :=
  match c.eoms with
  | stop :: rest =>
    some (if stop > len then .error .tooLong else .ok (c.rx.take stop),
      { c with rx := c.rx.drop stop, eoms := rest.map (· - stop) })
  | [] =>
    if c.closed then some (.error .closed, c)
    -- No end yet: past the buffer, or past the point where the window shuts, it can only be too
    -- long.
    else if c.rx.length > len ∨ c.rx.length > RX_WINDOW - ADSP_MAX_DATA then
      some (.error .tooLong, { c with rx := [], skipping := true })
    else none

end Conn

/-- The endpoint with the streams over it. -/
structure AdspState where
  ep : AdspEndpoint
  /-- the open connections, by stream id -/
  conns : Std.TreeMap UInt32 Conn
  nextId : UInt32
  /-- inbound connections that nobody has accepted -/
  accept : List UInt32
  listenerAlive : Bool
  /-- outbound opens with a caller waiting, by endpoint handle -/
  connects : Std.TreeMap UInt16 (Option (Except AdspStreamError UInt32))
  /-- the stream that an outbound open became, to follow a re-key -/
  outbound : Std.TreeMap UInt16 UInt32

namespace AdspState

/-- A socket with no stream. -/
def new (ep : AdspEndpoint) (listening : Bool) : AdspState where
  ep := ep
  conns := ∅
  nextId := 0
  accept := []
  listenerAlive := listening
  connects := ∅
  outbound := ∅

/-- `AdspListener::bind`, on a socket that the stack has opened. -/
def listen (socket : UInt8) (seed : UInt32) : AdspState :=
  .new (((AdspEndpoint.new socket seed).setListening true).setRecvWindow
    (UInt16.ofNat RX_WINDOW)) true

/-- The first half of `AdspStream::connect`; `none` where no ConnID is found. -/
def connect (socket : UInt8) (seed : UInt32) (remote : ServiceAddress) (now : Micros) :
    Option (UInt16 × AdspState) :=
  (((AdspEndpoint.new socket seed).setRecvWindow (UInt16.ofNat RX_WINDOW)).connect remote now).map
    fun r => (r.1, { new r.2 false with connects := (∅ : Std.TreeMap _ _).insert r.1 none })

/-! ## Events of the endpoint -/

/-- A new stream. -/
def add (s : AdspState) (key : UInt16) (remote : ServiceAddress) : UInt32 × AdspState :=
  (s.nextId, { s with
    nextId := s.nextId + 1
    conns := s.conns.insert s.nextId (.new key remote) })

/-- The open stream under a key of the endpoint. -/
def byKey (s : AdspState) (key : UInt16) : Option (UInt32 × Conn) :=
  s.conns.toList.find? fun p => p.2.key = key ∧ ¬ p.2.closed

/-- Change the open stream under a key. -/
def onKey (s : AdspState) (key : UInt16) (f : Conn → Conn) : AdspState :=
  match s.byKey key with
  | none => s
  | some (id, c) => { s with conns := s.conns.insert id (f c) }

/-- Close a connection of the endpoint. -/
def closeKey (s : AdspState) (key : UInt16) : AdspState := { s with ep := s.ep.close key }

/-- An open that no caller waits for: a stream whose connection is re-keyed follows it, or whoever
    asked gave up. -/
def follow (s : AdspState) (handle conn : UInt16) : AdspState :=
  match s.outbound[handle]? with
  | some id =>
    match s.conns[id]? with
    | some c => { s with conns := s.conns.insert id { c with key := conn } }
    | none => s
  | none => s.closeKey conn

/-- The body of the loop of `sort_events`. -/
def sortEvent (s : AdspState) : AdspEvent → AdspState
  | .opened conn remote true _ =>
    if s.listenerAlive ∧ s.accept.length < ACCEPT_QUEUE_LEN then
      { (s.add conn remote).2 with accept := s.accept ++ [(s.add conn remote).1] }
    else s.closeKey conn
  | .opened conn remote false pending =>
    let handle := pending.getD conn
    match s.connects[handle]? with
    | some none =>
      { (s.add conn remote).2 with
        connects := s.connects.insert handle (some (.ok (s.add conn remote).1))
        outbound := s.outbound.insert handle (s.add conn remote).1 }
    | some (some _) | none => s.follow handle conn
  | .openFailed conn =>
    if s.connects.contains conn then
      { s with connects := s.connects.insert conn (some (.error .openFailed)) }
    else s
  | .data conn data eom => s.onKey conn (Conn.data data eom)
  | .attention conn code data => s.onKey conn (Conn.attention code data)
  | .attentionAcked conn => s.onKey conn (Conn.settleAttention (.ok ()))
  | .attentionFailed conn => s.onKey conn (Conn.settleAttention (.error .attentionUnacknowledged))
  | .closed conn => s.onKey conn Conn.close

/-- Bytes held in the fullest receive queue. -/
def held (s : AdspState) : ℕ := (s.conns.values.map (·.rx.length)).foldr max 0

/-- The room in a window, less than a packet's worth counting as none. -/
def windowFor (held : ℕ) : ℕ :=
  if RX_WINDOW - held < ADSP_MAX_DATA then 0 else RX_WINDOW - held

/-- Advertise the room left in the fullest receive queue. -/
def updateWindow (s : AdspState) : AdspState :=
  { s with ep := s.ep.setRecvWindow (UInt16.ofNat (min (windowFor s.held) 65535)) }

/-- Drain the events of the endpoint; sorting one adds none. -/
def sortEvents (s : AdspState) : AdspState :=
  (s.ep.events.foldl sortEvent { s with ep := { s.ep with events := [] } }).updateWindow

/-! ## The hosted state machine -/

/-- A datagram, and its events. -/
def handleDatagram (s : AdspState) (src : ServiceAddress) (payload : Bytes) (now : Micros) :
    AdspState :=
  { s with ep := s.ep.handleDatagram src payload now }.sortEvents

/-- The timers, and their events. -/
def poll (s : AdspState) (now : Micros) : AdspState := { s with ep := s.ep.poll now }.sortEvents

/-- When the endpoint is to be polled. -/
def nextDeadline (s : AdspState) : Option Micros := s.ep.nextDeadline

/-- The next packet of the endpoint. -/
def pollTransmit (s : AdspState) : Option (ServiceAddress × Bytes) × AdspState :=
  (s.ep.pollTransmit.1, { s with ep := s.ep.pollTransmit.2 })

/-- No handle is left. -/
def finished (s : AdspState) : Bool :=
  !s.listenerAlive && s.conns.isEmpty && s.connects.isEmpty

/-! ## Listener and connects -/

/-- The next inbound connection. -/
def acceptNext (s : AdspState) : Option (UInt32 × ServiceAddress) × AdspState :=
  match s.accept with
  | [] => (none, s)
  | id :: rest => (s.conns[id]?.map fun c => (id, c.remote), { s with accept := rest })

/-- Forget a stream, and close its connection unless it has closed. -/
def removeOpen (s : AdspState) (id : UInt32) : AdspState :=
  match s.conns[id]? with
  | none => s
  | some c =>
    let s := { s with conns := s.conns.erase id }
    if c.closed then s else s.closeKey c.key

/-- Dropping the listener closes the connections not yet accepted. -/
def dropListener (s : AdspState) : AdspState :=
  s.accept.foldl removeOpen
    { s with listenerAlive := false, ep := s.ep.setListening false, accept := [] }

/-- The caller of `connect` looks for its outcome. -/
def connectOutcome (s : AdspState) (handle : UInt16) :
    Option (Except AdspStreamError UInt32) × AdspState :=
  match s.connects[handle]? with
  | some (some o) => (some o, { s with connects := s.connects.erase handle })
  | some none | none => (none, s)

/-- The caller of `connect` gives up; if it opened in the meantime, nobody will hold the
    stream. -/
def dropConnect (s : AdspState) (handle : UInt16) : AdspState :=
  let s' := { s with connects := s.connects.erase handle }
  match s.connects[handle]? with
  | some (some (.ok id)) =>
    match s.conns[id]? with
    | some c => { s' with conns := s.conns.erase id }.closeKey c.key
    | none => s'
  | some (some (.error _)) | some none | none => s'

/-! ## Streams -/

section
variable (s : AdspState) (id : UInt32)

/-- A look of `read_with_eom`; room may have been made, and the window reopens. -/
def readWithEom (len : ℕ) : Option (Bytes × Bool) × AdspState :=
  if len = 0 then (some ([], false), s)
  else
    match s.conns[id]?.bind (Conn.readWithEom len) with
    | none => (none, s)
    | some (read, c) => (some read, { s with conns := s.conns.insert id c }.updateWindow)

/-- A look of `read_message`. -/
def readMessage (len : ℕ) : Option (Except MessageError Bytes) × AdspState :=
  match s.conns[id]?.bind (Conn.readMessage len) with
  | none => (none, s)
  | some (result, c) => (some result, { s with conns := s.conns.insert id c }.updateWindow)

/-- A look of `write_chunk`: queue as much of `data` as fits. `write_data` is one without an EOM,
    `write_message` looks until nothing is left. -/
def writeChunk (data : Bytes) (eomAtEnd : Bool) : Option (Except AdspStreamError ℕ) × AdspState :=
  if data = [] then (some (.ok 0), s)
  else
    match s.conns[id]? with
    | none => (some (.error .closed), s)
    | some c =>
      if c.closed then (some (.error .closed), s)
      else
        let room := TX_BUFFER - s.ep.txBacklog c.key
        if room = 0 then (none, s)
        else
          let n := min room data.length
          match s.ep.send c.key (data.take n) (eomAtEnd && n == data.length) with
          | (.ok _, ep) => (some (.ok n), { s with ep })
          | (.error _, ep) => (some (.error .closed), { s with ep })

/-- Mark a message boundary after everything written so far. -/
def writeEom : Except AdspStreamError Unit × AdspState :=
  match s.conns[id]? with
  | none => (.error .closed, s)
  | some c =>
    if c.closed then (.error .closed, s)
    else
      match s.ep.send c.key [] true with
      | (.ok _, ep) => (.ok (), { s with ep })
      | (.error _, ep) => (.error .closed, { s with ep })

/-- A look of `flush_data`. -/
def flushData : Option (Except AdspStreamError Unit) :=
  match s.conns[id]? with
  | none => some (.error .closed)
  | some c =>
    if s.ep.txBacklog c.key = 0 then some (.ok ())
    else if c.closed then some (.error .closed)
    else none

/-- A look of `send_attention` that waits for its turn. -/
def sendAttention (code : UInt16) (data : Bytes) (now : Micros) :
    Option (Except AdspStreamError Unit) × AdspState :=
  match s.conns[id]? with
  | none => (some (.error .closed), s)
  | some c =>
    if c.closed then (some (.error .closed), s)
    else
      match c.attn with
      | .inFlight _ | .done _ => (none, s)
      | .idle =>
        match s.ep.sendAttention c.key code data now with
        | (.ok (), ep) =>
          (some (.ok ()), { s with
            ep
            conns := s.conns.insert id { c with attn := .inFlight false } })
        | (.error .noSuchConnection, ep) => (some (.error .closed), { s with ep })
        | (.error .attentionInFlight, ep) => (none, { s with ep })

/-- Its look for the outcome. -/
def attentionOutcome : Option (Except AdspStreamError Unit) × AdspState :=
  match s.conns[id]? with
  | none => (none, s)
  | some c =>
    match c.attn with
    | .done outcome =>
      (some outcome, { s with conns := s.conns.insert id { c with attn := .idle } })
    | .idle | .inFlight _ => (none, s)

/-- It is dropped before the outcome. -/
def dropAttention : AdspState :=
  match s.conns[id]? with
  | none => s
  | some c => { s with conns := s.conns.insert id c.abandonAttention }

/-- A look of `attention`: the inner `none` is the end of the stream. -/
def attention : Option (Option (UInt16 × Bytes)) × AdspState :=
  match s.conns[id]? with
  | none => (some none, s)
  | some c =>
    match c.attnRx with
    | m :: rest => (some (some m), { s with conns := s.conns.insert id { c with attnRx := rest } })
    | [] => (if c.closed then some none else none, s)

/-- An attention message if one is already waiting. -/
def tryAttention : Option (UInt16 × Bytes) × AdspState :=
  match s.conns[id]? with
  | none => (none, s)
  | some c =>
    (c.attnRx.head?, { s with conns := s.conns.insert id { c with attnRx := c.attnRx.tail } })

/-- The stream is dropped. -/
def dropStream : AdspState :=
  let s := s.removeOpen id
  { s with outbound := s.outbound.filter fun _ v => v ≠ id }.updateWindow

end

end AdspState

/-! ## Runs -/

/-- Datagrams, timers, the port that sends, and the looks and calls of its handles. -/
inductive AdspSocketCall where
  | datagram (src : ServiceAddress) (payload : Bytes) (now : Micros)
  | poll (now : Micros)
  | pollTransmit
  | acceptNext
  | dropListener
  | connectOutcome (handle : UInt16)
  | dropConnect (handle : UInt16)
  | readWithEom (id : UInt32) (len : ℕ)
  | readMessage (id : UInt32) (len : ℕ)
  | writeChunk (id : UInt32) (data : Bytes) (eomAtEnd : Bool)
  | writeEom (id : UInt32)
  | flushData (id : UInt32)
  | sendAttention (id : UInt32) (code : UInt16) (data : Bytes) (now : Micros)
  | attentionOutcome (id : UInt32)
  | dropAttention (id : UInt32)
  | attention (id : UInt32)
  | tryAttention (id : UInt32)
  | dropStream (id : UInt32)

/-- The call sorts no events. -/
def AdspSocketCall.Quiet : AdspSocketCall → Prop
  | .datagram .. | .poll _ => False
  | _ => True

namespace AdspState

/-- Anything that can happen to the socket. -/
def call (s : AdspState) : AdspSocketCall → AdspState
  | .datagram src payload now => s.handleDatagram src payload now
  | .poll now => s.poll now
  | .pollTransmit => s.pollTransmit.2
  | .acceptNext => s.acceptNext.2
  | .dropListener => s.dropListener
  | .connectOutcome handle => (s.connectOutcome handle).2
  | .dropConnect handle => s.dropConnect handle
  | .readWithEom id len => (s.readWithEom id len).2
  | .readMessage id len => (s.readMessage id len).2
  | .writeChunk id data eomAtEnd => (s.writeChunk id data eomAtEnd).2
  | .writeEom id => (s.writeEom id).2
  | .flushData _ => s
  | .sendAttention id code data now => (s.sendAttention id code data now).2
  | .attentionOutcome id => (s.attentionOutcome id).2
  | .dropAttention id => s.dropAttention id
  | .attention id => (s.attention id).2
  | .tryAttention id => (s.tryAttention id).2
  | .dropStream id => s.dropStream id

/-! ## What an event does to a stream -/

section
variable {s : AdspState} {id : UInt32} {key : UInt16} {c c' : Conn}

theorem byKey_eq_some (h : s.byKey key = some (id, c)) :
    s.conns[id]? = some c ∧ c.key = key ∧ c.closed = false := by
  have hmem := Std.TreeMap.mem_toList_iff_getElem?_eq_some.1 (List.mem_of_find?_eq_some h)
  have hkey : c.key = key ∧ c.closed = false := by simpa using List.find?_some h
  exact ⟨hmem, hkey⟩

theorem getElem?_onKey {f : Conn → Conn} (h : (s.onKey key f).conns[id]? = some c') :
    (s.conns[id]? = some c' ∧ ∀ c, s.byKey key ≠ some (id, c)) ∨
      ∃ c, s.byKey key = some (id, c) ∧ c' = f c := by
  unfold onKey at h
  rcases hby : s.byKey key with _ | ⟨j, d⟩
  · rw [hby] at h
    exact .inl ⟨h, nofun⟩
  · simp only [hby, getElem?_insert_eq] at h
    split_ifs at h with hid
    · subst hid
      exact .inr ⟨d, rfl, (Option.some.inj h).symm⟩
    · refine .inl ⟨h, fun c hc => hid ?_⟩
      exact (Prod.mk.inj (Option.some.inj hc)).1.symm

/-- A stream is opened under the next id. -/
def adds (s : AdspState) : AdspEvent → Bool
  | .opened _ _ true _ => s.listenerAlive && decide (s.accept.length < ACCEPT_QUEUE_LEN)
  | .opened conn _ false pending =>
    match s.connects[pending.getD conn]? with
    | some none => true
    | some (some _) | none => false
  | .openFailed _ | .data _ _ _ | .attention _ _ _ | .attentionAcked _ | .attentionFailed _
  | .closed _ => false

/-- What an event leaves of the stream `id`. -/
inductive Sorted (s : AdspState) (id : UInt32) : AdspEvent → Conn → Prop
  | added {conn remote inbound pending} (hid : s.nextId = id)
      (hadds : s.adds (.opened conn remote inbound pending) = true) :
      Sorted s id (.opened conn remote inbound pending) (.new conn remote)
  | same {ev c} (hc : s.conns[id]? = some c) (hother : s.adds ev = true → s.nextId ≠ id)
      (hdata : ∀ conn bytes eom, ev = .data conn bytes eom → ∀ c, s.byKey conn ≠ some (id, c))
      (hopened : ∀ conn remote pending, ev = .opened conn remote false pending →
        s.adds ev = false → s.outbound[pending.getD conn]? ≠ some id) : Sorted s id ev c
  | rekeyed {conn remote pending c} (hc : s.conns[id]? = some c)
      (hnot : s.adds (.opened conn remote false pending) = false)
      (hout : s.outbound[pending.getD conn]? = some id) :
      Sorted s id (.opened conn remote false pending) { c with key := conn }
  | data {conn bytes eom c} (hby : s.byKey conn = some (id, c)) :
      Sorted s id (.data conn bytes eom) (c.data bytes eom)
  | attends {ev c attnRx attn} (hc : s.conns[id]? = some c)
      (hev : (∃ conn code bytes, ev = .attention conn code bytes) ∨
        (∃ conn, ev = .attentionAcked conn) ∨ ∃ conn, ev = .attentionFailed conn) :
      Sorted s id ev { c with attnRx, attn }
  | closed {conn c} (hby : s.byKey conn = some (id, c)) : Sorted s id (.closed conn) c.close

theorem sorted_onKey {ev : AdspEvent} {f : Conn → Conn} (hadds : s.adds ev = false)
    (hopened : ∀ conn remote pending, ev ≠ .opened conn remote false pending)
    (hdata : ∀ conn bytes eom, ev = .data conn bytes eom → conn = key)
    (hf : ∀ c, s.byKey key = some (id, c) → Sorted s id ev (f c))
    (h : (s.onKey key f).conns[id]? = some c') : Sorted s id ev c' := by
  rcases getElem?_onKey h with ⟨hc, hnot⟩ | ⟨c, hby, rfl⟩
  · refine .same hc (fun ha => ?_) ?_ fun conn remote pending he => absurd he (hopened _ _ _)
    · rw [hadds] at ha
      cases ha
    · intro conn bytes eom he
      rw [hdata conn bytes eom he]
      exact hnot
  · exact hf c hby

theorem sorted_add {conn : UInt16} {remote : ServiceAddress} {inbound : Bool}
    {pending : Option UInt16} (hadds : s.adds (.opened conn remote inbound pending) = true)
    (h : (s.add conn remote).2.conns[id]? = some c') :
    Sorted s id (.opened conn remote inbound pending) c' := by
  simp only [add, getElem?_insert_eq] at h
  split_ifs at h with hid
  · obtain rfl := Option.some.inj h
    exact .added hid.symm hadds
  · refine .same h (fun _ he => hid he.symm) nofun fun conn' remote' pending' he hnot => ?_
    rw [hadds] at hnot
    cases hnot

theorem follow_sorted {conn : UInt16} {remote : ServiceAddress} {pending : Option UInt16}
    (hadds : s.adds (.opened conn remote false pending) = false)
    (h : (s.follow (pending.getD conn) conn).conns[id]? = some c') :
    Sorted s id (.opened conn remote false pending) c' := by
  have hsame : s.outbound[pending.getD conn]? ≠ some id → s.conns[id]? = some c' →
      Sorted s id (.opened conn remote false pending) c' := by
    intro hne hc
    refine .same hc (fun ha => ?_) nofun ?_
    · rw [hadds] at ha
      cases ha
    · rintro conn' remote' pending' he -
      cases he
      exact hne
  unfold follow at h
  rcases hout : s.outbound[pending.getD conn]? with _ | j
  · rw [hout] at h
    exact hsame (by rw [hout]; nofun) h
  · rw [hout] at h
    dsimp only at h
    rcases hc : s.conns[j]? with _ | c
    · rw [hc] at h
      refine hsame (fun heq => ?_) h
      obtain rfl := Option.some.inj (hout.symm.trans heq)
      rw [hc] at h
      cases h
    · simp only [hc, getElem?_insert_eq] at h
      split_ifs at h with hid
      · subst hid
        obtain rfl := Option.some.inj h
        exact .rekeyed hc hadds hout
      · refine hsame (fun heq => ?_) h
        exact hid (Option.some.inj (hout.symm.trans heq)).symm

/-- **What sorting an event does to a stream.** -/
theorem sortEvent_sorted {ev : AdspEvent} (h : (s.sortEvent ev).conns[id]? = some c') :
    Sorted s id ev c' := by
  cases ev with
  | opened conn remote inbound pending =>
    cases inbound with
    | true =>
      simp only [sortEvent] at h
      split_ifs at h with hroom
      · exact sorted_add (by simp [adds, hroom]) h
      · refine .same h (fun ha => absurd ?_ hroom) nofun nofun
        simpa [adds] using ha
    | false =>
      simp only [sortEvent] at h
      rcases hw : s.connects[pending.getD conn]? with _ | o
      · rw [hw] at h
        exact follow_sorted (by simp [adds, hw]) h
      · cases o with
        | none =>
          rw [hw] at h
          exact sorted_add (by simp [adds, hw]) h
        | some o =>
          rw [hw] at h
          exact follow_sorted (by simp [adds, hw]) h
  | openFailed conn =>
    have hc : s.conns[id]? = some c' := by
      simp only [sortEvent] at h
      split_ifs at h <;> exact h
    exact .same hc nofun nofun nofun
  | data conn bytes eom =>
    exact sorted_onKey rfl nofun (by rintro _ _ _ he; cases he; rfl) (fun c hby => .data hby) h
  | attention conn code bytes =>
    refine sorted_onKey rfl nofun nofun (fun c hby => ?_) h
    have hc := (byKey_eq_some hby).1
    unfold Conn.attention
    split
    · exact .attends hc (.inl ⟨_, _, _, rfl⟩)
    · exact .attends hc (.inl ⟨_, _, _, rfl⟩)
  | attentionAcked conn =>
    refine sorted_onKey rfl nofun nofun (fun c hby => ?_) h
    exact .attends (byKey_eq_some hby).1 (.inr (.inl ⟨_, rfl⟩))
  | attentionFailed conn =>
    refine sorted_onKey rfl nofun nofun (fun c hby => ?_) h
    exact .attends (byKey_eq_some hby).1 (.inr (.inr ⟨_, rfl⟩))
  | closed conn => exact sorted_onKey rfl nofun nofun (fun c hby => .closed hby) h

/-! ## What a call does to a stream -/

@[simp] theorem conns_updateWindow (s : AdspState) : s.updateWindow.conns = s.conns := rfl

@[simp] theorem conns_closeKey (s : AdspState) (key : UInt16) :
    (s.closeKey key).conns = s.conns := rfl

theorem conns_removeOpen (s : AdspState) (j : UInt32) :
    (s.removeOpen j).conns = s.conns ∨ (s.removeOpen j).conns = s.conns.erase j := by
  unfold removeOpen
  split
  · exact .inl rfl
  · dsimp only
    split
    · exact .inr rfl
    · exact .inr rfl

theorem getElem?_removeOpen {j : UInt32} (h : (s.removeOpen j).conns[id]? = some c') :
    s.conns[id]? = some c' := by
  rcases conns_removeOpen s j with heq | heq
  · rwa [heq] at h
  · rw [heq, getElem?_erase_eq] at h
    split_ifs at h
    exact h

theorem getElem?_dropListener (h : s.dropListener.conns[id]? = some c') :
    s.conns[id]? = some c' := by
  have hall : ∀ (ids : List UInt32) (t : AdspState),
      (ids.foldl removeOpen t).conns[id]? = some c' → t.conns[id]? = some c' := by
    intro ids
    induction ids with
    | nil => exact fun t ht => ht
    | cons j ids ih => exact fun t ht => getElem?_removeOpen (ih _ ht)
  exact hall s.accept
    { s with listenerAlive := false, ep := s.ep.setListening false, accept := [] } h

end

/-- What a call other than a datagram and a poll leaves of the stream `id`. -/
inductive Called (id : UInt32) (c : Conn) : AdspSocketCall → Conn → Prop
  | same {call attnRx attn} : Called id c call { c with attnRx, attn }
  | readWithEom {len r c'} (h : c.readWithEom len = some (r, c')) :
      Called id c (.readWithEom id len) c'
  | readMessage {len r c'} (h : c.readMessage len = some (r, c')) :
      Called id c (.readMessage id len) c'

section
variable {s : AdspState} {id : UInt32} {c' : Conn}

/-- A change of one stream that only concerns its attentions. -/
theorem called_insert {call : AdspSocketCall} {j : UInt32} {d d' : Conn} (hd : s.conns[j]? = some d)
    (hd' : j = id → Called id d call d') (h : (s.conns.insert j d')[id]? = some c') :
    ∃ c, s.conns[id]? = some c ∧ Called id c call c' := by
  rw [getElem?_insert_eq] at h
  split_ifs at h with hid
  · subst hid
    obtain rfl := Option.some.inj h
    exact ⟨d, hd, hd' rfl⟩
  · exact ⟨c', h, .same⟩

theorem getElem?_dropConnect {handle : UInt16} (h : (s.dropConnect handle).conns[id]? = some c') :
    s.conns[id]? = some c' := by
  unfold dropConnect at h
  split at h
  · rename_i j hj
    rcases hc : s.conns[j]? with _ | c
    · rw [hc] at h
      exact h
    · simp only [hc, conns_closeKey, getElem?_erase_eq] at h
      split_ifs at h
      exact h
  all_goals exact h

/-- **What a call does to a stream**, unless it sorts events. -/
theorem call_called {call : AdspSocketCall} (hquiet : call.Quiet)
    (h : (s.call call).conns[id]? = some c') :
    ∃ c, s.conns[id]? = some c ∧ Called id c call c' := by
  have hkept : s.conns[id]? = some c' → ∃ c, s.conns[id]? = some c ∧ Called id c call c' :=
    fun hc => ⟨c', hc, .same⟩
  cases call with
  | datagram src payload now => cases hquiet
  | poll now => cases hquiet
  | pollTransmit => exact hkept h
  | flushData j => exact hkept h
  | acceptNext =>
    simp only [AdspState.call, acceptNext] at h
    split at h <;> exact hkept h
  | dropListener => exact hkept (getElem?_dropListener h)
  | connectOutcome handle =>
    simp only [AdspState.call, connectOutcome] at h
    split at h <;> exact hkept h
  | dropConnect handle => exact hkept (getElem?_dropConnect h)
  | readWithEom j len =>
    simp only [AdspState.call, readWithEom] at h
    split_ifs at h with hlen
    · exact hkept h
    rcases hd : s.conns[j]? with _ | d
    · rw [hd] at h
      exact hkept h
    · rw [hd, Option.bind_some] at h
      rcases hr : d.readWithEom len with _ | ⟨r, d'⟩
      · rw [hr] at h
        exact hkept h
      · rw [hr] at h
        exact called_insert hd (fun hj => hj ▸ .readWithEom hr) h
  | readMessage j len =>
    simp only [AdspState.call, readMessage] at h
    rcases hd : s.conns[j]? with _ | d
    · rw [hd] at h
      exact hkept h
    · rw [hd, Option.bind_some] at h
      rcases hr : d.readMessage len with _ | ⟨r, d'⟩
      · rw [hr] at h
        exact hkept h
      · rw [hr] at h
        exact called_insert hd (fun hj => hj ▸ .readMessage hr) h
  | writeChunk j data eomAtEnd =>
    refine hkept ?_
    simp only [AdspState.call, writeChunk] at h
    split_ifs at h
    · exact h
    split at h
    · exact h
    split_ifs at h
    · exact h
    · exact h
    · split at h <;> exact h
  | writeEom j =>
    refine hkept ?_
    simp only [AdspState.call, writeEom] at h
    split at h
    · exact h
    split_ifs at h
    · exact h
    · split at h <;> exact h
  | sendAttention j code data now =>
    simp only [AdspState.call, sendAttention] at h
    split at h
    · exact hkept h
    rename_i d hd
    split_ifs at h
    · exact hkept h
    split at h
    · exact hkept h
    · exact hkept h
    · split at h
      · exact called_insert hd (fun _ => .same) h
      · exact hkept h
      · exact hkept h
  | attentionOutcome j =>
    simp only [AdspState.call, attentionOutcome] at h
    split at h
    · exact hkept h
    rename_i d hd
    split at h
    · exact called_insert hd (fun _ => .same) h
    · exact hkept h
    · exact hkept h
  | dropAttention j =>
    simp only [AdspState.call, dropAttention] at h
    split at h
    · exact hkept h
    rename_i d hd
    exact called_insert hd (fun _ => .same) h
  | attention j =>
    simp only [AdspState.call, attention] at h
    split at h
    · exact hkept h
    rename_i d hd
    split at h
    · exact called_insert hd (fun _ => .same) h
    · exact hkept h
  | tryAttention j =>
    simp only [AdspState.call, tryAttention] at h
    split at h
    · exact hkept h
    rename_i d hd
    exact called_insert hd (fun _ => .same) h
  | dropStream j => exact hkept (getElem?_removeOpen h)

end

end AdspState

end TailTalk
