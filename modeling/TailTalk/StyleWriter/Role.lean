/-
  The StyleWriter role — print jobs over ADSP, one at a time.

  A Mac asks for the printer with an attention on a control connection, closes
  that connection, and is called back on a data connection that is the byte
  pipe to the printer.  The role's call back draws a ConnID in a loop that need
  not end; what never returns is `none`.
-/
import TailTalk.Adsp.Endpoint
import TailTalk.Lib.Run

namespace TailTalk

open Lib

/-! ## Attention codes and replies -/

/-- The codes of attentions. -/
def ATTN_SERIAL_CONFIG : UInt16 := 0x0003
def ATTN_SERIAL_OPTIONS : UInt16 := 0x0004
def ATTN_FAST_CLOCK_QUERY : UInt16 := 0x0005
def ATTN_OUTPUT_DRAINED : UInt16 := 0x0006
def ATTN_SERIAL_CONTROL_JF : UInt16 := 0x0007
def ATTN_SET_NAME : UInt16 := 0x0009
def ATTN_SET_STATUS : UInt16 := 0x000A
def ATTN_PRINT_REQUEST : UInt16 := 0x000B
def ATTN_WITHDRAW : UInt16 := 0x000C
def ATTN_QUEUE_POSITION : UInt16 := 0x000D
def ATTN_JOB_USER : UInt16 := 0x000E
def ATTN_JOB_STATUS : UInt16 := 0x0010
def ATTN_JOB_COUNT : UInt16 := 0x0011
def ATTN_END_SESSION : UInt16 := 0x0012

def PRINT_REQUEST_LEN : ℕ := 70
/-- Longest user name in a print request. -/
def USER_NAME_MAX : ℕ := 32
/-- Length of the text field of a job status. -/
def JOB_STATUS_TEXT_LEN : ℕ := 255

def RESULT_ACCEPTED : Bytes := [0x00, 0x00]
def RESULT_BUSY : Bytes := [0x00, 0x01]
/-- The answer to a print request that cannot be called back. -/
def RESULT_REJECTED : Bytes := [0xFF, 0xFF]
def OUTPUT_DRAINED : Bytes := [0xFF, 0xFF]
def OUTPUT_PENDING : Bytes := [0x00, 0x00]
def FAST_CLOCK_UNAVAILABLE : Bytes := [0x00, 0xEF]
/-- -17 -/
def SERIAL_CONTROL_REFUSED : Bytes := [0xFF, 0xEF]

/-- Ejects the paper and resets the printer. -/
def PRINTER_RESET : Bytes := [0x00, 0xFF, 0xFF, 0xFF, 0x49]
/-- Switches a Color StyleWriter to its fast clock. -/
def FAST_CLOCK : UInt8 := 0x78
/-- The same for a StyleWriter II or 1200. -/
def FAST_CLOCK_SW : UInt8 := 0x68
/-- `ATTN_SERIAL_OPTIONS`: clock the port from the printer. -/
def SERIAL_EXTERNAL_CLOCK : UInt8 := 0x40

/-- How long a half-finished handshake may sit. -/
def HANDSHAKE_TIMEOUT_US : Micros := 15000000

/-- Whether the port can be clocked by the printer. -/
inductive FastClock where
  | supported
  | unsupported
deriving DecidableEq

/-- What the embedder is told. -/
inductive StyleWriterEvent where
  | jobStarted (user : Bytes)
  | toPrinter (data : Bytes)
  | jobEnded (clean : Bool)
  | rename (name : Bytes)
  | fastClockEnable
  | fastClockDisable
deriving DecidableEq

/-- How far a job is. -/
inductive RoleState where
  | idle
  /-- a request was accepted on `ctrl`; the Mac closes it before the call back -/
  | awaitingCtrlClose (ctrl : UInt16) (macNode : ServiceAddress) (dataSocket : UInt8)
  /-- the call back is in flight -/
  | connecting (conn : UInt16)
  | piping (conn : UInt16) (killSeen : Bool)
deriving DecidableEq

/-- The pipe is not open yet. -/
def RoleState.handshake : RoleState → Bool
  | awaitingCtrlClose .. | connecting _ => true
  | idle | piping .. => false

/-- The first 70 bytes of a print request, zero padded. -/
def printRequestBlock (data : Bytes) : Vector UInt8 PRINT_REQUEST_LEN :=
  Vector.ofFn fun i => data.getD i 0

/-- A status text that fits its field. -/
abbrev StatusText := { text : Bytes // text.length < JOB_STATUS_TEXT_LEN }

/-- The endpoint, the job and what Macs have set. -/
structure StyleWriterRole where
  endpoint : AdspEndpoint
  state : RoleState
  stateSince : Micros
  events : List StyleWriterEvent
  /-- a name staged by `ATTN_SET_NAME`, and the connection it came on -/
  pendingName : Option (UInt16 × Bytes)
  jobRequest : Vector UInt8 PRINT_REQUEST_LEN
  jobStatusId : UInt16
  jobStatus : StatusText
  printerDrained : Bool
  /-- the next data packet starts a message -/
  dataMsgStart : Bool
  fastClock : FastClock
  fastClockOn : Bool

namespace StyleWriterRole

/-- A role that is free. -/
def new (controlSocket : UInt8) (seed : UInt32) (fastClock : FastClock) : StyleWriterRole where
  endpoint := (AdspEndpoint.new controlSocket seed).setListening true
  state := .idle
  stateSince := 0
  events := []
  pendingName := none
  jobRequest := Vector.replicate PRINT_REQUEST_LEN 0
  jobStatusId := 0
  jobStatus := ⟨[], by decide⟩
  printerDrained := true
  dataMsgStart := true
  fastClock := fastClock
  fastClockOn := false

/-- A Mac has the printer. -/
def busy (s : StyleWriterRole) : Bool := s.state ≠ .idle

/-- Report an event. -/
def emit (s : StyleWriterRole) (event : StyleWriterEvent) : StyleWriterRole :=
  { s with events := s.events ++ [event] }

/-- Enter a state, which restarts the handshake timeout. -/
def enter (s : StyleWriterRole) (state : RoleState) (now : Micros) : StyleWriterRole :=
  { s with state, stateSince := now }

/-- Tell the embedder to switch the port's clock, if that changes it. -/
def followPrinterClock (s : StyleWriterRole) (on : Bool) : StyleWriterRole :=
  if on ≠ s.fastClockOn then
    { s with fastClockOn := on }.emit (if on then .fastClockEnable else .fastClockDisable)
  else s

/-- Answer in band; a connection that is gone is not answered. -/
def reply (s : StyleWriterRole) (conn : UInt16) (data : Bytes) : StyleWriterRole :=
  { s with endpoint := (s.endpoint.send conn data false).2 }

/-- Whose job it is. -/
def jobUserReply (s : StyleWriterRole) : Bytes :=
  (if s.busy then s.jobRequest.toList else List.replicate PRINT_REQUEST_LEN 0) ++ RESULT_ACCEPTED

/-- `Vec::resize` with zeros. -/
def resize (data : Bytes) (len : ℕ) : Bytes :=
  data.take len ++ List.replicate (len - data.length) 0

/-- The text of its status. -/
def jobStatusReply (s : StyleWriterRole) : Bytes :=
  let id := if s.busy then s.jobStatusId else 0
  let text := if s.busy then s.jobStatus.val else []
  resize (be16 id ++ UInt8.ofNat text.length :: text) (2 + JOB_STATUS_TEXT_LEN) ++ RESULT_ACCEPTED

/-! ## Attentions -/

/-- The user name of a print request, kept within its field. -/
def requestUser (data : Bytes) : Bytes :=
  (data.drop 5).take (min (min (data.getD 4 0).toNat USER_NAME_MAX) (data.length - 5))

/-- A Mac asks for the printer. -/
def handlePrintRequest (s : StyleWriterRole) (conn : UInt16) (data : Bytes) (now : Micros) :
    StyleWriterRole :=
  if data.length < 5 then s.reply conn RESULT_REJECTED
  else if s.busy then s.reply conn RESULT_BUSY
  else
    match s.endpoint.remoteOf conn with
    | none => s.reply conn RESULT_REJECTED
    | some remote =>
      (({ s.reply conn RESULT_ACCEPTED with
          jobRequest := printRequestBlock data
          jobStatusId := 0
          jobStatus := ⟨[], by decide⟩ }).enter
        (.awaitingCtrlClose conn remote (data.getD 3 0)) now).emit
          (.jobStarted (requestUser data))

/-- Only a job that waits to be called back can be withdrawn. -/
def handleWithdraw (s : StyleWriterRole) (conn : UInt16) (data : Bytes) (now : Micros) :
    StyleWriterRole :=
  let s' := s.reply conn RESULT_ACCEPTED
  if ¬ s.state.handshake then s'
  else if printRequestBlock data ≠ s.jobRequest then s'
  else
    let s' := match s.state with
      | .connecting pending => { s' with endpoint := s'.endpoint.abandonOpen pending }
      | _ => s'
    (s'.emit (.jobEnded true)).enter .idle now

/-- On the data connection this ends the job; elsewhere it publishes the name
    staged there. -/
def handleEndSession (s : StyleWriterRole) (conn : UInt16) (now : Micros) : StyleWriterRole :=
  let otherwise :=
    let s' := match s.pendingName with
      | some (c, name) =>
        if c = conn then { s with pendingName := none }.emit (.rename name) else s
      | none => s
    s'.reply conn RESULT_ACCEPTED
  match s.state with
  | .piping dc _ =>
    if conn = dc then (s.reply conn [0xFF, 0xFF]).enter (.piping dc true) now else otherwise
  | _ => otherwise

/-- The status text of an `ATTN_SET_STATUS`. -/
def statusText (len : UInt8) (text : Bytes) : StatusText :=
  ⟨text.take (min (min len.toNat text.length) (JOB_STATUS_TEXT_LEN - 1)), by
    rw [List.length_take]
    simp only [JOB_STATUS_TEXT_LEN]
    omega⟩

/-- It sets the text of the status. -/
def handleSetStatus (s : StyleWriterRole) (conn : UInt16) (data : Bytes) : StyleWriterRole :=
  let s' := match data with
    | hi :: lo :: len :: text =>
      { s with jobStatusId := ofBe16 hi lo, jobStatus := statusText len text }
    | _ => s
  s'.reply conn RESULT_ACCEPTED

/-- It stages or publishes a name. -/
def handleSetName (s : StyleWriterRole) (conn : UInt16) (data : Bytes) : StyleWriterRole :=
  let s' := match data with
    | len :: name =>
      if len > 0 ∧ data.length > len.toNat then
        { s with pendingName := some (conn, name.take len.toNat) }
      else s
    | [] => s
  s'.reply conn RESULT_ACCEPTED

/-- Ask the port to follow the printer's clock or not, where it can. -/
def handleSerialControl (s : StyleWriterRole) (conn : UInt16) (data : Bytes) : StyleWriterRole :=
  match s.fastClock with
  | .supported =>
    (s.reply conn RESULT_ACCEPTED).followPrinterClock
      (decide (2 ≤ data.length) && data.take 2 != [0, 0])
  | .unsupported => s.reply conn SERIAL_CONTROL_REFUSED

/-- It sets the serial port. -/
def handleSerialOptions (s : StyleWriterRole) (conn : UInt16) (data : Bytes) : StyleWriterRole :=
  let s' := s.reply conn RESULT_ACCEPTED
  if s.fastClock = .supported then
    s'.followPrinterClock (data.head?.any fun o => o &&& SERIAL_EXTERNAL_CLOCK != 0)
  else s'

/-- An attention, by its code. -/
def handleAttention (s : StyleWriterRole) (conn code : UInt16) (data : Bytes) (now : Micros) :
    StyleWriterRole :=
  if code = ATTN_PRINT_REQUEST then s.handlePrintRequest conn data now
  else if code = ATTN_WITHDRAW then s.handleWithdraw conn data now
  else if code = ATTN_OUTPUT_DRAINED then
    s.reply conn (if s.printerDrained then OUTPUT_DRAINED else OUTPUT_PENDING)
  else if code = ATTN_END_SESSION then s.handleEndSession conn now
  -- There is no queue behind the job in hand, so a Mac that waits is next.
  else if code = ATTN_JOB_COUNT then s.reply conn (be16 (if s.busy then 1 else 0))
  else if code = ATTN_QUEUE_POSITION then s.reply conn (be16 (if s.busy then 1 else 0))
  else if code = ATTN_FAST_CLOCK_QUERY then
    s.reply conn (match s.fastClock with
      | .supported => RESULT_ACCEPTED
      | .unsupported => FAST_CLOCK_UNAVAILABLE)
  else if code = ATTN_SERIAL_OPTIONS then s.handleSerialOptions conn data
  else if code = ATTN_SET_STATUS then s.handleSetStatus conn data
  else if code = ATTN_JOB_USER then s.reply conn s.jobUserReply
  else if code = ATTN_JOB_STATUS then s.reply conn s.jobStatusReply
  else if code = ATTN_SET_NAME then s.handleSetName conn data
  else if code = ATTN_SERIAL_CONTROL_JF then s.handleSerialControl conn data
  else if code = ATTN_SERIAL_CONFIG then (s.reply conn RESULT_ACCEPTED).followPrinterClock false
  -- A break, and codes nobody knows: the Mac hangs if no reply comes.
  else s.reply conn RESULT_ACCEPTED

/-! ## ADSP events -/

/-- Bytes for the printer; a fast mode switch only counts as a whole message. -/
def handleData (s : StyleWriterRole) (data : Bytes) (eom : Bool) : StyleWriterRole :=
  let wholeMessage := s.dataMsgStart && eom
  let s := { s with dataMsgStart := eom }
  let fastModeSwitch := data == [FAST_CLOCK] || data == [FAST_CLOCK_SW]
  if wholeMessage ∧ fastModeSwitch ∧ s.fastClock = .unsupported then s
  else s.emit (.toPrinter data)

/-- A name staged on a connection goes with it. -/
def dropName (s : StyleWriterRole) (conn : UInt16) : StyleWriterRole :=
  { s with pendingName := s.pendingName.filter fun cn => cn.1 ≠ conn }

/-- The control connection of an accepted request closed: call the Mac back. -/
def callBack (s : StyleWriterRole) (macNode : ServiceAddress) (dataSocket : UInt8)
    (now : Micros) : Option StyleWriterRole :=
  (s.endpoint.connect ⟨macNode.networkNumber, macNode.nodeNumber, dataSocket⟩ now).map
    fun (pending, endpoint) => { s with endpoint }.enter (.connecting pending) now

/-- The data pipe closed: the job ends. -/
def endJob (s : StyleWriterRole) (killSeen : Bool) (now : Micros) : StyleWriterRole :=
  -- The client vanished in the middle of its job: eject and reset.
  let s := if killSeen then s else s.emit (.toPrinter PRINTER_RESET)
  ((s.followPrinterClock false).emit (.jobEnded killSeen)).enter .idle now

/-- A connection is gone. -/
def handleClosed (s : StyleWriterRole) (conn : UInt16) (now : Micros) : Option StyleWriterRole :=
  match s.state with
  | .awaitingCtrlClose ctrl macNode dataSocket =>
    if conn = ctrl then (s.dropName conn).callBack macNode dataSocket now
    else some (s.dropName conn)
  | .piping dc killSeen =>
    if conn = dc then some ((s.dropName conn).endJob killSeen now) else some (s.dropName conn)
  | _ => some (s.dropName conn)

/-- An event of the endpoint. -/
def handleAdspEvent (now : Micros) (s : StyleWriterRole) : AdspEvent → Option StyleWriterRole
  | .opened conn _ inbound _ =>
    -- Any outbound open is the data pipe; it is announced again under
    -- another key when the peer moves to a second connection.
    match s.state with
    | .connecting _ | .piping .. =>
      if inbound then some s
      else some ({ s with dataMsgStart := true }.enter (.piping conn false) now)
    | _ => some s
  | .attention conn code data => some (s.handleAttention conn code data now)
  | .data conn data eom =>
    match s.state with
    | .piping dc _ => some (if conn = dc ∧ data ≠ [] then s.handleData data eom else s)
    | _ => some s
  | .closed conn => s.handleClosed conn now
  | .attentionAcked _ | .attentionFailed _ => some s
  | .openFailed conn =>
    -- Could not dial back.
    some (if s.state = .connecting conn then s.enter .idle now else s)

/-! ## Calls -/

/-- Handle what the endpoint reports: the handlers queue nothing there
    (`handleAdspEvent_events`). -/
def drainEndpoint (s : StyleWriterRole) (now : Micros) : Option StyleWriterRole :=
  run (partialStep (handleAdspEvent now))
    (some { s with endpoint := { s.endpoint with events := [] } }) s.endpoint.events

/-- Release the role if a handshake stalled part-way through. -/
def expireStalledHandshake (s : StyleWriterRole) (now : Micros) : StyleWriterRole :=
  if s.state.handshake ∧ now - s.stateSince > HANDSHAKE_TIMEOUT_US then
    (s.emit (.jobEnded false)).enter .idle now
  else s

/-- The free space of the printer sink is the receive window. -/
def setPrinterCredit (s : StyleWriterRole) (bytes : ℕ) : StyleWriterRole :=
  { s with endpoint := s.endpoint.setRecvWindow (UInt16.ofNat (min bytes 65535)) }

/-- Whether the printer has everything. -/
def setPrinterDrained (s : StyleWriterRole) (drained : Bool) : StyleWriterRole :=
  { s with printerDrained := drained }

/-- Bytes the printer produced go down the data pipe, if there is one. -/
def printerInput (s : StyleWriterRole) (data : Bytes) : StyleWriterRole :=
  match s.state with
  | .piping conn _ => s.reply conn data
  | _ => s

/-- What waits to be sent on the pipe. -/
def txBacklog (s : StyleWriterRole) : ℕ :=
  match s.state with
  | .piping conn _ => s.endpoint.txBacklog conn
  | _ => 0

/-- A datagram for the endpoint. -/
def handleDatagram (s : StyleWriterRole) (src : ServiceAddress) (payload : Bytes)
    (now : Micros) : Option StyleWriterRole :=
  { s with endpoint := s.endpoint.handleDatagram src payload now }.drainEndpoint now

/-- The timers, and the handshake that stalls. -/
def poll (s : StyleWriterRole) (now : Micros) : Option StyleWriterRole :=
  ({ s with endpoint := s.endpoint.poll now }.drainEndpoint now).map
    fun s' : StyleWriterRole => s'.expireStalledHandshake now

/-- When it is to be polled. -/
def nextDeadline (s : StyleWriterRole) : Option Micros :=
  let handshake := if s.state.handshake then [s.stateSince + HANDSHAKE_TIMEOUT_US] else []
  (s.endpoint.nextDeadline.toList ++ handshake).min?

/-- The next packet of the endpoint. -/
def pollTransmit (s : StyleWriterRole) :
    Option (ServiceAddress × Bytes) × StyleWriterRole :=
  (s.endpoint.pollTransmit.1, { s with endpoint := s.endpoint.pollTransmit.2 })

/-- The next event for the embedder. -/
def pollEvent (s : StyleWriterRole) : Option StyleWriterEvent × StyleWriterRole :=
  (s.events.head?, { s with events := s.events.tail })

/-! ## What a handler leaves alone -/

section
variable {s s' : StyleWriterRole} {conn : UInt16} {data : Bytes} {now : Micros}

theorem handleEndSession_cases {P : StyleWriterRole → Prop}
    (ends : ∀ kill, s.state = .piping conn kill →
      P ((s.reply conn [0xFF, 0xFF]).enter (.piping conn true) now))
    (publishes : ∀ name, s.pendingName = some (conn, name) →
      P (({ s with pendingName := none }.emit (.rename name)).reply conn RESULT_ACCEPTED))
    (accepts : P (s.reply conn RESULT_ACCEPTED)) : P (s.handleEndSession conn now) := by
  have hstate : ∀ t : StyleWriterRole, P t → ∀ dc kill, s.state = .piping dc kill →
      P (if conn = dc then (s.reply conn [0xFF, 0xFF]).enter (.piping dc true) now else t) := by
    intro t ht dc kill hpiping
    split_ifs with hconn
    · exact hconn ▸ ends kill (hconn ▸ hpiping)
    · exact ht
  have hname : ∀ c name, s.pendingName = some (c, name) → P ((if c = conn then
      { s with pendingName := none }.emit (.rename name) else s).reply conn RESULT_ACCEPTED) := by
    intro c name hstaged
    split_ifs with hconn
    · exact publishes name (hconn ▸ hstaged)
    · exact accepts
  unfold handleEndSession
  rcases hstaged : s.pendingName with _ | ⟨c, name⟩
  · dsimp only
    split
    · rename_i dc kill hpiping
      exact hstate _ accepts dc kill hpiping
    · exact accepts
  · dsimp only
    split
    · rename_i dc kill hpiping
      exact hstate _ (hname c name hstaged) dc kill hpiping
    · exact hname c name hstaged

/-- All that an attention can lead to: most codes are only replied to. -/
theorem handleAttention_cases {P : StyleWriterRole → Prop} {code : UInt16}
    (reply : ∀ d, P (s.reply conn d))
    (print : code = ATTN_PRINT_REQUEST → P (s.handlePrintRequest conn data now))
    (withdraw : code = ATTN_WITHDRAW → P (s.handleWithdraw conn data now))
    (endSession : code = ATTN_END_SESSION → P (s.handleEndSession conn now))
    (options : code = ATTN_SERIAL_OPTIONS → P (s.handleSerialOptions conn data))
    (status : P (s.handleSetStatus conn data))
    (name : code = ATTN_SET_NAME → P (s.handleSetName conn data))
    (control : code = ATTN_SERIAL_CONTROL_JF → P (s.handleSerialControl conn data))
    (config : P ((s.reply conn RESULT_ACCEPTED).followPrinterClock false)) :
    P (s.handleAttention conn code data now) := by
  unfold handleAttention
  refine iteInduction print fun _ => iteInduction withdraw fun _ =>
    iteInduction (fun _ => reply _) fun _ => iteInduction endSession fun _ =>
    iteInduction (fun _ => reply _) fun _ => iteInduction (fun _ => reply _) fun _ =>
    iteInduction (fun _ => reply _) fun _ => iteInduction options fun _ =>
    iteInduction (fun _ => status) fun _ => iteInduction (fun _ => reply _) fun _ =>
    iteInduction (fun _ => reply _) fun _ => iteInduction name fun _ =>
    iteInduction control fun _ => iteInduction (fun _ => config) fun _ => reply _

/-- What is taken and what is left are all events. -/
theorem pollEvent_events (s : StyleWriterRole) :
    s.pollEvent.1.toList ++ s.pollEvent.2.events = s.events := by
  unfold pollEvent
  cases s.events <;> rfl

@[simp] theorem reply_state : (s.reply conn data).state = s.state := rfl
@[simp] theorem reply_events : (s.reply conn data).events = s.events := rfl
@[simp] theorem reply_pendingName : (s.reply conn data).pendingName = s.pendingName := rfl
@[simp] theorem reply_fastClock : (s.reply conn data).fastClock = s.fastClock := rfl

theorem length_jobUserReply (s : StyleWriterRole) :
    s.jobUserReply.length = PRINT_REQUEST_LEN + 2 := by
  rw [jobUserReply, List.length_append]
  split <;> simp [RESULT_ACCEPTED]

theorem length_resize (data : Bytes) (len : ℕ) : (resize data len).length = len := by
  simp only [resize, List.length_append, List.length_take, List.length_replicate]
  omega

theorem length_jobStatusReply (s : StyleWriterRole) :
    s.jobStatusReply.length = JOB_STATUS_TEXT_LEN + 4 := by
  rw [jobStatusReply, List.length_append, length_resize]
  rfl

/-- Sending queues nothing for the role. -/
@[simp] theorem reply_endpoint_events :
    (s.reply conn data).endpoint.events = s.endpoint.events := by
  unfold reply AdspEndpoint.send
  rcases hc : s.endpoint.connections[conn]? with _ | c
  · rfl
  · simp only [AdspEndpoint.onConn, hc, Connection.pump_events, List.append_nil]

@[simp] theorem followPrinterClock_state {on : Bool} :
    (s.followPrinterClock on).state = s.state := by
  unfold followPrinterClock; split <;> rfl

@[simp] theorem followPrinterClock_endpoint {on : Bool} :
    (s.followPrinterClock on).endpoint = s.endpoint := by
  unfold followPrinterClock; split <;> rfl

end

end StyleWriterRole

end TailTalk
