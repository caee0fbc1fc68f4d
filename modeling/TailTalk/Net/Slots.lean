/-
  The sockets of one node — the state that its handles and its runner share.

  `turn` goes round the loop of `next_action` once; a pass of the runner is
  turns, up to one that has something to do outside the lock or nothing left.
  Wakers are left out: a future may look at the state at any time.
-/
import TailTalk.Lib.Slots
import TailTalk.Lib.Utf8
import TailTalk.Net.Atp
import TailTalk.Net.Streams
import TailTalk.Printer.Backlog
import TailTalk.Printer.Naming
import TailTalk.Stack.Stack

namespace TailTalk

open Lib

/-- Why a socket could not be opened. -/
inductive BindError where
  | socketInUse
  | socketsExhausted
  | badName
  | nameTableFull

/-- Why no socket was opened. -/
def BindError.ofSocketError : SocketError → BindError
  | .inUse => socketInUse
  | .exhausted => socketsExhausted

/-- A datagram that a hosted state machine wants sent. -/
structure Transmit where
  srcSocket : UInt8
  dest : ServiceAddress
  proto : DdpProtocolType
  payload : Bytes

/-- The socket that sent it. -/
def Datagram.source (dg : Datagram) : ServiceAddress where
  networkNumber := dg.src.networkNumber
  nodeNumber := dg.src.nodeNumber
  socketNumber := dg.srcSocket

/-! ## The state machines -/

/-- Datagrams held for a socket that nobody reads. -/
def RX_QUEUE_LEN : ℕ := 8

/-- A raw DDP socket. -/
structure RawState where
  rx : List Datagram

namespace PrinterKind

/-- When a printer is to be polled. -/
def nextDeadline : ∀ k : PrinterKind, k.metered.State → Option Micros
  | .styleWriter _ _, s => StyleWriterRole.nextDeadline s
  | .imageWriter, s => ImageWriterRole.nextDeadline s
  | .pap _, s => PapServer.nextDeadline s

/-- The next packet of a printer. -/
def pollTransmit : ∀ k : PrinterKind, k.metered.State → Option Transmit × k.metered.State
  | .styleWriter _ _, s =>
    ((StyleWriterRole.pollTransmit s).1.map fun p =>
      ⟨StyleWriterRole.endpoint s |>.localSocket, p.1, .adsp, p.2⟩,
      (StyleWriterRole.pollTransmit s).2)
  | .imageWriter, s =>
    ((ImageWriterRole.pollTransmit s).1.map fun p => ⟨p.1, p.2.1, .atp, p.2.2⟩,
      (ImageWriterRole.pollTransmit s).2)
  | .pap _, s =>
    ((PapServer.pollTransmit s).1.map fun p => ⟨p.1, p.2.1, .atp, p.2.2⟩,
      (PapServer.pollTransmit s).2)

end PrinterKind

/-- The port of a printer, with what its name handles see of it. -/
structure PrinterPort where
  kind : PrinterKind
  port : PortState kind.metered.State
  name : PortName

/-- A call of the task that serves a printer. -/
inductive PortCall where
  | nextEvent
  | take
  | release (n : ℕ) (now : Micros)
  | input (data : Bytes) (now : Micros)

namespace PrinterPort

/-- `none` where the role does not return. -/
def call (p : PrinterPort) : PortCall → Option PrinterPort
  | .nextEvent => some { p with port := p.port.nextEvent.2 }
  | .take => some { p with port := p.port.take }
  | .release n now => (p.port.release p.kind.metered.role n now).map fun port => { p with port }
  | .input data now => (p.port.input p.kind.metered.role data now).map fun port => { p with port }

end PrinterPort

/-- A state machine that the runner drives. -/
inductive Hosted where
  | raw (s : RawState)
  | atp (s : AtpState)
  | adsp (s : AdspState)
  | port (p : PrinterPort)

namespace Hosted

/-- `none` where the state machine does not return. -/
def handleDatagram (dg : Datagram) (now : Micros) : Hosted → Option Hosted
  | .raw s => some (.raw (if s.rx.length < RX_QUEUE_LEN then ⟨s.rx ++ [dg]⟩ else s))
  | .atp s => some (.atp (s.handleDatagram dg.source dg.payload))
  | .adsp s => some (.adsp (s.handleDatagram dg.source dg.payload now))
  | .port p =>
    (p.port.handleDatagram p.kind.metered.role dg.dstSocket dg.source dg.payload now).map
      fun port => .port { p with port }

/-- The timers of a machine. -/
def poll (now : Micros) : Hosted → Option Hosted
  | .raw s => some (.raw s)
  | .atp s => some (.atp (s.poll now))
  | .adsp s => some (.adsp (s.poll now))
  | .port p => (p.port.poll p.kind.metered.role now).map fun port => .port { p with port }

/-- When it is to be polled. -/
def nextDeadline : Hosted → Option Micros
  | .raw _ => none
  | .atp s => s.nextDeadline
  | .adsp s => s.nextDeadline
  | .port p => p.kind.nextDeadline p.port.role

/-- The next packet it wants sent. -/
def pollTransmit : Hosted → Option Transmit × Hosted
  | .raw s => (none, .raw s)
  | .atp s =>
    (s.pollTransmit.1.map fun p => ⟨s.ep.localSocket, p.1, .atp, p.2⟩, .atp s.pollTransmit.2)
  | .adsp s =>
    (s.pollTransmit.1.map fun p => ⟨s.ep.localSocket, p.1, .adsp, p.2⟩, .adsp s.pollTransmit.2)
  | .port p =>
    ((p.kind.pollTransmit p.port.role).1,
      .port { p with port := { p.port with role := (p.kind.pollTransmit p.port.role).2 } })

/-- Whether the slot can go, once nothing is left to send. -/
def finished : Hosted → Bool
  | .adsp s => s.finished
  | .raw _ | .atp _ | .port _ => false

end Hosted

/-! ## Slots -/

/-- A machine with its sockets. -/
structure Slot where
  hosted : Hosted
  sockets : List UInt8
  generation : UInt32

namespace Slot

/-- The timers of a slot are due. -/
def due (now : Micros) (slot : Slot) : Bool := slot.hosted.nextDeadline.any fun d => d ≤ now

/-- Run them. -/
def poll (now : Micros) (slot : Slot) : Option Slot :=
  if slot.due now then (slot.hosted.poll now).map fun hosted => { slot with hosted } else some slot

/-- Take what the state machine wants sent. -/
def take (slot : Slot) : Option Transmit × Slot :=
  (slot.hosted.pollTransmit.1, { slot with hosted := slot.hosted.pollTransmit.2 })

end Slot

/-- The stack frames a datagram of a socket, if it has an address to send from. -/
def Stack.sendTransmit (s : Stack) (t : Transmit) : Except SendError Unit × Stack :=
  s.sendDdp ⟨t.dest.networkNumber, t.dest.nodeNumber⟩ t.dest.socketNumber t.srcSocket t.proto
    t.payload

/-- What the runner does outside the lock. -/
inductive Action where
  | transmit (frame : Bytes)
  | nodeAcquired (node : UInt8)

/-- What a turn comes to: another one, an action outside the lock, or that nothing is left. -/
inductive Turned where
  | again
  | act (a : Action)
  | idle

/-- The stack and the slots. -/
structure NetInner where
  stack : Stack
  slots : List (Option Slot)
  bySocket : Std.TreeMap UInt8 ℕ
  nextGeneration : UInt32

namespace NetInner

/-- A node with no socket. -/
def new (cfg : StackConfig) (now : Micros) : NetInner where
  stack := .new cfg now
  slots := []
  bySocket := ∅
  nextGeneration := 0

/-- What is in a slot. -/
def slot (s : NetInner) (id : ℕ) : Option Slot := slotAt s.slots id

/-- Host a state machine on sockets already opened. -/
def insert (s : NetInner) (hosted : Hosted) (sockets : List UInt8) : ℕ × NetInner :=
  (freeSlot s.slots, { s with
    slots := fillSlot s.slots ⟨hosted, sockets, s.nextGeneration⟩
    bySocket := sockets.foldl (fun m n => m.insert n (freeSlot s.slots)) s.bySocket
    nextGeneration := s.nextGeneration + 1 })

/-- Release a socket that a slot had. -/
def release (s : NetInner) (n : UInt8) : NetInner :=
  { s with bySocket := s.bySocket.erase n, stack := s.stack.closeSocket n }

/-- Drop a slot and release its sockets. -/
def remove (s : NetInner) (id : ℕ) : NetInner :=
  match s.slot id with
  | none => s
  | some slot => slot.sockets.foldl release { s with slots := vacate s.slots id }

/-- Change the state machine in a slot. -/
def setHosted (s : NetInner) (id : ℕ) (hosted : Hosted) : NetInner :=
  match s.slot id with
  | none => s
  | some slot => { s with slots := s.slots.set id (some { slot with hosted }) }

/-- What is in a slot, if it is still the one of a generation. -/
def tryGet (s : NetInner) (id : ℕ) (generation : UInt32) : Option Slot :=
  (s.slot id).filter fun slot => slot.generation = generation

/-- The generation in it, or zero. -/
def generation (s : NetInner) (id : ℕ) : UInt32 := ((s.slot id).map (·.generation)).getD 0

/-- The raw socket in a slot. -/
def raw (s : NetInner) (id : ℕ) : Option RawState :=
  match s.slot id with
  | some ⟨.raw a, _, _⟩ => some a
  | _ => none

/-- The ATP socket in a slot. -/
def atp (s : NetInner) (id : ℕ) : Option AtpState :=
  match s.slot id with
  | some ⟨.atp a, _, _⟩ => some a
  | _ => none

/-- The ADSP socket in a slot. -/
def adsp (s : NetInner) (id : ℕ) : Option AdspState :=
  match s.slot id with
  | some ⟨.adsp a, _, _⟩ => some a
  | _ => none

/-- The printer in a slot. -/
def port (s : NetInner) (id : ℕ) : Option PrinterPort :=
  match s.slot id with
  | some ⟨.port p, _, _⟩ => some p
  | _ => none

/-- A datagram for whoever has the socket. -/
def deliver (s : NetInner) (dg : Datagram) (now : Micros) : Option NetInner :=
  match s.bySocket[dg.dstSocket]? with
  | none => some s
  | some id =>
    match s.slot id with
    | none => some s
    | some slot => (slot.hosted.handleDatagram dg now).map (s.setHosted id)

/-- The slots whose handles have all gone. -/
def done (s : NetInner) : List ℕ :=
  (List.range s.slots.length).filter fun id => (s.slot id).any fun slot => slot.hosted.finished

/-- Drop every slot whose handles have all gone. -/
def sweep (s : NetInner) : NetInner := s.done.foldl remove s

/-- Run every timer that is due. -/
def pollTimers (s : NetInner) (now : Micros) : Option NetInner :=
  (mapSlots (Slot.poll now) s.slots).map fun slots => { s with stack := s.stack.poll now, slots }

/-- Once round the loop of `next_action`. -/
def turn (s : NetInner) (now : Micros) : Option (Turned × NetInner) :=
  match s.stack.pollEvent with
  | (some (.addressAcquired addr), stack) =>
    some (.act (.nodeAcquired addr.nodeNumber), { s with stack })
  | (some (.networkNumberChanged _), stack) => some (.again, { s with stack })
  | (some (.datagram dg), stack) => ({ s with stack }.deliver dg now).map (.again, ·)
  | (none, _) =>
    match s.stack.pollTransmit with
    | (some frame, stack) => some (.act (.transmit frame.toBytes), { s with stack })
    | (none, _) =>
      match takeFirst Slot.take s.slots with
      | (some (_, t), slots) => some (.again, { s with slots, stack := (s.stack.sendTransmit t).2 })
      | (none, slots) => some (.idle, { s with slots }.sweep)

/-! ## Binding -/

/-- Open a socket and host on it what is made of it. -/
def bindOn (s : NetInner) (socket : Option UInt8) (make : UInt8 → Stack → Hosted × Stack) :
    Except BindError (ℕ × UInt8) × NetInner :=
  match s.stack.openSocket socket with
  | (.error e, stack) => (.error (.ofSocketError e), { s with stack })
  | (.ok n, stack) =>
    let made := make n stack
    let r := { s with stack := made.2 }.insert made.1 [n]
    (.ok (r.1, n), r.2)

/-- `DdpSocket::bind` -/
def bindDdp (s : NetInner) (socket : Option UInt8) : Except BindError (ℕ × UInt8) × NetInner :=
  s.bindOn socket fun _ stack => (.raw ⟨[]⟩, stack)

/-- `AtpSocket::bind` -/
def bindAtp (s : NetInner) (socket : Option UInt8) : Except BindError (ℕ × UInt8) × NetInner :=
  s.bindOn socket fun n stack => (.atp (.bind n), stack)

/-- `AdspListener::bind` -/
def listen (s : NetInner) (socket : Option UInt8) : Except BindError (ℕ × UInt8) × NetInner :=
  s.bindOn socket fun n stack => (.adsp (.listen n stack.nextRandom.1), stack.nextRandom.2)

/-- The first half of `AdspStream::connect`; `none` where it does not return. -/
def connect (s : NetInner) (remote : ServiceAddress) (now : Micros) :
    Option (Except AdspStreamError (ℕ × UInt16 × UInt8) × NetInner) :=
  match s.stack.openSocket none with
  | (.error _, stack) => some (.error .noSocket, { s with stack })
  | (.ok n, stack) =>
    (AdspState.connect n stack.nextRandom.1 remote now).map fun opened =>
      let r := { s with stack := stack.nextRandom.2 }.insert (.adsp opened.2) [n]
      (.ok (r.1, opened.1, n), r.2)

/-- Open so many dynamic sockets; where one is missing the others are given back. -/
def openSockets : ℕ → List UInt8 → Stack → Except SocketError (List UInt8) × Stack
  | 0, sockets, stack => (.ok sockets, stack)
  | count + 1, sockets, stack =>
    match stack.openSocket none with
    | (.ok n, stack) => openSockets count (sockets ++ [n]) stack
    | (.error e, stack) => (.error e, sockets.foldl Stack.closeSocket stack)

end NetInner

/-- What a printer is bound as. -/
inductive PrinterModel where
  | styleWriter (fastClock : FastClock)
  | imageWriter
  | pap (nbpType status : Bytes)

namespace PrinterModel

/-- The type under which a printer is found. -/
def nbpType : PrinterModel → Bytes
  | .styleWriter _ => asciiBytes "ColorStyleWriter2400AT".toList
  | .imageWriter => asciiBytes "ImageWriter".toList
  | .pap nbpType _ => nbpType

/-- How many sockets it needs. -/
def socketCount : PrinterModel → ℕ
  | .styleWriter _ => 1
  | .imageWriter | .pap _ _ => 2

/-- The protocol role; the connection ids of a StyleWriter differ across boots. -/
def kind : PrinterModel → Stack → PrinterKind × Stack
  | .styleWriter fastClock, stack =>
    (.styleWriter stack.nextRandom.1 fastClock, stack.nextRandom.2)
  | .imageWriter, stack => (.imageWriter, stack)
  | .pap _ status, stack => (.pap status, stack)

end PrinterModel

namespace NetInner

section
variable (encode : Bytes → Option NbpName)

/-- The second half of `Printer::bind`, with its sockets opened and its name registered. -/
def hostPrinter (s : NetInner) (model : PrinterModel) (name : Bytes) (entity : EntityName)
    (sockets : List UInt8) (now : Micros) : Option ((ℕ × UInt8) × NetInner) :=
  let socket := sockets.headD 0
  let made := model.kind s.stack
  (PortState.bind made.1.metered.role (made.1.new socket (sockets.getD 1 0)) now).map fun port =>
    let r := { s with stack := made.2 }.insert
      (.port {
        kind := made.1
        port
        name := { socket, nbpType := model.nbpType, name, registered := some entity } }) sockets
    ((r.1, socket), r.2)

/-- `Printer::bind`: a bind that fails gives back its sockets and its name. -/
def bindPrinter (s : NetInner) (model : PrinterModel) (name : Bytes) (now : Micros) :
    Option (Except BindError (ℕ × UInt8) × NetInner) :=
  match EntityName.ofPrinter encode name model.nbpType with
  | none => some (.error .badName, s)
  | some entity =>
    match openSockets model.socketCount [] s.stack with
    | (.error e, stack) => some (.error (.ofSocketError e), { s with stack })
    | (.ok sockets, stack) =>
      match stack.nbpRegister entity (sockets.headD 0) with
      | (.error _, stack) =>
        some (.error .nameTableFull, { s with stack := sockets.foldl Stack.closeSocket stack })
      | (.ok _, stack) =>
        (hostPrinter { s with stack } model name entity sockets now).map fun r => (.ok r.1, r.2)

/-- `PrinterName::reregister`; `none` where the slot of the generation is not a printer's. -/
def reregister (s : NetInner) (id : ℕ) (generation : UInt32) (name nbpType : Option Bytes) :
    Option (Except RenameError Unit × NetInner) :=
  match s.tryGet id generation with
  | none => some (.error .gone, s)
  | some ⟨.port p, _, _⟩ =>
    let r := PortName.reregister encode (some p.name) s.stack.nbp name nbpType
    let s := s.setHosted id (.port { p with name := r.2.1.getD p.name })
    some (r.1, { s with stack := { s.stack with nbp := r.2.2 } })
  | some _ => none

end

/-- Dropping a printer withdraws its name. -/
def dropPrinter (s : NetInner) (id : ℕ) (socket : UInt8) : Option NetInner :=
  (s.port id).map fun p =>
    match p.name.registered with
    | some name => { s with stack := (s.stack.nbpUnregister name socket).2 }.remove id
    | none => s.remove id

end NetInner

end TailTalk
