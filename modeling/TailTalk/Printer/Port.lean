/-
  Printers backed by a byte port.

  A `Role` is a printer protocol as the port sees it.  `PortState` sorts its
  bytes and events: each event remembers how many bytes were queued before it.
  `Printer.step` goes from one suspension point of `Printer::run` to the next,
  or takes a call of the node's runner.
-/
import TailTalk.ImageWriter.Role
import TailTalk.StyleWriter.Role

namespace TailTalk

open Lib

/-- Job bytes that may be off the network and not yet written to the port. -/
def WINDOW : ℕ := PULL_CAPACITY

/-- The longest block handed to one write of the port. -/
def OUT_LEN : ℕ := 256

/-- What a call to `run` returns. -/
inductive PrinterEvent where
  | jobStarted
  | jobEof
  | jobEnded (clean : Bool)
  | renamed (name : Bytes)
  | renameRejected
  | fastClockEnable
  | fastClockDisable
deriving DecidableEq

/-- What a role reports. -/
inductive RoleEvent where
  | toPrinter (data : Bytes)
  | rename (name : Bytes)
  | event (e : PrinterEvent)

/-- A printer protocol. -/
structure Role (ρ : Type) where
  handleDatagram : ρ → UInt8 → ServiceAddress → Bytes → Micros → Option ρ
  poll : ρ → Micros → Option ρ
  pollTransmit : ρ → ρ
  /-- room for job bytes -/
  setCredit : ρ → ℕ → Micros → Option ρ
  printerInput : ρ → Bytes → Micros → ρ
  pollEvent : ρ → Option (RoleEvent × ρ)
  /-- how many events wait -/
  queued : ρ → ℕ
  queued_pollEvent : ∀ r e r', pollEvent r = some (e, r') → queued r = queued r' + 1
  pollEvent_of_queued : ∀ r, queued r ≠ 0 → (pollEvent r).isSome

/-! ## The roles -/

/-- Taking the first entry of a queue. -/
theorem length_of_head? {α : Type} {xs : List α} {x : α} (h : xs.head? = some x) :
    xs.length = xs.tail.length + 1 := by
  obtain ⟨ys, rfl⟩ := List.head?_eq_some_iff.1 h
  rfl

theorem isSome_head? {α : Type} {xs : List α} (h : xs.length ≠ 0) : xs.head?.isSome := by
  cases xs with
  | nil => exact absurd rfl h
  | cons x xs => rfl

namespace PapServer

/-- The event of a PAP server. -/
def roleEvent : PapEvent → RoleEvent
  | .connectionOpened _ => .event .jobStarted
  | .toPrinter data => .toPrinter data
  | .jobEof => .event .jobEof
  | .connectionClosed => .event (.jobEnded true)

/-- A PAP server. -/
def role : Role PapServer where
  handleDatagram s dst src payload now := s.handleDatagram dst src payload now
  poll s now := s.poll now
  pollTransmit s := s.pollTransmit.2
  setCredit s bytes now := s.setSinkCredit bytes now
  printerInput s data now := s.queueOutput data now
  pollEvent s := s.pollEvent.1.map fun e => (roleEvent e, s.pollEvent.2)
  queued s := s.events.length
  queued_pollEvent := by
    intro s e s' h
    obtain ⟨e', he, heq⟩ := Option.map_eq_some_iff.1 h
    obtain ⟨-, rfl⟩ := Prod.mk.inj heq
    exact length_of_head? he
  pollEvent_of_queued := by
    intro s h
    rw [Option.isSome_map]
    exact isSome_head? h

end PapServer

namespace StyleWriterRole

/-- The event of a StyleWriter. -/
def roleEvent : StyleWriterEvent → RoleEvent
  | .jobStarted _ => .event .jobStarted
  | .toPrinter data => .toPrinter data
  | .jobEnded clean => .event (.jobEnded clean)
  | .rename name => .rename name
  | .fastClockEnable => .event .fastClockEnable
  | .fastClockDisable => .event .fastClockDisable

/-- A StyleWriter. -/
def role : Role StyleWriterRole where
  handleDatagram s _ src payload now := s.handleDatagram src payload now
  poll s now := s.poll now
  pollTransmit s := s.pollTransmit.2
  -- The whole window free means that every job byte taken has been written.
  setCredit s bytes _ := some ((s.setPrinterCredit bytes).setPrinterDrained (bytes ≥ WINDOW))
  printerInput s data _ := s.printerInput data
  pollEvent s := s.pollEvent.1.map fun e => (roleEvent e, s.pollEvent.2)
  queued s := s.events.length
  queued_pollEvent := by
    intro s e s' h
    obtain ⟨e', he, heq⟩ := Option.map_eq_some_iff.1 h
    obtain ⟨-, rfl⟩ := Prod.mk.inj heq
    exact length_of_head? he
  pollEvent_of_queued := by
    intro s h
    rw [Option.isSome_map]
    exact isSome_head? h

end StyleWriterRole

namespace ImageWriterRole

/-- The event of an ImageWriter. -/
def roleEvent : ImageWriterEvent → RoleEvent
  | .connectionOpened _ => .event .jobStarted
  | .toPrinter data => .toPrinter data
  | .jobEof => .event .jobEof
  | .connectionClosed => .event (.jobEnded true)
  | .rename name => .rename name

/-- How many events wait, the role's own and the server's. -/
def queued (s : ImageWriterRole) : ℕ := s.events.length + s.server.events.length

theorem queued_pollEvent {s : ImageWriterRole} {e : ImageWriterEvent}
    (h : s.pollEvent.1 = some e) : s.queued = s.pollEvent.2.queued + 1 := by
  unfold queued
  unfold pollEvent at h ⊢
  rcases hown : s.events with _ | ⟨event, events⟩
  · simp only [hown, PapServer.pollEvent] at h ⊢
    rcases hserver : s.server.events with _ | ⟨event, events⟩
    · rw [hserver] at h
      cases h
    · cases event <;> simp
  · simp only [List.length_cons]
    omega

theorem pollEvent_of_queued {s : ImageWriterRole} (h : s.queued ≠ 0) :
    s.pollEvent.1.isSome := by
  unfold queued at h
  unfold pollEvent
  rcases hown : s.events with _ | ⟨event, events⟩
  · rw [hown] at h
    rcases hserver : s.server.events with _ | ⟨event, events⟩
    · rw [hserver] at h
      exact absurd rfl h
    · simp only [PapServer.pollEvent, hserver, List.head?_cons]
      cases event <;> rfl
  · rfl

/-- An ImageWriter. -/
def role : Role ImageWriterRole where
  handleDatagram s dst src payload now := s.handleDatagram dst src payload now
  poll s now := s.poll now
  pollTransmit s := s.pollTransmit.2
  setCredit s bytes now := s.setSinkCredit bytes now
  printerInput s data now := s.printerInput data now
  pollEvent s := s.pollEvent.1.map fun e => (roleEvent e, s.pollEvent.2)
  queued s := s.queued
  queued_pollEvent := by
    intro s e s' h
    obtain ⟨e', he, heq⟩ := Option.map_eq_some_iff.1 h
    obtain ⟨-, rfl⟩ := Prod.mk.inj heq
    exact queued_pollEvent he
  pollEvent_of_queued := by
    intro s h
    rw [Option.isSome_map]
    exact pollEvent_of_queued h

end ImageWriterRole

/-! ## The port -/

/-- What waits among the bytes. -/
inductive PortEvent where
  | event (e : PrinterEvent)
  | rename (name : Bytes)
deriving DecidableEq

/-- A role and the byte queue in front of its port. -/
structure PortState (ρ : Type) where
  role : ρ
  /-- job bytes not yet handed to the port -/
  toPrinter : Bytes
  /-- bytes handed to a write that has not returned -/
  writing : ℕ
  queuedTotal : ℕ
  writtenTotal : ℕ
  /-- each event with the `queuedTotal` it followed -/
  events : List (ℕ × PortEvent)

namespace PortState
variable {ρ : Type} (R : Role ρ)

/-- Poll up to `fuel` events of a role. -/
def pollEvents : ℕ → ρ → List RoleEvent × ρ
  | 0, r => ([], r)
  | fuel + 1, r =>
    match R.pollEvent r with
    | none => ([], r)
    | some (e, r') => (e :: (pollEvents fuel r').1, (pollEvents fuel r').2)

theorem pollEvents_done (r : ρ) : R.pollEvent (pollEvents R (R.queued r) r).2 = none := by
  have hrun : ∀ fuel r, R.queued r = fuel → R.pollEvent (pollEvents R fuel r).2 = none := by
    intro fuel
    induction fuel with
    | zero =>
      intro r hr
      rcases h : R.pollEvent r with _ | ⟨e, r'⟩
      · exact h
      · rw [R.queued_pollEvent r e r' h] at hr
        cases hr
    | succ fuel ih =>
      intro r hr
      obtain ⟨⟨e, r'⟩, h⟩ := Option.isSome_iff_exists.1
        (R.pollEvent_of_queued r (by rw [hr]; exact Nat.succ_ne_zero fuel))
      rw [pollEvents, h]
      exact ih r' (Nat.succ.inj ((R.queued_pollEvent r e r' h).symm.trans hr))
  exact hrun _ r rfl

variable {R}

/-- One event of the role. -/
def sort (s : PortState ρ) : RoleEvent → PortState ρ
  | .toPrinter data =>
    { s with queuedTotal := s.queuedTotal + data.length, toPrinter := s.toPrinter ++ data }
  | .rename name => { s with events := s.events ++ [(s.queuedTotal, .rename name)] }
  | .event e => { s with events := s.events ++ [(s.queuedTotal, .event e)] }

/-- Job bytes taken off the network and not yet written. -/
def held (s : PortState ρ) : ℕ := s.toPrinter.length + s.writing

variable (R)

/-- Sort the role's events, then tell it how much room is left. -/
def settle (s : PortState ρ) (now : Micros) : Option (PortState ρ) :=
  let (events, role) := pollEvents R (R.queued s.role) s.role
  let s := run sort { s with role } events
  (R.setCredit s.role (WINDOW - s.held) now).map fun role => { s with role }

variable {R}

/-- The next event whose preceding bytes have all been written. -/
def nextEvent (s : PortState ρ) : Option PortEvent × PortState ρ :=
  match s.events with
  | (after, e) :: events =>
    if after ≤ s.writtenTotal then (some e, { s with events }) else (none, s)
  | [] => (none, s)

variable (R)

/-- A datagram for the role. -/
def handleDatagram (s : PortState ρ) (dst : UInt8) (src : ServiceAddress) (payload : Bytes)
    (now : Micros) : Option (PortState ρ) :=
  (R.handleDatagram s.role dst src payload now).bind fun role =>
    settle R { s with role } now

/-- The timers of the role. -/
def poll (s : PortState ρ) (now : Micros) : Option (PortState ρ) :=
  (R.poll s.role now).bind fun role => settle R { s with role } now

/-- What the port's reader produced. -/
def input (s : PortState ρ) (data : Bytes) (now : Micros) : Option (PortState ρ) :=
  settle R { s with role := R.printerInput s.role data now } now

variable {R}

/-- The bytes of the next write. -/
def block (s : PortState ρ) : Bytes := s.toPrinter.take (min s.toPrinter.length OUT_LEN)

/-- Take a block out of the queue. -/
def take (s : PortState ρ) : PortState ρ :=
  { s with
    toPrinter := s.toPrinter.drop (min s.toPrinter.length OUT_LEN)
    writing := s.writing + min s.toPrinter.length OUT_LEN }

variable (R)

/-- A write of `n` bytes is over, however it ended. -/
def release (s : PortState ρ) (n : ℕ) (now : Micros) : Option (PortState ρ) :=
  settle R { s with writing := s.writing - n, writtenTotal := s.writtenTotal + n } now

/-- A port in front of a new role, granted its first window. -/
def bind (role : ρ) (now : Micros) : Option (PortState ρ) :=
  settle R { role
             toPrinter := []
             writing := 0
             queuedTotal := 0
             writtenTotal := 0
             events := [] } now

end PortState

/-! ## Serving a printer -/

/-- A write that is not over: the length of its block, and what the port has
    not taken of it. -/
structure PortWrite where
  n : ℕ
  rest : Bytes

/-- A port and the task that serves it. -/
structure Printer (ρ : Type) where
  port : PortState ρ
  write : Option PortWrite

/-- The node's runner calls the port, or `run` goes on to its next suspension point. -/
inductive PrinterAct where
  | handleDatagram (dst : UInt8) (src : ServiceAddress) (payload : Bytes) (now : Micros)
  | poll (now : Micros)
  | pollTransmit
  /-- the top of the loop of `run`: return an event that is due -/
  | nextEvent
  /-- hand a block to the port -/
  | startWrite
  /-- the port takes some bytes of the block -/
  | accept (n : ℕ)
  /-- the write returns, with or without an error, or is abandoned -/
  | endWrite (now : Micros)
  /-- bytes from the port's reader -/
  | input (data : Bytes) (now : Micros)

namespace Printer
variable {ρ : Type} (R : Role ρ)

/-- One action of the task or of the runner. -/
def step (p : Printer ρ) : PrinterAct → Option (Printer ρ)
  | .handleDatagram dst src payload now =>
    (p.port.handleDatagram R dst src payload now).map fun port => { p with port }
  | .poll now => (p.port.poll R now).map fun port => { p with port }
  | .pollTransmit => some { p with port := { p.port with role := R.pollTransmit p.port.role } }
  | .nextEvent => some (if p.write.isNone then { p with port := p.port.nextEvent.2 } else p)
  | .startWrite =>
    some (if p.write.isNone ∧ p.port.block ≠ [] then
      { port := p.port.take, write := some ⟨p.port.block.length, p.port.block⟩ }
    else p)
  | .accept n => some { p with write := p.write.map fun w => { w with rest := w.rest.drop n } }
  | .endWrite now =>
    match p.write with
    | none => some p
    | some w => (p.port.release R w.n now).map fun port => { port, write := none }
  | .input data now =>
    if p.write.isNone then (p.port.input R data now).map fun port => { p with port } else some p

end Printer

end TailTalk
