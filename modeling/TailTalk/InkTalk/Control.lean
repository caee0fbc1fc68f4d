/-
  The control channel — what a client of an InkTalk reads and sets.

  `handle` answers one frame.  `setConfig` checks every item of a request
  before it changes anything; then it renames the printer, makes the
  configuration the active one, and saves it last.  The other commands change
  nothing.
-/
import TailTalk.InkTalk.Config
import TailTalk.Printer.Naming

namespace TailTalk.InkTalk

open Lib

/-- `ostype(b"INFO")` -/
def ostype (c₀ c₁ c₂ c₃ : UInt8) : OSType := readBe32 [c₀, c₁, c₂, c₃]

namespace Cmd

/-- Commands. -/
def HELLO : OSType := ostype 0x48 0x45 0x4C 0x4F
def INFO : OSType := ostype 0x49 0x4E 0x46 0x4F
def SET_CONFIG : OSType := ostype 0x53 0x45 0x54 0x43
def REBOOT : OSType := ostype 0x42 0x4F 0x4F 0x54

end Cmd

namespace Tag

/-- Tags of items. -/
def PROTOCOL : OSType := ostype 0x70 0x72 0x6F 0x74
def FIRMWARE : OSType := ostype 0x66 0x77 0x76 0x72
def MAX_FRAME : OSType := ostype 0x6D 0x61 0x78 0x66
def NAME : OSType := ostype 0x6E 0x61 0x6D 0x65
def ROLE : OSType := ostype 0x72 0x6F 0x6C 0x65
def BAUD : OSType := ostype 0x62 0x61 0x75 0x64
def LIVE_NAME : OSType := ostype 0x6C 0x6E 0x61 0x6D
def REBOOT_NEEDED : OSType := ostype 0x72 0x62 0x6F 0x74
def REBOOTING : OSType := ostype 0x62 0x6F 0x6F 0x74
def JOB_ACTIVE : OSType := ostype 0x6A 0x6F 0x62 0x20
def PRINTER_READY : OSType := ostype 0x72 0x64 0x79 0x20
def UPTIME : OSType := ostype 0x75 0x70 0x74 0x6D
def ADDRESS : OSType := ostype 0x61 0x64 0x64 0x72
def PRINTER_TX : OSType := ostype 0x70 0x74 0x78 0x62
def PRINTER_RX : OSType := ostype 0x70 0x72 0x78 0x62
def PRINTER_MODEL : OSType := ostype 0x6D 0x6F 0x64 0x6C
def ERROR_TAG : OSType := ostype 0x65 0x74 0x61 0x67

end Tag

namespace Err

/-- Results. -/
def NO_ERR : Int16 := 0
def UNIMPLEMENTED : Int16 := -4
def PARAM : Int16 := -50
def BAD_FRAME : Int16 := -29001
def BUSY : Int16 := -29002
def FLASH : Int16 := -29003
def UNKNOWN_TAG : Int16 := -29004
def INTERNAL : Int16 := -29005

end Err

/-! ## Items -/

namespace Item

/-- The value of an item of two bytes. -/
def u16 (i : Item) : Option UInt16 := if i.data.length = 2 then some (readBe16 i.data) else none

/-- The value of an item of four bytes. -/
def u32 (i : Item) : Option UInt32 := if i.data.length = 4 then some (readBe32 i.data) else none

/-- The characters of a Pascal string, if the length byte matches the size of the item. -/
def pstr (i : Item) : Option Bytes :=
  match i.data with
  | [] => none
  | n :: chars => if chars.length = n.toNat then some chars else none

end Item

/-- A name from the wire: printable ASCII. -/
def nameFromWire (chars : Bytes) : Option Str31 :=
  if chars.all fun c => decide (0x20 ≤ c ∧ c < 0x7F) then parseName chars else none

/-- The role of a number of two bytes. -/
def roleFromWire (r : UInt16) : Option Role :=
  if r.toNat < 256 then Role.fromU8 r.toUInt8 else none

/-! ## The device -/

/-- What was loaded at boot. -/
structure Running where
  role : Role
  baud : UInt32

/-- The control entity, kept in step with the printer's name. -/
structure Registration where
  socket : UInt8
  entity : Option EntityName
  name : Bytes

/-- What the commands read and change. -/
structure Device where
  active : Option Config
  /-- the printer, until it is dropped -/
  printer : Option PortName
  nbp : NbpRegistry
  reg : Registration
  /-- the block of the configuration -/
  flash : Bytes
  running : Running
  jobActive : Bool

/-- The name the printer is registered under. -/
def Device.live (d : Device) : Option Bytes := d.printer.map (·.name)

/-- What else an `INFO` reply tells. -/
structure Status where
  printerReady : Bool
  uptime : UInt32
  address : Option AppleTalkAddress
  printerTx : UInt32
  printerRx : UInt32
  /-- unless the printer is still being asked, or need not be -/
  printerModel : Option Bytes

/-- Whether a configuration takes a restart to come into effect. -/
def needsRestart (cfg : Config) (running : Running) : Bool :=
  decide (cfg.role ≠ running.role) || decide (cfg.baud.1 ≠ running.baud)

/-- The version of the protocol. -/
def PROTOCOL_VERSION : UInt16 := 1

/-- Some pushes, up to the first that does not fit. -/
def FrameWriter.write (w : FrameWriter) : List Push → Except Overflow Unit × FrameWriter
  | [] => (.ok (), w)
  | p :: pushes =>
    match w.push p with
    | (.ok (), w) => w.write pushes
    | (.error e, w) => (.error e, w)

/-- Who answers. -/
def hello (buildId : Bytes) (w : FrameWriter) : Except Overflow Unit × FrameWriter :=
  w.write [
    .u16 Tag.PROTOCOL PROTOCOL_VERSION,
    .pstr Tag.FIRMWARE (buildId.take 31),
    .u16 Tag.MAX_FRAME (UInt16.ofNat MAX_FRAME_LEN)]

/-- All there is to know. -/
def info (d : Device) (status : Status) (w : FrameWriter) : Except Overflow Unit × FrameWriter :=
  let live := d.live.getD []
  let configured : List Push :=
    match d.active with
    | none => []
    | some cfg => [
        .pstr Tag.NAME cfg.name.1,
        .u16 Tag.ROLE cfg.role.code.toUInt16,
        .u32 Tag.BAUD cfg.baud.1,
        .boolean Tag.REBOOT_NEEDED (needsRestart cfg d.running || decide (cfg.name.1 ≠ live))]
  let address : List Push :=
    match status.address with
    | none => []
    | some a => [.item Tag.ADDRESS (be16 a.networkNumber ++ [a.nodeNumber, 0])]
  let model : List Push :=
    match status.printerModel with
    | none => []
    | some model => [.pstr Tag.PRINTER_MODEL model]
  let state : List Push := [
    .pstr Tag.LIVE_NAME live,
    .boolean Tag.JOB_ACTIVE d.jobActive,
    .boolean Tag.PRINTER_READY status.printerReady,
    .u32 Tag.UPTIME status.uptime]
  let counters : List Push := [
    .u32 Tag.PRINTER_TX status.printerTx,
    .u32 Tag.PRINTER_RX status.printerRx]
  w.write (configured ++ state ++ address ++ counters ++ model)

section
variable (encode : Bytes → Option NbpName)

namespace Registration

/-- The type that a client looks for. -/
def NBP_TYPE : Bytes := [0x49, 0x6E, 0x6B, 0x54, 0x61, 0x6C, 0x6B]

/-- `<name>:InkTalk@*`, in a string of 64 bytes. -/
def entityName (name : Bytes) : Option EntityName :=
  let s := EntityName.format name NBP_TYPE
  if s.length ≤ 64 then (EntityName.tryFrom encode s).toOption else none

/-- Register under a new name, or go on answering under the old one. -/
def follow (reg : Registration) (nbp : NbpRegistry) (name : Bytes) : Registration × NbpRegistry :=
  if reg.entity.isSome ∧ reg.name = name then (reg, nbp)
  else
    match entityName encode name with
    | none => (reg, nbp)
    | some new =>
      let cleared :=
        match reg.entity with
        | some old => (nbp.unregister old reg.socket).2
        | none => nbp
      match cleared.register new reg.socket, reg.entity with
      | .ok nbp, _ =>
        ({ reg with
          entity := some new
          name := if name.length ≤ MAX_NAME_LEN then name else reg.name }, nbp)
      | .error _, some old => (reg, (cleared.register old reg.socket).toOption.getD cleared)
      | .error _, none => (reg, cleared)

end Registration

/-- Give the printer a name it does not have, and the control entity after it. -/
def Device.takeName (d : Device) (name : Bytes) : Except RenameError Unit × Device :=
  if d.live ≠ some name then
    match PortName.set encode d.printer d.nbp name with
    | (.error e, printer, nbp) => (.error e, { d with printer, nbp })
    | (.ok (), printer, nbp) =>
      let (reg, nbp) := d.reg.follow encode nbp name
      (.ok (), { d with printer, nbp, reg })
  else (.ok (), d)

/-! ## Requests -/

/-- The result, if there was room for the reply, the reply so far, and whether to restart. -/
structure Answer where
  result : Except Overflow Int16
  w : FrameWriter
  reboot : Bool
  device : Device

/-- The result of the reply. -/
def Answer.code (a : Answer) : Int16 :=
  match a.result with
  | .ok result => result
  | .error _ => Err.INTERNAL

/-- An error reply that names the item that is refused. -/
def refuse (w : FrameWriter) (code : Int16) (item : OSType) (d : Device) : Answer :=
  let (sent, w) := w.u32 Tag.ERROR_TAG item
  ⟨sent.map fun _ => code, w, false, d⟩

/-- One item of a request: the configuration so far, and the name if there was one. -/
def setItem (acc : Config × Option Str31) (i : Item) :
    Except (Int16 × OSType) (Config × Option Str31) :=
  if i.tag = Tag.NAME then
    match i.pstr.bind nameFromWire with
    | some name => .ok (acc.1, some name)
    | none => .error (Err.PARAM, i.tag)
  else if i.tag = Tag.ROLE then
    match i.u16.bind roleFromWire with
    | some role => .ok ({ acc.1 with role }, acc.2)
    | none => .error (Err.PARAM, i.tag)
  else if i.tag = Tag.BAUD then
    match i.u32.bind Baud.ofU32 with
    | some baud => .ok ({ acc.1 with baud }, acc.2)
    | none => .error (Err.PARAM, i.tag)
  else .error (Err.UNKNOWN_TAG, i.tag)

/-- Make a configuration the active one and save it. -/
def activate (w : FrameWriter) (cfg : Config) (restart : Bool) (d : Device)
    (failure : Option FlashFailure) : Answer :=
  let d := { d with active := some cfg }
  match cfg.save failure d.flash with
  | (.error _, flash) => ⟨.ok Err.FLASH, w, false, { d with flash }⟩
  | (.ok (), flash) =>
    let (sent, w) := w.boolean Tag.REBOOTING restart
    ⟨sent.map fun _ => Err.NO_ERR, w, restart, { d with flash }⟩

/-- What is done once every item has been checked. -/
def setChecked (w : FrameWriter) (cfg : Config) (newName : Option Str31) (d : Device)
    (failure : Option FlashFailure) : Answer :=
  let restart := needsRestart cfg d.running
  -- Restarting in the middle of a job would cut the page off.
  if restart && d.jobActive then ⟨.ok Err.BUSY, w, false, d⟩
  else
    match newName with
    | none => activate w cfg restart d failure
    | some name =>
      match d.takeName encode name.1 with
      | (.error _, d) => refuse w Err.PARAM Tag.NAME d
      | (.ok (), d) => activate w { cfg with name } restart d failure

/-- Apply every item or none of them, then save.  `failure` is what becomes of the write. -/
def setConfig (w : FrameWriter) (items : Items) (d : Device) (failure : Option FlashFailure) :
    Answer :=
  match d.active with
  | none => ⟨.ok Err.BUSY, w, false, d⟩
  | some cfg =>
    match items.iter.collect.1.foldlM setItem (cfg, none) with
    | .error (code, item) => refuse w code item d
    | .ok (cfg, newName) => setChecked encode w cfg newName d failure

/-- The reply to a frame, and whether to restart after it. -/
def handle (buildId : Bytes) (status : Status) (frame out : Bytes) (d : Device)
    (failure : Option FlashFailure) : (Bytes × Bool) × Device :=
  let header := (Header.parse frame).toOption.getD ⟨0, 0, 0⟩
  match FrameWriter.new out header.seq header.command with
  | .error _ => (([], false), d)
  | .ok w =>
    let noErr (written : Except Overflow Unit × FrameWriter) (reboot : Bool) : Answer :=
      ⟨written.1.map fun _ => Err.NO_ERR, written.2, reboot, d⟩
    let answer : Answer :=
      match Items.ofFrame frame with
      | .error _ => ⟨.ok Err.BAD_FRAME, w, false, d⟩
      | .ok items =>
        if header.command = Cmd.HELLO then noErr (hello buildId w) false
        else if header.command = Cmd.INFO then noErr (info d status w) false
        else if header.command = Cmd.SET_CONFIG then setConfig encode w items d failure
        else if header.command = Cmd.REBOOT then
          if d.jobActive then ⟨.ok Err.BUSY, w, false, d⟩
          else noErr (w.boolean Tag.REBOOTING true) true
        else ⟨.ok Err.UNIMPLEMENTED, w, false, d⟩
    ((answer.w.finish answer.code, answer.reboot), answer.device)

end

end TailTalk.InkTalk
