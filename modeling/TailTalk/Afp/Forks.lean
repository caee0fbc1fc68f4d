/-
  Open forks — opening and closing, reading and writing, lengths, syncs and
  byte-range locks.

  A fork reference names a node and one of its forks; the handle is kept in the
  node.
-/
import TailTalk.Afp.Parms

namespace TailTalk

open Lib

/-- What an FPRead asks for. -/
structure FPRead where
  forkId : UInt16
  offset : ℕ
  reqCount : ℕ
  newlineMask : UInt8
  newlineChar : UInt8

/-- A byte that ends a line. -/
def FPRead.byteMatchesNewline (req : FPRead) (byte : UInt8) : Bool :=
  byte &&& req.newlineMask = req.newlineChar

/-- A length for one fork. -/
structure FPSetForkParms where
  forkRefNum : UInt16
  dataForkLength : Option ℕ
  resourceForkLength : Option ℕ

/-- A range to lock or unlock. -/
structure FPByteRangeLock where
  forkId : UInt16
  offset : ℤ
  length : ℕ
  /-- the flags -/
  unlock : Bool
  fromEnd : Bool

/-- The access mode bit for writing. -/
def AFP_ACCESS_WRITE : UInt16 := 0x0002

namespace Volume

variable (sys : Sys)

/-- The node and the fork of a reference. -/
def forkOf (forkId : UInt16) (e : AfpError) : Afp (NodeId × ForkType) := do
  let v ← Proc.read
  Proc.orElse v.forkRefToNodeId[forkId]? e

/-- Another handle for a fork. -/
def setHandle (nodeId : NodeId) (forkType : ForkType) (file : Option Handle) : Afp Unit :=
  updateNode nodeId (·.setFork forkType file)

/-- Where the file now stands. -/
def setPos (forkId : UInt16) (pos : ℕ) : Afp Unit := Proc.modify fun v =>
  { v with forkPos := v.forkPos.insert forkId pos }

/-- No one knows where it stands. -/
def forgetPos (forkId : UInt16) : Afp Unit := Proc.modify fun v =>
  { v with forkPos := v.forkPos.erase forkId }

/-- Insertion into the set of dirty forks. -/
def withDirty (key : NodeId × ForkType) (v : Volume) : Volume :=
  { v with dirtyForks := if key ∈ v.dirtyForks then v.dirtyForks else key :: v.dirtyForks }

theorem mem_withDirty {key other : NodeId × ForkType} {v : Volume} :
    other ∈ (withDirty key v).dirtyForks ↔ other = key ∨ other ∈ v.dirtyForks := by
  simp only [withDirty]
  split
  · rename_i h
    exact ⟨Or.inr, fun h' => h'.elim (fun heq => heq ▸ h) id⟩
  · exact List.mem_cons

/-- A fork to sync. -/
def markDirty (key : NodeId × ForkType) : Afp Unit := Proc.modify (withDirty key)

/-- A fork that is synced. -/
def clearDirty (key : NodeId × ForkType) : Afp Unit := Proc.modify fun v =>
  { v with dirtyForks := v.dirtyForks.filter (· ≠ key) }

/-! ## Opening and closing -/

/-- `open_data_fork` -/
def openDataFork (node : Node) : Afp Handle :=
  host .accessDenied (Disk.openFile sys node.hostPath)

/-- `open_resource_fork`: the sidecar and the directories above it are created if need be. -/
def openResourceFork (node : Node) : Afp Handle := do
  let _ ← resolveResourceForkPath sys node.path
  host .accessDenied (Disk.createDirAll sys (.sidecarParent node.path))
  host .accessDenied (Disk.openCreate sys (.sidecar node.path))

/-- A handle for either fork. -/
def openHandle (forkType : ForkType) (node : Node) : Afp Handle :=
  match forkType with
  | .data => openDataFork sys node
  | .resource => openResourceFork sys node

/-- A number for a new reference, never zero. -/
def nextForkRef (n : UInt16) : UInt16 := if n + 1 = 0 then 1 else n + 1

/-- Register a reference for a fork that was opened. -/
def addForkRef (nodeId : NodeId) (forkType : ForkType) (accessMode : UInt16) : Afp UInt16 := do
  let v ← Proc.read
  let forkRefNum := v.nextForkRefNum
  Proc.modify fun v => { v with
    nextForkRefNum := nextForkRef v.nextForkRefNum
    forkRefToNodeId := v.forkRefToNodeId.insert forkRefNum (nodeId, forkType)
    forkAccess := v.forkAccess.insert forkRefNum accessMode
    forkPos := v.forkPos.insert forkRefNum 0 }
  pure forkRefNum

variable [MacRoman]

/-- FPOpenFork. -/
def openFork (forkType : ForkType) (bitmap : Bitmap) (accessMode : UInt16) (dirId : NodeId)
    (relPath : Path) (out : Bytes) : Afp (Bytes × ℕ) := do
  let id ← resolveNodeLazy sys dirId relPath
  let node ← getNode id
  if (node.fork forkType).isSome then Proc.throw .fileBusy
  else
    let file ← openHandle sys forkType node
    setHandle id forkType (some file)
    let forkRefNum ← addForkRef id forkType accessMode
    let out ← Proc.lift (store out 0 (be16 bitmap))
    let out ← Proc.lift (store out 2 (be16 forkRefNum))
    let (out, len) ← getFileParmsResp sys bitmap node.path out 4
    pure (out, 4 + len)

omit [MacRoman] in
/-- `close_data_fork` and `close_resource_fork`: what the sync says is dropped. -/
def closeHandle (nodeId : NodeId) (node : Node) (forkType : ForkType) : Afp Unit :=
  match node.fork forkType with
  | some file => do
    let _ ← tryHost (Disk.sync sys file)
    setHandle nodeId forkType none
  | none => pure ()

/-- FPCloseFork. -/
def closeFork (forkId : UInt16) : Afp Unit := do
  let (nodeId, forkType) ← forkOf forkId .objectNotFound
  let node ← getNode nodeId
  closeHandle sys nodeId node forkType
  Proc.modify fun v => { v with
    forkRefToNodeId := v.forkRefToNodeId.erase forkId
    forkAccess := v.forkAccess.erase forkId
    forkPos := v.forkPos.erase forkId }
  clearDirty (nodeId, forkType)
  Proc.modify fun v => { v with forkLocks := v.forkLocks.erase forkId }

/-! ## Reading -/

/-- Read until `want` bytes are there, a byte ends the line, or the file ends. Each turn reads one
    at least. -/
def readLoop (stops : UInt8 → Bool) (d : Disk) :
    ℕ → Handle → ℕ → Bytes → Option (Bytes × Bool) × Handle
  | 0, file, _, got => (some (got, false), file)
  | fuel + 1, file, want, got =>
    if want = 0 then (some (got, false), file)
    else match Disk.readSome sys d file want with
      | none => (none, file)
      | some ([], file) => (some (got, true), file)
      | some (chunk, file) =>
        match chunk.findIdx? stops with
        | some i => (some (got ++ chunk.take (i + 1), false), file)
        | none => readLoop stops d fuel file (want - chunk.length) (got ++ chunk)

/-- Put the file at a position, unless it is there. -/
def seekFork (forkId : UInt16) (nodeId : NodeId) (forkType : ForkType) (file : Handle)
    (pos : ℕ) (e : AfpError) : Afp Handle := do
  let v ← Proc.read
  if v.forkPos[forkId]? = some pos then pure file
  else match Disk.seek sys file pos with
    | none => do
      forgetPos forkId
      Proc.throw e
    | some file => do
      setHandle nodeId forkType (some file)
      setPos forkId pos
      pure file

/-- The bytes read and whether the fork ended. -/
def readFork (req : FPRead) (outLen : ℕ) : Afp (Bytes × Bool) := do
  let (nodeId, forkType) ← forkOf req.forkId .objectNotFound
  let node ← getNode nodeId
  let file ← Proc.orElse (node.fork forkType) .objectNotFound
  let file ← seekFork sys req.forkId nodeId forkType file req.offset .accessDenied
  let maxBytes := min req.reqCount outLen
  let newline := req.newlineMask ≠ 0
  let v ← Proc.read
  let stops := fun byte => newline && req.byteMatchesNewline byte
  match readLoop sys stops v.disk maxBytes file maxBytes [] with
  | (none, file) => do
    setHandle nodeId forkType (some file)
    forgetPos req.forkId
    Proc.throw .accessDenied
  | (some (data, eof), file) => do
    let endOffset := req.offset + data.length
    -- the newline scan may have read too far
    match if newline then Disk.seek sys file endOffset else some file with
    | none => do
      setHandle nodeId forkType (some file)
      forgetPos req.forkId
      Proc.throw .accessDenied
    | some file => do
      setHandle nodeId forkType (some file)
      setPos req.forkId endOffset
      pure (data, eof)

/-! ## Writing -/

/-- A client that asked for access without write may not write. -/
def writeRefused (v : Volume) (forkId : UInt16) : Bool :=
  match v.forkAccess[forkId]? with
  | some mode => mode ≠ 0 ∧ mode &&& AFP_ACCESS_WRITE = 0
  | none => false

/-- FPWrite, at an offset. -/
def writeFork (forkId : UInt16) (offset : ℕ) (data : Bytes) : Afp ℕ := do
  let v ← Proc.read
  if writeRefused v forkId then Proc.throw .accessDenied
  else
    let (nodeId, forkType) ← forkOf forkId .accessDenied
    let node ← getNode nodeId
    let file ← Proc.orElse (node.fork forkType) .accessDenied
    let file ← seekFork sys forkId nodeId forkType file offset .miscErr
    let v ← Proc.read
    let (written, file, disk) := Disk.writeAll sys data.length file data v.disk
    Proc.modify fun v => { v with disk := disk }
    setHandle nodeId forkType (some file)
    markDirty (nodeId, forkType)
    if written then
      setPos forkId (offset + data.length)
      pure data.length
    else
      forgetPos forkId
      Proc.throw .miscErr

/-- Set the length of the fork that the reference names; asking for the other is an error. -/
def setForkParms (cmd : FPSetForkParms) : Afp Unit := do
  let (nodeId, forkType) ← forkOf cmd.forkRefNum .objectNotFound
  let node ← getNode nodeId
  let (own, other) := match forkType with
    | .data => (cmd.dataForkLength, cmd.resourceForkLength)
    | .resource => (cmd.resourceForkLength, cmd.dataForkLength)
  if other.isSome then Proc.throw .bitmapErr
  else match own with
    | none => pure ()
    | some len => do
      let file ← Proc.orElse (node.fork forkType) .objectNotFound
      host .accessDenied (Disk.setLen sys file len)
      forgetPos cmd.forkRefNum
      markDirty (nodeId, forkType)

/-! ## Syncs -/

/-- Sync one fork, if it is still open. -/
def syncDirty (key : NodeId × ForkType) : Afp Bool := do
  let v ← Proc.read
  match (v.nodes[key.1]?).bind (·.fork key.2) with
  | none => pure true
  | some file => do
    let synced ← tryHost (Disk.sync sys file)
    match synced with
    | some () => pure true
    | none => do
      markDirty key
      pure false

/-- Every dirty fork in turn; whether all of them were synced. -/
def syncAll : List (NodeId × ForkType) → Afp Bool
  | [] => pure true
  | key :: keys => do
    let one ← syncDirty sys key
    let rest ← syncAll keys
    pure (one && rest)

/-- FPFlush. -/
def sync : Afp Unit := do
  let v ← Proc.read
  Proc.modify fun v => { v with dirtyForks := [] }
  let synced ← syncAll sys v.dirtyForks
  if synced then pure () else Proc.throw .accessDenied

/-- An unknown fork needs no sync. -/
def syncFork (forkId : UInt16) : Afp Unit := do
  let v ← Proc.read
  match v.forkRefToNodeId[forkId]? with
  | none => pure ()
  | some (nodeId, forkType) => do
    let node ← getNode nodeId
    match node.fork forkType with
    | some file => host .accessDenied (Disk.sync sys file)
    | none => pure ()
    clearDirty (nodeId, forkType)

/-! ## Byte-range locks -/

/-- The end of a range, at most the largest 64-bit number. -/
def saturatingAdd (a b : ℕ) : ℕ := min (a + b) 18446744073709551615

/-- The ranges locked under a reference. -/
def setLocks (forkId : UInt16) (locks : List (ℕ × ℕ)) : Afp Unit := Proc.modify fun v =>
  { v with forkLocks := v.forkLocks.insert forkId locks }

/-- Where a range starts.  Negating the least 32-bit number is an overflow. -/
def lockOffset (req : FPByteRangeLock) (forkSize : ℕ) : Checked ℕ :=
  if req.fromEnd then
    if req.offset < 0 then
      if req.offset = -2147483648 then .error .overflow
      else .ok (forkSize - (-req.offset).toNat)
    else .ok (saturatingAdd forkSize req.offset.toNat)
  else .ok req.offset.toNat

/-- Two ranges have a byte in common. -/
def rangesOverlap (start length : ℕ) (held : ℕ × ℕ) : Bool :=
  start < saturatingAdd held.1 held.2 ∧ held.1 < saturatingAdd start length

/-- The size is that of the file, whichever fork the reference names. -/
def byteRangeLock (req : FPByteRangeLock) : Afp UInt32 := do
  let (nodeId, _) ← forkOf req.forkId .objectNotFound
  let node ← getNode nodeId
  let info ← host .objectNotFound (Disk.metadata sys node.hostPath)
  let start ← Proc.lift (lockOffset req info.len)
  let v ← Proc.read
  let locks := v.forkLocks[req.forkId]?.getD []
  setLocks req.forkId locks
  if req.unlock then
    if (start, req.length) ∈ locks then
      setLocks req.forkId (locks.erase (start, req.length))
      pure 0
    else Proc.throw .rangeNotLocked
  else if locks.any (rangesOverlap start req.length) then Proc.throw .rangeOverlap
  else
    setLocks req.forkId (locks ++ [(start, req.length)])
    pure (UInt32.ofNat start)

end Volume

end TailTalk
