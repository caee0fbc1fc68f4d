/-
  Listing a directory — a sorted snapshot, cut into pages.

  The first page of a listing takes the snapshot, later pages read on in it by
  position.  A page ends where the count or the reply is full; an entry whose
  parameters cannot be read is left out of it.
-/
import TailTalk.Afp.Objects
import Mathlib.Data.List.Sort

namespace TailTalk

open Lib

/-- A page of a directory. -/
structure FPEnumerate where
  volumeId : UInt16
  directoryId : NodeId
  fileBitmap : Bitmap
  directoryBitmap : Bitmap
  reqCount : ℕ
  startIndex : ℕ
  maxReplySize : ℕ
  path : MacString

/-- Directories before files, each in the order of their names. -/
def entryLe (a b : Name × Bool) : Prop :=
  if a.2 = b.2 then compare a.1 b.1 ≠ .gt else a.2 = true

instance (a b : Name × Bool) : Decidable (entryLe a b) := by
  unfold entryLe
  infer_instance

/-- A page as far as it is written. -/
structure Page where
  out : Bytes
  offset : ℕ
  count : ℕ

namespace Volume

variable (sys : Sys)

/-- The entries of a directory with their kinds, less the server's. -/
def entryKinds (path : Path) : List Name → Afp (List (Name × Bool))
  | [] => pure []
  | name :: names => do
    if isPrivateName name then entryKinds path names
    else
      let isDir ← host .objectNotFound (Disk.fileType sys (.object (path ++ [name]) false))
      let rest ← entryKinds path names
      pure ((name, isDir) :: rest)

/-- The first page keeps the entries. -/
def setSnapshot (nodeId : NodeId) (entries : List (Name × Bool)) : Afp Unit := Proc.modify fun v =>
  { v with enumCache := v.enumCache.insert nodeId entries }

/-- The snapshot of a directory, taken anew for the first page. -/
def snapshot (nodeId : NodeId) (node : Node) (startIndex : ℕ) : Afp (List (Name × Bool)) := do
  let v ← Proc.read
  match if startIndex = 1 then none else v.enumCache[nodeId]? with
  | some entries => pure entries
  | none => do
    let names ← host .objectNotFound (Disk.readDir sys node.hostPath)
    let entries ← entryKinds sys node.path names
    let sorted := entries.insertionSort entryLe
    setSnapshot nodeId sorted
    pure sorted

variable [MacRoman]

/-- A node for an entry that has none yet. -/
def registerEntry (nodeId : NodeId) (nodePath : Path) (entry : Name × Bool) : Afp Unit := do
  let v ← Proc.read
  let path := nodePath ++ [entry.1]
  if v.pathToId.contains path then pure ()
  else
    let newId ← freshId
    insertNode (.fresh newId nodeId (posixNameToAfp entry.1) entry.2 path)
    registerMangle sys (posixNameToAfp entry.1) entry.1

/-- `FPFileBitmap::response_len` and `FPDirectoryBitmap::response_len` -/
def responseLen (widths : List (Bitmap × ℕ)) (bitmap : Bitmap) (afpName : Name) : ℕ :=
  fieldsLen widths bitmap + if bitmap.has Parm.LONG_NAME then (mangleName afpName).length + 1 else 0

/-- The parameters of an entry. -/
def entryParms (cmd : FPEnumerate) (path : Path) (isDir : Bool) (out : Bytes) (base : ℕ) :
    Afp (Bytes × ℕ) :=
  if isDir then getDirectoryParmsResp sys cmd.directoryBitmap path out base
  else getFileParmsResp sys cmd.fileBitmap path out base

/-- The length of an entry's parameters by its bitmap, and the pad byte that makes it even. -/
def entryLen (cmd : FPEnumerate) (entry : Name × Bool) : ℕ :=
  let afpName := posixNameToAfp entry.1
  if entry.2 then responseLen dirWidths cmd.directoryBitmap afpName
  else responseLen fileWidths cmd.fileBitmap afpName

/-- One entry, at the offset of the page.  `none` where the reply is full. -/
def writeEntry (cmd : FPEnumerate) (nodePath : Path) (entry : Name × Bool) (page : Page) :
    Afp (Option Page) := do
  let pad := entryLen cmd entry % 2
  let len := entryLen cmd entry + pad
  let fileType := if entry.2 then FileType.directory else FileType.file
  if page.offset + 2 + len > cmd.maxReplySize then pure none
  else
    let out ← Proc.lift (store page.out page.offset [UInt8.ofNat (len + 2)])
    let out ← Proc.lift (store out (page.offset + 1) [fileType.toByte])
    let parms ← Proc.attempt
      (entryParms sys cmd (nodePath ++ [entry.1]) entry.2 out (page.offset + 2))
    match parms with
    | .error _ => pure (some { page with out := out })
    | .ok (out, written) => do
      let out ← Proc.lift (store out (page.offset + 2 + written) (zeros pad))
      pure (some ⟨out, page.offset + 2 + written + pad, page.count + 1⟩)

/-- Entries while there is room. -/
def writeEntries (cmd : FPEnumerate) (nodeId : NodeId) (nodePath : Path) :
    List (Name × Bool) → Page → Afp Page
  | [], page => pure page
  | entry :: entries, page => do
    registerEntry sys nodeId nodePath entry
    let next ← writeEntry sys cmd nodePath entry page
    match next with
    | none => pure page
    | some page => writeEntries cmd nodeId nodePath entries page

/-- The entries of a page, by position. -/
def pageOf (entries : List (Name × Bool)) (startIndex reqCount : ℕ) : List (Name × Bool) :=
  (entries.drop (startIndex - 1)).take reqCount

/-- The buffer with the page, and its length. -/
def enumerate (cmd : FPEnumerate) (out : Bytes) : Afp (Bytes × ℕ) := do
  let v ← Proc.read
  let nodeId ← Proc.ofExcept (v.resolveNode sys cmd.directoryId (afpPathToPosix cmd.path.value))
  let node ← getNode nodeId
  if node.isDir = false then Proc.throw .objectTypeErr
  else if cmd.startIndex = 0 then Proc.throw .objectNotFound
  else
    let entries ← snapshot sys nodeId node cmd.startIndex
    if entries = [] then
      Proc.modify fun v => { v with enumCache := v.enumCache.erase nodeId }
      Proc.throw .objectNotFound
    else
      let page ← writeEntries sys cmd nodeId node.path
        (pageOf entries cmd.startIndex cmd.reqCount) ⟨out, 2, 0⟩
      let out ← Proc.lift (store page.out 0 (be16 (UInt16.ofNat page.count)))
      pure (out, page.offset)

end Volume

end TailTalk
