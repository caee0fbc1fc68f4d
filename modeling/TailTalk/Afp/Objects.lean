/-
  Files and directories — creation, moves, copies, deletion and comments.

  A move is written in three parts: `planMove` resolves both ends and checks
  for conflicts, `moveOnDisk` renames, and `recordMove` brings the maps, the
  sidecar and the database after it.  A copy has the same shape.
-/
import TailTalk.Afp.Forks

namespace TailTalk

open Lib

namespace Volume

variable (sys : Sys) [MacRoman]

/-! ## Creation -/

/-- A node for an object that was created, under the name it has on disk. -/
def registerObject (directoryId : NodeId) (isDir : Bool) (fullPath : Path)
    (onDiskName : Option Name) : Afp NodeId := do
  let newId ← freshId
  let onDiskName ← Proc.orElse onDiskName .objectNotFound
  let afpName := posixNameToAfp onDiskName
  insertNode (.fresh newId directoryId afpName isDir fullPath)
  registerMangle sys afpName onDiskName
  clearEnumCache
  pure newId

/-- FPCreateDir; the new directory is registered. -/
def createDir (directoryId : NodeId) (pathName : Path) : Afp NodeId := do
  let parent ← getNode directoryId
  let fullPath := parent.path ++ pathName
  let absolute := HostPath.object fullPath pathName.isEmpty
  let there ← tryHost (Disk.metadata sys absolute)
  if there.isNone then host .accessDenied (Disk.createDir sys absolute)
  let v ← Proc.read
  match v.pathToId[fullPath]? with
  | some id => pure id
  | none => registerObject sys directoryId true fullPath pathName.getLast?

/-- FPCreateFile, soft or hard. -/
def createFile (createFlag : CreateFlag) (directoryId : NodeId) (relativePath : Path) :
    Afp NodeId := do
  let parent ← getNode directoryId
  let fullPath := parent.path ++ relativePath
  let absolute := HostPath.object fullPath relativePath.isEmpty
  let there ← tryHost (Disk.metadata sys absolute)
  if there.isSome then
    match createFlag with
    | .soft => Proc.throw .objectExists
    | .hard => host .accessDenied (Disk.removeFile sys absolute)
  host .accessDenied (Disk.create sys absolute)
  registerObject sys directoryId false fullPath fullPath.getLast?

/-! ## Moves -/

/-- What a move or a copy is about to do. -/
structure Transfer where
  srcId : NodeId
  dstId : NodeId
  srcPath : Path
  srcIsDir : Bool
  newPath : Path
  /-- the new name for clients, and on disk -/
  afpName : Name
  posixName : Name

/-- The path and name in a directory; no new name keeps the old one. -/
def transferTo (src dst : Node) (srcId dstId : NodeId) (newName : Name) : Transfer :=
  let afpName := if newName = [] then src.name else newName
  let posixName := afpNameToPosixComponent afpName
  ⟨srcId, dstId, src.path, src.isDir, dst.path ++ [posixName], afpName, posixName⟩

/-- The path as the map of paths compares it: a `.` in it counts only at the front. -/
def pathKey (path : Path) : Path :=
  match path with
  | [] => []
  | first :: rest => first :: rest.filter (· ≠ ['.'])

/-- Where from and where to. -/
def planMove (srcDirId dstDirId : NodeId) (srcPath dstPath : Path) (newName : Name) :
    Afp Transfer := do
  let srcId ← resolveNodeLazy sys srcDirId srcPath
  if srcId ≤ ROOT_ID then Proc.throw .accessDenied
  else
    let dstId ← resolveNodeLazy sys dstDirId dstPath
    let src ← getNode srcId
    let dst ← getNode dstId
    if dst.isDir = false then Proc.throw .objectTypeErr
    else
      let plan := transferTo src dst srcId dstId newName
      let v ← Proc.read
      if pathKey plan.newPath ≠ src.path ∧ v.pathToId.contains (pathKey plan.newPath) = true then
        Proc.throw .objectExists
      else pure plan

/-- The object itself. -/
def moveOnDisk (plan : Transfer) : Afp Unit :=
  host .accessDenied
    (Disk.rename sys (.object plan.srcPath false) (.object plan.newPath false))

/-- The sidecar of a file goes along, if the rename of it succeeds. -/
def moveSidecar (plan : Transfer) : Afp Unit := do
  let there ← tryHost (Disk.metadata sys (.sidecar plan.srcPath))
  if there.isSome then
    let _ ← tryHost (Disk.rename sys (.sidecar plan.srcPath) (.sidecar plan.newPath))

/-- A node under its new path. -/
def setPath (id : NodeId) (oldPath newPath : Path) : Afp Unit := Proc.modify fun v =>
  { v with pathToId := (v.pathToId.erase oldPath).insert newPath id }

/-- The node itself, under its new path. -/
def moveNode (plan : Transfer) : Afp Unit := do
  setPath plan.srcId plan.srcPath plan.newPath
  unwrapNode plan.srcId fun node =>
    { node with parentId := plan.dstId, name := plan.afpName, path := plan.newPath }

/-- A path below the old one, below the new one. -/
def rebase (oldPath newPath path : Path) : Path := newPath ++ path.drop oldPath.length

/-- One registered descendant, with its comment. -/
def moveChild (oldPath newPath : Path) (child : NodeId × Path) : Afp Unit := do
  let newChildPath := rebase oldPath newPath child.2
  setPath child.1 child.2 newChildPath
  tryDatabase (DesktopDatabase.moveComment sys child.2 newChildPath)
  unwrapNode child.1 fun node => { node with path := newChildPath }

/-- The nodes below a path, less the one moved. -/
def descendants (v : Volume) (srcId : NodeId) (oldPath : Path) : List (NodeId × Path) :=
  (v.nodes.toList.filter fun e => e.1 ≠ srcId && oldPath.isPrefixOf e.2.path).map fun e =>
    (e.1, e.2.path)

/-- What is registered below a directory that moved. -/
def moveChildren (plan : Transfer) : Afp Unit := do
  let v ← Proc.read
  Proc.each (moveChild sys plan.srcPath plan.newPath) (v.descendants plan.srcId plan.srcPath)

/-- The comment and the application mappings. -/
def moveDesktop (plan : Transfer) (srcDirId : NodeId) : Afp Unit := do
  tryDatabase (DesktopDatabase.moveComment sys plan.srcPath plan.newPath)
  if plan.srcIsDir = false then
    tryDatabase (DesktopDatabase.moveApplPath sys plan.srcPath plan.newPath srcDirId plan.dstId)

/-- What else knows of the object. -/
def recordMove (plan : Transfer) (srcDirId : NodeId) : Afp Unit := do
  if plan.srcIsDir = false then moveSidecar sys plan
  moveNode plan
  if plan.srcIsDir then moveChildren sys plan
  moveDesktop sys plan srcDirId
  registerMangle sys plan.afpName plan.posixName
  clearEnumCache

/-- FPMoveAndRename. -/
def moveAndRename (srcDirId dstDirId : NodeId) (srcPath dstPath : Path) (newName : Name) :
    Afp Unit := do
  let plan ← planMove sys srcDirId dstDirId srcPath dstPath newName
  moveOnDisk sys plan
  recordMove sys plan srcDirId

/-- A move within its directory. -/
def rename (dirId : NodeId) (srcPath : Path) (newName : Name) : Afp Unit :=
  moveAndRename sys dirId dirId srcPath [] newName

/-! ## Deletion -/

/-- The file or the empty directory of a node. -/
def deleteOnDisk (node : Node) : Afp Unit :=
  if node.isDir then do
    let names ← host .objectNotFound (Disk.readDir sys node.hostPath)
    if names.isEmpty then host .accessDenied (Disk.removeDir sys node.hostPath)
    else Proc.throw .dirNotEmpty
  else if node.dataFork.isSome then Proc.throw .fileBusy
  else host .accessDenied (Disk.removeFile sys node.hostPath)

/-- Sidecar, comment, application mappings and node. -/
def forgetObject (nodeId : NodeId) (node : Node) : Afp Unit := do
  if node.isDir = false then
    let _ ← tryHost (Disk.removeFile sys (.sidecar node.path))
  tryDatabase (DesktopDatabase.removeComment sys node.path)
  if node.isDir = false then
    tryDatabase (DesktopDatabase.deleteApplsForPath sys node.parentId node.path)
  Proc.modify fun v => { v with
    nodes := v.nodes.erase nodeId, pathToId := v.pathToId.erase node.path }
  clearEnumCache

/-- FPDelete. -/
def delete (directoryId : NodeId) (path : Name) : Afp Unit := do
  let nodeId ← resolveNodeLazy sys directoryId (afpPathToPosix path)
  if nodeId = ROOT_ID then Proc.throw .accessDenied
  else
    let node ← getNode nodeId
    deleteOnDisk sys node
    forgetObject sys nodeId node

/-! ## Copies -/

/-- Where from and where to. -/
def planCopy (srcDirId : NodeId) (srcPath : Path) (dstDirId : NodeId) (dstPath : Path)
    (newName : Name) : Afp Transfer := do
  let srcId ← resolveNodeLazy sys srcDirId srcPath
  let src ← getNode srcId
  if src.isDir then Proc.throw .objectTypeErr
  else
    let dstId ← resolveNodeLazy sys dstDirId dstPath
    let dst ← getNode dstId
    if dst.isDir = false then Proc.throw .objectTypeErr
    else
      let plan := transferTo src dst srcId dstId newName
      let v ← Proc.read
      if v.pathToId.contains (pathKey plan.newPath) then Proc.throw .objectExists
      else pure plan

/-- The file and its attributes. -/
def copyOnDisk (plan : Transfer) : Afp Unit := do
  let src := HostPath.object plan.srcPath false
  let dst := HostPath.object plan.newPath false
  host .accessDenied (Disk.copy sys src dst)
  let info ← tryHost (Disk.getXattr sys src)
  match info with
  | some (some value) => do
    let _ ← tryHost (Disk.setXattr sys dst value)
  | _ => pure ()

/-- The resource fork of a file that is copied. -/
def copySidecar (plan : Transfer) : Afp Unit := do
  let there ← tryHost (Disk.metadata sys (.sidecar plan.srcPath))
  if there.isSome then
    let _ ← tryHost (Disk.createDirAll sys (.sidecarParent plan.newPath))
    let _ ← tryHost (Disk.copy sys (.sidecar plan.srcPath) (.sidecar plan.newPath))

/-- FPCopyFile; the copy is registered. -/
def copyFile (srcDirId : NodeId) (srcPath : Path) (dstDirId : NodeId) (dstPath : Path)
    (newName : Name) : Afp NodeId := do
  let plan ← planCopy sys srcDirId srcPath dstDirId dstPath newName
  copyOnDisk sys plan
  copySidecar sys plan
  tryDatabase (DesktopDatabase.copyComment sys plan.srcPath plan.newPath)
  tryDatabase (DesktopDatabase.copyAppl sys plan.srcPath plan.newPath srcDirId plan.dstId)
  let newId ← freshId
  insertNode (.fresh newId plan.dstId plan.afpName false plan.newPath)
  registerMangle sys plan.afpName plan.posixName
  clearEnumCache
  pure newId

/-! ## Desktop database -/

/-- FPOpenDT; the directory of the database is made. -/
def openDt : Afp UInt16 := do
  let there ← tryHost (Disk.metadata sys .appleDesktop)
  if there.isNone then
    let _ ← tryHost (Disk.createDir sys .appleDesktop)
  let v ← Proc.read
  pure v.desktopDatabase.dtRefNum

/-- A request on the database that the client opened. -/
def withDt {α : Type} (dtRefNum : UInt16) (call : Db α) : Afp α := do
  let v ← Proc.read
  if v.desktopDatabase.dtRefNum = dtRefNum then database call else Proc.throw .itemNotFound

/-- The path of a node that is registered. -/
def knownPath (directoryId : NodeId) (path : Path) : Afp Path := do
  let v ← Proc.read
  let nodeId ← Proc.ofExcept (v.resolveNode sys directoryId path)
  let node ← getNode nodeId
  pure node.path

/-- FPAddComment. -/
def setComment (directoryId : NodeId) (path : Path) (comment : Bytes) : Afp Unit := do
  let relPath ← knownPath sys directoryId path
  database (DesktopDatabase.setComment sys relPath comment)

/-- FPGetComment. -/
def getComment (directoryId : NodeId) (path : Path) : Afp Bytes := do
  let relPath ← knownPath sys directoryId path
  database (DesktopDatabase.getComment sys relPath)

/-- FPRemoveComment. -/
def removeComment (directoryId : NodeId) (path : Path) : Afp Unit := do
  let relPath ← knownPath sys directoryId path
  database (DesktopDatabase.removeComment sys relPath)

end Volume

end TailTalk
