/-
  A volume — nodes, open forks and the desktop database over one disk, and how
  a directory ID and a path are resolved to a node, whose directory is
  registered when a path in it is not known.

  The maps are ordered where the code's are hashed; only the order of iteration
  differs.
-/
import TailTalk.Afp.Desktop
import TailTalk.Lib.Proc

namespace TailTalk

open Lib

/-- The ID of a file or directory. -/
abbrev NodeId := ℕ

/-- The parent of the root, which is no directory on disk, and the root. -/
def ROOT_PARENT_ID : NodeId := 1
def ROOT_ID : NodeId := 2

/-- The largest ID. -/
def MAX_ID : NodeId := 4294967295

/-- A file or directory that is registered. -/
structure Node where
  id : NodeId
  parentId : NodeId
  name : Name
  isDir : Bool
  path : Path
  dataFork : Option Handle
  resourceFork : Option Handle
deriving DecidableEq

namespace Node

/-- The handle of an open fork. -/
def fork (node : Node) : ForkType → Option Handle
  | .data => node.dataFork
  | .resource => node.resourceFork

/-- Another handle for it. -/
def setFork (node : Node) (forkType : ForkType) (file : Option Handle) : Node :=
  match forkType with
  | .data => { node with dataFork := file }
  | .resource => { node with resourceFork := file }

/-- A node with nothing open. -/
def fresh (id parentId : NodeId) (name : Name) (isDir : Bool) (path : Path) : Node :=
  ⟨id, parentId, name, isDir, path, none, none⟩

@[simp] theorem fork_fresh (id parentId : NodeId) (name : Name) (isDir : Bool) (path : Path)
    (forkType : ForkType) : (fresh id parentId name isDir path).fork forkType = none := by
  cases forkType <;> rfl

@[simp] theorem fork_setFork_self (node : Node) (forkType : ForkType) (file : Option Handle) :
    (node.setFork forkType file).fork forkType = file := by
  cases forkType <;> rfl

theorem fork_setFork_of_ne (node : Node) {forkType other : ForkType} (file : Option Handle)
    (h : other ≠ forkType) : (node.setFork forkType file).fork other = node.fork other := by
  cases forkType <;> cases other <;> first | rfl | exact absurd rfl h

end Node

/-- All that the server keeps of a volume. -/
structure Volume where
  name : Name
  createdAt : UInt32
  volumeId : UInt16
  nodes : Std.TreeMap NodeId Node
  pathToId : Std.TreeMap Path NodeId
  nextId : NodeId
  forkRefToNodeId : Std.TreeMap UInt16 (NodeId × ForkType)
  /-- the access mode asked for; 0 leaves it open -/
  forkAccess : Std.TreeMap UInt16 UInt16
  /-- the position of the file, where it is known -/
  forkPos : Std.TreeMap UInt16 ℕ
  /-- forks written since their last sync -/
  dirtyForks : List (NodeId × ForkType)
  nextForkRefNum : UInt16
  forkLocks : Std.TreeMap UInt16 (List (ℕ × ℕ))
  /-- sorted snapshots of directories -/
  enumCache : Std.TreeMap NodeId (List (Name × Bool))
  desktopDatabase : DesktopDatabase
  disk : Disk

/-- What a volume does. -/
abbrev Afp (α : Type) := Proc Volume AfpError α

/-! ## Calls to the system and to the database -/

section
variable {α : Type}

/-- A call whose failure is this error. -/
def host (e : AfpError) (call : Host α) : Afp α := fun v =>
  .ok (match (call v.disk).1 with | some a => .ok a | none => .error e,
    { v with disk := (call v.disk).2 })

/-- A call whose failure is looked at. -/
def tryHost (call : Host α) : Afp (Option α) := fun v =>
  .ok (.ok (call v.disk).1, { v with disk := (call v.disk).2 })

/-- A call of the database. -/
def database (call : Db α) : Afp α := fun v =>
  .ok ((call v.desktopDatabase).1, { v with desktopDatabase := (call v.desktopDatabase).2 })

/-- A call whose result is dropped. -/
def tryDatabase (call : Db α) : Afp Unit := fun v =>
  .ok (.ok (), { v with desktopDatabase := (call v.desktopDatabase).2 })

section
variable {P : Prop} {v : Volume}

@[simp] theorem wp_host {e : AfpError} {call : Host α} {Q : Except AfpError α → Volume → Prop} :
    Proc.wp P (host e call) Q v ↔
      Q (match (call v.disk).1 with | some a => .ok a | none => .error e)
        { v with disk := (call v.disk).2 } := Iff.rfl

@[simp] theorem wp_tryHost {call : Host α} {Q : Except AfpError (Option α) → Volume → Prop} :
    Proc.wp P (tryHost call) Q v ↔ Q (.ok (call v.disk).1) { v with disk := (call v.disk).2 } :=
  Iff.rfl

end

end

namespace Volume

variable (sys : Sys) [MacRoman]

/-- `Volume::new`: the parent of the root and the root, and the server's directory on disk. -/
def new (name : Name) (createdAt : UInt32) (volumeId : UInt16) (db : DesktopDatabase)
    (disk : Disk) : Volume where
  name := name
  createdAt := createdAt
  volumeId := volumeId
  nodes := ((∅ : Std.TreeMap NodeId Node).insert ROOT_PARENT_ID (.fresh 1 1 name true [])).insert
    ROOT_ID (.fresh 2 1 name true [])
  pathToId := (∅ : Std.TreeMap Path NodeId).insert [] ROOT_ID
  nextId := 3
  forkRefToNodeId := ∅
  forkAccess := ∅
  forkPos := ∅
  dirtyForks := []
  nextForkRefNum := 1
  forkLocks := ∅
  enumCache := ∅
  desktopDatabase := db
  disk := (disk.createDirAll sys .tailtalk).2

omit [MacRoman] in
theorem getElem?_new (name : Name) (createdAt : UInt32) (volumeId : UInt16) (db : DesktopDatabase)
    (disk : Disk) (id : NodeId) : (new sys name createdAt volumeId db disk).nodes[id]? =
      if id = ROOT_ID then some (.fresh 2 1 name true [])
      else if id = ROOT_PARENT_ID then some (.fresh 1 1 name true []) else none := by
  simp only [new, getElem?_insert_eq, Std.TreeMap.getElem?_emptyc]

/-- A new volume over a directory with these entries. -/
def ofEntries (entries : List (Name × FileTree Name ℕ)) : Volume :=
  new .calm "Shared".toList 0 1 (.empty 1) (Disk.ofEntries entries)

/-- A registered node. -/
def getNode (id : NodeId) : Afp Node := do
  let v ← Proc.read
  Proc.orElse v.nodes[id]? .objectNotFound

/-- The next ID; adding one to the last is an overflow. -/
def freshId : Afp NodeId := do
  let v ← Proc.read
  if v.nextId < MAX_ID then
    Proc.modify fun v => { v with nextId := v.nextId + 1 }
    pure v.nextId
  else Proc.lift (.error .overflow)

/-- A node is registered. -/
def insertNode (node : Node) : Afp Unit := Proc.modify fun v =>
  { v with nodes := v.nodes.insert node.id node, pathToId := v.pathToId.insert node.path node.id }

/-- One node changed, if it is there. -/
def mapNode (id : NodeId) (f : Node → Node) (v : Volume) : Volume :=
  { v with nodes := match v.nodes[id]? with
    | some node => v.nodes.insert id (f node)
    | none => v.nodes }

omit [MacRoman] in
@[simp] theorem getElem?_mapNode (id : NodeId) (f : Node → Node) (v : Volume) (other : NodeId) :
    (mapNode id f v).nodes[other]? =
      if other = id then v.nodes[id]?.map f else v.nodes[other]? := by
  simp only [mapNode]
  split
  · rename_i node h
    rw [getElem?_insert_eq, h]
    rfl
  · rename_i h
    split
    · rename_i heq
      rw [heq, h]
      rfl
    · rfl

/-- A node changes. -/
def updateNode (id : NodeId) (f : Node → Node) : Afp Unit := Proc.modify (mapNode id f)

/-- The same where a missing node is a panic. -/
def unwrapNode (id : NodeId) (f : Node → Node) : Afp Unit := do
  let v ← Proc.read
  if (v.nodes[id]?).isSome then updateNode id f else Proc.lift (.error .unwrap)

/-- A mangled name is kept. -/
def registerMangle (afpName posixName : Name) : Afp Unit := Proc.modify fun v =>
  { v with desktopDatabase := v.desktopDatabase.registerMangle sys afpName posixName }

/-- No snapshot is kept. -/
def clearEnumCache : Afp Unit := Proc.modify fun v => { v with enumCache := ∅ }

/-! ## Resolution -/

/-- A path with its mangled components replaced, if there are any. -/
def unmangle (v : Volume) (pathName : Path) : Option Path :=
  let original := fun comp => v.desktopDatabase.lookupMangle sys (MacRoman.encode comp)
  if pathName.any fun comp => (original comp).isSome then
    some (pathName.map fun comp => (original comp).getD comp)
  else none

/-- Directory ID 0 stands for the root. -/
def realDirId (directoryId : NodeId) : NodeId := if directoryId = 0 then ROOT_ID else directoryId

/-- The node at a path, if it is registered. -/
def resolveNode (v : Volume) (directoryId : NodeId) (pathName : Path) : Except AfpError NodeId :=
  let directoryId := realDirId directoryId
  if directoryId = ROOT_PARENT_ID then
    if afpPathIsEmpty pathName then .ok ROOT_PARENT_ID
    else if pathOfText v.name = some pathName then .ok ROOT_ID
    else .error .objectNotFound
  else match v.nodes[directoryId]? with
    | none => .error .objectNotFound
    | some base =>
      if afpPathIsEmpty pathName then .ok directoryId
      else match v.pathToId[base.path ++ pathName]? with
        | some id => .ok id
        | none =>
          match (v.unmangle sys pathName).bind fun path => v.pathToId[base.path ++ path]? with
          | some id => .ok id
          | none => .error .objectNotFound

/-- Register one entry of a directory, unless it is known or the server's. -/
def populateEntry (dirId : NodeId) (dirPath : Path) (name : Name) : Afp Unit := do
  let v ← Proc.read
  let relPath := dirPath ++ [name]
  if isPrivateName name || v.pathToId.contains relPath then pure ()
  else
    let isDir ← host .objectNotFound (Disk.fileType sys (.object relPath false))
    let newId ← freshId
    insertNode (.fresh newId dirId (posixNameToAfp name) isDir relPath)
    registerMangle sys (posixNameToAfp name) name

/-- Register the entries of a directory. -/
def ensureDirPopulated (dirId : NodeId) : Afp Unit := do
  let node ← getNode dirId
  let names ← host .objectNotFound (Disk.readDir sys (.object node.path node.path.isEmpty))
  Proc.each (populateEntry sys dirId node.path) names

/-- The node at a path, its directory being read if need be. -/
def resolveNodeLazy (directoryId : NodeId) (pathName : Path) : Afp NodeId := do
  let v ← Proc.read
  match v.resolveNode sys directoryId pathName with
  | .ok id => pure id
  | .error _ =>
    let dirId := realDirId directoryId
    if dirId ≥ ROOT_ID ∧ afpPathIsEmpty pathName = false then
      let _ ← Proc.attempt (ensureDirPopulated sys dirId)
    let v ← Proc.read
    Proc.ofExcept (v.resolveNode sys directoryId pathName)

end Volume

end TailTalk
