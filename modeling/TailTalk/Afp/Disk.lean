/-
  The host's file system, as far as a volume calls it.

  Each operation of type `Host` does what its POSIX call does; `touched` and
  `syncs` only record.  There are no links and no other users: only a volume's
  own calls change its disk.
-/
import TailTalk.Afp.Names
import TailTalk.Lib.FileTree
import TailTalk.Lib.Maps

namespace TailTalk

open Lib

/-! ## Paths -/

/-- The name of a resource fork on disk. -/
def RSRC : Name := "rsrc".toList

/-- A path below the root of a volume. -/
inductive HostPath where
  /-- `root.join(rel)`; joined with an empty path it ends in a slash -/
  | object (rel : Path) (slash : Bool)
  /-- `rsrc_path(root, rel)` -/
  | sidecar (rel : Path)
  | sidecarParent (rel : Path)
  | tailtalk
  | appleDesktop
deriving DecidableEq

namespace HostPath

/-- The components below the root. -/
def comps : HostPath → Path
  | object rel _ => rel
  | sidecar rel => TAILTALK :: RSRC :: rel
  | sidecarParent rel => (TAILTALK :: RSRC :: rel).dropLast
  | tailtalk => [TAILTALK]
  | appleDesktop => [APPLE_DESKTOP]

/-- A path that ends in a slash names nothing but a directory. -/
def slash : HostPath → Bool
  | object _ slash => slash
  | sidecar rel => rel.isEmpty
  | _ => false

end HostPath

/-- What a directory can hold an entry under. -/
def validFileName (name : Name) : Bool :=
  name ≠ [] ∧ name ≠ ['.'] ∧ name ≠ ['.', '.'] ∧ '/' ∉ name ∧ Char.ofNat 0 ∉ name

/-! ## The system -/

/-- A call that the system may refuse. -/
inductive SysCall where
  | metadata (p : HostPath)
  | readDir (p : HostPath)
  | fileType (p : HostPath)
  | createDir (p : HostPath)
  | createDirAll (p : HostPath)
  | removeFile (p : HostPath)
  | removeDir (p : HostPath)
  | create (p : HostPath)
  | openFile (p : HostPath)
  | rename (p q : HostPath)
  | copy (p q : HostPath)
  | getXattr (p : HostPath)
  | setXattr (p : HostPath)
  | readContent (p : HostPath)
  | seek (fd pos : ℕ)
  | read (fd pos : ℕ)
  | write (fd pos : ℕ)
  | setLen (fd : ℕ)
  | sync (fd : ℕ)
  | dbGet (key : Bytes)
  | dbInsert (key : Bytes)
  | dbRemove (key : Bytes)
deriving DecidableEq

/-- The kinds of content that are told apart. -/
inductive Mime where
  | plain
  | stuffit
  | stuffitX
  | dc42
  | pdf
  | binhex40
  | binhex
  | appleDiskImage
  | macbinary
  | dfont
  | appleRsr
  | appleworks3
  | jpeg
  | png
  | pict
  | other

/-- What the system does about the calls of one command.  It answers a call alike whenever the
    command makes it again. -/
structure Sys where
  refuses : SysCall → Bool
  /-- how many bytes a read or a write moves, if it can -/
  moves : SysCall → ℕ
  /-- how much of a write an open file takes in before it writes -/
  buffer : ℕ
  /-- seconds since 1970; for files, where the file system keeps them -/
  now : ℤ
  created : ℕ → Option ℤ
  modified : ℕ → Option ℤ
  /-- the size reported for a directory -/
  dirLen : ℕ → ℕ
  /-- what the content database says -/
  mime : Bytes → Option Mime

/-- A system that refuses nothing and moves all it is asked to. -/
def Sys.calm : Sys where
  refuses := fun _ => false
  moves := fun _ => 4294967296
  buffer := 2097152
  now := 0
  created := fun _ => some 0
  modified := fun _ => some 0
  dirLen := fun _ => 4096
  mime := fun _ => none

/-- A system that refuses one call. -/
def Sys.refusing (call : SysCall) : Sys := { Sys.calm with refuses := fun c => c = call }

/-! ## The disk -/

/-- The contents of a file or directory. -/
structure Inode where
  data : Bytes
  finderInfo : Option Bytes

/-- A new one. -/
def Inode.empty : Inode := ⟨[], none⟩

/-- Files and directories, and the calls made on them. -/
structure Disk where
  /-- the name of the volume's directory -/
  root : Name
  /-- the directory that holds the volume's -/
  tree : FileTree Name ℕ
  inodes : Std.TreeMap ℕ Inode
  nextIno : ℕ
  nextFd : ℕ
  touched : List HostPath
  syncs : List (ℕ × Bool)

/-- A volume's directory with these entries and nothing in their files. -/
def Disk.ofEntries (entries : List (Name × FileTree Name ℕ)) : Disk where
  root := "volume".toList
  tree := .dir 0 [("volume".toList, .dir 1 entries)]
  inodes := ∅
  nextIno := 100
  nextFd := 0
  touched := []
  syncs := []

/-- An open file. -/
structure Handle where
  fd : ℕ
  ino : ℕ
  pos : ℕ
  /-- a write has failed after it was acknowledged, and the next one is told -/
  failed : Bool
deriving DecidableEq

/-- What a `stat` returns. -/
structure Metadata where
  ino : ℕ
  isDir : Bool
  len : ℕ

/-- An operation that may fail, without a reason that anything depends on. -/
abbrev Host (α : Type) := Disk → Option α × Disk

namespace Disk

variable (sys : Sys)

/-- A host path in the tree. -/
def «at» (d : Disk) (p : HostPath) : Path := d.root :: p.comps

/-- A path is handed to the system. -/
def touch (p : HostPath) (d : Disk) : Disk := { d with touched := d.touched ++ [p] }

/-- What a path names. -/
def found (d : Disk) (p : HostPath) : Option (FileObj ℕ) :=
  (d.tree.look (d.at p)).filter fun o => o.isDir || !p.slash

/-- There is a directory. -/
def isDirAt (d : Disk) (q : Path) : Bool :=
  match d.tree.look q with
  | some o => o.isDir
  | none => false

/-- The contents under a number. -/
def inode (d : Disk) (ino : ℕ) : Inode := d.inodes[ino]?.getD Inode.empty

/-- Other contents. -/
def setInode (d : Disk) (ino : ℕ) (i : Inode) : Disk := { d with inodes := d.inodes.insert ino i }

@[simp] theorem inode_setInode (d : Disk) (ino : ℕ) (i : Inode) : (d.setInode ino i).inode ino = i := by
  rw [inode, setInode, getElem?_insert_eq, if_pos rfl, Option.getD_some]

/-- A new entry can be put there: under a valid name, in a directory. -/
def canAdd (d : Disk) (q : Path) : Bool := validFileName (q.getLastD []) && d.isDirAt q.dropLast

/-- A subtree, or nothing, at a path. -/
def put (d : Disk) (q : Path) (t : Option (FileTree Name ℕ)) : Disk :=
  { d with tree := d.tree.alter (fun _ => t) q }

/-- A new, empty object. -/
def add (d : Disk) (q : Path) (node : ℕ → FileTree Name ℕ) : Disk :=
  { d.put q (some (node d.nextIno)) with
    inodes := d.inodes.insert d.nextIno Inode.empty
    nextIno := d.nextIno + 1 }

/-! ## Looking -/

/-- `stat`. -/
def metadata (p : HostPath) : Host Metadata := fun d =>
  (if sys.refuses (.metadata p) then none
    else (d.found p).map fun o =>
      ⟨o.id, o.isDir, if o.isDir then sys.dirLen o.id else (d.inode o.id).data.length⟩, d.touch p)

/-- The names in a directory. -/
def readDir (p : HostPath) : Host (List Name) := fun d =>
  (if sys.refuses (.readDir p) || !d.isDirAt (d.at p) then none else some (d.tree.names (d.at p)),
    d.touch p)

/-- Whether an entry of a listing is a directory. -/
def fileType (p : HostPath) : Host Bool := fun d =>
  (if sys.refuses (.fileType p) then none else (d.tree.look (d.at p)).map (·.isDir), d)

/-! ## Directories -/

/-- `mkdir`. -/
def createDir (p : HostPath) : Host Unit := fun d =>
  if sys.refuses (.createDir p) || (d.tree.look (d.at p)).isSome || !d.canAdd (d.at p) then
    (none, d.touch p)
  else (some (), (d.add (d.at p) fun ino => .dir ino []).touch p)

/-- One missing directory after another. -/
def makeDirs (done : Path) : List Name → Host Unit
  | [] => fun d => (some (), d)
  | name :: rest => fun d =>
    match d.tree.look (done ++ [name]) with
    | some o => if o.isDir then makeDirs (done ++ [name]) rest d else (none, d)
    | none =>
      if validFileName name then
        makeDirs (done ++ [name]) rest (d.add (done ++ [name]) fun ino => .dir ino [])
      else (none, d)

/-- `mkdir` of all that is missing. -/
def createDirAll (p : HostPath) : Host Unit := fun d =>
  if sys.refuses (.createDirAll p) then (none, d.touch p) else makeDirs [] (d.at p) (d.touch p)

/-- `unlink`. -/
def removeFile (p : HostPath) : Host Unit := fun d =>
  match d.found p with
  | some ⟨_, false⟩ =>
    if sys.refuses (.removeFile p) then (none, d.touch p)
    else (some (), (d.put (d.at p) none).touch p)
  | _ => (none, d.touch p)

/-- `rmdir`, of an empty directory. -/
def removeDir (p : HostPath) : Host Unit := fun d =>
  match d.found p with
  | some ⟨_, true⟩ =>
    if sys.refuses (.removeDir p) || !(d.tree.names (d.at p)).isEmpty then (none, d.touch p)
    else (some (), (d.put (d.at p) none).touch p)
  | _ => (none, d.touch p)

/-- `rename(2)`: a file replaces a file and a directory an empty one; nothing moves into itself. -/
def rename (p q : HostPath) : Host Unit := fun d =>
  let d' := (d.touch p).touch q
  match d.tree.find (d.at p) with
  | none => (none, d')
  | some source =>
    if sys.refuses (.rename p q) || !d.canAdd (d.at q) then (none, d')
    else if d.at p = d.at q then (some (), d')
    else if (d.at p).isPrefixOf (d.at q) then (none, d')
    else
      let replaced := ((d'.put (d.at p) none).put (d.at q) (some source))
      match d.tree.look (d.at q) with
      | none => (some (), replaced)
      | some target =>
        if target.isDir = source.obj.isDir ∧
            (target.isDir = true → (d.tree.names (d.at q)).isEmpty = true) then
          (some (), replaced)
        else (none, d')

/-! ## Files -/

/-- `File::create`: an existing file is emptied. -/
def create (p : HostPath) : Host Unit := fun d =>
  if sys.refuses (.create p) || p.slash then (none, d.touch p)
  else match d.tree.look (d.at p) with
    | some ⟨ino, false⟩ =>
      (some (), (d.setInode ino { d.inode ino with data := [] }).touch p)
    | some ⟨_, true⟩ => (none, d.touch p)
    | none =>
      if d.canAdd (d.at p) then (some (), (d.add (d.at p) .file).touch p) else (none, d.touch p)

/-- A file is opened. -/
def freshHandle (d : Disk) (ino : ℕ) : Handle × Disk :=
  (⟨d.nextFd, ino, 0, false⟩, { d with nextFd := d.nextFd + 1 })

/-- Open for reading and writing. -/
def openFile (p : HostPath) : Host Handle := fun d =>
  match d.found p with
  | some ⟨ino, false⟩ =>
    if sys.refuses (.openFile p) then (none, d.touch p)
    else (some (d.freshHandle ino).1, (d.freshHandle ino).2.touch p)
  | _ => (none, d.touch p)

/-- The same, creating a missing file. -/
def openCreate (p : HostPath) : Host Handle := fun d =>
  if sys.refuses (.openFile p) || p.slash then (none, d.touch p)
  else match d.tree.look (d.at p) with
    | some ⟨ino, false⟩ => (some (d.freshHandle ino).1, (d.freshHandle ino).2.touch p)
    | some ⟨_, true⟩ => (none, d.touch p)
    | none =>
      if d.canAdd (d.at p) then
        let d' := d.add (d.at p) .file
        (some (d'.freshHandle d.nextIno).1, (d'.freshHandle d.nextIno).2.touch p)
      else (none, d.touch p)

/-- `fs::copy`: the destination is created or emptied before it is written. -/
def copy (p q : HostPath) : Host Unit := fun d =>
  match d.found p with
  | some ⟨src, false⟩ =>
    if sys.refuses (.copy p q) then (none, (d.touch p).touch q)
    else match create { sys with refuses := fun _ => false } q (d.touch p) with
      | (none, d') => (none, d')
      | (some (), d') =>
        match d'.tree.look (d'.at q) with
        | some o => (some (), d'.setInode o.id { d'.inode o.id with data := (d'.inode src).data })
        | none => (none, d')
  | _ => (none, d.touch p)

/-- The Finder Info attribute. -/
def getXattr (p : HostPath) : Host (Option Bytes) := fun d =>
  (if sys.refuses (.getXattr p) then none else (d.found p).map fun o => (d.inode o.id).finderInfo,
    d.touch p)

/-- The Finder Info, as an attribute. -/
def setXattr (p : HostPath) (value : Bytes) : Host Unit := fun d =>
  match d.found p with
  | some o =>
    if sys.refuses (.setXattr p) then (none, d.touch p)
    else (some (), (d.setInode o.id { d.inode o.id with finderInfo := some value }).touch p)
  | none => (none, d.touch p)

/-- The content of a file, for the content database. -/
def readContent (p : HostPath) : Host Bytes := fun d =>
  match d.found p with
  | some ⟨ino, false⟩ =>
    (if sys.refuses (.readContent p) then none else some (d.inode ino).data, d.touch p)
  | _ => (none, d.touch p)

/-! ## Open files -/

/-- Another position. -/
def seek (h : Handle) (pos : ℕ) : Option Handle :=
  if sys.refuses (.seek h.fd pos) then none else some { h with pos := pos }

/-- Some of the `want` bytes at the position, at least one before the end. -/
def readSome (d : Disk) (h : Handle) (want : ℕ) : Option (Bytes × Handle) :=
  let call := SysCall.read h.fd h.pos
  if sys.refuses call then none
  else
    let chunk := ((d.inode h.ino).data.drop h.pos).take (min want (max 1 (sys.moves call)))
    some (chunk, { h with pos := h.pos + chunk.length })

/-- `data` in place of what is at `pos`, zeros before it if need be. -/
def overwrite (old : Bytes) (pos : ℕ) (data : Bytes) : Bytes :=
  (old ++ List.replicate (pos - old.length) 0).take pos ++ data ++ old.drop (pos + data.length)

/-- One write after another until nothing is left or one fails. The fuel is the number of bytes. -/
def writeOut : ℕ → Handle → Bytes → Disk → Bool × Handle × Disk
  | 0, h, _, d => (true, h, d)
  | fuel + 1, h, data, d =>
    if data = [] then (true, h, d)
    else
      let call := SysCall.write h.fd h.pos
      if sys.refuses call then (false, h, d)
      else
        let chunk := data.take (max 1 (sys.moves call))
        let i := d.inode h.ino
        writeOut fuel { h with pos := h.pos + chunk.length } (data.drop chunk.length)
          (d.setInode h.ino { i with data := overwrite i.data h.pos chunk })

/-- `write_all` of `tokio::fs::File`: a buffer counts as written once it is taken in, and the next
    write tells what became of it. The fuel is the number of bytes. -/
def writeAll : ℕ → Handle → Bytes → Disk → Bool × Handle × Disk
  | 0, h, _, d => (true, h, d)
  | fuel + 1, h, data, d =>
    if data = [] then (true, h, d)
    else if h.failed then (false, { h with failed := false }, d)
    else
      let buf := data.take (max 1 sys.buffer)
      let (written, h, d) := writeOut sys buf.length h buf d
      writeAll fuel { h with failed := !written } (data.drop buf.length) d

/-- What holds of a file and the disk before a write, and does not depend on where the file stands
    or on the bytes of its inode, holds after it. -/
theorem writeOut_keeps {R : Handle → Disk → Prop} {ino : ℕ}
    (hmove : ∀ h d pos i, h.ino = ino → R h d → R { h with pos } (d.setInode h.ino i)) (fuel : ℕ)
    (h : Handle) (data : Bytes) (d : Disk) (hino : h.ino = ino) (hR : R h d) :
    (writeOut sys fuel h data d).2.1.ino = ino ∧
      R (writeOut sys fuel h data d).2.1 (writeOut sys fuel h data d).2.2 := by
  induction fuel generalizing h data d with
  | zero => exact ⟨hino, hR⟩
  | succ fuel ih =>
    simp only [writeOut]
    split_ifs
    · exact ⟨hino, hR⟩
    · exact ⟨hino, hR⟩
    · exact ih _ _ _ hino (hmove h d _ _ hino hR)

theorem writeAll_keeps {R : Handle → Disk → Prop} {ino : ℕ}
    (hmove : ∀ h d pos i, h.ino = ino → R h d → R { h with pos } (d.setInode h.ino i))
    (htold : ∀ h d failed, R h d → R { h with failed } d) (fuel : ℕ) (h : Handle) (data : Bytes)
    (d : Disk) (hino : h.ino = ino) (hR : R h d) :
    (writeAll sys fuel h data d).2.1.ino = ino ∧
      R (writeAll sys fuel h data d).2.1 (writeAll sys fuel h data d).2.2 := by
  induction fuel generalizing h data d with
  | zero => exact ⟨hino, hR⟩
  | succ fuel ih =>
    simp only [writeAll]
    split_ifs
    · exact ⟨hino, hR⟩
    · exact ⟨hino, htold _ _ _ hR⟩
    · obtain ⟨hino', hR'⟩ := writeOut_keeps sys hmove _ h _ d hino hR
      exact ih _ _ _ hino' (htold _ _ _ hR')

/-- `ftruncate`. -/
def setLen (h : Handle) (len : ℕ) : Host Unit := fun d =>
  if sys.refuses (.setLen h.fd) then (none, d)
  else
    let i := d.inode h.ino
    let data := (i.data ++ List.replicate (len - i.data.length) 0).take len
    (some (), d.setInode h.ino { i with data := data })

/-- `sync_data` -/
def sync (h : Handle) : Host Unit := fun d =>
  (if sys.refuses (.sync h.fd) then none else some (),
    { d with syncs := d.syncs ++ [(h.fd, !sys.refuses (.sync h.fd))] })

end Disk

end TailTalk
