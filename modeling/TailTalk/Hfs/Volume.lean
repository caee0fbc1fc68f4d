/-
  Classic HFS disk images — the volume header, the catalog and the extents
  overflow file.

  Both files are B-trees of 512-byte nodes.  The catalog is walked from its
  root along child pointers and forward links, the overflow file along the
  links of its leaves.
-/
import TailTalk.Lib.Explore
import TailTalk.Lib.Fallible
import TailTalk.Lib.Maps

namespace TailTalk.Hfs

open Lib

/-- Printable text, as names and paths are kept. -/
abbrev Text := List Char

/-- Why an image is not read. -/
inductive HfsError where
  | dc42NoSize
  | dc42Truncated
  | noMdb
  | hfsPlus
  | mfs
  | notHfs (sig : UInt16)
  | zeroBlockSize
  | extentOutOfBounds (startBlock blockCount : UInt16) (byteOff stop length : ℕ)
  | catalogTooSmall
deriving DecidableEq

/-! ## Extents -/

/-- Three runs of blocks, each its first block and their number. -/
structure Extents where
  first : UInt16 × UInt16
  second : UInt16 × UInt16
  third : UInt16 × UInt16
deriving DecidableEq

namespace Extents

/-- The runs of an extent record. -/
def toList (e : Extents) : List (UInt16 × UInt16) := [e.first, e.second, e.third]

/-- How many blocks the runs have. -/
def blocks (e : Extents) : ℕ := e.first.2.toNat + e.second.2.toNat + e.third.2.toNat

end Extents

/-- A run of it. -/
def readExtent (data : Bytes) (o : ℕ) : Checked (UInt16 × UInt16) :=
  if o + 4 ≤ data.length then do
    let start ← be16At data o
    let count ← be16At data (o + 2)
    .ok (start, count)
  else .ok (0, 0)

/-- Three extent descriptors from `data` at `offset`; one that is not there is empty. -/
def readExtentRecord (data : Bytes) (offset : ℕ) : Checked Extents := do
  let first ← readExtent data offset
  let second ← readExtent data (offset + 4)
  let third ← readExtent data (offset + 8)
  .ok { first, second, third }

/-! ## Volumes -/

/-- A file, with the runs of its forks. -/
structure HfsFileEntry where
  relPath : Text
  parentCnid : UInt32
  fileType : Bytes
  creator : Bytes
  dataLogical : UInt32
  dataExtents : List Extents
  rsrcLogical : UInt32
  rsrcExtents : List Extents
deriving DecidableEq

/-- An image that was read. -/
structure HfsVolume where
  img : Bytes
  blockSize : UInt32
  firstAllocSector : UInt32
  volumeName : Text
  files : List HfsFileEntry
  /-- the path of each directory -/
  dirs : List Text
deriving DecidableEq

namespace HfsVolume

/-- Where a block stands in the image. -/
def byteOffsetOfBlock (vol : HfsVolume) (block : UInt32) : Checked ℕ := do
  let start ← asUsize (vol.firstAllocSector.toNat * 512)
  let off ← asUsize (block.toNat * vol.blockSize.toNat)
  asUsize (start + off)

/-- Read runs of blocks after `out`, up to an empty run or the logical size. -/
def readRuns (vol : HfsVolume) (logicalSize : UInt32) :
    List (UInt16 × UInt16) → Bytes → Fallible HfsError Bytes
  | [], out => .ok out
  | (startBlock, blockCount) :: runs, out =>
    if blockCount = 0 then .ok out
    else do
      let byteOff ← orPanic (vol.byteOffsetOfBlock startBlock.toUInt32)
      let byteLen ← orPanic (asUsize (blockCount.toNat * vol.blockSize.toNat))
      let stop ← orPanic (asUsize (byteOff + byteLen))
      let chunk ← okOr (.extentOutOfBounds startBlock blockCount byteOff stop vol.img.length)
        (getRange vol.img byteOff stop)
      if logicalSize.toNat ≤ (out ++ chunk).length then .ok (out ++ chunk)
      else readRuns vol logicalSize runs (out ++ chunk)

/-- The bytes of some runs, cut to a length. -/
def readRaw (vol : HfsVolume) (extents : List Extents) (logicalSize : UInt32) :
    Fallible HfsError Bytes :=
  if logicalSize = 0 then .ok []
  else do
    let out ← vol.readRuns logicalSize (extents.flatMap Extents.toList) []
    .ok (out.take logicalSize.toNat)

/-- The data fork of a file. -/
def readDataFork (vol : HfsVolume) (entry : HfsFileEntry) : Fallible HfsError Bytes :=
  vol.readRaw entry.dataExtents entry.dataLogical

/-- Its resource fork. -/
def readRsrcFork (vol : HfsVolume) (entry : HfsFileEntry) : Fallible HfsError Bytes :=
  vol.readRaw entry.rsrcExtents entry.rsrcLogical

end HfsVolume

/-! ## Nodes -/

/-- The size of a node of a B-tree. -/
def NODE_SIZE : ℕ := 512

/-- A node, if it is there. -/
def nodeAt (data : Bytes) (idx : UInt32) : Option Bytes :=
  getRange data (idx.toNat * NODE_SIZE) (idx.toNat * NODE_SIZE + NODE_SIZE)

/-- The names of the nodes that `data` has room for. -/
def nodeNames (data : Bytes) : List UInt32 := (List.range (data.length + 1)).map UInt32.ofNat

theorem mem_nodeNames (data : Bytes) (idx : UInt32) (h : (nodeAt data idx).isSome) :
    idx ∈ nodeNames data := by
  obtain ⟨node, hnode⟩ := Option.isSome_iff_exists.1 h
  obtain ⟨-, hstop⟩ := getRange_length hnode
  unfold NODE_SIZE at hstop
  exact List.mem_map.2 ⟨idx.toNat, List.mem_range.2 (by omega), UInt32.ofNat_toNat⟩

/-- Record `i`, to the end of the node. The offsets are at its end, the last record's first. -/
def recordAt (node : Bytes) (i : ℕ) : Checked (Option Bytes) :=
  if NODE_SIZE < 2 * (i + 1) then .error .overflow
  else
    let ptrOff := NODE_SIZE - 2 * (i + 1)
    match getRange node ptrOff (ptrOff + 2) with
    | none => .ok none
    | some ptr => do
      let recOff ← be16At ptr 0
      .ok (getFrom node recOff.toNat)

/-- A record that does not start in its node is passed over. -/
def readFound {τ : Type} (entry : Bytes → Checked (Option τ)) :
    Option Bytes → Checked (Option τ)
  | none => .ok none
  | some r => entry r

/-- What `entry` makes of the records `is` of a node, without those that are passed over. -/
def nodeRecords {τ : Type} (entry : Bytes → Checked (Option τ)) (node : Bytes) :
    List ℕ → Checked (List τ)
  | [] => .ok []
  | i :: is => do
    let found ← recordAt node i
    let read ← readFound entry found
    let rest ← nodeRecords entry node is
    .ok (read.toList ++ rest)

/-! ## The extents overflow file -/

/-- The extents of a file's fork from a block on. -/
abbrev ExtentKey := UInt32 × UInt8 × UInt16

/-- Records in the order they were met, the last first. -/
structure ExtentsOverflow where
  entries : List (ExtentKey × Extents)

/-- A leaf of the overflow file. -/
structure OverflowNode where
  flink : UInt32
  entries : List (ExtentKey × Extents)

namespace ExtentsOverflow

/-- The extents of a record. -/
def entry (r : Bytes) : Checked (Option (ExtentKey × Extents)) := do
  let keyLen ← byteAt r 0
  let keyLen := keyLen.toNat
  if keyLen < 7 ∨ r.length < 1 + keyLen + 12 then .ok none
  else
    let forkType ← byteAt r 1
    let cnid ← be32At r 2
    let startBlock ← be16At r 6
    let dataOff := 1 + keyLen + if keyLen % 2 = 0 then 1 else 0
    match getRange r dataOff (dataOff + 12) with
    | none => .ok none
    | some extData => do
      let ext ← readExtentRecord extData 0
      .ok (some ((cnid, forkType, startBlock), ext))

/-- The records of a leaf. -/
def node (n : Bytes) : Checked OverflowNode := do
  let flink ← be32At n 0
  let numRecords ← be16At n 10
  let entries ← nodeRecords entry n (List.range numRecords.toNat)
  .ok { flink, entries }

/-- The leaves of the file and the links between them. -/
def graph (data : Bytes) : Graph UInt32 Bytes OverflowNode where
  skip idx := idx == 0
  look := nodeAt data
  read := node
  next n := [n.flink]
  names := nodeNames data
  mem_names := mem_nodeNames data

/-- The leaves, along their links. -/
def parse (data : Bytes) : Checked ExtentsOverflow :=
  if data.length < NODE_SIZE then .ok { entries := [] }
  else do
    let firstLeaf ← be32At data 24
    let nodes ← (graph data).explore [firstLeaf] []
    .ok { entries := (nodes.flatMap OverflowNode.entries).reverse }

/-- The runs of a fork from a block on. -/
def get (o : ExtentsOverflow) (cnid : UInt32) (forkType : UInt8) (covered : ℕ) : Option Extents :=
  if covered < 65536 then o.entries.lookup (cnid, forkType, UInt16.ofNat covered) else none

/-- The sets after those that cover `covered` blocks. -/
def more (o : ExtentsOverflow) (cnid : UInt32) (forkType : UInt8) (blocksNeeded : ℕ)
    (covered : ℕ) : Checked (List Extents) :=
  match _h : o.get cnid forkType covered with
  | none => .ok []
  | some ext =>
    match asU32 ext.blocks with
    | .error p => .error p
    | .ok added =>
      if _hadded : added = 0 then .ok [ext]
      else
        match asU32 (covered + added) with
        | .error p => .error p
        | .ok _ =>
          if blocksNeeded ≤ covered + added then .ok [ext]
          else
            match more o cnid forkType blocksNeeded (covered + added) with
            | .error p => .error p
            | .ok rest => .ok (ext :: rest)
termination_by 65536 - covered
decreasing_by
  have hcovered : covered < 65536 := by
    by_contra hnot
    rw [get, if_neg hnot] at _h
    cases _h
  omega

/-- All runs of a fork, as far as they are known. -/
def getExtents (o : ExtentsOverflow) (cnid : UInt32) (forkType : UInt8) (catalogExt : Extents)
    (logicalSize blockSize : UInt32) : Checked (List Extents) :=
  if blockSize = 0 then .ok [catalogExt]
  else do
    let catalogBlocks ← asU32 catalogExt.blocks
    let blocksNeeded := (logicalSize.toNat + blockSize.toNat - 1) / blockSize.toNat
    if blocksNeeded ≤ catalogBlocks then .ok [catalogExt]
    else
      let rest ← o.more cnid forkType blocksNeeded catalogBlocks
      .ok (catalogExt :: rest)

end ExtentsOverflow

/-! ## The catalog -/

/-- A file record of the catalog. -/
structure RawFile where
  cnid : UInt32
  parentCnid : UInt32
  fileType : Bytes
  creator : Bytes
  dataLogical : UInt32
  dataExt : Extents
  rsrcLogical : UInt32
  rsrcExt : Extents
deriving DecidableEq

/-- What a record of the catalog says. -/
inductive CatalogEntry where
  | dir (cnid parentCnid : UInt32) (name : Text)
  | file (name : Text) (raw : RawFile)
  | child (node : UInt32)
deriving DecidableEq

/-- A node of the catalog. -/
structure CatalogNode where
  flink : UInt32
  entries : List CatalogEntry
deriving DecidableEq

/-- Printable ASCII passes; other bytes become `_`. -/
def printable (b : UInt8) : Char := if 0x20 ≤ b ∧ b < 0x7F then Char.ofNat b.toNat else '_'

namespace Catalog

/-- The data of a leaf's record, under its key. -/
def leafEntry (parentCnid : UInt32) (name : Text) (recData : Bytes) :
    Checked (Option CatalogEntry) :=
  if recData.length < 2 then .ok none
  else do
    let lo ← byteAt recData 0
    let hi ← byteAt recData 1
    let recType := ofBe16 hi lo
    if recType = 1 then
      if recData.length < 10 then .ok none
      else
        let cnid ← be32At recData 6
        .ok (some (.dir cnid parentCnid name))
    else if recType = 2 then
      if recData.length < 98 then .ok none
      else
        let fileType ← slice recData 4 8
        let creator ← slice recData 8 12
        let cnid ← be32At recData 20
        let dataLogical ← be32At recData 26
        let rsrcLogical ← be32At recData 36
        let dataExt ← readExtentRecord recData 74
        let rsrcExt ← readExtentRecord recData 86
        .ok (some (.file name {
          cnid, parentCnid, fileType, creator, dataLogical, dataExt, rsrcLogical, rsrcExt }))
    else .ok none

/-- One record of a node of the given kind. -/
def entry (nodeKind : UInt8) (r : Bytes) : Checked (Option CatalogEntry) := do
  let keyLen ← byteAt r 0
  let keyLen := keyLen.toNat
  if keyLen < 6 ∨ r.length < 1 + keyLen then .ok none
  else
    let parentCnid ← be32At r 2
    let nameLen ← byteAt r 6
    let nameBytes := (getRange r 7 (7 + nameLen.toNat)).getD []
    let name := nameBytes.map printable
    let dataOff := 1 + keyLen + if keyLen % 2 = 0 then 1 else 0
    if nodeKind = 0xFF then
      match getFrom r dataOff with
      | none => .ok none
      | some recData => leafEntry parentCnid name recData
    else if nodeKind = 0x00 then
      match getRange r dataOff (dataOff + 4) with
      | none => .ok none
      | some ptrData => do
        let child ← be32At ptrData 0
        .ok (some (.child child))
    else .ok none

def node (n : Bytes) : Checked CatalogNode := do
  let nodeKind ← byteAt n 8
  let numRecords ← be16At n 10
  let entries ← nodeRecords (entry nodeKind) n (List.range numRecords.toNat)
  if nodeKind = 0x00 ∨ nodeKind = 0xFF then
    let flink ← be32At n 0
    .ok { flink, entries }
  else .ok { flink := 0, entries }

/-- The nodes an index record leads to. -/
def childOf : CatalogEntry → Option UInt32
  | .child node => some node
  | _ => none

/-- The stack's last push, the forward link, is its first pop. -/
def next (n : CatalogNode) : List UInt32 :=
  (if n.flink ≠ 0 then [n.flink] else []) ++ (n.entries.filterMap childOf).reverse

/-- The nodes of the tree, the children of each and the links between them. -/
def graph (data : Bytes) : Graph UInt32 Bytes CatalogNode where
  skip idx := idx == 0
  look := nodeAt data
  read := node
  next := next
  names := nodeNames data
  mem_names := mem_nodeNames data

/-- The names, parents and files met so far. -/
structure State where
  names : Std.TreeMap UInt32 Text
  parents : Std.TreeMap UInt32 UInt32
  files : List RawFile

/-- The volume root has no name of its own in a path. -/
def State.initial : State where
  names := ((∅ : Std.TreeMap UInt32 Text).insert 1 []).insert 2 []
  parents := (∅ : Std.TreeMap UInt32 UInt32).insert 2 1
  files := []

/-- A record that the walk came to. -/
def State.add (st : State) : CatalogEntry → State
  | .dir cnid parentCnid name =>
    { st with names := st.names.insert cnid name, parents := st.parents.insert cnid parentCnid }
  | .file name raw => {
      names := st.names.insert raw.cnid name
      parents := st.parents.insert raw.cnid raw.parentCnid
      files := st.files ++ [raw] }
  | .child _ => st

/-! ### Paths -/

/-- `PathBuf::push`: an absolute component replaces the path. -/
def push (path component : Text) : Text :=
  if component.head? = some '/' then component
  else if path.getLast? = none ∨ path.getLast? = some '/' then path ++ component
  else path ++ '/' :: component

namespace State

/-- The name of a CNID, unless it is empty or missing. -/
def named (st : State) (cur : UInt32) : List Text :=
  match st.names[cur]? with
  | some n => if n.isEmpty then [] else [n]
  | none => []

/-- The names from `cnid` up to the root, the lowest first. -/
def parts (st : State) : ℕ → UInt32 → List Text
  | 0, _ => []
  | fuel + 1, cur =>
    match st.parents[cur]? with
    | none => []
    | some parent =>
      if parent ≤ 2 then if cur ≠ 2 then st.named cur else []
      else st.named cur ++ st.parts fuel parent

/-- The path of a directory, at most 64 names up. -/
def buildPath (st : State) (cnid : UInt32) : Text := (st.parts 64 cnid).reverse.foldl push []

/-- A CNID that is some record's parent is a directory. -/
def dirPath (st : State) (cnid : UInt32) : Option Text :=
  if cnid ≤ 2 then none
  else if st.parents.values.any (· == cnid) then
    if (st.buildPath cnid).isEmpty then none else some (st.buildPath cnid)
  else none

end State

/-- A file record with its path and runs. -/
def fileEntry (st : State) (o : ExtentsOverflow) (blockSize : UInt32) (rf : RawFile) :
    Checked (Option HfsFileEntry) :=
  let relPath := st.buildPath rf.cnid
  if relPath.isEmpty then .ok none
  else do
    let dataExtents ← o.getExtents rf.cnid 0x00 rf.dataExt rf.dataLogical blockSize
    let rsrcExtents ← o.getExtents rf.cnid 0xFF rf.rsrcExt rf.rsrcLogical blockSize
    .ok (some {
      relPath, parentCnid := rf.parentCnid, fileType := rf.fileType, creator := rf.creator
      dataLogical := rf.dataLogical, dataExtents, rsrcLogical := rf.rsrcLogical, rsrcExtents })

/-- All of them. -/
def fileEntries (st : State) (o : ExtentsOverflow) (blockSize : UInt32) :
    List RawFile → Checked (List HfsFileEntry)
  | [] => .ok []
  | rf :: files => do
    let entry ← fileEntry st o blockSize rf
    let rest ← fileEntries st o blockSize files
    .ok (entry.toList ++ rest)

/-- Everything the records say. -/
def state (nodes : List CatalogNode) : State :=
  (nodes.flatMap CatalogNode.entries).foldl State.add .initial

end Catalog

namespace HfsVolume

/-- The files of a catalog. -/
def parseCatalog (vol : HfsVolume) (catData : Bytes) (o : ExtentsOverflow) :
    Fallible HfsError HfsVolume :=
  if catData.length < NODE_SIZE then fail .catalogTooSmall
  else do
    let rootNode ← orPanic (be32At catData 16)
    let nodes ← orPanic ((Catalog.graph catData).explore [rootNode] [])
    let st := Catalog.state nodes
    let files ← orPanic (Catalog.fileEntries st o vol.blockSize st.files)
    .ok { vol with
      dirs := vol.dirs ++ st.names.keys.filterMap st.dirPath
      files := vol.files ++ files }

/-! ## Images -/

/-- The sectors of a Disk Copy 4.2 container, or the image itself. -/
def sectors (img : Bytes) : Fallible HfsError Bytes :=
  if getRange img 82 84 = some [0x01, 0x00] then do
    let size ← okOr .dc42NoSize (getRange img 64 68)
    let dataSize ← orPanic (be32At size 0)
    okOr .dc42Truncated (getRange img 84 (84 + dataSize.toNat))
  else .ok img

/-- A volume with nothing listed, and where its two B-trees are. -/
structure Opened where
  vol : HfsVolume
  extLogical : UInt32
  extExtents : Extents
  catLogical : UInt32
  catExtents : Extents
deriving DecidableEq

/-- The volume header. -/
def readMdb (img mdb : Bytes) : Fallible HfsError Opened := do
  let sig ← orPanic (be16At mdb 0)
  if sig ≠ 0x4244 then
    if sig = 0x482B then fail .hfsPlus
    else if sig = 0xD2D7 then fail .mfs
    else fail (.notHfs sig)
  else
    let blockSize ← orPanic (be32At mdb 20)
    if blockSize = 0 then fail .zeroBlockSize
    else
      let firstAllocSector ← orPanic (be16At mdb 28)
      let vnLen ← orPanic (byteAt mdb 36)
      let volumeName := ((getRange mdb 37 (37 + vnLen.toNat)).getD []).map printable
      let extLogical ← orPanic (be32At mdb 130)
      let extExtents ← orPanic (readExtentRecord mdb 134)
      let catLogical ← orPanic (be32At mdb 146)
      let catExtents ← orPanic (readExtentRecord mdb 150)
      .ok {
        vol := {
          img, blockSize, firstAllocSector := firstAllocSector.toUInt32, volumeName
          files := [], dirs := [] }
        extLogical, extExtents, catLogical, catExtents }

/-- The volume header, and the extents of both trees. -/
def openImage (img : Bytes) : Fallible HfsError Opened := do
  let img ← sectors img
  let mdb ← okOr .noMdb (getRange img 1024 (1024 + 162))
  readMdb img mdb

def parse (img : Bytes) : Fallible HfsError HfsVolume := do
  let opened ← openImage img
  let extData ← opened.vol.readRaw [opened.extExtents] opened.extLogical
  let overflow ← orPanic (ExtentsOverflow.parse extData)
  let catData ← opened.vol.readRaw [opened.catExtents] opened.catLogical
  opened.vol.parseCatalog catData overflow

end HfsVolume

end TailTalk.Hfs
