/-
  Parameters of files, directories and volumes — Finder Info with its
  fallbacks, and the parameter blocks that are written to and read from
  clients.

  A reply is written into a buffer of fixed size; a write past its end is a
  panic.
-/
import TailTalk.Afp.Volume

namespace TailTalk

open Lib

/-! ## Buffers -/

/-- `out[start..start + data.len()].copy_from_slice(data)` -/
def store (out : Bytes) (start : ℕ) (data : Bytes) : Checked Bytes :=
  if start + data.length ≤ out.length then
    .ok (out.take start ++ data ++ out.drop (start + data.length))
  else .error (.slice start (start + data.length) out.length)

/-- A buffer of zeros. -/
def zeros (n : ℕ) : Bytes := List.replicate n 0

@[simp] theorem zeros_length (n : ℕ) : (zeros n).length = n := List.length_replicate

theorem store_length {out out' : Bytes} {start : ℕ} {data : Bytes}
    (h : store out start data = .ok out') : out'.length = out.length := by
  unfold store at h
  split at h
  · obtain rfl := Except.ok.inj h
    simp only [List.length_append, List.length_take, List.length_drop]
    omega
  · cases h

theorem returns_store (out : Bytes) (start : ℕ) (data : Bytes) :
    Returns (store out start data) ↔ start + data.length ≤ out.length := by
  unfold store
  split
  · rename_i h
    exact ⟨fun _ => h, fun _ => returns_ok _⟩
  · rename_i h
    exact ⟨fun hr => absurd hr (not_returns_error _), fun hle => absurd hle h⟩

/-- A buffer, where a block starts in it, and the next field. -/
structure Block where
  out : Bytes
  base : ℕ
  offset : ℕ

namespace Block

/-- One field, if the bitmap asks for it. -/
def field (block : Block) (bitmap mask : Bitmap) (data : Bytes) : Checked Block :=
  if bitmap.has mask then do
    let out ← store block.out (block.base + block.offset) data
    pure { block with out := out, offset := block.offset + data.length }
  else pure block

/-- The offset of the long name, and the name at that offset as a Pascal string. -/
def longName (block : Block) (bitmap : Bitmap) (nameOffset : ℕ) (encodedName : Bytes) :
    Checked Block :=
  if bitmap.has Parm.LONG_NAME then do
    let out ← store block.out (block.base + block.offset) (be16 (UInt16.ofNat nameOffset))
    let out ← store out (block.base + nameOffset) [UInt8.ofNat encodedName.length]
    let out ← store out (block.base + nameOffset + 1) encodedName
    pure { block with out := out, offset := block.offset + 2 }
  else pure block

end Block

/-! ## Finder Info -/

/-- A type and a creator. -/
structure TypeCreator where
  fileType : OSType
  creator : OSType

/-- Both from texts. -/
def codes (fileType creator : String) : TypeCreator := ⟨osType fileType, osType creator⟩

/-- The table over the kinds of content. -/
def Mime.typeCreator : Mime → Option TypeCreator
  | plain => some (codes "TEXT" "ttxt")
  | stuffit => some (codes "SIT!" "SIT!")
  | stuffitX => some (codes "APPL" "aust")
  | dc42 => some (codes "dImg" "dCpy")
  | pdf => some (codes "PDF " "CARO")
  | binhex40 => some (codes "TEXT" "BnHq")
  | binhex => some (codes "TEXT" "BNHQ")
  | appleDiskImage => some (codes "devi" "????")
  | macbinary => some (codes "BINA" "PSPT")
  | dfont => some (codes "dfil" "????")
  | appleRsr => some (codes "rsrc" "????")
  | appleworks3 => some (codes "AWWP" "pdos")
  | jpeg => some (codes "JPEG" "8BIM")
  | png => some (codes "PNGf" "ogle")
  | pict => some (codes "PICT" "ttxt")
  | other => none

/-- Stem and extension of a file name; a leading dot starts no extension. -/
def splitExtension (name : Name) : Option Name × Option Name :=
  match name.reverse.findIdx? (· = '.') with
  | none => (some name, none)
  | some i =>
    let dot := name.length - 1 - i
    if dot = 0 then (some name, none) else (some (name.take dot), some (name.drop (dot + 1)))

/-- Lower case, as far as ASCII goes. -/
def asciiLower (name : Name) : Name := name.map Char.toLower

/-- `.π` -/
def MPW_TOOL : Name := [Char.ofNat 0x3C0]

/-- What an extension says of a file. -/
def inferTypeCreatorFromExtension (name : Name) : Option TypeCreator :=
  let stem := (splitExtension name).1
  let ext := (splitExtension name).2.map asciiLower
  if ext = some MPW_TOOL then some (codes "MPST" "MPS ")
  else if ext = some RSRC ∧ stem.any fun s => ('.' :: MPW_TOOL).isSuffixOf s then
    some (codes "rsrc" "MPS ")
  else if ext = some "txt".toList then some (codes "TEXT" "ttxt")
  else if ext = some "sit".toList then some (codes "SIT!" "SIT!")
  else if ext = some "sea".toList then some (codes "APPL" "aust")
  else if ext = some "img".toList ∨ ext = some "dsk".toList then some (codes "dImg" "dCpy")
  else if ext = some "pdf".toList then some (codes "PDF " "CARO")
  else if ext = some "hqx".toList then some (codes "TEXT" "BnHq")
  else none

namespace Node

variable (sys : Sys)

/-- Where a node's own file or directory is. -/
def hostPath (node : Node) : HostPath := .object node.path node.path.isEmpty

/-- What its contents say. -/
def inferTypeCreatorFromContent (node : Node) : Afp (Option TypeCreator) := do
  let data ← tryHost (Disk.readContent sys node.hostPath)
  pure ((data.bind sys.mime).bind Mime.typeCreator)

/-- `read_finder_info`, with the default where there is none. -/
def storedFinderInfo (node : Node) : Afp FinderInfo := do
  let stored ← tryHost (Disk.getXattr sys node.hostPath)
  match stored with
  | some (some data) =>
    pure (if data.length ≥ FinderInfo.FINDER_INFO_LEN then .ofBytes data else .default)
  | _ => pure .default

/-- What is stored, or what content and extension suggest. -/
def getFinderInfo (node : Node) : Afp FinderInfo := do
  let stored ← node.storedFinderInfo sys
  if stored = .default ∧ node.isDir = false then
    let fromContent ← node.inferTypeCreatorFromContent sys
    match fromContent.or (inferTypeCreatorFromExtension (node.path.getLastD [])) with
    | some tc => pure { FinderInfo.default with fileType := tc.fileType, creator := tc.creator }
    | none => pure stored
  else pure stored

/-- The same, if a field needs it. -/
def finderInfoFor (node : Node) (wanted : Bool) : Afp (Option FinderInfo) :=
  if wanted then some <$> node.getFinderInfo sys else pure none

/-- Store it. -/
def setFinderInfo (node : Node) (info : FinderInfo) : Afp Unit :=
  host .accessDenied (Disk.setXattr sys node.hostPath info.toBytes)

/-- The bit that hides an object. -/
def isInvisible (info : FinderInfo) : Bool := info.flags &&& FinderInfo.IS_INVISIBLE != 0

/-- The attributes that Finder Info gives. -/
def attributesOf (info : Option FinderInfo) : UInt16 :=
  if info.any isInvisible then 0x0001 else 0

/-- The same the other way. -/
def setAttributes (node : Node) (attributes : UInt16) : Afp Unit := do
  let info ← node.getFinderInfo sys
  let flags :=
    if attributes &&& 0x0001 ≠ 0 then info.flags ||| FinderInfo.IS_INVISIBLE
    else info.flags &&& ~~~ FinderInfo.IS_INVISIBLE
  node.setFinderInfo sys { info with flags := flags }

end Node

/-! ## Parameter blocks to clients -/

/-- A length as a 32-bit field. -/
def clampLenU32 (len : ℕ) : UInt32 := UInt32.ofNat (min len 4294967295)

namespace Volume

variable (sys : Sys)

/-- When it was created, or else modified. -/
def creationTime (ino : ℕ) : ℤ := ((sys.created ino).or (sys.modified ino)).getD 0

/-- The sidecar of a path and its length. -/
def resolveResourceForkPath (relPath : Path) : Afp (HostPath × UInt32) := do
  let sidecar := HostPath.sidecar relPath
  let info ← tryHost (Disk.metadata sys sidecar)
  match info with
  | some info => pure (sidecar, if info.len > 0 then clampLenU32 info.len else 0)
  | none => pure (sidecar, 0)

/-- The length of the sidecar. -/
def resourceForkLength (bitmap : Bitmap) (relPath : Path) (block : Block) : Afp Block :=
  if bitmap.has FileParm.RESOURCE_FORK_LENGTH then do
    let (_, rsrcLen) ← resolveResourceForkPath sys relPath
    Proc.lift (block.field bitmap FileParm.RESOURCE_FORK_LENGTH (be32 rsrcLen))
  else pure block

variable [MacRoman]

/-- `Node::get_file_parms_resp`: the buffer and the number of bytes of the block at `base`. -/
def nodeFileParmsResp (node : Node) (bitmap : Bitmap) (out : Bytes) (base : ℕ) :
    Afp (Bytes × ℕ) := do
  let info ← host .objectNotFound (Disk.metadata sys node.hostPath)
  let finderInfo ← node.finderInfoFor sys
    (bitmap.intersects (Parm.ATTRIBUTES ||| Parm.FINDER_INFO ||| Parm.PRODOS_INFO))
  let created := creationTime sys info.ino
  let modified := (sys.modified info.ino).getD created
  let encodedName := mangleName node.name
  let block : Block := ⟨out, base, 0⟩
  let block ← Proc.lift (block.field bitmap Parm.ATTRIBUTES (be16 (Node.attributesOf finderInfo)))
  let block ← Proc.lift
    (block.field bitmap Parm.PARENT_DIR_ID (be32 (UInt32.ofNat node.parentId)))
  let block ← Proc.lift (block.field bitmap Parm.CREATE_DATE (be32 (timeToAfp created)))
  let block ← Proc.lift (block.field bitmap Parm.MODIFICATION_DATE (be32 (timeToAfp modified)))
  let block ← Proc.lift (block.field bitmap Parm.BACKUP_DATE (be32 AFP_DATE_NEVER))
  let block ← Proc.lift
    (block.field bitmap Parm.FINDER_INFO (finderInfo.getD .default).toBytes)
  let block ← Proc.lift (block.longName bitmap (fileLongNameOffset bitmap) encodedName)
  let block ← Proc.lift (block.field bitmap Parm.SHORT_NAME [0, 0])
  let block ← Proc.lift (block.field bitmap FileParm.FILE_NUMBER (be32 (UInt32.ofNat node.id)))
  let block ← Proc.lift (block.field bitmap FileParm.DATA_FORK_LENGTH (be32 (clampLenU32 info.len)))
  let block ← resourceForkLength sys bitmap node.path block
  let block ← Proc.lift (block.field bitmap Parm.PRODOS_INFO
    (ProdosInfo.fromFinderInfo (finderInfo.getD .default)).toBytes)
  let nameLen := if bitmap.has Parm.LONG_NAME then encodedName.length + 1 else 0
  pure (block.out, block.offset + nameLen)

/-- The modification time of the volume, or its creation time. -/
def getModifiedAt : Afp UInt32 := do
  let v ← Proc.read
  let info ← tryHost (Disk.metadata sys (.object [] false))
  pure (((info.bind fun info => sys.modified info.ino).map timeToAfp).getD v.createdAt)

/-- The entries of a directory, less the server's. -/
def countDirectoryEntries (path : HostPath) : Afp UInt16 := do
  let names ← host .objectNotFound (Disk.readDir sys path)
  let count := (names.filter fun name => !isPrivateName name).length
  pure (UInt16.ofNat (min count 65535))

/-- The date of the volume and the number of entries, where they are asked for. -/
def modificationDate (bitmap mask : Bitmap) (block : Block) : Afp Block :=
  if bitmap.has mask then do
    let modified ← getModifiedAt sys
    Proc.lift (block.field bitmap mask (be32 modified))
  else pure block

/-- The number of entries. -/
def offspringCount (bitmap : Bitmap) (relPath : Path) (block : Block) : Afp Block :=
  if bitmap.has DirParm.OFFSPRING_COUNT then do
    let count ← countDirectoryEntries sys (.object relPath relPath.isEmpty)
    Proc.lift (block.field bitmap DirParm.OFFSPRING_COUNT (be16 count))
  else pure block

/-- A node that is registered. -/
def registered (relPath : Path) : Afp Node := do
  let v ← Proc.read
  let id ← Proc.orElse v.pathToId[relPath]? .objectNotFound
  getNode id

/-- Everyone may do everything. -/
def ACCESS_RIGHTS : UInt32 := 0x87070707

/-- A block for a directory. -/
def getDirectoryParmsResp (bitmap : Bitmap) (relPath : Path) (out : Bytes) (base : ℕ) :
    Afp (Bytes × ℕ) := do
  let node ← registered relPath
  let v ← Proc.read
  let finderInfo ← node.finderInfoFor sys
    (bitmap.intersects (Parm.ATTRIBUTES ||| Parm.FINDER_INFO))
  let encodedName := mangleName node.name
  let block : Block := ⟨out, base, 0⟩
  let block ← Proc.lift (block.field bitmap Parm.ATTRIBUTES (be16 (Node.attributesOf finderInfo)))
  let block ← Proc.lift
    (block.field bitmap Parm.PARENT_DIR_ID (be32 (UInt32.ofNat node.parentId)))
  let block ← Proc.lift (block.field bitmap Parm.CREATE_DATE (be32 v.createdAt))
  let block ← modificationDate sys bitmap Parm.MODIFICATION_DATE block
  let block ← Proc.lift (block.field bitmap Parm.BACKUP_DATE (be32 AFP_DATE_NEVER))
  let block ← Proc.lift
    (block.field bitmap Parm.FINDER_INFO (finderInfo.getD .default).toBytes)
  let block ← Proc.lift (block.longName bitmap (dirLongNameOffset bitmap) encodedName)
  let block ← Proc.lift (block.field bitmap Parm.SHORT_NAME [0, 0])
  let block ← Proc.lift (block.field bitmap DirParm.DIR_ID (be32 (UInt32.ofNat node.id)))
  let block ← offspringCount sys bitmap relPath block
  let block ← Proc.lift (block.field bitmap DirParm.OWNER_ID (be32 0))
  let block ← Proc.lift (block.field bitmap DirParm.GROUP_ID (be32 0))
  let block ← Proc.lift (block.field bitmap DirParm.ACCESS_RIGHTS (be32 ACCESS_RIGHTS))
  let block ← Proc.lift (block.field bitmap Parm.PRODOS_INFO ProdosInfo.DIRECTORY.toBytes)
  let nameLen := if bitmap.has Parm.LONG_NAME then encodedName.length + 1 else 0
  pure (block.out, block.offset + nameLen)

/-- A block for a file. -/
def getFileParmsResp (bitmap : Bitmap) (relPath : Path) (out : Bytes) (base : ℕ) :
    Afp (Bytes × ℕ) := do
  let node ← registered relPath
  nodeFileParmsResp sys node bitmap out base

/-- Whether the node is a directory, the buffer, and the number of bytes. -/
def getNodeParms (nodeId : NodeId) (fileBitmap dirBitmap : Bitmap) (out : Bytes) (base : ℕ) :
    Afp (Bool × Bytes × ℕ) := do
  let node ← getNode nodeId
  if node.isDir then
    let (out, len) ← getDirectoryParmsResp sys dirBitmap node.path out base
    pure (true, out, len)
  else
    let (out, len) ← getFileParmsResp sys fileBitmap node.path out base
    pure (false, out, len)

/-- FPGetForkParms. -/
def getForkParms (bitmap : Bitmap) (forkId : UInt16) (out : Bytes) (base : ℕ) :
    Afp (Bytes × ℕ) := do
  let v ← Proc.read
  let (nodeId, _) ← Proc.orElse v.forkRefToNodeId[forkId]? .objectNotFound
  let node ← getNode nodeId
  nodeFileParmsResp sys node bitmap out base

/-! ## Volume parameters -/

/-- `VolumeSignature::FixedDirectoryID` -/
def FIXED_DIRECTORY_ID : UInt16 := 2

/-- `i32::MAX / 2`, for both the free and the total bytes -/
def VOLUME_BYTES : UInt32 := 1073741823

/-- FPGetVolParms. -/
def getBitmapResp (bitmap : Bitmap) (out : Bytes) : Afp (Bytes × ℕ) := do
  let v ← Proc.read
  let out ← Proc.lift (store out 0 (be16 bitmap))
  let block : Block := ⟨out, 0, 2⟩
  let block ← Proc.lift (block.field bitmap VolParm.ATTRIBUTES (be16 0))
  let block ← Proc.lift (block.field bitmap VolParm.SIGNATURE (be16 FIXED_DIRECTORY_ID))
  let block ← Proc.lift (block.field bitmap VolParm.CREATION_DATE (be32 v.createdAt))
  let block ← modificationDate sys bitmap VolParm.MODIFICATION_DATE block
  let block ← Proc.lift (block.field bitmap VolParm.BACKUP_DATE (be32 AFP_DATE_NEVER))
  let block ← Proc.lift (block.field bitmap VolParm.VOLUME_ID (be16 v.volumeId))
  let block ← Proc.lift (block.field bitmap VolParm.BYTES_FREE (be32 VOLUME_BYTES))
  let block ← Proc.lift (block.field bitmap VolParm.BYTES_TOTAL (be32 VOLUME_BYTES))
  let nameBytes := utf8 v.name
  let block ← Proc.lift (block.field bitmap VolParm.VOLUME_NAME
    (be16 (UInt16.ofNat block.offset) ++ [UInt8.ofNat nameBytes.length] ++ nameBytes))
  pure (block.out, block.offset)

/-! ## Parameter blocks from clients -/

/-- The next `n` bytes of a block, and the offset after them. -/
def takeParam (n : ℕ) (data : Bytes) (offset : ℕ) : Except AfpError (Bytes × ℕ) :=
  if offset + n ≤ data.length then .ok ((data.drop offset).take n, offset + n)
  else .error .paramError

/-- Step over `n` bytes for each of the bits that are set. -/
def skipParams (bitmap : Bitmap) (n : ℕ) (data : Bytes) : List Bitmap → ℕ → Except AfpError ℕ
  | [], offset => .ok offset
  | mask :: masks, offset =>
    if bitmap.has mask then
      match takeParam n data offset with
      | .ok (_, offset) => skipParams bitmap n data masks offset
      | .error e => .error e
    else skipParams bitmap n data masks offset

/-- The attributes at the front of a block; the offset after them. -/
def setAttributesParam (node : Node) (bitmap : Bitmap) (data : Bytes) : Afp ℕ :=
  if bitmap.has Parm.ATTRIBUTES then do
    let (raw, offset) ← Proc.ofExcept (takeParam 2 data 0)
    node.setAttributes sys (readBe16 raw)
    pure offset
  else pure 0

/-- The Finder Info of a block is stored. -/
def setFinderInfoParam (node : Node) (bitmap : Bitmap) (data : Bytes) (offset : ℕ) : Afp ℕ :=
  if bitmap.has Parm.FINDER_INFO then do
    let (raw, offset) ← Proc.ofExcept (takeParam FinderInfo.FINDER_INFO_LEN data offset)
    node.setFinderInfo sys (.ofBytes raw)
    pure offset
  else pure offset

/-- A directory is told what it is. -/
def setProdosInfoParam (node : Node) (bitmap : Bitmap) (data : Bytes) (offset : ℕ) : Afp Unit :=
  if bitmap.has Parm.PRODOS_INFO then do
    let (raw, _) ← Proc.ofExcept (takeParam PRODOS_INFO_LEN data offset)
    let prodos := ProdosInfo.ofBytes raw
    if node.isDir then
      if prodos.fileType ≠ ProdosInfo.DIRECTORY.fileType then Proc.throw .accessDenied
      else pure ()
    else
      let current ← node.getFinderInfo sys
      node.setFinderInfo sys (prodos.toFinderInfo current)
  else pure ()

/-- What a client sends of a directory and is not kept. -/
def ownerParams (node : Node) : List Bitmap :=
  if node.isDir then [DirParm.OWNER_ID, DirParm.GROUP_ID, DirParm.ACCESS_RIGHTS] else []

/-- The bits of the parameters that are applied are the same for files and directories. -/
def setNodeParms (nodeId : NodeId) (fileBitmap dirBitmap : Bitmap) (data : Bytes) : Afp Unit := do
  if nodeId = ROOT_PARENT_ID then Proc.throw .objectNotFound
  else
    let node ← getNode nodeId
    let bitmap := if node.isDir then dirBitmap else fileBitmap
    let offset ← setAttributesParam sys node bitmap data
    let offset ← Proc.ofExcept (skipParams bitmap 4 data
      [Parm.CREATE_DATE, Parm.MODIFICATION_DATE, Parm.BACKUP_DATE] offset)
    let offset ← setFinderInfoParam sys node bitmap data offset
    let offset ← Proc.ofExcept (skipParams bitmap 4 data (ownerParams node) offset)
    setProdosInfoParam sys node bitmap data offset

end Volume

end TailTalk
