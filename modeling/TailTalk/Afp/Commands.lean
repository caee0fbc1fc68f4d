/-
  AFP commands — the fields of a request, read at fixed and computed offsets.

  A parser panics where it slices past the end of what it was given.  Volume
  IDs and path types are read by the code and used by nothing; they are left
  out.
-/
import TailTalk.Afp.Enumerate

namespace TailTalk

open Lib

/-! ## Reading fields -/

section
variable {σ : Type}

/-- The check on the length of a payload. -/
def need (n : ℕ) (buf : Bytes) : Proc σ AfpError Unit :=
  if buf.length < n then Proc.throw .invalidSize else pure ()

/-- A byte of the request. -/
def byteField (buf : Bytes) (i : ℕ) : Proc σ AfpError UInt8 := Proc.lift (byteAt buf i)

/-- `u16::from_be_bytes(buf[i..i + 2])` -/
def wordField (buf : Bytes) (i : ℕ) : Proc σ AfpError UInt16 := do
  let raw ← Proc.lift (slice buf i (i + 2))
  pure (readBe16 raw)

/-- A number of four bytes. -/
def longField (buf : Bytes) (i : ℕ) : Proc σ AfpError ℕ := do
  let raw ← Proc.lift (slice buf i (i + 4))
  pure (readBe32 raw).toNat

/-- A type or creator code. -/
def codeField (buf : Bytes) (i : ℕ) : Proc σ AfpError OSType := do
  let raw ← Proc.lift (slice buf i (i + 4))
  pure (field raw 0 4)

variable [MacRoman]

/-- A Pascal string. -/
def stringField (buf : Bytes) (i : ℕ) : Proc σ AfpError MacString := do
  let rest ← Proc.lift (sliceFrom buf i)
  Proc.ofExcept (MacString.parse rest)

/-! ## Objects by directory ID and path -/

/-- A request about the object at a path. -/
structure ObjectRequest where
  directoryId : NodeId
  bitmap : Bitmap
  path : MacString

/-- The layout that most requests share; a bitmap comes with the bits that it can have. -/
def parseObject (minLen dirAt pathAt : ℕ) (bitmapAt : Option (ℕ × Bitmap)) (buf : Bytes) :
    Proc σ AfpError ObjectRequest := do
  need minLen buf
  let directoryId ← longField buf dirAt
  let bitmap ← match bitmapAt with
    | some (i, all) => do
      let bitmap ← wordField buf i
      pure (bitmap &&& all)
    | none => pure 0
  let path ← stringField buf pathAt
  pure ⟨directoryId, bitmap, path⟩

/-- Requests with a path and nothing else. -/
def FPDelete.parse (buf : Bytes) : Proc σ AfpError ObjectRequest := parseObject 7 2 7 none buf
def FPGetComment.parse (buf : Bytes) : Proc σ AfpError ObjectRequest := parseObject 7 2 7 none buf
def FPRemoveComment.parse (buf : Bytes) : Proc σ AfpError ObjectRequest :=
  parseObject 6 1 6 none buf
def FPCreateDir.parse (buf : Bytes) : Proc σ AfpError ObjectRequest := parseObject 8 2 7 none buf

/-- The parameters wanted of a file. -/
def FPGetFileParms.parse (buf : Bytes) : Proc σ AfpError ObjectRequest :=
  parseObject 10 2 9 (some (6, FileParm.all)) buf

/-- The parameters wanted of a directory. -/
def FPGetDirParms.parse (buf : Bytes) : Proc σ AfpError ObjectRequest :=
  parseObject 10 2 9 (some (6, DirParm.all)) buf

/-- The first even offset from `n` on. -/
def evenUp (n : ℕ) : ℕ := n + n % 2

/-- An object and a block of parameters after it. -/
def parseWithParams (buf : Bytes) : Proc σ AfpError (ObjectRequest × Bytes) := do
  let req ← parseObject 10 2 9 (some (6, FileParm.all)) buf
  let params ← Proc.lift (sliceFrom buf (evenUp (9 + req.path.byteLen)))
  pure (req, params)

/-- The parameters to set of a file. -/
def FPSetFileParms.parse (buf : Bytes) : Proc σ AfpError (ObjectRequest × Bytes) :=
  parseWithParams buf

/-- The parameters to set of either. -/
def FPSetFileDirParms.parse (buf : Bytes) : Proc σ AfpError (ObjectRequest × Bytes) :=
  parseWithParams buf

/-- What is wanted of an object, whichever it is. -/
structure FPGetFileDirParms where
  directoryId : NodeId
  fileBitmap : Bitmap
  dirBitmap : Bitmap
  path : MacString

/-- Both bitmaps, and the path. -/
def FPGetFileDirParms.parse (buf : Bytes) : Proc σ AfpError FPGetFileDirParms := do
  need 12 buf
  let directoryId ← longField buf 2
  let fileBitmap ← wordField buf 6
  let dirBitmap ← wordField buf 8
  let path ← stringField buf 11
  pure ⟨directoryId, fileBitmap &&& FileParm.all, dirBitmap &&& DirParm.all, path⟩

/-- A file to create. -/
structure FPCreateFile where
  createFlag : CreateFlag
  directoryId : NodeId
  path : MacString

/-- The flag and the path. -/
def FPCreateFile.parse (buf : Bytes) : Proc σ AfpError FPCreateFile := do
  need 9 buf
  let flag ← byteField buf 0
  let directoryId ← longField buf 3
  let path ← stringField buf 8
  pure ⟨.ofByte flag, directoryId, path⟩

/-- A fork to open, and what to say of its file. -/
structure FPOpenFork where
  directoryId : NodeId
  fileBitmap : Bitmap
  accessMode : UInt16
  path : MacString

/-- The bitmap, the access mode and the path. -/
def FPOpenFork.parse (buf : Bytes) : Proc σ AfpError FPOpenFork := do
  need 12 buf
  let directoryId ← longField buf 2
  let fileBitmap ← wordField buf 6
  let accessMode ← wordField buf 8
  let path ← stringField buf 11
  pure ⟨directoryId, fileBitmap &&& FileParm.all, accessMode, path⟩

/-- The bitmaps, the page and the path. -/
def FPEnumerate.parse (buf : Bytes) : Proc σ AfpError FPEnumerate := do
  need 17 buf
  let volumeId ← wordField buf 0
  let directoryId ← longField buf 2
  let fileBitmap ← wordField buf 6
  let directoryBitmap ← wordField buf 8
  let reqCount ← wordField buf 10
  let startIndex ← wordField buf 12
  let maxReplySize ← wordField buf 14
  let path ← stringField buf 17
  pure ⟨volumeId, directoryId, fileBitmap &&& FileParm.all, directoryBitmap &&& DirParm.all,
    reqCount.toNat, startIndex.toNat, maxReplySize.toNat, path⟩

/-! ## Set directory parameters -/

/-- The bits that `FPFileAttributes` and `FPAccessRights` name. -/
def FILE_ATTRIBUTES : UInt16 := 0x85FF
def RIGHTS : UInt8 := 0x87

/-- What to set of a directory. -/
structure FPSetDirParms where
  directoryId : NodeId
  dirBitmap : Bitmap
  path : MacString
  attributes : Option UInt16
  finderInfo : Option Bytes
  ownerId : Option ℕ
  groupId : Option ℕ
  /-- of the owner, the group, everyone, and the user -/
  access : Option (Vector UInt8 4)

/-- A field of `n` bytes that the bitmap may ask for, and the offset after it. -/
def optionalField {α : Type} (buf : Bytes) (wanted : Bool) (n offset : ℕ) (read : Bytes → α) :
    Proc σ AfpError (Option α × ℕ) :=
  if wanted then
    if offset + n > buf.length then Proc.throw .invalidSize
    else do
      let raw ← Proc.lift (slice buf offset (offset + n))
      pure (some (read raw), offset + n)
  else pure (none, offset)

/-- The parameters, read on right after the path. -/
def FPSetDirParms.parse (buf : Bytes) : Proc σ AfpError FPSetDirParms := do
  need 9 buf
  let directoryId ← longField buf 2
  let bitmap ← wordField buf 6
  let bitmap := bitmap &&& DirParm.all
  let path ← stringField buf 9
  let offset := 9 + path.byteLen
  let (attributes, offset) ← optionalField buf (Bitmap.has bitmap Parm.ATTRIBUTES) 2 offset
    fun raw => readBe16 raw &&& FILE_ATTRIBUTES
  let (finderInfo, offset) ← optionalField buf (Bitmap.has bitmap Parm.FINDER_INFO) 32 offset id
  let (ownerId, offset) ← optionalField buf (Bitmap.has bitmap DirParm.OWNER_ID) 4 offset
    fun raw => (readBe32 raw).toNat
  let (groupId, offset) ← optionalField buf (Bitmap.has bitmap DirParm.GROUP_ID) 4 offset
    fun raw => (readBe32 raw).toNat
  let (access, _) ← optionalField buf (Bitmap.has bitmap DirParm.ACCESS_RIGHTS) 4 offset
    fun raw => (field raw 0 4).map (· &&& RIGHTS)
  pure ⟨directoryId, bitmap, path, attributes, finderInfo, ownerId, groupId, access⟩

/-! ## Moves and copies -/

/-- A new name for an object. -/
structure FPRename where
  directoryId : NodeId
  path : MacString
  newName : MacString

/-- Two strings, one after the other. -/
def FPRename.parse (buf : Bytes) : Proc σ AfpError FPRename := do
  need 8 buf
  let directoryId ← longField buf 2
  let path ← stringField buf 7
  let newNameTypeOffset := 7 + path.byteLen
  if newNameTypeOffset ≥ buf.length then Proc.throw .invalidSize
  else
    let newName ← stringField buf (newNameTypeOffset + 1)
    pure ⟨directoryId, path, newName⟩

/-- Two paths and the new name, each after its type; the name may be missing. -/
def parsePaths (buf : Bytes) (srcAt : ℕ) : Proc σ AfpError (MacString × MacString × MacString) := do
  let srcPath ← stringField buf srcAt
  let dstTypeOffset := srcAt + srcPath.byteLen
  if dstTypeOffset ≥ buf.length then Proc.throw .invalidSize
  else
    let dstPath ← stringField buf (dstTypeOffset + 1)
    let newNameTypeOffset := dstTypeOffset + 1 + dstPath.byteLen
    if newNameTypeOffset + 1 < buf.length then
      let newName ← stringField buf (newNameTypeOffset + 1)
      pure (srcPath, dstPath, newName)
    else pure (srcPath, dstPath, MacString.new [])

/-- A file to copy. -/
structure FPCopyFile where
  srcVolumeId : UInt16
  srcDirectoryId : NodeId
  dstVolumeId : UInt16
  dstDirectoryId : NodeId
  srcPath : MacString
  dstPath : MacString
  newName : MacString

/-- Two directories and three strings. -/
def FPCopyFile.parse (buf : Bytes) : Proc σ AfpError FPCopyFile := do
  need 14 buf
  let srcVolumeId ← wordField buf 0
  let srcDirectoryId ← longField buf 2
  let dstVolumeId ← wordField buf 6
  let dstDirectoryId ← longField buf 8
  let (srcPath, dstPath, newName) ← parsePaths buf 13
  pure ⟨srcVolumeId, srcDirectoryId, dstVolumeId, dstDirectoryId, srcPath, dstPath, newName⟩

/-- An object to move. -/
structure FPMoveAndRename where
  srcDirectoryId : NodeId
  dstDirectoryId : NodeId
  srcPath : MacString
  dstPath : MacString
  newName : MacString

/-- The same without volumes. -/
def FPMoveAndRename.parse (buf : Bytes) : Proc σ AfpError FPMoveAndRename := do
  need 12 buf
  let srcDirectoryId ← longField buf 2
  let dstDirectoryId ← longField buf 6
  let (srcPath, dstPath, newName) ← parsePaths buf 11
  pure ⟨srcDirectoryId, dstDirectoryId, srcPath, dstPath, newName⟩

end

/-! ## Forks -/

section
variable {σ : Type}

/-- A request with one 16-bit number, the volume or the fork. -/
def parseNumber (buf : Bytes) : Proc σ AfpError UInt16 := do
  need 2 buf
  wordField buf 0

/-- Requests with one number. -/
def FPFlush.parse (buf : Bytes) : Proc σ AfpError UInt16 := parseNumber buf
def FPFlushFork.parse (buf : Bytes) : Proc σ AfpError UInt16 := parseNumber buf
def FPCloseFork.parse (buf : Bytes) : Proc σ AfpError UInt16 := parseNumber buf

/-- Requests with a number and a bitmap. -/
def parseNumberBitmap (buf : Bytes) (all : Bitmap) : Proc σ AfpError (UInt16 × Bitmap) := do
  need 4 buf
  let number ← wordField buf 0
  let bitmap ← wordField buf 2
  pure (number, bitmap &&& all)

/-- The parameters wanted of an open fork. -/
def FPGetForkParms.parse (buf : Bytes) : Proc σ AfpError (UInt16 × Bitmap) :=
  parseNumberBitmap buf FileParm.all

/-- The parameters wanted of the volume. -/
def FPGetVolParms.parse (buf : Bytes) : Proc σ AfpError (UInt16 × Bitmap) :=
  parseNumberBitmap buf VolParm.all

/-- The 32-bit offset of a lock is signed. -/
def signed32 (n : ℕ) : ℤ := if n < 2147483648 then n else n - 4294967296

/-- The flags, the offset as a signed number, and the length. -/
def FPByteRangeLock.parse (buf : Bytes) : Proc σ AfpError FPByteRangeLock := do
  need 11 buf
  let flags ← byteField buf 0
  let forkId ← wordField buf 1
  let offset ← longField buf 3
  let length ← longField buf 7
  pure ⟨forkId, signed32 offset, length, flags &&& 0x01 ≠ 0, flags &&& 0x80 ≠ 0⟩

/-- The range and the newline. -/
def FPRead.parse (buf : Bytes) : Proc σ AfpError FPRead := do
  need 12 buf
  let forkId ← wordField buf 0
  let offset ← longField buf 2
  let reqCount ← longField buf 6
  let newlineMask ← byteField buf 10
  let newlineChar ← byteField buf 11
  pure ⟨forkId, offset, reqCount, newlineMask, newlineChar⟩

/-- Data for an open fork. -/
structure FPWrite where
  forkId : UInt16
  offset : ℕ
  reqCount : ℕ
  startEndFlag : Bool

/-- The high bit of the count is the start/end flag. -/
def FPWrite.parse (buf : Bytes) : Proc σ AfpError FPWrite := do
  need 10 buf
  let forkId ← wordField buf 0
  let offset ← longField buf 2
  let reqCountRaw ← longField buf 6
  pure ⟨forkId, offset, reqCountRaw % 2147483648, reqCountRaw ≥ 2147483648⟩

/-- A length for one of the forks. -/
def FPSetForkParms.parse (buf : Bytes) : Proc σ AfpError FPSetForkParms := do
  need 4 buf
  let forkRefNum ← wordField buf 0
  let bitmap ← wordField buf 2
  let bitmap := bitmap &&& FileParm.all
  let (dataForkLength, offset) ← optionalField buf (Bitmap.has bitmap FileParm.DATA_FORK_LENGTH) 4 4
    fun raw => (readBe32 raw).toNat
  let (resourceForkLength, _) ← optionalField buf
    (Bitmap.has bitmap FileParm.RESOURCE_FORK_LENGTH) 4 offset fun raw => (readBe32 raw).toNat
  pure ⟨forkRefNum, dataForkLength, resourceForkLength⟩

/-! ## Desktop database -/

/-- An icon, its bits coming in the write. -/
structure FPAddIcon where
  dtRefNum : UInt16
  fileCreator : OSType
  fileType : OSType
  iconType : UInt8
  size : UInt16

/-- All its fields. -/
def FPAddIcon.parse (buf : Bytes) : Proc σ AfpError FPAddIcon := do
  need 18 buf
  let dtRefNum ← wordField buf 0
  let fileCreator ← codeField buf 2
  let fileType ← codeField buf 6
  let iconType ← byteField buf 10
  let _ ← longField buf 12
  let size ← wordField buf 16
  pure ⟨dtRefNum, fileCreator, fileType, iconType, size⟩

/-- The key of an icon. -/
structure FPGetIcon where
  dtRefNum : UInt16
  fileCreator : OSType
  fileType : OSType
  iconType : UInt8

/-- The same fields. -/
def FPGetIcon.parse (buf : Bytes) : Proc σ AfpError FPGetIcon := do
  need 14 buf
  let dtRefNum ← wordField buf 0
  let fileCreator ← codeField buf 2
  let fileType ← codeField buf 6
  let iconType ← byteField buf 10
  let _ ← wordField buf 12
  pure ⟨dtRefNum, fileCreator, fileType, iconType⟩

/-- A creator and an index that counts from one. -/
structure IndexRequest where
  dtRefNum : UInt16
  fileCreator : OSType
  index : UInt16

/-- A creator and an index. -/
def parseIndex (buf : Bytes) : Proc σ AfpError IndexRequest := do
  need 8 buf
  let dtRefNum ← wordField buf 0
  let fileCreator ← codeField buf 2
  let index ← wordField buf 6
  pure ⟨dtRefNum, fileCreator, index⟩

/-- Requests by index. -/
def FPGetIconInfo.parse (buf : Bytes) : Proc σ AfpError IndexRequest := parseIndex buf
def FPGetAPPL.parse (buf : Bytes) : Proc σ AfpError IndexRequest := parseIndex buf

end

section
variable {σ : Type} [MacRoman]

/-- An application of a creator. -/
structure FPAddAPPL where
  dtRefNum : UInt16
  fileCreator : OSType
  tag : ℕ
  directoryId : NodeId
  path : MacString

/-- Its tag and its path. -/
def FPAddAPPL.parse (buf : Bytes) : Proc σ AfpError FPAddAPPL := do
  need 16 buf
  let dtRefNum ← wordField buf 0
  let fileCreator ← codeField buf 2
  let tag ← longField buf 6
  let directoryId ← longField buf 10
  let path ← stringField buf 15
  pure ⟨dtRefNum, fileCreator, tag, directoryId, path⟩

/-- An application to forget. -/
structure FPRemoveAPPL where
  dtRefNum : UInt16
  fileCreator : OSType
  directoryId : NodeId
  path : MacString

/-- The same without the tag. -/
def FPRemoveAPPL.parse (buf : Bytes) : Proc σ AfpError FPRemoveAPPL := do
  need 12 buf
  let dtRefNum ← wordField buf 0
  let fileCreator ← codeField buf 2
  let directoryId ← longField buf 6
  let path ← stringField buf 11
  pure ⟨dtRefNum, fileCreator, directoryId, path⟩

/-- A comment for an object. -/
structure FPAddComment where
  directoryId : NodeId
  path : MacString
  comment : Bytes

/-- The comment, a Pascal string; one that runs past the end is none. -/
def commentField (buf : Bytes) (offset : ℕ) : Proc σ AfpError Bytes :=
  if offset < buf.length then do
    let len ← byteField buf offset
    if len.toNat > 0 ∧ offset + 1 + len.toNat ≤ buf.length then
      Proc.lift (slice buf (offset + 1) (offset + 1 + len.toNat))
    else pure []
  else pure []

/-- The comment, one byte before the place after the path. -/
def FPAddComment.parse (buf : Bytes) : Proc σ AfpError FPAddComment := do
  need 7 buf
  let directoryId ← longField buf 2
  let path ← if buf.length > 7 then stringField buf 7 else pure (MacString.new [])
  let comment ← commentField buf (evenUp (7 + path.byteLen - 1))
  pure ⟨directoryId, path, comment⟩

end

end TailTalk
