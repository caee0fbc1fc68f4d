/-
  AFP — error codes, fork types, bitmaps, Finder Info and ProDOS Info.

  Bitmaps are 16-bit words with one mask per parameter.  `FileBitmap.parse` and
  the like drop the bits that have no name, as `from_bits_truncate` does.
-/
import TailTalk.Lib.Bytes
import Mathlib

namespace TailTalk

open Lib

/-- The errors that a client is told. -/
inductive AfpError where
  | invalidSize
  | eofErr
  | badVersNum
  | badUam
  | accessDenied
  | dirNotEmpty
  | bitmapErr
  | fileBusy
  | itemNotFound
  | lockErr
  | objectExists
  | objectNotFound
  | paramError
  | rangeNotLocked
  | rangeOverlap
  | objectTypeErr
  | miscErr
deriving DecidableEq

/-- The negated result code. -/
def AfpError.magnitude : AfpError → UInt32
  | invalidSize => 1
  | eofErr => 39
  | badVersNum => 1072
  | badUam => 1073
  | accessDenied => 5000
  | dirNotEmpty => 5007
  | bitmapErr => 5006
  | fileBusy => 5010
  | itemNotFound => 5012
  | lockErr => 5013
  | objectExists => 5017
  | objectNotFound => 5018
  | paramError => 5019
  | rangeNotLocked => 5020
  | rangeOverlap => 5021
  | objectTypeErr => 5025
  | miscErr => 10000

/-- The four result bytes of a reply, sign-extended from 16 bits. -/
def AfpError.code (e : AfpError) : Bytes := be32 (0 - e.magnitude)

/-- The forks of a file. -/
inductive ForkType where
  | data
  | resource
deriving DecidableEq

/-- By the flag of a request. -/
def ForkType.ofByte (b : UInt8) : ForkType := if b = 0x80 then resource else data

/-- What becomes of a file that is there. -/
inductive CreateFlag where
  | soft
  | hard

/-- By the flag of a request. -/
def CreateFlag.ofByte (b : UInt8) : CreateFlag := if b = 0x80 then hard else soft

/-- The type byte of an entry in a listing. -/
inductive FileType where
  | directory
  | file

/-- The kind in a reply. -/
def FileType.toByte : FileType → UInt8
  | directory => 0x80
  | file => 0

/-! ## Bitmaps -/

/-- A set of requested parameters. -/
abbrev Bitmap := UInt16

/-- All bits of a mask. -/
def Bitmap.has (b mask : Bitmap) : Bool := b &&& mask = mask

/-- One of them. -/
def Bitmap.intersects (b mask : Bitmap) : Bool := b &&& mask != 0

namespace Parm

/-! The bits that file and directory bitmaps share. -/

/-- The parameters that files and directories share. -/
def ATTRIBUTES : Bitmap := 0x0001
def PARENT_DIR_ID : Bitmap := 0x0002
def CREATE_DATE : Bitmap := 0x0004
def MODIFICATION_DATE : Bitmap := 0x0008
def BACKUP_DATE : Bitmap := 0x0010
def FINDER_INFO : Bitmap := 0x0020
def LONG_NAME : Bitmap := 0x0040
def SHORT_NAME : Bitmap := 0x0080
def PRODOS_INFO : Bitmap := 0x2000

end Parm

namespace FileParm

/-- The parameters of files. -/
def FILE_NUMBER : Bitmap := 0x0100
def DATA_FORK_LENGTH : Bitmap := 0x0200
def RESOURCE_FORK_LENGTH : Bitmap := 0x0400
def ACCESS_RIGHTS : Bitmap := 0x1000

/-- The bits that mean something for a file. -/
def all : Bitmap := 0x37FF

end FileParm

namespace DirParm

/-- The parameters of directories. -/
def DIR_ID : Bitmap := 0x0100
def OFFSPRING_COUNT : Bitmap := 0x0200
def OWNER_ID : Bitmap := 0x0400
def GROUP_ID : Bitmap := 0x0800
def ACCESS_RIGHTS : Bitmap := 0x1000

/-- The bits that mean something for a directory. -/
def all : Bitmap := 0x3FFF

end DirParm

namespace VolParm

def ATTRIBUTES : Bitmap := 0x0001
def SIGNATURE : Bitmap := 0x0002
def CREATION_DATE : Bitmap := 0x0004
def MODIFICATION_DATE : Bitmap := 0x0008
def BACKUP_DATE : Bitmap := 0x0010
def VOLUME_ID : Bitmap := 0x0020
def BYTES_FREE : Bitmap := 0x0040
def BYTES_TOTAL : Bitmap := 0x0080
def VOLUME_NAME : Bitmap := 0x0100

/-- The bits that have a name. -/
def all : Bitmap := 0x01FF

end VolParm

/-- The length of ProDOS Info. -/
def PRODOS_INFO_LEN : ℕ := 6

/-- The bytes of the fields a bitmap asks for, given the width of each. -/
def fieldsLen (widths : List (Bitmap × ℕ)) (bitmap : Bitmap) : ℕ :=
  (widths.map fun w => if bitmap.has w.1 then w.2 else 0).sum

/-- The fields of a file's block, with their lengths. -/
def fileWidths : List (Bitmap × ℕ) :=
  [(Parm.ATTRIBUTES, 2), (Parm.PARENT_DIR_ID, 4), (Parm.CREATE_DATE, 4),
    (Parm.MODIFICATION_DATE, 4), (Parm.BACKUP_DATE, 4), (Parm.FINDER_INFO, 32),
    (Parm.LONG_NAME, 2), (Parm.SHORT_NAME, 2), (FileParm.FILE_NUMBER, 4),
    (FileParm.DATA_FORK_LENGTH, 4), (FileParm.RESOURCE_FORK_LENGTH, 4),
    (Parm.PRODOS_INFO, PRODOS_INFO_LEN)]

/-- The fields of a directory's block. -/
def dirWidths : List (Bitmap × ℕ) :=
  [(Parm.ATTRIBUTES, 2), (Parm.PARENT_DIR_ID, 4), (Parm.CREATE_DATE, 4),
    (Parm.MODIFICATION_DATE, 4), (Parm.BACKUP_DATE, 4), (Parm.FINDER_INFO, 32),
    (Parm.LONG_NAME, 2), (Parm.SHORT_NAME, 2), (DirParm.DIR_ID, 4),
    (DirParm.OFFSPRING_COUNT, 2), (DirParm.OWNER_ID, 4), (DirParm.GROUP_ID, 4),
    (DirParm.ACCESS_RIGHTS, 4), (Parm.PRODOS_INFO, PRODOS_INFO_LEN)]

/-- Where the long name of a file goes: after all fixed fields. -/
def fileLongNameOffset : Bitmap → ℕ := fieldsLen fileWidths

/-- The same for a directory. -/
def dirLongNameOffset : Bitmap → ℕ := fieldsLen dirWidths

theorem fieldsLen_le (widths : List (Bitmap × ℕ)) (bitmap : Bitmap) :
    fieldsLen widths bitmap ≤ (widths.map (·.2)).sum := by
  induction widths with
  | nil => exact Nat.le_refl 0
  | cons w widths ih =>
    simp only [fieldsLen, List.map_cons, List.sum_cons] at ih ⊢
    split <;> omega

/-! ## Finder Info and ProDOS Info -/

/-- A four-character type or creator code. -/
abbrev OSType := Vector UInt8 4

/-- The `n` bytes of `b` from `start` on, as an array. -/
def field (b : Bytes) (start n : ℕ) : Vector UInt8 n := Vector.ofFn fun i => b.getD (start + i) 0

/-- Type, creator and flags of an object. -/
structure FinderInfo where
  fileType : OSType
  creator : OSType
  flags : UInt16
  reserved : Vector UInt8 22
deriving DecidableEq

namespace FinderInfo

/-- The length of Finder Info. -/
def FINDER_INFO_LEN : ℕ := 32

/-- `FinderFlags::IS_INVISIBLE` -/
def IS_INVISIBLE : UInt16 := 0x4000

/-- All zeros. -/
def default : FinderInfo := ⟨field [] 0 4, field [] 0 4, 0, field [] 0 22⟩

/-- Finder Info from its bytes. -/
def ofBytes (raw : Bytes) : FinderInfo where
  fileType := field raw 0 4
  creator := field raw 4 4
  flags := ofBe16 (raw.getD 8 0) (raw.getD 9 0)
  reserved := field raw 10 22

/-- Its bytes. -/
def toBytes (info : FinderInfo) : Bytes :=
  info.fileType.toList ++ info.creator.toList ++ be16 info.flags ++ info.reserved.toList

@[simp] theorem toBytes_length (info : FinderInfo) : info.toBytes.length = FINDER_INFO_LEN := by
  simp [toBytes, FINDER_INFO_LEN]

end FinderInfo

/-- A code from its four characters. -/
def osType (s : String) : OSType := field (s.toList.map fun c => UInt8.ofNat c.toNat) 0 4

/-- The creator of ProDOS files. -/
def PDOS_CREATOR : OSType := osType "pdos"

/-- The file type of ProDOS. -/
structure ProdosInfo where
  fileType : UInt8
  auxType : UInt16

namespace ProdosInfo

def default : ProdosInfo := ⟨0, 0⟩

/-- What every directory reports. -/
def DIRECTORY : ProdosInfo := ⟨0x0F, 0x0200⟩

/-- The auxiliary type is little-endian. -/
def toBytes (p : ProdosInfo) : Bytes :=
  [p.fileType, 0, UInt8.ofNat p.auxType.toNat, UInt8.ofNat (p.auxType.toNat / 256), 0, 0]

@[simp] theorem toBytes_length (p : ProdosInfo) : p.toBytes.length = PRODOS_INFO_LEN := rfl

def ofBytes (raw : Bytes) : ProdosInfo :=
  ⟨raw.getD 0 0, ofBe16 (raw.getD 3 0) (raw.getD 2 0)⟩

/-- The value of a hexadecimal digit. -/
def hexDigit (c : UInt8) : Option UInt8 :=
  if 0x30 ≤ c ∧ c ≤ 0x39 then some (c - 0x30)
  else if 0x61 ≤ c ∧ c ≤ 0x66 then some (c - 0x61 + 10)
  else if 0x41 ≤ c ∧ c ≤ 0x46 then some (c - 0x41 + 10)
  else none

/-- A byte from two digits. -/
def hexByte (high low : UInt8) : Option UInt8 :=
  match hexDigit high, hexDigit low with
  | some h, some l => some (h * 16 + l)
  | _, _ => none

/-- The ProDOS type that type and creator stand for. -/
def fromFinderInfo (info : FinderInfo) : ProdosInfo :=
  if info.fileType = osType "TEXT" then ⟨0x04, 0⟩
  else if info.creator ≠ PDOS_CREATOR then default
  else if info.fileType = osType "PSYS" then ⟨0xFF, 0⟩
  else if info.fileType = osType "PS16" then ⟨0xB3, 0⟩
  else if info.fileType = osType "BINA" then ⟨0x00, 0⟩
  else
    let t := info.fileType
    if t[0] = 0x70 then ⟨t[1], ofBe16 t[2] t[3]⟩
    else if t[2] = 0x20 ∧ t[3] = 0x20 then
      match hexByte t[0] t[1] with
      | some fileType => ⟨fileType, 0⟩
      | none => default
    else default

/-- The Finder side of a ProDOS type, over what the file has. -/
def toFinderInfo (p : ProdosInfo) (current : FinderInfo) : FinderInfo :=
  { current with
    fileType :=
      if p.fileType = 0x04 ∧ p.auxType = 0 then osType "TEXT"
      else if p.fileType = 0xFF then osType "PSYS"
      else if p.fileType = 0xB3 then osType "PS16"
      else if p.fileType = 0x00 then osType "BINA"
      else field (0x70 :: p.fileType :: be16 p.auxType) 0 4
    creator := PDOS_CREATOR }

end ProdosInfo

/-! ## Dates -/

/-- The backup date of what was never backed up. -/
def AFP_DATE_NEVER : UInt32 := 0x80000000

/-- Seconds from 1970 to 2000. -/
def AFP_EPOCH_OFFSET : ℤ := 946684800

/-- Signed seconds from 2000, as a 32-bit word. -/
def timeToAfp (unixSecs : ℤ) : UInt32 :=
  let secs := max (-2147483648) (min 2147483647 (unixSecs - AFP_EPOCH_OFFSET))
  UInt32.ofNat (secs % 4294967296).toNat

end TailTalk
