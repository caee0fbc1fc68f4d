/-
  The desktop database — icons, comments, application mappings and mangled
  names, each an ordered map on disk.

  A lookup, an insertion or a removal may be refused; an iteration skips what
  it cannot read.
-/
import TailTalk.Afp.Disk

namespace TailTalk

open Lib

/-- The maps of one volume. -/
structure DesktopDatabase where
  dtRefNum : UInt16
  icons : Std.TreeMap Bytes Bytes
  comments : Std.TreeMap Name Bytes
  appls : Std.TreeMap Bytes Bytes
  mangleNames : Std.TreeMap Bytes Name

/-- An operation on the database. -/
abbrev Db (α : Type) := DesktopDatabase → Except AfpError α × DesktopDatabase

namespace DesktopDatabase

variable (sys : Sys)

/-- `from_db` on fresh trees. -/
def empty (dtRefNum : UInt16) : DesktopDatabase := ⟨dtRefNum, ∅, ∅, ∅, ∅⟩

/-! ## Icons -/

/-- `IconKey::to_bytes` -/
def iconKey (creator fileType : OSType) (iconType : UInt8) : Bytes :=
  creator.toList ++ fileType.toList ++ [iconType]

/-- Keep an icon. -/
def addIcon (creator fileType : OSType) (iconType : UInt8) (iconData : Bytes) : Db Unit := fun db =>
  let key := iconKey creator fileType iconType
  if sys.refuses (.dbInsert key) then (.error .accessDenied, db)
  else (.ok (), { db with icons := db.icons.insert key iconData })

/-- The bits of an icon. -/
def getIcon (creator fileType : OSType) (iconType : UInt8) : Db Bytes := fun db =>
  let key := iconKey creator fileType iconType
  if sys.refuses (.dbGet key) then (.error .accessDenied, db)
  else match db.icons[key]? with
    | some data => (.ok data, db)
    | none => (.error .itemNotFound, db)

/-- Tag, file type and size of the `index`-th icon of a creator, counted from one. -/
def getIconInfo (creator : OSType) (index : UInt16) : Db (UInt32 × UInt32 × UInt16) := fun db =>
  let icons := db.icons.toList.filter fun e => e.1.length = 9 && e.1.take 4 = creator.toList
  match icons[index.toNat - 1]? with
  | some (key, data) =>
    (.ok (0, readBe32 ((key.drop 4).take 4), UInt16.ofNat data.length), db)
  | none => (.error .itemNotFound, db)

/-! ## Comments -/

/-- The key of a comment. -/
def commentKey (relPath : Path) : Name := pathText relPath

/-- Keep a comment. -/
def setComment (relPath : Path) (comment : Bytes) : Db Unit := fun db =>
  let key := commentKey relPath
  if sys.refuses (.dbInsert (utf8 key)) then (.error .accessDenied, db)
  else (.ok (), { db with comments := db.comments.insert key comment })

/-- The comment of an object. -/
def getComment (relPath : Path) : Db Bytes := fun db =>
  let key := commentKey relPath
  if sys.refuses (.dbGet (utf8 key)) then (.error .accessDenied, db)
  else match db.comments[key]? with
    | some comment => (.ok comment, db)
    | none => (.error .itemNotFound, db)

/-- Forget it. -/
def removeComment (relPath : Path) : Db Unit := fun db =>
  let key := commentKey relPath
  if sys.refuses (.dbRemove (utf8 key)) then (.error .accessDenied, db)
  else (.ok (), { db with comments := db.comments.erase key })

/-- The comment goes along with its object. -/
def moveComment (oldPath newPath : Path) : Db Unit := fun db =>
  let oldKey := commentKey oldPath
  let newKey := commentKey newPath
  if sys.refuses (.dbRemove (utf8 oldKey)) then (.error .accessDenied, db)
  else match db.comments[oldKey]? with
    | none => (.ok (), db)
    | some comment =>
      let comments := db.comments.erase oldKey
      if sys.refuses (.dbInsert (utf8 newKey)) then
        (.error .accessDenied, { db with comments := comments })
      else (.ok (), { db with comments := comments.insert newKey comment })

/-- A copy has the comment too. -/
def copyComment (srcPath dstPath : Path) : Db Unit := fun db =>
  let srcKey := commentKey srcPath
  let dstKey := commentKey dstPath
  if sys.refuses (.dbGet (utf8 srcKey)) then (.error .accessDenied, db)
  else match db.comments[srcKey]? with
    | none => (.ok (), db)
    | some comment =>
      if sys.refuses (.dbInsert (utf8 dstKey)) then (.error .accessDenied, db)
      else (.ok (), { db with comments := db.comments.insert dstKey comment })

/-! ## Application mappings

  The key of an entry is creator and tag, its value a directory ID, the length
  of a path as one byte, and the path. -/

/-- Directory and path of an application. -/
def applValue (directoryId : ℕ) (path : Bytes) : Bytes :=
  be32 (UInt32.ofNat directoryId) ++ [UInt8.ofNat path.length] ++ path

/-- The entry is for this directory and path. -/
def applIsFor (directoryId : ℕ) (path value : Bytes) : Bool :=
  let pathLen := (value.getD 4 0).toNat
  value.length ≥ 5 ∧ value.take 4 = be32 (UInt32.ofNat directoryId) ∧
    value.length ≥ 5 + pathLen ∧ (value.drop 5).take pathLen = path

/-- The keys of the entries for a directory and path. -/
def applKeys (directoryId : ℕ) (path : Bytes) (db : DesktopDatabase) : List Bytes :=
  (db.appls.toList.filter fun e => applIsFor directoryId path e.2).map (·.1)

/-- Give each of the entries the same value, until one insertion is refused. -/
def insertAppls (value : Bytes) : List Bytes → Db Unit
  | [] => fun db => (.ok (), db)
  | key :: keys => fun db =>
    if sys.refuses (.dbInsert key) then (.error .accessDenied, db)
    else insertAppls value keys { db with appls := db.appls.insert key value }

/-- Remove one key after another. -/
def removeAppls : List Bytes → Db Unit
  | [] => fun db => (.ok (), db)
  | key :: keys => fun db =>
    if sys.refuses (.dbRemove key) then (.error .accessDenied, db)
    else removeAppls keys { db with appls := db.appls.erase key }

/-- The applications of an object that moves. -/
def moveApplPath (oldPath newPath : Path) (oldDirId newDirId : ℕ) : Db Unit := fun db =>
  insertAppls sys (applValue newDirId (utf8 (pathText newPath)))
    (applKeys oldDirId (utf8 (pathText oldPath)) db) db

/-- The same keys: the copies take the place of the originals. -/
def copyAppl (srcPath dstPath : Path) (srcDirId dstDirId : ℕ) : Db Unit := fun db =>
  insertAppls sys (applValue dstDirId (utf8 (pathText dstPath)))
    (applKeys srcDirId (utf8 (pathText srcPath)) db) db

/-- Those of one that is deleted. -/
def deleteApplsForPath (dirId : ℕ) (path : Path) : Db Unit := fun db =>
  removeAppls sys (applKeys dirId (utf8 (pathText path)) db) db

/-- Keep an application. -/
def addAppl (creator : OSType) (tag : UInt32) (directoryId : ℕ) (path : Name) : Db Unit := fun db =>
  let key := creator.toList ++ be32 tag
  if (utf8 path).length > 255 then (.error .paramError, db)
  else if sys.refuses (.dbInsert key) then (.error .accessDenied, db)
  else (.ok (), { db with appls := db.appls.insert key (applValue directoryId (utf8 path)) })

/-- The entries of a creator, in the order of their keys. -/
def applsOf (creator : OSType) (db : DesktopDatabase) : List (Bytes × Bytes) :=
  db.appls.toList.filter fun e => e.1.take 4 = creator.toList

/-- Forget one. -/
def removeAppl (creator : OSType) (directoryId : ℕ) (path : Name) : Db Unit := fun db =>
  match (applsOf creator db).find? fun e => applIsFor directoryId (utf8 path) e.2 with
  | some (key, _) =>
    if sys.refuses (.dbRemove key) then (.error .accessDenied, db)
    else (.ok (), { db with appls := db.appls.erase key })
  | none => (.error .itemNotFound, db)

/-- Tag, directory and path of the `index`-th application of a creator. -/
def getAppl (creator : OSType) (index : UInt16) : Db (UInt32 × UInt32 × Name) := fun db =>
  match (applsOf creator db)[index.toNat - 1]? with
  | none => (.error .itemNotFound, db)
  | some (key, value) =>
    if key.length < 8 ∨ value.length < 5 then (.error .itemNotFound, db)
    else
      let pathLen := (value.getD 4 0).toNat
      let path := if value.length ≥ 5 + pathLen then (value.drop 5).take pathLen else []
      (.ok (readBe32 (key.drop 4), readBe32 value, fromUtf8Lossy path), db)

/-! ## Mangled names -/

variable [MacRoman]

/-- `register_mangle_if_needed` -/
def registerMangle (afpName posixName : Name) (db : DesktopDatabase) : DesktopDatabase :=
  if (MacRoman.encode afpName).length > AFP2_MAX_NAME_LEN then
    let mangled := mangleName afpName
    if sys.refuses (.dbInsert mangled) then db
    else { db with mangleNames := db.mangleNames.insert mangled posixName }
  else db

/-- The name on disk that a mangled name stands for. -/
def lookupMangle (mangled : Bytes) (db : DesktopDatabase) : Option Name :=
  if sys.refuses (.dbGet mangled) then none else db.mangleNames[mangled]?

end DesktopDatabase

end TailTalk
