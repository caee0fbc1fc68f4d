/-
  AFP names — MacRoman text, mangled names, and the two conversions of paths.

  The encoding library is not part of the repository: `MacRoman`, `encode` and
  `decode` follow its documentation.  An unmappable character is written as a
  numeric reference, and text that starts with a byte order mark is decoded as
  the Unicode it announces.
-/
import TailTalk.Afp.Types
import TailTalk.Lib.Panic
import TailTalk.Lib.Utf8

namespace TailTalk

open Lib

/-- A file name, or what a client sends for one. -/
abbrev Name := List Char

/-- The components of a relative path. -/
abbrev Path := List Name

/-! ## MacRoman -/

/-- One character for each byte, ASCII in its place. -/
class MacRoman where
  toChar : UInt8 → Char
  toChar_inj : ∀ {a b}, toChar a = toChar b → a = b
  toChar_ascii : ∀ b, b < 0x80 → toChar b = Char.ofNat b.toNat
  /-- what follows a little-endian or big-endian UTF-16 byte order mark -/
  decodeUtf16le : Bytes → Name
  decodeUtf16be : Bytes → Name

/-- The bytes of a text in UTF-8. -/
def utf8 (s : Name) : Bytes := s.flatMap String.utf8EncodeChar

/-- An ASCII text as bytes. -/
def ascii (s : Name) : Bytes := s.map fun c => UInt8.ofNat c.toNat

namespace MacRoman

variable [MacRoman]

/-- The byte of a character that has one. -/
def byteOf (c : Char) : Option UInt8 :=
  if c.toNat < 0x80 then some (UInt8.ofNat c.toNat)
  else ((List.range 256).map UInt8.ofNat).find? fun b => toChar b = c

/-- `&#N;` -/
def reference (c : Char) : Bytes := ascii ("&#".toList ++ Nat.toDigits 10 c.toNat ++ [';'])

/-- The bytes of one character. -/
def encodeChar (c : Char) : Bytes :=
  match byteOf c with
  | some b => [b]
  | none => reference c

/-- `MACINTOSH.encode` -/
def encode (s : Name) : Bytes := s.flatMap encodeChar

/-- `MACINTOSH.decode` -/
def decode (b : Bytes) : Name :=
  match b with
  | 0xEF :: 0xBB :: 0xBF :: rest => fromUtf8Lossy rest
  | 0xFF :: 0xFE :: rest => decodeUtf16le rest
  | 0xFE :: 0xFF :: rest => decodeUtf16be rest
  | _ => b.map toChar

end MacRoman

/-- The characters of the upper half of the `macintosh` encoding. -/
def macintoshTable : List ℕ :=
  [0x00C4, 0x00C5, 0x00C7, 0x00C9, 0x00D1, 0x00D6, 0x00DC, 0x00E1,
    0x00E0, 0x00E2, 0x00E4, 0x00E3, 0x00E5, 0x00E7, 0x00E9, 0x00E8,
    0x00EA, 0x00EB, 0x00ED, 0x00EC, 0x00EE, 0x00EF, 0x00F1, 0x00F3,
    0x00F2, 0x00F4, 0x00F6, 0x00F5, 0x00FA, 0x00F9, 0x00FB, 0x00FC,
    0x2020, 0x00B0, 0x00A2, 0x00A3, 0x00A7, 0x2022, 0x00B6, 0x00DF,
    0x00AE, 0x00A9, 0x2122, 0x00B4, 0x00A8, 0x2260, 0x00C6, 0x00D8,
    0x221E, 0x00B1, 0x2264, 0x2265, 0x00A5, 0x00B5, 0x2202, 0x2211,
    0x220F, 0x03C0, 0x222B, 0x00AA, 0x00BA, 0x03A9, 0x00E6, 0x00F8,
    0x00BF, 0x00A1, 0x00AC, 0x221A, 0x0192, 0x2248, 0x2206, 0x00AB,
    0x00BB, 0x2026, 0x00A0, 0x00C0, 0x00C3, 0x00D5, 0x0152, 0x0153,
    0x2013, 0x2014, 0x201C, 0x201D, 0x2018, 0x2019, 0x00F7, 0x25CA,
    0x00FF, 0x0178, 0x2044, 0x20AC, 0x2039, 0x203A, 0xFB01, 0xFB02,
    0x2021, 0x00B7, 0x201A, 0x201E, 0x2030, 0x00C2, 0x00CA, 0x00C1,
    0x00CB, 0x00C8, 0x00CD, 0x00CE, 0x00CF, 0x00CC, 0x00D3, 0x00D4,
    0xF8FF, 0x00D2, 0x00DA, 0x00DB, 0x00D9, 0x0131, 0x02C6, 0x02DC,
    0x00AF, 0x02D8, 0x02D9, 0x02DA, 0x00B8, 0x02DD, 0x02DB, 0x02C7]

/-- The character of one byte, by the published table. -/
def macintoshChar (b : UInt8) : Char :=
  if b < 0x80 then Char.ofNat b.toNat else Char.ofNat (macintoshTable.getD (b.toNat - 128) 0)

/-- The byte of a character of the encoding. -/
def macintoshByte (c : Char) : UInt8 :=
  if c.toNat < 0x80 then UInt8.ofNat c.toNat else UInt8.ofNat (128 + macintoshTable.idxOf c.toNat)

theorem macintoshByte_char (b : UInt8) : macintoshByte (macintoshChar b) = b := by
  have hall : ∀ i < 256, macintoshByte (macintoshChar (UInt8.ofNat i)) = UInt8.ofNat i := by
    decide +kernel
  have hb := hall b.toNat b.toNat_lt
  rwa [UInt8.ofNat_toNat] at hb

/-- The encoding itself; text with a UTF-16 byte order mark is left out. -/
@[reducible] def macintosh : MacRoman where
  toChar := macintoshChar
  toChar_inj := fun {a b} h => by
    rw [← macintoshByte_char a, h, macintoshByte_char]
  toChar_ascii := fun b h => by
    rw [macintoshChar, if_pos h]
  decodeUtf16le := fun _ => []
  decodeUtf16be := fun _ => []

/-! ## Mangled names -/

/-- The longest name that a client takes. -/
def AFP2_MAX_NAME_LEN : ℕ := 31

/-- `~` and four hexadecimal digits -/
def TILDE_AND_CRC : ℕ := 5

/-- One bit of the division. -/
def crc16Bit (crc : UInt16) : UInt16 :=
  if crc &&& 0x8000 ≠ 0 then (crc <<< 1) ^^^ 0x1021 else crc <<< 1

/-- One byte of it. -/
def crc16Byte (crc : UInt16) (b : UInt8) : UInt16 :=
  (List.range 8).foldl (fun crc _ => crc16Bit crc) (crc ^^^ (b.toUInt16 <<< 8))

/-- The checksum in a mangled name. -/
def crc16Ccitt (data : Bytes) : UInt16 := data.foldl crc16Byte 0xFFFF

/-- A digit of it. -/
def hexChar (n : ℕ) : UInt8 := UInt8.ofNat (if n < 10 then 0x30 + n else 0x37 + n)

/-- `{:04X}` -/
def hex4 (v : UInt16) : Bytes :=
  [hexChar (v.toNat / 4096), hexChar (v.toNat / 256 % 16), hexChar (v.toNat / 16 % 16),
    hexChar (v.toNat % 16)]

/-- The last `.` and what follows it. -/
def extension (encoded : Bytes) : Option Bytes :=
  match encoded.reverse.findIdx? (· = 0x2E) with
  | some i => some (encoded.drop (encoded.length - 1 - i))
  | none => none

/-- A long name cut to 31 bytes, with its checksum. -/
def mangleEncoded (encoded : Bytes) : Bytes :=
  let tail := 0x7E :: hex4 (crc16Ccitt encoded)
  let whole := encoded.take (AFP2_MAX_NAME_LEN - TILDE_AND_CRC) ++ tail
  match extension encoded with
  | some ext =>
    let stemCapacity := AFP2_MAX_NAME_LEN - (TILDE_AND_CRC + ext.length)
    if stemCapacity ≥ 1 then encoded.take stemCapacity ++ tail ++ ext else whole
  | none => whole

/-- The name by which a client knows a longer one. -/
def mangleName [MacRoman] (name : Name) : Bytes :=
  let encoded := MacRoman.encode name
  if encoded.length ≤ AFP2_MAX_NAME_LEN then encoded else mangleEncoded encoded

theorem extension_length_pos {encoded ext : Bytes} (h : extension encoded = some ext) :
    0 < ext.length ∧ ext.length ≤ encoded.length := by
  unfold extension at h
  split at h
  · rename_i i hi
    have hlt : i < encoded.length := by
      have := (List.findIdx?_eq_some_iff_findIdx_eq.1 hi).1
      simpa using this
    obtain rfl := Option.some.inj h
    rw [List.length_drop]
    omega
  · cases h

theorem mangleEncoded_length {encoded : Bytes} (h : AFP2_MAX_NAME_LEN < encoded.length) :
    (mangleEncoded encoded).length = AFP2_MAX_NAME_LEN := by
  have hmax : AFP2_MAX_NAME_LEN = 31 := rfl
  have htail : TILDE_AND_CRC = 5 := rfl
  simp only [mangleEncoded]
  split
  · rename_i ext hext
    have hlen := extension_length_pos hext
    split
    · simp only [List.length_append, List.length_take, List.length_cons, hex4, List.length_nil]
      omega
    · simp only [List.length_append, List.length_take, List.length_cons, hex4, List.length_nil]
      omega
  · simp only [List.length_append, List.length_take, List.length_cons, hex4, List.length_nil]
    omega

theorem mangleName_length [MacRoman] (name : Name) :
    (mangleName name).length = min (MacRoman.encode name).length AFP2_MAX_NAME_LEN := by
  simp only [mangleName]
  split
  · omega
  · rw [mangleEncoded_length (by omega)]
    omega

theorem mangleName_length_le [MacRoman] (name : Name) :
    (mangleName name).length ≤ AFP2_MAX_NAME_LEN := by
  rw [mangleName_length]
  omega

/-! ## Pascal strings -/

/-- Text with the number of bytes it took on the wire, if it came from there. -/
structure MacString where
  value : Name
  wireLen : Option ℕ

namespace MacString

variable [MacRoman]

/-- A string that was not read from the wire. -/
def new (s : Name) : MacString := ⟨s, none⟩

/-- How long it is when written. -/
def encodedLen (s : MacString) : ℕ := 1 + min (MacRoman.encode s.value).length 255

/-- How long it was when read. -/
def byteLen (s : MacString) : ℕ :=
  match s.wireLen with
  | some len => len
  | none => s.encodedLen

/-- `MacString::try_from` -/
def parse (buf : Bytes) : Except AfpError MacString :=
  match buf with
  | [] => .error .invalidSize
  | b :: rest =>
    let len := b.toNat
    if len = 0 then .ok ⟨[], some 1⟩
    else if rest.length < len then .error .invalidSize
    else .ok ⟨MacRoman.decode (rest.take len), some (1 + len)⟩

end MacString

/-! ## Paths -/

/-- `Icon\r`, the file that holds the custom icon of a folder. -/
def ICON_CR_NAME : Name := "Icon".toList ++ [Char.ofNat 13]

/-- The literal name everywhere but on Windows. -/
def iconCrOnDiskName : Name := ICON_CR_NAME

/-- `str::replace` of one character by another. -/
def replace (from' to' : Char) (name : Name) : Name :=
  name.map fun c => if c = from' then to' else c

/-- A client's name on disk. -/
def afpNameToPosixComponent (name : Name) : Name :=
  if name = ICON_CR_NAME then iconCrOnDiskName else replace '/' ':' name

/-- What a client path says below a directory: `:` separates, and empty, `.` and `..`
    components are dropped. -/
def afpPathToPosix (afpPath : Name) : Path :=
  ((afpPath.splitOn ':').filter fun component =>
    component ≠ [] ∧ component ≠ ['.'] ∧ component ≠ ['.', '.']).map afpNameToPosixComponent

/-- A name on disk as a client sees it. -/
def posixNameToAfp (name : Name) : Name :=
  if name = iconCrOnDiskName then ICON_CR_NAME else replace ':' '/' name

/-- **A name on disk survives the way to a client and back.** -/
theorem afpNameToPosixComponent_posixNameToAfp {name : Name} (h : '/' ∉ name) :
    afpNameToPosixComponent (posixNameToAfp name) = name := by
  unfold posixNameToAfp
  split
  · rename_i heq
    rw [heq]
    rfl
  · rename_i hne
    have hback : replace '/' ':' (replace ':' '/' name) = name := by
      unfold replace
      rw [List.map_map]
      refine (List.map_congr_left fun c hc => ?_).trans (List.map_id' name)
      have hslash : c ≠ '/' := fun heq => h (heq ▸ hc)
      by_cases hcolon : c = ':'
      · simp [hcolon]
      · simp [hcolon, hslash]
    unfold afpNameToPosixComponent
    split
    · rename_i hicon
      rw [hicon] at hback
      exact absurd (hback.symm.trans (by decide)) hne
    · exact hback

/-- A path of no components, or of one that is all NUL: the directory itself. -/
def afpPathIsEmpty (path : Path) : Bool :=
  match path with
  | [] => true
  | [name] => name.all (· = Char.ofNat 0)
  | _ => false

/-- The components of a path; a `.` counts only at the front, and a path from the root is none of
    ours. -/
def pathOfText (text : Name) : Option Path :=
  match text.splitOn '/' with
  | [] => some []
  | first :: rest =>
    if first = [] ∧ rest ≠ [] then none
    else some ((if first = [] then [] else [first]) ++
      rest.filter fun component => component ≠ [] ∧ component ≠ ['.'])

/-- A path as one text. -/
def pathText (path : Path) : Name := List.intercalate ['/'] path

/-- The server's own directories, at the top of the volume. -/
def TAILTALK : Name := ".tailtalk".toList
def APPLE_DESKTOP : Name := ".AppleDesktop".toList

/-- The names of the server's own directories. -/
def isPrivateName (name : Name) : Bool := name = TAILTALK ∨ name = APPLE_DESKTOP

end TailTalk
