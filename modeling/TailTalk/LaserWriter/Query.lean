/-
  PostScript query jobs — what a LaserWriter driver asks before it prints, in
  blocks from a `%%?Begin…Query` line to the `%%?End…Query` line that carries
  the driver's own answer.  All of it works on bytes and their lines; a line is
  decoded only to be compared.
-/
import TailTalk.Lib.Lines
import TailTalk.Lib.Utf8
import Mathlib.Data.List.DropRight

namespace TailTalk

open Lib

/-- A decoded line. -/
abbrev Text := List Char

/-! ## Text -/

/-- Whitespace, as Unicode has it. -/
def isWhitespace (c : Char) : Bool :=
  let n := c.toNat
  (9 ≤ n && n ≤ 13) || n == 0x20 || n == 0x85 || n == 0xA0 || n == 0x1680 ||
    (0x2000 ≤ n && n ≤ 0x200A) || n == 0x2028 || n == 0x2029 || n == 0x202F || n == 0x205F ||
    n == 0x3000

/-- Without white space at the end. -/
def trimEnd (t : Text) : Text := t.rdropWhile isWhitespace

/-- Without white space at either end. -/
def trim (t : Text) : Text := trimEnd (t.dropWhile isWhitespace)

/-- What follows a prefix. -/
def stripPrefix (pat t : Text) : Option Text :=
  if pat.isPrefixOf t then some (t.drop pat.length) else none

/-- What precedes a suffix. -/
def stripSuffix (pat t : Text) : Option Text :=
  if pat.isSuffixOf t then some (t.take (t.length - pat.length)) else none

/-- What is before the first `pat` and what is after it. -/
def splitOnce (pat : Text) : Text → Option (Text × Text)
  | [] => none
  | c :: cs =>
    if pat.isPrefixOf (c :: cs) then some ([], (c :: cs).drop pat.length)
    else (splitOnce pat cs).map fun (before, after) => (c :: before, after)

/-- The words of a line. -/
def splitWhitespace (t : Text) : List Text := (t.splitOnP isWhitespace).filter (· ≠ [])

/-- A text as bytes. -/
def intoBytes (t : Text) : Bytes := t.flatMap String.utf8EncodeChar

/-! ## Query lines -/

/-- The end of a line. -/
def isEol (b : UInt8) : Bool := b == 0x0D || b == 0x0A

/-- What ends a line. -/
def isEolChar (c : Char) : Bool := c == '\r' || c == '\n'

/-- The kind of a block and the argument after it, from a line `%%?<mark><kind>Query`. -/
def pqpMarkLine (mark line : Text) : Option (Text × Text) := do
  let rest ← stripPrefix ("%%?".toList ++ mark) line
  let (kind, rest) ← splitOnce "Query".toList rest
  some (kind, trim (rest.dropWhile (· == ':')))

/-- A line that opens a block. -/
def pqpBeginLine (line : Text) : Option (Text × Text) := pqpMarkLine "Begin".toList line

/-- A line that closes one. -/
def pqpEndLine (line : Text) : Option (Text × Text) := pqpMarkLine "End".toList line

/-- The end of a job. -/
def EOF_COMMENT : Bytes := [0x25, 0x25, 0x45, 0x4F, 0x46]

/-- ASCII whitespace, or `^D`. -/
def isPadding (b : UInt8) : Bool :=
  b == 0x20 || b == 0x09 || b == 0x0A || b == 0x0C || b == 0x0D || b == 0x04

/-- A job ends with its own `%%EOF`, whatever padding follows. -/
def jobEndsAtEof (jobData : Bytes) : Bool := EOF_COMMENT.isSuffixOf (jobData.rdropWhile isPadding)

/-- `%!` -/
def MAGIC : Bytes := [0x25, 0x21]

/-- Offset of the `%!` header in a buffer. -/
def pqpMagicOffset : Bytes → Option ℕ
  | [] => none
  | b :: bs => if MAGIC <+: b :: bs then some 0 else (pqpMagicOffset bs).map (· + 1)

/-- How many leading bytes of the job buffer are finished business. -/
def pqpResync (jobData : Bytes) (answered : ℕ) : ℕ :=
  let answered := min answered jobData.length
  if answered = 0 ∧ MAGIC <+: jobData then 0
  else
    match pqpMagicOffset (jobData.drop answered) with
    | some magic => answered + magic
    | none => if answered = jobData.length then answered else 0

/-- Whether a job is a query, by its first line. -/
def pqpIsQuery (jobData : Bytes) : Bool :=
  let first := fromUtf8Lossy (jobData.takeWhile fun b => !isEol b)
  ((stripPrefix "%!PS-Adobe".toList (trimEnd first)).bind (stripSuffix "Query".toList)).isSome

/-- How far the loop of `pqpAnswerablePrefix` is. -/
structure PrefixScan where
  stop : Option ℕ
  depth : ℕ
  pos : ℕ

namespace PrefixScan

/-- One more line of the job. -/
def line (s : PrefixScan) (line : Bytes) : PrefixScan :=
  let s := { s with pos := s.pos + line.length }
  let trimmed := (fromUtf8Lossy line).rdropWhile isEolChar
  if (pqpBeginLine trimmed).isSome then { s with depth := s.depth + 1 }
  else if (pqpEndLine trimmed).isSome then
    { s with
      depth := s.depth - 1
      stop := if s.depth - 1 = 0 then some s.pos else s.stop }
  else if s.depth = 0 ∧ s.stop.isSome ∧ trim trimmed = "%%EOF".toList then
    { s with stop := some s.pos }
  else s

/-- No line was read. -/
def start : PrefixScan := ⟨none, 0, 0⟩

end PrefixScan

/-- Length of the prefix of an open query job that can already be answered. -/
def pqpAnswerablePrefix (jobData : Bytes) : Option ℕ :=
  (run PrefixScan.line .start (splitInclusive isEol jobData)).stop

/-! ## Answers -/

/-- What a printer says of itself. -/
structure PrinterAttributes where
  productName : String
  languageLevel : UInt8
  psVersion : String
  psRevision : UInt32
  residentFonts : List String
  color : Bool
  resolutionsDpi : List UInt32

/-- The answer to a named query, or `default`. -/
def pqpAnswer (attrs : PrinterAttributes) (query default : Text) : Text :=
  if query = "RBIUAMListQuery".toList then "*".toList
  else if query = "RBISpoolerID".toList then "(TailTalk Spooler) 1.0".toList
  else if query = "*LanguageLevel".toList then (toString attrs.languageLevel.toNat).toList
  else if query = "*PSVersion".toList then
    "(".toList ++ attrs.psVersion.toList ++ ") ".toList ++ (toString attrs.psRevision.toNat).toList
  else if query = "*Product".toList then "(".toList ++ attrs.productName.toList ++ ")".toList
  else if query = "*Resolution".toList ∨ query = "*?Resolution".toList then
    match attrs.resolutionsDpi.head? with
    | some dpi => (toString dpi.toNat).toList ++ "dpi".toList
    | none => default
  else if query = "*ColorDevice".toList then (if attrs.color then "True" else "False").toList
  else if query = "*FreeVM".toList then "4194304".toList
  else if query = "*TTRasterizer".toList then "Type42".toList
  else if query = "*FaxSupport".toList then "None".toList
  else if query = "ADOSpooler".toList then "spooler".toList
  else if query = "ADORamSize".toList then "Unknown".toList
  else if query = "ADOIsBinaryOK?".toList then "True".toList
  else default

/-- A font name without its slashes. -/
def unslashed (name : Text) : Text := name.dropWhile (· == '/')

/-- The answer to a font availability query. -/
def pqpFontAnswer (attrs : PrinterAttributes) (fontList : Text) : Text :=
  let lines := (splitWhitespace fontList).map fun f =>
    let name := unslashed f
    let resident := attrs.residentFonts.any fun r => unslashed r.toList == name
    "/".toList ++ name ++ ":".toList ++ (if resident then "Yes" else "No").toList
  ['\r'].intercalate (lines ++ ["*".toList])

/-- The writes of a closed block, with the answer in its End comment. -/
def pqpBlockWrites (attrs : PrinterAttributes) (block : Option (Text × Text))
    (defaultVal : Text) : List Text :=
  match block with
  | none => [defaultVal ++ ['\r']]
  | some (kind, name) =>
    if kind = "Printer".toList then
      [(toString attrs.psRevision.toNat).toList ++ " \n(".toList ++ attrs.psVersion.toList ++
        ")\n(".toList ++ attrs.productName.toList ++ ")\n".toList]
    else if kind = "FontList".toList then
      attrs.residentFonts.map (fun font => unslashed font.toList ++ ['\n']) ++ ["*\n".toList]
    else if kind = "Font".toList then [pqpFontAnswer attrs name ++ ['\r']]
    else if kind = "ProcSet".toList then ["0\r".toList]
    else [pqpAnswer attrs name defaultVal ++ ['\r']]

/-- The block that is open and the writes so far. -/
structure QueryScan where
  out : List Bytes
  current : Option (Text × Text)

/-- One line of `pqpWrites`. -/
def QueryScan.line (attrs : PrinterAttributes) (s : QueryScan) (line : Bytes) : QueryScan :=
  let line := fromUtf8Lossy line
  match pqpBeginLine line with
  | some (kind, rest) =>
    -- The driver may append PostScript to the name of a query.
    let name := if kind = "Font".toList ∨ kind = "ProcSet".toList then rest
      else rest.takeWhile fun c => !(c == '(' || c == ' ' || c == '\t')
    { s with current := some (kind, name) }
  | none =>
    match pqpEndLine line with
    | some (_, defaultVal) =>
      { out := s.out ++ (pqpBlockWrites attrs s.current defaultVal).map intoBytes
        current := none }
    | none => s

/-- The printer's output for a query job, one write for each flush. -/
def pqpWrites (attrs : PrinterAttributes) (jobData : Bytes) : List Bytes :=
  (run (QueryScan.line attrs) ⟨[], none⟩ (jobData.splitOnP isEol)).out

end TailTalk
