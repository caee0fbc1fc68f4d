/-
  Turning a page into the bands a StyleWriter prints.

  Rows with nothing on them are skipped wherever a band would start.  Color is
  separated into inks, gray and inks are toned, and both are halftoned with a
  pattern or by scattering.  A slice or an index past its end and a sum out of
  32 bits are panics.
-/
import TailTalk.Lib.Bits
import TailTalk.Lib.Panic
import TailTalk.StyleWriter.Encode

namespace TailTalk.StyleWriter

open Lib

/-! ## Jobs -/

/-- How fine the print is. -/
inductive PrintQuality where
  | draft
  | normal
  | best
deriving DecidableEq

/-- What the page is made of. -/
inductive Rendering where
  | blackAndWhite
  | grayscale
  | color
deriving DecidableEq

/-- What is printed on. -/
inductive PaperType where
  | plain
  | coated
  | transparency
  | backPrintFilm
  | glossy
deriving DecidableEq

/-- Every row is mirrored, so that the page reads correctly through back-print film. -/
def PaperType.mirrored (paper : PaperType) : Bool := paper == .backPrintFilm

/-- How continuous tones become dots. -/
inductive Halftone where
  | diffusion
  | pattern

/-- What an imager reads of a job's options. -/
structure JobOptions where
  rendering : Rendering
  quality : PrintQuality
  paper : PaperType
  halftone : Halftone

/-- The banding of a printer engine. -/
structure Engine where
  /-- rows the engine takes in one band -/
  bandRows : ℕ

/-- The engines. -/
def COLOR_ENGINE : Engine := ⟨400⟩
def ENGINE_1200 : Engine := ⟨800⟩
def ORIGINAL_ENGINE : Engine := ENGINE_1200

namespace StyleWriterFamily

/-- The engine of a printer. -/
def engine (family : StyleWriterFamily) : Engine :=
  match family with
  | original => ORIGINAL_ENGINE
  | _ => if family.is1200Series then ENGINE_1200 else COLOR_ENGINE

/-- The height of a band. -/
def maxBandRows (family : StyleWriterFamily) : ℕ := family.engine.bandRows

/-- Ink on film is lightened. -/
def lightensTransparencies (family : StyleWriterFamily) : Bool := !family.is1200Series

theorem maxBandRows_pos (family : StyleWriterFamily) : 0 < family.maxBandRows := by
  cases family with
  | color model => cases model <;> decide
  | styleWriterII => decide
  | styleWriter1200 => decide
  | original => decide

end StyleWriterFamily

/-! ## Tones and inks -/

set_option maxRecDepth 2000 in
/-- The tone curve for patterns on a Color StyleWriter 2200, 2400 or 2500. -/
def TONE_PATTERN_2200 : Vector UInt8 256 :=
  #v[
    0x00, 0x03, 0x06, 0x09, 0x0C, 0x0F, 0x12, 0x15, 0x18, 0x1B, 0x1E, 0x21, 0x24, 0x27, 0x2A, 0x2D,
    0x30, 0x30, 0x31, 0x32, 0x33, 0x34, 0x35, 0x36, 0x37, 0x38, 0x39, 0x3A, 0x3A, 0x3B, 0x3C, 0x3D,
    0x3E, 0x3F, 0x40, 0x41, 0x42, 0x43, 0x44, 0x45, 0x45, 0x46, 0x47, 0x48, 0x49, 0x4A, 0x4B, 0x4C,
    0x4D, 0x4E, 0x4F, 0x4F, 0x50, 0x51, 0x52, 0x53, 0x54, 0x55, 0x56, 0x57, 0x58, 0x59, 0x5A, 0x5A,
    0x5B, 0x5D, 0x5E, 0x5F, 0x60, 0x61, 0x62, 0x63, 0x64, 0x65, 0x66, 0x67, 0x68, 0x69, 0x6A, 0x6B,
    0x6D, 0x6E, 0x6F, 0x70, 0x71, 0x72, 0x73, 0x74, 0x75, 0x76, 0x77, 0x78, 0x79, 0x7A, 0x7B, 0x7C,
    0x7E, 0x7F, 0x80, 0x81, 0x82, 0x83, 0x84, 0x85, 0x86, 0x87, 0x88, 0x89, 0x8A, 0x8B, 0x8C, 0x8D,
    0x8F, 0x90, 0x91, 0x92, 0x93, 0x94, 0x95, 0x96, 0x97, 0x98, 0x99, 0x9A, 0x9B, 0x9C, 0x9D, 0x9E,
    0xA0, 0xA0, 0xA1, 0xA2, 0xA3, 0xA3, 0xA4, 0xA5, 0xA6, 0xA7, 0xA7, 0xA8, 0xA9, 0xAA, 0xAA, 0xAB,
    0xAC, 0xAD, 0xAE, 0xAE, 0xAF, 0xB0, 0xB1, 0xB1, 0xB2, 0xB3, 0xB4, 0xB5, 0xB5, 0xB6, 0xB7, 0xB8,
    0xB9, 0xB9, 0xBA, 0xBB, 0xBC, 0xBC, 0xBD, 0xBE, 0xBF, 0xC0, 0xC0, 0xC1, 0xC2, 0xC3, 0xC3, 0xC4,
    0xC5, 0xC6, 0xC7, 0xC7, 0xC8, 0xC9, 0xCA, 0xCA, 0xCB, 0xCC, 0xCD, 0xCE, 0xCE, 0xCF, 0xD0, 0xD1,
    0xD2, 0xD2, 0xD3, 0xD4, 0xD4, 0xD5, 0xD6, 0xD7, 0xD7, 0xD8, 0xD9, 0xD9, 0xDA, 0xDB, 0xDC, 0xDC,
    0xDD, 0xDE, 0xDF, 0xDF, 0xE0, 0xE1, 0xE1, 0xE2, 0xE3, 0xE4, 0xE4, 0xE5, 0xE6, 0xE6, 0xE7, 0xE8,
    0xE9, 0xE9, 0xEA, 0xEB, 0xEC, 0xEC, 0xED, 0xEE, 0xEE, 0xEF, 0xF0, 0xF1, 0xF1, 0xF2, 0xF3, 0xF3,
    0xF4, 0xF5, 0xF6, 0xF7, 0xF8, 0xF9, 0xFA, 0xFB, 0xFB, 0xFC, 0xFD, 0xFD, 0xFE, 0xFF, 0xFF, 0xFF]

set_option maxRecDepth 2000 in
/-- The tone curve for scattering on the same. -/
def TONE_DIFFUSION_2200 : Vector UInt8 256 :=
  #v[
    0x00, 0x03, 0x06, 0x09, 0x0C, 0x0F, 0x12, 0x15, 0x18, 0x1B, 0x1E, 0x21, 0x24, 0x27, 0x2A, 0x2D,
    0x30, 0x32, 0x35, 0x38, 0x3B, 0x3D, 0x40, 0x43, 0x46, 0x48, 0x4B, 0x4E, 0x51, 0x53, 0x56, 0x59,
    0x5C, 0x5D, 0x5E, 0x5F, 0x60, 0x61, 0x63, 0x64, 0x65, 0x66, 0x67, 0x69, 0x6A, 0x6B, 0x6C, 0x6D,
    0x6F, 0x70, 0x71, 0x72, 0x73, 0x74, 0x76, 0x77, 0x78, 0x79, 0x7A, 0x7C, 0x7D, 0x7E, 0x7F, 0x80,
    0x82, 0x82, 0x83, 0x84, 0x85, 0x86, 0x87, 0x88, 0x89, 0x8A, 0x8B, 0x8C, 0x8D, 0x8E, 0x8F, 0x90,
    0x91, 0x91, 0x92, 0x93, 0x94, 0x95, 0x96, 0x97, 0x98, 0x99, 0x9A, 0x9B, 0x9C, 0x9D, 0x9E, 0x9F,
    0xA0, 0xA1, 0xA2, 0xA3, 0xA4, 0xA5, 0xA6, 0xA7, 0xA8, 0xA9, 0xAA, 0xAB, 0xAC, 0xAD, 0xAE, 0xAF,
    0xB0, 0xB1, 0xB2, 0xB3, 0xB4, 0xB5, 0xB6, 0xB7, 0xB8, 0xB9, 0xBA, 0xBB, 0xBC, 0xBD, 0xBE, 0xBF,
    0xC0, 0xC0, 0xC1, 0xC1, 0xC2, 0xC2, 0xC3, 0xC4, 0xC4, 0xC5, 0xC5, 0xC6, 0xC7, 0xC7, 0xC8, 0xC8,
    0xC9, 0xCA, 0xCA, 0xCB, 0xCB, 0xCC, 0xCD, 0xCD, 0xCE, 0xCE, 0xCF, 0xD0, 0xD0, 0xD1, 0xD1, 0xD2,
    0xD3, 0xD3, 0xD4, 0xD4, 0xD5, 0xD5, 0xD6, 0xD7, 0xD7, 0xD8, 0xD8, 0xD9, 0xDA, 0xDA, 0xDB, 0xDB,
    0xDC, 0xDD, 0xDD, 0xDE, 0xDE, 0xDF, 0xE0, 0xE0, 0xE1, 0xE1, 0xE2, 0xE3, 0xE3, 0xE4, 0xE4, 0xE5,
    0xE6, 0xE6, 0xE6, 0xE7, 0xE7, 0xE8, 0xE8, 0xE8, 0xE9, 0xE9, 0xEA, 0xEA, 0xEA, 0xEB, 0xEB, 0xEC,
    0xEC, 0xEC, 0xED, 0xED, 0xEE, 0xEE, 0xEE, 0xEF, 0xEF, 0xF0, 0xF0, 0xF0, 0xF1, 0xF1, 0xF2, 0xF2,
    0xF2, 0xF3, 0xF3, 0xF4, 0xF4, 0xF4, 0xF5, 0xF5, 0xF6, 0xF6, 0xF6, 0xF7, 0xF7, 0xF8, 0xF8, 0xF8,
    0xF9, 0xF9, 0xFA, 0xFA, 0xFA, 0xFB, 0xFB, 0xFC, 0xFC, 0xFC, 0xFD, 0xFD, 0xFD, 0xFF, 0xFF, 0xFF]

set_option maxRecDepth 2000 in
/-- The tone curve for patterns on the other printers. -/
def TONE_PATTERN_1500 : Vector UInt8 256 :=
  #v[
    0x00, 0x04, 0x06, 0x09, 0x0B, 0x0D, 0x0F, 0x11, 0x13, 0x15, 0x17, 0x19, 0x1B, 0x1C, 0x1E, 0x20,
    0x22, 0x23, 0x25, 0x27, 0x28, 0x2A, 0x2C, 0x2D, 0x2F, 0x30, 0x32, 0x33, 0x35, 0x36, 0x38, 0x39,
    0x3B, 0x3C, 0x3E, 0x3F, 0x40, 0x42, 0x43, 0x44, 0x45, 0x47, 0x48, 0x49, 0x4A, 0x4C, 0x4D, 0x4E,
    0x50, 0x51, 0x52, 0x53, 0x55, 0x56, 0x57, 0x58, 0x5A, 0x5B, 0x5C, 0x5D, 0x5F, 0x60, 0x61, 0x62,
    0x63, 0x64, 0x66, 0x67, 0x68, 0x69, 0x6A, 0x6B, 0x6C, 0x6E, 0x6F, 0x70, 0x71, 0x72, 0x73, 0x74,
    0x75, 0x76, 0x77, 0x78, 0x79, 0x7B, 0x7C, 0x7D, 0x7E, 0x7F, 0x80, 0x81, 0x82, 0x83, 0x84, 0x85,
    0x86, 0x87, 0x88, 0x89, 0x8A, 0x8B, 0x8C, 0x8D, 0x8E, 0x8F, 0x90, 0x91, 0x92, 0x93, 0x94, 0x95,
    0x96, 0x97, 0x98, 0x99, 0x9A, 0x9A, 0x9B, 0x9C, 0x9D, 0x9E, 0x9F, 0xA0, 0xA1, 0xA2, 0xA3, 0xA4,
    0xA5, 0xA5, 0xA6, 0xA7, 0xA8, 0xA9, 0xAA, 0xAB, 0xAB, 0xAC, 0xAD, 0xAE, 0xAF, 0xB0, 0xB1, 0xB2,
    0xB2, 0xB3, 0xB4, 0xB5, 0xB6, 0xB7, 0xB8, 0xB9, 0xB9, 0xBA, 0xBB, 0xBC, 0xBD, 0xBE, 0xBE, 0xBF,
    0xC0, 0xC1, 0xC1, 0xC2, 0xC3, 0xC3, 0xC4, 0xC5, 0xC5, 0xC6, 0xC7, 0xC8, 0xC8, 0xC9, 0xCA, 0xCA,
    0xCB, 0xCC, 0xCD, 0xCD, 0xCE, 0xCF, 0xCF, 0xD0, 0xD1, 0xD1, 0xD2, 0xD3, 0xD3, 0xD4, 0xD5, 0xD6,
    0xD6, 0xD7, 0xD8, 0xD8, 0xD9, 0xDA, 0xDA, 0xDB, 0xDC, 0xDC, 0xDD, 0xDE, 0xDE, 0xDF, 0xE0, 0xE1,
    0xE1, 0xE2, 0xE3, 0xE4, 0xE4, 0xE5, 0xE6, 0xE6, 0xE7, 0xE8, 0xE8, 0xE9, 0xEA, 0xEB, 0xEB, 0xEC,
    0xED, 0xED, 0xEE, 0xEE, 0xEF, 0xF0, 0xF0, 0xF1, 0xF2, 0xF2, 0xF3, 0xF3, 0xF4, 0xF5, 0xF5, 0xF6,
    0xF6, 0xF7, 0xF7, 0xF8, 0xF8, 0xF9, 0xF9, 0xFA, 0xFA, 0xFB, 0xFB, 0xFC, 0xFD, 0xFE, 0xFE, 0xFF]

set_option maxRecDepth 2000 in
/-- The tone curve for scattering on the same. -/
def TONE_DIFFUSION_1500 : Vector UInt8 256 :=
  #v[
    0x00, 0x06, 0x0A, 0x0D, 0x10, 0x13, 0x16, 0x18, 0x1B, 0x1E, 0x20, 0x23, 0x25, 0x27, 0x2A, 0x2C,
    0x2E, 0x30, 0x33, 0x35, 0x37, 0x39, 0x3B, 0x3D, 0x3F, 0x41, 0x43, 0x45, 0x47, 0x48, 0x4A, 0x4C,
    0x4E, 0x50, 0x51, 0x53, 0x55, 0x57, 0x58, 0x5A, 0x5C, 0x5D, 0x5F, 0x60, 0x62, 0x64, 0x65, 0x67,
    0x68, 0x6A, 0x6C, 0x6D, 0x6F, 0x70, 0x72, 0x73, 0x75, 0x76, 0x77, 0x79, 0x7A, 0x7C, 0x7D, 0x7F,
    0x80, 0x81, 0x82, 0x83, 0x85, 0x86, 0x87, 0x89, 0x8A, 0x8B, 0x8C, 0x8D, 0x8F, 0x90, 0x91, 0x92,
    0x93, 0x94, 0x95, 0x96, 0x97, 0x98, 0x99, 0x9A, 0x9C, 0x9D, 0x9E, 0x9F, 0xA0, 0xA1, 0xA2, 0xA3,
    0xA4, 0xA5, 0xA6, 0xA7, 0xA8, 0xA9, 0xAA, 0xAB, 0xAB, 0xAC, 0xAD, 0xAE, 0xAF, 0xAF, 0xB0, 0xB1,
    0xB2, 0xB2, 0xB3, 0xB4, 0xB5, 0xB5, 0xB6, 0xB7, 0xB8, 0xB8, 0xB9, 0xBA, 0xBA, 0xBB, 0xBC, 0xBD,
    0xBD, 0xBE, 0xBF, 0xC0, 0xC0, 0xC1, 0xC2, 0xC3, 0xC3, 0xC4, 0xC5, 0xC5, 0xC6, 0xC7, 0xC7, 0xC8,
    0xC9, 0xC9, 0xCA, 0xCB, 0xCC, 0xCC, 0xCD, 0xCE, 0xCE, 0xCF, 0xD0, 0xD0, 0xD1, 0xD2, 0xD2, 0xD3,
    0xD3, 0xD4, 0xD5, 0xD5, 0xD6, 0xD6, 0xD7, 0xD8, 0xD8, 0xD9, 0xD9, 0xDA, 0xDB, 0xDB, 0xDC, 0xDC,
    0xDD, 0xDD, 0xDE, 0xDF, 0xDF, 0xE0, 0xE0, 0xE1, 0xE1, 0xE2, 0xE3, 0xE3, 0xE4, 0xE4, 0xE5, 0xE5,
    0xE6, 0xE6, 0xE7, 0xE7, 0xE7, 0xE8, 0xE8, 0xE8, 0xE9, 0xE9, 0xEA, 0xEA, 0xEA, 0xEB, 0xEB, 0xEB,
    0xEC, 0xEC, 0xEC, 0xED, 0xED, 0xEE, 0xEE, 0xEE, 0xEF, 0xEF, 0xEF, 0xF0, 0xF0, 0xF1, 0xF1, 0xF1,
    0xF2, 0xF2, 0xF2, 0xF3, 0xF3, 0xF4, 0xF4, 0xF4, 0xF5, 0xF5, 0xF5, 0xF6, 0xF6, 0xF6, 0xF7, 0xF7,
    0xF8, 0xF8, 0xF8, 0xF9, 0xF9, 0xF9, 0xFA, 0xFA, 0xFB, 0xFB, 0xFC, 0xFC, 0xFD, 0xFD, 0xFE, 0xFF]

set_option maxRecDepth 2000 in
/-- The thresholds of the pattern, row by row. -/
def HALFTONE_PATTERN : Vector UInt8 256 :=
  #v[
    0x23, 0x6B, 0x9B, 0xA4, 0xDC, 0x94, 0x61, 0x59, 0x21, 0x69, 0x99, 0xA6, 0xDE, 0x96, 0x63, 0x5B,
    0xB3, 0x8B, 0x7C, 0x34, 0x4C, 0x74, 0x84, 0xC9, 0xB1, 0x89, 0x7E, 0x36, 0x4E, 0x76, 0x86, 0xCB,
    0xF3, 0xC4, 0x44, 0x14, 0x0C, 0x3C, 0xBC, 0xEC, 0xF1, 0xC6, 0x46, 0x16, 0x0E, 0x3E, 0xBE, 0xEE,
    0xF8, 0xAC, 0x2C, 0x1C, 0x05, 0x54, 0xD4, 0xE4, 0xFA, 0xAE, 0x2E, 0x1E, 0x07, 0x56, 0xD6, 0xE6,
    0xD8, 0x90, 0x64, 0x5C, 0x24, 0x6C, 0x9C, 0xA2, 0xDA, 0x92, 0x66, 0x5E, 0x26, 0x6E, 0x9E, 0xA0,
    0x48, 0x70, 0x80, 0xCC, 0xB4, 0x8C, 0x7A, 0x32, 0x4A, 0x72, 0x82, 0xCE, 0xB6, 0x8E, 0x78, 0x30,
    0x08, 0x38, 0xB8, 0xE8, 0xF4, 0xC2, 0x42, 0x12, 0x0A, 0x3A, 0xBA, 0xEA, 0xF6, 0xC0, 0x40, 0x10,
    0x01, 0x50, 0xD0, 0xE0, 0xFC, 0xAA, 0x2A, 0x1A, 0x03, 0x52, 0xD2, 0xE2, 0xFE, 0xA8, 0x28, 0x18,
    0x20, 0x68, 0x98, 0xA7, 0xDF, 0x97, 0x62, 0x5A, 0x22, 0x6A, 0x9A, 0xA5, 0xDD, 0x95, 0x60, 0x58,
    0xB0, 0x87, 0x7F, 0x37, 0x4F, 0x77, 0x87, 0xCA, 0xB2, 0x8A, 0x7D, 0x35, 0x4D, 0x75, 0x85, 0xC8,
    0xF0, 0xC7, 0x47, 0x17, 0x0F, 0x3F, 0xBF, 0xEF, 0xF2, 0xC5, 0x45, 0x15, 0x0D, 0x3D, 0xBD, 0xED,
    0xFA, 0xAF, 0x2F, 0x1F, 0x07, 0x57, 0xD7, 0xE7, 0xF8, 0xAD, 0x2D, 0x1D, 0x05, 0x55, 0xD5, 0xE5,
    0xDB, 0x93, 0x67, 0x5F, 0x27, 0x6F, 0x9F, 0xA1, 0xD9, 0x91, 0x65, 0x5D, 0x25, 0x6D, 0x9D, 0xA3,
    0x4B, 0x73, 0x83, 0xCF, 0xB7, 0x8F, 0x79, 0x31, 0x49, 0x71, 0x81, 0xCD, 0xB5, 0x8D, 0x7B, 0x33,
    0x0B, 0x3B, 0xBB, 0xEB, 0xF7, 0xC1, 0x41, 0x11, 0x09, 0x39, 0xB9, 0xE9, 0xF5, 0xC3, 0x43, 0x13,
    0x03, 0x53, 0xD3, 0xE3, 0xFE, 0xA9, 0x29, 0x19, 0x01, 0x51, 0xD1, 0xE1, 0xFC, 0xAB, 0x2B, 0x1B]

/-- The rows of a pattern. -/
def HALFTONE_SIZE : ℕ := 16

/-- The highest threshold in it. -/
def HALFTONE_MAX : UInt8 := 254

/-- Rows that the scattering takes at a time. -/
def SCATTER_ROWS : ℕ := 5

/-- The share of an error that goes along is this less a random byte, out of 1024. -/
def SCATTER_SPLIT : ℤ := 0x2FF

/-- The same at draft quality. -/
def SCATTER_SPLIT_DRAFT : ℤ := 0x175

/-- How dark a tone prints. -/
def toneCurve (family : StyleWriterFamily) (halftone : Halftone) : Vector UInt8 256 :=
  match family.is1200Series, halftone with
  | false, .pattern => TONE_PATTERN_2200
  | false, .diffusion => TONE_DIFFUSION_2200
  | true, .pattern => TONE_PATTERN_1500
  | true, .diffusion => TONE_DIFFUSION_1500

/-- Red, green and blue. -/
abbrev Rgb := Vector UInt8 3

/-- Cyan, magenta, yellow and black. -/
abbrev Ink := Vector UInt8 4

/-- No ink. -/
def WHITE : Rgb := .replicate 3 0xFF

/-- None of the four. -/
def NO_INK : Ink := .replicate 4 0

/-- The brightest of the three. -/
def maxOf (rgb : Rgb) : UInt8 := max (max (rgb.get 0) (rgb.get 1)) (rgb.get 2)

/-- Separate one pixel, after its tone curve.  White takes no ink at all. -/
def separate (rgb : Rgb) (tone : Vector UInt8 256) : Ink :=
  if rgb = WHITE then NO_INK
  else
    let rgb := rgb.map fun v => tone.get v.toFin
    let max := maxOf rgb
    #v[max - rgb.get 0, max - rgb.get 1, max - rgb.get 2, 255 - max]

/-- A color moved a tenth of the way to white. -/
def lighten (rgb : Rgb) : Rgb :=
  let lift := UInt8.ofNat ((255 - maxOf rgb).toNat * 10 / 100)
  rgb.map (· + lift)

/-- How bright a color is. -/
def luma (rgb : Rgb) : UInt8 :=
  UInt8.ofNat (((rgb.get 0).toNat * 30 + (rgb.get 1).toNat * 59 + (rgb.get 2).toNat * 11) / 100)

/-! ## Rows of dots -/

/-- One more dot of a 1-bit row. -/
def packDot (row : Bytes) (dot : Bool × ℕ) : Bytes :=
  let row := if dot.2 % 8 = 0 then row ++ [0] else row
  if dot.1 then row.modify (row.length - 1) (· ||| pixelMask dot.2) else row

/-- Pack dots into a 1-bit row. -/
def pack (dots : List Bool) : Bytes := dots.zipIdx.foldl packDot []

/-- The pixel `x` of a row. -/
def getPixel (row : Bytes) (x : ℕ) : Checked Bool := do
  let byte ← byteAt row (x / 8)
  .ok (byte &&& pixelMask x != 0)

/-- One turn of `mirror_bits`. -/
def mirrorPair (width : ℕ) (row : Bytes) (x : ℕ) : Checked Bytes := do
  let y := width - 1 - x
  let a ← getPixel row x
  let b ← getPixel row y
  .ok (if a ≠ b then flipAt (flipAt row x) y else row)

/-- Reverse the first `width` pixels of a 1-bit row. -/
def mirrorBits (row : Bytes) (width : ℕ) : Checked Bytes :=
  (List.range (width / 2)).foldlM (mirrorPair width) row

/-! ## Pages -/

/-- The pixels of a page. -/
inductive Pixels where
  /-- 1 bit a pixel, 1 for black, each row padded to a whole byte -/
  | blackAndWhite (bits : Bytes)
  /-- from 0 for black to 255 for white -/
  | gray (gray : Bytes)
  /-- 3 bytes a pixel -/
  | rgb (rgb : Bytes)

/-- What is printed. -/
structure Page where
  width : ℕ
  height : ℕ
  pixels : Pixels

/-- The bytes of a row of bits. -/
def rowBytes (width : ℕ) : ℕ := (width + 7) / 8

/-- Bytes in threes. -/
def asPixels : Bytes → List Rgb
  | r :: g :: b :: rest => #v[r, g, b] :: asPixels rest
  | _ => []

/-- A row of a grayscale or color page, ready to image. -/
inductive SourceRow where
  | gray (pixels : Bytes)
  | rgb (pixels : List Rgb)

namespace SourceRow

/-- Nothing but white. -/
def blank : SourceRow → Bool
  | gray pixels => pixels.all (· == 0xFF)
  | rgb pixels => pixels.all (· == WHITE)

/-- Anything but black and white. -/
def needsDepth : SourceRow → Bool
  | gray pixels => pixels.any fun g => g != 0 && g != 0xFF
  | rgb pixels => pixels.any fun px => px != .replicate 3 0 && px != WHITE

/-- A row at one bit. -/
def blackBits : SourceRow → Bytes
  | gray pixels => pack (pixels.map (· == 0))
  | rgb pixels => pack (pixels.map (· == .replicate 3 0))

/-- A row from the other side. -/
def reverse : SourceRow → SourceRow
  | gray pixels => gray pixels.reverse
  | rgb pixels => rgb pixels.reverse

end SourceRow

/-! ## Scattering -/

/-- The C library's `rand`. -/
structure CRand where
  state : UInt32

/-- The library's `rand`. -/
def CRand.next (r : CRand) : UInt32 × CRand :=
  let state := r.state * 1103515245 + 12345
  ((state >>> 16) &&& 0x7FFF, ⟨state⟩)

/-- A number of 32 bits with a sign. -/
def asI32 (n : ℤ) : Checked ℤ := if -2 ^ 31 ≤ n ∧ n < 2 ^ 31 then .ok n else .error .overflow

/-- What one dot of the scattering gives. -/
structure Dot where
  reached : Bool
  carry : ℤ
  down : Int8
  lcg : UInt32

/-- One dot, for one channel: `value`, plus the error carried to it, against a random threshold. -/
def scatterStep (value : UInt8) (carry : ℤ) (down : Int8) (lcg : UInt32) (split : ℤ) :
    Checked Dot := do
  let v ← asI32 (carry + value.toNat)
  let v ← asI32 (v + down.toInt)
  let lcg := lcg * 513 + 1
  let r : ℤ := (lcg >>> 24).toNat
  let threshold ← asI32 (r / 8 + 0x6F)
  let reached := threshold < v
  let v ← if reached then asI32 (v - 0xFF) else .ok v
  let share ← asI32 (split - r)
  let product ← asI32 (share * v)
  let carry := product / 1024
  let left ← asI32 (v - carry)
  -- The error that goes down is kept in a byte that wraps.
  .ok { reached, carry, down := Int8.ofInt left, lcg }

/-- What the scattering carries, for pixels of `N` channels. -/
structure Scatter (N : ℕ) where
  /-- the error going to the next dot along, per channel -/
  carry : Vector ℤ N
  /-- the next row runs right to left -/
  backward : Bool
  /-- the error going down to the next row, per column and channel -/
  down : List (Vector Int8 N)

namespace Scatter

/-- Nothing is carried. -/
def new (N : ℕ) : Scatter N := ⟨.replicate N 0, false, []⟩

/-- Make room for rows `width` pixels wide.  Rows wider than any before start from nothing
    carried. -/
def fit {N : ℕ} (s : Scatter N) (width : ℕ) : Scatter N :=
  if s.down.length < width then ⟨.replicate N 0, false, .replicate width (.replicate N 0)⟩ else s

end Scatter

/-- What the scattering does to a pixel: the dots it becomes and what it carries on. -/
structure Scattered (π : Type) (N : ℕ) where
  pixel : π
  carry : Vector ℤ N
  down : Vector Int8 N
  lcg : UInt32

/-- How pixels are scattered: each alone, and what becomes of the carry between stretches. -/
structure Dots (π : Type) (N : ℕ) where
  pixel : Bool → π → Vector ℤ N → Vector Int8 N → UInt32 → Checked (Scattered π N)
  narrow : Vector ℤ N → Checked (Vector ℤ N)

section
variable {π : Type} {N : ℕ}

/-- One channel of a pixel of inks. -/
def scatterInk (split : ℤ) (s : Scattered Ink 4) (ch : Fin 4) : Checked (Scattered Ink 4) := do
  let dot ← scatterStep (s.pixel.get ch) (s.carry.get ch) (s.down.get ch) s.lcg split
  .ok {
    pixel := s.pixel.set ch (if dot.reached then 0xFF else 0)
    carry := s.carry.set ch dot.carry
    down := s.down.set ch dot.down
    lcg := dot.lcg }

theorem channel_lt (ch : Fin 4) : ch.val < 4 := ch.isLt

/-- The order the channels of a pixel are taken in. -/
def inkOrder (backward : Bool) : List (Fin 4) := if backward then [3, 2, 1, 0] else [0, 1, 2, 3]

/-- A pixel of separated inks.  One with no ink at all clears what was carried to it. -/
def colorPixel (split : ℤ) (backward : Bool) (ink : Ink) (carry : Vector ℤ 4)
    (down : Vector Int8 4) (lcg : UInt32) : Checked (Scattered Ink 4) :=
  if ink = NO_INK then .ok ⟨ink, .replicate 4 0, .replicate 4 0, lcg⟩
  else (inkOrder backward).foldlM (scatterInk split) ⟨ink, carry, down, lcg⟩

/-- A pixel of toned lightness.  A white one clears what was carried to it. -/
def grayPixel (split : ℤ) (_backward : Bool) (light : UInt8) (carry : Vector ℤ 1)
    (down : Vector Int8 1) (lcg : UInt32) : Checked (Scattered UInt8 1) :=
  if light = 0xFF then .ok ⟨0, #v[0], #v[0], lcg⟩
  else do
    let dot ← scatterStep light (carry.get 0) (down.get 0) lcg split
    .ok ⟨if dot.reached then 0 else 0xFF, #v[dot.carry], #v[dot.down], dot.lcg⟩

/-- Between stretches cyan's carry is kept in 15 bits, the rest in 16. -/
def narrowColor (carry : Vector ℤ 4) : Vector ℤ 4 :=
  #v[(carry.get 0).bmod (2 ^ 15), (carry.get 1).bmod (2 ^ 16), (carry.get 2).bmod (2 ^ 16),
    (carry.get 3).bmod (2 ^ 16)]

/-- The carry in 16 bits. -/
def narrowGray (carry : Vector ℤ 1) : Vector ℤ 1 := #v[(carry.get 0).bmod (2 ^ 16)]

/-- Scattering ink. -/
def colorDots (split : ℤ) : Dots Ink 4 where
  pixel := colorPixel split
  narrow carry := .ok (narrowColor carry)

/-- Scattering gray. -/
def grayDots (split : ℤ) : Dots UInt8 1 where
  pixel := grayPixel split
  narrow carry := .ok (narrowGray carry)

/-- What becomes of some pixels of a row, and of the errors that went down to them. -/
structure Passed (π : Type) (N : ℕ) where
  cells : List (π × Vector Int8 N)
  carry : Vector ℤ N
  lcg : UInt32

/-- Pixels, each with the error that went down to it, one after another. -/
def scatterCells (d : Dots π N) (backward : Bool) :
    List (π × Vector Int8 N) → Vector ℤ N → UInt32 → Checked (Passed π N)
  | [], carry, lcg => .ok ⟨[], carry, lcg⟩
  | (px, down) :: cells, carry, lcg => do
    let s ← d.pixel backward px carry down lcg
    let rest ← scatterCells d backward cells s.carry s.lcg
    .ok { rest with cells := (s.pixel, s.down) :: rest.cells }

/-- Cells in the order they are taken, or back in their places. -/
def inOrder {γ : Type} (backward : Bool) (cells : List γ) : List γ :=
  if backward then cells.reverse else cells

/-- One row, right to left where it runs backward. -/
def scatterRow (d : Dots π N) (s : Scatter N) (row : List π) (lcg : UInt32) :
    Checked (List π × Scatter N × UInt32) :=
  if s.down.length < row.length then
    .error (.index (if s.backward then row.length - 1 else s.down.length) s.down.length)
  else do
    let passed ← scatterCells d s.backward (inOrder s.backward (row.zip s.down)) s.carry lcg
    let cells := inOrder s.backward passed.cells
    .ok (cells.map (·.1),
      { carry := passed.carry
        backward := !s.backward
        down := cells.map (·.2) ++ s.down.drop row.length },
      passed.lcg)

/-- The rows of a stretch. -/
def scatterStretch (d : Dots π N) :
    List (List π) → Scatter N → UInt32 → Checked (List (List π) × Scatter N)
  | [], s, _ => .ok ([], s)
  | row :: rows, s, lcg => do
    let (row, s, lcg) ← scatterRow d s row lcg
    let (rows, s) ← scatterStretch d rows s lcg
    .ok (row :: rows, s)

/-- The stretches of a band, each starting its random numbers afresh. -/
def scatterStretches (d : Dots π N) :
    List (List (List π)) → Scatter N → CRand → Checked (List (List π) × Scatter N × CRand)
  | [], s, rand => .ok ([], s, rand)
  | stretch :: stretches, s, rand => do
    let (seed, rand) := rand.next
    let (rows, s) ← scatterStretch d stretch s (seed <<< 16)
    let carry ← d.narrow s.carry
    let (rest, s, rand) ← scatterStretches d stretches { s with carry } rand
    .ok (rows ++ rest, s, rand)

/-- The rows of a band, stretch by stretch. -/
def scatterRows (d : Dots π N) (rows : List (List π)) (s : Scatter N) (rand : CRand) :
    Checked (List (List π) × Scatter N × CRand) :=
  scatterStretches d (chunks SCATTER_ROWS rows) (s.fit (rows.head?.elim 0 List.length)) rand

end

/-! ## Imaging -/

/-- `row[x / 8] |= 0x80 >> (x % 8)`. -/
def setPixel (row : Bytes) (x : ℕ) : Checked Bytes :=
  if x / 8 < row.length then .ok (setAt row x) else .error (.index (x / 8) row.length)

/-- The threshold of a pixel, in the pattern's row `row`. -/
def thresholdAt (row : Fin HALFTONE_SIZE) (x : ℕ) : UInt8 :=
  HALFTONE_PATTERN.get ⟨row * HALFTONE_SIZE + x % HALFTONE_SIZE, by
    have hrow := row.isLt
    simp only [HALFTONE_SIZE] at hrow ⊢
    omega⟩

/-- A plane with a dot at `x` where the amount of its ink exceeds the threshold. -/
def patternDot (threshold amount : UInt8) (x : ℕ) (plane : Bytes) : Checked Bytes :=
  if threshold < amount then setPixel plane x else .ok plane

/-- One pixel of a color row in the pattern. -/
def patternInk (row : Fin HALFTONE_SIZE) (planes : Vector Bytes 4) (dot : Ink × ℕ) :
    Checked (Vector Bytes 4) :=
  if dot.1 = NO_INK then .ok planes
  else do
    let threshold := thresholdAt row dot.2
    let cyan ← patternDot threshold (dot.1.get 0) dot.2 (planes.get 0)
    let magenta ← patternDot threshold (dot.1.get 1) dot.2 (planes.get 1)
    let yellow ← patternDot threshold (dot.1.get 2) dot.2 (planes.get 2)
    -- Black falls where the other inks are least likely.
    let black ← patternDot (HALFTONE_MAX - threshold) (dot.1.get 3) dot.2 (planes.get 3)
    .ok #v[cyan, magenta, yellow, black]

/-- Images the pages of one job; what the scattering carries goes from one band to the next. -/
structure Imager where
  family : StyleWriterFamily
  rendering : Rendering
  halftone : Halftone
  tone : Vector UInt8 256
  mirrored : Bool
  lighten : Bool
  split : ℤ
  rand : CRand
  colorScatter : Scatter 4
  grayScatter : Scatter 1
  /-- rows of the current page halftoned so far -/
  patternRows : ℕ

namespace Imager

/-- The state before a page. -/
def new (family : StyleWriterFamily) (job : JobOptions) : Imager where
  family
  rendering := job.rendering
  halftone := job.halftone
  tone := toneCurve family job.halftone
  mirrored := job.paper.mirrored
  lighten := family.lightensTransparencies && job.rendering == .color && job.quality == .normal &&
    job.paper == .transparency
  split := if job.quality = .draft then SCATTER_SPLIT_DRAFT else SCATTER_SPLIT
  rand := ⟨1⟩
  colorScatter := .new 4
  grayScatter := .new 1
  patternRows := 0

/-- Row `y` of a page, in gray unless the job prints color, and mirrored for back-print film. -/
def sourceRow (im : Imager) (page : Page) (y : ℕ) : Checked SourceRow := do
  let w := page.width
  let row ← match page.pixels, im.rendering with
    | .rgb rgb, .color => do
      let row ← slice rgb (y * w * 3) ((y + 1) * w * 3)
      .ok (SourceRow.rgb (asPixels row))
    | .rgb rgb, _ => do
      let row ← slice rgb (y * w * 3) ((y + 1) * w * 3)
      .ok (SourceRow.gray ((asPixels row).map luma))
    | .gray gray, .color => do
      let row ← slice gray (y * w) ((y + 1) * w)
      .ok (SourceRow.rgb (row.map (.replicate 3 ·)))
    | .gray gray, _ => do
      let row ← slice gray (y * w) ((y + 1) * w)
      .ok (SourceRow.gray row)
    | .blackAndWhite bits, _ => do
      let row ← slice bits (y * rowBytes w) ((y + 1) * rowBytes w)
      let pixels ← (List.range w).mapM (getPixel row)
      .ok (SourceRow.gray (pixels.map fun black => if black then 0 else 0xFF))
  .ok (if im.mirrored then row.reverse else row)

/-- A row at 1 bit, black where a gray is darker than mid gray. -/
def darkBits (width : ℕ) : SourceRow → Checked Bytes
  | .gray gray => (gray.zipIdx.filter (·.1 < 0x80)).foldlM (fun bits px => setPixel bits px.2)
      (.replicate (rowBytes width) 0)
  | .rgb _ => .ok (.replicate (rowBytes width) 0)

/-- Row `y` at one bit: pixels print black where they are darker than mid gray. -/
def blackAndWhiteRow (im : Imager) (page : Page) (y : ℕ) : Checked Bytes :=
  match page.pixels with
  | .blackAndWhite bits => do
    let row ← slice bits (y * rowBytes page.width) ((y + 1) * rowBytes page.width)
    if im.mirrored then mirrorBits row page.width else .ok row
  | _ => do
    let row ← im.sourceRow page y
    darkBits page.width row

/-- A color as it is to look on the paper. -/
def tonedColor (im : Imager) (rgb : Rgb) : Rgb :=
  if im.lighten then StyleWriter.lighten rgb else rgb

/-- The next row of the pattern. -/
def nextPatternRow (im : Imager) : Fin HALFTONE_SIZE × Imager :=
  (⟨(im.patternRows + 1) % HALFTONE_SIZE, Nat.mod_lt _ (by decide)⟩,
    { im with patternRows := im.patternRows + 1 })

/-- A row of ink by the pattern. -/
def patternColor (im : Imager) (row : List Ink) : Checked (Vector Bytes 4 × Imager) := do
  let (base, im) := im.nextPatternRow
  let planes ← row.zipIdx.foldlM (patternInk base)
    (.replicate 4 (.replicate (rowBytes row.length) 0))
  .ok (planes, im)

/-- A row of gray by the pattern. -/
def patternGray (im : Imager) (row : Bytes) : Checked (Vector Bytes 1 × Imager) :=
  let (base, im) := im.nextPatternRow
  .ok (#v[pack (row.zipIdx.map fun px => px.1 < thresholdAt base px.2)], im)

/-- The planes of a row of scattered inks, each 0 or 0xFF. -/
def dots (im : Imager) (row : List Ink) : Checked (Vector Bytes 4 × Imager) :=
  let (_, im) := im.nextPatternRow
  .ok (.ofFn fun ch => pack (row.map fun ink => ink.get ch != 0), im)

/-- A row of gray that was scattered. -/
def scatteredGray (im : Imager) (row : Bytes) : Checked (Vector Bytes 1 × Imager) :=
  let (_, im) := im.nextPatternRow
  .ok (#v[pack (row.map (· != 0))], im)

/-- Rows turned into planes one after another. -/
def eachRow {π : Type} {N : ℕ} (f : Imager → List π → Checked (Vector Bytes N × Imager)) :
    Imager → List (List π) → Checked (List (Vector Bytes N) × Imager)
  | im, [] => .ok ([], im)
  | im, row :: rows => do
    let (planes, im) ← f im row
    let (rest, im) ← eachRow f im rows
    .ok (planes :: rest, im)

/-- Scatter a band of separated inks, leaving each 0xFF for a dot and 0 for none. -/
def scatterColor (im : Imager) (rows : List (List Ink)) : Checked (List (List Ink) × Imager) := do
  let (rows, colorScatter, rand) ← scatterRows (colorDots im.split) rows im.colorScatter im.rand
  .ok (rows, { im with colorScatter, rand })

/-- Scatter a band of toned lightness, leaving each 0xFF for a dot and 0 for none. -/
def scatterGray (im : Imager) (rows : List Bytes) : Checked (List Bytes × Imager) := do
  let (rows, grayScatter, rand) ←
    scatterRows (grayDots im.split) rows im.grayScatter im.rand
  .ok (rows, { im with grayScatter, rand })

/-- Rows halftoned as the job asks for it, in a pattern or by scattering. -/
def halftoned {π : Type} {N : ℕ}
    (pattern dots : Imager → List π → Checked (Vector Bytes N × Imager))
    (scatter : Imager → List (List π) → Checked (List (List π) × Imager)) (im : Imager)
    (rows : List (List π)) : Checked (List (Vector Bytes N) × Imager) :=
  match im.halftone with
  | .pattern => eachRow pattern im rows
  | .diffusion => do
    let (rows, im) ← scatter im rows
    eachRow dots im rows

/-- The inks of a row. -/
def separated (im : Imager) (row : SourceRow) : List Ink :=
  match row with
  | .rgb pixels => pixels.map fun px => separate (im.tonedColor px) im.tone
  | .gray pixels => pixels.map fun g => separate (im.tonedColor (.replicate 3 g)) im.tone

/-- The toned lightness of a row. -/
def toned (im : Imager) (row : SourceRow) : Bytes :=
  match row with
  | .gray pixels => pixels.map fun g => im.tone.get g.toFin
  | .rgb pixels => pixels.map fun px => im.tone.get (luma px).toFin

end Imager

/-- A band of some rows. -/
def RawBand.ofPlanes (top width : ℕ) (kind : BandKind) (rows : List (Vector Bytes kind.planes)) :
    RawBand :=
  ⟨top, width, kind, rows.map Vector.toList, by simp⟩

namespace Imager

/-- A band at the page's own depth, with four planes on a color page or one of gray on a
    grayscale page. -/
def deepBand (im : Imager) (top width : ℕ) (rows : List SourceRow) :
    Checked (RawBand × Imager) :=
  if im.rendering = .color then do
    let (planes, im) ← halftoned patternColor dots scatterColor im (rows.map im.separated)
    .ok (.ofPlanes top width .color planes, im)
  else do
    let (planes, im) ← halftoned patternGray scatteredGray scatterGray im (rows.map im.toned)
    .ok (.ofPlanes top width .mono planes, im)

/-- A row that prints lighter, in gray. -/
def lightened : SourceRow → SourceRow
  | .rgb pixels => .gray (pixels.map fun px => luma (StyleWriter.lighten px))
  | .gray pixels => .gray pixels

/-- A black and white band of a color page that prints lighter goes out in gray. -/
def lightenedBand (im : Imager) (top width : ℕ) (rows : List SourceRow) :
    Checked (RawBand × Imager) := do
  let (band, after) ← { im with rendering := .grayscale }.deepBand top width (rows.map lightened)
  .ok (band, { after with rendering := im.rendering })

/-- A band at one bit. -/
def blackBand (top width : ℕ) (rows : List SourceRow) : RawBand :=
  .ofPlanes top width .mono (rows.map fun row => #v[row.blackBits])

/-- The end of a band that starts at `top`. -/
def bandEnd (im : Imager) (page : Page) (top : ℕ) : ℕ :=
  min (top + im.family.maxBandRows) page.height

theorem lt_bandEnd {im : Imager} {page : Page} {top : ℕ} (h : top < page.height) :
    top < im.bandEnd page top := by
  have hpos := im.family.maxBandRows_pos
  unfold bandEnd
  omega

/-- The bands of a black and white page from row `top` on. -/
def blackAndWhiteBands (im : Imager) (page : Page) (top : ℕ) : Checked (List RawBand) :=
  if top < page.height then do
    let stop := im.bandEnd page top
    let rows ← (List.range' top (stop - top)).mapM (im.blackAndWhiteRow page)
    let rest ← blackAndWhiteBands im page stop
    .ok (.ofPlanes top page.width .mono (rows.map (#v[·])) :: rest)
  else .ok []
termination_by page.height - top
decreasing_by
  have : top < im.bandEnd page top := lt_bandEnd ‹top < page.height›
  omega

/-- The band of some rows that starts at `top`. -/
def band (im : Imager) (top width : ℕ) (rows : List SourceRow) : Checked (RawBand × Imager) :=
  if rows.any SourceRow.needsDepth then im.deepBand top width rows
  else if im.lighten then im.lightenedBand top width rows
  else .ok (blackBand top width rows, im)

/-- The family is the imager's own throughout a page, so that a band always takes a row. -/
def bandsFrom (im : Imager) (page : Page) (top : ℕ) : Checked (List RawBand × Imager) :=
  if top < page.height then do
    let first ← im.sourceRow page top
    if first.blank then bandsFrom im page (top + 1)
    else do
      let stop := im.bandEnd page top
      let rest ← (List.range' (top + 1) (stop - (top + 1))).mapM (im.sourceRow page)
      let (band, after) ← im.band top page.width (first :: rest)
      let (bands, after) ← bandsFrom after page stop
      .ok (band :: bands, after)
  else .ok ([], im)
termination_by page.height - top
decreasing_by
  · omega
  · have : top < im.bandEnd page top := lt_bandEnd ‹top < page.height›
    omega

/-- The bands a page prints in, top to bottom. -/
def bands (im : Imager) (page : Page) : Checked (List RawBand × Imager) := do
  let im := { im with patternRows := 0 }
  if im.rendering = .blackAndWhite then
    let bands ← im.blackAndWhiteBands page 0
    .ok (bands, im)
  else im.bandsFrom page 0

/-- The pages of a job, one after another. -/
def pages (im : Imager) : List Page → Checked (List (List RawBand) × Imager)
  | [] => .ok ([], im)
  | page :: rest => do
    let (bands, im) ← im.bands page
    let (more, im) ← pages im rest
    .ok (bands :: more, im)

end Imager

end TailTalk.StyleWriter
