/-
  The configuration of an InkTalk — kept in one block of the last flash sector.

  `save` erases the sector and writes the block, unless a step of it fails;
  what was saved is what is loaded (`fromBlock_toBlock`).
-/
import TailTalk.InkTalk.Frame
import TailTalk.Lib.Utf8

namespace TailTalk.InkTalk

open Lib

/-! ## Settings -/

/-- The printer on the other side of the cable. -/
inductive Role where
  | styleWriter
  | imageWriter
deriving DecidableEq

namespace Role

/-- Its number in the block. -/
def code : Role → UInt8
  | styleWriter => 0
  | imageWriter => 1

/-- The role of a number. -/
def fromU8 (v : UInt8) : Option Role :=
  if v = 0 then some styleWriter
  else if v = 1 then some imageWriter
  else none

@[simp] theorem fromU8_code (r : Role) : fromU8 r.code = some r := by
  cases r <;> rfl

theorem eq_code_of_fromU8 {v : UInt8} {r : Role} (h : fromU8 v = some r) : v = r.code := by
  unfold fromU8 at h
  split_ifs at h with h0 h1
  · cases h
    exact h0
  · cases h
    exact h1

end Role

/-- Longest printer name. -/
def MAX_NAME_LEN : ℕ := 31

/-- A `heapless::String<31>`, as its bytes. -/
abbrev Str31 := { s : Bytes // s.toByteArray.IsValidUTF8 ∧ s.length ≤ MAX_NAME_LEN }

/-- Bytes as a string, if they are UTF-8 and few enough. -/
def Str31.fromUtf8 (s : Bytes) : Option Str31 :=
  if h : s.toByteArray.IsValidUTF8 ∧ s.length ≤ MAX_NAME_LEN then some ⟨s, h⟩ else none

@[simp] theorem Str31.fromUtf8_val (s : Str31) : fromUtf8 s.1 = some s := dif_pos s.2

theorem Str31.val_of_fromUtf8 {s : Bytes} {t : Str31} (h : fromUtf8 s = some t) : t.1 = s := by
  unfold fromUtf8 at h
  split_ifs at h
  cases h
  rfl

/-- A baud rate of the printer port. -/
abbrev Baud := { b : UInt32 // 300 ≤ b ∧ b ≤ 1000000 }

/-- `BAUD_RANGE.contains` -/
def Baud.ofU32 (b : UInt32) : Option Baud :=
  if h : 300 ≤ b ∧ b ≤ 1000000 then some ⟨b, h⟩ else none

@[simp] theorem Baud.ofU32_val (b : Baud) : ofU32 b.1 = some b := dif_pos b.2

theorem Baud.val_of_ofU32 {b : UInt32} {c : Baud} (h : ofU32 b = some c) : c.1 = b := by
  unfold ofU32 at h
  split_ifs at h
  cases h
  rfl

/-- What can be configured. -/
structure Config where
  role : Role
  /-- the object name of the printer -/
  name : Str31
  baud : Baud

/-- A StyleWriter talks at 57600 baud. -/
def Config.default : Config where
  role := .styleWriter
  name := ⟨[0x49, 0x6E, 0x6B, 0x54, 0x61, 0x6C, 0x6B],
    isValidUTF8_of_ascii (by simp), by simp [MAX_NAME_LEN]⟩
  baud := ⟨57600, by decide⟩

/-- `:`, `@`, `=` and `*` -/
def NAME_DELIMITERS : Bytes := [0x3A, 0x40, 0x3D, 0x2A]

/-- A printer name: 1 to 31 bytes, with none of the NBP delimiters or wildcards. -/
def parseName (name : Bytes) : Option Str31 :=
  if name = [] ∨ name.any (· ∈ NAME_DELIMITERS) then none else Str31.fromUtf8 name

/-! ## The block -/

/-- The first word of a block. -/
def MAGIC : UInt32 := 0x496E6B54

/-- Its version. -/
def VERSION : UInt8 := 1

/-- Its length. -/
def BLOCK_LEN : ℕ := 256

/-- `u32::to_le_bytes` -/
def le32 (v : UInt32) : Bytes := (be32 v).reverse

/-- `u32::from_le_bytes` of the first four bytes. -/
def readLe32 (b : Bytes) : UInt32 := readBe32 (b.take 4).reverse

@[simp] theorem le32_length (v : UInt32) : (le32 v).length = 4 := rfl

@[simp] theorem readLe32_le32 (v : UInt32) (rest : Bytes) : readLe32 (le32 v ++ rest) = v := by
  have hword := readBe32_be32 v []
  rw [List.append_nil] at hword
  rw [readLe32, List.take_left' (le32_length v), le32, List.reverse_reverse, hword]

namespace Config

/-- The block of a configuration. -/
def toBlock (cfg : Config) : Bytes :=
  let b := List.replicate BLOCK_LEN 0xFF
  let b := splice b 0 (le32 MAGIC)
  let b := splice b 4 [VERSION]
  let b := splice b 5 [cfg.role.code]
  let b := splice b 6 [UInt8.ofNat cfg.name.1.length]
  let b := splice b 7 cfg.name.1
  splice b 40 (le32 cfg.baud.1)

/-- The configuration of a block. -/
def fromBlock (b : Bytes) : Option Config :=
  if b.length < BLOCK_LEN ∨ readLe32 b ≠ MAGIC then none
  else if b.getD 4 0 ≠ VERSION then none
  else do
    let role ← Role.fromU8 (b.getD 5 0)
    let nameLen := min (b.getD 6 0).toNat MAX_NAME_LEN
    let name ← Str31.fromUtf8 ((b.drop 7).take nameLen)
    let baud ← Baud.ofU32 (readLe32 (b.drop 40))
    return { role, name, baud }

/-- A copy right after the part of a buffer that is written. -/
theorem splice_replicate (xs ys : Bytes) (k : ℕ) (a : UInt8) :
    splice (xs ++ List.replicate k a) xs.length ys =
      xs ++ ys ++ List.replicate (k - ys.length) a := by
  rw [splice, List.take_left, ← List.drop_drop, List.drop_left, List.drop_replicate]

theorem toBlock_eq (cfg : Config) :
    cfg.toBlock = le32 MAGIC ++ [VERSION, cfg.role.code, UInt8.ofNat cfg.name.1.length] ++
      cfg.name.1 ++ List.replicate (33 - cfg.name.1.length) 0xFF ++ le32 cfg.baud.1 ++
        List.replicate 212 0xFF := by
  have hname : cfg.name.1.length ≤ 31 := cfg.name.2.2
  set head : Bytes := le32 MAGIC ++ [VERSION, cfg.role.code, UInt8.ofNat cfg.name.1.length]
    with hhead
  have hfront : splice (splice (splice (splice (List.replicate BLOCK_LEN 0xFF) 0 (le32 MAGIC)) 4
      [VERSION]) 5 [cfg.role.code]) 6 [UInt8.ofNat cfg.name.1.length] =
        head ++ List.replicate 249 0xFF := rfl
  have hnamed := splice_replicate head cfg.name.1 249 0xFF
  have hgap : List.replicate (249 - cfg.name.1.length) (0xFF : UInt8) =
      List.replicate (33 - cfg.name.1.length) 0xFF ++ List.replicate 216 0xFF := by
    rw [List.replicate_append_replicate]
    congr 1
    omega
  have hbaud := splice_replicate (head ++ cfg.name.1 ++
    List.replicate (33 - cfg.name.1.length) 0xFF) (le32 cfg.baud.1) 216 0xFF
  have hforty : (head ++ cfg.name.1 ++ List.replicate (33 - cfg.name.1.length) 0xFF).length =
      40 := by
    simp only [hhead, List.length_append, le32_length, List.length_cons, List.length_nil,
      List.length_replicate]
    omega
  rw [hforty] at hbaud
  unfold toBlock
  simp only [hfront]
  rw [show (7 : ℕ) = head.length from rfl, hnamed, hgap, ← List.append_assoc, hbaud]
  rfl

/-- **What was saved is loaded.** -/
theorem fromBlock_toBlock (cfg : Config) : fromBlock cfg.toBlock = some cfg := by
  have hname : cfg.name.1.length ≤ MAX_NAME_LEN := cfg.name.2.2
  have hblock := cfg.toBlock_eq
  have hlen : cfg.toBlock.length = BLOCK_LEN := by
    rw [hblock]
    simp only [List.length_append, le32_length, List.length_cons, List.length_nil,
      List.length_replicate, BLOCK_LEN]
    unfold MAX_NAME_LEN at hname
    omega
  have hmagic : readLe32 cfg.toBlock = MAGIC := by
    simp only [hblock, List.append_assoc, readLe32_le32]
  have hversion : cfg.toBlock.getD 4 0 = VERSION := by
    rw [hblock]
    rfl
  have hrole : cfg.toBlock.getD 5 0 = cfg.role.code := by
    rw [hblock]
    rfl
  have hcount : (cfg.toBlock.getD 6 0).toNat = cfg.name.1.length := by
    have hbyte : cfg.toBlock.getD 6 0 = UInt8.ofNat cfg.name.1.length := by
      rw [hblock]
      rfl
    rw [hbyte, UInt8.toNat_ofNat']
    unfold MAX_NAME_LEN at hname
    omega
  have hchars : (cfg.toBlock.drop 7).take cfg.name.1.length = cfg.name.1 := by
    rw [hblock]
    simp only [List.append_assoc]
    exact List.take_left
  have hbaud : readLe32 (cfg.toBlock.drop 40) = cfg.baud.1 := by
    rw [hblock, List.append_assoc _ (le32 cfg.baud.1), List.drop_left', readLe32_le32]
    simp only [List.length_append, le32_length, List.length_cons, List.length_nil,
      List.length_replicate]
    unfold MAX_NAME_LEN at hname
    omega
  unfold fromBlock
  rw [if_neg (by rw [hlen, hmagic]; simp), if_neg (by rw [hversion]; simp), hrole, hcount,
    Nat.min_eq_left hname]
  simp only [hchars, hbaud, Role.fromU8_code, Str31.fromUtf8_val, Baud.ofU32_val]
  rfl

end Config

/-- Load config from flash, falling back to defaults. -/
def Config.load (block : Option Bytes) : Config := (block.bind fromBlock).getD .default

/-! ## Saving -/

/-- Why the block was not written, and what the flash then holds of it where the sector was
    touched. -/
inductive FlashFailure where
  | notInitialised
  | notParked
  | eraseFailed (block : Bytes)
  | writeFailed (block : Bytes)

namespace FlashFailure

/-- What the log says of a failure. -/
def text : FlashFailure → String
  | notInitialised => "flash not initialised"
  | notParked => "core 1 did not park"
  | eraseFailed _ | writeFailed _ => "flash write failed"

/-- What a failure leaves in the sector. -/
def left (block : Bytes) : FlashFailure → Bytes
  | notInitialised | notParked => block
  | eraseFailed block | writeFailed block => block

end FlashFailure

/-- Persist `cfg`: park core 1, erase the sector, write.  The block is written, or a step
    failed. -/
def Config.save (cfg : Config) (failure : Option FlashFailure) (flash : Bytes) :
    Except String Unit × Bytes :=
  match failure with
  | some f => (.error f.text, f.left flash)
  | none => (.ok (), cfg.toBlock)

/-- The next boot finds the configuration that was written. -/
theorem Config.load_save (cfg : Config) (flash : Bytes) :
    Config.load (some (cfg.save none flash).2) = cfg := by
  rw [Config.load, Option.bind_some]
  change (fromBlock cfg.toBlock).getD .default = cfg
  rw [fromBlock_toBlock, Option.getD_some]

end TailTalk.InkTalk
