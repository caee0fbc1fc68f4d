/-
  Frames of the InkTalk control protocol — a header and tagged items, with a
  pad byte after data of odd length, which a reader lets be missing at the end.
-/
import TailTalk.Lib.Bytes
import Mathlib

namespace TailTalk.InkTalk

open Lib

/-- Header bytes. -/
def HEADER_LEN : ℕ := 8

/-- Item header bytes: tag and size. -/
def ITEM_HEADER_LEN : ℕ := 6

/-- Largest frame either side sends. -/
def MAX_FRAME_LEN : ℕ := 1024

/-- Four characters, big-endian. -/
abbrev OSType := UInt32

/-- Why a frame is refused. -/
inductive FrameError where
  | short
  | tooLong
  | badItem
deriving DecidableEq

/-! ## Reading -/

/-- What stands before the items. -/
structure Header where
  seq : UInt16
  command : OSType
  result : Int16
deriving DecidableEq

/-- The header of one whole frame. -/
def Header.parse (frame : Bytes) : Except FrameError Header :=
  if frame.length < HEADER_LEN then .error .short
  else if MAX_FRAME_LEN < frame.length then .error .tooLong
  else .ok {
    seq := readBe16 frame
    command := readBe32 (frame.drop 2)
    result := (readBe16 (frame.drop 6)).toInt16 }

/-- A tag and its data. -/
structure Item where
  tag : OSType
  data : Bytes

/-- The first item of `buf` and what follows it.  The very last pad byte may be missing. -/
def splitItem (buf : Bytes) : Option (Item × Bytes) :=
  if buf.length < ITEM_HEADER_LEN then none
  else
    let tag := readBe32 buf
    let size := (readBe16 (buf.drop 4)).toNat
    let stop := ITEM_HEADER_LEN + size
    if buf.length < stop then none
    else
      let data := (buf.drop ITEM_HEADER_LEN).take size
      let next := min (stop + size % 2) buf.length
      some ({ tag, data }, buf.drop next)

theorem splitItem_lt {buf next : Bytes} {i : Item} (h : splitItem buf = some (i, next)) :
    next.length < buf.length := by
  simp only [splitItem] at h
  split_ifs at h
  cases h
  rw [List.length_drop]
  unfold ITEM_HEADER_LEN at *
  omega

/-- The items of a frame body, checked to fit it exactly. -/
structure Items where
  body : Bytes

/-- What is left to go through. -/
structure ItemIter where
  rest : Bytes

namespace Items

/-- The loop that checks a body. -/
def check (rest : Bytes) : Except FrameError Unit :=
  if rest = [] then .ok ()
  else
    match _hsplit : splitItem rest with
    | none => .error .badItem
    | some (_, next) => check next
termination_by rest.length
decreasing_by exact splitItem_lt ‹_›

/-- A body whose items fit. -/
def parse (body : Bytes) : Except FrameError Items :=
  match check body with
  | .ok () => .ok { body }
  | .error e => .error e

/-- The items after the header of `frame`. -/
def ofFrame (frame : Bytes) : Except FrameError Items :=
  if frame.length < HEADER_LEN then .error .short else parse (frame.drop HEADER_LEN)

/-- The items, one by one. -/
def iter (items : Items) : ItemIter := { rest := items.body }

end Items

namespace ItemIter

/-- The next of them. -/
def next (it : ItemIter) : Option (Item × ItemIter) :=
  match splitItem it.rest with
  | some (i, rest) => some (i, { rest })
  | none => none

theorem next_lt {it it' : ItemIter} {i : Item} (h : it.next = some (i, it')) :
    it'.rest.length < it.rest.length := by
  unfold next at h
  split at h
  · next hsplit =>
    cases h
    exact splitItem_lt hsplit
  · cases h

/-- Iterate to the end: the items, and the iterator after them. -/
def collect (it : ItemIter) : List Item × ItemIter :=
  match _hnext : it.next with
  | none => ([], it)
  | some (i, it') => (i :: it'.collect.1, it'.collect.2)
termination_by it.rest.length
decreasing_by all_goals exact next_lt ‹_›

end ItemIter

/-! ## Writing -/

/-- There is no room for the item. -/
inductive Overflow where
  | overflow

/-- `bytes` copied over part of a buffer. -/
def splice (buf : Bytes) (start : ℕ) (bytes : Bytes) : Bytes :=
  buf.take start ++ bytes ++ buf.drop (start + bytes.length)

/-- One frame being built in a caller's buffer. -/
structure FrameWriter where
  buf : Bytes
  len : ℕ

namespace FrameWriter

/-- A frame with no item. -/
def new (buf : Bytes) (seq : UInt16) (command : OSType) : Except Overflow FrameWriter :=
  if buf.length < HEADER_LEN then .error .overflow
  else
    let buf := splice buf 0 (be16 seq)
    let buf := splice buf 2 (be32 command)
    .ok { buf, len := HEADER_LEN }

/-- Add an item. -/
def item (w : FrameWriter) (tag : OSType) (data : Bytes) : Except Overflow Unit × FrameWriter :=
  let padded := data.length + data.length % 2
  let stop := w.len + ITEM_HEADER_LEN + padded
  if min w.buf.length MAX_FRAME_LEN < stop ∨ 65535 < data.length then (.error .overflow, w)
  else
    let buf := splice w.buf w.len (be32 tag)
    let buf := splice buf (w.len + 4) (be16 (UInt16.ofNat data.length))
    let buf := splice buf (w.len + 6) data
    let buf := if padded ≠ data.length then
      splice buf (w.len + ITEM_HEADER_LEN + data.length) [0] else buf
    (.ok (), { buf, len := stop })

/-- An item of one byte. -/
def boolean (w : FrameWriter) (tag : OSType) (v : Bool) : Except Overflow Unit × FrameWriter :=
  w.item tag [if v then 1 else 0]

/-- An item of two bytes. -/
def u16 (w : FrameWriter) (tag : OSType) (v : UInt16) : Except Overflow Unit × FrameWriter :=
  w.item tag (be16 v)

/-- An item of four bytes. -/
def u32 (w : FrameWriter) (tag : OSType) (v : UInt32) : Except Overflow Unit × FrameWriter :=
  w.item tag (be32 v)

/-- A Pascal string; one of more than 255 bytes is refused. -/
def pstr (w : FrameWriter) (tag : OSType) (chars : Bytes) : Except Overflow Unit × FrameWriter :=
  if 255 < chars.length then (.error .overflow, w)
  else w.item tag (UInt8.ofNat chars.length :: chars)

/-- The frame, with its result in place. -/
def finish (w : FrameWriter) (result : Int16) : Bytes :=
  (splice w.buf 6 (be16 result.toUInt16)).take w.len

end FrameWriter

/-- One push of a client of the writer. -/
inductive Push where
  | item (tag : OSType) (data : Bytes)
  | boolean (tag : OSType) (v : Bool)
  | u16 (tag : OSType) (v : UInt16)
  | u32 (tag : OSType) (v : UInt32)
  | pstr (tag : OSType) (chars : Bytes)

namespace Push

/-- The item that a call adds. -/
def added : Push → Item
  | item tag data => { tag, data }
  | boolean tag v => { tag, data := [if v then 1 else 0] }
  | u16 tag v => { tag, data := be16 v }
  | u32 tag v => { tag, data := be32 v }
  | pstr tag chars => { tag, data := UInt8.ofNat chars.length :: chars }

/-- A string that its length byte cannot count. -/
def tooLong : Push → Prop
  | pstr _ chars => 255 < chars.length
  | _ => False

instance : DecidablePred tooLong := fun p => by
  cases p <;> unfold tooLong <;> infer_instance

end Push

namespace FrameWriter

/-- The call. -/
def push (w : FrameWriter) : Push → Except Overflow Unit × FrameWriter
  | .item tag data => w.item tag data
  | .boolean tag v => w.boolean tag v
  | .u16 tag v => w.u16 tag v
  | .u32 tag v => w.u32 tag v
  | .pstr tag chars => w.pstr tag chars

/-- Some pushes one after another: the items of those that were accepted, and the writer. -/
def pushAll (w : FrameWriter) : List Push → List Item × FrameWriter
  | [] => ([], w)
  | p :: pushes =>
    match w.push p with
    | (.ok (), w) => (p.added :: (w.pushAll pushes).1, (w.pushAll pushes).2)
    | (.error _, w) => w.pushAll pushes

end FrameWriter

/-! ## Bodies -/

namespace Item

/-- An item without its pad. -/
def bytes (i : Item) : Bytes :=
  be32 i.tag ++ be16 (UInt16.ofNat i.data.length) ++ i.data

/-- An item as it is written. -/
def wire (i : Item) : Bytes := i.bytes ++ List.replicate (i.data.length % 2) 0

/-- The size field can say the size. -/
def Sized (i : Item) : Prop := i.data.length ≤ 65535

instance : DecidablePred Sized := fun i => inferInstanceAs (Decidable (i.data.length ≤ 65535))

theorem bytes_length (i : Item) : i.bytes.length = ITEM_HEADER_LEN + i.data.length := by
  simp only [bytes, List.length_append, be32_length, be16_length]
  rfl

theorem wire_length (i : Item) :
    i.wire.length = ITEM_HEADER_LEN + (i.data.length + i.data.length % 2) := by
  rw [wire, List.length_append, bytes_length, List.length_replicate]
  omega

end Item

/-- Items one after another, each with a pad byte after odd data; the last one may be missing. -/
inductive IsBody : List Item → Bytes → Prop
  | nil : IsBody [] []
  | cons {i items pad rest} : i.Sized → pad.length = i.data.length % 2 → IsBody items rest →
      IsBody (i :: items) (i.bytes ++ pad ++ rest)
  | unpadded {i} : i.Sized → i.data.length % 2 = 1 → IsBody [i] i.bytes

theorem splitItem_append {i : Item} (hi : i.Sized) (tail : Bytes) :
    splitItem (i.bytes ++ tail) = some (i, tail.drop (i.data.length % 2)) := by
  have htag : readBe32 (i.bytes ++ tail) = i.tag := by
    rw [Item.bytes, List.append_assoc, List.append_assoc, readBe32_be32]
  have hsize : (readBe16 ((i.bytes ++ tail).drop 4)).toNat = i.data.length := by
    have hdrop : (i.bytes ++ tail).drop 4 =
        be16 (UInt16.ofNat i.data.length) ++ (i.data ++ tail) := by
      rw [Item.bytes, List.append_assoc, List.append_assoc]
      exact List.drop_left' rfl
    rw [hdrop, readBe16_be16, UInt16.toNat_ofNat']
    have hle : i.data.length ≤ 65535 := hi
    omega
  have hdata : (i.bytes ++ tail).drop ITEM_HEADER_LEN = i.data ++ tail := by
    rw [Item.bytes, List.append_assoc]
    exact List.drop_left' rfl
  have hlen : (i.bytes ++ tail).length = ITEM_HEADER_LEN + i.data.length + tail.length := by
    rw [List.length_append, i.bytes_length]
  have hnext : (i.bytes ++ tail).drop
      (min (ITEM_HEADER_LEN + i.data.length + i.data.length % 2) (i.bytes ++ tail).length) =
        tail.drop (i.data.length % 2) := by
    rw [hlen, Nat.add_min_add_left, ← List.drop_drop, ← i.bytes_length, List.drop_left]
    rcases Nat.le_total (i.data.length % 2) tail.length with hle | hle
    · rw [Nat.min_eq_left hle]
    · rw [Nat.min_eq_right hle, List.drop_length, List.drop_eq_nil_of_le hle]
  simp only [splitItem, htag, hsize, hdata, hnext, List.take_left]
  rw [if_neg (by omega), if_neg (by omega)]

theorem splitItem_eq {buf next : Bytes} {i : Item} (h : splitItem buf = some (i, next)) :
    i.Sized ∧ ∃ tail, buf = i.bytes ++ tail ∧ next = tail.drop (i.data.length % 2) := by
  match buf, h with
  | t₃ :: t₂ :: t₁ :: t₀ :: s₁ :: s₀ :: rest, h =>
    have hsize := (readBe16 (s₁ :: s₀ :: rest)).toNat_lt
    have hlen : (t₃ :: t₂ :: t₁ :: t₀ :: s₁ :: s₀ :: rest).length = rest.length + 6 := rfl
    simp only [splitItem, ITEM_HEADER_LEN, List.drop_succ_cons, List.drop_zero, hlen] at h
    rw [if_neg (by omega)] at h
    split_ifs at h with hstop
    have htake : (rest.take (readBe16 (s₁ :: s₀ :: rest)).toNat).length =
        (readBe16 (s₁ :: s₀ :: rest)).toNat := by
      rw [List.length_take]
      omega
    obtain ⟨rfl, rfl⟩ := Prod.mk.inj (Option.some.inj h)
    refine ⟨?_, rest.drop (readBe16 (s₁ :: s₀ :: rest)).toNat, ?_, ?_⟩
    · show (rest.take _).length ≤ 65535
      omega
    · simp only [Item.bytes, htake, UInt16.ofNat_toNat, be32_readBe32, be16_readBe16,
        List.append_assoc, List.take_append_drop]
      rfl
    · simp only [htake]
      generalize (readBe16 (s₁ :: s₀ :: rest)).toNat = n at hstop htake hsize ⊢
      have hdrop : ∀ k, (t₃ :: t₂ :: t₁ :: t₀ :: s₁ :: s₀ :: rest).drop (6 + k) = rest.drop k := by
        intro k
        rw [Nat.add_comm, ← List.drop_drop]
        simp
      have hmin : min (6 + n + n % 2) (rest.length + 6) = 6 + min (n + n % 2) rest.length := by
        omega
      rw [hmin, hdrop, List.drop_drop]
      rcases Nat.le_total (n + n % 2) rest.length with hle | hle
      · rw [Nat.min_eq_left hle]
      · rw [Nat.min_eq_right hle, List.drop_length, List.drop_eq_nil_of_le hle]
  | [], h | [_], h | [_, _], h | [_, _, _], h | [_, _, _, _], h | [_, _, _, _, _], h => cases h

/-! ### Bodies are what is accepted -/

theorem ItemIter.collect_of_next {it it' : ItemIter} {i : Item} (h : it.next = some (i, it')) :
    it.collect = (i :: it'.collect.1, it'.collect.2) := by
  rw [collect]
  split
  · next hnone =>
    rw [h] at hnone
    cases hnone
  · next hsome =>
    rw [h] at hsome
    cases hsome
    rfl

theorem Items.check_of_split {rest next : Bytes} {i : Item} (h : splitItem rest = some (i, next)) :
    check rest = check next := by
  have hne : rest ≠ [] := by
    rintro rfl
    cases h
  rw [check, if_neg hne]
  split
  · next hnone =>
    rw [h] at hnone
    cases hnone
  · next hsome =>
    rw [h] at hsome
    cases hsome
    rfl

theorem IsBody.splitItem {i : Item} {items : List Item} {body : Bytes}
    (h : IsBody (i :: items) body) :
    ∃ rest, InkTalk.splitItem body = some (i, rest) ∧ IsBody items rest := by
  cases h with
  | @cons _ _ pad rest hi hpad hrest =>
    refine ⟨rest, ?_, hrest⟩
    rw [List.append_assoc, splitItem_append hi, ← hpad, List.drop_left]
  | unpadded hi hodd =>
    refine ⟨[], ?_, .nil⟩
    have hsplit := splitItem_append hi []
    rwa [List.append_nil, List.drop_nil] at hsplit

theorem IsBody.accepted (items : List Item) :
    ∀ body, IsBody items body → Items.check body = .ok () ∧
      ItemIter.collect { rest := body } = (items, { rest := [] }) := by
  induction items with
  | nil =>
    intro body h
    cases h
    refine ⟨by rw [Items.check, if_pos rfl], ?_⟩
    rw [ItemIter.collect]
    rfl
  | cons i items ih =>
    intro body h
    obtain ⟨rest, hsplit, hrest⟩ := h.splitItem
    obtain ⟨hcheck, hcollect⟩ := ih rest hrest
    have hnext : ItemIter.next { rest := body } = some (i, { rest }) := by
      simp only [ItemIter.next, hsplit]
    rw [Items.check_of_split hsplit, ItemIter.collect_of_next hnext, hcollect]
    exact ⟨hcheck, rfl⟩

theorem isBody_of_check (body : Bytes) (h : Items.check body = .ok ()) :
    ∃ items, IsBody items body := by
  induction hn : body.length using Nat.strong_induction_on generalizing body with
  | _ n ih =>
    by_cases hbody : body = []
    · exact ⟨[], by rw [hbody]; exact .nil⟩
    · cases hsplit : splitItem body with
      | none =>
        rw [Items.check, if_neg hbody] at h
        split at h
        · cases h
        · next hsome =>
          rw [hsplit] at hsome
          cases hsome
      | some p =>
        obtain ⟨i, next⟩ := p
        rw [Items.check_of_split hsplit] at h
        have hlt := splitItem_lt hsplit
        obtain ⟨items, hitems⟩ := ih next.length (by omega) next h rfl
        obtain ⟨hi, tail, rfl, rfl⟩ := splitItem_eq hsplit
        by_cases hpad : i.data.length % 2 ≤ tail.length
        · refine ⟨i :: items, ?_⟩
          have htail := List.take_append_drop (i.data.length % 2) tail
          rw [← htail, ← List.append_assoc]
          refine .cons hi (by rw [List.length_take]; omega) hitems
        · have hnil : tail = [] := List.eq_nil_of_length_eq_zero (by omega)
          refine ⟨[i], ?_⟩
          rw [hnil, List.append_nil]
          exact .unpadded hi (by omega)

theorem IsBody.even {items : List Item} {body : Bytes} (h : IsBody items body) :
    ∀ before i after, items = before ++ i :: after →
      ∃ front back, body = front ++ i.bytes ++ back ∧ front.length % 2 = 0 := by
  induction h with
  | nil =>
    intro before i after h
    simp at h
  | @cons j items pad rest hj hpad _ ih =>
    intro before i after h
    cases before with
    | nil =>
      cases h
      exact ⟨[], pad ++ rest, by simp, rfl⟩
    | cons _ before =>
      cases h
      obtain ⟨front, back, rfl, heven⟩ := ih before i after rfl
      refine ⟨j.bytes ++ pad ++ front, back, by simp, ?_⟩
      rw [List.length_append, List.length_append, j.bytes_length, hpad]
      unfold ITEM_HEADER_LEN
      omega
  | @unpadded j hj hodd =>
    intro before i after h
    cases before with
    | nil =>
      cases h
      exact ⟨[], [], by simp, rfl⟩
    | cons _ before =>
      simp at h

/-- **What the reader accepts** is items one after another. -/
theorem parse_iff (body : Bytes) :
    (∃ items, Items.parse body = .ok items) ↔ ∃ items, IsBody items body := by
  constructor
  · rintro ⟨items, h⟩
    unfold Items.parse at h
    split at h
    · next hcheck => exact isBody_of_check body hcheck
    · cases h
  · rintro ⟨items, h⟩
    exact ⟨{ body }, by rw [Items.parse, (h.accepted _ _).1]⟩

/-! ## What the writer holds -/

section
variable {buf : Bytes} {start : ℕ}

theorem splice_length (xs : Bytes) (h : start + xs.length ≤ buf.length) :
    (splice buf start xs).length = buf.length := by
  simp only [splice, List.length_append, List.length_take, List.length_drop]
  omega

theorem splice_splice (xs ys : Bytes) (h : start ≤ buf.length) :
    splice (splice buf start xs) (start + xs.length) ys = splice buf start (xs ++ ys) := by
  have hlen : (buf.take start ++ xs).length = start + xs.length := by
    rw [List.length_append, List.length_take, Nat.min_eq_left h]
  have htake : (splice buf start xs).take (start + xs.length) = buf.take start ++ xs := by
    rw [splice, ← hlen, List.take_left]
  have hdrop : (splice buf start xs).drop (start + xs.length + ys.length) =
      buf.drop (start + (xs ++ ys).length) := by
    rw [splice, ← List.drop_drop, ← hlen, List.drop_left, hlen, List.drop_drop, List.length_append,
      Nat.add_assoc]
  rw [splice, htake, hdrop, splice, List.append_assoc (buf.take start)]

theorem take_splice (xs : Bytes) (h : start ≤ buf.length) :
    (splice buf start xs).take (start + xs.length) = buf.take start ++ xs := by
  have hlen : (buf.take start ++ xs).length = start + xs.length := by
    rw [List.length_append, List.length_take, Nat.min_eq_left h]
  rw [splice, ← hlen, List.take_left]

end

namespace FrameWriter

theorem item_eq {w : FrameWriter} (hw : w.len ≤ w.buf.length) (i : Item) :
    w.item i.tag i.data =
      if min w.buf.length MAX_FRAME_LEN < w.len + i.wire.length ∨ ¬ i.Sized then
        (.error .overflow, w)
      else (.ok (), { buf := splice w.buf w.len i.wire, len := w.len + i.wire.length }) := by
  have hstop : w.len + ITEM_HEADER_LEN + (i.data.length + i.data.length % 2) =
      w.len + i.wire.length := by
    rw [i.wire_length, Nat.add_assoc]
  have hhead : splice (splice w.buf w.len (be32 i.tag)) (w.len + 4)
      (be16 (UInt16.ofNat i.data.length)) =
        splice w.buf w.len (be32 i.tag ++ be16 (UInt16.ofNat i.data.length)) :=
    splice_splice _ _ hw
  have hbytes : splice (splice w.buf w.len (be32 i.tag ++ be16 (UInt16.ofNat i.data.length)))
      (w.len + 6) i.data = splice w.buf w.len i.bytes := splice_splice _ _ hw
  have hpad : (if i.data.length + i.data.length % 2 ≠ i.data.length then
      splice (splice w.buf w.len i.bytes) (w.len + ITEM_HEADER_LEN + i.data.length) [0]
      else splice w.buf w.len i.bytes) = splice w.buf w.len i.wire := by
    rw [Nat.add_assoc, ← i.bytes_length, splice_splice _ _ hw, Item.wire]
    rcases Nat.mod_two_eq_zero_or_one i.data.length with heven | hodd
    · rw [heven, if_neg (by omega), List.replicate_zero, List.append_nil]
    · rw [hodd, if_pos (by omega)]
      rfl
  unfold item Item.Sized
  simp only [hhead, hbytes, hpad, hstop, not_le]

theorem push_eq (w : FrameWriter) (p : Push) :
    w.push p = if p.tooLong then (.error .overflow, w) else w.item p.added.tag p.added.data := by
  cases p with
  | pstr tag chars => rfl
  | item | boolean | u16 | u32 =>
    rw [if_neg (by unfold Push.tooLong; exact not_false)]
    rfl

/-- The frame so far is a header, whose result is still open, and `items`. -/
structure Holds (seq : UInt16) (command : OSType) (items : List Item) (w : FrameWriter) : Prop where
  header_le : HEADER_LEN ≤ w.len
  len_le : w.len ≤ min w.buf.length MAX_FRAME_LEN
  sized : ∀ i ∈ items, i.Sized
  bytes : ∃ result : Bytes, result.length = 2 ∧
    w.buf.take w.len = be16 seq ++ be32 command ++ result ++ items.flatMap Item.wire

variable {seq : UInt16} {command : OSType} {items : List Item} {w w' : FrameWriter}

theorem Holds.len_le_buf (h : Holds seq command items w) : w.len ≤ w.buf.length :=
  h.len_le.trans (Nat.min_le_left _ _)

theorem holds_new {buf : Bytes} (h : new buf seq command = .ok w) : Holds seq command [] w := by
  unfold new at h
  split_ifs at h with hshort
  cases h
  have hlen : 8 ≤ buf.length := not_lt.1 hshort
  have hcopy : splice (splice buf 0 (be16 seq)) 2 (be32 command) =
      splice buf 0 (be16 seq ++ be32 command) := splice_splice _ _ (Nat.zero_le _)
  have hsize : (be16 seq ++ be32 command).length = 6 := rfl
  refine ⟨le_rfl, ?_, by simp, (buf.drop 6).take 2, ?_, ?_⟩
  · show 8 ≤ min (splice (splice buf 0 (be16 seq)) 2 (be32 command)).length 1024
    rw [hcopy, splice_length _ (by omega)]
    omega
  · rw [List.length_take, List.length_drop]
    omega
  · show (splice (splice buf 0 (be16 seq)) 2 (be32 command)).take 8 = _
    rw [hcopy, splice, List.take_zero, List.nil_append, List.flatMap_nil, List.append_nil, hsize,
      List.take_append, hsize, List.take_of_length_le (by omega)]

theorem holds_push (h : Holds seq command items w) {p : Push} (hp : w.push p = (.ok (), w')) :
    Holds seq command (items ++ [p.added]) w' := by
  rw [push_eq] at hp
  split_ifs at hp with hlong
  · cases hp
  rw [item_eq h.len_le_buf] at hp
  split_ifs at hp with hfull
  · cases hp
  push Not at hfull
  obtain ⟨hfits, hsized⟩ := hfull
  cases hp
  obtain ⟨result, hresult, hbytes⟩ := h.bytes
  refine ⟨h.header_le.trans (Nat.le_add_right _ _), ?_, ?_, result, hresult, ?_⟩
  · show w.len + _ ≤ min (splice w.buf w.len p.added.wire).length MAX_FRAME_LEN
    rw [splice_length _ (hfits.trans (Nat.min_le_left _ _))]
    exact hfits
  · intro i hi
    rcases List.mem_append.1 hi with hi | hi
    · exact h.sized i hi
    · rw [List.mem_singleton.1 hi]
      exact hsized
  · show (splice w.buf w.len p.added.wire).take (w.len + p.added.wire.length) = _
    rw [take_splice _ h.len_le_buf, hbytes, List.flatMap_append, List.flatMap_singleton,
      List.append_assoc _ _ p.added.wire]

theorem push_refused {p : Push} {e : Overflow} (hp : w.push p = (.error e, w')) : w' = w := by
  have hitem : ∀ tag data, w.item tag data = (.error e, w') → w' = w := by
    intro tag data h
    unfold item at h
    dsimp only at h
    split_ifs at h
    · exact (Prod.mk.inj h).2.symm
    · cases h
    · cases h
  rw [push_eq] at hp
  split_ifs at hp with hlong
  · exact (Prod.mk.inj hp).2.symm
  · exact hitem _ _ hp

theorem push_error_iff (h : Holds seq command items w) (p : Push) :
    (w.push p).1 = .error .overflow ↔
      p.tooLong ∨ ¬ p.added.Sized ∨ min w.buf.length MAX_FRAME_LEN < w.len + p.added.wire.length := by
  rw [push_eq]
  by_cases hlong : p.tooLong
  · rw [if_pos hlong]
    exact ⟨fun _ => .inl hlong, fun _ => rfl⟩
  · rw [if_neg hlong, item_eq h.len_le_buf]
    split_ifs with hfull
    · exact ⟨fun _ => .inr hfull.symm, fun _ => rfl⟩
    · push Not at hfull
      constructor
      · intro h
        cases h
      · rintro (hl | hs | hf)
        · exact absurd hl hlong
        · exact absurd hfull.2 hs
        · omega

/-- **A run of pushes** holds the items of those that were accepted. -/
theorem holds_pushAll (pushes : List Push) :
    ∀ items w, Holds seq command items w →
      Holds seq command (items ++ (w.pushAll pushes).1) (w.pushAll pushes).2 := by
  induction pushes with
  | nil =>
    intro items w h
    rw [pushAll, List.append_nil]
    exact h
  | cons p pushes ih =>
    intro items w h
    cases hp : w.push p with
    | mk outcome w' =>
      cases outcome with
      | ok _ =>
        have hnext := ih _ _ (holds_push h hp)
        simp only [pushAll, hp]
        rwa [List.append_assoc, List.singleton_append] at hnext
      | error e =>
        simp only [pushAll, hp]
        rw [push_refused hp]
        exact ih _ _ h

theorem Holds.finish (h : Holds seq command items w) (result : Int16) :
    w.finish result =
      be16 seq ++ be32 command ++ be16 result.toUInt16 ++ items.flatMap Item.wire := by
  obtain ⟨unset, hunset, hbytes⟩ := h.bytes
  have hlen : 8 ≤ w.len := h.header_le
  have hsize : (be16 seq ++ be32 command).length = 6 := rfl
  have hfront : w.buf.take 6 = be16 seq ++ be32 command := by
    have htake := congrArg (List.take 6) hbytes
    rw [List.take_take, Nat.min_eq_left (by omega), List.append_assoc, ← hsize,
      List.take_left] at htake
    rw [← hsize]
    exact htake
  have hback : (w.buf.drop 8).take (w.len - 8) = items.flatMap Item.wire := by
    have hdrop := congrArg (List.drop 8) hbytes
    rw [List.drop_take, List.drop_left' (by rw [List.length_append, hsize, hunset])] at hdrop
    exact hdrop
  have hcopy : (w.buf.take 6 ++ be16 result.toUInt16).length = 8 := by
    rw [hfront]
    rfl
  rw [FrameWriter.finish, splice, List.take_append, hcopy, List.take_of_length_le (by omega),
    be16_length, hback, hfront]

end FrameWriter

theorem isBody_flatMap (items : List Item) (h : ∀ i ∈ items, i.Sized) :
    IsBody items (items.flatMap Item.wire) := by
  induction items with
  | nil => exact .nil
  | cons i items ih =>
    rw [List.flatMap_cons, Item.wire]
    exact .cons (h i List.mem_cons_self) (by rw [List.length_replicate])
      (ih fun j hj => h j (List.mem_cons_of_mem i hj))

/-- **A finished frame is read back**: its header, and the accepted items in order until the
    body is used up, each at an even offset. -/
theorem finish_holds {seq : UInt16} {command : OSType} {items : List Item} {w : FrameWriter}
    (h : w.Holds seq command items) (result : Int16) :
    Header.parse (w.finish result) = .ok { seq, command, result } ∧
      (∃ body, Items.ofFrame (w.finish result) = .ok body ∧
        body.iter.collect = (items, { rest := [] })) ∧
      ∀ before i after, items = before ++ i :: after →
        ∃ front back, w.finish result = front ++ i.bytes ++ back ∧ front.length % 2 = 0 := by
  have hfinish := h.finish result
  have hlen : (w.finish result).length = w.len := by
    have hle := h.len_le_buf
    have hheader : 8 ≤ w.len := h.header_le
    rw [FrameWriter.finish, List.length_take, splice_length _ (by rw [be16_length]; omega)]
    omega
  have hbody := isBody_flatMap items h.sized
  refine ⟨?_, ?_, ?_⟩
  · have hmin : w.len ≤ MAX_FRAME_LEN := h.len_le.trans (Nat.min_le_right _ _)
    have hheader := h.header_le
    have hcommand : (w.finish result).drop 2 =
        be32 command ++ (be16 result.toUInt16 ++ items.flatMap Item.wire) := by
      rw [hfinish, List.append_assoc, List.append_assoc]
      exact List.drop_left' rfl
    have hresult : (w.finish result).drop 6 =
        be16 result.toUInt16 ++ items.flatMap Item.wire := by
      rw [hfinish, List.append_assoc]
      exact List.drop_left' rfl
    have hseq : readBe16 (w.finish result) = seq := by
      rw [hfinish, List.append_assoc, List.append_assoc, readBe16_be16]
    rw [Header.parse, hlen, if_neg (not_lt.2 hheader), if_neg (not_lt.2 hmin), hseq, hcommand,
      hresult, readBe32_be32, readBe16_be16, Int16.toInt16_toUInt16]
  · have hdrop : (w.finish result).drop HEADER_LEN = items.flatMap Item.wire := by
      rw [hfinish]
      exact List.drop_left' rfl
    refine ⟨{ body := items.flatMap Item.wire }, ?_, (hbody.accepted _ _).2⟩
    rw [Items.ofFrame, hlen, if_neg (not_lt.2 h.header_le), hdrop, Items.parse,
      (hbody.accepted _ _).1]
  · intro before i after hitems
    obtain ⟨front, back, hsplit, heven⟩ := hbody.even before i after hitems
    refine ⟨be16 seq ++ be32 command ++ be16 result.toUInt16 ++ front, back, ?_, ?_⟩
    · rw [hfinish, hsplit]
      simp only [List.append_assoc]
    · simp only [List.length_append, be16_length, be32_length]
      omega

/-- **Framing.** Whatever is pushed into a new frame, the finished frame iterates to the accepted
    items in order, each at an even offset; a push is refused just when it does not fit, and leaves
    the frame as it was; and a body is accepted just when it is items one after another. -/
theorem framing (buf : Bytes) (seq : UInt16) (command : OSType) (w : FrameWriter)
    (hnew : FrameWriter.new buf seq command = .ok w) (pushes : List Push) :
    (∀ result : Int16, ∀ frame, frame = (w.pushAll pushes).2.finish result →
      Header.parse frame = .ok { seq, command, result } ∧
      (∃ body, Items.ofFrame frame = .ok body ∧
        body.iter.collect = ((w.pushAll pushes).1, { rest := [] })) ∧
      ∀ before i after, (w.pushAll pushes).1 = before ++ i :: after →
        ∃ front back, frame = front ++ i.bytes ++ back ∧ front.length % 2 = 0) ∧
    (∀ p : Push,
      (((w.pushAll pushes).2.push p).1 = .error .overflow ↔
        p.tooLong ∨ ¬ p.added.Sized ∨
          min (w.pushAll pushes).2.buf.length MAX_FRAME_LEN <
            (w.pushAll pushes).2.len + p.added.wire.length) ∧
      (((w.pushAll pushes).2.push p).1 = .error .overflow →
        ((w.pushAll pushes).2.push p).2 = (w.pushAll pushes).2)) ∧
    ∀ body : Bytes,
      ((∃ items, Items.parse body = .ok items) ↔ ∃ items, IsBody items body) ∧
      ∀ items, IsBody items body → ItemIter.collect { rest := body } = (items, { rest := [] }) ∧
        ∀ before i after, items = before ++ i :: after →
          ∃ front back, body = front ++ i.bytes ++ back ∧ front.length % 2 = 0 := by
  have hholds := FrameWriter.holds_pushAll pushes [] w (FrameWriter.holds_new hnew)
  rw [List.nil_append] at hholds
  refine ⟨?_, fun p => ⟨FrameWriter.push_error_iff hholds p, fun hp => ?_⟩, fun body =>
    ⟨parse_iff body, fun items hbody => ⟨(hbody.accepted _ _).2, hbody.even⟩⟩⟩
  · rintro result frame rfl
    exact finish_holds hholds result
  · exact FrameWriter.push_refused (Prod.ext hp rfl)

/-- A reply of two items in a buffer that a third would not fit. -/
theorem framing_reply :
    ∃ body, Items.ofFrame [0, 7, 0x49, 0x4E, 0x46, 0x4F, 0, 0, 0x72, 0x6F, 0x6C, 0x65, 0, 2, 0, 1,
        0x6A, 0x6F, 0x62, 0x20, 0, 1, 1, 0] = .ok body ∧
      body.iter.collect = ([{ tag := 0x726F6C65, data := [0, 1] },
        { tag := 0x6A6F6220, data := [1] }], { rest := [] }) :=
  ((framing (List.replicate 26 0xAA) 7 0x494E464F
    { buf := [0, 7, 0x49, 0x4E, 0x46, 0x4F] ++ List.replicate 20 0xAA, len := 8 } rfl
    [.u16 0x726F6C65 1, .boolean 0x6A6F6220 true, .u32 0x62617564 9600]).1 0 _ rfl).2.1

/-- A body without its last pad byte is accepted, though it is no run of even pieces. -/
theorem missing_pad_accepted :
    (∃ items, Items.parse [0x6A, 0x6F, 0x62, 0x20, 0, 1, 1] = .ok items) ∧
      ∀ parts : List Bytes, (∀ part ∈ parts, part.length % 2 = 0) →
        parts.flatten ≠ [0x6A, 0x6F, 0x62, 0x20, 0, 1, 1] := by
  have heven : ∀ parts : List Bytes, (∀ part ∈ parts, part.length % 2 = 0) →
      parts.flatten.length % 2 = 0 := by
    intro parts
    induction parts with
    | nil => intro _; rfl
    | cons part parts ih =>
      intro h
      have hpart := h part List.mem_cons_self
      have hparts := ih fun q hq => h q (List.mem_cons_of_mem part hq)
      rw [List.flatten_cons, List.length_append]
      omega
  refine ⟨(parse_iff _).2 ⟨[{ tag := 0x6A6F6220, data := [1] }], ?_⟩, fun parts h heq => ?_⟩
  · exact @IsBody.unpadded { tag := 0x6A6F6220, data := [1] } (by decide) rfl
  · have hlen := heven parts h
    rw [heq] at hlen
    cases hlen

end TailTalk.InkTalk
