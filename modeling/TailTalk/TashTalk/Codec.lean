/-
  The TashTalk serial codec — what the adapter sends back.

  A received frame comes with each zero byte escaped as `00 FF` and ends in `00
  FD`; `00` and any other byte ends a frame that went wrong.  A stream of such
  items gives exactly the items, however it is cut (`codec_inverse`).
-/
import TailTalk.Lib.Framing
import TailTalk.TashTalk.Crc

namespace TailTalk.TashTalk

open Lib

/-! ## The decoder -/

/-- A recoverable framing problem. -/
inductive FrameError where
  | framingError
  | frameAborted
  | crcCheckFailed
  | unknownEscape (marker : UInt8)

/-- A frame, or one that went wrong. -/
inductive TashTalkEvent where
  | frame (bytes : Bytes)
  | error (e : FrameError)

/-- Fatal codec errors; the decoder itself returns none. -/
inductive TashTalkError where
  | io

/-- A control frame and its two check bytes. -/
def MIN_FRAME_LEN : ℕ := 5

/-- Undo the escapes.  The byte after a zero is not looked at. -/
def unescape : Bytes → Bytes
  | [] => []
  | b :: rest =>
    if b = 0x00 then
      match rest with
      | [] => [0x00]
      | _ :: rest => 0x00 :: unescape rest
    else b :: unescape rest

/-- The error a marker stands for, other than the end of a good frame. -/
def markerError (marker : UInt8) : FrameError :=
  if marker = 0xFE then .framingError
  else if marker = 0xFA then .frameAborted
  else if marker = 0xFC then .crcCheckFailed
  else .unknownEscape marker

/-- What a marker makes of the bytes `before` it. -/
def markerEvent (before : Bytes) (marker : UInt8) : TashTalkEvent :=
  if marker = 0xFD then
    let frame := unescape before
    if frame.length < MIN_FRAME_LEN ∨ ¬ crcOk frame then .error .crcCheckFailed else .frame frame
  else .error (markerError marker)

/-- Look for a marker in the buffer, of which `seen` was passed already. -/
def scan (seen : Bytes) : Bytes → Option (TashTalkEvent × Bytes)
  | [] => none
  | b :: rest =>
    if b ≠ 0x00 then scan (seen ++ [b]) rest
    else
      match rest with
      | [] => none
      | marker :: rest =>
        if marker = 0xFF then scan (seen ++ [0x00, 0xFF]) rest
        else some (markerEvent seen marker, rest)

/-- What the first end in the buffer ends. -/
def decode : Decoder UInt8 TashTalkError TashTalkEvent := fun src =>
  match scan [] src with
  | some (event, rest) => (.ok (some event), rest)
  | none => (.ok none, src)

/-! ## What the adapter sends -/

/-- The escapes of the adapter. -/
def escape (frame : Bytes) : Bytes :=
  frame.flatMap fun b => if b = 0x00 then [0x00, 0xFF] else [b]

/-- A frame with its end marker, or the start of a frame with an error marker. -/
inductive Item where
  | frame (bytes : Bytes)
  | failed (bytes : Bytes) (marker : UInt8)

namespace Item

/-- The bytes of an item. -/
def bytes : Item → Bytes
  | frame bytes | failed bytes _ => bytes

/-- What ends it. -/
def marker : Item → UInt8
  | frame _ => 0xFD
  | failed _ marker => marker

/-- The item on the line. -/
def wire (i : Item) : Bytes := escape i.bytes ++ [0x00, i.marker]

/-- What the item is to its receiver. -/
def event : Item → TashTalkEvent
  | frame bytes => .frame bytes
  | failed _ marker => .error (markerError marker)

/-- A frame passes the check; a failed one does not end like a frame or go on like an escape. -/
def Valid : Item → Prop
  | frame bytes => MIN_FRAME_LEN ≤ bytes.length ∧ crcOk bytes
  | failed _ marker => marker ≠ 0xFF ∧ marker ≠ 0xFD

end Item

/-! ## Escapes -/

@[simp] theorem escape_nil : escape [] = [] := rfl

theorem escape_cons (b : UInt8) (frame : Bytes) :
    escape (b :: frame) = (if b = 0x00 then [0x00, 0xFF] else [b]) ++ escape frame := rfl

theorem unescape_cons_of_ne {b : UInt8} (hb : b ≠ 0x00) (rest : Bytes) :
    unescape (b :: rest) = b :: unescape rest := by
  rw [unescape.eq_def]
  simp only [hb, if_false]

theorem scan_cons_of_ne {b : UInt8} (hb : b ≠ 0x00) (seen rest : Bytes) :
    scan seen (b :: rest) = scan (seen ++ [b]) rest := by
  rw [scan.eq_def]
  simp only [hb, ne_eq, not_false_eq_true, if_true]

@[simp] theorem unescape_escape (frame : Bytes) : unescape (escape frame) = frame := by
  induction frame with
  | nil => rfl
  | cons b frame ih =>
    rw [escape_cons]
    by_cases hb : b = 0x00
    · rw [if_pos hb, hb]
      show 0x00 :: unescape (escape frame) = 0x00 :: frame
      rw [ih]
    · rw [if_neg hb]
      show unescape (b :: escape frame) = b :: frame
      rw [unescape_cons_of_ne hb, ih]

theorem scan_escape (frame : Bytes) :
    ∀ seen rest, scan seen (escape frame ++ rest) = scan (seen ++ escape frame) rest := by
  induction frame with
  | nil => intro seen rest; rw [escape_nil, List.nil_append, List.append_nil]
  | cons b frame ih =>
    intro seen rest
    rw [escape_cons]
    by_cases hb : b = 0x00
    · rw [if_pos hb]
      show scan (seen ++ [0x00, 0xFF]) (escape frame ++ rest) = _
      rw [ih, List.append_assoc]
    · rw [if_neg hb]
      show scan seen (b :: (escape frame ++ rest)) = _
      rw [scan_cons_of_ne hb, ih, List.append_assoc]

theorem scan_front (frame : Bytes) :
    ∀ seen p, p <+: escape frame ++ [0x00] → scan seen p = none := by
  induction frame with
  | nil =>
    intro seen p hp
    match p, hp with
    | [], _ => rfl
    | [c], hp =>
      have hc : c = 0x00 := (List.cons_prefix_cons.1 hp).1
      rw [hc]
      rfl
    | c :: d :: p, hp => exact absurd hp.length_le (by simp)
  | cons b frame ih =>
    intro seen p hp
    rw [escape_cons] at hp
    by_cases hb : b = 0x00
    · rw [if_pos hb] at hp
      match p, hp with
      | [], _ => rfl
      | [c], hp =>
        have hc : c = 0x00 := (List.cons_prefix_cons.1 hp).1
        rw [hc]
        rfl
      | c :: d :: p, hp =>
        obtain ⟨hc, hp⟩ := List.cons_prefix_cons.1 hp
        obtain ⟨hd, hp⟩ := List.cons_prefix_cons.1 hp
        rw [hc, hd]
        exact ih _ p hp
    · rw [if_neg hb] at hp
      match p, hp with
      | [], _ => rfl
      | c :: p, hp =>
        obtain ⟨hc, hp⟩ := List.cons_prefix_cons.1 hp
        rw [hc, scan_cons_of_ne hb]
        exact ih _ p hp

/-! ## Items -/

theorem Item.markerEvent_eq {i : Item} (hi : i.Valid) :
    i.marker ≠ 0xFF ∧ markerEvent (escape i.bytes) i.marker = i.event := by
  cases i with
  | frame bytes =>
    obtain ⟨hlen, hcrc⟩ := hi
    refine ⟨(by decide : (0xFD : UInt8) ≠ 0xFF), ?_⟩
    show markerEvent (escape bytes) 0xFD = .frame bytes
    have hgood : ¬ (bytes.length < MIN_FRAME_LEN ∨ ¬ crcOk bytes) := by
      rintro (hshort | hbad)
      · omega
      · exact hbad hcrc
    simp only [markerEvent, if_true, unescape_escape, if_neg hgood]
  | failed bytes marker =>
    obtain ⟨hescape, hdone⟩ := hi
    refine ⟨hescape, ?_⟩
    show markerEvent (escape bytes) marker = .error (markerError marker)
    rw [markerEvent, if_neg hdone]

/-- **One item.**  The decoder takes a valid item whole and nothing of one whose end is
    missing. -/
theorem decode_delimits : Delimits decode Item.wire Item.event Item.Valid where
  idle := rfl
  whole := by
    intro i rest hi
    obtain ⟨hmarker, hevent⟩ := Item.markerEvent_eq hi
    have hscan : scan [] (i.wire ++ rest) = some (i.event, rest) := by
      rw [Item.wire, List.append_assoc, scan_escape, List.nil_append]
      show scan (escape i.bytes) (0x00 :: i.marker :: rest) = _
      rw [scan, if_neg (not_not_intro rfl)]
      show (if i.marker = 0xFF then _ else some (markerEvent (escape i.bytes) i.marker, rest)) = _
      rw [if_neg hmarker, hevent]
    simp only [decode, hscan]
  part := by
    intro i p hi hp hne
    have hfront : p <+: escape i.bytes ++ [0x00] := by
      have hsplit : i.wire = (escape i.bytes ++ [0x00]) ++ [i.marker] := by simp [Item.wire]
      rw [hsplit] at hp hne
      rcases List.prefix_concat_iff.1 hp with heq | hp
      · exact absurd heq hne
      · exact hp
    simp only [decode, scan_front i.bytes [] p hfront]

/-- **The decoder is the inverse of the adapter's encoding.**  Of a stream of valid frames and
    failed ones, cut anywhere and drained after each cut, it yields exactly the items, in order
    and once each; and whenever it is called, what it has yielded are the first items of the
    stream and what it has taken their bytes. -/
theorem codec_inverse (items : List Item) (hvalid : ∀ i ∈ items, i.Valid) :
    (∀ cuts : List Bytes, cuts.flatten = items.flatMap Item.wire →
      Reader.readCuts decode cuts =
        { buffer := [], yielded := items.map fun i => .ok i.event }) ∧
    (∀ steps : List (ReadStep UInt8), ReadStep.arrived steps <+: items.flatMap Item.wire →
      ReadSoFar Item.wire Item.event items (ReadStep.arrived steps) (ReadStep.run decode steps)) :=
  ⟨decode_delimits.readCuts_eq hvalid, decode_delimits.run_readSoFar hvalid⟩

/-- A control frame with a zero byte, cut short once and then sent whole. -/
theorem codec_inverse_retry :
    Reader.readCuts decode
        [[0x00], [0xFF, 0x00], [0xFA, 0x00, 0xFF, 0x02], [0x81, 0xFD, 0x60, 0x00, 0xFD]] =
      { buffer := []
        yielded := [.ok (.error .frameAborted), .ok (.frame [0x00, 0x02, 0x81, 0xFD, 0x60])] } :=
  (codec_inverse [.failed [0x00] 0xFA, .frame [0x00, 0x02, 0x81, 0xFD, 0x60]] (by
    intro i hi
    rcases List.mem_pair.1 hi with rfl | rfl
    · exact ⟨by decide, by decide⟩
    · exact ⟨by decide, by decide⟩)).1 _ rfl

end TailTalk.TashTalk
