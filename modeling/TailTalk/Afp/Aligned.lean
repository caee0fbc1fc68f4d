/-
  Data after a path — what the parsers make of fields that a client puts at the
  next even offset.

  Two parsers skip the padding there.  FPAddComment counts the path one byte
  short, and FPSetDirParms reads on right after the path and takes no account
  of parameters that it does not keep.
-/
import TailTalk.Afp.Fields
import TailTalk.Afp.MacStrings

namespace TailTalk

open Lib

/-! ## What a client sends -/

/-- The fields of a request up to its path, and the byte it would pad with. -/
structure RequestHead where
  number : UInt16
  directoryId : UInt32
  pathType : UInt8
  pad : UInt8

/-- Padding up to the next even offset. -/
def aligned (head : Bytes) (pad : UInt8) : Bytes :=
  if head.length % 2 = 0 then head else head ++ [pad]

theorem aligned_length (head : Bytes) (pad : UInt8) :
    (aligned head pad).length = evenUp head.length := by
  unfold aligned evenUp
  split
  · omega
  · rw [List.length_append, List.length_singleton]
    omega

/-- A comment for the object at a path. -/
def commentCommand (h : RequestHead) (path comment : PascalString) : Bytes :=
  aligned (be16 h.number ++ be32 h.directoryId ++ h.pathType :: path.wire) h.pad ++ comment.wire

/-- Parameters for the object at a path. -/
def parmsCommand (h : RequestHead) (bitmap : Bitmap) (path : PascalString) (block : Bytes) : Bytes :=
  aligned (be16 h.number ++ be32 h.directoryId ++ be16 bitmap ++ h.pathType :: path.wire) h.pad ++
    block

section

variable [MacRoman]

/-- The text of a path, and the bytes it took. -/
def PascalString.text (path : PascalString) : MacString :=
  ⟨path.data.map MacRoman.toChar, some (1 + path.data.length)⟩

/-- What the decoder makes of it. -/
def PascalString.read (path : PascalString) : MacString :=
  ⟨MacRoman.decode path.data, some (1 + path.data.length)⟩

theorem stringField_bind {σ α : Type} {buf : Bytes} {i : ℕ} (pre : Bytes) (path : PascalString)
    (rest : Bytes) {f : MacString → Proc σ AfpError α} (hbuf : buf = pre ++ path.wire ++ rest)
    (hi : i = pre.length) : (stringField buf i >>= f) = f path.read := by
  subst hbuf hi
  have hrest : sliceFrom (pre ++ path.wire ++ rest) pre.length = .ok (path.wire ++ rest) := by
    rw [sliceFrom_eq (by simp), List.append_assoc, List.drop_left]
  rw [stringField, hrest]
  change (Proc.ofExcept (MacString.parse (path.wire ++ rest)) >>= f) = _
  rw [MacString.parse_wire]
  rfl

/-! ## Blocks after padding -/

/-- The parser returns the path and the block, whatever they are. -/
def ParmsRecovered (parse : Bytes → Afp (ObjectRequest × Bytes)) (path : PascalString) : Prop :=
  ∀ h bitmap block, parse (parmsCommand h bitmap path block) =
    pure (⟨h.directoryId.toNat, bitmap &&& FileParm.all, path.text⟩, block)

omit [MacRoman] in
theorem wire_length (path : PascalString) : path.wire.length = 1 + path.data.length := by
  rw [PascalString.wire, List.length_cons, Nat.add_comm]

omit [MacRoman] in
theorem aligned_eq (head : Bytes) (pad : UInt8) : ∃ rest, aligned head pad = head ++ rest := by
  unfold aligned
  split
  · exact ⟨[], (List.append_nil head).symm⟩
  · exact ⟨_, rfl⟩

omit [MacRoman] in
theorem parmsCommand_eq (h : RequestHead) (bitmap : Bitmap) (path : PascalString) (block : Bytes) :
    ∃ rest, parmsCommand h bitmap path block =
      be16 h.number ++ be32 h.directoryId ++ be16 bitmap ++ [h.pathType] ++ path.wire ++ rest := by
  obtain ⟨rest, hrest⟩ := aligned_eq
    (be16 h.number ++ be32 h.directoryId ++ be16 bitmap ++ h.pathType :: path.wire) h.pad
  refine ⟨rest ++ block, ?_⟩
  rw [parmsCommand, hrest]
  simp

theorem parseObject_eq (h : RequestHead) (bitmap : Bitmap) (path : PascalString) (block : Bytes) :
    (parseObject 10 2 9 (some (6, FileParm.all)) (parmsCommand h bitmap path block) : Afp _) =
      pure ⟨h.directoryId.toNat, bitmap &&& FileParm.all, path.read⟩ := by
  obtain ⟨rest, hbuf⟩ := parmsCommand_eq h bitmap path block
  rw [hbuf]
  refine (need_bind _ (by simp [wire_length]; omega)).trans ?_
  refine (longField_bind (be16 h.number) h.directoryId
    (be16 bitmap ++ [h.pathType] ++ path.wire ++ rest) (by simp) rfl).trans ?_
  refine (wordField_bind (be16 h.number ++ be32 h.directoryId) bitmap
    ([h.pathType] ++ path.wire ++ rest) (by simp) rfl).trans ?_
  exact stringField_bind _ path rest rfl rfl

theorem parseWithParams_eq (h : RequestHead) (bitmap : Bitmap) (path : PascalString)
    (block : Bytes) : (parseWithParams (parmsCommand h bitmap path block) : Afp _) =
      pure (⟨h.directoryId.toNat, bitmap &&& FileParm.all, path.read⟩, block) := by
  rw [parseWithParams, parseObject_eq]
  have hslice : sliceFrom (parmsCommand h bitmap path block) (evenUp (9 + (1 + path.data.length))) =
      .ok block := by
    have hlen : (aligned (be16 h.number ++ be32 h.directoryId ++ be16 bitmap ++
        h.pathType :: path.wire) h.pad).length = evenUp (9 + (1 + path.data.length)) := by
      rw [aligned_length]
      congr 1
      simp [wire_length]
      omega
    rw [parmsCommand, ← hlen, sliceFrom_eq (by simp), List.drop_left]
  change (Proc.lift (sliceFrom _ (evenUp (9 + (1 + path.data.length)))) >>= _) = _
  rw [hslice]
  rfl

/-! ## A comment -/

/-- The parser returns the path and the comment, whatever they are. -/
def CommentRecovered (path : PascalString) : Prop :=
  ∀ h comment, (FPAddComment.parse (commentCommand h path comment) : Afp _) =
    pure ⟨h.directoryId.toNat, path.text, comment.data⟩

/-- The path is read as it was sent; the comment is looked for at an offset that is one less. -/
theorem addComment_eq (h : RequestHead) (path comment : PascalString) :
    (FPAddComment.parse (commentCommand h path comment) : Afp _) =
      (commentField (commentCommand h path comment) (evenUp (7 + path.data.length)) >>= fun c =>
        pure ⟨h.directoryId.toNat, path.read, c⟩) := by
  obtain ⟨rest, hrest⟩ := aligned_eq (be16 h.number ++ be32 h.directoryId ++
    h.pathType :: path.wire) h.pad
  have hbuf : commentCommand h path comment = be16 h.number ++ be32 h.directoryId ++
      [h.pathType] ++ path.wire ++ (rest ++ comment.wire) := by
    rw [commentCommand, hrest]
    simp
  have hlen : 7 < (commentCommand h path comment).length := by
    rw [hbuf]
    simp [wire_length]
    omega
  refine (need_bind _ (Nat.le_of_lt hlen)).trans ?_
  refine (longField_bind (be16 h.number) h.directoryId
    ([h.pathType] ++ path.wire ++ (rest ++ comment.wire)) (by rw [hbuf]; simp) rfl).trans ?_
  rw [if_pos hlen]
  refine (stringField_bind _ path (rest ++ comment.wire) hbuf rfl).trans ?_
  have hoffset : 7 + path.read.byteLen - 1 = 7 + path.data.length := by
    change 7 + (1 + path.data.length) - 1 = _
    omega
  dsimp only
  rw [hoffset]

omit [MacRoman] in
theorem commentField_eq (pre : Bytes) (comment : PascalString) :
    (commentField (pre ++ comment.wire) pre.length : Afp _) = pure comment.data := by
  have hlen : (UInt8.ofNat comment.data.length).toNat = comment.data.length := by
    have hshort := comment.short
    rw [UInt8.toNat_ofNat', Nat.mod_eq_of_lt (by omega)]
  rw [commentField, if_pos (by simp [wire_length])]
  refine (byteField_bind pre _ comment.data rfl rfl).trans ?_
  rw [hlen]
  split
  · have hslice := slice_between (pre ++ [UInt8.ofNat comment.data.length]) comment.data []
    rw [List.append_nil, List.length_append, List.length_singleton] at hslice
    rw [PascalString.wire, ← List.singleton_append, ← List.append_assoc, hslice]
    rfl
  · rename_i hempty
    have hnil : comment.data = [] := by
      refine List.eq_nil_of_length_eq_zero ?_
      rw [List.length_append, wire_length] at hempty
      omega
    rw [hnil]

omit [MacRoman] in
/-- What is found at an offset starts with the byte after it. -/
theorem commentField_head (buf : Bytes) (i : ℕ) (v : Volume) :
    Proc.wp True (commentField buf i : Afp _)
      (fun r _ => ∀ c, r = .ok c → c = [] ∨ c.head? = buf[i + 1]?) v := by
  have hnil : ∀ c : Bytes, (.ok [] : Except AfpError Bytes) = .ok c →
      c = [] ∨ c.head? = buf[i + 1]? := fun c h => Or.inl (Except.ok.inj h).symm
  simp only [commentField, byteField, Proc.wp_ite, Proc.wp_bind, Proc.wp_lift, Proc.next_ok,
    Proc.wp_pure]
  refine ⟨fun _ => ⟨fun len _ => ⟨fun hfits => ⟨fun raw hraw c hc => ?_, fun _ => trivial⟩,
    fun _ => hnil⟩, fun _ => trivial⟩, fun _ => hnil⟩
  obtain rfl := Except.ok.inj hc
  rw [slice_eq (by omega) hfits.2] at hraw
  obtain rfl := Except.ok.inj hraw
  rw [List.head?_drop, List.getElem?_take_of_lt (by omega)]
  exact Or.inr rfl

theorem CommentRecovered.even {path : PascalString} (h : CommentRecovered path) :
    path.data.length % 2 = 0 := by
  by_contra hodd
  set head := be16 0 ++ be32 0 ++ (0 : UInt8) :: path.wire with hhead
  have hlen : head.length = 8 + path.data.length := by
    simp [hhead, wire_length]
    omega
  have hbuf : commentCommand ⟨0, 0, 0, 0⟩ path ⟨[1], by decide⟩ = head ++ [0] ++ [1, 1] := by
    rw [commentCommand, aligned, if_neg (by rw [← hhead, hlen]; omega)]
    rfl
  have hpad : (commentCommand ⟨0, 0, 0, 0⟩ path ⟨[1], by decide⟩)[7 + path.data.length + 1]? =
      some 0 := by
    rw [hbuf, List.append_assoc, List.getElem?_append_right (by omega),
      show 7 + path.data.length + 1 - head.length = 0 by omega]
    rfl
  have hrun := congrFun (h ⟨0, 0, 0, 0⟩ ⟨[1], by decide⟩) (Volume.ofEntries [])
  rw [addComment_eq, show evenUp (7 + path.data.length) = 7 + path.data.length by
    unfold evenUp; omega] at hrun
  have hspec : Proc.wp True (commentField (commentCommand ⟨0, 0, 0, 0⟩ path ⟨[1], by decide⟩)
      (7 + path.data.length) >>= fun c => pure (⟨(0 : UInt32).toNat, path.read, c⟩ : FPAddComment))
      (fun r _ => ∀ req, r = .ok req → req.comment = [] ∨ req.comment.head? = some 0)
      (Volume.ofEntries []) := by
    rw [Proc.wp_bind]
    refine Proc.wp_mono (commentField_head _ _ _) ?_
    rintro (e | c) v' hc req hreq
    · cases hreq
    · obtain rfl := Except.ok.inj hreq
      rw [← hpad]
      exact hc c rfl
  rcases Proc.wp_ok hrun hspec _ rfl with hnil | hhead
  · cases hnil
  · exact absurd hhead (show some (1 : UInt8) ≠ some 0 by decide)

theorem CommentRecovered.read_eq {path : PascalString} (h : CommentRecovered path) :
    path.read = path.text := by
  have hrun := congrFun (h ⟨0, 0, 0, 0⟩ ⟨[], by decide⟩) (Volume.ofEntries [])
  rw [addComment_eq] at hrun
  have hspec : Proc.wp True (commentField (commentCommand ⟨0, 0, 0, 0⟩ path ⟨[], by decide⟩)
      (evenUp (7 + path.data.length)) >>= fun c =>
        pure (⟨(0 : UInt32).toNat, path.read, c⟩ : FPAddComment))
      (fun r _ => ∀ req, r = .ok req → req.path = path.read) (Volume.ofEntries []) := by
    rw [Proc.wp_bind]
    refine Proc.wp_mono (commentField_head _ _ _) ?_
    rintro (e | c) v' - req hreq
    · cases hreq
    · obtain rfl := Except.ok.inj hreq
      rfl
  exact (Proc.wp_ok hrun hspec _ rfl).symm

theorem addComment_recovers {path : PascalString} (hread : path.read = path.text)
    (heven : path.data.length % 2 = 0) : CommentRecovered path := by
  intro h comment
  have hlen : (aligned (be16 h.number ++ be32 h.directoryId ++ h.pathType :: path.wire)
      h.pad).length = evenUp (7 + path.data.length) := by
    rw [aligned_length]
    simp only [List.length_append, be16_length, be32_length, List.length_cons, wire_length, evenUp]
    omega
  rw [addComment_eq, ← hlen, commentCommand, commentField_eq, hread]
  rfl

end

/-! ## Parameters of a directory -/

/-- The bytes of a parameter, any at all. -/
def parmBytes (fill : Bitmap → ℕ → UInt8) (f : Bitmap × ℕ) : Bytes :=
  (List.range f.2).map (fill f.1)

@[simp] theorem parmBytes_length (fill : Bitmap → ℕ → UInt8) (f : Bitmap × ℕ) :
    (parmBytes fill f).length = f.2 := by
  simp [parmBytes]

/-- The parameters that a bitmap asks for, packed. -/
def parmBlock (fill : Bitmap → ℕ → UInt8) (bitmap : Bitmap) (widths : List (Bitmap × ℕ)) : Bytes :=
  widths.flatMap fun f => if bitmap.has f.1 then parmBytes fill f else []

theorem parmBlock_length (fill : Bitmap → ℕ → UInt8) (bitmap : Bitmap)
    (widths : List (Bitmap × ℕ)) :
    (parmBlock fill bitmap widths).length = fieldsLen widths bitmap := by
  rw [parmBlock, List.length_flatMap, fieldsLen]
  congr 2
  funext f
  split
  · rw [parmBytes_length]
  · rfl

/-- The parameters that the parser keeps. -/
def takenWidths : List (Bitmap × ℕ) :=
  [(Parm.ATTRIBUTES, 2), (Parm.FINDER_INFO, 32), (DirParm.OWNER_ID, 4), (DirParm.GROUP_ID, 4),
    (DirParm.ACCESS_RIGHTS, 4)]

/-- The parameters that come before one. -/
def before (widths : List (Bitmap × ℕ)) (f : Bitmap × ℕ) : List (Bitmap × ℕ) :=
  widths.takeWhile (· ≠ f)

/-- Where a parameter is read, and where it was sent. -/
def readAt (path : PascalString) (bitmap : Bitmap) (f : Bitmap × ℕ) : ℕ :=
  10 + path.data.length + fieldsLen (before takenWidths f) bitmap

/-- Where a client puts a parameter. -/
def sentAt (path : PascalString) (bitmap : Bitmap) (f : Bitmap × ℕ) : ℕ :=
  evenUp (10 + path.data.length) + fieldsLen (before dirWidths f) bitmap

theorem fieldsLen_filter (widths : List (Bitmap × ℕ)) (bitmap : Bitmap)
    (p : Bitmap × ℕ → Bool) : fieldsLen widths bitmap =
      fieldsLen (widths.filter p) bitmap + fieldsLen (widths.filter fun f => !p f) bitmap := by
  induction widths with
  | nil => rfl
  | cons f widths ih =>
    simp only [fieldsLen] at ih ⊢
    cases hp : p f with
    | true =>
      simp [hp, ih]
      omega
    | false =>
      simp [hp, ih]
      omega

theorem fieldsLen_eq_zero_iff {widths : List (Bitmap × ℕ)} (hpos : ∀ f ∈ widths, 0 < f.2)
    {bitmap : Bitmap} : fieldsLen widths bitmap = 0 ↔ ∀ f ∈ widths, bitmap.has f.1 = false := by
  rw [fieldsLen, List.sum_eq_zero_iff]
  simp only [List.mem_map, forall_exists_index, and_imp, forall_apply_eq_imp_iff₂]
  refine forall₂_congr fun f hf => ?_
  have := hpos f hf
  cases bitmap.has f.1 with
  | true => simp; omega
  | false => simp

/-- Nothing before the parameter is skipped: no padding, and no parameter that is not kept. -/
def Unskipped (path : PascalString) (bitmap : Bitmap) (f : Bitmap × ℕ) : Prop :=
  path.data.length % 2 = 0 ∧ ∀ g ∈ before dirWidths f, g ∉ takenWidths → bitmap.has g.1 = false

instance (path : PascalString) (bitmap : Bitmap) (f : Bitmap × ℕ) :
    Decidable (Unskipped path bitmap f) := inferInstanceAs (Decidable (_ ∧ _))

/-- What is skipped is all that is between where a parameter is read and where it was sent. -/
theorem sentAt_eq {path : PascalString} {bitmap : Bitmap} {f : Bitmap × ℕ} (hf : f ∈ takenWidths) :
    sentAt path bitmap f = readAt path bitmap f + path.data.length % 2 +
      fieldsLen ((before dirWidths f).filter fun g => !decide (g ∈ takenWidths)) bitmap := by
  have hkept : ∀ f ∈ takenWidths, (before dirWidths f).filter (fun g => decide (g ∈ takenWidths)) =
      before takenWidths f := by decide
  rw [sentAt, readAt, fieldsLen_filter (before dirWidths f) bitmap fun g => decide (g ∈ takenWidths),
    hkept f hf, evenUp]
  omega

theorem unskipped_iff {path : PascalString} {bitmap : Bitmap} {f : Bitmap × ℕ}
    (hf : f ∈ takenWidths) :
    Unskipped path bitmap f ↔ readAt path bitmap f = sentAt path bitmap f := by
  have hpos : ∀ g ∈ (before dirWidths f).filter (fun g => !decide (g ∈ takenWidths)), 0 < g.2 := by
    have hall : ∀ g ∈ dirWidths, 0 < g.2 := by decide
    intro g hg
    exact hall g ((List.takeWhile_prefix _).subset (List.mem_of_mem_filter hg))
  have hsent := @sentAt_eq path bitmap f hf
  have hzero := @fieldsLen_eq_zero_iff _ hpos bitmap
  simp only [List.mem_filter, and_imp, Bool.not_eq_true', decide_eq_false_iff_not] at hzero
  rw [Unskipped, ← hzero]
  omega

/-- The bits that the directory bitmap has names for. -/
def dirBits (word : UInt16) : Bitmap := word &&& DirParm.all

/-- Parameters for a directory, as a client packs them. -/
def dirParmsCommand (h : RequestHead) (word : UInt16) (path : PascalString)
    (fill : Bitmap → ℕ → UInt8) : Bytes :=
  parmsCommand h word path (parmBlock fill (dirBits word) dirWidths)

/-- What comes before one of them. -/
def lead (h : RequestHead) (word : UInt16) (path : PascalString) (fill : Bitmap → ℕ → UInt8)
    (f : Bitmap × ℕ) : Bytes :=
  aligned (be16 h.number ++ be32 h.directoryId ++ be16 word ++ h.pathType :: path.wire) h.pad ++
    parmBlock fill (dirBits word) (before dirWidths f)

section

variable {h : RequestHead} {word : UInt16} {path : PascalString} {fill : Bitmap → ℕ → UInt8}
  {f : Bitmap × ℕ}

theorem head_length : (be16 h.number ++ be32 h.directoryId ++ be16 word ++
    h.pathType :: path.wire).length = 10 + path.data.length := by
  simp [wire_length]
  omega

theorem lead_length : (lead h word path fill f).length = sentAt path (dirBits word) f := by
  rw [lead, List.length_append, aligned_length, parmBlock_length, head_length, sentAt]

theorem dirParmsCommand_split (hf : f ∈ takenWidths) (hhas : (dirBits word).has f.1 = true) :
    ∃ rest, dirParmsCommand h word path fill =
      lead h word path fill f ++ parmBytes fill f ++ rest := by
  have hsplit : ∀ f ∈ takenWidths,
      dirWidths = before dirWidths f ++ f :: (dirWidths.dropWhile (· ≠ f)).tail := by decide
  refine ⟨parmBlock fill (dirBits word) (dirWidths.dropWhile (· ≠ f)).tail, ?_⟩
  conv_lhs => rw [dirParmsCommand, parmsCommand, hsplit f hf]
  rw [parmBlock, List.flatMap_append, List.flatMap_cons, if_pos hhas, lead, parmBlock, parmBlock]
  simp only [List.append_assoc]

/-- The bytes at an offset. -/
def window (buf : Bytes) (offset n : ℕ) : Bytes := (buf.take (offset + n)).drop offset

theorem window_sent (hf : f ∈ takenWidths) (hhas : (dirBits word).has f.1 = true) :
    window (dirParmsCommand h word path fill) (sentAt path (dirBits word) f) f.2 =
      parmBytes fill f := by
  obtain ⟨rest, hrest⟩ := dirParmsCommand_split hf hhas
  rw [hrest, window, ← lead_length, ← parmBytes_length fill f, ← List.length_append,
    List.take_left, List.drop_left]

theorem readAt_le_sentAt (hf : f ∈ takenWidths) (bitmap : Bitmap) :
    readAt path bitmap f ≤ sentAt path bitmap f := by
  rw [sentAt_eq hf]
  omega

theorem readAt_fits (hf : f ∈ takenWidths) (hhas : (dirBits word).has f.1 = true) :
    readAt path (dirBits word) f + f.2 ≤ (dirParmsCommand h word path fill).length := by
  obtain ⟨rest, hrest⟩ := @dirParmsCommand_split h word path fill f hf hhas
  have hle := @readAt_le_sentAt path f hf (dirBits word)
  rw [hrest, List.length_append, List.length_append, lead_length, parmBytes_length]
  omega

/-- What the parser takes for a parameter. -/
def taken {α : Type} (buf : Bytes) (path : PascalString) (bitmap : Bitmap) (f : Bitmap × ℕ)
    (read : Bytes → α) : Option α :=
  if bitmap.has f.1 then some (read (window buf (readAt path bitmap f) f.2)) else none

/-- What it is to take. -/
def sent {α : Type} (fill : Bitmap → ℕ → UInt8) (bitmap : Bitmap) (f : Bitmap × ℕ)
    (read : Bytes → α) : Option α :=
  if bitmap.has f.1 then some (read (parmBytes fill f)) else none

/-- Each parameter is read after the one before it. -/
theorem readAt_next {f g : Bitmap × ℕ} (hnext : before takenWidths g = before takenWidths f ++ [f])
    (bitmap : Bitmap) : readAt path bitmap g =
      readAt path bitmap f + if bitmap.has f.1 then f.2 else 0 := by
  rw [readAt, readAt, hnext, fieldsLen, fieldsLen, List.map_append, List.sum_append,
    List.map_singleton, List.sum_singleton]
  exact (Nat.add_assoc _ _ _).symm

theorem takenField_bind {α β σ : Type} {offset : ℕ} {read : Bytes → α}
    {next : Option α × ℕ → Proc σ AfpError β} (hf : f ∈ takenWidths)
    (hoffset : offset = readAt path (dirBits word) f) :
    (optionalField (dirParmsCommand h word path fill) ((dirBits word).has f.1) f.2 offset read >>=
      next) = next (taken (dirParmsCommand h word path fill) path (dirBits word) f read,
        readAt path (dirBits word) f + if (dirBits word).has f.1 then f.2 else 0) := by
  subst hoffset
  unfold optionalField taken
  cases hhas : (dirBits word).has f.1 with
  | false => rfl
  | true =>
    have hle := @readAt_fits h word path fill f hf hhas
    rw [if_pos rfl, if_neg (by omega), slice_eq (by omega) hle]
    rfl

/-- The request with a value for each parameter that is kept. -/
def dirRequest (h : RequestHead) (word : UInt16) (path : MacString)
    (value : ∀ {α : Type}, Bitmap × ℕ → (Bytes → α) → Option α) : FPSetDirParms where
  directoryId := h.directoryId.toNat
  dirBitmap := dirBits word
  path := path
  attributes := value (Parm.ATTRIBUTES, 2) fun raw => readBe16 raw &&& FILE_ATTRIBUTES
  finderInfo := value (Parm.FINDER_INFO, 32) id
  ownerId := value (DirParm.OWNER_ID, 4) fun raw => (readBe32 raw).toNat
  groupId := value (DirParm.GROUP_ID, 4) fun raw => (readBe32 raw).toNat
  access := value (DirParm.ACCESS_RIGHTS, 4) fun raw => (field raw 0 4).map (· &&& RIGHTS)

variable [MacRoman]

theorem setDirParms_eq (h : RequestHead) (word : UInt16) (path : PascalString)
    (fill : Bitmap → ℕ → UInt8) :
    (FPSetDirParms.parse (dirParmsCommand h word path fill) : Afp _) =
      pure (dirRequest h word path.read (taken (dirParmsCommand h word path fill) path
        (dirBits word))) := by
  obtain ⟨rest, hbuf⟩ := parmsCommand_eq h word path (parmBlock fill (dirBits word) dirWidths)
  rw [← dirParmsCommand] at hbuf
  refine (need_bind _ (by rw [hbuf]; simp; omega)).trans ?_
  refine (longField_bind (be16 h.number) h.directoryId (be16 word ++ [h.pathType] ++ path.wire ++
    rest) (by rw [hbuf]; simp) rfl).trans ?_
  refine (wordField_bind (be16 h.number ++ be32 h.directoryId) word ([h.pathType] ++ path.wire ++
    rest) (by rw [hbuf]; simp) rfl).trans ?_
  refine (stringField_bind _ path rest hbuf rfl).trans ?_
  have hstart : 9 + path.read.byteLen = 10 + path.data.length := by
    change 9 + (1 + path.data.length) = _
    omega
  dsimp only
  rw [hstart]
  refine (@takenField_bind h word path fill (Parm.ATTRIBUTES, 2) _ _ _ _ _ _ (by decide)
    rfl).trans ?_
  refine (@takenField_bind h word path fill (Parm.FINDER_INFO, 32) _ _ _ _ _ _ (by decide)
    (readAt_next (by decide) _).symm).trans ?_
  refine (@takenField_bind h word path fill (DirParm.OWNER_ID, 4) _ _ _ _ _ _ (by decide)
    (readAt_next (by decide) _).symm).trans ?_
  refine (@takenField_bind h word path fill (DirParm.GROUP_ID, 4) _ _ _ _ _ _ (by decide)
    (readAt_next (by decide) _).symm).trans ?_
  exact @takenField_bind h word path fill (DirParm.ACCESS_RIGHTS, 4) _ _ _ _ _ _ (by decide)
    (readAt_next (by decide) _).symm

/-- The parser returns the path and every parameter that it keeps, whatever they are. -/
def DirRecovered (word : UInt16) (path : PascalString) : Prop :=
  ∀ h fill, (FPSetDirParms.parse (dirParmsCommand h word path fill) : Afp _) =
    pure (dirRequest h word path.text (sent fill (dirBits word)))

theorem setDirParms_recovers (hread : path.read = path.text)
    (hunskipped : ∀ f ∈ takenWidths, (dirBits word).has f.1 = true →
      Unskipped path (dirBits word) f) : DirRecovered word path := by
  intro h fill
  have hsame : ∀ f ∈ takenWidths, ∀ {α : Type} (read : Bytes → α),
      taken (dirParmsCommand h word path fill) path (dirBits word) f read =
        sent fill (dirBits word) f read := by
    intro f hf α read
    unfold taken sent
    split
    · rename_i hhas
      rw [(unskipped_iff hf).1 (hunskipped f hf hhas), window_sent hf hhas]
    · rfl
  rw [setDirParms_eq, hread, dirRequest, dirRequest, hsame _ (by decide), hsame _ (by decide),
    hsame _ (by decide), hsame _ (by decide), hsame _ (by decide)]

/-- One parameter of all ones among zeros. -/
def ones (f : Bitmap × ℕ) : Bitmap → ℕ → UInt8 := fun mask _ => if mask = f.1 then 0xFF else 0

omit [MacRoman] in
/-- What is read too early starts with a zero. -/
theorem window_skipped {h : RequestHead} (hf : f ∈ takenWidths) (hpad : h.pad = 0)
    (hhas : (dirBits word).has f.1 = true)
    (hlt : readAt path (dirBits word) f < sentAt path (dirBits word) f) :
    ∃ raw, window (dirParmsCommand h word path (ones f)) (readAt path (dirBits word) f) f.2 =
      0 :: raw := by
  have hzero : ∀ b ∈ (lead h word path (ones f) f).drop (10 + path.data.length), b = 0 := by
    have hother : ∀ f ∈ takenWidths, ∀ g ∈ before dirWidths f, g.1 ≠ f.1 := by decide
    have hblock : ∀ b ∈ parmBlock (ones f) (dirBits word) (before dirWidths f), b = 0 := by
      intro b hb
      obtain ⟨g, hg, hb⟩ := List.mem_flatMap.1 hb
      split at hb
      · obtain ⟨i, -, rfl⟩ := List.mem_map.1 hb
        exact if_neg (hother f hf g hg)
      · cases hb
    rw [lead, aligned]
    split
    · rw [← head_length, List.drop_left]
      exact hblock
    · rw [List.append_assoc, ← head_length, List.drop_left, hpad]
      exact List.forall_mem_cons.2 ⟨rfl, hblock⟩
  obtain ⟨rest, hrest⟩ := @dirParmsCommand_split h word path (ones f) f hf hhas
  have hlead : readAt path (dirBits word) f < (lead h word path (ones f) f).length := by
    rwa [lead_length]
  have hstart : 10 + path.data.length ≤ readAt path (dirBits word) f := Nat.le_add_right _ _
  have hbyte : (dirParmsCommand h word path (ones f))[readAt path (dirBits word) f]? = some 0 := by
    rw [hrest, List.append_assoc, List.getElem?_append_left hlead]
    have hmem : (lead h word path (ones f) f)[readAt path (dirBits word) f] ∈
        (lead h word path (ones f) f).drop (10 + path.data.length) := by
      refine List.mem_iff_getElem?.2 ⟨readAt path (dirBits word) f - (10 + path.data.length), ?_⟩
      rw [List.getElem?_drop, Nat.add_sub_cancel' hstart, List.getElem?_eq_getElem hlead]
    rw [List.getElem?_eq_getElem hlead, hzero _ hmem]
  have hpos : ∀ f ∈ takenWidths, 0 < f.2 := by decide
  have hhead : (window (dirParmsCommand h word path (ones f)) (readAt path (dirBits word) f)
      f.2).head? = some 0 := by
    rw [window, List.head?_drop, List.getElem?_take_of_lt (Nat.lt_add_of_pos_right (hpos f hf)), hbyte]
  exact ⟨_, List.eq_cons_of_mem_head? hhead⟩

omit [MacRoman] in
theorem attributes_skipped (raw : Bytes) : readBe16 (0 :: raw) &&& FILE_ATTRIBUTES ≠
    readBe16 (parmBytes (ones (Parm.ATTRIBUTES, 2)) (Parm.ATTRIBUTES, 2)) &&& FILE_ATTRIBUTES := by
  intro h
  have hones : readBe16 (parmBytes (ones (Parm.ATTRIBUTES, 2)) (Parm.ATTRIBUTES, 2)) &&&
      FILE_ATTRIBUTES = FILE_ATTRIBUTES := by decide
  have hle : (readBe16 (0 :: raw) &&& FILE_ATTRIBUTES).toNat ≤ (readBe16 (0 :: raw)).toNat := by
    rw [UInt16.toNat_and]
    exact Nat.and_le_left
  have hsmall : (readBe16 (0 :: raw)).toNat < 256 := by
    have hbyte := (raw.getD 0 0).toNat_lt
    rw [readBe16, List.getD_cons_zero, List.getD_cons_succ, UInt16.toNat_ofNat']
    simp only [UInt8.toNat_zero]
    omega
  rw [h, hones] at hle
  exact absurd (lt_of_le_of_lt hle hsmall) (by decide)

omit [MacRoman] in
theorem long_skipped (raw : Bytes) {f : Bitmap × ℕ} (hf : f.2 = 4) :
    (readBe32 (0 :: raw)).toNat ≠ (readBe32 (parmBytes (ones f) f)).toNat := by
  intro h
  obtain ⟨mask, width⟩ := f
  obtain rfl : width = 4 := hf
  have hones : readBe32 (parmBytes (ones (mask, 4)) (mask, 4)) = 0xFFFFFFFF := by
    have hbytes : parmBytes (ones (mask, 4)) (mask, 4) = [0xFF, 0xFF, 0xFF, 0xFF] := by
      simp [parmBytes, ones, List.range_succ]
    rw [hbytes]
    decide
  have hsmall : (readBe32 (0 :: raw)).toNat < 16777216 := by
    have h₂ := (raw.getD 0 0).toNat_lt
    have h₁ := (raw.getD 1 0).toNat_lt
    have h₀ := (raw.getD 2 0).toNat_lt
    rw [readBe32, UInt32.toNat_ofNat']
    simp only [List.getD_cons_zero, List.getD_cons_succ, UInt8.toNat_zero]
    omega
  rw [h, hones] at hsmall
  exact absurd hsmall (by decide)

omit [MacRoman] in
theorem access_skipped (raw : Bytes) : (field (0 :: raw) 0 4).map (· &&& RIGHTS) ≠
    (field (parmBytes (ones (DirParm.ACCESS_RIGHTS, 4)) (DirParm.ACCESS_RIGHTS, 4)) 0 4).map
      (· &&& RIGHTS) := by
  intro h
  have hfirst := congrArg (fun access : Vector UInt8 4 => access[0]) h
  have hzero : (0 : UInt8) = 0xFF &&& 0x87 := by
    simpa [field, parmBytes, ones, RIGHTS] using hfirst
  exact absurd hzero (by decide)

theorem DirRecovered.eq {word : UInt16} (hrec : DirRecovered word path) (h : RequestHead)
    (fill : Bitmap → ℕ → UInt8) :
    dirRequest h word path.read (taken (dirParmsCommand h word path fill) path (dirBits word)) =
      dirRequest h word path.text (sent fill (dirBits word)) := by
  have hrun := congrFun (hrec h fill) (Volume.ofEntries [])
  rw [setDirParms_eq] at hrun
  exact Except.ok.inj (Prod.mk.inj (Except.ok.inj hrun)).1

/-- A parameter that is recovered, whatever it is, is not read too early. -/
theorem DirRecovered.unskipped (hrec : DirRecovered word path) (hf : f ∈ takenWidths)
    (hhas : (dirBits word).has f.1 = true) : Unskipped path (dirBits word) f := by
  by_contra hskip
  have hlt : readAt path (dirBits word) f < sentAt path (dirBits word) f :=
    lt_of_le_of_ne (readAt_le_sentAt hf _) fun heq => hskip ((unskipped_iff hf).2 heq)
  obtain ⟨raw, hraw⟩ := @window_skipped word path f ⟨0, 0, 0, 0⟩ hf rfl hhas hlt
  have heq := hrec.eq ⟨0, 0, 0, 0⟩ (ones f)
  have hvalue : ∀ {α : Type} (read : Bytes → α),
      taken (dirParmsCommand ⟨0, 0, 0, 0⟩ word path (ones f)) path (dirBits word) f read =
        sent (ones f) (dirBits word) f read → read (0 :: raw) = read (parmBytes (ones f) f) := by
    intro α read h
    rw [taken, sent, if_pos hhas, if_pos hhas, hraw] at h
    exact Option.some.inj h
  simp only [takenWidths, List.mem_cons, List.not_mem_nil, or_false] at hf
  rcases hf with rfl | rfl | rfl | rfl | rfl
  · exact attributes_skipped raw (hvalue (fun raw => readBe16 raw &&& FILE_ATTRIBUTES)
      (congrArg FPSetDirParms.attributes heq))
  · have hinfo := hvalue id (congrArg FPSetDirParms.finderInfo heq)
    have hhead : some (0 : UInt8) = some 0xFF := congrArg List.head? hinfo
    exact absurd hhead (by decide)
  · exact long_skipped raw rfl (hvalue (fun raw => (readBe32 raw).toNat)
      (congrArg FPSetDirParms.ownerId heq))
  · exact long_skipped raw rfl (hvalue (fun raw => (readBe32 raw).toNat)
      (congrArg FPSetDirParms.groupId heq))
  · exact access_skipped raw (hvalue (fun raw => (field raw 0 4).map (· &&& RIGHTS))
      (congrArg FPSetDirParms.access heq))

end

/-! ## All four -/

section

local instance alignedRoman : MacRoman := MACINTOSH

theorem read_eq_text_iff (path : PascalString) :
    path.read = path.text ↔ startsWithBom path.data = false := by
  constructor
  · intro h
    have hdecode : MacRoman.decode path.data = path.data.map MacRoman.toChar :=
      congrArg MacString.value h
    refine MacRoman.no_bom_of_encode_decode (n := path.data.length) ?_
    rw [hdecode, MacRoman.encode_map_toChar, List.take_length]
  · intro h
    rw [PascalString.read, MacRoman.decode_of_no_bom h]
    rfl

/-- **What is recovered after a path**: a comment whenever the path has an even number of bytes;
    parameters of a file or an object always; and those of a directory whenever none that the parser
    keeps comes after padding or after one that it does not keep. In each case the path must not
    start with a byte order mark. -/
theorem data_after_path_iff (path : PascalString) :
    (CommentRecovered path ↔ startsWithBom path.data = false ∧ path.data.length % 2 = 0) ∧
      (ParmsRecovered FPSetFileParms.parse path ↔ startsWithBom path.data = false) ∧
        (ParmsRecovered FPSetFileDirParms.parse path ↔ startsWithBom path.data = false) ∧
          ∀ word, DirRecovered word path ↔ startsWithBom path.data = false ∧
            ∀ f ∈ takenWidths, (dirBits word).has f.1 = true → Unskipped path (dirBits word) f := by
  have hparms : ParmsRecovered parseWithParams path ↔ startsWithBom path.data = false := by
    rw [← read_eq_text_iff]
    constructor
    · intro h
      have hrun := congrFun (h ⟨0, 0, 0, 0⟩ 0 []) (Volume.ofEntries [])
      rw [parseWithParams_eq] at hrun
      have hreq := (Prod.mk.inj (Except.ok.inj (Prod.mk.inj (Except.ok.inj hrun)).1)).1
      exact congrArg ObjectRequest.path hreq
    · intro h head bitmap block
      rw [parseWithParams_eq, h]
  refine ⟨?_, hparms, hparms, fun word => ?_⟩
  · rw [← read_eq_text_iff]
    exact ⟨fun h => ⟨h.read_eq, h.even⟩, fun h => addComment_recovers h.1 h.2⟩
  · rw [← read_eq_text_iff]
    constructor
    · intro h
      exact ⟨congrArg FPSetDirParms.path (h.eq ⟨0, 0, 0, 0⟩ fun _ _ => 0),
        fun f hf hhas => h.unskipped hf hhas⟩
    · exact fun h => setDirParms_recovers h.1 h.2

/-- The comment after a path of one byte is lost. -/
theorem comment_lost : (FPAddComment.parse (commentCommand ⟨0, 2, 2, 0⟩ ⟨[0x61], by decide⟩
    ⟨[0x68, 0x69], by decide⟩) : Afp _) ≠
      pure ⟨2, PascalString.text ⟨[0x61], by decide⟩, [0x68, 0x69]⟩ := by
  intro h
  have hrun := congrFun h (Volume.ofEntries [])
  have hcomment : ((FPAddComment.parse (commentCommand ⟨0, 2, 2, 0⟩ ⟨[0x61], by decide⟩
      ⟨[0x68, 0x69], by decide⟩) : Afp _) (Volume.ofEntries [])).toOption.map
        (fun e => e.1.toOption.map (·.comment)) = some (some []) := by decide +kernel
  rw [hrun] at hcomment
  exact absurd hcomment (by decide +kernel)

end

end TailTalk
