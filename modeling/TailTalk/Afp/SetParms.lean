/-
  Setting parameters — what a block of parameters leaves of an object's Finder
  Info, whether it is taken or refused.

  They are applied one by one, and what makes the block bad may come after some
  of them.  A block that is taken is read without the parameters that cannot be
  set.
-/
import TailTalk.Afp.Aligned
import TailTalk.Afp.Blocks

namespace TailTalk

open Lib

/-! ## Flags -/

theorem or_and_mask (x m : UInt16) : (x ||| m) &&& m = m := by
  apply UInt16.toBitVec_inj.1
  rw [UInt16.toBitVec_and, UInt16.toBitVec_or]
  ext i hi
  simp only [BitVec.getElem_and, BitVec.getElem_or]
  cases x.toBitVec[i] <;> cases m.toBitVec[i] <;> rfl

theorem andNot_and_mask (x m : UInt16) : (x &&& ~~~ m) &&& m = 0 := by
  apply UInt16.toBitVec_inj.1
  rw [UInt16.toBitVec_and, UInt16.toBitVec_and, UInt16.toBitVec_not]
  ext i hi
  simp

theorem or_of_and_eq {x m : UInt16} (h : x &&& m = m) : x ||| m = x := by
  rw [← UInt16.toBitVec_inj] at h ⊢
  rw [UInt16.toBitVec_and] at h
  rw [UInt16.toBitVec_or]
  ext i hi
  have hbit := congrArg (fun b : BitVec 16 => b[i]) h
  simp only [BitVec.getElem_and] at hbit
  rw [BitVec.getElem_or, ← hbit]
  cases x.toBitVec[i] <;> rfl

theorem andNot_of_and_eq {x m : UInt16} (h : x &&& m = 0) : x &&& ~~~ m = x := by
  rw [← UInt16.toBitVec_inj] at h ⊢
  rw [UInt16.toBitVec_and] at h
  rw [UInt16.toBitVec_and, UInt16.toBitVec_not]
  ext i hi
  have hbit := congrArg (fun b : BitVec 16 => b[i]) h
  simp only [BitVec.getElem_and] at hbit
  rw [BitVec.getElem_and, BitVec.getElem_not]
  cases hm : m.toBitVec[i] with
  | false => exact Bool.and_true _
  | true =>
    rw [hm, Bool.and_true] at hbit
    rw [hbit]
    simp

/-- One bit is set or not. -/
theorem and_invisible (flags : UInt16) : flags &&& FinderInfo.IS_INVISIBLE = 0 ∨
    flags &&& FinderInfo.IS_INVISIBLE = FinderInfo.IS_INVISIBLE := by
  have h : flags.toBitVec &&& BitVec.twoPow 16 14 =
      if flags.toBitVec.getLsbD 14 = true then BitVec.twoPow 16 14 else 0#16 :=
    BitVec.and_twoPow flags.toBitVec 14
  rw [← UInt16.toBitVec_inj, ← UInt16.toBitVec_inj, UInt16.toBitVec_and]
  change flags.toBitVec &&& BitVec.twoPow 16 14 = 0#16 ∨
    flags.toBitVec &&& BitVec.twoPow 16 14 = BitVec.twoPow 16 14
  split at h
  · exact Or.inr h
  · exact Or.inl h

/-- The Invisible bit of the attributes. -/
def asksInvisible (attributes : UInt16) : Bool := attributes &&& 0x0001 != 0

/-- Finder Info with the Invisible bit of the attributes. -/
def withInvisible (attributes : UInt16) (info : FinderInfo) : FinderInfo :=
  { info with flags :=
      if attributes &&& 0x0001 ≠ 0 then info.flags ||| FinderInfo.IS_INVISIBLE
      else info.flags &&& ~~~ FinderInfo.IS_INVISIBLE }

theorem isInvisible_withInvisible (attributes : UInt16) (info : FinderInfo) :
    Node.isInvisible (withInvisible attributes info) = asksInvisible attributes := by
  unfold Node.isInvisible withInvisible asksInvisible
  dsimp only
  split
  · rename_i h
    rw [or_and_mask, bne_iff_ne.2 h]
    rfl
  · rename_i h
    rw [andNot_and_mask, not_not.1 h]

theorem withInvisible_eq {attributes : UInt16} {info : FinderInfo}
    (h : Node.isInvisible info = asksInvisible attributes) : withInvisible attributes info = info := by
  have hflags : (if attributes &&& 0x0001 ≠ 0 then info.flags ||| FinderInfo.IS_INVISIBLE
      else info.flags &&& ~~~ FinderInfo.IS_INVISIBLE) = info.flags := by
    rw [Node.isInvisible, asksInvisible] at h
    split
    · rename_i hset
      rw [bne_iff_ne.2 hset, bne_iff_ne] at h
      exact or_of_and_eq ((and_invisible info.flags).resolve_left h)
    · rename_i hset
      rw [not_not.1 hset] at h
      exact andNot_of_and_eq (by simpa using h)
  rw [withInvisible, hflags]

/-! ## Finder Info as bytes -/

namespace FinderInfo

theorem field_between {n : ℕ} (pre rest : Bytes) (x : Vector UInt8 n) :
    field (pre ++ (x.toList ++ rest)) pre.length n = x := by
  refine Vector.ext fun i hi => ?_
  rw [field, Vector.getElem_ofFn, List.getD_eq_getElem?_getD, List.getElem?_append_right (by simp),
    Nat.add_sub_cancel_left, List.getElem?_append_left (by simpa using hi)]
  simp [hi]

@[simp] theorem ofBytes_toBytes (info : FinderInfo) : ofBytes info.toBytes = info := by
  obtain ⟨fileType, creator, flags, reserved⟩ := info
  have htype : field (toBytes ⟨fileType, creator, flags, reserved⟩) 0 4 = fileType := by
    simpa [toBytes] using
      field_between [] (creator.toList ++ be16 flags ++ reserved.toList) fileType
  have hcreator : field (toBytes ⟨fileType, creator, flags, reserved⟩) 4 4 = creator := by
    simpa [toBytes] using field_between fileType.toList (be16 flags ++ reserved.toList) creator
  have hreserved : field (toBytes ⟨fileType, creator, flags, reserved⟩) 10 22 = reserved := by
    simpa [toBytes] using
      field_between (fileType.toList ++ creator.toList ++ be16 flags) [] reserved
  have hlen : (fileType.toList ++ creator.toList).length = 8 := by simp
  have hbytes : ∀ i < 2, (toBytes ⟨fileType, creator, flags, reserved⟩).getD (8 + i) 0 =
      (be16 flags).getD i 0 := by
    intro i hi
    have hi' : i < (be16 flags).length := by rwa [be16_length]
    rw [toBytes]
    dsimp only
    rw [List.append_assoc, List.getD_eq_getElem?_getD, List.getElem?_append_right (by omega), hlen,
      Nat.add_sub_cancel_left, List.getElem?_append_left hi', List.getD_eq_getElem?_getD]
  rw [ofBytes, htype, hcreator, hreserved]
  have hflags : ofBe16 ((toBytes ⟨fileType, creator, flags, reserved⟩).getD 8 0)
      ((toBytes ⟨fileType, creator, flags, reserved⟩).getD 9 0) = flags := by
    rw [hbytes 0 (by omega), hbytes 1 (by omega)]
    exact ofBe16_be16 flags
  rw [hflags]

end FinderInfo

/-! ## What clients see -/

namespace ProdosInfo

/-- The type that a file in ProDOS shows. -/
def shownType (p : ProdosInfo) : OSType := (p.toFinderInfo .default).fileType

theorem toFinderInfo_eq (p : ProdosInfo) (info : FinderInfo) : p.toFinderInfo info =
    { info with fileType := shownType p, creator := PDOS_CREATOR } := rfl

theorem toFinderInfo_kept (p : ProdosInfo) (info : FinderInfo) :
    (p.toFinderInfo info).flags = info.flags ∧
      (p.toFinderInfo info).reserved = info.reserved := ⟨rfl, rfl⟩

theorem toFinderInfo_eq_iff (p q : ProdosInfo) (info : FinderInfo) :
    q.toFinderInfo (p.toFinderInfo info) = p.toFinderInfo info ↔ shownType p = shownType q := by
  rw [toFinderInfo_eq p, toFinderInfo_eq q]
  generalize shownType p = t, shownType q = t'
  exact ⟨fun h => (congrArg FinderInfo.fileType h).symm, fun h => by rw [h]⟩

theorem toFinderInfo_ne_default (p : ProdosInfo) (info : FinderInfo) :
    p.toFinderInfo info ≠ .default := fun h =>
  absurd (congrArg FinderInfo.creator h) (show PDOS_CREATOR ≠ field [] 0 4 by decide)

end ProdosInfo

namespace Node

variable (sys : Sys) (node : Node) (d : Disk)

/-- What clients see of an object with this Finder Info. -/
def shown (info : FinderInfo) : FinderInfo :=
  if info = .default ∧ node.isDir = false then
    match node.inferredInfo sys d with
    | some tc => { FinderInfo.default with fileType := tc.fileType, creator := tc.creator }
    | none => info
  else info

theorem finderInfo_eq : node.finderInfo sys d = node.shown sys d (node.storedInfo sys d) := rfl

theorem shown_flags (info : FinderInfo) : (node.shown sys d info).flags = info.flags ∧
    (node.shown sys d info).reserved = info.reserved := by
  unfold shown
  split
  · rename_i h
    split
    · rw [h.1]
      exact ⟨rfl, rfl⟩
    · exact ⟨rfl, rfl⟩
  · exact ⟨rfl, rfl⟩

theorem isInvisible_shown (info : FinderInfo) :
    isInvisible (node.shown sys d info) = isInvisible info := by
  rw [isInvisible, isInvisible, (node.shown_flags sys d info).1]

theorem shown_of_ne {info : FinderInfo} (h : info ≠ .default) : node.shown sys d info = info :=
  if_neg fun hdefault => h hdefault.1

theorem shown_shown (info : FinderInfo) :
    node.shown sys d (node.shown sys d info) = node.shown sys d info := by
  by_cases h : info = .default
  · subst h
    by_cases h : node.shown sys d .default = .default
    · rw [h, h]
    · exact node.shown_of_ne sys d h
  · rw [node.shown_of_ne sys d h, node.shown_of_ne sys d h]

/-- Attributes change nothing if and only if they say what is seen. -/
theorem shown_withInvisible (attributes : UInt16) (info : FinderInfo) :
    node.shown sys d (withInvisible attributes (node.shown sys d info)) = node.shown sys d info ↔
      isInvisible (node.shown sys d info) = asksInvisible attributes := by
  constructor
  · intro h
    rw [← h, isInvisible_shown, isInvisible_withInvisible]
  · intro h
    rw [withInvisible_eq h, shown_shown]

/-- The system lets the server read, and write, an object's Finder Info. -/
def Readable : Prop := sys.refuses (.getXattr node.hostPath) = false

/-- The Finder Info can be stored. -/
def Writable : Prop :=
  (d.found node.hostPath).isSome = true ∧ sys.refuses (.setXattr node.hostPath) = false

instance : Decidable (node.Readable sys) := inferInstanceAs (Decidable (_ = _))

instance : Decidable (node.Writable sys d) := inferInstanceAs (Decidable (_ ∧ _))

/-- What is stored after `info` was written over `old`; nothing is seen of it if it cannot be
    read. -/
def put (info old : FinderInfo) : FinderInfo :=
  if node.Readable sys ∧ node.Writable sys d then info else old

/-- The object as it was, but for the Finder Info, which is `info`. -/
structure Shows (d₀ : Disk) (info : FinderInfo) : Prop where
  found : d.found node.hostPath = d₀.found node.hostPath
  inferred : node.inferredInfo sys d = node.inferredInfo sys d₀
  stored : node.storedInfo sys d = info

end Node

section
variable {sys : Sys} {node : Node} {d d₀ : Disk} {info old : FinderInfo}

namespace Node

theorem Shows.refl : node.Shows sys d d (node.storedInfo sys d) := ⟨rfl, rfl, rfl⟩

theorem Shows.finderInfo_eq (h : node.Shows sys d d₀ info) :
    node.finderInfo sys d = node.shown sys d₀ info := by
  rw [Node.finderInfo_eq, shown, shown, h.stored, h.inferred]

theorem Shows.looked {S : HostPath → Prop} {v v' : Volume} (h : node.Shows sys v.disk d₀ info)
    (hlooked : Looked S v v') : node.Shows sys v'.disk d₀ info := by
  obtain ⟨l, -, rfl⟩ := hlooked
  have hinferred : node.inferredInfo sys { v.disk with touched := v.disk.touched ++ l } =
      node.inferredInfo sys v.disk := by
    unfold inferredInfo Disk.readContent
    have hfound : ({ v.disk with touched := v.disk.touched ++ l } : Disk).found node.hostPath =
        v.disk.found node.hostPath := rfl
    rw [hfound]
    rcases v.disk.found node.hostPath with _ | ⟨ino, _ | _⟩ <;> rfl
  exact ⟨h.found, hinferred.trans h.inferred, h.stored⟩

theorem getFinderInfo_shows {v : Volume} (h : node.Shows sys v.disk d₀ old) :
    Proc.wp False (node.getFinderInfo sys)
      (fun r v' => r = .ok (node.shown sys d₀ old) ∧ node.Shows sys v'.disk d₀ old) v := by
  refine Proc.wp_mono (getFinderInfo_spec (S := (· = node.path)) rfl v) ?_
  rintro _ v' ⟨rfl, hlooked⟩
  exact ⟨by rw [h.finderInfo_eq], h.looked hlooked⟩

/-- What a write leaves. -/
theorem shows_setXattr (h : node.Shows sys d d₀ old) :
    ((Disk.setXattr sys node.hostPath info.toBytes d).1.isSome = true ↔ node.Writable sys d₀) ∧
      node.Shows sys (Disk.setXattr sys node.hostPath info.toBytes d).2 d₀
        (node.put sys d₀ info old) := by
  obtain ⟨hfound, hinferred, hstored⟩ := h
  have htouch : node.Shows sys (d.touch node.hostPath) d₀ old :=
    ⟨hfound, (inferredInfo_touch sys node d _).trans hinferred, hstored⟩
  unfold Disk.setXattr
  rcases hat : d.found node.hostPath with _ | o
  · have hnot : ¬ node.Writable sys d₀ := by
      rintro ⟨h, -⟩
      rw [← hfound, hat] at h
      cases h
    rw [put, if_neg fun h => hnot h.2]
    exact ⟨iff_of_false (nofun) hnot, htouch⟩
  · dsimp only
    split
    · rename_i hrefuse
      have hnot : ¬ node.Writable sys d₀ := fun h => by
        rw [h.2] at hrefuse
        cases hrefuse
      rw [put, if_neg fun h => hnot h.2]
      exact ⟨iff_of_false (nofun) hnot, htouch⟩
    · rename_i hrefuse
      have hwritable : node.Writable sys d₀ :=
        ⟨by rw [← hfound, hat]; rfl, Bool.eq_false_iff.2 hrefuse⟩
      have hat' : ∀ i, (d.setInode o.id i).found node.hostPath = some o := fun i => hat
      refine ⟨iff_of_true rfl hwritable, hfound, ?_, ?_⟩
      · rw [inferredInfo_touch, ← hinferred]
        unfold inferredInfo Disk.readContent
        rw [hat, hat']
        rcases o with ⟨ino, _ | _⟩
        · dsimp only
          rw [Disk.inode_setInode]
        · rfl
      · rw [storedInfo_touch]
        unfold storedInfo Disk.getXattr at hstored ⊢
        rw [hat'] at ⊢
        rw [hat] at hstored
        by_cases hread : node.Readable sys
        · have hput : node.put sys d₀ info old = info := if_pos ⟨hread, hwritable⟩
          rw [hput, hread, if_neg Bool.false_ne_true, Option.map_some,
            Disk.inode_setInode]
          exact (if_pos (by rw [FinderInfo.toBytes_length])).trans (FinderInfo.ofBytes_toBytes info)
        · have hrefuse : sys.refuses (.getXattr node.hostPath) = true := (Bool.not_eq_false _).mp hread
          have hput : node.put sys d₀ info old = old := if_neg fun h => hread h.1
          rw [hrefuse] at hstored
          rw [hput, hrefuse]
          exact hstored

theorem setFinderInfo_shows {v : Volume} (h : node.Shows sys v.disk d₀ old) :
    Proc.wp False (node.setFinderInfo sys info)
      (fun r v' => (r = .ok () ↔ node.Writable sys d₀) ∧
        node.Shows sys v'.disk d₀ (node.put sys d₀ info old)) v := by
  obtain ⟨hsome, hshows⟩ := @shows_setXattr sys node v.disk d₀ info old h
  rw [setFinderInfo, wp_host]
  refine ⟨?_, hshows⟩
  rw [← hsome]
  rcases (Disk.setXattr sys node.hostPath info.toBytes v.disk).1 with _ | u <;> simp

end Node

end

/-! ## Blocks -/

/-- The parameters that can be set, with their widths. -/
def attributesParm : Bitmap × ℕ := (Parm.ATTRIBUTES, 2)

def finderParm : Bitmap × ℕ := (Parm.FINDER_INFO, FinderInfo.FINDER_INFO_LEN)

def prodosParm : Bitmap × ℕ := (Parm.PRODOS_INFO, PRODOS_INFO_LEN)

/-- The parameters of which the server takes account. -/
def stepped (isDir : Bool) : List (Bitmap × ℕ) :=
  [attributesParm, (Parm.CREATE_DATE, 4), (Parm.MODIFICATION_DATE, 4), (Parm.BACKUP_DATE, 4),
    finderParm] ++ (if isDir then [(DirParm.OWNER_ID, 4), (DirParm.GROUP_ID, 4),
      (DirParm.ACCESS_RIGHTS, 4)] else []) ++ [prodosParm]

/-- What a client sends for an object. -/
structure ParmBlock where
  isDir : Bool
  bitmap : Bitmap
  data : Bytes

namespace ParmBlock

variable (b : ParmBlock)

/-- Where a parameter is read, and where it is. -/
def steppedAt (f : Bitmap × ℕ) : ℕ := fieldsLen (before (stepped b.isDir) f) b.bitmap

/-- Where a parameter stands in the block. -/
def packedAt (f : Bitmap × ℕ) : ℕ :=
  fieldsLen (before (if b.isDir then dirWidths else fileWidths) f) b.bitmap

/-- The block has that parameter. -/
def asks (f : Bitmap × ℕ) : Prop := b.bitmap.has f.1 = true

instance (f : Bitmap × ℕ) : Decidable (b.asks f) := inferInstanceAs (Decidable (_ = _))

/-- A parameter that is asked for ends in the block. -/
def Fits (f : Bitmap × ℕ) (i : ℕ) : Prop := b.asks f ∧ i + f.2 ≤ b.data.length

instance (f : Bitmap × ℕ) (i : ℕ) : Decidable (b.Fits f i) := inferInstanceAs (Decidable (_ ∧ _))

/-- The attributes in it. -/
def attributes : UInt16 := readBe16 (window b.data 0 2)

/-- The Finder Info at that place. -/
def finderInfo (i : ℕ) : FinderInfo := .ofBytes (window b.data i FinderInfo.FINDER_INFO_LEN)

/-- The ProDOS Info at that place. -/
def prodosInfo (i : ℕ) : ProdosInfo := .ofBytes (window b.data i PRODOS_INFO_LEN)

/-- Nothing makes the block bad: it is long enough, and leaves a directory a directory. -/
def Good : Prop := fieldsLen (stepped b.isDir) b.bitmap ≤ b.data.length ∧
  (b.asks prodosParm → b.isDir = true →
    (b.prodosInfo (b.steppedAt prodosParm)).fileType = ProdosInfo.DIRECTORY.fileType)

instance : Decidable b.Good := inferInstanceAs (Decidable (_ ∧ (_ → _ → _)))

/-- The block gives a file a ProDOS type. -/
def TypesFile : Prop := b.asks prodosParm ∧ b.isDir = false

instance : Decidable b.TypesFile := inferInstanceAs (Decidable (_ ∧ _))

/-- Something is to be stored. -/
def Stores : Prop := b.asks attributesParm ∨ b.asks finderParm ∨ b.TypesFile

instance : Decidable b.Stores := inferInstanceAs (Decidable (_ ∨ _ ∨ _))

section
variable (sys : Sys) (node : Node) (d : Disk) (info : FinderInfo)

/-- What is stored after each of the parameters. -/
def afterAttributes : FinderInfo :=
  if b.Fits attributesParm 0 then node.put sys d (withInvisible b.attributes (node.shown sys d info)) info
  else info

/-- What is stored after the Finder Info. -/
def afterFinder : FinderInfo :=
  if b.Fits finderParm (b.steppedAt finderParm) then
    node.put sys d (b.finderInfo (b.steppedAt finderParm)) info
  else info

/-- What is stored after the ProDOS Info. -/
def afterProdos : FinderInfo :=
  if b.Fits prodosParm (b.steppedAt prodosParm) ∧ b.isDir = false then
    node.put sys d ((b.prodosInfo (b.steppedAt prodosParm)).toFinderInfo (node.shown sys d info)) info
  else info

end

end ParmBlock

/-! ## Setting -/

/-- Returns this value if the condition holds, and an error otherwise. -/
def EndsIf {α : Type} (c : Prop) (a : α) (r : Except AfpError α) : Prop :=
  (c → r = .ok a) ∧ (¬ c → ∃ e, r = .error e)

section
variable {α : Type} {c : Prop} {a a' : α} {e : AfpError}

theorem EndsIf.of_ok (h : EndsIf c a (.ok a')) : c ∧ a' = a := by
  by_cases hc : c
  · exact ⟨hc, Except.ok.inj (h.1 hc)⟩
  · obtain ⟨e, he⟩ := h.2 hc
    cases he

theorem EndsIf.of_error (h : EndsIf c a (.error e)) : ¬ c := fun hc => nomatch h.1 hc

theorem endsIf_error (h : ¬ c) : EndsIf c a (.error e) := ⟨fun hc => absurd hc h, fun _ => ⟨e, rfl⟩⟩

end

namespace ParmBlock

variable {b : ParmBlock} {sys : Sys} {node : Node} {d : Disk} {info : FinderInfo}

theorem steppedAt_finder : b.steppedAt finderParm = (if b.asks attributesParm then 2 else 0) +
    fieldsLen ([Parm.CREATE_DATE, Parm.MODIFICATION_DATE, Parm.BACKUP_DATE].map (·, 4))
      b.bitmap := by
  have hbefore : ∀ isDir, before (stepped isDir) finderParm = attributesParm ::
      [Parm.CREATE_DATE, Parm.MODIFICATION_DATE, Parm.BACKUP_DATE].map (·, 4) := by decide
  rw [steppedAt, hbefore]
  rfl

/-- The parameters that only a directory has. -/
def ownerWidths (isDir : Bool) : List (Bitmap × ℕ) :=
  (if isDir then [DirParm.OWNER_ID, DirParm.GROUP_ID, DirParm.ACCESS_RIGHTS] else []).map (·, 4)

theorem fieldsLen_append (widths widths' : List (Bitmap × ℕ)) (bitmap : Bitmap) :
    fieldsLen (widths ++ widths') bitmap = fieldsLen widths bitmap + fieldsLen widths' bitmap := by
  rw [fieldsLen, List.map_append, List.sum_append]
  rfl

theorem fieldsLen_singleton (f : Bitmap × ℕ) (bitmap : Bitmap) :
    fieldsLen [f] bitmap = if bitmap.has f.1 then f.2 else 0 := List.sum_singleton

theorem steppedAt_prodos : b.steppedAt prodosParm = b.steppedAt finderParm +
    (if b.asks finderParm then FinderInfo.FINDER_INFO_LEN else 0) +
      fieldsLen (ownerWidths b.isDir) b.bitmap := by
  have hbefore : ∀ isDir, before (stepped isDir) prodosParm =
      before (stepped isDir) finderParm ++ [finderParm] ++ ownerWidths isDir := by decide
  rw [steppedAt, hbefore, fieldsLen_append, fieldsLen_append, fieldsLen_singleton]
  rfl

theorem fieldsLen_stepped : fieldsLen (stepped b.isDir) b.bitmap = b.steppedAt prodosParm +
    if b.asks prodosParm then PRODOS_INFO_LEN else 0 := by
  have hbefore : ∀ isDir, stepped isDir = before (stepped isDir) prodosParm ++ [prodosParm] := by
    decide
  rw [hbefore, fieldsLen_append, fieldsLen_singleton]
  rfl

theorem put_of_not_writable (h : ¬ node.Writable sys d) (info old : FinderInfo) :
    node.put sys d info old = old := if_neg fun hw => h hw.2

theorem afterFinder_eq (h : ¬ (b.Fits finderParm (b.steppedAt finderParm) ∧ node.Writable sys d)) :
    b.afterFinder sys node d info = info := by
  unfold afterFinder
  split
  · rename_i hfits
    exact put_of_not_writable (fun hw => h ⟨hfits, hw⟩) _ _
  · rfl

theorem afterProdos_eq (h : ¬ (b.Fits prodosParm (b.steppedAt prodosParm) ∧ b.isDir = false ∧
    node.Writable sys d)) : b.afterProdos sys node d info = info := by
  unfold afterProdos
  split
  · rename_i hfits
    exact put_of_not_writable (fun hw => h ⟨hfits.1, hfits.2, hw⟩) _ _
  · rfl

end ParmBlock

namespace Volume

variable {sys : Sys} {node : Node} {d : Disk} {info : FinderInfo} {b : ParmBlock} {v : Volume}

theorem takeParam_eq (n : ℕ) (data : Bytes) (i : ℕ) : takeParam n data i =
    if i + n ≤ data.length then .ok (window data i n, i + n) else .error .paramError := by
  rw [takeParam, window, List.drop_take, Nat.add_sub_cancel_left]

theorem skipParams_ends {bitmap : Bitmap} {data : Bytes} (masks : List Bitmap) {i : ℕ}
    (hi : i ≤ data.length) :
    EndsIf (i + fieldsLen (masks.map (·, 4)) bitmap ≤ data.length)
      (i + fieldsLen (masks.map (·, 4)) bitmap) (skipParams bitmap 4 data masks i) := by
  induction masks generalizing i with
  | nil => exact ⟨fun _ => rfl, fun h => absurd hi h⟩
  | cons mask masks ih =>
    have hcons : fieldsLen ((mask :: masks).map (·, 4)) bitmap =
        (if bitmap.has mask then 4 else 0) + fieldsLen (masks.map (·, 4)) bitmap := rfl
    rw [hcons, skipParams]
    split
    · rw [takeParam_eq, ← Nat.add_assoc]
      by_cases hfits : i + 4 ≤ data.length
      · rw [if_pos hfits]
        exact ih hfits
      · rw [if_neg hfits]
        exact ⟨fun h => absurd h (by omega), fun _ => ⟨_, rfl⟩⟩
    · rw [Nat.zero_add]
      exact ih hi

theorem setAttributesParam_spec (h : node.Shows sys v.disk d info) :
    Proc.wp False (setAttributesParam sys node b.bitmap b.data)
      (fun r v' => node.Shows sys v'.disk d (b.afterAttributes sys node d info) ∧
        EndsIf (b.asks attributesParm → 2 ≤ b.data.length ∧ node.Writable sys d)
          (if b.asks attributesParm then 2 else 0) r) v := by
  unfold setAttributesParam ParmBlock.afterAttributes
  by_cases hasks : b.asks attributesParm
  · rw [if_pos hasks]
    have hhas : b.bitmap.has Parm.ATTRIBUTES = true := hasks
    rw [if_pos hhas, takeParam_eq]
    by_cases hfits : 2 ≤ b.data.length
    · have hfits' : b.Fits attributesParm 0 := ⟨hasks, by simpa [attributesParm] using hfits⟩
      rw [if_pos (by omega), if_pos hfits']
      simp only [Proc.wp_bind, Proc.wp_ofExcept, Proc.next_ok, Node.setAttributes]
      refine Proc.wp_mono (Node.getFinderInfo_shows h) ?_
      rintro _ v₁ ⟨rfl, h₁⟩
      rw [Proc.next_ok]
      refine Proc.wp_mono (Node.setFinderInfo_shows h₁) ?_
      rintro (e | u) v₂ ⟨hok, h₂⟩
      · exact ⟨h₂, fun hw => (by cases hok.2 (hw hasks).2), fun _ => ⟨e, rfl⟩⟩
      · exact ⟨h₂, fun _ => rfl, fun hw => absurd (fun _ => ⟨hfits, hok.1 rfl⟩) hw⟩
    · have hfits' : ¬ b.Fits attributesParm 0 := fun hf => hfits (by simpa [attributesParm] using hf.2)
      rw [if_neg (by omega), if_neg hfits']
      exact ⟨h, fun hw => absurd (hw hasks).1 hfits, fun _ => ⟨_, rfl⟩⟩
  · have hhas : ¬ b.bitmap.has Parm.ATTRIBUTES = true := hasks
    rw [if_neg hhas, if_neg hasks, if_neg fun hf => hasks hf.1]
    exact ⟨h, fun _ => rfl, fun hw => absurd (fun h => absurd h hasks) hw⟩

theorem setFinderInfoParam_spec (h : node.Shows sys v.disk d info) {i : ℕ}
    (hi : i = b.steppedAt finderParm) :
    Proc.wp False (setFinderInfoParam sys node b.bitmap b.data i)
      (fun r v' => node.Shows sys v'.disk d (b.afterFinder sys node d info) ∧
        EndsIf (b.asks finderParm → i + FinderInfo.FINDER_INFO_LEN ≤ b.data.length ∧ node.Writable sys d)
          (i + if b.asks finderParm then FinderInfo.FINDER_INFO_LEN else 0) r) v := by
  unfold setFinderInfoParam ParmBlock.afterFinder
  rw [← hi]
  by_cases hasks : b.asks finderParm
  · rw [if_pos hasks]
    have hhas : b.bitmap.has Parm.FINDER_INFO = true := hasks
    rw [if_pos hhas, takeParam_eq]
    by_cases hfits : i + FinderInfo.FINDER_INFO_LEN ≤ b.data.length
    · rw [if_pos hfits, if_pos (show b.Fits finderParm i from ⟨hasks, hfits⟩)]
      simp only [Proc.wp_bind, Proc.wp_ofExcept, Proc.next_ok]
      refine Proc.wp_mono (Node.setFinderInfo_shows h) ?_
      rintro (e | u) v₁ ⟨hok, h₁⟩
      · exact ⟨h₁, fun hw => (by cases hok.2 (hw hasks).2), fun _ => ⟨e, rfl⟩⟩
      · exact ⟨h₁, fun _ => rfl, fun hw => absurd (fun _ => ⟨hfits, hok.1 rfl⟩) hw⟩
    · rw [if_neg hfits, if_neg fun hf : b.Fits finderParm i => hfits hf.2]
      exact ⟨h, fun hw => absurd (hw hasks).1 hfits, fun _ => ⟨_, rfl⟩⟩
  · have hhas : ¬ b.bitmap.has Parm.FINDER_INFO = true := hasks
    rw [if_neg hhas, if_neg hasks, if_neg fun hf : b.Fits finderParm i => hasks hf.1]
    exact ⟨h, fun _ => rfl, fun hw => absurd (fun h => absurd h hasks) hw⟩

theorem setProdosInfoParam_spec (h : node.Shows sys v.disk d info) {i : ℕ}
    (hdir : b.isDir = node.isDir) (hi : i = b.steppedAt prodosParm) :
    Proc.wp False (setProdosInfoParam sys node b.bitmap b.data i)
      (fun r v' => node.Shows sys v'.disk d (b.afterProdos sys node d info) ∧
        EndsIf (b.asks prodosParm → i + PRODOS_INFO_LEN ≤ b.data.length ∧
          (b.isDir = true → (b.prodosInfo i).fileType = ProdosInfo.DIRECTORY.fileType) ∧
            (b.isDir = false → node.Writable sys d)) () r) v := by
  unfold setProdosInfoParam ParmBlock.afterProdos
  rw [← hi, ← hdir]
  by_cases hasks : b.asks prodosParm
  · have hhas : b.bitmap.has Parm.PRODOS_INFO = true := hasks
    rw [if_pos hhas, takeParam_eq]
    by_cases hfits : i + PRODOS_INFO_LEN ≤ b.data.length
    · have hfits' : b.Fits prodosParm i := ⟨hasks, hfits⟩
      rw [if_pos hfits]
      simp only [Proc.wp_bind, Proc.wp_ofExcept, Proc.next_ok]
      cases hkind : b.isDir with
      | true =>
        rw [if_pos rfl, if_neg fun hf : b.Fits prodosParm i ∧ true = false => by cases hf.2]
        rw [Proc.wp_ite]
        refine ⟨fun htype => ⟨h, fun hw => absurd ((hw hasks).2.1 rfl) htype, fun _ => ⟨_, rfl⟩⟩,
          fun htype => ⟨h, fun _ => rfl, fun hw => ?_⟩⟩
        exact absurd (fun _ => ⟨hfits, fun _ => not_not.1 htype, fun hf => by cases hf⟩) hw
      | false =>
        rw [if_neg Bool.false_ne_true, if_pos ⟨hfits', rfl⟩, Proc.wp_bind]
        refine Proc.wp_mono (Node.getFinderInfo_shows h) ?_
        rintro _ v₁ ⟨rfl, h₁⟩
        rw [Proc.next_ok]
        refine Proc.wp_mono (Node.setFinderInfo_shows h₁) ?_
        rintro (e | u) v₂ ⟨hok, h₂⟩
        · exact ⟨h₂, fun hw => (by cases hok.2 ((hw hasks).2.2 rfl)), fun _ => ⟨e, rfl⟩⟩
        · refine ⟨h₂, fun _ => rfl, fun hw => absurd (fun _ => ⟨hfits, ?_, fun _ => hok.1 rfl⟩) hw⟩
          intro hdirectory
          cases hdirectory
    · rw [if_neg hfits, if_neg fun hf => hfits hf.1.2]
      exact ⟨h, fun hw => absurd (hw hasks).1 hfits, fun _ => ⟨_, rfl⟩⟩
  · have hhas : ¬ b.bitmap.has Parm.PRODOS_INFO = true := hasks
    rw [if_neg hhas, if_neg fun hf => hasks hf.1.1]
    exact ⟨h, fun _ => rfl, fun hw => absurd (fun h => absurd h hasks) hw⟩

theorem setFromFinder_spec (h : node.Shows sys v.disk d info) (hdir : b.isDir = node.isDir)
    (hlong : b.steppedAt finderParm ≤ b.data.length) :
    Proc.wp False (do
      let i ← setFinderInfoParam sys node b.bitmap b.data (b.steppedAt finderParm)
      let i ← Proc.ofExcept (skipParams b.bitmap 4 b.data (ownerParams node) i)
      setProdosInfoParam sys node b.bitmap b.data i)
      (fun r v' => node.Shows sys v'.disk d
          (b.afterProdos sys node d (b.afterFinder sys node d info)) ∧
        EndsIf (b.Good ∧ (b.asks finderParm ∨ b.TypesFile → node.Writable sys d)) () r) v := by
  have hlen : prodosParm.2 = PRODOS_INFO_LEN := rfl
  have hprodos := b.steppedAt_prodos
  have htotal := b.fieldsLen_stepped
  rw [Proc.wp_bind]
  refine Proc.wp_mono (setFinderInfoParam_spec h rfl) ?_
  rintro (e | i) v₂ ⟨h, hends⟩
  · obtain ⟨hasks, hnot⟩ := Classical.not_imp.1 hends.of_error
    rw [if_pos hasks] at hprodos
    rw [Proc.next_error, ParmBlock.afterProdos_eq fun hf => hnot ⟨by have := hf.1.2; omega, hf.2.2⟩]
    refine ⟨h, endsIf_error fun hgood => hnot ⟨?_, hgood.2 (Or.inl hasks)⟩⟩
    have := hgood.1.1
    omega
  obtain ⟨hfinderInfo, rfl⟩ := hends.of_ok
  have hmiddle : b.steppedAt finderParm +
      (if b.asks finderParm then FinderInfo.FINDER_INFO_LEN else 0) ≤ b.data.length := by
    split
    · exact (hfinderInfo ‹_›).1
    · exact hlong
  have howner := @skipParams_ends b.bitmap b.data (ownerParams node) _ hmiddle
  have hwidths : (ownerParams node).map (·, 4) = ParmBlock.ownerWidths b.isDir := by
    rw [ParmBlock.ownerWidths, hdir]
    rfl
  rw [hwidths, ← hprodos] at howner
  rw [Proc.next_ok, Proc.wp_bind, Proc.wp_ofExcept]
  rcases hr : skipParams b.bitmap 4 b.data (ownerParams node) _ with e | i <;> rw [hr] at howner
  · have hshort := howner.of_error
    rw [Proc.next_error, ParmBlock.afterProdos_eq fun hf => hshort (by have := hf.1.2; omega)]
    refine ⟨h, endsIf_error fun hgood => hshort ?_⟩
    have := hgood.1.1
    omega
  obtain ⟨hlong', rfl⟩ := howner.of_ok
  rw [Proc.next_ok]
  refine Proc.wp_mono (setProdosInfoParam_spec h hdir rfl) ?_
  rintro r v₃ ⟨h, hends⟩
  refine ⟨h, fun hgood => hends.1 fun hasks => ?_, fun hbad => hends.2 fun hprodosInfo => hbad ?_⟩
  · rw [if_pos hasks] at htotal
    exact ⟨htotal ▸ hgood.1.1, hgood.1.2 hasks, fun hfile => hgood.2 (Or.inr ⟨hasks, hfile⟩)⟩
  · refine ⟨⟨?_, fun hasks hdirectory => (hprodosInfo hasks).2.1 hdirectory⟩, ?_⟩
    · rw [htotal]
      split
      · exact (hprodosInfo ‹_›).1
      · exact hlong'
    · rintro (hasks | ⟨hasks, hfile⟩)
      · exact (hfinderInfo hasks).2
      · exact (hprodosInfo hasks).2.2 hfile

/-- What is stored in the end, and when the block is taken. -/
theorem setNodeParms_spec (hdir : b.isDir = node.isDir) {nodeId : NodeId}
    (hid : nodeId ≠ ROOT_PARENT_ID) (hnode : v.nodes[nodeId]? = some node)
    {fileBitmap dirBitmap : Bitmap}
    (hbitmap : b.bitmap = if node.isDir then dirBitmap else fileBitmap) :
    Proc.wp False (setNodeParms sys nodeId fileBitmap dirBitmap b.data)
      (fun r v' => node.Shows sys v'.disk v.disk (b.afterProdos sys node v.disk
        (b.afterFinder sys node v.disk (b.afterAttributes sys node v.disk
          (node.storedInfo sys v.disk)))) ∧
        EndsIf (b.Good ∧ (b.Stores → node.Writable sys v.disk)) () r) v := by
  unfold setNodeParms
  rw [if_neg hid]
  simp only [getNode, Proc.wp_bind, Proc.wp_read, Proc.next_ok, Proc.wp_orElse]
  refine ⟨fun node' hnode' => ?_, fun hnone => by cases hnode.symm.trans hnone⟩
  obtain rfl : node = node' := Option.some.inj (hnode.symm.trans hnode')
  rw [← hbitmap]
  have hlen : finderParm.2 = FinderInfo.FINDER_INFO_LEN := rfl
  have hlen' : prodosParm.2 = PRODOS_INFO_LEN := rfl
  have hfinder := b.steppedAt_finder
  have hprodos := b.steppedAt_prodos
  have htotal := b.fieldsLen_stepped
  refine Proc.wp_mono (@setAttributesParam_spec sys node v.disk _ b v .refl) ?_
  rintro (e | i) v₁ ⟨h, hends⟩
  · obtain ⟨hasks, hnot⟩ := Classical.not_imp.1 hends.of_error
    rw [if_pos hasks] at hfinder
    rw [Proc.next_error, ParmBlock.afterFinder_eq fun hf => hnot ⟨by have := hf.1.2; omega, hf.2⟩,
      ParmBlock.afterProdos_eq fun hf => hnot ⟨by have := hf.1.2; omega, hf.2.2⟩]
    refine ⟨h, endsIf_error fun hgood => hnot ⟨?_, hgood.2 (Or.inl hasks)⟩⟩
    have := hgood.1.1
    omega
  obtain ⟨hattributes, rfl⟩ := hends.of_ok
  have hstart : (if b.asks attributesParm then 2 else 0) ≤ b.data.length := by
    split
    · exact (hattributes ‹_›).1
    · exact Nat.zero_le _
  have hdates := @skipParams_ends b.bitmap b.data
    [Parm.CREATE_DATE, Parm.MODIFICATION_DATE, Parm.BACKUP_DATE] _ hstart
  rw [← hfinder] at hdates
  rw [Proc.next_ok, Proc.wp_bind, Proc.wp_ofExcept]
  rcases hr : skipParams b.bitmap 4 b.data
    [Parm.CREATE_DATE, Parm.MODIFICATION_DATE, Parm.BACKUP_DATE] _ with e | i <;> rw [hr] at hdates
  · have hshort := hdates.of_error
    rw [Proc.next_error, ParmBlock.afterFinder_eq fun hf => hshort (by have := hf.1.2; omega),
      ParmBlock.afterProdos_eq fun hf => hshort (by have := hf.1.2; omega)]
    refine ⟨h, endsIf_error fun hgood => hshort ?_⟩
    have := hgood.1.1
    omega
  obtain ⟨hlong, rfl⟩ := hdates.of_ok
  refine Proc.wp_mono (setFromFinder_spec h hdir hlong) ?_
  rintro r v₂ ⟨h, hends⟩
  refine ⟨h, fun hgood => hends.1 ⟨hgood.1, fun hs => hgood.2 (Or.inr hs)⟩,
    fun hbad => hends.2 fun hgood => hbad ⟨hgood.1, ?_⟩⟩
  rintro (hasks | hs)
  · exact (hattributes hasks).2
  · exact hgood.2 hs

end Volume

/-! ## All or nothing -/

namespace ParmBlock

variable (b : ParmBlock)

/-- Clients see every parameter that is asked for. ProDOS Info comes last, so it says the type and
    the creator; a directory has a type of its own. -/
structure Reflected (info : FinderInfo) : Prop where
  attributes : b.asks attributesParm → Node.isInvisible info = asksInvisible b.attributes
  finder : b.asks finderParm → b.Fits finderParm (b.packedAt finderParm) ∧
    info.flags = (b.finderInfo (b.packedAt finderParm)).flags ∧
      info.reserved = (b.finderInfo (b.packedAt finderParm)).reserved ∧
        (¬ b.TypesFile → info = b.finderInfo (b.packedAt finderParm))
  prodos : b.asks prodosParm → b.Fits prodosParm (b.packedAt prodosParm) ∧
    (b.isDir = true →
      (b.prodosInfo (b.packedAt prodosParm)).fileType = ProdosInfo.DIRECTORY.fileType) ∧
    (b.isDir = false → (b.prodosInfo (b.packedAt prodosParm)).toFinderInfo info = info)

variable (sys : Sys) (node : Node) (d : Disk)

/-- What is applied before the defect is found is what clients see already. -/
structure Idle : Prop where
  attributes : b.Fits attributesParm 0 → ¬ b.Fits finderParm (b.steppedAt finderParm) →
    Node.isInvisible (node.finderInfo sys d) = asksInvisible b.attributes
  finder : b.Fits finderParm (b.steppedAt finderParm) →
    node.shown sys d (b.finderInfo (b.steppedAt finderParm)) = node.finderInfo sys d

/-- The parameters agree on what they both say, and there is the same where they are read as where
    they are. -/
structure Agrees : Prop where
  invisible : b.asks attributesParm → b.asks finderParm →
    Node.isInvisible (b.finderInfo (b.steppedAt finderParm)) = asksInvisible b.attributes
  finder : b.asks finderParm → b.Fits finderParm (b.packedAt finderParm) ∧
    (b.finderInfo (b.steppedAt finderParm)).flags = (b.finderInfo (b.packedAt finderParm)).flags ∧
      (b.finderInfo (b.steppedAt finderParm)).reserved =
        (b.finderInfo (b.packedAt finderParm)).reserved ∧
      (¬ b.TypesFile → node.shown sys d (b.finderInfo (b.steppedAt finderParm)) =
        b.finderInfo (b.packedAt finderParm))
  prodos : b.asks prodosParm → b.Fits prodosParm (b.packedAt prodosParm) ∧
    (b.isDir = true →
      (b.prodosInfo (b.packedAt prodosParm)).fileType = ProdosInfo.DIRECTORY.fileType) ∧
    (b.isDir = false → ProdosInfo.shownType (b.prodosInfo (b.steppedAt prodosParm)) =
      ProdosInfo.shownType (b.prodosInfo (b.packedAt prodosParm)))

end ParmBlock

namespace Node

/-- The block that a node is sent. -/
def parmBlock (node : Node) (fileBitmap dirBitmap : Bitmap) (data : Bytes) : ParmBlock :=
  ⟨node.isDir, if node.isDir then dirBitmap else fileBitmap, data⟩

end Node

namespace Volume

/-- After an error clients see what they saw; otherwise they see what they asked for. -/
def AllOrNothing (sys : Sys) (v : Volume) (nodeId : NodeId) (node : Node)
    (fileBitmap dirBitmap : Bitmap) (data : Bytes) : Prop :=
  ∀ r v', setNodeParms sys nodeId fileBitmap dirBitmap data v = .ok (r, v') →
    (∀ e, r = .error e → node.finderInfo sys v'.disk = node.finderInfo sys v.disk) ∧
      (r = .ok () →
        (node.parmBlock fileBitmap dirBitmap data).Reflected (node.finderInfo sys v'.disk))

section
variable {sys : Sys} {node : Node} {d : Disk} {b : ParmBlock}

theorem put_eq (hread : node.Readable sys) (hwrite : node.Writable sys d) (info old : FinderInfo) :
    node.put sys d info old = info := if_pos ⟨hread, hwrite⟩

/-- Where no write is seen, nothing is. -/
theorem after_of_put_eq (hput : ∀ info old, node.put sys d info old = old) (info : FinderInfo) :
    b.afterProdos sys node d (b.afterFinder sys node d (b.afterAttributes sys node d info)) =
      info := by
  simp only [ParmBlock.afterAttributes, ParmBlock.afterFinder, ParmBlock.afterProdos, hput, ite_self]

/-- A block that is refused. -/
theorem shown_bad_iff (hbad : ¬ b.Good) (hread : node.Readable sys)
    (hwrite : b.Stores → node.Writable sys d) :
    node.shown sys d (b.afterProdos sys node d (b.afterFinder sys node d
      (b.afterAttributes sys node d (node.storedInfo sys d)))) = node.finderInfo sys d ↔
        b.Idle sys node d := by
  have htotal := b.fieldsLen_stepped
  have hlast : ∀ info, b.afterProdos sys node d info = info := fun info => by
    refine ParmBlock.afterProdos_eq fun h => hbad ⟨?_, fun _ hdir => ?_⟩
    · rw [if_pos h.1.1] at htotal
      exact htotal ▸ h.1.2
    · rw [hdir] at h
      cases h.2.1
  rw [hlast, Node.finderInfo_eq]
  by_cases hfinder : b.Fits finderParm (b.steppedAt finderParm)
  · have hwritable := hwrite (Or.inr (Or.inl hfinder.1))
    rw [ParmBlock.afterFinder, if_pos hfinder, put_eq hread hwritable]
    exact ⟨fun h => ⟨fun _ hnot => absurd hfinder hnot, fun _ => h⟩, fun h => h.finder hfinder⟩
  · rw [ParmBlock.afterFinder, if_neg hfinder]
    by_cases hattributes : b.Fits attributesParm 0
    · have hwritable := hwrite (Or.inl hattributes.1)
      rw [ParmBlock.afterAttributes, if_pos hattributes, put_eq hread hwritable,
        Node.shown_withInvisible]
      exact ⟨fun h => ⟨fun _ _ => h, fun hf => absurd hf hfinder⟩,
        fun h => h.attributes hattributes hfinder⟩
    · rw [ParmBlock.afterAttributes, if_neg hattributes]
      exact ⟨fun _ => ⟨fun ha => absurd ha hattributes, fun hf => absurd hf hfinder⟩, fun _ => rfl⟩

/-- A block that is taken. -/
theorem reflected_iff (hgood : b.Good) (hread : node.Readable sys)
    (hwrite : b.Stores → node.Writable sys d) :
    b.Reflected (node.shown sys d (b.afterProdos sys node d (b.afterFinder sys node d
      (b.afterAttributes sys node d (node.storedInfo sys d))))) ↔ b.Agrees sys node d := by
  have htotal := b.fieldsLen_stepped
  have hprodosAt := b.steppedAt_prodos
  have hfinderAt := b.steppedAt_finder
  have hlong := hgood.1
  set x₁ := b.afterAttributes sys node d (node.storedInfo sys d) with hx₁
  set x₂ := b.afterFinder sys node d x₁ with hx₂
  set x₃ := b.afterProdos sys node d x₂ with hx₃
  have hattributes : b.asks attributesParm → Node.isInvisible x₁ = asksInvisible b.attributes := by
    intro hasks
    rw [if_pos hasks] at hfinderAt
    have hfits : b.Fits attributesParm 0 := ⟨hasks, by change 0 + 2 ≤ _; omega⟩
    rw [hx₁, ParmBlock.afterAttributes, if_pos hfits, put_eq hread (hwrite (Or.inl hasks)),
      isInvisible_withInvisible]
  have hfinder : b.asks finderParm → x₂ = b.finderInfo (b.steppedAt finderParm) := by
    intro hasks
    rw [if_pos hasks] at hprodosAt
    have hfits : b.Fits finderParm (b.steppedAt finderParm) :=
      ⟨hasks, by change _ + FinderInfo.FINDER_INFO_LEN ≤ _; omega⟩
    rw [hx₂, ParmBlock.afterFinder, if_pos hfits, put_eq hread (hwrite (Or.inr (Or.inl hasks)))]
  have hnoFinder : ¬ b.asks finderParm → x₂ = x₁ := fun hasks => if_neg fun h => hasks h.1
  have hprodos : b.TypesFile → x₃ = (b.prodosInfo (b.steppedAt prodosParm)).toFinderInfo
      (node.shown sys d x₂) := by
    intro htypes
    rw [if_pos htypes.1] at htotal
    have hfits : b.Fits prodosParm (b.steppedAt prodosParm) :=
      ⟨htypes.1, by change _ + PRODOS_INFO_LEN ≤ _; omega⟩
    rw [hx₃, ParmBlock.afterProdos, if_pos ⟨hfits, htypes.2⟩,
      put_eq hread (hwrite (Or.inr (Or.inr htypes)))]
  have hnoProdos : ¬ b.TypesFile → x₃ = x₂ := fun h => if_neg fun hf => h ⟨hf.1.1, hf.2⟩
  have hkept : (node.shown sys d x₃).flags = x₂.flags ∧
      (node.shown sys d x₃).reserved = x₂.reserved := by
    have hthird := node.shown_flags sys d x₃
    by_cases htypes : b.TypesFile
    · have hsecond := node.shown_flags sys d x₂
      have htype := ProdosInfo.toFinderInfo_kept (b.prodosInfo (b.steppedAt prodosParm))
        (node.shown sys d x₂)
      rw [hthird.1, hthird.2, hprodos htypes, htype.1, htype.2]
      exact hsecond
    · rw [hthird.1, hthird.2, hnoProdos htypes]
      exact ⟨rfl, rfl⟩
  have hinvisible : Node.isInvisible (node.shown sys d x₃) = Node.isInvisible x₂ := by
    rw [Node.isInvisible, hkept.1]
    rfl
  have htyped : b.TypesFile → node.shown sys d x₃ = x₃ := fun htypes =>
    node.shown_of_ne sys d (by rw [hprodos htypes]; exact ProdosInfo.toFinderInfo_ne_default _ _)
  constructor
  · rintro ⟨hra, hrf, hrp⟩
    refine ⟨fun ha hf => ?_, fun hf => ?_, fun hp => ?_⟩
    · rw [← hfinder hf, ← hinvisible]
      exact hra ha
    · obtain ⟨hfits, hflags, hreserved, hall⟩ := hrf hf
      rw [← hfinder hf]
      refine ⟨hfits, hkept.1.symm.trans hflags, hkept.2.symm.trans hreserved, fun htypes => ?_⟩
      rw [← hall htypes, hnoProdos htypes]
    · obtain ⟨hfits, hdirectory, hfile⟩ := hrp hp
      refine ⟨hfits, hdirectory, fun hkind => ?_⟩
      have htype := hfile hkind
      rwa [htyped ⟨hp, hkind⟩, hprodos ⟨hp, hkind⟩, ProdosInfo.toFinderInfo_eq_iff] at htype
  · rintro ⟨hri, hrf, hrp⟩
    refine ⟨fun ha => ?_, fun hf => ?_, fun hp => ?_⟩
    · rw [hinvisible]
      by_cases hf : b.asks finderParm
      · rw [hfinder hf]
        exact hri ha hf
      · rw [hnoFinder hf]
        exact hattributes ha
    · obtain ⟨hfits, hflags, hreserved, hall⟩ := hrf hf
      rw [← hfinder hf] at hflags hreserved hall
      refine ⟨hfits, hkept.1.trans hflags, hkept.2.trans hreserved, fun htypes => ?_⟩
      rw [← hall htypes, hnoProdos htypes]
    · obtain ⟨hfits, hdirectory, hfile⟩ := hrp hp
      refine ⟨hfits, hdirectory, fun hkind => ?_⟩
      rw [htyped ⟨hp, hkind⟩, hprodos ⟨hp, hkind⟩, ProdosInfo.toFinderInfo_eq_iff]
      exact hfile hkind

/-- **When setting parameters is all or nothing.** An error leaves what clients see, and otherwise
    they see what was asked for, if and only if nothing can be stored, or what is applied before a
    defect is there already and what is applied agrees with what the block says where it says it. -/
theorem all_or_nothing_iff (sys : Sys) {v : Volume} {nodeId : NodeId} {node : Node}
    (hnode : v.nodes[nodeId]? = some node) (fileBitmap dirBitmap : Bitmap) (data : Bytes) :
    AllOrNothing sys v nodeId node fileBitmap dirBitmap data ↔
      nodeId = ROOT_PARENT_ID ∨
        (node.parmBlock fileBitmap dirBitmap data).Stores ∧ ¬ node.Writable sys v.disk ∨
        (node.Readable sys →
          (¬ (node.parmBlock fileBitmap dirBitmap data).Good →
            (node.parmBlock fileBitmap dirBitmap data).Idle sys node v.disk) ∧
          ((node.parmBlock fileBitmap dirBitmap data).Good →
            (node.parmBlock fileBitmap dirBitmap data).Agrees sys node v.disk)) ∧
        (¬ node.Readable sys → (node.parmBlock fileBitmap dirBitmap data).Good →
          (node.parmBlock fileBitmap dirBitmap data).Reflected (node.finderInfo sys v.disk)) := by
  set b := node.parmBlock fileBitmap dirBitmap data with hb
  by_cases hid : nodeId = ROOT_PARENT_ID
  · refine iff_of_true (fun r v' h => ?_) (Or.inl hid)
    rw [setNodeParms, if_pos hid] at h
    obtain ⟨rfl, rfl⟩ := Prod.mk.inj (Except.ok.inj h)
    exact ⟨fun _ _ => rfl, nofun⟩
  obtain ⟨r, v', hrun, hshows, hends⟩ := Proc.exists_of_wp
    (@setNodeParms_spec sys node b v rfl nodeId hid hnode fileBitmap dirBitmap rfl)
  have hseen := hshows.finderInfo_eq
  have hproperty : AllOrNothing sys v nodeId node fileBitmap dirBitmap data ↔
      (∀ e, r = .error e → node.finderInfo sys v'.disk = node.finderInfo sys v.disk) ∧
        (r = .ok () → b.Reflected (node.finderInfo sys v'.disk)) := by
    refine ⟨fun h => h r v' hrun, fun h r₁ v₁ hrun₁ => ?_⟩
    obtain ⟨rfl, rfl⟩ := Prod.mk.inj (Except.ok.inj (hrun.symm.trans hrun₁))
    exact h
  rw [hproperty]
  by_cases hblocked : b.Stores ∧ ¬ node.Writable sys v.disk
  · obtain ⟨e, rfl⟩ := hends.2 fun h => hblocked.2 (h.2 hblocked.1)
    rw [after_of_put_eq (ParmBlock.put_of_not_writable hblocked.2)] at hseen
    exact iff_of_true ⟨fun _ _ => hseen, nofun⟩ (Or.inr (Or.inl hblocked))
  have hwrite : b.Stores → node.Writable sys v.disk := fun h =>
    not_not.1 fun hnot => hblocked ⟨h, hnot⟩
  have hends' : EndsIf b.Good () r := ⟨fun h => hends.1 ⟨h, hwrite⟩, fun h => hends.2 fun h' => h h'.1⟩
  rw [or_iff_right hid, or_iff_right hblocked]
  by_cases hread : node.Readable sys
  · by_cases hgood : b.Good
    · obtain rfl := hends'.1 hgood
      rw [hseen, reflected_iff hgood hread hwrite]
      exact ⟨fun h => ⟨fun _ => ⟨fun hbad => absurd hgood hbad, fun _ => h.2 rfl⟩,
        fun hnot => absurd hread hnot⟩, fun h => ⟨nofun, fun _ => (h.1 hread).2 hgood⟩⟩
    · obtain ⟨e, rfl⟩ := hends'.2 hgood
      rw [hseen, shown_bad_iff hgood hread hwrite]
      exact ⟨fun h => ⟨fun _ => ⟨fun _ => h.1 e rfl, fun hg => absurd hg hgood⟩,
        fun hnot => absurd hread hnot⟩, fun h => ⟨fun _ _ => (h.1 hread).1 hgood, nofun⟩⟩
  · rw [after_of_put_eq fun _ _ => if_neg fun h => hread h.1] at hseen
    have hsame : node.finderInfo sys v'.disk = node.finderInfo sys v.disk := hseen
    rw [hsame]
    refine ⟨fun h => ⟨fun hr => absurd hr hread, fun _ hgood => h.2 (hends'.1 hgood)⟩,
      fun h => ⟨fun _ _ => rfl, fun hr => h.2 hread ?_⟩⟩
    by_contra hbad
    obtain ⟨e, he⟩ := hends'.2 hbad
    rw [he] at hr
    cases hr

end

/-- A root with no Finder Info. -/
def emptyRoot : Node := .fresh 2 1 "Shared".toList true []

/-- Attributes and a date, of which only the attributes come: an error, and the root is hidden. -/
theorem short_block_hides :
    ¬ AllOrNothing .calm (.ofEntries []) ROOT_ID emptyRoot 0 0x0005 [0, 1] := by
  intro h
  have hend : (setNodeParms .calm ROOT_ID 0 0x0005 [0, 1] (.ofEntries [])).toOption.map
      (fun e => (e.1.toOption, (emptyRoot.finderInfo .calm e.2.disk).flags)) =
        some (none, 0x4000) := by decide +kernel
  obtain ⟨⟨r, v'⟩, hrun, heq⟩ := Option.map_eq_some_iff.1 hend
  obtain ⟨hresult, hflags⟩ := Prod.mk.inj heq
  have hrun' : setNodeParms .calm ROOT_ID 0 0x0005 [0, 1] (.ofEntries []) = .ok (r, v') := by
    rcases hset : setNodeParms .calm ROOT_ID 0 0x0005 [0, 1] (.ofEntries []) with p | e
    · rw [hset] at hrun
      cases hrun
    · rw [hset] at hrun
      exact congrArg Except.ok (Option.some.inj hrun)
  rcases r with e | u
  · rw [(h _ _ hrun').1 e rfl] at hflags
    exact absurd hflags (by decide +kernel)
  · cases hresult

/-- With its date the block is taken. -/
theorem all_or_nothing_iff_emptyRoot :
    AllOrNothing .calm (.ofEntries []) ROOT_ID emptyRoot 0 0x0005 [0, 1, 0, 0, 0, 0] := by
  refine (@all_or_nothing_iff .calm (.ofEntries []) ROOT_ID emptyRoot (getElem?_new ..) 0 0x0005
    [0, 1, 0, 0, 0, 0]).2 (Or.inr (Or.inr ⟨fun _ => ⟨?_, ?_⟩, ?_⟩))
  · exact fun hbad => absurd (by decide) hbad
  · exact fun _ => ⟨fun _ h => absurd h (by decide), fun h => absurd h (by decide),
      fun h => absurd h (by decide)⟩
  · exact fun hnot => absurd rfl hnot

end Volume

end TailTalk
