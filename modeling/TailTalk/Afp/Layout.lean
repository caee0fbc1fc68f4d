/-
  The layout of parameter blocks.

  A block has the fields of a bitmap one after another, by their bits, and the
  name behind all of them.  So is every block that is written, but for a bit of
  files' bitmaps that has no field (`fileParms_laidOut_iff`,
  `dirParms_laidOut`).
-/
import TailTalk.Afp.Blocks

namespace TailTalk

open Lib

/-! ## Fields -/

/-- What the fields with lower bits take. -/
def lowerLen (widths : List (Bitmap × ℕ)) (bitmap mask : Bitmap) : ℕ :=
  fieldsLen (widths.filter fun w => w.1 < mask) bitmap

/-- The fields are in the order of their bits. -/
def Ascending (fields : List (Bitmap × Bytes)) : Prop := fields.Pairwise fun f g => f.1 < g.1

theorem fieldsLen_cons (w : Bitmap × ℕ) (widths : List (Bitmap × ℕ)) (bitmap : Bitmap) :
    fieldsLen (w :: widths) bitmap = (if bitmap.has w.1 then w.2 else 0) + fieldsLen widths bitmap :=
  rfl

theorem fieldBytes_cons (bitmap : Bitmap) (f : Bitmap × Bytes) (fields : List (Bitmap × Bytes)) :
    fieldBytes bitmap (f :: fields) =
      (if bitmap.has f.1 then f.2 else []) ++ fieldBytes bitmap fields := by
  simp only [fieldBytes, List.filter_cons]
  split
  · rw [List.flatMap_cons]
  · rfl

theorem bytesAt_skip (front rest : Bytes) (start n : ℕ) :
    bytesAt (front ++ rest) (front.length + start) n = bytesAt rest start n := by
  rw [bytesAt, bytesAt, List.drop_append, List.drop_of_length_le (Nat.le_add_right _ _),
    List.nil_append, Nat.add_sub_cancel_left]

/-- **A field is where the fields with lower bits end.** -/
theorem bytesAt_field {bitmap mask : Bitmap} {fields : List (Bitmap × Bytes)} {data : Bytes}
    (hasc : Ascending fields) (hmem : (mask, data) ∈ fields) (hhas : bitmap.has mask = true)
    (rest : Bytes) : bytesAt (fieldBytes bitmap fields ++ rest)
      (lowerLen (widthsOf fields) bitmap mask) data.length = data := by
  induction fields with
  | nil => exact absurd hmem List.not_mem_nil
  | cons f fields ih =>
    obtain ⟨hfirst, hrest⟩ := List.pairwise_cons.1 hasc
    rw [fieldBytes_cons, List.append_assoc]
    rcases List.mem_cons.1 hmem with rfl | hmem
    · have hnone : (widthsOf ((mask, data) :: fields)).filter (fun w => decide (w.1 < mask)) = [] := by
        rw [List.filter_eq_nil_iff]
        intro w hw hlt
        rcases List.mem_cons.1 hw with rfl | hw
        · exact absurd (of_decide_eq_true hlt) (UInt16.lt_irrefl _)
        · obtain ⟨g, hg, rfl⟩ := List.mem_map.1 hw
          exact absurd (hfirst g hg) (UInt16.lt_asymm (of_decide_eq_true hlt))
      rw [lowerLen, hnone, if_pos hhas]
      exact List.take_left
    · have hlt : f.1 < mask := hfirst _ hmem
      have hlower : lowerLen (widthsOf (f :: fields)) bitmap mask =
          (if bitmap.has f.1 then f.2 else []).length + lowerLen (widthsOf fields) bitmap mask := by
        have hkept : (widthsOf (f :: fields)).filter (fun w => decide (w.1 < mask)) =
            (f.1, f.2.length) :: (widthsOf fields).filter fun w => decide (w.1 < mask) := by
          rw [widthsOf, List.map_cons, List.filter_cons_of_pos (by simpa using hlt)]
          rfl
        rw [lowerLen, hkept, fieldsLen_cons]
        split <;> rfl
      rw [hlower, bytesAt_skip]
      exact ih hrest hmem

/-- The parameters of a file, by their bits. -/
def FileParm.bits : List Bitmap :=
  [Parm.ATTRIBUTES, Parm.PARENT_DIR_ID, Parm.CREATE_DATE, Parm.MODIFICATION_DATE, Parm.BACKUP_DATE,
    Parm.FINDER_INFO, Parm.LONG_NAME, Parm.SHORT_NAME, FileParm.FILE_NUMBER,
    FileParm.DATA_FORK_LENGTH, FileParm.RESOURCE_FORK_LENGTH, FileParm.ACCESS_RIGHTS,
    Parm.PRODOS_INFO]

/-- The parameters of a directory, by their bits. -/
def DirParm.bits : List Bitmap :=
  [Parm.ATTRIBUTES, Parm.PARENT_DIR_ID, Parm.CREATE_DATE, Parm.MODIFICATION_DATE, Parm.BACKUP_DATE,
    Parm.FINDER_INFO, Parm.LONG_NAME, Parm.SHORT_NAME, DirParm.DIR_ID, DirParm.OFFSPRING_COUNT,
    DirParm.OWNER_ID, DirParm.GROUP_ID, DirParm.ACCESS_RIGHTS, Parm.PRODOS_INFO]

namespace Volume

section
variable [MacRoman]

/-! ## Blocks -/

/-- Each field stands where those with lower bits end, the name behind all of them, and the length
    is that of `response_len`. -/
structure LaidOut (bits : List Bitmap) (widths : List (Bitmap × ℕ)) (fields : List (Bitmap × Bytes))
    (bitmap : Bitmap) (name : Name) (block : Bytes) : Prop where
  field : ∀ mask ∈ bits, bitmap.has mask = true → ∃ data, (mask, data) ∈ fields ∧ data ≠ [] ∧
    bytesAt block (lowerLen widths bitmap mask) data.length = data
  longName : bitmap.has Parm.LONG_NAME = true →
    (Parm.LONG_NAME, be16 (UInt16.ofNat (fieldsLen widths bitmap))) ∈ fields ∧
      block.drop (fieldsLen widths bitmap) = pascal (mangleName name)
  length : block.length = responseLen widths bitmap name

theorem block_length {widths : List (Bitmap × ℕ)} {fields : List (Bitmap × Bytes)}
    (h : widthsOf fields = widths) (bitmap : Bitmap) (name : Name) :
    (fieldBytes bitmap fields ++ nameBytes bitmap name).length = responseLen widths bitmap name := by
  rw [List.length_append, fieldBytes_length, h, responseLen, nameBytes]
  split <;> rfl

/-- A block of fields with a name behind them is laid out if there is a field for each bit. -/
theorem laidOut_iff {bits : List Bitmap} {widths : List (Bitmap × ℕ)}
    {fields : List (Bitmap × Bytes)} {bitmap : Bitmap} {name : Name}
    (hasc : Ascending fields) (hwidths : widthsOf fields = widths)
    (hpos : ∀ w ∈ widths, 0 < w.2)
    (hname : (Parm.LONG_NAME, be16 (UInt16.ofNat (fieldsLen widths bitmap))) ∈ fields) :
    LaidOut bits widths fields bitmap name (fieldBytes bitmap fields ++ nameBytes bitmap name) ↔
      ∀ mask ∈ bits, bitmap.has mask = true → mask ∈ widths.map (·.1) := by
  constructor
  · intro h mask hmask hhas
    obtain ⟨data, hmem, -, -⟩ := h.field mask hmask hhas
    rw [← hwidths]
    exact List.mem_map.2 ⟨(mask, data.length), List.mem_map.2 ⟨_, hmem, rfl⟩, rfl⟩
  · intro hbits
    refine ⟨?_, ?_, block_length hwidths bitmap name⟩
    · intro mask hmask hhas
      obtain ⟨w, hw, rfl⟩ := List.mem_map.1 (hbits mask hmask hhas)
      have hfield := hw
      rw [← hwidths] at hfield
      obtain ⟨f, hf, rfl⟩ := List.mem_map.1 hfield
      refine ⟨f.2, hf, ?_, ?_⟩
      · intro hnil
        have hlen : 0 < f.2.length := hpos _ hw
        rw [hnil] at hlen
        exact absurd hlen (Nat.lt_irrefl 0)
      · rw [← hwidths]
        exact bytesAt_field hasc hf hhas _
    · intro hhas
      refine ⟨hname, ?_⟩
      rw [← hwidths, ← fieldBytes_length, List.drop_left, nameBytes, if_pos hhas]

end

/-! ## Blocks of files and of directories -/

section
variable {sys : Sys}

theorem fileFields_widths (v : Volume) (node : Node) (info : Metadata) (bitmap : Bitmap) :
    widthsOf (fileFields sys v node info bitmap) = fileWidths := by
  simp only [fileFields, widthsOf, List.map_cons, List.map_nil, be16_length, be32_length,
    FinderInfo.toBytes_length, ProdosInfo.toBytes_length, List.length_cons, List.length_nil]
  rfl

theorem dirFields_widths (v : Volume) (node : Node) (offspring : UInt16) (bitmap : Bitmap) :
    widthsOf (dirFields sys v node offspring bitmap) = dirWidths := by
  simp only [dirFields, widthsOf, List.map_cons, List.map_nil, be16_length, be32_length,
    FinderInfo.toBytes_length, ProdosInfo.toBytes_length, List.length_cons, List.length_nil]
  rfl

/-- Fields are in order if their widths are. -/
theorem ascending_of_widths {fields : List (Bitmap × Bytes)} {widths : List (Bitmap × ℕ)}
    (h : widthsOf fields = widths) (hasc : widths.Pairwise fun w w' => w.1 < w'.1) :
    Ascending fields := by
  rw [← h, widthsOf, List.pairwise_map] at hasc
  exact hasc

variable [MacRoman]

theorem fileBlock_length {v : Volume} {node : Node} {bitmap : Bitmap} {block : Bytes}
    (h : fileBlock sys v node bitmap = some block) :
    block.length = responseLen fileWidths bitmap node.name := by
  obtain ⟨info, -, rfl⟩ := Option.map_eq_some_iff.1 h
  exact block_length (fileFields_widths v node info bitmap) bitmap node.name

theorem dirBlock_length {v : Volume} {node : Node} {path : Path} {bitmap : Bitmap} {block : Bytes}
    (h : dirBlock sys v node path bitmap = some block) :
    block.length = responseLen dirWidths bitmap node.name := by
  obtain ⟨offspring, -, rfl⟩ := Option.map_eq_some_iff.1 h
  exact block_length (dirFields_widths v node offspring bitmap) bitmap node.name

theorem fileBlock_laidOut_iff (v : Volume) (node : Node) (info : Metadata) (bitmap : Bitmap) :
    LaidOut FileParm.bits fileWidths (fileFields sys v node info bitmap) bitmap node.name
        (fieldBytes bitmap (fileFields sys v node info bitmap) ++ nameBytes bitmap node.name) ↔
      bitmap.has FileParm.ACCESS_RIGHTS = false := by
  have hwidths := @fileFields_widths sys v node info bitmap
  have hasc : Ascending (fileFields sys v node info bitmap) :=
    ascending_of_widths hwidths (by decide)
  have hname : (Parm.LONG_NAME, be16 (UInt16.ofNat (fieldsLen fileWidths bitmap))) ∈
      fileFields sys v node info bitmap := by
    simp only [fileFields, fileLongNameOffset, List.mem_cons, true_or, or_true]
  rw [laidOut_iff hasc hwidths (by decide) hname]
  constructor
  · intro h
    by_contra hhas
    have hmem := h FileParm.ACCESS_RIGHTS (by decide) (Bool.eq_true_of_not_eq_false hhas)
    exact absurd hmem (by decide)
  · intro hnone mask hmask hhas
    have hothers : fileWidths.map (·.1) = FileParm.bits.filter (· ≠ FileParm.ACCESS_RIGHTS) := rfl
    have hne : mask ≠ FileParm.ACCESS_RIGHTS := by
      rintro rfl
      rw [hnone] at hhas
      cases hhas
    rw [hothers]
    exact List.mem_filter.2 ⟨hmask, decide_eq_true hne⟩

theorem dirBlock_laidOut (v : Volume) (node : Node) (offspring : UInt16) (bitmap : Bitmap) :
    LaidOut DirParm.bits dirWidths (dirFields sys v node offspring bitmap) bitmap node.name
      (fieldBytes bitmap (dirFields sys v node offspring bitmap) ++ nameBytes bitmap node.name) := by
  have hwidths := @dirFields_widths sys v node offspring bitmap
  have hasc : Ascending (dirFields sys v node offspring bitmap) :=
    ascending_of_widths hwidths (by decide)
  have hname : (Parm.LONG_NAME, be16 (UInt16.ofNat (fieldsLen dirWidths bitmap))) ∈
      dirFields sys v node offspring bitmap := by
    simp only [dirFields, dirLongNameOffset, List.mem_cons, true_or, or_true]
  refine (laidOut_iff hasc hwidths (by decide) hname).2 ?_
  have hall : dirWidths.map (·.1) = DirParm.bits := rfl
  exact fun mask hmask _ => hall ▸ hmask

end

end Volume

end TailTalk
