/-
  Parameter blocks — what writing one does to the buffer and to the volume.

  `Filled` is the invariant of a block that is being written.
  `nodeFileParmsResp_spec` and `getDirectoryParmsResp_spec` say when a block is
  written, that it is the one that `fileBlock` or `dirBlock` gives, and that
  nothing else happens.
-/
import TailTalk.Afp.Enumerate

namespace TailTalk

open Lib

/-! ## Looking at the disk -/

/-- Nothing happened but that paths of this kind were handed to the system. -/
def Looked (kind : HostPath → Prop) (v v' : Volume) : Prop :=
  ∃ l, (∀ p ∈ l, kind p) ∧ v' = { v with disk := { v.disk with touched := v.disk.touched ++ l } }

namespace Looked

variable {kind kind' : HostPath → Prop} {v v' v'' : Volume}

theorem refl (v : Volume) : Looked kind v v :=
  ⟨[], fun _ h => absurd h List.not_mem_nil, by rw [List.append_nil]⟩

theorem trans (h : Looked kind v v') (h' : Looked kind v' v'') : Looked kind v v'' := by
  obtain ⟨l, hl, rfl⟩ := h
  obtain ⟨l', hl', rfl⟩ := h'
  refine ⟨l ++ l', fun p hp => ?_, by simp only [List.append_assoc]⟩
  rcases List.mem_append.1 hp with hp | hp
  · exact hl p hp
  · exact hl' p hp

/-- One call on a path. -/
theorem touch {p : HostPath} (h : kind p) (v : Volume) :
    Looked kind v { v with disk := v.disk.touch p } :=
  ⟨[p], fun _ hq => (List.mem_singleton.1 hq) ▸ h, rfl⟩

end Looked

/-! ## Fields -/

theorem store_take {out out' : Bytes} {start : ℕ} {data : Bytes}
    (h : store out start data = .ok out') {k : ℕ} (hk : k ≤ start) :
    out'.take k = out.take k := by
  unfold store at h
  split at h
  · obtain rfl := Except.ok.inj h
    rw [List.append_assoc, List.take_append_of_le_length (by rw [List.length_take]; omega),
      List.take_take, Nat.min_eq_left hk]
  · cases h

/-- The length of the largest block: all fields of a directory, and a name. -/
def BLOCK_ROOM : ℕ := 112

/-- What a buffer keeps while a block is written at `base`. -/
structure KeptBelow (out : Bytes) (base : ℕ) (out' : Bytes) : Prop where
  length : out'.length = out.length
  front : out'.take base = out.take base

theorem KeptBelow.refl (out : Bytes) (base : ℕ) : KeptBelow out base out := ⟨rfl, rfl⟩

theorem KeptBelow.store {out out' out'' : Bytes} {base start : ℕ} {data : Bytes}
    (h : KeptBelow out base out') (hstart : base ≤ start) (hs : store out' start data = .ok out'') :
    KeptBelow out base out'' :=
  ⟨(store_length hs).trans h.length, (store_take hs hstart).trans h.front⟩

theorem KeptBelow.trans {out out' out'' : Bytes} {base base' : ℕ} (h : KeptBelow out base out')
    (h' : KeptBelow out' base' out'') (hle : base ≤ base') : KeptBelow out base out'' := by
  refine ⟨h'.length.trans h.length, ?_⟩
  rw [← h.front, ← Nat.min_eq_left hle, ← List.take_take, ← List.take_take, h'.front]

/-- Bytes at a place of a buffer. -/
def bytesAt (out : Bytes) (start n : ℕ) : Bytes := (out.drop start).take n

theorem KeptBelow.bytesAt_eq {out out' : Bytes} {base i n : ℕ} (h : KeptBelow out base out')
    (hle : i + n ≤ base) : bytesAt out' i n = bytesAt out i n := by
  have htake : ∀ buf : Bytes, bytesAt buf i n = ((buf.take base).take (i + n)).drop i := fun buf => by
    rw [List.take_take, Nat.min_eq_left hle, bytesAt, List.drop_take, Nat.add_sub_cancel_left]
  rw [htake, htake, h.front]

theorem bytesAt_add (out : Bytes) (start n m : ℕ) :
    bytesAt out start (n + m) = bytesAt out start n ++ bytesAt out (start + n) m := by
  rw [bytesAt, List.take_add, List.drop_drop]
  rfl

/-- What was stored is there. -/
theorem bytesAt_store {out out' : Bytes} {start : ℕ} {data : Bytes}
    (h : store out start data = .ok out') : bytesAt out' start data.length = data := by
  unfold store at h
  split at h
  · obtain rfl := Except.ok.inj h
    have hlen : (out.take start).length = start := by
      rw [List.length_take]
      omega
    rw [bytesAt, List.append_assoc, List.drop_append_of_le_length (le_of_eq hlen.symm),
      List.drop_of_length_le (le_of_eq hlen), List.nil_append, List.take_left]
  · cases h

/-- Bytes in front of what was stored stay. -/
theorem bytesAt_store_before {out out' : Bytes} {start : ℕ} {data : Bytes}
    (h : store out start data = .ok out') {i n : ℕ} (hn : i + n ≤ start) :
    bytesAt out' i n = bytesAt out i n :=
  ((KeptBelow.refl out start).store (Nat.le_refl start) h).bytesAt_eq hn

/-- Bytes behind it, too. -/
theorem bytesAt_store_after {out out' : Bytes} {start : ℕ} {data : Bytes}
    (h : store out start data = .ok out') {i n : ℕ} (hi : start + data.length ≤ i) :
    bytesAt out' i n = bytesAt out i n := by
  unfold store at h
  split at h
  · obtain rfl := Except.ok.inj h
    have hlen : (out.take start ++ data).length = start + data.length := by
      rw [List.length_append, List.length_take]
      omega
    rw [bytesAt, bytesAt, List.drop_append, List.drop_of_length_le (by omega), List.nil_append,
      List.drop_drop, hlen, Nat.add_sub_cancel' hi]
  · cases h

/-- The fields that a bitmap asks for, one after another. -/
def fieldBytes (bitmap : Bitmap) (fields : List (Bitmap × Bytes)) : Bytes :=
  (fields.filter fun f => bitmap.has f.1).flatMap (·.2)

/-- What the fields are as wide as. -/
def widthsOf (fields : List (Bitmap × Bytes)) : List (Bitmap × ℕ) :=
  fields.map fun f => (f.1, f.2.length)

theorem fieldBytes_length (bitmap : Bitmap) (fields : List (Bitmap × Bytes)) :
    (fieldBytes bitmap fields).length = fieldsLen (widthsOf fields) bitmap := by
  induction fields with
  | nil => rfl
  | cons f fields ih =>
    simp only [fieldBytes, widthsOf, fieldsLen, List.filter_cons, List.map_cons, List.sum_cons]
      at ih ⊢
    split
    · rw [List.flatMap_cons, List.length_append, ih]
    · rw [ih, Nat.zero_add]

theorem fieldBytes_concat {bitmap mask : Bitmap} {fields : List (Bitmap × Bytes)} {data : Bytes} :
    fieldBytes bitmap (fields ++ [(mask, data)]) =
      fieldBytes bitmap fields ++ if bitmap.has mask then data else [] := by
  simp only [fieldBytes, List.filter_append, List.flatMap_append, List.filter_cons, List.filter_nil]
  split <;> simp

theorem fieldsLen_mono {widths widths' : List (Bitmap × ℕ)} (h : widths <+: widths')
    (bitmap : Bitmap) : fieldsLen widths bitmap ≤ fieldsLen widths' bitmap := by
  obtain ⟨rest, rfl⟩ := h
  simp [fieldsLen]

/-- A name as a Pascal string. -/
def pascal (name : Bytes) : Bytes := UInt8.ofNat name.length :: name

/-- A block with these fields written, and a name at an offset. -/
structure Filled (out : Bytes) (base : ℕ) (bitmap : Bitmap) (widths : List (Bitmap × ℕ))
    (fields : List (Bitmap × Bytes)) (name : Option (ℕ × Bytes)) (block : Block) : Prop where
  base_eq : block.base = base
  kept : KeptBelow out base block.out
  widths_eq : widthsOf fields = widths
  offset_eq : block.offset = fieldsLen widths bitmap
  fields_eq : bytesAt block.out base block.offset = fieldBytes bitmap fields
  name_eq : ∀ e ∈ name, bytesAt block.out (base + e.1) e.2.length = e.2

/-- The name is behind these bytes. -/
def Clear (name : Option (ℕ × Bytes)) (n : ℕ) : Prop := ∀ e ∈ name, n ≤ e.1

theorem clear_none (n : ℕ) : Clear none n := fun _ h => nomatch h

namespace Filled

variable {out : Bytes} {base : ℕ} {bitmap mask : Bitmap} {widths : List (Bitmap × ℕ)}
  {fields : List (Bitmap × Bytes)} {name : Option (ℕ × Bytes)} {block block' : Block} {data : Bytes}
  {w : ℕ}

theorem start (out : Bytes) (base : ℕ) (bitmap : Bitmap) :
    Filled out base bitmap [] [] none ⟨out, base, 0⟩ :=
  ⟨rfl, .refl out base, rfl, rfl, rfl, fun _ h => nomatch h⟩

theorem offset_le (h : Filled out base bitmap widths fields name block) :
    block.offset ≤ (widths.map (·.2)).sum := by
  rw [h.offset_eq]
  exact fieldsLen_le widths bitmap

theorem fieldsLen_concat : fieldsLen (widths ++ [(mask, w)]) bitmap =
    fieldsLen widths bitmap + if bitmap.has mask then w else 0 := by
  simp [fieldsLen]

theorem widths_concat (h : widthsOf fields = widths) (hdata : data.length = w) :
    widthsOf (fields ++ [(mask, data)]) = widths ++ [(mask, w)] := by
  rw [widthsOf, List.map_append, ← h, ← hdata]
  rfl

/-- A field that is not asked for. -/
theorem skip (h : Filled out base bitmap widths fields name block)
    (hhas : ¬ bitmap.has mask = true) (hdata : data.length = w) :
    Filled out base bitmap (widths ++ [(mask, w)]) (fields ++ [(mask, data)]) name block where
  base_eq := h.base_eq
  kept := h.kept
  widths_eq := widths_concat h.widths_eq hdata
  offset_eq := by rw [fieldsLen_concat, if_neg hhas, h.offset_eq, Nat.add_zero]
  fields_eq := by rw [fieldBytes_concat, if_neg hhas, h.fields_eq, List.append_nil]
  name_eq := h.name_eq

theorem field (h : Filled out base bitmap widths fields name block) (hdata : data.length = w)
    (hclear : Clear name (fieldsLen (widths ++ [(mask, w)]) bitmap))
    (hf : block.field bitmap mask data = .ok block') :
    Filled out base bitmap (widths ++ [(mask, w)]) (fields ++ [(mask, data)]) name block' := by
  unfold Block.field at hf
  split at hf
  · rename_i hhas
    obtain ⟨out', hout', hblock⟩ := bind_eq_ok.1 hf
    obtain rfl := Except.ok.inj hblock
    have hbase := h.base_eq
    have hoffset := h.offset_eq
    refine ⟨hbase, h.kept.store (by omega) hout', widths_concat h.widths_eq hdata, ?_, ?_, ?_⟩
    · rw [fieldsLen_concat, if_pos hhas, ← hoffset, ← hdata]
    · rw [fieldBytes_concat, if_pos hhas, bytesAt_add, bytesAt_store_before hout' (by omega),
        h.fields_eq, ← hbase, bytesAt_store hout']
    · intro e he
      have hle := hclear e he
      rw [fieldsLen_concat, if_pos hhas, ← hoffset, ← hdata] at hle
      rw [bytesAt_store_after hout' (by omega), h.name_eq e he]
  · rename_i hhas
    obtain rfl := Except.ok.inj hf
    exact h.skip hhas hdata

theorem returns_field (h : Filled out base bitmap widths fields name block) (hdata : data.length = w)
    (hroom : base + ((widths.map (·.2)).sum + w) ≤ out.length) :
    Returns (block.field bitmap mask data) := by
  have hle := h.offset_le
  unfold Block.field
  split
  · rw [returns_bind_iff fun _ => returns_pure _, returns_store, h.kept.length, h.base_eq, hdata]
    omega
  · exact returns_ok _

/-- The name at an offset, where it is asked for. -/
def named (bitmap : Bitmap) (nameOffset : ℕ) (encodedName : Bytes) : Option (ℕ × Bytes) :=
  if bitmap.has Parm.LONG_NAME then some (nameOffset, pascal encodedName) else none

theorem longName {nameOffset : ℕ} {encodedName : Bytes}
    (h : Filled out base bitmap widths fields none block)
    (hclear : fieldsLen (widths ++ [(Parm.LONG_NAME, 2)]) bitmap ≤ nameOffset)
    (hf : block.longName bitmap nameOffset encodedName = .ok block') :
    Filled out base bitmap (widths ++ [(Parm.LONG_NAME, 2)])
      (fields ++ [(Parm.LONG_NAME, be16 (UInt16.ofNat nameOffset))])
      (named bitmap nameOffset encodedName) block' := by
  unfold Block.longName at hf
  unfold named
  split at hf
  · rename_i hhas
    obtain ⟨out₁, h₁, hf⟩ := bind_eq_ok.1 hf
    obtain ⟨out₂, h₂, hf⟩ := bind_eq_ok.1 hf
    obtain ⟨out₃, h₃, hblock⟩ := bind_eq_ok.1 hf
    obtain rfl := Except.ok.inj hblock
    have hbase := h.base_eq
    have hoffset := h.offset_eq
    rw [fieldsLen_concat, if_pos hhas, ← hoffset] at hclear
    have hlen : (be16 (UInt16.ofNat nameOffset)).length = 2 := be16_length _
    have hbefore : ∀ i n, i + n ≤ base + (block.offset + 2) → bytesAt out₃ i n = bytesAt out₁ i n :=
      fun i n hin => by
        rw [bytesAt_store_before h₃ (by omega), bytesAt_store_before h₂ (by omega)]
    refine ⟨hbase, ((h.kept.store (by omega) h₁).store (by omega) h₂).store (by omega) h₃,
      widths_concat h.widths_eq hlen, ?_, ?_, ?_⟩
    · rw [fieldsLen_concat, if_pos hhas, ← hoffset]
    · show bytesAt out₃ base (block.offset + 2) = _
      rw [fieldBytes_concat, if_pos hhas, hbefore base _ (by omega), bytesAt_add,
        bytesAt_store_before h₁ (by omega), h.fields_eq]
      have hfield := bytesAt_store h₁
      rw [hlen, hbase] at hfield
      rw [hfield]
    · rw [if_pos hhas]
      intro e he
      obtain rfl := Option.some.inj he
      have hbyte := bytesAt_store h₂
      have hname := bytesAt_store h₃
      rw [hbase] at hbyte hname
      show bytesAt out₃ (base + nameOffset) (pascal encodedName).length = pascal encodedName
      rw [pascal, List.length_cons, Nat.add_comm encodedName.length 1, bytesAt_add, hname,
        bytesAt_store_before h₃ (by omega)]
      exact congrArg (· ++ encodedName) hbyte
  · rename_i hhas
    obtain rfl := Except.ok.inj hf
    rw [if_neg hhas]
    exact h.skip hhas (be16_length _)

theorem returns_longName {nameOffset : ℕ} {encodedName : Bytes}
    (h : Filled out base bitmap widths fields name block)
    (hroom : base + ((widths.map (·.2)).sum + 2) ≤ out.length)
    (hname : base + nameOffset + 1 + encodedName.length ≤ out.length) :
    Returns (block.longName bitmap nameOffset encodedName) := by
  have hle := h.offset_le
  have hbase := h.base_eq
  have hlen := h.kept.length
  unfold Block.longName
  split
  · refine (returns_bind _ _).2 ?_
    obtain ⟨out₁, h₁⟩ := (returns_store block.out (block.base + block.offset)
      (be16 (UInt16.ofNat nameOffset))).2 (by simp only [be16_length]; omega)
    have hlen₁ := store_length h₁
    refine ⟨out₁, h₁, (returns_bind _ _).2 ?_⟩
    obtain ⟨out₂, h₂⟩ := (returns_store out₁ (block.base + nameOffset)
      [UInt8.ofNat encodedName.length]).2 (by simp only [List.length_singleton]; omega)
    have hlen₂ := store_length h₂
    refine ⟨out₂, h₂, (returns_bind_iff fun _ => returns_pure _).2 ?_⟩
    rw [returns_store]
    omega
  · exact returns_ok _

variable {β : Type} {P : Prop} {f : Block → Afp β} {Q : Except AfpError β → Volume → Prop}
  {v : Volume}

theorem field_spec (h : Filled out base bitmap widths fields name block) (hdata : data.length = w)
    (hclear : Clear name (fieldsLen (widths ++ [(mask, w)]) bitmap))
    (hroom : P ∨ base + BLOCK_ROOM ≤ out.length)
    (hwidths : (widths.map (·.2)).sum + w ≤ BLOCK_ROOM) :
    Proc.wp P (Proc.lift (block.field bitmap mask data) : Afp Block) (fun r v' => v' = v ∧
      ∃ block', r = .ok block' ∧ Filled out base bitmap (widths ++ [(mask, w)])
        (fields ++ [(mask, data)]) name block') v := by
  rw [Proc.wp_lift]
  refine ⟨fun block' hblock => ⟨rfl, block', rfl, h.field hdata hclear hblock⟩, fun hpanic => ?_⟩
  rcases hroom with hp | hroom
  · exact hp
  · exact absurd (h.returns_field hdata (by omega)) hpanic

/-- Write one field and go on. -/
theorem wp_field (h : Filled out base bitmap widths fields name block) (hdata : data.length = w)
    (hclear : Clear name (fieldsLen (widths ++ [(mask, w)]) bitmap))
    (hroom : P ∨ base + BLOCK_ROOM ≤ out.length)
    (hwidths : (widths.map (·.2)).sum + w ≤ BLOCK_ROOM)
    (hf : ∀ block', Filled out base bitmap (widths ++ [(mask, w)]) (fields ++ [(mask, data)]) name
      block' → Proc.wp P (f block') Q v) :
    Proc.wp P (Proc.lift (block.field bitmap mask data) >>= f) Q v := by
  rw [Proc.wp_bind]
  refine Proc.wp_mono (h.field_spec hdata hclear hroom hwidths) ?_
  rintro _ _ ⟨rfl, block', rfl, h'⟩
  exact hf block' h'

/-- The long name goes behind all fields, so there is less room for them. -/
theorem wp_longName {nameOffset : ℕ} {encodedName : Bytes}
    (h : Filled out base bitmap widths fields none block)
    (hclear : fieldsLen (widths ++ [(Parm.LONG_NAME, 2)]) bitmap ≤ nameOffset)
    (hroom : P ∨ base + BLOCK_ROOM ≤ out.length)
    (hwidths : (widths.map (·.2)).sum + 2 ≤ BLOCK_ROOM)
    (hname : nameOffset + 1 + encodedName.length ≤ BLOCK_ROOM)
    (hf : ∀ block', Filled out base bitmap (widths ++ [(Parm.LONG_NAME, 2)])
      (fields ++ [(Parm.LONG_NAME, be16 (UInt16.ofNat nameOffset))])
      (named bitmap nameOffset encodedName) block' → Proc.wp P (f block') Q v) :
    Proc.wp P (Proc.lift (block.longName bitmap nameOffset encodedName) >>= f) Q v := by
  rw [Proc.wp_bind, Proc.wp_lift]
  refine ⟨fun block' hblock => hf block' (h.longName hclear hblock), fun hpanic => ?_⟩
  rcases hroom with hp | hroom
  · exact hp
  · exact absurd (h.returns_longName (by omega) (by omega)) hpanic

/-- Once all fields are written, the name is right behind them. -/
theorem bytes {all : List (Bitmap × ℕ)} {encodedName : Bytes}
    (h : Filled out base bitmap all fields (named bitmap (fieldsLen all bitmap) encodedName) block) :
    bytesAt block.out base
        (block.offset + if bitmap.has Parm.LONG_NAME then encodedName.length + 1 else 0) =
      fieldBytes bitmap fields ++
        if bitmap.has Parm.LONG_NAME then pascal encodedName else [] := by
  rw [bytesAt_add, h.fields_eq]
  split
  · rename_i hhas
    have hname := h.name_eq (fieldsLen all bitmap, pascal encodedName) (by rw [named, if_pos hhas]; rfl)
    rw [h.offset_eq]
    exact congrArg _ hname
  · rfl

end Filled

/-- A value as an option says: this one, or an error where there is none. -/
def Answers {α β : Type} (o : Option β) (Q : β → α → Prop) (r : Except AfpError α) : Prop :=
  match o with
  | some b => ∃ a, r = .ok a ∧ Q b a
  | none => ∃ e, r = .error e

/-! ## What a block is made of -/

/-- Paths that parameters of these objects are read from. -/
def ParmPath (S : Path → Prop) (p : HostPath) : Prop :=
  p = .object [] false ∨ ∃ path, S path ∧ (p = .object path path.isEmpty ∨ p = .sidecar path)

namespace Node

variable (sys : Sys) (node : Node) (d : Disk)

/-- Finder Info as a disk has it, and as clients see it. -/
def storedInfo : FinderInfo :=
  match (Disk.getXattr sys node.hostPath d).1 with
  | some (some data) => if data.length ≥ FinderInfo.FINDER_INFO_LEN then .ofBytes data else .default
  | _ => .default

/-- Type and creator from the contents of a file, or from its name. -/
def inferredInfo : Option TypeCreator :=
  (((Disk.readContent sys node.hostPath d).1.bind sys.mime).bind Mime.typeCreator).or
    (inferTypeCreatorFromExtension (node.path.getLastD []))

/-- The Finder Info that a block shows. -/
def finderInfo : FinderInfo :=
  if node.storedInfo sys d = .default ∧ node.isDir = false then
    match node.inferredInfo sys d with
    | some tc => { FinderInfo.default with fileType := tc.fileType, creator := tc.creator }
    | none => node.storedInfo sys d
  else node.storedInfo sys d

/-- The same, if the block wants it. -/
def finderInfo? (wanted : Bool) : Option FinderInfo :=
  if wanted then some (node.finderInfo sys d) else none

/-- Looking somewhere changes nothing that is seen. -/
theorem storedInfo_touch (p : HostPath) :
    node.storedInfo sys (d.touch p) = node.storedInfo sys d := rfl

theorem inferredInfo_touch (p : HostPath) :
    node.inferredInfo sys (d.touch p) = node.inferredInfo sys d := by
  unfold inferredInfo Disk.readContent
  have hfound : (d.touch p).found node.hostPath = d.found node.hostPath := rfl
  rw [hfound]
  rcases d.found node.hostPath with _ | ⟨ino, _ | _⟩ <;> rfl

theorem finderInfo?_touch (p : HostPath) (wanted : Bool) :
    node.finderInfo? sys (d.touch p) wanted = node.finderInfo? sys d wanted := by
  simp only [finderInfo?, finderInfo, storedInfo_touch, inferredInfo_touch]

end Node

namespace Volume

variable (sys : Sys)

/-- The length of a sidecar, the date of a volume and the number of a directory's entries. -/
def rsrcLen (path : Path) (d : Disk) : UInt32 :=
  match (Disk.metadata sys (.sidecar path) d).1 with
  | some info => if info.len > 0 then clampLenU32 info.len else 0
  | none => 0

/-- When the volume was modified. -/
def modifiedAt (v : Volume) : UInt32 :=
  ((((Disk.metadata sys (.object [] false) v.disk).1.bind fun info => sys.modified info.ino).map
    timeToAfp).getD v.createdAt)

/-- How many entries of a directory a client can see. -/
def entryCount (path : Path) (d : Disk) : Option UInt16 :=
  (Disk.readDir sys (.object path path.isEmpty) d).1.map fun names =>
    UInt16.ofNat (min (names.filter fun name => !isPrivateName name).length 65535)

end Volume

section
variable {sys : Sys} {P : Prop} {S : Path → Prop} {node : Node} {v : Volume}

theorem ParmPath.host (hnode : S node.path) : ParmPath S node.hostPath :=
  Or.inr ⟨node.path, hnode, Or.inl rfl⟩

namespace Node

/-- Finder Info comes without an error. -/
theorem storedFinderInfo_spec (hnode : S node.path) (v : Volume) :
    Proc.wp P (node.storedFinderInfo sys)
      (fun r v' => r = .ok (node.storedInfo sys v.disk) ∧ Looked (ParmPath S) v v') v := by
  have hlooked : Looked (ParmPath S) v { v with disk := v.disk.touch node.hostPath } :=
    .touch (.host hnode) v
  simp only [storedFinderInfo, Proc.wp_bind, wp_tryHost, Proc.next_ok, storedInfo]
  unfold Disk.getXattr
  dsimp only
  generalize (if sys.refuses (.getXattr node.hostPath) = true then none
    else Option.map (fun o => (v.disk.inode o.id).finderInfo) (v.disk.found node.hostPath)) = stored
  rcases stored with _ | _ | data
  · exact ⟨rfl, hlooked⟩
  · exact ⟨rfl, hlooked⟩
  · exact ⟨rfl, hlooked⟩

theorem getFinderInfo_spec (hnode : S node.path) (v : Volume) :
    Proc.wp P (node.getFinderInfo sys)
      (fun r v' => r = .ok (node.finderInfo sys v.disk) ∧ Looked (ParmPath S) v v') v := by
  have hstored : ∀ d : Disk, node.storedInfo sys (d.touch node.hostPath) = node.storedInfo sys d :=
    fun _ => rfl
  simp only [getFinderInfo, Proc.wp_bind]
  refine Proc.wp_mono (storedFinderInfo_spec hnode v) ?_
  rintro _ v₁ ⟨rfl, hlooked⟩
  have hread : (Disk.readContent sys node.hostPath v₁.disk).1 =
      (Disk.readContent sys node.hostPath v.disk).1 := by
    obtain ⟨l, -, rfl⟩ := hlooked
    have hfound : ∀ d : Disk, d.tree = v.disk.tree → d.root = v.disk.root →
        d.inodes = v.disk.inodes → (Disk.readContent sys node.hostPath d).1 =
          (Disk.readContent sys node.hostPath v.disk).1 := by
      intro d htree hroot hinodes
      have hsame : d.found node.hostPath = v.disk.found node.hostPath := by
        simp only [Disk.found, Disk.at, htree, hroot]
      simp only [Disk.readContent, hsame]
      rcases v.disk.found node.hostPath with _ | ⟨ino, _ | _⟩
      · rfl
      · simp only [Disk.inode, hinodes]
      · rfl
    exact hfound _ rfl rfl rfl
  have htouch : Looked (ParmPath S) v₁ { v₁ with disk := (Disk.readContent sys node.hostPath v₁.disk).2 } := by
    have hlook : Looked (ParmPath S) v₁ { v₁ with disk := v₁.disk.touch node.hostPath } :=
      .touch (.host hnode) v₁
    unfold Disk.readContent
    split <;> exact hlook
  simp only [Proc.next_ok, Proc.wp_ite, Proc.wp_bind, Proc.wp_pure, inferTypeCreatorFromContent,
    wp_tryHost, finderInfo, inferredInfo]
  refine ⟨fun hdefault => ?_, fun hdefault => ⟨by rw [if_neg hdefault], hlooked⟩⟩
  rw [if_pos hdefault, ← hread]
  rcases (((Disk.readContent sys node.hostPath v₁.disk).1.bind sys.mime).bind Mime.typeCreator).or
    (inferTypeCreatorFromExtension (node.path.getLastD [])) with _ | tc
  · exact ⟨rfl, hlooked.trans htouch⟩
  · exact ⟨rfl, hlooked.trans htouch⟩

theorem finderInfoFor_spec (hnode : S node.path) (wanted : Bool) (v : Volume) :
    Proc.wp P (node.finderInfoFor sys wanted)
      (fun r v' => r = .ok (node.finderInfo? sys v.disk wanted) ∧ Looked (ParmPath S) v v') v := by
  rw [finderInfoFor, Proc.wp_ite, Proc.wp_map, finderInfo?]
  constructor
  · intro hwanted
    refine Proc.wp_mono (getFinderInfo_spec hnode v) ?_
    rintro _ v' ⟨rfl, h⟩
    exact ⟨by rw [if_pos hwanted], h⟩
  · intro hwanted
    exact ⟨by rw [if_neg hwanted], .refl v⟩

end Node

namespace Volume

theorem resolveResourceForkPath_spec {path : Path} (hpath : S path) (v : Volume) :
    Proc.wp P (resolveResourceForkPath sys path)
      (fun r v' => r = .ok (.sidecar path, rsrcLen sys path v.disk) ∧ Looked (ParmPath S) v v') v := by
  have hlooked : Looked (ParmPath S) v { v with disk := v.disk.touch (.sidecar path) } :=
    .touch (Or.inr ⟨path, hpath, Or.inr rfl⟩) v
  simp only [resolveResourceForkPath, Proc.wp_bind, wp_tryHost, Proc.next_ok, rsrcLen]
  rcases (Disk.metadata sys (.sidecar path) v.disk).1 with _ | info
  · exact ⟨rfl, hlooked⟩
  · exact ⟨rfl, hlooked⟩

theorem getModifiedAt_spec (v : Volume) :
    Proc.wp P (getModifiedAt sys)
      (fun r v' => r = .ok (modifiedAt sys v) ∧ Looked (ParmPath S) v v') v := by
  simp only [getModifiedAt, Proc.wp_bind, Proc.wp_read, Proc.next_ok, wp_tryHost, Proc.wp_pure]
  exact ⟨rfl, .touch (Or.inl rfl) v⟩

theorem countDirectoryEntries_spec {path : Path} (hpath : S path) (v : Volume) :
    Proc.wp P (countDirectoryEntries sys (.object path path.isEmpty)) (fun r v' =>
      Answers (entryCount sys path v.disk) (fun n a => a = n) r ∧ Looked (ParmPath S) v v') v := by
  have hlooked : Looked (ParmPath S) v
      { v with disk := v.disk.touch (.object path path.isEmpty) } :=
    .touch (Or.inr ⟨path, hpath, Or.inl rfl⟩) v
  simp only [countDirectoryEntries, Proc.wp_bind, wp_host, entryCount]
  rcases (Disk.readDir sys (.object path path.isEmpty) v.disk).1 with _ | names
  · exact ⟨⟨_, rfl⟩, hlooked⟩
  · exact ⟨⟨_, rfl, rfl⟩, hlooked⟩

/-! ## Fields that are looked up -/

section
variable {out : Bytes} {base : ℕ} {bitmap mask : Bitmap} {widths : List (Bitmap × ℕ)}
  {fields : List (Bitmap × Bytes)} {name : Option (ℕ × Bytes)} {block : Block}

theorem resourceForkLength_spec {path : Path} (hpath : S path)
    (h : Filled out base bitmap widths fields name block)
    (hclear : Clear name (fieldsLen (widths ++ [(FileParm.RESOURCE_FORK_LENGTH, 4)]) bitmap))
    (hroom : P ∨ base + BLOCK_ROOM ≤ out.length)
    (hwidths : (widths.map (·.2)).sum + 4 ≤ BLOCK_ROOM) (v : Volume) :
    Proc.wp P (resourceForkLength sys bitmap path block) (fun r v' =>
      Looked (ParmPath S) v v' ∧ ∃ block', r = .ok block' ∧
        Filled out base bitmap (widths ++ [(FileParm.RESOURCE_FORK_LENGTH, 4)])
          (fields ++ [(FileParm.RESOURCE_FORK_LENGTH, be32 (rsrcLen sys path v.disk))]) name
            block') v := by
  rw [resourceForkLength, Proc.wp_ite]
  refine ⟨fun _ => ?_, fun hhas => ⟨.refl v, block, rfl, h.skip hhas (be32_length _)⟩⟩
  rw [Proc.wp_bind]
  refine Proc.wp_mono (resolveResourceForkPath_spec hpath v) ?_
  rintro _ v' ⟨rfl, hlooked⟩
  refine Proc.wp_mono (h.field_spec (be32_length _) hclear hroom hwidths) ?_
  rintro _ _ ⟨rfl, hblock⟩
  exact ⟨hlooked, hblock⟩

theorem modificationDate_spec (h : Filled out base bitmap widths fields name block)
    (hclear : Clear name (fieldsLen (widths ++ [(mask, 4)]) bitmap))
    (hroom : P ∨ base + BLOCK_ROOM ≤ out.length)
    (hwidths : (widths.map (·.2)).sum + 4 ≤ BLOCK_ROOM) (v : Volume) :
    Proc.wp P (modificationDate sys bitmap mask block) (fun r v' =>
      Looked (ParmPath S) v v' ∧ ∃ block', r = .ok block' ∧
        Filled out base bitmap (widths ++ [(mask, 4)]) (fields ++ [(mask, be32 (modifiedAt sys v))])
          name block') v := by
  rw [modificationDate, Proc.wp_ite]
  refine ⟨fun _ => ?_, fun hhas => ⟨.refl v, block, rfl, h.skip hhas (be32_length _)⟩⟩
  rw [Proc.wp_bind]
  refine Proc.wp_mono (getModifiedAt_spec (S := S) v) ?_
  rintro _ v' ⟨rfl, hlooked⟩
  refine Proc.wp_mono (h.field_spec (be32_length _) hclear hroom hwidths) ?_
  rintro _ _ ⟨rfl, hblock⟩
  exact ⟨hlooked, hblock⟩

/-- The number of entries, where it is asked for; none where they cannot be counted. -/
def offspring? (sys : Sys) (bitmap : Bitmap) (path : Path) (d : Disk) : Option UInt16 :=
  if bitmap.has DirParm.OFFSPRING_COUNT then entryCount sys path d else some 0

theorem offspringCount_spec {path : Path} (hpath : S path)
    (h : Filled out base bitmap widths fields name block)
    (hclear : Clear name (fieldsLen (widths ++ [(DirParm.OFFSPRING_COUNT, 2)]) bitmap))
    (hroom : P ∨ base + BLOCK_ROOM ≤ out.length)
    (hwidths : (widths.map (·.2)).sum + 2 ≤ BLOCK_ROOM) (v : Volume) :
    Proc.wp P (offspringCount sys bitmap path block) (fun r v' => Looked (ParmPath S) v v' ∧
      Answers (offspring? sys bitmap path v.disk) (fun n block' =>
        Filled out base bitmap (widths ++ [(DirParm.OFFSPRING_COUNT, 2)])
          (fields ++ [(DirParm.OFFSPRING_COUNT, be16 n)]) name block') r) v := by
  rw [offspringCount, Proc.wp_ite, offspring?]
  constructor
  · intro hhas
    rw [Proc.wp_bind, if_pos hhas]
    refine Proc.wp_mono (countDirectoryEntries_spec hpath v) ?_
    rintro r v' ⟨hcount, hlooked⟩
    generalize entryCount sys path v.disk = counted at hcount ⊢
    rcases counted with _ | n
    · obtain ⟨e, rfl⟩ := hcount
      exact ⟨hlooked, e, rfl⟩
    · obtain ⟨count, rfl, rfl⟩ := hcount
      refine Proc.wp_mono (h.field_spec (be16_length _) hclear hroom hwidths) ?_
      rintro _ _ ⟨rfl, block', rfl, hblock⟩
      exact ⟨hlooked, block', rfl, hblock⟩
  · intro hhas
    rw [if_neg hhas]
    exact ⟨.refl v, block, rfl, h.skip hhas (be16_length _)⟩

end

end Volume

end

/-! ## Whole blocks -/

/-- A buffer with this block at `base`. -/
def Wrote (out : Bytes) (base : ℕ) (bytes : Bytes) (written : Bytes × ℕ) : Prop :=
  KeptBelow out base written.1 ∧ written.2 = bytes.length ∧ bytesAt written.1 base bytes.length = bytes

theorem Filled.wrote {out : Bytes} {base : ℕ} {bitmap : Bitmap} {all : List (Bitmap × ℕ)}
    {fields : List (Bitmap × Bytes)} {encodedName : Bytes} {block : Block}
    (h : Filled out base bitmap all fields
      (Filled.named bitmap (fieldsLen all bitmap) encodedName) block) :
    Wrote out base (fieldBytes bitmap fields ++
        if bitmap.has Parm.LONG_NAME then pascal encodedName else [])
      (block.out, block.offset + if bitmap.has Parm.LONG_NAME then encodedName.length + 1 else 0) := by
  have hlen : (fieldBytes bitmap fields ++
      if bitmap.has Parm.LONG_NAME then pascal encodedName else []).length =
        block.offset + if bitmap.has Parm.LONG_NAME then encodedName.length + 1 else 0 := by
    rw [List.length_append, fieldBytes_length, h.widths_eq, h.offset_eq]
    split <;> rfl
  exact ⟨h.kept, hlen.symm, hlen ▸ h.bytes⟩

namespace Volume

section
variable (sys : Sys) [MacRoman]

/-- The fields of a file's block. -/
def fileFields (v : Volume) (node : Node) (info : Metadata) (bitmap : Bitmap) :
    List (Bitmap × Bytes) :=
  let finderInfo := node.finderInfo? sys v.disk
    (bitmap.intersects (Parm.ATTRIBUTES ||| Parm.FINDER_INFO ||| Parm.PRODOS_INFO))
  let created := creationTime sys info.ino
  let modified := (sys.modified info.ino).getD created
  [(Parm.ATTRIBUTES, be16 (Node.attributesOf finderInfo)),
    (Parm.PARENT_DIR_ID, be32 (UInt32.ofNat node.parentId)),
    (Parm.CREATE_DATE, be32 (timeToAfp created)),
    (Parm.MODIFICATION_DATE, be32 (timeToAfp modified)),
    (Parm.BACKUP_DATE, be32 AFP_DATE_NEVER),
    (Parm.FINDER_INFO, (finderInfo.getD .default).toBytes),
    (Parm.LONG_NAME, be16 (UInt16.ofNat (fileLongNameOffset bitmap))),
    (Parm.SHORT_NAME, [0, 0]),
    (FileParm.FILE_NUMBER, be32 (UInt32.ofNat node.id)),
    (FileParm.DATA_FORK_LENGTH, be32 (clampLenU32 info.len)),
    (FileParm.RESOURCE_FORK_LENGTH, be32 (rsrcLen sys node.path v.disk)),
    (Parm.PRODOS_INFO, (ProdosInfo.fromFinderInfo (finderInfo.getD .default)).toBytes)]

/-- The name behind the fields, where it is asked for. -/
def nameBytes (bitmap : Bitmap) (name : Name) : Bytes :=
  if bitmap.has Parm.LONG_NAME then pascal (mangleName name) else []

/-- The parameters of a file; none where it cannot be looked at. -/
def fileBlock (v : Volume) (node : Node) (bitmap : Bitmap) : Option Bytes :=
  (Disk.metadata sys node.hostPath v.disk).1.map fun info =>
    fieldBytes bitmap (fileFields sys v node info bitmap) ++ nameBytes bitmap node.name

omit [MacRoman] in
/-- The object is on disk and can be looked at. -/
def Present (v : Volume) (node : Node) : Prop :=
  (Disk.metadata sys node.hostPath v.disk).1.isSome = true

theorem exists_fileBlock {sys : Sys} {v : Volume} {node : Node} (bitmap : Bitmap)
    (h : Present sys v node) : ∃ bytes, fileBlock sys v node bitmap = some bytes := by
  obtain ⟨info, hinfo⟩ := Option.isSome_iff_exists.1 h
  exact ⟨_, by rw [fileBlock, hinfo]; rfl⟩

/-- The fields of a directory with this many entries. -/
def dirFields (v : Volume) (node : Node) (offspring : UInt16) (bitmap : Bitmap) :
    List (Bitmap × Bytes) :=
  let finderInfo := node.finderInfo? sys v.disk
    (bitmap.intersects (Parm.ATTRIBUTES ||| Parm.FINDER_INFO))
  [(Parm.ATTRIBUTES, be16 (Node.attributesOf finderInfo)),
    (Parm.PARENT_DIR_ID, be32 (UInt32.ofNat node.parentId)),
    (Parm.CREATE_DATE, be32 v.createdAt),
    (Parm.MODIFICATION_DATE, be32 (modifiedAt sys v)),
    (Parm.BACKUP_DATE, be32 AFP_DATE_NEVER),
    (Parm.FINDER_INFO, (finderInfo.getD .default).toBytes),
    (Parm.LONG_NAME, be16 (UInt16.ofNat (dirLongNameOffset bitmap))),
    (Parm.SHORT_NAME, [0, 0]),
    (DirParm.DIR_ID, be32 (UInt32.ofNat node.id)),
    (DirParm.OFFSPRING_COUNT, be16 offspring),
    (DirParm.OWNER_ID, be32 0),
    (DirParm.GROUP_ID, be32 0),
    (DirParm.ACCESS_RIGHTS, be32 ACCESS_RIGHTS),
    (Parm.PRODOS_INFO, ProdosInfo.DIRECTORY.toBytes)]

/-- The parameters of a directory; the number of its entries is of the path that was asked for. -/
def dirBlock (v : Volume) (node : Node) (relPath : Path) (bitmap : Bitmap) : Option Bytes :=
  (offspring? sys bitmap relPath v.disk).map fun offspring =>
    fieldBytes bitmap (dirFields sys v node offspring bitmap) ++ nameBytes bitmap node.name

/-- The node registered at a path. -/
def registered? (v : Volume) (relPath : Path) : Option Node :=
  (v.pathToId[relPath]?).bind fun id => v.nodes[id]?

end

variable {sys : Sys} {P : Prop} {out : Bytes} {base : ℕ}

theorem wp_registered {relPath : Path} {Q : Except AfpError Node → Volume → Prop} {v : Volume} :
    Proc.wp P (registered relPath) Q v ↔ Q (match v.registered? relPath with
      | some node => .ok node
      | none => .error .objectNotFound) v := by
  simp only [registered, getNode, registered?, Proc.wp_bind, Proc.wp_read, Proc.next_ok,
    Proc.wp_orElse, Proc.next_error]
  rcases hid : v.pathToId[relPath]? with _ | id
  · simp
  · simp only [Option.some.injEq, forall_eq', reduceCtorEq, false_implies, and_true,
      Option.bind_some]
    rcases v.nodes[id]? with _ | node
    · simp
    · simp

theorem clear_name {widths all : List (UInt16 × ℕ)} {bitmap : Bitmap} {name : Bytes}
    (h : widths <+: all) :
    Clear (Filled.named bitmap (fieldsLen all bitmap) name) (fieldsLen widths bitmap) := by
  intro e he
  unfold Filled.named at he
  split at he
  · obtain rfl := Option.some.inj he
    exact fieldsLen_mono h bitmap
  · cases he

variable [MacRoman]

theorem longName_fits {offset : ℕ} (h : offset ≤ 78) (name : Name) :
    offset + 1 + (mangleName name).length ≤ BLOCK_ROOM := by
  have hmangled : (mangleName name).length ≤ 31 := mangleName_length_le name
  simp only [BLOCK_ROOM]
  omega

theorem nodeFileParmsResp_spec (node : Node) (bitmap : Bitmap)
    (hroom : P ∨ base + BLOCK_ROOM ≤ out.length) (v : Volume) :
    Proc.wp P (nodeFileParmsResp sys node bitmap out base) (fun r v' =>
      Looked (ParmPath (· = node.path)) v v' ∧
        Answers (fileBlock sys v node bitmap) (Wrote out base) r) v := by
  have hmeta : Looked (ParmPath (· = node.path)) v { v with disk := v.disk.touch node.hostPath } :=
    .touch (.host rfl) v
  unfold nodeFileParmsResp fileBlock
  rw [Proc.wp_bind, wp_host]
  rcases hinfo : (Disk.metadata sys node.hostPath v.disk).1 with _ | info
  · exact ⟨hmeta, _, rfl⟩
  rw [Proc.next_ok, Proc.wp_bind]
  refine Proc.wp_mono (Node.finderInfoFor_spec (S := (· = node.path)) rfl _
    { v with disk := v.disk.touch node.hostPath }) ?_
  rintro _ v₁ ⟨hseen, h₁⟩
  rw [Node.finderInfo?_touch] at hseen
  subst hseen
  have hlooked := hmeta.trans h₁
  rw [Proc.next_ok]
  have h := Filled.start out base bitmap
  refine Filled.wp_field h (be16_length _) (clear_none _) hroom (by decide) fun block h => ?_
  refine Filled.wp_field h (be32_length _) (clear_none _) hroom (by decide) fun block h => ?_
  refine Filled.wp_field h (be32_length _) (clear_none _) hroom (by decide) fun block h => ?_
  refine Filled.wp_field h (be32_length _) (clear_none _) hroom (by decide) fun block h => ?_
  refine Filled.wp_field h (be32_length _) (clear_none _) hroom (by decide) fun block h => ?_
  refine Filled.wp_field h (FinderInfo.toBytes_length _) (clear_none _) hroom (by decide)
    fun block h => ?_
  have hfields : fileLongNameOffset bitmap ≤ 72 := fieldsLen_le fileWidths bitmap
  refine Filled.wp_longName h (fieldsLen_mono ⟨_, rfl⟩ bitmap) hroom (by decide)
    (longName_fits (by omega) _) fun block h => ?_
  refine Filled.wp_field h rfl (clear_name ⟨_, rfl⟩) hroom (by decide) fun block h => ?_
  refine Filled.wp_field h (be32_length _) (clear_name ⟨_, rfl⟩) hroom (by decide) fun block h => ?_
  refine Filled.wp_field h (be32_length _) (clear_name ⟨_, rfl⟩) hroom (by decide) fun block h => ?_
  rw [Proc.wp_bind]
  refine Proc.wp_mono (resourceForkLength_spec (S := (· = node.path)) rfl h (clear_name ⟨_, rfl⟩)
    hroom (by decide) v₁) ?_
  rintro _ v₂ ⟨h₂, block, rfl, h⟩
  rw [Proc.next_ok]
  refine Filled.wp_field h (ProdosInfo.toBytes_length _) (clear_name ⟨_, rfl⟩) hroom (by decide)
    fun block h => ?_
  have hlen : rsrcLen sys node.path v₁.disk = rsrcLen sys node.path v.disk := by
    obtain ⟨l, -, rfl⟩ := hlooked
    rfl
  rw [hlen] at h
  exact ⟨hlooked.trans h₂, _, rfl, h.wrote⟩

theorem getFileParmsResp_spec (bitmap : Bitmap) (relPath : Path)
    (hroom : P ∨ base + BLOCK_ROOM ≤ out.length) (v : Volume) :
    Proc.wp P (getFileParmsResp sys bitmap relPath out base) (fun r v' =>
      match v.registered? relPath with
      | some node => Looked (ParmPath (· = node.path)) v v' ∧
          Answers (fileBlock sys v node bitmap) (Wrote out base) r
      | none => v' = v ∧ r = .error .objectNotFound) v := by
  rw [getFileParmsResp, Proc.wp_bind, wp_registered]
  rcases v.registered? relPath with _ | node
  · exact ⟨rfl, rfl⟩
  · exact nodeFileParmsResp_spec node bitmap hroom v

theorem getDirectoryParmsResp_spec (bitmap : Bitmap) (relPath : Path)
    (hroom : P ∨ base + BLOCK_ROOM ≤ out.length) (v : Volume) :
    Proc.wp P (getDirectoryParmsResp sys bitmap relPath out base) (fun r v' =>
      match v.registered? relPath with
      | some node => Looked (ParmPath fun q => q = node.path ∨ q = relPath) v v' ∧
          Answers (dirBlock sys v node relPath bitmap) (Wrote out base) r
      | none => v' = v ∧ r = .error .objectNotFound) v := by
  rw [getDirectoryParmsResp, Proc.wp_bind, wp_registered]
  rcases v.registered? relPath with _ | node
  · exact ⟨rfl, rfl⟩
  rw [Proc.next_ok, Proc.wp_bind, Proc.wp_read, Proc.next_ok, Proc.wp_bind]
  refine Proc.wp_mono (Node.finderInfoFor_spec (S := fun q => q = node.path ∨ q = relPath)
    (Or.inl rfl) _ _) ?_
  rintro _ v₁ ⟨rfl, h₁⟩
  rw [Proc.next_ok]
  have h := Filled.start out base bitmap
  refine Filled.wp_field h (be16_length _) (clear_none _) hroom (by decide) fun block h => ?_
  refine Filled.wp_field h (be32_length _) (clear_none _) hroom (by decide) fun block h => ?_
  refine Filled.wp_field h (be32_length _) (clear_none _) hroom (by decide) fun block h => ?_
  rw [Proc.wp_bind]
  refine Proc.wp_mono (modificationDate_spec (S := fun q => q = node.path ∨ q = relPath) h
    (clear_none _) hroom (by decide) v₁) ?_
  rintro _ v₂ ⟨h₂, block, rfl, h⟩
  have hmodified : modifiedAt sys v₁ = modifiedAt sys v := by
    obtain ⟨l, -, rfl⟩ := h₁
    rfl
  rw [hmodified] at h
  rw [Proc.next_ok]
  refine Filled.wp_field h (be32_length _) (clear_none _) hroom (by decide) fun block h => ?_
  refine Filled.wp_field h (FinderInfo.toBytes_length _) (clear_none _) hroom (by decide)
    fun block h => ?_
  have hfields : dirLongNameOffset bitmap ≤ 78 := fieldsLen_le dirWidths bitmap
  refine Filled.wp_longName h (fieldsLen_mono ⟨_, rfl⟩ bitmap) hroom (by decide)
    (longName_fits hfields _) fun block h => ?_
  refine Filled.wp_field h rfl (clear_name ⟨_, rfl⟩) hroom (by decide) fun block h => ?_
  refine Filled.wp_field h (be32_length _) (clear_name ⟨_, rfl⟩) hroom (by decide) fun block h => ?_
  rw [Proc.wp_bind]
  refine Proc.wp_mono (offspringCount_spec (S := fun q => q = node.path ∨ q = relPath)
    (Or.inr rfl) h (clear_name ⟨_, rfl⟩) hroom (by decide) v₂) ?_
  have hlooked := h₁.trans h₂
  have hoffspring : offspring? sys bitmap relPath v₂.disk = offspring? sys bitmap relPath v.disk := by
    obtain ⟨l, -, rfl⟩ := hlooked
    rfl
  rw [hoffspring]
  rintro r v₃ ⟨h₃, hr⟩
  simp only [dirBlock]
  generalize offspring? sys bitmap relPath v.disk = counted at hr ⊢
  rcases counted with _ | offspring
  · obtain ⟨e, rfl⟩ := hr
    exact ⟨hlooked.trans h₃, e, rfl⟩
  obtain ⟨block, rfl, h⟩ := hr
  rw [Proc.next_ok]
  refine Filled.wp_field h (be32_length _) (clear_name ⟨_, rfl⟩) hroom (by decide) fun block h => ?_
  refine Filled.wp_field h (be32_length _) (clear_name ⟨_, rfl⟩) hroom (by decide) fun block h => ?_
  refine Filled.wp_field h (be32_length _) (clear_name ⟨_, rfl⟩) hroom (by decide) fun block h => ?_
  refine Filled.wp_field h (ProdosInfo.toBytes_length _) (clear_name ⟨_, rfl⟩) hroom (by decide)
    fun block h => ?_
  exact ⟨hlooked.trans h₃, _, rfl, h.wrote⟩

end Volume

end TailTalk
