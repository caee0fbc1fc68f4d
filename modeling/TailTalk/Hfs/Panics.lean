/-
  When reading an image panics.

  The sums and slices of the parser stay in range whatever the image says, but
  the records of a node do not: the offset of record 256 lies before the node,
  and a record that starts at the end of its node has no length byte.
-/
import TailTalk.Hfs.Volume
import Mathlib

namespace TailTalk.Hfs

open Lib

/-! ## One record -/

/-- The number of records that a node says it has. -/
def numRecords (node : Bytes) : ℕ := (ofBe16 (node.getD 10 0) (node.getD 11 0)).toNat

/-- The offset of record `i`, for the records whose offset lies in the node. -/
def recordOffset (node : Bytes) (i : ℕ) : ℕ :=
  (ofBe16 (node.getD (510 - 2 * i) 0) (node.getD (511 - 2 * i) 0)).toNat

/-- Every record has its offset in the node and starts before the node's end or past it. -/
def NodeSound (node : Bytes) : Prop :=
  ∀ i < numRecords node, i < 256 ∧ recordOffset node i ≠ NODE_SIZE

instance (node : Bytes) : Decidable (NodeSound node) := Nat.decidableBallLT _ _

theorem recordAt_eq {node : Bytes} (hlen : node.length = NODE_SIZE) {i : ℕ} (hi : i < 256) :
    recordAt node i = .ok (getFrom node (recordOffset node i)) := by
  unfold NODE_SIZE at hlen
  have hptr : getRange node (512 - 2 * (i + 1)) (512 - 2 * (i + 1) + 2) =
      some ((node.take (512 - 2 * (i + 1) + 2)).drop (512 - 2 * (i + 1))) :=
    if_pos (by omega)
  have hat : ∀ k < 2, ((node.take (512 - 2 * (i + 1) + 2)).drop (512 - 2 * (i + 1))).getD k 0 =
      node.getD (510 - 2 * i + k) 0 := by
    intro k hk
    have hidx : 512 - 2 * (i + 1) + k = 510 - 2 * i + k := by omega
    rw [List.getD_eq_getElem?_getD, List.getElem?_drop, List.getElem?_take_of_lt (by omega), hidx,
      ← List.getD_eq_getElem?_getD]
  have hhi := hat 0 (by omega)
  have hlo := hat 1 (by omega)
  rw [Nat.add_zero] at hhi
  rw [show 510 - 2 * i + 1 = 511 - 2 * i by omega] at hlo
  rw [recordAt, if_neg (by unfold NODE_SIZE; omega)]
  unfold NODE_SIZE
  simp only [hptr]
  rw [be16At_eq (by rw [List.length_drop, List.length_take]; omega), hhi, hlo]
  rfl

theorem not_returns_recordAt {node : Bytes} {i : ℕ} (hi : 256 ≤ i) :
    ¬ Returns (recordAt node i) := by
  rw [recordAt, if_pos (by unfold NODE_SIZE; omega)]
  exact not_returns_error _

theorem returns_readFound {τ : Type} {entry : Bytes → Checked (Option τ)}
    (hentry : ∀ r, Returns (entry r) ↔ r ≠ []) {node : Bytes} (hlen : node.length = NODE_SIZE)
    (off : ℕ) : Returns (readFound entry (getFrom node off)) ↔ off ≠ NODE_SIZE := by
  unfold getFrom
  split_ifs with hoff
  · rw [readFound, hentry, Ne, List.drop_eq_nil_iff, hlen]
    omega
  · rw [readFound]
    exact ⟨fun _ => by omega, fun _ => returns_ok none⟩

/-! ## One node -/

theorem returns_nodeRecords {τ : Type} {entry : Bytes → Checked (Option τ)}
    (hentry : ∀ r, Returns (entry r) ↔ r ≠ []) {node : Bytes} (hlen : node.length = NODE_SIZE)
    (is : List ℕ) :
    Returns (nodeRecords entry node is) ↔
      ∀ i ∈ is, i < 256 ∧ recordOffset node i ≠ NODE_SIZE := by
  induction is with
  | nil => exact ⟨fun _ i hi => absurd hi (List.not_mem_nil), fun _ => returns_ok []⟩
  | cons i is ih =>
    rw [nodeRecords, List.forall_mem_cons, ← ih]
    by_cases hi : i < 256
    · rw [recordAt_eq hlen hi, returns_ok_bind, returns_bind]
      constructor
      · rintro ⟨read, hread, hrest⟩
        rw [returns_bind_iff fun _ => returns_ok _] at hrest
        exact ⟨⟨hi, (returns_readFound hentry hlen _).1 ⟨read, hread⟩⟩, hrest⟩
      · rintro ⟨⟨-, hoff⟩, hrest⟩
        obtain ⟨read, hread⟩ := (returns_readFound hentry hlen _).2 hoff
        exact ⟨read, hread, (returns_bind_iff fun _ => returns_ok _).2 hrest⟩
    · constructor
      · intro h
        obtain ⟨found, hfound, -⟩ := (returns_bind _ _).1 h
        exact absurd ⟨found, hfound⟩ (not_returns_recordAt (by omega))
      · rintro ⟨⟨hin, -⟩, -⟩
        exact absurd hin hi

theorem returns_readExtent (data : Bytes) (o : ℕ) : Returns (readExtent data o) := by
  unfold readExtent
  split_ifs with hin
  · rw [be16At_eq (by omega), returns_ok_bind, be16At_eq (by omega), returns_ok_bind]
    exact returns_ok _
  · exact returns_ok _

theorem returns_readExtentRecord (data : Bytes) (offset : ℕ) :
    Returns (readExtentRecord data offset) := by
  obtain ⟨first, hfirst⟩ := returns_readExtent data offset
  obtain ⟨second, hsecond⟩ := returns_readExtent data (offset + 4)
  obtain ⟨third, hthird⟩ := returns_readExtent data (offset + 8)
  rw [readExtentRecord, hfirst, returns_ok_bind, hsecond, returns_ok_bind, hthird, returns_ok_bind]
  exact returns_ok _

theorem returns_record_iff {α : Type} {f : Bytes → Checked α} {r : Bytes}
    (hempty : ¬ Returns (f [])) (h : 0 < r.length → Returns (f r)) : Returns (f r) ↔ r ≠ [] :=
  ⟨fun hr hnil => hempty (hnil ▸ hr), fun hne => h (List.length_pos_iff.2 hne)⟩

theorem returns_overflowEntry (r : Bytes) : Returns (ExtentsOverflow.entry r) ↔ r ≠ [] := by
  refine returns_record_iff (not_returns_error _) fun hpos => ?_
  rw [ExtentsOverflow.entry, byteAt_eq hpos, returns_ok_bind]
  extract_lets keyLen
  split_ifs with hshort
  · exact returns_ok none
  · push Not at hshort
    rw [byteAt_eq (by omega), returns_ok_bind, be32At_eq (by omega), returns_ok_bind,
      be16At_eq (by omega), returns_ok_bind]
    split
    · exact returns_ok none
    · rw [returns_bind_iff fun _ => returns_ok _]
      exact returns_readExtentRecord _ 0

theorem returns_leafEntry (parentCnid : UInt32) (name : Text) (recData : Bytes) :
    Returns (Catalog.leafEntry parentCnid name recData) := by
  rw [Catalog.leafEntry]
  by_cases hshort : recData.length < 2
  · rw [if_pos hshort]
    exact returns_ok none
  rw [if_neg hshort, byteAt_eq (by omega), returns_ok_bind, byteAt_eq (by omega), returns_ok_bind]
  extract_lets recType
  by_cases hdir : recType = 1
  · rw [if_pos hdir]
    split_ifs with hlong
    · exact returns_ok none
    · rw [be32At_eq (by omega), returns_ok_bind]
      exact returns_ok _
  rw [if_neg hdir]
  by_cases hfile : recType = 2
  · rw [if_pos hfile]
    split_ifs with hlong
    · exact returns_ok none
    · obtain ⟨dataExt, hdata⟩ := returns_readExtentRecord recData 74
      obtain ⟨rsrcExt, hrsrc⟩ := returns_readExtentRecord recData 86
      rw [slice_eq (by omega) (by omega), returns_ok_bind, slice_eq (by omega) (by omega),
        returns_ok_bind, be32At_eq (by omega), returns_ok_bind, be32At_eq (by omega),
        returns_ok_bind, be32At_eq (by omega), returns_ok_bind, hdata, returns_ok_bind, hrsrc,
        returns_ok_bind]
      exact returns_ok _
  · rw [if_neg hfile]
    exact returns_ok none

theorem returns_catalogEntry (nodeKind : UInt8) (r : Bytes) :
    Returns (Catalog.entry nodeKind r) ↔ r ≠ [] := by
  refine returns_record_iff (not_returns_error _) fun hpos => ?_
  rw [Catalog.entry, byteAt_eq hpos, returns_ok_bind]
  extract_lets keyLen
  split_ifs with hshort hleaf hindex
  · exact returns_ok none
  · push Not at hshort
    rw [be32At_eq (by omega), returns_ok_bind, byteAt_eq (by omega), returns_ok_bind]
    extract_lets nameBytes name
    split
    · exact returns_ok none
    · exact returns_leafEntry _ _ _
  · push Not at hshort
    rw [be32At_eq (by omega), returns_ok_bind, byteAt_eq (by omega), returns_ok_bind]
    extract_lets nameBytes name
    split
    · exact returns_ok none
    · rename_i ptrData hptr
      have hfour := (getRange_length hptr).1
      rw [be32At_eq (by omega), returns_ok_bind]
      exact returns_ok _
  · push Not at hshort
    rw [be32At_eq (by omega), returns_ok_bind, byteAt_eq (by omega), returns_ok_bind]
    exact returns_ok none

theorem forall_range_sound (node : Bytes) :
    (∀ i ∈ List.range (numRecords node), i < 256 ∧ recordOffset node i ≠ NODE_SIZE) ↔
      NodeSound node := by
  unfold NodeSound
  simp only [List.mem_range]

/-- **A node of the overflow file** is read without a panic just when it is sound. -/
theorem returns_overflowNode {n : Bytes} (hlen : n.length = NODE_SIZE) :
    Returns (ExtentsOverflow.node n) ↔ NodeSound n := by
  have hbig : 12 ≤ n.length := by rw [hlen]; unfold NODE_SIZE; omega
  rw [ExtentsOverflow.node, be32At_eq (by omega), returns_ok_bind, be16At_eq (by omega),
    returns_ok_bind, returns_bind_iff fun _ => returns_ok _,
    returns_nodeRecords returns_overflowEntry hlen]
  exact forall_range_sound n

/-- **A node of the catalog** likewise. -/
theorem returns_catalogNode {n : Bytes} (hlen : n.length = NODE_SIZE) :
    Returns (Catalog.node n) ↔ NodeSound n := by
  have hbig : 12 ≤ n.length := by rw [hlen]; unfold NODE_SIZE; omega
  rw [Catalog.node, byteAt_eq (by omega), returns_ok_bind, be16At_eq (by omega), returns_ok_bind,
    returns_bind_iff, returns_nodeRecords (returns_catalogEntry _) hlen]
  · exact forall_range_sound n
  · intro entries
    split_ifs
    · rw [be32At_eq (by omega), returns_ok_bind]
      exact returns_ok _
    · exact returns_ok _

theorem nodeAt_length {data : Bytes} {idx : UInt32} {n : Bytes} (h : nodeAt data idx = some n) :
    n.length = NODE_SIZE := by
  rw [(getRange_length h).1]
  omega

/-! ## The two walks -/

/-- The nodes that a walk from `start` comes to are sound. -/
def WalkSound {τ : Type} (g : Graph UInt32 Bytes τ) (start : UInt32) : Prop :=
  ∀ idx node, g.Reaches [start] idx → g.skip idx = false → g.look idx = some node → NodeSound node

theorem returns_explore_iff {τ : Type} {g : Graph UInt32 Bytes τ}
    (hread : ∀ idx node, g.look idx = some node → (Returns (g.read node) ↔ NodeSound node))
    (start : UInt32) : Returns (g.explore [start] []) ↔ WalkSound g start := by
  rw [Graph.explore_returns_iff]
  constructor
  · intro h idx node hreach hskip hlook
    exact (hread idx node hlook).1 (h idx node hreach hskip hlook)
  · intro h idx node hreach hskip hlook
    exact (hread idx node hlook).2 (h idx node hreach hskip hlook)

/-- The first leaf of the overflow file, from its header. -/
def firstLeaf (data : Bytes) : UInt32 :=
  readBe32 [data.getD 24 0, data.getD 25 0, data.getD 26 0, data.getD 27 0]

/-- The root of the catalog, from its header. -/
def rootNode (data : Bytes) : UInt32 :=
  readBe32 [data.getD 16 0, data.getD 17 0, data.getD 18 0, data.getD 19 0]

theorem returns_overflowParse {data : Bytes} (hlen : NODE_SIZE ≤ data.length) :
    Returns (ExtentsOverflow.parse data) ↔
      WalkSound (ExtentsOverflow.graph data) (firstLeaf data) := by
  have hbig : 28 ≤ data.length := le_trans (by unfold NODE_SIZE; omega) hlen
  rw [ExtentsOverflow.parse, if_neg (by omega), be32At_eq (by omega), returns_ok_bind,
    returns_bind_iff fun _ => returns_ok _]
  exact returns_explore_iff (fun idx node hlook => returns_overflowNode (nodeAt_length hlook)) _

/-! ## Extents of a file -/

theorem Extents.blocks_lt (e : Extents) : e.blocks < 196608 := by
  have h₁ := e.first.2.toNat_lt
  have h₂ := e.second.2.toNat_lt
  have h₃ := e.third.2.toNat_lt
  unfold Extents.blocks
  omega

theorem lt_of_get {o : ExtentsOverflow} {cnid : UInt32} {forkType : UInt8} {covered : ℕ}
    {ext : Extents} (h : o.get cnid forkType covered = some ext) : covered < 65536 := by
  unfold ExtentsOverflow.get at h
  split_ifs at h with hlt
  exact hlt

theorem returns_more (o : ExtentsOverflow) (cnid : UInt32) (forkType : UInt8)
    (blocksNeeded covered : ℕ) : Returns (o.more cnid forkType blocksNeeded covered) := by
  fun_induction o.more cnid forkType blocksNeeded covered with
  | case1 covered hget => exact returns_ok []
  | case2 covered ext hget p hadded =>
    rw [asU32_eq (lt_trans ext.blocks_lt (by omega))] at hadded
    cases hadded
  | case3 covered ext hget hadded => exact returns_ok _
  | case4 covered ext hget added hadded hne p hcovered =>
    have hcov := lt_of_get hget
    have hblocks := ext.blocks_lt
    rw [asU32_eq (by omega)] at hadded
    cases hadded
    rw [asU32_eq (by omega)] at hcovered
    cases hcovered
  | case5 => exact returns_ok _
  | case6 covered ext hget added hadded hne covered' hcovered hneeded p hrest ih =>
    rw [hrest] at ih
    exact absurd ih (not_returns_error p)
  | case7 => exact returns_ok _

theorem returns_getExtents (o : ExtentsOverflow) (cnid : UInt32) (forkType : UInt8)
    (catalogExt : Extents) (logicalSize blockSize : UInt32) :
    Returns (o.getExtents cnid forkType catalogExt logicalSize blockSize) := by
  unfold ExtentsOverflow.getExtents
  split_ifs with hzero
  · exact returns_ok _
  · rw [asU32_eq (lt_trans catalogExt.blocks_lt (by omega)), returns_ok_bind]
    extract_lets blocksNeeded
    split_ifs with hcovered
    · exact returns_ok _
    · rw [returns_bind_iff fun _ => returns_ok _]
      exact returns_more o cnid forkType _ _

/-! ## The catalog -/

theorem catalog_read (data : Bytes) (idx : UInt32) (node : Bytes)
    (hlook : (Catalog.graph data).look idx = some node) :
    Returns ((Catalog.graph data).read node) ↔ NodeSound node :=
  returns_catalogNode (nodeAt_length hlook)

theorem returns_fileEntry (st : Catalog.State) (o : ExtentsOverflow) (blockSize : UInt32)
    (rf : RawFile) : Returns (Catalog.fileEntry st o blockSize rf) := by
  unfold Catalog.fileEntry
  extract_lets relPath
  split_ifs with hempty
  · exact returns_ok none
  · obtain ⟨dataExtents, hdata⟩ := returns_getExtents o rf.cnid 0x00 rf.dataExt rf.dataLogical
      blockSize
    obtain ⟨rsrcExtents, hrsrc⟩ := returns_getExtents o rf.cnid 0xFF rf.rsrcExt rf.rsrcLogical
      blockSize
    rw [hdata, returns_ok_bind, hrsrc, returns_ok_bind]
    exact returns_ok _

theorem returns_fileEntries (st : Catalog.State) (o : ExtentsOverflow) (blockSize : UInt32)
    (files : List RawFile) : Returns (Catalog.fileEntries st o blockSize files) := by
  induction files with
  | nil => exact returns_ok []
  | cons rf files ih =>
    obtain ⟨entry, hentry⟩ := returns_fileEntry st o blockSize rf
    obtain ⟨rest, hrest⟩ := ih
    rw [Catalog.fileEntries, hentry, returns_ok_bind, hrest, returns_ok_bind]
    exact returns_ok _

/-- **The catalog is listed without a panic** just when the walk over it comes to sound nodes
    only. -/
theorem calm_parseCatalog_iff (vol : HfsVolume) (catData : Bytes) (o : ExtentsOverflow) :
    Calm (vol.parseCatalog catData o) ↔
      (NODE_SIZE ≤ catData.length → WalkSound (Catalog.graph catData) (rootNode catData)) := by
  rw [HfsVolume.parseCatalog]
  by_cases hlen : catData.length < NODE_SIZE
  · rw [if_pos hlen]
    exact ⟨fun _ h => by omega, fun _ => calm_fail _⟩
  · have hbig : 20 ≤ catData.length :=
      le_trans (by unfold NODE_SIZE; omega) (Nat.le_of_not_lt hlen)
    rw [if_neg hlen, be32At_eq (by omega), orPanic_ok_bind, calm_orPanic_bind,
      returns_explore_iff (catalog_read catData)]
    constructor
    · rintro ⟨hwalk, -⟩ -
      exact hwalk
    · intro hwalk
      refine ⟨hwalk (Nat.le_of_not_lt hlen), fun nodes _ => ?_⟩
      rw [calm_orPanic_bind]
      exact ⟨returns_fileEntries _ o _ _, fun files _ => calm_ok _⟩

/-! ## Forks -/

theorem byteOffsetOfBlock_eq (vol : HfsVolume) (block : UInt16) :
    vol.byteOffsetOfBlock block.toUInt32 =
      .ok (vol.firstAllocSector.toNat * 512 + block.toNat * vol.blockSize.toNat) := by
  have hsector := vol.firstAllocSector.toNat_lt
  have hoff : block.toNat * vol.blockSize.toNat < 2 ^ 16 * 2 ^ 32 :=
    Nat.mul_lt_mul'' block.toNat_lt vol.blockSize.toNat_lt
  rw [HfsVolume.byteOffsetOfBlock, UInt16.toNat_toUInt32, asUsize_eq (by omega),
    asUsize_eq (lt_trans hoff (by omega))]
  exact asUsize_eq (by omega)

theorem calm_readRuns (vol : HfsVolume) (logicalSize : UInt32) (runs : List (UInt16 × UInt16))
    (out : Bytes) : Calm (vol.readRuns logicalSize runs out) := by
  induction runs generalizing out with
  | nil => exact calm_ok out
  | cons run runs ih =>
    obtain ⟨startBlock, blockCount⟩ := run
    have hsector := vol.firstAllocSector.toNat_lt
    have hoff : startBlock.toNat * vol.blockSize.toNat < 2 ^ 16 * 2 ^ 32 :=
      Nat.mul_lt_mul'' startBlock.toNat_lt vol.blockSize.toNat_lt
    have hlen : blockCount.toNat * vol.blockSize.toNat < 2 ^ 16 * 2 ^ 32 :=
      Nat.mul_lt_mul'' blockCount.toNat_lt vol.blockSize.toNat_lt
    rw [HfsVolume.readRuns]
    split_ifs with hempty
    · exact calm_ok out
    · rw [byteOffsetOfBlock_eq, orPanic_ok_bind, asUsize_eq (lt_trans hlen (by omega)),
        orPanic_ok_bind, asUsize_eq (by omega), orPanic_ok_bind, calm_bind]
      refine ⟨calm_okOr _ _, fun chunk _ => ?_⟩
      split_ifs with hfull
      · exact calm_ok _
      · exact ih _

/-- **A fork is read without a panic**, whatever extents it is said to have. -/
theorem calm_readRaw (vol : HfsVolume) (extents : List Extents) (logicalSize : UInt32) :
    Calm (vol.readRaw extents logicalSize) := by
  unfold HfsVolume.readRaw
  split_ifs with hzero
  · exact calm_ok []
  · rw [calm_bind_of_calm fun _ => calm_ok _]
    exact calm_readRuns vol logicalSize _ []

/-! ## Images -/

theorem calm_sectors (img : Bytes) : Calm (HfsVolume.sectors img) := by
  unfold HfsVolume.sectors
  split_ifs with hdc42
  · rw [calm_bind]
    refine ⟨calm_okOr _ _, fun size hsize => ?_⟩
    have hfour := (getRange_length (okOr_eq_ok.1 hsize)).1
    rw [be32At_eq (by omega), orPanic_ok_bind]
    exact calm_okOr _ _
  · exact calm_ok img

theorem calm_readMdb (img : Bytes) {mdb : Bytes} (hlen : mdb.length = 162) :
    Calm (HfsVolume.readMdb img mdb) := by
  rw [HfsVolume.readMdb, be16At_eq (by omega), orPanic_ok_bind]
  split_ifs with hsig hplus hmfs
  · exact calm_fail _
  · exact calm_fail _
  · exact calm_fail _
  · rw [be32At_eq (by omega), orPanic_ok_bind]
    split_ifs with hzero
    · exact calm_fail _
    · obtain ⟨extExtents, hext⟩ := returns_readExtentRecord mdb 134
      obtain ⟨catExtents, hcat⟩ := returns_readExtentRecord mdb 150
      rw [be16At_eq (by omega), orPanic_ok_bind, byteAt_eq (by omega), orPanic_ok_bind,
        be32At_eq (by omega), orPanic_ok_bind, hext, orPanic_ok_bind, be32At_eq (by omega),
        orPanic_ok_bind, hcat, orPanic_ok_bind]
      exact calm_ok _

theorem calm_openImage (img : Bytes) : Calm (HfsVolume.openImage img) := by
  rw [HfsVolume.openImage, calm_bind]
  refine ⟨calm_sectors img, fun data _ => ?_⟩
  rw [calm_bind]
  refine ⟨calm_okOr _ _, fun mdb hmdb => ?_⟩
  have hlen := (getRange_length (okOr_eq_ok.1 hmdb)).1
  exact calm_readMdb data (by omega)

/-- The nodes that the two walks over an image come to are sound. -/
structure Sound (img : Bytes) : Prop where
  /-- in the overflow file, if it can be read and is not too short to have nodes -/
  overflow : ∀ opened extData, HfsVolume.openImage img = .ok opened →
    opened.vol.readRaw [opened.extExtents] opened.extLogical = .ok extData →
    NODE_SIZE ≤ extData.length → WalkSound (ExtentsOverflow.graph extData) (firstLeaf extData)
  /-- in the catalog, if both files can be read and it is not too short to have nodes -/
  catalog : ∀ opened extData catData, HfsVolume.openImage img = .ok opened →
    opened.vol.readRaw [opened.extExtents] opened.extLogical = .ok extData →
    opened.vol.readRaw [opened.catExtents] opened.catLogical = .ok catData →
    NODE_SIZE ≤ catData.length → WalkSound (Catalog.graph catData) (rootNode catData)

theorem returns_overflowParse_iff (data : Bytes) :
    Returns (ExtentsOverflow.parse data) ↔
      (NODE_SIZE ≤ data.length → WalkSound (ExtentsOverflow.graph data) (firstLeaf data)) := by
  by_cases hlen : NODE_SIZE ≤ data.length
  · rw [returns_overflowParse hlen]
    exact ⟨fun h _ => h, fun h => h hlen⟩
  · refine ⟨fun _ h => absurd h hlen, fun _ => ?_⟩
    rw [ExtentsOverflow.parse, if_pos (by omega)]
    exact returns_ok _

/-- **An image is parsed without a panic** just when it is sound. -/
theorem calm_parse_iff (img : Bytes) : Calm (HfsVolume.parse img) ↔ Sound img := by
  unfold HfsVolume.parse
  simp only [calm_bind, calm_openImage img, calm_readRaw, calm_orPanic, calm_parseCatalog_iff,
    orPanic_eq_ok, true_and, returns_overflowParse_iff]
  constructor
  · intro h
    refine ⟨fun opened extData hopen hext => (h opened hopen extData hext).1, ?_⟩
    intro opened extData catData hopen hext hcat
    obtain ⟨hover, hrest⟩ := h opened hopen extData hext
    obtain ⟨overflow, hparse⟩ := (returns_overflowParse_iff extData).2 hover
    exact hrest overflow hparse catData hcat
  · intro h opened hopen extData hext
    exact ⟨h.overflow opened extData hopen hext, fun overflow _ catData hcat =>
      h.catalog opened extData catData hopen hext hcat⟩

/-- **An image is read without a panic** — parsed, and then each fork of whatever entry — just
    when the nodes that the walks over its two B-trees come to are sound. -/
theorem reading_is_calm_iff (img : Bytes) :
    (Calm (HfsVolume.parse img) ∧ ∀ vol, HfsVolume.parse img = .ok vol → ∀ entry,
      Calm (vol.readDataFork entry) ∧ Calm (vol.readRsrcFork entry)) ↔ Sound img := by
  rw [calm_parse_iff]
  refine ⟨And.left, fun h => ⟨h, fun vol _ entry => ?_⟩⟩
  exact ⟨calm_readRaw vol _ _, calm_readRaw vol _ _⟩

/-! ## A record at the end of its node -/

/-- An image whose catalog is the root alone, with one record, said to start at byte 512. -/
def recordAtEnd : Bytes :=
  List.replicate 19 0 ++ [1] ++ List.replicate 503 0 ++ [1] ++ List.replicate 498 0 ++ [2, 0] ++
    [0x42, 0x44] ++ List.replicate 20 0 ++ [4] ++ List.replicate 125 0 ++ [4] ++
    List.replicate 4 0 ++ [1] ++ List.replicate 8 0

/-- Its header: blocks of 1024 bytes, of which the first is the catalog. -/
def recordAtEndOpened : HfsVolume.Opened where
  vol := {
    img := recordAtEnd, blockSize := 1024, firstAllocSector := 0, volumeName := []
    files := [], dirs := [] }
  extLogical := 0
  extExtents := ⟨(0, 0), (0, 0), (0, 0)⟩
  catLogical := 1024
  catExtents := ⟨(0, 1), (0, 0), (0, 0)⟩

theorem recordAtEnd_catalog :
    HfsVolume.openImage recordAtEnd = .ok recordAtEndOpened ∧
      recordAtEndOpened.vol.readRaw [recordAtEndOpened.catExtents] recordAtEndOpened.catLogical =
        .ok (recordAtEnd.take 1024) := by
  decide +kernel

/-- The parser takes the length byte of a record that has none. -/
theorem recordAtEnd_panics :
    ¬ (Calm (HfsVolume.parse recordAtEnd) ∧
      ∀ vol, HfsVolume.parse recordAtEnd = .ok vol → ∀ entry,
        Calm (vol.readDataFork entry) ∧ Calm (vol.readRsrcFork entry)) := by
  rintro ⟨hcalm, -⟩
  obtain ⟨hopen, hcat⟩ := recordAtEnd_catalog
  have hsound := ((calm_parse_iff recordAtEnd).1 hcalm).catalog recordAtEndOpened [] _ hopen rfl hcat
    (by decide +kernel) 1 ((recordAtEnd.take 1024).drop 512)
    (.start (by decide +kernel)) rfl (by decide +kernel)
  revert hsound
  decide +kernel

end TailTalk.Hfs
