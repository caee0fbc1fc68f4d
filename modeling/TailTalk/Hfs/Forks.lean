/-
  What reading a fork gives.

  A fork is the bytes of its runs of blocks, those of the catalog's extents and
  then those of the sets in the overflow file, cut to its logical length.
  `readRaw` gives up at the first run without blocks and says nothing of what
  is missing then.
-/
import TailTalk.Hfs.Panics

namespace TailTalk.Hfs

open Lib

/-- The first block of a run, and how many. -/
abbrev Run := UInt16 × UInt16

/-- The runs up to the first that has no blocks. -/
def usedRuns (runs : List Run) : List Run := runs.takeWhile (·.2 != 0)

/-- How many blocks runs have. -/
def blockCount (runs : List Run) : ℕ := (runs.map (·.2.toNat)).sum

theorem usedRuns_cons {run : Run} (h : run.2 ≠ 0) (runs : List Run) :
    usedRuns (run :: runs) = run :: usedRuns runs :=
  List.takeWhile_cons_of_pos (by simpa using h)

theorem usedRuns_empty {run : Run} (h : run.2 = 0) (runs : List Run) :
    usedRuns (run :: runs) = [] :=
  List.takeWhile_cons_of_neg (by simpa using h)

theorem blockCount_cons (run : Run) (runs : List Run) :
    blockCount (run :: runs) = run.2.toNat + blockCount runs := by
  simp [blockCount]

theorem blockCount_append (runs runs' : List Run) :
    blockCount (runs ++ runs') = blockCount runs + blockCount runs' := by
  simp [blockCount]

namespace HfsVolume

variable (vol : HfsVolume)

/-- Where a run starts in the image. -/
def runStart (run : Run) : ℕ :=
  vol.firstAllocSector.toNat * 512 + run.1.toNat * vol.blockSize.toNat

/-- Where it ends. -/
def runStop (run : Run) : ℕ := vol.runStart run + run.2.toNat * vol.blockSize.toNat

/-- Its bytes. -/
def runBytes (run : Run) : Bytes := (vol.img.take (vol.runStop run)).drop (vol.runStart run)

/-- It ends within the image. -/
def InImage (run : Run) : Prop := vol.runStop run ≤ vol.img.length

instance (run : Run) : Decidable (vol.InImage run) := inferInstanceAs (Decidable (_ ≤ _))

/-- All of a fork that has these runs. -/
def Whole (runs : List Run) (logicalSize : UInt32) (data : Bytes) : Prop :=
  data.length = logicalSize.toNat ∧ data = (runs.flatMap vol.runBytes).take logicalSize.toNat

/-- The runs before the first empty one cover the logical size, or one of them cannot be read. -/
def Covers (runs : List Run) (logicalSize : UInt32) : Prop :=
  logicalSize = 0 ∨ logicalSize.toNat ≤ blockCount (usedRuns runs) * vol.blockSize.toNat ∨
    ∃ run ∈ usedRuns runs, ¬ vol.InImage run

/-! ## Runs -/

variable {vol}

theorem runBytes_length {run : Run} (h : vol.InImage run) :
    (vol.runBytes run).length = run.2.toNat * vol.blockSize.toNat := by
  unfold InImage at h
  rw [runBytes, List.length_drop, List.length_take, min_eq_left h, runStop, Nat.add_sub_cancel_left]

theorem readRuns_empty {run : Run} (h : run.2 = 0) (logicalSize : UInt32) (runs : List Run)
    (out : Bytes) : vol.readRuns logicalSize (run :: runs) out = .ok out := by
  rw [readRuns, if_pos h]

theorem readRuns_cons {run : Run} (h : run.2 ≠ 0) (logicalSize : UInt32) (runs : List Run)
    (out : Bytes) :
    vol.readRuns logicalSize (run :: runs) out =
      if vol.InImage run then
        if logicalSize.toNat ≤ (out ++ vol.runBytes run).length then .ok (out ++ vol.runBytes run)
        else vol.readRuns logicalSize runs (out ++ vol.runBytes run)
      else fail (.extentOutOfBounds run.1 run.2 (vol.runStart run) (vol.runStop run)
        vol.img.length) := by
  have hsector := vol.firstAllocSector.toNat_lt
  have hoff : run.1.toNat * vol.blockSize.toNat < 2 ^ 16 * 2 ^ 32 :=
    Nat.mul_lt_mul'' run.1.toNat_lt vol.blockSize.toNat_lt
  have hlen : run.2.toNat * vol.blockSize.toNat < 2 ^ 16 * 2 ^ 32 :=
    Nat.mul_lt_mul'' run.2.toNat_lt vol.blockSize.toNat_lt
  rw [readRuns, if_neg h, byteOffsetOfBlock_eq, orPanic_ok_bind,
    asUsize_eq (lt_trans hlen (by omega)), orPanic_ok_bind, asUsize_eq (by omega), orPanic_ok_bind]
  change (okOr _ (getRange vol.img (vol.runStart run) (vol.runStop run)) >>= _) = _
  by_cases hin : vol.InImage run
  · have hrange : getRange vol.img (vol.runStart run) (vol.runStop run) = some (vol.runBytes run) :=
      if_pos ⟨Nat.le_add_right _ _, hin⟩
    rw [hrange, if_pos hin]
    rfl
  · have hrange : getRange vol.img (vol.runStart run) (vol.runStop run) = none :=
      if_neg fun hboth => hin hboth.2
    rw [hrange, if_neg hin]
    rfl

theorem readRuns_ok {logicalSize : UInt32} {runs : List Run} {out data : Bytes}
    (h : vol.readRuns logicalSize runs out = .ok data) :
    data <+: out ++ runs.flatMap vol.runBytes ∧
      (logicalSize.toNat ≤ data.length ∨ (∀ run ∈ usedRuns runs, vol.InImage run) ∧
        data.length = out.length + blockCount (usedRuns runs) * vol.blockSize.toNat) := by
  induction runs generalizing out with
  | nil =>
    obtain rfl := Except.ok.inj h
    exact ⟨List.prefix_append _ _, .inr ⟨by simp [usedRuns], by simp [usedRuns, blockCount]⟩⟩
  | cons run runs ih =>
    by_cases hempty : run.2 = 0
    · rw [readRuns_empty hempty] at h
      obtain rfl := Except.ok.inj h
      rw [usedRuns_empty hempty]
      exact ⟨List.prefix_append _ _, .inr ⟨by simp, by simp [blockCount]⟩⟩
    · rw [readRuns_cons hempty] at h
      rw [usedRuns_cons hempty, List.flatMap_cons, ← List.append_assoc, List.forall_mem_cons,
        blockCount_cons]
      split_ifs at h with hin hfull
      · obtain rfl := Except.ok.inj h
        exact ⟨List.prefix_append _ _, .inl hfull⟩
      · obtain ⟨hfront, henough⟩ := ih h
        refine ⟨hfront, henough.imp id ?_⟩
        rintro ⟨hall, hlen⟩
        refine ⟨⟨hin, hall⟩, ?_⟩
        rw [hlen, List.length_append, runBytes_length hin]
        ring
      · cases h

theorem readRuns_inImage (logicalSize : UInt32) {runs : List Run}
    (h : ∀ run ∈ usedRuns runs, vol.InImage run) (out : Bytes) :
    ∃ data, vol.readRuns logicalSize runs out = .ok data ∧
      data.length ≤ out.length + blockCount (usedRuns runs) * vol.blockSize.toNat := by
  induction runs generalizing out with
  | nil => exact ⟨out, rfl, Nat.le_add_right _ _⟩
  | cons run runs ih =>
    by_cases hempty : run.2 = 0
    · exact ⟨out, readRuns_empty hempty _ _ _, Nat.le_add_right _ _⟩
    · rw [usedRuns_cons hempty, List.forall_mem_cons] at h
      have hlen := runBytes_length h.1
      rw [usedRuns_cons hempty, blockCount_cons, Nat.add_mul]
      rw [readRuns_cons hempty, if_pos h.1]
      split_ifs with hfull
      · exact ⟨_, rfl, by rw [List.length_append]; omega⟩
      · obtain ⟨data, hdata, hle⟩ := ih h.2 (out ++ vol.runBytes run)
        refine ⟨data, hdata, ?_⟩
        rw [List.length_append] at hle
        omega

/-! ## Forks -/

theorem readRaw_front {extents : List Extents} {logicalSize : UInt32} {data : Bytes}
    (h : vol.readRaw extents logicalSize = .ok data) :
    data <+: (extents.flatMap Extents.toList).flatMap vol.runBytes := by
  unfold readRaw at h
  split_ifs at h with hzero
  · obtain rfl := Except.ok.inj h
    exact List.nil_prefix
  · cases hruns : vol.readRuns logicalSize (extents.flatMap Extents.toList) [] with
    | error e =>
      rw [hruns] at h
      cases h
    | ok out =>
      rw [hruns] at h
      obtain rfl := Except.ok.inj h
      exact (List.take_prefix _ _).trans (readRuns_ok hruns).1

theorem whole_iff {extents : List Extents} {runs : List Run} {logicalSize : UInt32} {data : Bytes}
    (h : vol.readRaw extents logicalSize = .ok data)
    (hruns : extents.flatMap Extents.toList <+: runs) :
    vol.Whole runs logicalSize data ↔ data.length = logicalSize.toNat := by
  refine ⟨And.left, fun hlen => ⟨hlen, ?_⟩⟩
  have hfront : data <+: runs.flatMap vol.runBytes := by
    obtain ⟨rest, rfl⟩ := hruns
    rw [List.flatMap_append]
    exact (readRaw_front h).trans (List.prefix_append _ _)
  rw [← hlen]
  exact List.prefix_iff_eq_take.1 hfront

/-- **A fork that is read has its logical length** just when the runs before the first empty one
    cover that, or one of them lies outside the image. -/
theorem readRaw_length_iff (extents : List Extents) (logicalSize : UInt32) :
    (∀ data, vol.readRaw extents logicalSize = .ok data → data.length = logicalSize.toNat) ↔
      vol.Covers (extents.flatMap Extents.toList) logicalSize := by
  unfold readRaw
  by_cases hzero : logicalSize = 0
  · subst hzero
    rw [if_pos rfl]
    refine ⟨fun _ => .inl rfl, fun _ data h => ?_⟩
    obtain rfl := Except.ok.inj h
    rfl
  · rw [if_neg hzero]
    generalize extents.flatMap Extents.toList = runs
    constructor
    · intro hall
      by_contra hnot
      unfold Covers at hnot
      push Not at hnot
      obtain ⟨-, hshort, hin⟩ := hnot
      obtain ⟨out, hout, hle⟩ := readRuns_inImage logicalSize hin []
      have hlen := hall (out.take logicalSize.toNat) (by rw [hout]; rfl)
      rw [List.length_take, List.length_nil] at *
      omega
    · intro hcovers data h
      cases hruns : vol.readRuns logicalSize runs [] with
      | error e =>
        rw [hruns] at h
        cases h
      | ok out =>
        rw [hruns] at h
        obtain rfl := Except.ok.inj h
        have henough : logicalSize.toNat ≤ out.length := by
          rcases (readRuns_ok hruns).2 with henough | ⟨hin, hlen⟩
          · exact henough
          · rcases hcovers with hz | hcount | ⟨run, hrun, hout⟩
            · exact absurd hz hzero
            · rw [hlen]
              simpa using hcount
            · exact absurd (hin run hrun) hout
        rw [List.length_take, min_eq_left henough]

end HfsVolume

/-! ## The runs of a file -/

namespace ExtentsOverflow

variable (o : ExtentsOverflow) (cnid : UInt32) (forkType : UInt8)

/-- All the sets after those that cover `covered` blocks. -/
def sets (covered : ℕ) : List Extents :=
  match _h : o.get cnid forkType covered with
  | none => []
  | some ext => if _hblocks : ext.blocks = 0 then [ext] else ext :: sets (covered + ext.blocks)
termination_by 65536 - covered
decreasing_by
  have hcovered := lt_of_get _h
  omega

/-- The runs of a fork: those of its catalog record and those of its sets. -/
def runs (catalogExt : Extents) : List Run :=
  (catalogExt :: o.sets cnid forkType catalogExt.blocks).flatMap Extents.toList

variable {o cnid forkType}

theorem sets_none {covered : ℕ} (h : o.get cnid forkType covered = none) :
    o.sets cnid forkType covered = [] := by
  rw [sets]
  split
  · rfl
  · rename_i ext hget
    rw [h] at hget
    cases hget

theorem sets_some {covered : ℕ} {ext : Extents} (h : o.get cnid forkType covered = some ext) :
    o.sets cnid forkType covered =
      if ext.blocks = 0 then [ext] else ext :: o.sets cnid forkType (covered + ext.blocks) := by
  rw [sets]
  split
  · rename_i hget
    rw [h] at hget
    cases hget
  · rename_i ext' hget
    obtain rfl := Option.some.inj (h.symm.trans hget)
    split_ifs <;> rfl

theorem blockCount_toList (ext : Extents) : blockCount ext.toList = ext.blocks := by
  simp [blockCount, Extents.toList, Extents.blocks, Nat.add_assoc]

theorem more_spec {blocksNeeded covered : ℕ} {found : List Extents}
    (h : o.more cnid forkType blocksNeeded covered = .ok found) :
    found <+: o.sets cnid forkType covered ∧ (found = o.sets cnid forkType covered ∨
      blocksNeeded ≤ covered + blockCount (found.flatMap Extents.toList)) := by
  fun_induction o.more cnid forkType blocksNeeded covered generalizing found with
  | case1 covered hget =>
    obtain rfl := Except.ok.inj h
    rw [sets_none hget]
    exact ⟨List.nil_prefix, .inl rfl⟩
  | case2 covered ext hget p hadded => cases h
  | case3 covered ext hget hadded =>
    obtain rfl := Except.ok.inj h
    have hblocks : ext.blocks = 0 := by
      rwa [asU32_eq (lt_trans ext.blocks_lt (by omega)), Except.ok.injEq] at hadded
    rw [sets_some hget, if_pos hblocks]
    exact ⟨List.prefix_rfl, .inl rfl⟩
  | case4 covered ext hget added hadded hne p hcovered => cases h
  | case5 covered ext hget added hadded hne covered' hcovered hneeded =>
    obtain rfl := Except.ok.inj h
    obtain rfl : ext.blocks = added := by
      rwa [asU32_eq (lt_trans ext.blocks_lt (by omega)), Except.ok.injEq] at hadded
    rw [sets_some hget, if_neg hne]
    refine ⟨List.prefix_append [ext] _, .inr ?_⟩
    simpa [blockCount_toList] using hneeded
  | case6 covered ext hget added hadded hne covered' hcovered hneeded p hrest ih => cases h
  | case7 covered ext hget added hadded hne covered' hcovered hneeded rest hrest ih =>
    obtain rfl := Except.ok.inj h
    obtain rfl : ext.blocks = added := by
      rwa [asU32_eq (lt_trans ext.blocks_lt (by omega)), Except.ok.injEq] at hadded
    obtain ⟨hfront, hall⟩ := ih hrest
    rw [sets_some hget, if_neg hne, List.flatMap_cons, blockCount_append, blockCount_toList]
    refine ⟨(List.prefix_cons_inj ext).2 hfront, hall.imp (congrArg _) fun henough => ?_⟩
    omega

theorem getExtents_spec {catalogExt : Extents} {logicalSize blockSize : UInt32}
    {found : List Extents} (hsize : blockSize ≠ 0)
    (h : o.getExtents cnid forkType catalogExt logicalSize blockSize = .ok found) :
    found.flatMap Extents.toList <+: o.runs cnid forkType catalogExt ∧
      (found.flatMap Extents.toList = o.runs cnid forkType catalogExt ∨
        logicalSize.toNat ≤ blockCount (found.flatMap Extents.toList) * blockSize.toNat) := by
  have hpos : 0 < blockSize.toNat := Nat.pos_of_ne_zero fun hzero => hsize (by
    rw [← UInt32.toNat_inj, hzero]
    rfl)
  have hneeded (n : ℕ) (hn : (logicalSize.toNat + blockSize.toNat - 1) / blockSize.toNat ≤ n) :
      logicalSize.toNat ≤ n * blockSize.toNat := by
    have hdiv := Nat.lt_div_mul_add hpos (a := logicalSize.toNat + blockSize.toNat - 1)
    have hmul := Nat.mul_le_mul_right blockSize.toNat hn
    omega
  rw [getExtents, if_neg hsize, asU32_eq (lt_trans catalogExt.blocks_lt (by omega)), ok_bind] at h
  dsimp only at h
  split_ifs at h with hcovered
  · obtain rfl := Except.ok.inj h
    refine ⟨⟨_, List.flatMap_append.symm⟩, .inr (hneeded _ ?_)⟩
    simpa [blockCount_toList] using hcovered
  · obtain ⟨rest, hrest, h⟩ := bind_eq_ok.1 h
    obtain rfl := Except.ok.inj h
    obtain ⟨⟨more, hmore⟩, hall⟩ := more_spec hrest
    rw [runs, ← hmore, List.flatMap_cons, List.flatMap_cons, List.flatMap_append]
    refine ⟨⟨more.flatMap Extents.toList, by simp⟩, ?_⟩
    rcases hall with heq | henough
    · left
      rw [heq] at hmore
      obtain rfl := List.append_right_eq_self.1 hmore
      simp
    · right
      refine hneeded _ ?_
      rw [blockCount_append, blockCount_toList]
      exact henough

end ExtentsOverflow

namespace HfsVolume

variable {vol : HfsVolume}

/-- Runs beyond those that are enough make no difference. -/
theorem covers_iff {runs all : List Run} {logicalSize : UInt32} (hfront : runs <+: all)
    (h : runs = all ∨ logicalSize.toNat ≤ blockCount runs * vol.blockSize.toNat) :
    vol.Covers runs logicalSize ↔ vol.Covers all logicalSize := by
  rcases h with rfl | henough
  · rfl
  obtain ⟨rest, rfl⟩ := hfront
  by_cases hfull : ∀ run ∈ runs, run.2 ≠ 0
  · have hused : usedRuns (runs ++ rest) = runs ++ usedRuns rest :=
      List.takeWhile_append_of_pos fun run hrun => by simpa using hfull run hrun
    have hused' : usedRuns runs = runs := List.takeWhile_eq_self_iff.2 fun run hrun => by
      simpa using hfull run hrun
    have hle : blockCount runs * vol.blockSize.toNat ≤
        blockCount (runs ++ usedRuns rest) * vol.blockSize.toNat := by
      rw [blockCount_append]
      exact Nat.mul_le_mul_right _ (Nat.le_add_right _ _)
    exact ⟨fun _ => .inr (.inl (hused ▸ henough.trans hle)),
      fun _ => .inr (.inl (hused'.symm ▸ henough))⟩
  · have hused : usedRuns (runs ++ rest) = usedRuns runs := by
      rw [usedRuns, List.takeWhile_append, if_neg, usedRuns]
      intro hlen
      refine hfull fun run hrun => ?_
      have hself := (List.takeWhile_prefix _).eq_of_length hlen
      simpa using List.takeWhile_eq_self_iff.1 hself run hrun
    unfold Covers
    rw [hused]

/-! ## The files of a volume -/

/-- A file of an image: the record in the catalog that its entry is made of, and the overflow
    file. -/
def Listed (img : Bytes) (entry : HfsFileEntry) (rf : RawFile) (o : ExtentsOverflow) : Prop :=
  ∃ opened extData catData root nodes, openImage img = .ok opened ∧
    opened.vol.readRaw [opened.extExtents] opened.extLogical = .ok extData ∧
    ExtentsOverflow.parse extData = .ok o ∧
    opened.vol.readRaw [opened.catExtents] opened.catLogical = .ok catData ∧
    be32At catData 16 = .ok root ∧
    (Catalog.graph catData).explore [root] [] = .ok nodes ∧ rf ∈ (Catalog.state nodes).files ∧
    Catalog.fileEntry (Catalog.state nodes) o opened.vol.blockSize rf = .ok (some entry)

theorem openImage_spec {img : Bytes} {opened : Opened} (h : openImage img = .ok opened) :
    opened.vol.blockSize ≠ 0 ∧ opened.vol.files = [] := by
  obtain ⟨data, -, h⟩ := bind_eq_ok.1 h
  obtain ⟨mdb, -, h⟩ := bind_eq_ok.1 h
  obtain ⟨sig, -, h⟩ := bind_eq_ok.1 h
  split_ifs at h with hsig hplus hmfs
  · cases h
  · cases h
  · cases h
  · obtain ⟨blockSize, -, h⟩ := bind_eq_ok.1 h
    split_ifs at h with hzero
    · cases h
    · obtain ⟨_, -, h⟩ := bind_eq_ok.1 h
      obtain ⟨_, -, h⟩ := bind_eq_ok.1 h
      obtain ⟨_, -, h⟩ := bind_eq_ok.1 h
      obtain ⟨_, -, h⟩ := bind_eq_ok.1 h
      obtain ⟨_, -, h⟩ := bind_eq_ok.1 h
      obtain ⟨_, -, h⟩ := bind_eq_ok.1 h
      obtain rfl := Except.ok.inj h
      exact ⟨hzero, rfl⟩

theorem mem_fileEntries {st : Catalog.State} {o : ExtentsOverflow} {blockSize : UInt32}
    {files : List RawFile} {entries : List HfsFileEntry}
    (h : Catalog.fileEntries st o blockSize files = .ok entries) {entry : HfsFileEntry}
    (hentry : entry ∈ entries) :
    ∃ rf ∈ files, Catalog.fileEntry st o blockSize rf = .ok (some entry) := by
  induction files generalizing entries with
  | nil =>
    obtain rfl := Except.ok.inj h
    cases hentry
  | cons rf files ih =>
    obtain ⟨found, hfound, h⟩ := bind_eq_ok.1 h
    obtain ⟨rest, hrest, h⟩ := bind_eq_ok.1 h
    obtain rfl := Except.ok.inj h
    rcases List.mem_append.1 hentry with hmem | hmem
    · rw [Option.mem_toList] at hmem
      exact ⟨rf, List.mem_cons_self, hmem ▸ hfound⟩
    · obtain ⟨rf', hrf', heq⟩ := ih hrest hmem
      exact ⟨rf', List.mem_cons_of_mem _ hrf', heq⟩

theorem fileEntry_spec {st : Catalog.State} {o : ExtentsOverflow} {blockSize : UInt32}
    {rf : RawFile} {entry : HfsFileEntry}
    (h : Catalog.fileEntry st o blockSize rf = .ok (some entry)) :
    o.getExtents rf.cnid 0x00 rf.dataExt rf.dataLogical blockSize = .ok entry.dataExtents ∧
      o.getExtents rf.cnid 0xFF rf.rsrcExt rf.rsrcLogical blockSize = .ok entry.rsrcExtents ∧
      entry.dataLogical = rf.dataLogical ∧ entry.rsrcLogical = rf.rsrcLogical := by
  unfold Catalog.fileEntry at h
  dsimp only at h
  split_ifs at h with hempty
  · cases h
  obtain ⟨dataExtents, hdata, h⟩ := bind_eq_ok.1 h
  obtain ⟨rsrcExtents, hrsrc, h⟩ := bind_eq_ok.1 h
  obtain rfl := Option.some.inj (Except.ok.inj h)
  exact ⟨hdata, hrsrc, rfl, rfl⟩

theorem Listed.logical {img : Bytes} {entry : HfsFileEntry} {rf : RawFile} {o : ExtentsOverflow}
    (h : Listed img entry rf o) :
    entry.dataLogical = rf.dataLogical ∧ entry.rsrcLogical = rf.rsrcLogical := by
  obtain ⟨_, _, _, _, _, _, _, _, _, _, _, _, hentry⟩ := h
  exact (fileEntry_spec hentry).2.2

theorem fork_whole_iff {o : ExtentsOverflow} {cnid : UInt32} {forkType : UInt8}
    {catalogExt : Extents} {logicalSize : UInt32} {extents : List Extents}
    (hsize : vol.blockSize ≠ 0)
    (h : o.getExtents cnid forkType catalogExt logicalSize vol.blockSize = .ok extents) :
    (∀ data, vol.readRaw extents logicalSize = .ok data →
      vol.Whole (o.runs cnid forkType catalogExt) logicalSize data) ↔
      vol.Covers (o.runs cnid forkType catalogExt) logicalSize := by
  obtain ⟨hfront, hall⟩ := ExtentsOverflow.getExtents_spec hsize h
  rw [← covers_iff hfront hall, ← readRaw_length_iff]
  refine forall₂_congr fun data hdata => ?_
  exact whole_iff hdata hfront

theorem parse_spec {img : Bytes} (h : parse img = .ok vol) {entry : HfsFileEntry}
    (hentry : entry ∈ vol.files) :
    ∃ rf o, Listed img entry rf o ∧ vol.blockSize ≠ 0 ∧
      o.getExtents rf.cnid 0x00 rf.dataExt rf.dataLogical vol.blockSize =
        .ok entry.dataExtents ∧
      o.getExtents rf.cnid 0xFF rf.rsrcExt rf.rsrcLogical vol.blockSize =
        .ok entry.rsrcExtents := by
  obtain ⟨opened, hopen, h⟩ := bind_eq_ok.1 h
  obtain ⟨extData, hext, h⟩ := bind_eq_ok.1 h
  obtain ⟨o, ho, h⟩ := bind_eq_ok.1 h
  obtain ⟨catData, hcat, h⟩ := bind_eq_ok.1 h
  obtain ⟨hsize, hfiles⟩ := openImage_spec hopen
  unfold parseCatalog at h
  split_ifs at h with hshort
  · cases h
  obtain ⟨root, hroot, h⟩ := bind_eq_ok.1 h
  obtain ⟨nodes, hnodes, h⟩ := bind_eq_ok.1 h
  obtain ⟨files, hlisted, h⟩ := bind_eq_ok.1 h
  rw [orPanic_eq_ok] at ho hroot hnodes hlisted
  obtain rfl := Except.ok.inj h
  have hmem : entry ∈ files := by simpa [hfiles] using hentry
  obtain ⟨rf, hrf, hrecord⟩ := mem_fileEntries hlisted hmem
  obtain ⟨hdata, hrsrc, -⟩ := fileEntry_spec hrecord
  exact ⟨rf, o, ⟨opened, extData, catData, root, nodes, hopen, hext, ho, hcat, hroot, hnodes, hrf,
    hrecord⟩, hsize, hdata, hrsrc⟩

/-- **Forks are read whole or not at all** just as far as their runs go: a fork of a listed file is
    only ever read whole exactly if it is empty, the runs that its catalog record and its sets in
    the overflow file have before the first empty one cover it, or one of these lies outside the
    image. -/
theorem reads_whole_iff {img : Bytes} (h : parse img = .ok vol) {entry : HfsFileEntry}
    (hentry : entry ∈ vol.files) :
    ∃ rf o, Listed img entry rf o ∧
      ((∀ data, vol.readDataFork entry = .ok data →
        vol.Whole (o.runs rf.cnid 0x00 rf.dataExt) rf.dataLogical data) ↔
        vol.Covers (o.runs rf.cnid 0x00 rf.dataExt) rf.dataLogical) ∧
      ((∀ data, vol.readRsrcFork entry = .ok data →
        vol.Whole (o.runs rf.cnid 0xFF rf.rsrcExt) rf.rsrcLogical data) ↔
        vol.Covers (o.runs rf.cnid 0xFF rf.rsrcExt) rf.rsrcLogical) := by
  obtain ⟨rf, o, hlisted, hsize, hdata, hrsrc⟩ := parse_spec h hentry
  refine ⟨rf, o, hlisted, ?_, ?_⟩
  · rw [readDataFork, hlisted.logical.1]
    exact fork_whole_iff hsize hdata
  · rw [readRsrcFork, hlisted.logical.2]
    exact fork_whole_iff hsize hrsrc

end HfsVolume

/-! ## A file with no blocks -/

/-- An image whose catalog lists one file of one byte that has no blocks. -/
def shortFork : Bytes :=
  List.replicate 19 0 ++ [1] ++ List.replicate 492 0 ++
    (List.replicate 8 0 ++ [0xFF, 0, 0, 1, 0, 0] ++ [7, 0, 0, 0, 0, 2, 1, 0x61] ++
      ([2] ++ List.replicate 22 0 ++ [16] ++ List.replicate 5 0 ++ [1]) ++
      List.replicate 458 0 ++ [0, 14]) ++
    [0x42, 0x44] ++ List.replicate 20 0 ++ [4] ++ List.replicate 125 0 ++ [4] ++
    List.replicate 4 0 ++ [1] ++ List.replicate 8 0

/-- A file of one byte that has no run. -/
def shortForkEntry : HfsFileEntry where
  relPath := ['a']
  parentCnid := 2
  fileType := [0, 0, 0, 0]
  creator := [0, 0, 0, 0]
  dataLogical := 1
  dataExtents := [⟨(0, 0), (0, 0), (0, 0)⟩]
  rsrcLogical := 0
  rsrcExtents := [⟨(0, 0), (0, 0), (0, 0)⟩]

/-- The volume it is on. -/
def shortForkVolume : HfsVolume where
  img := shortFork
  blockSize := 1024
  firstAllocSector := 0
  volumeName := []
  files := [shortForkEntry]
  dirs := []

/-- The record of the file. -/
def shortForkRecord : RawFile where
  cnid := 16
  parentCnid := 2
  fileType := [0, 0, 0, 0]
  creator := [0, 0, 0, 0]
  dataLogical := 1
  dataExt := ⟨(0, 0), (0, 0), (0, 0)⟩
  rsrcLogical := 0
  rsrcExt := ⟨(0, 0), (0, 0), (0, 0)⟩

/-- The image, its volume header read. -/
def shortForkOpened : HfsVolume.Opened where
  vol := { shortForkVolume with files := [] }
  extLogical := 0
  extExtents := ⟨(0, 0), (0, 0), (0, 0)⟩
  catLogical := 1024
  catExtents := ⟨(0, 1), (0, 0), (0, 0)⟩

theorem openImage_shortFork :
    HfsVolume.openImage shortFork = .ok shortForkOpened ∧
      shortForkOpened.vol.readRaw [shortForkOpened.catExtents] shortForkOpened.catLogical =
        .ok (shortFork.take 1024) := by
  decide +kernel

/-- The root of its catalog has no others to lead to. -/
theorem explore_shortFork :
    (Catalog.graph (shortFork.take 1024)).explore [1] [] =
      .ok [⟨0, [.file ['a'] shortForkRecord]⟩] := by
  have hlook : (Catalog.graph (shortFork.take 1024)).look 1 =
      some ((shortFork.take 1024).drop 512) := by decide +kernel
  have hread : (Catalog.graph (shortFork.take 1024)).read ((shortFork.take 1024).drop 512) =
      .ok ⟨0, [.file ['a'] shortForkRecord]⟩ := by decide +kernel
  rw [Graph.explore, if_neg (by decide +kernel)]
  split
  · rename_i hnone
    rw [hlook] at hnone
    cases hnone
  · rename_i node hsome
    obtain rfl := Option.some.inj (hlook.symm.trans hsome)
    rw [hread]
    have hnext : (Catalog.graph (shortFork.take 1024)).next
        ⟨0, [.file ['a'] shortForkRecord]⟩ ++ [] = [] := rfl
    dsimp only
    rw [hnext, Graph.explore]

theorem fileEntries_shortFork :
    Catalog.fileEntries (Catalog.state [⟨0, [.file ['a'] shortForkRecord]⟩]) ⟨[]⟩ 1024
      [shortForkRecord] = .ok [shortForkEntry] := by
  have hpath : (Catalog.state [⟨0, [.file ['a'] shortForkRecord]⟩]).buildPath 16 = ['a'] := by
    decide +kernel
  have hmore : (⟨[]⟩ : ExtentsOverflow).more 16 0x00 1 0 = .ok [] := by
    rw [ExtentsOverflow.more]
    rfl
  have hdata : (⟨[]⟩ : ExtentsOverflow).getExtents 16 0x00 shortForkRecord.dataExt 1 1024 =
      .ok shortForkEntry.dataExtents := by
    rw [ExtentsOverflow.getExtents, if_neg (by decide)]
    change ((⟨[]⟩ : ExtentsOverflow).more 16 0x00 1 0 >>= _) = _
    rw [hmore]
    rfl
  rw [Catalog.fileEntries, Catalog.fileEntry]
  change ((if ((Catalog.state _).buildPath 16).isEmpty then _ else _) >>= _) = _
  rw [hpath]
  change (((⟨[]⟩ : ExtentsOverflow).getExtents 16 0x00 shortForkRecord.dataExt 1 1024 >>= _) >>= _)
    = _
  rw [hdata]
  rfl

theorem parse_shortFork : HfsVolume.parse shortFork = .ok shortForkVolume := by
  obtain ⟨hopen, hcat⟩ := openImage_shortFork
  rw [HfsVolume.parse, hopen, ok_bind]
  have hext : shortForkOpened.vol.readRaw [shortForkOpened.extExtents] shortForkOpened.extLogical =
      .ok [] := rfl
  have ho : ExtentsOverflow.parse [] = .ok ⟨[]⟩ := rfl
  have hroot : be32At (shortFork.take 1024) 16 = .ok 1 := by decide +kernel
  rw [hext, ok_bind, ho, orPanic_ok_bind, hcat, ok_bind, HfsVolume.parseCatalog,
    if_neg (by decide +kernel), hroot, orPanic_ok_bind, explore_shortFork, orPanic_ok_bind]
  dsimp only
  have hfiles : (Catalog.state [⟨0, [.file ['a'] shortForkRecord]⟩]).files =
      [shortForkRecord] := rfl
  rw [hfiles]
  change (orPanic (Catalog.fileEntries _ ⟨[]⟩ 1024 [shortForkRecord]) >>= _) = _
  rw [fileEntries_shortFork, orPanic_ok_bind]
  have hdirs : (Catalog.state [⟨0, [.file ['a'] shortForkRecord]⟩]).names.keys.filterMap
      (Catalog.state [⟨0, [.file ['a'] shortForkRecord]⟩]).dirPath = [] := by decide +kernel
  rw [hdirs]
  rfl

/-- The file is read as if it were empty. -/
theorem short_fork_read :
    ¬ ∀ img vol, HfsVolume.parse img = .ok vol → ∀ entry ∈ vol.files,
      (∀ data, vol.readDataFork entry = .ok data → data.length = entry.dataLogical.toNat) ∧
        ∀ data, vol.readRsrcFork entry = .ok data → data.length = entry.rsrcLogical.toNat := by
  intro hall
  have hlen := (hall shortFork shortForkVolume parse_shortFork shortForkEntry
    List.mem_cons_self).1 [] (by decide +kernel)
  revert hlen
  decide

/-- What is read of it falls short just as its runs do. -/
theorem reads_whole_iff_shortFork :
    HfsVolume.parse shortFork = .ok shortForkVolume ∧ shortForkEntry ∈ shortForkVolume.files ∧
    ∃ rf o, HfsVolume.Listed shortFork shortForkEntry rf o ∧
      ((∀ data, shortForkVolume.readDataFork shortForkEntry = .ok data →
        shortForkVolume.Whole (o.runs rf.cnid 0x00 rf.dataExt) rf.dataLogical data) ↔
        shortForkVolume.Covers (o.runs rf.cnid 0x00 rf.dataExt) rf.dataLogical) ∧
      ((∀ data, shortForkVolume.readRsrcFork shortForkEntry = .ok data →
        shortForkVolume.Whole (o.runs rf.cnid 0xFF rf.rsrcExt) rf.rsrcLogical data) ↔
        shortForkVolume.Covers (o.runs rf.cnid 0xFF rf.rsrcExt) rf.rsrcLogical) :=
  ⟨parse_shortFork, List.mem_cons_self,
    HfsVolume.reads_whole_iff parse_shortFork List.mem_cons_self⟩

end TailTalk.Hfs
