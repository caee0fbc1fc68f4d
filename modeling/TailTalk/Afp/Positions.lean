/-
  Cached positions — reads and writes of an open fork go to the offset they
  name, whether or not the file is put there first.

  `Cached` survives short reads and writes, refused calls, new lengths and
  numbers that are used again, but says nothing of a file a write to which has
  failed once it was acknowledged.
-/
import TailTalk.Afp.ForkTable
import TailTalk.Lib.Positional

namespace TailTalk

open Lib

namespace Volume

/-! ## The invariant -/

/-- The file stands there, unless a write to it has failed unnoticed. -/
def StandsAt (file : Handle) (pos : ℕ) : Prop := file.failed = false → file.pos = pos

/-- The position kept for a reference is that of its file. -/
def Placed (v : Volume) : Prop :=
  ∀ (r : UInt16) pos key file, v.forkPos[r]? = some pos → v.forkRefToNodeId[r]? = some key →
    v.openFile? key = some file → StandsAt file pos

/-- A kept position is where the file stands, and no other reference moves that file. -/
structure Cached (v : Volume) : Prop where
  fresh : Fresh v
  known : ∀ (r : UInt16) key, v.forkRefToNodeId[r]? = some key → key.1 < v.nextId
  opened : ∀ (r : UInt16) key, v.forkRefToNodeId[r]? = some key →
    (v.nodes[key.1]?).isSome = true → (v.openFile? key).isSome = true
  single : ∀ (r r' : UInt16) key, v.forkRefToNodeId[r]? = some key →
    v.forkRefToNodeId[r']? = some key → r = r'
  placed : Placed v

/-- What quiet operations leave of nodes and forks. -/
structure Beside (v v' : Volume) : Prop where
  ids : v.nextId ≤ v'.nextId
  known : ∀ id : NodeId, id < v.nextId → (v'.nodes[id]?).isSome = (v.nodes[id]?).isSome
  pos : v'.forkPos = v.forkPos
  locks : v'.forkLocks = v.forkLocks
  access : v'.forkAccess = v.forkAccess

theorem absorbs_beside : Absorbs Beside where
  refl := fun v => ⟨le_rfl, fun _ _ => rfl, rfl, rfl, rfl⟩
  trans := fun h h' => ⟨h.ids.trans h'.ids,
    fun id hid => (h'.known id (lt_of_lt_of_le hid h.ids)).trans (h.known id hid),
    h'.pos.trans h.pos, h'.locks.trans h.locks, h'.access.trans h.access⟩
  disk := fun v _ => ⟨le_rfl, fun _ _ => rfl, rfl, rfl, rfl⟩
  database := fun v _ => ⟨le_rfl, fun _ _ => rfl, rfl, rfl, rfl⟩
  cache := fun v _ => ⟨le_rfl, fun _ _ => rfl, rfl, rfl, rfl⟩
  paths := fun v _ => ⟨le_rfl, fun _ _ => rfl, rfl, rfl, rfl⟩
  skip := fun v => ⟨Nat.le_succ _, fun _ _ => rfl, rfl, rfl, rfl⟩
  register := by
    refine fun v node paths _ => ⟨Nat.le_succ _, fun id hid => ?_, rfl, rfl, rfl⟩
    rw [getElem?_insert_eq, if_neg (Nat.ne_of_lt hid)]
  node := by
    refine fun v id f _ => ⟨le_rfl, fun other _ => ?_, rfl, rfl, rfl⟩
    rw [getElem?_mapNode]
    split
    · rename_i heq
      rw [heq, Option.isSome_map]
    · rfl

/-- What one reference leaves alone: the positions of others, and their files. -/
structure Elsewhere (forkId : UInt16) (key : NodeId × ForkType) (v v' : Volume) : Prop where
  refs : v'.forkRefToNodeId = v.forkRefToNodeId
  pos : ∀ r : UInt16, r ≠ forkId → v'.forkPos[r]? = v.forkPos[r]?
  openFile : ∀ other, other ≠ key → v'.openFile? other = v.openFile? other

namespace Elsewhere

variable {forkId : UInt16} {key : NodeId × ForkType} {v v' v'' : Volume}

theorem refl (v : Volume) : Elsewhere forkId key v v := ⟨rfl, fun _ _ => rfl, fun _ _ => rfl⟩

theorem trans (h : Elsewhere forkId key v v') (h' : Elsewhere forkId key v' v'') :
    Elsewhere forkId key v v'' :=
  ⟨h'.refs.trans h.refs, fun r hr => (h'.pos r hr).trans (h.pos r hr),
    fun other ho => (h'.openFile other ho).trans (h.openFile other ho)⟩

/-- The positions are right when the one is. -/
theorem placed (h : Elsewhere forkId key v v') (hv : Cached v)
    (href : v.forkRefToNodeId[forkId]? = some key)
    (hown : ∀ pos file, v'.forkPos[forkId]? = some pos → v'.openFile? key = some file →
      StandsAt file pos) : Placed v' := by
  intro r pos other file hpos hother hfile
  rw [h.refs] at hother
  by_cases hr : r = forkId
  · subst hr
    obtain rfl := Option.some.inj (href.symm.trans hother)
    exact hown pos file hpos hfile
  · have hne : other ≠ key := by
      rintro rfl
      exact hr (hv.single r forkId _ hother href)
    rw [h.pos r hr] at hpos
    rw [h.openFile other hne] at hfile
    exact hv.placed r pos other file hpos hother hfile

end Elsewhere

namespace Cached

variable {v v' : Volume}

theorem unforked (hv : Cached v) (h : Unforked v v') (h' : Beside v v') : Cached v' where
  fresh := h.fresh
  known := by
    intro r key hr
    rw [h.refs] at hr
    exact lt_of_lt_of_le (hv.known r key hr) h'.ids
  opened := by
    intro r key hr hnode
    rw [h.refs] at hr
    rw [h'.known key.1 (hv.known r key hr)] at hnode
    rw [h.openFile]
    exact hv.opened r key hr hnode
  single := by
    rw [h.refs]
    exact hv.single
  placed := by
    intro r pos key file hpos hr hfile
    rw [h'.pos] at hpos
    rw [h.refs] at hr
    rw [h.openFile] at hfile
    exact hv.placed r pos key file hpos hr hfile

theorem keeps (hv : Cached v) (h : KeepsFiles v v') (hplaced : Placed v') : Cached v' where
  fresh := by
    intro id hid
    have hnone := hv.fresh id (h.ids ▸ hid)
    have hknown := h.known id
    rw [hnone] at hknown
    exact Option.not_isSome_iff_eq_none.1 (by rw [hknown]; exact Bool.false_ne_true)
  known := by
    rw [h.refs, h.ids]
    exact hv.known
  opened := by
    intro r key hr hnode
    rw [h.refs] at hr
    rw [h.known] at hnode
    rw [← Option.isSome_map (f := Handle.fd), h.fds key, Option.isSome_map]
    exact hv.opened r key hr hnode
  single := by
    rw [h.refs]
    exact hv.single
  placed := hplaced

end Cached

theorem Quiet.cached {α : Type} {m : Afp α} {v : Volume} (hm : Quiet m) (hv : Cached v) :
    Proc.wp True m (fun _ v' => Cached v' ∧ Unforked v v' ∧ Beside v v') v := by
  refine Proc.wp_mono (Proc.wp_and (hm.idle v hv.fresh) (hm _ absorbs_beside v)) ?_
  rintro r v' ⟨h, h'⟩
  exact ⟨hv.unforked h h', h, h'⟩

/-! ## One read and one write of a file -/

section

variable {sys : Sys}

/-- The bytes of an open file. -/
def bytesOf (d : Disk) (file : Handle) : Bytes := (d.inode file.ino).data

theorem readSome_spec {d : Disk} {file file' : Handle} {want : ℕ} {chunk : Bytes}
    (h : Disk.readSome sys d file want = some (chunk, file')) : ∃ n,
      chunk = ((bytesOf d file).drop file.pos).take (min want (max 1 n)) ∧
        file' = { file with pos := file.pos + chunk.length } := by
  unfold Disk.readSome at h
  dsimp only at h
  split at h
  · cases h
  · obtain ⟨rfl, rfl⟩ := Prod.mk.inj (Option.some.inj h)
    exact ⟨_, rfl, rfl⟩

/-- What a read of `want` bytes comes to, whatever its single reads return. -/
structure ReadTo (stops : UInt8 → Bool) (d : Disk) (file : Handle) (want : ℕ) (got : Bytes)
    (data : Bytes) (eof : Bool) (file' : Handle) : Prop where
  bytes : data = got ++ upTo stops (((bytesOf d file).drop file.pos).take want)
  ended : eof = true ↔ (((bytesOf d file).drop file.pos).take want).length < want ∧
    (((bytesOf d file).drop file.pos).take want).any stops = false
  pos : (((bytesOf d file).drop file.pos).take want).any stops = false →
    file'.pos + got.length = file.pos + data.length

/-- What is left of a window after its first chunk. -/
theorem take_drop_chunk {l chunk : Bytes} {pos want : ℕ} (hlen : chunk.length ≤ want)
    (hchunk : chunk = (l.drop pos).take chunk.length) : (l.drop pos).take want =
      chunk ++ (l.drop (pos + chunk.length)).take (want - chunk.length) := by
  conv_lhs => rw [show want = chunk.length + (want - chunk.length) by omega, List.take_add,
    ← hchunk, List.drop_drop]

/-- One chunk without a stop, and the rest. -/
theorem ReadTo.cons {stops : UInt8 → Bool} {d : Disk} {file file' : Handle} {want : ℕ}
    {got chunk data : Bytes} {eof : Bool} (hlen : chunk.length ≤ want)
    (hchunk : chunk = ((bytesOf d file).drop file.pos).take chunk.length)
    (hstops : chunk.any stops = false)
    (h : ReadTo stops d { file with pos := file.pos + chunk.length } (want - chunk.length)
      (got ++ chunk) data eof file') : ReadTo stops d file want got data eof file' := by
  have hwindow := take_drop_chunk hlen hchunk
  refine ⟨?_, ?_, fun hnone => ?_⟩
  · rw [h.bytes, hwindow, upTo_append_of_none hstops, List.append_assoc]
    rfl
  · rw [h.ended, hwindow, List.any_append, hstops, Bool.false_or, List.length_append]
    exact and_congr_left fun _ => (Nat.lt_sub_iff_add_lt' ..)
  · rw [hwindow, List.any_append, hstops, Bool.false_or] at hnone
    have hpos := h.pos hnone
    rw [List.length_append] at hpos
    dsimp only at hpos
    omega

theorem readLoop_spec (stops : UInt8 → Bool) (d : Disk) {fuel want : ℕ} (hfuel : want ≤ fuel)
    (file : Handle) (got : Bytes) :
    (readLoop sys stops d fuel file want got).2.ino = file.ino ∧
      (readLoop sys stops d fuel file want got).2.failed = file.failed ∧
      ∀ data eof, (readLoop sys stops d fuel file want got).1 = some (data, eof) →
        ReadTo stops d file want got data eof (readLoop sys stops d fuel file want got).2 := by
  induction fuel generalizing want file got with
  | zero =>
    obtain rfl := Nat.le_zero.1 hfuel
    refine ⟨rfl, rfl, fun data eof h => ?_⟩
    obtain ⟨rfl, rfl⟩ := Prod.mk.inj (Option.some.inj h)
    exact ⟨by simp, by simp, fun _ => rfl⟩
  | succ fuel ih =>
    rw [readLoop]
    split
    · rename_i hwant
      subst hwant
      refine ⟨rfl, rfl, fun data eof h => ?_⟩
      obtain ⟨rfl, rfl⟩ := Prod.mk.inj (Option.some.inj h)
      exact ⟨by simp, by simp, fun _ => rfl⟩
    rename_i hwant
    split
    · exact ⟨rfl, rfl, fun _ _ h => by cases h⟩
    · -- nothing is left of the file
      rename_i file₁ hread
      obtain ⟨n, hchunk, rfl⟩ := readSome_spec hread
      have hempty : (bytesOf d file).drop file.pos = [] := by
        refine List.take_eq_nil_iff.1 hchunk.symm |>.resolve_left ?_
        omega
      refine ⟨rfl, rfl, fun data eof h => ?_⟩
      obtain ⟨rfl, rfl⟩ := Prod.mk.inj (Option.some.inj h)
      refine ⟨?_, ?_, fun _ => rfl⟩
      · rw [hempty, List.take_nil, upTo_nil, List.append_nil]
      · rw [hempty, List.take_nil]
        exact ⟨fun _ => ⟨Nat.pos_of_ne_zero hwant, rfl⟩, fun _ => rfl⟩
    · rename_i chunk file₁ _ hread
      obtain ⟨n, hchunk, rfl⟩ := readSome_spec hread
      have hlen : chunk.length ≤ want := by
        rw [hchunk, List.length_take]
        omega
      have htake : chunk = ((bytesOf d file).drop file.pos).take chunk.length := by
        conv_lhs => rw [hchunk]
        rw [hchunk, List.length_take]
        exact (List.take_eq_take_iff.2 (by omega))
      split
      · -- the line ends in this chunk
        rename_i i hi
        refine ⟨rfl, rfl, fun data eof h => ?_⟩
        obtain ⟨rfl, rfl⟩ := Prod.mk.inj (Option.some.inj h)
        have hany : chunk.any stops = true := by
          rw [← List.findIdx?_isSome, hi]
          rfl
        have hwindow := take_drop_chunk hlen htake
        refine ⟨?_, ?_, fun hnone => ?_⟩
        · rw [hwindow, upTo_append_of_any hany, upTo_of_findIdx? hi]
        · rw [hwindow, List.any_append, hany]
          simp
        · rw [hwindow, List.any_append, hany] at hnone
          cases hnone
      · rename_i hnone
        have hstops : chunk.any stops = false := by
          rw [← List.findIdx?_isSome, hnone]
          rfl
        obtain ⟨hino, hfailed, hrest⟩ := @ih (want - chunk.length) (by
            have hpos : 0 < chunk.length := List.length_pos_iff.2 ‹_›
            omega) { file with pos := file.pos + chunk.length } (got ++ chunk)
        exact ⟨hino, hfailed, fun data eof h => (hrest data eof h).cons hlen htake hstops⟩

theorem writeAll_others (fuel : ℕ) (file : Handle) (data : Bytes) (d : Disk) :
    (Disk.writeAll sys fuel file data d).2.1.ino = file.ino ∧ ∀ ino ≠ file.ino,
      (Disk.writeAll sys fuel file data d).2.2.inode ino = d.inode ino := by
  refine Disk.writeAll_keeps sys (R := fun _ d' => ∀ ino ≠ file.ino, d'.inode ino = d.inode ino)
    (fun h d' _ i hino hothers ino hne => ?_) (fun _ _ _ h => h) fuel file data d rfl fun _ _ => rfl
  rw [← hothers ino hne, Disk.inode, Disk.setInode, getElem?_insert_eq, if_neg (hino ▸ hne),
    Disk.inode]

theorem writeOut_spec {fuel : ℕ} {data : Bytes} (hfuel : data.length ≤ fuel) (file : Handle)
    (d : Disk) (h : (Disk.writeOut sys fuel file data d).1 = true) :
    (Disk.writeOut sys fuel file data d).2.1.pos = file.pos + data.length ∧
      Written 0 (bytesOf d file) file.pos data
        ((Disk.writeOut sys fuel file data d).2.2.inode file.ino).data := by
  induction fuel generalizing file data d with
  | zero =>
    obtain rfl := List.eq_nil_of_length_eq_zero (Nat.le_zero.1 hfuel)
    exact ⟨rfl, .nil _ _ _⟩
  | succ fuel ih =>
    simp only [Disk.writeOut] at h ⊢
    split at h
    · rename_i hnil
      subst hnil
      rw [if_pos rfl]
      exact ⟨rfl, .nil _ _ _⟩
    rename_i hnil
    rw [if_neg hnil]
    split at h
    · cases h
    rename_i hrefuses
    rw [if_neg hrefuses]
    set n := max 1 (sys.moves (.write file.fd file.pos)) with hn
    have hpos : 0 < data.length := List.length_pos_iff.2 hnil
    have hchunk : (data.take n).length = min n data.length := List.length_take
    have hchunknil : data.take n ≠ [] := by
      refine List.length_pos_iff.1 ?_
      omega
    obtain ⟨hend, hwritten⟩ := ih (by rw [List.length_drop]; omega) _ _ h
    refine ⟨?_, ?_⟩
    · rw [hend, List.length_drop]
      dsimp only
      omega
    · have hfirst := written_splice 0 (bytesOf d file) file.pos hchunknil
      have hrest := hfirst.append (by
        simpa only [bytesOf, Disk.inode_setInode, Disk.overwrite] using hwritten)
      rw [List.prefix_iff_eq_append.1 (List.take_prefix n data)] at hrest
      exact hrest

/-- Whether the system takes as many bytes at a place. -/
def takes (sys : Sys) (fd : ℕ) : ℕ → ℕ → ℕ → Bool
  | 0, _, _ => true
  | fuel + 1, pos, len =>
    if len = 0 then true
    else if sys.refuses (.write fd pos) then false
    else
      let n := min (max 1 (sys.moves (.write fd pos))) len
      takes sys fd fuel (pos + n) (len - n)

theorem writeOut_takes (fuel : ℕ) (file : Handle) (data : Bytes) (d : Disk) :
    (Disk.writeOut sys fuel file data d).1 = takes sys file.fd fuel file.pos data.length := by
  induction fuel generalizing file data d with
  | zero => rfl
  | succ fuel ih =>
    rw [Disk.writeOut, takes]
    simp only [List.length_eq_zero_iff]
    split_ifs
    · rfl
    · rfl
    · rw [ih, List.length_drop, List.length_take]

theorem writeAll_spec {fuel : ℕ} {data : Bytes} (hfuel : data.length ≤ fuel) (file : Handle)
    (d : Disk) (h : (Disk.writeAll sys fuel file data d).1 = true)
    (hfailed : (Disk.writeAll sys fuel file data d).2.1.failed = false) :
    file.failed = false ∧
      (Disk.writeAll sys fuel file data d).2.1.pos = file.pos + data.length ∧
      Written 0 (bytesOf d file) file.pos data
        ((Disk.writeAll sys fuel file data d).2.2.inode file.ino).data := by
  induction fuel generalizing file data d with
  | zero =>
    obtain rfl := List.eq_nil_of_length_eq_zero (Nat.le_zero.1 hfuel)
    exact ⟨hfailed, rfl, .nil _ _ _⟩
  | succ fuel ih =>
    simp only [Disk.writeAll] at h hfailed ⊢
    by_cases hnil : data = []
    · subst hnil
      rw [if_pos rfl] at hfailed ⊢
      exact ⟨hfailed, rfl, .nil _ _ _⟩
    rw [if_neg hnil] at h hfailed ⊢
    by_cases hold : file.failed = true
    · rw [if_pos hold] at h
      cases h
    rw [if_neg hold] at h hfailed ⊢
    set buf := data.take (max 1 sys.buffer) with hbuf
    have hpos : 0 < buf.length := by
      rw [hbuf, List.length_take]
      have := List.length_pos_iff.2 hnil
      omega
    have hino := (Disk.writeOut_keeps sys (R := fun _ _ => True) (fun _ _ _ _ _ _ => trivial)
      buf.length file buf d rfl trivial).1
    have hout := @writeOut_spec sys _ buf (Nat.le_refl _) file d
    generalize Disk.writeOut sys buf.length file buf d = outcome at h hfailed hino hout ⊢
    obtain ⟨written, file', d'⟩ := outcome
    obtain ⟨hkept, hend, hwritten⟩ := ih (by rw [List.length_drop]; omega) _ _ h hfailed
    obtain ⟨hend' : file'.pos = _, hwritten'⟩ := hout (by simpa using hkept)
    have hall : buf ++ data.drop buf.length = data :=
      List.prefix_iff_eq_append.1 (List.take_prefix _ data)
    refine ⟨Bool.eq_false_iff.2 hold, ?_, ?_⟩
    · rw [hend, hend', Nat.add_assoc, ← List.length_append, hall]
    · have hino : file'.ino = file.ino := hino
      simp only [bytesOf, hino, hend'] at hwritten ⊢
      have hboth := hwritten'.append hwritten
      rwa [hall] at hboth

/-- A file with a failed write takes in nothing. -/
theorem writeAll_told {fuel : ℕ} {file : Handle} {data : Bytes} {d : Disk}
    (hfuel : data.length ≤ fuel) (hold : file.failed = true)
    (h : (Disk.writeAll sys fuel file data d).1 = true) :
    data = [] ∧ (Disk.writeAll sys fuel file data d).2.2 = d := by
  cases fuel with
  | zero => exact ⟨List.eq_nil_of_length_eq_zero (Nat.le_zero.1 hfuel), rfl⟩
  | succ fuel =>
    rw [Disk.writeAll] at h ⊢
    by_cases hnil : data = []
    · rw [if_pos hnil]
      exact ⟨hnil, rfl⟩
    · rw [if_neg hnil, if_pos hold] at h
      cases h

/-- Where the last buffer of so many bytes starts. -/
def lastBuffer (sys : Sys) (len : ℕ) : ℕ := (len - 1) / max 1 sys.buffer * max 1 sys.buffer

/-- **What a write rests on.**  The system takes the last of its buffers; whether it takes the
    others is told. -/
def TakesLast (sys : Sys) (fd offset len : ℕ) : Prop :=
  takes sys fd (len - lastBuffer sys len) (offset + lastBuffer sys len)
    (len - lastBuffer sys len) = true

instance (sys : Sys) (fd offset len : ℕ) : Decidable (TakesLast sys fd offset len) :=
  inferInstanceAs (Decidable (_ = true))

theorem lastBuffer_sub {len : ℕ} (h : max 1 sys.buffer < len) :
    lastBuffer sys len = lastBuffer sys (len - max 1 sys.buffer) + max 1 sys.buffer := by
  have hsplit : len - 1 = len - max 1 sys.buffer - 1 + max 1 sys.buffer := by omega
  rw [lastBuffer, lastBuffer, hsplit, Nat.add_div_right _ (by omega), Nat.succ_mul]

theorem lastBuffer_eq_zero {len : ℕ} (h : len ≤ max 1 sys.buffer) : lastBuffer sys len = 0 := by
  rw [lastBuffer, Nat.div_eq_of_lt (by omega), Nat.zero_mul]

/-- A write whose last buffer is taken leaves nothing to tell. -/
theorem writeAll_taken {fuel : ℕ} {data : Bytes} (hfuel : data.length ≤ fuel) (file : Handle)
    (d : Disk) (hold : file.failed = false) (htakes : TakesLast sys file.fd file.pos data.length)
    (h : (Disk.writeAll sys fuel file data d).1 = true) :
    (Disk.writeAll sys fuel file data d).2.1.failed = false := by
  induction fuel generalizing file data d with
  | zero => exact hold
  | succ fuel ih =>
    simp only [Disk.writeAll] at h ⊢
    by_cases hnil : data = []
    · rw [if_pos hnil]
      exact hold
    have hpos : 0 < data.length := List.length_pos_iff.2 hnil
    rw [if_neg hnil, if_neg (by rw [hold]; decide)] at h ⊢
    set buf := data.take (max 1 sys.buffer) with hbuf
    have hlen : buf.length = min (max 1 sys.buffer) data.length := List.length_take
    have hfd := (Disk.writeOut_keeps sys (R := fun h _ => h.fd = file.fd) (fun _ _ _ _ _ h => h)
      buf.length file buf d rfl rfl).2
    have hend := @writeOut_spec sys _ buf (Nat.le_refl _) file d
    have hout := @writeOut_takes sys buf.length file buf d
    generalize Disk.writeOut sys buf.length file buf d = outcome at h hfd hend hout ⊢
    obtain ⟨written, file', d'⟩ := outcome
    cases written with
    | true =>
      refine ih (by rw [List.length_drop]; omega) _ _ rfl ?_ h
      have hfd : file'.fd = file.fd := hfd
      have hpos' : file'.pos = file.pos + buf.length := (hend rfl).1
      rw [hfd, hpos', List.length_drop, TakesLast]
      rcases Nat.lt_or_ge (max 1 sys.buffer) data.length with hlt | hge
      · rw [Nat.min_eq_left hlt.le] at hlen
        rw [TakesLast, lastBuffer_sub hlt] at htakes
        rw [hlen, Nat.sub_sub, Nat.add_assoc, Nat.add_comm (max 1 sys.buffer)]
        exact htakes
      · rw [hlen, Nat.min_eq_right hge, lastBuffer_eq_zero (by omega), Nat.sub_self]
        rfl
    | false =>
      rcases Nat.lt_or_ge (max 1 sys.buffer) data.length with hlt | hge
      · -- what is left is refused
        have hrest : data.drop buf.length ≠ [] := by
          refine List.length_pos_iff.1 ?_
          rw [List.length_drop]
          omega
        have hsome : data.length - buf.length ≤ fuel := by omega
        obtain ⟨hnil, -⟩ := writeAll_told (by rwa [List.length_drop]) rfl h
        exact absurd hnil hrest
      · rw [Nat.min_eq_right hge] at hlen
        have hlast : buf = data := List.take_of_length_le hge
        rw [TakesLast, lastBuffer_eq_zero hge, Nat.sub_zero, Nat.add_zero] at htakes
        rw [hlast, htakes] at hout
        cases hout

/-! ## Operations on an open fork -/

variable {v v₁ v' : Volume} {forkId : UInt16} {key : NodeId × ForkType} {file file₁ : Handle}

/-- The file of one reference stands somewhere else now, and the position kept for it is right. -/
structure Handled (forkId : UInt16) (key : NodeId × ForkType) (file : Handle) (v v' : Volume) :
    Prop where
  elsewhere : Elsewhere forkId key v v'
  ino : (v'.openFile? key).map (·.ino) = some file.ino
  own : ∀ pos file', v'.forkPos[forkId]? = some pos → v'.openFile? key = some file' →
    StandsAt file' pos

theorem Handled.refl (hv : Cached v) (href : v.forkRefToNodeId[forkId]? = some key)
    (hopen : v.openFile? key = some file) : Handled forkId key file v v :=
  ⟨.refl v, by rw [hopen, Option.map_some], fun pos file' hpos hfile =>
    hv.placed forkId pos key file' hpos href hfile⟩

theorem Handled.put (h : Handled forkId key file v v₁) (hino : file₁.ino = file.ino)
    (hnodes : v'.nodes = (mapNode key.1 (·.setFork key.2 (some file₁)) v₁).nodes)
    (hrefs : v'.forkRefToNodeId = v₁.forkRefToNodeId)
    (hothers : ∀ r : UInt16, r ≠ forkId → v'.forkPos[r]? = v₁.forkPos[r]?)
    (hown : ∀ pos, v'.forkPos[forkId]? = some pos → StandsAt file₁ pos) :
    Handled forkId key file v v' := by
  have hopen : ∀ other, v'.openFile? other =
      if other = key then some file₁ else v₁.openFile? other := by
    intro other
    have hput := openFile?_mapNode_setFork key other (some file₁) (v := v₁)
    rw [openFile?, ← hnodes] at hput
    rw [openFile?, hput]
    split
    · have hsome := h.ino
      rcases hnode : v₁.nodes[key.1]? with _ | node
      · rw [openFile?, hnode] at hsome
        cases hsome
      · rfl
    · rfl
  refine ⟨h.elsewhere.trans ⟨hrefs, hothers, fun other hother => ?_⟩, ?_, ?_⟩
  · rw [hopen, if_neg hother]
  · rw [hopen, if_pos rfl, Option.map_some, hino]
  · intro pos file' hpos' hfile'
    rw [hopen, if_pos rfl] at hfile'
    obtain rfl := Option.some.inj hfile'
    exact hown pos hpos'

/-- The handle put back where it stands. -/
theorem Handled.moved {pos : ℕ} (h : Handled forkId key file v v₁) (hino : file₁.ino = file.ino)
    (hnodes : v'.nodes = (mapNode key.1 (·.setFork key.2 (some file₁)) v₁).nodes)
    (hrefs : v'.forkRefToNodeId = v₁.forkRefToNodeId)
    (hpos : v'.forkPos = v₁.forkPos.insert forkId pos) (hstands : StandsAt file₁ pos) :
    Handled forkId key file v v' := by
  refine h.put hino hnodes hrefs (fun r hr => ?_) fun pos' hpos' => ?_
  · rw [hpos, getElem?_insert_eq, if_neg hr]
  · rw [hpos, getElem?_insert_eq, if_pos rfl] at hpos'
    exact Option.some.inj hpos' ▸ hstands

/-- The handle put back somewhere, and its position forgotten. -/
theorem Handled.lost (h : Handled forkId key file v v₁) (hino : file₁.ino = file.ino)
    (hnodes : v'.nodes = (mapNode key.1 (·.setFork key.2 (some file₁)) v₁).nodes)
    (hrefs : v'.forkRefToNodeId = v₁.forkRefToNodeId)
    (hpos : v'.forkPos = v₁.forkPos.erase forkId) : Handled forkId key file v v' := by
  refine h.put hino hnodes hrefs (fun r hr => ?_) fun pos' hpos' => ?_
  · rw [hpos, getElem?_erase_eq, if_neg hr]
  · rw [hpos, getElem?_erase_eq, if_pos rfl] at hpos'
    cases hpos'

/-- A position forgotten. -/
theorem Handled.forget (h : Handled forkId key file v v₁) (hnodes : v'.nodes = v₁.nodes)
    (hrefs : v'.forkRefToNodeId = v₁.forkRefToNodeId)
    (hpos : v'.forkPos = v₁.forkPos.erase forkId) : Handled forkId key file v v' := by
  refine ⟨h.elsewhere.trans ⟨hrefs, fun r hr => ?_, fun other _ => ?_⟩, ?_, fun pos _ hpos' _ => ?_⟩
  · rw [hpos, getElem?_erase_eq, if_neg hr]
  · rw [openFile?, openFile?, hnodes]
  · rw [openFile?, hnodes]
    exact h.ino
  · rw [hpos, getElem?_erase_eq, if_pos rfl] at hpos'
    cases hpos'

theorem Handled.placed (h : Handled forkId key file v v') (hv : Cached v)
    (href : v.forkRefToNodeId[forkId]? = some key) : Placed v' :=
  h.elsewhere.placed hv href h.own

/-- The references name the same files. -/
def SameFiles (v v' : Volume) : Prop :=
  v'.forkRefToNodeId = v.forkRefToNodeId ∧
    ∀ key, (v'.openFile? key).map (·.ino) = (v.openFile? key).map (·.ino)

theorem SameFiles.refl (v : Volume) : SameFiles v v := ⟨rfl, fun _ => rfl⟩

theorem Handled.sameFiles (h : Handled forkId key file v v')
    (hopen : v.openFile? key = some file) : SameFiles v v' := by
  refine ⟨h.elsewhere.refs, fun other => ?_⟩
  by_cases hother : other = key
  · rw [hother, h.ino, hopen, Option.map_some]
  · rw [h.elsewhere.openFile other hother]

/-- The file is put at the position, or has no failed write behind it. -/
def Certain (v : Volume) (forkId : UInt16) (pos : ℕ) (file : Handle) : Prop :=
  v.forkPos[forkId]? = some pos → file.failed = false

instance (v : Volume) (forkId : UInt16) (pos : ℕ) (file : Handle) :
    Decidable (Certain v forkId pos file) :=
  inferInstanceAs (Decidable (_ → _))

theorem seekFork_spec {pos : ℕ} {e : AfpError} (hv : Cached v)
    (href : v.forkRefToNodeId[forkId]? = some key) (hopen : v.openFile? key = some file) :
    Proc.wp False (seekFork sys forkId key.1 key.2 file pos e) (fun r v' =>
      Handled forkId key file v v' ∧ v'.disk = v.disk ∧
        ∀ file', r = .ok file' → (Certain v forkId pos file → file'.pos = pos) ∧
          file'.ino = file.ino ∧ file'.fd = file.fd ∧ file'.failed = file.failed) v := by
  have hstart := Handled.refl hv href hopen
  simp only [seekFork, Proc.wp_bind, Proc.wp_read, Proc.next_ok, Proc.wp_ite]
  refine ⟨fun hpos => ⟨hstart, rfl, ?_⟩, fun _ => ?_⟩
  · intro file' h
    obtain rfl := Except.ok.inj h
    exact ⟨fun hcertain => hv.placed forkId pos key file hpos href hopen (hcertain hpos),
      rfl, rfl, rfl⟩
  · unfold Disk.seek
    split_ifs
    · exact ⟨hstart.forget rfl rfl rfl, rfl, by intro file' h; cases h⟩
    · have hino : ({ file with pos := pos } : Handle).ino = file.ino := rfl
      refine ⟨hstart.moved hino rfl rfl rfl fun _ => rfl, rfl, ?_⟩
      intro file' h
      obtain rfl := Except.ok.inj h
      exact ⟨fun _ => rfl, rfl, rfl, rfl⟩

/-- The bytes that end a line. -/
def newline (req : FPRead) (byte : UInt8) : Bool :=
  decide (req.newlineMask ≠ 0) && req.byteMatchesNewline byte

/-- The range asked for, cut after a newline, and whether the fork ends before either. -/
def RangeRead (req : FPRead) (outLen : ℕ) (bytes data : Bytes) (eof : Bool) : Prop :=
  let count := min req.reqCount outLen
  let range := (bytes.drop req.offset).take count
  data = upTo (newline req) range ∧
    (eof = true ↔ range.length < count ∧ range.any (newline req) = false)

theorem readFork_spec (req : FPRead) (outLen : ℕ) (hv : Cached v)
    (href : v.forkRefToNodeId[req.forkId]? = some key) (hopen : v.openFile? key = some file) :
    Proc.wp False (readFork sys req outLen) (fun r v' => Handled req.forkId key file v v' ∧
      v'.disk = v.disk ∧
        ∀ data eof, r = .ok (data, eof) → Certain v req.forkId req.offset file →
          RangeRead req outLen (bytesOf v.disk file) data eof) v := by
  have hstart := Handled.refl hv href hopen
  obtain ⟨node, hnode, hfork⟩ := Option.bind_eq_some_iff.1 hopen
  simp only [readFork, Proc.wp_bind, forkOf, Proc.wp_read, Proc.next_ok, href, Proc.wp_orElse,
    Option.some.injEq, forall_eq', getNode, hnode, hfork, reduceCtorEq, IsEmpty.forall_iff,
    and_true]
  refine Proc.wp_mono (seekFork_spec hv href hopen) ?_
  rintro (e | file₁) v₁ ⟨h₁, hdisk, hfile₁⟩
  · exact ⟨h₁, hdisk, by intro _ _ h; cases h⟩
  obtain ⟨hpos₁, hino₁, -, hfailed₁⟩ := hfile₁ file₁ rfl
  have hstands₁ : StandsAt file₁ req.offset := fun hkept => hpos₁ fun _ => hfailed₁.symm.trans hkept
  have hloop := @readLoop_spec sys (newline req) v₁.disk _ _ (le_refl (min req.reqCount outLen))
    file₁ []
  rw [Proc.next_ok, Proc.wp_bind, Proc.wp_read, Proc.next_ok]
  split
  · rename_i file₂ hout
    rw [show readLoop sys (newline req) _ _ _ _ _ = (none, file₂) from hout] at hloop
    exact ⟨h₁.lost (hloop.1.trans hino₁) rfl rfl rfl, hdisk, by intro _ _ h; cases h⟩
  rename_i data eof file₂ hout
  rw [show readLoop sys (newline req) _ _ _ _ _ = (some (data, eof), file₂) from hout] at hloop
  obtain ⟨hino₂, hfailed₂, hread⟩ := hloop
  have hdata := hread data eof rfl
  have hrange : Certain v req.forkId req.offset file →
      RangeRead req outLen (bytesOf v.disk file) data eof := by
    intro hcertain
    have hpos₁ := hpos₁ hcertain
    have hbytes : bytesOf v₁.disk file₁ = bytesOf v.disk file := by
      rw [bytesOf, bytesOf, hdisk, hino₁]
    refine ⟨?_, ?_⟩
    · have h := hdata.bytes
      rwa [hbytes, hpos₁, List.nil_append] at h
    · have h := hdata.ended
      rwa [hbytes, hpos₁] at h
  split
  · exact ⟨h₁.lost (hino₂.trans hino₁) rfl rfl rfl, hdisk, by intro _ _ h; cases h⟩
  · rename_i file₃ hseek
    have hfile₃ : file₃.ino = file₂.ino ∧ StandsAt file₃ (req.offset + data.length) := by
      split at hseek
      · unfold Disk.seek at hseek
        split at hseek
        · cases hseek
        · obtain rfl := Option.some.inj hseek
          exact ⟨rfl, fun _ => rfl⟩
      · rename_i hmask
        obtain rfl := Option.some.inj hseek
        refine ⟨rfl, fun hkept => ?_⟩
        have hnone : ∀ l : Bytes, l.any (newline req) = false := by
          intro l
          rw [List.any_eq_false]
          intro b _
          simp [newline, hmask]
        have hpos := hdata.pos (hnone _)
        rw [hstands₁ (hfailed₂.symm.trans hkept)] at hpos
        exact hpos
    refine ⟨h₁.moved ((hfile₃.1.trans hino₂).trans hino₁) rfl rfl rfl hfile₃.2, hdisk, ?_⟩
    intro data' eof' h
    obtain ⟨rfl, rfl⟩ := Prod.mk.inj (Except.ok.inj h)
    exact hrange

/-- What a write is to leave: the data in its range of the fork's bytes, and all others as they
    were. -/
def RangeWritten (file : Handle) (offset : ℕ) (data : Bytes) (d d' : Disk) : Prop :=
  Written 0 (bytesOf d file) offset data (bytesOf d' file) ∧
    ∀ ino ≠ file.ino, d'.inode ino = d.inode ino

theorem writeFork_spec (offset : ℕ) (data : Bytes) (hv : Cached v)
    (href : v.forkRefToNodeId[forkId]? = some key) (hopen : v.openFile? key = some file) :
    Proc.wp False (writeFork sys forkId offset data) (fun r v' => Handled forkId key file v v' ∧
      (∀ ino ≠ file.ino, v'.disk.inode ino = v.disk.inode ino) ∧
        ∀ n, r = .ok n → TakesLast sys file.fd offset data.length →
          n = data.length ∧ RangeWritten file offset data v.disk v'.disk) v := by
  have hstart := Handled.refl hv href hopen
  obtain ⟨node, hnode, hfork⟩ := Option.bind_eq_some_iff.1 hopen
  simp only [writeFork, Proc.wp_bind, forkOf, Proc.wp_read, Proc.next_ok, href, Proc.wp_orElse,
    Option.some.injEq, forall_eq', getNode, hnode, hfork, reduceCtorEq, IsEmpty.forall_iff,
    and_true, Proc.wp_ite, Proc.wp_throw]
  refine ⟨fun _ => ⟨hstart, by simp⟩, fun _ => ?_⟩
  refine Proc.wp_mono (seekFork_spec hv href hopen) ?_
  rintro (e | file₁) v₁ ⟨h₁, hdisk, hfile₁⟩
  · exact ⟨h₁, fun _ _ => by rw [hdisk], by intro _ h; cases h⟩
  obtain ⟨hpos₁, hino₁, hfd₁, hfailed₁⟩ := hfile₁ file₁ rfl
  have hpos₁ : StandsAt file₁ offset := fun hkept => hpos₁ fun _ => hfailed₁.symm.trans hkept
  have hothers := @writeAll_others sys data.length file₁ data v₁.disk
  have hwrite := @writeAll_spec sys _ _ (le_refl data.length) file₁ v₁.disk
  have htaken := @writeAll_taken sys _ _ (le_refl data.length) file₁ v₁.disk
  have htold := @writeAll_told sys data.length file₁ data v₁.disk (le_refl _)
  simp only [Proc.next_ok, Proc.wp_bind, Proc.wp_read]
  generalize Disk.writeAll sys data.length file₁ data v₁.disk = outcome
    at hothers hwrite htaken htold ⊢
  obtain ⟨written, file₂, disk⟩ := outcome
  have hkept : ∀ ino ≠ file.ino, disk.inode ino = v.disk.inode ino := by
    intro ino hne
    rw [hothers.2 ino (by rw [hino₁]; exact hne), hdisk]
  simp only [Proc.wp_modify, Proc.next_ok, setHandle, updateNode, markDirty, Proc.wp_ite,
    Proc.wp_bind, setPos, Proc.wp_pure, forgetPos, Proc.wp_throw]
  refine ⟨fun hok => ⟨h₁.moved (hothers.1.trans hino₁) rfl rfl rfl fun hfailed => ?_, hkept, ?_⟩,
    fun _ => ⟨h₁.lost (hothers.1.trans hino₁) rfl rfl rfl, hkept, ?_⟩⟩
  · obtain ⟨hold, hend, -⟩ := hwrite hok hfailed
    rw [hend, hpos₁ hold]
  · intro n hn htakes
    obtain rfl := Except.ok.inj hn
    refine ⟨rfl, ?_, hkept⟩
    have hsame : bytesOf v₁.disk file₁ = bytesOf v.disk file := by
      rw [bytesOf, bytesOf, hdisk, hino₁]
    cases hold : file₁.failed with
    | true =>
      obtain ⟨rfl, hdisk₂ : disk = v₁.disk⟩ := htold hold hok
      show Written 0 _ _ _ (bytesOf disk file)
      rw [show bytesOf disk file = bytesOf v.disk file by rw [hdisk₂, hdisk]]
      exact .nil _ _ _
    | false =>
      have hbytes := (hwrite hok (htaken hold (by rwa [hfd₁, hpos₁ hold]) hok)).2.2
      rw [hsame, hpos₁ hold, hino₁] at hbytes
      exact hbytes
  · intro _ h
    cases h

/-- What a new length is to leave of the bytes. -/
def Resized (file : Handle) (len : ℕ) (d d' : Disk) : Prop :=
  bytesOf d' file =
      (bytesOf d file ++ List.replicate (len - (bytesOf d file).length) 0).take len ∧
    ∀ ino ≠ file.ino, d'.inode ino = d.inode ino

theorem resize_spec {cmd : FPSetForkParms} {node : Node} (hv : Cached v)
    (href : v.forkRefToNodeId[cmd.forkRefNum]? = some key) (hopen : v.openFile? key = some file)
    (hnode : node.fork key.2 = some file) :
    Proc.wp False (match ownLength cmd key.2 with
      | none => pure ()
      | some len => do
        let file ← Proc.orElse (node.fork key.2) .objectNotFound
        host .accessDenied (Disk.setLen sys file len)
        forgetPos cmd.forkRefNum
        markDirty key)
      (fun r v' => Handled cmd.forkRefNum key file v v' ∧ (r = .ok () → ∀ len,
        ownLength cmd key.2 = some len → Resized file len v.disk v'.disk)) v := by
  have hstart := Handled.refl hv href hopen
  rcases ownLength cmd key.2 with _ | len
  · exact ⟨hstart, fun _ _ h => nomatch h⟩
  · simp only [Proc.wp_bind, hnode, Proc.wp_orElse, Option.some.injEq, forall_eq', Proc.next_ok,
      reduceCtorEq, IsEmpty.forall_iff, and_true, wp_host, Disk.setLen]
    split_ifs
    · exact ⟨hstart, by intro h; cases h⟩
    · simp only [Proc.next_ok, Proc.wp_bind, forgetPos, markDirty, Proc.wp_modify]
      refine ⟨hstart.forget rfl rfl rfl, fun _ => ⟨?_, fun ino hne => ?_⟩⟩
      · exact congrArg Inode.data (Disk.inode_setInode ..)
      · exact (congrArg (Option.getD · Inode.empty) (getElem?_insert_eq ..)).trans
          (by rw [if_neg hne, Disk.inode])

theorem setForkParms_spec (cmd : FPSetForkParms) (hv : Cached v)
    (href : v.forkRefToNodeId[cmd.forkRefNum]? = some key) (hopen : v.openFile? key = some file) :
    Proc.wp False (setForkParms sys cmd) (fun r v' => Handled cmd.forkRefNum key file v v' ∧
      (r = .ok () → ∀ len, ownLength cmd key.2 = some len →
        Resized file len v.disk v'.disk)) v := by
  have hstart := Handled.refl hv href hopen
  obtain ⟨node, hnode, hfork⟩ := Option.bind_eq_some_iff.1 hopen
  obtain ⟨id, forkType⟩ := key
  simp only [setForkParms, Proc.wp_bind, forkOf, Proc.wp_read, Proc.next_ok, href, Proc.wp_orElse,
    Option.some.injEq, forall_eq', getNode, hnode, reduceCtorEq, IsEmpty.forall_iff, and_true]
  cases forkType with
  | data =>
    simp only [Proc.wp_ite, Proc.wp_throw]
    exact ⟨fun _ => ⟨hstart, by intro h; cases h⟩, fun _ => resize_spec hv href hopen hfork⟩
  | resource =>
    simp only [Proc.wp_ite, Proc.wp_throw]
    exact ⟨fun _ => ⟨hstart, by intro h; cases h⟩, fun _ => resize_spec hv href hopen hfork⟩

/-! ## Opening, closing and deleting -/

theorem closeFork_pos (forkId : UInt16) (v : Volume) :
    Proc.wp False (closeFork sys forkId) (fun _ v' => v' = v ∨
      v'.forkPos = v.forkPos.erase forkId ∧ v'.forkLocks = v.forkLocks.erase forkId) v := by
  simp only [closeFork, Proc.wp_bind, forkOf, Proc.wp_read, Proc.next_ok, Proc.wp_orElse,
    getNode, Proc.next_error]
  refine ⟨?_, fun _ => Or.inl trivial⟩
  rintro ⟨nodeId, forkType⟩ _
  refine ⟨fun node _ => ?_, fun _ => Or.inl trivial⟩
  unfold closeHandle
  rcases node.fork forkType with _ | file
  · exact Or.inr ⟨rfl, rfl⟩
  · exact Or.inr ⟨rfl, rfl⟩

theorem Cached.closed (hv : Cached v) (href : v.forkRefToNodeId[forkId]? = some key)
    (h : Closed forkId key v v') (hpos : v'.forkPos = v.forkPos.erase forkId) : Cached v' := by
  have hrefs : ∀ (r : UInt16) other, v'.forkRefToNodeId[r]? = some other →
      r ≠ forkId ∧ v.forkRefToNodeId[r]? = some other := by
    intro r other hr
    rw [h.refs, getElem?_erase_eq] at hr
    split at hr
    · cases hr
    · exact ⟨‹_›, hr⟩
  have hfiles : ∀ (r : UInt16) other, v'.forkRefToNodeId[r]? = some other →
      v'.openFile? other = v.openFile? other := by
    intro r other hr
    obtain ⟨hne, hr'⟩ := hrefs r other hr
    rw [h.openFile, if_neg]
    rintro rfl
    exact hne (hv.single r forkId other hr' href)
  refine ⟨fun id hid => ?_, fun r other hr => ?_, fun r other hr hnode => ?_,
    fun r r' other hr hr' => ?_, fun r pos other file' hpos' hr hfile' => ?_⟩
  · have hknown := h.known id
    rw [hv.fresh id (h.ids ▸ hid)] at hknown
    exact Option.not_isSome_iff_eq_none.1 (by rw [hknown]; exact Bool.false_ne_true)
  · rw [h.ids]
    exact hv.known r other (hrefs r other hr).2
  · rw [hfiles r other hr]
    exact hv.opened r other (hrefs r other hr).2 (h.known other.1 ▸ hnode)
  · exact hv.single r r' other (hrefs r other hr).2 (hrefs r' other hr').2
  · rw [hfiles r other hr] at hfile'
    rw [hpos, getElem?_erase_eq, if_neg (hrefs r other hr).1] at hpos'
    exact hv.placed r pos other file' hpos' (hrefs r other hr).2 hfile'

theorem closeFork_cached (forkId : UInt16) (hv : Cached v) :
    Proc.wp False (closeFork sys forkId) (fun _ v' => Cached v') v := by
  refine Proc.wp_mono (Proc.wp_and (closeFork_closed forkId v) (closeFork_pos forkId v)) ?_
  rintro r v' ⟨hclosed, hpos⟩
  rcases hclosed with rfl | ⟨key, hkey, hclosed⟩
  · exact hv
  rcases hpos with rfl | ⟨hpos, -⟩
  · exact hv
  · exact hv.closed hkey hclosed hpos

/-- What is known of a call's value is known of what it is returned as. -/
theorem wp_host_value {α : Type} {P : Prop} {G : α → Prop} {e : AfpError} {call : Host α}
    (h : ∀ a, (call v.disk).1 = some a → G a) :
    Proc.wp P (host e call) (fun r _ => ∀ a, r = .ok a → G a) v := by
  rw [wp_host]
  rcases hcall : (call v.disk).1 with _ | b
  · intro a ha
    cases ha
  · intro a ha
    obtain rfl := Except.ok.inj ha
    exact h _ hcall

theorem openFile_pos {p : HostPath} {d : Disk} (h : (Disk.openFile sys p d).1 = some file) :
    file.pos = 0 := by
  unfold Disk.openFile at h
  split at h
  · split at h
    · cases h
    · obtain rfl := Option.some.inj h
      rfl
  · cases h

theorem openCreate_pos {p : HostPath} {d : Disk} (h : (Disk.openCreate sys p d).1 = some file) :
    file.pos = 0 := by
  unfold Disk.openCreate at h
  split at h
  · cases h
  split at h
  · obtain rfl := Option.some.inj h
    rfl
  · cases h
  · dsimp only at h
    split at h
    · obtain rfl := Option.some.inj h
      rfl
    · cases h

theorem openHandle_pos (forkType : ForkType) (node : Node) (v : Volume) :
    Proc.wp True (openHandle sys forkType node) (fun r _ => ∀ file, r = .ok file → file.pos = 0)
      v := by
  cases forkType with
  | data => exact wp_host_value fun _ => openFile_pos
  | resource =>
    simp only [openHandle, openResourceFork, Proc.wp_bind]
    refine Proc.wp_mono (resolveResourceForkPath_spec (S := fun _ => True) trivial v) ?_
    rintro _ v₁ ⟨⟨len, rfl⟩, -⟩
    rw [Proc.next_ok, Proc.wp_bind, wp_host]
    split
    · exact @wp_host_value _ _ True _ _ _ fun _ => openCreate_pos
    · intro file h
      cases h

theorem Cached.addRef {node : Node} {accessMode : UInt16} (hv : Cached v)
    (hnode : v.nodes[key.1]? = some node) (hclosed : v.openFile? key = none)
    (hpos : file.pos = 0) : Cached (withRef key file accessMode v) := by
  have hnodes : ∀ id : NodeId, ((withRef key file accessMode v).nodes[id]?).isSome =
      (v.nodes[id]?).isSome := by
    intro id
    refine (congrArg Option.isSome (getElem?_mapNode key.1 _ v id)).trans ?_
    split
    · rename_i heq
      rw [heq, Option.isSome_map]
    · rfl
  have hopen : ∀ other, (withRef key file accessMode v).openFile? other =
      if other = key then some file else v.openFile? other := by
    intro other
    refine (openFile?_mapNode_setFork key other (some file)).trans ?_
    rw [hnode, Option.bind_some]
  have hrefs : ∀ (r : UInt16) other, (withRef key file accessMode v).forkRefToNodeId[r]? =
      some other → r = v.nextForkRefNum ∧ other = key ∨
        r ≠ v.nextForkRefNum ∧ other ≠ key ∧ v.forkRefToNodeId[r]? = some other := by
    intro r other hr
    have hr' := (getElem?_insert_eq v.forkRefToNodeId v.nextForkRefNum r key).symm.trans hr
    split at hr'
    · exact Or.inl ⟨‹_›, (Option.some.inj hr').symm⟩
    · refine Or.inr ⟨‹_›, ?_, hr'⟩
      rintro rfl
      have hsome := hv.opened r other hr' (by rw [hnode]; rfl)
      rw [hclosed] at hsome
      cases hsome
  have hlt : key.1 < v.nextId := by
    by_contra hge
    rw [hv.fresh key.1 (Nat.le_of_not_lt hge)] at hnode
    cases hnode
  refine ⟨fun id hid => ?_, fun r other hr => ?_, fun r other hr hsome => ?_,
    fun r r' other hr hr' => ?_, fun r pos other file' hpos' hr hfile' => ?_⟩
  · have hsome := hnodes id
    rw [hv.fresh id hid] at hsome
    exact Option.not_isSome_iff_eq_none.1 (by rw [hsome]; exact Bool.false_ne_true)
  · rcases hrefs r other hr with ⟨-, rfl⟩ | ⟨-, -, hr'⟩
    · exact hlt
    · exact hv.known r other hr'
  · rw [hopen]
    rcases hrefs r other hr with ⟨-, rfl⟩ | ⟨-, hne, hr'⟩
    · rw [if_pos rfl]
      rfl
    · rw [if_neg hne]
      exact hv.opened r other hr' (hnodes other.1 ▸ hsome)
  · rcases hrefs r other hr with ⟨rfl, rfl⟩ | ⟨-, hne, hr₁⟩
    · rcases hrefs r' other hr' with ⟨rfl, -⟩ | ⟨-, hne, -⟩
      · rfl
      · exact absurd rfl hne
    · rcases hrefs r' other hr' with ⟨-, heq⟩ | ⟨-, -, hr₂⟩
      · exact absurd heq hne
      · exact hv.single r r' other hr₁ hr₂
  · rw [hopen] at hfile'
    have hpos'' := (getElem?_insert_eq v.forkPos v.nextForkRefNum r 0).symm.trans hpos'
    rcases hrefs r other hr with ⟨rfl, rfl⟩ | ⟨hne, hother, hr'⟩
    · rw [if_pos rfl] at hfile' hpos''
      rw [← Option.some.inj hfile', ← Option.some.inj hpos'']
      exact fun _ => hpos
    · rw [if_neg hother] at hfile'
      rw [if_neg hne] at hpos''
      exact hv.placed r pos other file' hpos'' hr' hfile'

theorem Cached.withDisk (hv : Cached v) (d : Disk) : Cached { v with disk := d } :=
  hv.unforked (.of_eq hv.fresh rfl le_rfl rfl rfl) (absorbs_beside.disk v d)

variable [MacRoman]

theorem getFileParmsResp_disk (bitmap : Bitmap) (path : Path) (out : Bytes) (base : ℕ)
    (v : Volume) : Proc.wp True (getFileParmsResp sys bitmap path out base)
      (fun _ v' => ∃ d, v' = { v with disk := d }) v := by
  refine Proc.wp_mono (getFileParmsResp_spec bitmap path (Or.inl trivial) v) fun r v' h => ?_
  split at h
  · obtain ⟨⟨l, -, rfl⟩, -⟩ := h
    exact ⟨_, rfl⟩
  · exact ⟨v.disk, h.1⟩

theorem openFork_cached {forkType : ForkType} {bitmap : Bitmap} {accessMode : UInt16}
    {dirId : NodeId} {path : Path} {out : Bytes} (hv : Cached v) :
    Proc.wp True (openFork sys forkType bitmap accessMode dirId path out) (fun _ v' => Cached v')
      v := by
  rw [openFork, Proc.wp_bind]
  refine Proc.wp_mono ((resolveNodeLazy_quiet sys dirId path).cached hv) ?_
  rintro (e | id) v₁ ⟨hv₁, -⟩
  · exact hv₁
  simp only [Proc.next_ok, Proc.wp_bind, getNode, Proc.wp_read, Proc.wp_orElse, Proc.next_error,
    Proc.wp_ite, Proc.wp_throw]
  refine ⟨fun node hnode => ⟨fun _ => hv₁, fun hbusy => ?_⟩, fun _ => hv₁⟩
  refine Proc.wp_mono (Proc.wp_and (openHandle_spec forkType node v₁)
    (openHandle_pos forkType node v₁)) ?_
  rintro (e | file) v₂ ⟨⟨d, rfl, -⟩, hpos⟩
  · exact hv₁.withDisk d
  have hclosed : ({ v₁ with disk := d } : Volume).openFile? (id, forkType) = none := by
    rw [openFile?, hnode]
    exact Option.not_isSome_iff_eq_none.1 hbusy
  have hv₃ : Cached (withRef (id, forkType) file accessMode { v₁ with disk := d }) :=
    (hv₁.withDisk d).addRef hnode hclosed (hpos file rfl)
  rw [Proc.next_ok, wp_addHandle, Proc.wp_bind, Proc.wp_lift]
  refine ⟨fun out₁ _ => ?_, fun _ => trivial⟩
  rw [Proc.next_ok, Proc.wp_bind, Proc.wp_lift]
  refine ⟨fun out₂ _ => ?_, fun _ => trivial⟩
  rw [Proc.next_ok, Proc.wp_bind]
  refine Proc.wp_mono (getFileParmsResp_disk bitmap node.path out₂ 4 _) ?_
  rintro (e | written) _ ⟨d', rfl⟩
  · exact hv₃.withDisk d'
  · exact hv₃.withDisk d'

omit [MacRoman] in
/-- A node taken away; its references name nothing from then on. -/
theorem Cached.erase {id : NodeId} (hv : Cached v) (hnodes : v'.nodes = v.nodes.erase id)
    (hids : v'.nextId = v.nextId) (hrefs : v'.forkRefToNodeId = v.forkRefToNodeId)
    (hpos : v'.forkPos = v.forkPos) : Cached v' := by
  have hsub : ∀ (other : NodeId) node, v'.nodes[other]? = some node →
      v.nodes[other]? = some node := by
    intro other node h
    rw [hnodes, getElem?_erase_eq] at h
    split at h
    · cases h
    · exact h
  have hfile : ∀ key, (v'.nodes[key.1]?).isSome = true → v'.openFile? key = v.openFile? key := by
    intro key hsome
    obtain ⟨node, hnode⟩ := Option.isSome_iff_exists.1 hsome
    rw [openFile?, openFile?, hnode, hsub _ _ hnode]
  refine ⟨fun other hother => ?_, fun r key hr => ?_, fun r key hr hsome => ?_,
    fun r r' key hr hr' => ?_, fun r pos key file hpos' hr hopen => ?_⟩
  · rw [hnodes, getElem?_erase_eq]
    split
    · rfl
    · exact hv.fresh other (hids ▸ hother)
  · rw [hids]
    exact hv.known r key (hrefs ▸ hr)
  · obtain ⟨node, hnode⟩ := Option.isSome_iff_exists.1 hsome
    rw [hfile key hsome]
    exact hv.opened r key (hrefs ▸ hr) (by rw [hsub _ _ hnode]; rfl)
  · exact hv.single r r' key (hrefs ▸ hr) (hrefs ▸ hr')
  · have hsome : (v'.nodes[key.1]?).isSome = true := by
      obtain ⟨node, hnode, -⟩ := Option.bind_eq_some_iff.1 hopen
      rw [hnode]
      rfl
    exact hv.placed r pos key file (hpos ▸ hpos') (hrefs ▸ hr) (hfile key hsome ▸ hopen)

theorem delete_cached {dirId : NodeId} {path : Name} (hv : Cached v) :
    Proc.wp True (delete sys dirId path) (fun _ v' => Cached v') v := by
  rw [delete, Proc.wp_bind]
  refine Proc.wp_mono ((resolveNodeLazy_quiet sys dirId _).cached hv) ?_
  rintro (e | id) v₁ ⟨hv₁, -⟩
  · exact hv₁
  simp only [Proc.next_ok, Proc.wp_bind, getNode, Proc.wp_read, Proc.wp_orElse, Proc.next_error,
    Proc.wp_ite, Proc.wp_throw]
  refine ⟨fun _ => hv₁, fun _ => ⟨fun node _ => ?_, fun _ => hv₁⟩⟩
  refine Proc.wp_mono (deleteOnDisk_disk node v₁) ?_
  rintro (e | _) v₂ ⟨d, rfl⟩
  · exact hv₁.withDisk d
  rw [Proc.next_ok]
  unfold forgetObject
  cases node.isDir with
  | false => exact (hv₁.withDisk d).erase rfl rfl rfl rfl
  | true => exact (hv₁.withDisk d).erase rfl rfl rfl rfl

/-! ## Operations that find no open fork -/

omit [MacRoman] in
theorem fileOf_eq_some : v.fileOf forkId = some file ↔
    ∃ key, v.forkRefToNodeId[forkId]? = some key ∧ v.openFile? key = some file :=
  Option.bind_eq_some_iff

omit [MacRoman] in
theorem readFork_unopened {req : FPRead} {outLen : ℕ} (h : v.fileOf req.forkId = none) :
    Proc.wp False (readFork sys req outLen) (fun r v' => v' = v ∧ ∀ a, r ≠ .ok a) v := by
  simp only [readFork, Proc.wp_bind, forkOf, Proc.wp_read, Proc.next_ok, Proc.wp_orElse, getNode,
    Proc.next_error]
  refine ⟨fun key href => ⟨fun node hnode => ⟨fun file hfile => ?_, fun _ => by simp⟩,
    fun _ => by simp⟩, fun _ => by simp⟩
  have hnone : node.fork key.2 = none := by
    rwa [fileOf, href, Option.bind_some, openFile?, hnode, Option.bind_some] at h
  rw [hfile] at hnone
  cases hnone

omit [MacRoman] in
theorem writeFork_unopened {offset : ℕ} {data : Bytes} (h : v.fileOf forkId = none) :
    Proc.wp False (writeFork sys forkId offset data) (fun r v' => v' = v ∧ ∀ a, r ≠ .ok a) v := by
  simp only [writeFork, Proc.wp_bind, forkOf, Proc.wp_read, Proc.next_ok, Proc.wp_orElse, getNode,
    Proc.next_error, Proc.wp_ite, Proc.wp_throw]
  refine ⟨fun _ => by simp, fun _ => ⟨fun key href => ⟨fun node hnode => ⟨fun file hfile => ?_,
    fun _ => by simp⟩, fun _ => by simp⟩, fun _ => by simp⟩⟩
  have hnone : node.fork key.2 = none := by
    rwa [fileOf, href, Option.bind_some, openFile?, hnode, Option.bind_some] at h
  rw [hfile] at hnone
  cases hnone

omit [MacRoman] in
theorem setForkParms_unopened {cmd : FPSetForkParms} (h : v.fileOf cmd.forkRefNum = none) :
    Proc.wp False (setForkParms sys cmd) (fun _ v' => v' = v) v := by
  simp only [setForkParms, Proc.wp_bind, forkOf, Proc.wp_read, Proc.next_ok, Proc.wp_orElse,
    getNode, Proc.next_error]
  refine ⟨fun key href => ⟨fun node hnode => ?_, fun _ => trivial⟩, fun _ => trivial⟩
  obtain ⟨id, forkType⟩ := key
  have hnone : node.fork forkType = none := by
    rwa [fileOf, href, Option.bind_some, openFile?, hnode, Option.bind_some] at h
  cases forkType with
  | data =>
    rw [Proc.wp_ite, Proc.wp_throw]
    refine ⟨fun _ => rfl, fun _ => ?_⟩
    rcases cmd.dataForkLength with _ | len
    · exact rfl
    · rw [Proc.wp_bind, hnone, Proc.wp_orElse]
      exact ⟨fun _ h => (by cases h), fun _ => rfl⟩
  | resource =>
    rw [Proc.wp_ite, Proc.wp_throw]
    refine ⟨fun _ => rfl, fun _ => ?_⟩
    rcases cmd.resourceForkLength with _ | len
    · exact rfl
    · rw [Proc.wp_bind, hnone, Proc.wp_orElse]
      exact ⟨fun _ h => (by cases h), fun _ => rfl⟩

/-! ## Runs -/

namespace ForkOp

/-- **The condition.** A read that goes on where the file is said to stand finds no failed write
    behind it, and the last buffer of a write is taken. -/
def GetsThrough (v : Volume) (i : Sys × ForkOp) : Prop :=
  match i.2 with
  | .read req _ => ∀ file ∈ v.fileOf req.forkId, Certain v req.forkId req.offset file
  | .writeFork forkId offset data => ∀ file ∈ v.fileOf forkId,
      TakesLast i.1 file.fd offset data.length
  | _ => True

instance (v : Volume) : ∀ i : Sys × ForkOp, Decidable (GetsThrough v i)
  | (_, .read req _) =>
    inferInstanceAs (Decidable (∀ file ∈ v.fileOf req.forkId, Certain v req.forkId req.offset file))
  | (sys, .writeFork forkId offset data) => inferInstanceAs (Decidable
      (∀ file ∈ v.fileOf forkId, TakesLast sys file.fd offset data.length))
  | (_, .openFork ..) | (_, .closeFork _) | (_, .setForkParms _) | (_, .delete ..)
  | (_, .createFile ..) | (_, .moveAndRename ..) | (_, .copyFile ..) => isTrue trivial

/-- What a read is to end in: the bytes of the range if it succeeds, and nothing changed. -/
def ReadAt (v : Volume) (req : FPRead) (outLen : ℕ) (r : Except AfpError (Bytes × Bool))
    (v' : Volume) : Prop :=
  SameFiles v v' ∧ v'.disk = v.disk ∧ ∀ data eof, r = .ok (data, eof) →
    ∃ file, v.fileOf req.forkId = some file ∧ RangeRead req outLen (bytesOf v.disk file) data eof

/-- A write changes the bytes from its offset on, and no other. -/
def WrittenAt (v : Volume) (forkId : UInt16) (offset : ℕ) (data : Bytes) (r : Except AfpError ℕ)
    (v' : Volume) : Prop :=
  SameFiles v v' ∧ ∀ n, r = .ok n → ∃ file, v.fileOf forkId = some file ∧ n = data.length ∧
    RangeWritten file offset data v.disk v'.disk

/-- A new length cuts the file or fills it with zeros. -/
def ResizedTo (v : Volume) (cmd : FPSetForkParms) (r : Except AfpError Unit) (v' : Volume) : Prop :=
  SameFiles v v' ∧ (r = .ok () → ∀ key file len, v.forkRefToNodeId[cmd.forkRefNum]? = some key →
    v.openFile? key = some file → ownLength cmd key.2 = some len →
      Resized file len v.disk v'.disk)

/-- What reads, writes and new lengths are to do, by the bytes of the file alone. -/
def Positional (v : Volume) (i : Sys × ForkOp) : Prop :=
  match i.2 with
  | .read req outLen => ∀ r v', readFork i.1 req outLen v = .ok (r, v') → ReadAt v req outLen r v'
  | .writeFork forkId offset data => ∀ r v', Volume.writeFork i.1 forkId offset data v =
      .ok (r, v') → WrittenAt v forkId offset data r v'
  | .setForkParms cmd => ∀ r v', Volume.setForkParms i.1 cmd v = .ok (r, v') → ResizedTo v cmd r v'
  | _ => True

variable {i : Sys × ForkOp}

omit [MacRoman] in
/-- What an operation on a reference does when its file is open, and when it is not. -/
theorem wp_fileOf (v : Volume) (forkId : UInt16) {α : Type} {m : Afp α}
    {Q : Except AfpError α → Volume → Prop}
    (hopen : ∀ key file, v.forkRefToNodeId[forkId]? = some key → v.openFile? key = some file →
      Proc.wp False m Q v)
    (hclosed : v.fileOf forkId = none → Proc.wp False m Q v) : Proc.wp False m Q v := by
  rcases hfile : v.fileOf forkId with _ | file
  · exact hclosed hfile
  · obtain ⟨key, href, hopen'⟩ := fileOf_eq_some.1 hfile
    exact hopen key file href hopen'

omit [MacRoman] in
/-- An operation that keeps the open files keeps the positions right: an open file is `Handled`,
    and where none is open nothing is done. -/
theorem serves_cached (forkId : UInt16) {α : Type} {m : Afp α} (hv : Cached v)
    (hkeeps : Proc.wp False m (fun _ v' => KeepsFiles v v') v)
    (hopen : ∀ key file, v.forkRefToNodeId[forkId]? = some key → v.openFile? key = some file →
      Proc.wp False m (fun _ v' => Handled forkId key file v v') v)
    (hclosed : v.fileOf forkId = none → Proc.wp False m (fun _ v' => v' = v) v) :
    Proc.wp True m (fun _ v' => Cached v') v := by
  have hplaced : Proc.wp False m (fun _ v' => Placed v') v := by
    refine wp_fileOf v forkId (fun key file href hfile => ?_) fun hnone => ?_
    · exact Proc.wp_mono (hopen key file href hfile) fun _ _ h => h.placed hv href
    · exact Proc.wp_mono (hclosed hnone) fun _ _ h => h ▸ hv.placed
  exact Proc.wp_mono (Proc.wp_weaken (Proc.wp_and hkeeps hplaced)) fun _ _ h => hv.keeps h.1 h.2

theorem perform_cached (hv : Cached v) :
    Proc.wp True (i.2.perform i.1) (fun _ v' => Cached v') v := by
  obtain ⟨sys, op⟩ := i
  cases op with
  | openFork => exact Proc.wp_map_state (openFork_cached hv)
  | closeFork forkId =>
    exact Proc.wp_map_state (Proc.wp_weaken (closeFork_cached forkId hv))
  | read req outLen =>
    refine Proc.wp_map_state (serves_cached req.forkId hv (readFork_keeps req outLen v)
      (fun key file href hopen => ?_) fun hnone => ?_)
    · exact Proc.wp_mono (readFork_spec req outLen hv href hopen) fun _ _ h => h.1
    · exact Proc.wp_mono (readFork_unopened hnone) fun _ _ h => h.1
  | writeFork forkId offset data =>
    refine Proc.wp_map_state (serves_cached forkId hv
      (Proc.wp_mono (writeFork_keeps forkId offset data v) fun _ _ h => h.1)
      (fun key file href hopen => ?_) fun hnone => ?_)
    · exact Proc.wp_mono (writeFork_spec offset data hv href hopen) fun _ _ h => h.1
    · exact Proc.wp_mono (writeFork_unopened hnone) fun _ _ h => h.1
  | setForkParms cmd =>
    refine Proc.wp_map_state (serves_cached cmd.forkRefNum hv
      (Proc.wp_mono (setForkParms_keeps cmd v) fun _ _ h => h.1)
      (fun key file href hopen => ?_) setForkParms_unopened)
    exact Proc.wp_mono (setForkParms_spec cmd hv href hopen) fun _ _ h => h.1
  | delete => exact Proc.wp_map_state (delete_cached hv)
  | createFile createFlag directoryId relativePath =>
    exact Proc.wp_map_state (Proc.wp_mono
      ((createFile_quiet sys createFlag directoryId relativePath).cached hv) fun _ _ h => h.1)
  | moveAndRename srcDirId dstDirId srcPath dstPath newName =>
    exact Proc.wp_map_state (Proc.wp_mono
      ((moveAndRename_quiet sys srcDirId dstDirId srcPath dstPath newName).cached hv)
      fun _ _ h => h.1)
  | copyFile srcDirId srcPath dstDirId dstPath newName =>
    exact Proc.wp_map_state (Proc.wp_mono
      ((copyFile_quiet sys srcDirId srcPath dstDirId dstPath newName).cached hv) fun _ _ h => h.1)

omit [MacRoman] in
/-- **One operation.** -/
theorem positional (hv : Cached v) (hthrough : GetsThrough v i) : Positional v i := by
  obtain ⟨sys, op⟩ := i
  cases op with
  | read req outLen =>
    have hread : Proc.wp False (readFork sys req outLen) (ReadAt v req outLen) v := by
      refine wp_fileOf v req.forkId (fun key file href hopen => ?_) fun hnone => ?_
      · refine Proc.wp_mono (readFork_spec req outLen hv href hopen) fun r v' h => ?_
        exact ⟨h.1.sameFiles hopen, h.2.1, fun data eof hr =>
          have hfile := fileOf_eq_some.2 ⟨key, href, hopen⟩
          ⟨file, hfile, h.2.2 data eof hr (hthrough file hfile)⟩⟩
      · refine Proc.wp_mono (readFork_unopened hnone) ?_
        rintro r v' ⟨rfl, hr⟩
        exact ⟨.refl _, rfl, fun data eof hok => absurd hok (hr _)⟩
    exact fun r v' hrun => Proc.wp_ok hrun hread
  | writeFork forkId offset data =>
    have hwrite : Proc.wp False (Volume.writeFork sys forkId offset data)
        (WrittenAt v forkId offset data) v := by
      refine wp_fileOf v forkId (fun key file href hopen => ?_) fun hnone => ?_
      · refine Proc.wp_mono (writeFork_spec offset data hv href hopen) fun r v' h => ?_
        exact ⟨h.1.sameFiles hopen, fun n hn =>
          have hfile := fileOf_eq_some.2 ⟨key, href, hopen⟩
          ⟨file, hfile, h.2.2 n hn (hthrough file hfile)⟩⟩
      · refine Proc.wp_mono (writeFork_unopened hnone) ?_
        rintro r v' ⟨rfl, hr⟩
        exact ⟨.refl _, fun n hok => absurd hok (hr _)⟩
    exact fun r v' hrun => Proc.wp_ok hrun hwrite
  | setForkParms cmd =>
    have hresize : Proc.wp False (Volume.setForkParms sys cmd) (ResizedTo v cmd) v := by
      refine wp_fileOf v cmd.forkRefNum (fun key file href hopen => ?_) fun hnone => ?_
      · refine Proc.wp_mono (setForkParms_spec cmd hv href hopen) fun r v' h => ?_
        refine ⟨h.1.sameFiles hopen, fun hr key' file' len href' hopen' hlen => ?_⟩
        obtain rfl := Option.some.inj (href.symm.trans href')
        obtain rfl := Option.some.inj (hopen.symm.trans hopen')
        exact h.2 hr len hlen
      · refine Proc.wp_mono (setForkParms_unopened hnone) ?_
        rintro r v' rfl
        refine ⟨.refl _, fun _ key file len href hopen _ => ?_⟩
        rw [fileOf_eq_some.2 ⟨key, href, hopen⟩] at hnone
        cases hnone
    exact fun r v' hrun => Proc.wp_ok hrun hresize
  | _ => trivial

omit [MacRoman] in
theorem cached_new (name : Name) (createdAt : UInt32) (volumeId : UInt16) (db : DesktopDatabase)
    (disk : Disk) : Cached (Volume.new sys name createdAt volumeId db disk) := by
  have hrefs : ∀ r : UInt16,
      (Volume.new sys name createdAt volumeId db disk).forkRefToNodeId[r]? = none := by
    intro r
    simp [Volume.new]
  refine ⟨(table_new name createdAt volumeId db disk).fresh, fun r key hr => ?_,
    fun r key hr => ?_, fun r r' key hr => ?_, fun r pos key file _ hr => ?_⟩
  · rw [hrefs] at hr
    cases hr
  · rw [hrefs] at hr
    cases hr
  · rw [hrefs] at hr
    cases hr
  · rw [hrefs] at hr
    cases hr

theorem perform_step (hv : Cached v) {v' : Volume} (h : step v i = some v') : Cached v' := by
  obtain ⟨r, -, hv'⟩ := Proc.wp_after h (perform_cached hv)
  exact hv'

theorem cached_run (sys : Sys) (name : Name) (createdAt : UInt32) (volumeId : UInt16)
    (db : DesktopDatabase) (disk : Disk) (ops : List (Sys × ForkOp)) :
    ∀ v, run (partialStep step) (some (Volume.new sys name createdAt volumeId db disk)) ops =
      some v → Cached v := by
  refine (@along_reached _ _ step Cached (fun _ _ => True) (fun _ _ => True)
    (fun _ _ _ _ => trivial) (fun _ _ _ hv _ h => perform_step hv h) _ (fun v hv => ?_) _
    ((along_true _ ops).mono _ fun _ _ _ _ _ => trivial)).2
  obtain rfl := Option.some.inj hv
  exact cached_new name createdAt volumeId db disk

/-- **Cached positions change nothing while writes get through**, whatever else the system refuses
    and however little it moves at a time: a read that succeeds returns the bytes of its range up to
    a newline and says whether the fork ended, and a write that succeeds changes its range of the
    fork's bytes and nothing else. -/
theorem positional_run (sys : Sys) (name : Name) (createdAt : UInt32) (volumeId : UInt16)
    (db : DesktopDatabase) (disk : Disk) (ops : List (Sys × ForkOp))
    (hthrough : Along (partialStep step) (Reached GetsThrough)
      (some (Volume.new sys name createdAt volumeId db disk)) ops) :
    Along (partialStep step) (Reached Positional)
      (some (Volume.new sys name createdAt volumeId db disk)) ops := by
  refine (@along_reached _ _ step Cached GetsThrough Positional (fun _ _ hv => positional hv)
    (fun _ _ _ hv _ h => perform_step hv h) _ (fun v hv => ?_) _ hthrough).1
  obtain rfl := Option.some.inj hv
  exact cached_new name createdAt volumeId db disk

end ForkOp

end

/-! ## A write that fails behind the file -/

section

local instance positionsRoman : MacRoman := macintosh

/-- A file of six bytes, open for reading and writing. -/
def sixBytesRun : List (Sys × ForkOp) :=
  [(.calm, .openFork .data 0 3 ROOT_ID ["a".toList] (zeros 256)),
    (.calm, .writeFork 1 0 [1, 2, 3, 4, 5, 6])]

/-- Bytes are written over one at a time, some read by a system that refuses a read or a new place,
    and a length is refused. -/
def haltingRun : List (Sys × ForkOp) :=
  sixBytesRun ++
    [({ Sys.calm with moves := fun _ => 1 }, .writeFork 1 2 [7, 8]),
      (.refusing (.read 0 4), .read ⟨1, 4, 2, 0, 0⟩ 2),
      (.refusing (.setLen 0), .setForkParms ⟨1, some 3, none⟩),
      (.refusing (.seek 0 1), .read ⟨1, 1, 2, 0, 0⟩ 2),
      (.calm, .read ⟨1, 1, 9, 0xff, 8⟩ 9), (.calm, .read ⟨1, 4, 9, 0, 0⟩ 9)]

theorem positional_run_halting :
    Along (partialStep ForkOp.step) (Reached ForkOp.Positional)
      (some (.ofEntries [("a".toList, .file 2)])) haltingRun :=
  ForkOp.positional_run .calm "Shared".toList 0 1 (.empty 1)
    (Disk.ofEntries [("a".toList, .file 2)]) haltingRun (by decide +kernel)

/-- The system refuses the bytes of a write that was acknowledged. -/
def lostWrite : Sys × ForkOp := (.refusing (.write 0 0), .writeFork 1 0 [7, 8])

/-- What comes after the two bytes. -/
def readOn : FPRead := ⟨1, 2, 2, 0, 0⟩

theorem returned {α : Type} {m : Afp α} {v : Volume} {r : Except AfpError α × Volume}
    {a : α} (h : (m v).toOption = some r) (hok : r.1.toOption = some a) :
    m v = .ok (.ok a, r.2) := by
  obtain ⟨r, v'⟩ := r
  cases hm : m v with
  | error e =>
    rw [hm] at h
    cases h
  | ok r' =>
    rw [hm] at h
    obtain rfl := Option.some.inj h
    cases r with
    | error e => cases hok
    | ok a' =>
      obtain rfl := Option.some.inj hok
      rfl

/-- The write is acknowledged and leaves the bytes as they were; the read goes on where the file is
    said to stand. -/
theorem lost_write_reads_elsewhere : ∃ v v' v'' file,
    run (partialStep ForkOp.step) (some (.ofEntries [("a".toList, .file 2)])) sixBytesRun = some v ∧
      writeFork lostWrite.1 1 0 [7, 8] v = .ok (.ok 2, v') ∧ v'.fileOf 1 = some file ∧
        bytesOf v'.disk file = [1, 2, 3, 4, 5, 6] ∧
          readFork .calm readOn 2 v' = .ok (.ok ([1, 2], false), v'') ∧
            ¬ ForkOp.Positional v' (.calm, .read readOn 2) ∧
              ¬ Along (partialStep ForkOp.step) (Reached ForkOp.Positional)
                (some (.ofEntries [("a".toList, .file 2)]))
                (sixBytesRun ++ [lostWrite, (.calm, .read readOn 2)]) := by
  have hend : ((run (partialStep ForkOp.step) (some (.ofEntries [("a".toList, .file 2)]))
      sixBytesRun).bind fun v => (writeFork lostWrite.1 1 0 [7, 8] v).toOption.bind fun w =>
        (w.2.fileOf 1).bind fun file => (readFork .calm readOn 2 w.2).toOption.map fun r =>
          (w.1.toOption, bytesOf w.2.disk file, r.1.toOption)) =
      some (some 2, [(1 : UInt8), 2, 3, 4, 5, 6], some ([(1 : UInt8), 2], false)) := by
    decide +kernel
  obtain ⟨v, hv, hend⟩ := Option.bind_eq_some_iff.1 hend
  obtain ⟨w, hwrite, hend⟩ := Option.bind_eq_some_iff.1 hend
  obtain ⟨file, hfile, hend⟩ := Option.bind_eq_some_iff.1 hend
  obtain ⟨r, hread, heq⟩ := Option.map_eq_some_iff.1 hend
  simp only [Prod.mk.injEq] at heq
  obtain ⟨hn, hbytes, hdata⟩ := heq
  have hwrite := returned hwrite hn
  have hread := returned hread hdata
  have hnot : ¬ ForkOp.Positional w.2 (.calm, .read readOn 2) := by
    intro hpositional
    obtain ⟨-, -, hrange⟩ := hpositional _ _ hread
    obtain ⟨file', hfile', hgot, -⟩ := hrange _ _ rfl
    obtain rfl := Option.some.inj (hfile.symm.trans hfile')
    rw [hbytes] at hgot
    exact absurd hgot (by decide)
  refine ⟨v, w.2, r.2, file, hv, hwrite, hfile, hbytes, hread, hnot, fun halong => ?_⟩
  rw [Along.append] at halong
  obtain ⟨-, -, hlast, -⟩ := halong
  refine hnot (hlast w.2 ?_)
  have hstep : ForkOp.step v lostWrite = some w.2 := by
    change ((fun _ => ([] : Bytes)) <$> writeFork lostWrite.1 1 0 [7, 8]).after v = _
    rw [Proc.after_map, Proc.after, hwrite]
  rw [hv, partialStep_some, hstep]

end

end Volume

end TailTalk
