/-
  Open files — which file is open for which fork, and what the operations on
  open forks do about it.

  Reading, writing and setting a length move a handle within its file and
  leave everything else about open forks alone (`KeepsFiles`); a close takes
  one handle away (`Closed`).
-/
import TailTalk.Afp.Enumerate

namespace TailTalk

open Lib

namespace Volume

/-- The file that is open for a fork. -/
def openFile? (v : Volume) (key : NodeId × ForkType) : Option Handle :=
  (v.nodes[key.1]?).bind (·.fork key.2)

/-- The file that is open under a fork reference. -/
def fileOf (v : Volume) (forkId : UInt16) : Option Handle :=
  (v.forkRefToNodeId[forkId]?).bind v.openFile?

/-- The length asked for the fork that the reference names. -/
def ownLength (cmd : FPSetForkParms) : ForkType → Option ℕ
  | .data => cmd.dataForkLength
  | .resource => cmd.resourceForkLength

variable {sys : Sys} {v : Volume}

@[simp] theorem openFile?_mapNode_setFork (key other : NodeId × ForkType) (file : Option Handle) :
    (mapNode key.1 (·.setFork key.2 file) v).openFile? other =
      if other = key then (v.nodes[key.1]?).bind fun _ => file else v.openFile? other := by
  obtain ⟨id, forkType⟩ := key
  obtain ⟨otherId, otherType⟩ := other
  simp only [openFile?, getElem?_mapNode, Prod.mk.injEq]
  by_cases hid : otherId = id
  · subst hid
    rw [if_pos rfl]
    by_cases htype : otherType = forkType
    · subst htype
      rw [if_pos ⟨rfl, rfl⟩]
      cases v.nodes[otherId]? with
      | none => rfl
      | some node => simp
    · rw [if_neg (fun h => htype h.2)]
      cases v.nodes[otherId]? with
      | none => rfl
      | some node => simp [Node.fork_setFork_of_ne _ _ htype]
  · rw [if_neg hid, if_neg (fun h => hid h.1)]

/-- What a change of a fork leaves alone: which file is open where, and what was dirty. -/
structure KeepsFiles (v v' : Volume) : Prop where
  fds : ∀ key, (v'.openFile? key).map (·.fd) = (v.openFile? key).map (·.fd)
  known : ∀ id : NodeId, (v'.nodes[id]?).isSome = (v.nodes[id]?).isSome
  ids : v'.nextId = v.nextId
  refs : v'.forkRefToNodeId = v.forkRefToNodeId
  next : v'.nextForkRefNum = v.nextForkRefNum
  syncs : v'.disk.syncs = v.disk.syncs
  dirty : ∀ key ∈ v.dirtyForks, key ∈ v'.dirtyForks

/-- A change of anything else. -/
theorem KeepsFiles.of_eq {v v' : Volume} (hnodes : v'.nodes = v.nodes) (hids : v'.nextId = v.nextId)
    (hrefs : v'.forkRefToNodeId = v.forkRefToNodeId)
    (hnext : v'.nextForkRefNum = v.nextForkRefNum) (hsyncs : v'.disk.syncs = v.disk.syncs)
    (hdirty : ∀ key ∈ v.dirtyForks, key ∈ v'.dirtyForks) : KeepsFiles v v' where
  fds := fun key => by rw [openFile?, openFile?, hnodes]
  known := fun id => by rw [hnodes]
  ids := hids
  refs := hrefs
  next := hnext
  syncs := hsyncs
  dirty := hdirty

theorem KeepsFiles.refl (v : Volume) : KeepsFiles v v := .of_eq rfl rfl rfl rfl rfl fun _ h => h

theorem KeepsFiles.trans {v v' v'' : Volume} (h : KeepsFiles v v') (h' : KeepsFiles v' v'') :
    KeepsFiles v v'' where
  fds := fun key => (h'.fds key).trans (h.fds key)
  known := fun id => (h'.known id).trans (h.known id)
  ids := h'.ids.trans h.ids
  refs := h'.refs.trans h.refs
  next := h'.next.trans h.next
  syncs := h'.syncs.trans h.syncs
  dirty := fun key hkey => h'.dirty key (h.dirty key hkey)

theorem KeepsFiles.openFile {v v' : Volume} (h : KeepsFiles v v') {key : NodeId × ForkType}
    {file : Handle} (hfile : v.openFile? key = some file) :
    ∃ file', v'.openFile? key = some file' ∧ file'.fd = file.fd := by
  have hfd := h.fds key
  rw [hfile] at hfd
  exact Option.map_eq_some_iff.1 hfd

theorem keepsFiles_setHandle {key : NodeId × ForkType} {file file' : Handle}
    (hopen : (v.openFile? key).map (·.fd) = some file.fd) (hfd : file'.fd = file.fd) :
    KeepsFiles v (mapNode key.1 (·.setFork key.2 (some file')) v) where
  fds := by
    intro other
    rw [openFile?_mapNode_setFork]
    split
    · rename_i heq
      subst heq
      rw [hopen]
      rcases hnode : v.nodes[other.1]? with _ | node
      · simp [openFile?, hnode] at hopen
      · simp [hfd]
    · rfl
  known := by
    intro id
    rw [getElem?_mapNode]
    split
    · rename_i heq
      rw [heq, Option.isSome_map]
    · rfl
  ids := rfl
  refs := rfl
  next := rfl
  syncs := rfl
  dirty := fun _ h => h

theorem writeAll_fd (fuel : ℕ) (file : Handle) (data : Bytes) (d : Disk) :
    (Disk.writeAll sys fuel file data d).2.1.fd = file.fd ∧
      (Disk.writeAll sys fuel file data d).2.2.syncs = d.syncs :=
  (Disk.writeAll_keeps sys (R := fun h d' => h.fd = file.fd ∧ d'.syncs = d.syncs)
    (fun _ _ _ _ _ h => h) (fun _ _ _ h => h) fuel file data d rfl ⟨rfl, rfl⟩).2

theorem seekFork_keeps {forkId : UInt16} {key : NodeId × ForkType} {file : Handle} {pos : ℕ}
    {e : AfpError} (hopen : v.openFile? key = some file) :
    Proc.wp False (seekFork sys forkId key.1 key.2 file pos e) (fun r v' => KeepsFiles v v' ∧
      ∀ file', r = .ok file' → file'.fd = file.fd) v := by
  simp only [seekFork, Proc.wp_bind, Proc.wp_read, Proc.next_ok, Proc.wp_ite]
  refine ⟨fun _ => ⟨.refl v, ?_⟩, fun _ => ?_⟩
  · intro file' h
    obtain rfl := Except.ok.inj h
    rfl
  · unfold Disk.seek
    split_ifs
    · exact ⟨.of_eq rfl rfl rfl rfl rfl fun _ h => h,
        by intro file' h; cases h⟩
    · refine ⟨(keepsFiles_setHandle (by rw [hopen]; rfl)
        rfl).trans (.of_eq rfl rfl rfl rfl rfl fun _ h => h), ?_⟩
      intro file' h
      obtain rfl := Except.ok.inj h
      rfl

theorem keepsFiles_withDirty (key : NodeId × ForkType) (v : Volume) :
    KeepsFiles v (withDirty key v) :=
  .of_eq rfl rfl rfl rfl rfl fun _ h => mem_withDirty.2 (Or.inr h)

theorem writeFork_keeps (forkId : UInt16) (offset : ℕ) (data : Bytes) (v : Volume) :
    Proc.wp False (writeFork sys forkId offset data) (fun r v' => KeepsFiles v v' ∧
      (∀ n, r = .ok n → ∃ key ∈ v'.dirtyForks, ∃ file,
        v.forkRefToNodeId[forkId]? = some key ∧ v.openFile? key = some file)) v := by
  have hkeep : KeepsFiles v v ∧ ∀ n, (.error .accessDenied : Except AfpError ℕ) = .ok n →
      ∃ key ∈ v.dirtyForks, ∃ file, v.forkRefToNodeId[forkId]? = some key ∧
        v.openFile? key = some file := ⟨.refl v, by intro n h; cases h⟩
  simp only [writeFork, Proc.wp_bind, Proc.wp_read, Proc.next_ok, Proc.wp_ite, Proc.wp_throw,
    forkOf, Proc.wp_orElse, getNode, Proc.next_error]
  refine ⟨fun _ => hkeep, fun _ => ⟨?_, fun _ => hkeep⟩⟩
  rintro ⟨nodeId, forkType⟩ href
  refine ⟨?_, ?_⟩
  · intro node hnode
    refine ⟨?_, fun _ => hkeep⟩
    intro file hfile
    have hopen : v.openFile? (nodeId, forkType) = some file := by
      simp [Volume.openFile?, hnode, hfile]
    refine Proc.wp_mono (seekFork_keeps (e := .miscErr) hopen) ?_
    rintro (e | file₁) v₁ ⟨hkeep₁, hfd₁⟩
    · exact ⟨hkeep₁, by intro n h; cases h⟩
    obtain ⟨file', hfile', hfd'⟩ := hkeep₁.openFile hopen
    have hwrite : (Disk.writeAll sys data.length file₁ data v₁.disk).2.1.fd = file₁.fd ∧
        (Disk.writeAll sys data.length file₁ data v₁.disk).2.2.syncs = v₁.disk.syncs :=
      writeAll_fd data.length file₁ data v₁.disk
    simp only [Proc.next_ok, Proc.wp_bind, Proc.wp_read]
    generalize Disk.writeAll sys data.length file₁ data v₁.disk = outcome at hwrite ⊢
    obtain ⟨written, file₂, disk⟩ := outcome
    simp only [Proc.wp_bind, Proc.wp_modify, Proc.next_ok, setHandle, updateNode]
    have hkeep₂ : KeepsFiles v (mapNode nodeId (·.setFork forkType (some file₂))
        { v₁ with disk := disk }) := by
      have hdisk : KeepsFiles v₁ { v₁ with disk := disk } :=
        .of_eq rfl rfl rfl rfl hwrite.2 fun _ h => h
      refine (hkeep₁.trans hdisk).trans
        (@keepsFiles_setHandle _ (nodeId, forkType) file file₂ ?_ ?_)
      · show (v₁.openFile? _).map _ = _
        rw [hfile']
        exact congrArg some hfd'
      · exact hwrite.1.trans (hfd₁ file₁ rfl)
    have hkeep₃ := hkeep₂.trans (keepsFiles_withDirty (nodeId, forkType) _)
    simp only [markDirty, Proc.wp_modify, Proc.next_ok, Proc.wp_ite, Proc.wp_bind, setPos,
      Proc.wp_pure, forgetPos, Proc.wp_throw]
    refine ⟨fun _ => ⟨hkeep₃.trans (.of_eq rfl rfl rfl rfl rfl fun _ h => h), fun n _ => ?_⟩,
      fun _ => ⟨hkeep₃.trans (.of_eq rfl rfl rfl rfl rfl fun _ h => h), by intro n h; cases h⟩⟩
    exact ⟨(nodeId, forkType), mem_withDirty.2 (Or.inl rfl), file, href, hopen⟩
  · intro _
    refine ⟨.refl v, by intro n h; cases h⟩

theorem readSome_fd {d : Disk} {file file' : Handle} {want : ℕ} {chunk : Bytes}
    (h : Disk.readSome sys d file want = some (chunk, file')) : file'.fd = file.fd := by
  unfold Disk.readSome at h
  dsimp only at h
  split at h
  · cases h
  · obtain ⟨-, rfl⟩ := Prod.mk.inj (Option.some.inj h)
    rfl

theorem readLoop_fd {stops : UInt8 → Bool} {d : Disk} (fuel : ℕ) (file : Handle) (want : ℕ)
    (got : Bytes) : (readLoop sys stops d fuel file want got).2.fd = file.fd := by
  induction fuel generalizing file want got with
  | zero => rfl
  | succ fuel ih =>
    rw [readLoop]
    split
    · rfl
    · split
      · rfl
      · rename_i h
        exact readSome_fd h
      · rename_i h
        split
        · exact readSome_fd h
        · exact (ih _ _ _).trans (readSome_fd h)

theorem readFork_keeps (req : FPRead) (outLen : ℕ) (v : Volume) :
    Proc.wp False (readFork sys req outLen) (fun _ v' => KeepsFiles v v') v := by
  simp only [readFork, Proc.wp_bind, forkOf, Proc.wp_read, Proc.next_ok, Proc.wp_orElse,
    getNode, Proc.next_error]
  refine ⟨?_, fun _ => .refl v⟩
  rintro ⟨nodeId, forkType⟩ _
  refine ⟨?_, fun _ => .refl v⟩
  intro node hnode
  refine ⟨?_, fun _ => .refl v⟩
  intro file hfile
  have hopen : v.openFile? (nodeId, forkType) = some file := by
    simp [Volume.openFile?, hnode, hfile]
  refine Proc.wp_mono (seekFork_keeps hopen) ?_
  rintro (e | file₁) v₁ ⟨hkeep, hfd₁⟩
  · exact hkeep
  obtain ⟨file', hfile', hfd'⟩ := hkeep.openFile hopen
  have hset : ∀ file₂ : Handle, file₂.fd = file₁.fd →
      KeepsFiles v (mapNode nodeId (·.setFork forkType (some file₂)) v₁) := by
    intro file₂ hfd₂
    have hfds : (v₁.openFile? (nodeId, forkType)).map (·.fd) = some file.fd := by
      rw [hfile']
      exact congrArg some hfd'
    exact hkeep.trans (keepsFiles_setHandle hfds (hfd₂.trans (hfd₁ file₁ rfl)))
  have hloop : (readLoop sys (fun byte => decide (req.newlineMask ≠ 0) &&
      req.byteMatchesNewline byte) v₁.disk (min req.reqCount outLen) file₁
      (min req.reqCount outLen) []).2.fd = file₁.fd := readLoop_fd _ _ _ _
  simp only [Proc.next_ok, Proc.wp_bind, Proc.wp_read]
  generalize readLoop sys _ v₁.disk (min req.reqCount outLen) file₁ (min req.reqCount outLen) [] =
    outcome at hloop ⊢
  obtain ⟨_ | ⟨data, eof⟩, file₂⟩ := outcome
  · exact (hset file₂ hloop).trans (.of_eq rfl rfl rfl rfl rfl fun _ h => h)
  · dsimp only
    split
    · exact (hset file₂ hloop).trans (.of_eq rfl rfl rfl rfl rfl fun _ h => h)
    · rename_i file₃ hseek
      have hfd₃ : file₃.fd = file₂.fd := by
        split at hseek
        · unfold Disk.seek at hseek
          split at hseek
          · cases hseek
          · obtain rfl := Option.some.inj hseek
            rfl
        · obtain rfl := Option.some.inj hseek
          rfl
      exact (hset file₃ (hfd₃.trans hloop)).trans (.of_eq rfl rfl rfl rfl rfl fun _ h => h)

/-- What a new length for a fork leaves, if it is asked for. -/
theorem resize_keeps {cmd : FPSetForkParms} {key : NodeId × ForkType} {node : Node}
    (href : v.forkRefToNodeId[cmd.forkRefNum]? = some key) :
    Proc.wp False (match ownLength cmd key.2 with
      | none => pure ()
      | some len => do
        let file ← Proc.orElse (node.fork key.2) .objectNotFound
        host .accessDenied (Disk.setLen sys file len)
        forgetPos cmd.forkRefNum
        markDirty key)
      (fun r v' => KeepsFiles v v' ∧ (r = .ok () → ∀ key,
        v.forkRefToNodeId[cmd.forkRefNum]? = some key → (ownLength cmd key.2).isSome →
          key ∈ v'.dirtyForks)) v := by
  rcases hown : ownLength cmd key.2 with _ | len
  · refine ⟨.refl v, ?_⟩
    intro _ key' hkey hsome
    obtain rfl := Option.some.inj (href.symm.trans hkey)
    rw [hown] at hsome
    cases hsome
  · simp only [Proc.wp_bind, Proc.wp_orElse, Proc.next_ok, Proc.next_error, wp_host, Disk.setLen]
    refine ⟨fun file hfile => ?_, fun _ => ⟨.refl v, by intro h; cases h⟩⟩
    split_ifs
    · exact ⟨.of_eq rfl rfl rfl rfl rfl fun _ h => h,
        by intro h; cases h⟩
    · simp only [Proc.next_ok, Proc.wp_bind, forgetPos, markDirty, Proc.wp_modify]
      refine ⟨.of_eq rfl rfl rfl rfl rfl fun _ h => mem_withDirty.2 (Or.inr h), ?_⟩
      intro _ key' hkey _
      obtain rfl := Option.some.inj (href.symm.trans hkey)
      exact mem_withDirty.2 (Or.inl rfl)

/-- A new length that is acknowledged leaves its fork dirty. -/
theorem setForkParms_keeps (cmd : FPSetForkParms) (v : Volume) :
    Proc.wp False (setForkParms sys cmd) (fun r v' => KeepsFiles v v' ∧ (r = .ok () → ∀ key,
      v.forkRefToNodeId[cmd.forkRefNum]? = some key → (ownLength cmd key.2).isSome →
        key ∈ v'.dirtyForks)) v := by
  simp only [setForkParms, Proc.wp_bind, forkOf, Proc.wp_read, Proc.next_ok, Proc.wp_orElse,
    getNode, Proc.next_error]
  refine ⟨?_, fun _ => ⟨.refl v, by intro h; cases h⟩⟩
  rintro ⟨nodeId, forkType⟩ href
  refine ⟨?_, fun _ => ⟨.refl v, by intro h; cases h⟩⟩
  intro node hnode
  cases forkType with
  | data =>
    simp only [Proc.wp_ite, Proc.wp_throw]
    exact ⟨fun _ => ⟨.refl v, by intro h; cases h⟩, fun _ => resize_keeps href⟩
  | resource =>
    simp only [Proc.wp_ite, Proc.wp_throw]
    exact ⟨fun _ => ⟨.refl v, by intro h; cases h⟩, fun _ => resize_keeps href⟩

/-- The reference is gone, and what was open for its fork. -/
structure Closed (forkId : UInt16) (key : NodeId × ForkType) (v v' : Volume) : Prop where
  openFile : ∀ other, v'.openFile? other = if other = key then none else v.openFile? other
  known : ∀ id : NodeId, (v'.nodes[id]?).isSome = (v.nodes[id]?).isSome
  ids : v'.nextId = v.nextId
  refs : v'.forkRefToNodeId = v.forkRefToNodeId.erase forkId
  next : v'.nextForkRefNum = v.nextForkRefNum

theorem closeFork_closed (forkId : UInt16) (v : Volume) :
    Proc.wp False (closeFork sys forkId) (fun _ v' => v' = v ∨ ∃ key,
      v.forkRefToNodeId[forkId]? = some key ∧ Closed forkId key v v') v := by
  simp only [closeFork, Proc.wp_bind, forkOf, Proc.wp_read, Proc.next_ok, Proc.wp_orElse,
    getNode, Proc.next_error]
  refine ⟨?_, fun _ => Or.inl trivial⟩
  rintro ⟨nodeId, forkType⟩ href
  refine ⟨fun node hnode => ?_, fun _ => Or.inl trivial⟩
  have hopen : v.openFile? (nodeId, forkType) = node.fork forkType := by
    simp only [Volume.openFile?, hnode, Option.bind_some]
  unfold closeHandle
  rcases hfile : node.fork forkType with _ | file
  · refine Or.inr ⟨_, href, fun other => ?_, fun _ => rfl, rfl, rfl, rfl⟩
    split
    · rename_i heq
      rw [heq]
      exact hopen.trans hfile
    · rfl
  · refine Or.inr ⟨_, href, fun other => ?_, fun id => ?_, rfl, rfl, rfl⟩
    · refine (openFile?_mapNode_setFork (nodeId, forkType) other none).trans ?_
      split
      · exact Option.bind_eq_none_iff.2 fun _ _ => rfl
      · rfl
    · refine (congrArg Option.isSome (getElem?_mapNode nodeId _ _ id)).trans ?_
      split
      · rename_i heq
        rw [heq]
        exact Option.isSome_map
      · rfl

end Volume

end TailTalk
