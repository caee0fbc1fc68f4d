/-
  Quiet operations — what lookups, creations, moves and copies do to a volume,
  change by change.

  None of them changes what is open.  A relation that `Absorbs` the changes
  they are made of holds across each of these, and so across every procedure
  that is `Quiet`.
-/
import TailTalk.Afp.Blocks
import TailTalk.Afp.DiskFacts

namespace TailTalk

open Lib

namespace Volume

/-- A relation that composes, and that holds of every change but those to open forks. -/
structure Absorbs (R : Volume → Volume → Prop) : Prop where
  refl : ∀ v, R v v
  trans : ∀ {v v' v''}, R v v' → R v' v'' → R v v''
  disk : ∀ v (d : Disk), R v { v with disk := d }
  database : ∀ v db, R v { v with desktopDatabase := db }
  cache : ∀ v cache, R v { v with enumCache := cache }
  paths : ∀ v paths, R v { v with pathToId := paths }
  skip : ∀ v, R v { v with nextId := v.nextId + 1 }
  register : ∀ v (node : Node) paths, (∀ forkType, node.fork forkType = none) →
    R v { v with
      nextId := v.nextId + 1, nodes := v.nodes.insert v.nextId node, pathToId := paths }
  node : ∀ v id (f : Node → Node), (∀ node forkType, (f node).fork forkType = node.fork forkType) →
    R v (mapNode id f v)

/-- A procedure that does nothing to open forks. -/
def Quiet {α : Type} (m : Afp α) : Prop :=
  ∀ R, Absorbs R → ∀ v, Proc.wp True m (fun _ v' => R v v') v

namespace Quiet

variable {α β : Type} {m : Afp α} {f : α → Afp β}

theorem bind (hm : Quiet m) (hf : ∀ a, Quiet (f a)) : Quiet (m >>= f) := by
  intro R hR v
  rw [Proc.wp_bind]
  refine Proc.wp_mono (hm R hR v) ?_
  rintro (e | a) v' h
  · exact h
  · exact Proc.wp_mono (hf a R hR v') fun _ _ h' => hR.trans h h'

theorem pure (a : α) : Quiet (Pure.pure a : Afp α) := fun _ hR v => hR.refl v

theorem throw (e : AfpError) : Quiet (Proc.throw e : Afp α) := fun _ hR v => hR.refl v

theorem read : Quiet Proc.read := fun _ hR v => hR.refl v

theorem orElse (o : Option α) (e : AfpError) : Quiet (Proc.orElse o e) := by
  intro R hR v
  rw [Proc.wp_orElse]
  exact ⟨fun _ _ => hR.refl v, fun _ => hR.refl v⟩

theorem ofExcept (x : Except AfpError α) : Quiet (Proc.ofExcept x : Afp α) :=
  fun _ hR v => hR.refl v

theorem lift (x : Checked α) : Quiet (Proc.lift x : Afp α) := by
  intro R hR v
  rw [Proc.wp_lift]
  exact ⟨fun _ _ => hR.refl v, fun _ => trivial⟩

theorem host (e : AfpError) (call : Host α) : Quiet (TailTalk.host e call) :=
  fun _ hR v => hR.disk v _

theorem tryHost (call : Host α) : Quiet (TailTalk.tryHost call) := fun _ hR v => hR.disk v _

theorem database (call : Db α) : Quiet (TailTalk.database call) := fun _ hR v => hR.database v _

theorem tryDatabase (call : Db α) : Quiet (TailTalk.tryDatabase call) :=
  fun _ hR v => hR.database v _

theorem attempt (hm : Quiet m) : Quiet (Proc.attempt m) := by
  intro R hR v
  rw [Proc.wp_attempt]
  exact hm R hR v

theorem ite {c : Prop} [Decidable c] {m' : Afp α} (hm : Quiet m) (hm' : Quiet m') :
    Quiet (if c then m else m') := by
  split
  · exact hm
  · exact hm'

theorem each {g : α → Afp Unit} (hg : ∀ a, Quiet (g a)) (as : List α) : Quiet (Proc.each g as) := by
  intro R hR v
  refine Proc.wp_each (I := R v) ?_ (hR.refl v)
  intro a _ v' h
  exact Proc.wp_mono (hg a R hR v') fun _ _ h' => hR.trans h h'

end Quiet

section

variable (sys : Sys)

/-! ## Lookups -/

theorem getNode_quiet (id : NodeId) : Quiet (getNode id) := .bind .read fun _ => .orElse _ _

theorem unwrapNode_quiet (id : NodeId) {f : Node → Node}
    (hf : ∀ node forkType, (f node).fork forkType = node.fork forkType) :
    Quiet (unwrapNode id f) :=
  .bind .read fun _ => .ite (fun _ hR v => hR.node v id f hf) (.lift _)

theorem clearEnumCache_quiet : Quiet clearEnumCache := fun _ hR v => hR.cache v _

/-- A new node registered, whatever else is looked up for it. -/
theorem register_quiet {α : Type} {f : NodeId → Afp α}
    (hf : ∀ R, Absorbs R → ∀ v : Volume,
      Proc.wp True (f v.nextId) (fun _ v' => R v v') { v with nextId := v.nextId + 1 }) :
    Quiet (freshId >>= f) := by
  intro R hR v
  simp only [freshId, Proc.wp_bind, Proc.wp_read, Proc.next_ok, Proc.wp_ite, Proc.wp_modify,
    Proc.wp_pure, Proc.wp_lift]
  refine ⟨fun _ => hf R hR v, fun _ => ⟨?_, fun _ => trivial⟩⟩
  intro _ h
  cases h

variable [MacRoman]

theorem registerMangle_quiet (afpName posixName : Name) :
    Quiet (registerMangle sys afpName posixName) := fun _ hR v => hR.database v _

theorem populateEntry_quiet (dirId : NodeId) (dirPath : Path) (name : Name) :
    Quiet (populateEntry sys dirId dirPath name) := by
  refine .bind .read fun v => .ite (.pure ()) (.bind (.host _ _) fun isDir => register_quiet ?_)
  intro R hR v
  exact hR.trans (hR.register v _ _ (Node.fork_fresh _ _ _ _ _)) (hR.database _ _)

theorem ensureDirPopulated_quiet (dirId : NodeId) : Quiet (ensureDirPopulated sys dirId) :=
  .bind (getNode_quiet dirId) fun node => .bind (.host _ _) fun names =>
    .each (populateEntry_quiet sys dirId node.path) names

/-- A lookup registers nodes, if anything. -/
theorem resolveNodeLazy_quiet (directoryId : NodeId) (pathName : Path) :
    Quiet (resolveNodeLazy sys directoryId pathName) := by
  refine .bind .read fun v => ?_
  split
  · exact .pure _
  · exact .ite (.bind (.attempt (ensureDirPopulated_quiet sys _)) fun _ =>
      .bind .read fun _ => .ofExcept _) (.bind .read fun _ => .ofExcept _)

/-! ## Creations -/

theorem registerObject_quiet (directoryId : NodeId) (isDir : Bool) (fullPath : Path)
    (onDiskName : Option Name) :
    Quiet (registerObject sys directoryId isDir fullPath onDiskName) := by
  refine register_quiet fun R hR v => ?_
  rw [Proc.wp_bind, Proc.wp_orElse]
  refine ⟨fun name _ => ?_, fun _ => hR.skip v⟩
  exact hR.trans (hR.register v _ _ (Node.fork_fresh _ _ _ _ _))
    (hR.trans (hR.database _ _) (hR.cache _ _))

theorem createFile_quiet (flag : CreateFlag) (directoryId : NodeId) (relativePath : Path) :
    Quiet (createFile sys flag directoryId relativePath) := by
  unfold createFile
  refine .bind (getNode_quiet _) fun parent => .bind (.tryHost _) fun there => ?_
  have hcreate := (Quiet.host .accessDenied (Disk.create sys
    (.object (parent.path ++ relativePath) relativePath.isEmpty))).bind fun _ =>
      registerObject_quiet sys directoryId false (parent.path ++ relativePath)
        (parent.path ++ relativePath).getLast?
  dsimp only
  split
  · cases flag with
    | soft => exact .bind (.throw _) fun _ => hcreate
    | hard => exact .bind (.host _ _) fun _ => hcreate
  · exact hcreate

/-! ## Moves and copies -/

theorem planMove_quiet (srcDirId dstDirId : NodeId) (srcPath dstPath : Path) (newName : Name) :
    Quiet (planMove sys srcDirId dstDirId srcPath dstPath newName) :=
  .bind (resolveNodeLazy_quiet sys _ _) fun _ => .ite (.throw _) <|
    .bind (resolveNodeLazy_quiet sys _ _) fun _ => .bind (getNode_quiet _) fun _ =>
      .bind (getNode_quiet _) fun _ => .ite (.throw _) <| .bind .read fun _ =>
        .ite (.throw _) (.pure _)

omit [MacRoman] in
theorem moveSidecar_quiet (plan : Transfer) : Quiet (moveSidecar sys plan) := by
  refine .bind (.tryHost _) fun there => ?_
  split
  · exact .bind (.tryHost _) fun _ => .pure _
  · exact .pure _

omit [MacRoman] in
theorem setPath_quiet (id : NodeId) (oldPath newPath : Path) : Quiet (setPath id oldPath newPath) :=
  fun _ hR v => hR.paths v _

omit [MacRoman] in
theorem moveNode_quiet (plan : Transfer) : Quiet (moveNode plan) :=
  .bind (setPath_quiet _ _ _) fun _ => unwrapNode_quiet _ fun _ forkType => by cases forkType <;> rfl

omit [MacRoman] in
theorem moveChildren_quiet (plan : Transfer) : Quiet (moveChildren sys plan) :=
  .bind .read fun v => .each (fun child => .bind (setPath_quiet _ _ _) fun _ =>
    .bind (.tryDatabase _) fun _ => unwrapNode_quiet _ fun _ forkType => by cases forkType <;> rfl) _

omit [MacRoman] in
theorem moveDesktop_quiet (plan : Transfer) (srcDirId : NodeId) :
    Quiet (moveDesktop sys plan srcDirId) :=
  .bind (.tryDatabase _) fun _ => .ite (.tryDatabase _) (.pure _)

theorem recordMove_quiet (plan : Transfer) (srcDirId : NodeId) :
    Quiet (recordMove sys plan srcDirId) := by
  have hend : Quiet (do
      moveDesktop sys plan srcDirId
      registerMangle sys plan.afpName plan.posixName
      clearEnumCache) :=
    .bind (moveDesktop_quiet sys plan srcDirId) fun _ =>
      .bind (registerMangle_quiet sys _ _) fun _ => clearEnumCache_quiet
  unfold recordMove
  cases plan.srcIsDir with
  | false =>
    exact .bind (moveSidecar_quiet sys plan) fun _ => .bind (moveNode_quiet plan) fun _ => hend
  | true => exact .bind (moveNode_quiet plan) fun _ => .bind (moveChildren_quiet sys plan) fun _ => hend

theorem moveAndRename_quiet (srcDirId dstDirId : NodeId) (srcPath dstPath : Path) (newName : Name) :
    Quiet (moveAndRename sys srcDirId dstDirId srcPath dstPath newName) :=
  .bind (planMove_quiet sys _ _ _ _ _) fun plan => .bind (.host _ _) fun _ =>
    recordMove_quiet sys plan srcDirId

theorem planCopy_quiet (srcDirId : NodeId) (srcPath : Path) (dstDirId : NodeId) (dstPath : Path)
    (newName : Name) : Quiet (planCopy sys srcDirId srcPath dstDirId dstPath newName) :=
  .bind (resolveNodeLazy_quiet sys _ _) fun _ => .bind (getNode_quiet _) fun _ => .ite (.throw _) <|
    .bind (resolveNodeLazy_quiet sys _ _) fun _ => .bind (getNode_quiet _) fun _ =>
      .ite (.throw _) <| .bind .read fun _ => .ite (.throw _) (.pure _)

omit [MacRoman] in
theorem copyOnDisk_quiet (plan : Transfer) : Quiet (copyOnDisk sys plan) := by
  refine .bind (.host _ _) fun _ => .bind (.tryHost _) fun info => ?_
  split
  · exact .bind (.tryHost _) fun _ => .pure _
  · exact .pure _

omit [MacRoman] in
theorem copySidecar_quiet (plan : Transfer) : Quiet (copySidecar sys plan) := by
  refine .bind (.tryHost _) fun there => ?_
  split
  · exact .bind (.tryHost _) fun _ => .bind (.tryHost _) fun _ => .pure _
  · exact .pure _

theorem copyFile_quiet (srcDirId : NodeId) (srcPath : Path) (dstDirId : NodeId) (dstPath : Path)
    (newName : Name) : Quiet (copyFile sys srcDirId srcPath dstDirId dstPath newName) :=
  .bind (planCopy_quiet sys _ _ _ _ _) fun plan => .bind (copyOnDisk_quiet sys plan) fun _ =>
    .bind (copySidecar_quiet sys plan) fun _ => .bind (.tryDatabase _) fun _ =>
      .bind (.tryDatabase _) fun _ => register_quiet fun _ hR v =>
        hR.trans (hR.register v _ _ (Node.fork_fresh _ _ _ _ _))
          (hR.trans (hR.database _ _) (hR.cache _ _))

end

end Volume

end TailTalk
