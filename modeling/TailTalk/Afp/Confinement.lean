/-
  Confinement — no client path leads out of the volume or to the server's own
  directories.

  Creations, moves and copies do not look for the server's names, and new names
  keep their dots.  `Proper` says of a request that it has no such destination;
  `confined_run` holds of the runs of proper requests.
-/
import TailTalk.Afp.Server
import TailTalk.Afp.Within
import TailTalk.Lib.Run

namespace TailTalk

open Lib

namespace Volume

/-- **What confinement means.** -/
structure Confined (v : Volume) : Prop where
  ordinary : ∀ p ∈ v.disk.touched, ∀ name ∈ p.comps, Ordinary name
  visible : ∀ rel slash, HostPath.object rel slash ∈ v.disk.touched → ¬ Private rel
  nodes : ∀ (id : NodeId) node, v.nodes[id]? = some node → ¬ Private node.path

theorem Within.confined {v : Volume} (h : Within v) : Confined v where
  ordinary := fun p hp => (h.disk.touched p hp).ordinary
  visible := fun rel slash hp => (h.disk.touched (.object rel slash) hp).visible
  nodes := fun id node hnode => (h.nodes id node hnode).path.visible

end Volume

namespace Server

open Volume

section

variable {sys : Sys} [MacRoman]

/-- The request has no destination among the server's directories or outside of the volume. -/
def Proper (sys : Sys) (v : Volume) : Request → Prop
  | .createDir cmd => CreatesInside v cmd.directoryId (afpPathToPosix cmd.path.value)
  | .createFile cmd => CreatesInside v cmd.directoryId (afpPathToPosix cmd.path.value)
  | .copyFile cmd => (cmd.srcVolumeId = cmd.dstVolumeId ∨ cmd.srcVolumeId = 0 ∨
      cmd.dstVolumeId = 0) → ProperName cmd.newName.value (planCopy sys cmd.srcDirectoryId
        (afpPathToPosix cmd.srcPath.value) cmd.dstDirectoryId (afpPathToPosix cmd.dstPath.value)
        cmd.newName.value) v
  | .moveAndRename cmd => ProperName cmd.newName.value (planMove sys cmd.srcDirectoryId
      cmd.dstDirectoryId (afpPathToPosix cmd.srcPath.value) (afpPathToPosix cmd.dstPath.value)
      cmd.newName.value) v
  | .rename cmd => ProperName cmd.newName.value (planMove sys cmd.directoryId cmd.directoryId
      (afpPathToPosix cmd.path.value) [] cmd.newName.value) v
  | _ => True

instance (sys : Sys) (v : Volume) (request : Request) : Decidable (Proper sys v request) := by
  unfold Proper
  split <;> infer_instance

theorem nodeOf_stays (directoryId : NodeId) (path : MacString) :
    Stays (nodeOf sys directoryId path) :=
  .ite (fun _ => .throw _) fun _ => resolveNodeLazy_stays _ _

omit [MacRoman] in
theorem replies_stays {α : Type} {m : Afp α} (hm : Stays m) (f : α → AspCommandResponse) :
    Stays (do let a ← m; pure (f a)) :=
  .bind hm fun _ _ => .pure trivial

omit [MacRoman] in
theorem within_replies {α : Type} {m : Afp α} {v : Volume}
    (hm : Proc.wp True m (fun _ v' => Within v') v) (f : α → AspCommandResponse) :
    Proc.wp True (do let a ← m; pure (f a)) (fun _ v' => Within v') v := by
  rw [Proc.wp_bind]
  refine Proc.wp_mono hm ?_
  rintro (e | a) v' hv'
  · exact hv'
  · exact hv'

/-- **One request.** -/
theorem perform_within {v : Volume} (hv : Within v) (sessionId : UInt8) {request : Request}
    (hproper : Proper sys v request) :
    Proc.wp True (perform sys sessionId request) (fun _ v' => Within v') v := by
  have hordinary : ∀ path : Name, ∀ name ∈ afpPathToPosix path, Ordinary name :=
    fun _ _ => ordinary_afpPathToPosix
  have hreply : ∀ response, Stays (pure response : Afp AspCommandResponse) := fun _ => .pure trivial
  cases request with
  | byteRangeLock req => exact Confines.within (replies_stays (byteRangeLock_stays req) _) hv
  | closeVol => exact hv
  | closeFork forkId => exact Confines.within (replies_stays (closeFork_stays forkId) _) hv
  | copyFile cmd =>
    refine Proc.wp_ite.2 ⟨fun _ => hv, fun hsame => within_replies (copyFile_within hv ?_) _⟩
    refine hproper ?_
    by_contra hdiffer
    simp only [not_or] at hdiffer
    exact hsame hdiffer
  | createDir cmd => exact within_replies (createDir_within hv hproper (hordinary _)) _
  | createFile cmd => exact within_replies (createFile_within hv hproper (hordinary _)) _
  | delete cmd => exact Confines.within (replies_stays (delete_stays _ _) _) hv
  | enumerate cmd maxResponse => exact Confines.within (replies_stays (enumerate_stays _ _) _) hv
  | flush => exact Confines.within (replies_stays (.attempt sync_stays) _) hv
  | flushFork forkId => exact Confines.within (replies_stays (.attempt (syncFork_stays _)) _) hv
  | getFileParms cmd =>
    exact Confines.within (.bind (nodeOf_stays _ _) fun _ _ => .bind (getNodeParms_stays _ _ _ _ _)
      fun _ _ => .ite (fun _ => .throw _) fun _ => hreply _) hv
  | getForkParms forkId bitmap =>
    exact Confines.within (replies_stays (getForkParms_stays _ _ _ _) _) hv
  | getDirParms cmd =>
    exact Confines.within (.bind (nodeOf_stays _ _) fun _ _ => .bind (getNodeParms_stays _ _ _ _ _)
      fun _ _ => .ite (fun _ => .throw _) fun _ => hreply _) hv
  | volParms bitmap =>
    -- a buffer of known size would be evaluated
    change Proc.wp True (volParms sys bitmap) _ _
    unfold volParms
    generalize zeros SRVR_PARMS_BUF = out
    exact Confines.within (replies_stays (getBitmapResp_stays bitmap out) _) hv
  | login => exact hv
  | moveAndRename cmd => exact within_replies (moveAndRename_within hv hproper) _
  | openFork forkType cmd =>
    exact Confines.within (replies_stays (openFork_stays _ _ _ _ _ _) _) hv
  | read cmd maxResponse => exact Confines.within (replies_stays (readFork_stays _ _) _) hv
  | rename cmd => exact within_replies (moveAndRename_within hv hproper) _
  | setDirParms cmd data =>
    exact Confines.within (.bind (resolveNodeLazy_stays _ _) fun _ _ => .bind (.lift _) fun _ _ =>
      replies_stays (setNodeParms_stays _ _ _ _) _) hv
  | setFileParms cmd params =>
    exact Confines.within (.bind (resolveNodeLazy_stays _ _) fun _ _ =>
      replies_stays (setNodeParms_stays _ _ _ _) _) hv
  | setForkParms cmd => exact Confines.within (replies_stays (setForkParms_stays cmd) _) hv
  | write cmd written =>
    exact Confines.within (.bind (.orElse (G := fun _ => True) fun _ _ => trivial) fun _ _ =>
      .bind (writeFork_stays _ _ _) fun _ _ => replies_stays (.lift _) _) hv
  | getFileDirParms cmd =>
    exact Confines.within (.bind (nodeOf_stays _ _) fun _ _ =>
      replies_stays (getNodeParms_stays _ _ _ _ _) _) hv
  | setFileDirParms cmd params =>
    exact Confines.within (.bind (nodeOf_stays _ _) fun _ _ =>
      replies_stays (setNodeParms_stays _ _ _ _) _) hv
  | getSrvrMsg => exact hv
  | openDt => exact Confines.within (replies_stays openDt_stays _) hv
  | closeDt => exact hv
  | getIcon req => exact Confines.within (replies_stays (withDt_stays _ _) _) hv
  | getIconInfo req => exact Confines.within (replies_stays (withDt_stays _ _) _) hv
  | addAppl req => exact Confines.within (replies_stays (withDt_stays _ _) _) hv
  | removeAppl req => exact Confines.within (replies_stays (withDt_stays _ _) _) hv
  | getAppl req => exact Confines.within (replies_stays (withDt_stays _ _) _) hv
  | addComment cmd =>
    exact Confines.within (replies_stays (.bind (knownPath_stays _ _) fun _ _ => .database _) _) hv
  | removeComment cmd =>
    exact Confines.within (replies_stays (.bind (knownPath_stays _ _) fun _ _ => .database _) _) hv
  | getComment cmd =>
    exact Confines.within (replies_stays (.bind (knownPath_stays _ _) fun _ _ => .database _) _) hv
  | addIcon req written =>
    exact Confines.within (.bind (.orElse (G := fun _ => True) fun _ _ => trivial) fun _ _ =>
      replies_stays (withDt_stays _ _) _) hv
  | unknown => exact hv

/-! ## Runs -/

/-- One request of some session, with what the system does meanwhile. -/
def step (v : Volume) (i : Sys × UInt8 × Request) : Option Volume :=
  (perform i.1 i.2.1 i.2.2).after v

omit [MacRoman] in
theorem within_new {name : Name} {createdAt : UInt32} {volumeId : UInt16} {db : DesktopDatabase}
    {disk : Disk} (hdisk : Disk.Valid disk) (hfresh : disk.touched = []) :
    Within (Volume.new sys name createdAt volumeId db disk) where
  disk := DiskWithin.touches ⟨hdisk, fun p hp => by rw [hfresh] at hp; cases hp⟩
    (Disk.touches_createDirAll (p := .tailtalk) trivial disk)
  nodes := by
    intro id node hnode
    rw [getElem?_new] at hnode
    split at hnode
    · rename_i hid
      obtain rfl := Option.some.inj hnode
      exact ⟨inside_nil, Or.inl ⟨hid.le, rfl⟩⟩
    · split at hnode
      · rename_i hid
        obtain rfl := Option.some.inj hnode
        exact ⟨inside_nil, Or.inl ⟨by rw [hid]; decide, rfl⟩⟩
      · cases hnode
  cache := fun id entries h => by simp [Volume.new] at h

/-- **Confinement.**  In a run from a new volume whose requests are all proper, no client path leads
    out of the volume or to the server's directories. -/
theorem confined_run {name : Name} {createdAt : UInt32} {volumeId : UInt16} {db : DesktopDatabase}
    {disk : Disk} (hdisk : Disk.Valid disk) (hfresh : disk.touched = [])
    {requests : List (Sys × UInt8 × Request)}
    (hproper : Along (partialStep step) (Reached fun v i => Proper i.1 v i.2.2)
      (some (Volume.new sys name createdAt volumeId db disk)) requests) {v : Volume}
    (hv : run (partialStep step) (some (Volume.new sys name createdAt volumeId db disk)) requests =
      some v) : Confined v := by
  refine Within.confined ((along_reached (fun _ _ _ _ => trivial) ?_ ?_
    hproper).2 v hv)
  · intro w i w' hw hok hstep
    obtain ⟨-, -, hw'⟩ := Proc.wp_after hstep (perform_within hw i.2.1 hok)
    exact hw'
  · intro w hw
    exact Option.some.inj hw ▸ within_new hdisk hfresh

end

/-! ## A name of the server's -/

section

local instance : MacRoman := macintosh

theorem valid_over_file {name : Name} (h : validFileName name = true) (ino : ℕ) :
    Disk.Valid (Disk.ofEntries [(name, .file ino)]) := by
  have hvolume : FileTree.Wf (fun name => validFileName name = true)
      (FileTree.dir 1 [(name, .file ino)]) := by
    refine .dir _ _ (List.nodup_singleton _) ?_ ?_
    · intro e he
      rw [List.mem_singleton.1 he]
      exact h
    · intro e he
      rw [List.mem_singleton.1 he]
      exact .file ino
  refine .dir _ _ (List.nodup_singleton _) ?_ ?_
  · intro e he
    rw [List.mem_singleton.1 he]
    show validFileName "volume".toList = true
    decide
  · intro e he
    rw [List.mem_singleton.1 he]
    exact hvolume

/-- A path as a client sends it. -/
def pathOf (text : String) : MacString := ⟨text.toList, none⟩

/-- A directory is made, a file moved into it, and a directory asked for under the server's name. -/
def tidyRequests : List (Sys × UInt8 × Request) :=
  [(.calm, 1, .createDir ⟨ROOT_ID, 0, pathOf "b"⟩),
    (.calm, 1, .rename ⟨ROOT_ID, pathOf "a", pathOf "..c"⟩),
    (.calm, 1, .getDirParms ⟨ROOT_ID, 1, pathOf ".tailtalk"⟩)]

theorem confined_run_tidyRequests : ∃ v, run (partialStep step)
    (some (.ofEntries [("a".toList, .file 2)])) tidyRequests = some v ∧ Confined v := by
  have hreturns : (run (partialStep step) (some (.ofEntries [("a".toList, .file 2)]))
      tidyRequests).isSome = true := by decide +kernel
  obtain ⟨v, hv⟩ := Option.isSome_iff_exists.1 hreturns
  exact ⟨v, hv, confined_run (valid_over_file (by decide) 2) rfl (by decide +kernel) hv⟩

/-- A client makes a directory with the name of the server's. -/
theorem confined_run_fails : ∃ v, run (partialStep step) (some (.ofEntries []))
    [(.calm, 1, .createDir ⟨ROOT_ID, 0, pathOf ".tailtalk"⟩)] = some v ∧ ¬ Confined v := by
  have hend : (run (partialStep step) (some (.ofEntries []))
      [(.calm, 1, .createDir ⟨ROOT_ID, 0, pathOf ".tailtalk"⟩)]).map
        (fun v => (v.nodes[3]?).map (·.path)) = some (some [TAILTALK]) := by decide +kernel
  obtain ⟨v, hv, heq⟩ := Option.map_eq_some_iff.1 hend
  obtain ⟨node, hnode, hpath⟩ := Option.map_eq_some_iff.1 heq
  refine ⟨v, hv, fun hconfined => hconfined.nodes 3 node hnode ?_⟩
  rw [hpath]
  decide

end

end Server

end TailTalk
