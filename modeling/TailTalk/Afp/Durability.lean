/-
  Durability of writes — when an answer to FPFlush, FPFlushFork or FPCloseFork
  can be relied on.

  The handlers drop what the syncs say, so their answers hold exactly in the
  runs in which no sync fails that they cover (`durable_iff`).
-/
import TailTalk.Afp.OpenFiles
import TailTalk.Afp.Server
import TailTalk.Lib.Run

namespace TailTalk

open Lib Server

/-! ## Turns -/

/-- The requests that change forks, sync them or close them. -/
inductive SyncRequest where
  | write (cmd : FPWrite) (written : Option Bytes)
  | setForkParms (cmd : FPSetForkParms)
  | flush
  | flushFork (forkId : UInt16)
  | closeFork (forkId : UInt16)

/-- The request that it is. -/
def SyncRequest.request : SyncRequest → Request
  | write cmd written => .write cmd written
  | setForkParms cmd => .setForkParms cmd
  | flush => .flush
  | flushFork forkId => .flushFork forkId
  | closeFork forkId => .closeFork forkId

namespace Volume

/-- The file that a request changes, if it is acknowledged. -/
def changed (v : Volume) : SyncRequest → Option ℕ
  | .write cmd _ => (v.fileOf cmd.forkId).map (·.fd)
  | .setForkParms cmd => do
    let key ← v.forkRefToNodeId[cmd.forkRefNum]?
    let _ ← ownLength cmd key.2
    let file ← v.openFile? key
    pure file.fd
  | _ => none

/-- The syncs between two states, with what became of them. -/
def newSyncs (v v' : Volume) : List (ℕ × Bool) := v'.disk.syncs.drop v.disk.syncs.length

end Volume

/-- A volume and what of it is not on disk. -/
structure Ledger where
  volume : Volume
  /-- files with an acknowledged change that no successful sync has followed -/
  unsynced : List ℕ

namespace Ledger

variable [MacRoman]

/-- What a turn leaves unsynced. -/
def settle (s : Ledger) (req : SyncRequest) (response : AspCommandResponse) (v' : Volume) : Ledger where
  volume := v'
  unsynced :=
    (s.unsynced ++
      if response.result = NO_ERROR then (s.volume.changed req).toList else []).filter
        fun fd => (fd, true) ∉ s.volume.newSyncs v'

/-- The answer to a request; none after a panic. -/
def turn (s : Ledger) (i : Sys × SyncRequest) : Option (AspCommandResponse × Ledger) :=
  match answer (perform i.1 0 i.2.request) s.volume with
  | .ok (.ok response, v') => some (response, s.settle i.2 response v')
  | _ => none

/-- The state after a turn. -/
def step (s : Ledger) (i : Sys × SyncRequest) : Option Ledger := (s.turn i).map (·.2)

/-- What a successful answer promises. -/
def Flushed (v : Volume) (unsynced : List ℕ) : SyncRequest → Prop
  | .flush => unsynced = []
  | .flushFork forkId | .closeFork forkId => ∀ file, v.fileOf forkId = some file → file.fd ∉ unsynced
  | _ => True

/-- The answer holds, and a dirty fork whose sync failed is still dirty. -/
def Durable (s : Ledger) (i : Sys × SyncRequest) : Prop :=
  ∀ response s', s.turn i = some (response, s') →
    (response.result = NO_ERROR → Flushed s.volume s'.unsynced i.2) ∧
    ∀ key ∈ s.volume.dirtyForks, ∀ file, s.volume.openFile? key = some file →
      (file.fd, false) ∈ s.volume.newSyncs s'.volume → key ∈ s'.volume.dirtyForks

/-- No sync fails that the answer covers. -/
def NoLostSync (s : Ledger) (i : Sys × SyncRequest) : Prop :=
  match i.2 with
  | .flush => ∀ fd ∈ s.unsynced, i.1.refuses (.sync fd) = false
  | .flushFork forkId => ∀ file, s.volume.fileOf forkId = some file → file.fd ∈ s.unsynced →
      i.1.refuses (.sync file.fd) = false
  | .closeFork forkId => ∀ key file, s.volume.forkRefToNodeId[forkId]? = some key →
      s.volume.openFile? key = some file → key ∈ s.volume.dirtyForks ∨ file.fd ∈ s.unsynced →
      i.1.refuses (.sync file.fd) = false
  | _ => True

/-- Every unsynced file is open for a dirty fork. -/
def Tracked (s : Ledger) : Prop :=
  ∀ fd ∈ s.unsynced, ∃ key ∈ s.volume.dirtyForks, ∃ file,
    s.volume.openFile? key = some file ∧ file.fd = fd

end Ledger

/-! ## What the operations do to forks -/

namespace Volume

variable {sys : Sys} {v : Volume}

/-- The syncs of some forks, in turn. -/
def attempts (sys : Sys) (v : Volume) (keys : List (NodeId × ForkType)) : List (ℕ × Bool) :=
  keys.filterMap fun key => (v.openFile? key).map fun file =>
    (file.fd, !sys.refuses (.sync file.fd))

/-- The sync of that fork is refused. -/
def SyncFails (sys : Sys) (v : Volume) (key : NodeId × ForkType) : Prop :=
  ∃ file, v.openFile? key = some file ∧ sys.refuses (.sync file.fd) = true

/-- What a sync of dirty forks does: files and references stay, and what could not be synced is
    dirty again. -/
structure Synced (sys : Sys) (v : Volume) (keys : List (NodeId × ForkType)) (v' : Volume) :
    Prop where
  nodes : v'.nodes = v.nodes
  refs : v'.forkRefToNodeId = v.forkRefToNodeId
  syncs : v'.disk.syncs = v.disk.syncs ++ attempts sys v keys
  dirty : ∀ key, key ∈ v'.dirtyForks ↔
    key ∈ v.dirtyForks ∨ key ∈ keys ∧ SyncFails sys v key

theorem Synced.openFile? {keys : List (NodeId × ForkType)} {v' : Volume}
    (h : Synced sys v keys v') (key : NodeId × ForkType) : v'.openFile? key = v.openFile? key := by
  simp only [Volume.openFile?, h.nodes]

theorem Synced.cons {key : NodeId × ForkType} {keys : List (NodeId × ForkType)} {v' v'' : Volume}
    (h : Synced sys v [key] v') (h' : Synced sys v' keys v'') :
    Synced sys v (key :: keys) v'' where
  nodes := h'.nodes.trans h.nodes
  refs := h'.refs.trans h.refs
  syncs := by
    have hattempts : attempts sys v' keys = attempts sys v keys := by
      simp only [attempts, h.openFile?]
    rw [h'.syncs, h.syncs, hattempts, List.append_assoc, attempts, attempts, attempts,
      ← List.filterMap_append]
    rfl
  dirty := by
    intro other
    have hfails : SyncFails sys v' other ↔ SyncFails sys v other := by
      simp only [SyncFails, h.openFile?]
    rw [h'.dirty, h.dirty, hfails, List.mem_singleton, List.mem_cons]
    tauto

theorem syncDirty_synced (key : NodeId × ForkType) (v : Volume) :
    Proc.wp False (syncDirty sys key) (fun r v' => (∃ b, r = .ok b) ∧ Synced sys v [key] v') v := by
  simp only [syncDirty, Proc.wp_bind, Proc.wp_read, Proc.next_ok]
  have hopen : (v.nodes[key.1]?).bind (·.fork key.2) = v.openFile? key := rfl
  rw [hopen]
  rcases hfile : v.openFile? key with _ | file
  · refine ⟨⟨_, rfl⟩, ⟨rfl, rfl, ?_, ?_⟩⟩
    · simp [attempts, hfile]
    · simp [SyncFails, hfile]
  · simp only [Proc.wp_bind, wp_tryHost, Proc.next_ok, Disk.sync]
    by_cases hrefuse : sys.refuses (.sync file.fd) = true
    · rw [if_pos hrefuse]
      simp only [Proc.wp_bind, markDirty, Proc.wp_modify, Proc.next_ok, Proc.wp_pure]
      refine ⟨⟨_, rfl⟩, ⟨rfl, rfl, ?_, ?_⟩⟩
      · simp [attempts, hfile, hrefuse, withDirty]
      · intro other
        have hfails : SyncFails sys v key := ⟨file, hfile, hrefuse⟩
        rw [mem_withDirty, List.mem_singleton]
        constructor
        · rintro (rfl | h)
          · exact Or.inr ⟨rfl, hfails⟩
          · exact Or.inl h
        · rintro (h | ⟨h, -⟩)
          · exact Or.inr h
          · exact Or.inl h
    · rw [if_neg hrefuse]
      refine ⟨⟨_, rfl⟩, ⟨rfl, rfl, ?_, ?_⟩⟩
      · simp [attempts, hfile]
      · intro other
        have hok : ¬ SyncFails sys v key := by
          rintro ⟨file', hfile', hrefuse'⟩
          obtain rfl := Option.some.inj (hfile.symm.trans hfile')
          exact hrefuse hrefuse'
        rw [List.mem_singleton]
        exact ⟨Or.inl, fun h => h.elim id fun h => absurd (h.1 ▸ h.2) hok⟩

theorem syncAll_synced (keys : List (NodeId × ForkType)) (v : Volume) :
    Proc.wp False (syncAll sys keys) (fun r v' => (∃ b, r = .ok b) ∧ Synced sys v keys v') v := by
  induction keys generalizing v with
  | nil => exact ⟨⟨_, rfl⟩, ⟨rfl, rfl, by simp [attempts], by simp⟩⟩
  | cons key keys ih =>
    simp only [syncAll, Proc.wp_bind]
    refine Proc.wp_mono (syncDirty_synced key v) ?_
    rintro _ v₁ ⟨⟨one, rfl⟩, h₁⟩
    simp only [Proc.next_ok, Proc.wp_bind]
    refine Proc.wp_mono (ih v₁) ?_
    rintro _ v₂ ⟨⟨rest, rfl⟩, h₂⟩
    exact ⟨⟨_, rfl⟩, h₁.cons h₂⟩

/-- What a sync of the file open for one fork does to the rest. -/
structure OneSynced (sys : Sys) (v : Volume) (key : NodeId × ForkType) (file : Handle)
    (v' : Volume) : Prop where
  syncs : v'.disk.syncs = v.disk.syncs ++ [(file.fd, !sys.refuses (.sync file.fd))]
  openFile : ∀ other, other ≠ key → v'.openFile? other = v.openFile? other
  dirty : ∀ other, other ≠ key → other ∈ v.dirtyForks → other ∈ v'.dirtyForks

/-- What a request on a fork with no file open leaves. -/
structure NothingSynced (v v' : Volume) : Prop where
  syncs : v'.disk.syncs = v.disk.syncs
  openFile : ∀ key file, v.openFile? key = some file → v'.openFile? key = some file
  dirty : ∀ key ∈ v.dirtyForks, (v.openFile? key).isSome → key ∈ v'.dirtyForks

theorem NothingSynced.refl (v : Volume) : NothingSynced v v :=
  ⟨rfl, fun _ _ h => h, fun _ h _ => h⟩

theorem syncFork_spec (forkId : UInt16) (v : Volume) :
    Proc.wp False (syncFork sys forkId) (fun _ v' =>
      (v.fileOf forkId = none → NothingSynced v v') ∧
      (∀ key file, v.forkRefToNodeId[forkId]? = some key → v.openFile? key = some file →
        OneSynced sys v key file v' ∧ v'.openFile? key = some file ∧
          (sys.refuses (.sync file.fd) = true → key ∈ v.dirtyForks → key ∈ v'.dirtyForks))) v := by
  simp only [syncFork, Proc.wp_bind, Proc.wp_read, Proc.next_ok]
  rcases href : v.forkRefToNodeId[forkId]? with _ | ⟨nodeId, forkType⟩
  · exact ⟨fun _ => .refl v, by intro key file h; cases h⟩
  have hfileOf : v.fileOf forkId = v.openFile? (nodeId, forkType) := by
    simp only [fileOf, href, Option.bind_some]
  simp only [Proc.wp_bind, getNode, Proc.wp_read, Proc.next_ok, Proc.wp_orElse, Proc.next_error,
    hfileOf]
  refine ⟨fun node hnode => ?_, fun hnode => ⟨fun _ => .refl v, ?_⟩⟩
  · have hopen : v.openFile? (nodeId, forkType) = node.fork forkType := by
      simp only [Volume.openFile?, hnode, Option.bind_some]
    rcases hfile : node.fork forkType with _ | file
    · rw [hfile] at hopen
      simp only [clearDirty, Proc.wp_modify]
      refine ⟨fun _ => ⟨rfl, fun _ _ h => h, fun key hkey hsome => ?_⟩, ?_⟩
      · refine List.mem_filter.2 ⟨hkey, decide_eq_true ?_⟩
        rintro rfl
        rw [hopen] at hsome
        cases hsome
      · intro key file heq hfile'
        obtain rfl := Option.some.inj heq
        rw [hopen] at hfile'
        cases hfile'
    · rw [hfile] at hopen
      simp only [Proc.wp_bind, wp_host, Disk.sync]
      by_cases hrefuse : sys.refuses (.sync file.fd) = true
      · rw [if_pos hrefuse]
        refine ⟨fun h => (by rw [hopen] at h; cases h), ?_⟩
        intro key file' heq hfile'
        obtain rfl := Option.some.inj heq
        obtain rfl := Option.some.inj (hopen.symm.trans hfile')
        exact ⟨⟨rfl, fun _ _ => rfl, fun _ _ h => h⟩, hopen, fun _ h => h⟩
      · rw [if_neg hrefuse]
        simp only [Proc.next_ok, clearDirty, Proc.wp_modify]
        refine ⟨fun h => (by rw [hopen] at h; cases h), ?_⟩
        intro key file' heq hfile'
        obtain rfl := Option.some.inj heq
        obtain rfl := Option.some.inj (hopen.symm.trans hfile')
        refine ⟨⟨rfl, fun _ _ => rfl, fun other hother h => ?_⟩, hopen, fun h => absurd h hrefuse⟩
        exact List.mem_filter.2 ⟨h, decide_eq_true hother⟩
  · intro key file heq hfile
    obtain rfl := Option.some.inj heq
    simp [Volume.openFile?, hnode] at hfile

theorem closeFork_spec (forkId : UInt16) (v : Volume) :
    Proc.wp False (closeFork sys forkId) (fun r v' =>
      (v.fileOf forkId = none → NothingSynced v v') ∧
      (∀ key file, v.forkRefToNodeId[forkId]? = some key → v.openFile? key = some file →
        r = .ok () ∧ OneSynced sys v key file v' ∧ key ∉ v'.dirtyForks)) v := by
  simp only [closeFork, Proc.wp_bind, forkOf, Proc.wp_read, Proc.next_ok, Proc.wp_orElse,
    getNode, Proc.next_error]
  refine ⟨?_, fun href => ⟨fun _ => .refl v, by intro key file h; simp [href] at h⟩⟩
  rintro ⟨nodeId, forkType⟩ href
  have hfileOf : v.fileOf forkId = v.openFile? (nodeId, forkType) := by
    simp only [fileOf, href, Option.bind_some]
  rw [hfileOf]
  refine ⟨fun node hnode => ?_, fun hnode => ⟨fun _ => .refl v, ?_⟩⟩
  · have hopen : v.openFile? (nodeId, forkType) = node.fork forkType := by
      simp only [Volume.openFile?, hnode, Option.bind_some]
    unfold closeHandle
    rcases hfile : node.fork forkType with _ | file
    · rw [hfile] at hopen
      simp only [Proc.wp_pure, Proc.next_ok, clearDirty, Proc.wp_modify, Proc.wp_bind]
      refine ⟨fun _ => ⟨rfl, fun _ _ h => h, fun key hkey hsome => ?_⟩, ?_⟩
      · refine List.mem_filter.2 ⟨hkey, decide_eq_true ?_⟩
        rintro rfl
        rw [hopen] at hsome
        cases hsome
      · intro key file heq hfile'
        obtain rfl := Option.some.inj (href.symm.trans heq)
        rw [hopen] at hfile'
        cases hfile'
    · rw [hfile] at hopen
      simp only [wp_tryHost, Disk.sync, Proc.wp_bind, Proc.next_ok, setHandle, updateNode,
        clearDirty, Proc.wp_modify]
      refine ⟨fun h => (by rw [hopen] at h; cases h), ?_⟩
      intro key file' heq hfile'
      obtain rfl := Option.some.inj (href.symm.trans heq)
      obtain rfl := Option.some.inj (hopen.symm.trans hfile')
      refine ⟨trivial, ⟨rfl, fun other hother => ?_, fun other hother h => ?_⟩, ?_⟩
      · exact (openFile?_mapNode_setFork (nodeId, forkType) other none).trans (if_neg hother)
      · exact List.mem_filter.2 ⟨h, decide_eq_true hother⟩
      · intro h
        exact (of_decide_eq_true (List.mem_filter.1 h).2) rfl
  · intro key file heq hfile
    obtain rfl := Option.some.inj (href.symm.trans heq)
    simp [Volume.openFile?, hnode] at hfile

end Volume

/-! ## One turn -/

namespace Volume

theorem newSyncs_of_append {v v' : Volume} {syncs : List (ℕ × Bool)}
    (h : v'.disk.syncs = v.disk.syncs ++ syncs) : v.newSyncs v' = syncs := by
  rw [newSyncs, h, List.drop_left]

theorem newSyncs_of_eq {v v' : Volume} (h : v'.disk.syncs = v.disk.syncs) :
    v.newSyncs v' = [] :=
  newSyncs_of_append (h.trans (List.append_nil _).symm)

end Volume

namespace Ledger

open Volume

variable {s : Ledger} {i : Sys × SyncRequest}

theorem mem_settle {req : SyncRequest} {response : AspCommandResponse} {v' : Volume} {fd : ℕ} :
    fd ∈ (s.settle req response v').unsynced ↔
      (fd ∈ s.unsynced ∨ response.result = NO_ERROR ∧ s.volume.changed req = some fd) ∧
        (fd, true) ∉ s.volume.newSyncs v' := by
  simp only [settle, List.mem_filter, List.mem_append, decide_eq_true_eq]
  split_ifs with h
  · simp [h]
  · simp [h]

theorem Tracked.stays {s' : Ledger} (hs : Tracked s) (hsub : ∀ fd ∈ s'.unsynced, fd ∈ s.unsynced)
    (hstays : ∀ key ∈ s.volume.dirtyForks, ∀ file, s.volume.openFile? key = some file →
      file.fd ∈ s'.unsynced → key ∈ s'.volume.dirtyForks ∧
        s'.volume.openFile? key = some file) : Tracked s' := by
  intro fd hfd
  obtain ⟨key, hkey, file, hfile, rfl⟩ := hs fd (hsub fd hfd)
  obtain ⟨hkey', hfile'⟩ := hstays key hkey file hfile hfd
  exact ⟨key, hkey', file, hfile', rfl⟩

/-- The reply to what a handler ends in. -/
def Answers : Except AfpError AspCommandResponse → AspCommandResponse → Prop
  | .ok response', response => response = response'
  | .error _, response => response.result ≠ NO_ERROR

variable [MacRoman]

theorem turn_cases {P : Prop} {Q : Except AfpError AspCommandResponse → Volume → Prop}
    (h : Proc.wp P (perform i.1 0 i.2.request) Q s.volume) :
    (P ∧ s.turn i = none) ∨ ∃ r v' response, Q r v' ∧ Answers r response ∧
      s.turn i = some (response, s.settle i.2 response v') := by
  have hanswer : Proc.wp P (answer (perform i.1 0 i.2.request)) (fun r' v' => ∃ r response,
      Q r v' ∧ Answers r response ∧ r' = .ok response) s.volume := by
    rw [wp_answer]
    refine Proc.wp_mono h ?_
    rintro (e | response) v' hq
    · exact ⟨_, _, hq, errorReply_result_ne e, rfl⟩
    · exact ⟨_, _, hq, rfl, rfl⟩
  unfold turn
  unfold Proc.wp at hanswer
  generalize answer (perform i.1 0 i.2.request) s.volume = outcome at hanswer ⊢
  rcases outcome with _ | ⟨r', v'⟩
  · exact Or.inl ⟨hanswer, rfl⟩
  · obtain ⟨r, response, hq, hr, rfl⟩ := hanswer
    exact Or.inr ⟨r, v', response, hq, hr, rfl⟩

/-- A turn has one outcome. -/
theorem forall_turn {response : AspCommandResponse} {t : Ledger}
    {P : AspCommandResponse → Ledger → Prop} (hturn : s.turn i = some (response, t))
    (h : P response t) :
    ∀ response' s', s.turn i = some (response', s') → P response' s' := by
  intro response' s' h'
  rw [hturn] at h'
  obtain ⟨rfl, rfl⟩ := Prod.mk.inj (Option.some.inj h')
  exact h

/-- A turn that syncs nothing, and whose answer promises nothing. -/
theorem durable_quiet {response : AspCommandResponse} {v' : Volume}
    (hflushed : ∀ unsynced, Flushed s.volume unsynced i.2)
    (hsyncs : v'.disk.syncs = s.volume.disk.syncs)
    (hturn : s.turn i = some (response, s.settle i.2 response v')) : Durable s i := by
  refine forall_turn hturn ⟨fun _ => hflushed _, fun key _ file _ hsync => ?_⟩
  rw [show s.volume.newSyncs (s.settle i.2 response v').volume = [] from
    newSyncs_of_eq hsyncs] at hsync
  cases hsync

/-- A turn that promises nothing about syncs and makes none. -/
theorem durable_of_keeps (hs : Tracked s) (hflushed : ∀ unsynced, Flushed s.volume unsynced i.2)
    (hwp : Proc.wp True (perform i.1 0 i.2.request) (fun r v' => KeepsFiles s.volume v' ∧
      ∀ response, r = .ok response → ∀ fd, s.volume.changed i.2 = some fd →
        ∃ key ∈ v'.dirtyForks, ∃ file, s.volume.openFile? key = some file ∧ file.fd = fd)
      s.volume) :
    Durable s i ∧ ∀ response s', s.turn i = some (response, s') → Tracked s' := by
  rcases turn_cases hwp with ⟨-, hnone⟩ | ⟨r, v', response, ⟨hkeep, hchanged⟩, hr, hturn⟩
  · refine ⟨?_, ?_⟩
    · intro response s' h
      rw [hnone] at h
      cases h
    · intro response s' h
      rw [hnone] at h
      cases h
  refine ⟨durable_quiet hflushed hkeep.syncs hturn, forall_turn hturn ?_⟩
  · intro fd hfd
    obtain ⟨hmem | ⟨hresult, hfd'⟩, -⟩ := mem_settle.1 hfd
    · obtain ⟨key, hkey, file, hfile, rfl⟩ := hs fd hmem
      obtain ⟨file', hfile', hfd'⟩ := hkeep.openFile hfile
      exact ⟨key, hkeep.dirty key hkey, file', hfile', hfd'⟩
    · rcases r with e | response''
      · exact absurd hresult hr
      · obtain ⟨key, hkey, file, hfile, rfl⟩ := hchanged response'' rfl fd hfd'
        obtain ⟨file', hfile', hfd'⟩ := hkeep.openFile hfile
        exact ⟨key, hkey, file', hfile', hfd'⟩

theorem write_step {sys : Sys} {cmd : FPWrite} {written : Option Bytes} (hs : Tracked s) :
    Durable s (sys, .write cmd written) ∧
      ∀ response s', s.turn (sys, .write cmd written) = some (response, s') → Tracked s' := by
  refine durable_of_keeps hs (fun _ => trivial) ?_
  change Proc.wp _ (handleWrite sys cmd written) _ _
  simp only [handleWrite, Proc.wp_bind, spWrite, Proc.wp_orElse, Proc.next_ok, Proc.next_error]
  refine ⟨fun data _ => ?_, fun _ => ⟨.refl _, by intro _ h; cases h⟩⟩
  refine Proc.wp_mono (Proc.wp_weaken (writeFork_keeps cmd.forkId cmd.offset data s.volume)) ?_
  rintro (e | n) v' ⟨hkeep, hdirty⟩
  · exact ⟨hkeep, by intro _ h; cases h⟩
  obtain ⟨key, hkey, file, href, hfile⟩ := hdirty n rfl
  simp only [Proc.next_ok, Proc.wp_bind, Proc.wp_lift, Proc.wp_pure, implies_true, and_true]
  intro _ _
  refine ⟨hkeep, fun _ _ fd hfd => ⟨key, hkey, file, hfile, ?_⟩⟩
  simpa [changed, fileOf, href, hfile] using hfd

theorem setForkParms_step {sys : Sys} {cmd : FPSetForkParms} (hs : Tracked s) :
    Durable s (sys, .setForkParms cmd) ∧
      ∀ response s', s.turn (sys, .setForkParms cmd) = some (response, s') → Tracked s' := by
  refine durable_of_keeps hs (fun _ => trivial) ?_
  change Proc.wp _ (handleSetForkParms sys cmd) _ _
  simp only [handleSetForkParms, Proc.wp_bind]
  refine Proc.wp_mono (Proc.wp_weaken (setForkParms_keeps cmd s.volume)) ?_
  rintro (e | _) v' ⟨hkeep, hdirty⟩
  · exact ⟨hkeep, by intro _ h; cases h⟩
  refine ⟨hkeep, fun _ _ fd hfd => ?_⟩
  simp only [changed, Option.bind_eq_bind, Option.bind_eq_some_iff, Option.pure_def,
    Option.some.injEq] at hfd
  obtain ⟨key, href, len, hlen, file, hfile, rfl⟩ := hfd
  exact ⟨key, hdirty rfl key href (by rw [hlen]; rfl), file, hfile, rfl⟩

theorem flush_step {sys : Sys} (hs : Tracked s) :
    (Durable s (sys, .flush) ↔ NoLostSync s (sys, .flush)) ∧
      ∀ response s', s.turn (sys, .flush) = some (response, s') → Tracked s' := by
  have hwp : Proc.wp False (perform sys 0 .flush) (fun r v' =>
      r = .ok (success []) ∧ Synced sys { s.volume with dirtyForks := [] } s.volume.dirtyForks v')
      s.volume := by
    change Proc.wp _ (handleFlush sys) _ _
    simp only [handleFlush, sync, Proc.wp_bind, Proc.wp_attempt, Proc.wp_read, Proc.next_ok,
      Proc.wp_modify]
    refine Proc.wp_mono (syncAll_synced s.volume.dirtyForks _) ?_
    rintro _ v' ⟨⟨synced, rfl⟩, hsynced⟩
    simp only [Proc.next_ok, Proc.wp_ite, Proc.wp_pure, Proc.wp_throw]
    exact ⟨fun _ => ⟨trivial, hsynced⟩, fun _ => ⟨trivial, hsynced⟩⟩
  obtain ⟨hfalse, -⟩ | ⟨r, v', response, ⟨rfl, hsynced⟩, rfl, hturn⟩ :=
    turn_cases (i := (sys, .flush)) hwp
  · exact hfalse.elim
  have hnew : s.volume.newSyncs v' = attempts sys s.volume s.volume.dirtyForks :=
    newSyncs_of_append hsynced.syncs
  have hunsynced : ∀ fd, fd ∈ (s.settle .flush (success []) v').unsynced ↔
      fd ∈ s.unsynced ∧ sys.refuses (.sync fd) = true := by
    intro fd
    rw [mem_settle, hnew]
    constructor
    · rintro ⟨hmem | ⟨-, hnone⟩, hfail⟩
      · refine ⟨hmem, ?_⟩
        obtain ⟨key, hkey, file, hfile, rfl⟩ := hs fd hmem
        by_contra hok
        exact hfail (List.mem_filterMap.2 ⟨key, hkey, by simp [hfile, hok]⟩)
      · cases hnone
    · rintro ⟨hmem, hrefuse⟩
      refine ⟨Or.inl hmem, fun hsync => ?_⟩
      obtain ⟨key, -, hkey⟩ := List.mem_filterMap.1 hsync
      obtain ⟨file, -, heq⟩ := Option.map_eq_some_iff.1 hkey
      obtain ⟨rfl, hok⟩ := Prod.mk.inj heq
      rw [hrefuse] at hok
      cases hok
  have hagain : ∀ key ∈ s.volume.dirtyForks, ∀ file, s.volume.openFile? key = some file →
      sys.refuses (.sync file.fd) = true → key ∈ v'.dirtyForks := fun key hkey file hfile hrefuse =>
    (hsynced.dirty key).2 (Or.inr ⟨hkey, file, hfile, hrefuse⟩)
  refine ⟨⟨fun hdurable fd hfd => ?_, fun hok => forall_turn hturn ?_⟩, forall_turn hturn ?_⟩
  · have hempty : (s.settle .flush (success []) v').unsynced = [] :=
      (hdurable _ _ hturn).1 rfl
    by_contra hrefuse
    have hmem := (hunsynced fd).2 ⟨hfd, eq_true_of_ne_false hrefuse⟩
    rw [hempty] at hmem
    cases hmem
  · refine ⟨fun _ => List.eq_nil_iff_forall_not_mem.2 fun fd hfd => ?_,
      fun key hkey file hfile hsync => hagain key hkey file hfile ?_⟩
    · obtain ⟨hmem, hrefuse⟩ := (hunsynced fd).1 hfd
      rw [hok fd hmem] at hrefuse
      cases hrefuse
    · rw [show s.volume.newSyncs (s.settle .flush (success []) v').volume = _ from hnew] at hsync
      obtain ⟨key', -, hkey'⟩ := List.mem_filterMap.1 hsync
      obtain ⟨file', -, heq⟩ := Option.map_eq_some_iff.1 hkey'
      obtain ⟨hfd, hrefuse⟩ := Prod.mk.inj heq
      rw [hfd] at hrefuse
      simpa using hrefuse
  · refine hs.stays (fun fd hfd => ((hunsynced fd).1 hfd).1) fun key hkey file hfile hfd => ?_
    exact ⟨hagain key hkey file hfile ((hunsynced _).1 hfd).2, (hsynced.openFile? key).trans hfile⟩

omit [MacRoman] in
/-- A request on a reference without an open file. -/
theorem Tracked.nothing {req : SyncRequest} {response : AspCommandResponse} {v' : Volume}
    (hs : Tracked s) (hchanged : s.volume.changed req = none)
    (hnothing : NothingSynced s.volume v') : Tracked (s.settle req response v') := by
  refine hs.stays (fun fd hfd => ?_) fun key hkey file hfile _ => ?_
  · obtain ⟨hmem | ⟨-, h⟩, -⟩ := mem_settle.1 hfd
    · exact hmem
    · rw [hchanged] at h
      cases h
  · exact ⟨hnothing.dirty key hkey (by rw [hfile]; rfl), hnothing.openFile key file hfile⟩

section One

variable {sys : Sys} {req : SyncRequest} {key : NodeId × ForkType} {file : Handle}
  {response : AspCommandResponse} {v' : Volume}

omit [MacRoman] in
theorem OneSynced.mem_settle (hone : OneSynced sys s.volume key file v')
    (hchanged : s.volume.changed req = none) {fd : ℕ} :
    fd ∈ (s.settle req response v').unsynced ↔
      fd ∈ s.unsynced ∧ (fd = file.fd → sys.refuses (.sync file.fd) = true) := by
  rw [Ledger.mem_settle, newSyncs_of_append hone.syncs, hchanged]
  cases sys.refuses (.sync file.fd) <;> simp

omit [MacRoman] in
theorem Tracked.one (hs : Tracked s) (hfile : s.volume.openFile? key = some file)
    (hone : OneSynced sys s.volume key file v') (hchanged : s.volume.changed req = none)
    (hkey : key ∈ s.volume.dirtyForks → sys.refuses (.sync file.fd) = true →
      key ∈ v'.dirtyForks ∧ v'.openFile? key = some file) :
    Tracked (s.settle req response v') := by
  refine hs.stays (fun fd hfd => ((OneSynced.mem_settle hone hchanged).1 hfd).1) ?_
  intro other hother file' hfile' hfd
  obtain ⟨hmem, hrefuse⟩ := (OneSynced.mem_settle hone hchanged).1 hfd
  by_cases heq : other = key
  · subst heq
    obtain rfl := Option.some.inj (hfile.symm.trans hfile')
    exact hkey hother (hrefuse rfl)
  · exact ⟨hone.dirty other heq hother, (hone.openFile other heq).trans hfile'⟩

/-- What an answer about one fork promises, in terms of its sync. -/
theorem durable_one (hflushed : ∀ unsynced, Flushed s.volume unsynced req ↔ file.fd ∉ unsynced)
    (hchanged : s.volume.changed req = none) (hfile : s.volume.openFile? key = some file)
    (hone : OneSynced sys s.volume key file v') (hresult : response.result = NO_ERROR)
    (hturn : s.turn (sys, req) = some (response, s.settle req response v')) :
    Durable s (sys, req) ↔ (file.fd ∈ s.unsynced → sys.refuses (.sync file.fd) = false) ∧
      (key ∈ s.volume.dirtyForks → sys.refuses (.sync file.fd) = true → key ∈ v'.dirtyForks) := by
  have hnew : s.volume.newSyncs (s.settle req response v').volume = _ :=
    newSyncs_of_append hone.syncs
  have hmem : file.fd ∈ (s.settle req response v').unsynced ↔
      file.fd ∈ s.unsynced ∧ sys.refuses (.sync file.fd) = true := by
    rw [OneSynced.mem_settle hone hchanged]
    exact and_congr_right fun _ => ⟨fun h => h rfl, fun h _ => h⟩
  constructor
  · intro hdurable
    obtain ⟨hok, hdirty⟩ := hdurable _ _ hturn
    refine ⟨fun hfd => ?_, fun hkey hrefuse => hdirty key hkey file hfile ?_⟩
    · by_contra hrefuse
      exact (hflushed _).1 (hok hresult) (hmem.2 ⟨hfd, eq_true_of_ne_false hrefuse⟩)
    · rw [hnew, hrefuse]
      exact List.mem_singleton_self _
  · rintro ⟨hok, hdirty⟩
    refine forall_turn hturn ⟨fun _ => (hflushed _).2 fun hfd => ?_,
      fun other hother file' hfile' hsync => ?_⟩
    · obtain ⟨hunsynced, hrefuse⟩ := hmem.1 hfd
      rw [hok hunsynced] at hrefuse
      cases hrefuse
    · by_cases heq : other = key
      · subst heq
        obtain rfl := Option.some.inj (hfile.symm.trans hfile')
        rw [hnew, List.mem_singleton] at hsync
        exact hdirty hother (by simpa using (Prod.mk.inj hsync).2)
      · exact hone.dirty other heq hother

end One

theorem flushFork_step {sys : Sys} {forkId : UInt16} (hs : Tracked s) :
    (Durable s (sys, .flushFork forkId) ↔ NoLostSync s (sys, .flushFork forkId)) ∧
      ∀ response s', s.turn (sys, .flushFork forkId) = some (response, s') → Tracked s' := by
  have hwp : Proc.wp False (perform sys 0 (.flushFork forkId)) (fun r v' =>
      r = .ok (success []) ∧ (s.volume.fileOf forkId = none → NothingSynced s.volume v') ∧
      ∀ key file, s.volume.forkRefToNodeId[forkId]? = some key →
        s.volume.openFile? key = some file → OneSynced sys s.volume key file v' ∧
          v'.openFile? key = some file ∧
            (sys.refuses (.sync file.fd) = true → key ∈ s.volume.dirtyForks →
              key ∈ v'.dirtyForks)) s.volume := by
    change Proc.wp _ (handleFlushFork sys forkId) _ _
    simp only [handleFlushFork, Proc.wp_bind, Proc.wp_attempt]
    exact Proc.wp_mono (syncFork_spec forkId s.volume) fun _ v' h => ⟨rfl, h⟩
  obtain ⟨hfalse, -⟩ | ⟨r, v', response, ⟨rfl, hnothing, hone⟩, rfl, hturn⟩ :=
    turn_cases (i := (sys, .flushFork forkId)) hwp
  · exact hfalse.elim
  rcases hfileOf : s.volume.fileOf forkId with _ | file
  · refine ⟨⟨fun _ file hfile => ?_, fun _ => durable_quiet (fun _ file hfile => ?_)
      (hnothing hfileOf).syncs hturn⟩, forall_turn hturn (hs.nothing rfl (hnothing hfileOf))⟩
    · rw [hfileOf] at hfile
      cases hfile
    · rw [hfileOf] at hfile
      cases hfile
  · obtain ⟨key, href, hfile⟩ := Option.bind_eq_some_iff.1 hfileOf
    obtain ⟨hsynced, hopen, hkey⟩ := hone key file href hfile
    refine ⟨?_, forall_turn hturn ?_⟩
    · rw [durable_one ?_ rfl hfile hsynced rfl hturn]
      · refine ⟨fun h file' hfile' => ?_, fun h => ⟨h file hfileOf, fun hdirty hrefuse =>
          hkey hrefuse hdirty⟩⟩
        obtain rfl := Option.some.inj (hfileOf.symm.trans hfile')
        exact h.1
      · intro unsynced
        simp only [Flushed, hfileOf, Option.some.injEq, forall_eq']
    · exact hs.one hfile hsynced rfl fun hdirty hrefuse => ⟨hkey hrefuse hdirty, hopen⟩

theorem closeFork_step {sys : Sys} {forkId : UInt16} (hs : Tracked s) :
    (Durable s (sys, .closeFork forkId) ↔ NoLostSync s (sys, .closeFork forkId)) ∧
      (NoLostSync s (sys, .closeFork forkId) → ∀ response s',
        s.turn (sys, .closeFork forkId) = some (response, s') → Tracked s') := by
  have hwp : Proc.wp False (perform sys 0 (.closeFork forkId)) (fun r v' =>
      (s.volume.fileOf forkId = none → NothingSynced s.volume v') ∧
      ∀ key file, s.volume.forkRefToNodeId[forkId]? = some key →
        s.volume.openFile? key = some file → r = .ok (success []) ∧
          OneSynced sys s.volume key file v' ∧ key ∉ v'.dirtyForks) s.volume := by
    change Proc.wp _ (handleCloseFork sys forkId) _ _
    simp only [handleCloseFork, Proc.wp_bind]
    refine Proc.wp_mono (closeFork_spec forkId s.volume) ?_
    rintro (e | _) v' ⟨hnothing, hone⟩
    · refine ⟨hnothing, fun key file href hfile => ?_⟩
      cases (hone key file href hfile).1
    · exact ⟨hnothing, fun key file href hfile => ⟨rfl, (hone key file href hfile).2⟩⟩
  obtain ⟨hfalse, -⟩ | ⟨r, v', response, ⟨hnothing, hone⟩, hr, hturn⟩ :=
    turn_cases (i := (sys, .closeFork forkId)) hwp
  · exact hfalse.elim
  rcases hfileOf : s.volume.fileOf forkId with _ | file
  · refine ⟨⟨fun _ key file href hfile => ?_, fun _ => durable_quiet (fun _ file hfile => ?_)
      (hnothing hfileOf).syncs hturn⟩,
      fun _ => forall_turn hturn (hs.nothing rfl (hnothing hfileOf))⟩
    · rw [fileOf, href, Option.bind_some, hfile] at hfileOf
      cases hfileOf
    · rw [hfileOf] at hfile
      cases hfile
  · obtain ⟨key, href, hfile⟩ := Option.bind_eq_some_iff.1 hfileOf
    obtain ⟨rfl, hsynced, hclean⟩ := hone key file href hfile
    obtain rfl := hr
    refine ⟨?_, fun hok => forall_turn hturn ?_⟩
    · rw [durable_one ?_ rfl hfile hsynced rfl hturn]
      · constructor
        · rintro ⟨hunsynced, hdirty⟩ key' file' href' hfile' hcovered
          obtain rfl := Option.some.inj (href.symm.trans href')
          obtain rfl := Option.some.inj (hfile.symm.trans hfile')
          rcases hcovered with hkey | hfd
          · exact eq_false_of_ne_true fun hrefuse => hclean (hdirty hkey hrefuse)
          · exact hunsynced hfd
        · intro hok
          refine ⟨fun hfd => hok key file href hfile (Or.inr hfd), fun hkey hrefuse => ?_⟩
          have hfalse := hok key file href hfile (Or.inl hkey)
          rw [hrefuse] at hfalse
          cases hfalse
      · intro unsynced
        simp only [Flushed, hfileOf, Option.some.injEq, forall_eq']
    · refine hs.one hfile hsynced rfl fun hdirty hrefuse => ?_
      have hfalse := hok key file href hfile (Or.inl hdirty)
      rw [hrefuse] at hfalse
      cases hfalse

/-- **One turn.**  Its answer holds exactly where no sync that it covers fails, and then what is
    unsynced is tracked. -/
theorem durable_step (hs : Tracked s) : (Durable s i ↔ NoLostSync s i) ∧
    (NoLostSync s i → ∀ s', step s i = some s' → Tracked s') := by
  have hstep : ∀ s', step s i = some s' → ∃ response, s.turn i = some (response, s') := by
    intro s' h
    obtain ⟨⟨response, s''⟩, hturn, rfl⟩ := Option.map_eq_some_iff.1 h
    exact ⟨response, hturn⟩
  obtain ⟨sys, req⟩ := i
  cases req with
  | write cmd written =>
    obtain ⟨hdurable, htracked⟩ := write_step hs
    exact ⟨⟨fun _ => trivial, fun _ => hdurable⟩,
      fun _ s' h => (hstep s' h).elim fun response hturn => htracked response s' hturn⟩
  | setForkParms cmd =>
    obtain ⟨hdurable, htracked⟩ := setForkParms_step hs
    exact ⟨⟨fun _ => trivial, fun _ => hdurable⟩,
      fun _ s' h => (hstep s' h).elim fun response hturn => htracked response s' hturn⟩
  | flush =>
    obtain ⟨hdurable, htracked⟩ := flush_step hs
    exact ⟨hdurable,
      fun _ s' h => (hstep s' h).elim fun response hturn => htracked response s' hturn⟩
  | flushFork forkId =>
    obtain ⟨hdurable, htracked⟩ := flushFork_step hs
    exact ⟨hdurable,
      fun _ s' h => (hstep s' h).elim fun response hturn => htracked response s' hturn⟩
  | closeFork forkId =>
    obtain ⟨hdurable, htracked⟩ := closeFork_step hs
    exact ⟨hdurable, fun hok s' h => (hstep s' h).elim fun response hturn =>
      htracked hok response s' hturn⟩

/-! ## Runs -/

theorem durable_run (o : Option Ledger) (ho : ∀ s, o = some s → Tracked s)
    (is : List (Sys × SyncRequest)) :
    Along (partialStep step) (Reached Durable) o is ↔
      Along (partialStep step) (Reached NoLostSync) o is := by
  induction is generalizing o with
  | nil => exact Iff.rfl
  | cons i is ih =>
    have hturn : Reached Durable o i ↔ Reached NoLostSync o i :=
      forall₂_congr fun s hs => (durable_step (ho s hs)).1
    have hnext : Reached NoLostSync o i → ∀ s', partialStep step o i = some s' → Tracked s' := by
      intro hok s' h
      obtain ⟨s, hs, hstep⟩ := Option.bind_eq_some_iff.1 h
      exact (durable_step (ho s hs)).2 (hok s hs) s' hstep
    simp only [Along, hturn]
    exact and_congr_right fun hok => ih _ (hnext hok)

/-- **Durability of writes.**  From any volume, with no change acknowledged so far, every answer of
    a run holds exactly if no sync fails that one of them covers. -/
theorem durable_iff (v : Volume) (is : List (Sys × SyncRequest)) :
    Along (partialStep step) (Reached Durable) (some ⟨v, []⟩) is ↔
      Along (partialStep step) (Reached NoLostSync) (some ⟨v, []⟩) is := by
  refine durable_run _ ?_ is
  intro s hs fd hfd
  obtain rfl := Option.some.inj hs
  cases hfd

end Ledger

/-! ## A flush that is not one -/

section

local instance : MacRoman := macintosh

/-- A file with its data fork open, as reference 1. -/
def oneForkVolume : Volume :=
  ((Volume.openFork .calm .data 0 3 ROOT_ID ["a".toList] (zeros 256)).after
    (.ofEntries [("a".toList, .file 2)])).getD (.ofEntries [])

/-- A byte is written, and the flush after it cannot sync the file. -/
def dryFlushRun : List (Sys × SyncRequest) :=
  [(.calm, .write ⟨1, 0, 1, false⟩ (some [7])), (.refusing (.sync 0), .flush)]

theorem dryFlushRun_not_durable : ¬ Along (partialStep Ledger.step) (Reached Ledger.Durable)
    (some ⟨oneForkVolume, []⟩) dryFlushRun := by
  rintro ⟨-, hflush, -⟩
  have hwritten : (Ledger.step ⟨oneForkVolume, []⟩
      (.calm, .write ⟨1, 0, 1, false⟩ (some [7]))).isSome = true := by decide +kernel
  obtain ⟨s, hs⟩ := Option.isSome_iff_exists.1 hwritten
  have hanswer : ((Ledger.step ⟨oneForkVolume, []⟩ (.calm, .write ⟨1, 0, 1, false⟩ (some [7]))).bind
      (·.turn (.refusing (.sync 0), .flush))).map (fun r => (r.1.result, r.2.unsynced)) =
        some (NO_ERROR, [0]) := by decide +kernel
  rw [hs, Option.bind_some] at hanswer
  obtain ⟨⟨response, s'⟩, hturn, heq⟩ := Option.map_eq_some_iff.1 hanswer
  obtain ⟨hresult, hleft⟩ := Prod.mk.inj heq
  rw [partialStep_some] at hflush
  have hempty : s'.unsynced = [] := (hflush s hs response s' hturn).1 hresult
  rw [hempty] at hleft
  cases hleft

end

end TailTalk
