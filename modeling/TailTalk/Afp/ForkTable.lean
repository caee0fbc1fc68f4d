/-
  The fork table — open references name open handles, one each.

  `open_fork` inserts the reference before it reads the parameters of the file,
  under a number that may be in use again, and `delete` looks at the data fork
  alone; `forks_sound` holds of the runs that stay clear of that.
-/
import TailTalk.Afp.OpenFiles
import TailTalk.Afp.Quiet
import TailTalk.Lib.Run

namespace TailTalk

open Lib

namespace Volume

/-! ## Operations that leave forks alone -/

/-- No node has an ID that is still to be given out. -/
def Fresh (v : Volume) : Prop := ∀ id : NodeId, v.nextId ≤ id → v.nodes[id]? = none

/-- The same handles and references, and the same number for the next one. -/
structure Unforked (v v' : Volume) : Prop where
  fresh : Fresh v'
  openFile : ∀ key, v'.openFile? key = v.openFile? key
  refs : v'.forkRefToNodeId = v.forkRefToNodeId
  next : v'.nextForkRefNum = v.nextForkRefNum

theorem Unforked.refl {v : Volume} (hv : Fresh v) : Unforked v v := ⟨hv, fun _ => rfl, rfl, rfl⟩

theorem Unforked.trans {v v' v'' : Volume} (h : Unforked v v') (h' : Unforked v' v'') :
    Unforked v v'' :=
  ⟨h'.fresh, fun key => (h'.openFile key).trans (h.openFile key), h'.refs.trans h.refs,
    h'.next.trans h.next⟩

/-- A change of other parts. -/
theorem Unforked.of_eq {v v' : Volume} (hv : Fresh v) (hnodes : v'.nodes = v.nodes)
    (hids : v.nextId ≤ v'.nextId) (hrefs : v'.forkRefToNodeId = v.forkRefToNodeId)
    (hnext : v'.nextForkRefNum = v.nextForkRefNum) : Unforked v v' where
  fresh := by
    intro id hid
    rw [hnodes]
    exact hv id (le_trans hids hid)
  openFile := fun key => by rw [openFile?, openFile?, hnodes]
  refs := hrefs
  next := hnext

theorem Unforked.insert {v v' : Volume} {node : Node} (hv : Fresh v)
    (hnode : ∀ forkType, node.fork forkType = none)
    (hnodes : v'.nodes = v.nodes.insert v.nextId node) (hids : v'.nextId = v.nextId + 1)
    (hrefs : v'.forkRefToNodeId = v.forkRefToNodeId)
    (hnext : v'.nextForkRefNum = v.nextForkRefNum) : Unforked v v' where
  fresh := by
    intro id hid
    have hlt : v.nextId < id := by
      rw [hids] at hid
      exact hid
    rw [hnodes, getElem?_insert_eq, if_neg (Nat.ne_of_gt hlt)]
    exact hv id (Nat.le_of_lt hlt)
  openFile := by
    intro key
    rw [openFile?, openFile?, hnodes, getElem?_insert_eq]
    split
    · rename_i heq
      rw [heq, hv v.nextId (Nat.le_refl _)]
      exact hnode key.2
    · rfl
  refs := hrefs
  next := hnext

theorem Unforked.mapNode {v : Volume} (hv : Fresh v) (id : NodeId) {f : Node → Node}
    (hf : ∀ node forkType, (f node).fork forkType = node.fork forkType) :
    Unforked v (mapNode id f v) where
  fresh := by
    intro other hother
    rw [getElem?_mapNode]
    split
    · rename_i heq
      rw [← heq, hv other hother, Option.map_none]
    · exact hv other hother
  openFile := by
    intro key
    rw [openFile?, openFile?, getElem?_mapNode]
    split
    · rename_i heq
      rw [heq]
      cases v.nodes[id]? with
      | none => rfl
      | some node => exact hf node key.2
    · rfl
  refs := rfl
  next := rfl

/-- A node without open forks taken away. -/
theorem Unforked.erase {v v' : Volume} {id : NodeId} (hv : Fresh v)
    (hnode : ∀ node, v.nodes[id]? = some node → ∀ forkType, node.fork forkType = none)
    (hnodes : v'.nodes = v.nodes.erase id) (hids : v'.nextId = v.nextId)
    (hrefs : v'.forkRefToNodeId = v.forkRefToNodeId)
    (hnext : v'.nextForkRefNum = v.nextForkRefNum) : Unforked v v' where
  fresh := by
    intro other hother
    rw [hnodes, getElem?_erase_eq]
    split
    · rfl
    · exact hv other (hids ▸ hother)
  openFile := by
    intro key
    rw [openFile?, openFile?, hnodes, getElem?_erase_eq]
    split
    · rename_i heq
      rcases hid : v.nodes[id]? with _ | node
      · rw [heq, hid, Option.bind_none]
      · rw [heq, hid]
        exact (hnode node hid key.2).symm
    · rfl
  refs := hrefs
  next := hnext

/-- A procedure that does nothing to open forks. -/
def Idle {α : Type} (m : Afp α) : Prop :=
  ∀ v, Fresh v → Proc.wp True m (fun _ v' => Unforked v v') v

/-- Nothing but a change of open forks changes the table. -/
theorem absorbs_unforked : Absorbs fun v v' => Fresh v → Unforked v v' where
  refl := fun _ hv => .refl hv
  trans := fun h h' hv => (h hv).trans (h' (h hv).fresh)
  disk := fun _ _ hv => .of_eq hv rfl le_rfl rfl rfl
  database := fun _ _ hv => .of_eq hv rfl le_rfl rfl rfl
  cache := fun _ _ hv => .of_eq hv rfl le_rfl rfl rfl
  paths := fun _ _ hv => .of_eq hv rfl le_rfl rfl rfl
  skip := fun _ hv => .of_eq hv rfl (Nat.le_succ _) rfl rfl
  register := fun _ _ _ hnode hv => .insert hv hnode rfl rfl rfl rfl
  node := fun _ id _ hf hv => .mapNode hv id hf

theorem Quiet.idle {α : Type} {m : Afp α} (hm : Quiet m) : Idle m := fun v hv =>
  Proc.wp_mono (hm _ absorbs_unforked v) fun _ _ h => h hv

/-! ## The table -/

/-- What the table says holds: references and open handles correspond. -/
structure ForksNamed (v : Volume) : Prop where
  opened : ∀ (r : UInt16) (id : NodeId) (forkType : ForkType),
    v.forkRefToNodeId[r]? = some (id, forkType) →
      ∃ node file, v.nodes[id]? = some node ∧ node.fork forkType = some file
  inj : ∀ (r r' : UInt16) (key : NodeId × ForkType), v.forkRefToNodeId[r]? = some key →
    v.forkRefToNodeId[r']? = some key → r = r'
  named : ∀ (id : NodeId) (node : Node) (forkType : ForkType) (file : Handle),
    v.nodes[id]? = some node → node.fork forkType = some file →
      ∃! r : UInt16, v.forkRefToNodeId[r]? = some (id, forkType)

/-- The invariant: with what the next references and nodes rest on. -/
structure Table (v : Volume) : Prop where
  fresh : Fresh v
  next : v.nextForkRefNum ≠ 0
  opened : ∀ (r : UInt16) key, v.forkRefToNodeId[r]? = some key →
    r ≠ 0 ∧ (v.openFile? key).isSome = true
  inj : ∀ (r r' : UInt16) key, v.forkRefToNodeId[r]? = some key →
    v.forkRefToNodeId[r']? = some key → r = r'
  named : ∀ key, (v.openFile? key).isSome = true → ∃ r : UInt16, v.forkRefToNodeId[r]? = some key

namespace Table

variable {v v' : Volume} {sys : Sys}

theorem forksNamed (h : Table v) : ForksNamed v where
  opened := by
    intro r id forkType hr
    obtain ⟨file, hfile⟩ := Option.isSome_iff_exists.1 (h.opened r _ hr).2
    obtain ⟨node, hnode, hfork⟩ := Option.bind_eq_some_iff.1 hfile
    exact ⟨node, file, hnode, hfork⟩
  inj := h.inj
  named := by
    intro id node forkType file hnode hfile
    obtain ⟨r, hr⟩ := h.named (id, forkType) (by simp [openFile?, hnode, hfile])
    exact ⟨r, hr, fun r' hr' => h.inj r' r _ hr' hr⟩

theorem of_same (h : Table v) (hfresh : Fresh v')
    (hopen : ∀ key, (v'.openFile? key).isSome = (v.openFile? key).isSome)
    (hrefs : v'.forkRefToNodeId = v.forkRefToNodeId)
    (hnext : v'.nextForkRefNum = v.nextForkRefNum) : Table v' where
  fresh := hfresh
  next := by
    rw [hnext]
    exact h.next
  opened := by
    intro r key hr
    rw [hrefs] at hr
    rw [hopen]
    exact h.opened r key hr
  inj := by
    rw [hrefs]
    exact h.inj
  named := by
    intro key hkey
    rw [hopen] at hkey
    rw [hrefs]
    exact h.named key hkey

theorem unforked (h : Table v) (h' : Unforked v v') : Table v' :=
  h.of_same h'.fresh (fun key => by rw [h'.openFile]) h'.refs h'.next

theorem keeps (h : Table v) (h' : KeepsFiles v v') : Table v' := by
  refine h.of_same (fun id hid => ?_) (fun key => ?_) h'.refs h'.next
  · have hnone := h.fresh id (h'.ids ▸ hid)
    have hknown := h'.known id
    rw [hnone] at hknown
    exact Option.not_isSome_iff_eq_none.1 (by rw [hknown]; exact Bool.false_ne_true)
  · rw [← Option.isSome_map (f := Handle.fd), h'.fds key, Option.isSome_map]

theorem closed {forkId : UInt16} {key : NodeId × ForkType} (h : Table v)
    (hkey : v.forkRefToNodeId[forkId]? = some key) (h' : Closed forkId key v v') : Table v' where
  fresh := by
    intro id hid
    have hknown := h'.known id
    rw [h.fresh id (h'.ids ▸ hid)] at hknown
    exact Option.not_isSome_iff_eq_none.1 (by rw [hknown]; exact Bool.false_ne_true)
  next := by
    rw [h'.next]
    exact h.next
  opened := by
    intro r other hr
    rw [h'.refs, getElem?_erase_eq] at hr
    split at hr
    · cases hr
    · rename_i hne
      obtain ⟨hzero, hopen⟩ := h.opened r other hr
      refine ⟨hzero, ?_⟩
      rw [h'.openFile, if_neg]
      · exact hopen
      · rintro rfl
        exact hne (h.inj r forkId other hr hkey)
  inj := by
    intro r r' other hr hr'
    rw [h'.refs, getElem?_erase_eq] at hr hr'
    split at hr
    · cases hr
    · split at hr'
      · cases hr'
      · exact h.inj r r' other hr hr'
  named := by
    intro other hother
    rw [h'.openFile] at hother
    split at hother
    · cases hother
    · rename_i hne
      obtain ⟨r, hr⟩ := h.named other hother
      refine ⟨r, ?_⟩
      rw [h'.refs, getElem?_erase_eq, if_neg]
      · exact hr
      · rintro rfl
        exact hne (Option.some.inj (hr.symm.trans hkey))

theorem nextForkRef_ne_zero (n : UInt16) : nextForkRef n ≠ 0 := by
  unfold nextForkRef
  split
  · decide
  · assumption

theorem open_under {key : NodeId × ForkType} (file : Handle) (h : Table v) (hfresh : Fresh v')
    (hclosed : v.openFile? key = none) (hfree : v.forkRefToNodeId[v.nextForkRefNum]? = none)
    (hopen : ∀ other, v'.openFile? other = if other = key then some file else v.openFile? other)
    (hrefs : v'.forkRefToNodeId = v.forkRefToNodeId.insert v.nextForkRefNum key)
    (hnext : v'.nextForkRefNum = nextForkRef v.nextForkRefNum) : Table v' where
  fresh := hfresh
  next := by
    rw [hnext]
    exact nextForkRef_ne_zero _
  opened := by
    intro r other hr
    rw [hrefs, getElem?_insert_eq] at hr
    rw [hopen]
    split at hr
    · rename_i heq
      obtain rfl := Option.some.inj hr
      rw [heq, if_pos rfl]
      exact ⟨h.next, rfl⟩
    · obtain ⟨hzero, hother⟩ := h.opened r other hr
      refine ⟨hzero, ?_⟩
      split
      · rfl
      · exact hother
  inj := by
    intro r r' other hr hr'
    rw [hrefs, getElem?_insert_eq] at hr hr'
    have hkey : ∀ r : UInt16, v.forkRefToNodeId[r]? ≠ some key := by
      intro r hr
      have hsome := (h.opened r key hr).2
      rw [hclosed] at hsome
      cases hsome
    split at hr
    · split at hr'
      · rename_i heq heq'
        exact heq.trans heq'.symm
      · exact absurd (hr'.trans hr.symm) (hkey r')
    · split at hr'
      · exact absurd (hr.trans hr'.symm) (hkey r)
      · exact h.inj r r' other hr hr'
  named := by
    intro other hother
    rw [hopen] at hother
    split at hother
    · rename_i heq
      exact ⟨v.nextForkRefNum, by rw [hrefs, getElem?_insert_eq, if_pos rfl, heq]⟩
    · obtain ⟨r, hr⟩ := h.named other hother
      refine ⟨r, ?_⟩
      rw [hrefs, getElem?_insert_eq, if_neg]
      · exact hr
      · rintro rfl
        rw [hfree] at hr
        cases hr

end Table

/-! ## Opening and deleting -/

section

variable {sys : Sys} {v v₁ v₂ : Volume}

/-- The same references and the same open handles. -/
structure SameForks (v v' : Volume) : Prop where
  refs : v'.forkRefToNodeId = v.forkRefToNodeId
  openFile : ∀ key, v'.openFile? key = v.openFile? key

theorem Unforked.sameForks (h : Unforked v v₁) : SameForks v v₁ := ⟨h.refs, h.openFile⟩

/-- Only the disk changes, and what could be looked at on it still can. -/
theorem openHandle_spec (forkType : ForkType) (node : Node) (v : Volume) :
    Proc.wp True (openHandle sys forkType node) (fun _ v' => ∃ d, v' = { v with disk := d } ∧
      ∀ other, Present sys v other → Present sys v' other) v := by
  cases forkType with
  | data =>
    exact ⟨_, rfl, fun other h => (Disk.extends_openFile node.hostPath v.disk).metadata h⟩
  | resource =>
    simp only [openHandle, openResourceFork, Proc.wp_bind]
    refine Proc.wp_mono (resolveResourceForkPath_spec (S := fun _ => True) trivial v) ?_
    rintro _ v₁ ⟨⟨len, rfl⟩, l, -, rfl⟩
    have hdirs : Disk.Extends _ (Disk.createDirAll sys _ _).2 :=
      Disk.extends_createDirAll (.sidecarParent node.path)
        { v.disk with touched := v.disk.touched ++ l }
    simp only [Proc.next_ok, Proc.wp_bind, wp_host]
    split
    · exact ⟨_, rfl, fun other h => (Disk.Extends.trans (.of_eq rfl rfl)
        (hdirs.trans (Disk.extends_openCreate (.sidecar node.path) _))).metadata h⟩
    · exact ⟨_, rfl, fun other h => (Disk.Extends.trans (.of_eq rfl rfl) hdirs).metadata h⟩

theorem openHandle_idle (forkType : ForkType) (node : Node) :
    Idle (openHandle sys forkType node) := by
  intro v hv
  refine Proc.wp_mono (openHandle_spec forkType node v) ?_
  rintro _ v' ⟨d, rfl, -⟩
  exact .of_eq hv rfl le_rfl rfl rfl

/-- The reference in a reply to `open_fork`. -/
def replyRef (out : Bytes) : UInt16 := readBe16 ((out.drop 2).take 2)

theorem replyRef_store {out out' : Bytes} {n : UInt16} (h : store out 2 (be16 n) = .ok out') :
    replyRef out' = n := by
  unfold store at h
  split at h
  · rename_i hlen
    obtain rfl := Except.ok.inj h
    have htwo : (out.take 2).length = 2 := by
      rw [List.length_take]
      rw [be16_length] at hlen
      omega
    have hdrop : (out.take 2 ++ be16 n ++ out.drop (2 + (be16 n).length)).drop 2 =
        be16 n ++ out.drop (2 + (be16 n).length) := by
      rw [List.append_assoc, List.drop_append, List.drop_eq_nil_of_le (le_of_eq htwo), htwo]
      rfl
    rw [replyRef, hdrop, List.take_append_of_le_length (le_of_eq (be16_length n).symm),
      ← List.append_nil (List.take 2 (be16 n))]
    exact readBe16_be16 n []
  · cases h

theorem replyRef_kept {out out' : Bytes} (h : KeptBelow out 4 out') : replyRef out' = replyRef out := by
  have hfront := congrArg (List.drop 2) h.front
  rw [List.drop_take, List.drop_take] at hfront
  rw [replyRef, replyRef]
  exact congrArg readBe16 hfront

/-- The volume with a handle open under the next reference. -/
def withRef (key : NodeId × ForkType) (file : Handle) (accessMode : UInt16) (v : Volume) : Volume :=
  { mapNode key.1 (·.setFork key.2 (some file)) v with
    nextForkRefNum := nextForkRef v.nextForkRefNum
    forkRefToNodeId := v.forkRefToNodeId.insert v.nextForkRefNum key
    forkAccess := v.forkAccess.insert v.nextForkRefNum accessMode
    forkPos := v.forkPos.insert v.nextForkRefNum 0 }

section
variable {key : NodeId × ForkType} {file : Handle} {accessMode : UInt16} {node : Node}

theorem wp_addHandle {α : Type} {P : Prop} {f : UInt16 → Afp α}
    {Q : Except AfpError α → Volume → Prop} {id : NodeId} {forkType : ForkType} :
    Proc.wp P (do
      setHandle id forkType (some file)
      let forkRefNum ← addForkRef id forkType accessMode
      f forkRefNum) Q v ↔
      Proc.wp P (f v.nextForkRefNum) Q (withRef (id, forkType) file accessMode v) := Iff.rfl

theorem table_withRef (h : Table v) (hnode : v.nodes[key.1]? = some node)
    (hclosed : v.openFile? key = none) (hfree : v.forkRefToNodeId[v.nextForkRefNum]? = none) :
    Table (withRef key file accessMode v) := by
  refine h.open_under file (fun other hother => ?_) hclosed hfree (fun other => ?_) rfl rfl
  · refine (getElem?_mapNode key.1 _ v other).trans ?_
    rw [h.fresh other hother]
    split
    · rename_i heq
      rw [← heq, h.fresh other hother, Option.map_none]
    · rfl
  · refine (openFile?_mapNode_setFork key other (some file)).trans ?_
    rw [hnode, Option.bind_some]

theorem registered?_withRef (key : NodeId × ForkType) (file : Handle) (accessMode : UInt16)
    {path : Path} (h : v.registered? path = some node) :
    ∃ node', (withRef key file accessMode v).registered? path = some node' ∧
      node'.hostPath = node.hostPath := by
  obtain ⟨other, hother, hnode⟩ := Option.bind_eq_some_iff.1 h
  have hnodes : (withRef key file accessMode v).registered? path =
      (v.pathToId[path]?).bind fun id => (mapNode key.1 (·.setFork key.2 (some file)) v).nodes[id]? :=
    rfl
  rw [hnodes, hother, Option.bind_some, getElem?_mapNode]
  by_cases heq : other = key.1
  · refine ⟨node.setFork key.2 (some file), ?_, ?_⟩
    · rw [if_pos heq, ← heq, hnode, Option.map_some]
    · cases key.2 <;> rfl
  · exact ⟨node, by rw [if_neg heq, hnode], rfl⟩

end

/-- Whether a procedure ends in a value. -/
def endsWell {α : Type} (m : Afp α) (v : Volume) : Bool :=
  match m v with
  | .ok (.ok _, _) => true
  | _ => false

theorem endsWell_iff {α : Type} {m : Afp α} : endsWell m v = true ↔ ∃ a v', m v = .ok (.ok a, v') := by
  unfold endsWell
  rcases m v with _ | ⟨_ | a, v'⟩
  · simp
  · simp
  · simp

instance (node : Node) : Decidable (Present sys v node) := inferInstanceAs (Decidable (_ = true))

variable [MacRoman]

/-- What a request names, as the lookup of it leaves the volume. -/
def Names (sys : Sys) (v : Volume) (dirId : NodeId) (path : Path) (id : NodeId) (node : Node)
    (v₁ : Volume) : Prop :=
  resolveNodeLazy sys dirId path v = .ok (.ok id, v₁) ∧ v₁.nodes[id]? = some node

theorem forall_names_iff {dirId : NodeId} {path : Path} {Q : NodeId → Node → Volume → Prop} :
    (∀ id node v₁, Names sys v dirId path id node v₁ → Q id node v₁) ↔
      match resolveNodeLazy sys dirId path v with
      | .ok (.ok id, v₁) => ∀ node ∈ v₁.nodes[id]?, Q id node v₁
      | _ => True := by
  unfold Names
  constructor
  · intro h
    split
    · rename_i id v₁ hlookup
      exact fun node hnode => h id node v₁ ⟨hlookup, hnode⟩
    · trivial
  · rintro h id node v₁ ⟨hlookup, hnode⟩
    rw [hlookup] at h
    exact h node hnode

instance {dirId : NodeId} {path : Path} {Q : NodeId → Node → Volume → Prop}
    [∀ id node v₁, Decidable (Q id node v₁)] :
    Decidable (∀ id node v₁, Names sys v dirId path id node v₁ → Q id node v₁) :=
  match hlookup : resolveNodeLazy sys dirId path v with
  | .ok (.ok id, v₁) => decidable_of_iff (∀ node ∈ v₁.nodes[id]?, Q id node v₁)
      (by rw [forall_names_iff, hlookup])
  | .ok (.error _, _) => isTrue (by rw [forall_names_iff, hlookup]; trivial)
  | .error _ => isTrue (by rw [forall_names_iff, hlookup]; trivial)

/-- The next number is not in use, and the parameters of the file can be read. -/
def Openable (sys : Sys) (forkType : ForkType) (dirId : NodeId) (path : Path) (v : Volume) : Prop :=
  ∀ id node v₁, Names sys v dirId path id node v₁ → node.fork forkType = none →
    endsWell (openHandle sys forkType node) v₁ = true →
      v₁.forkRefToNodeId[v₁.nextForkRefNum]? = none ∧
        ∃ node' ∈ v₁.registered? node.path, Present sys v₁ node'

/-- What can be deleted has no open fork. -/
def Deletable (sys : Sys) (dirId : NodeId) (path : Path) (v : Volume) : Prop :=
  ∀ id node v₁, Names sys v dirId path id node v₁ → id ≠ ROOT_ID →
    endsWell (deleteOnDisk sys node) v₁ = true → node.dataFork = none ∧ node.resourceFork = none

instance (forkType : ForkType) (dirId : NodeId) (path : Path) :
    Decidable (Openable sys forkType dirId path v) := inferInstanceAs (Decidable (∀ _ _ _, _ → _))

instance (dirId : NodeId) (path : Path) : Decidable (Deletable sys dirId path v) :=
  inferInstanceAs (Decidable (∀ _ _ _, _ → _))

theorem openFork_spec {forkType : ForkType} {bitmap : Bitmap} {accessMode : UInt16}
    {dirId : NodeId} {path : Path} {out : Bytes} (hv : Table v)
    (hok : Openable sys forkType dirId path v) :
    Proc.wp True (openFork sys forkType bitmap accessMode dirId path out) (fun r v' => Table v' ∧
      (∀ written, r = .ok written →
        replyRef written.1 ≠ 0 ∧ v.forkRefToNodeId[replyRef written.1]? = none) ∧
      (∀ e, r = .error e → SameForks v v')) v := by
  have hsame : ∀ {v' : Volume} {e : AfpError}, Unforked v v' → Table v' ∧
      (∀ written, (.error e : Except AfpError (Bytes × ℕ)) = .ok written →
        replyRef written.1 ≠ 0 ∧ v.forkRefToNodeId[replyRef written.1]? = none) ∧
      (∀ e', (.error e : Except AfpError (Bytes × ℕ)) = .error e' → SameForks v v') :=
    fun h => ⟨hv.unforked h, (by intro _ h; cases h), fun _ _ => h.sameForks⟩
  rw [openFork, Proc.wp_bind]
  refine Proc.wp_of ?_
  intro r v₁ hlookup
  have h₁ : Unforked v v₁ :=
    Proc.wp_ok hlookup ((resolveNodeLazy_quiet sys dirId path).idle v hv.fresh)
  rcases r with e | id
  · exact hsame h₁
  simp only [Proc.next_ok, Proc.wp_bind, getNode, Proc.wp_read, Proc.wp_orElse, Proc.next_error,
    Proc.wp_ite, Proc.wp_throw]
  refine ⟨fun node hnode => ⟨fun _ => hsame h₁, fun hbusy => ?_⟩, fun _ => hsame h₁⟩
  have hclosed : node.fork forkType = none := Option.not_isSome_iff_eq_none.1 hbusy
  refine Proc.wp_of ?_
  intro r v₂ hopen
  have h₂ : Unforked v v₂ :=
    h₁.trans (Proc.wp_ok hopen (openHandle_idle forkType node v₁ h₁.fresh))
  obtain ⟨d, rfl, hpresent⟩ := Proc.wp_ok hopen (openHandle_spec forkType node v₁)
  rcases r with e | file
  · exact hsame h₂
  obtain ⟨hfree, node', hnode', hpresent'⟩ :=
    hok id node v₁ ⟨hlookup, hnode⟩ hclosed (endsWell_iff.2 ⟨file, _, hopen⟩)
  have hv₂ := hv.unforked h₂
  have hclosed₂ : ({ v₁ with disk := d } : Volume).openFile? (id, forkType) = none := by
    rw [openFile?, hnode]
    exact hclosed
  rw [Proc.next_ok, wp_addHandle, Proc.wp_bind, Proc.wp_lift]
  refine ⟨fun out₁ hout₁ => ?_, fun _ => trivial⟩
  rw [Proc.next_ok, Proc.wp_bind, Proc.wp_lift]
  refine ⟨fun out₂ hout₂ => ?_, fun _ => trivial⟩
  rw [Proc.next_ok, Proc.wp_bind]
  refine Proc.wp_mono (getFileParmsResp_spec bitmap node.path (Or.inl trivial) _) ?_
  obtain ⟨node'', hnode'', hpath⟩ := registered?_withRef (id, forkType) file accessMode
    (v := { v₁ with disk := d }) hnode'
  rw [hnode'']
  rintro r v₃ ⟨⟨l, -, rfl⟩, hresp⟩
  obtain ⟨bytes, hbytes⟩ := exists_fileBlock bitmap
    (v := withRef (id, forkType) file accessMode { v₁ with disk := d }) (by
      rw [Present, hpath]
      exact hpresent node' hpresent')
  rw [hbytes] at hresp
  obtain ⟨⟨out₃, len⟩, rfl, hkept, -⟩ := hresp
  have htable : Table (withRef (id, forkType) file accessMode { v₁ with disk := d }) :=
    table_withRef hv₂ hnode hclosed₂ hfree
  refine ⟨htable.of_same htable.fresh (fun _ => rfl) rfl rfl, ?_, fun e he => ?_⟩
  swap
  · cases he
  intro written hwritten
  obtain rfl := Except.ok.inj hwritten
  rw [replyRef_kept hkept, replyRef_store hout₂]
  exact ⟨hv₂.next, (congrArg (·[v₁.nextForkRefNum]?) h₂.refs.symm).trans hfree⟩

omit [MacRoman] in
theorem deleteOnDisk_disk (node : Node) (v : Volume) :
    Proc.wp True (deleteOnDisk sys node) (fun _ v' => ∃ d, v' = { v with disk := d }) v := by
  unfold deleteOnDisk
  simp only [Proc.wp_ite, Proc.wp_bind, wp_host, Proc.wp_throw]
  refine ⟨fun _ => ?_, fun _ => ⟨fun _ => ⟨_, rfl⟩, fun _ => ⟨_, rfl⟩⟩⟩
  cases (Disk.readDir sys node.hostPath v.disk).1 with
  | none => exact ⟨_, rfl⟩
  | some names =>
    rw [Proc.next_ok, Proc.wp_ite]
    exact ⟨fun _ => ⟨_, rfl⟩, fun _ => ⟨_, rfl⟩⟩

omit [MacRoman] in
/-- The node goes, and never an open fork with it. -/
theorem forgetObject_unforked {id : NodeId} {node : Node} (hv : Fresh v)
    (hnode : ∀ node, v.nodes[id]? = some node → ∀ forkType, node.fork forkType = none) :
    Proc.wp True (forgetObject sys id node) (fun r v' => r = .ok () ∧ Unforked v v') v := by
  unfold forgetObject
  cases node.isDir with
  | false => exact ⟨rfl, .erase hv hnode rfl rfl rfl rfl⟩
  | true => exact ⟨rfl, .erase hv hnode rfl rfl rfl rfl⟩

theorem delete_spec {dirId : NodeId} {path : Name} (hv : Table v)
    (hok : Deletable sys dirId (afpPathToPosix path) v) :
    Proc.wp True (delete sys dirId path) (fun r v' => Table v' ∧
      (∀ e, r = .error e → SameForks v v')) v := by
  have hsame : ∀ {v' : Volume} {r : Except AfpError Unit}, Unforked v v' → Table v' ∧
      (∀ e, r = .error e → SameForks v v') := fun h => ⟨hv.unforked h, fun _ _ => h.sameForks⟩
  rw [delete, Proc.wp_bind]
  refine Proc.wp_of ?_
  intro r v₁ hlookup
  have h₁ : Unforked v v₁ := Proc.wp_ok hlookup ((resolveNodeLazy_quiet sys dirId _).idle v hv.fresh)
  rcases r with e | id
  · exact hsame h₁
  simp only [Proc.next_ok, Proc.wp_bind, getNode, Proc.wp_read, Proc.wp_orElse, Proc.next_error,
    Proc.wp_ite, Proc.wp_throw]
  refine ⟨fun _ => hsame h₁, fun hroot => ⟨fun node hnode => ?_, fun _ => hsame h₁⟩⟩
  refine Proc.wp_of ?_
  intro r v₂ hdeleted
  obtain ⟨d, rfl⟩ := Proc.wp_ok hdeleted (deleteOnDisk_disk node v₁)
  have h₂ : Unforked v { v₁ with disk := d } := h₁.trans (.of_eq h₁.fresh rfl le_rfl rfl rfl)
  rcases r with e | _
  · exact hsame h₂
  obtain ⟨hdata, hresource⟩ :=
    hok id node v₁ ⟨hlookup, hnode⟩ hroot (endsWell_iff.2 ⟨_, _, hdeleted⟩)
  rw [Proc.next_ok]
  refine Proc.wp_mono (forgetObject_unforked h₂.fresh ?_) fun r v' h => hsame (h₂.trans h.2)
  intro node' hnode'
  obtain rfl := Option.some.inj (hnode.symm.trans hnode')
  rintro (_ | _)
  · exact hdata
  · exact hresource

/-! ## Runs -/

/-- The operations that create, use and take away forks and nodes. -/
inductive ForkOp where
  | openFork (forkType : ForkType) (bitmap : Bitmap) (accessMode : UInt16) (dirId : NodeId)
    (relPath : Path) (out : Bytes)
  | closeFork (forkId : UInt16)
  | read (req : FPRead) (outLen : ℕ)
  | writeFork (forkId : UInt16) (offset : ℕ) (data : Bytes)
  | setForkParms (cmd : FPSetForkParms)
  | delete (directoryId : NodeId) (path : Name)
  | createFile (createFlag : CreateFlag) (directoryId : NodeId) (relativePath : Path)
  | moveAndRename (srcDirId dstDirId : NodeId) (srcPath dstPath : Path) (newName : Name)
  | copyFile (srcDirId : NodeId) (srcPath : Path) (dstDirId : NodeId) (dstPath : Path)
    (newName : Name)

/-- The operation, with the buffer that `open_fork` fills. -/
def ForkOp.perform (sys : Sys) : ForkOp → Afp Bytes
  | openFork forkType bitmap accessMode dirId relPath out =>
    Prod.fst <$> Volume.openFork sys forkType bitmap accessMode dirId relPath out
  | closeFork forkId => (fun _ => []) <$> Volume.closeFork sys forkId
  | read req outLen => Prod.fst <$> Volume.readFork sys req outLen
  | writeFork forkId offset data => (fun _ => []) <$> Volume.writeFork sys forkId offset data
  | setForkParms cmd => (fun _ => []) <$> Volume.setForkParms sys cmd
  | delete directoryId path => (fun _ => []) <$> Volume.delete sys directoryId path
  | createFile createFlag directoryId relativePath =>
    (fun _ => []) <$> Volume.createFile sys createFlag directoryId relativePath
  | moveAndRename srcDirId dstDirId srcPath dstPath newName =>
    (fun _ => []) <$> Volume.moveAndRename sys srcDirId dstDirId srcPath dstPath newName
  | copyFile srcDirId srcPath dstDirId dstPath newName =>
    (fun _ => []) <$> Volume.copyFile sys srcDirId srcPath dstDirId dstPath newName

namespace ForkOp

/-- The volume after an operation; none after a panic. -/
def step (v : Volume) (i : Sys × ForkOp) : Option Volume := (i.2.perform i.1).after v

/-- What an answer is to say: a new reference, or an error that left the forks alone. -/
def Answered (v : Volume) (op : ForkOp) (r : Except AfpError Bytes) (v' : Volume) : Prop :=
  match op with
  | .openFork .. =>
    (∀ out, r = .ok out → replyRef out ≠ 0 ∧ v.forkRefToNodeId[replyRef out]? = none) ∧
      ∀ e, r = .error e → SameForks v v'
  | .delete .. => ∀ e, r = .error e → SameForks v v'
  | _ => True

/-- The table is right after the operation, and so is the answer. -/
def Sound (v : Volume) (i : Sys × ForkOp) : Prop :=
  ∀ r v', i.2.perform i.1 v = .ok (r, v') → ForksNamed v' ∧ Answered v i.2 r v'

/-- Nothing is opened that cannot be answered, and nothing deleted that is open. -/
def Careful (v : Volume) (i : Sys × ForkOp) : Prop :=
  match i.2 with
  | .openFork forkType _ _ dirId relPath _ => Openable i.1 forkType dirId relPath v
  | .delete dirId path => Deletable i.1 dirId (afpPathToPosix path) v
  | _ => True

instance (v : Volume) (i : Sys × ForkOp) : Decidable (Careful v i) := by
  unfold Careful
  split <;> infer_instance

/-- **One operation.** -/
theorem perform_table {i : Sys × ForkOp} (hv : Table v) (hok : Careful v i) :
    Proc.wp True (i.2.perform i.1) (fun r v' => Table v' ∧ Answered v i.2 r v') v := by
  obtain ⟨sys, op⟩ := i
  have htable : ∀ {α : Type} {m : Afp α} {f : α → Bytes}
      {A : Except AfpError Bytes → Volume → Prop},
      Proc.wp True m (fun _ v' => Table v') v → (∀ r v', A r v') →
        Proc.wp True (f <$> m) (fun r v' => Table v' ∧ A r v') v :=
    fun hm hA => Proc.wp_mono (Proc.wp_map_state hm) fun r v' h => ⟨h, hA r v'⟩
  cases op with
  | openFork forkType bitmap accessMode dirId relPath out =>
    rw [perform, Proc.wp_map]
    refine Proc.wp_mono (openFork_spec hv hok) ?_
    rintro (e | written) v' ⟨htable, href, hsame⟩
    · exact ⟨htable, (fun _ h => nomatch h), fun _ _ => hsame e rfl⟩
    · refine ⟨htable, fun out h => ?_, fun _ h => nomatch h⟩
      obtain rfl := Except.ok.inj h
      exact href written rfl
  | closeFork forkId =>
    refine htable (Proc.wp_mono (Proc.wp_weaken (closeFork_closed forkId v)) ?_) fun _ _ => trivial
    rintro r v' (rfl | ⟨key, hkey, hclosed⟩)
    · exact hv
    · exact hv.closed hkey hclosed
  | read req outLen =>
    exact htable (Proc.wp_mono (Proc.wp_weaken (readFork_keeps req outLen v))
      fun _ _ => hv.keeps) fun _ _ => trivial
  | writeFork forkId offset data =>
    exact htable (Proc.wp_mono (Proc.wp_weaken (writeFork_keeps forkId offset data v))
      fun _ _ h => hv.keeps h.1) fun _ _ => trivial
  | setForkParms cmd =>
    exact htable (Proc.wp_mono (Proc.wp_weaken (setForkParms_keeps cmd v))
      fun _ _ h => hv.keeps h.1) fun _ _ => trivial
  | delete directoryId path =>
    rw [perform, Proc.wp_map]
    refine Proc.wp_mono (delete_spec hv hok) ?_
    rintro (e | _) v' ⟨htable, hsame⟩
    · exact ⟨htable, fun _ _ => hsame e rfl⟩
    · exact ⟨htable, fun _ h => nomatch h⟩
  | createFile createFlag directoryId relativePath =>
    exact htable (Proc.wp_mono ((createFile_quiet sys createFlag directoryId relativePath).idle v
      hv.fresh) fun _ _ => hv.unforked) fun _ _ => trivial
  | moveAndRename srcDirId dstDirId srcPath dstPath newName =>
    exact htable (Proc.wp_mono ((moveAndRename_quiet sys srcDirId dstDirId srcPath dstPath
      newName).idle v hv.fresh) fun _ _ => hv.unforked) fun _ _ => trivial
  | copyFile srcDirId srcPath dstDirId dstPath newName =>
    exact htable (Proc.wp_mono ((copyFile_quiet sys srcDirId srcPath dstDirId dstPath newName).idle
      v hv.fresh) fun _ _ => hv.unforked) fun _ _ => trivial

omit [MacRoman] in
theorem table_new (name : Name) (createdAt : UInt32) (volumeId : UInt16) (db : DesktopDatabase)
    (disk : Disk) : Table (Volume.new sys name createdAt volumeId db disk) := by
  have hopen : ∀ key, (Volume.new sys name createdAt volumeId db disk).openFile? key = none := by
    intro key
    rw [openFile?, getElem?_new]
    split_ifs
    · exact Node.fork_fresh _ _ _ _ _ _
    · exact Node.fork_fresh _ _ _ _ _ _
    · rfl
  refine ⟨fun id hid => ?_, (by decide : (1 : UInt16) ≠ 0), ?_, ?_, ?_⟩
  · have hlt : ROOT_ID < id := hid
    rw [getElem?_new, if_neg (Nat.ne_of_gt hlt), if_neg (Nat.ne_of_gt (Nat.lt_trans (by decide) hlt))]
  · intro r key hr
    simp [Volume.new] at hr
  · intro r r' key hr
    simp [Volume.new] at hr
  · intro key hkey
    rw [hopen] at hkey
    cases hkey

/-- **Every reference has its handle.** In every run from a new volume that opens nothing it cannot
    answer and deletes nothing that is open, the table is right, a reference that is handed out is
    new, and an error of `open_fork` or `delete` leaves the forks alone. -/
theorem forks_sound (sys : Sys) (name : Name) (createdAt : UInt32) (volumeId : UInt16)
    (db : DesktopDatabase) (disk : Disk) (ops : List (Sys × ForkOp))
    (hok : Along (partialStep step) (Reached Careful)
      (some (Volume.new sys name createdAt volumeId db disk)) ops) :
    Along (partialStep step) (Reached Sound)
        (some (Volume.new sys name createdAt volumeId db disk)) ops ∧
      ∀ v, run (partialStep step) (some (Volume.new sys name createdAt volumeId db disk)) ops =
        some v → ForksNamed v := by
  have hrun := @along_reached _ _ step Table Careful Sound ?_ ?_ _ ?_ _ hok
  · exact ⟨hrun.1, fun v hv => (hrun.2 v hv).forksNamed⟩
  · intro v i hv hcareful r v' h
    obtain ⟨htable, hanswered⟩ := Proc.wp_ok h (perform_table hv hcareful)
    exact ⟨htable.forksNamed, hanswered⟩
  · intro v i v' hv hcareful h
    obtain ⟨r, -, htable, -⟩ := Proc.wp_after h (perform_table hv hcareful)
    exact htable
  · intro v hv
    obtain rfl := Option.some.inj hv
    exact table_new name createdAt volumeId db disk

end ForkOp

end

/-! ## A reference to nothing -/

section

local instance : MacRoman := macintosh

/-- A file opened, written, closed and deleted. -/
def tidyRun : List (Sys × ForkOp) :=
  [(.calm, .openFork .data 0 3 ROOT_ID ["a".toList] (zeros 256)), (.calm, .writeFork 1 0 [7]),
    (.calm, .closeFork 1), (.calm, .delete ROOT_ID "a".toList)]

theorem forks_sound_tidyRun :
    Along (partialStep ForkOp.step) (Reached ForkOp.Sound)
        (some (.ofEntries [("a".toList, .file 2)])) tidyRun ∧
      ∀ v, run (partialStep ForkOp.step) (some (.ofEntries [("a".toList, .file 2)])) tidyRun = some v →
        ForksNamed v :=
  ForkOp.forks_sound .calm "Shared".toList 0 1 (.empty 1) (Disk.ofEntries [("a".toList, .file 2)]) tidyRun
    (by decide +kernel)

/-- The resource fork of a file is open when the file is deleted. -/
def danglingRun : List (Sys × ForkOp) :=
  [(.calm, .openFork .resource 0 3 ROOT_ID ["a".toList] (zeros 256)),
    (.calm, .delete ROOT_ID "a".toList)]

theorem danglingRun_not_named :
    ∃ v, run (partialStep ForkOp.step) (some (.ofEntries [("a".toList, .file 2)])) danglingRun = some v ∧
      ¬ ForksNamed v := by
  have hend : (run (partialStep ForkOp.step) (some (.ofEntries [("a".toList, .file 2)])) danglingRun).map
      (fun v => (v.forkRefToNodeId[(1 : UInt16)]?, v.nodes[3]?)) =
        some (some (3, .resource), none) := by decide +kernel
  obtain ⟨v, hv, heq⟩ := Option.map_eq_some_iff.1 hend
  obtain ⟨href, hnode⟩ := Prod.mk.inj heq
  refine ⟨v, hv, fun hnamed => ?_⟩
  obtain ⟨node, file, hnode', -⟩ := hnamed.opened 1 3 .resource href
  rw [hnode] at hnode'
  cases hnode'

end

end Volume

end TailTalk
