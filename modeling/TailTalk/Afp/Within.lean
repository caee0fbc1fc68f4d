/-
  Paths inside a volume — what keeps the paths that a volume works on made of
  ordinary components, and clear of the server's own directories.

  Client paths lose their `.` and `..` on the way in, new names do not.
  `Confines` and `Stays` say of a procedure that it keeps the invariant
  `Within`.
-/
import TailTalk.Afp.Blocks
import TailTalk.Afp.DiskFacts

namespace TailTalk

open Lib

/-! ## Paths -/

/-- A component that leads to one entry of a directory. -/
def Ordinary (name : Name) : Prop :=
  name ≠ [] ∧ name ≠ ['.'] ∧ name ≠ ['.', '.'] ∧ '/' ∉ name

instance (name : Name) : Decidable (Ordinary name) :=
  inferInstanceAs (Decidable (_ ∧ _ ∧ _ ∧ _))

/-- The path is below one of the server's own directories, or is one. -/
def Private (path : Path) : Prop := ∃ name ∈ path.head?, isPrivateName name = true

instance (path : Path) : Decidable (Private path) :=
  inferInstanceAs (Decidable (∃ name ∈ path.head?, isPrivateName name = true))

/-- A path of objects that clients may see. -/
structure Inside (path : Path) : Prop where
  ordinary : ∀ name ∈ path, Ordinary name
  visible : ¬ Private path

theorem inside_nil : Inside [] := ⟨(fun _ h => nomatch h), fun ⟨_, h, _⟩ => nomatch h⟩

theorem Inside.concat {path : Path} {name : Name} (h : Inside path) (hname : Ordinary name)
    (hprivate : isPrivateName name = false) : Inside (path ++ [name]) where
  ordinary := by
    intro other hother
    rcases List.mem_append.1 hother with hother | hother
    · exact h.ordinary other hother
    · exact List.mem_singleton.1 hother ▸ hname
  visible := by
    rintro ⟨other, hother, hp⟩
    cases path with
    | nil =>
      obtain rfl := Option.some.inj hother
      rw [hprivate] at hp
      cases hp
    | cons first rest => exact h.visible ⟨other, hother, hp⟩

/-- A path below one that is neither the root nor private. -/
theorem Inside.append {path rest : Path} (h : Inside path) (hrest : ∀ name ∈ rest, Ordinary name)
    (hvisible : ¬ Private (path ++ rest)) : Inside (path ++ rest) where
  ordinary := fun name hname =>
    (List.mem_append.1 hname).elim (h.ordinary name) (hrest name)
  visible := hvisible

theorem ordinary_of_valid {name : Name} (h : validFileName name = true) : Ordinary name := by
  simp only [validFileName, decide_eq_true_eq] at h
  exact ⟨h.1, h.2.1, h.2.2.1, h.2.2.2.1⟩

/-- What a slash becomes is neither empty nor a dot. -/
theorem ordinary_afpNameToPosixComponent {name : Name} (h : name ≠ []) (hdot : name ≠ ['.'])
    (hdots : name ≠ ['.', '.']) : Ordinary (afpNameToPosixComponent name) := by
  unfold afpNameToPosixComponent
  split
  · decide
  · have hchar : ∀ c : Char, (if c = '/' then ':' else c) = '.' → c = '.' := by
      intro c hc
      split at hc
      · exact absurd hc (by decide)
      · exact hc
    refine ⟨?_, ?_, ?_, ?_⟩
    · simpa [replace] using h
    · intro heq
      match name with
      | [] => exact h rfl
      | [c] =>
        refine hdot ?_
        rw [hchar c (by simpa [replace] using heq)]
      | _ :: _ :: _ => simp [replace] at heq
    · intro heq
      match name with
      | [] => exact h rfl
      | [c] => simp [replace] at heq
      | [c, e] =>
        refine hdots ?_
        obtain ⟨hc, he⟩ : (if c = '/' then ':' else c) = '.' ∧ (if e = '/' then ':' else e) = '.' := by
          simpa [replace] using heq
        rw [hchar c hc, hchar e he]
      | _ :: _ :: _ :: _ => simp [replace] at heq
    · intro hmem
      obtain ⟨c, -, hc⟩ := List.mem_map.1 hmem
      split at hc
      · exact absurd hc (by decide)
      · rename_i hne
        exact hne hc

/-- **Client paths are made of ordinary components.** -/
theorem ordinary_afpPathToPosix {path : Name} {name : Name} (h : name ∈ afpPathToPosix path) :
    Ordinary name := by
  obtain ⟨component, hcomponent, rfl⟩ := List.mem_map.1 h
  have hkeep := (List.mem_filter.1 hcomponent).2
  simp only [decide_eq_true_eq] at hkeep
  exact ordinary_afpNameToPosixComponent hkeep.1 hkeep.2.1 hkeep.2.2

/-- A path that a volume may hand to the system. -/
def Allowed : HostPath → Prop
  | .object rel _ | .sidecar rel | .sidecarParent rel => Inside rel
  | .tailtalk | .appleDesktop => True

theorem Allowed.ordinary {p : HostPath} (h : Allowed p) : ∀ name ∈ p.comps, Ordinary name := by
  have hown : ∀ rel : Path, Inside rel → ∀ name ∈ TAILTALK :: RSRC :: rel, Ordinary name := by
    intro rel hrel name hname
    rcases List.mem_cons.1 hname with rfl | hname
    · decide
    · rcases List.mem_cons.1 hname with rfl | hname
      · decide
      · exact hrel.ordinary name hname
  cases p with
  | object rel slash => exact Inside.ordinary h
  | sidecar rel => exact hown rel h
  | sidecarParent rel => exact fun name hname => hown rel h name (List.mem_of_mem_dropLast hname)
  | tailtalk => exact fun name hname => List.mem_singleton.1 hname ▸ (by decide)
  | appleDesktop => exact fun name hname => List.mem_singleton.1 hname ▸ (by decide)

namespace Volume

/-- A disk that only such paths were looked for on. -/
structure DiskWithin (d : Disk) : Prop where
  valid : Disk.Valid d
  touched : ∀ p ∈ d.touched, Allowed p

theorem DiskWithin.touches {d d' : Disk} (h : DiskWithin d) (h' : Disk.Touches Allowed d d') :
    DiskWithin d' :=
  ⟨h'.valid h.valid, fun p hp => (h'.touched p hp).elim (h.touched p) id⟩

/-- A node under a path that clients may see; only a directory at the top may have a name of no
    file. -/
structure NodeWithin (id : NodeId) (node : Node) : Prop where
  path : Inside node.path
  name : id ≤ ROOT_ID ∧ node.isDir = true ∨ Ordinary (afpNameToPosixComponent node.name)

/-- The invariant. -/
structure Within (v : Volume) : Prop where
  disk : DiskWithin v.disk
  nodes : ∀ (id : NodeId) node, v.nodes[id]? = some node → NodeWithin id node
  cache : ∀ (id : NodeId) entries, v.enumCache[id]? = some entries →
    ∀ e ∈ entries, Ordinary e.1 ∧ isPrivateName e.1 = false

theorem Within.of_eq {v v' : Volume} (h : Within v) (hdisk : v'.disk = v.disk)
    (hnodes : v'.nodes = v.nodes) (hcache : v'.enumCache = v.enumCache) : Within v' where
  disk := hdisk ▸ h.disk
  nodes := hnodes ▸ h.nodes
  cache := hcache ▸ h.cache

theorem Within.withDisk {v : Volume} {d : Disk} (h : Within v) (hd : DiskWithin d) :
    Within { v with disk := d } := ⟨hd, h.nodes, h.cache⟩

theorem Within.insert {v v' : Volume} {id : NodeId} {node : Node} (h : Within v)
    (hnode : NodeWithin id node) (hdisk : v'.disk = v.disk)
    (hnodes : v'.nodes = v.nodes.insert id node) (hcache : v'.enumCache = v.enumCache) :
    Within v' where
  disk := hdisk ▸ h.disk
  nodes := by
    intro other node' h'
    rw [hnodes, getElem?_insert_eq] at h'
    split at h'
    · rename_i heq
      obtain rfl := Option.some.inj h'
      exact heq ▸ hnode
    · exact h.nodes other node' h'
  cache := hcache ▸ h.cache

theorem Within.mapNode {v : Volume} {id : NodeId} {f : Node → Node} (h : Within v)
    (hf : ∀ node, NodeWithin id node → NodeWithin id (f node)) : Within (mapNode id f v) where
  disk := h.disk
  nodes := by
    intro other node h'
    rw [getElem?_mapNode] at h'
    split at h'
    · rename_i heq
      obtain ⟨node', hnode', rfl⟩ := Option.map_eq_some_iff.1 h'
      exact heq ▸ hf node' (h.nodes id node' hnode')
    · exact h.nodes other node h'
  cache := h.cache

/-! ## Operations that stay inside -/

/-- A procedure that stays within the volume and returns values of this kind. -/
def Confines {α : Type} (G : α → Prop) (m : Afp α) : Prop :=
  ∀ v, Within v → Proc.wp True m (fun r v' => Within v' ∧ ∀ a, r = .ok a → G a) v

/-- Any value will do. -/
abbrev Stays {α : Type} (m : Afp α) : Prop := Confines (fun _ => True) m

namespace Confines

variable {α β : Type} {G : α → Prop} {H : β → Prop} {m : Afp α} {f : α → Afp β}

theorem bind (hm : Confines G m) (hf : ∀ a, G a → Confines H (f a)) : Confines H (m >>= f) := by
  intro v hv
  rw [Proc.wp_bind]
  refine Proc.wp_mono (hm v hv) ?_
  rintro (e | a) v' ⟨hv', ha⟩
  · exact ⟨hv', fun _ h => nomatch h⟩
  · exact hf a (ha a rfl) v' hv'

theorem within {v : Volume} (hm : Stays m) (hv : Within v) :
    Proc.wp True m (fun _ v' => Within v') v :=
  Proc.wp_mono (hm v hv) fun _ _ h => h.1

theorem pure {a : α} (ha : G a) : Confines G (Pure.pure a : Afp α) := fun _ hv =>
  ⟨hv, fun _ h => Except.ok.inj h ▸ ha⟩

theorem throw (e : AfpError) : Confines G (Proc.throw e : Afp α) := fun _ hv =>
  ⟨hv, fun _ h => nomatch h⟩

theorem read : Confines Within Proc.read := fun _ hv => ⟨hv, fun _ h => Except.ok.inj h ▸ hv⟩

theorem orElse {o : Option α} {e : AfpError} (ho : ∀ a, o = some a → G a) :
    Confines G (Proc.orElse o e) := by
  intro v hv
  rw [Proc.wp_orElse]
  refine ⟨fun a ha => ⟨hv, fun _ h => Except.ok.inj h ▸ ho a ha⟩, fun _ => ⟨hv, ?_⟩⟩
  intro a h
  cases h

theorem ofExcept (x : Except AfpError α) : Stays (Proc.ofExcept x : Afp α) := fun _ hv =>
  ⟨hv, fun _ _ => trivial⟩

theorem lift (x : Checked α) : Stays (Proc.lift x : Afp α) := by
  intro v hv
  rw [Proc.wp_lift]
  exact ⟨fun _ _ => ⟨hv, fun _ _ => trivial⟩, fun _ => trivial⟩

theorem host {e : AfpError} {call : Host α} (hcall : ∀ d, Disk.Touches Allowed d (call d).2) :
    Stays (TailTalk.host e call) := fun v hv =>
  ⟨hv.withDisk (hv.disk.touches (hcall v.disk)), fun _ _ => trivial⟩

theorem tryHost {call : Host α} (hcall : ∀ d, Disk.Touches Allowed d (call d).2) :
    Stays (TailTalk.tryHost call) := fun v hv =>
  ⟨hv.withDisk (hv.disk.touches (hcall v.disk)), fun _ _ => trivial⟩

theorem database (call : Db α) : Stays (TailTalk.database call) := fun _ hv =>
  ⟨hv.of_eq rfl rfl rfl, fun _ _ => trivial⟩

theorem tryDatabase (call : Db α) : Stays (TailTalk.tryDatabase call) := fun _ hv =>
  ⟨hv.of_eq rfl rfl rfl, fun _ _ => trivial⟩

theorem modify {f : Volume → Volume} (hf : ∀ v, Within v → Within (f v)) :
    Stays (Proc.modify f) := fun v hv => ⟨hf v hv, fun _ _ => trivial⟩

theorem attempt (hm : Confines G m) : Stays (Proc.attempt m) := by
  intro v hv
  rw [Proc.wp_attempt]
  exact Proc.wp_mono (hm v hv) fun _ _ h => ⟨h.1, fun _ _ => trivial⟩

theorem ite {c : Prop} [Decidable c] {m' : Afp α} (hm : c → Confines G m)
    (hm' : ¬ c → Confines G m') : Confines G (if c then m else m') := by
  split
  · exact hm ‹_›
  · exact hm' ‹_›

theorem each {as : List α} {g : α → Afp Unit} (hg : ∀ a ∈ as, Stays (g a)) :
    Stays (Proc.each g as) := by
  intro v hv
  have hall : Proc.wp True (Proc.each g as) (fun _ v' => Within v') v :=
    Proc.wp_each (fun a ha v' hv' => (hg a ha).within hv') hv
  exact Proc.wp_mono hall fun _ _ hv' => ⟨hv', fun _ _ => trivial⟩

end Confines

section

variable {sys : Sys}

/-! ## Nodes and lookups -/

theorem getNode_confines (id : NodeId) : Confines (NodeWithin id) (getNode id) :=
  .bind .read fun _ hv => .orElse fun node hnode => hv.nodes id node hnode

theorem updateNode_stays {id : NodeId} {f : Node → Node}
    (hf : ∀ node, NodeWithin id node → NodeWithin id (f node)) : Stays (updateNode id f) :=
  .modify fun _ hv => hv.mapNode hf

theorem unwrapNode_stays {id : NodeId} {f : Node → Node}
    (hf : ∀ node, NodeWithin id node → NodeWithin id (f node)) : Stays (unwrapNode id f) :=
  .bind .read fun _ _ => .ite (fun _ => updateNode_stays hf) fun _ => .lift _

theorem readDir_confines {e : AfpError} {p : HostPath} (hp : Allowed p) :
    Confines (fun names => ∀ name ∈ names, Ordinary name) (host e (Disk.readDir sys p)) := by
  intro v hv
  refine ⟨hv.withDisk (hv.disk.touches (Disk.touches_readDir hp v.disk)), fun names h => ?_⟩
  have hnames : (Disk.readDir sys p v.disk).1 = some names := by
    rcases hread : (Disk.readDir sys p v.disk).1 with _ | names'
    · rw [hread] at h
      cases h
    · rw [hread] at h
      rw [Except.ok.inj h]
  unfold Disk.readDir at hnames
  dsimp only at hnames
  split at hnames
  · cases hnames
  · obtain rfl := Option.some.inj hnames
    exact fun name hname => ordinary_of_valid (hv.disk.valid.names hname)

theorem fileType_stays {e : AfpError} {p : HostPath} : Stays (host e (Disk.fileType sys p)) :=
  .host fun d => Disk.touches_fileType d

/-- The name of a node that stands for an entry of a directory. -/
theorem nodeWithin_fresh {id parentId : NodeId} {name : Name} {isDir : Bool} {path : Path}
    (hpath : Inside path) (hname : Ordinary name) :
    NodeWithin id (.fresh id parentId (posixNameToAfp name) isDir path) := by
  refine ⟨hpath, Or.inr ?_⟩
  show Ordinary (afpNameToPosixComponent (posixNameToAfp name))
  rw [afpNameToPosixComponent_posixNameToAfp hname.2.2.2]
  exact hname

variable [MacRoman]

theorem registerMangle_stays (afpName posixName : Name) : Stays (registerMangle sys afpName posixName) :=
  .modify fun _ hv => hv.of_eq rfl rfl rfl

omit [MacRoman] in
theorem insertNode_stays {node : Node} (hnode : NodeWithin node.id node) : Stays (insertNode node) :=
  .modify fun _ hv => hv.insert hnode rfl rfl rfl

omit [MacRoman] in
theorem freshId_stays : Stays freshId :=
  .bind .read fun _ _ => .ite
    (fun _ => .bind (.modify fun _ hv => hv.of_eq rfl rfl rfl) fun _ _ => .pure trivial)
    fun _ => .lift _

omit [MacRoman] in
theorem clearEnumCache_stays : Stays clearEnumCache := .modify fun v hv =>
  ⟨hv.disk, hv.nodes, fun id entries h => by simp at h⟩

theorem populateEntry_stays {dirId : NodeId} {dirPath : Path} {name : Name}
    (hpath : Inside dirPath) (hname : Ordinary name) :
    Stays (populateEntry sys dirId dirPath name) := by
  refine .bind .read fun v _ => .ite (fun _ => .pure trivial) fun hnew => ?_
  simp only [Bool.or_eq_true, not_or, Bool.not_eq_true] at hnew
  exact .bind fileType_stays fun isDir _ => .bind freshId_stays fun newId _ =>
    .bind (insertNode_stays (nodeWithin_fresh (hpath.concat hname hnew.1) hname)) fun _ _ =>
      registerMangle_stays _ _

theorem ensureDirPopulated_stays (dirId : NodeId) : Stays (ensureDirPopulated sys dirId) :=
  .bind (getNode_confines dirId) fun _ hnode =>
    .bind (readDir_confines (p := .object _ _) hnode.path) fun _ hnames =>
      .each fun name hname => populateEntry_stays hnode.path (hnames name hname)

theorem resolveNodeLazy_stays (directoryId : NodeId) (pathName : Path) :
    Stays (resolveNodeLazy sys directoryId pathName) := by
  refine .bind .read fun v _ => ?_
  split
  · exact .pure trivial
  · exact .ite (fun _ => .bind (.attempt (ensureDirPopulated_stays _)) fun _ _ =>
      .bind .read fun _ _ => .ofExcept _) fun _ => .bind .read fun _ _ => .ofExcept _

/-! ## Objects -/

theorem registerObject_stays {directoryId : NodeId} {isDir : Bool} {fullPath : Path}
    {onDiskName : Option Name} (hpath : Inside fullPath)
    (hname : ∀ name, onDiskName = some name → Ordinary name) :
    Stays (registerObject sys directoryId isDir fullPath onDiskName) :=
  .bind freshId_stays fun _ _ => .bind (.orElse hname) fun _ hname =>
    .bind (insertNode_stays (nodeWithin_fresh hpath hname)) fun _ _ =>
      .bind (registerMangle_stays _ _) fun _ _ => .bind clearEnumCache_stays fun _ _ => .pure trivial

/-- The full path that a request to create something names is none of the server's. -/
def CreatesInside (v : Volume) (directoryId : NodeId) (path : Path) : Prop :=
  ∀ parent ∈ v.nodes[directoryId]?, ¬ Private (parent.path ++ path)

instance (v : Volume) (directoryId : NodeId) (path : Path) :
    Decidable (CreatesInside v directoryId path) :=
  inferInstanceAs (Decidable (∀ parent ∈ v.nodes[directoryId]?, _))

section
variable {v : Volume} {directoryId : NodeId} {path : Path}

omit [MacRoman] in
theorem CreatesInside.inside (h : CreatesInside v directoryId path) (hv : Within v)
    (hpath : ∀ name ∈ path, Ordinary name) {parent : Node}
    (hparent : v.nodes[directoryId]? = some parent) : Inside (parent.path ++ path) :=
  (hv.nodes _ _ hparent).path.append hpath (h parent hparent)

theorem createDir_within (hv : Within v) (hproper : CreatesInside v directoryId path)
    (hpath : ∀ name ∈ path, Ordinary name) :
    Proc.wp True (createDir sys directoryId path) (fun _ v' => Within v') v := by
  rw [createDir, Proc.wp_bind, getNode, Proc.wp_bind, Proc.wp_read, Proc.next_ok, Proc.wp_orElse]
  refine ⟨fun parent hparent => ?_, fun _ => hv⟩
  have hfull := hproper.inside hv hpath hparent
  have hregister : Stays (registerObject sys directoryId true (parent.path ++ path) path.getLast?) :=
    registerObject_stays hfull fun name hname => hpath name (List.mem_of_getLast? hname)
  refine Confines.within (.bind (.tryHost fun d => Disk.touches_metadata hfull d)
    fun there _ => ?_) hv
  split
  · refine .bind (.host fun d => Disk.touches_createDir hfull d) fun _ _ => .bind .read fun w _ => ?_
    split
    · exact .pure trivial
    · exact hregister
  · refine .bind .read fun w _ => ?_
    split
    · exact .pure trivial
    · exact hregister

theorem createFile_within {flag : CreateFlag} (hv : Within v)
    (hproper : CreatesInside v directoryId path) (hpath : ∀ name ∈ path, Ordinary name) :
    Proc.wp True (createFile sys flag directoryId path) (fun _ v' => Within v') v := by
  rw [createFile, Proc.wp_bind, getNode, Proc.wp_bind, Proc.wp_read, Proc.next_ok, Proc.wp_orElse]
  refine ⟨fun parent hparent => ?_, fun _ => hv⟩
  have hfull := hproper.inside hv hpath hparent
  have hcreate : Stays (do
      host .accessDenied (Disk.create sys (.object (parent.path ++ path) path.isEmpty))
      registerObject sys directoryId false (parent.path ++ path) (parent.path ++ path).getLast?) :=
    .bind (.host fun d => Disk.touches_create hfull d) fun _ _ =>
      registerObject_stays hfull fun name hname => hfull.ordinary name (List.mem_of_getLast? hname)
  refine Confines.within (.bind (.tryHost fun d => Disk.touches_metadata hfull d)
    fun there _ => ?_) hv
  split
  · cases flag with
    | soft => exact .bind (G := fun _ => True) (.throw _) fun _ _ => hcreate
    | hard => exact .bind (.host fun d => Disk.touches_removeFile hfull d) fun _ _ => hcreate
  · exact hcreate

end

/-- What is known of a plan; its destination may still be no path for clients. -/
structure PlanWithin (newName : Name) (plan : Transfer) : Prop where
  src : Inside plan.srcPath
  dst : ∃ dir, Inside dir ∧ plan.newPath = dir ++ [plan.posixName]
  name : plan.posixName = afpNameToPosixComponent plan.afpName
  kept : plan.afpName = newName ∧ newName ≠ [] ∨ Ordinary plan.posixName

omit [MacRoman] in
/-- Only the root and its parent have a name that is none of a file. -/
theorem planWithin_transferTo {src dst : Node} {srcId dstId : NodeId} {newName : Name}
    (hsrc : NodeWithin srcId src) (hdst : NodeWithin dstId dst)
    (hroot : ¬ (srcId ≤ ROOT_ID ∧ src.isDir = true)) :
    PlanWithin newName (transferTo src dst srcId dstId newName) := by
  refine ⟨hsrc.path, ⟨dst.path, hdst.path, rfl⟩, rfl, ?_⟩
  simp only [transferTo]
  split
  · exact Or.inr (hsrc.name.resolve_left hroot)
  · exact Or.inl ⟨rfl, ‹_›⟩

/-- What a move or a copy would do, as things are. -/
def planned (m : Afp Transfer) (v : Volume) : Option Transfer :=
  match m v with
  | .ok (.ok plan, _) => some plan
  | _ => none

/-- The new name has no `.` or `..`, and at the top of the volume it is none of the server's. -/
def ProperName (newName : Name) (m : Afp Transfer) (v : Volume) : Prop :=
  ∀ plan ∈ planned m v, newName ≠ ['.'] ∧ newName ≠ ['.', '.'] ∧
    (plan.newPath = [plan.posixName] → isPrivateName plan.posixName = false)

instance (newName : Name) (m : Afp Transfer) (v : Volume) : Decidable (ProperName newName m v) :=
  inferInstanceAs (Decidable (∀ plan ∈ planned m v, _ ∧ _ ∧ _))

omit [MacRoman] in
theorem PlanWithin.inside {plan : Transfer} {newName : Name} {m : Afp Transfer} {v v₁ : Volume}
    (h : PlanWithin newName plan) (hproper : ProperName newName m v)
    (hplan : m v = .ok (.ok plan, v₁)) : Inside plan.newPath := by
  obtain ⟨dir, hdir, hnew⟩ := h.dst
  have hplanned : plan ∈ planned m v := by
    rw [planned, hplan]
    rfl
  obtain ⟨hdot, hdots, htop⟩ := hproper plan hplanned
  have hordinary : Ordinary plan.posixName := by
    rcases h.kept with ⟨hafp, hne⟩ | hordinary
    · rw [h.name, hafp]
      exact ordinary_afpNameToPosixComponent hne hdot hdots
    · exact hordinary
  rw [hnew]
  refine hdir.append (fun _ hname => List.mem_singleton.1 hname ▸ hordinary) ?_
  rintro ⟨name, hname, hprivate⟩
  cases dir with
  | nil =>
    obtain rfl := Option.some.inj hname
    rw [htop hnew] at hprivate
    cases hprivate
  | cons first dir => exact hdir.visible ⟨name, hname, hprivate⟩

omit [MacRoman] in
theorem PlanWithin.nameWithin {newName : Name} {plan : Transfer} (h : PlanWithin newName plan)
    (hnew : Inside plan.newPath) : Ordinary (afpNameToPosixComponent plan.afpName) := by
  obtain ⟨dir, -, hdir⟩ := h.dst
  rw [← h.name]
  exact hnew.ordinary _ (hdir ▸ List.mem_append_right _ (List.mem_singleton_self _))

omit [MacRoman] in
/-- Below the destination. -/
theorem PlanWithin.below {newName : Name} {plan : Transfer} (h : PlanWithin newName plan)
    (hnew : Inside plan.newPath) {rest : Path} (hrest : ∀ name ∈ rest, Ordinary name) :
    Inside (plan.newPath ++ rest) := by
  obtain ⟨dir, -, hdir⟩ := h.dst
  refine hnew.append hrest ?_
  rintro ⟨name, hname, hprivate⟩
  refine hnew.visible ⟨name, ?_, hprivate⟩
  rw [hdir] at hname ⊢
  cases dir with
  | nil => exact hname
  | cons first dir => exact hname

theorem planMove_confines (srcDirId dstDirId : NodeId) (srcPath dstPath : Path) (newName : Name) :
    Confines (PlanWithin newName) (planMove sys srcDirId dstDirId srcPath dstPath newName) :=
  .bind (resolveNodeLazy_stays _ _) fun _ _ => .ite (fun _ => .throw _) fun hroot =>
    .bind (resolveNodeLazy_stays _ _) fun _ _ => .bind (getNode_confines _) fun _ hsrc =>
      .bind (getNode_confines _) fun _ hdst => .ite (fun _ => .throw _) fun _ =>
        .bind .read fun _ _ => .ite (fun _ => .throw _) fun _ =>
          .pure (planWithin_transferTo hsrc hdst fun h => hroot h.1)

theorem planCopy_confines (srcDirId : NodeId) (srcPath : Path) (dstDirId : NodeId) (dstPath : Path)
    (newName : Name) :
    Confines (PlanWithin newName) (planCopy sys srcDirId srcPath dstDirId dstPath newName) :=
  .bind (resolveNodeLazy_stays _ _) fun _ _ => .bind (getNode_confines _) fun _ hsrc =>
    .ite (fun _ => .throw _) fun hfile => .bind (resolveNodeLazy_stays _ _) fun _ _ =>
      .bind (getNode_confines _) fun _ hdst => .ite (fun _ => .throw _) fun _ =>
        .bind .read fun _ _ => .ite (fun _ => .throw _) fun _ =>
          .pure (planWithin_transferTo hsrc hdst fun h => hfile h.2)

section
variable {newName : Name} {plan : Transfer} (hplan : PlanWithin newName plan) (hnew : Inside plan.newPath)
include hplan hnew

omit [MacRoman] in
theorem moveSidecar_stays : Stays (moveSidecar sys plan) := by
  refine .bind (.tryHost fun d => Disk.touches_metadata (p := .sidecar plan.srcPath) hplan.src d)
    fun there _ => ?_
  split
  · exact .bind (.tryHost fun d => Disk.touches_rename (p := .sidecar plan.srcPath)
      (q := .sidecar plan.newPath) hplan.src hnew d) fun _ _ => .pure trivial
  · exact .pure trivial

omit [MacRoman] in
theorem moveNode_stays : Stays (moveNode plan) :=
  .bind (.modify fun _ hv => hv.of_eq rfl rfl rfl) fun _ _ =>
    unwrapNode_stays fun _ _ => ⟨hnew, Or.inr (hplan.nameWithin hnew)⟩

omit [MacRoman] in
theorem moveChildren_stays : Stays (moveChildren sys plan) := by
  refine .bind .read fun v hv => .each fun child hchild => ?_
  obtain ⟨e, he, rfl⟩ := List.mem_map.1 hchild
  have hnode : v.nodes[e.1]? = some e.2 :=
    Std.TreeMap.mem_toList_iff_getElem?_eq_some.1 (List.mem_of_mem_filter he)
  have hinside : Inside (plan.newPath ++ e.2.path.drop plan.srcPath.length) :=
    hplan.below hnew fun name hname =>
      (hv.nodes _ _ hnode).path.ordinary name (List.mem_of_mem_drop hname)
  exact .bind (.modify fun _ hw => hw.of_eq rfl rfl rfl) fun _ _ =>
    .bind (.tryDatabase _) fun _ _ => unwrapNode_stays fun _ h => ⟨hinside, h.name⟩

theorem recordMove_stays (srcDirId : NodeId) : Stays (recordMove sys plan srcDirId) := by
  have hend : Stays (do
      moveDesktop sys plan srcDirId
      registerMangle sys plan.afpName plan.posixName
      clearEnumCache) := by
    refine .bind (.bind (.tryDatabase _) fun _ _ => .ite (fun _ => .tryDatabase _) fun _ =>
      .pure trivial) fun _ _ => .bind (registerMangle_stays _ _) fun _ _ => clearEnumCache_stays
  unfold recordMove
  cases plan.srcIsDir with
  | false =>
    exact .bind (moveSidecar_stays hplan hnew) fun _ _ =>
      .bind (moveNode_stays hplan hnew) fun _ _ => hend
  | true =>
    exact .bind (moveNode_stays hplan hnew) fun _ _ =>
      .bind (moveChildren_stays hplan hnew) fun _ _ => hend

omit [MacRoman] in
theorem copyOnDisk_stays : Stays (copyOnDisk sys plan) := by
  refine .bind (.host fun d => Disk.touches_copy (p := .object plan.srcPath false)
    (q := .object plan.newPath false) hplan.src hnew d) fun _ _ =>
    .bind (.tryHost fun d => Disk.touches_getXattr (p := .object plan.srcPath false) hplan.src d)
      fun info _ => ?_
  split
  · exact .bind (.tryHost fun d => Disk.touches_setXattr (p := .object plan.newPath false) hnew _ d)
      fun _ _ => .pure trivial
  · exact .pure trivial

omit [MacRoman] in
theorem copySidecar_stays : Stays (copySidecar sys plan) := by
  refine .bind (.tryHost fun d => Disk.touches_metadata (p := .sidecar plan.srcPath) hplan.src d)
    fun there _ => ?_
  split
  · exact .bind (.tryHost fun d => Disk.touches_createDirAll (p := .sidecarParent plan.newPath) hnew d)
      fun _ _ => .bind (.tryHost fun d => Disk.touches_copy (p := .sidecar plan.srcPath)
        (q := .sidecar plan.newPath) hplan.src hnew d) fun _ _ => .pure trivial
  · exact .pure trivial

end

theorem moveAndRename_within {v : Volume} {srcDirId dstDirId : NodeId} {srcPath dstPath : Path}
    {newName : Name} (hv : Within v)
    (hproper : ProperName newName (planMove sys srcDirId dstDirId srcPath dstPath newName) v) :
    Proc.wp True (moveAndRename sys srcDirId dstDirId srcPath dstPath newName)
      (fun _ v' => Within v') v := by
  rw [moveAndRename, Proc.wp_bind]
  refine Proc.wp_of ?_
  intro r v₁ hplanned
  obtain ⟨hv₁, hplan⟩ := Proc.wp_ok hplanned (planMove_confines _ _ _ _ _ v hv)
  rcases r with e | plan
  · exact hv₁
  have hnew := (hplan plan rfl).inside hproper hplanned
  exact Confines.within (.bind (.host fun d => Disk.touches_rename
    (p := .object plan.srcPath false) (q := .object plan.newPath false) (hplan plan rfl).src hnew d)
    fun _ _ => recordMove_stays (hplan plan rfl) hnew srcDirId) hv₁

theorem copyFile_within {v : Volume} {srcDirId dstDirId : NodeId} {srcPath dstPath : Path}
    {newName : Name} (hv : Within v)
    (hproper : ProperName newName (planCopy sys srcDirId srcPath dstDirId dstPath newName) v) :
    Proc.wp True (copyFile sys srcDirId srcPath dstDirId dstPath newName)
      (fun _ v' => Within v') v := by
  rw [copyFile, Proc.wp_bind]
  refine Proc.wp_of ?_
  intro r v₁ hplanned
  obtain ⟨hv₁, hplan⟩ := Proc.wp_ok hplanned (planCopy_confines _ _ _ _ _ v hv)
  rcases r with e | plan
  · exact hv₁
  have hwithin := hplan plan rfl
  have hnew := hwithin.inside hproper hplanned
  exact Confines.within (.bind (copyOnDisk_stays hwithin hnew) fun _ _ =>
    .bind (copySidecar_stays hwithin hnew) fun _ _ => .bind (.tryDatabase _) fun _ _ =>
      .bind (.tryDatabase _) fun _ _ => .bind freshId_stays fun _ _ =>
        .bind (insertNode_stays ⟨hnew, Or.inr (hwithin.nameWithin hnew)⟩) fun _ _ =>
          .bind (registerMangle_stays _ _) fun _ _ => .bind clearEnumCache_stays fun _ _ =>
            .pure trivial) hv₁

theorem delete_stays (directoryId : NodeId) (path : Name) : Stays (delete sys directoryId path) := by
  refine .bind (resolveNodeLazy_stays _ _) fun id _ => .ite (fun _ => .throw _) fun _ =>
    .bind (getNode_confines id) fun node hnode => .bind (G := fun _ => True) ?_ fun _ _ => ?_
  · exact .ite (fun _ => .bind (readDir_confines (p := .object _ _) hnode.path) fun _ _ =>
      .ite (fun _ => .host fun d => Disk.touches_removeDir (p := .object _ _) hnode.path d)
        fun _ => .throw _) fun _ => .ite (fun _ => .throw _) fun _ =>
          .host fun d => Disk.touches_removeFile (p := .object _ _) hnode.path d
  · have hend : Stays (do
        Proc.modify fun v => { v with
          nodes := v.nodes.erase id, pathToId := v.pathToId.erase node.path }
        clearEnumCache) := by
      refine .bind (.modify fun v hv => ⟨hv.disk, fun other node' h => ?_, hv.cache⟩)
        fun _ _ => clearEnumCache_stays
      rw [getElem?_erase_eq] at h
      split at h
      · cases h
      · exact hv.nodes other node' h
    unfold forgetObject
    cases node.isDir with
    | false =>
      exact .bind (.tryHost fun d => Disk.touches_removeFile (p := .sidecar _) hnode.path d)
        fun _ _ => .bind (.tryDatabase _) fun _ _ => .bind (.tryDatabase _) fun _ _ => hend
    | true => exact .bind (.tryDatabase _) fun _ _ => hend

/-! ## Parameters -/

omit [MacRoman] in
theorem Within.looked {S : Path → Prop} {v v' : Volume} (h : Within v)
    (hS : ∀ path, S path → Inside path) (hl : Looked (ParmPath S) v v') : Within v' := by
  obtain ⟨l, hl, rfl⟩ := hl
  refine h.withDisk ⟨h.disk.valid, fun p hp => ?_⟩
  rcases List.mem_append.1 hp with hp | hp
  · exact h.disk.touched p hp
  · obtain rfl | ⟨path, hpath, rfl | rfl⟩ := hl p hp
    · exact inside_nil
    · exact hS path hpath
    · exact hS path hpath

omit [MacRoman] in
/-- Looking at these objects is all that a procedure does. -/
theorem Confines.looked {α : Type} {S : Path → Prop} {m : Afp α} (hS : ∀ path, S path → Inside path)
    (hm : ∀ v, Proc.wp True m (fun _ v' => Looked (ParmPath S) v v') v) : Stays m := fun v hv =>
  Proc.wp_mono (hm v) fun _ _ hl => ⟨hv.looked hS hl, fun _ _ => trivial⟩

section
variable {node : Node} (hnode : Inside node.path)
include hnode

omit [MacRoman] in
theorem getFinderInfo_stays : Stays (node.getFinderInfo sys) :=
  .looked (S := (· = node.path)) (fun _ h => h ▸ hnode) fun v =>
    Proc.wp_mono (Node.getFinderInfo_spec (S := (· = node.path)) rfl v) fun _ _ h => h.2

omit [MacRoman] in
theorem setFinderInfo_stays (info : FinderInfo) : Stays (node.setFinderInfo sys info) :=
  .host fun d => Disk.touches_setXattr (p := node.hostPath) hnode _ d

omit [MacRoman] in
theorem setAttributes_stays (attributes : UInt16) : Stays (node.setAttributes sys attributes) :=
  .bind (getFinderInfo_stays hnode) fun _ _ => setFinderInfo_stays hnode _

theorem nodeFileParmsResp_stays (bitmap : Bitmap) (out : Bytes) (base : ℕ) :
    Stays (nodeFileParmsResp sys node bitmap out base) :=
  .looked (S := (· = node.path)) (fun _ h => h ▸ hnode) fun v =>
    Proc.wp_mono (nodeFileParmsResp_spec node bitmap (Or.inl trivial) v) fun _ _ h => h.1

end

omit [MacRoman] in
theorem Within.registered {v : Volume} (h : Within v) {relPath : Path} {node : Node}
    (hnode : v.registered? relPath = some node) : Inside node.path := by
  obtain ⟨id, -, hid⟩ := Option.bind_eq_some_iff.1 hnode
  exact (h.nodes id node hid).path

theorem getFileParmsResp_stays (bitmap : Bitmap) (relPath : Path) (out : Bytes) (base : ℕ) :
    Stays (getFileParmsResp sys bitmap relPath out base) := by
  intro v hv
  refine Proc.wp_mono (getFileParmsResp_spec bitmap relPath (Or.inl trivial) v) ?_
  rintro r v' h
  rcases hnode : v.registered? relPath with _ | node
  · rw [hnode] at h
    exact ⟨h.1 ▸ hv, fun _ _ => trivial⟩
  · rw [hnode] at h
    exact ⟨hv.looked (S := (· = node.path)) (fun _ heq => heq ▸ hv.registered hnode) h.1,
      fun _ _ => trivial⟩

theorem getDirectoryParmsResp_stays {relPath : Path} (hpath : Inside relPath) (bitmap : Bitmap)
    (out : Bytes) (base : ℕ) : Stays (getDirectoryParmsResp sys bitmap relPath out base) := by
  intro v hv
  refine Proc.wp_mono (getDirectoryParmsResp_spec bitmap relPath (Or.inl trivial) v) ?_
  rintro r v' h
  rcases hnode : v.registered? relPath with _ | node
  · rw [hnode] at h
    exact ⟨h.1 ▸ hv, fun _ _ => trivial⟩
  · rw [hnode] at h
    refine ⟨hv.looked (fun path hp => ?_) h.1, fun _ _ => trivial⟩
    rcases hp with rfl | rfl
    · exact hv.registered hnode
    · exact hpath

theorem getNodeParms_stays (nodeId : NodeId) (fileBitmap dirBitmap : Bitmap) (out : Bytes)
    (base : ℕ) : Stays (getNodeParms sys nodeId fileBitmap dirBitmap out base) :=
  .bind (getNode_confines nodeId) fun _ hnode => .ite
    (fun _ => .bind (getDirectoryParmsResp_stays hnode.path _ _ _) fun _ _ => .pure trivial)
    fun _ => .bind (getFileParmsResp_stays _ _ _ _) fun _ _ => .pure trivial

omit [MacRoman] in
theorem forkOf_stays (forkId : UInt16) (e : AfpError) : Stays (forkOf forkId e) :=
  .bind .read fun _ _ => .orElse fun _ _ => trivial

theorem getForkParms_stays (bitmap : Bitmap) (forkId : UInt16) (out : Bytes) (base : ℕ) :
    Stays (getForkParms sys bitmap forkId out base) :=
  .bind .read fun _ _ => .bind (.orElse (G := fun _ => True) fun _ _ => trivial) fun _ _ =>
    .bind (getNode_confines _) fun _ hnode => nodeFileParmsResp_stays hnode.path _ _ _

omit [MacRoman] in
theorem modificationDate_stays (bitmap mask : Bitmap) (block : Block) :
    Stays (modificationDate sys bitmap mask block) :=
  .ite (fun _ => .bind (.bind .read fun _ _ => .bind
      (.tryHost fun d => Disk.touches_metadata (p := .object [] false) inside_nil d)
      fun _ _ => .pure (G := fun _ => True) trivial) fun _ _ => .lift _)
    fun _ => .pure trivial

omit [MacRoman] in
theorem getBitmapResp_stays (bitmap : Bitmap) (out : Bytes) : Stays (getBitmapResp sys bitmap out) :=
  .bind .read fun _ _ => .bind (.lift _) fun _ _ => .bind (.lift _) fun _ _ =>
    .bind (.lift _) fun _ _ => .bind (.lift _) fun _ _ => .bind (modificationDate_stays _ _ _)
      fun _ _ => .bind (.lift _) fun _ _ => .bind (.lift _) fun _ _ => .bind (.lift _) fun _ _ =>
        .bind (.lift _) fun _ _ => .bind (.lift _) fun _ _ => .pure trivial

omit [MacRoman] in
theorem setNodeParms_stays (nodeId : NodeId) (fileBitmap dirBitmap : Bitmap) (data : Bytes) :
    Stays (setNodeParms sys nodeId fileBitmap dirBitmap data) := by
  refine .ite (fun _ => .throw _) fun _ => .bind (getNode_confines nodeId) fun node hnode => ?_
  have hattributes : ∀ bitmap, Stays (setAttributesParam sys node bitmap data) := fun bitmap =>
    .ite (fun _ => .bind (.ofExcept _) fun _ _ => .bind (setAttributes_stays hnode.path _)
      fun _ _ => .pure trivial) fun _ => .pure trivial
  have hfinder : ∀ bitmap offset, Stays (setFinderInfoParam sys node bitmap data offset) :=
    fun bitmap offset => .ite (fun _ => .bind (.ofExcept _) fun _ _ =>
      .bind (setFinderInfo_stays hnode.path _) fun _ _ => .pure trivial) fun _ => .pure trivial
  have hprodos : ∀ bitmap offset, Stays (setProdosInfoParam sys node bitmap data offset) :=
    fun bitmap offset => .ite (fun _ => .bind (.ofExcept _) fun _ _ => .ite
      (fun _ => .ite (fun _ => .throw _) fun _ => .pure trivial)
      fun _ => .bind (getFinderInfo_stays hnode.path) fun _ _ => setFinderInfo_stays hnode.path _)
      fun _ => .pure trivial
  exact .bind (hattributes _) fun _ _ => .bind (.ofExcept _) fun _ _ => .bind (hfinder _ _)
    fun _ _ => .bind (.ofExcept _) fun _ _ => hprodos _ _

/-! ## Listing -/

/-- An entry that a listing may show. -/
def Listed (entry : Name × Bool) : Prop := Ordinary entry.1 ∧ isPrivateName entry.1 = false

omit [MacRoman] in
theorem entryKinds_confines (path : Path) {names : List Name}
    (hnames : ∀ name ∈ names, Ordinary name) :
    Confines (fun entries => ∀ e ∈ entries, Listed e) (entryKinds sys path names) := by
  induction names with
  | nil => exact .pure fun _ h => nomatch h
  | cons name names ih =>
    have ih := ih fun other h => hnames other (List.mem_cons_of_mem _ h)
    refine .ite (fun _ => ih) fun hprivate => .bind fileType_stays fun isDir _ =>
      .bind ih fun rest hrest => .pure ?_
    intro e he
    rcases List.mem_cons.1 he with rfl | he
    · exact ⟨hnames _ List.mem_cons_self, by simpa using hprivate⟩
    · exact hrest e he

omit [MacRoman] in
theorem snapshot_confines {node : Node} (hnode : Inside node.path) (nodeId : NodeId)
    (startIndex : ℕ) :
    Confines (fun entries => ∀ e ∈ entries, Listed e) (snapshot sys nodeId node startIndex) := by
  refine .bind .read fun v hv => ?_
  split
  · rename_i entries h
    split at h
    · cases h
    · exact .pure (hv.cache nodeId entries h)
  · refine .bind (readDir_confines (p := node.hostPath) hnode) fun names hnames =>
      .bind (entryKinds_confines _ hnames) fun entries hentries => ?_
    have hsorted : ∀ e ∈ entries.insertionSort entryLe, Listed e := fun e he =>
      hentries e ((List.perm_insertionSort entryLe entries).mem_iff.1 he)
    refine .bind (.modify fun w hw => ⟨hw.disk, hw.nodes, fun id entries' h => ?_⟩)
      fun _ _ => .pure hsorted
    rw [getElem?_insert_eq] at h
    split at h
    · exact Option.some.inj h ▸ hsorted
    · exact hw.cache id entries' h

theorem registerEntry_stays {nodeId : NodeId} {nodePath : Path} {entry : Name × Bool}
    (hpath : Inside nodePath) (hentry : Listed entry) :
    Stays (registerEntry sys nodeId nodePath entry) :=
  .bind .read fun _ _ => .ite (fun _ => .pure trivial) fun _ => .bind freshId_stays fun _ _ =>
    .bind (insertNode_stays (nodeWithin_fresh (hpath.concat hentry.1 hentry.2) hentry.1)) fun _ _ =>
      registerMangle_stays _ _

theorem entryParms_stays (cmd : FPEnumerate) {path : Path} (hpath : Inside path) (isDir : Bool)
    (out : Bytes) (base : ℕ) : Stays (entryParms sys cmd path isDir out base) :=
  .ite (fun _ => getDirectoryParmsResp_stays hpath _ _ _) fun _ => getFileParmsResp_stays _ _ _ _

theorem writeEntry_stays (cmd : FPEnumerate) {nodePath : Path} {entry : Name × Bool}
    (hpath : Inside nodePath) (hentry : Listed entry) (page : Page) :
    Stays (writeEntry sys cmd nodePath entry page) := by
  refine .ite (fun _ => .pure trivial) fun _ => .bind (.lift _) fun _ _ => .bind (.lift _)
    fun _ _ => .bind (.attempt (entryParms_stays cmd (hpath.concat hentry.1 hentry.2) _ _ _))
      fun parms _ => ?_
  split
  · exact .pure trivial
  · exact .bind (.lift _) fun _ _ => .pure trivial

theorem writeEntries_stays (cmd : FPEnumerate) (nodeId : NodeId) {nodePath : Path}
    (hpath : Inside nodePath) {entries : List (Name × Bool)} (hentries : ∀ e ∈ entries, Listed e)
    (page : Page) : Stays (writeEntries sys cmd nodeId nodePath entries page) := by
  induction entries generalizing page with
  | nil => exact .pure trivial
  | cons entry entries ih =>
    have hentry := hentries entry List.mem_cons_self
    refine .bind (registerEntry_stays hpath hentry) fun _ _ =>
      .bind (writeEntry_stays cmd hpath hentry page) fun next _ => ?_
    split
    · exact .pure trivial
    · exact ih (fun e he => hentries e (List.mem_cons_of_mem _ he)) _

theorem enumerate_stays (cmd : FPEnumerate) (out : Bytes) : Stays (enumerate sys cmd out) := by
  refine .bind .read fun _ _ => .bind (.ofExcept _) fun nodeId _ =>
    .bind (getNode_confines nodeId) fun node hnode => .ite (fun _ => .throw _) fun _ =>
      .ite (fun _ => .throw _) fun _ => .bind (snapshot_confines hnode.path _ _)
        fun entries hentries => .ite (fun _ => ?_) fun _ => ?_
  · refine .bind (G := fun _ => True) (.modify fun v hv => ⟨hv.disk, hv.nodes, fun id entries h => ?_⟩)
      fun _ _ => .throw _
    rw [getElem?_erase_eq] at h
    split at h
    · cases h
    · exact hv.cache id entries h
  · have hpage : ∀ e ∈ pageOf entries cmd.startIndex cmd.reqCount, Listed e := fun e he =>
      hentries e (List.mem_of_mem_drop (List.mem_of_mem_take he))
    exact .bind (writeEntries_stays cmd nodeId hnode.path hpage _) fun _ _ => .bind (.lift _)
      fun _ _ => .pure trivial

/-! ## Forks -/

section
omit [MacRoman]

theorem setHandle_stays (nodeId : NodeId) (forkType : ForkType) (file : Option Handle) :
    Stays (setHandle nodeId forkType file) :=
  updateNode_stays fun node h => by cases forkType <;> exact ⟨h.path, h.name⟩

theorem setPos_stays (forkId : UInt16) (pos : ℕ) : Stays (setPos forkId pos) :=
  .modify fun _ hv => hv.of_eq rfl rfl rfl

theorem forgetPos_stays (forkId : UInt16) : Stays (forgetPos forkId) :=
  .modify fun _ hv => hv.of_eq rfl rfl rfl

theorem markDirty_stays (key : NodeId × ForkType) : Stays (markDirty key) :=
  .modify fun _ hv => hv.of_eq rfl rfl rfl

theorem clearDirty_stays (key : NodeId × ForkType) : Stays (clearDirty key) :=
  .modify fun _ hv => hv.of_eq rfl rfl rfl

theorem openHandle_stays (forkType : ForkType) {node : Node} (hnode : Inside node.path) :
    Stays (openHandle sys forkType node) := by
  cases forkType with
  | data => exact .host fun d => Disk.touches_openFile (p := node.hostPath) hnode d
  | resource =>
    refine .bind (G := fun _ => True) (.bind (.tryHost fun d => Disk.touches_metadata
      (p := .sidecar node.path) hnode d) fun there _ => ?_) fun _ _ =>
        .bind (.host fun d => Disk.touches_createDirAll (p := .sidecarParent node.path) hnode d)
          fun _ _ => .host fun d => Disk.touches_openCreate (p := .sidecar node.path) hnode d
    split
    · exact .pure trivial
    · exact .pure trivial

end

theorem openFork_stays (forkType : ForkType) (bitmap : Bitmap) (accessMode : UInt16)
    (dirId : NodeId) (relPath : Path) (out : Bytes) :
    Stays (openFork sys forkType bitmap accessMode dirId relPath out) :=
  .bind (resolveNodeLazy_stays _ _) fun id _ => .bind (getNode_confines id) fun _ hnode =>
    .ite (fun _ => .throw _) fun _ => .bind (openHandle_stays _ hnode.path) fun _ _ =>
      .bind (setHandle_stays _ _ _) fun _ _ =>
        .bind (.bind .read fun _ _ => .bind (.modify fun _ hv => hv.of_eq rfl rfl rfl)
          fun _ _ => .pure (G := fun _ => True) trivial) fun _ _ => .bind (.lift _) fun _ _ =>
            .bind (.lift _) fun _ _ => .bind (getFileParmsResp_stays _ _ _ _) fun _ _ =>
              .pure trivial

section
omit [MacRoman]

theorem closeFork_stays (forkId : UInt16) : Stays (closeFork sys forkId) := by
  refine .bind (forkOf_stays _ _) fun r _ => .bind (getNode_confines _) fun node _ => ?_
  have hclose : Stays (closeHandle sys r.1 node r.2) := by
    unfold closeHandle
    split
    · exact .bind (.tryHost fun d => Disk.touches_sync _ d) fun _ _ => setHandle_stays _ _ _
    · exact .pure trivial
  exact .bind hclose fun _ _ => .bind (.modify fun _ hv => hv.of_eq rfl rfl rfl) fun _ _ =>
    .bind (clearDirty_stays _) fun _ _ => .modify fun _ hv => hv.of_eq rfl rfl rfl

theorem seekFork_stays (forkId : UInt16) (nodeId : NodeId) (forkType : ForkType) (file : Handle)
    (pos : ℕ) (e : AfpError) : Stays (seekFork sys forkId nodeId forkType file pos e) := by
  refine .bind .read fun _ _ => .ite (fun _ => .pure trivial) fun _ => ?_
  split
  · exact .bind (forgetPos_stays _) fun _ _ => .throw _
  · exact .bind (setHandle_stays _ _ _) fun _ _ => .bind (setPos_stays _ _) fun _ _ => .pure trivial

theorem readFork_stays (req : FPRead) (outLen : ℕ) : Stays (readFork sys req outLen) := by
  refine .bind (forkOf_stays _ _) fun key _ => .bind (getNode_confines _) fun _ _ =>
    .bind (.orElse (G := fun _ => True) fun _ _ => trivial) fun _ _ =>
      .bind (seekFork_stays _ _ _ _ _ _) fun file _ => .bind .read fun v _ => ?_
  have hfail : ∀ file, Stays (do
      setHandle key.1 key.2 (some file)
      forgetPos req.forkId
      (Proc.throw .accessDenied : Afp (Bytes × Bool))) := fun _ =>
    .bind (setHandle_stays _ _ _) fun _ _ => .bind (forgetPos_stays _) fun _ _ => .throw _
  dsimp only
  generalize readLoop sys _ v.disk _ file _ [] = outcome
  obtain ⟨_ | ⟨data, eof⟩, file'⟩ := outcome
  · exact hfail file'
  · dsimp only
    generalize (if req.newlineMask ≠ 0 then _ else _ : Option Handle) = back
    rcases back with _ | file''
    · exact hfail file'
    · exact .bind (setHandle_stays _ _ _) fun _ _ => .bind (setPos_stays _ _) fun _ _ =>
        .pure trivial

theorem writeFork_stays (forkId : UInt16) (offset : ℕ) (data : Bytes) :
    Stays (writeFork sys forkId offset data) :=
  .bind .read fun _ _ => .ite (fun _ => .throw _) fun _ => .bind (forkOf_stays _ _) fun _ _ =>
    .bind (getNode_confines _) fun _ _ => .bind (.orElse (G := fun _ => True) fun _ _ => trivial)
      fun _ _ => .bind (seekFork_stays _ _ _ _ _ _) fun _ _ => .bind .read fun _ hw =>
        .bind (.modify fun _ hv => hv.withDisk (hw.disk.touches (Disk.touches_writeAll _ _ _ _)))
          fun _ _ => .bind (setHandle_stays _ _ _) fun _ _ => .bind (markDirty_stays _) fun _ _ =>
            .ite (fun _ => .bind (setPos_stays _ _) fun _ _ => .pure trivial)
              fun _ => .bind (forgetPos_stays _) fun _ _ => .throw _

theorem setForkParms_stays (cmd : FPSetForkParms) : Stays (setForkParms sys cmd) := by
  refine .bind (forkOf_stays _ _) fun _ _ => .bind (getNode_confines _) fun _ _ =>
    .ite (fun _ => .throw _) fun _ => ?_
  split
  · exact .pure trivial
  · exact .bind (.orElse (G := fun _ => True) fun _ _ => trivial) fun _ _ =>
      .bind (.host fun d => Disk.touches_setLen _ _ d) fun _ _ => .bind (forgetPos_stays _)
        fun _ _ => markDirty_stays _

theorem syncAll_stays (keys : List (NodeId × ForkType)) : Stays (syncAll sys keys) := by
  induction keys with
  | nil => exact .pure trivial
  | cons key keys ih =>
    have hone : Stays (syncDirty sys key) := by
      refine .bind .read fun v _ => ?_
      split
      · exact .pure trivial
      · refine .bind (.tryHost fun d => Disk.touches_sync _ d) fun synced _ => ?_
        split
        · exact .pure trivial
        · exact .bind (markDirty_stays _) fun _ _ => .pure trivial
    exact .bind hone fun _ _ => .bind ih fun _ _ => .pure trivial

theorem sync_stays : Stays (sync sys) :=
  .bind .read fun _ _ => .bind (.modify fun _ hv => hv.of_eq rfl rfl rfl) fun _ _ =>
    .bind (syncAll_stays _) fun _ _ => .ite (fun _ => .pure trivial) fun _ => .throw _

theorem syncFork_stays (forkId : UInt16) : Stays (syncFork sys forkId) := by
  refine .bind .read fun v _ => ?_
  split
  · exact .pure trivial
  · refine .bind (getNode_confines _) fun node _ => ?_
    dsimp only
    rcases node.fork _ with _ | file
    · exact clearDirty_stays _
    · exact .bind (.host fun d => Disk.touches_sync _ d) fun _ _ => clearDirty_stays _

theorem byteRangeLock_stays (req : FPByteRangeLock) : Stays (byteRangeLock sys req) := by
  have hlocks : ∀ locks, Stays (setLocks req.forkId locks) := fun _ =>
    .modify fun _ hv => hv.of_eq rfl rfl rfl
  exact .bind (forkOf_stays _ _) fun _ _ => .bind (getNode_confines _) fun node hnode =>
    .bind (.host fun d => Disk.touches_metadata (p := node.hostPath) hnode.path d) fun _ _ =>
      .bind (.lift _) fun _ _ => .bind .read fun _ _ => .bind (hlocks _) fun _ _ =>
        .ite (fun _ => .ite (fun _ => .bind (hlocks _) fun _ _ => .pure trivial) fun _ => .throw _)
          fun _ => .ite (fun _ => .throw _) fun _ => .bind (hlocks _) fun _ _ => .pure trivial

/-! ## Desktop database -/

theorem openDt_stays : Stays (openDt sys) := by
  refine .bind (.tryHost fun d => Disk.touches_metadata (p := .appleDesktop) trivial d)
    fun there _ => ?_
  split
  · exact .bind (.tryHost fun d => Disk.touches_createDir (p := .appleDesktop) trivial d)
      fun _ _ => .bind .read fun _ _ => .pure trivial
  · exact .bind .read fun _ _ => .pure trivial

theorem withDt_stays {α : Type} (dtRefNum : UInt16) (call : Db α) : Stays (withDt dtRefNum call) :=
  .bind .read fun _ _ => .ite (fun _ => .database _) fun _ => .throw _

end

theorem knownPath_stays (directoryId : NodeId) (path : Path) :
    Stays (knownPath sys directoryId path) :=
  .bind .read fun _ _ => .bind (.ofExcept _) fun _ _ => .bind (getNode_confines _) fun _ _ =>
    .pure trivial

end

end Volume

end TailTalk
