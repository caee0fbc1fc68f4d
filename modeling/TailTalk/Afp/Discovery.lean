/-
  Discovery — what a lazy lookup finds.

  A lookup that misses registers the entries of the directory that its path
  starts from, up to the first whose kind cannot be told, and looks again.  The
  directories between that one and the object are not read.
-/
import TailTalk.Afp.ForkTable

namespace TailTalk

open Lib

namespace Volume

section
variable (sys : Sys)

/-- The node of an object: the one that is registered under its path. -/
def IsNodeOf (v : Volume) (path : Path) (id : NodeId) : Prop :=
  v.pathToId[path]? = some id ∧ (v.nodes[id]?).map (·.path) = some path

instance (v : Volume) (path : Path) (id : NodeId) : Decidable (v.IsNodeOf path id) :=
  inferInstanceAs (Decidable (_ ∧ _))

/-- An entry that gets a node when its directory is read. -/
def isNew (v : Volume) (dirPath : Path) (name : Name) : Bool :=
  !(isPrivateName name || v.pathToId.contains (dirPath ++ [name]))

/-- The kind of an entry. -/
def kindOf (v : Volume) (dirPath : Path) (name : Name) : Option Bool :=
  (Disk.fileType sys (.object (dirPath ++ [name]) false) v.disk).1

/-- The entries that reading a directory registers: up to the first whose kind is needed and cannot
    be told. -/
def newNames (v : Volume) (dirPath : Path) (names : List Name) : List Name :=
  ((names.takeWhile fun name => !v.isNew dirPath name || (v.kindOf sys dirPath name).isSome).filter
    (v.isNew dirPath)).dedup

/-- The entries that the next reading of a directory registers. -/
def unregistered (v : Volume) (base : Node) : List Name :=
  (((Disk.readDir sys base.hostPath v.disk).1).map (v.newNames sys base.path)).getD []

/-- One more node, for an entry of a directory. -/
structure Registered (v : Volume) (dirPath : Path) (name : Name) (v' : Volume) : Prop where
  disk : v'.disk = v.disk
  ids : v'.nextId = v.nextId + 1
  paths : ∀ q, v'.pathToId[q]? = if q = dirPath ++ [name] then some v.nextId else v.pathToId[q]?
  node : (v'.nodes[v.nextId]?).map (·.path) = some (dirPath ++ [name])
  nodes : ∀ id, id ≠ v.nextId → v'.nodes[id]? = v.nodes[id]?

/-- Nodes for some entries of a directory. -/
structure Populated (v : Volume) (dirPath : Path) (names : List Name) (v' : Volume) : Prop where
  new : ∀ name ∈ names, ∃ id, v'.IsNodeOf (dirPath ++ [name]) id
  old : ∀ q, (∀ name ∈ names, q ≠ dirPath ++ [name]) → v'.pathToId[q]? = v.pathToId[q]?
  nodes : ∀ id < v.nextId, v'.nodes[id]? = v.nodes[id]?

theorem Populated.nothing (v : Volume) (dirPath : Path) : Populated v dirPath [] v :=
  ⟨fun _ h => absurd h List.not_mem_nil, fun _ _ => rfl, fun _ _ => rfl⟩

section
variable {sys} {v v' : Volume} {dirPath : Path} {name : Name} {names : List Name}

theorem isNew_eq_false_iff : v.isNew dirPath name = false ↔
    (isPrivateName name || v.pathToId.contains (dirPath ++ [name])) = true := by
  rw [isNew, Bool.not_eq_false']

theorem Registered.isNew (h : Registered v dirPath name v') (other : Name) :
    v'.isNew dirPath other = (decide (other ≠ name) && v.isNew dirPath other) := by
  have hpath : dirPath ++ [other] = dirPath ++ [name] ↔ other = name := by simp
  simp only [Volume.isNew, Std.TreeMap.contains_eq_isSome_getElem?, h.paths, hpath]
  by_cases hother : other = name
  · simp [hother]
  · simp [hother]

theorem Registered.kindOf (h : Registered v dirPath name v') (other : Name) :
    v'.kindOf sys dirPath other = v.kindOf sys dirPath other := by
  rw [Volume.kindOf, Volume.kindOf, h.disk]

theorem newNames_nil : v.newNames sys dirPath [] = [] := rfl

theorem newNames_old (h : v.isNew dirPath name = false) :
    v.newNames sys dirPath (name :: names) = v.newNames sys dirPath names := by
  rw [newNames, List.takeWhile_cons_of_pos (by rw [h]; rfl),
    List.filter_cons_of_neg (by rw [h]; exact Bool.false_ne_true), newNames]

theorem newNames_stopped (h : v.isNew dirPath name = true)
    (hkind : v.kindOf sys dirPath name = none) :
    v.newNames sys dirPath (name :: names) = [] := by
  rw [newNames, List.takeWhile_cons_of_neg (by rw [h, hkind]; exact Bool.false_ne_true)]
  rfl

theorem mem_newNames_self (h : v.isNew dirPath name = true) {isDir : Bool}
    (hkind : v.kindOf sys dirPath name = some isDir) :
    name ∈ v.newNames sys dirPath (name :: names) := by
  rw [newNames, List.takeWhile_cons_of_pos (by rw [hkind]; simp), List.filter_cons_of_pos h]
  exact List.mem_dedup.2 List.mem_cons_self

/-- Once an entry is registered, the others are left. -/
theorem newNames_registered (h : v.isNew dirPath name = true) {isDir : Bool}
    (hkind : v.kindOf sys dirPath name = some isDir) (hnext : Registered v dirPath name v') :
    (∀ other, other ∈ v.newNames sys dirPath (name :: names) ↔
      other = name ∨ other ∈ v'.newNames sys dirPath names) ∧
    (v.newNames sys dirPath (name :: names)).length =
      (v'.newNames sys dirPath names).length + 1 := by
  have hwhile : (fun other => !v'.isNew dirPath other || (v'.kindOf sys dirPath other).isSome) =
      fun other => !v.isNew dirPath other || (v.kindOf sys dirPath other).isSome := by
    funext other
    rw [hnext.isNew, hnext.kindOf]
    by_cases hother : other = name
    · simp [hother, hkind]
    · simp [hother]
  have hrest : v'.newNames sys dirPath names =
      (((names.takeWhile fun other => !v.isNew dirPath other ||
        (v.kindOf sys dirPath other).isSome).filter
          (v.isNew dirPath)).filter (· ≠ name)).dedup := by
    rw [newNames, hwhile, List.filter_filter]
    congr 2
    funext other
    rw [hnext.isNew]
  have hall : v.newNames sys dirPath (name :: names) =
      (name :: (names.takeWhile fun other => !v.isNew dirPath other ||
        (v.kindOf sys dirPath other).isSome).filter (v.isNew dirPath)).dedup := by
    rw [newNames, List.takeWhile_cons_of_pos (by rw [hkind]; simp), List.filter_cons_of_pos h]
  rw [hall, hrest]
  generalize (names.takeWhile _).filter _ = new
  constructor
  · intro other
    by_cases hother : other = name
    · simp [hother]
    · simp [hother]
  · have hinsert : (name :: new).toFinset = insert name (new.filter (· ≠ name)).toFinset := by
      ext other
      by_cases hother : other = name
      · simp [hother]
      · simp [hother]
    rw [← List.card_toFinset, ← List.card_toFinset, hinsert, Finset.card_insert_of_notMem]
    simp

/-! ## Reading a directory -/

variable [MacRoman] {dirId : NodeId}

theorem populateEntry_old (h : v.isNew dirPath name = false) :
    populateEntry sys dirId dirPath name v = .ok (.ok (), v) := by
  have hskip := isNew_eq_false_iff.1 h
  show (if (isPrivateName name || v.pathToId.contains (dirPath ++ [name])) = true then
    (pure () : Afp Unit) else _) v = _
  rw [if_pos hskip]
  rfl

omit [MacRoman] in
theorem freshId_eq (v : Volume) : freshId v =
    if v.nextId < MAX_ID then .ok (.ok v.nextId, { v with nextId := v.nextId + 1 })
    else .error .overflow := by
  show (if v.nextId < MAX_ID then do
      Proc.modify fun v => { v with nextId := v.nextId + 1 }
      pure v.nextId
    else Proc.lift (.error .overflow) : Afp NodeId) v = _
  split
  · rfl
  · rfl

theorem populateEntry_new (h : v.isNew dirPath name = true) :
    populateEntry sys dirId dirPath name v =
      match v.kindOf sys dirPath name with
      | none => .ok (.error .objectNotFound, v)
      | some isDir =>
        if v.nextId < MAX_ID then
          .ok (.ok (), { v with
            nextId := v.nextId + 1
            nodes := v.nodes.insert v.nextId
              (.fresh v.nextId dirId (posixNameToAfp name) isDir (dirPath ++ [name]))
            pathToId := v.pathToId.insert (dirPath ++ [name]) v.nextId
            desktopDatabase := v.desktopDatabase.registerMangle sys (posixNameToAfp name) name })
        else .error .overflow := by
  have hgo : ¬ (isPrivateName name || v.pathToId.contains (dirPath ++ [name])) = true := by
    rw [← isNew_eq_false_iff, h]
    exact Bool.noConfusion
  have hentry : populateEntry sys dirId dirPath name v = (do
      let isDir ← host .objectNotFound (Disk.fileType sys (.object (dirPath ++ [name]) false))
      let newId ← freshId
      insertNode (.fresh newId dirId (posixNameToAfp name) isDir (dirPath ++ [name]))
      registerMangle sys (posixNameToAfp name) name : Afp Unit) v := by
    show (if (isPrivateName name || v.pathToId.contains (dirPath ++ [name])) = true then
      (pure () : Afp Unit) else _) v = _
    rw [if_neg hgo]
  rw [hentry]
  cases hkind : v.kindOf sys dirPath name with
  | none =>
    have hhost : (host .objectNotFound (Disk.fileType sys (.object (dirPath ++ [name]) false)) :
        Afp Bool) v = .ok (.error .objectNotFound, v) := by
      rw [kindOf] at hkind
      simp only [host, hkind]
      rfl
    simp only [bind, hhost]
  | some isDir =>
    have hhost : (host .objectNotFound (Disk.fileType sys (.object (dirPath ++ [name]) false)) :
        Afp Bool) v = .ok (.ok isDir, v) := by
      rw [kindOf] at hkind
      simp only [host, hkind]
      rfl
    simp only [bind, hhost, freshId_eq]
    by_cases hid : v.nextId < MAX_ID
    · simp only [if_pos hid]
      rfl
    · simp only [if_neg hid]

theorem registered_entry (hfresh : v.nextId < MAX_ID) {isDir : Bool}
    (h : v.isNew dirPath name = true) (hkind : v.kindOf sys dirPath name = some isDir) :
    ∃ v', populateEntry sys dirId dirPath name v = .ok (.ok (), v') ∧
      Registered v dirPath name v' := by
  have hentry := @populateEntry_new sys v dirPath name _ dirId h
  simp only [hkind, if_pos hfresh] at hentry
  refine ⟨_, hentry, rfl, rfl, ?_, ?_, ?_⟩
  · intro q
    exact getElem?_insert_eq _ _ _ _
  · dsimp only
    rw [getElem?_insert_eq, if_pos rfl]
    rfl
  · intro id hid
    dsimp only
    rw [getElem?_insert_eq, if_neg hid]

omit [MacRoman] in
/-- One entry and the others. -/
theorem Registered.populated {v'' : Volume} {new : List Name} (h : Registered v dirPath name v')
    (hnot : name ∉ new) (hrest : Populated v' dirPath new v'') :
    ∀ all : List Name, (∀ other, other ∈ all ↔ other = name ∨ other ∈ new) →
      Populated v dirPath all v'' := by
  intro all hall
  have hself : v''.IsNodeOf (dirPath ++ [name]) v.nextId := by
    refine ⟨?_, ?_⟩
    · rw [hrest.old _ fun other hother heq => ?_, h.paths, if_pos rfl]
      obtain rfl : name = other := by simpa using heq
      exact hnot hother
    · rw [hrest.nodes _ (by rw [h.ids]; exact Nat.lt_succ_self _), h.node]
  constructor
  · intro other hother
    rcases (hall other).1 hother with rfl | hother
    · exact ⟨_, hself⟩
    · exact hrest.new other hother
  · intro q hq
    rw [hrest.old q fun other hother => hq other ((hall other).2 (Or.inr hother)), h.paths,
      if_neg (hq name ((hall name).2 (Or.inl rfl)))]
  · intro id hid
    rw [hrest.nodes id (by rw [h.ids]; exact Nat.lt_succ_of_lt hid), h.nodes id (Nat.ne_of_lt hid)]

/-- There are IDs for these entries, if there are any. -/
def Fits (v : Volume) (names : List Name) : Prop := names = [] ∨ v.nextId + names.length ≤ MAX_ID

/-- **Reading a directory** registers its new entries, and panics where they do not fit. -/
theorem populate_spec (dirId : NodeId) (dirPath : Path) (names : List Name) (v : Volume) :
    (v.Fits (v.newNames sys dirPath names) →
      ∃ r v', Proc.each (populateEntry sys dirId dirPath) names v = .ok (r, v') ∧
        Populated v dirPath (v.newNames sys dirPath names) v') ∧
    (¬ v.Fits (v.newNames sys dirPath names) →
      ∃ p, Proc.each (populateEntry sys dirId dirPath) names v = .error p) := by
  induction names generalizing v with
  | nil => exact ⟨fun _ => ⟨_, v, rfl, .nothing v dirPath⟩, fun h => absurd (Or.inl newNames_nil) h⟩
  | cons name names ih =>
    rw [Proc.each]
    cases hnew : v.isNew dirPath name with
    | false =>
      rw [Proc.bind_ok (populateEntry_old hnew), newNames_old hnew]
      exact ih v
    | true =>
      have hentry := @populateEntry_new sys v dirPath name _ dirId hnew
      cases hkind : v.kindOf sys dirPath name with
      | none =>
        rw [hkind] at hentry
        rw [newNames_stopped hnew hkind, Proc.bind_error hentry]
        exact ⟨fun _ => ⟨_, v, rfl, .nothing v dirPath⟩, fun h => absurd (Or.inl rfl) h⟩
      | some isDir =>
        by_cases hid : v.nextId < MAX_ID
        · obtain ⟨v₁, hdone, hnext⟩ : ∃ v₁,
              populateEntry sys dirId dirPath name v = .ok (.ok (), v₁) ∧
                Registered v dirPath name v₁ := registered_entry hid hnew hkind
          have hall : ∀ other, other ∈ v.newNames sys dirPath (name :: names) ↔
              other = name ∨ other ∈ v₁.newNames sys dirPath names :=
            (newNames_registered hnew hkind hnext).1
          have hlen : (v.newNames sys dirPath (name :: names)).length =
              (v₁.newNames sys dirPath names).length + 1 := (newNames_registered hnew hkind hnext).2
          obtain ⟨hreturns, hpanics⟩ := ih v₁
          have hnot : name ∉ v₁.newNames sys dirPath names := by
            intro hin
            have hstill := (List.mem_filter.1 (List.mem_dedup.1 hin)).2
            rw [hnext.isNew] at hstill
            simp at hstill
          have hfits : v.Fits (v.newNames sys dirPath (name :: names)) ↔
              v₁.Fits (v₁.newNames sys dirPath names) := by
            have hsum : ∀ m n k : ℕ, m < k →
                (n + 1 = 0 ∨ m + (n + 1) ≤ k ↔ n = 0 ∨ m + 1 + n ≤ k) := fun m n k h => by omega
            rw [Fits, Fits, ← List.length_eq_zero_iff, ← List.length_eq_zero_iff, hlen, hnext.ids]
            exact hsum _ _ _ hid
          rw [Proc.bind_ok hdone, hfits]
          refine ⟨fun h => ?_, hpanics⟩
          obtain ⟨r, v', hrun, hrest⟩ := hreturns h
          exact ⟨r, v', hrun, hnext.populated hnot hrest _ hall⟩
        · have hover : ¬ v.Fits (v.newNames sys dirPath (name :: names)) := by
            have hmem : name ∈ v.newNames sys dirPath (name :: names) :=
              mem_newNames_self hnew hkind
            rintro (hnone | hfits)
            · rw [hnone] at hmem
              cases hmem
            · have hpos := List.length_pos_of_mem hmem
              exact hid (Nat.lt_of_lt_of_le (Nat.lt_add_of_pos_right hpos) hfits)
          simp only [hkind, if_neg hid] at hentry
          refine ⟨fun h => absurd h hover, fun _ => ⟨_, Proc.bind_panic hentry⟩⟩

/-- The directory that a lookup starts from is read. -/
theorem ensureDirPopulated_spec {base : Node} (hbase : v.nodes[dirId]? = some base) :
    (v.Fits (v.unregistered sys base) → ∃ r v', ensureDirPopulated sys dirId v = .ok (r, v') ∧
      Populated v base.path (v.unregistered sys base) v') ∧
    (¬ v.Fits (v.unregistered sys base) → ∃ p, ensureDirPopulated sys dirId v = .error p) := by
  have hnode : (getNode dirId) v = .ok (.ok base, v) := by
    show Proc.orElse v.nodes[dirId]? AfpError.objectNotFound v = _
    rw [hbase]
    rfl
  rw [ensureDirPopulated, Proc.bind_ok hnode, unregistered]
  cases hread : (Disk.readDir sys base.hostPath v.disk).1 with
  | none =>
    have hfailed : host AfpError.objectNotFound (Disk.readDir sys base.hostPath) v =
        .ok (.error .objectNotFound, { v with disk := v.disk.touch base.hostPath }) := by
      simp only [host, hread]
      rfl
    rw [Node.hostPath] at hfailed
    refine ⟨fun _ => ⟨_, _, Proc.bind_error hfailed, ?_⟩, fun h => absurd (Or.inl rfl) h⟩
    exact ⟨fun _ h => absurd h List.not_mem_nil, fun _ _ => rfl, fun _ _ => rfl⟩
  | some names =>
    have hlisted : host AfpError.objectNotFound (Disk.readDir sys base.hostPath) v =
        .ok (.ok names, { v with disk := v.disk.touch base.hostPath }) := by
      simp only [host, hread]
      rfl
    rw [Node.hostPath] at hlisted
    rw [Proc.bind_ok hlisted]
    obtain ⟨hreturns, hpanics⟩ := @populate_spec sys _ dirId base.path names
      { v with disk := v.disk.touch base.hostPath }
    refine ⟨fun h => ?_, hpanics⟩
    obtain ⟨r, v', hrun, hdone⟩ := hreturns h
    exact ⟨r, v', hrun, hdone.new, hdone.old, hdone.nodes⟩

end

end

/-! ## Lookups -/

section

variable (sys : Sys) [MacRoman]

/-- The ID of a path, or of the one that the table of mangled names has for it. -/
def known? (v : Volume) (base : Node) (path : Path) : Option NodeId :=
  (v.pathToId[base.path ++ path]?).or
    ((v.unmangle sys path).bind fun path => v.pathToId[base.path ++ path]?)

/-- A path from a directory other than the parent of the root. -/
structure LeadsTo (v : Volume) (directoryId : NodeId) (pathName : Path) (base : Node) : Prop where
  real : realDirId directoryId ≠ ROOT_PARENT_ID
  node : v.nodes[realDirId directoryId]? = some base
  /-- the ID was given out -/
  given : realDirId directoryId < v.nextId
  nonempty : afpPathIsEmpty pathName = false

/-- Nothing is known for the path, and the next reading of its directory registers it. -/
def Discoverable (v : Volume) (base : Node) (pathName : Path) : Prop :=
  v.known? sys base pathName = none ∧
    v.nextId + (v.unregistered sys base).length ≤ MAX_ID ∧
    ∃ name ∈ v.unregistered sys base, pathName = [name]

instance (v : Volume) (base : Node) (pathName : Path) :
    Decidable (v.Discoverable sys base pathName) :=
  inferInstanceAs (Decidable (_ ∧ _ ∧ ∃ name ∈ _, _))

variable {sys} {v : Volume} {directoryId : NodeId} {pathName : Path} {base : Node}

theorem resolveNode_eq (hreal : realDirId directoryId ≠ ROOT_PARENT_ID)
    (hbase : v.nodes[realDirId directoryId]? = some base)
    (hnonempty : afpPathIsEmpty pathName = false) :
    v.resolveNode sys directoryId pathName =
      match v.known? sys base pathName with
      | some id => .ok id
      | none => .error .objectNotFound := by
  simp only [resolveNode, if_neg hreal, hbase, hnonempty, known?]
  cases v.pathToId[base.path ++ pathName]? with
  | some id => rfl
  | none =>
    rw [Option.none_or]
    rfl

theorem resolveNodeLazy_of_ok {id : NodeId}
    (h : v.resolveNode sys directoryId pathName = .ok id) :
    resolveNodeLazy sys directoryId pathName v = .ok (.ok id, v) := by
  unfold resolveNodeLazy
  simp only [bind, Proc.read, h]
  rfl

theorem resolveNodeLazy_of_error {e : AfpError}
    (h : v.resolveNode sys directoryId pathName = .error e) :
    resolveNodeLazy sys directoryId pathName v = (do
      if realDirId directoryId ≥ ROOT_ID ∧ afpPathIsEmpty pathName = false then
        let _ ← Proc.attempt (ensureDirPopulated sys (realDirId directoryId))
      let v ← Proc.read
      Proc.ofExcept (v.resolveNode sys directoryId pathName) : Afp NodeId) v := by
  unfold resolveNodeLazy
  simp only [bind, Proc.read, h]

theorem resolveNodeLazy_known (h : v.LeadsTo directoryId pathName base) {id : NodeId}
    (hknown : v.known? sys base pathName = some id) :
    resolveNodeLazy sys directoryId pathName v = .ok (.ok id, v) := by
  have hresolved : v.resolveNode sys directoryId pathName = _ :=
    resolveNode_eq h.real h.node h.nonempty
  rw [hknown] at hresolved
  exact resolveNodeLazy_of_ok hresolved

theorem resolveNodeLazy_missed (h : v.LeadsTo directoryId pathName base)
    (hmissed : v.known? sys base pathName = none) :
    resolveNodeLazy sys directoryId pathName v =
      match ensureDirPopulated sys (realDirId directoryId) v with
      | .error p => .error p
      | .ok (_, v') => .ok (v'.resolveNode sys directoryId pathName, v') := by
  have hroot : realDirId directoryId ≥ ROOT_ID := by
    have hreal := h.real
    unfold realDirId at hreal ⊢
    split
    · exact Nat.le_refl ROOT_ID
    · rename_i hzero
      rw [if_neg hzero] at hreal
      exact Nat.lt_of_le_of_ne (Nat.pos_of_ne_zero hzero) (Ne.symm hreal)
  have hresolved : v.resolveNode sys directoryId pathName = _ :=
    resolveNode_eq h.real h.node h.nonempty
  rw [hmissed] at hresolved
  rw [resolveNodeLazy_of_error hresolved, if_pos ⟨hroot, h.nonempty⟩]
  simp only [bind, Proc.attempt]
  cases ensureDirPopulated sys (realDirId directoryId) v with
  | error p => rfl
  | ok out => rfl

/-- **What a lookup finds.** A path from a directory leads to the node of the object that it names
    if that has one, or if the path has one component, nothing else is known under it, and the
    directory lists it. The name of the volume leads to the root. -/
theorem resolves_iff (sys : Sys) (v : Volume) (directoryId : NodeId) (pathName : Path) :
    (realDirId directoryId = ROOT_PARENT_ID → afpPathIsEmpty pathName = false →
      pathOfText v.name = some pathName →
        resolveNodeLazy sys directoryId pathName v = .ok (.ok ROOT_ID, v)) ∧
    ∀ base, v.LeadsTo directoryId pathName base →
      ((∃ id v', resolveNodeLazy sys directoryId pathName v = .ok (.ok id, v') ∧
          v'.IsNodeOf (base.path ++ pathName) id) ↔
        (∃ id, v.IsNodeOf (base.path ++ pathName) id) ∨ v.Discoverable sys base pathName) := by
  constructor
  · intro hparent hnonempty hname
    have hresolved : v.resolveNode sys directoryId pathName = .ok ROOT_ID := by
      simp only [resolveNode, if_pos hparent, hnonempty, hname]
      rfl
    exact resolveNodeLazy_of_ok hresolved
  intro base h
  constructor
  · rintro ⟨id, v', hrun, hfound⟩
    cases hknown : v.known? sys base pathName with
    | some known =>
      rw [resolveNodeLazy_known h hknown] at hrun
      obtain ⟨-, rfl⟩ := Prod.mk.inj (Except.ok.inj hrun)
      exact Or.inl ⟨id, hfound⟩
    | none =>
      rw [resolveNodeLazy_missed h hknown] at hrun
      obtain ⟨hreturns, hpanics⟩ := @ensureDirPopulated_spec sys v _ _ base h.node
      by_cases hfits : v.Fits (v.unregistered sys base)
      · obtain ⟨r, w, hread, hdone⟩ := hreturns hfits
        rw [hread] at hrun
        obtain ⟨-, rfl⟩ := Prod.mk.inj (Except.ok.inj hrun)
        refine Or.inr ⟨hknown, ?_⟩
        have hunknown : v.pathToId[base.path ++ pathName]? = none :=
          (Option.or_eq_none_iff.1 hknown).1
        have hnew : ∃ name ∈ v.unregistered sys base, pathName = [name] := by
          by_contra hnone
          have hold := hdone.old (base.path ++ pathName) fun name hname heq =>
            hnone ⟨name, hname, List.append_cancel_left heq⟩
          rw [hfound.1, hunknown] at hold
          cases hold
        refine ⟨?_, hnew⟩
        rcases hfits with hempty | hfits
        · obtain ⟨name, hname, -⟩ := hnew
          rw [hempty] at hname
          cases hname
        · exact hfits
      · obtain ⟨p, hpanic⟩ := hpanics hfits
        rw [hpanic] at hrun
        cases hrun
  · rintro (⟨id, hfound⟩ | ⟨hmissed, hfits, name, hname, rfl⟩)
    · have hknown : v.known? sys base pathName = some id := by
        rw [known?, hfound.1, Option.some_or]
      exact ⟨id, v, resolveNodeLazy_known h hknown, hfound⟩
    · obtain ⟨r, w, hread, hdone⟩ :=
        (@ensureDirPopulated_spec sys v _ _ base h.node).1 (Or.inr hfits)
      obtain ⟨id, hnode⟩ := hdone.new name hname
      have hbase : w.nodes[realDirId directoryId]? = some base := by
        rw [hdone.nodes _ h.given, h.node]
      have hknown : w.known? sys base [name] = some id := by
        rw [known?, hnode.1, Option.some_or]
      refine ⟨id, w, ?_, hnode⟩
      rw [resolveNodeLazy_missed h hmissed, hread]
      dsimp only
      rw [resolveNode_eq h.real hbase h.nonempty, hknown]

end

/-! ## A directory that was not listed -/

section

local instance : MacRoman := macintosh

/-- A volume that nothing was looked up on, with a file in a directory. -/
def nestedVolume : Volume := .ofEntries [("d".toList, .dir 2 [("f".toList, .file 3)])]

/-- The directory is looked up, and the file from there. -/
def lookedUp : Option Volume :=
  (resolveNodeLazy .calm 0 ["d".toList] >>= fun id => resolveNodeLazy .calm id ["f".toList]).after
    nestedVolume

theorem resolves_lookedUp : ∃ v id v', lookedUp = some v ∧
    resolveNodeLazy .calm 0 ["d".toList, "f".toList] v = .ok (.ok id, v') ∧
      v'.IsNodeOf ["d".toList, "f".toList] id := by
  have hend : (lookedUp.any fun v => decide (v.nodes[realDirId 0]? =
      some (.fresh 2 1 "Shared".toList true []) ∧ realDirId 0 < v.nextId ∧
        v.IsNodeOf ["d".toList, "f".toList] 4)) = true := by decide +kernel
  obtain ⟨v, hv, hend⟩ := (Option.any_eq_true _ _).1 hend
  obtain ⟨hnode, hgiven, hfile⟩ := of_decide_eq_true hend
  obtain ⟨id, v', hfound⟩ := ((resolves_iff .calm v 0 ["d".toList, "f".toList]).2 _
    ⟨by decide, hnode, hgiven, by decide⟩).2 (Or.inl ⟨4, hfile⟩)
  exact ⟨v, id, v', hv, hfound⟩

theorem resolves_not_nested :
    nestedVolume.LeadsTo 0 ["d".toList, "f".toList] (.fresh 2 1 "Shared".toList true []) ∧
      (nestedVolume.disk.tree.look
        (nestedVolume.disk.at (.object ["d".toList, "f".toList] false))).isSome = true ∧
      (∀ name ∈ ["d".toList, "f".toList], isPrivateName name = false) ∧
      ¬ ∃ id v', resolveNodeLazy .calm 0 ["d".toList, "f".toList] nestedVolume =
        .ok (.ok id, v') := by
  refine ⟨⟨by decide, by decide, by decide, by decide⟩, by decide, by decide, fun hfound => ?_⟩
  have hnone : endsWell (resolveNodeLazy .calm 0 ["d".toList, "f".toList]) nestedVolume =
      false := by
    decide +kernel
  rw [endsWell_iff.2 hfound] at hnone
  cases hnone

end

end Volume

end TailTalk
