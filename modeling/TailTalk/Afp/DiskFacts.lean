/-
  What calls leave on a disk.

  A call that only adds objects keeps what stands at every path (`Extends`).
  Every call keeps the disk well-formed, and hands no other paths to the
  system than those it is called with (`Touches`).
-/
import TailTalk.Afp.Disk

namespace TailTalk

open Lib

namespace Disk

variable {sys : Sys} {d d' d'' : Disk}

/-- Whatever stands somewhere still does. -/
structure Extends (d d' : Disk) : Prop where
  root : d'.root = d.root
  look : ∀ q o, d.tree.look q = some o → d'.tree.look q = some o

theorem Extends.refl (d : Disk) : Extends d d := ⟨rfl, fun _ _ h => h⟩

theorem Extends.trans (h : Extends d d') (h' : Extends d' d'') : Extends d d'' :=
  ⟨h'.root.trans h.root, fun q o ho => h'.look q o (h.look q o ho)⟩

/-- A call that changes no tree. -/
theorem Extends.of_eq (hroot : d'.root = d.root) (htree : d'.tree = d.tree) : Extends d d' :=
  ⟨hroot, fun q o h => by rw [htree]; exact h⟩

theorem Extends.metadata (h : Extends d d') {p : HostPath}
    (hp : (Disk.metadata sys p d).1.isSome = true) : (Disk.metadata sys p d').1.isSome = true := by
  unfold Disk.metadata at hp ⊢
  dsimp only at hp ⊢
  split at hp
  · cases hp
  · rename_i hrefuse
    rw [if_neg hrefuse, Option.isSome_map]
    rw [Option.isSome_map] at hp
    obtain ⟨o, ho⟩ := Option.isSome_iff_exists.1 hp
    obtain ⟨hlook, hkind⟩ := Option.filter_eq_some_iff.1 ho
    refine Option.isSome_iff_exists.2 ⟨o, Option.filter_eq_some_iff.2 ⟨?_, hkind⟩⟩
    rw [Disk.at, h.root]
    exact h.look _ o hlook

theorem extends_touch (p : HostPath) (d : Disk) : Extends d (d.touch p) := .of_eq rfl rfl

/-- A new object where nothing was. -/
theorem extends_add {q : Path} (hq : q ≠ []) (hnone : d.tree.look q = none)
    (node : ℕ → FileTree Name ℕ) : Extends d (d.add q node) where
  root := rfl
  look := by
    intro p o h
    refine (FileTree.look_alter_other hq ?_).trans h
    rintro ⟨rest, rfl⟩
    rw [FileTree.look, FileTree.find_append, Option.map_bind] at h
    obtain ⟨t, ht, -⟩ := Option.bind_eq_some_iff.1 h
    rw [FileTree.look, ht] at hnone
    cases hnone

theorem extends_makeDirs (done : Path) (names : List Name) (d : Disk) :
    Extends d (makeDirs done names d).2 := by
  induction names generalizing done d with
  | nil => exact .refl d
  | cons name names ih =>
    simp only [makeDirs]
    split
    · split
      · exact ih _ _
      · exact .refl d
    · rename_i hnone
      split
      · have hne : done ++ [name] ≠ [] := List.append_ne_nil_of_right_ne_nil _ (List.cons_ne_nil _ _)
        exact (extends_add hne hnone _).trans (ih _ _)
      · exact .refl d

theorem extends_createDirAll (p : HostPath) (d : Disk) : Extends d (createDirAll sys p d).2 := by
  rw [createDirAll]
  split
  · exact extends_touch p d
  · exact (extends_touch p d).trans (extends_makeDirs _ _ _)

theorem extends_openFile (p : HostPath) (d : Disk) : Extends d (openFile sys p d).2 := by
  rw [openFile]
  split
  · split
    · exact .of_eq rfl rfl
    · exact .of_eq rfl rfl
  · exact .of_eq rfl rfl

theorem extends_openCreate (p : HostPath) (d : Disk) : Extends d (openCreate sys p d).2 := by
  rw [openCreate]
  split
  · exact .of_eq rfl rfl
  · split
    · exact .of_eq rfl rfl
    · exact .of_eq rfl rfl
    · rename_i hnone
      split
      · exact (extends_add (List.cons_ne_nil _ _) hnone _).trans (.of_eq rfl rfl)
      · exact .of_eq rfl rfl

/-! ## Names and paths -/

/-- Directories list each name once, and only names that an entry can have. -/
def Valid (d : Disk) : Prop := d.tree.Wf fun name => validFileName name = true

/-- A valid disk stays valid, and only paths of this kind were handed to the system. -/
structure Touches (kind : HostPath → Prop) (d d' : Disk) : Prop where
  valid : Valid d → Valid d'
  touched : ∀ p ∈ d'.touched, p ∈ d.touched ∨ kind p

section
variable {kind : HostPath → Prop} {p q : HostPath}

theorem Touches.refl (d : Disk) : Touches kind d d := ⟨id, fun _ => Or.inl⟩

theorem Touches.trans (h : Touches kind d d') (h' : Touches kind d' d'') : Touches kind d d'' :=
  ⟨fun hd => h'.valid (h.valid hd), fun q hq => (h'.touched q hq).elim (h.touched q) Or.inr⟩

/-- A change of the tree. -/
theorem Touches.of_tree (htouched : d'.touched = d.touched) (htree : Valid d → Valid d') :
    Touches kind d d' :=
  ⟨htree, fun _ hq => Or.inl (htouched ▸ hq)⟩

theorem Touches.of_eq (htouched : d'.touched = d.touched) (htree : d'.tree = d.tree) :
    Touches kind d d' :=
  .of_tree htouched fun h => by rw [Valid, htree]; exact h

theorem Touches.touch (hp : kind p) (d : Disk) : Touches kind d (d.touch p) where
  valid := id
  touched := by
    intro q hq
    rcases List.mem_append.1 hq with hq | hq
    · exact Or.inl hq
    · exact Or.inr (List.mem_singleton.1 hq ▸ hp)

/-- A call on a path that only looks. -/
theorem Touches.look (hp : kind p) (htouched : d'.touched = (d.touch p).touched)
    (htree : d'.tree = d.tree) : Touches kind d d' :=
  (Touches.touch hp d).trans (.of_eq htouched htree)

theorem valid_put {q : Path} {t : Option (FileTree Name ℕ)} (h : Valid d)
    (hname : t.isSome = true → validFileName (q.getLastD []) = true)
    (ht : ∀ t' ∈ t, t'.Wf fun name => validFileName name = true) : Valid (d.put q t) := by
  refine FileTree.Wf.alter h (fun n hn hsome => ?_) ht
  have hlast := hname hsome
  rw [List.getLastD_eq_getLast?, hn] at hlast
  exact hlast

theorem canAdd_valid {q : Path} (h : d.canAdd q = true) : validFileName (q.getLastD []) = true :=
  (Bool.and_eq_true_iff.1 h).1

theorem valid_add {q : Path} {node : ℕ → FileTree Name ℕ} (h : Valid d)
    (hname : validFileName (q.getLastD []) = true)
    (hnode : ∀ ino, (node ino).Wf fun name => validFileName name = true) :
    Valid (d.add q node) :=
  valid_put h (fun _ => hname) fun _ ht => Option.some.inj ht ▸ hnode _

theorem wf_file (ino : ℕ) : (FileTree.file ino : FileTree Name ℕ).Wf
    fun name => validFileName name = true := .file ino

theorem wf_dir (ino : ℕ) : (FileTree.dir ino [] : FileTree Name ℕ).Wf
    fun name => validFileName name = true :=
  .dir ino [] List.nodup_nil (fun _ h => nomatch h) fun _ h => nomatch h

theorem touches_add {q : Path} {node : ℕ → FileTree Name ℕ}
    (hname : validFileName (q.getLastD []) = true)
    (hnode : ∀ ino, (node ino).Wf fun name => validFileName name = true) (d : Disk) :
    Touches kind d (d.add q node) :=
  .of_tree rfl fun hd => valid_add hd hname hnode

theorem valid_remove {q : Path} (h : Valid d) : Valid (d.put q none) :=
  valid_put h (fun h => nomatch h) fun _ h => nomatch h

theorem touches_remove (q : Path) (d : Disk) : Touches kind d (d.put q none) :=
  .of_tree rfl valid_remove

theorem touches_metadata (hp : kind p) (d : Disk) : Touches kind d (Disk.metadata sys p d).2 :=
  .look hp rfl rfl

theorem touches_readDir (hp : kind p) (d : Disk) : Touches kind d (Disk.readDir sys p d).2 :=
  .look hp rfl rfl

theorem touches_fileType (d : Disk) : Touches kind d (Disk.fileType sys p d).2 := .refl d

theorem touches_createDir (hp : kind p) (d : Disk) : Touches kind d (Disk.createDir sys p d).2 := by
  rw [Disk.createDir]
  split
  · exact .touch hp d
  · rename_i h
    simp only [Bool.or_eq_true, Bool.not_eq_true', not_or, Bool.not_eq_false] at h
    exact (touches_add (canAdd_valid h.2) wf_dir d).trans (.touch hp _)

theorem touches_makeDirs (done : Path) (names : List Name) (d : Disk) :
    Touches kind d (makeDirs done names d).2 := by
  induction names generalizing done d with
  | nil => exact .refl d
  | cons name names ih =>
    simp only [makeDirs]
    split
    · split
      · exact ih _ _
      · exact .refl d
    · split
      · rename_i hname
        refine (touches_add ?_ wf_dir d).trans (ih _ _)
        rw [List.getLastD_concat]
        exact hname
      · exact .refl d

theorem touches_createDirAll (hp : kind p) (d : Disk) :
    Touches kind d (Disk.createDirAll sys p d).2 := by
  rw [Disk.createDirAll]
  split
  · exact .touch hp d
  · exact (Touches.touch hp d).trans (touches_makeDirs _ _ _)

theorem touches_removeFile (hp : kind p) (d : Disk) :
    Touches kind d (Disk.removeFile sys p d).2 := by
  rw [Disk.removeFile]
  split
  · split
    · exact .touch hp d
    · exact (touches_remove _ d).trans (.touch hp _)
  · exact .touch hp d

theorem touches_removeDir (hp : kind p) (d : Disk) :
    Touches kind d (Disk.removeDir sys p d).2 := by
  rw [Disk.removeDir]
  split
  · split
    · exact .touch hp d
    · exact (touches_remove _ d).trans (.touch hp _)
  · exact .touch hp d

theorem touches_rename (hp : kind p) (hq : kind q) (d : Disk) :
    Touches kind d (Disk.rename sys p q d).2 := by
  have hboth : Touches kind d ((d.touch p).touch q) := (Touches.touch hp d).trans (.touch hq _)
  unfold Disk.rename
  dsimp only
  split
  · exact hboth
  · rename_i source hsource
    split
    · exact hboth
    · rename_i hok
      simp only [Bool.or_eq_true, Bool.not_eq_true', not_or, Bool.not_eq_false] at hok
      have hreplaced : Touches kind d
          ((((d.touch p).touch q).put (d.at p) none).put (d.at q) (some source)) := by
        refine hboth.trans (.of_tree rfl fun hd => valid_put (valid_remove hd) ?_ ?_)
        · exact fun _ => canAdd_valid hok.2
        · intro t ht
          obtain rfl := Option.some.inj ht
          exact FileTree.Wf.find hd hsource
      split
      · exact hboth
      · split
        · exact hboth
        · split
          · exact hreplaced
          · split
            · exact hreplaced
            · exact hboth

theorem touches_create (hp : kind p) (d : Disk) : Touches kind d (Disk.create sys p d).2 := by
  rw [Disk.create]
  split
  · exact .touch hp d
  · split
    · exact .look hp rfl rfl
    · exact .touch hp d
    · split
      · rename_i hadd
        exact (touches_add (canAdd_valid hadd) wf_file d).trans (.touch hp _)
      · exact .touch hp d

theorem touches_openFile (hp : kind p) (d : Disk) : Touches kind d (Disk.openFile sys p d).2 := by
  rw [Disk.openFile]
  split
  · split
    · exact .touch hp d
    · exact .look hp rfl rfl
  · exact .touch hp d

theorem touches_openCreate (hp : kind p) (d : Disk) :
    Touches kind d (Disk.openCreate sys p d).2 := by
  rw [Disk.openCreate]
  split
  · exact .touch hp d
  · split
    · exact .look hp rfl rfl
    · exact .touch hp d
    · split
      · rename_i hadd
        exact (touches_add (canAdd_valid hadd) wf_file d).trans (.look hp rfl rfl)
      · exact .touch hp d

theorem touches_copy (hp : kind p) (hq : kind q) (d : Disk) :
    Touches kind d (Disk.copy sys p q d).2 := by
  rw [Disk.copy]
  split
  · split
    · exact (Touches.touch hp d).trans (.touch hq _)
    · have hcreate : Touches kind d
          (Disk.create { sys with refuses := fun _ => false } q (d.touch p)).2 :=
        (Touches.touch hp d).trans (touches_create hq (d.touch p))
      split
      · rename_i d' h
        rw [h] at hcreate
        exact hcreate
      · rename_i d' h
        rw [h] at hcreate
        split
        · exact hcreate.trans (.of_eq rfl rfl)
        · exact hcreate
  · exact .touch hp d

theorem touches_getXattr (hp : kind p) (d : Disk) : Touches kind d (Disk.getXattr sys p d).2 :=
  .look hp rfl rfl

theorem touches_setXattr (hp : kind p) (value : Bytes) (d : Disk) :
    Touches kind d (Disk.setXattr sys p value d).2 := by
  rw [Disk.setXattr]
  split
  · split
    · exact .touch hp d
    · exact .look hp rfl rfl
  · exact .touch hp d

theorem touches_setLen (file : Handle) (len : ℕ) (d : Disk) :
    Touches kind d (Disk.setLen sys file len d).2 := by
  rw [Disk.setLen]
  split
  · exact .refl d
  · exact .of_eq rfl rfl

theorem touches_sync (file : Handle) (d : Disk) : Touches kind d (Disk.sync sys file d).2 :=
  .of_eq rfl rfl

theorem touches_writeAll (fuel : ℕ) (file : Handle) (data : Bytes) (d : Disk) :
    Touches kind d (Disk.writeAll sys fuel file data d).2.2 :=
  (writeAll_keeps sys (R := fun _ d' => Touches kind d d')
    (fun _ _ _ _ _ h => h.trans (.of_eq rfl rfl)) (fun _ _ _ h => h) fuel file data d rfl (.refl d)).2

end

end Disk

end TailTalk
