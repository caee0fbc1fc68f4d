/-
  File trees — directories of named files and directories, each object with an
  identity of its own.

  `alter` changes what stands at one path, in an existing directory, and
  `look_alter_other` says that nothing changes elsewhere; creating, removing
  and moving are built from it.
-/
import Mathlib.Data.List.Basic
import Mathlib.Data.List.Infix
import Mathlib.Tactic.Common

namespace Lib

/-- A file, or a directory with its entries. -/
inductive FileTree (N ι : Type) where
  | file (id : ι)
  | dir (id : ι) (entries : List (N × FileTree N ι))

/-- What an object is, apart from what it contains. -/
structure FileObj (ι : Type) where
  id : ι
  isDir : Bool

namespace FileTree

variable {N ι : Type}

/-- The object at the root. -/
def obj : FileTree N ι → FileObj ι
  | file id => ⟨id, false⟩
  | dir id _ => ⟨id, true⟩

/-- The names in a directory; a file has none. -/
def listing : FileTree N ι → List N
  | file _ => []
  | dir _ entries => entries.map (·.1)

variable [DecidableEq N]

/-! ## Entries of one directory -/

/-- The entry of a name. -/
def entry (entries : List (N × FileTree N ι)) (n : N) : Option (FileTree N ι) :=
  (entries.find? fun e => e.1 = n).map (·.2)

/-- Put something else, or nothing, under a name; a new name goes last. -/
def setEntry (entries : List (N × FileTree N ι)) (n : N) :
    Option (FileTree N ι) → List (N × FileTree N ι)
  | none => entries.filter fun e => e.1 ≠ n
  | some t =>
    if n ∈ entries.map (·.1) then entries.map fun e => if e.1 = n then (n, t) else e
    else entries ++ [(n, t)]

section
variable {entries : List (N × FileTree N ι)} {n m : N}

theorem entry_isSome_iff : (entry entries n).isSome = true ↔ n ∈ entries.map (·.1) := by
  simp [entry, List.find?_isSome]

theorem entry_eq_none_iff : entry entries n = none ↔ n ∉ entries.map (·.1) := by
  rw [← entry_isSome_iff, Bool.not_eq_true, Option.isSome_eq_false_iff, Option.isNone_iff_eq_none]

theorem entry_cons (e : N × FileTree N ι) :
    entry (e :: entries) m = if e.1 = m then some e.2 else entry entries m := by
  rw [entry, List.find?_cons]
  by_cases h : e.1 = m <;> simp [h, entry]

theorem entry_append (more : List (N × FileTree N ι)) :
    entry (entries ++ more) m = (entry entries m).or (entry more m) := by
  rw [entry, List.find?_append, entry, entry]
  cases List.find? (fun e => decide (e.1 = m)) entries <;> rfl

theorem entry_setEntry (x : Option (FileTree N ι)) :
    entry (setEntry entries n x) m = if m = n then x else entry entries m := by
  cases x with
  | none =>
    simp only [setEntry]
    induction entries with
    | nil => simp [entry]
    | cons e entries ih =>
      rw [List.filter_cons]
      by_cases he : e.1 = n
      · rw [if_neg (by simpa using he), ih, entry_cons]
        by_cases hm : m = n
        · rw [if_pos hm, if_pos hm]
        · rw [if_neg hm, if_neg hm, if_neg (fun h => hm (h.symm.trans he))]
      · rw [if_pos (by simpa using he), entry_cons, entry_cons, ih]
        by_cases hm : m = n
        · subst hm
          rw [if_neg he, if_pos rfl, if_pos rfl]
        · rw [if_neg hm, if_neg hm]
  | some t =>
    simp only [setEntry]
    split
    · rename_i hmem
      induction entries with
      | nil => cases hmem
      | cons e entries ih =>
        rw [List.map_cons, entry_cons, entry_cons]
        by_cases he : e.1 = n
        · rw [if_pos he]
          by_cases hm : m = n
          · rw [if_pos hm.symm, if_pos hm]
          · rw [if_neg (Ne.symm hm), if_neg hm, if_neg (fun h => hm (h.symm.trans he))]
            by_cases hin : n ∈ entries.map (·.1)
            · rw [ih hin, if_neg hm]
            · congr 1
              refine List.map_congr_left (fun e' he' => if_neg fun h => hin ?_) |>.trans
                (List.map_id' entries)
              exact List.mem_map.2 ⟨e', he', h⟩
        · have hin : n ∈ entries.map (·.1) := by
            rcases List.mem_cons.1 hmem with h | h
            · exact absurd h.symm he
            · exact h
          rw [if_neg he, ih hin]
          by_cases hm : m = n
          · subst hm
            rw [if_neg he, if_pos rfl, if_pos rfl]
          · rw [if_neg hm, if_neg hm]
    · rename_i hmem
      rw [entry_append, entry_cons]
      by_cases hm : m = n
      · subst hm
        rw [entry_eq_none_iff.2 hmem, if_pos rfl, if_pos rfl]
        rfl
      · rw [if_neg (Ne.symm hm), if_neg hm]
        simp [entry]

/-- The names after a change are those of before, less or more the one. -/
theorem nodup_setEntry (h : (entries.map (·.1)).Nodup) (x : Option (FileTree N ι)) :
    ((setEntry entries n x).map (·.1)).Nodup := by
  cases x with
  | none => exact h.sublist (List.filter_sublist.map _)
  | some t =>
    simp only [setEntry]
    split
    · rw [List.map_map]
      have : ((fun e : N × FileTree N ι => e.1) ∘ fun e => if e.1 = n then (n, t) else e) =
          fun e => e.1 := by
        funext e
        simp only [Function.comp_apply]
        split
        · rename_i he
          exact he.symm
        · rfl
      rwa [this]
    · rename_i hmem
      rw [List.map_append, List.nodup_append]
      exact ⟨h, by simp, by rintro a ha b hb rfl; simp at hb; exact hmem (hb ▸ ha)⟩

end

/-! ## Paths -/

/-- The subtree at a path. -/
def find : FileTree N ι → List N → Option (FileTree N ι)
  | t, [] => some t
  | file _, _ :: _ => none
  | dir _ entries, n :: p =>
    match entry entries n with
    | none => none
    | some t => find t p

/-- The object at a path. -/
def look (t : FileTree N ι) (p : List N) : Option (FileObj ι) := (t.find p).map obj

/-- The names a directory lists. -/
def names (t : FileTree N ι) (p : List N) : List N :=
  match t.find p with
  | none => []
  | some t' => t'.listing

/-- Change what stands at a path, in an existing directory. -/
def alter (f : Option (FileTree N ι) → Option (FileTree N ι)) :
    FileTree N ι → List N → FileTree N ι
  | t, [] => (f (some t)).getD t
  | file id, _ :: _ => file id
  | dir id entries, n :: p =>
    match p with
    | [] => dir id (setEntry entries n (f (entry entries n)))
    | _ :: _ =>
      match entry entries n with
      | none => dir id entries
      | some t => dir id (setEntry entries n (some (alter f t p)))

section
variable {t t' : FileTree N ι} {p q : List N} {n : N}
  {f : Option (FileTree N ι) → Option (FileTree N ι)}

@[simp] theorem find_nil : t.find [] = some t := by
  cases t <;> rfl

@[simp] theorem look_nil : t.look [] = some t.obj := by
  rw [look, find_nil, Option.map_some]

theorem find_append : t.find (p ++ q) = (t.find p).bind (·.find q) := by
  induction p generalizing t with
  | nil => simp
  | cons n p ih =>
    cases t with
    | file id => rfl
    | dir id entries =>
      simp only [List.cons_append, find]
      cases entry entries n with
      | none => rfl
      | some t' => exact ih

theorem obj_alter (hp : p ≠ []) : (alter f t p).obj = t.obj := by
  cases p with
  | nil => exact absurd rfl hp
  | cons n p =>
    cases t with
    | file id => rfl
    | dir id entries =>
      cases p with
      | nil => rfl
      | cons m p =>
        simp only [alter]
        cases entry entries n <;> rfl

/-- Nothing else changes. -/
theorem look_alter_other (hp : p ≠ []) (hpre : ¬ p <+: q) : (alter f t p).look q = t.look q := by
  induction p generalizing t q with
  | nil => exact absurd rfl hp
  | cons n p ih =>
    cases t with
    | file id => rfl
    | dir id entries =>
      cases q with
      | nil => rw [look_nil, look_nil, obj_alter hp]
      | cons m q =>
        rcases p with _ | ⟨k, p⟩
        · have hne : m ≠ n := by
            rintro rfl
            exact hpre ⟨q, rfl⟩
          simp only [alter, look, find, entry_setEntry, if_neg hne]
        · simp only [alter]
          rcases hn : entry entries n with _ | t'
          · rfl
          simp only [look, find, entry_setEntry]
          by_cases hm : m = n
          · subst hm
            rw [if_pos rfl, hn]
            refine ih (List.cons_ne_nil _ _) fun h => hpre ?_
            obtain ⟨rest, hrest⟩ := h
            exact ⟨rest, by rw [← hrest]; rfl⟩
          · rw [if_neg hm]

end

/-! ## Well-formed trees -/

/-- Every directory lists each name once, and only names of this kind. -/
inductive Wf (P : N → Prop) : FileTree N ι → Prop where
  | file (id : ι) : Wf P (file id)
  | dir (id : ι) (entries : List (N × FileTree N ι)) (nodup : (entries.map (·.1)).Nodup)
    (valid : ∀ e ∈ entries, P e.1) (sub : ∀ e ∈ entries, Wf P e.2) : Wf P (dir id entries)

namespace Wf

variable {P : N → Prop} {t t' : FileTree N ι} {p : List N} {n : N}
  {f : Option (FileTree N ι) → Option (FileTree N ι)}

theorem of_entry {id : ι} {entries : List (N × FileTree N ι)} (h : Wf P (FileTree.dir id entries))
    (hn : entry entries n = some t') : Wf P t' := by
  obtain ⟨e, he, rfl⟩ := Option.map_eq_some_iff.1 hn
  cases h with
  | dir _ _ _ _ hsub => exact hsub e (List.mem_of_find?_eq_some he)

theorem valid_of_entry {id : ι} {entries : List (N × FileTree N ι)}
    (h : Wf P (FileTree.dir id entries)) (hn : entry entries n = some t') : P n := by
  have hmem := entry_isSome_iff.1 (by rw [hn]; rfl : (entry entries n).isSome = true)
  obtain ⟨e, he, rfl⟩ := List.mem_map.1 hmem
  cases h with
  | dir _ _ _ hvalid _ => exact hvalid e he

theorem find (h : Wf P t) (hp : t.find p = some t') : Wf P t' := by
  induction p generalizing t with
  | nil =>
    rw [find_nil] at hp
    exact Option.some.inj hp ▸ h
  | cons n p ih =>
    cases t with
    | file id => cases hp
    | dir id entries =>
      rw [FileTree.find] at hp
      rcases hn : entry entries n with _ | t₁
      · rw [hn] at hp
        cases hp
      · rw [hn] at hp
        exact ih (h.of_entry hn) hp

theorem names (h : Wf P t) (hn : n ∈ t.names p) : P n := by
  rw [FileTree.names] at hn
  rcases hp : t.find p with _ | t'
  · rw [hp] at hn
    cases hn
  · rw [hp] at hn
    cases h.find hp with
    | file id => cases hn
    | dir id entries _ hvalid _ =>
      obtain ⟨e, he, rfl⟩ := List.mem_map.1 hn
      exact hvalid e he

theorem setEntry {id : ι} {entries : List (N × FileTree N ι)} {x : Option (FileTree N ι)}
    (h : Wf P (FileTree.dir id entries)) (hn : x.isSome = true → P n) (hx : ∀ t ∈ x, Wf P t) :
    Wf P (FileTree.dir id (FileTree.setEntry entries n x)) := by
  cases h with
  | dir _ _ hnodup hvalid hsub =>
    refine .dir id _ (nodup_setEntry hnodup x) ?_ ?_
    · intro e he
      cases x with
      | none => exact hvalid e (List.mem_of_mem_filter he)
      | some t =>
        simp only [FileTree.setEntry] at he
        split at he
        · obtain ⟨e', he', rfl⟩ := List.mem_map.1 he
          split
          · exact hn rfl
          · exact hvalid e' he'
        · rcases List.mem_append.1 he with he | he
          · exact hvalid e he
          · obtain rfl := List.mem_singleton.1 he
            exact hn rfl
    · intro e he
      cases x with
      | none => exact hsub e (List.mem_of_mem_filter he)
      | some t =>
        simp only [FileTree.setEntry] at he
        split at he
        · obtain ⟨e', he', rfl⟩ := List.mem_map.1 he
          split
          · exact hx t rfl
          · exact hsub e' he'
        · rcases List.mem_append.1 he with he | he
          · exact hsub e he
          · obtain rfl := List.mem_singleton.1 he
            exact hx t rfl

/-- A change that puts something well-formed under a valid name, if anything. -/
theorem alter (h : Wf P t) (hn : ∀ n ∈ p.getLast?, (f (t.find p)).isSome = true → P n)
    (hf : ∀ t' ∈ f (t.find p), Wf P t') : Wf P (alter f t p) := by
  induction p generalizing t with
  | nil =>
    cases t with
    | file id =>
      rw [FileTree.alter, find_nil] at *
      rcases hx : f (some (FileTree.file id)) with _ | t'
      · exact h
      · exact hf t' hx
    | dir id entries =>
      rw [FileTree.alter, find_nil] at *
      rcases hx : f (some (FileTree.dir id entries)) with _ | t'
      · exact h
      · exact hf t' hx
  | cons m p ih =>
    cases t with
    | file id => exact h
    | dir id entries =>
      rcases p with _ | ⟨k, p⟩
      · have hfind : (FileTree.dir id entries).find [m] = entry entries m := by
          simp only [FileTree.find]
          cases entry entries m <;> simp
        rw [hfind] at hn hf
        exact h.setEntry (hn m rfl) hf
      · rw [FileTree.alter]
        rcases hm : entry entries m with _ | t'
        · exact h
        · have hfind : (FileTree.dir id entries).find (m :: k :: p) = t'.find (k :: p) := by
            rw [FileTree.find, hm]
          rw [hfind] at hn hf
          refine h.setEntry (fun _ => ?_) ?_
          · exact h.valid_of_entry hm
          · intro t'' ht''
            obtain rfl := Option.some.inj ht''
            exact ih (h.of_entry hm) (by simpa using hn) hf

end Wf

end FileTree

end Lib
