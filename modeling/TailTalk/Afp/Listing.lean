/-
  What a listing of a directory holds.

  An entry has its length in front, the parameters of an object behind it, and
  a pad byte where those are of odd length.  The length is that of parameters
  with the name that the object has on disk; the parameters themselves have the
  name of its node.
-/
import TailTalk.Afp.Layout

namespace TailTalk

open Lib

/-! ## What a listing sees -/

namespace Node

variable (sys : Sys) (node : Node) (d : Disk)

theorem finderInfo?_touched (l : List HostPath) (wanted : Bool) :
    node.finderInfo? sys { d with touched := d.touched ++ l } wanted =
      node.finderInfo? sys d wanted := by
  induction l generalizing d with
  | nil => rw [List.append_nil]
  | cons p l ih =>
    have hfirst : { d with touched := d.touched ++ p :: l } =
        { d.touch p with touched := (d.touch p).touched ++ l } := by
      rw [Disk.touch, List.append_assoc]
      rfl
    rw [hfirst, ih, finderInfo?_touch]

end Node

namespace Volume

/-- The same nodes over the same disk. -/
structure Alike (v v' : Volume) : Prop where
  nodes : v'.nodes = v.nodes
  paths : v'.pathToId = v.pathToId
  ids : v'.nextId = v.nextId
  created : v'.createdAt = v.createdAt
  disk : ∃ l, v'.disk = { v.disk with touched := v.disk.touched ++ l }

namespace Alike

variable {v v' v'' : Volume}

theorem refl (v : Volume) : Alike v v :=
  ⟨rfl, rfl, rfl, rfl, [], by rw [List.append_nil]⟩

theorem trans (h : Alike v v') (h' : Alike v' v'') : Alike v v'' := by
  obtain ⟨l, hl⟩ := h.disk
  obtain ⟨l', hl'⟩ := h'.disk
  refine ⟨h'.nodes.trans h.nodes, h'.paths.trans h.paths, h'.ids.trans h.ids,
    h'.created.trans h.created, l ++ l', ?_⟩
  rw [hl', hl, List.append_assoc]

theorem of_looked {kind : HostPath → Prop} (h : Looked kind v v') : Alike v v' := by
  obtain ⟨l, -, rfl⟩ := h
  exact ⟨rfl, rfl, rfl, rfl, l, rfl⟩

theorem registered? (h : Alike v v') (path : Path) : v'.registered? path = v.registered? path := by
  rw [Volume.registered?, Volume.registered?, h.nodes, h.paths]

end Alike

/-- The volume once an entry is registered. -/
def withEntry (v : Volume) (nodeId : NodeId) (nodePath : Path) (entry : Name × Bool) : Volume :=
  let path := nodePath ++ [entry.1]
  if v.pathToId.contains path then v
  else { v with
    nextId := v.nextId + 1
    nodes := v.nodes.insert v.nextId
      (.fresh v.nextId nodeId (posixNameToAfp entry.1) entry.2 path)
    pathToId := v.pathToId.insert path v.nextId }

theorem Alike.withEntry {v v' : Volume} (h : Alike v v') (nodeId : NodeId) (nodePath : Path)
    (entry : Name × Bool) :
    Alike (v.withEntry nodeId nodePath entry) (v'.withEntry nodeId nodePath entry) := by
  unfold Volume.withEntry
  rw [h.paths, h.nodes, h.ids]
  dsimp only
  split_ifs
  · exact h
  · exact ⟨rfl, rfl, rfl, h.created, h.disk⟩

section
variable (sys : Sys) [MacRoman]

/-- The parameters of an entry with this node. -/
def entryBlock (v : Volume) (cmd : FPEnumerate) (path : Path) (isDir : Bool) (node : Node) :
    Option Bytes :=
  if isDir then dirBlock sys v node path cmd.directoryBitmap
  else fileBlock sys v node cmd.fileBitmap

/-- An entry of a listing, with the node that it has and the parameters of that. -/
structure Item where
  entry : Name × Bool
  node : Node
  block : Bytes

/-- The entry, with its length in front and made even. -/
def Item.bytes (cmd : FPEnumerate) (w : Item) : Bytes :=
  let pad := entryLen cmd w.entry % 2
  let fileType := if w.entry.2 then FileType.directory else FileType.file
  [UInt8.ofNat (entryLen cmd w.entry + pad + 2), fileType.toByte] ++ (w.block ++ zeros pad)

/-- The bytes of the entries of a page. -/
def listBytes (cmd : FPEnumerate) (ws : List Item) : Bytes := ws.flatMap (·.bytes cmd)

/-- An entry as it is written, if it has parameters. -/
def written? (v : Volume) (cmd : FPEnumerate) (path : Path) (entry : Name × Bool) : Option Item :=
  (v.registered? path).bind fun node =>
    (entryBlock sys v cmd path entry.2 node).map fun block => ⟨entry, node, block⟩

/-- The entries that a page has from an offset on. -/
def listed (cmd : FPEnumerate) (nodeId : NodeId) (nodePath : Path) :
    Volume → List (Name × Bool) → ℕ → List Item
  | _, [], _ => []
  | v, entry :: entries, offset =>
    let v := v.withEntry nodeId nodePath entry
    if offset + 2 + (entryLen cmd entry + entryLen cmd entry % 2) > cmd.maxReplySize then []
    else
      let ws := (v.written? sys cmd (nodePath ++ [entry.1]) entry).toList
      ws ++ listed cmd nodeId nodePath v entries (offset + (listBytes cmd ws).length)

/-- The entries of a directory with their kinds, from a disk. -/
def kindsOf (d : Disk) (path : Path) : List Name → Option (List (Name × Bool))
  | [] => some []
  | name :: names =>
    if isPrivateName name then kindsOf d path names
    else (Disk.fileType sys (.object (path ++ [name]) false) d).1.bind fun isDir =>
      (kindsOf d path names).map ((name, isDir) :: ·)

/-- The snapshot that a listing reads on in, or a new one. -/
def snapshotOf (v : Volume) (nodeId : NodeId) (node : Node) (startIndex : ℕ) :
    Option (List (Name × Bool)) :=
  (if startIndex = 1 then none else v.enumCache[nodeId]?).or
    (((Disk.readDir sys node.hostPath v.disk).1.bind (kindsOf sys v.disk node.path)).map
      (·.insertionSort entryLe))

/-- The entries of a listing. -/
def listing (v : Volume) (cmd : FPEnumerate) : List Item :=
  ((v.resolveNode sys cmd.directoryId (afpPathToPosix cmd.path.value)).toOption.bind fun nodeId =>
    (v.nodes[nodeId]?).bind fun node =>
      (snapshotOf sys v nodeId node cmd.startIndex).map fun entries =>
        listed sys cmd nodeId node.path v (pageOf entries cmd.startIndex cmd.reqCount) 2).getD []

end

section
variable {sys : Sys} [MacRoman]

namespace Alike

variable {v v' : Volume}

theorem entryBlock (h : Alike v v') (cmd : FPEnumerate) (path : Path) (isDir : Bool) (node : Node) :
    entryBlock sys v' cmd path isDir node = entryBlock sys v cmd path isDir node := by
  obtain ⟨l, hl⟩ := h.disk
  have hmodified : modifiedAt sys v' = modifiedAt sys v := by
    rw [modifiedAt, modifiedAt, h.created, hl]
    rfl
  have hfinder : ∀ wanted, node.finderInfo? sys v'.disk wanted = node.finderInfo? sys v.disk wanted :=
    fun wanted => by rw [hl, node.finderInfo?_touched]
  have hfile : ∀ info bitmap, fileFields sys v' node info bitmap = fileFields sys v node info bitmap :=
    fun info bitmap => by
      have hlen : rsrcLen sys node.path v'.disk = rsrcLen sys node.path v.disk := by
        rw [hl]
        rfl
      simp only [fileFields, hfinder, hlen]
  have hdir : ∀ n bitmap, dirFields sys v' node n bitmap = dirFields sys v node n bitmap :=
    fun n bitmap => by simp only [dirFields, hfinder, hmodified, h.created]
  have hmeta : (Disk.metadata sys node.hostPath v'.disk).1 =
      (Disk.metadata sys node.hostPath v.disk).1 := by
    rw [hl]
    rfl
  have hoffspring : ∀ bitmap, offspring? sys bitmap path v'.disk =
      offspring? sys bitmap path v.disk := fun bitmap => by
    rw [hl]
    rfl
  simp only [Volume.entryBlock, fileBlock, dirBlock, hfile, hdir, hmeta, hoffspring]

theorem written? (h : Alike v v') (cmd : FPEnumerate) (path : Path) (entry : Name × Bool) :
    v'.written? sys cmd path entry = v.written? sys cmd path entry := by
  simp only [Volume.written?, h.registered?, h.entryBlock]

theorem listed (h : Alike v v') (cmd : FPEnumerate) (nodeId : NodeId) (nodePath : Path)
    (entries : List (Name × Bool)) (offset : ℕ) :
    listed sys cmd nodeId nodePath v' entries offset =
      listed sys cmd nodeId nodePath v entries offset := by
  induction entries generalizing v v' offset with
  | nil => rfl
  | cons entry entries ih =>
    have hentry := h.withEntry nodeId nodePath entry
    simp only [Volume.listed, hentry.written?, ih hentry]

end Alike

/-! ## Lengths -/

/-- The length of the parameters of an entry, of a node with this name. -/
def parmsLen (cmd : FPEnumerate) (isDir : Bool) (name : Name) : ℕ :=
  if isDir then responseLen dirWidths cmd.directoryBitmap name
  else responseLen fileWidths cmd.fileBitmap name

theorem entryLen_eq (cmd : FPEnumerate) (entry : Name × Bool) :
    entryLen cmd entry = parmsLen cmd entry.2 (posixNameToAfp entry.1) := rfl

theorem entryBlock_length {v : Volume} {cmd : FPEnumerate} {path : Path} {isDir : Bool}
    {node : Node} {block : Bytes} (h : entryBlock sys v cmd path isDir node = some block) :
    block.length = parmsLen cmd isDir node.name := by
  unfold entryBlock at h
  unfold parmsLen
  cases isDir with
  | false => exact fileBlock_length h
  | true => exact dirBlock_length h

theorem responseLen_le (widths : List (Bitmap × ℕ)) (bitmap : Bitmap) (name : Name) :
    responseLen widths bitmap name ≤ (widths.map (·.2)).sum + 32 := by
  have hfields := fieldsLen_le widths bitmap
  have hmangled : (mangleName name).length ≤ 31 := mangleName_length_le name
  unfold responseLen
  split <;> omega

theorem parmsLen_le (cmd : FPEnumerate) (isDir : Bool) (name : Name) :
    parmsLen cmd isDir name ≤ 110 := by
  unfold parmsLen
  split
  · exact responseLen_le dirWidths _ name
  · exact (responseLen_le fileWidths _ name).trans (by decide)

/-- Only the length of the name makes a difference. -/
theorem responseLen_eq_iff (widths : List (Bitmap × ℕ)) {bitmap : Bitmap} {name name' : Name} :
    responseLen widths bitmap name = responseLen widths bitmap name' ↔
      (bitmap.has Parm.LONG_NAME = true → (mangleName name).length = (mangleName name').length) := by
  unfold responseLen
  split
  · rename_i hhas
    constructor
    · intro h _
      omega
    · intro h
      rw [h hhas]
  · rename_i hhas
    exact ⟨fun _ h => absurd h hhas, fun _ => rfl⟩

namespace Item

variable {cmd : FPEnumerate} {w : Item}

/-- The node goes by the name of the entry, as far as its length matters. -/
def Named (cmd : FPEnumerate) (w : Item) : Prop :=
  (if w.entry.2 then cmd.directoryBitmap else cmd.fileBitmap).has Parm.LONG_NAME = true →
    (mangleName w.node.name).length = (mangleName (posixNameToAfp w.entry.1)).length

/-- The length in front is that of the parameters behind it. -/
def OfNode (cmd : FPEnumerate) (w : Item) : Prop :=
  w.block.length = parmsLen cmd w.entry.2 w.node.name

theorem named_iff : w.Named cmd ↔ parmsLen cmd w.entry.2 w.node.name = entryLen cmd w.entry := by
  rw [entryLen_eq, Named, parmsLen, parmsLen]
  cases w.entry.2 with
  | false => exact (responseLen_eq_iff _).symm
  | true => exact (responseLen_eq_iff _).symm

theorem bytes_length : (w.bytes cmd).length = 2 + w.block.length + entryLen cmd w.entry % 2 := by
  simp only [bytes, List.length_append, List.length_cons, List.length_nil, zeros_length]
  omega

end Item

/-- An entry of even length, with that length in front. -/
def Framed (e : Bytes) : Prop := e.length % 2 = 0 ∧ e.head?.map UInt8.toNat = some e.length

theorem Item.framed_iff {cmd : FPEnumerate} {w : Item} (h : w.OfNode cmd) :
    Framed (w.bytes cmd) ↔ w.Named cmd := by
  have hle := parmsLen_le cmd w.entry.2 (posixNameToAfp w.entry.1)
  rw [← entryLen_eq] at hle
  have hhead : (w.bytes cmd).head?.map UInt8.toNat =
      some (entryLen cmd w.entry + entryLen cmd w.entry % 2 + 2) := by
    simp only [bytes, List.cons_append, List.head?_cons, Option.map_some, UInt8.toNat_ofNat']
    rw [Nat.mod_eq_of_lt (by omega)]
  rw [Framed, hhead, bytes_length, Option.some_inj, named_iff, ← h]
  omega

theorem written?_block (v : Volume) (cmd : FPEnumerate) (path : Path) (entry : Name × Bool) :
    (v.written? sys cmd path entry).map (·.block) =
      (v.registered? path).bind (entryBlock sys v cmd path entry.2) := by
  rw [written?]
  cases v.registered? path with
  | none => rfl
  | some node =>
    rw [Option.bind_some, Option.map_map]
    exact Option.map_id_apply

theorem ofNode_written? {v : Volume} {cmd : FPEnumerate} {path : Path} {entry : Name × Bool}
    {w : Item} (h : v.written? sys cmd path entry = some w) :
    w.entry = entry ∧ w.OfNode cmd := by
  obtain ⟨node, -, h⟩ := Option.bind_eq_some_iff.1 h
  obtain ⟨block, hblock, rfl⟩ := Option.map_eq_some_iff.1 h
  exact ⟨rfl, entryBlock_length hblock⟩

theorem listBytes_append (cmd : FPEnumerate) (ws ws' : List Item) :
    listBytes cmd (ws ++ ws') = listBytes cmd ws ++ listBytes cmd ws' := List.flatMap_append

theorem listed_ofNode (v : Volume) (cmd : FPEnumerate) (nodeId : NodeId) (nodePath : Path)
    (entries : List (Name × Bool)) (offset : ℕ) :
    ∀ w ∈ listed sys cmd nodeId nodePath v entries offset, w.OfNode cmd := by
  induction entries generalizing v offset with
  | nil => exact fun w hw => absurd hw List.not_mem_nil
  | cons entry entries ih =>
    intro w hw
    rw [listed] at hw
    split at hw
    · exact absurd hw List.not_mem_nil
    · rcases List.mem_append.1 hw with hw | hw
      · exact (ofNode_written? (Option.mem_toList.1 hw)).2
      · exact ih _ _ w hw

/-- With names of the right length, what is listed fits. -/
theorem listed_fits {cmd : FPEnumerate} {nodeId : NodeId} {nodePath : Path}
    {entries : List (Name × Bool)} {v : Volume} {offset : ℕ} (hoffset : offset ≤ cmd.maxReplySize)
    (hnamed : ∀ w ∈ listed sys cmd nodeId nodePath v entries offset, w.Named cmd) :
    offset + (listBytes cmd (listed sys cmd nodeId nodePath v entries offset)).length ≤
      cmd.maxReplySize := by
  induction entries generalizing v offset with
  | nil => exact hoffset
  | cons entry entries ih =>
    rw [listed] at hnamed ⊢
    split at hnamed
    · rename_i hfull
      rw [if_pos hfull]
      exact hoffset
    · rename_i hroom
      rw [if_neg hroom, listBytes_append, List.length_append, ← Nat.add_assoc]
      refine ih ?_ fun w hw => hnamed w (List.mem_append_right _ hw)
      cases hw : (v.withEntry nodeId nodePath entry).written? sys cmd (nodePath ++ [entry.1]) entry with
      | none => exact hoffset
      | some w =>
        obtain ⟨hentry, hblock⟩ := ofNode_written? hw
        have hlen := Item.named_iff.1 (hnamed w (List.mem_append_left _ (Option.mem_toList.2 hw)))
        rw [← hblock, hentry] at hlen
        rw [Option.toList_some, listBytes, List.flatMap_singleton, Item.bytes_length, hlen, hentry]
        omega

/-! ## The turns of a listing -/

/-- What a turn adds to a page. -/
structure Added (cmd : FPEnumerate) (ws : List Item) (page page' : Page) : Prop where
  kept : KeptBelow page.out page.offset page'.out
  offset : page'.offset = page.offset + (listBytes cmd ws).length
  count : page'.count = page.count + ws.length
  bytes : bytesAt page'.out page.offset (listBytes cmd ws).length = listBytes cmd ws

theorem Added.nothing {cmd : FPEnumerate} {page : Page} {out : Bytes}
    (h : KeptBelow page.out page.offset out) : Added cmd [] page { page with out := out } :=
  ⟨h, rfl, rfl, rfl⟩

theorem Added.trans {cmd : FPEnumerate} {ws ws' : List Item} {page page' page'' : Page}
    (h : Added cmd ws page page') (h' : Added cmd ws' page' page'') :
    Added cmd (ws ++ ws') page page'' where
  kept := h.kept.trans h'.kept (h.offset ▸ Nat.le_add_right _ _)
  offset := by rw [h'.offset, h.offset, listBytes_append, List.length_append, Nat.add_assoc]
  count := by rw [h'.count, h.count, List.length_append, Nat.add_assoc]
  bytes := by
    rw [listBytes_append, List.length_append, bytesAt_add, ← h.offset, h'.bytes,
      h'.kept.bytesAt_eq h.offset.ge, h.bytes]

theorem registerEntry_spec (nodeId : NodeId) (nodePath : Path) (entry : Name × Bool) (v : Volume) :
    Proc.wp True (registerEntry sys nodeId nodePath entry) (fun r v' => ∀ u, r = .ok u →
      Alike (v.withEntry nodeId nodePath entry) v') v := by
  simp only [registerEntry, Proc.wp_bind, Proc.wp_read, Proc.next_ok, Proc.wp_ite, Proc.wp_pure,
    freshId, Proc.wp_lift, Proc.wp_modify, insertNode, registerMangle]
  constructor
  · intro hthere _ _
    rw [withEntry, if_pos hthere]
    exact .refl v
  · intro hnone
    refine ⟨fun hid _ _ => ?_, fun _ => ⟨fun _ h => (by cases h), fun _ => trivial⟩⟩
    rw [withEntry, if_neg hnone]
    exact ⟨rfl, rfl, rfl, rfl, [], by rw [List.append_nil]⟩

theorem entryParms_spec (cmd : FPEnumerate) (path : Path) (isDir : Bool) (out : Bytes) (base : ℕ)
    (v : Volume) : Proc.wp True (entryParms sys cmd path isDir out base) (fun r v' => Alike v v' ∧
      Answers ((v.registered? path).bind (entryBlock sys v cmd path isDir)) (Wrote out base) r) v := by
  cases isDir with
  | false =>
    refine Proc.wp_mono (getFileParmsResp_spec cmd.fileBitmap path (Or.inl trivial) v) ?_
    intro r v' h
    cases hnode : v.registered? path with
    | none =>
      rw [hnode] at h
      obtain ⟨rfl, rfl⟩ := h
      exact ⟨.refl v', _, rfl⟩
    | some node =>
      rw [hnode] at h
      exact ⟨.of_looked h.1, h.2⟩
  | true =>
    refine Proc.wp_mono (getDirectoryParmsResp_spec cmd.directoryBitmap path (Or.inl trivial) v) ?_
    intro r v' h
    cases hnode : v.registered? path with
    | none =>
      rw [hnode] at h
      obtain ⟨rfl, rfl⟩ := h
      exact ⟨.refl v', _, rfl⟩
    | some node =>
      rw [hnode] at h
      exact ⟨.of_looked h.1, h.2⟩

omit [MacRoman] in
/-- Two bytes, a block and what is behind it. -/
theorem wrote_entry {out out₁ out₂ out₃ out₄ block pad : Bytes} {start n : ℕ} {a b : UInt8}
    (h₁ : store out start [a] = .ok out₁) (h₂ : store out₁ (start + 1) [b] = .ok out₂)
    (h₃ : Wrote out₂ (start + 2) block (out₃, n)) (h₄ : store out₃ (start + 2 + n) pad = .ok out₄) :
    KeptBelow out start out₄ ∧
      bytesAt out₄ start ([a, b] ++ (block ++ pad)).length = [a, b] ++ (block ++ pad) := by
  obtain ⟨hkept, hn, hblock⟩ := h₃
  dsimp only at hn
  subst hn
  have hfront : KeptBelow out start out₂ :=
    ((KeptBelow.refl out start).store (Nat.le_refl _) h₁).store (Nat.le_add_right _ _) h₂
  refine ⟨(hfront.trans hkept (Nat.le_add_right _ _)).store (by omega) h₄, ?_⟩
  have hbefore : ∀ i m, i + m ≤ start + 2 → bytesAt out₄ i m = bytesAt out₂ i m := by
    intro i m him
    rw [bytesAt_store_before h₄ (by omega), hkept.bytesAt_eq him]
  have ha : bytesAt out₂ start 1 = [a] := by
    rw [bytesAt_store_before h₂ (Nat.le_refl _)]
    exact bytesAt_store h₁
  have hb : bytesAt out₂ (start + 1) 1 = [b] := bytesAt_store h₂
  have hlen : ([a, b] ++ (block ++ pad)).length = 1 + 1 + (block.length + pad.length) := by
    rw [List.length_append, List.length_append]
    rfl
  rw [hlen, bytesAt_add, bytesAt_add, bytesAt_add, hbefore start 1 (by omega), ha,
    hbefore (start + 1) 1 (by omega), hb, bytesAt_store_before h₄ (Nat.le_refl _), hblock,
    bytesAt_store h₄]
  rfl

theorem writeEntry_spec (cmd : FPEnumerate) (nodePath : Path) (entry : Name × Bool) (page : Page)
    (v : Volume) : Proc.wp True (writeEntry sys cmd nodePath entry page) (fun r v' => Alike v v' ∧
      ∀ next, r = .ok next →
        if page.offset + 2 + (entryLen cmd entry + entryLen cmd entry % 2) > cmd.maxReplySize then
          next = none
        else ∃ page', next = some page' ∧
          Added cmd (v.written? sys cmd (nodePath ++ [entry.1]) entry).toList page page') v := by
  simp only [writeEntry, Proc.wp_ite, Proc.wp_pure, Proc.wp_bind, Proc.wp_lift, Proc.next_ok,
    Proc.wp_attempt, implies_true, and_true]
  constructor
  · intro hfull
    refine ⟨.refl v, ?_⟩
    rintro _ ⟨⟩
    rw [if_pos hfull]
  · intro hroom out₁ h₁ out₂ h₂
    refine Proc.wp_mono (entryParms_spec cmd (nodePath ++ [entry.1]) entry.2 out₂
      (page.offset + 2) v) ?_
    rintro r v' ⟨halike, hr⟩
    have hkept : KeptBelow page.out page.offset out₂ :=
      ((KeptBelow.refl page.out page.offset).store (Nat.le_refl _) h₁).store
        (Nat.le_add_right _ _) h₂
    rw [← written?_block] at hr
    cases hw : v.written? sys cmd (nodePath ++ [entry.1]) entry with
    | none =>
      rw [hw] at hr
      obtain ⟨e, rfl⟩ := hr
      refine ⟨halike, ?_⟩
      rintro _ ⟨⟩
      rw [if_neg hroom]
      exact ⟨_, rfl, .nothing hkept⟩
    | some w =>
      rw [hw] at hr
      obtain ⟨⟨out₃, n⟩, rfl, hwrote⟩ := hr
      rw [Proc.wp_bind, Proc.wp_lift]
      refine ⟨fun out₄ h₄ => ⟨halike, ?_⟩, fun _ => trivial⟩
      rintro _ ⟨⟩
      obtain rfl := (ofNode_written? hw).1
      obtain ⟨hkept, hbytes⟩ := wrote_entry h₁ h₂ hwrote h₄
      have hlist : listBytes cmd [w] = w.bytes cmd := List.flatMap_singleton _ w
      rw [if_neg hroom]
      refine ⟨_, rfl, hkept, ?_, rfl, ?_⟩
      · have hn : n = w.block.length := hwrote.2.1
        rw [Option.toList_some, hlist, Item.bytes_length, hn]
        dsimp only
        omega
      · rw [Option.toList_some, hlist]
        exact hbytes

theorem writeEntries_spec (cmd : FPEnumerate) (nodeId : NodeId) (nodePath : Path)
    (entries : List (Name × Bool)) (page : Page) (v : Volume) :
    Proc.wp True (writeEntries sys cmd nodeId nodePath entries page) (fun r _ => ∀ page', r = .ok page' →
      Added cmd (listed sys cmd nodeId nodePath v entries page.offset) page page') v := by
  induction entries generalizing page v with
  | nil =>
    rintro _ ⟨⟩
    exact .nothing (.refl page.out page.offset)
  | cons entry entries ih =>
    rw [writeEntries, Proc.wp_bind]
    refine Proc.wp_mono (registerEntry_spec nodeId nodePath entry v) ?_
    rintro (e | u) v₁ hentry
    · exact fun _ h => nomatch h
    have halike := hentry u rfl
    rw [Proc.next_ok, Proc.wp_bind]
    refine Proc.wp_mono (writeEntry_spec cmd nodePath entry page v₁) ?_
    rintro (e | next) v₂ ⟨halike', hnext⟩
    · exact fun _ h => nomatch h
    have hturn := hnext next rfl
    rw [halike.written?] at hturn
    rw [listed]
    split at hturn
    · rename_i hfull
      subst hturn
      rintro _ ⟨⟩
      rw [if_pos hfull]
      exact .nothing (.refl page.out page.offset)
    · rename_i hroom
      obtain ⟨page₁, rfl, hadded⟩ := hturn
      rw [if_neg hroom, Proc.next_ok]
      refine Proc.wp_mono (ih page₁ v₂) ?_
      intro r _ hrest page₂ hr
      have hlisted := hrest page₂ hr
      rw [(halike.trans halike').listed, hadded.offset] at hlisted
      exact hadded.trans hlisted

/-! ## Whole listings -/

omit [MacRoman] in
theorem kindsOf_touch (p : HostPath) (d : Disk) (path : Path) (names : List Name) :
    kindsOf sys (d.touch p) path names = kindsOf sys d path names := by
  induction names with
  | nil => rfl
  | cons name names ih =>
    rw [kindsOf, kindsOf, ih]
    rfl

omit [MacRoman] in
theorem entryKinds_spec (path : Path) (names : List Name) (v : Volume) :
    Proc.wp True (entryKinds sys path names) (fun r v' => v' = v ∧
      Answers (kindsOf sys v.disk path names) (fun kinds entries => entries = kinds) r) v := by
  induction names with
  | nil => exact ⟨rfl, _, rfl, rfl⟩
  | cons name names ih =>
    rw [entryKinds, kindsOf, Proc.wp_ite]
    constructor
    · intro hprivate
      rw [if_pos hprivate]
      exact ih
    · intro hshared
      rw [if_neg hshared, Proc.wp_bind, wp_host]
      have hdisk : (Disk.fileType sys (.object (path ++ [name]) false) v.disk).2 = v.disk := rfl
      rw [hdisk]
      cases (Disk.fileType sys (.object (path ++ [name]) false) v.disk).1 with
      | none => exact ⟨rfl, _, rfl⟩
      | some isDir =>
        rw [Proc.next_ok, Proc.wp_bind]
        refine Proc.wp_mono ih ?_
        rintro r _ ⟨rfl, hr⟩
        rw [Option.bind_some]
        cases hkinds : kindsOf sys _ path names with
        | none =>
          rw [hkinds] at hr
          obtain ⟨e, rfl⟩ := hr
          exact ⟨rfl, _, rfl⟩
        | some kinds =>
          rw [hkinds] at hr
          obtain ⟨_, rfl, rfl⟩ := hr
          exact ⟨rfl, _, rfl, rfl⟩

omit [MacRoman] in
theorem snapshot_spec (nodeId : NodeId) (node : Node) (startIndex : ℕ) (v : Volume) :
    Proc.wp True (snapshot sys nodeId node startIndex) (fun r v' => ∀ entries, r = .ok entries →
      Alike v v' ∧ snapshotOf sys v nodeId node startIndex = some entries) v := by
  rw [snapshot, Proc.wp_bind, Proc.wp_read, Proc.next_ok, snapshotOf]
  split
  · rename_i entries hcached
    rintro _ ⟨⟩
    rw [hcached]
    exact ⟨.refl v, rfl⟩
  · rename_i hnone
    rw [hnone, Option.none_or, Proc.wp_bind, wp_host]
    cases hnames : (Disk.readDir sys node.hostPath v.disk).1 with
    | none => exact fun _ h => nomatch h
    | some names =>
      rw [Proc.next_ok, Proc.wp_bind]
      refine Proc.wp_mono (entryKinds_spec node.path names _) ?_
      rintro r _ ⟨rfl, hr⟩
      have hseen : kindsOf sys (Disk.readDir sys node.hostPath v.disk).2 node.path names =
          kindsOf sys v.disk node.path names := kindsOf_touch node.hostPath v.disk node.path names
      rw [hseen] at hr
      cases hkinds : kindsOf sys v.disk node.path names with
      | none =>
        rw [hkinds] at hr
        obtain ⟨e, rfl⟩ := hr
        exact fun _ h => nomatch h
      | some kinds =>
        rw [hkinds] at hr
        obtain ⟨_, rfl, rfl⟩ := hr
        rintro _ ⟨⟩
        refine ⟨⟨rfl, rfl, rfl, rfl, [node.hostPath], rfl⟩, ?_⟩
        rw [Option.bind_some, hkinds]
        rfl

/-- A reply with these entries. -/
structure Enumerated (cmd : FPEnumerate) (ws : List Item) (reply : Bytes × ℕ) : Prop where
  length : reply.2 = 2 + (listBytes cmd ws).length
  bytes : reply.1.take reply.2 = be16 (UInt16.ofNat ws.length) ++ listBytes cmd ws

/-- A page from behind the count, and the count in front of it. -/
theorem Added.enumerated {cmd : FPEnumerate} {ws : List Item} {out out' : Bytes} {page : Page}
    (h : Added cmd ws ⟨out, 2, 0⟩ page)
    (hcount : store page.out 0 (be16 (UInt16.ofNat page.count)) = .ok out') :
    Enumerated cmd ws (out', page.offset) := by
  have hlen : (be16 (UInt16.ofNat page.count)).length = 2 := be16_length _
  have hws : page.count = ws.length := by rw [h.count, Nat.zero_add]
  have htake : out'.take page.offset = bytesAt out' 0 (2 + (listBytes cmd ws).length) := by
    rw [bytesAt, List.drop_zero, h.offset]
  have hfront : bytesAt out' 0 2 = be16 (UInt16.ofNat page.count) := hlen ▸ bytesAt_store hcount
  refine ⟨h.offset, ?_⟩
  dsimp only
  rw [htake, bytesAt_add, hfront, Nat.zero_add, bytesAt_store_after hcount (by omega), hws]
  exact congrArg _ h.bytes

/-- **A reply is the number of entries and the bytes of them.** -/
theorem enumerate_spec (cmd : FPEnumerate) (out : Bytes) (v : Volume) :
    Proc.wp True (enumerate sys cmd out) (fun r _ => ∀ reply, r = .ok reply →
      Enumerated cmd (listing sys v cmd) reply) v := by
  rw [enumerate, Proc.wp_bind, Proc.wp_read, Proc.next_ok, Proc.wp_bind, Proc.wp_ofExcept, listing]
  cases v.resolveNode sys cmd.directoryId (afpPathToPosix cmd.path.value) with
  | error e => exact fun _ h => by cases h
  | ok nodeId =>
    rw [Proc.next_ok, getNode, Proc.wp_bind, Proc.wp_bind, Proc.wp_read, Proc.next_ok,
      Proc.wp_orElse]
    refine ⟨fun node hnode => ?_, fun _ _ h => by cases h⟩
    rw [Proc.next_ok, Proc.wp_ite, Proc.wp_ite]
    refine ⟨fun _ _ h => (by cases h), fun _ => ⟨fun _ _ h => (by cases h), fun _ => ?_⟩⟩
    rw [Proc.wp_bind]
    refine Proc.wp_mono (snapshot_spec nodeId node cmd.startIndex v) ?_
    rintro (e | entries) v₁ hsnapshot
    · exact fun _ h => by cases h
    obtain ⟨halike, hentries⟩ := hsnapshot entries rfl
    rw [Proc.next_ok, Proc.wp_ite]
    refine ⟨fun _ _ h => (by cases h), fun _ => ?_⟩
    rw [Proc.wp_bind]
    refine Proc.wp_mono (writeEntries_spec cmd nodeId node.path _ _ v₁) ?_
    rintro (e | page) v₂ hpage
    · exact fun _ h => by cases h
    have hadded := hpage page rfl
    rw [halike.listed] at hadded
    rw [Proc.next_ok, Proc.wp_bind, Proc.wp_lift]
    refine ⟨fun out' hout' => ?_, fun _ => trivial⟩
    rintro _ ⟨⟩
    have hlisting : ((Except.ok nodeId : Except AfpError NodeId).toOption.bind fun nodeId =>
        (v.nodes[nodeId]?).bind fun node =>
          (snapshotOf sys v nodeId node cmd.startIndex).map fun entries =>
            listed sys cmd nodeId node.path v (pageOf entries cmd.startIndex cmd.reqCount) 2) =
        some (listed sys cmd nodeId node.path v (pageOf entries cmd.startIndex cmd.reqCount) 2) := by
      rw [Except.toOption, Option.bind_some, hnode, Option.bind_some, hentries, Option.map_some]
    rw [hlisting, Option.getD_some]
    exact hadded.enumerated hout'

theorem listing_cases (v : Volume) (cmd : FPEnumerate) : listing sys v cmd = [] ∨
    ∃ nodeId nodePath entries, listing sys v cmd = listed sys cmd nodeId nodePath v entries 2 := by
  rw [listing]
  cases (v.resolveNode sys cmd.directoryId (afpPathToPosix cmd.path.value)).toOption with
  | none => exact Or.inl rfl
  | some nodeId =>
    rw [Option.bind_some]
    cases v.nodes[nodeId]? with
    | none => exact Or.inl rfl
    | some node =>
      rw [Option.bind_some]
      cases snapshotOf sys v nodeId node cmd.startIndex with
      | none => exact Or.inl rfl
      | some entries => exact Or.inr ⟨nodeId, node.path, _, rfl⟩

/-- The length in front of each entry is right, and all fit, if names are of the length that the
    page was cut for. -/
theorem framed_iff {v : Volume} {cmd : FPEnumerate} {reply : Bytes × ℕ}
    (h : Enumerated cmd (listing sys v cmd) reply) :
    ((∀ w ∈ listing sys v cmd, Framed (w.bytes cmd)) ∧ reply.2 ≤ cmd.maxReplySize) ↔
      2 ≤ cmd.maxReplySize ∧ ∀ w ∈ listing sys v cmd, w.Named cmd := by
  have hblocks : ∀ w ∈ listing sys v cmd, w.OfNode cmd := by
    rcases @listing_cases sys _ v cmd with hnone | ⟨nodeId, nodePath, entries, heq⟩
    · rw [hnone]
      exact fun w hw => absurd hw List.not_mem_nil
    · rw [heq]
      exact listed_ofNode v cmd nodeId nodePath entries 2
  have hframed : (∀ w ∈ listing sys v cmd, Framed (w.bytes cmd)) ↔
      ∀ w ∈ listing sys v cmd, w.Named cmd :=
    forall₂_congr fun w hw => Item.framed_iff (hblocks w hw)
  rw [hframed, h.length]
  constructor
  · rintro ⟨hnamed, hfits⟩
    exact ⟨by omega, hnamed⟩
  · rintro ⟨htwo, hnamed⟩
    refine ⟨hnamed, ?_⟩
    rcases @listing_cases sys _ v cmd with hnone | ⟨nodeId, nodePath, entries, heq⟩
    · rw [hnone]
      exact htwo
    · rw [heq] at hnamed ⊢
      exact listed_fits htwo hnamed

/-- **Layout of parameters.** The parameters of a file are laid out exactly if its access rights are
    not asked for, those of a directory always. The entries of a listing have their lengths in front
    and fit into the reply exactly if there is room for the count, and each goes by a name as long
    as that on disk. -/
theorem parms_laid_out_iff (sys : Sys) (v : Volume) :
    (∀ node bitmap out base, Proc.wp (out.length < base + BLOCK_ROOM)
      (nodeFileParmsResp sys node bitmap out base) (fun r _ => ∀ written, r = .ok written →
        ∃ info block, (Disk.metadata sys node.hostPath v.disk).1 = some info ∧
          Wrote out base block written ∧
          block.length = responseLen fileWidths bitmap node.name ∧
          (LaidOut FileParm.bits fileWidths (fileFields sys v node info bitmap) bitmap node.name
            block ↔ bitmap.has FileParm.ACCESS_RIGHTS = false)) v) ∧
    (∀ path bitmap out base, Proc.wp (out.length < base + BLOCK_ROOM)
      (getDirectoryParmsResp sys bitmap path out base) (fun r _ => ∀ written, r = .ok written →
        ∃ node offspring block, v.registered? path = some node ∧
          offspring? sys bitmap path v.disk = some offspring ∧ Wrote out base block written ∧
          LaidOut DirParm.bits dirWidths (dirFields sys v node offspring bitmap) bitmap node.name
            block) v) ∧
    (∀ cmd out, Proc.wp True (enumerate sys cmd out) (fun r _ => ∀ reply, r = .ok reply →
      Enumerated cmd (listing sys v cmd) reply ∧
        (((∀ w ∈ listing sys v cmd, Framed (w.bytes cmd)) ∧ reply.2 ≤ cmd.maxReplySize) ↔
          2 ≤ cmd.maxReplySize ∧ ∀ w ∈ listing sys v cmd, w.Named cmd)) v) := by
  refine ⟨?_, ?_, ?_⟩
  · intro node bitmap out base
    refine Proc.wp_mono (nodeFileParmsResp_spec node bitmap (Nat.lt_or_ge _ _) v) ?_
    rintro r _ ⟨-, hr⟩ written rfl
    cases hinfo : (Disk.metadata sys node.hostPath v.disk).1 with
    | none =>
      rw [fileBlock, hinfo] at hr
      obtain ⟨e, he⟩ := hr
      cases he
    | some info =>
      rw [fileBlock, hinfo] at hr
      obtain ⟨_, ⟨⟩, hwrote⟩ := hr
      exact ⟨info, _, rfl, hwrote, block_length (fileFields_widths v node info bitmap) bitmap _,
        fileBlock_laidOut_iff v node info bitmap⟩
  · intro path bitmap out base
    refine Proc.wp_mono (getDirectoryParmsResp_spec bitmap path (Nat.lt_or_ge _ _) v) ?_
    rintro r _ hr written rfl
    cases hnode : v.registered? path with
    | none =>
      rw [hnode] at hr
      cases hr.2
    | some node =>
      rw [hnode] at hr
      obtain ⟨-, hr⟩ := hr
      cases hoffspring : offspring? sys bitmap path v.disk with
      | none =>
        rw [dirBlock, hoffspring] at hr
        obtain ⟨e, he⟩ := hr
        cases he
      | some offspring =>
        rw [dirBlock, hoffspring] at hr
        obtain ⟨_, ⟨⟩, hwrote⟩ := hr
        exact ⟨node, offspring, _, rfl, rfl, hwrote, dirBlock_laidOut v node offspring bitmap⟩
  · intro cmd out
    refine Proc.wp_mono (enumerate_spec cmd out v) ?_
    intro r _ hr reply hreply
    exact ⟨hr reply hreply, framed_iff (hr reply hreply)⟩

end

/-! ## Parameters that are not laid out -/

section

local instance listingRoman : MacRoman := macintosh

/-- What a procedure replies. -/
def replyOf (m : Afp (Bytes × ℕ)) (v : Volume) : Option Bytes :=
  match m v with
  | .ok (.ok reply, _) => some (reply.1.take reply.2)
  | _ => none

/-- The access rights of a file. -/
def askRights : Afp (Bytes × ℕ) := do
  let nodeId ← resolveNodeLazy .calm ROOT_ID ["a".toList]
  let node ← getNode nodeId
  nodeFileParmsResp .calm node FileParm.ACCESS_RIGHTS (zeros 256) 0

/-- A listing with one entry. -/
def listRoot (maxReplySize : ℕ) : Afp (Bytes × ℕ) :=
  enumerate .calm
    ⟨0, ROOT_ID, Parm.LONG_NAME, Parm.LONG_NAME, 1, 1, maxReplySize, ⟨[], none⟩⟩ (zeros 256)

/-- A file is made twice and deleted once; a directory of its name is renamed, and with it the node
    left over. -/
def renameOver : Afp Unit := do
  let _ ← createFile .calm .hard ROOT_ID ["a".toList]
  let _ ← createFile .calm .hard ROOT_ID ["a".toList]
  delete .calm ROOT_ID "a".toList
  let _ ← createDir .calm ROOT_ID ["a".toList]
  moveAndRename .calm ROOT_ID ROOT_ID ["a".toList] [] "bb".toList

/-- Access rights are left out; a reply of no bytes has a count; an entry of seven bytes says
    eight. -/
theorem parms_not_laid_out :
    (∃ block, replyOf askRights (.ofEntries [("a".toList, .file 2)]) = some block ∧ ∀ fields,
      ¬ LaidOut FileParm.bits fileWidths fields FileParm.ACCESS_RIGHTS "a".toList block) ∧
    (∃ reply, replyOf (listRoot 0) (.ofEntries [("a".toList, .file 2)]) = some reply ∧
      0 < reply.length) ∧
    (∃ entry, replyOf (do renameOver; listRoot 100) (.ofEntries []) = some (be16 1 ++ entry) ∧
      ¬ Framed entry) := by
  refine ⟨⟨[], by decide +kernel, fun fields h => ?_⟩, ⟨be16 0, by decide +kernel, by decide⟩,
    [8, 128, 0, 2, 1, 97, 0], by decide +kernel, fun h => ?_⟩
  · obtain ⟨data, -, hdata, hat⟩ := h.field FileParm.ACCESS_RIGHTS (by decide) (by decide)
    have hnone : bytesAt [] (lowerLen fileWidths FileParm.ACCESS_RIGHTS FileParm.ACCESS_RIGHTS)
        data.length = [] := by
      rw [bytesAt, List.drop_nil, List.take_nil]
    exact hdata (hat.symm.trans hnone)
  · exact absurd h.1 (by decide)

end

end Volume

end TailTalk
