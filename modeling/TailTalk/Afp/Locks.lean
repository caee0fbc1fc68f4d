/-
  Byte-range locks — which ranges of a fork are held, over a whole session.

  `byte_range_lock` measures the data fork for both forks of a file, negates
  the offset of a range from the end, replies with 32 bits of the start, and
  takes an empty range for one that meets what it lies in: `Plain` requests
  stay clear of all four.
-/
import TailTalk.Afp.Fields
import TailTalk.Afp.Positions

namespace TailTalk

open Lib

namespace Volume

/-! ## Ranges -/

/-- The bytes of a range. -/
def bytesOfRange (range : ℕ × ℕ) : Set ℕ := Set.Ico range.1 (range.1 + range.2)

/-- The ranges have a byte in common. -/
def Meets (a b : ℕ × ℕ) : Prop := ¬ Disjoint (bytesOfRange a) (bytesOfRange b)

theorem meets_iff {a b : ℕ × ℕ} :
    Meets a b ↔ max a.1 b.1 < min (a.1 + a.2) (b.1 + b.2) := by
  rw [Meets, bytesOfRange, bytesOfRange, Set.Ico_disjoint_Ico, not_le]

instance (a b : ℕ × ℕ) : Decidable (Meets a b) := decidable_of_iff _ meets_iff.symm

theorem Meets.symm {a b : ℕ × ℕ} (h : Meets a b) : Meets b a := fun hd => h hd.symm

/-- One of the ranges is empty and lies within the other. -/
def Swallows (a b : ℕ × ℕ) : Prop :=
  (a.2 = 0 ∨ b.2 = 0) ∧ a.1 < b.1 + b.2 ∧ b.1 < a.1 + a.2

instance (a b : ℕ × ℕ) : Decidable (Swallows a b) := inferInstanceAs (Decidable (_ ∧ _))

/-- Nothing in it saturates. -/
def Small (range : ℕ × ℕ) : Prop := range.1 < 4294967296 ∧ range.2 < 4294967296

theorem saturatingAdd_small {range : ℕ × ℕ} (h : range.1 < 18446744069414584320)
    (h' : range.2 < 4294967296) : saturatingAdd range.1 range.2 = range.1 + range.2 := by
  unfold saturatingAdd
  omega

/-- The comparison of the code is that of the ranges, but for empty ones. -/
theorem rangesOverlap_iff {a b : ℕ × ℕ} (ha : a.1 < 18446744069414584320) (ha' : a.2 < 4294967296)
    (hb : Small b) : rangesOverlap a.1 a.2 b = true ↔ Meets a b ∨ Swallows a b := by
  have hb₁ := hb.1
  rw [rangesOverlap, saturatingAdd_small ha ha', saturatingAdd_small (by omega) hb.2, meets_iff,
    Swallows, decide_eq_true_eq]
  omega

/-! ## What a request is to do -/

/-- The ranges held for a fork. -/
def heldBy (v : Volume) (forkId : UInt16) : List (ℕ × ℕ) := v.forkLocks[forkId]?.getD []

/-- Where a range starts, from the start or the end of a fork of this length. -/
def lockStart (req : FPByteRangeLock) (length : ℕ) : ℕ :=
  ((if req.fromEnd then (length : ℤ) else 0) + req.offset).toNat

/-- The range of a request. -/
def lockRange (req : FPByteRangeLock) (length : ℕ) : ℕ × ℕ := (lockStart req length, req.length)

local instance lawfulRange : LawfulBEq (ℕ × ℕ) := inferInstance

/-- The answer to a request, and what is held after it. -/
def LockAnswered (req : FPByteRangeLock) (length : ℕ) (held : List (ℕ × ℕ))
    (r : Except AfpError UInt32) (held' : List (ℕ × ℕ)) : Prop :=
  if req.unlock then
    if lockRange req length ∈ held then r = .ok 0 ∧ held' = held.erase (lockRange req length)
    else r = .error .rangeNotLocked ∧ held' = held
  else if ∃ b ∈ held, Meets (lockRange req length) b then
    r = .error .rangeOverlap ∧ held' = held
  else
    (∃ w, r = .ok w ∧ w.toNat = lockStart req length) ∧ held' = held ++ [lockRange req length]

/-- A request is answered without a panic, and the ranges of other forks stay. -/
def LockServed (sys : Sys) (v : Volume) (req : FPByteRangeLock) : Prop :=
  ∀ file, v.fileOf req.forkId = some file → ∃ r v', byteRangeLock sys req v = .ok (r, v') ∧
    LockAnswered req (bytesOf v.disk file).length (v.heldBy req.forkId) r (v'.heldBy req.forkId) ∧
      ∀ other, other ≠ req.forkId → v'.heldBy other = v.heldBy other

/-- The length that the code goes by: that of the file, whichever fork is open. -/
def measured (sys : Sys) (v : Volume) (forkId : UInt16) : Option ℕ :=
  (v.forkRefToNodeId[forkId]?).bind fun key => (v.nodes[key.1]?).bind fun node =>
    (Disk.metadata sys node.hostPath v.disk).1.map (·.len)

/-- The file can be measured and gives the start that the fork would; the offset can be negated; and
    a lock meets a range that is held, or its start can be replied and no empty range is in the way.
    -/
def Plain (sys : Sys) (v : Volume) (req : FPByteRangeLock) : Prop :=
  ∀ file ∈ v.fileOf req.forkId, ∃ len ∈ measured sys v req.forkId,
    lockStart req len = lockStart req (bytesOf v.disk file).length ∧
      (req.fromEnd = true → req.offset ≠ -2147483648) ∧
        (req.unlock = false →
          (∃ b ∈ v.heldBy req.forkId, Meets (lockRange req (bytesOf v.disk file).length) b) ∨
            lockStart req (bytesOf v.disk file).length < 4294967296 ∧
              ∀ b ∈ v.heldBy req.forkId,
                ¬ Swallows (lockRange req (bytesOf v.disk file).length) b)

instance (sys : Sys) (v : Volume) (req : FPByteRangeLock) : Decidable (Plain sys v req) := by
  unfold Plain
  infer_instance

/-- What is held: ranges apart from each other, each as long as a request can say. -/
structure Held (ranges : List (ℕ × ℕ)) : Prop where
  small : ∀ range ∈ ranges, Small range
  apart : ranges.Pairwise fun a b => ¬ Meets a b

theorem Held.erase {ranges : List (ℕ × ℕ)} (h : Held ranges) (range : ℕ × ℕ) :
    Held (ranges.erase range) :=
  ⟨fun b hb => h.small b (List.mem_of_mem_erase hb), h.apart.sublist List.erase_sublist⟩

theorem Held.append {ranges : List (ℕ × ℕ)} {range : ℕ × ℕ} (h : Held ranges)
    (hsmall : Small range) (hmeets : ∀ b ∈ ranges, ¬ Meets range b) :
    Held (ranges ++ [range]) := by
  refine ⟨fun b hb => ?_, ?_⟩
  · rcases List.mem_append.1 hb with hb | hb
    · exact h.small b hb
    · exact List.mem_singleton.1 hb ▸ hsmall
  · rw [List.pairwise_append]
    refine ⟨h.apart, List.pairwise_singleton _ _, fun a ha b hb hmeet => ?_⟩
    rw [List.mem_singleton.1 hb] at hmeet
    exact hmeets a ha hmeet.symm

/-! ## One request -/

section

variable {sys : Sys} {v v' : Volume} {req : FPByteRangeLock} {file : Handle}

/-- The start is computed without an overflow, and exactly unless it is out of range. -/
theorem lockOffset_spec {len : ℕ} (hneg : req.fromEnd = true → req.offset ≠ -2147483648) :
    ∃ start, lockOffset req len = .ok start ∧ (start = lockStart req len ∨
      18446744073709551615 ≤ start ∧ 18446744073709551615 ≤ lockStart req len) := by
  unfold lockOffset lockStart
  by_cases hend : req.fromEnd = true
  · rw [if_pos hend, if_pos hend]
    by_cases hoffset : req.offset < 0
    · rw [if_pos hoffset, if_neg (hneg hend)]
      exact ⟨_, rfl, Or.inl (by omega)⟩
    · rw [if_neg hoffset]
      refine ⟨_, rfl, ?_⟩
      unfold saturatingAdd
      omega
  · rw [if_neg hend, if_neg hend]
    exact ⟨_, rfl, Or.inl (by omega)⟩

theorem any_rangesOverlap_iff {held : List (ℕ × ℕ)} {range : ℕ × ℕ} (hheld : Held held)
    (hstart : range.1 < 18446744069414584320) (hlength : range.2 < 4294967296)
    (hempty : (∃ b ∈ held, Meets range b) ∨ ∀ b ∈ held, ¬ Swallows range b) :
    held.any (rangesOverlap range.1 range.2) = true ↔ ∃ b ∈ held, Meets range b := by
  rw [List.any_eq_true]
  constructor
  · rintro ⟨b, hb, hoverlap⟩
    rcases hempty with hmeets | hempty
    · exact hmeets
    · rcases (rangesOverlap_iff hstart hlength (hheld.small b hb)).1 hoverlap with h | h
      · exact ⟨b, hb, h⟩
      · exact absurd h (hempty b hb)
  · rintro ⟨b, hb, hmeets⟩
    exact ⟨b, hb, (rangesOverlap_iff hstart hlength (hheld.small b hb)).2 (Or.inl hmeets)⟩

theorem Meets.start_lt {a b : ℕ × ℕ} (h : Meets a b) (hb : Small b) : a.1 < 8589934592 := by
  have hlt := meets_iff.1 h
  have hstart := hb.1
  have hlength := hb.2
  omega

/-- The list of one fork is another one. -/
def Settles (forkId : UInt16) (v : Volume) (held : List (ℕ × ℕ)) (v' : Volume) : Prop :=
  v'.heldBy forkId = held ∧ ∀ other, other ≠ forkId → v'.heldBy other = v.heldBy other

theorem Settles.refl (forkId : UInt16) (v : Volume) : Settles forkId v (v.heldBy forkId) v :=
  ⟨rfl, fun _ _ => rfl⟩

theorem Settles.insert {forkId : UInt16} {held locks : List (ℕ × ℕ)} (h : Settles forkId v held v')
    {v'' : Volume} (hlocks : v''.forkLocks = v'.forkLocks.insert forkId locks) :
    Settles forkId v locks v'' := by
  refine ⟨?_, fun other hother => ?_⟩
  · rw [heldBy, hlocks, getElem?_insert_eq, if_pos rfl, Option.getD_some]
  · rw [heldBy, hlocks, getElem?_insert_eq, if_neg hother]
    exact h.2 other hother

theorem measured_eq_some {forkId : UInt16} {len : ℕ} : measured sys v forkId = some len ↔
    ∃ key node info, v.forkRefToNodeId[forkId]? = some key ∧ v.nodes[key.1]? = some node ∧
      (Disk.metadata sys node.hostPath v.disk).1 = some info ∧ info.len = len := by
  simp only [measured, Option.bind_eq_some_iff, Option.map_eq_some_iff]
  constructor
  · rintro ⟨key, hkey, node, hnode, info, hinfo, hlen⟩
    exact ⟨key, node, info, hkey, hnode, hinfo, hlen⟩
  · rintro ⟨key, node, info, hkey, hnode, hinfo, hlen⟩
    exact ⟨key, hkey, node, hnode, info, hinfo, hlen⟩

/-- What the code does with a range that starts here. -/
def Searched (req : FPByteRangeLock) (start : ℕ) (held : List (ℕ × ℕ)) (r : Except AfpError UInt32)
    (held' : List (ℕ × ℕ)) : Prop :=
  if req.unlock then
    if (start, req.length) ∈ held then r = .ok 0 ∧ held' = held.erase (start, req.length)
    else r = .error .rangeNotLocked ∧ held' = held
  else if held.any (rangesOverlap start req.length) then r = .error .rangeOverlap ∧ held' = held
  else r = .ok (UInt32.ofNat start) ∧ held' = held ++ [(start, req.length)]

theorem byteRangeLock_spec {len start : ℕ} (hlen : measured sys v req.forkId = some len)
    (hstart : lockOffset req len = .ok start) :
    Proc.wp False (byteRangeLock sys req) (fun r v' => ∃ held',
      Settles req.forkId v held' v' ∧ Searched req start (v.heldBy req.forkId) r held') v := by
  obtain ⟨key, node, info, href, hnode, hinfo, rfl⟩ := measured_eq_some.1 hlen
  have hheld : v.forkLocks[req.forkId]?.getD [] = v.heldBy req.forkId := rfl
  simp only [byteRangeLock, Proc.wp_bind, forkOf, Proc.wp_read, Proc.next_ok, href, Proc.wp_orElse,
    Option.some.injEq, forall_eq', getNode, hnode, reduceCtorEq, IsEmpty.forall_iff, and_true,
    wp_host, hinfo, Proc.wp_lift, hstart, Except.ok.injEq, setLocks, Proc.wp_modify, Proc.wp_ite,
    Proc.wp_throw, Proc.wp_pure, hheld]
  have hput : Settles req.forkId v (v.heldBy req.forkId)
      { v with forkLocks := v.forkLocks.insert req.forkId (v.heldBy req.forkId) } :=
    (Settles.refl req.forkId v).insert rfl
  refine ⟨⟨fun hunlock => ⟨fun hmem => ?_, fun hmem => ?_⟩, fun hlock =>
    ⟨fun hany => ?_, fun hany => ?_⟩⟩, fun hpanic => hpanic (returns_ok start)⟩
  · refine ⟨_, hput.insert rfl, ?_⟩
    rw [Searched, if_pos hunlock, if_pos hmem]
    exact ⟨rfl, rfl⟩
  · refine ⟨_, (Settles.refl req.forkId v).insert rfl, ?_⟩
    rw [Searched, if_pos hunlock, if_neg hmem]
    exact ⟨rfl, rfl⟩
  · refine ⟨_, (Settles.refl req.forkId v).insert rfl, ?_⟩
    rw [Searched, if_neg hlock, if_pos hany]
    exact ⟨rfl, rfl⟩
  · refine ⟨_, hput.insert rfl, ?_⟩
    rw [Searched, if_neg hlock, if_neg hany]
    exact ⟨rfl, rfl⟩

/-- What the code does is what the request asks for, where the start is right. -/
theorem Searched.answered {start length : ℕ} {held held' : List (ℕ × ℕ)}
    {r : Except AfpError UInt32} (h : Searched req start held r held') (hheld : Held held)
    (hlength : req.length < 4294967296)
    (hstart : start = lockStart req length ∨
      18446744073709551615 ≤ start ∧ 18446744073709551615 ≤ lockStart req length)
    (hplain : req.unlock = false → (∃ b ∈ held, Meets (lockRange req length) b) ∨
      lockStart req length < 4294967296 ∧ ∀ b ∈ held, ¬ Swallows (lockRange req length) b) :
    LockAnswered req length held r held' ∧ Held held' := by
  unfold Searched at h
  unfold LockAnswered
  cases hunlock : req.unlock with
  | true =>
    rw [hunlock, if_pos rfl] at h
    rw [if_pos rfl]
    have hmem : (start, req.length) ∈ held ↔ lockRange req length ∈ held := by
      rcases hstart with rfl | ⟨hbig, hbig'⟩
      · rfl
      · have hnot : ∀ n, 18446744073709551615 ≤ n → (n, req.length) ∉ held := by
          intro n hn hmem
          have hsmall := (hheld.small _ hmem).1
          dsimp only at hsmall
          omega
        exact iff_of_false (hnot _ hbig) (hnot _ hbig')
    split_ifs at h with hin
    · obtain ⟨rfl, rfl⟩ := h
      rw [if_pos (hmem.1 hin)]
      have hsame : start = lockStart req length := by
        have hsmall := (hheld.small _ hin).1
        dsimp only at hsmall
        omega
      exact ⟨⟨rfl, by rw [hsame]; rfl⟩, hheld.erase _⟩
    · obtain ⟨rfl, rfl⟩ := h
      rw [if_neg (hin ∘ hmem.2)]
      exact ⟨⟨rfl, rfl⟩, hheld⟩
  | false =>
    rw [hunlock, if_neg Bool.false_ne_true] at h
    rw [if_neg Bool.false_ne_true]
    have hbound : lockStart req length < 8589934592 := by
      rcases hplain hunlock with ⟨b, hb, hmeets⟩ | ⟨hlt, -⟩
      · exact hmeets.start_lt (hheld.small b hb)
      · omega
    obtain rfl : start = lockStart req length := by omega
    have hany : held.any (rangesOverlap (lockStart req length) req.length) = true ↔
        ∃ b ∈ held, Meets (lockRange req length) b :=
      any_rangesOverlap_iff hheld (show lockStart req length < _ by omega) hlength
        ((hplain hunlock).imp_right And.right)
    by_cases hmeets : ∃ b ∈ held, Meets (lockRange req length) b
    · rw [if_pos (hany.2 hmeets)] at h
      obtain ⟨rfl, rfl⟩ := h
      rw [if_pos hmeets]
      exact ⟨⟨rfl, rfl⟩, hheld⟩
    · rw [if_neg (fun h' => hmeets (hany.1 h'))] at h
      obtain ⟨rfl, rfl⟩ := h
      rw [if_neg hmeets]
      obtain ⟨hlt, -⟩ := (hplain hunlock).resolve_left hmeets
      refine ⟨⟨⟨_, rfl, ?_⟩, rfl⟩, hheld.append ⟨hlt, hlength⟩ fun b hb hm => hmeets ⟨b, hb, hm⟩⟩
      rw [UInt32.toNat_ofNat', Nat.mod_eq_of_lt hlt]

/-- **One request.** -/
theorem byteRangeLock_served (hheld : Held (v.heldBy req.forkId))
    (hlength : req.length < 4294967296) (hplain : Plain sys v req)
    (hfile : v.fileOf req.forkId = some file) :
    Proc.wp False (byteRangeLock sys req) (fun r v' =>
      LockAnswered req (bytesOf v.disk file).length (v.heldBy req.forkId) r
        (v'.heldBy req.forkId) ∧ Held (v'.heldBy req.forkId) ∧
          ∀ other, other ≠ req.forkId → v'.heldBy other = v.heldBy other) v := by
  obtain ⟨len, hlen, hsame, hneg, hclear⟩ := hplain file hfile
  obtain ⟨start, hstart, hright⟩ := @lockOffset_spec req len hneg
  refine Proc.wp_mono (byteRangeLock_spec hlen hstart) ?_
  rintro r v' ⟨held', ⟨rfl, hothers⟩, hsearched⟩
  rw [hsame] at hright
  obtain ⟨hanswer, hheld'⟩ := hsearched.answered hheld hlength hright hclear
  exact ⟨hanswer, hheld', hothers⟩

/-! ## Operations that take no lock -/

/-- The same ranges are held, but for references that are closed. -/
def LocksKept (v v' : Volume) : Prop := ∀ forkId, v'.heldBy forkId = v.heldBy forkId ∨
  v'.heldBy forkId = []

theorem LocksKept.of_eq (h : v'.forkLocks = v.forkLocks) : LocksKept v v' := by
  intro forkId
  rw [heldBy, heldBy, h]
  exact Or.inl rfl

theorem LocksKept.erase {forkId : UInt16} (h : v'.forkLocks = v.forkLocks.erase forkId) :
    LocksKept v v' := by
  intro other
  rw [heldBy, heldBy, h, getElem?_erase_eq]
  split
  · exact Or.inr rfl
  · exact Or.inl rfl

theorem seekFork_locks {forkId : UInt16} {key : NodeId × ForkType} {pos : ℕ} {e : AfpError} :
    Proc.wp False (seekFork sys forkId key.1 key.2 file pos e)
      (fun _ v' => v'.forkLocks = v.forkLocks) v := by
  simp only [seekFork, Proc.wp_bind, Proc.wp_read, Proc.next_ok, Proc.wp_ite]
  refine ⟨fun _ => rfl, fun _ => ?_⟩
  split
  · rfl
  · rfl

theorem readFork_locks {req : FPRead} {outLen : ℕ} :
    Proc.wp False (readFork sys req outLen) (fun _ v' => v'.forkLocks = v.forkLocks) v := by
  simp only [readFork, Proc.wp_bind, forkOf, Proc.wp_read, Proc.next_ok, Proc.wp_orElse, getNode,
    Proc.next_error]
  refine ⟨fun key _ => ⟨fun node _ => ⟨fun file _ => ?_, fun _ => trivial⟩, fun _ => trivial⟩,
    fun _ => trivial⟩
  refine Proc.wp_mono seekFork_locks ?_
  rintro (e | file₁) v₁ h
  · exact h
  rw [Proc.next_ok, Proc.wp_bind, Proc.wp_read, Proc.next_ok]
  split
  · exact h
  · split
    · exact h
    · exact h

theorem writeFork_locks {forkId : UInt16} {offset : ℕ} {data : Bytes} :
    Proc.wp False (writeFork sys forkId offset data) (fun _ v' => v'.forkLocks = v.forkLocks) v := by
  simp only [writeFork, Proc.wp_bind, forkOf, Proc.wp_read, Proc.next_ok, Proc.wp_orElse, getNode,
    Proc.next_error, Proc.wp_ite, Proc.wp_throw]
  refine ⟨fun _ => trivial, fun _ => ⟨fun key _ => ⟨fun node _ => ⟨fun file _ => ?_,
    fun _ => trivial⟩, fun _ => trivial⟩, fun _ => trivial⟩⟩
  refine Proc.wp_mono seekFork_locks ?_
  rintro (e | file₁) v₁ h
  · exact h
  simp only [Proc.next_ok, Proc.wp_bind, Proc.wp_read, Proc.wp_modify, setHandle, updateNode,
    markDirty, Proc.wp_ite, setPos, forgetPos, Proc.wp_pure, Proc.wp_throw]
  exact ⟨fun _ => h, fun _ => h⟩

theorem setForkParms_locks {cmd : FPSetForkParms} :
    Proc.wp False (setForkParms sys cmd) (fun _ v' => v'.forkLocks = v.forkLocks) v := by
  simp only [setForkParms, Proc.wp_bind, forkOf, Proc.wp_read, Proc.next_ok, Proc.wp_orElse,
    getNode, Proc.next_error, Proc.wp_ite, Proc.wp_throw]
  refine ⟨fun key _ => ⟨fun node _ => ⟨fun _ => trivial, fun _ => ?_⟩, fun _ => trivial⟩,
    fun _ => trivial⟩
  split
  · rfl
  · simp only [Proc.wp_bind, Proc.wp_orElse, Proc.next_ok, Proc.next_error, wp_host]
    refine ⟨fun file _ => ?_, fun _ => trivial⟩
    split
    · rfl
    · rfl

theorem Quiet.locks {α : Type} {m : Afp α} (hm : Quiet m) (v : Volume) :
    Proc.wp True m (fun _ v' => v'.forkLocks = v.forkLocks) v :=
  Proc.wp_mono (hm _ absorbs_beside v) fun _ _ h => h.locks

variable [MacRoman]

theorem openFork_locks {forkType : ForkType} {bitmap : Bitmap} {accessMode : UInt16}
    {dirId : NodeId} {path : Path} {out : Bytes} :
    Proc.wp True (openFork sys forkType bitmap accessMode dirId path out)
      (fun _ v' => v'.forkLocks = v.forkLocks) v := by
  rw [openFork, Proc.wp_bind]
  refine Proc.wp_mono ((resolveNodeLazy_quiet sys dirId path).locks v) ?_
  rintro (e | id) v₁ h₁
  · exact h₁
  simp only [Proc.next_ok, Proc.wp_bind, getNode, Proc.wp_read, Proc.wp_orElse, Proc.next_error,
    Proc.wp_ite, Proc.wp_throw]
  refine ⟨fun node _ => ⟨fun _ => h₁, fun _ => ?_⟩, fun _ => h₁⟩
  refine Proc.wp_mono (openHandle_spec forkType node v₁) ?_
  rintro (e | file) v₂ ⟨d, rfl, -⟩
  · exact h₁
  rw [Proc.next_ok, wp_addHandle, Proc.wp_bind, Proc.wp_lift]
  refine ⟨fun out₁ _ => ?_, fun _ => trivial⟩
  rw [Proc.next_ok, Proc.wp_bind, Proc.wp_lift]
  refine ⟨fun out₂ _ => ?_, fun _ => trivial⟩
  rw [Proc.next_ok, Proc.wp_bind]
  refine Proc.wp_mono (getFileParmsResp_disk bitmap node.path out₂ 4 _) ?_
  rintro (e | written) _ ⟨d', rfl⟩
  · exact h₁
  · exact h₁

theorem delete_locks {dirId : NodeId} {path : Name} :
    Proc.wp True (delete sys dirId path) (fun _ v' => v'.forkLocks = v.forkLocks) v := by
  rw [delete, Proc.wp_bind]
  refine Proc.wp_mono ((resolveNodeLazy_quiet sys dirId _).locks v) ?_
  rintro (e | id) v₁ h₁
  · exact h₁
  simp only [Proc.next_ok, Proc.wp_bind, getNode, Proc.wp_read, Proc.wp_orElse, Proc.next_error,
    Proc.wp_ite, Proc.wp_throw]
  refine ⟨fun _ => h₁, fun _ => ⟨fun node _ => ?_, fun _ => h₁⟩⟩
  refine Proc.wp_mono (deleteOnDisk_disk node v₁) ?_
  rintro (e | _) v₂ ⟨d, rfl⟩
  · exact h₁
  rw [Proc.next_ok]
  unfold forgetObject
  cases node.isDir with
  | false => exact h₁
  | true => exact h₁

theorem ForkOp.perform_locks (op : ForkOp) (v : Volume) :
    Proc.wp True (op.perform sys) (fun _ v' => LocksKept v v') v := by
  have hkept : ∀ {α : Type} {m : Afp α} {f : α → Bytes},
      Proc.wp True m (fun _ v' => v'.forkLocks = v.forkLocks) v →
        Proc.wp True (f <$> m) (fun _ v' => LocksKept v v') v :=
    fun hm => Proc.wp_map_state (Proc.wp_mono hm fun _ _ => .of_eq)
  cases op with
  | openFork => exact hkept openFork_locks
  | closeFork forkId =>
    refine Proc.wp_map_state (Proc.wp_weaken (Proc.wp_mono (closeFork_pos forkId v) ?_))
    rintro r v' (rfl | ⟨-, hlocks⟩)
    · exact .of_eq rfl
    · exact .erase hlocks
  | read => exact hkept (Proc.wp_weaken readFork_locks)
  | writeFork => exact hkept (Proc.wp_weaken writeFork_locks)
  | setForkParms => exact hkept (Proc.wp_weaken setForkParms_locks)
  | delete => exact hkept delete_locks
  | createFile => exact hkept (Quiet.locks (createFile_quiet _ _ _ _) v)
  | moveAndRename => exact hkept (Quiet.locks (moveAndRename_quiet _ _ _ _ _ _) v)
  | copyFile => exact hkept (Quiet.locks (copyFile_quiet _ _ _ _ _ _) v)

/-! ## Runs -/

/-- A request of a client: a lock, as the bytes of a command, or an operation on forks. -/
inductive LockTurn where
  | rangeLock (flags : UInt8) (forkId : UInt16) (offset length : UInt32)
  | other (op : ForkOp)

namespace LockTurn

/-- The request answered, with the bytes of what a lock replies. -/
def perform (sys : Sys) : LockTurn → Afp Bytes
  | rangeLock flags forkId offset length => do
    let req ← FPByteRangeLock.parse (flags :: be16 forkId ++ be32 offset ++ be32 length)
    be32 <$> byteRangeLock sys req
  | other op => op.perform sys

/-- One turn; an error leaves the state it left, a panic none. -/
def step (v : Volume) (i : Sys × LockTurn) : Option Volume := (i.2.perform i.1).after v

/-- A lock that is as the code takes it. -/
def Clear (v : Volume) (i : Sys × LockTurn) : Prop :=
  match i.2 with
  | .rangeLock flags forkId offset length => Plain i.1 v (lockOf flags forkId offset length)
  | .other _ => True

instance (v : Volume) (i : Sys × LockTurn) : Decidable (Clear v i) := by
  unfold Clear
  split <;> infer_instance

/-- What a lock is to do, and what is to be held in the state it is made in. -/
def Locked (v : Volume) (i : Sys × LockTurn) : Prop :=
  (∀ forkId, (v.heldBy forkId).Pairwise fun a b => ¬ Meets a b) ∧
    match i.2 with
    | .rangeLock flags forkId offset length => LockServed i.1 v (lockOf flags forkId offset length)
    | .other _ => True

theorem perform_rangeLock (flags : UInt8) (forkId : UInt16) (offset length : UInt32) :
    (rangeLock flags forkId offset length).perform sys =
      (be32 <$> byteRangeLock sys (lockOf flags forkId offset length)) := by
  have hparse := @FPByteRangeLock.parse_eq Volume flags forkId offset length []
  rw [List.append_nil] at hparse
  rw [perform, hparse]
  rfl

omit [MacRoman] in
/-- A request that names no open fork is refused. -/
theorem byteRangeLock_unopened (hv : Cached v) (hfile : v.fileOf req.forkId = none) :
    Proc.wp False (byteRangeLock sys req) (fun _ v' => v' = v) v := by
  simp only [byteRangeLock, Proc.wp_bind, forkOf, Proc.wp_read, Proc.next_ok, Proc.wp_orElse,
    getNode, Proc.next_error]
  refine ⟨fun key href => ⟨fun node hnode => ?_, fun _ => trivial⟩, fun _ => trivial⟩
  have hopen := hv.opened req.forkId key href (by rw [hnode]; rfl)
  rw [fileOf, href, Option.bind_some] at hfile
  rw [hfile] at hopen
  cases hopen

omit [MacRoman] in
theorem byteRangeLock_cached (hv : Cached v) :
    Proc.wp True (byteRangeLock sys req) (fun _ v' => Cached v') v := by
  simp only [byteRangeLock, Proc.wp_bind, forkOf, Proc.wp_read, Proc.next_ok, Proc.wp_orElse,
    getNode, Proc.next_error, wp_host]
  refine ⟨fun key _ => ⟨fun node _ => ?_, fun _ => hv⟩, fun _ => hv⟩
  have hlocked : ∀ d locks, Cached { v with disk := d, forkLocks := locks } := fun d locks =>
    ⟨hv.fresh, hv.known, hv.opened, hv.single, hv.placed⟩
  rcases (Disk.metadata sys node.hostPath v.disk).1 with _ | info
  · exact hlocked _ v.forkLocks
  · simp only [Proc.next_ok, Proc.wp_bind, Proc.wp_lift, Proc.wp_read, setLocks, Proc.wp_modify,
      Proc.wp_ite, Proc.wp_throw, Proc.wp_pure]
    refine ⟨fun start _ => ⟨fun _ => ⟨fun _ => ?_, fun _ => ?_⟩, fun _ => ⟨fun _ => ?_, fun _ => ?_⟩⟩,
      fun _ => trivial⟩
    all_goals exact hlocked _ _

/-- The invariant of a session. -/
structure Guarded (v : Volume) : Prop where
  cached : Cached v
  held : ∀ forkId, Held (v.heldBy forkId)

omit [MacRoman] in
theorem locked (hv : Guarded v) {i : Sys × LockTurn} (hclear : Clear v i) : Locked v i := by
  refine ⟨fun forkId => (hv.held forkId).apart, ?_⟩
  obtain ⟨sys, turn⟩ := i
  cases turn with
  | rangeLock flags forkId offset length =>
    intro file hfile
    obtain ⟨r, v', hrun, hanswer, -, hothers⟩ := Proc.exists_of_wp
      (byteRangeLock_served (hv.held forkId) length.toNat_lt hclear hfile)
    exact ⟨r, v', hrun, hanswer, hothers⟩
  | other op => trivial

theorem step_guarded (hv : Guarded v) {i : Sys × LockTurn} (hclear : Clear v i)
    (h : step v i = some v') : Guarded v' := by
  obtain ⟨sys, turn⟩ := i
  cases turn with
  | rangeLock flags forkId offset length =>
    set req := lockOf flags forkId offset length with hreq
    have hspec : Proc.wp True (byteRangeLock sys req) (fun _ v' => Guarded v') v := by
      rcases hfile : v.fileOf req.forkId with _ | file
      · refine Proc.wp_mono (Proc.wp_weaken (byteRangeLock_unopened hv.cached hfile)) ?_
        rintro r _ rfl
        exact hv
      · refine Proc.wp_mono (Proc.wp_and (byteRangeLock_cached hv.cached) (Proc.wp_weaken
          (byteRangeLock_served (hv.held req.forkId) length.toNat_lt hclear hfile))) ?_
        rintro r v' ⟨hcached, -, hheld, hothers⟩
        refine ⟨hcached, fun other => ?_⟩
        by_cases hother : other = req.forkId
        · rw [hother]
          exact hheld
        · rw [hothers other hother]
          exact hv.held other
    rw [step, perform_rangeLock] at h
    obtain ⟨r, -, hguarded⟩ := Proc.wp_after h (Proc.wp_map_state hspec)
    exact hguarded
  | other op =>
    obtain ⟨r, -, hcached, hkept⟩ := Proc.wp_after h (Proc.wp_and
      (ForkOp.perform_cached (i := (sys, op)) hv.cached) (ForkOp.perform_locks op v))
    refine ⟨hcached, fun forkId => ?_⟩
    rcases hkept forkId with hsame | hnone
    · rw [hsame]
      exact hv.held forkId
    · rw [hnone]
      exact ⟨fun _ hb => (nomatch hb), .nil⟩

omit [MacRoman] in
theorem guarded_new (name : Name) (createdAt : UInt32) (volumeId : UInt16) (db : DesktopDatabase)
    (disk : Disk) : Guarded (Volume.new sys name createdAt volumeId db disk) := by
  refine ⟨ForkOp.cached_new name createdAt volumeId db disk, fun forkId => ?_⟩
  have hnone : heldBy (Volume.new sys name createdAt volumeId db disk) forkId = [] := by
    simp [heldBy, Volume.new]
  rw [hnone]
  exact ⟨fun _ hb => (by cases hb), .nil⟩

/-- **Locks over a session.** In every run from a new volume in which every lock of an open fork is
    as the code takes it, the ranges held for a fork are apart, and every lock and unlock is
    answered as it should be, without an overflow. -/
theorem locks_run (sys : Sys) (name : Name) (createdAt : UInt32) (volumeId : UInt16)
    (db : DesktopDatabase) (disk : Disk) (turns : List (Sys × LockTurn))
    (hclear : Along (partialStep step) (Reached Clear)
      (some (Volume.new sys name createdAt volumeId db disk)) turns) :
    Along (partialStep step) (Reached Locked)
        (some (Volume.new sys name createdAt volumeId db disk)) turns ∧
      ∀ v, run (partialStep step) (some (Volume.new sys name createdAt volumeId db disk)) turns =
        some v → ∀ forkId, (v.heldBy forkId).Pairwise fun a b => ¬ Meets a b := by
  obtain ⟨halong, hend⟩ := @along_reached _ _ step Guarded Clear Locked
    (fun v i hv hok => locked hv hok) (fun v i v' hv hok h => step_guarded hv hok h) _
    (fun v hv => by obtain rfl := Option.some.inj hv; exact guarded_new name createdAt volumeId db disk)
    _ hclear
  exact ⟨halong, fun v hv forkId => ((hend v hv).held forkId).apart⟩

end LockTurn

end

/-! ## A lock from the end of a resource fork -/

section

local instance locksRoman : MacRoman := macintosh

/-- Five bytes in the resource fork of an empty file. -/
def resourceRun : List (Sys × LockTurn) :=
  [(.calm, .other (.openFork .resource 0 3 ROOT_ID ["a".toList] (zeros 256))),
    (.calm, .other (.writeFork 1 0 [1, 2, 3, 4, 5]))]

/-- A range held, one refused, one after it, and one given up. -/
def locksRun : List (Sys × LockTurn) :=
  resourceRun ++ [(.calm, .rangeLock 0 1 0 2), (.calm, .rangeLock 0 1 1 2),
    (.calm, .rangeLock 0 1 2 4294967295), (.calm, .rangeLock 1 1 0 2)]

theorem locks_run_locksRun :
    Along (partialStep LockTurn.step) (Reached LockTurn.Locked)
        (some (.ofEntries [("a".toList, .file 2)])) locksRun ∧
      ∀ v, run (partialStep LockTurn.step) (some (.ofEntries [("a".toList, .file 2)])) locksRun =
        some v → ∀ forkId, (v.heldBy forkId).Pairwise fun a b => ¬ Meets a b :=
  LockTurn.locks_run .calm "Shared".toList 0 1 (.empty 1) (Disk.ofEntries [("a".toList, .file 2)])
    locksRun (by decide +kernel)

/-- What a lock that is granted replies. -/
def granted (v : Volume) (req : FPByteRangeLock) : Option (UInt32 × Volume) :=
  match byteRangeLock .calm req v with
  | .ok (.ok w, v') => some (w, v')
  | _ => none

/-- The length of the data fork is taken, and the lock is at the start of the fork. -/
theorem lock_from_end_of_resource_fork : ∃ v file r v',
    run (partialStep LockTurn.step) (some (.ofEntries [("a".toList, .file 2)])) resourceRun =
        some v ∧ v.fileOf 1 = some file ∧ (bytesOf v.disk file).length = 5 ∧
      byteRangeLock .calm (lockOf 0x80 1 0 1) v = .ok (r, v') ∧ r = .ok 0 ∧
        ¬ LockServed .calm v (lockOf 0x80 1 0 1) := by
  have hend : ((run (partialStep LockTurn.step) (some (.ofEntries [("a".toList, .file 2)]))
      resourceRun).bind fun v => (v.fileOf 1).bind fun file =>
        (granted v (lockOf 0x80 1 0 1)).map fun e =>
          ((bytesOf v.disk file).length, e.1, v.heldBy 1)) = some (5, 0, []) := by decide +kernel
  obtain ⟨v, hv, hend⟩ := Option.bind_eq_some_iff.1 hend
  obtain ⟨file, hfile, hend⟩ := Option.bind_eq_some_iff.1 hend
  obtain ⟨⟨w, v'⟩, hlock, heq⟩ := Option.map_eq_some_iff.1 hend
  simp only [Prod.mk.injEq] at heq
  obtain ⟨hlength, hw, hheld⟩ := heq
  have hrun : byteRangeLock .calm (lockOf 0x80 1 0 1) v = .ok (.ok w, v') := by
    unfold granted at hlock
    split at hlock
    · rename_i hrun
      obtain ⟨rfl, rfl⟩ := Prod.mk.inj (Option.some.inj hlock)
      exact hrun
    · cases hlock
  refine ⟨v, file, .ok w, v', hv, hfile, hlength, hrun, by rw [hw], fun hserved => ?_⟩
  obtain ⟨r, v'', hrun', hanswer, -⟩ := hserved file hfile
  obtain ⟨rfl, rfl⟩ := Prod.mk.inj (Except.ok.inj (hrun.symm.trans hrun'))
  rw [hlength, show v.heldBy (lockOf 0x80 1 0 1).forkId = [] from hheld, hw] at hanswer
  obtain ⟨⟨w', hw', hstart⟩, -⟩ := hanswer
  obtain rfl := Except.ok.inj hw'
  exact absurd hstart (by decide)

end

end Volume

end TailTalk
