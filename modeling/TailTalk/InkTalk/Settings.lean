/-
  Settings — what a request asks for, applied whole or not at all.

  The printer is renamed and the configuration active before it is saved, so a
  write that fails finds both changed.
-/
import TailTalk.InkTalk.Control

namespace TailTalk.InkTalk

open Lib

/-! ## What a request asks for -/

/-- The configuration, and the name the printer goes by. -/
@[ext]
structure Settings where
  config : Config
  live : Option Bytes

/-- What an item sets. -/
inductive Applies (i : Item) (s : Settings) : Settings → Prop
  | name (name : Str31) : i.tag = Tag.NAME → i.pstr = some name.1 →
      Applies i s ⟨{ s.config with name }, some name.1⟩
  | role (role : Role) : i.tag = Tag.ROLE → i.u16 = some role.code.toUInt16 →
      Applies i s { s with config := { s.config with role } }
  | baud (baud : Baud) : i.tag = Tag.BAUD → i.u32 = some baud.1 →
      Applies i s { s with config := { s.config with baud } }

/-- The items one after another. -/
inductive AppliesAll : List Item → Settings → Settings → Prop
  | nil {s} : AppliesAll [] s s
  | cons {i items s t u} : Applies i s t → AppliesAll items t u → AppliesAll (i :: items) s u

/-- An item that can be set, to a value that it may have. -/
def Usable (i : Item) : Prop :=
  (i.tag = Tag.NAME ∧ ∃ chars, i.pstr = some chars ∧ (nameFromWire chars).isSome) ∨
  (i.tag = Tag.ROLE ∧ ∃ role : Role, i.u16 = some role.code.toUInt16) ∨
  (i.tag = Tag.BAUD ∧ ∃ baud : Baud, i.u32 = some baud.1)

theorem Applies.unique {i : Item} {s t u : Settings} (ht : Applies i s t) (hu : Applies i s u) :
    t = u := by
  have hname_role : Tag.NAME ≠ Tag.ROLE := by decide
  have hname_baud : Tag.NAME ≠ Tag.BAUD := by decide
  have hrole_baud : Tag.ROLE ≠ Tag.BAUD := by decide
  cases ht with
  | name a htag ha =>
    cases hu with
    | name b _ hb =>
      rw [ha, Option.some.injEq] at hb
      rw [Subtype.ext hb]
    | role _ htag' _ => exact absurd (htag.symm.trans htag') hname_role
    | baud _ htag' _ => exact absurd (htag.symm.trans htag') hname_baud
  | role a htag ha =>
    cases hu with
    | name _ htag' _ => exact absurd (htag'.symm.trans htag) hname_role
    | role b _ hb =>
      rw [ha, Option.some.injEq] at hb
      have hab : a = b := by
        revert hb
        cases a <;> cases b <;> decide
      rw [hab]
    | baud _ htag' _ => exact absurd (htag.symm.trans htag') hrole_baud
  | baud a htag ha =>
    cases hu with
    | name _ htag' _ => exact absurd (htag'.symm.trans htag) hname_baud
    | role _ htag' _ => exact absurd (htag'.symm.trans htag) hrole_baud
    | baud b _ hb =>
      rw [ha, Option.some.injEq] at hb
      rw [Subtype.ext hb]

theorem AppliesAll.unique {items : List Item} {s t u : Settings} (ht : AppliesAll items s t)
    (hu : AppliesAll items s u) : t = u := by
  induction ht with
  | nil =>
    cases hu
    rfl
  | cons hi _ ih =>
    cases hu with
    | cons hi' hrest =>
      rw [hi'.unique hi] at hrest
      exact ih hrest

theorem roleFromWire_iff {r : UInt16} {role : Role} :
    roleFromWire r = some role ↔ r = role.code.toUInt16 := by
  unfold roleFromWire
  constructor
  · intro h
    split_ifs at h with hlt
    have hcode := Role.eq_code_of_fromU8 h
    rw [← hcode]
    exact UInt16.toNat_inj.1 (by simp; omega)
  · rintro rfl
    cases role <;> rfl

theorem val_of_nameFromWire {chars : Bytes} {name : Str31} (h : nameFromWire chars = some name) :
    name.1 = chars := by
  unfold nameFromWire at h
  split_ifs at h
  unfold parseName at h
  split_ifs at h
  exact Str31.val_of_fromUtf8 h

/-! ## The items of a request -/

/-- The settings that the items so far ask for. -/
def settings (live : Option Bytes) (acc : Config × Option Str31) : Settings :=
  match acc.2 with
  | none => ⟨acc.1, live⟩
  | some name => ⟨{ acc.1 with name }, some name.1⟩

theorem setItem_ok {acc acc' : Config × Option Str31} {i : Item} (h : setItem acc i = .ok acc')
    (live : Option Bytes) : Usable i ∧ Applies i (settings live acc) (settings live acc') ∧
      (acc'.2.isSome ↔ acc.2.isSome ∨ i.tag = Tag.NAME) := by
  obtain ⟨cfg, newName⟩ := acc
  unfold setItem at h
  split_ifs at h with hname hrole hbaud
  · rcases hvalue : i.pstr.bind nameFromWire with _ | name
    · rw [hvalue] at h
      cases h
    · rw [hvalue] at h
      cases h
      obtain ⟨chars, hchars, hwire⟩ := Option.bind_eq_some_iff.1 hvalue
      refine ⟨.inl ⟨hname, chars, hchars, by rw [hwire]; rfl⟩, ?_, by simp [hname]⟩
      have hval : i.pstr = some name.1 := by rw [hchars, val_of_nameFromWire hwire]
      have happly := Applies.name (s := settings live (cfg, newName)) name hname hval
      cases newName <;> exact happly
  · rcases hvalue : i.u16.bind roleFromWire with _ | role
    · rw [hvalue] at h
      cases h
    · rw [hvalue] at h
      cases h
      obtain ⟨r, hr, hwire⟩ := Option.bind_eq_some_iff.1 hvalue
      rw [roleFromWire_iff.1 hwire] at hr
      refine ⟨.inr (.inl ⟨hrole, role, hr⟩), ?_, by simp [hname]⟩
      have happly := Applies.role (s := settings live (cfg, newName)) role hrole hr
      cases newName <;> exact happly
  · rcases hvalue : i.u32.bind Baud.ofU32 with _ | baud
    · rw [hvalue] at h
      cases h
    · rw [hvalue] at h
      cases h
      obtain ⟨b, hb, hwire⟩ := Option.bind_eq_some_iff.1 hvalue
      rw [← Baud.val_of_ofU32 hwire] at hb
      refine ⟨.inr (.inr ⟨hbaud, baud, hb⟩), ?_, by simp [hname]⟩
      have happly := Applies.baud (s := settings live (cfg, newName)) baud hbaud hb
      cases newName <;> exact happly

theorem setItem_of_usable {i : Item} (h : Usable i) (acc : Config × Option Str31) :
    ∃ acc', setItem acc i = .ok acc' := by
  have hrole_name : Tag.ROLE ≠ Tag.NAME := by decide
  have hbaud_name : Tag.BAUD ≠ Tag.NAME := by decide
  have hbaud_role : Tag.BAUD ≠ Tag.ROLE := by decide
  unfold setItem
  rcases h with ⟨htag, chars, hchars, hwire⟩ | ⟨htag, role, hr⟩ | ⟨htag, baud, hb⟩
  · obtain ⟨name, hname⟩ := Option.isSome_iff_exists.1 hwire
    rw [if_pos htag, hchars, Option.bind_some, hname]
    exact ⟨_, rfl⟩
  · rw [htag, if_neg hrole_name, if_pos rfl, hr, Option.bind_some, roleFromWire_iff.2 rfl]
    exact ⟨_, rfl⟩
  · rw [htag, if_neg hbaud_name, if_neg hbaud_role, if_pos rfl, hb, Option.bind_some,
      Baud.ofU32_val]
    exact ⟨_, rfl⟩

theorem setItem_error {acc : Config × Option Str31} {i : Item} {code : Int16} {tag : OSType}
    (h : setItem acc i = .error (code, tag)) : code ≠ Err.NO_ERR := by
  have hparam : Err.PARAM ≠ Err.NO_ERR := by decide
  have hunknown : Err.UNKNOWN_TAG ≠ Err.NO_ERR := by decide
  unfold setItem at h
  split_ifs at h
  · split at h
    · cases h
    · cases h
      exact hparam
  · split at h
    · cases h
    · cases h
      exact hparam
  · split at h
    · cases h
    · cases h
      exact hparam
  · cases h
    exact hunknown

theorem foldlM_setItem_ok (live : Option Bytes) (items : List Item)
    {acc acc' : Config × Option Str31} (h : items.foldlM setItem acc = .ok acc') :
    (∀ i ∈ items, Usable i) ∧ AppliesAll items (settings live acc) (settings live acc') ∧
      (acc'.2.isSome ↔ acc.2.isSome ∨ ∃ i ∈ items, i.tag = Tag.NAME) := by
  induction items generalizing acc with
  | nil =>
    cases h
    exact ⟨by simp, .nil, by simp⟩
  | cons i items ih =>
    rw [List.foldlM_cons] at h
    rcases hi : setItem acc i with e | mid
    · rw [hi] at h
      cases h
    · rw [hi] at h
      obtain ⟨husable, happly, hsome⟩ := setItem_ok hi live
      obtain ⟨husable', happly', hsome'⟩ := ih h
      refine ⟨List.forall_mem_cons.2 ⟨husable, husable'⟩, .cons happly happly', ?_⟩
      rw [hsome', hsome, List.exists_mem_cons_iff, or_assoc]

theorem foldlM_setItem_of_usable (items : List Item) (h : ∀ i ∈ items, Usable i)
    (acc : Config × Option Str31) : ∃ acc', items.foldlM setItem acc = .ok acc' := by
  induction items generalizing acc with
  | nil => exact ⟨acc, rfl⟩
  | cons i items ih =>
    obtain ⟨mid, hmid⟩ := setItem_of_usable (h i List.mem_cons_self) acc
    rw [List.foldlM_cons, hmid]
    exact ih (fun j hj => h j (List.mem_cons_of_mem i hj)) mid

theorem foldlM_setItem_error (items : List Item) {acc : Config × Option Str31} {code : Int16}
    {tag : OSType} (h : items.foldlM setItem acc = .error (code, tag)) : code ≠ Err.NO_ERR := by
  induction items generalizing acc with
  | nil => cases h
  | cons i items ih =>
    rw [List.foldlM_cons] at h
    rcases hi : setItem acc i with ⟨code', tag'⟩ | mid
    · rw [hi] at h
      cases h
      exact setItem_error hi
    · rw [hi] at h
      exact ih h

/-! ## Replies -/

theorem holds_push_snd {seq : UInt16} {command : OSType} {items : List Item} {w : FrameWriter}
    (h : w.Holds seq command items) (p : Push) :
    ∃ items', (w.push p).2.Holds seq command items' := by
  rcases hp : w.push p with ⟨_ | _, w'⟩
  · rw [FrameWriter.push_refused hp]
    exact ⟨items, h⟩
  · exact ⟨_, FrameWriter.holds_push h hp⟩

theorem boolean_new {out : Bytes} {seq : UInt16} {command : OSType} {w : FrameWriter}
    (hnew : FrameWriter.new out seq command = .ok w) (hout : out.length = MAX_FRAME_LEN)
    (tag : OSType) (v : Bool) : (w.boolean tag v).1 = .ok () := by
  have hlen : w.len = HEADER_LEN ∧ w.buf.length = MAX_FRAME_LEN := by
    unfold FrameWriter.new at hnew
    split_ifs at hnew
    cases hnew
    refine ⟨rfl, ?_⟩
    have hsplice : (splice out 0 (be16 seq)).length = out.length :=
      splice_length _ (by rw [hout, be16_length]; decide)
    change (splice (splice out 0 (be16 seq)) 2 (be32 command)).length = _
    rw [splice_length _ (by rw [hsplice, hout, be32_length]; decide), hsplice, hout]
  rcases hsent : (w.boolean tag v).1 with ⟨⟩ | ⟨⟩
  · have hfull := (FrameWriter.push_error_iff (FrameWriter.holds_new hnew) (.boolean tag v)).1 hsent
    rw [hlen.1, hlen.2] at hfull
    rcases hfull with hlong | hsized | hroom
    · exact absurd hlong not_false
    · exact absurd (show 1 ≤ 65535 by decide) hsized
    · have hwire : (Push.added (.boolean tag v)).wire.length = 8 := rfl
      rw [hwire] at hroom
      exact absurd hroom (by decide)
  · rfl

theorem activate_holds {seq : UInt16} {command : OSType} {items : List Item} {w : FrameWriter}
    (h : w.Holds seq command items) (cfg : Config) (restart : Bool) (d : Device)
    (failure : Option FlashFailure) :
    ∃ items', (activate w cfg restart d failure).w.Holds seq command items' := by
  cases failure with
  | some f => exact ⟨items, h⟩
  | none => exact holds_push_snd h (.boolean Tag.REBOOTING restart)

section
variable (encode : Bytes → Option NbpName)

theorem refuse_holds {seq : UInt16} {command : OSType} {items : List Item} {w : FrameWriter}
    (h : w.Holds seq command items) (code : Int16) (item : OSType) (d : Device) :
    ∃ items', (refuse w code item d).w.Holds seq command items' :=
  holds_push_snd h (.u32 Tag.ERROR_TAG item)

/-- The reply can be finished. -/
theorem setConfig_holds {seq : UInt16} {command : OSType} {items : List Item} {w : FrameWriter}
    (h : w.Holds seq command items) (body : Items) (d : Device) (failure : Option FlashFailure) :
    ∃ items', (setConfig encode w body d failure).w.Holds seq command items' := by
  unfold setConfig
  split
  · exact ⟨items, h⟩
  · split
    · exact refuse_holds h _ _ d
    · unfold setChecked
      dsimp only
      split_ifs
      · exact ⟨items, h⟩
      · split
        · exact activate_holds h _ _ d failure
        · split
          · exact refuse_holds h _ _ _
          · exact activate_holds h _ _ _ failure

/-! ## What comes of a request -/

/-- Nothing is in the way: no restart would cut a job off, and the printer has the name asked for or
    can take it. -/
structure Clear (d : Device) (s : Settings) (named : Prop) : Prop where
  free : needsRestart s.config d.running = true → d.jobActive = false
  registers : named → d.live = some s.config.name.1 ∨
    (PortName.set encode d.printer d.nbp s.config.name.1).1 = .ok ()

/-- A request that gets as far as the flash. -/
structure Admitted (d : Device) (items : List Item) (s s' : Settings) : Prop where
  active : d.active = some s.config
  live : s.live = d.live
  usable : ∀ i ∈ items, Usable i
  applies : AppliesAll items s s'
  clear : Clear encode d s' (∃ i ∈ items, i.tag = Tag.NAME)

theorem Admitted.start {d : Device} {items : List Item} {s s' : Settings} {cfg : Config}
    (h : Admitted encode d items s s') (hactive : d.active = some cfg) : s = ⟨cfg, d.live⟩ := by
  obtain ⟨config, live⟩ := s
  have hconfig : some cfg = some config := hactive.symm.trans h.active
  have hlive : live = d.live := h.live
  rw [Option.some.inj hconfig, hlive]

theorem Admitted.unique {d : Device} {items : List Item} {s s' t t' : Settings}
    (h : Admitted encode d items s s') (h' : Admitted encode d items t t') : s = t ∧ s' = t' := by
  have hstart : s = t := (h.start encode h'.active).trans (h'.start encode h'.active).symm
  refine ⟨hstart, ?_⟩
  have happlies := h.applies
  rw [hstart] at happlies
  exact happlies.unique h'.applies

/-- Nothing that a request sets has changed. -/
structure Unchanged (d d' : Device) : Prop where
  active : d'.active = d.active
  live : d'.live = d.live
  flash : d'.flash = d.flash

theorem takeName_error {d d' : Device} {name : Bytes} {e : RenameError}
    (h : d.takeName encode name = (.error e, d')) : Unchanged d d' ∧ d.live ≠ some name ∧
      (PortName.set encode d.printer d.nbp name).1 = .error e := by
  unfold Device.takeName at h
  split_ifs at h with hname
  · rcases hset : PortName.set encode d.printer d.nbp name with ⟨_ | _, port, nbp⟩
    · rw [hset] at h
      cases h
      refine ⟨⟨rfl, ?_, rfl⟩, hname, rfl⟩
      change port.map (·.name) = d.live
      rw [PortName.reregister_error encode hset]
      rfl
    · rw [hset] at h
      cases h
  · cases h

theorem takeName_ok {d d' : Device} {name : Bytes} (h : d.takeName encode name = (.ok (), d')) :
    d'.live = some name ∧ d'.flash = d.flash ∧
      (d.live = some name ∨ (PortName.set encode d.printer d.nbp name).1 = .ok ()) := by
  unfold Device.takeName at h
  split_ifs at h with hname
  · rcases hset : PortName.set encode d.printer d.nbp name with ⟨_ | _, port, nbp⟩
    · rw [hset] at h
      cases h
    · rw [hset] at h
      cases h
      obtain ⟨s, s', entity, _, rfl, hs', _⟩ := PortName.reregister_ok encode hset
      exact ⟨congrArg some hs', rfl, .inr rfl⟩
  · cases h
    have hlive : d.live = some name := not_not.1 hname
    exact ⟨hlive, rfl, .inl hlive⟩

theorem activate_none (w : FrameWriter) (cfg : Config) (restart : Bool) (d : Device) :
    (activate w cfg restart d none).result =
      (w.boolean Tag.REBOOTING restart).1.map fun _ => Err.NO_ERR := rfl

theorem refuse_spec (w : FrameWriter) {code : Int16} (hcode : code ≠ Err.NO_ERR) (item : OSType)
    (d : Device) : (refuse w code item d).result ≠ .ok Err.NO_ERR ∧
      (refuse w code item d).device = d := by
  refine ⟨?_, rfl⟩
  unfold refuse
  rcases w.u32 Tag.ERROR_TAG item with ⟨_ | _, w'⟩
  · exact fun h => by cases h
  · exact fun h => hcode (Except.ok.inj h)

/-- Settings that something is in the way of are refused; else the printer is renamed, and they
    are made the active ones. -/
theorem setChecked_cases (w : FrameWriter) (cfg : Config) (newName : Option Str31) (d : Device)
    (failure : Option FlashFailure) :
    let s := settings d.live (cfg, newName)
    ((setChecked encode w cfg newName d failure).result ≠ .ok Err.NO_ERR ∧
      Unchanged d (setChecked encode w cfg newName d failure).device ∧
      ¬ Clear encode d s newName.isSome) ∨
    (Clear encode d s newName.isSome ∧ ∃ d', d'.live = s.live ∧ d'.flash = d.flash ∧
      setChecked encode w cfg newName d failure =
        activate w s.config (needsRestart cfg d.running) d' failure) := by
  have hbusy : Err.BUSY ≠ Err.NO_ERR := by decide
  have hparam : Err.PARAM ≠ Err.NO_ERR := by decide
  -- the name does not take a restart
  have hrestart : needsRestart (settings d.live (cfg, newName)).config d.running =
      needsRestart cfg d.running := by
    cases newName <;> rfl
  by_cases hjob : (needsRestart cfg d.running && d.jobActive) = true
  · left
    unfold setChecked
    simp only [if_pos hjob]
    refine ⟨fun h => hbusy (Except.ok.inj h), ⟨rfl, rfl, rfl⟩, fun h => ?_⟩
    rw [Bool.and_eq_true, ← hrestart] at hjob
    have hfree := h.free hjob.1
    rw [hjob.2] at hfree
    cases hfree
  have hfree : needsRestart (settings d.live (cfg, newName)).config d.running = true →
      d.jobActive = false := by
    intro h
    rw [hrestart] at h
    rw [h, Bool.true_and] at hjob
    exact Bool.eq_false_iff.2 hjob
  unfold setChecked
  simp only [if_neg hjob]
  cases newName with
  | none => exact .inr ⟨⟨hfree, fun h => by cases h⟩, d, rfl, rfl, rfl⟩
  | some name =>
    rcases htake : d.takeName encode name.1 with ⟨e | _, d'⟩
    · left
      simp only [htake]
      obtain ⟨hkept, hlive, hset⟩ := takeName_error encode htake
      obtain ⟨hresult, hdevice⟩ := refuse_spec w hparam Tag.NAME d'
      refine ⟨hresult, by rw [hdevice]; exact hkept, fun h => ?_⟩
      rcases h.registers rfl with hsame | hok
      · exact hlive hsame
      · change (PortName.set encode d.printer d.nbp name.1).1 = .ok () at hok
        rw [hset] at hok
        cases hok
    · simp only [htake]
      obtain ⟨hlive, hflash, hset⟩ := takeName_ok encode htake
      exact .inr ⟨⟨hfree, fun _ => hset⟩, d', hlive, hflash, rfl⟩

/-- **A request either stops before it changes anything**, or is admitted and goes as far as the
    flash, with the printer renamed. -/
theorem setConfig_cases (w : FrameWriter) (body : Items) (d : Device)
    (failure : Option FlashFailure) :
    ((setConfig encode w body d failure).result ≠ .ok Err.NO_ERR ∧
      Unchanged d (setConfig encode w body d failure).device ∧
      ∀ s s', ¬ Admitted encode d body.iter.collect.1 s s') ∨
    ∃ s s' restart d', Admitted encode d body.iter.collect.1 s s' ∧ d'.live = s'.live ∧
      d'.flash = d.flash ∧ setConfig encode w body d failure =
        activate w s'.config restart d' failure := by
  have hbusy : Err.BUSY ≠ Err.NO_ERR := by decide
  generalize hitems : body.iter.collect.1 = items
  unfold setConfig
  rw [hitems]
  rcases hactive : d.active with _ | cfg
  · left
    refine ⟨fun h => hbusy (Except.ok.inj h), ⟨rfl, rfl, rfl⟩, fun s s' h => ?_⟩
    have hsome := h.active
    rw [hactive] at hsome
    cases hsome
  simp only
  rcases hfold : items.foldlM setItem (cfg, none) with ⟨code, tag⟩ | ⟨cfg', newName⟩
  · left
    obtain ⟨hresult, hdevice⟩ := refuse_spec w (foldlM_setItem_error items hfold) tag d
    refine ⟨hresult, by rw [hdevice]; exact ⟨rfl, rfl, rfl⟩, fun s s' h => ?_⟩
    obtain ⟨acc, hacc⟩ := foldlM_setItem_of_usable items h.usable (cfg, none)
    rw [hfold] at hacc
    cases hacc
  obtain ⟨husable, happlies, hsome⟩ := foldlM_setItem_ok d.live items hfold
  have hnamed : (newName.isSome = true) = ∃ i ∈ items, i.tag = Tag.NAME := by
    rw [eq_iff_iff, hsome]
    simp
  simp only
  rcases setChecked_cases encode w cfg' newName d failure with
    ⟨hresult, hkept, hnot⟩ | ⟨hclear, d', hlive, hflash, hset⟩
  · refine .inl ⟨hresult, hkept, fun s s' h => hnot ?_⟩
    have happlies' := h.applies
    rw [h.start encode hactive] at happlies'
    rw [hnamed, ← happlies'.unique happlies]
    exact h.clear
  · rw [hnamed] at hclear
    exact .inr ⟨⟨cfg, d.live⟩, settings d.live (cfg', newName), _, d',
      ⟨hactive, rfl, husable, happlies, hclear⟩, hlive, hflash, hset⟩

/-- **All or nothing.** Where the result is not `NO_ERR` nothing has changed, and where it is every
    item is in the active configuration, the name the printer goes by and the flash. -/
structure Atomic (body : Bytes) (d d' : Device) (result : Int16) : Prop where
  refused : result ≠ Err.NO_ERR → Unchanged d d'
  applied : result = Err.NO_ERR → ∃ items s s', IsBody items body ∧ d.active = some s.config ∧
    s.live = d.live ∧ AppliesAll items s s' ∧ d'.active = some s'.config ∧ d'.live = s'.live ∧
    Config.fromBlock d'.flash = some s'.config

/-- A write that fails leaves the block, and the request asked for nothing new. -/
def FailsHarmlessly (body : Bytes) (d : Device) (f : FlashFailure) : Prop :=
  ∀ items s s', IsBody items body → Admitted encode d items s s' → s' = s ∧ f.left d.flash = d.flash

theorem isBody_of_ofFrame {frame : Bytes} {body : Items} (h : Items.ofFrame frame = .ok body) :
    IsBody body.iter.collect.1 (frame.drop HEADER_LEN) := by
  unfold Items.ofFrame at h
  split_ifs at h
  obtain ⟨items, hitems⟩ := (parse_iff _).1 ⟨body, h⟩
  unfold Items.parse at h
  split at h
  · cases h
    rw [Items.iter, (hitems.accepted _ _).2]
    exact hitems
  · cases h

theorem IsBody.unique {items items' : List Item} {body : Bytes} (h : IsBody items body)
    (h' : IsBody items' body) : items = items' := by
  have hcollect := (h.accepted _ _).2
  rw [(h'.accepted _ _).2] at hcollect
  exact (congrArg Prod.fst hcollect).symm

theorem handle_setConfig (buildId : Bytes) (status : Status) {frame out : Bytes} {header : Header}
    (hparse : Header.parse frame = .ok header) (hcommand : header.command = Cmd.SET_CONFIG)
    {w : FrameWriter} (hnew : FrameWriter.new out header.seq header.command = .ok w)
    {body : Items} (hbody : Items.ofFrame frame = .ok body) (d : Device)
    (failure : Option FlashFailure) :
    handle encode buildId status frame out d failure =
      (((setConfig encode w body d failure).w.finish (setConfig encode w body d failure).code,
        (setConfig encode w body d failure).reboot),
        (setConfig encode w body d failure).device) := by
  have hnot_hello : header.command ≠ Cmd.HELLO := by
    rw [hcommand]
    decide
  have hnot_info : header.command ≠ Cmd.INFO := by
    rw [hcommand]
    decide
  unfold handle
  simp only [hparse, Except.toOption, Option.getD_some, hnew, hbody, if_neg hnot_hello,
    if_neg hnot_info, if_pos hcommand]

section
variable {items : List Item} {s s' : Settings} {d d' : Device} {body : Bytes}
  (hitems : IsBody items body) (hadmitted : Admitted encode d items s s')
  (hlive : d'.live = s'.live)
include hitems hadmitted hlive

/-- A configuration that is saved is the same everywhere. -/
theorem activate_none_atomic {w : FrameWriter} {restart : Bool}
    (hsent : (w.boolean Tag.REBOOTING restart).1 = .ok ()) :
    let a := activate w s'.config restart d' none
    Atomic body d a.device a.code := by
  refine ⟨fun h => ?_, fun _ => ?_⟩
  · rw [Answer.code, activate_none, hsent] at h
    exact absurd rfl h
  · exact ⟨items, s, s', hitems, hadmitted.active, hadmitted.live, hadmitted.applies, rfl, hlive,
      s'.config.fromBlock_toBlock⟩

/-- One that is not is active all the same. -/
theorem activate_some_atomic_iff (hflash : d'.flash = d.flash) (w : FrameWriter) (restart : Bool)
    (f : FlashFailure) :
    let a := activate w s'.config restart d' (some f)
    Atomic body d a.device a.code ↔ FailsHarmlessly encode body d f := by
  have hcode : Err.FLASH ≠ Err.NO_ERR := by decide
  constructor
  · intro hatomic items' t t' hitems' hadmitted'
    rw [hitems'.unique hitems] at hadmitted'
    obtain ⟨rfl, rfl⟩ := hadmitted.unique encode hadmitted'
    obtain ⟨hactive, hlive', hleft⟩ := hatomic.refused hcode
    change some s'.config = d.active at hactive
    change d'.live = d.live at hlive'
    change f.left d'.flash = d.flash at hleft
    rw [hadmitted.active, Option.some.injEq] at hactive
    rw [hlive, ← hadmitted.live] at hlive'
    rw [hflash] at hleft
    exact ⟨Settings.ext hactive hlive', hleft⟩
  · intro hharmless
    obtain ⟨rfl, hleft⟩ := hharmless _ s s' hitems hadmitted
    refine ⟨fun _ => ⟨hadmitted.active.symm, ?_, ?_⟩, fun h => absurd h hcode⟩
    · change d'.live = d.live
      rw [hlive, hadmitted.live]
    · change f.left d'.flash = d.flash
      rw [hflash, hleft]

end

/-- **A request is applied whole or not at all** exactly if the write of the flash does not fail, or
    fails harmlessly. -/
theorem handle_atomic_iff (buildId : Bytes) (status : Status) {frame out : Bytes} {header : Header}
    (hparse : Header.parse frame = .ok header) (hcommand : header.command = Cmd.SET_CONFIG)
    (hout : out.length = MAX_FRAME_LEN) (d : Device) (failure : Option FlashFailure) :
    let r := handle encode buildId status frame out d failure
    ∃ result, Header.parse r.1.1 = .ok { header with result } ∧
      (Atomic (frame.drop HEADER_LEN) d r.2 result ↔
        ∀ f, failure = some f → FailsHarmlessly encode (frame.drop HEADER_LEN) d f) := by
  obtain ⟨w, hnew⟩ : ∃ w, FrameWriter.new out header.seq header.command = .ok w := by
    unfold FrameWriter.new
    rw [if_neg (by rw [hout]; decide)]
    exact ⟨_, rfl⟩
  have hholds := FrameWriter.holds_new hnew
  have hbad : Err.BAD_FRAME ≠ Err.NO_ERR := by decide
  have hinternal : Err.INTERNAL ≠ Err.NO_ERR := by decide
  rcases hbody : Items.ofFrame frame with e | body
  · -- a body that is no items is refused, and admits nothing
    unfold handle
    simp only [hparse, Except.toOption, Option.getD_some, hnew, hbody]
    refine ⟨Err.BAD_FRAME, (finish_holds hholds _).1, iff_of_true ?_ ?_⟩
    · exact ⟨fun _ => ⟨rfl, rfl, rfl⟩, fun h => absurd h hbad⟩
    · intro f _ items s s' hitems _
      obtain ⟨body, hok⟩ := (parse_iff _).2 ⟨items, hitems⟩
      unfold Items.ofFrame at hbody
      split_ifs at hbody with hshort
      · unfold Header.parse at hparse
        rw [if_pos hshort] at hparse
        cases hparse
      · rw [hok] at hbody
        cases hbody
  have hitems := isBody_of_ofFrame hbody
  obtain ⟨items', hfinish⟩ := setConfig_holds encode hholds body d failure
  rw [handle_setConfig encode buildId status hparse hcommand hnew hbody]
  refine ⟨_, (finish_holds hfinish _).1, ?_⟩
  rcases setConfig_cases encode w body d failure with
    ⟨hresult, hkept, hnone⟩ | ⟨s, s', restart, d', hadmitted, hlive, hblock, hset⟩
  · refine iff_of_true ⟨fun _ => hkept, fun h => ?_⟩ ?_
    · rcases hr : (setConfig encode w body d failure).result with _ | r
      · rw [Answer.code, hr] at h
        exact absurd h hinternal
      · rw [Answer.code, hr] at h
        rw [hr] at hresult
        exact absurd (congrArg Except.ok h) hresult
    · intro f _ items s s' hbody' hadmitted
      rw [hbody'.unique hitems] at hadmitted
      exact absurd hadmitted (hnone s s')
  rw [hset]
  cases failure with
  | some f =>
    refine (activate_some_atomic_iff encode hitems hadmitted hlive hblock w restart f).trans ?_
    constructor
    · intro h f' hf'
      cases hf'
      exact h
    · exact fun h => h f rfl
  | none =>
    have hsent := boolean_new hnew hout Tag.REBOOTING restart
    exact iff_of_true (activate_none_atomic encode hitems hadmitted hlive hsent)
      (fun _ h => by cases h)

end

/-! ## A baud rate -/

/-- A request for another rate. -/
def baudRequest : Bytes :=
  be16 1 ++ be32 Cmd.SET_CONFIG ++ be16 0 ++ Item.wire ⟨Tag.BAUD, be32 9600⟩

/-- A device that was just started, with no printer. -/
def factory : Device where
  active := some .default
  printer := none
  nbp := .new
  reg := ⟨252, none, []⟩
  flash := Config.default.toBlock
  running := ⟨.styleWriter, 57600⟩
  jobActive := false

/-- The status between jobs. -/
def idleStatus : Status := ⟨true, 0, none, 0, 0, none⟩

theorem header_baudRequest : Header.parse baudRequest = .ok ⟨1, Cmd.SET_CONFIG, 0⟩ := by decide

/-- A name and a baud rate. -/
def nameRequest : Bytes :=
  be16 1 ++ be32 Cmd.SET_CONFIG ++ be16 0 ++ Item.wire ⟨Tag.NAME, [3, 0x49, 0x6E, 0x6B]⟩ ++
    Item.wire ⟨Tag.BAUD, be32 9600⟩

/-- A device whose printer and control entity are registered as `LW`. -/
def registered : Device :=
  ({ factory with printer := some ⟨130, [0x53, 0x57], [], none⟩ }.takeName NbpName.fromWire
    [0x4C, 0x57]).2

theorem handle_atomic_name : registered.live = some [0x4C, 0x57] ∧ ∃ result,
    Header.parse (handle NbpName.fromWire [] idleStatus nameRequest (List.replicate MAX_FRAME_LEN 0)
      registered none).1.1 = .ok ⟨1, Cmd.SET_CONFIG, result⟩ ∧
    Atomic (nameRequest.drop HEADER_LEN) registered (handle NbpName.fromWire [] idleStatus
      nameRequest (List.replicate MAX_FRAME_LEN 0) registered none).2 result := by
  have hparse : Header.parse nameRequest = .ok ⟨1, Cmd.SET_CONFIG, 0⟩ := by decide
  obtain ⟨result, hreply, hiff⟩ := handle_atomic_iff NbpName.fromWire [] idleStatus hparse rfl
    (List.length_replicate (n := MAX_FRAME_LEN) (a := 0)) registered none
  exact ⟨by decide +kernel, result, hreply, hiff.2 fun f hf => by cases hf⟩

/-- The default, at 9600 baud. -/
def slower : Config := { Config.default with baud := ⟨9600, by decide⟩ }

/-- Core 1 does not park: nothing is saved, but 9600 baud is what is active. -/
theorem unsaved_baud_active : ¬ ∃ result, Atomic (baudRequest.drop HEADER_LEN) factory
    (handle NbpName.fromWire [] idleStatus baudRequest (List.replicate MAX_FRAME_LEN 0) factory
      (some .notParked)).2 result := by
  rintro ⟨result, hatomic⟩
  have hbody : IsBody [⟨Tag.BAUD, be32 9600⟩] (baudRequest.drop HEADER_LEN) :=
    isBody_flatMap [⟨Tag.BAUD, be32 9600⟩] (by decide)
  obtain ⟨hcheck, hcollect⟩ := hbody.accepted _ _
  have hframe : Items.ofFrame baudRequest = .ok ⟨baudRequest.drop HEADER_LEN⟩ := by
    rw [Items.ofFrame, if_neg (by decide), Items.parse, hcheck]
  obtain ⟨w, hnew⟩ : ∃ w, FrameWriter.new (List.replicate MAX_FRAME_LEN 0) 1 Cmd.SET_CONFIG =
      .ok w := ⟨_, if_neg (by rw [List.length_replicate]; decide)⟩
  rw [handle_setConfig NbpName.fromWire [] idleStatus header_baudRequest rfl hnew hframe] at hatomic
  have hdevice : (setConfig NbpName.fromWire w ⟨baudRequest.drop HEADER_LEN⟩ factory
      (some .notParked)).device = { factory with active := some slower } := by
    unfold setConfig
    rw [Items.iter, hcollect]
    rfl
  simp only [hdevice] at hatomic
  have hslower : slower ≠ Config.default := by
    intro h
    have hbaud := congrArg (fun cfg => cfg.baud.1) h
    exact absurd hbaud (by decide)
  by_cases hresult : result = Err.NO_ERR
  · obtain ⟨_, _, s', _, _, _, _, hactive, _, hflash⟩ := hatomic.applied hresult
    change Config.fromBlock Config.default.toBlock = some s'.config at hflash
    rw [Config.fromBlock_toBlock] at hflash
    rw [← hflash] at hactive
    exact hslower (Option.some.inj hactive)
  · exact hslower (Option.some.inj (hatomic.refused hresult).active)

end TailTalk.InkTalk
