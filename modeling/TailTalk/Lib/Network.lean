/-
  Datagram networks — parties joined by a wire that may lose, duplicate and
  reorder: `deliver` leaves the datagram on the wire, `drop` loses one.

  An invariant has two parts, one about the parties and one about every
  datagram that can still arrive; `inv_run` reduces it to `Keeps`, a condition
  on the one party a step touches.
-/
import Mathlib.Logic.Function.Basic
import TailTalk.Lib.Run

namespace Lib

/-- A protocol party: calls, received datagrams and an outbox. -/
structure Party (σ Addr Pkt Call : Type) where
  call : σ → Call → σ
  /-- a datagram from an address arrives at a time -/
  recv : σ → Addr → Pkt → ℕ → σ
  outbox : σ → List (Addr × Pkt)
  /-- take the next datagram out of the outbox -/
  transmit : σ → Option (Addr × Pkt) × σ
  transmit_mem : ∀ {s p}, (transmit s).1 = some p → p ∈ outbox s
  outbox_transmit : ∀ {s p}, p ∈ outbox (transmit s).2 → p ∈ outbox s

/-- A datagram on the wire. -/
structure Flight (Addr Pkt : Type) where
  src : Addr
  dst : Addr
  body : Pkt

variable {σ Addr Pkt Call ι : Type}

/-- The parties and the wire between them. -/
structure Net (σ Addr Pkt ι : Type) where
  host : ι → σ
  wire : List (Flight Addr Pkt)

/-- What can happen next. -/
inductive Net.Act (Call ι : Type) where
  | call (i : ι) (c : Call)
  | transmit (i : ι)
  /-- the `n`-th datagram on the wire reaches `i` (and may do so again) -/
  | deliver (i : ι) (n now : ℕ)
  | drop (n : ℕ)

namespace Net
variable [DecidableEq ι] (P : Party σ Addr Pkt Call) (addr : ι → Addr)

/-- Replace the state of one party. -/
def set (s : Net σ Addr Pkt ι) (i : ι) (t : σ) : Net σ Addr Pkt ι :=
  { s with host := Function.update s.host i t }

/-- One step of the network. -/
def step [DecidableEq Addr] (s : Net σ Addr Pkt ι) : Act Call ι → Net σ Addr Pkt ι
  | .call i c => s.set i (P.call (s.host i) c)
  | .transmit i =>
    match P.transmit (s.host i) with
    | (none, t) => s.set i t
    | (some (dst, body), t) => { s.set i t with wire := s.wire ++ [⟨addr i, dst, body⟩] }
  | .deliver i n now =>
    match s.wire[n]? with
    | some f => if f.dst = addr i then s.set i (P.recv (s.host i) f.src f.body now) else s
    | none => s
  | .drop n => { s with wire := s.wire.eraseIdx n }

/-- The datagrams that can still arrive. -/
def Known (s : Net σ Addr Pkt ι) (f : Flight Addr Pkt) : Prop :=
  f ∈ s.wire ∨ ∃ i, f.src = addr i ∧ (f.dst, f.body) ∈ P.outbox (s.host i)

/-- Those of them that `i` sent, as a list. -/
def underWay [DecidableEq Addr] (s : Net σ Addr Pkt ι) (i : ι) : List Pkt :=
  (s.wire.filter (·.src = addr i)).map (·.body) ++ (P.outbox (s.host i)).map (·.2)

/-- An invariant: `I` of the parties and `J` of every known datagram. -/
structure Inv (I : (ι → σ) → Prop) (J : (ι → σ) → Flight Addr Pkt → Prop)
    (s : Net σ Addr Pkt ι) : Prop where
  hosts : I s.host
  known : ∀ f, Known P addr s f → J s.host f

/-- `J` still holds of the known datagrams, and of every datagram that `i` adds. -/
structure Keeps (I : (ι → σ) → Prop) (J : (ι → σ) → Flight Addr Pkt → Prop)
    (s : Net σ Addr Pkt ι) (i : ι) (t : σ) : Prop where
  hosts : I (Function.update s.host i t)
  frame : ∀ f, Known P addr s f → J s.host f → J (Function.update s.host i t) f
  fresh : ∀ p ∈ P.outbox t,
    p ∈ P.outbox (s.host i) ∨ J (Function.update s.host i t) ⟨addr i, p.1, p.2⟩

section
variable {P addr} {I : (ι → σ) → Prop} {J : (ι → σ) → Flight Addr Pkt → Prop}

omit [DecidableEq ι] in
theorem Known.mem_underWay [DecidableEq Addr] {s : Net σ Addr Pkt ι} {f : Flight Addr Pkt}
    {i : ι} (hinj : Function.Injective addr) (h : Known P addr s f) (hs : f.src = addr i) :
    f.body ∈ underWay P addr s i := by
  rcases h with hw | ⟨j, hj, hout⟩
  · refine List.mem_append_left _ (List.mem_map.2 ⟨f, ?_, rfl⟩)
    exact List.mem_filter.2 ⟨hw, by simpa using hs⟩
  · obtain rfl := hinj (hj.symm.trans hs)
    exact List.mem_append_right _ (List.mem_map.2 ⟨_, hout, rfl⟩)

theorem Inv.set {s : Net σ Addr Pkt ι} {i : ι} {t : σ} (h : Inv P addr I J s)
    (hk : Keeps P addr I J s i t) : Inv P addr I J (s.set i t) := by
  refine ⟨hk.hosts, ?_⟩
  rintro f (hw | ⟨j, hsrc, hmem⟩)
  · exact hk.frame f (Or.inl hw) (h.known f (Or.inl hw))
  · by_cases hj : j = i
    · subst hj
      simp only [Net.set, Function.update_self] at hmem
      rcases hk.fresh _ hmem with hold | hnew
      · have hknown : Known P addr s f := Or.inr ⟨j, hsrc, hold⟩
        exact hk.frame f hknown (h.known f hknown)
      · rw [← hsrc] at hnew; exact hnew
    · simp only [Net.set, Function.update_of_ne hj] at hmem
      have hknown : Known P addr s f := Or.inr ⟨j, hsrc, hmem⟩
      exact hk.frame f hknown (h.known f hknown)

theorem Inv.transmit [DecidableEq Addr] {s : Net σ Addr Pkt ι} {i : ι} (h : Inv P addr I J s)
    (hk : Keeps P addr I J s i (P.transmit (s.host i)).2) :
    Inv P addr I J (step P addr s (.transmit i)) := by
  have hset := h.set hk
  rcases ht : P.transmit (s.host i) with ⟨_ | ⟨dst, body⟩, t⟩
  · simp only [step, ht] at hset ⊢; exact hset
  · rw [ht] at hset hk
    simp only [step, ht]
    refine ⟨hset.hosts, ?_⟩
    rintro f (hw | hout)
    · rcases List.mem_append.1 hw with hw | hw
      · exact hset.known f (Or.inl hw)
      · obtain rfl := List.mem_singleton.1 hw
        have hmem : (dst, body) ∈ P.outbox (s.host i) := P.transmit_mem (by rw [ht])
        have hknown : Known P addr s ⟨addr i, dst, body⟩ := Or.inr ⟨i, rfl, hmem⟩
        exact hk.frame _ hknown (h.known _ hknown)
    · exact hset.known f (Or.inr hout)

/-- **The network rule.**  If calls and deliveries that meet `ok` keep the
    invariant at the party they touch, and so does taking from an outbox, then
    it holds after every run whose steps meet `ok`. -/
theorem inv_run_net [DecidableEq Addr] {ok : Net σ Addr Pkt ι → Act Call ι → Prop}
    (hcall : ∀ s i c, Inv P addr I J s → ok s (.call i c) →
      Keeps P addr I J s i (P.call (s.host i) c))
    (hrecv : ∀ s i n f now, Inv P addr I J s → s.wire[n]? = some f → f.dst = addr i →
      ok s (.deliver i n now) → Keeps P addr I J s i (P.recv (s.host i) f.src f.body now))
    (hpop : ∀ s i, Inv P addr I J s → Keeps P addr I J s i (P.transmit (s.host i)).2)
    {s : Net σ Addr Pkt ι} {as : List (Act Call ι)} (h : Inv P addr I J s)
    (hok : Along (step P addr) ok s as) : Inv P addr I J (run (step P addr) s as) := by
  refine inv_run (step P addr) (fun s a h hok => ?_) h hok
  cases a with
  | call i c => exact h.set (hcall s i c h hok)
  | transmit i => exact h.transmit (hpop s i h)
  | deliver i n now =>
    rcases hn : s.wire[n]? with _ | f
    · simpa only [step, hn] using h
    · by_cases hd : f.dst = addr i
      · simp only [step, hn, hd, if_true]
        exact h.set (hrecv s i n f now h hn hd hok)
      · simpa only [step, hn, hd, if_false] using h
  | drop n =>
    refine ⟨h.hosts, fun f hf => h.known f ?_⟩
    rcases hf with hw | hout
    · exact Or.inl (List.mem_of_mem_eraseIdx hw)
    · exact Or.inr hout

end

/-! ## One party on its own -/

/-- What can happen to a party. -/
inductive Input (Addr Pkt Call : Type) where
  | call (c : Call)
  | recv (src : Addr) (body : Pkt) (now : ℕ)
  | transmit

/-- One step of a party that anything may happen to. -/
def solo (P : Party σ Addr Pkt Call) (t : σ) : Input Addr Pkt Call → σ
  | .call c => P.call t c
  | .recv src body now => P.recv t src body now
  | .transmit => (P.transmit t).2

/-- What an action of the network is to party `i`. -/
def input [DecidableEq Addr] (addr : ι → Addr) (i : ι) (s : Net σ Addr Pkt ι) :
    Act Call ι → Option (Input Addr Pkt Call)
  | .call j c => if j = i then some (.call c) else none
  | .transmit j => if j = i then some .transmit else none
  | .deliver j n now =>
    match s.wire[n]? with
    | some f => if j = i ∧ f.dst = addr i then some (.recv f.src f.body now) else none
    | none => none
  | .drop _ => none

theorem host_set {s : Net σ Addr Pkt ι} {i j : ι} {t : σ} :
    (s.set j t).host i = if j = i then t else s.host i := by
  by_cases h : j = i
  · subst h; simp [set]
  · rw [if_neg h]; exact Function.update_of_ne (Ne.symm h) t s.host

/-- **A party in a network** sees a run of its own. -/
theorem host_step [DecidableEq Addr] (P : Party σ Addr Pkt Call) (addr : ι → Addr) (i : ι)
    (s : Net σ Addr Pkt ι) (a : Act Call ι) :
    (step P addr s a).host i = run (solo P) (s.host i) (input addr i s a).toList := by
  cases a with
  | call j c =>
    simp only [step, input, host_set]
    split_ifs with h
    · subst h; rfl
    · rfl
  | transmit j =>
    have hset : (step P addr s (.transmit j)).host i =
        (s.set j (P.transmit (s.host j)).2).host i := by
      simp only [step]
      rcases P.transmit (s.host j) with ⟨_ | ⟨dst, body⟩, t⟩ <;> rfl
    rw [hset, host_set]
    simp only [input]
    split_ifs with h
    · subst h; rfl
    · rfl
  | deliver j n now =>
    simp only [step, input]
    rcases s.wire[n]? with _ | f
    · rfl
    by_cases hd : f.dst = addr j
    · simp only [if_pos hd, host_set]
      by_cases h : j = i
      · subst h; simp only [if_true, hd, and_self]; rfl
      · simp only [h, false_and, if_false]; rfl
    · simp only [if_neg hd]
      by_cases h : j = i
      · subst h; simp only [hd, and_false, if_false]; rfl
      · simp only [h, false_and, if_false]; rfl
  | drop n => rfl

/-! ## Two parties -/

section
variable (P : Party σ Addr Pkt Call) (addr : Bool → Addr)

/-- Party `i` in state `a`, with its peer in state `b`, moves to `a'`.  `H` is the invariant of a
    party and its peer, `G` that of a datagram between them, and `known` are those under way. -/
structure Moves (H : Bool → σ → σ → Prop) (G : Bool → σ → σ → Pkt → Prop)
    (known : Bool → Pkt → Prop) (i : Bool) (a b a' : σ) : Prop where
  mine : H i a' b
  peer : H (!i) b a'
  sent : ∀ body, known i body → G i a b body → G i a' b body
  coming : ∀ body, known (!i) body → G (!i) b a body → G (!i) b a' body
  fresh : ∀ p ∈ P.outbox a', p ∈ P.outbox a ∨ (p.1 = addr (!i) ∧ G i a' b p.2)

/-- What to show of two parties `true` and `false` that only talk to each
    other. -/
structure PairRule [DecidableEq Addr] (ok : Net σ Addr Pkt Bool → Act Call Bool → Prop)
    (H : Bool → σ → σ → Prop) (G : Bool → σ → σ → Pkt → Prop) : Prop where
  addr_ne : addr true ≠ addr false
  call : ∀ {s i c}, H i (s.host i) (s.host !i) → H (!i) (s.host !i) (s.host i) →
    ok s (.call i c) → Moves P addr H G (fun j body => body ∈ underWay P addr s j) i
      (s.host i) (s.host !i) (P.call (s.host i) c)
  recv : ∀ {i a b body now}, H i a b → H (!i) b a → G (!i) b a body →
    Moves P addr H G (fun _ _ => True) i a b (P.recv a (addr !i) body now)
  pop : ∀ {i a b}, H i a b → H (!i) b a →
    Moves P addr H G (fun _ _ => True) i a b (P.transmit a).2

/-- The two parties and every datagram between them are as they should be. -/
def PairInv (H : Bool → σ → σ → Prop) (G : Bool → σ → σ → Pkt → Prop)
    (s : Net σ Addr Pkt Bool) : Prop :=
  Inv P addr (fun h => ∀ i, H i (h i) (h !i))
    (fun h f => ∃ i, f.src = addr i ∧ f.dst = addr (!i) ∧ G i (h i) (h !i) f.body) s

variable {P addr} {H : Bool → σ → σ → Prop} {G : Bool → σ → σ → Pkt → Prop}
  {known : Bool → Pkt → Prop}

theorem addr_injective (hne : addr true ≠ addr false) : Function.Injective addr := by
  intro i j h
  cases i <;> cases j <;> simp_all

theorem Moves.mono {known' : Bool → Pkt → Prop} {i : Bool} {a b a' : σ}
    (h : Moves P addr H G known i a b a') (hk : ∀ j body, known' j body → known j body) :
    Moves P addr H G known' i a b a' :=
  ⟨h.mine, h.peer, fun body hb => h.sent body (hk i body hb),
    fun body hb => h.coming body (hk (!i) body hb), h.fresh⟩

theorem Moves.trans {i : Bool} {a b a' a'' : σ}
    (h : Moves P addr H G (fun _ _ => True) i a b a')
    (h' : H i a' b → H (!i) b a' → Moves P addr H G (fun _ _ => True) i a' b a'') :
    Moves P addr H G (fun _ _ => True) i a b a'' := by
  have h2 := h' h.mine h.peer
  refine ⟨h2.mine, h2.peer, fun body _ hg => h2.sent body trivial (h.sent body trivial hg),
    fun body _ hg => h2.coming body trivial (h.coming body trivial hg), fun p hp => ?_⟩
  rcases h2.fresh p hp with hp | hp
  · rcases h.fresh p hp with hp | ⟨hd, hg⟩
    · exact Or.inl hp
    · exact Or.inr ⟨hd, h2.sent _ trivial hg⟩
  · exact Or.inr hp

theorem Moves.keeps [DecidableEq Addr] {s : Net σ Addr Pkt Bool} {i : Bool} {t : σ}
    (hne : addr true ≠ addr false)
    (hm : Moves P addr H G (fun j body => body ∈ underWay P addr s j) i (s.host i) (s.host !i) t) :
    Keeps P addr (fun h => ∀ i, H i (h i) (h !i))
      (fun h f => ∃ i, f.src = addr i ∧ f.dst = addr (!i) ∧ G i (h i) (h !i) f.body) s i t := by
  have hpeer : Function.update s.host i t (!i) = s.host !i :=
    Function.update_of_ne (by simp) t s.host
  have hinj := addr_injective hne
  refine ⟨fun j => ?_, ?_, fun p hp => ?_⟩
  · by_cases hj : j = i
    · subst hj; rw [Function.update_self, hpeer]; exact hm.mine
    · obtain rfl : j = !i := Bool.eq_not_of_ne hj
      rw [hpeer, Bool.not_not, Function.update_self]; exact hm.peer
  · rintro f hf ⟨j, hs, hd, hg⟩
    refine ⟨j, hs, hd, ?_⟩
    by_cases hj : j = i
    · subst hj
      rw [Function.update_self, hpeer]
      exact hm.sent _ (hf.mem_underWay hinj hs) hg
    · obtain rfl : j = !i := Bool.eq_not_of_ne hj
      rw [Bool.not_not] at hg
      rw [hpeer, Bool.not_not, Function.update_self]
      exact hm.coming _ (hf.mem_underWay hinj hs) hg
  · rcases hm.fresh p hp with hp | ⟨hd, hg⟩
    · exact Or.inl hp
    · exact Or.inr ⟨i, rfl, hd, by rw [Function.update_self, hpeer]; exact hg⟩

/-- **The rule for two parties.** -/
theorem PairRule.inv_run [DecidableEq Addr] {ok : Net σ Addr Pkt Bool → Act Call Bool → Prop}
    (r : PairRule P addr ok H G) {s : Net σ Addr Pkt Bool} {as : List (Act Call Bool)}
    (h : PairInv P addr H G s) (hok : Along (step P addr) ok s as) :
    PairInv P addr H G (run (step P addr) s as) := by
  refine inv_run_net (fun s i c h hok => ?_) (fun s i n f now h hf hd _ => ?_)
    (fun s i h => ?_) h hok
  · have hpeer : H (!i) (s.host !i) (s.host i) := by simpa using h.hosts (!i)
    exact (r.call (h.hosts i) hpeer hok).keeps r.addr_ne
  · obtain ⟨j, hs, hd', hg⟩ := h.known f (Or.inl (List.mem_of_getElem? hf))
    obtain rfl : i = !j := addr_injective r.addr_ne (hd.symm.trans hd')
    have hj : H (!!j) (s.host j) (s.host !j) := by simpa using h.hosts j
    have hme : H (!j) (s.host !j) (s.host !!j) := h.hosts (!j)
    have hm : Moves P addr H G (fun _ _ => True) (!j) (s.host !j) (s.host !!j)
        (P.recv (s.host !j) (addr !!j) f.body now) :=
      r.recv hme (by simpa using hj) (by simpa using hg)
    rw [Bool.not_not, ← hs] at hm
    exact Moves.keeps r.addr_ne (by simpa using hm.mono fun _ _ _ => trivial)
  · have hpeer : H (!i) (s.host !i) (s.host i) := by simpa using h.hosts (!i)
    exact ((r.pop (h.hosts i) hpeer).mono fun _ _ _ => trivial).keeps r.addr_ne

end

end Net

end Lib
