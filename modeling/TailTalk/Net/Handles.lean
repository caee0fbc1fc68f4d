/-
  The handles of one node, and what they find in its slots.

  For the statements `World` also counts how often a slot has been filled:
  `occupant` is the number of the filling that made what a slot holds or held
  last, and every handle remembers its own.
-/
import Mathlib.Data.Nat.ModEq
import TailTalk.Net.Occupancy

namespace TailTalk

open Lib

/-- What a handle holds of the state machine in its slot. -/
inductive Stake where
  | raw
  | atp
  /-- the future of a request, by the handle of the endpoint -/
  | atpRequest (tid : UInt16)
  | adsp (part : StreamStake)
  /-- with the generation of its slot -/
  | printer (generation : UInt32)
deriving DecidableEq

/-- A handle that owns its slot frees it when it is dropped. -/
def Stake.Owns : Stake → Prop
  | .raw | .atp | .printer _ => True
  | .atpRequest _ | .adsp _ => False

/-- What a socket object keeps of the node. -/
structure NetHandle where
  slot : ℕ
  stake : Stake
  socket : UInt8
  /-- the filling it was made at -/
  occupant : ℕ
deriving DecidableEq

/-- A handle that owns nothing and goes by the generation of its slot. -/
structure PrinterName where
  slot : ℕ
  generation : UInt32
  /-- the filling of its printer -/
  occupant : ℕ
deriving DecidableEq

/-- A datagram that the runner took from a slot and the stack did not send. -/
structure Lost where
  occupant : ℕ
  datagram : Transmit

/-- The node and the handles that are alive. -/
structure World where
  inner : NetInner
  handles : List NetHandle
  names : List PrinterName
  /-- how often a slot has been filled -/
  filled : ℕ
  occupant : ℕ → ℕ
  lost : List Lost

/-- The call that drops a part of an ADSP socket. -/
def StreamStake.drop : StreamStake → AdspSocketCall
  | .listener => .dropListener
  | .stream id => .dropStream id
  | .connect handle => .dropConnect handle

/-- The stream that a call is about. -/
def AdspSocketCall.stream? : AdspSocketCall → Option UInt32
  | .readWithEom id _ | .readMessage id _ | .writeChunk id _ _ | .writeEom id | .flushData id
  | .sendAttention id _ _ _ | .attentionOutcome id | .dropAttention id | .attention id
  | .tryAttention id => some id
  | .datagram _ _ _ | .poll _ | .pollTransmit | .acceptNext | .dropListener | .connectOutcome _
  | .dropConnect _ | .dropStream _ => none

/-- The call is a method of the socket that no future waits in. -/
def AtpSocketCall.ofSocket : AtpSocketCall → Bool
  | .sendAlo _ _ | .nextRequest | .respondChunked _ _ _ _ _ => true
  | .datagram _ _ | .poll _ | .pollTransmit | .request _ _ _ _ _ | .outcome _ | .forget _ => false

/-- Everything that happens to a node under its lock. -/
inductive NetAct where
  | bindDdp (socket : Option UInt8)
  | bindAtp (socket : Option UInt8)
  | listen (socket : Option UInt8)
  | connect (remote : ServiceAddress) (now : Micros)
  | bindPrinter (model : PrinterModel) (name : Bytes) (now : Micros)
  /-- `DdpSocket::send_to` -/
  | sendTo (h : NetHandle) (dest : ServiceAddress) (proto : DdpProtocolType) (payload : Bytes)
  /-- a look of `DdpSocket::recv` -/
  | recv (h : NetHandle)
  /-- a method of an ATP socket -/
  | atp (h : NetHandle) (c : AtpSocketCall)
  /-- the first half of `AtpSocket::request` -/
  | request (h : NetHandle) (dest : ServiceAddress) (userBytes : UserBytes) (data : Bytes)
      (bitmap : UInt8) (now : Micros)
  /-- a look of its second half -/
  | outcome (h : NetHandle)
  /-- a look of `AdspListener::accept` -/
  | accept (h : NetHandle)
  /-- a look of the second half of `AdspStream::connect` -/
  | connected (h : NetHandle)
  /-- a method of a stream -/
  | stream (h : NetHandle) (c : AdspSocketCall)
  /-- a step of `Printer::run` -/
  | port (h : NetHandle) (c : PortCall)
  | nameHandle (h : NetHandle)
  /-- `PrinterName::set` and `set_type` -/
  | rename (n : PrinterName) (name nbpType : Option Bytes)
  | nbpRegister (name : EntityName) (socket : UInt8)
  | nbpUnregister (name : EntityName) (socket : UInt8)
  | drop (h : NetHandle)
  /-- the link has received a frame -/
  | frame (data : Bytes) (now : Micros)
  | timers (now : Micros)
  | turn (now : Micros)

namespace World

/-- A node with no handle. -/
def new (cfg : StackConfig) (now : Micros) : World where
  inner := .new cfg now
  handles := []
  names := []
  filled := 0
  occupant _ := 0
  lost := []

section
variable (w : World)

/-- A slot has been filled, and a handle made for it. -/
def hold (inner : NetInner) (id : ℕ) (stake : Stake) (socket : UInt8) : World :=
  { w with
    inner
    handles := ⟨id, stake, socket, w.filled⟩ :: w.handles
    filled := w.filled + 1
    occupant := Function.update w.occupant id w.filled }

/-- A bind has returned. -/
def bound (stake : Stake) (r : Except BindError (ℕ × UInt8) × NetInner) : World :=
  match r.1 with
  | .ok x => w.hold r.2 x.1 stake x.2
  | .error _ => { w with inner := r.2 }

/-- The state machine of a handle has changed. -/
def put (h : NetHandle) (hosted : Hosted) : World :=
  { w with inner := w.inner.setHosted h.slot hosted }

/-- A handle has been made for the same slot. -/
def share (h : NetHandle) (stake : Stake) : World :=
  { w with handles := { h with stake } :: w.handles }

/-- A handle is gone. -/
def forget (h : NetHandle) : World := { w with handles := w.handles.erase h }

/-- The future of a request looks for the outcome. -/
def lookOutcome (h : NetHandle) (tid : UInt16) (s : AtpState) : World :=
  match s.outcome tid with
  | (none, _) => w
  | (some _, s) => (w.put h (.atp s)).forget h

/-- A future of the listener looks for a connection. -/
def lookAccept (h : NetHandle) (s : AdspState) : World :=
  match s.acceptNext with
  | (none, _) => w
  | (some x, s) => (w.put h (.adsp s)).share h (.adsp (.stream x.1))

/-- A future looks for the stream it opens. -/
def lookConnect (h : NetHandle) (handle : UInt16) (s : AdspState) : World :=
  match s.connectOutcome handle with
  | (none, _) => w
  | (some (.ok id), s) => ((w.put h (.adsp s)).forget h).share h (.adsp (.stream id))
  | (some (.error _), s) => (w.put h (.adsp s)).forget h

/-- A handle is dropped.  The futures of its requests borrow an ATP socket. -/
def dropHandle (h : NetHandle) : Option World :=
  match h.stake with
  | .raw => some { w.forget h with inner := w.inner.remove h.slot }
  | .atp =>
    if ∀ h' ∈ w.handles, h'.slot = h.slot → h'.stake = .atp then
      some { w.forget h with inner := w.inner.remove h.slot }
    else none
  | .atpRequest tid =>
    (w.inner.atp h.slot).map fun s => (w.put h (.atp (s.forget tid))).forget h
  | .adsp part =>
    (w.inner.adsp h.slot).map fun s => (w.put h (.adsp (s.call part.drop))).forget h
  | .printer _ =>
    (w.inner.dropPrinter h.slot h.socket).map fun inner => { w.forget h with inner }

/-- What a turn of the runner takes from a slot and the stack does not send. -/
def loses : List Lost :=
  if w.inner.stack.events = [] ∧ w.inner.stack.outbox = [] then
    match (takeFirst Slot.take w.inner.slots).1 with
    | some x =>
      match (w.inner.stack.sendTransmit x.2).1 with
      | .error _ => [⟨w.occupant x.1, x.2⟩]
      | .ok _ => []
    | none => []
  else []

end

section
variable (encode : Bytes → Option NbpName)

/-- One call under the lock; `none` where a handle is not alive or of another kind, or the call does
    not return. -/
def step (w : World) : NetAct → Option World
  | .bindDdp socket => some (w.bound .raw (w.inner.bindDdp socket))
  | .bindAtp socket => some (w.bound .atp (w.inner.bindAtp socket))
  | .listen socket => some (w.bound (.adsp .listener) (w.inner.listen socket))
  | .connect remote now =>
    (w.inner.connect remote now).map fun r =>
      match r.1 with
      | .ok x => w.hold r.2 x.1 (.adsp (.connect x.2.1)) x.2.2
      | .error _ => { w with inner := r.2 }
  | .bindPrinter model name now =>
    (w.inner.bindPrinter encode model name now).map fun r =>
      match r.1 with
      | .ok x => w.hold r.2 x.1 (.printer (r.2.generation x.1)) x.2
      | .error _ => { w with inner := r.2 }
  | .sendTo h dest proto payload =>
    if h ∈ w.handles ∧ h.stake = .raw then
      some { w with
        inner := { w.inner with
          stack := (w.inner.stack.sendTransmit ⟨h.socket, dest, proto, payload⟩).2 } }
    else none
  | .recv h =>
    if h ∈ w.handles ∧ h.stake = .raw then
      (w.inner.raw h.slot).map fun s => w.put h (.raw ⟨s.rx.tail⟩)
    else none
  | .atp h c =>
    if h ∈ w.handles ∧ h.stake = .atp ∧ c.ofSocket = true then
      (w.inner.atp h.slot).bind fun s => (s.call c).map fun s => w.put h (.atp s)
    else none
  | .request h dest userBytes data bitmap now =>
    if h ∈ w.handles ∧ h.stake = .atp then
      (w.inner.atp h.slot).bind fun s => (s.request dest userBytes data bitmap now).map fun r =>
        (w.put h (.atp r.2)).share h (.atpRequest r.1)
    else none
  | .outcome h =>
    if h ∈ w.handles then
      match h.stake with
      | .atpRequest tid => (w.inner.atp h.slot).map (w.lookOutcome h tid)
      | .raw | .atp | .adsp _ | .printer _ => none
    else none
  | .accept h =>
    if h ∈ w.handles ∧ h.stake = .adsp .listener then
      (w.inner.adsp h.slot).map (w.lookAccept h)
    else none
  | .connected h =>
    if h ∈ w.handles then
      match h.stake with
      | .adsp (.connect handle) => (w.inner.adsp h.slot).map (w.lookConnect h handle)
      | .adsp .listener | .adsp (.stream _) | .raw | .atp | .atpRequest _ | .printer _ => none
    else none
  | .stream h c =>
    if h ∈ w.handles then
      match h.stake with
      | .adsp (.stream id) =>
        if c.stream? = some id then
          (w.inner.adsp h.slot).map fun s => w.put h (.adsp (s.call c))
        else none
      | .adsp .listener | .adsp (.connect _) | .raw | .atp | .atpRequest _ | .printer _ => none
    else none
  | .port h c =>
    if h ∈ w.handles then
      match h.stake with
      | .printer _ => (w.inner.port h.slot).bind fun p => (p.call c).map fun p => w.put h (.port p)
      | .raw | .atp | .atpRequest _ | .adsp _ => none
    else none
  | .nameHandle h =>
    if h ∈ w.handles then
      match h.stake with
      | .printer generation => some { w with names := ⟨h.slot, generation, h.occupant⟩ :: w.names }
      | .raw | .atp | .atpRequest _ | .adsp _ => none
    else none
  | .rename n name nbpType =>
    if n ∈ w.names then
      (w.inner.reregister encode n.slot n.generation name nbpType).map fun r =>
        { w with inner := r.2 }
    else none
  | .nbpRegister name socket =>
    some { w with
      inner := { w.inner with stack := (w.inner.stack.nbpRegister name socket).2 } }
  | .nbpUnregister name socket =>
    some { w with
      inner := { w.inner with stack := (w.inner.stack.nbpUnregister name socket).2 } }
  | .drop h => if h ∈ w.handles then w.dropHandle h else none
  | .frame data now =>
    ({ w.inner with stack := w.inner.stack.handleFrame data now }.pollTimers now).map fun inner =>
      { w with inner }
  | .timers now => (w.inner.pollTimers now).map fun inner => { w with inner }
  | .turn now =>
    (w.inner.turn now).map fun r => { w with inner := r.2, lost := w.lost ++ w.loses }

end

end World

/-! ## What holds of every state -/

/-- What a stake in a slot comes to: a state machine of its kind, with the part of an ADSP socket or
    the generation of a printer.  Of a request only the ATP socket is found: its outcome may be
    another one's with its number. -/
def Slot.Keeps (slot : Slot) : Stake → Prop
  | .raw => ∃ s, slot.hosted = .raw s
  | .atp | .atpRequest _ => ∃ s, slot.hosted = .atp s
  | .adsp part => ∃ s, slot.hosted = .adsp s ∧ s.streams.Held part
  | .printer generation => (∃ p, slot.hosted = .port p) ∧ slot.generation = generation

/-- Two handles hold different parts; only the requests of an ATP socket share it. -/
def NetHandle.Apart (h h' : NetHandle) : Prop :=
  h.slot = h'.slot → h.stake = h'.stake → ∃ tid, h.stake = .atpRequest tid

theorem NetHandle.Apart.symm {h h' : NetHandle} (ha : h.Apart h') : h'.Apart h := by
  intro hslot hstake
  rw [hstake]
  exact ha hslot.symm hstake.symm

namespace World

section
variable (w : World)

/-- A handle finds its own state machine in its slot. -/
structure Finds (h : NetHandle) (slot : Slot) : Prop where
  here : w.inner.slot h.slot = some slot
  own : w.occupant h.slot = h.occupant
  socket : slot.sockets.head? = some h.socket
  keeps : slot.Keeps h.stake

/-- The counts agree with the slots, and every handle with its filling. -/
structure Valid : Prop where
  consistent : w.inner.Consistent []
  generation : w.inner.nextGeneration = UInt32.ofNat w.filled
  occupied : ∀ id slot, w.inner.slot id = some slot →
    slot.generation = UInt32.ofNat (w.occupant id)
  owned : ∀ id slot s, w.inner.slot id = some slot → slot.hosted = .adsp s → s.streams.Owned
  finds : ∀ h ∈ w.handles, ∃ slot, w.Finds h slot
  apart : w.handles.Pairwise NetHandle.Apart
  names : ∀ n ∈ w.names, n.generation = UInt32.ofNat n.occupant

/-- No new stream of an ADSP socket is numbered like one in use. -/
def Unclashed : NetAct → Prop
  | .turn now =>
    match w.inner.stack.pollEvent.1 with
    | some (.datagram dg) =>
      ∀ id ∈ w.inner.bySocket[dg.dstSocket]?, ∀ slot ∈ w.inner.slot id,
        slot.hosted.Numbers fun ep => ep.handleDatagram dg.source dg.payload now
    | some (.addressAcquired _) | some (.networkNumberChanged _) | none => True
  | .frame _ now | .timers now =>
    ∀ o ∈ w.inner.slots, ∀ slot ∈ o, slot.due now = true →
      slot.hosted.Numbers fun ep => ep.poll now
  | _ => True

end

section
variable {w : World} {h h' : NetHandle} {slot : Slot} {inner : NetInner}

/-- A handle and the others. -/
theorem apart_of_mem_erase {handles : List NetHandle} (hp : handles.Pairwise NetHandle.Apart)
    (hmem : h ∈ handles) (hmem' : h' ∈ handles.erase h) : h.Apart h' := by
  have hperm := (List.perm_cons_erase hmem).pairwise_iff
    (R := NetHandle.Apart) (fun hab => NetHandle.Apart.symm hab)
  exact (List.pairwise_cons.1 (hperm.1 hp)).1 h' hmem'

theorem Valid.new (cfg : StackConfig) (now : Micros) : (World.new cfg now).Valid := by
  have hslot : ∀ id, (NetInner.new cfg now).slot id = none := fun id => rfl
  refine ⟨⟨fun n => ?_, fun n id => ?_, nofun⟩, rfl, fun id slot hs => ?_, fun id slot s hs => ?_,
    nofun, .nil, nofun⟩
  · simp [World.new, NetInner.new, NetInner.Lists, Stack.new, NetInner.slot]
  · simp [World.new, NetInner.new, NetInner.Lists, NetInner.slot]
  · cases (hslot id).symm.trans hs
  · cases (hslot id).symm.trans hs

/-! ## Steps of the runner -/

theorem owned_sorts {t t' : Streams} (ht : t.Owned)
    (h : Relation.ReflTransGen Streams.Sorts t t') : t'.Owned := by
  induction h with
  | refl => exact ht
  | tail _ hstep ih => exact ih.sorts hstep

theorem held_sorts {t t' : Streams} {p : StreamStake} (ht : t.Held p)
    (h : Relation.ReflTransGen Streams.Sorts t t') : t'.Held p := by
  induction h with
  | refl => exact ht
  | tail _ hstep ih => exact ih.sorts hstep

theorem keeps_steady {stake : Stake} {hosted : Hosted} (hk : slot.Keeps stake)
    (h : Hosted.Steady slot.hosted hosted) : ({ slot with hosted } : Slot).Keeps stake := by
  cases stake with
  | raw =>
    obtain ⟨s, hs⟩ := hk
    rw [hs] at h
    cases h
    exact ⟨_, rfl⟩
  | atp =>
    obtain ⟨s, hs⟩ := hk
    rw [hs] at h
    cases h
    exact ⟨_, rfl⟩
  | atpRequest tid =>
    obtain ⟨s, hs⟩ := hk
    rw [hs] at h
    cases h
    exact ⟨_, rfl⟩
  | adsp part =>
    obtain ⟨s, hs, hheld⟩ := hk
    rw [hs] at h
    cases h with
    | adsp hsorts => exact ⟨_, rfl, held_sorts hheld hsorts⟩
  | printer generation =>
    obtain ⟨⟨p, hp⟩, hgeneration⟩ := hk
    rw [hp] at h
    cases h
    exact ⟨⟨_, rfl⟩, hgeneration⟩

/-- On the slot that a handle owns there is no part of another kind. -/
theorem Slot.Keeps.owned {stake stake' : Stake} (howns : stake.Owns) (hk : slot.Keeps stake)
    (hk' : slot.Keeps stake') :
    stake' = stake ∨ stake = .atp ∧ ∃ tid, stake' = .atpRequest tid := by
  cases stake <;> cases stake' <;> grind [Slot.Keeps, Stake.Owns]

theorem keeps_of_adsp {stake : Stake} {s : AdspState} (hs : slot.hosted = .adsp s)
    (hk : slot.Keeps stake) : ∃ part, stake = .adsp part ∧ s.streams.Held part := by
  cases stake <;> simp_all [Slot.Keeps]

/-- The state machine of a slot stays what every stake but some takes it for. -/
theorem keeps_raw {stake : Stake} {s s' : RawState} (hs : slot.hosted = .raw s)
    (hk : slot.Keeps stake) : ({ slot with hosted := .raw s' } : Slot).Keeps stake :=
  keeps_steady hk (by rw [hs]; exact .raw)

theorem keeps_atp {stake : Stake} {s s' : AtpState} (hs : slot.hosted = .atp s)
    (hk : slot.Keeps stake) : ({ slot with hosted := .atp s' } : Slot).Keeps stake :=
  keeps_steady hk (by rw [hs]; exact .atp)

theorem keeps_port {stake : Stake} {p p' : PrinterPort} (hs : slot.hosted = .port p)
    (hk : slot.Keeps stake) : ({ slot with hosted := .port p' } : Slot).Keeps stake :=
  keeps_steady hk (by rw [hs]; exact .port)

theorem keeps_adsp {stake : Stake} {s s' : AdspState} (hs : slot.hosted = .adsp s)
    (hk : slot.Keeps stake)
    (hheld : ∀ part, stake = .adsp part → s.streams.Held part → s'.streams.Held part) :
    ({ slot with hosted := .adsp s' } : Slot).Keeps stake := by
  obtain ⟨part, rfl, hpart⟩ := keeps_of_adsp hs hk
  exact ⟨s', rfl, hheld part rfl hpart⟩

theorem runs_stack {s : NetInner} {stack : Stack} (h : stack.sockets = s.stack.sockets) :
    s.Runs { s with stack } := NetInner.kept_stack (fun _ => .refl) h

theorem runs_trans {a b c : NetInner} (h : a.Runs b) (h' : b.Runs c) : a.Runs c := by
  refine h.trans h' fun _ x y z hxy hyz => ?_
  cases hxy with
  | raw =>
    cases hyz
    exact .raw
  | atp =>
    cases hyz
    exact .atp
  | adsp hxy =>
    cases hyz with
    | adsp hyz => exact .adsp (hxy.trans hyz)
  | port =>
    cases hyz
    exact .port

section
variable {s : NetInner} {id : ℕ}

theorem slot_of_raw {a : RawState} (h : s.raw id = some a) :
    ∃ slot, s.slot id = some slot ∧ slot.hosted = .raw a := by
  unfold NetInner.raw at h
  split at h
  · rename_i hs
    obtain rfl := Option.some.inj h
    exact ⟨_, hs, rfl⟩
  · cases h

theorem slot_of_atp {a : AtpState} (h : s.atp id = some a) :
    ∃ slot, s.slot id = some slot ∧ slot.hosted = .atp a := by
  unfold NetInner.atp at h
  split at h
  · rename_i hs
    obtain rfl := Option.some.inj h
    exact ⟨_, hs, rfl⟩
  · cases h

theorem slot_of_adsp {a : AdspState} (h : s.adsp id = some a) :
    ∃ slot, s.slot id = some slot ∧ slot.hosted = .adsp a := by
  unfold NetInner.adsp at h
  split at h
  · rename_i hs
    obtain rfl := Option.some.inj h
    exact ⟨_, hs, rfl⟩
  · cases h

theorem slot_of_port {p : PrinterPort} (h : s.port id = some p) :
    ∃ slot, s.slot id = some slot ∧ slot.hosted = .port p := by
  unfold NetInner.port at h
  split at h
  · rename_i hs
    obtain rfl := Option.some.inj h
    exact ⟨_, hs, rfl⟩
  · cases h

end

/-- What a handle finds, where the slot is known. -/
theorem Valid.finds_here (hv : w.Valid) (hmem : h ∈ w.handles)
    (hs : w.inner.slot h.slot = some slot) : w.Finds h slot := by
  obtain ⟨slot', hfinds⟩ := hv.finds h hmem
  obtain rfl := Option.some.inj (hs.symm.trans hfinds.here)
  exact hfinds

theorem Valid.not_finished (hv : w.Valid) (hmem : h ∈ w.handles)
    (hs : w.inner.slot h.slot = some slot) : slot.hosted.finished = false := by
  obtain ⟨slot', hfinds⟩ := hv.finds h hmem
  obtain rfl := Option.some.inj (hs.symm.trans hfinds.here)
  rcases hhosted : slot.hosted with s | s | s | p
  · rfl
  · rfl
  · obtain ⟨part, -, hheld⟩ := keeps_of_adsp hhosted hfinds.keeps
    rw [Hosted.finished, Bool.eq_false_iff]
    exact fun hfinished => AdspState.not_held_of_finished hfinished part hheld
  · rfl

end

end World

end TailTalk
