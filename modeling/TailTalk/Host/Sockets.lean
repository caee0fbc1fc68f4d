/-
  The socket registry of the DDP task.

  The task keeps a sender for each number, and the owner of a socket has the
  receiver.  Dropping it closes the channel, and the task takes the number back
  whenever it next comes across the closed sender, whatever becomes of the
  command that says so.
-/
import TailTalk.Host.Outbound

namespace TailTalk

open Lib

/-- The numbers given out to those who ask for none in particular. -/
def DYNAMIC_SOCKETS : UInt8 × UInt8 := (64, 254)

/-- A number drawn from that range. -/
abbrev DynamicSocket := {n : UInt8 // DYNAMIC_SOCKETS.1 ≤ n ∧ n ≤ DYNAMIC_SOCKETS.2}

namespace DdpProcessor

/-- The owner's end of a socket; `receiver` is the channel it reads. -/
structure DdpSocket where
  protocol : DdpProtocolType
  sockNum : UInt8
  receiver : ℕ
deriving DecidableEq

/-- The number asked for is in use. -/
inductive SocketError where
  | addrInUse

/-- The registry, the channels, and the sockets that have not been dropped. -/
structure Registry where
  sockets : UInt8 → Option ℕ
  channels : ℕ → Channel Packet 100
  /-- the channels made so far -/
  made : ℕ
  live : List DdpSocket

namespace Registry

/-- No socket. -/
def new : Registry := ⟨fun _ => none, fun _ => .empty, 0, []⟩

/-- `tx.is_closed()`. -/
def isClosed (r : Registry) (tx : ℕ) : Bool := (r.channels tx).closed

/-- A `Deregister` has come. -/
def deregister (r : Registry) (sockNum : UInt8) : Registry :=
  if (r.sockets sockNum).any r.isClosed then
    { r with sockets := Function.update r.sockets sockNum none }
  else r

/-- `sockets.retain(|_, tx| !tx.is_closed())`. -/
def reap (r : Registry) : Registry :=
  { r with sockets := fun n => (r.sockets n).filter fun tx => !r.isClosed tx }

/-- The number of a new socket: the one asked for, or the first of 191 draws that is free. -/
def chooseSock (sockets : UInt8 → Option ℕ) (sockNum : Option UInt8)
    (draws : ℕ → DynamicSocket) : Option UInt8 :=
  match sockNum with
  | some n => if (sockets n).isSome then none else some n
  | none => ((List.range 191).map fun i => (draws i).1).find? fun n => (sockets n).isNone

/-- A socket with a number, or with one that is drawn. -/
def newSock (r : Registry) (protocol : DdpProtocolType) (sockNum : Option UInt8)
    (draws : ℕ → DynamicSocket) : Except SocketError DdpSocket × Registry :=
  let r := r.reap
  match chooseSock r.sockets sockNum draws with
  | none => (.error .addrInUse, r)
  | some n =>
    let sock : DdpSocket := ⟨protocol, n, r.made⟩
    (.ok sock, {
      sockets := Function.update r.sockets n (some r.made)
      channels := Function.update r.channels r.made .empty
      made := r.made + 1
      live := r.live ++ [sock] })

/-- Hand a packet to the socket it is for. -/
def deliver (r : Registry) (sockNum : UInt8) (packet : Packet) : Registry :=
  match r.sockets sockNum with
  | none => r
  | some tx =>
    match (r.channels tx).trySend packet with
    | .ok c => { r with channels := Function.update r.channels tx c }
    | .error .closed => { r with sockets := Function.update r.sockets sockNum none }
    | .error .full => r

/-- The owner reads a packet. -/
def recv (r : Registry) (sock : DdpSocket) : Registry :=
  if sock ∈ r.live then
    match (r.channels sock.receiver).recv with
    | some (_, c) => { r with channels := Function.update r.channels sock.receiver c }
    | none => r
  else r

/-- The owner lets go of a socket. The `Deregister` may come at any time, more than once or not at
    all. -/
def drop (r : Registry) (sock : DdpSocket) : Registry :=
  if sock ∈ r.live then
    { r with
      channels := Function.update r.channels sock.receiver
        { r.channels sock.receiver with closed := true }
      live := r.live.filter (· ≠ sock) }
  else r

/-- What can happen, in any order. -/
inductive Action where
  | newSock (protocol : DdpProtocolType) (sockNum : Option UInt8) (draws : ℕ → DynamicSocket)
  | drop (sock : DdpSocket)
  | deregister (sockNum : UInt8)
  | deliver (sockNum : UInt8) (packet : Packet)
  | recv (sock : DdpSocket)

/-- One action of a socket's owner or of the task. -/
def step (r : Registry) : Action → Registry
  | .newSock protocol sockNum draws => (r.newSock protocol sockNum draws).2
  | .drop sock => r.drop sock
  | .deregister sockNum => r.deregister sockNum
  | .deliver sockNum packet => r.deliver sockNum packet
  | .recv sock => r.recv sock

/-! ## The invariant -/

/-- What holds of the registry and the live sockets at any time. -/
structure Registered (r : Registry) : Prop where
  /-- a live socket has its number -/
  own : ∀ s ∈ r.live, r.sockets s.sockNum = some s.receiver
  isOpen : ∀ s ∈ r.live, (r.channels s.receiver).closed = false
  /-- an open sender belongs to a live socket -/
  owner : ∀ n tx, r.sockets n = some tx → (r.channels tx).closed = false →
    ∃ s ∈ r.live, s.sockNum = n ∧ s.receiver = tx
  made : ∀ s ∈ r.live, s.receiver < r.made
  known : ∀ n tx, r.sockets n = some tx → tx < r.made
  distinct : ∀ n m tx, r.sockets n = some tx → r.sockets m = some tx → n = m
  numbers : (r.live.map DdpSocket.sockNum).Nodup
  receivers : (r.live.map DdpSocket.receiver).Nodup

theorem Registered.new : Registered .new where
  own _ hs := absurd hs List.not_mem_nil
  isOpen _ hs := absurd hs List.not_mem_nil
  owner _ _ h := by cases h
  made _ hs := absurd hs List.not_mem_nil
  known _ _ h := by cases h
  distinct _ _ _ h := by cases h
  numbers := List.nodup_nil
  receivers := List.nodup_nil

section
variable {r : Registry} (h : Registered r)
include h

theorem Registered.not_owned {n : UInt8}
    (hn : ∀ tx, r.sockets n = some tx → (r.channels tx).closed = true) :
    ∀ s ∈ r.live, s.sockNum ≠ n := by
  rintro s hs rfl
  have hclosed := hn _ (h.own s hs)
  rw [h.isOpen s hs] at hclosed
  cases hclosed

/-- A number with a closed sender is taken back. -/
theorem Registered.release {n : UInt8} {tx : ℕ} (htx : r.sockets n = some tx)
    (hclosed : (r.channels tx).closed = true) :
    Registered { r with sockets := Function.update r.sockets n none } := by
  have hfree : ∀ s ∈ r.live, s.sockNum ≠ n := h.not_owned (by
    intro tx' htx'
    rw [htx, Option.some.injEq] at htx'
    rw [← htx']
    exact hclosed)
  have hkept : ∀ m tx, Function.update r.sockets n none m = some tx → r.sockets m = some tx := by
    intro m tx hm
    rw [Function.update_apply] at hm
    split at hm
    · cases hm
    · exact hm
  exact { h with
    own := by
      intro s hs
      change Function.update r.sockets n none s.sockNum = _
      rw [Function.update_of_ne (hfree s hs)]
      exact h.own s hs
    owner := fun m tx hm hopen => h.owner m tx (hkept m tx hm) hopen
    known := fun m tx hm => h.known m tx (hkept m tx hm)
    distinct := fun m m' tx hm hm' => h.distinct m m' tx (hkept m tx hm) (hkept m' tx hm') }

theorem Registered.setChannel (tx : ℕ) {c : Channel Packet 100}
    (hc : c.closed = (r.channels tx).closed) :
    Registered { r with channels := Function.update r.channels tx c } := by
  have hclosed : ∀ tx', (Function.update r.channels tx c tx').closed = (r.channels tx').closed := by
    intro tx'
    rw [Function.update_apply]
    split
    · rename_i heq
      rw [heq, hc]
    · rfl
  exact { h with
    isOpen := fun s hs => (hclosed _).trans (h.isOpen s hs)
    owner := fun n tx' hn hopen => h.owner n tx' hn ((hclosed tx').symm.trans hopen) }

theorem Registered.deregister (n : UInt8) : Registered (r.deregister n) := by
  unfold Registry.deregister
  split
  · rename_i hany
    rcases htx : r.sockets n with _ | tx
    · rw [htx] at hany
      cases hany
    · rw [htx] at hany
      exact h.release htx hany
  · exact h

theorem Registered.deliver (n : UInt8) (packet : Packet) : Registered (r.deliver n packet) := by
  unfold Registry.deliver
  split
  · exact h
  · rename_i tx htx
    split
    · rename_i c hc
      have hsent := Channel.trySend_ok hc
      exact h.setChannel tx (hsent.2.trans hsent.1.symm)
    · rename_i hc
      exact h.release htx (Channel.trySend_closed hc)
    · exact h

theorem Registered.recv (sock : DdpSocket) : Registered (r.recv sock) := by
  unfold Registry.recv
  split
  · split
    · rename_i packet c hc
      exact h.setChannel _ (Channel.recv_closed hc)
    · exact h
  · exact h

theorem Registered.drop (sock : DdpSocket) : Registered (r.drop sock) := by
  unfold Registry.drop
  split
  · rename_i hsock
    have hlive : ∀ s ∈ r.live.filter (· ≠ sock), s ∈ r.live ∧ s.receiver ≠ sock.receiver := by
      intro s hs
      obtain ⟨hs, hne⟩ := List.mem_filter.1 hs
      refine ⟨hs, fun heq => of_decide_eq_true hne ?_⟩
      exact List.inj_on_of_nodup_map h.receivers hs hsock heq
    exact {
      own := fun s hs => h.own s (hlive s hs).1
      isOpen := by
        intro s hs
        change (Function.update r.channels sock.receiver _ s.receiver).closed = false
        rw [Function.update_of_ne (hlive s hs).2]
        exact h.isOpen s (hlive s hs).1
      owner := by
        intro n tx hn hopen
        change (Function.update r.channels sock.receiver _ tx).closed = false at hopen
        rw [Function.update_apply] at hopen
        split at hopen
        · cases hopen
        · rename_i htx
          obtain ⟨s, hs, hnum, hrec⟩ := h.owner n tx hn hopen
          refine ⟨s, List.mem_filter.2 ⟨hs, decide_eq_true ?_⟩, hnum, hrec⟩
          rintro rfl
          exact htx hrec.symm
      made := fun s hs => h.made s (hlive s hs).1
      known := h.known
      distinct := h.distinct
      numbers := h.numbers.sublist (List.filter_sublist.map _)
      receivers := h.receivers.sublist (List.filter_sublist.map _) }
  · exact h

theorem Registered.reap : Registered r.reap := by
  have hkept : ∀ n tx, r.reap.sockets n = some tx → r.sockets n = some tx :=
    fun n tx hn => (Option.filter_eq_some_iff.1 hn).1
  exact { h with
    own := by
      intro s hs
      refine Option.filter_eq_some_iff.2 ⟨h.own s hs, ?_⟩
      rw [isClosed, h.isOpen s hs]
      rfl
    owner := fun n tx hn hopen => h.owner n tx (hkept n tx hn) hopen
    known := fun n tx hn => h.known n tx (hkept n tx hn)
    distinct := fun n m tx hn hm => h.distinct n m tx (hkept n tx hn) (hkept m tx hm) }

/-- After the closed senders have been taken out a number is free exactly if no live socket
    has it. -/
theorem Registered.reap_eq_none (n : UInt8) :
    r.reap.sockets n = none ↔ ∀ s ∈ r.live, s.sockNum ≠ n := by
  constructor
  · intro hnone s hs hnum
    have hown := h.reap.own s hs
    rw [hnum, hnone] at hown
    cases hown
  · intro hfree
    rw [Option.eq_none_iff_forall_ne_some]
    intro tx htx
    obtain ⟨hn, hopen⟩ := Option.filter_eq_some_iff.1 htx
    obtain ⟨s, hs, hnum, -⟩ := h.owner n tx hn (by simpa [isClosed] using hopen)
    exact hfree s hs hnum

end

theorem chooseSock_free {sockets : UInt8 → Option ℕ} {sockNum : Option UInt8}
    {draws : ℕ → DynamicSocket} {n : UInt8} (h : chooseSock sockets sockNum draws = some n) :
    sockets n = none := by
  unfold chooseSock at h
  split at h
  · split at h
    · cases h
    · rename_i hfree
      cases h
      simpa using hfree
  · simpa using List.find?_some h

theorem Registered.newSock {r : Registry} (h : Registered r) (protocol : DdpProtocolType)
    (sockNum : Option UInt8) (draws : ℕ → DynamicSocket) :
    Registered (r.newSock protocol sockNum draws).2 := by
  have hr := h.reap
  unfold Registry.newSock
  simp only
  split
  · exact hr
  · rename_i n hn
    have hfree := (h.reap_eq_none n).1 (chooseSock_free hn)
    have hold : ∀ s ∈ r.reap.live, s.sockNum ≠ n ∧ s.receiver ≠ r.reap.made :=
      fun s hs => ⟨hfree s hs, Nat.ne_of_lt (hr.made s hs)⟩
    exact {
      own := by
        intro s hs
        change Function.update r.reap.sockets n (some r.reap.made) s.sockNum = _
        rcases List.mem_append.1 hs with hs | hs
        · rw [Function.update_of_ne (hold s hs).1]
          exact hr.own s hs
        · cases List.mem_singleton.1 hs
          exact Function.update_self _ _ _
      isOpen := by
        intro s hs
        change (Function.update r.reap.channels r.reap.made _ s.receiver).closed = false
        rcases List.mem_append.1 hs with hs | hs
        · rw [Function.update_of_ne (hold s hs).2]
          exact hr.isOpen s hs
        · cases List.mem_singleton.1 hs
          rw [Function.update_self]
          rfl
      owner := by
        intro m tx hm hopen
        change Function.update r.reap.sockets n (some r.reap.made) m = some tx at hm
        change (Function.update r.reap.channels r.reap.made _ tx).closed = false at hopen
        rw [Function.update_apply] at hm
        split at hm
        · rename_i hmn
          cases hm
          exact ⟨_, List.mem_append_right _ (List.mem_singleton.2 rfl), hmn.symm, rfl⟩
        · rw [Function.update_of_ne (Nat.ne_of_lt (hr.known m tx hm))] at hopen
          obtain ⟨s, hs, hnum, hrec⟩ := hr.owner m tx hm hopen
          exact ⟨s, List.mem_append_left _ hs, hnum, hrec⟩
      made := by
        intro s hs
        rcases List.mem_append.1 hs with hs | hs
        · exact Nat.lt_succ_of_lt (hr.made s hs)
        · cases List.mem_singleton.1 hs
          exact Nat.lt_succ_self _
      known := by
        intro m tx hm
        change Function.update r.reap.sockets n (some r.reap.made) m = some tx at hm
        rw [Function.update_apply] at hm
        split at hm
        · cases hm
          exact Nat.lt_succ_self _
        · exact Nat.lt_succ_of_lt (hr.known m tx hm)
      distinct := by
        intro m m' tx hm hm'
        change Function.update r.reap.sockets n (some r.reap.made) m = some tx at hm
        change Function.update r.reap.sockets n (some r.reap.made) m' = some tx at hm'
        rw [Function.update_apply] at hm hm'
        split at hm
        · split at hm'
          · rename_i hmn hmn'
            exact hmn.trans hmn'.symm
          · cases hm
            exact absurd (hr.known m' _ hm') (Nat.lt_irrefl _)
        · split at hm'
          · cases hm'
            exact absurd (hr.known m _ hm) (Nat.lt_irrefl _)
          · exact hr.distinct m m' tx hm hm'
      numbers := by
        rw [List.map_append, List.nodup_append]
        refine ⟨hr.numbers, List.nodup_singleton _, ?_⟩
        intro a ha b hb
        obtain ⟨s, hs, rfl⟩ := List.mem_map.1 ha
        rw [List.mem_singleton.1 hb]
        exact (hold s hs).1
      receivers := by
        rw [List.map_append, List.nodup_append]
        refine ⟨hr.receivers, List.nodup_singleton _, ?_⟩
        intro a ha b hb
        obtain ⟨s, hs, rfl⟩ := List.mem_map.1 ha
        rw [List.mem_singleton.1 hb]
        exact (hold s hs).2 }

theorem Registered.step {r : Registry} (h : Registered r) (a : Action) : Registered (r.step a) := by
  cases a with
  | newSock protocol sockNum draws => exact h.newSock protocol sockNum draws
  | drop sock => exact h.drop sock
  | deregister n => exact h.deregister n
  | deliver n packet => exact h.deliver n packet
  | recv sock => exact h.recv sock

theorem Registered.run (as : List Action) : Registered (run Registry.step .new as) :=
  inv_run Registry.step (fun _ a h _ => h.step a) Registered.new (along_true Registry.step as)

/-! ## Sockets over time -/

theorem mem_live_step {r : Registry} {s : DdpSocket} (hs : s ∈ r.live) {a : Action}
    (ha : a ≠ .drop s) : s ∈ (r.step a).live := by
  cases a with
  | newSock protocol sockNum draws =>
    simp only [step, newSock]
    split
    · exact hs
    · exact List.mem_append_left _ hs
  | drop sock =>
    simp only [step, drop]
    split
    · refine List.mem_filter.2 ⟨hs, decide_eq_true ?_⟩
      rintro rfl
      exact ha rfl
    · exact hs
  | deregister n =>
    simp only [step, deregister]
    split
    · exact hs
    · exact hs
  | deliver n packet =>
    simp only [step, deliver]
    split
    · exact hs
    · split
      · exact hs
      · exact hs
      · exact hs
  | recv sock =>
    simp only [step, recv]
    split
    · split
      · exact hs
      · exact hs
    · exact hs

theorem Registered.channels_deliver {r : Registry} (h : Registered r) (n : UInt8)
    (packet : Packet) :
    (∀ s ∈ r.live, s.sockNum = n → (r.deliver n packet).channels =
      Function.update r.channels s.receiver ((r.channels s.receiver).offer packet)) ∧
    ((∀ s ∈ r.live, s.sockNum ≠ n) → (r.deliver n packet).channels = r.channels) := by
  constructor
  · rintro s hs rfl
    rw [Registry.deliver, h.own s hs]
    simp only [Channel.offer]
    split
    · rename_i c hc
      rw [hc]
    · rename_i hc
      rw [hc, Function.update_eq_self]
    · rename_i hc
      rw [hc, Function.update_eq_self]
  · intro hfree
    unfold Registry.deliver
    split
    · rfl
    · rename_i tx htx
      split
      · rename_i c hc
        obtain ⟨s, hs, hnum, -⟩ := h.owner n tx htx (Channel.trySend_ok hc).1
        exact absurd hnum (hfree s hs)
      · rfl
      · rfl

theorem Registered.newSock_some {r : Registry} (h : Registered r) (protocol : DdpProtocolType)
    (n : UInt8) (draws : ℕ → DynamicSocket) :
    (r.newSock protocol (some n) draws).1 =
      if ∀ s ∈ r.live, s.sockNum ≠ n then .ok ⟨protocol, n, r.made⟩ else .error .addrInUse := by
  have hfree := h.reap_eq_none n
  split
  · rename_i hn
    have hchoose : chooseSock r.reap.sockets (some n) draws = some n := by
      rw [chooseSock, hfree.2 hn]
      rfl
    rw [Registry.newSock, hchoose]
    rfl
  · rename_i hn
    have hchoose : chooseSock r.reap.sockets (some n) draws = none := by
      rw [chooseSock, if_pos (Option.isSome_iff_ne_none.2 fun hnone => hn (hfree.1 hnone))]
    rw [Registry.newSock, hchoose]

/-- **The registry is sound** after any sequence of openings, drops, deliveries, reads and late,
    repeated or missing `Deregister`s: every live socket has its number, and keeps it until it is
    dropped; no two have the same; a packet goes to the live owner of its number only; and a number
    that is not a live socket's is had for the asking. -/
theorem registry_sound (as : List Action) :
    let r := run step .new as
    (∀ s ∈ r.live, r.sockets s.sockNum = some s.receiver ∧ r.isClosed s.receiver = false) ∧
    (∀ s ∈ r.live, ∀ a, a ≠ .drop s → s ∈ (r.step a).live) ∧
    (∀ s ∈ r.live, ∀ t ∈ r.live, s.sockNum = t.sockNum → s = t) ∧
    (∀ n packet tx, (r.deliver n packet).channels tx ≠ r.channels tx →
      ∃ s ∈ r.live, s.sockNum = n ∧ s.receiver = tx) ∧
    (∀ protocol n draws, (r.newSock protocol (some n) draws).1 =
      if ∀ s ∈ r.live, s.sockNum ≠ n then .ok ⟨protocol, n, r.made⟩ else .error .addrInUse) ∧
    ∀ s ∈ r.live, ∀ t ∈ (r.drop s).live, t.sockNum ≠ s.sockNum := by
  intro r
  have h : Registered r := .run as
  refine ⟨fun s hs => ⟨h.own s hs, h.isOpen s hs⟩, fun s hs a => mem_live_step hs,
    fun s hs t ht => List.inj_on_of_nodup_map h.numbers hs ht, ?_, h.newSock_some, ?_⟩
  · intro n packet tx hne
    obtain ⟨howner, hnone⟩ := h.channels_deliver n packet
    by_cases hfree : ∀ s ∈ r.live, s.sockNum ≠ n
    · exact absurd (congrFun (hnone hfree) tx) hne
    · simp only [not_forall, not_not] at hfree
      obtain ⟨s, hs, hnum⟩ := hfree
      refine ⟨s, hs, hnum, ?_⟩
      by_contra hother
      refine hne ?_
      rw [howner s hs hnum, Function.update_of_ne (Ne.symm hother)]
  · intro s hs t ht hnum
    rw [Registry.drop, if_pos hs] at ht
    obtain ⟨ht, hne⟩ := List.mem_filter.1 ht
    exact of_decide_eq_true hne (List.inj_on_of_nodup_map h.numbers ht hs hnum)

end Registry

end DdpProcessor

end TailTalk
