/-
  Every request is resolved.

  `Balanced` says that each handle was given out as often as it was resolved,
  and once more while it is pending.  One path loses a request: a response may
  be complete by the number of its packets while their numbers leave a gap.
  `timely` is about the timers.
-/
import TailTalk.Atp.Host

namespace TailTalk

open Lib

theorem countOnes_le (b : UInt8) : countOnes b ≤ 8 := by
  have := List.countP_le_length (p := fun i => b.toNat.testBit i) (l := List.range 8)
  simpa [countOnes] using this

/-! ## Completing a request -/

namespace PendingRequest

/-- As many packets as were asked for, without EOM, and their numbers leave a
    gap. -/
def Holed (p : PendingRequest) : Prop :=
  p.eomSeq = none ∧ p.received.isEmpty = false ∧ p.received.size = countOnes p.requestedBitmap ∧
    ∃ i < p.received.size, p.received[UInt8.ofNat i]? = none

theorem assemble_eq_none_iff {p : PendingRequest} :
    p.assemble = none ↔ ∃ i < p.expected, p.received[UInt8.ofNat i]? = none := by
  have hmapM : ∀ l : List ℕ, (l.mapM fun i => p.received[UInt8.ofNat i]?) = none ↔
      ∃ i ∈ l, p.received[UInt8.ofNat i]? = none := by
    intro l
    induction l with
    | nil => simp
    | cons i l ih =>
      simp only [List.mapM_cons, List.mem_cons, exists_eq_or_imp, ← ih]
      rcases p.received[UInt8.ofNat i]? with _ | d
      · simp
      · rcases l.mapM (fun i => p.received[UInt8.ofNat i]?) with _ | ds <;> simp
  rw [assemble, Option.map_eq_none_iff, hmapM]
  simp

theorem complete_and_assemble_eq_none_iff {p : PendingRequest} :
    p.complete = true ∧ p.assemble = none ↔ p.Holed := by
  rw [assemble_eq_none_iff]
  rcases heom : p.eomSeq with _ | eom
  · have hcomplete : p.complete = true ↔
        p.received.isEmpty = false ∧ p.received.size = countOnes p.requestedBitmap := by
      simp [complete, heom]
    have hexpected : p.received.size = countOnes p.requestedBitmap →
        p.expected = p.received.size := by
      intro hsize
      have := countOnes_le p.requestedBitmap
      simp only [expected, heom]
      exact Nat.mod_eq_of_lt (by omega)
    rw [hcomplete]
    constructor
    · rintro ⟨⟨hne, hsize⟩, hgap⟩
      rw [hexpected hsize] at hgap
      exact ⟨heom, hne, hsize, hgap⟩
    · rintro ⟨-, hne, hsize, hgap⟩
      rw [← hexpected hsize] at hgap
      exact ⟨⟨hne, hsize⟩, hgap⟩
  · refine iff_of_false ?_ fun h => by simp [Holed, heom] at h
    rintro ⟨hcomplete, i, hi, hnone⟩
    -- Completion checked every packet up to the EOM.
    simp only [complete, heom, List.all_eq_true, List.mem_range] at hcomplete
    simp only [expected, heom] at hi
    have hmod := Nat.mod_le (eom.toNat + 1) 256
    have := hcomplete i (by omega)
    rw [Std.TreeMap.contains_eq_isSome_getElem?, hnone] at this
    cases this

theorem Holed.complete {p : PendingRequest} (h : p.Holed) : p.complete = true :=
  (complete_and_assemble_eq_none_iff.2 h).1

end PendingRequest

/-! ## The balance -/

/-- The event ends that request. -/
def AtpEvent.resolves (tid : UInt16) : AtpEvent → Bool
  | .response handle .. => handle = tid
  | .requestFailed handle => handle = tid
  | .request .. => false

namespace AtpHost

/-- How often the handle was resolved. -/
def resolutions (h : AtpHost) (tid : UInt16) : ℕ := h.emitted.countP (AtpEvent.resolves tid)

/-- Every handle was resolved as often as it was given out, but for the request
    pending under it. -/
def Balanced (h : AtpHost) : Prop :=
  ∀ tid, h.handles.count tid =
    h.resolutions tid + if h.ep.pending.contains tid then 1 else 0

/-- No response completes a request by the number of its packets and leaves a
    hole. -/
def NoHole (h : AtpHost) : AtpInput → Prop
  | .recv _ payload _ => ∀ packet ∈ (AtpPacket.parse payload).toOption,
      packet.function = .response → ∀ p ∈ h.ep.pending[packet.tid]?,
        ¬ (p.receive packet (payload.drop AtpPacket.HEADER_LEN)).Holed
  | _ => True

variable {h : AtpHost}

theorem resolutions_append (h' : AtpHost) {events : List AtpEvent}
    (he : h'.emitted = h.emitted ++ events) (tid : UInt16) :
    h'.resolutions tid = h.resolutions tid + events.countP (AtpEvent.resolves tid) := by
  rw [resolutions, resolutions, he, List.countP_append]

/-- A step that resolves nothing, and neither makes nor drops a request. -/
theorem balanced_iff_of_same {h' : AtpHost} (events : List AtpEvent)
    (hhandles : h'.handles = h.handles)
    (hpending : ∀ tid : UInt16, h'.ep.pending.contains tid = h.ep.pending.contains tid)
    (he : h'.emitted = h.emitted ++ events) (hnone : ∀ e ∈ events, ∀ tid, e.resolves tid = false) :
    h'.Balanced ↔ h.Balanced := by
  have hsame : ∀ tid, h'.resolutions tid = h.resolutions tid := by
    intro tid
    rw [resolutions_append h' he, List.countP_eq_zero.2 fun e hmem => by simp [hnone e hmem tid],
      Nat.add_zero]
  simp only [Balanced, hhandles, hpending, hsame]

end AtpHost

namespace AtpEndpoint

theorem findTid_free {pending : Std.TreeMap UInt16 PendingRequest} :
    ∀ {fuel : ℕ} {tid found next : UInt16}, findTid pending fuel tid = some (found, next) →
      pending.contains found = false
  | 0, _, _, _, h => by cases h
  | fuel + 1, tid, found, next, h => by
    rw [findTid] at h
    split_ifs at h with hfree
    · obtain ⟨rfl, -⟩ := Prod.mk.inj (Option.some.inj h)
      exact Bool.eq_false_iff.2 hfree.2
    · exact findTid_free h

theorem request_free {ep ep' : AtpEndpoint} {dest : ServiceAddress} {userBytes : UserBytes}
    {data : Bytes} {bitmap : UInt8} {now : Micros} {tid : UInt16}
    (h : ep.request dest userBytes data bitmap now = some (tid, ep')) :
    ep.pending.contains tid = false := by
  simp only [request, allocateTid, Option.map_map, Option.map_eq_some_iff] at h
  obtain ⟨⟨t, nextTid⟩, hfound, heq⟩ := h
  obtain ⟨rfl, -⟩ := Prod.mk.inj heq
  exact findTid_free hfound

/-- The failures that a poll reports. -/
theorem countP_failed (ep : AtpEndpoint) (now : Micros) (tid : UInt16) :
    ((((ep.due now).filter fun p => p.2.retries + 1 > MAX_RETRIES).map
        fun p => AtpEvent.requestFailed p.1).countP (AtpEvent.resolves tid)) =
      if ep.pending[tid]?.any (fun p => (p.tick now).isNone) then 1 else 0 := by
  rw [← countP_toList, List.countP_map, due, List.filter_filter, List.countP_filter]
  refine List.countP_congr fun p _ => ?_
  simp only [Function.comp_apply, AtpEvent.resolves, PendingRequest.tick, Bool.and_eq_true,
    decide_eq_true_eq]
  by_cases hlt : now < p.2.retryAt
  · simp [hlt]
  · by_cases hretries : p.2.retries + 1 > MAX_RETRIES <;> simp [hlt, hretries]

theorem contains_poll (ep : AtpEndpoint) (now : Micros) (tid : UInt16) :
    (ep.poll now).pending.contains tid =
      ep.pending[tid]?.any fun p => (p.tick now).isSome := by
  rw [Std.TreeMap.contains_eq_isSome_getElem?]
  simp only [poll, Std.TreeMap.getElem?_filterMap']
  cases ep.pending[tid]? <;> rfl

end AtpEndpoint

namespace AtpHost
variable {h : AtpHost}

theorem balanced_request_iff (src : ServiceAddress) (packet : AtpPacket) (data : Bytes) :
    ({ h with ep := h.ep.handleRequest src packet data } : AtpHost).Balanced ↔ h.Balanced := by
  have hask := asked_handleRequest h src packet data
  generalize h.ep.handleRequest src packet data = ep at hask ⊢
  cases hask with
  | replayed c hc =>
    exact balanced_iff_of_same (h := h) [] rfl (fun _ => rfl) (List.append_nil _).symm nofun
  | inProgress hxo hc hp =>
    exact balanced_iff_of_same (h := h) [] rfl (fun _ => rfl) (List.append_nil _).symm nofun
  | delivered hxo hc hp | atLeastOnce hxo hc =>
    refine balanced_iff_of_same (h := h) [AtpEndpoint.requestEvent src packet data] rfl
      (fun _ => rfl) (List.append_assoc _ _ _).symm ?_
    intro e he tid
    rw [List.mem_singleton.1 he]
    rfl

theorem balanced_response_iff (hb : h.Balanced) (src : ServiceAddress) (packet : AtpPacket)
    (data : Bytes) :
    ({ h with ep := h.ep.handleResponse src packet data } : AtpHost).Balanced ↔
      ∀ p, h.ep.pending[packet.tid]? = some p → ¬ (p.receive packet data).Holed := by
  unfold AtpEndpoint.handleResponse
  rcases hp : h.ep.pending[packet.tid]? with _ | p
  · exact iff_of_true hb nofun
  have hpending : h.ep.pending.contains packet.tid = true :=
    (contains_iff_getElem? _ _).2 ⟨p, hp⟩
  simp only [Option.some.injEq, forall_eq']
  generalize p.receive packet data = q
  by_cases hcomplete : q.complete = true
  · rw [if_pos hcomplete]
    have herase : ∀ tid, (h.ep.pending.erase packet.tid).contains tid =
        (h.ep.pending.contains tid && decide (tid ≠ packet.tid)) := by
      intro tid
      rw [Std.TreeMap.contains_eq_isSome_getElem?, Std.TreeMap.contains_eq_isSome_getElem?,
        getElem?_erase_eq]
      split_ifs with htid <;> simp [htid]
    rcases hassemble : q.assemble with _ | full
    · -- The request is dropped, and nothing is reported.
      refine iff_of_false ?_ (not_not_intro
        (PendingRequest.complete_and_assemble_eq_none_iff.1 ⟨hcomplete, hassemble⟩))
      intro hbad
      have hold := hb packet.tid
      have hnew := hbad packet.tid
      have hsame : ∀ pending, ({ h with ep := { h.ep with pending } } : AtpHost).resolutions
          packet.tid = h.resolutions packet.tid := fun _ => rfl
      simp only [hsame, herase, hpending, if_true] at hold hnew
      simp at hnew
      omega
    · refine iff_of_true ?_ fun hholed => ?_
      · intro tid
        have hold := hb tid
        have hnew := resolutions_append (h := h)
          { h with
            ep := (({ h.ep with pending := h.ep.pending.erase packet.tid } : AtpEndpoint).push src
              [AtpEndpoint.releaseBytes packet.tid]).emit
                (.response packet.tid (q.userBytes.getD (.replicate 4 0)) full) }
          (List.append_assoc _ _ _).symm tid
        rw [hnew, List.countP_singleton]
        simp only [AtpEndpoint.emit, AtpEndpoint.push, herase, AtpEvent.resolves]
        by_cases htid : tid = packet.tid
        · subst htid
          simp only [hpending, if_true] at hold
          simp [hold]
        · simp [htid, Ne.symm htid, hold]
      · have := (PendingRequest.complete_and_assemble_eq_none_iff.2 hholed).2
        rw [hassemble] at this
        cases this
  · rw [if_neg hcomplete]
    refine iff_of_true ?_ fun hholed => hcomplete hholed.complete
    refine Iff.mpr ?_ hb
    refine balanced_iff_of_same [] rfl ?_ (List.append_nil _).symm nofun
    intro tid
    rw [Std.TreeMap.contains_eq_isSome_getElem?, Std.TreeMap.contains_eq_isSome_getElem?,
      getElem?_insert_eq]
    split_ifs with htid
    · rw [htid, hp]; rfl
    · rfl

theorem balanced_poll (hb : h.Balanced) (now : Micros) : (h.call (.poll now)).Balanced := by
  intro tid
  have hold := hb tid
  have hemitted : (h.call (.poll now)).emitted = h.emitted ++
      ((h.ep.due now).filter fun p => p.2.retries + 1 > MAX_RETRIES).map
        fun p => .requestFailed p.1 :=
    (List.append_assoc _ _ _).symm
  have hnew := resolutions_append _ hemitted tid
  rw [hnew, AtpEndpoint.countP_failed]
  simp only [call, AtpEndpoint.contains_poll]
  rw [Std.TreeMap.contains_eq_isSome_getElem?] at hold
  rcases hp : h.ep.pending[tid]? with _ | p
  · rw [hp] at hold
    simpa using hold
  · rw [hp] at hold
    rcases hp : p.tick now with _ | p' <;> simpa [hp] using hold

theorem balanced_ask (hb : h.Balanced) (dest : ServiceAddress) (userBytes : UserBytes)
    (data : Bytes) (bitmap : UInt8) (now : Micros) :
    (h.call (.request dest userBytes data bitmap now)).Balanced := by
  rcases hr : h.ep.request dest userBytes data bitmap now with _ | ⟨tid, ep⟩
  · simp only [call, hr]
    exact hb
  simp only [call, hr]
  have hfree := AtpEndpoint.request_free hr
  obtain ⟨nextTid, rfl⟩ := AtpEndpoint.request_eq hr
  intro t
  have hold := hb t
  have hsame : resolutions { h with
      ep := { ({ h.ep with nextTid } : AtpEndpoint).push dest
          [AtpEndpoint.requestBytes true bitmap tid userBytes data] with
        pending := h.ep.pending.insert tid (AtpEndpoint.newRequest dest
          (AtpEndpoint.requestBytes true bitmap tid userBytes data) bitmap now) }
      handles := h.handles ++ [tid] } t = h.resolutions t := rfl
  rw [hsame]
  simp only [List.count_append, Std.TreeMap.contains_eq_isSome_getElem?, getElem?_insert_eq]
  rw [Std.TreeMap.contains_eq_isSome_getElem?] at hold hfree
  by_cases ht : t = tid
  · subst ht
    rw [hfree] at hold
    simp [hold]
  · simp only [ht, if_false, hold, List.count_singleton]
    simp [Ne.symm ht]

/-- **A step keeps the balance exactly if it leaves no hole.** -/
theorem balanced_step_iff (x : AtpInput) (hb : h.Balanced) : (h.step x).Balanced ↔ h.NoHole x := by
  cases x with
  | call c =>
    refine iff_of_true ?_ trivial
    change (h.call c).Balanced
    cases c with
    | request dest userBytes data bitmap now => exact balanced_ask hb dest userBytes data bitmap now
    | sendAlo dest userBytes =>
      rcases hr : h.ep.sendAlo dest userBytes with _ | ep
      · simp only [call, hr]
        exact hb
      · simp only [call, hr]
        obtain ⟨tid, nextTid, rfl⟩ := AtpEndpoint.sendAlo_eq hr
        exact (balanced_iff_of_same (h := h) [] rfl (fun _ => rfl) (List.append_nil _).symm
          fun _ he => by cases he).2 hb
    | respond _ _ _ _ _ _ | respondPackets _ _ _ _ =>
      exact (balanced_iff_of_same (h := h) [] rfl (fun _ => rfl) (List.append_nil _).symm
        fun _ he => by cases he).2 hb
    | poll now => exact balanced_poll hb now
    | pollEvent =>
      refine Iff.mpr ?_ hb
      refine balanced_iff_of_same [] rfl (fun _ => rfl) ?_ fun _ he => by cases he
      rw [List.append_nil]
      exact emitted_pollEvent h
  | recv src payload now =>
    change (h.recv src payload now).Balanced ↔ _
    rcases hparse : AtpPacket.parse payload with err | packet
    · have hsame : h.recv src payload now = h := by
        simp only [recv, AtpEndpoint.handleDatagram, hparse]
      rw [hsame]
      exact iff_of_true hb (by simp [NoHole, hparse, Except.toOption])
    have hnoHole : h.NoHole (.recv src payload now) ↔ (packet.function = .response →
        ∀ p, h.ep.pending[packet.tid]? = some p →
          ¬ (p.receive packet (payload.drop AtpPacket.HEADER_LEN)).Holed) := by
      simp [NoHole, hparse, Except.toOption]
    rw [hnoHole]
    simp only [recv, AtpEndpoint.handleDatagram, hparse]
    cases hf : packet.function with
    | request =>
      exact iff_of_true ((balanced_request_iff src packet _).2 hb) fun h => by cases h
    | response =>
      simp only [forall_const]
      exact balanced_response_iff hb src packet _
    | release =>
      refine iff_of_true ?_ fun h => by cases h
      exact (balanced_iff_of_same (h := h) [] rfl (fun _ => rfl) (List.append_nil _).symm
        fun _ he => by cases he).2 hb
  | transmit =>
    refine iff_of_true ?_ trivial
    exact (balanced_iff_of_same (h := h) [] rfl (fun _ => rfl) (List.append_nil _).symm
      fun _ he => by cases he).2 hb

theorem balanced_new (localSocket : UInt8) : (AtpHost.new localSocket).Balanced := by
  intro tid
  simp [new, AtpEndpoint.new, resolutions, emitted]

/-! ## The timers -/

/-- How often polls find a timer run out, due at `due` and an interval after each such poll. -/
def expiries : Micros → List AtpInput → ℕ
  | _, [] => 0
  | due, .call (.poll now) :: xs =>
    if now < due then expiries due xs else expiries (now + RETRY_INTERVAL) xs + 1
  | due, _ :: xs => expiries due xs

/-- The timer of a request after an input: only a poll that finds it run out
    sets it again. -/
def rearm (p : PendingRequest) : AtpInput → ℕ × Micros
  | .call (.poll now) =>
    if now < p.retryAt then (p.retries, p.retryAt) else (p.retries + 1, now + RETRY_INTERVAL)
  | _ => (p.retries, p.retryAt)

/-- A request is gone, or pending with this timer. -/
def Rearmed (ep : AtpEndpoint) (tid : UInt16) (timer : ℕ × Micros) : Prop :=
  ep.pending[tid]? = none ∨ ∃ p, ep.pending[tid]? = some p ∧
    (p.retries, p.retryAt) = timer ∧ p.retries ≤ MAX_RETRIES

section
variable {tid : UInt16} {p : PendingRequest}

theorem rearmed_same {ep : AtpEndpoint} (hp : ep.pending[tid]? = some p)
    (hretries : p.retries ≤ MAX_RETRIES) : Rearmed ep tid (p.retries, p.retryAt) :=
  Or.inr ⟨p, hp, rfl, hretries⟩

theorem rearmed_call (hp : h.ep.pending[tid]? = some p) (hretries : p.retries ≤ MAX_RETRIES)
    (c : AtpCall) : Rearmed (h.call c).ep tid (rearm p (.call c)) := by
  cases c with
  | request dest userBytes data bitmap now =>
    refine rearmed_same ?_ hretries
    rcases hr : h.ep.request dest userBytes data bitmap now with _ | ⟨t, ep⟩
    · simp only [call, hr]
      exact hp
    · simp only [call, hr]
      have hfree := AtpEndpoint.request_free hr
      obtain ⟨nextTid, rfl⟩ := AtpEndpoint.request_eq hr
      have hne : tid ≠ t := by
        rintro rfl
        rw [(contains_iff_getElem? _ _).2 ⟨p, hp⟩] at hfree
        cases hfree
      simp only [getElem?_insert_eq, if_neg hne]
      exact hp
  | sendAlo dest userBytes =>
    refine rearmed_same ?_ hretries
    rcases hr : h.ep.sendAlo dest userBytes with _ | ep
    · simp only [call, hr]
      exact hp
    · simp only [call, hr]
      obtain ⟨t, nextTid, rfl⟩ := AtpEndpoint.sendAlo_eq hr
      exact hp
  | respond _ _ _ _ _ _ | respondPackets _ _ _ _ | pollEvent => exact rearmed_same hp hretries
  | poll now =>
    simp only [Rearmed, call, AtpEndpoint.poll, Std.TreeMap.getElem?_filterMap', hp,
      Option.bind_some]
    rcases ht : p.tick now with _ | p'
    · exact Or.inl rfl
    · refine Or.inr ⟨p', rfl, ?_⟩
      unfold PendingRequest.tick at ht
      split_ifs at ht with hlt hmax
      · obtain rfl := Option.some.inj ht
        exact ⟨by simp [rearm, hlt], hretries⟩
      · obtain rfl := Option.some.inj ht
        exact ⟨by simp [rearm, hlt], Nat.le_of_not_lt hmax⟩

theorem rearmed_response (hp : h.ep.pending[tid]? = some p) (hretries : p.retries ≤ MAX_RETRIES)
    (src : ServiceAddress) (packet : AtpPacket) (data : Bytes) :
    Rearmed (h.ep.handleResponse src packet data) tid (p.retries, p.retryAt) := by
  unfold AtpEndpoint.handleResponse
  rcases hq : h.ep.pending[packet.tid]? with _ | q
  · exact rearmed_same hp hretries
  by_cases htid : tid = packet.tid
  · subst htid
    obtain rfl : p = q := Option.some.inj (hp.symm.trans hq)
    dsimp only
    split
    · left
      split <;> simp [AtpEndpoint.emit, AtpEndpoint.push]
    · exact Or.inr ⟨p.receive packet data, by simp, rfl, hretries⟩
  · refine rearmed_same ?_ hretries
    dsimp only
    split
    · split <;> simp [AtpEndpoint.emit, AtpEndpoint.push, getElem?_erase_eq, htid, hp]
    · simp [getElem?_insert_eq, htid, hp]

theorem pending_step (hp : h.ep.pending[tid]? = some p) (hretries : p.retries ≤ MAX_RETRIES)
    (x : AtpInput) : Rearmed (h.step x).ep tid (rearm p x) := by
  cases x with
  | call c => exact rearmed_call hp hretries c
  | recv src payload now =>
    change Rearmed (h.recv src payload now).ep tid (p.retries, p.retryAt)
    simp only [recv, AtpEndpoint.handleDatagram]
    rcases hparse : AtpPacket.parse payload with err | packet
    · exact rearmed_same hp hretries
    dsimp only
    cases hf : packet.function with
    | request =>
      have hask := asked_handleRequest h src packet (payload.drop AtpPacket.HEADER_LEN)
      dsimp only
      generalize h.ep.handleRequest src packet (payload.drop AtpPacket.HEADER_LEN) = ep at hask ⊢
      refine rearmed_same ?_ hretries
      cases hask <;> exact hp
    | response => exact rearmed_response hp hretries src packet _
    | release => exact rearmed_same hp hretries
  | transmit => exact rearmed_same hp hretries

end

theorem expiries_rearm (p : PendingRequest) (x : AtpInput) (xs : List AtpInput) :
    p.retries + expiries p.retryAt (x :: xs) = (rearm p x).1 + expiries (rearm p x).2 xs := by
  rcases x with c | _ | _
  · cases c <;> simp only [expiries, rearm]
    split_ifs <;> simp only [Nat.add_assoc, Nat.add_comm 1]
  · rfl
  · rfl

theorem leaves_of_expiries {tid : UInt16} {xs : List AtpInput} :
    ∀ {h : AtpHost} {p : PendingRequest}, h.ep.pending[tid]? = some p → p.retries ≤ MAX_RETRIES →
      MAX_RETRIES < p.retries + expiries p.retryAt xs →
      ∃ ys, ys <+: xs ∧ (run step h ys).ep.pending.contains tid = false := by
  induction xs with
  | nil =>
    intro h p hp hretries hbudget
    simp only [expiries, Nat.add_zero] at hbudget
    omega
  | cons x xs ih =>
    intro h p hp hretries hbudget
    rcases pending_step hp hretries x with hnone | ⟨p', hp', hrearm, hretries'⟩
    · refine ⟨[x], ⟨xs, rfl⟩, ?_⟩
      rw [run_cons, run_nil, Std.TreeMap.contains_eq_isSome_getElem?, hnone]
      rfl
    · rw [expiries_rearm, ← hrearm] at hbudget
      obtain ⟨ys, hys, hgone⟩ := ih hp' hretries' hbudget
      exact ⟨x :: ys, List.cons_prefix_cons.2 ⟨rfl, hys⟩, hgone⟩

/-! ## Runs -/

/-- Every handle leaves the table once, when it is resolved; and no request is pending whose timer
    has run out once more than it has retries. -/
structure Resolves (h : AtpHost) (xs : List AtpInput) : Prop where
  balanced : ∀ ys, ys <+: xs → (run step h ys).Balanced
  timely : ∀ before after dest userBytes data bitmap now tid ep,
    xs = before ++ .call (.request dest userBytes data bitmap now) :: after →
    (run step h before).ep.request dest userBytes data bitmap now = some (tid, ep) →
    MAX_RETRIES < expiries (now + RETRY_INTERVAL) after →
    ∃ ys, ys <+: after ∧ (run step h (before ++
      .call (.request dest userBytes data bitmap now) :: ys)).ep.pending.contains tid = false

theorem timely (h : AtpHost) {before after : List AtpInput} {dest : ServiceAddress}
    {userBytes : UserBytes} {data : Bytes} {bitmap : UInt8} {now : Micros} {tid : UInt16}
    {ep : AtpEndpoint}
    (hr : (run step h before).ep.request dest userBytes data bitmap now = some (tid, ep))
    (hbudget : MAX_RETRIES < expiries (now + RETRY_INTERVAL) after) :
    ∃ ys, ys <+: after ∧ (run step h (before ++
      .call (.request dest userBytes data bitmap now) :: ys)).ep.pending.contains tid = false := by
  have hstep : (((run step h before).step (.call (.request dest userBytes data bitmap now))).ep) =
      ep := by
    change ((run step h before).call (.request dest userBytes data bitmap now)).ep = ep
    simp only [call, hr]
  have hpending : ((run step h before).step
      (.call (.request dest userBytes data bitmap now))).ep.pending[tid]? = some
        (AtpEndpoint.newRequest dest (AtpEndpoint.requestBytes true bitmap tid userBytes data)
          bitmap now) := by
    rw [hstep]
    obtain ⟨nextTid, rfl⟩ := AtpEndpoint.request_eq hr
    simp
  obtain ⟨ys, hys, hgone⟩ := leaves_of_expiries hpending (Nat.zero_le _)
    (by simpa [AtpEndpoint.newRequest] using hbudget)
  refine ⟨ys, hys, ?_⟩
  rw [run_append, run_cons]
  exact hgone

end AtpHost

open AtpHost in
/-- **Every request is resolved exactly once, if no hole is left.** In every run of an endpoint
    every handle leaves the pending table once, with one event, and in time, exactly if no response
    completes a request by the number of its packets while their numbers leave a gap. -/
theorem resolves_iff_noHole (localSocket : UInt8) (xs : List AtpInput) :
    Resolves (AtpHost.new localSocket) xs ↔ Along step NoHole (AtpHost.new localSocket) xs := by
  have hbalanced : (∀ ys, ys <+: xs → (run step (new localSocket) ys).Balanced) ↔
      Along step NoHole (new localSocket) xs :=
    along_iff step (fun _ => True) (fun _ _ _ _ _ => trivial)
      (fun _ x _ hb => balanced_step_iff x hb) trivial (balanced_new localSocket)
  constructor
  · intro hr
    exact hbalanced.1 hr.balanced
  · intro hok
    refine ⟨hbalanced.2 hok, ?_⟩
    rintro before after dest userBytes data bitmap now tid ep - hr hbudget
    exact timely _ hr hbudget

/-- One packet is asked for, and one arrives with another number and no EOM. -/
def holeRun : List AtpInput :=
  [.call (.request ⟨0, 1, 140⟩ (.replicate 4 0) [] 0x01 0),
    .recv ⟨0, 1, 140⟩ (({ function := .response, xo := false, eom := false, sts := false
                          bitmapSeqNum := 5, tid := 1, userBytes := .replicate 4 0 } :
                          AtpPacket).toBytes ++ [65]) 1]

/-- The handle leaves the table, and nothing is reported for it. -/
theorem holeRun_unresolved :
    (run AtpHost.step (AtpHost.new 130) holeRun).handles = [1] ∧
    (run AtpHost.step (AtpHost.new 130) holeRun).ep.pending.contains 1 = false ∧
    (run AtpHost.step (AtpHost.new 130) holeRun).emitted = [] ∧
    ¬ AtpHost.Resolves (AtpHost.new 130) holeRun := by
  have hhandles : (run AtpHost.step (AtpHost.new 130) holeRun).handles = [1] := by decide
  have hgone : (run AtpHost.step (AtpHost.new 130) holeRun).ep.pending.contains 1 = false := by
    decide
  have hnone : (run AtpHost.step (AtpHost.new 130) holeRun).emitted = [] := by decide
  refine ⟨hhandles, hgone, hnone, fun h => ?_⟩
  have hbalanced := h.balanced holeRun List.prefix_rfl 1
  rw [hhandles, AtpHost.resolutions, hnone, hgone] at hbalanced
  simp at hbalanced

end TailTalk
