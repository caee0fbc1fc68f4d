/-
  Exactly-once transactions of an ATP responder.

  Of each transaction (source, TID) the endpoint's two bounded queues remember
  what the exactly-once memory `Once` does, as long as neither queue evicts
  (`Roomy`).
-/
import TailTalk.Atp.Host
import TailTalk.Lib.Once

namespace TailTalk

open Lib

/-- The name of a transaction at its responder. -/
abbrev AtpKey := ServiceAddress × UInt16

/-- The event delivers an exactly-once request of the transaction. -/
def AtpEvent.delivers (k : AtpKey) : AtpEvent → Bool
  | .request source tid _ _ _ xo => xo && decide ((source, tid) = k)
  | _ => false

namespace AtpHost

/-- What the endpoint remembers of a transaction. -/
def once (h : AtpHost) (k : AtpKey) : Once (List Bytes) where
  opened := h.ep.inProgress.contains k
  answers := (h.ep.replyCache.filter fun c => c.source = k.1 ∧ c.tid = k.2).map
    fun c => (c.packets, c.expiresAt)

/-- How often a request of the transaction was delivered. -/
def deliveries (h : AtpHost) (k : AtpKey) : ℕ := h.emitted.countP (AtpEvent.delivers k)

/-- What an input means for a transaction. -/
def onceAct (k : AtpKey) : AtpInput → Option (Once.Act (List Bytes))
  | .call (.poll now) => some (.expire now)
  | .call c =>
    match c.answer with
    | some (a, now) => if a.key = k then some (.answer a.packets (now + RELEASE_TIMEOUT)) else none
    | none => none
  | .recv src payload _ =>
    match AtpPacket.parse payload with
    | .error _ => none
    | .ok packet =>
      if (src, packet.tid) = k then
        match packet.function with
        | .request => if packet.xo then some .ask else none
        | .response => none
        | .release => some .release
      else none
  | .transmit => none

/-- A new exactly-once request. -/
def IsNew (h : AtpHost) (src : ServiceAddress) (packet : AtpPacket) : Prop :=
  packet.function = .request ∧ packet.xo ∧ h.ep.cached src packet.tid = none ∧
    (src, packet.tid) ∉ h.ep.inProgress

instance (h : AtpHost) (src : ServiceAddress) (packet : AtpPacket) :
    Decidable (h.IsNew src packet) := by
  unfold IsNew; infer_instance

/-- No answer is given while 16 are cached, and no new exactly-once request arrives while 16 are in
    progress. -/
def Roomy (h : AtpHost) : AtpInput → Prop
  | .call c => c.answer.isSome → h.ep.replyCache.length < REPLY_CACHE_LEN
  | .recv src payload _ =>
    match AtpPacket.parse payload with
    | .error _ => True
    | .ok packet => h.IsNew src packet → h.ep.inProgress.length < REPLY_CACHE_LEN
  | .transmit => True

instance (h : AtpHost) : ∀ x, Decidable (h.Roomy x)
  | .call c => inferInstanceAs (Decidable (c.answer.isSome → _ < _))
  | .recv src payload _ =>
    match hp : AtpPacket.parse payload with
    | .error _ => isTrue (by simp only [Roomy, hp])
    | .ok packet => decidable_of_iff
        (h.IsNew src packet → h.ep.inProgress.length < REPLY_CACHE_LEN) (by simp only [Roomy, hp])
  | .transmit => isTrue trivial

/-- The input ends the transaction: its TRel is handled, or the answer that is
    replayed expires. -/
def Ends (k : AtpKey) (h : AtpHost) (x : AtpInput) : Prop :=
  ∃ a ∈ onceAct k x, (h.once k).Ends a

instance (k : AtpKey) (h : AtpHost) (x : AtpInput) : Decidable (Ends k h x) :=
  match hx : onceAct k x with
  | none => isFalse fun ⟨_, ha, _⟩ => by rw [hx] at ha; cases ha
  | some a => decidable_of_iff ((h.once k).Ends a) (by simp [Ends, hx])

/-! ## The queues of the endpoint -/

section
variable {h h' : AtpHost} {k : AtpKey}

/-- The memory is read off the two queues. -/
theorem once_congr (hp : h'.ep.inProgress = h.ep.inProgress)
    (hc : h'.ep.replyCache = h.ep.replyCache) : h'.once k = h.once k := by
  simp only [once, hp, hc]

theorem replay_once : (h.once k).replay = (h.ep.cached k.1 k.2).map (·.packets) := by
  rw [Once.replay, once, List.head?_map, List.head?_filter, Option.map_map]
  rfl

theorem answers_once : (h.once k).answers = [] ↔ h.ep.cached k.1 k.2 = none := by
  rw [← List.head?_eq_none_iff, once, List.head?_map, List.head?_filter, Option.map_eq_none_iff]
  rfl

theorem delivers_once {src : ServiceAddress} {tid : UInt16} :
    (h.once (src, tid)).Delivers ↔
      h.ep.cached src tid = none ∧ (src, tid) ∉ h.ep.inProgress := by
  rw [Once.Delivers, answers_once]
  simp [once]

theorem onceAct_answer {c : AtpCall} {a : AtpAnswer} {now : Micros}
    (hc : c.answer = some (a, now)) : onceAct k (.call c) =
      if a.key = k then some (.answer a.packets (now + RELEASE_TIMEOUT)) else none := by
  cases c with
  | respond source tid userBytes data chunkSize now' => cases hc; rfl
  | respondPackets source tid chunks now' => cases hc; rfl
  | request dest userBytes data bitmap now' => cases hc
  | sendAlo dest userBytes => cases hc
  | poll now' => cases hc
  | pollEvent => cases hc

theorem once_answer {a : AtpAnswer} {now : Micros}
    (hroom : h.ep.replyCache.length < REPLY_CACHE_LEN)
    (hep : h'.ep = h.ep.respondPackets a.source a.tid a.chunks now) : h'.once k =
      if a.key = k then (h.once k).step (.answer a.packets (now + RELEASE_TIMEOUT))
      else h.once k := by
  have hne : h.ep.replyCache.length ≠ REPLY_CACHE_LEN := Nat.ne_of_lt hroom
  obtain ⟨src, tid⟩ := k
  simp only [once, hep, AtpEndpoint.respondPackets, if_neg hne, AtpEndpoint.push]
  by_cases hk : a.key = (src, tid)
  · obtain ⟨rfl, rfl⟩ := Prod.mk.inj hk
    rw [if_pos hk]
    simp [Once.step, AtpAnswer.packets]
  · have hsrc : ¬ (a.source = src ∧ a.tid = tid) := fun h => hk (Prod.ext h.1 h.2)
    have hother : ¬ (src = a.source ∧ tid = a.tid) := fun h => hsrc ⟨h.1.symm, h.2.symm⟩
    rw [if_neg hk]
    congr 1
    · rw [Bool.eq_iff_iff]
      simp only [List.contains_iff_mem, List.mem_filter, decide_eq_true_eq, and_iff_left hother]
    · simp [hsrc]

theorem once_remember {src : ServiceAddress} {tid : UInt16} {event : AtpEvent}
    (hnew : h.ep.cached src tid = none) (hroom : h.ep.inProgress.length < REPLY_CACHE_LEN)
    (hep : h'.ep = (h.ep.remember src tid).emit event) : h'.once k =
      if (src, tid) = k then (h.once k).step .ask else h.once k := by
  have hlt : ¬ h.ep.inProgress.length ≥ REPLY_CACHE_LEN := Nat.not_le_of_lt hroom
  have hask : (h.once (src, tid)).step .ask = { h.once (src, tid) with opened := true } := by
    simp only [Once.step, if_pos (answers_once.2 hnew : (h.once (src, tid)).answers = [])]
  by_cases hk : (src, tid) = k
  · subst hk
    rw [if_pos rfl, hask]
    simp [once, hep, AtpEndpoint.remember, AtpEndpoint.emit, if_neg hlt]
  · simp only [once, hep, AtpEndpoint.remember, AtpEndpoint.emit, if_neg hlt]
    have hother : k ≠ (src, tid) := fun h => hk h.symm
    rw [if_neg hk]
    simp [hother]

theorem once_release {src : ServiceAddress} {tid : UInt16}
    (hep : h'.ep = h.ep.handleRelease src tid) : h'.once k =
      if (src, tid) = k then (h.once k).step .release else h.once k := by
  simp only [once, hep, AtpEndpoint.handleRelease, List.filter_filter]
  by_cases hk : (src, tid) = k
  · subst hk
    rw [if_pos rfl]
    simp [Once.step]
  · obtain ⟨src', tid'⟩ := k
    have hother : ∀ c : CachedResponse, c.source = src' ∧ c.tid = tid' →
        ¬ (c.source = src ∧ c.tid = tid) := by
      rintro c ⟨rfl, rfl⟩ ⟨rfl, rfl⟩
      exact hk rfl
    rw [if_neg hk]
    congr 2
    refine List.filter_congr fun c _ => ?_
    by_cases hc : c.source = src' ∧ c.tid = tid'
    · rw [decide_eq_true hc, decide_eq_true (hother c hc)]; rfl
    · rw [decide_eq_false hc]; rfl

theorem once_poll {now : Micros} (hep : h'.ep = h.ep.poll now) :
    h'.once k = (h.once k).step (.expire now) := by
  simp only [once, hep, AtpEndpoint.poll, AtpEndpoint.unexpired, Once.step, List.filter_map,
    List.filter_filter]
  congr 2
  refine List.filter_congr fun c _ => ?_
  simp only [Function.comp_apply, Bool.and_comm]

end

/-! ## Requests of our own -/

section
variable {ep ep' : AtpEndpoint}

/-- The parts of an endpoint that only its responder uses. -/
structure SameResponder (ep ep' : AtpEndpoint) : Prop where
  inProgress : ep'.inProgress = ep.inProgress
  replyCache : ep'.replyCache = ep.replyCache

theorem sameResponder_request {dest : ServiceAddress} {userBytes : UserBytes} {data : Bytes}
    {bitmap : UInt8} {now : Micros} {tid : UInt16}
    (h : ep.request dest userBytes data bitmap now = some (tid, ep')) :
    SameResponder ep ep' ∧ ep'.events = ep.events := by
  obtain ⟨nextTid, rfl⟩ := AtpEndpoint.request_eq h
  exact ⟨⟨rfl, rfl⟩, rfl⟩

theorem sameResponder_sendAlo {dest : ServiceAddress} {userBytes : UserBytes}
    (h : ep.sendAlo dest userBytes = some ep') :
    SameResponder ep ep' ∧ ep'.events = ep.events := by
  obtain ⟨tid, nextTid, rfl⟩ := AtpEndpoint.sendAlo_eq h
  exact ⟨⟨rfl, rfl⟩, rfl⟩

theorem sameResponder_handleResponse (ep : AtpEndpoint) (src : ServiceAddress)
    (packet : AtpPacket) (data : Bytes) :
    SameResponder ep (ep.handleResponse src packet data) ∧
      ∃ events, (ep.handleResponse src packet data).events = ep.events ++ events ∧
        ∀ e ∈ events, ∀ k, e.delivers k = false := by
  simp only [AtpEndpoint.handleResponse]
  rcases ep.pending[packet.tid]? with _ | p
  · exact ⟨⟨rfl, rfl⟩, [], by simp⟩
  dsimp only
  split_ifs
  · rcases (p.receive packet data).assemble with _ | full
    · exact ⟨⟨rfl, rfl⟩, [], by simp⟩
    · refine ⟨⟨rfl, rfl⟩, _, rfl, ?_⟩
      intro e he k
      obtain rfl := List.mem_singleton.1 he
      rfl
  · exact ⟨⟨rfl, rfl⟩, [], by simp⟩

end

section
variable (h : AtpHost) (dest : ServiceAddress) (userBytes : UserBytes)

theorem sameResponder_call_request (data : Bytes) (bitmap : UInt8) (now : Micros) :
    SameResponder h.ep (h.call (.request dest userBytes data bitmap now)).ep ∧
      (h.call (.request dest userBytes data bitmap now)).emitted = h.emitted := by
  rw [call]
  rcases hr : h.ep.request dest userBytes data bitmap now with _ | ⟨tid, ep⟩
  · exact ⟨⟨rfl, rfl⟩, rfl⟩
  · obtain ⟨hs, hevents⟩ := sameResponder_request hr
    exact ⟨hs, by simp only [emitted, hevents]⟩

theorem sameResponder_call_sendAlo :
    SameResponder h.ep (h.call (.sendAlo dest userBytes)).ep ∧
      (h.call (.sendAlo dest userBytes)).emitted = h.emitted := by
  rw [call]
  rcases hr : h.ep.sendAlo dest userBytes with _ | ep
  · exact ⟨⟨rfl, rfl⟩, rfl⟩
  · obtain ⟨hs, hevents⟩ := sameResponder_sendAlo hr
    exact ⟨hs, by simp only [emitted, hevents]⟩

end

theorem SameResponder.once {h h' : AtpHost} (hs : SameResponder h.ep h'.ep) (k : AtpKey) :
    h'.once k = h.once k := once_congr hs.inProgress hs.replyCache

/-! ## What is received -/

theorem recv_malformed (h : AtpHost) (src : ServiceAddress) {payload : Bytes} (now : Micros)
    {err : AtpError} (hp : AtpPacket.parse payload = .error err) (k : AtpKey) :
    h.recv src payload now = h ∧ onceAct k (.recv src payload now) = none := by
  constructor
  · simp only [recv, AtpEndpoint.handleDatagram, hp]
  · simp only [onceAct, hp]

theorem onceAct_request {k : AtpKey} {src : ServiceAddress} {payload : Bytes} {now : Micros}
    {packet : AtpPacket} (hp : AtpPacket.parse payload = .ok packet)
    (hf : packet.function = .request) : onceAct k (.recv src payload now) =
      if (src, packet.tid) = k then if packet.xo then some .ask else none else none := by
  simp only [onceAct, hp, hf]

theorem onceAct_response {k : AtpKey} {src : ServiceAddress} {payload : Bytes} {now : Micros}
    {packet : AtpPacket} (hp : AtpPacket.parse payload = .ok packet)
    (hf : packet.function = .response) : onceAct k (.recv src payload now) = none := by
  simp only [onceAct, hp, hf, ite_self]

theorem onceAct_release {k : AtpKey} {src : ServiceAddress} {payload : Bytes} {now : Micros}
    {packet : AtpPacket} (hp : AtpPacket.parse payload = .ok packet)
    (hf : packet.function = .release) : onceAct k (.recv src payload now) =
      if (src, packet.tid) = k then some .release else none := by
  simp only [onceAct, hp, hf]

/-! ## The refinement -/

section
variable {h : AtpHost} {k : AtpKey}

theorem once_step_answer {c : AtpCall} {a : AtpAnswer} {now : Micros}
    (hc : c.answer = some (a, now)) (hroom : h.Roomy (.call c)) :
    (h.step (.call c)).once k = run Once.step (h.once k) (onceAct k (.call c)).toList := by
  have hlt : h.ep.replyCache.length < REPLY_CACHE_LEN := hroom (by rw [hc]; rfl)
  have hep : (h.step (.call c)).ep = h.ep.respondPackets a.source a.tid a.chunks now := by
    change (h.call c).ep = _
    rw [call_answer hc]
  rw [once_answer hlt hep, onceAct_answer hc]
  split_ifs with hk <;> rfl

/-- **The two queues remember what `Once` does**, while they do not evict. -/
theorem once_step {x : AtpInput} (hroom : h.Roomy x) :
    (h.step x).once k = run Once.step (h.once k) (onceAct k x).toList := by
  cases x with
  | call c =>
    cases c with
    | request dest userBytes data bitmap now =>
      exact (sameResponder_call_request h dest userBytes data bitmap now).1.once k
    | sendAlo dest userBytes => exact (sameResponder_call_sendAlo h dest userBytes).1.once k
    | respond source tid userBytes data chunkSize now => exact once_step_answer rfl hroom
    | respondPackets source tid chunks now => exact once_step_answer rfl hroom
    | poll now => exact once_poll rfl
    | pollEvent => exact once_congr rfl rfl
  | recv src payload now =>
    change (h.recv src payload now).once k = _
    rcases hp : AtpPacket.parse payload with err | packet
    · obtain ⟨hsame, hact⟩ := recv_malformed h src now hp k
      rw [hsame, hact]
      rfl
    simp only [Roomy, hp] at hroom
    cases hf : packet.function with
    | request =>
      rw [recv_request hp hf, onceAct_request hp hf]
      have hask := asked_handleRequest h src packet (payload.drop AtpPacket.HEADER_LEN)
      generalize h.ep.handleRequest src packet (payload.drop AtpPacket.HEADER_LEN) = ep at hask ⊢
      cases hask with
      | replayed c hc =>
        have hsame : ({ h with ep := h.ep.push src c.packets } : AtpHost).once k = h.once k :=
          once_congr rfl rfl
        rw [hsame]
        split_ifs with hk hxo
        · subst hk
          have hsome : ¬ (h.once (src, packet.tid)).answers = [] := by
            rw [answers_once, hc]; exact Option.some_ne_none c
          simp only [Option.toList_some, run_cons, run_nil, Once.step, if_neg hsome]
        · rfl
        · rfl
      | inProgress hxo hc hpend =>
        split_ifs with hk
        · subst hk
          have hopen : (h.once (src, packet.tid)).opened = true := by simp [once, hpend]
          have hnone : (h.once (src, packet.tid)).answers = [] := answers_once.2 hc
          simp only [Option.toList_some, run_cons, run_nil, Once.step, if_pos hnone]
          rw [← hopen]
        · rfl
      | delivered hxo hc hpend =>
        rw [once_remember hc (hroom ⟨hf, hxo, hc, hpend⟩) rfl, if_pos hxo]
        split_ifs with hk <;> rfl
      | atLeastOnce hxo hc =>
        have hsame : ({ h with ep := h.ep.emit (AtpEndpoint.requestEvent src packet
            (payload.drop AtpPacket.HEADER_LEN)) } : AtpHost).once k = h.once k :=
          once_congr rfl rfl
        rw [hsame, hxo]
        simp only [Bool.false_eq_true, if_false, ite_self]
        rfl
    | response =>
      have hs := (sameResponder_handleResponse h.ep src packet
        (payload.drop AtpPacket.HEADER_LEN)).1
      rw [onceAct_response hp hf]
      simp only [recv, AtpEndpoint.handleDatagram, hp, hf]
      exact hs.once k
    | release =>
      rw [onceAct_release hp hf]
      simp only [recv, AtpEndpoint.handleDatagram, hp, hf]
      rw [once_release rfl]
      split_ifs with hk <;> rfl
  | transmit => exact once_congr rfl rfl

/-! ## Deliveries -/

theorem deliveries_append {h' : AtpHost} {events : List AtpEvent}
    (he : h'.emitted = h.emitted ++ events) :
    h'.deliveries k = h.deliveries k + events.countP (AtpEvent.delivers k) := by
  rw [deliveries, deliveries, he, List.countP_append]

theorem deliveries_same {h' : AtpHost} (he : h'.emitted = h.emitted) :
    h'.deliveries k = h.deliveries k := by rw [deliveries, deliveries, he]

theorem delivers_requestEvent (src : ServiceAddress) (packet : AtpPacket) (data : Bytes) :
    (AtpEndpoint.requestEvent src packet data).delivers k =
      (packet.xo && decide ((src, packet.tid) = k)) := rfl

/-- **Each delivery is one of `Once`.** -/
theorem deliveries_step (x : AtpInput) :
    (h.step x).deliveries k = h.deliveries k + (h.once k).deliveries (onceAct k x).toList := by
  cases x with
  | call c =>
    cases c with
    | request dest userBytes data bitmap now =>
      exact deliveries_same (sameResponder_call_request h dest userBytes data bitmap now).2
    | sendAlo dest userBytes =>
      exact deliveries_same (sameResponder_call_sendAlo h dest userBytes).2
    | respond source tid userBytes data chunkSize now =>
      rw [onceAct_answer rfl]
      split_ifs <;> rfl
    | respondPackets source tid chunks now =>
      rw [onceAct_answer rfl]
      split_ifs <;> rfl
    | poll now =>
      have he : (h.call (.poll now)).emitted = h.emitted ++
          ((h.ep.due now).filter fun p => p.2.retries + 1 > MAX_RETRIES).map
            fun p => .requestFailed p.1 := by
        simp only [emitted, call, AtpEndpoint.poll, List.append_assoc]
      change (h.call (.poll now)).deliveries k = _
      rw [deliveries_append he, List.countP_map, List.countP_eq_zero.2 fun _ _ => by
        simp [AtpEvent.delivers]]
      rfl
    | pollEvent => exact deliveries_same (emitted_pollEvent h)
  | recv src payload now =>
    change (h.recv src payload now).deliveries k = _
    rcases hp : AtpPacket.parse payload with err | packet
    · obtain ⟨hsame, hact⟩ := recv_malformed h src now hp k
      rw [hsame, hact]
      rfl
    cases hf : packet.function with
    | request =>
      rw [recv_request hp hf, onceAct_request hp hf]
      have hask := asked_handleRequest h src packet (payload.drop AtpPacket.HEADER_LEN)
      generalize h.ep.handleRequest src packet (payload.drop AtpPacket.HEADER_LEN) = ep at hask ⊢
      cases hask with
      | replayed c hc =>
        split_ifs with hk hxo
        · subst hk
          have hno : ¬ (h.once (src, packet.tid)).Delivers := by
            rw [delivers_once, hc]; exact fun h => Option.some_ne_none c h.1
          simp only [Option.toList_some, Once.deliveries, if_neg hno]
          rfl
        · rfl
        · rfl
      | inProgress hxo hc hpend =>
        rw [if_pos hxo]
        split_ifs with hk
        · subst hk
          have hno : ¬ (h.once (src, packet.tid)).Delivers := by
            rw [delivers_once]; exact fun h => h.2 hpend
          simp only [Option.toList_some, Once.deliveries, if_neg hno]
          rfl
        · rfl
      | delivered hxo hc hpend =>
        rw [deliveries_append (h := h) (List.append_assoc _ _ _).symm, List.countP_singleton,
          delivers_requestEvent, hxo, if_pos rfl]
        by_cases hk : (src, packet.tid) = k
        · subst hk
          have hyes : (h.once (src, packet.tid)).Delivers := delivers_once.2 ⟨hc, hpend⟩
          simp [Once.deliveries, hyes]
        · simp [hk, Once.deliveries]
      | atLeastOnce hxo hc =>
        rw [deliveries_append (h := h) (List.append_assoc _ _ _).symm, List.countP_singleton,
          delivers_requestEvent, hxo]
        simp [Once.deliveries]
    | response =>
      obtain ⟨-, events, he, hnone⟩ := sameResponder_handleResponse h.ep src packet
        (payload.drop AtpPacket.HEADER_LEN)
      rw [onceAct_response hp hf]
      have hemit : (h.recv src payload now).emitted = h.emitted ++ events := by
        simp only [recv, AtpEndpoint.handleDatagram, hp, hf, emitted, he, List.append_assoc]
      rw [deliveries_append hemit, List.countP_eq_zero.2 fun e hmem => by simp [hnone e hmem k]]
      rfl
    | release =>
      rw [onceAct_release hp hf]
      have hemit : (h.recv src payload now).emitted = h.emitted := by
        simp only [recv, AtpEndpoint.handleDatagram, hp, hf]; rfl
      rw [deliveries_same hemit]
      split_ifs with hk <;> rfl
  | transmit => exact deliveries_same rfl

theorem deliveries_run {xs : List AtpInput} (hroom : Along step Roomy h xs) :
    (run step h xs).deliveries k =
      h.deliveries k +
        (h.once k).deliveries (trace step (fun _ x => (onceAct k x).toList) h xs) := by
  induction xs generalizing h with
  | nil => rfl
  | cons x xs ih =>
    rw [run_cons, ih hroom.2, deliveries_step, trace, Once.deliveries_append, once_step hroom.1,
      Nat.add_assoc]

end

theorem recv_answered {h : AtpHost} {src : ServiceAddress} {payload : Bytes} {now : Micros}
    {packet : AtpPacket} {packets : List Bytes} (hp : AtpPacket.parse payload = .ok packet)
    (hf : packet.function = .request) (hr : (h.once (src, packet.tid)).replay = some packets) :
    (h.recv src payload now).emitted = h.emitted ∧
      (h.recv src payload now).queued = h.queued ++ packets.map fun p => (src, p) := by
  rw [replay_once, Option.map_eq_some_iff] at hr
  obtain ⟨c, hc, rfl⟩ := hr
  have hep : h.ep.handleRequest src packet (payload.drop AtpPacket.HEADER_LEN) =
      h.ep.push src c.packets := by
    simp only [AtpEndpoint.handleRequest, hc]
  rw [recv_request hp hf, hep]
  exact ⟨rfl, (List.append_assoc _ _ _).symm⟩

end AtpHost

/-! ## On a network -/

section
variable {ι : Type} [DecidableEq ι] {addr : ι → ServiceAddress} {i : ι} {k : AtpKey}

/-- A step of the network that leaves the transaction `k` of host `i` going,
    and evicts nothing there. -/
def KeepsTransaction (addr : ι → ServiceAddress) (i : ι) (k : AtpKey) (s : AtpNet ι)
    (a : Net.Act AtpCall ι) : Prop :=
  ∀ x ∈ Net.input addr i s a, (s.host i).Roomy x ∧ ¬ AtpHost.Ends k (s.host i) x

/-- The inputs of host `i` along a run. -/
abbrev hostInputs (addr : ι → ServiceAddress) (i : ι) (s : AtpNet ι)
    (as : List (Net.Act AtpCall ι)) : List AtpInput :=
  trace (Net.step atpParty addr) (fun s a => (Net.input addr i s a).toList) s as

instance (s : AtpNet ι) (a : Net.Act AtpCall ι) : Decidable (KeepsTransaction addr i k s a) := by
  unfold KeepsTransaction; infer_instance

/-- The host alone: the transaction goes on, and nothing is evicted. -/
def AtpHost.KeepsTransaction (k : AtpKey) (h : AtpHost) (x : AtpInput) : Prop :=
  h.Roomy x ∧ ¬ AtpHost.Ends k h x

theorem host_atpRun {s : AtpNet ι} {as : List (Net.Act AtpCall ι)}
    (hok : Along (Net.step atpParty addr) (KeepsTransaction addr i k) s as) :
    (atpRun addr s as).host i = run AtpHost.step (s.host i) (hostInputs addr i s as) ∧
    Along AtpHost.step (AtpHost.KeepsTransaction k) (s.host i) (hostInputs addr i s as) := by
  have hstep : ∀ (s : AtpNet ι) (a : Net.Act AtpCall ι), KeepsTransaction addr i k s a →
      (Net.step atpParty addr s a).host i =
        run AtpHost.step (s.host i) (Net.input addr i s a).toList :=
    fun s a _ => Net.host_step atpParty addr i s a
  have hone : ∀ (s : AtpNet ι) (a : Net.Act AtpCall ι), KeepsTransaction addr i k s a →
      Along AtpHost.step (AtpHost.KeepsTransaction k) (s.host i)
        (Net.input addr i s a).toList :=
    fun s a h => (along_toList _).2 h
  exact ⟨refine_run (fun s : AtpNet ι => s.host i) hstep hok,
    refine_along (fun s : AtpNet ι => s.host i) hstep hone hok⟩

/-- The memory of the transaction goes on, and counts the deliveries. -/
theorem once_atpRun {s : AtpNet ι} {as : List (Net.Act AtpCall ι)}
    (hok : Along (Net.step atpParty addr) (KeepsTransaction addr i k) s as) :
    ∃ acts, ((s.host i).once k).Continues acts ∧
      ((atpRun addr s as).host i).once k = run Once.step ((s.host i).once k) acts ∧
      ((atpRun addr s as).host i).deliveries k =
        (s.host i).deliveries k + ((s.host i).once k).deliveries acts := by
  obtain ⟨hrun, halong⟩ := host_atpRun hok
  have hstep : ∀ (h : AtpHost) (x : AtpInput), h.KeepsTransaction k x →
      (h.step x).once k = run Once.step (h.once k) (AtpHost.onceAct k x).toList :=
    fun h x hx => AtpHost.once_step hx.1
  have hone : ∀ (h : AtpHost) (x : AtpInput), h.KeepsTransaction k x →
      Along Once.step (fun t a => ¬ t.Ends a) (h.once k) (AtpHost.onceAct k x).toList :=
    fun h x hx => (along_toList _).2 fun a ha he => hx.2 ⟨a, ha, he⟩
  have hroom : Along AtpHost.step AtpHost.Roomy (s.host i) (hostInputs addr i s as) :=
    Along.mono _ (fun _ _ hx => hx.1) halong
  refine ⟨_, refine_along (fun h => h.once k) hstep hone halong, ?_, ?_⟩
  · rw [hrun]; exact refine_run (fun h => h.once k) hstep halong
  · rw [hrun]; exact AtpHost.deliveries_run hroom

/-- **Exactly-once transactions.** On any network, in a part of a run in which host `i` evicts
    nothing and the transaction `k` does not end, `i` delivers at most one request of `k`; and once
    `k` is answered, every TReq of `k` is met with exactly the packets of that first answer. -/
theorem exactly_once {s : AtpNet ι} {as : List (Net.Act AtpCall ι)}
    (hok : Along (Net.step atpParty addr) (KeepsTransaction addr i k) s as) :
    ((atpRun addr s as).host i).deliveries k ≤ (s.host i).deliveries k + 1 ∧
    ∀ (before after : List (Net.Act AtpCall ι)) (c : AtpCall) (a : AtpAnswer) (at_ : Micros),
      as = before ++ .call i c :: after → c.answer = some (a, at_) → a.key = k →
      ((atpRun addr s before).host i).ep.cached k.1 k.2 = none →
      ∀ (payload : Bytes) (packet : AtpPacket) (now : Micros),
        AtpPacket.parse payload = .ok packet → packet.function = .request → packet.tid = k.2 →
        ((atpRun addr s as).host i |>.recv k.1 payload now).emitted =
          ((atpRun addr s as).host i).emitted ∧
        ((atpRun addr s as).host i |>.recv k.1 payload now).queued =
          ((atpRun addr s as).host i).queued ++ a.packets.map fun p => (k.1, p) := by
  constructor
  · obtain ⟨acts, hcont, -, hcount⟩ := once_atpRun hok
    have := Once.deliveries_le_one hcont
    omega
  · rintro before after c a at_ rfl hc rfl hfirst payload packet now hp hf htid
    rw [Along.append] at hok
    have hnone : (((atpRun addr s before).host i).once a.key).answers = [] :=
      AtpHost.answers_once.2 hfirst
    have hroom : ((atpRun addr s before).host i).Roomy (.call c) :=
      (hok.2.1 (.call c) (by simp [Net.input])).1
    -- the answer is the first to be kept, and stays the one replayed
    have hans : (((atpRun addr s (before ++ [.call i c])).host i).once a.key).replay =
        some a.packets := by
      have hstep : (atpRun addr s (before ++ [.call i c])).host i =
          ((atpRun addr s before).host i).step (.call c) := by
        rw [atpRun, run_append, run_cons, run_nil, Net.host_step]
        simp [Net.input, atpRun]
      rw [hstep, AtpHost.once_step_answer hc hroom, AtpHost.onceAct_answer hc, if_pos rfl]
      simp [Once.step, Once.replay, hnone]
    have hrest : Along (Net.step atpParty addr) (KeepsTransaction addr i a.key)
        (atpRun addr s (before ++ [.call i c])) after := by
      rw [atpRun, run_append]; exact hok.2.2
    obtain ⟨acts, hcont, honce, -⟩ := once_atpRun hrest
    have hrun : atpRun addr s (before ++ .call i c :: after) =
        atpRun addr (atpRun addr s (before ++ [.call i c])) after := by
      simp only [atpRun, run_append, run_cons, run_nil]
    have hreplay : (((atpRun addr s (before ++ .call i c :: after)).host i).once a.key).replay =
        some a.packets := by
      rw [hrun, honce]
      exact Once.replay_run hans hcont
    refine AtpHost.recv_answered hp hf ?_
    rw [htid]
    exact hreplay

end

/-- A request that is received three times: before, between and after its
    answer. -/
def repeatedRun : List (Net.Act AtpCall Bool) :=
  [.call true (.request (atpAddr false) (.replicate 4 0) [1] 0x01 0), .transmit true,
    .deliver false 0 0, .deliver false 0 100,
    .call false (.respond (atpAddr true) 1 (.replicate 4 0) [2, 3] 512 100), .deliver false 0 200]

theorem exactly_once_repeatedRun :
    Along (Net.step atpParty atpAddr) (KeepsTransaction atpAddr false (atpAddr true, 1))
      (atpStart atpAddr) repeatedRun ∧
    ((atpRun atpAddr (atpStart atpAddr) repeatedRun).host false).deliveries
      (atpAddr true, 1) ≤ 1 :=
  have hok : Along (Net.step atpParty atpAddr)
      (KeepsTransaction atpAddr false (atpAddr true, 1)) (atpStart atpAddr) repeatedRun := by decide
  ⟨hok, (exactly_once hok).1⟩

/-- The transaction of an exactly-once request that an event delivers. -/
def AtpEvent.xoKey : AtpEvent → Option AtpKey
  | .request source tid _ _ _ true => some (source, tid)
  | _ => none

/-- A request is answered; then sixteen at-least-once packets are, and the request is received
    again. -/
def crowdedRun : List (Net.Act AtpCall Bool) :=
  [.call true (.request (atpAddr false) (.replicate 4 0) [1] 0x01 0), .transmit true,
    .deliver false 0 0, .call false (.respond (atpAddr true) 1 (.replicate 4 0) [2] 512 0)] ++
  (List.range 16).flatMap (fun n =>
    [.call true (.sendAlo (atpAddr false) (.replicate 4 0)), .transmit true,
      .deliver false (n + 1) 0,
      .call false (.respond (atpAddr true) (UInt16.ofNat (n + 2)) (.replicate 4 0) [] 512 0)]) ++
  [.deliver false 0 0]

/-- The answers to at-least-once packets push the answer out of the cache: the only exactly-once
    transaction is delivered twice, neither released nor expired. -/
theorem crowdedRun_redelivers :
    Along (Net.step atpParty atpAddr) (fun s a => ∀ x ∈ Net.input atpAddr false s a,
      ¬ AtpHost.Ends (atpAddr true, 1) (s.host false) x) (atpStart atpAddr) crowdedRun ∧
    ((atpRun atpAddr (atpStart atpAddr) crowdedRun).host true).handles = [1] ∧
    ((atpRun atpAddr (atpStart atpAddr) crowdedRun).host false).emitted.filterMap AtpEvent.xoKey =
      [(atpAddr true, 1), (atpAddr true, 1)] := by
  refine ⟨?_, ?_, ?_⟩ <;> decide

end TailTalk
