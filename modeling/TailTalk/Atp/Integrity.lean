/-
  ATP response integrity.

  On a network of ATP endpoints every response datagram is a packet of an
  answer that some owner gave, and what a requestor has put together so far are
  packets of such answers (`Assembles`).  Where all answers given for a
  transaction are one and the same, the response is that answer.
-/
import TailTalk.Atp.Host

namespace TailTalk

open Lib

/-! ## Packets of an answer -/

/-- The datagram parsed as `packet` is number `i` of the answer. -/
structure AtpAnswer.Piece (a : AtpAnswer) (packet : AtpPacket) (data : Bytes) (i : ℕ) : Prop where
  lt : i < 8
  chunk : a.chunks[i]? = some (packet.userBytes, data)
  tid : packet.tid = a.tid
  seq : packet.bitmapSeqNum = UInt8.ofNat i
  eom : packet.eom = (i == AtpEndpoint.packetCount a.chunks - 1)

/-- If it is a response, the datagram is a packet of a logged answer to its
    addressee. -/
def AnswerPacket (log : AtpAnswer → Prop) (dst : ServiceAddress) (body : Bytes) : Prop :=
  ∀ packet, AtpPacket.parse body = .ok packet → packet.function = .response →
    ∃ a, log a ∧ a.source = dst ∧ ∃ i, a.Piece packet (body.drop AtpPacket.HEADER_LEN) i

section
variable {log log' : AtpAnswer → Prop} {me dst : ServiceAddress}

theorem AnswerPacket.mono {body : Bytes} (h : AnswerPacket log dst body)
    (hl : ∀ a, log a → log' a) : AnswerPacket log' dst body := by
  intro packet hp hf
  obtain ⟨a, ha, hpiece⟩ := h packet hp hf
  exact ⟨a, hl a ha, hpiece⟩

theorem answerPacket_packets {a : AtpAnswer} (ha : log a) {body : Bytes} (hb : body ∈ a.packets) :
    AnswerPacket log a.source body := by
  intro packet hp _
  obtain ⟨i, hi⟩ := List.mem_iff_getElem?.1 hb
  rw [AtpAnswer.packets, AtpEndpoint.frame, List.getElem?_mapIdx, Option.map_eq_some_iff] at hi
  obtain ⟨c, hc, rfl⟩ := hi
  rw [AtpEndpoint.responseBytes, AtpPacket.parse_toBytes] at hp
  rw [AtpEndpoint.responseBytes, AtpPacket.drop_toBytes]
  obtain rfl := Except.ok.inj hp
  have hlt : i < 8 := by
    have := (List.getElem?_eq_some_iff.1 hc).1
    rw [List.length_take] at this
    omega
  rw [List.getElem?_take_of_lt hlt] at hc
  exact ⟨a, ha, rfl, i, hlt, hc, rfl, rfl, rfl⟩

theorem answerPacket_of_function {p : AtpPacket} (hf : p.function ≠ .response) (data : Bytes) :
    AnswerPacket log dst (p.toBytes ++ data) := by
  intro packet hp hr
  rw [AtpPacket.parse_toBytes] at hp
  obtain rfl := Except.ok.inj hp
  exact absurd hr hf

theorem answerPacket_requestBytes (xo : Bool) (bitmap : UInt8) (tid : UInt16)
    (userBytes : UserBytes) (data : Bytes) :
    AnswerPacket log dst (AtpEndpoint.requestBytes xo bitmap tid userBytes data) := by
  unfold AtpEndpoint.requestBytes
  exact answerPacket_of_function (by simp) data

theorem answerPacket_releaseBytes (tid : UInt16) :
    AnswerPacket log dst (AtpEndpoint.releaseBytes tid) := by
  unfold AtpEndpoint.releaseBytes
  rw [← List.append_nil (AtpPacket.toBytes _)]
  exact answerPacket_of_function (by simp) []

/-! ## What a requestor has put together -/

/-- An answer logged for the transaction. -/
def AnswerTo (log : AtpAnswer → Prop) (me : ServiceAddress) (tid : UInt16) (a : AtpAnswer) : Prop :=
  log a ∧ a.source = me ∧ a.tid = tid

/-- Everything received for the transaction comes from answers to it. -/
structure Assembles (log : AtpAnswer → Prop) (me : ServiceAddress) (tid : UInt16)
    (p : PendingRequest) : Prop where
  bitmap : p.requestedBitmap = 0xFF
  received : ∀ seq data, p.received[seq]? = some data → ∃ a, AnswerTo log me tid a ∧
    ∃ i c, i < 8 ∧ a.chunks[i]? = some c ∧ seq = UInt8.ofNat i ∧ data = c.2 ∧
      (p.eomSeq = none → i ≠ AtpEndpoint.packetCount a.chunks - 1)
  userBytes : ∀ u ∈ p.userBytes, ∃ a, AnswerTo log me tid a ∧ ∃ c ∈ a.chunks, u = c.1
  eom : ∀ e ∈ p.eomSeq, ∃ a, AnswerTo log me tid a ∧
    e = UInt8.ofNat (AtpEndpoint.packetCount a.chunks - 1)

/-- The request datagram that may be sent again is no response. -/
def RawRequest (p : PendingRequest) : Prop :=
  ∀ (log : AtpAnswer → Prop) (dst : ServiceAddress), AnswerPacket log dst p.rawPacket

namespace Assembles
variable {tid : UInt16} {p : PendingRequest}

theorem mono (h : Assembles log me tid p) (hl : ∀ a, log a → log' a) :
    Assembles log' me tid p := by
  refine ⟨h.bitmap, ?_, ?_, ?_⟩
  · intro seq data hd
    obtain ⟨a, ⟨ha, hs⟩, hrest⟩ := h.received seq data hd
    exact ⟨a, ⟨hl a ha, hs⟩, hrest⟩
  · intro u hu
    obtain ⟨a, ⟨ha, hs⟩, hrest⟩ := h.userBytes u hu
    exact ⟨a, ⟨hl a ha, hs⟩, hrest⟩
  · intro e he
    obtain ⟨a, ⟨ha, hs⟩, hrest⟩ := h.eom e he
    exact ⟨a, ⟨hl a ha, hs⟩, hrest⟩

theorem newRequest (dest : ServiceAddress) (raw : Bytes) (now : Micros) :
    Assembles log me tid (AtpEndpoint.newRequest dest raw 0xFF now) := by
  refine ⟨rfl, ?_, nofun, nofun⟩
  intro seq data hd
  simp [AtpEndpoint.newRequest] at hd

/-- A genuine packet goes in. -/
theorem receive (h : Assembles log me tid p) {packet : AtpPacket} {data : Bytes} {a : AtpAnswer}
    {i : ℕ} (ha : AnswerTo log me tid a) (hp : a.Piece packet data i) :
    Assembles log me tid (p.receive packet data) := by
  refine ⟨h.bitmap, ?_, ?_, ?_⟩
  · intro seq d hd
    simp only [PendingRequest.receive] at hd ⊢
    rw [getElem?_insert_eq] at hd
    split_ifs at hd with hseq
    · obtain rfl := Option.some.inj hd
      refine ⟨a, ha, i, _, hp.lt, hp.chunk, hseq.trans hp.seq, rfl, fun hnone hlast => ?_⟩
      have heom : packet.eom = true := by rw [hp.eom]; simpa using hlast
      rw [if_pos heom] at hnone
      exact Option.some_ne_none _ hnone
    · obtain ⟨b, hb, j, c, hj, hc, hs, hdata, heom⟩ := h.received seq d hd
      refine ⟨b, hb, j, c, hj, hc, hs, hdata, fun hnone => heom ?_⟩
      split_ifs at hnone
      exact hnone
  · intro u hu
    simp only [PendingRequest.receive, Option.mem_some_iff] at hu
    rcases hub : p.userBytes with _ | v
    · rw [hub, Option.getD_none] at hu
      exact ⟨a, ha, _, List.mem_of_getElem? hp.chunk, hu.symm⟩
    · rw [hub, Option.getD_some] at hu
      exact h.userBytes u (hub.trans (congrArg some hu))
  · intro e he
    simp only [PendingRequest.receive] at he
    split_ifs at he with heom
    · have hlast : i = AtpEndpoint.packetCount a.chunks - 1 := by
        have := hp.eom
        rw [heom] at this
        simpa using this.symm
      obtain rfl := Option.some.inj he
      exact ⟨a, ha, by rw [hp.seq, hlast]⟩
    · exact h.eom e he

theorem tick (h : Assembles log me tid p) {now : Micros} {p' : PendingRequest}
    (ht : p.tick now = some p') : Assembles log me tid p' := by
  unfold PendingRequest.tick at ht
  split_ifs at ht
  · obtain rfl := Option.some.inj ht; exact h
  · obtain rfl := Option.some.inj ht
    exact ⟨h.bitmap, h.received, h.userBytes, h.eom⟩

end Assembles

/-! ## A complete response -/

/-- What a response event carries was put together from answers. -/
def Assembled (log : AtpAnswer → Prop) (me : ServiceAddress) (tid : UInt16) (userBytes : UserBytes)
    (data : Bytes) : Prop :=
  ∃ p : PendingRequest, Assembles log me tid p ∧ p.complete = true ∧
    p.userBytes = some userBytes ∧ p.assemble = some data

theorem Assembled.mono {tid : UInt16} {userBytes : UserBytes} {data : Bytes}
    (h : Assembled log me tid userBytes data) (hl : ∀ a, log a → log' a) :
    Assembled log' me tid userBytes data := by
  obtain ⟨p, hp, hrest⟩ := h
  exact ⟨p, hp.mono hl, hrest⟩

end

section
variable {userBytes : UserBytes} {data : Bytes} {chunkSize : ℕ}

theorem split_userBytes {c : UserBytes × Bytes}
    (h : c ∈ AtpEndpoint.split userBytes data chunkSize) : c.1 = userBytes := by
  unfold AtpEndpoint.split at h
  split_ifs at h
  · obtain rfl := List.mem_singleton.1 h; rfl
  · obtain ⟨d, -, rfl⟩ := List.mem_map.1 h; rfl

theorem length_split_pos : 0 < (AtpEndpoint.split userBytes data chunkSize).length := by
  unfold AtpEndpoint.split
  split_ifs with hnil
  · exact Nat.one_pos
  · have hlen : 0 < data.length := List.length_pos_iff.2 (by simpa using hnil)
    have hdiv : 0 < (data.length + max chunkSize 1 - 1) / max chunkSize 1 :=
      Nat.div_pos (by omega) (by omega)
    rw [List.length_map, List.length_take, chunks_length]
    omega

theorem length_split_le : (AtpEndpoint.split userBytes data chunkSize).length ≤ 8 := by
  unfold AtpEndpoint.split
  split_ifs
  · exact Nat.le_of_ble_eq_true rfl
  · rw [List.length_map]
    exact List.length_take_le 8 _

/-- Data that fits in 8 packets is what they carry. -/
theorem flatten_split (hfit : data.length ≤ 8 * max chunkSize 1) :
    ((AtpEndpoint.split userBytes data chunkSize).map (·.2)).flatten = data := by
  unfold AtpEndpoint.split
  split_ifs with hnil
  · simp [List.isEmpty_iff.1 hnil]
  · have hpos : 0 < max chunkSize 1 := by omega
    have hall : (chunks (max chunkSize 1) data).length ≤ 8 := by
      rw [chunks_length]
      refine Nat.le_of_lt_succ (Nat.div_lt_of_lt_mul ?_)
      rw [Nat.mul_comm]
      omega
    rw [List.take_of_length_le hall, List.map_map]
    have hsnd : ((fun c : UserBytes × Bytes => c.2) ∘ fun c => (userBytes, c)) = id := rfl
    rw [hsnd, List.map_id]
    exact flatten_chunks hpos data

end

/-- **Where all answers to a transaction are the same, so is what is put
    together from them.** -/
theorem Assembled.eq {log : AtpAnswer → Prop} {me : ServiceAddress} {tid : UInt16}
    {u userBytes : UserBytes} {d data : Bytes} {chunkSize : ℕ} (h : Assembled log me tid u d)
    (hfit : data.length ≤ 8 * max chunkSize 1)
    (hsame : ∀ a, AnswerTo log me tid a → a.chunks = AtpEndpoint.split userBytes data chunkSize) :
    u = userBytes ∧ d = data := by
  obtain ⟨p, hp, hcomplete, hu, hd⟩ := h
  have hpos := @length_split_pos userBytes data chunkSize
  have hle := @length_split_le userBytes data chunkSize
  have hcount : AtpEndpoint.packetCount (AtpEndpoint.split userBytes data chunkSize) =
      (AtpEndpoint.split userBytes data chunkSize).length := by
    unfold AtpEndpoint.packetCount; omega
  have hdata := @flatten_split userBytes data chunkSize hfit
  generalize hS : AtpEndpoint.split userBytes data chunkSize = S at *
  constructor
  · obtain ⟨a, ha, c, hc, rfl⟩ := hp.userBytes u hu
    rw [hsame a ha, ← hS] at hc
    exact split_userBytes hc
  -- a packet that has arrived is that of the answer
  have hget : ∀ i b, i < S.length → p.received[UInt8.ofNat i]? = some b →
      S[i]? = some (userBytes, b) := by
    intro i b hi hb
    obtain ⟨a, ha, j, c, hj, hc, hseq, rfl, -⟩ := hp.received _ _ hb
    rw [hsame a ha] at hc
    have hij : i = j := by
      have := congrArg UInt8.toNat hseq
      rw [UInt8.toNat_ofNat', UInt8.toNat_ofNat'] at this
      omega
    have hc1 : c.1 = userBytes := split_userBytes (hS ▸ List.mem_of_getElem? hc)
    rw [hij, hc, ← hc1]
  rcases heom : p.eomSeq with _ | e
  · -- without EOM fewer than eight different packets have arrived
    exfalso
    simp only [PendingRequest.complete, heom, hp.bitmap, Bool.and_eq_true, beq_iff_eq] at hcomplete
    have hkeys : p.received.keys ⊆ (List.range 7).map UInt8.ofNat := by
      intro seq hseq
      obtain ⟨b, hb⟩ := (contains_iff_getElem? p.received seq).1
        (Std.TreeMap.mem_iff_contains.1 (Std.TreeMap.mem_keys.1 hseq))
      obtain ⟨a, ha, j, c, -, hc, rfl, -, hlast⟩ := hp.received _ _ hb
      have hne := hlast heom
      rw [hsame a ha] at hc hne
      have hj := (List.getElem?_eq_some_iff.1 hc).1
      refine List.mem_map.2 ⟨j, List.mem_range.2 ?_, rfl⟩
      omega
    have hlen := List.Nodup.length_le_of_subset Std.TreeMap.nodup_keys hkeys
    rw [Std.TreeMap.length_keys, hcomplete.2, List.length_map, List.length_range] at hlen
    exact absurd hlen (by decide)
  · obtain ⟨a, ha, rfl⟩ := hp.eom e heom
    rw [hsame a ha, hcount] at heom
    have hlast : (UInt8.ofNat (S.length - 1)).toNat + 1 = S.length := by
      rw [UInt8.toNat_ofNat']; omega
    simp only [PendingRequest.complete, heom, hlast, List.all_eq_true, List.mem_range] at hcomplete
    have hread : (List.range (S.map (·.2)).length).mapM
        (fun i => p.received[UInt8.ofNat i]?) = some (S.map (·.2)) := by
      refine mapM_range_eq _ _ fun i x hx => ?_
      obtain ⟨c, hc, rfl⟩ := Option.map_eq_some_iff.1 (List.getElem?_map ▸ hx)
      have hi := (List.getElem?_eq_some_iff.1 hc).1
      obtain ⟨b, hb⟩ := (contains_iff_getElem? _ _).1 (hcomplete i hi)
      obtain rfl := Option.some.inj ((hget i b hi hb).symm.trans hc)
      exact hb
    have hexp : p.expected = (S.map (·.2)).length := by
      simp only [PendingRequest.expected, heom, hlast, List.length_map]
      omega
    rw [PendingRequest.assemble, hexp, hread] at hd
    rw [← Option.some.inj hd]
    exact hdata

/-! ## A host -/

/-- The queues and tables of a host, as its own log of answers and the common
    one explain them. -/
structure AtpHost.Sound (log : AtpAnswer → Prop) (me : ServiceAddress) (h : AtpHost) : Prop where
  cache : ∀ c ∈ h.ep.replyCache, ∃ a ∈ h.answered, a.source = c.source ∧ a.packets = c.packets
  pending : ∀ tid p, h.ep.pending[tid]? = some p → Assembles log me tid p ∧ RawRequest p
  responses : ∀ tid u d, .response tid u d ∈ h.emitted → Assembled log me tid u d

/-- A host that moves on: it is still sound, and what it queued is genuine. -/
structure AtpHost.Moves (log : AtpAnswer → Prop) (me : ServiceAddress) (h h' : AtpHost) :
    Prop where
  sound : h'.Sound log me
  fresh : ∀ p ∈ h'.ep.outbox, p ∈ h.ep.outbox ∨ AnswerPacket log p.1 p.2

/-- The condition on a call: requests ask for all eight packets. -/
def AtpCall.AsksAll : AtpCall → Prop
  | .request _ _ _ bitmap _ => bitmap = 0xFF
  | _ => True

instance : ∀ c : AtpCall, Decidable c.AsksAll
  | .request _ _ _ bitmap _ => inferInstanceAs (Decidable (bitmap = 0xFF))
  | .sendAlo .. | .respond .. | .respondPackets .. | .poll _ | .pollEvent =>
    inferInstanceAs (Decidable True)

namespace AtpHost
variable {log log' : AtpAnswer → Prop} {me : ServiceAddress} {h h' : AtpHost}

theorem Sound.mono (hs : h.Sound log me) (hl : ∀ a, log a → log' a) : h.Sound log' me := by
  refine ⟨hs.cache, ?_, ?_⟩
  · intro tid p hp
    exact ⟨(hs.pending tid p hp).1.mono hl, (hs.pending tid p hp).2⟩
  · intro tid u d hmem
    exact (hs.responses tid u d hmem).mono hl

theorem sound_new (localSocket : UInt8) : (AtpHost.new localSocket).Sound log me := by
  refine ⟨nofun, ?_, nofun⟩
  intro tid p hp
  simp [AtpHost.new, AtpEndpoint.new] at hp

/-- Nothing but the queues changes, and only by taking from them. -/
theorem Moves.of_same (hs : h.Sound log me) (hc : h'.ep.replyCache ⊆ h.ep.replyCache)
    (ha : h'.answered = h.answered) (hp : h'.ep.pending = h.ep.pending)
    (he : h'.emitted = h.emitted)
    (ho : ∀ p ∈ h'.ep.outbox, p ∈ h.ep.outbox ∨ AnswerPacket log p.1 p.2) :
    Moves log me h h' := by
  refine ⟨⟨?_, ?_, ?_⟩, ho⟩
  · intro c hmem
    rw [ha]; exact hs.cache c (hc hmem)
  · rw [hp]; exact hs.pending
  · rw [he]; exact hs.responses

theorem mem_push {ep : AtpEndpoint} {dest : ServiceAddress} {payloads : List Bytes}
    {p : ServiceAddress × Bytes} (hp : p ∈ (ep.push dest payloads).outbox) :
    p ∈ ep.outbox ∨ p.1 = dest ∧ p.2 ∈ payloads := by
  rcases List.mem_append.1 hp with hp | hp
  · exact Or.inl hp
  · obtain ⟨body, hb, rfl⟩ := List.mem_map.1 hp
    exact Or.inr ⟨rfl, hb⟩

theorem moves_answer (hs : h.Sound log me) {c : AtpCall} {a : AtpAnswer} {now : Micros}
    (hc : c.answer = some (a, now)) (hlog : log a) : Moves log me h (h.call c) := by
  rw [call_answer hc]
  refine ⟨⟨?_, hs.pending, hs.responses⟩, ?_⟩
  · intro e he
    rcases List.mem_append.1 he with he | he
    · have hmem : e ∈ h.ep.replyCache := by
        split_ifs at he
        · exact List.mem_of_mem_tail he
        · exact he
      obtain ⟨b, hb, hrest⟩ := hs.cache e hmem
      exact ⟨b, List.mem_append_left _ hb, hrest⟩
    · obtain rfl := List.mem_singleton.1 he
      exact ⟨a, by simp, rfl, rfl⟩
  · intro p hp
    rcases mem_push hp with hp | ⟨hd, hb⟩
    · exact Or.inl hp
    · rw [hd]; exact Or.inr (answerPacket_packets hlog hb)

theorem mem_due {ep : AtpEndpoint} {now : Micros} {p : UInt16 × PendingRequest}
    (hp : p ∈ ep.due now) : ep.pending[p.1]? = some p.2 :=
  Std.TreeMap.mem_toList_iff_getElem?_eq_some.1 (List.mem_of_mem_filter hp)

theorem moves_call (hs : h.Sound log me) {c : AtpCall} (hok : c.AsksAll)
    (hlog : ∀ a ∈ (h.call c).answered, log a) : Moves log me h (h.call c) := by
  cases c with
  | request dest userBytes data bitmap now =>
    obtain rfl : bitmap = 0xFF := hok
    rcases hr : h.ep.request dest userBytes data 0xFF now with _ | ⟨tid, ep⟩
    · simp only [call, hr]
      exact ⟨hs, fun p hp => Or.inl hp⟩
    simp only [call, hr]
    obtain ⟨nextTid, rfl⟩ := AtpEndpoint.request_eq hr
    refine ⟨⟨hs.cache, ?_, hs.responses⟩, ?_⟩
    · intro t p hp
      dsimp only at hp
      rw [getElem?_insert_eq] at hp
      split_ifs at hp
      · obtain rfl := Option.some.inj hp
        exact ⟨Assembles.newRequest _ _ _, fun _ _ => answerPacket_requestBytes _ _ _ _ _⟩
      · exact hs.pending t p hp
    · intro p hp
      rcases mem_push hp with hp | ⟨-, hb⟩
      · exact Or.inl hp
      · rw [List.mem_singleton.1 hb]; exact Or.inr (answerPacket_requestBytes _ _ _ _ _)
  | sendAlo dest userBytes =>
    rcases hr : h.ep.sendAlo dest userBytes with _ | ep
    · simp only [call, hr]
      exact ⟨hs, fun p hp => Or.inl hp⟩
    simp only [call, hr]
    obtain ⟨tid, nextTid, rfl⟩ := AtpEndpoint.sendAlo_eq hr
    refine .of_same hs (List.Subset.refl _) rfl rfl rfl fun p hp => ?_
    rcases mem_push hp with hp | ⟨-, hb⟩
    · exact Or.inl hp
    · rw [List.mem_singleton.1 hb]; exact Or.inr (answerPacket_requestBytes _ _ _ _ _)
  | respond source tid userBytes data chunkSize now =>
    exact moves_answer hs rfl (hlog _ (List.mem_append_right _ (List.mem_singleton_self _)))
  | respondPackets source tid chunks now =>
    exact moves_answer hs rfl (hlog _ (List.mem_append_right _ (List.mem_singleton_self _)))
  | poll now =>
    refine ⟨⟨?_, ?_, ?_⟩, ?_⟩
    · intro c hc
      exact hs.cache c (List.mem_of_mem_filter hc)
    · intro t p hp
      simp only [call, AtpEndpoint.poll] at hp
      rw [Std.TreeMap.getElem?_filterMap', Option.bind_eq_some_iff] at hp
      obtain ⟨q, hq, ht⟩ := hp
      obtain ⟨hasm, hraw⟩ := hs.pending t q hq
      refine ⟨hasm.tick ht, ?_⟩
      unfold PendingRequest.tick at ht
      split_ifs at ht
      · obtain rfl := Option.some.inj ht; exact hraw
      · obtain rfl := Option.some.inj ht; exact hraw
    · intro t u d hmem
      simp only [emitted, call, AtpEndpoint.poll] at hmem
      rcases List.mem_append.1 hmem with hmem | hmem
      · exact hs.responses t u d (List.mem_append_left _ hmem)
      rcases List.mem_append.1 hmem with hmem | hmem
      · exact hs.responses t u d (List.mem_append_right _ hmem)
      · obtain ⟨p, -, hp⟩ := List.mem_map.1 hmem
        cases hp
    · intro p hp
      rcases List.mem_append.1 hp with hp | hp
      · exact Or.inl hp
      · obtain ⟨q, hq, rfl⟩ := List.mem_map.1 hp
        exact Or.inr ((hs.pending _ _ (mem_due (List.mem_of_mem_filter hq))).2 _ _)
  | pollEvent =>
    exact .of_same hs (List.Subset.refl _) rfl rfl (emitted_pollEvent h) fun p hp => Or.inl hp

theorem moves_request (hs : h.Sound log me) (hown : ∀ a ∈ h.answered, log a)
    (src : ServiceAddress) (packet : AtpPacket) (data : Bytes) :
    Moves log me h { h with ep := h.ep.handleRequest src packet data } := by
  have hask := asked_handleRequest h src packet data
  generalize h.ep.handleRequest src packet data = ep at hask ⊢
  -- the event is no response
  have hevent : ∀ tid u d, AtpEvent.response tid u d ∈
      h.drained ++ (h.ep.events ++ [AtpEndpoint.requestEvent src packet data]) →
        Assembled log me tid u d := by
    intro tid u d hmem
    rw [← List.append_assoc] at hmem
    rcases List.mem_append.1 hmem with hmem | hmem
    · exact hs.responses tid u d hmem
    · cases List.mem_singleton.1 hmem
  cases hask with
  | replayed c hc =>
    refine .of_same hs (List.Subset.refl _) rfl rfl rfl fun p hp => ?_
    rcases mem_push hp with hp | ⟨hd, hb⟩
    · exact Or.inl hp
    · obtain ⟨a, ha, hsrc, hpk⟩ := hs.cache c (List.mem_of_find?_eq_some hc)
      have hkey := List.find?_some hc
      simp only [decide_eq_true_eq] at hkey
      rw [← hpk] at hb
      rw [hd, ← hkey.1, ← hsrc]
      exact Or.inr (answerPacket_packets (hown a ha) hb)
  | inProgress hxo hc hp => exact ⟨hs, fun p hp => Or.inl hp⟩
  | delivered hxo hc hp =>
    exact ⟨⟨hs.cache, hs.pending, hevent⟩, fun p hp => Or.inl hp⟩
  | atLeastOnce hxo hc =>
    exact ⟨⟨hs.cache, hs.pending, hevent⟩, fun p hp => Or.inl hp⟩

/-- **What a genuine datagram does.** -/
theorem moves_recv (hs : h.Sound log me) (hown : ∀ a ∈ h.answered, log a) {body : Bytes}
    (hg : AnswerPacket log me body) (src : ServiceAddress) (now : Micros) :
    Moves log me h (h.recv src body now) := by
  rcases hp : AtpPacket.parse body with err | packet
  · simp only [recv, AtpEndpoint.handleDatagram, hp]
    exact ⟨hs, fun p hp => Or.inl hp⟩
  cases hf : packet.function with
  | request =>
    rw [recv_request hp hf]
    exact moves_request hs hown src packet _
  | response =>
    obtain ⟨a, ha, hsrc, i, hpiece⟩ := hg packet hp hf
    have hans : AnswerTo log me packet.tid a := ⟨ha, hsrc, hpiece.tid.symm⟩
    simp only [recv, AtpEndpoint.handleDatagram, hp, hf, AtpEndpoint.handleResponse]
    rcases hpend : h.ep.pending[packet.tid]? with _ | p
    · exact ⟨hs, fun p hp => Or.inl hp⟩
    obtain ⟨hasm, hraw⟩ := hs.pending _ _ hpend
    have hrecv := hasm.receive hans hpiece
    -- the other transactions stay as they are
    have hrest : ∀ tid q, (h.ep.pending.erase packet.tid)[tid]? = some q →
        Assembles log me tid q ∧ RawRequest q := by
      intro tid q hq
      rw [getElem?_erase_eq] at hq
      split_ifs at hq
      exact hs.pending tid q hq
    dsimp only
    split_ifs with hcomplete
    · rcases hfull : (p.receive packet (body.drop AtpPacket.HEADER_LEN)).assemble with _ | full
      · exact ⟨⟨hs.cache, hrest, hs.responses⟩, fun p hp => Or.inl hp⟩
      refine ⟨⟨hs.cache, hrest, ?_⟩, ?_⟩
      · intro tid u d hmem
        simp only [emitted, AtpEndpoint.emit, AtpEndpoint.push, ← List.append_assoc] at hmem
        rcases List.mem_append.1 hmem with hmem | hmem
        · exact hs.responses tid u d hmem
        · cases List.mem_singleton.1 hmem
          exact ⟨_, hrecv, hcomplete, rfl, hfull⟩
      · intro q hq
        rcases mem_push hq with hq | ⟨-, hb⟩
        · exact Or.inl hq
        · rw [List.mem_singleton.1 hb]; exact Or.inr (answerPacket_releaseBytes _)
    · refine ⟨⟨hs.cache, ?_, hs.responses⟩, fun p hp => Or.inl hp⟩
      intro tid q hq
      dsimp only at hq
      rw [getElem?_insert_eq] at hq
      split_ifs at hq with htid
      · obtain rfl := Option.some.inj hq
        exact htid ▸ ⟨hrecv, hraw⟩
      · exact hs.pending tid q hq
  | release =>
    simp only [recv, AtpEndpoint.handleDatagram, hp, hf]
    exact .of_same hs (fun c hc => List.mem_of_mem_filter hc) rfl rfl rfl fun p hp => Or.inl hp

end AtpHost

/-! ## The network -/

section
variable {ι : Type} [DecidableEq ι] {addr : ι → ServiceAddress}

/-- Some host gave the answer. -/
def Answered (hosts : ι → AtpHost) (a : AtpAnswer) : Prop := ∃ j, a ∈ (hosts j).answered

/-- The condition on a step: requests ask for all eight packets. -/
def AsksAll (_ : AtpNet ι) : Net.Act AtpCall ι → Prop
  | .call _ c => c.AsksAll
  | _ => True

instance (s : AtpNet ι) : ∀ a, Decidable (AsksAll s a)
  | .call _ c => inferInstanceAs (Decidable c.AsksAll)
  | .transmit _ | .deliver .. | .drop _ => inferInstanceAs (Decidable True)

/-- Every host is sound and every datagram genuine. -/
def IntegrityInv (addr : ι → ServiceAddress) : AtpNet ι → Prop :=
  Net.Inv atpParty addr (fun hosts => ∀ i, (hosts i).Sound (Answered hosts) (addr i))
    (fun hosts f => AnswerPacket (Answered hosts) f.dst f.body)

theorem answered_update {hosts : ι → AtpHost} {i : ι} {t : AtpHost}
    (ht : ∀ a ∈ (hosts i).answered, a ∈ t.answered) (a : AtpAnswer) (ha : Answered hosts a) :
    Answered (Function.update hosts i t) a := by
  obtain ⟨j, hj⟩ := ha
  refine ⟨j, ?_⟩
  by_cases h : j = i
  · subst h; rw [Function.update_self]; exact ht a hj
  · rw [Function.update_of_ne h]; exact hj

theorem AtpHost.Moves.keeps {s : AtpNet ι} {i : ι} {t : AtpHost} (h : IntegrityInv addr s)
    (ht : ∀ a ∈ (s.host i).answered, a ∈ t.answered)
    (hm : AtpHost.Moves (Answered (Function.update s.host i t)) (addr i) (s.host i) t) :
    Net.Keeps atpParty addr (fun hosts => ∀ i, (hosts i).Sound (Answered hosts) (addr i))
      (fun hosts f => AnswerPacket (Answered hosts) f.dst f.body) s i t := by
  refine ⟨?_, ?_, ?_⟩
  · intro j
    by_cases hj : j = i
    · subst hj; rw [Function.update_self]; exact hm.sound
    · rw [Function.update_of_ne hj]
      exact (h.hosts j).mono (answered_update ht)
  · intro f _ hg
    exact hg.mono (answered_update ht)
  · intro p hp
    exact hm.fresh p hp

omit [DecidableEq ι] in
theorem integrity_start : IntegrityInv addr (atpStart addr) := by
  refine ⟨fun i => AtpHost.sound_new _, ?_⟩
  rintro f (hf | ⟨i, -, hf⟩)
  · cases hf
  · cases hf

theorem integrity_run {s : AtpNet ι} {as : List (Net.Act AtpCall ι)} (h : IntegrityInv addr s)
    (hok : Along (Net.step atpParty addr) AsksAll s as) : IntegrityInv addr (atpRun addr s as) := by
  refine Net.inv_run_net ?_ ?_ ?_ h hok
  · intro s i c h hok
    have hlog := answered_update (AtpHost.answered_call (s.host i) c)
    refine AtpHost.Moves.keeps h (AtpHost.answered_call _ c)
      (AtpHost.moves_call ((h.hosts i).mono hlog) hok ?_)
    intro a ha
    exact ⟨i, by rw [Function.update_self]; exact ha⟩
  · intro s i n f now h hf hd _
    have hlog : ∀ a, Answered s.host a →
        Answered (Function.update s.host i ((s.host i).recv f.src f.body now)) a :=
      answered_update fun a ha => ha
    have hg : AnswerPacket (Answered s.host) f.dst f.body :=
      h.known f (Or.inl (List.mem_of_getElem? hf))
    rw [hd] at hg
    refine AtpHost.Moves.keeps h (fun a ha => ha)
      (AtpHost.moves_recv ((h.hosts i).mono hlog) ?_ (hg.mono hlog) f.src now)
    intro a ha
    exact hlog a ⟨i, ha⟩
  · intro s i h
    have hlog : ∀ a, Answered s.host a →
        Answered (Function.update s.host i (s.host i).transmit.2) a :=
      answered_update fun a ha => ha
    exact AtpHost.Moves.keeps h (fun a ha => ha)
      (.of_same ((h.hosts i).mono hlog) (List.Subset.refl _) rfl rfl
        (AtpHost.emitted_transmit _) fun p hp => Or.inl (List.mem_of_mem_tail hp))

/-- **Responses arrive intact.** Let hosts that start fresh ask for all eight packets. If every
    answer given for the transaction of a response event was `respond` with the same user bytes,
    data and chunk size, and the data fits in eight packets, then the event carries exactly these.
    -/
theorem response_intact {as : List (Net.Act AtpCall ι)}
    (hok : Along (Net.step atpParty addr) AsksAll (atpStart addr) as) {i : ι} {handle : UInt16}
    {u userBytes : UserBytes} {d data : Bytes} {chunkSize : ℕ}
    (hresponse : .response handle u d ∈ ((atpRun addr (atpStart addr) as).host i).emitted)
    (hfit : data.length ≤ 8 * max chunkSize 1)
    (hsame : ∀ j, ∀ a ∈ ((atpRun addr (atpStart addr) as).host j).answered,
      a.source = addr i → a.tid = handle → a.chunks = AtpEndpoint.split userBytes data chunkSize) :
    u = userBytes ∧ d = data := by
  have hinv := integrity_run integrity_start hok
  refine ((hinv.hosts i).responses _ _ _ hresponse).eq hfit ?_
  rintro a ⟨⟨j, ha⟩, hs, ht⟩
  exact hsame j a ha hs ht

/-- A response of two packets that arrive in the wrong order, one of them twice. -/
def reorderedRun : List (Net.Act AtpCall Bool) :=
  [.call true (.request (atpAddr false) (.replicate 4 0) [9] 0xFF 0), .transmit true,
    .deliver false 0 0, .call false (.respond (atpAddr true) 1 #v[5, 6, 7, 8] [1, 2, 3] 2 0),
    .transmit false, .transmit false, .deliver true 2 1, .deliver true 2 2, .deliver true 1 3]

theorem response_intact_reorderedRun :
    Along (Net.step atpParty atpAddr) AsksAll (atpStart atpAddr) reorderedRun ∧
    ∃ u d, .response 1 u d ∈ ((atpRun atpAddr (atpStart atpAddr) reorderedRun).host true).emitted ∧
      u = #v[5, 6, 7, 8] ∧ d = [1, 2, 3] := by
  have hok : Along (Net.step atpParty atpAddr) AsksAll (atpStart atpAddr) reorderedRun := by decide
  have hresponse : .response 1 #v[5, 6, 7, 8] [1, 2, 3] ∈
      ((atpRun atpAddr (atpStart atpAddr) reorderedRun).host true).emitted := by decide
  have hsame : ∀ j, ∀ a ∈ ((atpRun atpAddr (atpStart atpAddr) reorderedRun).host j).answered,
      a.source = atpAddr true → a.tid = 1 →
        a.chunks = AtpEndpoint.split #v[5, 6, 7, 8] [1, 2, 3] 2 := by
    intro j
    cases j <;> decide
  exact ⟨hok, _, _, hresponse, response_intact hok hresponse (by decide) hsame⟩

/-- The first answer expires before a copy of the request arrives, which is answered differently. -/
def expiredRun : List (Net.Act AtpCall Bool) :=
  [.call true (.request (atpAddr false) (.replicate 4 0) [9] 0xFF 0), .transmit true,
    .deliver false 0 0, .call false (.respond (atpAddr true) 1 (.replicate 4 0) [1, 2] 1 0),
    .transmit false, .transmit false, .call false (.poll 30000000), .deliver false 0 30000001,
    .call false (.respond (atpAddr true) 1 (.replicate 4 0) [3, 4] 1 30000002),
    .transmit false, .transmit false, .deliver true 1 30000003, .deliver true 4 30000004]

/-- Each of the two request events is answered once, and the response is
    neither answer. -/
theorem expiredRun_mixes :
    Along (Net.step atpParty atpAddr) AsksAll (atpStart atpAddr) expiredRun ∧
    ((atpRun atpAddr (atpStart atpAddr) expiredRun).host true).handles = [1] ∧
    ((atpRun atpAddr (atpStart atpAddr) expiredRun).host false).emitted =
      [.request (atpAddr true) 1 (.replicate 4 0) [9] 0xFF true,
        .request (atpAddr true) 1 (.replicate 4 0) [9] 0xFF true] ∧
    ((atpRun atpAddr (atpStart atpAddr) expiredRun).host false).answered =
      [⟨atpAddr true, 1, AtpEndpoint.split (.replicate 4 0) [1, 2] 1⟩,
        ⟨atpAddr true, 1, AtpEndpoint.split (.replicate 4 0) [3, 4] 1⟩] ∧
    ((atpRun atpAddr (atpStart atpAddr) expiredRun).host true).emitted =
      [.response 1 (.replicate 4 0) [1, 4]] := by
  refine ⟨?_, ?_, ?_, ?_, ?_⟩ <;> decide

end

end TailTalk
