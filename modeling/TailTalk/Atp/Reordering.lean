/-
  In which order the packets of a response arrive.

  The data comes in sequence order whatever the order of arrival.  The user
  bytes do not: those of the packet that arrives first are taken.
-/
import TailTalk.Atp.Endpoint
import TailTalk.Lib.Run

namespace TailTalk

open Lib

/-- The datagram is number `i` of the packets of a response. -/
def PacketOf (tid : UInt16) (parts : List (UserBytes × Bytes)) (i : ℕ) (payload : Bytes) : Prop :=
  ∃ packet, AtpPacket.parse payload = .ok packet ∧ packet.function = .response ∧
    packet.tid = tid ∧ packet.bitmapSeqNum = UInt8.ofNat i ∧
    parts[i]? = some (packet.userBytes, payload.drop AtpPacket.HEADER_LEN) ∧
    packet.eom = (i == parts.length - 1)

/-- Packets of a response arrive, each of them at least once. -/
structure DeliveryOrder (tid : UInt16) (parts : List (UserBytes × Bytes))
    (order : List (ServiceAddress × Bytes)) : Prop where
  packets : ∀ a ∈ order, ∃ i, PacketOf tid parts i a.2
  all : ∀ i < parts.length, ∃ a ∈ order, PacketOf tid parts i a.2

/-- Datagrams arrive one after the other. -/
def AtpEndpoint.arrivals (ep : AtpEndpoint) (order : List (ServiceAddress × Bytes)) :
    AtpEndpoint := run (fun ep a => ep.handleDatagram a.1 a.2) ep order

/-- The user bytes of the packet that arrives first. -/
def firstUserBytes (order : List (ServiceAddress × Bytes)) : Option UserBytes :=
  order.head?.bind fun a => (AtpPacket.parse a.2).toOption.map (·.userBytes)

/-- The bitmap of a request admits `n` packets; zero means no restriction. -/
def Admits (bitmap : UInt8) (n : ℕ) : Prop :=
  bitmap = 0 ∨ ∀ i < n, bitmap.toNat.testBit i = true

theorem le_countOnes {bitmap : UInt8} {n : ℕ} (hn : n ≤ 8) (h : Admits bitmap n) :
    countOnes bitmap = 0 ∨ n ≤ countOnes bitmap := by
  rcases h with rfl | h
  · exact Or.inl (by decide)
  · right
    have hall : (List.range n).countP (fun i => bitmap.toNat.testBit i) = n := by
      rw [List.countP_eq_length.2 fun i hi => h i (List.mem_range.1 hi), List.length_range]
    rw [← hall, countOnes]
    exact (List.range_sublist.2 hn).countP_le

theorem PacketOf.index_lt {tid : UInt16} {parts : List (UserBytes × Bytes)} {i : ℕ}
    {payload : Bytes} (h : PacketOf tid parts i payload) : i < parts.length := by
  obtain ⟨packet, -, -, -, -, hpart, -⟩ := h
  exact (List.getElem?_eq_some_iff.1 hpart).1

theorem PacketOf.unique {tid : UInt16} {parts : List (UserBytes × Bytes)} {i j : ℕ}
    {payload : Bytes} (hle : parts.length ≤ 8) (hi : PacketOf tid parts i payload)
    (hj : PacketOf tid parts j payload) : i = j := by
  have hi' := hi.index_lt
  have hj' := hj.index_lt
  obtain ⟨packet, hp, -, -, hseq, -, -⟩ := hi
  obtain ⟨packet', hp', -, -, hseq', -, -⟩ := hj
  obtain rfl := Except.ok.inj (hp.symm.trans hp')
  have := congrArg UInt8.toNat (hseq.symm.trans hseq')
  rw [UInt8.toNat_ofNat', UInt8.toNat_ofNat'] at this
  omega

/-! ## What a request holds -/

/-- The request holds the packets numbered in `seen`, and the user bytes `u`
    as soon as there is one. -/
structure Partial (parts : List (UserBytes × Bytes)) (u : UserBytes) (seen : Finset ℕ)
    (p : PendingRequest) : Prop where
  bits : Admits p.requestedBitmap parts.length
  sub : seen ⊆ Finset.range parts.length
  received : ∀ k : UInt8, p.received[k]? =
    if k.toNat ∈ seen then parts[k.toNat]?.map Prod.snd else none
  userBytes : p.userBytes = if seen = ∅ then none else some u
  eom : p.eomSeq =
    if parts.length - 1 ∈ seen then some (UInt8.ofNat (parts.length - 1)) else none

section
variable {parts : List (UserBytes × Bytes)} {u : UserBytes} {seen : Finset ℕ}
  {p : PendingRequest}

theorem partial_newRequest {bitmap : UInt8} (hbits : Admits bitmap parts.length) (u : UserBytes)
    (dest : ServiceAddress) (raw : Bytes) (now : Micros) :
    Partial parts u ∅ (AtpEndpoint.newRequest dest raw bitmap now) :=
  ⟨hbits, Finset.empty_subset _, fun k => by simp [AtpEndpoint.newRequest], rfl, rfl⟩

theorem Partial.receive (h : Partial parts u seen p) (hle : parts.length ≤ 8) {i : ℕ}
    {packet : AtpPacket} {data : Bytes} (hseq : packet.bitmapSeqNum = UInt8.ofNat i)
    (hpart : parts[i]? = some (packet.userBytes, data))
    (heom : packet.eom = (i == parts.length - 1))
    (hu : seen = ∅ → packet.userBytes = u) :
    Partial parts u (insert i seen) (p.receive packet data) := by
  have hi := (List.getElem?_eq_some_iff.1 hpart).1
  have hnat : (UInt8.ofNat i).toNat = i := by rw [UInt8.toNat_ofNat']; omega
  refine ⟨h.bits, ?_, ?_, ?_, ?_⟩
  · exact Finset.insert_subset (Finset.mem_range.2 hi) h.sub
  · intro k
    simp only [PendingRequest.receive, getElem?_insert_eq, hseq]
    by_cases hk : k = UInt8.ofNat i
    · subst hk
      simp [hnat, hpart]
    · have hne : k.toNat ≠ i := by
        rintro rfl
        exact hk (UInt8.ofNat_toNat).symm
      rw [if_neg hk, h.received]
      simp [hne]
  · simp only [PendingRequest.receive, h.userBytes]
    by_cases hempty : seen = ∅
    · simp [hempty, hu hempty]
    · simp [hempty]
  · simp only [PendingRequest.receive, heom, h.eom, Finset.mem_insert, hseq]
    by_cases hlast : i = parts.length - 1
    · simp [hlast]
    · simp [hlast, Ne.symm hlast]

theorem Partial.size_lt (h : Partial parts u seen p) (hle : parts.length ≤ 8)
    (hlast : parts.length - 1 ∉ seen) (hne : seen.Nonempty) :
    p.received.size < parts.length := by
  have hkeys : p.received.keys ⊆ (List.range (parts.length - 1)).map UInt8.ofNat := by
    intro k hk
    obtain ⟨d, hd⟩ := (contains_iff_getElem? p.received k).1
      (Std.TreeMap.mem_iff_contains.1 (Std.TreeMap.mem_keys.1 hk))
    rw [h.received] at hd
    split_ifs at hd with hseen
    have hlt := Finset.mem_range.1 (h.sub hseen)
    have hneq : k.toNat ≠ parts.length - 1 := by
      intro heq
      exact hlast (heq ▸ hseen)
    exact List.mem_map.2 ⟨k.toNat, List.mem_range.2 (by omega), UInt8.ofNat_toNat⟩
  have hlen := List.Nodup.length_le_of_subset Std.TreeMap.nodup_keys hkeys
  rw [Std.TreeMap.length_keys, List.length_map, List.length_range] at hlen
  obtain ⟨i, hi⟩ := hne
  have := Finset.mem_range.1 (h.sub hi)
  omega

/-- **A request is complete exactly with all packets.** -/
theorem Partial.complete_iff (h : Partial parts u seen p) (hle : parts.length ≤ 8)
    (hne : seen.Nonempty) :
    p.complete = true ↔ seen = Finset.range parts.length := by
  have hpos : 0 < parts.length := by
    obtain ⟨i, hi⟩ := hne
    exact Nat.zero_lt_of_lt (Finset.mem_range.1 (h.sub hi))
  have hcontains : ∀ i < parts.length,
      p.received.contains (UInt8.ofNat i) = true ↔ i ∈ seen := by
    intro i hi
    have hnat : (UInt8.ofNat i).toNat = i := by rw [UInt8.toNat_ofNat']; omega
    rw [Std.TreeMap.contains_eq_isSome_getElem?, h.received, hnat]
    by_cases hseen : i ∈ seen <;> simp [hseen, hi]
  by_cases hlast : parts.length - 1 ∈ seen
  · have hnat : (UInt8.ofNat (parts.length - 1)).toNat + 1 = parts.length := by
      rw [UInt8.toNat_ofNat']; omega
    simp only [PendingRequest.complete, h.eom, if_pos hlast, hnat, List.all_eq_true,
      List.mem_range]
    constructor
    · intro hall
      refine Finset.Subset.antisymm h.sub fun i hi => ?_
      exact (hcontains i (Finset.mem_range.1 hi)).1 (hall i (Finset.mem_range.1 hi))
    · rintro rfl i hi
      exact (hcontains i hi).2 (Finset.mem_range.2 hi)
  · -- Without the last packet there are neither none nor as many as asked for.
    refine iff_of_false ?_ fun heq => hlast (heq ▸ Finset.mem_range.2 (by omega))
    simp only [PendingRequest.complete, h.eom, if_neg hlast, Bool.and_eq_true, Bool.not_eq_true',
      beq_iff_eq, Std.TreeMap.isEmpty_eq_size_eq_zero, beq_eq_false_iff_ne]
    rintro ⟨hsome, hsize⟩
    have hlt := h.size_lt hle hlast hne
    rcases le_countOnes hle h.bits with hzero | hcount <;> omega

theorem Partial.assemble (h : Partial parts u (Finset.range parts.length) p)
    (hle : parts.length ≤ 8) (hpos : 0 < parts.length) :
    p.assemble = some (parts.map Prod.snd).flatten := by
  have hexpected : p.expected = (parts.map Prod.snd).length := by
    have hmem : parts.length - 1 ∈ Finset.range parts.length :=
      Finset.mem_range.2 (by omega)
    have hnat : (UInt8.ofNat (parts.length - 1)).toNat + 1 = parts.length := by
      rw [UInt8.toNat_ofNat']; omega
    simp only [PendingRequest.expected, h.eom, if_pos hmem, hnat, List.length_map]
    omega
  have hread : (List.range (parts.map Prod.snd).length).mapM
      (fun i => p.received[UInt8.ofNat i]?) = some (parts.map Prod.snd) := by
    refine mapM_range_eq _ _ fun i x hx => ?_
    have hi := (List.getElem?_eq_some_iff.1 hx).1
    rw [List.length_map] at hi
    have hnat : (UInt8.ofNat i).toNat = i := by rw [UInt8.toNat_ofNat']; omega
    rw [h.received, hnat, if_pos (Finset.mem_range.2 hi), ← List.getElem?_map, hx]
  rw [PendingRequest.assemble, hexpected, hread]
  rfl

end

/-! ## Arrivals -/

/-- The response event of a request, with the user bytes `u`. -/
def responseEvent (tid : UInt16) (u : UserBytes) (parts : List (UserBytes × Bytes)) : AtpEvent :=
  .response tid u (parts.map Prod.snd).flatten

section
variable {tid : UInt16} {parts : List (UserBytes × Bytes)} {u : UserBytes} {seen : Finset ℕ}

theorem arrive_packet {ep : AtpEndpoint} {p : PendingRequest} {i : ℕ}
    (hp : ep.pending[tid]? = some p) (h : Partial parts u seen p) (hle : parts.length ≤ 8)
    (src : ServiceAddress) {payload : Bytes} (hpacket : PacketOf tid parts i payload)
    (hu : seen = ∅ → firstUserBytes [(src, payload)] = some u) :
    let ep' := ep.handleDatagram src payload
    (insert i seen = Finset.range parts.length ∧ ep'.pending[tid]? = none ∧
      ep'.events = ep.events ++ [responseEvent tid u parts]) ∨
    (insert i seen ≠ Finset.range parts.length ∧ ep'.events = ep.events ∧
      ∃ p', ep'.pending[tid]? = some p' ∧ Partial parts u (insert i seen) p') := by
  have hi := hpacket.index_lt
  obtain ⟨packet, hparse, hf, rfl, hseq, hpart, heom⟩ := hpacket
  have hfirst : seen = ∅ → packet.userBytes = u := by
    intro hempty
    simpa [firstUserBytes, hparse, Except.toOption] using hu hempty
  have hreceive := h.receive hle hseq hpart heom hfirst
  have hcomplete := hreceive.complete_iff hle (Finset.insert_nonempty i seen)
  have huser := hreceive.userBytes
  rw [if_neg (Finset.insert_ne_empty i seen)] at huser
  simp only [AtpEndpoint.handleDatagram, hparse, hf, AtpEndpoint.handleResponse, hp]
  by_cases hall : insert i seen = Finset.range parts.length
  · left
    rw [if_pos (hcomplete.2 hall)]
    have hassemble := (hall ▸ hreceive).assemble hle (by omega)
    simp only [hassemble, huser, Option.getD_some]
    refine ⟨hall, ?_, rfl⟩
    simp [AtpEndpoint.emit, AtpEndpoint.push]
  · right
    rw [if_neg (mt hcomplete.1 hall)]
    exact ⟨hall, rfl, _, by simp, hreceive⟩

theorem arrivals_answered {order : List (ServiceAddress × Bytes)} :
    ∀ {ep : AtpEndpoint}, ep.pending[tid]? = none →
      (∀ a ∈ order, ∃ i, PacketOf tid parts i a.2) → ep.arrivals order = ep := by
  induction order with
  | nil =>
    intro ep _ _
    rfl
  | cons a order ih =>
    intro ep hnone hpackets
    obtain ⟨i, packet, hparse, hf, rfl, -⟩ := hpackets a List.mem_cons_self
    have hsame : ep.handleDatagram a.1 a.2 = ep := by
      simp only [AtpEndpoint.handleDatagram, hparse, hf, AtpEndpoint.handleResponse, hnone]
    rw [AtpEndpoint.arrivals, run_cons, hsame]
    exact ih hnone fun b hb => hpackets b (List.mem_cons_of_mem _ hb)

theorem arrivals_rest (hle : parts.length ≤ 8) {order : List (ServiceAddress × Bytes)} :
    ∀ {ep : AtpEndpoint} {p : PendingRequest} {seen : Finset ℕ}, ep.pending[tid]? = some p →
      Partial parts u seen p → seen ≠ Finset.range parts.length →
      (seen = ∅ → firstUserBytes order = some u) →
      (∀ a ∈ order, ∃ i, PacketOf tid parts i a.2) →
      (∀ i < parts.length, i ∈ seen ∨ ∃ a ∈ order, PacketOf tid parts i a.2) →
      (ep.arrivals order).events = ep.events ++ [responseEvent tid u parts] := by
  induction order with
  | nil =>
    intro ep p seen _ h hmissing _ _ hall
    refine absurd (Finset.Subset.antisymm h.sub fun i hi => ?_) hmissing
    simpa using hall i (Finset.mem_range.1 hi)
  | cons a order ih =>
    intro ep p seen hp h _ hu hpackets hall
    obtain ⟨i, hi⟩ := hpackets a List.mem_cons_self
    have hrest : ∀ b ∈ order, ∃ i, PacketOf tid parts i b.2 := fun b hb =>
      hpackets b (List.mem_cons_of_mem _ hb)
    rw [AtpEndpoint.arrivals, run_cons]
    rcases arrive_packet hp h hle a.1 hi hu with ⟨-, hnone, hevents⟩ |
      ⟨hmissing, hevents, p', hp', h'⟩
    · have hdone := arrivals_answered hnone hrest
      rw [AtpEndpoint.arrivals] at hdone
      rw [hdone, hevents]
    · rw [← hevents]
      refine ih hp' h' hmissing (fun hempty => ?_) hrest fun j hj => ?_
      · exact absurd hempty (Finset.insert_ne_empty i seen)
      · rcases hall j hj with hseen | ⟨b, hb, hbj⟩
        · exact Or.inl (Finset.mem_insert_of_mem hseen)
        rcases List.mem_cons.1 hb with rfl | hb
        · rw [hbj.unique hle hi]
          exact Or.inl (Finset.mem_insert_self i seen)
        · exact Or.inr ⟨b, hb, hbj⟩

end

/-- **One response, with the data in sequence order.**  Its user bytes are those
    of the packet that arrives first. -/
theorem arrivals_events {ep₀ ep : AtpEndpoint} {dest : ServiceAddress} {userBytes : UserBytes}
    {data : Bytes} {bitmap : UInt8} {now : Micros} {tid : UInt16}
    (hr : ep₀.request dest userBytes data bitmap now = some (tid, ep))
    (parts : List (UserBytes × Bytes)) (hpos : 0 < parts.length) (hle : parts.length ≤ 8)
    (hbits : Admits bitmap parts.length) {order : List (ServiceAddress × Bytes)}
    (h : DeliveryOrder tid parts order) : ∃ u, firstUserBytes order = some u ∧
      (ep.arrivals order).events = ep.events ++ [responseEvent tid u parts] := by
  have hpending : ep.pending[tid]? = some (AtpEndpoint.newRequest dest
      (AtpEndpoint.requestBytes true bitmap tid userBytes data) bitmap now) := by
    obtain ⟨nextTid, rfl⟩ := AtpEndpoint.request_eq hr
    simp
  obtain ⟨u, hu⟩ : ∃ u, firstUserBytes order = some u := by
    obtain ⟨a, ha, -⟩ := h.all 0 hpos
    rcases order with _ | ⟨b, order⟩
    · cases ha
    · obtain ⟨i, packet, hparse, -⟩ := h.packets b List.mem_cons_self
      exact ⟨packet.userBytes, by simp [firstUserBytes, hparse, Except.toOption]⟩
  have hmissing : (∅ : Finset ℕ) ≠ Finset.range parts.length := by
    intro heq
    have := Finset.mem_range.2 hpos
    rw [← heq] at this
    cases this
  refine ⟨u, hu, ?_⟩
  exact arrivals_rest hle hpending (partial_newRequest hbits u _ _ _) hmissing (fun _ => hu)
    h.packets fun i hi => Or.inr (h.all i hi)

/-- **When the order of arrival does not matter.** Two orders in which all packets of a response
    arrive both report the one response, with the user bytes of packet 0, exactly if in both the
    packet that arrives first carries these user bytes. -/
theorem same_response_iff (ep₀ ep : AtpEndpoint) (dest : ServiceAddress) (userBytes : UserBytes)
    (data : Bytes) (bitmap : UInt8) (now : Micros) (tid : UInt16)
    (hr : ep₀.request dest userBytes data bitmap now = some (tid, ep))
    (part : UserBytes × Bytes) (rest : List (UserBytes × Bytes)) (hle : rest.length < 8)
    (hbits : Admits bitmap (part :: rest).length) (xs ys : List (ServiceAddress × Bytes))
    (hxs : DeliveryOrder tid (part :: rest) xs) (hys : DeliveryOrder tid (part :: rest) ys) :
    ((ep.arrivals xs).events = ep.events ++ [responseEvent tid part.1 (part :: rest)] ∧
      (ep.arrivals ys).events = ep.events ++ [responseEvent tid part.1 (part :: rest)]) ↔
    firstUserBytes xs = some part.1 ∧ firstUserBytes ys = some part.1 := by
  have hiff : ∀ {order}, DeliveryOrder tid (part :: rest) order →
      ((ep.arrivals order).events = ep.events ++ [responseEvent tid part.1 (part :: rest)] ↔
        firstUserBytes order = some part.1) := by
    intro order horder
    obtain ⟨u, hu, hevents⟩ := arrivals_events hr (part :: rest)
      (Nat.succ_pos _) hle hbits horder
    rw [hu, hevents]
    simp [responseEvent]
  rw [hiff hxs, hiff hys]

/-- Two packets, with different user bytes. -/
def twoParts : List (UserBytes × Bytes) := [(.replicate 4 1, [104]), (.replicate 4 2, [105])]

/-- They arrive from node 1. -/
def twoArrivals (order : List ℕ) : List (ServiceAddress × Bytes) :=
  order.map fun i => (⟨0, 1, 140⟩, AtpEndpoint.responseBytes 1 2 i (twoParts.getD i default))

theorem delivered_twoArrivals {order : List ℕ} (hsub : ∀ i ∈ order, i < 2)
    (hall : ∀ i < 2, i ∈ order) : DeliveryOrder 1 twoParts (twoArrivals order) := by
  have hpacket : ∀ i < 2, PacketOf 1 twoParts i
      (AtpEndpoint.responseBytes 1 2 i (twoParts.getD i default)) := by
    intro i hi
    have hpart : twoParts[i]? = some (twoParts.getD i default) := by
      rw [List.getD_eq_getElem?_getD, List.getElem?_eq_getElem (show i < twoParts.length from hi)]
      rfl
    refine ⟨_, AtpPacket.parse_toBytes _ _, rfl, rfl, rfl, ?_, rfl⟩
    rw [AtpEndpoint.responseBytes, AtpPacket.drop_toBytes]
    exact hpart
  constructor
  · intro a ha
    obtain ⟨i, hi, rfl⟩ := List.mem_map.1 ha
    exact ⟨i, hpacket i (hsub i hi)⟩
  · intro i hi
    exact ⟨_, List.mem_map.2 ⟨i, hall i hi, rfl⟩, hpacket i hi⟩

/-- An endpoint with one request, under the handle 1. -/
def askedPair : AtpEndpoint :=
  ((AtpEndpoint.new 130).request ⟨0, 1, 140⟩ (.replicate 4 0) [] 0x03 0).elim
    (AtpEndpoint.new 130) Prod.snd

theorem same_response_iff_twoArrivals :
    ((askedPair.arrivals (twoArrivals [0, 1])).events =
        askedPair.events ++ [responseEvent 1 (.replicate 4 1) twoParts] ∧
      (askedPair.arrivals (twoArrivals [0, 0, 1, 1])).events =
        askedPair.events ++ [responseEvent 1 (.replicate 4 1) twoParts]) ↔
    firstUserBytes (twoArrivals [0, 1]) = some (.replicate 4 1) ∧
      firstUserBytes (twoArrivals [0, 0, 1, 1]) = some (.replicate 4 1) :=
  same_response_iff (AtpEndpoint.new 130) askedPair ⟨0, 1, 140⟩ (.replicate 4 0) [] 0x03 0 1 rfl
    (.replicate 4 1, [104]) [(.replicate 4 2, [105])] (by decide) (Or.inr (by decide)) _ _
    (delivered_twoArrivals (by decide) (by decide)) (delivered_twoArrivals (by decide) (by decide))

/-- The other way round, the user bytes of packet 1 are reported. -/
theorem twoArrivals_differ :
    DeliveryOrder 1 twoParts (twoArrivals [0, 1]) ∧ DeliveryOrder 1 twoParts (twoArrivals [1, 0]) ∧
    (askedPair.arrivals (twoArrivals [0, 1])).events =
      [.response 1 (.replicate 4 1) [104, 105]] ∧
    (askedPair.arrivals (twoArrivals [1, 0])).events =
      [.response 1 (.replicate 4 2) [104, 105]] :=
  ⟨delivered_twoArrivals (by decide) (by decide), delivered_twoArrivals (by decide) (by decide),
    by decide, by decide⟩

end TailTalk
