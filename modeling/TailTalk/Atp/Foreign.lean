/-
  Whose answer a requestor takes.

  A response finds its request by the transaction number it carries.  So one
  from a node that was not asked is taken as the answer, unless it repeats a
  packet that is there already.
-/
import TailTalk.Atp.Endpoint

namespace TailTalk

open Lib

namespace PendingRequest

/-- The same request, with the same packets received. -/
structure Same (p q : PendingRequest) : Prop where
  dest : q.dest = p.dest
  rawPacket : q.rawPacket = p.rawPacket
  requestedBitmap : q.requestedBitmap = p.requestedBitmap
  received : ∀ seq : UInt8, q.received[seq]? = p.received[seq]?
  userBytes : q.userBytes = p.userBytes
  eomSeq : q.eomSeq = p.eomSeq
  retries : q.retries = p.retries
  retryAt : q.retryAt = p.retryAt

theorem Same.refl (p : PendingRequest) : Same p p :=
  ⟨rfl, rfl, rfl, fun _ => rfl, rfl, rfl, rfl, rfl⟩

/-- The packet is one that was received before. -/
structure Repeats (p : PendingRequest) (packet : AtpPacket) (data : Bytes) : Prop where
  received : p.received[packet.bitmapSeqNum]? = some data
  userBytes : p.userBytes.isSome = true
  eom : packet.eom = true → p.eomSeq = some packet.bitmapSeqNum

variable {p : PendingRequest} {packet : AtpPacket} {data : Bytes}

theorem same_receive_iff : Same p (p.receive packet data) ↔ p.Repeats packet data := by
  constructor
  · intro h
    have hreceived := h.received packet.bitmapSeqNum
    have huser := h.userBytes
    have heom := h.eomSeq
    simp only [receive, getElem?_insert_eq, if_true] at hreceived huser heom
    refine ⟨hreceived.symm, ?_, ?_⟩
    · rw [← huser]; rfl
    · intro he
      rw [if_pos he] at heom
      exact heom.symm
  · rintro ⟨hreceived, huser, heom⟩
    refine ⟨rfl, rfl, rfl, ?_, ?_, ?_, rfl, rfl⟩
    · intro seq
      simp only [receive, getElem?_insert_eq]
      split_ifs with hseq
      · rw [hseq, hreceived]
      · rfl
    · obtain ⟨u, hu⟩ := Option.isSome_iff_exists.1 huser
      simp only [receive, hu, Option.getD_some]
    · simp only [receive]
      split_ifs with he
      · exact (heom he).symm
      · rfl

theorem Repeats.complete (h : p.Repeats packet data) :
    (p.receive packet data).complete = p.complete := by
  have hmem : p.received.contains packet.bitmapSeqNum = true :=
    (contains_iff_getElem? _ _).2 ⟨data, h.received⟩
  have heom := (same_receive_iff.2 h).eomSeq
  have hcontains : ∀ k, (p.received.insert packet.bitmapSeqNum data).contains k =
      p.received.contains k := by
    intro k
    have hk := (same_receive_iff.2 h).received k
    simp only [receive] at hk
    rw [Std.TreeMap.contains_eq_isSome_getElem?, Std.TreeMap.contains_eq_isSome_getElem?, hk]
  have hempty : p.received.isEmpty = false :=
    Std.TreeMap.isEmpty_eq_false_of_contains hmem
  unfold PendingRequest.complete
  rw [heom]
  simp only [receive, hcontains, Std.TreeMap.isEmpty_insert, Std.TreeMap.size_insert, hmem,
    if_true, hempty]

end PendingRequest

/-- From `ep` to `ep'` no request changed, nothing was reported and nothing was
    sent. -/
structure Undisturbed (ep ep' : AtpEndpoint) : Prop where
  pending : ∀ tid : UInt16,
    Option.Rel PendingRequest.Same ep.pending[tid]? ep'.pending[tid]?
  events : ep'.events = ep.events
  outbox : ep'.outbox = ep.outbox

theorem Undisturbed.refl (ep : AtpEndpoint) : Undisturbed ep ep := by
  refine ⟨fun tid => ?_, rfl, rfl⟩
  rcases ep.pending[tid]? with _ | p
  · exact .none
  · exact .some (.refl p)

/-- No request waits for the response, or it repeats a packet for one that still
    waits for others. -/
def Harmless (ep : AtpEndpoint) (packet : AtpPacket) (data : Bytes) : Prop :=
  ∀ p, ep.pending[packet.tid]? = some p → p.Repeats packet data ∧ p.complete = false

namespace AtpEndpoint

theorem undisturbed_handleResponse_iff (ep : AtpEndpoint) (src : ServiceAddress)
    (packet : AtpPacket) (data : Bytes) :
    Undisturbed ep (ep.handleResponse src packet data) ↔ Harmless ep packet data := by
  unfold handleResponse Harmless
  rcases hp : ep.pending[packet.tid]? with _ | p
  · exact iff_of_true (.refl ep) nofun
  simp only [Option.some.injEq, forall_eq']
  by_cases hcomplete : (p.receive packet data).complete = true
  · rw [if_pos hcomplete]
    refine iff_of_false ?_ ?_
    · -- A complete request leaves the table.
      intro h
      have hgone := h.pending packet.tid
      have herase : (ep.pending.erase packet.tid)[packet.tid]? = none := by
        rw [getElem?_erase_eq, if_pos rfl]
      rw [hp] at hgone
      split at hgone <;> simp only [emit, push, herase] at hgone <;> cases hgone
    · rintro ⟨hrepeats, hwaits⟩
      rw [hrepeats.complete, hwaits] at hcomplete
      cases hcomplete
  · rw [if_neg hcomplete]
    constructor
    · intro h
      have hsame := h.pending packet.tid
      simp only [hp, getElem?_insert_eq, if_true] at hsame
      cases hsame with
      | some hsame =>
        have hrepeats := PendingRequest.same_receive_iff.1 hsame
        refine ⟨hrepeats, ?_⟩
        rw [← hrepeats.complete]
        exact Bool.eq_false_iff.2 hcomplete
    · rintro ⟨hrepeats, -⟩
      refine ⟨fun tid => ?_, rfl, rfl⟩
      simp only [getElem?_insert_eq]
      split_ifs with htid
      · rw [htid, hp]
        exact .some (PendingRequest.same_receive_iff.2 hrepeats)
      · exact (Undisturbed.refl ep).pending tid

theorem mem_handleRelease {ep : AtpEndpoint} {src : ServiceAddress} {tid : UInt16}
    {c : CachedResponse} (hc : c ∈ ep.replyCache) (hsrc : c.source ≠ src) :
    c ∈ (ep.handleRelease src tid).replyCache := by
  refine List.mem_filter.2 ⟨hc, ?_⟩
  simp [hsrc]

end AtpEndpoint

/-- **Whose answer is taken.** A response from a node that was not asked disturbs nothing exactly if
    it is harmless; and a TRel leaves every answer to another node in the cache. -/
theorem foreign_iff_harmless (ep : AtpEndpoint) (src : ServiceAddress) (payload : Bytes)
    (packet : AtpPacket) (hparse : AtpPacket.parse payload = .ok packet) :
    (packet.function = .response →
      (∀ p, ep.pending[packet.tid]? = some p → src ≠ p.dest) →
      (Undisturbed ep (ep.handleDatagram src payload) ↔
        Harmless ep packet (payload.drop AtpPacket.HEADER_LEN))) ∧
    (packet.function = .release → ∀ c ∈ ep.replyCache, c.source ≠ src →
      c ∈ (ep.handleDatagram src payload).replyCache) := by
  unfold AtpEndpoint.handleDatagram
  rw [hparse]
  dsimp only
  constructor
  · intro hf _
    rw [hf]
    exact AtpEndpoint.undisturbed_handleResponse_iff ep src packet _
  · intro hf c hc hsrc
    rw [hf]
    exact AtpEndpoint.mem_handleRelease hc hsrc

/-- Requestor and responder: one request to node 1 in progress, one answer to
    node 2 in the cache. -/
def busyEndpoint : AtpEndpoint :=
  ((((AtpEndpoint.new 130).request ⟨0, 1, 140⟩ (.replicate 4 0) [] 0xFF 0).elim
    (AtpEndpoint.new 130) Prod.snd).respond ⟨0, 2, 150⟩ 7 (.replicate 4 0) [3] 512 0)

/-- The only packet of an answer to the transaction 1. -/
def loneAnswer (data : Bytes) : Bytes :=
  AtpEndpoint.responseBytes 1 1 0 (.replicate 4 0, data)

theorem busyEndpoint_asked : busyEndpoint.pending[(1 : UInt16)]?.map (·.dest) =
    some ⟨0, 1, 140⟩ := by decide

theorem foreign_iff_harmless_busyEndpoint :
    (Undisturbed busyEndpoint (busyEndpoint.handleDatagram ⟨0, 9, 99⟩ (loneAnswer [66])) ↔
      Harmless busyEndpoint ⟨.response, false, true, false, 0, 1, .replicate 4 0⟩
        ((loneAnswer [66]).drop AtpPacket.HEADER_LEN)) ∧
    ∀ c ∈ busyEndpoint.replyCache, c.source ≠ ⟨0, 9, 99⟩ →
      c ∈ (busyEndpoint.handleDatagram ⟨0, 9, 99⟩ (AtpEndpoint.releaseBytes 7)).replyCache := by
  have hforeign : ∀ p, busyEndpoint.pending[(1 : UInt16)]? = some p →
      (⟨0, 9, 99⟩ : ServiceAddress) ≠ p.dest := by
    intro p hp
    have hasked := busyEndpoint_asked
    rw [hp] at hasked
    have hdest : p.dest = ⟨0, 1, 140⟩ := Option.some.inj hasked
    rw [hdest]
    decide
  constructor
  · exact (foreign_iff_harmless busyEndpoint ⟨0, 9, 99⟩ (loneAnswer [66])
      ⟨.response, false, true, false, 0, 1, .replicate 4 0⟩ rfl).1 rfl hforeign
  · exact (foreign_iff_harmless busyEndpoint ⟨0, 9, 99⟩ (AtpEndpoint.releaseBytes 7)
      ⟨.release, false, false, false, 0, 7, .replicate 4 0⟩ rfl).2 rfl

/-- A node that was not asked answers: its data is the response, and it is sent the TRel. -/
theorem busyEndpoint_disturbed :
    busyEndpoint.pending[(1 : UInt16)]?.map (·.dest) = some ⟨0, 1, 140⟩ ∧
    (⟨0, 9, 99⟩ : ServiceAddress) ≠ ⟨0, 1, 140⟩ ∧
    AtpPacket.parse (loneAnswer [66]) =
      .ok ⟨.response, false, true, false, 0, 1, .replicate 4 0⟩ ∧
    (busyEndpoint.handleDatagram ⟨0, 9, 99⟩ (loneAnswer [66])).events =
      busyEndpoint.events ++ [.response 1 (.replicate 4 0) [66]] ∧
    (busyEndpoint.handleDatagram ⟨0, 9, 99⟩ (loneAnswer [66])).outbox =
      busyEndpoint.outbox ++ [(⟨0, 9, 99⟩, AtpEndpoint.releaseBytes 1)] ∧
    (busyEndpoint.handleDatagram ⟨0, 9, 99⟩ (loneAnswer [66])).pending.contains 1 = false ∧
    ¬ Undisturbed busyEndpoint (busyEndpoint.handleDatagram ⟨0, 9, 99⟩ (loneAnswer [66])) := by
  refine ⟨by decide, by decide, rfl, by decide, by decide, by decide, fun h => ?_⟩
  have hevents : (busyEndpoint.handleDatagram ⟨0, 9, 99⟩ (loneAnswer [66])).events =
      [.response 1 (.replicate 4 0) [66]] := by decide
  have hnone : busyEndpoint.events = [] := by decide
  have hsame := h.events
  rw [hevents, hnone] at hsame
  cases hsame

end TailTalk
