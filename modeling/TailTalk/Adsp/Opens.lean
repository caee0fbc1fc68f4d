/-
  What a datagram does to the opens of an ADSP endpoint.

  `Tends` is an endpoint whose opens and ConnIDs stay, and `Outcome` lists what
  a datagram can change about them, with the one event that reports it.
-/
import TailTalk.Adsp.Reassembly
import TailTalk.Adsp.Session

namespace TailTalk

open Lib

/-- An event about a connection that stays. -/
def AdspEvent.Plain : AdspEvent → Prop
  | .data .. | .attention .. | .attentionAcked _ => True
  | .opened .. | .openFailed _ | .attentionFailed _ | .closed _ => False

namespace AdspEndpoint

/-- Our ConnID on the connection under a key. -/
def ourConnId? (ep : AdspEndpoint) (key : UInt16) : Option UInt16 :=
  ep.connections[key]?.map (·.ourConnId)

/-- The pending opens stay, and the connections with their ConnIDs. -/
structure Tends (ep ep' : AdspEndpoint) : Prop where
  opens : ∀ c, c ∈ ep'.pendingOpens ↔ c ∈ ep.pendingOpens
  ids : ∀ k, ep'.ourConnId? k = ep.ourConnId? k

/-- What a datagram changes about the opens, and the event that says so. -/
inductive Outcome (ep : AdspEndpoint) (payload : Bytes) (ep' : AdspEndpoint) :
    Option AdspEvent → Prop where
  | quiet (h : ep.Tends ep') : Outcome ep payload ep' none
  | hears {e} (h : ep.Tends ep') (hplain : e.Plain) : Outcome ep payload ep' (some e)
  | accepts {k src} (hnone : ep.ourConnId? k = none)
      (hopens : ∀ c, c ∈ ep'.pendingOpens ↔ c ∈ ep.pendingOpens)
      (hids : ∀ j, j ≠ k → ep'.ourConnId? j = ep.ourConnId? j) :
      Outcome ep payload ep' (some (.opened k src true none))
  | completes {id k src} (hpending : id ∈ ep.pendingOpens)
      (hopens : ∀ c, c ∈ ep'.pendingOpens ↔ c ∈ ep.pendingOpens ∧ c ≠ id)
      (hid : ep'.ourConnId? k = some id) :
      Outcome ep payload ep' (some (.opened k src false (some id)))
  | moves {k src} {stale : UInt16 × Connection} (hmoved : ep.rekeyed payload = some stale)
      (hopens : ∀ c, c ∈ ep'.pendingOpens ↔ c ∈ ep.pendingOpens)
      (hnot : stale.2.ourConnId ∉ ep.pendingOpens)
      (hid : ep'.ourConnId? k = some stale.2.ourConnId) :
      Outcome ep payload ep' (some (.opened k src false (some stale.2.ourConnId)))
  | denied {id} (hopens : ∀ c, c ∈ ep'.pendingOpens ↔ c ∈ ep.pendingOpens ∧ c ≠ id)
      (hpending : id ∈ ep.pendingOpens) (hids : ∀ k, ep'.ourConnId? k = ep.ourConnId? k) :
      Outcome ep payload ep' (some (.openFailed id))
  | closes {k} (hopens : ∀ c, c ∈ ep'.pendingOpens ↔ c ∈ ep.pendingOpens)
      (hids : ∀ j, j ≠ k → ep'.ourConnId? j = ep.ourConnId? j) :
      Outcome ep payload ep' (some (.closed k))

theorem Outcome.withEvents {ep ep' : AdspEndpoint} {payload : Bytes} {e : Option AdspEvent}
    (h : Outcome ep payload ep' e) (evs : List AdspEvent) :
    Outcome ep payload { ep' with events := evs } e := by
  cases h with
  | quiet h => exact .quiet ⟨h.opens, h.ids⟩
  | hears h hplain => exact .hears ⟨h.opens, h.ids⟩ hplain
  | accepts hnone hopens hids => exact .accepts hnone hopens hids
  | completes hpending hopens hid => exact .completes hpending hopens hid
  | moves hmoved hopens hnot hid => exact .moves hmoved hopens hnot hid
  | denied hopens hpending hids => exact .denied hopens hpending hids
  | closes hopens hids => exact .closes hopens hids

/-- A datagram has an outcome, and reports it. -/
def Reports (ep : AdspEndpoint) (payload : Bytes) (ep' : AdspEndpoint) : Prop :=
  ∃ e, Outcome ep payload ep' e ∧ ep'.events = ep.events ++ e.toList

section
variable {ep ep' ep'' : AdspEndpoint} {payload : Bytes} {key : UInt16}

theorem Tends.refl (ep : AdspEndpoint) : ep.Tends ep := ⟨fun _ => Iff.rfl, fun _ => rfl⟩

theorem Tends.trans (h : ep.Tends ep') (h' : ep'.Tends ep'') : ep.Tends ep'' :=
  ⟨fun c => (h'.opens c).trans (h.opens c), fun k => (h'.ids k).trans (h.ids k)⟩

theorem ourConnId?_insert (m : Std.TreeMap UInt16 Connection) (j k : UInt16) (c : Connection) :
    (m.insert k c)[j]?.map (·.ourConnId) =
      if j = k then some c.ourConnId else m[j]?.map (·.ourConnId) := by
  rw [getElem?_insert_eq]
  split <;> rfl

theorem ourConnId?_erase (m : Std.TreeMap UInt16 Connection) {j k : UInt16} (h : j ≠ k) :
    (m.erase k)[j]?.map (·.ourConnId) = m[j]?.map (·.ourConnId) := by
  rw [getElem?_erase_eq, if_neg h]

theorem mem_erase_open {opens : Std.TreeMap UInt16 PendingOpen} {id c : UInt16} :
    c ∈ opens.erase id ↔ c ∈ opens ∧ c ≠ id := by
  rw [Std.TreeMap.mem_erase, ne_eq, Std.LawfulEqCmp.compare_eq_iff_eq, and_comm, eq_comm]

/-- What an operation on one connection leaves. -/
theorem tends_onConn {f : Connection → Effect} (hf : ∀ c, (f c).conn.ourConnId = c.ourConnId) :
    ep.Tends (ep.onConn key f) := by
  unfold onConn
  rcases hc : ep.connections[key]? with _ | c
  · exact .refl ep
  refine ⟨fun _ => Iff.rfl, fun k => ?_⟩
  simp only [ourConnId?, ourConnId?_insert]
  split
  · rename_i hk
    rw [hk, hc, hf c]
    rfl
  · rfl

theorem Reports.quiet (h : ep.Tends ep') (hevents : ep'.events = ep.events) :
    ep.Reports payload ep' := ⟨none, .quiet h, by rw [hevents, Option.toList_none, List.append_nil]⟩

theorem reports_onConn {f : Connection → Effect} (hf : ∀ c, Own key c (f c))
    (hevents : ∀ c, ∃ e : Option AdspEvent, (f c).events = e.toList ∧ ∀ e' ∈ e, e'.Plain) :
    ep.Reports payload (ep.onConn key f) := by
  have htends : ep.Tends (ep.onConn key f) := tends_onConn fun c => (hf c).ourConnId
  rcases hc : ep.connections[key]? with _ | c
  · refine .quiet htends ?_
    simp [onConn, hc]
  obtain ⟨e, he, hplain⟩ := hevents c
  have hev : (ep.onConn key f).events = ep.events ++ e.toList := by
    rw [← he]
    simp [onConn, hc]
  cases e with
  | none => exact ⟨none, .quiet htends, hev⟩
  | some e => exact ⟨some e, .hears htends (hplain e rfl), hev⟩

theorem reports_openRequest (src : ServiceAddress) (packet : AdspPacket) (now : Micros) :
    ep.Reports payload (ep.handleOpenRequest src packet now) := by
  unfold handleOpenRequest
  split
  · exact .quiet (.refl ep) rfl
  dsimp only
  split
  · exact .quiet ⟨fun _ => Iff.rfl, fun _ => rfl⟩ rfl
  rename_i hnone
  refine ⟨some _, .accepts ?_ (fun _ => Iff.rfl) fun j hj => ?_, rfl⟩
  · simp [ourConnId?, hnone]
  · simp [ourConnId?, emit, sendOpenReply, push, getElem?_insert_eq, hj]

/-- The connection that is moved answers to the ConnID in the datagram. -/
theorem rekeyed_not_pending {stale : UInt16 × Connection} (h : ep.rekeyed payload = some stale) :
    stale.2.ourConnId ∉ ep.pendingOpens := by
  unfold rekeyed at h
  split at h
  · cases h
  split at h
  · rename_i packet _ hack
    have hid : stale.2.ourConnId = echoedConnId packet payload := by
      simpa using List.find?_some h
    rw [hid]
    exact hack.2.2.2
  · cases h

theorem reports_openAck {src : ServiceAddress} {packet : AdspPacket} {now : Micros}
    (hparse : AdspPacket.parse payload = .ok packet)
    (hflag : packet.flags &&& AdspPacket.FLAG_ATTENTION = 0)
    (hdesc : packet.descriptor = .openConnAck ∨ packet.descriptor = .openConnReqAck) :
    ep.Reports payload (ep.handleOpenAck src packet payload now) := by
  unfold handleOpenAck
  dsimp only
  by_cases hkey : ep.connections.contains packet.connectionId = true
  · rw [if_pos hkey]
    split
    · exact .quiet ⟨fun _ => Iff.rfl, fun _ => rfl⟩ rfl
    · exact .quiet (.refl ep) rfl
  rw [if_neg hkey]
  by_cases hpending : ep.pendingOpens.contains (echoedConnId packet payload) = true
  · rw [if_neg (not_not_intro hpending)]
    -- The answer to a pending open: its ConnID is that of the new connection.
    refine ⟨some (.opened packet.connectionId src false (some (echoedConnId packet payload))),
      .completes (Std.TreeMap.mem_iff_contains.2 hpending) (fun c => ?_) ?_, ?_⟩
    · split <;> exact mem_erase_open
    · split <;> simp [ourConnId?, emit, sendOpenReply, push, Connection.new]
    · split <;> rfl
  rw [if_pos hpending]
  have hmoved : ep.rekeyed payload =
      ep.connections.toList.find? fun kc => kc.2.ourConnId = echoedConnId packet payload := by
    simp only [rekeyed, hparse]
    rw [if_pos ⟨hflag, hdesc, hkey, hpending⟩]
  rcases hfind : ep.connections.toList.find?
      (fun kc => kc.2.ourConnId = echoedConnId packet payload) with _ | ⟨stale, c⟩
  · rw [hfind]
    exact .quiet (.refl ep) rfl
  have hid : c.ourConnId = echoedConnId packet payload := by simpa using List.find?_some hfind
  rw [hfind] at hmoved ⊢
  dsimp only
  refine ⟨some (.opened packet.connectionId src false (some c.ourConnId)),
    .moves hmoved (fun _ => Iff.rfl) (rekeyed_not_pending hmoved) ?_, ?_⟩
  · simp [ourConnId?, emit, sendOpenReply, push]
  · rw [hid]
    rfl

/-- **What a datagram does to the opens.** -/
theorem handleDatagram_outcome (ep : AdspEndpoint) (src : ServiceAddress) (payload : Bytes)
    (now : Micros) : ep.Reports payload (ep.handleDatagram src payload now) := by
  unfold handleDatagram
  rcases hparse : AdspPacket.parse payload with err | packet
  · exact .quiet (.refl ep) rfl
  dsimp only
  by_cases hattn : packet.flags &&& AdspPacket.FLAG_ATTENTION ≠ 0
  · rw [if_pos hattn]
    split
    · refine reports_onConn (own_handleAttentionAck packet) fun c => ?_
      unfold Connection.handleAttentionAck
      split
      · exact ⟨none, rfl, nofun⟩
      split
      · exact ⟨none, rfl, nofun⟩
      · exact ⟨some _, rfl, fun e he => by obtain rfl := Option.some.inj he; trivial⟩
    · refine reports_onConn (own_handleAttention packet _) fun c => ?_
      unfold Connection.handleAttention
      split
      · exact ⟨none, rfl, nofun⟩
      dsimp only
      split
      · exact ⟨some _, rfl, fun e he => by obtain rfl := Option.some.inj he; trivial⟩
      · exact ⟨none, rfl, nofun⟩
  rw [if_neg hattn]
  have hflag := not_not.1 hattn
  have hdata : ∀ c : Connection, ∃ e : Option AdspEvent,
      (c.handleData ep.recvWindow packet.connectionId packet
        (payload.drop AdspPacket.HEADER_LEN) now).events = e.toList ∧ ∀ e' ∈ e, e'.Plain := by
    intro c
    rw [Connection.handleData_events]
    unfold Connection.receive
    dsimp only
    split
    · exact ⟨none, rfl, nofun⟩
    split
    · split
      · exact ⟨some _, rfl, fun e he => by obtain rfl := Option.some.inj he; trivial⟩
      · exact ⟨none, rfl, nofun⟩
    · exact ⟨none, rfl, nofun⟩
  rcases hdesc : packet.descriptor <;> dsimp only
  case controlPacket | dataPacket => exact reports_onConn (own_handleData _ packet _ now) hdata
  case openConnRequest => exact reports_openRequest src packet now
  case openConnAck | openConnReqAck => exact reports_openAck hparse hflag (by simp [hdesc])
  case openConnDeny =>
    split
    · rename_i hpending
      exact ⟨some _, .denied (fun c => mem_erase_open) (Std.TreeMap.mem_iff_contains.2 hpending)
        fun k => rfl, rfl⟩
    · exact .quiet (.refl ep) rfl
  case closeAdvice =>
    split
    · refine ⟨some _, .closes (fun c => Iff.rfl) fun j hj => ?_, rfl⟩
      exact ourConnId?_erase ep.connections hj
    · exact .quiet (.refl ep) rfl
  case forwardReset | forwardResetAck => exact .quiet (.refl ep) rfl
  case retransmitAdvice =>
    refine reports_onConn (own_advice _ packet now) fun c => ⟨none, ?_, nofun⟩
    have hresend : ∀ c : Connection, (c.resendUnacked ep.recvWindow now).events = [] := by
      intro c
      unfold Connection.resendUnacked
      split <;> rfl
    rw [Effect.andThen, Connection.applyAck_eq, Connection.pump_events, hresend]
    rfl

end

end AdspEndpoint

end TailTalk
