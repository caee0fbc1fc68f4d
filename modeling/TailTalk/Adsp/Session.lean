/-
  An ADSP endpoint on its own, under every input.

  The inputs are all the calls of the owner and any datagram from anywhere;
  nothing is assumed of the peers.  `handleDatagram_handled` is the inversion
  lemma of a datagram, and `each_*` say that what holds of each connection is
  kept.
-/
import TailTalk.Adsp.Endpoint
import TailTalk.Lib.Maps
import TailTalk.Lib.Run

namespace TailTalk

open Lib

/-- An endpoint and the items its owner has written to each connection. -/
structure AdspSession where
  ep : AdspEndpoint
  written : UInt16 → List StreamItem

/-- The inputs of an endpoint. -/
inductive AdspInput where
  | datagram (src : ServiceAddress) (payload : Bytes) (now : Micros)
  | connect (remote : ServiceAddress) (now : Micros)
  | abandonOpen (pending : UInt16)
  | setListening (on : Bool)
  | setRecvWindow (window : UInt16)
  | send (conn : UInt16) (data : Bytes) (eom : Bool)
  | sendAttention (conn : UInt16) (code : UInt16) (data : Bytes) (now : Micros)
  | close (conn : UInt16)
  | poll (now : Micros)
  | pollTransmit
  | pollEvent

namespace AdspEndpoint

/-- The connection that an open ack moves to another key: the peer answers our open a second time.
    -/
def rekeyed (ep : AdspEndpoint) (payload : Bytes) : Option (UInt16 × Connection) :=
  match AdspPacket.parse payload with
  | .error _ => none
  | .ok packet =>
    if packet.flags &&& AdspPacket.FLAG_ATTENTION = 0 ∧
        (packet.descriptor = .openConnAck ∨ packet.descriptor = .openConnReqAck) ∧
        ¬ ep.connections.contains packet.connectionId ∧
        ¬ ep.pendingOpens.contains (echoedConnId packet payload) then
      ep.connections.toList.find? fun kc => kc.2.ourConnId = echoedConnId packet payload
    else none

/-- What a datagram can do to the connection under `k`. -/
inductive Handled (ep : AdspEndpoint) (payload : Bytes) (now : Micros) (k : UInt16) :
    Connection → Prop where
  | same {c} (hc : ep.connections[k]? = some c) : Handled ep payload now k c
  | data {c packet} (hparse : AdspPacket.parse payload = .ok packet)
      (hflag : packet.flags &&& AdspPacket.FLAG_ATTENTION = 0)
      (hkind : packet.descriptor = .dataPacket ∨ packet.descriptor = .controlPacket)
      (hkey : packet.connectionId = k) (hc : ep.connections[k]? = some c) :
      Handled ep payload now k
        (c.handleData ep.recvWindow k packet (payload.drop AdspPacket.HEADER_LEN) now).conn
  | advice {c packet} (hparse : AdspPacket.parse payload = .ok packet)
      (hflag : packet.flags &&& AdspPacket.FLAG_ATTENTION = 0)
      (hkind : packet.descriptor = .retransmitAdvice)
      (hkey : packet.connectionId = k) (hc : ep.connections[k]? = some c) :
      Handled ep payload now k ((c.applyAck ep.recvWindow packet now).andThen
        (Connection.resendUnacked ep.recvWindow now)).conn
  | attention {c} (packet : AdspPacket) (hc : ep.connections[k]? = some c) :
      Handled ep payload now k
        (c.handleAttention k packet (payload.drop AdspPacket.HEADER_LEN)).conn
  | attentionAck {c} (packet : AdspPacket) (hc : ep.connections[k]? = some c) :
      Handled ep payload now k (c.handleAttentionAck k packet).conn
  | fresh (id : UInt16) (remote : ServiceAddress) (window : UInt16)
      (hnone : ep.connections.contains k = false) (hmoved : ep.rekeyed payload = none) :
      Handled ep payload now k (Connection.new id remote window now)
  | moved {c} {stale : UInt16} (hnone : ep.connections.contains k = false)
      (hmoved : ep.rekeyed payload = some (stale, c)) : Handled ep payload now k c

section
variable {ep : AdspEndpoint} {k : UInt16} {c : Connection}

/-- What `onConn` leaves under a key. -/
theorem getElem?_onConn {key : UInt16} {f : Connection → Effect}
    (h : (ep.onConn key f).connections[k]? = some c) :
    (k ≠ key ∧ ep.connections[k]? = some c) ∨
      (k = key ∧ ∃ d, ep.connections[k]? = some d ∧ c = (f d).conn) := by
  unfold onConn at h
  rcases hd : ep.connections[key]? with _ | d
  · rw [hd] at h
    refine Or.inl ⟨?_, h⟩
    rintro rfl
    rw [hd] at h; cases h
  · simp only [hd, getElem?_insert_eq] at h
    split at h
    · rename_i hk
      subst hk
      exact Or.inr ⟨rfl, d, hd, (Option.some.inj h).symm⟩
    · exact Or.inl ⟨‹_›, h⟩

theorem rekeyed_mem {payload : Bytes} {stale : UInt16} (h : ep.rekeyed payload = some (stale, c)) :
    ep.connections[stale]? = some c := by
  unfold rekeyed at h
  split at h
  · cases h
  split at h
  · exact Std.TreeMap.mem_toList_iff_getElem?_eq_some.1 (List.mem_of_find?_eq_some h)
  · cases h

theorem contains_eq_false_iff : ep.connections.contains k = false ↔ ep.connections[k]? = none := by
  rw [Std.TreeMap.contains_eq_isSome_getElem?]
  cases ep.connections[k]? <;> simp

/-- An operation of a datagram on the connection it names. -/
theorem Handled.of_onConn {payload : Bytes} {now : Micros} {key : UInt16}
    {f : Connection → Effect} (h : (ep.onConn key f).connections[k]? = some c)
    (hf : k = key → ∀ d, ep.connections[k]? = some d → Handled ep payload now k (f d).conn) :
    Handled ep payload now k c := by
  rcases getElem?_onConn h with ⟨-, hc⟩ | ⟨hk, d, hd, rfl⟩
  · exact .same hc
  · exact hf hk d hd

theorem handled_openRequest {src : ServiceAddress} {payload : Bytes} {now : Micros}
    {packet : AdspPacket} (hparse : AdspPacket.parse payload = .ok packet)
    (hdesc : packet.descriptor = .openConnRequest)
    (h : (ep.handleOpenRequest src packet now).connections[k]? = some c) :
    Handled ep payload now k c := by
  unfold handleOpenRequest at h
  split at h
  · exact .same h
  dsimp only at h
  split at h
  · exact .same h
  · rename_i hnone
    simp only [emit, sendOpenReply, push, getElem?_insert_eq] at h
    split at h
    · rename_i hk
      subst hk
      obtain rfl := Option.some.inj h
      refine .fresh _ _ _ (contains_eq_false_iff.2 hnone) ?_
      simp [rekeyed, hparse, hdesc]
    · exact .same h

theorem handled_openAck {src : ServiceAddress} {payload : Bytes} {now : Micros}
    {packet : AdspPacket} (hparse : AdspPacket.parse payload = .ok packet)
    (hflag : packet.flags &&& AdspPacket.FLAG_ATTENTION = 0)
    (hdesc : packet.descriptor = .openConnAck ∨ packet.descriptor = .openConnReqAck)
    (h : (ep.handleOpenAck src packet payload now).connections[k]? = some c) :
    Handled ep payload now k c := by
  unfold handleOpenAck at h
  dsimp only at h
  by_cases hkey : ep.connections.contains packet.connectionId = true
  · rw [if_pos hkey] at h
    split at h <;> exact .same h
  rw [if_neg hkey] at h
  have hkey' := Bool.eq_false_iff.2 hkey
  by_cases hpend : ep.pendingOpens.contains (echoedConnId packet payload) = true
  · rw [if_neg (not_not_intro hpend)] at h
    have hmoved : ep.rekeyed payload = none := by simp [rekeyed, hparse, hpend]
    have hconn : (ep.connections.insert packet.connectionId (Connection.new
        (echoedConnId packet payload) src packet.recvWindow now))[k]? = some c := by
      split at h <;> exact h
    rw [getElem?_insert_eq] at hconn
    split at hconn
    · rename_i hk
      subst hk
      obtain rfl := Option.some.inj hconn
      exact .fresh _ _ _ hkey' hmoved
    · exact .same hconn
  rw [if_pos hpend] at h
  have hmoved : ep.rekeyed payload =
      ep.connections.toList.find? fun kc => kc.2.ourConnId = echoedConnId packet payload := by
    simp only [rekeyed, hparse]
    rw [if_pos ⟨hflag, hdesc, hkey, hpend⟩]
  rcases hfind : ep.connections.toList.find?
      (fun kc => kc.2.ourConnId = echoedConnId packet payload) with _ | ⟨stale, d⟩
  · rw [hfind] at h
    exact .same h
  · rw [hfind] at h hmoved
    simp only [emit, sendOpenReply, push, getElem?_insert_eq, getElem?_erase_eq] at h
    split at h
    · rename_i hk
      subst hk
      obtain rfl := Option.some.inj h
      exact .moved hkey' hmoved
    split at h
    · cases h
    · exact .same h

/-- **What a datagram does.**  Each connection after it is one of before, moved
    or taken through one operation, or a fresh one. -/
theorem handleDatagram_handled {src : ServiceAddress} {payload : Bytes} {now : Micros}
    (h : (ep.handleDatagram src payload now).connections[k]? = some c) :
    Handled ep payload now k c := by
  unfold handleDatagram at h
  rcases hparse : AdspPacket.parse payload with err | packet
  · rw [hparse] at h
    exact .same h
  rw [hparse] at h
  dsimp only at h
  by_cases hattn : packet.flags &&& AdspPacket.FLAG_ATTENTION ≠ 0
  · rw [if_pos hattn] at h
    split at h
    · exact .of_onConn h fun hk d hd => hk ▸ .attentionAck packet hd
    · exact .of_onConn h fun hk d hd => hk ▸ .attention packet hd
  rw [if_neg hattn] at h
  have hflag := not_not.1 hattn
  rcases hdesc : packet.descriptor <;> rw [hdesc] at h <;> dsimp only at h
  case controlPacket | dataPacket =>
    refine .of_onConn h fun hk d hd => ?_
    subst hk
    exact .data hparse hflag (by simp [hdesc]) rfl hd
  case openConnRequest => exact handled_openRequest hparse hdesc h
  case openConnAck | openConnReqAck =>
    exact handled_openAck hparse hflag (by simp [hdesc]) h
  case openConnDeny => split at h <;> exact .same h
  case closeAdvice =>
    split at h
    · simp only [emit, forget, getElem?_erase_eq] at h
      split at h
      · cases h
      · exact .same h
    · exact .same h
  case forwardReset | forwardResetAck => exact .same h
  case retransmitAdvice =>
    refine .of_onConn h fun hk d hd => ?_
    subst hk
    exact .advice hparse hflag hdesc rfl hd

end

end AdspEndpoint

/-! ## Going over the keys -/

namespace AdspEndpoint

/-- From `ep` to `ep'` the connection under `k` is left alone; datagrams may be
    queued. -/
structure Apart (k : UInt16) (ep ep' : AdspEndpoint) : Prop where
  connection : ep'.connections[k]? = ep.connections[k]?
  outbox : ep.outbox <+: ep'.outbox
  window : ep'.recvWindow = ep.recvWindow

section
variable {k : UInt16}

theorem Apart.refl (ep : AdspEndpoint) : Apart k ep ep := ⟨rfl, List.prefix_rfl, rfl⟩

theorem Apart.trans {a b c : AdspEndpoint} (hab : Apart k a b) (hbc : Apart k b c) :
    Apart k a c :=
  ⟨hbc.connection.trans hab.connection, hab.outbox.trans hbc.outbox, hbc.window.trans hab.window⟩

theorem apart_foldl {β : Type*} {g : AdspEndpoint → β → AdspEndpoint}
    (hg : ∀ ep b, Apart k ep (g ep b)) (ep : AdspEndpoint) (bs : List β) :
    Apart k ep (bs.foldl g ep) :=
  rel_run g Apart.refl Apart.trans hg ep bs

theorem apart_foldl_ne {g : AdspEndpoint → UInt16 → AdspEndpoint}
    (hg : ∀ ep j, j ≠ k → Apart k ep (g ep j)) {keys : List UInt16} (hk : k ∉ keys)
    (ep : AdspEndpoint) : Apart k ep (keys.foldl g ep) := by
  induction keys generalizing ep with
  | nil => exact .refl ep
  | cons j keys ih =>
    obtain ⟨hj, hk⟩ := not_or.1 (mt List.mem_cons.2 hk)
    exact (hg ep j (Ne.symm hj)).trans (ih hk (g ep j))

theorem foldl_keys_at {g : AdspEndpoint → UInt16 → AdspEndpoint}
    (hg : ∀ ep j, j ≠ k → Apart k ep (g ep j)) {m : Std.TreeMap UInt16 Connection} (hk : k ∈ m)
    (ep : AdspEndpoint) :
    ∃ ep', Apart k ep ep' ∧ Apart k (g ep' k) (m.keys.foldl g ep) := by
  obtain ⟨before, after, hkeys⟩ := List.append_of_mem (Std.TreeMap.mem_keys.2 hk)
  have hnodup := Std.TreeMap.nodup_keys (t := m)
  rw [hkeys] at hnodup ⊢
  have hbefore : k ∉ before := fun h =>
    (List.nodup_append.1 hnodup).2.2 k h k List.mem_cons_self rfl
  have hafter : k ∉ after := (List.nodup_cons.1 (List.nodup_append.1 hnodup).2.1).1
  refine ⟨before.foldl g ep, apart_foldl_ne hg hbefore ep, ?_⟩
  rw [List.foldl_append, List.foldl_cons]
  exact apart_foldl_ne hg hafter _

theorem apart_onConn (ep : AdspEndpoint) {j : UInt16} (hj : j ≠ k) (f : Connection → Effect) :
    Apart k ep (ep.onConn j f) := by
  unfold onConn
  split
  · exact .refl ep
  · refine ⟨?_, List.prefix_append _ _, rfl⟩
    rw [getElem?_insert_eq, if_neg (Ne.symm hj)]

theorem apart_forget (ep : AdspEndpoint) {j : UInt16} (hj : j ≠ k) (e : AdspEvent) :
    Apart k ep ((ep.forget j).emit e) := by
  refine ⟨?_, List.prefix_rfl, rfl⟩
  simp only [emit, forget, getElem?_erase_eq, if_neg (Ne.symm hj)]

theorem apart_pollData (ep : AdspEndpoint) (now : Micros) {j : UInt16} (hj : j ≠ k) :
    Apart k ep (ep.pollData now j) := by
  unfold pollData
  split
  · exact .refl ep
  split
  · exact .refl ep
  dsimp only
  split
  · exact apart_forget ep hj _
  · exact apart_onConn ep hj _

theorem apart_pollOpens (ep : AdspEndpoint) (now : Micros) : Apart k ep (ep.pollOpens now) := by
  unfold pollOpens
  refine (apart_foldl (fun ep _ => ?_) ep _).trans (apart_foldl (fun ep _ => ?_) _ _)
  · exact ⟨rfl, List.prefix_rfl, rfl⟩
  · exact ⟨rfl, List.prefix_append _ _, rfl⟩

end

end AdspEndpoint

/-! ## Sessions -/

namespace AdspSession

/-- A new endpoint, with nothing written. -/
def new (localSocket : UInt8) (seed : UInt32) : AdspSession :=
  ⟨AdspEndpoint.new localSocket seed, fun _ => []⟩

/-- What is written to a connection moves with it, and a fresh connection
    starts with nothing. -/
def carry (s : AdspSession) (payload : Bytes) (k : UInt16) : List StreamItem :=
  if s.ep.connections.contains k then s.written k
  else (s.ep.rekeyed payload).elim [] fun kc => s.written kc.1

/-- One input. -/
def step (s : AdspSession) : AdspInput → AdspSession
  | .datagram src payload now => ⟨s.ep.handleDatagram src payload now, s.carry payload⟩
  | .connect remote now => ((s.ep.connect remote now).elim s fun r => { s with ep := r.2 })
  | .abandonOpen pending => { s with ep := s.ep.abandonOpen pending }
  | .setListening on => { s with ep := s.ep.setListening on }
  | .setRecvWindow window => { s with ep := s.ep.setRecvWindow window }
  | .send conn data eom =>
    match s.ep.send conn data eom with
    | (.ok _, ep) =>
      ⟨ep, Function.update s.written conn (s.written conn ++ record data eom)⟩
    | (.error _, ep) => { s with ep }
  | .sendAttention conn code data now =>
    { s with ep := (s.ep.sendAttention conn code data now).2 }
  | .close conn => { s with ep := s.ep.close conn }
  | .poll now => { s with ep := s.ep.poll now }
  | .pollTransmit => { s with ep := s.ep.pollTransmit.2 }
  | .pollEvent => { s with ep := s.ep.pollEvent.2 }

/-- Something that holds of every connection and what is written to it. -/
def Each (I : Connection → List StreamItem → Prop) (ep : AdspEndpoint)
    (written : UInt16 → List StreamItem) : Prop :=
  ∀ k c, ep.connections[k]? = some c → I c (written k)

section
variable {I : Connection → List StreamItem → Prop} {ep : AdspEndpoint}
  {written : UInt16 → List StreamItem}

theorem each_onConn (h : Each I ep written) {key : UInt16} {f : Connection → Effect}
    (hf : ∀ c, ep.connections[key]? = some c → I c (written key) →
      I (f c).conn (written key)) : Each I (ep.onConn key f) written := by
  intro k c hc
  rcases AdspEndpoint.getElem?_onConn hc with ⟨-, hc⟩ | ⟨rfl, d, hd, rfl⟩
  · exact h k c hc
  · exact hf d hd (h k d hd)

theorem each_forget (h : Each I ep written) (key : UInt16) : Each I (ep.forget key) written := by
  intro k c hc
  simp only [AdspEndpoint.forget, getElem?_erase_eq] at hc
  split at hc
  · cases hc
  · exact h k c hc

/-- Going over keys with something that keeps what holds of each connection. -/
theorem each_foldl {g : AdspEndpoint → UInt16 → AdspEndpoint}
    (hg : ∀ ep k, Each I ep written → Each I (g ep k) written) (keys : List UInt16)
    (h : Each I ep written) : Each I (keys.foldl g ep) written := by
  induction keys generalizing ep with
  | nil => exact h
  | cons k keys ih => exact ih (hg ep k h)

end

end AdspSession

end TailTalk
