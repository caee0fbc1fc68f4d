/-
  Two ADSP endpoints and the datagrams on their way between them, left alone.

  What provokes an answer is heavier than that, but for an OpenConnAck that
  moves a connection to another key; that these do not go back and forth for
  ever is `Bounce.step_wellFounded`.  So every order of deliveries ends:
  `no_storm`.
-/
import TailTalk.Adsp.Isolation
import TailTalk.Adsp.Pair
import TailTalk.Lib.Bounce
import Mathlib.Algebra.BigOperators.Fin
import Mathlib.Algebra.Order.BigOperators.Group.Finset
import Mathlib.Algebra.BigOperators.Group.Multiset.Basic
import Mathlib.Order.RelClasses

namespace TailTalk

open Lib

/-- Two endpoints, and the datagrams on their way: the side each goes to, and
    its payload. -/
structure AdspWire where
  ep : Bool → AdspEndpoint
  flight : Multiset (Bool × Bytes)

namespace AdspWire

/-- What an endpoint has queued for the other side. -/
def queuedFor (addr : Bool → ServiceAddress) (side : Bool) (ep : AdspEndpoint) :
    Multiset (Bool × Bytes) :=
  ((ep.outbox.filter fun d => d.1 = addr (!side)).map fun d => (!side, d.2) : List (Bool × Bytes))

/-- The queues are emptied onto the wire; what is for others leaves it. -/
def collect (addr : Bool → ServiceAddress) (w : AdspWire) : AdspWire where
  ep side := { w.ep side with outbox := [] }
  flight := w.flight + (queuedFor addr false (w.ep false) + queuedFor addr true (w.ep true))

/-- A datagram is delivered, at any time, and what it provokes is on its way. -/
inductive Deliver (addr : Bool → ServiceAddress) (w : AdspWire) : AdspWire → Prop
  | mk {side : Bool} {payload : Bytes} {rest : Multiset (Bool × Bytes)}
    (h : w.flight = (side, payload) ::ₘ rest) (now : Micros) :
    Deliver addr w (collect addr
      ⟨Function.update w.ep side ((w.ep side).handleDatagram (addr !side) payload now), rest⟩)

end AdspWire

/-! ## Kinds of datagrams -/

namespace AdspPacket

/-- A packet that changes which connections and opens there are, or has much
    sent again. -/
def heavy (p : AdspPacket) : ℕ :=
  if p.flags &&& FLAG_ATTENTION ≠ 0 then 0
  else
    match p.descriptor with
    | .openConnRequest => 2
    | .openConnReqAck | .closeAdvice | .retransmitAdvice => 1
    | _ => 0

/-- A packet that may be acknowledged. -/
def asks (p : AdspPacket) : Prop :=
  (p.flags &&& FLAG_ATTENTION ≠ 0 ∧ p.flags &&& FLAG_CONTROL = 0 ∧
      p.descriptor ≠ .controlPacket) ∨
    (p.flags &&& FLAG_ATTENTION = 0 ∧
      (p.descriptor = .dataPacket ∨ p.descriptor = .controlPacket) ∧ p.flags &&& FLAG_ACK ≠ 0)

instance (p : AdspPacket) : Decidable p.asks := inferInstanceAs (Decidable (_ ∨ _))

/-- An acknowledgement of data or of an attention is not acknowledged. -/
theorem not_asks {p : AdspPacket} (hd : p.descriptor = .controlPacket)
    (hf : p.flags = 0x80 ∨ p.flags = 0x90) : ¬ p.asks := by
  rintro (⟨-, -, hother⟩ | ⟨hdata, -, hack⟩)
  · exact hother hd
  · rcases hf with hf | hf
    · rw [hf] at hack
      exact hack rfl
    · rw [hf] at hdata
      exact absurd hdata (by decide)

end AdspPacket

/-- How heavy a datagram is that changes which connections and opens there are. -/
def heavy (payload : Bytes) : ℕ :=
  match AdspPacket.parse payload with
  | .ok packet => packet.heavy
  | .error _ => 0

/-- How heavy any other is. -/
def light (payload : Bytes) : ℕ :=
  match AdspPacket.parse payload with
  | .ok packet => if packet.asks then 2 else 1
  | .error _ => 1

/-- The two ConnIDs of an OpenConnAck: where the connection is to be, and
    which one. -/
def moves (payload : Bytes) : Option (UInt16 × UInt16) :=
  match AdspPacket.parse payload with
  | .ok packet =>
    if packet.flags &&& AdspPacket.FLAG_ATTENTION = 0 ∧ packet.descriptor = .openConnAck then
      some (packet.connectionId, AdspEndpoint.echoedConnId packet payload)
    else none
  | .error _ => none

/-- Neither heavy nor one that moves a connection. -/
structure Plain (payload : Bytes) : Prop where
  heavy : heavy payload = 0
  moves : moves payload = none

section
variable {payload : Bytes} {packet : AdspPacket}

theorem heavy_of_parse (h : AdspPacket.parse payload = .ok packet) :
    heavy payload = packet.heavy := by
  rw [heavy, h]

theorem light_of_parse (h : AdspPacket.parse payload = .ok packet) :
    light payload = if packet.asks then 2 else 1 := by
  rw [light, h]

theorem moves_of_parse (h : AdspPacket.parse payload = .ok packet) : moves payload =
    if packet.flags &&& AdspPacket.FLAG_ATTENTION = 0 ∧ packet.descriptor = .openConnAck then
      some (packet.connectionId, AdspEndpoint.echoedConnId packet payload)
    else none := by
  rw [moves, h]

theorem light_pos (payload : Bytes) : 0 < light payload := by
  unfold light
  split
  · split <;> decide
  · decide

theorem light_le (payload : Bytes) : light payload ≤ 2 := by
  unfold light
  split
  · split <;> decide
  · decide

theorem plain_of_descriptor (h : AdspPacket.parse payload = .ok packet)
    (hd : packet.descriptor = .dataPacket ∨ packet.descriptor = .controlPacket) :
    Plain payload := by
  constructor
  · rw [heavy_of_parse h, AdspPacket.heavy]
    rcases hd with hd | hd <;> rw [hd] <;> split <;> rfl
  · rw [moves_of_parse h]
    refine if_neg fun hr => ?_
    rcases hd with hd | hd <;> rw [hd] at hr <;> exact nomatch hr.2

end

/-! ## What an operation on a connection queues -/

/-- An effect on `c` that queues plain datagrams only, paid for with `n` and
    the queued writes. -/
structure Costs (c : Connection) (n : ℕ) (e : Effect) : Prop where
  plain : ∀ p ∈ e.packets, Plain p
  spent : 3 * Connection.backlog e.conn.pendingWrites + (e.packets.map light).sum ≤
    3 * Connection.backlog c.pendingWrites + n

section
variable {c : Connection}

theorem Costs.quiet (c : Connection) (n : ℕ) : Costs c n (.quiet c) :=
  ⟨nofun, Nat.le_add_right _ n⟩

theorem Costs.andThen {m n : ℕ} {e : Effect} {f : Connection → Effect} (he : Costs c m e)
    (hf : ∀ c', Costs c' n (f c')) : Costs c (m + n) (e.andThen f) := by
  have hfe := hf e.conn
  constructor
  · intro p hp
    rcases List.mem_append.1 hp with hp | hp
    · exact he.plain p hp
    · exact hfe.plain p hp
  · have h1 := he.spent
    have h2 := hfe.spent
    simp only [Effect.andThen, List.map_append, List.sum_append]
    omega

theorem Costs.congr {c' : Connection} {n : ℕ} {e : Effect} (h : Costs c' n e)
    (hqueue : c'.pendingWrites = c.pendingWrites) : Costs c n e :=
  ⟨h.plain, hqueue ▸ h.spent⟩

theorem plain_data (c : Connection) (w : UInt16) (seq : UInt32) (eom : Bool)
    (chunk : Bytes) : Plain (c.dataPacket w seq eom chunk) :=
  plain_of_descriptor (parse_dataPacket ..) (.inl rfl)

/-- A turn of the pump takes from the queue more than it sends. -/
theorem costs_cut {c' : Connection} {w : UInt16} {ps : List Bytes} {chunk : Bytes} {eom : Bool}
    (h : Connection.Cut w c c' ps chunk eom) : Costs c 0 ⟨c', ps, []⟩ := by
  have hlt := h.backlog_lt
  rcases h.packets with ⟨rfl, -, -⟩ | rfl
  · refine ⟨nofun, ?_⟩
    simp only [List.map_nil, List.sum_nil]
    omega
  · constructor
    · intro p hp
      obtain rfl := List.mem_singleton.1 hp
      exact plain_data ..
    · have := light_le (c.dataPacket w c.sendSeq eom chunk)
      simp only [List.map_cons, List.map_nil, List.sum_cons, List.sum_nil]
      omega

theorem costs_pump (w : UInt16) (now : Option Micros) (c : Connection) :
    Costs c 0 (c.pump w now) := by
  refine Connection.pump_induct (Q := (Costs · 0)) w now (fun c => .quiet c 0)
    (fun f hc ih => ?_) c
  obtain ⟨chunk, eom, hcut⟩ := Connection.cut_cases hc
  exact (costs_cut hcut).andThen ih

theorem costs_applyAck (w : UInt16) (packet : AdspPacket) (now : Micros) (c : Connection) :
    Costs c 0 (c.applyAck w packet now) := by
  rw [Connection.applyAck_eq]
  refine (costs_pump w _ _).congr ?_
  rw [Connection.takeAck]
  split <;> rfl

theorem costs_sendAck (w : UInt16) (c : Connection) : Costs c 1 (c.sendAck w) := by
  have hparse : AdspPacket.parse _ = _ := parse_control (p := {
    descriptor := .controlPacket
    connectionId := c.ourConnId
    firstByteSeq := c.sendSeq
    nextRecvSeq := c.recvSeq
    recvWindow := w
    flags := 0 }) (.inl rfl) rfl
  constructor
  · intro p hp
    obtain rfl := List.mem_singleton.1 hp
    exact plain_of_descriptor hparse (.inr rfl)
  · have hlight : light _ = _ := light_of_parse hparse
    rw [if_neg (AdspPacket.not_asks rfl (.inl rfl))] at hlight
    simp only [Connection.sendAck, List.map_cons, List.map_nil, List.sum_cons, List.sum_nil, hlight]
    exact Nat.le_refl _

theorem costs_receive (key : UInt16) (packet : AdspPacket) (data : Bytes) (c : Connection) :
    Costs c 0 (c.receive key packet data) := by
  have hpackets := Connection.receive_packets key packet data c
  constructor
  · rw [hpackets]
    nofun
  · rw [hpackets, Connection.receive_conn]
    exact Nat.le_refl _

theorem costs_handleData (w key : UInt16) (packet : AdspPacket) (data : Bytes) (now : Micros)
    (c : Connection) : Costs c (if packet.flags &&& AdspPacket.FLAG_ACK ≠ 0 then 1 else 0)
      (c.handleData w key packet data now) := by
  unfold Connection.handleData
  have hreceived := (costs_receive key packet data c).andThen (costs_applyAck w packet now)
  by_cases hack : packet.flags &&& AdspPacket.FLAG_ACK = 0
  · simp only [hack, bne_self_eq_false, ne_eq, not_true_eq_false, if_false, Bool.false_eq_true]
    exact (hreceived.andThen fun c' => .quiet c' 0).andThen (costs_pump w _)
  · simp only [bne_iff_ne.2 hack, ne_eq, hack, not_false_eq_true, if_true]
    exact (hreceived.andThen (costs_sendAck w)).andThen (costs_pump w _)

theorem costs_handleAttention (key : UInt16) (packet : AdspPacket) (data : Bytes)
    (c : Connection) : Costs c 1 (c.handleAttention key packet data) := by
  unfold Connection.handleAttention
  split
  · exact .quiet c 1
  constructor
  · intro p hp
    obtain rfl := List.mem_singleton.1 hp
    exact plain_of_descriptor (parse_attentionAck rfl rfl _) (.inr rfl)
  · have hlight : ∀ p : AdspPacket, p.descriptor = .controlPacket →
        p.flags = AdspPacket.FLAG_ATTENTION → ∀ data, light (p.toBytes ++ data) = 1 := by
      intro p hd hf data
      rw [light_of_parse (parse_attentionAck hd hf data)]
      exact if_neg (AdspPacket.not_asks (p := { p with flags := 0x90 }) hd (.inr rfl))
    simp only [List.map_cons, List.map_nil, List.sum_cons, List.sum_nil]
    rw [hlight _ rfl rfl]
    split <;> exact Nat.le_refl _

theorem costs_handleAttentionAck (key : UInt16) (packet : AdspPacket) (c : Connection) :
    Costs c 0 (c.handleAttentionAck key packet) := by
  unfold Connection.handleAttentionAck
  split
  · exact .quiet c 0
  split
  · exact .quiet c 0
  · exact ⟨nofun, Nat.le_refl _⟩

theorem plain_resendUnacked (w : UInt16) (now : Micros) (c : Connection) :
    ∀ p ∈ (c.resendUnacked w now).packets, Plain p := by
  unfold Connection.resendUnacked
  split_ifs
  · nofun
  · intro p hp
    obtain ⟨i, hi, rfl⟩ := List.mem_mapIdx.1 hp
    exact plain_data ..

end

/-! ## What an endpoint queues -/

namespace AdspEndpoint

/-- The ConnID of its own under which an endpoint has a connection. -/
def ids (ep : AdspEndpoint) (key : UInt16) : Option UInt16 :=
  ep.connections[key]?.map (·.ourConnId)

/-- Turns of the pump that a connection has left. -/
def backlogAt (ep : AdspEndpoint) (key : UInt16) : ℕ :=
  (ep.connections[key]?.map fun c => Connection.backlog c.pendingWrites).getD 0

/-- Turns of the pump that all connections have left. -/
def backlogs (ep : AdspEndpoint) : ℕ := ∑ i : Fin UInt16.size, ep.backlogAt (UInt16.ofFin i)

/-- An operation on one connection takes from all the queues what it takes
    from its own. -/
theorem backlogs_le {ep ep' : AdspEndpoint} {key : UInt16} {a b : ℕ}
    (hkey : 3 * ep'.backlogAt key + a ≤ 3 * ep.backlogAt key + b)
    (hother : ∀ k, k ≠ key → ep'.backlogAt k = ep.backlogAt k) :
    3 * ep'.backlogs + a ≤ 3 * ep.backlogs + b := by
  have hsplit : ∀ ep : AdspEndpoint, ep.backlogs = ep.backlogAt key +
      ∑ i ∈ Finset.univ.erase key.toFin, ep.backlogAt (UInt16.ofFin i) := by
    intro ep
    rw [backlogs, ← Finset.add_sum_erase Finset.univ _ (Finset.mem_univ key.toFin)]
    rfl
  have hrest : ∑ i ∈ Finset.univ.erase key.toFin, ep'.backlogAt (UInt16.ofFin i) =
      ∑ i ∈ Finset.univ.erase key.toFin, ep.backlogAt (UInt16.ofFin i) := by
    refine Finset.sum_congr rfl fun i hi => hother _ ?_
    rintro rfl
    exact (Finset.mem_erase.1 hi).1 rfl
  have h1 := hsplit ep
  have h2 := hsplit ep'
  rw [hrest] at h2
  omega

/-- What an endpoint with an empty queue makes of a datagram. -/
inductive Answer (src : ServiceAddress) (payload : Bytes) (ep ep' : AdspEndpoint) : Prop
  /-- it is heavy, or one of our opens ends -/
  | settles (h : (ep'.outbox.map fun d => heavy d.2).sum + ep'.pendingOpens.size <
      heavy payload + ep.pendingOpens.size)
  /-- an OpenConnAck moves a connection -/
  | follows {u v k : UInt16} {p : Bytes} (hopens : ep'.pendingOpens.size = ep.pendingOpens.size)
    (hmoves : moves payload = some (u, v)) (hfree : ep.ids u = none) (hk : ep.ids k = some v)
    (hids : ep'.ids = Bounce.rename ep.ids k u v) (hout : ep'.outbox = [(src, p)])
    (hheavy : heavy p = 0) (hback : moves p = some (v, u))
  /-- nothing but acknowledgements and queued data is provoked -/
  | calms (hopens : ep'.pendingOpens.size = ep.pendingOpens.size) (hids : ep'.ids = ep.ids)
    (hplain : ∀ d ∈ ep'.outbox, Plain d.2)
    (hlight : 3 * ep'.backlogs + (ep'.outbox.map fun d => light d.2).sum <
      3 * ep.backlogs + light payload)

section
variable {ep : AdspEndpoint} {src : ServiceAddress} {payload : Bytes}

theorem answer_nothing (hempty : ep.outbox = []) : Answer src payload ep ep := by
  refine .calms rfl rfl ?_ ?_
  · rw [hempty]
    nofun
  · rw [hempty]
    have := light_pos payload
    simp only [List.map_nil, List.sum_nil]
    omega

theorem answer_onConn (hempty : ep.outbox = []) {key : UInt16} {f : Connection → Effect} {n : ℕ}
    (hcosts : ∀ c, Costs c n (f c)) (hown : ∀ c, Own key c (f c)) (hn : n < light payload) :
    Answer src payload ep (ep.onConn key f) := by
  unfold onConn
  rcases hc : ep.connections[key]? with _ | c
  · exact answer_nothing hempty
  dsimp only
  refine .calms rfl ?_ ?_ ?_
  · funext k
    simp only [ids, getElem?_insert_eq]
    by_cases hk : k = key
    · rw [if_pos hk, hk, hc, Option.map_some, Option.map_some, (hown c).ourConnId]
    · rw [if_neg hk]
  · intro d hd
    rw [hempty, List.nil_append] at hd
    obtain ⟨p, hp, rfl⟩ := List.mem_map.1 hd
    exact (hcosts c).plain p hp
  · have hspent := (hcosts c).spent
    have hle := @backlogs_le ep { ep with
        connections := ep.connections.insert key (f c).conn
        outbox := ep.outbox ++ (f c).packets.map fun p => ((f c).conn.remote, p)
        events := ep.events ++ (f c).events } key ((f c).packets.map light).sum n ?_ ?_
    · simp only [hempty, List.nil_append, List.map_map, Function.comp_def] at hle ⊢
      have hsum : ((f c).packets.map fun p => light p).sum = ((f c).packets.map light).sum := rfl
      omega
    · simp only [backlogAt, getElem?_insert_eq, if_true, hc, Option.map_some, Option.getD_some]
      exact hspent
    · intro k hk
      simp only [backlogAt, getElem?_insert_eq, if_neg hk]

theorem answer_heavy (hempty : ep.outbox = []) {key : UInt16} {f : Connection → Effect}
    (hplain : ∀ c, ∀ p ∈ (f c).packets, Plain p) (hheavy : 0 < heavy payload) :
    Answer src payload ep (ep.onConn key f) := by
  refine .settles ?_
  unfold onConn
  rcases hc : ep.connections[key]? with _ | c
  · rw [hempty]
    simp only [List.map_nil, List.sum_nil]
    omega
  · have hzero : ((f c).packets.map fun p => heavy p).sum = 0 :=
      List.sum_eq_zero fun n hn => by
        obtain ⟨p, hp, rfl⟩ := List.mem_map.1 hn
        exact (hplain c p hp).heavy
    simp only [hempty, List.nil_append, List.map_map, Function.comp_def, hzero]
    omega

end

/-! ## Open packets -/

/-- A later leg of a handshake, as a datagram. -/
def openReply (descriptor : AdspDescriptor) (ourConnId destConnId : UInt16) (window : UInt16) :
    Bytes :=
  ({ descriptor
     connectionId := ourConnId
     firstByteSeq := 0
     nextRecvSeq := 0
     recvWindow := window
     flags := 0 } : AdspPacket).toBytes ++ (be16 0x0100 ++ (be16 destConnId ++ List.replicate 4 0))

theorem parse_openReply {d : AdspDescriptor} (hd : d = .openConnAck ∨ d = .openConnReqAck)
    (id dest window : UInt16) : AdspPacket.parse (openReply d id dest window) =
      .ok { descriptor := d
            connectionId := id
            firstByteSeq := 0
            nextRecvSeq := 0
            recvWindow := window
            flags := 0x80 } := by
  have hflags : (d.code ||| 0) &&& 0xF0 = 0x80 := by rcases hd with rfl | rfl <;> decide
  have htry : AdspDescriptor.tryFrom (d.code ||| 0) = .ok d := by
    rcases hd with rfl | rfl <;> decide
  rw [openReply, AdspPacket.parse_toBytes]
  · simp only [AdspPacket.onWire, hflags]
  · exact htry

theorem heavy_openReply {d : AdspDescriptor} (hd : d = .openConnAck ∨ d = .openConnReqAck)
    (id dest window : UInt16) :
    heavy (openReply d id dest window) = if d = .openConnReqAck then 1 else 0 := by
  have hplain : (0x80 : UInt8) &&& AdspPacket.FLAG_ATTENTION = 0 := by decide
  rw [heavy_of_parse (parse_openReply hd id dest window), AdspPacket.heavy]
  rcases hd with rfl | rfl <;> simp [hplain]

theorem moves_openReply (id dest window : UInt16) :
    moves (openReply .openConnAck id dest window) = some (id, dest) := by
  rw [moves_of_parse (parse_openReply (.inl rfl) id dest window), 
    if_pos ⟨show (0x80 : UInt8) &&& AdspPacket.FLAG_ATTENTION = 0 by decide, rfl⟩]
  have hlen : 17 ≤ (openReply .openConnAck id dest window).length := by
    simp [openReply, AdspPacket.HEADER_LEN]
  have hdrop : (openReply .openConnAck id dest window).drop 15 =
      be16 dest ++ List.replicate 4 0 := by
    simp [openReply, AdspPacket.toBytes, be16, be32]
  rw [echoedConnId, if_pos hlen, hdrop, readBe16_be16]

/-! ## Every datagram -/

section
variable {ep : AdspEndpoint} {src : ServiceAddress} {payload : Bytes} {packet : AdspPacket}

theorem size_erase_lt {opens : Std.TreeMap UInt16 PendingOpen} {k : UInt16}
    (h : opens.contains k = true) : (opens.erase k).size < opens.size := by
  have hpos : opens.size ≠ 0 := by
    intro hzero
    have hempty : opens.isEmpty = true := by
      rw [Std.TreeMap.isEmpty_eq_size_eq_zero, hzero]
      rfl
    rw [Std.TreeMap.contains_of_isEmpty hempty] at h
    cases h
  rw [Std.TreeMap.size_erase, if_pos h]
  omega

theorem answer_openRequest (hempty : ep.outbox = []) (hheavy : heavy payload = 2)
    (now : Micros) : Answer src payload ep (ep.handleOpenRequest src packet now) := by
  refine .settles ?_
  rw [hheavy]
  unfold handleOpenRequest
  split
  · rw [hempty]
    simp only [List.map_nil, List.sum_nil]
    omega
  dsimp only
  split
  · rename_i c _
    have hreply := heavy_openReply (.inr rfl) c.ourConnId packet.connectionId ep.recvWindow
    have hout : (ep.sendOpenReply .openConnReqAck c.ourConnId packet.connectionId src).outbox =
        [(src, openReply .openConnReqAck c.ourConnId packet.connectionId ep.recvWindow)] := by
      simp only [sendOpenReply, push, hempty, List.nil_append, openReply]
    rw [hout]
    simp only [List.map_cons, List.map_nil, List.sum_cons, List.sum_nil, hreply, if_true,
      sendOpenReply, push]
    omega
  · have hreply := heavy_openReply (.inr rfl) (ep.rng.nextU32.1.toUInt16 ||| 1)
      packet.connectionId ep.recvWindow
    simp only [emit, sendOpenReply, push, hempty, List.nil_append, List.map_cons, List.map_nil,
      List.sum_cons, List.sum_nil]
    simp only [openReply, if_true] at hreply
    rw [hreply]
    omega

theorem answer_openAck (hempty : ep.outbox = []) (hparse : AdspPacket.parse payload = .ok packet)
    (hplain : packet.flags &&& AdspPacket.FLAG_ATTENTION = 0)
    (hd : packet.descriptor = .openConnAck ∨ packet.descriptor = .openConnReqAck)
    (now : Micros) : Answer src payload ep (ep.handleOpenAck src packet payload now) := by
  have hreply : ∀ our server, heavy (openReply .openConnAck our server ep.recvWindow) = 0 :=
    fun our server => heavy_openReply (.inl rfl) our server _
  have hheavy : heavy payload = if packet.descriptor = .openConnReqAck then 1 else 0 := by
    rw [heavy_of_parse hparse, AdspPacket.heavy]
    rcases hd with hd | hd <;> simp [hplain, hd]
  have hanswer : ∀ ep' : AdspEndpoint, ep'.outbox = [] → ep'.recvWindow = ep.recvWindow →
      ∀ our server, (ep'.sendOpenReply .openConnAck our server src).outbox =
        [(src, openReply .openConnAck our server ep.recvWindow)] := by
    intro ep' hempty' hwindow our server
    simp only [sendOpenReply, push, hempty', List.nil_append, openReply, hwindow]
  have hsum : ∀ our server, ((ep.sendOpenReply .openConnAck our server src).outbox.map
      fun d => heavy d.2).sum = 0 := by
    intro our server
    rw [hanswer ep hempty rfl]
    simp only [List.map_cons, List.map_nil, List.sum_cons, List.sum_nil, hreply, Nat.add_zero]
  unfold handleOpenAck
  dsimp only
  generalize hour : echoedConnId packet payload = our
  generalize hserver : packet.connectionId = server
  split
  · split
    · rename_i hreq
      refine .settles ?_
      rw [hheavy, if_pos (beq_iff_eq.1 hreq), hsum]
      simp only [sendOpenReply, push]
      omega
    · exact answer_nothing hempty
  rename_i hfree
  split
  · -- no open of ours is pending under the ConnID that is echoed
    rename_i hpending
    split
    · exact answer_nothing hempty
    · rename_i stale c hfind
      have hout := hanswer { ep with
        connections := (ep.connections.erase stale).insert server c } hempty rfl our server
      rcases hd with hd | hd
      · have hmoves : moves payload = some (server, our) := by
          rw [moves_of_parse hparse, if_pos ⟨hplain, hd⟩, hour, hserver]
        have hfound := List.find?_some hfind
        have hid : c.ourConnId = our := of_decide_eq_true hfound
        have hstale : ep.connections[stale]? = some c :=
          Std.TreeMap.mem_toList_iff_getElem?_eq_some.1 (List.mem_of_find?_eq_some hfind)
        refine .follows (k := stale) rfl hmoves ?_ ?_ ?_ hout (hreply our server)
          (moves_openReply our server _)
        · rcases hc : ep.connections[server]? with _ | c'
          · rw [ids, hc, Option.map_none]
          · exact absurd ((contains_iff_getElem? _ _).2 ⟨c', hc⟩) hfree
        · rw [ids, hstale, Option.map_some, hid]
        · funext x
          simp only [emit, sendOpenReply, push, ids, getElem?_insert_eq, getElem?_erase_eq,
            Bounce.rename, Function.update_apply]
          by_cases hx : x = server
          · rw [if_pos hx, if_pos hx, Option.map_some, hid]
          · rw [if_neg hx, if_neg hx]
            by_cases hx' : x = stale
            · rw [if_pos hx', if_pos hx', Option.map_none]
            · rw [if_neg hx', if_neg hx']
      · refine .settles ?_
        rw [hheavy, if_pos hd]
        have hzero := hsum our server
        simp only [sendOpenReply, push, emit] at hzero ⊢
        omega
  · rename_i hpending
    rw [Bool.not_eq_true, Bool.not_eq_false] at hpending
    have hlt := size_erase_lt hpending
    refine .settles ?_
    split
    · have hzero := hsum our server
      simp only [sendOpenReply, push, emit] at hzero ⊢
      omega
    · simp only [emit, hempty, List.map_nil, List.sum_nil]
      omega

/-- What becomes of a datagram, whatever it is and whatever the endpoint is
    in. -/
theorem answer_handleDatagram (hempty : ep.outbox = []) (src : ServiceAddress)
    (payload : Bytes) (now : Micros) :
    Answer src payload ep (ep.handleDatagram src payload now) := by
  unfold handleDatagram
  split
  · exact answer_nothing hempty
  rename_i packet hparse
  have hheavy := heavy_of_parse hparse
  have hlight := light_of_parse hparse
  rw [AdspPacket.heavy] at hheavy
  dsimp only
  split
  · rename_i hattn
    split
    · exact answer_onConn hempty (costs_handleAttentionAck _ packet)
        (own_handleAttentionAck packet) (light_pos payload)
    · rename_i hmessage
      refine answer_onConn hempty (costs_handleAttention _ packet _)
        (own_handleAttention packet _) ?_
      rw [not_or, not_not] at hmessage
      rw [hlight, if_pos (.inl ⟨hattn, hmessage⟩)]
      exact Nat.lt_succ_self 1
  rename_i hattn
  rw [not_not] at hattn
  have hplain : ¬ packet.flags &&& AdspPacket.FLAG_ATTENTION ≠ 0 := not_not.2 hattn
  have hdata (hd : packet.descriptor = .dataPacket ∨ packet.descriptor = .controlPacket) :
      Answer src payload ep (ep.onConn packet.connectionId (Connection.handleData ep.recvWindow
        packet.connectionId packet (payload.drop AdspPacket.HEADER_LEN) now)) := by
    refine answer_onConn hempty (costs_handleData _ _ packet _ now)
      (own_handleData _ packet _ now) ?_
    split
    · rename_i hack
      rw [hlight, if_pos (.inr ⟨hattn, hd, hack⟩)]
      exact Nat.lt_succ_self 1
    · exact light_pos payload
  rcases hd : packet.descriptor <;> dsimp only <;> simp only [hplain, if_false, hd] at hheavy
  case dataPacket => exact hdata (.inl hd)
  case controlPacket => exact hdata (.inr hd)
  case openConnRequest => exact answer_openRequest hempty hheavy now
  case openConnAck => exact answer_openAck hempty hparse hattn (.inl hd) now
  case openConnReqAck => exact answer_openAck hempty hparse hattn (.inr hd) now
  case openConnDeny =>
    split
    · rename_i hpending
      have hlt := size_erase_lt hpending
      refine .settles ?_
      simp only [emit, abandonOpen, hempty, List.map_nil, List.sum_nil]
      omega
    · exact answer_nothing hempty
  case closeAdvice =>
    refine .settles ?_
    split <;> simp only [emit, forget, hempty, List.map_nil, List.sum_nil] <;> omega
  case forwardReset => exact answer_nothing hempty
  case forwardResetAck => exact answer_nothing hempty
  case retransmitAdvice =>
    refine answer_heavy hempty (fun c p hp => ?_) (by omega)
    rcases List.mem_append.1 hp with hp | hp
    · exact (costs_applyAck ep.recvWindow packet now c).plain p hp
    · exact plain_resendUnacked ep.recvWindow now _ p hp

end

end AdspEndpoint

/-! ## What a delivery brings down -/

namespace AdspWire

/-- The heavy datagrams on their way, and our pending opens. -/
def heaviness (w : AdspWire) : ℕ :=
  (w.flight.map fun d => heavy d.2).sum +
    ((w.ep false).pendingOpens.size + (w.ep true).pendingOpens.size)

/-- An OpenConnAck on its way. -/
def openAck (d : Bool × Bytes) : Option (BounceMsg UInt16) := (moves d.2).map fun uv => (d.1, uv)

/-- The OpenConnAcks on their way, and the keys of the connections. -/
def bouncing (w : AdspWire) : Bounce UInt16 where
  keys side := (w.ep side).ids
  msgs := w.flight.filterMap openAck

/-- What queued writes and acknowledgements may still put on the wire. -/
def lightness (w : AdspWire) : ℕ :=
  3 * ((w.ep false).backlogs + (w.ep true).backlogs) + (w.flight.map fun d => light d.2).sum

/-- What goes down with every delivery. -/
def weight (w : AdspWire) : ℕ × Bounce UInt16 × ℕ := (w.heaviness, w.bouncing, w.lightness)

/-- First the heavy datagrams, then the OpenConnAcks, then all the others. -/
def Lighter : ℕ × Bounce UInt16 × ℕ → ℕ × Bounce UInt16 × ℕ → Prop :=
  Prod.Lex Nat.lt (Prod.Lex (fun s' s => Bounce.Step s s') Nat.lt)

theorem lighter_wellFounded : WellFounded Lighter :=
  (Prod.lex Nat.lt_wfRel (Prod.lex ⟨_, Bounce.step_wellFounded⟩ Nat.lt_wfRel)).wf

/-- Nothing waits in the endpoints. -/
def Collected (w : AdspWire) : Prop := ∀ side, (w.ep side).outbox = []

theorem collected_collect (addr : Bool → ServiceAddress) (w : AdspWire) :
    (w.collect addr).Collected := fun _ => rfl

section
variable {addr : Bool → ServiceAddress} {w w' : AdspWire}

variable (addr) in
theorem sum_queuedFor_le (side : Bool) (ep : AdspEndpoint) (f : Bytes → ℕ) :
    ((queuedFor addr side ep).map fun d => f d.2).sum ≤ (ep.outbox.map fun d => f d.2).sum := by
  simp only [queuedFor, Multiset.map_coe, Multiset.sum_coe, List.map_map, Function.comp_def]
  exact (List.filter_sublist.map fun d : ServiceAddress × Bytes => f d.2).sum_le_sum
    fun _ _ => Nat.zero_le _

theorem queuedFor_nil {side : Bool} {ep : AdspEndpoint} (h : ep.outbox = []) :
    queuedFor addr side ep = 0 := by
  rw [queuedFor, h]
  rfl

/-- Only the side that took the datagram has something to send. -/
theorem flight_collect (hempty : w.Collected) (side : Bool) (ep' : AdspEndpoint)
    (rest : Multiset (Bool × Bytes)) :
    (collect addr ⟨Function.update w.ep side ep', rest⟩).flight =
      rest + queuedFor addr side ep' := by
  cases side with
  | false =>
    have hother : queuedFor addr true (w.ep true) = 0 := queuedFor_nil (hempty true)
    simp only [collect, Function.update_self, ne_eq, reduceCtorEq, not_false_eq_true,
      Function.update_of_ne, hother, Multiset.add_zero]
  | true =>
    have hother : queuedFor addr false (w.ep false) = 0 := queuedFor_nil (hempty false)
    simp only [collect, Function.update_self, ne_eq, reduceCtorEq, not_false_eq_true,
      Function.update_of_ne, hother, Multiset.zero_add]

/-- A quantity of both endpoints changes as that of the one does. -/
theorem add_update (f : AdspEndpoint → ℕ) (side : Bool) (ep' : AdspEndpoint) :
    f (Function.update w.ep side ep' false) + f (Function.update w.ep side ep' true) +
      f (w.ep side) = f (w.ep false) + f (w.ep true) + f ep' := by
  cases side <;> simp [Function.update_of_ne] <;> omega

theorem heavy_of_moves {payload : Bytes} {uv : UInt16 × UInt16} (h : moves payload = some uv) :
    heavy payload = 0 := by
  unfold moves at h
  split at h
  · rename_i packet hparse
    split at h
    · rename_i hack
      rw [heavy_of_parse hparse, AdspPacket.heavy, hack.2]
      split <;> rfl
    · cases h
  · cases h

theorem openAck_of_moves {payload : Bytes} {uv : UInt16 × UInt16} (side : Bool)
    (h : moves payload = some uv) : openAck (side, payload) = some (side, uv) := by
  rw [openAck, h]
  rfl

theorem openAck_of_none {payload : Bytes} (side : Bool) (h : moves payload = none) :
    openAck (side, payload) = none := by
  rw [openAck, h]
  rfl

/-! ## One delivery -/

section
variable {side : Bool} {payload : Bytes} {rest : Multiset (Bool × Bytes)} {ep' : AdspEndpoint}

theorem heaviness_collect (hempty : w.Collected)
    (hflight : w.flight = (side, payload) ::ₘ rest) :
    (collect addr ⟨Function.update w.ep side ep', rest⟩).heaviness +
        (heavy payload + (w.ep side).pendingOpens.size) =
      w.heaviness + (((queuedFor addr side ep').map fun d => heavy d.2).sum +
        ep'.pendingOpens.size) := by
  have hopens := add_update (w := w) (fun ep => ep.pendingOpens.size) side ep'
  have hafter : (collect addr ⟨Function.update w.ep side ep', rest⟩).heaviness =
      (rest.map fun d => heavy d.2).sum + ((queuedFor addr side ep').map fun d => heavy d.2).sum +
        ((Function.update w.ep side ep' false).pendingOpens.size +
          (Function.update w.ep side ep' true).pendingOpens.size) := by
    rw [heaviness, flight_collect hempty, Multiset.map_add, Multiset.sum_add]
    rfl
  rw [hafter, heaviness, hflight, Multiset.map_cons, Multiset.sum_cons]
  dsimp only at hopens ⊢
  omega

theorem lightness_collect (hempty : w.Collected)
    (hflight : w.flight = (side, payload) ::ₘ rest) :
    (collect addr ⟨Function.update w.ep side ep', rest⟩).lightness +
        (light payload + 3 * (w.ep side).backlogs) =
      w.lightness + (((queuedFor addr side ep').map fun d => light d.2).sum +
        3 * ep'.backlogs) := by
  have hbacklogs := add_update (w := w) AdspEndpoint.backlogs side ep'
  have hafter : (collect addr ⟨Function.update w.ep side ep', rest⟩).lightness =
      3 * ((Function.update w.ep side ep' false).backlogs +
          (Function.update w.ep side ep' true).backlogs) +
        ((rest.map fun d => light d.2).sum +
          ((queuedFor addr side ep').map fun d => light d.2).sum) := by
    rw [lightness, flight_collect hempty, Multiset.map_add, Multiset.sum_add]
    rfl
  rw [hafter, lightness, hflight, Multiset.map_cons, Multiset.sum_cons]
  dsimp only
  omega

theorem bouncing_collect (hempty : w.Collected) :
    (collect addr ⟨Function.update w.ep side ep', rest⟩).bouncing =
      ⟨Function.update w.bouncing.keys side ep'.ids,
        rest.filterMap openAck + (queuedFor addr side ep').filterMap openAck⟩ := by
  have hkeys : (collect addr ⟨Function.update w.ep side ep', rest⟩).bouncing.keys =
      Function.update w.bouncing.keys side ep'.ids := by
    funext i
    by_cases hi : i = side
    · subst hi
      simp only [bouncing, collect, Function.update_self]
      rfl
    · simp only [bouncing, collect, Function.update_of_ne hi]
      rfl
  rw [← hkeys, ← Multiset.filterMap_add, ← flight_collect hempty]
  rfl

/-- A heavy datagram leaves less heavy ones. -/
theorem lighter_settles (hempty : w.Collected) (hflight : w.flight = (side, payload) ::ₘ rest)
    (hlt : (ep'.outbox.map fun d => heavy d.2).sum + ep'.pendingOpens.size <
      heavy payload + (w.ep side).pendingOpens.size) :
    Lighter (collect addr ⟨Function.update w.ep side ep', rest⟩).weight w.weight := by
  refine Prod.Lex.left _ _ ?_
  have hsum := @heaviness_collect addr _ _ _ _ ep' hempty hflight
  have hqueued := sum_queuedFor_le addr side ep' heavy
  show _ < w.heaviness
  omega

theorem lighter_follows (hempty : w.Collected) (hflight : w.flight = (side, payload) ::ₘ rest)
    {u v k : UInt16} {p : Bytes} (hopens : ep'.pendingOpens.size = (w.ep side).pendingOpens.size)
    (hmoves : moves payload = some (u, v)) (hfree : (w.ep side).ids u = none)
    (hk : (w.ep side).ids k = some v) (hids : ep'.ids = Bounce.rename (w.ep side).ids k u v)
    (hout : ep'.outbox = [(addr !side, p)]) (hheavy : heavy p = 0)
    (hback : moves p = some (v, u)) :
    Lighter (collect addr ⟨Function.update w.ep side ep', rest⟩).weight w.weight := by
  have hsent : queuedFor addr side ep' = {(!side, p)} := by
    rw [queuedFor, hout]
    simp
  refine Prod.Lex.right' _ ?_ (Prod.Lex.left _ _ ?_)
  · have hsum := @heaviness_collect addr _ _ _ _ ep' hempty hflight
    rw [hsent, Multiset.map_singleton, Multiset.sum_singleton, hheavy, heavy_of_moves hmoves,
      hopens] at hsum
    omega
  · have hmsgs : w.bouncing.msgs = (side, u, v) ::ₘ rest.filterMap openAck := by
      rw [bouncing, hflight, Multiset.filterMap_cons_some _ _ _ (openAck_of_moves side hmoves)]
    have hanswer : ({(!side, p)} : Multiset (Bool × Bytes)).filterMap openAck =
        {BounceMsg.back (side, u, v)} := by
      rw [← Multiset.cons_zero,
        Multiset.filterMap_cons_some _ _ _ (openAck_of_moves (!side) hback)]
      rfl
    rw [bouncing_collect hempty, hsent, hanswer, hids, Multiset.add_comm, Multiset.singleton_add]
    exact Bounce.Step.moves hmsgs hfree hk

/-- Any other datagram leaves all opens and connections where they are. -/
theorem lighter_calms (hempty : w.Collected) (hflight : w.flight = (side, payload) ::ₘ rest)
    (hopens : ep'.pendingOpens.size = (w.ep side).pendingOpens.size)
    (hids : ep'.ids = (w.ep side).ids) (hplain : ∀ d ∈ ep'.outbox, Plain d.2)
    (hlight : 3 * ep'.backlogs + (ep'.outbox.map fun d => light d.2).sum <
      3 * (w.ep side).backlogs + light payload) :
    Lighter (collect addr ⟨Function.update w.ep side ep', rest⟩).weight w.weight := by
  refine Prod.Lex.right' _ ?_ ?_
  · have hsum := @heaviness_collect addr _ _ _ _ ep' hempty hflight
    have hqueued := sum_queuedFor_le addr side ep' heavy
    have hzero : (ep'.outbox.map fun d => heavy d.2).sum = 0 := by
      refine List.sum_eq_zero fun n hn => ?_
      obtain ⟨d, hd, rfl⟩ := List.mem_map.1 hn
      exact (hplain d hd).heavy
    omega
  have hnone : (queuedFor addr side ep').filterMap openAck = 0 := by
    refine Multiset.eq_zero_of_forall_notMem fun b hb => ?_
    obtain ⟨d, hd, hball⟩ := (Multiset.mem_filterMap openAck _).1 hb
    obtain ⟨e, he, rfl⟩ := List.mem_map.1 (Multiset.mem_coe.1 hd)
    rw [openAck_of_none _ (hplain e (List.mem_filter.1 he).1).moves] at hball
    cases hball
  have hsame : Function.update w.bouncing.keys side ep'.ids = w.bouncing.keys := by
    rw [hids]
    exact Function.update_eq_self side _
  rw [bouncing_collect hempty, hnone, Multiset.add_zero, hsame]
  rcases hm : moves payload with _ | ⟨u, v⟩
  · have hmsgs : w.bouncing = ⟨w.bouncing.keys, rest.filterMap openAck⟩ := by
      rw [bouncing, hflight, Multiset.filterMap_cons_none _ _ (openAck_of_none side hm)]
    rw [← hmsgs]
    refine Prod.Lex.right _ ?_
    have hsum := @lightness_collect addr _ _ _ _ ep' hempty hflight
    have hqueued := sum_queuedFor_le addr side ep' light
    show _ < w.lightness
    omega
  · refine Prod.Lex.left _ _ (Bounce.Step.dies (b := (side, u, v)) ?_)
    rw [bouncing, hflight, Multiset.filterMap_cons_some _ _ _ (openAck_of_moves side hm)]

end

/-- **Every delivery brings the weight down.** -/
theorem deliver_lighter (hempty : w.Collected) (h : Deliver addr w w') :
    Lighter w'.weight w.weight := by
  obtain @⟨side, payload, rest, hflight, now⟩ := h
  have hanswer := AdspEndpoint.answer_handleDatagram (hempty side) (addr !side) payload now
  rcases hanswer with hlt | ⟨hopens, hmoves, hfree, hk, hids, hout, hheavy, hback⟩ |
    ⟨hopens, hids, hplain, hlight⟩
  · exact lighter_settles hempty hflight hlt
  · exact lighter_follows hempty hflight hopens hmoves hfree hk hids hout hheavy hback
  · exact lighter_calms hempty hflight hopens hids hplain hlight

theorem collected_deliver (h : Deliver addr w w') : w'.Collected := by
  obtain ⟨-, -⟩ := h
  exact collected_collect addr _

/-- **No storm**: whatever two endpoints are in and whatever is on its way
    between them, once nothing but deliveries happens there is nothing on its
    way after finitely many of them, in every order. -/
theorem no_storm (addr : Bool → ServiceAddress) (w : AdspWire) (s : ℕ → AdspWire)
    (hstart : s 0 = w.collect addr)
    (hnext : ∀ n, (s n).flight ≠ 0 → Deliver addr (s n) (s (n + 1))) :
    ∃ n, (s n).flight = 0 ∧ (s n).Collected := by
  have hend : ∀ weight n, (s n).weight = weight → (s n).Collected →
      ∃ n, (s n).flight = 0 ∧ (s n).Collected := by
    intro weight
    induction weight using lighter_wellFounded.induction with
    | h weight ih =>
      rintro n rfl hempty
      by_cases hflight : (s n).flight = 0
      · exact ⟨n, hflight, hempty⟩
      · have hdeliver := hnext n hflight
        exact ih _ (deliver_lighter hempty hdeliver) (n + 1) rfl (collected_deliver hdeliver)
  exact hend _ 0 rfl (hstart ▸ collected_collect addr w)

end

/-- One connection, and an acknowledgement on the way that asks for one. -/
def ackRequested : AdspWire where
  ep side := { AdspEndpoint.new 0 0 with
    connections := (∅ : Std.TreeMap UInt16 Connection).insert 7
      (Connection.new 7 (pairAddr !side) 1024 0) }
  flight := {(true, controlPacket AdspPacket.FLAG_ACK)}
where
  controlPacket (flags : UInt8) : Bytes :=
    ({ descriptor := .controlPacket
       connectionId := 7
       firstByteSeq := 0
       nextRecvSeq := 0
       recvWindow := 1024
       flags } : AdspPacket).toBytes

/-- The acknowledgement is delivered, and then the one it asks for. -/
def ackRun (n : ℕ) : AdspWire :=
  let w₀ := ackRequested.collect pairAddr
  let w₁ := collect pairAddr ⟨Function.update w₀.ep true ((w₀.ep true).handleDatagram
    (pairAddr false) (ackRequested.controlPacket AdspPacket.FLAG_ACK) 0), 0⟩
  let w₂ := collect pairAddr ⟨Function.update w₁.ep false ((w₁.ep false).handleDatagram
    (pairAddr true) (ackRequested.controlPacket 0) 0), 0⟩
  match n with
  | 0 => w₀
  | 1 => w₁
  | _ + 2 => w₂

theorem no_storm_ackRun : ∃ n, (ackRun n).flight = 0 ∧ (ackRun n).Collected := by
  refine no_storm pairAddr ackRequested ackRun rfl fun n hflight => ?_
  match n with
  | 0 => exact .mk rfl 0
  | 1 =>
    have h : (ackRun 1).flight = {(false, ackRequested.controlPacket 0)} := by decide +kernel
    exact .mk h 0
  | n + 2 =>
    have h : (ackRun (n + 2)).flight = 0 := by
      show (ackRun 2).flight = 0
      decide +kernel
    exact absurd h hflight

end AdspWire

end TailTalk
