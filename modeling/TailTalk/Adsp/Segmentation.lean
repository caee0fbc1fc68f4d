/-
  How writes are cut into packets.

  The writes to a connection make one sequence of bytes and EOM marks.  It is
  the bytes that fit the window: a mark takes a sequence number but no room, so
  a bare one goes out into a full window.
-/
import TailTalk.Adsp.Retransmit
import TailTalk.Adsp.Stream

namespace TailTalk

open Lib

/-- The items of some writes. -/
def recordsOf (writes : List (Bytes × Bool)) : List StreamItem :=
  writes.flatMap fun w => record w.1 w.2

theorem recordsOf_append (a b : List (Bytes × Bool)) :
    recordsOf (a ++ b) = recordsOf a ++ recordsOf b := List.flatMap_append

@[simp] theorem recordsOf_cons (w : Bytes × Bool) (ws : List (Bytes × Bool)) :
    recordsOf (w :: ws) = record w.1 w.2 ++ recordsOf ws := rfl

/-- The writes that a queue comes from. -/
def sources (queue : List PendingWrite) : List (Bytes × Bool) :=
  queue.map fun w => (w.data, w.eom)

/-- A packet carries stream data: it is no acknowledgement and no attention. -/
def isSegment (payload : Bytes) : Bool :=
  match AdspPacket.parse payload with
  | .error _ => false
  | .ok packet =>
    packet.descriptor = .dataPacket ∧ packet.flags &&& AdspPacket.FLAG_ATTENTION = 0

theorem isSegment_dataPacket (c : Connection) (w : UInt16) (seq : UInt32) (eom : Bool)
    (chunk : Bytes) : isSegment (c.dataPacket w seq eom chunk) = true := by
  simp only [isSegment, parse_dataPacket, decide_eq_true_eq, true_and]
  cases eom <;> decide

theorem isSegment_control {p : AdspPacket} (hd : p.descriptor = .controlPacket)
    (hf : p.flags = 0) : isSegment p.toBytes = false := by
  simp [isSegment, parse_control (Or.inl hd) hf, hd]

/-- The data of a packet is no longer than a packet may be, and ends within the
    window of its sender. -/
def Fits (c : Connection) (payload : Bytes) : Prop :=
  (payload.drop AdspPacket.HEADER_LEN).length ≤ ADSP_MAX_DATA ∧
    ∀ packet, AdspPacket.parse payload = .ok packet →
      payload.drop AdspPacket.HEADER_LEN ≠ [] →
      (packet.firstByteSeq - c.oldestUnackedSeq).toNat +
        (payload.drop AdspPacket.HEADER_LEN).length ≤ c.sendWindow.toNat

theorem Covers.append {id : UInt16} {mid stop : UInt32} {qs : List Bytes}
    {items' : List StreamItem} (h' : Covers id stop mid qs items') :
    ∀ {seq : UInt32} {ps : List Bytes} {items : List StreamItem}, Covers id mid seq ps items →
      Covers id stop seq (ps ++ qs) (items ++ items')
  | _, [], _, ⟨hnil, hseq⟩ => by
    subst hnil hseq
    exact h'
  | _, p :: ps, _, ⟨packet, rest, hparse, hdesc, hflag, hid, hseq, hitems, hrest⟩ => by
    refine ⟨packet, rest ++ items', hparse, hdesc, hflag, hid, hseq, ?_, h'.append hrest⟩
    rw [hitems, List.append_assoc]

theorem covers_dataPacket (c : Connection) (w : UInt16) (seq : UInt32) (eom : Bool)
    (chunk : Bytes) : Covers c.ourConnId (seq + seqLen chunk eom) seq
      [c.dataPacket w seq eom chunk] (record chunk eom) := by
  have hflag : ((if eom then 0x60 else 0x40 : UInt8) &&& AdspPacket.FLAG_EOM != 0) = eom := by
    cases eom <;> decide
  have hattn : (if eom then 0x60 else 0x40 : UInt8) &&& AdspPacket.FLAG_ATTENTION = 0 := by
    cases eom <;> decide
  refine ⟨_, [], parse_dataPacket .., rfl, hattn, rfl, rfl, ?_, rfl, ?_⟩
  · rw [drop_dataPacket, hflag, List.append_nil]
  · rw [drop_dataPacket, hflag]

/-! ## The queue of writes -/

theorem Connection.cut_writes {w : UInt16} {now : Option Micros} {c c' : Connection}
    {ps : List Bytes} (h : c.cut w now = some (c', ps)) :
    ∃ front rest, c.pendingWrites = front :: rest ∧
      ((c'.pendingWrites = rest ∧ c'.writesCompleted = c.writesCompleted + 1) ∨
        ∃ n, c'.pendingWrites = front.advance n :: rest ∧
          c'.writesCompleted = c.writesCompleted) := by
  unfold cut at h
  rcases hp : c.pendingWrites with _ | ⟨front, rest⟩
  · simp [hp] at h
  refine ⟨front, rest, rfl, ?_⟩
  simp only [hp] at h
  split_ifs at h <;> obtain ⟨rfl, -⟩ := Prod.mk.inj (Option.some.inj h)
  · exact Or.inl ⟨rfl, rfl⟩
  · exact Or.inl ⟨rfl, rfl⟩
  · exact Or.inl ⟨rfl, rfl⟩
  · exact Or.inr ⟨_, rfl, rfl⟩

/-- `items` are cut of the writes, and the first `n` writes are off the queue. -/
structure Cutting (writes : List (Bytes × Bool)) (items : List StreamItem) (n : ℕ)
    (c : Connection) : Prop where
  split : recordsOf writes = items ++ Connection.queued c.pendingWrites
  queue : sources c.pendingWrites = writes.drop n
  le : n ≤ writes.length
  /-- only the front is cut into -/
  whole : ∀ w ∈ c.pendingWrites.tail, w.offset = 0

section
variable {writes : List (Bytes × Bool)} {items : List StreamItem} {n : ℕ} {c : Connection}

theorem cutting_nil (h : c.pendingWrites = []) : Cutting [] [] 0 c :=
  ⟨by simp [recordsOf, Connection.queued, h], by simp [sources, h], Nat.le_refl _,
    by simp [h]⟩

theorem Cutting.congr (h : Cutting writes items n c) {c' : Connection}
    (hc : c'.pendingWrites = c.pendingWrites) : Cutting writes items n c' :=
  ⟨hc ▸ h.split, hc ▸ h.queue, h.le, hc ▸ h.whole⟩

theorem Cutting.queueWrite (h : Cutting writes items n c) (data : Bytes) (eom : Bool) :
    Cutting (writes ++ [(data, eom)]) items n (c.queueWrite data eom) := by
  refine ⟨?_, ?_, ?_, ?_⟩
  · simp only [recordsOf_append, h.split, Connection.queueWrite, Connection.queued,
      List.flatMap_append, List.append_assoc]
    simp [recordsOf]
  · have hqueue := h.queue
    simp only [sources] at hqueue
    simp only [Connection.queueWrite, sources, List.map_append, hqueue,
      List.drop_append_of_le_length h.le]
    rfl
  · rw [List.length_append]; exact Nat.le_add_right_of_le h.le
  · intro w hw
    simp only [Connection.queueWrite] at hw
    rcases hp : c.pendingWrites with _ | ⟨front, rest⟩
    · simp [hp] at hw
    · simp only [hp, List.cons_append, List.tail_cons, List.mem_append, List.mem_singleton] at hw
      rcases hw with hw | rfl
      · exact h.whole w (by rw [hp]; exact hw)
      · rfl

theorem Cutting.cut (h : Cutting writes items n c) {w : UInt16} {now : Option Micros}
    {c' : Connection} {ps : List Bytes} (hc : c.cut w now = some (c', ps)) {chunk : Bytes}
    {eom : Bool} (hcut : Connection.Cut w c c' ps chunk eom) :
    ∃ k, Cutting writes (items ++ record chunk eom) (n + k) c' ∧
      c'.writesCompleted = c.writesCompleted + k := by
  have hsplit : recordsOf writes =
      items ++ record chunk eom ++ Connection.queued c'.pendingWrites := by
    rw [h.split, hcut.queue, List.append_assoc]
  obtain ⟨front, rest, hp, hdone⟩ := Connection.cut_writes hc
  have hqueue := h.queue
  have hwhole := h.whole
  simp only [hp, sources, List.map_cons] at hqueue
  simp only [hp, List.tail_cons] at hwhole
  rcases hdone with ⟨hrest, hcount⟩ | ⟨m, hrest, hcount⟩
  · -- The front is done.
    refine ⟨1, ⟨hsplit, ?_, ?_, ?_⟩, hcount⟩
    · rw [hrest, ← List.tail_drop, ← hqueue]; rfl
    · have := congrArg List.length hqueue
      simp only [List.length_cons, List.length_map, List.length_drop] at this
      omega
    · rw [hrest]
      exact fun w hw => hwhole w (List.mem_of_mem_tail hw)
  · refine ⟨0, ⟨hsplit, ?_, h.le, ?_⟩, hcount⟩
    · rw [hrest, Nat.add_zero, ← hqueue]; rfl
    · rw [hrest]; exact hwhole

theorem length_queued_le (queue : List PendingWrite) :
    (Connection.queued queue).length ≤ (recordsOf (sources queue)).length := by
  induction queue with
  | nil => exact Nat.le_refl _
  | cons w queue ih =>
    simp only [Connection.queued, sources, recordsOf, List.flatMap_cons, List.map_cons,
      List.length_append, record_length, List.length_drop] at ih ⊢
    omega

theorem queued_of_whole {queue : List PendingWrite} (h : ∀ w ∈ queue, w.offset = 0) :
    Connection.queued queue = recordsOf (sources queue) := by
  induction queue with
  | nil => rfl
  | cons w queue ih =>
    simp only [List.forall_mem_cons] at h
    have ih := ih h.2
    simp only [Connection.queued, sources, recordsOf] at ih ⊢
    simp only [List.flatMap_cons, List.map_cons, ih, h.1, List.drop_zero]

/-- **When a write is completed.**  Where the front of the queue waits for the
    window, the writes off the queue are those whose items are all cut. -/
theorem Cutting.completed_iff (h : Cutting writes items n c) (hb : c.Blocked) {k : ℕ}
    (hk : k ≤ writes.length) : k ≤ n ↔ recordsOf (writes.take k) <+: items := by
  have hitems : items <+: recordsOf writes := ⟨_, h.split.symm⟩
  have htake : ∀ j, recordsOf (writes.take j) <+: recordsOf writes := by
    intro j
    exact ⟨recordsOf (writes.drop j), by rw [← recordsOf_append, List.take_append_drop]⟩
  have htotal : (recordsOf writes).length = items.length +
      (Connection.queued c.pendingWrites).length := by rw [h.split, List.length_append]
  have hn : (recordsOf writes).length = (recordsOf (writes.take n)).length +
      (recordsOf (sources c.pendingWrites)).length := by
    rw [h.queue, ← List.length_append, ← recordsOf_append, List.take_append_drop]
  constructor
  · intro hle
    refine List.prefix_of_prefix_length_le (htake k) hitems ?_
    have hmono : recordsOf (writes.take k) <+: recordsOf (writes.take n) := by
      rw [← Nat.min_eq_left hle, ← List.take_take]
      exact ⟨recordsOf ((writes.take n).drop k), by
        rw [← recordsOf_append, List.take_append_drop]⟩
    have := hmono.length_le
    have := length_queued_le c.pendingWrites
    omega
  · intro hpre
    by_contra hlt
    have hlt' : n < writes.length := by omega
    -- The front of the queue is the write after the first `n`.
    rcases hp : c.pendingWrites with _ | ⟨front, rest⟩
    · have := h.queue
      rw [hp] at this
      have := congrArg List.length this
      simp only [sources, List.map_nil, List.length_nil, List.length_drop] at this
      omega
    have hrem : 0 < front.remaining := by
      simp only [Connection.Blocked, hp] at hb
      exact hb.1
    have hqueue := h.queue
    have hwhole := h.whole
    simp only [hp, List.tail_cons] at hqueue hwhole htotal hn
    have hfront : writes.take (n + 1) = writes.take n ++ [(front.data, front.eom)] := by
      have hget : writes[n]? = some (front.data, front.eom) := by
        rw [← Nat.add_zero n, ← List.getElem?_drop, ← hqueue]; rfl
      rw [List.take_add_one, hget]; rfl
    have hmono : recordsOf (writes.take (n + 1)) <+: recordsOf (writes.take k) := by
      rw [← Nat.min_eq_left (by omega : n + 1 ≤ k), ← List.take_take]
      exact ⟨recordsOf ((writes.take k).drop (n + 1)), by
        rw [← recordsOf_append, List.take_append_drop]⟩
    have hlen := (hmono.trans hpre).length_le
    rw [hfront, recordsOf_append, List.length_append] at hlen
    have hrest := congrArg List.length (queued_of_whole hwhole)
    simp only [Connection.queued, sources, recordsOf, List.flatMap_cons, List.flatMap_nil,
      List.map_cons, List.length_append, record_length, List.length_drop, List.length_nil]
      at htotal hn hlen hrest
    simp only [PendingWrite.remaining] at hrem
    omega

/-! ## The pump -/

/-- An operation that cuts `items'` and completes `k` writes. -/
structure Emits (writes : List (Bytes × Bool)) (items : List StreamItem) (n : ℕ)
    (c : Connection) (e : Effect) (items' : List StreamItem) (k : ℕ) : Prop where
  cutting : Cutting writes (items ++ items') (n + k) e.conn
  completed : e.conn.writesCompleted = c.writesCompleted + k
  ourConnId : e.conn.ourConnId = c.ourConnId
  oldest : e.conn.oldestUnackedSeq = c.oldestUnackedSeq
  window : e.conn.sendWindow = c.sendWindow
  covers : Covers c.ourConnId e.conn.sendSeq c.sendSeq e.packets items'
  packets : ∀ p ∈ e.packets, isSegment p = true ∧ Fits c p

theorem Emits.quiet (h : Cutting writes items n c) : Emits writes items n c (.quiet c) [] 0 :=
  ⟨by simpa [Effect.quiet] using h, rfl, rfl, rfl, rfl, ⟨rfl, rfl⟩, nofun⟩

theorem Emits.andThen {e : Effect} {f : Connection → Effect} {items' items'' : List StreamItem}
    {k l : ℕ} (h : Emits writes items n c e items' k)
    (h' : Emits writes (items ++ items') (n + k) e.conn (f e.conn) items'' l) :
    Emits writes items n c (e.andThen f) (items' ++ items'') (k + l) := by
  refine ⟨?_, ?_, h'.ourConnId.trans h.ourConnId, h'.oldest.trans h.oldest,
    h'.window.trans h.window, ?_, ?_⟩
  · rw [← List.append_assoc, ← Nat.add_assoc]; exact h'.cutting
  · rw [← Nat.add_assoc, ← h.completed]; exact h'.completed
  · have hcovers := h'.covers
    rw [h.ourConnId] at hcovers
    exact hcovers.append h.covers
  · intro p hp
    rcases List.mem_append.1 hp with hp | hp
    · exact h.packets p hp
    · obtain ⟨hseg, hfits⟩ := h'.packets p hp
      rw [Fits, h.oldest, h.window] at hfits
      exact ⟨hseg, hfits⟩

theorem Cutting.emits_cut (h : Cutting writes items n c) {w : UInt16} {now : Option Micros}
    {c' : Connection} {ps : List Bytes} (hc : c.cut w now = some (c', ps)) :
    ∃ items' k, Emits writes items n c ⟨c', ps, []⟩ items' k := by
  obtain ⟨chunk, eom, hcut⟩ := Connection.cut_cases hc
  obtain ⟨k, hcutting, hcount⟩ := h.cut hc hcut
  have hnext := hcut.next
  refine ⟨record chunk eom, k, hcutting, hcount, ?_, ?_, ?_, ?_, ?_⟩
  · rw [hnext]
  · rw [hnext]
  · rw [hnext]
  · rcases hcut.packets with ⟨rfl, rfl, rfl⟩ | rfl
    · rw [hnext]
      exact ⟨rfl, by simp [seqLen]⟩
    · rw [hnext]
      exact covers_dataPacket ..
  · rcases hcut.packets with ⟨rfl, -, -⟩ | rfl
    · intro p hp
      cases hp
    · intro p hp
      obtain rfl := List.mem_singleton.1 hp
      refine ⟨isSegment_dataPacket .., ?_, ?_⟩
      · rw [drop_dataPacket]; exact hcut.length_le
      · intro packet hparse hne
        rw [parse_dataPacket] at hparse
        obtain rfl := Except.ok.inj hparse
        rw [drop_dataPacket] at hne ⊢
        exact hcut.window hne

/-- **The pump** cuts packets that fit off the front of what is left. -/
theorem Cutting.emits_pump (h : Cutting writes items n c) (w : UInt16) (now : Option Micros) :
    ∃ items' k, Emits writes items n c (c.pump w now) items' k := by
  refine Connection.pump_induct (Q := fun c e => ∀ items n, Cutting writes items n c →
    ∃ items' k, Emits writes items n c e items' k) w now (fun _ _ _ h => ⟨[], 0, .quiet h⟩)
    (fun f hc ih items n h => ?_) c items n h
  obtain ⟨items₁, k₁, h₁⟩ := h.emits_cut hc
  obtain ⟨items₂, k₂, h₂⟩ := ih _ _ _ h₁.cutting
  exact ⟨items₁ ++ items₂, k₁ + k₂, h₁.andThen h₂⟩

end

/-! ## A run -/

/-- Since `c₀` the `writes` were written, and the first transmissions are `ps`. -/
structure Segmented (c₀ : Connection) (writes : List (Bytes × Bool)) (ps : List Bytes)
    (c : Connection) : Prop where
  ourConnId : c.ourConnId = c₀.ourConnId
  cut : ∃ items n, Cutting writes items n c ∧ c.writesCompleted = c₀.writesCompleted + n ∧
    Covers c₀.ourConnId c.sendSeq c₀.sendSeq ps items
  blocked : c.Blocked

section
variable {c₀ c : Connection} {writes : List (Bytes × Bool)} {ps : List Bytes}

theorem segmented_start (h : c₀.pendingWrites = []) : Segmented c₀ [] [] c₀ :=
  ⟨rfl, ⟨[], 0, cutting_nil h, rfl, rfl, rfl⟩, by simp [Connection.Blocked, h]⟩

theorem Segmented.pump {writes' : List (Bytes × Bool)} {c' : Connection} {items : List StreamItem}
    {n : ℕ} (hid : c'.ourConnId = c₀.ourConnId) (hcutting : Cutting writes' items n c')
    (hcount : c'.writesCompleted = c₀.writesCompleted + n)
    (hcovers : Covers c₀.ourConnId c'.sendSeq c₀.sendSeq ps items) (w : UInt16)
    (now : Option Micros) :
    Segmented c₀ writes' (ps ++ (c'.pump w now).packets) (c'.pump w now).conn ∧
      ∀ p ∈ (c'.pump w now).packets, isSegment p = true ∧ Fits (c'.pump w now).conn p := by
  obtain ⟨items', k, h⟩ := hcutting.emits_pump w now
  refine ⟨⟨h.ourConnId.trans hid, ⟨items ++ items', n + k, h.cutting, ?_, ?_⟩,
    Connection.blocked_pump w now c'⟩, ?_⟩
  · rw [h.completed, hcount, Nat.add_assoc]
  · have hnew := h.covers
    rw [hid] at hnew
    exact hnew.append hcovers
  · intro p hp
    rw [Fits, h.oldest, h.window]
    exact h.packets p hp

theorem Segmented.send (h : Segmented c₀ writes ps c) (data : Bytes) (eom : Bool) (w : UInt16) :
    Segmented c₀ (writes ++ [(data, eom)])
        (ps ++ ((c.queueWrite data eom).pump w none).packets)
        ((c.queueWrite data eom).pump w none).conn ∧
      ∀ p ∈ ((c.queueWrite data eom).pump w none).packets, isSegment p = true ∧
        Fits ((c.queueWrite data eom).pump w none).conn p := by
  obtain ⟨items, n, hcutting, hcount, hcovers⟩ := h.cut
  have hid : (c.queueWrite data eom).ourConnId = c₀.ourConnId := h.ourConnId
  exact Segmented.pump hid
    (hcutting.queueWrite data eom) hcount hcovers w none

theorem Connection.takeAck_sending (key : UInt16) (packet : AdspPacket) (data : Bytes)
    (c : Connection) :
    let c' := (c.receive key packet data).conn.takeAck packet
    c'.ourConnId = c.ourConnId ∧ c'.pendingWrites = c.pendingWrites ∧
      c'.writesCompleted = c.writesCompleted ∧ c'.sendSeq = c.sendSeq := by
  dsimp only
  rw [receive_conn, takeAck_recvSeq]
  unfold takeAck
  split <;> exact ⟨rfl, rfl, rfl, rfl⟩

/-- The window and acknowledgement of a packet may let the pump cut more; what else is sent is no
    data. -/
theorem Segmented.handleData (h : Segmented c₀ writes ps c) (w key : UInt16)
    (packet : AdspPacket) (data : Bytes) (now : Micros) :
    Segmented c₀ writes
        (ps ++ (c.handleData w key packet data now).packets.filter isSegment)
        (c.handleData w key packet data now).conn ∧
      ∀ p ∈ (c.handleData w key packet data now).packets.filter isSegment,
        Fits (c.handleData w key packet data now).conn p := by
  obtain ⟨items, n, hcutting, hcount, hcovers⟩ := h.cut
  obtain ⟨hid, hqueue, hdone, hseq⟩ := Connection.takeAck_sending key packet data c
  have hpump := Segmented.pump (hid.trans h.ourConnId) (hcutting.congr hqueue)
    (hdone.trans hcount) (hseq.symm ▸ hcovers) w (some now)
  rw [← Connection.applyAck_eq] at hpump
  obtain ⟨hsegmented, hfits⟩ := hpump
  have hpackets : (c.handleData w key packet data now).packets.filter isSegment =
      ((c.receive key packet data).conn.applyAck w packet now).packets := by
    have hall := List.filter_eq_self.2 fun p hp => (hfits p hp).1
    rw [Connection.handleData_eq]
    split
    · simp [Effect.andThen, Connection.receive_packets, Connection.sendAck, hall,
        isSegment_control]
    · simp [Effect.andThen, Connection.receive_packets, Effect.quiet, hall]
  rw [hpackets, Connection.conn_handleData]
  exact ⟨hsegmented, fun p hp => (hfits p hp).2⟩

end

/-- Writes, and what brings nothing but data and acknowledgements. -/
def Feeds : AdspInput → Prop
  | .datagram _ payload _ => ∀ packet ∈ (AdspPacket.parse payload).toOption,
      packet.flags &&& AdspPacket.FLAG_ATTENTION = 0 ∧
        (packet.descriptor = .dataPacket ∨ packet.descriptor = .controlPacket)
  | .send .. | .setRecvWindow _ | .pollTransmit | .pollEvent => True
  | .connect .. | .abandonOpen _ | .setListening _ | .sendAttention .. | .close _ | .poll _ => False

instance : ∀ a, Decidable (Feeds a)
  | .datagram .. => by unfold Feeds; infer_instance
  | .send .. | .setRecvWindow _ | .pollTransmit | .pollEvent => inferInstanceAs (Decidable True)
  | .connect .. | .abandonOpen _ | .setListening _ | .sendAttention .. | .close _ | .poll _ =>
    inferInstanceAs (Decidable False)

/-- The connection whose pump an input may run. -/
def AdspInput.conn : AdspInput → Option UInt16
  | .datagram _ payload _ => datagramConnId payload
  | .send conn .. => some conn
  | _ => none

/-- The data packets that an input transmits on the connection `key`. -/
def firstSent (key : UInt16) (s : AdspSession) (a : AdspInput) : List Bytes :=
  if a.conn = some key then
    (((s.step a).ep.outbox.drop s.ep.outbox.length).map Prod.snd).filter isSegment
  else []

/-- The writes to the connection `key`. -/
def writesTo (key : UInt16) (as : List AdspInput) : List (Bytes × Bool) :=
  as.filterMap fun
    | .send conn data eom => if conn = key then some (data, eom) else none
    | _ => none

section
variable {key : UInt16} {c₀ c : Connection} {s : AdspSession} {writes : List (Bytes × Bool)}
  {ps : List Bytes}

/-- An operation on the connection, and what it transmits. -/
theorem firstSent_onConn {a : AdspInput} {f : Connection → Effect} (ha : a.conn = some key)
    (hc : s.ep.connections[key]? = some c) (hstep : (s.step a).ep = s.ep.onConn key f) :
    (s.step a).ep.connections[key]? = some (f c).conn ∧
      firstSent key s a = (f c).packets.filter isSegment := by
  obtain ⟨hconn, hout, -⟩ := onConn_of_some (f := f) hc
  refine ⟨by rw [hstep]; exact hconn, ?_⟩
  rw [firstSent, if_pos ha, hstep, hout, List.drop_left, List.map_map]
  simp [Function.comp_def]

theorem getElem?_setRecvWindow (ep : AdspEndpoint) (window : UInt16) (k : UInt16) :
    (ep.setRecvWindow window).connections[k]? = ep.connections[k]? := by
  have hack : ∀ (keys : List UInt16) (ep : AdspEndpoint), (keys.foldl (fun ep key =>
      ep.onConn key (Connection.sendAck ep.recvWindow)) ep).connections[k]? =
        ep.connections[k]? := by
    intro keys
    induction keys with
    | nil => intro ep; rfl
    | cons j keys ih =>
      intro ep
      rw [List.foldl_cons, ih]
      unfold AdspEndpoint.onConn
      split
      · rfl
      · rename_i d hd
        rw [getElem?_insert_eq]
        split
        · rename_i hk
          rw [hk, hd]; rfl
        · rfl
  unfold AdspEndpoint.setRecvWindow
  dsimp only
  split
  · exact hack _ _
  · rfl

theorem feeds_apart {a : AdspInput} (ha : Feeds a) (hne : a.conn ≠ some key) :
    (s.step a).ep.connections[key]? = s.ep.connections[key]? := by
  cases a with
  | datagram src payload now =>
    simp only [AdspSession.step, AdspEndpoint.handleDatagram]
    rcases hparse : AdspPacket.parse payload with err | packet
    · rfl
    obtain ⟨hflag, hdesc⟩ := ha packet (by rw [hparse]; rfl)
    have hkey : packet.connectionId ≠ key := by
      rintro rfl
      exact hne (by simp [AdspInput.conn, datagramConnId, hparse, Except.toOption])
    simp only [hflag, ne_eq, not_true_eq_false, if_false]
    rcases hdesc with hdesc | hdesc <;> rw [hdesc] <;>
      exact (AdspEndpoint.apart_onConn _ hkey _).connection
  | send conn data eom =>
    have hkey : conn ≠ key := by
      rintro rfl
      exact hne rfl
    simp only [AdspSession.step, AdspEndpoint.send]
    rcases s.ep.connections[conn]? with _ | d
    · rfl
    · exact (AdspEndpoint.apart_onConn _ hkey _).connection
  | setRecvWindow window => exact getElem?_setRecvWindow ..
  | pollTransmit | pollEvent => rfl
  | connect _ _ | abandonOpen _ | setListening _ | sendAttention _ _ _ _ | close _ | poll _ =>
    exact ha.elim

/-- **One input.** -/
theorem segmented_step (hc : s.ep.connections[key]? = some c) (h : Segmented c₀ writes ps c)
    {a : AdspInput} (ha : Feeds a) : ∃ c', (s.step a).ep.connections[key]? = some c' ∧
      Segmented c₀ (writes ++ writesTo key [a]) (ps ++ firstSent key s a) c' ∧
      ∀ p ∈ firstSent key s a, Fits c' p := by
  by_cases hconn : a.conn = some key
  · cases a with
    | datagram src payload now =>
      rcases hparse : AdspPacket.parse payload with err | packet
      · simp [AdspInput.conn, datagramConnId, hparse, Except.toOption] at hconn
      obtain ⟨hflag, hdesc⟩ := ha packet (by rw [hparse]; rfl)
      have hkey : packet.connectionId = key := by
        simpa [AdspInput.conn, datagramConnId, hparse, Except.toOption] using hconn
      have hstep : (s.step (.datagram src payload now)).ep = s.ep.onConn key
          (Connection.handleData s.ep.recvWindow key packet
            (payload.drop AdspPacket.HEADER_LEN) now) := by
        simp only [AdspSession.step, AdspEndpoint.handleDatagram, hparse, hflag, hkey, ne_eq,
          not_true_eq_false, if_false]
        rcases hdesc with hdesc | hdesc <;> rw [hdesc]
      obtain ⟨hnext, hsent⟩ := firstSent_onConn hconn hc hstep
      obtain ⟨hsegmented, hfits⟩ := h.handleData s.ep.recvWindow key packet
        (payload.drop AdspPacket.HEADER_LEN) now
      refine ⟨_, hnext, ?_, ?_⟩
      · rw [hsent]; simpa [writesTo] using hsegmented
      · rw [hsent]; exact hfits
    | send conn data eom =>
      obtain rfl : conn = key := Option.some.inj hconn
      have hstep : (s.step (.send conn data eom)).ep = s.ep.onConn conn
          (fun c => (c.queueWrite data eom).pump s.ep.recvWindow none) := by
        simp only [AdspSession.step, AdspEndpoint.send, hc]
      obtain ⟨hnext, hsent⟩ := firstSent_onConn rfl hc hstep
      obtain ⟨hsegmented, hfits⟩ := h.send data eom s.ep.recvWindow
      have hall := List.filter_eq_self.2 fun p hp => (hfits p hp).1
      refine ⟨_, hnext, ?_, ?_⟩
      · rw [hsent, hall]; simpa [writesTo] using hsegmented
      · rw [hsent, hall]; exact fun p hp => (hfits p hp).2
    | setRecvWindow _ | pollTransmit | pollEvent => cases hconn
    | connect _ _ | abandonOpen _ | setListening _ | sendAttention _ _ _ _ | close _ | poll _ =>
      exact ha.elim
  · have hsent : firstSent key s a = [] := if_neg hconn
    have hwrites : writesTo key [a] = [] := by
      cases a <;> simp_all [writesTo, AdspInput.conn]
    refine ⟨c, (feeds_apart ha hconn).trans hc, ?_, ?_⟩
    · rw [hsent, hwrites, List.append_nil, List.append_nil]; exact h
    · intro p hp
      rw [hsent] at hp
      cases hp

/-- What an input transmits on a connection fits the window it then has. -/
def SentFits (key : UInt16) (s : AdspSession) (a : AdspInput) : Prop :=
  ∀ p ∈ firstSent key s a, ∃ c, (s.step a).ep.connections[key]? = some c ∧ Fits c p

theorem segmented_run {as : List AdspInput} (hc : s.ep.connections[key]? = some c)
    (h : Segmented c₀ writes ps c) (has : ∀ a ∈ as, Feeds a) :
    (∃ c', (run AdspSession.step s as).ep.connections[key]? = some c' ∧
      Segmented c₀ (writes ++ writesTo key as)
        (ps ++ trace AdspSession.step (firstSent key) s as) c') ∧
      Along AdspSession.step (SentFits key) s as := by
  induction as generalizing s c writes ps with
  | nil => exact ⟨⟨c, hc, by simpa [writesTo, trace] using h⟩, trivial⟩
  | cons a as ih =>
    obtain ⟨c₁, hc₁, h₁, hfits⟩ := segmented_step hc h (has a List.mem_cons_self)
    obtain ⟨⟨c', hc', h'⟩, halong⟩ := ih hc₁ h₁ fun b hb => has b (List.mem_cons_of_mem _ hb)
    refine ⟨⟨c', hc', ?_⟩, fun p hp => ⟨c₁, hc₁, hfits p hp⟩, halong⟩
    have hwrites : writesTo key (a :: as) = writesTo key [a] ++ writesTo key as := by
      rw [writesTo, writesTo, writesTo, ← List.filterMap_append]; rfl
    rw [hwrites, trace, ← List.append_assoc, ← List.append_assoc]
    exact h'

end

/-- **Segmentation.** From a connection with nothing queued, over any writes and window updates: the
    first transmissions are the writes in order, contiguous from `sendSeq` on, all unless the window
    is full. A write is reported exactly if its bytes and mark are all cut. Each packet has at most
    `ADSP_MAX_DATA` bytes, within the window of the moment. -/
theorem segments_writes (key : UInt16) (s : AdspSession) (c₀ : Connection)
    (hc : s.ep.connections[key]? = some c₀) (hqueue : c₀.pendingWrites = [])
    (as : List AdspInput) (has : ∀ a ∈ as, Feeds a) :
    ∃ c items, (run AdspSession.step s as).ep.connections[key]? = some c ∧
      Covers c₀.ourConnId c.sendSeq c₀.sendSeq
        (trace AdspSession.step (firstSent key) s as) items ∧
      items <+: recordsOf (writesTo key as) ∧
      (items = recordsOf (writesTo key as) ∨
        c.sendWindow.toNat ≤ (c.sendSeq - c.oldestUnackedSeq).toNat) ∧
      (∀ k ≤ (writesTo key as).length, c₀.writesCompleted + k ≤ c.writesCompleted ↔
        recordsOf ((writesTo key as).take k) <+: items) ∧
      Along AdspSession.step (SentFits key) s as := by
  obtain ⟨⟨c, hc', h⟩, halong⟩ := segmented_run hc (segmented_start hqueue) has
  rw [List.nil_append, List.nil_append] at h
  obtain ⟨items, n, hcutting, hcount, hcovers⟩ := h.cut
  refine ⟨c, items, hc', hcovers, ⟨_, hcutting.split.symm⟩, ?_, ?_, halong⟩
  · rcases hp : c.pendingWrites with _ | ⟨front, rest⟩
    · left
      rw [hcutting.split, hp]
      simp [Connection.queued]
    · right
      have hb := h.blocked
      simp only [Connection.Blocked, hp] at hb
      exact hb.2
  · intro k hk
    rw [hcount, Nat.add_le_add_iff_left]
    exact hcutting.completed_iff h.blocked hk

/-- The listener with its connection 7, to which nothing is written yet. -/
def sessionSeven : AdspSession := ⟨openedSeven, fun _ => []⟩

/-- An acknowledgement up to `seq` that leaves room for `window` bytes. -/
def windowUpdate (seq : UInt32) (window : UInt16) : AdspInput :=
  .datagram ⟨0, 1, 140⟩ ({ descriptor := .controlPacket, connectionId := 7, firstByteSeq := 0
                           nextRecvSeq := seq, recvWindow := window, flags := 0 } :
                           AdspPacket).toBytes 1

/-- Three bytes and a mark wait for a window of two, which then moves on. -/
def stalledRun : List AdspInput :=
  [windowUpdate 0 2, .send 7 [104, 105, 33] false, .send 7 [] true, windowUpdate 2 2]

theorem segments_writes_stalledRun : ∃ c items,
    (run AdspSession.step sessionSeven stalledRun).ep.connections[(7 : UInt16)]? = some c ∧
      Covers connSeven.ourConnId c.sendSeq connSeven.sendSeq
        (trace AdspSession.step (firstSent 7) sessionSeven stalledRun) items ∧
      items <+: recordsOf (writesTo 7 stalledRun) ∧
      (items = recordsOf (writesTo 7 stalledRun) ∨
        c.sendWindow.toNat ≤ (c.sendSeq - c.oldestUnackedSeq).toNat) ∧
      (∀ k ≤ (writesTo 7 stalledRun).length,
        connSeven.writesCompleted + k ≤ c.writesCompleted ↔
          recordsOf ((writesTo 7 stalledRun).take k) <+: items) ∧
      Along AdspSession.step (SentFits 7) sessionSeven stalledRun :=
  segments_writes 7 sessionSeven connSeven connSeven_opened rfl stalledRun (by decide)

/-- A bare mark is written while the window is closed. -/
def closedWindowRun : List AdspInput := [windowUpdate 0 0, .send 7 [] true]

/-- The mark goes out, with a sequence number that the window does not
    admit. -/
theorem closedWindowRun_past_window :
    sessionSeven.ep.connections[(7 : UInt16)]? = some connSeven ∧
    connSeven.pendingWrites = [] ∧ (∀ a ∈ closedWindowRun, Feeds a) ∧
    trace AdspSession.step (firstSent 7) sessionSeven closedWindowRun =
      [connSeven.dataPacket DEFAULT_RECV_WINDOW 0 true []] ∧
    ((run AdspSession.step sessionSeven closedWindowRun).ep.connections[(7 : UInt16)]?.map
      fun c => (c.sendWindow, c.oldestUnackedSeq, c.writesCompleted)) = some (0, 0, 1) ∧
    ¬ ((0 : UInt32) - 0).toNat + (seqLen [] true).toNat ≤ (0 : UInt16).toNat :=
  ⟨connSeven_opened, rfl, by decide, by decide, by decide, by decide⟩

end TailTalk
