/-
  What a retransmission covers.

  `Recoverable` says that the endpoint can send again what is in flight.  The
  flight buffer holds no marks, and a retransmission sets none, so a mark in
  flight is not recoverable; `unacked_recoverable` is about the runs in which a
  pump cuts none.
-/
import TailTalk.Adsp.Isolation
import TailTalk.Adsp.Session

namespace TailTalk

open Lib

/-- The bytes among some items. -/
def dataBytes (items : List StreamItem) : Bytes :=
  items.filterMap fun
    | .byte b => some b
    | .eom => none

theorem dataBytes_map_byte (data : Bytes) : dataBytes (data.map .byte) = data := by
  induction data with
  | nil => rfl
  | cons b data ih => simp [dataBytes]

namespace Connection

/-- The items between `oldestUnackedSeq` and `sendSeq`: the last ones of what
    was cut from the writes. -/
def inFlight (c : Connection) (written : List StreamItem) : List StreamItem :=
  let cut := written.take (written.length - (queued c.pendingWrites).length)
  cut.drop (cut.length - (c.sendSeq - c.oldestUnackedSeq).toNat)

/-- Room that the peer's window leaves. -/
def room (c : Connection) : ℕ := c.sendWindow.toNat - (c.sendSeq - c.oldestUnackedSeq).toNat

/-- No mark is queued so near the front that the window admits what is before it. -/
def NoMark (c : Connection) : Prop := .eom ∉ (queued c.pendingWrites).take (c.room + 1)

instance (c : Connection) : Decidable c.NoMark := inferInstanceAs (Decidable (_ ∉ _))

end Connection

/-- Data packets of `id` that carry the items, one after the other, from `seq` to `stop`. -/
def Covers (id : UInt16) (stop : UInt32) : UInt32 → List Bytes → List StreamItem → Prop
  | seq, [], items => items = [] ∧ seq = stop
  | seq, p :: ps, items => ∃ packet rest, AdspPacket.parse p = .ok packet ∧
      packet.descriptor = .dataPacket ∧ packet.flags &&& AdspPacket.FLAG_ATTENTION = 0 ∧
      packet.connectionId = id ∧ packet.firstByteSeq = seq ∧
      items = record (p.drop AdspPacket.HEADER_LEN)
        (packet.flags &&& AdspPacket.FLAG_EOM != 0) ++ rest ∧
      Covers id stop (seq + seqLen (p.drop AdspPacket.HEADER_LEN)
        (packet.flags &&& AdspPacket.FLAG_EOM != 0)) ps rest

/-- What is unacknowledged on the connection `c` of `ep` can be sent again. -/
structure Recoverable (ep : AdspEndpoint) (c : Connection) (written : List StreamItem) : Prop where
  /-- the flight buffer holds the data bytes at and after `oldestUnackedSeq` -/
  flight : c.flightBuffer = dataBytes (c.inFlight written)
  /-- a deadline is pending -/
  deadline : c.sendSeq ≠ c.oldestUnackedSeq → ∃ d, ep.nextDeadline = some d ∧
    d ≤ c.lastTx + RETRANSMIT_TIMEOUT
  /-- a poll at it, or later, sends everything unacknowledged again -/
  resent : c.sendSeq ≠ c.oldestUnackedSeq → ∀ now, c.lastTx + RETRANSMIT_TIMEOUT ≤ now →
    ∃ before ps after, (ep.poll now).outbox =
        ep.outbox ++ before ++ ps.map (fun p => (c.remote, p)) ++ after ∧
      Covers c.ourConnId c.sendSeq c.oldestUnackedSeq ps (c.inFlight written)
  /-- an acknowledgement leaves the data bytes at and after it -/
  acked : ∀ packet, c.Acks packet → (c.takeAck packet).oldestUnackedSeq = packet.nextRecvSeq ∧
    (c.takeAck packet).flightBuffer = dataBytes ((c.inFlight written).drop
      (packet.nextRecvSeq - c.oldestUnackedSeq).toNat)

/-! ## The invariant of a connection -/

/-- Only bytes are in flight, and all of them are in the flight buffer. -/
structure Kept (c : Connection) (written : List StreamItem) : Prop where
  split : ∃ acked, written =
    acked ++ (c.flightBuffer.map .byte ++ Connection.queued c.pendingWrites)
  length : c.flightBuffer.length = (c.sendSeq - c.oldestUnackedSeq).toNat
  retries : c.retries < ADSP_MAX_RETRIES

section
variable {c : Connection} {written : List StreamItem}

theorem Kept.inFlight (h : Kept c written) :
    c.inFlight written = c.flightBuffer.map .byte := by
  obtain ⟨acked, hw⟩ := h.split
  have hcut : written.take (written.length - (Connection.queued c.pendingWrites).length) =
      acked ++ c.flightBuffer.map .byte := by
    rw [hw, ← List.append_assoc]
    exact List.take_left' (by simp only [List.length_append]; omega)
  simp only [Connection.inFlight, hcut]
  exact List.drop_left' (by simp only [List.length_append, List.length_map, h.length]; omega)

/-- The invariant is about the sending half only. -/
theorem Kept.congr (h : Kept c written) {c' : Connection}
    (hflight : c'.flightBuffer = c.flightBuffer) (hqueue : c'.pendingWrites = c.pendingWrites)
    (hsend : c'.sendSeq = c.sendSeq) (hold : c'.oldestUnackedSeq = c.oldestUnackedSeq)
    (hretries : c'.retries = c.retries) : Kept c' written :=
  ⟨by rw [hflight, hqueue]; exact h.split, by rw [hflight, hsend, hold]; exact h.length,
    by rw [hretries]; exact h.retries⟩

theorem kept_new (id : UInt16) (remote : ServiceAddress) (window : UInt16) (now : Micros) :
    Kept (Connection.new id remote window now) [] :=
  ⟨⟨[], rfl⟩, show 0 = ((0 : UInt32) - 0).toNat by decide, show 0 < ADSP_MAX_RETRIES by decide⟩

theorem Kept.cut (h : Kept c written) (hmark : c.NoMark) {c' : Connection} {w : UInt16}
    {ps : List Bytes} {chunk : Bytes} {eom : Bool} (hcut : Connection.Cut w c c' ps chunk eom) :
    Kept c' written ∧ c'.NoMark := by
  have hroom : chunk.length ≤ c.room := by
    by_cases hnil : chunk = []
    · simp [hnil]
    · have := hcut.window hnil
      simp only [Connection.room]; omega
  have heom : eom = false := by
    rcases eom with _ | _
    · rfl
    · refine absurd ?_ hmark
      rw [hcut.queue, record, List.append_assoc]
      refine List.mem_take_iff_getElem.2 ⟨chunk.length, ?_, ?_⟩
      · simp; omega
      · simp
  subst heom
  have hwin : c.sendWindow.toNat < 2 ^ 16 := c.sendWindow.toNat_lt
  have hfit : (c.sendSeq - c.oldestUnackedSeq).toNat + chunk.length < 2 ^ 32 := by
    by_cases hnil : chunk = []
    · have := (c.sendSeq - c.oldestUnackedSeq).toNat_lt
      simp [hnil, this]
    · have := hcut.window hnil; omega
  have hlen : (seqLen chunk false).toNat = chunk.length := by
    simp only [seqLen, Bool.false_eq_true, if_false, UInt32.add_zero]
    exact UInt32.toNat_ofNat_of_lt' (by simp only [UInt32.size]; omega)
  have hseq : (c.sendSeq + seqLen chunk false - c.oldestUnackedSeq).toNat =
      (c.sendSeq - c.oldestUnackedSeq).toNat + chunk.length := by
    simp only [UInt32.toNat_sub, UInt32.toNat_add, hlen] at hfit ⊢
    have := c.sendSeq.toNat_lt
    have := c.oldestUnackedSeq.toNat_lt
    omega
  have hqueue := hcut.queue
  simp only [record, Bool.false_eq_true, if_false, List.append_nil] at hqueue
  have hnext := hcut.next
  refine ⟨⟨?_, ?_, ?_⟩, ?_⟩
  · obtain ⟨acked, hw⟩ := h.split
    refine ⟨acked, ?_⟩
    rw [hw, hqueue, hnext, List.map_append, List.append_assoc]
  · rw [hnext, List.length_append, hseq, h.length]
  · rw [hnext]; exact h.retries
  · intro hmem
    refine hmark ?_
    rw [hqueue]
    have hroom' : c'.room + 1 + chunk.length = c.room + 1 := by
      rw [hnext]
      simp only [Connection.room, hseq] at hroom ⊢
      omega
    rw [← hroom', Nat.add_comm, List.take_append]
    refine List.mem_append_right _ ?_
    simpa using hmem

theorem Kept.pump (h : Kept c written) (hmark : c.NoMark) (w : UInt16) (now : Option Micros) :
    Kept (c.pump w now).conn written := by
  refine Connection.pump_induct (Q := fun c e => Kept c written → c.NoMark →
    Kept e.conn written) w now (fun _ h _ => h) (fun f hc ih h hmark => ?_) c h hmark
  obtain ⟨chunk, eom, hcut⟩ := Connection.cut_cases hc
  obtain ⟨h', hmark'⟩ := h.cut hmark hcut
  exact ih _ h' hmark'

theorem Kept.queueWrite (h : Kept c written) (data : Bytes) (eom : Bool) :
    Kept (c.queueWrite data eom) (written ++ record data eom) := by
  obtain ⟨acked, hw⟩ := h.split
  refine ⟨⟨acked, ?_⟩, h.length, h.retries⟩
  rw [hw]
  simp [Connection.queueWrite, Connection.queued]

theorem Kept.takeAck (h : Kept c written) (packet : AdspPacket) :
    Kept (c.takeAck packet) written := by
  unfold Connection.takeAck
  split
  · rename_i hack
    obtain ⟨hpos, hle⟩ := hack
    obtain ⟨acked, hw⟩ := h.split
    have hflight := h.length
    generalize hn : (packet.nextRecvSeq - c.oldestUnackedSeq).toNat = n at hpos hle ⊢
    have hmin : min n c.flightBuffer.length = n := by omega
    refine ⟨⟨acked ++ (c.flightBuffer.take n).map .byte, ?_⟩, ?_,
      show 0 < ADSP_MAX_RETRIES by decide⟩
    · rw [hw, hmin, List.append_assoc, ← List.append_assoc (List.map _ _), ← List.map_append,
        List.take_append_drop]
    · rw [hmin, List.length_drop, hflight]
      simp only [UInt32.toNat_sub] at hn hle hpos ⊢
      have := c.sendSeq.toNat_lt
      have := c.oldestUnackedSeq.toNat_lt
      have := packet.nextRecvSeq.toNat_lt
      omega
  · exact h.congr rfl rfl rfl rfl rfl

/-! ## The operations keep it -/

theorem Kept.applyAck (h : Kept c written) {packet : AdspPacket}
    (hmark : (c.takeAck packet).NoMark) (w : UInt16) (now : Micros) :
    Kept (c.applyAck w packet now).conn written := by
  rw [Connection.applyAck_eq]
  exact (h.takeAck packet).pump hmark w _

theorem Kept.resendUnacked (h : Kept c written) (w : UInt16) (now : Micros) :
    Kept (c.resendUnacked w now).conn written := by
  unfold Connection.resendUnacked
  split
  · exact h
  · exact h.congr rfl rfl rfl rfl rfl

theorem Kept.handleAttention (h : Kept c written) (key : UInt16) (packet : AdspPacket)
    (data : Bytes) : Kept (c.handleAttention key packet data).conn written := by
  unfold Connection.handleAttention
  split
  · exact h
  · dsimp only
    split
    · exact h.congr rfl rfl rfl rfl rfl
    · exact h

theorem Kept.handleAttentionAck (h : Kept c written) (key : UInt16) (packet : AdspPacket) :
    Kept (c.handleAttentionAck key packet).conn written := by
  unfold Connection.handleAttentionAck
  split
  · exact h
  split
  · exact h
  · exact h.congr rfl rfl rfl rfl rfl

theorem Kept.handleData (h : Kept c written) {packet : AdspPacket}
    (hmark : (c.takeAck packet).NoMark) (w key : UInt16) (data : Bytes) (now : Micros) :
    Kept (c.handleData w key packet data now).conn written := by
  rw [Connection.conn_handleData, Connection.receive_conn, Connection.applyAck_eq,
    Connection.takeAck_recvSeq]
  have hacked : Kept { c.takeAck packet with
      recvSeq := (c.receive key packet data).conn.recvSeq } written :=
    (h.takeAck packet).congr rfl rfl rfl rfl rfl
  exact hacked.pump hmark w _

/-! ## The timers -/

/-- With its next retransmission not the last one. -/
def KeptTimely (now : Micros) (c : Connection) (written : List StreamItem) : Prop :=
  Kept c written ∧ (c.retransmitDue now → c.retries + 1 < ADSP_MAX_RETRIES)

theorem KeptTimely.pollAttention {now : Micros} (h : KeptTimely now c written) (key : UInt16) :
    KeptTimely now (c.pollAttention key now).conn written := by
  unfold Connection.pollAttention
  split
  · exact h
  split
  · exact h
  split
  · exact ⟨h.1.congr rfl rfl rfl rfl rfl, h.2⟩
  · exact ⟨h.1.congr rfl rfl rfl rfl rfl, h.2⟩

end

section
variable {ep : AdspEndpoint} {written : UInt16 → List StreamItem}

open AdspSession

/-- A retransmission is not due again at once. -/
theorem keptTimely_pollData {now : Micros} (h : Each (KeptTimely now) ep written) (key : UInt16) :
    Each (KeptTimely now) (ep.pollData now key) written := by
  unfold AdspEndpoint.pollData
  split
  · exact h
  · rename_i c hc
    split
    · exact h
    dsimp only
    split
    · exact each_forget h key
    · rename_i hdue hretries
      refine each_onConn h fun d hd hkept => ?_
      obtain rfl := Option.some.inj (hc.symm.trans hd)
      have hdue' : c.retransmitDue now = true := not_not.1 hdue
      have hlt := hkept.2 hdue'
      have hflight : c.flightBuffer ≠ [] := by
        simp only [Connection.retransmitDue, decide_eq_true_eq] at hdue'
        exact hdue'.1
      have hmin : min (c.retries + 1) 255 < ADSP_MAX_RETRIES := by
        simp only [ADSP_MAX_RETRIES] at hlt ⊢; omega
      have hretried : Kept { c with retries := min (c.retries + 1) 255 } (written key) :=
        ⟨hkept.1.split, hkept.1.length, hmin⟩
      refine ⟨hretried.resendUnacked _ now, ?_⟩
      intro hagain
      rw [Connection.resendUnacked, if_neg hflight] at hagain
      simp [Connection.retransmitDue, RETRANSMIT_TIMEOUT] at hagain

theorem keptTimely_poll {now : Micros} (h : Each (KeptTimely now) ep written) :
    Each (KeptTimely now) (ep.poll now) written := by
  have hopens : Each (KeptTimely now) (ep.pollOpens now) written := by
    intro k c hc
    rw [(AdspEndpoint.apart_pollOpens ep now).connection] at hc
    exact h k c hc
  exact each_foldl (fun _ k hk => keptTimely_pollData hk k) _
    (each_foldl (fun _ k hk => each_onConn hk fun c _ hc => hc.pollAttention k) _ hopens)

end

/-! ## A poll at the deadline -/

section
variable {ep : AdspEndpoint} {k : UInt16} {c : Connection} {written : List StreamItem}

theorem covers_chunks (c : Connection) (w : UInt16) : ∀ (n : ℕ) (data : Bytes) (seq : UInt32),
    data.length ≤ n → data ≠ [] →
    Covers c.ourConnId (seq + UInt32.ofNat data.length) seq
      ((chunks ADSP_MAX_DATA data).mapIdx fun i chunk =>
        c.dataPacket w (seq + UInt32.ofNat (i * ADSP_MAX_DATA)) false chunk)
      (data.map .byte)
  | 0, data, seq, hlen, hne => absurd (List.length_eq_zero_iff.1 (Nat.le_zero.1 hlen)) hne
  | n + 1, data, seq, hlen, hne => by
    have hflag : ((if false then 0x60 else 0x40 : UInt8) &&& AdspPacket.FLAG_EOM != 0) = false := by
      decide
    have hattn : (if false then 0x60 else 0x40 : UInt8) &&& AdspPacket.FLAG_ATTENTION = 0 := by
      decide
    by_cases hle : data.length ≤ ADSP_MAX_DATA
    · rw [chunks_of_length_le hne hle]
      refine ⟨_, [], parse_dataPacket .., rfl, hattn, rfl, ?_, ?_, ?_⟩
      · simp
      · rw [drop_dataPacket, hflag]; simp [record]
      · refine ⟨rfl, ?_⟩
        rw [drop_dataPacket, hflag]; simp [seqLen]
    · have hlt : ADSP_MAX_DATA < data.length := Nat.lt_of_not_le hle
      have hmax : 0 < ADSP_MAX_DATA := by decide
      rw [chunks_cons hmax hlt, List.mapIdx_cons]
      have htake : (data.take ADSP_MAX_DATA).length = ADSP_MAX_DATA := by
        rw [List.length_take]; omega
      have hrest : data.length = ADSP_MAX_DATA + (data.drop ADSP_MAX_DATA).length := by
        rw [List.length_drop]; omega
      have hdrop : data.drop ADSP_MAX_DATA ≠ [] := by
        rw [ne_eq, List.drop_eq_nil_iff]; omega
      refine ⟨_, (data.drop ADSP_MAX_DATA).map .byte, parse_dataPacket .., rfl, hattn, rfl,
        ?_, ?_, ?_⟩
      · simp
      · rw [drop_dataPacket, hflag, record]
        simp
      · rw [drop_dataPacket, hflag]
        have hstep : seqLen (data.take ADSP_MAX_DATA) false = UInt32.ofNat ADSP_MAX_DATA := by
          simp [seqLen, htake]
        have hih := covers_chunks c w n (data.drop ADSP_MAX_DATA)
          (seq + UInt32.ofNat ADSP_MAX_DATA) (by omega) hdrop
        have hshift : ∀ i : ℕ, seq + UInt32.ofNat ((i + 1) * ADSP_MAX_DATA) =
            seq + UInt32.ofNat ADSP_MAX_DATA + UInt32.ofNat (i * ADSP_MAX_DATA) := by
          intro i
          rw [Nat.succ_mul, UInt32.ofNat_add, UInt32.add_assoc, UInt32.add_comm (.ofNat _)]
        have hstop : seq + UInt32.ofNat data.length = seq + UInt32.ofNat ADSP_MAX_DATA +
            UInt32.ofNat (data.drop ADSP_MAX_DATA).length := by
          rw [UInt32.add_assoc, ← UInt32.ofNat_add, ← hrest]
        rw [hstep, hstop]
        simp only [hshift]
        exact hih

theorem covers_resendUnacked
    (h : c.flightBuffer.length = (c.sendSeq - c.oldestUnackedSeq).toNat)
    (hne : c.flightBuffer ≠ []) (w : UInt16) (now : Micros) :
    Covers c.ourConnId c.sendSeq c.oldestUnackedSeq
      (c.resendUnacked w now).packets (c.flightBuffer.map .byte) := by
  have hcovers := covers_chunks c w _ c.flightBuffer c.oldestUnackedSeq (Nat.le_refl _) hne
  have hstop : c.oldestUnackedSeq + UInt32.ofNat c.flightBuffer.length = c.sendSeq := by
    rw [h, UInt32.ofNat_toNat, UInt32.add_comm, UInt32.sub_add_cancel]
  rw [hstop] at hcovers
  rw [Connection.resendUnacked, if_neg hne]
  exact hcovers

theorem pollAttention_conn (key : UInt16) (now : Micros) (c : Connection) :
    (c.pollAttention key now).conn =
      { c with attnInFlight := (c.pollAttention key now).conn.attnInFlight } := by
  unfold Connection.pollAttention
  split
  · rfl
  split
  · rfl
  split <;> rfl

theorem onConn_of_some {f : Connection → Effect} (hc : ep.connections[k]? = some c) :
    (ep.onConn k f).connections[k]? = some (f c).conn ∧
      (ep.onConn k f).outbox = ep.outbox ++ (f c).packets.map (fun p => ((f c).conn.remote, p)) ∧
      (ep.onConn k f).recvWindow = ep.recvWindow := by
  simp [AdspEndpoint.onConn, hc]

/-- A poll that finds a retransmission due sends it, unless it gives up. -/
theorem poll_resends (hc : ep.connections[k]? = some c) {now : Micros}
    (hdue : c.retransmitDue now = true) (hretries : c.retries < ADSP_MAX_RETRIES) :
    ∃ (before after : List (ServiceAddress × Bytes)) (d : Connection),
      (ep.poll now).outbox = ep.outbox ++ before ++
        (d.resendUnacked ep.recvWindow now).packets.map (fun p => (c.remote, p)) ++ after ∧
      d = { c with attnInFlight := d.attnInFlight, retries := d.retries } := by
  have hopens := AdspEndpoint.apart_pollOpens (k := k) ep now
  have hk : k ∈ (ep.pollOpens now).connections := by
    rw [← Std.TreeMap.isSome_getElem?_iff_mem, hopens.connection, hc]; rfl
  -- The attention timers come first; only that of `k` touches the connection.
  obtain ⟨ep1, h1, h2⟩ := AdspEndpoint.foldl_keys_at
    (g := fun ep key => ep.onConn key (Connection.pollAttention key now))
    (fun ep j hj => AdspEndpoint.apart_onConn ep hj _) hk (ep.pollOpens now)
  have hc1 : ep1.connections[k]? = some c := by rw [h1.connection, hopens.connection, hc]
  obtain ⟨hconn1, hout1, hwin1⟩ := onConn_of_some (f := Connection.pollAttention k now) hc1
  have hattn := pollAttention_conn k now c
  generalize (c.pollAttention k now).conn = c1 at hconn1 hattn
  generalize hep2 : (ep.pollOpens now).connections.keys.foldl
    (fun ep key => ep.onConn key (Connection.pollAttention key now)) (ep.pollOpens now) = ep2 at h2
  have hc2 : ep2.connections[k]? = some c1 := h2.connection.trans hconn1
  have hk2 : k ∈ ep2.connections := by
    rw [← Std.TreeMap.isSome_getElem?_iff_mem, hc2]; rfl
  -- Then the data timers.
  obtain ⟨ep3, h3, h4⟩ := AdspEndpoint.foldl_keys_at
    (g := AdspEndpoint.pollData now)
    (fun ep j hj => AdspEndpoint.apart_pollData ep now hj) hk2 ep2
  have hc3 : ep3.connections[k]? = some c1 := h3.connection.trans hc2
  have hdata : ep3.pollData now k = ep3.onConn k fun c =>
      ({ c with retries := min (c1.retries + 1) 255 } : Connection).resendUnacked
        ep3.recvWindow now := by
    have hdue1 : c1.retransmitDue now = true := by rw [hattn]; exact hdue
    have hgive : ¬ min (c1.retries + 1) 255 > ADSP_MAX_RETRIES := by
      rw [hattn]
      simp only [ADSP_MAX_RETRIES] at hretries ⊢
      omega
    simp only [AdspEndpoint.pollData, hc3, hdue1, not_true_eq_false, if_false, hgive]
  obtain ⟨-, hout3, -⟩ := onConn_of_some (f := fun c =>
    ({ c with retries := min (c1.retries + 1) 255 } : Connection).resendUnacked
      ep3.recvWindow now) hc3
  rw [hdata] at h4
  have hremote : ∀ d : Connection, (d.resendUnacked ep3.recvWindow now).conn.remote = d.remote :=
    fun d => by unfold Connection.resendUnacked; split <;> rfl
  have hwindow : ep3.recvWindow = ep.recvWindow := by
    rw [h3.window, h2.window, hwin1, h1.window, hopens.window]
  obtain ⟨before, hbefore⟩ : ep.outbox <+: ep3.outbox := by
    refine ((hopens.outbox.trans h1.outbox).trans ?_).trans (h2.outbox.trans h3.outbox)
    rw [hout1]; exact List.prefix_append _ _
  obtain ⟨after, hafter⟩ := h4.outbox
  have hpoll : (ep.poll now).outbox = (ep2.connections.keys.foldl
      (AdspEndpoint.pollData now) ep2).outbox := by
    simp only [AdspEndpoint.poll, hep2]
  refine ⟨before, after, { c1 with retries := min (c1.retries + 1) 255 }, ?_, by rw [hattn]⟩
  rw [hpoll, ← hafter, hout3, hremote, hwindow, ← hbefore, hattn]

theorem min?_le_of_mem {x : ℕ} {xs : List ℕ} (h : x ∈ xs) : ∃ d, xs.min? = some d ∧ d ≤ x := by
  obtain ⟨d, hd⟩ := Option.isSome_iff_exists.1 (List.isSome_min?_of_mem h)
  exact ⟨d, hd, (List.min?_eq_some_iff.1 hd).2 x h⟩

theorem nextDeadline_le (hc : ep.connections[k]? = some c) (hne : c.flightBuffer ≠ []) :
    ∃ d, ep.nextDeadline = some d ∧ d ≤ c.lastTx + RETRANSMIT_TIMEOUT := by
  refine min?_le_of_mem (List.mem_append_left _ (List.mem_map.2 ⟨c, ?_, rfl⟩))
  exact List.mem_filter.2 ⟨mem_values _ hc, by simpa using hne⟩

theorem Kept.recoverable (h : Kept c written) (hc : ep.connections[k]? = some c) :
    Recoverable ep c written := by
  have hempty : c.sendSeq ≠ c.oldestUnackedSeq → c.flightBuffer ≠ [] := by
    intro hne hnil
    have hlen := h.length
    rw [hnil] at hlen
    refine hne (UInt32.toNat_inj.1 ?_)
    rw [UInt32.toNat_sub] at hlen
    have := c.sendSeq.toNat_lt
    have := c.oldestUnackedSeq.toNat_lt
    simp only [List.length_nil] at hlen
    omega
  refine ⟨?_, fun hne => nextDeadline_le hc (hempty hne), fun hne now hnow => ?_, ?_⟩
  · rw [h.inFlight, dataBytes_map_byte]
  · have hdue : c.retransmitDue now = true := by
      have htime : ¬ now - c.lastTx < RETRANSMIT_TIMEOUT := by
        simp only [RETRANSMIT_TIMEOUT] at hnow ⊢
        exact Nat.not_lt.2 (Nat.le_sub_of_add_le' hnow)
      simp only [Connection.retransmitDue, decide_eq_true_eq]
      exact ⟨hempty hne, htime⟩
    obtain ⟨before, after, d, hout, hd⟩ := poll_resends hc hdue h.retries
    refine ⟨before, _, after, hout, ?_⟩
    have hcovers : Covers d.ourConnId d.sendSeq d.oldestUnackedSeq
        (d.resendUnacked ep.recvWindow now).packets (d.flightBuffer.map .byte) :=
      covers_resendUnacked (by rw [hd]; exact h.length) (by rw [hd]; exact hempty hne) _ now
    rw [h.inFlight]
    generalize (d.resendUnacked ep.recvWindow now).packets = ps at hcovers ⊢
    rw [hd] at hcovers
    exact hcovers
  · intro packet hack
    rw [h.inFlight, ← List.map_drop, dataBytes_map_byte, Connection.takeAck, if_pos hack]
    refine ⟨rfl, ?_⟩
    have hle := hack.2
    have hmin : min (packet.nextRecvSeq - c.oldestUnackedSeq).toNat c.flightBuffer.length =
        (packet.nextRecvSeq - c.oldestUnackedSeq).toNat :=
      Nat.min_eq_left (h.length.symm ▸ hle)
    dsimp only
    rw [hmin]

end

/-! ## Sessions -/

/-- No pump cuts an EOM mark, and no poll makes the last retransmission. -/
def RetransmitOk (s : AdspSession) : AdspInput → Prop
  | .send conn data eom => ∀ c ∈ s.ep.connections[conn]?, (c.queueWrite data eom).NoMark
  | .datagram _ payload _ =>
    ∀ packet ∈ (AdspPacket.parse payload).toOption,
      packet.flags &&& AdspPacket.FLAG_ATTENTION = 0 →
        (packet.descriptor = .dataPacket ∨ packet.descriptor = .controlPacket) ∨
          packet.descriptor = .retransmitAdvice →
        ∀ c ∈ s.ep.connections[packet.connectionId]?, (c.takeAck packet).NoMark
  | .poll now => ∀ kc ∈ s.ep.connections.toList,
      kc.2.retransmitDue now = true → kc.2.retries + 1 < ADSP_MAX_RETRIES
  | _ => True

instance (s : AdspSession) : ∀ a, Decidable (RetransmitOk s a)
  | .send .. | .poll _ | .datagram .. => by unfold RetransmitOk; infer_instance
  | .connect .. | .abandonOpen _ | .setListening _ | .setRecvWindow _ | .sendAttention ..
  | .close _ | .pollTransmit | .pollEvent => inferInstanceAs (Decidable True)

open AdspSession

/-- A datagram keeps the invariant of every connection. -/
theorem kept_datagram {s : AdspSession} (h : Each Kept s.ep s.written) {src : ServiceAddress}
    {payload : Bytes} {now : Micros} (hok : RetransmitOk s (.datagram src payload now)) :
    Each Kept (s.ep.handleDatagram src payload now) (s.carry payload) := by
  intro k c hc
  have hhad : ∀ {d}, s.ep.connections[k]? = some d → s.carry payload k = s.written k :=
    fun {d} hd => if_pos ((contains_iff_getElem? _ _).2 ⟨d, hd⟩)
  cases AdspEndpoint.handleDatagram_handled hc with
  | same hd => rw [hhad hd]; exact h k c hd
  | data hparse hflag hkind hkey hd =>
    rw [hhad hd]
    subst hkey
    have hmark := hok _ (by rw [hparse]; rfl) hflag (Or.inl hkind) _ hd
    exact (h _ _ hd).handleData hmark _ _ _ _
  | advice hparse hflag hkind hkey hd =>
    rw [hhad hd]
    subst hkey
    have hmark := hok _ (by rw [hparse]; rfl) hflag (Or.inr hkind) _ hd
    exact ((h _ _ hd).applyAck hmark _ _).resendUnacked _ _
  | attention packet hd => rw [hhad hd]; exact (h _ _ hd).handleAttention ..
  | attentionAck packet hd => rw [hhad hd]; exact (h _ _ hd).handleAttentionAck ..
  | fresh id remote window hnone hmoved =>
    rw [AdspSession.carry, hnone, hmoved]
    exact kept_new id remote window now
  | moved hnone hmoved =>
    rw [AdspSession.carry, hnone, hmoved]
    exact h _ _ (AdspEndpoint.rekeyed_mem hmoved)

theorem kept_step (s : AdspSession) (a : AdspInput) (h : Each Kept s.ep s.written)
    (hok : RetransmitOk s a) : Each Kept (s.step a).ep (s.step a).written := by
  cases a with
  | datagram src payload now => exact kept_datagram h hok
  | connect remote now =>
    simp only [AdspSession.step, AdspEndpoint.connect]
    cases AdspEndpoint.drawConnId s.ep.pendingOpens 4294967296 s.ep.rng with
    | none => exact h
    | some r => exact h
  | abandonOpen _ | setListening _ | pollTransmit | pollEvent => exact h
  | setRecvWindow window =>
    simp only [AdspSession.step, AdspEndpoint.setRecvWindow]
    split
    · exact each_foldl (fun _ _ hk => each_onConn hk fun _ _ hc => hc) _ h
    · exact h
  | send conn data eom =>
    simp only [AdspSession.step, AdspEndpoint.send]
    rcases hd : s.ep.connections[conn]? with _ | d
    · exact h
    · dsimp only
      intro k c hc
      rcases AdspEndpoint.getElem?_onConn hc with ⟨hne, hc⟩ | ⟨rfl, e, he, rfl⟩
      · rw [Function.update_of_ne hne]; exact h k c hc
      · rw [Function.update_self]
        exact ((h k e he).queueWrite data eom).pump (hok e he) _ _
  | sendAttention conn code data now =>
    simp only [AdspSession.step, AdspEndpoint.sendAttention]
    split
    · exact h
    split
    · exact h
    · exact each_onConn h fun _ _ hc => hc.congr rfl rfl rfl rfl rfl
  | close conn =>
    simp only [AdspSession.step, AdspEndpoint.close]
    split
    · exact h
    · exact each_forget h conn
  | poll now =>
    have htimely : Each (KeptTimely now) s.ep s.written := fun k c hc =>
      ⟨h k c hc, hok (k, c) (Std.TreeMap.mem_toList_iff_getElem?_eq_some.2 hc)⟩
    exact fun k c hc => (keptTimely_poll htimely k c hc).1

/-- **What is unacknowledged can be sent again.**  In every run of an endpoint,
    under any calls and any datagrams that meet `RetransmitOk`, every
    connection is recoverable. -/
theorem unacked_recoverable {localSocket : UInt8} {seed : UInt32} {as : List AdspInput}
    (hok : Along AdspSession.step RetransmitOk (AdspSession.new localSocket seed) as)
    {k : UInt16} {c : Connection}
    (hc : (run AdspSession.step (AdspSession.new localSocket seed) as).ep.connections[k]? =
      some c) :
    Recoverable (run AdspSession.step (AdspSession.new localSocket seed) as).ep c
      ((run AdspSession.step (AdspSession.new localSocket seed) as).written k) := by
  have hstart : Each Kept (AdspSession.new localSocket seed).ep
      (AdspSession.new localSocket seed).written := by
    intro j d hd
    simp [AdspSession.new, AdspEndpoint.new] at hd
  have hkept : (fun s : AdspSession => Each Kept s.ep s.written)
      (run AdspSession.step (AdspSession.new localSocket seed) as) :=
    inv_run AdspSession.step kept_step hstart hok
  exact (hkept k c hc).recoverable hc

/-- A peer opens its connection 7; of three bytes written in two writes two are acknowledged. -/
def ackedRun : List AdspInput :=
  [.setListening true, .datagram ⟨0, 1, 140⟩ openSeven 0, .send 7 [104, 105] false,
    .send 7 [120] false,
    .datagram ⟨0, 1, 140⟩ ({ descriptor := .controlPacket, connectionId := 7, firstByteSeq := 0
                             nextRecvSeq := 2, recvWindow := 1024, flags := 0 } :
                             AdspPacket).toBytes 1]

theorem unacked_recoverable_ackedRun :
    ∃ c, (run AdspSession.step (AdspSession.new 130 1) ackedRun).ep.connections[(7 : UInt16)]? =
        some c ∧ c.flightBuffer = [120] ∧
      Recoverable (run AdspSession.step (AdspSession.new 130 1) ackedRun).ep c
        ((run AdspSession.step (AdspSession.new 130 1) ackedRun).written 7) := by
  have hok : Along AdspSession.step RetransmitOk (AdspSession.new 130 1) ackedRun := by decide
  have hflight : ((run AdspSession.step (AdspSession.new 130 1) ackedRun).ep.connections[(7 :
      UInt16)]?).map (·.flightBuffer) = some [120] := by decide
  obtain ⟨c, hc, hbuffer⟩ := Option.map_eq_some_iff.1 hflight
  exact ⟨c, hc, hbuffer, unacked_recoverable hok hc⟩

/-- A record boundary is written with no data before it. -/
def bareMarkRun : List AdspInput :=
  [.setListening true, .datagram ⟨0, 1, 140⟩ openSeven 0, .send 7 [] true]

/-- The bare mark is in flight, and no deadline is pending. -/
theorem bareMarkRun_not_recoverable :
    ∃ c, (run AdspSession.step (AdspSession.new 130 1) bareMarkRun).ep.connections[(7 :
        UInt16)]? = some c ∧ c.sendSeq ≠ c.oldestUnackedSeq ∧
      (run AdspSession.step (AdspSession.new 130 1) bareMarkRun).ep.nextDeadline = none ∧
      ¬ Recoverable (run AdspSession.step (AdspSession.new 130 1) bareMarkRun).ep c
        ((run AdspSession.step (AdspSession.new 130 1) bareMarkRun).written 7) := by
  have hseq : ((run AdspSession.step (AdspSession.new 130 1) bareMarkRun).ep.connections[(7 :
      UInt16)]?).map (fun c => (c.sendSeq, c.oldestUnackedSeq)) = some (1, 0) := by decide
  have hnone : (run AdspSession.step (AdspSession.new 130 1) bareMarkRun).ep.nextDeadline =
      none := by decide
  obtain ⟨c, hc, hpair⟩ := Option.map_eq_some_iff.1 hseq
  obtain ⟨hsend, hold⟩ := Prod.mk.inj hpair
  have hne : c.sendSeq ≠ c.oldestUnackedSeq := by rw [hsend, hold]; decide
  refine ⟨c, hc, hne, hnone, fun h => ?_⟩
  obtain ⟨d, hd, -⟩ := h.deadline hne
  rw [hnone] at hd
  cases hd

end TailTalk
