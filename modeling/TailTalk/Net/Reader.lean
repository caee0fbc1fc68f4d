/-
  Reading a stream of the embedded stack message by message.

  `Recounted` is what the reads owe: the messages of the stream in order, each
  as it is where it fits the buffer of its read, and given up as too long where
  it does not.  `heard_step` and `read_step` are the two steps: an event that
  reaches the stream, and a look of a read at it.
-/
import TailTalk.Lib.Messages
import TailTalk.Lib.Run
import TailTalk.Net.Adsp

namespace TailTalk

open Lib

/-! ## What the reads owe -/

/-- What a read with a buffer of `len` bytes is to return of a message. -/
def messageResult (len : ℕ) (message : Bytes) : Except MessageError Bytes :=
  if message.length ≤ len then .ok message else .error .tooLong

/-- A read, by the length of its buffer and what it returned, got what is due of a message. -/
def Recounts (read : ℕ × Except MessageError Bytes) (message : Bytes) : Prop :=
  read.2 = messageResult read.1 message

/-- The reads got what is due of the first messages; the last one may have been given up before
    its end came. -/
inductive Recounted (stream : Messages UInt8)
    (results : List (ℕ × Except MessageError Bytes)) : Prop
  | whole (hle : results.length ≤ stream.ended.length)
      (h : List.Forall₂ Recounts results (stream.ended.take results.length))
  | ahead {before len} (hresults : results = before ++ [(len, .error .tooLong)])
      (h : List.Forall₂ Recounts before stream.ended) (hlong : len < stream.rest.length)

/-- What a connection still holds of the stream, after some reads. -/
inductive Holding (stream : Messages UInt8) (results : List (ℕ × Except MessageError Bytes))
    (c : Conn) : Prop
  | reading (hskip : c.skipping = false) (hle : results.length ≤ stream.ended.length)
      (hrx : c.rx = Messages.elems ⟨stream.ended.drop results.length, stream.rest⟩)
      (heoms : c.eoms = Messages.offsets (stream.ended.drop results.length))
  | skipping (hskip : c.skipping = true) (hlt : stream.ended.length < results.length)
      (hrx : c.rx = []) (heoms : c.eoms = [])

section
variable {stream : Messages UInt8} {results : List (ℕ × Except MessageError Bytes)} {c : Conn}

theorem Recounted.length_le (h : Recounted stream results) :
    results.length ≤ stream.ended.length + 1 := by
  cases h with
  | whole hle h => omega
  | ahead hresults h hlong =>
    have hlen := h.length_eq
    rw [hresults, List.length_append, hlen, List.length_singleton]

theorem Recounted.push (h : Recounted stream results) (bytes : Bytes) (eom : Bool) :
    Recounted (stream.push bytes eom) results := by
  cases h with
  | whole hle h =>
    cases eom with
    | false => exact .whole hle h
    | true =>
      refine .whole (hle.trans ?_) ?_
      · simp [Messages.push]
      · simp only [Messages.push, if_true]
        rwa [List.take_append_of_le_length hle]
  | @ahead before len hresults h hlong =>
    cases eom with
    | false =>
      refine .ahead hresults h ?_
      simp only [Messages.push, Bool.false_eq_true, if_false, List.length_append]
      omega
    | true =>
      -- The message that was given up ends, and is longer than the buffer was.
      have hlast : Recounts (len, .error .tooLong) (stream.rest ++ bytes) := by
        rw [Recounts, messageResult, if_neg]
        rw [List.length_append]
        omega
      have hlen : results.length = (stream.push bytes true).ended.length := by
        simp [hresults, Messages.push, h.length_eq]
      refine .whole hlen.le ?_
      rw [hlen, List.take_length, hresults]
      exact List.rel_append h (.cons hlast .nil)

theorem Holding.data (ha : Recounted stream results) (h : Holding stream results c) (bytes : Bytes)
    (eom : Bool) : Holding (stream.push bytes eom) results (c.data bytes eom) := by
  unfold Conn.data
  cases h with
  | reading hskip hle hrx heoms =>
    have hdrop : ∀ x : Bytes, (stream.ended ++ [x]).drop results.length =
        stream.ended.drop results.length ++ [x] := fun x => List.drop_append_of_le_length hle
    rw [if_neg (by rw [hskip]; exact Bool.false_ne_true), hrx, heoms]
    cases eom with
    | false =>
      refine .reading hskip hle ?_ rfl
      simp [Messages.push, Messages.elems]
    | true =>
      refine .reading hskip (hle.trans ?_) ?_ ?_
      · simp [Messages.push]
      · simp [Messages.push, Messages.elems, hdrop]
      · simp [Messages.push, Messages.elems, hdrop, Messages.offsets_append]
  | skipping hskip hlt hrx heoms =>
    have hle := ha.length_le
    rw [if_pos hskip]
    cases eom with
    | false => exact .skipping rfl hlt hrx heoms
    | true =>
      have hend : (stream.ended ++ [stream.rest ++ bytes]).drop results.length = [] := by
        rw [List.drop_eq_nil_iff, List.length_append, List.length_singleton]
        exact Nat.succ_le_of_lt hlt
      refine .reading rfl ?_ ?_ ?_
      · simpa [Messages.push] using hle
      · simpa [Messages.push, hend, Messages.elems] using hrx
      · simpa [Messages.push, hend, Messages.offsets] using heoms

/-- Only the queue matters. -/
theorem Holding.congr (h : Holding stream results c) {c' : Conn} (hrx : c'.rx = c.rx)
    (heoms : c'.eoms = c.eoms) (hskip : c'.skipping = c.skipping) :
    Holding stream results c' := by
  cases h with
  | reading hs hle hr he =>
    exact .reading (hskip.trans hs) hle (hrx.trans hr) (heoms.trans he)
  | skipping hs hlt hr he =>
    exact .skipping (hskip.trans hs) hlt (hrx.trans hr) (heoms.trans he)

theorem Holding.readMessage_cons (ha : Recounted stream results) (h : Holding stream results c)
    {stop : ℕ} {rest : List ℕ} (heoms : c.eoms = stop :: rest) (len : ℕ) :
    ∃ r c', c.readMessage len = some (r, c') ∧ r ≠ .error .closed ∧
      Recounted stream (results ++ [(len, r)]) ∧ Holding stream (results ++ [(len, r)]) c' := by
  cases h with
  | skipping hskip hlt hrx heoms' => rw [heoms] at heoms'; cases heoms'
  | reading hskip hle hrx hends =>
    rw [heoms] at hends
    rcases hnext : stream.ended.drop results.length with _ | ⟨x, xs⟩
    · rw [hnext] at hends; cases hends
    rw [hnext] at hends hrx
    obtain ⟨rfl, hrest⟩ := List.cons.inj hends
    have htake : c.rx.take x.length = x := by
      rw [hrx, Messages.take_elems le_rfl, List.take_length]
    have hdrop : c.rx.drop x.length = Messages.elems ⟨xs, stream.rest⟩ := by
      rw [hrx, Messages.drop_elems le_rfl, List.drop_length, Messages.elems_nil_cons]
    have hlt : results.length < stream.ended.length := by
      by_contra hge
      rw [List.drop_eq_nil_of_le (by omega)] at hnext
      cases hnext
    have hxs : stream.ended.drop (results.length + 1) = xs := by
      rw [← List.drop_drop, hnext]
      rfl
    have htaken : stream.ended.take (results.length + 1) =
        stream.ended.take results.length ++ [x] := by
      rw [List.take_add, hnext]
      rfl
    have hall : List.Forall₂ Recounts results (stream.ended.take results.length) := by
      cases ha with
      | whole _ hall => exact hall
      | ahead hresults hall _ =>
        have hlen := hall.length_eq
        rw [hresults, List.length_append, List.length_singleton] at hlt
        omega
    refine ⟨_, _, by rw [Conn.readMessage, heoms], ?_, ?_, ?_⟩
    · split <;> nofun
    · refine .whole ?_ ?_
      · simpa using Nat.succ_le_of_lt hlt
      · rw [List.length_append, List.length_singleton, htaken]
        refine List.rel_append hall (.cons ?_ .nil)
        simp only [Recounts, messageResult, htake]
        by_cases hfits : x.length ≤ len
        · rw [if_pos hfits, if_neg (by omega)]
        · rw [if_neg hfits, if_pos (by omega)]
    · refine .reading hskip ?_ ?_ ?_
      · simpa using Nat.succ_le_of_lt hlt
      · rw [List.length_append, List.length_singleton, hxs]
        exact hdrop
      · rw [List.length_append, List.length_singleton, hxs, hrest, List.map_map]
        simp [Function.comp_def]

/-- A look of a read returns what is due, or no message has come to its end. Then the queue is no
    longer than the buffer, unless the connection has closed. -/
theorem Holding.readMessage (ha : Recounted stream results) (h : Holding stream results c) {len : ℕ}
    (hlen : len ≤ RX_WINDOW - ADSP_MAX_DATA) :
    (∃ r c', c.readMessage len = some (r, c') ∧ r ≠ .error .closed ∧
        Recounted stream (results ++ [(len, r)]) ∧ Holding stream (results ++ [(len, r)]) c') ∨
      stream.ended.length ≤ results.length ∧
        (c.closed = true ∧ c.readMessage len = some (.error .closed, c) ∨
          c.closed = false ∧ c.readMessage len = none ∧ c.rx.length ≤ len) := by
  rcases heoms : c.eoms with _ | ⟨stop, rest⟩
  · cases hclosed : c.closed with
    | true =>
      refine .inr ⟨?_, .inl ⟨rfl, ?_⟩⟩
      · cases h with
        | reading hskip hle hrx hends =>
          rw [heoms, eq_comm, Messages.offsets_eq_nil, List.drop_eq_nil_iff] at hends
          exact hends
        | skipping hskip hlt hrx hends => exact hlt.le
      · rw [Conn.readMessage, heoms]
        simp [hclosed]
    | false =>
      cases h with
      | skipping hskip hlt hrx hends =>
        refine .inr ⟨hlt.le, .inr ⟨rfl, ?_, ?_⟩⟩
        · rw [Conn.readMessage, heoms]
          simp [hclosed, hrx]
        · simp [hrx]
      | reading hskip hle hrx hends =>
        rw [heoms, eq_comm, Messages.offsets_eq_nil, List.drop_eq_nil_iff] at hends
        have hrest : c.rx = stream.rest := by
          rw [hrx, List.drop_eq_nil_of_le hends]
          rfl
        have hall : List.Forall₂ Recounts results stream.ended := by
          cases ha with
          | whole _ hall => rwa [List.take_of_length_le hends] at hall
          | ahead hresults hall _ =>
            have hlast := hall.length_eq
            rw [hresults, List.length_append, List.length_singleton] at hle
            omega
        by_cases hlong : c.rx.length > len
        · refine .inl ⟨.error .tooLong, { c with rx := [], skipping := true }, ?_, nofun, ?_, ?_⟩
          · rw [Conn.readMessage, heoms]
            simp [hclosed, hlong]
          · exact .ahead rfl hall (hrest ▸ hlong)
          · refine .skipping rfl ?_ rfl heoms
            rw [List.length_append, List.length_singleton]
            omega
        · refine .inr ⟨hends, .inr ⟨rfl, ?_, Nat.le_of_not_lt hlong⟩⟩
          rw [Conn.readMessage, heoms]
          have hshort : ¬ c.rx.length > RX_WINDOW - ADSP_MAX_DATA := by omega
          simp [hclosed, hlong, hshort]
  · exact .inl (h.readMessage_cons ha heoms len)

end

/-! ## A stream in its socket -/

/-- A socket, and what has happened to one stream on it. -/
structure StreamReader where
  state : AdspState
  /-- the data events that reached the stream -/
  arrived : List (Bytes × Bool)
  /-- the messages its reads returned or gave up, with the lengths of their buffers -/
  results : List (ℕ × Except MessageError Bytes)
  /-- bytes held in the fullest of the streams that were dropped before anyone held them, since
      the window was last set -/
  stale : ℕ
  /-- the window in the last packet queued for a connection, by its remote and our ConnID -/
  told : ServiceAddress × UInt16 → Option UInt16

namespace StreamReader

/-- What of an event reaches the stream `id`. -/
def heard (id : UInt32) (s : AdspState) : AdspEvent → List (Bytes × Bool)
  | .data conn bytes eom => if (s.byKey conn).map (·.1) = some id then [(bytes, eom)] else []
  | _ => []

/-- Sort an event; a stream that is opened under the id starts anew. -/
def sortEvent (id : UInt32) (w : StreamReader) (ev : AdspEvent) : StreamReader :=
  if w.state.adds ev ∧ w.state.nextId = id then
    { w with state := w.state.sortEvent ev, arrived := [], results := [] }
  else
    { w with state := w.state.sortEvent ev, arrived := w.arrived ++ heard id w.state ev }

/-- The events of the endpoint reach the streams. -/
def sortEvents (id : UInt32) (w : StreamReader) (ep : AdspEndpoint) : StreamReader :=
  let t := ep.events.foldl (sortEvent id)
    { w with state := { w.state with ep := { ep with events := [] } } }
  { t with state := t.state.updateWindow }

/-- A look of a read: what it returns of the stream is noted. -/
def look (w : StreamReader) (len : ℕ) (r : Option (Except MessageError Bytes)) :
    List (ℕ × Except MessageError Bytes) :=
  match r with
  | some (.ok message) => w.results ++ [(len, .ok message)]
  | some (.error .tooLong) => w.results ++ [(len, .error .tooLong)]
  | some (.error .closed) | none => w.results

/-- Bytes held in the fullest of the streams that are gone from `s` to `s'`. -/
def dropped (s s' : AdspState) : ℕ :=
  ((s.conns.toList.filter fun p => ¬ s'.conns.contains p.1).map (·.2.rx.length)).foldr max 0

/-- What the streams dropped since the window was last set held. -/
def staleAfter (w : StreamReader) : AdspSocketCall → ℕ
  | .datagram .. | .poll _ | .dropStream _ => 0
  | .dropListener => max w.stale (dropped w.state w.state.dropListener)
  | .dropConnect handle => max w.stale (dropped w.state (w.state.dropConnect handle))
  | .readWithEom id len =>
    if len ≠ 0 ∧ (w.state.readWithEom id len).1.isSome then 0 else w.stale
  | .readMessage id len => if (w.state.readMessage id len).1.isSome then 0 else w.stale
  | _ => w.stale

/-- The window a datagram advertises to a connection. -/
def windowTo (p : ServiceAddress × UInt16) (d : ServiceAddress × Bytes) : Option UInt16 :=
  match AdspPacket.parse d.2 with
  | .error _ => none
  | .ok packet =>
    if d.1 = p.1 ∧ packet.connectionId = p.2 ∧ packet.flags &&& AdspPacket.FLAG_ATTENTION = 0 ∧
        packet.descriptor ≠ .closeAdvice then some packet.recvWindow
    else none

/-- What the connections have been told, after what is queued between two states. -/
def tell (ep ep' : AdspEndpoint) (told : ServiceAddress × UInt16 → Option UInt16)
    (p : ServiceAddress × UInt16) : Option UInt16 :=
  if ep'.connections.values.any fun c => c.remote = p.1 ∧ c.ourConnId = p.2 then
    ((ep'.outbox.drop ep.outbox.length).filterMap (windowTo p)).getLast?.or (told p)
  else none

/-- What a call does to the socket, and what of it reaches the stream. -/
def hear (id : UInt32) (w : StreamReader) : AdspSocketCall → StreamReader
  | .datagram src payload now => w.sortEvents id (w.state.ep.handleDatagram src payload now)
  | .poll now => w.sortEvents id (w.state.ep.poll now)
  | .readMessage j len =>
    { w with
      state := (w.state.readMessage j len).2
      results := if j = id then w.look len (w.state.readMessage j len).1 else w.results }
  | c => { w with state := w.state.call c }

/-- A call of the socket, with what it returned. -/
def call (id : UInt32) (w : StreamReader) (c : AdspSocketCall) : StreamReader :=
  { w.hear id c with
    stale := w.staleAfter c
    told := tell w.state.ep (w.hear id c).state.ep w.told }

/-- A socket on which nothing has happened yet. -/
def start (s : AdspState) : StreamReader := ⟨s, [], [], 0, fun _ => none⟩

/-- The stream is read with `readMessage` only, into buffers that the receive window can
    fill. -/
def ReadsMessages (id : UInt32) : AdspSocketCall → Prop
  | .readWithEom j _ => j ≠ id
  | .readMessage j len => j = id → len ≤ RX_WINDOW - ADSP_MAX_DATA
  | _ => True

/-! ## The reads along a run -/

/-- The reads so far got what was due, and the rest of what arrived is held. -/
structure Reads (id : UInt32) (w : StreamReader) : Prop where
  answered : Recounted (.ofChunks w.arrived) w.results
  holding : ∀ c, w.state.conns[id]? = some c → Holding (.ofChunks w.arrived) w.results c

section
variable {id : UInt32} {w : StreamReader}

theorem state_sortEvent (w : StreamReader) (ev : AdspEvent) :
    (w.sortEvent id ev).state = w.state.sortEvent ev := by
  unfold sortEvent
  split <;> rfl

theorem state_foldl (events : List AdspEvent) (w : StreamReader) :
    (events.foldl (sortEvent id) w).state = events.foldl AdspState.sortEvent w.state := by
  induction events generalizing w with
  | nil => rfl
  | cons ev events ih => rw [List.foldl_cons, ih, state_sortEvent, List.foldl_cons]

theorem hear_datagram (w : StreamReader) (src : ServiceAddress) (payload : Bytes) (now : Micros) :
    w.hear id (.datagram src payload now) =
      w.sortEvents id (w.state.ep.handleDatagram src payload now) := rfl

theorem hear_poll (w : StreamReader) (now : Micros) :
    w.hear id (.poll now) = w.sortEvents id (w.state.ep.poll now) := rfl

/-- The socket goes on as it does unwatched. -/
theorem state_hear (w : StreamReader) (c : AdspSocketCall) :
    (w.hear id c).state = w.state.call c := by
  cases c with
  | datagram src payload now =>
    rw [hear_datagram]
    simp only [sortEvents, state_foldl]
    rfl
  | poll now =>
    rw [hear_poll]
    simp only [sortEvents, state_foldl]
    rfl
  | _ => rfl

theorem state_call (w : StreamReader) (c : AdspSocketCall) :
    (w.call id c).state = w.state.call c := state_hear w c

theorem heard_cases (s : AdspState) (ev : AdspEvent) :
    (heard id s ev = [] ∧ ∀ conn bytes eom c, ev = .data conn bytes eom →
        s.byKey conn ≠ some (id, c)) ∨
      ∃ conn bytes eom c, ev = .data conn bytes eom ∧ s.byKey conn = some (id, c) ∧
        heard id s ev = [(bytes, eom)] := by
  cases ev with
  | data conn bytes eom =>
    by_cases hby : (s.byKey conn).map (·.1) = some id
    · obtain ⟨⟨j, c⟩, hc, hj⟩ := Option.map_eq_some_iff.1 hby
      obtain rfl : j = id := hj
      exact .inr ⟨conn, bytes, eom, c, rfl, hc, if_pos hby⟩
    · refine .inl ⟨if_neg hby, ?_⟩
      rintro _ _ _ c he hc
      cases he
      exact hby (by rw [hc]; rfl)
  | _ => exact .inl ⟨rfl, nofun⟩

theorem Reads.sortEvent (h : w.Reads id) (ev : AdspEvent) : (w.sortEvent id ev).Reads id := by
  unfold StreamReader.sortEvent
  split_ifs with hfresh
  · refine ⟨.whole le_rfl .nil, fun c' hc' => ?_⟩
    cases AdspState.sortEvent_sorted hc' with
    | added hid hadds => exact .reading rfl le_rfl rfl rfl
    | same hc hother hdata hopened => exact absurd hfresh.2 (hother hfresh.1)
    | rekeyed hc hnot hout => rw [hnot] at hfresh; cases hfresh.1
    | data hby => cases hfresh.1
    | attends hc hev =>
      obtain ⟨_, _, _, rfl⟩ | ⟨_, rfl⟩ | ⟨_, rfl⟩ := hev <;> cases hfresh.1
    | closed hby => cases hfresh.1
  · rcases heard_cases w.state ev with
      ⟨hnone, hnot⟩ | ⟨conn, bytes, eom, c, rfl, hby, hheard⟩
    · rw [hnone, List.append_nil]
      refine ⟨h.answered, fun c' hc' => ?_⟩
      cases AdspState.sortEvent_sorted hc' with
      | added hid hadds => exact absurd ⟨hadds, hid⟩ hfresh
      | same hc hother hdata hopened => exact h.holding _ hc
      | rekeyed hc hadds hout => exact (h.holding _ hc).congr rfl rfl rfl
      | data hby => exact absurd hby (hnot _ _ _ _ rfl)
      | attends hc hev => exact (h.holding _ hc).congr rfl rfl rfl
      | closed hby => exact (h.holding _ (AdspState.byKey_eq_some hby).1).congr rfl rfl rfl
    · rw [hheard]
      refine ⟨?_, fun c' hc' => ?_⟩
      · rw [Messages.ofChunks_concat]
        exact h.answered.push bytes eom
      · rw [Messages.ofChunks_concat]
        cases AdspState.sortEvent_sorted hc' with
        | same hc hother hdata hopened => exact absurd hby (hdata _ _ _ rfl c)
        | data hby' =>
          rw [hby] at hby'
          obtain rfl := (Prod.mk.inj (Option.some.inj hby')).2
          exact (h.holding _ (AdspState.byKey_eq_some hby).1).data h.answered bytes eom
        | attends hc hev => obtain ⟨_, _, _, he⟩ | ⟨_, he⟩ | ⟨_, he⟩ := hev <;> cases he

theorem Reads.sortEvents (h : w.Reads id) (ep : AdspEndpoint) : (w.sortEvents id ep).Reads id := by
  have hall : ∀ (events : List AdspEvent) (t : StreamReader), t.Reads id →
      (events.foldl (StreamReader.sortEvent id) t).Reads id := by
    intro events
    induction events with
    | nil => exact fun t ht => ht
    | cons ev events ih => exact fun t ht => ih _ (ht.sortEvent ev)
  have hsorted := hall ep.events { w with state := { w.state with ep := { ep with events := [] } } }
    ⟨h.answered, h.holding⟩
  exact ⟨hsorted.answered, hsorted.holding⟩

theorem Reads.look (h : w.Reads id) {len : ℕ} (hlen : len ≤ RX_WINDOW - ADSP_MAX_DATA) :
    Recounted (.ofChunks w.arrived) (w.look len (w.state.readMessage id len).1) ∧
      ∀ c, (w.state.readMessage id len).2.conns[id]? = some c →
        Holding (.ofChunks w.arrived) (w.look len (w.state.readMessage id len).1) c := by
  unfold AdspState.readMessage
  rcases hc : w.state.conns[id]? with _ | c
  · refine ⟨h.answered, fun c hc' => ?_⟩
    rw [show w.state.conns[id]? = some c from hc'] at hc
    cases hc
  rw [Option.bind_some]
  rcases (h.holding c hc).readMessage h.answered hlen with
    ⟨r, c', hr, hopen, ha, hh⟩ | ⟨-, ⟨hclosed, hr⟩ | ⟨hopen, hr, -⟩⟩
  · have hlook : w.look len (some r) = w.results ++ [(len, r)] := by
      unfold StreamReader.look
      rcases r with _ | message
      · rename_i e
        cases e with
        | tooLong => rfl
        | closed => exact absurd rfl hopen
      · rfl
    rw [hr]
    dsimp only
    rw [hlook]
    refine ⟨ha, fun d hd => ?_⟩
    rw [AdspState.conns_updateWindow, getElem?_insert_eq, if_pos rfl] at hd
    obtain rfl := Option.some.inj hd
    exact hh
  · rw [hr]
    refine ⟨h.answered, fun d hd => ?_⟩
    rw [AdspState.conns_updateWindow, getElem?_insert_eq, if_pos rfl] at hd
    obtain rfl := Option.some.inj hd
    exact h.holding c hc
  · rw [hr]
    refine ⟨h.answered, fun d hd => ?_⟩
    exact h.holding d hd

/-- A call that neither sorts events nor looks at the stream. -/
theorem Reads.quiet (h : w.Reads id) {c : AdspSocketCall} (hq : c.Quiet)
    (hok : ReadsMessages id c) (hnot : ∀ len, c ≠ .readMessage id len) :
    (w.hear id c).Reads id := by
  have hseen : (w.hear id c).arrived = w.arrived ∧ (w.hear id c).results = w.results := by
    cases c with
    | datagram src payload now => cases hq
    | poll now => cases hq
    | readMessage j len =>
      have hj : j ≠ id := by
        rintro rfl
        exact hnot len rfl
      exact ⟨rfl, if_neg hj⟩
    | _ => exact ⟨rfl, rfl⟩
  refine ⟨?_, fun c' hc' => ?_⟩
  · rw [hseen.1, hseen.2]
    exact h.answered
  rw [hseen.1, hseen.2]
  rw [state_hear] at hc'
  obtain ⟨d, hd, hcalled⟩ := AdspState.call_called hq hc'
  cases hcalled with
  | same => exact (h.holding d hd).congr rfl rfl rfl
  | readWithEom hr => exact absurd rfl hok
  | readMessage hr => exact absurd rfl (hnot _)

theorem Reads.hear (h : w.Reads id) {c : AdspSocketCall} (hok : ReadsMessages id c) :
    (w.hear id c).Reads id := by
  by_cases hread : ∃ len, c = .readMessage id len
  · obtain ⟨len, rfl⟩ := hread
    obtain ⟨ha, hh⟩ := h.look (hok rfl)
    simp only [StreamReader.hear, if_true]
    exact ⟨ha, hh⟩
  have hnot : ∀ len, c ≠ .readMessage id len := fun len he => hread ⟨len, he⟩
  cases c with
  | datagram src payload now =>
    rw [hear_datagram]
    exact h.sortEvents _
  | poll now =>
    rw [hear_poll]
    exact h.sortEvents _
  | _ => exact h.quiet trivial hok hnot

theorem Reads.call (h : w.Reads id) {c : AdspSocketCall} (hok : ReadsMessages id c) :
    (w.call id c).Reads id := ⟨(h.hear hok).answered, (h.hear hok).holding⟩

theorem reads_run {s : AdspState} (hs : s.conns[id]? = none) {calls : List AdspSocketCall}
    (hok : ∀ c ∈ calls, ReadsMessages id c) : (run (call id) (start s) calls).Reads id := by
  refine inv_run (call id)
    (fun w c h hok => h.call hok) ⟨.whole le_rfl .nil, fun c hc => ?_⟩
    (along_of_forall (call id) hok)
  rw [show s.conns[id]? = some c from hc] at hs
  cases hs

theorem Reads.of_messages (h : w.Reads id) {future : List (Bytes × Bool)} {ms : List Bytes}
    (hms : Messages.ofChunks (w.arrived ++ future) = ⟨ms, []⟩) :
    List.Forall₂ Recounts w.results (ms.take w.results.length) := by
  have hext := Messages.pushAll_extends (.ofChunks w.arrived) future
  rw [← Messages.ofChunks_append, hms] at hext
  cases h.answered with
  | whole hle hall =>
    rcases hext with ⟨hended, -⟩ | ⟨x, xs, hended, -⟩
    · rwa [show ms = _ from hended]
    · rwa [show ms = _ from hended, List.take_append_of_le_length hle]
  | @ahead before len hresults hall hlong =>
    rcases hext with ⟨-, hpre⟩ | ⟨x, xs, hended, hpre⟩
    · have hlen := hpre.length_le
      simp only [List.length_nil] at hlen
      omega
    · have hlast : Recounts (len, .error .tooLong) x := by
        have hlen := hpre.length_le
        rw [Recounts, messageResult, if_neg (by omega)]
      have hms' : ms = (Messages.ofChunks w.arrived).ended ++ x :: xs := hended
      have hlen : w.results.length = ((Messages.ofChunks w.arrived).ended ++ [x]).length := by
        simp [hresults, hall.length_eq]
      rw [hms', List.append_cons, hlen, List.take_left, hresults]
      exact List.rel_append hall (.cons hlast .nil)

end

end StreamReader

end TailTalk
