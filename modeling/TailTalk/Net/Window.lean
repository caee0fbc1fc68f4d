/-
  The window of an ADSP socket of the embedded stack, and who waits behind it.

  It is set after every datagram and every poll, after every read that took
  something and when a stream is dropped, and a window that reopens is sent to
  every connection.  So no peer believes it closed while it is open.
-/
import TailTalk.Adsp.Advertising
import TailTalk.Net.Reader

namespace TailTalk

open Lib

namespace AdspState

/-- A socket that has just been bound, to listen or to connect. -/
inductive Bound : AdspState → Prop
  | listen (socket : UInt8) (seed : UInt32) : Bound (.listen socket seed)
  | connect {socket seed remote now handle s}
      (h : AdspState.connect socket seed remote now = some (handle, s)) : Bound s

theorem Bound.conns {s : AdspState} (h : s.Bound) : s.conns = ∅ := by
  cases h with
  | listen socket seed => rfl
  | connect h =>
    obtain ⟨r, -, heq⟩ := Option.map_eq_some_iff.1 h
    obtain rfl := (Prod.mk.inj heq).2
    rfl

/-! ## The fullest stream -/

section
variable {s s' : AdspState} {n : ℕ}

theorem held_le_iff : s.held ≤ n ↔ ∀ (j : UInt32) (c : Conn), s.conns[j]? = some c →
    c.rx.length ≤ n := by
  unfold held
  constructor
  · intro h j c hc
    exact (List.le_max_of_le (List.mem_map.2 ⟨c, mem_values _ hc, rfl⟩) le_rfl).trans h
  · intro h
    refine List.max_le_of_forall_le _ n fun x hx => ?_
    obtain ⟨c, hc, rfl⟩ := List.mem_map.1 hx
    obtain ⟨j, hj⟩ := exists_of_mem_values _ hc
    exact h j c hj

theorem held_le_of_rx (h : ∀ (j : UInt32) (c : Conn), s.conns[j]? = some c →
    ∃ c', s'.conns[j]? = some c' ∧ c'.rx = c.rx) : s.held ≤ s'.held := by
  refine held_le_iff.2 fun j c hc => ?_
  obtain ⟨c', hc', hrx⟩ := h j c hc
  rw [← hrx]
  exact held_le_iff.1 le_rfl j c' hc'

theorem held_le_of_conns (h : s'.conns = s.conns) : s.held ≤ s'.held :=
  held_le_of_rx fun _ c hc => ⟨c, h ▸ hc, rfl⟩

theorem held_le_of_insert {j : UInt32} {d e : Conn} (hd : s.conns[j]? = some d)
    (hrx : e.rx = d.rx) (h : s'.conns = s.conns.insert j e) : s.held ≤ s'.held := by
  refine held_le_of_rx fun i c hc => ?_
  rw [h]
  simp only [getElem?_insert_eq]
  split_ifs with hij
  · rw [hij, hd] at hc
    obtain rfl := Option.some.inj hc
    exact ⟨e, rfl, hrx⟩
  · exact ⟨c, hc, rfl⟩

theorem held_le_dropped (h : ∀ (j : UInt32) (c : Conn), s'.conns[j]? = some c →
    s.conns[j]? = some c) : s.held ≤ max s'.held (StreamReader.dropped s s') := by
  refine held_le_iff.2 fun j c hc => ?_
  rcases hc' : s'.conns[j]? with _ | c'
  · refine le_max_of_le_right (List.le_max_of_le (List.mem_map.2 ⟨(j, c), ?_, rfl⟩) le_rfl)
    refine List.mem_filter.2 ⟨Std.TreeMap.mem_toList_iff_getElem?_eq_some.2 hc, ?_⟩
    simp [Std.TreeMap.contains_eq_isSome_getElem?, hc']
  · have hsame := h j c' hc'
    rw [hc] at hsame
    obtain rfl := Option.some.inj hsame
    exact le_max_of_le_left (held_le_iff.1 le_rfl j c hc')

theorem windowFor_le (n : ℕ) : windowFor n ≤ RX_WINDOW := by
  unfold windowFor
  split <;> omega

/-- The window of a socket is the room of a number of bytes held. -/
theorem windowFor_toNat (n : ℕ) :
    (UInt16.ofNat (min (windowFor n) 65535)).toNat = windowFor n := by
  have hle := windowFor_le n
  have hsmall : windowFor n < 65536 := lt_of_le_of_lt hle (by decide)
  rw [min_eq_left (by omega), UInt16.toNat_ofNat_of_lt' hsmall]

theorem windowFor_eq_zero_iff : windowFor n = 0 ↔ RX_WINDOW - ADSP_MAX_DATA < n := by
  have hpos : 0 < ADSP_MAX_DATA := by decide
  have hle : ADSP_MAX_DATA ≤ RX_WINDOW := by decide
  unfold windowFor
  split <;> omega

end

/-! ## What sorting the events says -/

section
variable {s : AdspState}

theorem tells_closeKey (hr : s.ep.Reticent) (key : UInt16) : s.ep.Tells (s.closeKey key).ep :=
  AdspEndpoint.tells_close hr key

theorem tells_onKey (hr : s.ep.Reticent) (key : UInt16) (f : Conn → Conn) :
    s.ep.Tells (s.onKey key f).ep := by
  unfold onKey
  split <;> exact .refl hr

theorem tells_sortEvent (hr : s.ep.Reticent) (ev : AdspEvent) :
    s.ep.Tells (s.sortEvent ev).ep := by
  cases ev with
  | opened conn remote inbound pending =>
    cases inbound with
    | true =>
      simp only [sortEvent]
      split
      · exact .refl hr
      · exact tells_closeKey hr conn
    | false =>
      have hfollow : s.ep.Tells (s.follow (pending.getD conn) conn).ep := by
        unfold follow
        split
        · split <;> exact .refl hr
        · exact tells_closeKey hr conn
      simp only [sortEvent]
      split
      · exact .refl hr
      · exact hfollow
      · exact hfollow
  | openFailed conn =>
    simp only [sortEvent]
    split <;> exact .refl hr
  | data conn bytes eom => exact tells_onKey hr _ _
  | attention conn code bytes => exact tells_onKey hr _ _
  | attentionAcked conn => exact tells_onKey hr _ _
  | attentionFailed conn => exact tells_onKey hr _ _
  | closed conn => exact tells_onKey hr _ _

theorem tells_sortEvent_foldl (events : List AdspEvent) {s : AdspState} (hr : s.ep.Reticent) :
    s.ep.Tells (events.foldl sortEvent s).ep := by
  induction events generalizing s with
  | nil => exact .refl hr
  | cons ev events ih =>
    have hev := tells_sortEvent hr ev
    exact hev.trans (ih hev.reticent)

theorem tells_removeOpen (hr : s.ep.Reticent) (j : UInt32) : s.ep.Tells (s.removeOpen j).ep := by
  unfold removeOpen
  split
  · exact .refl hr
  · dsimp only
    split
    · exact .refl hr
    · exact AdspEndpoint.tells_close hr _

theorem tells_dropListener (hr : s.ep.Reticent) : s.ep.Tells s.dropListener.ep := by
  have hall : ∀ (ids : List UInt32) (t : AdspState), t.ep.Reticent →
      t.ep.Tells (ids.foldl removeOpen t).ep := by
    intro ids
    induction ids with
    | nil => exact fun t ht => .refl ht
    | cons j ids ih =>
      intro t ht
      have hj := tells_removeOpen ht j
      exact hj.trans (ih _ hj.reticent)
  exact (AdspEndpoint.tells_setListening hr false).trans
    (hall s.accept
      { s with listenerAlive := false, ep := s.ep.setListening false, accept := [] } hr)

theorem tells_dropConnect (hr : s.ep.Reticent) (handle : UInt16) :
    s.ep.Tells (s.dropConnect handle).ep := by
  unfold dropConnect
  dsimp only
  split
  · split
    · exact AdspEndpoint.tells_close hr _
    · exact .refl hr
  all_goals exact .refl hr

end

end AdspState

/-! ## What a call does about the window -/

namespace StreamReader

/-- A call sets the window; or what the streams held is held still or noted as dropped; or it hands
    a datagram out. -/
inductive Leaves (w : StreamReader) (c : AdspSocketCall) : Prop
  | sets (t : AdspState) (heq : w.state.call c = t.updateWindow) (h : w.state.ep.Tells t.ep)
  | keeps (h : w.state.ep.Tells (w.state.call c).ep) (hstale : w.stale ≤ w.staleAfter c)
      (hheld : w.state.held ≤ max (w.state.call c).held (w.staleAfter c))
  | transmits (heq : w.state.call c = { w.state with ep := w.state.ep.pollTransmit.2 })
      (hstale : w.stale = w.staleAfter c)

section
variable {w : StreamReader} {id : UInt32}

/-- A call on a stream that leaves what the streams hold. -/
theorem Leaves.of_held {c : AdspSocketCall} (h : w.state.ep.Tells (w.state.call c).ep)
    (hstale : w.staleAfter c = w.stale) (hheld : w.state.held ≤ (w.state.call c).held) :
    w.Leaves c := .keeps h hstale.ge (le_max_of_le_left hheld)

theorem leaves_writes {c : AdspSocketCall} (hr : w.state.ep.Reticent)
    (hc : (∃ j data eomAtEnd, c = .writeChunk j data eomAtEnd) ∨ ∃ j, c = .writeEom j) :
    w.Leaves c := by
  have hsame : w.state.ep.Tells (w.state.call c).ep ∧
      (w.state.call c).conns = w.state.conns := by
    rcases hc with ⟨j, data, eomAtEnd, rfl⟩ | ⟨j, rfl⟩
    · simp only [AdspState.call, AdspState.writeChunk]
      split_ifs
      · exact ⟨.refl hr, rfl⟩
      split
      · exact ⟨.refl hr, rfl⟩
      rename_i d hd
      split_ifs
      · exact ⟨.refl hr, rfl⟩
      · exact ⟨.refl hr, rfl⟩
      · have hsend := fun data eom => AdspEndpoint.tells_send hr d.key data eom
        split
        · rename_i n ep hep
          exact ⟨(congrArg (·.2) hep : _ = ep) ▸ hsend _ _, rfl⟩
        · rename_i e ep hep
          exact ⟨(congrArg (·.2) hep : _ = ep) ▸ hsend _ _, rfl⟩
    · simp only [AdspState.call, AdspState.writeEom]
      split
      · exact ⟨.refl hr, rfl⟩
      rename_i d hd
      split_ifs
      · exact ⟨.refl hr, rfl⟩
      · have hsend := AdspEndpoint.tells_send hr d.key [] true
        split
        · rename_i n ep hep
          exact ⟨(congrArg (·.2) hep : _ = ep) ▸ hsend, rfl⟩
        · rename_i e ep hep
          exact ⟨(congrArg (·.2) hep : _ = ep) ▸ hsend, rfl⟩
  refine .of_held hsame.1 ?_ (AdspState.held_le_of_conns hsame.2)
  rcases hc with ⟨_, _, _, rfl⟩ | ⟨_, rfl⟩ <;> rfl

theorem leaves_sendAttention (hr : w.state.ep.Reticent) (j : UInt32) (code : UInt16)
    (data : Bytes) (now : Micros) : w.Leaves (.sendAttention j code data now) := by
  have hsame : w.state.ep.Tells (w.state.sendAttention j code data now).2.ep ∧
      w.state.held ≤ (w.state.sendAttention j code data now).2.held := by
    unfold AdspState.sendAttention
    split
    · exact ⟨.refl hr, le_rfl⟩
    rename_i d hd
    split_ifs
    · exact ⟨.refl hr, le_rfl⟩
    split
    · exact ⟨.refl hr, le_rfl⟩
    · exact ⟨.refl hr, le_rfl⟩
    · have hsend := AdspEndpoint.tells_sendAttention hr d.key code data now
      split
      · rename_i ep hep
        exact ⟨(congrArg (·.2) hep : _ = ep) ▸ hsend,
          AdspState.held_le_of_insert (e := { d with attn := .inFlight false }) hd rfl rfl⟩
      · rename_i ep hep
        exact ⟨(congrArg (·.2) hep : _ = ep) ▸ hsend, AdspState.held_le_of_conns rfl⟩
      · rename_i ep hep
        exact ⟨(congrArg (·.2) hep : _ = ep) ▸ hsend, AdspState.held_le_of_conns rfl⟩
  exact .of_held hsame.1 rfl hsame.2

theorem leaves_sortEvents {c : AdspSocketCall} {ep : AdspEndpoint} (h : w.state.ep.Tells ep)
    (heq : w.state.call c = { w.state with ep }.sortEvents) : w.Leaves c := by
  have hdrained : ep.Tells { ep with events := [] } := .of_same h.reticent rfl rfl
  refine .sets _ heq ((h.trans hdrained).trans ?_)
  exact AdspState.tells_sortEvent_foldl ep.events
    (s := { w.state with ep := { ep with events := [] } }) h.reticent

/-- **What a call does about the window.** -/
theorem leaves_call (hr : w.state.ep.Reticent) (c : AdspSocketCall) : w.Leaves c := by
  have hkept : ∀ {t : AdspState}, w.state.call c = t → t.ep = w.state.ep →
      w.state.held ≤ t.held → w.staleAfter c = w.stale → w.Leaves c := by
    rintro t rfl hep hheld hstale
    have hr' : (w.state.call c).ep.Reticent := by rwa [hep]
    exact .of_held (.of_same hr' (by rw [hep]) (by rw [hep])) hstale hheld
  cases c with
  | datagram src payload now =>
    exact leaves_sortEvents (AdspEndpoint.tells_handleDatagram hr src payload now) rfl
  | poll now => exact leaves_sortEvents (AdspEndpoint.tells_poll hr now) rfl
  | pollTransmit => exact .transmits rfl rfl
  | acceptNext =>
    refine hkept (t := w.state.acceptNext.2) rfl ?_ ?_ rfl
    · unfold AdspState.acceptNext
      split <;> rfl
    · refine AdspState.held_le_of_conns ?_
      unfold AdspState.acceptNext
      split <;> rfl
  | dropListener =>
    refine .keeps (AdspState.tells_dropListener hr) (le_max_left _ _) ?_
    refine (AdspState.held_le_dropped fun j c hc => AdspState.getElem?_dropListener hc).trans ?_
    exact max_le_max le_rfl (le_max_right _ _)
  | connectOutcome handle =>
    refine hkept (t := (w.state.connectOutcome handle).2) rfl ?_ ?_ rfl
    · unfold AdspState.connectOutcome
      split <;> rfl
    · refine AdspState.held_le_of_conns ?_
      unfold AdspState.connectOutcome
      split <;> rfl
  | dropConnect handle =>
    refine .keeps (AdspState.tells_dropConnect hr handle) (le_max_left _ _) ?_
    refine (AdspState.held_le_dropped fun j c hc =>
      @AdspState.getElem?_dropConnect _ _ _ handle hc).trans ?_
    exact max_le_max le_rfl (le_max_right _ _)
  | readWithEom j len =>
    rcases hread : w.state.readWithEom j len with ⟨r, t⟩
    have hcall : w.state.call (.readWithEom j len) = t := congrArg (·.2) hread
    have hr' : (w.state.readWithEom j len).1 = r := congrArg (·.1) hread
    unfold AdspState.readWithEom at hread
    split_ifs at hread with hlen
    · obtain ⟨-, rfl⟩ := Prod.mk.inj hread
      exact hkept hcall rfl le_rfl (if_neg fun h => h.1 hlen)
    split at hread
    · obtain ⟨rfl, rfl⟩ := Prod.mk.inj hread
      exact hkept hcall rfl le_rfl (if_neg fun h => by rw [hr'] at h; cases h.2)
    · obtain ⟨-, rfl⟩ := Prod.mk.inj hread
      exact .sets _ hcall (.refl hr)
  | readMessage j len =>
    rcases hread : w.state.readMessage j len with ⟨r, t⟩
    have hcall : w.state.call (.readMessage j len) = t := congrArg (·.2) hread
    have hr' : (w.state.readMessage j len).1 = r := congrArg (·.1) hread
    unfold AdspState.readMessage at hread
    split at hread
    · obtain ⟨rfl, rfl⟩ := Prod.mk.inj hread
      exact hkept hcall rfl le_rfl (if_neg fun h => by rw [hr'] at h; cases h)
    · obtain ⟨-, rfl⟩ := Prod.mk.inj hread
      exact .sets _ hcall (.refl hr)
  | writeChunk j data eomAtEnd => exact leaves_writes hr (.inl ⟨j, data, eomAtEnd, rfl⟩)
  | writeEom j => exact leaves_writes hr (.inr ⟨j, rfl⟩)
  | flushData j => exact hkept (t := w.state) rfl rfl le_rfl rfl
  | sendAttention j code data now => exact leaves_sendAttention hr j code data now
  | attentionOutcome j =>
    rcases hd : w.state.conns[j]? with _ | d
    · refine hkept (t := w.state) ?_ rfl le_rfl rfl
      simp [AdspState.call, AdspState.attentionOutcome, hd]
    · rcases hattn : d.attn with _ | abandoned | outcome
      · refine hkept (t := w.state) ?_ rfl le_rfl rfl
        simp [AdspState.call, AdspState.attentionOutcome, hd, hattn]
      · refine hkept (t := w.state) ?_ rfl le_rfl rfl
        simp [AdspState.call, AdspState.attentionOutcome, hd, hattn]
      · refine hkept
          (t := { w.state with conns := w.state.conns.insert j { d with attn := .idle } })
          ?_ rfl (AdspState.held_le_of_insert (e := { d with attn := .idle }) hd rfl rfl) rfl
        simp [AdspState.call, AdspState.attentionOutcome, hd, hattn]
  | dropAttention j =>
    rcases hd : w.state.conns[j]? with _ | d
    · refine hkept (t := w.state) ?_ rfl le_rfl rfl
      simp [AdspState.call, AdspState.dropAttention, hd]
    · refine hkept (t := { w.state with conns := w.state.conns.insert j d.abandonAttention })
        ?_ rfl (AdspState.held_le_of_insert (e := d.abandonAttention) hd rfl rfl) rfl
      simp [AdspState.call, AdspState.dropAttention, hd]
  | attention j =>
    rcases hd : w.state.conns[j]? with _ | d
    · refine hkept (t := w.state) ?_ rfl le_rfl rfl
      simp [AdspState.call, AdspState.attention, hd]
    · rcases hattn : d.attnRx with _ | ⟨m, rest⟩
      · refine hkept (t := w.state) ?_ rfl le_rfl rfl
        simp [AdspState.call, AdspState.attention, hd, hattn]
      · refine hkept
          (t := { w.state with conns := w.state.conns.insert j { d with attnRx := rest } })
          ?_ rfl (AdspState.held_le_of_insert (e := { d with attnRx := rest }) hd rfl rfl) rfl
        simp [AdspState.call, AdspState.attention, hd, hattn]
  | tryAttention j =>
    rcases hd : w.state.conns[j]? with _ | d
    · refine hkept (t := w.state) ?_ rfl le_rfl rfl
      simp [AdspState.call, AdspState.tryAttention, hd]
    · refine hkept
        (t := { w.state with conns := w.state.conns.insert j { d with attnRx := d.attnRx.tail } })
        ?_ rfl
        (AdspState.held_le_of_insert (e := { d with attnRx := d.attnRx.tail }) hd rfl rfl) rfl
      simp [AdspState.call, AdspState.tryAttention, hd]
  | dropStream j => exact .sets _ rfl (AdspState.tells_removeOpen hr j)

/-! ## What the peers have been told -/

theorem windowTo_of_tells {v u : UInt16} {p : ServiceAddress × UInt16}
    {d : ServiceAddress × Bytes} (htells : SaysWindow v d.2) (h : windowTo p d = some u) :
    u = v := by
  unfold windowTo at h
  split at h
  · cases h
  rename_i packet hparse
  split_ifs at h with hto
  obtain rfl := Option.some.inj h
  exact htells packet hparse hto.2.2.1 hto.2.2.2

theorem tell_eq_some {ep ep' : AdspEndpoint} {new : List (ServiceAddress × Bytes)}
    {told : ServiceAddress × UInt16 → Option UInt16} {p : ServiceAddress × UInt16} {u : UInt16}
    (houtbox : ep'.outbox = ep.outbox ++ new) (h : tell ep ep' told p = some u) :
    (∃ (k : UInt16) (c : Connection), ep'.connections[k]? = some c ∧ c.remote = p.1 ∧
        c.ourConnId = p.2) ∧
      ((new.filterMap (windowTo p)).getLast? = some u ∨
        new.filterMap (windowTo p) = [] ∧ told p = some u) := by
  unfold tell at h
  split at h
  · rename_i hany
    obtain ⟨c, hc, hto⟩ := List.any_eq_true.1 hany
    obtain ⟨k, hk⟩ := exists_of_mem_values _ hc
    obtain ⟨hremote, hid⟩ : c.remote = p.1 ∧ c.ourConnId = p.2 := by simpa using hto
    refine ⟨⟨k, c, hk, hremote, hid⟩, ?_⟩
    rw [houtbox, List.drop_left] at h
    rcases hlast : (new.filterMap (windowTo p)).getLast? with _ | v
    · rw [hlast] at h
      exact .inr ⟨List.getLast?_eq_none_iff.1 hlast, h⟩
    · rw [hlast] at h
      exact .inl h
  · cases h

theorem told_keeps {ep ep' : AdspEndpoint} {told : ServiceAddress × UInt16 → Option UInt16}
    (h : ep.Tells ep') (hold : ∀ p, told p = some 0 → ep.recvWindow = 0)
    {p : ServiceAddress × UInt16} (htell : tell ep ep' told p = some 0) : ep'.recvWindow = 0 := by
  obtain ⟨new, houtbox, htells⟩ := h.queued
  rw [h.window]
  rcases (tell_eq_some houtbox htell).2 with hlast | ⟨-, htold⟩
  · obtain ⟨d, hd, hto⟩ := List.mem_filterMap.1 (List.mem_of_getLast? hlast)
    exact (windowTo_of_tells (htells d hd) hto).symm
  · exact hold p htold

/-- Setting the window tells every peer where it reopens. -/
theorem told_sets {ep ep' : AdspEndpoint} {told : ServiceAddress × UInt16 → Option UInt16}
    (h : ep.Tells ep') (hold : ∀ p, told p = some 0 → ep.recvWindow = 0) {v : UInt16}
    {p : ServiceAddress × UInt16} (htell : tell ep (ep'.setRecvWindow v) told p = some 0) :
    v = 0 := by
  by_contra hv
  obtain ⟨xs, hxs, htells⟩ := h.queued
  obtain ⟨ys, hys, htells', hacks⟩ := ep'.setRecvWindow_outbox v
  rw [hxs, List.append_assoc] at hys
  obtain ⟨⟨k, c, hc, hremote, hid⟩, hlast⟩ := tell_eq_some hys htell
  rw [AdspEndpoint.setRecvWindow_connections] at hc
  have hnew : ∀ u ∈ ys.filterMap (windowTo p), u = v := by
    intro u hu
    obtain ⟨d, hd, hto⟩ := List.mem_filterMap.1 hu
    exact windowTo_of_tells (htells' d hd) hto
  rw [List.filterMap_append] at hlast
  by_cases hclosed : ep.recvWindow = 0
  · -- The window reopens: the acknowledgement for `p` is the last that it is told.
    have hpos : 0 < v := by
      rw [UInt16.lt_iff_toNat_lt]
      exact Nat.pos_of_ne_zero fun hz => hv (UInt16.toNat_inj.1 hz)
    have hack : v ∈ ys.filterMap (windowTo p) := by
      refine List.mem_filterMap.2 ⟨_, hacks (h.window.trans hclosed) hpos k c hc _
        List.mem_cons_self, ?_⟩
      rw [windowTo, parse_control (.inl rfl) rfl]
      exact if_pos ⟨hremote, hid, show (0x80 : UInt8) &&& 0x10 = 0 by decide, nofun⟩
    have hne : ys.filterMap (windowTo p) ≠ [] := List.ne_nil_of_mem hack
    rcases hlast with hlast | ⟨hnil, -⟩
    · rw [List.getLast?_append_of_ne_nil _ hne] at hlast
      exact hv (hnew _ (List.mem_of_getLast? hlast)).symm
    · exact hne (List.append_eq_nil_iff.1 hnil).2
  · rcases hlast with hlast | ⟨-, htold⟩
    · rcases List.mem_append.1 (List.mem_of_getLast? hlast) with hu | hu
      · obtain ⟨d, hd, hto⟩ := List.mem_filterMap.1 hu
        exact hclosed (windowTo_of_tells (htells d hd) hto).symm
      · exact hv (hnew _ hu).symm
    · exact hclosed (hold p htold)

/-! ## Along a run -/

/-- The window is the room of the fullest stream, or of one dropped since it was set, and no peer
    takes an open one for closed. -/
structure Windowed (w : StreamReader) : Prop where
  reticent : w.state.ep.Reticent
  window : ∃ n, w.state.ep.recvWindow = UInt16.ofNat (min (AdspState.windowFor n) 65535) ∧
    n ≤ max w.state.held w.stale
  told : ∀ p, w.told p = some 0 → w.state.ep.recvWindow = 0

theorem Windowed.call (h : w.Windowed) (c : AdspSocketCall) : (w.call id c).Windowed := by
  have hstate : (w.call id c).state = w.state.call c := state_call w c
  have htold : (w.call id c).told = tell w.state.ep (w.state.call c).ep w.told := by
    rw [← state_hear w c]
    rfl
  have hstale : (w.call id c).stale = w.staleAfter c := rfl
  obtain ⟨n, hn, hle⟩ := h.window
  cases leaves_call h.reticent c with
  | sets t heq htells =>
    have hep : (w.state.call c).ep = t.ep.setRecvWindow
        (UInt16.ofNat (min (AdspState.windowFor t.held) 65535)) := by rw [heq]; rfl
    have hwindow : (w.state.call c).ep.recvWindow =
        UInt16.ofNat (min (AdspState.windowFor t.held) 65535) := by
      rw [hep, AdspEndpoint.setRecvWindow_window]
    have hheld : (w.state.call c).held = t.held := by rw [heq]; rfl
    refine ⟨?_, ⟨t.held, ?_, ?_⟩, fun p hp => ?_⟩
    · rw [hstate, hep]
      exact AdspEndpoint.reticent_setRecvWindow htells.reticent _
    · rw [hstate, hwindow]
    · rw [hstate, hheld]
      exact le_max_left _ _
    · rw [htold, hep] at hp
      rw [hstate, hwindow]
      exact told_sets htells h.told hp
  | keeps htells hstale' hheld =>
    refine ⟨?_, ⟨n, ?_, ?_⟩, fun p hp => ?_⟩
    · rw [hstate]
      exact htells.reticent
    · rw [hstate, htells.window, hn]
    · rw [hstate, hstale]
      exact hle.trans (max_le hheld (hstale'.trans (le_max_right _ _)))
    · rw [htold] at hp
      rw [hstate]
      exact told_keeps htells h.told hp
  | transmits heq hstale' =>
    have hep : (w.state.call c).ep = w.state.ep.pollTransmit.2 := by rw [heq]
    refine ⟨?_, ⟨n, ?_, ?_⟩, fun p hp => ?_⟩
    · rw [hstate, hep]
      exact h.reticent
    · rw [hstate, hep]
      exact hn
    · rw [hstate, hstale, ← hstale', heq]
      exact hle
    · rw [htold, hep] at hp
      rw [hstate, hep]
      have hnone : w.state.ep.outbox.tail.drop w.state.ep.outbox.length = [] := by
        rw [List.drop_eq_nil_iff, List.length_tail]
        omega
      refine h.told p ?_
      unfold tell at hp
      split at hp
      · simpa [AdspEndpoint.pollTransmit, hnone] using hp
      · cases hp

theorem windowed_run {s : AdspState} (hs : s.Bound) (calls : List AdspSocketCall) :
    (run (call id) (start s) calls).Windowed := by
  refine inv_run (call id)
    (fun w c h _ => h.call c) ?_ (along_true (call id) calls)
  have hempty : (start s).state.ep.connections = ∅ ∧
      (start s).state.ep.recvWindow = UInt16.ofNat RX_WINDOW := by
    cases hs with
    | listen socket seed =>
      refine ⟨?_, AdspEndpoint.setRecvWindow_window _ _⟩
      simp only [start, AdspState.listen, AdspState.new, AdspEndpoint.setRecvWindow_eq]
      rfl
    | connect h =>
      obtain ⟨⟨handle, ep⟩, hconn, heq⟩ := Option.map_eq_some_iff.1 h
      obtain rfl := (Prod.mk.inj heq).2
      obtain ⟨⟨connId, rng⟩, -, heq'⟩ := Option.map_eq_some_iff.1 hconn
      obtain rfl := (Prod.mk.inj heq').2
      refine ⟨?_, ?_⟩
      · simp only [start, AdspState.new, AdspEndpoint.setRecvWindow_eq]
        rfl
      · exact AdspEndpoint.setRecvWindow_window _ _
  refine ⟨fun k c hc => ?_, ⟨0, ?_, Nat.zero_le _⟩, nofun⟩
  · rw [hempty.1] at hc
    simp at hc
  · rw [hempty.2]
    rfl

/-- The window is closed only behind a stream that is full, or was when it was dropped. -/
theorem Windowed.closed (h : w.Windowed) (hclosed : w.state.ep.recvWindow = 0) :
    (∃ (j : UInt32) (d : Conn), w.state.conns[j]? = some d ∧
        RX_WINDOW - ADSP_MAX_DATA < d.rx.length) ∨ RX_WINDOW - ADSP_MAX_DATA < w.stale := by
  obtain ⟨n, hn, hle⟩ := h.window
  have hzero : AdspState.windowFor n = 0 := by
    rw [← AdspState.windowFor_toNat, ← hn, hclosed]
    rfl
  have hfull := AdspState.windowFor_eq_zero_iff.1 hzero
  by_contra hnot
  obtain ⟨hnone, hstale⟩ := not_or.1 hnot
  have hheld : w.state.held ≤ RX_WINDOW - ADSP_MAX_DATA := by
    refine AdspState.held_le_iff.2 fun j d hd => ?_
    by_contra hlt
    exact hnone ⟨j, d, hd, Nat.lt_of_not_le hlt⟩
  exact absurd hfull (Nat.not_lt.2 (hle.trans (max_le hheld (Nat.le_of_not_lt hstale))))

/-! ## Message framing -/

/-- A stream whose reads get the messages of its peer, and do not wait behind their own window. -/
structure Framed (id : UInt32) (w : StreamReader) : Prop where
  /-- however the stream goes on: the messages in order, each once -/
  due : ∀ future ms, Messages.ofChunks (w.arrived ++ future) = ⟨ms, []⟩ →
    List.Forall₂ Recounts w.results (ms.take w.results.length)
  /-- a read waits, or finds the stream closed, only where no message that has ended is left -/
  unread : ∀ len ≤ RX_WINDOW - ADSP_MAX_DATA, (w.state.conns[id]?).isSome →
    (w.state.readMessage id len).1 = none ∨
        (w.state.readMessage id len).1 = some (.error .closed) →
      (Messages.ofChunks w.arrived).ended.length ≤ w.results.length
  /-- where it waits, another stream keeps the window closed, or one that was dropped did -/
  waits : ∀ len ≤ RX_WINDOW - ADSP_MAX_DATA, (w.state.conns[id]?).isSome →
    (w.state.readMessage id len).1 = none → w.state.ep.recvWindow = 0 →
      (∃ j d, j ≠ id ∧ w.state.conns[j]? = some d ∧ RX_WINDOW - ADSP_MAX_DATA < d.rx.length) ∨
        RX_WINDOW - ADSP_MAX_DATA < w.stale
  /-- no peer takes the window for closed while it is open -/
  told : ∀ p, w.told p = some 0 → w.state.ep.recvWindow = 0

/-- **Reading a stream message by message**: in every run of a socket in which the stream is read
    with `readMessage` only, into buffers that its window can fill. -/
theorem framed_run {s : AdspState} (hs : s.Bound) {calls : List AdspSocketCall}
    (hok : ∀ c ∈ calls, ReadsMessages id c) : (run (call id) (start s) calls).Framed id := by
  have hnone : s.conns[id]? = none := by simp [hs.conns]
  have hreads := reads_run hnone hok
  have hwindowed : Windowed (run (call id) (start s) calls) := windowed_run hs calls
  generalize run (call id) (start s) calls = w at hreads hwindowed ⊢
  -- A look at the stream, as `Holding.readMessage` describes it.
  have hlook : ∀ len ≤ RX_WINDOW - ADSP_MAX_DATA, ∀ c, w.state.conns[id]? = some c →
      (w.state.readMessage id len).1 = none ∨
        (w.state.readMessage id len).1 = some (.error .closed) →
      (Messages.ofChunks w.arrived).ended.length ≤ w.results.length ∧
        ((w.state.readMessage id len).1 = none → c.rx.length ≤ len) := by
    intro len hlen c hc hr
    unfold AdspState.readMessage at hr ⊢
    rw [hc, Option.bind_some] at hr ⊢
    rcases (hreads.holding c hc).readMessage hreads.answered hlen with
      ⟨r, c', hread, hopen, -, -⟩ | ⟨hended, hshut⟩
    · rw [hread] at hr
      rcases hr with hr | hr
      · cases hr
      · exact absurd (Option.some.inj hr) hopen
    · refine ⟨hended, fun hwait => ?_⟩
      rcases hshut with ⟨-, hread⟩ | ⟨-, -, hshort⟩
      · rw [hread] at hwait
        cases hwait
      · exact hshort
  refine ⟨fun future ms hms => hreads.of_messages hms, ?_, ?_, hwindowed.told⟩
  · intro len hlen hsome hr
    obtain ⟨c, hc⟩ := Option.isSome_iff_exists.1 hsome
    exact (hlook len hlen c hc hr).1
  · intro len hlen hsome hr hclosed
    obtain ⟨c, hc⟩ := Option.isSome_iff_exists.1 hsome
    have hshort := (hlook len hlen c hc (.inl hr)).2 hr
    refine (hwindowed.closed hclosed).imp_left ?_
    rintro ⟨j, d, hd, hfull⟩
    refine ⟨j, d, ?_, hd, hfull⟩
    rintro rfl
    rw [hc] at hd
    obtain rfl := Option.some.inj hd
    omega

/-- A packet of a peer's connection 7. -/
def fromPeer (descriptor : AdspDescriptor) (firstByteSeq : UInt32) (flags : UInt8) (data : Bytes) :
    AdspSocketCall :=
  .datagram ⟨0, 2, 200⟩ ((⟨descriptor, 7, firstByteSeq, 0, 1024, flags⟩ : AdspPacket).toBytes ++
    data) 0

/-- A peer sends four messages, the second in two packets and the third too long for its reader. -/
def fourCalls : List AdspSocketCall :=
  [fromPeer .openConnRequest 0 0 [1, 0, 0, 0, 0, 0, 0, 0],
    fromPeer .dataPacket 0 AdspPacket.FLAG_EOM [104, 105], .readMessage 0 100,
    fromPeer .dataPacket 3 0 [97, 98], .readMessage 0 100,
    fromPeer .dataPacket 5 AdspPacket.FLAG_EOM [99, 100], .readMessage 0 100,
    fromPeer .dataPacket 8 AdspPacket.FLAG_EOM [1, 2, 3, 4],
    fromPeer .dataPacket 13 AdspPacket.FLAG_EOM [5], .readMessage 0 3, .readMessage 0 3]

theorem framed_fourCalls :
    (∀ c ∈ fourCalls, ReadsMessages 0 c) ∧
      (run (call 0) (start (.listen 140 7)) fourCalls).results =
        [(100, .ok [104, 105]), (100, .ok [97, 98, 99, 100]), (3, .error .tooLong), (3, .ok [5])] ∧
      (run (call 0) (start (.listen 140 7)) fourCalls).Framed 0 := by
  have hok : ∀ c ∈ fourCalls, ReadsMessages 0 c := by
    simp [fourCalls, fromPeer, ReadsMessages, RX_WINDOW, ADSP_MAX_DATA]
  exact ⟨hok, by decide +kernel, framed_run (.listen 140 7) hok⟩

end

end StreamReader

end TailTalk
