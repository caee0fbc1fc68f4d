/-
  The receive window, as the packets of an endpoint advertise it.

  Only `setRecvWindow` changes it, and tells every connection that it has
  reopened.  The attentions and CloseAdvice carry a zero in its place, which
  their receiver does not read as a window.
-/
import TailTalk.Adsp.Isolation

namespace TailTalk

open Lib

/-! ## What a payload says of the window -/

/-- If the payload advertises a window, it is `w`. -/
def SaysWindow (w : UInt16) (payload : Bytes) : Prop :=
  ∀ packet, AdspPacket.parse payload = .ok packet →
    packet.flags &&& AdspPacket.FLAG_ATTENTION = 0 → packet.descriptor ≠ .closeAdvice →
    packet.recvWindow = w

/-- A packet without flags says its window. -/
theorem saysWindow_toBytes {p : AdspPacket} {w : UInt16} (hw : p.recvWindow = w) (hf : p.flags = 0)
    (data : Bytes) : SaysWindow w (p.toBytes ++ data) := by
  intro packet hparse hflag hclose
  have htry : AdspDescriptor.tryFrom (p.descriptor.code ||| p.flags) = .ok p.descriptor := by
    rw [hf, UInt8.or_zero, AdspDescriptor.tryFrom_code]
  rw [AdspPacket.parse_toBytes htry] at hparse
  obtain rfl := Except.ok.inj hparse
  exact hw

theorem saysWindow_dataPacket (c : Connection) (w : UInt16) (seq : UInt32) (eom : Bool)
    (chunk : Bytes) : SaysWindow w (c.dataPacket w seq eom chunk) := by
  intro packet hparse hflag hclose
  rw [parse_dataPacket] at hparse
  obtain rfl := Except.ok.inj hparse
  rfl

/-- A packet with the Attention flag says nothing. -/
theorem saysWindow_of_attention {payload : Bytes} {p : AdspPacket}
    (hparse : AdspPacket.parse payload = .ok p) (hflag : p.flags &&& AdspPacket.FLAG_ATTENTION ≠ 0)
    (w : UInt16) : SaysWindow w payload := by
  intro packet hparse' hflag' hclose
  rw [hparse] at hparse'
  obtain rfl := Except.ok.inj hparse'
  exact absurd hflag' hflag

theorem saysWindow_closeAdvice {p : AdspPacket} (hd : p.descriptor = .closeAdvice)
    (hf : p.flags = 0) (w : UInt16) : SaysWindow w p.toBytes := by
  intro packet hparse hflag hclose
  rw [parse_control (.inr hd) hf] at hparse
  obtain rfl := Except.ok.inj hparse
  exact absurd hd hclose

/-! ## What a connection says -/

/-- The attention that a connection will resend says nothing of the window. -/
def Connection.Reticent (c : Connection) : Prop :=
  ∀ attn, c.attnInFlight = some attn → ∀ w, SaysWindow w attn.packet

/-- An effect on a connection whose packets say the window `w`. -/
structure Voices (w : UInt16) (e : Effect) : Prop where
  reticent : e.conn.Reticent
  packets : ∀ p ∈ e.packets, SaysWindow w p

section
variable {w : UInt16} {c : Connection}

theorem Voices.quiet (hc : c.Reticent) : Voices w (.quiet c) := ⟨hc, nofun⟩

theorem Voices.andThen {e : Effect} {f : Connection → Effect} (he : Voices w e)
    (hf : ∀ c, c.Reticent → Voices w (f c)) : Voices w (e.andThen f) := by
  have hfe := hf e.conn he.reticent
  refine ⟨hfe.reticent, fun p hp => ?_⟩
  rcases List.mem_append.1 hp with hp | hp
  · exact he.packets p hp
  · exact hfe.packets p hp

theorem voices_pump (hc : c.Reticent) (now : Option Micros) : Voices w (c.pump w now) := by
  refine Connection.pump_induct (Q := fun c e => c.Reticent → Voices w e) w now
    (fun _ => .quiet) (fun f hcut ih hc => ?_) c hc
  obtain ⟨chunk, eom, hcut⟩ := Connection.cut_cases hcut
  refine Voices.andThen ⟨?_, fun p hp => ?_⟩ ih
  · rw [hcut.next]
    exact hc
  · rcases hcut.packets with ⟨rfl, -, -⟩ | rfl
    · cases hp
    · obtain rfl := List.mem_singleton.1 hp
      exact saysWindow_dataPacket _ _ _ _ _

theorem voices_applyAck (hc : c.Reticent) (packet : AdspPacket) (now : Micros) :
    Voices w (c.applyAck w packet now) := by
  rw [Connection.applyAck_eq]
  refine voices_pump ?_ _
  unfold Connection.takeAck
  split_ifs <;> exact hc

theorem voices_sendAck (hc : c.Reticent) : Voices w (c.sendAck w) := by
  refine ⟨hc, fun p hp => ?_⟩
  obtain rfl := List.mem_singleton.1 hp
  rw [← List.append_nil (AdspPacket.toBytes _)]
  exact saysWindow_toBytes rfl rfl []

theorem voices_receive (hc : c.Reticent) (key : UInt16) (packet : AdspPacket) (data : Bytes) :
    Voices w (c.receive key packet data) := by
  refine ⟨?_, ?_⟩
  · rw [Connection.receive_conn]
    exact hc
  · rw [Connection.receive_packets]
    nofun

theorem voices_handleData (hc : c.Reticent) (key : UInt16) (packet : AdspPacket) (data : Bytes)
    (now : Micros) : Voices w (c.handleData w key packet data now) := by
  refine (((voices_receive hc key packet data).andThen fun d hd => ?_).andThen
    fun d hd => ?_).andThen fun d hd => ?_
  · exact voices_applyAck hd packet now
  · split
    · exact voices_sendAck hd
    · exact .quiet hd
  · exact voices_pump hd _

theorem voices_resendUnacked (hc : c.Reticent) (now : Micros) :
    Voices w (c.resendUnacked w now) := by
  unfold Connection.resendUnacked
  split_ifs with hnil
  · exact .quiet hc
  · refine ⟨hc, fun p hp => ?_⟩
    obtain ⟨i, hi, rfl⟩ := List.mem_mapIdx.1 hp
    exact saysWindow_dataPacket _ _ _ _ _

theorem voices_startAttention (code : UInt16) (data : Bytes) (now : Micros) :
    Voices w (c.startAttention code data now) := by
  have htells : ∀ v, SaysWindow v (Connection.buildAttention c.ourConnId c.attnSendSeq c.attnRecvSeq
      code data) := fun v =>
    saysWindow_of_attention (parse_buildAttention _ _ _ _ _)
      (show (0x50 : UInt8) &&& 0x10 ≠ 0 by decide) v
  refine ⟨fun attn hattn => ?_, fun p hp => ?_⟩
  · obtain rfl := Option.some.inj hattn
    exact htells
  · obtain rfl := List.mem_singleton.1 hp
    exact htells w

theorem voices_handleAttention (hc : c.Reticent) (key : UInt16) (packet : AdspPacket)
    (data : Bytes) : Voices w (c.handleAttention key packet data) := by
  unfold Connection.handleAttention
  split
  · exact .quiet hc
  refine ⟨?_, fun p hp => ?_⟩
  · dsimp only
    split <;> exact hc
  · obtain rfl := List.mem_singleton.1 hp
    refine saysWindow_of_attention (parse_attentionAck rfl rfl _) ?_ w
    exact show (0x90 : UInt8) &&& AdspPacket.FLAG_ATTENTION ≠ 0 by decide

theorem voices_handleAttentionAck (hc : c.Reticent) (key : UInt16) (packet : AdspPacket) :
    Voices w (c.handleAttentionAck key packet) := by
  unfold Connection.handleAttentionAck
  split
  · exact .quiet hc
  split
  · exact .quiet hc
  · exact ⟨nofun, nofun⟩

theorem voices_pollAttention (hc : c.Reticent) (key : UInt16) (now : Micros) :
    Voices w (c.pollAttention key now) := by
  unfold Connection.pollAttention
  split
  · exact .quiet hc
  rename_i attn hattn
  split
  · exact .quiet hc
  split
  · exact ⟨nofun, nofun⟩
  · have htells := hc attn hattn
    refine ⟨fun attn' hattn' => ?_, fun p hp => ?_⟩
    · obtain rfl := Option.some.inj hattn'
      exact htells
    · obtain rfl := List.mem_singleton.1 hp
      exact htells w

end

/-! ## What an endpoint says -/

namespace AdspEndpoint

/-- No attention that an endpoint will resend says anything of the window. -/
def Reticent (ep : AdspEndpoint) : Prop :=
  ∀ (k : UInt16) (c : Connection), ep.connections[k]? = some c → c.Reticent

/-- From `ep` to `ep'` the window is kept, and what was queued says it. -/
structure Tells (ep ep' : AdspEndpoint) : Prop where
  window : ep'.recvWindow = ep.recvWindow
  reticent : ep'.Reticent
  queued : ∃ new, ep'.outbox = ep.outbox ++ new ∧ ∀ d ∈ new, SaysWindow ep.recvWindow d.2

section
variable {ep ep' ep'' : AdspEndpoint}

theorem Tells.refl (hr : ep.Reticent) : ep.Tells ep := ⟨rfl, hr, [], by simp, nofun⟩

theorem Tells.trans (h : ep.Tells ep') (h' : ep'.Tells ep'') : ep.Tells ep'' := by
  obtain ⟨xs, hxs, htells⟩ := h.queued
  obtain ⟨ys, hys, htells'⟩ := h'.queued
  refine ⟨h'.window.trans h.window, h'.reticent, xs ++ ys, by rw [hys, hxs, List.append_assoc], ?_⟩
  intro d hd
  rcases List.mem_append.1 hd with hd | hd
  · exact htells d hd
  · rw [← h.window]
    exact htells' d hd

/-- Steps that each tell, one after the other. -/
theorem tells_foldl {β : Type} {g : AdspEndpoint → β → AdspEndpoint}
    (hg : ∀ (ep : AdspEndpoint) b, ep.Reticent → ep.Tells (g ep b)) (hr : ep.Reticent)
    (bs : List β) : ep.Tells (bs.foldl g ep) := by
  induction bs generalizing ep with
  | nil => exact .refl hr
  | cons b bs ih =>
    have hb := hg ep b hr
    exact hb.trans (ih hb.reticent)

theorem reticent_insert (hr : ep.Reticent) {k : UInt16} {c : Connection} (hc : c.Reticent)
    {j : UInt16} {d : Connection} (hd : (ep.connections.insert k c)[j]? = some d) :
    d.Reticent := by
  rw [getElem?_insert_eq] at hd
  split_ifs at hd with hk
  · obtain rfl := Option.some.inj hd
    exact hc
  · exact hr j d hd

theorem reticent_erase (hr : ep.Reticent) {k j : UInt16} {d : Connection}
    (hd : (ep.connections.erase k)[j]? = some d) : d.Reticent := by
  rw [getElem?_erase_eq] at hd
  split_ifs at hd with hk
  exact hr j d hd

theorem reticent_new (id : UInt16) (remote : ServiceAddress) (window : UInt16) (now : Micros) :
    (Connection.new id remote window now).Reticent := nofun

theorem tells_onConn (hr : ep.Reticent) {key : UInt16} {f : Connection → Effect}
    (hf : ∀ c, c.Reticent → Voices ep.recvWindow (f c)) : ep.Tells (ep.onConn key f) := by
  unfold onConn
  rcases hc : ep.connections[key]? with _ | c
  · exact .refl hr
  have he := hf c (hr key c hc)
  refine ⟨rfl, fun j d hd => reticent_insert hr he.reticent hd, _, rfl, fun d hd => ?_⟩
  obtain ⟨p, hp, rfl⟩ := List.mem_map.1 hd
  exact he.packets p hp

/-- One datagram queued; the connections may change, as long as they stay reticent. -/
theorem tells_push (h : ep.Tells ep') (remote : ServiceAddress) {payload : Bytes}
    (htells : SaysWindow ep.recvWindow payload) : ep.Tells (ep'.push remote payload) := by
  refine h.trans ⟨rfl, h.reticent, [(remote, payload)], rfl, fun d hd => ?_⟩
  obtain rfl := List.mem_singleton.1 hd
  rw [h.window]
  exact htells

theorem tells_sendOpenRequest (h : ep.Tells ep') (connId : UInt16) (remote : ServiceAddress) :
    ep.Tells (ep'.sendOpenRequest connId remote) :=
  tells_push h remote (saysWindow_toBytes h.window rfl _)

theorem tells_sendOpenReply (h : ep.Tells ep') (descriptor : AdspDescriptor)
    (ourConnId destConnId : UInt16) (remote : ServiceAddress) :
    ep.Tells (ep'.sendOpenReply descriptor ourConnId destConnId remote) :=
  tells_push h remote (saysWindow_toBytes h.window rfl _)

/-- Nothing is queued where the connections that are left were there before. -/
theorem Tells.of_same (hr : ep'.Reticent) (hwindow : ep'.recvWindow = ep.recvWindow)
    (houtbox : ep'.outbox = ep.outbox) : ep.Tells ep' :=
  ⟨hwindow, hr, [], by rw [houtbox, List.append_nil], nofun⟩

theorem tells_forget (hr : ep.Reticent) (key : UInt16) (e : AdspEvent) :
    ep.Tells ((ep.forget key).emit e) :=
  .of_same (fun _ _ hd => reticent_erase hr hd) rfl rfl

theorem tells_close (hr : ep.Reticent) (key : UInt16) : ep.Tells (ep.close key) := by
  unfold close
  split
  · exact .refl hr
  · have hforget : ep.Tells (ep.forget key) := .of_same (fun _ _ hd => reticent_erase hr hd) rfl rfl
    exact tells_push hforget _ (saysWindow_closeAdvice rfl rfl _)

theorem tells_send (hr : ep.Reticent) (key : UInt16) (data : Bytes) (eom : Bool) :
    ep.Tells (ep.send key data eom).2 := by
  unfold send
  split
  · exact .refl hr
  · exact tells_onConn hr fun c hc => voices_pump (c := c.queueWrite data eom) hc none

theorem tells_sendAttention (hr : ep.Reticent) (key code : UInt16) (data : Bytes) (now : Micros) :
    ep.Tells (ep.sendAttention key code data now).2 := by
  unfold sendAttention
  split
  · exact .refl hr
  split
  · exact .refl hr
  · exact tells_onConn hr fun c hc => voices_startAttention code data now

theorem tells_handleOpenRequest (hr : ep.Reticent) (src : ServiceAddress) (packet : AdspPacket)
    (now : Micros) : ep.Tells (ep.handleOpenRequest src packet now) := by
  unfold handleOpenRequest
  split
  · exact .refl hr
  dsimp only
  split
  · exact tells_sendOpenReply (.refl hr) _ _ _ _
  · have hfresh : ep.Tells { ep with
        rng := ep.rng.nextU32.2
        connections := ep.connections.insert packet.connectionId
          (Connection.new (ep.rng.nextU32.1.toUInt16 ||| 1) src packet.recvWindow now) } :=
      .of_same (fun _ _ hd => reticent_insert hr (reticent_new _ _ _ _) hd) rfl rfl
    have hreply := tells_sendOpenReply hfresh .openConnReqAck (ep.rng.nextU32.1.toUInt16 ||| 1)
      packet.connectionId src
    exact ⟨hreply.window, hreply.reticent, hreply.queued⟩

theorem tells_handleOpenAck (hr : ep.Reticent) (src : ServiceAddress) (packet : AdspPacket)
    (payload : Bytes) (now : Micros) : ep.Tells (ep.handleOpenAck src packet payload now) := by
  unfold handleOpenAck
  dsimp only
  split
  · split
    · exact tells_sendOpenReply (.refl hr) _ _ _ _
    · exact .refl hr
  split
  · split
    · exact .refl hr
    rename_i stale c hstale
    have hc : c.Reticent := hr stale c
      (Std.TreeMap.mem_toList_iff_getElem?_eq_some.1 (List.mem_of_find?_eq_some hstale))
    have hmoved : ep.Tells { ep with
        connections := (ep.connections.erase stale).insert packet.connectionId c } := by
      refine .of_same (fun j d hd => ?_) rfl rfl
      exact @reticent_insert (ep.forget stale) (fun _ _ hd' => reticent_erase hr hd') _ _ hc _ _ hd
    have hreply := tells_sendOpenReply hmoved .openConnAck (echoedConnId packet payload)
      packet.connectionId src
    exact ⟨hreply.window, hreply.reticent, hreply.queued⟩
  · have hfresh : ep.Tells { ep with
        pendingOpens := ep.pendingOpens.erase (echoedConnId packet payload)
        connections := ep.connections.insert packet.connectionId
          (Connection.new (echoedConnId packet payload) src packet.recvWindow now) } :=
      .of_same (fun _ _ hd => reticent_insert hr (reticent_new _ _ _ _) hd) rfl rfl
    split
    · have hreply := tells_sendOpenReply hfresh .openConnAck (echoedConnId packet payload)
        packet.connectionId src
      exact ⟨hreply.window, hreply.reticent, hreply.queued⟩
    · exact ⟨hfresh.window, hfresh.reticent, hfresh.queued⟩

theorem tells_handleDatagram (hr : ep.Reticent) (src : ServiceAddress) (payload : Bytes)
    (now : Micros) : ep.Tells (ep.handleDatagram src payload now) := by
  unfold handleDatagram
  split
  · exact .refl hr
  rename_i packet hparse
  dsimp only
  split
  · split
    · exact tells_onConn hr fun c hc => voices_handleAttentionAck hc _ packet
    · exact tells_onConn hr fun c hc => voices_handleAttention hc _ packet _
  split
  · exact tells_handleOpenRequest hr src packet now
  · exact tells_handleOpenAck hr src packet payload now
  · exact tells_handleOpenAck hr src packet payload now
  · split
    · exact .of_same hr rfl rfl
    · exact .refl hr
  · exact tells_onConn hr fun c hc => voices_handleData hc _ packet _ now
  · exact tells_onConn hr fun c hc => voices_handleData hc _ packet _ now
  · exact tells_onConn hr fun c hc =>
      (voices_applyAck hc packet now).andThen fun d hd => voices_resendUnacked hd now
  · split
    · exact tells_forget hr _ _
    · exact .refl hr
  · exact .refl hr
  · exact .refl hr

theorem tells_pollData (hr : ep.Reticent) (now : Micros) (key : UInt16) :
    ep.Tells (ep.pollData now key) := by
  unfold pollData
  split
  · exact .refl hr
  rename_i c hc
  split
  · exact .refl hr
  dsimp only
  split
  · exact tells_forget hr key _
  · exact tells_onConn hr fun d hd =>
      voices_resendUnacked (c := { d with retries := min (c.retries + 1) 255 }) hd now

theorem tells_pollOpens (hr : ep.Reticent) (now : Micros) : ep.Tells (ep.pollOpens now) := by
  unfold pollOpens
  dsimp only
  have hfail := tells_foldl (g := fun ep (io : UInt16 × PendingOpen) =>
    (ep.abandonOpen io.1).emit (.openFailed io.1)) (fun _ _ hr => .of_same hr rfl rfl) hr
  refine (hfail _).trans (tells_foldl (fun ep io hr => ?_) (hfail _).reticent _)
  have hretried : ep.Tells { ep with
      pendingOpens := ep.pendingOpens.insert io.1 ⟨io.2.remote, now, io.2.retries + 1⟩ } :=
    .of_same hr rfl rfl
  exact tells_sendOpenRequest hretried _ _

theorem tells_poll (hr : ep.Reticent) (now : Micros) : ep.Tells (ep.poll now) := by
  have hopens := tells_pollOpens hr now
  have hattn := tells_foldl
    (g := fun ep key => ep.onConn key (Connection.pollAttention key now))
    (fun ep key hr => tells_onConn hr fun c hc => voices_pollAttention hc key now)
    hopens.reticent (ep.pollOpens now).connections.keys
  exact (hopens.trans hattn).trans
    (tells_foldl (fun ep key hr => tells_pollData hr now key) hattn.reticent _)

theorem tells_setListening (hr : ep.Reticent) (on : Bool) : ep.Tells (ep.setListening on) :=
  .of_same hr rfl rfl

/-! ## The window changes -/

/-- The loop of `set_recv_window` that acknowledges to every connection. -/
def sendAcks (keys : List UInt16) (ep : AdspEndpoint) : AdspEndpoint :=
  keys.foldl (fun ep key => ep.onConn key (Connection.sendAck ep.recvWindow)) ep

theorem setRecvWindow_eq (ep : AdspEndpoint) (w : UInt16) :
    ep.setRecvWindow w =
      if ep.recvWindow = 0 ∧ 0 < w then sendAcks ep.connections.keys { ep with recvWindow := w }
      else { ep with recvWindow := w } := by
  simp only [setRecvWindow, sendAcks, Bool.and_eq_true, beq_iff_eq, decide_eq_true_eq, gt_iff_lt]

theorem connections_sendAck (ep : AdspEndpoint) (w key j : UInt16) :
    (ep.onConn key (Connection.sendAck w)).connections[j]? = ep.connections[j]? := by
  unfold onConn
  rcases hc : ep.connections[key]? with _ | c
  · rfl
  · dsimp only [Connection.sendAck]
    rw [getElem?_insert_eq]
    split_ifs with hj
    · rw [hj, hc]
    · rfl

/-- The acknowledgements that reopen the window. -/
theorem sendAcks_spec (keys : List UInt16) (ep : AdspEndpoint) :
    (∀ j : UInt16, (sendAcks keys ep).connections[j]? = ep.connections[j]?) ∧
      (sendAcks keys ep).recvWindow = ep.recvWindow ∧
      (sendAcks keys ep).outbox =
        ep.outbox ++ (keys.filterMap fun k => ep.connections[k]?).flatMap fun c =>
          (c.sendAck ep.recvWindow).packets.map fun p => (c.remote, p) := by
  induction keys generalizing ep with
  | nil => exact ⟨fun _ => rfl, rfl, by simp [sendAcks]⟩
  | cons key keys ih =>
    have hsame := connections_sendAck ep ep.recvWindow key
    have hkept : (ep.onConn key (Connection.sendAck ep.recvWindow)).recvWindow = ep.recvWindow := by
      unfold onConn
      split <;> rfl
    obtain ⟨hconns, hwindow, houtbox⟩ := ih (ep.onConn key (Connection.sendAck ep.recvWindow))
    refine ⟨fun j => (hconns j).trans (hsame j), hwindow.trans hkept, houtbox.trans ?_⟩
    rw [hkept]
    simp only [hsame]
    unfold onConn
    rcases hc : ep.connections[key]? with _ | c
    · simp [hc]
    · simp [hc, Connection.sendAck]

theorem setRecvWindow_window (ep : AdspEndpoint) (w : UInt16) :
    (ep.setRecvWindow w).recvWindow = w := by
  rw [setRecvWindow_eq]
  split
  · exact (sendAcks_spec _ _).2.1
  · rfl

theorem setRecvWindow_connections (ep : AdspEndpoint) (w j : UInt16) :
    (ep.setRecvWindow w).connections[j]? = ep.connections[j]? := by
  rw [setRecvWindow_eq]
  split
  · exact (sendAcks_spec _ { ep with recvWindow := w }).1 j
  · rfl

/-- **How the window reopens**: every connection is sent an acknowledgement with it. -/
theorem setRecvWindow_outbox (ep : AdspEndpoint) (w : UInt16) :
    ∃ new, (ep.setRecvWindow w).outbox = ep.outbox ++ new ∧ (∀ d ∈ new, SaysWindow w d.2) ∧
      (ep.recvWindow = 0 → 0 < w → ∀ (k : UInt16) (c : Connection), ep.connections[k]? = some c →
        ∀ p ∈ (c.sendAck w).packets, (c.remote, p) ∈ new) := by
  rw [setRecvWindow_eq]
  split
  · refine ⟨_, (sendAcks_spec _ { ep with recvWindow := w }).2.2, fun d hd => ?_, ?_⟩
    · obtain ⟨c, -, hd⟩ := List.mem_flatMap.1 hd
      obtain ⟨p, hp, rfl⟩ := List.mem_map.1 hd
      obtain rfl := List.mem_singleton.1 hp
      rw [← List.append_nil (AdspPacket.toBytes _)]
      exact saysWindow_toBytes rfl rfl []
    · intro _ _ k c hc p hp
      have hk : k ∈ ep.connections.keys :=
        Std.TreeMap.mem_keys.2 (Std.TreeMap.mem_iff_isSome_getElem?.2 (by rw [hc]; rfl))
      exact List.mem_flatMap.2 ⟨c, List.mem_filterMap.2 ⟨k, hk, hc⟩, List.mem_map.2 ⟨p, hp, rfl⟩⟩
  · rename_i hnot
    exact ⟨[], (List.append_nil _).symm, nofun, fun hz hpos => absurd ⟨hz, hpos⟩ hnot⟩

theorem reticent_setRecvWindow (hr : ep.Reticent) (w : UInt16) : (ep.setRecvWindow w).Reticent := by
  intro k c hc
  rw [setRecvWindow_connections] at hc
  exact hr k c hc

end

end AdspEndpoint

end TailTalk
