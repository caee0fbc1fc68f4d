/-
  Ownership of ASP sessions.

  `Sound` is the invariant of a server, and `Owned` says what a step may do to
  the sessions that are open.  The next ID may be that of a session still open:
  `Young` says of a step that no session is as old as that.
-/
import TailTalk.Asp.Server

namespace TailTalk

open Lib

namespace AtpReceivedRequest

/-- The header of a request. -/
def header? (req : AtpReceivedRequest) : Option AspHeader := (AspHeader.parse req.userBytes).toOption

/-- A request for a session, with one of some functions. -/
def Names (req : AtpReceivedRequest) (functions : List SPFunction) (id : UInt8) : Prop :=
  ∃ header ∈ req.header?, header.function ∈ functions ∧ header.sessionId = id

end AtpReceivedRequest

namespace AspServer

/-- The functions that show that a client is there. -/
def lively : List SPFunction := [.command, .write, .tickle]

/-- The i-th session has the ID i mod 255 + 1 and is its opener's; every packet of it has reset its
    watchdog. -/
structure Sound (s : AspServer) : Prop where
  next : s.nextSessionId.toNat = s.channels.length % 255 + 1
  ids : ∀ (id : UInt8) sess, s.sessions[id]? = some sess → id.toNat = sess.channel % 255 + 1
  owner : ∀ (id : UInt8) sess, s.sessions[id]? = some sess →
    ∃ c, s.channels[sess.channel]? = some c ∧ c.opener.node = sess.addr.node ∧
      c.openedAt ≤ sess.lastActivity
  begun : ∀ c ∈ s.channels, c.openedAt ≤ s.clock
  active : ∀ (id : UInt8) sess, s.sessions[id]? = some sess → ∀ e ∈ s.log, e.2.Names lively id →
    e.1 ≤ sess.lastActivity
  past : ∀ e ∈ s.log, e.1 ≤ s.clock
  fed : ∀ c ∈ s.channels, ∀ cmd ∈ c.delivered, cmd.clientAddress.node = c.opener.node

theorem sound_new (statusData : Bytes) (actualSocket : UInt8) :
    Sound (new statusData actualSocket) where
  next := rfl
  ids := fun _ _ h => nomatch Std.TreeMap.getElem?_emptyc.symm.trans h
  owner := fun _ _ h => nomatch Std.TreeMap.getElem?_emptyc.symm.trans h
  begun := fun _ h => nomatch h
  active := fun _ _ h => nomatch Std.TreeMap.getElem?_emptyc.symm.trans h
  past := fun _ h => nomatch h
  fed := fun _ h => nomatch h

/-! ## What a request does -/

/-- A server with one more session, of the next ID. -/
def opened (s : AspServer) (waiting : Bool) (acceptors : List Bool) (req : AtpReceivedRequest)
    (clientCss : ServiceAddress) : AspServer :=
  { s with
    acceptors
    nextSessionId := if s.nextSessionId = 255 then 1 else s.nextSessionId + 1
    sessions := s.sessions.insert s.nextSessionId ⟨req.source, clientCss, s.channels.length, s.clock⟩
    channels := s.channels ++ [⟨req.source, s.clock, waiting, []⟩] }

/-- **What a request does** to a server. -/
inductive Dispatched (s : AspServer) (req : AtpReceivedRequest) : AspServer → Prop
  /-- it is answered, or not, and changes nothing -/
  | ignored (sent : List AspOutput)
      (hidle : ∀ id, req.Names lively id → s.sessions[id]? = none) : Dispatched s req { s with sent }
  | opens (header : AspHeader) (hheader : req.header? = some header)
      (hfunction : header.function = .openSess) (waiting : Bool) (acceptors : List Bool)
      (haccept : s.acceptors = waiting :: acceptors) (clientCss : ServiceAddress)
      (sent : List AspOutput) :
      Dispatched s req { s.opened waiting acceptors req clientCss with sent }
  | closes (id : UInt8) (hcloses : req.Names [.closeSess] id) (sent : List AspOutput) :
      Dispatched s req { s with sessions := s.sessions.erase id, sent }
  /-- the session is alive, and a command of its own node is delivered -/
  | lives (header : AspHeader) (hheader : req.header? = some header)
      (hfunction : header.function ∈ lively) (old sess : AspState)
      (hold : s.sessions[header.sessionId]? = some old) (hchannel : sess.channel = old.channel)
      (hnode : sess.addr.node = old.addr.node) (hnow : sess.lastActivity = s.clock)
      (channels : List AspChannel) (hchannels : channels = s.channels ∨
        old.addr.node = req.source.node ∧ ∃ cmd : AspCommand, cmd.clientAddress = req.source ∧
          channels = s.channels.modify old.channel fun c => c.deliver cmd) :
      Dispatched s req
        { s with sessions := s.sessions.insert header.sessionId sess, channels }

theorem not_lively {req : AtpReceivedRequest} {header : AspHeader} (h : req.header? = some header)
    (hfunction : header.function ∉ lively) (id : UInt8) : ¬ req.Names lively id := by
  rintro ⟨header', hheader', hlively, -⟩
  obtain rfl : header = header' := Option.some.inj (h.symm.trans hheader')
  exact hfunction hlively

theorem idle_of_none {s : AspServer} {req : AtpReceivedRequest} {header : AspHeader}
    (h : req.header? = some header) (hs : s.sessions[header.sessionId]? = none) (id : UInt8)
    (hnames : req.Names lively id) : s.sessions[id]? = none := by
  obtain ⟨header', hheader', -, rfl⟩ := hnames
  obtain rfl : header = header' := Option.some.inj (h.symm.trans hheader')
  exact hs

theorem openSess_cases {s : AspServer} {req : AtpReceivedRequest} {header : AspHeader}
    (h : req.header? = some header) (hfunction : header.function = .openSess) :
    Dispatched s req (s.openSess req header) := by
  unfold AspServer.openSess
  rcases haccept : s.acceptors with _ | ⟨waiting, acceptors⟩
  · refine .ignored _ fun id hnames => absurd hnames (not_lively h ?_ id)
    rw [hfunction]
    decide
  · exact .opens header h hfunction waiting acceptors haccept _ _

theorem closeSess_cases {s : AspServer} {req : AtpReceivedRequest} {header : AspHeader}
    (h : req.header? = some header) (hfunction : header.function = .closeSess) :
    Dispatched s req (s.closeSess req header) := by
  unfold AspServer.closeSess
  rcases s.sessions[header.sessionId]? with _ | sess
  · refine .ignored _ fun id hnames => absurd hnames (not_lively h ?_ id)
    rw [hfunction]
    decide
  · dsimp only
    rw [ite_self]
    exact .closes header.sessionId ⟨header, h, List.mem_singleton.2 hfunction, rfl⟩ _

theorem command_cases {s : AspServer} {req : AtpReceivedRequest} {header : AspHeader}
    (h : req.header? = some header) (hfunction : header.function ∈ lively) :
    Dispatched s req (s.command req header) := by
  unfold AspServer.command
  rcases hs : s.sessions[header.sessionId]? with _ | sess
  · exact .ignored _ (idle_of_none h hs)
  · dsimp only
    split
    · rename_i hnode
      exact .lives header h hfunction sess { sess with addr := req.source, lastActivity := s.clock }
        hs rfl hnode.symm rfl _ (Or.inr ⟨hnode, ⟨header.sequenceNumber, req.source, req.data,
          req.maxResponseBytes⟩, rfl, rfl⟩)
    · exact .lives header h hfunction sess { sess with lastActivity := s.clock } hs rfl rfl rfl _
        (Or.inl rfl)

theorem tickle_cases {s : AspServer} {req : AtpReceivedRequest} {header : AspHeader}
    (h : req.header? = some header) (hfunction : header.function ∈ lively) :
    Dispatched s req (s.tickle header) := by
  unfold AspServer.tickle
  rcases hs : s.sessions[header.sessionId]? with _ | sess
  · exact .ignored _ (idle_of_none h hs)
  · exact .lives header h hfunction sess { sess with lastActivity := s.clock } hs rfl rfl rfl _
      (Or.inl rfl)

theorem dispatch_cases (s : AspServer) (req : AtpReceivedRequest) :
    Dispatched s req (s.dispatch req) := by
  unfold AspServer.dispatch
  rcases hparse : AspHeader.parse req.userBytes with e | header
  · refine .ignored _ fun id hnames => ?_
    obtain ⟨header, hheader, -⟩ := hnames
    rw [AtpReceivedRequest.header?, hparse] at hheader
    cases hheader
  · have h : req.header? = some header := by
      rw [AtpReceivedRequest.header?, hparse]
      rfl
    have hignored : ∀ sent, header.function ∉ lively → Dispatched s req { s with sent } :=
      fun sent hfunction => .ignored sent fun id hnames => absurd hnames (not_lively h hfunction id)
    dsimp only
    rcases hfunction : header.function
    · exact closeSess_cases h hfunction
    · exact command_cases h (by rw [hfunction]; decide)
    · exact hignored _ (by rw [hfunction]; decide)
    · exact openSess_cases h hfunction
    · exact tickle_cases h (by rw [hfunction]; decide)
    · exact command_cases h (by rw [hfunction]; decide)
    · exact hignored _ (by rw [hfunction]; decide)
    · exact hignored _ (by rw [hfunction]; decide)

/-! ## What keeps the invariant -/

section

variable {s : AspServer}

theorem Sound.sent (h : Sound s) (sent : List AspOutput) : Sound { s with sent } :=
  ⟨h.next, h.ids, h.owner, h.begun, h.active, h.past, h.fed⟩

theorem Sound.fewer (h : Sound s) {sessions : Std.TreeMap UInt8 AspState} (running : Bool)
    (hsub : ∀ (id : UInt8) sess, sessions[id]? = some sess → s.sessions[id]? = some sess) :
    Sound { s with sessions, running } :=
  ⟨h.next, fun id sess hs => h.ids id sess (hsub id sess hs),
    fun id sess hs => h.owner id sess (hsub id sess hs), h.begun,
    fun id sess hs => h.active id sess (hsub id sess hs), h.past, h.fed⟩

theorem Sound.erase (h : Sound s) (id : UInt8) :
    Sound { s with sessions := s.sessions.erase id } := by
  refine h.fewer s.running fun id' sess hs => ?_
  rw [getElem?_erase_eq] at hs
  split_ifs at hs with hid
  exact hs

/-- A session that a packet of its own node, or of another, has shown to be alive. -/
theorem Sound.refresh (h : Sound s) {id : UInt8} {old : AspState} (sess : AspState)
    (hold : s.sessions[id]? = some old) (hchannel : sess.channel = old.channel)
    (hnode : sess.addr.node = old.addr.node) (hnow : sess.lastActivity = s.clock) :
    Sound { s with sessions := s.sessions.insert id sess } where
  next := h.next
  ids := fun id' sess' hs => by
    dsimp only at hs
    rw [getElem?_insert_eq] at hs
    split_ifs at hs with hid
    · obtain rfl := Option.some.inj hs
      rw [hid, hchannel]
      exact h.ids id old hold
    · exact h.ids id' sess' hs
  owner := fun id' sess' hs => by
    dsimp only at hs
    rw [getElem?_insert_eq] at hs
    split_ifs at hs with hid
    · obtain rfl := Option.some.inj hs
      obtain ⟨c, hc, hopener, -⟩ := h.owner id old hold
      rw [hchannel, hnode, hnow]
      exact ⟨c, hc, hopener, h.begun c (List.mem_of_getElem? hc)⟩
    · exact h.owner id' sess' hs
  begun := h.begun
  active := fun id' sess' hs => by
    dsimp only at hs
    rw [getElem?_insert_eq] at hs
    split_ifs at hs with hid
    · obtain rfl := Option.some.inj hs
      intro e he _
      rw [hnow]
      exact h.past e he
    · exact h.active id' sess' hs
  past := h.past
  fed := h.fed

theorem Sound.modify (h : Sound s) (i : ℕ) {f : AspChannel → AspChannel}
    (hopener : ∀ c, (f c).opener = c.opener ∧ (f c).openedAt = c.openedAt)
    (hfed : ∀ c, s.channels[i]? = some c → ∀ cmd ∈ (f c).delivered,
      cmd ∈ c.delivered ∨ cmd.clientAddress.node = c.opener.node) :
    Sound { s with channels := s.channels.modify i f } where
  next := by
    dsimp only
    rw [List.length_modify]
    exact h.next
  ids := h.ids
  owner := fun id sess hs => by
    obtain ⟨c, hc, hnode, hbegun⟩ := h.owner id sess hs
    dsimp only
    rw [List.getElem?_modify, hc]
    split_ifs with hi
    · exact ⟨f c, rfl, (hopener c).1.symm ▸ hnode, (hopener c).2.symm ▸ hbegun⟩
    · exact ⟨c, rfl, hnode, hbegun⟩
  begun := fun c hc => by
    obtain ⟨j, hj⟩ := List.mem_iff_getElem?.1 hc
    dsimp only at hj
    rw [List.getElem?_modify] at hj
    obtain ⟨c', hc', heq⟩ := Option.map_eq_some_iff.1 hj
    have hold := h.begun c' (List.mem_of_getElem? hc')
    split_ifs at heq with hi
    · rw [← heq, (hopener c').2]
      exact hold
    · exact heq ▸ hold
  active := h.active
  past := h.past
  fed := fun c hc cmd hcmd => by
    obtain ⟨j, hj⟩ := List.mem_iff_getElem?.1 hc
    dsimp only at hj
    rw [List.getElem?_modify] at hj
    obtain ⟨c', hc', heq⟩ := Option.map_eq_some_iff.1 hj
    have hold := h.fed c' (List.mem_of_getElem? hc')
    split_ifs at heq with hi
    · rw [← heq] at hcmd ⊢
      rw [(hopener c').1]
      exact (hfed c' (hi ▸ hc') cmd hcmd).elim (hold cmd) id
    · rw [← heq] at hcmd ⊢
      exact hold cmd hcmd


theorem Sound.opened (h : Sound s) (waiting : Bool) (acceptors : List Bool)
    (req : AtpReceivedRequest) (clientCss : ServiceAddress) :
    Sound (s.opened waiting acceptors req clientCss) where
  next := by
    have hnext := h.next
    simp only [AspServer.opened, List.length_append, List.length_singleton]
    split
    · rename_i hlast
      rw [hlast] at hnext
      simp only [UInt8.reduceToNat] at hnext ⊢
      omega
    · rename_i hlast
      have hne : s.nextSessionId.toNat ≠ 255 := fun heq => hlast (UInt8.toNat.inj heq)
      have hlt := s.nextSessionId.toNat_lt
      rw [UInt8.toNat_add, UInt8.toNat_one, Nat.mod_eq_of_lt (by omega)]
      omega
  ids := fun id sess hs => by
    rw [AspServer.opened, getElem?_insert_eq] at hs
    split_ifs at hs with hid
    · obtain rfl := Option.some.inj hs
      rw [hid]
      exact h.next
    · exact h.ids id sess hs
  owner := fun id sess hs => by
    rw [AspServer.opened, getElem?_insert_eq] at hs
    rw [AspServer.opened]
    split_ifs at hs with hid
    · obtain rfl := Option.some.inj hs
      exact ⟨_, List.getElem?_concat_length, rfl, Nat.le_refl _⟩
    · obtain ⟨c, hc, hnode⟩ := h.owner id sess hs
      exact ⟨c, by rw [List.getElem?_append_left (List.getElem?_eq_some_iff.1 hc).1, hc], hnode⟩
  begun := fun c hc => by
    rcases List.mem_append.1 hc with hc | hc
    · exact h.begun c hc
    · rw [List.mem_singleton.1 hc]
      exact Nat.le_refl _
  active := fun id sess hs => by
    rw [AspServer.opened, getElem?_insert_eq] at hs
    split_ifs at hs with hid
    · obtain rfl := Option.some.inj hs
      exact fun e he _ => h.past e he
    · exact h.active id sess hs
  past := h.past
  fed := fun c hc cmd hcmd => by
    rcases List.mem_append.1 hc with hc | hc
    · exact h.fed c hc cmd hcmd
    · rw [List.mem_singleton.1 hc] at hcmd
      cases hcmd

theorem deliver_opener (c : AspChannel) (cmd : AspCommand) :
    (c.deliver cmd).opener = c.opener ∧ (c.deliver cmd).openedAt = c.openedAt := by
  rw [AspChannel.deliver]
  split
  · exact ⟨rfl, rfl⟩
  · exact ⟨rfl, rfl⟩

theorem mem_deliver {c : AspChannel} {cmd cmd' : AspCommand}
    (h : cmd' ∈ (c.deliver cmd).delivered) : cmd' ∈ c.delivered ∨ cmd' = cmd := by
  rw [AspChannel.deliver] at h
  split at h
  · exact (List.mem_append.1 h).imp_right List.mem_singleton.1
  · exact Or.inl h

/-- **One request**, but for the log. -/
theorem Sound.dispatched {s' : AspServer} (h : Sound s) {req : AtpReceivedRequest}
    (hd : Dispatched s req s') : Sound s' := by
  cases hd with
  | ignored sent _ => exact h.sent sent
  | opens header _ _ waiting acceptors _ clientCss sent =>
    exact (h.opened waiting acceptors req clientCss).sent sent
  | closes id _ sent => exact (h.erase id).sent sent
  | lives header _ _ old sess hold hchannel hnode hnow channels hchannels =>
    have hrefresh := h.refresh sess hold hchannel hnode hnow
    rcases hchannels with rfl | ⟨howner, cmd, hcmd, rfl⟩
    · exact hrefresh
    · refine hrefresh.modify old.channel (fun c => deliver_opener c cmd) ?_
      intro c hc cmd' hcmd'
      rcases mem_deliver hcmd' with hcmd' | rfl
      · exact Or.inl hcmd'
      · -- the session has the node of its channel, and so has the command
        obtain ⟨c', hc', hnode', -⟩ := h.owner _ old hold
        obtain rfl : c' = c := Option.some.inj (hc'.symm.trans hc)
        rw [hcmd]
        exact Or.inr (howner.symm.trans hnode'.symm)

/-- Time goes by and the log grows by packets that have reset their session's watchdog. -/
theorem Sound.logged (h : Sound s) {e : ℕ × AtpReceivedRequest} (hpast : e.1 ≤ s.clock)
    (hreset : ∀ (id : UInt8) sess, s.sessions[id]? = some sess → e.2.Names lively id →
      e.1 ≤ sess.lastActivity) : Sound { s with log := s.log ++ [e] } where
  next := h.next
  ids := h.ids
  owner := h.owner
  begun := h.begun
  active := fun id sess hs e' he' hnames => by
    rcases List.mem_append.1 he' with he' | he'
    · exact h.active id sess hs e' he' hnames
    · obtain rfl := List.mem_singleton.1 he'
      exact hreset id sess hs hnames
  past := fun e' he' => by
    rcases List.mem_append.1 he' with he' | he'
    · exact h.past e' he'
    · obtain rfl := List.mem_singleton.1 he'
      exact hpast
  fed := h.fed

theorem dispatched_clock {s' : AspServer} {req : AtpReceivedRequest} (h : Dispatched s req s') :
    s'.clock = s.clock ∧ s'.log = s.log := by
  cases h with
  | ignored => exact ⟨rfl, rfl⟩
  | opens => exact ⟨rfl, rfl⟩
  | closes => exact ⟨rfl, rfl⟩
  | lives => exact ⟨rfl, rfl⟩

theorem dispatched_reset {s' : AspServer} {req : AtpReceivedRequest} (h : Dispatched s req s')
    {id : UInt8} {sess : AspState} (hs : s'.sessions[id]? = some sess)
    (hnames : req.Names lively id) : sess.lastActivity = s.clock := by
  cases h with
  | ignored sent hidle => exact nomatch (hidle id hnames).symm.trans hs
  | opens header hheader hfunction =>
    refine absurd hnames (not_lively hheader ?_ id)
    rw [hfunction]
    decide
  | closes id' hcloses =>
    obtain ⟨header, hheader, hfunction, -⟩ := hcloses
    refine absurd hnames (not_lively hheader ?_ id)
    rw [List.mem_singleton.1 hfunction]
    decide
  | lives header hheader hfunction old sess' hold hchannel hnode hnow =>
    obtain ⟨header', hheader', -, rfl⟩ := hnames
    obtain rfl : header = header' := Option.some.inj (hheader.symm.trans hheader')
    dsimp only at hs
    rw [getElem?_insert_eq, if_pos rfl] at hs
    obtain rfl := Option.some.inj hs
    exact hnow

theorem Sound.handleRequest (h : Sound s) (req : AtpReceivedRequest) :
    Sound (s.handleRequest req) := by
  have hd := dispatch_cases s req
  obtain ⟨hclock, hlog⟩ := dispatched_clock hd
  have hlogged := (h.dispatched hd).logged (e := (s.clock, req)) (Nat.le_of_eq hclock.symm)
    fun id sess hs hnames => Nat.le_of_eq (dispatched_reset hd hs hnames).symm
  rw [hlog] at hlogged
  exact hlogged

theorem getElem?_tick (s : AspServer) (id : UInt8) :
    s.tick.sessions[id]? = s.sessions[id]?.filter fun sess => !s.timedOut sess := by
  simp only [AspServer.tick, AspServer.send]
  rw [Std.TreeMap.getElem?_filter']

theorem Sound.tick (h : Sound s) : Sound s.tick := by
  refine Sound.sent (h.fewer s.running fun id sess hs => ?_) _
  have htick : s.tick.sessions[id]? = some sess := hs
  rw [getElem?_tick] at htick
  exact (Option.filter_eq_some_iff.1 htick).1

theorem Sound.shutdown (h : Sound s) : Sound s.shutdown :=
  Sound.sent (h.fewer false fun _ _ hs => nomatch Std.TreeMap.getElem?_emptyc.symm.trans hs) _

/-- **One step.** -/
theorem Sound.step (h : Sound s) (event : Event) : Sound (s.step event) := by
  cases event with
  | request req =>
    simp only [AspServer.step]
    split
    · exact h.handleRequest req
    · exact h
  | tick =>
    simp only [AspServer.step]
    split
    · exact h.tick
    · exact h
  | accept =>
    simp only [AspServer.step]
    split
    · exact ⟨h.next, h.ids, h.owner, h.begun, h.active, h.past, h.fed⟩
    · exact h
  | abandon i =>
    simp only [AspServer.step]
    split
    · exact ⟨h.next, h.ids, h.owner, h.begun, h.active, h.past, h.fed⟩
    · exact h
  | drop channel => exact h.modify channel (fun _ => ⟨rfl, rfl⟩) fun _ _ _ hcmd => Or.inl hcmd
  | wait time =>
    exact ⟨h.next, h.ids, h.owner, fun c hc => Nat.le_add_right_of_le (h.begun c hc), h.active,
      fun e he => Nat.le_add_right_of_le (h.past e he), h.fed⟩
  | shutdown =>
    simp only [AspServer.step]
    split
    · exact h.shutdown
    · exact h

/-! ## What happens to sessions that are open -/

/-- An OpenSess that a caller waits for. -/
def Opens (s : AspServer) : Event → Prop
  | .request req => s.running = true ∧ s.acceptors ≠ [] ∧
      ∃ header ∈ req.header?, header.function = .openSess
  | _ => False

instance (s : AspServer) (event : Event) : Decidable (Opens s event) := by
  unfold Opens
  split <;> infer_instance

/-- The session was opened longer ago than the time-out, and so is the last packet for it from its
    node. -/
def Silent (s : AspServer) (id : UInt8) (c : AspChannel) : Prop :=
  c.openedAt + SESSION_TIMEOUT < s.clock ∧
    ∀ e ∈ s.log, e.2.source.node = c.opener.node → e.2.Names lively id →
      e.1 + SESSION_TIMEOUT < s.clock

/-- **What a step may do to open sessions**: a new ID is free, and one that ends was closed by a
    node that may do so, was not heard of or ends with the server. -/
structure Owned (mayClose : UInt16 × UInt8 → UInt16 × UInt8 → Prop) (s : AspServer)
    (event : Event) : Prop where
  free : Opens s event → s.sessions[s.nextSessionId]? = none
  ends : ∀ (id : UInt8) sess, s.sessions[id]? = some sess →
    (∃ sess', (s.step event).sessions[id]? = some sess' ∧ sess'.channel = sess.channel) ∨
      (∃ c, s.channels[sess.channel]? = some c ∧ ∃ req, event = .request req ∧
        req.Names [.closeSess] id ∧ mayClose c.opener.node req.source.node) ∨
      (event = .tick ∧ ∃ c, s.channels[sess.channel]? = some c ∧ Silent s id c) ∨
      event = .shutdown

/-- No session is still open after 255 others were accepted, if the step accepts one. -/
def Young (s : AspServer) (event : Event) : Prop :=
  Opens s event → ∀ e ∈ s.sessions.toList, s.channels.length < e.2.channel + 255

instance (s : AspServer) (event : Event) : Decidable (Young s event) :=
  inferInstanceAs (Decidable (_ → _))

theorem Sound.free (h : Sound s)
    (hyoung : ∀ e ∈ s.sessions.toList, s.channels.length < e.2.channel + 255) :
    s.sessions[s.nextSessionId]? = none := by
  refine Option.eq_none_iff_forall_ne_some.2 fun sess hs => ?_
  have hlt := hyoung (s.nextSessionId, sess) (Std.TreeMap.mem_toList_iff_getElem?_eq_some.2 hs)
  obtain ⟨c, hc, -⟩ := h.owner _ sess hs
  have hold := (List.getElem?_eq_some_iff.1 hc).1
  have hid := h.ids _ sess hs
  have hnext := h.next
  dsimp only at hlt
  omega

theorem dispatched_ends {s' : AspServer} {req : AtpReceivedRequest} (h : Dispatched s req s')
    (hfree : (∃ header ∈ req.header?, header.function = .openSess) → s.acceptors ≠ [] →
      s.sessions[s.nextSessionId]? = none) {id : UInt8} {sess : AspState}
    (hs : s.sessions[id]? = some sess) :
    (∃ sess', s'.sessions[id]? = some sess' ∧ sess'.channel = sess.channel) ∨
      req.Names [.closeSess] id := by
  cases h with
  | ignored sent => exact Or.inl ⟨sess, hs, rfl⟩
  | opens header hheader hfunction waiting acceptors haccept =>
    have hnone := hfree ⟨header, hheader, hfunction⟩ (haccept ▸ List.cons_ne_nil waiting acceptors)
    refine Or.inl ⟨sess, ?_, rfl⟩
    simp only [AspServer.opened]
    rw [getElem?_insert_eq, if_neg, hs]
    rintro rfl
    exact nomatch hnone.symm.trans hs
  | closes id' hcloses =>
    by_cases hid : id = id'
    · exact Or.inr (hid ▸ hcloses)
    · refine Or.inl ⟨sess, ?_, rfl⟩
      dsimp only
      rw [getElem?_erase_eq, if_neg hid, hs]
  | lives header hheader hfunction old sess' hold hchannel =>
    refine Or.inl ?_
    dsimp only
    rw [getElem?_insert_eq]
    split
    · rename_i hid
      obtain rfl : old = sess := Option.some.inj (hold.symm.trans (hid ▸ hs))
      exact ⟨sess', rfl, hchannel⟩
    · exact ⟨sess, hs, rfl⟩

theorem Sound.silent (h : Sound s) {id : UInt8} {sess : AspState}
    (hs : s.sessions[id]? = some sess) (hout : s.timedOut sess = true) :
    ∃ c, s.channels[sess.channel]? = some c ∧ Silent s id c := by
  obtain ⟨c, hc, -, hbegun⟩ := h.owner id sess hs
  have hlate := of_decide_eq_true hout
  refine ⟨c, hc, by omega, fun e he _ hnames => ?_⟩
  have hle := h.active id sess hs e he hnames
  omega

/-- **One step.** -/
theorem Sound.owned (h : Sound s) {event : Event} (hyoung : Young s event) :
    Owned (fun _ _ => True) s event := by
  have hfree : Opens s event → s.sessions[s.nextSessionId]? = none := fun hopens =>
    h.free (hyoung hopens)
  refine ⟨hfree, fun id sess hs => ?_⟩
  have hstays : ∀ s' : AspServer, s'.sessions = s.sessions →
      ∃ sess', s'.sessions[id]? = some sess' ∧ sess'.channel = sess.channel :=
    fun s' heq => ⟨sess, heq ▸ hs, rfl⟩
  cases event with
  | request req =>
    simp only [AspServer.step]
    split
    · rename_i hrunning
      rcases dispatched_ends (dispatch_cases s req) (fun hheader haccept =>
        hfree ⟨hrunning, haccept, hheader⟩) hs with hs' | hcloses
      · exact Or.inl hs'
      · obtain ⟨c, hc, -⟩ := h.owner id sess hs
        exact Or.inr (Or.inl ⟨c, hc, req, rfl, hcloses, trivial⟩)
    · exact Or.inl (hstays s rfl)
  | tick =>
    simp only [AspServer.step]
    split
    · rcases hout : s.timedOut sess with _ | _
      · refine Or.inl ⟨sess, ?_, rfl⟩
        rw [getElem?_tick, hs, Option.filter_some, hout]
        rfl
      · exact Or.inr (Or.inr (Or.inl ⟨trivial, h.silent hs hout⟩))
    · exact Or.inl (hstays s rfl)
  | accept =>
    refine Or.inl (hstays _ ?_)
    simp only [AspServer.step]
    split
    · rfl
    · rfl
  | abandon i =>
    refine Or.inl (hstays _ ?_)
    simp only [AspServer.step]
    split
    · rfl
    · rfl
  | drop channel => exact Or.inl (hstays _ rfl)
  | wait time => exact Or.inl (hstays _ rfl)
  | shutdown => exact Or.inr (Or.inr (Or.inr rfl))

theorem sound_run (statusData : Bytes) (actualSocket : UInt8) (events : List Event) :
    Sound (run step (new statusData actualSocket) events) :=
  inv_run step (fun _ event h _ => h.step event) (sound_new statusData actualSocket)
    (along_true step events)

/-- **Sessions of every run.** Commands come from the node that opened the session; where no session
    outlives 255 others, IDs are free when they are given and a session ends only by a CloseSess, by
    silence or with the server. -/
theorem owned_run (statusData : Bytes) (actualSocket : UInt8) (events : List Event) :
    (∀ c ∈ (run step (new statusData actualSocket) events).channels, ∀ cmd ∈ c.delivered,
      cmd.clientAddress.node = c.opener.node) ∧
    (Along step Young (new statusData actualSocket) events →
      Along step (Owned fun _ _ => True) (new statusData actualSocket) events) := by
  refine ⟨(sound_run statusData actualSocket events).fed, fun hyoung => ?_⟩
  have hsound := sound_new statusData actualSocket
  generalize new statusData actualSocket = s at hsound hyoung
  induction events generalizing s with
  | nil => trivial
  | cons event events ih => exact ⟨hsound.owned hyoung.1, ih _ (hsound.step event) hyoung.2⟩

end

/-! ## Two workstations -/

/-- A request of a workstation of network 1. -/
def ask (node socket : UInt8) (function : SPFunction) (id : UInt8) : Event :=
  .request ⟨⟨1, node, socket⟩, #v[function.code, id, 0, 1], [], 0xFF⟩

/-- Two sessions; the first is closed from another socket, the second falls silent. -/
def workstations : List Event :=
  [.accept, ask 5 130 .openSess 131, .accept, ask 6 140 .openSess 141, ask 5 132 .command 1,
    .wait 100000, ask 6 140 .tickle 2, ask 5 130 .closeSess 1, .wait 130000, .tick]

theorem owned_run_workstations :
    Along step (Owned fun _ _ => True) (new [] 8) workstations :=
  (owned_run [] 8 workstations).2 (by decide +kernel)

/-- A CloseSess of another node ends the session. -/
theorem owned_run_fails : ¬ ∀ (statusData : Bytes) (actualSocket : UInt8) (events : List Event),
    Along step (Owned Eq) (new statusData actualSocket) events := by
  intro h
  have hended := (h [] 8 [.accept, ask 5 130 .openSess 131, ask 6 140 .closeSess 1]).2.2.1.ends 1
    ⟨⟨1, 5, 130⟩, ⟨1, 5, 131⟩, 0, 0⟩ (by decide +kernel)
  rcases hended with ⟨sess', hs, -⟩ | ⟨c, hc, req, hreq, -, hnode⟩ | ⟨htick, -⟩ | hshutdown
  · exact absurd (Option.isSome_of_eq_some hs) (by decide +kernel)
  · have hopener : c = ⟨⟨1, 5, 130⟩, 0, true, []⟩ :=
      Option.some.inj (hc.symm.trans (by decide +kernel))
    rw [hopener, ← Event.request.inj hreq] at hnode
    exact absurd hnode (by decide)
  · cases htick
  · cases hshutdown

end AspServer

end TailTalk
