/-
  The reads of a PAP session and the replies they get.

  A `Dialogue` keeps, beside a `PapServer`, what its session was told and what
  it answered; `call_server` says that this changes nothing.  `Readout.Allows`
  is the rule a client keeps to.
-/
import TailTalk.Lib.Numbered
import TailTalk.Pap.Credit

namespace TailTalk

open Lib

/-! ## Numbers -/

/-- The number of the `k`-th numbered read of a session. -/
def papSeq (k : ℕ) : UInt16 := UInt16.ofNat (wrap 65535 k)

theorem wrap_le (k : ℕ) : wrap 65535 k ≤ 65535 := Nat.mod_lt k (by decide)

theorem toNat_papSeq (k : ℕ) : (papSeq k).toNat = wrap 65535 k :=
  UInt16.toNat_ofNat_of_lt' (Nat.lt_succ_of_le (wrap_le k))

theorem papSeq_ne_zero (k : ℕ) : papSeq k ≠ 0 := by
  intro h
  have hzero := congrArg UInt16.toNat h
  rw [toNat_papSeq, UInt16.toNat_zero] at hzero
  exact Nat.succ_ne_zero _ hzero

theorem nextPapSeq_papSeq (k : ℕ) : nextPapSeq (papSeq k) = papSeq (k + 1) := by
  apply UInt16.toNat_inj.1
  have hle := wrap_le k
  have hlast : papSeq k = 65535 ↔ wrap 65535 k = 65535 := by
    rw [← UInt16.toNat_inj, toNat_papSeq]
    rfl
  rw [toNat_papSeq, wrap_succ (by decide), nextPapSeq]
  simp only [hlast]
  split_ifs with h
  · rfl
  · rw [UInt16.toNat_add, toNat_papSeq, UInt16.toNat_one]
    omega

theorem papSeq_inj {j k : ℕ} (h : papSeq j = papSeq k) (hjk : j < k + 65535)
    (hkj : k < j + 65535) : j = k := by
  refine wrap_inj ?_ hjk hkj
  rw [← toNat_papSeq, h, toNat_papSeq]

/-- A number that no later one of the first `n` reads has is that of its read. -/
theorem find?_papSeq {j n : ℕ} (hj : j < n) (hi : n ≤ j + 65535) :
    ((recent 65535 (List.range n)).find? fun k => papSeq k = papSeq j) = some j := by
  refine find?_of_unique (mem_recent (i := j) ?_ (by rwa [List.length_range]))
    (decide_eq_true rfl) ?_
  · rw [List.getElem?_range hj]
  intro k hk heq
  obtain ⟨i, hik, hlen⟩ := of_mem_recent hk
  obtain ⟨hin, rfl⟩ := List.getElem?_eq_some_iff.1 hik
  rw [List.length_range] at hin hlen
  rw [List.getElem_range] at heq ⊢
  exact papSeq_inj (of_decide_eq_true heq) (by omega) (by omega)

theorem find?_papSeq_zero (n : ℕ) :
    ((recent 65535 (List.range n)).find? fun k => papSeq k = 0) = none := by
  rw [List.find?_eq_none]
  intro k _ hk
  exact papSeq_ne_zero k (of_decide_eq_true hk)

/-! ## What a session was told and answered -/

/-- A reply to a read, with what had happened when it was sent. -/
structure ReadReply where
  /-- which numbered read of the session it answers -/
  index : Option ℕ
  source : ServiceAddress
  tid : UInt16
  userBytes : UserBytes
  data : Bytes
  /-- the output queued so far -/
  queued : Bytes
  /-- the output was ended, and no reply had said so -/
  ended : Bool

/-- The eof flag that the client reads. -/
def ReadReply.eof (r : ReadReply) : Bool :=
  match PapPacket.parseFromAtp r.userBytes r.data with
  | .ok pap => pap.eof
  | .error _ => false

/-- The history of a session. -/
structure Readout where
  queued : Bytes
  ended : Bool
  /-- how many numbers the client has issued -/
  issued : ℕ
  replies : List ReadReply

namespace Readout

/-- Nothing was told and nothing answered. -/
def start : Readout := ⟨[], false, 0, []⟩

/-- The replies, each numbered one taken once. -/
def fresh (h : Readout) : List ReadReply := firsts ReadReply.index h.replies

/-- The output in the replies. -/
def delivered (h : Readout) : Bytes := h.fresh.flatMap (·.data)

/-- The last read issued under a number. -/
def indexOf (h : Readout) (seq : UInt16) : Option ℕ :=
  (recent 65535 (List.range h.issued)).find? fun k => papSeq k = seq

/-- A read arrives. -/
def ask (h : Readout) (seq : UInt16) : Readout :=
  if seq = papSeq h.issued then { h with issued := h.issued + 1 } else h

/-- An answer, with the place of its read. -/
def replyTo (h : Readout) (read : PendingRead) (content : UserBytes × Bytes) : ReadReply where
  index := h.indexOf read.seq
  source := read.source
  tid := read.tid
  userBytes := content.1
  data := content.2
  queued := h.queued
  ended := h.ended

@[simp] theorem replyTo_index (h : Readout) (read : PendingRead) (content : UserBytes × Bytes) :
    (h.replyTo read content).index = h.indexOf read.seq := rfl

@[simp] theorem replyTo_content (h : Readout) (read : PendingRead)
    (content : UserBytes × Bytes) :
    ((h.replyTo read content).userBytes, (h.replyTo read content).data) = content := rfl

/-- A reply is sent once more. -/
def again (h : Readout) (read : PendingRead) (content : UserBytes × Bytes) : Readout :=
  { h with replies := h.replies ++ [h.replyTo read content] }

/-- A reply is sent for the first time. -/
def answer (h : Readout) (read : PendingRead) (content : UserBytes × Bytes) : Readout :=
  { h.again read content with ended := h.ended && !(h.replyTo read content).eof }

/-- Unnumbered reads, the next number once the last one was answered, and any of the last 8 again.
    -/
def Allows (h : Readout) (seq : UInt16) : Prop :=
  seq = 0 ∨
  (seq = papSeq h.issued ∧
    ∀ j ∈ List.range h.issued, j + 1 = h.issued → some j ∈ h.replies.map (·.index)) ∨
  ∃ j ∈ List.range h.issued, h.issued ≤ j + READ_REPLY_CACHE_LEN ∧ seq = papSeq j

instance (h : Readout) (seq : UInt16) : Decidable (h.Allows seq) :=
  inferInstanceAs (Decidable (_ ∨ _ ∨ _))

end Readout

namespace PapServer

/-- The read of the session that an event of the connection socket brings. -/
def readOf (s : PapServer) : AtpEvent → Option PendingRead
  | .request source tid userBytes data bitmap _ =>
    match PapPacket.parseFromAtp userBytes data, s.session with
    | .ok pap, some session =>
      if pap.connectionId = session.connId ∧ pap.function = .sendData then
        some ⟨source, tid, bitmap, pap.sequenceNum⟩
      else none
    | _, _ => none
  | _ => none

/-- The reply that a read is met with at once. -/
def cachedReply (s : PapServer) (read : PendingRead) : Option (UserBytes × Bytes) := do
  let session ← s.session
  if read.seq ≠ 0 ∧ read.seq ≠ session.readSeq then
    (session.readCache.find? fun c => c.1 = read.seq).map (·.2)
  else none

end PapServer

namespace PapSession

/-- The reply that takes `n` bytes of the output. -/
def reply (session : PapSession) (n : ℕ) : PapPacket where
  connectionId := session.connId
  function := .data
  sequenceNum := 0
  eof := session.eofQueued && (session.stdout.drop n).isEmpty
  data := session.stdout.take n

/-- The bytes that a read takes. -/
def readLength (session : PapSession) (read : PendingRead) : ℕ :=
  min session.stdout.length (min (max (countOnes read.bitmap) 1) 8 * PAP_MAX_DATA_PER_PACKET)

/-- The read that can be answered now. -/
def answerable (session : PapSession) (now : Micros) : Option PendingRead :=
  if !session.stdout.isEmpty || session.eofQueued ||
      decide (now ≥ session.lastClientWrite + READ_IDLE_ANSWER)
  then session.pendingRead else none

/-- The session once a read is answered with `n` bytes. -/
def served (session : PapSession) (read : PendingRead) (n : ℕ) : PapSession :=
  let (userBytes, data) := (session.reply n).toAtpParts
  { session with
    pendingRead := none
    stdout := session.stdout.drop n
    eofQueued := session.eofQueued && !(session.reply n).eof
    readSeq := if read.seq ≠ 0 then nextPapSeq session.readSeq else session.readSeq
    readCache := if read.seq ≠ 0 then
        (if session.readCache.length = READ_REPLY_CACHE_LEN then session.readCache.tail
          else session.readCache) ++ [(read.seq, userBytes, data)]
      else session.readCache }

end PapSession

namespace PapServer

/-- The read that `answerRead` answers, and with what. -/
def freshReply (s : PapServer) (now : Micros) : Option (PendingRead × UserBytes × Bytes) := do
  let session ← s.session
  let read ← session.answerable now
  some (read, (session.reply (session.readLength read)).toAtpParts)

end PapServer

/-- A server, and the history of its session. -/
structure Dialogue where
  server : PapServer
  told : Readout

namespace Dialogue

/-- A server with no session. -/
def new (listenerSocket connSocket : UInt8) : Dialogue :=
  ⟨PapServer.new listenerSocket connSocket, .start⟩

/-- A step of the server that the history does not see. -/
def on (d : Dialogue) (f : PapServer → PapServer) : Dialogue := { d with server := f d.server }

/-- A piece of the server that may not return. -/
def onOption (d : Dialogue) (f : PapServer → Option PapServer) : Option Dialogue :=
  (f d.server).map fun server => { d with server }

/-- An event of the listener: a history starts with its session. -/
def listenerEvent (now : Micros) (d : Dialogue) (e : AtpEvent) : Dialogue where
  server := PapServer.handleListenerEvent now d.server e
  told := if d.server.session.isSome then d.told else .start

/-- An event of the connection socket. -/
def connEvent (now : Micros) (d : Dialogue) (e : AtpEvent) : Dialogue where
  server := PapServer.handleConnEvent now d.server e
  told := match d.server.readOf e with
    | none => d.told
    | some read =>
      match d.server.cachedReply read with
      | none => d.told.ask read.seq
      | some content => (d.told.ask read.seq).again read content

/-- The waiting read is answered. -/
def answerRead (d : Dialogue) (now : Micros) : Dialogue where
  server := d.server.answerRead now
  told := match d.server.freshReply now with
    | none => d.told
    | some (read, content) => d.told.answer read content

/-- The listener's events, with the dialogue they are handled in. -/
def drainListener (d : Dialogue) (now : Micros) : Dialogue :=
  run (listenerEvent now)
    (d.on fun s => { s with listener := { s.listener with events := [] } }) d.server.listener.events

/-- The dialogue that the events of the connection socket are handled in. -/
def quiet (d : Dialogue) : Dialogue :=
  d.on fun s => { s with connEp := { s.connEp with events := [] } }

/-- The events of the connection socket. -/
def drainConn (d : Dialogue) (now : Micros) : Dialogue :=
  run (connEvent now) d.quiet d.server.connEp.events

/-- All that waits. -/
def drain (d : Dialogue) (now : Micros) : Option Dialogue :=
  (((d.drainListener now).drainConn now).answerRead now).onOption (·.maybePull now)

/-- The timers. -/
def poll (d : Dialogue) (now : Micros) : Option Dialogue := do
  let d ← (d.on (·.ticked now)).drain now
  let d ← d.onOption (·.pollSession now)
  (d.answerRead now).onOption (·.maybePull now)

/-- More output, if there is a session. -/
def queueOutput (d : Dialogue) (data : Bytes) (now : Micros) : Dialogue :=
  ({ server := { d.server with session := d.server.session.map fun session =>
        { session with stdout := session.stdout ++ data } }
     told := { d.told with queued := d.told.queued ++ data } } : Dialogue).answerRead now

/-- The output ends. -/
def endOutput (d : Dialogue) (now : Micros) : Dialogue :=
  ({ server := { d.server with session := d.server.session.map fun session =>
        { session with eofQueued := true } }
     told := { d.told with ended := true } } : Dialogue).answerRead now

/-- Any call. -/
def call (d : Dialogue) : PapCall → Option Dialogue
  | .setStatus status => some (d.on (·.setStatus status))
  | .setSinkCredit bytes now => d.onOption (·.setSinkCredit bytes now)
  | .queueOutput data now => some (d.queueOutput data now)
  | .endOutput now => some (d.endOutput now)
  | .handleDatagram localSocket src payload now =>
    (d.on (·.received localSocket src payload)).drain now
  | .poll now => d.poll now
  | .pollTransmit => some (d.on (·.pollTransmit.2))
  | .pollEvent => some (d.on (·.pollEvent.2))

/-! ## The history changes nothing -/

section
variable (d : Dialogue) (now : Micros)

theorem drainListener_server :
    (d.drainListener now).server = d.server.drainListener now := by
  have hrun : ∀ (events : List AtpEvent) (d : Dialogue),
      (run (listenerEvent now) d events).server =
        run (PapServer.handleListenerEvent now) d.server events := by
    intro events
    induction events with
    | nil => exact fun _ => rfl
    | cons e events ih => exact fun d => ih (d.listenerEvent now e)
  exact hrun _ _

theorem drainConn_server : (d.drainConn now).server = d.server.drainConn now := by
  have hrun : ∀ (events : List AtpEvent) (d : Dialogue),
      (run (connEvent now) d events).server =
        run (PapServer.handleConnEvent now) d.server events := by
    intro events
    induction events with
    | nil => exact fun _ => rfl
    | cons e events ih => exact fun d => ih (d.connEvent now e)
  exact hrun _ _

theorem onOption_server (f : PapServer → Option PapServer) :
    (d.onOption f).map (·.server) = f d.server := by
  rw [onOption, Option.map_map]
  exact Option.map_id'

theorem drain_server : (d.drain now).map (·.server) = d.server.drain now := by
  rw [drain, onOption_server, PapServer.drain, answerRead, drainConn_server, drainListener_server]

theorem bind_server {o : Option Dialogue} {f : Dialogue → Option Dialogue}
    (g : PapServer → Option PapServer) (hf : ∀ d, (f d).map (·.server) = g d.server) :
    (o.bind f).map (·.server) = (o.map (·.server)).bind g := by
  cases o with
  | none => rfl
  | some d => exact hf d

theorem poll_server : (d.poll now).map (·.server) = d.server.poll now := by
  have hend : ∀ d : Dialogue, ((d.answerRead now).onOption (·.maybePull now)).map (·.server) =
      (d.server.answerRead now).maybePull now := fun d => onOption_server _ _
  have hsession : ∀ d : Dialogue, ((d.onOption (·.pollSession now)).bind fun d =>
      (d.answerRead now).onOption (·.maybePull now)).map (·.server) =
        (d.server.pollSession now).bind fun s => (s.answerRead now).maybePull now := by
    intro d
    rw [bind_server (fun s => (s.answerRead now).maybePull now) hend, onOption_server]
  refine (bind_server (fun s => (s.pollSession now).bind fun s => (s.answerRead now).maybePull now)
    hsession).trans ?_
  rw [drain_server]
  rfl

/-- **The server runs as it does without the history beside it.** -/
theorem call_server (c : PapCall) : (d.call c).map (·.server) = d.server.call c := by
  cases c with
  | setSinkCredit bytes now => exact onOption_server d (·.setSinkCredit bytes now)
  | handleDatagram localSocket src payload now =>
    refine (drain_server _ now).trans ?_
    show (d.server.received localSocket src payload).drain now =
      d.server.handleDatagram localSocket src payload now
    unfold PapServer.handleDatagram PapServer.received
    split_ifs <;> rfl
  | poll now => exact poll_server d now
  | _ => rfl

end

/-- A condition on the events of the connection socket that a call handles. -/
def OnReads (P : Micros → Dialogue → AtpEvent → Prop) (d : Dialogue) : PapCall → Prop
  | .handleDatagram localSocket src payload now =>
    let d := (d.on (·.received localSocket src payload)).drainListener now
    Along (connEvent now) (P now) d.quiet d.server.connEp.events
  | .poll now =>
    let d := (d.on (·.ticked now)).drainListener now
    Along (connEvent now) (P now) d.quiet d.server.connEp.events
  | _ => True

instance (P : Micros → Dialogue → AtpEvent → Prop) [∀ now d e, Decidable (P now d e)] :
    ∀ d c, Decidable (OnReads P d c)
  | _, .handleDatagram _ _ _ _ => inferInstanceAs (Decidable (Along _ _ _ _))
  | _, .poll _ => inferInstanceAs (Decidable (Along _ _ _ _))
  | _, .setStatus _ => isTrue trivial
  | _, .setSinkCredit _ _ => isTrue trivial
  | _, .queueOutput _ _ => isTrue trivial
  | _, .endOutput _ => isTrue trivial
  | _, .pollTransmit => isTrue trivial
  | _, .pollEvent => isTrue trivial

/-- The read that an event brings is one that the client may send. -/
def Obeys (_ : Micros) (d : Dialogue) (e : AtpEvent) : Prop :=
  ∀ read ∈ d.server.readOf e, d.told.Allows read.seq

instance (now : Micros) (d : Dialogue) (e : AtpEvent) : Decidable (Obeys now d e) :=
  inferInstanceAs (Decidable (∀ read ∈ d.server.readOf e, _))

/-- A read whose number has been answered is met with that answer. -/
def Repeated (now : Micros) (d : Dialogue) (e : AtpEvent) : Prop :=
  ∀ read ∈ d.server.readOf e, ∀ a ∈ d.told.replies, a.index.isSome →
    a.index = (d.told.ask read.seq).indexOf read.seq →
    (d.connEvent now e).server.connEp = d.server.connEp.respond read.source read.tid a.userBytes
      a.data PAP_MAX_DATA_PER_PACKET now

end Dialogue

end TailTalk
