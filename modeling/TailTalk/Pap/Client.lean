/-
  PAP client — a print job on its way to the printer.

  `PrintJob` is the loop of `PapClient::print_stream` between two turns of its
  `select!`, and an input one arm of it.  `PrintEnv` is what the world does in
  a turn: how much the source hands over, and whether the ATP endpoint takes
  commands.
-/
import TailTalk.Atp.Request
import TailTalk.Pap.Server

namespace TailTalk

open Lib

/-- How many recent replies to keep for reads that come again. -/
def PAP_REPLY_CACHE_LEN : ℕ := 8

/-- How long reads in flight are answered once the end has been sent. -/
def PRINT_DRAIN : Micros := 500000

/-- A reply we sent, kept so that a read that comes again gets it again. -/
abbrev CachedReply := UInt16 × UserBytes × Bytes

/-- The reply to a read that comes again. -/
def cachedReply (cache : List CachedReply) (seq : UInt16) : Option CachedReply :=
  cache.find? fun c => c.1 = seq

/-- Record a reply, evicting the oldest once the cache is full. -/
def rememberReply (cache : List CachedReply) (seq : UInt16) (userBytes : UserBytes)
    (data : Bytes) : List CachedReply :=
  (if cache.length = PAP_REPLY_CACHE_LEN then cache.tail else cache) ++ [(seq, userBytes, data)]

/-- Why a job fails. -/
inductive PrintError where
  | failed (message : String)
  | packet (e : PapError)
  /-- the source cannot be read, or the ATP endpoint is gone -/
  | io

/-- What is left of the source, the replies kept and the deadline at its end. -/
structure PrintJob where
  connectionId : UInt8
  /-- the connection socket of the printer -/
  serverAddr : ServiceAddress
  /-- the size of a read from the source, where it is not derived from the bitmap -/
  chunkSize : Option ℕ
  /-- what has not been read from the source -/
  source : Bytes
  replyCache : List CachedReply
  lastActivity : Micros
  drainDeadline : Option Micros
  /-- how the loop ended -/
  result : Option (Except PrintError Unit)

/-- What the world does in a turn. -/
structure PrintEnv where
  /-- how much the source would hand over; `none` where it fails -/
  read : Option ℕ
  /-- the ATP endpoint takes commands -/
  open_ : Bool

/-- The arms of the loop. -/
inductive PrintInput where
  | request (req : AtpTransaction) (now : Micros)
  | responderClosed
  | tickleTick (now : Micros)
  | drained (now : Micros)

/-- The reply that carries a piece of the source; an empty one ends the job. -/
def dataReply (connectionId : UInt8) (seq : UInt16) (buf : Bytes) : PapPacket where
  connectionId
  function := .data
  sequenceNum := seq
  eof := buf.isEmpty
  data := buf

/-- A packet of the connection without data. -/
def bareReply (connectionId : UInt8) (function : PapFunction) : PapPacket where
  connectionId
  function
  sequenceNum := 0
  eof := false
  data := []

namespace PrintJob

/-- Nothing was read of the source. -/
def start (connectionId : UInt8) (serverAddr : ServiceAddress) (chunkSize : Option ℕ)
    (source : Bytes) (now : Micros) : PrintJob where
  connectionId
  serverAddr
  chunkSize
  source
  replyCache := []
  lastActivity := now
  drainDeadline := none
  result := none

/-- The job is over. -/
def finish (job : PrintJob) (result : Except PrintError Unit) : PrintJob :=
  { job with result := some result }

/-- What `source.read` puts into a buffer: something, unless the source is at its end. -/
def readSource (job : PrintJob) (capacity n : ℕ) : Bytes :=
  job.source.take (min capacity (max 1 n))

/-- The bytes for a read that has not been answered; `none` where the source fails. -/
def nextChunk (job : PrintJob) (req : AtpTransaction) (env : PrintEnv) : Option Bytes :=
  -- once the end has been sent the source is never touched again
  if job.drainDeadline.isSome then some []
  else
    let capacity := job.chunkSize.getD (req.maxPackets * PAP_MAX_DATA_PER_PACKET)
    env.read.map (job.readSource capacity)

/-- The job once it has sent a reply to a new read. -/
def answered (job : PrintJob) (eof : Bool) (now : Micros) : PrintJob :=
  match eof, job.drainDeadline with
  | true, none => { job with drainDeadline := some (now + PRINT_DRAIN) }
  | _, some _ => job.finish (.ok ())
  | false, none => job

/-- The printer asks for more. -/
def sendData (job : PrintJob) (req : AtpTransaction) (seq : UInt16) (env : PrintEnv)
    (now : Micros) : PrintJob × Option AtpCommand :=
  match if seq ≠ 0 then cachedReply job.replyCache seq else none with
  | some (_, userBytes, chunk) =>
    (job, (req.sendResponseChunked chunk userBytes PAP_MAX_DATA_PER_PACKET env.open_).map
      .sendResponse)
  | none =>
    match job.nextChunk req env with
    | none => (job.finish (.error .io), none)
    | some buf =>
      let job := { job with source := job.source.drop buf.length }
      let (userBytes, chunk) := (dataReply job.connectionId seq buf).toAtpParts
      match req.sendResponseChunked chunk userBytes PAP_MAX_DATA_PER_PACKET env.open_ with
      | none => (job.finish (.error .io), none)
      | some response =>
        let job := if seq ≠ 0 then
            { job with replyCache := rememberReply job.replyCache seq userBytes chunk }
          else job
        (job.answered buf.isEmpty now, some (.sendResponse response))

/-- The printer closes the connection. -/
def closeConn (job : PrintJob) (req : AtpTransaction) (env : PrintEnv) :
    PrintJob × Option AtpCommand :=
  let (userBytes, data) := (bareReply job.connectionId .closeConnReply).toAtpParts
  (job.finish (if job.drainDeadline.isSome then .ok ()
      else .error (.failed "Printer closed the connection before the job completed")),
    (req.sendResponse data userBytes env.open_).map .sendResponse)

/-- A request of the printer. -/
def request (job : PrintJob) (req : AtpTransaction) (env : PrintEnv) (now : Micros) :
    PrintJob × Option AtpCommand :=
  match PapPacket.parseFromAtp req.userBytes req.data with
  | .error e => (job.finish (.error (.packet e)), none)
  | .ok pap =>
    if pap.connectionId ≠ job.connectionId then (job, none)
    else
      let job := { job with lastActivity := now }
      match pap.function with
      | .sendData => job.sendData req pap.sequenceNum env now
      | .closeConn => job.closeConn req env
      | _ => (job, none)

/-- A tickle, or the end of a printer not heard of. -/
def tickleTick (job : PrintJob) (env : PrintEnv) (now : Micros) : PrintJob × Option AtpCommand :=
  if now - job.lastActivity > INACTIVITY_TIMEOUT then
    (job.finish (.error (.failed "PAP session timed out after 120 seconds of inactivity")), none)
  else
    (job, if env.open_ then
        some (.sendAlo job.serverAddr (bareReply job.connectionId .tickle).toAtpParts.1)
      else none)

/-- One turn of the loop, and the command it sends. -/
def step (env : PrintEnv) (job : PrintJob) : PrintInput → PrintJob × Option AtpCommand
  | .request req now => job.request req env now
  | .responderClosed => (job.finish (.error (.failed "ATP responder closed unexpectedly")), none)
  | .tickleTick now => job.tickleTick env now
  | .drained now =>
    match job.drainDeadline with
    | some deadline => (if deadline ≤ now then job.finish (.ok ()) else job, none)
    | none => (job, none)

end PrintJob

/-- The number of the read that an input brings. -/
def PrintInput.read? (connectionId : UInt8) : PrintInput → Option UInt16
  | .request req _ =>
    match PapPacket.parseFromAtp req.userBytes req.data with
    | .ok pap =>
      if pap.connectionId = connectionId ∧ pap.function = .sendData then some pap.sequenceNum
      else none
    | .error _ => none
  | _ => none

namespace PrintJob
variable {job : PrintJob} {env : PrintEnv} {now : Micros} {req : AtpTransaction} {seq : UInt16}

theorem step_read (h : (PrintInput.request req now).read? job.connectionId = some seq) :
    job.step env (.request req now) =
      { job with lastActivity := now }.sendData req seq env now := by
  rw [PrintInput.read?] at h
  rw [step, request]
  rcases hparse : PapPacket.parseFromAtp req.userBytes req.data with e | pap
  · rw [hparse] at h
    cases h
  · rw [hparse] at h
    simp only [Option.ite_none_right_eq_some] at h
    obtain ⟨⟨hid, hfunction⟩, hseq⟩ := h
    simp only [hid, hfunction, ne_eq, not_true_eq_false, if_false]
    rw [Option.some.inj hseq]

/-- What the other inputs leave alone. -/
structure SameStream (job job' : PrintJob) : Prop where
  connectionId : job'.connectionId = job.connectionId
  chunkSize : job'.chunkSize = job.chunkSize
  source : job'.source = job.source
  replyCache : job'.replyCache = job.replyCache
  drainDeadline : job'.drainDeadline = job.drainDeadline
  result : job'.result = some (.ok ()) → job.result = some (.ok ()) ∨ job.drainDeadline.isSome

theorem SameStream.refl (job : PrintJob) : SameStream job job :=
  ⟨rfl, rfl, rfl, rfl, rfl, .inl⟩

theorem SameStream.heard {job' : PrintJob} (now : Micros)
    (h : SameStream { job with lastActivity := now } job') : SameStream job job' :=
  ⟨h.connectionId, h.chunkSize, h.source, h.replyCache, h.drainDeadline, h.result⟩

theorem sameStream_finish {result : Except PrintError Unit}
    (h : result = .ok () → job.drainDeadline.isSome) : SameStream job (job.finish result) :=
  ⟨rfl, rfl, rfl, rfl, rfl, fun hr => .inr (h (Option.some.inj hr))⟩

/-- **An input that is no read of the connection leaves the stream alone.** -/
theorem step_other (env : PrintEnv) {input : PrintInput} (h : input.read? job.connectionId = none) :
    SameStream job (job.step env input).1 := by
  cases input with
  | request req now =>
    rw [PrintInput.read?] at h
    rw [step, request]
    rcases hparse : PapPacket.parseFromAtp req.userBytes req.data with e | pap
    · exact sameStream_finish nofun
    rw [hparse] at h
    by_cases hid : pap.connectionId = job.connectionId
    · simp only [hid, ne_eq, not_true_eq_false, if_false]
      cases hfunction : pap.function with
      | sendData =>
        simp only [hid, hfunction, and_self, if_true] at h
        cases h
      | closeConn =>
        simp only [closeConn]
        refine SameStream.heard now (sameStream_finish fun hr => ?_)
        split_ifs at hr with hdrain
        exact hdrain
      | _ => exact ⟨rfl, rfl, rfl, rfl, rfl, .inl⟩
    · simp only [ne_eq, hid, not_false_eq_true, if_true]
      exact .refl job
  | responderClosed => exact sameStream_finish nofun
  | tickleTick now =>
    simp only [step, tickleTick]
    split_ifs
    · exact sameStream_finish nofun
    · exact .refl job
    · exact .refl job
  | drained now =>
    simp only [step]
    split
    · next deadline hdrain =>
      split_ifs
      · exact sameStream_finish fun _ => by rw [hdrain]; rfl
      · exact .refl job
    · exact .refl job

/-! ## Reads -/

/-- The next of the source that the packets have room for, and nothing at its end only. -/
structure NextChunk (job : PrintJob) (req : AtpTransaction) (buf : Bytes) : Prop where
  split : buf ++ job.source.drop buf.length = job.source
  fits : buf.length ≤ req.maxPackets * PAP_MAX_DATA_PER_PACKET
  empty : buf = [] ↔ job.drainDeadline.isSome ∨ job.source = []

theorem nextChunk_spec {buf : Bytes} (hsize : job.chunkSize = none)
    (h : job.nextChunk req env = some buf) : NextChunk job req buf := by
  rw [nextChunk] at h
  split_ifs at h with hdrain
  · obtain rfl := Option.some.inj h
    exact ⟨rfl, Nat.zero_le _, by simp [hdrain]⟩
  · obtain ⟨n, -, rfl⟩ := Option.map_eq_some_iff.1 h
    have hcapacity : 0 < req.maxPackets * PAP_MAX_DATA_PER_PACKET :=
      Nat.mul_pos req.maxPackets_pos (by decide)
    rw [hsize, Option.getD_none, readSource]
    refine ⟨?_, ?_, ?_⟩
    · exact (List.prefix_append_drop (List.take_prefix _ _)).symm
    · exact (List.length_take_le _ _).trans (Nat.min_le_left _ _)
    · rw [List.take_eq_nil_iff, or_comm]
      simp only [hdrain, Bool.false_eq_true, false_or, or_iff_left_iff_imp]
      omega

/-- A read that comes again gets the reply it had. -/
theorem sendData_again {c : CachedReply} (hseq : seq ≠ 0)
    (h : cachedReply job.replyCache seq = some c) : job.sendData req seq env now =
      (job, (req.sendResponseChunked c.2.2 c.2.1 PAP_MAX_DATA_PER_PACKET env.open_).map
        .sendResponse) := by
  rw [sendData, if_pos hseq, h]

/-- The job once it has replied to a new read with a chunk. -/
def sent (job : PrintJob) (seq : UInt16) (buf : Bytes) (now : Micros) : PrintJob :=
  { job with
    source := job.source.drop buf.length
    replyCache := rememberReply job.replyCache seq
      (dataReply job.connectionId seq buf).toAtpParts.1 buf : PrintJob }.answered buf.isEmpty now

theorem answered_running (job : PrintJob) (h : job.drainDeadline = none) (eof : Bool) :
    job.answered eof now =
      { job with drainDeadline := if eof then some (now + PRINT_DRAIN) else none } := by
  cases job
  subst h
  cases eof <;> rfl

/-- Once the end has been sent, one more reply is enough. -/
theorem answered_draining (job : PrintJob) (h : job.drainDeadline.isSome) (eof : Bool) :
    job.answered eof now = job.finish (.ok ()) := by
  obtain ⟨deadline, hdeadline⟩ := Option.isSome_iff_exists.1 h
  cases job
  subst hdeadline
  cases eof <;> rfl

theorem sent_running {buf : Bytes} (h : job.drainDeadline = none) :
    job.sent seq buf now = { job with
      source := job.source.drop buf.length
      replyCache := rememberReply job.replyCache seq
        (dataReply job.connectionId seq buf).toAtpParts.1 buf
      drainDeadline := if buf.isEmpty then some (now + PRINT_DRAIN) else none } :=
  answered_running { job with
    source := job.source.drop buf.length
    replyCache := rememberReply job.replyCache seq
      (dataReply job.connectionId seq buf).toAtpParts.1 buf } h _

theorem sent_draining {buf : Bytes} (h : job.drainDeadline.isSome) :
    (job.sent seq buf now).result = some (.ok ()) :=
  congrArg result (answered_draining { job with
    source := job.source.drop buf.length
    replyCache := rememberReply job.replyCache seq
      (dataReply job.connectionId seq buf).toAtpParts.1 buf } h _)

theorem sendData_new (req : AtpTransaction) (env : PrintEnv) (now : Micros)
    (hsize : job.chunkSize = none) (hseq : seq ≠ 0) (h : cachedReply job.replyCache seq = none) :
    (∃ job', job.sendData req seq env now = (job', none) ∧ job'.result = some (.error .io)) ∨
    ∃ buf response, NextChunk job req buf ∧
      req.sendResponseChunked buf (dataReply job.connectionId seq buf).toAtpParts.1
        PAP_MAX_DATA_PER_PACKET env.open_ = some response ∧
      job.sendData req seq env now = (job.sent seq buf now, some (.sendResponse response)) := by
  rw [sendData, if_pos hseq, h]
  rcases hchunk : job.nextChunk req env with _ | buf
  · exact .inl ⟨_, rfl, rfl⟩
  rcases hparts : (dataReply job.connectionId seq buf).toAtpParts with ⟨userBytes, chunk⟩
  obtain rfl : buf = chunk := congrArg Prod.snd hparts
  simp only [hparts]
  rcases hsend : req.sendResponseChunked buf userBytes PAP_MAX_DATA_PER_PACKET env.open_ with
    _ | response
  · exact .inl ⟨_, rfl, rfl⟩
  · refine .inr ⟨buf, response, nextChunk_spec hsize hchunk, by rw [hparts]; exact hsend, ?_⟩
    rw [if_pos hseq, sent, hparts]

end PrintJob

end TailTalk
