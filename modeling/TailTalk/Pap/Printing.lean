/-
  A print job, from the source to the printer.

  The printer issues the next number once it has the reply to the one before,
  and any of its last 8 again.  Transactions and replies arrive in any order,
  several times or never.  The order of the source is kept unless a transaction
  arrives for a number that the reply cache has dropped, as one does in
  `late_read_delivers_more`.
-/
import TailTalk.Pap.Client
import TailTalk.Pap.Reads

namespace TailTalk

open Lib

/-- What a printer decides for a job: where its numbers start, and with which bitmap it reads. -/
structure JobPrinter where
  connectionId : UInt8
  address : ServiceAddress
  first : ℕ
  bitmap : ℕ → UInt8

namespace JobPrinter

/-- The number of its `j`-th read. -/
def number (p : JobPrinter) (j : ℕ) : UInt16 := papSeq (p.first + j)

/-- The packet of its `j`-th read. -/
def read (p : JobPrinter) (j : ℕ) : PapPacket where
  connectionId := p.connectionId
  function := .sendData
  sequenceNum := p.number j
  eof := false
  data := []

/-- A transaction for its `j`-th read. -/
def sendData (p : JobPrinter) (j : ℕ) (tid : UInt16) : AtpTransaction where
  source := p.address
  userBytes := (p.read j).toAtpParts.1
  data := (p.read j).toAtpParts.2
  bitmap := p.bitmap j
  transactionId := tid

/-- How many packets the reply to its `j`-th read may have. -/
def maxPackets (p : JobPrinter) (j : ℕ) : ℕ := (p.sendData j 0).maxPackets

end JobPrinter

/-- A reply, and which read of the printer it answers. -/
structure PrintReply where
  index : ℕ
  response : AtpSendResponse

namespace PrintReply

/-- What the printer takes from it. -/
def data (r : PrintReply) : Bytes := r.response.data

/-- The packet that the printer reads. -/
def packet (r : PrintReply) : Except PapError PapPacket :=
  PapPacket.parseFromAtp r.response.userBytes r.response.data

/-- The replies, each number taken once. -/
abbrev fresh (rs : List PrintReply) : List PrintReply := once index rs

/-- The data of the replies, each number taken once. -/
def bytes (rs : List PrintReply) : Bytes := (fresh rs).flatMap data

end PrintReply

/-- A job and its printer. -/
structure Printing where
  job : PrintJob
  /-- how many numbers the printer has issued -/
  issued : ℕ
  /-- the transactions made, each with the read it is for -/
  requests : List (ℕ × AtpTransaction)
  /-- how many numbers have reached the client -/
  reached : ℕ
  /-- the replies sent -/
  replies : List PrintReply
  /-- the replies the printer has got -/
  received : List PrintReply

/-- What the printer and the network do. -/
inductive PrintAct where
  /-- the printer makes a transaction for its `j`-th read -/
  | issue (j : ℕ) (tid : UInt16)
  /-- the `i`-th transaction reaches the client -/
  | deliver (i : ℕ) (env : PrintEnv) (now : Micros)
  /-- something else happens to the client -/
  | other (input : PrintInput) (env : PrintEnv)
  /-- the `i`-th reply reaches the printer -/
  | receive (i : ℕ)

namespace Printing

/-- The connection is open, and nothing was asked for. -/
def start (p : JobPrinter) (source : Bytes) (now : Micros) : Printing where
  job := PrintJob.start p.connectionId p.address none source now
  issued := 0
  requests := []
  reached := 0
  replies := []
  received := []

/-- The next read once the one before has its reply, and the last 8 again. -/
def MayIssue (s : Printing) (j : ℕ) : Prop :=
  (j = s.issued ∧ ∀ i ∈ List.range s.issued, i + 1 = s.issued → i ∈ s.received.map (·.index)) ∨
  (j < s.issued ∧ s.issued ≤ j + PAP_REPLY_CACHE_LEN)

instance (s : Printing) (j : ℕ) : Decidable (s.MayIssue j) :=
  inferInstanceAs (Decidable (_ ∨ _))

/-- The client handles a transaction for the `j`-th read. -/
def reach (s : Printing) (j : ℕ) (req : AtpTransaction) (env : PrintEnv) (now : Micros) :
    Printing :=
  let (job, command) := s.job.step env (.request req now)
  { s with
    job
    reached := max s.reached (j + 1)
    replies := s.replies ++ ((command.bind AtpCommand.response?).map (PrintReply.mk j)).toList }

/-- One of them. -/
def step (p : JobPrinter) (s : Printing) : PrintAct → Printing
  | .issue j tid =>
    if s.MayIssue j then
      { s with
        issued := max s.issued (j + 1)
        requests := s.requests ++ [(j, p.sendData j tid)] }
    else s
  | .deliver i env now =>
    match s.requests[i]? with
    | some (j, req) => if s.job.result.isNone then s.reach j req env now else s
    | none => s
  | .other input env =>
    -- the reads of the connection are those that the printer issues
    if s.job.result.isNone && (input.read? s.job.connectionId).isNone then
      { s with job := (s.job.step env input).1 }
    else s
  | .receive i =>
    match s.replies[i]? with
    | some r => { s with received := s.received ++ [r] }
    | none => s

/-- **The condition.**  A transaction that arrives while the job runs is for one of the last 8
    numbers that have got there, or for a newer one. -/
def Recent (s : Printing) : PrintAct → Prop
  | .deliver i _ _ => ∀ x ∈ s.requests[i]?, s.job.result.isNone →
      s.reached ≤ x.1 + PAP_REPLY_CACHE_LEN
  | _ => True

instance (s : Printing) (a : PrintAct) : Decidable (s.Recent a) := by
  unfold Recent
  cases a <;> infer_instance

/-- The data sent, each number taken once. -/
def delivered (s : Printing) : Bytes := PrintReply.bytes s.replies

/-- The data the printer has got, each number taken once. -/
def printed (s : Printing) : Bytes := PrintReply.bytes s.received

end Printing

/-! ## Reads and replies -/

namespace JobPrinter
variable {p : JobPrinter} {j k : ℕ} {tid : UInt16} {now : Micros}

theorem number_ne_zero : p.number j ≠ 0 := papSeq_ne_zero _

theorem number_inj (h : p.number j = p.number k) (hjk : j < k + 65535) (hkj : k < j + 65535) :
    j = k := by
  have := papSeq_inj h (by omega) (by omega)
  omega

theorem read?_sendData :
    (PrintInput.request (p.sendData j tid) now).read? p.connectionId = some (p.number j) := by
  rw [PrintInput.read?]
  have hparse : PapPacket.parseFromAtp (p.sendData j tid).userBytes (p.sendData j tid).data =
      .ok (p.read j) :=
    (p.read j).parseFromAtp_toAtpParts
  rw [hparse]
  exact if_pos ⟨rfl, rfl⟩

theorem maxPackets_sendData : (p.sendData j tid).maxPackets = p.maxPackets j :=
  AtpReceivedRequest.maxPackets_congr rfl

/-- The packets that carry a piece of the source. -/
def packets (p : JobPrinter) (j : ℕ) (buf : Bytes) : List (UserBytes × Bytes) :=
  responsePackets (p.maxPackets j) PAP_MAX_DATA_PER_PACKET
    (dataReply p.connectionId (p.number j) buf).toAtpParts.1 buf

theorem length_packets (buf : Bytes) : (p.packets j buf).length ≤ p.maxPackets j :=
  length_responsePackets _ _ (by decide) (AtpReceivedRequest.maxPackets_pos _)

/-- Sending a piece of the source fails only where the endpoint is gone. -/
theorem sendResponse_sendData (p : JobPrinter) (j : ℕ) (tid : UInt16) (buf : Bytes) (open_ : Bool) :
    (p.sendData j tid).sendResponseChunked buf
      (dataReply p.connectionId (p.number j) buf).toAtpParts.1 PAP_MAX_DATA_PER_PACKET open_ =
      if open_ then some ⟨p.address, tid, p.packets j buf⟩ else none := by
  have hle : (p.packets j buf).length ≤ 8 :=
    (length_packets buf).trans (AtpReceivedRequest.maxPackets_le _)
  rw [AtpTransaction.sendResponseChunked, maxPackets_sendData, AtpTransaction.sendResponseInternal]
  exact if_neg (Nat.not_lt.2 hle)

/-- The reply to the `j`-th read carries a piece of the source. -/
structure Carries (p : JobPrinter) (j : ℕ) (buf : Bytes) (r : PrintReply) : Prop where
  index : r.index = j
  packets : r.response.packets = p.packets j buf
  fits : buf.length ≤ p.maxPackets j * PAP_MAX_DATA_PER_PACKET

variable {buf : Bytes} {r : PrintReply}

theorem Carries.data (h : p.Carries j buf r) : r.data = buf := by
  rw [PrintReply.data, AtpSendResponse.data, h.packets]
  exact data_responsePackets _ _ (by decide) h.fits

theorem Carries.packet (h : p.Carries j buf r) :
    r.packet = .ok (dataReply p.connectionId 0 buf) := by
  have huser : r.response.userBytes = (dataReply p.connectionId (p.number j) buf).toAtpParts.1 := by
    rw [AtpSendResponse.userBytes, h.packets, JobPrinter.packets, head?_responsePackets]
    rfl
  have hdata : r.response.data = (dataReply p.connectionId (p.number j) buf).toAtpParts.2 := h.data
  rw [PrintReply.packet, huser, hdata, PapPacket.parseFromAtp_toAtpParts]
  rfl

end JobPrinter

/-! ## What ties a job to its replies -/

open PrintReply (fresh bytes)

/-- The replies carry the source, in pieces. -/
structure SourceCarried (p : JobPrinter) (source : Bytes) (rs : List PrintReply) : Prop where
  carries : ∀ j a, (fresh rs)[j]? = some a → p.Carries j a.data a
  same : ∀ r ∈ rs, ∃ a, (fresh rs)[r.index]? = some a ∧ r.response.packets = a.response.packets
  sofar : bytes rs <+: source
  /-- an empty reply comes after all of the source -/
  ended : ∀ j a, (fresh rs)[j]? = some a → a.data = [] →
    ((fresh rs).take j).flatMap PrintReply.data = source

/-- What holds of the job while it runs. -/
structure Running (p : JobPrinter) (source : Bytes) (rs : List PrintReply) (job : PrintJob) :
    Prop where
  connectionId : job.connectionId = p.connectionId
  chunkSize : job.chunkSize = none
  unread : bytes rs ++ job.source = source
  cache : job.replyCache = recent PAP_REPLY_CACHE_LEN ((fresh rs).mapIdx fun j a =>
    (p.number j, (dataReply p.connectionId 0 a.data).toAtpParts.1, a.data))
  draining : job.drainDeadline.isSome ↔ ∃ a ∈ fresh rs, a.data = []

section
variable {p : JobPrinter} {source : Bytes} {rs : List PrintReply} {r a : PrintReply} {j : ℕ}

theorem SourceCarried.counted (h : SourceCarried p source rs) : Counted PrintReply.index rs :=
  fun j a ha => (h.carries j a ha).index

theorem sourceCarried_nil : SourceCarried p source [] where
  carries := by
    intro j a ha
    cases ha
  same := by
    intro r hr
    cases hr
  sofar := List.nil_prefix
  ended := by
    intro j a ha
    cases ha

/-- A reply sent once more. -/
theorem SourceCarried.again (h : SourceCarried p source rs) (ha : (fresh rs)[r.index]? = some a)
    (hr : r.response.packets = a.response.packets) :
    fresh (rs ++ [r]) = fresh rs ∧ SourceCarried p source (rs ++ [r]) := by
  have hfresh : fresh (rs ++ [r]) = fresh rs := by
    rw [fresh, h.counted.once_snoc, if_pos (List.getElem?_eq_some_iff.1 ha).1]
  refine ⟨hfresh, ?_⟩
  constructor
  · rw [hfresh]
    exact h.carries
  · rw [hfresh]
    intro r' hr'
    rcases List.mem_append.1 hr' with hr' | hr'
    · exact h.same r' hr'
    · obtain rfl := List.mem_singleton.1 hr'
      exact ⟨a, ha, hr⟩
  · rw [bytes, hfresh]
    exact h.sofar
  · rw [hfresh]
    exact h.ended

theorem SourceCarried.next (h : SourceCarried p source rs) {buf rest : Bytes}
    (hr : p.Carries (fresh rs).length buf r) (hsource : bytes rs ++ (buf ++ rest) = source)
    (hend : buf = [] → bytes rs = source) :
    fresh (rs ++ [r]) = fresh rs ++ [r] ∧ SourceCarried p source (rs ++ [r]) := by
  have hfresh : fresh (rs ++ [r]) = fresh rs ++ [r] := by
    rw [fresh, h.counted.once_snoc, hr.index, if_neg (Nat.lt_irrefl _)]
  have hgrow : ∀ (i : ℕ) (a : PrintReply), (fresh rs)[i]? = some a →
      (fresh rs ++ [r])[i]? = some a := by
    intro i a ha
    rw [List.getElem?_append_left (List.getElem?_eq_some_iff.1 ha).1, ha]
  refine ⟨hfresh, ?_⟩
  constructor
  · rw [hfresh]
    intro i a ha
    rcases getElem?_snoc.1 ha with ha | ⟨rfl, rfl⟩
    · exact h.carries i a ha
    · rw [hr.data]
      exact hr
  · rw [hfresh]
    intro r' hr'
    rcases List.mem_append.1 hr' with hr' | hr'
    · obtain ⟨a, ha, heq⟩ := h.same r' hr'
      exact ⟨a, hgrow _ _ ha, heq⟩
    · obtain rfl := List.mem_singleton.1 hr'
      exact ⟨r', getElem?_snoc.2 (.inr ⟨hr.index, rfl⟩), rfl⟩
  · refine ⟨rest, ?_⟩
    rw [bytes, hfresh, List.flatMap_append, List.flatMap_singleton, hr.data, List.append_assoc]
    exact hsource
  · rw [hfresh]
    intro i a ha hempty
    have hle : i ≤ (fresh rs).length := by
      have := (List.getElem?_eq_some_iff.1 ha).1
      rw [List.length_append, List.length_singleton] at this
      omega
    rw [List.take_append_of_le_length hle]
    rcases getElem?_snoc.1 ha with ha | ⟨rfl, rfl⟩
    · exact h.ended i a ha hempty
    · rw [List.take_length]
      exact hend (hr.data ▸ hempty)

theorem SourceCarried.whole (h : SourceCarried p source rs) (ha : (fresh rs)[j]? = some a)
    (hempty : a.data = []) {n : ℕ} (hj : j ≤ n) :
    ((fresh rs).take n).flatMap PrintReply.data = source := by
  have hle : ((fresh rs).take n).flatMap PrintReply.data <+: source :=
    ((List.take_prefix n (fresh rs)).flatMap PrintReply.data).trans h.sofar
  have hge : source <+: ((fresh rs).take n).flatMap PrintReply.data := by
    rw [← h.ended j a ha hempty]
    exact (List.take_prefix_take_left hj).flatMap PrintReply.data
  exact hle.eq_of_length_le hge.length_le

theorem SourceCarried.bytes_eq (h : SourceCarried p source rs) (ha : ∃ a ∈ fresh rs, a.data = []) :
    bytes rs = source := by
  obtain ⟨a, ha, hempty⟩ := ha
  obtain ⟨j, hj⟩ := List.mem_iff_getElem?.1 ha
  have hwhole := h.whole hj hempty (List.getElem?_eq_some_iff.1 hj).1.le
  rwa [List.take_length] at hwhole

/-! ## Reads -/

variable {job : PrintJob} {env : PrintEnv} {now : Micros} {tid : UInt16}

theorem Running.congr {rs' : List PrintReply} (h : Running p source rs job)
    (hfresh : fresh rs' = fresh rs) : Running p source rs' job where
  connectionId := h.connectionId
  chunkSize := h.chunkSize
  unread := by rw [bytes, hfresh]; exact h.unread
  cache := by rw [hfresh]; exact h.cache
  draining := by rw [hfresh]; exact h.draining

theorem Running.heard (h : Running p source rs job) (now : Micros) :
    Running p source rs { job with lastActivity := now } :=
  ⟨h.connectionId, h.chunkSize, h.unread, h.cache, h.draining⟩

theorem Running.cached (h : Running p source rs job) (ha : (fresh rs)[j]? = some a)
    (hj : (fresh rs).length ≤ j + PAP_REPLY_CACHE_LEN) :
    cachedReply job.replyCache (p.number j) = some (p.number j,
      (dataReply p.connectionId 0 a.data).toAtpParts.1, a.data) := by
  have hlen : PAP_REPLY_CACHE_LEN = 8 := rfl
  rw [h.cache]
  refine find?_recent (g := fun a : PrintReply =>
    ((dataReply p.connectionId 0 a.data).toAtpParts.1, a.data)) ?_ ha hj
  intro i k hik hi hk
  exact JobPrinter.number_inj hik (by omega) (by omega)

theorem Running.not_cached (h : Running p source rs job) :
    cachedReply job.replyCache (p.number (fresh rs).length) = none := by
  have hlen : PAP_REPLY_CACHE_LEN = 8 := rfl
  rw [h.cache]
  refine find?_recent_next (g := fun a : PrintReply =>
    ((dataReply p.connectionId 0 a.data).toAtpParts.1, a.data)) ?_
  intro i hi hrecent heq
  have := JobPrinter.number_inj heq (by omega) (by omega)
  omega

theorem Running.again (h : Running p source rs job) (hc : SourceCarried p source rs)
    (ha : (fresh rs)[j]? = some a) (hj : (fresh rs).length ≤ j + PAP_REPLY_CACHE_LEN) :
    job.sendData (p.sendData j tid) (p.number j) env now =
      (job, if env.open_ then some (.sendResponse ⟨p.address, tid, a.response.packets⟩)
        else none) := by
  have hsend := p.sendResponse_sendData j tid a.data env.open_
  rw [PrintJob.sendData_again JobPrinter.number_ne_zero (h.cached ha hj),
    (hc.carries j a ha).packets]
  refine congrArg _ ((congrArg _ hsend).trans ?_)
  split_ifs <;> rfl

theorem Running.sent (h : Running p source rs job) (hdrain : job.drainDeadline = none)
    {buf : Bytes} (hr : p.Carries (fresh rs).length buf r)
    (hfresh : fresh (rs ++ [r]) = fresh rs ++ [r])
    (hsource : bytes rs ++ (buf ++ job.source.drop buf.length) = source) :
    Running p source (rs ++ [r]) (job.sent (p.number (fresh rs).length) buf now) := by
  rw [PrintJob.sent_running hdrain]
  constructor
  · exact h.connectionId
  · exact h.chunkSize
  · rw [bytes, hfresh, List.flatMap_append, List.flatMap_singleton, hr.data, List.append_assoc]
    exact hsource
  · rw [hfresh, List.mapIdx_append, List.mapIdx_singleton, ← recent_push (by decide), ← h.cache,
      Nat.zero_add, hr.data]
    show rememberReply job.replyCache _ (dataReply job.connectionId _ buf).toAtpParts.1 buf = _
    rw [h.connectionId]
    rfl
  · have hnone : ¬ ∃ a ∈ fresh rs, a.data = [] := by
      rw [← h.draining, hdrain]
      nofun
    rw [hfresh]
    simp only [List.mem_append, List.mem_singleton, or_and_right, exists_or, hnone, false_or,
      exists_eq_left, hr.data]
    cases buf <;> simp

theorem Running.next (h : Running p source rs job) (hc : SourceCarried p source rs)
    (hresult : job.result = none) (tid : UInt16) (env : PrintEnv) (now : Micros) :
    (∃ job', job.sendData (p.sendData (fresh rs).length tid) (p.number (fresh rs).length) env now =
        (job', none) ∧ job'.result = some (.error .io)) ∨
    ∃ job' r, job.sendData (p.sendData (fresh rs).length tid) (p.number (fresh rs).length) env now =
        (job', some (.sendResponse r.response)) ∧
      r.index = (fresh rs).length ∧
      SourceCarried p source (rs ++ [r]) ∧ fresh (rs ++ [r]) = fresh rs ++ [r] ∧
      (job'.result = some (.ok ()) → ∃ a ∈ fresh (rs ++ [r]), a.data = []) ∧
      (job'.result = none → Running p source (rs ++ [r]) job') := by
  rcases PrintJob.sendData_new (p.sendData (fresh rs).length tid) env now h.chunkSize
    JobPrinter.number_ne_zero h.not_cached with hfails | ⟨buf, response, hnext, hsend, hstep⟩
  · exact .inl hfails
  have hresponse : response = ⟨p.address, tid, p.packets (fresh rs).length buf⟩ := by
    rw [h.connectionId, JobPrinter.sendResponse_sendData, Option.ite_none_right_eq_some] at hsend
    exact (Option.some.inj hsend.2).symm
  have hcarries : p.Carries (fresh rs).length buf ⟨(fresh rs).length, response⟩ :=
    ⟨rfl, by rw [hresponse], hnext.fits⟩
  have hsource : bytes rs ++ (buf ++ job.source.drop buf.length) = source := by
    rw [hnext.split, h.unread]
  have hend : buf = [] → bytes rs = source := by
    intro hempty
    rcases hnext.empty.1 hempty with hdrain | hsource
    · exact hc.bytes_eq (h.draining.1 hdrain)
    · rw [← h.unread, hsource, List.append_nil]
  obtain ⟨hfresh, hcarried⟩ := hc.next hcarries hsource hend
  refine .inr ⟨_, ⟨_, response⟩, hstep, rfl, hcarried, hfresh, ?_⟩
  rcases hdrain : job.drainDeadline with _ | deadline
  · refine ⟨fun hok => ?_, fun _ => h.sent hdrain hcarries hfresh hsource⟩
    rw [PrintJob.sent_running hdrain] at hok
    exact absurd (hresult.symm.trans hok) nofun
  · -- The end has been sent before: this reply is empty, too, and the job is done.
    have hsome : job.drainDeadline.isSome := by rw [hdrain]; rfl
    rw [PrintJob.sent_draining hsome, hfresh]
    refine ⟨fun _ => ⟨_, List.mem_append_right _ (List.mem_singleton_self _), ?_⟩, nofun⟩
    rw [hcarries.data]
    exact hnext.empty.2 (.inl hsome)

end

/-! ## Runs -/

/-- What holds at every point of a run. -/
structure Sound (p : JobPrinter) (source : Bytes) (s : Printing) : Prop where
  carried : SourceCarried p source s.replies
  issued : (fresh s.replies).length ≤ s.issued ∧ s.issued ≤ (fresh s.replies).length + 1
  requests : ∀ x ∈ s.requests, x.1 < s.issued ∧ ∃ tid, x.2 = p.sendData x.1 tid
  received : ∀ r ∈ s.received, r ∈ s.replies
  acknowledged : ∀ i, i + 1 < s.issued → ∃ r ∈ s.received, r.index = i
  counted : Counted PrintReply.index s.received
  finished : s.job.result = some (.ok ()) → ∃ a ∈ fresh s.replies, a.data = []
  running : s.job.result = none →
    s.reached = (fresh s.replies).length ∧ Running p source s.replies s.job

namespace Printing
variable {p : JobPrinter} {source : Bytes} {s : Printing} {j : ℕ} {tid : UInt16} {env : PrintEnv}
  {now : Micros}

theorem sound_start (p : JobPrinter) (source : Bytes) (now : Micros) :
    Sound p source (start p source now) where
  carried := sourceCarried_nil
  issued := ⟨Nat.le_refl _, Nat.zero_le _⟩
  requests := by
    intro x hx
    cases hx
  received := by
    intro r hr
    cases hr
  acknowledged := by
    intro i hi
    cases hi
  counted := counted_nil
  finished := nofun
  running := by
    intro _
    refine ⟨rfl, rfl, rfl, rfl, (recent_nil _).symm, ?_⟩
    constructor
    · nofun
    · rintro ⟨a, ha, -⟩
      cases ha

theorem sound_issue (hs : Sound p source s) (hmay : s.MayIssue j) :
    Sound p source { s with
      issued := max s.issued (j + 1)
      requests := s.requests ++ [(j, p.sendData j tid)] } := by
  have hnew : s.issued ≤ j → j = s.issued ∧
      ∀ i, i + 1 = s.issued → ∃ r ∈ s.received, r.index = i := by
    intro hle
    rcases hmay with ⟨rfl, hall⟩ | ⟨hlt, -⟩
    · exact ⟨rfl, fun i hi => List.mem_map.1 (hall i (List.mem_range.2 (by omega)) hi)⟩
    · omega
  have hreplied : ∀ i, (∃ r ∈ s.received, r.index = i) → i < (fresh s.replies).length := by
    rintro i ⟨r, hr, rfl⟩
    exact hs.carried.counted.lt_of_mem (hs.received r hr)
  have hissued := hs.issued
  refine { hs with issued := ⟨?_, ?_⟩, requests := ?_, acknowledged := ?_ }
  · exact hissued.1.trans (Nat.le_max_left _ _)
  · refine Nat.max_le.2 ⟨hissued.2, Nat.succ_le_succ ?_⟩
    show j ≤ (fresh s.replies).length
    by_contra hgt
    obtain ⟨rfl, hall⟩ := hnew (by omega)
    have hlast := hreplied (s.issued - 1) (hall _ (by omega))
    omega
  · intro x hx
    rcases List.mem_append.1 hx with hx | hx
    · exact ⟨(hs.requests x hx).1.trans_le (Nat.le_max_left _ _), (hs.requests x hx).2⟩
    · obtain rfl := List.mem_singleton.1 hx
      exact ⟨Nat.lt_of_lt_of_le (Nat.lt_succ_self j) (Nat.le_max_right _ _), tid, rfl⟩
  · intro i (hi : i + 1 < max s.issued (j + 1))
    by_cases hold : i + 1 < s.issued
    · exact hs.acknowledged i hold
    · have hle : s.issued ≤ j := by
        rcases Nat.lt_or_ge j s.issued with hlt | hge
        · rw [Nat.max_eq_left hlt] at hi
          exact absurd hi hold
        · exact hge
      obtain ⟨rfl, hall⟩ := hnew hle
      rw [Nat.max_eq_right (Nat.le_succ _)] at hi
      exact hall i (by omega)

theorem sound_receive (hs : Sound p source s) {r : PrintReply} (hr : r ∈ s.replies) :
    Sound p source { s with received := s.received ++ [r] } := by
  have hlt : r.index < s.issued := (hs.carried.counted.lt_of_mem hr).trans_le hs.issued.1
  have hle : r.index ≤ (once PrintReply.index s.received).length := by
    by_contra hgt
    obtain ⟨r', hr', hindex⟩ :=
      hs.acknowledged (once PrintReply.index s.received).length (by omega)
    have := hs.counted.lt_of_mem hr'
    omega
  refine { hs with received := ?_, acknowledged := ?_, counted := hs.counted.snoc hle }
  · intro r' hr'
    rcases List.mem_append.1 hr' with hr' | hr'
    · exact hs.received r' hr'
    · exact List.mem_singleton.1 hr' ▸ hr
  · intro i hi
    obtain ⟨r', hr', hindex⟩ := hs.acknowledged i hi
    exact ⟨r', List.mem_append_left _ hr', hindex⟩

theorem sound_other (hs : Sound p source s) (hresult : s.job.result = none) {input : PrintInput}
    (hother : input.read? s.job.connectionId = none) :
    Sound p source { s with job := (s.job.step env input).1 } := by
  obtain ⟨hreached, hrun⟩ := hs.running hresult
  have hsame := PrintJob.step_other env hother
  refine { hs with finished := fun hok => ?_, running := fun _ => ⟨hreached, ?_⟩ }
  · rcases hsame.result hok with hok | hdrain
    · exact absurd (hresult.symm.trans hok) nofun
    · exact hrun.draining.1 hdrain
  · constructor
    · rw [hsame.connectionId, hrun.connectionId]
    · rw [hsame.chunkSize, hrun.chunkSize]
    · rw [hsame.source, hrun.unread]
    · rw [hsame.replyCache, hrun.cache]
    · rw [hsame.drainDeadline, hrun.draining]

theorem sound_heard (hs : Sound p source s) (now : Micros) :
    Sound p source { s with job := { s.job with lastActivity := now } } :=
  { hs with
    running := fun hresult =>
      ⟨(hs.running hresult).1, (hs.running hresult).2.heard now⟩ }

theorem sound_repeat (hs : Sound p source s) {r a : PrintReply}
    (ha : (fresh s.replies)[r.index]? = some a) (hr : r.response.packets = a.response.packets) :
    Sound p source { s with replies := s.replies ++ [r] } := by
  obtain ⟨hfresh, hcarried⟩ := hs.carried.again ha hr
  refine { hs with
    carried := hcarried
    issued := ?_
    received := fun r hr => List.mem_append_left _ (hs.received r hr)
    finished := fun hok => ?_
    running := fun hresult => ⟨?_, ?_⟩ }
  · rw [hfresh]
    exact hs.issued
  · rw [hfresh]
    exact hs.finished hok
  · rw [hfresh]
    exact (hs.running hresult).1
  · exact (hs.running hresult).2.congr hfresh

theorem reach_again (hs : Sound p source s) (hresult : s.job.result = none)
    (hrecent : s.reached ≤ j + PAP_REPLY_CACHE_LEN) {a : PrintReply}
    (ha : (fresh s.replies)[j]? = some a) : s.reach j (p.sendData j tid) env now =
      { s with
        job := { s.job with lastActivity := now }
        replies := s.replies ++
          if env.open_ then [⟨j, ⟨p.address, tid, a.response.packets⟩⟩] else [] } := by
  obtain ⟨hreached, hrun⟩ := hs.running hresult
  have hlt := (List.getElem?_eq_some_iff.1 ha).1
  have hmax : max s.reached (j + 1) = s.reached := Nat.max_eq_left (by omega)
  rw [reach, PrintJob.step_read (hrun.connectionId ▸ JobPrinter.read?_sendData),
    (hrun.heard now).again hs.carried ha (hreached ▸ hrecent), hmax]
  cases env.open_ <;> rfl

theorem sound_reach (hs : Sound p source s) (hresult : s.job.result = none)
    (hrecent : s.reached ≤ j + PAP_REPLY_CACHE_LEN) (hj : j < s.issued) :
    Sound p source (s.reach j (p.sendData j tid) env now) := by
  obtain ⟨hreached, hrun⟩ := hs.running hresult
  have hissued := hs.issued
  rcases Nat.lt_or_ge j (fresh s.replies).length with hlt | hge
  · have ha := List.getElem?_eq_getElem hlt
    rw [reach_again hs hresult hrecent ha]
    split_ifs with hopen
    · exact sound_repeat (r := ⟨j, _⟩) (sound_heard hs now) ha rfl
    · rw [List.append_nil]
      exact sound_heard hs now
  · obtain rfl : j = (fresh s.replies).length := by omega
    have hmax : max s.reached ((fresh s.replies).length + 1) = (fresh s.replies).length + 1 :=
      Nat.max_eq_right (by omega)
    rw [reach, PrintJob.step_read (hrun.connectionId ▸ JobPrinter.read?_sendData), hmax]
    rcases (hrun.heard now).next hs.carried hresult tid env now with
      ⟨job', hstep, hfails⟩ | ⟨job', r, hstep, hindex, hcarried, hfresh, hfinished, hrunning⟩
    · rw [hstep]
      show Sound p source { s with
        job := job'
        reached := (fresh s.replies).length + 1
        replies := s.replies ++ [] }
      rw [List.append_nil]
      exact { hs with
        finished := fun hok => absurd (hfails.symm.trans hok) nofun
        running := fun hnone => absurd (hfails.symm.trans hnone) nofun }
    · obtain ⟨index, response⟩ := r
      obtain rfl : index = (fresh s.replies).length := hindex
      rw [hstep]
      show Sound p source { s with
        job := job'
        reached := (fresh s.replies).length + 1
        replies := s.replies ++ [⟨(fresh s.replies).length, response⟩] }
      refine { hs with
        carried := hcarried
        issued := ?_
        received := fun r hr => List.mem_append_left _ (hs.received r hr)
        finished := hfinished
        running := fun hnone => ⟨?_, hrunning hnone⟩ }
      · rw [hfresh, List.length_append, List.length_singleton]
        exact ⟨hj, hissued.2.trans (Nat.le_succ _)⟩
      · rw [hfresh, List.length_append, List.length_singleton]

/-- **One step.** -/
theorem sound_step (hs : Sound p source s) {a : PrintAct} (hrecent : s.Recent a) :
    Sound p source (s.step p a) := by
  cases a with
  | issue j tid =>
    rw [step]
    split_ifs with hmay
    · exact sound_issue hs hmay
    · exact hs
  | deliver i env now =>
    rw [step]
    rcases hreq : s.requests[i]? with _ | ⟨j, req⟩
    · exact hs
    obtain ⟨hj, tid, hreads⟩ := hs.requests _ (List.mem_of_getElem? hreq)
    obtain rfl : req = p.sendData j tid := hreads
    simp only
    split_ifs with hrun
    · exact sound_reach hs (Option.isNone_iff_eq_none.1 hrun) (hrecent _ hreq hrun) hj
    · exact hs
  | other input env =>
    rw [step]
    split_ifs with hother
    · rw [Bool.and_eq_true, Option.isNone_iff_eq_none, Option.isNone_iff_eq_none] at hother
      exact sound_other hs hother.1 hother.2
    · exact hs
  | receive i =>
    rw [step]
    rcases hr : s.replies[i]? with _ | r
    · exact hs
    · exact sound_receive hs (List.mem_of_getElem? hr)

/-- A transaction under a number that has had a reply gets its packets at no cost of the source,
    while the ATP endpoint takes commands. -/
def Repeats (p : JobPrinter) (s : Printing) : PrintAct → Prop
  | .deliver i env now => ∀ j req, s.requests[i]? = some (j, req) → s.job.result = none →
    env.open_ → ∀ a ∈ s.replies, a.index = j →
      s.step p (.deliver i env now) = { s with
        job := { s.job with lastActivity := now }
        replies := s.replies ++
          [⟨j, ⟨req.source, req.transactionId, a.response.packets⟩⟩] }
  | _ => True

theorem repeats_of_sound (hs : Sound p source s) {a : PrintAct} (hrecent : s.Recent a) :
    s.Repeats p a := by
  cases a with
  | deliver i env now =>
    intro j req hreq hresult hopen a ha hindex
    obtain ⟨-, tid, hreads⟩ := hs.requests _ (List.mem_of_getElem? hreq)
    obtain rfl : req = p.sendData j tid := hreads
    obtain ⟨b, hb, hpackets⟩ := hs.carried.same a ha
    rw [hindex] at hb
    have hrun : s.job.result.isNone := Option.isNone_iff_eq_none.2 hresult
    rw [step, hreq]
    simp only [hrun, if_true]
    rw [reach_again hs hresult (hrecent _ hreq hrun) hb, if_pos hopen, hpackets]
    rfl
  | _ => trivial

end Printing

/-! ## What the printer prints -/

/-- What the replies of a job say of its source. -/
structure JobDelivered (p : JobPrinter) (source : Bytes) (s : Printing) : Prop where
  /-- the replies, each number taken once, come in the order of their numbers -/
  numbered : (fresh s.replies).map (·.index) = List.range (fresh s.replies).length
  /-- they carry the source, of which nothing is lost while the job runs -/
  sofar : s.delivered <+: source
  unread : s.job.result = none → s.delivered ++ s.job.source = source
  /-- all of it is in them once the job is done, or one of them is empty -/
  finished : s.job.result = some (.ok ()) → ∃ r ∈ s.replies, r.data = []
  whole : (∃ r ∈ s.replies, r.data = []) → s.delivered = source
  /-- eof is on the empty replies, and on no other -/
  packet : ∀ r ∈ s.replies, r.packet = .ok {
    connectionId := p.connectionId
    function := .data
    sequenceNum := 0
    eof := r.data.isEmpty
    data := r.data }
  /-- a number always gets the same packets, as many as its bitmap has room for -/
  same : ∀ r ∈ s.replies, ∀ r' ∈ s.replies, r.index = r'.index →
    r.response.packets = r'.response.packets
  fits : ∀ r ∈ s.replies, r.response.packets.length ≤ p.maxPackets r.index
  /-- the printer prints a part of the source, and all of it once it has got the eof -/
  printed : s.printed <+: source
  done : (∃ r ∈ s.received, r.data = []) → s.printed = source

section
variable {p : JobPrinter} {source : Bytes} {rs : List PrintReply} {r : PrintReply} {s : Printing}

/-- Every reply carries its piece of the source, the first one under a number or not. -/
theorem SourceCarried.of_mem (h : SourceCarried p source rs) (hr : r ∈ rs) :
    p.Carries r.index r.data r ∧ ∃ a, (fresh rs)[r.index]? = some a ∧ r.data = a.data := by
  obtain ⟨a, ha, hpackets⟩ := h.same r hr
  have hcarries := h.carries _ a ha
  have hdata : r.data = a.data := by
    rw [PrintReply.data, AtpSendResponse.data, hpackets]
    rfl
  refine ⟨⟨rfl, ?_, ?_⟩, a, ha, hdata⟩
  · rw [hpackets, hdata]
    exact hcarries.packets
  · rw [hdata]
    exact hcarries.fits

theorem SourceCarried.exists_empty (h : SourceCarried p source rs) :
    (∃ r ∈ rs, r.data = []) ↔ ∃ a ∈ fresh rs, a.data = [] := by
  constructor
  · rintro ⟨r, hr, hempty⟩
    obtain ⟨-, a, ha, hdata⟩ := h.of_mem hr
    exact ⟨a, List.mem_of_getElem? ha, hdata ▸ hempty⟩
  · rintro ⟨a, ha, hempty⟩
    exact ⟨a, mem_of_mem_once ha, hempty⟩

/-- What the printer has got is what the first numbers were answered with. -/
theorem Sound.printed_eq (hs : Sound p source s) : s.printed =
    ((fresh s.replies).take (fresh s.received).length).flatMap PrintReply.data := by
  have hmap : (fresh s.received).map PrintReply.data =
      ((fresh s.replies).take (fresh s.received).length).map PrintReply.data := by
    apply List.ext_getElem?
    intro j
    rw [List.getElem?_map, List.getElem?_map]
    rcases hj : (fresh s.received)[j]? with _ | r
    · rw [List.getElem?_eq_none_iff] at hj
      rw [List.getElem?_take_eq_none hj]
    · have hr := hs.received r (mem_of_mem_once (List.mem_of_getElem? hj))
      obtain ⟨-, a, ha, hdata⟩ := hs.carried.of_mem hr
      rw [hs.counted j r hj] at ha
      rw [List.getElem?_take_of_lt (List.getElem?_eq_some_iff.1 hj).1, ha]
      exact congrArg some hdata
  rw [Printing.printed, bytes, List.flatMap_def, hmap, List.flatMap_def]

/-- What the invariant says of the bytes. -/
theorem Sound.delivers (hs : Sound p source s) : JobDelivered p source s where
  numbered := hs.carried.counted.map_key
  sofar := hs.carried.sofar
  unread := fun hresult => (hs.running hresult).2.unread
  finished := fun hok => hs.carried.exists_empty.2 (hs.finished hok)
  whole := fun hempty => hs.carried.bytes_eq (hs.carried.exists_empty.1 hempty)
  packet := fun r hr => (hs.carried.of_mem hr).1.packet
  same := by
    intro r hr r' hr' hindex
    obtain ⟨a, ha, hpackets⟩ := hs.carried.same r hr
    obtain ⟨a', ha', hpackets'⟩ := hs.carried.same r' hr'
    rw [hindex, ha'] at ha
    obtain rfl := Option.some.inj ha
    rw [hpackets, hpackets']
  fits := by
    intro r hr
    rw [(hs.carried.of_mem hr).1.packets]
    exact JobPrinter.length_packets _
  printed := by
    rw [hs.printed_eq]
    exact ((List.take_prefix _ _).flatMap PrintReply.data).trans hs.carried.sofar
  done := by
    rintro ⟨r, hr, hempty⟩
    obtain ⟨-, a, ha, hdata⟩ := hs.carried.of_mem (hs.received r hr)
    rw [hs.printed_eq]
    exact hs.carried.whole ha (hdata ▸ hempty) (hs.counted.lt_of_mem hr).le

end

namespace Printing

/-- **The printer gets the job exactly once** if no transaction arrives for a number that the cache
    has dropped: the replies to distinct numbers are the source in order, cut short only where the
    job has failed or is still on its way; eof is on the empty replies; and a number that comes
    again gets the packets it got, at no cost of the source. -/
theorem print_delivers (p : JobPrinter) (source : Bytes) (now : Micros) (acts : List PrintAct)
    (hrecent : Along (step p) Recent (start p source now) acts) :
    Along (step p) (Repeats p) (start p source now) acts ∧
      JobDelivered p source (run (step p) (start p source now) acts) := by
  have hstep : ∀ s a, Sound p source s → s.Recent a → Sound p source (s.step p a) :=
    fun _ _ hs hr => sound_step hs hr
  have hgood : ∀ s a, Sound p source s → s.Recent a → s.Repeats p a :=
    fun _ _ hs hr => repeats_of_sound hs hr
  have hstart := sound_start p source now
  exact ⟨along_run (step p) hgood hstep hstart hrecent,
    (inv_run (step p) hstep hstart hrecent).delivers⟩

/-- A printer that reads two bytes at a time, and whose numbers wrap. -/
def twoBytePrinter : JobPrinter := ⟨7, ⟨0, 10, 70⟩, 65533, fun _ => 1⟩

/-- The source hands over two bytes. -/
def twoBytes : PrintEnv := ⟨some 2, true⟩

/-- The reply to the second read is lost, and both reads come again. -/
def lostReply : List PrintAct :=
  [.issue 0 1, .deliver 0 twoBytes 1, .receive 0, .issue 1 2, .deliver 1 twoBytes 2, .issue 1 3,
    .issue 0 4, .deliver 2 twoBytes 3, .deliver 3 twoBytes 4, .receive 2, .issue 2 5,
    .deliver 4 twoBytes 5, .receive 4]

theorem print_delivers_lostReply :
    Along (step twoBytePrinter) (Repeats twoBytePrinter)
        (start twoBytePrinter [88, 89, 90] 0) lostReply ∧
      JobDelivered twoBytePrinter [88, 89, 90]
        (run (step twoBytePrinter) (start twoBytePrinter [88, 89, 90] 0) lostReply) :=
  print_delivers twoBytePrinter [88, 89, 90] 0 lostReply (by decide +kernel)

/-- One read after another. -/
def readInTurn (j : ℕ) : List PrintAct :=
  [.issue j (UInt16.ofNat j), .deliver j twoBytes j, .receive j]

/-- After eight reads the first number is issued again, and the ninth read overtakes it. -/
def lateRead : List PrintAct :=
  (List.range 8).flatMap readInTurn ++
    [.issue 0 8, .issue 8 9, .deliver 9 twoBytes 9, .deliver 8 twoBytes 10]

/-- The first number comes again once its reply has left the cache, and takes the next two bytes of
    the source. -/
theorem late_read_delivers_more : ¬ ∀ p source now acts,
    Along (step p) (Repeats p) (start p source now) acts ∧
      JobDelivered p source (run (step p) (start p source now) acts) := by
  intro h
  have hsame := (h twoBytePrinter (List.replicate 18 0 ++ [1, 2]) 0 lateRead).2.same
  have hreplies : ((run (step twoBytePrinter)
      (start twoBytePrinter (List.replicate 18 0 ++ [1, 2]) 0) lateRead).replies.filter
      fun r => r.index = 0).map PrintReply.data = [[0, 0], [1, 2]] := by
    decide +kernel
  obtain ⟨first, rest, hfilter, hfirst, hrest⟩ := List.map_eq_cons_iff.1 hreplies
  obtain ⟨late, rest', rfl, hlate, -⟩ := List.map_eq_cons_iff.1 hrest
  have hmem : ∀ r ∈ [first, late], r ∈ (run (step twoBytePrinter)
      (start twoBytePrinter (List.replicate 18 0 ++ [1, 2]) 0) lateRead).replies ∧ r.index = 0 := by
    intro r hr
    have hr' : r ∈ first :: late :: rest' := List.mem_of_mem_take (i := 2) hr
    rw [← hfilter, List.mem_filter, decide_eq_true_iff] at hr'
    exact hr'
  obtain ⟨hin, hindex⟩ := hmem first List.mem_cons_self
  obtain ⟨hin', hindex'⟩ := hmem late (List.mem_cons_of_mem _ List.mem_cons_self)
  have hpackets := hsame first hin late hin' (hindex.trans hindex'.symm)
  have hdata : first.data = late.data := by
    rw [PrintReply.data, PrintReply.data, AtpSendResponse.data, AtpSendResponse.data, hpackets]
  rw [hfirst, hlate] at hdata
  cases hdata

end Printing

end TailTalk
