/-
  The write side of a LaserWriter connection — jobs to the sink, answers to
  the driver.

  The driver's Data packets fill a `JobBuffer`.  After each the session hands a
  finished job on, or answers what it can of a query (`receive`); what is left
  when the driver closes may still be a job (`close`).
-/
import TailTalk.LaserWriter.Query

namespace TailTalk

open Lib

/-- The job arriving from the driver, and how much of it has been answered. -/
structure JobBuffer where
  data : Bytes
  answered : ℕ

namespace JobBuffer

/-- A buffer with nothing in it. -/
def empty : JobBuffer := ⟨[], 0⟩

/-- Append a packet, dropping what is now spent. -/
def push (job : JobBuffer) (bytes : Bytes) : JobBuffer :=
  let data := job.data ++ bytes
  let spent := pqpResync data job.answered
  ⟨data.drop spent, job.answered - spent⟩

/-- What no answer has covered yet. -/
def unanswered (job : JobBuffer) : Bytes := job.data.drop (min job.answered job.data.length)

/-- More of it was answered. -/
def markAnswered (job : JobBuffer) (len : ℕ) : JobBuffer :=
  { job with answered := job.answered + len }

end JobBuffer

/-- What the driver's write side sends: some bytes, and perhaps the eof mark. -/
structure DataPacket where
  data : Bytes
  eof : Bool

/-- The write side of a connection. -/
structure LaserSession where
  job : JobBuffer
  /-- the jobs handed to the sink -/
  jobs : List Bytes
  /-- the writes queued on the printer's stdout -/
  stdout : List Bytes

namespace LaserSession

/-- The driver has sent nothing. -/
def start : LaserSession := ⟨.empty, [], []⟩

/-- The end of a job: print it, or answer what is left of a query. -/
def finishJob (attrs : PrinterAttributes) (s : LaserSession) : LaserSession :=
  let data := s.job.data
  if pqpIsQuery data then
    { s with
      job := .empty
      stdout := s.stdout ++ pqpWrites attrs s.job.unanswered }
  else { s with job := .empty, jobs := s.jobs ++ [data] }

/-- Answer a query up to `stop`, without waiting for an eof that may not come. -/
def answer (attrs : PrinterAttributes) (s : LaserSession) (stop : ℕ) : LaserSession :=
  let block := s.job.unanswered.take stop
  { s with
    job := if jobEndsAtEof block then .empty else s.job.markAnswered stop
    stdout := s.stdout ++ pqpWrites attrs block }

/-- Once a packet is in the buffer. -/
def handleJob (attrs : PrinterAttributes) (s : LaserSession) (eof : Bool) : LaserSession :=
  if eof ∧ s.job.data.isEmpty then s
  else if eof then s.finishJob attrs
  else if pqpIsQuery s.job.data then
    match pqpAnswerablePrefix s.job.unanswered with
    | some stop => s.answer attrs stop
    | none => s
  else s

/-- Append a packet to the buffer. -/
def push (s : LaserSession) (bytes : Bytes) : LaserSession := { s with job := s.job.push bytes }

/-- One Data packet. -/
def receive (attrs : PrinterAttributes) (s : LaserSession) (packet : DataPacket) : LaserSession :=
  (s.push packet.data).handleJob attrs packet.eof

/-- The driver closes: a whole job that lacks only its eof mark is printed. -/
def close (s : LaserSession) : LaserSession :=
  if s.job.unanswered.isEmpty then s
  else if ¬ pqpIsQuery s.job.data ∧ jobEndsAtEof s.job.data then
    { s with job := .empty, jobs := s.jobs ++ [s.job.data] }
  else { s with job := .empty }

/-- What becomes of the packets of a connection, up to its close or not. -/
def session (attrs : PrinterAttributes) (packets : List DataPacket) (closed : Bool) :
    LaserSession :=
  let s := run (receive attrs) start packets
  if closed then s.close else s

end LaserSession

end TailTalk
