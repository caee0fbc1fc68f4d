/-
  FPWrite — from the bytes of a request to the bytes of the fork.

  The parser takes the start/end flag out of the count, and no one looks at it
  again: `handle_write` writes at the offset as it is and replies with the
  offset after the data.
-/
import TailTalk.Afp.Fields
import TailTalk.Afp.Positions
import TailTalk.Afp.Server

namespace TailTalk

open Lib

namespace Server

open Volume

/-- Where a write is to go in a fork of this length: the offset counts from its start or its end. -/
def writeTarget (cmd : FPWrite) (length : ℕ) : ℕ :=
  (if cmd.startEndFlag then length else 0) + cmd.offset

/-- The data is where it was asked for and nowhere else, and the reply is the offset after it. -/
def Lands (cmd : FPWrite) (file : Handle) (data : Bytes) (d : Disk)
    (response : AspCommandResponse) (d' : Disk) : Prop :=
  RangeWritten file (writeTarget cmd (bytesOf d file).length) data d d' ∧
    response = success (be32 (UInt32.ofNat
      (writeTarget cmd (bytesOf d file).length + data.length)))

section

variable {sys : Sys} {v : Volume} {cmd : FPWrite} {file : Handle} {data : Bytes}

theorem be32_inj {m n : ℕ} (hm : m < 4294967296) (hn : n < 4294967296)
    (h : be32 (UInt32.ofNat m) = be32 (UInt32.ofNat n)) : m = n := by
  have hword := congrArg readBe32 h
  rw [← List.append_nil (be32 _), readBe32_be32, ← List.append_nil (be32 _), readBe32_be32] at hword
  have hnat := congrArg UInt32.toNat hword
  rwa [UInt32.toNat_ofNat', UInt32.toNat_ofNat', Nat.mod_eq_of_lt hm, Nat.mod_eq_of_lt hn] at hnat

theorem handleWrite_spec (hv : Cached v) (hfile : v.fileOf cmd.forkId = some file)
    (hfits : cmd.offset + data.length < 4294967296)
    (htakes : TakesLast sys file.fd cmd.offset data.length) :
    Proc.wp True (handleWrite sys cmd (some data)) (fun r v' => ∀ response, r = .ok response →
      RangeWritten file cmd.offset data v.disk v'.disk ∧
        response = success (be32 (UInt32.ofNat (cmd.offset + data.length)))) v := by
  obtain ⟨key, href, hopen⟩ := fileOf_eq_some.1 hfile
  simp only [handleWrite, spWrite, Proc.wp_bind, Proc.wp_orElse, Option.some.injEq, forall_eq',
    Proc.next_ok, reduceCtorEq, IsEmpty.forall_iff, and_true]
  refine Proc.wp_mono (Proc.wp_weaken (writeFork_spec cmd.offset data hv href hopen)) ?_
  rintro (e | n) v' ⟨-, -, hwritten⟩
  · intro response h
    cases h
  obtain ⟨rfl, hrange⟩ := hwritten n rfl htakes
  rw [Proc.next_ok, Proc.wp_bind, Proc.wp_lift]
  refine ⟨fun last hlast => ?_, fun _ => trivial⟩
  have hlast' : last = cmd.offset + data.length := by
    rw [lastByteOffset, Nat.mod_eq_of_lt (by omega), if_pos hfits] at hlast
    exact (Except.ok.inj hlast).symm
  intro response h
  obtain rfl := Except.ok.inj h
  exact ⟨hrange, by rw [hlast']⟩

theorem lands_iff {d d' : Disk} {response : AspCommandResponse}
    (hfits : writeTarget cmd (bytesOf d file).length + data.length < 4294967296)
    (hrange : RangeWritten file cmd.offset data d d')
    (hresponse : response = success (be32 (UInt32.ofNat (cmd.offset + data.length)))) :
    Lands cmd file data d response d' ↔ cmd.startEndFlag = false ∨ bytesOf d file = [] := by
  have hle : cmd.offset + data.length < 4294967296 := by
    unfold writeTarget at hfits
    omega
  constructor
  · rintro ⟨-, hreply⟩
    have hsame := be32_inj hle hfits
      (congrArg AspCommandResponse.data (hresponse.symm.trans hreply))
    unfold writeTarget at hsame
    cases hflag : cmd.startEndFlag with
    | false => exact Or.inl rfl
    | true =>
      rw [hflag, if_pos rfl] at hsame
      exact Or.inr (List.eq_nil_of_length_eq_zero (by omega))
  · intro h
    have htarget : writeTarget cmd (bytesOf d file).length = cmd.offset := by
      rcases h with h | h <;> simp [writeTarget, h]
    rw [Lands, htarget]
    exact ⟨hrange, hresponse⟩

/-! ## A system that refuses nothing -/

theorem takes_calm (hcalm : ∀ call, sys.refuses call = false) (fd fuel pos len : ℕ) :
    takes sys fd fuel pos len = true := by
  induction fuel generalizing pos len with
  | zero => rfl
  | succ fuel ih =>
    rw [takes]
    split
    · rfl
    · rw [if_neg (by rw [hcalm]; decide)]
      exact ih _ _

theorem writeAll_calm (hcalm : ∀ call, sys.refuses call = false) (fuel : ℕ) (file : Handle)
    (data : Bytes) (d : Disk) (hkept : file.failed = false) :
    (Disk.writeAll sys fuel file data d).1 = true := by
  induction fuel generalizing file data d with
  | zero => rfl
  | succ fuel ih =>
    simp only [Disk.writeAll]
    split
    · rfl
    · rw [if_neg (by rw [hkept]; decide)]
      refine ih _ _ _ ?_
      rw [writeOut_takes, takes_calm hcalm]
      rfl

theorem seekFork_calm {forkId : UInt16} {key : NodeId × ForkType} {pos : ℕ} {e : AfpError}
    (hcalm : ∀ call, sys.refuses call = false) :
    Proc.wp False (seekFork sys forkId key.1 key.2 file pos e) (fun r _ => ∃ file', r = .ok file' ∧
      file'.failed = file.failed) v := by
  simp only [seekFork, Proc.wp_bind, Proc.wp_read, Proc.next_ok, Proc.wp_ite, Disk.seek, hcalm]
  exact ⟨fun _ => ⟨file, rfl, rfl⟩, fun _ => ⟨{ file with pos := pos }, rfl, rfl⟩⟩

theorem handleWrite_calm (hcalm : ∀ call, sys.refuses call = false)
    (hfile : v.fileOf cmd.forkId = some file) (hkept : file.failed = false)
    (hmode : writeRefused v cmd.forkId = false)
    (hfits : cmd.offset + data.length < 4294967296) :
    Proc.wp False (handleWrite sys cmd (some data)) (fun r _ => ∃ b, r = .ok (success b)) v := by
  obtain ⟨key, href, hopen⟩ := fileOf_eq_some.1 hfile
  obtain ⟨node, hnode, hfork⟩ := Option.bind_eq_some_iff.1 hopen
  simp only [handleWrite, spWrite, writeFork, Proc.wp_bind, forkOf, Proc.wp_read, Proc.next_ok,
    href, Proc.wp_orElse, Option.some.injEq, forall_eq', getNode, hnode, hfork, reduceCtorEq,
    IsEmpty.forall_iff, and_true, Proc.wp_ite, hmode, Bool.false_eq_true, true_and,
    not_false_eq_true, true_implies]
  refine Proc.wp_mono (seekFork_calm hcalm) ?_
  rintro _ v₁ ⟨file₁, rfl, hfailed⟩
  have hwritten := writeAll_calm hcalm data.length file₁ data v₁.disk (hfailed.trans hkept)
  simp only [Proc.next_ok, Proc.wp_bind, Proc.wp_read]
  generalize Disk.writeAll sys data.length file₁ data v₁.disk = outcome at hwritten ⊢
  obtain ⟨written, file₂, disk⟩ := outcome
  obtain rfl : written = true := hwritten
  simp only [Proc.wp_bind, Proc.wp_modify, Proc.next_ok, setHandle, updateNode, markDirty,
    if_true, setPos, Proc.wp_pure, Proc.wp_lift]
  refine ⟨fun last _ => ⟨_, rfl⟩, fun hpanic => hpanic ?_⟩
  rw [lastByteOffset, Nat.mod_eq_of_lt (by omega), if_pos hfits]
  exact returns_ok _

/-! ## The request -/

variable [MacRoman]

/-- The bytes of a write request and the data sent for it. -/
def writeCommand (pad bitmap : UInt8) (forkId : UInt16) (offset count : UInt32) (rest data : Bytes) :
    AspCommand :=
  ⟨33 :: pad :: (be16 forkId ++ be32 offset ++ be32 count ++ rest), bitmap, some data⟩

/-- What is parsed out of them. -/
def writeOf (forkId : UInt16) (offset count : UInt32) : FPWrite :=
  ⟨forkId, offset.toNat, count.toNat % 2147483648, count.toNat ≥ 2147483648⟩

theorem serve_writeCommand (sessionId pad bitmap : UInt8) (forkId : UInt16)
    (offset count : UInt32) (rest data : Bytes) :
    serve sys sessionId (writeCommand pad bitmap forkId offset count rest data) =
      (answer (handleWrite sys (writeOf forkId offset count) (some data)) >>= fun response =>
        pure (.reply response)) := by
  have hcut : (cutPayload (writeCommand pad bitmap forkId offset count rest data) :
      Afp Bytes) = pure (be16 forkId ++ be32 offset ++ be32 count ++ rest) := by
    rw [cutPayload, sliceFrom_eq (by simp [writeCommand])]
    rfl
  have hparse : (parseWrite (be16 forkId ++ be32 offset ++ be32 count ++ rest) : Afp FPWrite) =
      pure (writeOf forkId offset count) := by
    rw [parseWrite, FPWrite.parse_eq]
    rfl
  have hrequest : (request (writeCommand pad bitmap forkId offset count rest data) 33 :
      Afp Request) = pure (.write (writeOf forkId offset count) (some data)) := by
    change ((Request.write · (some data)) <$> (cutPayload _ >>= parseWrite)) = _
    rw [hcut]
    change ((Request.write · (some data)) <$>
      parseWrite (be16 forkId ++ be32 offset ++ be32 count ++ rest)) = _
    rw [hparse]
    rfl
  change (answer (request _ 33 >>= perform sys sessionId) >>= _) = _
  rw [hrequest]
  rfl

/-- **A write lands where the client asked for exactly if the flag makes no difference.** In every
    state that fork operations reach, for every fork open for writing and every request whose last
    offset fits and whose last buffer the system takes, the data is at its offset from the start, or
    from the end if the flag says so, and the reply is the offset after it, just if the flag is
    clear or the fork is empty. A request succeeds if the system refuses nothing and no earlier
    write has failed behind it. -/
theorem write_lands_iff (sys₀ : Sys) (name : Name) (createdAt : UInt32) (volumeId : UInt16)
    (db : DesktopDatabase) (disk : Disk) (ops : List (Sys × ForkOp)) {v : Volume}
    (hrun : run (partialStep ForkOp.step)
      (some (Volume.new sys₀ name createdAt volumeId db disk)) ops = some v)
    (sys : Sys) (sessionId pad bitmap : UInt8) (forkId : UInt16) (offset count : UInt32)
    (rest data : Bytes) {file : Handle} (hfile : v.fileOf forkId = some file)
    (hmode : writeRefused v forkId = false)
    (hfits : writeTarget (writeOf forkId offset count) (bytesOf v.disk file).length + data.length <
      4294967296) :
    (∀ response v', serve sys sessionId (writeCommand pad bitmap forkId offset count rest data) v =
        .ok (.ok (.reply response), v') → response.result = NO_ERROR →
          TakesLast sys file.fd offset.toNat data.length →
            (Lands (writeOf forkId offset count) file data v.disk response v'.disk ↔
              count.toNat < 2147483648 ∨ bytesOf v.disk file = [])) ∧
      ((∀ call, sys.refuses call = false) → file.failed = false → ∃ b v',
        serve sys sessionId (writeCommand pad bitmap forkId offset count rest data) v =
          .ok (.ok (.reply (success b)), v')) := by
  have hv : Cached v := ForkOp.cached_run sys₀ name createdAt volumeId db disk ops v hrun
  have hoffset : (writeOf forkId offset count).offset + data.length < 4294967296 := by
    unfold writeTarget at hfits
    omega
  rw [serve_writeCommand]
  constructor
  · intro response v' hserve hresult htakes
    have hspec : Proc.wp True (answer (handleWrite sys (writeOf forkId offset count) (some data)) >>=
        fun response => pure (Turn.reply response)) (fun r v' => ∀ response, r = .ok (Turn.reply response) →
          response.result = NO_ERROR → RangeWritten file offset.toNat data v.disk v'.disk ∧
            response = success (be32 (UInt32.ofNat (offset.toNat + data.length)))) v := by
      rw [Proc.wp_bind, wp_answer]
      refine Proc.wp_mono (handleWrite_spec hv hfile hoffset htakes) ?_
      rintro (e | response) v' h response' heq hresult
      · cases heq
        exact absurd hresult (errorReply_result_ne e)
      · cases heq
        exact h _ rfl
    obtain ⟨hrange, hreply⟩ := Proc.wp_ok hserve hspec response rfl hresult
    rw [lands_iff hfits hrange hreply]
    simp [writeOf]
  · intro hcalm hkept
    have hspec : Proc.wp False (answer (handleWrite sys (writeOf forkId offset count) (some data)) >>=
        fun response => pure (Turn.reply response)) (fun r _ => ∃ b, r = .ok (Turn.reply (success b))) v := by
      rw [Proc.wp_bind, wp_answer]
      refine Proc.wp_mono (handleWrite_calm hcalm hfile hkept hmode hoffset) ?_
      rintro _ v' ⟨b, rfl⟩
      exact ⟨b, rfl⟩
    obtain ⟨_, v', hserve, b, rfl⟩ := Proc.exists_of_wp hspec
    exact ⟨b, v', hserve⟩

end

/-! ## A write at the end -/

section

local instance writesRoman : MacRoman := macintosh

/-- A file of three bytes, open for reading and writing. -/
def threeBytesRun : List (Sys × ForkOp) :=
  [(.calm, .openFork .data 0 3 ROOT_ID ["a".toList] (zeros 256)), (.calm, .writeFork 1 0 [1, 2, 3])]

/-- A fork of three bytes, open. -/
def threeBytes : Option Volume :=
  run (partialStep ForkOp.step) (some (.ofEntries [("a".toList, .file 2)])) threeBytesRun

/-- The reply to a command, and the volume after it. -/
def replied (v : Volume) (command : AspCommand) : Option (AspCommandResponse × Volume) :=
  match serve .calm 0 command v with
  | .ok (.ok (.reply response), v') => some (response, v')
  | _ => none

/-- The flag says the end, and the byte is written over the first one. -/
theorem write_at_end_lands_at_start : ∃ v file response v', threeBytes = some v ∧
    v.fileOf 1 = some file ∧ writeRefused v 1 = false ∧ bytesOf v.disk file = [1, 2, 3] ∧
      serve .calm 0 (writeCommand 0 0 1 0 0x80000001 [] [7]) v = .ok (.ok (.reply response), v') ∧
        response = success (be32 1) ∧ bytesOf v'.disk file = [7, 2, 3] ∧
          ¬ Lands (writeOf 1 0 0x80000001) file [7] v.disk response v'.disk := by
  have hend : (threeBytes.bind fun v => (v.fileOf 1).bind fun file =>
      (replied v (writeCommand 0 0 1 0 0x80000001 [] [7])).map fun e =>
        (writeRefused v 1, bytesOf v.disk file, e.1, bytesOf e.2.disk file)) =
      some (false, [1, 2, 3], success (be32 1), [7, 2, 3]) := by decide +kernel
  obtain ⟨v, hv, hend⟩ := Option.bind_eq_some_iff.1 hend
  obtain ⟨file, hfile, hend⟩ := Option.bind_eq_some_iff.1 hend
  obtain ⟨⟨response, v'⟩, hreplied, heq⟩ := Option.map_eq_some_iff.1 hend
  simp only [Prod.mk.injEq] at heq
  obtain ⟨hmode, hbefore, hresponse, hafter⟩ := heq
  have hserve : serve .calm 0 (writeCommand 0 0 1 0 0x80000001 [] [7]) v =
      .ok (.ok (.reply response), v') := by
    unfold replied at hreplied
    split at hreplied
    · rename_i hserve
      obtain ⟨rfl, rfl⟩ := Prod.mk.inj (Option.some.inj hreplied)
      exact hserve
    · cases hreplied
  refine ⟨v, file, response, v', hv, hfile, hmode, hbefore, hserve, hresponse, hafter, ?_⟩
  rintro ⟨-, hreply⟩
  rw [hbefore, hresponse] at hreply
  exact absurd hreply (by decide)

/-- The same byte at the start. -/
theorem write_lands_iff_threeBytes : ∃ v file, threeBytes = some v ∧ v.fileOf 1 = some file ∧
    ((∀ response v', serve .calm 0 (writeCommand 0 0 1 0 1 [] [7]) v =
        .ok (.ok (.reply response), v') → response.result = NO_ERROR →
          TakesLast .calm file.fd (0 : UInt32).toNat [(7 : UInt8)].length →
            (Lands (writeOf 1 0 1) file [7] v.disk response v'.disk ↔
              (1 : UInt32).toNat < 2147483648 ∨ bytesOf v.disk file = [])) ∧
      ((∀ call, Sys.calm.refuses call = false) → file.failed = false → ∃ b v',
        serve .calm 0 (writeCommand 0 0 1 0 1 [] [7]) v = .ok (.ok (.reply (success b)), v'))) := by
  have hend : (threeBytes.bind fun v => (v.fileOf 1).map fun file =>
      (writeRefused v 1, bytesOf v.disk file)) = some (false, [1, 2, 3]) := by decide +kernel
  obtain ⟨v, hv, hend⟩ := Option.bind_eq_some_iff.1 hend
  obtain ⟨file, hfile, heq⟩ := Option.map_eq_some_iff.1 hend
  obtain ⟨hmode, hbefore⟩ := Prod.mk.inj heq
  exact ⟨v, file, hv, hfile, write_lands_iff .calm "Shared".toList 0 1 (.empty 1)
    (Disk.ofEntries [("a".toList, .file 2)]) threeBytesRun hv .calm 0 0 0 1 0 1 [] [7] hfile hmode
    (by rw [hbefore]; decide)⟩

end

end Server

end TailTalk
