/-
  Fields where a client put them — what the readers of `Afp.Commands` return on
  a request that is written field after field.
-/
import TailTalk.Afp.Commands

namespace TailTalk

open Lib

section
variable {σ α : Type} {buf : Bytes} {i : ℕ}

theorem slice_between (pre mid rest : Bytes) :
    slice (pre ++ mid ++ rest) pre.length (pre.length + mid.length) = .ok mid := by
  rw [slice_eq (Nat.le_add_right _ _) (by simp), ← List.length_append, List.take_left,
    List.drop_left]

theorem need_bind {n : ℕ} (f : Unit → Proc σ AfpError α) (h : n ≤ buf.length) :
    (need n buf >>= f) = f () := by
  rw [need, if_neg (Nat.not_lt.2 h)]
  rfl

theorem byteField_bind (pre : Bytes) (b : UInt8) (rest : Bytes) {f : UInt8 → Proc σ AfpError α}
    (hbuf : buf = pre ++ b :: rest) (hi : i = pre.length) : (byteField buf i >>= f) = f b := by
  subst hbuf hi
  rw [byteField, byteAt_eq (by simp), List.getD_eq_getElem?_getD, List.getElem?_append_right le_rfl,
    Nat.sub_self]
  rfl

theorem wordField_bind (pre : Bytes) (w : UInt16) (rest : Bytes) {f : UInt16 → Proc σ AfpError α}
    (hbuf : buf = pre ++ be16 w ++ rest) (hi : i = pre.length) : (wordField buf i >>= f) = f w := by
  subst hbuf hi
  have hslice := slice_between pre (be16 w) rest
  rw [be16_length] at hslice
  have hread := readBe16_be16 w []
  rw [List.append_nil] at hread
  rw [wordField, hslice]
  exact congrArg f hread

theorem longField_bind (pre : Bytes) (w : UInt32) (rest : Bytes) {f : ℕ → Proc σ AfpError α}
    (hbuf : buf = pre ++ be32 w ++ rest) (hi : i = pre.length) :
    (longField buf i >>= f) = f w.toNat := by
  subst hbuf hi
  have hslice := slice_between pre (be32 w) rest
  rw [be32_length] at hslice
  have hread := readBe32_be32 w []
  rw [List.append_nil] at hread
  rw [longField, hslice]
  exact congrArg (fun n : UInt32 => f n.toNat) hread

/-- The request of a lock, field by field. -/
def lockOf (flags : UInt8) (forkId : UInt16) (offset length : UInt32) : FPByteRangeLock :=
  ⟨forkId, signed32 offset.toNat, length.toNat, flags &&& 0x01 ≠ 0, flags &&& 0x80 ≠ 0⟩

theorem FPByteRangeLock.parse_eq (flags : UInt8) (forkId : UInt16) (offset length : UInt32)
    (rest : Bytes) :
    (FPByteRangeLock.parse (flags :: be16 forkId ++ be32 offset ++ be32 length ++ rest) :
      Proc σ AfpError FPByteRangeLock) = pure (lockOf flags forkId offset length) := by
  refine (need_bind _ (by simp; omega)).trans ?_
  refine (byteField_bind [] flags (be16 forkId ++ be32 offset ++ be32 length ++ rest) rfl rfl).trans ?_
  refine (wordField_bind [flags] forkId (be32 offset ++ be32 length ++ rest) rfl rfl).trans ?_
  refine (longField_bind (flags :: be16 forkId) offset (be32 length ++ rest) rfl rfl).trans ?_
  exact longField_bind (flags :: be16 forkId ++ be32 offset) length rest rfl rfl

/-- A write request: the flag is the high bit of the count. -/
theorem FPWrite.parse_eq (forkId : UInt16) (offset count : UInt32) (rest : Bytes) :
    (FPWrite.parse (be16 forkId ++ be32 offset ++ be32 count ++ rest) : Proc σ AfpError FPWrite) =
      pure ⟨forkId, offset.toNat, count.toNat % 2147483648, count.toNat ≥ 2147483648⟩ := by
  refine (need_bind _ (by simp; omega)).trans ?_
  refine (wordField_bind [] forkId (be32 offset ++ be32 count ++ rest) rfl rfl).trans ?_
  refine (longField_bind (be16 forkId) offset (be32 count ++ rest) rfl rfl).trans ?_
  exact longField_bind (be16 forkId ++ be32 offset) count rest rfl rfl

end

end TailTalk
