/-
  Shared vocabulary of the transports: time, randomness and addresses.
-/
import Mathlib.Data.Nat.Notation

namespace TailTalk

/-- Monotonic time in microseconds.  The zero point is arbitrary; only
    differences are used. -/
abbrev Micros := ℕ

/-- The xorshift generator behind connection and transaction identifiers. -/
structure Rand where
  state : UInt32

namespace Rand

/-- A zero state would stay zero forever. -/
def new (seed : UInt32) : Rand := ⟨if seed = 0 then 0x12345678 else seed⟩

def nextU32 (r : Rand) : UInt32 × Rand :=
  let x := r.state
  let x := x ^^^ (x <<< 13)
  let x := x ^^^ (x >>> 17)
  let x := x ^^^ (x <<< 5)
  (x, ⟨x⟩)

/-- A value in `lo..=hi`; the modulo bias is irrelevant at the ranges used. -/
def inRange (r : Rand) (lo hi : UInt8) : UInt8 × Rand :=
  let span := (hi - lo).toUInt32 + 1
  let (x, r') := r.nextU32
  (lo + (x % span).toUInt8, r')

theorem inRange_mem (r : Rand) {lo hi : UInt8} (h : lo ≤ hi) :
    lo ≤ (r.inRange lo hi).1 ∧ (r.inRange lo hi).1 ≤ hi := by
  have hlo := UInt8.le_iff_toNat_le.1 h
  have hhi := hi.toNat_lt
  have hsub : (hi - lo).toNat = hi.toNat - lo.toNat := UInt8.toNat_sub_of_le _ _ h
  have hspan : ((hi - lo).toUInt32 + 1).toNat = hi.toNat - lo.toNat + 1 := by
    rw [UInt32.toNat_add, UInt8.toNat_toUInt32, hsub]
    exact Nat.mod_eq_of_lt (by simp only [UInt32.toNat_one]; omega)
  have hmod := Nat.mod_lt r.nextU32.1.toNat (show 0 < hi.toNat - lo.toNat + 1 by omega)
  have hval : (r.inRange lo hi).1.toNat =
      lo.toNat + r.nextU32.1.toNat % (hi.toNat - lo.toNat + 1) := by
    simp only [inRange]
    rw [UInt8.toNat_add, UInt32.toNat_toUInt8, UInt32.toNat_mod, hspan]
    omega
  simp only [UInt8.le_iff_toNat_le, hval]
  omega

end Rand

/-- The AppleTalk address (network, node, socket) a service lives at. -/
structure ServiceAddress where
  networkNumber : UInt16
  nodeNumber : UInt8
  socketNumber : UInt8
deriving DecidableEq

end TailTalk
