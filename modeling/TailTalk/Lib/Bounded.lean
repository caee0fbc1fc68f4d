/-
  Vectors of a fixed capacity.

  `pushLossy` is a push whose result is thrown away: a full vector stays as it
  is.  `storeAt` is an assignment to an index, which panics past the end.
-/
import TailTalk.Lib.Panic

namespace Lib

variable {α : Type}

/-- A push that a full vector ignores. -/
def pushLossy (cap : ℕ) (v : List α) (a : α) : List α := if v.length < cap then v ++ [a] else v

theorem pushLossy_of_lt {cap : ℕ} {v : List α} (a : α) (h : v.length < cap) :
    pushLossy cap v a = v ++ [a] := if_pos h

/-- **What a vector holds of what is pushed**: as much as it has room for. -/
theorem foldl_pushLossy {cap : ℕ} {v : List α} (as : List α) (h : v.length ≤ cap) :
    as.foldl (pushLossy cap) v = (v ++ as).take cap := by
  induction as generalizing v with
  | nil => rw [List.append_nil, List.take_of_length_le h]; rfl
  | cons a as ih =>
    rw [List.foldl_cons]
    by_cases hlt : v.length < cap
    · rw [pushLossy_of_lt a hlt, ih (by simpa using Nat.succ_le_of_lt hlt), List.append_assoc]
      rfl
    · have hfull : v.length = cap := Nat.le_antisymm h (Nat.not_lt.1 hlt)
      rw [pushLossy, if_neg hlt, ih h, List.take_append_of_le_length hfull.ge,
        List.take_append_of_le_length hfull.ge]

theorem foldl_pushLossy_of_le {cap : ℕ} {v as : List α} (h : v.length + as.length ≤ cap) :
    as.foldl (pushLossy cap) v = v ++ as := by
  rw [foldl_pushLossy as (Nat.le_of_add_right_le h),
    List.take_of_length_le (by rwa [List.length_append])]

/-- `buf[i] = a`. -/
def storeAt {n : ℕ} (buf : Vector α n) (i : ℕ) (a : α) : Checked (Vector α n) :=
  if h : i < n then .ok (buf.set i a h) else .error (.index i n)

theorem storeAt_eq {n i : ℕ} (buf : Vector α n) (a : α) (h : i < n) :
    ∃ buf', storeAt buf i a = .ok buf' ∧
      buf'.toList.take (i + 1) = buf.toList.take i ++ [a] := by
  refine ⟨buf.set i a h, dif_pos h, ?_⟩
  rw [Vector.toList_set, List.take_add_one]
  have hlen : i < buf.toList.length := by simpa using h
  rw [List.take_set_of_le (Nat.le_refl i), List.getElem?_set_self hlen]
  rfl

end Lib
