/-
  A stream cut into messages, and a queue of it with its ends kept as offsets.

  A queue holds the elements one after the other (`elems`) and the places where
  messages end, counted from its front (`ends`); the lemmas say what taking
  from its front comes to.
-/
import Mathlib.Data.List.Basic
import Mathlib.Data.Nat.Notation

namespace Lib

universe u

/-- The messages that have ended, and the beginning of the one that has not. -/
structure Messages (α : Type u) where
  ended : List (List α)
  rest : List α

namespace Messages
variable {α : Type u}

/-- Nothing of a stream. -/
def empty : Messages α := ⟨[], []⟩

/-- More of the stream arrives, with the end of a message after it or not. -/
def push (m : Messages α) (chunk : List α) (last : Bool) : Messages α :=
  if last then ⟨m.ended ++ [m.rest ++ chunk], []⟩ else ⟨m.ended, m.rest ++ chunk⟩

/-- What some chunks come to. -/
def pushAll (m : Messages α) (chunks : List (List α × Bool)) : Messages α :=
  chunks.foldl (fun m c => m.push c.1 c.2) m

/-- What some chunks come to, however they cut the stream. -/
def ofChunks (chunks : List (List α × Bool)) : Messages α := empty.pushAll chunks

/-! ## The queue -/

/-- The elements, one after the other. -/
def elems (m : Messages α) : List α := m.ended.flatten ++ m.rest

/-- Where some messages end, counted from the front of the first. -/
def offsets : List (List α) → List ℕ
  | [] => []
  | x :: xs => x.length :: (offsets xs).map (· + x.length)

/-- Where the messages end. -/
def ends (m : Messages α) : List ℕ := offsets m.ended

@[simp] theorem elems_push (m : Messages α) (chunk : List α) (last : Bool) :
    (m.push chunk last).elems = m.elems ++ chunk := by
  cases last <;> simp [push, elems]

theorem offsets_append (xs : List (List α)) (x : List α) :
    offsets (xs ++ [x]) = offsets xs ++ [xs.flatten.length + x.length] := by
  induction xs with
  | nil => simp [offsets]
  | cons y ys ih => simp [offsets, ih, Nat.add_comm, Nat.add_left_comm]

theorem ends_push (m : Messages α) (chunk : List α) (last : Bool) :
    (m.push chunk last).ends =
      if last then m.ends ++ [(m.elems ++ chunk).length] else m.ends := by
  cases last with
  | false => rfl
  | true => simp [push, ends, offsets_append, elems]

@[simp] theorem offsets_eq_nil {xs : List (List α)} : offsets xs = [] ↔ xs = [] := by
  cases xs <;> simp [offsets]

/-- Taking part of the first message moves all ends up. -/
theorem offsets_drop {x : List α} {n : ℕ} (h : n ≤ x.length) (xs : List (List α)) :
    (offsets (x :: xs)).map (· - n) = offsets (x.drop n :: xs) := by
  simp only [offsets, List.map_cons, List.map_map, List.length_drop, List.cons.injEq, true_and]
  refine List.map_congr_left fun k _ => ?_
  simp only [Function.comp_apply]
  omega

/-- Taking the whole of it moves the others up. -/
theorem offsets_tail (x : List α) (xs : List (List α)) :
    ((offsets (x :: xs)).tail).map (· - x.length) = offsets xs := by
  simp [offsets, Function.comp_def]

theorem take_elems {x : List α} {n : ℕ} (h : n ≤ x.length) (xs : List (List α)) (rest : List α) :
    (elems ⟨x :: xs, rest⟩).take n = x.take n := by
  rw [elems, List.flatten_cons, List.append_assoc, List.take_append_of_le_length h]

theorem drop_elems {x : List α} {n : ℕ} (h : n ≤ x.length) (xs : List (List α)) (rest : List α) :
    (elems ⟨x :: xs, rest⟩).drop n = elems ⟨x.drop n :: xs, rest⟩ := by
  rw [elems, List.flatten_cons, List.append_assoc, List.drop_append_of_le_length h, elems,
    List.flatten_cons, List.append_assoc]

@[simp] theorem elems_nil_cons (xs : List (List α)) (rest : List α) :
    elems ⟨[] :: xs, rest⟩ = elems ⟨xs, rest⟩ := rfl

/-! ## What arrives later -/

@[simp] theorem pushAll_nil (m : Messages α) : m.pushAll [] = m := rfl

@[simp] theorem pushAll_cons (m : Messages α) (c : List α × Bool) (cs : List (List α × Bool)) :
    m.pushAll (c :: cs) = (m.push c.1 c.2).pushAll cs := rfl

theorem ofChunks_append (cs ds : List (List α × Bool)) :
    ofChunks (cs ++ ds) = (ofChunks cs).pushAll ds := List.foldl_append

theorem ofChunks_concat (cs : List (List α × Bool)) (c : List α × Bool) :
    ofChunks (cs ++ [c]) = (ofChunks cs).push c.1 c.2 := by
  rw [ofChunks_append]
  rfl

theorem pushAll_extends (m : Messages α) (cs : List (List α × Bool)) :
    ((m.pushAll cs).ended = m.ended ∧ m.rest <+: (m.pushAll cs).rest) ∨
      ∃ x xs, (m.pushAll cs).ended = m.ended ++ x :: xs ∧ m.rest <+: x := by
  induction cs generalizing m with
  | nil => exact .inl ⟨rfl, List.prefix_rfl⟩
  | cons c cs ih =>
    obtain ⟨chunk, last⟩ := c
    have hnext := ih (m.push chunk last)
    rw [pushAll_cons]
    cases last with
    | false =>
      have hrest : m.rest <+: (m.push chunk false).rest := List.prefix_append _ _
      rcases hnext with ⟨hended, hpre⟩ | ⟨x, xs, hended, hpre⟩
      · exact .inl ⟨hended, hrest.trans hpre⟩
      · exact .inr ⟨x, xs, hended, hrest.trans hpre⟩
    | true =>
      have hended : (m.push chunk true).ended = m.ended ++ [m.rest ++ chunk] := rfl
      refine .inr ?_
      rcases hnext with ⟨h, -⟩ | ⟨x, xs, h, -⟩
      · exact ⟨m.rest ++ chunk, [], h.trans hended, List.prefix_append _ _⟩
      · refine ⟨m.rest ++ chunk, x :: xs, ?_, List.prefix_append _ _⟩
        rw [h, hended, List.append_assoc]
        rfl

/-! ## The stream -/

/-- The stream, an end of a message being `none`. -/
def items (m : Messages α) : List (Option α) :=
  m.ended.flatMap (fun x => x.map some ++ [none]) ++ m.rest.map some

/-- The items of one chunk. -/
def chunkItems (c : List α × Bool) : List (Option α) :=
  c.1.map some ++ if c.2 then [none] else []

theorem items_push (m : Messages α) (chunk : List α) (last : Bool) :
    (m.push chunk last).items = m.items ++ chunkItems (chunk, last) := by
  cases last <;> simp [push, items, chunkItems]

theorem items_pushAll (m : Messages α) (cs : List (List α × Bool)) :
    (m.pushAll cs).items = m.items ++ cs.flatMap chunkItems := by
  induction cs generalizing m with
  | nil => simp
  | cons c cs ih =>
    rw [pushAll_cons, ih, items_push, List.append_assoc, List.flatMap_cons]

theorem items_ofChunks (cs : List (List α × Bool)) :
    (ofChunks cs).items = cs.flatMap chunkItems := items_pushAll empty cs

@[simp] theorem items_nil (rest : List α) : items ⟨[], rest⟩ = rest.map some := rfl

theorem items_cons (x : List α) (xs : List (List α)) (rest : List α) :
    items ⟨x :: xs, rest⟩ = chunkItems (x, true) ++ items ⟨xs, rest⟩ := by
  simp [items, chunkItems]

/-- The first message in two parts. -/
theorem items_take_drop (n : ℕ) (x : List α) (xs : List (List α)) (rest : List α) :
    items ⟨x :: xs, rest⟩ = chunkItems (x.take n, false) ++ items ⟨x.drop n :: xs, rest⟩ := by
  rw [items_cons, items_cons, ← List.append_assoc]
  congr 1
  simp only [chunkItems, if_true, Bool.false_eq_true, if_false, List.append_nil]
  rw [← List.append_assoc, ← List.map_append, List.take_append_drop]

theorem items_append (xs ys : List (List α)) (rest : List α) :
    items ⟨xs ++ ys, rest⟩ = items ⟨xs, []⟩ ++ items ⟨ys, rest⟩ := by
  simp [items]

@[simp] theorem items_eq_nil {m : Messages α} : m.items = [] ↔ m.ended = [] ∧ m.rest = [] := by
  obtain ⟨ended, rest⟩ := m
  cases ended with
  | nil => simp
  | cons x xs => simp [items_cons, chunkItems]

/-- A stream is parsed in one way only: up to the first end. -/
theorem chunkItems_inj {x y : List α} {as bs : List (Option α)}
    (h : chunkItems (x, true) ++ as = chunkItems (y, true) ++ bs) : x = y ∧ as = bs := by
  induction x generalizing y with
  | nil =>
    cases y with
    | nil => exact ⟨rfl, by simpa [chunkItems] using h⟩
    | cons b y => simp [chunkItems] at h
  | cons a x ih =>
    cases y with
    | nil => simp [chunkItems] at h
    | cons b y =>
      simp only [chunkItems, List.map_cons, List.cons_append, List.cons.injEq,
        Option.some.injEq] at h
      obtain ⟨rfl, h⟩ := h
      obtain ⟨rfl, has⟩ := ih h
      exact ⟨rfl, has⟩

/-- What begins with some whole messages has them. -/
theorem ended_of_items {xs : List (List α)} {as : List (Option α)} {m : Messages α}
    (h : items ⟨xs, []⟩ ++ as = m.items) :
    ∃ ys, m.ended = xs ++ ys ∧ as = items ⟨ys, m.rest⟩ := by
  obtain ⟨ended, rest⟩ := m
  induction xs generalizing ended with
  | nil => exact ⟨ended, rfl, h⟩
  | cons x xs ih =>
    rw [items_cons, List.append_assoc] at h
    cases ended with
    | nil =>
      have hnone : none ∈ items (α := α) ⟨[], rest⟩ := by
        rw [← h]
        simp [chunkItems]
      simp at hnone
    | cons y ended =>
      rw [items_cons] at h
      obtain ⟨rfl, hrest⟩ := chunkItems_inj h
      obtain ⟨ys, hys, has⟩ := ih ended hrest
      exact ⟨ys, by simpa using hys, has⟩

end Messages

end Lib
