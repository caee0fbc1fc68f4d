/-
  Reading framed items from a byte stream.

  A decoder is called on a buffer that bytes keep being appended to: it takes
  an item off the front, or leaves the buffer until more has arrived.  If it
  `Delimits` the items, it gets them in order, whenever it is called and
  however they are cut.
-/
import Mathlib

namespace Lib

variable {β ε α ι : Type*}

/-! ## Decoders -/

/-- The outcome of a call and what is left of the buffer. -/
abbrev Decoder (β ε α : Type*) := List β → Except ε (Option α) × List β

/-- The decoder tells the items satisfying `ok` apart by their encodings `wire`. -/
structure Delimits (decode : Decoder β ε α) (wire : ι → List β) (value : ι → α)
    (ok : ι → Prop) : Prop where
  idle : decode [] = (.ok none, [])
  whole : ∀ i rest, ok i → decode (wire i ++ rest) = (.ok (some (value i)), rest)
  part : ∀ i p, ok i → p <+: wire i → p ≠ wire i → decode p = (.ok none, p)

/-- A buffer, and what the decoder gave so far. -/
structure Reader (β ε α : Type*) where
  buffer : List β
  yielded : List (Except ε α)

namespace Reader

/-- A reader before anything arrived. -/
def empty : Reader β ε α := { buffer := [], yielded := [] }

/-- A chunk arrives. -/
def fill (r : Reader β ε α) (chunk : List β) : Reader β ε α :=
  { r with buffer := r.buffer ++ chunk }

/-- One call of the decoder. -/
def poll (decode : Decoder β ε α) (r : Reader β ε α) : Reader β ε α :=
  match decode r.buffer with
  | (.ok none, buffer) => { r with buffer }
  | (.ok (some a), buffer) => { buffer, yielded := r.yielded ++ [.ok a] }
  | (.error e, buffer) => { buffer, yielded := r.yielded ++ [.error e] }

/-- Call the decoder until it wants more bytes or fails. -/
def drain (decode : Decoder β ε α) : ℕ → Reader β ε α → Reader β ε α
  | 0, r => r
  | fuel + 1, r =>
    match decode r.buffer with
    | (.ok none, buffer) => { r with buffer }
    | (.ok (some a), buffer) => drain decode fuel { buffer, yielded := r.yielded ++ [.ok a] }
    | (.error e, buffer) => { buffer, yielded := r.yielded ++ [.error e] }

/-- A chunk arrives and what it completes is decoded; a decoded item takes a byte at least. -/
def readChunk (decode : Decoder β ε α) (r : Reader β ε α) (chunk : List β) : Reader β ε α :=
  drain decode ((r.fill chunk).buffer.length + 1) (r.fill chunk)

/-- A stream read chunk by chunk. -/
def readCuts (decode : Decoder β ε α) (cuts : List (List β)) : Reader β ε α :=
  cuts.foldl (readChunk decode) empty

end Reader

/-- What can happen to a reader. -/
inductive ReadStep (β : Type*) where
  | fill (chunk : List β)
  | poll

namespace ReadStep

/-- One of them. -/
def apply (decode : Decoder β ε α) (r : Reader β ε α) : ReadStep β → Reader β ε α
  | fill chunk => r.fill chunk
  | poll => r.poll decode

/-- The bytes that arrive in a step. -/
def arriving : ReadStep β → List β
  | fill chunk => chunk
  | poll => []

/-- The reader after some steps. -/
def run (decode : Decoder β ε α) (steps : List (ReadStep β)) : Reader β ε α :=
  steps.foldl (apply decode) .empty

/-- The bytes that arrived in some steps. -/
def arrived (steps : List (ReadStep β)) : List β := steps.flatMap arriving

end ReadStep

/-! ## Reading in step with the stream -/

/-- The reader has yielded the first `items`; `fed` are their encodings and what is in the buffer.
    -/
def ReadSoFar (wire : ι → List β) (value : ι → α) (items : List ι) (fed : List β)
    (r : Reader β ε α) : Prop :=
  ∃ done todo, items = done ++ todo ∧ r.yielded = done.map (fun i => .ok (value i)) ∧
    done.flatMap wire ++ r.buffer = fed

namespace Delimits

variable {decode : Decoder β ε α} {wire : ι → List β} {value : ι → α} {ok : ι → Prop}
  {items : List ι} {fed : List β} {r : Reader β ε α}

theorem wire_ne_nil (h : Delimits decode wire value ok) {i : ι} (hi : ok i) : wire i ≠ [] := by
  intro hnil
  have hwhole := h.whole i [] hi
  rw [hnil, List.nil_append, h.idle] at hwhole
  simp at hwhole

theorem decode_cases (h : Delimits decode wire value ok) {todo : List ι} (hok : ∀ i ∈ todo, ok i)
    {b : List β} (hb : b <+: todo.flatMap wire) :
    (∃ i rest b', todo = i :: rest ∧ b = wire i ++ b' ∧ b' <+: rest.flatMap wire ∧
      decode b = (.ok (some (value i)), b')) ∨
    (decode b = (.ok none, b) ∧ ∀ i rest, todo = i :: rest → ¬ wire i <+: b) := by
  cases todo with
  | nil =>
    have hnil : b = [] := by simpa using hb
    subst hnil
    exact .inr ⟨h.idle, fun i rest he => by cases he⟩
  | cons i rest =>
    have hi := hok i List.mem_cons_self
    rw [List.flatMap_cons] at hb
    rcases List.prefix_or_prefix_of_prefix hb (List.prefix_append (wire i) _) with hle | hle
    · by_cases heq : b = wire i
      · refine .inl ⟨i, rest, [], rfl, by rw [heq, List.append_nil], List.nil_prefix, ?_⟩
        rw [heq, ← List.append_nil (wire i)]
        exact h.whole i [] hi
      · refine .inr ⟨h.part i b hi hle heq, ?_⟩
        rintro j rest' he hj
        cases he
        exact heq (hle.eq_of_length_le hj.length_le)
    · obtain ⟨b', rfl⟩ := hle
      exact .inl ⟨i, rest, b', rfl, rfl, (List.prefix_append_right_inj _).1 hb,
        h.whole i b' hi⟩

theorem readSoFar_empty (wire : ι → List β) (value : ι → α) (items : List ι) :
    ReadSoFar wire value items [] (Reader.empty : Reader β ε α) :=
  ⟨[], items, rfl, rfl, rfl⟩

theorem readSoFar_fill (hr : ReadSoFar wire value items fed r) (chunk : List β) :
    ReadSoFar wire value items (fed ++ chunk) (r.fill chunk) := by
  obtain ⟨done, todo, hitems, hyielded, hfed⟩ := hr
  refine ⟨done, todo, hitems, hyielded, ?_⟩
  show done.flatMap wire ++ (r.buffer ++ chunk) = fed ++ chunk
  rw [← List.append_assoc, hfed]

theorem buffer_prefix {done todo : List ι} (hfed : done.flatMap wire ++ r.buffer = fed)
    (hstream : fed <+: (done ++ todo).flatMap wire) : r.buffer <+: todo.flatMap wire := by
  rw [← hfed, List.flatMap_append] at hstream
  exact (List.prefix_append_right_inj _).1 hstream

theorem readSoFar_poll (h : Delimits decode wire value ok) (hok : ∀ i ∈ items, ok i)
    (hr : ReadSoFar wire value items fed r) (hstream : fed <+: items.flatMap wire) :
    ReadSoFar wire value items fed (r.poll decode) := by
  obtain ⟨done, todo, rfl, hyielded, hfed⟩ := hr
  have hb := buffer_prefix hfed hstream
  rcases h.decode_cases (fun i hi => hok i (List.mem_append_right _ hi)) hb with
    ⟨i, rest, b', rfl, hwire, -, hd⟩ | ⟨hd, -⟩
  · refine ⟨done ++ [i], rest, by simp, ?_, ?_⟩
    · simp [Reader.poll, hd, hyielded]
    · rw [← hfed, hwire]
      simp [Reader.poll, ← hwire, hd]
  · refine ⟨done, todo, rfl, ?_, ?_⟩
    · simp [Reader.poll, hd, hyielded]
    · simp [Reader.poll, hd, hfed]

/-- **In step.**  In any order of arrivals and calls, as long as what arrived is a prefix of
    the stream of the `items`, the reader has yielded the first of them and has taken from the
    stream no more than their encodings. -/
theorem run_readSoFar (h : Delimits decode wire value ok) (hok : ∀ i ∈ items, ok i)
    (steps : List (ReadStep β)) (hstream : ReadStep.arrived steps <+: items.flatMap wire) :
    ReadSoFar wire value items (ReadStep.arrived steps) (ReadStep.run decode steps) := by
  induction steps using List.reverseRecOn with
  | nil => exact readSoFar_empty wire value items
  | append_singleton steps t ih =>
    have harr : ReadStep.arrived (steps ++ [t]) = ReadStep.arrived steps ++ t.arriving := by
      simp [ReadStep.arrived]
    have hrun : ReadStep.run decode (steps ++ [t]) = t.apply decode (ReadStep.run decode steps) := by
      simp [ReadStep.run]
    rw [harr] at hstream ⊢
    rw [hrun]
    have hprev := ih ((List.prefix_append _ _).trans hstream)
    cases t with
    | fill chunk => exact readSoFar_fill hprev chunk
    | poll =>
      rw [ReadStep.arriving, List.append_nil] at hstream ⊢
      exact h.readSoFar_poll hok hprev hstream

/-! ## Draining -/

theorem drain_readSoFar (h : Delimits decode wire value ok) (hok : ∀ i ∈ items, ok i) (fuel : ℕ) :
    ∀ r : Reader β ε α, r.buffer.length < fuel → ReadSoFar wire value items fed r →
      fed <+: items.flatMap wire →
      ReadSoFar wire value items fed (r.drain decode fuel) ∧
        decode (r.drain decode fuel).buffer = (.ok none, (r.drain decode fuel).buffer) := by
  induction fuel with
  | zero =>
    intro r hfuel
    omega
  | succ fuel ih =>
    intro r hfuel hr hstream
    have hpoll := h.readSoFar_poll hok hr hstream
    obtain ⟨done, todo, rfl, hyielded, hfed⟩ := hr
    have hb := buffer_prefix hfed hstream
    rcases h.decode_cases (fun i hi => hok i (List.mem_append_right _ hi)) hb with
      ⟨i, rest, b', rfl, hwire, -, hd⟩ | ⟨hd, -⟩
    · have hne := h.wire_ne_nil (hok i (List.mem_append_right _ List.mem_cons_self))
      have hlt : b'.length < fuel := by
        have hpos := List.length_pos_iff.2 hne
        rw [hwire, List.length_append] at hfuel
        omega
      simp only [Reader.poll, hd] at hpoll
      simp only [Reader.drain, hd]
      exact ih _ hlt hpoll hstream
    · simp only [Reader.drain, hd]
      exact ⟨⟨done, todo, rfl, hyielded, hfed⟩, trivial⟩

theorem all_yielded (h : Delimits decode wire value ok) (hok : ∀ i ∈ items, ok i)
    (hr : ReadSoFar wire value items (items.flatMap wire) r)
    (hidle : decode r.buffer = (.ok none, r.buffer)) :
    r = { buffer := [], yielded := items.map (fun i => .ok (value i)) } := by
  obtain ⟨done, todo, rfl, hyielded, hfed⟩ := hr
  have hb : r.buffer = todo.flatMap wire := by
    rw [List.flatMap_append] at hfed
    exact List.append_cancel_left hfed
  cases todo with
  | nil =>
    cases r
    simp_all
  | cons i rest =>
    have hwhole := h.whole i (rest.flatMap wire) (hok i (List.mem_append_right _ List.mem_cons_self))
    rw [hb, List.flatMap_cons, hwhole] at hidle
    simp at hidle

theorem readCuts_readSoFar (h : Delimits decode wire value ok) (hok : ∀ i ∈ items, ok i)
    (cuts : List (List β)) (hstream : cuts.flatten <+: items.flatMap wire) :
    ReadSoFar wire value items cuts.flatten (Reader.readCuts decode cuts) ∧
      decode (Reader.readCuts decode cuts).buffer =
        (.ok none, (Reader.readCuts decode cuts).buffer) := by
  induction cuts using List.reverseRecOn with
  | nil => exact ⟨readSoFar_empty wire value items, h.idle⟩
  | append_singleton cuts chunk ih =>
    have hrun : Reader.readCuts decode (cuts ++ [chunk]) =
        (Reader.readCuts decode cuts).readChunk decode chunk := by
      simp [Reader.readCuts]
    have hflat : (cuts ++ [chunk]).flatten = cuts.flatten ++ chunk := by simp
    rw [hflat] at hstream ⊢
    rw [hrun]
    have hprev := (ih ((List.prefix_append _ _).trans hstream)).1
    exact h.drain_readSoFar hok _ _ (Nat.lt_succ_self _) (readSoFar_fill hprev chunk) hstream

/-- **A stream cut anywhere gives its items.**  Drained after every chunk, the reader yields
    each item once, in order, and nothing is left over. -/
theorem readCuts_eq (h : Delimits decode wire value ok) (hok : ∀ i ∈ items, ok i)
    (cuts : List (List β)) (hcuts : cuts.flatten = items.flatMap wire) :
    Reader.readCuts decode cuts =
      { buffer := [], yielded := items.map (fun i => .ok (value i)) } := by
  have hread := h.readCuts_readSoFar hok cuts (by rw [hcuts])
  rw [hcuts] at hread
  exact h.all_yielded hok hread.1 hread.2

end Delimits

end Lib
