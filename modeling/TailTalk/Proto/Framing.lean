/-
  Framing of the daemon's messages — a LEB128 length before each message.

  The encoder and the datagram decoder leave the prefix to the protobuf
  library; the stream decoder reads it itself and refuses a message over
  `MAX_MESSAGE_LEN`, which the encoder does not: `carried_iff`.
-/
import TailTalk.Lib.Framing
import TailTalk.Lib.Leb128

namespace TailTalk.Proto

open Lib

/-- Largest accepted encoded message. -/
def MAX_MESSAGE_LEN : ℕ := 65535

/-! ## The protobuf library -/

/-- What the library does with the messages of a type. -/
structure Prost (M E : Type) where
  /-- a message without its length -/
  body : M → Bytes
  decode : Bytes → Except E M
  /-- append a message and its length to a buffer -/
  encodeLengthDelimited : M → Bytes → Except E Bytes
  /-- take a message and its length off a buffer; a length is a byte at least -/
  decodeLengthDelimited : (b : Bytes) → Except E (M × { rest : Bytes // rest.length < b.length })

namespace Prost

variable {M E : Type} (prost : Prost M E)

/-- A message with its length before it. -/
def delimited (m : M) : Bytes := Leb128.encode (prost.body m).length ++ prost.body m

/-- The length is a minimal varint, and a message is read back from its body. -/
structure Lawful : Prop where
  decode_body : ∀ m, prost.decode (prost.body m) = .ok m
  encode_eq : ∀ m dst out, prost.encodeLengthDelimited m dst = .ok out →
    out = dst ++ prost.delimited m
  decode_delimited : ∀ m rest, ∃ h, prost.decodeLengthDelimited (prost.delimited m ++ rest) =
    .ok (m, ⟨rest, h⟩)

end Prost

/-! ## The codec -/

/-- Why bytes are refused. -/
inductive CodecError (E : Type) where
  | prefixTooLong
  | frameTooLong (len : ℕ)
  | prost (e : E)

section
variable {M E : Type} (prost : Prost M E)

namespace TailTalkCodec

/-- Append a message to the output buffer. -/
def encode (item : M) (dst : Bytes) : Except (CodecError E) Bytes :=
  match prost.encodeLengthDelimited item dst with
  | .ok dst => .ok dst
  | .error e => .error (.prost e)

/-- Messages encoded one after another. -/
def encodeAll : List M → Bytes → Except (CodecError E) Bytes
  | [], dst => .ok dst
  | m :: msgs, dst => do
    let dst ← encode prost m dst
    encodeAll msgs dst

/-- The length prefix takes five bytes at most, of seven bits each. -/
def decode : Decoder UInt8 (CodecError E) M := fun src =>
  match Leb128.readPart 28 0 0 src with
  | .more => (.ok none, src)
  | .tooLong => (.error .prefixTooLong, src)
  | .number len rest =>
    if MAX_MESSAGE_LEN < len then (.error (.frameTooLong len), src)
    else if rest.length < len then (.ok none, src)
    else
      match prost.decode (rest.take len) with
      | .ok msg => (.ok (some msg), rest.drop len)
      | .error e => (.error (.prost e), rest.drop len)

end TailTalkCodec

/-- The messages of a datagram, after those in `out`. -/
def datagramFrom (out : List M) (buf : Bytes) : Except (CodecError E) (List M) :=
  if buf = [] then .ok out
  else
    match prost.decodeLengthDelimited buf with
    | .ok (msg, ⟨rest, _⟩) => datagramFrom (out ++ [msg]) rest
    | .error e => .error (.prost e)
termination_by buf.length

/-- All messages of a datagram. -/
def decodeDatagram (buf : Bytes) : Except (CodecError E) (List M) := datagramFrom prost [] buf

/-- The peer gets exactly the messages out of the stream: in any pieces, it never fails and takes
    no byte of a message that is not there whole, and the stream decodes as a datagram too. -/
structure Carried (msgs : List M) (stream : Bytes) : Prop where
  cut : ∀ cuts : List Bytes, cuts.flatten = stream →
    Reader.readCuts (TailTalkCodec.decode prost) cuts = { buffer := [], yielded := msgs.map .ok }
  inStep : ∀ steps : List (ReadStep UInt8), ReadStep.arrived steps <+: stream →
    ReadSoFar prost.delimited id msgs (ReadStep.arrived steps) (ReadStep.run (TailTalkCodec.decode prost) steps)
  datagram : decodeDatagram prost stream = .ok msgs

end

/-! ## Encoding -/

namespace Prost.Lawful

variable {M E : Type} {prost : Prost M E}

theorem delimited_ne_nil (prost : Prost M E) (m : M) : prost.delimited m ≠ [] := by
  intro h
  exact Leb128.encode_ne_nil _ (List.append_eq_nil_iff.1 h).1

theorem encodeAll_eq (h : prost.Lawful) (msgs : List M) :
    ∀ dst out, TailTalkCodec.encodeAll prost msgs dst = .ok out → out = dst ++ msgs.flatMap prost.delimited := by
  induction msgs with
  | nil =>
    intro dst out hout
    cases hout
    rw [List.flatMap_nil, List.append_nil]
  | cons m msgs ih =>
    intro dst out hout
    unfold TailTalkCodec.encodeAll TailTalkCodec.encode at hout
    cases hm : prost.encodeLengthDelimited m dst with
    | error e =>
      rw [hm] at hout
      cases hout
    | ok dst' =>
      rw [hm] at hout
      rw [ih dst' out hout, h.encode_eq m dst dst' hm, List.flatMap_cons, List.append_assoc]

theorem datagramFrom_eq (h : prost.Lawful) (msgs : List M) :
    ∀ out, datagramFrom prost out (msgs.flatMap prost.delimited) = .ok (out ++ msgs) := by
  induction msgs with
  | nil =>
    intro out
    rw [List.flatMap_nil, datagramFrom, if_pos rfl, List.append_nil]
  | cons m msgs ih =>
    intro out
    have hne : (m :: msgs).flatMap prost.delimited ≠ [] := by
      rw [List.flatMap_cons]
      exact List.append_ne_nil_of_left_ne_nil (delimited_ne_nil prost m) _
    obtain ⟨hlt, hread⟩ : ∃ hlt, prost.decodeLengthDelimited ((m :: msgs).flatMap prost.delimited) =
        .ok (m, ⟨msgs.flatMap prost.delimited, hlt⟩) := h.decode_delimited m _
    rw [datagramFrom, if_neg hne]
    simp only [hread]
    rw [ih, List.append_assoc, List.singleton_append]

/-! ## Decoding -/

/-- **One message.**  A message within the limit is taken whole, and nothing of one that is
    not there whole. -/
theorem decode_delimits (h : prost.Lawful) :
    Delimits (TailTalkCodec.decode prost) prost.delimited id
      (fun m => (prost.body m).length ≤ MAX_MESSAGE_LEN) where
  idle := rfl
  whole := by
    intro m rest hm
    have hlen : (Leb128.encode (prost.body m).length).length ≤ 3 :=
      Leb128.length_encode_le 2 _ (by unfold MAX_MESSAGE_LEN at hm; omega)
    have hread : Leb128.readPart 28 0 0 (prost.delimited m ++ rest) =
        .number (prost.body m).length (prost.body m ++ rest) := by
      rw [Prost.delimited, List.append_assoc]
      rcases Leb128.readPart_encode 28 (prost.body m).length 0 0 (prost.body m ++ rest)
        (by decide) with hread | ⟨hlong, -⟩
      · rw [hread]
        simp
      · omega
    have hroom : ¬ (prost.body m ++ rest).length < (prost.body m).length := by
      rw [List.length_append]
      omega
    simp only [TailTalkCodec.decode, hread, if_neg (not_lt.2 hm), if_neg hroom, List.take_left, List.drop_left,
      h.decode_body]
    rfl
  part := by
    intro m p hm hp hne
    have hlen : (Leb128.encode (prost.body m).length).length ≤ 3 :=
      Leb128.length_encode_le 2 _ (by unfold MAX_MESSAGE_LEN at hm; omega)
    rcases List.prefix_or_prefix_of_prefix hp (List.prefix_append _ (prost.body m)) with hle | hle
    · by_cases heq : p = Leb128.encode (prost.body m).length
      · have hread : Leb128.readPart 28 0 0 p = .number (prost.body m).length [] := by
          rw [heq, ← List.append_nil (Leb128.encode _)]
          rcases Leb128.readPart_encode 28 (prost.body m).length 0 0 [] (by decide) with
            hread | ⟨hlong, -⟩
          · rw [hread]
            simp
          · omega
        have hbody : ([] : Bytes).length < (prost.body m).length := by
          apply List.length_pos_iff.2
          intro hnil
          exact hne (by rw [heq, Prost.delimited, hnil, List.append_nil])
        simp only [TailTalkCodec.decode, hread, if_neg (not_lt.2 hm), if_pos hbody]
      · have hread := Leb128.readPart_front 28 (prost.body m).length 0 0 p hle heq (by omega)
        simp only [TailTalkCodec.decode, hread]
    · obtain ⟨b, rfl⟩ := hle
      have hb : b <+: prost.body m := (List.prefix_append_right_inj _).1 hp
      have hshort : b.length < (prost.body m).length := by
        refine lt_of_le_of_ne hb.length_le fun heq => hne ?_
        rw [hb.eq_of_length heq, Prost.delimited]
      have hread : Leb128.readPart 28 0 0 (Leb128.encode (prost.body m).length ++ b) =
          .number (prost.body m).length b := by
        rcases Leb128.readPart_encode 28 (prost.body m).length 0 0 b (by decide) with
          hread | ⟨hlong, -⟩
        · rw [hread]
          simp
        · omega
      simp only [TailTalkCodec.decode, hread, if_neg (not_lt.2 hm), if_pos hshort]

theorem decode_too_long (prost : Prost M E) {m : M} (hm : MAX_MESSAGE_LEN < (prost.body m).length)
    (rest : Bytes) : ∃ e src, TailTalkCodec.decode prost (prost.delimited m ++ rest) = (.error e, src) := by
  rw [Prost.delimited, List.append_assoc]
  rcases Leb128.readPart_encode 28 (prost.body m).length 0 0 (prost.body m ++ rest)
    (by decide) with hread | ⟨-, hread⟩
  · have hlen : MAX_MESSAGE_LEN < 0 + (prost.body m).length * 2 ^ 0 := by simpa using hm
    simp only [TailTalkCodec.decode, hread, if_pos hlen]
    exact ⟨_, _, rfl⟩
  · simp only [TailTalkCodec.decode, hread]
    exact ⟨_, _, rfl⟩

theorem carried_of_le (h : prost.Lawful) {msgs : List M}
    (hle : ∀ m ∈ msgs, (prost.body m).length ≤ MAX_MESSAGE_LEN) :
    Carried prost msgs (msgs.flatMap prost.delimited) where
  cut := fun cuts hcuts => h.decode_delimits.readCuts_eq hle cuts hcuts
  inStep := h.decode_delimits.run_readSoFar hle
  datagram := by rw [decodeDatagram, h.datagramFrom_eq, List.nil_append]

theorem le_of_carried (h : prost.Lawful) {msgs : List M}
    (hc : Carried prost msgs (msgs.flatMap prost.delimited)) :
    ∀ m ∈ msgs, (prost.body m).length ≤ MAX_MESSAGE_LEN := by
  by_contra hnot
  obtain ⟨m₀, hmem₀, hlong₀⟩ : ∃ m ∈ msgs, MAX_MESSAGE_LEN < (prost.body m).length := by
    push Not at hnot
    exact hnot
  let short := fun m => decide ((prost.body m).length ≤ MAX_MESSAGE_LEN)
  have hsplit := @List.takeWhile_append_dropWhile _ short msgs
  have hshort : ∀ m ∈ msgs.takeWhile short, (prost.body m).length ≤ MAX_MESSAGE_LEN :=
    fun m hm => of_decide_eq_true (@List.mem_takeWhile_imp _ short _ m hm)
  cases hrest : msgs.dropWhile short with
  | nil =>
    rw [hrest, List.append_nil] at hsplit
    rw [← hsplit] at hmem₀
    have := hshort m₀ hmem₀
    omega
  | cons m rest =>
    have hm : MAX_MESSAGE_LEN < (prost.body m).length := by
      have hfalse := @List.head_dropWhile_not _ short msgs (by rw [hrest]; simp)
      simp only [hrest, List.head_cons] at hfalse
      exact not_le.1 (of_decide_eq_false hfalse)
    rw [hrest] at hsplit
    generalize msgs.takeWhile short = before at hsplit hshort
    have hread := hc.cut [before.flatMap prost.delimited, (m :: rest).flatMap prost.delimited] (by
      rw [← hsplit, List.flatMap_append]
      simp)
    have hbefore := h.decode_delimits.readCuts_eq hshort [before.flatMap prost.delimited] (by simp)
    obtain ⟨e, src, hfail⟩ := decode_too_long prost hm (rest.flatMap prost.delimited)
    have hlast : Reader.readCuts (TailTalkCodec.decode prost)
        [before.flatMap prost.delimited, (m :: rest).flatMap prost.delimited] =
        { buffer := src, yielded := before.map .ok ++ [.error e] } := by
      have hfold : ∀ a b : Bytes, Reader.readCuts (TailTalkCodec.decode prost) [a, b] =
          (Reader.readCuts (TailTalkCodec.decode prost) [a]).readChunk (TailTalkCodec.decode prost) b := fun _ _ => rfl
      rw [hfold, hbefore, Reader.readChunk]
      simp only [Reader.fill, Reader.drain, List.nil_append, List.flatMap_cons, hfail]
      rfl
    rw [hlast] at hread
    have hyielded : before.map .ok ++ [.error e] = msgs.map (@Except.ok (CodecError E) M) :=
      congrArg Reader.yielded hread
    have hmem : .error e ∈ msgs.map (@Except.ok (CodecError E) M) := by
      rw [← hyielded]
      simp
    obtain ⟨m', -, hm'⟩ := List.mem_map.1 hmem
    cases hm'

end Prost.Lawful

/-- **Messages are carried just when they are within the limit.**  Of messages the encoder
    accepted, the stream gives them back in order, however it is cut and as one datagram, if
    and only if no message is over `MAX_MESSAGE_LEN`. -/
theorem carried_iff {M E : Type} (prost : Prost M E) (hprost : prost.Lawful) (msgs : List M)
    (stream : Bytes) (haccepted : TailTalkCodec.encodeAll prost msgs [] = .ok stream) :
    Carried prost msgs stream ↔ ∀ m ∈ msgs, (prost.body m).length ≤ MAX_MESSAGE_LEN := by
  rw [hprost.encodeAll_eq msgs [] stream haccepted, List.nil_append]
  exact ⟨hprost.le_of_carried, hprost.carried_of_le⟩

/-! ## Requests to send a payload

The library on requests whose other fields have their defaults: the request's field 6 holds
the payload as its field 4, and an empty payload is left out. -/

/-- A length-delimited field. -/
def field (key : UInt8) (body : Bytes) : Bytes := key :: (Leb128.encode body.length ++ body)

/-- A length and that many bytes off the front of a buffer. -/
def readDelimited (b : Bytes) : Option (Bytes × Bytes) :=
  match Leb128.readPart (7 * b.length) 0 0 b with
  | .number len rest => if rest.length < len then none else some (rest.take len, rest.drop len)
  | _ => none

/-- The one field of a message. -/
def readField (key : UInt8) : Bytes → Option Bytes
  | [] => none
  | k :: b =>
    if k ≠ key then none
    else
      match readDelimited b with
      | some (body, []) => some body
      | _ => none

/-- A Send request with its payload. -/
def sendBody (payload : Bytes) : Bytes :=
  field 0x32 (if payload = [] then [] else field 0x22 payload)

/-- The payload of one. -/
def readSend (body : Bytes) : Option Bytes :=
  match readField 0x32 body with
  | none => none
  | some [] => some []
  | some send => readField 0x22 send

theorem readDelimited_eq (body rest : Bytes) :
    readDelimited (Leb128.encode body.length ++ body ++ rest) = some (body, rest) := by
  have hread : Leb128.readPart (7 * (Leb128.encode body.length ++ body ++ rest).length) 0 0
      (Leb128.encode body.length ++ body ++ rest) = .number body.length (body ++ rest) := by
    rw [List.append_assoc]
    rcases Leb128.readPart_encode (7 * (Leb128.encode body.length ++ (body ++ rest)).length)
      body.length 0 0 (body ++ rest) (by decide) with hread | ⟨hlong, -⟩
    · rw [hread]
      simp
    · rw [List.length_append] at hlong
      omega
  have hroom : ¬ (body ++ rest).length < body.length := by
    rw [List.length_append]
    omega
  simp only [readDelimited, hread, if_neg hroom, List.take_left, List.drop_left]

theorem readDelimited_lt {b body rest : Bytes} (h : readDelimited b = some (body, rest)) :
    rest.length < b.length := by
  unfold readDelimited at h
  split at h
  · next len after hread =>
    have hlt := Leb128.readPart_lt b _ _ hread
    split_ifs at h
    cases h
    rw [List.length_drop]
    omega
  · cases h

theorem readField_field (key : UInt8) (body : Bytes) :
    readField key (field key body) = some body := by
  have hread := readDelimited_eq body []
  rw [List.append_nil] at hread
  simp only [readField, field, ne_eq, not_true_eq_false, if_false, hread]

theorem readSend_sendBody (payload : Bytes) : readSend (sendBody payload) = some payload := by
  by_cases hp : payload = []
  · rw [sendBody, if_pos hp, readSend, readField_field, hp]
  · rw [sendBody, if_neg hp, readSend, readField_field]
    exact readField_field 0x22 payload

/-- A request and its length off the front of a buffer. -/
def takeSend (b : Bytes) : Except Unit (Bytes × { rest : Bytes // rest.length < b.length }) :=
  match h : readDelimited b with
  | none => .error ()
  | some (body, rest) =>
    match readSend body with
    | some payload => .ok (payload, ⟨rest, readDelimited_lt h⟩)
    | none => .error ()

theorem takeSend_eq {b payload rest : Bytes}
    (hb : readDelimited b = some (sendBody payload, rest)) :
    takeSend b = .ok (payload, ⟨rest, readDelimited_lt hb⟩) := by
  unfold takeSend
  split
  · next h =>
    rw [hb] at h
    cases h
  · next body rest' h =>
    rw [hb] at h
    cases h
    simp only [readSend_sendBody]

/-- No request is refused, as long as memory lasts. -/
def sendProst : Prost Bytes Unit where
  body := sendBody
  decode b := (readSend b).elim (.error ()) .ok
  encodeLengthDelimited payload dst :=
    .ok (dst ++ (Leb128.encode (sendBody payload).length ++ sendBody payload))
  decodeLengthDelimited := takeSend

theorem sendProst_lawful : sendProst.Lawful where
  decode_body := by
    intro payload
    show (readSend (sendBody payload)).elim _ _ = _
    rw [readSend_sendBody]
    rfl
  encode_eq := by
    intro payload dst out hout
    cases hout
    rfl
  decode_delimited := by
    intro payload rest
    have hread := readDelimited_eq (sendBody payload) rest
    exact ⟨readDelimited_lt hread, takeSend_eq hread⟩

theorem length_lt_sendBody {payload : Bytes} (hp : payload ≠ []) :
    payload.length < (sendBody payload).length := by
  rw [sendBody, if_neg hp]
  simp only [field, List.length_cons, List.length_append]
  omega

theorem length_field_of_lt (key : UInt8) {body : Bytes} (h : body.length < 128) :
    (field key body).length = body.length + 2 := by
  rw [field, Leb128.encode_of_lt h]
  simp only [List.singleton_append, List.length_cons]

theorem length_sendBody_le {payload : Bytes} (h : payload.length < 100) :
    (sendBody payload).length ≤ MAX_MESSAGE_LEN := by
  have hsend := @length_field_of_lt 0x22 payload (by omega)
  unfold sendBody MAX_MESSAGE_LEN
  split_ifs
  · rw [length_field_of_lt 0x32 (by simp)]
    simp
  · rw [length_field_of_lt 0x32 (by omega), hsend]
    omega

/-- A short payload and an empty one are carried. -/
theorem short_payloads_carried :
    Carried sendProst [[1, 2], []] (sendProst.delimited [1, 2] ++ sendProst.delimited []) :=
  (carried_iff sendProst sendProst_lawful [[1, 2], []] _ rfl).2 (by
    intro payload hmem
    rcases List.mem_pair.1 hmem with rfl | rfl
    · exact length_sendBody_le (by decide)
    · exact length_sendBody_le (by decide))

/-- A payload of 65 536 bytes is accepted and not carried. -/
theorem long_payload_not_carried :
    TailTalkCodec.encodeAll sendProst [List.replicate 65536 0] [] =
        .ok (sendProst.delimited (List.replicate 65536 0)) ∧
      ¬ Carried sendProst [List.replicate 65536 0]
          (sendProst.delimited (List.replicate 65536 0)) := by
  have haccepted (payload : Bytes) : TailTalkCodec.encodeAll sendProst [payload] [] =
      .ok (sendProst.delimited payload) := rfl
  refine ⟨haccepted _, fun hc => ?_⟩
  rw [← List.flatMap_singleton sendProst.delimited] at hc
  have hle := sendProst_lawful.le_of_carried hc _ (List.mem_singleton_self _)
  have hlt : (List.replicate 65536 (0 : UInt8)).length <
      (sendBody (List.replicate 65536 0)).length :=
    length_lt_sendBody (List.ne_nil_of_length_pos (by rw [List.length_replicate]; decide))
  rw [List.length_replicate] at hlt
  have hbody : (sendBody (List.replicate 65536 0)).length ≤ 65535 := hle
  omega

end TailTalk.Proto
