/-
  The NBP codec, both ways.

  A packet is read back from its bytes just when its operation fits the high
  nibble of the control byte (`fromBytes_toBytes_iff`).  What is read is
  written back as the bytes it was read from, and nothing after them was looked
  at (`toBytes_fromBytes`).
-/
import TailTalk.Lib.Codec
import TailTalk.Packets.Nbp

namespace TailTalk

open Lib

/-! ## Entity names -/

namespace EntityName

theorem component_inverse : Inverse component componentBytes where
  reads := by
    rintro ⟨bytes, hbytes⟩ rest
    have hlen : (UInt8.ofNat bytes.length).toNat = bytes.length := by
      rw [UInt8.toNat_ofNat']
      unfold MAX_NBP_NAME at hbytes
      omega
    have hroom : ¬ (bytes ++ rest).length < bytes.length := by
      rw [List.length_append]
      omega
    show component (UInt8.ofNat bytes.length :: (bytes ++ rest)) = _
    simp only [component, hlen, if_neg hroom, List.take_left, List.drop_left, NbpName.fromWire,
      dif_pos hbytes]
  canonical := by
    rintro b ⟨bytes, hbytes⟩ rest hb
    cases b with
    | nil => cases hb
    | cons length after =>
      rw [component] at hb
      split_ifs at hb with hroom
      unfold NbpName.fromWire at hb
      by_cases hname : (after.take length.toNat).length ≤ MAX_NBP_NAME
      · simp only [dif_pos hname, Except.ok.injEq, Prod.mk.injEq, Subtype.mk.injEq] at hb
        obtain ⟨rfl, rfl⟩ := hb
        have hlen : (after.take length.toNat).length = length.toNat := by
          rw [List.length_take]
          omega
        simp only [componentBytes, hlen, UInt8.ofNat_toNat, List.cons_append,
          List.take_append_drop]
      · simp only [dif_neg hname] at hb
        cases hb

theorem fromBytes_eq (data : Bytes) :
    fromBytes data = (Parser.seq component (Parser.seq component component) data).map fun p =>
      (⟨p.1.1, p.1.2.1, p.1.2.2⟩, p.2) := by
  unfold fromBytes Parser.seq
  cases component data with
  | error e => rfl
  | ok p =>
    obtain ⟨object, data⟩ := p
    show (component data >>= _) = _
    cases hc : component data with
    | error e => simp only [hc]; rfl
    | ok p =>
      obtain ⟨entityType, data⟩ := p
      show (component data >>= _) = _
      cases hc' : component data with
      | error e => simp only [hc, hc']; rfl
      | ok p => simp only [hc, hc']; rfl

theorem fromBytes_inverse : Inverse fromBytes wire := by
  have hparts := (component_inverse.seq (component_inverse.seq component_inverse)).map
    (fun p => EntityName.mk p.1 p.2.1 p.2.2) (fun n => (n.object, n.entityType, n.zone))
    (fun _ => rfl) (fun _ => rfl)
  have hread : fromBytes = _ := funext fromBytes_eq
  have hwrite : wire = fun n => componentBytes n.object ++
      (componentBytes n.entityType ++ componentBytes n.zone) :=
    funext fun n => List.append_assoc _ _ _
  rw [hread, hwrite]
  exact hparts

end EntityName

/-! ## Tuples -/

namespace NbpTuple

/-- The bytes of a tuple. -/
def wire (t : NbpTuple) : Bytes :=
  be16 t.networkNumber ++ [t.nodeId, t.socketNumber, t.enumerator] ++ t.entityName.wire

/-- One tuple off the front of `data`. -/
def read : Parser UInt8 NbpError NbpTuple
  | net₁ :: net₀ :: nodeId :: socketNumber :: enumerator :: data =>
    match EntityName.fromBytes data with
    | .error e => .error e
    | .ok (entityName, rest) =>
      .ok ({ networkNumber := ofBe16 net₁ net₀, nodeId, socketNumber, enumerator, entityName },
        rest)
  | _ => .error .tooShort

theorem read_inverse : Inverse read wire where
  reads := by
    intro t rest
    have hname := EntityName.fromBytes_inverse.reads t.entityName rest
    show read (_ :: _ :: t.nodeId :: t.socketNumber :: t.enumerator ::
      (t.entityName.wire ++ rest)) = _
    simp only [read, hname, ofBe16_be16]
  canonical := by
    intro b t rest hb
    unfold read at hb
    split at hb
    · next net₁ net₀ nodeId socketNumber enumerator data =>
      split at hb
      · cases hb
      · next entityName rest' hname =>
        cases hb
        rw [EntityName.fromBytes_inverse.canonical data entityName rest hname]
        simp [wire, be16_ofBe16]
    · cases hb

end NbpTuple

namespace NbpPacket

theorem tuplesFromBytes_error (tuples : List NbpTuple) (count : ℕ)
    (net₁ net₀ nodeId socketNumber enumerator : UInt8) {data : Bytes} {e : NbpError}
    (hname : EntityName.fromBytes data = .error e) :
    tuplesFromBytes tuples (count + 1)
      (net₁ :: net₀ :: nodeId :: socketNumber :: enumerator :: data) = .error e := by
  have hlen : ¬ (net₁ :: net₀ :: nodeId :: socketNumber :: enumerator :: data).length < 5 := by
    simp
  rw [tuplesFromBytes, dif_neg hlen]
  simp only [List.drop_succ_cons, List.drop_zero, hname]

theorem tuplesFromBytes_ok {tuples : List NbpTuple} (hroom : tuples.length < MAX_NBP_TUPLES)
    (count : ℕ) (net₁ net₀ nodeId socketNumber enumerator : UInt8) {data rest : Bytes}
    {entityName : EntityName} (hname : EntityName.fromBytes data = .ok (entityName, rest)) :
    tuplesFromBytes tuples (count + 1)
      (net₁ :: net₀ :: nodeId :: socketNumber :: enumerator :: data) =
        tuplesFromBytes (tuples ++ [{
          networkNumber := ofBe16 net₁ net₀, nodeId, socketNumber, enumerator, entityName }])
          count rest := by
  have hlen : ¬ (net₁ :: net₀ :: nodeId :: socketNumber :: enumerator :: data).length < 5 := by
    simp
  rw [tuplesFromBytes, dif_neg hlen]
  simp only [List.drop_succ_cons, List.drop_zero, hname, if_pos hroom]
  rfl

theorem tuplesFromBytes_eq (count : ℕ) :
    ∀ (tuples : List NbpTuple) (data : Bytes), tuples.length + count ≤ MAX_NBP_TUPLES →
      tuplesFromBytes tuples count data =
        (NbpTuple.read.list count data).map fun p => tuples ++ p.1 := by
  induction count with
  | zero =>
    intro tuples data _
    show Except.ok tuples = .ok (tuples ++ [])
    rw [List.append_nil]
  | succ count ih =>
    intro tuples data hcount
    have hroom : tuples.length < MAX_NBP_TUPLES := by omega
    rcases data with _ | ⟨net₁, _ | ⟨net₀, _ | ⟨nodeId, _ | ⟨socketNumber, _ | ⟨enumerator, data⟩⟩⟩⟩⟩
    · rfl
    · rfl
    · rfl
    · rfl
    · rfl
    · rw [Parser.list, NbpTuple.read]
      cases hname : EntityName.fromBytes data with
      | error e =>
        rw [tuplesFromBytes_error _ _ _ _ _ _ _ hname]
        rfl
      | ok p =>
        obtain ⟨entityName, rest⟩ := p
        rw [tuplesFromBytes_ok hroom _ _ _ _ _ _ hname, ih _ rest (by
          simp only [List.length_append, List.length_singleton]
          omega)]
        dsimp only
        cases NbpTuple.read.list count rest with
        | error e => rfl
        | ok p => simp [Except.map]

/-- The operation and the number of tuples in one byte. -/
def control (p : NbpPacket) : UInt8 :=
  (p.operation.code <<< 4) ||| (UInt8.ofNat p.tuples.length &&& 0x0F)

/-- The two bytes before the tuples. -/
def header (p : NbpPacket) : Bytes := [p.control, p.transactionId]

/-- The bytes of a packet. -/
def wire (p : NbpPacket) : Bytes := p.header ++ p.tuples.flatMap NbpTuple.wire

theorem tuplesToBytes_eq (size : ℕ) (tuples : List NbpTuple) :
    ∀ out, out.length ≤ size →
      (out.length + (tuples.flatMap NbpTuple.wire).length ≤ size →
        tuplesToBytes size out tuples = .ok (out ++ tuples.flatMap NbpTuple.wire)) ∧
      (∀ b, tuplesToBytes size out tuples = .ok b →
        b = out ++ tuples.flatMap NbpTuple.wire ∧ b.length ≤ size) := by
  induction tuples with
  | nil =>
    intro out hout
    refine ⟨fun _ => by simp [tuplesToBytes], fun b hb => ?_⟩
    cases hb
    exact ⟨by simp, hout⟩
  | cons t tuples ih =>
    intro out hout
    have hbytes : out ++ be16 t.networkNumber ++ [t.nodeId, t.socketNumber, t.enumerator] ++
        t.entityName.wire = out ++ t.wire := by
      simp [NbpTuple.wire]
    have hlen : t.wire.length = 5 + t.entityName.wire.length := by
      simp only [NbpTuple.wire, List.length_append, be16_length, List.length_cons, List.length_nil]
    have hfive : (out ++ be16 t.networkNumber ++
        [t.nodeId, t.socketNumber, t.enumerator]).length = out.length + 5 := by
      simp only [List.length_append, be16_length, List.length_cons, List.length_nil]
    constructor
    · intro hfits
      rw [List.flatMap_cons, List.length_append, hlen] at hfits
      rw [tuplesToBytes, if_neg (by omega)]
      simp only [EntityName.toBytes, hfive]
      rw [if_neg (by omega)]
      simp only [hbytes]
      rw [(ih (out ++ t.wire) (by rw [List.length_append]; omega)).1
        (by rw [List.length_append]; omega), List.flatMap_cons, List.append_assoc]
    · intro b hb
      rw [tuplesToBytes] at hb
      split_ifs at hb with hshort
      simp only [EntityName.toBytes, hfive] at hb
      split_ifs at hb with hname
      simp only [hbytes] at hb
      obtain ⟨hwire, hle⟩ := (ih (out ++ t.wire) (by rw [List.length_append]; omega)).2 b hb
      rw [List.append_assoc] at hwire
      exact ⟨hwire, hle⟩

theorem toBytes_of_le {p : NbpPacket} {size : ℕ} (hsize : p.wire.length ≤ size) :
    p.toBytes size = .ok p.wire := by
  have hheader : p.header.length = 2 := rfl
  have htuples := (tuplesToBytes_eq size p.tuples p.header)
  rw [wire, List.length_append] at hsize
  rw [toBytes, if_neg (by omega)]
  exact (htuples (by omega)).1 hsize

theorem wire_of_toBytes {p : NbpPacket} {size : ℕ} {b : Bytes} (hb : p.toBytes size = .ok b) :
    b = p.wire ∧ b.length ≤ size := by
  have hheader : p.header.length = 2 := rfl
  rw [toBytes] at hb
  split_ifs at hb with hshort
  exact (tuplesToBytes_eq size p.tuples p.header (by omega)).2 b hb

theorem eq_wire_of_toBytes {p : NbpPacket} {size : ℕ} {b : Bytes} (hb : p.toBytes size = .ok b) :
    b = p.wire :=
  (wire_of_toBytes hb).1

/-- A packet that does not fit the buffer is not written. -/
theorem toBytes_of_gt {p : NbpPacket} {size : ℕ} (hsize : size < p.wire.length) :
    ∃ e, p.toBytes size = .error e := by
  rcases hb : p.toBytes size with e | b
  · exact ⟨e, rfl⟩
  · obtain ⟨rfl, hle⟩ := wire_of_toBytes hb
    exact absurd hle (Nat.not_le.2 hsize)

/-! ## Control bytes -/

theorem code_ofU8 (v : UInt8) : (NbpOperation.ofU8 v).code = v := by
  unfold NbpOperation.ofU8
  split_ifs with h1 h2 h3 h4
  · exact h1.symm
  · exact h2.symm
  · exact h3.symm
  · exact h4.symm
  · rfl

theorem control_count (op : UInt8) {n : ℕ} (hn : n ≤ MAX_NBP_TUPLES) :
    (((op <<< 4) ||| (UInt8.ofNat n &&& 0x0F)) &&& 0x0F).toNat = n := by
  have hall : ∀ op : Fin 256, ∀ n : Fin 16,
      (((UInt8.ofNat op.1 <<< 4) ||| (UInt8.ofNat n.1 &&& 0x0F)) &&& 0x0F).toNat = n.1 := by
    decide +kernel
  have hop := hall ⟨op.toNat, op.toNat_lt⟩ ⟨n, by unfold MAX_NBP_TUPLES at hn; omega⟩
  rwa [UInt8.ofNat_toNat] at hop

theorem control_operation {op : UInt8} (hop : op.toNat < 16) {n : ℕ} (hn : n ≤ MAX_NBP_TUPLES) :
    ((op <<< 4) ||| (UInt8.ofNat n &&& 0x0F)) >>> 4 = op := by
  have hall : ∀ op n : Fin 16,
      ((UInt8.ofNat op.1 <<< 4) ||| (UInt8.ofNat n.1 &&& 0x0F)) >>> 4 = UInt8.ofNat op.1 := by
    decide +kernel
  have hop := hall ⟨op.toNat, hop⟩ ⟨n, by unfold MAX_NBP_TUPLES at hn; omega⟩
  rwa [UInt8.ofNat_toNat] at hop

theorem control_eq (control : UInt8) :
    ((control >>> 4) <<< 4) ||| (UInt8.ofNat (control &&& 0x0F).toNat &&& 0x0F) = control := by
  have hall : ∀ control : Fin 256,
      ((UInt8.ofNat control.1 >>> 4) <<< 4) |||
        (UInt8.ofNat (UInt8.ofNat control.1 &&& 0x0F).toNat &&& 0x0F) = UInt8.ofNat control.1 := by
    decide +kernel
  have hcontrol := hall ⟨control.toNat, control.toNat_lt⟩
  rwa [UInt8.ofNat_toNat] at hcontrol

theorem count_le (control : UInt8) : (control &&& 0x0F).toNat ≤ MAX_NBP_TUPLES := by
  rw [UInt8.toNat_and]
  exact Nat.and_le_right

theorem operation_lt (control : UInt8) : (control >>> 4).toNat < 16 := by
  have hlt := control.toNat_lt
  rw [UInt8.toNat_shiftRight, Nat.shiftRight_eq_div_pow]
  show control.toNat / 2 ^ 4 < 16
  omega

end NbpPacket

/-- An operation that the high nibble of a control byte can say. -/
def NbpOperation.FitsNibble (op : NbpOperation) : Prop :=
  ∃ v : UInt8, v.toNat < 16 ∧ op = .ofU8 v

namespace NbpPacket

/-! ## Packets -/

theorem fromBytes_eq (control transactionId : UInt8) (data : Bytes) :
    fromBytes (control :: transactionId :: data) =
      (NbpTuple.read.list (control &&& 0x0F).toNat data).map fun p =>
        { operation := .ofU8 (control >>> 4), transactionId, tuples := p.1 } := by
  have htuples := tuplesFromBytes_eq (control &&& 0x0F).toNat [] data (by
    rw [List.length_nil, Nat.zero_add]
    exact count_le control)
  show (tuplesFromBytes [] (control &&& 0x0F).toNat data >>= _) = _
  rw [htuples]
  cases NbpTuple.read.list (control &&& 0x0F).toNat data <;> rfl

theorem fromBytes_wire {p : NbpPacket} (hp : p.tuples.length ≤ MAX_NBP_TUPLES) (rest : Bytes) :
    fromBytes (p.wire ++ rest) = .ok { p with operation := .ofU8 (p.control >>> 4) } := by
  have hread := NbpTuple.read_inverse.list_reads p.tuples rest
  have hcount : (p.control &&& 0x0F).toNat = p.tuples.length := control_count _ hp
  show fromBytes (p.control :: p.transactionId :: (p.tuples.flatMap NbpTuple.wire ++ rest)) = _
  rw [fromBytes_eq, hcount, hread]
  rfl

/-- **A packet is read back from its bytes** just when its operation fits a nibble. -/
theorem fromBytes_toBytes_iff {p : NbpPacket} (hp : p.tuples.length ≤ MAX_NBP_TUPLES) {size : ℕ}
    {b : Bytes} (hb : p.toBytes size = .ok b) :
    fromBytes b = .ok p ↔ p.operation.FitsNibble := by
  have hread := fromBytes_wire hp []
  rw [List.append_nil] at hread
  rw [eq_wire_of_toBytes hb, hread]
  constructor
  · intro heq
    exact ⟨_, operation_lt _, (congrArg operation (Except.ok.inj heq)).symm⟩
  · rintro ⟨v, hv, hop⟩
    have hcontrol : p.control >>> 4 = v := by
      rw [control, hop, code_ofU8, control_operation hv hp]
    rw [hcontrol, ← hop]

/-- **What is read is written back** as the bytes it was read from; it is read whatever follows
    them, and not from fewer. -/
theorem toBytes_fromBytes {b : Bytes} {p : NbpPacket} (hb : fromBytes b = .ok p) :
    p.wire <+: b ∧ (∀ size, p.wire.length ≤ size → p.toBytes size = .ok p.wire) ∧
      (∀ rest, fromBytes (p.wire ++ rest) = .ok p) ∧
      ∀ front, front <+: p.wire → front ≠ p.wire → ∃ e, fromBytes front = .error e := by
  match b, hb with
  | c :: transactionId :: data, hb =>
    rw [fromBytes_eq] at hb
    cases hlist : NbpTuple.read.list (c &&& 0x0F).toNat data with
    | error e =>
      rw [hlist] at hb
      cases hb
    | ok q =>
      obtain ⟨tuples, rest⟩ := q
      rw [hlist] at hb
      obtain ⟨hlen, hdata⟩ := NbpTuple.read_inverse.list_canonical _ data tuples rest hlist
      obtain rfl : { operation := .ofU8 (c >>> 4), transactionId, tuples } = p :=
        Except.ok.inj hb
      have hcontrol : control { operation := .ofU8 (c >>> 4), transactionId, tuples } = c := by
        rw [control, code_ofU8, hlen, control_eq]
      have hwire : wire { operation := .ofU8 (c >>> 4), transactionId, tuples } =
          c :: transactionId :: tuples.flatMap NbpTuple.wire := by
        rw [wire, header, hcontrol]
        rfl
      refine ⟨⟨rest, ?_⟩, fun size => toBytes_of_le, fun after => ?_, fun front hfront hne => ?_⟩
      · rw [hwire, hdata]
        rfl
      · have hcount : tuples.length ≤ MAX_NBP_TUPLES := by
          rw [hlen]
          exact count_le c
        rw [fromBytes_wire hcount, hcontrol]
      · rw [hwire] at hfront hne
        match front, hfront, hne with
        | [], _, _ => exact ⟨.tooShort, rfl⟩
        | [_], _, _ => exact ⟨.tooShort, rfl⟩
        | c' :: id' :: front, hfront, hne =>
          obtain ⟨hc, hfront⟩ := List.cons_prefix_cons.1 hfront
          obtain ⟨hid, hfront⟩ := List.cons_prefix_cons.1 hfront
          rw [hc, hid] at hne ⊢
          obtain ⟨e, he⟩ := NbpTuple.read_inverse.list_front tuples hfront (by
            rintro rfl
            exact hne rfl)
          rw [hlen] at he
          refine ⟨e, ?_⟩
          rw [fromBytes_eq, he]
          rfl

/-- **The codec, both ways.**  A packet of at most fifteen tuples that fits the buffer is read
    back just when its operation fits a nibble; and what is read is written back as the part of
    the input it was read from, which alone decides the reading. -/
theorem nbp_codec :
    (∀ (p : NbpPacket) (size : ℕ) (b : Bytes), p.tuples.length ≤ MAX_NBP_TUPLES →
      p.toBytes size = .ok b → (fromBytes b = .ok p ↔ p.operation.FitsNibble)) ∧
    (∀ (b : Bytes) (p : NbpPacket), fromBytes b = .ok p → ∃ consumed, consumed <+: b ∧
      (∀ size, consumed.length ≤ size → p.toBytes size = .ok consumed) ∧
      (∀ rest, fromBytes (consumed ++ rest) = .ok p) ∧
      ∀ front, front <+: consumed → front ≠ consumed → ∃ e, fromBytes front = .error e) :=
  ⟨fun _ _ _ hp hb => fromBytes_toBytes_iff hp hb,
    fun _ p hb => ⟨p.wire, toBytes_fromBytes hb⟩⟩

/-- A lookup of one name. -/
def lookupPacket : NbpPacket where
  operation := .lookup
  transactionId := 7
  tuples := [{
    networkNumber := 1
    nodeId := 2
    socketNumber := 254
    enumerator := 0
    entityName := {
      object := ⟨[0x3D], by decide⟩
      entityType := ⟨[0x41, 0x46, 0x50], by decide⟩
      zone := ⟨[0x2A], by decide⟩ } }]

theorem nbp_codec_lookup :
    fromBytes [0x21, 7, 0, 1, 2, 254, 0, 1, 0x3D, 3, 0x41, 0x46, 0x50, 1, 0x2A] =
      .ok lookupPacket :=
  (nbp_codec.1 lookupPacket 586 _ (by decide) rfl).2 ⟨2, by decide, rfl⟩

/-- An operation over fifteen loses its high bits on the wire. -/
theorem unknown_operation_not_kept :
    toBytes { operation := .unknown 16, transactionId := 0, tuples := [] } 2 = .ok [0, 0] ∧
      fromBytes [0, 0] ≠ .ok { operation := .unknown 16, transactionId := 0, tuples := [] } := by
  refine ⟨rfl, fun h => ?_⟩
  have hop : NbpOperation.unknown 0 = NbpOperation.unknown 16 :=
    congrArg operation (Except.ok.inj h)
  exact absurd hop (by decide)

end NbpPacket

end TailTalk
