/-
  The ZIP client — what it learns of a cable, and who waits for it.

  The client asks for its zone and the range of its cables; a reply moves the
  address of the interface it came over, names its range and ties the zone to
  it.  Who waits has asked for a round that is not over.
-/
import TailTalk.Afp.Names
import TailTalk.Packets.Zip
import TailTalk.Routes.Rtmp

namespace TailTalk

open Lib

namespace ZoneName

/-- The name as text; the buffer it goes to has room for three bytes of each character. -/
def decode (z : ZoneName) : Zone := z.1.map macintoshChar

/-- A text as a name, if every character has a byte and there is room for them. -/
def ofText (text : Zone) : Option ZoneName :=
  if text.all fun c => macintoshChar (macintoshByte c) = c then fromWire (text.map macintoshByte)
  else none

end ZoneName

/-! ## Moving into a range -/

/-- The address, the numbers that are drawn, and what each probe says. -/
structure AcquireAnswers where
  addr : Option AppleTalkAddress
  draws : ℕ → ℕ × ℕ
  probes : ℕ → Option Bool

/-- A number of a range; an empty one has none. -/
def sampleSingle (lo hi : UInt16) (draw : ℕ) : Except Unit UInt16 :=
  if lo ≤ hi then .ok (UInt16.ofNat (lo.toNat + draw % (hi.toNat - lo.toNat + 1))) else .error ()

/-- An empty range panics. -/
def randomRange (lo hi : UInt16) (draw : ℕ) : Checked UInt16 := unwrap (sampleSingle lo hi draw)

namespace AddressingHandle

/-- Nodes that are tried on a new network. -/
def MAX_CANDIDATES : ℕ := 8

/-- The first of the last `n` candidates that nobody answers for. -/
def tryCandidates (lo hi : UInt16) (e : AcquireAnswers) : ℕ → Checked (Option AppleTalkAddress)
  | 0 => pure none
  | n + 1 => do
    let draw := e.draws (MAX_CANDIDATES - (n + 1))
    let networkNumber ← randomRange lo hi draw.1
    let candidate : AppleTalkAddress := ⟨networkNumber, UInt8.ofNat (1 + draw.2 % 253)⟩
    match e.probes (MAX_CANDIDATES - (n + 1)) with
    | some true => pure (some candidate)
    | some false => tryCandidates lo hi e n
    | none => pure none

/-- The address that an EtherTalk interface is given, if it is not in the range. -/
def acquireInRange (lo hi : UInt16) (e : AcquireAnswers) : Checked (Option AppleTalkAddress) :=
  match e.addr with
  | none => pure none
  | some cur =>
    if lo ≤ cur.networkNumber ∧ cur.networkNumber ≤ hi then pure none
    else tryCandidates lo hi e MAX_CANDIDATES

/-- The address that a LocalTalk interface is given, if it has another network number. -/
def adoptNetworkNumber (net : UInt16) (e : AcquireAnswers) : Option AppleTalkAddress :=
  match e.addr with
  | none => none
  | some cur => if cur.networkNumber ≠ net then some ⟨net, cur.nodeNumber⟩ else none

theorem returns_randomRange {lo hi : UInt16} (h : lo ≤ hi) (draw : ℕ) :
    Returns (randomRange lo hi draw) := by
  rw [randomRange, sampleSingle, if_pos h]
  exact returns_ok _

theorem returns_tryCandidates {lo hi : UInt16} (h : lo ≤ hi) (e : AcquireAnswers) (n : ℕ) :
    Returns (tryCandidates lo hi e n) := by
  induction n with
  | zero => exact returns_pure _
  | succ n ih =>
    refine (returns_bind_iff fun net => ?_).2 (returns_randomRange h _)
    cases e.probes (MAX_CANDIDATES - (n + 1)) with
    | none => exact returns_pure _
    | some free =>
      cases free with
      | true => exact returns_pure _
      | false => exact ih

/-- **A range with a number in it can be moved into.** -/
theorem returns_acquireInRange {lo hi : UInt16} (h : lo ≤ hi) (e : AcquireAnswers) :
    Returns (acquireInRange lo hi e) := by
  unfold acquireInRange
  cases e.addr with
  | none => exact returns_pure _
  | some cur =>
    dsimp only
    split_ifs
    · exact returns_pure _
    · exact returns_tryCandidates h e MAX_CANDIDATES

end AddressingHandle

/-! ## The client -/

/-- What the client does, `ι` being the callers. -/
inductive ZipAct (ι : Type) where
  | send (payload : Bytes)
  | acquireInRange (lo hi : UInt16)
  | setAddr (interface : Interface) (addr : AppleTalkAddress)
  | call (op : Operation)
  | saveZone (name : Zone)
  /-- a caller waits, and no longer does -/
  | asked (caller : ι)
  | released (caller : ι)
deriving DecidableEq

/-- The client, its interfaces and the calls it has made. -/
structure Zip (ι : Type) where
  etAddressing : Bool
  ltAddressing : Bool
  /-- whether the zone is kept in a file -/
  zoneCache : Bool
  rememberedZone : Option Zone
  /-- 0 where no round is on -/
  attemptsLeft : ℕ
  refreshWaiters : List ι
  log : List (ZipAct ι)

namespace GetNetInfoReply

/-- The default zone, where the router rejected ours or we sent none. -/
def chosenZone (r : GetNetInfoReply) : Option ZoneName :=
  if r.zoneInvalid ∨ r.zone.isEmpty then
    match r.defaultZone.filter fun z => !z.isEmpty with
    | some zone => some zone
    | none => if r.zone.isEmpty then none else some r.zone
  else some r.zone

/-- The call that names the range of the cable. -/
def rangeCalls (r : GetNetInfoReply) (iface : Interface) : List Operation :=
  if r.rangeStart ≠ 0 then [.setLocalRangeFor iface r.rangeStart r.rangeEnd] else []

/-- The calls that a reply makes for its zone. -/
def zoneCalls (r : GetNetInfoReply) : List Operation :=
  r.chosenZone.toList.map fun zone => .insertZone zone.decode [⟨r.rangeStart, r.rangeEnd⟩]

end GetNetInfoReply

namespace Zip

variable {ι : Type}

/-- Requests in a round. -/
def GNI_MAX_ATTEMPTS : ℕ := 3

/-- What it does, in the log. -/
def act (z : Zip ι) (acts : List (ZipAct ι)) : Zip ι := { z with log := z.log ++ acts }

/-- The request names the zone we remember, if it can be written. -/
def sendRequest (z : Zip ι) : Zip ι :=
  match GetNetInfoRequest.toBytes ⟨(z.rememberedZone.bind ZoneName.ofText).getD .empty⟩ 64 with
  | .ok payload => z.act [.send payload]
  | .error _ => z

/-- A new round. -/
def startDiscovery (z : Zip ι) : Zip ι :=
  { z with attemptsLeft := GNI_MAX_ATTEMPTS }.sendRequest

/-- Everybody who waits is told that the round is over. -/
def release (z : Zip ι) : Zip ι :=
  { z with refreshWaiters := [], log := z.log ++ z.refreshWaiters.map .released }

/-- The address of the interface that a reply came over moves. -/
def moveAddress (z : Zip ι) (lo hi : UInt16) (iface : Interface) (e : AcquireAnswers) :
    Checked (List (ZipAct ι)) :=
  match iface with
  | .localTalk =>
    if z.ltAddressing then
      pure ((AddressingHandle.adoptNetworkNumber lo e).toList.map (.setAddr .localTalk))
    else pure []
  | .etherTalk =>
    if z.etAddressing then do
      let moved ← AddressingHandle.acquireInRange lo hi e
      pure (.acquireInRange lo hi :: moved.toList.map (.setAddr .etherTalk))
    else pure []

/-- Without a range the address stays. -/
def movesFor (z : Zip ι) (reply : GetNetInfoReply) (iface : Interface) (e : AcquireAnswers) :
    Checked (List (ZipAct ι)) :=
  if reply.rangeStart ≠ 0 then z.moveAddress reply.rangeStart reply.rangeEnd iface e else pure []

/-- What the table and the file are told of a reply, behind what moved. -/
def record (z : Zip ι) (reply : GetNetInfoReply) (iface : Interface) (moves : List (ZipAct ι)) :
    Zip ι :=
  let z := z.act (moves ++ (reply.rangeCalls iface ++ reply.zoneCalls).map .call)
  match reply.chosenZone with
  | none => z
  | some zone =>
    let z := if z.zoneCache then z.act [.saveZone zone.decode] else z
    { z with rememberedZone := some zone.decode }

/-- A reply is followed. -/
def adopt (z : Zip ι) (reply : GetNetInfoReply) (iface : Interface) (e : AcquireAnswers) :
    Checked (Zip ι) := do
  let moves ← z.movesFor reply iface e
  pure (z.record reply iface moves)

/-- A packet on the ZIP socket. -/
def handlePacket (z : Zip ι) (pkt : ReceivedDdp) (e : AcquireAnswers) : Checked (Zip ι) :=
  match GetNetInfoReply.parse pkt.payload with
  | .ok reply => do
    let z ← z.adopt reply (Interface.ofSource pkt.source) e
    pure { z with attemptsLeft := 0 }.release
  | .error _ =>
    match Notify.parse pkt.payload with
    | .ok _ => pure z.startDiscovery
    | .error _ => pure z

/-- A second without an answer. -/
def tick (z : Zip ι) : Zip ι :=
  if 0 < z.attemptsLeft then
    let z := { z with attemptsLeft := z.attemptsLeft - 1 }
    if z.attemptsLeft = 0 then z.release else z.sendRequest
  else z

/-- A caller asks for a round. -/
def refresh (z : Zip ι) (caller : ι) : Zip ι :=
  { z with
    refreshWaiters := z.refreshWaiters ++ [caller]
    log := z.log ++ [ZipAct.asked caller] }.startDiscovery

/-- What the client waits for. -/
inductive Event (ι : Type) where
  | packet (pkt : ReceivedDdp) (e : AcquireAnswers)
  | tick
  | refresh (caller : ι)

/-- One turn of the task. -/
def handle (z : Zip ι) : Event ι → Checked (Zip ι)
  | .packet pkt e => z.handlePacket pkt e
  | .tick => pure z.tick
  | .refresh caller => pure (z.refresh caller)

/-- A panic stops the client. -/
def step (z : Checked (Zip ι)) (event : Event ι) : Checked (Zip ι) := z >>= fun z => z.handle event

/-- A client that has just asked for the first time. -/
def start (etAddressing ltAddressing zoneCache : Bool) (rememberedZone : Option Zone) : Zip ι :=
  startDiscovery
    { etAddressing := etAddressing, ltAddressing := ltAddressing, zoneCache := zoneCache
      rememberedZone := rememberedZone, attemptsLeft := 0, refreshWaiters := [], log := [] }

/-! ## Who waits -/

/-- What is done for nobody who waits. -/
def Quiet (acts : List (ZipAct ι)) : Prop :=
  ∀ w, ZipAct.asked w ∉ acts ∧ ZipAct.released w ∉ acts

/-- What a step leaves as it is: who waits, and until when. -/
structure Steady (z z' : Zip ι) : Prop where
  waiters : z'.refreshWaiters = z.refreshWaiters
  more : ∃ acts, z'.log = z.log ++ acts ∧ Quiet acts

theorem Quiet.append {as bs : List (ZipAct ι)} (ha : Quiet as) (hb : Quiet bs) :
    Quiet (as ++ bs) := by
  intro w
  rw [List.mem_append, List.mem_append]
  exact ⟨not_or.2 ⟨(ha w).1, (hb w).1⟩, not_or.2 ⟨(ha w).2, (hb w).2⟩⟩

theorem quiet_nil : Quiet ([] : List (ZipAct ι)) :=
  fun _ => ⟨List.not_mem_nil, List.not_mem_nil⟩

theorem quiet_calls (ops : List Operation) : Quiet (ι := ι) (ops.map .call) := by
  intro w
  simp

theorem sendRequest_eq (z : Zip ι) : ∃ payload, z.sendRequest = z.act [.send payload] := by
  unfold sendRequest
  rw [GetNetInfoRequest.toBytes_eq]
  exact ⟨_, rfl⟩

theorem startDiscovery_steady (z : Zip ι) :
    Steady z z.startDiscovery ∧ z.startDiscovery.attemptsLeft = GNI_MAX_ATTEMPTS := by
  obtain ⟨payload, heq⟩ := sendRequest_eq { z with attemptsLeft := GNI_MAX_ATTEMPTS }
  rw [startDiscovery, heq]
  exact ⟨⟨rfl, _, rfl, fun w => by simp⟩, rfl⟩

section
variable [DecidableEq ι]

/-- **Who waits has a round that is not over.**  Everybody who has asked has been told, or waits,
    once each. -/
structure Waits (z : Zip ι) : Prop where
  ended : z.attemptsLeft = 0 → z.refreshWaiters = []
  told : ∀ w, z.log.count (.asked w) = z.log.count (.released w) + z.refreshWaiters.count w
  budget : z.attemptsLeft ≤ GNI_MAX_ATTEMPTS

/-- The accounts do not change. -/
theorem Steady.told {z z' : Zip ι} (h : Steady z z')
    (htold : ∀ w, z.log.count (.asked w) = z.log.count (.released w) + z.refreshWaiters.count w) :
    ∀ w, z'.log.count (.asked w) = z'.log.count (.released w) + z'.refreshWaiters.count w := by
  intro w
  obtain ⟨acts, hlog, hquiet⟩ := h.more
  rw [hlog, h.waiters, List.count_append, List.count_append,
    List.count_eq_zero_of_not_mem (hquiet w).1, List.count_eq_zero_of_not_mem (hquiet w).2]
  exact htold w

theorem count_released (ws : List ι) (w : ι) :
    (ws.map ZipAct.released).count (.released w) = ws.count w :=
  List.count_map_of_injective ws ZipAct.released (fun _ _ h => ZipAct.released.inj h) w

theorem release_told {z : Zip ι}
    (htold : ∀ w, z.log.count (.asked w) = z.log.count (.released w) + z.refreshWaiters.count w)
    (w : ι) : z.release.log.count (.asked w) =
      z.release.log.count (.released w) + z.release.refreshWaiters.count w := by
  have hasked : (z.refreshWaiters.map ZipAct.released).count (ZipAct.asked w) = 0 :=
    List.count_eq_zero_of_not_mem fun h => by simp at h
  simp only [release, List.count_append, hasked, count_released, List.count_nil, htold w]

/-- **At the end of a round everybody is told.** -/
theorem Waits.release {z : Zip ι} (h : Waits z) (hover : z.attemptsLeft ≤ GNI_MAX_ATTEMPTS) :
    Waits z.release :=
  ⟨fun _ => rfl, release_told h.told, hover⟩

theorem Waits.startDiscovery {z : Zip ι}
    (htold : ∀ w, z.log.count (.asked w) = z.log.count (.released w) + z.refreshWaiters.count w) :
    Waits z.startDiscovery := by
  obtain ⟨hsteady, hleft⟩ := startDiscovery_steady z
  refine ⟨fun hzero => ?_, hsteady.told htold, hleft.le⟩
  rw [hleft] at hzero
  cases hzero

theorem Waits.refresh {z : Zip ι} (h : Waits z) (caller : ι) : Waits (z.refresh caller) := by
  refine Waits.startDiscovery fun w => ?_
  have hreleased : [ZipAct.asked caller].count (ZipAct.released w) = 0 :=
    List.count_eq_zero_of_not_mem (by simp)
  have hasked : [ZipAct.asked caller].count (ZipAct.asked w) = [caller].count w :=
    List.count_map_of_injective [caller] ZipAct.asked (fun _ _ h => ZipAct.asked.inj h) w
  have htold := h.told w
  simp only [List.count_append, hreleased, hasked]
  omega

theorem Waits.tick {z : Zip ι} (h : Waits z) : Waits z.tick := by
  unfold Zip.tick
  split_ifs with hround
  · dsimp only
    have hbudget := h.budget
    split_ifs with hlast
    · exact ⟨fun _ => rfl, release_told h.told, by show z.attemptsLeft - 1 ≤ _; omega⟩
    · obtain ⟨payload, heq⟩ := sendRequest_eq { z with attemptsLeft := z.attemptsLeft - 1 }
      rw [heq]
      have hsteady : Steady z (act { z with attemptsLeft := z.attemptsLeft - 1 } [.send payload]) :=
        ⟨rfl, _, rfl, fun w => by simp⟩
      exact ⟨fun hzero => absurd hzero hlast, hsteady.told h.told, (Nat.sub_le _ _).trans hbudget⟩
  · exact h

end

/-! ## The ranges -/

/-- A range that is one, of networks that are some. -/
def RangeOk (lo hi : UInt16) : Prop := 1 ≤ lo ∧ lo ≤ hi

end Zip

/-- What is done with a range is done with one that is one. -/
def ZipAct.Valid {ι : Type} : ZipAct ι → Prop
  | .acquireInRange lo hi => Zip.RangeOk lo hi
  | .call (.setLocalRangeFor _ lo hi) => Zip.RangeOk lo hi
  | .call (.insertZone _ ranges) => ∀ r ∈ ranges, Zip.RangeOk r.lo r.hi
  | _ => True

/-- A reply names a range that is one, or neither a range nor a zone. -/
def GetNetInfoReply.Adoptable (r : GetNetInfoReply) : Prop :=
  (r.rangeStart ≠ 0 ∧ r.rangeStart ≤ r.rangeEnd) ∨ (r.rangeStart = 0 ∧ r.chosenZone = none)

instance : DecidablePred GetNetInfoReply.Adoptable := fun _ => inferInstanceAs (Decidable (_ ∨ _))

namespace Zip

variable {ι : Type}

theorem rangeOk_of_ne {lo hi : UInt16} (hlo : lo ≠ 0) (h : lo ≤ hi) : RangeOk lo hi := by
  refine ⟨UInt16.le_iff_toNat_le.2 ?_, h⟩
  have hpos : lo.toNat ≠ 0 := fun hzero => hlo (UInt16.toNat.inj hzero)
  exact Nat.one_le_iff_ne_zero.2 hpos

theorem moveAddress_spec {z : Zip ι} {lo hi : UInt16} {iface : Interface} {e : AcquireAnswers}
    {acts : List (ZipAct ι)} (h : moveAddress z lo hi iface e = .ok acts) :
    Quiet acts ∧ (RangeOk lo hi → ∀ a ∈ acts, a.Valid) := by
  unfold moveAddress at h
  cases iface with
  | localTalk =>
    dsimp only at h
    split_ifs at h
    · obtain rfl := Except.ok.inj h
      cases AddressingHandle.adoptNetworkNumber lo e with
      | none => exact ⟨quiet_nil, fun _ _ ha => absurd ha List.not_mem_nil⟩
      | some addr =>
        refine ⟨fun w => by simp, fun _ a ha => ?_⟩
        rw [List.mem_singleton.1 ha]
        trivial
    · obtain rfl := Except.ok.inj h
      exact ⟨quiet_nil, fun _ _ ha => absurd ha List.not_mem_nil⟩
  | etherTalk =>
    dsimp only at h
    split_ifs at h
    · obtain ⟨moved, -, hacts⟩ := bind_eq_ok.1 h
      obtain rfl := Except.ok.inj hacts
      cases moved with
      | none =>
        refine ⟨fun w => by simp, fun hrange a ha => ?_⟩
        rw [List.mem_singleton.1 ha]
        exact hrange
      | some addr =>
        refine ⟨fun w => by simp, fun hrange a ha => ?_⟩
        rcases List.mem_cons.1 ha with rfl | ha
        · exact hrange
        · rw [List.mem_singleton.1 ha]
          trivial
    · obtain rfl := Except.ok.inj h
      exact ⟨quiet_nil, fun _ _ ha => absurd ha List.not_mem_nil⟩

theorem returns_moveAddress (z : Zip ι) {lo hi : UInt16} (h : lo ≤ hi) (iface : Interface)
    (e : AcquireAnswers) : Returns (moveAddress z lo hi iface e) := by
  unfold moveAddress
  cases iface with
  | localTalk =>
    dsimp only
    split_ifs
    · exact returns_pure _
    · exact returns_pure _
  | etherTalk =>
    dsimp only
    split_ifs
    · exact (returns_bind_iff fun _ => returns_pure _).2
        (AddressingHandle.returns_acquireInRange h e)
    · exact returns_pure _

theorem calls_valid_iff (r : GetNetInfoReply) (iface : Interface) :
    (∀ op ∈ r.rangeCalls iface ++ r.zoneCalls, ZipAct.Valid (ι := ι) (.call op)) ↔
      r.Adoptable := by
  unfold GetNetInfoReply.rangeCalls GetNetInfoReply.zoneCalls GetNetInfoReply.Adoptable
  by_cases hlo : r.rangeStart = 0
  · rw [if_neg (not_not_intro hlo), List.nil_append]
    cases hzone : r.chosenZone with
    | none => simp [hlo]
    | some zone =>
      refine iff_of_false (fun hall => ?_) (by simp [hlo])
      have hvalid := hall _ (List.mem_singleton.2 rfl) ⟨r.rangeStart, r.rangeEnd⟩
        (List.mem_singleton.2 rfl)
      have hfirst : 1 ≤ r.rangeStart := hvalid.1
      rw [hlo] at hfirst
      exact absurd hfirst (by decide)
  · rw [if_pos hlo]
    constructor
    · intro hall
      exact Or.inl ⟨hlo, (hall _ List.mem_cons_self).2⟩
    · rintro (⟨-, hle⟩ | ⟨hzero, -⟩)
      · intro op hop
        have hrange := rangeOk_of_ne hlo hle
        rcases List.mem_cons.1 hop with rfl | hop
        · exact hrange
        · obtain ⟨zone, -, rfl⟩ := List.mem_map.1 hop
          intro range hr
          rw [List.mem_singleton.1 hr]
          exact hrange
      · exact absurd hzero hlo

theorem movesFor_spec {z : Zip ι} {r : GetNetInfoReply} {iface : Interface} {e : AcquireAnswers}
    {moves : List (ZipAct ι)} (h : z.movesFor r iface e = .ok moves) :
    Quiet moves ∧ (r.Adoptable → ∀ a ∈ moves, a.Valid) := by
  unfold movesFor at h
  split_ifs at h with hlo
  · obtain ⟨hquiet, hrange⟩ := moveAddress_spec h
    refine ⟨hquiet, fun hadopt => ?_⟩
    rcases hadopt with ⟨-, hle⟩ | ⟨hzero, -⟩
    · exact hrange (rangeOk_of_ne hlo hle)
    · exact absurd hzero hlo
  · obtain rfl := Except.ok.inj h
    exact ⟨quiet_nil, fun _ _ ha => absurd ha List.not_mem_nil⟩

theorem returns_movesFor (z : Zip ι) {r : GetNetInfoReply} (h : r.Adoptable) (iface : Interface)
    (e : AcquireAnswers) : Returns (z.movesFor r iface e) := by
  unfold movesFor
  split_ifs with hlo
  · rcases h with ⟨-, hle⟩ | ⟨hzero, -⟩
    · exact returns_moveAddress z hle iface e
    · exact absurd hzero hlo
  · exact returns_pure _

theorem record_spec (z : Zip ι) (r : GetNetInfoReply) (iface : Interface)
    (moves : List (ZipAct ι)) : (z.record r iface moves).refreshWaiters = z.refreshWaiters ∧
      ∃ saved, (z.record r iface moves).log =
        z.log ++ (moves ++ (r.rangeCalls iface ++ r.zoneCalls).map .call ++ saved) ∧
        Quiet saved ∧ ∀ a ∈ saved, a.Valid := by
  unfold record
  cases r.chosenZone with
  | none =>
    refine ⟨rfl, [], ?_, quiet_nil, fun _ ha => absurd ha List.not_mem_nil⟩
    rw [List.append_nil]
    rfl
  | some zone =>
    dsimp only
    split_ifs
    · refine ⟨rfl, [.saveZone zone.decode], List.append_assoc _ _ _, fun w => by simp,
        fun a ha => ?_⟩
      rw [List.mem_singleton.1 ha]
      trivial
    · refine ⟨rfl, [], ?_, quiet_nil, fun _ ha => absurd ha List.not_mem_nil⟩
      rw [List.append_nil]
      rfl

/-! ## Runs -/

section
variable [DecidableEq ι]

/-- **What the client should be in every state**: all ranges are some, and nobody waits for
    nothing. -/
structure Safe (z : Zip ι) : Prop where
  valid : ∀ a ∈ z.log, a.Valid
  waits : z.Waits

/-- The client is there, and safe. -/
def Running (z : Checked (Zip ι)) : Prop := ∃ z', z = .ok z' ∧ z'.Safe

/-- A reply, if the event is one, can be adopted. -/
def Event.Adoptable : Event ι → Prop
  | .packet pkt _ => ∀ r, GetNetInfoReply.parse pkt.payload = .ok r → r.Adoptable
  | _ => True

theorem reply_running_iff {z : Zip ι} (h : z.Safe) (r : GetNetInfoReply) (iface : Interface)
    (e : AcquireAnswers) :
    Running (z.adopt r iface e >>= fun z => pure { z with attemptsLeft := 0 }.release) ↔
      r.Adoptable := by
  constructor
  · rintro ⟨z', heq, hsafe⟩
    obtain ⟨z₁, hadopt, hlast⟩ := bind_eq_ok.1 heq
    obtain ⟨moves, -, hrecord⟩ := bind_eq_ok.1 hadopt
    obtain rfl := Except.ok.inj hrecord
    obtain rfl := Except.ok.inj hlast
    obtain ⟨-, saved, hlog, -⟩ := z.record_spec r iface moves
    refine (calls_valid_iff (ι := ι) r iface).1 fun op hop => hsafe.valid _ ?_
    simp only [release, hlog, List.mem_append]
    exact Or.inl (Or.inr (Or.inl (Or.inr (List.mem_map_of_mem hop))))
  · intro hadoptable
    obtain ⟨moves, hmoves⟩ := returns_movesFor z hadoptable iface e
    obtain ⟨hquiet, hvalid⟩ := movesFor_spec hmoves
    obtain ⟨hwaiters, saved, hlog, hquietSaved, hvalidSaved⟩ := z.record_spec r iface moves
    refine ⟨{ z.record r iface moves with attemptsLeft := 0 }.release, ?_, ?_, ?_⟩
    · rw [adopt, hmoves]
      rfl
    · intro a ha
      simp only [release, hlog, List.mem_append] at ha
      rcases ha with (ha | (ha | ha) | ha) | ha
      · exact h.valid a ha
      · exact hvalid hadoptable a ha
      · obtain ⟨op, hop, rfl⟩ := List.mem_map.1 ha
        exact (calls_valid_iff r iface).2 hadoptable op hop
      · exact hvalidSaved a ha
      · obtain ⟨w, -, rfl⟩ := List.mem_map.1 ha
        trivial
    · have hsteady : Steady z { z.record r iface moves with attemptsLeft := 0 } :=
        ⟨hwaiters, _, hlog, (hquiet.append (quiet_calls _)).append hquietSaved⟩
      exact ⟨fun _ => rfl, release_told (hsteady.told h.waits.told), Nat.zero_le _⟩

theorem Safe.of_log {z z' : Zip ι} (h : z.Safe) (hwaits : z'.Waits)
    (hlog : ∃ acts, z'.log = z.log ++ acts ∧ ∀ a ∈ acts, a.Valid) : z'.Safe := by
  obtain ⟨acts, hacts, hvalid⟩ := hlog
  refine ⟨fun a ha => ?_, hwaits⟩
  rw [hacts] at ha
  rcases List.mem_append.1 ha with ha | ha
  · exact h.valid a ha
  · exact hvalid a ha

theorem Safe.startDiscovery {z : Zip ι} (h : z.Safe) : z.startDiscovery.Safe := by
  obtain ⟨payload, heq⟩ := sendRequest_eq { z with attemptsLeft := GNI_MAX_ATTEMPTS }
  refine h.of_log (Waits.startDiscovery h.waits.told) ⟨[.send payload], ?_, fun a ha => ?_⟩
  · rw [Zip.startDiscovery, heq]
    rfl
  · rw [List.mem_singleton.1 ha]
    trivial

theorem Safe.refresh {z : Zip ι} (h : z.Safe) (caller : ι) : (z.refresh caller).Safe := by
  obtain ⟨payload, heq⟩ := sendRequest_eq { z with
    refreshWaiters := z.refreshWaiters ++ [caller]
    log := z.log ++ [ZipAct.asked caller]
    attemptsLeft := GNI_MAX_ATTEMPTS }
  refine h.of_log (h.waits.refresh caller) ⟨[.asked caller, .send payload], ?_, fun a ha => ?_⟩
  · rw [Zip.refresh, Zip.startDiscovery, heq]
    simp [act]
  · rcases List.mem_cons.1 ha with rfl | ha
    · trivial
    · rw [List.mem_singleton.1 ha]
      trivial

theorem Safe.tick {z : Zip ι} (h : z.Safe) : z.tick.Safe := by
  refine h.of_log h.waits.tick ?_
  unfold Zip.tick
  dsimp only
  split_ifs
  · refine ⟨z.refreshWaiters.map .released, rfl, fun a ha => ?_⟩
    obtain ⟨w, -, rfl⟩ := List.mem_map.1 ha
    trivial
  · obtain ⟨payload, heq⟩ := sendRequest_eq { z with attemptsLeft := z.attemptsLeft - 1 }
    refine ⟨[.send payload], by rw [heq]; rfl, fun a ha => ?_⟩
    rw [List.mem_singleton.1 ha]
    trivial
  · exact ⟨[], (List.append_nil _).symm, fun _ ha => absurd ha List.not_mem_nil⟩

/-- **One event.** -/
theorem handle_running_iff {z : Zip ι} (h : z.Safe) (event : Event ι) :
    Running (z.handle event) ↔ event.Adoptable := by
  cases event with
  | tick => exact iff_of_true ⟨_, rfl, h.tick⟩ trivial
  | refresh caller => exact iff_of_true ⟨_, rfl, h.refresh caller⟩ trivial
  | packet pkt e =>
    simp only [handle, handlePacket, Event.Adoptable]
    cases hparse : GetNetInfoReply.parse pkt.payload with
    | ok r =>
      refine (reply_running_iff h r _ e).trans ⟨fun hadopt r' hr' => ?_, fun hall => hall r rfl⟩
      rwa [← Except.ok.inj hr']
    | error err =>
      refine iff_of_true ?_ fun r hr => nomatch hr
      cases Notify.parse pkt.payload with
      | ok notify => exact ⟨_, rfl, h.startDiscovery⟩
      | error err' => exact ⟨_, rfl, h⟩

/-- **The client is safe against every reply that it can adopt, and against no other**: it does not
    panic, all its ranges are some, and whoever asked for a round has been told by its end. -/
theorem zip_safe_iff (etAddressing ltAddressing zoneCache : Bool) (rememberedZone : Option Zone)
    (events : List (Event ι)) :
    (∀ es, es <+: events →
      Running (run step (.ok (start etAddressing ltAddressing zoneCache rememberedZone)) es)) ↔
      ∀ event ∈ events, event.Adoptable := by
  have hstart : Safe (start (ι := ι) etAddressing ltAddressing zoneCache rememberedZone) :=
    Safe.startDiscovery ⟨fun _ ha => absurd ha List.not_mem_nil, fun _ => rfl, fun _ => rfl,
      Nat.zero_le _⟩
  have hstep : ∀ (z : Checked (Zip ι)) event, True → Running z →
      (Running (step z event) ↔ event.Adoptable) := by
    rintro z event - ⟨z', rfl, hsafe⟩
    exact handle_running_iff hsafe event
  rw [along_iff step (fun _ => True) (fun _ _ _ _ _ => trivial) hstep trivial ⟨_, rfl, hstart⟩]
  exact along_iff_forall step

end

/-- A router on the EtherTalk cable answers that the cable is 10 to 5. -/
def invertedReply : ReceivedDdp where
  headers := ⟨0, 21, 0, 0, 3, 0xFF, 1, ZIP_SOCKET, ZIP_SOCKET, .zip⟩
  payload := [6, 0, 0, 10, 0, 5, 0, 0]
  source := .etherTalkPhase2
  sourceMac := (Vector.replicate 5 0).push 1

/-- The client of an interface at 65280.1 has no number to draw, and panics. -/
theorem invertedReply_stops : ¬ Running (run step (.ok (start (ι := ℕ) true false false none))
    [.packet invertedReply ⟨some ⟨65280, 1⟩, fun _ => (0, 0), fun _ => some true⟩]) := by
  have hpanic : run step (.ok (start (ι := ℕ) true false false none))
      [.packet invertedReply ⟨some ⟨65280, 1⟩, fun _ => (0, 0), fun _ => some true⟩] =
        .error .unwrap := by
    rfl
  rintro ⟨z, hz, -⟩
  rw [hpanic] at hz
  cases hz

end Zip

end TailTalk
