/-
  What an ImageWriter role lets through to the printer.

  It passes the packets of a session on as they are, but for a rename at the
  head of a job; its own query of the ribbon comes out of the same call, ahead
  of what the PAP server has queued.
-/
import TailTalk.ImageWriter.Role
import TailTalk.Pap.Credit

namespace TailTalk

open Lib

/-- The card's rename command for a name. -/
def renameCommand (name : Bytes) : Bytes := RENAME ++ (UInt8.ofNat name.length :: name)

/-- **A rename is the whole command with its name**, and nothing else. -/
theorem parseRename_eq_some_iff {bytes name : Bytes} : parseRename bytes = some name ↔
    bytes = renameCommand name ∧ name ≠ [] ∧ name.length < 256 := by
  unfold parseRename
  constructor
  · intro h
    split at h
    · rename_i hprefix
      obtain ⟨rest, rfl⟩ := hprefix
      rw [List.drop_left] at h
      split at h
      · rename_i len tail
        split at h
        · cases h
        · rename_i hfits
          obtain ⟨hpos, hlen⟩ := not_or.1 hfits
          obtain rfl := Option.some.inj h
          rw [not_not] at hlen
          refine ⟨?_, ?_, hlen ▸ len.toNat_lt⟩
          · rw [renameCommand, hlen, UInt8.ofNat_toNat]
          · rintro rfl
            exact hpos (UInt8.toNat_inj.1 hlen.symm)
      · cases h
    · cases h
  · rintro ⟨rfl, hne, hlen⟩
    have hlen' : (UInt8.ofNat name.length).toNat = name.length :=
      UInt8.toNat_ofNat_of_lt' hlen
    have hpos : UInt8.ofNat name.length ≠ 0 := by
      intro h
      rw [h] at hlen'
      exact hne (List.length_eq_zero_iff.1 hlen'.symm)
    rw [renameCommand, if_pos (List.prefix_append _ _), List.drop_left]
    dsimp only
    rw [if_neg (not_or.2 ⟨hpos, not_not_intro hlen'.symm⟩)]

section
variable {α : Type} (opens closes : α → Bool)

/-- One more event. -/
def sinceOpenStep (o : Option (List α)) (e : α) : Option (List α) :=
  if opens e then some [] else if closes e then none else o.map (· ++ [e])

/-- The events since the last opening, unless it has been closed. -/
def sinceOpen (es : List α) : Option (List α) := es.foldl (sinceOpenStep opens closes) none

@[simp] theorem sinceOpen_concat (es : List α) (e : α) :
    sinceOpen opens closes (es ++ [e]) =
      sinceOpenStep opens closes (sinceOpen opens closes es) e := by
  simp [sinceOpen]

end

namespace PapEvent

/-- The event that opens a session. -/
def opens : PapEvent → Bool
  | .connectionOpened _ => true
  | _ => false

/-- The one that closes it. -/
def closes : PapEvent → Bool
  | .connectionClosed => true
  | _ => false

end PapEvent

namespace ImageWriterEvent

/-- The same of what the embedder is told. -/
def opens : ImageWriterEvent → Bool
  | .connectionOpened _ => true
  | _ => false

/-- The same of the other end. -/
def closes : ImageWriterEvent → Bool
  | .connectionClosed => true
  | _ => false

end ImageWriterEvent

/-- The first packet of a job. -/
def passFirst (packet : Bytes) : ImageWriterEvent :=
  match parseRename packet with
  | some name => .rename name
  | none => .toPrinter packet

/-- What one event of a session comes to; `first` is whether a job starts with it. -/
def passEvent (first : Bool) : PapEvent → ImageWriterEvent
  | .toPrinter packet => if first then passFirst packet else .toPrinter packet
  | .jobEof => .jobEof
  | .connectionOpened client => .connectionOpened client
  | .connectionClosed => .connectionClosed

/-- The packets as they are, but for a rename that is the first of its job. -/
def passPackets : Bool → List PapEvent → List ImageWriterEvent
  | _, [] => []
  | first, e :: es => passEvent first e :: passPackets (e == .jobEof) es

/-- Whether a job starts after some events of a session. -/
def nextFirst (first : Bool) (es : List PapEvent) : Bool :=
  match es.getLast? with
  | none => first
  | some e => e == .jobEof

theorem passPackets_concat (first : Bool) (es : List PapEvent) (e : PapEvent) :
    passPackets first (es ++ [e]) = passPackets first es ++ [passEvent (nextFirst first es) e] := by
  induction es generalizing first with
  | nil => rfl
  | cons d es ih =>
    rw [List.cons_append, passPackets, ih, passPackets, List.cons_append]
    cases es with
    | nil => rfl
    | cons c es => rfl

theorem passEvent_opens (first : Bool) (e : PapEvent) : (passEvent first e).opens = e.opens := by
  cases e with
  | toPrinter packet =>
    simp only [passEvent, passFirst]
    split
    · split <;> rfl
    · rfl
  | jobEof | connectionOpened | connectionClosed => rfl

theorem passEvent_closes (first : Bool) (e : PapEvent) : (passEvent first e).closes = e.closes := by
  cases e with
  | toPrinter packet =>
    simp only [passEvent, passFirst]
    split
    · split <;> rfl
    · rfl
  | jobEof | connectionOpened | connectionClosed => rfl

theorem sinceOpenStep_passEvent {o : Option (List PapEvent)} {first : Bool}
    (hfirst : ∀ es ∈ o, first = nextFirst true es) (e : PapEvent) :
    sinceOpenStep ImageWriterEvent.opens ImageWriterEvent.closes (o.map (passPackets true))
        (passEvent first e) =
      (sinceOpenStep PapEvent.opens PapEvent.closes o e).map (passPackets true) := by
  simp only [sinceOpenStep, passEvent_opens, passEvent_closes]
  split
  · rfl
  split
  · rfl
  cases o with
  | none => rfl
  | some es =>
    rw [Option.map_some, Option.map_some, Option.map_some, Option.map_some, passPackets_concat,
      hfirst es rfl]

/-! ## The role and its embedder -/

/-- The calls of a role's embedder. -/
inductive CardInput where
  | handleDatagram (localSocket : UInt8) (src : ServiceAddress) (payload : Bytes) (now : Micros)
  | poll (now : Micros)
  | setSinkCredit (bytes : ℕ) (now : Micros)
  | printerInput (data : Bytes) (now : Micros)
  | setColourRibbon (colour : Bool)
  | setStatusWord (word : UInt16)
  | pollTransmit
  | pollEvent

/-- A role, the events its embedder has taken, and the PAP events it was
    handed among them. -/
structure CardSession where
  role : ImageWriterRole
  taken : List ImageWriterEvent
  served : List PapEvent

namespace CardSession

/-- No event was taken. -/
def start (listenerSocket connSocket : UInt8) : CardSession :=
  ⟨ImageWriterRole.new listenerSocket connSocket, [], []⟩

/-- The PAP event that the next call of `pollEvent` is about. -/
def nextServed (s : CardSession) : Option PapEvent :=
  if s.role.events = [] then s.role.server.events.head? else none

/-- One input of the role. -/
def step (s : CardSession) : CardInput → Option CardSession
  | .handleDatagram localSocket src payload now =>
    (s.role.handleDatagram localSocket src payload now).map fun role => { s with role }
  | .poll now => (s.role.poll now).map fun role => { s with role }
  | .setSinkCredit bytes now => (s.role.setSinkCredit bytes now).map fun role => { s with role }
  | .printerInput data now => some { s with role := s.role.printerInput data now }
  | .setColourRibbon colour => some { s with role := s.role.setColourRibbon colour }
  | .setStatusWord word => some { s with role := s.role.setStatusWord word }
  | .pollTransmit => some { s with role := s.role.pollTransmit.2 }
  | .pollEvent => some ⟨s.role.pollEvent.2, s.taken ++ s.role.pollEvent.1.toList,
      s.served ++ s.nextServed.toList⟩

/-- What the embedder has been handed, and will be before anything else. -/
def handed (s : CardSession) : List ImageWriterEvent := s.taken ++ s.role.events

/-- What was handed out in the open session. -/
def handedOpen (s : CardSession) : Option (List ImageWriterEvent) :=
  sinceOpen ImageWriterEvent.opens ImageWriterEvent.closes s.handed

/-- The packets of the session in hand. -/
def servedOpen (s : CardSession) : Option (List PapEvent) :=
  sinceOpen PapEvent.opens PapEvent.closes s.served

/-- What has come out since the session in hand opened is what its packets come
    to, and nothing else. -/
def Transparent (s : CardSession) : Prop :=
  s.handedOpen = s.servedOpen.map (passPackets true)

/-- A poll asks for the ribbon only once the end of the last session was handed out. -/
def Unmixed (s : CardSession) : CardInput → Prop
  | .poll now => ∀ server ∈ s.role.server.poll now, s.role.ident = .due → server.busy = false →
      s.handedOpen = none
  | _ => True

instance (s : CardSession) (i : CardInput) : Decidable (s.Unmixed i) :=
  match i with
  | .poll now => inferInstanceAs (Decidable (∀ server ∈ s.role.server.poll now, _ → _ → _))
  | .handleDatagram .. | .setSinkCredit .. | .printerInput .. | .setColourRibbon _
  | .setStatusWord _ | .pollTransmit | .pollEvent => inferInstanceAs (Decidable True)

/-- The role knows whether a job starts. -/
def Started (s : CardSession) : Prop :=
  ∀ es ∈ s.servedOpen, s.role.jobStart = nextFirst true es

section
variable {s t : CardSession} {i : CardInput}

theorem handedOpen_concat {e : ImageWriterEvent} (h : t.handed = s.handed ++ [e]) :
    t.handedOpen = sinceOpenStep ImageWriterEvent.opens ImageWriterEvent.closes s.handedOpen e := by
  rw [handedOpen, h, sinceOpen_concat]
  rfl

theorem servedOpen_concat {e : PapEvent} (h : t.served = s.served ++ [e]) :
    t.servedOpen = sinceOpenStep PapEvent.opens PapEvent.closes s.servedOpen e := by
  rw [servedOpen, h, sinceOpen_concat]
  rfl

theorem quiet_input (hrole : t.role.events = s.role.events) (htaken : t.taken = s.taken)
    (hserved : t.served = s.served) (hstart : t.role.jobStart = s.role.jobStart) :
    (t.Transparent ↔ s.Transparent) ∧ (s.Started → t.Started) := by
  have hhanded : t.handedOpen = s.handedOpen := by rw [handedOpen, handed, htaken, hrole]; rfl
  have hserved' : t.servedOpen = s.servedOpen := by rw [servedOpen, hserved]; rfl
  refine ⟨by rw [Transparent, hhanded, hserved']; rfl, fun hs es hes => ?_⟩
  rw [hserved'] at hes
  rw [hstart]
  exact hs es hes

theorem pollEvent_served {r : ImageWriterRole} (hevents : r.events = []) {e : PapEvent}
    {es : List PapEvent} (hserver : r.server.events = e :: es) :
    r.pollEvent.1 = some (passEvent r.jobStart e) ∧ r.pollEvent.2.events = [] := by
  simp only [ImageWriterRole.pollEvent, hevents, PapServer.pollEvent, hserver, List.head?_cons]
  cases e with
  | toPrinter packet =>
    refine ⟨?_, rfl⟩
    simp only [passEvent, passFirst]
    cases parseRename packet <;> cases r.jobStart <;> rfl
  | jobEof | connectionOpened | connectionClosed => exact ⟨rfl, rfl⟩

theorem served_event (hevents : s.role.events = []) {e : PapEvent} {es : List PapEvent}
    (hserver : s.role.server.events = e :: es) (ht : s.Transparent) (hs : s.Started)
    (h : s.step .pollEvent = some t) : t.Transparent ∧ t.Started := by
  obtain rfl := Option.some.inj h
  have hnext : s.nextServed = some e := by rw [nextServed, if_pos hevents, hserver]; rfl
  have hserved := servedOpen_concat (s := s) (t := ⟨s.role.pollEvent.2,
    s.taken ++ s.role.pollEvent.1.toList, s.served ++ s.nextServed.toList⟩) (e := e)
    (by rw [hnext]; rfl)
  -- The event comes out, and nothing else is left to.
  obtain ⟨hout, hrest⟩ := pollEvent_served hevents hserver
  have hhanded := handedOpen_concat (s := s) (t := ⟨s.role.pollEvent.2,
    s.taken ++ s.role.pollEvent.1.toList, s.served ++ s.nextServed.toList⟩)
    (e := passEvent s.role.jobStart e)
    (by simp only [handed, hout, hrest, hevents, List.append_nil, Option.toList_some])
  refine ⟨?_, fun ps hps => ?_⟩
  · rw [Transparent, hhanded, hserved, ht]
    exact sinceOpenStep_passEvent hs e
  · have hopen := hserved.symm.trans hps
    cases e with
    | connectionOpened client =>
      obtain rfl := Option.some.inj hopen
      simp [ImageWriterRole.pollEvent, hevents, PapServer.pollEvent, hserver, nextFirst]
    | connectionClosed => cases hopen
    | jobEof | toPrinter =>
      obtain ⟨qs, -, rfl⟩ := Option.map_eq_some_iff.1 hopen
      simp [ImageWriterRole.pollEvent, hevents, PapServer.pollEvent, hserver, nextFirst]

theorem own_event (h : s.step .pollEvent = some t)
    (hown : s.role.events ≠ [] ∨ s.role.server.events = []) :
    (t.Transparent ↔ s.Transparent) ∧ (s.Started → t.Started) := by
  obtain rfl := Option.some.inj h
  have hnext : s.nextServed = none := by
    unfold nextServed
    rcases hown with hown | hown
    · rw [if_neg hown]
    · split
      · rw [hown]
        rfl
      · rfl
  have hsame : s.role.pollEvent.1.toList ++ s.role.pollEvent.2.events = s.role.events ∧
      s.role.pollEvent.2.jobStart = s.role.jobStart := by
    unfold ImageWriterRole.pollEvent
    rcases hevents : s.role.events with _ | ⟨e, es⟩
    · have hserver := hown.resolve_left (not_not_intro hevents)
      simp only [PapServer.pollEvent, hserver, List.head?_nil]
      exact ⟨rfl, trivial⟩
    · exact ⟨rfl, rfl⟩
  have hhanded : handed ⟨s.role.pollEvent.2, s.taken ++ s.role.pollEvent.1.toList,
      s.served ++ s.nextServed.toList⟩ = s.handed := by
    rw [handed, List.append_assoc, hsame.1]
    rfl
  have hserved : servedOpen ⟨s.role.pollEvent.2, s.taken ++ s.role.pollEvent.1.toList,
      s.served ++ s.nextServed.toList⟩ = s.servedOpen := by
    rw [servedOpen, hnext, Option.toList_none, List.append_nil]
    rfl
  refine ⟨?_, fun hs es hes => ?_⟩
  · rw [Transparent, Transparent, handedOpen, hhanded, hserved]
    rfl
  · rw [hserved] at hes
    exact hsame.2.trans (hs es hes)

theorem queried (ht : s.Transparent) (hrole : t.role.events = s.role.events ++ [.toPrinter SELF_ID])
    (htaken : t.taken = s.taken) (hserved : t.served = s.served) :
    t.Transparent ↔ s.handedOpen = none := by
  have hhanded := handedOpen_concat (s := s) (t := t) (e := .toPrinter SELF_ID)
    (by rw [handed, hrole, htaken, ← List.append_assoc]; rfl)
  have hserved' : t.servedOpen = s.servedOpen := by rw [servedOpen, hserved]; rfl
  rw [Transparent, hhanded, hserved', ← ht]
  rcases s.handedOpen with _ | xs
  · exact iff_of_true rfl rfl
  · refine iff_of_false (fun h => ?_) nofun
    have hlen := congrArg List.length (Option.some.inj h)
    rw [List.length_append, List.length_singleton] at hlen
    omega

theorem settleIdent_same (r : ImageWriterRole) :
    r.settleIdent.events = r.events ∧ r.settleIdent.jobStart = r.jobStart := by
  unfold ImageWriterRole.settleIdent
  dsimp only
  split <;> exact ⟨rfl, rfl⟩

theorem pollIdent_jobStart (r : ImageWriterRole) (now : Micros) :
    (r.pollIdent now).jobStart = r.jobStart := by
  unfold ImageWriterRole.pollIdent
  split
  · split <;> rfl
  · split
    · exact (settleIdent_same r).2
    · rfl
  · rfl

theorem printerInput_same (r : ImageWriterRole) (data : Bytes) (now : Micros) :
    (r.printerInput data now).events = r.events ∧
      (r.printerInput data now).jobStart = r.jobStart := by
  unfold ImageWriterRole.printerInput
  split
  · dsimp only
    split
    · exact settleIdent_same _
    · exact ⟨rfl, rfl⟩
  · exact ⟨rfl, rfl⟩

/-- The ribbon is asked for only where that is due and no job is printed. -/
theorem pollIdent_events (r : ImageWriterRole) (now : Micros) :
    (r.pollIdent now).events = r.events ++
      if r.ident = .due ∧ r.server.busy = false then [.toPrinter SELF_ID] else [] := by
  have hno : ¬ (r.ident = .due ∧ r.server.busy = false) → (r.events ++
      if r.ident = .due ∧ r.server.busy = false then [ImageWriterEvent.toPrinter SELF_ID] else []) =
        r.events := fun h => by rw [if_neg h, List.append_nil]
  unfold ImageWriterRole.pollIdent
  split
  · rename_i hdue
    split
    · rename_i hbusy
      exact (hno fun h => nomatch hbusy.symm.trans h.2).symm
    · rename_i hfree
      rw [if_pos ⟨hdue, Bool.eq_false_iff.2 hfree⟩]
  · rename_i hident
    rw [hno fun h => nomatch hident.symm.trans h.1]
    split
    · exact (settleIdent_same _).1
    · rfl
  · rename_i hident
    exact (hno fun h => nomatch hident.symm.trans h.1).symm

/-- **What one input keeps.**  It keeps the stream transparent exactly where it is not mixed, and
    the role knows whether a job starts. -/
theorem transparent_step (ht : s.Transparent) (hs : s.Started) (h : s.step i = some t) :
    (t.Transparent ↔ s.Unmixed i) ∧ t.Started := by
  have hquiet : (t.Transparent ↔ s.Transparent) ∧ (s.Started → t.Started) → s.Unmixed i →
      (t.Transparent ↔ s.Unmixed i) ∧ t.Started :=
    fun hq hok => ⟨iff_of_true (hq.1.2 ht) hok, hq.2 hs⟩
  cases i with
  | handleDatagram localSocket src payload now =>
    obtain ⟨r, hr, rfl⟩ := Option.map_eq_some_iff.1 h
    obtain ⟨server, -, rfl⟩ := Option.map_eq_some_iff.1 hr
    exact hquiet (quiet_input rfl rfl rfl rfl) trivial
  | setSinkCredit bytes now =>
    obtain ⟨r, hr, rfl⟩ := Option.map_eq_some_iff.1 h
    obtain ⟨server, -, rfl⟩ := Option.map_eq_some_iff.1 hr
    exact hquiet (quiet_input rfl rfl rfl rfl) trivial
  | printerInput data now =>
    obtain rfl := Option.some.inj h
    obtain ⟨hevents, hstart⟩ := printerInput_same s.role data now
    exact hquiet (quiet_input hevents rfl rfl hstart) trivial
  | setColourRibbon | setStatusWord | pollTransmit =>
    obtain rfl := Option.some.inj h
    exact hquiet (quiet_input rfl rfl rfl rfl) trivial
  | pollEvent =>
    by_cases hown : s.role.events ≠ [] ∨ s.role.server.events = []
    · exact hquiet (own_event h hown) trivial
    · obtain ⟨hevents, hserver⟩ := not_or.1 hown
      obtain ⟨e, es, hes⟩ := List.exists_cons_of_ne_nil hserver
      obtain ⟨ht', hs'⟩ := served_event (not_not.1 hevents) hes ht hs h
      exact ⟨iff_of_true ht' trivial, hs'⟩
  | poll now =>
    obtain ⟨r, hr, rfl⟩ := Option.map_eq_some_iff.1 h
    obtain ⟨server, hserver, rfl⟩ := Option.map_eq_some_iff.1 hr
    have hstarted : Started { s with role := ({ s.role with server } : ImageWriterRole).pollIdent now } :=
      fun es hes => (pollIdent_jobStart _ now).trans (hs es hes)
    have hmixed : s.Unmixed (.poll now) ↔
        (s.role.ident = .due → server.busy = false → s.handedOpen = none) := by
      simp only [Unmixed, hserver, Option.mem_some_iff, forall_eq']
    refine ⟨?_, hstarted⟩
    rw [hmixed]
    have hevents := pollIdent_events { s.role with server } now
    by_cases hasks : s.role.ident = .due ∧ server.busy = false
    · rw [if_pos hasks] at hevents
      have hqueried := queried (t := { s with role :=
        ({ s.role with server } : ImageWriterRole).pollIdent now }) ht hevents rfl rfl
      exact hqueried.trans ⟨fun hnone _ _ => hnone, fun hall => hall hasks.1 hasks.2⟩
    · rw [if_neg hasks, List.append_nil] at hevents
      have hsame := quiet_input (s := s) (t := { s with role :=
        ({ s.role with server } : ImageWriterRole).pollIdent now }) hevents rfl rfl
        (pollIdent_jobStart _ now)
      exact iff_of_true (hsame.1.2 ht) fun hdue hfree => absurd ⟨hdue, hfree⟩ hasks

end

theorem transparent_start (listenerSocket connSocket : UInt8) :
    (start listenerSocket connSocket).Transparent ∧ (start listenerSocket connSocket).Started :=
  ⟨rfl, nofun⟩

end CardSession

/-- **The card is transparent** at every point of a run exactly where no poll asks for the ribbon in
    a session that the embedder has in hand: what comes out in a session is what its packets come
    to, each passed on as it is, but for the first of a job where it is a whole rename command. -/
theorem card_transparent_iff (listenerSocket connSocket : UInt8) (inputs : List CardInput) :
    (∀ bytes name, parseRename bytes = some name ↔
      bytes = renameCommand name ∧ name ≠ [] ∧ name.length < 256) ∧
    ((∀ before, before <+: inputs →
      ∀ s ∈ run (partialStep CardSession.step) (some (.start listenerSocket connSocket)) before,
        s.Transparent) ↔
      Along (partialStep CardSession.step) (Reached CardSession.Unmixed)
        (some (.start listenerSocket connSocket)) inputs) := by
  refine ⟨fun bytes name => parseRename_eq_some_iff, ?_⟩
  obtain ⟨htrans, hstarted⟩ := CardSession.transparent_start listenerSocket connSocket
  refine along_iff (partialStep CardSession.step) (fun o => ∀ s ∈ o, s.Started)
    (P := fun o => ∀ s ∈ o, s.Transparent) ?_ ?_ ?_ ?_
  · intro o i haux hp hp' t ht
    obtain ⟨s, hs, hstep⟩ := Option.bind_eq_some_iff.1 ht
    exact (CardSession.transparent_step (hp s hs) (haux s hs) hstep).2
  · intro o i haux hp
    constructor
    · intro hnext s hs
      rcases hstep : s.step i with _ | t
      · -- A poll that does not return asks for nothing.
        cases i with
        | poll now =>
          intro server hserver
          have hpoll : s.step (.poll now) =
              some { s with role := ({ s.role with server } : ImageWriterRole).pollIdent now } := by
            rw [CardSession.step, ImageWriterRole.poll, hserver]
            rfl
          cases hstep.symm.trans hpoll
        | handleDatagram | setSinkCredit | printerInput | setColourRibbon | setStatusWord
        | pollTransmit | pollEvent => trivial
      · have ht : t ∈ partialStep CardSession.step o i := by
          rw [hs]
          exact hstep
        exact (CardSession.transparent_step (hp s hs) (haux s hs) hstep).1.1 (hnext t ht)
    · intro hok t ht
      obtain ⟨s, hs, hstep⟩ := Option.bind_eq_some_iff.1 ht
      exact (CardSession.transparent_step (hp s hs) (haux s hs) hstep).1.2 (hok s hs)
  · intro s hs
    obtain rfl := Option.some.inj hs
    exact hstarted
  · intro s hs
    obtain rfl := Option.some.inj hs
    exact htrans

/-- A session opens before the first poll, and its client is gone: the poll that ends it asks for
    the ribbon, ahead of the end. -/
def expiredCard : List CardInput :=
  [.handleDatagram 190 PapHost.aClient PapHost.openDatagram 0, .pollEvent,
    .poll (INACTIVITY_TIMEOUT + 1), .pollEvent, .pollEvent]

theorem expiredCard_not_transparent :
    (run (partialStep CardSession.step) (some (.start 190 191)) expiredCard).map (·.taken) =
      some [.connectionOpened PapHost.aClient, .toPrinter SELF_ID, .connectionClosed] ∧
    ∃ s, run (partialStep CardSession.step) (some (.start 190 191)) (expiredCard.take 4) = some s ∧
      s.servedOpen = some [] ∧ s.handedOpen = some [.toPrinter SELF_ID] ∧ ¬ s.Transparent := by
  refine ⟨by decide, ?_⟩
  have hruns : (run (partialStep CardSession.step) (some (.start 190 191))
      (expiredCard.take 4)).map (fun s => (s.servedOpen, s.handedOpen)) =
      some (some [], some [.toPrinter SELF_ID]) := by
    decide
  obtain ⟨s, hs, hview⟩ := Option.map_eq_some_iff.1 hruns
  obtain ⟨hserved, hhanded⟩ := Prod.mk.inj hview
  refine ⟨s, hs, hserved, hhanded, fun ht => ?_⟩
  rw [CardSession.Transparent, hserved, hhanded] at ht
  cases ht

end TailTalk
