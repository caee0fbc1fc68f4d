/-
  The NBP name of a printer, as a handle from outside its task sees it; if a
  new one cannot be registered the old one is put back.

  Text is held as its UTF-8 bytes.  The encoding library is not part of the
  repository: `encode` is what it makes of a text, if it has a MacRoman form
  that fits.
-/
import TailTalk.Stack.Nbp

namespace TailTalk

open Lib

/-! ## Entity names in text -/

/-- Why a text is no name. -/
inductive EntityNameError where
  | tooShort
  | malformed (text : String)
  | nameTooLong

section
variable (encode : Bytes → Option NbpName)

namespace EntityName

/-- What ends the object. -/
def COLON : UInt8 := 0x3A

/-- What ends the type. -/
def AT : UInt8 := 0x40

/-- One component. -/
def encodePart (part : Bytes) : Except EntityNameError NbpName :=
  match encode part with
  | some name => .ok name
  | none => .error .nameTooLong

/-- `object:type@zone` -/
def tryFrom (value : Bytes) : Except EntityNameError EntityName :=
  match value.idxOf? COLON, value.idxOf? AT with
  | none, _ => .error .tooShort
  | some _, none => .error .tooShort
  | some firstIndex, some secondIndex =>
    if firstIndex > secondIndex then
      .error (.malformed "malformed entity name - : was found after @")
    else
      let object := value.take firstIndex
      let entityType := (value.take secondIndex).drop (firstIndex + 1)
      let zone := value.drop (secondIndex + 1)
      if object = [] then .error (.malformed "malformed entity name - object is empty")
      else if entityType = [] then .error (.malformed "malformed entity name - type is empty")
      else if zone = [] then .error (.malformed "malformed entity name - zone is empty")
      else do
        let object ← encodePart encode object
        let entityType ← encodePart encode entityType
        let zone ← encodePart encode zone
        .ok { object, entityType, zone }

/-- `<name>:<nbp_type>@*` -/
def format (name nbpType : Bytes) : Bytes := name ++ [COLON] ++ nbpType ++ [AT, WILDCARD_STAR]

/-- `<name>:<nbp_type>@*`, if NBP will register it. -/
def ofPrinter (name nbpType : Bytes) : Option EntityName :=
  let unusable (part : Bytes) : Bool := decide (part = []) || part.any (· ∈ [COLON, AT])
  if unusable name || unusable nbpType then none
  else
    match tryFrom encode (format name nbpType) with
    | .ok entity => if entity.fullyQualified then some entity else none
    | .error _ => none

end EntityName

/-! ## Handles -/

/-- Why a printer is not renamed. -/
inductive RenameError where
  | badName
  | gone

/-- What a port keeps for its handles. -/
structure PortName where
  socket : UInt8
  nbpType : Bytes
  name : Bytes
  registered : Option EntityName

namespace PortName

/-- The registry without the registration, and with it put back. -/
def withdrawn (s : PortName) (nbp : NbpRegistry) : NbpRegistry :=
  match s.registered with
  | some old => (nbp.unregister old s.socket).2
  | none => nbp

/-- The old name is put back. -/
def restored (s : PortName) (nbp : NbpRegistry) : NbpRegistry :=
  match s.registered with
  | some old => (nbp.register old s.socket).toOption.getD nbp
  | none => nbp

/-- Register under a new name, a new type, or both. There is no port once the printer has been
    dropped. -/
def reregister (port : Option PortName) (nbp : NbpRegistry) (name nbpType : Option Bytes) :
    Except RenameError Unit × Option PortName × NbpRegistry :=
  match port with
  | none => (.error .gone, none, nbp)
  | some s =>
    match EntityName.ofPrinter encode (name.getD s.name) (nbpType.getD s.nbpType) with
    | none => (.error .badName, some s, nbp)
    | some newEntity =>
      let nbp := s.withdrawn nbp
      match nbp.register newEntity s.socket with
      | .error _ => (.error .badName, some s, s.restored nbp)
      | .ok nbp =>
        (.ok (), some {
          socket := s.socket
          nbpType := nbpType.getD s.nbpType
          name := name.getD s.name
          registered := some newEntity }, nbp)

/-- Re-register the printer as `name`, keeping its type. -/
def set (port : Option PortName) (nbp : NbpRegistry) (name : Bytes) :
    Except RenameError Unit × Option PortName × NbpRegistry :=
  reregister encode port nbp (some name) none

theorem reregister_error {port port' : Option PortName} {nbp nbp' : NbpRegistry}
    {name nbpType : Option Bytes} {e : RenameError}
    (h : reregister encode port nbp name nbpType = (.error e, port', nbp')) : port' = port := by
  unfold reregister at h
  split at h
  · cases h
    rfl
  · split at h
    · cases h
      rfl
    · dsimp only at h
      split at h
      · cases h
        rfl
      · cases h

theorem reregister_ok {port port' : Option PortName} {nbp nbp' : NbpRegistry}
    {name nbpType : Option Bytes}
    (h : reregister encode port nbp name nbpType = (.ok (), port', nbp')) :
    ∃ s s' entity, port = some s ∧ port' = some s' ∧ s'.name = name.getD s.name ∧
      s'.nbpType = nbpType.getD s.nbpType ∧ s'.registered = some entity ∧
      ⟨entity, s.socket⟩ ∈ nbp'.names := by
  unfold reregister at h
  split at h
  · cases h
  · next s =>
    split at h
    · cases h
    · next newEntity _ =>
      dsimp only at h
      split at h
      · cases h
      · next nbp'' hregister =>
        cases h
        refine ⟨s, _, newEntity, rfl, rfl, rfl, rfl, rfl, ?_⟩
        unfold NbpRegistry.register at hregister
        split_ifs at hregister
        cases hregister
        exact List.mem_append_right _ (List.mem_singleton_self _)

end PortName

end

end TailTalk
