import NycPropertyResolver.Http.PropertyApi
import NycPropertyResolver.Identity.RegistrationRace
import NycPropertyResolver.Ingestion.Effects
import NycPropertyResolver.Ingestion.System
import NycPropertyResolver.Ingestion.WriteFrames

/-!
# HTTP — the server

Requests of `properties.routes.ts` side by side on the database of the system, while executions run and
other processes register properties.  A handler goes on a statement at a time: a property is read by one
statement for its row and a later one for its BINs, so a body may hold the BINs of a later version than
the one it names.

The version still validates a body (`identifier_version_validates`).  A body that was served with the
version the property has now is exact, whatever came between its two statements and since.

Every statement may throw, which the routes answer with 500, and the rate limiter may refuse a request
before its handler is called.
-/

namespace NycPropertyResolver

open Library

variable {Row ι C : Type}

/-! ### Requests -/

/-- A request of the API. -/
inductive ApiRequest where
  /-- `POST /properties`, and what the sources answer to it. -/
  | postProperty (body : Option JsonValue) (sources : RegistrationSources)
  /-- `GET /properties/:id`. -/
  | getProperty (id : String)
  /-- `GET /properties/:id/ecb-violations`. -/
  | getViolations (id : String) (query : RawQuery)

/-- A property as it was read: its row, and its BINs once they are read too. -/
structure Sighting where
  id : PropertyId
  property : Property
  bins : Option (SortedSet CanonicalBin)

/-- A request and how far its handler has come. -/
inductive Exchange where
  | idle
  | received (request : ApiRequest)
  | registering (registrar : Registrar) (seen : Option Sighting)
  | reading (seen : Sighting)
  | querying (propertyId : PropertyId) (query : RawQuery)
  | answered (response : HttpResponse)

/-- The row of a property, read by a statement of its own. -/
def Db.sightRow (db : Db Row) (p : PropertyId) : Option Sighting :=
  (db.properties.find p).map fun property => ⟨p, property, none⟩

/-- The property as a transaction returns it. -/
def Db.sightWhole (db : Db Row) (p : PropertyId) : Option Sighting :=
  (db.properties.find p).map fun property => ⟨p, property, some (db.propertyBins p)⟩

/-- A read that waits for its second statement. -/
def Sighting.isPartial (seen : Sighting) : Bool := seen.bins.isNone

/-- The second statement. -/
def Sighting.complete (db : Db Row) (seen : Sighting) : Sighting :=
  { seen with bins := some (db.propertyBins seen.id) }

/-- `200`, with the property. -/
def Sighting.response (seen : Sighting) : HttpResponse :=
  match seen.bins with
  | some bins => ⟨200, .property (serializeStoredProperty ⟨seen.id, seen.property, bins, none⟩)⟩
  | none => internalServerError

/-- The property a registration has seen after a statement, from the database before it and after. -/
def sighted (db db' : Db Row) (before after : Registrar) (seen : Option Sighting) : Option Sighting :=
  match before.point, after.point with
  | .loadingCached _ p, .finished => db.sightRow p
  | .findingProperty, .applyingBins p | .findingProperty, .persistingInput p => db.sightRow p
  | .creatingProperty, .applyingBins p | .creatingProperty, .persistingInput p => db'.sightWhole p
  | .applyingBins p, .persistingInput _ => db'.sightWhole p
  | _, _ => seen

/-- The registration of a checked request. -/
def registrationRequest (rules : AddressRules) :
    CreatePropertyRequest → Except IdentityError RegistrationRequest
  | .address address => (rules.normalizeAddress address).map .resolveAddress
  | .bbl bbl => (assertValidBbl bbl).map .resolveBbl

/-- The handler of `POST /properties`, up to its first statement. -/
def receivePost (body : Option JsonValue) (sources : RegistrationSources) : Exchange :=
  match parseCreatePropertyRequest body >>= registrationRequest sources.rules with
  | .error e => .answered (handleRouteError e)
  | .ok request => .registering (.start request sources) none

/-- The statement of a handler throws, which the routes answer with 500, or the handler goes on. -/
def orThrow (throws : Bool) (after : Exchange) : Exchange :=
  if throws then .answered internalServerError else after

/-- The statement of a read by id. -/
def readById (throws : Bool) (db : Db Row) (id : String) (found : Sighting → Exchange) : Exchange :=
  match parsePropertyIdParam id with
  | .error e => .answered (handleRouteError e)
  | .ok propertyId => orThrow throws <|
    match db.sightRow propertyId with
    | none => .answered propertyNotFound
    | some seen => found seen

/-- A registration has ended, or goes on.  A statement that throws is rolled back and ends it. -/
def stepRegistering (nativeUpsert throws : Bool) (db : Db Row) (registrar : Registrar)
    (seen : Option Sighting) (freshId : PropertyId) (now : Time) : Option (Db Row × Exchange) :=
  match registrar.point with
  | .finished =>
    some (db, .answered ((seen.map Sighting.response).getD internalServerError))
  | .unresolved e | .failed e => some (db, .answered (handleRouteError e))
  | _ =>
    (registrar.step nativeUpsert db freshId now).map fun r =>
      if throws then (db, .answered internalServerError)
      else (r.1, .registering r.2 (sighted db r.1 registrar r.2 seen))

section Step

variable [LinearOrder C] (platform : Platform) (collation : SourceId ↪ C) (nativeUpsert : Bool)

/-- The page of a property and its coverage, of one snapshot. -/
def violationsResponse (db : Db Row) (propertyId : PropertyId) (query : RawQuery) : HttpResponse :=
  match queryPropertyViolations platform collation db propertyId query with
  | .ok result => ⟨200, .violations (serializePropertyViolations result)⟩
  | .error e => handleQueryError e

/-- The statements of a query throw, once its parameters are parsed. -/
def thrownQueryResponse (query : RawQuery) : HttpResponse :=
  match parsePropertyViolationsQuery platform query with
  | .ok _ => internalServerError
  | .error e => handleQueryError e

/-- The next statement of a handler, which may throw. -/
def stepExchange (throws : Bool) (db : Db Row) (freshId : PropertyId) (now : Time) :
    Exchange → Option (Db Row × Exchange)
  | .received (.postProperty body sources) => some (db, receivePost body sources)
  | .received (.getProperty id) => some (db, readById throws db id .reading)
  | .received (.getViolations id query) =>
    some (db, readById throws db id fun seen => .querying seen.id query)
  | .registering registrar (some seen) =>
    if seen.isPartial then
      some (db, orThrow throws (.registering registrar (some (seen.complete db))))
    else stepRegistering nativeUpsert throws db registrar (some seen) freshId now
  | .registering registrar none =>
    stepRegistering nativeUpsert throws db registrar none freshId now
  | .reading seen => some (db, orThrow throws (.answered (seen.complete db).response))
  | .querying propertyId query =>
    some (db, .answered (if throws then thrownQueryResponse platform query
      else violationsResponse platform collation db propertyId query))
  | .idle | .answered _ => none

/-! ### The server -/

/-- The system, and the requests in progress, each under an index of its own. -/
structure ServerState (Row ι : Type) where
  system : SystemState Row
  exchanges : ι → Exchange

/-- No request has been received. -/
def ServerState.initial : ServerState Row ι := ⟨.initial, fun _ => .idle⟩

/-- The database. -/
def ServerState.db (s : ServerState Row ι) : Db Row := s.system.db

/-- A step of the system, of another process, or of a request. -/
inductive ServerEvent (Row ι : Type) where
  /-- An execution, or another process that creates a property or changes its BINs. -/
  | system (ev : Event Row)
  /-- Another process stores an input of a property. -/
  | storeInput (r : PropertyRegistration) (propertyId : PropertyId) (now : Time)
  | receive (i : ι) (request : ApiRequest)
  /-- The rate limiter refuses a request before its handler is called. -/
  | limit (i : ι)
  /-- The next statement of a handler, and whether it throws. -/
  | step (i : ι) (throws : Bool) (freshId : PropertyId) (now : Time)

variable [DecidableEq ι] (config : ExecutorConfig) (service : EcbRowService Row)

/-- One step. The indices of answered requests are not used again. -/
def serverNext (s : ServerState Row ι) : ServerEvent Row ι → Option (ServerState Row ι)
  | .system ev => (next config service s.system ev).map fun system => { s with system := system }
  | .storeInput r propertyId now =>
    if s.db.properties.find propertyId = none then none
    else some { s with system := { s.system with
      db := s.db.persistResolutionInput now r propertyId } }
  | .receive i request =>
    match s.exchanges i with
    | .idle => some { s with exchanges := Function.update s.exchanges i (.received request) }
    | _ => none
  | .limit i =>
    match s.exchanges i with
    | .received _ =>
      some { s with exchanges := Function.update s.exchanges i (.answered tooManyRequests) }
    | _ => none
  | .step i throws freshId now =>
    (stepExchange platform collation nativeUpsert throws s.db freshId now (s.exchanges i)).map fun r =>
      { system := { s.system with db := r.1 }
        exchanges := Function.update s.exchanges i r.2 }

/-- New ids are UUIDs. -/
def UuidEvent : ServerEvent Row ι → Prop
  | .system (.createProperty propertyId _ _) => propertyId < 2 ^ 128
  | .step _ _ freshId _ => freshId < 2 ^ 128
  | _ => True

/-- The event that refuses a request: a statement of its handler throws, or the rate limiter acts. -/
def ServerEvent.Refuses (i : ι) : ServerEvent Row ι → Prop
  | .limit j | .step j true _ _ => j = i
  | _ => False

end Step

end NycPropertyResolver
