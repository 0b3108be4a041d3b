import NycPropertyResolver.Clients.SocrataResponses
import NycPropertyResolver.Identity.Registration
import NycPropertyResolver.Library.Uuid
import NycPropertyResolver.Query.Violations

/-!
# HTTP — the property API

`property-api.schema.ts` and the serializers of `properties.routes.ts`: the body of a request to register
a property, checked, the id in a path, and the bodies of the responses.  An `AppError` is answered with
its status, its code and its message, and any other error with a fixed text.
-/

namespace NycPropertyResolver

open Library

/-! ### Responses -/

/-- `StoredPropertyResponse`: the columns of a property, and its BINs. -/
structure StoredPropertyResponse where
  id : String
  identifierVersion : Nat
  bbl : String
  condoBaseBbl : Option String
  condoBillingBbl : Option String
  normalizedAddress : Option String
  borough : Nat
  block : Nat
  lot : Nat
  bins : List String
  createdAt : String
  resolvedAt : String
  deriving DecidableEq

/-- `PropertyEcbViolationResponse`: the columns of a violation that are served. -/
structure PropertyEcbViolationResponse where
  sourceId : String
  bin : String
  violationNumber : Option String
  issueDate : Option String
  ecbViolationStatus : Option String
  balanceDue : Option String
  sourceRowUpdatedAt : String
  deriving DecidableEq

/-- `PropertyEcbCoverageResponse`: the columns of a coverage row that are served. -/
structure PropertyEcbCoverageResponse where
  status : String
  statusReason : Option String
  lastAttemptAt : Option String
  lastSuccessAt : Option String
  sourceWatermarkAt : Option String
  lastError : Option String
  deriving DecidableEq

/-- `PropertyEcbViolationsHttpResponse`: a page of violations, and the coverage read with it. -/
structure PropertyEcbViolationsHttpResponse where
  violations : List PropertyEcbViolationResponse
  coverage : Option PropertyEcbCoverageResponse
  page : ViolationsPageInfo
  deriving DecidableEq

/-- The body of an answer: a property, a page of violations, an error, or the limiter's text. -/
inductive HttpBody where
  | property (body : StoredPropertyResponse)
  | violations (body : PropertyEcbViolationsHttpResponse)
  | error (code message : String)
  | text (message : String)
  deriving DecidableEq

/-- An answer of the API. -/
structure HttpResponse where
  status : Nat
  body : HttpBody
  deriving DecidableEq

/-! ### Errors -/

/-- The answer to an error that is no `AppError`. -/
def internalServerError : HttpResponse :=
  ⟨500, .error "INTERNAL_SERVER_ERROR" "An unexpected error occurred"⟩

/-- The answer of the rate limiter in front of the routes. -/
def tooManyRequests : HttpResponse := ⟨429, .text "Too many requests, please try again later."⟩

/-- A request that has come to nothing, whatever it asks for. -/
def HttpResponse.IsRefusal (response : HttpResponse) : Prop :=
  response = internalServerError ∨ response = tooManyRequests

instance (response : HttpResponse) : Decidable response.IsRefusal :=
  inferInstanceAs (Decidable (_ ∨ _))

/-- `handleRouteError`, and the error handler of the router behind it. -/
def handleRouteError : IdentityError → HttpResponse
  | .app code message statusCode => ⟨statusCode, .error code message⟩
  | _ => internalServerError

/-- An `AppError` of a query is answered with its own status, any other error with 500. -/
def handleQueryError : QueryError → HttpResponse
  | .app code message statusCode => ⟨statusCode, .error code message⟩
  | _ => internalServerError

/-- The answer for a property that is not stored. -/
def propertyNotFound : HttpResponse := ⟨404, .error "PROPERTY_NOT_FOUND" "Property not found"⟩

/-- `toValidationAppError`. -/
def toValidationAppError (messages : List String) : IdentityError :=
  .app "VALIDATION_ERROR" ("; ".intercalate messages) 400

/-! ### Requests -/

/-- The name of the type of a value. -/
def parsedType : Option JsonValue → String
  | none => "undefined"
  | some .null => "null"
  | some (.bool _) => "boolean"
  | some (.number _) => "number"
  | some (.string _) => "string"
  | some (.array _) => "array"
  | some (.object _) => "object"

/-- Zod's message for a value of another type. -/
def invalidTypeMessage (expected : String) (value : Option JsonValue) : String :=
  if value.isNone then "Required" else s!"Expected {expected}, received {parsedType value}"

/-- `z.string().trim().min(1, …).optional()`. -/
inductive RequestField where
  | absent
  | text (value : String)
  | invalid (message : String)

/-- A field of a request's body, trimmed. -/
def requestField : Option JsonValue → RequestField
  | none => .absent
  | some (.string chars) => .text (trim (String.ofList chars))
  | some value => .invalid (invalidTypeMessage "string" (some value))

/-- The issues of a field; an absent one has none. -/
def RequestField.issues (name : String) : RequestField → List String
  | .absent => []
  | .text value => if value.isEmpty then [s!"{name} must be a non-empty string"] else []
  | .invalid message => [message]

/-- A request by its one field. -/
inductive CreatePropertyRequest where
  | address (value : String)
  | bbl (value : String)
  deriving DecidableEq

/-- `createPropertyRequestSchema`.  Its refinement runs on empty texts too, and not on a value of
another type. -/
def parseCreatePropertyRequest (input : Option JsonValue) :
    Except IdentityError CreatePropertyRequest :=
  match input with
  | some (.object members) =>
    let address := requestField ((recordOf members).find "address")
    let bbl := requestField ((recordOf members).find "bbl")
    let issues := address.issues "address" ++ bbl.issues "bbl"
    match address, bbl with
    | .invalid _, _ | _, .invalid _ => .error (toValidationAppError issues)
    | .text value, .absent =>
      if issues.isEmpty then .ok (.address value) else .error (toValidationAppError issues)
    | .absent, .text value =>
      if issues.isEmpty then .ok (.bbl value) else .error (toValidationAppError issues)
    | _, _ => .error (toValidationAppError
        (issues ++ ["Request must include exactly one of address or bbl"]))
  | _ => .error (toValidationAppError [invalidTypeMessage "object" input])

/-- `parsePropertyIdParam`: the id of a path must be a UUID. -/
def parsePropertyIdParam (id : String) : Except IdentityError PropertyId :=
  match parseUuid id with
  | some propertyId => .ok propertyId
  | none => .error (toValidationAppError ["Property id must be a valid UUID"])

/-! ### Serialization -/

/-- `Date.prototype.toISOString`. -/
def isoText (time : Time) : String := String.ofList (toISOString time)

/-- `serializeStoredProperty`. -/
def serializeStoredProperty (property : PropertyWithRelations) : StoredPropertyResponse where
  id := uuidText property.id
  identifierVersion := property.property.identifierVersion
  bbl := property.property.bbl.text
  condoBaseBbl := property.property.condoBaseBbl.map (·.text)
  condoBillingBbl := property.property.condoBillingBbl.map (·.text)
  normalizedAddress := property.property.normalizedAddress
  borough := property.property.borough
  block := property.property.block
  lot := property.property.lot
  bins := property.bins.toList.map (·.text)
  createdAt := isoText property.property.createdAt
  resolvedAt := isoText property.property.resolvedAt

/-- `Decimal.toString`, of an amount in cents: without the zeros at its end. -/
def decimalText (cents : Int) : String :=
  let sign := if cents < 0 then "-" else ""
  let fraction := cents.natAbs % 100
  let decimals :=
    if fraction = 0 then ""
    else if fraction % 10 = 0 then s!".{fraction / 10}"
    else "." ++ String.ofList (padDigits 2 fraction)
  sign ++ toString (cents.natAbs / 100) ++ decimals

/-- `serializeEcbViolation`. -/
def serializeEcbViolation (violation : EcbViolation) : PropertyEcbViolationResponse where
  sourceId := violation.sourceId
  bin := violation.bin.text
  violationNumber := violation.violationNumber
  issueDate := issueDateText violation.issueDate
  ecbViolationStatus := violation.ecbViolationStatus
  balanceDue := violation.balanceDue.map decimalText
  sourceRowUpdatedAt := isoText violation.sourceRowUpdatedAt

/-- The name of a status. -/
def CoverageStatus.text : CoverageStatus → String
  | .checked => "CHECKED"
  | .notChecked => "NOT_CHECKED"
  | .failed => "FAILED"

/-- The name of a status's reason. -/
def CoverageStatusReason.text : CoverageStatusReason → String
  | .neverIngested => "NEVER_INGESTED"
  | .noValidBin => "NO_VALID_BIN"
  | .identifiersChanged => "IDENTIFIERS_CHANGED"
  | .identifiersChangedAfterSnapshot => "IDENTIFIERS_CHANGED_AFTER_SNAPSHOT"

/-- `serializePropertyEcbCoverage`. -/
def serializePropertyEcbCoverage (coverage : PropertyDatasetCoverage) :
    PropertyEcbCoverageResponse where
  status := coverage.status.text
  statusReason := coverage.statusReason.map (·.text)
  lastAttemptAt := coverage.lastAttemptAt.map isoText
  lastSuccessAt := coverage.lastSuccessAt.map isoText
  sourceWatermarkAt := coverage.sourceWatermarkAt.map isoText
  lastError := coverage.lastError

/-- The body of a page of violations. -/
def serializePropertyViolations (result : PropertyViolationsQueryResult) :
    PropertyEcbViolationsHttpResponse where
  violations := result.violations.map serializeEcbViolation
  coverage := result.coverage.map serializePropertyEcbCoverage
  page := result.page

end NycPropertyResolver
