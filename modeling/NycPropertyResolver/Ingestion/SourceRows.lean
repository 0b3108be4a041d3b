import NycPropertyResolver.Clients.Socrata
import NycPropertyResolver.Domain.Numbers
import NycPropertyResolver.Library.Json
import NycPropertyResolver.Library.Table

/-!
# Ingestion — source rows

`ecb.schema.ts`: the rows of the source as JSON objects.  The known fields are found whatever the case
of their names (`readSourceField`) and laid over the row under their own names; the identity of a row is
three of them, and the strict schema checks all.  `toLowerCase` and `String(number)` are the language's
(`SourceText`).
-/

namespace NycPropertyResolver

open Library

/-! ### The platform -/

/-- A text, its ASCII letters in lower case. -/
def asciiFold (text : String) : List Char := text.toList.map Char.toLower

/-- `toLowerCase`, which does not tell apart the two cases of an ASCII letter, and `String(number)`. -/
structure SourceText where
  toLowerCase : String → String
  numberText : JsNumber → String
  toLowerCase_fold : ∀ {a b}, asciiFold a = asciiFold b → toLowerCase a = toLowerCase b

/-- Of ASCII texts, and of whole numbers below 10^21. -/
def SourceText.ascii : SourceText where
  toLowerCase value := String.ofList (asciiFold value)
  numberText
    | .nan => "NaN"
    | .infinity negative => if negative then "-Infinity" else "Infinity"
    | .finite value => toString value.floor
  toLowerCase_fold h := congrArg String.ofList h

/-! ### Issues -/

/-- An issue of a schema, with the path of its field. -/
structure SchemaIssue where
  path : List String
  message : String
  deriving DecidableEq, Repr

/-- What the schemas and the functions on rows throw. -/
inductive SourceRowError where
  | zod (issues : List SchemaIssue)
  | error (message : String)
  deriving DecidableEq, Repr

/-- The value of a field, or its issues. -/
abbrev SchemaField (α : Type) := Except (List SchemaIssue) α

/-- The issues of a field, none if it is read. -/
def schemaIssues {α : Type} (field : SchemaField α) : List SchemaIssue :=
  match field with
  | .ok _ => []
  | .error issues => issues

/-- The issue of a field. -/
def fieldIssue {α : Type} (field message : String) : SchemaField α := .error [⟨[field], message⟩]

/-! ### Rows -/

/-- A row as received, before any domain interpretation: a JSON object. -/
abbrev EcbTransportRow := Table String JsonValue

/-- What is received as a row: an object, or a value of another type. -/
inductive SourceRow where
  | object (row : EcbTransportRow)
  | other (typeName : String)

/-- The column of a row's source id. -/
def sourceIdField : String := "isn_dob_bis_extract"

/-- The column of a row's BIN. -/
def binField : String := "bin"

/-- The column of a violation's number. -/
def violationNumberField : String := "ecb_violation_number"

/-- The column of the date of issue. -/
def issueDateField : String := "issue_date"

/-- The column of a violation's status. -/
def violationStatusField : String := "ecb_violation_status"

/-- The column of the balance due. -/
def balanceDueField : String := "balance_due"

/-- `ECB_SOURCE_FIELDS`. -/
def ecbSourceFields : List String :=
  [sourceIdField, socrataRowIdField, sourceRowUpdatedAtField, binField, violationNumberField,
    issueDateField, violationStatusField, balanceDueField]

section Fields

variable (text : SourceText)

/-- The field of that name, or else the first whose name differs from it in case. -/
def readSourceField (row : EcbTransportRow) (field : String) : Option JsonValue :=
  match row.find field with
  | some value => some value
  | none =>
    let wanted := text.toLowerCase field
    (row.keys.find? fun key => text.toLowerCase key = wanted).bind row.find

/-- The fields, each under its own name, over the row. -/
def overlayFields (row : EcbTransportRow) (canonical : EcbTransportRow) :
    List String → EcbTransportRow
  | [] => canonical
  | field :: fields =>
    match readSourceField text row field with
    | some value => overlayFields row (canonical.set field value) fields
    | none => overlayFields row canonical fields

/-- `canonicalizeSourceFields`, of an object. -/
def canonicalizeSourceFields (row : EcbTransportRow) : EcbTransportRow :=
  overlayFields text row row ecbSourceFields

end Fields

/-! ### Scalars -/

/-- A text or a finite number, by its literal. -/
inductive SourceScalar where
  | text (value : String)
  | number (literal : List Char)
  deriving DecidableEq

/-- The number of a literal. -/
def literalValue (literal : List Char) : JsNumber := toNumber (String.ofList literal)

/-- `String(value)`. -/
def SourceScalar.toText (text : SourceText) : SourceScalar → String
  | .text value => value
  | .number literal => text.numberText (literalValue literal)

/-- A scalar as it stands in the JSON. -/
def SourceScalar.toJson : SourceScalar → JsonValue
  | .text value => .string value.toList
  | .number literal => .number literal

/-- The name of the type of a value, in messages. -/
def typeName : JsonValue → String
  | .null => "null"
  | .bool _ => "boolean"
  | .number _ => "number"
  | .string _ => "string"
  | .array _ => "array"
  | .object _ => "object"

/-- `z.number().finite()`. -/
def finiteNumber (field : String) (literal : List Char) : SchemaField SourceScalar :=
  match literalValue literal with
  | .finite _ => .ok (.number literal)
  | _ => fieldIssue field "Number must be finite"

/-- `requiredSourceScalarSchema`. -/
def requiredSourceScalar (field : String) (value : Option JsonValue) : SchemaField SourceScalar :=
  match value with
  | some (.string chars) =>
    let trimmed := trim (String.ofList chars)
    if trimmed = "" then fieldIssue field "String must contain at least 1 character(s)"
    else .ok (.text trimmed)
  | some (.number literal) => finiteNumber field literal
  | _ => fieldIssue field "Invalid input"

/-- `nullableSourceScalarSchema`. -/
def nullableSourceScalar (field : String) (value : Option JsonValue) :
    SchemaField (Option SourceScalar) :=
  match value with
  | none | some .null => .ok none
  | some (.string chars) => .ok (some (.text (String.ofList chars)))
  | some (.number literal) => (finiteNumber field literal).map some
  | _ => fieldIssue field "Invalid input"

/-- `z.string().trim().min(1)`. -/
def requiredText (field : String) (value : Option JsonValue) : SchemaField String :=
  match value with
  | some (.string chars) =>
    let trimmed := trim (String.ofList chars)
    if trimmed = "" then fieldIssue field "String must contain at least 1 character(s)"
    else .ok trimmed
  | some value => fieldIssue field s!"Expected string, received {typeName value}"
  | none => fieldIssue field "Required"

/-! ### Identity -/

/-- `EcbSourceIdentity`, its fields as texts. -/
structure EcbSourceIdentityText where
  sourceId : String
  socrataRowId : String
  sourceRowUpdatedAt : String
  deriving DecidableEq

section Identity

variable (text : SourceText)

/-- `scalarToString`: the text of an identifier, which is not blank. -/
def scalarToString (value : SourceScalar) (field : String) : Except SourceRowError String :=
  let normalized := trim (value.toText text)
  if normalized = "" then .error (.error s!"{field} must be a non-empty source identifier")
  else .ok normalized

/-- `ecbTransportRowSchema`. -/
def SourceRow.transport : SourceRow → Except SourceRowError EcbTransportRow
  | .object row => .ok row
  | .other typeName => .error (.zod [⟨[], s!"Expected object, received {typeName}"⟩])

/-- `ecbSourceIdentitySchema`, of the fields of a row, and the texts of what it admits. -/
def identityOfFields (find : String → Option JsonValue) :
    Except SourceRowError EcbSourceIdentityText :=
  let sourceId := requiredSourceScalar sourceIdField (find sourceIdField)
  let socrataRowId := requiredSourceScalar socrataRowIdField (find socrataRowIdField)
  let updatedAt := requiredText sourceRowUpdatedAtField (find sourceRowUpdatedAtField)
  match sourceId, socrataRowId, updatedAt with
  | .ok sourceId, .ok socrataRowId, .ok updatedAt => do
    let sourceId ← scalarToString text sourceId sourceIdField
    let socrataRowId ← scalarToString text socrataRowId socrataRowIdField
    .ok ⟨sourceId, socrataRowId, updatedAt⟩
  | sourceId, socrataRowId, updatedAt =>
    .error (.zod (schemaIssues sourceId ++ schemaIssues socrataRowId ++ schemaIssues updatedAt))

/-- `extractEcbSourceIdentity`. -/
def extractEcbSourceIdentity (input : SourceRow) : Except SourceRowError EcbSourceIdentityText := do
  let row ← input.transport
  identityOfFields text (canonicalizeSourceFields text row).find

end Identity

/-! ### The strict schema -/

/-- The fields the strict schema checks. -/
structure EcbViolationFields where
  sourceId : SourceScalar
  socrataRowId : SourceScalar
  sourceRowUpdatedAt : String
  bin : SourceScalar
  violationNumber : Option SourceScalar
  issueDate : Option SourceScalar
  violationStatus : Option SourceScalar
  balanceDue : Option SourceScalar

/-- The object of `ecbViolationSchema`, of the fields of a row. -/
def checkFields (find : String → Option JsonValue) : Except SourceRowError EcbViolationFields :=
  let sourceId := requiredSourceScalar sourceIdField (find sourceIdField)
  let socrataRowId := requiredSourceScalar socrataRowIdField (find socrataRowIdField)
  let updatedAt := requiredText sourceRowUpdatedAtField (find sourceRowUpdatedAtField)
  let bin := requiredSourceScalar binField (find binField)
  let violationNumber := nullableSourceScalar violationNumberField (find violationNumberField)
  let issueDate := nullableSourceScalar issueDateField (find issueDateField)
  let violationStatus := nullableSourceScalar violationStatusField (find violationStatusField)
  let balanceDue := nullableSourceScalar balanceDueField (find balanceDueField)
  match sourceId, socrataRowId, updatedAt, bin, violationNumber, issueDate, violationStatus,
    balanceDue with
  | .ok sourceId, .ok socrataRowId, .ok updatedAt, .ok bin, .ok violationNumber, .ok issueDate,
    .ok violationStatus, .ok balanceDue =>
    .ok ⟨sourceId, socrataRowId, updatedAt, bin, violationNumber, issueDate, violationStatus, balanceDue⟩
  | sourceId, socrataRowId, updatedAt, bin, violationNumber, issueDate, violationStatus, balanceDue =>
    .error (.zod (schemaIssues sourceId ++ schemaIssues socrataRowId ++ schemaIssues updatedAt ++
      schemaIssues bin ++ schemaIssues violationNumber ++ schemaIssues issueDate ++
      schemaIssues violationStatus ++ schemaIssues balanceDue))

/-- `EcbViolationSourceRow`: the checked fields, and the row they are laid over. -/
structure EcbViolationSourceRow where
  fields : EcbViolationFields
  row : EcbTransportRow

/-- `passthrough()`: the required fields as they were checked, and every other column. -/
def passthrough (canonical : EcbTransportRow) (fields : EcbViolationFields) : EcbTransportRow :=
  (((canonical.set sourceIdField fields.sourceId.toJson).set socrataRowIdField
    fields.socrataRowId.toJson).set sourceRowUpdatedAtField
    (.string fields.sourceRowUpdatedAt.toList)).set binField fields.bin.toJson

/-- `ecbViolationSchema`. -/
def parseEcbViolationSourceRow (text : SourceText) (input : SourceRow) :
    Except SourceRowError EcbViolationSourceRow := do
  let row ← input.transport
  let canonical := canonicalizeSourceFields text row
  let fields ← checkFields canonical.find
  .ok ⟨fields, passthrough canonical fields⟩

end NycPropertyResolver
