import NycPropertyResolver.Ingestion.EcbDates
import NycPropertyResolver.Ingestion.RawStaging

/-!
# Ingestion — normalization

`normalization.service.ts`: a source row becomes the values of a violation.  Its identity is extracted
again, from the row the strict schema has checked.  With what raw persistence extracts it is the
`EcbRowService` of the program (`ecbRowService`).
-/

namespace NycPropertyResolver

open Library

/-! ### Fields -/

section Fields

variable (text : SourceText)

/-- `nullableText`. -/
def nullableText (value : Option SourceScalar) : Option String :=
  match value with
  | none => none
  | some value =>
    let normalized := trim (value.toText text)
    if normalized = "" then none else some normalized

/-- `parseIssueDate`. -/
def parseIssueDate (value : Option SourceScalar) : Except SourceRowError (Option Time) :=
  if value = some (.text "0") then .ok none else parseEcbDate text value issueDateField

/-- `parseSourceTimestamp`. -/
def parseSourceTimestamp (value field : String) : Except SourceRowError Time := do
  match ← parseEcbDate text (some (.text value)) field with
  | none => invalidField field "must contain a timestamp"
  | some parsed => .ok parsed

/-- `/^[+-]?(?:\d+(?:\.\d*)?|\.\d+)$/`. -/
def decimalNumberPattern : Regex Char Nat :=
  .seq .atStart (.seq (.optional (.char fun c => c == '+' || c == '-'))
    (.seq (.alt
      (.seq (.plus (.char Char.isDigit))
        (.optional (.seq (literally '.') (.star (.char Char.isDigit)))))
      (.seq (literally '.') (.plus (.char Char.isDigit))))
    .atEnd))

/-- `parseNumber`. -/
def parseNumber (value : Option SourceScalar) (field : String) : Except SourceRowError (Option Rat) :=
  match value with
  | none => .ok none
  | some value =>
    if isBlank (value.toText text) then
      .ok none
    else
      let digits := (trimChars (value.toText text).toList).filter fun c => c ≠ ','
      if !Regex.test decimalNumberPattern digits then
        invalidField field s!"must be a decimal number, received {value.stringify text}"
      else
        match toNumber (String.ofList digits) with
        | .finite parsed => .ok (some parsed)
        | _ => invalidField field "must be a finite decimal number"

/-- The message of the `ZodError` of `canonicalizeBin`. -/
def canonicalBinIssues : String :=
  "[\n  \x7b\n    \"code\": \"custom\",\n    \"message\": \"BIN must be a 7-digit NYC building identifier\",\n    \"path\": []\n  \x7d\n]"

/-- The BIN of a checked row. -/
def canonicalBinOf (value : SourceScalar) : Except SourceRowError CanonicalBin :=
  match canonicalizeBin (value.toText text) with
  | some bin => .ok bin
  | none => invalidField binField s!"must be a canonical 7-digit BIN: {canonicalBinIssues}"

end Fields

/-! ### Rows -/

/-- `NormalizedEcbViolation`, before it is stored. -/
structure NormalizedEcbRow where
  sourceId : SourceId
  socrataRowId : String
  bin : CanonicalBin
  violationNumber : Option String
  issueDate : Option Time
  ecbViolationStatus : Option String
  balanceDue : Option Rat
  sourceRowUpdatedAt : Time
  deriving DecidableEq

section Rows

variable (text : SourceText)

/-- The values of a checked row of that identity. -/
def normalizeFields (identity : EcbSourceIdentityText) (fields : EcbViolationFields) :
    Except SourceRowError NormalizedEcbRow := do
  let bin ← canonicalBinOf text fields.bin
  let issueDate ← parseIssueDate text fields.issueDate
  let balanceDue ← parseNumber text fields.balanceDue balanceDueField
  let sourceRowUpdatedAt ←
    parseSourceTimestamp text identity.sourceRowUpdatedAt sourceRowUpdatedAtField
  .ok { sourceId := identity.sourceId
        socrataRowId := identity.socrataRowId
        bin := bin
        violationNumber := nullableText text fields.violationNumber
        issueDate := issueDate
        ecbViolationStatus := nullableText text fields.violationStatus
        balanceDue := balanceDue
        sourceRowUpdatedAt := sourceRowUpdatedAt }

/-- `normalizeEcbViolation`. -/
def normalizeEcbViolation (input : SourceRow) : Except SourceRowError NormalizedEcbRow := do
  let row ← parseEcbViolationSourceRow text input
  let identity ← extractEcbSourceIdentity text (.object row.row)
  normalizeFields text identity row.fields

/-- The hundredths of a decimal text, as a `numeric(15, 2)` column rounds them: half away from zero. -/
def hundredths (decimal : String) : Int :=
  let (negative, digits) := splitSign decimal.toList
  let magnitude := ((decimalLiteral digits).getD 0 * 100 + 1 / 2).floor
  if negative then -magnitude else magnitude

/-- The columns of a staging row: the day of the issue date, and the balance in cents. -/
def NormalizedEcbRow.columns (row : NormalizedEcbRow) : NormalizedEcbViolation where
  sourceId := row.sourceId
  socrataRowId := row.socrataRowId
  bin := row.bin
  violationNumber := row.violationNumber
  issueDate := row.issueDate.map fun t => t / msPerDay
  ecbViolationStatus := row.ecbViolationStatus
  balanceDue := row.balanceDue.map fun value => hundredths (text.numberText (.finite value))
  sourceRowUpdatedAt := row.sourceRowUpdatedAt

/-- The rows of the program: what `persistRaw` makes of a row before it stores it, and what
`normalizeEcbViolation` does. -/
def ecbRowService : EcbRowService SourceRow where
  extractEcbSourceIdentity row :=
    match extractEcbSourceIdentity text row with
    | .error _ => .error "ECB row is not minimally identifiable for raw persistence"
    | .ok identity =>
      match parseEcbDate text (some (.text identity.sourceRowUpdatedAt)) sourceRowUpdatedAtField with
      | .ok (some sourceRowUpdatedAt) =>
        .ok ⟨identity.sourceId, identity.socrataRowId, sourceRowUpdatedAt⟩
      | _ => .error "ECB row has an invalid :updated_at value for raw persistence"
  normalizeEcbViolation row := (normalizeEcbViolation text row).toOption.map (·.columns text)

end Rows

end NycPropertyResolver
