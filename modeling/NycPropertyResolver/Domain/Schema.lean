import NycPropertyResolver.Domain.Identifiers
import NycPropertyResolver.Library.Table

/-!
# Domain — schema

`schema.prisma`: the tables of the database and their columns.  Generated ids (UUIDs) are natural
numbers, and a new row takes a number that is not in use; instants are milliseconds.  A table whose
primary key is a property or a run (`property_bins`, `property_dataset_coverage`, the run snapshots,
the batches, the staging rows) is a function of that key.
-/

namespace NycPropertyResolver

open Library

/-- `properties.id`. -/
abbrev PropertyId := Nat

/-- `ingestion_runs.id`. -/
abbrev RunId := Nat

/-- The durable source identity of a violation, `source_id`. -/
abbrev SourceId := String

/-- Milliseconds since 1970-01-01T00:00:00Z. -/
abbrev Time := Int

/-! ### Enumerations -/

/-- `enum Dataset`. -/
inductive Dataset where
  | dobEcbViolations
  deriving DecidableEq, Repr

/-- `enum PropertyResolutionInputType`. -/
inductive PropertyResolutionInputType where
  | address
  | bbl
  deriving DecidableEq, Repr

/-- `enum CoverageStatus`. -/
inductive CoverageStatus where
  | checked
  | notChecked
  | failed
  deriving DecidableEq, Repr

/-- `enum CoverageStatusReason`. -/
inductive CoverageStatusReason where
  | neverIngested
  | noValidBin
  | identifiersChanged
  | identifiersChangedAfterSnapshot
  deriving DecidableEq, Repr

/-- `enum IngestionRunStatus`. -/
inductive IngestionRunStatus where
  | queued
  | running
  | completed
  | failed
  | sourceChanged
  deriving DecidableEq, Repr

/-- The value of the `IngestionRunStatus` enumeration, as an error shows it. -/
def IngestionRunStatus.text : IngestionRunStatus → String
  | .queued => "QUEUED"
  | .running => "RUNNING"
  | .completed => "COMPLETED"
  | .failed => "FAILED"
  | .sourceChanged => "SOURCE_CHANGED"

/-- `enum IngestionTriggerType`. -/
inductive IngestionTriggerType where
  | scheduled
  | manual
  deriving DecidableEq, Repr

/-- `enum IngestionBatchStatus`. -/
inductive IngestionBatchStatus where
  | pending
  | running
  | completed
  | failed
  deriving DecidableEq, Repr

/-! ### Rows -/

/-- `model Property`: the parcel of a registered property, and the version of its BINs. -/
structure Property where
  identifierVersion : Nat
  bbl : CanonicalBbl
  condoBaseBbl : Option CanonicalBbl
  condoBillingBbl : Option CanonicalBbl
  normalizedAddress : Option String
  borough : Nat
  block : Nat
  lot : Nat
  createdAt : Time
  resolvedAt : Time
  deriving DecidableEq

/-- The GeoSearch candidate a resolution went by, as `resolver_metadata` records it. -/
structure GeoSearchEvidence where
  label : String
  layer : String
  bbl : Option String
  bin : Option String
  confidence : Option Rat
  sourceId : Option String
  deriving DecidableEq

/-- The document in `resolver_metadata`, by its `flow`. -/
inductive ResolverMetadata where
  | nonCondo (canonicalBbl : CanonicalBbl) (geosearch : Option GeoSearchEvidence)
      (candidateBinCount : Nat)
  | condoUnit (unitBbl condoBaseBbl condoBillingBbl footprintValidationBbl : CanonicalBbl)
      (geosearch : Option GeoSearchEvidence) (candidateBinCount : Nat)
  | bulkNonCondo (canonicalBbl : CanonicalBbl) (candidateBinCount : Nat)
  | bulkCondoUnit (unitBbl condoBaseBbl condoBillingBbl : CanonicalBbl) (candidateBinCount : Nat)
  deriving DecidableEq

/-- `model PropertyResolutionInput`: what one input resolved to, and how sure the resolver was. -/
structure PropertyResolutionInput where
  propertyId : PropertyId
  resolvedAt : Time
  resolverConfidence : Option Rat
  resolverMetadata : ResolverMetadata
  deriving DecidableEq

/-- `model PropertyDatasetCoverage`: whether the violations stored for a property can be relied on,
and which runs say so. -/
structure PropertyDatasetCoverage where
  status : CoverageStatus
  statusReason : Option CoverageStatusReason
  lastAttemptRunId : Option RunId
  lastSuccessRunId : Option RunId
  lastAttemptAt : Option Time
  lastSuccessAt : Option Time
  sourceWatermarkAt : Option Time
  lastError : Option String
  deriving DecidableEq, Repr

/-- `model IngestionRun`: where a run stands, what it expects, and the watermarks it observed. -/
structure IngestionRun where
  dataset : Dataset
  status : IngestionRunStatus
  triggerType : IngestionTriggerType
  initializationComplete : Bool
  expectedPropertyBinCount : Option Nat
  expectedBinCount : Option Nat
  expectedBatchCount : Option Nat
  failureStage : Option String
  lastError : Option String
  startedAt : Option Time
  finishedAt : Option Time
  sourceWatermarkAtStart : Option Time
  sourceWatermarkAtEnd : Option Time
  deriving DecidableEq, Repr

/-- `model IngestionRunPropertyBin`: a BIN of the snapshot, and the version its property had. -/
structure IngestionRunPropertyBin where
  propertyId : PropertyId
  propertyIdentifierVersion : Nat
  bin : CanonicalBin
  deriving DecidableEq

/-- The `batch_definition` column: `{ bins, pageSize }`. -/
structure IngestionBatchDefinition where
  bins : List CanonicalBin
  pageSize : Nat
  deriving DecidableEq

/-- `model IngestionBatch`: the BINs of a batch, and what its attempts came to. -/
structure IngestionBatch where
  batchNumber : Nat
  status : IngestionBatchStatus
  batchDefinition : IngestionBatchDefinition
  pagesFetched : Nat
  attemptCount : Nat
  rowsFetched : Nat
  lastError : Option String
  completedAt : Option Time
  deriving DecidableEq

/-- What normalization makes of a source row, as the columns of `ecb_violation_staging` hold it:
the issue date in days, the balance in cents. -/
structure NormalizedEcbViolation where
  sourceId : SourceId
  socrataRowId : String
  bin : CanonicalBin
  violationNumber : Option String
  issueDate : Option Int
  ecbViolationStatus : Option String
  balanceDue : Option Int
  sourceRowUpdatedAt : Time
  deriving DecidableEq

/-- `model EcbViolationRaw`: a row of the source as it was first fetched. -/
structure EcbViolationRaw (Row : Type) where
  socrataRowId : String
  fetchedAt : Time
  firstSeenRunId : RunId
  payload : Row

/-- A row of `ecb_violations`: the published columns, the run that last published it and whether
it is current. -/
structure EcbViolation extends NormalizedEcbViolation where
  lastSuccessRunId : RunId
  isCurrent : Bool
  updatedAt : Time
  deriving DecidableEq

/-! ### The database -/

/-- The tables. What belongs to one property or to one run is kept under it. -/
structure Db (Row : Type) where
  properties : Table PropertyId Property
  propertyBins : PropertyId → SortedSet CanonicalBin
  coverage : PropertyId → Option PropertyDatasetCoverage
  resolutionInputs : Table (PropertyResolutionInputType × String) PropertyResolutionInput
  runs : Table RunId IngestionRun
  snapshot : RunId → List IngestionRunPropertyBin
  batches : RunId → List IngestionBatch
  raw : Table (SourceId × Time) (EcbViolationRaw Row)
  staging : RunId → Table SourceId NormalizedEcbViolation
  live : Table SourceId EcbViolation

/-- The database after the migrations: no row anywhere. -/
def Db.empty {Row : Type} : Db Row where
  properties := .empty
  propertyBins := fun _ => .empty
  coverage := fun _ => none
  resolutionInputs := .empty
  runs := .empty
  snapshot := fun _ => []
  batches := fun _ => []
  raw := .empty
  staging := fun _ => .empty
  live := .empty

/-! ### Errors -/

/-- What a service throws: a lost lock session, observed before the named operation, or any other
error with its message. -/
inductive ServiceError where
  | authorityLost (operation : String)
  | error (message : String)
  deriving DecidableEq, Repr

/-- `authority.assertAuthorized(operation)`, with what the check observes. -/
def assertAuthorized (authorized : Bool) (operation : String) : Except ServiceError Unit :=
  if authorized then .ok () else .error (.authorityLost operation)

/-- `if (!condition) throw error(message)`. -/
def ensure (condition : Prop) [Decidable condition] (message : String) :
    Except ServiceError Unit :=
  if condition then .ok () else .error (.error message)

/-- `if (value === null) throw error(message)`. -/
def require {α : Type} (value : Option α) (message : String) : Except ServiceError α :=
  match value with
  | some a => .ok a
  | none => .error (.error message)

section Except

variable {α β : Type} {r : β}

theorem assertAuthorized_bind_ok {b : Bool} {op : String} {f : Unit → Except ServiceError β} :
    (assertAuthorized b op >>= f) = .ok r ↔ b = true ∧ f () = .ok r := by
  cases b <;> simp [assertAuthorized, bind, Except.bind]

theorem ensure_bind_ok {p : Prop} [Decidable p] {msg : String} {f : Unit → Except ServiceError β} :
    (ensure p msg >>= f) = .ok r ↔ p ∧ f () = .ok r := by
  by_cases h : p <;> simp [ensure, h, bind, Except.bind]

theorem require_bind_ok {v : Option α} {msg : String} {f : α → Except ServiceError β} :
    (require v msg >>= f) = .ok r ↔ ∃ a, v = some a ∧ f a = .ok r := by
  cases v <;> simp [require, bind, Except.bind]

theorem except_bind_ok {ε : Type} {x : Except ε α} {f : α → Except ε β} :
    (x >>= f) = .ok r ↔ ∃ a, x = .ok a ∧ f a = .ok r := by
  cases x <;> simp [bind, Except.bind]

theorem except_bind_error {ε : Type} {e : ε} {x : Except ε α} {f : α → Except ε β} :
    (x >>= f) = .error e ↔ x = .error e ∨ ∃ a, x = .ok a ∧ f a = .error e := by
  cases x <;> simp [bind, Except.bind]

end Except

end NycPropertyResolver
