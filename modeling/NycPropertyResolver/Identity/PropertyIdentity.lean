import Mathlib.Logic.Function.Basic
import NycPropertyResolver.Domain.Schema

/-!
# Identity — properties

`property-identity.service.ts`: a property is created with its first BIN set, its coverage row and
`identifier_version` 1, and its BIN set is changed afterwards by `applyEffectiveBinSet` alone, which
raises the version and invalidates the coverage in the same transaction.
-/

namespace NycPropertyResolver

open Library

variable {Row : Type}

/-! ### Errors -/

/-- `AppError`, the errors of the database client by code, its error for a row whose required
relation is missing, and the language's `TypeError`. -/
inductive IdentityError where
  | app (code message : String) (statusCode : Nat)
  | database (code : String)
  | inconsistentResult
  | typeError
  deriving DecidableEq, Repr

/-- `assertValidBbl`. -/
def assertValidBbl (input : String) : Except IdentityError CanonicalBbl :=
  match canonicalizeBbl input with
  | some bbl => .ok bbl
  | none => .error (.app "INVALID_BBL" "BBL must be a 10-digit NYC parcel identifier" 400)

/-- `input ? assertValidBbl(input) : null`. -/
def assertValidOptionalBbl (input : Option String) : Except IdentityError (Option CanonicalBbl) :=
  match input with
  | none => .ok none
  | some text => if text.isEmpty then .ok none else (assertValidBbl text).map some

/-! ### Coverage of a new BIN set -/

/-- NOT_CHECKED, with no attempt recorded. -/
def uncheckedCoverage (reason : CoverageStatusReason) : PropertyDatasetCoverage where
  status := .notChecked
  statusReason := some reason
  lastAttemptRunId := none
  lastSuccessRunId := none
  lastAttemptAt := none
  lastSuccessAt := none
  sourceWatermarkAt := none
  lastError := none

/-- `buildInitialCoverage`: the coverage of a new property, by whether it has a BIN. -/
def buildInitialCoverage (validBins : SortedSet CanonicalBin) : PropertyDatasetCoverage :=
  uncheckedCoverage (if validBins.size > 0 then .neverIngested else .noValidBin)

/-- `buildCoverageAfterBinSetChange`: the coverage of a property whose BINs changed. -/
def buildCoverageAfterBinSetChange (nextBins : SortedSet CanonicalBin) : PropertyDatasetCoverage :=
  uncheckedCoverage (if nextBins.size = 0 then .noValidBin else .identifiersChanged)

/-! ### Creation -/

/-- `CreatePropertyInput`. -/
structure CreatePropertyInput where
  bbl : String
  candidateBins : List String
  normalizedAddress : Option String
  condoBaseBbl : Option String
  condoBillingBbl : Option String
  borough : Option Nat
  block : Option Nat
  lot : Option Nat
  resolvedAt : Option Time
  deriving DecidableEq

/-- The result of `applyEffectiveBinSet` beside the property. -/
structure ApplyEffectiveBinSetResult where
  changed : Bool
  previousBins : SortedSet CanonicalBin
  nextBins : SortedSet CanonicalBin

namespace Db

/-- The version of a property. -/
def versionOf (db : Db Row) (p : PropertyId) : Option Nat :=
  (db.properties.find p).map Property.identifierVersion

/-- `findUnique({ where: { bbl } })`. -/
def findPropertyByBbl (db : Db Row) (bbl : CanonicalBbl) : Option PropertyId :=
  db.properties.keys.find? fun p => (db.properties.find p).any fun property => property.bbl = bbl

/-- The transaction of `findOrCreateProperty`: the property with its BINs and its coverage row; the
database refuses a second property at a BBL. -/
def createProperty (db : Db Row) (propertyId : PropertyId) (input : CreatePropertyInput)
    (now : Time) : Except IdentityError (Db Row) := do
  let bbl ← assertValidBbl input.bbl
  let condoBaseBbl ← assertValidOptionalBbl input.condoBaseBbl
  let condoBillingBbl ← assertValidOptionalBbl input.condoBillingBbl
  let parsed := parseBblComponents bbl
  let validBins := filterValidBins input.candidateBins
  if db.findPropertyByBbl bbl ≠ none ∨ db.properties.find propertyId ≠ none then
    .error (.database "P2002")
  else
    .ok { db with
      properties := db.properties.set propertyId
        { identifierVersion := 1
          bbl := bbl
          condoBaseBbl := condoBaseBbl
          condoBillingBbl := condoBillingBbl
          normalizedAddress := input.normalizedAddress
          borough := input.borough.getD parsed.borough
          block := input.block.getD parsed.block
          lot := input.lot.getD parsed.lot
          -- the default `now()` of the column
          createdAt := now
          resolvedAt := input.resolvedAt.getD now }
      propertyBins := Function.update db.propertyBins propertyId validBins
      coverage := Function.update db.coverage propertyId (some (buildInitialCoverage validBins)) }

/-! ### The BIN set -/

/-- The upsert of the coverage row after a change of the BIN set: the success side of an existing
row is kept. -/
def invalidatedCoverage (c : Option PropertyDatasetCoverage) (nextBins : SortedSet CanonicalBin) :
    PropertyDatasetCoverage :=
  let update := buildCoverageAfterBinSetChange nextBins
  match c with
  | none => update
  | some c => { c with
      status := update.status
      statusReason := update.statusReason
      lastAttemptRunId := update.lastAttemptRunId
      lastAttemptAt := update.lastAttemptAt }

/-- The writes of a call that changes the BIN set. -/
def replaceBinSet (db : Db Row) (propertyId : PropertyId) (nextBins : SortedSet CanonicalBin) : Db Row :=
  { db with
    propertyBins := Function.update db.propertyBins propertyId nextBins
    properties := db.properties.modify propertyId fun property =>
      { property with identifierVersion := property.identifierVersion + 1 }
    coverage := Function.update db.coverage propertyId
      (some (invalidatedCoverage (db.coverage propertyId) nextBins)) }

/-- `applyEffectiveBinSet`: one transaction, with the property row locked. -/
def applyEffectiveBinSet (db : Db Row) (propertyId : PropertyId) (candidateBins : List String) :
    Except IdentityError (Db Row × ApplyEffectiveBinSetResult) :=
  let nextBins := filterValidBins candidateBins
  match db.properties.find propertyId with
  | none =>
    .error (.app "PROPERTY_NOT_FOUND" s!"Property {propertyId} was not found" 404)
  | some _ =>
    if db.propertyBins propertyId = nextBins then
      .ok (db, ⟨false, db.propertyBins propertyId, nextBins⟩)
    else
      .ok (db.replaceBinSet propertyId nextBins, ⟨true, db.propertyBins propertyId, nextBins⟩)

/-! ### What the operations do -/

variable {db db' : Db Row} {propertyId : PropertyId}

/-- A property is found by its BBL exactly when there is one. -/
theorem findPropertyByBbl_eq_none {bbl : CanonicalBbl} :
    db.findPropertyByBbl bbl = none ↔
      ∀ p property, db.properties.find p = some property → property.bbl ≠ bbl := by
  simp only [findPropertyByBbl, List.find?_eq_none, Option.any_eq_true, decide_eq_true_eq,
    not_exists, not_and]
  constructor
  · intro h p property hp
    exact h p ((db.properties.mem_keys p).mpr (by simp [hp])) property hp
  · intro h p _ property hp
    exact h p property hp

theorem findPropertyByBbl_eq_some {bbl : CanonicalBbl} {p : PropertyId}
    (h : db.findPropertyByBbl bbl = some p) :
    ∃ property, db.properties.find p = some property ∧ property.bbl = bbl := by
  simpa [Option.any_eq_true] using List.find?_some h

/-- **A created property** is new, and stands with the valid BINs of its input, version 1 and the
initial coverage. -/
theorem createProperty_eq_ok {input : CreatePropertyInput} {now : Time}
    (h : db.createProperty propertyId input now = .ok db') :
    ∃ property bbl, canonicalizeBbl input.bbl = some bbl ∧ property.bbl = bbl ∧
      property.identifierVersion = 1 ∧ db.findPropertyByBbl bbl = none ∧
      db.properties.find propertyId = none ∧
      db' = { db with
        properties := db.properties.set propertyId property
        propertyBins := Function.update db.propertyBins propertyId (filterValidBins input.candidateBins)
        coverage := Function.update db.coverage propertyId
          (some (buildInitialCoverage (filterValidBins input.candidateBins))) } := by
  simp only [createProperty, bind, Except.bind] at h
  split at h
  · cases h
  rename_i bbl hbbl
  have hcanon : canonicalizeBbl input.bbl = some bbl := by
    rw [assertValidBbl] at hbbl
    split at hbbl
    · cases hbbl; assumption
    · cases hbbl
  split at h
  · cases h
  split at h
  · cases h
  split at h
  · cases h
  · rename_i hn
    rw [not_or, not_not, not_not] at hn
    cases h
    exact ⟨_, bbl, hcanon, rfl, rfl, hn.1, hn.2, rfl⟩

/-- **What `applyEffectiveBinSet` does**: nothing when the valid candidates are the BIN set already,
and otherwise the new set, the next version and the invalidated coverage, together. -/
theorem applyEffectiveBinSet_eq_ok {candidateBins : List String} {r : ApplyEffectiveBinSetResult}
    (h : db.applyEffectiveBinSet propertyId candidateBins = .ok (db', r)) :
    db.properties.find propertyId ≠ none ∧
      ((db.propertyBins propertyId = filterValidBins candidateBins ∧ db' = db ∧ r.changed = false) ∨
        (db.propertyBins propertyId ≠ filterValidBins candidateBins ∧ r.changed = true ∧
          db' = db.replaceBinSet propertyId (filterValidBins candidateBins))) := by
  rw [applyEffectiveBinSet] at h
  split at h
  · cases h
  · rename_i property hp
    refine ⟨by simp [hp], ?_⟩
    split at h
    · cases h; exact Or.inl ⟨‹_›, rfl, rfl⟩
    · cases h; exact Or.inr ⟨‹_›, rfl, rfl⟩

end Db

end NycPropertyResolver
