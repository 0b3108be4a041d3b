import NycPropertyResolver.Domain.Schema

/-!
# Ingestion — raw and staging rows

`raw-staging.service.ts`: a source row is persisted as raw evidence, normalized, and upserted into
the staging rows of its run.  What a row's identity is and what normalization makes of it are the two
pure functions of an `EcbRowService`; everything proved over a service holds of every such pair.
-/

namespace NycPropertyResolver

open Library

variable {Row : Type}

/-- What raw persistence reads of a source row. -/
structure EcbSourceIdentity where
  sourceId : SourceId
  socrataRowId : String
  sourceRowUpdatedAt : Time

/-- The pure functions of a source row: `extractEcbSourceIdentity` with the parsed `:updated_at`,
and `normalizeEcbViolation`. -/
structure EcbRowService (Row : Type) where
  extractEcbSourceIdentity : Row → Except String EcbSourceIdentity
  normalizeEcbViolation : Row → Option NormalizedEcbViolation

namespace Db

/-- The upsert of `persistRaw`: a source version already stored is left as it is. -/
def persistRaw (db : Db Row) (runId : RunId) (identity : EcbSourceIdentity) (row : Row)
    (fetchedAt : Time) : Db Row :=
  match db.raw.find (identity.sourceId, identity.sourceRowUpdatedAt) with
  | some _ => db
  | none =>
    { db with
      raw := db.raw.set (identity.sourceId, identity.sourceRowUpdatedAt)
        { socrataRowId := identity.socrataRowId
          fetchedAt := fetchedAt
          firstSeenRunId := runId
          payload := row } }

/-- `upsertStaging`: one row for each source id of a run, the last one written. -/
def upsertStaging (db : Db Row) (runId : RunId) (normalized : NormalizedEcbViolation) : Db Row :=
  { db with
    staging := Function.update db.staging runId
      ((db.staging runId).set normalized.sourceId normalized) }

/-! ### Lemmas -/

variable {db : Db Row} {runId r : RunId} {v : NormalizedEcbViolation} {sourceId : SourceId}

theorem persistRaw_eq (db : Db Row) {identity : EcbSourceIdentity} {row : Row} {t : Time} :
    ∃ raw, db.persistRaw runId identity row t = { db with raw := raw } := by
  rw [persistRaw]
  split
  · exact ⟨db.raw, rfl⟩
  · exact ⟨_, rfl⟩

theorem find_upsertStaging_self : ((db.upsertStaging runId v).staging runId).find sourceId =
    if sourceId = v.sourceId then some v else (db.staging runId).find sourceId := by
  simp [upsertStaging, Table.find_set]

theorem staging_upsertStaging_ne (h : r ≠ runId) :
    (db.upsertStaging runId v).staging r = db.staging r := by
  simp [upsertStaging, h]

end Db

end NycPropertyResolver
