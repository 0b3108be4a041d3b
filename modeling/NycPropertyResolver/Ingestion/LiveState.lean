import NycPropertyResolver.Ingestion.Initialization

/-!
# Ingestion — live state

`live-state.repository.ts`: the two statements that publish the staging rows of an accepted run.
The first upserts every staged violation and stamps it with the run; the second demotes the current
rows of the scanned BINs that carry another stamp.
-/

namespace NycPropertyResolver

open Library

variable {Row : Type}

/-- A staged violation as the run publishes it. -/
def publishedViolation (runId : RunId) (now : Time) (staged : NormalizedEcbViolation) :
    EcbViolation where
  toNormalizedEcbViolation := staged
  lastSuccessRunId := runId
  isCurrent := true
  updatedAt := now

namespace Db

/-- `INSERT INTO ecb_violations … SELECT … FROM ecb_violation_staging … ON CONFLICT DO UPDATE`. -/
def promoteStaging (db : Db Row) (runId : RunId) (now : Time) : Db Row :=
  { db with
    live := db.live.upsertFrom (db.staging runId) fun _ staged _ =>
      publishedViolation runId now staged }

/-- The rows of the scanned BINs that another run stamped are no longer current. -/
def reconcileAbsences (db : Db Row) (runId : RunId) (now : Time) : Db Row :=
  let scannedBins := distinctBins (db.snapshot runId)
  { db with
    live := db.live.modifyAll fun _ live =>
      if live.bin ∈ scannedBins ∧ live.isCurrent = true ∧ live.lastSuccessRunId ≠ runId then
        { live with isCurrent := false, updatedAt := now }
      else
        live }

/-- `promoteEcbLiveState`. -/
def promoteEcbLiveState (db : Db Row) (runId : RunId) (now : Time) : Db Row :=
  (db.promoteStaging runId now).reconcileAbsences runId now

/-! ### What promotion computes -/

variable {db : Db Row} {runId : RunId} {now : Time} {sourceId : SourceId}

/-- A staged violation is live as it was staged. -/
theorem live_promote_of_staged {staged : NormalizedEcbViolation}
    (h : (db.staging runId).find sourceId = some staged) :
    (db.promoteEcbLiveState runId now).live.find sourceId =
      some (publishedViolation runId now staged) := by
  simp [promoteEcbLiveState, reconcileAbsences, promoteStaging, Table.find_upsertFrom, h,
    publishedViolation]

/-- A violation that the run did not stage is demoted when its BIN was scanned and another run
stamped it, and is left as it is otherwise. -/
theorem live_promote_of_not_staged (h : (db.staging runId).find sourceId = none) :
    (db.promoteEcbLiveState runId now).live.find sourceId =
      (db.live.find sourceId).map fun live =>
        if live.bin ∈ distinctBins (db.snapshot runId) ∧ live.isCurrent = true ∧
            live.lastSuccessRunId ≠ runId then
          { live with isCurrent := false, updatedAt := now }
        else
          live := by
  simp only [promoteEcbLiveState, reconcileAbsences, promoteStaging, Table.find_modifyAll,
    Table.find_upsertFrom, h]
  rfl

/-- **After promotion the current rows of the scanned BINs are the staged ones**, where no row that
the run did not stage carries its stamp. -/
theorem current_promote_iff {v : EcbViolation}
    (hstamp : ∀ s (live : EcbViolation), db.live.find s = some live →
      live.lastSuccessRunId = runId → (db.staging runId).find s ≠ none)
    (hbin : v.bin ∈ distinctBins (db.snapshot runId)) :
    ((db.promoteEcbLiveState runId now).live.find sourceId = some v ∧ v.isCurrent = true) ↔
      (∃ staged, (db.staging runId).find sourceId = some staged ∧
        v = publishedViolation runId now staged) := by
  cases hs : (db.staging runId).find sourceId with
  | some staged =>
      rw [live_promote_of_staged hs]
      constructor
      · rintro ⟨h, -⟩
        exact ⟨staged, rfl, (Option.some.inj h).symm⟩
      · rintro ⟨staged', h, rfl⟩
        cases h
        exact ⟨rfl, rfl⟩
  | none =>
      rw [live_promote_of_not_staged hs, Option.map_eq_some_iff]
      constructor
      · rintro ⟨⟨live, hl, rfl⟩, hc⟩
        split at hc
        · simp at hc
        · rename_i hn
          rw [if_neg hn] at hbin
          have hstamped : live.lastSuccessRunId = runId := by
            by_contra hne
            exact hn ⟨hbin, hc, hne⟩
          exact absurd hs (hstamp sourceId live hl hstamped)
      · rintro ⟨_, h, -⟩
        cases h

end Db

end NycPropertyResolver
