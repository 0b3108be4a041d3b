import NycPropertyResolver.Ingestion.System

/-!
# Ingestion — what promotion makes of the live table

The two statements of `promoteEcbLiveState` compose to the reconciled table: on the BINs of the
snapshot the current rows are the staged ones, whether a violation was new, has moved between BINs,
into them or out of them, or had been demoted before; no row is lost or doubled, and a second promotion
writes the same rows.
-/

namespace NycPropertyResolver

open Library

variable {Row : Type}

/-! ### Statements -/

/-- A row stands at its `source_id`. -/
def KeyedBySource {α : Type} (sourceId : α → SourceId) (t : Table SourceId α) : Prop :=
  ∀ k a, t.find k = some a → sourceId a = k

/-- A row without its `updated_at`. -/
def EcbViolation.columns (v : EcbViolation) : NormalizedEcbViolation × RunId × Bool :=
  (v.toNormalizedEcbViolation, v.lastSuccessRunId, v.isCurrent)

/-- **The reconciled table.** -/
structure LivePromoted (db : Db Row) (runId : RunId) (live' : Table SourceId EcbViolation) :
    Prop where
  /-- The current rows of a BIN of the snapshot. -/
  current : ∀ row ∈ db.snapshot runId, ∀ sourceId (v : NormalizedEcbViolation), v.bin = row.bin →
    ((∃ live, live'.find sourceId = some live ∧ live.isCurrent = true ∧
      live.toNormalizedEcbViolation = v) ↔ (db.staging runId).find sourceId = some v)
  /-- A staged violation, wherever its BIN is and was. -/
  staged : ∀ sourceId v, (db.staging runId).find sourceId = some v →
    (live'.find sourceId).map EcbViolation.columns = some (v, runId, true)
  /-- A violation that the run did not stage, on another BIN. -/
  untouched : ∀ sourceId live, db.live.find sourceId = some live →
    (db.staging runId).find sourceId = none → (∀ row ∈ db.snapshot runId, row.bin ≠ live.bin) →
      live'.find sourceId = some live
  /-- No row is deleted, and only staged violations are inserted. -/
  rows : ∀ sourceId, live'.find sourceId ≠ none ↔
    db.live.find sourceId ≠ none ∨ (db.staging runId).find sourceId ≠ none
  unique : (live'.rows.map fun r => r.2.sourceId).Nodup

/-! ### Keys -/

section Keys

variable {α : Type} {f : α → SourceId} {t : Table SourceId α}

/-- Rows that stand at their `source_id` have different ones. -/
theorem KeyedBySource.nodup (h : KeyedBySource f t) : (t.rows.map fun r => f r.2).Nodup := by
  have hkeys : (t.rows.map fun r => f r.2).Sublist t.keys := by
    have hrows : ∀ ks : List SourceId, ((ks.filterMap fun k => (t.find k).map fun a => (k, a)).map
        fun r => f r.2).Sublist ks := by
      intro ks
      induction ks with
      | nil => exact List.Sublist.slnil
      | cons k ks ih =>
          cases hk : t.find k with
          | none =>
              rw [List.filterMap_cons_none (by rw [hk]; rfl)]
              exact ih.cons k
          | some a =>
              rw [List.filterMap_cons_some (by rw [hk]; rfl), List.map_cons]
              show List.Sublist (f a :: _) _
              rw [h k a hk]
              exact ih.cons_cons k
    exact hrows t.keys
  exact t.nodup.sublist hkeys

end Keys

/-! ### Promotion -/

namespace Db

variable {db : Db Row} {runId : RunId} {now : Time} {sourceId : SourceId}

/-- The rows after promotion stand at their `source_id`. -/
theorem keyed_promote (hlive : KeyedBySource (·.sourceId) db.live)
    (hstaging : KeyedBySource (·.sourceId) (db.staging runId)) :
    KeyedBySource (·.sourceId) (db.promoteEcbLiveState runId now).live := by
  intro sourceId live h
  cases hs : (db.staging runId).find sourceId with
  | some v =>
      rw [live_promote_of_staged hs] at h
      cases h
      exact hstaging sourceId v hs
  | none =>
      rw [live_promote_of_not_staged hs] at h
      obtain ⟨live₀, hlive₀, rfl⟩ := Option.map_eq_some_iff.mp h
      have hkey := hlive sourceId live₀ hlive₀
      split
      · exact hkey
      · exact hkey

/-- A violation is live after promotion when it was live or is staged. -/
theorem live_promote_ne_none : (db.promoteEcbLiveState runId now).live.find sourceId ≠ none ↔
    db.live.find sourceId ≠ none ∨ (db.staging runId).find sourceId ≠ none := by
  cases hs : (db.staging runId).find sourceId with
  | some v => simp [live_promote_of_staged hs]
  | none => simp [live_promote_of_not_staged hs]

/-- **A second promotion writes the same rows.** -/
theorem live_promote_again (now' : Time) :
    (((db.promoteEcbLiveState runId now).promoteEcbLiveState runId now').live.find sourceId).map
        EcbViolation.columns =
      ((db.promoteEcbLiveState runId now).live.find sourceId).map EcbViolation.columns := by
  cases hs : (db.staging runId).find sourceId with
  | some v =>
      have hs' : ((db.promoteEcbLiveState runId now).staging runId).find sourceId = some v := hs
      rw [live_promote_of_staged hs, live_promote_of_staged hs']
      rfl
  | none =>
      have hs' : ((db.promoteEcbLiveState runId now).staging runId).find sourceId = none := hs
      have hsnapshot : (db.promoteEcbLiveState runId now).snapshot runId = db.snapshot runId := rfl
      rw [live_promote_of_not_staged hs', live_promote_of_not_staged hs, hsnapshot]
      cases db.live.find sourceId with
      | none => rfl
      | some live =>
          -- a row the first promotion demoted is no longer current
          by_cases hdemoted : live.bin ∈ distinctBins (db.snapshot runId) ∧
              live.isCurrent = true ∧ live.lastSuccessRunId ≠ runId
          · simp only [Option.map_some, if_pos hdemoted]
            rw [if_neg fun h => Bool.false_ne_true h.2.1]
          · simp only [Option.map_some, if_neg hdemoted]

/-- What promotion makes of the live table. -/
theorem livePromoted (hlive : KeyedBySource (·.sourceId) db.live)
    (hstaging : KeyedBySource (·.sourceId) (db.staging runId))
    (hstamp : ∀ sourceId live, db.live.find sourceId = some live →
      live.lastSuccessRunId = runId → (db.staging runId).find sourceId ≠ none) :
    LivePromoted db runId (db.promoteEcbLiveState runId now).live where
  current row hrow sourceId v hbin := by
    have hscanned : v.bin ∈ distinctBins (db.snapshot runId) := by
      rw [hbin]
      exact SortedSet.mem_ofList.mpr (List.mem_map.mpr ⟨row, hrow, rfl⟩)
    constructor
    · rintro ⟨live, hfind, hcurrent, rfl⟩
      obtain ⟨v, hv, rfl⟩ := (current_promote_iff hstamp hscanned).mp ⟨hfind, hcurrent⟩
      exact hv
    · intro hv
      have hpublished : (publishedViolation runId now v).bin ∈ distinctBins (db.snapshot runId) :=
        hscanned
      obtain ⟨hfind, hcurrent⟩ := (current_promote_iff hstamp hpublished).mpr ⟨v, hv, rfl⟩
      exact ⟨_, hfind, hcurrent, rfl⟩
  staged sourceId v hv := by
    rw [live_promote_of_staged hv]
    rfl
  untouched sourceId live hfind hs hbin := by
    have hscanned : ¬ live.bin ∈ distinctBins (db.snapshot runId) := by
      intro hmem
      obtain ⟨row, hrow, heq⟩ := List.mem_map.mp (SortedSet.mem_ofList.mp hmem)
      exact hbin row hrow heq
    rw [live_promote_of_not_staged hs, hfind, Option.map_some, if_neg fun h => hscanned h.1]
  rows _ := live_promote_ne_none
  unique := (keyed_promote hlive hstaging).nodup

end Db

/-- **Live promotion computes the reconciled table**, writes nothing else, and changes nothing but
`updated_at` when it runs again. -/
theorem live_promotion_reconciles (db : Db Row) (runId : RunId) (now : Time)
    (hlive : KeyedBySource (·.sourceId) db.live)
    (hstaging : KeyedBySource (·.sourceId) (db.staging runId))
    (hstamp : ∀ sourceId live, db.live.find sourceId = some live →
      live.lastSuccessRunId = runId → (db.staging runId).find sourceId ≠ none) :
    LivePromoted db runId (db.promoteEcbLiveState runId now).live ∧
      db.promoteEcbLiveState runId now =
        { db with live := (db.promoteEcbLiveState runId now).live } ∧
      ∀ now', (db.promoteEcbLiveState runId now).promoteEcbLiveState runId now' =
          { db.promoteEcbLiveState runId now with
            live := ((db.promoteEcbLiveState runId now).promoteEcbLiveState runId now').live } ∧
        ∀ sourceId,
          (((db.promoteEcbLiveState runId now).promoteEcbLiveState runId now').live.find
              sourceId).map EcbViolation.columns =
            ((db.promoteEcbLiveState runId now).live.find sourceId).map EcbViolation.columns :=
  ⟨Db.livePromoted hlive hstaging hstamp, rfl, fun now' => ⟨rfl, fun _ => Db.live_promote_again now'⟩⟩

/-- Before the publication of run 1: violation "1" has moved into the BIN of the snapshot, and violation
"2" is no longer there. -/
def movedViolationDb : Db NormalizedEcbViolation :=
  { (Db.empty : Db NormalizedEcbViolation) with
    snapshot := fun _ => [⟨0, 1, sampleViolation.bin⟩]
    staging := fun _ => Table.empty.set "1" sampleViolation
    live := (Table.empty.set "1"
        ⟨{ sampleViolation with bin := ⟨"1000005", rfl, rfl⟩ }, 0, true, 0⟩).set "2"
      ⟨{ sampleViolation with sourceId := "2" }, 0, true, 0⟩ }

theorem live_promotion_reconciles_movedViolation :
    LivePromoted movedViolationDb 1 (movedViolationDb.promoteEcbLiveState 1 7).live ∧
      movedViolationDb.promoteEcbLiveState 1 7 =
        { movedViolationDb with live := (movedViolationDb.promoteEcbLiveState 1 7).live } ∧
      ∀ now', (movedViolationDb.promoteEcbLiveState 1 7).promoteEcbLiveState 1 now' =
          { movedViolationDb.promoteEcbLiveState 1 7 with
            live := ((movedViolationDb.promoteEcbLiveState 1 7).promoteEcbLiveState 1 now').live } ∧
        ∀ sourceId,
          (((movedViolationDb.promoteEcbLiveState 1 7).promoteEcbLiveState 1 now').live.find
              sourceId).map EcbViolation.columns =
            ((movedViolationDb.promoteEcbLiveState 1 7).live.find sourceId).map
              EcbViolation.columns := by
  refine live_promotion_reconciles movedViolationDb 1 7 ?_ ?_ ?_
  · intro k v h
    simp only [movedViolationDb, Table.find_set, Table.find_empty] at h
    split at h
    · cases h
      exact (‹k = "2"›).symm
    · split at h
      · cases h
        exact (‹k = "1"›).symm
      · cases h
  · intro k v h
    simp only [movedViolationDb, Table.find_set, Table.find_empty] at h
    split at h
    · cases h
      exact (‹k = "1"›).symm
    · cases h
  · intro k v h hstamp
    simp only [movedViolationDb, Table.find_set, Table.find_empty] at h
    split at h
    · cases h
      cases hstamp
    · split at h
      · cases h
        cases hstamp
      · cases h

end NycPropertyResolver
