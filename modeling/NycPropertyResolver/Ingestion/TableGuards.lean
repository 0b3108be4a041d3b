import NycPropertyResolver.Ingestion.Initialization
import NycPropertyResolver.Library.Steps

/-!
# Ingestion — table guards

The migrations of `prisma/migrations`: what the database itself refuses on the tables that describe a
run, whoever writes.  The constraints and the triggers keep their names from the SQL, and
`GuardedTables.exec` is one row written by one statement, `none` when the statement is refused.  Rows
are inserted, updated and deleted in any order by any writer, one statement after another; a primary key
is never updated.  `TRUNCATE` is not among the statements, for it fires none of the triggers, and
neither are transactions at the same time: a trigger takes no lock on the run it reads, which another
transaction may seal before the row is written.

A trigger reads the tables as they are before its row is written.  The rows that a deleted run takes
with it are deleted after the run itself is gone, so no trigger finds it sealed; `exec` leaves out the
restricting references of the raw and live rows, and so deletes more runs than the database would.
-/

namespace NycPropertyResolver

open Library

/-! ### Constraints and triggers -/

/-- What happens to a row, as a trigger sees it. -/
inductive RowOperation (α : Type) where
  | insert (new : α)
  | update (old new : α)
  | delete (old : α)

/-- `ingestion_runs_state_check`, `ingestion_runs_queued_watermark_check` and
`ingestion_runs_watermark_requires_initialization_check`. -/
def RunChecks (run : IngestionRun) : Prop :=
  (run.status ∉ [.running, .completed, .sourceChanged] ∨
      run.initializationComplete = true ∧ run.sourceWatermarkAtStart ≠ none) ∧
    ¬ (run.status = .queued ∧ run.sourceWatermarkAtStart ≠ none) ∧
    (run.sourceWatermarkAtStart = none ∨ run.initializationComplete = true)

instance (run : IngestionRun) : Decidable (RunChecks run) :=
  inferInstanceAs (Decidable (_ ∧ _ ∧ _))

/-- The trigger function of `ingestion_runs_watermark_immutable`. -/
def enforceIngestionRunWatermarkImmutability (old new : IngestionRun) : Bool :=
  old.sourceWatermarkAtStart = new.sourceWatermarkAtStart || old.sourceWatermarkAtStart = none

/-- The trigger function of `ingestion_runs_initialization_monotonic`. -/
def enforceIngestionInitializationMonotonicity (old new : IngestionRun) : Bool :=
  !(old.initializationComplete && !new.initializationComplete)

/-- The tables that the ingestion constraints speak of, and the properties that exist. -/
structure GuardedTables where
  properties : PropertyId → Bool
  runs : Table RunId IngestionRun
  snapshot : RunId → List IngestionRunPropertyBin
  batches : RunId → List IngestionBatch

/-- The guarded tables of a database. -/
def Db.guarded {Row : Type} (db : Db Row) : GuardedTables where
  properties := fun p => (db.properties.find p).isSome
  runs := db.runs
  snapshot := db.snapshot
  batches := db.batches

/-- The key of a snapshot row within its run. -/
def IngestionRunPropertyBin.key (row : IngestionRunPropertyBin) : PropertyId × CanonicalBin :=
  (row.propertyId, row.bin)

namespace GuardedTables

variable (t : GuardedTables)

/-- No row in any table. -/
def empty : GuardedTables := ⟨fun _ => false, .empty, fun _ => [], fun _ => []⟩

/-- `EXISTS (SELECT 1 FROM ingestion_runs WHERE id = … AND initialization_complete = true)`. -/
def isSealed (runId : RunId) : Bool :=
  (t.runs.find runId).any (·.initializationComplete)

/-- The trigger function of `ingestion_run_property_bins_immutable`. -/
def enforceIngestionSnapshotImmutability : RowOperation (RunId × IngestionRunPropertyBin) → Bool
  | .insert new => !t.isSealed new.1
  | .update old new => !t.isSealed new.1 && (old.1 = new.1 || !t.isSealed old.1)
  | .delete old => !t.isSealed old.1

/-- The trigger function of `ingestion_batches_definition_immutable`. -/
def enforceIngestionBatchDefinitionImmutability : RowOperation (RunId × IngestionBatch) → Bool
  | .insert new => !t.isSealed new.1
  | .update old new =>
    old.1 = new.1 && old.2.batchNumber = new.2.batchNumber &&
      old.2.batchDefinition = new.2.batchDefinition
  | .delete old => !t.isSealed old.1

/-- `ingestion_runs_one_active_per_dataset_idx`, for the row of the given run. -/
def OneActiveWith (runId : RunId) (run : IngestionRun) : Prop :=
  run.isActive = true → ∀ r ∈ t.runs.rows, r.1 = runId ∨ r.2.isActive = false

instance (runId : RunId) (run : IngestionRun) : Decidable (t.OneActiveWith runId run) :=
  inferInstanceAs (Decidable (_ → _))

/-- The constraints of `ingestion_run_property_bins` on a row beside the given rows of its run. -/
def SnapshotRowChecks (runId : RunId) (row : IngestionRunPropertyBin)
    (others : List IngestionRunPropertyBin) : Prop :=
  t.runs.find runId ≠ none ∧ t.properties row.propertyId = true ∧
    0 < row.propertyIdentifierVersion ∧ row.key ∉ others.map (·.key)

instance (runId : RunId) (row : IngestionRunPropertyBin) (others : List IngestionRunPropertyBin) :
    Decidable (t.SnapshotRowChecks runId row others) :=
  inferInstanceAs (Decidable (_ ∧ _ ∧ _ ∧ _))

/-- The constraints of `ingestion_batches` on a new row; the counters are natural numbers. -/
def BatchChecks (runId : RunId) (b : IngestionBatch) : Prop :=
  t.runs.find runId ≠ none ∧ 0 < b.batchNumber ∧
    b.batchNumber ∉ (t.batches runId).map (·.batchNumber)

instance (runId : RunId) (b : IngestionBatch) : Decidable (t.BatchChecks runId b) :=
  inferInstanceAs (Decidable (_ ∧ _ ∧ _))

end GuardedTables

/-! ### Statements -/

/-- An INSERT, UPDATE or DELETE of one row, with nothing else under way. -/
inductive GuardedStatement where
  | insertProperty (propertyId : PropertyId)
  | deleteProperty (propertyId : PropertyId)
  | insertRun (runId : RunId) (run : IngestionRun)
  | updateRun (runId : RunId) (run : IngestionRun)
  | deleteRun (runId : RunId)
  | insertSnapshotRow (runId : RunId) (row : IngestionRunPropertyBin)
  | updateSnapshotRow (runId : RunId) (row : IngestionRunPropertyBin) (runId' : RunId)
      (row' : IngestionRunPropertyBin)
  | deleteSnapshotRow (runId : RunId) (row : IngestionRunPropertyBin)
  | insertBatch (runId : RunId) (b : IngestionBatch)
  | updateBatch (runId : RunId) (batchNumber : Nat) (runId' : RunId) (b' : IngestionBatch)
  | deleteBatch (runId : RunId) (batchNumber : Nat)
  deriving DecidableEq

namespace GuardedTables

/-- **One statement**, under the constraints and the triggers.  A statement that finds no row does
nothing. -/
def exec (t : GuardedTables) : GuardedStatement → Option GuardedTables
  | .insertProperty p =>
    if t.properties p then none
    else some { t with properties := Function.update t.properties p true }
  | .deleteProperty p =>
    -- the snapshot rows of the property go with it, each under its own trigger
    if t.runs.keys.all fun r =>
        ((t.snapshot r).filter (·.propertyId = p)).all fun row =>
          t.enforceIngestionSnapshotImmutability (.delete (r, row)) then
      some { t with
        properties := Function.update t.properties p false
        snapshot := fun r => (t.snapshot r).filter (·.propertyId ≠ p) }
    else none
  | .insertRun runId run =>
    if RunChecks run ∧ t.OneActiveWith runId run then
      (t.runs.insert runId run).map fun runs => { t with runs := runs }
    else none
  | .updateRun runId run' =>
    match t.runs.find runId with
    | none => some t
    | some run =>
      if enforceIngestionRunWatermarkImmutability run run' = true ∧
          enforceIngestionInitializationMonotonicity run run' = true ∧
          RunChecks run' ∧ t.OneActiveWith runId run' then
        some { t with runs := t.runs.modify runId fun _ => run' }
      else none
  | .deleteRun runId =>
    some { t with
      runs := t.runs.erase runId
      snapshot := Function.update t.snapshot runId []
      batches := Function.update t.batches runId [] }
  | .insertSnapshotRow runId row =>
    if t.enforceIngestionSnapshotImmutability (.insert (runId, row)) = true ∧
        t.SnapshotRowChecks runId row (t.snapshot runId) then
      some { t with snapshot := Function.update t.snapshot runId (t.snapshot runId ++ [row]) }
    else none
  | .updateSnapshotRow runId row runId' row' =>
    if row ∈ t.snapshot runId then
      let removed := Function.update t.snapshot runId ((t.snapshot runId).erase row)
      if t.enforceIngestionSnapshotImmutability (.update (runId, row) (runId', row')) = true ∧
          t.SnapshotRowChecks runId' row' (removed runId') then
        some { t with snapshot := Function.update removed runId' (removed runId' ++ [row']) }
      else none
    else some t
  | .deleteSnapshotRow runId row =>
    if row ∈ t.snapshot runId then
      if t.enforceIngestionSnapshotImmutability (.delete (runId, row)) then
        some { t with snapshot := Function.update t.snapshot runId ((t.snapshot runId).erase row) }
      else none
    else some t
  | .insertBatch runId b =>
    if t.enforceIngestionBatchDefinitionImmutability (.insert (runId, b)) = true ∧
        t.BatchChecks runId b then
      some { t with batches := Function.update t.batches runId (t.batches runId ++ [b]) }
    else none
  | .updateBatch runId batchNumber runId' b' =>
    match (t.batches runId).find? fun b => b.batchNumber = batchNumber with
    | none => some t
    | some b =>
      if t.enforceIngestionBatchDefinitionImmutability (.update (runId, b) (runId', b')) then
        let rows := (t.batches runId).map fun c => if c.batchNumber = batchNumber then b' else c
        some { t with batches := Function.update t.batches runId rows }
      else none
  | .deleteBatch runId batchNumber =>
    match (t.batches runId).find? fun b => b.batchNumber = batchNumber with
    | none => some t
    | some b =>
      if t.enforceIngestionBatchDefinitionImmutability (.delete (runId, b)) then
        let rows := (t.batches runId).filter fun c => c.batchNumber ≠ batchNumber
        some { t with batches := Function.update t.batches runId rows }
      else none

/-! ### What a statement can do -/

variable {t t' : GuardedTables}

/-- **What an accepted statement does**, with the checks it has passed. -/
inductive Written (t : GuardedTables) : GuardedStatement → GuardedTables → Prop where
  | nothing {st : GuardedStatement} : Written t st t
  | propertyInserted {p : PropertyId} :
      Written t (.insertProperty p) { t with properties := Function.update t.properties p true }
  | propertyDeleted {p : PropertyId}
      (h : ∀ r, t.isSealed r = true → ∀ row ∈ t.snapshot r, row.propertyId ≠ p) :
      Written t (.deleteProperty p) { t with
        properties := Function.update t.properties p false
        snapshot := fun r => (t.snapshot r).filter (·.propertyId ≠ p) }
  | runInserted {r : RunId} {run : IngestionRun} (hc : RunChecks run)
      (ho : t.OneActiveWith r run) (hn : t.runs.find r = none) :
      Written t (.insertRun r run) { t with runs := t.runs.set r run }
  | runUpdated {r : RunId} {run run' : IngestionRun} (hr : t.runs.find r = some run)
      (hw : enforceIngestionRunWatermarkImmutability run run' = true)
      (hi : enforceIngestionInitializationMonotonicity run run' = true) (hc : RunChecks run')
      (ho : t.OneActiveWith r run') :
      Written t (.updateRun r run') { t with runs := t.runs.modify r fun _ => run' }
  | runDeleted {r : RunId} :
      Written t (.deleteRun r) { t with
        runs := t.runs.erase r
        snapshot := Function.update t.snapshot r []
        batches := Function.update t.batches r [] }
  | rowInserted {r : RunId} {row : IngestionRunPropertyBin} (hs : t.isSealed r = false)
      (hc : t.SnapshotRowChecks r row (t.snapshot r)) :
      Written t (.insertSnapshotRow r row)
        { t with snapshot := Function.update t.snapshot r (t.snapshot r ++ [row]) }
  | rowUpdated {r r' : RunId} {row row' : IngestionRunPropertyBin}
      {removed : RunId → List IngestionRunPropertyBin} (hs : t.isSealed r = false)
      (hs' : t.isSealed r' = false)
      (he : removed = Function.update t.snapshot r ((t.snapshot r).erase row))
      (hc : t.SnapshotRowChecks r' row' (removed r')) :
      Written t (.updateSnapshotRow r row r' row')
        { t with snapshot := Function.update removed r' (removed r' ++ [row']) }
  | rowDeleted {r : RunId} {row : IngestionRunPropertyBin} (hs : t.isSealed r = false) :
      Written t (.deleteSnapshotRow r row)
        { t with snapshot := Function.update t.snapshot r ((t.snapshot r).erase row) }
  | batchInserted {r : RunId} {b : IngestionBatch} (hs : t.isSealed r = false)
      (hc : t.BatchChecks r b) :
      Written t (.insertBatch r b)
        { t with batches := Function.update t.batches r (t.batches r ++ [b]) }
  | batchUpdated {r : RunId} {n : Nat} {b b' : IngestionBatch}
      (hb : ((t.batches r).find? fun b => b.batchNumber = n) = some b)
      (hn : b'.batchNumber = b.batchNumber) (hd : b'.batchDefinition = b.batchDefinition) :
      Written t (.updateBatch r n r b') { t with
        batches := Function.update t.batches r
          ((t.batches r).map fun c => if c.batchNumber = n then b' else c) }
  | batchDeleted {r : RunId} {n : Nat} (hs : t.isSealed r = false) :
      Written t (.deleteBatch r n) { t with
        batches := Function.update t.batches r
          ((t.batches r).filter fun c => c.batchNumber ≠ n) }

theorem isSealed_eq_true {r : RunId} :
    t.isSealed r = true ↔ ∃ run, t.runs.find r = some run ∧ run.initializationComplete = true := by
  simp [isSealed, Option.any_eq_true]

/-- **An accepted statement does one of these.** -/
theorem exec_written {st : GuardedStatement} (h : t.exec st = some t') : Written t st t' := by
  cases st with
  | insertProperty p =>
      simp only [exec] at h
      split at h
      · cases h
      · cases h; exact .propertyInserted
  | deleteProperty p =>
      simp only [exec] at h
      split at h
      · rename_i hall
        cases h
        refine .propertyDeleted fun r hsealed row hrow hp => ?_
        obtain ⟨run, hr, -⟩ := isSealed_eq_true.mp hsealed
        have hkey : r ∈ t.runs.keys := (t.runs.mem_keys r).mpr (by simp [hr])
        have htrigger := List.all_eq_true.mp (List.all_eq_true.mp hall r hkey) row
          (List.mem_filter.mpr ⟨hrow, by simpa using hp⟩)
        simp [enforceIngestionSnapshotImmutability, hsealed] at htrigger
      · cases h
  | insertRun r run =>
      simp only [exec] at h
      split at h
      · rename_i hc
        obtain ⟨runs, hinsert, rfl⟩ := Option.map_eq_some_iff.mp h
        obtain ⟨hn, rfl⟩ := Table.insert_eq_some.mp hinsert
        exact .runInserted hc.1 hc.2 hn
      · cases h
  | updateRun r run' =>
      simp only [exec] at h
      split at h
      · cases h; exact .nothing
      · split at h
        · rename_i hr hc
          cases h
          exact .runUpdated hr hc.1 hc.2.1 hc.2.2.1 hc.2.2.2
        · cases h
  | deleteRun r =>
      cases h
      exact .runDeleted
  | insertSnapshotRow r row =>
      simp only [exec, enforceIngestionSnapshotImmutability, Bool.not_eq_true'] at h
      split at h
      · rename_i hc
        cases h
        exact .rowInserted hc.1 hc.2
      · cases h
  | updateSnapshotRow r row r' row' =>
      simp only [exec, enforceIngestionSnapshotImmutability, Bool.and_eq_true, Bool.or_eq_true,
        Bool.not_eq_true', decide_eq_true_eq] at h
      split at h
      · split at h
        · rename_i hc
          cases h
          refine .rowUpdated ?_ hc.1.1 rfl hc.2
          rcases hc.1.2 with e | hs
          · rw [e]; exact hc.1.1
          · exact hs
        · cases h
      · cases h; exact .nothing
  | deleteSnapshotRow r row =>
      simp only [exec, enforceIngestionSnapshotImmutability, Bool.not_eq_true'] at h
      split at h
      · split at h
        · cases h; exact .rowDeleted ‹_›
        · cases h
      · cases h; exact .nothing
  | insertBatch r b =>
      simp only [exec, enforceIngestionBatchDefinitionImmutability, Bool.not_eq_true'] at h
      split at h
      · rename_i hc
        cases h
        exact .batchInserted hc.1 hc.2
      · cases h
  | updateBatch r n r' b' =>
      simp only [exec, enforceIngestionBatchDefinitionImmutability, Bool.and_eq_true,
        decide_eq_true_eq] at h
      split at h
      · cases h; exact .nothing
      · split at h
        · rename_i hb hc
          cases h
          obtain ⟨⟨rfl, hn⟩, hd⟩ := hc
          exact .batchUpdated hb hn.symm hd.symm
        · cases h
  | deleteBatch r n =>
      simp only [exec, enforceIngestionBatchDefinitionImmutability, Bool.not_eq_true'] at h
      split at h
      · cases h; exact .nothing
      · split at h
        · cases h; exact .batchDeleted ‹_›
        · cases h

end GuardedTables

/-! ### What the constraints keep -/

/-- The constraints on the snapshot rows of a run. -/
structure SnapshotHolds (t : GuardedTables) (r : RunId) (rows : List IngestionRunPropertyBin) :
    Prop where
  run : ∀ row ∈ rows, t.runs.find r ≠ none
  property : ∀ row ∈ rows, t.properties row.propertyId = true
  version : ∀ row ∈ rows, 0 < row.propertyIdentifierVersion
  key : (rows.map (·.key)).Nodup

/-- The constraints on the batches of a run. -/
structure BatchesHold (t : GuardedTables) (r : RunId) (batches : List IngestionBatch) : Prop where
  run : ∀ b ∈ batches, t.runs.find r ≠ none
  number : ∀ b ∈ batches, 0 < b.batchNumber
  key : (batches.map (·.batchNumber)).Nodup

/-- **What the constraints promise of the tables.** -/
structure TablesHold (t : GuardedTables) : Prop where
  checks : ∀ r run, t.runs.find r = some run → RunChecks run
  oneActive : ∀ r r' run run', t.runs.find r = some run → t.runs.find r' = some run' →
    run.isActive = true → run'.isActive = true → r = r'
  snapshot : ∀ r, SnapshotHolds t r (t.snapshot r)
  batches : ∀ r, BatchesHold t r (t.batches r)

section Constraints

variable {t t' : GuardedTables} {r : RunId} {rows rows' : List IngestionRunPropertyBin}
  {batches batches' : List IngestionBatch}

namespace SnapshotHolds

theorem nil : SnapshotHolds t r [] := by
  constructor <;> simp

theorem sublist (h : SnapshotHolds t r rows) (hs : rows'.Sublist rows) :
    SnapshotHolds t r rows' where
  run row hrow := h.run row (hs.subset hrow)
  property row hrow := h.property row (hs.subset hrow)
  version row hrow := h.version row (hs.subset hrow)
  key := h.key.sublist (hs.map _)

/-- A row that passes its checks. -/
theorem append (h : SnapshotHolds t r rows) {row : IngestionRunPropertyBin}
    (hc : t.SnapshotRowChecks r row rows) : SnapshotHolds t r (rows ++ [row]) := by
  obtain ⟨hr, hp, hv, hk⟩ := hc
  refine ⟨?_, ?_, ?_, ?_⟩
  · simpa [or_imp, forall_and] using ⟨h.run, hr⟩
  · simpa [or_imp, forall_and] using ⟨h.property, hp⟩
  · simpa [or_imp, forall_and] using ⟨h.version, hv⟩
  · rw [List.map_append, List.map_singleton, List.nodup_append']
    exact ⟨h.key, List.nodup_singleton _, by simpa using hk⟩

/-- The runs and the properties that the rows name are still there. -/
theorem mono (h : SnapshotHolds t r rows) (hr : t.runs.find r ≠ none → t'.runs.find r ≠ none)
    (hp : ∀ row ∈ rows, t.properties row.propertyId = true →
      t'.properties row.propertyId = true) : SnapshotHolds t' r rows where
  run row hrow := hr (h.run row hrow)
  property row hrow := hp row hrow (h.property row hrow)
  version := h.version
  key := h.key

end SnapshotHolds

namespace BatchesHold

theorem nil : BatchesHold t r [] := by
  constructor <;> simp

theorem sublist (h : BatchesHold t r batches) (hs : batches'.Sublist batches) :
    BatchesHold t r batches' where
  run b hb := h.run b (hs.subset hb)
  number b hb := h.number b (hs.subset hb)
  key := h.key.sublist (hs.map _)

/-- The batches are those of the table, and one more passes its checks. -/
theorem append (h : BatchesHold t r (t.batches r)) {b : IngestionBatch} (hc : t.BatchChecks r b) :
    BatchesHold t r (t.batches r ++ [b]) := by
  obtain ⟨hr, hn, hk⟩ := hc
  refine ⟨?_, ?_, ?_⟩
  · simpa [or_imp, forall_and] using ⟨h.run, hr⟩
  · simpa [or_imp, forall_and] using ⟨h.number, hn⟩
  · rw [List.map_append, List.map_singleton, List.nodup_append']
    exact ⟨h.key, List.nodup_singleton _, by simpa using hk⟩

theorem mono (h : BatchesHold t r batches) (hr : t.runs.find r ≠ none → t'.runs.find r ≠ none) :
    BatchesHold t' r batches where
  run b hb := hr (h.run b hb)
  number := h.number
  key := h.key

/-- Batches that keep their numbers. -/
theorem of_numbers (h : BatchesHold t r batches)
    (hn : batches'.map (·.batchNumber) = batches.map (·.batchNumber)) :
    BatchesHold t r batches' := by
  have hmem : ∀ b ∈ batches', ∃ c ∈ batches, c.batchNumber = b.batchNumber := by
    intro b hb
    have hb' : b.batchNumber ∈ batches.map (·.batchNumber) := hn ▸ List.mem_map_of_mem hb
    exact List.mem_map.mp hb'
  refine ⟨fun b hb => ?_, fun b hb => ?_, hn ▸ h.key⟩
  · obtain ⟨c, hc, -⟩ := hmem b hb
    exact h.run c hc
  · obtain ⟨c, hc, e⟩ := hmem b hb
    exact e ▸ h.number c hc

end BatchesHold

/-- The batches after an update of one of them that keeps its number. -/
theorem numbers_updateBatch {n : Nat} {b b' : IngestionBatch}
    (hb : (batches.find? fun b => b.batchNumber = n) = some b)
    (hn : b'.batchNumber = b.batchNumber) :
    (batches.map fun c => if c.batchNumber = n then b' else c).map (·.batchNumber) =
      batches.map (·.batchNumber) := by
  have hbn : b.batchNumber = n := by simpa using List.find?_some hb
  rw [List.map_map]
  refine List.map_congr_left fun c _ => ?_
  simp only [Function.comp_apply]
  split
  · rename_i hc
    rw [hn, hbn, hc]
  · rfl

/-- A change of the runs that loses none, changes only the row at `r` and leaves it active only
beside runs that are not. -/
theorem TablesHold.of_runs (hI : TablesHold t) {run : IngestionRun} {runs : Table RunId IngestionRun}
    (hfind : ∀ j, runs.find j = if j = r then some run else t.runs.find j) (hc : RunChecks run)
    (ho : t.OneActiveWith r run) : TablesHold { t with runs := runs } := by
  have hstays : ∀ j, t.runs.find j ≠ none → runs.find j ≠ none := by
    intro j hj
    rw [hfind]
    split
    · simp
    · exact hj
  have hinactive : run.isActive = true → ∀ j other, j ≠ r → t.runs.find j = some other →
      other.isActive = false := by
    intro ha j other hj hother
    exact (ho ha _ (Table.mem_rows.mpr hother)).resolve_left hj
  refine ⟨fun j other hj => ?_, fun j j' other other' hj hj' ha ha' => ?_,
    fun j => (hI.snapshot j).mono (hstays j) fun _ _ hp => hp,
    fun j => (hI.batches j).mono (hstays j)⟩
  · simp only [hfind] at hj
    split at hj
    · cases hj; exact hc
    · exact hI.checks j other hj
  · simp only [hfind] at hj hj'
    split at hj <;> split at hj'
    · simp [*]
    · cases hj
      rename_i hne
      rw [hinactive ha j' other' hne hj'] at ha'
      cases ha'
    · cases hj'
      rename_i hne _
      rw [hinactive ha' j other hne hj] at ha
      cases ha
    · exact hI.oneActive j j' other other' hj hj' ha ha'

/-- The snapshot rows of one run, replaced by rows that hold. -/
theorem TablesHold.of_snapshot (hI : TablesHold t) (h : SnapshotHolds t r rows) :
    TablesHold { t with snapshot := Function.update t.snapshot r rows } := by
  refine ⟨hI.checks, hI.oneActive, fun j => ?_, fun j => (hI.batches j).mono id⟩
  by_cases e : j = r
  · subst e
    simp only [Function.update_self]
    exact h.mono id fun _ _ hp => hp
  · simp only [Function.update_of_ne e]
    exact (hI.snapshot j).mono id fun _ _ hp => hp

/-- The batches of one run, replaced by batches that hold. -/
theorem TablesHold.of_batches (hI : TablesHold t) (h : BatchesHold t r batches) :
    TablesHold { t with batches := Function.update t.batches r batches } := by
  refine ⟨hI.checks, hI.oneActive, fun j => (hI.snapshot j).mono id fun _ _ hp => hp, fun j => ?_⟩
  by_cases e : j = r
  · subst e
    simp only [Function.update_self]
    exact h.mono id
  · simp only [Function.update_of_ne e]
    exact (hI.batches j).mono id

theorem tablesHold_empty : TablesHold .empty where
  checks _ _ h := nomatch h
  oneActive _ _ _ _ h := nomatch h
  snapshot _ := .nil
  batches _ := .nil

/-- **An accepted statement keeps what the constraints promise.** -/
theorem tablesHold_written {st : GuardedStatement} (hI : TablesHold t)
    (h : GuardedTables.Written t st t') : TablesHold t' := by
  cases h with
  | nothing => exact hI
  | @propertyInserted p =>
      refine ⟨hI.checks, hI.oneActive, fun j => (hI.snapshot j).mono id fun row _ hp => ?_,
        fun j => (hI.batches j).mono id⟩
      simp only [Function.update_apply]
      split
      · rfl
      · exact hp
  | @propertyDeleted p _ =>
      refine ⟨hI.checks, hI.oneActive, fun j => ?_, fun j => (hI.batches j).mono id⟩
      refine ((hI.snapshot j).sublist List.filter_sublist).mono id fun row hrow hp => ?_
      have hne : row.propertyId ≠ p := by simpa using (List.mem_filter.mp hrow).2
      simpa only [Function.update_of_ne hne] using hp
  | runInserted hc ho _ => exact hI.of_runs (fun _ => Table.find_set) hc ho
  | @runUpdated r run run' hr _ _ hc ho =>
      refine hI.of_runs (fun j => ?_) hc ho
      rw [Table.find_modify]
      split
      · rename_i e
        rw [e, hr, Option.map_some]
      · rfl
  | @runDeleted r =>
      have hfind : ∀ {j run}, (t.runs.erase r).find j = some run → t.runs.find j = some run := by
        intro j run hj
        rw [Table.find_erase] at hj
        split at hj
        · cases hj
        · exact hj
      refine ⟨fun j run hj => hI.checks j run (hfind hj),
        fun j j' run run' hj hj' => hI.oneActive j j' run run' (hfind hj) (hfind hj'),
        fun j => ?_, fun j => ?_⟩
      · by_cases e : j = r
        · simp only [e, Function.update_self]
          exact .nil
        · simp only [Function.update_of_ne e]
          refine (hI.snapshot j).mono (fun hj => ?_) fun _ _ hp => hp
          rwa [Table.find_erase, if_neg e]
      · by_cases e : j = r
        · simp only [e, Function.update_self]
          exact .nil
        · simp only [Function.update_of_ne e]
          refine (hI.batches j).mono fun hj => ?_
          rwa [Table.find_erase, if_neg e]
  | @rowInserted r row _ hc => exact hI.of_snapshot ((hI.snapshot r).append hc)
  | @rowUpdated r r' row row' removed _ _ he hc =>
      have hremoved : TablesHold { t with snapshot := removed } := by
        rw [he]
        exact hI.of_snapshot ((hI.snapshot r).sublist List.erase_sublist)
      exact hremoved.of_snapshot ((hremoved.snapshot r').append hc)
  | @rowDeleted r row _ => exact hI.of_snapshot ((hI.snapshot r).sublist List.erase_sublist)
  | @batchInserted r b _ hc => exact hI.of_batches ((hI.batches r).append hc)
  | @batchUpdated r n b b' hb hn _ =>
      exact hI.of_batches ((hI.batches r).of_numbers (numbers_updateBatch hb hn))
  | @batchDeleted r n _ => exact hI.of_batches ((hI.batches r).sublist List.filter_sublist)

end Constraints

/-! ### Any writer -/

/-- How a run stands after statements that do not delete it. -/
structure RunStands (r : RunId) (t t' : GuardedTables) (run run' : IngestionRun) : Prop where
  watermark : ∀ w, run.sourceWatermarkAtStart = some w → run'.sourceWatermarkAtStart = some w
  initialized : run.initializationComplete = true → run'.initializationComplete = true ∧
    t'.snapshot r = t.snapshot r ∧
    (t'.batches r).map (fun b => (b.batchNumber, b.batchDefinition)) =
      (t.batches r).map fun b => (b.batchNumber, b.batchDefinition)

/-- A run, if there is one, is still there, and stands. -/
def Stands (r : RunId) (t t' : GuardedTables) : Prop :=
  ∀ run, t.runs.find r = some run → ∃ run', t'.runs.find r = some run' ∧ RunStands r t t' run run'

section AnyWriter

variable {t t' t'' : GuardedTables} {r : RunId}

theorem Stands.refl (r : RunId) (t : GuardedTables) : Stands r t t :=
  fun run hr => ⟨run, hr, fun _ hw => hw, fun hi => ⟨hi, rfl, rfl⟩⟩

theorem Stands.trans (h : Stands r t t') (h' : Stands r t' t'') : Stands r t t'' := by
  intro run hr
  obtain ⟨run₁, hr₁, h₁⟩ := h run hr
  obtain ⟨run₂, hr₂, h₂⟩ := h' run₁ hr₁
  refine ⟨run₂, hr₂, fun w hw => h₂.watermark w (h₁.watermark w hw), fun hi => ?_⟩
  obtain ⟨hi₁, hs₁, hb₁⟩ := h₁.initialized hi
  obtain ⟨hi₂, hs₂, hb₂⟩ := h₂.initialized hi₁
  exact ⟨hi₂, hs₂.trans hs₁, hb₂.trans hb₁⟩

/-- The row of the run is the same, and its snapshot and batches are where it is sealed. -/
theorem Stands.of_same (hr : t'.runs.find r = t.runs.find r)
    (h : t.isSealed r = true → t'.snapshot r = t.snapshot r ∧
      (t'.batches r).map (fun b => (b.batchNumber, b.batchDefinition)) =
        (t.batches r).map fun b => (b.batchNumber, b.batchDefinition)) : Stands r t t' := by
  intro run hrun
  refine ⟨run, hr.trans hrun, fun _ hw => hw, fun hi => ⟨hi, ?_⟩⟩
  exact h (GuardedTables.isSealed_eq_true.mpr ⟨run, hrun, hi⟩)

/-- The rows of another run, or of one that is not sealed. -/
theorem update_of_unsealed {α : Type} {j : RunId} {rows : RunId → α} {new : α}
    (hs : t.isSealed j = false) (hsealed : t.isSealed r = true) :
    Function.update rows j new r = rows r := by
  refine Function.update_of_ne ?_ _ _
  rintro rfl
  rw [hs] at hsealed
  cases hsealed

/-- **An accepted statement leaves a run standing**, unless it deletes it. -/
theorem stands_written {st : GuardedStatement} (hI : TablesHold t)
    (h : GuardedTables.Written t st t') (hst : st ≠ .deleteRun r) : Stands r t t' := by
  cases h with
  | nothing => exact .refl r t
  | propertyInserted => exact .of_same rfl fun _ => ⟨rfl, rfl⟩
  | propertyDeleted hp =>
      -- a sealed run has no row of the deleted property
      refine .of_same rfl fun hsealed => ⟨?_, rfl⟩
      exact List.filter_eq_self.mpr fun row hrow => by simpa using hp r hsealed row hrow
  | @runInserted j _ _ _ hn =>
      intro run hr
      have e : r ≠ j := by
        rintro rfl
        rw [hn] at hr
        cases hr
      exact ⟨run, (Table.find_set_ne e).trans hr, fun _ hw => hw, fun hi => ⟨hi, rfl, rfl⟩⟩
  | @runUpdated j run run' hrow hw hi _ _ =>
      by_cases e : r = j
      · subst e
        intro run₀ hr₀
        cases hrow.symm.trans hr₀
        refine ⟨run', by rw [Table.find_modify_self, hr₀, Option.map_some], fun w hstart => ?_,
          fun hinit => ⟨?_, rfl, rfl⟩⟩
        · simp only [enforceIngestionRunWatermarkImmutability, hstart, Bool.or_eq_true,
            decide_eq_true_eq, reduceCtorEq, or_false] at hw
          exact hw.symm
        · simpa [enforceIngestionInitializationMonotonicity, hinit] using hi
      · exact .of_same (Table.find_modify_ne e) fun _ => ⟨rfl, rfl⟩
  | @runDeleted j =>
      have e : r ≠ j := by
        rintro rfl
        exact hst rfl
      refine .of_same (by rw [Table.find_erase, if_neg e]) fun _ => ⟨?_, ?_⟩
      · exact Function.update_of_ne e _ _
      · simp only [Function.update_of_ne e]
  | rowInserted hs _ => exact .of_same rfl fun hsealed => ⟨update_of_unsealed hs hsealed, rfl⟩
  | rowUpdated hs hs' he _ =>
      refine .of_same rfl fun hsealed => ⟨?_, rfl⟩
      exact (update_of_unsealed hs' hsealed).trans (he ▸ update_of_unsealed hs hsealed)
  | rowDeleted hs => exact .of_same rfl fun hsealed => ⟨update_of_unsealed hs hsealed, rfl⟩
  | batchInserted hs _ =>
      exact .of_same rfl fun hsealed =>
        ⟨rfl, congrArg (List.map _) (update_of_unsealed hs hsealed)⟩
  | @batchUpdated j n b b' hb hn hd =>
      refine .of_same rfl fun _ => ⟨rfl, ?_⟩
      by_cases e : r = j
      · subst e
        simp only [Function.update_self, List.map_map]
        refine List.map_congr_left fun c hc => ?_
        simp only [Function.comp_apply]
        split
        · rename_i hcn
          have hbn : b.batchNumber = n := by simpa using List.find?_some hb
          have hbc : c = b := List.inj_on_of_nodup_map (hI.batches r).key hc
            (List.mem_of_find?_eq_some hb) (hcn.trans hbn.symm)
          rw [hn, hd, hbc]
        · rfl
      · simp only [Function.update_of_ne e]
  | batchDeleted hs =>
      exact .of_same rfl fun hsealed =>
        ⟨rfl, congrArg (List.map _) (update_of_unsealed hs hsealed)⟩

/-- **A sealed run against any writer.**  Whatever rows are inserted, updated and deleted, in any order
and one statement after another, the constraints hold of what they leave; and as long as none of them
deletes a run, its start watermark stays, it does not go back to QUEUED once it has one, and once it is
initialized it stays so, with its snapshot, with the number and the definition of every batch, and with
every property of its snapshot. -/
theorem run_stands {run : IngestionRun}
    (h₀ : Steps GuardedTables.exec (fun _ _ => True) .empty t)
    (hr : t.runs.find r = some run)
    (h : Steps GuardedTables.exec (fun _ st => st ≠ .deleteRun r) t t') :
    TablesHold t' ∧ ∃ run', t'.runs.find r = some run' ∧ RunStands r t t' run run' ∧
      (run.sourceWatermarkAtStart ≠ none → run'.status ≠ .queued) ∧
      (run.initializationComplete = true →
        ∀ row ∈ t.snapshot r, t'.properties row.propertyId = true) := by
  have hI : TablesHold t := h₀.invariant
    (fun hI _ hs => tablesHold_written hI (GuardedTables.exec_written hs)) tablesHold_empty
  have hI' : TablesHold t' := h.invariant
    (fun hI _ hs => tablesHold_written hI (GuardedTables.exec_written hs)) hI
  have hstands : Stands r t t' := Steps.history (I := TablesHold) (Stands.refl r)
    (fun h₁ h₂ => h₁.trans h₂)
    (fun hI _ hs => tablesHold_written hI (GuardedTables.exec_written hs))
    (fun hI hok hs => stands_written hI (GuardedTables.exec_written hs) hok) h hI
  obtain ⟨run', hr', hrun⟩ := hstands run hr
  refine ⟨hI', run', hr', hrun, fun hw hq => ?_, fun hi row hrow => ?_⟩
  · obtain ⟨w, hw⟩ := Option.ne_none_iff_exists'.mp hw
    refine (hI'.checks r run' hr').2.1 ⟨hq, ?_⟩
    rw [hrun.watermark w hw]
    exact Option.some_ne_none w
  · have hsnapshot := (hrun.initialized hi).2.1
    exact (hI'.snapshot r).property row (hsnapshot ▸ hrow)

end AnyWriter

/-- A run with one batch, initialized and started. -/
def startedRun : IngestionRun :=
  { Db.queuedRun .manual with
    status := .running
    initializationComplete := true
    sourceWatermarkAtStart := some 7000 }

/-- The statements that bring it about. -/
def startedRunStatements : List GuardedStatement :=
  let bin : CanonicalBin := ⟨"1000007", rfl, rfl⟩
  [.insertProperty 0, .insertRun 0 (Db.queuedRun .manual), .insertSnapshotRow 0 ⟨0, 1, bin⟩,
    .insertBatch 0 (pendingBatch 1 ⟨[bin], 2⟩), .updateRun 0 startedRun]

/-- Its batch fails, its run is ended by hand, and another property comes and goes. -/
def otherStatements : List GuardedStatement :=
  let bin : CanonicalBin := ⟨"1000007", rfl, rfl⟩
  [.updateBatch 0 1 0 { pendingBatch 1 ⟨[bin], 2⟩ with status := .failed }, .insertProperty 1,
    .updateRun 0 { startedRun with status := .failed }, .deleteProperty 1, .deleteRun 2]

theorem run_stands_startedRun : ∃ t t' run run', TablesHold t' ∧
    t.runs.find 0 = some run ∧ run.sourceWatermarkAtStart = some 7000 ∧
    t'.runs.find 0 = some run' ∧ RunStands 0 t t' run run' ∧ run'.status ≠ .queued := by
  have ht : (run GuardedTables.exec .empty startedRunStatements).isSome = true := by decide +kernel
  obtain ⟨t, ht⟩ := Option.isSome_iff_exists.mp ht
  have ht' : (run GuardedTables.exec t otherStatements).isSome = true := by
    have h : ((run GuardedTables.exec .empty startedRunStatements).bind fun t =>
        run GuardedTables.exec t otherStatements).isSome = true := by decide +kernel
    rwa [ht, Option.bind_some] at h
  obtain ⟨t', ht'⟩ := Option.isSome_iff_exists.mp ht'
  have hr : ((run GuardedTables.exec .empty startedRunStatements).bind fun t =>
      t.runs.find 0) = some startedRun := by decide +kernel
  rw [ht, Option.bind_some] at hr
  have hok : RunOk GuardedTables.exec (fun _ st => st ≠ .deleteRun 0) t otherStatements :=
    runOk_iff.mpr fun before st _ hbegins _ => by
      have hall : ∀ st ∈ otherStatements, st ≠ .deleteRun 0 := by decide +kernel
      exact hall st (hbegins.subset (by simp))
  obtain ⟨hI, run', hr', hstands, hqueued, -⟩ :=
    run_stands (run_steps (runOk_trivial _ _) ht) hr (run_steps hok ht')
  exact ⟨t, t', startedRun, run', hI, hr, rfl, hr', hstands,
    hqueued (by rw [show startedRun.sourceWatermarkAtStart = some 7000 from rfl]; simp)⟩

end NycPropertyResolver
