import NycPropertyResolver.Ingestion.Repositories
import NycPropertyResolver.Library.Chunks

/-!
# Ingestion — initialization

`ingestion-initialization.service.ts`: the property/BIN snapshot of a run, read in two statements
(`selectPropertyBins`, then the properties of the rows read), and the transaction that stores it with
the batches cut from its sorted distinct BINs.
-/

namespace NycPropertyResolver

open Library

variable {Row : Type}

/-- Socrata's `rowsUpdatedAt` is in seconds. -/
def rowsUpdatedAtToDate (rowsUpdatedAt : Nat) : Time := (rowsUpdatedAt : Int) * 1000

/-- The loop `for (index = 0; index < length; index += batchSize)` over `slice(index, index +
batchSize)`. -/
def partitionSortedBins (sortedDistinctBins : List CanonicalBin) (batchSize : Nat) :
    List (List CanonicalBin) :=
  chunks sortedDistinctBins batchSize

/-- `buildBatchDefinitions`: the BINs in order, cut into batches. -/
def buildBatchDefinitions (sortedDistinctBins : List CanonicalBin) (batchSize pageSize : Nat) :
    List IngestionBatchDefinition :=
  (partitionSortedBins sortedDistinctBins batchSize).map fun bins => ⟨bins, pageSize⟩

/-- A batch as `createMany` inserts it. -/
def pendingBatch (batchNumber : Nat) (definition : IngestionBatchDefinition) : IngestionBatch where
  batchNumber := batchNumber
  status := .pending
  batchDefinition := definition
  pagesFetched := 0
  attemptCount := 0
  rowsFetched := 0
  lastError := none
  completedAt := none

/-- The inserted batches are numbered from 1. -/
def pendingBatches (definitions : List IngestionBatchDefinition) : List IngestionBatch :=
  definitions.mapIdx fun index definition => pendingBatch (index + 1) definition

namespace Db

/-- The first statement of `loadLivePropertyBinSnapshotRows`: `property_bins`, ordered by BIN and
property. -/
def selectPropertyBins (db : Db Row) : List (CanonicalBin × PropertyId) :=
  (db.properties.keys.flatMap fun p => (db.propertyBins p).toList.map fun bin => (bin, p)).insertionSort
    fun r r' => r.1 < r'.1 ∨ r.1 = r'.1 ∧ r.2 ≤ r'.2

/-- The row of the snapshot for a relationship, with the version its property has now. -/
def includeProperty (db : Db Row) (relationship : CanonicalBin × PropertyId) :
    Option IngestionRunPropertyBin :=
  (db.properties.find relationship.2).map fun property =>
    ⟨relationship.2, property.identifierVersion, relationship.1⟩

/-- The second statement: the property included with each relationship. -/
def includeProperties (db : Db Row) :
    List (CanonicalBin × PropertyId) → Option (List IngestionRunPropertyBin)
  | [] => some []
  | relationship :: relationships => do
      let row ← db.includeProperty relationship
      let rows ← db.includeProperties relationships
      some (row :: rows)

/-- `[...new Set(snapshotRows.map((row) => row.bin))].sort()`. -/
def distinctBins (snapshotRows : List IngestionRunPropertyBin) : SortedSet CanonicalBin :=
  SortedSet.ofList (snapshotRows.map (·.bin))

/-- The transaction of `initializeRunSnapshotAndBatches`: the rows and batches of a former attempt
are deleted, the new ones inserted, and the run is sealed. -/
def initializeRunSnapshotAndBatches (db : Db Row) (runId : RunId)
    (snapshotRows : List IngestionRunPropertyBin) (ecbBatchSize socrataPageSize : Nat) :
    Except ServiceError (Db Row × IngestionRun) :=
  let sortedDistinctBins := (distinctBins snapshotRows).toList
  let definitions := buildBatchDefinitions sortedDistinctBins ecbBatchSize socrataPageSize
  { db with
    snapshot := Function.update db.snapshot runId snapshotRows
    batches := Function.update db.batches runId (pendingBatches definitions) }.markInitialized runId
      snapshotRows.length sortedDistinctBins.length definitions.length

/-- A count column of a run, as an error shows it. -/
def countText (count : Option Nat) : String := count.elim "null" toString

/-- `assertExpectedInitializationCounts`. -/
def assertExpectedInitializationCounts (db : Db Row) (runId : RunId) (run : IngestionRun) :
    Except ServiceError Unit := do
  ensure (run.expectedPropertyBinCount = some (db.snapshot runId).length)
    s!"run {runId} expected_property_bin_count mismatch (expected {countText run.expectedPropertyBinCount}, found {(db.snapshot runId).length})"
  ensure (run.expectedBinCount = some (distinctBins (db.snapshot runId)).size)
    s!"run {runId} expected_bin_count mismatch (expected {countText run.expectedBinCount}, found {(distinctBins (db.snapshot runId)).size})"
  ensure (run.expectedBatchCount = some (db.batches runId).length)
    s!"run {runId} expected_batch_count mismatch (expected {countText run.expectedBatchCount}, found {(db.batches runId).length})"

/-! ### The snapshot -/

theorem mem_selectPropertyBins {db : Db Row} {bin : CanonicalBin} {p : PropertyId} :
    (bin, p) ∈ db.selectPropertyBins ↔ db.properties.find p ≠ none ∧ bin ∈ db.propertyBins p := by
  rw [selectPropertyBins, (List.perm_insertionSort _ _).mem_iff, List.mem_flatMap]
  constructor
  · rintro ⟨q, hq, h⟩
    obtain ⟨b, hb, e⟩ := List.mem_map.mp h
    cases e
    exact ⟨(db.properties.mem_keys _).mp hq, hb⟩
  · rintro ⟨hp, hb⟩
    exact ⟨p, (db.properties.mem_keys p).mpr hp, List.mem_map.mpr ⟨bin, hb, rfl⟩⟩

/-- Each row of the snapshot holds a relationship read first and the version read second. -/
theorem mem_includeProperties {db : Db Row} {row : IngestionRunPropertyBin} :
    ∀ {relationships : List (CanonicalBin × PropertyId)} {rows : List IngestionRunPropertyBin},
      db.includeProperties relationships = some rows → (row ∈ rows ↔
        (row.bin, row.propertyId) ∈ relationships ∧
          (db.properties.find row.propertyId).map Property.identifierVersion =
            some row.propertyIdentifierVersion)
  | [], rows, h => by cases h; simp
  | r :: rs, rows, h => by
      simp only [includeProperties, Option.bind_eq_bind, Option.bind_eq_some_iff] at h
      obtain ⟨row₀, h₀, rows', h', e⟩ := h
      cases e
      obtain ⟨property, hp, rfl⟩ := Option.map_eq_some_iff.mp h₀
      rw [List.mem_cons, List.mem_cons, mem_includeProperties h']
      constructor
      · rintro (rfl | ⟨hr, hv⟩)
        · exact ⟨Or.inl rfl, by rw [hp]; rfl⟩
        · exact ⟨Or.inr hr, hv⟩
      · rintro ⟨hr | hr, hv⟩
        · left
          subst hr
          rw [hp] at hv
          cases row
          cases Option.some.inj hv
          rfl
        · exact Or.inr ⟨hr, hv⟩

/-! ### The batches -/

@[simp] theorem length_pendingBatches {definitions : List IngestionBatchDefinition} :
    (pendingBatches definitions).length = definitions.length :=
  List.length_mapIdx

/-- The batches carry the definitions, in batch order. -/
theorem pendingBatches_map_definition (definitions : List IngestionBatchDefinition) :
    (pendingBatches definitions).map (·.batchDefinition) = definitions :=
  List.ext_getElem (by simp) fun i _ _ => by simp [pendingBatches, pendingBatch]

theorem mem_pendingBatches {definitions : List IngestionBatchDefinition} {b : IngestionBatch}
    (h : b ∈ pendingBatches definitions) :
    ∃ n definition, b = pendingBatch n definition ∧ definition ∈ definitions := by
  obtain ⟨i, hi, rfl⟩ := List.mem_mapIdx.mp h
  exact ⟨i + 1, _, rfl, List.getElem_mem hi⟩

/-- The BIN lists of the batches, concatenated, are the sorted distinct BINs. -/
theorem flatten_buildBatchDefinitions (bins : List CanonicalBin) {batchSize : Nat} (pageSize : Nat)
    (h : 0 < batchSize) :
    ((buildBatchDefinitions bins batchSize pageSize).map (·.bins)).flatten = bins := by
  rw [buildBatchDefinitions, List.map_map]
  exact (congrArg List.flatten (List.map_id _)).trans (flatten_chunks bins h)

theorem initializeRunSnapshotAndBatches_eq_ok {db db' : Db Row} {runId : RunId}
    {rows : List IngestionRunPropertyBin} {batchSize pageSize : Nat} {run' : IngestionRun}
    (h : db.initializeRunSnapshotAndBatches runId rows batchSize pageSize = .ok (db', run')) :
    ∃ run, db.runs.find runId = some run ∧ run.initializationComplete = false ∧
      run' = { run with
        expectedPropertyBinCount := some rows.length
        expectedBinCount := some (distinctBins rows).size
        expectedBatchCount :=
          some (buildBatchDefinitions (distinctBins rows).toList batchSize pageSize).length
        initializationComplete := true } ∧
      db' = { db with
        snapshot := Function.update db.snapshot runId rows
        batches := Function.update db.batches runId
          (pendingBatches (buildBatchDefinitions (distinctBins rows).toList batchSize pageSize))
        runs := db.runs.modify runId fun _ => run' } := by
  obtain ⟨run, hr, hi, hrun, hdb⟩ := markInitialized_eq_ok h
  exact ⟨run, hr, hi, hrun, hdb⟩

end Db

end NycPropertyResolver
