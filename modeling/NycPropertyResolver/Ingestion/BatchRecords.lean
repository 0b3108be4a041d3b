import NycPropertyResolver.Ingestion.System

/-!
# Ingestion — what the batch rows record

The batches of a run stand in the order of their numbers, and a FAILED batch has an error that is not
blank, since `markFailed` is the only statement that writes FAILED.  Every step of an execution keeps
this, whatever else happens to the database, so it holds for executions that overlap as well.
-/

namespace NycPropertyResolver

open Library

variable {Row : Type} {config : ExecutorConfig} {service : EcbRowService Row}

/-- A FAILED batch has an error that is not blank. -/
def RecordsError (b : IngestionBatch) : Prop :=
  b.status = .failed → ∃ e, b.lastError = some e ∧ isBlank e = false

/-- **What the batch rows of a run record.** -/
structure BatchRecords (bs : List IngestionBatch) : Prop where
  numbered : bs.Pairwise fun b b' => b.batchNumber < b'.batchNumber
  errors : ∀ b ∈ bs, RecordsError b

/-- The rows of every run. -/
def AllBatchRecords (db : Db Row) : Prop := ∀ r, BatchRecords (db.batches r)

/-! ### Lists of batches -/

section Lists

variable {bs : List IngestionBatch} {n : Nat} {f : IngestionBatch → IngestionBatch}

theorem batchRecords_nil : BatchRecords [] := ⟨.nil, nofun⟩

/-- Fresh batches are numbered from one on, and PENDING. -/
theorem batchRecords_pendingBatches (definitions : List IngestionBatchDefinition) :
    BatchRecords (pendingBatches definitions) := by
  constructor
  · refine List.pairwise_iff_getElem.mpr fun i j hi hj hij => ?_
    simpa [pendingBatches, pendingBatch] using hij
  · intro b hb hfailed
    obtain ⟨i, definition, rfl, -⟩ := Db.mem_pendingBatches hb
    cases hfailed

/-- An update that keeps the numbers and records its error. -/
theorem BatchRecords.map (h : BatchRecords bs) (hnumber : ∀ b, (f b).batchNumber = b.batchNumber)
    (herror : ∀ b, RecordsError b → RecordsError (f b)) :
    BatchRecords (bs.map fun b => if b.batchNumber = n then f b else b) := by
  have hkeeps : ∀ b : IngestionBatch,
      (if b.batchNumber = n then f b else b).batchNumber = b.batchNumber := by
    intro b
    split
    · exact hnumber b
    · rfl
  constructor
  · refine List.pairwise_map.mpr (h.numbered.imp fun {b b'} hlt => ?_)
    rw [hkeeps b, hkeeps b']
    exact hlt
  · intro b hb
    obtain ⟨b₀, hb₀, rfl⟩ := List.mem_map.mp hb
    by_cases hn : b₀.batchNumber = n
    · rw [if_pos hn]
      exact herror b₀ (h.errors b₀ hb₀)
    · rw [if_neg hn]
      exact h.errors b₀ hb₀

end Lists

/-! ### Steps -/

section Steps

variable {a : Answer Row} {db db' : Db Row} {pc pc' : ExecutorState Row}

theorem AllBatchRecords.update (h : AllBatchRecords db) {runId : RunId} {bs : List IngestionBatch}
    (hbs : BatchRecords bs) (hdb : db'.batches = Function.update db.batches runId bs) :
    AllBatchRecords db' := by
  intro r
  rw [hdb]
  by_cases hr : r = runId
  · subst hr
    rw [Function.update_self]
    exact hbs
  · rw [Function.update_of_ne hr]
    exact h r

theorem AllBatchRecords.modifyBatch (h : AllBatchRecords db) {runId : RunId} {n : Nat}
    {f : IngestionBatch → IngestionBatch} (hnumber : ∀ b, (f b).batchNumber = b.batchNumber)
    (herror : ∀ b, RecordsError b → RecordsError (f b)) :
    AllBatchRecords (db.modifyBatch runId n f) :=
  h.update ((h runId).map hnumber herror) rfl

theorem AllBatchRecords.of_batches (h : AllBatchRecords db) (hb : db'.batches = db.batches) :
    AllBatchRecords db' := by
  intro r
  rw [hb]
  exact h r

/-- A marked failure records its error. -/
theorem AllBatchRecords.markFailed (h : AllBatchRecords db) {runId : RunId} {n : Nat}
    {lastError : String} (hf : db.markFailed runId n lastError = .ok db') : AllBatchRecords db' := by
  obtain ⟨hblank, rfl⟩ := Db.markFailed_eq_ok hf
  exact h.modifyBatch (fun _ => rfl) fun _ _ _ => ⟨lastError, rfl, hblank⟩

theorem batches_publishTerminalFailure {answer : PublicationAnswer}
    {request : IngestionTerminalPublicationRequest} {r : Except ServiceError Unit}
    (h : db.publishTerminalFailure answer request = (db', r)) : db'.batches = db.batches := by
  cases r with
  | error e => rw [Db.publishTerminalFailure_error h]
  | ok u =>
      obtain ⟨_, _, -, -, -, rfl⟩ := Db.terminalTransaction_frame (Db.publishTerminalFailure_ok h).2
      rfl

theorem batches_publish {answer : PublicationAnswer} {runId : RunId}
    {r : Except ServiceError AcceptedPublicationOutcome}
    (h : db.publish answer runId = (db', r)) : db'.batches = db.batches := by
  cases r with
  | error e => rw [Db.publish_error h]
  | ok outcome =>
      rcases Db.acceptedTransaction_frame (Db.publish_ok h) with rfl | ⟨_, _, _, -, -, rfl⟩
      · rfl
      · rfl

/-- **Every step keeps the records.** -/
theorem AllBatchRecords.effect (h : AllBatchRecords db)
    (he : Effect config service a db pc db' pc') : AllBatchRecords db' := by
  have started : ∀ {runId n}, AllBatchRecords (db.startBatch runId n) := fun {_ _} =>
    h.modifyBatch (fun _ => rfl) fun _ _ hfailed => by cases hfailed
  cases he with
  | runCreated hc =>
      obtain ⟨-, -, rfl⟩ := Db.createQueued_eq_ok hc
      exact h
  | snapshotStored hs =>
      obtain ⟨_, -, -, -, rfl⟩ := Db.initializeRunSnapshotAndBatches_eq_ok hs
      exact h.update (batchRecords_pendingBatches _) rfl
  | runStarted hs =>
      obtain ⟨_, -, -, -, -, rfl⟩ := Db.setStartWatermarkAndRunning_eq_ok hs
      exact h
  | budgetExhausted _ _ _ hf => exact h.markFailed hf
  | attemptCounted => exact h.modifyBatch (fun _ => rfl) fun _ herror => herror
  | attemptStarted => exact started
  | attemptInvalid => exact started
  | pageFailed _ hf => exact h.markFailed hf
  | lastPage => exact h.modifyBatch (fun _ => rfl) fun _ herror => herror
  | pageLimit => exact h.modifyBatch (fun _ => rfl) fun _ herror => herror
  | nextPage => exact h.modifyBatch (fun _ => rfl) fun _ herror => herror
  | batchCompleted => exact h.modifyBatch (fun _ => rfl) fun _ _ hfailed => by cases hfailed
  | pageLimitFailed hf => exact h.markFailed hf
  | attemptClosed hf => exact h.markFailed hf
  | rawPersisted =>
      obtain ⟨raw, hraw⟩ := Db.persistRaw_eq db
      rw [hraw]
      exact h
  | terminalPublished hp => exact h.of_batches (batches_publishTerminalFailure hp)
  | acceptedPublished hp => exact h.of_batches (batches_publish hp)
  | _ => exact h

theorem allBatchRecords_empty : AllBatchRecords (.empty : Db Row) := fun _ => batchRecords_nil

/-- **Every reachable database keeps the records.** -/
theorem allBatchRecords_of_reachable {s : SystemState Row} (h : Reachable config service s) :
    AllBatchRecords s.db := by
  refine h.invariant (I := fun s => AllBatchRecords s.db) (fun {t u ev} hI _ hn => ?_)
    allBatchRecords_empty
  cases next_turn hn with
  | acquired => exact hI
  | stepped he => exact hI.effect he
  | crashed => exact hI
  | created hc =>
      obtain ⟨_, _, _, _, _, _, _, rfl⟩ := Db.createProperty_eq_ok hc
      exact hI
  | applied ha =>
      obtain ⟨-, ⟨-, rfl, -⟩ | ⟨-, -, rfl⟩⟩ := Db.applyEffectiveBinSet_eq_ok ha
      · exact hI
      · exact hI

end Steps

end NycPropertyResolver
