import Mathlib.Data.Prod.Lex
import NycPropertyResolver.Ingestion.BatchOrder
import NycPropertyResolver.Ingestion.BatchRecords

/-!
# Ingestion — the attempts of a batch

`processPersistedBatches` comes to an end, and no batch is attempted more often than the limit allows,
over any number of crashes and resumptions.  One event leaves the batches of a run as they are, stores
fresh ones, or updates the first one that is open (`RowsMoved`), and only the attempt counter moves the
count of attempts.  Within one execution the attempts that are left, the phase of the attempt, the
pages and the rows that remain form a rank that every step of the loop lowers (`loopRank`).
-/

namespace NycPropertyResolver

open Library

variable {Row : Type} {config : ExecutorConfig} {service : EcbRowService Row}
  {s s' : SystemState Row}

/-! ### Statements -/

/-- `attempt_count` is within the limit. -/
def AttemptsBounded (config : ExecutorConfig) (bs : List IngestionBatch) : Prop :=
  ∀ b ∈ bs, b.attemptCount ≤ config.maxBatchAttemptsPerRun

/-- Batch `n` of run `r` is COMPLETED. -/
def IsCompleted (db : Db Row) (r : RunId) (n : Nat) : Prop :=
  ∃ b ∈ db.batches r, b.batchNumber = n ∧ b.status = .completed

/-- The next step of the executor, after any number of transactions on properties. -/
def ExecutorTurn (config : ExecutorConfig) (service : EcbRowService Row)
    (s s' : SystemState Row) : Prop :=
  ∃ t answer, Steps (next config service) (fun _ ev => ev.OnProperty) s t ∧
    next config service t (.executor answer) = some s'

/-! ### The rank of the loop -/

/-- Where an execution is in `processPersistedBatches`: the run, the phase, and twice the pages and
twice the rows that are left. -/
def ExecutorState.loopPosition (config : ExecutorConfig) :
    ExecutorState Row → Option (RunId × (Nat ×ₗ Nat ×ₗ Nat))
  | .attemptCounted runId _ => some (runId, toLex (7, toLex (0, 0)))
  | .fetchingPage attempt =>
    some (attempt.runId,
      toLex (6, toLex (2 * (config.socrataMaxPagesPerBatch - attempt.pagesFetched), 0)))
  | .processingRows attempt _ remaining =>
    some (attempt.runId,
      toLex (6, toLex (2 * (config.socrataMaxPagesPerBatch - attempt.pagesFetched) + 1,
        2 * remaining.length)))
  | .stagingRow attempt _ _ _ remaining =>
    some (attempt.runId,
      toLex (6, toLex (2 * (config.socrataMaxPagesPerBatch - attempt.pagesFetched) + 1,
        2 * remaining.length + 1)))
  | .completingBatch attempt | .pageLimitReached attempt =>
    some (attempt.runId, toLex (5, toLex (0, 0)))
  | .attemptFailed attempt _ => some (attempt.runId, toLex (4, toLex (0, 0)))
  | .selectingBatch runId => some (runId, toLex (3, toLex (0, 0)))
  | .executingBatch runId _ => some (runId, toLex (2, toLex (0, 0)))
  | .terminalOutcome runId _ => some (runId, toLex (1, toLex (0, 0)))
  | .publishingTerminalFailure request => some (request.runId, toLex (0, toLex (0, 0)))
  | _ => none

/-- An execution is in `processPersistedBatches`, or in the terminal publication it ends with. -/
def ProcessingBatches (config : ExecutorConfig) (s : SystemState Row) : Prop :=
  (s.executor.loopPosition config).isSome

/-- The attempts the batches of a run have left. -/
def attemptsLeft (config : ExecutorConfig) (bs : List IngestionBatch) : Nat :=
  (bs.map fun b => config.maxBatchAttemptsPerRun - b.attemptCount).sum

/-- **The rank of the loop.** -/
def loopRank (config : ExecutorConfig) (s : SystemState Row) : Nat ×ₗ Nat ×ₗ Nat ×ₗ Nat :=
  match s.executor.loopPosition config with
  | none => toLex (0, toLex (0, toLex (0, 0)))
  | some (runId, position) => toLex (attemptsLeft config (s.db.batches runId), position)

/-! ### What one event does to the batches of a run -/

/-- **How the batches of run `r` move.** -/
inductive RowsMoved (config : ExecutorConfig) (db : Db Row) (r : RunId) (bs : List IngestionBatch) :
    List IngestionBatch → Prop where
  | same : RowsMoved config db r bs bs
  | stored (definitions : List IngestionBatchDefinition)
      (h : ∀ b ∈ bs, b.status ≠ .completed) : RowsMoved config db r bs (pendingBatches definitions)
  | updated {b : IngestionBatch} {f : IngestionBatch → IngestionBatch} (hr : IsRunning db r)
      (hb : firstOpen bs = some b) (hf : KeepsDefinition f)
      (ha : b.attemptCount ≤ config.maxBatchAttemptsPerRun →
        (f b).attemptCount ≤ config.maxBatchAttemptsPerRun) :
      RowsMoved config db r bs (bs.map fun c => if c.batchNumber = b.batchNumber then f c else c)

namespace RowsMoved

variable {db : Db Row} {r : RunId} {bs bs' : List IngestionBatch}

/-- The members of an updated list. -/
theorem mem_updated {b c : IngestionBatch} {f : IngestionBatch → IngestionBatch}
    (ho : BatchOrder bs) (hb : firstOpen bs = some b)
    (hc : c ∈ bs.map fun c => if c.batchNumber = b.batchNumber then f c else c) :
    c = f b ∨ c ∈ bs ∧ c.batchNumber ≠ b.batchNumber := by
  obtain ⟨done, rest, rfl, -, -, he⟩ := ho.map_update (f := f) hb
  obtain ⟨done', rest', hsplit, -, -, hne⟩ := ho.split hb
  obtain ⟨c₀, hc₀, rfl⟩ := List.mem_map.mp hc
  by_cases hn : c₀.batchNumber = b.batchNumber
  · rw [if_pos hn]
    rw [hsplit] at hc₀
    rcases List.mem_append.mp hc₀ with hdone | hrest
    · exact absurd hn (hne c₀ (List.mem_append_left _ hdone))
    · rcases List.mem_cons.mp hrest with rfl | hrest
      · exact .inl rfl
      · exact absurd hn (hne c₀ (List.mem_append_right _ hrest))
  · rw [if_neg hn]
    exact .inr ⟨hc₀, hn⟩

/-- The attempts stay within the limit. -/
theorem attemptsBounded (h : RowsMoved config db r bs bs') (ho : BatchOrder bs)
    (hbound : AttemptsBounded config bs) : AttemptsBounded config bs' := by
  cases h with
  | same => exact hbound
  | stored definitions _ =>
      intro b hb
      obtain ⟨n, definition, rfl, -⟩ := Db.mem_pendingBatches hb
      exact Nat.zero_le _
  | @updated b f _ hb hf ha =>
      intro c hc
      rcases mem_updated ho hb hc with rfl | ⟨hmem, -⟩
      · obtain ⟨-, done, rest, rfl, -⟩ := firstOpen_eq_some.mp hb
        exact ha (hbound b (by simp))
      · exact hbound c hmem

/-- A COMPLETED batch stays as it is. -/
theorem completed_mem (h : RowsMoved config db r bs bs') (ho : BatchOrder bs) {b : IngestionBatch}
    (hb : b ∈ bs) (hs : b.status = .completed) : b ∈ bs' := by
  cases h with
  | same => exact hb
  | stored definitions hopen => exact absurd hs (hopen b hb)
  | @updated b₀ f _ hb₀ hf ha =>
      obtain ⟨done, rest, rfl, -, -, he⟩ := ho.map_update (f := f) hb₀
      rw [he]
      rcases List.mem_append.mp hb with hdone | hrest
      · exact List.mem_append_left _ hdone
      · rcases List.mem_cons.mp hrest with rfl | hrest
        · exact absurd hs (firstOpen_eq_some.mp hb₀).1
        · exact List.mem_append_right _ (List.mem_cons_of_mem _ hrest)

/-- A COMPLETED batch was there before, or its run is RUNNING. -/
theorem completed_origin (h : RowsMoved config db r bs bs') {c : IngestionBatch} (hc : c ∈ bs')
    (hs : c.status = .completed) : IsRunning db r ∨ c ∈ bs := by
  cases h with
  | same => exact .inr hc
  | stored definitions _ =>
      obtain ⟨n, definition, rfl, -⟩ := Db.mem_pendingBatches hc
      cases hs
  | updated hr _ _ _ => exact .inl hr

/-- **A batch is completed after those before it.** -/
theorem completed_before (h : RowsMoved config db r bs bs') (ho : BatchOrder bs)
    (hn : BatchRecords bs) {c : IngestionBatch} (hc : c ∈ bs') (hs : c.status = .completed)
    (hnew : ∀ c' ∈ bs, c'.batchNumber = c.batchNumber → c'.status ≠ .completed) :
    ∀ b ∈ bs, b.batchNumber < c.batchNumber → b.status = .completed := by
  cases h with
  | same => exact absurd hs (hnew c hc rfl)
  | stored definitions _ =>
      obtain ⟨n, definition, rfl, -⟩ := Db.mem_pendingBatches hc
      cases hs
  | @updated b₀ f _ hb₀ hf ha =>
      rcases mem_updated ho hb₀ hc with rfl | ⟨hmem, -⟩
      · intro b hb hlt
        rw [(hf b₀).1] at hlt
        obtain ⟨done, rest, rfl, hdone, -, -⟩ := ho.split hb₀
        rcases List.mem_append.mp hb with hbefore | hafter
        · exact hdone b hbefore
        · -- the batches from the first open one on have no smaller number
          have hle := (List.pairwise_cons.mp (List.pairwise_append.mp hn.numbered).2.1).1
          rcases List.mem_cons.mp hafter with rfl | hafter
          · exact absurd hlt (Nat.lt_irrefl _)
          · exact absurd hlt (Nat.lt_asymm (hle b hafter))
      · exact absurd hs (hnew c hmem rfl)

end RowsMoved

/-! ### The invariant -/

/-- **The attempt invariant.** -/
structure AttemptInvariant (config : ExecutorConfig) (s : SystemState Row) : Prop where
  batch : BatchInvariant s
  records : AllBatchRecords s.db
  initialized : ∀ r n, IsCompleted s.db r n → ∃ run, s.db.runs.find r = some run ∧
    run.initializationComplete = true
  bounded : ∀ r, AttemptsBounded config (s.db.batches r)
  pages : ∀ attempt, s.executor = .fetchingPage attempt →
    attempt.pagesFetched < config.socrataMaxPagesPerBatch

section Steps

variable {a : Answer Row} {db db' : Db Row} {pc pc' : ExecutorState Row}

/-- The batch an execution is in is the one its statements find. -/
theorem BatchInvariant.findBatch (hI : BatchInvariant ⟨db, pc⟩) {r : RunId} {n : Nat}
    {b : IngestionBatch} (hpc : pc.batch? = some (r, n)) (h : db.findBatch r n = some b) :
    firstOpen (db.batches r) = some b ∧ b.batchNumber = n := by
  obtain ⟨b', hb', rfl⟩ := hI.selects r n hpc
  have hfound : db.findBatch r b'.batchNumber = some b' :=
    findBatch_of_firstOpen (hI.order r) hb'
  rw [hfound] at h
  cases h
  exact ⟨hb', rfl⟩

/-- An update of the batch an execution is in moves the rows of its run. -/
theorem rowsMoved_modifyBatch (hI : BatchInvariant ⟨db, pc⟩) {r : RunId} {n : Nat}
    {f : IngestionBatch → IngestionBatch} (hpc : pc.batch? = some (r, n)) (hf : KeepsDefinition f)
    (ha : ∀ b, firstOpen (db.batches r) = some b →
      b.attemptCount ≤ config.maxBatchAttemptsPerRun →
        (f b).attemptCount ≤ config.maxBatchAttemptsPerRun) (r' : RunId) :
    RowsMoved config db r' (db.batches r') ((db.modifyBatch r n f).batches r') := by
  by_cases hr : r' = r
  · subst hr
    obtain ⟨b, hb, rfl⟩ := hI.selects _ _ hpc
    have hrows : (db.modifyBatch r' b.batchNumber f).batches r' =
        (db.batches r').map fun c => if c.batchNumber = b.batchNumber then f c else c :=
      Function.update_self _ _ _
    rw [hrows]
    exact .updated (hI.system.knows.running _ (runningRun?_of_batch? hpc)) hb hf (ha b hb)
  · have hrows : (db.modifyBatch r n f).batches r' = db.batches r' := Function.update_of_ne hr _ _
    rw [hrows]
    exact .same

/-- **Every step moves the rows of every run so.** -/
theorem rowsMoved_effect (hI : AttemptInvariant config ⟨db, pc⟩)
    (h : Effect config service a db pc db' pc') (r : RunId) :
    RowsMoved config db r (db.batches r) (db'.batches r) := by
  have keeps : ∀ {n : Nat} {r₀ : RunId} {f : IngestionBatch → IngestionBatch},
      pc.batch? = some (r₀, n) → KeepsDefinition f → (∀ b, (f b).attemptCount = b.attemptCount) →
        RowsMoved config db r (db.batches r) ((db.modifyBatch r₀ n f).batches r) := by
    intro n r₀ f hpc hf hcount
    exact rowsMoved_modifyBatch hI.batch hpc hf (fun b _ hb => (hcount b).symm ▸ hb) r
  have of_batches : db'.batches = db.batches → RowsMoved config db r (db.batches r) (db'.batches r) := by
    intro hb
    rw [hb]
    exact .same
  cases h with
  | runCreated hc =>
      obtain ⟨-, -, rfl⟩ := Db.createQueued_eq_ok hc
      exact .same
  | @snapshotStored runId _ _ _ hs =>
      obtain ⟨run, hr, hi, -, rfl⟩ := Db.initializeRunSnapshotAndBatches_eq_ok hs
      by_cases he : r = runId
      · subst he
        simp only [Function.update_self]
        refine .stored _ fun b hb hcompleted => ?_
        obtain ⟨run', hr', hi'⟩ := hI.initialized r b.batchNumber ⟨b, hb, rfl, hcompleted⟩
        rw [hr] at hr'
        cases hr'
        rw [hi] at hi'
        cases hi'
      · simp only [Function.update_of_ne he]
        exact .same
  | runStarted hs =>
      obtain ⟨_, -, -, -, -, rfl⟩ := Db.setStartWatermarkAndRunning_eq_ok hs
      exact .same
  | budgetExhausted _ _ _ hf =>
      obtain ⟨-, rfl⟩ := Db.markFailed_eq_ok hf
      exact keeps rfl (fun _ => ⟨rfl, rfl⟩) fun _ => rfl
  | attemptCounted hfound _ hm =>
      refine rowsMoved_modifyBatch (f := fun b => { b with attemptCount := b.attemptCount + 1 })
        hI.batch rfl (fun _ => ⟨rfl, rfl⟩) (fun b hb _ => ?_) r
      rw [(hI.batch.findBatch rfl hfound).1] at hb
      cases hb
      exact hm
  | attemptStarted => exact keeps rfl (fun _ => ⟨rfl, rfl⟩) fun _ => rfl
  | attemptInvalid => exact keeps rfl (fun _ => ⟨rfl, rfl⟩) fun _ => rfl
  | pageFailed _ hf =>
      obtain ⟨-, rfl⟩ := Db.markFailed_eq_ok hf
      exact keeps rfl (fun _ => ⟨rfl, rfl⟩) fun _ => rfl
  | rawPersisted =>
      obtain ⟨raw, hraw⟩ := Db.persistRaw_eq db
      rw [hraw]
      exact .same
  | lastPage => exact keeps rfl (fun _ => ⟨rfl, rfl⟩) fun _ => rfl
  | pageLimit => exact keeps rfl (fun _ => ⟨rfl, rfl⟩) fun _ => rfl
  | nextPage => exact keeps rfl (fun _ => ⟨rfl, rfl⟩) fun _ => rfl
  | batchCompleted => exact keeps rfl (fun _ => ⟨rfl, rfl⟩) fun _ => rfl
  | pageLimitFailed hf =>
      obtain ⟨-, rfl⟩ := Db.markFailed_eq_ok hf
      exact keeps rfl (fun _ => ⟨rfl, rfl⟩) fun _ => rfl
  | attemptClosed hf =>
      obtain ⟨-, rfl⟩ := Db.markFailed_eq_ok hf
      exact keeps rfl (fun _ => ⟨rfl, rfl⟩) fun _ => rfl
  | terminalPublished hp => exact of_batches (batches_publishTerminalFailure hp)
  | acceptedPublished hp => exact of_batches (batches_publish hp)
  | _ => exact .same

/-- A page is requested below the page limit. -/
theorem pages_effect (h : Effect config service a db pc db' pc') {attempt : BatchAttempt}
    (hpc : pc' = .fetchingPage attempt) : attempt.pagesFetched < config.socrataMaxPagesPerBatch := by
  cases h with
  | attemptStarted => cases hpc; exact config.socrataMaxPagesPerBatch_pos
  | nextPage _ hm => cases hpc; exact hm
  | endRejected _ hp => rcases hp with rfl | ⟨outcome, rfl⟩ <;> cases hpc
  | _ => cases hpc

end Steps

/-- **Every event moves the rows of every run so.** -/
theorem rowsMoved_next {ev : Event Row} (hI : AttemptInvariant config s)
    (h : next config service s ev = some s') (r : RunId) :
    RowsMoved config s.db r (s.db.batches r) (s'.db.batches r) := by
  cases next_turn h with
  | acquired => exact .same
  | stepped he => exact rowsMoved_effect hI he r
  | crashed => exact .same
  | created hc =>
      obtain ⟨_, _, _, rfl⟩ := createProperty_frame hc
      exact .same
  | applied ha =>
      obtain ⟨_, _, _, rfl⟩ := applyEffectiveBinSet_frame ha
      exact .same

theorem attemptInvariant_initial :
    AttemptInvariant config (SystemState.initial : SystemState Row) where
  batch := batchInvariant_initial
  records := allBatchRecords_empty
  initialized _ _ h := by
    obtain ⟨b, hb, -⟩ := h
    cases hb
  bounded _ _ hb := nomatch hb
  pages _ h := nomatch h

theorem Reachable.next {ev : Event Row} (h : Reachable config service s)
    (hs : next config service s ev = some s') : Reachable config service s' :=
  .tail h trivial hs

/-- **One event keeps the attempt invariant.** -/
theorem attemptInvariant_next {ev : Event Row} (hr : Reachable config service s)
    (hI : AttemptInvariant config s) (h : next config service s ev = some s') :
    AttemptInvariant config s' := by
  have hmoved := rowsMoved_next hI h
  refine ⟨batchInvariant_next hI.batch h, allBatchRecords_of_reachable (hr.next h), ?_, ?_, ?_⟩
  · rintro r n ⟨c, hc, hn, hcompleted⟩
    have hbefore : ∃ run, s.db.runs.find r = some run ∧ run.initializationComplete = true := by
      rcases (hmoved r).completed_origin hc hcompleted with hrun | hmem
      · obtain ⟨run, hfind, -, hi, -⟩ := hrun.found
        exact ⟨run, hfind, hi⟩
      · exact hI.initialized r n ⟨c, hmem, hn, hcompleted⟩
    obtain ⟨run, hfind, hi⟩ := hbefore
    obtain ⟨run', hfind', he⟩ := (systemInvariant_next hI.batch.system h).2 r run hfind
    exact ⟨run', hfind', (he.initialized hi).1⟩
  · intro r
    exact (hmoved r).attemptsBounded (hI.batch.order r) (hI.bounded r)
  · intro attempt hpc
    cases next_turn h with
    | acquired => cases hpc
    | stepped he => exact pages_effect he hpc
    | crashed => cases hpc
    | created => exact hI.pages attempt hpc
    | applied => exact hI.pages attempt hpc

theorem attemptInvariant_of_reachable (h : Reachable config service s) :
    AttemptInvariant config s := by
  induction h with
  | refl => exact attemptInvariant_initial
  | tail hr _ hs ih => exact attemptInvariant_next hr ih hs

/-! ### The loop comes to an end -/

section Loop

variable {a : Answer Row} {db db' : Db Row} {pc pc' : ExecutorState Row} {r : RunId}

/-- An update that keeps the counts keeps the attempts that are left. -/
theorem attemptsLeft_map {bs : List IngestionBatch} {n : Nat}
    {f : IngestionBatch → IngestionBatch} (hf : ∀ b, (f b).attemptCount = b.attemptCount) :
    attemptsLeft config (bs.map fun b => if b.batchNumber = n then f b else b) =
      attemptsLeft config bs := by
  rw [attemptsLeft, attemptsLeft, List.map_map]
  refine congrArg List.sum (List.map_congr_left fun b _ => ?_)
  simp only [Function.comp_apply]
  split
  · rw [hf]
  · rfl

theorem attemptsLeft_modifyBatch {r' : RunId} {n : Nat} {f : IngestionBatch → IngestionBatch}
    (hf : ∀ b, (f b).attemptCount = b.attemptCount) :
    attemptsLeft config ((db.modifyBatch r n f).batches r') =
      attemptsLeft config (db.batches r') := by
  by_cases hr : r' = r
  · subst hr
    simp only [Db.modifyBatch, Function.update_self]
    exact attemptsLeft_map hf
  · simp only [Db.modifyBatch, Function.update_of_ne hr]

/-- A counted attempt is one less that is left. -/
theorem attemptsLeft_counted {bs : List IngestionBatch} {b : IngestionBatch} (ho : BatchOrder bs)
    (hb : firstOpen bs = some b) (hm : b.attemptCount < config.maxBatchAttemptsPerRun) :
    attemptsLeft config (bs.map fun c =>
      if c.batchNumber = b.batchNumber then { c with attemptCount := c.attemptCount + 1 } else c) <
      attemptsLeft config bs := by
  obtain ⟨done, rest, rfl, -, -, he⟩ :=
    ho.map_update (f := fun c => { c with attemptCount := c.attemptCount + 1 }) hb
  rw [he]
  simp only [attemptsLeft, List.map_append, List.map_cons, List.sum_append, List.sum_cons]
  omega

/-- Steps with the same attempts left are compared by their positions. -/
theorem loopRank_lt {x y : Nat ×ₗ Nat ×ₗ Nat} {r' : RunId}
    (hpc : pc.loopPosition config = some (r, x)) (hpc' : pc'.loopPosition config = some (r', y))
    (hr : r' = r)
    (hleft : attemptsLeft config (db'.batches r) = attemptsLeft config (db.batches r)) (hlt : y < x) :
    loopRank config ⟨db', pc'⟩ < loopRank config ⟨db, pc⟩ := by
  subst hr
  simp only [loopRank, hpc, hpc']
  exact Prod.Lex.toLex_lt_toLex.mpr (.inr ⟨hleft, hlt⟩)

/-- A lower phase is a lower position. -/
theorem phase_lt {m n : Nat} {x y : Nat ×ₗ Nat} (h : m < n) :
    (toLex (m, x) : Nat ×ₗ Nat ×ₗ Nat) < toLex (n, y) :=
  Prod.Lex.toLex_lt_toLex.mpr (.inl h)

/-- In the phase of the pages, the pages come before the rows. -/
theorem page_lt {m n x y : Nat} (h : m < n ∨ m = n ∧ x < y) :
    (toLex (6, toLex (m, x)) : Nat ×ₗ Nat ×ₗ Nat) < toLex (6, toLex (n, y)) :=
  Prod.Lex.toLex_lt_toLex.mpr (.inr ⟨rfl, Prod.Lex.toLex_lt_toLex.mpr h⟩)

/-- The `catch` clause ends the attempt. -/
theorem failAttempt_ends {attempt : BatchAttempt} {message : String}
    (h : failAttempt a db attempt message = (db', pc')) :
    (∃ outcome, pc' = .stopped outcome) ∨ pc' = .selectingBatch attempt.runId ∧
      db.markFailed attempt.runId attempt.batchNumber
        ("BATCH_ROW_PROCESSING_FAILED: " ++ message) = .ok db' := by
  unfold failAttempt at h
  split at h
  · split at h
    · cases h; exact .inl ⟨_, rfl⟩
    · split at h
      · rename_i hf
        cases h; exact .inr ⟨rfl, hf⟩
      · rename_i e _
        obtain ⟨outcome, he⟩ := stoppedBy_eq Row e
        cases h; exact .inl ⟨outcome, he⟩
  · cases h; exact .inl ⟨_, rfl⟩

/-- **Every step inside the loop lowers the rank.** -/
theorem loopRank_step (hI : AttemptInvariant config ⟨db, pc⟩)
    (h : executorStep config service a db pc = some (db', pc'))
    (hin : ProcessingBatches config ⟨db, pc⟩) (hin' : ProcessingBatches config ⟨db', pc'⟩) :
    loopRank config ⟨db', pc'⟩ < loopRank config ⟨db, pc⟩ := by
  -- a batch update keeps the attempts that are left
  have kept : ∀ {r r' : RunId} {n : Nat} {f : IngestionBatch → IngestionBatch},
      (∀ b, (f b).attemptCount = b.attemptCount) →
        attemptsLeft config ((db.modifyBatch r n f).batches r') =
          attemptsLeft config (db.batches r') := attemptsLeft_modifyBatch
  have failed : ∀ {r : RunId} {n : Nat} {lastError : String},
      db.markFailed r n lastError = .ok db' →
        attemptsLeft config (db'.batches r) = attemptsLeft config (db.batches r) := by
    intro r n lastError hf
    obtain ⟨-, rfl⟩ := Db.markFailed_eq_ok hf
    exact kept fun _ => rfl
  -- an attempt that threw is closed, and does not throw again
  by_cases hthrew : ∃ attempt message, pc = .attemptFailed attempt message
  · obtain ⟨attempt, message, rfl⟩ := hthrew
    rcases failAttempt_ends (Option.some.inj h) with ⟨outcome, rfl⟩ | ⟨rfl, hf⟩
    · cases hin'
    · exact loopRank_lt rfl rfl rfl (failed hf) (phase_lt (by decide))
  · cases executorStep_effect h with
    | batchExhausted => exact loopRank_lt rfl rfl rfl rfl (phase_lt (by decide))
    | batchSelected => exact loopRank_lt rfl rfl rfl rfl (phase_lt (by decide))
    | batchAlreadyCompleted hfound hs =>
        have hb := (hI.batch.findBatch rfl hfound).1
        exact absurd hs (firstOpen_eq_some.mp hb).1
    | budgetExhausted _ _ _ hf => exact loopRank_lt rfl rfl rfl (failed hf) (phase_lt (by decide))
    | @attemptCounted r n b hfound _ hm =>
        obtain ⟨hb, rfl⟩ := hI.batch.findBatch rfl hfound
        have hcounted := attemptsLeft_counted (hI.batch.order r) hb hm
        refine Prod.Lex.toLex_lt_toLex.mpr (.inl ?_)
        simpa only [Db.incrementAttemptCount, Db.modifyBatch, Function.update_self] using hcounted
    | attemptStarted =>
        exact loopRank_lt rfl rfl rfl (kept fun _ => rfl) (phase_lt (by decide))
    | @pageFetched attempt page _ =>
        have hpages := hI.pages attempt rfl
        refine loopRank_lt rfl rfl rfl rfl (page_lt (.inl ?_))
        simp only
        omega
    | pageFailed _ hf => exact loopRank_lt rfl rfl rfl (failed hf) (phase_lt (by decide))
    | @attemptThrew _ attempt message hpc =>
        cases pc with
        | fetchingPage _ => cases hpc; exact loopRank_lt rfl rfl rfl rfl (phase_lt (by decide))
        | processingRows _ _ _ => cases hpc; exact loopRank_lt rfl rfl rfl rfl (phase_lt (by decide))
        | stagingRow _ _ _ _ _ =>
            cases hpc; exact loopRank_lt rfl rfl rfl rfl (phase_lt (by decide))
        | completingBatch _ => cases hpc; exact loopRank_lt rfl rfl rfl rfl (phase_lt (by decide))
        | pageLimitReached _ => cases hpc; exact loopRank_lt rfl rfl rfl rfl (phase_lt (by decide))
        | attemptFailed attempt message => exact absurd ⟨attempt, message, rfl⟩ hthrew
        | _ => cases hpc
    | rawPersisted =>
        obtain ⟨raw, hraw⟩ := Db.persistRaw_eq db
        rw [hraw]
        refine loopRank_lt rfl rfl rfl rfl (page_lt (.inr ⟨rfl, ?_⟩))
        simp only [List.length_cons]
        omega
    | rowStaged => exact loopRank_lt rfl rfl rfl rfl (page_lt (.inr ⟨rfl, Nat.lt_succ_self _⟩))
    | lastPage => exact loopRank_lt rfl rfl rfl (kept fun _ => rfl) (phase_lt (by decide))
    | pageLimit => exact loopRank_lt rfl rfl rfl (kept fun _ => rfl) (phase_lt (by decide))
    | nextPage =>
        exact loopRank_lt rfl rfl rfl (kept fun _ => rfl) (page_lt (.inl (Nat.lt_succ_self _)))
    | batchCompleted => exact loopRank_lt rfl rfl rfl (kept fun _ => rfl) (phase_lt (by decide))
    | pageLimitFailed hf => exact loopRank_lt rfl rfl rfl (failed hf) (phase_lt (by decide))
    | outcomeHandedOver => exact loopRank_lt rfl rfl rfl rfl (phase_lt (by decide))
    | attemptClosed => exact absurd ⟨_, _, rfl⟩ hthrew
    -- the loop is left, or has not been entered
    | stop => cases hin'
    | batchesDone => cases hin'
    | attemptInvalid => cases hin'
    | terminalPublished => cases hin'
    | _ => cases hin

/-- Transactions on properties leave the executor and the batches as they are. -/
theorem onProperty_frame {ok : SystemState Row → Event Row → Prop}
    (hok : ∀ t ev, ok t ev → ev.OnProperty) (h : Steps (next config service) ok s s') :
    s'.executor = s.executor ∧ s'.db.batches = s.db.batches := by
  refine h.invariant (I := fun t => t.executor = s.executor ∧ t.db.batches = s.db.batches)
    (fun {t u ev} hI hev hs => ?_) ⟨rfl, rfl⟩
  cases next_turn hs with
  | created hc =>
      obtain ⟨_, _, _, rfl⟩ := createProperty_frame hc
      exact hI
  | applied ha =>
      obtain ⟨_, _, _, rfl⟩ := applyEffectiveBinSet_frame ha
      exact hI
  | _ => exact absurd (hok _ _ hev) not_false

/-- **A turn inside the loop lowers the rank.** -/
theorem loopRank_turn (hr : Reachable config service s) (hin : ProcessingBatches config s)
    (h : ExecutorTurn config service s s') :
    Reachable config service s' ∧
      (ProcessingBatches config s' → loopRank config s' < loopRank config s) := by
  obtain ⟨t, answer, hst, ht⟩ := h
  obtain ⟨hexec, hbatches⟩ := onProperty_frame (fun _ _ hok => hok) hst
  have hrt : Reachable config service t := hr.trans (hst.mono fun _ _ _ => trivial)
  refine ⟨hrt.next ht, fun hin' => ?_⟩
  have hrank : loopRank config t = loopRank config s := by
    rw [loopRank, loopRank, hexec, hbatches]
  have hint : ProcessingBatches config t := by
    rw [ProcessingBatches, hexec]
    exact hin
  obtain ⟨⟨db', pc'⟩, hstep, rfl⟩ := Option.map_eq_some_iff.mp ht
  rw [← hrank]
  exact loopRank_step (attemptInvariant_of_reachable hrt) hstep hint hin'

end Loop

/-! ### Bounded attempts -/

/-- A COMPLETED batch stays as it is, over every further run. -/
theorem completedBatch_stays (hr : Reachable config service s)
    (h : Steps (next config service) (fun _ _ => True) s s') {r : RunId} {b : IngestionBatch}
    (hb : b ∈ s.db.batches r) (hs : b.status = .completed) : b ∈ s'.db.batches r := by
  induction h with
  | refl => exact hb
  | tail hst _ hnext ih =>
      have hI := attemptInvariant_of_reachable (hr.trans hst)
      exact (rowsMoved_next hI hnext r).completed_mem (hI.batch.order r) ih hs

/-- An execution is not in a COMPLETED batch. -/
theorem completedBatch_not_executed (hr : Reachable config service s) {r : RunId} {b : IngestionBatch}
    (hb : b ∈ s.db.batches r) (hs : b.status = .completed) :
    s.executor.batch? ≠ some (r, b.batchNumber) := by
  intro hpc
  have hI := attemptInvariant_of_reachable hr
  obtain ⟨b', hb', hn⟩ := hI.batch.selects r _ hpc
  obtain ⟨done, rest, e, -, -, hne⟩ := (hI.batch.order r).split hb'
  rw [e] at hb
  rcases List.mem_append.mp hb with hdone | hrest
  · exact hne b (List.mem_append_left _ hdone) hn.symm
  · rcases List.mem_cons.mp hrest with rfl | hrest
    · exact (firstOpen_eq_some.mp hb').1 hs
    · exact hne b (List.mem_append_right _ hrest) hn.symm

/-- **Bounded attempts.**  In every reachable state no batch has more attempts than the limit; a batch
that is COMPLETED stays as it is and is never in work again; when an event completes a batch, those
with smaller numbers were COMPLETED before it; and an execution in `processPersistedBatches` can always
take its next step, and leaves the loop in every sequence of its turns. -/
theorem bounded_attempts (hr : Reachable config service s) :
    (∀ r, AttemptsBounded config (s.db.batches r)) ∧
    (∀ r, ∀ b ∈ s.db.batches r, b.status = .completed →
      ∀ s', Steps (next config service) (fun _ _ => True) s s' →
        b ∈ s'.db.batches r ∧ s'.executor.batch? ≠ some (r, b.batchNumber)) ∧
    (∀ ev s' r n, next config service s ev = some s' → ¬ IsCompleted s.db r n →
      IsCompleted s'.db r n → ∀ b ∈ s.db.batches r, b.batchNumber < n → b.status = .completed) ∧
    (ProcessingBatches config s → ∀ answer, ∃ s', next config service s (.executor answer) = some s') ∧
    ∀ trace : Nat → SystemState Row, trace 0 = s →
      (∀ n, ProcessingBatches config (trace n) →
        ExecutorTurn config service (trace n) (trace (n + 1))) →
      ∃ n, ¬ ProcessingBatches config (trace n) := by
  have hI := attemptInvariant_of_reachable hr
  refine ⟨hI.bounded, ?_, ?_, ?_, ?_⟩
  · intro r b hb hs s' hst
    have hb' := completedBatch_stays hr hst hb hs
    exact ⟨hb', completedBatch_not_executed (hr.trans hst) hb' hs⟩
  · rintro ev s' r n hnext hnot ⟨c, hc, rfl, hcompleted⟩
    refine (rowsMoved_next hI hnext r).completed_before (hI.batch.order r) (hI.records r) hc
      hcompleted fun c' hc' hn hs => ?_
    exact hnot ⟨c', hc', hn, hs⟩
  · intro hin answer
    obtain ⟨db, pc⟩ := s
    cases pc with
    | stopped outcome => cases hin
    | _ => exact ⟨_, rfl⟩
  · intro trace h₀ htrace
    refine leaves_of_rank wellFounded_lt (I := Reachable config service) (loopRank config)
      (fun hrs hin ht => loopRank_turn hrs hin ht) ?_ htrace
    rw [h₀]
    exact hr

/-- Two batches: an execution completes the first and dies in its first attempt at the second, and the
next execution is in the second attempt at it. -/
def interruptedRun : List (Event NormalizedEcbViolation) :=
  [createSample 0 "1000010001" "1000001", createSample 1 "1000010002" "1000002",
    createSample 2 "1000010003" "1000003", .acquireLock .manual] ++
    List.replicate 17 (.executor (quietAnswer 0 7 [])) ++ [.crash, .acquireLock .manual] ++
    List.replicate 6 (.executor (quietAnswer 0 7 []))

theorem bounded_attempts_interruptedRun :
    ∃ s, Library.run (next smallConfig plainService) .initial interruptedRun = some s ∧
      (s.db.batches 0).map (fun b => (b.batchNumber, b.status, b.attemptCount)) =
        [(1, .completed, 1), (2, .running, 2)] ∧
      ProcessingBatches smallConfig s ∧ (∀ r, AttemptsBounded smallConfig (s.db.batches r)) ∧
      ∀ trace : Nat → SystemState NormalizedEcbViolation, trace 0 = s →
        (∀ n, ProcessingBatches smallConfig (trace n) →
          ExecutorTurn smallConfig plainService (trace n) (trace (n + 1))) →
        ∃ n, ¬ ProcessingBatches smallConfig (trace n) := by
  have hs : ((Library.run (next smallConfig plainService) .initial interruptedRun).map fun s =>
      ((s.db.batches 0).map (fun b => (b.batchNumber, b.status, b.attemptCount)),
        (s.executor.loopPosition smallConfig).isSome)) =
      some ([(1, .completed, 1), (2, .running, 2)], true) := by decide +kernel
  obtain ⟨s, hrun, hs⟩ := Option.map_eq_some_iff.mp hs
  rw [Prod.mk.injEq] at hs
  have h : Reachable smallConfig plainService s := run_steps (runOk_trivial _ _) hrun
  obtain ⟨hbounded, -, -, -, hends⟩ := bounded_attempts h
  exact ⟨s, hrun, hs.1, hs.2, hbounded, hends⟩

end NycPropertyResolver
