import NycPropertyResolver.Ingestion.Progress
import NycPropertyResolver.Ingestion.EndToEnd

/-!
# Ingestion — an execution over a source that stands

When the source keeps its rows and its watermark while an execution goes on, every row of it can be
read, and the rows on the BINs of a batch fit into its pages, the execution ends with its run COMPLETED
at that watermark.  A predecessor that crashed may have left a run behind, under the same watermark and
with attempts left.
-/

namespace NycPropertyResolver

open Library

variable {Row : Type} {config : ExecutorConfig} {columns : SourceColumns Row}
  {service : EcbRowService Row} {dataset : SourceDataset Row}

/-! ### Statements -/

/-- **What a source has for its runs to complete**: each row has an identity and normalizes, and the
rows on as many BINs as a batch may hold end before the last page a batch may fetch. -/
structure Ingestible (config : ExecutorConfig) (columns : SourceColumns Row)
    (service : EcbRowService Row) (dataset : SourceDataset Row) : Prop where
  identifies : ∀ row ∈ dataset.rows, ∃ identity, service.extractEcbSourceIdentity row = .ok identity
  normalizes : ∀ row ∈ dataset.rows, service.normalizeEcbViolation row ≠ none
  fits : ∀ bins : List CanonicalBin, bins.length ≤ config.ecbBatchSize →
    (matchingRows columns service dataset.rows bins).length <
      config.socrataMaxPagesPerBatch * config.socrataPageSize

/-- A step that meets no failure while the source stands: a metadata request reads the watermark, and a
page request the slice it asks for. -/
structure Answer.Serves (a : Answer Row) (columns : SourceColumns Row) (service : EcbRowService Row)
    (dataset : SourceDataset Row) (db : Db Row) (pc : ExecutorState Row) : Prop where
  quiet : a.Quiet
  metadata : a.metadata = .ok dataset.rowsUpdatedAt
  page : ∀ attempt ∈ pc.pageRequest?, a.page = .ok (dataPage columns service dataset.rows
    attempt.definition.bins attempt.offset attempt.definition.pageSize)
  fresh : db.runs.find a.freshId = none

theorem Answer.Serves.steady {a : Answer Row} {db : Db Row} {pc : ExecutorState Row}
    (h : a.Serves columns service dataset db pc) : a.Steady db :=
  ⟨h.quiet, ⟨_, h.metadata⟩, h.fresh⟩

/-- The next step of an execution while the source stands, after any number of transactions on
properties. -/
def ServedTurn (config : ExecutorConfig) (columns : SourceColumns Row) (service : EcbRowService Row)
    (dataset : SourceDataset Row) (s s' : SystemState Row) : Prop :=
  ∃ t a, Steps (next config service) (fun _ ev => ev.OnProperty) s t ∧
    a.Serves columns service dataset t.db t.executor ∧
    next config service t (.executor a) = some s'

/-- The batch whose attempt counter has been raised, until the attempt ends. -/
def ExecutorState.counted? : ExecutorState Row → Option (RunId × Nat)
  | .attemptCounted r n => some (r, n)
  | pc => pc.attempt?.map fun attempt => (attempt.runId, attempt.batchNumber)

/-- Each batch that is open has an attempt left, or is being attempted. -/
def OpenAttempts (config : ExecutorConfig) (r : RunId) (counted : Option (RunId × Nat))
    (bs : List IngestionBatch) : Prop :=
  ∀ b ∈ bs, b.status ≠ .completed →
    b.attemptCount < config.maxBatchAttemptsPerRun ∨ counted = some (r, b.batchNumber)

/-- **The active run can be completed under a watermark**: it has none yet or this one, and attempts
are left. -/
structure Completable (config : ExecutorConfig) (w : Time) (counted : Option (RunId × Nat))
    (db : Db Row) : Prop where
  watermark : ∀ r run, db.runs.find r = some run → run.isActive = true →
    ∀ w' ∈ run.sourceWatermarkAtStart, w' = w
  attempts : ∀ r run, db.runs.find r = some run → run.isActive = true →
    OpenAttempts config r counted (db.batches r)

instance (bs : List IngestionBatch) (r : RunId) (counted : Option (RunId × Nat)) :
    Decidable (OpenAttempts config r counted bs) :=
  inferInstanceAs (Decidable (∀ b ∈ bs, _ → _))

instance (w : Time) (counted : Option (RunId × Nat)) (db : Db Row) :
    Decidable (Completable config w counted db) :=
  decidable_of_iff (∀ row ∈ db.runs.rows, row.2.isActive = true →
      (∀ w' ∈ row.2.sourceWatermarkAtStart, w' = w) ∧
        OpenAttempts config row.1 counted (db.batches row.1))
    ⟨fun h => ⟨fun r run hr ha => (h (r, run) (Table.mem_rows.mpr hr) ha).1,
        fun r run hr ha => (h (r, run) (Table.mem_rows.mpr hr) ha).2⟩,
      fun h row hrow ha => ⟨h.watermark row.1 row.2 (Table.mem_rows.mp hrow) ha,
        h.attempts row.1 row.2 (Table.mem_rows.mp hrow) ha⟩⟩

/-- A run is COMPLETED, with the watermark at its start and at its end. -/
def CompletedAt (db : Db Row) (r : RunId) (w : Time) : Prop :=
  ∃ run, db.runs.find r = some run ∧ run.status = .completed ∧
    run.sourceWatermarkAtStart = some w ∧ run.sourceWatermarkAtEnd = some w

/-- A definition of a batch within the limits of the executor. -/
structure WithinLimits (config : ExecutorConfig) (definition : IngestionBatchDefinition) : Prop where
  bins : definition.bins.length ≤ config.ecbBatchSize
  pageSize : definition.pageSize = config.socrataPageSize

/-- An attempt is in the middle of the page at its offset, the last it has fetched. -/
structure AtPage (config : ExecutorConfig) (columns : SourceColumns Row) (service : EcbRowService Row)
    (dataset : SourceDataset Row) (attempt : BatchAttempt) (page remaining : List Row) : Prop where
  limits : WithinLimits config attempt.definition
  page : page = dataPage columns service dataset.rows attempt.definition.bins attempt.offset
    attempt.definition.pageSize
  offset : attempt.offset + config.socrataPageSize = attempt.pagesFetched * config.socrataPageSize
  remaining : ∀ row ∈ remaining, row ∈ dataset.rows

/-- **Where an execution can be** while the source stands. -/
def OnCourse (config : ExecutorConfig) (columns : SourceColumns Row) (service : EcbRowService Row)
    (dataset : SourceDataset Row) : ExecutorState Row → Prop
  | .startWatermarkFetched _ rowsUpdatedAt => rowsUpdatedAt = dataset.rowsUpdatedAt
  | .endWatermarkFetched _ startWatermark endWatermark => endWatermark = startWatermark
  | .fetchingPage attempt => WithinLimits config attempt.definition ∧
      attempt.offset = attempt.pagesFetched * config.socrataPageSize
  | .processingRows attempt page remaining =>
      AtPage config columns service dataset attempt page remaining
  | .stagingRow attempt page row _ remaining =>
      AtPage config columns service dataset attempt page (row :: remaining)
  | .pageLimitReached _ | .attemptFailed _ _ | .terminalOutcome _ _ => False
  | .publishingTerminalFailure _ => False
  | .stopped outcome => outcome = .completed
  | _ => True

/-! ### Pages -/

section Pages

variable {attempt : BatchAttempt} {page remaining : List Row} {row : Row}

theorem mem_dataPage {rows : List Row} {bins : List CanonicalBin} {offset limit : Nat}
    (h : row ∈ dataPage columns service rows bins offset limit) : row ∈ rows :=
  (mem_matchingRows.mp (List.mem_of_mem_drop (List.mem_of_mem_take h))).1

/-- The last page a batch may fetch is not full. -/
theorem AtPage.not_full (hsource : Ingestible config columns service dataset)
    (h : AtPage config columns service dataset attempt page remaining)
    (hm : config.socrataMaxPagesPerBatch ≤ attempt.pagesFetched) :
    page.length < attempt.definition.pageSize := by
  have hfits := hsource.fits attempt.definition.bins h.limits.bins
  have hmul := Nat.mul_le_mul_right config.socrataPageSize hm
  have hpos := config.socrataPageSize_pos
  rw [← h.offset] at hmul
  rw [h.page, h.limits.pageSize, dataPage, List.length_take, List.length_drop]
  omega

/-- A full page ends where the next one begins. -/
theorem AtPage.length_of_full (h : AtPage config columns service dataset attempt page remaining)
    (hfull : ¬ page.length < attempt.definition.pageSize) :
    attempt.offset + page.length = attempt.pagesFetched * config.socrataPageSize := by
  have hle : page.length ≤ attempt.definition.pageSize := by
    rw [h.page, dataPage]
    exact List.length_take_le _ _
  rw [← h.offset, ← h.limits.pageSize, Nat.le_antisymm hle (Nat.le_of_not_lt hfull)]

end Pages

/-! ### Steps -/

section Steps

variable {a : Answer Row} {db db' : Db Row} {pc pc' : ExecutorState Row} {r : RunId}
  {run : IngestionRun} {b : IngestionBatch} {w : Time} {counted : Option (RunId × Nat)}

/-- A RUNNING run has the watermark. -/
theorem Completable.start_eq (h : Completable config w counted db) (hr : IsRunning db r)
    (hfind : db.runs.find r = some run) : run.sourceWatermarkAtStart = some w := by
  obtain ⟨run', hr', hs, -, hw⟩ := hr
  cases hfind.symm.trans hr'
  obtain ⟨w', hw'⟩ := Option.ne_none_iff_exists'.mp hw
  rw [hw', h.watermark r run hfind (Db.isActive_iff.mpr (.inr hs)) w' hw']

/-- An open batch of a RUNNING run has an attempt left, outside of an attempt. -/
theorem Completable.attempts_left (h : Completable config w none db) (hr : IsRunning db r)
    (hb : b ∈ db.batches r) (hs : b.status ≠ .completed) :
    b.attemptCount < config.maxBatchAttemptsPerRun := by
  obtain ⟨run, hfind, hrunning, -⟩ := hr
  exact (h.attempts r run hfind (Db.isActive_iff.mpr (.inr hrunning)) b hb hs).resolve_right nofun

theorem Completable.not_exhausted (h : Completable config w none db) (hr : IsRunning db r)
    (hb : b ∈ db.batches r) : isExhausted config b ≠ true := by
  intro hx
  obtain ⟨hs, hle⟩ := isExhausted_iff.mp hx
  exact Nat.not_le.mpr (h.attempts_left hr hb (by simp [hs])) hle

/-- A row of the source does not end the attempt. -/
theorem not_attemptFailed (hsource : Ingestible config columns service dataset)
    (ha : a.Serves columns service dataset db pc)
    (hon : OnCourse config columns service dataset pc) {x : Db Row × ExecutorState Row}
    (h : executorStep config service a db pc = some x) :
    ∀ attempt message, x.2 ≠ .attemptFailed attempt message := by
  intro attempt message hx
  -- only a step of an attempt fails it
  have hattempt : ∃ attempt, pc.attempt? = some attempt := by
    obtain ⟨db', pc'⟩ := x
    subst hx
    cases executorStep_effect h with
    | attemptThrew h => exact ⟨_, h⟩
    | endRejected _ hp => rcases hp with hp | ⟨_, hp⟩ <;> cases hp
  obtain ⟨_, hattempt⟩ := hattempt
  cases pc with
  | fetchingPage attempt =>
      cases h
      rw [fetchPage, ha.page attempt rfl] at hx
      simp [ha.quiet.authorized] at hx
  | processingRows attempt page remaining =>
      cases h
      cases remaining with
      | nil =>
          simp only [processRows, ha.quiet.statementError] at hx
          split at hx
          · cases hx
          · split at hx
            · cases hx
            · cases hx
      | cons row rest =>
          obtain ⟨identity, hi⟩ := hsource.identifies row (hon.remaining row List.mem_cons_self)
          simp [processRows, ha.quiet.authorized, hi, ha.quiet.statementError] at hx
  | stagingRow attempt page row sourceId rest =>
      cases h
      obtain ⟨v, hv⟩ := Option.ne_none_iff_exists'.mp
        (hsource.normalizes row (hon.remaining row List.mem_cons_self))
      simp [stageRow, hv, ha.quiet.statementError] at hx
  | completingBatch attempt =>
      cases h
      simp [completeBatch, ha.quiet.authorized, ha.quiet.statementError] at hx
  | pageLimitReached attempt => exact hon
  | attemptFailed attempt message => exact hon
  | _ => cases hattempt

/-- The publication of a RUNNING run completes it. -/
theorem completedAt_of_publish {outcome : AcceptedPublicationOutcome}
    (hc : Completable config w counted db) (hr : IsRunning db r)
    (h : db.publish a.publication r = (db', .ok outcome)) : CompletedAt db' r w := by
  obtain ⟨run, hfind, hs, -⟩ := id hr
  rcases Db.acceptedTransaction_eq_ok (Db.publish_ok h) with
    ⟨-, -, hcompleted⟩ | ⟨run', db₂, -, hpub, -, hcoverage, rfl⟩
  · rw [hfind, Option.map_some, hs] at hcompleted
    cases hcompleted
  · obtain ⟨_, rfl⟩ := Db.publishSuccessfulCoverage_frame hcoverage
    have hstart := hc.start_eq hr hpub.found
    exact ⟨_, Table.find_modify_self.trans (congrArg _ hpub.found), rfl, hstart,
      hpub.guard.symm.trans hstart⟩

/-- **An execution on course ends by its publication only.** -/
theorem stops_by_publication {outcome : ExecutionOutcome} (hI : ProgressInvariant config ⟨db, pc⟩)
    (hon : OnCourse config columns service dataset pc)
    (hproceeds : Proceeds pc (db', .stopped outcome))
    (h : Effect config service a db pc db' (.stopped outcome)) :
    outcome = .completed ∧ ∃ r published, pc = .readyForPublication r ∧
      db.publish a.publication r = (db', .ok published) := by
  obtain ⟨r, -, hended, ⟨request, rfl⟩ | ⟨rfl, rfl⟩⟩ := hproceeds _ rfl
  · exact hon.elim
  · cases h with
    | stop =>
        obtain ⟨run, hr, hs, -⟩ := hI.attempt.batch.system.knows.running r rfl
        have hactive := Db.isActive_iff.mpr (.inr hs)
        rw [hended.idle r run hr] at hactive
        cases hactive
    | acceptedPublished hp => exact ⟨rfl, r, _, rfl, hp⟩

/-- **A step keeps the execution on course.** -/
theorem onCourse_effect (hI : ProgressInvariant config ⟨db, pc⟩)
    (hsource : Ingestible config columns service dataset)
    (ha : a.Serves columns service dataset db pc)
    (hon : OnCourse config columns service dataset pc)
    (hc : Completable config (rowsUpdatedAtToDate dataset.rowsUpdatedAt) pc.counted? db)
    (hproceeds : Proceeds pc (db', pc'))
    (hfail : ∀ attempt message, pc' ≠ .attemptFailed attempt message)
    (h : Effect config service a db pc db' pc') :
    OnCourse config columns service dataset pc' := by
  have running := hI.attempt.batch.system.knows.running
  have remembers := hI.attempt.batch.system.knows.remembers
  by_cases hstop : ∃ outcome, pc' = .stopped outcome
  · obtain ⟨_, rfl⟩ := hstop
    exact (stops_by_publication hI hon hproceeds h).1
  cases h with
  | stop => exact absurd ⟨_, rfl⟩ hstop
  | startWatermarkFetched _ _ hm => exact MetadataAnswer.ok.inj (hm.symm.trans ha.metadata)
  | startWatermarkFailed hm => cases hm.symm.trans ha.metadata
  | @failureRecovered r _ b hb =>
      exact hc.not_exhausted (running r rfl) (List.mem_of_find?_eq_some hb) (List.find?_some hb)
  | @resumeRejected r run _ _ hw hm he =>
      cases hm.symm.trans ha.metadata
      have hstart := hc.start_eq (running r rfl) remembers
      rw [hw] at hstart
      exact he (Option.some.inj hstart).symm
  | @batchExhausted r b hb hx =>
      exact hc.not_exhausted (running r rfl) (List.mem_of_find?_eq_some hb) hx
  | @budgetExhausted r n b _ _ hb hs hm _ =>
      exact Nat.not_le.mpr (hc.attempts_left (running r rfl) (List.mem_of_find?_eq_some hb) hs) hm
  | @attemptStarted r n b hb _ =>
      have hrecorded := hI.records.batches r b (List.mem_of_find?_eq_some hb)
      exact ⟨⟨hrecorded.bins.2, hrecorded.pageSize⟩, (Nat.zero_mul _).symm⟩
  | attemptInvalid => exact absurd ⟨_, rfl⟩ hstop
  | @pageFetched attempt page hp =>
      obtain ⟨hlimits, hoffset⟩ := hon
      have hpage := Except.ok.inj (hp.symm.trans (ha.page attempt rfl))
      refine ⟨hlimits, hpage, ?_, fun row hrow => ?_⟩
      · rw [hoffset, Nat.succ_mul]
      · rw [hpage] at hrow
        exact mem_dataPage hrow
  | @pageFailed attempt _ _ hp _ => cases hp.symm.trans (ha.page attempt rfl)
  | attemptThrew => exact hfail _ _ rfl
  | rawPersisted => exact hon
  | rowStaged =>
      exact ⟨hon.limits, hon.page, hon.offset, fun row hrow =>
        hon.remaining row (List.mem_cons_of_mem _ hrow)⟩
  | pageLimit hfull hm => exact hfull (hon.not_full hsource hm)
  | nextPage hfull _ => exact ⟨hon.limits, hon.length_of_full hfull⟩
  | pageLimitFailed => exact hon.elim
  | attemptClosed => exact hon.elim
  | outcomeHandedOver => exact hon.elim
  | terminalPublished => exact hon.elim
  | @endWatermarkFetched r run _ _ hr hw hm =>
      cases hm.symm.trans ha.metadata
      have hstart := hc.start_eq (running r rfl) hr
      rw [hw] at hstart
      exact (Option.some.inj hstart).symm
  | endRejected he _ => exact (he hon).elim
  | acceptedPublished => exact absurd ⟨_, rfl⟩ hstop
  | _ => trivial

/-- The update of the batch that is being attempted, or that completes. -/
theorem OpenAttempts.modifyBatch {r₀ : RunId} {n : Nat} {f : IngestionBatch → IngestionBatch}
    {counted' : Option (RunId × Nat)} (h : OpenAttempts config r counted (db.batches r))
    (hf : ∀ b, (f b).batchNumber = b.batchNumber) (hcounted : ∀ x ∈ counted, x = (r₀, n))
    (hnew : counted' = some (r₀, n) ∨ ∀ b, (f b).status = .completed) :
    OpenAttempts config r counted' ((db.modifyBatch r₀ n f).batches r) := by
  have hother : ∀ b ∈ db.batches r, (r, b.batchNumber) ≠ (r₀, n) → b.status ≠ .completed →
      b.attemptCount < config.maxBatchAttemptsPerRun ∨ counted' = some (r, b.batchNumber) :=
    fun b hb hne hs => (h b hb hs).imp_right fun hc => absurd (hcounted _ hc) hne
  intro b hb hs
  by_cases e : r = r₀
  · subst e
    obtain ⟨b₀, hb₀, rfl⟩ := Db.mem_modifyBatch.mp hb
    split at hs
    · rename_i hn
      rw [if_pos hn, hf, hn]
      exact .inr (hnew.resolve_right fun hall => hs (hall b₀))
    · rename_i hn
      rw [if_neg hn]
      exact hother b₀ hb₀ (fun e => hn (Prod.ext_iff.mp e).2) hs
  · simp only [Db.modifyBatch, Function.update_of_ne e] at hb
    exact hother b hb (fun e' => e (Prod.ext_iff.mp e').1) hs

/-- **A step leaves the active run completable.** -/
theorem Completable.effect (hI : ProgressInvariant config ⟨db, pc⟩)
    (ha : a.Serves columns service dataset db pc)
    (hon : OnCourse config columns service dataset pc)
    (hon' : OnCourse config columns service dataset pc')
    (hc : Completable config (rowsUpdatedAtToDate dataset.rowsUpdatedAt) pc.counted? db)
    (h : Effect config service a db pc db' pc') (hpc' : ∀ outcome, pc' ≠ .stopped outcome) :
    Completable config (rowsUpdatedAtToDate dataset.rowsUpdatedAt) pc'.counted? db' where
  watermark r run' hr' hactive := by
    rcases row_before h.write hr' with ⟨-, _, rfl⟩ | ⟨run, hr, hchange⟩
    · exact nofun
    · have hw := hc.watermark r run hr (hchange.active hactive)
      cases hchange with
      | started hpc _ _ _ =>
          subst hpc
          rintro _ ⟨⟩
          exact congrArg rowsUpdatedAtToDate hon
      | _ => exact hw
  attempts r run' hr' hactive := by
    have hbefore : OpenAttempts config r pc.counted? (db.batches r) := by
      rcases row_before h.write hr' with ⟨hnone, -⟩ | ⟨run, hr, hchange⟩
      · exact fun b hb => absurd hnone ((hI.guard.tables.batches r).run b hb)
      · exact hc.attempts r run hr (hchange.active hactive)
    cases h with
    | stop => exact absurd rfl (hpc' _)
    | attemptInvalid => exact absurd rfl (hpc' _)
    | terminalPublished => exact absurd rfl (hpc' _)
    | acceptedPublished => exact absurd rfl (hpc' _)
    | runCreated hc =>
        obtain ⟨-, -, rfl⟩ := Db.createQueued_eq_ok hc
        exact hbefore
    | @snapshotStored r₀ _ _ _ hs =>
        obtain ⟨_, -, -, -, rfl⟩ := Db.initializeRunSnapshotAndBatches_eq_ok hs
        intro b hb _
        by_cases e : r = r₀
        · subst e
          simp only [Function.update_self] at hb
          obtain ⟨n, definition, rfl, -⟩ := Db.mem_pendingBatches hb
          exact .inl config.maxBatchAttemptsPerRun_pos
        · simp only [Function.update_of_ne e] at hb
          exact hbefore b hb ‹_›
    | runStarted hs =>
        obtain ⟨_, -, -, -, -, rfl⟩ := Db.setStartWatermarkAndRunning_eq_ok hs
        exact hbefore
    | budgetExhausted => exact hon'.elim
    | attemptCounted => exact hbefore.modifyBatch (fun _ => rfl) nofun (.inl rfl)
    | attemptStarted =>
        exact hbefore.modifyBatch (fun _ => rfl) (fun _ hx => (Option.some.inj hx).symm) (.inl rfl)
    | @pageFailed attempt _ _ hp _ => cases hp.symm.trans (ha.page attempt rfl)
    | attemptThrew => exact hon'.elim
    | rawPersisted =>
        obtain ⟨raw, hraw⟩ := Db.persistRaw_eq db
        rw [hraw]
        exact hbefore
    | lastPage =>
        exact hbefore.modifyBatch (fun _ => rfl) (fun _ hx => (Option.some.inj hx).symm) (.inl rfl)
    | pageLimit => exact hon'.elim
    | nextPage =>
        exact hbefore.modifyBatch (fun _ => rfl) (fun _ hx => (Option.some.inj hx).symm) (.inl rfl)
    | batchCompleted =>
        exact hbefore.modifyBatch (fun _ => rfl) (fun _ hx => (Option.some.inj hx).symm)
          (.inr fun _ => rfl)
    | pageLimitFailed => exact hon.elim
    | attemptClosed => exact hon.elim
    | endRejected _ hp =>
        rcases hp with rfl | ⟨outcome, rfl⟩
        · exact hon'.elim
        · exact absurd rfl (hpc' _)
    | _ => exact hbefore

end Steps

/-! ### Executions -/

section Executions

variable {s s' : SystemState Row} {triggerType : IngestionTriggerType}

/-- **What holds along an execution** while the source stands. -/
structure Completing (config : ExecutorConfig) (columns : SourceColumns Row)
    (service : EcbRowService Row) (dataset : SourceDataset Row) (s : SystemState Row) : Prop where
  reachable : Reachable config service s
  course : OnCourse config columns service dataset s.executor
  completable : IsExecuting s → Completable config (rowsUpdatedAtToDate dataset.rowsUpdatedAt)
    s.executor.counted? s.db
  idle : ∀ outcome, s.executor = .stopped outcome →
    ∀ r run, s.db.runs.find r = some run → run.isActive = false

theorem ServedTurn.steady (h : ServedTurn config columns service dataset s s') :
    SteadyTurn config service s s' := by
  obtain ⟨t, a, hst, ha, ht⟩ := h
  exact ⟨t, a, hst, ha.steady, ht⟩

theorem Completable.of_identityFrame {db db' : Db Row} {w : Time} {counted : Option (RunId × Nat)}
    (h : Completable config w counted db) (hf : IdentityFrame db db') :
    Completable config w counted db' := by
  obtain ⟨_, _, _, rfl⟩ := hf
  exact ⟨h.watermark, h.attempts⟩

/-- Transactions on properties keep it completing. -/
theorem Completing.onProperty (hI : Completing config columns service dataset s)
    (hin : IsExecuting s) (h : Steps (next config service) (fun _ ev => ev.OnProperty) s s') :
    Completing config columns service dataset s' ∧ IsExecuting s' := by
  obtain ⟨hexec, hframe⟩ := identityFrame_onProperty h
  have hin' : IsExecuting s' := fun outcome => by
    rw [hexec]
    exact hin outcome
  refine ⟨⟨hI.reachable.trans (h.mono fun _ _ _ => trivial), ?_, fun _ => ?_, fun outcome hout =>
    absurd hout (hin' outcome)⟩, hin'⟩
  · rw [hexec]
    exact hI.course
  · rw [hexec]
    exact (hI.completable hin).of_identityFrame hframe

/-- **A step that is served keeps the execution completing**, and the last one is the publication of
its run. -/
theorem Completing.step {a : Answer Row} (hsource : Ingestible config columns service dataset)
    (hI : Completing config columns service dataset s) (hin : IsExecuting s)
    (ha : a.Serves columns service dataset s.db s.executor)
    (h : next config service s (.executor a) = some s') :
    Completing config columns service dataset s' ∧
      ∀ outcome, s'.executor = .stopped outcome → ∃ r published,
        s.executor = .readyForPublication r ∧ IsRunning s.db r ∧
          s.db.publish a.publication r = (s'.db, .ok published) ∧
            CompletedAt s'.db r (rowsUpdatedAtToDate dataset.rowsUpdatedAt) := by
  have hprogress := progressInvariant_of_reachable hI.reachable
  have hc := hI.completable hin
  obtain ⟨⟨db', pc'⟩, hstep, rfl⟩ := Option.map_eq_some_iff.mp h
  have hproceeds := executorStep_proceeds hprogress ha.steady hstep
  have heffect := executorStep_effect hstep
  have hcourse := onCourse_effect hprogress hsource ha hI.course hc hproceeds
    (not_attemptFailed hsource ha hI.course hstep) heffect
  refine ⟨⟨hI.reachable.next h, hcourse, fun hin' =>
    .effect hprogress ha hI.course hcourse hc heffect hin',
    fun outcome hout => ?_⟩, ?_⟩
  · obtain ⟨_, -, hended, -⟩ := hproceeds outcome hout
    exact hended.idle
  rintro outcome rfl
  obtain ⟨-, r, published, hpc, hp⟩ := stops_by_publication hprogress hI.course hproceeds heffect
  have hrunning := hprogress.attempt.batch.system.knows.running r (by rw [hpc]; rfl)
  exact ⟨r, published, hpc, hrunning, hp, completedAt_of_publish hc hrunning hp⟩

theorem completing_turn (hsource : Ingestible config columns service dataset)
    (hI : Completing config columns service dataset s) (hin : IsExecuting s)
    (h : ServedTurn config columns service dataset s s') :
    Completing config columns service dataset s' := by
  obtain ⟨t, a, hst, ha, ht⟩ := h
  obtain ⟨hIt, hint⟩ := hI.onProperty hin hst
  exact (hIt.step hsource hint ha ht).1

/-- An execution that has just taken the lock, and whose active run can be completed. -/
theorem completing_started (hr : Reachable config service s)
    (hstart : s.executor = .started triggerType)
    (hc : Completable config (rowsUpdatedAtToDate dataset.rowsUpdatedAt) none s.db) :
    Completing config columns service dataset s where
  reachable := hr
  course := by rw [hstart]; trivial
  completable _ := by rw [hstart]; exact hc
  idle outcome h := by rw [hstart] at h; cases h

/-- An execution that is served comes to its end, with whatever its steps keep. -/
theorem served_execution_ends (hsource : Ingestible config columns service dataset)
    {trace : Nat → SystemState Row} {J : SystemState Row → Prop}
    (hJ : ∀ {s s'}, Completing config columns service dataset s → IsExecuting s → J s →
      ServedTurn config columns service dataset s s' → J s')
    (hI₀ : Completing config columns service dataset (trace 0)) (hJ₀ : J (trace 0))
    (htrace : ∀ n, IsExecuting (trace n) →
      ServedTurn config columns service dataset (trace n) (trace (n + 1))) :
    ∃ n, Completing config columns service dataset (trace n) ∧ J (trace n) ∧
      ∃ outcome, (trace n).executor = .stopped outcome := by
  obtain ⟨n, ⟨hI, hjn⟩, hout⟩ := exits_of_rank wellFounded_lt IsExecuting
    (I := fun s => Completing config columns service dataset s ∧ J s) (executionRank config)
    (fun hI hin ht => ⟨⟨completing_turn hsource hI.1 hin ht, hJ hI.1 hin hI.2 ht⟩,
      executionRank_turn hI.1.reachable hin ht.steady⟩)
    ⟨hI₀, hJ₀⟩ htrace
  simp only [IsExecuting, not_forall, not_not] at hout
  exact ⟨n, hI, hjn, hout⟩

/-- A turn that is served ends, if it does, with the run of the execution COMPLETED. -/
theorem Completing.worksOn_turn {db₀ : Db Row}
    (hsource : Ingestible config columns service dataset)
    (hI : Completing config columns service dataset s) (hin : IsExecuting s)
    (hw : WorksSince db₀ s) (h : ServedTurn config columns service dataset s s') :
    ∀ outcome, s'.executor = .stopped outcome → ∃ r, WorksOn db₀ s'.db r ∧
      CompletedAt s'.db r (rowsUpdatedAtToDate dataset.rowsUpdatedAt) := by
  intro outcome hout
  obtain ⟨t, a, hst, ha, ht⟩ := h
  obtain ⟨hIt, hint⟩ := hI.onProperty hin hst
  obtain ⟨r, _, hpc, -, -, hcompleted⟩ := (hIt.step hsource hint ha ht).2 outcome hout
  have hr : t.executor.run? = some r := by rw [hpc]; rfl
  exact ⟨r, ((hw.onProperty hst).run r hr).next ht hr, hcompleted⟩

/-- **An execution over a source that stands completes its run.**  From every reachable state in which
an execution has just taken the lock, and whose active run, if a crashed execution has left one, is
under the watermark of the source and has attempts left, the execution ends with that run, or with the
one it has created, COMPLETED at that watermark; every other run is as it was, and no run is active.  The
source can be ingested and, from then on, no request and no statement fails, no lock is lost and no
process crashes. -/
theorem execution_completes (hsource : Ingestible config columns service dataset)
    (hr : Reachable config service s) (hstart : s.executor = .started triggerType)
    (hc : Completable config (rowsUpdatedAtToDate dataset.rowsUpdatedAt) none s.db)
    {trace : Nat → SystemState Row} (h₀ : trace 0 = s)
    (htrace : ∀ n, IsExecuting (trace n) →
      ServedTurn config columns service dataset (trace n) (trace (n + 1))) :
    ∃ n r, (trace n).executor = .stopped .completed ∧ WorksOn s.db (trace n).db r ∧
      CompletedAt (trace n).db r (rowsUpdatedAtToDate dataset.rowsUpdatedAt) ∧
      ∀ r run, (trace n).db.runs.find r = some run → run.isActive = false := by
  obtain ⟨n, hI, ⟨-, hcompleted⟩, outcome, hout⟩ := served_execution_ends hsource
    (J := fun t => (IsExecuting t → WorksSince s.db t) ∧
      ∀ outcome, t.executor = .stopped outcome → ∃ r, WorksOn s.db t.db r ∧
        CompletedAt t.db r (rowsUpdatedAtToDate dataset.rowsUpdatedAt))
    (fun hI hin hJ ht => ⟨(worksSince_turn hI.reachable (hJ.1 hin) ht.steady).1,
      hI.worksOn_turn hsource hin (hJ.1 hin) ht⟩)
    (h₀ ▸ completing_started hr hstart hc)
    (by
      rw [h₀]
      refine ⟨fun _ => .refl (progressInvariant_of_reachable hr), fun outcome hout => ?_⟩
      rw [hstart] at hout
      cases hout) htrace
  have hcourse := hI.course
  rw [hout] at hcourse
  cases hcourse
  obtain ⟨r, hworks, hcompleted⟩ := hcompleted _ hout
  exact ⟨n, r, hout, hworks, hcompleted, hI.idle _ hout⟩

/-- The answer of a source that stands. -/
def servedAnswer (columns : SourceColumns Row) (service : EcbRowService Row)
    (dataset : SourceDataset Row) (s : SystemState Row) : Answer Row :=
  quietAnswer (s.db.runs.keys.sum + 1) dataset.rowsUpdatedAt <|
    match s.executor.pageRequest? with
    | some attempt => dataPage columns service dataset.rows attempt.definition.bins attempt.offset
        attempt.definition.pageSize
    | none => []

theorem servedAnswer_serves (s : SystemState Row) :
    (servedAnswer columns service dataset s).Serves columns service dataset s.db s.executor where
  quiet := quietAnswer_quiet
  metadata := rfl
  page attempt hattempt := by
    rw [Option.mem_def] at hattempt
    simp only [servedAnswer, quietAnswer, hattempt]
  fresh := (steadyAnswer_steady s.db).fresh

/-- The steps of an execution that meets these answers. -/
def servedTrace (config : ExecutorConfig) (columns : SourceColumns Row) (service : EcbRowService Row)
    (dataset : SourceDataset Row) (s : SystemState Row) : Nat → SystemState Row
  | 0 => s
  | n + 1 =>
    let t := servedTrace config columns service dataset s n
    (next config service t (.executor (servedAnswer columns service dataset t))).getD t

theorem servedTrace_turn (s : SystemState Row) (n : Nat)
    (hin : IsExecuting (servedTrace config columns service dataset s n)) :
    ServedTurn config columns service dataset (servedTrace config columns service dataset s n)
      (servedTrace config columns service dataset s (n + 1)) := by
  obtain ⟨s', hs⟩ := hin.next config service
    (servedAnswer columns service dataset (servedTrace config columns service dataset s n))
  refine ⟨_, _, .refl, servedAnswer_serves _, ?_⟩
  rw [servedTrace, hs, Option.getD_some]

end Executions

/-- A source of one row. -/
def singleSource : SourceDataset NormalizedEcbViolation := ⟨[sampleViolation], 7⟩

theorem singleSource_ingestible :
    Ingestible smallConfig plainColumns plainService singleSource where
  identifies row _ := ⟨_, rfl⟩
  normalizes row _ h := nomatch h
  fits bins _ := by
    have hle : (matchingRows plainColumns plainService singleSource.rows bins).length ≤ 1 := by
      rw [matchingRows, List.length_insertionSort]
      exact List.length_filter_le _ _
    exact Nat.lt_of_le_of_lt hle (by decide)

/-- A run that crashes in its first attempt, and the execution that takes the lock next. -/
def crashedAttemptRun : List (Event NormalizedEcbViolation) :=
  [createSample 0 "1000010001" "1000001", .acquireLock .manual] ++
    List.replicate 12 (.executor (quietAnswer 0 7 [sampleViolation])) ++
    [.crash, .acquireLock .scheduled]

theorem execution_completes_crashedAttemptRun : ∃ s,
    Library.run (next smallConfig plainService) .initial crashedAttemptRun = some s ∧
    (s.db.batches 0).map (fun b => (b.status, b.attemptCount)) = [(.running, 1)] ∧
    ∃ n r, (servedTrace smallConfig plainColumns plainService singleSource s n).executor =
        .stopped .completed ∧
      WorksOn s.db (servedTrace smallConfig plainColumns plainService singleSource s n).db r ∧
      CompletedAt (servedTrace smallConfig plainColumns plainService singleSource s n).db r
        (rowsUpdatedAtToDate 7) := by
  have hs : ((Library.run (next smallConfig plainService) .initial crashedAttemptRun).map fun s =>
      ((s.db.batches 0).map (fun b => (b.status, b.attemptCount)),
        decide (Completable smallConfig (rowsUpdatedAtToDate 7) none s.db),
        match s.executor with | .started .scheduled => true | _ => false)) =
      some ([(.running, 1)], true, true) := by decide +kernel
  obtain ⟨s, hrun, hs⟩ := Option.map_eq_some_iff.mp hs
  simp only [Prod.mk.injEq, decide_eq_true_eq] at hs
  obtain ⟨hbatches, hc, hstart⟩ := hs
  have hr : Reachable smallConfig plainService s := run_steps (runOk_trivial _ _) hrun
  have hstart : s.executor = .started .scheduled := by
    split at hstart
    · assumption
    · cases hstart
  obtain ⟨n, r, hout, hworks, hcompleted, -⟩ := execution_completes singleSource_ingestible hr
    hstart hc rfl fun n => servedTrace_turn s n
  exact ⟨s, hrun, hbatches, n, r, hout, hworks, hcompleted⟩

end NycPropertyResolver
