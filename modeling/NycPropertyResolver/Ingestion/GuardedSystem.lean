import NycPropertyResolver.Ingestion.BatchOrder
import NycPropertyResolver.Ingestion.SentStatements

/-!
# Ingestion — the system behind the table guards

The system refines the guarded tables: the statements of every event, in the order of the source, are
accepted by the constraints and the triggers, and leave the tables the event leaves (`next_guarded`).
The conditional updates, the checks of the publications and the rows an execution holds in memory
(`RowsInHand`) carry the proof; no statement of the program relies on a guard to stop it.
-/

namespace NycPropertyResolver

open Library

variable {Row : Type} {config : ExecutorConfig} {service : EcbRowService Row}

/-- The statements the program sends: it deletes no run and no property, and moves no snapshot row. -/
def GuardedStatement.OfProgram : GuardedStatement → Prop
  | .deleteProperty _ | .deleteRun _ | .updateSnapshotRow _ _ _ _ => False
  | _ => True

/-- The statements are the program's, and the tables accept them in this order. -/
def Accepts (t : GuardedTables) (sts : List GuardedStatement) (t' : GuardedTables) : Prop :=
  (∀ st ∈ sts, st.OfProgram) ∧ run GuardedTables.exec t sts = some t'

namespace Accepts

variable {t t' t'' : GuardedTables} {st : GuardedStatement} {sts sts' : List GuardedStatement}

theorem nil (t : GuardedTables) : Accepts t [] t := ⟨fun _ h => absurd h List.not_mem_nil, rfl⟩

theorem cons (hst : st.OfProgram) (h : t.exec st = some t') (h' : Accepts t' sts t'') :
    Accepts t (st :: sts) t'' := by
  refine ⟨fun st' hst' => ?_, ?_⟩
  · rcases List.mem_cons.mp hst' with rfl | hst'
    · exact hst
    · exact h'.1 st' hst'
  · rw [run, h, Option.bind_some]
    exact h'.2

theorem one (hst : st.OfProgram) (h : t.exec st = some t') : Accepts t [st] t' :=
  cons hst h (nil t')

theorem append (h : Accepts t sts t') (h' : Accepts t' sts' t'') : Accepts t (sts ++ sts') t'' := by
  refine ⟨fun st hst => ?_, ?_⟩
  · rcases List.mem_append.mp hst with hst | hst
    · exact h.1 st hst
    · exact h'.1 st hst
  · rw [run_append, h.2, Option.bind_some]
    exact h'.2

theorem tablesHold (h : Accepts t sts t') (hI : TablesHold t) : TablesHold t' :=
  run_invariant (fun _ _ _ _ hI hs => tablesHold_written hI (GuardedTables.exec_written hs)) hI h.2

end Accepts

/-! ### Rows of a run -/

section Rows

variable {t : GuardedTables} {r : RunId}

/-- An update of a run that passes the triggers and the checks. -/
theorem exec_updateRun {run run' : IngestionRun} (hI : TablesHold t)
    (hr : t.runs.find r = some run)
    (hw : ∀ w, run.sourceWatermarkAtStart = some w → run'.sourceWatermarkAtStart = some w)
    (hi : run.initializationComplete = true → run'.initializationComplete = true)
    (hc : RunChecks run') (ha : run'.isActive = true → run.isActive = true) :
    t.exec (.updateRun r run') = some { t with runs := t.runs.modify r fun _ => run' } := by
  have hwatermark : enforceIngestionRunWatermarkImmutability run run' = true := by
    cases hstart : run.sourceWatermarkAtStart with
    | none => simp [enforceIngestionRunWatermarkImmutability, hstart]
    | some w => simp [enforceIngestionRunWatermarkImmutability, hstart, hw w hstart]
  have hinit : enforceIngestionInitializationMonotonicity run run' = true := by
    cases h : run.initializationComplete with
    | false => simp [enforceIngestionInitializationMonotonicity, h]
    | true => simp [enforceIngestionInitializationMonotonicity, hi h]
  have hone : t.OneActiveWith r run' := by
    intro hactive other hother
    by_cases e : other.1 = r
    · exact .inl e
    · refine .inr (Bool.eq_false_iff.mpr fun hother' => e ?_)
      exact hI.oneActive _ _ _ _ (Table.mem_rows.mp hother) hr hother' (ha hactive)
  simp only [GuardedTables.exec, hr]
  exact if_pos ⟨hwatermark, hinit, hc, hone⟩

/-- The snapshot rows of a run that is not sealed, deleted one after the other. -/
theorem accepts_deleteRows (hs : t.isSealed r = false) :
    Accepts t ((t.snapshot r).map (.deleteSnapshotRow r))
      { t with snapshot := Function.update t.snapshot r [] } := by
  generalize hrows : t.snapshot r = rows
  induction rows generalizing t with
  | nil =>
      have hsame : Function.update t.snapshot r [] = t.snapshot := by
        rw [← hrows, Function.update_eq_self]
      rw [hsame]
      exact .nil t
  | cons row rest ih =>
      have hstep : t.exec (.deleteSnapshotRow r row) =
          some { t with snapshot := Function.update t.snapshot r rest } := by
        simp [GuardedTables.exec, GuardedTables.enforceIngestionSnapshotImmutability, hs, hrows]
      refine .cons trivial hstep ?_
      have hrest := ih (t := { t with snapshot := Function.update t.snapshot r rest }) hs
        (Function.update_self ..)
      simpa only [Function.update_idem] using hrest

/-- And its batches. -/
theorem accepts_deleteBatches (hs : t.isSealed r = false)
    (hk : ((t.batches r).map (·.batchNumber)).Nodup) :
    Accepts t ((t.batches r).map fun b => .deleteBatch r b.batchNumber)
      { t with batches := Function.update t.batches r [] } := by
  generalize hbatches : t.batches r = batches at hk
  induction batches generalizing t with
  | nil =>
      have hsame : Function.update t.batches r [] = t.batches := by
        rw [← hbatches, Function.update_eq_self]
      rw [hsame]
      exact .nil t
  | cons b rest ih =>
      obtain ⟨hb, hrest⟩ := List.nodup_cons.mp hk
      have hfilter : (t.batches r).filter (fun c => c.batchNumber ≠ b.batchNumber) = rest := by
        rw [hbatches, List.filter_cons_of_neg (by simp), List.filter_eq_self]
        intro c hc
        simp only [decide_eq_true_eq]
        exact fun e => hb (List.mem_map.mpr ⟨c, hc, e⟩)
      have hstep : t.exec (.deleteBatch r b.batchNumber) =
          some { t with batches := Function.update t.batches r rest } := by
        have hfind : (t.batches r).find? (fun c => c.batchNumber = b.batchNumber) = some b := by
          rw [hbatches]
          simp
        simp only [GuardedTables.exec, hfind, hfilter,
          GuardedTables.enforceIngestionBatchDefinitionImmutability, hs, Bool.not_false, if_true]
      refine .cons trivial hstep ?_
      have h := ih (t := { t with batches := Function.update t.batches r rest }) hs
        (Function.update_self ..) hrest
      simpa only [Function.update_idem] using h

/-- Rows inserted into the snapshot of a run that is not sealed. -/
theorem accepts_insertRows (hs : t.isSealed r = false) (hr : t.runs.find r ≠ none) :
    ∀ {rows : List IngestionRunPropertyBin},
      (∀ row ∈ rows, t.properties row.propertyId = true ∧ 0 < row.propertyIdentifierVersion) →
      ((t.snapshot r ++ rows).map (·.key)).Nodup →
      Accepts t (rows.map (.insertSnapshotRow r))
        { t with snapshot := Function.update t.snapshot r (t.snapshot r ++ rows) } := by
  intro rows
  induction rows generalizing t with
  | nil =>
      intro _ _
      rw [List.append_nil, Function.update_eq_self]
      exact .nil t
  | cons row rest ih =>
      intro hrows hk
      obtain ⟨hp, hv⟩ := hrows row List.mem_cons_self
      have hkey : row.key ∉ (t.snapshot r).map (·.key) := by
        intro hmem
        rw [List.map_append, List.nodup_append'] at hk
        exact hk.2.2 hmem (by simp)
      have hstep : t.exec (.insertSnapshotRow r row) =
          some { t with snapshot := Function.update t.snapshot r (t.snapshot r ++ [row]) } := by
        simp only [GuardedTables.exec, GuardedTables.enforceIngestionSnapshotImmutability, hs,
          Bool.not_false, true_and]
        exact if_pos ⟨hr, hp, hv, hkey⟩
      refine .cons trivial hstep ?_
      have h := ih (t := { t with
          snapshot := Function.update t.snapshot r (t.snapshot r ++ [row]) }) hs hr
        (fun row' hrow' => hrows row' (List.mem_cons_of_mem _ hrow'))
        (by simpa only [Function.update_self, List.append_assoc, List.singleton_append] using hk)
      simpa only [Function.update_self, Function.update_idem, List.append_assoc,
        List.singleton_append] using h

/-- Batches inserted for a run that is not sealed. -/
theorem accepts_insertBatches (hs : t.isSealed r = false) (hr : t.runs.find r ≠ none) :
    ∀ {batches : List IngestionBatch}, (∀ b ∈ batches, 0 < b.batchNumber) →
      ((t.batches r ++ batches).map (·.batchNumber)).Nodup →
      Accepts t (batches.map (.insertBatch r))
        { t with batches := Function.update t.batches r (t.batches r ++ batches) } := by
  intro batches
  induction batches generalizing t with
  | nil =>
      intro _ _
      rw [List.append_nil, Function.update_eq_self]
      exact .nil t
  | cons b rest ih =>
      intro hnumbers hk
      have hkey : b.batchNumber ∉ (t.batches r).map (·.batchNumber) := by
        intro hmem
        rw [List.map_append, List.nodup_append'] at hk
        exact hk.2.2 hmem (by simp)
      have hstep : t.exec (.insertBatch r b) =
          some { t with batches := Function.update t.batches r (t.batches r ++ [b]) } := by
        simp only [GuardedTables.exec, GuardedTables.enforceIngestionBatchDefinitionImmutability, hs,
          Bool.not_false, true_and]
        exact if_pos ⟨hr, hnumbers b List.mem_cons_self, hkey⟩
      refine .cons trivial hstep ?_
      have h := ih (t := { t with
          batches := Function.update t.batches r (t.batches r ++ [b]) }) hs hr
        (fun b' hb' => hnumbers b' (List.mem_cons_of_mem _ hb'))
        (by simpa only [Function.update_self, List.append_assoc, List.singleton_append] using hk)
      simpa only [Function.update_self, Function.update_idem, List.append_assoc,
        List.singleton_append] using h

/-- All the rows and batches of a run that is not sealed, replaced. -/
theorem accepts_replaceRows {rows : List IngestionRunPropertyBin} {batches : List IngestionBatch}
    (hI : TablesHold t) (hs : t.isSealed r = false) (hr : t.runs.find r ≠ none)
    (hrows : ∀ row ∈ rows, t.properties row.propertyId = true ∧ 0 < row.propertyIdentifierVersion)
    (hkeys : (rows.map (·.key)).Nodup) (hnumbers : ∀ b ∈ batches, 0 < b.batchNumber)
    (hdistinct : (batches.map (·.batchNumber)).Nodup) :
    Accepts t ((t.snapshot r).map (.deleteSnapshotRow r) ++
        (t.batches r).map (fun b => .deleteBatch r b.batchNumber) ++
        rows.map (.insertSnapshotRow r) ++ batches.map (.insertBatch r))
      { t with
        snapshot := Function.update t.snapshot r rows
        batches := Function.update t.batches r batches } := by
  have h₁ := accepts_deleteRows hs
  have h₂ : Accepts { t with snapshot := Function.update t.snapshot r [] }
      ((t.batches r).map fun b => .deleteBatch r b.batchNumber) { t with
        snapshot := Function.update t.snapshot r []
        batches := Function.update t.batches r [] } :=
    accepts_deleteBatches (t := { t with snapshot := Function.update t.snapshot r [] }) hs
      (hI.batches r).key
  have h₃ : Accepts { t with
      snapshot := Function.update t.snapshot r []
      batches := Function.update t.batches r [] } (rows.map (.insertSnapshotRow r)) { t with
      snapshot := Function.update t.snapshot r rows
      batches := Function.update t.batches r [] } := by
    have h := accepts_insertRows (t := { t with
      snapshot := Function.update t.snapshot r []
      batches := Function.update t.batches r [] }) hs hr hrows
      (by simpa only [Function.update_self, List.nil_append] using hkeys)
    simpa only [Function.update_self, Function.update_idem, List.nil_append] using h
  have h₄ : Accepts { t with
      snapshot := Function.update t.snapshot r rows
      batches := Function.update t.batches r [] } (batches.map (.insertBatch r)) { t with
      snapshot := Function.update t.snapshot r rows
      batches := Function.update t.batches r batches } := by
    have h := accepts_insertBatches (t := { t with
      snapshot := Function.update t.snapshot r rows
      batches := Function.update t.batches r [] }) hs hr hnumbers
      (by simpa only [Function.update_self, List.nil_append] using hdistinct)
    simpa only [Function.update_self, Function.update_idem, List.nil_append] using h
  exact ((h₁.append h₂).append h₃).append h₄

end Rows

theorem pendingBatches_number (definitions : List IngestionBatchDefinition) :
    ∀ b ∈ pendingBatches definitions, 0 < b.batchNumber := by
  intro b hb
  obtain ⟨i, _, rfl⟩ := List.mem_mapIdx.mp hb
  exact Nat.succ_pos i

/-! ### Rows in hand -/

/-- The snapshot an execution holds in memory: the relationships are distinct, and each row names a
property that exists, at a version it has had. -/
def RowsInHand (db : Db Row) : ExecutorState Row → Prop
  | .snapshotBinsLoaded _ relationships => relationships.Nodup
  | .snapshotLoaded _ rows => (rows.map (·.key)).Nodup ∧
      ∀ row ∈ rows, db.properties.find row.propertyId ≠ none ∧ 0 < row.propertyIdentifierVersion
  | _ => True

section InHand

variable {db db' : Db Row} {pc pc' : ExecutorState Row} {a : Answer Row}

/-- `property_bins` has a relationship once. -/
theorem nodup_selectPropertyBins (db : Db Row) : db.selectPropertyBins.Nodup := by
  rw [Db.selectPropertyBins, (List.perm_insertionSort _ _).nodup_iff, List.nodup_flatMap]
  refine ⟨fun p _ => (db.propertyBins p).nodup.map fun b b' e => congrArg Prod.fst e, ?_⟩
  refine db.properties.nodup.imp fun hne => ?_
  intro relationship hp hq
  obtain ⟨_, _, rfl⟩ := List.mem_map.mp hp
  obtain ⟨_, _, e⟩ := List.mem_map.mp hq
  exact hne (congrArg Prod.snd e).symm

/-- The rows of the snapshot have the keys of the relationships read. -/
theorem includeProperties_keys : ∀ {relationships : List (CanonicalBin × PropertyId)}
    {rows : List IngestionRunPropertyBin}, db.includeProperties relationships = some rows →
      rows.map (·.key) = relationships.map Prod.swap
  | [], rows, h => by cases h; rfl
  | relationship :: relationships, rows, h => by
      simp only [Db.includeProperties, Option.bind_eq_bind, Option.bind_eq_some_iff] at h
      obtain ⟨row, hrow, rest, hrest, e⟩ := h
      cases e
      obtain ⟨property, -, rfl⟩ := Option.map_eq_some_iff.mp hrow
      rw [List.map_cons, List.map_cons, includeProperties_keys hrest]
      rfl

/-- No property is lost. -/
theorem RowsInHand.mono (h : RowsInHand db pc)
    (hp : ∀ p, db.properties.find p ≠ none → db'.properties.find p ≠ none) : RowsInHand db' pc := by
  cases pc with
  | snapshotLoaded _ rows =>
      exact ⟨h.1, fun row hrow => ⟨hp _ (h.2 row hrow).1, (h.2 row hrow).2⟩⟩
  | snapshotBinsLoaded _ _ => exact h
  | _ => trivial

/-- **A step reads rows that hold.** -/
theorem rowsInHand_effect (hv : ∀ p property, db.properties.find p = some property →
      0 < property.identifierVersion) (h : RowsInHand db pc)
    (he : Effect config service a db pc db' pc') : RowsInHand db' pc' := by
  cases he with
  | binsLoaded => exact nodup_selectPropertyBins db
  | versionsLoaded hrows =>
      refine ⟨?_, fun row hrow => ?_⟩
      · rw [includeProperties_keys hrows]
        exact h.map Prod.swap_injective
      · obtain ⟨-, hversion⟩ := (Db.mem_includeProperties hrows).mp hrow
        obtain ⟨property, hp, e⟩ := Option.map_eq_some_iff.mp hversion
        exact ⟨by simp [hp], e ▸ hv _ property hp⟩
  | endRejected _ hp =>
      rcases hp with rfl | ⟨outcome, rfl⟩
      · trivial
      · trivial
  | _ => trivial

end InHand

/-! ### One write -/

section Writes

variable {a : Answer Row} {db db' : Db Row} {pc : ExecutorState Row} {r : RunId}
  {run run' : IngestionRun}

/-- The checks hold of a run after every change a write makes of it. -/
theorem RowChange.checks (h : RowChange a db pc r db' run run') (hc : RunChecks run) :
    RunChecks run' := by
  obtain ⟨hstate, hqueued, hwatermark⟩ := hc
  cases h with
  | same => exact ⟨hstate, hqueued, hwatermark⟩
  | initialized _ hi =>
      exact ⟨hstate.imp_right fun hs => ⟨rfl, hs.2⟩, hqueued, .inr rfl⟩
  | started _ _ hi => exact ⟨.inr ⟨hi, by simp⟩, by simp, .inr hi⟩
  | ended => exact ⟨hstate, hqueued, hwatermark⟩
  | @failed request _ hmove hs hc =>
      refine ⟨?_, ?_, hwatermark⟩
      · simp only [Db.terminalRun, List.mem_cons, List.not_mem_nil, or_false, not_or]
        cases hrequest : request.status with
        | sourceChanged =>
            -- only a RUNNING run becomes SOURCE_CHANGED
            rw [hrequest] at hmove
            generalize hstatus : run.status = status at hmove
            cases hmove
            right
            refine hstate.resolve_left ?_
            simp [hstatus]
        | running => exact absurd hrequest hs
        | completed => exact absurd hrequest hc
        | queued => simp
        | failed => simp
      · rintro ⟨hq, -⟩
        simp only [Db.terminalRun] at hq
        exact not_canBecome_queued (hq ▸ hmove)
  | accepted _ _ hp =>
      exact ⟨.inr ⟨hp.initialized, hp.watermark⟩, by simp [Db.acceptedRun], .inr hp.initialized⟩

/-- No write makes a run active again. -/
theorem RowChange.active (h : RowChange a db pc r db' run run') (ha : run'.isActive = true) :
    run.isActive = true := by
  have hmove := h.status
  rcases hmove with e | hmove
  · rw [Db.isActive_iff] at ha ⊢
    rwa [e] at ha
  · exact Db.isActive_iff.mpr hmove.active

/-- A write to the row of a run, beside any other tables that hold. -/
theorem accepts_updateRun (h : Write config a db pc db') {t : GuardedTables} (hI : TablesHold t)
    (ht : t.runs = db.runs) {f : IngestionRun → IngestionRun} (hr : db.runs.find r = some run)
    (hruns : db'.runs = db.runs.modify r f) :
    Accepts t (db.updateRunStatements r f) { t with runs := db'.runs } := by
  obtain ⟨run', hr', hchange⟩ := row_write h hr
  have hf : f run = run' := by
    rw [hruns, Table.find_modify_self, hr] at hr'
    exact Option.some.inj hr'
  have hexec := exec_updateRun hI (ht ▸ hr) (fun _ => hchange.start) hchange.initializationComplete
    (hchange.checks (hI.checks r run (ht ▸ hr))) hchange.active
  have hmodify : t.runs.modify r (fun _ => run') = db'.runs := by
    rw [hruns, ht]
    refine Table.modify_congr fun other hother => ?_
    cases hr.symm.trans hother
    exact hf.symm
  rw [hmodify] at hexec
  have hstatements : db.updateRunStatements r f = [.updateRun r run'] := by
    rw [Db.updateRunStatements, hr, Option.map_some, hf]
    rfl
  rw [hstatements]
  refine .one ?_ hexec
  trivial

/-- A write to a batch. -/
theorem accepts_updateBatch {n : Nat} {f : IngestionBatch → IngestionBatch}
    (hI : TablesHold db.guarded) (hf : KeepsDefinition f) :
    Accepts db.guarded (db.updateBatchStatements r n f) (db.modifyBatch r n f).guarded := by
  rw [Db.updateBatchStatements, Db.findBatch]
  cases hfind : (db.batches r).find? fun b => b.batchNumber = n with
  | none =>
      -- no such batch: no row is written, and no statement is sent for one
      have hsame : (db.batches r).map (fun b => if b.batchNumber = n then f b else b) =
          db.batches r := by
        refine (List.map_congr_left fun b hb => if_neg ?_).trans (List.map_id _)
        simpa using List.find?_eq_none.mp hfind b hb
      simp only [Db.guarded, Db.modifyBatch, hsame, Function.update_eq_self]
      exact .nil _
  | some b =>
      -- the number is a key, so this row is the only one
      have hbn : b.batchNumber = n := by simpa using List.find?_some hfind
      have hrows : (db.batches r).map (fun c => if c.batchNumber = n then f b else c) =
          (db.batches r).map fun c => if c.batchNumber = n then f c else c := by
        refine List.map_congr_left fun c hc => ?_
        by_cases hcn : c.batchNumber = n
        · have hbc : c = b := List.inj_on_of_nodup_map (hI.batches r).key hc
            (List.mem_of_find?_eq_some hfind) (hcn.trans hbn.symm)
          rw [hbc]
        · rw [if_neg hcn, if_neg hcn]
      have hexec : db.guarded.exec (.updateBatch r n r (f b)) =
          some (db.modifyBatch r n f).guarded := by
        simp [GuardedTables.exec, GuardedTables.enforceIngestionBatchDefinitionImmutability,
          Db.guarded, Db.modifyBatch, hfind, (hf b).1, (hf b).2, hrows]
      refine .one ?_ hexec
      trivial

/-- `markFailed`, with an error that is not blank. -/
theorem accepts_markFailed {n : Nat} {lastError : String} (hI : TablesHold db.guarded)
    (h : db.markFailed r n lastError = .ok db') :
    Accepts db.guarded (db.markFailedStatements r n lastError) db'.guarded := by
  obtain ⟨hblank, rfl⟩ := Db.markFailed_eq_ok h
  rw [Db.markFailedStatements, hblank]
  exact accepts_updateBatch hI fun _ => ⟨rfl, rfl⟩

/-- And with one that is. -/
theorem markFailedStatements_error {n : Nat} {lastError : String} {e : ServiceError}
    (h : db.markFailed r n lastError = .error e) : db.markFailedStatements r n lastError = [] := by
  rw [Db.markFailed] at h
  rw [Db.markFailedStatements]
  cases hblank : isBlank lastError with
  | true => rfl
  | false =>
      rw [hblank] at h
      cases h

/-- The snapshot and the batches of a former attempt are deleted and the new ones inserted, and then
the run is sealed. -/
theorem accepts_initialization {rows : List IngestionRunPropertyBin} (hI : TablesHold db.guarded)
    (hrows : RowsInHand db pc) (hpc : pc = .snapshotLoaded r rows)
    (h : db.initializeRunSnapshotAndBatches r rows config.ecbBatchSize config.socrataPageSize =
      .ok (db', run)) (hwrite : Write config a db pc db') :
    Accepts db.guarded
      (db.initializationStatements r rows config.ecbBatchSize config.socrataPageSize) db'.guarded := by
  obtain ⟨run₀, hr, hi, hrun, rfl⟩ := Db.initializeRunSnapshotAndBatches_eq_ok h
  rw [hpc] at hrows
  -- the triggers let the rows of a run change as long as it is not initialized
  have hopen : db.guarded.isSealed r = false := by
    simp [GuardedTables.isSealed, Db.guarded, hr, hi]
  let definitions := buildBatchDefinitions (Db.distinctBins rows).toList config.ecbBatchSize
    config.socrataPageSize
  have hreplaced := accepts_replaceRows hI hopen (by simp [Db.guarded, hr])
    (fun row hrow => ⟨Option.isSome_iff_ne_none.mpr (hrows.2 row hrow).1, (hrows.2 row hrow).2⟩)
    hrows.1 (pendingBatches_number definitions) (batchOrder_pendingBatches definitions).nodup
  refine hreplaced.append (accepts_updateRun hwrite (hreplaced.tablesHold hI) rfl hr ?_)
  refine Table.modify_congr fun other hother => ?_
  cases hr.symm.trans hother
  exact hrun

end Writes

/-! ### One step -/

section Steps

variable {a : Answer Row} {db db' : Db Row} {pc' : ExecutorState Row} {r : RunId}

theorem createQueuedRun_accepts {triggerType : IngestionTriggerType}
    (hinactive : ∀ r run, db.runs.find r = some run → run.isActive = false)
    (hfresh : db.runs.find a.freshId = none)
    (h : createQueuedRun a db triggerType = (db', pc')) :
    Accepts db.guarded (createQueuedRunStatements a triggerType) db'.guarded := by
  rw [createQueuedRun] at h
  rw [createQueuedRunStatements]
  split at h
  · rename_i hauthorized
    rw [if_pos hauthorized]
    have hcreated : db.createQueued a.freshId triggerType =
        .ok { db with runs := db.runs.set a.freshId (Db.queuedRun triggerType) } := by
      refine ensure_bind_ok.mpr ⟨?_, require_bind_ok.mpr
        ⟨_, Table.insert_eq_some.mpr ⟨hfresh, rfl⟩, rfl⟩⟩
      refine List.all_eq_true.mpr fun other hother => ?_
      rw [hinactive other.1 other.2 (Table.mem_rows.mp hother)]
      rfl
    rw [hcreated] at h
    cases h
    -- the partial unique index admits the run, since no other is active
    have hone : db.guarded.OneActiveWith a.freshId (Db.queuedRun triggerType) := fun _ other hother =>
      .inr (hinactive _ _ (Table.mem_rows.mp hother))
    have hchecks : RunChecks (Db.queuedRun triggerType) := by
      simp [RunChecks, Db.queuedRun]
    refine .one (by trivial) ?_
    simp only [GuardedTables.exec, hchecks, hone, and_self, if_true]
    exact Option.map_eq_some_iff.mpr ⟨_, Table.insert_eq_some.mpr ⟨hfresh, rfl⟩, rfl⟩
  · rename_i hauthorized
    rw [if_neg hauthorized]
    cases h
    exact .nil _

theorem storeSnapshot_accepts {rows : List IngestionRunPropertyBin} (hI : TablesHold db.guarded)
    (hrows : RowsInHand db (.snapshotLoaded r rows : ExecutorState Row))
    (h : storeSnapshot config a db r rows = (db', pc'))
    (hwrite : Write config a db (.snapshotLoaded r rows) db') :
    Accepts db.guarded (storeSnapshotStatements config a db r rows) db'.guarded := by
  rw [storeSnapshot] at h
  rw [storeSnapshotStatements]
  cases ha : a.statementError with
  | some message =>
      rw [ha] at h
      cases h
      exact .nil _
  | none =>
      rw [ha] at h
      cases hstored : db.initializeRunSnapshotAndBatches r rows config.ecbBatchSize
          config.socrataPageSize with
      | error e =>
          simp only [hstored] at h
          cases h
          exact .nil _
      | ok stored =>
          simp only [hstored] at h
          cases h
          exact accepts_initialization hI hrows rfl hstored hwrite

theorem persistStartWatermark_accepts {rowsUpdatedAt : Nat} (hI : TablesHold db.guarded)
    (h : persistStartWatermark a db r rowsUpdatedAt = (db', pc'))
    (hwrite : Write config a db (.startWatermarkFetched r rowsUpdatedAt) db') :
    Accepts db.guarded (persistStartWatermarkStatements a db r rowsUpdatedAt) db'.guarded := by
  rw [persistStartWatermark] at h
  rw [persistStartWatermarkStatements]
  by_cases hauthorized : a.authorized 0 = true
  · rw [if_pos hauthorized] at h
    cases ha : a.statementError with
    | some message =>
        rw [ha] at h
        rw [if_neg (by simp)]
        cases h
        exact .nil _
    | none =>
        rw [ha] at h
        rw [if_pos ⟨hauthorized, rfl⟩, Db.startStatements]
        cases hstarted : db.setStartWatermarkAndRunning r (rowsUpdatedAtToDate rowsUpdatedAt)
            a.now with
        | error e =>
            simp only [hstarted] at h
            cases h
            exact .nil _
        | ok started =>
            simp only [hstarted] at h
            cases h
            obtain ⟨run, hr, -, -, -, rfl⟩ := Db.setStartWatermarkAndRunning_eq_ok hstarted
            exact accepts_updateRun hwrite hI rfl hr rfl
  · rw [if_neg hauthorized] at h
    rw [if_neg (fun hboth => hauthorized hboth.1)]
    cases h
    exact .nil _

theorem executeBatchAttempt_accepts {n : Nat} (hI : TablesHold db.guarded)
    (h : executeBatchAttempt config a db r n = (db', pc')) :
    Accepts db.guarded (executeBatchAttemptStatements config a db r n) db'.guarded := by
  rw [executeBatchAttempt] at h
  rw [executeBatchAttemptStatements]
  by_cases hauthorized : a.authorized 0 = true
  · rw [if_pos hauthorized] at h
    cases hfind : db.findBatch r n with
    | none =>
        rw [hfind] at h
        cases h
        exact .nil _
    | some b =>
        simp only [hfind] at h ⊢
        by_cases hcompleted : b.status = .completed
        -- an earlier attempt has completed the batch: nothing is sent
        · rw [if_pos hcompleted] at h
          rw [if_neg (fun hall => hall.2.1 hcompleted)]
          cases h
          exact .nil _
        · rw [if_neg hcompleted] at h
          cases ha : a.statementError with
          | some message =>
              rw [ha] at h
              rw [if_neg (by simp)]
              cases h
              exact .nil _
          | none =>
              simp only [ha] at h
              rw [if_pos ⟨hauthorized, hcompleted, rfl⟩]
              split at h
              -- no attempt is left: the batch is marked FAILED
              · rename_i hexhausted
                rw [if_pos hexhausted]
                split at h
                · rename_i hfailed
                  cases h
                  exact accepts_markFailed hI hfailed
                · rename_i hfailed
                  cases h
                  rw [markFailedStatements_error hfailed]
                  exact .nil _
              -- the attempt is counted
              · rename_i hexhausted
                rw [if_neg hexhausted]
                cases h
                exact accepts_updateBatch hI fun _ => ⟨rfl, rfl⟩
  · rw [if_neg hauthorized] at h
    cases h
    split
    · exact .nil _
    · rw [if_neg (fun hall => hauthorized hall.1)]
      exact .nil _

theorem startAttempt_accepts {n : Nat} (hI : TablesHold db.guarded)
    (h : startAttempt a db r n = (db', pc')) :
    Accepts db.guarded (startAttemptStatements a db r n) db'.guarded := by
  rw [startAttempt] at h
  rw [startAttemptStatements]
  cases ha : a.statementError with
  | some message =>
      rw [ha] at h
      rw [if_neg (by simp)]
      cases h
      exact .nil _
  | none =>
      rw [if_pos rfl]
      cases hfind : db.findBatch r n with
      | none =>
          rw [ha, hfind] at h
          cases h
          rw [Db.updateBatchStatements, hfind]
          exact .nil _
      | some b =>
          rw [ha, hfind] at h
          simp only at h
          split at h
          · cases h
            exact accepts_updateBatch hI fun _ => ⟨rfl, rfl⟩
          · cases h
            exact accepts_updateBatch hI fun _ => ⟨rfl, rfl⟩

theorem fetchPage_accepts {attempt : BatchAttempt} (hI : TablesHold db.guarded)
    (h : fetchPage a db attempt = (db', pc')) :
    Accepts db.guarded (fetchPageStatements a db attempt) db'.guarded := by
  rw [fetchPage] at h
  rw [fetchPageStatements]
  by_cases hauthorized : (a.authorized 0 && a.authorized 1) = true
  · rw [if_pos hauthorized] at h
    cases hpage : a.page with
    | ok page =>
        rw [hpage] at h
        cases h
        exact .nil _
    | error message =>
        -- the batch is marked FAILED with what the request threw
        cases ha : a.statementError with
        | some message' =>
            rw [hpage, ha] at h
            cases h
            exact .nil _
        | none =>
            simp only [hpage, ha] at h
            simp only [if_pos hauthorized]
            split at h
            · rename_i hfailed
              cases h
              exact accepts_markFailed hI hfailed
            · rename_i hfailed
              cases h
              rw [markFailedStatements_error hfailed]
              exact .nil _
  · rw [if_neg hauthorized] at h
    cases h
    split
    · rw [if_neg hauthorized]
      exact .nil _
    · exact .nil _

theorem processRows_accepts {attempt : BatchAttempt} {page remaining : List Row}
    (hI : TablesHold db.guarded)
    (h : processRows config service a db attempt page remaining = (db', pc')) :
    Accepts db.guarded (processRowsStatements a db attempt page remaining) db'.guarded := by
  rw [processRows.eq_def] at h
  cases remaining with
  | cons row rest =>
      -- the raw rows are no guarded table
      have hraw : db'.guarded = db.guarded := by
        simp only at h
        split at h
        · split at h
          · cases h; rfl
          · cases h; rfl
          · cases h
            obtain ⟨raw, hpersist⟩ := Db.persistRaw_eq db
            rw [hpersist]
            rfl
        · cases h; rfl
      rw [hraw]
      exact .nil _
  | nil =>
      cases ha : a.statementError with
      | some message =>
          simp only [ha] at h
          cases h
          simp only [processRowsStatements, ha]
          exact .nil _
      | none =>
          simp only [ha] at h
          simp only [processRowsStatements, ha]
          split at h
          · cases h
            exact accepts_updateBatch hI fun _ => ⟨rfl, rfl⟩
          · split at h
            · cases h
              exact accepts_updateBatch hI fun _ => ⟨rfl, rfl⟩
            · cases h
              exact accepts_updateBatch hI fun _ => ⟨rfl, rfl⟩

theorem completeBatch_accepts {attempt : BatchAttempt} (hI : TablesHold db.guarded)
    (h : completeBatch a db attempt = (db', pc')) :
    Accepts db.guarded (completeBatchStatements a db attempt) db'.guarded := by
  rw [completeBatch] at h
  rw [completeBatchStatements]
  split at h
  · rename_i hauthorized
    cases ha : a.statementError with
    | some message =>
        rw [ha] at h
        rw [if_neg (by simp)]
        cases h
        exact .nil _
    | none =>
        rw [ha] at h
        rw [if_pos ⟨hauthorized, rfl⟩]
        cases h
        exact accepts_updateBatch hI fun _ => ⟨rfl, rfl⟩
  · rename_i hauthorized
    rw [if_neg (fun hboth => hauthorized hboth.1)]
    cases h
    exact .nil _

theorem failPageLimit_accepts {attempt : BatchAttempt} (hI : TablesHold db.guarded)
    (h : failPageLimit a db attempt = (db', pc')) :
    Accepts db.guarded (failPageLimitStatements a db attempt) db'.guarded := by
  rw [failPageLimit] at h
  rw [failPageLimitStatements]
  cases ha : a.statementError with
  | some message =>
      rw [ha] at h
      rw [if_neg (by simp)]
      cases h
      exact .nil _
  | none =>
      simp only [ha] at h
      rw [if_pos rfl]
      split at h
      · rename_i hfailed
        cases h
        exact accepts_markFailed hI hfailed
      · rename_i hfailed
        cases h
        rw [markFailedStatements_error hfailed]
        exact .nil _

theorem failAttempt_accepts {attempt : BatchAttempt} {message : String} (hI : TablesHold db.guarded)
    (h : failAttempt a db attempt message = (db', pc')) :
    Accepts db.guarded (failAttemptStatements a db attempt message) db'.guarded := by
  rw [failAttempt] at h
  rw [failAttemptStatements]
  by_cases hauthorized : a.authorized 0 = true
  · rw [if_pos hauthorized] at h
    cases ha : a.statementError with
    | some message' =>
        rw [ha] at h
        rw [if_neg (by simp)]
        cases h
        exact .nil _
    | none =>
        simp only [ha] at h
        rw [if_pos ⟨hauthorized, rfl⟩]
        split at h
        · rename_i hfailed
          cases h
          exact accepts_markFailed hI hfailed
        · rename_i hfailed
          cases h
          rw [markFailedStatements_error hfailed]
          exact .nil _
  · rw [if_neg hauthorized] at h
    rw [if_neg (fun hboth => hauthorized hboth.1)]
    cases h
    exact .nil _

theorem publishTerminal_accepts {request : IngestionTerminalPublicationRequest}
    (hI : TablesHold db.guarded) (h : publishTerminal a db request = (db', pc'))
    (hwrite : Write config a db (.publishingTerminalFailure request) db') :
    Accepts db.guarded (db.terminalStatements a.publication request) db'.guarded := by
  rw [publishTerminal] at h
  rw [Db.terminalStatements]
  cases hpublish : db.publishTerminalFailure a.publication request with
  | mk db₁ result =>
      rw [hpublish] at h
      cases result with
      | error e =>
          cases h
          rw [Db.publishTerminalFailure_error hpublish]
          exact .nil _
      | ok u =>
          have hdb : db' = db₁ := by
            simp only at h
            split at h
            · cases h; rfl
            · cases h; rfl
          obtain ⟨-, ht⟩ := Db.publishTerminalFailure_ok hpublish
          obtain ⟨run, _, hr, -, -, rfl⟩ := Db.terminalTransaction_frame ht
          subst hdb
          exact accepts_updateRun hwrite hI rfl hr rfl

theorem persistEndWatermark_accepts {startWatermark endWatermark : Time} (hI : TablesHold db.guarded)
    (hK : Knows db (.endWatermarkFetched r startWatermark endWatermark : ExecutorState Row))
    (h : persistEndWatermark a db r startWatermark endWatermark = (db', pc'))
    (hwrite : Write config a db (.endWatermarkFetched r startWatermark endWatermark) db') :
    Accepts db.guarded (persistEndWatermarkStatements a db r endWatermark) db'.guarded := by
  rw [persistEndWatermark] at h
  rw [persistEndWatermarkStatements]
  cases ha : a.statementError with
  | some message =>
      rw [ha] at h
      rw [if_neg (by simp)]
      cases h
      exact .nil _
  | none =>
      have hdb : db' = db.updateSourceWatermarkAtEnd r endWatermark := by
        simp only [ha] at h
        split at h
        · cases h; rfl
        · split at h
          · cases h; rfl
          · cases h; rfl
      obtain ⟨run, hr, -⟩ := (hK.running r rfl).found
      rw [if_pos rfl]
      subst hdb
      exact accepts_updateRun hwrite hI rfl hr rfl

theorem publishAccepted_accepts (hI : TablesHold db.guarded)
    (h : publishAccepted a db r = (db', pc'))
    (hwrite : Write config a db (.readyForPublication r) db') :
    Accepts db.guarded (if a.authorized 0 then db.publicationStatements r a.publication else [])
      db'.guarded := by
  rw [publishAccepted] at h
  split at h
  · rename_i hauthorized
    rw [if_pos hauthorized, Db.publicationStatements]
    cases hpublish : db.publish a.publication r with
    | mk db₁ result =>
        rw [hpublish] at h
        cases result with
        | error e =>
            cases h
            rw [Db.publish_error hpublish]
            exact .nil _
        | ok outcome =>
            cases h
            rcases Db.acceptedTransaction_eq_ok (Db.publish_ok hpublish) with
              ⟨rfl, rfl, -⟩ | ⟨run, db₂, rfl, hp, -, hcoverage, rfl⟩
            · exact .nil _
            · obtain ⟨coverage, rfl⟩ := Db.publishSuccessfulCoverage_frame hcoverage
              exact accepts_updateRun hwrite hI rfl hp.found rfl
  · rename_i hauthorized
    rw [if_neg hauthorized]
    cases h
    exact .nil _

end Steps

/-! ### Runs of the system -/

/-- What a reachable state has, beside the invariant of the lifecycle. -/
structure GuardInvariant (s : SystemState Row) : Prop where
  system : SystemInvariant s
  tables : TablesHold s.db.guarded
  versions : ∀ p property, s.db.properties.find p = some property → 0 < property.identifierVersion
  rows : RowsInHand s.db s.executor
  /-- Where a run is to be created, none is active. -/
  inactive : ∀ triggerType, s.executor = .creatingRun triggerType →
    ∀ r run, s.db.runs.find r = some run → run.isActive = false

section System

variable {s s' : SystemState Row}

theorem guardInvariant_initial : GuardInvariant (SystemState.initial : SystemState Row) where
  system := systemInvariant_initial
  tables := tablesHold_empty
  versions _ _ h := nomatch h
  rows := trivial
  inactive _ h := nomatch h

/-- **The statements of a step are accepted**, where the id of a new run is not in use. -/
theorem executorStep_accepts {a : Answer Row} {db' : Db Row} {pc' : ExecutorState Row}
    (hG : GuardInvariant s) (hfresh : (Event.executor a).GeneratesFreshId s)
    (h : executorStep config service a s.db s.executor = some (db', pc')) :
    Accepts s.db.guarded (executorStatements config a s.db s.executor) db'.guarded := by
  obtain ⟨db, pc⟩ := s
  have heffect := executorStep_effect h
  have hwrite := heffect.write
  have hI := hG.tables
  cases pc with
  | stopped outcome => cases h
  | creatingRun triggerType =>
      exact createQueuedRun_accepts (hG.inactive _ rfl) (hfresh _ rfl) (Option.some.inj h)
  | snapshotLoaded runId rows => exact storeSnapshot_accepts hI hG.rows (Option.some.inj h) hwrite
  | startWatermarkFetched runId rowsUpdatedAt =>
      exact persistStartWatermark_accepts hI (Option.some.inj h) hwrite
  | executingBatch runId n => exact executeBatchAttempt_accepts hI (Option.some.inj h)
  | attemptCounted runId n => exact startAttempt_accepts hI (Option.some.inj h)
  | fetchingPage attempt => exact fetchPage_accepts hI (Option.some.inj h)
  | processingRows attempt page remaining => exact processRows_accepts hI (Option.some.inj h)
  | completingBatch attempt => exact completeBatch_accepts hI (Option.some.inj h)
  | pageLimitReached attempt => exact failPageLimit_accepts hI (Option.some.inj h)
  | attemptFailed attempt message => exact failAttempt_accepts hI (Option.some.inj h)
  | publishingTerminalFailure request => exact publishTerminal_accepts hI (Option.some.inj h) hwrite
  | endWatermarkFetched runId startWatermark endWatermark =>
      exact persistEndWatermark_accepts hI hG.system.knows (Option.some.inj h) hwrite
  | readyForPublication runId => exact publishAccepted_accepts hI (Option.some.inj h) hwrite
  | _ =>
      -- the other points write no guarded table
      cases heffect
      all_goals exact .nil _

/-- A step that finds the generated id in use writes nothing. -/
theorem executorStep_staleId {a : Answer Row} {db db' : Db Row} {pc' : ExecutorState Row}
    {triggerType : IngestionTriggerType} (hused : db.runs.find a.freshId ≠ none)
    (h : executorStep config service a db (.creatingRun triggerType) = some (db', pc')) : db' = db := by
  cases executorStep_effect h with
  | stop => rfl
  | runCreated hcreated => exact absurd (Db.createQueued_eq_ok hcreated).2.1 hused
  | attemptThrew _ => rfl

/-- The tables hold after a step, whatever id it generates. -/
theorem executorStep_tablesHold {a : Answer Row} {db' : Db Row} {pc' : ExecutorState Row}
    (hG : GuardInvariant s) (h : executorStep config service a s.db s.executor = some (db', pc')) :
    TablesHold db'.guarded := by
  by_cases hfresh : (Event.executor a).GeneratesFreshId s
  · exact (executorStep_accepts hG hfresh h).tablesHold hG.tables
  · simp only [Event.GeneratesFreshId, not_forall] at hfresh
    obtain ⟨triggerType, hpc, hused⟩ := hfresh
    rw [hpc] at h
    rw [executorStep_staleId hused h]
    exact hG.tables

/-- A step comes to the creation of a run only where none is active. -/
theorem inactive_effect {a : Answer Row} {db db' : Db Row} {pc pc' : ExecutorState Row}
    (h : Effect config service a db pc db' pc') {triggerType : IngestionTriggerType}
    (hpc : pc' = .creatingRun triggerType) :
    ∀ r run, db'.runs.find r = some run → run.isActive = false := by
  subst hpc
  cases h with
  | noActiveRun hnone => exact fun _ _ hr => Db.findActive_eq_none hnone hr
  | endRejected _ hp =>
      rcases hp with hp | ⟨_, hp⟩
      · cases hp
      · cases hp

/-- The creation of a property, on the guarded tables. -/
theorem createProperty_accepts {db db' : Db Row} {p : PropertyId} {input : CreatePropertyInput}
    {now : Time} (h : db.createProperty p input now = .ok db') :
    Accepts db.guarded [.insertProperty p] db'.guarded := by
  obtain ⟨property, bbl, -, -, -, -, hn, rfl⟩ := Db.createProperty_eq_ok h
  refine .one (by trivial) ?_
  have hproperties : Function.update db.guarded.properties p true =
      fun q => ((db.properties.set p property).find q).isSome := by
    funext q
    rw [Function.update_apply, Table.find_set]
    split
    · rfl
    · rfl
  have hexec : db.guarded.exec (.insertProperty p) =
      some { db.guarded with properties := Function.update db.guarded.properties p true } := by
    simp [GuardedTables.exec, Db.guarded, hn]
  rw [hexec, hproperties]
  rfl

/-- The properties after a BIN set has been replaced. -/
theorem find_replaceBinSet {db : Db Row} {p q : PropertyId} {bins : SortedSet CanonicalBin} :
    (db.replaceBinSet p bins).properties.find q =
      if q = p then (db.properties.find q).map fun property =>
        { property with identifierVersion := property.identifierVersion + 1 }
      else db.properties.find q :=
  Table.find_modify

/-- A BIN set is no guarded table. -/
theorem guarded_applyEffectiveBinSet {db db' : Db Row} {p : PropertyId} {candidateBins : List String}
    {result : ApplyEffectiveBinSetResult}
    (h : db.applyEffectiveBinSet p candidateBins = .ok (db', result)) : db'.guarded = db.guarded := by
  obtain ⟨-, ⟨-, rfl, -⟩ | ⟨-, -, rfl⟩⟩ := Db.applyEffectiveBinSet_eq_ok h
  · rfl
  have hproperties : (fun q => ((db.replaceBinSet p
      (filterValidBins candidateBins)).properties.find q).isSome) =
        fun q => (db.properties.find q).isSome := by
    funext q
    rw [find_replaceBinSet]
    split
    · exact Option.isSome_map
    · rfl
  simp only [Db.guarded, hproperties]
  rfl

/-- **One event keeps the invariant.** -/
theorem guardInvariant_next {ev : Event Row} (hG : GuardInvariant s)
    (h : next config service s ev = some s') : GuardInvariant s' := by
  have hsystem := (systemInvariant_next hG.system h).1
  cases ev with
  | executor a =>
      obtain ⟨⟨db', pc'⟩, hstep, rfl⟩ := Option.map_eq_some_iff.mp h
      have heffect := executorStep_effect hstep
      have hproperties := (write_snapshot heffect.write).1
      refine ⟨hsystem, executorStep_tablesHold hG hstep, ?_, ?_, fun _ => inactive_effect heffect⟩
      · rw [hproperties]
        exact hG.versions
      · exact rowsInHand_effect hG.versions hG.rows heffect
  | acquireLock triggerType =>
      cases next_turn h
      exact ⟨hsystem, hG.tables, hG.versions, trivial, nofun⟩
  | crash =>
      cases next_turn h
      exact ⟨hsystem, hG.tables, hG.versions, trivial, nofun⟩
  | createProperty p input now =>
      cases next_turn h with
      | created hcreate =>
      have haccepts := createProperty_accepts hcreate
      obtain ⟨property, bbl, -, -, hversion, -, hn, rfl⟩ := Db.createProperty_eq_ok hcreate
      refine ⟨hsystem, haccepts.tablesHold hG.tables, fun q found hq => ?_, ?_, hG.inactive⟩
      · simp only [Table.find_set] at hq
        split at hq
        · cases hq
          exact hversion ▸ Nat.one_pos
        · exact hG.versions q found hq
      · refine hG.rows.mono fun q hq => ?_
        simp only [Table.find_set]
        split
        · simp
        · exact hq
  | applyEffectiveBinSet p candidateBins =>
      cases next_turn h with
      | applied happly =>
      have hguarded := guarded_applyEffectiveBinSet happly
      obtain ⟨-, ⟨-, rfl, -⟩ | ⟨-, -, rfl⟩⟩ := Db.applyEffectiveBinSet_eq_ok happly
      · exact ⟨hsystem, hG.tables, hG.versions, hG.rows, hG.inactive⟩
      refine ⟨hsystem, hguarded ▸ hG.tables, fun q found hq => ?_, ?_, hG.inactive⟩
      · rw [find_replaceBinSet] at hq
        split at hq
        · obtain ⟨property, -, rfl⟩ := Option.map_eq_some_iff.mp hq
          exact Nat.succ_pos _
        · exact hG.versions q found hq
      · refine hG.rows.mono fun q hq => ?_
        rw [find_replaceBinSet]
        split
        · simpa using hq
        · exact hq

/-- **The statements of an event are accepted**, in the order the source sends them. -/
theorem next_accepts {ev : Event Row} (hG : GuardInvariant s) (hfresh : ev.GeneratesFreshId s)
    (h : next config service s ev = some s') :
    Accepts s.db.guarded (ev.statements config s) s'.db.guarded := by
  cases ev with
  | executor a =>
      obtain ⟨⟨db', pc'⟩, hstep, rfl⟩ := Option.map_eq_some_iff.mp h
      exact executorStep_accepts hG hfresh hstep
  | acquireLock triggerType =>
      cases next_turn h
      exact .nil _
  | crash =>
      cases next_turn h
      exact .nil _
  | createProperty p input now =>
      cases next_turn h with
      | created hcreate => exact createProperty_accepts hcreate
  | applyEffectiveBinSet p candidateBins =>
      cases next_turn h with
      | applied happly =>
      rw [guarded_applyEffectiveBinSet happly]
      exact .nil _

/-- **The guards never stand in the way of the lock holder.**  In every reachable state the tables meet
every constraint, and the statements of each event, in the order of the source, are accepted by the
constraints and the triggers and leave the tables of the next state; none of them deletes a run or a
property.  The id that is generated for a new run is not in use. -/
theorem next_guarded (h : Reachable config service s) :
    TablesHold s.db.guarded ∧
      ∀ ev s', ev.GeneratesFreshId s → next config service s ev = some s' →
        (∀ st ∈ ev.statements config s, st.OfProgram) ∧
        run GuardedTables.exec s.db.guarded (ev.statements config s) = some s'.db.guarded := by
  have hG : GuardInvariant s :=
    h.invariant (fun hG _ hs => guardInvariant_next hG hs) guardInvariant_initial
  exact ⟨hG.tables, fun ev s' hfresh hs => next_accepts hG hfresh hs⟩

/-- The state in which a snapshot of one row is about to be stored. -/
def snapshotRun : List (Event NormalizedEcbViolation) :=
  createSample 0 "1000010001" "1000001" :: .acquireLock .manual ::
    List.replicate 5 (.executor (quietAnswer 0 7 [sampleViolation]))

/-- Its transaction inserts a row and a batch and seals the run. -/
theorem next_guarded_snapshotRun : ∃ s s', TablesHold s.db.guarded ∧
    next smallConfig plainService s (.executor (quietAnswer 0 7 [sampleViolation])) = some s' ∧
    ((Event.executor (quietAnswer 0 7 [sampleViolation])).statements smallConfig s).length = 3 ∧
    run GuardedTables.exec s.db.guarded
      ((Event.executor (quietAnswer 0 7 [sampleViolation])).statements smallConfig s) =
        some s'.db.guarded := by
  have hs : ((Library.run (next smallConfig plainService) .initial snapshotRun).map fun s =>
      ((next smallConfig plainService s (.executor (quietAnswer 0 7 [sampleViolation]))).isSome,
        ((Event.executor (quietAnswer 0 7 [sampleViolation])).statements smallConfig s).length,
        s.executor.runRow?)) = some (true, 3, some 0) := by decide +kernel
  obtain ⟨s, hrun, hs⟩ := Option.map_eq_some_iff.mp hs
  rw [Prod.mk.injEq, Prod.mk.injEq] at hs
  obtain ⟨s', hnext⟩ := Option.isSome_iff_exists.mp hs.1
  have h : Reachable smallConfig plainService s := run_steps (runOk_trivial _ _) hrun
  have hfresh : (Event.executor (quietAnswer 0 7 [sampleViolation])).GeneratesFreshId s := by
    intro triggerType hpc
    rw [hpc] at hs
    cases hs.2.2
  exact ⟨s, s', (next_guarded h).1, hnext, hs.2.1, ((next_guarded h).2 _ s' hfresh hnext).2⟩

end System

end NycPropertyResolver
