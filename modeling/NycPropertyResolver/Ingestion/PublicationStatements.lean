import NycPropertyResolver.Ingestion.NoHybrid
import NycPropertyResolver.Ingestion.SnapshotExact

/-!
# Ingestion — the statements of a publication

The system with an accepted publication taken statement by statement.  Each statement sees the latest
committed rows, next to those its own transaction has written, and the transactions that change a
property commit between any two of them; from the statement that locks the properties of the snapshot
on, a change of one of these waits for the end of the transaction.  The snapshot itself is read in
two statements as well, the BINs first and the versions second.
-/

namespace NycPropertyResolver

open Library

variable {Row : Type}

/-! ### Statements of a transaction -/

/-- The statement a publication is at. -/
inductive PublicationPoint where
  | lockingRun
  | promotingStaging
  | reconcilingAbsences (acceptedAt currentTimestamp : Time)
  | lockingProperties (acceptedAt : Time)
  | readingSnapshot (acceptedAt : Time)
  | upsertingChecked (acceptedAt : Time) (run : IngestionRun)
  | upsertingIdentifiersChanged (acceptedAt : Time) (run : IngestionRun)
  | completingRun (acceptedAt : Time)
  | committing (outcome : AcceptedPublicationOutcome)

/-- An open publication: what its statements see, and the properties it has locked. -/
structure PublicationTransaction (Row : Type) where
  runId : RunId
  view : Db Row
  locked : List PropertyId
  point : PublicationPoint

/-- `prisma.$transaction` opens a publication. -/
def PublicationTransaction.begin (db : Db Row) (runId : RunId) : PublicationTransaction Row where
  runId := runId
  view := db
  locked := []
  point := .lockingRun

/-- The next statement of a publication. -/
def PublicationTransaction.statement (answer : PublicationAnswer) (t : PublicationTransaction Row) :
    Except ServiceError (PublicationTransaction Row) :=
  match t.point with
  | .lockingRun => do
    runStatement (answer.statementError 0)
    let run ← t.view.lockAndValidateAcceptedRun t.runId
    if run.status = .completed then
      .ok { t with point := .committing .alreadyCompleted }
    else
      .ok { t with point := .promotingStaging }
  | .promotingStaging => do
    assertAuthorized (answer.authorized 1) "begin accepted-state publication"
    runStatement (answer.statementError 1)
    .ok { t with
      view := t.view.promoteStaging t.runId answer.currentTimestamp
      point := .reconcilingAbsences answer.now answer.currentTimestamp }
  | .reconcilingAbsences acceptedAt currentTimestamp => do
    runStatement (answer.statementError 1)
    .ok { t with
      view := t.view.reconcileAbsences t.runId currentTimestamp
      point := .lockingProperties acceptedAt }
  | .lockingProperties acceptedAt => do
    assertAuthorized (answer.authorized 2) "publish successful property coverage"
    runStatement (answer.statementError 2)
    .ok { t with
      locked := (t.view.snapshotPropertyIds t.runId).filter fun p =>
        (t.view.properties.find p).isSome
      point := .readingSnapshot acceptedAt }
  -- the run is locked, so that its row may be checked with the snapshot
  | .readingSnapshot acceptedAt => do
    runStatement (answer.statementError 2)
    let (run, snapshotProperties) ← t.view.loadAndValidateAcceptedRun t.runId
    if snapshotProperties.isEmpty then
      .ok { t with point := .completingRun acceptedAt }
    else
      .ok { t with point := .upsertingChecked acceptedAt run }
  | .upsertingChecked acceptedAt run => do
    runStatement (answer.statementError 2)
    .ok { t with
      view := t.view.upsertCheckedCoverage t.runId (run.startedAt.getD 0) acceptedAt
        run.sourceWatermarkAtEnd
      point := .upsertingIdentifiersChanged acceptedAt run }
  | .upsertingIdentifiersChanged acceptedAt run => do
    runStatement (answer.statementError 2)
    .ok { t with
      view := t.view.upsertIdentifiersChangedCoverage t.runId (run.startedAt.getD 0)
      point := .completingRun acceptedAt }
  | .completingRun acceptedAt => do
    assertAuthorized (answer.authorized 3) "mark the accepted ingestion run completed"
    runStatement (answer.statementError 3)
    let view ← t.view.completeRun t.runId acceptedAt
    runStatement (answer.statementError 4)
    .ok { t with view := view, point := .committing .completed }
  | .committing _ => .ok t

/-- The rows of a property show through once another transaction has committed them. -/
def PublicationTransaction.see (t : PublicationTransaction Row) (db : Db Row) (p : PropertyId) :
    PublicationTransaction Row :=
  { t with
    view := { t.view with
      properties := db.properties
      propertyBins := db.propertyBins
      coverage := Function.update t.view.coverage p (db.coverage p) } }

/-! ### The system -/

/-- The system, and the publication under way. -/
structure ConcurrentState (Row : Type) where
  system : SystemState Row
  publication : Option (PublicationTransaction Row)

/-- Nothing has begun. -/
def ConcurrentState.initial : ConcurrentState Row := ⟨.initial, none⟩

/-- A step of the system, or of the publication. -/
inductive ConcurrentEvent (Row : Type) where
  | system (ev : Event Row)
  /-- The publication opens, takes its next statement, or commits. -/
  | publication (answer : Answer Row)

section Next

variable (config : ExecutorConfig) (service : EcbRowService Row) (s : ConcurrentState Row)

/-- An event outside the publication. -/
def systemNext (ev : Event Row) : Option (ConcurrentState Row) :=
  match s.publication, ev with
  | none, .executor answer =>
    match s.system.executor with
    | .readyForPublication _ => none
    | _ => (next config service s.system (.executor answer)).map fun s' => ⟨s', none⟩
  | none, ev => (next config service s.system ev).map fun s' => ⟨s', none⟩
  | some _, .crash => (next config service s.system .crash).map fun s' => ⟨s', none⟩
  | some t, .createProperty propertyId input now =>
    (next config service s.system (.createProperty propertyId input now)).map fun s' =>
      ⟨s', some (t.see s'.db propertyId)⟩
  | some t, .applyEffectiveBinSet propertyId candidateBins =>
    if propertyId ∈ t.locked then
      none
    else
      (next config service s.system (.applyEffectiveBinSet propertyId candidateBins)).map fun s' =>
        ⟨s', some (t.see s'.db propertyId)⟩
  | some _, .executor _ | some _, .acquireLock _ => none

/-- An event of the publication.  A statement that throws rolls it back. -/
def publicationNext (answer : Answer Row) : Option (ConcurrentState Row) :=
  match s.publication with
  | none =>
    match s.system.executor with
    | .readyForPublication runId =>
      if answer.authorized 0 then
        match assertAuthorized (answer.publication.authorized 0)
            "publish an accepted ingestion run" with
        | .error e => some ⟨⟨s.system.db, stoppedBy e⟩, none⟩
        | .ok () => some ⟨s.system, some (.begin s.system.db runId)⟩
      else
        some ⟨⟨s.system.db, .stopped .executionAuthorityLost⟩, none⟩
    | _ => none
  | some t =>
    match t.point with
    | .committing _ => some ⟨⟨t.view, .stopped .completed⟩, none⟩
    | _ =>
      match t.statement answer.publication with
      | .error e => some ⟨⟨s.system.db, stoppedBy e⟩, none⟩
      | .ok t' => some ⟨s.system, some t'⟩

/-- One step. -/
def concurrentNext : ConcurrentEvent Row → Option (ConcurrentState Row)
  | .system ev => systemNext config service s ev
  | .publication answer => publicationNext s answer

end Next

/-- What the first statement of the snapshot has read, before the second one runs. -/
def ExecutorState.snapshotBins : ExecutorState Row → List (CanonicalBin × PropertyId)
  | .snapshotBinsLoaded _ relationships => relationships
  | _ => []

/-- **The snapshot still holds when it is completed**: at its second statement every property the first
one has read has the BIN set it had then. -/
def SnapshotReadHolds (s : ConcurrentState Row) : ConcurrentEvent Row → Prop
  | .system (.executor _) => ∀ r ∈ s.system.executor.snapshotBins,
    s.system.db.propertyBins r.2 =
      SortedSet.ofList ((s.system.executor.snapshotBins.filter fun r' => r'.2 = r.2).map Prod.fst)
  | _ => True

instance (s : ConcurrentState Row) :
    (ev : ConcurrentEvent Row) → Decidable (SnapshotReadHolds s ev)
  | .system (.executor _) => inferInstanceAs (Decidable (∀ r ∈ _, _))
  | .system (.acquireLock _) | .system .crash => inferInstanceAs (Decidable True)
  | .system (.createProperty ..) | .system (.applyEffectiveBinSet ..) =>
    inferInstanceAs (Decidable True)
  | .publication _ => inferInstanceAs (Decidable True)

/-! ### What a statement does -/

section Statements

variable {answer : PublicationAnswer} {t t' : PublicationTransaction Row}

/-- **What a statement that does not throw does.** -/
inductive StatementEffect (t : PublicationTransaction Row) : PublicationTransaction Row → Prop where
  | runLocked {point : PublicationPoint} (hp : t.point = .lockingRun)
      (h : point = .promotingStaging ∨ point = .committing .alreadyCompleted) :
      StatementEffect t { t with point := point }
  | stagingPromoted {acceptedAt now : Time} (hp : t.point = .promotingStaging) :
      StatementEffect t { t with
        view := t.view.promoteStaging t.runId now
        point := .reconcilingAbsences acceptedAt now }
  | absencesReconciled {acceptedAt now : Time} (hp : t.point = .reconcilingAbsences acceptedAt now) :
      StatementEffect t { t with
        view := t.view.reconcileAbsences t.runId now
        point := .lockingProperties acceptedAt }
  | propertiesLocked {acceptedAt : Time} (hp : t.point = .lockingProperties acceptedAt) :
      StatementEffect t { t with
        locked := (t.view.snapshotPropertyIds t.runId).filter fun p =>
          (t.view.properties.find p).isSome
        point := .readingSnapshot acceptedAt }
  | snapshotEmpty {acceptedAt : Time} (hp : t.point = .readingSnapshot acceptedAt) :
      StatementEffect t { t with point := .completingRun acceptedAt }
  | snapshotRead {acceptedAt : Time} {run : IngestionRun} {ps : List SnapshotProperty}
      (hp : t.point = .readingSnapshot acceptedAt)
      (h : t.view.loadAndValidateAcceptedRun t.runId = .ok (run, ps)) :
      StatementEffect t { t with point := .upsertingChecked acceptedAt run }
  | checkedUpserted {acceptedAt : Time} {run : IngestionRun}
      (hp : t.point = .upsertingChecked acceptedAt run) :
      StatementEffect t { t with
        view := t.view.upsertCheckedCoverage t.runId (run.startedAt.getD 0) acceptedAt
          run.sourceWatermarkAtEnd
        point := .upsertingIdentifiersChanged acceptedAt run }
  | identifiersChangedUpserted {acceptedAt : Time} {run : IngestionRun}
      (hp : t.point = .upsertingIdentifiersChanged acceptedAt run) :
      StatementEffect t { t with
        view := t.view.upsertIdentifiersChangedCoverage t.runId (run.startedAt.getD 0)
        point := .completingRun acceptedAt }
  | runCompleted {acceptedAt : Time} (hp : t.point = .completingRun acceptedAt) :
      StatementEffect t { t with
        view := { t.view with runs := t.view.runs.modify t.runId (Db.acceptedRun acceptedAt) }
        point := .committing .completed }
  | idle {outcome : AcceptedPublicationOutcome} (hp : t.point = .committing outcome) :
      StatementEffect t t

theorem statement_effect (h : t.statement answer = .ok t') : StatementEffect t t' := by
  rw [PublicationTransaction.statement] at h
  split at h
  · obtain ⟨-, h⟩ := runStatement_bind_ok.mp h
    obtain ⟨run, -, h⟩ := except_bind_ok.mp h
    split at h
    · cases h; exact .runLocked ‹_› (Or.inr rfl)
    · cases h; exact .runLocked ‹_› (Or.inl rfl)
  · obtain ⟨_, -, h⟩ := except_bind_ok.mp h
    obtain ⟨-, h⟩ := runStatement_bind_ok.mp h
    cases h; exact .stagingPromoted ‹_›
  · obtain ⟨-, h⟩ := runStatement_bind_ok.mp h
    cases h; exact .absencesReconciled ‹_›
  · obtain ⟨_, -, h⟩ := except_bind_ok.mp h
    obtain ⟨-, h⟩ := runStatement_bind_ok.mp h
    cases h; exact .propertiesLocked ‹_›
  · obtain ⟨-, h⟩ := runStatement_bind_ok.mp h
    obtain ⟨⟨run, ps⟩, hv, h⟩ := except_bind_ok.mp h
    dsimp only at h
    split at h
    · cases h; exact .snapshotEmpty ‹_›
    · cases h; exact .snapshotRead ‹_› hv
  · obtain ⟨-, h⟩ := runStatement_bind_ok.mp h
    cases h; exact .checkedUpserted ‹_›
  · obtain ⟨-, h⟩ := runStatement_bind_ok.mp h
    cases h; exact .identifiersChangedUpserted ‹_›
  · obtain ⟨_, -, h⟩ := except_bind_ok.mp h
    obtain ⟨-, h⟩ := runStatement_bind_ok.mp h
    obtain ⟨view, hv, h⟩ := except_bind_ok.mp h
    obtain ⟨-, h⟩ := runStatement_bind_ok.mp h
    cases h
    rw [(Db.completeRun_eq_ok hv).2]
    exact .runCompleted ‹_›
  · cases h; exact .idle ‹_›

/-- What a publication sees is the database, but for the rows it writes itself. -/
structure PublicationTransaction.Sees (t : PublicationTransaction Row) (db : Db Row) : Prop where
  properties : t.view.properties = db.properties
  propertyBins : t.view.propertyBins = db.propertyBins
  snapshot : t.view.snapshot = db.snapshot
  batches : t.view.batches = db.batches

theorem StatementEffect.sees {db : Db Row} (h : StatementEffect t t') (hs : t.Sees db) :
    t'.Sees db := by
  cases h <;> exact ⟨hs.properties, hs.propertyBins, hs.snapshot, hs.batches⟩

theorem StatementEffect.runId (h : StatementEffect t t') : t'.runId = t.runId := by
  cases h <;> rfl

/-- Behind the statement that locks them, every property of the snapshot is locked. -/
def PublicationTransaction.Locks (t : PublicationTransaction Row) : Prop :=
  match t.point with
  | .readingSnapshot _ | .upsertingChecked _ _ | .upsertingIdentifiersChanged _ _ =>
    ∀ row ∈ t.view.snapshot t.runId, row.propertyId ∈ t.locked
  | _ => True

/-- Behind the validation of the run, its batches cover its snapshot. -/
def PublicationTransaction.Covers (t : PublicationTransaction Row) : Prop :=
  match t.point with
  | .upsertingChecked _ _ => t.view.CoversSnapshot t.runId
  | _ => True

theorem StatementEffect.locks (h : StatementEffect t t') (hl : t.Locks)
    (hk : ∀ row ∈ t.view.snapshot t.runId, t.view.properties.find row.propertyId ≠ none) :
    t'.Locks := by
  cases h with
  | runLocked hp h => rcases h with rfl | rfl <;> trivial
  | propertiesLocked hp =>
      intro row hrow
      rw [List.mem_filter]
      exact ⟨Db.mem_snapshotPropertyIds.mpr ⟨row, hrow, rfl⟩,
        Option.isSome_iff_ne_none.mpr (hk row hrow)⟩
  | snapshotRead hp h =>
      simp only [PublicationTransaction.Locks, hp] at hl
      exact hl
  | checkedUpserted hp =>
      simp only [PublicationTransaction.Locks, hp] at hl
      exact hl
  | idle => exact hl
  | _ => trivial

theorem StatementEffect.covers (h : StatementEffect t t') (hc : t.Covers) : t'.Covers := by
  cases h with
  | runLocked hp h => rcases h with rfl | rfl <;> trivial
  | snapshotRead hp h => exact (Db.loadAndValidateAcceptedRun_eq_ok h).1.covers
  | idle => exact hc
  | _ => trivial

/-- **Only the upsert of the matching versions makes a property CHECKED.** -/
theorem StatementEffect.versionMatches (h : StatementEffect t t') {p : PropertyId}
    {c : PropertyDatasetCoverage} (hc : t'.view.coverage p = some c) (hs : c.status = .checked)
    (hne : t.view.coverage p ≠ some c) :
    (∃ acceptedAt run, t.point = .upsertingChecked acceptedAt run) ∧
      t.view.VersionMatches t.runId p := by
  cases h with
  | checkedUpserted hp =>
      refine ⟨⟨_, _, hp⟩, ?_⟩
      by_contra hm
      simp only [Db.upsertCheckedCoverage, if_neg hm] at hc
      exact hne hc
  | identifiersChangedUpserted hp =>
      simp only [Db.upsertIdentifiersChangedCoverage] at hc
      split at hc
      · split at hc
        · cases hc
          cases hs
        · split at hc
          · cases hc
            exact absurd ‹_› hne
          · cases hc
            cases hs
      · exact absurd hc hne
  | _ => exact absurd hc hne

end Statements

/-! ### Runs of the system -/

section Runs

variable {config : ExecutorConfig} {service : EcbRowService Row} {s s' : ConcurrentState Row}

/-- **What one event does.** -/
inductive ConcurrentTurn (config : ExecutorConfig) (service : EcbRowService Row)
    (s : ConcurrentState Row) : ConcurrentEvent Row → ConcurrentState Row → Prop where
  | alone {ev : Event Row} {u : SystemState Row} (h : next config service s.system ev = some u) :
      ConcurrentTurn config service s (.system ev) ⟨u, none⟩
  | created {t : PublicationTransaction Row} {p : PropertyId} {input : CreatePropertyInput}
      {now : Time} {u : SystemState Row} (hp : s.publication = some t)
      (h : next config service s.system (.createProperty p input now) = some u) :
      ConcurrentTurn config service s (.system (.createProperty p input now))
        ⟨u, some (t.see u.db p)⟩
  | applied {t : PublicationTransaction Row} {p : PropertyId} {candidateBins : List String}
      {u : SystemState Row} (hp : s.publication = some t)
      (h : next config service s.system (.applyEffectiveBinSet p candidateBins) = some u) :
      ConcurrentTurn config service s (.system (.applyEffectiveBinSet p candidateBins))
        ⟨u, some (t.see u.db p)⟩
  | opened {a : Answer Row} {runId : RunId} :
      ConcurrentTurn config service s (.publication a)
        ⟨s.system, some (.begin s.system.db runId)⟩
  | stopped {a : Answer Row} {outcome : ExecutionOutcome} :
      ConcurrentTurn config service s (.publication a) ⟨⟨s.system.db, .stopped outcome⟩, none⟩
  | stated {a : Answer Row} {t t' : PublicationTransaction Row} (hp : s.publication = some t)
      (h : StatementEffect t t') :
      ConcurrentTurn config service s (.publication a) ⟨s.system, some t'⟩
  | committed {a : Answer Row} {t : PublicationTransaction Row} (hp : s.publication = some t) :
      ConcurrentTurn config service s (.publication a) ⟨⟨t.view, .stopped .completed⟩, none⟩

theorem systemNext_turn {ev : Event Row} (h : systemNext config service s ev = some s') :
    ConcurrentTurn config service s (.system ev) s' := by
  have alone : (next config service s.system ev).map (fun u => ConcurrentState.mk u none) =
      some s' → ConcurrentTurn config service s (.system ev) s' := fun h => by
    obtain ⟨u, hu, rfl⟩ := Option.map_eq_some_iff.mp h
    exact .alone hu
  cases hp : s.publication with
  | none =>
      cases ev <;> simp only [systemNext, hp] at h
      case executor answer =>
        split at h
        · cases h
        · exact alone h
      all_goals exact alone h
  | some t =>
      cases ev <;> simp only [systemNext, hp] at h
      case acquireLock => cases h
      case executor => cases h
      case crash => exact alone h
      case createProperty p input now =>
        obtain ⟨u, hu, rfl⟩ := Option.map_eq_some_iff.mp h
        exact .created hp hu
      case applyEffectiveBinSet p candidateBins =>
        split at h
        · cases h
        · obtain ⟨u, hu, rfl⟩ := Option.map_eq_some_iff.mp h
          exact .applied hp hu

theorem publicationNext_turn {a : Answer Row} (h : publicationNext s a = some s') :
    ConcurrentTurn config service s (.publication a) s' := by
  have halt : ∀ e : ServiceError, ConcurrentTurn config service s (.publication a)
      ⟨⟨s.system.db, stoppedBy e⟩, none⟩ := fun e => by
    obtain ⟨outcome, e⟩ := stoppedBy_eq Row e
    rw [e]
    exact .stopped
  rw [publicationNext] at h
  split at h
  · split at h
    · split at h
      · split at h
        · cases h; exact halt _
        · cases h; exact .opened
      · cases h; exact .stopped
    · cases h
  · split at h
    · cases h; exact .committed ‹_›
    · split at h
      · cases h; exact halt _
      · cases h; exact .stated ‹_› (statement_effect ‹_›)

theorem concurrentNext_turn {ev : ConcurrentEvent Row}
    (h : concurrentNext config service s ev = some s') : ConcurrentTurn config service s ev s' := by
  cases ev with
  | system ev => exact systemNext_turn h
  | publication a => exact publicationNext_turn h

/-- **The invariant**: the stored snapshots are exact, and so is the one in hand; an open publication
sees the properties as they are. -/
structure ConcurrentInvariant (s : ConcurrentState Row) : Prop where
  snapshots : ∀ r, SnapshotExact s.system.db (s.system.db.snapshot r)
  loaded : ∀ r rows, s.system.executor = .snapshotLoaded r rows → SnapshotExact s.system.db rows
  sees : ∀ t, s.publication = some t → t.Sees s.system.db
  locks : ∀ t, s.publication = some t → t.Locks
  covers : ∀ t, s.publication = some t → t.Covers

theorem concurrentInvariant_initial :
    ConcurrentInvariant (ConcurrentState.initial : ConcurrentState Row) where
  snapshots _ := .nil
  loaded _ _ h := nomatch h
  sees _ h := nomatch h
  locks _ h := nomatch h
  covers _ h := nomatch h

/-- A state without a publication. -/
theorem ConcurrentInvariant.alone {u : SystemState Row}
    (hs : ∀ r, SnapshotExact u.db (u.db.snapshot r))
    (hl : ∀ r rows, u.executor = .snapshotLoaded r rows → SnapshotExact u.db rows) :
    ConcurrentInvariant (⟨u, none⟩ : ConcurrentState Row) :=
  ⟨hs, hl, fun _ h => (nomatch h), fun _ h => (nomatch h), fun _ h => (nomatch h)⟩

/-- The rows read in the two statements of the snapshot are exact, where its read still holds. -/
theorem exact_of_snapshotReadHolds {db : Db Row} {rows : List IngestionRunPropertyBin}
    {relationships : List (CanonicalBin × PropertyId)}
    (hok : ∀ r ∈ relationships, db.propertyBins r.2 =
      SortedSet.ofList ((relationships.filter fun r' => r'.2 = r.2).map Prod.fst))
    (h : db.includeProperties relationships = some rows) : SnapshotExact db rows := by
  refine .of_loaded (fun bin p hb bin' => ?_) h
  rw [hok (bin, p) hb, SortedSet.mem_ofList, List.mem_map]
  constructor
  · rintro ⟨⟨bin'', p'⟩, hr, rfl⟩
    obtain ⟨hr, e⟩ := List.mem_filter.mp hr
    rw [← show p' = p by simpa using e]
    exact hr
  · exact fun hr => ⟨(bin', p), List.mem_filter.mpr ⟨hr, by simp⟩, rfl⟩

/-- **What the system does by itself.** -/
theorem ConcurrentInvariant.turn {ev : Event Row} {u : SystemState Row}
    (hI : ConcurrentInvariant s) (hok : SnapshotReadHolds s (.system ev))
    (h : Turn config service s.system ev u) :
    (∀ r, SnapshotExact u.db (u.db.snapshot r)) ∧
      ∀ r rows, u.executor = .snapshotLoaded r rows → SnapshotExact u.db rows := by
  cases h with
  | acquired => exact ⟨hI.snapshots, fun _ _ h => (nomatch h)⟩
  | crashed => exact ⟨hI.snapshots, fun _ _ h => (nomatch h)⟩
  | created h =>
      have hsnap : ∀ {rows}, SnapshotExact s.system.db rows → SnapshotExact _ rows :=
        fun hx => hx.createProperty h
      obtain ⟨_, _, _, rfl⟩ := createProperty_frame h
      exact ⟨fun r => hsnap (hI.snapshots r), fun r rows hpc => hsnap (hI.loaded r rows hpc)⟩
  | applied h =>
      have hsnap : ∀ {rows}, SnapshotExact s.system.db rows → SnapshotExact _ rows :=
        fun hx => hx.applyEffectiveBinSet h
      obtain ⟨_, _, _, rfl⟩ := applyEffectiveBinSet_frame h
      exact ⟨fun r => hsnap (hI.snapshots r), fun r rows hpc => hsnap (hI.loaded r rows hpc)⟩
  | @stepped a db' pc' h =>
      obtain ⟨hp, hb, hsnap⟩ := write_snapshot h.write
      refine ⟨fun r => ?_, fun r rows hpc => ?_⟩
      · rcases hsnap with e | ⟨runId, rows, hpc, e⟩
        · rw [e]
          exact (hI.snapshots r).mono hp hb
        · rw [e]
          by_cases er : r = runId
          · subst er
            rw [Function.update_self]
            exact (hI.loaded r rows hpc).mono hp hb
          · rw [Function.update_of_ne er]
            exact (hI.snapshots r).mono hp hb
      · obtain ⟨⟨db, pc⟩, publication⟩ := s
        cases hpc
        cases h with
        | versionsLoaded h => exact exact_of_snapshotReadHolds hok h
        | endRejected _ hp => rcases hp with hp | ⟨outcome, hp⟩ <;> cases hp

/-- An open publication sees what another transaction commits. -/
theorem ConcurrentInvariant.see {t : PublicationTransaction Row} {u : SystemState Row}
    {p : PropertyId} (hI : ConcurrentInvariant s) (hp : s.publication = some t)
    (hu : (∀ r, SnapshotExact u.db (u.db.snapshot r)) ∧
      ∀ r rows, u.executor = .snapshotLoaded r rows → SnapshotExact u.db rows)
    (hframe : IdentityFrame s.system.db u.db) :
    ConcurrentInvariant (⟨u, some (t.see u.db p)⟩ : ConcurrentState Row) where
  snapshots := hu.1
  loaded := hu.2
  sees t' h := by
    cases h
    obtain ⟨_, _, _, e⟩ := hframe
    have hs := hI.sees t hp
    exact ⟨rfl, rfl, by rw [e]; exact hs.snapshot, by rw [e]; exact hs.batches⟩
  locks t' h := by
    cases h
    exact hI.locks t hp
  covers t' h := by
    cases h
    exact hI.covers t hp

/-- **One event keeps the invariant.** -/
theorem concurrentInvariant_next {ev : ConcurrentEvent Row} (hI : ConcurrentInvariant s)
    (hok : SnapshotReadHolds s ev) (h : concurrentNext config service s ev = some s') :
    ConcurrentInvariant s' := by
  have ht := concurrentNext_turn h
  clear h
  cases ht with
  | alone h =>
      obtain ⟨hs, hl⟩ := hI.turn hok (next_turn h)
      exact .alone hs hl
  | @created t p input now u hp h =>
      have ht := next_turn h
      refine hI.see hp (hI.turn hok ht) ?_
      clear h
      cases ht with
      | created h => exact createProperty_frame h
  | @applied t p candidateBins u hp h =>
      have ht := next_turn h
      refine hI.see hp (hI.turn hok ht) ?_
      clear h
      cases ht with
      | applied h => exact applyEffectiveBinSet_frame h
  | opened =>
      refine ⟨hI.snapshots, hI.loaded, fun t h => ?_, fun t h => ?_, fun t h => ?_⟩
      · cases h; exact ⟨rfl, rfl, rfl, rfl⟩
      · cases h; trivial
      · cases h; trivial
  | stopped => exact .alone hI.snapshots fun _ _ h => (nomatch h)
  | @stated a t t' hp h =>
      have hs := hI.sees t hp
      refine ⟨hI.snapshots, hI.loaded, fun _ e => ?_, fun _ e => ?_, fun _ e => ?_⟩
      · cases e; exact h.sees hs
      · cases e
        refine h.locks (hI.locks t hp) fun row hrow => ?_
        rw [hs.properties]
        exact (hI.snapshots t.runId).known row (hs.snapshot ▸ hrow)
      · cases e; exact h.covers (hI.covers t hp)
  | @committed a t hp =>
      have hs := hI.sees t hp
      refine .alone (fun r => ?_) fun _ _ h => (nomatch h)
      have hx := hI.snapshots r
      rw [← hs.snapshot] at hx
      exact hx.mono hs.properties hs.propertyBins

/-- **CHECKED coverage is sound under concurrent identity updates**, in every run in which the BINs
read for a snapshot are still those of their properties when its versions are read: whenever a
statement of a publication sets the coverage of a property to CHECKED, the BINs the property has at
that moment are the BINs the snapshot of the run holds for it, the batches of the run have scanned
them, and no change of them can commit before the publication does. -/
theorem checked_bins_are_snapshot_bins
    (h : Steps (concurrentNext config service) SnapshotReadHolds .initial s)
    {t t' : PublicationTransaction Row} (hp : s.publication = some t) {answer : PublicationAnswer}
    (hs : t.statement answer = .ok t') {p : PropertyId} {c : PropertyDatasetCoverage}
    (hc : t'.view.coverage p = some c) (hchecked : c.status = .checked)
    (hset : t.view.coverage p ≠ some c) :
    (∀ bin, bin ∈ s.system.db.propertyBins p ↔
      ∃ row ∈ s.system.db.snapshot t.runId, row.propertyId = p ∧ row.bin = bin) ∧
      (∀ bin ∈ s.system.db.propertyBins p, bin ∈ s.system.db.processedBins t.runId) ∧
      ∀ candidateBins,
        concurrentNext config service s (.system (.applyEffectiveBinSet p candidateBins)) = none := by
  have hI : ConcurrentInvariant s :=
    h.invariant (fun hI hok hn => concurrentInvariant_next hI hok hn) concurrentInvariant_initial
  have hsees := hI.sees t hp
  obtain ⟨⟨acceptedAt, run, hpoint⟩, row, hrow, rfl, hv⟩ :=
    (statement_effect hs).versionMatches hc hchecked hset
  rw [hsees.snapshot] at hrow
  rw [hsees.properties] at hv
  have hbins := (hI.snapshots t.runId).bins row hrow hv
  have hcovers := hI.covers t hp
  have hlocks := hI.locks t hp
  simp only [PublicationTransaction.Covers, hpoint] at hcovers
  simp only [PublicationTransaction.Locks, hpoint, hsees.snapshot] at hlocks
  refine ⟨hbins, fun bin hb => ?_, fun candidateBins => ?_⟩
  · obtain ⟨row', hrow', -, rfl⟩ := (hbins bin).mp hb
    -- the batches cover the distinct BINs of the snapshot
    have hd : row'.bin ∈ (Db.distinctBins (t.view.snapshot t.runId)).toList :=
      SortedSet.mem_def.mp (SortedSet.mem_ofList.mpr
        (List.mem_map.mpr ⟨row', by rw [hsees.snapshot]; exact hrow', rfl⟩))
    rw [← hcovers.2, ← SortedSet.mem_def, SortedSet.mem_ofList, Db.processedBins,
      hsees.batches] at hd
    exact hd
  · simp only [concurrentNext, systemNext, hp, if_pos (hlocks row hrow)]

end Runs

/-! ### Alone -/

section Alone

variable {config : ExecutorConfig} {service : EcbRowService Row} {a : Answer Row}
  {s : ConcurrentState Row} {u : SystemState Row} {t t' : PublicationTransaction Row}

/-- The statements of a publication reach a point with nothing between them. -/
abbrev StatesAlone (config : ExecutorConfig) (service : EcbRowService Row) (a : Answer Row)
    (db : Db Row) (r : RunId) (t : PublicationTransaction Row) : Prop :=
  Steps (concurrentNext config service) (fun _ ev => ev = .publication a)
    ⟨⟨db, .readyForPublication r⟩, none⟩ ⟨⟨db, .readyForPublication r⟩, some t⟩

theorem StatesAlone.next {db : Db Row} {r : RunId} (h : StatesAlone config service a db r t)
    (hs : t.statement a.publication = .ok t') (hp : ∀ outcome, t.point ≠ .committing outcome) :
    StatesAlone config service a db r t' := by
  refine .tail h rfl ?_
  cases e : t.point with
  | committing outcome => exact absurd e (hp outcome)
  | _ => simp only [concurrentNext, publicationNext, e, hs]

/-- **With nothing between its statements a publication commits what it does as one transaction.** -/
theorem statements_publish {db db' : Db Row} {r : RunId} (hauth : a.authorized 0 = true)
    (h : db.publish a.publication r = (db', .ok .completed)) :
    Steps (concurrentNext config service) (fun _ ev => ev = .publication a)
      ⟨⟨db, .readyForPublication r⟩, none⟩ ⟨⟨db', .stopped .completed⟩, none⟩ := by
  have a₀ := authorized_of_publish_ok h
  have ht := Db.publish_ok h
  simp only [Db.acceptedTransaction, runStatement_bind_ok] at ht
  obtain ⟨s₀, ht⟩ := ht
  obtain ⟨run, hrun, ht⟩ := except_bind_ok.mp ht
  split at ht
  · cases ht
  rename_i hs
  simp only [assertAuthorized_bind_ok, runStatement_bind_ok] at ht
  obtain ⟨a₁, s₁, a₂, s₂, ht⟩ := ht
  obtain ⟨db₂, hcov, ht⟩ := except_bind_ok.mp ht
  simp only [assertAuthorized_bind_ok, runStatement_bind_ok] at ht
  obtain ⟨a₃, s₃, ht⟩ := ht
  obtain ⟨db₃, hdone, ht⟩ := except_bind_ok.mp ht
  obtain ⟨s₄, ht⟩ := runStatement_bind_ok.mp ht
  cases ht
  obtain ⟨⟨run', ps⟩, hvalid, hcov⟩ := except_bind_ok.mp hcov
  have opened : StatesAlone config service a db r (.begin db r) := by
    refine .one rfl ?_
    simp only [concurrentNext, publicationNext, hauth, assertAuthorized, a₀, if_true]
  have locked : StatesAlone config service a db r ⟨r, db, [], .promotingStaging⟩ := opened.next
    (by simp [PublicationTransaction.statement, PublicationTransaction.begin, runStatement, s₀,
      hrun, hs, bind, Except.bind]) (by simp [PublicationTransaction.begin])
  have staged : StatesAlone config service a db r ⟨r,
      db.promoteStaging r a.publication.currentTimestamp, [],
      .reconcilingAbsences a.publication.now a.publication.currentTimestamp⟩ := locked.next
    (by simp [PublicationTransaction.statement, assertAuthorized, a₁, runStatement, s₁, bind,
      Except.bind]) (by simp)
  have promoted : StatesAlone config service a db r ⟨r,
      db.promoteEcbLiveState r a.publication.currentTimestamp, [],
      .lockingProperties a.publication.now⟩ := staged.next
    (by simp [PublicationTransaction.statement, runStatement, s₁, bind, Except.bind,
      Db.promoteEcbLiveState]) (by simp)
  obtain ⟨ids, held⟩ : ∃ ids, StatesAlone config service a db r ⟨r,
      db.promoteEcbLiveState r a.publication.currentTimestamp, ids,
      .readingSnapshot a.publication.now⟩ :=
    ⟨_, promoted.next (by simp [PublicationTransaction.statement, assertAuthorized, a₂, runStatement,
      s₂, bind, Except.bind]; rfl) (by simp)⟩
  have covered : StatesAlone config service a db r
      ⟨r, db₂, ids, .completingRun a.publication.now⟩ := by
    cases ps with
    | nil =>
        simp only [List.isEmpty_nil, if_true, Except.ok.injEq] at hcov
        subst hcov
        exact held.next (by simp [PublicationTransaction.statement, runStatement, s₂, hvalid, bind,
          Except.bind]) (by simp)
    | cons p ps =>
        simp only [List.isEmpty_cons, Bool.false_eq_true, if_false, Except.ok.injEq] at hcov
        subst hcov
        have read : StatesAlone config service a db r ⟨r,
            db.promoteEcbLiveState r a.publication.currentTimestamp, ids,
            .upsertingChecked a.publication.now run'⟩ := held.next
          (by simp [PublicationTransaction.statement, runStatement, s₂, hvalid, bind, Except.bind])
          (by simp)
        have upserted : StatesAlone config service a db r ⟨r,
            (db.promoteEcbLiveState r a.publication.currentTimestamp).upsertCheckedCoverage r
              (run'.startedAt.getD 0) a.publication.now run'.sourceWatermarkAtEnd, ids,
            .upsertingIdentifiersChanged a.publication.now run'⟩ := read.next
          (by simp [PublicationTransaction.statement, runStatement, s₂, bind, Except.bind]) (by simp)
        exact upserted.next
          (by simp [PublicationTransaction.statement, runStatement, s₂, bind, Except.bind]) (by simp)
  have completed : StatesAlone config service a db r ⟨r, db', ids, .committing .completed⟩ :=
    covered.next (by simp [PublicationTransaction.statement, assertAuthorized, a₃, runStatement, s₃,
      s₄, hdone, bind, Except.bind]) (by simp)
  exact .tail completed rfl rfl

end Alone

/-! ### A torn snapshot -/

/-- A run over one property, up to the first statement of its snapshot. -/
def readingRun : List (ConcurrentEvent NormalizedEcbViolation) :=
  .system (createSample 0 "1000010001" "1000001") :: .system (.acquireLock .manual) ::
    List.replicate 4 (.system (.executor (quietAnswer 0 7 [sampleViolation])))

/-- Its rest, up to the statement that upserts CHECKED. -/
def publishingRun : List (ConcurrentEvent NormalizedEcbViolation) :=
  List.replicate 15 (.system (.executor (quietAnswer 0 7 [sampleViolation]))) ++
    List.replicate 6 (.publication (quietAnswer 0 7 []))

/-- Another BIN set, between the two statements of the snapshot. -/
def movedBin : ConcurrentEvent NormalizedEcbViolation :=
  .system (.applyEffectiveBinSet 0 ["1000002"])

/-- The CHECKED upsert of an open publication: what it sets the coverage of a property to. -/
def upsertedCoverage (s : ConcurrentState NormalizedEcbViolation) (p : PropertyId) :
    Option (PropertyDatasetCoverage × Option PropertyDatasetCoverage) :=
  s.publication.bind fun t =>
    match t.statement (quietAnswer 0 7 ([] : List NormalizedEcbViolation)).publication with
    | .ok t' => (t'.view.coverage p).map fun c => (c, t.view.coverage p)
    | .error _ => none

theorem exists_of_upsertedCoverage {s : ConcurrentState NormalizedEcbViolation} {p : PropertyId}
    {c : PropertyDatasetCoverage} {old : Option PropertyDatasetCoverage}
    (h : upsertedCoverage s p = some (c, old)) : ∃ t t' answer, s.publication = some t ∧
      t.statement answer = .ok t' ∧ t'.view.coverage p = some c ∧ t.view.coverage p = old := by
  obtain ⟨t, ht, h⟩ := Option.bind_eq_some_iff.mp h
  split at h
  · rename_i t' hs
    obtain ⟨c', hc, h⟩ := Option.map_eq_some_iff.mp h
    cases h
    exact ⟨t, t', _, ht, hs, hc, rfl⟩
  · cases h

theorem checked_bins_are_snapshot_bins_publishingRun : ∃ s t t' c answer,
    Steps (concurrentNext smallConfig plainService) SnapshotReadHolds .initial s ∧
    s.publication = some t ∧ t.statement answer = .ok t' ∧ t'.view.coverage 0 = some c ∧
    c.status = .checked ∧ (∀ bin, bin ∈ s.system.db.propertyBins 0 ↔
      ∃ row ∈ s.system.db.snapshot t.runId, row.propertyId = 0 ∧ row.bin = bin) ∧
      (∀ bin ∈ s.system.db.propertyBins 0, bin ∈ s.system.db.processedBins t.runId) ∧
      ∀ candidateBins, concurrentNext smallConfig plainService s
        (.system (.applyEffectiveBinSet 0 candidateBins)) = none := by
  have hs : ((Library.run (concurrentNext smallConfig plainService) .initial
      (readingRun ++ publishingRun)).bind fun s => (upsertedCoverage s 0).map fun r =>
        decide (r.1.status = .checked ∧ r.2 ≠ some r.1)) = some true := by decide +kernel
  obtain ⟨s, hrun, hs⟩ := Option.bind_eq_some_iff.mp hs
  obtain ⟨⟨c, old⟩, hu, hs⟩ := Option.map_eq_some_iff.mp hs
  obtain ⟨hchecked, hne⟩ := of_decide_eq_true hs
  obtain ⟨t, t', answer, hp, hst, hc, rfl⟩ := exists_of_upsertedCoverage hu
  have h : Steps (concurrentNext smallConfig plainService) SnapshotReadHolds .initial s :=
    run_steps (by decide +kernel : RunOk _ _ _ (readingRun ++ publishingRun)) hrun
  exact ⟨s, t, t', c, answer, h, hp, hst, hc, hchecked,
    checked_bins_are_snapshot_bins h hp hst hc hchecked hne⟩

/-- **A property that is CHECKED for a BIN nobody has scanned.**  Its BIN set is replaced between the
two statements of the snapshot, so that the snapshot holds the old BIN with the new version. -/
theorem torn_snapshot_checked : ∃ s t t' c answer bin,
    Library.run (concurrentNext smallConfig plainService) .initial
      (readingRun ++ movedBin :: publishingRun) = some s ∧
    s.publication = some t ∧ t.statement answer = .ok t' ∧ t'.view.coverage 0 = some c ∧
    c.status = .checked ∧ t.view.coverage 0 ≠ some c ∧ bin ∈ s.system.db.propertyBins 0 ∧
    ¬ ∃ row ∈ s.system.db.snapshot t.runId, row.propertyId = 0 ∧ row.bin = bin := by
  have hs : ((Library.run (concurrentNext smallConfig plainService) .initial
      (readingRun ++ movedBin :: publishingRun)).bind fun s =>
        (upsertedCoverage s 0).bind fun r => s.publication.map fun t =>
          decide (r.1.status = .checked ∧ r.2 ≠ some r.1 ∧
            ∃ bin ∈ (s.system.db.propertyBins 0).toList, ¬ ∃ row ∈ s.system.db.snapshot t.runId,
              row.propertyId = 0 ∧ row.bin = bin)) = some true := by decide +kernel
  obtain ⟨s, hrun, hs⟩ := Option.bind_eq_some_iff.mp hs
  obtain ⟨⟨c, old⟩, hu, hs⟩ := Option.bind_eq_some_iff.mp hs
  obtain ⟨t, t', answer, hp, hst, hc, rfl⟩ := exists_of_upsertedCoverage hu
  rw [hp, Option.map_some, Option.some.injEq] at hs
  obtain ⟨hchecked, hne, bin, hb, hn⟩ := of_decide_eq_true hs
  exact ⟨s, t, t', c, answer, bin, hrun, hp, hst, hc, hchecked, hne, hb, hn⟩

end NycPropertyResolver
