import NycPropertyResolver.Ingestion.Lifecycle
import NycPropertyResolver.Library.KeyedWrites

/-!
# Ingestion — the replay of source rows

`processRow` and `processPageRows` over the raw and the staging rows.  An attempt at a sequence of rows
stops at the first row that fails, and may be interrupted before any statement; the next attempt starts
over.  Every attempt executes a beginning of one list of statements (`pageWrites`), of which raw keeps
the first at a key and staging the last, so that a replay leaves the tables as one attempt does.  The
executor's machine takes these statements one by one (`rowsLeft_effect`).
-/

namespace NycPropertyResolver

open Library

variable {Row : Type}

/-! ### Rows and errors -/

/-- A row of a page, and the clock when it is processed. -/
structure FetchedRow (Row : Type) where
  row : Row
  fetchedAt : Time

/-- The values the columns hold: a statement with another one fails. -/
structure EcbColumns (Row : Type) where
  holdsRaw : EcbSourceIdentity → Row → Bool
  holdsStaging : NormalizedEcbViolation → Bool

/-- `EcbRowProcessingStage`: how far a row came. -/
inductive EcbRowProcessingStage where
  | transport
  | raw
  | normalization
  | staging
  deriving DecidableEq, Repr

/-- `EcbRowProcessingError`: why a row failed, how far it came, and whether its raw row stands. -/
structure EcbRowProcessingError where
  code : String
  message : String
  stage : EcbRowProcessingStage
  rawPersisted : Bool
  deriving DecidableEq, Repr

/-! ### Processing -/

section Processing

variable (service : EcbRowService Row) (columns : EcbColumns Row) (runId : RunId)

/-- `processRow`. -/
def Db.processRow (db : Db Row) (fetched : FetchedRow Row) :
    Db Row × Except EcbRowProcessingError NormalizedEcbViolation :=
  match service.extractEcbSourceIdentity fetched.row with
  | .error message => (db, .error ⟨"ECB_INVALID_TRANSPORT", message, .transport, false⟩)
  | .ok identity =>
    if columns.holdsRaw identity fetched.row then
      let db' := db.persistRaw runId identity fetched.row fetched.fetchedAt
      match service.normalizeEcbViolation fetched.row with
      | none =>
        (db', .error ⟨"ECB_NORMALIZATION_FAILED",
          "ECB row " ++ identity.sourceId ++ " failed strict validation or normalization",
          .normalization, true⟩)
      | some normalized =>
        if columns.holdsStaging normalized then
          (db'.upsertStaging runId normalized, .ok normalized)
        else
          (db', .error ⟨"ECB_STAGING_PERSISTENCE_FAILED",
            "Could not persist ECB staging candidate for " ++ normalized.sourceId, .staging, true⟩)
    else
      (db, .error ⟨"ECB_RAW_PERSISTENCE_FAILED",
        "Could not persist raw ECB source version for " ++ identity.sourceId, .raw, false⟩)

/-- `processPageRows`: the first row that fails ends it. -/
def Db.processPageRows : Db Row → List (FetchedRow Row) → Db Row × Except EcbRowProcessingError Unit
  | db, [] => (db, .ok ())
  | db, fetched :: rest =>
    match db.processRow service columns runId fetched with
    | (db', .error e) => (db', .error e)
    | (db', .ok _) => Db.processPageRows db' rest

end Processing

/-! ### Statements -/

/-- A statement on the raw or the staging table. -/
inductive RowWrite (Row : Type) where
  | raw (runId : RunId) (identity : EcbSourceIdentity) (row : Row) (fetchedAt : Time)
  | staging (runId : RunId) (normalized : NormalizedEcbViolation)

/-- One statement. -/
def Db.execute (db : Db Row) : RowWrite Row → Db Row
  | .raw runId identity row fetchedAt => db.persistRaw runId identity row fetchedAt
  | .staging runId normalized => db.upsertStaging runId normalized

/-- The statements, in order. -/
def Db.executeAll (db : Db Row) (writes : List (RowWrite Row)) : Db Row :=
  writes.foldl Db.execute db

/-- The statement on the raw table of a row that can be identified. -/
def rawWrite? (service : EcbRowService Row) (columns : EcbColumns Row) (runId : RunId)
    (fetched : FetchedRow Row) : Option (RowWrite Row) :=
  match service.extractEcbSourceIdentity fetched.row with
  | .error _ => none
  | .ok identity =>
    if columns.holdsRaw identity fetched.row then
      some (.raw runId identity fetched.row fetched.fetchedAt)
    else none

/-- The normalization of a row, where the staging table holds it. -/
def candidate? (service : EcbRowService Row) (columns : EcbColumns Row)
    (fetched : FetchedRow Row) : Option NormalizedEcbViolation :=
  (service.normalizeEcbViolation fetched.row).filter columns.holdsStaging

/-- The statements of a page, up to the row that fails. -/
def pageWrites (service : EcbRowService Row) (columns : EcbColumns Row) (runId : RunId) :
    List (FetchedRow Row) → List (RowWrite Row)
  | [] => []
  | fetched :: rest =>
    match rawWrite? service columns runId fetched, candidate? service columns fetched with
    | none, _ => []
    | some w, none => [w]
    | some w, some normalized =>
      w :: .staging runId normalized :: pageWrites service columns runId rest

/-- The raw row a statement writes. -/
def RowWrite.raw? : RowWrite Row → Option ((SourceId × Time) × EcbViolationRaw Row)
  | .raw runId identity row fetchedAt =>
    some ((identity.sourceId, identity.sourceRowUpdatedAt),
      { socrataRowId := identity.socrataRowId
        fetchedAt := fetchedAt
        firstSeenRunId := runId
        payload := row })
  | .staging _ _ => none

/-- The staging row of run `r` a statement writes. -/
def RowWrite.staging? (r : RunId) : RowWrite Row → Option (SourceId × NormalizedEcbViolation)
  | .raw _ _ _ _ => none
  | .staging runId normalized => if runId = r then some (normalized.sourceId, normalized) else none

/-! ### What statements leave -/

section Execution

variable {db : Db Row} {writes writes' : List (RowWrite Row)}

theorem executeAll_append : db.executeAll (writes ++ writes') =
    (db.executeAll writes).executeAll writes' :=
  List.foldl_append

theorem raw_persistRaw {runId : RunId} {identity : EcbSourceIdentity} {row : Row} {t : Time} :
    (db.persistRaw runId identity row t).raw =
      db.raw.keep (identity.sourceId, identity.sourceRowUpdatedAt)
        { socrataRowId := identity.socrataRowId
          fetchedAt := t
          firstSeenRunId := runId
          payload := row } := by
  cases hrow : db.raw.find (identity.sourceId, identity.sourceRowUpdatedAt) with
  | none => simp only [Db.persistRaw, Table.keep, hrow]
  | some version => simp only [Db.persistRaw, Table.keep, hrow]

theorem execute_frame (db : Db Row) (w : RowWrite Row) :
    ∃ raw staging, db.execute w = { db with raw := raw, staging := staging } := by
  cases w with
  | raw runId identity row t =>
      obtain ⟨raw, hraw⟩ : ∃ raw, db.persistRaw runId identity row t = { db with raw := raw } :=
        Db.persistRaw_eq db
      exact ⟨raw, db.staging, hraw⟩
  | staging runId normalized => exact ⟨db.raw, _, rfl⟩

/-- Only the raw and the staging rows differ. -/
theorem executeAll_frame (db : Db Row) (writes : List (RowWrite Row)) :
    ∃ raw staging, db.executeAll writes = { db with raw := raw, staging := staging } := by
  induction writes generalizing db with
  | nil => exact ⟨db.raw, db.staging, rfl⟩
  | cons w writes ih =>
      obtain ⟨raw₁, staging₁, hw⟩ := execute_frame db w
      obtain ⟨raw, staging, hws⟩ := ih (db.execute w)
      refine ⟨raw, staging, ?_⟩
      show (db.execute w).executeAll writes = _
      rw [hws, hw]

theorem raw_executeAll : (db.executeAll writes).raw =
    (writes.filterMap RowWrite.raw?).foldl (fun t w => t.keep w.1 w.2) db.raw := by
  induction writes generalizing db with
  | nil => rfl
  | cons w writes ih =>
      show ((db.execute w).executeAll writes).raw = _
      rw [ih]
      cases w with
      | raw runId identity row t => rw [Db.execute, raw_persistRaw]; rfl
      | staging runId normalized => rfl

theorem staging_executeAll {r : RunId} : (db.executeAll writes).staging r =
    (writes.filterMap (RowWrite.staging? r)).foldl (fun t w => t.set w.1 w.2) (db.staging r) := by
  induction writes generalizing db with
  | nil => rfl
  | cons w writes ih =>
      show ((db.execute w).executeAll writes).staging r = _
      rw [ih]
      cases w with
      | raw runId identity row t =>
          obtain ⟨raw, hraw⟩ : ∃ raw, db.persistRaw runId identity row t = { db with raw := raw } :=
            Db.persistRaw_eq db
          simp only [List.filterMap_cons, RowWrite.staging?, Db.execute, hraw]
      | staging runId normalized =>
          by_cases hr : runId = r
          · subst hr
            simp only [List.filterMap_cons, RowWrite.staging?, if_pos, List.foldl_cons, Db.execute,
              Db.upsertStaging, Function.update_self]
          · simp only [List.filterMap_cons, RowWrite.staging?, if_neg hr, Db.execute,
              Db.staging_upsertStaging_ne (Ne.symm hr)]

/-- **Raw keeps the first statement at a key.** -/
theorem find_raw_executeAll {k : SourceId × Time} :
    (db.executeAll writes).raw.find k =
      (db.raw.find k).or (firstAt k (writes.filterMap RowWrite.raw?)) := by
  rw [raw_executeAll, Table.find_foldl_keepAt]

/-- **Staging keeps the last statement at a key.** -/
theorem find_staging_executeAll {r : RunId} {sourceId : SourceId} :
    ((db.executeAll writes).staging r).find sourceId =
      (lastAt sourceId (writes.filterMap (RowWrite.staging? r))).or
        ((db.staging r).find sourceId) := by
  rw [staging_executeAll, Table.find_foldl_setAt]

end Execution

/-! ### Attempts -/

section Attempts

variable (service : EcbRowService Row) (columns : EcbColumns Row)

/-- A row whose processing does not fail. -/
def succeeds (fetched : FetchedRow Row) : Bool :=
  (rawWrite? service columns 0 fetched).isSome && (candidate? service columns fetched).isSome

/-- The rows whose processing begins: up to the first that fails. -/
def begunRows : List (FetchedRow Row) → List (FetchedRow Row)
  | [] => []
  | fetched :: rest => fetched :: if succeeds service columns fetched then begunRows rest else []

/-- An attempt of a run at a sequence of rows, which ends before the rows do: after `rows`, or between
the two statements of `half`. -/
structure RowAttempt (Row : Type) where
  runId : RunId
  rows : List (FetchedRow Row)
  half : Option (FetchedRow Row)

/-- The rows an attempt reads. -/
def RowAttempt.fetched (attempt : RowAttempt Row) : List (FetchedRow Row) :=
  attempt.rows ++ attempt.half.toList

/-- An attempt that is interrupted. -/
def Db.interruptedAttempt (db : Db Row) (attempt : RowAttempt Row) : Db Row :=
  match db.processPageRows service columns attempt.runId attempt.rows with
  | (db', .error _) => db'
  | (db', .ok ()) =>
    match attempt.half.bind (rawWrite? service columns attempt.runId) with
    | some w => db'.execute w
    | none => db'

/-- The statements of an attempt. -/
def RowAttempt.writes (attempt : RowAttempt Row) : List (RowWrite Row) :=
  pageWrites service columns attempt.runId attempt.rows ++
    if attempt.rows.all (succeeds service columns) then
      (attempt.half.bind (rawWrite? service columns attempt.runId)).toList
    else []

end Attempts

section Attempts

variable {service : EcbRowService Row} {columns : EcbColumns Row} {runId : RunId} {db : Db Row}
  {fetched : FetchedRow Row} {rows rows' : List (FetchedRow Row)}

/-- The run of the statement decides nothing. -/
theorem isSome_rawWrite (runId : RunId) : (rawWrite? service columns runId fetched).isSome =
    (rawWrite? service columns 0 fetched).isSome := by
  unfold rawWrite?
  split
  · rfl
  · split
    · rfl
    · rfl

/-- **What `processRow` does.** -/
theorem processRow_cases (service : EcbRowService Row) (columns : EcbColumns Row) (runId : RunId)
    (db : Db Row) (fetched : FetchedRow Row) :
    (rawWrite? service columns runId fetched = none ∧
      ∃ e, db.processRow service columns runId fetched = (db, .error e) ∧ e.rawPersisted = false) ∨
    (∃ w, rawWrite? service columns runId fetched = some w ∧
      candidate? service columns fetched = none ∧
      ∃ e, db.processRow service columns runId fetched = (db.execute w, .error e) ∧
        e.rawPersisted = true) ∨
    ∃ w normalized, rawWrite? service columns runId fetched = some w ∧
      candidate? service columns fetched = some normalized ∧
      db.processRow service columns runId fetched =
        ((db.execute w).execute (.staging runId normalized), .ok normalized) := by
  unfold Db.processRow rawWrite? candidate?
  cases service.extractEcbSourceIdentity fetched.row with
  | error message => exact .inl ⟨rfl, _, rfl, rfl⟩
  | ok identity =>
      by_cases hraw : columns.holdsRaw identity fetched.row = true
      · simp only [hraw, if_true]
        cases service.normalizeEcbViolation fetched.row with
        | none => exact .inr (.inl ⟨_, rfl, rfl, _, rfl, rfl⟩)
        | some normalized =>
            by_cases hstaging : columns.holdsStaging normalized = true
            · simp only [hstaging, if_true]
              exact .inr (.inr ⟨_, normalized, rfl, by simp [hstaging], rfl⟩)
            · simp only [hstaging]
              exact .inr (.inl ⟨_, rfl, by simp [hstaging], _, rfl, rfl⟩)
      · simp only [hraw]
        exact .inl ⟨rfl, _, rfl, rfl⟩

theorem succeeds_iff : succeeds service columns fetched = true ↔
    (∃ w, rawWrite? service columns runId fetched = some w) ∧
      ∃ normalized, candidate? service columns fetched = some normalized := by
  rw [succeeds, Bool.and_eq_true, ← isSome_rawWrite runId, Option.isSome_iff_exists,
    Option.isSome_iff_exists]

theorem not_succeeds_of_raw (h : rawWrite? service columns runId fetched = none) :
    succeeds service columns fetched = false := by
  rw [succeeds, ← isSome_rawWrite runId, h]
  rfl

theorem not_succeeds_of_candidate (h : candidate? service columns fetched = none) :
    succeeds service columns fetched = false := by
  rw [succeeds, h]
  exact Bool.and_false _

/-- **`processPageRows` executes the statements of the page.** -/
theorem processPageRows_eq (service : EcbRowService Row) (columns : EcbColumns Row) (runId : RunId)
    (db : Db Row) (rows : List (FetchedRow Row)) :
    (db.processPageRows service columns runId rows).1 =
      db.executeAll (pageWrites service columns runId rows) ∧
    ((db.processPageRows service columns runId rows).2 = .ok () ↔
      rows.all (succeeds service columns) = true) := by
  induction rows generalizing db with
  | nil => exact ⟨rfl, by simp [Db.processPageRows]⟩
  | cons fetched rest ih =>
      rcases processRow_cases service columns runId db fetched with
        ⟨hraw, e, hrow, -⟩ | ⟨w, hraw, hcandidate, e, hrow, -⟩ | ⟨w, normalized, hraw, hcandidate, hrow⟩
      · simp [Db.processPageRows, pageWrites, hrow, hraw, not_succeeds_of_raw hraw, Db.executeAll]
      · simp [Db.processPageRows, pageWrites, hrow, hraw, hcandidate,
          not_succeeds_of_candidate hcandidate, Db.executeAll]
      · have hs : succeeds service columns fetched = true :=
          succeeds_iff.mpr ⟨⟨w, hraw⟩, normalized, hcandidate⟩
        obtain ⟨ih₁, ih₂⟩ := ih ((db.execute w).execute (.staging runId normalized))
        simp only [Db.processPageRows, pageWrites, hrow, hraw, hcandidate, List.all_cons, hs,
          Bool.true_and]
        exact ⟨ih₁, ih₂⟩

/-- The statements of a longer page. -/
theorem pageWrites_append : pageWrites service columns runId (rows ++ rows') =
    pageWrites service columns runId rows ++
      if rows.all (succeeds service columns) then pageWrites service columns runId rows' else [] := by
  induction rows with
  | nil => simp [pageWrites]
  | cons fetched rest ih =>
      cases hraw : rawWrite? service columns runId fetched with
      | none => simp [pageWrites, hraw, not_succeeds_of_raw hraw]
      | some w =>
          cases hcandidate : candidate? service columns fetched with
          | none => simp [pageWrites, hraw, hcandidate, not_succeeds_of_candidate hcandidate]
          | some normalized =>
              have hs : succeeds service columns fetched = true :=
                succeeds_iff.mpr ⟨⟨w, hraw⟩, normalized, hcandidate⟩
              simp [pageWrites, hraw, hcandidate, hs, ih]

/-- The statement on the raw table comes first. -/
theorem rawWrite_first : (rawWrite? service columns runId fetched).toList <+:
    pageWrites service columns runId (fetched :: rows) := by
  cases hraw : rawWrite? service columns runId fetched with
  | none => exact List.nil_prefix
  | some w =>
      cases hcandidate : candidate? service columns fetched with
      | none => simp [pageWrites, hraw, hcandidate]
      | some normalized => simp [pageWrites, hraw, hcandidate]

/-- **An attempt begins the statements of every page that begins with its rows.** -/
theorem RowAttempt.writes_begin (attempt : RowAttempt Row) (rest : List (FetchedRow Row)) :
    attempt.writes service columns <+:
      pageWrites service columns attempt.runId (attempt.fetched ++ rest) := by
  rw [RowAttempt.writes, RowAttempt.fetched, List.append_assoc, pageWrites_append]
  refine List.prefix_append_right_inj _ |>.mpr ?_
  by_cases hall : attempt.rows.all (succeeds service columns) = true
  · rw [if_pos hall, if_pos hall]
    cases attempt.half with
    | none => exact List.nil_prefix
    | some fetched => exact rawWrite_first
  · rw [if_neg hall]
    exact List.nil_prefix

theorem interruptedAttempt_eq (db : Db Row) (attempt : RowAttempt Row) :
    db.interruptedAttempt service columns attempt =
      db.executeAll (attempt.writes service columns) := by
  obtain ⟨hdb, hok⟩ := processPageRows_eq service columns attempt.runId db attempt.rows
  rw [Db.interruptedAttempt, RowAttempt.writes, executeAll_append, ← hdb]
  cases hpage : db.processPageRows service columns attempt.runId attempt.rows with
  | mk db' r =>
      rw [hpage] at hok
      cases r with
      | error e =>
          have hall : ¬ attempt.rows.all (succeeds service columns) = true :=
            fun h => by cases hok.mpr h
          rw [if_neg hall]
          rfl
      | ok u =>
          rw [if_pos (hok.mp rfl)]
          cases attempt.half.bind (rawWrite? service columns attempt.runId) with
          | none => rfl
          | some w => rfl

/-- Attempts, one after the other. -/
theorem foldl_interruptedAttempt (db : Db Row) (history : List (RowAttempt Row)) :
    history.foldl (fun db attempt => db.interruptedAttempt service columns attempt) db =
      db.executeAll (history.flatMap fun attempt => attempt.writes service columns) := by
  induction history generalizing db with
  | nil => rfl
  | cons attempt history ih =>
      rw [List.foldl_cons, ih, interruptedAttempt_eq, List.flatMap_cons, executeAll_append]

end Attempts

/-! ### Up to timestamps -/

/-- A raw row without its timestamp. -/
def EcbViolationRaw.undated (version : EcbViolationRaw Row) : EcbViolationRaw Row :=
  { version with fetchedAt := 0 }

/-- A statement without its timestamp. -/
def RowWrite.undated : RowWrite Row → RowWrite Row
  | .raw runId identity row _ => .raw runId identity row 0
  | .staging runId normalized => .staging runId normalized

/-- **The same rows, up to timestamps**, in two databases that differ in nothing else. -/
structure SameRows (db db' : Db Row) : Prop where
  raw : ∀ k, (db.raw.find k).map EcbViolationRaw.undated =
    (db'.raw.find k).map EcbViolationRaw.undated
  staging : ∀ r sourceId, (db.staging r).find sourceId = (db'.staging r).find sourceId
  frame : ∃ raw staging, db' = { db with raw := raw, staging := staging }

section Undated

variable {service : EcbRowService Row} {columns : EcbColumns Row} {runId : RunId} {db : Db Row}
  {fetched : FetchedRow Row} {rows rows' : List (FetchedRow Row)} {writes writes' : List (RowWrite Row)}

theorem filterMap_raw_undated : (writes.map RowWrite.undated).filterMap RowWrite.raw? =
    (writes.filterMap RowWrite.raw?).map fun w => (w.1, w.2.undated) := by
  induction writes with
  | nil => rfl
  | cons w writes ih =>
      cases w with
      | raw _ _ _ _ => simp [RowWrite.undated, RowWrite.raw?, EcbViolationRaw.undated, ih]
      | staging _ _ => simp [RowWrite.undated, RowWrite.raw?, List.filterMap_cons, ih]

theorem filterMap_staging_undated {r : RunId} :
    (writes.map RowWrite.undated).filterMap (RowWrite.staging? r) =
      writes.filterMap (RowWrite.staging? r) := by
  induction writes with
  | nil => rfl
  | cons w writes ih =>
      cases w with
      | raw _ _ _ _ => simp [RowWrite.undated, RowWrite.staging?, List.filterMap_cons, ih]
      | staging _ _ => simp [RowWrite.undated, RowWrite.staging?, ih, List.filterMap_cons]

/-- The clock decides no statement. -/
theorem pageWrites_undated : (pageWrites service columns runId rows).map RowWrite.undated =
    pageWrites service columns runId ((rows.map (·.row)).map fun row => ⟨row, 0⟩) := by
  induction rows with
  | nil => rfl
  | cons fetched rest ih =>
      have hraw : rawWrite? service columns runId ⟨fetched.row, 0⟩ =
          (rawWrite? service columns runId fetched).map RowWrite.undated := by
        unfold rawWrite?
        cases service.extractEcbSourceIdentity fetched.row with
        | error message => rfl
        | ok identity =>
            simp only
            split
            · rfl
            · rfl
      have hcandidate : candidate? service columns ⟨fetched.row, 0⟩ =
          candidate? service columns fetched := rfl
      simp only [List.map_cons, pageWrites, hraw, hcandidate, ← ih]
      cases rawWrite? service columns runId fetched with
      | none => rfl
      | some w =>
          cases candidate? service columns fetched with
          | none => rfl
          | some normalized => rfl

theorem pageWrites_congr (h : rows.map (·.row) = rows'.map (·.row)) :
    (pageWrites service columns runId rows).map RowWrite.undated =
      (pageWrites service columns runId rows').map RowWrite.undated := by
  rw [pageWrites_undated, pageWrites_undated, h]

/-- **Statements that are begun any number of times**, and then executed to the end, leave what they
leave when they are executed once. -/
theorem sameRows_replay {attempts : List (List (RowWrite Row))}
    (hbegun : ∀ begun ∈ attempts, begun.map RowWrite.undated <+: writes.map RowWrite.undated)
    (hsame : writes'.map RowWrite.undated = writes.map RowWrite.undated) :
    SameRows ((db.executeAll attempts.flatten).executeAll writes) (db.executeAll writes') := by
  refine ⟨fun k => ?_, fun r sourceId => ?_, ?_⟩
  · have key : ∀ ws : List (RowWrite Row), ((db.executeAll ws).raw.find k).map
        EcbViolationRaw.undated = ((db.raw.find k).map EcbViolationRaw.undated).or
          (firstAt k ((ws.map RowWrite.undated).filterMap RowWrite.raw?)) := by
      intro ws
      rw [find_raw_executeAll, Option.map_or, filterMap_raw_undated, firstAt_map]
    rw [← executeAll_append, key, key, hsame, List.map_append, List.filterMap_append,
      List.map_flatten, List.filterMap_flatten, firstAt_replay]
    intro begun hmem
    simp only [List.mem_map, exists_exists_and_eq_and] at hmem
    obtain ⟨ws, hws, rfl⟩ := hmem
    exact (hbegun ws hws).filterMap _
  · have key : ∀ ws : List (RowWrite Row), ((db.executeAll ws).staging r).find sourceId =
        (lastAt sourceId ((ws.map RowWrite.undated).filterMap (RowWrite.staging? r))).or
          ((db.staging r).find sourceId) := by
      intro ws
      rw [find_staging_executeAll, filterMap_staging_undated]
    rw [← executeAll_append, key, key, hsame, List.map_append, List.filterMap_append,
      List.map_flatten, List.filterMap_flatten, lastAt_replay]
    intro begun hmem
    simp only [List.mem_map, exists_exists_and_eq_and] at hmem
    obtain ⟨ws, hws, rfl⟩ := hmem
    exact (hbegun ws hws).filterMap _
  · obtain ⟨raw, staging, hdb⟩ := executeAll_frame db (attempts.flatten ++ writes)
    obtain ⟨raw', staging', hdb'⟩ := executeAll_frame db writes'
    refine ⟨raw', staging', ?_⟩
    rw [← executeAll_append, hdb, hdb']

end Undated

/-! ### Processed rows -/

section Processed

variable (service : EcbRowService Row) (columns : EcbColumns Row)

/-- The rows an attempt processes: up to the first that fails, and then the interrupted one. -/
def RowAttempt.processed (attempt : RowAttempt Row) : List (FetchedRow Row) :=
  begunRows service columns attempt.rows ++
    if attempt.rows.all (succeeds service columns) then attempt.half.toList else []

/-- The raw evidence of a processed row. -/
def evidence? (runId : RunId) (fetched : FetchedRow Row) :
    Option ((SourceId × Time) × EcbViolationRaw Row) :=
  (rawWrite? service columns runId fetched).bind RowWrite.raw?

/-- The normalization of a processed row that does not fail. -/
def validRow? (fetched : FetchedRow Row) : Option (SourceId × NormalizedEcbViolation) :=
  if succeeds service columns fetched then
    (candidate? service columns fetched).map fun normalized => (normalized.sourceId, normalized)
  else none

/-- The raw evidence of attempts, in the order it is added. -/
def rawEvidence (history : List (RowAttempt Row)) : List ((SourceId × Time) × EcbViolationRaw Row) :=
  history.flatMap fun attempt =>
    (attempt.processed service columns).filterMap (evidence? service columns attempt.runId)

/-- The normalizations of the valid rows that the attempts of run `r` process to the end. -/
def validRows (r : RunId) (history : List (RowAttempt Row)) :
    List (SourceId × NormalizedEcbViolation) :=
  (history.filter (·.runId = r)).flatMap fun attempt =>
    (begunRows service columns attempt.rows).filterMap (validRow? service columns)

end Processed

section Processed

variable {service : EcbRowService Row} {columns : EcbColumns Row} {runId r : RunId}
  {rows : List (FetchedRow Row)}

theorem evidence_pageWrites : (pageWrites service columns runId rows).filterMap RowWrite.raw? =
    (begunRows service columns rows).filterMap (evidence? service columns runId) := by
  induction rows with
  | nil => rfl
  | cons fetched rest ih =>
      cases hraw : rawWrite? service columns runId fetched with
      | none =>
          simp [pageWrites, begunRows, evidence?, hraw, not_succeeds_of_raw hraw]
      | some w =>
          cases hcandidate : candidate? service columns fetched with
          | none =>
              simp [pageWrites, begunRows, evidence?, hraw, hcandidate, List.filterMap_cons,
                not_succeeds_of_candidate hcandidate]
          | some normalized =>
              have hs : succeeds service columns fetched = true :=
                succeeds_iff.mpr ⟨⟨w, hraw⟩, normalized, hcandidate⟩
              have hstaging : (RowWrite.staging runId normalized : RowWrite Row).raw? = none := rfl
              simp [pageWrites, begunRows, evidence?, hraw, hcandidate, hs, List.filterMap_cons,
                hstaging, ih]

/-- The statement on the raw table writes no staging row. -/
theorem staging_rawWrite {fetched : FetchedRow Row} {w : RowWrite Row}
    (h : rawWrite? service columns runId fetched = some w) : w.staging? r = none := by
  unfold rawWrite? at h
  split at h
  · cases h
  · split at h
    · cases h; rfl
    · cases h

theorem validRows_pageWrites :
    (pageWrites service columns runId rows).filterMap (RowWrite.staging? r) =
      if runId = r then (begunRows service columns rows).filterMap (validRow? service columns)
      else [] := by
  induction rows with
  | nil => simp [pageWrites, begunRows]
  | cons fetched rest ih =>
      cases hraw : rawWrite? service columns runId fetched with
      | none =>
          simp [pageWrites, begunRows, validRow?, hraw, not_succeeds_of_raw hraw]
      | some w =>
          have hw : w.staging? r = none := staging_rawWrite hraw
          cases hcandidate : candidate? service columns fetched with
          | none =>
              simp [pageWrites, begunRows, validRow?, hraw, hcandidate, hw,
                not_succeeds_of_candidate hcandidate]
          | some normalized =>
              have hs : succeeds service columns fetched = true :=
                succeeds_iff.mpr ⟨⟨w, hraw⟩, normalized, hcandidate⟩
              by_cases hr : runId = r
              · subst hr
                have hstaged : (RowWrite.staging runId normalized : RowWrite Row).staging? runId =
                    some (normalized.sourceId, normalized) := if_pos rfl
                simp [pageWrites, begunRows, validRow?, hraw, hcandidate, hs, hw, hstaged, ih]
              · have hstaged : (RowWrite.staging runId normalized : RowWrite Row).staging? r = none :=
                  if_neg hr
                simp [pageWrites, hraw, hcandidate, hw, hstaged, hr, ih]

/-- The raw evidence of an attempt is what its statements write. -/
theorem evidence_writes (attempt : RowAttempt Row) :
    (attempt.writes service columns).filterMap RowWrite.raw? =
      (attempt.processed service columns).filterMap
        (evidence? service columns attempt.runId) := by
  rw [RowAttempt.writes, RowAttempt.processed, List.filterMap_append, List.filterMap_append,
    evidence_pageWrites]
  refine congrArg _ ?_
  by_cases hall : attempt.rows.all (succeeds service columns) = true
  · rw [if_pos hall, if_pos hall]
    cases attempt.half with
    | none => rfl
    | some fetched =>
        cases hraw : rawWrite? service columns attempt.runId fetched with
        | none => simp [evidence?, hraw]
        | some w => simp [evidence?, hraw, List.filterMap_cons]
  · rw [if_neg hall, if_neg hall]
    rfl

theorem validRows_writes (attempt : RowAttempt Row) :
    (attempt.writes service columns).filterMap (RowWrite.staging? r) =
      if attempt.runId = r then
        (begunRows service columns attempt.rows).filterMap (validRow? service columns)
      else [] := by
  have hhalf : (if attempt.rows.all (succeeds service columns) then
      (attempt.half.bind (rawWrite? service columns attempt.runId)).toList
      else []).filterMap (RowWrite.staging? r) = [] := by
    split
    · cases hraw : attempt.half.bind (rawWrite? service columns attempt.runId) with
      | none => rfl
      | some w =>
          obtain ⟨fetched, -, hw⟩ := Option.bind_eq_some_iff.mp hraw
          simp [staging_rawWrite hw]
    · rfl
  rw [RowAttempt.writes, List.filterMap_append, hhalf, List.append_nil, validRows_pageWrites]

theorem rawEvidence_eq (history : List (RowAttempt Row)) :
    (history.flatMap fun attempt => attempt.writes service columns).filterMap RowWrite.raw? =
      rawEvidence service columns history := by
  induction history with
  | nil => rfl
  | cons attempt history ih =>
      rw [List.flatMap_cons, List.filterMap_append, ih, evidence_writes, rawEvidence, rawEvidence,
        List.flatMap_cons]

theorem validRows_eq (history : List (RowAttempt Row)) :
    (history.flatMap fun attempt => attempt.writes service columns).filterMap
      (RowWrite.staging? r) = validRows service columns r history := by
  induction history with
  | nil => rfl
  | cons attempt history ih =>
      rw [List.flatMap_cons, List.filterMap_append, ih, validRows_writes, validRows, validRows]
      by_cases hr : attempt.runId = r
      · simp [hr]
      · simp [hr]

/-- A row that fails normalization is raw evidence where it can be identified, and no more. -/
theorem processRow_not_normalized {db : Db Row} {fetched : FetchedRow Row}
    (h : service.normalizeEcbViolation fetched.row = none) :
    (db.processRow service columns runId fetched).1.staging = db.staging ∧
      ∀ identity, service.extractEcbSourceIdentity fetched.row = .ok identity →
        columns.holdsRaw identity fetched.row = true →
        (db.processRow service columns runId fetched).1 =
          db.persistRaw runId identity fetched.row fetched.fetchedAt := by
  unfold Db.processRow
  cases service.extractEcbSourceIdentity fetched.row with
  | error message => exact ⟨rfl, nofun⟩
  | ok identity =>
      by_cases hraw : columns.holdsRaw identity fetched.row = true
      · simp only [hraw, if_true, h]
        obtain ⟨raw, hdb⟩ : ∃ raw, db.persistRaw runId identity fetched.row fetched.fetchedAt =
          { db with raw := raw } := Db.persistRaw_eq db
        refine ⟨by rw [hdb], fun identity' he _ => ?_⟩
        cases he
        rfl
      · simp only [hraw]
        refine ⟨rfl, fun identity' he hraw' => ?_⟩
        cases he
        exact absurd hraw' hraw

end Processed

/-! ### The executor -/

/-- Every value is held: what a statement of the executor does otherwise is its answer. -/
def EcbColumns.all : EcbColumns Row := ⟨fun _ _ => true, fun _ => true⟩

/-- The statements a state has left in its page. -/
def ExecutorState.rowsLeft (service : EcbRowService Row) :
    ExecutorState Row → Option (List (RowWrite Row))
  | .processingRows attempt _ remaining =>
    some (pageWrites service .all attempt.runId (remaining.map (FetchedRow.mk · 0)))
  | .stagingRow attempt _ row _ remaining =>
    some (pageWrites service .all attempt.runId ((row :: remaining).map (FetchedRow.mk · 0))).tail
  | _ => none

section Executor

variable {config : ExecutorConfig} {service : EcbRowService Row} {a : Answer Row} {db db' : Db Row}
  {pc pc' : ExecutorState Row} {left left' : List (RowWrite Row)}

/-- The row between its two statements can be identified. -/
def Identified (service : EcbRowService Row) (pc : ExecutorState Row) : Prop :=
  ∀ attempt page row sourceId remaining, pc = .stagingRow attempt page row sourceId remaining →
    ∃ identity, service.extractEcbSourceIdentity row = .ok identity

theorem identified_effect (h : Effect config service a db pc db' pc') : Identified service pc' := by
  intro attempt page row sourceId remaining hpc
  cases h with
  | rawPersisted hidentity => cases hpc; exact ⟨_, hidentity⟩
  | endRejected _ hp => rcases hp with rfl | ⟨outcome, rfl⟩ <;> cases hpc
  | _ => cases hpc

/-- **The executor takes the statements of a page in their order**: a step inside a page executes the
next one. -/
theorem rowsLeft_effect (hpage : Identified service pc)
    (h : Effect config service a db pc db' pc') (hleft : pc.rowsLeft service = some left)
    (hleft' : pc'.rowsLeft service = some left') :
    ∃ w, left = w.undated :: left' ∧ db' = db.execute w := by
  cases h with
  | @rawPersisted attempt page rest row identity hidentity =>
      cases hleft
      cases hleft'
      refine ⟨.raw attempt.runId identity row a.now, ?_, rfl⟩
      have hraw : rawWrite? service .all attempt.runId ⟨row, 0⟩ =
          some (.raw attempt.runId identity row 0) := by
        simp [rawWrite?, hidentity, EcbColumns.all]
      simp only [List.map_cons, pageWrites, hraw, RowWrite.undated]
      cases candidate? service .all (⟨row, 0⟩ : FetchedRow Row) with
      | none => rfl
      | some normalized => rfl
  | @rowStaged attempt page rest row sourceId normalized hnormalized =>
      cases hleft
      cases hleft'
      refine ⟨.staging attempt.runId normalized, ?_, rfl⟩
      obtain ⟨identity, hidentity⟩ := hpage _ _ _ _ _ rfl
      have hraw : rawWrite? service .all attempt.runId ⟨row, 0⟩ =
          some (.raw attempt.runId identity row 0) := by
        simp [rawWrite?, hidentity, EcbColumns.all]
      have hcandidate : candidate? service .all (⟨row, 0⟩ : FetchedRow Row) = some normalized := by
        simp [candidate?, hnormalized, EcbColumns.all]
      simp only [List.map_cons, pageWrites, hraw, hcandidate, List.tail_cons, RowWrite.undated]
  | endRejected => cases hleft
  | attemptThrew => cases hleft'
  | stop => cases hleft'
  | lastPage => cases hleft'
  | pageLimit => cases hleft'
  | nextPage => cases hleft'
  | _ => cases hleft

/-- An event inside a page: a step of the executor, or a transaction on a property. -/
def InPage (service : EcbRowService Row) (s : SystemState Row) (ev : Event Row) : Prop :=
  (s.executor.rowsLeft service).isSome = true ∧
    ((∃ answer, ev = .executor answer) ∨ ev.OnProperty)

/-- **Wherever an execution stops inside a page, it has executed a beginning of its statements.** -/
theorem page_executes {s s' : SystemState Row} {attempt : BatchAttempt} {page rows : List Row}
    (hs : s.executor = .processingRows attempt page rows)
    (h : Steps (next config service) (InPage service) s s')
    (hleft : s'.executor.rowsLeft service = some left) :
    ∃ writes : List (RowWrite Row), writes.map RowWrite.undated ++ left =
        pageWrites service .all attempt.runId (rows.map (FetchedRow.mk · 0)) ∧
      s'.db.raw = (s.db.executeAll writes).raw ∧
      s'.db.staging = (s.db.executeAll writes).staging := by
  refine (h.invariant (I := fun t => Identified service t.executor ∧
    ∀ left, t.executor.rowsLeft service = some left →
      ∃ writes : List (RowWrite Row), writes.map RowWrite.undated ++ left =
          pageWrites service .all attempt.runId (rows.map (FetchedRow.mk · 0)) ∧
        t.db.raw = (s.db.executeAll writes).raw ∧
        t.db.staging = (s.db.executeAll writes).staging) ?_ ?_).2 left hleft
  · rintro t u ev ⟨hidentified, hI⟩ ⟨hin, hev⟩ hu
    obtain ⟨before, hbefore⟩ := Option.isSome_iff_exists.mp hin
    obtain ⟨writes, hwrites, hraw, hstaging⟩ := hI before hbefore
    cases next_turn hu with
    | @stepped answer db' pc' he =>
        refine ⟨identified_effect he, fun left hleft => ?_⟩
        obtain ⟨w, rfl, hdb⟩ := rowsLeft_effect hidentified he hbefore hleft
        refine ⟨writes ++ [w], ?_, ?_, ?_⟩
        · rw [← hwrites]
          simp
        · have hone : (t.db.executeAll [w]).raw = ((s.db.executeAll writes).executeAll [w]).raw := by
            rw [raw_executeAll, raw_executeAll, hraw]
          rw [executeAll_append]
          exact (congrArg Db.raw hdb).trans hone
        · have hone : (t.db.executeAll [w]).staging =
              ((s.db.executeAll writes).executeAll [w]).staging := by
            funext r
            rw [staging_executeAll, staging_executeAll, hstaging]
          rw [executeAll_append]
          exact (congrArg Db.staging hdb).trans hone
    | created hc =>
        obtain ⟨_, _, _, rfl⟩ := createProperty_frame hc
        exact ⟨hidentified, hI⟩
    | applied ha =>
        obtain ⟨_, _, _, rfl⟩ := applyEffectiveBinSet_frame ha
        exact ⟨hidentified, hI⟩
    | _ =>
        rcases hev with ⟨answer, he⟩ | he
        · cases he
        · exact he.elim
  · refine ⟨fun _ _ _ _ _ hpc => ?_, fun left hleft => ⟨[], ?_, rfl, rfl⟩⟩
    · rw [hs] at hpc
      cases hpc
    · rw [hs] at hleft
      exact (Option.some.inj hleft).symm

end Executor

/-! ### Replay -/

/-- **Replay of raw and staging writes.**  Any number of interrupted attempts at beginnings of the rows,
and then an attempt at all of them, leave the tables as one attempt at all of them does, up to
timestamps.  After any attempts of any runs, raw reads at a key what it read before or else the
first evidence, and staging reads at an id of a run the last valid row or else what it read before.  A
row that fails normalization leaves staging as it is, and is raw evidence where it can be identified. -/
theorem raw_staging_replay (service : EcbRowService Row) (columns : EcbColumns Row) (db : Db Row) :
    (∀ runId (rows rows' : List (FetchedRow Row)) (attempts : List (RowAttempt Row)),
      rows'.map (·.row) = rows.map (·.row) →
      (∀ attempt ∈ attempts, attempt.runId = runId ∧
        attempt.fetched.map (·.row) <+: rows.map (·.row)) →
      SameRows
        ((attempts.foldl (fun db attempt => db.interruptedAttempt service columns attempt)
          db).processPageRows service columns runId rows).1
        (db.processPageRows service columns runId rows').1) ∧
    (∀ (history : List (RowAttempt Row)) k,
      (history.foldl (fun db attempt => db.interruptedAttempt service columns attempt)
        db).raw.find k = (db.raw.find k).or (firstAt k (rawEvidence service columns history))) ∧
    (∀ (history : List (RowAttempt Row)) r sourceId,
      ((history.foldl (fun db attempt => db.interruptedAttempt service columns attempt)
        db).staging r).find sourceId =
        (lastAt sourceId (validRows service columns r history)).or
          ((db.staging r).find sourceId)) ∧
    ∀ runId (fetched : FetchedRow Row), service.normalizeEcbViolation fetched.row = none →
      (db.processRow service columns runId fetched).1.staging = db.staging ∧
        ∀ identity, service.extractEcbSourceIdentity fetched.row = .ok identity →
          columns.holdsRaw identity fetched.row = true →
          (db.processRow service columns runId fetched).1 =
            db.persistRaw runId identity fetched.row fetched.fetchedAt := by
  refine ⟨?_, ?_, ?_, fun runId fetched h => processRow_not_normalized h⟩
  · intro runId rows rows' attempts hrows hattempts
    rw [foldl_interruptedAttempt, (processPageRows_eq _ _ _ _ rows).1,
      (processPageRows_eq _ _ _ db rows').1, List.flatMap_def]
    refine sameRows_replay (fun begun hbegun => ?_) (pageWrites_congr hrows)
    obtain ⟨attempt, hmem, rfl⟩ := List.mem_map.mp hbegun
    obtain ⟨rfl, rest, hrest⟩ := hattempts attempt hmem
    -- the rows of the whole page, with the clock of the attempt
    have hpage : (attempt.fetched ++ rest.map (FetchedRow.mk · 0)).map FetchedRow.row =
        rows.map FetchedRow.row := by
      rw [List.map_append, List.map_map, ← hrest]
      exact congrArg _ (List.map_id rest)
    rw [← pageWrites_congr hpage]
    exact (attempt.writes_begin _).map _
  · intro history k
    rw [foldl_interruptedAttempt, find_raw_executeAll, rawEvidence_eq]
  · intro history r sourceId
    rw [foldl_interruptedAttempt, find_staging_executeAll, validRows_eq]

end NycPropertyResolver
