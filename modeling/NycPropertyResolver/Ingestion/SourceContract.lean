import Mathlib.Data.List.ReduceOption
import NycPropertyResolver.Clients.SocrataRequests
import NycPropertyResolver.Ingestion.RowIdentity
import NycPropertyResolver.Ingestion.Source

/-!
# Ingestion — the source contract

`source-contract.service.ts` and the requests it is answered by: the source is asked how many rows it
has and how many source ids, how many rows have none, and which ids are shared.  The three requests are
answered one after the other, by the dataset as it is then; a contract that is found valid held when
the first of them was, whatever became of the dataset afterwards (`source_contract_exact`).
-/

namespace NycPropertyResolver

open Library
open RequestExecutor (ThrownValue)

/-! ### Stats -/

/-- A source id that several rows have. -/
structure SourceContractDuplicateGroup where
  sourceId : Option String
  count : Nat
  deriving DecidableEq

/-- The counts of the contract's queries. -/
structure SourceContractStats where
  totalRows : Nat
  distinctSourceIds : Nat
  nullSourceIds : Nat
  duplicateGroups : List SourceContractDuplicateGroup
  deriving DecidableEq

/-- `sourceContractStatsSchema`: a group has a row. -/
def parseSourceContractStats (stats : SourceContractStats) : Option SourceContractStats :=
  if stats.duplicateGroups.all fun group => 0 < group.count then some stats else none

/-! ### Requests -/

/-- `ECB_SOURCE_ID_FIELD`. -/
def ecbSourceIdField : String := "ISN_DOB_BIS_EXTRACT"

namespace SocrataClient

/-- The query of the number of rows and of distinct source ids. -/
def buildSourceContractAggregateUrl (client : SocrataClient) : String :=
  queryUrl client.dataUrl
    [("$select", s!"count(*) as totalRows,count(distinct {ecbSourceIdField}) as distinctSourceIds")]

/-- The query of the number of rows without a source id. -/
def buildSourceContractNullCountUrl (client : SocrataClient) : String :=
  queryUrl client.dataUrl
    [("$select", "count(*) as nullSourceIds"), ("$where", s!"{ecbSourceIdField} is null")]

/-- The query of the source ids that several rows have. -/
def buildSourceContractDuplicateGroupsUrl (client : SocrataClient) : String :=
  queryUrl client.dataUrl
    [("$select", s!"{ecbSourceIdField},count(*) as count"),
      ("$where", s!"{ecbSourceIdField} is not null"), ("$group", ecbSourceIdField),
      ("$having", "count(*) > 1"), ("$order", ecbSourceIdField)]

end SocrataClient

/-- `parseAggregatePayload`: an array of one object. -/
def parseAggregatePayload (payload : JsonValue) : Except SocrataClientError EcbTransportRow :=
  match payload with
  | .array [item] =>
    match record? item with
    | some record => .ok record
    | none => .error (socrataMalformedResponse "malformed_payload"
        "Socrata source-contract aggregate response must contain one object")
  | _ => .error (socrataMalformedResponse "malformed_payload"
      "Socrata source-contract aggregate response must contain one object")

/-- The group of one item. -/
def parseDuplicateGroup (item : JsonValue) :
    Except SocrataClientError SourceContractDuplicateGroup :=
  match record? item with
  | none => .error (socrataMalformedResponse "malformed_payload"
      "Socrata duplicate-group response contains a non-object row")
  | some row => do
    -- the name the response has for the field, or the one of the query
    let value := match row.find sourceIdField with
      | some value => some value
      | none => row.find ecbSourceIdField
    let sourceId ← match value with
      | some .null => .ok none
      | some (.string text) => .ok (some (String.ofList text))
      | _ => .error (socrataMalformedResponse "malformed_payload"
          s!"Socrata duplicate-group field {ecbSourceIdField} must be a string or null")
    let count ← parseNonNegativeInteger (row.find "count") "count"
    .ok ⟨sourceId, count⟩

/-- `parseDuplicateGroupsPayload`: every group is read. -/
def parseDuplicateGroupsPayload (payload : JsonValue) :
    Except SocrataClientError (List SourceContractDuplicateGroup) :=
  match payload with
  | .array items => items.mapM parseDuplicateGroup
  | _ => .error (socrataMalformedResponse "malformed_payload"
      "Socrata duplicate-group response must be a JSON array")

/-- The stats of the three payloads. -/
def contractStats (aggregate nullCount : EcbTransportRow)
    (duplicateGroups : List SourceContractDuplicateGroup) :
    Except SocrataClientError SourceContractStats := do
  let totalRows ← parseNonNegativeInteger (aggregate.find "totalRows") "totalRows"
  let distinctSourceIds ←
    parseNonNegativeInteger (aggregate.find "distinctSourceIds") "distinctSourceIds"
  let nullSourceIds ← parseNonNegativeInteger (nullCount.find "nullSourceIds") "nullSourceIds"
  match parseSourceContractStats ⟨totalRows, distinctSourceIds, nullSourceIds, duplicateGroups⟩ with
  | some stats => .ok stats
  | none => .error (socrataMalformedResponse "malformed_payload"
      "Socrata source-contract response did not match the expected shape")

/-- `getSourceContractStats`: the three queries, in order. -/
def SocrataClient.getSourceContractStats (client : SocrataClient)
    (requestJson : String → String → Except ThrownValue JsonValue) :
    Except ThrownValue SourceContractStats := do
  let aggregatePayload ← requestJson client.buildSourceContractAggregateUrl "source-contract aggregate"
  let aggregate ← liftClient (parseAggregatePayload aggregatePayload)
  let nullCountPayload ← requestJson client.buildSourceContractNullCountUrl "source-contract NULL count"
  let nullCount ← liftClient (parseAggregatePayload nullCountPayload)
  let duplicatePayload ← requestJson client.buildSourceContractDuplicateGroupsUrl
    "source-contract duplicate groups"
  let duplicateGroups ← liftClient (parseDuplicateGroupsPayload duplicatePayload)
  liftClient (contractStats aggregate nullCount duplicateGroups)

/-! ### Verification -/

/-- The counts of the dataset, and whether they keep the contract. -/
structure SourceContractVerification where
  totalRowCount : Nat
  distinctSourceIdCount : Nat
  nullSourceIdCount : Nat
  duplicateGroups : List SourceContractDuplicateGroup
  valid : Bool

/-- What `verify` throws: what its reader did, or the `ZodError` of stats that are refused. -/
inductive VerificationError where
  | reader (error : ThrownValue)
  | zod

/-- `buildVerification`; `none` where the stats are refused. -/
def buildVerification (stats : SourceContractStats) : Option SourceContractVerification :=
  (parseSourceContractStats stats).map fun parsed =>
    let duplicateGroups := parsed.duplicateGroups.filter fun group => 1 < group.count
    { totalRowCount := parsed.totalRows
      distinctSourceIdCount := parsed.distinctSourceIds
      nullSourceIdCount := parsed.nullSourceIds
      duplicateGroups := duplicateGroups
      valid := parsed.nullSourceIds == 0 && duplicateGroups.isEmpty &&
        parsed.totalRows == parsed.distinctSourceIds }

/-- `verify`, of what its reader comes to. -/
def verify (stats : Except ThrownValue SourceContractStats) :
    Except VerificationError SourceContractVerification :=
  match stats with
  | .error error => .error (.reader error)
  | .ok stats =>
    match buildVerification stats with
    | some verification => .ok verification
    | none => .error .zod

/-- `process.exitCode` of the verification command. -/
def verificationExitCode (result : Except VerificationError SourceContractVerification) : Nat :=
  match result with
  | .ok verification => if verification.valid then 0 else 1
  | .error _ => 1

/-! ### What the source answers -/

/-- The column `ISN_DOB_BIS_EXTRACT` of a row; `none` for null. -/
def rawSourceId : SourceRow → Option String
  | .object row =>
    match row.find sourceIdField with
    | some (.string text) => some (String.ofList text)
    | _ => none
  | .other _ => none

/-- The source ids of a dataset. -/
def rawSourceIds (dataset : SourceDataset SourceRow) : List (Option String) :=
  dataset.rows.map rawSourceId

section Answers

variable (ids : List (Option String))

/-- `count(distinct ISN_DOB_BIS_EXTRACT)`. -/
def distinctCount : Nat := ids.reduceOption.dedup.length

/-- `group by ISN_DOB_BIS_EXTRACT having count(*) > 1`, of the ids that are not null. -/
def sharedIds : List SourceContractDuplicateGroup :=
  (ids.reduceOption.dedup.filter fun sourceId => 1 < ids.count (some sourceId)).map fun sourceId =>
    ⟨some sourceId, ids.count (some sourceId)⟩

/-- A count in a response: its digits, as a text or as a number. -/
def Renders (n : Nat) (value : JsonValue) : Prop :=
  value = .string (Nat.toDigits 10 n) ∨ value = .number (Nat.toDigits 10 n)

/-- A field of a response that is a count. -/
def HasCount (row : EcbTransportRow) (field : String) (n : Nat) : Prop :=
  ∃ value, row.find field = some value ∧ Renders n value

/-- The response to the query of the counts. -/
def AnswersAggregate (payload : JsonValue) : Prop :=
  ∃ members, payload = .array [.object members] ∧
    HasCount (recordOf members) "totalRows" ids.length ∧
    HasCount (recordOf members) "distinctSourceIds" (distinctCount ids)

/-- The response to the query of the rows without an id. -/
def AnswersNullCount (payload : JsonValue) : Prop :=
  ∃ members, payload = .array [.object members] ∧
    HasCount (recordOf members) "nullSourceIds" (ids.count none)

/-- A group as a response has it. -/
def ShowsGroup (group : SourceContractDuplicateGroup) (item : JsonValue) : Prop :=
  ∃ members sourceId, item = .object members ∧ group.sourceId = some sourceId ∧
    (recordOf members).find sourceIdField = some (.string sourceId.toList) ∧
    HasCount (recordOf members) "count" group.count

/-- The response to the query of the shared ids: as many of the groups as the source gives at once. -/
def AnswersDuplicateGroups (payload : JsonValue) : Prop :=
  ∃ groups items, payload = .array items ∧ List.Forall₂ ShowsGroup groups items ∧
    groups ⊆ sharedIds ids ∧ (groups = [] → sharedIds ids = [])

/-- Every row has an id of its own. -/
def UniqueSourceIds : Prop := none ∉ ids ∧ ids.Nodup

end Answers

/-! ### Counts -/

section Counts

variable {ids : List (Option String)}

theorem count_reduceOption (sourceId : String) :
    ids.reduceOption.count sourceId = ids.count (some sourceId) := by
  induction ids with
  | nil => rfl
  | cons head rest ih =>
      cases head with
      | none => simp [List.reduceOption_cons_of_none, ih]
      | some other => simp [List.reduceOption_cons_of_some, List.count_cons, ih]

/-- Without a null the column is its ids. -/
theorem map_some_reduceOption (h : none ∉ ids) : ids.reduceOption.map some = ids := by
  induction ids with
  | nil => rfl
  | cons head rest ih =>
      rw [List.mem_cons, not_or] at h
      cases head with
      | none => exact absurd rfl h.1
      | some sourceId => rw [List.reduceOption_cons_of_some, List.map_cons, ih h.2]

theorem uniqueSourceIds_iff : UniqueSourceIds ids ↔ none ∉ ids ∧ ids.reduceOption.Nodup := by
  refine and_congr_right fun hnull => ?_
  conv_lhs => rw [← map_some_reduceOption hnull]
  exact List.nodup_map_iff (Option.some_injective _)

/-- No id is shared exactly when the ids that are not null are distinct. -/
theorem sharedIds_eq_nil : sharedIds ids = [] ↔ ids.reduceOption.Nodup := by
  rw [sharedIds, List.map_eq_nil_iff, List.filter_eq_nil_iff, List.nodup_iff_count_le_one]
  constructor
  · intro h sourceId
    by_cases hmem : sourceId ∈ ids.reduceOption
    · have hle := h sourceId (List.mem_dedup.mpr hmem)
      rw [decide_eq_true_eq, not_lt, ← count_reduceOption] at hle
      exact hle
    · rw [List.count_eq_zero.mpr hmem]
      exact Nat.zero_le 1
  · intro h sourceId _
    rw [decide_eq_true_eq, not_lt, ← count_reduceOption]
    exact h sourceId

/-- **The counts of the contract agree exactly when every row has an id of its own.** -/
theorem length_eq_distinctCount : ids.length = distinctCount ids ↔ UniqueSourceIds ids := by
  have hnulls : ids.reduceOption.length ≤ ids.length := List.reduceOption_length_le ids
  have hshared : ids.reduceOption.dedup.length ≤ ids.reduceOption.length :=
    (List.dedup_sublist _).length_le
  rw [uniqueSourceIds_iff, distinctCount]
  constructor
  · intro h
    constructor
    · intro hnull
      have hall := List.reduceOption_length_eq_iff.mp (Nat.le_antisymm hnulls (by omega))
      exact absurd (hall none hnull) (by simp)
    · exact List.dedup_eq_self.mp ((List.dedup_sublist _).eq_of_length (by omega))
  · rintro ⟨hnull, hnodup⟩
    have hlength := congrArg List.length (map_some_reduceOption hnull)
    rw [List.length_map] at hlength
    rw [List.dedup_eq_self.mpr hnodup, hlength]

end Counts

/-! ### What is read of the answers -/

section Reading

variable {ids : List (Option String)} {payload : JsonValue} {n : Nat} {field : String}

theorem safeNatural?_natCast (h : n ≤ maxSafeInteger) : safeNatural? (.finite n) = some n := by
  have hle : (n : Rat) ≤ (maxSafeInteger : Rat) := by exact_mod_cast h
  simp [safeNatural?, hle]

/-- **A count is read as it was rendered.** -/
theorem parseNonNegativeInteger_of_renders {value : JsonValue} (h : Renders n value)
    (hn : n ≤ maxSafeInteger) : parseNonNegativeInteger (some value) field = .ok n := by
  have hnumber := toNumber_toDigits hn
  rcases h with rfl | rfl
  · have hdigits := toDigits_all_isDigit n
    have htext : isIntegerText (String.ofList (Nat.toDigits 10 n)) = true := by
      simp only [isIntegerText, String.toList_ofList, trimChars_of_digits hdigits, hdigits, Bool.and_true]
      simp
    simp only [parseNonNegativeInteger, htext, if_true, hnumber, safeNatural?_natCast hn]
  · simp only [parseNonNegativeInteger, hnumber, safeNatural?_natCast hn]

theorem parse_of_hasCount {row : EcbTransportRow} (h : HasCount row field n) (hn : n ≤ maxSafeInteger) :
    parseNonNegativeInteger (row.find field) field = .ok n := by
  obtain ⟨value, hfind, hrenders⟩ := h
  rw [hfind]
  exact parseNonNegativeInteger_of_renders hrenders hn

/-- A shared id is held by more than one row, and by no more than there are. -/
theorem count_of_mem_sharedIds {group : SourceContractDuplicateGroup} (h : group ∈ sharedIds ids) :
    1 < group.count ∧ group.count ≤ ids.length := by
  obtain ⟨sourceId, hmem, rfl⟩ := List.mem_map.mp h
  exact ⟨by simpa using (List.mem_filter.mp hmem).2, List.count_le_length⟩

theorem parseDuplicateGroup_of_shows {group : SourceContractDuplicateGroup} {item : JsonValue}
    (h : ShowsGroup group item) (hn : group.count ≤ maxSafeInteger) :
    parseDuplicateGroup item = .ok group := by
  obtain ⟨members, sourceId, rfl, hid, hfind, hcount⟩ := h
  have hparsed := parse_of_hasCount hcount hn
  obtain ⟨_, count⟩ := group
  cases hid
  simp only [parseDuplicateGroup, record?, hfind, String.ofList_toList]
  rw [hparsed]
  rfl

theorem mapM_parseDuplicateGroup {groups : List SourceContractDuplicateGroup} {items : List JsonValue}
    (h : List.Forall₂ ShowsGroup groups items) (hn : ∀ group ∈ groups, group.count ≤ maxSafeInteger) :
    items.mapM parseDuplicateGroup = .ok groups := by
  induction h with
  | nil => rfl
  | @cons group item groups items hshows _ ih =>
      have hhead := parseDuplicateGroup_of_shows hshows (hn group List.mem_cons_self)
      have htail := ih fun other hother => hn other (List.mem_cons_of_mem _ hother)
      rw [List.mapM_cons, hhead, htail]
      rfl

/-- What is read of the shared ids: some of them, and none only where there are none. -/
theorem parseDuplicateGroupsPayload_of_answers (h : AnswersDuplicateGroups ids payload)
    (hn : ids.length ≤ maxSafeInteger) :
    ∃ groups, parseDuplicateGroupsPayload payload = .ok groups ∧ groups ⊆ sharedIds ids ∧
      (groups = [] → sharedIds ids = []) := by
  obtain ⟨groups, items, rfl, hshows, hsub, hnone⟩ := h
  exact ⟨groups, mapM_parseDuplicateGroup hshows fun group hgroup =>
    (count_of_mem_sharedIds (hsub hgroup)).2.trans hn, hsub, hnone⟩

end Reading

/-! ### The contract -/

section Contract

variable {ids ids' ids'' : List (Option String)} {client : SocrataClient}
  {requestJson : String → String → Except ThrownValue JsonValue}

/-- The three requests are answered, by the source as it is at each of them. -/
structure ContractAnswered (client : SocrataClient)
    (requestJson : String → String → Except ThrownValue JsonValue)
    (ids ids' ids'' : List (Option String)) : Prop where
  aggregate : ∃ payload, requestJson client.buildSourceContractAggregateUrl
    "source-contract aggregate" = .ok payload ∧ AnswersAggregate ids payload
  nullCount : ∃ payload, requestJson client.buildSourceContractNullCountUrl
    "source-contract NULL count" = .ok payload ∧ AnswersNullCount ids' payload
  duplicateGroups : ∃ payload, requestJson client.buildSourceContractDuplicateGroupsUrl
    "source-contract duplicate groups" = .ok payload ∧ AnswersDuplicateGroups ids'' payload

/-- **The stats of the source.** -/
theorem getSourceContractStats_of_answered (h : ContractAnswered client requestJson ids ids' ids'')
    (hn : ids.length ≤ maxSafeInteger) (hn' : ids'.length ≤ maxSafeInteger)
    (hn'' : ids''.length ≤ maxSafeInteger) :
    ∃ groups, groups ⊆ sharedIds ids'' ∧ (groups = [] → sharedIds ids'' = []) ∧
      client.getSourceContractStats requestJson =
        .ok ⟨ids.length, distinctCount ids, ids'.count none, groups⟩ := by
  obtain ⟨_, haggregate, members, rfl, htotal, hdistinct⟩ := h.aggregate
  obtain ⟨_, hnull, members', rfl, hnulls⟩ := h.nullCount
  obtain ⟨payload, hduplicates, hanswers⟩ := h.duplicateGroups
  obtain ⟨groups, hgroups, hsub, hnone⟩ := parseDuplicateGroupsPayload_of_answers hanswers hn''
  have hdistinct' : distinctCount ids ≤ maxSafeInteger := by
    refine le_trans ?_ hn
    exact (List.dedup_sublist _).length_le.trans (List.reduceOption_length_le ids)
  have hstats : parseSourceContractStats ⟨ids.length, distinctCount ids, ids'.count none, groups⟩ =
      some ⟨ids.length, distinctCount ids, ids'.count none, groups⟩ := by
    rw [parseSourceContractStats, if_pos]
    refine List.all_eq_true.mpr fun group hgroup => decide_eq_true ?_
    exact Nat.lt_of_lt_of_le Nat.one_pos (count_of_mem_sharedIds (hsub hgroup)).1.le
  have hcontract : contractStats (recordOf members) (recordOf members') groups =
      .ok ⟨ids.length, distinctCount ids, ids'.count none, groups⟩ := by
    rw [contractStats, parse_of_hasCount htotal hn, parse_of_hasCount hdistinct hdistinct',
      parse_of_hasCount hnulls (List.count_le_length.trans hn')]
    simp only [bind, Except.bind, hstats]
  refine ⟨groups, hsub, hnone, ?_⟩
  rw [SocrataClient.getSourceContractStats, haggregate, hnull, hduplicates]
  simp only [bind, Except.bind, liftClient, parseAggregatePayload, record?, hgroups, hcontract]

/-- What a verification says of what the source answered. -/
theorem verify_of_answered (h : ContractAnswered client requestJson ids ids' ids'')
    (hn : ids.length ≤ maxSafeInteger) (hn' : ids'.length ≤ maxSafeInteger)
    (hn'' : ids''.length ≤ maxSafeInteger) :
    ∃ v, verify (client.getSourceContractStats requestJson) = .ok v ∧
      v.totalRowCount = ids.length ∧ v.distinctSourceIdCount = distinctCount ids ∧
      v.nullSourceIdCount = ids'.count none ∧ v.duplicateGroups ⊆ sharedIds ids'' ∧
      (v.valid = true ↔ UniqueSourceIds ids ∧ none ∉ ids' ∧ ids''.reduceOption.Nodup) := by
  obtain ⟨groups, hsub, hnone, hstats⟩ := getSourceContractStats_of_answered h hn hn' hn''
  have hcounts : ∀ group ∈ groups, 1 < group.count := fun group hgroup =>
    (count_of_mem_sharedIds (hsub hgroup)).1
  have hparsed : parseSourceContractStats ⟨ids.length, distinctCount ids, ids'.count none, groups⟩ =
      some ⟨ids.length, distinctCount ids, ids'.count none, groups⟩ := by
    rw [parseSourceContractStats, if_pos]
    exact List.all_eq_true.mpr fun group hgroup => decide_eq_true (Nat.zero_lt_of_lt (hcounts group hgroup))
  have hfilter : groups.filter (fun group => 1 < group.count) = groups :=
    List.filter_eq_self.mpr fun group hgroup => decide_eq_true (hcounts group hgroup)
  have hgroups : groups = [] ↔ ids''.reduceOption.Nodup := by
    rw [← sharedIds_eq_nil]
    refine ⟨hnone, fun hshared => ?_⟩
    rw [hshared] at hsub
    exact List.subset_nil.mp hsub
  refine ⟨⟨ids.length, distinctCount ids, ids'.count none, groups,
    ids'.count none == 0 && groups.isEmpty && ids.length == distinctCount ids⟩,
    ?_, rfl, rfl, rfl, hsub, ?_⟩
  · rw [hstats]
    simp only [verify, buildVerification, hparsed, Option.map_some, hfilter]
  · simp only [Bool.and_eq_true, beq_iff_eq, List.isEmpty_iff, List.count_eq_zero, hgroups,
      length_eq_distinctCount]
    tauto

end Contract

/-! ### The contract of the rows -/

section Rows

variable {text : SourceText} {dataset : SourceDataset SourceRow} {row : SourceRow}

/-- **The stored id of a row** is that of the source, trimmed. -/
theorem sourceId_of_raw {sourceId : String} {v : NormalizedEcbViolation}
    (hraw : rawSourceId row = some sourceId)
    (hv : (ecbRowService text).normalizeEcbViolation row = some v) : v.sourceId = trim sourceId := by
  cases row with
  | other typeName => cases hraw
  | object fields =>
      have hfind : fields.find sourceIdField = some (.string sourceId.toList) := by
        simp only [rawSourceId] at hraw
        split at hraw
        · rename_i chars hchars
          cases hraw
          rw [String.toList_ofList]
          exact hchars
        · cases hraw
      obtain ⟨value, hvalue, rfl⟩ := Option.map_eq_some_iff.mp hv
      have hok : normalizeEcbViolation text (.object fields) = .ok value := by
        cases h : normalizeEcbViolation text (.object fields) with
        | error e => rw [h] at hvalue; cases hvalue
        | ok value' => rw [h] at hvalue; cases hvalue; rfl
      obtain ⟨identity, hidentity, hid, -⟩ := normalizeEcbViolation_ok hok
      have hown : (canonicalizeSourceFields text fields).find sourceIdField =
          some (.string sourceId.toList) := find_canonicalizeSourceFields_own (by decide) hfind
      have hfields : identityOfFields text (canonicalizeSourceFields text fields).find =
          .ok identity := hidentity
      rw [identityOfFields, hown] at hfields
      simp only [requiredSourceScalar, String.ofList_toList] at hfields
      by_cases hempty : trim sourceId = ""
      · simp [hempty, fieldIssue] at hfields
      · simp only [hempty, if_false] at hfields
        split at hfields
        · rename_i scalar _ _ hscalar _ _
          cases hscalar
          simp only [scalarToString, SourceScalar.toText, trim_trim, hempty, if_false] at hfields
          obtain ⟨_, hsourceId, hfields⟩ := except_bind_ok.mp hfields
          obtain ⟨_, -, hfields⟩ := except_bind_ok.mp hfields
          cases hsourceId
          cases hfields
          exact hid
        · cases hfields

/-- Where every row has an id of its own, and no id white space about it, no two rows are stored under
one id. -/
theorem eq_of_uniqueSourceIds (h : UniqueSourceIds (rawSourceIds dataset))
    (htrimmed : ∀ row ∈ dataset.rows, ∀ sourceId ∈ rawSourceId row, trim sourceId = sourceId)
    {row' : SourceRow} {v v' : NormalizedEcbViolation} (hrow : row ∈ dataset.rows)
    (hrow' : row' ∈ dataset.rows) (hv : (ecbRowService text).normalizeEcbViolation row = some v)
    (hv' : (ecbRowService text).normalizeEcbViolation row' = some v') (hid : v.sourceId = v'.sourceId) :
    row = row' := by
  have hraw : ∀ row ∈ dataset.rows, ∃ sourceId, rawSourceId row = some sourceId := by
    intro row hrow
    refine Option.ne_none_iff_exists'.mp fun hnone => h.1 ?_
    exact List.mem_map.mpr ⟨row, hrow, hnone⟩
  obtain ⟨sourceId, hsourceId⟩ := hraw row hrow
  obtain ⟨sourceId', hsourceId'⟩ := hraw row' hrow'
  have heq : sourceId = sourceId' := calc
    sourceId = trim sourceId := (htrimmed row hrow sourceId hsourceId).symm
    _ = v.sourceId := (sourceId_of_raw hsourceId hv).symm
    _ = v'.sourceId := hid
    _ = trim sourceId' := sourceId_of_raw hsourceId' hv'
    _ = sourceId' := htrimmed row' hrow' sourceId' hsourceId'
  exact List.inj_on_of_nodup_map h.2 hrow hrow' (by rw [hsourceId, hsourceId', heq])

/-- **The verification of the source contract.**  The command succeeds exactly when every row had an id
of its own at the first request, every row had an id at the second and no id was shared at the third;
its counts are those of the source, however few of the shared ids are listed; and then, with ids that
have no white space about them, no two rows of the source are stored under one id. -/
theorem source_contract_exact (text : SourceText) {client : SocrataClient}
    {requestJson : String → String → Except ThrownValue JsonValue}
    {source : Nat → SourceDataset SourceRow} {i j k : Nat}
    (h : ContractAnswered client requestJson (rawSourceIds (source i)) (rawSourceIds (source j))
      (rawSourceIds (source k)))
    (hi : (source i).rows.length ≤ maxSafeInteger) (hj : (source j).rows.length ≤ maxSafeInteger)
    (hk : (source k).rows.length ≤ maxSafeInteger) :
    ∃ v, verify (client.getSourceContractStats requestJson) = .ok v ∧
      v.totalRowCount = (source i).rows.length ∧
      v.distinctSourceIdCount = distinctCount (rawSourceIds (source i)) ∧
      v.nullSourceIdCount = (rawSourceIds (source j)).count none ∧
      v.duplicateGroups ⊆ sharedIds (rawSourceIds (source k)) ∧
      (verificationExitCode (.ok v) = 0 ↔ UniqueSourceIds (rawSourceIds (source i)) ∧
        none ∉ rawSourceIds (source j) ∧ (rawSourceIds (source k)).reduceOption.Nodup) ∧
      (v.valid = true →
        (∀ row ∈ (source i).rows, ∀ sourceId ∈ rawSourceId row, trim sourceId = sourceId) →
        ∀ row ∈ (source i).rows, ∀ row' ∈ (source i).rows, ∀ n n',
          (ecbRowService text).normalizeEcbViolation row = some n →
          (ecbRowService text).normalizeEcbViolation row' = some n' →
          n.sourceId = n'.sourceId → row = row') := by
  have hlength : ∀ dataset : SourceDataset SourceRow,
      (rawSourceIds dataset).length = dataset.rows.length := fun dataset => List.length_map _
  obtain ⟨v, hverify, htotal, hdistinct, hnulls, hgroups, hvalid⟩ :=
    verify_of_answered h (hlength (source i) ▸ hi) (hlength (source j) ▸ hj) (hlength (source k) ▸ hk)
  refine ⟨v, hverify, htotal.trans (hlength _), hdistinct, hnulls, hgroups, ?_, ?_⟩
  · rw [← hvalid]
    cases hvalue : v.valid with
    | true => simp [verificationExitCode, hvalue]
    | false => simp [verificationExitCode, hvalue]
  · intro hv htrimmed row hrow row' hrow' n n' hn hn' hid
    exact eq_of_uniqueSourceIds (hvalid.mp hv).1 htrimmed hrow hrow' hn hn' hid

/-- Two rows with an id each, and the responses to the queries of their contract. -/
def twoRows : SourceDataset SourceRow :=
  ⟨["1", "2"].map fun sourceId => .object (Table.empty.set sourceIdField (.string sourceId.toList)), 0⟩

/-- The responses to the three queries. -/
def twoRowsJson (_url operation : String) : Except ThrownValue JsonValue :=
  if operation = "source-contract aggregate" then
    .ok (.array [.object [("totalRows".toList, .string ['2']),
      ("distinctSourceIds".toList, .string ['2'])]])
  else if operation = "source-contract NULL count" then
    .ok (.array [.object [("nullSourceIds".toList, .number ['0'])]])
  else .ok (.array [])

theorem twoRows_answered (client : SocrataClient) :
    ContractAnswered client twoRowsJson (rawSourceIds twoRows) (rawSourceIds twoRows)
      (rawSourceIds twoRows) where
  aggregate := ⟨_, rfl, _, rfl, ⟨_, rfl, .inl rfl⟩, ⟨_, rfl, .inl rfl⟩⟩
  nullCount := ⟨_, rfl, _, rfl, ⟨_, rfl, .inr rfl⟩⟩
  duplicateGroups := ⟨_, rfl, [], [], rfl, .nil, List.nil_subset _, fun _ => by decide⟩

theorem source_contract_exact_twoRows :
    ∃ v, verify (SocrataClient.getSourceContractStats ⟨socrataEcbDataUrl, 2, 100⟩ twoRowsJson) = .ok v ∧
      v.totalRowCount = 2 ∧ v.nullSourceIdCount = 0 ∧ verificationExitCode (.ok v) = 0 := by
  obtain ⟨v, hverify, htotal, -, hnulls, -, hexit, -⟩ :=
    @source_contract_exact SourceText.ascii ⟨socrataEcbDataUrl, 2, 100⟩ twoRowsJson (fun _ => twoRows)
      0 0 0 (twoRows_answered _) (by decide) (by decide) (by decide)
  exact ⟨v, hverify, htotal, hnulls, hexit.mpr ⟨⟨by decide, by decide⟩, by decide, by decide⟩⟩

end Rows

end NycPropertyResolver
