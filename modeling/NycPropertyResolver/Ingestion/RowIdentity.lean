import NycPropertyResolver.Ingestion.Normalization
import NycPropertyResolver.Ingestion.RowReplay
import NycPropertyResolver.Library.Words

/-!
# Ingestion — the identity of rows

The identity of a row is extracted twice: from the row as received, for raw persistence, and from the
row the strict schema has checked, for staging.  The second finds what the first has found
(`extract_of_checked`), so that a row that is processed has one identity.  Neither reads more of the
names of the fields than their lower case (`readSourceField_of_renames`).
-/

namespace NycPropertyResolver

open Library

/-! ### Reading fields -/

/-- No two names of a row differ in case only. -/
def NoCollision (text : SourceText) (row : EcbTransportRow) : Prop :=
  ∀ key ∈ row.keys, ∀ key' ∈ row.keys, text.toLowerCase key = text.toLowerCase key' → key = key'

/-- A row with its fields renamed, in the case of ASCII letters only, and listed in any order. -/
def RenamesCase (row row' : EcbTransportRow) : Prop :=
  ∃ rename : String → String, (∀ key, asciiFold (rename key) = asciiFold key) ∧
    row'.keys.Perm (row.keys.map rename) ∧ ∀ key ∈ row.keys, row'.find (rename key) = row.find key

section Fields

variable {text : SourceText} {row row' canonical : EcbTransportRow} {field : String}

/-- A field is found under any spelling of its name. -/
theorem readSourceField_eq_some_iff (h : NoCollision text row) {value : JsonValue} :
    readSourceField text row field = some value ↔
      ∃ key ∈ row.keys, text.toLowerCase key = text.toLowerCase field ∧
        row.find key = some value := by
  have hmem : ∀ {key v}, row.find key = some v → key ∈ row.keys := fun hv =>
    (row.mem_keys _).mpr (by simp [hv])
  rw [readSourceField]
  cases hown : row.find field with
  | some own =>
      simp only
      constructor
      · intro he
        exact ⟨field, hmem hown, rfl, hown.trans he⟩
      · rintro ⟨key, hkey, hlower, hvalue⟩
        obtain rfl : key = field := h key hkey field (hmem hown) hlower
        exact hown.symm.trans hvalue
  | none =>
      simp only
      constructor
      · intro hfind
        obtain ⟨key, hkey, hvalue⟩ := Option.bind_eq_some_iff.mp hfind
        have hlower : text.toLowerCase key = text.toLowerCase field := by
          simpa using List.find?_some hkey
        exact ⟨key, List.mem_of_find?_eq_some hkey, hlower, hvalue⟩
      · rintro ⟨key, hkey, hlower, hvalue⟩
        have hsome : (row.keys.find? fun key =>
            decide (text.toLowerCase key = text.toLowerCase field)).isSome :=
          List.find?_isSome.mpr ⟨key, hkey, decide_eq_true hlower⟩
        obtain ⟨key', hkey'⟩ := Option.isSome_iff_exists.mp hsome
        have hlower' : text.toLowerCase key' = text.toLowerCase field := by
          simpa using List.find?_some hkey'
        obtain rfl : key' = key :=
          h key' (List.mem_of_find?_eq_some hkey') key hkey (hlower'.trans hlower.symm)
        rw [hkey', Option.bind_some, hvalue]

/-- A renamed row has the same values under the same names, but for case. -/
theorem RenamesCase.exists_iff (h : RenamesCase row row') {value : JsonValue} :
    (∃ key ∈ row'.keys, text.toLowerCase key = text.toLowerCase field ∧ row'.find key = some value) ↔
      ∃ key ∈ row.keys, text.toLowerCase key = text.toLowerCase field ∧ row.find key = some value := by
  obtain ⟨rename, hfold, hkeys, hfind⟩ := h
  have hlower : ∀ key, text.toLowerCase (rename key) = text.toLowerCase key := fun key =>
    text.toLowerCase_fold (hfold key)
  constructor
  · rintro ⟨key', hkey', hl, hvalue⟩
    obtain ⟨key, hkey, rfl⟩ := List.mem_map.mp (hkeys.mem_iff.mp hkey')
    exact ⟨key, hkey, (hlower key).symm.trans hl, (hfind key hkey).symm.trans hvalue⟩
  · rintro ⟨key, hkey, hl, hvalue⟩
    exact ⟨rename key, hkeys.mem_iff.mpr (List.mem_map_of_mem hkey), (hlower key).trans hl,
      (hfind key hkey).trans hvalue⟩

theorem NoCollision.of_renames (h : NoCollision text row) (hrenames : RenamesCase row row') :
    NoCollision text row' := by
  obtain ⟨rename, hfold, hkeys, -⟩ := hrenames
  intro key₁ hkey₁ key₂ hkey₂ hlower
  obtain ⟨key, hkey, rfl⟩ := List.mem_map.mp (hkeys.mem_iff.mp hkey₁)
  obtain ⟨key', hkey', rfl⟩ := List.mem_map.mp (hkeys.mem_iff.mp hkey₂)
  rw [text.toLowerCase_fold (hfold key), text.toLowerCase_fold (hfold key')] at hlower
  rw [h key hkey key' hkey' hlower]

/-- **The case of the names is irrelevant.** -/
theorem readSourceField_of_renames (h : NoCollision text row) (hrenames : RenamesCase row row')
    (field : String) : readSourceField text row' field = readSourceField text row field := by
  refine Option.ext fun value => ?_
  rw [readSourceField_eq_some_iff (h.of_renames hrenames), readSourceField_eq_some_iff h,
    hrenames.exists_iff]

theorem find_overlayFields {fields : List String} : (overlayFields text row canonical fields).find field =
    if field ∈ fields then (readSourceField text row field).or (canonical.find field)
    else canonical.find field := by
  induction fields generalizing canonical with
  | nil => rfl
  | cons f fields ih =>
      rw [overlayFields]
      cases hread : readSourceField text row f with
      | none =>
          simp only [ih]
          by_cases hf : field = f
          · subst hf
            simp [hread]
          · simp [hf]
      | some value =>
          simp only [ih]
          by_cases hf : field = f
          · subst hf
            simp [hread]
          · simp [hf, Table.find_set_ne hf]

/-- The canonical fields are what is read of the row. -/
theorem find_canonicalizeSourceFields (h : field ∈ ecbSourceFields) :
    (canonicalizeSourceFields text row).find field = readSourceField text row field := by
  rw [canonicalizeSourceFields, find_overlayFields, if_pos h]
  cases hread : readSourceField text row field with
  | some value => rfl
  | none =>
      rw [Option.none_or]
      rw [readSourceField] at hread
      cases hown : row.find field with
      | none => rfl
      | some own => rw [hown] at hread; cases hread

end Fields

/-! ### The identity of a checked row -/

section Identity

variable {text : SourceText} {find find' : String → Option JsonValue}

/-- Only the fields of the source are read. -/
theorem identityOfFields_congr (h : ∀ field ∈ ecbSourceFields, find field = find' field) :
    identityOfFields text find = identityOfFields text find' := by
  rw [identityOfFields, identityOfFields, h sourceIdField (by decide), h socrataRowIdField (by decide),
    h sourceRowUpdatedAtField (by decide)]

theorem checkFields_congr (h : ∀ field ∈ ecbSourceFields, find field = find' field) :
    checkFields find = checkFields find' := by
  rw [checkFields, checkFields, h sourceIdField (by decide), h socrataRowIdField (by decide),
    h sourceRowUpdatedAtField (by decide), h binField (by decide), h violationNumberField (by decide),
    h issueDateField (by decide), h violationStatusField (by decide), h balanceDueField (by decide)]

/-- The identity of fields that pass their checks. -/
theorem identityOfFields_of_checked {sourceId socrataRowId : SourceScalar} {updatedAt : String}
    (hsource : requiredSourceScalar sourceIdField (find sourceIdField) = .ok sourceId)
    (hsocrata : requiredSourceScalar socrataRowIdField (find socrataRowIdField) = .ok socrataRowId)
    (hupdated : requiredText sourceRowUpdatedAtField (find sourceRowUpdatedAtField) = .ok updatedAt) :
    identityOfFields text find = (do
      let sourceId ← scalarToString text sourceId sourceIdField
      let socrataRowId ← scalarToString text socrataRowId socrataRowIdField
      .ok ⟨sourceId, socrataRowId, updatedAt⟩) := by
  rw [identityOfFields, hsource, hsocrata, hupdated]

theorem checkFields_ok {fields : EcbViolationFields} (h : checkFields find = .ok fields) :
    requiredSourceScalar sourceIdField (find sourceIdField) = .ok fields.sourceId ∧
      requiredSourceScalar socrataRowIdField (find socrataRowIdField) = .ok fields.socrataRowId ∧
      requiredText sourceRowUpdatedAtField (find sourceRowUpdatedAtField) =
        .ok fields.sourceRowUpdatedAt := by
  simp only [checkFields] at h
  split at h
  · next hsource hsocrata hupdated _ _ _ _ _ =>
      cases h
      exact ⟨hsource, hsocrata, hupdated⟩
  · cases h

theorem trim_trim (value : String) : trim (trim value) = trim value := by
  have h : trimChars (trimChars value.toList) = trimChars value.toList :=
    trimBy_eq_self (fun _ => head?_trimBy) fun _ => getLast?_trimBy
  simp [trim, h]

/-- What passed a check passes it again, unchanged. -/
theorem requiredSourceScalar_checked {field : String} {value : Option JsonValue}
    {scalar : SourceScalar} (h : requiredSourceScalar field value = .ok scalar) :
    requiredSourceScalar field (some scalar.toJson) = .ok scalar := by
  unfold requiredSourceScalar at h
  split at h
  · next chars =>
      by_cases hempty : trim (String.ofList chars) = ""
      · simp [hempty, fieldIssue] at h
      · simp only [hempty, if_false, Except.ok.injEq] at h
        subst h
        simp [SourceScalar.toJson, requiredSourceScalar, trim_trim, hempty]
  · next literal =>
      have hscalar : scalar = .number literal := by
        rw [finiteNumber] at h
        split at h
        · cases h; rfl
        · cases h
      subst hscalar
      exact h
  · cases h

theorem requiredText_checked {field : String} {value : Option JsonValue} {checked : String}
    (h : requiredText field value = .ok checked) :
    requiredText field (some (.string checked.toList)) = .ok checked := by
  unfold requiredText at h
  split at h
  · next chars =>
      by_cases hempty : trim (String.ofList chars) = ""
      · simp [hempty, fieldIssue] at h
      · simp only [hempty, if_false, Except.ok.injEq] at h
        subst h
        simp [requiredText, trim_trim, hempty]
  · cases h
  · cases h

section Passthrough

variable {canonical : EcbTransportRow} {fields : EcbViolationFields}

theorem find_passthrough_sourceId :
    (passthrough canonical fields).find sourceIdField = some fields.sourceId.toJson := by
  simp only [passthrough]
  rw [Table.find_set_ne (by decide), Table.find_set_ne (by decide), Table.find_set_ne (by decide),
    Table.find_set_self]

theorem find_passthrough_socrataRowId :
    (passthrough canonical fields).find socrataRowIdField = some fields.socrataRowId.toJson := by
  simp only [passthrough]
  rw [Table.find_set_ne (by decide), Table.find_set_ne (by decide), Table.find_set_self]

theorem find_passthrough_sourceRowUpdatedAt :
    (passthrough canonical fields).find sourceRowUpdatedAtField =
      some (.string fields.sourceRowUpdatedAt.toList) := by
  simp only [passthrough]
  rw [Table.find_set_ne (by decide), Table.find_set_self]

end Passthrough

/-- A field under its own name stays as it is. -/
theorem find_canonicalizeSourceFields_own {row : EcbTransportRow} {field : String} {value : JsonValue}
    (hfield : field ∈ ecbSourceFields) (h : row.find field = some value) :
    (canonicalizeSourceFields text row).find field = some value := by
  rw [find_canonicalizeSourceFields hfield, readSourceField, h]

/-- **The identity of a checked row** is that of the row it was checked from. -/
theorem extract_of_checked {row : EcbTransportRow} {fields : EcbViolationFields}
    (h : checkFields (canonicalizeSourceFields text row).find = .ok fields) :
    extractEcbSourceIdentity text
        (.object (passthrough (canonicalizeSourceFields text row) fields)) =
      extractEcbSourceIdentity text (.object row) := by
  obtain ⟨hsource, hsocrata, hupdated⟩ := checkFields_ok h
  have hsource' := requiredSourceScalar_checked hsource
  have hsocrata' := requiredSourceScalar_checked hsocrata
  have hupdated' := requiredText_checked hupdated
  -- Under its own name, a field of the checked row is read as it was checked.
  rw [← find_canonicalizeSourceFields_own (by decide) find_passthrough_sourceId] at hsource'
  rw [← find_canonicalizeSourceFields_own (by decide) find_passthrough_socrataRowId] at hsocrata'
  rw [← find_canonicalizeSourceFields_own (by decide) find_passthrough_sourceRowUpdatedAt] at hupdated'
  exact (identityOfFields_of_checked hsource' hsocrata' hupdated').trans
    (identityOfFields_of_checked hsource hsocrata hupdated).symm

end Identity

/-! ### Normalization -/

section Normalization

variable {text : SourceText}

/-- Normalization takes the identity from the row itself. -/
theorem normalizeEcbViolation_object (row : EcbTransportRow) :
    normalizeEcbViolation text (.object row) = (do
      let fields ← checkFields (canonicalizeSourceFields text row).find
      let identity ← extractEcbSourceIdentity text (.object row)
      normalizeFields text identity fields) := by
  have hparse : parseEcbViolationSourceRow text (.object row) =
      (checkFields (canonicalizeSourceFields text row).find).map fun fields =>
        ⟨fields, passthrough (canonicalizeSourceFields text row) fields⟩ := by
    change (checkFields (canonicalizeSourceFields text row).find >>= fun fields =>
      Except.ok (EcbViolationSourceRow.mk fields
        (passthrough (canonicalizeSourceFields text row) fields))) = _
    cases checkFields (canonicalizeSourceFields text row).find <;> rfl
  rw [normalizeEcbViolation, hparse]
  cases hfields : checkFields (canonicalizeSourceFields text row).find with
  | error e => rfl
  | ok fields =>
      change (extractEcbSourceIdentity text (.object (passthrough _ fields)) >>= fun identity =>
        normalizeFields text identity fields) = _
      rw [extract_of_checked hfields]
      rfl

theorem parseSourceTimestamp_ok {value field : String} {t : Time}
    (h : parseSourceTimestamp text value field = .ok t) :
    parseEcbDate text (some (.text value)) field = .ok (some t) := by
  obtain ⟨parsed, hparse, h⟩ := except_bind_ok.mp h
  cases parsed with
  | none => cases h
  | some parsed => cases h; exact hparse

theorem normalizeFields_ok {identity : EcbSourceIdentityText} {fields : EcbViolationFields}
    {normalized : NormalizedEcbRow} (h : normalizeFields text identity fields = .ok normalized) :
    normalized.sourceId = identity.sourceId ∧
      parseEcbDate text (some (.text identity.sourceRowUpdatedAt)) sourceRowUpdatedAtField =
        .ok (some normalized.sourceRowUpdatedAt) := by
  obtain ⟨bin, -, h⟩ := except_bind_ok.mp h
  obtain ⟨issueDate, -, h⟩ := except_bind_ok.mp h
  obtain ⟨balanceDue, -, h⟩ := except_bind_ok.mp h
  obtain ⟨updatedAt, hupdated, h⟩ := except_bind_ok.mp h
  cases h
  exact ⟨rfl, parseSourceTimestamp_ok hupdated⟩

/-- The identity of the values is the one extracted, and its timestamp is a date. -/
theorem normalizeEcbViolation_ok {input : SourceRow} {normalized : NormalizedEcbRow}
    (h : normalizeEcbViolation text input = .ok normalized) :
    ∃ identity, extractEcbSourceIdentity text input = .ok identity ∧
      normalized.sourceId = identity.sourceId ∧
      parseEcbDate text (some (.text identity.sourceRowUpdatedAt)) sourceRowUpdatedAtField =
        .ok (some normalized.sourceRowUpdatedAt) := by
  cases input with
  | other typeName => cases h
  | object row =>
      rw [normalizeEcbViolation_object] at h
      obtain ⟨fields, -, h⟩ := except_bind_ok.mp h
      obtain ⟨identity, hidentity, h⟩ := except_bind_ok.mp h
      obtain ⟨hid, hupdated⟩ := normalizeFields_ok h
      exact ⟨identity, hidentity, hid, hupdated⟩

/-- What is read of a renamed row is what is read of the row. -/
theorem find_canonicalizeSourceFields_of_renames {row row' : EcbTransportRow}
    (h : NoCollision text row) (hrenames : RenamesCase row row') {field : String}
    (hfield : field ∈ ecbSourceFields) :
    (canonicalizeSourceFields text row').find field =
      (canonicalizeSourceFields text row).find field := by
  rw [find_canonicalizeSourceFields hfield, find_canonicalizeSourceFields hfield,
    readSourceField_of_renames h hrenames]

theorem extract_of_renames {row row' : EcbTransportRow} (h : NoCollision text row)
    (hrenames : RenamesCase row row') :
    extractEcbSourceIdentity text (.object row') = extractEcbSourceIdentity text (.object row) :=
  identityOfFields_congr fun _ hfield => find_canonicalizeSourceFields_of_renames h hrenames hfield

/-- Normalization reads no more of the names than raw extraction. -/
theorem normalizeEcbViolation_of_renames {row row' : EcbTransportRow} (h : NoCollision text row)
    (hrenames : RenamesCase row row') :
    normalizeEcbViolation text (.object row') = normalizeEcbViolation text (.object row) := by
  have hfields : checkFields (canonicalizeSourceFields text row').find =
      checkFields (canonicalizeSourceFields text row).find :=
    checkFields_congr fun _ hfield => find_canonicalizeSourceFields_of_renames h hrenames hfield
  rw [normalizeEcbViolation_object, normalizeEcbViolation_object, hfields,
    extract_of_renames h hrenames]

end Normalization

/-! ### Processed rows -/

section Processing

variable {text : SourceText} {Row : Type} {service : EcbRowService Row} {columns : EcbColumns Row}
  {runId : RunId} {db db' : Db Row} {fetched : FetchedRow Row} {normalized : NormalizedEcbViolation}

/-- A row that is processed is persisted under the identity extracted and staged as normalized. -/
theorem processRow_ok
    (h : db.processRow service columns runId fetched = (db', .ok normalized)) :
    ∃ identity, service.extractEcbSourceIdentity fetched.row = .ok identity ∧
      service.normalizeEcbViolation fetched.row = some normalized ∧
      db' = (db.persistRaw runId identity fetched.row fetched.fetchedAt).upsertStaging runId
        normalized := by
  rw [Db.processRow] at h
  cases hidentity : service.extractEcbSourceIdentity fetched.row with
  | error message => rw [hidentity] at h; simp at h
  | ok identity =>
      rw [hidentity] at h
      by_cases hraw : columns.holdsRaw identity fetched.row = true
      · cases hnormalized : service.normalizeEcbViolation fetched.row with
        | none => simp [hraw, hnormalized] at h
        | some value =>
            by_cases hstaging : columns.holdsStaging value = true
            · simp only [hraw, hnormalized, hstaging, if_true, Prod.mk.injEq, Except.ok.injEq] at h
              obtain ⟨rfl, rfl⟩ := h
              exact ⟨identity, rfl, rfl, rfl⟩
            · simp [hraw, hnormalized, hstaging] at h
      · simp [hraw] at h

theorem exists_find_persistRaw (db : Db Row) (runId : RunId) (identity : EcbSourceIdentity) (row : Row)
    (t : Time) :
    ∃ raw, (db.persistRaw runId identity row t).raw.find
      (identity.sourceId, identity.sourceRowUpdatedAt) = some raw := by
  rw [Db.persistRaw]
  split
  · next raw hraw => exact ⟨raw, hraw⟩
  · exact ⟨_, Table.find_set_self⟩

/-- The two identities of a row agree. -/
theorem ecbRowService_agrees {row : SourceRow} {identity : EcbSourceIdentity}
    (hidentity : (ecbRowService text).extractEcbSourceIdentity row = .ok identity)
    (hnormalized : (ecbRowService text).normalizeEcbViolation row = some normalized) :
    identity.sourceId = normalized.sourceId ∧
      identity.sourceRowUpdatedAt = normalized.sourceRowUpdatedAt := by
  simp only [ecbRowService, Option.map_eq_some_iff] at hidentity hnormalized
  obtain ⟨value, hvalue, rfl⟩ := hnormalized
  have hok : normalizeEcbViolation text row = .ok value := by
    cases h : normalizeEcbViolation text row with
    | error e => rw [h] at hvalue; cases hvalue
    | ok value' => rw [h] at hvalue; cases hvalue; rfl
  obtain ⟨extracted, hextract, hid, hupdated⟩ := normalizeEcbViolation_ok hok
  rw [hextract] at hidentity
  simp only [hupdated, Except.ok.injEq] at hidentity
  subst hidentity
  exact ⟨hid.symm, rfl⟩

end Processing

/-- **Raw and staged identity agree.**  A row that is processed is in raw under the id and the timestamp
that staging has, and no renaming of fields in case changes what either makes of a row. -/
theorem raw_and_staged_identity (text : SourceText) :
    (∀ (columns : EcbColumns SourceRow) (runId : RunId) (db db' : Db SourceRow)
        (fetched : FetchedRow SourceRow) (normalized : NormalizedEcbViolation),
      db.processRow (ecbRowService text) columns runId fetched = (db', .ok normalized) →
      ∃ identity raw,
        (ecbRowService text).extractEcbSourceIdentity fetched.row = .ok identity ∧
        db'.raw.find (identity.sourceId, identity.sourceRowUpdatedAt) = some raw ∧
        (db'.staging runId).find normalized.sourceId = some normalized ∧
        identity.sourceId = normalized.sourceId ∧
        identity.sourceRowUpdatedAt = normalized.sourceRowUpdatedAt) ∧
    ∀ row row', NoCollision text row → NoCollision text row' → RenamesCase row row' →
      extractEcbSourceIdentity text (.object row') = extractEcbSourceIdentity text (.object row) ∧
        normalizeEcbViolation text (.object row') = normalizeEcbViolation text (.object row) := by
  constructor
  · intro columns runId db db' fetched normalized h
    obtain ⟨identity, hidentity, hnormalized, rfl⟩ := processRow_ok h
    obtain ⟨hid, hupdated⟩ := ecbRowService_agrees hidentity hnormalized
    obtain ⟨raw, hraw⟩ :=
      exists_find_persistRaw db runId identity fetched.row fetched.fetchedAt
    exact ⟨identity, raw, hidentity, hraw, by rw [Db.find_upsertStaging_self, if_pos rfl], hid,
      hupdated⟩
  · intro row row' h _ hrenames
    exact ⟨extract_of_renames h hrenames, normalizeEcbViolation_of_renames h hrenames⟩

/-- A row with its fields in capitals. -/
def capitalRow : EcbTransportRow :=
  (((Table.empty.set "ISN_DOB_BIS_EXTRACT" (.string " 7 ".toList)).set ":ID"
    (.string "row-7".toList)).set ":UPDATED_AT" (.string "2024-05-01T12:30:00.000Z".toList)).set "BIN"
    (.string "1000001".toList)

theorem raw_and_staged_identity_capitals :
    ∃ identity raw normalized,
      (ecbRowService .ascii).extractEcbSourceIdentity (.object capitalRow) = .ok identity ∧
      (Db.processRow (ecbRowService .ascii) ⟨fun _ _ => true, fun _ => true⟩ 1 .empty
        ⟨.object capitalRow, 0⟩).1.raw.find ("7", identity.sourceRowUpdatedAt) = some raw ∧
      (ecbRowService .ascii).normalizeEcbViolation (.object capitalRow) = some normalized ∧
      identity.sourceId = normalized.sourceId ∧ normalized.sourceId = "7" ∧
      identity.sourceRowUpdatedAt = normalized.sourceRowUpdatedAt := by
  have hidentity : ((ecbRowService .ascii).extractEcbSourceIdentity
      (.object capitalRow)).toOption.isSome := by
    decide +kernel
  have hnormalized : ((ecbRowService .ascii).normalizeEcbViolation (.object capitalRow)).map
      (·.sourceId) = some "7" := by
    decide +kernel
  obtain ⟨normalized, hnormalized, hseven⟩ := Option.map_eq_some_iff.mp hnormalized
  cases hextract : (ecbRowService .ascii).extractEcbSourceIdentity (.object capitalRow) with
  | error message => rw [hextract] at hidentity; cases hidentity
  | ok identity =>
      obtain ⟨db', hprocess⟩ : ∃ db', Db.processRow (ecbRowService .ascii)
          ⟨fun _ _ => true, fun _ => true⟩ 1 .empty ⟨.object capitalRow, 0⟩ =
            (db', .ok normalized) := by
        simp [Db.processRow, hextract, hnormalized]
      obtain ⟨extracted, raw, hextracted, hraw, -, hid, hupdated⟩ :=
        (raw_and_staged_identity .ascii).1 _ _ _ _ _ _ hprocess
      obtain rfl : identity = extracted := by
        rw [hextract] at hextracted
        cases hextracted
        rfl
      rw [hid, hseven] at hraw
      exact ⟨identity, raw, normalized, rfl, by rw [hprocess]; exact hraw, hnormalized, hid, hseven,
        hupdated⟩

end NycPropertyResolver
