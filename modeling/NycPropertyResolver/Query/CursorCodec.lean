import NycPropertyResolver.Query.Violations

/-!
# Query — the cursor codecs

What the cursor schemas admit: a non-empty source id with a date of the years 0000 to 9999 or null, or
with a text that is a timestamp.  A cursor that is admitted is encoded, and decoded as itself; the two
portfolio schemas are strict and share no cursor; any text is decoded to a cursor that is admitted or
refused by a validation error; and the cursor of a live row is admitted (`cursor_codecs`).
-/

namespace NycPropertyResolver

open Library

/-! ### Dates -/

/-- A day of the years 0000 to 9999. -/
def FourDigitYear (days : Int) : Prop :=
  0 ≤ (civilFromDays days).year ∧ (civilFromDays days).year ≤ 9999

instance (days : Int) : Decidable (FourDigitYear days) := inferInstanceAs (Decidable (_ ∧ _))

/-- The text of such a day. -/
def IsIssueDateText (text : String) : Prop :=
  ∃ days, FourDigitYear days ∧ text.toList = isoDate (civilFromDays days)

section Dates

variable {platform : Platform} {days t : Int}

theorem isoYear_of_fourDigits (h : FourDigitYear days) :
    isoYear (civilFromDays days).year = padDigits 4 (civilFromDays days).year.toNat :=
  if_pos h

/-- A year of more digits has a sign. -/
theorem isoYear_of_not_fourDigits (h : ¬ FourDigitYear days) :
    ∃ sign rest, isoYear (civilFromDays days).year = sign :: rest ∧ sign.isDigit = false := by
  refine ⟨_, _, if_neg h, ?_⟩
  by_cases hpos : 0 ≤ (civilFromDays days).year
  · rw [if_pos hpos]
    rfl
  · rw [if_neg hpos]
    rfl

theorem length_isoDate (h : FourDigitYear days) : (isoDate (civilFromDays days)).length = 10 := by
  rw [isoDate, isoYear_of_fourDigits h]
  simp [length_padDigits]

theorem toISOString_midnight (days : Int) :
    toISOString (days * msPerDay) = isoDate (civilFromDays days) ++ "T00:00:00.000Z".toList := by
  have hne : msPerDay ≠ 0 := by decide
  rw [toISOString, Int.mul_ediv_cancel _ hne, Int.mul_emod_left]
  rfl

theorem take_toISOString (h : FourDigitYear (t / msPerDay)) :
    (toISOString t).take 10 = isoDate (civilFromDays (t / msPerDay)) := by
  rw [toISOString, ← length_isoDate h, List.take_left]

theorem issueDateText_toList (h : FourDigitYear days) :
    (toISOString (days * msPerDay)).take 10 = isoDate (civilFromDays days) := by
  rw [toISOString_midnight, ← length_isoDate h, List.take_left]

/-- The text of a day with such a year is no date. -/
theorem fourDigitYear_of_readDateText (h : (readDateText ((toISOString t).take 10)).isSome = true) :
    FourDigitYear (t / msPerDay) := by
  by_contra hyear
  obtain ⟨sign, rest, hsign, hdigit⟩ := isoYear_of_not_fourDigits hyear
  obtain ⟨tail, htext⟩ : ∃ tail, (toISOString t).take 10 = sign :: tail := by
    rw [toISOString, isoDate, hsign]
    exact ⟨_, rfl⟩
  have hread : readDigits 4 (sign :: tail) = none := by
    refine if_neg fun hdigits => ?_
    have hhead := List.all_eq_true.mp hdigits.2 sign (by simp)
    rw [hdigit] at hhead
    cases hhead
  rw [htext, readDateText, hread] at h
  cases h

/-- A `Date` has a year of six digits at most. -/
theorem year_of_isDate (h : IsDate t) : (civilFromDays (t / msPerDay)).year.natAbs < 1000000 := by
  obtain ⟨hlow, hhigh⟩ := h
  obtain ⟨day, hday⟩ : ∃ day, day = t / msPerDay := ⟨_, rfl⟩
  have hbounds : -100000000 ≤ day ∧ day ≤ 100000000 := by
    rw [hday, msPerDay]
    omega
  obtain ⟨dayOfEra, hera⟩ : ∃ dayOfEra, dayOfEra = (day + 719468) % 146097 := ⟨_, rfl⟩
  have hrange : 0 ≤ dayOfEra ∧ dayOfEra < 146097 := by omega
  obtain ⟨hy₀, hy₁, -, -⟩ := yearOfEra_bounds hrange.1 hrange.2
  rw [← hday, civilFromDays, ← hera]
  generalize yearOfEra dayOfEra = year at hy₀ hy₁
  split
  · simp only
    omega
  · simp only
    omega

/-- An instant of the years 0 to 9999 is one of a `Date`. -/
theorem isDate_of_fourDigitYear (h : FourDigitYear (t / msPerDay)) : IsDate t := by
  obtain ⟨day, hday⟩ : ∃ day, day = t / msPerDay := ⟨_, rfl⟩
  obtain ⟨dayOfEra, hera⟩ : ∃ dayOfEra, dayOfEra = (day + 719468) % 146097 := ⟨_, rfl⟩
  have hrange : 0 ≤ dayOfEra ∧ dayOfEra < 146097 := by omega
  obtain ⟨hy₀, hy₁, -, -⟩ := yearOfEra_bounds hrange.1 hrange.2
  rw [FourDigitYear, ← hday, civilFromDays, ← hera] at h
  generalize yearOfEra dayOfEra = year at hy₀ hy₁ h
  have hbounds : -1000000 ≤ day ∧ day ≤ 4000000 := by
    split at h
    · simp only at h
      omega
    · simp only at h
      omega
  rw [hday, msPerDay] at hbounds
  rw [IsDate]
  omega

theorem newDate_toISOString (h : IsDate t) :
    platform.newDate (String.ofList (toISOString t)) = some t := by
  rw [Platform.newDate, String.toList_ofList, readInstant_toISOString (year_of_isDate h)]
  exact if_pos h

theorem newDate_midnight {text : String} (h : FourDigitYear days)
    (htext : text.toList = isoDate (civilFromDays days)) :
    platform.newDate (text ++ "T00:00:00.000Z") = some (days * msPerDay) := by
  have hdate : IsDate (days * msPerDay) := by
    refine isDate_of_fourDigitYear ?_
    rwa [Int.mul_ediv_cancel _ (by decide)]
  rw [← newDate_toISOString hdate, toISOString_midnight, ← htext, ← String.toList_append,
    String.ofList_toList]

/-- **The dates the schema admits** are those of the years 0000 to 9999. -/
theorem issueDateIssues_eq_nil {text : String} :
    issueDateIssues platform text = [] ↔ IsIssueDateText text := by
  rw [issueDateIssues, List.append_eq_nil_iff, issueUnless_eq_nil, issueUnless_eq_nil]
  constructor
  · rintro ⟨hread, hdate⟩
    obtain ⟨t, -, ht⟩ := (Option.any_eq_true _ _).mp hdate
    rw [decide_eq_true_eq] at ht
    rw [← ht] at hread
    have hyear := fourDigitYear_of_readDateText hread
    exact ⟨_, hyear, by rw [← ht, take_toISOString hyear]⟩
  · rintro ⟨days, hdays, htext⟩
    rw [newDate_midnight hdays htext, htext, readDateText_isoDate hdays]
    exact ⟨rfl, by simp [issueDateText_toList hdays]⟩

end Dates

/-! ### Cursors -/

/-- A cursor with a source id, and with a date or null. -/
structure IssueDateCursor.Admissible (cursor : IssueDateCursor) : Prop where
  sourceId : cursor.sourceId ≠ ""
  issueDate : ∀ text ∈ cursor.issueDate, IsIssueDateText text

/-- A cursor with a source id, and with a timestamp. -/
structure UpdatedSinceCursor.Admissible (platform : Platform) (cursor : UpdatedSinceCursor) :
    Prop where
  sourceId : cursor.sourceId ≠ ""
  nonEmpty : cursor.sourceRowUpdatedAt ≠ ""
  timestamp : (platform.newDate cursor.sourceRowUpdatedAt).isSome = true

/-- A cursor is admitted in the ordering it is of. -/
def PortfolioViolationsCursor.Admissible (platform : Platform) (useUpdatedSinceOrdering : Bool) :
    PortfolioViolationsCursor → Prop
  | .default cursor => useUpdatedSinceOrdering = false ∧ cursor.Admissible
  | .updatedSince cursor => useUpdatedSinceOrdering = true ∧ cursor.Admissible platform

section Cursors

variable {platform : Platform}

theorem sourceIdIssues_eq_nil {sourceId : String} : sourceIdIssues sourceId = [] ↔ sourceId ≠ "" := by
  rw [sourceIdIssues, issueUnless_eq_nil, decide_eq_true_eq]

/-- **The schema admits the admissible cursors**, by date … -/
theorem IssueDateCursor.issues_eq_nil {cursor : IssueDateCursor} :
    cursor.issues platform = [] ↔ cursor.Admissible := by
  obtain ⟨issueDate, sourceId⟩ := cursor
  rw [IssueDateCursor.issues, List.append_eq_nil_iff, sourceIdIssues_eq_nil]
  cases issueDate with
  | none => exact ⟨fun h => ⟨h.2, fun _ hn => nomatch hn⟩, fun h => ⟨rfl, h.1⟩⟩
  | some text =>
      rw [Option.map_some, Option.getD_some, issueDateIssues_eq_nil]
      constructor
      · rintro ⟨hdate, hsource⟩
        exact ⟨hsource, fun _ ht => Option.some.inj ht ▸ hdate⟩
      · rintro ⟨hsource, hdate⟩
        exact ⟨hdate text rfl, hsource⟩

/-- … and by timestamp. -/
theorem UpdatedSinceCursor.issues_eq_nil {cursor : UpdatedSinceCursor} :
    cursor.issues platform = [] ↔ cursor.Admissible platform := by
  rw [UpdatedSinceCursor.issues, List.append_eq_nil_iff, List.append_eq_nil_iff,
    sourceIdIssues_eq_nil, issueUnless_eq_nil, issueUnless_eq_nil, decide_eq_true_eq]
  constructor
  · rintro ⟨⟨hne, htime⟩, hsource⟩
    exact ⟨hsource, hne, htime⟩
  · rintro ⟨hsource, hne, htime⟩
    exact ⟨⟨hne, htime⟩, hsource⟩

/-! ### Decoding any text -/

/-- A cursor that is parsed is admitted. -/
theorem IssueDateCursor.admissible_of_parse {payload : JsonValue} {cursor : IssueDateCursor}
    (h : IssueDateCursor.parse platform payload = some cursor) : cursor.Admissible := by
  simp only [IssueDateCursor.parse, bind, Option.bind_eq_some_iff] at h
  obtain ⟨fields, -, issueDate, -, sourceId, -, h⟩ := h
  split at h
  · rename_i hissues
    cases h
    exact IssueDateCursor.issues_eq_nil.mp hissues
  · cases h

theorem UpdatedSinceCursor.admissible_of_parse {payload : JsonValue} {cursor : UpdatedSinceCursor}
    (h : UpdatedSinceCursor.parse platform payload = some cursor) : cursor.Admissible platform := by
  simp only [UpdatedSinceCursor.parse, bind, Option.bind_eq_some_iff] at h
  obtain ⟨fields, -, updatedAt, -, sourceId, -, h⟩ := h
  split at h
  · rename_i hissues
    cases h
    exact UpdatedSinceCursor.issues_eq_nil.mp hissues
  · cases h

/-- A text is decoded to a cursor its schema parses, or refused. -/
theorem decodeCursor_total (platform : Platform) {α : Type} (parse : JsonValue → Option α) (encoded : String) :
    (∃ payload cursor, parse payload = some cursor ∧
        decodeCursor platform parse encoded = .ok cursor) ∨
      decodeCursor platform parse encoded = .error (cursorValidationError "cursor is malformed") := by
  rw [decodeCursor]
  split
  · dsimp only
    split
    · split
      · rename_i cursor hcursor
        obtain ⟨payload, -, hparse⟩ := Option.bind_eq_some_iff.mp hcursor
        exact .inl ⟨payload, cursor, hparse, rfl⟩
      · exact .inr rfl
    · exact .inr rfl
  · exact .inr rfl

theorem decodePropertyViolationsCursor_total (encoded : String) :
    (∃ cursor, decodePropertyViolationsCursor platform encoded = .ok cursor ∧ cursor.Admissible) ∨
      decodePropertyViolationsCursor platform encoded =
        .error (cursorValidationError "cursor is malformed") := by
  rcases decodeCursor_total platform (IssueDateCursor.parse platform) encoded with
    ⟨payload, cursor, hparse, hdecode⟩ | herror
  · exact .inl ⟨cursor, hdecode, IssueDateCursor.admissible_of_parse hparse⟩
  · exact .inr herror

theorem decodePortfolioViolationsCursor_total (encoded : String) (useUpdatedSinceOrdering : Bool) :
    (∃ cursor, decodePortfolioViolationsCursor platform encoded useUpdatedSinceOrdering = .ok cursor ∧
        cursor.Admissible platform useUpdatedSinceOrdering) ∨
      decodePortfolioViolationsCursor platform encoded useUpdatedSinceOrdering =
        .error (cursorValidationError "cursor is malformed") := by
  rcases decodeCursor_total platform (fun payload =>
      if useUpdatedSinceOrdering then
        (UpdatedSinceCursor.parse platform payload).map PortfolioViolationsCursor.updatedSince
      else (IssueDateCursor.parse platform payload).map .default) encoded with
    ⟨payload, cursor, hparse, hdecode⟩ | herror
  · refine .inl ⟨cursor, hdecode, ?_⟩
    cases useUpdatedSinceOrdering with
    | true =>
        obtain ⟨cursor, hcursor, rfl⟩ := Option.map_eq_some_iff.mp hparse
        exact ⟨rfl, UpdatedSinceCursor.admissible_of_parse hcursor⟩
    | false =>
        obtain ⟨cursor, hcursor, rfl⟩ := Option.map_eq_some_iff.mp hparse
        exact ⟨rfl, IssueDateCursor.admissible_of_parse hcursor⟩
  · exact .inr herror

/-! ### The other ordering -/

/-- An object with a member that is not of the schema is no cursor. -/
theorem strictFields_of_foreign {names : List String} {members : List (List Char × JsonValue)}
    {foreign : List Char} {value : JsonValue} (hmem : (foreign, value) ∈ members)
    (h : ∀ name ∈ names, foreign ≠ name.toList) : strictFields (.object members) names = none := by
  refine if_neg fun hall => ?_
  obtain ⟨name, hname, heq⟩ := List.any_eq_true.mp (List.all_eq_true.mp hall _ hmem)
  exact h name hname (of_decide_eq_true heq)

/-- A cursor by date is no cursor by timestamp, … -/
theorem parse_fields_issueDateCursor (cursor : IssueDateCursor) :
    UpdatedSinceCursor.parse platform (.object (cursor.fields.map fun f =>
      (f.1.toList, fieldValue (f.2.map String.toList)))) = none := by
  have hforeign : ∀ name ∈ ["sourceRowUpdatedAt", "sourceId"],
      "issueDate".toList ≠ name.toList := by decide
  have hfields : strictFields (.object (cursor.fields.map fun f =>
      (f.1.toList, fieldValue (f.2.map String.toList)))) ["sourceRowUpdatedAt", "sourceId"] = none :=
    strictFields_of_foreign List.mem_cons_self hforeign
  rw [UpdatedSinceCursor.parse, hfields]
  rfl

/-- … nor the other way. -/
theorem parse_fields_updatedSinceCursor (cursor : UpdatedSinceCursor) :
    IssueDateCursor.parse platform (.object (cursor.fields.map fun f =>
      (f.1.toList, fieldValue (f.2.map String.toList)))) = none := by
  have hforeign : ∀ name ∈ ["issueDate", "sourceId"],
      "sourceRowUpdatedAt".toList ≠ name.toList := by decide
  have hfields : strictFields (.object (cursor.fields.map fun f =>
      (f.1.toList, fieldValue (f.2.map String.toList)))) ["issueDate", "sourceId"] = none :=
    strictFields_of_foreign List.mem_cons_self hforeign
  rw [IssueDateCursor.parse, hfields]
  rfl

theorem decodePortfolioViolationsCursor_default_mixed {cursor : IssueDateCursor} {encoded : String}
    (h : encodePortfolioDefaultCursor platform cursor = .ok encoded) :
    decodePortfolioViolationsCursor platform encoded true =
      .error (cursorValidationError "cursor is malformed") := by
  obtain ⟨-, rfl⟩ := encodeCursor_eq_ok h
  rw [decodePortfolioViolationsCursor, IssueDateCursor.fields, decodeCursor_encodeFields,
    ← IssueDateCursor.fields]
  simp only [if_true, parse_fields_issueDateCursor, Option.map_none]

theorem decodePortfolioViolationsCursor_updatedSince_mixed {cursor : UpdatedSinceCursor}
    {encoded : String} (h : encodePortfolioUpdatedSinceCursor platform cursor = .ok encoded) :
    decodePortfolioViolationsCursor platform encoded false =
      .error (cursorValidationError "cursor is malformed") := by
  obtain ⟨-, rfl⟩ := encodeCursor_eq_ok h
  rw [decodePortfolioViolationsCursor, UpdatedSinceCursor.fields, decodeCursor_encodeFields,
    ← UpdatedSinceCursor.fields, if_neg Bool.false_ne_true, parse_fields_updatedSinceCursor]
  rfl

/-! ### The cursors of rows -/

/-- The cursor of a row with a source id and a date of four digits or null is admitted, … -/
theorem admissible_issueDateCursorOf {row : EcbViolation} (hsource : row.sourceId ≠ "")
    (hdate : ∀ days ∈ row.issueDate, FourDigitYear days) : (issueDateCursorOf row).Admissible := by
  refine ⟨hsource, fun text htext => ?_⟩
  obtain ⟨days, hdays, rfl⟩ := Option.map_eq_some_iff.mp htext
  refine ⟨days, hdate days hdays, ?_⟩
  rw [String.toList_ofList, issueDateText_toList (hdate days hdays)]

/-- … and so is that of any instant. -/
theorem admissible_updatedSinceCursorOf {row : EcbViolation} (hsource : row.sourceId ≠ "")
    (hdate : IsDate row.sourceRowUpdatedAt) : (updatedSinceCursorOf row).Admissible platform := by
  refine ⟨hsource, fun hempty => ?_, ?_⟩
  · have hread := readInstant_toISOString (year_of_isDate hdate)
    have htext : toISOString row.sourceRowUpdatedAt = [] := by
      exact String.ofList_eq_empty_iff.mp hempty
    rw [htext] at hread
    cases hread
  · rw [updatedSinceCursorOf, newDate_toISOString hdate]
    rfl

end Cursors

/-- **The cursor codecs round-trip and do not mix.** -/
theorem cursor_codecs (platform : Platform) :
    (∀ cursor : IssueDateCursor, cursor.issues platform = [] ↔ cursor.Admissible) ∧
    (∀ cursor : UpdatedSinceCursor, cursor.issues platform = [] ↔ cursor.Admissible platform) ∧
    (∀ cursor : IssueDateCursor, cursor.Admissible →
      (∃ encoded, encodePropertyViolationsCursor platform cursor = .ok encoded ∧
        decodePropertyViolationsCursor platform encoded = .ok cursor) ∧
      ∃ encoded, encodePortfolioDefaultCursor platform cursor = .ok encoded ∧
        decodePortfolioViolationsCursor platform encoded false = .ok (.default cursor) ∧
        decodePortfolioViolationsCursor platform encoded true =
          .error (cursorValidationError "cursor is malformed")) ∧
    (∀ cursor : UpdatedSinceCursor, cursor.Admissible platform →
      ∃ encoded, encodePortfolioUpdatedSinceCursor platform cursor = .ok encoded ∧
        decodePortfolioViolationsCursor platform encoded true = .ok (.updatedSince cursor) ∧
        decodePortfolioViolationsCursor platform encoded false =
          .error (cursorValidationError "cursor is malformed")) ∧
    (∀ text,
      (∃ cursor, decodePropertyViolationsCursor platform text = .ok cursor ∧ cursor.Admissible) ∨
        decodePropertyViolationsCursor platform text =
          .error (cursorValidationError "cursor is malformed")) ∧
    (∀ text useUpdatedSinceOrdering,
      (∃ cursor, decodePortfolioViolationsCursor platform text useUpdatedSinceOrdering = .ok cursor ∧
          cursor.Admissible platform useUpdatedSinceOrdering) ∨
        decodePortfolioViolationsCursor platform text useUpdatedSinceOrdering =
          .error (cursorValidationError "cursor is malformed")) ∧
    ∀ row : EcbViolation, row.sourceId ≠ "" → (∀ days ∈ row.issueDate, FourDigitYear days) →
      (∃ text, encodePropertyViolationsCursor platform (issueDateCursorOf row) = .ok text) ∧
      (∃ text, encodePortfolioDefaultCursor platform (issueDateCursorOf row) = .ok text) ∧
      (IsDate row.sourceRowUpdatedAt →
        ∃ text, encodePortfolioUpdatedSinceCursor platform (updatedSinceCursorOf row) = .ok text) := by
  refine ⟨fun _ => IssueDateCursor.issues_eq_nil, fun _ => UpdatedSinceCursor.issues_eq_nil,
    fun cursor hcursor => ?_, fun cursor hcursor => ?_, decodePropertyViolationsCursor_total,
    decodePortfolioViolationsCursor_total, fun row hsource hdate => ?_⟩
  · have hissues : cursor.issues platform = [] := IssueDateCursor.issues_eq_nil.mpr hcursor
    have hproperty : encodePropertyViolationsCursor platform cursor = .ok _ := if_pos hissues
    have hportfolio : encodePortfolioDefaultCursor platform cursor = .ok _ := if_pos hissues
    exact ⟨⟨_, hproperty, decodePropertyViolationsCursor_encode hproperty⟩, _, hportfolio,
      decodePortfolioViolationsCursor_default hportfolio,
      decodePortfolioViolationsCursor_default_mixed hportfolio⟩
  · have hencode : encodePortfolioUpdatedSinceCursor platform cursor = .ok _ :=
      if_pos (UpdatedSinceCursor.issues_eq_nil.mpr hcursor)
    exact ⟨_, hencode, decodePortfolioViolationsCursor_updatedSince hencode,
      decodePortfolioViolationsCursor_updatedSince_mixed hencode⟩
  · have hissues : (issueDateCursorOf row).issues platform = [] :=
      IssueDateCursor.issues_eq_nil.mpr (admissible_issueDateCursorOf hsource hdate)
    exact ⟨⟨_, if_pos hissues⟩, ⟨_, if_pos hissues⟩, fun hinstant => ⟨_, if_pos
      (UpdatedSinceCursor.issues_eq_nil.mpr (admissible_updatedSinceCursorOf hsource hinstant))⟩⟩

end NycPropertyResolver
