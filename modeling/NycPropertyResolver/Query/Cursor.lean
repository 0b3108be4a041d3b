import NycPropertyResolver.Domain.Calendar
import NycPropertyResolver.Library.Base64Url
import NycPropertyResolver.Library.Json

/-!
# Query — cursors

The cursors of `property-violations-query.schema.ts` and `portfolio-violations-query.schema.ts`: the
position of a page as a text, the base64url form of a JSON object that the cursor's schema admits.
Encoding checks the cursor against its schema, and decoding the payload, so that what was encoded is
decoded as itself (`decodeCursor_encode`).
-/

namespace NycPropertyResolver

open Library

/-! ### The platform -/

/-- What the program relies on outside it: how JavaScript reads a text of a date that `toISOString`
does not write, how PostgreSQL casts one beyond the ISO 8601 texts of the years 1 to 9999, and what
bytes that are not UTF-8 become. -/
structure Platform where
  dateParse : String → Option Int
  castDate : String → Option Int
  castTimestamptz : String → Option Int
  lossyUtf8 : List UInt8 → List Char

/-- `new Date(text).getTime()`; `none` for `NaN`. -/
def Platform.newDate (platform : Platform) (text : String) : Option Int :=
  match readInstant text.toList with
  | some instant => timeClip instant.2
  | none => (platform.dateParse text).bind timeClip

/-- `toString('utf8')` of a buffer. -/
def Platform.utf8Text (platform : Platform) (bytes : List UInt8) : List Char :=
  match bytes.toByteArray.utf8Decode? with
  | some cs => cs.toList
  | none => platform.lossyUtf8 bytes

/-- The UTF-8 bytes of a text. -/
def utf8Bytes (cs : List Char) : List UInt8 := cs.flatMap String.utf8EncodeChar

theorem utf8Text_utf8Bytes (platform : Platform) (cs : List Char) :
    platform.utf8Text (utf8Bytes cs) = cs := by
  have hdecode : (utf8Bytes cs).toByteArray.utf8Decode? = some cs.toArray :=
    List.utf8Decode?_utf8Encode
  rw [Platform.utf8Text, hdecode]

/-! ### Errors -/

/-- What a query throws. -/
inductive QueryError where
  | app (code message : String) (statusCode : Nat)
  | zod (messages : List String)
  | database (message : String)
  deriving DecidableEq, Repr

/-- The error of a cursor that is refused. -/
def cursorValidationError (message : String) : QueryError := .app "VALIDATION_ERROR" message 400

/-! ### Schemas -/

/-- `propertyViolationsCursorSchema` and `portfolioDefaultCursorSchema`. -/
structure IssueDateCursor where
  issueDate : Option String
  sourceId : String
  deriving DecidableEq, Repr

/-- `portfolioUpdatedSinceCursorSchema`. -/
structure UpdatedSinceCursor where
  sourceRowUpdatedAt : String
  sourceId : String
  deriving DecidableEq, Repr

/-- A check of a schema, with the message of its issue. -/
def issueUnless (condition : Bool) (message : String) : List String :=
  if condition then [] else [message]

/-- The issues of a cursor's source id. -/
def sourceIdIssues (sourceId : String) : List String :=
  issueUnless (sourceId ≠ "") "cursor sourceId must be non-empty"

/-- `issueDateSchema`; its `refine` runs also on a text that failed the expression. -/
def issueDateIssues (platform : Platform) (value : String) : List String :=
  issueUnless (readDateText value.toList).isSome "cursor issueDate must be a calendar date" ++
    issueUnless ((platform.newDate (value ++ "T00:00:00.000Z")).any fun t =>
      (toISOString t).take 10 = value.toList) "cursor issueDate must be a valid calendar date"

/-- The issues of a cursor of the default order. -/
def IssueDateCursor.issues (platform : Platform) (cursor : IssueDateCursor) : List String :=
  (cursor.issueDate.map (issueDateIssues platform)).getD [] ++ sourceIdIssues cursor.sourceId

/-- The issues of a cursor of the order of `updatedSince`. -/
def UpdatedSinceCursor.issues (platform : Platform) (cursor : UpdatedSinceCursor) : List String :=
  issueUnless (cursor.sourceRowUpdatedAt ≠ "") "cursor sourceRowUpdatedAt must be non-empty" ++
    issueUnless (platform.newDate cursor.sourceRowUpdatedAt).isSome
      "cursor sourceRowUpdatedAt must be a valid timestamp" ++
    sourceIdIssues cursor.sourceId

/-! ### Payloads -/

/-- The field of a payload; the last member of a name counts. -/
def payloadField (members : List (List Char × JsonValue)) (name : String) : Option JsonValue :=
  (members.reverse.find? fun m => m.1 = name.toList).map (·.2)

/-- The fields of an object with no member but these. -/
def strictFields (payload : JsonValue) (names : List String) : Option (String → Option JsonValue) :=
  match payload with
  | .object members =>
    if members.all fun m => names.any fun name => m.1 = name.toList then some (payloadField members)
    else none
  | _ => none

/-- A text; `none` for another value. -/
def textField (value : Option JsonValue) : Option String :=
  match value with
  | some (.string text) => some (String.ofList text)
  | _ => none

/-- A text or null; `none` for another value. -/
def nullableTextField (value : Option JsonValue) : Option (Option String) :=
  match value with
  | some .null => some none
  | some (.string text) => some (some (String.ofList text))
  | _ => none

/-- `parse` of `propertyViolationsCursorSchema` and `portfolioDefaultCursorSchema`. -/
def IssueDateCursor.parse (platform : Platform) (payload : JsonValue) : Option IssueDateCursor := do
  let fields ← strictFields payload ["issueDate", "sourceId"]
  let issueDate ← nullableTextField (fields "issueDate")
  let sourceId ← textField (fields "sourceId")
  let cursor : IssueDateCursor := ⟨issueDate, sourceId⟩
  if cursor.issues platform = [] then some cursor else none

/-- `parse` of `portfolioUpdatedSinceCursorSchema`. -/
def UpdatedSinceCursor.parse (platform : Platform) (payload : JsonValue) :
    Option UpdatedSinceCursor := do
  let fields ← strictFields payload ["sourceRowUpdatedAt", "sourceId"]
  let sourceRowUpdatedAt ← textField (fields "sourceRowUpdatedAt")
  let sourceId ← textField (fields "sourceId")
  let cursor : UpdatedSinceCursor := ⟨sourceRowUpdatedAt, sourceId⟩
  if cursor.issues platform = [] then some cursor else none

/-! ### Codecs -/

/-- The text of a validated cursor, by its fields. -/
def encodeFields (fields : List (String × Option String)) : String :=
  String.ofList (base64UrlEncode (utf8Bytes (stringifyFields
    (fields.map fun f => (f.1.toList, f.2.map String.toList)))))

/-- A cursor is validated before it is encoded. -/
def encodeCursor (issues : List String) (fields : List (String × Option String)) :
    Except QueryError String :=
  if issues = [] then .ok (encodeFields fields) else .error (.zod issues)

/-- A cursor of canonical base64url whose payload its schema admits. -/
def decodeCursor {α : Type} (platform : Platform) (parse : JsonValue → Option α) (encoded : String) :
    Except QueryError α :=
  if encoded.toList ≠ [] ∧ encoded.toList.all fun c => c ∈ base64UrlAlphabet then
    let bytes := base64UrlDecode encoded.toList
    if base64UrlEncode bytes = encoded.toList then
      match (parseJson (platform.utf8Text bytes)).bind parse with
      | some cursor => .ok cursor
      | none => .error (cursorValidationError "cursor is malformed")
    else
      .error (cursorValidationError "cursor is malformed")
  else
    .error (cursorValidationError "cursor is malformed")

/-- The members of the cursor's JSON. -/
def IssueDateCursor.fields (cursor : IssueDateCursor) : List (String × Option String) :=
  [("issueDate", cursor.issueDate), ("sourceId", some cursor.sourceId)]

/-- The members of the cursor's JSON. -/
def UpdatedSinceCursor.fields (cursor : UpdatedSinceCursor) : List (String × Option String) :=
  [("sourceRowUpdatedAt", some cursor.sourceRowUpdatedAt), ("sourceId", some cursor.sourceId)]

section Codecs

variable (platform : Platform)

/-- `encodePropertyViolationsCursor`. -/
def encodePropertyViolationsCursor (cursor : IssueDateCursor) : Except QueryError String :=
  encodeCursor (cursor.issues platform) cursor.fields

/-- `decodePropertyViolationsCursor`. -/
def decodePropertyViolationsCursor (encoded : String) : Except QueryError IssueDateCursor :=
  decodeCursor platform (IssueDateCursor.parse platform) encoded

/-- `encodePortfolioDefaultCursor`. -/
def encodePortfolioDefaultCursor (cursor : IssueDateCursor) : Except QueryError String :=
  encodeCursor (cursor.issues platform) cursor.fields

/-- `encodePortfolioUpdatedSinceCursor`. -/
def encodePortfolioUpdatedSinceCursor (cursor : UpdatedSinceCursor) : Except QueryError String :=
  encodeCursor (cursor.issues platform) cursor.fields

/-- `PortfolioViolationsCursor`. -/
inductive PortfolioViolationsCursor where
  | default (cursor : IssueDateCursor)
  | updatedSince (cursor : UpdatedSinceCursor)
  deriving DecidableEq, Repr

/-- `decodePortfolioViolationsCursor`: the order of the query decides which cursor is expected. -/
def decodePortfolioViolationsCursor (encoded : String) (useUpdatedSinceOrdering : Bool) :
    Except QueryError PortfolioViolationsCursor :=
  decodeCursor platform (fun payload =>
    if useUpdatedSinceOrdering then
      (UpdatedSinceCursor.parse platform payload).map .updatedSince
    else
      (IssueDateCursor.parse platform payload).map .default) encoded

end Codecs

/-! ### What was encoded is decoded -/

section RoundTrip

variable {platform : Platform} {α : Type}

theorem issueUnless_eq_nil {condition : Bool} {message : String} :
    issueUnless condition message = [] ↔ condition = true := by
  cases condition <;> simp [issueUnless]

/-- The payload of an encoded cursor is the object of its fields. -/
theorem decodeCursor_encodeFields (parse : JsonValue → Option α) (field : String × Option String)
    (fields : List (String × Option String)) :
    decodeCursor platform parse (encodeFields (field :: fields)) =
      match parse (.object ((field :: fields).map fun f =>
        (f.1.toList, fieldValue (f.2.map String.toList)))) with
      | some cursor => .ok cursor
      | none => .error (cursorValidationError "cursor is malformed") := by
  have hpayload := parseJson_stringifyFields (field.1.toList, field.2.map String.toList)
    (fields.map fun f => (f.1.toList, f.2.map String.toList))
  have hmap : (field.1.toList, field.2.map String.toList) ::
      fields.map (fun f => (f.1.toList, f.2.map String.toList)) =
      (field :: fields).map fun f => (f.1.toList, f.2.map String.toList) := rfl
  rw [hmap, List.map_map] at hpayload
  have hbytes : utf8Bytes (stringifyFields ((field :: fields).map fun f =>
      (f.1.toList, f.2.map String.toList))) ≠ [] := by
    intro h
    have htext := utf8Text_utf8Bytes platform (stringifyFields ((field :: fields).map fun f =>
      (f.1.toList, f.2.map String.toList)))
    rw [h] at htext
    exact absurd htext.symm (List.cons_ne_nil _ _)
  have hcond : (encodeFields (field :: fields)).toList ≠ [] ∧
      (encodeFields (field :: fields)).toList.all fun c => c ∈ base64UrlAlphabet := by
    rw [encodeFields, String.toList_ofList]
    refine ⟨base64UrlEncode_ne_nil hbytes, List.all_eq_true.mpr fun c hc => ?_⟩
    exact decide_eq_true (mem_base64UrlEncode hc)
  rw [decodeCursor, if_pos hcond, encodeFields, String.toList_ofList, base64UrlDecode_encode]
  simp only [if_true, utf8Text_utf8Bytes, hpayload, Option.bind_some]
  rfl

theorem payloadField_pair {first second : String} {v w : JsonValue} (h : first ≠ second) :
    payloadField [(first.toList, v), (second.toList, w)] first = some v ∧
      payloadField [(first.toList, v), (second.toList, w)] second = some w := by
  have hne : second.toList ≠ first.toList := fun e => h (String.toList_inj.mp e.symm)
  simp [payloadField, hne]

theorem strictFields_pair {first second : String} {v w : JsonValue} :
    strictFields (.object [(first.toList, v), (second.toList, w)]) [first, second] =
      some (payloadField [(first.toList, v), (second.toList, w)]) := by
  simp [strictFields]

theorem parse_issueDateCursor {cursor : IssueDateCursor} (h : cursor.issues platform = []) :
    IssueDateCursor.parse platform (.object (cursor.fields.map fun f =>
      (f.1.toList, fieldValue (f.2.map String.toList)))) = some cursor := by
  obtain ⟨issueDate, sourceId⟩ := cursor
  have hpair : payloadField [("issueDate".toList, fieldValue (issueDate.map String.toList)),
        ("sourceId".toList, .string sourceId.toList)] "issueDate" = some _ ∧
      payloadField [("issueDate".toList, fieldValue (issueDate.map String.toList)),
        ("sourceId".toList, .string sourceId.toList)] "sourceId" = some _ :=
    payloadField_pair (by decide)
  have hnullable : nullableTextField (some (fieldValue (issueDate.map String.toList))) =
      some issueDate := by
    cases issueDate with
    | none => rfl
    | some text => simp [nullableTextField, fieldValue]
  simp only [IssueDateCursor.parse, IssueDateCursor.fields, List.map_cons, List.map_nil,
    Option.map_some, fieldValue] at hpair hnullable ⊢
  simp only [strictFields_pair, bind, Option.bind_some, hpair, hnullable, textField,
    String.ofList_toList, h, if_true]

theorem parse_updatedSinceCursor {cursor : UpdatedSinceCursor} (h : cursor.issues platform = []) :
    UpdatedSinceCursor.parse platform (.object (cursor.fields.map fun f =>
      (f.1.toList, fieldValue (f.2.map String.toList)))) = some cursor := by
  obtain ⟨sourceRowUpdatedAt, sourceId⟩ := cursor
  have hpair : payloadField [("sourceRowUpdatedAt".toList, .string sourceRowUpdatedAt.toList),
        ("sourceId".toList, .string sourceId.toList)] "sourceRowUpdatedAt" = some _ ∧
      payloadField [("sourceRowUpdatedAt".toList, .string sourceRowUpdatedAt.toList),
        ("sourceId".toList, .string sourceId.toList)] "sourceId" = some _ :=
    payloadField_pair (by decide)
  simp only [UpdatedSinceCursor.parse, UpdatedSinceCursor.fields, List.map_cons, List.map_nil,
    Option.map_some, fieldValue] at hpair ⊢
  simp only [strictFields_pair, bind, Option.bind_some, hpair, textField, String.ofList_toList, h,
    if_true]

theorem encodeCursor_eq_ok {issues : List String} {fields : List (String × Option String)}
    {encoded : String} (h : encodeCursor issues fields = .ok encoded) :
    issues = [] ∧ encoded = encodeFields fields := by
  rw [encodeCursor] at h
  split at h
  · rename_i hissues
    exact ⟨hissues, (Except.ok.inj h).symm⟩
  · cases h

/-- **A cursor that was encoded is decoded as itself**, by the property endpoint. -/
theorem decodePropertyViolationsCursor_encode {cursor : IssueDateCursor} {encoded : String}
    (h : encodePropertyViolationsCursor platform cursor = .ok encoded) :
    decodePropertyViolationsCursor platform encoded = .ok cursor := by
  obtain ⟨hissues, rfl⟩ := encodeCursor_eq_ok h
  rw [decodePropertyViolationsCursor, IssueDateCursor.fields, decodeCursor_encodeFields,
    ← IssueDateCursor.fields, parse_issueDateCursor hissues]

/-- … and by the portfolio endpoint, in its default ordering. -/
theorem decodePortfolioViolationsCursor_default {cursor : IssueDateCursor} {encoded : String}
    (h : encodePortfolioDefaultCursor platform cursor = .ok encoded) :
    decodePortfolioViolationsCursor platform encoded false = .ok (.default cursor) := by
  obtain ⟨hissues, rfl⟩ := encodeCursor_eq_ok h
  rw [decodePortfolioViolationsCursor, IssueDateCursor.fields, decodeCursor_encodeFields,
    ← IssueDateCursor.fields, parse_issueDateCursor hissues]
  rfl

/-- … and in the ordering by source updates. -/
theorem decodePortfolioViolationsCursor_updatedSince {cursor : UpdatedSinceCursor} {encoded : String}
    (h : encodePortfolioUpdatedSinceCursor platform cursor = .ok encoded) :
    decodePortfolioViolationsCursor platform encoded true = .ok (.updatedSince cursor) := by
  obtain ⟨hissues, rfl⟩ := encodeCursor_eq_ok h
  rw [decodePortfolioViolationsCursor, UpdatedSinceCursor.fields, decodeCursor_encodeFields,
    ← UpdatedSinceCursor.fields]
  simp only [if_true, parse_updatedSinceCursor hissues, Option.map_some]

end RoundTrip

end NycPropertyResolver
