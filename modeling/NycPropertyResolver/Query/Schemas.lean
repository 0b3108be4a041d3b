import NycPropertyResolver.Query.Cursor

/-!
# Query — request schemas

`parsePropertyViolationsQuery` and `parsePortfolioViolationsQuery`: the query string of a request, each
field checked.  The issues of all fields are reported in one validation error; a cursor the property
endpoint cannot decode is reported at once.
-/

namespace NycPropertyResolver

/-! ### Query strings -/

/-- The value of a field of a query string: a text, or what a repeated or bracketed field becomes. -/
inductive RawValue where
  | text (value : String)
  | other (typeName : String)
  deriving DecidableEq, Repr

/-- A query string, as its fields. -/
abbrev RawQuery := List (String × RawValue)

/-- The value of a field, if it is given. -/
def RawQuery.field (raw : RawQuery) (name : String) : Option RawValue :=
  (raw.find? fun f => f.1 = name).map (·.2)

/-! ### Fields -/

/-- The value of a field, or the messages of its issues. -/
abbrev QueryField (α : Type) := Except (List String) α

/-- `limit`, of either endpoint. -/
abbrev PageLimit := { n : Nat // 1 ≤ n ∧ n ≤ 100 }

/-- `strictQueryBoolean.optional().default('false')`. -/
def strictQueryBoolean (value : Option RawValue) : QueryField Bool :=
  match value with
  | none => .ok false
  | some (.text text) =>
    if text = "true" then .ok true
    else if text = "false" then .ok false
    else .error [s!"Invalid enum value. Expected 'true' | 'false', received '{text}'"]
  | some (.other _) => .error ["filter must be true or false"]

/-- `/^[1-9]\d*$/`. -/
def isPositiveIntegerText (cs : List Char) : Bool :=
  cs.all Char.isDigit && cs.head?.any fun c => c ≠ '0'

/-- `DEFAULT_PROPERTY_VIOLATIONS_PAGE_SIZE` and `DEFAULT_PORTFOLIO_VIOLATIONS_PAGE_SIZE`. -/
def defaultViolationsPageSize : PageLimit := ⟨50, by decide⟩

/-- `pageSizeSchema.optional().default(…)`.  A text that fails the expression is neither transformed nor
compared with the maximum. -/
def pageSizeField (value : Option RawValue) : QueryField PageLimit :=
  match value with
  | none => .ok defaultViolationsPageSize
  | some (.other _) => .error ["limit must be a positive integer"]
  | some (.text text) =>
    let limit := Nat.ofDigitChars 10 text.toList 0
    if isPositiveIntegerText text.toList then
      if h : 1 ≤ limit ∧ limit ≤ 100 then .ok ⟨limit, h⟩ else .error ["limit must be at most 100"]
    else
      .error ["limit must be a positive integer"]

/-- `z.string().min(1, …).optional()`, the text of a cursor. -/
def cursorField (value : Option RawValue) : QueryField (Option String) :=
  match value with
  | none => .ok none
  | some (.text text) => if text = "" then .error ["cursor must be non-empty"] else .ok (some text)
  | some (.other typeName) => .error [s!"Expected string, received {typeName}"]

/-- `updatedSinceSchema.optional()`. -/
def updatedSinceField (platform : Platform) (value : Option RawValue) : QueryField (Option Int) :=
  match value with
  | none => .ok none
  | some (.other _) => .error ["updatedSince must be an ISO 8601 timestamp"]
  | some (.text text) =>
    match issueUnless (text ≠ "") "updatedSince must be a non-empty timestamp", platform.newDate text with
    | [], some t => .ok (some t)
    | issues, t => .error (issues ++ issueUnless t.isSome "updatedSince must be a valid timestamp")

/-- The messages of a field. -/
def fieldMessages {α : Type} (field : QueryField α) : List String :=
  match field with
  | .ok _ => []
  | .error messages => messages

/-- The message of a strict object about the fields it does not have. -/
def unrecognizedMessages (raw : RawQuery) (names : List String) : List String :=
  let unrecognized := (raw.map (·.1)).filter fun name => name ∉ names
  if unrecognized = [] then []
  else ["Unrecognized key(s) in object: " ++
    String.intercalate ", " (unrecognized.map fun name => s!"'{name}'")]

/-- The error of a query that is refused, with all its issues. -/
def queryValidationError (messages : List String) : QueryError :=
  cursorValidationError (String.intercalate "; " messages)

/-! ### Queries -/

/-- `PropertyViolationsQuery`: the query of a property's violations, checked. -/
structure PropertyViolationsQuery where
  openOnly : Bool
  unpaidOnly : Bool
  cursor : Option IssueDateCursor
  limit : PageLimit

/-- `PortfolioViolationsQuery`: the query of all violations, checked. -/
structure PortfolioViolationsQuery where
  unpaidOnly : Bool
  updatedSince : Option Int
  cursor : Option PortfolioViolationsCursor
  limit : PageLimit

/-- The cursor of a query, decoded. -/
def decodeOptional {α : Type} (decode : String → Except QueryError α) (encoded : Option String) :
    Except QueryError (Option α) :=
  match encoded with
  | none => .ok none
  | some text => (decode text).map some

/-- `parsePropertyViolationsQuery`. -/
def parsePropertyViolationsQuery (platform : Platform) (raw : RawQuery) :
    Except QueryError PropertyViolationsQuery := do
  let cursorText := cursorField (raw.field "cursor")
  let openOnly := strictQueryBoolean (raw.field "openOnly")
  let unpaidOnly := strictQueryBoolean (raw.field "unpaidOnly")
  let limit := pageSizeField (raw.field "limit")
  let unrecognized := unrecognizedMessages raw ["openOnly", "unpaidOnly", "cursor", "limit"]
  -- decoding throws from inside the schema
  let cursor ← decodeOptional (decodePropertyViolationsCursor platform) (cursorText.toOption.getD none)
  match openOnly, unpaidOnly, cursorText, limit, unrecognized with
  | .ok openOnly, .ok unpaidOnly, .ok _, .ok limit, [] => .ok ⟨openOnly, unpaidOnly, cursor, limit⟩
  | openOnly, unpaidOnly, cursorText, limit, unrecognized =>
    .error (queryValidationError (fieldMessages openOnly ++ fieldMessages unpaidOnly ++
      fieldMessages cursorText ++ fieldMessages limit ++ unrecognized))

/-- `parsePortfolioViolationsQuery`. -/
def parsePortfolioViolationsQuery (platform : Platform) (raw : RawQuery) :
    Except QueryError PortfolioViolationsQuery :=
  let unpaidOnly := strictQueryBoolean (raw.field "unpaidOnly")
  let updatedSince := updatedSinceField platform (raw.field "updatedSince")
  let cursorText := cursorField (raw.field "cursor")
  let limit := pageSizeField (raw.field "limit")
  let unrecognized := unrecognizedMessages raw ["unpaidOnly", "updatedSince", "cursor", "limit"]
  match unpaidOnly, updatedSince, cursorText, limit, unrecognized with
  | .ok unpaidOnly, .ok updatedSince, .ok cursorText, .ok limit, [] => do
    let cursor ← decodeOptional
      (fun text => decodePortfolioViolationsCursor platform text updatedSince.isSome) cursorText
    .ok ⟨unpaidOnly, updatedSince, cursor, limit⟩
  | unpaidOnly, updatedSince, cursorText, limit, unrecognized =>
    .error (queryValidationError (fieldMessages unpaidOnly ++ fieldMessages updatedSince ++
      fieldMessages cursorText ++ fieldMessages limit ++ unrecognized))

/-! ### The queries a client follows -/

section Client

variable {platform : Platform} {limit : PageLimit}

/-- The texts of a filter and of a limit. -/
def booleanText (b : Bool) : RawValue := .text (if b then "true" else "false")

/-- The text of a limit. -/
def limitText (limit : PageLimit) : RawValue := .text (String.ofList (Nat.toDigits 10 limit))

/-- A client sends the cursor it was given, if it has one. -/
def cursorFields (cursor : Option String) : RawQuery :=
  match cursor with
  | none => []
  | some text => [("cursor", .text text)]

theorem strictQueryBoolean_text (b : Bool) : strictQueryBoolean (some (booleanText b)) = .ok b := by
  cases b <;> rfl

theorem pageSizeField_text (limit : PageLimit) : pageSizeField (some (limitText limit)) = .ok limit := by
  obtain ⟨n, hn₀, hn₁⟩ := limit
  have hall : ∀ n < 101, 1 ≤ n → isPositiveIntegerText (Nat.toDigits 10 n) = true := by
    decide +kernel
  simp only [pageSizeField, limitText, String.toList_ofList, Nat.ofDigitChars_ten_toDigits,
    hall n (Nat.lt_succ_of_le hn₁) hn₀, if_true, dif_pos (And.intro hn₀ hn₁)]

end Client

end NycPropertyResolver
