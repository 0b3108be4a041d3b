import NycPropertyResolver.Ingestion.Initialization
import NycPropertyResolver.Library.SqlTruth
import NycPropertyResolver.Query.Schemas

/-!
# Query — pages of violations

The repositories and services of the two query endpoints: `property-violations-query` and
`portfolio-violations-query`.  A page is one statement: the live rows of registered BINs that pass the
filters and the cursor predicate, in the order of the endpoint, one more than the limit.  Texts are
compared under one collation, given as what it compares.
-/

namespace NycPropertyResolver

open Library

variable {Row C : Type} [LinearOrder C]

/-! ### Casts -/

/-- `${text}::date`; `none` where the statement fails. -/
def Platform.sqlDate (platform : Platform) (text : String) : Option Int :=
  match readDateText text.toList with
  | some date => if 1 ≤ date.year ∧ date.OnCalendar then some (daysFromCivil date)
      else platform.castDate text
  | none => platform.castDate text

/-- `${text}::timestamptz`; `none` where the statement fails. -/
def Platform.sqlTimestamptz (platform : Platform) (text : String) : Option Int :=
  match readInstant text.toList with
  | some (date, t) => if 1 ≤ date.year ∧ date.year ≤ 9999 then some t
      else platform.castTimestamptz text
  | none => platform.castTimestamptz text

/-- PostgreSQL's error for a date it cannot represent. -/
def castError : QueryError := .database "date/time field value out of range"

/-! ### Cursor predicates -/

section Predicates

variable (platform : Platform) (collation : SourceId ↪ C)

/-- `live."source_id" < ${sourceId}`. -/
def sourceIdBefore (live : EcbViolation) (sourceId : String) : SqlTruth :=
  some (decide (collation live.sourceId < collation sourceId))

/-- The predicate of a cursor by a date column: `issue_date` or `source_row_updated_at`. -/
def dateCursorPredicate (column : EcbViolation → Option Int) (value : Int) (sourceId : String)
    (live : EcbViolation) : SqlTruth :=
  (SqlTruth.compare (fun a b => decide (a < b)) (column live) (some value)).or
    ((SqlTruth.compare (fun a b => decide (a = b)) (column live) (some value)).and
      (sourceIdBefore collation live sourceId))

/-- `buildCursorPredicate`, of a cursor. -/
def issueDateCursorPredicate (cursor : IssueDateCursor) :
    Except QueryError (EcbViolation → SqlTruth) :=
  match cursor.issueDate with
  | none => .ok fun live =>
      (SqlTruth.isNull live.issueDate).and (sourceIdBefore collation live cursor.sourceId)
  | some issueDate =>
    match platform.sqlDate issueDate with
    | none => .error castError
    | some value => .ok fun live =>
        (dateCursorPredicate collation (·.issueDate) value cursor.sourceId live).or
          (SqlTruth.isNull live.issueDate)

/-- `buildCursorPredicate`. -/
def buildCursorPredicate (query : PropertyViolationsQuery) :
    Except QueryError (EcbViolation → SqlTruth) :=
  match query.cursor with
  | none => .ok fun _ => some true
  | some cursor => issueDateCursorPredicate platform collation cursor

/-- `buildDefaultCursorPredicate`. -/
def buildDefaultCursorPredicate (query : PortfolioViolationsQuery) :
    Except QueryError (EcbViolation → SqlTruth) :=
  match query.cursor, query.updatedSince with
  | some (.default cursor), none => issueDateCursorPredicate platform collation cursor
  | _, _ => .ok fun _ => some true

/-- `buildUpdatedSinceCursorPredicate`. -/
def buildUpdatedSinceCursorPredicate (query : PortfolioViolationsQuery) :
    Except QueryError (EcbViolation → SqlTruth) :=
  match query.cursor, query.updatedSince with
  | some (.updatedSince cursor), some _ =>
    match platform.sqlTimestamptz cursor.sourceRowUpdatedAt with
    | none => .error castError
    | some value => .ok (dateCursorPredicate collation (fun live => some live.sourceRowUpdatedAt) value
        cursor.sourceId)
  | _, _ => .ok fun _ => some true

end Predicates

/-! ### Orders -/

section Orders

variable (collation : SourceId ↪ C)

/-- `… DESC NULLS LAST`. -/
def descNullsLast (a b : Option Int) : Ordering :=
  match a, b with
  | none, none => .eq
  | none, some _ => .gt
  | some _, none => .lt
  | some x, some y => Ord.compare y x

/-- `ORDER BY … DESC NULLS LAST, live."source_id" DESC`, of a column without nulls the same. -/
def orderByDesc (column : EcbViolation → Option Int) (a b : EcbViolation) : Ordering :=
  (descNullsLast (column a) (column b)).then
    (Ord.compare (collation b.sourceId) (collation a.sourceId))

end Orders

/-! ### Repositories -/

/-- `{ violations, hasMore }`. -/
structure ViolationsPage where
  violations : List EcbViolation
  hasMore : Bool

/-- `… WHERE … ORDER BY … LIMIT limit + 1`, cut to the limit. -/
def selectPage (live : List EcbViolation) (condition : EcbViolation → Bool)
    (predicate : EcbViolation → SqlTruth) (order : EcbViolation → EcbViolation → Ordering)
    (limit : Nat) : ViolationsPage :=
  let rows := ((live.filter fun row => condition row && predicate row = some true).insertionSort
    fun a b => (order a b).isLE = true).take (limit + 1)
  ⟨rows.take limit, limit < rows.length⟩

section Repositories

variable (platform : Platform) (collation : SourceId ↪ C) (db : Db Row)

/-- The rows of `ecb_violations`. -/
def Db.liveRows : List EcbViolation := db.live.rows.map (·.2)

/-- `AND live."ecb_violation_status" = 'ACTIVE'`. -/
def isOpen (live : EcbViolation) : Bool :=
  SqlTruth.compare (fun a b => decide (a = b)) live.ecbViolationStatus (some "ACTIVE") = some true

/-- `AND live."balance_due" > 0`. -/
def isUnpaid (live : EcbViolation) : Bool :=
  SqlTruth.compare (fun a b => decide (b < a)) live.balanceDue (some 0) = some true

/-- The `WHERE` clause of the property endpoint, but for the cursor. -/
def propertyCondition (propertyId : PropertyId) (openOnly unpaidOnly : Bool) (live : EcbViolation) :
    Bool :=
  live.isCurrent && decide (live.bin ∈ db.propertyBins propertyId) && (!openOnly || isOpen live) &&
    (!unpaidOnly || isUnpaid live)

/-- The `WHERE` clause of the portfolio endpoint, but for the cursor. -/
def portfolioCondition (unpaidOnly : Bool) (updatedSince : Option Int) (live : EcbViolation) : Bool :=
  live.isCurrent && db.selectPropertyBins.any (fun r => r.1 = live.bin) &&
    (!unpaidOnly || isUnpaid live) && updatedSince.all fun since => since < live.sourceRowUpdatedAt

/-- `findPageWithExecutor` of the property endpoint. -/
def findPropertyPage (propertyId : PropertyId) (query : PropertyViolationsQuery) :
    Except QueryError ViolationsPage := do
  let predicate ← buildCursorPredicate platform collation query
  .ok (selectPage db.liveRows (propertyCondition db propertyId query.openOnly query.unpaidOnly)
    predicate (orderByDesc collation (·.issueDate)) query.limit)

/-- `findPageWithExecutor` of the portfolio endpoint. -/
def findPortfolioPage (query : PortfolioViolationsQuery) : Except QueryError ViolationsPage := do
  match query.updatedSince with
  | none =>
    let predicate ← buildDefaultCursorPredicate platform collation query
    .ok (selectPage db.liveRows (portfolioCondition db query.unpaidOnly query.updatedSince)
      predicate (orderByDesc collation (·.issueDate)) query.limit)
  | some _ =>
    let predicate ← buildUpdatedSinceCursorPredicate platform collation query
    .ok (selectPage db.liveRows (portfolioCondition db query.unpaidOnly query.updatedSince)
      predicate (orderByDesc collation fun live => some live.sourceRowUpdatedAt) query.limit)

end Repositories

/-! ### Services -/

/-- `ViolationsPageInfo`: the limit, and where the next page starts, if there is one. -/
structure ViolationsPageInfo where
  limit : Nat
  hasMore : Bool
  nextCursor : Option String
  deriving DecidableEq

/-- A page of a property's violations, and its coverage. -/
structure PropertyViolationsQueryResult where
  violations : List EcbViolation
  coverage : Option PropertyDatasetCoverage
  page : ViolationsPageInfo
  deriving DecidableEq

/-- A page of all violations. -/
structure PortfolioViolationsQueryResult where
  violations : List EcbViolation
  page : ViolationsPageInfo
  deriving DecidableEq

/-- `issueDate?.toISOString().slice(0, 10) ?? null`. -/
def issueDateText (issueDate : Option Int) : Option String :=
  issueDate.map fun days => String.ofList ((toISOString (days * msPerDay)).take 10)

/-- The cursor after a row, in the default order. -/
def issueDateCursorOf (row : EcbViolation) : IssueDateCursor :=
  ⟨issueDateText row.issueDate, row.sourceId⟩

/-- The cursor after a row, in the order of `updatedSince`. -/
def updatedSinceCursorOf (row : EcbViolation) : UpdatedSinceCursor :=
  ⟨String.ofList (toISOString row.sourceRowUpdatedAt), row.sourceId⟩

/-- The cursor after a page, if there are more. -/
def nextCursor (page : ViolationsPage) (encode : EcbViolation → Except QueryError String) :
    Except QueryError (Option String) :=
  match page.hasMore, page.violations.getLast? with
  | true, some last => (encode last).map some
  | _, _ => .ok none

section Services

variable (platform : Platform) (collation : SourceId ↪ C) (db : Db Row)

/-- `query` of the property endpoint; both reads are of one snapshot. -/
def queryPropertyViolations (propertyId : PropertyId) (raw : RawQuery) :
    Except QueryError PropertyViolationsQueryResult := do
  let query ← parsePropertyViolationsQuery platform raw
  let page ← findPropertyPage platform collation db propertyId query
  let next ← nextCursor page fun last =>
    encodePropertyViolationsCursor platform (issueDateCursorOf last)
  .ok ⟨page.violations, db.coverage propertyId, query.limit, page.hasMore, next⟩

/-- `query` of the portfolio endpoint. -/
def queryPortfolioViolations (raw : RawQuery) :
    Except QueryError PortfolioViolationsQueryResult := do
  let query ← parsePortfolioViolationsQuery platform raw
  let page ← findPortfolioPage platform collation db query
  let next ← nextCursor page fun last =>
    match query.updatedSince with
    | none => encodePortfolioDefaultCursor platform (issueDateCursorOf last)
    | some _ => encodePortfolioUpdatedSinceCursor platform (updatedSinceCursorOf last)
  .ok ⟨page.violations, query.limit, page.hasMore, next⟩

end Services

end NycPropertyResolver
