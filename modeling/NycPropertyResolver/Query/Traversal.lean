import NycPropertyResolver.Query.CursorCodec
import NycPropertyResolver.Query.Pagination

/-!
# Query — traversals

A client asks for a listing page by page, sending each time the `nextCursor` it was given, until there is
none.  Between two requests the database may change in any way.  The rows whose cursor can be written
and read back are those with a source id and a date of the years 1 to 9999 (`Readable`); among them a
traversal loses and repeats nothing (`keyset_pagination`).
-/

namespace NycPropertyResolver

open Library

variable {Row C : Type} [LinearOrder C]

/-! ### Cursors of rows -/

section Cursors

variable {platform : Platform} {collation : SourceId ↪ C}

/-- A day of the years 1 to 9999. -/
def ReadableDay (days : Int) : Prop :=
  1 ≤ (civilFromDays days).year ∧ (civilFromDays days).year ≤ 9999

instance (days : Int) : Decidable (ReadableDay days) := inferInstanceAs (Decidable (_ ∧ _))

theorem ReadableDay.fourDigitYear {days : Int} (h : ReadableDay days) : FourDigitYear days := by
  obtain ⟨h₀, h₁⟩ := h
  exact ⟨by omega, h₁⟩

/-- PostgreSQL casts the text of a readable day to that day. -/
theorem sqlDate_issueDateText {days : Int} (h : ReadableDay days) :
    platform.sqlDate (String.ofList ((toISOString (days * msPerDay)).take 10)) = some days := by
  have hyear := h.fourDigitYear
  rw [Platform.sqlDate, String.toList_ofList, issueDateText_toList hyear, readDateText_isoDate hyear]
  simp only [h.1, onCalendar_civilFromDays, and_self, if_true, daysFromCivil_civilFromDays]

theorem readInstant_of_readable {t : Int} (h : ReadableDay (t / msPerDay)) :
    readInstant (toISOString t) = some (civilFromDays (t / msPerDay), t) :=
  readInstant_toISOString (by
    obtain ⟨h₀, h₁⟩ := h
    omega)

theorem sqlTimestamptz_toISOString {t : Int} (h : ReadableDay (t / msPerDay)) :
    platform.sqlTimestamptz (String.ofList (toISOString t)) = some t := by
  rw [Platform.sqlTimestamptz, String.toList_ofList, readInstant_of_readable h]
  exact if_pos h

end Cursors

/-! ### Listings -/

/-- What a client asks for, besides the page. -/
inductive ViolationsListing where
  | property (propertyId : PropertyId) (openOnly unpaidOnly : Bool)
  | portfolio (unpaidOnly : Bool) (updatedSince : Option String)

namespace ViolationsListing

/-- The date column of the order of a listing. -/
def column : ViolationsListing → EcbViolation → Option Int
  | .portfolio _ (some _) => fun row => some row.sourceRowUpdatedAt
  | _ => fun row => row.issueDate

/-- A row is of a listing: it is current, its BIN is registered, and it passes the filters. -/
def Matches (platform : Platform) (db : Db Row) (row : EcbViolation) : ViolationsListing → Prop
  | .property propertyId openOnly unpaidOnly =>
      row.isCurrent = true ∧ row.bin ∈ db.propertyBins propertyId ∧
        (openOnly = true → row.ecbViolationStatus = some "ACTIVE") ∧
        (unpaidOnly = true → ∃ balance, row.balanceDue = some balance ∧ 0 < balance)
  | .portfolio unpaidOnly updatedSince =>
      row.isCurrent = true ∧
        (∃ propertyId, db.properties.find propertyId ≠ none ∧ row.bin ∈ db.propertyBins propertyId) ∧
        (unpaidOnly = true → ∃ balance, row.balanceDue = some balance ∧ 0 < balance) ∧
        ∀ text ∈ updatedSince, ∃ since, platform.newDate text = some since ∧
          since < row.sourceRowUpdatedAt

/-- A filter the endpoint accepts: a given `updatedSince` is a timestamp. -/
def FilterAccepted (platform : Platform) : ViolationsListing → Prop
  | .portfolio _ (some text) => text ≠ "" ∧ (platform.newDate text).isSome = true
  | _ => True

/-- A row whose sort key its cursor can carry. -/
def Readable (row : EcbViolation) : ViolationsListing → Prop
  | .portfolio _ (some _) => row.sourceId ≠ "" ∧ ReadableDay (row.sourceRowUpdatedAt / msPerDay)
  | _ => row.sourceId ≠ "" ∧ ∀ days ∈ row.issueDate, ReadableDay days

/-- The query string of a request. -/
def rawQuery (limit : PageLimit) (cursor : Option String) : ViolationsListing → RawQuery
  | .property _ openOnly unpaidOnly =>
      ("openOnly", booleanText openOnly) :: ("unpaidOnly", booleanText unpaidOnly) ::
        ("limit", limitText limit) :: cursorFields cursor
  | .portfolio unpaidOnly none =>
      ("unpaidOnly", booleanText unpaidOnly) :: ("limit", limitText limit) :: cursorFields cursor
  | .portfolio unpaidOnly (some text) =>
      ("unpaidOnly", booleanText unpaidOnly) :: ("updatedSince", .text text) ::
        ("limit", limitText limit) :: cursorFields cursor

/-- A request for a page: the rows, and the cursor of the next page. -/
def request (platform : Platform) (collation : SourceId ↪ C) (db : Db Row) (limit : PageLimit)
    (cursor : Option String) (listing : ViolationsListing) :
    Except QueryError (List EcbViolation × Option String) :=
  match listing with
  | .property propertyId _ _ =>
    (queryPropertyViolations platform collation db propertyId (listing.rawQuery limit cursor)).map
      fun result => (result.violations, result.page.nextCursor)
  | .portfolio _ _ =>
    (queryPortfolioViolations platform collation db (listing.rawQuery limit cursor)).map
      fun result => (result.violations, result.page.nextCursor)

/-- The cursor of a row. -/
def encode (platform : Platform) (row : EcbViolation) : ViolationsListing → Except QueryError String
  | .property _ _ _ => encodePropertyViolationsCursor platform (issueDateCursorOf row)
  | .portfolio _ none => encodePortfolioDefaultCursor platform (issueDateCursorOf row)
  | .portfolio _ (some _) => encodePortfolioUpdatedSinceCursor platform (updatedSinceCursorOf row)

/-- The condition of the statement of a listing. -/
def condition (platform : Platform) (db : Db Row) : ViolationsListing → EcbViolation → Bool
  | .property propertyId openOnly unpaidOnly => propertyCondition db propertyId openOnly unpaidOnly
  | .portfolio unpaidOnly updatedSince =>
      portfolioCondition db unpaidOnly (updatedSince.bind platform.newDate)

section Listing

variable {platform : Platform} {collation : SourceId ↪ C} {db : Db Row} {listing : ViolationsListing}
  {row : EcbViolation}

theorem isUnpaid_iff : isUnpaid row = true ↔
    ∃ balance, row.balanceDue = some balance ∧ 0 < balance := by
  simp [isUnpaid]

theorem isOpen_iff : isOpen row = true ↔ row.ecbViolationStatus = some "ACTIVE" := by
  simp [isOpen]

/-- **The `WHERE` clause is the filter of the listing.** -/
theorem condition_iff (hfilter : listing.FilterAccepted platform) :
    listing.condition platform db row = true ↔ listing.Matches platform db row := by
  cases listing with
  | property propertyId openOnly unpaidOnly =>
      simp only [condition, propertyCondition, Matches, Bool.and_eq_true, Bool.or_eq_true,
        Bool.not_eq_true', decide_eq_true_eq, isOpen_iff, isUnpaid_iff, and_assoc]
      cases openOnly <;> cases unpaidOnly <;> simp
  | portfolio unpaidOnly updatedSince =>
      have hbins : (db.selectPropertyBins.any fun r => r.1 = row.bin) = true ↔
          ∃ propertyId, db.properties.find propertyId ≠ none ∧ row.bin ∈ db.propertyBins propertyId := by
        rw [List.any_eq_true]
        constructor
        · rintro ⟨⟨bin, p⟩, hmem, hbin⟩
          cases of_decide_eq_true hbin
          exact ⟨p, Db.mem_selectPropertyBins.mp hmem⟩
        · rintro ⟨p, hp⟩
          exact ⟨(row.bin, p), Db.mem_selectPropertyBins.mpr hp, decide_eq_true rfl⟩
      have hsince : ((updatedSince.bind platform.newDate).all fun since =>
          decide (since < row.sourceRowUpdatedAt)) = true ↔
          ∀ text ∈ updatedSince, ∃ since, platform.newDate text = some since ∧
            since < row.sourceRowUpdatedAt := by
        cases updatedSince with
        | none => simp
        | some text =>
            obtain ⟨since, hs⟩ := Option.isSome_iff_exists.mp hfilter.2
            simp [hs]
      simp only [condition, portfolioCondition, Matches, Bool.and_eq_true, Bool.or_eq_true,
        Bool.not_eq_true', hbins, hsince, isUnpaid_iff, and_assoc]
      cases unpaidOnly <;> simp

/-- The cursor of a readable row can be written. -/
theorem encode_of_readable (h : listing.Readable row) :
    ∃ text, listing.encode platform row = .ok text := by
  have hissue : row.sourceId ≠ "" → (∀ days ∈ row.issueDate, ReadableDay days) →
      (issueDateCursorOf row).issues platform = [] := by
    intro hid hdate
    exact IssueDateCursor.issues_eq_nil.mpr
      (admissible_issueDateCursorOf hid fun days hdays => (hdate days hdays).fourDigitYear)
  cases listing with
  | property propertyId openOnly unpaidOnly => exact ⟨_, if_pos (hissue h.1 h.2)⟩
  | portfolio unpaidOnly updatedSince =>
      cases updatedSince with
      | none => exact ⟨_, if_pos (hissue h.1 h.2)⟩
      | some text =>
          have hnew : platform.newDate (String.ofList (toISOString row.sourceRowUpdatedAt)) =
              some row.sourceRowUpdatedAt :=
            newDate_toISOString (isDate_of_fourDigitYear h.2.fourDigitYear)
          have hne : String.ofList (toISOString row.sourceRowUpdatedAt) ≠ "" := by
            intro e
            have hread := readInstant_of_readable h.2
            have hempty : readInstant "".toList = none := rfl
            rw [← String.toList_ofList (l := toISOString row.sourceRowUpdatedAt), e, hempty] at hread
            cases hread
          refine ⟨_, if_pos ?_⟩
          simp [updatedSinceCursorOf, UpdatedSinceCursor.issues, issueUnless, sourceIdIssues, hnew, hne,
            h.1]

end Listing

/-! ### Requests -/

section Requests

variable {platform : Platform} {collation : SourceId ↪ C} {db : Db Row} {limit : PageLimit}

/-- The cursor a client sends stands for the position after a readable row. -/
def CursorAt (platform : Platform) (collation : SourceId ↪ C) (listing : ViolationsListing)
    (cursor : Option String) (position : Option (SortKey C)) : Prop :=
  match cursor with
  | none => position = none
  | some text => ∃ row, listing.encode platform row = .ok text ∧ listing.Readable row ∧
      position = some (sortKey collation listing.column row)

/-- The rows of a listing, in its order. -/
def rows (platform : Platform) (collation : SourceId ↪ C) (db : Db Row)
    (listing : ViolationsListing) : List EcbViolation :=
  orderedRows collation listing.column db.liveRows (listing.condition platform db)

/-- The page of a listing at a position. -/
def pageAt (platform : Platform) (collation : SourceId ↪ C) (db : Db Row) (limit : PageLimit)
    (listing : ViolationsListing) (position : Option (SortKey C)) : ViolationsPage :=
  let page := keysetPage (sortKey collation listing.column) (listing.rows platform collation db)
    position limit
  ⟨page.1, page.2⟩

/-- A cursor predicate is what lies beyond the row the cursor is of. -/
theorem issueDateCursorPredicate_of_readable (platform : Platform) (collation : SourceId ↪ C)
    {row : EcbViolation}
    (h : ∀ days ∈ row.issueDate, ReadableDay days) :
    ∃ predicate, issueDateCursorPredicate platform collation (issueDateCursorOf row) = .ok predicate ∧
      ∀ live, predicate live = some true ↔
        Beyond (some (sortKey collation (·.issueDate) row)) (sortKey collation (·.issueDate) live) := by
  simp only [beyond_some]
  cases hrow : row.issueDate with
  | none =>
      refine ⟨fun live => (SqlTruth.isNull live.issueDate).and
        (sourceIdBefore collation live row.sourceId), ?_, fun live => ?_⟩
      · simp only [issueDateCursorPredicate, issueDateCursorOf, issueDateText, hrow, Option.map_none]
      · exact nullCursorPredicate_eq_true (·.issueDate) hrow
  | some days =>
      have hdate : platform.sqlDate (String.ofList ((toISOString (days * msPerDay)).take 10)) =
          some days := sqlDate_issueDateText (h days hrow)
      refine ⟨fun live => (dateCursorPredicate collation (·.issueDate) days row.sourceId live).or
        (SqlTruth.isNull live.issueDate), ?_, fun live => ?_⟩
      · simp only [issueDateCursorPredicate, issueDateCursorOf, issueDateText, hrow, Option.map_some,
          hdate]
      · rw [SqlTruth.or_eq_true, SqlTruth.isNull_eq_true]
        exact dateCursorPredicate_eq_true (·.issueDate) hrow

/-- A request of the property endpoint, as its query. -/
theorem parseProperty_rawQuery {propertyId : PropertyId} {openOnly unpaidOnly : Bool}
    {cursor : Option String} {decoded : Option IssueDateCursor} (hne : cursor ≠ some "")
    (hdecode : decodeOptional (decodePropertyViolationsCursor platform) cursor = .ok decoded) :
    parsePropertyViolationsQuery platform
      ((property propertyId openOnly unpaidOnly).rawQuery limit cursor) =
      .ok ⟨openOnly, unpaidOnly, decoded, limit⟩ := by
  have hcursor : cursorField (((property propertyId openOnly unpaidOnly).rawQuery limit cursor).field
      "cursor") = .ok cursor := by
    cases cursor with
    | none => rfl
    | some text =>
        have hne' : text ≠ "" := fun e => hne (congrArg some e)
        exact if_neg hne'
  have hunrecognized : unrecognizedMessages
      ((property propertyId openOnly unpaidOnly).rawQuery limit cursor)
      ["openOnly", "unpaidOnly", "cursor", "limit"] = [] := by
    cases cursor <;> rfl
  have hopen := strictQueryBoolean_text openOnly
  have hunpaid := strictQueryBoolean_text unpaidOnly
  have hlimit := pageSizeField_text limit
  have hfields : ((property propertyId openOnly unpaidOnly).rawQuery limit cursor).field "openOnly" =
      some (booleanText openOnly) ∧
      ((property propertyId openOnly unpaidOnly).rawQuery limit cursor).field "unpaidOnly" =
      some (booleanText unpaidOnly) ∧
      ((property propertyId openOnly unpaidOnly).rawQuery limit cursor).field "limit" =
      some (limitText limit) := ⟨rfl, rfl, rfl⟩
  simp only [parsePropertyViolationsQuery, hcursor, hunrecognized, hfields, hopen, hunpaid, hlimit,
    Except.toOption, Option.getD_some, hdecode, bind, Except.bind]

/-- A request of the portfolio endpoint, as its query. -/
theorem parsePortfolio_rawQuery {unpaidOnly : Bool} {updatedSince cursor : Option String}
    {decoded : Option PortfolioViolationsCursor} (hne : cursor ≠ some "")
    (hfilter : (portfolio unpaidOnly updatedSince).FilterAccepted platform)
    (hdecode : decodeOptional (fun text => decodePortfolioViolationsCursor platform text
      updatedSince.isSome) cursor = .ok decoded) :
    parsePortfolioViolationsQuery platform
      ((portfolio unpaidOnly updatedSince).rawQuery limit cursor) =
      .ok ⟨unpaidOnly, updatedSince.bind platform.newDate, decoded, limit⟩ := by
  have hunpaid := strictQueryBoolean_text unpaidOnly
  have hlimit := pageSizeField_text limit
  have hcursor : cursorField (((portfolio unpaidOnly updatedSince).rawQuery limit cursor).field
      "cursor") = .ok cursor := by
    cases cursor with
    | none => cases updatedSince <;> rfl
    | some text =>
        have hne' : text ≠ "" := fun e => hne (congrArg some e)
        cases updatedSince <;> exact if_neg hne'
  have hunrecognized : unrecognizedMessages
      ((portfolio unpaidOnly updatedSince).rawQuery limit cursor)
      ["unpaidOnly", "updatedSince", "cursor", "limit"] = [] := by
    cases cursor <;> cases updatedSince <;> rfl
  cases updatedSince with
  | none =>
      have hfields : ((portfolio unpaidOnly none).rawQuery limit cursor).field "unpaidOnly" =
          some (booleanText unpaidOnly) ∧
          ((portfolio unpaidOnly none).rawQuery limit cursor).field "updatedSince" = none ∧
          ((portfolio unpaidOnly none).rawQuery limit cursor).field "limit" =
          some (limitText limit) := by
        cases cursor <;> exact ⟨rfl, rfl, rfl⟩
      have hdecode' : decodeOptional (fun text => decodePortfolioViolationsCursor platform text
        (none : Option Int).isSome) cursor = .ok decoded := hdecode
      simp only [parsePortfolioViolationsQuery, hcursor, hunrecognized, hfields, hunpaid, hlimit,
        updatedSinceField, Option.bind_none, bind, Except.bind]
      rw [hdecode']
  | some text =>
      obtain ⟨since, hsince⟩ := Option.isSome_iff_exists.mp hfilter.2
      have hfields : ((portfolio unpaidOnly (some text)).rawQuery limit cursor).field "unpaidOnly" =
          some (booleanText unpaidOnly) ∧
          ((portfolio unpaidOnly (some text)).rawQuery limit cursor).field "updatedSince" =
          some (.text text) ∧
          ((portfolio unpaidOnly (some text)).rawQuery limit cursor).field "limit" =
          some (limitText limit) := ⟨rfl, rfl, rfl⟩
      have hsinceField : updatedSinceField platform (some (.text text)) = .ok (some since) := by
        simp [updatedSinceField, issueUnless, hfilter.1, hsince]
      have hdecode' : decodeOptional (fun text => decodePortfolioViolationsCursor platform text
        (some since).isSome) cursor = .ok decoded := hdecode
      simp only [parsePortfolioViolationsQuery, hcursor, hunrecognized, hfields, hunpaid, hlimit,
        hsinceField, Option.bind_some, hsince, bind, Except.bind]
      rw [hdecode']

theorem decodeOptional_ne_empty {α : Type} {parse : JsonValue → Option α} {cursor : Option String}
    {decoded : Option α}
    (h : decodeOptional (decodeCursor platform parse) cursor = .ok decoded) : cursor ≠ some "" := by
  rintro rfl
  rw [decodeOptional, decodeCursor, if_neg (by simp)] at h
  cases h

/-- The result of a service, with the cursor it makes of its page. -/
theorem map_nextCursor {β : Type} {next : Except QueryError (Option String)} {f : Option String → β}
    {g : β → List EcbViolation × Option String} :
    (next >>= fun cursor => Except.ok (f cursor)).map g = next.map fun cursor => g (f cursor) := by
  cases next <;> rfl

theorem request_property_eq {propertyId : PropertyId} {openOnly unpaidOnly : Bool}
    {cursor : Option String} {decoded : Option IssueDateCursor} {position : Option (SortKey C)}
    {predicate : EcbViolation → SqlTruth} (hunique : SourceIdUnique db.liveRows)
    (hdecode : decodeOptional (decodePropertyViolationsCursor platform) cursor = .ok decoded)
    (hbuild : buildCursorPredicate platform collation ⟨openOnly, unpaidOnly, decoded, limit⟩ =
      .ok predicate)
    (hpredicate : ∀ row, predicate row = some true ↔
      Beyond position (sortKey collation (·.issueDate) row)) :
    (property propertyId openOnly unpaidOnly).request platform collation db limit cursor =
      (nextCursor ((property propertyId openOnly unpaidOnly).pageAt platform collation db limit position)
        fun last => (property propertyId openOnly unpaidOnly).encode platform last).map fun next =>
          (((property propertyId openOnly unpaidOnly).pageAt platform collation db limit
            position).violations, next) := by
  have hfind : findPropertyPage platform collation db propertyId
      ⟨openOnly, unpaidOnly, decoded, limit⟩ =
      .ok ((property propertyId openOnly unpaidOnly).pageAt platform collation db limit position) := by
    simp only [findPropertyPage, hbuild, bind, Except.bind, selectPage_eq hunique hpredicate]
    rfl
  have hparse : parsePropertyViolationsQuery platform
      ((property propertyId openOnly unpaidOnly).rawQuery limit cursor) =
      .ok ⟨openOnly, unpaidOnly, decoded, limit⟩ :=
    parseProperty_rawQuery (decodeOptional_ne_empty hdecode) hdecode
  simp only [request, queryPropertyViolations, hparse, hfind, bind, Except.bind]
  exact map_nextCursor

/-- A request whose cursor names a date PostgreSQL does not cast fails. -/
theorem request_property_cast_error {propertyId : PropertyId} {openOnly unpaidOnly : Bool}
    {text issueDate : String} {cursor : IssueDateCursor}
    (hdecode : decodePropertyViolationsCursor platform text = .ok cursor)
    (hdate : cursor.issueDate = some issueDate) (hcast : platform.sqlDate issueDate = none) :
    ((property propertyId openOnly unpaidOnly).request platform collation db limit
      (some text)).toOption.isNone = true := by
  have hdecode' : decodeOptional (decodePropertyViolationsCursor platform) (some text) =
      .ok (some cursor) := congrArg (Except.map some) hdecode
  have hparse : parsePropertyViolationsQuery platform
      ((property propertyId openOnly unpaidOnly).rawQuery limit (some text)) =
      .ok ⟨openOnly, unpaidOnly, some cursor, limit⟩ :=
    parseProperty_rawQuery (decodeOptional_ne_empty hdecode') hdecode'
  simp only [request, queryPropertyViolations, hparse, findPropertyPage, buildCursorPredicate,
    issueDateCursorPredicate, hdate, hcast, bind, Except.bind]
  rfl

theorem request_portfolio_eq {unpaidOnly : Bool} {updatedSince cursor : Option String}
    {decoded : Option PortfolioViolationsCursor} {position : Option (SortKey C)}
    {predicate : EcbViolation → SqlTruth} (hunique : SourceIdUnique db.liveRows)
    (hfilter : (portfolio unpaidOnly updatedSince).FilterAccepted platform)
    (hdecode : decodeOptional (fun text => decodePortfolioViolationsCursor platform text
      updatedSince.isSome) cursor = .ok decoded)
    (hbuild : (if updatedSince.isSome then buildUpdatedSinceCursorPredicate platform collation
      ⟨unpaidOnly, updatedSince.bind platform.newDate, decoded, limit⟩
      else buildDefaultCursorPredicate platform collation
        ⟨unpaidOnly, updatedSince.bind platform.newDate, decoded, limit⟩) = .ok predicate)
    (hpredicate : ∀ row, predicate row = some true ↔
      Beyond position (sortKey collation (portfolio unpaidOnly updatedSince).column row)) :
    (portfolio unpaidOnly updatedSince).request platform collation db limit cursor =
      (nextCursor ((portfolio unpaidOnly updatedSince).pageAt platform collation db limit position)
        fun last => (portfolio unpaidOnly updatedSince).encode platform last).map fun next =>
          (((portfolio unpaidOnly updatedSince).pageAt platform collation db limit
            position).violations, next) := by
  have hparse : parsePortfolioViolationsQuery platform
      ((portfolio unpaidOnly updatedSince).rawQuery limit cursor) =
      .ok ⟨unpaidOnly, updatedSince.bind platform.newDate, decoded, limit⟩ :=
    parsePortfolio_rawQuery (decodeOptional_ne_empty hdecode) hfilter hdecode
  cases updatedSince with
  | none =>
      have hfind : findPortfolioPage platform collation db ⟨unpaidOnly, none, decoded, limit⟩ =
          .ok ((portfolio unpaidOnly none).pageAt platform collation db limit position) := by
        have hdefault : buildDefaultCursorPredicate platform collation
            ⟨unpaidOnly, none, decoded, limit⟩ = .ok predicate := hbuild
        simp only [findPortfolioPage, hdefault, bind, Except.bind]
        exact congrArg Except.ok (selectPage_eq hunique hpredicate)
      simp only [request, queryPortfolioViolations, hparse, Option.bind_none, hfind, bind, Except.bind]
      exact map_nextCursor
  | some text =>
      obtain ⟨since, hsince⟩ := Option.isSome_iff_exists.mp hfilter.2
      rw [Option.bind_some, hsince] at hparse hbuild
      have hfind : findPortfolioPage platform collation db ⟨unpaidOnly, some since, decoded, limit⟩ =
          .ok ((portfolio unpaidOnly (some text)).pageAt platform collation db limit position) := by
        have hupdated : buildUpdatedSinceCursorPredicate platform collation
            ⟨unpaidOnly, some since, decoded, limit⟩ = .ok predicate := hbuild
        have hcondition : (portfolio unpaidOnly (some text)).condition platform db =
            portfolioCondition db unpaidOnly (some since) := by
          rw [condition, Option.bind_some, hsince]
        simp only [findPortfolioPage, hupdated, bind, Except.bind]
        rw [← hcondition]
        exact congrArg Except.ok (selectPage_eq hunique hpredicate)
      simp only [request, queryPortfolioViolations, hparse, hfind, bind, Except.bind]
      exact map_nextCursor

/-- **A request is a page of the listing**, at the position its cursor stands for. -/
theorem request_eq {listing : ViolationsListing} {cursor : Option String}
    {position : Option (SortKey C)} (hunique : SourceIdUnique db.liveRows)
    (hfilter : listing.FilterAccepted platform)
    (hcursor : CursorAt platform collation listing cursor position) :
    listing.request platform collation db limit cursor =
      (nextCursor (listing.pageAt platform collation db limit position)
        fun last => listing.encode platform last).map fun next =>
          ((listing.pageAt platform collation db limit position).violations, next) := by
  cases cursor with
  | none =>
      cases hcursor
      have hall : ∀ row : EcbViolation, (fun _ => some true : EcbViolation → SqlTruth) row = some true ↔
          Beyond none (sortKey collation listing.column row) :=
        fun row => ⟨fun _ => beyond_none, fun _ => rfl⟩
      cases listing with
      | property propertyId openOnly unpaidOnly =>
          have hdecode : decodeOptional (decodePropertyViolationsCursor platform) none = .ok none := rfl
          exact request_property_eq hunique hdecode rfl hall
      | portfolio unpaidOnly updatedSince =>
          have hdecode : decodeOptional (fun text => decodePortfolioViolationsCursor platform text
            updatedSince.isSome) none = .ok none := rfl
          refine request_portfolio_eq hunique hfilter hdecode ?_ hall
          cases updatedSince <;> rfl
  | some text =>
      obtain ⟨row, hencode, hreadable, rfl⟩ := hcursor
      cases listing with
      | property propertyId openOnly unpaidOnly =>
          have hdecode : decodeOptional (decodePropertyViolationsCursor platform) (some text) =
              .ok (some (issueDateCursorOf row)) :=
            congrArg (Except.map some) (decodePropertyViolationsCursor_encode hencode)
          obtain ⟨predicate, hbuild, hpredicate⟩ :=
            issueDateCursorPredicate_of_readable platform collation hreadable.2
          exact request_property_eq hunique hdecode hbuild hpredicate
      | portfolio unpaidOnly updatedSince =>
          cases updatedSince with
          | none =>
              have hdecode : decodeOptional (fun text => decodePortfolioViolationsCursor platform text
                  (none : Option String).isSome) (some text) =
                  .ok (some (.default (issueDateCursorOf row))) :=
                congrArg (Except.map some) (decodePortfolioViolationsCursor_default hencode)
              obtain ⟨predicate, hbuild, hpredicate⟩ :=
                issueDateCursorPredicate_of_readable platform collation hreadable.2
              exact request_portfolio_eq hunique hfilter hdecode hbuild hpredicate
          | some since =>
              have hdecode : decodeOptional (fun text => decodePortfolioViolationsCursor platform text
                  (some since).isSome) (some text) =
                  .ok (some (.updatedSince (updatedSinceCursorOf row))) :=
                congrArg (Except.map some) (decodePortfolioViolationsCursor_updatedSince hencode)
              obtain ⟨t, ht⟩ := Option.isSome_iff_exists.mp hfilter.2
              have hcast : platform.sqlTimestamptz (updatedSinceCursorOf row).sourceRowUpdatedAt =
                  some row.sourceRowUpdatedAt := sqlTimestamptz_toISOString hreadable.2
              have hbuild : buildUpdatedSinceCursorPredicate platform collation
                  ⟨unpaidOnly, (some since).bind platform.newDate,
                    some (.updatedSince (updatedSinceCursorOf row)), limit⟩ =
                  .ok (dateCursorPredicate collation (fun live => some live.sourceRowUpdatedAt)
                    row.sourceRowUpdatedAt row.sourceId) := by
                simp only [buildUpdatedSinceCursorPredicate, Option.bind_some, ht, hcast]
                rfl
              refine request_portfolio_eq hunique hfilter hdecode hbuild fun live => ?_
              have hstrict : dateCursorPredicate collation (fun live => some live.sourceRowUpdatedAt)
                    row.sourceRowUpdatedAt row.sourceId live = some true ∨
                  some live.sourceRowUpdatedAt = none ↔
                  sortKey collation (fun live => some live.sourceRowUpdatedAt) row <
                    sortKey collation (fun live => some live.sourceRowUpdatedAt) live :=
                dateCursorPredicate_eq_true _ rfl
              rw [beyond_some]
              exact (or_iff_left (fun h => nomatch h)).symm.trans hstrict

end Requests

/-! ### Traversals -/

section Traversals

/-- The database a request meets, and its limit. -/
structure PageRequest (Row : Type) where
  db : Db Row
  limit : PageLimit

/-- A client follows `nextCursor` from a cursor until it is null; the pages it is given. -/
inductive Traverses (platform : Platform) (collation : SourceId ↪ C) (listing : ViolationsListing) :
    Option String → List (PageRequest Row) → List (List EcbViolation) → Prop where
  | last {cursor : Option String} {r : PageRequest Row} {violations : List EcbViolation}
      (h : listing.request platform collation r.db r.limit cursor = .ok (violations, none)) :
      Traverses platform collation listing cursor [r] [violations]
  | next {cursor : Option String} {r : PageRequest Row} {violations : List EcbViolation}
      {text : String} {requests : List (PageRequest Row)} {pages : List (List EcbViolation)}
      (h : listing.request platform collation r.db r.limit cursor = .ok (violations, some text))
      (rest : Traverses platform collation listing (some text) requests pages) :
      Traverses platform collation listing cursor (r :: requests) (violations :: pages)

/-- A database whose violations have unique source ids, and whose rows of the listing are readable. -/
structure Paginable (platform : Platform) (listing : ViolationsListing) (db : Db Row) : Prop where
  unique : SourceIdUnique db.liveRows
  readable : ∀ row ∈ db.liveRows, listing.Matches platform db row → listing.Readable row

variable {platform : Platform} {collation : SourceId ↪ C} {listing : ViolationsListing}
  {cursor : Option String} {position : Option (SortKey C)}

/-- The listing a request meets, and its limit. -/
def PageRequest.keyset (platform : Platform) (collation : SourceId ↪ C) (listing : ViolationsListing)
    (r : PageRequest Row) : List EcbViolation × Nat :=
  (listing.rows platform collation r.db, r.limit)

theorem mem_rows {db : Db Row} {row : EcbViolation} (hfilter : listing.FilterAccepted platform) :
    row ∈ listing.rows platform collation db ↔ row ∈ db.liveRows ∧ listing.Matches platform db row := by
  rw [rows, mem_orderedRows, condition_iff hfilter]

/-- The cursor of the last row of a page stands for its position. -/
theorem cursorAt_last {db : Db Row} {limit : Nat} {last : EcbViolation} {text : String}
    (hfilter : listing.FilterAccepted platform) (hdb : Paginable platform listing db)
    (hlast : (keysetPage (sortKey collation listing.column) (listing.rows platform collation db)
      position limit).1.getLast? = some last)
    (hencode : listing.encode platform last = .ok text) :
    CursorAt platform collation listing (some text) (some (sortKey collation listing.column last)) := by
  have hmem := (KeysetTraversal.mem_page (List.mem_of_getLast? hlast)).1
  obtain ⟨hlive, hmatches⟩ := (mem_rows hfilter).mp hmem
  exact ⟨last, hencode, hdb.readable last hlive hmatches, rfl⟩

theorem nextCursor_eq_some {page : ViolationsPage} {encode : EcbViolation → Except QueryError String}
    {text : String} (h : nextCursor page encode = .ok (some text)) :
    page.hasMore = true ∧ ∃ last, page.violations.getLast? = some last ∧ encode last = .ok text := by
  rw [nextCursor] at h
  split at h
  · rename_i last hmore hlast
    refine ⟨hmore, last, hlast, ?_⟩
    cases hencode : encode last with
    | error e =>
        rw [hencode] at h
        cases h
    | ok text' =>
        rw [hencode] at h
        cases h
        rfl
  · cases h

theorem nextCursor_eq_none {page : ViolationsPage} {encode : EcbViolation → Except QueryError String}
    (h : nextCursor page encode = .ok none) :
    page.hasMore = false ∨ page.violations.getLast? = none := by
  rw [nextCursor] at h
  split at h
  · rename_i last _ _
    cases hencode : encode last with
    | error e =>
        rw [hencode] at h
        cases h
    | ok text =>
        rw [hencode] at h
        cases h
  · rename_i hnone
    cases hmore : page.hasMore with
    | false => exact Or.inl rfl
    | true =>
        refine Or.inr (Option.eq_none_iff_forall_ne_some.mpr fun last hlast => ?_)
        exact hnone last hmore hlast

theorem map_pair_eq_ok {next : Except QueryError (Option String)} {v violations : List EcbViolation}
    {cursor : Option String} (h : (next.map fun n => (v, n)) = .ok (violations, cursor)) :
    v = violations ∧ next = .ok cursor := by
  cases next with
  | error e => cases h
  | ok n =>
      cases h
      exact ⟨rfl, rfl⟩

/-- **A traversal of an endpoint is a keyset traversal** of the listings its requests meet. -/
theorem Traverses.keyset {requests : List (PageRequest Row)} {pages : List (List EcbViolation)}
    (h : Traverses platform collation listing cursor requests pages)
    (hfilter : listing.FilterAccepted platform) (hdb : ∀ r ∈ requests, Paginable platform listing r.db)
    (hcursor : CursorAt platform collation listing cursor position) :
    KeysetTraversal (sortKey collation listing.column) position
      (requests.map (PageRequest.keyset platform collation listing)) pages := by
  induction h generalizing position with
  | @last cursor r violations h =>
      have hr := hdb r (List.mem_singleton.mpr rfl)
      rw [request_eq hr.unique hfilter hcursor] at h
      obtain ⟨rfl, hnext⟩ := map_pair_eq_ok h
      refine .last ?_
      rcases nextCursor_eq_none hnext with hmore | hempty
      · exact hmore
      · by_contra hmore
        obtain ⟨last, hlast⟩ := exists_last_of_more r.limit.2.1 (Bool.eq_true_of_not_eq_false hmore)
        cases hempty.symm.trans hlast
  | @next cursor r violations text requests pages h rest ih =>
      have hr := hdb r List.mem_cons_self
      rw [request_eq hr.unique hfilter hcursor] at h
      obtain ⟨rfl, hnext⟩ := map_pair_eq_ok h
      obtain ⟨hmore, last, hlast, hencode⟩ := nextCursor_eq_some hnext
      exact .next hmore hlast (ih (fun r' hr' => hdb r' (List.mem_cons_of_mem _ hr'))
        (cursorAt_last hfilter hr hlast hencode))

/-- Every keyset traversal of such listings is one of the endpoint. -/
theorem traverses_of_keyset {requests : List (PageRequest Row)} {pages : List (List EcbViolation)}
    (h : KeysetTraversal (sortKey collation listing.column) position
      (requests.map (PageRequest.keyset platform collation listing)) pages)
    (hfilter : listing.FilterAccepted platform) (hdb : ∀ r ∈ requests, Paginable platform listing r.db)
    (hcursor : CursorAt platform collation listing cursor position) :
    Traverses platform collation listing cursor requests pages := by
  induction requests generalizing cursor position pages with
  | nil => cases h
  | cons r requests ih =>
      have hr := hdb r List.mem_cons_self
      have hrequest : listing.request platform collation r.db r.limit cursor = _ :=
        request_eq hr.unique hfilter hcursor
      rw [List.map_cons] at h
      generalize hkeysets : requests.map (PageRequest.keyset platform collation listing) = keysets at h
      cases h with
      | last hmore =>
          obtain rfl := List.map_eq_nil_iff.mp hkeysets
          refine .last ?_
          rw [hrequest]
          have hnext : nextCursor (listing.pageAt platform collation r.db r.limit position)
              (fun last => listing.encode platform last) = .ok none := by
            simp only [nextCursor, pageAt, hmore]
          rw [hnext]
          rfl
      | @next _ _ _ last _ pages hmore hlast rest =>
          obtain ⟨hlive, hmatches⟩ :=
            (mem_rows hfilter).mp (KeysetTraversal.mem_page (List.mem_of_getLast? hlast)).1
          obtain ⟨text, hencode⟩ : ∃ text, listing.encode platform last = .ok text :=
            encode_of_readable (hr.readable last hlive hmatches)
          have hnext : nextCursor (listing.pageAt platform collation r.db r.limit position)
              (fun last => listing.encode platform last) = .ok (some text) := by
            simp only [nextCursor, pageAt, hmore, hlast, hencode]
            rfl
          rw [hnext] at hrequest
          subst hkeysets
          exact .next hrequest (ih rest (fun r' hr' => hdb r' (List.mem_cons_of_mem _ hr'))
            (cursorAt_last hfilter hr hlast hencode))

/-- The rows of a listing, sorted: what a client is to be given. -/
def IsSortedListing (platform : Platform) (collation : SourceId ↪ C) (db : Db Row)
    (listing : ViolationsListing) (result : List EcbViolation) : Prop :=
  (∀ row, row ∈ result ↔ row ∈ db.liveRows ∧ listing.Matches platform db row) ∧
    result.Pairwise fun a b => sortKey collation listing.column a < sortKey collation listing.column b

/-- PostgreSQL has no year 0; JavaScript reads a year and a month with a time of day. -/
def boundaryPlatform : Platform where
  dateParse := fun text => if text = "+010000-01T00:00:00.000Z" then some 253402300800000 else none
  castDate := fun _ => none
  castTimestamptz := fun _ => none
  lossyUtf8 := fun _ => []

/-- The BIN of the boundary rows. -/
def boundaryBin : CanonicalBin := ⟨"1000003", rfl, rfl⟩

/-- A row with a date of issue. -/
def boundaryRow (sourceId : SourceId) (issueDate : Option Int) : EcbViolation where
  sourceId := sourceId
  socrataRowId := "row-1"
  bin := boundaryBin
  violationNumber := none
  issueDate := issueDate
  ecbViolationStatus := none
  balanceDue := none
  sourceRowUpdatedAt := 0
  lastSuccessRunId := 0
  isCurrent := true
  updatedAt := 0

/-- A database of live rows of one registered BIN. -/
def boundaryDb (rows : List EcbViolation) : Db Unit :=
  { Db.empty with
    live := rows.foldl (fun live row => live.set row.sourceId row) .empty
    propertyBins := fun _ => SortedSet.ofList [boundaryBin] }

/-- A first page of one row, at the property endpoint. -/
def boundaryRequest (rows : List EcbViolation) (cursor : Option String) :
    Except QueryError (List EcbViolation × Option String) :=
  (property 0 false false).request boundaryPlatform (Function.Embedding.refl String) (boundaryDb rows)
    ⟨1, by decide⟩ cursor

/-- A traversal ends at its first request where that request fails. -/
theorem not_traverses_of_error {requests : List (PageRequest Row)} {pages : List (List EcbViolation)}
    {limit : PageLimit} {db : Db Row} (hrequests : ∀ r ∈ requests, r.db = db ∧ r.limit = limit)
    (h : (listing.request platform collation db limit cursor).toOption.isNone = true) :
    ¬ Traverses platform collation listing cursor requests pages := by
  intro htraverses
  cases htraverses with
  | last hrequest =>
      obtain ⟨rfl, rfl⟩ := hrequests _ (List.mem_singleton.mpr rfl)
      rw [hrequest] at h
      cases h
  | next hrequest _ =>
      obtain ⟨rfl, rfl⟩ := hrequests _ List.mem_cons_self
      rw [hrequest] at h
      cases h

/-- With pages of one row, no traversal of these rows comes to its end. -/
def NeverTraversed (rows : List EcbViolation) : Prop :=
  SourceIdUnique (boundaryDb rows).liveRows ∧
    ∀ requests pages, (∀ r ∈ requests, r.db = boundaryDb rows ∧ r.limit = ⟨1, by decide⟩) →
      ¬ Traverses boundaryPlatform (Function.Embedding.refl String) (property 0 false false) none
        requests pages

end Traversals

end ViolationsListing

end NycPropertyResolver
