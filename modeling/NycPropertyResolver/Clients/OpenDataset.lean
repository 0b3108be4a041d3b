import NycPropertyResolver.Domain.Identifiers
import NycPropertyResolver.Library.Paging
import NycPropertyResolver.Library.Table

/-!
# Clients — source datasets

What the clients of the NYC Open Data datasets share: the records of a JSON response, the parameters of
a query, and what a fetch comes to.  A dataset answers a query with a page of the records that match
it (`OpenDataset.Answers`); how it compares a column with a text and how it orders a column are its
own.
-/

namespace NycPropertyResolver

open Library

/-! ### Records -/

/-- A value of a record; `undefined` where the record has no such field.  A number comes with the text
`String` makes of it and, if it is finite, of its integer part; an array, an object or a boolean
with the text `String` makes of it. -/
inductive SourceValue where
  | undefined
  | null
  | string (value : String)
  | number (shown : String) (truncated : Option String)
  | other (shown : String)
  deriving DecidableEq

/-- `Record<string, unknown>`. -/
abbrev SourceRecord := String → SourceValue

/-- `String(value)`; `none` for null and undefined. -/
def SourceValue.string? : SourceValue → Option String
  | .undefined | .null => none
  | .string value => some value
  | .number shown _ => some shown
  | .other shown => some shown

/-- `typeof value === 'number' ? String(value) : String(value).trim()`. -/
def SourceValue.trimmed? : SourceValue → Option String
  | .number shown _ => some shown
  | value => value.string?.map trim

/-- `raw.split('.')[0]`. -/
def integerPart (raw : String) : List Char := raw.toList.takeWhile (· ≠ '.')

/-! ### Queries -/

/-- The condition of a query. -/
inductive SourceFilter where
  | equals (column value : String)
  | isIn (column : String) (values : List String)
  | either (left right : SourceFilter)
  | both (left right : SourceFilter)
  deriving DecidableEq

/-- The search parameters of a request. -/
structure SourceQuery where
  filter : SourceFilter
  order : Option String
  limit : Nat
  offset : Nat
  deriving DecidableEq

/-- The records that meet a condition, where `reads` compares a value with a text. -/
def SourceFilter.matches (reads : SourceValue → String → Bool) (record : SourceRecord) :
    SourceFilter → Bool
  | .equals column value => reads (record column) value
  | .isIn column values => values.any fun value => reads (record column) value
  | .either left right => left.matches reads record || right.matches reads record
  | .both left right => left.matches reads record && right.matches reads record

/-! ### Responses -/

/-- The body of a response. -/
inductive SourcePayload where
  | notJson
  | notArray
  | array (records : List SourceRecord)

/-- What a fetch comes to: a rejection, with an `AbortError`, a `TimeoutError` or another error, or a
response. -/
inductive FetchOutcome where
  | aborted
  | timedOut
  | failed
  | response (status : Nat) (payload : SourcePayload)

/-- `response.ok`. -/
def isOk (status : Nat) : Bool := 200 ≤ status && status < 300

/-- What a lookup throws: an `AppError`, the error of an identifier's schema, or the rejection of the
fetch itself. -/
inductive SourceClientError where
  | app (code message : String) (statusCode : Option Nat)
  | schema (message : String)
  | transport
  deriving DecidableEq

/-- The records of a response: `assertJsonArray`, and the errors of the `catch` clause around it, for a
client that names its codes and its messages as given. -/
def responseRecords (codes name : String) (requestTimeoutMs : Nat) :
    FetchOutcome → Except SourceClientError (List SourceRecord)
  | .aborted | .timedOut =>
    .error (.app (codes ++ "_TIMEOUT") s!"{name} request timed out after {requestTimeoutMs}ms" none)
  | .failed => .error (.app (codes ++ "_HTTP_ERROR") (name ++ " request failed") none)
  | .response status payload =>
    if isOk status then
      match payload with
      | .notJson =>
        .error (.app (codes ++ "_MALFORMED_RESPONSE") (name ++ " response was not valid JSON") none)
      | .notArray =>
        .error (.app (codes ++ "_MALFORMED_RESPONSE") (name ++ " response must be a JSON array") none)
      | .array records => .ok records
    else
      .error (.app (codes ++ "_HTTP_ERROR") s!"{name} request failed with status {status}"
        (some status))

@[simp] theorem responseRecords_array {codes name : String} {requestTimeoutMs : Nat}
    {records : List SourceRecord} :
    responseRecords codes name requestTimeoutMs (.response 200 (.array records)) = .ok records := rfl

/-- `canonicalizeBbl`, throwing. -/
def requireCanonicalBbl (input : String) : Except SourceClientError CanonicalBbl :=
  match canonicalizeBbl input with
  | some bbl => .ok bbl
  | none => .error (.schema "BBL must be a 10-digit NYC parcel identifier")

/-- `[...new Set(bbls.map(canonicalizeBbl))].sort()`. -/
def canonicalBbls (inputs : List String) : Except SourceClientError (SortedSet CanonicalBbl) := do
  let bbls ← inputs.mapM requireCanonicalBbl
  .ok (SortedSet.ofList bbls)

/-! ### Datasets -/

/-- The records of a dataset; how a filter compares a column with a text; where the order of a column
puts a value. -/
structure OpenDataset (κ : Type) where
  records : List SourceRecord
  reads : SourceValue → String → Bool
  rank : SourceValue → κ

namespace OpenDataset

variable {κ : Type} [LinearOrder κ]

/-- The records a condition admits. -/
def select (dataset : OpenDataset κ) (filter : SourceFilter) : List SourceRecord :=
  dataset.records.filter (filter.matches dataset.reads)

/-- The order a query asks for; without one, any order will do. -/
def le (dataset : OpenDataset κ) (order : Option String) (r r' : SourceRecord) : Prop :=
  ∀ column, order = some column → dataset.rank (r column) ≤ dataset.rank (r' column)

/-- Every query is answered with a page of the records it selects, in the order it asks for. -/
def Answers (dataset : OpenDataset κ) (fetch : SourceQuery → FetchOutcome) : Prop :=
  ∀ q, ∃ page, fetch q = .response 200 (.array page) ∧
    IsPage (dataset.select q.filter) (dataset.le q.order) q.offset q.limit page

/-- Every query is answered with a page, and queries that differ in their page alone with pages of one
ordering. -/
def AnswersInOneOrder (dataset : OpenDataset κ) (fetch : SourceQuery → FetchOutcome) : Prop :=
  ∀ filter order, ∃ ordered : List SourceRecord, ordered.Perm (dataset.select filter) ∧
    ordered.Pairwise (dataset.le order) ∧
    ∀ limit offset, fetch ⟨filter, order, limit, offset⟩ =
      .response 200 (.array ((ordered.drop offset).take limit))

/-- The records a query selects, ordered, ties in the order of the dataset. -/
def ordered (dataset : OpenDataset κ) (q : SourceQuery) : List SourceRecord :=
  match q.order with
  | none => dataset.select q.filter
  | some column => (dataset.select q.filter).insertionSort fun r r' =>
      dataset.rank (r column) ≤ dataset.rank (r' column)

/-- A dataset that breaks every tie by its own order of records. -/
def fetch (dataset : OpenDataset κ) (q : SourceQuery) : FetchOutcome :=
  .response 200 (.array (((dataset.ordered q).drop q.offset).take q.limit))

theorem ordered_perm (dataset : OpenDataset κ) (q : SourceQuery) :
    (dataset.ordered q).Perm (dataset.select q.filter) := by
  rw [ordered]
  cases q.order with
  | none => exact List.Perm.refl _
  | some column => exact List.perm_insertionSort _ _

theorem ordered_pairwise (dataset : OpenDataset κ) (q : SourceQuery) :
    (dataset.ordered q).Pairwise (dataset.le q.order) := by
  rw [ordered]
  cases q.order with
  | none => exact List.pairwise_of_forall fun _ _ _ h => by cases h
  | some column =>
      have htotal : Std.Total fun r r' : SourceRecord =>
          dataset.rank (r column) ≤ dataset.rank (r' column) := ⟨fun _ _ => le_total _ _⟩
      have htrans : IsTrans SourceRecord fun r r' : SourceRecord =>
          dataset.rank (r column) ≤ dataset.rank (r' column) := ⟨fun _ _ _ => le_trans⟩
      refine (List.pairwise_insertionSort _ _).imp ?_
      intro r r' h column' e
      cases e
      exact h

/-- That dataset answers. -/
theorem fetch_answers (dataset : OpenDataset κ) : dataset.Answers dataset.fetch := fun q =>
  ⟨_, rfl, _, dataset.ordered_perm q, dataset.ordered_pairwise q, rfl⟩

theorem fetch_answersInOneOrder (dataset : OpenDataset κ) :
    dataset.AnswersInOneOrder dataset.fetch := fun filter order =>
  ⟨dataset.ordered ⟨filter, order, 0, 0⟩, dataset.ordered_perm _,
    dataset.ordered_pairwise ⟨filter, order, 0, 0⟩, fun _ _ => rfl⟩

end OpenDataset

/-! ### Canonical texts -/

/-- A canonical text is its own integer part. -/
theorem integerPart_text {n : Nat} (d : DigitString n) : integerPart d.text = d.text.toList := by
  rw [integerPart, List.takeWhile_eq_self_iff]
  intro c hc
  have hdigit := List.all_eq_true.mp d.digits c hc
  rw [decide_eq_true_eq]
  rintro rfl
  exact absurd hdigit (by decide)

/-! ### Canonical inputs -/

/-- The inputs are read one by one. -/
theorem mapM_requireCanonicalBbl {inputs : List String} {bbls : List CanonicalBbl}
    (h : inputs.mapM requireCanonicalBbl = .ok bbls) :
    inputs.map canonicalizeBbl = bbls.map some := by
  induction inputs generalizing bbls with
  | nil => cases h; rfl
  | cons input inputs ih =>
      rw [List.mapM_cons] at h
      cases hc : canonicalizeBbl input with
      | none => rw [requireCanonicalBbl, hc] at h; cases h
      | some bbl =>
          cases hr : inputs.mapM requireCanonicalBbl with
          | error e => rw [requireCanonicalBbl, hc, hr] at h; cases h
          | ok rest =>
              rw [requireCanonicalBbl, hc, hr] at h
              cases h
              rw [List.map_cons, List.map_cons, ih hr, hc]

theorem canonicalBbls_eq_ok_iff {inputs : List String} {keys : SortedSet CanonicalBbl}
    (h : canonicalBbls inputs = .ok keys) :
    ∃ bbls, inputs.map canonicalizeBbl = bbls.map some ∧ keys = SortedSet.ofList bbls := by
  cases hm : inputs.mapM requireCanonicalBbl with
  | error e => rw [canonicalBbls, hm] at h; cases h
  | ok bbls =>
      rw [canonicalBbls, hm] at h
      cases h
      exact ⟨bbls, mapM_requireCanonicalBbl hm, rfl⟩

/-- The keys of a bulk lookup are the BBLs of its inputs. -/
theorem canonicalBbls_eq_ok {inputs : List String} {keys : SortedSet CanonicalBbl}
    (h : canonicalBbls inputs = .ok keys) (bbl : CanonicalBbl) :
    bbl ∈ keys ↔ ∃ input ∈ inputs, canonicalizeBbl input = some bbl := by
  obtain ⟨bbls, hmap, rfl⟩ := canonicalBbls_eq_ok_iff h
  have hmem : some bbl ∈ inputs.map canonicalizeBbl ↔ bbl ∈ bbls := by
    rw [hmap, List.mem_map]
    simp
  rw [SortedSet.mem_ofList, ← hmem, List.mem_map]

/-- Every input of a bulk lookup has a BBL. -/
theorem canonicalizeBbl_of_canonicalBbls {inputs : List String} {keys : SortedSet CanonicalBbl}
    (h : canonicalBbls inputs = .ok keys) {input : String} (hinput : input ∈ inputs) :
    ∃ bbl, canonicalizeBbl input = some bbl := by
  obtain ⟨bbls, hmap, -⟩ := canonicalBbls_eq_ok_iff h
  have hmem : canonicalizeBbl input ∈ bbls.map some := hmap ▸ List.mem_map_of_mem hinput
  obtain ⟨bbl, -, hbbl⟩ := List.mem_map.mp hmem
  exact ⟨bbl, hbbl.symm⟩

end NycPropertyResolver
