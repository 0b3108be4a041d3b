import NycPropertyResolver.Clients.CondoLookups
import NycPropertyResolver.Library.TieOrders

/-!
# Clients — condominium lookups, many and single

When a bulk lookup of condominium records agrees with the single lookups of its keys
(`condo_bulk_agrees_iff`).  A bulk lookup parses every row of a chunk before it gathers one, so a row that
cannot be read fails the lookup of every key; and its pages are ordered by a column that leaves ties,
each request by an ordering of its own, so a row may be on two pages or on none.
-/

namespace NycPropertyResolver

open Library

namespace Condo

/-! ### Rows of a dataset -/

section Rows

variable {α κ : Type} (source : CondoSource α) (dataset : OpenDataset κ)

/-- The filter does not take the row of one BBL for one of another. -/
def ReadsBbls : Prop :=
  ∀ value (bbl bbl' : CanonicalBbl), dataset.reads value bbl.text = true →
    sourceBbl? value = some bbl' → bbl' = bbl

/-- The row is one of the key. -/
def readsKey (bbl : CanonicalBbl) (row : SourceRecord) : Bool :=
  dataset.reads (row source.keyColumn) bbl.text

/-- The rows of a key. -/
def rowsOf (bbl : CanonicalBbl) : List SourceRecord :=
  dataset.select (.equals source.keyColumn bbl.text)

/-- The rows of any of the keys. -/
def rowsOfAny (bbls : List CanonicalBbl) : List SourceRecord :=
  dataset.select (.isIn source.keyColumn (bbls.map (·.text)))

/-- The row can be read. -/
def Readable (row : SourceRecord) : Prop := ∃ record, source.parseRow row = .ok record

/-- The rows of the key can be read. -/
def WellFormed (bbl : CanonicalBbl) : Prop := ∀ row ∈ rowsOf source dataset bbl, Readable source row

/-- Where the order of the queries puts a row. -/
def rowRank (row : SourceRecord) : κ := dataset.rank (row source.orderColumn)

/-- The rows on a page of a bulk lookup. -/
def chunkPageLimit (chunk : List CanonicalBbl) : Nat :=
  bulkQueryPageLimit chunk.length source.resultLimitPerKey

/-- The pages a bulk lookup reads of a chunk. -/
def chunkPages (chunk : List CanonicalBbl) : List Nat :=
  List.range ((rowsOfAny source dataset chunk).length / chunkPageLimit source chunk + 1)

/-- The rows of a key that are on the pages of its chunk whichever way each request breaks ties. -/
def secured [LinearOrder κ] (chunk : List CanonicalBbl) (bbl : CanonicalBbl) : Nat :=
  ((chunkPages source dataset chunk).map fun pageIndex =>
    securedOn (rowRank source dataset) (readsKey source dataset bbl) (rowsOfAny source dataset chunk)
      (pageIndex * chunkPageLimit source chunk)
      (pageIndex * chunkPageLimit source chunk + chunkPageLimit source chunk)).sum

/-- A chunk whose keys all get from a bulk lookup what their single lookups give them: its rows can be
read and end before the page limit, and of every key one row, or two if there are two, are asked for
by a single lookup and are on the pages however ties are broken. -/
def ChunkAgrees [LinearOrder κ] (lookupLimit : Nat) (chunk : List CanonicalBbl) : Prop :=
  (∀ row ∈ rowsOfAny source dataset chunk, Readable source row) ∧
  (rowsOfAny source dataset chunk).length < bulkMaxLookupPages * chunkPageLimit source chunk ∧
  ∀ bbl ∈ chunk, min (rowsOf source dataset bbl).length 2 ≤ lookupLimit ∧
    min (rowsOf source dataset bbl).length 2 ≤ secured source dataset chunk bbl

/-- No key is well formed, or every chunk agrees. -/
def Agreeable [LinearOrder κ] (lookupLimit : Nat) (keys : SortedSet CanonicalBbl) : Prop :=
  (∀ bbl ∈ keys, ¬ WellFormed source dataset bbl) ∨
    ∀ chunk ∈ chunks keys.toList bulkLookupChunkSize, ChunkAgrees source dataset lookupLimit chunk

end Rows

/-! ### Agreement -/

/-- The same count, and the same match when it is one. -/
def SameMatches {α : Type} : LookupMatches α → LookupMatches α → Prop
  | .zero, .zero => True
  | .one record, .one record' => record' = record
  | .multiple _, .multiple _ => True
  | _, _ => False

/-- Both lookups answer the key, with the same matches. -/
def AgreesOn {α : Type} (single : Except SourceClientError (LookupMatches α))
    (bulk : Except SourceClientError (Table CanonicalBbl (LookupMatches α)))
    (bbl : CanonicalBbl) : Prop :=
  ∃ found results found', single = .ok found ∧ bulk = .ok results ∧ results.find bbl = some found' ∧
    SameMatches found found'

theorem sameMatches_length {α : Type} {xs ys : List α}
    (h : SameMatches (classifyLookupResult xs) (classifyLookupResult ys)) :
    min xs.length 2 = min ys.length 2 := by
  rcases xs with _ | ⟨x, _ | ⟨x', xs⟩⟩ <;> rcases ys with _ | ⟨y, _ | ⟨y', ys⟩⟩ <;>
    first
      | exact h.elim
      | simp

theorem sameMatches_of_length {α : Type} {xs ys : List α} (h : min xs.length 2 = min ys.length 2)
    (hone : ∀ x ∈ xs, ∀ y ∈ ys, xs.length = 1 → y = x) :
    SameMatches (classifyLookupResult xs) (classifyLookupResult ys) := by
  rcases xs with _ | ⟨x, _ | ⟨x', xs⟩⟩ <;> rcases ys with _ | ⟨y, _ | ⟨y', ys⟩⟩ <;> simp at h
  · trivial
  · exact hone x List.mem_cons_self y List.mem_cons_self rfl
  · trivial

/-! ### What the two datasets have in common -/

/-- A parsed row carries the key its column is read as, and sorting keeps the records. -/
structure CondoSource.Lawful {α : Type} (source : CondoSource α) : Prop where
  key_of_parse : ∀ {row record}, source.parseRow row = .ok record →
    sourceBbl? (row source.keyColumn) = some (source.key record)
  sort_perm : ∀ records, (source.sort records).Perm records
  arrange_perm : ∀ records, (source.arrange records).Perm records

theorem sourceBbl?_of_normalize {codes name fieldName : String} {value : SourceValue}
    {bbl : CanonicalBbl} (h : normalizeSourceBbl codes name fieldName value = .ok bbl) :
    sourceBbl? value = some bbl := by
  rw [normalizeSourceBbl] at h
  cases hv : sourceBbl? value with
  | none => rw [hv] at h; cases h
  | some bbl' => rw [hv] at h; cases h; rfl

theorem condoUnits_lawful : condoUnits.Lawful where
  key_of_parse := by
    intro row record h
    change parseCondoUnitRow row = _ at h
    rw [parseCondoUnitRow] at h
    cases hunit : normalizeSourceBbl "CONDO_UNITS" "Condominium Units" "unit_bbl" (row "unit_bbl") with
    | error e => rw [hunit] at h; cases h
    | ok unitBbl =>
        cases hbase : normalizeSourceBbl "CONDO_UNITS" "Condominium Units" "condo_base_bbl"
            (row "condo_base_bbl") with
        | error e => rw [hunit, hbase] at h; cases h
        | ok baseBbl =>
            cases hdesignation : normalizeUnitDesignation (row "unit_designation") with
            | error e => rw [hunit, hbase, hdesignation] at h; cases h
            | ok designation =>
                rw [hunit, hbase, hdesignation] at h
                cases h
                exact sourceBbl?_of_normalize hunit
  sort_perm _ := List.perm_insertionSort _ _
  arrange_perm _ := List.Perm.refl _

theorem condominiums_lawful : condominiums.Lawful where
  key_of_parse := by
    intro row record h
    change parseCondominiumRow row = _ at h
    rw [parseCondominiumRow] at h
    cases hbase : normalizeSourceBbl "CONDOMINIUMS" "Condominiums" "condo_base_bbl"
        (row "condo_base_bbl") with
    | error e => rw [hbase] at h; cases h
    | ok baseBbl =>
        cases hbilling : normalizeSourceBbl "CONDOMINIUMS" "Condominiums" "condo_billing_bbl"
            (row "condo_billing_bbl") with
        | error e => rw [hbase, hbilling] at h; cases h
        | ok billingBbl =>
            rw [hbase, hbilling] at h
            cases h
            exact sourceBbl?_of_normalize hbase
  sort_perm _ := List.perm_insertionSort _ _
  arrange_perm _ := List.perm_insertionSort _ _

/-! ### Parsed rows -/

section Parsing

variable {α : Type} {source : CondoSource α}

/-- The records of rows that can be read. -/
def Parsed (source : CondoSource α) : List SourceRecord → List α → Prop :=
  List.Forall₂ fun row record => source.parseRow row = .ok record

/-- The rows are read, or one of them stops the client. -/
theorem mapM_parseRow (rows : List SourceRecord) :
    (∃ records, rows.mapM source.parseRow = .ok records ∧ Parsed source rows records) ∨
      ∃ row ∈ rows, ∃ e, source.parseRow row = .error e ∧ rows.mapM source.parseRow = .error e := by
  induction rows with
  | nil => exact .inl ⟨[], rfl, .nil⟩
  | cons row rows ih =>
      rw [List.mapM_cons]
      cases hrow : source.parseRow row with
      | error e => exact .inr ⟨row, List.mem_cons_self, e, hrow, rfl⟩
      | ok record =>
          rcases ih with ⟨records, hmap, hparsed⟩ | ⟨row', hmem, e, herror, hmap⟩
          · exact .inl ⟨record :: records, by rw [hmap]; rfl, .cons hrow hparsed⟩
          · exact .inr ⟨row', List.mem_cons_of_mem _ hmem, e, herror, by rw [hmap]; rfl⟩

theorem mapM_of_readable {rows : List SourceRecord} (h : ∀ row ∈ rows, Readable source row) :
    ∃ records, rows.mapM source.parseRow = .ok records ∧ Parsed source rows records := by
  have hread : (∃ records, rows.mapM source.parseRow = .ok records ∧ Parsed source rows records) ∨
      ∃ row ∈ rows, ∃ e, source.parseRow row = .error e ∧ rows.mapM source.parseRow = .error e :=
    mapM_parseRow rows
  rcases hread with hread | ⟨row, hrow, e, herror, -⟩
  · exact hread
  · obtain ⟨record, hrecord⟩ := h row hrow
    rw [herror] at hrecord
    cases hrecord

/-- One row that cannot be read fails them all. -/
theorem mapM_of_not_readable {rows : List SourceRecord} {row : SourceRecord} (hrow : row ∈ rows)
    (h : ¬ Readable source row) : ∃ e, rows.mapM source.parseRow = .error e := by
  induction rows with
  | nil => cases hrow
  | cons row' rows ih =>
      rw [List.mapM_cons]
      cases hrow' : source.parseRow row' with
      | error e => exact ⟨e, rfl⟩
      | ok record =>
          rcases List.mem_cons.mp hrow with rfl | hrow
          · exact absurd ⟨record, hrow'⟩ h
          · obtain ⟨e, he⟩ := ih hrow
            exact ⟨e, by rw [he]; rfl⟩

theorem mem_of_parsed {rows : List SourceRecord} {records : List α} (h : Parsed source rows records)
    {record : α} (hrecord : record ∈ records) : ∃ row ∈ rows, source.parseRow row = .ok record := by
  induction h with
  | nil => cases hrecord
  | @cons row record' rows records hparse _ ih =>
      rcases List.mem_cons.mp hrecord with rfl | hrecord
      · exact ⟨row, List.mem_cons_self, hparse⟩
      · obtain ⟨row', hrow', hparse'⟩ := ih hrecord
        exact ⟨row', List.mem_cons_of_mem _ hrow', hparse'⟩

variable {κ : Type} {dataset : OpenDataset κ}

theorem mem_rowsOfAny {chunk : List CanonicalBbl} {row : SourceRecord} :
    row ∈ rowsOfAny source dataset chunk ↔
      row ∈ dataset.records ∧ ∃ bbl ∈ chunk, readsKey source dataset bbl row = true := by
  rw [rowsOfAny, OpenDataset.select, List.mem_filter, SourceFilter.matches, List.any_map,
    List.any_eq_true]
  rfl

theorem mem_rowsOf {bbl : CanonicalBbl} {row : SourceRecord} :
    row ∈ rowsOf source dataset bbl ↔
      row ∈ dataset.records ∧ readsKey source dataset bbl row = true := by
  rw [rowsOf, OpenDataset.select, List.mem_filter]
  rfl

/-- The rows of a key are those of its chunk that are read as its own. -/
theorem filter_rowsOfAny {chunk : List CanonicalBbl} {bbl : CanonicalBbl} (hbbl : bbl ∈ chunk) :
    (rowsOfAny source dataset chunk).filter (readsKey source dataset bbl) =
      rowsOf source dataset bbl := by
  rw [rowsOfAny, OpenDataset.select, List.filter_filter, rowsOf, OpenDataset.select]
  refine List.filter_congr fun row _ => ?_
  show (readsKey source dataset bbl row && _) = readsKey source dataset bbl row
  rw [Bool.and_eq_left_iff_imp]
  intro hread
  exact List.any_eq_true.mpr ⟨bbl.text, List.mem_map_of_mem hbbl, hread⟩

theorem countP_rowsOfAny (source : CondoSource α) (dataset : OpenDataset κ)
    {chunk : List CanonicalBbl} {bbl : CanonicalBbl} (hbbl : bbl ∈ chunk) :
    (rowsOfAny source dataset chunk).countP (readsKey source dataset bbl) =
      (rowsOf source dataset bbl).length := by
  rw [List.countP_eq_length_filter, filter_rowsOfAny hbbl]

/-- The key a row of a chunk carries is the one it is read as. -/
theorem readsKey_iff (hlaw : source.Lawful) (hreads : ReadsBbls dataset) {chunk : List CanonicalBbl}
    {row : SourceRecord} (hrow : row ∈ rowsOfAny source dataset chunk) {record : α}
    (hparse : source.parseRow row = .ok record) (bbl : CanonicalBbl) :
    readsKey source dataset bbl row = true ↔ source.key record = bbl := by
  have hkey := hlaw.key_of_parse hparse
  constructor
  · intro hread
    exact hreads _ _ _ hread hkey
  · rintro rfl
    obtain ⟨-, bbl', -, hread⟩ := mem_rowsOfAny.mp hrow
    rw [hreads _ _ _ hread hkey]
    exact hread

/-- The records of a key are those of its rows. -/
theorem parsed_filter (hlaw : source.Lawful) (hreads : ReadsBbls dataset) {chunk : List CanonicalBbl}
    (bbl : CanonicalBbl) {rows : List SourceRecord} {records : List α}
    (hrows : ∀ row ∈ rows, row ∈ rowsOfAny source dataset chunk) (h : Parsed source rows records) :
    Parsed source (rows.filter (readsKey source dataset bbl))
      (records.filter fun record => source.key record = bbl) := by
  induction h with
  | nil => exact .nil
  | @cons row record rows records hparse _ ih =>
      have ih' := ih fun r hr => hrows r (List.mem_cons_of_mem _ hr)
      have hiff := readsKey_iff hlaw hreads (hrows row List.mem_cons_self) hparse bbl
      by_cases hkey : source.key record = bbl
      · rw [List.filter_cons_of_pos (hiff.mpr hkey), List.filter_cons_of_pos (by simpa using hkey)]
        exact .cons hparse ih'
      · rw [List.filter_cons_of_neg fun hread => hkey (hiff.mp hread),
          List.filter_cons_of_neg (by simpa using hkey)]
        exact ih'

end Parsing

/-! ### What the lookups return -/

section Lookups

variable {α κ : Type} [LinearOrder κ] {source : CondoSource α} {dataset : OpenDataset κ}
  {client : CondoClient}

/-- A record is one of the key. -/
def OwnRecord (source : CondoSource α) (dataset : OpenDataset κ) (bbl : CanonicalBbl) (record : α) :
    Prop :=
  ∃ row ∈ rowsOf source dataset bbl, source.parseRow row = .ok record

theorem fetchRows_eq {query : SourceQuery} {page : List SourceRecord}
    (h : client.fetchImpl query = .response 200 (.array page)) :
    fetchRows source client query = .ok page := by
  rw [fetchRows, h]
  rfl

theorem mem_of_isPage {rows page : List SourceRecord} {le : SourceRecord → SourceRecord → Prop}
    {offset limit : Nat} (h : IsPage rows le offset limit page) {row : SourceRecord}
    (hrow : row ∈ page) : row ∈ rows := by
  obtain ⟨ordered, hperm, -, rfl⟩ := h
  exact hperm.mem_iff.mp (List.mem_of_mem_drop (List.mem_of_mem_take hrow))

/-- A single lookup of a well-formed key classifies as many of its rows as it asks for. -/
theorem lookupByKey_eq (hlaw : source.Lawful) (hanswers : dataset.Answers client.fetchImpl)
    {input : String} {bbl : CanonicalBbl} (hinput : canonicalizeBbl input = some bbl)
    (hwell : WellFormed source dataset bbl) :
    ∃ records : List α, lookupByKey source client input = .ok (classifyLookupResult records) ∧
      records.length = min client.lookupLimit (rowsOf source dataset bbl).length ∧
      ∀ record ∈ records, OwnRecord source dataset bbl record := by
  obtain ⟨page, hfetch, hpage⟩ := hanswers
    ⟨.equals source.keyColumn bbl.text, some source.orderColumn, client.lookupLimit, 0⟩
  have hrows : ∀ row ∈ page, row ∈ rowsOf source dataset bbl := fun row => mem_of_isPage hpage
  obtain ⟨records, hmap, hparsed⟩ := mapM_of_readable fun row hrow => hwell row (hrows row hrow)
  refine ⟨source.sort records, ?_, ?_, fun record hrecord => ?_⟩
  · rw [lookupByKey, requireCanonicalBbl, hinput]
    show queryRows source client (.equals source.keyColumn bbl.text) = _
    rw [queryRows, fetchRows_eq hfetch]
    show (page.mapM source.parseRow >>= fun records =>
      Except.ok (classifyLookupResult (source.sort records))) = _
    rw [hmap]
    rfl
  · obtain ⟨ordered, hperm, -, rfl⟩ := hpage
    rw [(hlaw.sort_perm records).length_eq, ← List.Forall₂.length_eq hparsed, List.length_take,
      List.drop_zero, hperm.length_eq]
    rfl
  · obtain ⟨row, hrow, hparse⟩ := mem_of_parsed hparsed ((hlaw.sort_perm records).mem_iff.mp hrecord)
    exact ⟨row, hrows row hrow, hparse⟩

/-- The pages a client is given of the rows of a chunk. -/
def PagesOf (source : CondoSource α) (dataset : OpenDataset κ) (client : CondoClient)
    (chunk : List CanonicalBbl) (pages : Nat → List SourceRecord) : Prop :=
  ∀ pageIndex, client.fetchImpl (bulkQuery source chunk (chunkPageLimit source chunk)
      (pageIndex * chunkPageLimit source chunk)) = .response 200 (.array (pages pageIndex)) ∧
    IsPage (rowsOfAny source dataset chunk) (dataset.le (some source.orderColumn))
      (pageIndex * chunkPageLimit source chunk) (chunkPageLimit source chunk) (pages pageIndex)

theorem exists_pages (source : CondoSource α) (client : CondoClient)
    (hanswers : dataset.Answers client.fetchImpl) :
    ∃ pages : List CanonicalBbl → Nat → List SourceRecord,
      ∀ chunk, PagesOf source dataset client chunk (pages chunk) := by
  choose page hpage using fun (chunk : List CanonicalBbl) (pageIndex : Nat) =>
    hanswers (bulkQuery source chunk (chunkPageLimit source chunk)
      (pageIndex * chunkPageLimit source chunk))
  exact ⟨page, hpage⟩

theorem chunkPageLimit_pos {chunk : List CanonicalBbl} (hne : chunk ≠ []) :
    0 < chunkPageLimit source chunk :=
  lt_min (by decide) (lt_max_of_lt_right (List.length_pos_of_ne_nil hne))

/-- The rows on the pages of a chunk. -/
def rowsRead (source : CondoSource α) (dataset : OpenDataset κ) (chunk : List CanonicalBbl)
    (pages : Nat → List SourceRecord) : List SourceRecord :=
  (chunkPages source dataset chunk).flatMap pages

theorem mem_of_mem_rowsRead {chunk : List CanonicalBbl} {pages : Nat → List SourceRecord}
    (hpages : PagesOf source dataset client chunk pages) {row : SourceRecord}
    (hrow : row ∈ rowsRead source dataset chunk pages) : row ∈ rowsOfAny source dataset chunk := by
  obtain ⟨pageIndex, -, hrow⟩ := List.mem_flatMap.mp hrow
  exact mem_of_isPage (hpages pageIndex).2 hrow

/-- The rows of a chunk end before the page limit. -/
def ChunkFits (source : CondoSource α) (dataset : OpenDataset κ) (chunk : List CanonicalBbl) : Prop :=
  (rowsOfAny source dataset chunk).length < bulkMaxLookupPages * chunkPageLimit source chunk

/-- A bulk lookup reads the pages of a chunk, if its rows end before the page limit. -/
theorem fetchRowsBulk_eq {chunk : List CanonicalBbl} (hne : chunk ≠ [])
    {pages : Nat → List SourceRecord} (hpages : PagesOf source dataset client chunk pages) :
    (ChunkFits source dataset chunk →
      fetchRowsBulk source client chunk = .ok (rowsRead source dataset chunk pages)) ∧
    (¬ ChunkFits source dataset chunk → ∃ e, fetchRowsBulk source client chunk = .error e) := by
  have hfetch : ∀ pageIndex, fetchRows source client (bulkQuery source chunk
      (chunkPageLimit source chunk) (pageIndex * chunkPageLimit source chunk)) =
        .ok (pages pageIndex) := fun pageIndex => fetchRows_eq (hpages pageIndex).1
  have hlen : ∀ pageIndex, (pages pageIndex).length = min (chunkPageLimit source chunk)
      ((rowsOfAny source dataset chunk).length - pageIndex * chunkPageLimit source chunk) := by
    intro pageIndex
    obtain ⟨-, ordered, hperm, -, hpage⟩ := hpages pageIndex
    rw [hpage, List.length_take, List.length_drop, hperm.length_eq]
  obtain ⟨e, hloop⟩ : ∃ e, fetchRowsBulk source client chunk =
      if (rowsOfAny source dataset chunk).length < bulkMaxLookupPages * chunkPageLimit source chunk
      then .ok (rowsRead source dataset chunk pages) else .error e :=
    ⟨_, pageLoop_append (chunkPageLimit_pos hne) hfetch hlen⟩
  constructor
  · intro hfits
    exact hloop.trans (if_pos hfits)
  · intro hfull
    exact ⟨e, hloop.trans (if_neg hfull)⟩

/-- The rows of a chunk can be read and end before the page limit. -/
def ChunkReads (source : CondoSource α) (dataset : OpenDataset κ) (chunk : List CanonicalBbl) :
    Prop :=
  (∀ row ∈ rowsOfAny source dataset chunk, Readable source row) ∧ ChunkFits source dataset chunk

theorem fetchMatches_eq {chunk : List CanonicalBbl} (hne : chunk ≠ [])
    {pages : Nat → List SourceRecord} (hpages : PagesOf source dataset client chunk pages)
    (hreads : ChunkReads source dataset chunk) :
    ∃ records, fetchMatches source client chunk = .ok records ∧
      Parsed source (rowsRead source dataset chunk pages) records := by
  obtain ⟨records, hmap, hparsed⟩ := mapM_of_readable fun row hrow =>
    hreads.1 row (mem_of_mem_rowsRead hpages hrow)
  refine ⟨records, ?_, hparsed⟩
  rw [fetchMatches, (fetchRowsBulk_eq hne hpages).1 hreads.2]
  exact hmap

theorem find_gatherMatches (bbl : CanonicalBbl) (grouped : Table CanonicalBbl (List α))
    (records : List α) :
    (gatherMatches source grouped records).find bbl = (grouped.find bbl).map
      (· ++ (source.arrange records).filter fun record => source.key record = bbl) := by
  rw [gatherMatches, Table.find_foldl_pushKnownRow]
  have hfilter : (source.arrange records).filterMap (fun record =>
      (some (source.key record, record)).bind fun p => if p.1 = bbl then some p.2 else none) =
        (source.arrange records).filter fun record => source.key record = bbl := by
    rw [← List.filterMap_eq_filter]
    refine List.filterMap_congr fun record _ => ?_
    by_cases hkey : source.key record = bbl <;> simp [hkey, Option.guard]
  rw [hfilter]

theorem flatten_bulkChunks (keys : SortedSet CanonicalBbl) :
    (chunks keys.toList bulkLookupChunkSize).flatten = keys.toList :=
  flatten_chunks keys.toList (by decide)

/-- A bulk lookup whose chunks can be read gives each key the rows of its own that are on the pages of
its chunk. -/
theorem lookupByKeys_eq (hlaw : source.Lawful) (hreads : ReadsBbls dataset)
    {pages : List CanonicalBbl → Nat → List SourceRecord}
    (hpages : ∀ chunk, PagesOf source dataset client chunk (pages chunk)) {inputs : List String}
    {keys : SortedSet CanonicalBbl} (hkeys : canonicalBbls inputs = .ok keys)
    (hchunks : ∀ chunk ∈ chunks keys.toList bulkLookupChunkSize, ChunkReads source dataset chunk) :
    ∃ results, lookupByKeys source client inputs = .ok results ∧
      ∀ chunk ∈ chunks keys.toList bulkLookupChunkSize, ∀ bbl ∈ chunk, ∃ records : List α,
        results.find bbl = some (classifyLookupResult records) ∧
        records.length = (rowsRead source dataset chunk (pages chunk)).countP
          (readsKey source dataset bbl) ∧
        ∀ record ∈ records, OwnRecord source dataset bbl record := by
  have hmatches : ∀ chunk ∈ chunks keys.toList bulkLookupChunkSize, ∃ records,
      fetchMatches source client chunk = .ok records ∧
        Parsed source (rowsRead source dataset chunk (pages chunk)) records := fun chunk hchunk =>
    fetchMatches_eq (ne_nil_of_mem_chunks (by decide) hchunk) (hpages chunk) (hchunks chunk hchunk)
  have hown : ∀ chunk, ∀ (bbl : CanonicalBbl) (records : List α),
      Parsed source (rowsRead source dataset chunk (pages chunk)) records →
        Parsed source ((rowsRead source dataset chunk (pages chunk)).filter
            (readsKey source dataset bbl))
          (records.filter fun record => source.key record = bbl) := fun chunk bbl records =>
    parsed_filter hlaw hreads bbl fun row => mem_of_mem_rowsRead (hpages chunk)
  obtain ⟨grouped, hgrouped, hof, -⟩ := Table.foldlM_gather (fetchMatches source client)
    (gatherMatches source)
    (fun records bbl => (source.arrange records).filter fun record => source.key record = bbl)
    (fun grouped records bbl => find_gatherMatches bbl grouped records)
    (Table.ofKeys keys.toList fun _ => []) (by rw [flatten_bulkChunks]; exact keys.nodup)
    fun chunk hchunk => by
      obtain ⟨records, hrecords, hparsed⟩ := hmatches chunk hchunk
      refine ⟨records, hrecords, fun bbl hbbl => ?_⟩
      rw [List.filter_eq_nil_iff]
      intro record hrecord hkey
      -- a row of the chunk carries a key of the chunk
      obtain ⟨row, hrow, hparse⟩ :=
        mem_of_parsed hparsed ((hlaw.arrange_perm records).mem_iff.mp hrecord)
      have hrow' := mem_of_mem_rowsRead (hpages chunk) hrow
      obtain ⟨-, bbl', hbbl', hread⟩ := mem_rowsOfAny.mp hrow'
      have hkey' := (readsKey_iff hlaw hreads hrow' hparse bbl').mp hread
      rw [hkey', decide_eq_true_eq] at hkey
      exact hbbl (hkey ▸ hbbl')
  refine ⟨lookupResults source keys.toList grouped, ?_, fun chunk hchunk bbl hbbl => ?_⟩
  · rw [lookupByKeys, hkeys]
    show (List.foldlM _ _ _ >>= fun grouped =>
      Except.ok (lookupResults source keys.toList grouped)) = _
    rw [hgrouped]
    exact rfl
  · obtain ⟨records, hrecords, hparsed⟩ := hmatches chunk hchunk
    have hkey : bbl ∈ keys.toList := by
      rw [← flatten_bulkChunks keys]
      exact List.mem_flatten.mpr ⟨chunk, hchunk, hbbl⟩
    have hfind := hof chunk hchunk records hrecords bbl hbbl
    rw [Table.find_ofKeys, if_pos hkey] at hfind
    have hperm := (hlaw.sort_perm ((source.arrange records).filter fun record =>
      source.key record = bbl)).trans ((hlaw.arrange_perm records).filter _)
    refine ⟨source.sort ((source.arrange records).filter fun record => source.key record = bbl),
      ?_, ?_, fun record hrecord => ?_⟩
    · rw [lookupResults, Table.find_ofKeys, if_pos hkey, hfind]
      rfl
    · rw [List.countP_eq_length_filter, (hown chunk bbl records hparsed).length_eq]
      exact hperm.length_eq
    · obtain ⟨row, hrow, hparse⟩ :=
        mem_of_parsed (hown chunk bbl records hparsed) (hperm.mem_iff.mp hrecord)
      obtain ⟨hrow, hread⟩ := List.mem_filter.mp hrow
      exact ⟨row, mem_rowsOf.mpr ⟨(mem_rowsOfAny.mp (mem_of_mem_rowsRead (hpages chunk) hrow)).1,
        hread⟩, hparse⟩

omit [LinearOrder κ] in
/-- The pages of one ordering hold every row of a chunk. -/
theorem rowsRead_perm {chunk : List CanonicalBbl} (hne : chunk ≠ []) {ordered : List SourceRecord}
    (hperm : ordered.Perm (rowsOfAny source dataset chunk)) :
    (rowsRead source dataset chunk (Library.chunk ordered (chunkPageLimit source chunk))).Perm
      (rowsOfAny source dataset chunk) := by
  rw [rowsRead, chunkPages, ← hperm.length_eq, flatMap_chunk_range ordered (chunkPageLimit_pos hne)]
  exact hperm

/-- A dataset that breaks every tie by its own order shows every row of a chunk. -/
theorem exists_pages_perm (source : CondoSource α) (dataset : OpenDataset κ)
    (timeoutMs lookupLimit : Nat) :
    ∃ pages : List CanonicalBbl → Nat → List SourceRecord,
      (∀ chunk, PagesOf source dataset ⟨dataset.fetch, timeoutMs, lookupLimit⟩ chunk (pages chunk)) ∧
      ∀ chunk, chunk ≠ [] →
        (rowsRead source dataset chunk (pages chunk)).Perm (rowsOfAny source dataset chunk) := by
  choose ordered hperm hsorted hfetch using fun chunk : List CanonicalBbl =>
    dataset.fetch_answersInOneOrder (.isIn source.keyColumn (chunk.map (·.text)))
      (some source.orderColumn)
  refine ⟨fun chunk => Library.chunk (ordered chunk) (chunkPageLimit source chunk),
    fun chunk pageIndex => ?_, fun chunk hne => rowsRead_perm hne (hperm chunk)⟩
  exact ⟨hfetch chunk _ _, ordered chunk, hperm chunk, hsorted chunk, rfl⟩

/-- There, a row that cannot be read, or one row too many, fails the lookup of every key. -/
theorem lookupByKeys_error (timeoutMs lookupLimit : Nat) {inputs : List String}
    {keys : SortedSet CanonicalBbl} (hkeys : canonicalBbls inputs = .ok keys)
    {chunk : List CanonicalBbl} (hchunk : chunk ∈ chunks keys.toList bulkLookupChunkSize)
    (h : ¬ ChunkReads source dataset chunk) :
    ∃ e, lookupByKeys source ⟨dataset.fetch, timeoutMs, lookupLimit⟩ inputs = .error e := by
  have hne := ne_nil_of_mem_chunks (by decide) hchunk
  obtain ⟨pages, hpages, hperm⟩ := exists_pages_perm source dataset timeoutMs lookupLimit
  obtain ⟨e, he⟩ : ∃ e,
      fetchMatches source ⟨dataset.fetch, timeoutMs, lookupLimit⟩ chunk = .error e := by
    by_cases hfits : ChunkFits source dataset chunk
    · rw [fetchMatches, (fetchRowsBulk_eq hne (hpages chunk)).1 hfits]
      obtain ⟨row, hrow, hbad⟩ : ∃ row ∈ rowsOfAny source dataset chunk, ¬ Readable source row := by
        by_contra hall
        refine h ⟨fun row hrow => ?_, hfits⟩
        by_contra hbad
        exact hall ⟨row, hrow, hbad⟩
      exact mapM_of_not_readable ((hperm chunk hne).mem_iff.mpr hrow) hbad
    · obtain ⟨e, he⟩ := (fetchRowsBulk_eq hne (hpages chunk)).2 hfits
      exact ⟨e, by rw [fetchMatches, he]; rfl⟩
  obtain ⟨e', he'⟩ := Table.foldlM_error (fetchMatches source _) (gatherMatches source) hchunk he
    (Table.ofKeys keys.toList fun _ => [])
  refine ⟨e', ?_⟩
  rw [lookupByKeys, hkeys]
  show (List.foldlM _ _ _ >>= fun grouped =>
    Except.ok (lookupResults source keys.toList grouped)) = _
  rw [he']
  exact rfl

/-! ### Rows on the pages -/

/-- A page, as a slice of its ordering. -/
theorem page_eq_slice {chunk : List CanonicalBbl} {pages : Nat → List SourceRecord}
    (hpages : PagesOf source dataset client chunk pages) (pageIndex : Nat) :
    ∃ ordered : List SourceRecord, ordered.Perm (rowsOfAny source dataset chunk) ∧
      (ordered.Pairwise fun r s => rowRank source dataset r ≤ rowRank source dataset s) ∧
      pages pageIndex = (ordered.take (pageIndex * chunkPageLimit source chunk +
        chunkPageLimit source chunk)).drop (pageIndex * chunkPageLimit source chunk) := by
  obtain ⟨-, ordered, hperm, hsorted, hpage⟩ := hpages pageIndex
  refine ⟨ordered, hperm, hsorted.imp fun h => h _ rfl, ?_⟩
  rw [hpage, List.drop_take, Nat.add_sub_cancel_left]

omit [LinearOrder κ] in
/-- The rows of a key on the pages are counted page by page. -/
theorem countP_rowsRead (chunk : List CanonicalBbl) (pages : Nat → List SourceRecord)
    (bbl : CanonicalBbl) :
    (rowsRead source dataset chunk pages).countP (readsKey source dataset bbl) =
      ((chunkPages source dataset chunk).map fun pageIndex =>
        (pages pageIndex).countP (readsKey source dataset bbl)).sum := by
  rw [rowsRead, List.countP_flatMap]
  rfl

theorem secured_le_countP {chunk : List CanonicalBbl} {pages : Nat → List SourceRecord}
    (hpages : PagesOf source dataset client chunk pages) (bbl : CanonicalBbl) :
    secured source dataset chunk bbl ≤
      (rowsRead source dataset chunk pages).countP (readsKey source dataset bbl) := by
  rw [countP_rowsRead, secured]
  refine List.sum_le_sum fun pageIndex _ => ?_
  obtain ⟨ordered, hperm, hsorted, hpage⟩ := page_eq_slice hpages pageIndex
  rw [hpage]
  exact securedOn_le_countP hperm hsorted (Nat.le_add_right _ _)

/-- A single row that is secured is on one page. -/
theorem countP_rowsRead_of_one {chunk : List CanonicalBbl} {pages : Nat → List SourceRecord}
    (hpages : PagesOf source dataset client chunk pages) {bbl : CanonicalBbl}
    (hone : (rowsOfAny source dataset chunk).countP (readsKey source dataset bbl) = 1)
    (hsecured : 1 ≤ secured source dataset chunk bbl) :
    (rowsRead source dataset chunk pages).countP (readsKey source dataset bbl) = 1 := by
  refine le_antisymm ?_ (hsecured.trans (secured_le_countP hpages bbl))
  obtain ⟨n, hn, hpos⟩ := exists_pos_of_sum_pos hsecured
  obtain ⟨here, hhere, rfl⟩ := List.mem_map.mp hn
  have hatMost : ∀ pageIndex ∈ chunkPages source dataset chunk,
      (pages pageIndex).countP (readsKey source dataset bbl) ≤ if pageIndex = here then 1 else 0 := by
    intro pageIndex _
    obtain ⟨ordered, hperm, hsorted, hpage⟩ := page_eq_slice hpages pageIndex
    rw [hpage]
    by_cases he : pageIndex = here
    · rw [if_pos he, ← hone, ← hperm.countP_eq]
      exact ((List.drop_sublist _ _).trans (List.take_sublist _ _)).countP_le
    · -- the slices of two pages do not overlap
      rw [if_neg he]
      refine (countP_eq_zero_of_secured hone hpos (Nat.le_add_right _ _) ?_ hperm hsorted).le
      rcases Nat.lt_or_gt_of_ne he with hlt | hgt
      · right
        rw [← Nat.succ_mul]
        exact Nat.mul_le_mul_right _ hlt
      · left
        rw [← Nat.succ_mul]
        exact Nat.mul_le_mul_right _ hgt
  have hnodup : (chunkPages source dataset chunk).Nodup := List.nodup_range
  rw [countP_rowsRead]
  exact (List.sum_le_sum hatMost).trans (sum_map_single hnodup hhere 1).le

/-- As many rows of a key as tell its count apart are on the pages, if so many are secured. -/
theorem min_countP_rowsRead {chunk : List CanonicalBbl} {pages : Nat → List SourceRecord}
    (hpages : PagesOf source dataset client chunk pages) {bbl : CanonicalBbl} (hbbl : bbl ∈ chunk)
    (hsecured : min (rowsOf source dataset bbl).length 2 ≤ secured source dataset chunk bbl) :
    min ((rowsRead source dataset chunk pages).countP (readsKey source dataset bbl)) 2 =
      min (rowsOf source dataset bbl).length 2 := by
  have hcount := countP_rowsOfAny source dataset hbbl
  have hle := hsecured.trans (secured_le_countP hpages bbl)
  by_cases hzero : (rowsOf source dataset bbl).length = 0
  · have hnone : (rowsRead source dataset chunk pages).countP (readsKey source dataset bbl) = 0 := by
      rw [hzero, List.countP_eq_zero] at hcount
      rw [List.countP_eq_zero]
      exact fun row hrow => hcount row (mem_of_mem_rowsRead hpages hrow)
    rw [hzero, hnone]
  · by_cases hone : (rowsOf source dataset bbl).length = 1
    · rw [hone] at hcount hsecured
      rw [hone, countP_rowsRead_of_one hpages hcount hsecured]
    · omega

/-- Some way of breaking ties puts no more than the secured rows of a key on the pages. -/
theorem exists_answers_countP_le (source : CondoSource α) (dataset : OpenDataset κ)
    (chunk : List CanonicalBbl) (bbl : CanonicalBbl) :
    ∃ fetch, dataset.Answers fetch ∧ ∀ timeoutMs lookupLimit pages,
      PagesOf source dataset ⟨fetch, timeoutMs, lookupLimit⟩ chunk pages →
        (rowsRead source dataset chunk pages).countP (readsKey source dataset bbl) ≤
          secured source dataset chunk bbl := by
  have hworst : ∀ offset limit : Nat, ∃ ordered : List SourceRecord,
      ordered.Perm (rowsOfAny source dataset chunk) ∧
      (ordered.Pairwise fun r s => rowRank source dataset r ≤ rowRank source dataset s) ∧
      ((ordered.take (offset + limit)).drop offset).countP (readsKey source dataset bbl) ≤
        securedOn (rowRank source dataset) (readsKey source dataset bbl)
          (rowsOfAny source dataset chunk) offset (offset + limit) := by
    intro offset limit
    exact exists_ordering_countP_le (Nat.le_add_right offset limit)
  choose worst hperm hsorted hcount using hworst
  have hslice : ∀ offset limit, (((worst offset limit).drop offset).take limit) =
      ((worst offset limit).take (offset + limit)).drop offset := by
    intro offset limit
    rw [List.drop_take, Nat.add_sub_cancel_left]
  refine ⟨fun q =>
    if q.filter = .isIn source.keyColumn (chunk.map (·.text)) ∧ q.order = some source.orderColumn then
      .response 200 (.array (((worst q.offset q.limit).drop q.offset).take q.limit))
    else dataset.fetch q, ?_, ?_⟩
  · intro q
    by_cases hq : q.filter = .isIn source.keyColumn (chunk.map (·.text)) ∧
        q.order = some source.orderColumn
    · refine ⟨((worst q.offset q.limit).drop q.offset).take q.limit, if_pos hq,
        worst q.offset q.limit, ?_, ?_, rfl⟩
      · rw [hq.1]
        exact hperm _ _
      · rw [hq.2]
        refine (hsorted q.offset q.limit).imp ?_
        rintro r s hle column e
        cases e
        exact hle
    · obtain ⟨page, hfetch, hpage⟩ := dataset.fetch_answers q
      exact ⟨page, (if_neg hq).trans hfetch, hpage⟩
  · intro timeoutMs lookupLimit pages hpages
    rw [countP_rowsRead, secured]
    refine List.sum_le_sum fun pageIndex _ => ?_
    have hpage := (hpages pageIndex).1
    rw [bulkQuery] at hpage
    simp only [and_self, if_true, FetchOutcome.response.injEq, SourcePayload.array.injEq,
      true_and] at hpage
    rw [← hpage, hslice]
    exact hcount _ _

/-! ### When the lookups agree -/

/-- The records the two lookups of a well-formed key classify, in a bulk lookup whose chunks can be
read. -/
theorem exists_records (hlaw : source.Lawful) (hreads : ReadsBbls dataset)
    (hanswers : dataset.Answers client.fetchImpl)
    {pages : List CanonicalBbl → Nat → List SourceRecord}
    (hpages : ∀ chunk, PagesOf source dataset client chunk (pages chunk)) {inputs : List String}
    {keys : SortedSet CanonicalBbl} (hkeys : canonicalBbls inputs = .ok keys)
    (hchunks : ∀ chunk ∈ chunks keys.toList bulkLookupChunkSize, ChunkReads source dataset chunk)
    {input : String} {bbl : CanonicalBbl} (hinput : canonicalizeBbl input = some bbl)
    {chunk : List CanonicalBbl} (hchunk : chunk ∈ chunks keys.toList bulkLookupChunkSize)
    (hbbl : bbl ∈ chunk) (hwell : WellFormed source dataset bbl) :
    ∃ own gathered : List α,
      (AgreesOn (lookupByKey source client input) (lookupByKeys source client inputs) bbl ↔
        SameMatches (classifyLookupResult own) (classifyLookupResult gathered)) ∧
      own.length = min client.lookupLimit (rowsOf source dataset bbl).length ∧
      gathered.length = (rowsRead source dataset chunk (pages chunk)).countP
        (readsKey source dataset bbl) ∧
      (∀ record ∈ own, OwnRecord source dataset bbl record) ∧
      ∀ record ∈ gathered, OwnRecord source dataset bbl record := by
  obtain ⟨own, hsingle, hownLength, hown⟩ := lookupByKey_eq hlaw hanswers hinput hwell
  obtain ⟨results, hbulk, hresults⟩ := lookupByKeys_eq hlaw hreads hpages hkeys hchunks
  obtain ⟨gathered, hfind, hgatheredLength, hgathered⟩ := hresults chunk hchunk bbl hbbl
  refine ⟨own, gathered, ⟨?_, ?_⟩, hownLength, hgatheredLength, hown, hgathered⟩
  · rintro ⟨found, results', found', hsingle', hbulk', hfind', hsame⟩
    rw [hsingle] at hsingle'
    cases hsingle'
    rw [hbulk] at hbulk'
    cases hbulk'
    rw [hfind] at hfind'
    cases hfind'
    exact hsame
  · intro hsame
    exact ⟨_, results, _, hsingle, hbulk, hfind, hsame⟩

omit [LinearOrder κ] in
/-- A key with one row has one record. -/
theorem eq_of_ownRecord {bbl : CanonicalBbl} (hone : (rowsOf source dataset bbl).length = 1)
    {record record' : α} (h : OwnRecord source dataset bbl record)
    (h' : OwnRecord source dataset bbl record') : record' = record := by
  obtain ⟨only, honly⟩ := List.length_eq_one_iff.mp hone
  obtain ⟨row, hrow, hparse⟩ := h
  obtain ⟨row', hrow', hparse'⟩ := h'
  rw [honly, List.mem_singleton] at hrow hrow'
  rw [hrow] at hparse
  rw [hrow', hparse] at hparse'
  cases hparse'
  rfl

omit [LinearOrder κ] in
theorem wellFormed_of_chunkReads {chunk : List CanonicalBbl} (h : ChunkReads source dataset chunk)
    {bbl : CanonicalBbl} (hbbl : bbl ∈ chunk) : WellFormed source dataset bbl := by
  intro row hrow
  rw [← filter_rowsOfAny hbbl] at hrow
  exact h.1 row (List.mem_filter.mp hrow).1

/-- **When every bulk lookup agrees with the single lookups**, for one of the two clients. -/
theorem lookupByKeys_agrees_iff (source : CondoSource α) (hlaw : source.Lawful)
    (dataset : OpenDataset κ) (hreads : ReadsBbls dataset) (timeoutMs lookupLimit : Nat)
    (inputs : List String) (keys : SortedSet CanonicalBbl) (hkeys : canonicalBbls inputs = .ok keys) :
    (∀ fetch, dataset.Answers fetch → ∀ input ∈ inputs, ∀ bbl, canonicalizeBbl input = some bbl →
      WellFormed source dataset bbl →
        AgreesOn (lookupByKey source ⟨fetch, timeoutMs, lookupLimit⟩ input)
          (lookupByKeys source ⟨fetch, timeoutMs, lookupLimit⟩ inputs) bbl) ↔
      Agreeable source dataset lookupLimit keys := by
  constructor
  · intro hagrees
    by_cases hnone : ∀ bbl ∈ keys, ¬ WellFormed source dataset bbl
    · exact .inl hnone
    · right
      have hchunks : ∀ chunk ∈ chunks keys.toList bulkLookupChunkSize,
          ChunkReads source dataset chunk := by
        intro chunk hchunk
        by_contra hbad
        simp only [not_forall, not_not] at hnone
        obtain ⟨bbl, hbbl, hwell⟩ := hnone
        obtain ⟨input, hmem, hinput⟩ := (canonicalBbls_eq_ok hkeys bbl).mp hbbl
        obtain ⟨-, results, -, -, hbulk, -⟩ :=
          hagrees dataset.fetch dataset.fetch_answers input hmem bbl hinput hwell
        obtain ⟨e, he⟩ := lookupByKeys_error timeoutMs lookupLimit hkeys hchunk hbad
        rw [he] at hbulk
        cases hbulk
      intro chunk hchunk
      refine ⟨(hchunks chunk hchunk).1, (hchunks chunk hchunk).2, fun bbl hbbl => ?_⟩
      have hwell := wellFormed_of_chunkReads (hchunks chunk hchunk) hbbl
      have hkey : bbl ∈ keys := by
        rw [SortedSet.mem_def, ← flatten_bulkChunks keys]
        exact List.mem_flatten.mpr ⟨chunk, hchunk, hbbl⟩
      obtain ⟨input, hmem, hinput⟩ := (canonicalBbls_eq_ok hkeys bbl).mp hkey
      -- the counts agree where every row is shown, and where as few as possible are
      have hcounts : ∀ {fetch}, dataset.Answers fetch → ∀ {pages : List CanonicalBbl → Nat → _},
          (∀ chunk, PagesOf source dataset ⟨fetch, timeoutMs, lookupLimit⟩ chunk (pages chunk)) →
          min (min lookupLimit (rowsOf source dataset bbl).length) 2 = min
            ((rowsRead source dataset chunk (pages chunk)).countP (readsKey source dataset bbl)) 2 := by
        intro fetch hanswers pages hpages
        obtain ⟨own, gathered, hiff, hown, hgathered, -⟩ := exists_records hlaw hreads hanswers
          hpages hkeys hchunks hinput hchunk hbbl hwell
        rw [← hgathered, ← hown]
        exact sameMatches_length (hiff.mp (hagrees fetch hanswers input hmem bbl hinput hwell))
      obtain ⟨pages, hpages, hperm⟩ := exists_pages_perm source dataset timeoutMs lookupLimit
      have hall := hcounts dataset.fetch_answers hpages
      rw [(hperm chunk (ne_nil_of_mem_chunks (by decide) hchunk)).countP_eq,
        countP_rowsOfAny source dataset hbbl] at hall
      obtain ⟨fetch, hanswers, hfew⟩ := exists_answers_countP_le source dataset chunk bbl
      obtain ⟨pages', hpages'⟩ := exists_pages source ⟨fetch, timeoutMs, lookupLimit⟩ hanswers
      have hworst := hcounts hanswers hpages'
      have hle := hfew timeoutMs lookupLimit (pages' chunk) (hpages' chunk)
      omega
  · rintro (hnone | hchunks) fetch hanswers input hmem bbl hinput hwell
    · exact absurd hwell (hnone bbl ((canonicalBbls_eq_ok hkeys bbl).mpr ⟨input, hmem, hinput⟩))
    · have hkey : bbl ∈ keys := (canonicalBbls_eq_ok hkeys bbl).mpr ⟨input, hmem, hinput⟩
      rw [SortedSet.mem_def, ← flatten_bulkChunks keys, List.mem_flatten] at hkey
      obtain ⟨chunk, hchunk, hbbl⟩ := hkey
      obtain ⟨hlimit, hsecured⟩ := (hchunks chunk hchunk).2.2 bbl hbbl
      obtain ⟨pages, hpages⟩ := exists_pages source ⟨fetch, timeoutMs, lookupLimit⟩ hanswers
      obtain ⟨own, gathered, hiff, hown, hgathered, hownRecord, hgatheredRecord⟩ :=
        exists_records hlaw hreads hanswers hpages hkeys
          (fun chunk hchunk => ⟨(hchunks chunk hchunk).1, (hchunks chunk hchunk).2.1⟩)
          hinput hchunk hbbl hwell
      have hcount := min_countP_rowsRead (hpages chunk) hbbl hsecured
      change own.length = min lookupLimit _ at hown
      refine hiff.mpr (sameMatches_of_length (by omega) fun record hrecord record' hrecord' hone => ?_)
      have honeRow : (rowsOf source dataset bbl).length = 1 := by omega
      exact eq_of_ownRecord honeRow (hownRecord record hrecord) (hgatheredRecord record' hrecord')

end Lookups

/-- **When the bulk lookups of the condominium clients agree with their single lookups**: exactly when,
unless no key is well formed, every row of every chunk can be read, the rows end before the page
limit, and the rows that tell the count of a key are on the pages however each request breaks ties. -/
theorem condo_bulk_agrees_iff {κ : Type} [LinearOrder κ] (dataset : OpenDataset κ)
    (hreads : ReadsBbls dataset) (timeoutMs lookupLimit : Nat) (inputs : List String)
    (keys : SortedSet CanonicalBbl) (hkeys : canonicalBbls inputs = .ok keys) :
    ((∀ fetch, dataset.Answers fetch → ∀ input ∈ inputs, ∀ bbl, canonicalizeBbl input = some bbl →
      WellFormed condoUnits dataset bbl →
        AgreesOn (lookupByUnitBbl ⟨fetch, timeoutMs, lookupLimit⟩ input)
          (lookupByUnitBbls ⟨fetch, timeoutMs, lookupLimit⟩ inputs) bbl) ↔
      Agreeable condoUnits dataset lookupLimit keys) ∧
    ((∀ fetch, dataset.Answers fetch → ∀ input ∈ inputs, ∀ bbl, canonicalizeBbl input = some bbl →
      WellFormed condominiums dataset bbl →
        AgreesOn (lookupByCondoBaseBbl ⟨fetch, timeoutMs, lookupLimit⟩ input)
          (lookupByCondoBaseBbls ⟨fetch, timeoutMs, lookupLimit⟩ inputs) bbl) ↔
      Agreeable condominiums dataset lookupLimit keys) :=
  ⟨lookupByKeys_agrees_iff condoUnits condoUnits_lawful dataset hreads timeoutMs lookupLimit inputs
      keys hkeys,
    lookupByKeys_agrees_iff condominiums condominiums_lawful dataset hreads timeoutMs lookupLimit
      inputs keys hkeys⟩

/-! ### A row that cannot be read -/

/-- A unit of the given base. -/
def sampleUnitRow (unitBbl condoBaseBbl : String) : SourceRecord
  | "unit_bbl" => .string unitBbl
  | "condo_base_bbl" => .string condoBaseBbl
  | _ => .undefined

/-- Two units, the first of no base. -/
def brokenUnits : OpenDataset Nat where
  records := [sampleUnitRow "1000011001" "", sampleUnitRow "1000011002" "1000010001"]
  reads value text := value = .string text
  rank _ := 0

theorem readsBbls_brokenUnits : ReadsBbls brokenUnits := by
  intro value bbl bbl' hread hvalue
  rw [of_decide_eq_true hread] at hvalue
  have hparse : sourceBbl? (.string bbl.text) = some bbl := DigitString.parse_text bbl
  rw [hparse] at hvalue
  cases hvalue
  rfl

/-- The BBLs of the two units. -/
def brokenBbls : SortedSet CanonicalBbl :=
  SortedSet.ofList [⟨"1000011001", rfl, rfl⟩, ⟨"1000011002", rfl, rfl⟩]

theorem condo_bulk_agrees_iff_broken :
    ((∀ fetch, brokenUnits.Answers fetch → ∀ input ∈ ["1000011001", "1000011002"], ∀ bbl,
      canonicalizeBbl input = some bbl → WellFormed condoUnits brokenUnits bbl →
        AgreesOn (lookupByUnitBbl ⟨fetch, 30000, 25⟩ input)
          (lookupByUnitBbls ⟨fetch, 30000, 25⟩ ["1000011001", "1000011002"]) bbl) ↔
      Agreeable condoUnits brokenUnits 25 brokenBbls) ∧
    ((∀ fetch, brokenUnits.Answers fetch → ∀ input ∈ ["1000011001", "1000011002"], ∀ bbl,
      canonicalizeBbl input = some bbl → WellFormed condominiums brokenUnits bbl →
        AgreesOn (lookupByCondoBaseBbl ⟨fetch, 30000, 25⟩ input)
          (lookupByCondoBaseBbls ⟨fetch, 30000, 25⟩ ["1000011001", "1000011002"]) bbl) ↔
      Agreeable condominiums brokenUnits 25 brokenBbls) :=
  condo_bulk_agrees_iff brokenUnits readsBbls_brokenUnits 30000 25 _ brokenBbls rfl

/-- The row of the first unit fails the bulk lookup of the second, whose own row can be read. -/
theorem broken_unit_fails_all :
    ¬ ∀ fetch, brokenUnits.Answers fetch → ∀ input ∈ ["1000011001", "1000011002"], ∀ bbl,
      canonicalizeBbl input = some bbl → WellFormed condoUnits brokenUnits bbl →
        AgreesOn (lookupByUnitBbl ⟨fetch, 30000, 25⟩ input)
          (lookupByUnitBbls ⟨fetch, 30000, 25⟩ ["1000011001", "1000011002"]) bbl := by
  intro hagrees
  have hwell : WellFormed condoUnits brokenUnits ⟨"1000011002", rfl, rfl⟩ := by
    intro row hrow
    have hrows : rowsOf condoUnits brokenUnits ⟨"1000011002", rfl, rfl⟩ =
        [sampleUnitRow "1000011002" "1000010001"] := rfl
    rw [hrows, List.mem_singleton] at hrow
    rw [hrow]
    exact ⟨_, rfl⟩
  have hchunk : brokenBbls.toList ∈ chunks brokenBbls.toList bulkLookupChunkSize := by
    decide +kernel
  have hbad : ¬ ChunkReads condoUnits brokenUnits brokenBbls.toList := by
    rintro ⟨hreads, -⟩
    have hrow : sampleUnitRow "1000011001" "" ∈ rowsOfAny condoUnits brokenUnits brokenBbls.toList :=
      List.mem_cons_self
    obtain ⟨record, hrecord⟩ := hreads _ hrow
    cases hrecord
  have hkeys : canonicalBbls ["1000011001", "1000011002"] = .ok brokenBbls := rfl
  obtain ⟨-, results, -, -, hbulk, -⟩ :=
    hagrees brokenUnits.fetch brokenUnits.fetch_answers "1000011002" (by decide) _ rfl hwell
  obtain ⟨e, he⟩ := lookupByKeys_error 30000 25 hkeys hchunk hbad
  rw [lookupByUnitBbls, he] at hbulk
  cases hbulk

end Condo

end NycPropertyResolver
