import NycPropertyResolver.Ingestion.SourceCoverage
import NycPropertyResolver.Query.Traversal

/-!
# Query — what a client is served

The two ends of the program put together: what the property endpoint serves is what the source held.  A
client follows `nextCursor` while the system goes on ingesting, its snapshots read at one instant and its
runs started in their order.  Where each response says CHECKED at one
watermark, the pages together are the rows of the source at that watermark on the BINs of the property,
each once (`property_pages_match_source`), though the rows may have been published by several runs.
-/

namespace NycPropertyResolver

open Library

variable {Row C : Type} [LinearOrder C] {config : ExecutorConfig} {columns : SourceColumns Row}
  {service : EcbRowService Row} {source : Nat → SourceDataset Row}

/-! ### Statements -/

/-- A violation of the source that the property endpoint is asked for. -/
structure SourceListed (service : EcbRowService Row) (rows : List Row) (bins : SortedSet CanonicalBin)
    (openOnly unpaidOnly : Bool) (v : NormalizedEcbViolation) : Prop where
  source : ∃ row ∈ rows, service.normalizeEcbViolation row = some v
  bin : v.bin ∈ bins
  isOpen : openOnly = true → v.ecbViolationStatus = some "ACTIVE"
  isUnpaid : unpaidOnly = true → ∃ balance, v.balanceDue = some balance ∧ 0 < balance

/-- Every row of the source has a source id and a date of the years 1 to 9999, or none. -/
def ReadableSource (service : EcbRowService Row) (source : Nat → SourceDataset Row) : Prop :=
  ∀ i, ∀ row ∈ (source i).rows, ∀ v, service.normalizeEcbViolation row = some v →
    v.sourceId ≠ "" ∧ ∀ days ∈ v.issueDate, ReadableDay days

/-- A request meets the system in a state it has reached, where the property is CHECKED at the given
watermark and has the given BINs. -/
def MeetsChecked (config : ExecutorConfig) (columns : SourceColumns Row) (service : EcbRowService Row)
    (source : Nat → SourceDataset Row) (p : PropertyId) (watermark : Time)
    (bins : SortedSet CanonicalBin) (db : Db Row) : Prop :=
  (∃ s, Steps (trackedNext config service) (AnsweredInOrder columns service source) ⟨.initial, 0⟩ s ∧
      s.system.db = db) ∧
    (∃ c, db.coverage p = some c ∧ c.status = .checked ∧ c.sourceWatermarkAt = some watermark) ∧
    db.propertyBins p = bins

/-! ### The database of a request -/

section Request

variable {db : Db Row} {p : PropertyId} {watermark : Time} {bins : SortedSet CanonicalBin}

theorem TablesKeyed.sourceIdUnique (h : TablesKeyed db) : SourceIdUnique db.liveRows := by
  have hnodup := h.live.nodup
  rw [SourceIdUnique, Db.liveRows, List.map_map]
  exact hnodup

theorem mem_liveRows (h : TablesKeyed db) {live : EcbViolation} :
    live ∈ db.liveRows ↔ db.live.find live.sourceId = some live := by
  rw [Db.liveRows, List.mem_map]
  constructor
  · rintro ⟨⟨sourceId, live'⟩, hmem, rfl⟩
    have hfind := Table.mem_rows.mp hmem
    have hkey : live'.sourceId = sourceId := h.live sourceId live' hfind
    rwa [hkey]
  · intro hfind
    exact ⟨(live.sourceId, live), Table.mem_rows.mpr hfind, rfl⟩

/-- **What a request meets**: the rows it may list are the source at the watermark. -/
theorem MeetsChecked.holds (hA : SourceAssumptions columns service source)
    (h : MeetsChecked config columns service source p watermark bins db) :
    TablesKeyed db ∧ (∃ i, watermarkAt source i = watermark) ∧
      ∀ i, watermarkAt source i = watermark → LiveIsSource service (source i).rows db bins := by
  obtain ⟨⟨s, hs, rfl⟩, ⟨c, hc, hchecked, hw⟩, rfl⟩ := h
  have hI := sourceCoverage_of_steps hA hs
  obtain ⟨i, -, hi, hlive⟩ := hI.liveIsSource hc hchecked
  obtain rfl : watermark = watermarkAt source i := Option.some.inj (hw.symm.trans hi)
  exact ⟨hI.keyed, ⟨i, rfl⟩, hlive⟩

end Request

/-! ### The requests of a client -/

section Requests

open ViolationsListing

variable {platform : Platform} {collation : SourceId ↪ C} {p : PropertyId} {watermark : Time}
  {bins : SortedSet CanonicalBin} {requests : List (PageRequest Row)}
  {pages : List (List EcbViolation)}

/-- A traversal makes a request. -/
theorem ViolationsListing.Traverses.exists_request {listing : ViolationsListing}
    {cursor : Option String} (h : Traverses platform collation listing cursor requests pages) :
    ∃ r, r ∈ requests := by
  cases h with
  | last => exact ⟨_, List.mem_singleton.mpr rfl⟩
  | next => exact ⟨_, List.mem_cons_self⟩

/-- The watermark that the requests meet is one of the source. -/
theorem exists_watermarkAt (hA : SourceAssumptions columns service source)
    {listing : ViolationsListing} {cursor : Option String}
    (hrequests : ∀ r ∈ requests, MeetsChecked config columns service source p watermark bins r.db)
    (h : Traverses platform collation listing cursor requests pages) :
    ∃ i, watermarkAt source i = watermark := by
  obtain ⟨r, hr⟩ := h.exists_request
  exact ((hrequests r hr).holds hA).2.1

/-- The listings that the requests meet are ordered. -/
theorem ordered_keyset (platform : Platform) (collation : SourceId ↪ C) (listing : ViolationsListing)
    (hA : SourceAssumptions columns service source)
    (hrequests : ∀ r ∈ requests, MeetsChecked config columns service source p watermark bins r.db) :
    ∀ keyset ∈ requests.map (PageRequest.keyset platform collation listing),
      Ordered (sortKey collation listing.column) keyset.1 := by
  intro keyset hkeyset
  obtain ⟨r, hr, rfl⟩ := List.mem_map.mp hkeyset
  exact ordered_orderedRows ((hrequests r hr).holds hA).1.sourceIdUnique

end Requests

/-! ### Pages against the source -/

section Listing

open ViolationsListing

variable {platform : Platform} {collation : SourceId ↪ C} {db : Db Row} {p : PropertyId}
  {watermark : Time} {bins : SortedSet CanonicalBin} {openOnly unpaidOnly : Bool} {i : Nat}

/-- A row is of the listing when what it was published from is asked of the source. -/
theorem sourceListed_of_matches (hlive : LiveIsSource service (source i).rows db bins)
    (hkeyed : TablesKeyed db) (hbins : db.propertyBins p = bins) {live : EcbViolation}
    (hmem : live ∈ db.liveRows) (h : (property p openOnly unpaidOnly).Matches platform db live) :
    SourceListed service (source i).rows bins openOnly unpaidOnly live.toNormalizedEcbViolation := by
  obtain ⟨hcurrent, hbin, hopen, hunpaid⟩ := h
  rw [hbins] at hbin
  have hfind := (mem_liveRows hkeyed).mp hmem
  obtain ⟨-, hsource⟩ := (hlive live.sourceId live.toNormalizedEcbViolation hbin).mp
    ⟨live, hfind, hcurrent, rfl⟩
  exact ⟨hsource, hbin, hopen, hunpaid⟩

/-- What is asked of the source is a row of the listing. -/
theorem exists_matches (platform : Platform) (hlive : LiveIsSource service (source i).rows db bins)
    (hkeyed : TablesKeyed db) (hbins : db.propertyBins p = bins) {v : NormalizedEcbViolation}
    (h : SourceListed service (source i).rows bins openOnly unpaidOnly v) :
    ∃ live ∈ db.liveRows, (property p openOnly unpaidOnly).Matches platform db live ∧
      live.toNormalizedEcbViolation = v := by
  obtain ⟨live, hfind, hcurrent, rfl⟩ := (hlive v.sourceId v h.bin).mpr ⟨rfl, h.source⟩
  exact ⟨live, (mem_liveRows hkeyed).mpr hfind, ⟨hcurrent, hbins ▸ h.bin, h.isOpen, h.isUnpaid⟩, rfl⟩

/-- The sort key of a violation at the property endpoint. -/
def issueDateKey (collation : SourceId ↪ C) (v : NormalizedEcbViolation) : SortKey C :=
  OrderDual.toDual (toLex (dateKey v.issueDate, collation v.sourceId))

/-- A request that finds the property CHECKED can be paginated, where the source is readable. -/
theorem MeetsChecked.paginable (hA : SourceAssumptions columns service source)
    (hreadable : ReadableSource service source)
    (h : MeetsChecked config columns service source p watermark bins db) :
    Paginable platform (property p openOnly unpaidOnly) db := by
  obtain ⟨hkeyed, ⟨i, hi⟩, hlive⟩ := h.holds hA
  refine ⟨hkeyed.sourceIdUnique, fun live hmem hmatches => ?_⟩
  obtain ⟨⟨row, hrow, hnormalized⟩, -⟩ :=
    sourceListed_of_matches (hlive i hi) hkeyed h.2.2 hmem hmatches
  exact hreadable i row hrow _ hnormalized

/-- **The property endpoint serves the source.**  A client follows `nextCursor` to the end while the
system goes on: executions run, crash and publish between its requests, the source changes, and other
properties come and go.  Snapshots are read at one instant, runs start in their order, the source answers
as it stands, and its rows have an id and dates that a cursor can hold.  If each request finds the
property CHECKED at one and the same watermark, and with the same BINs, then what the pages hold together
is strictly ordered, without repetition, and is exactly what the source held at that watermark on those
BINs and passes the filters. -/
theorem property_pages_match_source (hA : SourceAssumptions columns service source)
    (hreadable : ReadableSource service source) {requests : List (PageRequest Row)}
    {pages : List (List EcbViolation)}
    (hrequests : ∀ r ∈ requests, MeetsChecked config columns service source p watermark bins r.db)
    (h : Traverses platform collation (property p openOnly unpaidOnly) none requests pages) :
    (pages.flatten.Pairwise fun a b =>
      sortKey collation (·.issueDate) a < sortKey collation (·.issueDate) b) ∧
    (pages.flatten.map (·.toNormalizedEcbViolation)).Nodup ∧
    (∃ i, watermarkAt source i = watermark) ∧
    ∀ i, watermarkAt source i = watermark → ∀ v,
      v ∈ pages.flatten.map (·.toNormalizedEcbViolation) ↔
        SourceListed service (source i).rows bins openOnly unpaidOnly v := by
  have hfilter : (property p openOnly unpaidOnly).FilterAccepted platform := trivial
  have hkeyset := h.keyset hfilter (fun r hr => (hrequests r hr).paginable hA hreadable) rfl
  have hordered := ordered_keyset platform collation (property p openOnly unpaidOnly) hA hrequests
  have hpairwise := hkeyset.pairwise hordered
  have hsound : ∀ i, watermarkAt source i = watermark → ∀ live ∈ pages.flatten,
      SourceListed service (source i).rows bins openOnly unpaidOnly
        live.toNormalizedEcbViolation := by
    intro i hi live hlive
    obtain ⟨keyset, hkeyset', hmem⟩ := hkeyset.exists_listing live hlive
    obtain ⟨r, hr, rfl⟩ := List.mem_map.mp hkeyset'
    obtain ⟨hkeyed, -, hsource⟩ := (hrequests r hr).holds hA
    obtain ⟨hmem, hmatches⟩ := (mem_rows hfilter).mp hmem
    exact sourceListed_of_matches (hsource i hi) hkeyed (hrequests r hr).2.2 hmem hmatches
  refine ⟨hpairwise, ?_, exists_watermarkAt hA hrequests h,
    fun i hi v => ⟨fun hv => ?_, fun hv => ?_⟩⟩
  · refine List.pairwise_map.mpr (hpairwise.imp fun hlt heq => hlt.ne ?_)
    exact congrArg (issueDateKey collation) heq
  · obtain ⟨live, hlive, rfl⟩ := List.mem_map.mp hv
    exact hsound i hi live hlive
  · -- its sort key is in the listing of every request, so a row with that key is returned
    obtain ⟨live, hlive, hkey⟩ := hkeyset.exists_of_forall hordered beyond_none
      (k := issueDateKey collation v) fun keyset hk => by
        obtain ⟨r, hr, rfl⟩ := List.mem_map.mp hk
        obtain ⟨hkeyed, -, hsource⟩ := (hrequests r hr).holds hA
        obtain ⟨live, hmem, hmatches, rfl⟩ :=
          exists_matches platform (hsource i hi) hkeyed (hrequests r hr).2.2 hv
        exact ⟨live, (mem_rows hfilter).mpr ⟨hmem, hmatches⟩, rfl⟩
    have hid : live.sourceId = v.sourceId :=
      collation.injective (congrArg (fun k => (ofLex (OrderDual.ofDual k)).2) hkey)
    -- and that row is of the source row of its source id, which is the one asked for
    obtain ⟨row, hrow, hnormalized⟩ := (hsound i hi live hlive).source
    obtain ⟨row', hrow', hnormalized'⟩ := hv.source
    obtain rfl := hA.sourceIds i row hrow row' hrow' _ _ hnormalized hnormalized' hid
    obtain rfl := Option.some.inj (hnormalized'.symm.trans hnormalized)
    exact List.mem_map.mpr ⟨live, hlive, rfl⟩

end Listing

/-! ### Two executions between two pages -/

section TwoExecutions

open ViolationsListing

/-- A second violation on the BIN of the first. -/
def secondViolation : NormalizedEcbViolation :=
  { sampleViolation with sourceId := "2", socrataRowId := "row-2" }

/-- A source of two violations, which fill a page of an execution. -/
def pairSource : SourceDataset NormalizedEcbViolation := ⟨[sampleViolation, secondViolation], 7⟩

theorem pairSource_assumptions :
    SourceAssumptions plainColumns plainService fun _ => pairSource where
  ids _ := by decide
  sourceIds _ row hrow row' hrow' v v' hv hv' he := by
    cases hv
    cases hv'
    have hpairs : ∀ row ∈ pairSource.rows, ∀ row' ∈ pairSource.rows,
        row.sourceId = row'.sourceId → row = row' := by decide
    exact hpairs row hrow row' hrow' he
  monotone _ _ _ := Nat.le_refl _
  strict _ _ _ hp := absurd (.refl _) hp

theorem pairSource_readable : ReadableSource plainService fun _ => pairSource := by
  intro _ row hrow v hv
  cases hv
  have hrows : ∀ row ∈ pairSource.rows, row.sourceId ≠ "" ∧ ∀ days ∈ row.issueDate,
      ReadableDay days := by decide
  exact hrows row hrow

/-- The creation of a property, and one execution after another over both violations. -/
def pairRuns : Nat → List (TrackedEvent NormalizedEcbViolation)
  | 0 => [.system (createSample 0 "1000010001" "1000001")]
  | runId + 1 => pairRuns runId ++ .system (.acquireLock .manual) ::
      (List.replicate 12 (.system (.executor (quietAnswer runId 7 pairSource.rows))) ++
        List.replicate 12 (.system (.executor (quietAnswer runId 7 []))))

/-- The page of a request after some executions. -/
theorem pairRuns_page (n runs : Nat) (cursor following : Option String) (sourceIds : List SourceId)
    (hok : RunOk (trackedNext smallConfig plainService)
      (AnsweredInOrder plainColumns plainService fun _ => pairSource) ⟨.initial, 0⟩ (pairRuns n))
    (h : ((Library.run (trackedNext smallConfig plainService) ⟨.initial, 0⟩ (pairRuns n)).bind fun s =>
      (s.system.db.coverage 0).bind fun c => ((property 0 false false).request
        boundaryPlatform (Function.Embedding.refl String) s.system.db ⟨1, by decide⟩
          cursor).toOption.map fun page => ((c.status, c.sourceWatermarkAt,
            s.system.db.propertyBins 0), s.system.db.runs.keys.length, page.1.map (·.sourceId),
              page.2)) =
      some ((.checked, some 7000, SortedSet.ofList [sampleViolation.bin]), runs, sourceIds,
        following)) :
    ∃ (db : Db NormalizedEcbViolation) (violations : List EcbViolation),
      MeetsChecked smallConfig plainColumns plainService (fun _ => pairSource) 0 7000
        (SortedSet.ofList [sampleViolation.bin]) db ∧
      db.runs.keys.length = runs ∧ violations.map (·.sourceId) = sourceIds ∧
      (property 0 false false).request boundaryPlatform
        (Function.Embedding.refl String) db ⟨1, by decide⟩ cursor = .ok (violations, following) := by
  obtain ⟨s, hrun, h⟩ := Option.bind_eq_some_iff.mp h
  obtain ⟨c, hc, h⟩ := Option.bind_eq_some_iff.mp h
  obtain ⟨⟨violations, text⟩, hpage, h⟩ := Option.map_eq_some_iff.mp h
  simp only [Prod.mk.injEq] at h
  obtain ⟨⟨hchecked, hwatermark, hbins⟩, hruns, hids, rfl⟩ := h
  refine ⟨s.system.db, violations, ⟨⟨s, run_steps hok hrun, rfl⟩, ⟨c, hc, hchecked, hwatermark⟩, hbins⟩,
    hruns, hids, ?_⟩
  cases hrequest : (property 0 false false).request boundaryPlatform
      (Function.Embedding.refl String) s.system.db ⟨1, by decide⟩ cursor with
  | error e =>
      rw [hrequest] at hpage
      cases hpage
  | ok page =>
      rw [hrequest] at hpage
      cases hpage
      rfl

/-- The first page is asked for after one execution, and the second after another has published the same
violations again. -/
theorem property_pages_match_source_pairRuns :
    ∃ (requests : List (PageRequest NormalizedEcbViolation)) (pages : List (List EcbViolation)),
      requests.map (fun r => r.db.runs.keys.length) = [1, 2] ∧
      Traverses boundaryPlatform (Function.Embedding.refl String)
        (property 0 false false) none requests pages ∧
      pages.map (fun page => page.map (·.sourceId)) = [["2"], ["1"]] ∧
      ∀ v, v ∈ pages.flatten.map (·.toNormalizedEcbViolation) ↔
        SourceListed plainService pairSource.rows (SortedSet.ofList [sampleViolation.bin]) false false
          v := by
  let cursor := "eyJpc3N1ZURhdGUiOm51bGwsInNvdXJjZUlkIjoiMiJ9"
  obtain ⟨db₁, first, hmeets₁, hruns₁, hids₁, hfirst⟩ :=
    pairRuns_page 1 1 none (some cursor) ["2"] (by decide +kernel) (by decide +kernel)
  obtain ⟨db₂, second, hmeets₂, hruns₂, hids₂, hsecond⟩ :=
    pairRuns_page 2 2 (some cursor) none ["1"] (by decide +kernel) (by decide +kernel)
  have htraverses : Traverses boundaryPlatform (Function.Embedding.refl String)
      (property 0 false false) none
      [⟨db₁, ⟨1, by decide⟩⟩, ⟨db₂, ⟨1, by decide⟩⟩] [first, second] :=
    .next hfirst (.last hsecond)
  have hmeets : ∀ r ∈ ([⟨db₁, ⟨1, by decide⟩⟩, ⟨db₂, ⟨1, by decide⟩⟩] :
      List (PageRequest NormalizedEcbViolation)), MeetsChecked smallConfig plainColumns plainService
        (fun _ => pairSource) 0 7000 (SortedSet.ofList [sampleViolation.bin]) r.db := by
    simp [hmeets₁, hmeets₂]
  obtain ⟨-, -, -, hexact⟩ :=
    property_pages_match_source pairSource_assumptions pairSource_readable hmeets htraverses
  exact ⟨_, _, by simp [hruns₁, hruns₂], htraverses, by simp [hids₁, hids₂], hexact 0 rfl⟩

end TwoExecutions

end NycPropertyResolver
