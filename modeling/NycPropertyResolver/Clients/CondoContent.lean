import NycPropertyResolver.Clients.CondoAgreement

/-!
# Clients — condominium lookups and the content of their datasets

What a single lookup says of the rows that match it: none, the one there is, or that there are several
(`Reports`); or, where one of them cannot be read, the error of that row.  The lookups are those of a
client whose requests return the matching rows, or at least two of them where there are several
(`Serves`); one with a limit of two rows or more, over a dataset that answers every query, is such a
client (`serves_of_answers`).
-/

namespace NycPropertyResolver

open Library

namespace Condo

variable {α κ : Type} {source : CondoSource α} {bblColumns : List String} {dataset : OpenDataset κ}
  {client : CondoClient} {filter : SourceFilter} {record : α}

/-! ### Conditions -/

/-- The filter of a lookup by unit BBL. -/
def byUnitBbl (unitBbl : CanonicalBbl) : SourceFilter := .equals "unit_bbl" unitBbl.text

/-- The filter of a lookup by base BBL and unit designation. -/
def byCondoBaseAndUnitDesignation (condoBaseBbl : CanonicalBbl) (unitDesignation : String) :
    SourceFilter :=
  .both (.equals "condo_base_bbl" condoBaseBbl.text) (.equals "unit_designation" unitDesignation)

/-- The filter of a lookup by base BBL. -/
def byCondoBaseBbl (condoBaseBbl : CanonicalBbl) : SourceFilter :=
  .equals "condo_base_bbl" condoBaseBbl.text

/-- The filter of a lookup by billing BBL. -/
def byCondoBillingBbl (condoBillingBbl : CanonicalBbl) : SourceFilter :=
  .equals "condo_billing_bbl" condoBillingBbl.text

/-! ### Clients that return what matches -/

/-- A filter of a BBL column reads it as the client does, and a lookup's request returns the rows that
match, or at least two of them where there are several. -/
structure Serves (source : CondoSource α) (bblColumns : List String) (dataset : OpenDataset κ)
    (client : CondoClient) : Prop where
  reads_iff : ∀ row ∈ dataset.records, ∀ column ∈ bblColumns, ∀ bbl : CanonicalBbl,
    dataset.reads (row column) bbl.text = true ↔ sourceBbl? (row column) = some bbl
  returns : ∀ filter, ∃ page,
    client.fetchImpl ⟨filter, some source.orderColumn, client.lookupLimit, 0⟩ =
      .response 200 (.array page) ∧
    page.Subperm (dataset.select filter) ∧ min (dataset.select filter).length 2 ≤ page.length

theorem serves_of_answers [LinearOrder κ] (hanswers : dataset.Answers client.fetchImpl)
    (hlimit : 2 ≤ client.lookupLimit)
    (hreads : ∀ row ∈ dataset.records, ∀ column ∈ bblColumns, ∀ bbl : CanonicalBbl,
      dataset.reads (row column) bbl.text = true ↔ sourceBbl? (row column) = some bbl) :
    Serves source bblColumns dataset client where
  reads_iff := hreads
  returns filter := by
    obtain ⟨page, hfetch, ordered, hperm, -, rfl⟩ :=
      hanswers ⟨filter, some source.orderColumn, client.lookupLimit, 0⟩
    refine ⟨_, hfetch, ?_, ?_⟩
    · exact (List.take_sublist _ _).subperm.trans hperm.subperm
    · rw [List.length_take, List.drop_zero, hperm.length_eq]
      change min (dataset.select filter).length 2 ≤
        min client.lookupLimit (dataset.select filter).length
      omega

/-- The row that matches, and no other. -/
def IsOnlyRow (source : CondoSource α) (dataset : OpenDataset κ) (filter : SourceFilter) (record : α) :
    Prop :=
  ∃ row, dataset.select filter = [row] ∧ source.parseRow row = .ok record

theorem IsOnlyRow.unique {record' : α} (h : IsOnlyRow source dataset filter record)
    (h' : IsOnlyRow source dataset filter record') : record = record' := by
  obtain ⟨row, hselect, hparse⟩ := h
  obtain ⟨row', hselect', hparse'⟩ := h'
  rw [hselect] at hselect'
  cases hselect'
  rw [hparse] at hparse'
  exact Except.ok.inj hparse'

/-- What a lookup says of the rows that match. -/
def Reports (source : CondoSource α) (dataset : OpenDataset κ) (filter : SourceFilter) :
    LookupMatches α → Prop
  | .zero => dataset.select filter = []
  | .one record => IsOnlyRow source dataset filter record
  | .multiple _ => 2 ≤ (dataset.select filter).length

/-- **A lookup reports the rows that match**, or the first of them that cannot be read. -/
theorem queryRows_reports (hsort : ∀ records, (source.sort records).Perm records)
    (h : Serves source bblColumns dataset client) (filter : SourceFilter) :
    (∃ lookup, queryRows source client filter = .ok lookup ∧ Reports source dataset filter lookup) ∨
      ∃ row ∈ dataset.select filter, ∃ e, source.parseRow row = .error e ∧
        queryRows source client filter = .error e := by
  obtain ⟨page, hfetch, hpage, hlength⟩ := h.returns filter
  have hquery : queryRows source client filter = (page.mapM source.parseRow >>= fun records =>
      .ok (classifyLookupResult (source.sort records))) := by
    rw [queryRows, fetchRows_eq hfetch]
    rfl
  rw [hquery]
  rcases mapM_parseRow page with ⟨records, hmap, hparsed⟩ | ⟨row, hrow, e, herror, hmap⟩
  swap
  · exact .inr ⟨row, hpage.subset hrow, e, herror, by rw [hmap]; rfl⟩
  have hcount : (source.sort records).length = page.length := by
    rw [(hsort records).length_eq, hparsed.length_eq]
  refine .inl ⟨classifyLookupResult (source.sort records), ?_, ?_⟩
  · rw [hmap]
    rfl
  · cases hsorted : source.sort records with
    | nil =>
        rw [hsorted, List.length_nil] at hcount
        have hnone : (dataset.select filter).length = 0 := by omega
        exact List.length_eq_zero_iff.mp hnone
    | cons record rest =>
        cases rest with
        | nil =>
            rw [hsorted, List.length_singleton] at hcount
            have hone : (dataset.select filter).length ≤ page.length := by omega
            have hperm := hpage.perm_of_length_le hone
            obtain ⟨row, rfl⟩ := List.length_eq_one_iff.mp hcount.symm
            have hselect : dataset.select filter = [row] := List.perm_singleton.mp hperm.symm
            have hmem : record ∈ records := (hsort records).mem_iff.mp (hsorted ▸ List.mem_singleton_self _)
            obtain ⟨row', hrow', hparse⟩ := mem_of_parsed hparsed hmem
            rw [List.mem_singleton.mp hrow'] at hparse
            exact ⟨row, hselect, hparse⟩
        | cons record' rest =>
            rw [hsorted, List.length_cons, List.length_cons] at hcount
            have hle := hpage.length_le
            change 2 ≤ (dataset.select filter).length
            omega

/-! ### Rows that cannot be read -/

theorem normalizeSourceBbl_error {codes name fieldName : String} {value : SourceValue}
    {e : SourceClientError} (h : normalizeSourceBbl codes name fieldName value = .error e) :
    ∃ message, e = malformedRow codes message := by
  rw [normalizeSourceBbl] at h
  split at h
  · cases h
  · cases h
    exact ⟨_, rfl⟩

theorem normalizeUnitDesignation_error {value : SourceValue} {e : SourceClientError}
    (h : normalizeUnitDesignation value = .error e) : ∃ message, e = malformedRow "CONDO_UNITS" message := by
  unfold normalizeUnitDesignation at h
  split at h
  all_goals cases h
  exact ⟨_, rfl⟩

/-- Every error of a unit row is one of a malformed row. -/
theorem parseCondoUnitRow_error {row : SourceRecord} {e : SourceClientError}
    (h : parseCondoUnitRow row = .error e) : ∃ message, e = malformedRow "CONDO_UNITS" message := by
  rw [parseCondoUnitRow] at h
  rcases except_bind_error.mp h with hunit | ⟨unitBbl, -, h⟩
  · exact normalizeSourceBbl_error hunit
  rcases except_bind_error.mp h with hbase | ⟨condoBaseBbl, -, h⟩
  · exact normalizeSourceBbl_error hbase
  rcases except_bind_error.mp h with hdesignation | ⟨unitDesignation, -, h⟩
  · exact normalizeUnitDesignation_error hdesignation
  cases h

/-- Every error of a billing row is one of a malformed row. -/
theorem parseCondominiumRow_error {row : SourceRecord} {e : SourceClientError}
    (h : parseCondominiumRow row = .error e) : ∃ message, e = malformedRow "CONDOMINIUMS" message := by
  rw [parseCondominiumRow] at h
  rcases except_bind_error.mp h with hbase | ⟨condoBaseBbl, -, h⟩
  · exact normalizeSourceBbl_error hbase
  rcases except_bind_error.mp h with hbilling | ⟨condoBillingBbl, -, h⟩
  · exact normalizeSourceBbl_error hbilling
  cases h

/-! ### The lookups -/

theorem requireCanonicalBbl_text (bbl : CanonicalBbl) : requireCanonicalBbl bbl.text = .ok bbl := by
  rw [requireCanonicalBbl, canonicalizeBbl, DigitString.parse_text]

theorem lookupByUnitBbl_eq (unitBbl : CanonicalBbl) :
    lookupByUnitBbl client unitBbl.text = queryRows condoUnits client (byUnitBbl unitBbl) := by
  rw [lookupByUnitBbl, lookupByKey, requireCanonicalBbl_text]
  rfl

theorem lookupByCondoBaseBbl_eq (condoBaseBbl : CanonicalBbl) :
    lookupByCondoBaseBbl client condoBaseBbl.text =
      queryRows condominiums client (byCondoBaseBbl condoBaseBbl) := by
  rw [lookupByCondoBaseBbl, lookupByKey, requireCanonicalBbl_text]
  rfl

theorem lookupByCondoBillingBbl_eq (condoBillingBbl : CanonicalBbl) :
    lookupByCondoBillingBbl client condoBillingBbl.text =
      queryRows condominiums client (byCondoBillingBbl condoBillingBbl) := by
  rw [lookupByCondoBillingBbl, requireCanonicalBbl_text]
  rfl

theorem lookupByCondoBaseAndUnitDesignation_eq (condoBaseBbl : CanonicalBbl) {unitDesignation : String}
    (htrim : trim unitDesignation = unitDesignation) (hne : unitDesignation.isEmpty = false) :
    lookupByCondoBaseAndUnitDesignation client condoBaseBbl.text unitDesignation =
      queryRows condoUnits client (byCondoBaseAndUnitDesignation condoBaseBbl unitDesignation) := by
  rw [lookupByCondoBaseAndUnitDesignation, requireCanonicalBbl_text, htrim]
  simp only [hne]
  rfl

/-! ### What matching rows carry -/

/-- The columns of the two datasets that hold BBLs. -/
def unitBblColumns : List String := ["unit_bbl", "condo_base_bbl"]

/-- The columns a billing BBL is looked for in, in the order the resolver tries them. -/
def billingBblColumns : List String := ["condo_base_bbl", "condo_billing_bbl"]

theorem parseCondoUnitRow_eq_ok {row : SourceRecord} {unit : CondoUnitRecord}
    (h : parseCondoUnitRow row = .ok unit) :
    sourceBbl? (row "unit_bbl") = some unit.unitBbl ∧
      sourceBbl? (row "condo_base_bbl") = some unit.condoBaseBbl := by
  rw [parseCondoUnitRow] at h
  obtain ⟨unitBbl, hunit, h⟩ := except_bind_ok.mp h
  obtain ⟨condoBaseBbl, hbase, h⟩ := except_bind_ok.mp h
  obtain ⟨unitDesignation, -, h⟩ := except_bind_ok.mp h
  cases h
  exact ⟨sourceBbl?_of_normalize hunit, sourceBbl?_of_normalize hbase⟩

theorem parseCondominiumRow_eq_ok {row : SourceRecord} {billing : CondominiumBillingRecord}
    (h : parseCondominiumRow row = .ok billing) :
    sourceBbl? (row "condo_base_bbl") = some billing.condoBaseBbl ∧
      sourceBbl? (row "condo_billing_bbl") = some billing.condoBillingBbl := by
  rw [parseCondominiumRow] at h
  obtain ⟨condoBaseBbl, hbase, h⟩ := except_bind_ok.mp h
  obtain ⟨condoBillingBbl, hbilling, h⟩ := except_bind_ok.mp h
  cases h
  exact ⟨sourceBbl?_of_normalize hbase, sourceBbl?_of_normalize hbilling⟩

theorem mem_select_equals {column value : String} {row : SourceRecord} :
    row ∈ dataset.select (.equals column value) ↔
      row ∈ dataset.records ∧ dataset.reads (row column) value = true := by
  rw [OpenDataset.select, List.mem_filter, SourceFilter.matches]

theorem IsOnlyRow.mem (h : IsOnlyRow source dataset filter record) :
    ∃ row ∈ dataset.select filter, source.parseRow row = .ok record := by
  obtain ⟨row, hselect, hparse⟩ := h
  exact ⟨row, by rw [hselect]; exact List.mem_singleton_self row, hparse⟩

/-- The row that matches a condition, where a row is known to match it. -/
theorem IsOnlyRow.eq_of_mem (h : IsOnlyRow source dataset filter record) {row : SourceRecord}
    {record' : α} (hrow : row ∈ dataset.select filter) (hparse : source.parseRow row = .ok record') :
    record' = record := by
  obtain ⟨row', hselect, hparse'⟩ := h
  rw [hselect, List.mem_singleton] at hrow
  rw [hrow, hparse'] at hparse
  exact (Except.ok.inj hparse).symm

section Units

variable {units : OpenDataset κ} {condoBaseBbl : CanonicalBbl} {unitDesignation : String}
  {unit mapped : CondoUnitRecord}

/-- The unit of a base and a designation is of that base, and it is the unit of its own BBL if that has
one. -/
theorem unit_of_context (hserves : Serves condoUnits unitBblColumns units client)
    (h : IsOnlyRow condoUnits units (byCondoBaseAndUnitDesignation condoBaseBbl unitDesignation) unit) :
    unit.condoBaseBbl = condoBaseBbl ∧
      ∀ mapped, IsOnlyRow condoUnits units (byUnitBbl unit.unitBbl) mapped → mapped = unit := by
  obtain ⟨row, hrow, hparse⟩ := h.mem
  obtain ⟨hunit, hbase⟩ := parseCondoUnitRow_eq_ok hparse
  rw [byCondoBaseAndUnitDesignation, OpenDataset.select, List.mem_filter, SourceFilter.matches,
    SourceFilter.matches, Bool.and_eq_true] at hrow
  obtain ⟨hmem, hread, -⟩ := hrow
  have hbase' := (hserves.reads_iff row hmem "condo_base_bbl" (by simp [unitBblColumns]) _).mp hread
  rw [hbase] at hbase'
  refine ⟨Option.some.inj hbase', fun mapped hmapped => ?_⟩
  have hread' := (hserves.reads_iff row hmem "unit_bbl" (by simp [unitBblColumns]) _).mpr hunit
  exact (hmapped.eq_of_mem (mem_select_equals.mpr ⟨hmem, hread'⟩) hparse).symm

/-- The billing record of a billing BBL is that of its base, if the base has one. -/
theorem billing_of_billingBbl {billings : OpenDataset κ} {condoBillingBbl : CanonicalBbl}
    {billing billing' : CondominiumBillingRecord}
    (hserves : Serves condominiums billingBblColumns billings client)
    (h : IsOnlyRow condominiums billings (byCondoBillingBbl condoBillingBbl) billing)
    (h' : IsOnlyRow condominiums billings (byCondoBaseBbl billing.condoBaseBbl) billing') :
    billing'.condoBillingBbl = condoBillingBbl := by
  obtain ⟨row, hrow, hparse⟩ := h.mem
  obtain ⟨hbase, hbilling⟩ := parseCondominiumRow_eq_ok hparse
  obtain ⟨hmem, hread⟩ := mem_select_equals.mp hrow
  have hbilling' :=
    (hserves.reads_iff row hmem "condo_billing_bbl" (by simp [billingBblColumns]) _).mp hread
  rw [hbilling] at hbilling'
  have hread' := (hserves.reads_iff row hmem "condo_base_bbl" (by simp [billingBblColumns]) _).mpr hbase
  have hsame := h'.eq_of_mem (mem_select_equals.mpr ⟨hmem, hread'⟩) hparse
  rw [← hsame]
  exact Option.some.inj hbilling'

end Units

end Condo

end NycPropertyResolver
