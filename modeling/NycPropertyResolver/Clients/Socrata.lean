import Mathlib.Data.String.Basic
import NycPropertyResolver.Config.Env
import NycPropertyResolver.Library.FormUrlEncoded

/-!
# Clients — Socrata data pages

`socrata.client.ts`: the URL of a data page, and the checks a request passes before it is built.  The
client has bounds of its own on the BINs of a query and on the length of its URL.  A query of canonical
BINs that passes the first bound at its default is far below the second
(`length_dataPageUrl_le`).
-/

namespace NycPropertyResolver

open Library

/-! ### Errors -/

/-- `SocrataClientError`. -/
structure SocrataClientError where
  code : String
  kind : String
  retryable : Bool
  statusCode : Nat
  message : String
  deriving DecidableEq

/-- The error of a request that is refused before anything is sent. -/
def socrataInvalidRequest (message : String) : SocrataClientError where
  code := "SOCRATA_INVALID_REQUEST"
  kind := "invalid_request"
  retryable := false
  statusCode := 400
  message := message

/-! ### The client -/

/-- `SOCRATA_ECB_DATA_URL`. -/
def socrataEcbDataUrl : String := "https://data.cityofnewyork.us/resource/6bgk-3dad.json"

/-- The column of a row's id. -/
def socrataRowIdField : String := ":id"

/-- The column of a row's last change. -/
def sourceRowUpdatedAtField : String := ":updated_at"

/-- The column of a row's BIN. -/
def socrataEcbBinField : String := "bin"

/-- The columns of a page: those of the dataset, the row's id and its last change. -/
def socrataEcbPageSelect : String := "*," ++ socrataRowIdField ++ "," ++ sourceRowUpdatedAtField

/-- The order of a page: by last change, then by id. -/
def socrataEcbPageOrder : String := sourceRowUpdatedAtField ++ "," ++ socrataRowIdField

/-- The largest page Socrata serves. -/
def socrataMaxPageSize : Nat := 50000

/-- The longest BIN a query takes, in characters. -/
def socrataMaxBinValueLength : Nat := 64

/-- The BINs of one query, unless the client is given a limit. -/
def socrataDefaultMaxBinsPerQuery : Nat := ConfigDefaults.ecbBatchSize

/-- The longest address of a query, unless the client is given a limit. -/
def socrataDefaultMaxQueryUrlLength : Nat := 32768

/-- The options of a client that decide about its queries. -/
structure SocrataClientOptions where
  dataUrl : Option String
  maxBinsPerQuery : Option Nat
  maxQueryUrlLength : Option Nat

/-- `SocrataClient`: where the dataset is, and the limits of a query. -/
structure SocrataClient where
  dataUrl : String
  maxBinsPerQuery : Nat
  maxQueryUrlLength : Nat

/-- `parseBound`: a limit is a positive integer. -/
def parseBound (value : Nat) (optionName : String) : Except SocrataClientError Nat :=
  if value ≤ maxSafeInteger ∧ 0 < value then
    .ok value
  else
    .error (socrataInvalidRequest s!"Socrata {optionName} must be a positive integer")

/-- The constructor. -/
def SocrataClient.create (options : SocrataClientOptions) : Except SocrataClientError SocrataClient := do
  let maxBinsPerQuery ←
    parseBound (options.maxBinsPerQuery.getD socrataDefaultMaxBinsPerQuery) "maxBinsPerQuery"
  let maxQueryUrlLength ←
    parseBound (options.maxQueryUrlLength.getD socrataDefaultMaxQueryUrlLength) "maxQueryUrlLength"
  .ok { dataUrl := options.dataUrl.getD socrataEcbDataUrl
        maxBinsPerQuery := maxBinsPerQuery
        maxQueryUrlLength := maxQueryUrlLength }

/-! ### Requests -/

/-- `length` of a text: its UTF-16 code units. -/
def utf16Length (s : String) : Nat :=
  (s.toList.map fun c => if c.toNat < 0x10000 then 1 else 2).sum

/-- `normalizeBins`: a batch's BINs without repetition, in order, if there are neither none nor too
many. -/
def normalizeBins (binBatch : List String) (maxBinsPerQuery : Nat) :
    Except SocrataClientError (List String) :=
  if binBatch.length = 0 then
    .error (socrataInvalidRequest "Socrata ECB data queries require a non-empty BIN batch")
  else if maxBinsPerQuery < binBatch.length then
    .error (socrataInvalidRequest
      s!"Socrata ECB data queries accept at most {maxBinsPerQuery} BINs per batch, received {binBatch.length}")
  else
    let bins := SortedSet.ofList binBatch
    if bins.toList.any fun bin => isBlank bin || socrataMaxBinValueLength < utf16Length bin then
      .error (socrataInvalidRequest
        s!"Socrata ECB data queries require non-empty BIN strings up to {socrataMaxBinValueLength} characters")
    else
      .ok bins.toList

/-- `validatePageValue`: an offset, or a page's size, which is bounded too. -/
def validatePageValue (value : Nat) (fieldName : String) (allowZero : Bool) :
    Except SocrataClientError Unit :=
  if value ≤ maxSafeInteger ∧ (allowZero = true ∨ 0 < value) then
    if fieldName = "page size" ∧ socrataMaxPageSize < value then
      .error (socrataInvalidRequest s!"Socrata page size must be at most {socrataMaxPageSize}")
    else
      .ok ()
  else
    let kind := if allowZero then "a non-negative" else "a positive"
    .error (socrataInvalidRequest s!"Socrata {fieldName} must be {kind} integer")

/-- The delimiter of a SoQL string. -/
def soqlQuote : Char := Char.ofNat 39

/-- A SoQL string: delimited, and each delimiter inside doubled. -/
def quoteSoqlString (value : String) : List Char :=
  soqlQuote :: value.toList.flatMap (fun c => if c = soqlQuote then [c, c] else [c]) ++ [soqlQuote]

/-- The condition on the BINs of a page. -/
def binCondition (bins : List String) : List Char :=
  socrataEcbBinField.toList ++ " in (".toList ++
    List.intercalate [','] (bins.map quoteSoqlString) ++ [')']

/-- The query of a page. -/
def dataPageQuery (bins : List String) (offset pageSize : Nat) : List (List Char × List Char) :=
  [("$select".toList, socrataEcbPageSelect.toList),
    ("$where".toList, binCondition bins),
    ("$order".toList, socrataEcbPageOrder.toList),
    ("$limit".toList, Nat.toDigits 10 pageSize),
    ("$offset".toList, Nat.toDigits 10 offset)]

/-- A URL with its query, serialized; its characters are ASCII. -/
def dataPageUrl (dataUrl : String) (bins : List String) (offset pageSize : Nat) : List Char :=
  dataUrl.toList ++ '?' :: formSerialize (dataPageQuery bins offset pageSize)

/-- A URL with its search parameters. -/
def queryUrl (url : String) (params : List (String × String)) : String :=
  String.ofList (url.toList ++
    '?' :: formSerialize (params.map fun param => (param.1.toList, param.2.toList)))

/-- `buildEcbDataPageUrl`. -/
def SocrataClient.buildEcbDataPageUrl (client : SocrataClient) (binBatch : List String)
    (offset pageSize : Nat) : Except SocrataClientError String := do
  validatePageValue offset "offset" true
  validatePageValue pageSize "page size" false
  let bins ← normalizeBins binBatch client.maxBinsPerQuery
  let built := dataPageUrl client.dataUrl bins offset pageSize
  if client.maxQueryUrlLength < built.length then
    .error (socrataInvalidRequest
      s!"Socrata ECB data page request exceeds the {client.maxQueryUrlLength} character query bound")
  else
    .ok (String.ofList built)

/-! ### The length of a query -/

section Length

variable {bins : List String} {offset pageSize : Nat}

/-- A text of seven digits. -/
def IsBinText (text : String) : Prop := text.toList.length = 7 ∧ ∀ c ∈ text.toList, c.isDigit = true

theorem isBinText (bin : CanonicalBin) : IsBinText bin.text :=
  ⟨bin.length_eq, List.all_eq_true.mp bin.digits⟩

/-- A quoted BIN takes 13 characters of a query. -/
theorem length_formEncode_quoteSoqlString {bin : String} (h : IsBinText bin) :
    (formEncode (quoteSoqlString bin)).length = 13 := by
  have hplain : bin.toList.flatMap (fun c => if c = soqlQuote then [c, c] else [c]) = bin.toList := by
    have hc : ∀ c ∈ bin.toList, (if c = soqlQuote then [c, c] else [c]) = [c] := by
      intro c hc
      rw [if_neg]
      rintro rfl
      exact absurd (h.2 _ hc) (by decide)
    rw [List.flatMap_congr hc, List.flatMap_singleton']
  rw [quoteSoqlString, hplain, List.cons_append, formEncode_cons, formEncode_append,
    formEncode_of_digits h.2, List.length_append, List.length_append, h.1]
  decide

theorem length_formEncode_binCondition_le (h : ∀ bin ∈ bins, IsBinText bin) :
    (formEncode (binCondition bins)).length ≤ 16 * bins.length + 13 := by
  have hitem : ∀ item ∈ bins.map quoteSoqlString, (formEncode item).length ≤ 13 := by
    intro item hitem
    obtain ⟨bin, hbin, rfl⟩ := List.mem_map.mp hitem
    exact le_of_eq (length_formEncode_quoteSoqlString (h bin hbin))
  have hitems : (formEncode (List.intercalate [','] (bins.map quoteSoqlString))).length ≤ _ :=
    length_formEncode_intercalate_le hitem
  rw [List.length_map, show (formEncode [',']).length = 3 from by decide] at hitems
  rw [binCondition, formEncode_append, formEncode_append, List.length_append, List.length_append,
    show (formEncode (socrataEcbBinField.toList ++ " in (".toList)).length = 10 from by decide,
    show (formEncode [')']).length = 3 from by decide]
  omega

theorem length_formEncode_toDigits_le {n k : Nat} (hk : 0 < k) (h : n < 10 ^ k) :
    (formEncode (Nat.toDigits 10 n)).length ≤ k := by
  rw [formEncode_of_digits fun c hc => Nat.isDigit_of_mem_toDigits (by decide) (by decide) hc]
  exact (Nat.length_toDigits_le_iff (by decide) hk).mpr h

/-- **The length of a page URL**: at most 16 characters for each BIN beside its fixed part. -/
theorem length_dataPageUrl_le (h : ∀ bin ∈ bins, IsBinText bin) (hoffset : offset ≤ maxSafeInteger)
    (hsize : pageSize ≤ socrataMaxPageSize) :
    (dataPageUrl socrataEcbDataUrl bins offset pageSize).length ≤ 16 * bins.length + 250 := by
  have hwhere := length_formEncode_binCondition_le h
  have ho : (formEncode (Nat.toDigits 10 offset)).length ≤ 16 :=
    length_formEncode_toDigits_le (by decide) (lt_of_le_of_lt hoffset (by decide))
  have hs : (formEncode (Nat.toDigits 10 pageSize)).length ≤ 5 :=
    length_formEncode_toDigits_le (by decide) (lt_of_le_of_lt hsize (by decide))
  have hfixed : socrataEcbDataUrl.toList.length + (formEncode "$select".toList).length +
      (formEncode socrataEcbPageSelect.toList).length + (formEncode "$where".toList).length +
      (formEncode "$order".toList).length + (formEncode socrataEcbPageOrder.toList).length +
      (formEncode "$limit".toList).length + (formEncode "$offset".toList).length ≤ 200 := by
    decide +kernel
  simp only [dataPageUrl, formSerialize, dataPageQuery, List.map_cons, List.map_nil,
    List.intercalate_cons_cons, List.intercalate_singleton, List.length_append, List.length_cons,
    List.length_nil]
  omega

end Length

end NycPropertyResolver
