import Mathlib.Data.List.Sort
import Mathlib.Data.Prod.Lex
import NycPropertyResolver.Ingestion.BatchOrder

/-!
# Ingestion — the source

The Socrata dataset as it changes under the system.  A source is the dataset at each instant; a data
page is a slice of the rows on the requested BINs, ordered by `:updated_at` and `:id`; and a tracked
state is a state of the system with the instant it is at.  While the watermark stands the rows do, so
that pages fetched at different instants under one watermark are slices of one list.
-/

namespace NycPropertyResolver

open Library

variable {Row : Type}

/-! ### The dataset -/

/-- The columns `:id`, `:updated_at` and `bin` of a source row, as the query of a page reads them. -/
structure SourceColumns (Row : Type) where
  id : Row → String
  updatedAt : Row → Time
  /-- The canonical BIN in the column, if it holds one. -/
  bin : Row → Option CanonicalBin

/-- The dataset at one instant. -/
structure SourceDataset (Row : Type) where
  rows : List Row
  rowsUpdatedAt : Nat

/-- The order of the pages, `$order=:updated_at,:id`. -/
def SourceColumns.le (columns : SourceColumns Row) (row row' : Row) : Prop :=
  toLex (columns.updatedAt row, columns.id row) ≤ toLex (columns.updatedAt row', columns.id row')

instance (columns : SourceColumns Row) : DecidableRel columns.le :=
  fun _ _ => inferInstanceAs (Decidable (_ ≤ _))

instance (columns : SourceColumns Row) : Std.Total columns.le :=
  ⟨fun _ _ => le_total _ _⟩

instance (columns : SourceColumns Row) : IsTrans Row columns.le :=
  ⟨fun _ _ _ => le_trans⟩

/-- The BIN of a row is one of the given ones.  A row that normalizes has the BIN of its
normalization. -/
def SourceColumns.hasBin (columns : SourceColumns Row) (service : EcbRowService Row)
    (bins : List CanonicalBin) (row : Row) : Bool :=
  match service.normalizeEcbViolation row with
  | some v => decide (v.bin ∈ bins)
  | none => (columns.bin row).any fun bin => bin ∈ bins

/-- The rows on the given BINs, in page order. -/
def matchingRows (columns : SourceColumns Row) (service : EcbRowService Row) (rows : List Row)
    (bins : List CanonicalBin) : List Row :=
  (rows.filter (columns.hasBin service bins)).insertionSort columns.le

/-- The answer to a page request: the slice `[offset, offset + limit)`. -/
def dataPage (columns : SourceColumns Row) (service : EcbRowService Row) (rows : List Row)
    (bins : List CanonicalBin) (offset limit : Nat) : List Row :=
  ((matchingRows columns service rows bins).drop offset).take limit

/-- **What is assumed of the source**: ids are unique, a row that normalizes has a source id of its
own, and the watermark never decreases and grows whenever the rows change. -/
structure SourceAssumptions (columns : SourceColumns Row) (service : EcbRowService Row)
    (source : Nat → SourceDataset Row) : Prop where
  ids : ∀ i, ((source i).rows.map columns.id).Nodup
  sourceIds : ∀ i, ∀ row ∈ (source i).rows, ∀ row' ∈ (source i).rows, ∀ v v',
    service.normalizeEcbViolation row = some v → service.normalizeEcbViolation row' = some v' →
      v.sourceId = v'.sourceId → row = row'
  monotone : ∀ i j, i ≤ j → (source i).rowsUpdatedAt ≤ (source j).rowsUpdatedAt
  strict : ∀ i j, i ≤ j → ¬ (source i).rows.Perm (source j).rows →
    (source i).rowsUpdatedAt < (source j).rowsUpdatedAt

section Dataset

variable {columns : SourceColumns Row} {service : EcbRowService Row} {rows rows' : List Row}
  {bins : List CanonicalBin} {row : Row}

theorem hasBin_of_normalized {v : NormalizedEcbViolation}
    (hn : service.normalizeEcbViolation row = some v) :
    columns.hasBin service bins row = true ↔ v.bin ∈ bins := by
  rw [SourceColumns.hasBin, hn, decide_eq_true_iff]

theorem mem_matchingRows : row ∈ matchingRows columns service rows bins ↔
    row ∈ rows ∧ columns.hasBin service bins row = true := by
  rw [matchingRows, List.mem_insertionSort, List.mem_filter]

/-- With unique ids, the pages do not depend on the order the rows are listed in. -/
theorem matchingRows_congr (h : rows.Perm rows') (hids : (rows.map columns.id).Nodup) :
    matchingRows columns service rows bins = matchingRows columns service rows' bins := by
  refine List.Perm.eq_of_pairwise ?_ (List.pairwise_insertionSort columns.le _)
    (List.pairwise_insertionSort columns.le _) ?_
  · intro r r' hr hr' hle hle'
    have hkey := le_antisymm hle hle'
    have hid : columns.id r = columns.id r' := congrArg (fun p => (ofLex p).2) hkey
    exact List.inj_on_of_nodup_map hids (mem_matchingRows.mp hr).1
      (h.mem_iff.mpr (mem_matchingRows.mp hr').1) hid
  · exact ((List.perm_insertionSort _ _).trans (h.filter _)).trans
      (List.perm_insertionSort _ _).symm

/-- Under one watermark the source holds the same rows. -/
theorem SourceAssumptions.perm {source : Nat → SourceDataset Row}
    (h : SourceAssumptions columns service source) {i j : Nat}
    (e : (source i).rowsUpdatedAt = (source j).rowsUpdatedAt) :
    (source i).rows.Perm (source j).rows := by
  by_contra hn
  rcases Nat.le_total i j with hij | hij
  · exact absurd (h.strict i j hij hn) (by rw [e]; exact Nat.lt_irrefl _)
  · exact absurd (h.strict j i hij fun hp => hn hp.symm) (by rw [e]; exact Nat.lt_irrefl _)

/-- Under one watermark the pages are slices of one list. -/
theorem SourceAssumptions.matchingRows_eq {source : Nat → SourceDataset Row}
    (h : SourceAssumptions columns service source) {i j : Nat}
    (e : (source i).rowsUpdatedAt = (source j).rowsUpdatedAt) :
    matchingRows columns service (source i).rows bins =
      matchingRows columns service (source j).rows bins :=
  matchingRows_congr (h.perm e) (h.ids i)

end Dataset

/-! ### The tracked system -/

/-- A state of the system and the instant it is at. -/
structure TrackedState (Row : Type) where
  system : SystemState Row
  instant : Nat

/-- A step of the source, or of the system. -/
inductive TrackedEvent (Row : Type) where
  /-- The source moves on. -/
  | sourceChanges
  | system (ev : Event Row)

variable (config : ExecutorConfig) (service : EcbRowService Row)

/-- One step. -/
def trackedNext (s : TrackedState Row) : TrackedEvent Row → Option (TrackedState Row)
  | .sourceChanges => some ⟨s.system, s.instant + 1⟩
  | .system ev => (next config service s.system ev).map fun t => ⟨t, s.instant⟩

/-- The watermark of an answer, if it is one. -/
def MetadataAnswer.toOption : MetadataAnswer → Option Nat
  | .ok rowsUpdatedAt => some rowsUpdatedAt
  | _ => none

/-- The attempt whose next page is requested. -/
def ExecutorState.pageRequest? : ExecutorState Row → Option BatchAttempt
  | .fetchingPage attempt => some attempt
  | _ => none

/-- What the source answers at an instant: a metadata request reads the watermark, and a page request
the slice it asks for.  Either may fail. -/
structure SourceAnswers (columns : SourceColumns Row) (service : EcbRowService Row)
    (dataset : SourceDataset Row) (pc : ExecutorState Row) (a : Answer Row) : Prop where
  metadata : ∀ k ∈ a.metadata.toOption, k = dataset.rowsUpdatedAt
  page : ∀ attempt ∈ pc.pageRequest?, ∀ page ∈ a.page.toOption,
    page = dataPage columns service dataset.rows attempt.definition.bins attempt.offset
      attempt.definition.pageSize

instance (columns : SourceColumns Row) (service : EcbRowService Row) [DecidableEq Row]
    (dataset : SourceDataset Row) (pc : ExecutorState Row) (a : Answer Row) :
    Decidable (SourceAnswers columns service dataset pc a) :=
  decidable_of_iff ((∀ k ∈ a.metadata.toOption, k = dataset.rowsUpdatedAt) ∧
      ∀ attempt ∈ pc.pageRequest?, ∀ page ∈ a.page.toOption,
        page = dataPage columns service dataset.rows attempt.definition.bins attempt.offset
          attempt.definition.pageSize)
    ⟨fun h => ⟨h.1, h.2⟩, fun h => ⟨h.metadata, h.page⟩⟩

/-- The source answers each request with what it holds at that instant. -/
def AnsweredBy (columns : SourceColumns Row) (service : EcbRowService Row)
    (source : Nat → SourceDataset Row) (s : TrackedState Row) : TrackedEvent Row → Prop
  | .system (.executor a) =>
    SourceAnswers columns service (source s.instant) s.system.executor a
  | _ => True

instance (columns : SourceColumns Row) (service : EcbRowService Row) [DecidableEq Row]
    (source : Nat → SourceDataset Row) (s : TrackedState Row) :
    (ev : TrackedEvent Row) → Decidable (AnsweredBy columns service source s ev)
  | .system (.executor a) =>
    inferInstanceAs (Decidable
      (SourceAnswers columns service (source s.instant) s.system.executor a))
  | .system (.acquireLock _) | .system .crash => inferInstanceAs (Decidable True)
  | .system (.createProperty ..) | .system (.applyEffectiveBinSet ..) =>
    inferInstanceAs (Decidable True)
  | .sourceChanges => inferInstanceAs (Decidable True)

end NycPropertyResolver
