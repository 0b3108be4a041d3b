import Mathlib
import NycPropertyResolver.Library.Keyset
import NycPropertyResolver.Query.Violations

/-!
# Query — pagination

A client that follows `nextCursor`, at the property endpoint and at the portfolio endpoint in both of
its orders, is a keyset traversal (`Traverses.keyset`): the rows of an endpoint have a sort key, its
`ORDER BY` is the order of the keys, its cursor predicate is the strict successor of the key of the
last row, and the cursor carries that key from one request to the next.
-/

namespace NycPropertyResolver

open Library

variable {Row C : Type} [LinearOrder C]

/-! ### Sort keys -/

/-- A date or null, and a source id: descending, with null after every date. -/
abbrev SortKey (C : Type) [LinearOrder C] := (WithBot Int ×ₗ C)ᵒᵈ

section SortKey

variable (collation : SourceId ↪ C) (column : EcbViolation → Option Int)

/-- A date, with null below every other. -/
def dateKey (date : Option Int) : WithBot Int := date

/-- The sort key of a row, by a date column. -/
def sortKey (row : EcbViolation) : SortKey C :=
  OrderDual.toDual (toLex (dateKey (column row), collation row.sourceId))

variable {collation column} {a b : EcbViolation}

theorem sortKey_lt_iff : sortKey collation column a < sortKey collation column b ↔
    dateKey (column b) < dateKey (column a) ∨
      column b = column a ∧ collation b.sourceId < collation a.sourceId := by
  rw [sortKey, sortKey, OrderDual.toDual_lt_toDual, Prod.Lex.toLex_lt_toLex]
  exact Iff.rfl

theorem sortKey_le_iff : sortKey collation column a ≤ sortKey collation column b ↔
    dateKey (column b) < dateKey (column a) ∨
      column b = column a ∧ collation b.sourceId ≤ collation a.sourceId := by
  rw [sortKey, sortKey, OrderDual.toDual_le_toDual, Prod.Lex.toLex_le_toLex]
  exact Iff.rfl

/-- Rows of one sort key have one source id. -/
theorem sourceId_eq_of_sortKey (h : sortKey collation column a = sortKey collation column b) :
    a.sourceId = b.sourceId :=
  collation.injective (congrArg (fun k => (ofLex (OrderDual.ofDual k)).2) h)

theorem dateKey_lt_iff {d e : Option Int} :
    dateKey d < dateKey e ↔ ∃ y, e = some y ∧ ∀ x ∈ d, x < y := by
  cases e with
  | none => exact ⟨fun h => absurd h not_lt_bot, fun ⟨_, h, _⟩ => nomatch h⟩
  | some y =>
      cases d with
      | none => exact ⟨fun _ => ⟨y, rfl, fun _ h => nomatch h⟩, fun _ => WithBot.bot_lt_coe y⟩
      | some x =>
          refine ⟨fun h => ⟨y, rfl, fun z hz => ?_⟩, fun ⟨z, hz, h⟩ => ?_⟩
          · cases hz
            exact WithBot.coe_lt_coe.mp h
          · cases hz
            exact WithBot.coe_lt_coe.mpr (h x rfl)

theorem descNullsLast_eq_lt {d e : Option Int} :
    descNullsLast d e = .lt ↔ dateKey e < dateKey d := by
  rw [dateKey_lt_iff]
  cases d with
  | none => cases e <;> simp [descNullsLast]
  | some x => cases e <;> simp [descNullsLast, compare_lt_iff_lt]

theorem descNullsLast_eq_eq {d e : Option Int} : descNullsLast d e = .eq ↔ e = d := by
  cases d with
  | none => cases e <;> simp [descNullsLast]
  | some x => cases e <;> simp [descNullsLast]

/-- **`ORDER BY` is the order of the sort keys.** -/
theorem orderByDesc_isLE : (orderByDesc collation column a b).isLE = true ↔
    sortKey collation column a ≤ sortKey collation column b := by
  have hsource : (compare (collation b.sourceId) (collation a.sourceId)).isLE = true ↔
      collation b.sourceId ≤ collation a.sourceId := by
    rw [← Ordering.ne_gt_iff_isLE]
    exact compare_le_iff_le
  rw [sortKey_le_iff, orderByDesc, Ordering.isLE_then_iff_or, descNullsLast_eq_lt,
    descNullsLast_eq_eq, hsource]

theorem sourceIdBefore_eq_true {sourceId : String} :
    sourceIdBefore collation a sourceId = some true ↔ collation a.sourceId < collation sourceId := by
  simp [sourceIdBefore]

/-- The predicate of a date is the strict successor in its column. -/
theorem dateCursorPredicate_eq_true (column : EcbViolation → Option Int) {value : Int}
    (h : column b = some value) :
    dateCursorPredicate collation column value b.sourceId a = some true ∨ column a = none ↔
      sortKey collation column b < sortKey collation column a := by
  rw [sortKey_lt_iff, dateCursorPredicate, SqlTruth.or_eq_true, SqlTruth.and_eq_true,
    sourceIdBefore_eq_true, SqlTruth.compare_eq_true, SqlTruth.compare_eq_true, dateKey_lt_iff, h]
  cases column a with
  | none => simp
  | some x => simp

/-- The predicate of a null date is the strict successor among the null dates. -/
theorem nullCursorPredicate_eq_true (column : EcbViolation → Option Int) (h : column b = none) :
    (SqlTruth.isNull (column a)).and (sourceIdBefore collation a b.sourceId) = some true ↔
      sortKey collation column b < sortKey collation column a := by
  rw [sortKey_lt_iff, SqlTruth.and_eq_true, sourceIdBefore_eq_true, SqlTruth.isNull_eq_true, h]
  have hbot : ¬ dateKey (column a) < dateKey none := not_lt_bot
  simp [hbot]

end SortKey

/-! ### Pages -/

/-- `source_id` is unique in a list of rows. -/
def SourceIdUnique (rows : List EcbViolation) : Prop := (rows.map (·.sourceId)).Nodup

instance (rows : List EcbViolation) : Decidable (SourceIdUnique rows) :=
  inferInstanceAs (Decidable (List.Nodup _))

/-- The rows that meet a condition, in the order of an endpoint. -/
def orderedRows (collation : SourceId ↪ C) (column : EcbViolation → Option Int)
    (rows : List EcbViolation) (condition : EcbViolation → Bool) : List EcbViolation :=
  (rows.filter condition).insertionSort fun a b => (orderByDesc collation column a b).isLE = true

section Pages

variable {collation : SourceId ↪ C} {column : EcbViolation → Option Int} {rows : List EcbViolation}
  {condition : EcbViolation → Bool}

theorem mem_orderedRows {row : EcbViolation} :
    row ∈ orderedRows collation column rows condition ↔ row ∈ rows ∧ condition row = true := by
  rw [orderedRows, (List.perm_insertionSort _ _).mem_iff, List.mem_filter]

/-- The rows of a statement are strictly ordered by their sort keys. -/
theorem ordered_orderedRows (h : SourceIdUnique rows) :
    Ordered (sortKey collation column) (orderedRows collation column rows condition) := by
  have htotal : Std.Total fun a b => (orderByDesc collation column a b).isLE = true :=
    ⟨fun a b => by
      rw [orderByDesc_isLE, orderByDesc_isLE]
      exact le_total _ _⟩
  have htrans : IsTrans EcbViolation fun a b => (orderByDesc collation column a b).isLE = true :=
    ⟨fun a b c hab hbc => by
      rw [orderByDesc_isLE] at hab hbc ⊢
      exact hab.trans hbc⟩
  have hsorted := List.pairwise_insertionSort
    (fun a b => (orderByDesc collation column a b).isLE = true) (rows.filter condition)
  have hunique : ((orderedRows collation column rows condition).map (·.sourceId)).Nodup := by
    have hfilter : ((rows.filter condition).map (·.sourceId)).Nodup :=
      h.sublist (List.filter_sublist.map _)
    exact (((List.perm_insertionSort _ _).map _).nodup_iff).mpr hfilter
  have hdistinct : (orderedRows collation column rows condition).Pairwise
      fun a b => a.sourceId ≠ b.sourceId := List.pairwise_map.mp hunique
  refine hsorted.imp₂ (fun a b hle hne => ?_) hdistinct
  rw [orderByDesc_isLE] at hle
  exact lt_of_le_of_ne hle fun e => hne (sourceId_eq_of_sortKey e)

/-- **A statement with a cursor predicate selects a page of the listing**, where the predicate is what
lies beyond a position. -/
theorem selectPage_eq {predicate : EcbViolation → SqlTruth} {position : Option (SortKey C)}
    {limit : Nat} (h : SourceIdUnique rows)
    (hpredicate : ∀ row, predicate row = some true ↔ Beyond position (sortKey collation column row)) :
    selectPage rows condition predicate (orderByDesc collation column) limit =
      let page := keysetPage (sortKey collation column) (orderedRows collation column rows condition)
        position limit
      ⟨page.1, page.2⟩ := by
  have hlisting : orderedRows collation column rows
      (fun row => condition row && decide (predicate row = some true)) =
      remaining (sortKey collation column) (orderedRows collation column rows condition) position := by
    refine (ordered_orderedRows h).eq_of_mem_iff (ordered_orderedRows h).remaining fun row => ?_
    rw [mem_remaining, mem_orderedRows, mem_orderedRows, Bool.and_eq_true, decide_eq_true_eq,
      hpredicate, and_assoc]
  rw [orderedRows] at hlisting
  rw [selectPage, hlisting]
  rfl

end Pages

end NycPropertyResolver
