import NycPropertyResolver.Identity.PropertyIdentity
import NycPropertyResolver.Library.Steps

/-!
# Identity — concurrent identity calls

Calls of `findOrCreateProperty` and `applyEffectiveBinSet` side by side, a statement at a time.  A call
of `applyEffectiveBinSet` runs in a transaction that locks the row of its property first: no other call
of the kind sees or changes the rows of that property before it commits, and what it writes is its own
until then.  Each commit is one atomic `Db.applyEffectiveBinSet` (`commit_atomic`), every other statement
but a creation leaves the database, and the law of the identifier version follows.
-/

namespace NycPropertyResolver

open Library

variable {Row : Type}

namespace IdentityTransactions

/-! ### Calls -/

/-- The rows of one property, as the transaction that holds its lock has them. -/
structure PropertyRows where
  property : Property
  bins : SortedSet CanonicalBin
  coverage : Option PropertyDatasetCoverage

/-- The next statement of a call. -/
inductive CallPoint where
  | idle
  | finding (propertyId : PropertyId) (input : CreatePropertyInput) (now : Time)
  | creating (propertyId : PropertyId) (input : CreatePropertyInput) (now : Time)
  | locking (propertyId : PropertyId) (candidateBins : List String)
  | loading (propertyId : PropertyId) (candidateBins : List String)
  | deletingBins (propertyId : PropertyId) (candidateBins : List String) (rows : PropertyRows)
  | insertingBins (propertyId : PropertyId) (candidateBins : List String) (rows : PropertyRows)
  | raisingVersion (propertyId : PropertyId) (candidateBins : List String) (rows : PropertyRows)
  | upsertingCoverage (propertyId : PropertyId) (candidateBins : List String) (rows : PropertyRows)
  | reloading (propertyId : PropertyId) (candidateBins : List String) (rows : PropertyRows)
  /-- `rows` are written when the call has changed the set. -/
  | committing (propertyId : PropertyId) (candidateBins : List String) (changed : Bool)
      (rows : PropertyRows)
  | returned
  | threw (e : IdentityError)

/-- The property whose row lock a call holds. -/
def CallPoint.locked : CallPoint → Option PropertyId
  | .loading p _ | .deletingBins p _ _ | .insertingBins p _ _ | .raisingVersion p _ _ => some p
  | .upsertingCoverage p _ _ | .reloading p _ _ | .committing p _ _ _ => some p
  | _ => none

/-- The tables, the row locks held, and where every call stands. -/
structure IdentityState (Row : Type) where
  db : Db Row
  locks : PropertyId → Option Nat
  calls : Nat → CallPoint

/-- No call in progress. -/
def IdentityState.quiet (db : Db Row) : IdentityState Row := ⟨db, fun _ => none, fun _ => .idle⟩

/-- A call begins, takes its next statement, or fails. -/
inductive IdentityEvent where
  | findOrCreateProperty (x : Nat) (propertyId : PropertyId) (input : CreatePropertyInput) (now : Time)
  | applyEffectiveBinSet (x : Nat) (propertyId : PropertyId) (candidateBins : List String)
  /-- The next statement of a call. -/
  | statement (x : Nat)
  /-- The call fails, and its transaction is rolled back. -/
  | abort (x : Nat) (e : IdentityError)

namespace IdentityState

/-- The state with the call `x` at a point. -/
def setPoint (s : IdentityState Row) (x : Nat) (point : CallPoint) : IdentityState Row :=
  { s with calls := Function.update s.calls x point }

/-- The end of a transaction: the row lock of its property is released. -/
def unlock (s : IdentityState Row) (x : Nat) : IdentityState Row :=
  match (s.calls x).locked with
  | some p => { s with locks := Function.update s.locks p none }
  | none => s

/-- The rows of a property are written. -/
def writeRows (s : IdentityState Row) (p : PropertyId) (rows : PropertyRows) : IdentityState Row :=
  { s with db := { s.db with
      properties := s.db.properties.modify p fun _ => rows.property
      propertyBins := Function.update s.db.propertyBins p rows.bins
      coverage := Function.update s.db.coverage p rows.coverage } }

/-- The rows of a property, as they are committed. -/
def rowsOf (s : IdentityState Row) (p : PropertyId) (property : Property) : PropertyRows :=
  ⟨property, s.db.propertyBins p, s.db.coverage p⟩

/-- The next statement of a call; `none` while it waits for a row lock, and where it has none. -/
def statement (s : IdentityState Row) (x : Nat) : Option (IdentityState Row) :=
  match s.calls x with
  | .finding p input now =>
    match assertValidBbl input.bbl with
    | .error e => some (s.setPoint x (.threw e))
    | .ok bbl =>
      if s.db.findPropertyByBbl bbl = none then some (s.setPoint x (.creating p input now))
      else some (s.setPoint x .returned)
  | .creating p input now =>
    match s.db.createProperty p input now with
    | .error e => some (s.setPoint x (.threw e))
    | .ok db' => some ({ s with db := db' }.setPoint x .returned)
  | .locking p candidateBins =>
    match s.db.properties.find p with
    | none => some (s.setPoint x
        (.threw (.app "PROPERTY_NOT_FOUND" s!"Property {p} was not found" 404)))
    | some _ =>
      if s.locks p = none then
        some ({ s with locks := Function.update s.locks p (some x) }.setPoint x
          (.loading p candidateBins))
      else none
  | .loading p candidateBins =>
    match s.db.properties.find p with
    | none => some ((s.unlock x).setPoint x
        (.threw (.app "PROPERTY_NOT_FOUND" s!"Property {p} was not found" 404)))
    | some property =>
      if s.db.propertyBins p = filterValidBins candidateBins then
        some (s.setPoint x (.committing p candidateBins false (s.rowsOf p property)))
      else some (s.setPoint x (.deletingBins p candidateBins (s.rowsOf p property)))
  | .deletingBins p candidateBins rows =>
    some (s.setPoint x (.insertingBins p candidateBins { rows with bins := .empty }))
  | .insertingBins p candidateBins rows =>
    some (s.setPoint x (.raisingVersion p candidateBins { rows with
      bins := if (filterValidBins candidateBins).size > 0 then filterValidBins candidateBins
        else rows.bins }))
  | .raisingVersion p candidateBins rows =>
    some (s.setPoint x (.upsertingCoverage p candidateBins { rows with
      property := { rows.property with
        identifierVersion := rows.property.identifierVersion + 1 } }))
  | .upsertingCoverage p candidateBins rows =>
    some (s.setPoint x (.reloading p candidateBins { rows with
      coverage := some (Db.invalidatedCoverage (s.db.coverage p)
        (filterValidBins candidateBins)) }))
  | .reloading p candidateBins rows => some (s.setPoint x (.committing p candidateBins true rows))
  | .committing p _ changed rows =>
    let s' := (s.unlock x).setPoint x .returned
    some (if changed then s'.writeRows p rows else s')
  | .idle | .returned | .threw _ => none

end IdentityState

/-- One event; `none` when it is not possible. -/
def nextIdentity (s : IdentityState Row) : IdentityEvent → Option (IdentityState Row)
  | .findOrCreateProperty x p input now =>
    match s.calls x with
    | .idle => some (s.setPoint x (.finding p input now))
    | _ => none
  | .applyEffectiveBinSet x p candidateBins =>
    match s.calls x with
    | .idle => some (s.setPoint x (.locking p candidateBins))
    | _ => none
  | .statement x => s.statement x
  | .abort x e =>
    match s.calls x with
    | .idle | .returned | .threw _ => none
    | _ => some ((s.unlock x).setPoint x (.threw e))

/-! ### What a transaction knows -/

/-- What the rows of a transaction are, of the committed rows of its property. -/
def RowsOk (db : Db Row) : CallPoint → Prop
  | .loading p _ => db.properties.find p ≠ none
  | .deletingBins p c rows => db.properties.find p = some rows.property ∧
      db.propertyBins p ≠ filterValidBins c
  | .insertingBins p c rows => db.properties.find p = some rows.property ∧
      db.propertyBins p ≠ filterValidBins c ∧ rows.bins = .empty
  | .raisingVersion p c rows => db.properties.find p = some rows.property ∧
      db.propertyBins p ≠ filterValidBins c ∧ rows.bins = filterValidBins c
  | .upsertingCoverage p c rows => db.propertyBins p ≠ filterValidBins c ∧
      rows.bins = filterValidBins c ∧ ∃ property, db.properties.find p = some property ∧
        rows.property = { property with identifierVersion := property.identifierVersion + 1 }
  | .reloading p c rows => db.propertyBins p ≠ filterValidBins c ∧
      rows.bins = filterValidBins c ∧ (∃ property, db.properties.find p = some property ∧
        rows.property = { property with identifierVersion := property.identifierVersion + 1 }) ∧
      rows.coverage = some (Db.invalidatedCoverage (db.coverage p) (filterValidBins c))
  | .committing p c true rows => db.propertyBins p ≠ filterValidBins c ∧
      rows.bins = filterValidBins c ∧ (∃ property, db.properties.find p = some property ∧
        rows.property = { property with identifierVersion := property.identifierVersion + 1 }) ∧
      rows.coverage = some (Db.invalidatedCoverage (db.coverage p) (filterValidBins c))
  | .committing p c false _ => db.properties.find p ≠ none ∧
      db.propertyBins p = filterValidBins c
  | _ => True

/-- **A transaction holds the lock of its property, and knows its rows.** -/
structure TransactionsOk (s : IdentityState Row) : Prop where
  locked : ∀ x p, (s.calls x).locked = some p → s.locks p = some x
  rows : ∀ x, RowsOk s.db (s.calls x)

/-- The committed rows of one property stay. -/
structure SameProperty (db db' : Db Row) (p : PropertyId) : Prop where
  property : db'.properties.find p = db.properties.find p
  bins : db'.propertyBins p = db.propertyBins p
  coverage : db'.coverage p = db.coverage p

theorem SameProperty.refl (db : Db Row) (p : PropertyId) : SameProperty db db p := ⟨rfl, rfl, rfl⟩

section Invariant

variable {s t : IdentityState Row} {x : Nat} {point : CallPoint}

/-- What a transaction knows concerns the property it has locked. -/
theorem RowsOk.frame {db db' : Db Row} (h : RowsOk db point)
    (hsame : ∀ p, point.locked = some p → SameProperty db db' p) : RowsOk db' point := by
  cases point with
  | loading p c =>
      obtain ⟨hp, -, -⟩ := hsame p rfl
      rw [RowsOk, hp]
      exact h
  | deletingBins p c rows =>
      obtain ⟨hp, hb, -⟩ := hsame p rfl
      rw [RowsOk, hp, hb]
      exact h
  | insertingBins p c rows =>
      obtain ⟨hp, hb, -⟩ := hsame p rfl
      rw [RowsOk, hp, hb]
      exact h
  | raisingVersion p c rows =>
      obtain ⟨hp, hb, -⟩ := hsame p rfl
      rw [RowsOk, hp, hb]
      exact h
  | upsertingCoverage p c rows =>
      obtain ⟨hp, hb, -⟩ := hsame p rfl
      rw [RowsOk, hp, hb]
      exact h
  | reloading p c rows =>
      obtain ⟨hp, hb, hc⟩ := hsame p rfl
      rw [RowsOk, hp, hb, hc]
      exact h
  | committing p c changed rows =>
      obtain ⟨hp, hb, hc⟩ := hsame p rfl
      cases changed with
      | true =>
          rw [RowsOk, hp, hb, hc]
          exact h
      | false =>
          rw [RowsOk, hp, hb]
          exact h
  | _ => trivial

@[simp] theorem setPoint_db : (s.setPoint x point).db = s.db := rfl

@[simp] theorem setPoint_locks : (s.setPoint x point).locks = s.locks := rfl

@[simp] theorem setPoint_calls_self : (s.setPoint x point).calls x = point :=
  Function.update_self _ _ _

theorem setPoint_calls_ne {y : Nat} (h : y ≠ x) : (s.setPoint x point).calls y = s.calls y :=
  Function.update_of_ne h _ _

@[simp] theorem unlock_db : (s.unlock x).db = s.db := by
  unfold IdentityState.unlock
  split <;> rfl

@[simp] theorem unlock_calls : (s.unlock x).calls = s.calls := by
  unfold IdentityState.unlock
  split <;> rfl

/-- The lock of another call stays. -/
theorem unlock_locks_ne {y : Nat} {p : PropertyId} (h : TransactionsOk s) (hyx : y ≠ x)
    (hy : s.locks p = some y) : (s.unlock x).locks p = some y := by
  unfold IdentityState.unlock
  split
  · rename_i q hq
    have hne : p ≠ q := by
      rintro rfl
      rw [h.locked x p hq] at hy
      exact hyx (Option.some.inj hy).symm
    show Function.update s.locks q none p = some y
    rw [Function.update_of_ne hne]
    exact hy
  · exact hy

/-- A call moves on under the lock it holds, or without one. -/
theorem TransactionsOk.setPoint (h : TransactionsOk s)
    (hlocked : ∀ p, point.locked = some p → s.locks p = some x) (hrows : RowsOk s.db point) :
    TransactionsOk (s.setPoint x point) := by
  constructor
  · intro y p hy
    by_cases hyx : y = x
    · subst hyx
      rw [setPoint_calls_self] at hy
      exact hlocked p hy
    · rw [setPoint_calls_ne hyx] at hy
      exact h.locked y p hy
  · intro y
    by_cases hyx : y = x
    · subst hyx
      rw [setPoint_calls_self]
      exact hrows
    · rw [setPoint_calls_ne hyx]
      exact h.rows y

/-- A call that has ended holds no lock. -/
theorem TransactionsOk.finish (h : TransactionsOk s) (hpoint : point.locked = none)
    (hrows : RowsOk s.db point) : TransactionsOk ((s.unlock x).setPoint x point) := by
  constructor
  · intro y p hy
    by_cases hyx : y = x
    · subst hyx
      rw [setPoint_calls_self, hpoint] at hy
      cases hy
    · rw [setPoint_calls_ne hyx, unlock_calls] at hy
      exact unlock_locks_ne h hyx (h.locked y p hy)
  · intro y
    rw [setPoint_db, unlock_db]
    by_cases hyx : y = x
    · subst hyx
      rw [setPoint_calls_self]
      exact hrows
    · rw [setPoint_calls_ne hyx, unlock_calls]
      exact h.rows y

/-- A write to the rows of properties that no call has locked. -/
theorem TransactionsOk.write {db' : Db Row} (h : TransactionsOk s)
    (hsame : ∀ y p, (s.calls y).locked = some p → SameProperty s.db db' p) :
    TransactionsOk { s with db := db' } :=
  ⟨h.locked, fun y => (h.rows y).frame (hsame y)⟩

/-- A locked property is there. -/
theorem RowsOk.found {db : Db Row} (h : RowsOk db point) {p : PropertyId}
    (hp : point.locked = some p) : db.properties.find p ≠ none := by
  cases point with
  | loading _ _ =>
      cases hp
      exact h
  | deletingBins _ _ _ =>
      cases hp
      rw [h.1]
      nofun
  | insertingBins _ _ _ =>
      cases hp
      rw [h.1]
      nofun
  | raisingVersion _ _ _ =>
      cases hp
      rw [h.1]
      nofun
  | upsertingCoverage _ _ _ =>
      cases hp
      obtain ⟨-, -, property, hproperty, -⟩ := h
      rw [hproperty]
      nofun
  | reloading _ _ _ =>
      cases hp
      obtain ⟨-, -, ⟨property, hproperty, -⟩, -⟩ := h
      rw [hproperty]
      nofun
  | committing _ _ changed _ =>
      cases hp
      cases changed with
      | true =>
          obtain ⟨-, -, ⟨property, hproperty, -⟩, -⟩ := h
          rw [hproperty]
          nofun
      | false => exact h.1
  | idle => cases hp
  | finding _ _ _ => cases hp
  | creating _ _ _ => cases hp
  | locking _ _ => cases hp
  | returned => cases hp
  | threw _ => cases hp

end Invariant

/-! ### Commits -/

section Commits

variable {s t : IdentityState Row} {x : Nat} {p : PropertyId} {candidateBins : List String}
  {rows : PropertyRows} {changed : Bool}

/-- **A commit is one atomic call** of `applyEffectiveBinSet`. -/
theorem commit_atomic (h : TransactionsOk s)
    (hpoint : s.calls x = .committing p candidateBins changed rows)
    (ht : s.statement x = some t) :
    s.db.applyEffectiveBinSet p candidateBins =
      .ok (t.db, ⟨changed, s.db.propertyBins p, filterValidBins candidateBins⟩) := by
  have hrows := h.rows x
  rw [hpoint] at hrows
  have hfound := hrows.found rfl
  obtain ⟨property, hproperty⟩ := Option.ne_none_iff_exists'.mp hfound
  rw [IdentityState.statement, hpoint] at ht
  cases ht
  rw [Db.applyEffectiveBinSet, hproperty]
  cases changed with
  | false =>
      obtain ⟨-, hbins⟩ := hrows
      simp only [hbins, if_true, Bool.false_eq_true, if_false, setPoint_db, unlock_db]
  | true =>
      obtain ⟨hbins, hnext, ⟨property', hproperty', hraised⟩, hcoverage⟩ := hrows
      rw [hproperty] at hproperty'
      cases hproperty'
      simp only [hbins, if_false, if_true]
      refine congrArg (fun db => Except.ok (db, _)) ?_
      simp only [IdentityState.writeRows, setPoint_db, unlock_db, Db.replaceBinSet, hnext, hcoverage]
      congr 1
      refine Table.modify_congr fun a ha => ?_
      rw [hproperty] at ha
      cases ha
      exact hraised.symm

/-- **What a statement does to the database**: it leaves it, creates a property, or commits one call. -/
inductive StatementTurn (s : IdentityState Row) (x : Nat) (db' : Db Row) : Prop where
  | stays (h : db' = s.db)
  | created {p : PropertyId} {input : CreatePropertyInput} {now : Time}
      (hpoint : s.calls x = .creating p input now) (h : s.db.createProperty p input now = .ok db')
  | committed {p : PropertyId} {candidateBins : List String} {changed : Bool} {rows : PropertyRows}
      (hpoint : s.calls x = .committing p candidateBins changed rows)
      (h : s.db.applyEffectiveBinSet p candidateBins =
        .ok (db', ⟨changed, s.db.propertyBins p, filterValidBins candidateBins⟩))

/-- The rows of the properties that were there, but of the one a call commits. -/
theorem StatementTurn.same {db' : Db Row} (h : StatementTurn s x db') (q : PropertyId)
    (hq : s.db.properties.find q ≠ none)
    (hnot : ∀ c changed rows, s.calls x ≠ .committing q c changed rows) :
    SameProperty s.db db' q := by
  cases h with
  | stays h =>
      subst h
      exact .refl _ _
  | created _ h =>
      obtain ⟨property, bbl, -, -, -, -, hnew, rfl⟩ := Db.createProperty_eq_ok h
      have hne : q ≠ _ := fun heq => hq (heq ▸ hnew)
      exact ⟨Table.find_set_ne hne, Function.update_of_ne hne _ _, Function.update_of_ne hne _ _⟩
  | @committed p c changed rows hpoint h =>
      obtain ⟨-, ⟨-, rfl, -⟩ | ⟨-, -, rfl⟩⟩ := Db.applyEffectiveBinSet_eq_ok h
      · exact .refl _ _
      have hne : q ≠ p := by
        rintro rfl
        exact hnot c changed rows hpoint
      exact ⟨Table.find_modify_ne hne, Function.update_of_ne hne _ _, Function.update_of_ne hne _ _⟩

theorem statement_turn (h : TransactionsOk s) (ht : s.statement x = some t) :
    StatementTurn s x t.db := by
  cases hpoint : s.calls x with
  | committing p c changed rows => exact .committed hpoint (commit_atomic h hpoint ht)
  | creating p input now =>
      rw [IdentityState.statement, hpoint] at ht
      simp only at ht
      split at ht
      · cases ht
        exact .stays rfl
      · cases ht
        exact .created hpoint ‹_›
  | finding p input now =>
      rw [IdentityState.statement, hpoint] at ht
      simp only at ht
      split at ht
      · cases ht
        exact .stays rfl
      · split at ht
        · cases ht
          exact .stays rfl
        · cases ht
          exact .stays rfl
  | locking p c =>
      rw [IdentityState.statement, hpoint] at ht
      simp only at ht
      split at ht
      · cases ht
        exact .stays rfl
      · split at ht
        · cases ht
          exact .stays rfl
        · cases ht
  | loading p c =>
      rw [IdentityState.statement, hpoint] at ht
      simp only at ht
      split at ht
      · cases ht
        exact .stays (by rw [setPoint_db, unlock_db])
      · split at ht
        · cases ht
          exact .stays rfl
        · cases ht
          exact .stays rfl
  | idle =>
      rw [IdentityState.statement, hpoint] at ht
      cases ht
  | returned =>
      rw [IdentityState.statement, hpoint] at ht
      cases ht
  | threw e =>
      rw [IdentityState.statement, hpoint] at ht
      cases ht
  | _ =>
      rw [IdentityState.statement, hpoint] at ht
      cases ht
      exact .stays rfl

/-- The database after an event, of whichever kind. -/
theorem next_turn_db {ev : IdentityEvent} (h : TransactionsOk s) (ht : nextIdentity s ev = some t) :
    (∃ x, ev = .statement x ∧ StatementTurn s x t.db) ∨ t.db = s.db := by
  cases ev with
  | findOrCreateProperty x p input now =>
      rw [nextIdentity] at ht
      split at ht
      · cases ht
        exact Or.inr rfl
      · cases ht
  | applyEffectiveBinSet x p c =>
      rw [nextIdentity] at ht
      split at ht
      · cases ht
        exact Or.inr rfl
      · cases ht
  | statement x => exact Or.inl ⟨x, rfl, statement_turn h ht⟩
  | abort x e =>
      rw [nextIdentity] at ht
      split at ht
      · cases ht
      · cases ht
      · cases ht
      · cases ht
        exact Or.inr (by rw [setPoint_db, unlock_db])

end Commits

/-! ### Steps -/

section Steps

variable {s t : IdentityState Row} {x : Nat}

/-- A call that holds a lock takes its next statement under it. -/
theorem TransactionsOk.keepLock (h : TransactionsOk s) {point : CallPoint}
    (hlocked : point.locked = (s.calls x).locked) (hrows : RowsOk s.db point) :
    TransactionsOk (s.setPoint x point) := by
  refine h.setPoint (fun p hp => ?_) hrows
  rw [hlocked] at hp
  exact h.locked x p hp

/-- A row lock is granted only while no call holds it. -/
theorem TransactionsOk.lock (h : TransactionsOk s) {p : PropertyId} (hfree : s.locks p = none)
    {candidateBins : List String} (hfound : s.db.properties.find p ≠ none) :
    TransactionsOk ({ s with locks := Function.update s.locks p (some x) }.setPoint x
      (.loading p candidateBins)) := by
  have hlocks : TransactionsOk { s with locks := Function.update s.locks p (some x) } := by
    refine ⟨fun y q hy => ?_, h.rows⟩
    have hheld := h.locked y q hy
    have hne : q ≠ p := by
      rintro rfl
      rw [hfree] at hheld
      cases hheld
    show Function.update s.locks p (some x) q = some y
    rw [Function.update_of_ne hne]
    exact hheld
  refine hlocks.setPoint (fun q hq => ?_) hfound
  cases hq
  exact Function.update_self _ _ _

theorem transactionsOk_statement (h : TransactionsOk s) (ht : s.statement x = some t) :
    TransactionsOk t := by
  have hrows := h.rows x
  cases hpoint : s.calls x with
  | idle =>
      rw [IdentityState.statement, hpoint] at ht
      cases ht
  | returned =>
      rw [IdentityState.statement, hpoint] at ht
      cases ht
  | threw e =>
      rw [IdentityState.statement, hpoint] at ht
      cases ht
  | finding p input now =>
      rw [IdentityState.statement, hpoint] at ht
      simp only at ht
      split at ht
      · cases ht
        exact h.setPoint nofun trivial
      · split at ht
        · cases ht
          exact h.setPoint nofun trivial
        · cases ht
          exact h.setPoint nofun trivial
  | creating p input now =>
      rw [IdentityState.statement, hpoint] at ht
      simp only at ht
      split at ht
      · cases ht
        exact h.setPoint nofun trivial
      · rename_i db' hcreate
        cases ht
        obtain ⟨property, bbl, -, -, -, -, hnew, rfl⟩ := Db.createProperty_eq_ok hcreate
        refine (h.write fun y q hq => ?_).setPoint nofun trivial
        -- a locked property was there before
        have hne : q ≠ p := by
          rintro rfl
          exact (h.rows y).found hq hnew
        exact ⟨Table.find_set_ne hne, Function.update_of_ne hne _ _, Function.update_of_ne hne _ _⟩
  | locking p c =>
      rw [IdentityState.statement, hpoint] at ht
      simp only at ht
      split at ht
      · cases ht
        exact h.setPoint nofun trivial
      · rename_i property hproperty
        split at ht
        · cases ht
          exact h.lock ‹_› (by rw [hproperty]; nofun)
        · cases ht
  | loading p c =>
      rw [hpoint] at hrows
      rw [IdentityState.statement, hpoint] at ht
      simp only at ht
      split at ht
      · cases ht
        exact h.finish rfl trivial
      · rename_i property hproperty
        split at ht
        · cases ht
          exact h.keepLock (by rw [hpoint]; rfl) ⟨hrows, ‹_›⟩
        · cases ht
          exact h.keepLock (by rw [hpoint]; rfl) ⟨hproperty, ‹_›⟩
  | deletingBins p c rows =>
      rw [hpoint] at hrows
      rw [IdentityState.statement, hpoint] at ht
      cases ht
      exact h.keepLock (by rw [hpoint]; rfl) ⟨hrows.1, hrows.2, rfl⟩
  | insertingBins p c rows =>
      rw [hpoint] at hrows
      rw [IdentityState.statement, hpoint] at ht
      cases ht
      refine h.keepLock (by rw [hpoint]; rfl) ⟨hrows.1, hrows.2.1, ?_⟩
      by_cases hsize : (filterValidBins c).size > 0
      · exact if_pos hsize
      · have hempty : filterValidBins c = .empty := by
          rw [SortedSet.eq_empty_iff, ← List.length_eq_zero_iff]
          exact Nat.eq_zero_of_not_pos hsize
        exact (if_neg hsize).trans (hrows.2.2.trans hempty.symm)
  | raisingVersion p c rows =>
      rw [hpoint] at hrows
      rw [IdentityState.statement, hpoint] at ht
      cases ht
      exact h.keepLock (by rw [hpoint]; rfl) ⟨hrows.2.1, hrows.2.2, rows.property, hrows.1, rfl⟩
  | upsertingCoverage p c rows =>
      rw [hpoint] at hrows
      rw [IdentityState.statement, hpoint] at ht
      cases ht
      exact h.keepLock (by rw [hpoint]; rfl) ⟨hrows.1, hrows.2.1, hrows.2.2, rfl⟩
  | reloading p c rows =>
      rw [hpoint] at hrows
      rw [IdentityState.statement, hpoint] at ht
      cases ht
      exact h.keepLock (by rw [hpoint]; rfl) hrows
  | committing p c changed rows =>
      rw [IdentityState.statement, hpoint] at ht
      cases ht
      have hended : TransactionsOk ((s.unlock x).setPoint x .returned) := h.finish rfl trivial
      cases changed with
      | false => exact hended
      | true =>
          rw [if_pos rfl]
          refine hended.write fun y q hq => ?_
          have hyx : y ≠ x := by
            rintro rfl
            rw [setPoint_calls_self] at hq
            cases hq
          rw [setPoint_calls_ne hyx, unlock_calls] at hq
          have hne : q ≠ p := by
            rintro rfl
            have hp := h.locked x q (by rw [hpoint]; rfl)
            rw [h.locked y q hq] at hp
            exact hyx (Option.some.inj hp)
          exact ⟨Table.find_modify_ne hne, Function.update_of_ne hne _ _,
            Function.update_of_ne hne _ _⟩

/-- **Every event keeps the transactions in order.** -/
theorem transactionsOk_next {ev : IdentityEvent} (h : TransactionsOk s)
    (ht : nextIdentity s ev = some t) : TransactionsOk t := by
  cases ev with
  | findOrCreateProperty x p input now =>
      rw [nextIdentity] at ht
      split at ht
      · cases ht
        exact h.setPoint nofun trivial
      · cases ht
  | applyEffectiveBinSet x p c =>
      rw [nextIdentity] at ht
      split at ht
      · cases ht
        exact h.setPoint nofun trivial
      · cases ht
  | statement x => exact transactionsOk_statement h ht
  | abort x e =>
      rw [nextIdentity] at ht
      split at ht
      · cases ht
      · cases ht
      · cases ht
      · cases ht
        exact h.finish rfl trivial

theorem transactionsOk_quiet (db : Db Row) : TransactionsOk (IdentityState.quiet db) :=
  ⟨nofun, fun _ => trivial⟩

end Steps

/-! ### The version law -/

/-- A run of the calls. -/
abbrev IdentityRun (s t : IdentityState Row) : Prop :=
  Steps nextIdentity (fun _ _ => True) s t

/-- What a committed call does: the valid BINs of its candidates are the BIN set, and the version goes
up by one and the coverage is invalidated if they were not before. -/
structure CommitLaw (db db' : Db Row) (p : PropertyId) (candidateBins : List String) : Prop where
  bins : db'.propertyBins p = filterValidBins candidateBins
  changed : db.propertyBins p ≠ filterValidBins candidateBins →
    db'.versionOf p = (db.versionOf p).map (· + 1) ∧
      db'.coverage p = some (Db.invalidatedCoverage (db.coverage p) (filterValidBins candidateBins))
  unchanged : db.propertyBins p = filterValidBins candidateBins → db' = db

section Law

variable {s t u : IdentityState Row}

theorem commitLaw_of_ok {db db' : Db Row} {p : PropertyId} {candidateBins : List String}
    {r : ApplyEffectiveBinSetResult} (h : db.applyEffectiveBinSet p candidateBins = .ok (db', r)) :
    CommitLaw db db' p candidateBins := by
  obtain ⟨-, ⟨hsame, rfl, -⟩ | ⟨hchanged, -, rfl⟩⟩ := Db.applyEffectiveBinSet_eq_ok h
  · exact ⟨hsame, fun hne => absurd hsame hne, fun _ => rfl⟩
  · refine ⟨Function.update_self _ _ _, fun _ => ⟨?_, Function.update_self _ _ _⟩,
      fun hsame => absurd hsame hchanged⟩
    simp only [Db.versionOf, Db.replaceBinSet, Table.find_modify_self]
    cases db.properties.find p <;> rfl

/-- The version of a property that is there goes up with a change, and stays without one. -/
theorem versionOf_next {ev : IdentityEvent} {p : PropertyId} {v : Nat} (h : TransactionsOk s)
    (ht : nextIdentity s ev = some t) (hv : s.db.versionOf p = some v) :
    SameProperty s.db t.db p ∨ t.db.versionOf p = some (v + 1) := by
  have hfound : s.db.properties.find p ≠ none := by
    intro hnone
    rw [Db.versionOf, hnone] at hv
    cases hv
  rcases next_turn_db h ht with ⟨x, rfl, hturn⟩ | hdb
  · by_cases hcommit : ∃ c changed rows, s.calls x = .committing p c changed rows
    · obtain ⟨c, changed, rows, hpoint⟩ := hcommit
      have hlaw := commitLaw_of_ok (commit_atomic h hpoint ht)
      by_cases hsame : s.db.propertyBins p = filterValidBins c
      · rw [hlaw.unchanged hsame]
        exact Or.inl (.refl _ _)
      · refine Or.inr ?_
        rw [(hlaw.changed hsame).1, hv]
        rfl
    · exact Or.inl (hturn.same p hfound fun c changed rows hpoint =>
        hcommit ⟨c, changed, rows, hpoint⟩)
  · rw [hdb]
    exact Or.inl (.refl _ _)

/-- **Over a run the version of a property never goes down, and where it is the same nothing of the
property has changed.** -/
theorem versionOf_run {p : PropertyId} {v : Nat} (h : TransactionsOk s) (hrun : IdentityRun s t)
    (hv : s.db.versionOf p = some v) :
    ∃ w, t.db.versionOf p = some w ∧ v ≤ w ∧ (w = v → SameProperty s.db t.db p) := by
  induction hrun with
  | refl => exact ⟨v, hv, le_refl v, fun _ => .refl _ _⟩
  | tail hrun _ hnext ih =>
      obtain ⟨w, hw, hle, hsame⟩ := ih
      have hok := hrun.invariant (fun hI _ hn => transactionsOk_next hI hn) h
      rcases versionOf_next hok hnext hw with hkept | hraised
      · refine ⟨w, by rw [Db.versionOf, hkept.property]; exact hw, hle, fun heq => ?_⟩
        have hbefore := hsame heq
        exact ⟨hkept.property.trans hbefore.property, hkept.bins.trans hbefore.bins,
          hkept.coverage.trans hbefore.coverage⟩
      · refine ⟨w + 1, hraised, Nat.le_succ_of_le hle, fun heq => ?_⟩
        omega

/-- **The identifier version law.**  In every run of concurrent calls from any database: a call of
`applyEffectiveBinSet` that commits leaves the valid BINs of its candidates, with the next version and
invalidated coverage exactly if they differ from the set before; no other statement touches a
property that is there; and where two committed states have a property at one version, every state
between them has it at that version, with the same BINs and the same coverage.  Candidate lists that
name the same BINs are the same to a call. -/
theorem identifier_version_law (db : Db Row) (hs : IdentityRun (IdentityState.quiet db) s) :
    (∀ x p candidateBins changed rows, s.calls x = .committing p candidateBins changed rows →
      nextIdentity s (.statement x) = some t → CommitLaw s.db t.db p candidateBins) ∧
    (∀ ev p, nextIdentity s ev = some t → s.db.properties.find p ≠ none →
      (∀ x candidateBins changed rows, ev = .statement x →
        s.calls x ≠ .committing p candidateBins changed rows) → SameProperty s.db t.db p) ∧
    (∀ p v, IdentityRun s t → IdentityRun t u → s.db.versionOf p = some v →
      u.db.versionOf p = some v → t.db.versionOf p = some v ∧ SameProperty s.db t.db p ∧
        SameProperty s.db u.db p) ∧
    (∀ candidateBins candidateBins', (∀ bin, isPlaceholderBin bin = false →
      ((∃ c ∈ candidateBins, canonicalizeBin c = some bin) ↔
        ∃ c ∈ candidateBins', canonicalizeBin c = some bin)) →
          filterValidBins candidateBins = filterValidBins candidateBins') := by
  have hok := hs.invariant (fun hI _ hn => transactionsOk_next hI hn) (transactionsOk_quiet db)
  refine ⟨fun x p c changed rows hpoint ht => ?_, fun ev p ht hfound hnot => ?_,
    fun p v hst htu hv hw => ?_, fun _ _ => filterValidBins_congr⟩
  · exact commitLaw_of_ok (commit_atomic hok hpoint ht)
  · rcases next_turn_db hok ht with ⟨x, rfl, hturn⟩ | hdb
    · exact hturn.same p hfound fun c changed rows => hnot x c changed rows rfl
    · rw [hdb]
      exact .refl _ _
  · obtain ⟨w, hw', hle, hsame⟩ := versionOf_run hok hst hv
    have hokt := hst.invariant (fun hI _ hn => transactionsOk_next hI hn) hok
    obtain ⟨w', hw'', hle', hsame'⟩ := versionOf_run hokt htu hw'
    rw [hw] at hw''
    cases hw''
    have heq : w = v := Nat.le_antisymm hle' hle
    subst heq
    have hfirst := hsame rfl
    have hsecond := hsame' rfl
    exact ⟨hw', hfirst, ⟨hsecond.property.trans hfirst.property, hsecond.bins.trans hfirst.bins,
      hsecond.coverage.trans hfirst.coverage⟩⟩

end Law

/-- The call a point is about to commit. -/
def CallPoint.commit? : CallPoint → Option (PropertyId × List String × Bool)
  | .committing p candidateBins changed _ => some (p, candidateBins, changed)
  | _ => none

/-- A property is created without a BIN, and two calls change its set at once: the first commits. -/
def twoCallEvents : List IdentityEvent :=
  [.findOrCreateProperty 0 0 ⟨"1000010001", [], none, none, none, none, none, none, none⟩ 0,
    .statement 0, .statement 0, .applyEffectiveBinSet 1 0 ["1000001", "1000001", "1000000"],
    .applyEffectiveBinSet 2 0 ["x"], .statement 1, .statement 1, .statement 1, .statement 1,
    .statement 1, .statement 1, .statement 1]

theorem identifier_version_law_twoCalls : ∃ (s t : IdentityState Unit) (rows : PropertyRows),
    IdentityRun (IdentityState.quiet .empty) s ∧
      s.calls 1 = .committing 0 ["1000001", "1000001", "1000000"] true rows ∧
      nextIdentity s (.statement 1) = some t ∧
      CommitLaw s.db t.db 0 ["1000001", "1000001", "1000000"] := by
  have hs : ((Library.run nextIdentity (IdentityState.quiet (Db.empty : Db Unit))
      twoCallEvents).map fun s => (s.calls 1).commit?) =
        some (some (0, ["1000001", "1000001", "1000000"], true)) := by decide +kernel
  obtain ⟨s, hrun, hs⟩ := Option.map_eq_some_iff.mp hs
  cases hpoint : s.calls 1 with
  | committing p c changed rows =>
      rw [hpoint] at hs
      cases hs
      have hreach : IdentityRun (IdentityState.quiet .empty) s := run_steps (runOk_trivial _ _) hrun
      have hnext : nextIdentity s (.statement 1) =
          some (((s.unlock 1).setPoint 1 .returned).writeRows 0 rows) := by
        rw [nextIdentity, IdentityState.statement, hpoint]
        rfl
      exact ⟨s, _, rows, hreach, hpoint, hnext,
        (identifier_version_law (u := s) .empty hreach).1 1 0 _ true rows hpoint hnext⟩
  | _ =>
      rw [hpoint] at hs
      cases hs

end IdentityTransactions

end NycPropertyResolver
