import Mathlib.Init

/-!
# Library — truth values of SQL

A condition on columns that may be null is true, false or unknown; a `WHERE` clause keeps the rows it
is true of.
-/

namespace Library

/-- True, false, or unknown (`none`). -/
abbrev SqlTruth := Option Bool

namespace SqlTruth

/-- A condition on two values; unknown where one of them is null. -/
def compare {α : Type} (r : α → α → Bool) (a b : Option α) : SqlTruth :=
  match a, b with
  | some x, some y => some (r x y)
  | _, _ => none

/-- `AND`. -/
def and (p q : SqlTruth) : SqlTruth :=
  match p, q with
  | some false, _ => some false
  | _, some false => some false
  | some true, some true => some true
  | _, _ => none

/-- `OR`. -/
def or (p q : SqlTruth) : SqlTruth :=
  match p, q with
  | some true, _ => some true
  | _, some true => some true
  | some false, some false => some false
  | _, _ => none

/-- `IS NULL`. -/
def isNull {α : Type} (a : Option α) : SqlTruth := some a.isNone

variable {p q : SqlTruth}

@[simp] theorem and_eq_true : p.and q = some true ↔ p = some true ∧ q = some true := by
  rcases p with _ | _ | _ <;> rcases q with _ | _ | _ <;> decide

@[simp] theorem or_eq_true : p.or q = some true ↔ p = some true ∨ q = some true := by
  rcases p with _ | _ | _ <;> rcases q with _ | _ | _ <;> decide

@[simp] theorem compare_eq_true {α : Type} {r : α → α → Bool} {a b : Option α} :
    compare r a b = some true ↔ ∃ x y, a = some x ∧ b = some y ∧ r x y = true := by
  cases a <;> cases b <;> simp [compare]

@[simp] theorem isNull_eq_true {α : Type} {a : Option α} : isNull a = some true ↔ a = none := by
  cases a <;> simp [isNull]

end SqlTruth

end Library
