import Mathlib.Data.List.Nodup

/-!
# Library — tables

A table is a finite set of rows under a unique key: the keys in use, and the row of each.  The
operations are those of a relational store, each described by what `find` reads afterwards:
`insert` (refused when the key is in use), `set` (insert or replace), `modify` (update one row),
`erase` (remove one row), `modifyAll` (one set-based update of every row) and `upsertFrom` (one
set-based upsert of the rows of another table).
-/

namespace Library

/-- Rows under a unique key. -/
structure Table (κ α : Type) where
  keys : List κ
  find : κ → Option α
  nodup : keys.Nodup
  mem_keys : ∀ k, k ∈ keys ↔ find k ≠ none

namespace Table

variable {κ α : Type} [DecidableEq κ]

/-- The table without rows. -/
def empty : Table κ α := ⟨[], fun _ => none, List.nodup_nil, fun _ => by simp⟩

/-- The rows, in the order their keys were first used. -/
def rows (t : Table κ α) : List (κ × α) :=
  t.keys.filterMap fun k => (t.find k).map fun a => (k, a)

/-- Insert or replace the row at `k`. -/
def set (t : Table κ α) (k : κ) (a : α) : Table κ α where
  keys := if k ∈ t.keys then t.keys else t.keys ++ [k]
  find := fun j => if j = k then some a else t.find j
  nodup := by
    split
    · exact t.nodup
    · rename_i h
      exact List.nodup_append.mpr
        ⟨t.nodup, List.nodup_singleton k, fun x hx y hy e => h (by simp_all)⟩
  mem_keys := fun j => by
    by_cases e : j = k
    · subst e; split <;> simp_all
    · rw [if_neg e, ← t.mem_keys j]; split <;> simp [e]

/-- Insert a row; refused when the key is in use. -/
def insert (t : Table κ α) (k : κ) (a : α) : Option (Table κ α) :=
  if t.find k = none then some (t.set k a) else none

/-- Update the row at `k`, if there is one. -/
def modify (t : Table κ α) (k : κ) (f : α → α) : Table κ α where
  keys := t.keys
  find := fun j => if j = k then (t.find j).map f else t.find j
  nodup := t.nodup
  mem_keys := fun j => by rw [t.mem_keys j]; split <;> simp

/-- Update every row. -/
def modifyAll (t : Table κ α) (f : κ → α → α) : Table κ α where
  keys := t.keys
  find := fun j => (t.find j).map (f j)
  nodup := t.nodup
  mem_keys := fun j => by rw [t.mem_keys j]; simp

/-- Insert or replace, for every row of `src`, the row at its key: the new row is computed from the
key, the row of `src` and the row already there, if any. -/
def upsertFrom {β : Type} (t : Table κ α) (src : Table κ β) (f : κ → β → Option α → α) :
    Table κ α where
  keys := t.keys ++ src.keys.filter fun k => k ∉ t.keys
  find := fun j => match src.find j with
    | some b => some (f j b (t.find j))
    | none => t.find j
  nodup := by
    refine List.nodup_append.mpr ⟨t.nodup, src.nodup.filter _, fun x hx y hy e => ?_⟩
    subst e
    simp [hx] at hy
  mem_keys := fun j => by
    have ht := t.mem_keys j
    have hs := src.mem_keys j
    cases h : src.find j with
    | none => simp_all
    | some b => by_cases hj : j ∈ t.keys <;> simp_all

/-- Remove the row at `k`, if there is one. -/
def erase (t : Table κ α) (k : κ) : Table κ α where
  keys := t.keys.filter fun j => j ≠ k
  find := fun j => if j = k then none else t.find j
  nodup := t.nodup.filter _
  mem_keys := fun j => by
    have h := t.mem_keys j
    by_cases e : j = k <;> simp_all

variable {t t' : Table κ α} {k j : κ} {a b : α} {f : α → α}

omit [DecidableEq κ] in
@[simp] theorem find_empty : (empty : Table κ α).find k = none := rfl

@[simp] theorem find_set_self : (t.set k a).find k = some a := if_pos rfl

theorem find_set_ne (h : j ≠ k) : (t.set k a).find j = t.find j := if_neg h

theorem find_set : (t.set k a).find j = if j = k then some a else t.find j := rfl

theorem insert_eq_some : t.insert k a = some t' ↔ t.find k = none ∧ t.set k a = t' := by
  rw [insert]; split <;> simp [*]

@[simp] theorem find_modify_self : (t.modify k f).find k = (t.find k).map f := if_pos rfl

theorem find_modify_ne (h : j ≠ k) : (t.modify k f).find j = t.find j := if_neg h

theorem find_modify :
    (t.modify k f).find j = if j = k then (t.find j).map f else t.find j := rfl

theorem find_erase : (t.erase k).find j = if j = k then none else t.find j := rfl

/-- An update that does the same to the row at the key. -/
theorem modify_congr {g : α → α} (h : ∀ a, t.find k = some a → f a = g a) :
    t.modify k f = t.modify k g := by
  have hfind : (t.modify k f).find = (t.modify k g).find := by
    funext j
    rw [find_modify, find_modify]
    by_cases hj : j = k
    · subst hj
      rw [if_pos rfl, if_pos rfl]
      cases hrow : t.find j with
      | none => rfl
      | some a => rw [Option.map_some, Option.map_some, h a hrow]
    · rw [if_neg hj, if_neg hj]
  unfold modify at hfind ⊢
  simp only [Table.mk.injEq, true_and]
  exact hfind

omit [DecidableEq κ] in
@[simp] theorem find_modifyAll {g : κ → α → α} :
    (t.modifyAll g).find j = (t.find j).map (g j) := rfl

theorem find_upsertFrom {β : Type} {src : Table κ β} {g : κ → β → Option α → α} :
    (t.upsertFrom src g).find j = match src.find j with
      | some b => some (g j b (t.find j))
      | none => t.find j := rfl

omit [DecidableEq κ] in
/-- A row is listed exactly when `find` reads it. -/
theorem mem_rows : (k, a) ∈ t.rows ↔ t.find k = some a := by
  simp only [rows, List.mem_filterMap, Option.map_eq_some_iff, Prod.mk.injEq]
  constructor
  · rintro ⟨j, -, b, hb, rfl, rfl⟩; exact hb
  · intro h; exact ⟨k, (t.mem_keys k).mpr (by simp [h]), a, h, rfl, rfl⟩

end Table

end Library
