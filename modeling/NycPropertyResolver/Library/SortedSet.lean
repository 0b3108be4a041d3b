import Mathlib.Data.List.Sort
import Mathlib.Data.List.Dedup

/-!
# Library — sorted sets

A finite set over a linear order, held as its strictly increasing list: what `[...new Set(xs)]`
followed by a sort computes.  Two sorted sets with the same members are equal
(`SortedSet.ext_mem`), so a comparison of the two lists, element by element, is a comparison of
the two sets.
-/

namespace Library

/-- A strictly increasing list. -/
structure SortedSet (α : Type) [LinearOrder α] where
  toList : List α
  sorted : toList.Pairwise (· < ·)

namespace SortedSet

variable {α : Type} [LinearOrder α]

instance : DecidableEq (SortedSet α) := fun a b =>
  if h : a.toList = b.toList then
    isTrue (by cases a; cases b; cases h; rfl)
  else
    isFalse fun e => h (e ▸ rfl)

instance : Membership α (SortedSet α) := ⟨fun s a => a ∈ s.toList⟩

theorem mem_def {s : SortedSet α} {a : α} : a ∈ s ↔ a ∈ s.toList := Iff.rfl

instance (a : α) (s : SortedSet α) : Decidable (a ∈ s) :=
  inferInstanceAs (Decidable (a ∈ s.toList))

theorem nodup (s : SortedSet α) : s.toList.Nodup :=
  s.sorted.imp fun h => ne_of_lt h

/-- The empty set. -/
def empty : SortedSet α := ⟨[], List.Pairwise.nil⟩

/-- The number of members. -/
def size (s : SortedSet α) : Nat := s.toList.length

/-- The distinct elements of a list, in increasing order. -/
def ofList (xs : List α) : SortedSet α where
  toList := xs.dedup.insertionSort (· ≤ ·)
  sorted := by
    have hle := List.pairwise_insertionSort (· ≤ ·) xs.dedup
    have hne : (xs.dedup.insertionSort (· ≤ ·)).Nodup :=
      (List.perm_insertionSort _ _).nodup_iff.mpr (List.nodup_dedup xs)
    exact hle.imp₂ (fun _ _ h₁ h₂ => lt_of_le_of_ne h₁ h₂) hne

@[simp] theorem mem_ofList {xs : List α} {a : α} : a ∈ ofList xs ↔ a ∈ xs := by
  rw [mem_def, ofList, (List.perm_insertionSort _ _).mem_iff, List.mem_dedup]

@[simp] theorem not_mem_empty {a : α} : ¬ a ∈ (empty : SortedSet α) := by
  simp [mem_def, empty]

/-- Two strictly increasing lists with the same elements are equal. -/
theorem list_eq_of_mem_iff {xs ys : List α} (hx : xs.Pairwise (· < ·)) (hy : ys.Pairwise (· < ·))
    (h : ∀ a, a ∈ xs ↔ a ∈ ys) : xs = ys := by
  have hp : xs.Perm ys :=
    (List.perm_ext_iff_of_nodup (hx.imp fun h => ne_of_lt h) (hy.imp fun h => ne_of_lt h)).mpr h
  exact hp.eq_of_pairwise (fun a b _ _ h₁ h₂ => absurd h₂ (not_lt_of_gt h₁)) hx hy

theorem ext_mem {s t : SortedSet α} (h : ∀ a, a ∈ s ↔ a ∈ t) : s = t := by
  have e := list_eq_of_mem_iff s.sorted t.sorted h
  cases s; cases t; cases e; rfl

@[simp] theorem ofList_toList (s : SortedSet α) : ofList s.toList = s :=
  ext_mem fun _ => mem_ofList

/-- The set of a duplicate-free list has as many members as the list has elements. -/
theorem size_ofList_of_nodup {xs : List α} (h : xs.Nodup) : (ofList xs).size = xs.length := by
  rw [size, ofList, List.length_insertionSort, h.dedup]

theorem eq_empty_iff {s : SortedSet α} : s = empty ↔ s.toList = [] :=
  ⟨fun h => h ▸ rfl, fun h => ext_mem fun a => by simp [mem_def, h, empty]⟩

end SortedSet

end Library
