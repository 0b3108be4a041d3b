import Mathlib.Data.List.Sort

/-!
# Library — the first element of a stable sort

A stable sort by a total preorder puts a minimal element first: of the minimal elements, the one that
stood first before (`head?_insertionSort_of_forall`).  So what comes first does not depend on the order
of the list exactly when no two different elements are minimal (`head?_insertionSort_perm_iff`).
-/

namespace Library

variable {α : Type} {r : α → α → Prop} {a b : α} {l : List α}

/-- An element that comes after no other. -/
def IsFirst (r : α → α → Prop) (l : List α) (a : α) : Prop := a ∈ l ∧ ∀ b ∈ l, r a b

theorem IsFirst.congr {l' : List α} (hmem : ∀ b, b ∈ l' ↔ b ∈ l) (h : IsFirst r l a) :
    IsFirst r l' a :=
  ⟨(hmem a).mpr h.1, fun b hb => h.2 b ((hmem b).mp hb)⟩

variable [DecidableRel r]

/-- **Of the first elements, the one in front.** -/
theorem head?_insertionSort_of_forall (h : ∀ b ∈ l, r a b) :
    ((a :: l).insertionSort r).head? = some a := by
  rw [List.insertionSort_cons_of_forall_rel r h, List.head?_cons]

theorem isFirst_of_head?_insertionSort [Std.Total r] [IsTrans α r]
    (h : (l.insertionSort r).head? = some a) : IsFirst r l a := by
  obtain ⟨rest, hsorted⟩ := List.head?_eq_some_iff.mp h
  have hpair := List.pairwise_insertionSort r l
  rw [hsorted, List.pairwise_cons] at hpair
  have hmem : ∀ b, b ∈ l ↔ b = a ∨ b ∈ rest := fun b => by
    rw [← List.mem_insertionSort r, hsorted, List.mem_cons]
  refine ⟨(hmem a).mpr (.inl rfl), fun b hb => ?_⟩
  rcases (hmem b).mp hb with rfl | hb
  · exact (Std.Total.total b b).elim id id
  · exact hpair.1 b hb

/-- Each first element comes first in some order of the list. -/
theorem IsFirst.exists_perm [DecidableEq α] (h : IsFirst r l a) :
    ∃ l' : List α, l'.Perm l ∧ (l'.insertionSort r).head? = some a := by
  refine ⟨a :: l.erase a, (List.perm_cons_erase h.1).symm, head?_insertionSort_of_forall ?_⟩
  intro b hb
  exact h.2 b (List.mem_of_mem_erase hb)

/-- **What comes first is the same in every order of a list exactly when no two elements of it do.** -/
theorem head?_insertionSort_perm_iff [DecidableEq α] [Std.Total r] [IsTrans α r] :
    (∀ l' : List α, l'.Perm l → (l'.insertionSort r).head? = (l.insertionSort r).head?) ↔
      ∀ a b, IsFirst r l a → IsFirst r l b → a = b := by
  constructor
  · intro h a b ha hb
    obtain ⟨l₁, hperm₁, hhead₁⟩ := ha.exists_perm
    obtain ⟨l₂, hperm₂, hhead₂⟩ := hb.exists_perm
    have hsame : some a = some b := by
      rw [← hhead₁, ← hhead₂, h l₁ hperm₁, h l₂ hperm₂]
    exact Option.some.inj hsame
  · intro h l' hperm
    cases hhead : (l.insertionSort r).head? with
    | none =>
        rw [List.head?_eq_none_iff, ← List.length_eq_zero_iff, List.length_insertionSort] at hhead ⊢
        rw [hperm.length_eq, hhead]
    | some a =>
        have hfirst := isFirst_of_head?_insertionSort hhead
        cases hhead' : (l'.insertionSort r).head? with
        | none =>
            rw [List.head?_eq_none_iff, ← List.length_eq_zero_iff, List.length_insertionSort,
              hperm.length_eq, List.length_eq_zero_iff] at hhead'
            rw [hhead'] at hfirst
            exact absurd hfirst.1 List.not_mem_nil
        | some b =>
            have hfirst' := isFirst_of_head?_insertionSort hhead'
            rw [h b a (hfirst'.congr fun c => hperm.mem_iff.symm) hfirst]

end Library
