import Mathlib.Data.List.Basic
import Mathlib.Tactic.Ring

/-!
# Library — chunks

A list cut into consecutive slices of `size` elements, the last one possibly shorter: the slices
`[i * size, i * size + size)` for as long as they start inside the list.
-/

namespace Library

variable {α : Type}

/-- The slice of `size` elements that starts at `i * size`. -/
def chunk (xs : List α) (size i : Nat) : List α := (xs.drop (i * size)).take size

/-- The number of slices that start inside a list of `n` elements. -/
def chunkCount (n size : Nat) : Nat := (n + size - 1) / size

/-- The slices of `xs`, in order. -/
def chunks (xs : List α) (size : Nat) : List (List α) :=
  (List.range (chunkCount xs.length size)).map (chunk xs size)

/-- The first `m` slices are the first `m * size` elements. -/
theorem flatten_map_chunk_range (xs : List α) (size : Nat) :
    ∀ m, ((List.range m).map (chunk xs size)).flatten = xs.take (m * size)
  | 0 => by simp
  | m + 1 => by
      rw [List.range_succ, List.map_append, List.flatten_append,
        flatten_map_chunk_range xs size m]
      simp only [List.map_cons, List.map_nil, List.flatten_cons, List.flatten_nil,
        List.append_nil, chunk]
      rw [Nat.succ_mul, List.take_add]

theorem length_le_chunkCount_mul {n size : Nat} (h : 0 < size) : n ≤ chunkCount n size * size := by
  have h₁ := Nat.div_add_mod (n + size - 1) size
  have h₂ := Nat.mod_lt (n + size - 1) h
  rw [chunkCount, Nat.mul_comm]
  omega

/-- Nothing is lost: the slices, concatenated, are the list. -/
theorem flatten_chunks (xs : List α) {size : Nat} (h : 0 < size) : (chunks xs size).flatten = xs := by
  rw [chunks, flatten_map_chunk_range, List.take_of_length_le (length_le_chunkCount_mul h)]

theorem length_chunk_le (xs : List α) (size i : Nat) : (chunk xs size i).length ≤ size := by
  rw [chunk, List.length_take]; exact Nat.min_le_left _ _

/-- The first slice is full when the list is long enough. -/
theorem length_chunk_zero (xs : List α) (size : Nat) :
    (chunk xs size 0).length = min size xs.length := by
  simp [chunk]

theorem lt_chunkCount_iff {n size i : Nat} (h : 0 < size) :
    i < chunkCount n size ↔ i * size < n := by
  rw [chunkCount, Nat.lt_div_iff_mul_lt h]
  omega

/-- Every slice that starts inside the list has an element. -/
theorem ne_nil_of_mem_chunks {xs : List α} {size : Nat} (h : 0 < size) {c : List α}
    (hc : c ∈ chunks xs size) : c ≠ [] := by
  obtain ⟨i, hi, rfl⟩ := List.mem_map.mp hc
  have hi' : i * size < xs.length := (lt_chunkCount_iff h).mp (List.mem_range.mp hi)
  intro e
  have := congrArg List.length e
  simp only [chunk, List.length_take, List.length_drop, List.length_nil] at this
  omega

end Library
