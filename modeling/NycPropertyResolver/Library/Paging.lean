import Mathlib.Data.List.Sort
import NycPropertyResolver.Library.Chunks

/-!
# Library — paging

A service orders the rows that match a query and gives the slice `[offset, offset + limit)` of them.
Where the order leaves ties, two requests may see two orderings (`IsPage`).  `pageLoop` is the client's
side: pages are read one after another until a short one, and so many full pages are refused.

* `pageLoop_eq`: what the loop returns when every page has the length it has in an ordering of `n`
  rows.
* `pageLoop_of_ordering`: with one ordering behind all requests, the loop reads every row once.
* `filter_take_of_sorted`: which rows of one key lie in a prefix of an ordering.
-/

namespace Library

variable {ρ σ ε κ : Type}

/-! ### Pages -/

/-- The slice of an ordering of `rows`. -/
def IsPage (rows : List ρ) (le : ρ → ρ → Prop) (offset limit : Nat) (page : List ρ) : Prop :=
  ∃ ordered : List ρ, ordered.Perm rows ∧ ordered.Pairwise le ∧
    page = (ordered.drop offset).take limit

/-- Reads pages until one is not full; `tooMany` when `maxPages` are full. -/
def pageLoop (fetchPage : Nat → Except ε (List ρ)) (pageLimit : Nat) (tooMany : ε)
    (step : σ → List ρ → σ) : Nat → Nat → σ → Except ε σ
  | 0, _, _ => .error tooMany
  | pagesLeft + 1, pageIndex, acc => do
    let page ← fetchPage pageIndex
    if page.length < pageLimit then
      .ok (step acc page)
    else
      pageLoop fetchPage pageLimit tooMany step pagesLeft (pageIndex + 1) (step acc page)

section Loop

variable {fetchPage : Nat → Except ε (List ρ)} {pages : Nat → List ρ} {pageLimit maxPages n : Nat}
  {tooMany : ε} {step : σ → List ρ → σ}

/-- From page `j` on, with `n` rows behind the pages. -/
theorem pageLoop_from (hlimit : 0 < pageLimit) (hfetch : ∀ i, fetchPage i = .ok (pages i))
    (hlen : ∀ i, (pages i).length = min pageLimit (n - i * pageLimit)) :
    ∀ (pagesLeft j : Nat) (acc : σ), j ≤ n / pageLimit →
      pageLoop fetchPage pageLimit tooMany step pagesLeft j acc =
        if n / pageLimit < j + pagesLeft then
          .ok ((List.range' j (n / pageLimit + 1 - j)).foldl (fun acc i => step acc (pages i)) acc)
        else
          .error tooMany := by
  intro pagesLeft
  induction pagesLeft with
  | zero =>
      intro j acc hj
      rw [if_neg (by omega)]
      rfl
  | succ k ih =>
      intro j acc hj
      have hmul : j * pageLimit ≤ n := (Nat.le_div_iff_mul_le hlimit).mp hj
      rw [pageLoop, hfetch j]
      show (if (pages j).length < pageLimit then _ else _) = _
      by_cases hshort : (pages j).length < pageLimit
      · -- the short page is the last one
        have hlast : n / pageLimit = j := by
          rw [hlen] at hshort
          refine le_antisymm (Nat.lt_succ_iff.mp ((Nat.div_lt_iff_lt_mul hlimit).mpr ?_)) hj
          rw [Nat.succ_mul]
          omega
        rw [if_pos hshort, if_pos (by omega), hlast, Nat.add_sub_cancel_left]
        rfl
      · have hnext : j + 1 ≤ n / pageLimit := by
          rw [hlen] at hshort
          rw [Nat.le_div_iff_mul_le hlimit, Nat.succ_mul]
          omega
        rw [if_neg hshort, ih (j + 1) _ hnext]
        by_cases hk : n / pageLimit < j + 1 + k
        · rw [if_pos hk, if_pos (by omega), show n / pageLimit + 1 - j = (n / pageLimit + 1 - (j + 1)) + 1
            by omega, List.range'_succ, List.foldl_cons]
        · rw [if_neg hk, if_neg (by omega)]

/-- **What the loop returns**: the pages up to the short one, or the refusal. -/
theorem pageLoop_eq (hlimit : 0 < pageLimit) (hfetch : ∀ i, fetchPage i = .ok (pages i))
    (hlen : ∀ i, (pages i).length = min pageLimit (n - i * pageLimit)) (acc : σ) :
    pageLoop fetchPage pageLimit tooMany step maxPages 0 acc =
      if n < maxPages * pageLimit then
        .ok ((List.range (n / pageLimit + 1)).foldl (fun acc i => step acc (pages i)) acc)
      else
        .error tooMany := by
  rw [pageLoop_from hlimit hfetch hlen maxPages 0 acc (Nat.zero_le _), List.range_eq_range',
    Nat.zero_add, Nat.sub_zero]
  simp only [Nat.div_lt_iff_lt_mul hlimit]

/-- A page by page accumulation is one over the rows. -/
theorem foldl_pages (f : σ → ρ → σ) (hstep : ∀ acc page, step acc page = page.foldl f acc)
    (pages : Nat → List ρ) : ∀ (is : List Nat) (acc : σ),
      is.foldl (fun acc i => step acc (pages i)) acc = (is.flatMap pages).foldl f acc := by
  intro is
  induction is with
  | nil => intro acc; rfl
  | cons i is ih =>
      intro acc
      rw [List.foldl_cons, ih, hstep, List.flatMap_cons, List.foldl_append]

/-- The pages of one ordering, up to the short one, are the ordering. -/
theorem flatMap_chunk_range (rows : List ρ) (hlimit : 0 < pageLimit) :
    (List.range (rows.length / pageLimit + 1)).flatMap (chunk rows pageLimit) = rows := by
  rw [List.flatMap_def, flatten_map_chunk_range, List.take_of_length_le]
  exact Nat.le_of_lt (Nat.lt_mul_of_div_lt (Nat.lt_succ_self _) hlimit)

theorem length_chunk (rows : List ρ) (pageLimit i : Nat) :
    (chunk rows pageLimit i).length = min pageLimit (rows.length - i * pageLimit) := by
  rw [chunk, List.length_take, List.length_drop]

/-- **One ordering behind all requests**: the loop reads every row once, in order, unless so many
pages are full. -/
theorem pageLoop_of_ordering (rows : List ρ) (hlimit : 0 < pageLimit)
    (hfetch : ∀ i, fetchPage i = .ok (chunk rows pageLimit i)) (f : σ → ρ → σ)
    (hstep : ∀ acc page, step acc page = page.foldl f acc) (acc : σ) :
    pageLoop fetchPage pageLimit tooMany step maxPages 0 acc =
      if rows.length < maxPages * pageLimit then .ok (rows.foldl f acc) else .error tooMany := by
  rw [pageLoop_eq hlimit hfetch (length_chunk rows pageLimit), foldl_pages f hstep,
    flatMap_chunk_range rows hlimit]

/-- Collecting the pages: those up to the short one, one after another. -/
theorem pageLoop_append (hlimit : 0 < pageLimit) (hfetch : ∀ i, fetchPage i = .ok (pages i))
    (hlen : ∀ i, (pages i).length = min pageLimit (n - i * pageLimit)) :
    pageLoop fetchPage pageLimit tooMany (· ++ ·) maxPages 0 [] =
      if n < maxPages * pageLimit then .ok ((List.range (n / pageLimit + 1)).flatMap pages)
      else .error tooMany := by
  rw [pageLoop_eq hlimit hfetch hlen, List.foldl_append_eq_append, List.nil_append, List.flatMap_def]

/-- Collecting the pages of one ordering. -/
theorem pageLoop_append_of_ordering (rows : List ρ) (hlimit : 0 < pageLimit)
    (hfetch : ∀ i, fetchPage i = .ok (chunk rows pageLimit i)) :
    pageLoop fetchPage pageLimit tooMany (· ++ ·) maxPages 0 [] =
      if rows.length < maxPages * pageLimit then .ok rows else .error tooMany := by
  rw [pageLoop_append hlimit hfetch (length_chunk rows pageLimit), flatMap_chunk_range rows hlimit]

end Loop

/-! ### Keys in an ordering -/

section Counting

variable [LinearOrder κ] {key : ρ → κ}

/-- An ordering by key is the rows below a key, those at it and those above it. -/
theorem filter_append_of_sorted {xs : List ρ} (h : xs.Pairwise fun x y => key x ≤ key y) (k : κ) :
    xs.filter (fun x => key x < k) ++
      (xs.filter (fun x => key x = k) ++ xs.filter fun x => k < key x) = xs := by
  induction xs with
  | nil => rfl
  | cons x xs ih =>
      have hx : ∀ y ∈ xs, key x ≤ key y := (List.pairwise_cons.mp h).1
      have ih' := ih (List.pairwise_cons.mp h).2
      rcases lt_trichotomy (key x) k with hlt | heq | hgt
      · rw [List.filter_cons_of_pos (by simpa using hlt),
          List.filter_cons_of_neg (by simpa using hlt.ne),
          List.filter_cons_of_neg (by simpa using hlt.le), List.cons_append, ih']
      · have hnil : xs.filter (fun x => key x < k) = [] := by
          rw [List.filter_eq_nil_iff]
          intro y hy
          simpa [heq] using hx y hy
        rw [hnil, List.nil_append] at ih'
        rw [List.filter_cons_of_neg (by simp [heq]), hnil, List.nil_append,
          List.filter_cons_of_pos (by simpa using heq),
          List.filter_cons_of_neg (by simp [heq]), List.cons_append, ih']
      · have hnil : xs.filter (fun x => key x < k) = [] := by
          rw [List.filter_eq_nil_iff]
          intro y hy
          simpa using le_trans hgt.le (hx y hy)
        have hnil' : xs.filter (fun x => key x = k) = [] := by
          rw [List.filter_eq_nil_iff]
          intro y hy
          simpa using (lt_of_lt_of_le hgt (hx y hy)).ne'
        rw [hnil, hnil', List.nil_append, List.nil_append] at ih'
        rw [List.filter_cons_of_neg (by simpa using hgt.le), hnil,
          List.filter_cons_of_neg (by simpa using hgt.ne'), hnil', List.nil_append,
          List.nil_append, List.filter_cons_of_pos (by simpa using hgt), ih']

/-- **The rows of one key in a prefix of an ordering**: a prefix of its rows. -/
theorem filter_take_of_sorted {xs : List ρ} (h : xs.Pairwise fun x y => key x ≤ key y) (k : κ)
    (n : Nat) :
    (xs.take n).filter (fun x => key x = k) =
      (xs.filter fun x => key x = k).take (n - xs.countP fun x => key x < k) := by
  have hlow : ∀ m, ((xs.filter fun x => key x < k).take m).filter (fun x => key x = k) = [] := by
    intro m
    rw [List.filter_eq_nil_iff]
    intro x hx
    have hlt := (List.mem_filter.mp (List.mem_of_mem_take hx)).2
    simpa using (of_decide_eq_true hlt).ne
  have hhigh : ∀ m, ((xs.filter fun x => k < key x).take m).filter (fun x => key x = k) = [] := by
    intro m
    rw [List.filter_eq_nil_iff]
    intro x hx
    have hlt := (List.mem_filter.mp (List.mem_of_mem_take hx)).2
    simpa using (of_decide_eq_true hlt).ne'
  have hat : ∀ m, ((xs.filter fun x => key x = k).take m).filter (fun x => key x = k) =
      (xs.filter fun x => key x = k).take m := by
    intro m
    rw [List.filter_eq_self]
    intro x hx
    exact (List.mem_filter.mp (List.mem_of_mem_take hx)).2
  calc (xs.take n).filter (fun x => key x = k)
      = ((xs.filter (fun x => key x < k) ++
          (xs.filter (fun x => key x = k) ++ xs.filter fun x => k < key x)).take n).filter
            (fun x => key x = k) := by rw [filter_append_of_sorted h k]
    _ = (xs.filter fun x => key x = k).take (n - xs.countP fun x => key x < k) := by
        rw [List.take_append, List.take_append, List.filter_append, List.filter_append, hlow, hat,
          hhigh, List.nil_append, List.append_nil, ← List.countP_eq_length_filter]

/-- How many rows of one key lie in a prefix of an ordering. -/
theorem countP_take_of_sorted {xs : List ρ} (h : xs.Pairwise fun x y => key x ≤ key y) (k : κ)
    (n : Nat) :
    (xs.take n).countP (fun x => key x = k) =
      min (n - xs.countP fun x => key x < k) (xs.countP fun x => key x = k) := by
  have hall : xs.countP (fun x => key x = k) = (xs.filter fun x => key x = k).length :=
    List.countP_eq_length_filter
  rw [List.countP_eq_length_filter, filter_take_of_sorted h, List.length_take, hall]

end Counting

end Library
