import Mathlib.Data.List.Nodup
import Mathlib.Data.List.Sort
import Mathlib.Order.Defs.LinearOrder

/-!
# Library — keyset pagination

The rows of a listing are ordered by a key, and a reader takes them page by page.  A request names the
key of the last row read, and a page is the first `limit` rows beyond it; that there are more is known
by asking for one row more than the limit.  The listing may be another one at every request.  What a
complete traversal returns is strictly ordered (`KeysetTraversal.pairwise`), and it holds every key
that was in all of the listings (`KeysetTraversal.exists_of_forall`).  On one listing a traversal
returns that listing (`KeysetTraversal.flatten_eq`), and comes to its end
(`exists_keysetTraversal`).
-/

namespace Library

variable {α K : Type} [LinearOrder K] {key : α → K}

/-! ### Positions -/

/-- A key is beyond a position: after the key that was last read, if there is one. -/
def Beyond (position : Option K) (k : K) : Prop := ∀ p ∈ position, p < k

instance (position : Option K) (k : K) : Decidable (Beyond position k) :=
  inferInstanceAs (Decidable (∀ p ∈ position, p < k))

theorem beyond_none {k : K} : Beyond none k := fun _ h => nomatch h

theorem beyond_some {p k : K} : Beyond (some p) k ↔ p < k := by
  simp [Beyond]

theorem Beyond.trans {position : Option K} {k l : K} (h : Beyond position k) (hl : k < l) :
    Beyond position l :=
  fun p hp => (h p hp).trans hl

/-! ### Pages -/

/-- The rows of a listing that are beyond a position. -/
def remaining (key : α → K) (listing : List α) (position : Option K) : List α :=
  listing.filter fun a => Beyond position (key a)

/-- A page, and whether there are more rows: of `limit + 1` rows asked for, the first `limit`. -/
def keysetPage (key : α → K) (listing : List α) (position : Option K) (limit : Nat) :
    List α × Bool :=
  let found := (remaining key listing position).take (limit + 1)
  (found.take limit, limit < found.length)

section Page

variable {listing : List α} {position : Option K} {limit : Nat} {a : α}

theorem mem_remaining :
    a ∈ remaining key listing position ↔ a ∈ listing ∧ Beyond position (key a) := by
  simp [remaining]

theorem keysetPage_fst :
    (keysetPage key listing position limit).1 = (remaining key listing position).take limit := by
  rw [keysetPage, List.take_take, Nat.min_eq_left (Nat.le_succ limit)]

theorem keysetPage_snd :
    (keysetPage key listing position limit).2 = true ↔
      limit < (remaining key listing position).length := by
  simp only [keysetPage, List.length_take, decide_eq_true_eq]
  omega

/-- The last page is all that remains. -/
theorem keysetPage_fst_of_not_more (h : (keysetPage key listing position limit).2 = false) :
    (keysetPage key listing position limit).1 = remaining key listing position := by
  rw [keysetPage_fst]
  refine List.take_of_length_le (Nat.not_lt.mp fun hlt => ?_)
  rw [keysetPage_snd.mpr hlt] at h
  cases h

/-- A page with more to come has a last row. -/
theorem exists_last_of_more (hlimit : 0 < limit)
    (h : (keysetPage key listing position limit).2 = true) :
    ∃ last, (keysetPage key listing position limit).1.getLast? = some last := by
  have hlt := keysetPage_snd.mp h
  have hne : (keysetPage key listing position limit).1 ≠ [] := by
    rw [keysetPage_fst]
    refine List.ne_nil_of_length_pos ?_
    rw [List.length_take]
    omega
  exact ⟨_, List.getLast?_eq_some_getLast hne⟩

end Page

/-- Rows in the order of their keys, no two of one key. -/
abbrev Ordered (key : α → K) (listing : List α) : Prop :=
  listing.Pairwise fun a b => key a < key b

section Ordered

variable {listing : List α} {position : Option K} {limit : Nat} {last : α}

theorem Ordered.remaining (h : Ordered key listing) : Ordered key (remaining key listing position) :=
  h.filter _

theorem Ordered.nodup (h : Ordered key listing) : listing.Nodup :=
  h.imp fun hlt e => absurd (congrArg key e) hlt.ne

/-- Ordered listings of the same rows are one listing. -/
theorem Ordered.eq_of_mem_iff {other : List α} (h : Ordered key listing) (h' : Ordered key other)
    (hmem : ∀ a, a ∈ listing ↔ a ∈ other) : listing = other := by
  have hperm : listing.Perm other := (List.perm_ext_iff_of_nodup h.nodup h'.nodup).mpr hmem
  exact hperm.eq_of_pairwise (fun a b _ _ hab hba => absurd hba hab.asymm) h h'

theorem Ordered.page (h : Ordered key listing) :
    Ordered key (keysetPage key listing position limit).1 := by
  rw [keysetPage_fst]
  exact h.remaining.sublist (List.take_sublist _ _)

/-- What remains beyond the last row of a page is what the page left out. -/
theorem Ordered.remaining_last (h : Ordered key listing)
    (hlast : (keysetPage key listing position limit).1.getLast? = some last) :
    Library.remaining key listing (some (key last)) =
      (Library.remaining key listing position).drop limit := by
  rw [keysetPage_fst] at hlast
  have hsplit := List.take_append_drop limit (Library.remaining key listing position)
  obtain ⟨front, hfront⟩ := List.getLast?_eq_some_iff.mp hlast
  have hlastmem : last ∈ Library.remaining key listing position :=
    List.mem_of_mem_take (List.mem_of_getLast? hlast)
  have hbeyond := (mem_remaining.mp hlastmem).2
  -- beyond the last key, only what was already beyond the position
  have hnested : Library.remaining key listing (some (key last)) =
      (Library.remaining key listing position).filter fun a => key last < key a := by
    rw [Library.remaining, Library.remaining, List.filter_filter]
    refine List.filter_congr fun a _ => ?_
    simp only [beyond_some, Bool.and_eq_decide, decide_eq_true_eq, decide_eq_decide]
    exact ⟨fun hlt => ⟨hlt, hbeyond.trans hlt⟩, fun hlt => hlt.1⟩
  have hordered : Ordered key (Library.remaining key listing position) := h.remaining
  rw [← hsplit, hfront] at hordered
  obtain ⟨hleft, -, hcross⟩ := List.pairwise_append.mp hordered
  obtain ⟨-, -, hlastafter⟩ := List.pairwise_append.mp hleft
  rw [hnested]
  conv_lhs => rw [← hsplit, hfront]
  rw [List.filter_append, List.filter_append]
  have hnone : front.filter (fun a => decide (key last < key a)) = [] := by
    refine List.filter_eq_nil_iff.mpr fun a ha => ?_
    simpa using (hlastafter a ha last (List.mem_singleton.mpr rfl)).le
  have hself : [last].filter (fun a => decide (key last < key a)) = [] := by simp
  have hall : ((Library.remaining key listing position).drop limit).filter
      (fun a => decide (key last < key a)) = (Library.remaining key listing position).drop limit := by
    refine List.filter_eq_self.mpr fun a ha => decide_eq_true ?_
    exact hcross last (List.mem_append_right _ (List.mem_singleton.mpr rfl)) a ha
  rw [hnone, hself, hall, List.nil_append, List.nil_append]

end Ordered

/-! ### Traversals -/

/-- Requests, each on its listing and with its limit, from a position to the last page; and the pages
they return. -/
inductive KeysetTraversal (key : α → K) :
    Option K → List (List α × Nat) → List (List α) → Prop where
  | last {position : Option K} {listing : List α} {limit : Nat}
      (h : (keysetPage key listing position limit).2 = false) :
      KeysetTraversal key position [(listing, limit)] [(keysetPage key listing position limit).1]
  | next {position : Option K} {listing : List α} {limit : Nat} {last : α}
      {requests : List (List α × Nat)} {pages : List (List α)}
      (h : (keysetPage key listing position limit).2 = true)
      (hlast : (keysetPage key listing position limit).1.getLast? = some last)
      (rest : KeysetTraversal key (some (key last)) requests pages) :
      KeysetTraversal key position ((listing, limit) :: requests)
        ((keysetPage key listing position limit).1 :: pages)

namespace KeysetTraversal

variable {position : Option K} {requests : List (List α × Nat)} {pages : List (List α)}

/-- Every row of a page is beyond the position, and in the listing of its request. -/
theorem mem_page {listing : List α} {limit : Nat} {a : α}
    (h : a ∈ (keysetPage key listing position limit).1) : a ∈ listing ∧ Beyond position (key a) := by
  rw [keysetPage_fst] at h
  exact mem_remaining.mp (List.mem_of_mem_take h)

theorem beyond (h : KeysetTraversal key position requests pages) :
    ∀ a ∈ pages.flatten, Beyond position (key a) := by
  induction h with
  | last h =>
      intro a ha
      rw [List.flatten_singleton] at ha
      exact (mem_page ha).2
  | next h hlast rest ih =>
      intro a ha
      rw [List.flatten_cons, List.mem_append] at ha
      rcases ha with ha | ha
      · exact (mem_page ha).2
      · exact (mem_page (List.mem_of_getLast? hlast)).2.trans (beyond_some.mp (ih a ha))

/-- A row that a traversal returns is in the listing of one of its requests. -/
theorem exists_listing (h : KeysetTraversal key position requests pages) :
    ∀ a ∈ pages.flatten, ∃ r ∈ requests, a ∈ r.1 := by
  induction h with
  | last h =>
      intro a ha
      rw [List.flatten_singleton] at ha
      exact ⟨_, List.mem_singleton.mpr rfl, (mem_page ha).1⟩
  | next h hlast rest ih =>
      intro a ha
      rw [List.flatten_cons, List.mem_append] at ha
      rcases ha with ha | ha
      · exact ⟨_, List.mem_cons_self, (mem_page ha).1⟩
      · obtain ⟨r, hr, hmem⟩ := ih a ha
        exact ⟨r, List.mem_cons_of_mem _ hr, hmem⟩

/-- **What a traversal returns is strictly ordered**, whatever happens between its requests. -/
theorem pairwise (h : KeysetTraversal key position requests pages)
    (hordered : ∀ r ∈ requests, Ordered key r.1) : Ordered key pages.flatten := by
  induction h with
  | last h =>
      rw [List.flatten_singleton]
      exact (hordered _ (List.mem_singleton.mpr rfl)).page
  | @next position listing limit last requests pages h hlast rest ih =>
      have hpage : Ordered key (keysetPage key listing position limit).1 :=
        (hordered _ List.mem_cons_self).page
      rw [List.flatten_cons]
      refine List.pairwise_append.mpr
        ⟨hpage, ih fun r hr => hordered r (List.mem_cons_of_mem _ hr), fun a ha b hb => ?_⟩
      have hb' := beyond_some.mp (rest.beyond b hb)
      obtain ⟨front, hfront⟩ := List.getLast?_eq_some_iff.mp hlast
      rw [hfront] at ha hpage
      rcases List.mem_append.mp ha with ha | ha
      · exact ((List.pairwise_append.mp hpage).2.2 a ha _ (List.mem_singleton.mpr rfl)).trans hb'
      · rw [List.mem_singleton.mp ha]
        exact hb'

/-- **Nothing that stays is lost**: a key beyond the position that is in every listing is
returned. -/
theorem exists_of_forall (h : KeysetTraversal key position requests pages)
    (hordered : ∀ r ∈ requests, Ordered key r.1) {k : K} (hk : Beyond position k)
    (hmem : ∀ r ∈ requests, ∃ a ∈ r.1, key a = k) : ∃ a ∈ pages.flatten, key a = k := by
  induction h with
  | last h =>
      obtain ⟨a, ha, rfl⟩ := hmem _ (List.mem_singleton.mpr rfl)
      refine ⟨a, ?_, rfl⟩
      rw [List.flatten_singleton, keysetPage_fst_of_not_more h]
      exact mem_remaining.mpr ⟨ha, hk⟩
  | @next position listing limit last requests pages h hlast rest ih =>
      rw [List.flatten_cons]
      by_cases hlt : key last < k
      · obtain ⟨a, ha, hak⟩ := ih (fun r hr => hordered r (List.mem_cons_of_mem _ hr))
          (beyond_some.mpr hlt) fun r hr => hmem r (List.mem_cons_of_mem _ hr)
        exact ⟨a, List.mem_append_right _ ha, hak⟩
      · obtain ⟨a, ha, rfl⟩ := hmem _ List.mem_cons_self
        refine ⟨a, List.mem_append_left _ ?_, rfl⟩
        have hrem : a ∈ remaining key listing position := mem_remaining.mpr ⟨ha, hk⟩
        rw [← List.take_append_drop limit (remaining key listing position),
          ← (hordered _ List.mem_cons_self).remaining_last hlast, ← keysetPage_fst] at hrem
        rcases List.mem_append.mp hrem with hpage | hdrop
        · exact hpage
        · exact absurd (beyond_some.mp (mem_remaining.mp hdrop).2) hlt

/-- **On one listing, the pages are that listing**, from the position on. -/
theorem flatten_eq {listing : List α} (h : KeysetTraversal key position requests pages)
    (hordered : Ordered key listing) (hfixed : ∀ r ∈ requests, r.1 = listing) :
    pages.flatten = remaining key listing position := by
  induction h with
  | last h =>
      cases hfixed _ (List.mem_singleton.mpr rfl)
      rw [List.flatten_singleton, keysetPage_fst_of_not_more h]
  | @next position listing' limit last requests pages h hlast rest ih =>
      cases hfixed _ List.mem_cons_self
      rw [List.flatten_cons, ih fun r hr => hfixed r (List.mem_cons_of_mem _ hr),
        hordered.remaining_last hlast, keysetPage_fst, List.take_append_drop]

end KeysetTraversal

/-- **A traversal of one listing comes to its end**, with any limits above zero, in no more requests
than there are rows to return, and one. -/
theorem exists_keysetTraversal {listing : List α} (hordered : Ordered key listing)
    (limits : Nat → Nat) (hpos : ∀ i, 0 < limits i) (position : Option K) :
    ∃ n pages, n ≤ (remaining key listing position).length + 1 ∧
      KeysetTraversal key position ((List.range n).map fun i => (listing, limits i)) pages := by
  -- by the number of rows that remain, which a page that is not the last one lowers
  induction hn : (remaining key listing position).length using Nat.strong_induction_on
    generalizing position limits with
  | _ n ih =>
      cases hmore : (keysetPage key listing position (limits 0)).2 with
      | false => exact ⟨1, _, Nat.le_add_left 1 n, .last hmore⟩
      | true =>
          have hlt := keysetPage_snd.mp hmore
          obtain ⟨last, hlast⟩ := exists_last_of_more (hpos 0) hmore
          have hlength : (remaining key listing (some (key last))).length = n - limits 0 := by
            rw [hordered.remaining_last hlast, List.length_drop, hn]
          have hpos0 := hpos 0
          obtain ⟨m, pages, hm, htraversal⟩ := ih (n - limits 0) (by omega) (fun i => limits (i + 1))
            (fun i => hpos (i + 1)) (some (key last)) hlength
          refine ⟨m + 1, (keysetPage key listing position (limits 0)).1 :: pages, by omega, ?_⟩
          rw [List.range_succ_eq_map, List.map_cons, List.map_map]
          exact .next hmore hlast htraversal

end Library
