import Mathlib.Algebra.Order.BigOperators.Group.List
import NycPropertyResolver.Library.Paging
import NycPropertyResolver.Library.SortedSet

/-!
# Library — orders with ties

Rows are ordered by a rank that leaves ties, and a slice `[lo, hi)` of the ordering is read.  Every
ordering puts the same number of rows of each rank into the slice, but which of them is open.
`securedOn` counts the rows with a property that every ordering puts there: of the rows of one rank,
those that no choice of the others can keep out.

* `securedOn_le_countP`: every ordering puts so many into the slice.
* `exists_ordering_countP_le`: some ordering puts no more.
-/

namespace Library

variable {ρ κ : Type} [LinearOrder κ]

section Ties

variable (rank : ρ → κ) (p : ρ → Bool) (rows : List ρ) (lo hi : Nat)

/-! ### Groups -/

/-- The rows of a rank. -/
def groupSize (v : κ) : Nat := rows.countP fun r => rank r = v

/-- The rows of lower ranks. -/
def groupStart (v : κ) : Nat := rows.countP fun r => rank r < v

/-- The rows of a rank with the property. -/
def groupCount (v : κ) : Nat := rows.countP fun r => decide (rank r = v) && p r

/-- The rows of a rank in the slice. -/
def groupOnSlice (v : κ) : Nat :=
  min (hi - groupStart rank rows v) (groupSize rank rows v) -
    min (lo - groupStart rank rows v) (groupSize rank rows v)

/-- The ranks in use. -/
def ranks : List κ := (SortedSet.ofList (rows.map rank)).toList

/-- The rows with the property that every ordering puts into the slice. -/
def securedOn : Nat :=
  ((ranks rank rows).map fun v =>
    groupCount rank p rows v + groupOnSlice rank rows lo hi v - groupSize rank rows v).sum

end Ties

variable {rank : ρ → κ} {p : ρ → Bool} {rows ordered : List ρ} {lo hi : Nat}

theorem rank_mem_ranks {r : ρ} (h : r ∈ rows) : rank r ∈ ranks rank rows :=
  SortedSet.mem_ofList.mpr (List.mem_map_of_mem h)

theorem ranks_nodup : (ranks rank rows).Nodup := SortedSet.nodup _

/-! ### Counting by rank -/

theorem sum_map_single {vs : List κ} (hnd : vs.Nodup) {a : κ} (ha : a ∈ vs) (c : Nat) :
    (vs.map fun v => if v = a then c else 0).sum = c := by
  induction vs with
  | nil => cases ha
  | cons v vs ih =>
      obtain ⟨hv, hvs⟩ := List.nodup_cons.mp hnd
      rw [List.map_cons, List.sum_cons]
      rcases List.mem_cons.mp ha with rfl | ha
      · have hzero : ∀ w ∈ vs, (if w = a then c else 0) = 0 := by
          intro w hw
          rw [if_neg]
          rintro rfl
          exact hv hw
        rw [if_pos rfl, List.map_congr_left hzero]
        simp
      · have hne : v ≠ a := by
          rintro rfl
          exact hv ha
        rw [if_neg hne, ih hvs ha, Nat.zero_add]

/-- A count is the sum of its counts by rank. -/
theorem countP_eq_sum {vs : List κ} (hnd : vs.Nodup) {xs : List ρ} (h : ∀ x ∈ xs, rank x ∈ vs) :
    xs.countP p = (vs.map fun v => groupCount rank p xs v).sum := by
  induction xs with
  | nil =>
      have hzero : ∀ v ∈ vs, groupCount rank p ([] : List ρ) v = 0 := fun _ _ => rfl
      rw [List.map_congr_left hzero]
      simp
  | cons x xs ih =>
      have hcons : ∀ v ∈ vs, groupCount rank p (x :: xs) v =
          groupCount rank p xs v + if v = rank x then (if p x then 1 else 0) else 0 := by
        intro v _
        rw [groupCount, List.countP_cons, groupCount]
        by_cases hv : v = rank x
        · subst hv
          simp
        · simp [hv, Ne.symm hv]
      rw [List.countP_cons, ih fun y hy => h y (List.mem_cons_of_mem _ hy),
        List.map_congr_left hcons, List.sum_map_add]
      rw [sum_map_single hnd (h x List.mem_cons_self)]

/-- The rows of a rank with the property, and those without, are its rows. -/
theorem groupCount_add_not (rank : ρ → κ) (p : ρ → Bool) (xs : List ρ) (v : κ) :
    groupCount rank p xs v + groupCount rank (fun r => !p r) xs v = groupSize rank xs v := by
  induction xs with
  | nil => rfl
  | cons x xs ih =>
      simp only [groupCount, groupSize, List.countP_cons] at ih ⊢
      by_cases hv : rank x = v
      · cases hp : p x <;> simp [hv] <;> omega
      · simpa [hv] using ih

/-- The rows of a rank in the slice of an ordering. -/
theorem groupSize_slice (hperm : ordered.Perm rows) (hsorted : ordered.Pairwise fun r s => rank r ≤ rank s)
    (hle : lo ≤ hi) (v : κ) :
    groupSize rank ((ordered.take hi).drop lo) v = groupOnSlice rank rows lo hi v := by
  have hsplit : groupSize rank (ordered.take lo) v + groupSize rank ((ordered.take hi).drop lo) v =
      groupSize rank (ordered.take hi) v := by
    have happend := List.take_append_drop lo (ordered.take hi)
    rw [List.take_take, Nat.min_eq_left hle] at happend
    rw [groupSize, groupSize, ← List.countP_append, happend]
    rfl
  have htake : ∀ n, groupSize rank (ordered.take n) v =
      min (n - groupStart rank rows v) (groupSize rank rows v) := by
    intro n
    rw [groupSize, countP_take_of_sorted hsorted, hperm.countP_eq, hperm.countP_eq]
    rfl
  rw [htake, htake] at hsplit
  rw [groupOnSlice]
  omega

/-- **Every ordering puts the secured rows into the slice.** -/
theorem securedOn_le_countP (hperm : ordered.Perm rows)
    (hsorted : ordered.Pairwise fun r s => rank r ≤ rank s) (hle : lo ≤ hi) :
    securedOn rank p rows lo hi ≤ ((ordered.take hi).drop lo).countP p := by
  have hmem : ∀ r ∈ (ordered.take hi).drop lo, rank r ∈ ranks rank rows := by
    intro r hr
    exact rank_mem_ranks (hperm.mem_iff.mp (List.mem_of_mem_take (List.mem_of_mem_drop hr)))
  rw [securedOn, countP_eq_sum ranks_nodup hmem]
  refine List.sum_le_sum fun v _ => ?_
  have hslice := groupSize_slice hperm hsorted hle v
  have hparts := groupCount_add_not rank p ((ordered.take hi).drop lo) v
  have hall := groupCount_add_not rank p rows v
  -- the rows without the property are no more than there are
  have hothers : groupCount rank (fun r => !p r) ((ordered.take hi).drop lo) v ≤
      groupCount rank (fun r => !p r) rows v := by
    rw [groupCount, groupCount, ← hperm.countP_eq]
    exact List.Sublist.countP_le ((List.drop_sublist _ _).trans (List.take_sublist _ _))
  omega

theorem exists_pos_of_sum_pos {ns : List Nat} (h : 0 < ns.sum) : ∃ n ∈ ns, 0 < n := by
  by_contra hnone
  have hzero : ns.sum = 0 := by
    refine List.sum_eq_zero fun n hn => ?_
    by_contra hne
    exact hnone ⟨n, hn, Nat.pos_of_ne_zero hne⟩
  omega

/-- A single row that is secured on a slice is on no other. -/
theorem countP_eq_zero_of_secured (hone : rows.countP p = 1) (hpos : 0 < securedOn rank p rows lo hi)
    {lo' hi' : Nat} (hle' : lo' ≤ hi') (hdisj : hi ≤ lo' ∨ hi' ≤ lo) (hperm : ordered.Perm rows)
    (hsorted : ordered.Pairwise fun r s => rank r ≤ rank s) :
    ((ordered.take hi').drop lo').countP p = 0 := by
  obtain ⟨n, hn, hnpos⟩ := exists_pos_of_sum_pos hpos
  obtain ⟨v, -, rfl⟩ := List.mem_map.mp hn
  obtain ⟨only, honly⟩ := List.length_eq_one_iff.mp (List.countP_eq_length_filter.symm.trans hone)
  have hatMost : groupCount rank p rows v ≤ 1 := by
    rw [← hone]
    exact List.countP_mono_left fun r _ h => (Bool.and_eq_true_iff.mp h).2
  have hfull : groupOnSlice rank rows lo hi v = groupSize rank rows v ∧
      0 < groupCount rank p rows v := by
    simp only [groupOnSlice] at hnpos ⊢
    omega
  -- its row is of that rank
  have hrank : rank only = v := by
    obtain ⟨r, hr, hpr⟩ := List.countP_pos_iff.mp hfull.2
    obtain ⟨hv, hp⟩ := Bool.and_eq_true_iff.mp hpr
    have hmem : r ∈ rows.filter p := List.mem_filter.mpr ⟨hr, hp⟩
    rw [honly, List.mem_singleton] at hmem
    rw [← hmem]
    exact of_decide_eq_true hv
  have hnone : groupSize rank ((ordered.take hi').drop lo') v = 0 := by
    rw [groupSize_slice hperm hsorted hle']
    have h := hfull.1
    simp only [groupOnSlice] at h ⊢
    omega
  rw [List.countP_eq_zero]
  intro r hr hp
  have hmem : r ∈ rows.filter p := List.mem_filter.mpr
    ⟨hperm.mem_iff.mp (List.mem_of_mem_take (List.mem_of_mem_drop hr)), hp⟩
  rw [honly, List.mem_singleton] at hmem
  have hcount := List.countP_eq_zero.mp hnone r hr
  exact hcount (decide_eq_true (by rw [hmem, hrank]))

/-! ### The ordering that keeps them out -/

section Worst

variable (rank p rows lo)

/-- The rows of a rank: those with the property first, as far as the rows before the slice go, then
those without, then the rest. -/
def worstGroup (v : κ) : List ρ :=
  let withP := rows.filter fun r => decide (rank r = v) && p r
  let withoutP := rows.filter fun r => decide (rank r = v) && !p r
  let before := lo - groupStart rank rows v
  withP.take before ++ (withoutP ++ withP.drop before)

/-- The ordering that puts them together. -/
def worstOrder : List ρ := (ranks rank rows).flatMap (worstGroup rank p rows lo)

end Worst

theorem rank_of_mem_worstGroup {v : κ} {r : ρ} (h : r ∈ worstGroup rank p rows lo v) : rank r = v := by
  rw [worstGroup, List.mem_append, List.mem_append] at h
  rcases h with h | h | h
  · have hf := (List.mem_filter.mp (List.mem_of_mem_take h)).2
    exact of_decide_eq_true (Bool.and_eq_true_iff.mp hf).1
  · have hf := (List.mem_filter.mp h).2
    exact of_decide_eq_true (Bool.and_eq_true_iff.mp hf).1
  · have hf := (List.mem_filter.mp (List.mem_of_mem_drop h)).2
    exact of_decide_eq_true (Bool.and_eq_true_iff.mp hf).1

theorem worstGroup_perm (v : κ) :
    (worstGroup rank p rows lo v).Perm (rows.filter fun r => rank r = v) := by
  have hsplit := List.filter_append_perm p (rows.filter fun r => rank r = v)
  rw [List.filter_filter, List.filter_filter] at hsplit
  have hwith : rows.filter (fun r => p r && decide (rank r = v)) =
      rows.filter fun r => decide (rank r = v) && p r :=
    List.filter_congr fun r _ => Bool.and_comm _ _
  have hwithout : rows.filter (fun r => (!p r) && decide (rank r = v)) =
      rows.filter fun r => decide (rank r = v) && !p r :=
    List.filter_congr fun r _ => Bool.and_comm _ _
  rw [hwith, hwithout] at hsplit
  refine List.Perm.trans ?_ hsplit
  rw [worstGroup]
  refine (List.perm_append_comm_assoc _ _ _).trans ?_
  rw [List.take_append_drop]
  exact List.perm_append_comm

/-- Rows are those of one rank after another. -/
theorem perm_flatMap_filter {vs : List κ} (hnd : vs.Nodup) :
    ∀ {xs : List ρ}, (∀ x ∈ xs, rank x ∈ vs) →
      (vs.flatMap fun v => xs.filter fun r => rank r = v).Perm xs := by
  induction vs with
  | nil =>
      intro xs h
      cases xs with
      | nil => exact .refl _
      | cons x xs => exact absurd (h x List.mem_cons_self) (List.not_mem_nil)
  | cons v vs ih =>
      intro xs h
      obtain ⟨hv, hvs⟩ := List.nodup_cons.mp hnd
      have hrest : ∀ x ∈ xs.filter (fun r => !decide (rank r = v)), rank x ∈ vs := by
        intro x hx
        obtain ⟨hxs, hne⟩ := List.mem_filter.mp hx
        rcases List.mem_cons.mp (h x hxs) with he | hin
        · simp [he] at hne
        · exact hin
      have hgroups : ∀ w ∈ vs, (xs.filter fun r => !decide (rank r = v)).filter (fun r => rank r = w) =
          xs.filter fun r => rank r = w := by
        intro w hw
        rw [List.filter_filter]
        refine List.filter_congr fun r _ => ?_
        by_cases hr : rank r = w
        · have hne : w ≠ v := fun he => hv (he ▸ hw)
          simp [hr, hne]
        · simp [hr]
      have hperm := ih hvs hrest
      rw [List.flatMap_congr hgroups] at hperm
      rw [List.flatMap_cons]
      refine (List.Perm.append_left _ hperm).trans ?_
      exact List.filter_append_perm (fun r => decide (rank r = v)) xs

theorem worstOrder_perm : (worstOrder rank p rows lo).Perm rows :=
  (List.Perm.flatMap_left _ fun v _ => worstGroup_perm v).trans
    (perm_flatMap_filter ranks_nodup fun _ hr => rank_mem_ranks hr)

theorem worstOrder_sorted : (worstOrder rank p rows lo).Pairwise fun r s => rank r ≤ rank s := by
  rw [worstOrder, List.pairwise_flatMap]
  constructor
  · intro v _
    refine List.pairwise_of_forall_mem_list fun r hr s hs => ?_
    rw [rank_of_mem_worstGroup hr, rank_of_mem_worstGroup hs]
  · refine (SortedSet.sorted (SortedSet.ofList (rows.map rank))).imp ?_
    intro v w hvw r hr s hs
    rw [rank_of_mem_worstGroup hr, rank_of_mem_worstGroup hs]
    exact hvw.le

theorem filter_flatMap_rank {g : κ → List ρ} (hg : ∀ v, ∀ r ∈ g v, rank r = v) {vs : List κ}
    (hnd : vs.Nodup) {v : κ} (hv : v ∈ vs) : (vs.flatMap g).filter (fun r => rank r = v) = g v := by
  induction vs with
  | nil => cases hv
  | cons w vs ih =>
      obtain ⟨hw, hvs⟩ := List.nodup_cons.mp hnd
      rw [List.flatMap_cons, List.filter_append]
      rcases List.mem_cons.mp hv with rfl | hv
      · have hself : (g v).filter (fun r => rank r = v) = g v := by
          rw [List.filter_eq_self]
          intro r hr
          simp [hg v r hr]
        have hrest : (vs.flatMap g).filter (fun r => rank r = v) = [] := by
          rw [List.filter_eq_nil_iff]
          intro r hr
          obtain ⟨u, hu, hru⟩ := List.mem_flatMap.mp hr
          rw [hg u r hru, decide_eq_true_eq]
          rintro rfl
          exact hw hu
        rw [hself, hrest, List.append_nil]
      · have hnone : (g w).filter (fun r => rank r = v) = [] := by
          rw [List.filter_eq_nil_iff]
          intro r hr
          rw [hg w r hr, decide_eq_true_eq]
          rintro rfl
          exact hw hv
        rw [hnone, List.nil_append, ih hvs hv]

/-- The rows with the property in a prefix of a group of the ordering. -/
theorem countP_take_worstGroup (v : κ) (n : Nat) :
    ((worstGroup rank p rows lo v).take n).countP p =
      min n (min (lo - groupStart rank rows v) (groupCount rank p rows v)) +
        min (n - (min (lo - groupStart rank rows v) (groupCount rank p rows v) +
            groupCount rank (fun r => !p r) rows v))
          (groupCount rank p rows v - (lo - groupStart rank rows v)) := by
  have hall : ∀ {xs : List ρ}, (∀ r ∈ xs, p r = true) → xs.countP p = xs.length := by
    intro xs h
    exact List.countP_eq_length.mpr h
  have hwith : ∀ r ∈ rows.filter (fun r => decide (rank r = v) && p r), p r = true := by
    intro r hr
    exact (Bool.and_eq_true_iff.mp (List.mem_filter.mp hr).2).2
  have hwithout : ∀ n, ((rows.filter fun r => decide (rank r = v) && !p r).take n).countP p = 0 := by
    intro n
    rw [List.countP_eq_zero]
    intro r hr
    have hnot := (Bool.and_eq_true_iff.mp (List.mem_filter.mp (List.mem_of_mem_take hr)).2).2
    simpa using hnot
  rw [worstGroup, List.take_append, List.take_append, List.countP_append, List.countP_append,
    hwithout, hall fun r hr => hwith r (List.mem_of_mem_take (List.mem_of_mem_take hr)),
    hall fun r hr => hwith r (List.mem_of_mem_drop (List.mem_of_mem_take hr))]
  simp only [List.length_take, List.length_drop, ← List.countP_eq_length_filter, groupCount]
  omega

/-- **Some ordering puts no more than the secured rows into the slice.** -/
theorem exists_ordering_countP_le (hle : lo ≤ hi) :
    ∃ ordered : List ρ, ordered.Perm rows ∧ (ordered.Pairwise fun r s => rank r ≤ rank s) ∧
      ((ordered.take hi).drop lo).countP p ≤ securedOn rank p rows lo hi := by
  refine ⟨worstOrder rank p rows lo, worstOrder_perm, worstOrder_sorted, ?_⟩
  have hmem : ∀ r ∈ ((worstOrder rank p rows lo).take hi).drop lo, rank r ∈ ranks rank rows := by
    intro r hr
    exact rank_mem_ranks (worstOrder_perm.mem_iff.mp (List.mem_of_mem_take (List.mem_of_mem_drop hr)))
  rw [securedOn, countP_eq_sum ranks_nodup hmem]
  refine List.sum_le_sum fun v hv => ?_
  have hgroup : (worstOrder rank p rows lo).filter (fun r => rank r = v) =
      worstGroup rank p rows lo v :=
    filter_flatMap_rank (fun _ _ hr => rank_of_mem_worstGroup hr) ranks_nodup hv
  have htake : ∀ n, groupCount rank p ((worstOrder rank p rows lo).take n) v =
      ((worstGroup rank p rows lo v).take (n - groupStart rank rows v)).countP p := by
    intro n
    have hsorted : (worstOrder rank p rows lo).Pairwise fun r s => rank r ≤ rank s :=
      worstOrder_sorted
    have hfilter := filter_take_of_sorted hsorted v n
    rw [worstOrder_perm.countP_eq, hgroup] at hfilter
    rw [groupStart, ← hfilter, List.countP_filter, groupCount]
    exact List.countP_congr fun r _ => by rw [Bool.and_comm]
  have hsplit : groupCount rank p ((worstOrder rank p rows lo).take lo) v +
      groupCount rank p (((worstOrder rank p rows lo).take hi).drop lo) v =
        groupCount rank p ((worstOrder rank p rows lo).take hi) v := by
    have happend := List.take_append_drop lo ((worstOrder rank p rows lo).take hi)
    rw [List.take_take, Nat.min_eq_left hle] at happend
    rw [groupCount, groupCount, ← List.countP_append, happend]
    rfl
  rw [htake, htake, countP_take_worstGroup, countP_take_worstGroup] at hsplit
  have hsize := groupCount_add_not rank p rows v
  rw [groupOnSlice]
  omega

end Library
