import NycPropertyResolver.Library.Table

/-!
# Library — grouping

Rows gathered under keys, in the order they come: `push` opens a group where there is none,
`pushKnown` drops the row of a key without a group.  `setAll` merges the results of one lookup into
those of the lookups before it, and `foldlM_setAll` is what a lookup chunk by chunk leaves.
-/

namespace Library

namespace Table

variable {κ α β ε : Type} [DecidableEq κ]

/-! ### Groups -/

/-- Add a value to the group of a key. -/
def push (t : Table κ (List α)) (k : κ) (a : α) : Table κ (List α) :=
  t.set k ((t.find k).getD [] ++ [a])

/-- Add a value to the group of a key, if there is such a group. -/
def pushKnown (t : Table κ (List α)) (k : κ) (a : α) : Table κ (List α) :=
  t.modify k (· ++ [a])

/-- Add the value of a row to the group of its key, if it has one. -/
def pushRow (key : β → Option (κ × α)) (t : Table κ (List α)) (x : β) : Table κ (List α) :=
  match key x with
  | some (k, a) => t.push k a
  | none => t

/-- Add the value of a row to the group of its key, if there is such a group. -/
def pushKnownRow (key : β → Option (κ × α)) (t : Table κ (List α)) (x : β) : Table κ (List α) :=
  match key x with
  | some (k, a) => t.pushKnown k a
  | none => t

/-- The values of a group, in the order they came. -/
theorem getD_find_foldl_pushRow (key : β → Option (κ × α)) (k : κ) : ∀ (xs : List β)
    (t : Table κ (List α)), ((xs.foldl (pushRow key) t).find k).getD [] =
        (t.find k).getD [] ++ xs.filterMap fun x =>
          (key x).bind fun p => if p.1 = k then some p.2 else none := by
  intro xs
  induction xs with
  | nil => intro t; simp
  | cons x xs ih =>
      intro t
      rw [List.foldl_cons, ih, List.filterMap_cons]
      cases hx : key x with
      | none => simp [pushRow, hx]
      | some p =>
          by_cases hk : p.1 = k
          · simp [pushRow, hx, push, hk]
          · simp [pushRow, hx, push, find_set, hk, Ne.symm hk]

/-- A group that is there grows by the values of its key. -/
theorem find_foldl_pushKnownRow (key : β → Option (κ × α)) (k : κ) : ∀ (xs : List β)
    (t : Table κ (List α)), (xs.foldl (pushKnownRow key) t).find k =
        (t.find k).map (· ++ xs.filterMap fun x =>
          (key x).bind fun p => if p.1 = k then some p.2 else none) := by
  intro xs
  induction xs with
  | nil => intro t; simp
  | cons x xs ih =>
      intro t
      rw [List.foldl_cons, ih, List.filterMap_cons]
      cases hx : key x with
      | none => simp [pushKnownRow, hx]
      | some p =>
          by_cases hk : p.1 = k
          · cases ht : t.find k <;> simp [pushKnownRow, hx, pushKnown, hk, ht]
          · simp [pushKnownRow, hx, pushKnown, find_modify, hk, Ne.symm hk]

/-! ### Results -/

/-- One row for each key. -/
def ofKeys (ks : List κ) (f : κ → α) : Table κ α := ks.foldl (fun t k => t.set k (f k)) empty

theorem find_foldl_set (f : κ → α) (j : κ) : ∀ (ks : List κ) (t : Table κ α),
    (ks.foldl (fun t k => t.set k (f k)) t).find j = if j ∈ ks then some (f j) else t.find j := by
  intro ks
  induction ks with
  | nil => intro t; simp
  | cons k ks ih =>
      intro t
      rw [List.foldl_cons, ih]
      by_cases hj : j ∈ ks
      · simp [hj]
      · by_cases hk : j = k
        · subst hk; simp [hj]
        · simp [hj, hk, find_set]

@[simp] theorem find_ofKeys (ks : List κ) (f : κ → α) (j : κ) :
    (ofKeys ks f).find j = if j ∈ ks then some (f j) else none :=
  find_foldl_set f j ks empty

/-- Insert or replace every row of another table. -/
def setAll (t : Table κ α) (rows : Table κ α) : Table κ α :=
  rows.rows.foldl (fun t row => t.set row.1 row.2) t

/-- The rows of the other table win. -/
theorem find_setAll (t rows : Table κ α) (j : κ) :
    (t.setAll rows).find j = (rows.find j).or (t.find j) := by
  have hfold : ∀ (ps : List (κ × α)) (t : Table κ α),
      (∀ p ∈ ps, rows.find p.1 = some p.2) →
        (ps.foldl (fun t row => t.set row.1 row.2) t).find j =
          if j ∈ ps.map Prod.fst then rows.find j else t.find j := by
    intro ps
    induction ps with
    | nil => intro t _; simp
    | cons p ps ih =>
        intro t hps
        rw [List.foldl_cons, ih _ fun q hq => hps q (List.mem_cons_of_mem _ hq)]
        by_cases hj : j ∈ ps.map Prod.fst
        · rw [if_pos hj, List.map_cons, if_pos (List.mem_cons_of_mem _ hj)]
        · by_cases hp : j = p.1
          · rw [if_neg hj, if_pos (by simp [hp]), hp, find_set_self, hps p List.mem_cons_self]
          · rw [if_neg hj, find_set_ne hp, if_neg]
            rw [List.map_cons, List.mem_cons]
            exact not_or.mpr ⟨hp, hj⟩
  have hmem : j ∈ rows.rows.map Prod.fst ↔ rows.find j ≠ none := by
    rw [List.mem_map, Option.ne_none_iff_exists']
    constructor
    · rintro ⟨p, hp, rfl⟩
      exact ⟨p.2, mem_rows.mp hp⟩
    · rintro ⟨a, ha⟩
      exact ⟨(j, a), mem_rows.mpr ha, rfl⟩
  rw [setAll, hfold rows.rows t fun p hp => mem_rows.mp hp]
  cases hr : rows.find j with
  | none => rw [if_neg (by rw [hmem]; simp [hr])]; rfl
  | some a => rw [if_pos (hmem.mpr (by simp [hr]))]; rfl

/-- **A lookup chunk by chunk**: no key is in two chunks, so each is left with the result of its
own. -/
theorem foldlM_setAll (lookup : List κ → Except ε (Table κ α)) {f : List κ → κ → α} :
    ∀ {cs : List (List κ)} (t : Table κ α), cs.flatten.Nodup →
      (∀ c ∈ cs, ∃ r, lookup c = .ok r ∧ ∀ k, r.find k = if k ∈ c then some (f c k) else none) →
        ∃ r, cs.foldlM (fun t c => do
            let r ← lookup c
            Except.ok (t.setAll r)) t = .ok r ∧
          (∀ c ∈ cs, ∀ k ∈ c, r.find k = some (f c k)) ∧
            ∀ k, k ∉ cs.flatten → r.find k = t.find k := by
  intro cs
  induction cs with
  | nil => intro t _ _; exact ⟨t, rfl, by simp, fun _ _ => rfl⟩
  | cons c cs ih =>
      intro t hnd hlookup
      obtain ⟨r₁, h₁, hf₁⟩ := hlookup c List.mem_cons_self
      rw [List.flatten_cons, List.nodup_append] at hnd
      obtain ⟨hc, hcs, hdisj⟩ := hnd
      obtain ⟨r, h, hf, hkeep⟩ := ih (t.setAll r₁) hcs fun c' hc' =>
        hlookup c' (List.mem_cons_of_mem _ hc')
      refine ⟨r, ?_, ?_, ?_⟩
      · rw [List.foldlM_cons, h₁]
        exact h
      · intro c' hc' k hk
        rcases List.mem_cons.mp hc' with rfl | hc'
        · have hout : k ∉ cs.flatten := fun hin => hdisj k hk k hin rfl
          rw [hkeep k hout, find_setAll, hf₁, if_pos hk]
          rfl
        · exact hf c' hc' k hk
      · intro k hk
        rw [List.flatten_cons, List.mem_append, not_or] at hk
        rw [hkeep k hk.2, find_setAll, hf₁, if_neg hk.1]
        rfl

/-- The groups of a lookup, added to those of the lookups before it. -/
def appendGroups (t groups : Table κ (List α)) : Table κ (List α) :=
  t.modifyAll fun k values => values ++ (groups.find k).getD []

omit [DecidableEq κ] in
/-- **Gathering chunk by chunk**: `values r k` is what the result `r` of a chunk adds to the group of
`k`.  No key is in two chunks, so each is left with what its own adds. -/
theorem foldlM_gather {δ : Type} (lookup : List κ → Except ε δ)
    (join : Table κ (List α) → δ → Table κ (List α)) (values : δ → κ → List α)
    (hjoin : ∀ t r k, (join t r).find k = (t.find k).map (· ++ values r k)) :
    ∀ {cs : List (List κ)} (t : Table κ (List α)), cs.flatten.Nodup →
      (∀ c ∈ cs, ∃ r, lookup c = .ok r ∧ ∀ k, k ∉ c → values r k = []) →
        ∃ t', cs.foldlM (fun t c => do
            let r ← lookup c
            Except.ok (join t r)) t = .ok t' ∧
          (∀ c ∈ cs, ∀ r, lookup c = .ok r → ∀ k ∈ c,
            t'.find k = (t.find k).map (· ++ values r k)) ∧
            ∀ k, k ∉ cs.flatten → t'.find k = t.find k := by
  intro cs
  induction cs with
  | nil => intro t _ _; exact ⟨t, rfl, by simp, fun _ _ => rfl⟩
  | cons c cs ih =>
      intro t hnd hlookup
      obtain ⟨r₁, h₁, hout₁⟩ := hlookup c List.mem_cons_self
      rw [List.flatten_cons, List.nodup_append] at hnd
      obtain ⟨hc, hcs, hdisj⟩ := hnd
      have hkeep₁ : ∀ k, k ∉ c → (join t r₁).find k = t.find k := by
        intro k hk
        rw [hjoin, hout₁ k hk]
        simp
      obtain ⟨t', h, hof, hkeep⟩ := ih (join t r₁) hcs fun c' hc' =>
        hlookup c' (List.mem_cons_of_mem _ hc')
      refine ⟨t', ?_, ?_, ?_⟩
      · rw [List.foldlM_cons, h₁]
        exact h
      · intro c' hc' r hr k hk
        rcases List.mem_cons.mp hc' with rfl | hc'
        · rw [h₁] at hr
          cases hr
          rw [hkeep k fun hin => hdisj k hk k hin rfl, hjoin]
        · have hnot : k ∉ c := fun hin =>
            hdisj k hin k (List.mem_flatten.mpr ⟨c', hc', hk⟩) rfl
          rw [hof c' hc' r hr k hk, hkeep₁ k hnot]
      · intro k hk
        rw [List.flatten_cons, List.mem_append, not_or] at hk
        rw [hkeep k hk.2, hkeep₁ k hk.1]

/-- A lookup that fails for one chunk fails for all. -/
theorem foldlM_error {σ γ δ : Type} (lookup : γ → Except ε δ) (join : σ → δ → σ) {cs : List γ} {c : γ}
    (hc : c ∈ cs) {e : ε} (h : lookup c = .error e) : ∀ s, ∃ e, cs.foldlM (fun s c => do
      let r ← lookup c
      Except.ok (join s r)) s = .error e := by
  induction cs with
  | nil => cases hc
  | cons d ds ih =>
      intro s
      rw [List.foldlM_cons]
      cases hd : lookup d with
      | error e => exact ⟨e, rfl⟩
      | ok r =>
          rcases List.mem_cons.mp hc with rfl | hc
          · rw [h] at hd
            cases hd
          · exact ih hc (join s r)

end Table

end Library
