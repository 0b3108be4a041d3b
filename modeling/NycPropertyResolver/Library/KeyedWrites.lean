import NycPropertyResolver.Library.Table

/-!
# Library — keyed writes

A list of writes, each a value at a key, meets a table under one of two policies: the first write at
a key stays (`keep`), or the last one does (`set`).  `firstAt` and `lastAt` say what the table reads
afterwards.  Under both policies the writes of a list may be begun any number of times before the
whole list is written, and the table reads as if it had been written once (`firstAt_replay`,
`lastAt_replay`).
-/

namespace Library

variable {κ α β : Type} [DecidableEq κ]

/-- The first value written at `k`. -/
def firstAt (k : κ) : List (κ × α) → Option α
  | [] => none
  | w :: ws => if w.1 = k then some w.2 else firstAt k ws

/-- The last value written at `k`. -/
def lastAt (k : κ) : List (κ × α) → Option α
  | [] => none
  | w :: ws => (lastAt k ws).or (if w.1 = k then some w.2 else none)

section Lists

variable {k : κ} {ws ws' begun : List (κ × α)}

@[simp] theorem firstAt_nil : firstAt k ([] : List (κ × α)) = none := rfl

@[simp] theorem lastAt_nil : lastAt k ([] : List (κ × α)) = none := rfl

theorem firstAt_cons {w : κ × α} :
    firstAt k (w :: ws) = (if w.1 = k then some w.2 else none).or (firstAt k ws) := by
  by_cases h : w.1 = k
  · simp [firstAt, h]
  · simp [firstAt, h]

theorem lastAt_cons {w : κ × α} :
    lastAt k (w :: ws) = (lastAt k ws).or (if w.1 = k then some w.2 else none) := rfl

theorem firstAt_append : firstAt k (ws ++ ws') = (firstAt k ws).or (firstAt k ws') := by
  induction ws with
  | nil => simp
  | cons w ws ih => rw [List.cons_append, firstAt_cons, firstAt_cons, ih, Option.or_assoc]

theorem lastAt_append : lastAt k (ws ++ ws') = (lastAt k ws').or (lastAt k ws) := by
  induction ws with
  | nil => simp
  | cons w ws ih => rw [List.cons_append, lastAt_cons, lastAt_cons, ih, Option.or_assoc]

/-- The last value at a key is of a write of the list. -/
theorem mem_of_lastAt {a : α} (h : lastAt k ws = some a) : (k, a) ∈ ws := by
  induction ws with
  | nil => cases h
  | cons w ws ih =>
      rw [lastAt_cons, Option.or_eq_some_iff] at h
      rcases h with h | ⟨-, h⟩
      · exact List.mem_cons_of_mem _ (ih h)
      · split at h
        · rename_i hk
          cases h
          rw [← hk]
          exact List.mem_cons_self
        · cases h

/-- A key without a last value is written nowhere. -/
theorem ne_of_lastAt_eq_none (h : lastAt k ws = none) : ∀ w ∈ ws, w.1 ≠ k := by
  induction ws with
  | nil => exact fun _ hw => nomatch hw
  | cons w ws ih =>
      rw [lastAt_cons, Option.or_eq_none_iff] at h
      intro w' hw'
      rcases List.mem_cons.mp hw' with rfl | hw'
      · intro hk
        rw [if_pos hk] at h
        cases h.2
      · exact ih h.1 w' hw'

/-- A first value is the first one of every continuation. -/
theorem firstAt_of_prefix (h : begun <+: ws) {a : α} (ha : firstAt k begun = some a) :
    firstAt k ws = some a := by
  obtain ⟨rest, rfl⟩ := h
  rw [firstAt_append, ha, Option.some_or]

/-- A key that a list ends up without is written in no part of it. -/
theorem lastAt_begun (h : begun <+: ws) (hn : lastAt k ws = none) : lastAt k begun = none := by
  obtain ⟨rest, rfl⟩ := h
  rw [lastAt_append, Option.or_eq_none_iff] at hn
  exact hn.2

/-- **Keeping the first write is insensitive to beginnings.** -/
theorem firstAt_replay {attempts : List (List (κ × α))} (h : ∀ begun ∈ attempts, begun <+: ws) :
    firstAt k (attempts.flatten ++ ws) = firstAt k ws := by
  induction attempts with
  | nil => rfl
  | cons begun attempts ih =>
      rw [List.flatten_cons, List.append_assoc, firstAt_append,
        ih fun b hb => h b (List.mem_cons_of_mem _ hb)]
      cases hbegun : firstAt k begun with
      | none => rw [Option.none_or]
      | some a => rw [Option.some_or, firstAt_of_prefix (h begun List.mem_cons_self) hbegun]

/-- **Keeping the last write is insensitive to beginnings.** -/
theorem lastAt_replay {attempts : List (List (κ × α))} (h : ∀ begun ∈ attempts, begun <+: ws) :
    lastAt k (attempts.flatten ++ ws) = lastAt k ws := by
  induction attempts with
  | nil => rfl
  | cons begun attempts ih =>
      rw [List.flatten_cons, List.append_assoc, lastAt_append,
        ih fun b hb => h b (List.mem_cons_of_mem _ hb)]
      cases hws : lastAt k ws with
      | none => rw [lastAt_begun (h begun List.mem_cons_self) hws, Option.or_none]
      | some a => rw [Option.some_or]

/-- What is written may be read through a function. -/
theorem firstAt_map {f : α → β} : firstAt k (ws.map fun w => (w.1, f w.2)) = (firstAt k ws).map f := by
  induction ws with
  | nil => rfl
  | cons w ws ih =>
      rw [List.map_cons, firstAt_cons, firstAt_cons, ih]
      by_cases hk : w.1 = k
      · simp [hk]
      · simp [hk]

end Lists

namespace Table

variable {t : Table κ α} {k : κ}

/-- Insert the row at `k`, or keep the one there is. -/
def keep (t : Table κ α) (k : κ) (a : α) : Table κ α :=
  match t.find k with
  | some _ => t
  | none => t.set k a

theorem find_keep {j : κ} {a : α} :
    (t.keep k a).find j = (t.find j).or (if k = j then some a else none) := by
  rw [keep]
  by_cases hj : k = j
  · subst hj
    cases hrow : t.find k with
    | none => simp
    | some b => simp [hrow]
  · rw [if_neg hj, Option.or_none]
    split
    · rfl
    · exact find_set_ne (Ne.symm hj)

/-- **The first write stays.** -/
theorem find_foldl_keepAt {ws : List (κ × α)} :
    (ws.foldl (fun t w => t.keep w.1 w.2) t).find k = (t.find k).or (firstAt k ws) := by
  induction ws generalizing t with
  | nil => simp
  | cons w ws ih => rw [List.foldl_cons, ih, find_keep, Option.or_assoc, firstAt_cons]

/-- **The last write stays.** -/
theorem find_foldl_setAt {ws : List (κ × α)} :
    (ws.foldl (fun t w => t.set w.1 w.2) t).find k = (lastAt k ws).or (t.find k) := by
  induction ws generalizing t with
  | nil => simp
  | cons w ws ih =>
      rw [List.foldl_cons, ih, lastAt_cons, Option.or_assoc, find_set]
      by_cases hk : w.1 = k
      · simp [hk]
      · simp [hk, Ne.symm hk]

end Table

end Library
