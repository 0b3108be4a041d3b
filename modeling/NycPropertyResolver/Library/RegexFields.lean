import NycPropertyResolver.Library.Regex

/-!
# Library — fields of regular expressions

Expressions that are anchored to the start of a text and read it field by field: a group that captures
so many characters of a class (`between`), or a character of its own.  Where such an expression stops
says how the text splits into fields and what each group has captured (`mem_runs_field`).
-/

namespace Library

variable {α γ : Type}

namespace Regex

/-- `r{n}`. -/
def times (r : Regex α γ) : Nat → Regex α γ
  | 0 => .empty
  | n + 1 => .seq r (times r n)

/-- `r{0,n}`, as often as it can. -/
def atMost (r : Regex α γ) : Nat → Regex α γ
  | 0 => .empty
  | n + 1 => .alt (.seq r (atMost r n)) .empty

/-- `r{m,n}`. -/
def between (r : Regex α γ) (m n : Nat) : Regex α γ := .seq (times r m) (atMost r (n - m))

/-! ### Where fields stop -/

section Fields

variable {r : Regex α γ} {c d : MatchState α γ} {p : α → Bool} {m n : Nat} {name : γ}

theorem mem_runs_times_char : d ∈ runs (times (.char p) n) c ↔
    ∃ w rest, c.ahead = w ++ rest ∧ w.length = n ∧ (∀ a ∈ w, p a = true) ∧ d = c.advance w rest := by
  induction n generalizing c with
  | zero =>
      rw [times, mem_runs_empty]
      constructor
      · rintro rfl
        exact ⟨[], d.ahead, rfl, rfl, by simp, rfl⟩
      · rintro ⟨w, rest, hahead, hlength, -, rfl⟩
        have hnil : w = [] := List.length_eq_zero_iff.mp hlength
        subst hnil
        rw [List.nil_append] at hahead
        subst hahead
        rfl
  | succ n ih =>
      rw [times, mem_runs_seq]
      constructor
      · rintro ⟨e, he, hd⟩
        obtain ⟨a, rest', hahead, ha, rfl⟩ := mem_runs_char.mp he
        obtain ⟨w, rest, hrest, hlength, hw, rfl⟩ := ih.mp hd
        rw [MatchState.advance_ahead] at hrest
        exact ⟨a :: w, rest, by rw [hahead, hrest]; rfl, by rw [List.length_cons, hlength],
          List.forall_mem_cons.mpr ⟨ha, hw⟩, c.advance_advance [a] w _ rest⟩
      · rintro ⟨w, rest, hahead, hlength, hw, rfl⟩
        obtain ⟨a, w, rfl⟩ := List.exists_cons_of_length_eq_add_one hlength
        obtain ⟨ha, hw⟩ := List.forall_mem_cons.mp hw
        refine ⟨c.advance [a] (w ++ rest), mem_runs_char.mpr ⟨a, w ++ rest, hahead, ha, rfl⟩, ?_⟩
        exact ih.mpr ⟨w, rest, rfl, Nat.succ.inj hlength, hw, (c.advance_advance [a] w _ rest).symm⟩

theorem mem_runs_atMost_char : d ∈ runs (atMost (.char p) n) c ↔
    ∃ w rest, c.ahead = w ++ rest ∧ w.length ≤ n ∧ (∀ a ∈ w, p a = true) ∧ d = c.advance w rest := by
  induction n generalizing c with
  | zero =>
      rw [atMost, mem_runs_empty]
      constructor
      · rintro rfl
        exact ⟨[], d.ahead, rfl, Nat.le_refl 0, by simp, rfl⟩
      · rintro ⟨w, rest, hahead, hlength, -, rfl⟩
        have hnil : w = [] := List.length_eq_zero_iff.mp (Nat.le_zero.mp hlength)
        subst hnil
        rw [List.nil_append] at hahead
        subst hahead
        rfl
  | succ n ih =>
      rw [atMost, mem_runs_alt, mem_runs_seq, mem_runs_empty]
      constructor
      · rintro (⟨e, he, hd⟩ | rfl)
        · obtain ⟨a, rest', hahead, ha, rfl⟩ := mem_runs_char.mp he
          obtain ⟨w, rest, hrest, hlength, hw, rfl⟩ := ih.mp hd
          rw [MatchState.advance_ahead] at hrest
          exact ⟨a :: w, rest, by rw [hahead, hrest]; rfl, Nat.succ_le_succ hlength,
            List.forall_mem_cons.mpr ⟨ha, hw⟩, c.advance_advance [a] w _ rest⟩
        · exact ⟨[], d.ahead, rfl, Nat.zero_le _, by simp, rfl⟩
      · rintro ⟨w, rest, hahead, hlength, hw, rfl⟩
        cases w with
        | nil =>
            rw [List.nil_append] at hahead
            subst hahead
            exact .inr rfl
        | cons a w =>
            obtain ⟨ha, hw⟩ := List.forall_mem_cons.mp hw
            refine .inl ⟨c.advance [a] (w ++ rest),
              mem_runs_char.mpr ⟨a, w ++ rest, hahead, ha, rfl⟩, ?_⟩
            exact ih.mpr ⟨w, rest, rfl, Nat.le_of_succ_le_succ hlength, hw,
              (c.advance_advance [a] w _ rest).symm⟩

theorem mem_runs_between_char (h : m ≤ n) : d ∈ runs (between (.char p) m n) c ↔
    ∃ w rest, c.ahead = w ++ rest ∧ (m ≤ w.length ∧ w.length ≤ n) ∧ (∀ a ∈ w, p a = true) ∧
      d = c.advance w rest := by
  rw [between, mem_runs_seq]
  constructor
  · rintro ⟨e, he, hd⟩
    obtain ⟨w, rest', hahead, hlength, hw, rfl⟩ := mem_runs_times_char.mp he
    obtain ⟨w', rest, hrest, hlength', hw', rfl⟩ := mem_runs_atMost_char.mp hd
    rw [MatchState.advance_ahead] at hrest
    refine ⟨w ++ w', rest, by rw [hahead, hrest, List.append_assoc], ?_, ?_,
      c.advance_advance w w' _ rest⟩
    · rw [List.length_append]
      omega
    · intro a ha
      exact (List.mem_append.mp ha).elim (hw a) (hw' a)
  · rintro ⟨w, rest, hahead, hlength, hw, rfl⟩
    have hsplit : w.take m ++ w.drop m = w := List.take_append_drop m w
    refine ⟨c.advance (w.take m) (w.drop m ++ rest), mem_runs_times_char.mpr
      ⟨w.take m, w.drop m ++ rest, by rw [← List.append_assoc, hsplit, hahead],
        List.length_take_of_le hlength.1, fun a ha => hw a (List.mem_of_mem_take ha), rfl⟩, ?_⟩
    refine mem_runs_atMost_char.mpr ⟨w.drop m, rest, rfl, ?_,
      fun a ha => hw a (List.mem_of_mem_drop ha), ?_⟩
    · rw [List.length_drop]
      omega
    · rw [MatchState.advance_advance, hsplit]

/-- **A field**: so many characters of the class, captured, and then the rest. -/
theorem mem_runs_field (h : m ≤ n) :
    d ∈ runs (.seq (.group name (between (.char p) m n)) r) c ↔
      ∃ w rest, c.ahead = w ++ rest ∧ (m ≤ w.length ∧ w.length ≤ n) ∧ (∀ a ∈ w, p a = true) ∧
        d ∈ runs r ((c.advance w rest).capture name w) := by
  rw [mem_runs_seq]
  constructor
  · rintro ⟨e, he, hd⟩
    obtain ⟨f, hf, rfl⟩ := mem_runs_group.mp he
    obtain ⟨w, rest, hahead, hlength, hw, rfl⟩ := (mem_runs_between_char h).mp hf
    rw [upTo_advance hahead] at hd
    exact ⟨w, rest, hahead, hlength, hw, hd⟩
  · rintro ⟨w, rest, hahead, hlength, hw, hd⟩
    refine ⟨_, mem_runs_group.mpr ⟨_, (mem_runs_between_char h).mpr
      ⟨w, rest, hahead, hlength, hw, rfl⟩, rfl⟩, ?_⟩
    rw [upTo_advance hahead]
    exact hd

/-- A character of a class, and then the rest. -/
theorem mem_runs_char_seq : d ∈ runs (.seq (.char p) r) c ↔
    ∃ a rest, c.ahead = a :: rest ∧ p a = true ∧ d ∈ runs r (c.advance [a] rest) := by
  rw [mem_runs_seq]
  constructor
  · rintro ⟨e, he, hd⟩
    obtain ⟨a, rest, hahead, ha, rfl⟩ := mem_runs_char.mp he
    exact ⟨a, rest, hahead, ha, hd⟩
  · rintro ⟨a, rest, hahead, ha, hd⟩
    exact ⟨_, mem_runs_char.mpr ⟨a, rest, hahead, ha, rfl⟩, hd⟩

end Fields

/-! ### Expressions anchored to the start -/

section Anchored

variable {r : Regex α γ} {text : List α}

/-- A match begins where the text does. -/
theorem exec_atStart_eq_some {m : Match α γ} (h : exec (.seq .atStart r) text = some m) :
    m.stop ∈ runs r ⟨[], text, []⟩ := by
  obtain ⟨rest, htext, hstop⟩ := exec_eq_some h
  obtain ⟨e, he, hd⟩ := mem_runs_seq.mp hstop
  obtain ⟨hbehind, rfl⟩ := mem_runs_atStart.mp he
  have hbefore : m.before = [] := List.reverse_eq_nil_iff.mp hbehind
  rw [hbefore, List.nil_append] at htext
  rw [hbefore, ← htext] at hd
  exact hd

theorem exists_exec_atStart {d : MatchState α γ} (h : d ∈ runs r ⟨[], text, []⟩) :
    ∃ m, exec (.seq .atStart r) text = some m := by
  have hstart : d ∈ runs (.seq .atStart r) ⟨[], text, []⟩ :=
    mem_runs_seq.mpr ⟨_, mem_runs_atStart.mpr ⟨rfl, rfl⟩, h⟩
  have hexec : ∃ m, exec (.seq .atStart r) ([] ++ text) = some m := exists_exec hstart
  exact hexec

end Anchored

end Regex

end Library
