import Mathlib.Data.List.Basic
import Mathlib.Logic.Relation

/-!
# Library — regular expressions

Backtracking matchers over any alphabet.  An expression takes a place in a text to the places it may
stop at, in the order a backtracking matcher tries them (`runs`): the first is where the match ends.
Searching is from left to right (`exec`), and so is replacing (`replaceAll`).

A matcher does not tell apart texts its classes do not tell apart (`runs_map`); what a repetition
stops at is a chain of what its body stops at (`mem_runs_star`).
-/

namespace Library

variable {α β γ : Type}

/-- A regular expression over the characters `α`, with capturing groups named by `γ`. -/
inductive Regex (α γ : Type) where
  | empty
  | char (p : α → Bool)
  | seq (r s : Regex α γ)
  | alt (r s : Regex α γ)
  | star (r : Regex α γ)
  | group (name : γ) (r : Regex α γ)
  | atStart
  | atEnd
  | boundary (p : α → Bool)

/-- A place in a text: what is behind it, the nearest character first, what is ahead of it, and what the
groups have captured, the latest first. -/
@[ext] structure MatchState (α γ : Type) where
  behind : List α
  ahead : List α
  groups : List (γ × List α)
  deriving DecidableEq

namespace Regex

/-- `r+`. -/
def plus (r : Regex α γ) : Regex α γ := .seq r (.star r)

/-- `r?`. -/
def optional (r : Regex α γ) : Regex α γ := .alt r .empty

/-- The characters of some classes, in a row. -/
def word : List (α → Bool) → Regex α γ
  | [] => .empty
  | p :: ps => .seq (.char p) (word ps)

/-- One of several expressions, the first that leads to a match. -/
def oneOf : Regex α γ → List (Regex α γ) → Regex α γ
  | r, [] => r
  | r, s :: rs => .alt r (oneOf s rs)

end Regex

namespace MatchState

/-- The text between the state and a later one. -/
def upTo (c d : MatchState α γ) : List α := c.ahead.take (c.ahead.length - d.ahead.length)

/-- The state past the next characters. -/
def advance (c : MatchState α γ) (w rest : List α) : MatchState α γ where
  behind := w.reverse ++ c.behind
  ahead := rest
  groups := c.groups

/-- The state after a group has captured a text; the last capture counts. -/
def capture (c : MatchState α γ) (name : γ) (text : List α) : MatchState α γ :=
  { c with groups := (name, text) :: c.groups }

/-- What a group has captured. -/
def captured [BEq γ] (c : MatchState α γ) (name : γ) : Option (List α) := c.groups.lookup name

/-- The state, with other characters. -/
def map (f : α → β) (c : MatchState α γ) : MatchState β γ where
  behind := c.behind.map f
  ahead := c.ahead.map f
  groups := c.groups.map fun g => (g.1, g.2.map f)

@[simp] theorem advance_ahead (c : MatchState α γ) (w rest : List α) :
    (c.advance w rest).ahead = rest := rfl

@[simp] theorem advance_groups (c : MatchState α γ) (w rest : List α) :
    (c.advance w rest).groups = c.groups := rfl

@[simp] theorem advance_nil (c : MatchState α γ) : c.advance [] c.ahead = c := rfl

theorem advance_advance (c : MatchState α γ) (w w' rest rest' : List α) :
    (c.advance w rest).advance w' rest' = c.advance (w ++ w') rest' := by
  simp [advance]

end MatchState

namespace Regex

/-! ### Matching -/

/-- A step repeated, as long as it goes on: the longest repetitions first. -/
def iterate (step : MatchState α γ → List (MatchState α γ)) :
    Nat → MatchState α γ → List (MatchState α γ)
  | 0, c => [c]
  | n + 1, c =>
    ((step c).filter fun d => d.ahead.length < c.ahead.length).flatMap (iterate step n) ++ [c]

/-- A place between a character of the class and one that is not, or the end of the text. -/
def isBoundary (p : α → Bool) (c : MatchState α γ) : Bool :=
  (c.behind.head?.any p) != (c.ahead.head?.any p)

/-- Where the expression may stop, the places a backtracking matcher tries first in front. -/
def runs : Regex α γ → MatchState α γ → List (MatchState α γ)
  | .empty, c => [c]
  | .char p, c =>
    match c.ahead with
    | [] => []
    | a :: rest => if p a then [c.advance [a] rest] else []
  | .seq r s, c => (runs r c).flatMap (runs s)
  | .alt r s, c => runs r c ++ runs s c
  | .star r, c => iterate (runs r) c.ahead.length c
  | .group name r, c => (runs r c).map fun d => d.capture name (c.upTo d)
  | .atStart, c => if c.behind.isEmpty then [c] else []
  | .atEnd, c => if c.ahead.isEmpty then [c] else []
  | .boundary p, c => if isBoundary p c then [c] else []

/-- A match: the text before it, and where it ends. -/
structure Match (α γ : Type) where
  before : List α
  stop : MatchState α γ

/-- The first match at or after a place. -/
def execFrom (r : Regex α γ) (behind : List α) : List α → Option (Match α γ)
  | [] => (runs r ⟨behind, [], []⟩).head?.map fun d => ⟨behind.reverse, d⟩
  | a :: rest =>
    match runs r ⟨behind, a :: rest, []⟩ with
    | d :: _ => some ⟨behind.reverse, d⟩
    | [] => execFrom r (a :: behind) rest

/-- The first match in a text. -/
def exec (r : Regex α γ) (text : List α) : Option (Match α γ) := execFrom r [] text

/-- The text has a match. -/
def test (r : Regex α γ) (text : List α) : Bool := (exec r text).isSome

/-- The matches from a place on, replaced. -/
def replaceFrom (r : Regex α γ) (replacement : MatchState α γ → List α) :
    Nat → List α → List α → List α
  | 0, _, ahead => ahead
  | n + 1, behind, ahead =>
    let skip := match ahead with
      | [] => []
      | a :: rest => a :: replaceFrom r replacement n (a :: behind) rest
    match runs r ⟨behind, ahead, []⟩ with
    | [] => skip
    | d :: _ =>
      if d.ahead.length < ahead.length then
        replacement d ++ replaceFrom r replacement n d.behind d.ahead
      else
        replacement d ++ skip

/-- The matches in a text, replaced. -/
def replaceAll (r : Regex α γ) (replacement : MatchState α γ → List α) (text : List α) : List α :=
  replaceFrom r replacement (text.length + 1) [] text

/-- The pieces between the matches from a place on, matches of no character passed over; `piece` has
been read of the first. -/
def splitFrom (r : Regex α γ) : Nat → List α → List α → List α → List (List α)
  | 0, piece, _, _ => [piece.reverse]
  | n + 1, piece, behind, ahead =>
    match ahead with
    | [] => [piece.reverse]
    | a :: rest =>
      match runs r ⟨behind, a :: rest, []⟩ with
      | [] => splitFrom r n (a :: piece) (a :: behind) rest
      | d :: _ =>
        if d.ahead.length ≤ rest.length then
          piece.reverse :: splitFrom r n [] d.behind d.ahead
        else
          splitFrom r n (a :: piece) (a :: behind) rest

/-- The pieces between the matches in a text. -/
def splitAll (r : Regex α γ) (text : List α) : List (List α) :=
  splitFrom r (text.length + 1) [] [] text

/-! ### Where an expression stops -/

section Runs

variable {r s : Regex α γ} {c d : MatchState α γ} {p : α → Bool}

theorem mem_runs_empty : d ∈ runs .empty c ↔ d = c := List.mem_singleton

theorem mem_runs_char :
    d ∈ runs (.char p) c ↔ ∃ a rest, c.ahead = a :: rest ∧ p a = true ∧ d = c.advance [a] rest := by
  rw [runs]
  cases h : c.ahead with
  | nil => simp
  | cons a rest =>
      by_cases hp : p a = true
      · simp [hp]
      · simp [hp]

theorem mem_runs_seq : d ∈ runs (.seq r s) c ↔ ∃ e ∈ runs r c, d ∈ runs s e := List.mem_flatMap

theorem mem_runs_alt : d ∈ runs (.alt r s) c ↔ d ∈ runs r c ∨ d ∈ runs s c := List.mem_append

theorem mem_runs_optional : d ∈ runs (optional r) c ↔ d ∈ runs r c ∨ d = c := by
  rw [optional, mem_runs_alt, mem_runs_empty]

theorem mem_runs_oneOf {rs : List (Regex α γ)} :
    d ∈ runs (oneOf r rs) c ↔ ∃ s ∈ r :: rs, d ∈ runs s c := by
  induction rs generalizing r with
  | nil => simp [oneOf]
  | cons s rs ih =>
      rw [oneOf, mem_runs_alt, ih]
      simp

theorem mem_runs_group {name : γ} :
    d ∈ runs (.group name r) c ↔ ∃ e ∈ runs r c, d = e.capture name (c.upTo e) := by
  rw [runs, List.mem_map]
  exact exists_congr fun e => and_congr_right fun _ => eq_comm

theorem mem_runs_atStart : d ∈ runs (.atStart : Regex α γ) c ↔ c.behind = [] ∧ d = c := by
  rw [runs]
  by_cases h : c.behind = []
  · simp [h]
  · simp [h]

theorem mem_runs_atEnd : d ∈ runs (.atEnd : Regex α γ) c ↔ c.ahead = [] ∧ d = c := by
  rw [runs]
  by_cases h : c.ahead = []
  · simp [h]
  · simp [h]

/-- A step that goes on. -/
def Progress (r : Regex α γ) (c d : MatchState α γ) : Prop :=
  d ∈ runs r c ∧ d.ahead.length < c.ahead.length

/-- A step that goes on leaves less ahead, so no more steps are needed than there are characters. -/
theorem mem_iterate {n : Nat} (hn : c.ahead.length ≤ n) :
    d ∈ iterate (runs r) n c ↔ Relation.ReflTransGen (Progress r) c d := by
  induction n generalizing c with
  | zero =>
      rw [iterate, List.mem_singleton]
      constructor
      · rintro rfl
        exact .refl
      · intro h
        rcases h.cases_head with rfl | ⟨e, ⟨-, he⟩, -⟩
        · rfl
        · omega
  | succ n ih =>
      rw [iterate, List.mem_append, List.mem_flatMap, List.mem_singleton]
      constructor
      · rintro (⟨e, he, hd⟩ | rfl)
        · obtain ⟨hrun, hlt⟩ := List.mem_filter.mp he
          rw [decide_eq_true_eq] at hlt
          exact .head ⟨hrun, hlt⟩ ((ih (by omega)).mp hd)
        · exact .refl
      · intro h
        rcases h.cases_head with rfl | ⟨e, ⟨hrun, hlt⟩, hd⟩
        · exact .inr rfl
        · exact .inl ⟨e, List.mem_filter.mpr ⟨hrun, decide_eq_true hlt⟩, (ih (by omega)).mpr hd⟩

/-- **A repetition stops at the end of a chain of steps.** -/
theorem mem_runs_star : d ∈ runs (.star r) c ↔ Relation.ReflTransGen (Progress r) c d :=
  mem_iterate (Nat.le_refl _)

/-- A repetition of a class stops after characters of the class. -/
theorem mem_runs_star_char : d ∈ runs (.star (.char p)) c ↔
    ∃ w rest, c.ahead = w ++ rest ∧ (∀ a ∈ w, p a = true) ∧ d = c.advance w rest := by
  rw [mem_runs_star]
  constructor
  · intro h
    induction h with
    | refl => exact ⟨[], c.ahead, rfl, by simp, rfl⟩
    | @tail d e _ hstep ih =>
        obtain ⟨w, rest, hahead, hw, rfl⟩ := ih
        obtain ⟨a, rest', hrest, ha, rfl⟩ := mem_runs_char.mp hstep.1
        rw [MatchState.advance_ahead] at hrest
        subst hrest
        refine ⟨w ++ [a], rest', by simp [hahead], fun b hb => ?_, c.advance_advance w [a] _ rest'⟩
        rcases List.mem_append.mp hb with hb | hb
        · exact hw b hb
        · rw [List.mem_singleton.mp hb]
          exact ha
  · rintro ⟨w, rest, hahead, hw, rfl⟩
    induction w generalizing c with
    | nil =>
        rw [List.nil_append] at hahead
        subst hahead
        exact .refl
    | cons a w ih =>
        have hstep : Progress (.char p) c (c.advance [a] (w ++ rest)) := by
          refine ⟨mem_runs_char.mpr ⟨a, w ++ rest, hahead, hw a List.mem_cons_self, rfl⟩, ?_⟩
          rw [hahead, MatchState.advance_ahead]
          exact Nat.lt_succ_self _
        refine .head hstep ?_
        have hrest := ih (c := c.advance [a] (w ++ rest)) rfl fun b hb =>
          hw b (List.mem_cons_of_mem a hb)
        rw [MatchState.advance_advance] at hrest
        exact hrest

theorem mem_runs_plus_char : d ∈ runs (plus (.char p)) c ↔
    ∃ w rest, w ≠ [] ∧ c.ahead = w ++ rest ∧ (∀ a ∈ w, p a = true) ∧ d = c.advance w rest := by
  rw [plus, mem_runs_seq]
  constructor
  · rintro ⟨e, he, hd⟩
    obtain ⟨a, rest', hahead, ha, rfl⟩ := mem_runs_char.mp he
    obtain ⟨w, rest, hrest, hw, rfl⟩ := mem_runs_star_char.mp hd
    rw [MatchState.advance_ahead] at hrest
    refine ⟨a :: w, rest, List.cons_ne_nil _ _, by rw [hahead, hrest]; rfl, ?_,
      c.advance_advance [a] w _ rest⟩
    exact List.forall_mem_cons.mpr ⟨ha, hw⟩
  · rintro ⟨w, rest, hne, hahead, hw, rfl⟩
    obtain ⟨a, w, rfl⟩ := List.exists_cons_of_ne_nil hne
    obtain ⟨ha, hw⟩ := List.forall_mem_cons.mp hw
    refine ⟨c.advance [a] (w ++ rest), mem_runs_char.mpr ⟨a, w ++ rest, hahead, ha, rfl⟩, ?_⟩
    exact mem_runs_star_char.mpr ⟨w, rest, rfl, hw, (c.advance_advance [a] w _ rest).symm⟩

/-- Classes in a row stop after one character of each. -/
theorem mem_runs_word {ps : List (α → Bool)} : d ∈ runs (word ps) c ↔
    ∃ w rest, c.ahead = w ++ rest ∧ List.Forall₂ (fun (p : α → Bool) a => p a = true) ps w ∧
      d = c.advance w rest := by
  induction ps generalizing c with
  | nil =>
      rw [word, mem_runs_empty]
      constructor
      · rintro rfl
        exact ⟨[], d.ahead, rfl, .nil, rfl⟩
      · rintro ⟨w, rest, hahead, hw, rfl⟩
        cases hw
        rw [List.nil_append] at hahead
        subst hahead
        rfl
  | cons p ps ih =>
      rw [word, mem_runs_seq]
      constructor
      · rintro ⟨e, he, hd⟩
        obtain ⟨a, rest', hahead, ha, rfl⟩ := mem_runs_char.mp he
        obtain ⟨w, rest, hrest, hw, rfl⟩ := ih.mp hd
        rw [MatchState.advance_ahead] at hrest
        exact ⟨a :: w, rest, by rw [hahead, hrest]; rfl, .cons ha hw, c.advance_advance [a] w _ rest⟩
      · rintro ⟨w, rest, hahead, hw, rfl⟩
        cases hw with
        | @cons _ a _ w ha hw =>
            refine ⟨c.advance [a] (w ++ rest), mem_runs_char.mpr ⟨a, w ++ rest, hahead, ha, rfl⟩, ?_⟩
            exact ih.mpr ⟨w, rest, rfl, hw, (c.advance_advance [a] w _ rest).symm⟩

/-- What lies between a state and the state past the next characters. -/
theorem upTo_advance {w rest : List α} (h : c.ahead = w ++ rest) : c.upTo (c.advance w rest) = w := by
  simp [MatchState.upTo, h]

end Runs

/-! ### Searching -/

section Search

variable {r : Regex α γ} {text behind ahead : List α} {m : Match α γ}

theorem execFrom_eq_some (h : execFrom r behind ahead = some m) :
    ∃ skipped rest, ahead = skipped ++ rest ∧ m.before = behind.reverse ++ skipped ∧
      m.stop ∈ runs r ⟨skipped.reverse ++ behind, rest, []⟩ := by
  induction ahead generalizing behind with
  | nil =>
      rw [execFrom, Option.map_eq_some_iff] at h
      obtain ⟨d, hd, rfl⟩ := h
      exact ⟨[], [], rfl, (List.append_nil _).symm, List.mem_of_mem_head? hd⟩
  | cons a rest ih =>
      rw [execFrom] at h
      cases hruns : runs r ⟨behind, a :: rest, []⟩ with
      | nil =>
          rw [hruns] at h
          obtain ⟨skipped, rest', hrest, hbefore, hstop⟩ := ih h
          refine ⟨a :: skipped, rest', by rw [hrest]; rfl, by simp [hbefore], ?_⟩
          simpa using hstop
      | cons d ds =>
          rw [hruns] at h
          cases h
          refine ⟨[], a :: rest, rfl, (List.append_nil _).symm, ?_⟩
          rw [List.reverse_nil, List.nil_append, hruns]
          exact List.mem_cons_self

theorem execFrom_eq_none (h : execFrom r behind ahead = none) (skipped rest : List α)
    (hahead : ahead = skipped ++ rest) : runs r ⟨skipped.reverse ++ behind, rest, []⟩ = [] := by
  induction ahead generalizing behind skipped with
  | nil =>
      obtain ⟨rfl, rfl⟩ := List.append_eq_nil_iff.mp hahead.symm
      rw [execFrom, Option.map_eq_none_iff, List.head?_eq_none_iff] at h
      exact h
  | cons a rest' ih =>
      rw [execFrom] at h
      cases hruns : runs r ⟨behind, a :: rest', []⟩ with
      | cons d ds => rw [hruns] at h; cases h
      | nil =>
          rw [hruns] at h
          cases skipped with
          | nil =>
              rw [List.nil_append] at hahead
              rw [← hahead]
              exact hruns
          | cons b skipped =>
              injection hahead with hb hrest
              subst hb
              have hnone := ih h skipped hrest
              rwa [List.reverse_cons, List.append_assoc]

/-- **A match is where the expression stops.** -/
theorem exec_eq_some (h : exec r text = some m) :
    ∃ rest, text = m.before ++ rest ∧ m.stop ∈ runs r ⟨m.before.reverse, rest, []⟩ := by
  obtain ⟨skipped, rest, htext, hbefore, hstop⟩ := execFrom_eq_some h
  rw [List.reverse_nil, List.nil_append] at hbefore
  rw [List.append_nil, ← hbefore] at hstop
  exact ⟨rest, by rw [hbefore, htext], hstop⟩

/-- **A text without a match has no place to stop at.** -/
theorem exec_eq_none (h : exec r text = none) {before rest : List α} (htext : text = before ++ rest) :
    runs r ⟨before.reverse, rest, []⟩ = [] := by
  have hnone := execFrom_eq_none h before rest htext
  rwa [List.append_nil] at hnone

theorem exists_exec {before rest : List α} {d : MatchState α γ}
    (hd : d ∈ runs r ⟨before.reverse, rest, []⟩) : ∃ m, exec r (before ++ rest) = some m := by
  cases h : exec r (before ++ rest) with
  | some m => exact ⟨m, rfl⟩
  | none =>
      rw [exec_eq_none h rfl] at hd
      cases hd

theorem test_iff : test r text = true ↔
    ∃ before rest d, text = before ++ rest ∧ d ∈ runs r ⟨before.reverse, rest, []⟩ := by
  rw [test, Option.isSome_iff_exists]
  constructor
  · rintro ⟨m, hm⟩
    obtain ⟨rest, htext, hstop⟩ := exec_eq_some hm
    exact ⟨m.before, rest, m.stop, htext, hstop⟩
  · rintro ⟨before, rest, d, rfl, hd⟩
    exact exists_exec hd

end Search

/-! ### Texts that classes do not tell apart -/

/-- The expression of which each class reads a character as `f` renders it. -/
def comap (f : α → β) : Regex β γ → Regex α γ
  | .empty => .empty
  | .char p => .char fun a => p (f a)
  | .seq r s => .seq (comap f r) (comap f s)
  | .alt r s => .alt (comap f r) (comap f s)
  | .star r => .star (comap f r)
  | .group name r => .group name (comap f r)
  | .atStart => .atStart
  | .atEnd => .atEnd
  | .boundary p => .boundary fun a => p (f a)

section Map

variable {f : α → β}

theorem upTo_map (c d : MatchState α γ) : (c.map f).upTo (d.map f) = (c.upTo d).map f := by
  simp [MatchState.upTo, MatchState.map, List.map_take]

theorem capture_map (c : MatchState α γ) (name : γ) (text : List α) :
    (c.capture name text).map f = (c.map f).capture name (text.map f) := rfl

theorem iterate_map {step : MatchState α γ → List (MatchState α γ)}
    {step' : MatchState β γ → List (MatchState β γ)}
    (h : ∀ c, step' (c.map f) = (step c).map (·.map f)) (n : Nat) (c : MatchState α γ) :
    iterate step' n (c.map f) = (iterate step n c).map (·.map f) := by
  induction n generalizing c with
  | zero => rfl
  | succ n ih =>
      have hlength : ∀ e : MatchState α γ, (e.map f).ahead.length = e.ahead.length :=
        fun e => List.length_map _
      rw [iterate, iterate, h, List.map_append, List.map_flatMap, List.filter_map, List.flatMap_map]
      simp only [Function.comp_def, hlength, ih, List.map_cons, List.map_nil]

/-- **A matcher sees a text through its classes only.** -/
theorem runs_map (r : Regex β γ) (c : MatchState α γ) :
    runs r (c.map f) = (runs (comap f r) c).map (·.map f) := by
  induction r generalizing c with
  | empty => rfl
  | char p =>
      obtain ⟨behind, ahead, groups⟩ := c
      cases ahead with
      | nil => rfl
      | cons a rest =>
          by_cases hp : p (f a) = true
          · simp [runs, comap, MatchState.map, MatchState.advance, hp]
          · simp [runs, comap, MatchState.map, hp]
  | seq r s ihr ihs =>
      rw [runs, comap, runs, ihr, List.flatMap_map, List.map_flatMap]
      simp only [ihs]
  | alt r s ihr ihs => rw [runs, comap, runs, ihr, ihs, List.map_append]
  | star r ih =>
      rw [runs, comap, runs, iterate_map ih]
      simp [MatchState.map]
  | group name r ih =>
      rw [runs, comap, runs, ih, List.map_map, List.map_map]
      refine List.map_congr_left fun d _ => ?_
      rw [Function.comp_apply, Function.comp_apply, upTo_map, capture_map]
  | atStart =>
      by_cases h : c.behind = []
      · simp [runs, comap, MatchState.map, h]
      · simp [runs, comap, MatchState.map, h]
  | atEnd =>
      by_cases h : c.ahead = []
      · simp [runs, comap, MatchState.map, h]
      · simp [runs, comap, MatchState.map, h]
  | boundary p =>
      have hb : isBoundary p (c.map f) = isBoundary (fun a => p (f a)) c := by
        simp [isBoundary, MatchState.map, Option.any_map]
      by_cases h : isBoundary (fun a => p (f a)) c = true
      · simp [runs, comap, hb, h]
      · simp [runs, comap, hb, h]

theorem execFrom_map (r : Regex β γ) (behind ahead : List α) :
    (execFrom r (behind.map f) (ahead.map f)).isSome = (execFrom (comap f r) behind ahead).isSome := by
  induction ahead generalizing behind with
  | nil =>
      have h := runs_map (f := f) r ⟨behind, [], []⟩
      rw [List.map_nil, execFrom, execFrom, Option.isSome_map, Option.isSome_map]
      exact (congrArg (fun ds => ds.head?.isSome) h).trans (by rw [List.head?_map, Option.isSome_map])
  | cons a rest ih =>
      have h := runs_map (f := f) r ⟨behind, a :: rest, []⟩
      change runs r ⟨behind.map f, f a :: rest.map f, []⟩ = _ at h
      rw [List.map_cons, execFrom, execFrom, h]
      cases runs (comap f r) ⟨behind, a :: rest, []⟩ with
      | nil => exact ih (a :: behind)
      | cons d ds => rfl

/-- A test of a text whose characters are rendered is a test by the rendering classes. -/
theorem test_map (r : Regex β γ) (text : List α) : test r (text.map f) = test (comap f r) text :=
  execFrom_map r [] text

end Map

/-! ### Runs of a class -/

section Class

variable {p : α → Bool} {replacement : List α}

theorem runs_char_cons {behind rest : List α} {groups : List (γ × List α)} {a : α} :
    runs (.char p) ⟨behind, a :: rest, groups⟩ =
      if p a then [⟨a :: behind, rest, groups⟩] else [] := rfl

/-- A repetition of a class takes all it can, first. -/
theorem head?_iterate_char {n : Nat} {ahead : List α} (behind : List α)
    (groups : List (γ × List α)) (hn : ahead.length ≤ n) :
    (iterate (runs (.char p)) n ⟨behind, ahead, groups⟩).head? =
      some ⟨(ahead.takeWhile p).reverse ++ behind, ahead.dropWhile p, groups⟩ := by
  induction n generalizing behind ahead with
  | zero =>
      have hnil : ahead = [] := List.length_eq_zero_iff.mp (Nat.le_zero.mp hn)
      subst hnil
      rfl
  | succ n ih =>
      cases ahead with
      | nil => rfl
      | cons a rest =>
          by_cases hp : p a = true
          · have hrest := ih (a :: behind) (Nat.le_of_succ_le_succ hn)
            rw [iterate, runs_char_cons, if_pos hp]
            simp [hrest, hp]
          · rw [iterate, runs_char_cons, if_neg hp]
            simp [hp]

/-- The text with every run of the class replaced. -/
def squeeze (p : α → Bool) (replacement : List α) : List α → List α
  | [] => []
  | a :: rest =>
    if p a then replacement ++ squeeze p replacement (rest.dropWhile p)
    else a :: squeeze p replacement rest
  termination_by text => text.length
  decreasing_by
    · exact Nat.lt_succ_of_le ((List.dropWhile_sublist p).length_le)
    · exact Nat.lt_succ_self _

theorem replaceFrom_plus_char {n : Nat} {behind ahead : List α} (hn : ahead.length < n) :
    replaceFrom (γ := γ) (plus (.char p)) (fun _ => replacement) n behind ahead =
      squeeze p replacement ahead := by
  induction n generalizing behind ahead with
  | zero => exact absurd hn (Nat.not_lt_zero _)
  | succ n ih =>
      cases ahead with
      | nil => simp [replaceFrom, plus, runs, squeeze]
      | cons a rest =>
          by_cases hp : p a = true
          · have hhead := head?_iterate_char (γ := γ) (p := p) (a :: behind) []
              (Nat.le_refl rest.length)
            have hruns : (runs (plus (.char p)) (⟨behind, a :: rest, []⟩ : MatchState α γ)).head? =
                some ⟨(rest.takeWhile p).reverse ++ a :: behind, rest.dropWhile p, []⟩ := by
              rw [plus, runs, runs_char_cons, if_pos hp, List.flatMap_cons, List.flatMap_nil,
                List.append_nil, runs]
              exact hhead
            obtain ⟨ds, hds⟩ := List.head?_eq_some_iff.mp hruns
            have hlt : (rest.dropWhile p).length < (a :: rest).length :=
              Nat.lt_succ_of_le (List.dropWhile_sublist p).length_le
            rw [replaceFrom, hds, squeeze, if_pos hp]
            simp only
            rw [if_pos hlt, ih (Nat.lt_of_lt_of_le hlt (Nat.le_of_lt_succ hn))]
          · have hruns : runs (plus (.char p)) (⟨behind, a :: rest, []⟩ : MatchState α γ) = [] := by
              simp [plus, runs, hp]
            rw [replaceFrom, hruns, squeeze, if_neg hp]
            exact congrArg (a :: ·) (ih (Nat.lt_of_succ_lt_succ hn))

/-- **Replacing the runs of a class replaces each run by one text.** -/
theorem replaceAll_plus_char (text : List α) :
    replaceAll (γ := γ) (plus (.char p)) (fun _ => replacement) text = squeeze p replacement text :=
  replaceFrom_plus_char (Nat.lt_succ_self _)

end Class

end Regex

end Library
