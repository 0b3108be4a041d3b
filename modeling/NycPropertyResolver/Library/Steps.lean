import Mathlib.Init

/-!
# Library — runs of a transition system

A transition system is a partial function from states and events to states.  `Steps next ok s s'`
is a run from `s` to `s'` each of whose events meets the side condition `ok` in the state it is
taken in.  `Steps.invariant` is the invariant rule, `Steps.history` the rule for a reflexive and
transitive relation between the first and the last state, `exits_of_rank` the rule for a region that
no run stays in, and `run` evaluates a list of events, so that a concrete run is checked by
computation (`run_steps`).
-/

namespace Library

variable {σ ε : Type}

/-- A run whose events each meet `ok`. -/
inductive Steps (next : σ → ε → Option σ) (ok : σ → ε → Prop) (s : σ) : σ → Prop where
  | refl : Steps next ok s s
  | tail {t u : σ} {ev : ε} (h : Steps next ok s t) (hok : ok t ev) (hs : next t ev = some u) :
      Steps next ok s u

namespace Steps

variable {next : σ → ε → Option σ} {ok ok' : σ → ε → Prop} {s t u : σ}

theorem trans (h₁ : Steps next ok s t) (h₂ : Steps next ok t u) : Steps next ok s u := by
  induction h₂ with
  | refl => exact h₁
  | tail _ hok hs ih => exact .tail ih hok hs

theorem one {ev : ε} (hok : ok s ev) (hs : next s ev = some t) : Steps next ok s t :=
  .tail .refl hok hs

/-- A run is a run at every weaker side condition. -/
theorem mono (hw : ∀ s ev, ok s ev → ok' s ev) (h : Steps next ok s t) : Steps next ok' s t := by
  induction h with
  | refl => exact .refl
  | tail _ hok hs ih => exact .tail ih (hw _ _ hok) hs

/-- **The invariant rule.**  What holds at first and is preserved by every event that meets the
side condition holds at the end of every run. -/
theorem invariant {I : σ → Prop}
    (hI : ∀ {t u : σ} {ev : ε}, I t → ok t ev → next t ev = some u → I u)
    (h : Steps next ok s t) (h₀ : I s) : I t := by
  induction h with
  | refl => exact h₀
  | tail _ hok hs ih => exact hI ih hok hs

/-- **The history rule.**  A reflexive and transitive relation that every event respects from a
state of the invariant relates the first state of a run to the last. -/
theorem history {I : σ → Prop} {R : σ → σ → Prop} (hrefl : ∀ s, R s s)
    (htrans : ∀ {s t u : σ}, R s t → R t u → R s u)
    (hI : ∀ {t u : σ} {ev : ε}, I t → ok t ev → next t ev = some u → I u)
    (hR : ∀ {t u : σ} {ev : ε}, I t → ok t ev → next t ev = some u → R t u)
    (h : Steps next ok s t) (h₀ : I s) : R s t := by
  induction h with
  | refl => exact hrefl s
  | tail h hok hs ih => exact htrans ih (hR (invariant hI h h₀) hok hs)

end Steps

/-- **The ranking rule.**  Where every turn taken inside lowers a well-founded rank or leads outside,
every run of turns comes outside, in a state of the invariant. -/
theorem exits_of_rank {α : Type} {lt : α → α → Prop} (hwf : WellFounded lt) {I : σ → Prop}
    (inside : σ → Prop) {turn : σ → σ → Prop} (rank : σ → α)
    (hturn : ∀ {s t : σ}, I s → inside s → turn s t → I t ∧ (inside t → lt (rank t) (rank s)))
    {trace : Nat → σ} (h₀ : I (trace 0))
    (htrace : ∀ n, inside (trace n) → turn (trace n) (trace (n + 1))) :
    ∃ n, I (trace n) ∧ ¬ inside (trace n) := by
  have hall : ∀ x n, rank (trace n) = x → I (trace n) →
      ∃ m, I (trace m) ∧ ¬ inside (trace m) := by
    intro x
    induction x using hwf.induction with
    | _ x ih =>
      intro n hx hn
      by_cases hin : inside (trace n)
      · obtain ⟨hn', hlt⟩ := hturn hn hin (htrace n hin)
        by_cases hin' : inside (trace (n + 1))
        · exact ih _ (hx ▸ hlt hin') (n + 1) rfl hn'
        · exact ⟨n + 1, hn', hin'⟩
      · exact ⟨n, hn, hin⟩
  exact hall _ 0 rfl h₀

/-- No run of such turns stays inside. -/
theorem leaves_of_rank {α : Type} {lt : α → α → Prop} (hwf : WellFounded lt) {I inside : σ → Prop}
    {turn : σ → σ → Prop} (rank : σ → α)
    (hturn : ∀ {s t : σ}, I s → inside s → turn s t → I t ∧ (inside t → lt (rank t) (rank s)))
    {trace : Nat → σ} (h₀ : I (trace 0))
    (htrace : ∀ n, inside (trace n) → turn (trace n) (trace (n + 1))) :
    ∃ n, ¬ inside (trace n) := by
  obtain ⟨n, -, hout⟩ := exits_of_rank hwf inside rank hturn h₀ htrace
  exact ⟨n, hout⟩

/-- The state a list of events leads to. -/
def run (next : σ → ε → Option σ) : σ → List ε → Option σ
  | s, [] => some s
  | s, ev :: evs => (next s ev).bind fun t => run next t evs

/-- Every event of the list meets the side condition in the state it is taken in. -/
def RunOk (next : σ → ε → Option σ) (ok : σ → ε → Prop) : σ → List ε → Prop
  | _, [] => True
  | s, ev :: evs => ok s ev ∧ ∀ t, next s ev = some t → RunOk next ok t evs

instance decidableRunOk {next : σ → ε → Option σ} {ok : σ → ε → Prop}
    [∀ s ev, Decidable (ok s ev)] : ∀ (s : σ) (evs : List ε), Decidable (RunOk next ok s evs)
  | _, [] => .isTrue trivial
  | s, ev :: evs =>
    match h : next s ev with
    | none => decidable_of_iff (ok s ev) (by simp [RunOk, h])
    | some t =>
      have : Decidable (RunOk next ok t evs) := decidableRunOk t evs
      decidable_of_iff (ok s ev ∧ RunOk next ok t evs) (by simp [RunOk, h])

/-- An evaluated run is a run. -/
theorem run_steps {next : σ → ε → Option σ} {ok : σ → ε → Prop} :
    ∀ {evs : List ε} {s t : σ}, RunOk next ok s evs → run next s evs = some t →
      Steps next ok s t
  | [], s, t, _, h => by cases Option.some.inj h; exact .refl
  | ev :: evs, s, t, hok, h => by
      obtain ⟨u, hu, ht⟩ := Option.bind_eq_some_iff.mp h
      exact (Steps.one hok.1 hu).trans (run_steps (hok.2 u hu) ht)

/-- A run of two lists of events, one after the other. -/
theorem run_append {next : σ → ε → Option σ} : ∀ (evs evs' : List ε) (s : σ),
    run next s (evs ++ evs') = (run next s evs).bind fun t => run next t evs'
  | [], _, _ => rfl
  | ev :: evs, evs', s => by
      show ((next s ev).bind fun t => run next t (evs ++ evs')) =
        ((next s ev).bind fun t => run next t evs).bind fun t => run next t evs'
      cases next s ev with
      | none => rfl
      | some t => exact run_append evs evs' t

/-- The invariant rule for a list of events. -/
theorem run_invariant {next : σ → ε → Option σ} {I : σ → Prop} : ∀ {evs : List ε} {s t : σ},
    (∀ ev ∈ evs, ∀ {s t : σ}, I s → next s ev = some t → I t) → I s →
      run next s evs = some t → I t
  | [], s, t, _, hs, h => by cases Option.some.inj h; exact hs
  | ev :: evs, s, t, hI, hs, h => by
      obtain ⟨u, hu, ht⟩ := Option.bind_eq_some_iff.mp h
      exact run_invariant (fun ev' hev' => hI ev' (List.mem_cons_of_mem _ hev'))
        (hI ev List.mem_cons_self hs hu) ht

/-- The invariant rule with the events so far. -/
theorem run_history {next : σ → ε → Option σ} {I : List ε → σ → Prop}
    (hI : ∀ {evs ev} {s t : σ}, I evs s → next s ev = some t → I (evs ++ [ev]) t) :
    ∀ {before evs : List ε} {s t : σ}, I before s → run next s evs = some t → I (before ++ evs) t
  | before, [], s, t, hs, h => by
      cases Option.some.inj h
      rwa [List.append_nil]
  | before, ev :: evs, s, t, hs, h => by
      obtain ⟨u, hu, ht⟩ := Option.bind_eq_some_iff.mp h
      rw [List.append_cons]
      exact run_history hI (hI hs hu) ht

/-- The side condition, at every event of the list. -/
theorem runOk_iff {next : σ → ε → Option σ} {ok : σ → ε → Prop} : ∀ {evs : List ε} {s : σ},
    RunOk next ok s evs ↔ ∀ before ev t, before ++ [ev] <+: evs → run next s before = some t → ok t ev
  | [], s => by
      refine ⟨fun _ before ev t hbegins => ?_, fun _ => trivial⟩
      have hlength := hbegins.length_le
      simp at hlength
  | ev :: evs, s => by
      constructor
      · rintro ⟨hok, hrest⟩ before ev' t hbegins ht
        cases before with
        | nil =>
            cases ht
            obtain ⟨rfl, -⟩ := List.cons_prefix_cons.mp hbegins
            exact hok
        | cons b before =>
            obtain ⟨hb, hbefore⟩ := List.cons_prefix_cons.mp hbegins
            obtain ⟨u, hu, ht⟩ := Option.bind_eq_some_iff.mp ht
            exact runOk_iff.mp (hrest u (hb ▸ hu)) before ev' t hbefore ht
      · intro hall
        refine ⟨hall [] ev s (List.cons_prefix_cons.mpr ⟨rfl, List.nil_prefix⟩) rfl, fun u hu => ?_⟩
        refine runOk_iff.mpr fun before ev' t hbegins ht => ?_
        refine hall (ev :: before) ev' t (List.cons_prefix_cons.mpr ⟨rfl, hbegins⟩) ?_
        exact Option.bind_eq_some_iff.mpr ⟨u, hu, ht⟩

theorem RunOk.of_prefix {next : σ → ε → Option σ} {ok : σ → ε → Prop} {before evs : List ε} {s : σ}
    (h : RunOk next ok s evs) (hbegins : before <+: evs) : RunOk next ok s before :=
  runOk_iff.mpr fun before' ev t hbegins' => runOk_iff.mp h before' ev t (hbegins'.trans hbegins)

/-- What an evaluated run leads to after one more event. -/
theorem run_concat {next : σ → ε → Option σ} {evs : List ε} {ev : ε} {s t u : σ}
    (ht : run next s evs = some t) (hu : next t ev = some u) : run next s (evs ++ [ev]) = some u := by
  rw [run_append, ht, Option.bind_some]
  exact Option.bind_eq_some_iff.mpr ⟨u, hu, rfl⟩

/-- A side condition that asks nothing of the state. -/
theorem runOk_of_forall {next : σ → ε → Option σ} {ok : ε → Prop} :
    ∀ {evs : List ε} {s : σ}, (∀ ev ∈ evs, ok ev) → RunOk next (fun _ ev => ok ev) s evs
  | [], _, _ => trivial
  | _ :: _, _, h => ⟨h _ List.mem_cons_self, fun _ _ =>
      runOk_of_forall fun ev hev => h ev (List.mem_cons_of_mem _ hev)⟩

theorem runOk_trivial {next : σ → ε → Option σ} :
    ∀ (evs : List ε) (s : σ), RunOk next (fun _ _ => True) s evs
  | [], _ => trivial
  | _ :: evs, _ => ⟨trivial, fun t _ => runOk_trivial evs t⟩

end Library
