import Mathlib.Data.Finset.Card
import NycPropertyResolver.Identity.CandidateSelection

/-!
# Identity — candidate selection and the order of the response

The comparator is a total preorder (`notAfter_total`, `NotAfter.trans`), and two candidates are tied in
it when neither has a confidence, or when they agree on confidence, label and source id (`Tied`).  The
candidates selection chooses from are those a predicate of the response as a set keeps
(`isSupported`), so another order of the response gives another order of the same candidates, and each
order of these comes from an order of the response (`exists_perm_supportedCandidates`).
-/

namespace NycPropertyResolver

open Library

variable {mapping : CaseMapping} {locale : LocaleCompare} {a b c : GeoSearchCandidate}

/-! ### The comparator -/

namespace LocaleCompare

variable {left middle right : String}

theorem self (text : String) : locale.localeCompare text text = 0 := (locale.eq_iff text text).mpr rfl

theorem neg_trans (h : locale.localeCompare left middle < 0)
    (h' : locale.localeCompare middle right < 0) : locale.localeCompare left right < 0 := by
  have hle := locale.trans (Int.le_of_lt h) (Int.le_of_lt h')
  rcases Int.lt_or_eq_of_le hle with hlt | heq
  · exact hlt
  · rw [(locale.eq_iff left right).mp heq] at h
    have hback := (locale.neg_iff right middle).mp h
    omega

theorem trichotomy (left right : String) :
    locale.localeCompare left right < 0 ∨ left = right ∨ locale.localeCompare right left < 0 := by
  rcases Int.lt_trichotomy (locale.localeCompare left right) 0 with h | h | h
  · exact .inl h
  · exact .inr (.inl ((locale.eq_iff left right).mp h))
  · exact .inr (.inr ((locale.neg_iff right left).mpr h))

end LocaleCompare

/-- The source id, an absent one as the empty text. -/
def GeoSearchCandidate.sourceText (candidate : GeoSearchCandidate) : String :=
  candidate.sourceId.getD ""

/-- Label and source id let `left` stay in front of `right`. -/
def TextNotAfter (locale : LocaleCompare) (left right : GeoSearchCandidate) : Prop :=
  locale.localeCompare left.label right.label < 0 ∨
    left.label = right.label ∧ locale.localeCompare left.sourceText right.sourceText ≤ 0

theorem textNotAfter_total (locale : LocaleCompare) (a b : GeoSearchCandidate) :
    TextNotAfter locale a b ∨ TextNotAfter locale b a := by
  rcases locale.trichotomy a.label b.label with h | h | h
  · exact .inl (.inl h)
  · rcases locale.trichotomy a.sourceText b.sourceText with h' | h' | h'
    · exact .inl (.inr ⟨h, Int.le_of_lt h'⟩)
    · exact .inl (.inr ⟨h, by rw [h', locale.self]⟩)
    · exact .inr (.inr ⟨h.symm, Int.le_of_lt h'⟩)
  · exact .inr (.inl h)

theorem TextNotAfter.trans (h : TextNotAfter locale a b) (h' : TextNotAfter locale b c) :
    TextNotAfter locale a c := by
  rcases h with h | ⟨hlabel, hsource⟩
  · rcases h' with h' | ⟨hlabel', -⟩
    · exact .inl (locale.neg_trans h h')
    · exact .inl (hlabel' ▸ h)
  · rcases h' with h' | ⟨hlabel', hsource'⟩
    · exact .inl (hlabel ▸ h')
    · exact .inr ⟨hlabel.trans hlabel', locale.trans hsource hsource'⟩

theorem textNotAfter_antisymm_iff (locale : LocaleCompare) :
    TextNotAfter locale a b ∧ TextNotAfter locale b a ↔
      a.label = b.label ∧ a.sourceText = b.sourceText := by
  have hlabel := locale.neg_iff a.label b.label
  have hsource := locale.neg_iff a.sourceText b.sourceText
  have hsource' := locale.neg_iff b.sourceText a.sourceText
  constructor
  · rintro ⟨h | ⟨hl, hs⟩, h' | ⟨hl', hs'⟩⟩
    · omega
    · rw [hl', locale.self] at h
      omega
    · rw [hl, locale.self] at h'
      omega
    · exact ⟨hl, (locale.eq_iff _ _).mp (by omega)⟩
  · rintro ⟨hl, hs⟩
    have hself := locale.self a.sourceText
    refine ⟨.inr ⟨hl, ?_⟩, .inr ⟨hl.symm, ?_⟩⟩
    · rw [← hs, hself]
    · rw [← hs, hself]

/-- Candidates without confidence come last, in any order; those with one by confidence, the highest
first, then by label and source id. -/
theorem notAfter_iff : NotAfter locale a b ↔ b.confidence = none ∨
    ∃ left right, a.confidence = some left ∧ b.confidence = some right ∧
      (right < left ∨ left = right ∧ TextNotAfter locale a b) := by
  rw [NotAfter, compareGeoSearchCandidates, compareNullableNumbers]
  cases ha : a.confidence with
  | none =>
      -- the difference is not a number, or plus infinity
      cases hb : b.confidence with
      | none => simp [JsNumber.sub, JsNumber.isPositive]
      | some right => simp [JsNumber.sub, JsNumber.isPositive]
  | some left =>
      cases hb : b.confidence with
      | none => simp [JsNumber.sub, JsNumber.isPositive]
      | some right =>
          by_cases heq : left = right
          · subst heq
            by_cases hlabel : a.label = b.label
            · simp [JsNumber.sub, JsNumber.isPositive, compareNullableStrings, TextNotAfter, hlabel,
                locale.self, GeoSearchCandidate.sourceText]
            · have hne : locale.localeCompare a.label b.label ≠ 0 := fun h =>
                hlabel ((locale.eq_iff _ _).mp h)
              simp [JsNumber.sub, JsNumber.isPositive, compareNullableStrings, TextNotAfter, hlabel, hne]
              omega
          · have hne : right - left ≠ 0 := fun h => heq (sub_eq_zero.mp h).symm
            simp [JsNumber.sub, JsNumber.isPositive, heq, hne]
            constructor
            · intro h
              exact lt_of_le_of_ne h (Ne.symm heq)
            · exact le_of_lt

theorem notAfter_total (a b : GeoSearchCandidate) : NotAfter locale a b ∨ NotAfter locale b a := by
  rw [notAfter_iff, notAfter_iff]
  cases ha : a.confidence with
  | none => exact .inr (.inl rfl)
  | some left =>
      cases hb : b.confidence with
      | none => exact .inl (.inl rfl)
      | some right =>
          rcases lt_trichotomy left right with h | h | h
          · exact .inr (.inr ⟨right, left, rfl, rfl, .inl h⟩)
          · rcases textNotAfter_total locale a b with h' | h'
            · exact .inl (.inr ⟨left, right, rfl, rfl, .inr ⟨h, h'⟩⟩)
            · exact .inr (.inr ⟨right, left, rfl, rfl, .inr ⟨h.symm, h'⟩⟩)
          · exact .inl (.inr ⟨left, right, rfl, rfl, .inl h⟩)

theorem NotAfter.trans (h : NotAfter locale a b) (h' : NotAfter locale b c) : NotAfter locale a c := by
  rw [notAfter_iff] at h h' ⊢
  rcases h' with hc | ⟨middle, right, hb, hc, h'⟩
  · exact .inl hc
  · rcases h with hb' | ⟨left, middle', ha, hb', h⟩
    · rw [hb'] at hb
      cases hb
    · rw [hb'] at hb
      cases hb
      refine .inr ⟨left, right, ha, hc, ?_⟩
      rcases h with h | ⟨rfl, h⟩
      · rcases h' with h' | ⟨rfl, -⟩
        · exact .inl (h'.trans h)
        · exact .inl h
      · rcases h' with h' | ⟨rfl, h'⟩
        · exact .inl h'
        · exact .inr ⟨rfl, h.trans h'⟩

instance : Std.Total (NotAfter locale) := ⟨notAfter_total⟩

instance : IsTrans GeoSearchCandidate (NotAfter locale) := ⟨fun _ _ _ => NotAfter.trans⟩

/-- What tells candidates apart. -/
def GeoSearchCandidate.identity (candidate : GeoSearchCandidate) :
    Option Rat × String × Option String :=
  (candidate.confidence, candidate.label, candidate.sourceId)

/-- Nothing the comparator reads puts one of the candidates in front of the other. -/
def Tied (left right : GeoSearchCandidate) : Prop :=
  (left.confidence = none ∧ right.confidence = none) ∨
    (left.confidence = right.confidence ∧ left.label = right.label ∧
      left.sourceText = right.sourceText)

theorem tied_iff : NotAfter locale a b ∧ NotAfter locale b a ↔ Tied a b := by
  rw [notAfter_iff, notAfter_iff, Tied]
  cases ha : a.confidence with
  | none =>
      cases hb : b.confidence with
      | none => simp
      | some right => simp
  | some left =>
      cases hb : b.confidence with
      | none => simp
      | some right =>
          simp only [reduceCtorEq, false_or, Option.some.injEq, false_and]
          constructor
          · rintro ⟨⟨x, y, rfl, rfl, h⟩, x', y', rfl, rfl, h'⟩
            rcases h with h | ⟨rfl, h⟩
            · rcases h' with h' | ⟨rfl, -⟩
              · exact absurd h' (lt_asymm h)
              · exact absurd h (lt_irrefl _)
            · rcases h' with h' | ⟨-, h'⟩
              · exact absurd h' (lt_irrefl _)
              · exact ⟨rfl, (textNotAfter_antisymm_iff locale).mp ⟨h, h'⟩⟩
          · rintro ⟨rfl, htext⟩
            obtain ⟨h, h'⟩ := (textNotAfter_antisymm_iff locale).mpr htext
            exact ⟨⟨left, left, rfl, rfl, .inr ⟨rfl, h⟩⟩, left, left, rfl, rfl, .inr ⟨rfl, h'⟩⟩

/-- Two different candidates are tied for the first place. -/
def TiedForFirst (locale : LocaleCompare) (pool : List GeoSearchCandidate) : Prop :=
  ∃ a ∈ pool, ∃ b ∈ pool, a ≠ b ∧ Tied a b ∧ ∀ c ∈ pool, NotAfter locale a c

theorem not_tiedForFirst_iff {pool : List GeoSearchCandidate} : ¬ TiedForFirst locale pool ↔
    ∀ a b, IsFirst (NotAfter locale) pool a → IsFirst (NotAfter locale) pool b → a = b := by
  constructor
  · intro h a b ha hb
    by_contra hne
    exact h ⟨a, ha.1, b, hb.1, hne, tied_iff.mp ⟨ha.2 b hb.1, hb.2 a ha.1⟩, ha.2⟩
  · rintro h ⟨a, ha, b, hb, hne, htied, hfirst⟩
    have hback : NotAfter locale b a := (tied_iff.mpr htied).2
    exact hne (h a b ⟨ha, hfirst⟩ ⟨hb, fun c hc => hback.trans (hfirst c hc)⟩)

/-! ### The candidate pool -/

/-- Of the candidates that `q` keeps, those that `p` keeps too, if there are any. -/
def preferred (p q : GeoSearchCandidate → Bool) (candidates : List GeoSearchCandidate)
    (candidate : GeoSearchCandidate) : Bool :=
  q candidate && (p candidate || !candidates.any fun d => q d && p d)

section Pool

variable {p q : GeoSearchCandidate → Bool} {candidates candidates' : List GeoSearchCandidate}
  {normalizedBaseAddress : String}

theorem filter_preferred :
    preferring p (candidates.filter q) = candidates.filter (preferred p q candidates) := by
  rw [preferring, List.filter_filter]
  have hany : candidates.any (fun d => q d && p d) =
      !(candidates.filter fun d => p d && q d).isEmpty := by
    rw [Bool.eq_iff_iff, Bool.not_eq_true', List.isEmpty_eq_false_iff_exists_mem]
    simp [and_comm]
  by_cases h : (candidates.filter fun d => p d && q d).isEmpty = true
  · rw [if_pos h]
    refine List.filter_congr fun c _ => ?_
    rw [preferred, hany, h]
    simp
  · rw [if_neg h]
    refine List.filter_congr fun c _ => ?_
    rw [preferred, hany, Bool.not_eq_true _ |>.mp h]
    simp [Bool.and_comm]

theorem any_preferred : candidates.any (preferred p q candidates) = candidates.any q := by
  rw [Bool.eq_iff_iff, List.any_eq_true, List.any_eq_true]
  constructor
  · rintro ⟨c, hc, h⟩
    exact ⟨c, hc, (Bool.and_eq_true_iff.mp h).1⟩
  · rintro ⟨c, hc, h⟩
    by_cases hany : candidates.any (fun d => q d && p d) = true
    · obtain ⟨d, hd, hboth⟩ := List.any_eq_true.mp hany
      rw [Bool.and_eq_true] at hboth
      exact ⟨d, hd, by simp [preferred, hboth]⟩
    · exact ⟨c, hc, by simp [preferred, h, hany]⟩

theorem preferred_perm (h : candidates'.Perm candidates) :
    preferred p q candidates' = preferred p q candidates := by
  funext c
  rw [preferred, preferred, h.any_eq]

/-- A BBL, and the requested borough where there is one. -/
def isUsable (mapping : CaseMapping) (normalizedBaseAddress : String)
    (candidate : GeoSearchCandidate) : Bool :=
  candidate.bbl.isSome && (requestedBorough mapping normalizedBaseAddress).all fun borough =>
    isInBorough mapping borough candidate

/-- Selection chooses from the candidates that are supported. -/
def isSupported (mapping : CaseMapping) (normalizedBaseAddress : String)
    (candidates : List GeoSearchCandidate) : GeoSearchCandidate → Bool :=
  preferred isAddressLayer
    (preferred (hasStreetAddress mapping normalizedBaseAddress)
      (isUsable mapping normalizedBaseAddress) candidates) candidates

/-- The candidate pool. -/
def supportedCandidates (mapping : CaseMapping) (normalizedBaseAddress : String)
    (candidates : List GeoSearchCandidate) : List GeoSearchCandidate :=
  candidates.filter (isSupported mapping normalizedBaseAddress candidates)

theorem isSupported_perm (h : candidates'.Perm candidates) :
    isSupported mapping normalizedBaseAddress candidates' =
      isSupported mapping normalizedBaseAddress candidates := by
  rw [isSupported, isSupported, preferred_perm h, preferred_perm h]

theorem supportedCandidates_perm (h : candidates'.Perm candidates) :
    (supportedCandidates mapping normalizedBaseAddress candidates').Perm
      (supportedCandidates mapping normalizedBaseAddress candidates) := by
  rw [supportedCandidates, supportedCandidates, isSupported_perm h]
  exact h.filter _

/-- Each order of the pool comes from an order of the response. -/
theorem exists_perm_supportedCandidates {pool : List GeoSearchCandidate}
    (h : pool.Perm (supportedCandidates mapping normalizedBaseAddress candidates)) :
    ∃ response : List GeoSearchCandidate, response.Perm candidates ∧
      supportedCandidates mapping normalizedBaseAddress response = pool := by
  let supported := isSupported mapping normalizedBaseAddress candidates
  have hpool : ∀ c ∈ pool, supported c = true := fun c hc => (List.mem_filter.mp (h.mem_iff.mp hc)).2
  have hrest : ∀ c ∈ candidates.filter (fun c => !supported c), ¬ supported c = true := by
    intro c hc
    simpa using (List.mem_filter.mp hc).2
  have hperm : (pool ++ candidates.filter fun c => !supported c).Perm candidates :=
    (h.append_right _).trans (List.filter_append_perm supported candidates)
  refine ⟨_, hperm, ?_⟩
  rw [supportedCandidates, isSupported_perm hperm, List.filter_append, List.filter_eq_self.mpr hpool,
    List.filter_eq_nil_iff.mpr hrest, List.append_nil]

theorem supportedCandidates_ne_nil :
    candidates.any (isUsable mapping normalizedBaseAddress) = true ↔
      supportedCandidates mapping normalizedBaseAddress candidates ≠ [] := by
  rw [← any_preferred (p := hasStreetAddress mapping normalizedBaseAddress),
    ← any_preferred (p := isAddressLayer), supportedCandidates, Ne, List.filter_eq_nil_iff]
  simp [isSupported]

theorem filter_isUsable (borough : Option String)
    (h : requestedBorough mapping normalizedBaseAddress = borough) :
    candidates.filter (isUsable mapping normalizedBaseAddress) =
      (candidates.filter fun c => c.bbl.isSome).filter fun c =>
        borough.all fun borough => isInBorough mapping borough c := by
  rw [List.filter_filter]
  refine List.filter_congr fun c _ => ?_
  rw [isUsable, h, Bool.and_comm]

/-- The candidates with a BBL are narrowed to the supported ones. -/
theorem narrowToSupportedCandidates_eq :
    narrowToSupportedCandidates mapping (candidates.filter fun c => c.bbl.isSome)
        normalizedBaseAddress =
      if (requestedBorough mapping normalizedBaseAddress).isSome = true ∧
          candidates.any (isUsable mapping normalizedBaseAddress) = false then
        .error geoSearchBoroughMissing
      else .ok (supportedCandidates mapping normalizedBaseAddress candidates) := by
  have hpool : preferring isAddressLayer (preferring (hasStreetAddress mapping normalizedBaseAddress)
      (candidates.filter (isUsable mapping normalizedBaseAddress))) =
        supportedCandidates mapping normalizedBaseAddress candidates := by
    rw [filter_preferred, filter_preferred]
    rfl
  rw [narrowToSupportedCandidates, ← hpool]
  cases hborough : requestedBorough mapping normalizedBaseAddress with
  | none =>
      rw [filter_isUsable none hborough]
      simp [bind, Except.bind]
  | some borough =>
      have hany : candidates.any (isUsable mapping normalizedBaseAddress) =
          !(candidates.filter (isUsable mapping normalizedBaseAddress)).isEmpty := by
        rw [Bool.eq_iff_iff, Bool.not_eq_true', List.isEmpty_eq_false_iff_exists_mem]
        simp
      rw [hany, filter_isUsable (some borough) hborough]
      simp only [Option.all_some]
      cases ((candidates.filter fun c => c.bbl.isSome).filter
          (isInBorough mapping borough)).isEmpty with
      | true => rfl
      | false => rfl

/-- **Selection, on the response as a whole.** -/
theorem selectGeoSearchCandidate_eq :
    selectGeoSearchCandidate mapping locale candidates normalizedBaseAddress =
      if candidates.any (isUsable mapping normalizedBaseAddress) then
        selectFromPool locale (supportedCandidates mapping normalizedBaseAddress candidates)
      else if candidates.any (fun c => c.bbl.isSome) then .error geoSearchBoroughMissing
      else .error geoSearchNoIdentifiers := by
  have hempty : (candidates.filter fun c => c.bbl.isSome).isEmpty =
      !candidates.any fun c => c.bbl.isSome := by
    rw [Bool.eq_iff_iff, Bool.not_eq_true', List.isEmpty_iff, List.filter_eq_nil_iff]
    simp
  rw [selectGeoSearchCandidate, hempty, narrowToSupportedCandidates_eq]
  cases hbbl : candidates.any fun c => c.bbl.isSome with
  | false =>
      have husable : candidates.any (isUsable mapping normalizedBaseAddress) = false := by
        rw [List.any_eq_false] at hbbl ⊢
        intro c hc h
        exact hbbl c hc (Bool.and_eq_true_iff.mp h).1
      rw [husable]
      rfl
  | true =>
      cases husable : candidates.any (isUsable mapping normalizedBaseAddress) with
      | true => simp [bind, Except.bind]
      | false =>
          -- a usable candidate is missing, so a borough was requested
          have hborough : (requestedBorough mapping normalizedBaseAddress).isSome = true := by
            obtain ⟨c, hc, hsome⟩ := List.any_eq_true.mp hbbl
            have h := List.any_eq_false.mp husable c hc
            cases hb : requestedBorough mapping normalizedBaseAddress with
            | none => rw [isUsable, hb, hsome] at h; exact absurd rfl h
            | some borough => rfl
          simp [hborough, bind, Except.bind]

end Pool

/-! ### The choice -/

section Choice

variable {pool pool' : List GeoSearchCandidate} {bbl : CanonicalBbl}

/-- All candidates of the pool carry one valid BBL. -/
def CarryBbl (pool : List GeoSearchCandidate) (bbl : CanonicalBbl) : Prop :=
  ∀ c ∈ pool, candidateBbl c = .ok bbl

/-- The error of a candidate whose BBL is none. -/
def invalidCandidateBbl : IdentityError :=
  .app "INVALID_BBL" "BBL must be a 10-digit NYC parcel identifier" 400

theorem candidateBbl_error {e : IdentityError} (h : candidateBbl c = .error e) :
    e = invalidCandidateBbl := by
  rw [candidateBbl, assertValidBbl] at h
  cases hc : canonicalizeBbl (c.bbl.getD "") with
  | none =>
      rw [hc] at h
      exact (Except.error.inj h).symm
  | some bbl => rw [hc] at h; cases h

/-- The BBLs are read in the order of the sort, and the first that is not valid throws. -/
theorem mapM_candidateBbl_of_invalid (h : ∃ c ∈ pool, ∃ e, candidateBbl c = .error e) :
    pool.mapM candidateBbl = .error invalidCandidateBbl := by
  induction pool with
  | nil =>
      obtain ⟨c, hc, -⟩ := h
      exact absurd hc List.not_mem_nil
  | cons c pool ih =>
      rw [List.mapM_cons]
      cases hc : candidateBbl c with
      | error e => rw [candidateBbl_error hc]; rfl
      | ok bbl =>
          obtain ⟨d, hd, e, he⟩ := h
          have hrest : d ∈ pool := by
            rcases List.mem_cons.mp hd with rfl | hd
            · rw [hc] at he; cases he
            · exact hd
          rw [ih ⟨d, hrest, e, he⟩]
          rfl

theorem mapM_candidateBbl_of_valid (h : ∀ c ∈ pool, ∃ bbl, candidateBbl c = .ok bbl) :
    ∃ bbls, pool.mapM candidateBbl = .ok bbls ∧
      ∀ bbl, bbl ∈ bbls ↔ ∃ c ∈ pool, candidateBbl c = .ok bbl := by
  induction pool with
  | nil => exact ⟨[], rfl, fun bbl => by simp⟩
  | cons c pool ih =>
      obtain ⟨⟨bbl, hbbl⟩, hpool⟩ := List.forall_mem_cons.mp h
      obtain ⟨bbls, hbbls, hmem⟩ := ih hpool
      refine ⟨bbl :: bbls, by rw [List.mapM_cons, hbbl, hbbls]; rfl, fun bbl' => ?_⟩
      rw [List.mem_cons, hmem, List.exists_mem_cons_iff, hbbl, Except.ok.injEq, eq_comm]

/-- A set has at most one element exactly when all its elements are equal. -/
theorem dedup_length_le_one_iff {bbls : List CanonicalBbl} :
    bbls.dedup.length ≤ 1 ↔ ∀ x ∈ bbls, ∀ y ∈ bbls, x = y := by
  rw [← List.card_toFinset, Finset.card_le_one]
  simp only [List.mem_toFinset]

theorem mem_sortGeoSearchCandidates : c ∈ sortGeoSearchCandidates locale pool ↔ c ∈ pool :=
  List.mem_insertionSort _

/-- Where the candidates carry one BBL, the first of the sort is taken. -/
theorem selectFromPool_of_carryBbl (h : CarryBbl pool bbl)
    (hfirst : (sortGeoSearchCandidates locale pool).head? = some c) :
    selectFromPool locale pool = .ok ⟨c, bbl⟩ := by
  have hsorted : ∀ d ∈ sortGeoSearchCandidates locale pool, candidateBbl d = .ok bbl :=
    fun d hd => h d (mem_sortGeoSearchCandidates.mp hd)
  obtain ⟨bbls, hbbls, hmem⟩ := mapM_candidateBbl_of_valid fun d hd => ⟨bbl, hsorted d hd⟩
  have hsame : ∀ x ∈ bbls, x = bbl := by
    intro x hx
    obtain ⟨d, hd, hx⟩ := (hmem x).mp hx
    rw [hsorted d hd] at hx
    exact (Except.ok.inj hx).symm
  have hdedup : ¬ bbls.dedup.length > 1 := Nat.not_lt.mpr (dedup_length_le_one_iff.mpr
    fun x hx y hy => (hsame x hx).trans (hsame y hy).symm)
  obtain ⟨rest, hrest⟩ := List.head?_eq_some_iff.mp hfirst
  rw [selectFromPool, hbbls]
  simp only [bind, Except.bind]
  rw [if_neg hdedup, hrest]
  simp only
  rw [h c (mem_sortGeoSearchCandidates.mp (List.mem_of_mem_head? hfirst))]
  rfl

/-- Where a BBL is not valid, or two are different, the error is the same in every order. -/
theorem selectFromPool_of_not_carryBbl (hne : pool ≠ []) (h : ∀ bbl, ¬ CarryBbl pool bbl) :
    selectFromPool locale pool =
      if pool.any (fun c => (candidateBbl c).toOption.isNone) then .error invalidCandidateBbl
      else .error geoSearchConflict := by
  by_cases hinvalid : ∃ c ∈ pool, ∃ e, candidateBbl c = .error e
  · obtain ⟨c, hc, e, he⟩ := hinvalid
    have hany : pool.any (fun c => (candidateBbl c).toOption.isNone) = true :=
      List.any_eq_true.mpr ⟨c, hc, by rw [he]; rfl⟩
    rw [hany, selectFromPool, mapM_candidateBbl_of_invalid
      ⟨c, mem_sortGeoSearchCandidates.mpr hc, e, he⟩]
    rfl
  · have hvalid : ∀ c ∈ pool, ∃ bbl, candidateBbl c = .ok bbl := by
      intro c hc
      cases hbbl : candidateBbl c with
      | error e => exact absurd ⟨c, hc, e, hbbl⟩ hinvalid
      | ok bbl => exact ⟨bbl, rfl⟩
    have hany : pool.any (fun c => (candidateBbl c).toOption.isNone) = false := by
      rw [List.any_eq_false]
      intro c hc
      obtain ⟨bbl, hbbl⟩ := hvalid c hc
      rw [hbbl]
      exact Bool.false_ne_true
    have hsorted : ∀ c ∈ sortGeoSearchCandidates locale pool, ∃ bbl, candidateBbl c = .ok bbl :=
      fun c hc => hvalid c (mem_sortGeoSearchCandidates.mp hc)
    obtain ⟨bbls, hbbls, hmem⟩ := mapM_candidateBbl_of_valid hsorted
    -- one BBL would be carried by all
    have hdedup : bbls.dedup.length > 1 := by
      by_contra hle
      have hsame := dedup_length_le_one_iff.mp (Nat.not_lt.mp hle)
      obtain ⟨c, hc⟩ := List.exists_mem_of_ne_nil pool hne
      obtain ⟨bbl, hbbl⟩ := hvalid c hc
      refine h bbl fun d hd => ?_
      obtain ⟨bbl', hbbl'⟩ := hvalid d hd
      rw [hbbl', hsame bbl' ((hmem bbl').mpr ⟨d, mem_sortGeoSearchCandidates.mpr hd, hbbl'⟩) bbl
        ((hmem bbl).mpr ⟨c, mem_sortGeoSearchCandidates.mpr hc, hbbl⟩)]
    rw [hany, selectFromPool, hbbls]
    simp only [bind, Except.bind]
    rw [if_pos hdedup]
    rfl

theorem exists_head?_sortGeoSearchCandidates (locale : LocaleCompare) (hne : pool ≠ []) :
    ∃ c, (sortGeoSearchCandidates locale pool).head? = some c := by
  obtain ⟨c, hc⟩ := List.exists_mem_of_ne_nil pool hne
  have hsorted : sortGeoSearchCandidates locale pool ≠ [] :=
    List.ne_nil_of_mem (mem_sortGeoSearchCandidates.mpr hc)
  exact ⟨_, List.head?_eq_some_head hsorted⟩

/-- **The choice is the same in every order of the pool, where no tie is for the first place.** -/
theorem selectFromPool_perm (hne : pool ≠ []) (hperm : pool'.Perm pool)
    (h : ∀ bbl, CarryBbl pool bbl → ¬ TiedForFirst locale pool) :
    selectFromPool locale pool' = selectFromPool locale pool := by
  by_cases hcarry : ∃ bbl, CarryBbl pool bbl
  · obtain ⟨bbl, hcarry⟩ := hcarry
    have hcarry' : CarryBbl pool' bbl := fun c hc => hcarry c (hperm.mem_iff.mp hc)
    obtain ⟨c, hc⟩ := exists_head?_sortGeoSearchCandidates locale hne
    have hc' : (sortGeoSearchCandidates locale pool').head? = some c := by
      rw [← hc]
      exact head?_insertionSort_perm_iff.mpr (not_tiedForFirst_iff.mp (h bbl hcarry)) pool' hperm
    rw [selectFromPool_of_carryBbl hcarry hc, selectFromPool_of_carryBbl hcarry' hc']
  · have hcarry' : ∀ bbl, ¬ CarryBbl pool' bbl := by
      intro bbl hbbl
      exact hcarry ⟨bbl, fun c hc => hbbl c (hperm.mem_iff.mpr hc)⟩
    have hne' : pool' ≠ [] := by
      rintro rfl
      exact hne hperm.nil_eq.symm
    rw [selectFromPool_of_not_carryBbl hne fun bbl hbbl => hcarry ⟨bbl, hbbl⟩,
      selectFromPool_of_not_carryBbl hne' hcarry', hperm.any_eq]

end Choice

/-- The errors of selection. -/
def selectionErrors : List IdentityError :=
  [geoSearchNoIdentifiers, geoSearchBoroughMissing, geoSearchConflict, invalidCandidateBbl]

/-- **A response without a parcel is refused with an error of the resolver.** -/
theorem selectGeoSearchCandidate_error {candidates : List GeoSearchCandidate}
    {normalizedBaseAddress : String} {e : IdentityError}
    (h : selectGeoSearchCandidate mapping locale candidates normalizedBaseAddress = .error e) :
    e ∈ selectionErrors := by
  rw [selectGeoSearchCandidate_eq] at h
  by_cases husable : candidates.any (isUsable mapping normalizedBaseAddress) = true
  · rw [if_pos husable] at h
    have hne := supportedCandidates_ne_nil.mp husable
    by_cases hcarry :
        ∃ bbl, CarryBbl (supportedCandidates mapping normalizedBaseAddress candidates) bbl
    · obtain ⟨bbl, hcarry⟩ := hcarry
      obtain ⟨c, hc⟩ := exists_head?_sortGeoSearchCandidates locale hne
      rw [selectFromPool_of_carryBbl hcarry hc] at h
      cases h
    · rw [selectFromPool_of_not_carryBbl hne fun bbl hbbl => hcarry ⟨bbl, hbbl⟩] at h
      split at h
      · cases h
        simp [selectionErrors]
      · cases h
        simp [selectionErrors]
  · rw [if_neg husable] at h
    split at h
    · cases h
      simp [selectionErrors]
    · cases h
      simp [selectionErrors]

/-! ### Every order of the response -/

section Order

variable {candidates candidates' : List GeoSearchCandidate} {normalizedBaseAddress : String}

/-- The supported candidates carry one valid BBL, and two of them are tied for the first place. -/
def OrderDecides (mapping : CaseMapping) (locale : LocaleCompare)
    (candidates : List GeoSearchCandidate) (normalizedBaseAddress : String) : Prop :=
  let supported := supportedCandidates mapping normalizedBaseAddress candidates
  (∃ bbl, CarryBbl supported bbl) ∧ TiedForFirst locale supported

/-- Where no tie decides, selection gives the same for every order of the response. -/
theorem selectGeoSearchCandidate_perm (hperm : candidates'.Perm candidates)
    (h : ¬ OrderDecides mapping locale candidates normalizedBaseAddress) :
    selectGeoSearchCandidate mapping locale candidates' normalizedBaseAddress =
      selectGeoSearchCandidate mapping locale candidates normalizedBaseAddress := by
  rw [selectGeoSearchCandidate_eq, selectGeoSearchCandidate_eq, hperm.any_eq, hperm.any_eq]
  by_cases husable : candidates.any (isUsable mapping normalizedBaseAddress) = true
  · rw [if_pos husable, if_pos husable]
    refine selectFromPool_perm (supportedCandidates_ne_nil.mp husable)
      (supportedCandidates_perm hperm) fun bbl hbbl htied => h ⟨⟨bbl, hbbl⟩, htied⟩
  · rw [if_neg husable, if_neg husable]

/-- Each candidate that is first may be the one selected. -/
theorem exists_perm_selectGeoSearchCandidate {bbl : CanonicalBbl}
    (hcarry : CarryBbl (supportedCandidates mapping normalizedBaseAddress candidates) bbl)
    (hfirst : IsFirst (NotAfter locale)
      (supportedCandidates mapping normalizedBaseAddress candidates) a) :
    ∃ response : List GeoSearchCandidate, response.Perm candidates ∧
      selectGeoSearchCandidate mapping locale response normalizedBaseAddress = .ok ⟨a, bbl⟩ := by
  obtain ⟨pool, hpool, hhead⟩ := hfirst.exists_perm
  obtain ⟨response, hperm, hresponse⟩ := exists_perm_supportedCandidates hpool
  have husable : response.any (isUsable mapping normalizedBaseAddress) = true := by
    rw [supportedCandidates_ne_nil, hresponse]
    exact List.ne_nil_of_mem (hpool.mem_iff.mpr hfirst.1)
  refine ⟨response, hperm, ?_⟩
  rw [selectGeoSearchCandidate_eq, if_pos husable, hresponse]
  exact selectFromPool_of_carryBbl (fun c hc => hcarry c (hpool.mem_iff.mp hc)) hhead

/-- The code of an error, where it has one. -/
def IdentityError.code? : IdentityError → Option String
  | .app code _ _ => some code
  | .database code => some code
  | .inconsistentResult => none
  | .typeError => none

/-- The same selection, or errors of one code. -/
def SameOutcome : Except IdentityError SelectedGeoSearchCandidate →
    Except IdentityError SelectedGeoSearchCandidate → Prop
  | .ok selected, .ok selected' => selected = selected'
  | .error e, .error e' => e.code? = e'.code?
  | _, _ => False

theorem SameOutcome.refl (result : Except IdentityError SelectedGeoSearchCandidate) :
    SameOutcome result result := by
  cases result with
  | error e => exact Eq.refl e.code?
  | ok selected => exact Eq.refl selected

/-- **Selection is independent of the order of the response exactly when no tie decides.** -/
theorem selectGeoSearchCandidate_sameOutcome_iff (mapping : CaseMapping) (locale : LocaleCompare)
    (candidates : List GeoSearchCandidate) (normalizedBaseAddress : String) :
    (∀ candidates' : List GeoSearchCandidate, candidates'.Perm candidates →
      SameOutcome (selectGeoSearchCandidate mapping locale candidates' normalizedBaseAddress)
        (selectGeoSearchCandidate mapping locale candidates normalizedBaseAddress)) ↔
      ¬ OrderDecides mapping locale candidates normalizedBaseAddress := by
  constructor
  · rintro h ⟨⟨bbl, hcarry⟩, a, ha, b, hb, hne, htied, hfirst⟩
    have hback : NotAfter locale b a := (tied_iff.mpr htied).2
    obtain ⟨response, hperm, hselected⟩ := exists_perm_selectGeoSearchCandidate hcarry ⟨ha, hfirst⟩
    obtain ⟨response', hperm', hselected'⟩ := exists_perm_selectGeoSearchCandidate hcarry
      ⟨hb, fun c hc => hback.trans (hfirst c hc)⟩
    -- the response as it came selects `a`, and it selects `b`
    have hsame := h response hperm
    have hsame' := h response' hperm'
    rw [hselected] at hsame
    rw [hselected'] at hsame'
    cases hresult : selectGeoSearchCandidate mapping locale candidates normalizedBaseAddress with
    | error e => rw [hresult] at hsame; exact hsame
    | ok selected =>
        rw [hresult] at hsame hsame'
        have hcandidate : (⟨a, bbl⟩ : SelectedGeoSearchCandidate) = ⟨b, bbl⟩ :=
          hsame.trans hsame'.symm
        exact hne (congrArg SelectedGeoSearchCandidate.candidate hcandidate)
  · intro h candidates' hperm
    rw [selectGeoSearchCandidate_perm hperm h]
    exact SameOutcome.refl _

end Order

/-! ### Two candidates without confidence -/

/-- The order of strings by code points. -/
def LocaleCompare.codePoints : LocaleCompare where
  localeCompare left right := if left = right then 0 else if left < right then -1 else 1
  eq_iff left right := by
    by_cases h : left = right
    · simp [h]
    · by_cases hlt : left < right
      · simp [h, hlt]
      · simp [h, hlt]
  neg_iff left right := by
    rcases lt_trichotomy left right with h | h | h
    · simp [h, h.ne, h.ne', h.not_gt]
    · simp [h]
    · simp [h, h.ne, h.ne', h.not_gt]
  trans {left middle right} h h' := by
    have hle : ∀ {x y : String},
        (if x = y then (0 : Int) else if x < y then -1 else 1) ≤ 0 ↔ x ≤ y := by
      intro x y
      rcases lt_trichotomy x y with h | h | h
      · simp [h, h.ne, h.le]
      · simp [h]
      · simp [h.ne', h.not_gt, h.not_ge]
    rw [hle] at h h' ⊢
    exact h.trans h'

deriving instance DecidableEq for SelectedGeoSearchCandidate

instance : DecidableRel SameOutcome := fun result result' =>
  match result, result' with
  | .ok _, .ok _ => inferInstanceAs (Decidable (_ = _))
  | .error _, .error _ => inferInstanceAs (Decidable (_ = _))
  | .ok _, .error _ => isFalse id
  | .error _, .ok _ => isFalse id

/-- A candidate of one parcel, without confidence. -/
def unratedCandidate (label sourceId bin : String) : GeoSearchCandidate where
  label := label
  name := none
  layer := "address"
  confidence := none
  bbl := some "1008350041"
  bin := some bin
  borough := none
  sourceId := some sourceId

/-- Two candidates differ in label and source id, and the first of the response is selected. -/
theorem selectGeoSearchCandidate_order_dependent :
    ¬ ∀ (mapping : CaseMapping) (locale : LocaleCompare)
      (candidates candidates' : List GeoSearchCandidate) (normalizedBaseAddress : String),
      (candidates.map GeoSearchCandidate.identity).Nodup → candidates'.Perm candidates →
        SameOutcome (selectGeoSearchCandidate mapping locale candidates' normalizedBaseAddress)
          (selectGeoSearchCandidate mapping locale candidates normalizedBaseAddress) := by
  intro h
  have hsame := h .ascii .codePoints
    [unratedCandidate "350 5 AVENUE, MANHATTAN" "1" "1015862",
      unratedCandidate "350 5 AVENUE, NEW YORK" "2" "1015863"]
    [unratedCandidate "350 5 AVENUE, NEW YORK" "2" "1015863",
      unratedCandidate "350 5 AVENUE, MANHATTAN" "1" "1015862"]
    "350 5 Avenue" (by decide) (List.Perm.swap _ _ [])
  revert hsame
  decide +kernel

/-! ### Consequences -/

section Consequences

theorem sourceId_eq_of_sourceText (ha : a.sourceId ≠ some "") (hb : b.sourceId ≠ some "")
    (h : a.sourceText = b.sourceText) : a.sourceId = b.sourceId := by
  rw [GeoSearchCandidate.sourceText, GeoSearchCandidate.sourceText] at h
  cases hsource : a.sourceId with
  | none =>
      cases hsource' : b.sourceId with
      | none => rfl
      | some text =>
          rw [hsource, hsource'] at h
          exact absurd (hsource'.trans (congrArg some h.symm)) hb
  | some text =>
      cases hsource' : b.sourceId with
      | none =>
          rw [hsource, hsource'] at h
          exact absurd (hsource.trans (congrArg some h)) ha
      | some text' =>
          rw [hsource, hsource'] at h
          exact congrArg some h

/-- The client gives no empty source id.  So of different candidates two are tied for the first place
exactly when none has a confidence. -/
theorem tiedForFirst_iff_of_distinct {pool : List GeoSearchCandidate}
    (hdistinct : (pool.map GeoSearchCandidate.identity).Nodup)
    (hsource : ∀ c ∈ pool, c.sourceId ≠ some "") :
    TiedForFirst locale pool ↔ 2 ≤ pool.length ∧ ∀ c ∈ pool, c.confidence = none := by
  constructor
  · rintro ⟨a, ha, b, hb, hne, htied, hfirst⟩
    have hnone : a.confidence = none := by
      rcases htied with ⟨hnone, -⟩ | ⟨hconfidence, hlabel, htext⟩
      · exact hnone
      · have hid := sourceId_eq_of_sourceText (hsource a ha) (hsource b hb) htext
        have hsame : a.identity = b.identity := by
          rw [GeoSearchCandidate.identity, hconfidence, hlabel, hid]
          rfl
        exact absurd (List.inj_on_of_nodup_map hdistinct ha hb hsame) hne
    refine ⟨?_, fun c hc => ?_⟩
    · have hpair : [a, b] ⊆ pool := by simp [ha, hb]
      have hnodup : [a, b].Nodup := by simp [hne]
      exact (hnodup.subperm hpair).length_le
    · rcases notAfter_iff.mp (hfirst c hc) with hc | ⟨left, _, hleft, -⟩
      · exact hc
      · rw [hnone] at hleft
        cases hleft
  · rintro ⟨hlength, hnone⟩
    cases pool with
    | nil => exact absurd hlength (Nat.not_succ_le_zero 1)
    | cons a rest =>
        cases rest with
        | nil => exact absurd hlength (Nat.not_succ_le_self 1)
        | cons b rest =>
            have hb : b ∈ a :: b :: rest := List.mem_cons_of_mem a List.mem_cons_self
            have hne : a ≠ b := by
              rintro rfl
              simp at hdistinct
            have htied : Tied a b := .inl ⟨hnone a List.mem_cons_self, hnone b hb⟩
            refine ⟨a, List.mem_cons_self, b, hb, hne, htied, fun c hc => ?_⟩
            exact notAfter_iff.mpr (.inl (hnone c hc))

/-- The source, with this answer of GeoSearch. -/
def PropertyResolverClients.answering (clients : PropertyResolverClients)
    (response : GeoSearchSearchResult) : PropertyResolverClients :=
  { clients with searchByAddress := fun _ => .ok response }

/-- So what an address resolves to, its BINs and the metadata stored with it are the same too. -/
theorem resolveUncachedAddress_perm {clients : PropertyResolverClients}
    {response response' : GeoSearchSearchResult} {normalized : AddressNormalizationResult}
    (hqueried : response'.queriedAddress = response.queriedAddress)
    (hperm : response'.candidates.Perm response.candidates)
    (h : ¬ OrderDecides mapping locale response.candidates response.queriedAddress) :
    resolveUncachedAddress (addressRules mapping locale) (clients.answering response') normalized =
      resolveUncachedAddress (addressRules mapping locale) (clients.answering response) normalized := by
  have hselected := selectGeoSearchCandidate_perm hperm h
  rw [← hqueried] at hselected
  cases hunit : normalized.normalizedUnitDesignation with
  | none =>
      rw [resolveUncachedAddress, resolveUncachedAddress, hunit]
      change (selectGeoSearchCandidate mapping locale response'.candidates
          response'.queriedAddress >>= _) =
        (selectGeoSearchCandidate mapping locale response.candidates response.queriedAddress >>= _)
      rw [hselected, hqueried]
      rfl
  | some unitDesignation =>
      rw [resolveUncachedAddress, resolveUncachedAddress, hunit]
      change (selectGeoSearchCandidate mapping locale response'.candidates
          response'.queriedAddress >>= _) =
        (selectGeoSearchCandidate mapping locale response.candidates response.queriedAddress >>= _)
      rw [hselected, hqueried]
      rfl

end Consequences

end NycPropertyResolver
