import NycPropertyResolver.Identity.AddressTokens

/-!
# Identity — the unit of an address

What `extractUnitDesignator` finds in a text of words: a unit that ends it (`UnitText`), at the one
place where it can begin, or a unit that is all of it (`UnitOnlyText`).  Neither depends on how a
backtracking matcher goes about it.
-/

namespace NycPropertyResolver

open Library

/-! ### The texts of a unit -/

/-- The texts of a keyword, in lower case. -/
def unitKeywords : List (List Char) :=
  ["apt".toList, "apartment".toList, "unit".toList, "suite".toList, "ste".toList, "floor".toList,
    "fl".toList]

/-- One of the keywords, in either case. -/
def IsUnitKeyword (text : List Char) : Prop := lowered text ∈ unitKeywords

instance (text : List Char) : Decidable (IsUnitKeyword text) :=
  inferInstanceAs (Decidable (lowered text ∈ unitKeywords))

/-- A letter or a digit, then letters, digits and hyphens. -/
def IsUnitValue (text : List Char) : Prop :=
  ∃ a w, text = a :: w ∧ a.isAlphanum = true ∧ ∀ c ∈ w, isUnitValueChar c = true

/-- What is in front of a value: a keyword, with a period or without, or a hash sign. -/
inductive UnitLead : List Char → Option (List Char) → Prop
  | keyword {keyword : List Char} (h : IsUnitKeyword keyword) : UnitLead keyword (some keyword)
  | period {keyword : List Char} (h : IsUnitKeyword keyword) :
      UnitLead (keyword ++ ['.']) (some keyword)
  | hash : UnitLead ['#'] none

/-- What ends an address with a unit, of which `isValue` tells the values; after a hash sign there may
be no space. -/
inductive UnitText (isValue : List Char → Prop) : List Char → Option (List Char) → List Char → Prop
  | spaced {lead value : List Char} {keyword : Option (List Char)} (hlead : UnitLead lead keyword)
      (hvalue : isValue value) : UnitText isValue (' ' :: (lead ++ ' ' :: value)) keyword value
  | hash {value : List Char} (hvalue : isValue value) :
      UnitText isValue (' ' :: '#' :: value) none value

/-- An address that is a unit and nothing else. -/
def UnitOnlyText (isValue : List Char → Prop) (text keyword value : List Char) : Prop :=
  ∃ lead, UnitLead lead (some keyword) ∧ isValue value ∧ text = lead ++ ' ' :: value

/-! ### Where the patterns stop -/

section Patterns

variable {c d : MatchState Char UnitGroup}

theorem mem_runs_textIgnoringCase {text : List Char} :
    d ∈ Regex.runs (textIgnoringCase text) c ↔
      ∃ w rest, c.ahead = w ++ rest ∧ lowered w = text ∧ d = c.advance w rest := by
  have hiff : ∀ w : List Char, List.Forall₂ (fun (p : Char → Bool) a => p a = true)
      (text.map ignoringCase) w ↔ lowered w = text := by
    intro w
    induction text generalizing w with
    | nil => cases w <;> simp [lowered]
    | cons letter text ih =>
        cases w with
        | nil => simp [lowered]
        | cons a w =>
            rw [List.map_cons, List.forall₂_cons, ih, ignoringCase, beq_iff_eq]
            exact List.cons_eq_cons.symm
  rw [textIgnoringCase, Regex.mem_runs_word]
  exact exists_congr fun w => exists_congr fun rest => and_congr_right fun _ =>
    and_congr_left fun _ => hiff w

theorem mem_runs_unitKeyword : d ∈ Regex.runs unitKeywordPattern c ↔
    ∃ w rest, c.ahead = w ++ rest ∧ IsUnitKeyword w ∧ d = c.advance w rest := by
  rw [unitKeywordPattern, Regex.mem_runs_oneOf]
  constructor
  · rintro ⟨s, hs, hd⟩
    have hone : ∃ text ∈ unitKeywords, s = textIgnoringCase text := by
      simpa [unitKeywords] using hs
    obtain ⟨text, htext, rfl⟩ := hone
    obtain ⟨w, rest, hahead, hw, rfl⟩ := mem_runs_textIgnoringCase.mp hd
    refine ⟨w, rest, hahead, ?_, rfl⟩
    rw [IsUnitKeyword, hw]
    exact htext
  · rintro ⟨w, rest, hahead, hw, rfl⟩
    refine ⟨textIgnoringCase (lowered w), ?_, mem_runs_textIgnoringCase.mpr ⟨w, rest, hahead, rfl, rfl⟩⟩
    have hmem : textIgnoringCase (lowered w) ∈ unitKeywords.map textIgnoringCase :=
      List.mem_map_of_mem hw
    exact hmem

theorem mem_runs_unitValue : d ∈ Regex.runs unitValuePattern c ↔
    ∃ w rest, c.ahead = w ++ rest ∧ IsUnitValue w ∧ d = c.advance w rest := by
  rw [unitValuePattern, Regex.mem_runs_seq]
  constructor
  · rintro ⟨e, he, hd⟩
    obtain ⟨a, rest', hahead, ha, rfl⟩ := Regex.mem_runs_char.mp he
    obtain ⟨w, rest, hrest, hw, rfl⟩ := Regex.mem_runs_star_char.mp hd
    rw [MatchState.advance_ahead] at hrest
    subst hrest
    exact ⟨a :: w, rest, hahead, ⟨a, w, rfl, ha, hw⟩, c.advance_advance [a] w _ rest⟩
  · rintro ⟨_, rest, hahead, ⟨a, w, rfl, ha, hw⟩, rfl⟩
    refine ⟨c.advance [a] (w ++ rest), Regex.mem_runs_char.mpr ⟨a, _, hahead, ha, rfl⟩, ?_⟩
    exact Regex.mem_runs_star_char.mpr ⟨w, rest, rfl, hw, (c.advance_advance [a] w _ rest).symm⟩

theorem mem_runs_group_unitValue {name : UnitGroup} :
    d ∈ Regex.runs (.group name unitValuePattern) c ↔
      ∃ value rest, c.ahead = value ++ rest ∧ IsUnitValue value ∧
        d = (c.advance value rest).capture name value := by
  rw [Regex.mem_runs_group]
  constructor
  · rintro ⟨e, he, rfl⟩
    obtain ⟨value, rest, hahead, hvalue, rfl⟩ := mem_runs_unitValue.mp he
    exact ⟨value, rest, hahead, hvalue, by rw [Regex.upTo_advance hahead]⟩
  · rintro ⟨value, rest, hahead, hvalue, rfl⟩
    refine ⟨c.advance value rest, mem_runs_unitValue.mpr ⟨value, rest, hahead, hvalue, rfl⟩, ?_⟩
    rw [Regex.upTo_advance hahead]

/-- Where a keyword, its period and the white space after it end. -/
theorem mem_runs_keywordUnit : d ∈ Regex.runs keywordUnitPattern c ↔
    ∃ keyword lead gap value rest, UnitLead lead (some keyword) ∧ gap ≠ [] ∧
      (∀ a ∈ gap, isWhitespace a = true) ∧ IsUnitValue value ∧
      c.ahead = lead ++ (gap ++ (value ++ rest)) ∧
      d = ⟨(lead ++ (gap ++ value)).reverse ++ c.behind, rest,
        (.keywordValue, value) :: (.keyword, keyword) :: c.groups⟩ := by
  rw [keywordUnitPattern, Regex.mem_runs_seq]
  constructor
  · rintro ⟨e₁, he₁, hd⟩
    obtain ⟨e₂, he₂, rfl⟩ := Regex.mem_runs_group.mp he₁
    obtain ⟨keyword, rest₁, hahead, hkeyword, rfl⟩ := mem_runs_unitKeyword.mp he₂
    rw [Regex.upTo_advance hahead] at hd
    obtain ⟨e, he, hd⟩ := Regex.mem_runs_seq.mp hd
    obtain ⟨f, hf, hd⟩ := Regex.mem_runs_seq.mp hd
    obtain ⟨gap, rest₂, hne, hrest₁, hgap, rfl⟩ := Regex.mem_runs_plus_char.mp hf
    obtain ⟨value, rest, hrest₂, hvalue, rfl⟩ := mem_runs_group_unitValue.mp hd
    have hrest : rest₂ = value ++ rest := hrest₂
    subst hrest
    rcases Regex.mem_runs_optional.mp he with he | rfl
    · obtain ⟨a, rest', hdot, ha, rfl⟩ := Regex.mem_runs_char.mp he
      have hrest' : rest' = gap ++ (value ++ rest) := hrest₁
      have hdot' : rest₁ = a :: rest' := hdot
      rw [beq_iff_eq] at ha
      subst hrest' hdot' ha
      refine ⟨keyword, keyword ++ ['.'], gap, value, rest, UnitLead.period hkeyword, hne, hgap, hvalue,
        by simpa using hahead, ?_⟩
      simp [MatchState.capture, MatchState.advance]
    · have hrest₁' : rest₁ = gap ++ (value ++ rest) := hrest₁
      subst hrest₁'
      refine ⟨keyword, keyword, gap, value, rest, UnitLead.keyword hkeyword, hne, hgap, hvalue, hahead, ?_⟩
      simp [MatchState.capture, MatchState.advance]
  · rintro ⟨keyword, lead, gap, value, rest, hlead, hne, hgap, hvalue, hahead, rfl⟩
    -- the state past the keyword, past its period, past the white space
    rcases hlead with hkeyword | hkeyword
    · refine ⟨_, Regex.mem_runs_group.mpr ⟨_, mem_runs_unitKeyword.mpr ⟨keyword, _, hahead, hkeyword,
        rfl⟩, rfl⟩, ?_⟩
      refine Regex.mem_runs_seq.mpr ⟨_, Regex.mem_runs_optional.mpr (.inr rfl), ?_⟩
      refine Regex.mem_runs_seq.mpr ⟨_, Regex.mem_runs_plus_char.mpr ⟨gap, _, hne, rfl, hgap, rfl⟩, ?_⟩
      refine mem_runs_group_unitValue.mpr ⟨value, rest, rfl, hvalue, ?_⟩
      rw [Regex.upTo_advance hahead]
      simp [MatchState.capture, MatchState.advance]
    · rw [List.append_assoc] at hahead
      refine ⟨_, Regex.mem_runs_group.mpr ⟨_, mem_runs_unitKeyword.mpr ⟨keyword, _, hahead, hkeyword,
        rfl⟩, rfl⟩, ?_⟩
      refine Regex.mem_runs_seq.mpr ⟨_, Regex.mem_runs_optional.mpr (.inl
        (Regex.mem_runs_char.mpr ⟨'.', _, rfl, rfl, rfl⟩)), ?_⟩
      refine Regex.mem_runs_seq.mpr ⟨_, Regex.mem_runs_plus_char.mpr ⟨gap, _, hne, rfl, hgap, rfl⟩, ?_⟩
      refine mem_runs_group_unitValue.mpr ⟨value, rest, rfl, hvalue, ?_⟩
      rw [Regex.upTo_advance hahead]
      simp [MatchState.capture, MatchState.advance]

theorem mem_runs_hashUnit : d ∈ Regex.runs hashUnitPattern c ↔
    ∃ gap value rest, (∀ a ∈ gap, isWhitespace a = true) ∧ IsUnitValue value ∧
      c.ahead = '#' :: (gap ++ (value ++ rest)) ∧
      d = ⟨('#' :: (gap ++ value)).reverse ++ c.behind, rest, (.hashValue, value) :: c.groups⟩ := by
  rw [hashUnitPattern, Regex.mem_runs_seq]
  constructor
  · rintro ⟨e, he, hd⟩
    obtain ⟨a, rest₁, hahead, ha, rfl⟩ := Regex.mem_runs_char.mp he
    obtain ⟨f, hf, hd⟩ := Regex.mem_runs_seq.mp hd
    obtain ⟨gap, rest₂, hrest₁, hgap, rfl⟩ := Regex.mem_runs_star_char.mp hf
    obtain ⟨value, rest, hrest₂, hvalue, rfl⟩ := mem_runs_group_unitValue.mp hd
    have hrest : rest₂ = value ++ rest := hrest₂
    have hgapRest : rest₁ = gap ++ rest₂ := hrest₁
    rw [beq_iff_eq] at ha
    subst hrest hgapRest ha
    refine ⟨gap, value, rest, hgap, hvalue, hahead, ?_⟩
    simp [MatchState.capture, MatchState.advance]
  · rintro ⟨gap, value, rest, hgap, hvalue, hahead, rfl⟩
    refine ⟨_, Regex.mem_runs_char.mpr ⟨'#', _, hahead, rfl, rfl⟩, ?_⟩
    refine Regex.mem_runs_seq.mpr ⟨_, Regex.mem_runs_star_char.mpr ⟨gap, _, rfl, hgap, rfl⟩, ?_⟩
    refine mem_runs_group_unitValue.mpr ⟨value, rest, rfl, hvalue, ?_⟩
    simp [MatchState.capture, MatchState.advance]

/-- **Where the designator pattern stops, it has read a unit.** -/
theorem unitText_of_mem {before rest : List Char} (hspaced : Spaced isWhitespace ' ' (before ++ rest))
    (h : d ∈ Regex.runs unitDesignatorPattern ⟨before.reverse, rest, []⟩) :
    ∃ keyword value, UnitText IsUnitValue rest keyword value ∧ d.captured .keyword = keyword ∧
      (d.captured .keywordValue).or (d.captured .hashValue) = some value := by
  obtain ⟨e₁, he₁, h⟩ := Regex.mem_runs_seq.mp h
  obtain ⟨gap, rest₁, hne, hrest, hgap, rfl⟩ := Regex.mem_runs_plus_char.mp he₁
  obtain ⟨e₂, he₂, h⟩ := Regex.mem_runs_seq.mp h
  obtain ⟨e₃, he₃, h⟩ := Regex.mem_runs_seq.mp h
  obtain ⟨gapEnd, rest₃, hrest₃, hgapEnd, rfl⟩ := Regex.mem_runs_star_char.mp he₃
  obtain ⟨hend, rfl⟩ := Regex.mem_runs_atEnd.mp h
  have hrest' : rest = gap ++ rest₁ := hrest
  have hend' : rest₃ = [] := hend
  subst hrest' hend'
  have hone : gap = [' '] := ((hspaced.gap rfl hgap).resolve_left hne).1
  subst hone
  rcases Regex.mem_runs_alt.mp he₂ with he₂ | he₂
  · obtain ⟨keyword, lead, gap₂, value, rest₂, hlead, hne₂, hgap₂, hvalue, hahead, rfl⟩ :=
      mem_runs_keywordUnit.mp he₂
    have hrest₂ : rest₂ = gapEnd ++ [] := hrest₃
    have hahead' : rest₁ = lead ++ (gap₂ ++ (value ++ rest₂)) := hahead
    subst hrest₂ hahead'
    have hone : gap₂ = [' '] := by
      have hsplit : before ++ ([' '] ++ (lead ++ (gap₂ ++ (value ++ (gapEnd ++ []))))) =
          (before ++ ' ' :: lead) ++ (gap₂ ++ (value ++ (gapEnd ++ []))) := by simp
      exact ((hspaced.gap hsplit hgap₂).resolve_left hne₂).1
    subst hone
    have hnone : gapEnd = [] := by
      have hsplit : before ++ ([' '] ++ (lead ++ ([' '] ++ (value ++ (gapEnd ++ []))))) =
          (before ++ ' ' :: (lead ++ ' ' :: value)) ++ (gapEnd ++ []) := by simp
      exact (hspaced.gap hsplit hgapEnd).resolve_right fun h => h.2 rfl
    subst hnone
    refine ⟨some keyword, value, ?_, rfl, rfl⟩
    have hunit : UnitText IsUnitValue (' ' :: (lead ++ ' ' :: value)) (some keyword) value :=
      .spaced hlead hvalue
    simpa using hunit
  · obtain ⟨gap₂, value, rest₂, hgap₂, hvalue, hahead, rfl⟩ := mem_runs_hashUnit.mp he₂
    have hrest₂ : rest₂ = gapEnd ++ [] := hrest₃
    have hahead' : rest₁ = '#' :: (gap₂ ++ (value ++ rest₂)) := hahead
    subst hrest₂ hahead'
    have hnone : gapEnd = [] := by
      have hsplit : before ++ ([' '] ++ '#' :: (gap₂ ++ (value ++ (gapEnd ++ [])))) =
          (before ++ ' ' :: '#' :: (gap₂ ++ value)) ++ (gapEnd ++ []) := by simp
      exact (hspaced.gap hsplit hgapEnd).resolve_right fun h => h.2 rfl
    subst hnone
    refine ⟨none, value, ?_, rfl, rfl⟩
    have hcases : gap₂ = [] ∨ gap₂ = [' '] := by
      have hsplit : before ++ ([' '] ++ '#' :: (gap₂ ++ (value ++ ([] ++ [])))) =
          (before ++ [' ', '#']) ++ (gap₂ ++ (value ++ ([] ++ []))) := by simp
      exact (hspaced.gap hsplit hgap₂).imp_right And.left
    rcases hcases with rfl | rfl
    · have hunit : UnitText IsUnitValue (' ' :: '#' :: value) none value := .hash hvalue
      simpa using hunit
    · have hunit : UnitText IsUnitValue (' ' :: (['#'] ++ ' ' :: value)) none value :=
        .spaced .hash hvalue
      simpa using hunit

theorem mem_runs_end (h : c.ahead = []) :
    c ∈ Regex.runs (.seq (.star whitespaceClass) .atEnd) c := by
  refine Regex.mem_runs_seq.mpr ⟨c, Regex.mem_runs_star_char.mpr ⟨[], c.ahead, rfl, by simp, rfl⟩, ?_⟩
  exact Regex.mem_runs_atEnd.mpr ⟨h, rfl⟩

/-- A unit is a place for the designator pattern to stop at. -/
theorem exists_mem_of_unitText (behind : List Char) {rest value : List Char}
    {keyword : Option (List Char)} (h : UnitText IsUnitValue rest keyword value) :
    ∃ d, d ∈ Regex.runs unitDesignatorPattern ⟨behind, rest, []⟩ := by
  have hspace : ∀ a ∈ [' '], isWhitespace a = true := by simp [isWhitespace]
  have hstart : ∀ {text : List Char} {d : MatchState Char UnitGroup},
      d ∈ Regex.runs (.alt keywordUnitPattern hashUnitPattern)
        (MatchState.advance ⟨behind, ' ' :: text, []⟩ [' '] text) → d.ahead = [] →
      ∃ d, d ∈ Regex.runs unitDesignatorPattern ⟨behind, ' ' :: text, []⟩ := by
    intro text d hd hend
    refine ⟨d, Regex.mem_runs_seq.mpr ⟨_, Regex.mem_runs_plus_char.mpr
      ⟨[' '], text, List.cons_ne_nil _ _, rfl, hspace, rfl⟩, ?_⟩⟩
    exact Regex.mem_runs_seq.mpr ⟨d, hd, mem_runs_end hend⟩
  cases h with
  | @spaced lead _ _ hlead hvalue =>
      cases hlead with
      | keyword hkeyword =>
          refine hstart (Regex.mem_runs_alt.mpr (.inl (mem_runs_keywordUnit.mpr ⟨lead, lead, [' '],
            value, [], .keyword hkeyword, List.cons_ne_nil _ _, hspace, hvalue, ?_, rfl⟩))) rfl
          simp
      | @period keyword hkeyword =>
          refine hstart (Regex.mem_runs_alt.mpr (.inl (mem_runs_keywordUnit.mpr ⟨keyword,
            keyword ++ ['.'], [' '], value, [], .period hkeyword, List.cons_ne_nil _ _, hspace, hvalue,
            ?_, rfl⟩))) rfl
          simp
      | hash =>
          refine hstart (Regex.mem_runs_alt.mpr (.inr (mem_runs_hashUnit.mpr ⟨[' '], value, [], hspace,
            hvalue, ?_, rfl⟩))) rfl
          simp
  | hash hvalue =>
      refine hstart (Regex.mem_runs_alt.mpr (.inr (mem_runs_hashUnit.mpr ⟨[], value, [], by simp,
        hvalue, ?_, rfl⟩))) rfl
      simp

/-- **Where the unit-only pattern stops, it has read a unit.** -/
theorem unitOnlyText_of_mem {text : List Char} (hspaced : Spaced isWhitespace ' ' text)
    (h : d ∈ Regex.runs (.seq keywordUnitPattern .atEnd) ⟨[], text, []⟩) :
    ∃ keyword value, UnitOnlyText IsUnitValue text keyword value ∧
      d.captured .keyword = some keyword ∧ d.captured .keywordValue = some value := by
  obtain ⟨e, he, h⟩ := Regex.mem_runs_seq.mp h
  obtain ⟨keyword, lead, gap, value, rest, hlead, hne, hgap, hvalue, hahead, rfl⟩ :=
    mem_runs_keywordUnit.mp he
  obtain ⟨hend, rfl⟩ := Regex.mem_runs_atEnd.mp h
  have hend' : rest = [] := hend
  have hahead' : text = lead ++ (gap ++ (value ++ rest)) := hahead
  subst hend' hahead'
  have hone : gap = [' '] := ((hspaced.gap rfl hgap).resolve_left hne).1
  subst hone
  exact ⟨keyword, value, ⟨lead, hlead, hvalue, by simp⟩, rfl, rfl⟩

theorem exists_mem_of_unitOnlyText {text keyword value : List Char}
    (h : UnitOnlyText IsUnitValue text keyword value) :
    ∃ d, d ∈ Regex.runs (.seq keywordUnitPattern .atEnd) ⟨[], text, []⟩ := by
  obtain ⟨lead, hlead, hvalue, rfl⟩ := h
  refine ⟨_, Regex.mem_runs_seq.mpr ⟨_, mem_runs_keywordUnit.mpr ⟨keyword, lead, [' '], value, [],
    hlead, List.cons_ne_nil _ _, by simp [isWhitespace], hvalue, by simp, rfl⟩,
    Regex.mem_runs_atEnd.mpr ⟨rfl, rfl⟩⟩⟩

end Patterns

/-! ### One place for a unit -/

section Unique

variable {isValue : List Char → Prop} {lead lead' value value' : List Char}
  {keyword keyword' : Option (List Char)}

/-- A text cut at its last separator. -/
theorem append_cons_inj {a b x y : List Char} (hx : ' ' ∉ x) (hy : ' ' ∉ y)
    (h : a ++ ' ' :: x = b ++ ' ' :: y) : a = b ∧ x = y := by
  induction a generalizing b with
  | nil =>
      cases b with
      | nil => exact ⟨rfl, (List.cons.inj h).2⟩
      | cons c b =>
          obtain ⟨rfl, hrest⟩ := List.cons.inj h
          exact absurd (hrest ▸ List.mem_append_right b List.mem_cons_self) hx
  | cons c a ih =>
      cases b with
      | nil =>
          obtain ⟨rfl, hrest⟩ := List.cons.inj h
          exact absurd (hrest ▸ List.mem_append_right a List.mem_cons_self) hy
      | cons d b =>
          obtain ⟨rfl, hrest⟩ := List.cons.inj h
          obtain ⟨rfl, rfl⟩ := ih hrest
          exact ⟨rfl, rfl⟩

/-- The values of a unit begin with a letter or a digit, and have no space in them. -/
structure ValueClass (isValue : List Char → Prop) : Prop where
  head : ∀ {value}, isValue value → ∀ a, value.head? = some a → a.isAlphanum = true
  space : ∀ {value}, isValue value → ' ' ∉ value

theorem lowered_of_keyword {text : List Char} (h : IsUnitKeyword text) :
    ∀ c ∈ text, c.isAlpha = true := by
  intro c hc
  rw [← isAlpha_toLower]
  have hall : unitKeywords.all (fun word => word.all Char.isAlpha) = true := by decide
  exact List.all_eq_true.mp (List.all_eq_true.mp hall (lowered text) h) c.toLower
    (List.mem_map_of_mem hc)

theorem UnitLead.space (h : UnitLead lead keyword) : ' ' ∉ lead := by
  have hkeyword : ∀ {text : List Char}, IsUnitKeyword text → ' ' ∉ text := by
    intro text htext hmem
    exact absurd (lowered_of_keyword htext ' ' hmem) (by decide)
  cases h with
  | keyword h => exact hkeyword h
  | period h =>
      intro hmem
      rcases List.mem_append.mp hmem with hmem | hmem
      · exact hkeyword h hmem
      · simp at hmem
  | hash => simp

/-- The keyword in front of a value. -/
def leadKeyword (lead : List Char) : Option (List Char) :=
  if lead = ['#'] then none else some (lead.rdropWhile (· == '.'))

/-- What is in front of a value tells the keyword. -/
theorem UnitLead.keyword_eq (h : UnitLead lead keyword) : keyword = leadKeyword lead := by
  have hself : ∀ {text : List Char}, IsUnitKeyword text → text.rdropWhile (· == '.') = text := by
    intro text htext
    rw [List.rdropWhile_eq_self_iff]
    intro hne hdot
    rw [beq_iff_eq] at hdot
    have halpha := lowered_of_keyword htext _ (List.getLast_mem hne)
    rw [hdot] at halpha
    exact absurd halpha (by decide)
  have hhash : ∀ {text rest : List Char}, IsUnitKeyword text → text ++ rest ≠ ['#'] := by
    intro text rest htext heq
    cases text with
    | nil => exact absurd htext (by decide)
    | cons c text =>
        cases (List.cons.inj heq).1
        exact absurd (lowered_of_keyword htext '#' List.mem_cons_self) (by decide)
  cases h with
  | keyword h =>
      have hne : lead ++ [] ≠ ['#'] := hhash h
      rw [List.append_nil] at hne
      rw [leadKeyword, if_neg hne, hself h]
  | period h => rw [leadKeyword, if_neg (hhash h), List.rdropWhile_concat_pos _ _ _ rfl, hself h]
  | hash => rfl

/-- **A text ends in one unit at most.** -/
theorem UnitText.unique (hclass : ValueClass isValue) {base base' rest rest' : List Char}
    (h : UnitText isValue rest keyword value) (h' : UnitText isValue rest' keyword' value')
    (heq : base ++ rest = base' ++ rest') : base = base' ∧ keyword = keyword' ∧ value = value' := by
  have hsign : ∀ {v w : List Char}, isValue v → v ≠ '#' :: w := by
    rintro v w hv rfl
    exact absurd (hclass.head hv '#' rfl) (by decide)
  have hhash : ∀ {v : List Char}, isValue v → ' ' ∉ '#' :: v := by
    intro v hv hmem
    rcases List.mem_cons.mp hmem with hmem | hmem
    · cases hmem
    · exact hclass.space hv hmem
  have hassoc : ∀ a l v : List Char, a ++ ' ' :: (l ++ ' ' :: v) = (a ++ ' ' :: l) ++ ' ' :: v := by
    intro a l v
    simp
  cases h with
  | spaced hlead hvalue =>
      cases h' with
      | spaced hlead' hvalue' =>
          rw [hassoc, hassoc] at heq
          obtain ⟨hbase, rfl⟩ := append_cons_inj (hclass.space hvalue) (hclass.space hvalue') heq
          obtain ⟨rfl, rfl⟩ := append_cons_inj hlead.space hlead'.space hbase
          exact ⟨rfl, hlead.keyword_eq.trans hlead'.keyword_eq.symm, rfl⟩
      | hash hvalue' =>
          rw [hassoc] at heq
          obtain ⟨-, rfl⟩ := append_cons_inj (hclass.space hvalue) (hhash hvalue') heq
          exact absurd rfl (hsign hvalue)
  | hash hvalue =>
      cases h' with
      | spaced hlead' hvalue' =>
          rw [hassoc base'] at heq
          obtain ⟨-, hv⟩ := append_cons_inj (hhash hvalue) (hclass.space hvalue') heq
          exact absurd hv.symm (hsign hvalue')
      | hash hvalue' =>
          obtain ⟨rfl, hv⟩ := append_cons_inj (hhash hvalue) (hhash hvalue') heq
          exact ⟨rfl, rfl, (List.cons.inj hv).2⟩

theorem UnitOnlyText.unique (hclass : ValueClass isValue) {text keyword keyword' : List Char}
    (h : UnitOnlyText isValue text keyword value) (h' : UnitOnlyText isValue text keyword' value') :
    keyword = keyword' ∧ value = value' := by
  obtain ⟨lead, hlead, hvalue, rfl⟩ := h
  obtain ⟨lead', hlead', hvalue', heq⟩ := h'
  obtain ⟨rfl, rfl⟩ := append_cons_inj (hclass.space hvalue) (hclass.space hvalue') heq
  exact ⟨Option.some.inj (hlead.keyword_eq.trans hlead'.keyword_eq.symm), rfl⟩

theorem isUnitValue_class : ValueClass IsUnitValue where
  head := by
    rintro _ ⟨a, w, rfl, ha, -⟩ b hb
    cases hb
    exact ha
  space := by
    rintro _ ⟨a, w, rfl, ha, hw⟩ hmem
    rcases List.mem_cons.mp hmem with rfl | hmem
    · exact absurd ha (by decide)
    · exact absurd (hw ' ' hmem) (by decide)

end Unique

/-! ### What is extracted -/

section Extract

variable {mapping : CaseMapping} {text : List Char}

/-- The unit of a keyword and a value. -/
def unitMatch (mapping : CaseMapping) (keyword : Option (List Char)) (value : List Char) : UnitMatch where
  keyword := (keyword.map (canonicalUnitKeyword mapping)).getD .hash
  value := normalizeUnitValue mapping value

/-- The text is a unit and nothing else. -/
def IsUnitOnly (text : List Char) : Prop :=
  ∃ keyword value, UnitOnlyText IsUnitValue text keyword value

/-- The text ends in a unit. -/
def EndsInUnit (text : List Char) : Prop :=
  ∃ base rest keyword value, text = base ++ rest ∧ UnitText IsUnitValue rest keyword value

theorem test_unitOnlyPattern (hspaced : Spaced isWhitespace ' ' text) :
    Regex.test unitOnlyPattern text = true ↔ IsUnitOnly text := by
  constructor
  · intro h
    obtain ⟨d, hd⟩ := of_test_anchored h
    obtain ⟨keyword, value, hunit, -⟩ := unitOnlyText_of_mem hspaced hd
    exact ⟨keyword, value, hunit⟩
  · rintro ⟨keyword, value, hunit⟩
    obtain ⟨d, hd⟩ := exists_mem_of_unitOnlyText hunit
    refine Regex.test_iff.mpr ⟨[], text, d, rfl, Regex.mem_runs_seq.mpr ⟨_, ?_, hd⟩⟩
    exact Regex.mem_runs_atStart.mpr ⟨rfl, rfl⟩

theorem test_unitDesignatorPattern (hspaced : Spaced isWhitespace ' ' text) :
    Regex.test unitDesignatorPattern text = true ↔ EndsInUnit text := by
  constructor
  · intro h
    obtain ⟨base, rest, d, rfl, hd⟩ := Regex.test_iff.mp h
    obtain ⟨keyword, value, hunit, -⟩ := unitText_of_mem hspaced hd
    exact ⟨base, rest, keyword, value, rfl, hunit⟩
  · rintro ⟨base, rest, keyword, value, rfl, hunit⟩
    obtain ⟨d, hd⟩ := exists_mem_of_unitText base.reverse hunit
    exact Regex.test_iff.mpr ⟨base, rest, d, rfl, hd⟩

theorem isEmpty_of_value {value : List Char} (h : IsUnitValue value) : value.isEmpty = false := by
  obtain ⟨a, w, rfl, -⟩ := h
  rfl

theorem isEmpty_of_keyword {keyword : List Char} (h : IsUnitKeyword keyword) :
    keyword.isEmpty = false := by
  cases keyword with
  | nil => exact absurd h (by decide)
  | cons c keyword => rfl

theorem UnitLead.isUnitKeyword {lead keyword : List Char} (h : UnitLead lead (some keyword)) :
    IsUnitKeyword keyword := by
  cases h with
  | keyword h => exact h
  | period h => exact h

theorem UnitText.isValue {isValue : List Char → Prop} {rest value : List Char}
    {keyword : Option (List Char)} (h : UnitText isValue rest keyword value) : isValue value := by
  cases h with
  | spaced _ h => exact h
  | hash h => exact h

theorem UnitText.isUnitKeyword {isValue : List Char → Prop} {rest keyword value : List Char}
    (h : UnitText isValue rest (some keyword) value) : IsUnitKeyword keyword := by
  cases h with
  | spaced hlead _ => exact hlead.isUnitKeyword

/-- What an anchored pattern has matched. -/
theorem of_exec_anchored {γ : Type} {r : Regex Char γ} {m : Regex.Match Char γ}
    (h : Regex.exec (.seq .atStart r) text = some m) :
    m.stop ∈ Regex.runs r ⟨[], text, []⟩ := by
  obtain ⟨rest, htext, hstop⟩ := Regex.exec_eq_some h
  obtain ⟨e, he, hstop⟩ := Regex.mem_runs_seq.mp hstop
  obtain ⟨hbefore, rfl⟩ := Regex.mem_runs_atStart.mp he
  rw [List.reverse_eq_nil_iff] at hbefore
  rw [hbefore, List.nil_append] at htext
  rwa [hbefore, ← htext] at hstop

/-- **A unit and nothing else.** -/
theorem extractUnitDesignator_only (hspaced : Spaced isWhitespace ' ' text) {keyword value : List Char}
    (h : UnitOnlyText IsUnitValue text keyword value) :
    extractUnitDesignator mapping text = ([], some (unitMatch mapping (some keyword) value)) := by
  have htest := (test_unitOnlyPattern hspaced).mpr ⟨keyword, value, h⟩
  obtain ⟨m, hm⟩ := Option.isSome_iff_exists.mp htest
  obtain ⟨keyword', value', hunit, hkeyword, hvalue⟩ := unitOnlyText_of_mem hspaced (of_exec_anchored hm)
  obtain ⟨rfl, rfl⟩ := hunit.unique isUnitValue_class h
  obtain ⟨lead, hlead, hisValue, -⟩ := h
  have hk : capturedText? m .keyword = some keyword' := by
    rw [capturedText?, hkeyword, Option.filter_some_pos (by rw [isEmpty_of_keyword hlead.isUnitKeyword]; rfl)]
  have hv : capturedText? m .keywordValue = some value' := by
    rw [capturedText?, hvalue, Option.filter_some_pos (by rw [isEmpty_of_value hisValue]; rfl)]
  rw [extractUnitDesignator, hm, Option.bind_some, hk, Option.bind_some, hv, Option.map_some]
  rfl

theorem exec_unitOnlyPattern (hspaced : Spaced isWhitespace ' ' text) (honly : ¬ IsUnitOnly text) :
    Regex.exec unitOnlyPattern text = none := by
  rw [← test_unitOnlyPattern hspaced, Regex.test, Option.not_isSome_iff_eq_none] at honly
  exact honly

/-- **A unit after a base address.** -/
theorem extractUnitDesignator_trailing (hspaced : Spaced isWhitespace ' ' text)
    (honly : ¬ IsUnitOnly text) {base rest value : List Char} {keyword : Option (List Char)}
    (htext : text = base ++ rest) (h : UnitText IsUnitValue rest keyword value) :
    extractUnitDesignator mapping text =
      (trimChars base, some (unitMatch mapping keyword value)) := by
  have htest := (test_unitDesignatorPattern hspaced).mpr ⟨base, rest, keyword, value, htext, h⟩
  obtain ⟨m, hm⟩ := Option.isSome_iff_exists.mp htest
  obtain ⟨rest', htext', hstop⟩ := Regex.exec_eq_some hm
  rw [htext'] at hspaced
  obtain ⟨keyword', value', hunit, hkeyword, hvalue⟩ := unitText_of_mem hspaced hstop
  obtain ⟨hbase, rfl, rfl⟩ := hunit.unique isUnitValue_class h (htext'.symm.trans htext)
  have hk : (capturedText? m .keyword).map (canonicalUnitKeyword mapping) =
      keyword'.map (canonicalUnitKeyword mapping) := by
    rw [capturedText?, hkeyword]
    cases keyword' with
    | none => rfl
    | some keyword =>
        rw [Option.filter_some_pos (by rw [isEmpty_of_keyword hunit.isUnitKeyword]; rfl)]
  rw [htext'] at honly
  rw [extractUnitDesignator, htext', exec_unitOnlyPattern hspaced honly, Option.bind_none]
  simp only
  rw [extractTrailingUnit, ← htext', hm]
  simp only
  rw [hvalue, Option.filter_some_pos (by rw [isEmpty_of_value hunit.isValue]; rfl), hk, hbase]
  rfl

/-- **No unit.** -/
theorem extractUnitDesignator_none (hspaced : Spaced isWhitespace ' ' text)
    (honly : ¬ IsUnitOnly text) (hends : ¬ EndsInUnit text) :
    extractUnitDesignator mapping text = (text, none) := by
  rw [← test_unitDesignatorPattern hspaced, Regex.test, Option.not_isSome_iff_eq_none] at hends
  rw [extractUnitDesignator, exec_unitOnlyPattern hspaced honly, Option.bind_none]
  simp only
  rw [extractTrailingUnit, hends]

end Extract

end NycPropertyResolver
