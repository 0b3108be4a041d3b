import NycPropertyResolver.Identity.AddressUnits

/-!
# Identity — normalizing an address again

When the normalized input of an address normalizes to itself (`normalizeAddress_fixed_iff`).  Dashes are
replaced in the tokens of the base address, after the unit has been looked for: a unit whose value is
written with a dash is not found, stays in the base address with a hyphen, and is found there the next
time.
-/

namespace NycPropertyResolver

open Library

/-! ### Units with dashes -/

/-- A letter or a digit, then letters, digits, hyphens and dashes, one dash at least. -/
def IsDashedUnitValue (text : List Char) : Prop :=
  ∃ a w, text = a :: w ∧ a.isAlphanum = true ∧
    (∀ c ∈ w, isUnitValueChar c = true ∨ isDash c = true) ∧ ∃ c ∈ w, isDash c = true

/-- The text is a unit, or ends in one after a base address, with the value. -/
def HasUnit (isValue : List Char → Prop) (text value : List Char) : Prop :=
  (∃ keyword, UnitOnlyText isValue text keyword value) ∨
    ∃ base rest keyword, text = base ++ rest ∧ UnitText isValue rest keyword value

/-- White space aside, the address ends in a unit designator whose value is written with a dash. -/
def EndsInDashedUnit (input : String) : Prop :=
  ∃ value, HasUnit IsDashedUnitValue (collapseWhitespace input.toList) value

section Dashes

variable {text value value' : List Char} {isValue : List Char → Prop}

theorem exists_hasUnit_iff :
    (∃ value, HasUnit IsUnitValue text value) ↔ IsUnitOnly text ∨ EndsInUnit text := by
  constructor
  · rintro ⟨value, ⟨keyword, h⟩ | ⟨base, rest, keyword, htext, h⟩⟩
    · exact .inl ⟨keyword, value, h⟩
    · exact .inr ⟨base, rest, keyword, value, htext, h⟩
  · rintro (⟨keyword, value, h⟩ | ⟨base, rest, keyword, value, htext, h⟩)
    · exact ⟨value, .inl ⟨keyword, h⟩⟩
    · exact ⟨value, .inr ⟨base, rest, keyword, htext, h⟩⟩

theorem HasUnit.mono {isValue' : List Char → Prop} (h : HasUnit isValue text value)
    (himp : isValue value → isValue' value) : HasUnit isValue' text value := by
  rcases h with ⟨keyword, lead, hlead, hvalue, htext⟩ | ⟨base, rest, keyword, htext, h⟩
  · exact .inl ⟨keyword, lead, hlead, himp hvalue, htext⟩
  · refine .inr ⟨base, rest, keyword, htext, ?_⟩
    cases h with
    | spaced hlead hvalue => exact .spaced hlead (himp hvalue)
    | hash hvalue => exact .hash (himp hvalue)

theorem HasUnit.value_ok (h : HasUnit isValue text value) : isValue value := by
  rcases h with ⟨keyword, lead, hlead, hvalue, htext⟩ | ⟨base, rest, keyword, htext, h⟩
  · exact hvalue
  · exact h.isValue

/-- The value is the last word of the text, a hash sign aside. -/
theorem HasUnit.last_word (h : HasUnit isValue text value) :
    ∃ front, text = front ++ ' ' :: value ∨ text = front ++ ' ' :: '#' :: value := by
  rcases h with ⟨keyword, lead, hlead, hvalue, htext⟩ | ⟨base, rest, keyword, htext, h⟩
  · exact ⟨lead, .inl htext⟩
  · cases h with
    | @spaced lead _ _ hlead hvalue => exact ⟨base ++ ' ' :: lead, .inl (by simp [htext])⟩
    | hash hvalue => exact ⟨base, .inr htext⟩

/-- **A text has one unit at most.** -/
theorem HasUnit.unique (hclass : ValueClass isValue) (h : HasUnit isValue text value)
    (h' : HasUnit isValue text value') : value = value' := by
  have hsign : ∀ {v w : List Char}, isValue v → v ≠ '#' :: w := by
    rintro v w hv rfl
    exact absurd (hclass.head hv '#' rfl) (by decide)
  have hhash : ∀ {v : List Char}, isValue v → ' ' ∉ '#' :: v := by
    intro v hv hmem
    rcases List.mem_cons.mp hmem with hmem | hmem
    · cases hmem
    · exact hclass.space hv hmem
  have hspace := hclass.space h.value_ok
  have hspace' := hclass.space h'.value_ok
  obtain ⟨front, htext⟩ := h.last_word
  obtain ⟨front', htext'⟩ := h'.last_word
  rcases htext with htext | htext
  · rcases htext' with htext' | htext'
    · exact (append_cons_inj hspace hspace' (htext.symm.trans htext')).2
    · exact absurd (append_cons_inj hspace (hhash h'.value_ok) (htext.symm.trans htext')).2
        (hsign h.value_ok)
  · rcases htext' with htext' | htext'
    · exact absurd (append_cons_inj (hhash h.value_ok) hspace' (htext.symm.trans htext')).2.symm
        (hsign h'.value_ok)
    · exact (List.cons.inj
        (append_cons_inj (hhash h.value_ok) (hhash h'.value_ok) (htext.symm.trans htext')).2).2

theorem not_isDash_of_isUnitValueChar {c : Char} (h : isUnitValueChar c = true) :
    isDash c = false := by
  rw [Bool.eq_false_iff]
  intro hdash
  rw [isDash, Bool.or_eq_true, beq_iff_eq, beq_iff_eq] at hdash
  rcases hdash with rfl | rfl
  · exact absurd h (by decide)
  · exact absurd h (by decide)

theorem isUnitValueChar_of_isAlphanum {c : Char} (h : c.isAlphanum = true) :
    isUnitValueChar c = true := by
  rw [isUnitValueChar, h, Bool.true_or]

/-- A value with a dash is no value. -/
theorem not_isUnitValue_of_dashed (h : IsDashedUnitValue value) : ¬ IsUnitValue value := by
  obtain ⟨a, w, rfl, -, -, c, hc, hdash⟩ := h
  rintro ⟨b, v, heq, -, hv⟩
  obtain ⟨-, rfl⟩ := List.cons.inj heq
  rw [not_isDash_of_isUnitValueChar (hv c hc)] at hdash
  cases hdash

/-- Values, with dashes or without. -/
theorem valueClass_or : ValueClass fun v => IsUnitValue v ∨ IsDashedUnitValue v where
  head := by
    rintro v (h | ⟨a, w, rfl, ha, -⟩) b hb
    · exact isUnitValue_class.head h b hb
    · cases hb
      exact ha
  space := by
    rintro v (h | ⟨a, w, rfl, ha, hw, -⟩) hmem
    · exact isUnitValue_class.space h hmem
    · rcases List.mem_cons.mp hmem with rfl | hmem
      · exact absurd ha (by decide)
      · rcases hw ' ' hmem with h | h
        · exact absurd h (by decide)
        · exact absurd h (by decide)

/-- **A text with a unit has none with a dash.** -/
theorem not_dashed_of_hasUnit (h : HasUnit IsUnitValue text value) :
    ¬ HasUnit IsDashedUnitValue text value' := by
  intro h'
  have heq := (h.mono .inl).unique valueClass_or (h'.mono .inr)
  subst heq
  exact not_isUnitValue_of_dashed h'.value_ok h.value_ok

/-! ### The unit that appears when dashes are replaced -/

theorem hyphenated_append (l l' : List Char) : normalizeHyphenatedHouseNumber (l ++ l') =
    normalizeHyphenatedHouseNumber l ++ normalizeHyphenatedHouseNumber l' := List.map_append

/-- A text without hyphens comes from itself alone. -/
theorem eq_of_hyphenated_eq {l x : List Char} (h : normalizeHyphenatedHouseNumber l = x)
    (hx : '-' ∉ x) : l = x := by
  rw [← h]
  refine (hyphenated_eq_self fun c hc => ?_).symm
  rw [Bool.eq_false_iff]
  intro hdash
  refine hx (h ▸ ?_)
  have hmem : (if isDash c then '-' else c) ∈ normalizeHyphenatedHouseNumber l :=
    List.mem_map_of_mem hc
  rwa [if_pos hdash] at hmem

theorem hyphenated_cons_of_not_isDash {c : Char} (hc : isDash c = false) (l : List Char) :
    normalizeHyphenatedHouseNumber (c :: l) = c :: normalizeHyphenatedHouseNumber l := by
  rw [normalizeHyphenatedHouseNumber, List.map_cons, hc]
  rfl

/-- A cut of the text with its dashes replaced is a cut of the text. -/
theorem exists_of_hyphenated_eq_append {x y : List Char} (hx : '-' ∉ x)
    (h : normalizeHyphenatedHouseNumber text = x ++ y) :
    ∃ v, text = x ++ v ∧ normalizeHyphenatedHouseNumber v = y := by
  obtain ⟨l, v, rfl, hl, hv⟩ := List.map_eq_append_iff.mp h
  exact ⟨v, by rw [eq_of_hyphenated_eq hl hx], hv⟩

theorem UnitLead.not_hyphen {lead : List Char} {keyword : Option (List Char)}
    (h : UnitLead lead keyword) : '-' ∉ lead := by
  have hkeyword : ∀ {word : List Char}, IsUnitKeyword word → '-' ∉ word := by
    intro word hword hmem
    exact absurd (lowered_of_keyword hword '-' hmem) (by decide)
  cases h with
  | keyword h => exact hkeyword h
  | period h =>
      intro hmem
      rcases List.mem_append.mp hmem with hmem | hmem
      · exact hkeyword h hmem
      · simp at hmem
  | hash => simp

theorem UnitLead.not_isDash {lead : List Char} {keyword : Option (List Char)}
    (h : UnitLead lead keyword) : ∀ c ∈ lead, isDash c = false := by
  have hkeyword : ∀ {word : List Char}, IsUnitKeyword word → ∀ c ∈ word, isDash c = false :=
    fun hword c hc => isDash_of_isAlpha c (lowered_of_keyword hword c hc)
  cases h with
  | keyword h => exact hkeyword h
  | period h =>
      intro c hmem
      rcases List.mem_append.mp hmem with hmem | hmem
      · exact hkeyword h c hmem
      · rw [List.mem_singleton.mp hmem]
        rfl
  | hash => simp [isDash]

theorem isUnitValueChar_hyphenated (c : Char) :
    isUnitValueChar (if isDash c then '-' else c) = true ↔
      isUnitValueChar c = true ∨ isDash c = true := by
  by_cases hdash : isDash c = true
  · rw [if_pos hdash]
    exact ⟨fun _ => .inr hdash, fun _ => rfl⟩
  · rw [if_neg hdash]
    exact ⟨.inl, fun h => h.resolve_right hdash⟩

/-- A value, before its dashes have been replaced. -/
theorem isUnitValue_hyphenated : IsUnitValue (normalizeHyphenatedHouseNumber value) ↔
    IsUnitValue value ∨ IsDashedUnitValue value := by
  constructor
  · rintro ⟨a, w, heq, ha, hw⟩
    obtain ⟨b, v, rfl, hb, rfl⟩ := List.map_eq_cons_iff.mp heq
    have hdash : ¬ isDash b = true := by
      intro h
      rw [if_pos h] at hb
      subst hb
      exact absurd ha (by decide)
    rw [if_neg hdash] at hb
    subst hb
    have hv : ∀ c ∈ v, isUnitValueChar c = true ∨ isDash c = true := fun c hc =>
      (isUnitValueChar_hyphenated c).mp (hw _ (List.mem_map_of_mem hc))
    by_cases hany : ∃ c ∈ v, isDash c = true
    · exact .inr ⟨b, v, rfl, ha, hv, hany⟩
    · exact .inl ⟨b, v, rfl, ha, fun c hc => (hv c hc).resolve_right fun h => hany ⟨c, hc, h⟩⟩
  · intro h
    obtain ⟨a, w, rfl, ha, hw⟩ : ∃ a w, value = a :: w ∧ a.isAlphanum = true ∧
        ∀ c ∈ w, isUnitValueChar c = true ∨ isDash c = true := by
      rcases h with ⟨a, w, heq, ha, hw⟩ | ⟨a, w, heq, ha, hw, -⟩
      · exact ⟨a, w, heq, ha, fun c hc => .inl (hw c hc)⟩
      · exact ⟨a, w, heq, ha, hw⟩
    rw [hyphenated_cons_of_not_isDash (not_isDash_of_isUnitValueChar (isUnitValueChar_of_isAlphanum ha))]
    refine ⟨a, _, rfl, ha, fun c hc => ?_⟩
    obtain ⟨b, hb, rfl⟩ := List.mem_map.mp hc
    exact (isUnitValueChar_hyphenated b).mpr (hw b hb)

/-- **A unit of the text with its dashes replaced is a unit of the text, with dashes or without.** -/
theorem hasUnit_hyphenated : (∃ value, HasUnit IsUnitValue (normalizeHyphenatedHouseNumber text) value) ↔
    ∃ value, HasUnit (fun v => IsUnitValue v ∨ IsDashedUnitValue v) text value := by
  have hspace : ∀ v : List Char, normalizeHyphenatedHouseNumber (' ' :: v) =
      ' ' :: normalizeHyphenatedHouseNumber v := hyphenated_cons_of_not_isDash rfl
  have hsign : ∀ v : List Char, normalizeHyphenatedHouseNumber ('#' :: v) =
      '#' :: normalizeHyphenatedHouseNumber v := hyphenated_cons_of_not_isDash rfl
  constructor
  · rintro ⟨value, ⟨keyword, lead, hlead, hvalue, htext⟩ | ⟨base, rest, keyword, htext, h⟩⟩
    · -- the text in front of the value has no hyphen
      have hfront : '-' ∉ lead ++ [' '] := by
        intro hmem
        rcases List.mem_append.mp hmem with hmem | hmem
        · exact hlead.not_hyphen hmem
        · simp at hmem
      obtain ⟨v, rfl, rfl⟩ := exists_of_hyphenated_eq_append (y := value) hfront (by simpa using htext)
      exact ⟨v, .inl ⟨keyword, lead, hlead, isUnitValue_hyphenated.mp hvalue, by simp⟩⟩
    · obtain ⟨b, v, rfl, -, hv⟩ := List.map_eq_append_iff.mp htext
      cases h with
      | @spaced lead _ _ hlead hvalue =>
          have hfront : '-' ∉ ' ' :: (lead ++ [' ']) := by
            intro hmem
            rcases List.mem_cons.mp hmem with hmem | hmem
            · cases hmem
            · rcases List.mem_append.mp hmem with hmem | hmem
              · exact hlead.not_hyphen hmem
              · simp at hmem
          obtain ⟨w, rfl, rfl⟩ := exists_of_hyphenated_eq_append (y := value) hfront (by
            rw [normalizeHyphenatedHouseNumber, hv]
            simp)
          refine ⟨w, .inr ⟨b, _, keyword, rfl, ?_⟩⟩
          simpa using UnitText.spaced hlead (isUnitValue_hyphenated.mp hvalue)
      | hash hvalue =>
          obtain ⟨w, rfl, rfl⟩ := exists_of_hyphenated_eq_append (x := [' ', '#']) (y := value)
            (by simp) (by rw [normalizeHyphenatedHouseNumber, hv]; simp)
          exact ⟨w, .inr ⟨b, _, none, rfl, .hash (isUnitValue_hyphenated.mp hvalue)⟩⟩
  · rintro ⟨value, ⟨keyword, lead, hlead, hvalue, rfl⟩ | ⟨base, rest, keyword, rfl, h⟩⟩
    · refine ⟨normalizeHyphenatedHouseNumber value, .inl ⟨keyword, lead, hlead,
        isUnitValue_hyphenated.mpr hvalue, ?_⟩⟩
      rw [hyphenated_append, hyphenated_eq_self hlead.not_isDash, hspace]
    · refine ⟨normalizeHyphenatedHouseNumber value, .inr ⟨normalizeHyphenatedHouseNumber base,
        normalizeHyphenatedHouseNumber rest, keyword, hyphenated_append base rest, ?_⟩⟩
      cases h with
      | spaced hlead hvalue =>
          rw [hspace, hyphenated_append, hyphenated_eq_self hlead.not_isDash, hspace]
          exact .spaced hlead (isUnitValue_hyphenated.mpr hvalue)
      | hash hvalue =>
          rw [hspace, hsign]
          exact .hash (isUnitValue_hyphenated.mpr hvalue)

end Dashes

/-! ### Addresses as words -/

section Words

variable {mapping : CaseMapping} {ws : List (List Char)} {text : List Char}

/-- The words of an address: words of address characters. -/
def AddressWords (ws : List (List Char)) : Prop :=
  ∀ w ∈ ws, IsWord isWhitespace w ∧ AddressText w

theorem AddressWords.words (h : AddressWords ws) : ∀ w ∈ ws, IsWord isWhitespace w :=
  fun w hw => (h w hw).1

theorem AddressWords.tokens (h : AddressWords ws) :
    AddressWords (ws.map (normalizeAddressToken mapping)) := by
  intro w hw
  obtain ⟨token, htoken, rfl⟩ := List.mem_map.mp hw
  obtain ⟨hword, htext⟩ := h token htoken
  exact ⟨isWord_normalizeAddressToken htext hword, addressText_normalizeAddressToken htext⟩

/-- Collapsing white space is squeezing a trimmed text. -/
theorem collapseWhitespace_eq (value : List Char) :
    collapseWhitespace value = Regex.squeeze isWhitespace [' '] (trimBy isWhitespace value) :=
  Regex.replaceAll_plus_char _

theorem collapseWhitespace_unwords (hws : ∀ w ∈ ws, IsWord isWhitespace w) :
    collapseWhitespace (unwords ' ' ws) = unwords ' ' ws := by
  rw [collapseWhitespace_eq, trimBy_unwords hws, squeeze_unwords rfl hws]

/-- **An address with its white space collapsed is a text of words.** -/
theorem exists_addressWords (h : AddressText text) :
    ∃ ws, AddressWords ws ∧ collapseWhitespace text = unwords ' ' ws := by
  obtain ⟨ws, hws, hsqueeze⟩ := exists_words isWhitespace ' ' text
  refine ⟨ws, fun w hw => ⟨(hws w hw).1, fun c hc => h c ((hws w hw).2 c hc)⟩, ?_⟩
  rw [collapseWhitespace_eq, hsqueeze]

theorem not_mem_of_isWord {w : List Char} (h : IsWord isWhitespace w) : ' ' ∉ w := by
  intro hmem
  have hspace := h.2 ' ' hmem
  exact absurd hspace (by decide)

/-- The tokens of a text of words are its words. -/
theorem normalizeAddressTokens_of_collapse (hws : AddressWords ws)
    (h : collapseWhitespace text = unwords ' ' ws) :
    normalizeAddressTokens mapping text = unwords ' ' (ws.map (normalizeAddressToken mapping)) := by
  rw [normalizeAddressTokens, h]
  cases ws with
  | nil =>
      have hempty : normalizeAddressToken mapping [] = [] := by
        rw [normalizeAddressToken_eq (by simp [AddressText])]
        rfl
      simp [hempty]
  | cons w ws =>
      rw [unwords, List.splitOn_intercalate ' ' (fun v hv => not_mem_of_isWord (hws v hv).1)
        (List.cons_ne_nil _ _)]
      rfl

/-- **Normalizing the tokens once is enough.** -/
theorem map_normalizeAddressToken_idem (hws : AddressWords ws) :
    (ws.map (normalizeAddressToken mapping)).map (normalizeAddressToken mapping) =
      ws.map (normalizeAddressToken mapping) := by
  rw [List.map_map]
  exact List.map_congr_left fun w hw => normalizeAddressToken_idem (hws w hw).2

theorem normalizeAddressTokens_unwords_idem (hws : AddressWords ws) :
    normalizeAddressTokens mapping (unwords ' ' (ws.map (normalizeAddressToken mapping))) =
      unwords ' ' (ws.map (normalizeAddressToken mapping)) := by
  have htokens : AddressWords (ws.map (normalizeAddressToken mapping)) := hws.tokens
  rw [normalizeAddressTokens_of_collapse htokens (collapseWhitespace_unwords htokens.words),
    map_normalizeAddressToken_idem hws]

theorem hyphenated_unwords (ws : List (List Char)) : normalizeHyphenatedHouseNumber (unwords ' ' ws) =
    unwords ' ' (ws.map normalizeHyphenatedHouseNumber) :=
  (unwords_map (fun c => if isDash c then '-' else c) ' ').symm

/-- The normalized tokens read as the words with their dashes replaced. -/
theorem lowered_tokens (hws : AddressWords ws) :
    lowered (unwords ' ' (ws.map (normalizeAddressToken mapping))) =
      lowered (normalizeHyphenatedHouseNumber (unwords ' ' ws)) := by
  have hlow : ∀ vs : List (List Char), lowered (unwords ' ' vs) = unwords ' ' (vs.map lowered) :=
    fun vs => (unwords_map Char.toLower ' ').symm
  rw [hlow, hyphenated_unwords, hlow, List.map_map, List.map_map]
  exact congrArg _ (List.map_congr_left fun w hw => lowered_normalizeAddressToken (hws w hw).2)

/-- A unit of the normalized tokens is a unit of the words with their dashes replaced. -/
theorem hasUnit_tokens (hws : AddressWords ws) :
    (∃ value, HasUnit IsUnitValue (unwords ' ' (ws.map (normalizeAddressToken mapping))) value) ↔
      ∃ value, HasUnit IsUnitValue (normalizeHyphenatedHouseNumber (unwords ' ' ws)) value := by
  have htokens : AddressWords (ws.map (normalizeAddressToken mapping)) := hws.tokens
  have hspaced : Spaced isWhitespace ' ' (unwords ' ' (ws.map (normalizeAddressToken mapping))) :=
    spaced_unwords htokens.words
  have hspaced' : Spaced isWhitespace ' ' (normalizeHyphenatedHouseNumber (unwords ' ' ws)) := by
    rw [hyphenated_unwords]
    refine spaced_unwords fun w hw => ?_
    obtain ⟨v, hv, rfl⟩ := List.mem_map.mp hw
    exact isWord_hyphenated (hws v hv).1
  have htest : ∀ {r : AddressPattern}, IgnoresCase r →
      Regex.test r (unwords ' ' (ws.map (normalizeAddressToken mapping))) =
        Regex.test r (normalizeHyphenatedHouseNumber (unwords ' ' ws)) := by
    intro r hr
    rw [← hr.test, ← hr.test (normalizeHyphenatedHouseNumber _)]
    exact congrArg (Regex.test r) (lowered_tokens hws)
  rw [exists_hasUnit_iff, exists_hasUnit_iff, ← test_unitOnlyPattern hspaced,
    ← test_unitDesignatorPattern hspaced, ← test_unitOnlyPattern hspaced',
    ← test_unitDesignatorPattern hspaced', htest ignoresCase_unitOnly,
    htest ignoresCase_unitDesignator]

end Words

/-! ### The unit, normalized -/

section Unit

variable {mapping : CaseMapping} {value : List Char}

theorem isAddressChar_of_isUnitValueChar {c : Char} (h : isUnitValueChar c = true) :
    isAddressChar c = true := by
  rw [isUnitValueChar, Char.isAlphanum, Bool.or_eq_true, Bool.or_eq_true, isAlpha_iff, isDigit_iff,
    beq_iff_eq] at h
  rw [isAddressChar, Bool.or_eq_true, Bool.or_eq_true, decide_eq_true_eq]
  rcases h with (h | h) | rfl
  · omega
  · omega
  · exact .inl (.inl (by decide))

theorem IsUnitValue.chars (h : IsUnitValue value) : ∀ c ∈ value, isUnitValueChar c = true := by
  obtain ⟨a, w, rfl, ha, hw⟩ := h
  exact List.forall_mem_cons.mpr ⟨isUnitValueChar_of_isAlphanum ha, hw⟩

theorem not_isWhitespace_of_isUnitValueChar {c : Char} (h : isUnitValueChar c = true) :
    isWhitespace c = false := by
  rw [isUnitValueChar, Char.isAlphanum, Bool.or_eq_true, Bool.or_eq_true, beq_iff_eq] at h
  rcases h with (h | h) | rfl
  · exact isWhitespace_of_isAlpha c h
  · have hrange := isDigit_iff.mp h
    simp only [isWhitespace, Bool.or_eq_false_iff, Bool.and_eq_false_iff, decide_eq_false_iff_not,
      beq_eq_false_iff_ne]
    omega
  · rfl

theorem IsUnitValue.isWord (h : IsUnitValue value) : IsWord isWhitespace value := by
  refine ⟨?_, fun c hc => not_isWhitespace_of_isUnitValueChar (h.chars c hc)⟩
  obtain ⟨a, w, rfl, -⟩ := h
  exact List.cons_ne_nil _ _

theorem trimChars_of_isWord {w : List Char} (h : IsWord isWhitespace w) : trimChars w = w := by
  have htrim : trimBy isWhitespace (unwords ' ' [w]) = unwords ' ' [w] :=
    trimBy_unwords fun v hv => (List.mem_singleton.mp hv) ▸ h
  rwa [unwords_singleton] at htrim

/-- **A value becomes its upper case.** -/
theorem normalizeUnitValue_eq (h : IsUnitValue value) :
    normalizeUnitValue mapping value = value.map Char.toUpper := by
  have htext : AddressText value := fun c hc => isAddressChar_of_isUnitValueChar (h.chars c hc)
  rw [normalizeUnitValue, trimChars_of_isWord h.isWord, upperSuffix?_eq htext,
    mapping.toUpperCase_address htext]
  by_cases hsuffix : Regex.test digitsLettersPattern value = true
  · rw [if_pos hsuffix]
  · rw [if_neg hsuffix]
    by_cases hupper : value.map Char.toUpper = value ∧ mapping.toLowerCase value ≠ value
    · simp only [if_pos hupper]
      exact hupper.1.symm
    · simp only [if_neg hupper]

theorem isAlphanum_toUpper (c : Char) : c.toUpper.isAlphanum = c.isAlphanum := by
  rw [← isAlphanum_toLower c.toUpper, toLower_toUpper, isAlphanum_toLower]

theorem isUnitValueChar_toUpper (c : Char) : isUnitValueChar c.toUpper = isUnitValueChar c := by
  rw [← isUnitValueChar_toLower c.toUpper, toLower_toUpper, isUnitValueChar_toLower]

theorem IsUnitValue.upper (h : IsUnitValue value) : IsUnitValue (value.map Char.toUpper) := by
  obtain ⟨a, w, rfl, ha, hw⟩ := h
  refine ⟨a.toUpper, w.map Char.toUpper, rfl, (isAlphanum_toUpper a).trans ha, fun c hc => ?_⟩
  obtain ⟨b, hb, rfl⟩ := List.mem_map.mp hc
  exact (isUnitValueChar_toUpper b).trans (hw b hb)

/-- The text of a keyword, as it is read again. -/
def UnitKeyword.lead : UnitKeyword → Option (List Char)
  | .hash => none
  | keyword => some keyword.text

theorem UnitKeyword.unitLead (keyword : UnitKeyword) : UnitLead keyword.text keyword.lead := by
  cases keyword with
  | hash => exact .hash
  | apt => exact .keyword (by decide)
  | unit => exact .keyword (by decide)
  | ste => exact .keyword (by decide)
  | fl => exact .keyword (by decide)

theorem canonicalUnitKeyword_text {keyword : UnitKeyword} {text : List Char}
    (h : keyword.lead = some text) : canonicalUnitKeyword mapping text = keyword := by
  have hascii : ∀ {t : List Char}, AddressText t → canonicalUnitKeyword mapping t =
      canonicalUnitKeyword .ascii t := by
    intro t ht
    rw [canonicalUnitKeyword, mapping.toLowerCase_address ht]
    rfl
  cases keyword with
  | hash => cases h
  | apt =>
      cases h
      rw [hascii (by decide)]
      decide
  | unit =>
      cases h
      rw [hascii (by decide)]
      decide
  | ste =>
      cases h
      rw [hascii (by decide)]
      decide
  | fl =>
      cases h
      rw [hascii (by decide)]
      decide

/-- **A normalized unit normalizes to itself.** -/
theorem unitMatch_idem {keyword : Option (List Char)} (h : IsUnitValue value) :
    unitMatch mapping (unitMatch mapping keyword value).keyword.lead
      (unitMatch mapping keyword value).value = unitMatch mapping keyword value := by
  have hvalue : (unitMatch mapping keyword value).value = value.map Char.toUpper :=
    normalizeUnitValue_eq h
  generalize unitMatch mapping keyword value = unit at hvalue
  obtain ⟨keyword, value⟩ := unit
  cases hvalue
  have hkeyword : (keyword.lead.map (canonicalUnitKeyword mapping)).getD .hash = keyword := by
    cases hlead : keyword.lead with
    | none =>
        cases keyword with
        | hash => rfl
        | apt => cases hlead
        | unit => cases hlead
        | ste => cases hlead
        | fl => cases hlead
    | some text => exact canonicalUnitKeyword_text hlead
  rw [unitMatch, hkeyword, normalizeUnitValue_eq h.upper, List.map_map]
  simp [Function.comp_def]

end Unit

/-! ### Normalizing twice -/

section Normalize

variable {mapping : CaseMapping} {input : String} {text : List Char}
  {r : AddressNormalizationResult}

/-- The result of a base address and a unit. -/
def normalizationResult (normalizedBaseAddress : List Char) (unit : Option UnitMatch) :
    AddressNormalizationResult where
  normalizedBaseAddress := String.ofList normalizedBaseAddress
  normalizedUnitDesignation := unit.map fun unit => String.ofList unit.value
  normalizedInput := String.ofList (match unit with
    | some unit => normalizedBaseAddress ++ ' ' :: formatUnitSegment unit
    | none => normalizedBaseAddress)

/-- The text has a letter or a digit. -/
def HasAlphanumeric (text : List Char) : Prop := ∃ c ∈ text, c.isAlphanum = true

theorem test_hasAlphanumericPattern :
    Regex.test hasAlphanumericPattern text = true ↔ HasAlphanumeric text := by
  constructor
  · intro h
    obtain ⟨before, rest, d, rfl, hd⟩ := Regex.test_iff.mp h
    obtain ⟨a, rest', hrest, ha, -⟩ := Regex.mem_runs_char.mp hd
    have hrest' : rest = a :: rest' := hrest
    exact ⟨a, by simp [hrest'], ha⟩
  · rintro ⟨c, hc, hcalnum⟩
    obtain ⟨before, rest, rfl⟩ := List.append_of_mem hc
    exact Regex.test_iff.mpr ⟨before, c :: rest, _, rfl,
      Regex.mem_runs_char.mpr ⟨c, rest, rfl, hcalnum, rfl⟩⟩

theorem HasAlphanumeric.ne_nil (h : HasAlphanumeric text) : text ≠ [] := by
  rintro rfl
  obtain ⟨c, hc, -⟩ := h
  cases hc

/-- **What `normalizeAddress` accepts, and what it gives.** -/
theorem normalizeAddress_eq_ok : normalizeAddress mapping input = .ok r ↔
    HasAlphanumeric (collapseWhitespace input.toList) ∧
      ∃ base unit, extractUnitDesignator mapping (collapseWhitespace input.toList) = (base, unit) ∧
        HasAlphanumeric (normalizeAddressTokens mapping base) ∧
        r = normalizationResult (normalizeAddressTokens mapping base) unit := by
  have hvalid : ∀ {t : List Char}, HasAlphanumeric t → t.isEmpty = false := by
    intro t ht
    exact List.isEmpty_eq_false_iff.mpr ht.ne_nil
  rw [normalizeAddress, assertValidAddressInput]
  generalize collapseWhitespace input.toList = collapsed
  by_cases hinput : HasAlphanumeric collapsed
  · simp only [hvalid hinput, test_hasAlphanumericPattern.mpr hinput, Bool.not_true,
      Bool.false_eq_true, if_false]
    generalize extractUnitDesignator mapping collapsed = extracted
    obtain ⟨base, unit⟩ := extracted
    by_cases hbase : HasAlphanumeric (normalizeAddressTokens mapping base)
    · simp only [assertValidBaseAddress, hvalid hbase, test_hasAlphanumericPattern.mpr hbase,
        Bool.not_true, Bool.or_false, Bool.false_eq_true, if_false]
      constructor
      · intro h
        cases h
        exact ⟨hinput, base, unit, rfl, hbase, rfl⟩
      · rintro ⟨-, base', unit', heq, -, rfl⟩
        cases heq
        rfl
    · have htest : Regex.test hasAlphanumericPattern (normalizeAddressTokens mapping base) = false := by
        rw [Bool.eq_false_iff]
        exact fun h => hbase (test_hasAlphanumericPattern.mp h)
      simp only [assertValidBaseAddress, htest, Bool.not_false, Bool.or_true, if_true]
      constructor
      · intro h
        cases h
      · rintro ⟨-, base', unit', heq, hbase', -⟩
        cases heq
        exact absurd hbase' hbase
  · have htest : Regex.test hasAlphanumericPattern collapsed = false := by
      rw [Bool.eq_false_iff]
      exact fun h => hinput (test_hasAlphanumericPattern.mp h)
    constructor
    · intro h
      simp only [htest, Bool.not_false, if_true] at h
      by_cases hempty : collapsed.isEmpty = true
      · rw [if_pos hempty] at h
        cases h
      · rw [if_neg hempty] at h
        cases h
    · exact fun h => absurd h.1 hinput

variable {ws vs : List (List Char)} {base rest value : List Char} {keyword : Option (List Char)}

theorem AddressWords.addressText (h : AddressWords ws) : AddressText (unwords ' ' ws) := by
  intro c hc
  rcases mem_unwords hc with rfl | ⟨w, hw, hcw⟩
  · rfl
  · exact (h w hw).2 c hcw

theorem trimChars_unwords (h : ∀ w ∈ ws, IsWord isWhitespace w) :
    trimChars (unwords ' ' ws) = unwords ' ' ws := trimBy_unwords h

theorem UnitKeyword.isWord (keyword : UnitKeyword) : IsWord isWhitespace keyword.text := by
  have hall : (keyword.text.all fun c => !isWhitespace c) = true := by cases keyword <;> decide
  refine ⟨by cases keyword <;> decide, fun c hc => ?_⟩
  simpa using List.all_eq_true.mp hall c hc

/-- **An address with a unit, in normal form**: the words of its base address, the keyword, the value. -/
theorem normalizeAddress_withUnit (hvs : AddressWords vs)
    (hbase : base = unwords ' ' (vs.map (normalizeAddressToken mapping)))
    (halnum : HasAlphanumeric base) (hvalue : IsUnitValue value)
    (hr : r = normalizationResult base (some (unitMatch mapping keyword value))) :
    normalizeAddress mapping r.normalizedInput = .ok r := by
  subst hr
  set unit := unitMatch mapping keyword value with hunit
  have htokens : AddressWords (vs.map (normalizeAddressToken mapping)) := hvs.tokens
  have hne : vs.map (normalizeAddressToken mapping) ≠ [] := by
    intro hnil
    rw [hbase, hnil] at halnum
    exact halnum.ne_nil rfl
  have hunitValue : IsUnitValue unit.value := by
    rw [hunit, unitMatch, normalizeUnitValue_eq hvalue]
    exact hvalue.upper
  -- the normalized input is a text of words
  have htext : base ++ ' ' :: formatUnitSegment unit =
      unwords ' ' (vs.map (normalizeAddressToken mapping) ++ [unit.keyword.text, unit.value]) := by
    rw [unwords_append hne (List.cons_ne_nil _ _), unwords_cons (List.cons_ne_nil _ _),
      unwords_singleton, ← hbase]
    rfl
  have hwords : ∀ w ∈ vs.map (normalizeAddressToken mapping) ++ [unit.keyword.text, unit.value],
      IsWord isWhitespace w := by
    intro w hw
    rcases List.mem_append.mp hw with hw | hw
    · exact htokens.words w hw
    · rcases List.mem_cons.mp hw with rfl | hw
      · exact unit.keyword.isWord
      · rw [List.mem_singleton.mp hw]
        exact hunitValue.isWord
  have hspaced : Spaced isWhitespace ' ' (base ++ ' ' :: formatUnitSegment unit) := by
    rw [htext]
    exact spaced_unwords hwords
  have hcollapse : collapseWhitespace (normalizationResult base (some unit)).normalizedInput.toList =
      base ++ ' ' :: formatUnitSegment unit := by
    change collapseWhitespace (String.ofList (base ++ ' ' :: formatUnitSegment unit)).toList = _
    rw [String.toList_ofList, htext, collapseWhitespace_unwords hwords]
  have htrim : trimChars base = base := by
    rw [hbase, trimChars_unwords htokens.words]
  have hagain : normalizeAddressTokens mapping base = base := by
    rw [hbase, normalizeAddressTokens_unwords_idem hvs]
  -- it is no unit alone: there is a space in front of the keyword
  have honly : ¬ IsUnitOnly (base ++ ' ' :: formatUnitSegment unit) := by
    rintro ⟨keyword', value', lead, hlead, hvalue', heq⟩
    have heq' : (base ++ ' ' :: unit.keyword.text) ++ ' ' :: unit.value = lead ++ ' ' :: value' := by
      rw [← heq, formatUnitSegment]
      simp
    obtain ⟨hleadEq, -⟩ := append_cons_inj (isUnitValue_class.space hunitValue)
      (isUnitValue_class.space hvalue') heq'
    exact hlead.space (hleadEq ▸ List.mem_append_right _ List.mem_cons_self)
  have hends : UnitText IsUnitValue (' ' :: formatUnitSegment unit) unit.keyword.lead unit.value :=
    .spaced unit.keyword.unitLead hunitValue
  rw [normalizeAddress_eq_ok, hcollapse]
  refine ⟨?_, base, some unit, ?_, ?_, ?_⟩
  · obtain ⟨c, hc, hcalnum⟩ := halnum
    exact ⟨c, List.mem_append_left _ hc, hcalnum⟩
  · rw [extractUnitDesignator_trailing hspaced honly rfl hends, htrim, hunit, unitMatch_idem hvalue]
  · rw [hagain]
    exact halnum
  · rw [hagain]

/-- **An address without a unit, in normal form**: it is one, unless it has a unit now. -/
theorem normalizeAddress_withoutUnit (hws : AddressWords ws)
    (hbase : base = unwords ' ' (ws.map (normalizeAddressToken mapping)))
    (halnum : HasAlphanumeric base) (hr : r = normalizationResult base none) :
    normalizeAddress mapping r.normalizedInput = .ok r ↔ ¬ ∃ value, HasUnit IsUnitValue base value := by
  subst hr
  have htokens : AddressWords (ws.map (normalizeAddressToken mapping)) := hws.tokens
  have hspaced : Spaced isWhitespace ' ' base := by
    rw [hbase]
    exact spaced_unwords htokens.words
  have hcollapse :
      collapseWhitespace (normalizationResult base none).normalizedInput.toList = base := by
    change collapseWhitespace (String.ofList base).toList = base
    rw [String.toList_ofList, hbase, collapseWhitespace_unwords htokens.words]
  have hagain : normalizeAddressTokens mapping base = base := by
    rw [hbase, normalizeAddressTokens_unwords_idem hws]
  rw [normalizeAddress_eq_ok, hcollapse, exists_hasUnit_iff]
  constructor
  · rintro ⟨-, base', unit, hextract, -, hr⟩ (⟨keyword, value, honly⟩ | ⟨front, rest, keyword, value, htext, hunit⟩)
    · rw [extractUnitDesignator_only hspaced honly] at hextract
      cases hextract
      cases congrArg AddressNormalizationResult.normalizedUnitDesignation hr
    · by_cases honly : IsUnitOnly base
      · obtain ⟨keyword', value', honly⟩ := honly
        rw [extractUnitDesignator_only hspaced honly] at hextract
        cases hextract
        cases congrArg AddressNormalizationResult.normalizedUnitDesignation hr
      · rw [extractUnitDesignator_trailing hspaced honly htext hunit] at hextract
        cases hextract
        cases congrArg AddressNormalizationResult.normalizedUnitDesignation hr
  · intro hnone
    refine ⟨halnum, base, none, ?_, ?_, ?_⟩
    · exact extractUnitDesignator_none hspaced (fun h => hnone (.inl h)) fun h => hnone (.inr h)
    · rw [hagain]
      exact halnum
    · rw [hagain]

/-- **The result of an address, by its words.** -/
theorem normalizeAddress_cases (hinput : AddressText input.toList)
    (h : normalizeAddress mapping input = .ok r) :
    (∃ vs keyword value, AddressWords vs ∧
      HasAlphanumeric (unwords ' ' (vs.map (normalizeAddressToken mapping))) ∧ IsUnitValue value ∧
      HasUnit IsUnitValue (collapseWhitespace input.toList) value ∧
      r = normalizationResult (unwords ' ' (vs.map (normalizeAddressToken mapping)))
        (some (unitMatch mapping keyword value))) ∨
    ∃ ws, AddressWords ws ∧ collapseWhitespace input.toList = unwords ' ' ws ∧
      HasAlphanumeric (unwords ' ' (ws.map (normalizeAddressToken mapping))) ∧
      (¬ ∃ value, HasUnit IsUnitValue (collapseWhitespace input.toList) value) ∧
      r = normalizationResult (unwords ' ' (ws.map (normalizeAddressToken mapping))) none := by
  obtain ⟨-, base, unit, hextract, halnum, rfl⟩ := normalizeAddress_eq_ok.mp h
  obtain ⟨ws, hws, hcollapse⟩ := exists_addressWords hinput
  have hspaced : Spaced isWhitespace ' ' (collapseWhitespace input.toList) := by
    rw [hcollapse]
    exact spaced_unwords hws.words
  by_cases honly : IsUnitOnly (collapseWhitespace input.toList)
  · -- a unit alone has no base address
    obtain ⟨keyword, value, hunit⟩ := honly
    rw [extractUnitDesignator_only hspaced hunit] at hextract
    cases hextract
    have hnil : normalizeAddressTokens mapping [] = unwords ' ' [] :=
      normalizeAddressTokens_of_collapse (fun w hw => absurd hw List.not_mem_nil) rfl
    rw [hnil] at halnum
    exact absurd rfl halnum.ne_nil
  · by_cases hends : EndsInUnit (collapseWhitespace input.toList)
    · obtain ⟨front, rest, keyword, value, htext, hunit⟩ := hends
      rw [extractUnitDesignator_trailing hspaced honly htext hunit] at hextract
      cases hextract
      have hfront : AddressText (trimChars front) := by
        intro c hc
        have hmem : c ∈ collapseWhitespace input.toList := by
          rw [htext]
          exact List.mem_append_left _ (mem_of_mem_trimBy hc)
        rw [hcollapse] at hmem
        exact hws.addressText c hmem
      obtain ⟨vs, hvs, hcollapse'⟩ := exists_addressWords hfront
      rw [normalizeAddressTokens_of_collapse hvs hcollapse'] at halnum ⊢
      exact .inl ⟨vs, keyword, value, hvs, halnum, hunit.isValue, .inr ⟨front, rest, keyword, htext, hunit⟩,
        rfl⟩
    · rw [extractUnitDesignator_none hspaced honly hends] at hextract
      cases hextract
      have htokens : normalizeAddressTokens mapping (unwords ' ' ws) =
          unwords ' ' (ws.map (normalizeAddressToken mapping)) :=
        normalizeAddressTokens_of_collapse hws (collapseWhitespace_unwords hws.words)
      rw [hcollapse, htokens] at halnum
      refine .inr ⟨ws, hws, hcollapse, halnum, ?_, by rw [hcollapse, htokens]⟩
      rw [exists_hasUnit_iff]
      exact fun h => h.elim honly hends

/-- **An accepted address normalizes to itself, unless it ends in a unit with a dash.** -/
theorem normalizeAddress_again (hinput : AddressText input.toList)
    (h : normalizeAddress mapping input = .ok r) :
    normalizeAddress mapping r.normalizedInput = .ok r ↔ ¬ EndsInDashedUnit input := by
  rcases normalizeAddress_cases hinput h with
    ⟨vs, keyword, value, hvs, halnum, hvalue, hunit, rfl⟩ | ⟨ws, hws, hcollapse, halnum, hnone, rfl⟩
  · refine iff_of_true (normalizeAddress_withUnit hvs rfl halnum hvalue rfl) ?_
    rintro ⟨value', hdashed⟩
    exact not_dashed_of_hasUnit hunit hdashed
  · rw [normalizeAddress_withoutUnit hws rfl halnum rfl, hasUnit_tokens hws, hasUnit_hyphenated, EndsInDashedUnit,
      ← hcollapse, not_iff_not]
    constructor
    · rintro ⟨value, hunit⟩
      rcases hunit.value_ok with hvalue | hvalue
      · exact absurd ⟨value, hunit.mono fun _ => hvalue⟩ hnone
      · exact ⟨value, hunit.mono fun _ => hvalue⟩
    · rintro ⟨value, hunit⟩
      exact ⟨value, hunit.mono .inr⟩

/-- An address that ends in a unit with a dash keeps it in its base address. -/
theorem result_of_dashed (hinput : AddressText input.toList) (h : normalizeAddress mapping input = .ok r)
    (hdashed : EndsInDashedUnit input) :
    r = ⟨r.normalizedInput, none, r.normalizedInput⟩ := by
  rcases normalizeAddress_cases hinput h with
    ⟨vs, keyword, value, hvs, halnum, hvalue, hunit, rfl⟩ | ⟨ws, hws, hcollapse, halnum, hnone, rfl⟩
  · obtain ⟨value', hdashed⟩ := hdashed
    exact absurd hdashed (not_dashed_of_hasUnit hunit)
  · rfl

end Normalize

/-- **When normalizing is a fixed point.**  An accepted address normalizes to itself exactly if it does
not end in a unit designator whose value is written with a dash; and of two accepted addresses with
one normalized input, the results are equal exactly if both end so or neither does. -/
theorem normalizeAddress_fixed_iff (mapping : CaseMapping) :
    (∀ (input : String) (r : AddressNormalizationResult), AddressText input.toList →
      normalizeAddress mapping input = .ok r →
      (normalizeAddress mapping r.normalizedInput = .ok r ↔ ¬ EndsInDashedUnit input)) ∧
    ∀ (input input' : String) (r r' : AddressNormalizationResult), AddressText input.toList →
      AddressText input'.toList → normalizeAddress mapping input = .ok r →
      normalizeAddress mapping input' = .ok r' → r.normalizedInput = r'.normalizedInput →
      (r = r' ↔ (EndsInDashedUnit input ↔ EndsInDashedUnit input')) := by
  refine ⟨fun input r hinput h => normalizeAddress_again hinput h, ?_⟩
  intro input input' r r' hinput hinput' h h' hkey
  have hagain := normalizeAddress_again hinput h
  have hagain' := normalizeAddress_again hinput' h'
  constructor
  · rintro rfl
    rw [← not_iff_not, ← hagain, ← hagain']
  · intro hdashed
    by_cases hd : EndsInDashedUnit input
    · rw [result_of_dashed hinput h hd, result_of_dashed hinput' h' (hdashed.mp hd), hkey]
    · have hfixed := hagain.mpr hd
      rw [hkey, hagain'.mpr fun hd' => hd (hdashed.mpr hd')] at hfixed
      exact (Except.ok.inj hfixed).symm

deriving instance DecidableEq for AddressNormalizationResult

/-- An address with a unit, and its normalized input. -/
theorem normalizeAddress_fixed_iff_apartment :
    (normalizeAddress .ascii "419 E 84 St Apt 12C" =
        .ok ⟨"419 E 84 St", some "12C", "419 E 84 St Apt 12C"⟩ ↔
      ¬ EndsInDashedUnit "419  e 84 st apartment 12c") ∧
    ((⟨"419 E 84 St", some "12C", "419 E 84 St Apt 12C"⟩ : AddressNormalizationResult) =
        ⟨"419 E 84 St", some "12C", "419 E 84 St Apt 12C"⟩ ↔
      (EndsInDashedUnit "419  e 84 st apartment 12c" ↔ EndsInDashedUnit "419 E 84 St Apt 12C")) :=
  ⟨(normalizeAddress_fixed_iff .ascii).1 "419  e 84 st apartment 12c"
      ⟨"419 E 84 St", some "12C", "419 E 84 St Apt 12C"⟩ (by decide +kernel) (by decide +kernel),
    (normalizeAddress_fixed_iff .ascii).2 "419  e 84 st apartment 12c" "419 E 84 St Apt 12C"
      ⟨"419 E 84 St", some "12C", "419 E 84 St Apt 12C"⟩
      ⟨"419 E 84 St", some "12C", "419 E 84 St Apt 12C"⟩ (by decide +kernel) (by decide +kernel)
      (by decide +kernel) (by decide +kernel) rfl⟩

/-- **A unit written with an en dash**: it is no unit, then it is one. -/
theorem normalizeAddress_not_fixed : ¬ ∀ (input : String) (r : AddressNormalizationResult),
    AddressText input.toList → normalizeAddress .ascii input = .ok r →
    normalizeAddress .ascii r.normalizedInput = .ok r := by
  intro h
  have hfixed := h "12 Main St Apt 1–2" ⟨"12 Main St Apt 1-2", none, "12 Main St Apt 1-2"⟩
    (by decide +kernel) (by decide +kernel)
  have hunit : normalizeAddress .ascii "12 Main St Apt 1-2" =
      .ok ⟨"12 Main St", some "1-2", "12 Main St Apt 1-2"⟩ := by decide +kernel
  rw [hunit] at hfixed
  cases congrArg AddressNormalizationResult.normalizedUnitDesignation (Except.ok.inj hfixed)

end NycPropertyResolver
