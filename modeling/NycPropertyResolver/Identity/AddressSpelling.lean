import NycPropertyResolver.Identity.AddressFixedPoint

/-!
# Identity — the spellings of an address

What `normalizeAddress` makes of a text is decided by its words in lower case (`loweredWords`): each of
its passes reads a character and its lower case alike, and white space only where it ends a word.  So
it does not tell apart two spellings of an address that differ in case and spacing (`Respelled`).
-/

namespace NycPropertyResolver

open Library

/-! ### Spellings -/

/-- A change of spelling: the case of one letter, a run of white space, or the white space at an end. -/
inductive Respelling : List Char → List Char → Prop
  | letter {c d : Char} (before after : List Char) (h : c.toLower = d.toLower) :
      Respelling (before ++ c :: after) (before ++ d :: after)
  | gap {gap gap' : List Char} (before after : List Char) (hne : gap ≠ []) (hne' : gap' ≠ [])
      (hgap : ∀ c ∈ gap, isWhitespace c = true) (hgap' : ∀ c ∈ gap', isWhitespace c = true) :
      Respelling (before ++ (gap ++ after)) (before ++ (gap' ++ after))
  | leading {gap gap' : List Char} (text : List Char) (hgap : ∀ c ∈ gap, isWhitespace c = true)
      (hgap' : ∀ c ∈ gap', isWhitespace c = true) : Respelling (gap ++ text) (gap' ++ text)
  | trailing {gap gap' : List Char} (text : List Char) (hgap : ∀ c ∈ gap, isWhitespace c = true)
      (hgap' : ∀ c ∈ gap', isWhitespace c = true) : Respelling (text ++ gap) (text ++ gap')

/-- Another spelling of a text, after any number of changes. -/
def Respelled (input variant : String) : Prop :=
  Relation.ReflTransGen Respelling input.toList variant.toList

/-- The words of a text, in lower case. -/
def loweredWords (text : List Char) : List (List Char) := wordsOf isWhitespace (lowered text)

section Spelling

variable {text text' : List Char} {ws ws' : List (List Char)}

@[simp] theorem lowered_append (text text' : List Char) :
    lowered (text ++ text') = lowered text ++ lowered text' := List.map_append

@[simp] theorem lowered_cons (c : Char) (text : List Char) :
    lowered (c :: text) = c.toLower :: lowered text := rfl

@[simp] theorem lowered_lowered (text : List Char) : lowered (lowered text) = lowered text := by
  simp [lowered]

theorem isWhitespace_toLower (c : Char) : isWhitespace c.toLower = isWhitespace c :=
  congrFun (comp_toLower isWhitespace_of_isAlpha) c

theorem loweredWords_eq_map (text : List Char) :
    loweredWords text = (wordsOf isWhitespace text).map lowered :=
  wordsOf_map Char.toLower isWhitespace_toLower text

/-- **A change of spelling keeps the words**, in lower case. -/
theorem Respelling.loweredWords_eq (h : Respelling text text') :
    loweredWords text = loweredWords text' := by
  cases h with
  | letter before after h => simp [loweredWords, h]
  | gap before after hne hne' hgap hgap' =>
      rw [loweredWords_eq_map, loweredWords_eq_map,
        wordsOf_append_gap_append hne hgap, wordsOf_append_gap_append hne' hgap']
  | leading text hgap hgap' =>
      rw [loweredWords_eq_map, loweredWords_eq_map,
        wordsOf_gap_append hgap, wordsOf_gap_append hgap']
  | trailing text hgap hgap' =>
      rw [loweredWords_eq_map, loweredWords_eq_map,
        wordsOf_append_gap hgap, wordsOf_append_gap hgap']

theorem Respelled.loweredWords_eq {input variant : String} (h : Respelled input variant) :
    loweredWords input.toList = loweredWords variant.toList := by
  have hrun : ∀ {text text' : List Char}, Relation.ReflTransGen Respelling text text' →
      loweredWords text = loweredWords text' := by
    intro text text' hrun
    induction hrun with
    | refl => rfl
    | tail _ hstep ih => exact ih.trans hstep.loweredWords_eq
  exact hrun h

/-! ### Words -/

theorem collapseWhitespace_eq_unwords (text : List Char) :
    collapseWhitespace text = unwords ' ' (wordsOf isWhitespace text) := by
  rw [collapseWhitespace_eq, squeeze_trimBy rfl]

theorem addressWords_wordsOf (h : AddressText text) : AddressWords (wordsOf isWhitespace text) := by
  obtain ⟨ws, hws, hcollapse⟩ := exists_addressWords h
  have hwords : wordsOf isWhitespace (collapseWhitespace text) = wordsOf isWhitespace text := by
    rw [collapseWhitespace_eq, ← List.nil_append (Regex.squeeze _ _ _), wordsOf_append_squeeze rfl,
      List.nil_append, wordsOf_trimBy]
  rw [hcollapse, wordsOf_unwords rfl hws.words] at hwords
  exact hwords ▸ hws

/-- Words that read the same in lower case are words of an address too. -/
theorem AddressWords.of_lowered (h : AddressWords ws) (hlow : ws.map lowered = ws'.map lowered) :
    AddressWords ws' := by
  intro w' hw'
  have hmem : lowered w' ∈ ws.map lowered := hlow ▸ List.mem_map_of_mem hw'
  obtain ⟨w, hw, heq⟩ := List.mem_map.mp hmem
  obtain ⟨hword, htext⟩ := h w hw
  refine ⟨⟨?_, fun c hc => ?_⟩, addressText_of_lowered (heq ▸ addressText_lowered htext)⟩
  · rintro rfl
    exact hword.1 (List.map_eq_nil_iff.mp heq)
  · have hc' : c.toLower ∈ lowered w := heq ▸ List.mem_map_of_mem hc
    obtain ⟨d, hd, hdc⟩ := List.mem_map.mp hc'
    rw [← isWhitespace_toLower, ← hdc, isWhitespace_toLower]
    exact hword.2 d hd

/-! ### Tokens -/

variable {mapping : CaseMapping}

theorem hyphenated_lowered (text : List Char) :
    normalizeHyphenatedHouseNumber (lowered text) = lowered (normalizeHyphenatedHouseNumber text) := by
  rw [normalizeHyphenatedHouseNumber, lowered, lowered, normalizeHyphenatedHouseNumber, List.map_map,
    List.map_map]
  refine List.map_congr_left fun c _ => ?_
  have hdash : isDash c.toLower = isDash c := congrFun (comp_toLower isDash_of_isAlpha) c
  by_cases h : isDash c = true
  · simp [hdash, h]
  · simp [hdash, h]

/-- What a token becomes is read from its lower case. -/
theorem normalizeAddressToken_lowered {token : List Char} (h : AddressText token) :
    normalizeAddressToken mapping token =
      normalizedToken (normalizeHyphenatedHouseNumber (lowered token)) := by
  rw [normalizeAddressToken_eq h]
  refine normalizedToken_congr ?_
  rw [hyphenated_lowered, lowered_lowered]

theorem map_normalizeAddressToken_congr (hws : AddressWords ws)
    (hlow : ws.map lowered = ws'.map lowered) :
    ws.map (normalizeAddressToken mapping) = ws'.map (normalizeAddressToken mapping) := by
  have hmap : ∀ {vs : List (List Char)}, AddressWords vs → vs.map (normalizeAddressToken mapping) =
      (vs.map lowered).map fun w => normalizedToken (normalizeHyphenatedHouseNumber w) := by
    intro vs hvs
    rw [List.map_map]
    exact List.map_congr_left fun w hw => normalizeAddressToken_lowered (hvs w hw).2
  rw [hmap hws, hmap (hws.of_lowered hlow), hlow]

/-- **Equal words in lower case, equal tokens.** -/
theorem normalizeAddressTokens_congr (h : AddressText text) (hwords : loweredWords text = loweredWords text') :
    normalizeAddressTokens mapping text = normalizeAddressTokens mapping text' := by
  rw [loweredWords_eq_map, loweredWords_eq_map] at hwords
  have hws := addressWords_wordsOf h
  rw [normalizeAddressTokens_of_collapse hws (collapseWhitespace_eq_unwords text),
    normalizeAddressTokens_of_collapse (hws.of_lowered hwords) (collapseWhitespace_eq_unwords text'),
    map_normalizeAddressToken_congr hws hwords]

/-! ### Units -/

section Units

variable {lead lead' value value' rest rest' keyword' : List Char} {keyword : Option (List Char)}

theorem append_of_lowered {x y : List Char} (h : lowered text = lowered (x ++ y)) :
    ∃ x' y', text = x' ++ y' ∧ lowered x' = lowered x ∧ lowered y' = lowered y := by
  rw [lowered_append] at h
  obtain ⟨x', y', htext, hx, hy⟩ := List.map_eq_append_iff.mp h
  exact ⟨x', y', htext, hx, hy⟩

/-- A character that is no letter stays itself. -/
theorem cons_of_lowered {c : Char} {y : List Char} (hc : c.isAlpha = false)
    (h : lowered text = lowered (c :: y)) : ∃ y', text = c :: y' ∧ lowered y' = lowered y := by
  rw [lowered_cons] at h
  obtain ⟨d, y', htext, hd, hy⟩ := List.map_eq_cons_iff.mp h
  rw [toLower_of_not_isAlpha hc] at hd
  exact ⟨y', eq_of_toLower_eq hc hd ▸ htext, hy⟩

theorem IsUnitKeyword.of_lowered {text : List Char} (h : IsUnitKeyword text)
    (hlow : lowered text' = lowered text) : IsUnitKeyword text' := by
  rw [IsUnitKeyword, hlow]
  exact h

theorem IsUnitValue.of_lowered (h : IsUnitValue value) (hlow : lowered value' = lowered value) :
    IsUnitValue value' := by
  obtain ⟨a, w, rfl, ha, hw⟩ := h
  obtain ⟨b, v, rfl, hb, hv⟩ := List.map_eq_cons_iff.mp hlow
  refine ⟨b, v, rfl, ?_, fun c hc => ?_⟩
  · rw [← isAlphanum_toLower, hb, isAlphanum_toLower]
    exact ha
  · have hmem : c.toLower ∈ w.map Char.toLower := hv ▸ List.mem_map_of_mem hc
    obtain ⟨d, hd, hdc⟩ := List.mem_map.mp hmem
    rw [← isUnitValueChar_toLower, ← hdc, isUnitValueChar_toLower]
    exact hw d hd

theorem UnitLead.of_lowered (h : UnitLead lead keyword) (hlow : lowered lead' = lowered lead) :
    ∃ keyword', UnitLead lead' keyword' ∧ keyword'.map lowered = keyword.map lowered := by
  cases h with
  | keyword hkeyword =>
      exact ⟨some lead', .keyword (hkeyword.of_lowered hlow), by simp [hlow]⟩
  | period hkeyword =>
      obtain ⟨front, dot, rfl, hfront, hdot⟩ := append_of_lowered hlow
      obtain ⟨nothing, rfl, hnothing⟩ := cons_of_lowered rfl hdot
      obtain rfl : nothing = [] := List.map_eq_nil_iff.mp hnothing
      exact ⟨some front, .period (hkeyword.of_lowered hfront), by simp [hfront]⟩
  | hash =>
      obtain ⟨nothing, rfl, hnothing⟩ := cons_of_lowered rfl hlow
      obtain rfl : nothing = [] := List.map_eq_nil_iff.mp hnothing
      exact ⟨none, .hash, rfl⟩

/-- A unit in either case is a unit. -/
theorem UnitText.of_lowered (h : UnitText IsUnitValue rest keyword value)
    (hlow : lowered rest' = lowered rest) :
    ∃ keyword' value', UnitText IsUnitValue rest' keyword' value' ∧
      keyword'.map lowered = keyword.map lowered ∧ lowered value' = lowered value := by
  cases h with
  | spaced hlead hvalue =>
      obtain ⟨text, rfl, htext⟩ := cons_of_lowered rfl hlow
      obtain ⟨lead', tail, rfl, hlead', htail⟩ := append_of_lowered htext
      obtain ⟨value', rfl, hvalue'⟩ := cons_of_lowered rfl htail
      obtain ⟨keyword', hlead', hkeyword⟩ := hlead.of_lowered hlead'
      exact ⟨keyword', value', .spaced hlead' (hvalue.of_lowered hvalue'), hkeyword, hvalue'⟩
  | hash hvalue =>
      obtain ⟨text, rfl, htext⟩ := cons_of_lowered rfl hlow
      obtain ⟨value', rfl, hvalue'⟩ := cons_of_lowered rfl htext
      exact ⟨none, value', .hash (hvalue.of_lowered hvalue'), rfl, hvalue'⟩

theorem UnitOnlyText.of_lowered {keyword : List Char} (h : UnitOnlyText IsUnitValue text keyword value)
    (hlow : lowered text' = lowered text) :
    ∃ keyword' value', UnitOnlyText IsUnitValue text' keyword' value' ∧
      lowered keyword' = lowered keyword ∧ lowered value' = lowered value := by
  obtain ⟨lead, hlead, hvalue, rfl⟩ := h
  obtain ⟨lead', tail, rfl, hlead', htail⟩ := append_of_lowered hlow
  obtain ⟨value', rfl, hvalue'⟩ := cons_of_lowered rfl htail
  obtain ⟨keyword', hlead', hkeyword⟩ := hlead.of_lowered hlead'
  cases keyword' with
  | none => cases hkeyword
  | some keyword' =>
      exact ⟨keyword', value', ⟨lead', hlead', hvalue.of_lowered hvalue', rfl⟩,
        Option.some.inj hkeyword, hvalue'⟩

theorem addressText_of_isUnitKeyword {keyword : List Char} (h : IsUnitKeyword keyword) :
    AddressText keyword := by
  have hall : ∀ k ∈ unitKeywords, AddressText k := by decide
  exact addressText_of_lowered (hall _ h)

theorem canonicalUnitKeyword_congr {keyword keyword' : List Char} (h : IsUnitKeyword keyword)
    (hlow : lowered keyword' = lowered keyword) :
    canonicalUnitKeyword mapping keyword' = canonicalUnitKeyword mapping keyword := by
  have hlower : mapping.toLowerCase keyword' = mapping.toLowerCase keyword := by
    rw [mapping.toLowerCase_address (addressText_of_isUnitKeyword (h.of_lowered hlow)),
      mapping.toLowerCase_address (addressText_of_isUnitKeyword h)]
    exact hlow
  rw [canonicalUnitKeyword, hlower, canonicalUnitKeyword]

/-- **The unit of a keyword and a value in either case.** -/
theorem unitMatch_congr {keyword' : Option (List Char)}
    (hkeyword : ∀ k, keyword = some k → IsUnitKeyword k) (hvalue : IsUnitValue value)
    (hk : keyword'.map lowered = keyword.map lowered) (hv : lowered value' = lowered value) :
    unitMatch mapping keyword' value' = unitMatch mapping keyword value := by
  have hupper : value'.map Char.toUpper = value.map Char.toUpper := by
    have hmap := congrArg (List.map Char.toUpper) hv
    simpa [lowered, Function.comp_def] using hmap
  have hcanonical : keyword'.map (canonicalUnitKeyword mapping) =
      keyword.map (canonicalUnitKeyword mapping) := by
    cases keyword with
    | none => rw [Option.map_eq_none_iff.mp hk]
    | some k =>
        obtain ⟨k', rfl, hk'⟩ := Option.map_eq_some_iff.mp hk
        simp [canonicalUnitKeyword_congr (hkeyword k rfl) hk']
  rw [unitMatch, unitMatch, hcanonical, normalizeUnitValue_eq hvalue,
    normalizeUnitValue_eq (hvalue.of_lowered hv), hupper]

end Units

/-! ### Addresses -/

/-- White space at the ends does not change the tokens. -/
theorem normalizeAddressTokens_trimChars_congr (h : AddressText text)
    (hlow : lowered text' = lowered text) :
    normalizeAddressTokens mapping (trimChars text') = normalizeAddressTokens mapping (trimChars text) := by
  have hwords : ∀ t : List Char, loweredWords (trimChars t) = loweredWords t := by
    intro t
    rw [loweredWords_eq_map, loweredWords_eq_map]
    exact congrArg _ wordsOf_trimBy
  have htrim : AddressText (trimChars text) := fun c hc => h c (mem_of_mem_trimBy hc)
  refine (normalizeAddressTokens_congr htrim ?_).symm
  rw [hwords, hwords, loweredWords, loweredWords, hlow]

/-- **The unit and the base address** of an address and of the same words in another case. -/
theorem extractUnitDesignator_congr (mapping : CaseMapping)
    (hspaced : Spaced isWhitespace ' ' text) (hspaced' : Spaced isWhitespace ' ' text')
    (h : AddressText text) (hlow : lowered text' = lowered text) :
    ∃ base base' unit, extractUnitDesignator mapping text = (base, unit) ∧
      extractUnitDesignator mapping text' = (base', unit) ∧
      normalizeAddressTokens mapping base' = normalizeAddressTokens mapping base := by
  by_cases honly : IsUnitOnly text
  · obtain ⟨keyword, value, hunit⟩ := honly
    obtain ⟨keyword', value', hunit', hkeyword, hvalue⟩ := hunit.of_lowered hlow
    have hunitMatch : unitMatch mapping (some keyword') value' = unitMatch mapping (some keyword) value := by
      obtain ⟨lead, hlead, hisValue, -⟩ := hunit
      refine unitMatch_congr (fun k hk => ?_) hisValue (by simp [hkeyword]) hvalue
      cases hk
      exact hlead.isUnitKeyword
    exact ⟨[], [], _, extractUnitDesignator_only hspaced hunit,
      hunitMatch ▸ extractUnitDesignator_only hspaced' hunit', rfl⟩
  · have honly' : ¬ IsUnitOnly text' := by
      rintro ⟨keyword, value, hunit⟩
      obtain ⟨keyword', value', hunit', -⟩ := hunit.of_lowered hlow.symm
      exact honly ⟨keyword', value', hunit'⟩
    by_cases hends : EndsInUnit text
    · obtain ⟨base, rest, keyword, value, rfl, hunit⟩ := hends
      obtain ⟨base', rest', rfl, hbase, hrest⟩ := append_of_lowered hlow
      obtain ⟨keyword', value', hunit', hkeyword, hvalue⟩ := hunit.of_lowered hrest
      refine ⟨_, _, _, extractUnitDesignator_trailing hspaced honly rfl hunit, ?_,
        normalizeAddressTokens_trimChars_congr (fun c hc => h c (List.mem_append_left _ hc)) hbase⟩
      rw [extractUnitDesignator_trailing hspaced' honly' rfl hunit',
        unitMatch_congr _ hunit.isValue hkeyword hvalue]
      rintro k rfl
      exact hunit.isUnitKeyword
    · have hends' : ¬ EndsInUnit text' := by
        rintro ⟨base, rest, keyword, value, rfl, hunit⟩
        obtain ⟨base', rest', rfl, -, hrest⟩ := append_of_lowered hlow.symm
        obtain ⟨keyword', value', hunit', -⟩ := hunit.of_lowered hrest
        exact hends ⟨base', rest', keyword', value', rfl, hunit'⟩
      refine ⟨_, _, _, extractUnitDesignator_none hspaced honly hends,
        extractUnitDesignator_none hspaced' honly' hends', ?_⟩
      refine (normalizeAddressTokens_congr h ?_).symm
      rw [loweredWords, loweredWords, hlow]

/-- **The words of an input, in lower case, decide its normalization.** -/
theorem normalizeAddress_congr {input variant : String} (h : AddressText input.toList)
    (hwords : loweredWords input.toList = loweredWords variant.toList) :
    normalizeAddress mapping variant = normalizeAddress mapping input := by
  rw [loweredWords_eq_map, loweredWords_eq_map] at hwords
  have hws := addressWords_wordsOf h
  have hvs := hws.of_lowered hwords
  have hlow : lowered (collapseWhitespace variant.toList) = lowered (collapseWhitespace input.toList) := by
    have hmap : ∀ ws : List (List Char), lowered (unwords ' ' ws) = unwords ' ' (ws.map lowered) :=
      fun ws => (unwords_map Char.toLower ' ').symm
    rw [collapseWhitespace_eq_unwords, collapseWhitespace_eq_unwords, hmap, hmap, hwords]
  have hspaced : Spaced isWhitespace ' ' (collapseWhitespace input.toList) := by
    rw [collapseWhitespace_eq_unwords]
    exact spaced_unwords hws.words
  have hspaced' : Spaced isWhitespace ' ' (collapseWhitespace variant.toList) := by
    rw [collapseWhitespace_eq_unwords]
    exact spaced_unwords hvs.words
  have haddress : AddressText (collapseWhitespace input.toList) := by
    rw [collapseWhitespace_eq_unwords]
    exact hws.addressText
  have hempty : (collapseWhitespace variant.toList).isEmpty =
      (collapseWhitespace input.toList).isEmpty := by
    have hlength := congrArg List.isEmpty hlow
    simpa [lowered] using hlength
  have htest : Regex.test hasAlphanumericPattern (collapseWhitespace variant.toList) =
      Regex.test hasAlphanumericPattern (collapseWhitespace input.toList) := by
    have hignores : IgnoresCase hasAlphanumericPattern := ignoresCase_char_of_alpha isAlphanum_toLower
    rw [← hignores.test, ← hignores.test (collapseWhitespace input.toList)]
    exact congrArg (Regex.test hasAlphanumericPattern) hlow
  have hvalid : assertValidAddressInput variant.toList = assertValidAddressInput input.toList := by
    rw [assertValidAddressInput, assertValidAddressInput, hempty, htest]
  obtain ⟨base, base', unit, hextract, hextract', htokens⟩ :=
    extractUnitDesignator_congr mapping hspaced hspaced' haddress hlow
  rw [normalizeAddress, normalizeAddress, hvalid]
  simp only [hextract, hextract', htokens]

end Spelling

/-- **Normalization ignores case and spacing**: another spelling of an address gives the same result, or
the same error. -/
theorem normalizeAddress_of_respelled (mapping : CaseMapping) (input variant : String)
    (hinput : AddressText input.toList) (h : Respelled input variant) :
    normalizeAddress mapping variant = normalizeAddress mapping input :=
  normalizeAddress_congr hinput h.loweredWords_eq

/-- White space in front, a tab for a space, a letter in upper case. -/
theorem normalizeAddress_of_respelled_tab :
    normalizeAddress .ascii " 419\tE 84 St # 12C" = normalizeAddress .ascii "419 E 84 St # 12c" := by
  have hspace : ∀ c ∈ [' '], isWhitespace c = true := by simp [isWhitespace]
  have htab : ∀ c ∈ ['\t'], isWhitespace c = true := by simp [isWhitespace]
  refine normalizeAddress_of_respelled .ascii _ _ (by decide +kernel) ?_
  have hleading : Respelling "419 E 84 St # 12c".toList " 419 E 84 St # 12c".toList :=
    @Respelling.leading [] [' '] "419 E 84 St # 12c".toList (by simp) hspace
  have hgap : Respelling " 419 E 84 St # 12c".toList " 419\tE 84 St # 12c".toList :=
    @Respelling.gap [' '] ['\t'] " 419".toList "E 84 St # 12c".toList (by simp) (by simp) hspace htab
  have hletter : Respelling " 419\tE 84 St # 12c".toList " 419\tE 84 St # 12C".toList :=
    @Respelling.letter 'c' 'C' " 419\tE 84 St # 12".toList [] (by decide)
  exact ((Relation.ReflTransGen.single hleading).tail hgap).tail hletter

end NycPropertyResolver
