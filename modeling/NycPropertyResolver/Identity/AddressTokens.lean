import NycPropertyResolver.Identity.AddressNormalizer
import NycPropertyResolver.Library.AsciiCase
import NycPropertyResolver.Library.Words

/-!
# Identity — the tokens of an address

Normalization, one token at a time.  What a token becomes is decided by the token with its dashes
replaced and its letters in lower case (`normalizeAddressToken_congr`), and the token it becomes reads
the same (`lowered_normalizeAddressToken`): so normalizing once is enough.
-/

namespace NycPropertyResolver

open Library

/-! ### Classes that ignore case -/

/-- The pattern reads a character and its lower case alike. -/
def IgnoresCase {γ : Type} (r : Regex Char γ) : Prop := Regex.comap Char.toLower r = r

section IgnoresCase

variable {γ : Type} {r s : Regex Char γ}

theorem IgnoresCase.test (h : IgnoresCase r) (text : List Char) :
    Regex.test r (text.map Char.toLower) = Regex.test r text := by
  rw [Regex.test_map, h]

theorem IgnoresCase.seq (hr : IgnoresCase r) (hs : IgnoresCase s) : IgnoresCase (.seq r s) := by
  rw [IgnoresCase, Regex.comap, hr, hs]

theorem IgnoresCase.alt (hr : IgnoresCase r) (hs : IgnoresCase s) : IgnoresCase (.alt r s) := by
  rw [IgnoresCase, Regex.comap, hr, hs]

theorem IgnoresCase.star (hr : IgnoresCase r) : IgnoresCase (.star r) := by
  rw [IgnoresCase, Regex.comap, hr]

theorem IgnoresCase.group {name : γ} (hr : IgnoresCase r) : IgnoresCase (.group name r) := by
  rw [IgnoresCase, Regex.comap, hr]

theorem IgnoresCase.plus (hr : IgnoresCase r) : IgnoresCase r.plus := hr.seq hr.star

theorem IgnoresCase.optional (hr : IgnoresCase r) : IgnoresCase r.optional := hr.alt rfl

/-- A class without letters. -/
theorem ignoresCase_char {p : Char → Bool} (hp : ∀ c, c.isAlpha = true → p c = false) :
    IgnoresCase (.char p : Regex Char γ) := by
  rw [IgnoresCase, Regex.comap, comp_toLower hp]

/-- A class of letters and others. -/
theorem ignoresCase_char_of_alpha {p : Char → Bool} (hp : ∀ c, p c.toLower = p c) :
    IgnoresCase (.char p : Regex Char γ) := by
  rw [IgnoresCase, Regex.comap, funext hp]

theorem ignoresCase_textIgnoringCase (text : List Char) : IgnoresCase (textIgnoringCase text) := by
  rw [IgnoresCase, textIgnoringCase]
  induction text with
  | nil => rfl
  | cons c text ih =>
      have hc : (fun a : Char => ignoringCase c a.toLower) = ignoringCase c := by
        funext a
        rw [ignoringCase, toLower_toLower, ignoringCase]
      rw [List.map_cons, Regex.word, Regex.comap, Regex.comap, hc, ih]

theorem ignoresCase_oneOf {r : AddressPattern} {rs : List AddressPattern}
    (h : ∀ s ∈ r :: rs, IgnoresCase s) : IgnoresCase (.oneOf r rs) := by
  induction rs generalizing r with
  | nil => exact h r List.mem_cons_self
  | cons s rs ih =>
      obtain ⟨hr, hrest⟩ := List.forall_mem_cons.mp h
      exact hr.alt (ih hrest)

end IgnoresCase

theorem isAlphanum_toLower (c : Char) : c.toLower.isAlphanum = c.isAlphanum := by
  rw [Char.isAlphanum, Char.isAlphanum, isAlpha_toLower,
    congrFun (comp_toLower fun _ => not_isDigit_of_isAlpha) c]

/-- A character that is no letter is not in the class of a letter. -/
theorem beq_of_isAlpha {d : Char} (hd : d.isAlpha = false) (c : Char) (hc : c.isAlpha = true) :
    (c == d) = false := by
  rw [beq_eq_false_iff_ne]
  rintro rfl
  rw [hc] at hd
  cases hd

theorem isUnitValueChar_toLower (c : Char) : isUnitValueChar c.toLower = isUnitValueChar c := by
  rw [isUnitValueChar, isUnitValueChar, isAlphanum_toLower,
    congrFun (comp_toLower (p := (· == '-')) (beq_of_isAlpha rfl)) c]

theorem isWhitespace_of_isAlpha (c : Char) (hc : c.isAlpha = true) : isWhitespace c = false := by
  have hrange := isAlpha_iff.mp hc
  simp only [isWhitespace, Bool.or_eq_false_iff, Bool.and_eq_false_iff, decide_eq_false_iff_not,
    beq_eq_false_iff_ne]
  omega

theorem ignoresCase_digits {γ : Type} : IgnoresCase (digitsPattern : Regex Char γ) :=
  (ignoresCase_char fun _ => not_isDigit_of_isAlpha).plus

theorem ignoresCase_queens : IgnoresCase queensHouseNumberPattern :=
  .seq rfl (ignoresCase_digits.seq ((ignoresCase_char (beq_of_isAlpha rfl)).seq
    (ignoresCase_digits.seq rfl)))

theorem ignoresCase_allDigits : IgnoresCase allDigitsPattern := .seq rfl (ignoresCase_digits.seq rfl)

theorem ignoresCase_ordinal : IgnoresCase ordinalPattern := by
  refine .seq rfl (ignoresCase_digits.seq (.seq (ignoresCase_oneOf ?_) rfl))
  simp only [List.forall_mem_cons]
  exact ⟨ignoresCase_textIgnoringCase _, ignoresCase_textIgnoringCase _,
    ignoresCase_textIgnoringCase _, ignoresCase_textIgnoringCase _, by simp⟩

theorem ignoresCase_digitsLetters : IgnoresCase digitsLettersPattern :=
  .seq rfl (ignoresCase_digits.group.seq
    ((IgnoresCase.group (IgnoresCase.plus (ignoresCase_char_of_alpha isAlpha_toLower))).seq rfl))

theorem ignoresCase_unitKeyword : IgnoresCase unitKeywordPattern := by
  refine ignoresCase_oneOf ?_
  simp only [List.forall_mem_cons]
  exact ⟨ignoresCase_textIgnoringCase _, ignoresCase_textIgnoringCase _,
    ignoresCase_textIgnoringCase _, ignoresCase_textIgnoringCase _, ignoresCase_textIgnoringCase _,
    ignoresCase_textIgnoringCase _, ignoresCase_textIgnoringCase _, by simp⟩

theorem ignoresCase_whitespace : IgnoresCase whitespaceClass := ignoresCase_char isWhitespace_of_isAlpha

theorem ignoresCase_unitValue : IgnoresCase unitValuePattern :=
  (ignoresCase_char_of_alpha isAlphanum_toLower).seq
    (ignoresCase_char_of_alpha isUnitValueChar_toLower).star

theorem ignoresCase_keywordUnit : IgnoresCase keywordUnitPattern :=
  ignoresCase_unitKeyword.group.seq ((ignoresCase_char (beq_of_isAlpha rfl)).optional.seq
    (ignoresCase_whitespace.plus.seq ignoresCase_unitValue.group))

theorem ignoresCase_unitOnly : IgnoresCase unitOnlyPattern := .seq rfl (ignoresCase_keywordUnit.seq rfl)

theorem ignoresCase_unitDesignator : IgnoresCase unitDesignatorPattern :=
  ignoresCase_whitespace.plus.seq ((ignoresCase_keywordUnit.alt
    ((ignoresCase_char (beq_of_isAlpha rfl)).seq
      (ignoresCase_whitespace.star.seq ignoresCase_unitValue.group))).seq
    (ignoresCase_whitespace.star.seq rfl))

/-! ### Digits and letters -/

theorem mem_runs_group_plus {γ : Type} {p : Char → Bool} {name : γ} {c d : MatchState Char γ}
    (h : d ∈ Regex.runs (.group name (.plus (.char p))) c) :
    ∃ w rest, c.ahead = w ++ rest ∧ (∀ a ∈ w, p a = true) ∧
      d = (c.advance w rest).capture name w := by
  obtain ⟨e, he, rfl⟩ := Regex.mem_runs_group.mp h
  obtain ⟨w, rest, -, hahead, hw, rfl⟩ := Regex.mem_runs_plus_char.mp he
  exact ⟨w, rest, hahead, hw, by rw [Regex.upTo_advance hahead]⟩

/-- A text without letters is in lower case. -/
theorem map_toLower_eq_self {text : List Char} (h : ∀ c ∈ text, c.isAlpha = false) :
    text.map Char.toLower = text :=
  (List.map_congr_left fun c hc => toLower_of_not_isAlpha (h c hc)).trans (List.map_id text)

/-- A text without letters is in upper case. -/
theorem map_toUpper_eq_self {text : List Char} (h : ∀ c ∈ text, c.isAlpha = false) :
    text.map Char.toUpper = text :=
  (List.map_congr_left fun c hc => toUpper_of_not_isAlpha (h c hc)).trans (List.map_id text)

theorem not_isAlpha_of_isDigit {c : Char} (h : c.isDigit = true) : c.isAlpha = false := by
  rw [Bool.eq_false_iff]
  intro halpha
  rw [not_isDigit_of_isAlpha halpha] at h
  cases h

/-- A pattern anchored at both ends, as it reads a text. -/
theorem of_test_anchored {γ : Type} {r : Regex Char γ} {text : List Char}
    (h : Regex.test (.seq .atStart r) text = true) :
    ∃ d, d ∈ Regex.runs r ⟨[], text, []⟩ := by
  obtain ⟨before, rest, d, rfl, hd⟩ := Regex.test_iff.mp h
  obtain ⟨e, he, hd⟩ := Regex.mem_runs_seq.mp hd
  obtain ⟨hbefore, rfl⟩ := Regex.mem_runs_atStart.mp he
  rw [List.reverse_eq_nil_iff] at hbefore
  subst hbefore
  exact ⟨d, hd⟩

/-- A number has no letters. -/
theorem not_isAlpha_of_allDigits {text : List Char} (h : Regex.test allDigitsPattern text = true) :
    ∀ c ∈ text, c.isAlpha = false := by
  obtain ⟨d, hd⟩ := of_test_anchored h
  obtain ⟨e, he, hd⟩ := Regex.mem_runs_seq.mp hd
  obtain ⟨w, rest, -, htext, hw, rfl⟩ := Regex.mem_runs_plus_char.mp he
  obtain ⟨hrest, -⟩ := Regex.mem_runs_atEnd.mp hd
  rw [MatchState.advance_ahead] at hrest
  subst hrest
  intro c hc
  change text = w ++ [] at htext
  rw [htext, List.append_nil] at hc
  exact not_isAlpha_of_isDigit (hw c hc)

/-- A hyphenated house number has no letters. -/
theorem not_isAlpha_of_queens {text : List Char}
    (h : Regex.test queensHouseNumberPattern text = true) : ∀ c ∈ text, c.isAlpha = false := by
  obtain ⟨d, hd⟩ := of_test_anchored h
  obtain ⟨e, he, hd⟩ := Regex.mem_runs_seq.mp hd
  obtain ⟨w, rest, -, htext, hw, rfl⟩ := Regex.mem_runs_plus_char.mp he
  obtain ⟨e, he, hd⟩ := Regex.mem_runs_seq.mp hd
  obtain ⟨a, rest', hrest, ha, rfl⟩ := Regex.mem_runs_char.mp he
  obtain ⟨e, he, hd⟩ := Regex.mem_runs_seq.mp hd
  obtain ⟨w', rest'', -, hrest', hw', rfl⟩ := Regex.mem_runs_plus_char.mp he
  obtain ⟨hend, -⟩ := Regex.mem_runs_atEnd.mp hd
  rw [MatchState.advance_ahead] at hrest hrest' hend
  subst hend hrest' hrest
  intro c hc
  change text = w ++ a :: (w' ++ []) at htext
  rw [htext, List.append_nil, List.mem_append, List.mem_cons] at hc
  rcases hc with hc | rfl | hc
  · exact not_isAlpha_of_isDigit (hw c hc)
  · rw [beq_iff_eq] at ha
    rw [ha]
    rfl
  · exact not_isAlpha_of_isDigit (hw' c hc)

/-! ### What a token becomes -/

section Tokens

variable {mapping : CaseMapping} {text token token' : List Char}

/-- The text in lower case. -/
def lowered (text : List Char) : List Char := text.map Char.toLower

theorem AddressText.append {text' : List Char} (h : AddressText text) (h' : AddressText text') :
    AddressText (text ++ text') := by
  intro c hc
  rcases List.mem_append.mp hc with hc | hc
  · exact h c hc
  · exact h' c hc

/-- Digits followed by letters are in upper case, whichever way they are cut. -/
theorem upperSuffix?_eq (h : AddressText text) : upperSuffix? mapping text =
    if Regex.test digitsLettersPattern text then some (text.map Char.toUpper) else none := by
  rw [upperSuffix?, Regex.test]
  cases hm : Regex.exec digitsLettersPattern text with
  | none => rfl
  | some m =>
      obtain ⟨rest, htext, hstop⟩ := Regex.exec_eq_some hm
      obtain ⟨e, he, hstop⟩ := Regex.mem_runs_seq.mp hstop
      obtain ⟨hbefore, rfl⟩ := Regex.mem_runs_atStart.mp he
      rw [List.reverse_eq_nil_iff] at hbefore
      rw [hbefore, List.nil_append] at htext
      subst htext
      obtain ⟨e, he, hstop⟩ := Regex.mem_runs_seq.mp hstop
      obtain ⟨ds, rest, htext, hds, rfl⟩ := mem_runs_group_plus he
      obtain ⟨e, he, hstop⟩ := Regex.mem_runs_seq.mp hstop
      obtain ⟨ls, rest', hrest, -, rfl⟩ := mem_runs_group_plus he
      obtain ⟨hend, hstop⟩ := Regex.mem_runs_atEnd.mp hstop
      have hrest' : rest' = [] := hend
      have hls : rest = ls ++ rest' := hrest
      change text = ds ++ rest at htext
      subst hrest' hls htext
      rw [List.append_nil] at h ⊢
      have hupper : mapping.toUpperCase ls = ls.map Char.toUpper :=
        mapping.toUpperCase_address fun c hc => h c (List.mem_append_right _ hc)
      have hdigits : ds.map Char.toUpper = ds :=
        map_toUpper_eq_self fun c hc => not_isAlpha_of_isDigit (hds c hc)
      rw [Option.map_some, hstop, Option.isSome_some, if_pos rfl, List.map_append, hdigits, ← hupper]
      rfl

/-- What is left to do with a token that is none of the special ones. -/
def capitalized : List Char → List Char
  | [] => []
  | c :: rest => c.toUpper :: lowered rest

theorem capitalize_eq (h : AddressText text) : capitalize mapping text = capitalized text := by
  cases text with
  | nil => rfl
  | cons c rest =>
      obtain ⟨hc, hrest⟩ := List.forall_mem_cons.mp h
      have hbasic : c.toNat < 0x10000 := by
        simp only [isAddressChar, Bool.or_eq_true, decide_eq_true_eq, beq_iff_eq] at hc
        rcases hc with (hc | rfl) | rfl
        · omega
        · decide
        · decide
      have hfirst : AddressText [c] := by simpa [AddressText] using hc
      rw [capitalize, if_pos hbasic, mapping.toLowerCase_address hrest,
        mapping.toUpperCase_address hfirst]
      rfl

/-- A token whose dashes have been replaced, normalized. -/
def normalizedToken (text : List Char) : List Char :=
  if Regex.test queensHouseNumberPattern text || Regex.test allDigitsPattern text then text
  else if Regex.test ordinalPattern text then lowered text
  else if Regex.test digitsLettersPattern text then text.map Char.toUpper
  else capitalized text

theorem addressText_hyphenated (h : AddressText token) :
    AddressText (normalizeHyphenatedHouseNumber token) := by
  intro c hc
  obtain ⟨a, ha, rfl⟩ := List.mem_map.mp hc
  by_cases hdash : isDash a = true
  · rw [if_pos hdash]
    rfl
  · rw [if_neg hdash]
    exact h a ha

/-- **What a token becomes.** -/
theorem normalizeAddressToken_eq (h : AddressText token) : normalizeAddressToken mapping token =
    normalizedToken (normalizeHyphenatedHouseNumber token) := by
  have htext := addressText_hyphenated h
  rw [normalizeAddressToken, normalizedToken, upperSuffix?_eq htext, capitalize_eq htext,
    mapping.toLowerCase_address htext]
  by_cases hqueens : Regex.test queensHouseNumberPattern (normalizeHyphenatedHouseNumber token) = true
  · simp only [hqueens, if_true, Bool.true_or]
  · by_cases hdigits : Regex.test allDigitsPattern (normalizeHyphenatedHouseNumber token) = true
    · simp only [hqueens, hdigits, if_true, Bool.or_true, Bool.false_eq_true, if_false]
    · simp only [hqueens, hdigits, Bool.or_false, Bool.false_eq_true, if_false]
      by_cases hordinal :
          Regex.test ordinalPattern (normalizeHyphenatedHouseNumber token) = true
      · rw [if_pos hordinal, if_pos hordinal]
        rfl
      · rw [if_neg hordinal, if_neg hordinal]
        by_cases hsuffix :
            Regex.test digitsLettersPattern (normalizeHyphenatedHouseNumber token) = true
        · rw [if_pos hsuffix, if_pos hsuffix]
        · rw [if_neg hsuffix, if_neg hsuffix]

/-- The special tokens in lower case. -/
theorem lowered_normalizedToken (text : List Char) : lowered (normalizedToken text) = lowered text := by
  rw [normalizedToken]
  split
  · rfl
  · split
    · simp [lowered]
    · split
      · simp [lowered]
      · cases text with
        | nil => rfl
        | cons c rest => simp [lowered, capitalized]

/-- **The lower case of a token decides what it becomes.** -/
theorem normalizedToken_congr {text' : List Char} (h : lowered text = lowered text') :
    normalizedToken text = normalizedToken text' := by
  have htest : ∀ {γ : Type} {r : Regex Char γ}, IgnoresCase r → Regex.test r text = Regex.test r text' := by
    intro γ r hr
    rw [← hr.test text, ← hr.test text']
    exact congrArg (Regex.test r) h
  rw [normalizedToken, normalizedToken, ← htest ignoresCase_queens, ← htest ignoresCase_allDigits,
    ← htest ignoresCase_ordinal, ← htest ignoresCase_digitsLetters, ← h]
  by_cases hnumber : (Regex.test queensHouseNumberPattern text ||
      Regex.test allDigitsPattern text) = true
  · -- a number has no letters, so it is its own lower case
    rw [if_pos hnumber, if_pos hnumber]
    have hself : ∀ {t : List Char}, (Regex.test queensHouseNumberPattern t ||
        Regex.test allDigitsPattern t) = true → lowered t = t := by
      intro t ht
      rcases Bool.or_eq_true _ _ |>.mp ht with ht | ht
      · exact map_toLower_eq_self (not_isAlpha_of_queens ht)
      · exact map_toLower_eq_self (not_isAlpha_of_allDigits ht)
    rw [← hself hnumber, h]
    refine hself ?_
    rw [← htest ignoresCase_queens, ← htest ignoresCase_allDigits]
    exact hnumber
  · rw [if_neg hnumber, if_neg hnumber]
    have hupper : text.map Char.toUpper = text'.map Char.toUpper := by
      have hmap := congrArg (List.map Char.toUpper) h
      simpa [lowered, Function.comp_def] using hmap
    have hcapital : capitalized text = capitalized text' := by
      cases text with
      | nil =>
          cases text' with
          | nil => rfl
          | cons c' rest' => cases h
      | cons c rest =>
          cases text' with
          | nil => cases h
          | cons c' rest' =>
              simp only [List.map_cons, List.cons.injEq] at hupper
              simp only [lowered, List.map_cons, List.cons.injEq] at h
              rw [capitalized, capitalized, hupper.1, lowered, h.2]
              rfl
    rw [hupper, hcapital]

/-! ### Normalizing again -/

/-- A class without letters reads a token as it reads what it becomes. -/
theorem forall_normalizedToken {p : Char → Bool} (hp : ∀ c, c.isAlpha = true → p c = false)
    (h : ∀ c ∈ text, p c = false) : ∀ c ∈ normalizedToken text, p c = false := by
  intro c hc
  have hmem : c.toLower ∈ lowered (normalizedToken text) := List.mem_map_of_mem hc
  rw [lowered_normalizedToken] at hmem
  obtain ⟨d, hd, hdc⟩ := List.mem_map.mp hmem
  rw [← congrFun (comp_toLower hp) c, ← hdc, congrFun (comp_toLower hp) d]
  exact h d hd

theorem isDash_of_isAlpha (c : Char) (hc : c.isAlpha = true) : isDash c = false := by
  rw [isDash, beq_of_isAlpha rfl c hc, beq_of_isAlpha rfl c hc]
  rfl

theorem hyphenated_eq_self (h : ∀ c ∈ text, isDash c = false) :
    normalizeHyphenatedHouseNumber text = text := by
  refine (List.map_congr_left fun c hc => ?_).trans (List.map_id text)
  rw [h c hc, if_neg Bool.false_ne_true]
  rfl

theorem not_isDash_hyphenated (token : List Char) :
    ∀ c ∈ normalizeHyphenatedHouseNumber token, isDash c = false := by
  intro c hc
  obtain ⟨a, -, rfl⟩ := List.mem_map.mp hc
  by_cases hdash : isDash a = true
  · rw [if_pos hdash]
    rfl
  · rw [if_neg hdash]
    simpa using hdash

/-- The letters of a token stay address characters. -/
theorem addressText_of_lowered (h : AddressText (lowered text)) : AddressText text := by
  intro c hc
  have hlow := h c.toLower (List.mem_map_of_mem hc)
  simp only [isAddressChar, Bool.or_eq_true, decide_eq_true_eq, beq_iff_eq] at hlow ⊢
  rcases hlow with (hlow | hlow) | hlow
  · refine .inl (.inl ?_)
    rw [toNat_toLower] at hlow
    split at hlow
    · omega
    · exact hlow
  · exact .inl (.inr (eq_of_toLower_eq rfl hlow))
  · exact .inr (eq_of_toLower_eq rfl hlow)

theorem addressText_lowered (h : AddressText text) : AddressText (lowered text) := by
  intro c hc
  obtain ⟨a, ha, rfl⟩ := List.mem_map.mp hc
  have hmem := h a ha
  simp only [isAddressChar, Bool.or_eq_true, decide_eq_true_eq, beq_iff_eq] at hmem ⊢
  rcases hmem with (hmem | rfl) | rfl
  · refine .inl (.inl ?_)
    rw [toNat_toLower]
    split <;> omega
  · exact .inl (.inr rfl)
  · exact .inr rfl

theorem addressText_normalizeAddressToken (h : AddressText token) :
    AddressText (normalizeAddressToken mapping token) := by
  refine addressText_of_lowered ?_
  rw [normalizeAddressToken_eq h, lowered_normalizedToken]
  exact addressText_lowered (addressText_hyphenated h)

/-- What a token becomes has no dashes. -/
theorem hyphenated_normalizeAddressToken (h : AddressText token) :
    normalizeHyphenatedHouseNumber (normalizeAddressToken mapping token) =
      normalizeAddressToken mapping token := by
  rw [normalizeAddressToken_eq h]
  exact hyphenated_eq_self (forall_normalizedToken isDash_of_isAlpha (not_isDash_hyphenated token))

/-- A token and what it becomes read the same, dashes replaced and case aside. -/
theorem lowered_normalizeAddressToken (h : AddressText token) :
    lowered (normalizeAddressToken mapping token) =
      lowered (normalizeHyphenatedHouseNumber token) := by
  rw [normalizeAddressToken_eq h, lowered_normalizedToken]

/-- **Normalizing a token once is enough.** -/
theorem normalizeAddressToken_idem (h : AddressText token) :
    normalizeAddressToken mapping (normalizeAddressToken mapping token) =
      normalizeAddressToken mapping token := by
  have hagain : AddressText (normalizeAddressToken mapping token) :=
    addressText_normalizeAddressToken h
  calc normalizeAddressToken mapping (normalizeAddressToken mapping token)
      = normalizedToken (normalizeAddressToken mapping token) := by
        rw [normalizeAddressToken_eq hagain, hyphenated_normalizeAddressToken h]
    _ = normalizedToken (normalizeHyphenatedHouseNumber token) :=
        normalizedToken_congr (lowered_normalizeAddressToken h)
    _ = normalizeAddressToken mapping token := (normalizeAddressToken_eq h).symm

theorem isWord_hyphenated (h : IsWord isWhitespace token) :
    IsWord isWhitespace (normalizeHyphenatedHouseNumber token) := by
  refine ⟨fun hnil => h.1 (List.map_eq_nil_iff.mp hnil), fun c hc => ?_⟩
  obtain ⟨a, ha, rfl⟩ := List.mem_map.mp hc
  by_cases hdash : isDash a = true
  · rw [if_pos hdash]
    rfl
  · rw [if_neg hdash]
    exact h.2 a ha

/-- A word becomes a word. -/
theorem isWord_normalizeAddressToken (h : AddressText token) (hw : IsWord isWhitespace token) :
    IsWord isWhitespace (normalizeAddressToken mapping token) := by
  have hword := isWord_hyphenated hw
  refine ⟨fun hnil => ?_, ?_⟩
  · have hlow : lowered (normalizeAddressToken mapping token) =
        lowered (normalizeHyphenatedHouseNumber token) := lowered_normalizeAddressToken h
    rw [hnil] at hlow
    exact hword.1 (List.map_eq_nil_iff.mp hlow.symm)
  · rw [normalizeAddressToken_eq h]
    exact forall_normalizedToken isWhitespace_of_isAlpha hword.2

end Tokens

end NycPropertyResolver
