import Mathlib.Data.List.Basic
import Mathlib.Data.String.Basic

/-!
# Library — JSON

`JSON.parse`, on characters, and `JSON.stringify` of an object whose fields are texts or null.  Parsing
inverts it (`parseJson_stringify`).  An escaped surrogate that has no partner is read as the
replacement character, which is what it becomes when the text is encoded again.
-/

namespace Library

/-! ### Values -/

/-- A JSON value; a number keeps its literal. -/
inductive JsonValue where
  | null
  | bool (value : Bool)
  | number (literal : List Char)
  | string (text : List Char)
  | array (items : List JsonValue)
  | object (members : List (List Char × JsonValue))

/-! ### Texts -/

/-- The quotation mark. -/
def jsonQuote : Char := Char.ofNat 34

/-- The backslash. -/
def jsonBackslash : Char := Char.ofNat 92

/-- A hexadecimal digit, in lower case. -/
def jsonHexDigit (n : Nat) : Char := "0123456789abcdef".toList.getD n '0'

/-- The value of a hexadecimal digit, of either case. -/
def hexValue (c : Char) : Option Nat :=
  if '0' ≤ c ∧ c ≤ '9' then some (c.toNat - 48)
  else if 'a' ≤ c ∧ c ≤ 'f' then some (c.toNat - 87)
  else if 'A' ≤ c ∧ c ≤ 'F' then some (c.toNat - 55)
  else none

/-- The characters that have an escape of their own, and its letter. -/
def shortEscapes : List (Nat × Char) := [(8, 'b'), (9, 't'), (10, 'n'), (12, 'f'), (13, 'r')]

/-- A character of a text, escaped where it has to be. -/
def escapeChar (c : Char) : List Char :=
  if c = jsonQuote ∨ c = jsonBackslash then [jsonBackslash, c]
  else match shortEscapes.lookup c.toNat with
    | some letter => [jsonBackslash, letter]
    | none =>
      if c.toNat < 32 then
        [jsonBackslash, 'u', '0', '0', jsonHexDigit (c.toNat / 16), jsonHexDigit (c.toNat % 16)]
      else
        [c]

/-- A string literal. -/
def quoteJson (text : List Char) : List Char :=
  jsonQuote :: text.flatMap escapeChar ++ [jsonQuote]

/-- A character, or half of a surrogate pair. -/
inductive JsonUnit where
  | char (c : Char)
  | surrogate (n : Nat)

/-- The characters of a text: a pair of surrogates is one. -/
def joinSurrogates : List JsonUnit → List Char
  | .char c :: rest => c :: joinSurrogates rest
  | .surrogate hi :: .surrogate lo :: rest =>
    if hi < 0xDC00 ∧ 0xDC00 ≤ lo then
      Char.ofNat (0x10000 + (hi - 0xD800) * 0x400 + (lo - 0xDC00)) :: joinSurrogates rest
    else
      Char.ofNat 0xFFFD :: joinSurrogates (.surrogate lo :: rest)
  | .surrogate _ :: rest => Char.ofNat 0xFFFD :: joinSurrogates rest
  | [] => []

/-- The UTF-16 code unit of a number. -/
def codeUnit (n : Nat) : JsonUnit :=
  if 0xD800 ≤ n ∧ n < 0xE000 then .surrogate n else .char (Char.ofNat n)

/-- The character a letter escapes. -/
def unescape (letter : Char) : Option Char :=
  if letter = jsonQuote ∨ letter = jsonBackslash ∨ letter = '/' then some letter
  else (shortEscapes.find? fun e => e.2 = letter).map fun e => Char.ofNat e.1

/-- The rest of a text after its opening quote. -/
def parseTextUnits : List Char → Option (List JsonUnit × List Char)
  | [] => none
  | c :: rest =>
    if c = jsonQuote then some ([], rest)
    else if c = jsonBackslash then
      match rest with
      | 'u' :: h₁ :: h₂ :: h₃ :: h₄ :: rest' =>
        match hexValue h₁, hexValue h₂, hexValue h₃, hexValue h₄ with
        | some d₁, some d₂, some d₃, some d₄ =>
          (parseTextUnits rest').map fun r =>
            (codeUnit (((d₁ * 16 + d₂) * 16 + d₃) * 16 + d₄) :: r.1, r.2)
        | _, _, _, _ => none
      | letter :: rest' =>
        (unescape letter).bind fun e =>
          (parseTextUnits rest').map fun r => (.char e :: r.1, r.2)
      | [] => none
    else if c.toNat < 32 then none
    else (parseTextUnits rest).map fun r => (.char c :: r.1, r.2)

/-- The characters of a string literal, and what follows it. -/
def parseText (cs : List Char) : Option (List Char × List Char) :=
  (parseTextUnits cs).map fun r => (joinSurrogates r.1, r.2)

/-! ### Parsing -/

/-- The blanks of the grammar. -/
def isJsonSpace (c : Char) : Bool := c = ' ' || c.toNat = 9 || c.toNat = 10 || c.toNat = 13

/-- The text without the blanks it begins with. -/
def skipSpace (cs : List Char) : List Char := cs.dropWhile isJsonSpace

/-- One digit or more. -/
def takeDigits (cs : List Char) : Option (List Char × List Char) :=
  if (cs.takeWhile Char.isDigit).isEmpty then none
  else some (cs.takeWhile Char.isDigit, cs.dropWhile Char.isDigit)

/-- A number, and what follows its longest literal. -/
def parseNumber (cs : List Char) : Option (List Char × List Char) := do
  let (sign, cs) := match cs with
    | '-' :: rest => (['-'], rest)
    | _ => ([], cs)
  let (integer, cs) ← match cs with
    | '0' :: rest => some (['0'], rest)
    | _ => takeDigits cs
  let (fraction, cs) ← match cs with
    | '.' :: rest => (takeDigits rest).map fun r => ('.' :: r.1, r.2)
    | _ => some ([], cs)
  let (exponent, cs) ← match cs with
    | e :: rest =>
      if e = 'e' ∨ e = 'E' then
        match rest with
        | s :: rest' =>
          if s = '+' ∨ s = '-' then (takeDigits rest').map fun r => (e :: s :: r.1, r.2)
          else (takeDigits rest).map fun r => (e :: r.1, r.2)
        | [] => none
      else some ([], cs)
    | [] => some ([], cs)
  some (sign ++ integer ++ fraction ++ exponent, cs)

/-- A literal, and what follows it. -/
def parseLiteral (literal : List Char) (cs : List Char) : Option (List Char) :=
  if literal.isPrefixOf cs then some (cs.drop literal.length) else none

mutual

/-- A value, nested less deep than the fuel. -/
def parseValue : Nat → List Char → Option (JsonValue × List Char)
  | 0, _ => none
  | fuel + 1, cs =>
    match skipSpace cs with
    | [] => none
    | c :: rest =>
      if c = jsonQuote then (parseText rest).map fun r => (.string r.1, r.2)
      else if c = '{' then
        match skipSpace rest with
        | '}' :: rest' => some (.object [], rest')
        | rest' => (parseMembers fuel rest').map fun r => (.object r.1, r.2)
      else if c = '[' then
        match skipSpace rest with
        | ']' :: rest' => some (.array [], rest')
        | rest' => (parseItems fuel rest').map fun r => (.array r.1, r.2)
      else if c = 'n' then (parseLiteral "ull".toList rest).map fun r => (.null, r)
      else if c = 't' then (parseLiteral "rue".toList rest).map fun r => (.bool true, r)
      else if c = 'f' then (parseLiteral "alse".toList rest).map fun r => (.bool false, r)
      else (parseNumber (c :: rest)).map fun r => (.number r.1, r.2)

/-- The items of an array, up to its closing bracket. -/
def parseItems : Nat → List Char → Option (List JsonValue × List Char)
  | 0, _ => none
  | fuel + 1, cs =>
    (parseValue fuel cs).bind fun r =>
      match skipSpace r.2 with
      | ',' :: rest => (parseItems fuel rest).map fun s => (r.1 :: s.1, s.2)
      | ']' :: rest => some ([r.1], rest)
      | _ => none

/-- The members of an object, up to its closing brace. -/
def parseMembers : Nat → List Char → Option (List (List Char × JsonValue) × List Char)
  | 0, _ => none
  | fuel + 1, cs =>
    match skipSpace cs with
    | [] => none
    | c :: rest =>
      if c = jsonQuote then
        (parseText rest).bind fun name =>
          match skipSpace name.2 with
          | ':' :: rest' =>
            (parseValue fuel rest').bind fun r =>
              match skipSpace r.2 with
              | ',' :: rest'' =>
                (parseMembers fuel rest'').map fun s => ((name.1, r.1) :: s.1, s.2)
              | '}' :: rest'' => some ([(name.1, r.1)], rest'')
              | _ => none
          | _ => none
      else none

end

/-- `JSON.parse`; `none` where it throws. -/
def parseJson (cs : List Char) : Option JsonValue :=
  (parseValue (cs.length + 1) cs).bind fun r => if (skipSpace r.2).isEmpty then some r.1 else none

/-! ### Stringifying -/

/-- A text, or null. -/
def stringifyField (value : Option (List Char)) : List Char :=
  match value with
  | none => "null".toList
  | some text => quoteJson text

/-- The text of a member. -/
def stringifyMember (field : List Char × Option (List Char)) : List Char :=
  quoteJson field.1 ++ ':' :: stringifyField field.2

/-- `JSON.stringify`, of an object whose fields are texts or null. -/
def stringifyFields (fields : List (List Char × Option (List Char))) : List Char :=
  '{' :: List.intercalate [','] (fields.map stringifyMember) ++ ['}']

/-- A text, or null. -/
def fieldValue (value : Option (List Char)) : JsonValue :=
  match value with
  | none => .null
  | some text => .string text

/-- The member a field is. -/
def fieldMember (field : List Char × Option (List Char)) : List Char × JsonValue :=
  (field.1, fieldValue field.2)

/-! ### Parsing what was stringified -/

section RoundTrip

variable {text rest : List Char}

theorem hexValue_hexDigit {n : Nat} (h : n < 16) : hexValue (jsonHexDigit n) = some n := by
  have hall : ∀ n < 16, hexValue (jsonHexDigit n) = some n := by decide +kernel
  exact hall n h

theorem mem_of_lookup_shortEscapes {n : Nat} {letter : Char}
    (h : shortEscapes.lookup n = some letter) : (n, letter) ∈ shortEscapes := by
  obtain ⟨l₁, l₂, hsplit, -⟩ := List.lookup_eq_some_iff.mp h
  rw [hsplit]
  exact List.mem_append_right _ List.mem_cons_self

/-- An escaped character is read back, whichever way it was escaped. -/
theorem parseTextUnits_escapeChar (c : Char) :
    parseTextUnits (escapeChar c ++ rest) =
      (parseTextUnits rest).map fun r => (.char c :: r.1, r.2) := by
  rw [escapeChar]
  split
  · rename_i h
    rcases h with rfl | rfl
    · rfl
    · rfl
  · rename_i hplain
    rw [not_or] at hplain
    split
    · rename_i letter hletter
      have hmem := mem_of_lookup_shortEscapes hletter
      have hc := Char.ofNat_toNat c
      simp only [shortEscapes, List.mem_cons, Prod.mk.injEq, List.not_mem_nil, or_false] at hmem
      rcases hmem with ⟨hn, rfl⟩ | ⟨hn, rfl⟩ | ⟨hn, rfl⟩ | ⟨hn, rfl⟩ | ⟨hn, rfl⟩
      all_goals
        rw [hn] at hc
        subst hc
        rfl
    · split
      · rename_i hcontrol
        have hhi := hexValue_hexDigit (n := c.toNat / 16) (by omega)
        have hlo := hexValue_hexDigit (n := c.toNat % 16) (by omega)
        have hzero : hexValue '0' = some 0 := rfl
        have hunit : codeUnit (((0 * 16 + 0) * 16 + c.toNat / 16) * 16 + c.toNat % 16) = .char c := by
          rw [show ((0 * 16 + 0) * 16 + c.toNat / 16) * 16 + c.toNat % 16 = c.toNat by omega, codeUnit,
            if_neg (by omega), Char.ofNat_toNat]
        have hquote : ¬ jsonBackslash = jsonQuote := by decide
        simp only [List.cons_append, List.nil_append, parseTextUnits, if_neg hquote, if_true, hzero,
          hhi, hlo, hunit]
      · rename_i hcontrol
        simp only [List.cons_append, List.nil_append]
        rw [parseTextUnits.eq_def]
        simp only [if_neg hplain.1, if_neg hplain.2, if_neg hcontrol]

theorem parseTextUnits_escaped : ∀ text : List Char,
    parseTextUnits (text.flatMap escapeChar ++ jsonQuote :: rest) = some (text.map .char, rest)
  | [] => by
      rw [List.flatMap_nil, List.nil_append, parseTextUnits.eq_def]
      exact if_pos rfl
  | c :: text => by
      rw [List.flatMap_cons, List.append_assoc, parseTextUnits_escapeChar,
        parseTextUnits_escaped text]
      rfl

theorem joinSurrogates_chars : ∀ text : List Char, joinSurrogates (text.map .char) = text
  | [] => rfl
  | c :: text => congrArg (c :: ·) (joinSurrogates_chars text)

theorem parseText_escaped :
    parseText (text.flatMap escapeChar ++ jsonQuote :: rest) = some (text, rest) := by
  rw [parseText, parseTextUnits_escaped, Option.map_some, joinSurrogates_chars]

theorem quoteJson_append : quoteJson text ++ rest =
    jsonQuote :: (text.flatMap escapeChar ++ jsonQuote :: rest) := by
  simp [quoteJson]

theorem skipSpace_cons {c : Char} (h : isJsonSpace c = false) :
    skipSpace (c :: rest) = c :: rest := by
  rw [skipSpace, List.dropWhile_cons_of_neg (by simp [h])]

theorem parseValue_stringifyField {value : Option (List Char)} {fuel : Nat} :
    parseValue (fuel + 1) (stringifyField value ++ rest) = some (fieldValue value, rest) := by
  cases value with
  | none =>
      rw [parseValue, stringifyField, show "null".toList = ['n', 'u', 'l', 'l'] from rfl,
        List.cons_append, skipSpace_cons (by decide)]
      rfl
  | some text =>
      rw [parseValue, stringifyField, quoteJson_append, skipSpace_cons (by decide)]
      simp only [if_true, parseText_escaped, Option.map_some]
      rfl

theorem parseMembers_stringify : ∀ (fields : List (List Char × Option (List Char)))
    (field : List Char × Option (List Char)) (fuel : Nat), fields.length + 2 ≤ fuel →
    parseMembers fuel
        (List.intercalate [','] ((field :: fields).map stringifyMember) ++ '}' :: rest) =
      some ((field :: fields).map fieldMember, rest)
  | [], field, fuel + 2, _ => by
      simp only [List.map_cons, List.map_nil, List.intercalate_singleton, stringifyMember,
        List.append_assoc, quoteJson_append, List.cons_append]
      rw [parseMembers, skipSpace_cons (by decide)]
      simp only [if_true, parseText_escaped, Option.bind_some]
      rw [skipSpace_cons (by decide)]
      simp only [parseValue_stringifyField, Option.bind_some]
      rw [skipSpace_cons (by decide)]
      rfl
  | next :: fields, field, fuel + 2, h => by
      have ih := parseMembers_stringify fields next (fuel + 1) (by simpa using h)
      rw [List.map_cons, List.map_cons, List.intercalate_cons_cons, ← List.map_cons]
      simp only [stringifyMember, List.append_assoc, quoteJson_append, List.cons_append,
        List.nil_append] at ih ⊢
      rw [parseMembers, skipSpace_cons (by decide)]
      simp only [if_true, parseText_escaped, Option.bind_some]
      rw [skipSpace_cons (by decide)]
      simp only [parseValue_stringifyField, Option.bind_some]
      rw [skipSpace_cons (by decide)]
      simp only [ih]
      rfl

theorem length_le_length_intercalate : ∀ items : List (List Char), (∀ item ∈ items, item ≠ []) →
    items.length ≤ (List.intercalate [','] items).length
  | [], _ => Nat.zero_le _
  | [item], h => by
      rw [List.intercalate_singleton]
      exact List.length_pos_iff.mpr (h item (List.mem_singleton.mpr rfl))
  | item :: next :: items, h => by
      have ih := length_le_length_intercalate (next :: items) fun i hi =>
        h i (List.mem_cons_of_mem _ hi)
      rw [List.intercalate_cons_cons, List.length_append, List.length_append, List.length_singleton,
        List.length_cons]
      omega

/-- **Parsing inverts stringifying**, of an object with a field. -/
theorem parseJson_stringifyFields (field : List Char × Option (List Char))
    (fields : List (List Char × Option (List Char))) :
    parseJson (stringifyFields (field :: fields)) =
      some (.object ((field :: fields).map fieldMember)) := by
  have hlength : fields.length + 2 ≤ (stringifyFields (field :: fields)).length := by
    have hne : ∀ item ∈ (field :: fields).map stringifyMember, item ≠ [] := by
      intro item hitem
      obtain ⟨f, -, rfl⟩ := List.mem_map.mp hitem
      exact List.cons_ne_nil _ _
    have hitems := length_le_length_intercalate _ hne
    rw [List.length_map, List.length_cons] at hitems
    simp only [stringifyFields, List.cons_append, List.length_cons, List.length_append]
    omega
  have hmembers : parseMembers (stringifyFields (field :: fields)).length
      (List.intercalate [','] ((field :: fields).map stringifyMember) ++ ['}']) =
      some ((field :: fields).map fieldMember, []) := parseMembers_stringify fields field _ hlength
  obtain ⟨tail, htail⟩ : ∃ tail, List.intercalate [','] ((field :: fields).map stringifyMember) ++
      ['}'] = jsonQuote :: tail := by
    cases fields with
    | nil => exact ⟨_, by
        rw [List.map_cons, List.map_nil, List.intercalate_singleton, stringifyMember, quoteJson]
        rfl⟩
    | cons next fields => exact ⟨_, by
        rw [List.map_cons, List.map_cons, List.intercalate_cons_cons, stringifyMember, quoteJson]
        rfl⟩
  have htext : stringifyFields (field :: fields) = '{' :: jsonQuote :: tail := by
    rw [stringifyFields, List.cons_append, htail]
  rw [htail] at hmembers
  have hvalue : ∀ fuel, parseMembers fuel (jsonQuote :: tail) =
      some ((field :: fields).map fieldMember, []) →
      parseValue (fuel + 1) (stringifyFields (field :: fields)) =
        some (.object ((field :: fields).map fieldMember), []) := by
    intro fuel hfuel
    have hspace : skipSpace (jsonQuote :: tail) = jsonQuote :: tail := skipSpace_cons (by decide)
    have hobject : parseValue (fuel + 1) ('{' :: jsonQuote :: tail) =
        match skipSpace (jsonQuote :: tail) with
        | '}' :: rest' => some (.object [], rest')
        | rest' => (parseMembers fuel rest').map fun r => (.object r.1, r.2) := by
      rw [parseValue, skipSpace_cons (by decide)]
      rfl
    rw [htext, hobject, hspace]
    exact congrArg (Option.map fun r => (JsonValue.object r.1, r.2)) hfuel
  rw [parseJson, hvalue _ hmembers]
  rfl

end RoundTrip

end Library
