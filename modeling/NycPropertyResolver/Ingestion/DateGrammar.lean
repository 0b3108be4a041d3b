import NycPropertyResolver.Ingestion.EcbDates

/-!
# Ingestion — the grammar of source dates

The texts that are dates of the source, and the instant of each (`EcbDateText`): three shapes of a date,
and a timestamp with its offset.  Each expression of the parser splits a text into its fields in one way
at most (`exec_compactDate`, `exec_dateOnly`, `exec_slashDate`, `exec_timestamp`), and no text has two
shapes, so that the parser reads exactly the grammar (`parseDateText_eq_some_iff`).
-/

namespace NycPropertyResolver

open Library

/-! ### The grammar -/

/-- So many digits. -/
structure IsDigits (min max : Nat) (text : List Char) : Prop where
  length : min ≤ text.length ∧ text.length ≤ max
  digits : ∀ c ∈ text, c.isDigit = true

/-- So many digits, of a number. -/
structure IsNumeral (min max : Nat) (text : List Char) (n : Int) : Prop extends
    IsDigits min max text where
  value : digitsNumber text = n

/-- The fields of a date of the calendar from the year 100 on, its month and day in `width` digits or
two. -/
structure NamesDate (width : Nat) (year month day : List Char) (date : CivilDate) : Prop where
  year : IsNumeral 4 4 year date.year
  month : IsNumeral width 2 month date.month
  day : IsNumeral width 2 day date.day
  valid : date.Valid
  late : 100 ≤ date.year

/-- `YYYYMMDD`, `YYYY-M-D` and `M/D/YYYY`. -/
inductive DateOnlyText : List Char → CivilDate → Prop where
  | compact {year month day : List Char} {date : CivilDate} (h : NamesDate 2 year month day date) :
      DateOnlyText (year ++ (month ++ day)) date
  | dashed {year month day : List Char} {date : CivilDate} (h : NamesDate 1 year month day date) :
      DateOnlyText (year ++ '-' :: (month ++ '-' :: day)) date
  | slashed {year month day : List Char} {date : CivilDate} (h : NamesDate 1 year month day date) :
      DateOnlyText (month ++ '/' :: (day ++ '/' :: year)) date

/-- `Z`, and a signed offset below 24 hours, in minutes. -/
inductive OffsetText : List Char → Int → Prop where
  | utc : OffsetText ['Z'] 0
  | signed {sign : Char} {direction : Int} {hour minute : List Char} {h m : Int}
      (hsign : sign = '+' ∧ direction = 1 ∨ sign = '-' ∧ direction = -1)
      (hhour : IsNumeral 2 2 hour h) (hminute : IsNumeral 2 2 minute m) (hlt : h < 24 ∧ m < 60) :
      OffsetText (sign :: (hour ++ ':' :: minute)) (direction * (h * 60 + m))

/-- `.` and the digits of a fraction, or nothing. -/
def fractionText (fraction : List Char) : List Char :=
  if fraction = [] then [] else '.' :: fraction

/-- The milliseconds of a fraction of a second, truncated. -/
def truncatedMilliseconds (fraction : List Char) : Int :=
  digitsNumber fraction * 1000 / 10 ^ fraction.length

/-- `YYYY-MM-DDThh:mm:ss[.fraction]` and an offset: the local time minus the offset. -/
inductive TimestampText : List Char → Time → Prop where
  | mk {year month day hour minute second fraction zone : List Char} {date : CivilDate}
      {h m s offset : Int} (hdate : NamesDate 2 year month day date)
      (hhour : IsNumeral 2 2 hour h) (hminute : IsNumeral 2 2 minute m)
      (hsecond : IsNumeral 2 2 second s) (hlt : h < 24 ∧ m < 60 ∧ s < 60)
      (hfraction : IsDigits 0 9 fraction) (hzone : OffsetText zone offset) :
      TimestampText
        (year ++ '-' :: (month ++ '-' :: (day ++ 'T' :: (hour ++ ':' :: (minute ++ ':' :: (second ++
          (fractionText fraction ++ zone)))))))
        (daysFromCivil date * msPerDay +
          (((h * 60 + m) * 60 + s) * 1000 + truncatedMilliseconds fraction) - offset * 60000)

/-- The texts that are dates of the source, and the instant of each: UTC midnight of a date. -/
inductive EcbDateText : List Char → Time → Prop where
  | date {text : List Char} {date : CivilDate} (h : DateOnlyText text date) :
      EcbDateText text (daysFromCivil date * msPerDay)
  | timestamp {text : List Char} {t : Time} (h : TimestampText text t) : EcbDateText text t

/-! ### Digits -/

section Digits

variable {min max : Nat} {w w' rest rest' : List Char} {c c' : Char} {n : Int}

theorem IsDigits.isNumeral (h : IsDigits min max w) : IsNumeral min max w (digitsNumber w) :=
  ⟨h, rfl⟩

theorem digitsNumber_nonneg (w : List Char) : 0 ≤ digitsNumber w := Int.natCast_nonneg _

/-- Digits end where another character stands. -/
theorem digits_append_inj (hw : ∀ a ∈ w, a.isDigit = true) (hw' : ∀ a ∈ w', a.isDigit = true)
    (hc : c.isDigit = false) (hc' : c'.isDigit = false) (h : w ++ c :: rest = w' ++ c' :: rest') :
    w = w' ∧ c = c' ∧ rest = rest' := by
  have htake (v tail : List Char) {a : Char} (hv : ∀ b ∈ v, b.isDigit = true)
      (ha : a.isDigit = false) : (v ++ a :: tail).takeWhile Char.isDigit = v := by
    rw [List.takeWhile_append_of_pos hv, List.takeWhile_cons_of_neg (by simp [ha]), List.append_nil]
  have hwords : w = w' := by
    rw [← htake w rest hw hc, h, htake w' rest' hw' hc']
  subst hwords
  obtain ⟨rfl, rfl⟩ := List.cons.inj (List.append_cancel_left h)
  exact ⟨rfl, rfl, rfl⟩

theorem ofDigitChars_lt (hw : ∀ a ∈ w, a.isDigit = true) :
    Nat.ofDigitChars 10 w 0 < 10 ^ w.length := by
  induction w with
  | nil => exact Nat.one_pos
  | cons a w ih =>
      obtain ⟨ha, hw⟩ := List.forall_mem_cons.mp hw
      have hdigit : a.toNat - '0'.toNat < 10 := by
        have hrange : 48 ≤ a.toNat ∧ a.toNat ≤ 57 := by
          simp only [Char.isDigit, Bool.and_eq_true, decide_eq_true_eq] at ha
          exact ⟨ha.1, ha.2⟩
        have hzero : '0'.toNat = 48 := rfl
        omega
      have hrest := ih hw
      rw [Nat.ofDigitChars_cons, Nat.ofDigitChars_eq_ofDigitChars_zero, List.length_cons, Nat.pow_succ,
        Nat.mul_zero, Nat.zero_add]
      have hstep : 10 ^ w.length * (a.toNat - '0'.toNat) ≤ 10 ^ w.length * 9 :=
        Nat.mul_le_mul_left _ (by omega)
      omega

/-- **The digits of the milliseconds are the fraction, truncated.** -/
theorem digitsNumber_millisecondDigits (hw : ∀ a ∈ w, a.isDigit = true) :
    digitsNumber (millisecondDigits w) = truncatedMilliseconds w := by
  suffices h : Nat.ofDigitChars 10 (millisecondDigits w) 0 =
      Nat.ofDigitChars 10 w 0 * 1000 / 10 ^ w.length by
    rw [digitsNumber, h, truncatedMilliseconds, digitsNumber]
    norm_cast
  rw [millisecondDigits]
  by_cases hlong : 3 ≤ w.length
  · -- the digits after the third are cut off
    obtain ⟨a, b, rfl, ha⟩ : ∃ a b, w = a ++ b ∧ a.length = 3 :=
      ⟨w.take 3, w.drop 3, (List.take_append_drop 3 w).symm, List.length_take_of_le hlong⟩
    have hb : Nat.ofDigitChars 10 b 0 < 10 ^ b.length :=
      ofDigitChars_lt fun c hc => hw c (List.mem_append_right a hc)
    have hpow : 10 ^ (a ++ b).length = 10 ^ b.length * 1000 := by
      rw [List.length_append, ha, Nat.pow_add, Nat.mul_comm]
    have hvalue : Nat.ofDigitChars 10 (a ++ b) 0 =
        Nat.ofDigitChars 10 b 0 + 10 ^ b.length * Nat.ofDigitChars 10 a 0 := by
      rw [Nat.ofDigitChars_append, Nat.ofDigitChars_eq_ofDigitChars_zero (l := b), Nat.add_comm]
    rw [List.append_assoc, List.take_left' ha, hpow, Nat.mul_div_mul_right _ _ (by decide), hvalue,
      Nat.add_mul_div_left _ _ (Nat.pow_pos (by decide)), Nat.div_eq_of_lt hb, Nat.zero_add]
  · -- the digits up to the third are zero
    have hsum : 3 - w.length + w.length = 3 := by omega
    have hlength : (w ++ List.replicate (3 - w.length) '0').length ≤ 3 := by
      rw [List.length_append, List.length_replicate]
      omega
    have hpow : 1000 = 10 ^ (3 - w.length) * 10 ^ w.length := by
      rw [← Nat.pow_add, hsum]
    rw [List.take_of_length_le hlength, Nat.ofDigitChars_append, Nat.ofDigitChars_replicate_zero, hpow,
      ← Nat.mul_assoc, Nat.mul_div_cancel _ (Nat.pow_pos (by decide)), Nat.mul_comm]

end Digits

/-! ### Dates that exist -/

section Calendar

variable {year month day : Int}

theorem not_twoDigits (h : 100 ≤ year) : ¬ (0 ≤ (⟨year, month, day⟩ : CivilDate).year ∧
    (⟨year, month, day⟩ : CivilDate).year ≤ 99) := by
  simp only
  omega

/-- **A date is valid** when it is on the calendar, from the year 100 on. -/
theorem validCalendarDate_iff (hyear : 0 ≤ year) :
    validCalendarDate year month day = true ↔
      (⟨year, month, day⟩ : CivilDate).Valid ∧ 100 ≤ year := by
  rw [validCalendarDate]
  simp only [Bool.and_eq_true, decide_eq_true_eq]
  constructor
  · rintro ⟨⟨hy, hm⟩, hd⟩
    generalize hdays : dateUtc year (month - 1) day 0 0 0 0 / msPerDay = days at hy hm hd
    have hdate : civilFromDays days = ⟨year, month, day⟩ := by
      ext
      · exact hy
      · simp only
        omega
      · exact hd
    have hvalid : (⟨year, month, day⟩ : CivilDate).Valid := hdate ▸ valid_civilFromDays days
    refine ⟨hvalid, ?_⟩
    by_contra hlate
    refine dateUtc_ne_of_twoDigits (d := ⟨year, month, day⟩) ⟨hyear, by simp only; omega⟩
      hvalid.month ?_
    rw [← hdate, daysFromCivil_civilFromDays, hdate, hdays]
  · rintro ⟨hvalid, hlate⟩
    have hdays : dateUtc year (month - 1) day 0 0 0 0 / msPerDay =
        daysFromCivil ⟨year, month, day⟩ := by
      rw [dateUtc_midnight (not_twoDigits hlate) hvalid.month]
      exact Int.mul_ediv_cancel _ (by decide)
    rw [hdays, civilFromDays_daysFromCivil hvalid]
    exact ⟨⟨rfl, rfl⟩, rfl⟩

theorem utcMidnight?_eq_some_iff (hyear : 0 ≤ year) {t : Time} :
    utcMidnight? year month day = some t ↔
      ((⟨year, month, day⟩ : CivilDate).Valid ∧ 100 ≤ year) ∧
        daysFromCivil ⟨year, month, day⟩ * msPerDay = t := by
  rw [utcMidnight?]
  by_cases hvalid : validCalendarDate year month day = true
  · obtain ⟨hdate, hlate⟩ := (validCalendarDate_iff hyear).mp hvalid
    rw [if_pos hvalid, dateUtc_midnight (not_twoDigits hlate) hdate.month, Option.some.injEq]
    exact ⟨fun h => ⟨⟨hdate, hlate⟩, h⟩, fun h => h.2⟩
  · rw [if_neg hvalid]
    constructor
    · intro h
      cases h
    · rintro ⟨h, -⟩
      exact absurd ((validCalendarDate_iff hyear).mpr h) hvalid

end Calendar

/-! ### Shapes -/

section Shapes

variable {text year month day hour minute second fraction zone : List Char}
  {m : Regex.Match Char Nat}

theorem mem_digitsField {group min max : Nat} {r : DatePattern} {c d : MatchState Char Nat}
    (h : min ≤ max) : d ∈ Regex.runs (.seq (digitsField group min max) r) c ↔
      ∃ w rest, c.ahead = w ++ rest ∧ IsDigits min max w ∧
        d ∈ Regex.runs r ((c.advance w rest).capture group w) := by
  rw [digitsField, Regex.mem_runs_field h]
  constructor
  · rintro ⟨w, rest, hahead, hlength, hw, hd⟩
    exact ⟨w, rest, hahead, ⟨hlength, hw⟩, hd⟩
  · rintro ⟨w, rest, hahead, hw, hd⟩
    exact ⟨w, rest, hahead, hw.length, hw.digits, hd⟩

theorem mem_literally {a : Char} {r : DatePattern} {c d : MatchState Char Nat} :
    d ∈ Regex.runs (.seq (literally a) r) c ↔
      ∃ rest, c.ahead = a :: rest ∧ d ∈ Regex.runs r (c.advance [a] rest) := by
  rw [literally, Regex.mem_runs_char_seq]
  constructor
  · rintro ⟨b, rest, hahead, hb, hd⟩
    obtain rfl : b = a := of_decide_eq_true hb
    exact ⟨rest, hahead, hd⟩
  · rintro ⟨rest, hahead, hd⟩
    exact ⟨a, rest, hahead, beq_self_eq_true a, hd⟩

/-- A match of the compact shape reads its fields. -/
theorem exec_compactDate (h : Regex.exec compactDatePattern text = some m) :
    ∃ year month day, IsDigits 4 4 year ∧ IsDigits 2 2 month ∧ IsDigits 2 2 day ∧
      text = year ++ (month ++ day) ∧
      capturedText m 1 = year ∧ capturedText m 2 = month ∧ capturedText m 3 = day := by
  obtain ⟨year, rest₁, htext, hyear, hstop⟩ :=
    (mem_digitsField (by decide)).mp (Regex.exec_atStart_eq_some h)
  obtain ⟨month, rest₂, hrest₁, hmonth, hstop⟩ := (mem_digitsField (by decide)).mp hstop
  obtain ⟨day, rest₃, hrest₂, hday, hstop⟩ := (mem_digitsField (by decide)).mp hstop
  obtain ⟨hend, hstop⟩ := Regex.mem_runs_atEnd.mp hstop
  change text = _ at htext
  change rest₁ = _ at hrest₁
  change rest₂ = _ at hrest₂
  change rest₃ = _ at hend
  subst hend hrest₂ hrest₁
  rw [List.append_nil] at htext
  refine ⟨year, month, day, hyear, hmonth, hday, htext, ?_, ?_, ?_⟩
  all_goals
    rw [capturedText, hstop]
    rfl

/-- The fields of the compact shape are read. -/
theorem exec_compactDate_fields (hyear : IsDigits 4 4 year) (hmonth : IsDigits 2 2 month)
    (hday : IsDigits 2 2 day) :
    ∃ m, Regex.exec compactDatePattern (year ++ (month ++ day)) = some m ∧
      capturedText m 1 = year ∧ capturedText m 2 = month ∧ capturedText m 3 = day := by
  obtain ⟨m, hm⟩ : ∃ m, Regex.exec compactDatePattern (year ++ (month ++ day)) = some m :=
    Regex.exists_exec_atStart ((mem_digitsField (by decide)).mpr
      ⟨year, month ++ day, rfl, hyear, (mem_digitsField (by decide)).mpr
      ⟨month, day, rfl, hmonth, (mem_digitsField (by decide)).mpr
      ⟨day, [], (List.append_nil day).symm, hday, Regex.mem_runs_atEnd.mpr ⟨rfl, rfl⟩⟩⟩⟩)
  obtain ⟨year', month', day', hyear', hmonth', hday', htext, h₁, h₂, h₃⟩ := exec_compactDate hm
  obtain ⟨rfl, hrest⟩ := List.append_inj htext (by
    have := hyear.length; have := hyear'.length; omega)
  obtain ⟨rfl, rfl⟩ := List.append_inj hrest (by
    have := hmonth.length; have := hmonth'.length; omega)
  exact ⟨m, hm, h₁, h₂, h₃⟩

/-- Three fields of digits between separators. -/
def separatedFields (separator : Char) (min₁ max₁ min₂ max₂ min₃ max₃ : Nat) : DatePattern :=
  .seq .atStart (.seq (digitsField 1 min₁ max₁) (.seq (literally separator)
    (.seq (digitsField 2 min₂ max₂) (.seq (literally separator)
    (.seq (digitsField 3 min₃ max₃) .atEnd)))))

/-- A match of separated fields reads them. -/
theorem exec_separatedFields {separator : Char} {min₁ max₁ min₂ max₂ min₃ max₃ : Nat}
    (h₁ : min₁ ≤ max₁) (h₂ : min₂ ≤ max₂) (h₃ : min₃ ≤ max₃)
    (h : Regex.exec (separatedFields separator min₁ max₁ min₂ max₂ min₃ max₃) text = some m) :
    ∃ w₁ w₂ w₃, IsDigits min₁ max₁ w₁ ∧ IsDigits min₂ max₂ w₂ ∧ IsDigits min₃ max₃ w₃ ∧
      text = w₁ ++ separator :: (w₂ ++ separator :: w₃) ∧
      capturedText m 1 = w₁ ∧ capturedText m 2 = w₂ ∧ capturedText m 3 = w₃ := by
  obtain ⟨w₁, rest₁, htext, hw₁, hstop⟩ := (mem_digitsField h₁).mp (Regex.exec_atStart_eq_some h)
  obtain ⟨rest₂, hrest₁, hstop⟩ := mem_literally.mp hstop
  obtain ⟨w₂, rest₃, hrest₂, hw₂, hstop⟩ := (mem_digitsField h₂).mp hstop
  obtain ⟨rest₄, hrest₃, hstop⟩ := mem_literally.mp hstop
  obtain ⟨w₃, rest₅, hrest₄, hw₃, hstop⟩ := (mem_digitsField h₃).mp hstop
  obtain ⟨hend, hstop⟩ := Regex.mem_runs_atEnd.mp hstop
  change text = _ at htext
  change rest₁ = _ at hrest₁
  change rest₂ = _ at hrest₂
  change rest₃ = _ at hrest₃
  change rest₄ = _ at hrest₄
  change rest₅ = _ at hend
  subst hend hrest₄ hrest₃ hrest₂ hrest₁
  rw [List.append_nil] at htext
  refine ⟨w₁, w₂, w₃, hw₁, hw₂, hw₃, htext, ?_, ?_, ?_⟩
  all_goals
    rw [capturedText, hstop]
    rfl

/-- Separated fields are read. -/
theorem exec_separatedFields_fields {separator : Char} (hseparator : separator.isDigit = false)
    {min₁ max₁ min₂ max₂ min₃ max₃ : Nat} (h₁ : min₁ ≤ max₁) (h₂ : min₂ ≤ max₂) (h₃ : min₃ ≤ max₃)
    {w₁ w₂ w₃ : List Char} (hw₁ : IsDigits min₁ max₁ w₁) (hw₂ : IsDigits min₂ max₂ w₂)
    (hw₃ : IsDigits min₃ max₃ w₃) :
    ∃ m, Regex.exec (separatedFields separator min₁ max₁ min₂ max₂ min₃ max₃)
        (w₁ ++ separator :: (w₂ ++ separator :: w₃)) = some m ∧
      capturedText m 1 = w₁ ∧ capturedText m 2 = w₂ ∧ capturedText m 3 = w₃ := by
  obtain ⟨m, hm⟩ : ∃ m, Regex.exec (separatedFields separator min₁ max₁ min₂ max₂ min₃ max₃)
      (w₁ ++ separator :: (w₂ ++ separator :: w₃)) = some m :=
    Regex.exists_exec_atStart ((mem_digitsField h₁).mpr ⟨w₁, _, rfl, hw₁,
      mem_literally.mpr ⟨_, rfl, (mem_digitsField h₂).mpr ⟨w₂, _, rfl, hw₂,
      mem_literally.mpr ⟨_, rfl, (mem_digitsField h₃).mpr ⟨w₃, [], (List.append_nil w₃).symm, hw₃,
      Regex.mem_runs_atEnd.mpr ⟨rfl, rfl⟩⟩⟩⟩⟩⟩)
  obtain ⟨w₁', w₂', w₃', hw₁', hw₂', -, htext, hc₁, hc₂, hc₃⟩ := exec_separatedFields h₁ h₂ h₃ hm
  obtain ⟨rfl, -, hrest⟩ := digits_append_inj hw₁.digits hw₁'.digits hseparator hseparator htext
  obtain ⟨rfl, -, rfl⟩ := digits_append_inj hw₂.digits hw₂'.digits hseparator hseparator hrest
  exact ⟨m, hm, hc₁, hc₂, hc₃⟩

theorem dateOnlyPattern_eq : dateOnlyPattern = separatedFields '-' 4 4 1 2 1 2 := rfl

theorem slashDatePattern_eq : slashDatePattern = separatedFields '/' 1 2 1 2 4 4 := rfl

/-! ### Timestamps -/

/-- `Z`, or a sign and two fields of two digits. -/
inductive ZoneShape : List Char → Prop where
  | utc : ZoneShape ['Z']
  | signed {sign : Char} {hour minute : List Char} (hsign : sign = '+' ∨ sign = '-')
      (hhour : IsDigits 2 2 hour) (hminute : IsDigits 2 2 minute) :
      ZoneShape (sign :: (hour ++ ':' :: minute))

theorem ZoneShape.head_eq (h : ZoneShape zone) :
    ∃ c rest, zone = c :: rest ∧ c.isDigit = false ∧ c ≠ '.' := by
  cases h with
  | utc => exact ⟨'Z', [], rfl, rfl, by decide⟩
  | signed hsign _ _ =>
      rcases hsign with rfl | rfl
      · exact ⟨'+', _, rfl, rfl, by decide⟩
      · exact ⟨'-', _, rfl, rfl, by decide⟩

theorem mem_twoDigits {r : DatePattern} {c d : MatchState Char Nat} :
    d ∈ Regex.runs (.seq twoDigits r) c ↔
      ∃ w rest, c.ahead = w ++ rest ∧ IsDigits 2 2 w ∧ d ∈ Regex.runs r (c.advance w rest) := by
  rw [Regex.mem_runs_seq]
  constructor
  · rintro ⟨e, he, hd⟩
    obtain ⟨w, rest, hahead, hlength, hw, rfl⟩ := (Regex.mem_runs_between_char (by decide)).mp he
    exact ⟨w, rest, hahead, ⟨hlength, hw⟩, hd⟩
  · rintro ⟨w, rest, hahead, hw, hd⟩
    exact ⟨_, (Regex.mem_runs_between_char (by decide)).mpr
      ⟨w, rest, hahead, hw.length, hw.digits, rfl⟩, hd⟩

theorem mem_zone {c d : MatchState Char Nat} :
    d ∈ Regex.runs (.alt (literally 'Z') (.seq (.char fun c => c == '+' || c == '-')
      (.seq twoDigits (.seq (literally ':') twoDigits)))) c ↔
      ∃ zone rest, c.ahead = zone ++ rest ∧ ZoneShape zone ∧ d = c.advance zone rest := by
  rw [Regex.mem_runs_alt, Regex.mem_runs_char_seq]
  constructor
  · rintro (hz | ⟨sign, rest₁, hahead, hsign, hd⟩)
    · obtain ⟨a, rest, hahead, ha, rfl⟩ := Regex.mem_runs_char.mp hz
      obtain rfl : a = 'Z' := of_decide_eq_true ha
      exact ⟨['Z'], rest, hahead, .utc, rfl⟩
    · obtain ⟨hour, rest₂, hrest₁, hhour, hd⟩ := mem_twoDigits.mp hd
      obtain ⟨rest₃, hrest₂, hd⟩ := mem_literally.mp hd
      obtain ⟨minute, rest, hrest₃, hlength, hminute, rfl⟩ :=
        (Regex.mem_runs_between_char (by decide)).mp hd
      change rest₁ = _ at hrest₁
      change rest₂ = _ at hrest₂
      change rest₃ = _ at hrest₃
      subst hrest₃ hrest₂ hrest₁
      have hsign' : sign = '+' ∨ sign = '-' := by simpa using hsign
      refine ⟨sign :: (hour ++ ':' :: minute), rest, by simp [hahead], .signed hsign' hhour
        ⟨hlength, hminute⟩, ?_⟩
      simp only [MatchState.advance_advance]
      simp
  · rintro ⟨zone, rest, hahead, hzone, rfl⟩
    cases hzone with
    | utc => exact .inl (Regex.mem_runs_char.mpr ⟨'Z', rest, hahead, rfl, rfl⟩)
    | @signed sign hour minute hsign hhour hminute =>
        refine .inr ⟨sign, hour ++ ':' :: (minute ++ rest), by simp [hahead], by simpa using hsign,
          mem_twoDigits.mpr ⟨hour, _, rfl, hhour, mem_literally.mpr ⟨_, rfl,
          (Regex.mem_runs_between_char (by decide)).mpr ⟨minute, rest, rfl, hminute.length,
            hminute.digits, ?_⟩⟩⟩⟩
        simp only [MatchState.advance_advance]
        simp

/-- The time zone is what is left. -/
theorem mem_timezonePattern {c d : MatchState Char Nat} :
    d ∈ Regex.runs (.seq timezonePattern .atEnd) c ↔
      ZoneShape c.ahead ∧ d = (c.advance c.ahead []).capture 8 c.ahead := by
  rw [Regex.mem_runs_seq]
  constructor
  · rintro ⟨e, he, hd⟩
    obtain ⟨f, hf, rfl⟩ := Regex.mem_runs_group.mp he
    obtain ⟨hend, rfl⟩ := Regex.mem_runs_atEnd.mp hd
    obtain ⟨zone, rest, hahead, hzone, rfl⟩ := mem_zone.mp hf
    change rest = [] at hend
    subst hend
    rw [Regex.upTo_advance hahead]
    rw [List.append_nil] at hahead
    rw [hahead]
    exact ⟨hzone, rfl⟩
  · rintro ⟨hzone, rfl⟩
    have hahead : c.ahead = c.ahead ++ [] := (List.append_nil _).symm
    refine ⟨_, Regex.mem_runs_group.mpr ⟨_, mem_zone.mpr ⟨c.ahead, [], hahead, hzone, rfl⟩, rfl⟩, ?_⟩
    rw [Regex.upTo_advance hahead]
    exact Regex.mem_runs_atEnd.mpr ⟨rfl, rfl⟩

/-- A fraction is read, or passed over. -/
theorem mem_fractionPattern {r : DatePattern} {c d : MatchState Char Nat} :
    d ∈ Regex.runs (.seq fractionPattern r) c ↔
      (∃ fraction rest, IsDigits 1 9 fraction ∧ c.ahead = '.' :: (fraction ++ rest) ∧
        d ∈ Regex.runs r (((c.advance ['.'] (fraction ++ rest)).advance fraction rest).capture 7
          fraction)) ∨ d ∈ Regex.runs r c := by
  rw [Regex.mem_runs_seq]
  constructor
  · rintro ⟨e, he, hd⟩
    rcases Regex.mem_runs_optional.mp he with he | rfl
    · obtain ⟨rest₁, hahead, he⟩ := mem_literally.mp he
      obtain ⟨f, hf, rfl⟩ := Regex.mem_runs_group.mp he
      obtain ⟨fraction, rest, hrest₁, hlength, hdigits, rfl⟩ :=
        (Regex.mem_runs_between_char (by decide)).mp hf
      rw [Regex.upTo_advance hrest₁] at hd
      change rest₁ = _ at hrest₁
      subst hrest₁
      exact .inl ⟨fraction, rest, ⟨hlength, hdigits⟩, hahead, hd⟩
    · exact .inr hd
  · rintro (⟨fraction, rest, hfraction, hahead, hd⟩ | hd)
    · refine ⟨_, Regex.mem_runs_optional.mpr (.inl (mem_literally.mpr ⟨_, hahead,
        Regex.mem_runs_group.mpr ⟨_, (Regex.mem_runs_between_char (by decide)).mpr
          ⟨fraction, rest, rfl, hfraction.length, hfraction.digits, rfl⟩, rfl⟩⟩)), ?_⟩
      rw [Regex.upTo_advance rfl]
      exact hd
    · exact ⟨c, Regex.mem_runs_optional.mpr (.inr rfl), hd⟩

/-- A match of a timestamp reads its fields. -/
theorem exec_timestamp (h : Regex.exec timestampPattern text = some m) :
    ∃ year month day hour minute second fraction zone, IsDigits 4 4 year ∧ IsDigits 2 2 month ∧
      IsDigits 2 2 day ∧ IsDigits 2 2 hour ∧ IsDigits 2 2 minute ∧ IsDigits 2 2 second ∧
      IsDigits 0 9 fraction ∧ ZoneShape zone ∧
      text = year ++ '-' :: (month ++ '-' :: (day ++ 'T' :: (hour ++ ':' :: (minute ++ ':' :: (second ++
        (fractionText fraction ++ zone)))))) ∧
      capturedText m 1 = year ∧ capturedText m 2 = month ∧ capturedText m 3 = day ∧
      capturedText m 4 = hour ∧ capturedText m 5 = minute ∧ capturedText m 6 = second ∧
      capturedText m 7 = fraction ∧ capturedText m 8 = zone := by
  obtain ⟨year, r₁, htext, hyear, hstop⟩ :=
    (mem_digitsField (by decide)).mp (Regex.exec_atStart_eq_some h)
  obtain ⟨r₂, hr₁, hstop⟩ := mem_literally.mp hstop
  obtain ⟨month, r₃, hr₂, hmonth, hstop⟩ := (mem_digitsField (by decide)).mp hstop
  obtain ⟨r₄, hr₃, hstop⟩ := mem_literally.mp hstop
  obtain ⟨day, r₅, hr₄, hday, hstop⟩ := (mem_digitsField (by decide)).mp hstop
  obtain ⟨r₆, hr₅, hstop⟩ := mem_literally.mp hstop
  obtain ⟨hour, r₇, hr₆, hhour, hstop⟩ := (mem_digitsField (by decide)).mp hstop
  obtain ⟨r₈, hr₇, hstop⟩ := mem_literally.mp hstop
  obtain ⟨minute, r₉, hr₈, hminute, hstop⟩ := (mem_digitsField (by decide)).mp hstop
  obtain ⟨r₁₀, hr₉, hstop⟩ := mem_literally.mp hstop
  obtain ⟨second, zone, hr₁₀, hsecond, hstop⟩ := (mem_digitsField (by decide)).mp hstop
  change text = _ at htext
  change r₁ = _ at hr₁
  change r₂ = _ at hr₂
  change r₃ = _ at hr₃
  change r₄ = _ at hr₄
  change r₅ = _ at hr₅
  change r₆ = _ at hr₆
  change r₇ = _ at hr₇
  change r₈ = _ at hr₈
  change r₉ = _ at hr₉
  change r₁₀ = _ at hr₁₀
  subst hr₁₀ hr₉ hr₈ hr₇ hr₆ hr₅ hr₄ hr₃ hr₂ hr₁
  rcases mem_fractionPattern.mp hstop with ⟨fraction, zone', hfraction, hahead, hstop⟩ | hstop
  · obtain ⟨hzone, hstop⟩ := mem_timezonePattern.mp hstop
    change zone = _ at hahead
    have hne : fraction ≠ [] := List.ne_nil_of_length_pos hfraction.length.1
    refine ⟨year, month, day, hour, minute, second, fraction, zone', hyear, hmonth, hday, hhour,
      hminute, hsecond, ⟨⟨Nat.zero_le _, hfraction.length.2⟩, hfraction.digits⟩, hzone, ?_, ?_⟩
    · rw [fractionText, if_neg hne, htext, hahead]
      rfl
    · simp only [capturedText, hstop]
      exact ⟨rfl, rfl, rfl, rfl, rfl, rfl, rfl, rfl⟩
  · obtain ⟨hzone, hstop⟩ := mem_timezonePattern.mp hstop
    refine ⟨year, month, day, hour, minute, second, [], zone, hyear, hmonth, hday, hhour,
      hminute, hsecond, ⟨⟨Nat.zero_le _, Nat.zero_le _⟩, by simp⟩, hzone, htext, ?_⟩
    simp only [capturedText, hstop]
    exact ⟨rfl, rfl, rfl, rfl, rfl, rfl, rfl, rfl⟩

/-- A fraction ends where the zone begins. -/
theorem fraction_append_inj {fraction' zone' : List Char} (hfraction : IsDigits 0 9 fraction)
    (hfraction' : IsDigits 0 9 fraction') (hzone : ZoneShape zone) (hzone' : ZoneShape zone')
    (h : fractionText fraction ++ zone = fractionText fraction' ++ zone') :
    fraction = fraction' ∧ zone = zone' := by
  obtain ⟨c, rest, rfl, hc, hdot⟩ := hzone.head_eq
  obtain ⟨c', rest', rfl, hc', hdot'⟩ := hzone'.head_eq
  rw [fractionText, fractionText] at h
  by_cases hnil : fraction = []
  · by_cases hnil' : fraction' = []
    · rw [if_pos hnil, if_pos hnil', List.nil_append, List.nil_append] at h
      exact ⟨hnil.trans hnil'.symm, h⟩
    · rw [if_pos hnil, if_neg hnil'] at h
      exact absurd (List.cons.inj h).1 hdot
  · by_cases hnil' : fraction' = []
    · rw [if_neg hnil, if_pos hnil'] at h
      exact absurd (List.cons.inj h).1.symm hdot'
    · rw [if_neg hnil, if_neg hnil'] at h
      obtain ⟨rfl, rfl, rfl⟩ := digits_append_inj hfraction.digits hfraction'.digits hc hc'
        (List.cons.inj h).2
      exact ⟨rfl, rfl⟩

/-- The fields of a timestamp are read. -/
theorem exec_timestamp_fields (hyear : IsDigits 4 4 year) (hmonth : IsDigits 2 2 month)
    (hday : IsDigits 2 2 day) (hhour : IsDigits 2 2 hour) (hminute : IsDigits 2 2 minute)
    (hsecond : IsDigits 2 2 second) (hfraction : IsDigits 0 9 fraction) (hzone : ZoneShape zone) :
    ∃ m, Regex.exec timestampPattern (year ++ '-' :: (month ++ '-' :: (day ++ 'T' :: (hour ++ ':' ::
        (minute ++ ':' :: (second ++ (fractionText fraction ++ zone))))))) = some m ∧
      capturedText m 1 = year ∧ capturedText m 2 = month ∧ capturedText m 3 = day ∧
      capturedText m 4 = hour ∧ capturedText m 5 = minute ∧ capturedText m 6 = second ∧
      capturedText m 7 = fraction ∧ capturedText m 8 = zone := by
  have htail : ∀ c : MatchState Char Nat, c.ahead = fractionText fraction ++ zone →
      ∃ d, d ∈ Regex.runs (.seq fractionPattern (.seq timezonePattern .atEnd)) c := by
    intro c hahead
    by_cases hnil : fraction = []
    · rw [fractionText, if_pos hnil, List.nil_append] at hahead
      rw [← hahead] at hzone
      exact ⟨_, mem_fractionPattern.mpr (.inr (mem_timezonePattern.mpr ⟨hzone, rfl⟩))⟩
    · rw [fractionText, if_neg hnil, List.cons_append] at hahead
      have hlength : 1 ≤ fraction.length := List.length_pos_iff.mpr hnil
      exact ⟨_, mem_fractionPattern.mpr (.inl ⟨fraction, zone,
        ⟨⟨hlength, hfraction.length.2⟩, hfraction.digits⟩, hahead,
        mem_timezonePattern.mpr ⟨hzone, rfl⟩⟩)⟩
  obtain ⟨d, hd⟩ := htail ⟨second.reverse ++ ':' :: (minute.reverse ++ ':' :: (hour.reverse ++ 'T' ::
      (day.reverse ++ '-' :: (month.reverse ++ '-' :: year.reverse)))), fractionText fraction ++ zone,
    [(6, second), (5, minute), (4, hour), (3, day), (2, month), (1, year)]⟩ rfl
  obtain ⟨m, hm⟩ : ∃ m, Regex.exec timestampPattern (year ++ '-' :: (month ++ '-' :: (day ++ 'T' ::
      (hour ++ ':' :: (minute ++ ':' :: (second ++ (fractionText fraction ++ zone))))))) = some m := by
    refine Regex.exists_exec_atStart (d := d) ((mem_digitsField (by decide)).mpr
      ⟨year, _, rfl, hyear, mem_literally.mpr ⟨_, rfl, (mem_digitsField (by decide)).mpr
      ⟨month, _, rfl, hmonth, mem_literally.mpr ⟨_, rfl, (mem_digitsField (by decide)).mpr
      ⟨day, _, rfl, hday, mem_literally.mpr ⟨_, rfl, (mem_digitsField (by decide)).mpr
      ⟨hour, _, rfl, hhour, mem_literally.mpr ⟨_, rfl, (mem_digitsField (by decide)).mpr
      ⟨minute, _, rfl, hminute, mem_literally.mpr ⟨_, rfl, (mem_digitsField (by decide)).mpr
      ⟨second, _, rfl, hsecond, ?_⟩⟩⟩⟩⟩⟩⟩⟩⟩⟩⟩)
    simpa [MatchState.advance, MatchState.capture] using hd
  obtain ⟨year', month', day', hour', minute', second', fraction', zone', hyear', hmonth', hday',
    hhour', hminute', hsecond', hfraction', hzone', htext, hcaptured⟩ := exec_timestamp hm
  obtain ⟨rfl, -, htext⟩ := digits_append_inj hyear.digits hyear'.digits rfl rfl htext
  obtain ⟨rfl, -, htext⟩ := digits_append_inj hmonth.digits hmonth'.digits rfl rfl htext
  obtain ⟨rfl, -, htext⟩ := digits_append_inj hday.digits hday'.digits rfl rfl htext
  obtain ⟨rfl, -, htext⟩ := digits_append_inj hhour.digits hhour'.digits rfl rfl htext
  obtain ⟨rfl, -, htext⟩ := digits_append_inj hminute.digits hminute'.digits rfl rfl htext
  obtain ⟨rfl, hrest⟩ := List.append_inj htext (by
    have := hsecond.length; have := hsecond'.length; omega)
  obtain ⟨rfl, rfl⟩ := fraction_append_inj hfraction hfraction' hzone hzone' hrest
  exact ⟨m, hm, hcaptured⟩

end Shapes

/-! ### Reading the grammar -/

section Reading

variable {text year month day zone : List Char} {date : CivilDate} {t : Time} {width : Nat}

theorem mem_isDigit_of_compact {c : Char} (h : Regex.exec compactDatePattern text ≠ none)
    (hc : c ∈ text) : c.isDigit = true := by
  obtain ⟨m, hm⟩ := Option.ne_none_iff_exists'.mp h
  obtain ⟨year, month, day, hyear, hmonth, hday, rfl, -⟩ := exec_compactDate hm
  rcases List.mem_append.mp hc with hc | hc
  · exact hyear.digits c hc
  · rcases List.mem_append.mp hc with hc | hc
    · exact hmonth.digits c hc
    · exact hday.digits c hc

theorem mem_of_separated {separator c : Char} {min₁ max₁ min₂ max₂ min₃ max₃ : Nat}
    (h₁ : min₁ ≤ max₁) (h₂ : min₂ ≤ max₂) (h₃ : min₃ ≤ max₃)
    (h : Regex.exec (separatedFields separator min₁ max₁ min₂ max₂ min₃ max₃) text ≠ none)
    (hc : c ∈ text) : c.isDigit = true ∨ c = separator := by
  obtain ⟨m, hm⟩ := Option.ne_none_iff_exists'.mp h
  obtain ⟨w₁, w₂, w₃, hw₁, hw₂, hw₃, rfl, -⟩ := exec_separatedFields h₁ h₂ h₃ hm
  simp only [List.mem_append, List.mem_cons] at hc
  rcases hc with hc | rfl | hc | rfl | hc
  · exact .inl (hw₁.digits c hc)
  · exact .inr rfl
  · exact .inl (hw₂.digits c hc)
  · exact .inr rfl
  · exact .inl (hw₃.digits c hc)

/-- A text with another character is not of the compact shape, … -/
theorem exec_compactDate_eq_none {c : Char} (hc : c ∈ text) (h : c.isDigit = false) :
    Regex.exec compactDatePattern text = none := by
  by_contra hn
  have hdigit := mem_isDigit_of_compact hn hc
  rw [h] at hdigit
  cases hdigit

/-- … nor of a shape with another separator. -/
theorem exec_separatedFields_eq_none {separator c : Char} {min₁ max₁ min₂ max₂ min₃ max₃ : Nat}
    (h₁ : min₁ ≤ max₁) (h₂ : min₂ ≤ max₂) (h₃ : min₃ ≤ max₃) (hc : c ∈ text)
    (h : c.isDigit = false) (hne : c ≠ separator) :
    Regex.exec (separatedFields separator min₁ max₁ min₂ max₂ min₃ max₃) text = none := by
  by_contra hn
  rcases mem_of_separated h₁ h₂ h₃ hn hc with hdigit | he
  · rw [h] at hdigit
    cases hdigit
  · exact hne he

/-- The instant of the fields of a date. -/
theorem utcMidnight?_of_names (h : NamesDate width year month day date) :
    utcMidnight? (digitsNumber year) (digitsNumber month) (digitsNumber day) =
      some (daysFromCivil date * msPerDay) := by
  rw [h.year.value, h.month.value, h.day.value]
  have hlate := h.late
  exact (utcMidnight?_eq_some_iff (by omega)).mpr ⟨⟨h.valid, hlate⟩, rfl⟩

/-- Fields that have an instant are those of a date. -/
theorem names_of_utcMidnight? (hyear : IsDigits 4 4 year) (hmonth : IsDigits width 2 month)
    (hday : IsDigits width 2 day)
    (h : utcMidnight? (digitsNumber year) (digitsNumber month) (digitsNumber day) = some t) :
    ∃ date, NamesDate width year month day date ∧ t = daysFromCivil date * msPerDay := by
  obtain ⟨⟨hvalid, hlate⟩, rfl⟩ := (utcMidnight?_eq_some_iff (digitsNumber_nonneg year)).mp h
  exact ⟨_, ⟨hyear.isNumeral, hmonth.isNumeral, hday.isNumeral, hvalid, hlate⟩, rfl⟩

/-- The offset of a signed zone, by its fields. -/
theorem offsetMinutes?_signed {sign : Char} {hour minute : List Char}
    (hsign : sign = '+' ∨ sign = '-') (hhour : IsDigits 2 2 hour) (hminute : IsDigits 2 2 minute) :
    offsetMinutes? (sign :: (hour ++ ':' :: minute)) =
      if digitsNumber hour > 23 ∨ digitsNumber minute > 59 then none
      else some ((if sign = '+' then 1 else -1) * (digitsNumber hour * 60 + digitsNumber minute)) := by
  have hz : sign :: (hour ++ ':' :: minute) ≠ ['Z'] := by
    intro h
    have hsign' := (List.cons.inj h).1
    rcases hsign with rfl | rfl
    · cases hsign'
    · cases hsign'
  have hhour' : hour.length = 2 := le_antisymm hhour.length.2 hhour.length.1
  have hminute' : minute.length ≤ 2 := hminute.length.2
  have hdrop : (sign :: (hour ++ ':' :: minute)).drop 4 = minute := by
    have hsplit : sign :: (hour ++ ':' :: minute) = (sign :: (hour ++ [':'])) ++ minute := by simp
    rw [hsplit, List.drop_left' (by simp [hhour'])]
  rw [offsetMinutes?, if_neg hz, hdrop, List.take_of_length_le hminute', List.drop_succ_cons,
    List.drop_zero, List.take_left' hhour']
  simp only [List.head?_cons, Option.some.injEq]

/-- **The offset of a time zone.** -/
theorem offsetMinutes?_eq_some_iff (h : ZoneShape zone) {offset : Int} :
    offsetMinutes? zone = some offset ↔ OffsetText zone offset := by
  cases h with
  | utc =>
      constructor
      · intro h
        cases Option.some.inj h
        exact .utc
      · intro h
        generalize hutc : ['Z'] = zone at h
        cases h with
        | utc => rfl
        | signed hsign _ _ _ =>
            rcases hsign with ⟨rfl, -⟩ | ⟨rfl, -⟩
            · cases (List.cons.inj hutc).1
            · cases (List.cons.inj hutc).1
  | @signed sign hour minute hsign hhour hminute =>
      rw [offsetMinutes?_signed hsign hhour hminute]
      constructor
      · intro h
        split at h
        · cases h
        · rename_i hrange
          cases Option.some.inj h
          refine .signed ?_ hhour.isNumeral hminute.isNumeral (by omega)
          rcases hsign with rfl | rfl
          · exact .inl ⟨rfl, rfl⟩
          · exact .inr ⟨rfl, rfl⟩
      · intro h
        generalize htext : sign :: (hour ++ ':' :: minute) = zone at h
        cases h with
        | utc =>
            rcases hsign with rfl | rfl
            · cases (List.cons.inj htext).1
            · cases (List.cons.inj htext).1
        | @signed sign' direction hour' minute' n m hsign' hhour' hminute' hlt =>
            obtain ⟨rfl, hrest⟩ := List.cons.inj htext
            obtain ⟨rfl, -, rfl⟩ := digits_append_inj hhour.digits hhour'.digits rfl rfl hrest
            rw [hhour'.value, hminute'.value, if_neg (by omega)]
            rcases hsign' with ⟨rfl, rfl⟩ | ⟨rfl, rfl⟩
            · rfl
            · rfl

/-- The zone of an offset has its shape. -/
theorem OffsetText.zoneShape {offset : Int} (h : OffsetText zone offset) : ZoneShape zone := by
  cases h with
  | utc => exact .utc
  | signed hsign hhour hminute _ =>
      exact .signed (hsign.imp And.left And.left) hhour.toIsDigits hminute.toIsDigits

/-- **A timestamp that is read.** -/
theorem parseIsoTimestamp_eq_some_iff : parseIsoTimestamp text = some t ↔ TimestampText text t := by
  constructor
  · intro h
    rw [parseIsoTimestamp] at h
    split at h
    · cases h
    · rename_i m hm
      obtain ⟨year, month, day, hour, minute, second, fraction, zone, hyear, hmonth, hday, hhour,
        hminute, hsecond, hfraction, hzone, rfl, h₁, h₂, h₃, h₄, h₅, h₆, h₇, h₈⟩ := exec_timestamp hm
      simp only [capturedNumber, h₁, h₂, h₃, h₄, h₅, h₆, h₇, h₈] at h
      split at h
      · cases h
      · rename_i hrange
        simp only [not_or, Bool.not_eq_true', Bool.not_eq_false] at hrange
        obtain ⟨hvalid, hh, hm', hs⟩ := hrange
        obtain ⟨offset, hoffset, rfl⟩ := Option.map_eq_some_iff.mp h
        obtain ⟨hdate, hlate⟩ := (validCalendarDate_iff (digitsNumber_nonneg year)).mp hvalid
        rw [dateUtc_eq (d := ⟨digitsNumber year, digitsNumber month, digitsNumber day⟩)
          (not_twoDigits hlate) hdate.month, digitsNumber_millisecondDigits hfraction.digits]
        exact .mk ⟨hyear.isNumeral, hmonth.isNumeral, hday.isNumeral, hdate, hlate⟩ hhour.isNumeral
          hminute.isNumeral hsecond.isNumeral (by omega) hfraction
          ((offsetMinutes?_eq_some_iff hzone).mp hoffset)
  · rintro ⟨hdate, hhour, hminute, hsecond, hlt, hfraction, hzone⟩
    obtain ⟨m, hm, h₁, h₂, h₃, h₄, h₅, h₆, h₇, h₈⟩ := exec_timestamp_fields hdate.year.toIsDigits
      hdate.month.toIsDigits hdate.day.toIsDigits hhour.toIsDigits hminute.toIsDigits
      hsecond.toIsDigits hfraction hzone.zoneShape
    have hlate := hdate.late
    have hvalid := (validCalendarDate_iff (by omega)).mpr ⟨hdate.valid, hlate⟩
    rw [parseIsoTimestamp, hm]
    simp only [capturedNumber, h₁, h₂, h₃, h₄, h₅, h₆, h₇, h₈, hdate.year.value, hdate.month.value,
      hdate.day.value, hhour.value, hminute.value, hsecond.value,
      digitsNumber_millisecondDigits hfraction.digits,
      (offsetMinutes?_eq_some_iff hzone.zoneShape).mpr hzone, Option.map_some]
    rw [if_neg (by rw [hvalid]; simp; omega), dateUtc_eq (not_twoDigits hlate) hdate.valid.month]

theorem TimestampText.mem_t (h : TimestampText text t) : 'T' ∈ text := by
  cases h
  simp

/-- **The parser reads exactly the grammar.** -/
theorem parseDateText_eq_some_iff : parseDateText text = some t ↔ EcbDateText text t := by
  constructor
  · intro h
    rw [parseDateText] at h
    split at h
    · rename_i m hm
      obtain ⟨year, month, day, hyear, hmonth, hday, rfl, h₁, h₂, h₃⟩ := exec_compactDate hm
      simp only [capturedNumber, h₁, h₂, h₃] at h
      obtain ⟨date, hdate, rfl⟩ := names_of_utcMidnight? hyear hmonth hday h
      exact .date (.compact hdate)
    · split at h
      · rename_i m hm
        obtain ⟨year, month, day, hyear, hmonth, hday, rfl, h₁, h₂, h₃⟩ :=
          exec_separatedFields (by decide) (by decide) (by decide) hm
        simp only [capturedNumber, h₁, h₂, h₃] at h
        obtain ⟨date, hdate, rfl⟩ := names_of_utcMidnight? hyear hmonth hday h
        exact .date (.dashed hdate)
      · split at h
        · rename_i m hm
          obtain ⟨month, day, year, hmonth, hday, hyear, rfl, h₁, h₂, h₃⟩ :=
            exec_separatedFields (by decide) (by decide) (by decide) hm
          simp only [capturedNumber, h₁, h₂, h₃] at h
          obtain ⟨date, hdate, rfl⟩ := names_of_utcMidnight? hyear hmonth hday h
          exact .date (.slashed hdate)
        · exact .timestamp (parseIsoTimestamp_eq_some_iff.mp h)
  · rintro (hdate | htime)
    · cases hdate with
      | @compact year month day date h =>
          obtain ⟨m, hm, h₁, h₂, h₃⟩ := exec_compactDate_fields h.year.toIsDigits h.month.toIsDigits
            h.day.toIsDigits
          rw [parseDateText, hm]
          simp only [capturedNumber, h₁, h₂, h₃, utcMidnight?_of_names h]
      | @dashed year month day date h =>
          have hseparator : Char.isDigit '-' = false := rfl
          obtain ⟨m, hm, h₁, h₂, h₃⟩ := exec_separatedFields_fields hseparator (by decide)
            (by decide) (by decide) h.year.toIsDigits h.month.toIsDigits h.day.toIsDigits
          rw [parseDateText, exec_compactDate_eq_none (c := '-') (by simp) rfl, dateOnlyPattern_eq, hm]
          simp only [capturedNumber, h₁, h₂, h₃, utcMidnight?_of_names h]
      | @slashed year month day date h =>
          have hseparator : Char.isDigit '/' = false := rfl
          obtain ⟨m, hm, h₁, h₂, h₃⟩ := exec_separatedFields_fields hseparator (by decide)
            (by decide) (by decide) h.month.toIsDigits h.day.toIsDigits h.year.toIsDigits
          rw [parseDateText, exec_compactDate_eq_none (c := '/') (by simp) rfl, dateOnlyPattern_eq,
            exec_separatedFields_eq_none (c := '/') (by decide) (by decide) (by decide) (by simp) rfl
              (by decide), slashDatePattern_eq, hm]
          simp only [capturedNumber, h₁, h₂, h₃, utcMidnight?_of_names h]
    · have hmem := htime.mem_t
      rw [parseDateText, exec_compactDate_eq_none hmem rfl, dateOnlyPattern_eq, slashDatePattern_eq,
        exec_separatedFields_eq_none (by decide) (by decide) (by decide) hmem rfl (by decide),
        exec_separatedFields_eq_none (by decide) (by decide) (by decide) hmem rfl (by decide)]
      exact parseIsoTimestamp_eq_some_iff.mpr htime

end Reading

/-! ### Texts of the source -/

theorem parseEcbDate_of_some {text : SourceText} {field value : String} {t : Time}
    (h : isBlank value = false) (ht : parseDateText (trimChars value.toList) = some t) :
    parseEcbDate text (some (.text value)) field = .ok (some t) := by
  simp [parseEcbDate, SourceScalar.toText, h, ht]

theorem parseEcbDate_of_none {text : SourceText} {field value : String}
    (h : isBlank value = false) (hnone : parseDateText (trimChars value.toList) = none) :
    parseEcbDate text (some (.text value)) field = .error (.zod [⟨[field],
      s!"must be a valid date, received {String.ofList (quoteJson value.toList)}"⟩]) := by
  simp only [parseEcbDate, SourceScalar.toText, h, hnone]
  rfl

/-- **`parseEcbDate` accepts exactly its grammar.**  A text that is not blank is, trimmed, a date of the
grammar and yields its instant, or it is refused; each spelling of a date yields UTC midnight of it. -/
theorem parseEcbDate_exact (text : SourceText) (field value : String) (h : isBlank value = false) :
    (∀ t, parseEcbDate text (some (.text value)) field = .ok (some t) ↔
      EcbDateText (trimChars value.toList) t) ∧
    ((∀ t, ¬ EcbDateText (trimChars value.toList) t) →
      parseEcbDate text (some (.text value)) field = .error (.zod [⟨[field],
        s!"must be a valid date, received {String.ofList (quoteJson value.toList)}"⟩])) ∧
    ∀ date, DateOnlyText (trimChars value.toList) date →
      parseEcbDate text (some (.text value)) field = .ok (some (daysFromCivil date * msPerDay)) := by
  have hread : ∀ t, EcbDateText (trimChars value.toList) t →
      parseEcbDate text (some (.text value)) field = .ok (some t) := fun t ht =>
    parseEcbDate_of_some h (parseDateText_eq_some_iff.mpr ht)
  refine ⟨fun t => ⟨fun ht => ?_, hread t⟩, fun hnone => ?_, fun date hdate => hread _ (.date hdate)⟩
  · cases hparse : parseDateText (trimChars value.toList) with
    | none =>
        rw [parseEcbDate_of_none h hparse] at ht
        cases ht
    | some t' =>
        rw [parseEcbDate_of_some h hparse] at ht
        cases ht
        exact parseDateText_eq_some_iff.mp hparse
  · refine parseEcbDate_of_none h (Option.eq_none_iff_forall_not_mem.mpr fun t ht => ?_)
    exact hnone t (parseDateText_eq_some_iff.mp ht)

/-- The last second of a leap day, east of Greenwich: its fraction is cut off. -/
theorem parseEcbDate_exact_leapDay :
    EcbDateText "2024-02-29T23:59:59.9996+05:30".toList 1709231399999 := by
  have htrim : trimChars " 2024-02-29T23:59:59.9996+05:30".toList =
      "2024-02-29T23:59:59.9996+05:30".toList := by decide +kernel
  have hparse : parseEcbDate .ascii (some (.text " 2024-02-29T23:59:59.9996+05:30")) ":updated_at" =
      .ok (some 1709231399999) := by
    decide +kernel
  rw [← htrim]
  exact ((parseEcbDate_exact .ascii ":updated_at" " 2024-02-29T23:59:59.9996+05:30"
    (by decide +kernel)).1 _).mp hparse

end NycPropertyResolver
