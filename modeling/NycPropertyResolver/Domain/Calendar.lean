import Mathlib.Algebra.Order.Group.Int
import Mathlib.Data.String.Basic
import NycPropertyResolver.Domain.Schema

/-!
# Domain — calendar

Dates of the proleptic Gregorian calendar as days since 1970-01-01, and the ISO 8601 texts of dates
and instants: `toISOString`, and the reading of such texts by `new Date(…)` and by the casts of
PostgreSQL.  Days are counted from March 1st of the year 0, so that the leap day ends its year.
-/

namespace NycPropertyResolver

/-! ### Dates -/

/-- A year, month and day. -/
structure CivilDate where
  year : Int
  month : Int
  day : Int
  deriving DecidableEq, Repr

/-- The days of the years before a year of its era of 400 years, from March on. -/
def daysBeforeYear (yearOfEra : Int) : Int := 365 * yearOfEra + yearOfEra / 4 - yearOfEra / 100

/-- The days of the months before a month, from March on. -/
def daysBeforeMonth (monthFromMarch : Int) : Int := (153 * monthFromMarch + 2) / 5

/-- The days from 1970-01-01 to a date. -/
def daysFromCivil (d : CivilDate) : Int :=
  let year := if d.month ≤ 2 then d.year - 1 else d.year
  let monthFromMarch := if d.month ≤ 2 then d.month + 9 else d.month - 3
  year / 400 * 146097 + daysBeforeYear (year % 400) + daysBeforeMonth monthFromMarch + d.day - 1 - 719468

/-- The year of its era that a day of the era is in: by centuries, by four years, by years.  The last
century of an era and the last year of four have a day more. -/
def yearOfEra (dayOfEra : Int) : Int :=
  let century := min (dayOfEra / 36524) 3
  let dayOfCentury := dayOfEra - 36524 * century
  100 * century + 4 * (dayOfCentury / 1461) + min (dayOfCentury % 1461 / 365) 3

/-- The date of a day. -/
def civilFromDays (days : Int) : CivilDate :=
  let dayOfEra := (days + 719468) % 146097
  let dayOfYear := dayOfEra - daysBeforeYear (yearOfEra dayOfEra)
  let monthFromMarch := (5 * dayOfYear + 2) / 153
  let year := (days + 719468) / 146097 * 400 + yearOfEra dayOfEra
  if monthFromMarch < 10 then
    ⟨year, monthFromMarch + 3, dayOfYear - daysBeforeMonth monthFromMarch + 1⟩
  else
    ⟨year + 1, monthFromMarch - 9, dayOfYear - daysBeforeMonth monthFromMarch + 1⟩

section Civil

variable {days dayOfEra : Int}

theorem daysBeforeYear_eq {century four year : Int} (hfour : 0 ≤ four ∧ four < 25)
    (hyear : 0 ≤ year ∧ year < 4) :
    daysBeforeYear (100 * century + 4 * four + year) =
      36524 * century + 1461 * four + 365 * year := by
  rw [daysBeforeYear]
  omega

/-- A day of an era is in a year of the era, and a day of that year. -/
theorem yearOfEra_bounds (h₀ : 0 ≤ dayOfEra) (h₁ : dayOfEra < 146097) :
    0 ≤ yearOfEra dayOfEra ∧ yearOfEra dayOfEra < 400 ∧
      0 ≤ dayOfEra - daysBeforeYear (yearOfEra dayOfEra) ∧
      dayOfEra - daysBeforeYear (yearOfEra dayOfEra) ≤ 365 := by
  obtain ⟨century, hcentury⟩ : ∃ century, century = min (dayOfEra / 36524) 3 := ⟨_, rfl⟩
  obtain ⟨rest, hrest⟩ : ∃ rest, rest = dayOfEra - 36524 * century := ⟨_, rfl⟩
  obtain ⟨four, hfour⟩ : ∃ four, four = rest / 1461 := ⟨_, rfl⟩
  obtain ⟨year, hyear⟩ : ∃ year, year = min (rest % 1461 / 365) 3 := ⟨_, rfl⟩
  have hbounds : 0 ≤ century ∧ century ≤ 3 ∧ 0 ≤ rest ∧ rest ≤ 36524 := by omega
  have hfour' : 0 ≤ four ∧ four < 25 := by omega
  have hyear' : 0 ≤ year ∧ year < 4 := by omega
  have hvalue : yearOfEra dayOfEra = 100 * century + 4 * four + year := by
    rw [hyear, hfour, hrest, hcentury]
    rfl
  rw [hvalue, daysBeforeYear_eq hfour' hyear']
  omega

/-- **A day is the day of its date.** -/
theorem daysFromCivil_civilFromDays (days : Int) : daysFromCivil (civilFromDays days) = days := by
  obtain ⟨dayOfEra, hera⟩ : ∃ dayOfEra, dayOfEra = (days + 719468) % 146097 := ⟨_, rfl⟩
  have hbounds : 0 ≤ dayOfEra ∧ dayOfEra < 146097 := by omega
  obtain ⟨hy₀, hy₁, hd₀, hd₁⟩ := yearOfEra_bounds hbounds.1 hbounds.2
  have hsplit : (days + 719468) / 146097 * 146097 + dayOfEra = days + 719468 := by omega
  simp only [civilFromDays, ← hera]
  generalize (days + 719468) / 146097 = era at hsplit
  generalize yearOfEra dayOfEra = year at hy₀ hy₁ hd₀ hd₁
  generalize hday : dayOfEra - daysBeforeYear year = dayOfYear at hd₀ hd₁
  have hyear : (era * 400 + year) / 400 = era ∧ (era * 400 + year) % 400 = year := by omega
  split
  · rename_i hmonth
    have hlate : ¬ (5 * dayOfYear + 2) / 153 + 3 ≤ 2 := by omega
    simp only [daysFromCivil, if_neg hlate, hyear.1, hyear.2, add_sub_cancel_right]
    omega
  · rename_i hmonth
    have hearly : (5 * dayOfYear + 2) / 153 - 9 ≤ 2 := by omega
    simp only [daysFromCivil, if_pos hearly, add_sub_cancel_right, hyear.1, hyear.2,
      sub_add_cancel]
    omega

end Civil

/-- A date is on the calendar when it is the date of its day. -/
def CivilDate.OnCalendar (d : CivilDate) : Prop := civilFromDays (daysFromCivil d) = d

instance (d : CivilDate) : Decidable d.OnCalendar :=
  inferInstanceAs (Decidable (_ = _))

theorem onCalendar_civilFromDays (days : Int) : (civilFromDays days).OnCalendar := by
  rw [CivilDate.OnCalendar, daysFromCivil_civilFromDays]

theorem civilFromDays_bounds (days : Int) :
    0 ≤ (civilFromDays days).month ∧ (civilFromDays days).month < 100 ∧
      0 ≤ (civilFromDays days).day ∧ (civilFromDays days).day < 100 := by
  obtain ⟨dayOfEra, hera⟩ : ∃ dayOfEra, dayOfEra = (days + 719468) % 146097 := ⟨_, rfl⟩
  have hbounds : 0 ≤ dayOfEra ∧ dayOfEra < 146097 := by omega
  obtain ⟨-, -, hd₀, hd₁⟩ := yearOfEra_bounds hbounds.1 hbounds.2
  simp only [civilFromDays, ← hera]
  generalize dayOfEra - daysBeforeYear (yearOfEra dayOfEra) = dayOfYear at hd₀ hd₁
  split
  · simp only [daysBeforeMonth]
    omega
  · simp only [daysBeforeMonth]
    omega

/-! ### Decimal fields -/

/-- A number in as many digits as it is given. -/
def padDigits : Nat → Nat → List Char
  | 0, _ => []
  | width + 1, n => padDigits width (n / 10) ++ [Nat.digitChar (n % 10)]

/-- A field of digits, and what follows it. -/
def readDigits (width : Nat) (cs : List Char) : Option (Nat × List Char) :=
  if (cs.take width).length = width ∧ (cs.take width).all Char.isDigit then
    some (Nat.ofDigitChars 10 (cs.take width) 0, cs.drop width)
  else
    none

/-- What follows a given character. -/
def readChar (c : Char) (cs : List Char) : Option (List Char) :=
  if cs.head? = some c then some cs.tail else none

section Fields

theorem length_padDigits : ∀ width n, (padDigits width n).length = width
  | 0, _ => rfl
  | width + 1, n => by simp [padDigits, length_padDigits width]

theorem isDigit_padDigits : ∀ (width n : Nat), ∀ c ∈ padDigits width n, c.isDigit = true
  | 0, _, _, hc => nomatch hc
  | width + 1, n, c, hc => by
      rcases List.mem_append.mp hc with hc | hc
      · exact isDigit_padDigits width _ c hc
      · have hall : ∀ d < 10, (Nat.digitChar d).isDigit = true := by decide
        rw [List.mem_singleton.mp hc]
        exact hall _ (Nat.mod_lt n (by decide))

theorem ofDigitChars_padDigits : ∀ {width n : Nat}, n < 10 ^ width →
    Nat.ofDigitChars 10 (padDigits width n) 0 = n
  | 0, n, h => by
      have hn : n = 0 := by simpa using h
      rw [hn]
      rfl
  | width + 1, n, h => by
      have hlt : n / 10 < 10 ^ width := by
        rw [Nat.div_lt_iff_lt_mul (by decide), ← Nat.pow_succ]
        exact h
      rw [padDigits, Nat.ofDigitChars_append, ofDigitChars_padDigits hlt,
        Nat.ofDigitChars_cons_digitChar_of_lt_ten (Nat.mod_lt n (by decide)), Nat.ofDigitChars_nil]
      omega

theorem readDigits_padDigits {width n : Nat} (h : n < 10 ^ width) (rest : List Char) :
    readDigits width (padDigits width n ++ rest) = some (n, rest) := by
  have hlength := length_padDigits width n
  rw [readDigits, List.take_left' hlength, List.drop_left' hlength, ofDigitChars_padDigits h]
  exact if_pos ⟨hlength, List.all_eq_true.mpr (isDigit_padDigits width n)⟩

@[simp] theorem readChar_cons {c : Char} {rest : List Char} : readChar c (c :: rest) = some rest :=
  if_pos rfl

end Fields

/-! ### ISO 8601 -/

/-- A year of four digits; any other year has a sign and six digits. -/
def isoYear (year : Int) : List Char :=
  if 0 ≤ year ∧ year ≤ 9999 then padDigits 4 year.toNat
  else (if 0 ≤ year then '+' else '-') :: padDigits 6 year.natAbs

/-- The date part of an ISO text. -/
def isoDate (d : CivilDate) : List Char :=
  isoYear d.year ++ '-' :: (padDigits 2 d.month.toNat ++ '-' :: padDigits 2 d.day.toNat)

/-- The milliseconds of a day. -/
def msPerDay : Int := 86400000

/-- The time of day, of its milliseconds. -/
def isoTime (ms : Nat) : List Char :=
  padDigits 2 (ms / 3600000) ++ ':' :: (padDigits 2 (ms / 60000 % 60) ++
    ':' :: (padDigits 2 (ms / 1000 % 60) ++ '.' :: padDigits 3 (ms % 1000)))

/-- `toISOString`. -/
def toISOString (t : Int) : List Char :=
  isoDate (civilFromDays (t / msPerDay)) ++ 'T' :: (isoTime (t % msPerDay).toNat ++ ['Z'])

/-- A year, and what follows it. -/
def readYear (cs : List Char) : Option (Int × List Char) :=
  match cs with
  | '+' :: rest => (readDigits 6 rest).map fun r => ((r.1 : Int), r.2)
  | '-' :: rest =>
    (readDigits 6 rest).bind fun r => if r.1 = 0 then none else some (-(r.1 : Int), r.2)
  | _ => (readDigits 4 cs).map fun r => ((r.1 : Int), r.2)

/-- A date after its year, and what follows it. -/
def readMonthDay (year : Int) (cs : List Char) : Option (CivilDate × List Char) := do
  let cs ← readChar '-' cs
  let (month, cs) ← readDigits 2 cs
  let cs ← readChar '-' cs
  let (day, cs) ← readDigits 2 cs
  some (⟨year, month, day⟩, cs)

/-- `/^\d{4}-\d{2}-\d{2}$/`, and the date such a text names. -/
def readDateText (cs : List Char) : Option CivilDate := do
  let (year, cs) ← readDigits 4 cs
  let (date, cs) ← readMonthDay year cs
  if cs = [] then some date else none

/-- The milliseconds of a time of day, and what follows it. -/
def readTime (cs : List Char) : Option (Nat × List Char) := do
  let (hour, cs) ← readDigits 2 cs
  let cs ← readChar ':' cs
  let (minute, cs) ← readDigits 2 cs
  let cs ← readChar ':' cs
  let (second, cs) ← readDigits 2 cs
  let cs ← readChar '.' cs
  let (ms, cs) ← readDigits 3 cs
  if hour < 24 ∧ minute < 60 ∧ second < 60 then
    some (((hour * 60 + minute) * 60 + second) * 1000 + ms, cs)
  else
    none

/-- The instant of a text of the form `toISOString` writes, with its date. -/
def readInstant (cs : List Char) : Option (CivilDate × Int) := do
  let (year, cs) ← readYear cs
  let (date, cs) ← readMonthDay year cs
  let cs ← readChar 'T' cs
  let (ms, cs) ← readTime cs
  let cs ← readChar 'Z' cs
  if cs = [] ∧ date.OnCalendar then some (date, daysFromCivil date * msPerDay + ms) else none

/-- An instant a `Date` holds: 100,000,000 days before 1970 or after. -/
def IsDate (t : Int) : Prop := -8640000000000000 ≤ t ∧ t ≤ 8640000000000000

instance (t : Int) : Decidable (IsDate t) := inferInstanceAs (Decidable (_ ∧ _))

/-- `TimeClip`: the instants beyond a `Date` are `NaN`. -/
def timeClip (t : Int) : Option Int := if IsDate t then some t else none

section Iso

variable {rest : List Char}

theorem readMonthDay_civil (days year : Int) :
    readMonthDay year ('-' :: (padDigits 2 (civilFromDays days).month.toNat ++
      '-' :: (padDigits 2 (civilFromDays days).day.toNat ++ rest))) =
      some ({ civilFromDays days with year := year }, rest) := by
  obtain ⟨hm₀, hm₁, hd₀, hd₁⟩ := civilFromDays_bounds days
  have hmonth : (civilFromDays days).month.toNat < 10 ^ 2 := by omega
  have hday : (civilFromDays days).day.toNat < 10 ^ 2 := by omega
  simp only [readMonthDay, readChar_cons, readDigits_padDigits hmonth, readDigits_padDigits hday,
    bind, Option.bind_some, Int.toNat_of_nonneg hm₀, Int.toNat_of_nonneg hd₀]

theorem readMonthDay_self (days : Int) :
    readMonthDay (civilFromDays days).year ('-' :: (padDigits 2 (civilFromDays days).month.toNat ++
      '-' :: (padDigits 2 (civilFromDays days).day.toNat ++ rest))) =
      some (civilFromDays days, rest) :=
  readMonthDay_civil days (civilFromDays days).year

/-- The text of a day of the years 0 to 9999 names its date. -/
theorem readDateText_isoDate {days : Int}
    (h : 0 ≤ (civilFromDays days).year ∧ (civilFromDays days).year ≤ 9999) :
    readDateText (isoDate (civilFromDays days)) = some (civilFromDays days) := by
  have hyear : (civilFromDays days).year.toNat < 10 ^ 4 := by omega
  have hrest : readMonthDay (civilFromDays days).year
      ('-' :: (padDigits 2 (civilFromDays days).month.toNat ++
        '-' :: (padDigits 2 (civilFromDays days).day.toNat ++ []))) = _ := readMonthDay_self days
  rw [List.append_nil] at hrest
  simp only [readDateText, isoDate, isoYear, if_pos h, readDigits_padDigits hyear, bind,
    Option.bind_some, Int.toNat_of_nonneg h.1, hrest, if_true]

theorem readTime_isoTime {ms : Nat} (h : ms < 86400000) :
    readTime (isoTime ms ++ rest) = some (ms, rest) := by
  have hhour : ms / 3600000 < 10 ^ 2 := by omega
  have hminute : ms / 60000 % 60 < 10 ^ 2 := by omega
  have hsecond : ms / 1000 % 60 < 10 ^ 2 := by omega
  have hms : ms % 1000 < 10 ^ 3 := by omega
  have hrange : ms / 3600000 < 24 ∧ ms / 60000 % 60 < 60 ∧ ms / 1000 % 60 < 60 := by omega
  have hvalue : ((ms / 3600000 * 60 + ms / 60000 % 60) * 60 + ms / 1000 % 60) * 1000 + ms % 1000 =
      ms := by omega
  simp only [readTime, isoTime, List.append_assoc, List.cons_append, readChar_cons,
    readDigits_padDigits hhour, readDigits_padDigits hminute, readDigits_padDigits hsecond,
    readDigits_padDigits hms, bind, Option.bind_some, if_pos hrange, hvalue]

theorem readYear_isoYear {year : Int} (h : year.natAbs < 1000000) :
    readYear (isoYear year ++ rest) = some (year, rest) := by
  rw [isoYear]
  split
  · rename_i hfour
    have hlt : year.toNat < 10 ^ 4 := by omega
    have hdigit : ∀ c ∈ padDigits 4 year.toNat, c ≠ '+' ∧ c ≠ '-' := by
      intro c hc
      have hc' := isDigit_padDigits 4 year.toNat c hc
      exact ⟨fun e => absurd (e ▸ hc') (by decide), fun e => absurd (e ▸ hc') (by decide)⟩
    have hread := readDigits_padDigits hlt rest
    cases hpad : padDigits 4 year.toNat with
    | nil => exact absurd (congrArg List.length hpad) (by rw [length_padDigits]; decide)
    | cons c cs =>
        rw [hpad] at hdigit hread
        have hc := hdigit c List.mem_cons_self
        rw [readYear.eq_def]
        split
        · rename_i e
          exact absurd (List.cons.inj e).1 hc.1
        · rename_i e
          exact absurd (List.cons.inj e).1 hc.2
        · rw [hread, Option.map_some, Int.toNat_of_nonneg hfour.1]
  · have hlt : year.natAbs < 10 ^ 6 := h
    split
    · rename_i hpos
      rw [List.cons_append, readYear, readDigits_padDigits hlt, Option.map_some]
      simp [Int.natAbs_of_nonneg hpos]
    · rename_i hneg
      have hne : year.natAbs ≠ 0 := by omega
      have hvalue : -(year.natAbs : Int) = year := by omega
      rw [List.cons_append, readYear, readDigits_padDigits hlt, Option.bind_some, if_neg hne, hvalue]

/-- **An instant is read back from its text.** -/
theorem readInstant_toISOString {t : Int}
    (h : (civilFromDays (t / msPerDay)).year.natAbs < 1000000) :
    readInstant (toISOString t) = some (civilFromDays (t / msPerDay), t) := by
  have hms : (t % msPerDay).toNat < 86400000 := by
    rw [msPerDay]
    omega
  have hvalue : t / msPerDay * msPerDay + ((t % msPerDay).toNat : Int) = t := by
    rw [msPerDay]
    omega
  simp only [readInstant, toISOString, isoDate, List.append_assoc, List.cons_append,
    readYear_isoYear h, readMonthDay_self, readChar_cons, readTime_isoTime hms, bind,
    Option.bind_some, onCalendar_civilFromDays, and_self, if_true, daysFromCivil_civilFromDays, hvalue]

end Iso

end NycPropertyResolver
