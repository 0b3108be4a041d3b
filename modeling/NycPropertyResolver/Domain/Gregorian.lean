import Mathlib.Tactic.IntervalCases
import NycPropertyResolver.Domain.Calendar

/-!
# Domain — the Gregorian calendar

The calendar by its own rules: leap years, the lengths of the months, the day after a day.  The day
numbers of `Calendar` count these days (`daysFromCivil_next`), and a date is on the calendar exactly
when its month and its day exist (`onCalendar_iff_valid`).  `Date.UTC` counts on past the end of a
month or of a year.
-/

namespace NycPropertyResolver

attribute [ext] CivilDate

/-! ### The rules -/

/-- A year of 366 days. -/
def isLeapYear (year : Int) : Bool := year % 4 = 0 ∧ (year % 100 ≠ 0 ∨ year % 400 = 0)

/-- The days of a month, February's by its year. -/
def daysInMonth (year month : Int) : Int :=
  if month = 2 then if isLeapYear year then 29 else 28
  else if month = 4 ∨ month = 6 ∨ month = 9 ∨ month = 11 then 30
  else 31

namespace CivilDate

/-- A date whose month and day exist. -/
structure Valid (d : CivilDate) : Prop where
  month : 1 ≤ d.month ∧ d.month ≤ 12
  day : 1 ≤ d.day ∧ d.day ≤ daysInMonth d.year d.month

instance (d : CivilDate) : Decidable d.Valid :=
  decidable_of_iff ((1 ≤ d.month ∧ d.month ≤ 12) ∧ 1 ≤ d.day ∧ d.day ≤ daysInMonth d.year d.month)
    ⟨fun h => ⟨h.1, h.2⟩, fun h => ⟨h.month, h.day⟩⟩

/-- The day after. -/
def next (d : CivilDate) : CivilDate :=
  if d.day < daysInMonth d.year d.month then { d with day := d.day + 1 }
  else if d.month < 12 then ⟨d.year, d.month + 1, 1⟩
  else ⟨d.year + 1, 1, 1⟩

end CivilDate

section Rules

variable {d : CivilDate} {days dayOfEra year : Int}

theorem isLeapYear_iff : isLeapYear year = true ↔ year % 4 = 0 ∧ (year % 100 ≠ 0 ∨ year % 400 = 0) :=
  decide_eq_true_iff

theorem daysFromCivil_add (year month day n : Int) :
    daysFromCivil ⟨year, month, day + n⟩ = daysFromCivil ⟨year, month, day⟩ + n := by
  simp only [daysFromCivil]
  omega

/-- February has its leap day. -/
theorem daysFromCivil_march (year : Int) :
    daysFromCivil ⟨year, 3, 1⟩ = daysFromCivil ⟨year, 2, 1⟩ + daysInMonth year 2 := by
  have hleap : isLeapYear year = true ↔ _ := isLeapYear_iff
  simp only [daysFromCivil, daysBeforeYear, daysBeforeMonth, daysInMonth]
  norm_num
  split
  · rename_i h
    obtain ⟨hfour, hcentury⟩ := hleap.mp h
    omega
  · rename_i h
    have hnot : ¬ (year % 4 = 0 ∧ (year % 100 ≠ 0 ∨ year % 400 = 0)) := fun hl => h (hleap.mpr hl)
    omega

/-- A month is as long as it is. -/
theorem daysFromCivil_nextMonth {year month : Int} (h : 1 ≤ month ∧ month < 12) :
    daysFromCivil ⟨year, month + 1, 1⟩ = daysFromCivil ⟨year, month, 1⟩ + daysInMonth year month := by
  obtain ⟨hm₀, hm₁⟩ := h
  by_cases hmarch : month = 2
  · subst hmarch
    exact daysFromCivil_march year
  · interval_cases month
    all_goals
      first
        | exact absurd rfl hmarch
        | simp only [daysFromCivil, daysBeforeMonth, daysInMonth]
          norm_num
          omega

theorem daysFromCivil_nextYear (year : Int) :
    daysFromCivil ⟨year + 1, 1, 1⟩ = daysFromCivil ⟨year, 12, 1⟩ + daysInMonth year 12 := by
  simp only [daysFromCivil, daysBeforeMonth, daysInMonth]
  norm_num
  omega

/-- **The day numbers count the days of the calendar.** -/
theorem daysFromCivil_next (h : d.Valid) : daysFromCivil d.next = daysFromCivil d + 1 := by
  obtain ⟨year, month, day⟩ := d
  obtain ⟨hmonth, hday⟩ := h
  have hstart : daysFromCivil ⟨year, month, day⟩ = daysFromCivil ⟨year, month, 1⟩ + (day - 1) := by
    rw [← daysFromCivil_add, add_sub_cancel]
  rw [CivilDate.next]
  simp only at hmonth hday ⊢
  split
  · exact daysFromCivil_add year month day 1
  · have hlast : day = daysInMonth year month := by omega
    split
    · rw [daysFromCivil_nextMonth (by omega)]
      omega
    · have hdecember : month = 12 := by omega
      rw [hdecember] at hlast hstart ⊢
      rw [daysFromCivil_nextYear]
      omega

example : daysFromCivil ⟨1970, 1, 1⟩ = 0 := by decide

/-! ### Dates of days -/

/-- A year of an era has a 366th day, February 29th, only before a leap year ends. -/
theorem isLeapYear_of_lastDay (h₀ : 0 ≤ dayOfEra) (h₁ : dayOfEra < 146097)
    (hlast : dayOfEra - daysBeforeYear (yearOfEra dayOfEra) = 365) (era : Int) :
    isLeapYear (era * 400 + yearOfEra dayOfEra + 1) = true := by
  obtain ⟨century, hcentury⟩ : ∃ century, century = min (dayOfEra / 36524) 3 := ⟨_, rfl⟩
  obtain ⟨rest, hrest⟩ : ∃ rest, rest = dayOfEra - 36524 * century := ⟨_, rfl⟩
  obtain ⟨four, hfour⟩ : ∃ four, four = rest / 1461 := ⟨_, rfl⟩
  obtain ⟨year, hyear⟩ : ∃ year, year = min (rest % 1461 / 365) 3 := ⟨_, rfl⟩
  have hbounds : 0 ≤ century ∧ century ≤ 3 ∧ 0 ≤ rest ∧ rest ≤ 36524 := by omega
  have hfour' : 0 ≤ four ∧ four < 25 := by omega
  have hyear' : 0 ≤ year ∧ year < 4 := by omega
  have hvalue : yearOfEra dayOfEra = 100 * century + 4 * four + year := by
    rw [hyear, hfour, hrest, hcentury]
    rfl
  rw [hvalue, daysBeforeYear_eq hfour' hyear'] at hlast
  have hthree : year = 3 := by omega
  have hend : four = 24 → century = 3 := by omega
  rw [isLeapYear_iff, hvalue]
  omega

/-- **The date of a day is a date.** -/
theorem valid_civilFromDays (days : Int) : (civilFromDays days).Valid := by
  obtain ⟨dayOfEra, hera⟩ : ∃ dayOfEra, dayOfEra = (days + 719468) % 146097 := ⟨_, rfl⟩
  have hbounds : 0 ≤ dayOfEra ∧ dayOfEra < 146097 := by omega
  obtain ⟨-, -, hd₀, hd₁⟩ := yearOfEra_bounds hbounds.1 hbounds.2
  have hleap := isLeapYear_of_lastDay hbounds.1 hbounds.2
  rw [civilFromDays, ← hera]
  generalize (days + 719468) / 146097 = era
  generalize dayOfEra - daysBeforeYear (yearOfEra dayOfEra) = dayOfYear at hd₀ hd₁ hleap
  generalize yearOfEra dayOfEra = year at hleap
  obtain ⟨month, hmonth⟩ : ∃ month, month = (5 * dayOfYear + 2) / 153 := ⟨_, rfl⟩
  have hrange : 0 ≤ month ∧ month ≤ 11 := by omega
  obtain ⟨hm₀, hm₁⟩ := hrange
  rw [← hmonth]
  by_cases hlate : month < 10
  · rw [if_pos hlate]
    refine ⟨⟨by simp only; omega, by simp only; omega⟩, ?_⟩
    simp only [daysBeforeMonth]
    interval_cases month
    all_goals
      simp only [daysInMonth]
      norm_num
      omega
  · rw [if_neg hlate]
    refine ⟨⟨by simp only; omega, by simp only; omega⟩, ?_⟩
    simp only [daysBeforeMonth]
    have hcases : month = 10 ∨ month = 11 := by omega
    rcases hcases with rfl | rfl
    · simp only [daysInMonth]
      norm_num
      omega
    · simp only [daysInMonth]
      norm_num
      by_cases hlast : dayOfYear = 365
      · rw [if_pos (hleap hlast _)]
        omega
      · split
        · omega
        · omega

/-- A year of an era is that of its days. -/
theorem yearOfEra_daysBeforeYear {dayOfYear : Int} (hyear : 0 ≤ year ∧ year < 400)
    (hday : 0 ≤ dayOfYear ∧ dayOfYear ≤ 365)
    (hlast : dayOfYear = 365 → isLeapYear (year + 1) = true) :
    yearOfEra (daysBeforeYear year + dayOfYear) = year := by
  obtain ⟨century, hcentury⟩ : ∃ century, century = year / 100 := ⟨_, rfl⟩
  obtain ⟨four, hfour⟩ : ∃ four, four = year % 100 / 4 := ⟨_, rfl⟩
  obtain ⟨rest, hrest⟩ : ∃ rest, rest = year % 4 := ⟨_, rfl⟩
  have hsplit : year = 100 * century + 4 * four + rest := by omega
  have hfour' : 0 ≤ four ∧ four < 25 := by omega
  have hrest' : 0 ≤ rest ∧ rest < 4 := by omega
  have hlast' : dayOfYear = 365 → rest = 3 ∧ (four = 24 → century = 3) := by
    intro h
    have hleap := isLeapYear_iff.mp (hlast h)
    omega
  rw [hsplit, daysBeforeYear_eq hfour' hrest', yearOfEra]
  have hc : min ((36524 * century + 1461 * four + 365 * rest + dayOfYear) / 36524) 3 = century := by
    omega
  simp only [hc]
  omega

/-- The date of a day, by its era, its year of the era and its day of the year. -/
theorem civilFromDays_eq {era dayOfYear : Int} (hyear : 0 ≤ year ∧ year < 400)
    (hday : 0 ≤ dayOfYear ∧ dayOfYear ≤ 365)
    (hlast : dayOfYear = 365 → isLeapYear (year + 1) = true)
    (hdays : days = era * 146097 + daysBeforeYear year + dayOfYear - 719468) :
    civilFromDays days =
      if (5 * dayOfYear + 2) / 153 < 10 then
        ⟨era * 400 + year, (5 * dayOfYear + 2) / 153 + 3,
          dayOfYear - daysBeforeMonth ((5 * dayOfYear + 2) / 153) + 1⟩
      else
        ⟨era * 400 + year + 1, (5 * dayOfYear + 2) / 153 - 9,
          dayOfYear - daysBeforeMonth ((5 * dayOfYear + 2) / 153) + 1⟩ := by
  have hrange : 0 ≤ daysBeforeYear year + dayOfYear ∧ daysBeforeYear year + dayOfYear < 146097 := by
    rw [daysBeforeYear]
    omega
  have hera : (days + 719468) / 146097 = era := by omega
  have hrest : (days + 719468) % 146097 = daysBeforeYear year + dayOfYear := by omega
  rw [civilFromDays, hera, hrest]
  simp only [yearOfEra_daysBeforeYear hyear hday hlast, add_sub_cancel_left]

/-- The month and the day are read back from the day of the year. -/
theorem dayOfYear_month {month day : Int} (hmonth : 1 ≤ month ∧ month ≤ 12)
    (hday : 1 ≤ day ∧ day ≤ daysInMonth year month) :
    let monthFromMarch := if month ≤ 2 then month + 9 else month - 3
    let dayOfYear := daysBeforeMonth monthFromMarch + day - 1
    (5 * dayOfYear + 2) / 153 = monthFromMarch ∧ (0 ≤ dayOfYear ∧ dayOfYear ≤ 365) ∧
      (dayOfYear = 365 → month = 2 ∧ isLeapYear year = true) := by
  obtain ⟨hm₀, hm₁⟩ := hmonth
  by_cases hfebruary : month = 2
  · subst hfebruary
    simp only [daysInMonth, daysBeforeMonth] at hday ⊢
    norm_num at hday ⊢
    split at hday
    · rename_i hleap
      exact ⟨by omega, by omega, fun _ => hleap⟩
    · exact ⟨by omega, by omega, by omega⟩
  · interval_cases month
    all_goals
      first
        | exact absurd rfl hfebruary
        | simp only [daysInMonth, daysBeforeMonth] at hday ⊢
          norm_num at hday ⊢
          omega

/-- **A date is the date of its day.** -/
theorem civilFromDays_daysFromCivil (h : d.Valid) : civilFromDays (daysFromCivil d) = d := by
  obtain ⟨year, month, day⟩ := d
  obtain ⟨hmonth, hday⟩ := h
  simp only at hmonth hday
  obtain ⟨hread, hrange, hlast⟩ := dayOfYear_month hmonth hday
  obtain ⟨fromMarch, hfromMarch⟩ :
      ∃ fromMarch, fromMarch = if month ≤ 2 then month + 9 else month - 3 := ⟨_, rfl⟩
  obtain ⟨marchYear, hmarchYear⟩ :
      ∃ marchYear, marchYear = if month ≤ 2 then year - 1 else year := ⟨_, rfl⟩
  rw [← hfromMarch] at hread hrange hlast
  have hdays : daysFromCivil ⟨year, month, day⟩ = marchYear / 400 * 146097 +
      daysBeforeYear (marchYear % 400) + (daysBeforeMonth fromMarch + day - 1) - 719468 := by
    simp only [daysFromCivil, ← hfromMarch, ← hmarchYear]
    omega
  have hleap : daysBeforeMonth fromMarch + day - 1 = 365 → isLeapYear (marchYear % 400 + 1) = true := by
    intro he
    obtain ⟨hfebruary, hyear⟩ := hlast he
    rw [isLeapYear_iff] at hyear ⊢
    rw [hmarchYear, if_pos (by omega)]
    omega
  rw [civilFromDays_eq (by omega) hrange hleap hdays, hread]
  have hera : marchYear / 400 * 400 + marchYear % 400 = marchYear := by omega
  rw [hera]
  by_cases hearly : month ≤ 2
  · rw [if_pos hearly] at hfromMarch hmarchYear
    rw [if_neg (by omega), CivilDate.mk.injEq]
    omega
  · rw [if_neg hearly] at hfromMarch hmarchYear
    rw [if_pos (by omega), CivilDate.mk.injEq]
    omega

theorem onCalendar_iff_valid : d.OnCalendar ↔ d.Valid :=
  ⟨fun h => h ▸ valid_civilFromDays _, civilFromDays_daysFromCivil⟩

end Rules

/-! ### `Date.UTC` -/

/-- `Date.UTC`, where the instant is in range.  A year of two digits is one of the 20th century; a month
that does not exist counts on into other years, and a day into other months. -/
def dateUtc (year monthIndex day hours minutes seconds ms : Int) : Int :=
  let fullYear := if 0 ≤ year ∧ year ≤ 99 then 1900 + year else year
  let firstOfMonth := daysFromCivil ⟨fullYear + monthIndex / 12, monthIndex % 12 + 1, 1⟩
  (firstOfMonth + day - 1) * msPerDay + (((hours * 60 + minutes) * 60 + seconds) * 1000 + ms)

section Utc

variable {d : CivilDate} {year monthIndex day hours minutes seconds ms : Int}

theorem dateUtc_eq (hyear : ¬ (0 ≤ d.year ∧ d.year ≤ 99)) (hmonth : 1 ≤ d.month ∧ d.month ≤ 12) :
    dateUtc d.year (d.month - 1) d.day hours minutes seconds ms =
      daysFromCivil d * msPerDay + (((hours * 60 + minutes) * 60 + seconds) * 1000 + ms) := by
  obtain ⟨year, month, day⟩ := d
  simp only at hyear hmonth ⊢
  have hstart : daysFromCivil ⟨year, month, day⟩ = daysFromCivil ⟨year, month, 1⟩ + day - 1 := by
    have hadd := daysFromCivil_add year month 1 (day - 1)
    rw [add_sub_cancel] at hadd
    omega
  have hindex : (month - 1) / 12 = 0 ∧ (month - 1) % 12 + 1 = month := by omega
  rw [dateUtc, if_neg hyear, hindex.1, hindex.2, add_zero, ← hstart]

theorem dateUtc_midnight (hyear : ¬ (0 ≤ d.year ∧ d.year ≤ 99)) (hmonth : 1 ≤ d.month ∧ d.month ≤ 12) :
    dateUtc d.year (d.month - 1) d.day 0 0 0 0 = daysFromCivil d * msPerDay := by
  rw [dateUtc_eq hyear hmonth]
  simp

/-- The years of one and two digits are never themselves. -/
theorem dateUtc_ne_of_twoDigits (hyear : 0 ≤ d.year ∧ d.year ≤ 99)
    (hmonth : 1 ≤ d.month ∧ d.month ≤ 12) :
    dateUtc d.year (d.month - 1) d.day 0 0 0 0 / msPerDay ≠ daysFromCivil d := by
  obtain ⟨year, month, day⟩ := d
  simp only at hyear hmonth ⊢
  have hindex : (month - 1) / 12 = 0 ∧ (month - 1) % 12 + 1 = month := by omega
  rw [dateUtc, if_pos hyear, hindex.1, hindex.2, msPerDay]
  simp only [daysFromCivil, daysBeforeYear]
  split
  · omega
  · omega

end Utc

end NycPropertyResolver
