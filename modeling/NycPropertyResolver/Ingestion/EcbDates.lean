import NycPropertyResolver.Domain.Gregorian
import NycPropertyResolver.Domain.Schema
import NycPropertyResolver.Ingestion.SourceRows
import NycPropertyResolver.Library.RegexFields

/-!
# Ingestion — dates of the source

`parseEcbDate` of `normalization.service.ts`: a date in one of three shapes or a timestamp with its
offset.  Whether a date exists is asked of `Date.UTC`, which counts on past the end of a month, by
reading the date back.
-/

namespace NycPropertyResolver

open Library

/-! ### Errors -/

/-- `invalidField`. -/
def invalidField {α : Type} (field message : String) : Except SourceRowError α :=
  .error (.zod [⟨[field], message⟩])

/-- `JSON.stringify(value)`. -/
def SourceScalar.stringify (text : SourceText) : SourceScalar → String
  | .text value => String.ofList (quoteJson value.toList)
  | .number literal => text.numberText (literalValue literal)

/-! ### Calendar dates -/

/-- `validCalendarDate`. -/
def validCalendarDate (year month day : Int) : Bool :=
  let parsed := civilFromDays (dateUtc year (month - 1) day 0 0 0 0 / msPerDay)
  parsed.year = year && parsed.month - 1 = month - 1 && parsed.day = day

/-! ### Patterns -/

/-- A pattern over characters, with numbered groups. -/
abbrev DatePattern := Regex Char Nat

/-- `(\d{min,max})`, the group of that number. -/
def digitsField (group min max : Nat) : DatePattern :=
  .group group (.between (.char Char.isDigit) min max)

/-- A character of the pattern. -/
def literally (c : Char) : DatePattern := .char (· == c)

/-- `/^(\d{4})(\d{2})(\d{2})$/`. -/
def compactDatePattern : DatePattern :=
  .seq .atStart (.seq (digitsField 1 4 4) (.seq (digitsField 2 2 2) (.seq (digitsField 3 2 2) .atEnd)))

/-- `/^(\d{4})-(\d{1,2})-(\d{1,2})$/`. -/
def dateOnlyPattern : DatePattern :=
  .seq .atStart (.seq (digitsField 1 4 4) (.seq (literally '-') (.seq (digitsField 2 1 2)
    (.seq (literally '-') (.seq (digitsField 3 1 2) .atEnd)))))

/-- `/^(\d{1,2})\/(\d{1,2})\/(\d{4})$/`. -/
def slashDatePattern : DatePattern :=
  .seq .atStart (.seq (digitsField 1 1 2) (.seq (literally '/') (.seq (digitsField 2 1 2)
    (.seq (literally '/') (.seq (digitsField 3 4 4) .atEnd)))))

/-- `(?:\.(\d{1,9}))?`. -/
def fractionPattern : DatePattern := .optional (.seq (literally '.') (digitsField 7 1 9))

/-- `\d{2}`. -/
def twoDigits : DatePattern := .between (.char Char.isDigit) 2 2

/-- `(Z|[+-]\d{2}:\d{2})`. -/
def timezonePattern : DatePattern :=
  .group 8 (.alt (literally 'Z') (.seq (.char fun c => c == '+' || c == '-')
    (.seq twoDigits (.seq (literally ':') twoDigits))))

/-- The expression of `parseIsoTimestamp`. -/
def timestampPattern : DatePattern :=
  .seq .atStart (.seq (digitsField 1 4 4) (.seq (literally '-') (.seq (digitsField 2 2 2)
    (.seq (literally '-') (.seq (digitsField 3 2 2) (.seq (literally 'T') (.seq (digitsField 4 2 2)
    (.seq (literally ':') (.seq (digitsField 5 2 2) (.seq (literally ':') (.seq (digitsField 6 2 2)
    (.seq fractionPattern (.seq timezonePattern .atEnd)))))))))))))

/-- What a group captured; the empty text for nothing. -/
def capturedText (m : Regex.Match Char Nat) (group : Nat) : List Char :=
  (m.stop.captured group).getD []

/-- `Number(text)`, of digits so few that the number is exact. -/
def digitsNumber (digits : List Char) : Int := Nat.ofDigitChars 10 digits 0

/-- The number a group captured. -/
def capturedNumber (m : Regex.Match Char Nat) (group : Nat) : Int :=
  digitsNumber (capturedText m group)

/-! ### Parsing -/

/-- `padEnd(3, '0').slice(0, 3)`. -/
def millisecondDigits (fraction : List Char) : List Char :=
  (fraction ++ List.replicate (3 - fraction.length) '0').take 3

/-- The offset of a time zone in minutes; `none` where it is out of range. -/
def offsetMinutes? (timezone : List Char) : Option Int :=
  if timezone = ['Z'] then
    some 0
  else
    let offsetHour := digitsNumber ((timezone.drop 1).take 2)
    let offsetMinute := digitsNumber ((timezone.drop 4).take 2)
    if offsetHour > 23 ∨ offsetMinute > 59 then
      none
    else
      let direction := if timezone.head? = some '+' then 1 else -1
      some (direction * (offsetHour * 60 + offsetMinute))

/-- The time of an ISO timestamp whose date and time of day exist. -/
def parseIsoTimestamp (text : List Char) : Option Time :=
  match Regex.exec timestampPattern text with
  | none => none
  | some timestamp =>
    let year := capturedNumber timestamp 1
    let month := capturedNumber timestamp 2
    let day := capturedNumber timestamp 3
    let hour := capturedNumber timestamp 4
    let minute := capturedNumber timestamp 5
    let second := capturedNumber timestamp 6
    let millisecond := digitsNumber (millisecondDigits (capturedText timestamp 7))
    if !validCalendarDate year month day ∨ hour > 23 ∨ minute > 59 ∨ second > 59 then
      none
    else
      (offsetMinutes? (capturedText timestamp 8)).map fun offsetMinutes =>
        dateUtc year (month - 1) day hour minute second millisecond - offsetMinutes * 60000

/-- Midnight of a date, if it exists. -/
def utcMidnight? (year month day : Int) : Option Time :=
  if validCalendarDate year month day then some (dateUtc year (month - 1) day 0 0 0 0) else none

/-- The instant of a trimmed text: the first shape that matches decides. -/
def parseDateText (text : List Char) : Option Time :=
  match Regex.exec compactDatePattern text with
  | some compactDate =>
    utcMidnight? (capturedNumber compactDate 1) (capturedNumber compactDate 2)
      (capturedNumber compactDate 3)
  | none =>
    match Regex.exec dateOnlyPattern text with
    | some dateOnly =>
      utcMidnight? (capturedNumber dateOnly 1) (capturedNumber dateOnly 2) (capturedNumber dateOnly 3)
    | none =>
      match Regex.exec slashDatePattern text with
      | some slashDate =>
        utcMidnight? (capturedNumber slashDate 3) (capturedNumber slashDate 1)
          (capturedNumber slashDate 2)
      | none => parseIsoTimestamp text

/-- `parseEcbDate`. -/
def parseEcbDate (text : SourceText) (value : Option SourceScalar) (field : String) :
    Except SourceRowError (Option Time) :=
  match value with
  | none => .ok none
  | some value =>
    if isBlank (value.toText text) then
      .ok none
    else
      match parseDateText (trimChars (value.toText text).toList) with
      | some t => .ok (some t)
      | none => invalidField field s!"must be a valid date, received {value.stringify text}"

end NycPropertyResolver
