/-
  Dates and times (`src/time/`, and the parts of JavaScript's `Date` the fetcher uses).

  A `Date` is its time value, the milliseconds since 1970-01-01T00:00:00Z.  Calendar fields come
  from the day number by the usual 400-year cycle, shifted so that a year starts in March: the leap
  day is then the last day of a year and needs no case of its own.
-/
import Mathlib.Data.Nat.Notation
import Mathlib.Data.Int.Notation

namespace ReplaysFetcher

/-- A `Date`, as its time value in milliseconds. -/
abbrev Date : Type := ℤ

/-- The milliseconds of a day. -/
def msPerDay : ℤ := 86400000

/-- Day number (days since 1970-01-01) of a proleptic Gregorian date; `month` is 1 to 12. -/
def daysFromCivil (year month day : ℤ) : ℤ :=
  let y := if month ≤ 2 then year - 1 else year
  let era := y.fdiv 400
  let yoe := y - era * 400
  let doy := (153 * (if month > 2 then month - 3 else month + 9) + 2).fdiv 5 + day - 1
  let doe := yoe * 365 + yoe.fdiv 4 - yoe.fdiv 100 + doy
  era * 146097 + doe - 719468

/-- A day of the proleptic Gregorian calendar. -/
structure CivilDate where
  year : ℤ
  month : ℤ
  day : ℤ
  deriving DecidableEq, Repr

/-- The proleptic Gregorian date of a day number. -/
def civilFromDays (days : ℤ) : CivilDate :=
  let z := days + 719468
  let era := z.fdiv 146097
  let doe := z - era * 146097
  let yoe := (doe - doe.fdiv 1460 + doe.fdiv 36524 - doe.fdiv 146096).fdiv 365
  let doy := doe - (365 * yoe + yoe.fdiv 4 - yoe.fdiv 100)
  let mp := (5 * doy + 2).fdiv 153
  let day := doy - (153 * mp + 2).fdiv 5 + 1
  let month := if mp < 10 then mp + 3 else mp - 9
  { year := yoe + era * 400 + (if month ≤ 2 then 1 else 0), month, day }

namespace Date

/-- `Date.UTC(year, monthIndex, day, hour, minute, second)`: fields roll over, and the years
    0 to 99 stand for 1900 to 1999. -/
def UTC (year monthIndex day hour minute second : ℤ) : Date :=
  let fullYear := if 0 ≤ year ∧ year ≤ 99 then 1900 + year else year
  let y := fullYear + monthIndex.fdiv 12
  let month := monthIndex.fmod 12 + 1
  (daysFromCivil y month 1 + day - 1) * msPerDay + hour * 3600000 + minute * 60000 + second * 1000

/-- The day of an instant. -/
def civil (date : Date) : CivilDate := civilFromDays (date.fdiv msPerDay)

/-- The time of day of an instant. -/
def msOfDay (date : Date) : ℤ := date.fmod msPerDay

def getUTCFullYear (date : Date) : ℤ := (civil date).year
def getUTCMonth (date : Date) : ℤ := (civil date).month - 1
def getUTCDate (date : Date) : ℤ := (civil date).day
def getUTCHours (date : Date) : ℤ := (msOfDay date).fdiv 3600000
def getUTCMinutes (date : Date) : ℤ := ((msOfDay date).fdiv 60000).fmod 60
def getUTCSeconds (date : Date) : ℤ := ((msOfDay date).fdiv 1000).fmod 60
def getUTCMilliseconds (date : Date) : ℤ := (msOfDay date).fmod 1000

end Date

/-- `String(value).padStart(width, "0")` -/
def padStart (width : ℕ) (value : ℤ) : String :=
  let digits := toString value
  String.ofList (List.replicate (width - digits.length) '0') ++ digits

def padTwo (value : ℤ) : String := padStart 2 value
def padFour (value : ℤ) : String := padStart 4 value

/-- `date.toISOString()` for a valid date; years outside 0 to 9999 are written with a sign and six
    digits. -/
def toISOString (date : Date) : String :=
  let year := date.getUTCFullYear
  let yearText :=
    if 0 ≤ year ∧ year ≤ 9999 then padFour year
    else if year < 0 then "-" ++ padStart 6 (-year) else "+" ++ padStart 6 year
  yearText ++ "-" ++ padTwo (date.getUTCMonth + 1) ++ "-" ++ padTwo date.getUTCDate ++ "T" ++
    padTwo date.getUTCHours ++ ":" ++ padTwo date.getUTCMinutes ++ ":" ++
    padTwo date.getUTCSeconds ++ "." ++ padStart 3 date.getUTCMilliseconds ++ "Z"

/-- The parts of a date as they are read from a text. -/
structure UtcDateComponents where
  day : ℤ
  hour : ℤ
  minute : ℤ
  month : ℤ
  second : Option ℤ := none
  year : ℤ

/-- `componentsToUtcIso`: the instant, unless a part of it overflows. -/
def componentsToUtcIso (components : UtcDateComponents) : Option String :=
  let second := components.second.getD 0
  let date := Date.UTC components.year (components.month - 1) components.day components.hour
    components.minute second
  if date.getUTCFullYear ≠ components.year ∨ date.getUTCMonth ≠ components.month - 1 ∨
      date.getUTCDate ≠ components.day ∨ date.getUTCHours ≠ components.hour ∨
      date.getUTCMinutes ≠ components.minute ∨ date.getUTCSeconds ≠ second then
    none
  else
    some (padFour components.year ++ "-" ++ padTwo components.month ++ "-" ++
      padTwo components.day ++ "T" ++ padTwo components.hour ++ ":" ++ padTwo components.minute ++
      ":" ++ padTwo second ++ ".000Z")

def EPOCH_LOWER_BOUND_SECONDS : ℕ := 1420070400
def EPOCH_UPPER_BOUND_SECONDS : ℕ := 2051222400
def MILLISECONDS_PER_SECOND : ℕ := 1000

/-- The value of a non-empty string of ASCII digits (`/^\d+$/u`). -/
def digitsValue (text : String) : Option ℕ :=
  if text ≠ "" ∧ text.toList.all Char.isDigit then
    some (text.toList.foldl (fun n c => 10 * n + (c.toNat - '0'.toNat)) 0)
  else none

/-- `epochToUtcIso`: the instant of an id that is a plausible number of seconds. -/
def epochToUtcIso (externalId : String) : Option String :=
  match digitsValue externalId with
  | none => none
  | some seconds =>
    if toString seconds ≠ externalId then none
    else if seconds < EPOCH_LOWER_BOUND_SECONDS ∨ seconds > EPOCH_UPPER_BOUND_SECONDS then none
    else some (toISOString ((seconds * MILLISECONDS_PER_SECOND : ℕ) : ℤ))

example : epochToUtcIso "1781460116" = some "2026-06-14T18:01:56.000Z" := by decide

example : componentsToUtcIso { day := 31, hour := 10, minute := 0, month := 4, year := 2026 } =
    none := by decide

/-- The text of an instant is never empty. -/
theorem toISOString_ne_empty (date : Date) : toISOString date ≠ "" := by
  intro h
  have hlen := congrArg String.length h
  simp [toISOString, String.length_append] at hlen

end ReplaysFetcher
