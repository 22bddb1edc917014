/-!
# `PoolKeeper/Time/Calendar.lean` — days and dates

The Gregorian calendar, run backwards and forwards without end. A day is counted from 1970-01-01,
which is day zero; a `Date` names it by year, month and day of the month. Years are reckoned from
March, so that the leap day is the last of its year and the months' lengths follow one linear rule.
-/

set_option autoImplicit false

namespace PoolKeeper

structure Date where
  year : Int
  month : Nat
  day : Nat
deriving DecidableEq, Repr

namespace Date

def isLeapYear (year : Int) : Bool := year % 4 == 0 && (year % 100 != 0 || year % 400 == 0)

def daysInMonth (year : Int) (month : Nat) : Nat :=
  match month with
  | 2 => if isLeapYear year then 29 else 28
  | 4 | 6 | 9 | 11 => 30
  | _ => 31

def isValid (d : Date) : Bool :=
  1 ≤ d.month && d.month ≤ 12 && 1 ≤ d.day && d.day ≤ daysInMonth d.year d.month

def toDays (d : Date) : Int :=
  let y : Int := if d.month ≤ 2 then d.year - 1 else d.year
  -- The calendar repeats after 400 years, which have 146097 days.
  let era := y / 400
  let yearOfEra := y % 400
  let monthFromMarch : Int := (d.month + 9) % 12
  let dayOfYear := (153 * monthFromMarch + 2) / 5 + d.day - 1
  let dayOfEra := yearOfEra * 365 + yearOfEra / 4 - yearOfEra / 100 + dayOfYear
  era * 146097 + dayOfEra - 719468

def ofDays (days : Int) : Date :=
  let z := days + 719468
  let era := z / 146097
  let dayOfEra := z % 146097
  -- As many years as there would be without leap days, corrected for those that have gone by.
  let yearOfEra := (dayOfEra - dayOfEra / 1460 + dayOfEra / 36524 - dayOfEra / 146096) / 365
  let dayOfYear := dayOfEra - (365 * yearOfEra + yearOfEra / 4 - yearOfEra / 100)
  let monthFromMarch := (5 * dayOfYear + 2) / 153
  let day := dayOfYear - (153 * monthFromMarch + 2) / 5 + 1
  -- January and February belong to the year that began in March before.
  let month := if monthFromMarch < 10 then monthFromMarch + 3 else monthFromMarch - 9
  { year := yearOfEra + era * 400 + (if month ≤ 2 then 1 else 0)
    month := month.toNat
    day := day.toNat }

end Date

/-- The days of the week, counted from Monday as zero. -/
inductive Weekday where
  | monday | tuesday | wednesday | thursday | friday | saturday | sunday
deriving DecidableEq, Repr

namespace Weekday

def index : Weekday → Nat
  | monday => 0 | tuesday => 1 | wednesday => 2 | thursday => 3
  | friday => 4 | saturday => 5 | sunday => 6

def name : Weekday → String
  | monday => "monday" | tuesday => "tuesday" | wednesday => "wednesday"
  | thursday => "thursday" | friday => "friday" | saturday => "saturday" | sunday => "sunday"

def all : List Weekday := [monday, tuesday, wednesday, thursday, friday, saturday, sunday]

/-- The day that a name stands for: the full name or its first three letters, in any case. -/
def ofName? (text : String) : Option Weekday :=
  let cs := text.toList.map Char.toLower
  all.find? fun d => cs == d.name.toList || cs == d.name.toList.take 3

end Weekday

/-- How many days after a Monday the day is; 1970-01-01 was a Thursday. -/
def weekdayIndex (days : Int) : Nat := ((days + 3) % 7).toNat

end PoolKeeper
