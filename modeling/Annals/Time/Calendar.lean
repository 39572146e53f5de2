/-!
# The calendar

Dates of the Gregorian calendar, carried on in both directions without a break, and the number of
days from the first of January 1970 to a date. A year is counted from March here, which puts the leap
day at its end: then the days before a month follow one linear rule, and the days before a year are
those of whole common years and one for each leap day since.
-/

namespace Annals

/-- A date; year 0 comes before year 1. -/
structure Date where
  year : Int
  month : Nat
  day : Nat
  deriving DecidableEq, Repr

def isLeapYear (year : Int) : Bool :=
  year % 4 == 0 && (year % 100 != 0 || year % 400 == 0)

def daysInMonth (year : Int) (month : Nat) : Nat :=
  if month = 2 then (if isLeapYear year then 29 else 28)
  else if month = 4 ∨ month = 6 ∨ month = 9 ∨ month = 11 then 30
  else 31

namespace Date

def exists? (date : Date) : Bool :=
  1 ≤ date.month && date.month ≤ 12 && 1 ≤ date.day && date.day ≤ daysInMonth date.year date.month

/-- Days from the first of March of year 0 to the first of March of a year. -/
def daysBeforeYear (year : Int) : Int :=
  365 * year + year / 4 - year / 100 + year / 400

/-- Days from the first of March to the first day of the month that comes so many months later. -/
def daysBeforeMonth (months : Int) : Int :=
  (153 * months + 2) / 5

/-- Days from the first of March of year 0 to the first of January 1970. -/
def epochDay : Int := 719468

/-- Days from the first of January 1970. -/
def dayNumber (date : Date) : Int :=
  let year := if date.month ≤ 2 then date.year - 1 else date.year
  let months : Int := if date.month ≤ 2 then date.month + 9 else date.month - 3
  daysBeforeYear year + daysBeforeMonth months + (date.day - 1) - epochDay

/-- The date so many days after the first of January 1970. Four centuries have 146097 days; within
them the year is the day over 365, less the leap days passed. -/
def ofDayNumber (number : Int) : Date :=
  let days := number + epochDay
  let cycle := days / 146097
  let dayOfCycle := days % 146097
  let yearOfCycle :=
    (dayOfCycle - dayOfCycle / 1460 + dayOfCycle / 36524 - dayOfCycle / 146096) / 365
  let dayOfYear := dayOfCycle - daysBeforeYear yearOfCycle
  let months := (5 * dayOfYear + 2) / 153
  let day := dayOfYear - daysBeforeMonth months + 1
  let month := if months < 10 then months + 3 else months - 9
  let year := cycle * 400 + yearOfCycle + if month ≤ 2 then 1 else 0
  ⟨year, month.toNat, day.toNat⟩

end Date

end Annals
