import Transcript.Arithmetic

/-!
# The calendar

Dates of the Gregorian calendar, which here reaches back and forth without end, and the days since
the start of 1970 that they stand for. The calendar repeats itself every four hundred years, so both
directions count whole cycles first.
-/

namespace Transcript

/-- A date. -/
structure Date where
  /-- The year. The year 0 is the one before the year 1. -/
  year : Int
  /-- The month, from 1. -/
  month : Nat
  /-- The day of the month, from 1. -/
  day : Nat
deriving DecidableEq, Repr

namespace Date

/-- The years of a cycle. -/
def cycleYears : Nat := 400

/-- The days of a cycle. -/
def cycleDays : Nat := 146097

/-- The day on which 1970 starts, counted from the start of the year 0. -/
def epochDay : Nat := 719528

/-- Whether a year has a day more. -/
def isLeapYear (year : Nat) : Bool := year % 4 == 0 && (year % 100 != 0 || year % 400 == 0)

/-- The lengths of the months of a year. -/
def monthLengths (year : Nat) : List Nat :=
  [31, if isLeapYear year then 29 else 28, 31, 30, 31, 30, 31, 31, 30, 31, 30, 31]

/-- The day on which a year of a cycle starts, counted from the start of the cycle. -/
def yearStart (year : Nat) : Nat :=
  365 * year + ((year + 3) / 4 + (year + 399) / 400 - (year + 99) / 100)

/-- The number of the year within its cycle. -/
def yearOfCycle (d : Date) : Nat := (d.year % cycleYears).toNat

/-- Whether there is such a date. -/
def isValid (d : Date) : Bool :=
  1 ≤ d.month && d.month ≤ 12 && 1 ≤ d.day &&
    d.day ≤ (monthLengths d.yearOfCycle).getD (d.month - 1) 0

/-- The days from the start of 1970 to a date. -/
def toDays (d : Date) : Int :=
  d.year / cycleYears * cycleDays +
    (yearStart d.yearOfCycle + sumOver id ((monthLengths d.yearOfCycle).take (d.month - 1)) +
      (d.day - 1) : Nat) - epochDay

/-- The month and the day of the month, from 0, of a day of the year. -/
def splitMonths (month : Nat) : List Nat → Nat → Nat × Nat
  | [], day => (month, day)
  | length :: lengths, day =>
    if day < length then (month, day) else splitMonths (month + 1) lengths (day - length)

/-- The date that comes so many days after the start of 1970. -/
def ofDays (days : Int) : Date :=
  let cycle := (days + epochDay) / cycleDays
  let dayOfCycle := ((days + epochDay) % cycleDays).toNat
  let year := firstTrue 0 (cycleYears - 1) fun y => dayOfCycle < yearStart (y + 1)
  let (month, day) := splitMonths 1 (monthLengths year) (dayOfCycle - yearStart year)
  ⟨cycle * cycleYears + year, month, day + 1⟩

end Date

end Transcript
