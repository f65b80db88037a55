import Mathlib.Data.Nat.Find
import Mathlib.Data.Nat.Notation

/-!
# Dates in UTC

A time is a number of milliseconds since the beginning of 1970.  The proleptic Gregorian calendar
gives it a year, a month from 0 to 11 and a day of the month from 1.

* `year`, `month`, `dayOfMonth` : the parts of a time.
* `utcDate` : the midnight of a date.
* `daysInMonth` : the length of a month.
-/

namespace PreCommunity

namespace Calendar

/-- The milliseconds of a day. -/
def millisecondsPerDay : ℕ := 24 * 60 * 60 * 1000

/-- The last time that is a date. -/
def maxTime : ℕ := 8640000000000000

/-- The number of whole days since the beginning of 1970. -/
def day (t : ℕ) : ℕ := t / millisecondsPerDay

/-- The time is the beginning of a day. -/
def isMidnight (t : ℕ) : Bool := t % millisecondsPerDay = 0

/-- Years with 366 days. -/
def isLeapYear (y : ℕ) : Bool := y % 4 = 0 ∧ (y % 100 ≠ 0 ∨ y % 400 = 0)

/-- The length of a month, which is numbered from 0. -/
def daysInMonth (y m : ℕ) : ℕ :=
  if m = 1 then if isLeapYear y then 29 else 28
  else if m = 3 ∨ m = 5 ∨ m = 8 ∨ m = 10 then 30
  else 31

/-- The first day of a month, counted from the first day of its year. -/
def monthStart (y : ℕ) : ℕ → ℕ
  | 0 => 0
  | m + 1 => monthStart y m + daysInMonth y m

/-- The first day of the year `1970 + n`. -/
def yearStart : ℕ → ℕ
  | 0 => 0
  | n + 1 => yearStart n + monthStart (1970 + n) 12

/-- The year of a time, counted from 1970. -/
def yearsSince1970 (t : ℕ) : ℕ := Nat.findGreatest (fun n => yearStart n ≤ day t) (day t / 365)

/-- The year of a time. -/
def year (t : ℕ) : ℕ := 1970 + yearsSince1970 t

/-- The day of a time, counted from the first day of its year. -/
def dayOfYear (t : ℕ) : ℕ := day t - yearStart (yearsSince1970 t)

/-- The month of a time, from 0 to 11. -/
def month (t : ℕ) : ℕ := Nat.findGreatest (fun m => monthStart (year t) m ≤ dayOfYear t) 11

/-- The day of the month of a time, from 1. -/
def dayOfMonth (t : ℕ) : ℕ := dayOfYear t - monthStart (year t) (month t) + 1

/-- The midnight of a date from 1970 on. -/
def utcDate (y m d : ℕ) : ℕ :=
  (yearStart (y - 1970) + monthStart y m + (d - 1)) * millisecondsPerDay

example : (year 1835438400000, month 1835438400000, dayOfMonth 1835438400000) = (2028, 1, 29) := by
  decide +kernel

@[simp] theorem isMidnight_utcDate (y m d : ℕ) : isMidnight (utcDate y m d) = true := by
  simp [isMidnight, utcDate]

end Calendar

end PreCommunity
