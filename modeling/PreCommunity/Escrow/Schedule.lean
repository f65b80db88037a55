import PreCommunity.Calendar.Utc

/-!
# The monthly schedule

The dates of the monthly goals.  The times of the chain are seconds; a `Date` holds milliseconds
and is invalid beyond `Calendar.maxTime`.

* `dateFromChainTimestamp` : a time of the chain as a date.
* `utcMonthStart` : the first day of the month.
* `nextMonthlySettlementUtc` : the next boundary of a monthly goal.
-/

namespace PreCommunity

namespace Escrow

open Calendar

/-- A time of the chain as a date; a date that is out of range is invalid. -/
def dateFromChainTimestamp (value : ℕ) : Option ℕ :=
  if value * 1000 ≤ maxTime then some (value * 1000) else none

/-- `utcMonthStart`. -/
def utcMonthStart (date : ℕ) : ℕ := utcDate (year date) (month date) 1

/-- The errors of `nextMonthlySettlementUtc`. -/
inductive ScheduleError where
  /-- `Current monthly boundary must be a valid date`. -/
  | invalidBoundary
  /-- `Current monthly boundary must be at 00:00 UTC`. -/
  | boundaryNotMidnight
  /-- `Monthly settlement day must be an integer from 1 to 31`. -/
  | invalidSettlementDay
deriving DecidableEq, Repr

/-- `nextMonthlySettlementUtc`: the settlement day of the next month, or its last day; `none` when
that is an invalid date. -/
def nextMonthlySettlementUtc (currentBoundary settlementDay : ℕ) :
    Except ScheduleError (Option ℕ) :=
  if currentBoundary > maxTime then .error .invalidBoundary
  else if !isMidnight currentBoundary then .error .boundaryNotMidnight
  else if settlementDay < 1 ∨ settlementDay > 31 then .error .invalidSettlementDay
  else
    let currentMonth := month currentBoundary
    let nextMonth := (currentMonth + 1) % 12
    let nextYear := year currentBoundary + if currentMonth = 11 then 1 else 0
    let next := utcDate nextYear nextMonth (min settlementDay (daysInMonth nextYear nextMonth))
    .ok (if next ≤ maxTime then some next else none)

example : nextMonthlySettlementUtc 1835395200000 31 = .ok (some 1838073600000) := by decide +kernel

end Escrow

end PreCommunity
