import Mathlib.Order.Monotone.Basic
import PreCommunity.Calendar.Utc

/-!
# The months of the calendar

The months are numbered through from January 1970.  A time belongs to one month, and a day of the
month that a month does not have is its last day.

* `monthOf` : the number of the month of a time.
* `monthLength`, `firstDay` : the months, numbered through.
* `monthDate` : the midnight of a day of a month.
* `monthOf_monthDate`, `lt_monthDate` : a date of every month, in order.
-/

namespace PreCommunity

namespace Calendar

/-! ### Days of a year -/

theorem daysInMonth_bounds (y m : ℕ) : 28 ≤ daysInMonth y m ∧ daysInMonth y m ≤ 31 := by
  unfold daysInMonth
  split_ifs <;> omega

/-- A year has at least 365 days. -/
theorem le_monthStart_twelve (y : ℕ) : 365 ≤ monthStart y 12 := by
  have hfebruary : 28 ≤ daysInMonth y 1 := (daysInMonth_bounds y 1).1
  have hlong : ∀ m ∈ [0, 2, 4, 6, 7, 9, 11], daysInMonth y m = 31 := by
    simp [daysInMonth]
  have hshort : ∀ m ∈ [3, 5, 8, 10], daysInMonth y m = 30 := by
    simp [daysInMonth]
  simp only [List.forall_mem_cons] at hlong hshort
  simp only [monthStart]
  omega

theorem le_yearStart (n : ℕ) : 365 * n ≤ yearStart n := by
  induction n with
  | zero => exact Nat.zero_le _
  | succ n ih =>
    have := le_monthStart_twelve (1970 + n)
    rw [yearStart]
    omega

/-! ### The parts of a time -/

theorem yearStart_le_day (t : ℕ) : yearStart (yearsSince1970 t) ≤ day t :=
  Nat.findGreatest_spec (P := fun n => yearStart n ≤ day t) (Nat.zero_le _) (Nat.zero_le _)

theorem day_lt_yearStart (t : ℕ) : day t < yearStart (yearsSince1970 t + 1) := by
  by_contra hle
  have hlength := le_yearStart (yearsSince1970 t + 1)
  refine Nat.findGreatest_is_greatest (P := fun n => yearStart n ≤ day t) (Nat.lt_succ_self _)
    ?_ (Nat.le_of_not_lt hle)
  change yearsSince1970 t + 1 ≤ _
  omega

theorem dayOfYear_lt (t : ℕ) : dayOfYear t < monthStart (year t) 12 := by
  have := yearStart_le_day t
  have := day_lt_yearStart t
  rw [yearStart] at this
  unfold dayOfYear year
  omega

theorem monthStart_le_dayOfYear (t : ℕ) : monthStart (year t) (month t) ≤ dayOfYear t :=
  Nat.findGreatest_spec (P := fun m => monthStart (year t) m ≤ dayOfYear t) (Nat.zero_le _)
    (Nat.zero_le _)

theorem month_le (t : ℕ) : month t ≤ 11 := Nat.findGreatest_le 11

theorem dayOfYear_lt_monthStart (t : ℕ) : dayOfYear t < monthStart (year t) (month t + 1) := by
  by_contra hle
  obtain hlt | heq := Nat.lt_or_eq_of_le (month_le t)
  · exact Nat.findGreatest_is_greatest (P := fun m => monthStart (year t) m ≤ dayOfYear t)
      (Nat.lt_succ_self _) hlt (Nat.le_of_not_lt hle)
  · rw [heq] at hle
    exact hle (dayOfYear_lt t)

/-! ### The months, numbered through -/

/-- The month of a time, numbered from January 1970. -/
def monthOf (t : ℕ) : ℕ := 12 * yearsSince1970 t + month t

/-- The number of days of a month. -/
def monthLength (k : ℕ) : ℕ := daysInMonth (1970 + k / 12) (k % 12)

/-- The first day of a month. -/
def firstDay (k : ℕ) : ℕ := yearStart (k / 12) + monthStart (1970 + k / 12) (k % 12)

/-- The midnight of the day `d` of a month, or of its last day. -/
def monthDate (k d : ℕ) : ℕ := utcDate (1970 + k / 12) (k % 12) (min d (monthLength k))

theorem monthLength_pos (k : ℕ) : 0 < monthLength k := by
  have := (daysInMonth_bounds (1970 + k / 12) (k % 12)).1
  unfold monthLength
  omega

theorem firstDay_succ (k : ℕ) : firstDay (k + 1) = firstDay k + monthLength k := by
  unfold firstDay monthLength
  by_cases hlast : k % 12 = 11
  · -- the first day of a year
    have hmonth : (k + 1) % 12 = 0 := by omega
    have hyear : (k + 1) / 12 = k / 12 + 1 := by omega
    rw [hmonth, hyear, hlast, yearStart, Nat.add_assoc]
    rfl
  · have hmonth : (k + 1) % 12 = k % 12 + 1 := by omega
    have hyear : (k + 1) / 12 = k / 12 := by omega
    rw [hmonth, hyear, monthStart, Nat.add_assoc]

theorem firstDay_strictMono : StrictMono firstDay := by
  refine strictMono_nat_of_lt_succ fun k => ?_
  have := monthLength_pos k
  rw [firstDay_succ]
  omega

/-- A time is in its month. -/
theorem firstDay_monthOf (t : ℕ) :
    firstDay (monthOf t) ≤ day t ∧ day t < firstDay (monthOf t + 1) := by
  have hmonth := month_le t
  have hdiv : monthOf t / 12 = yearsSince1970 t := by unfold monthOf; omega
  have hmod : monthOf t % 12 = month t := by unfold monthOf; omega
  have hyear : year t = 1970 + yearsSince1970 t := rfl
  have h₁ := monthStart_le_dayOfYear t
  have h₂ := dayOfYear_lt_monthStart t
  have h₃ := yearStart_le_day t
  rw [firstDay_succ, firstDay, monthLength, hdiv, hmod]
  rw [hyear] at h₁ h₂
  rw [monthStart] at h₂
  unfold dayOfYear at h₁ h₂
  omega

theorem monthOf_eq {t k : ℕ} (h : firstDay k ≤ day t) (h' : day t < firstDay (k + 1)) :
    monthOf t = k := by
  obtain ⟨h₁, h₂⟩ := firstDay_monthOf t
  have hle : monthOf t < k + 1 := firstDay_strictMono.lt_iff_lt.1 (Nat.lt_of_le_of_lt h₁ h')
  have hge : k < monthOf t + 1 := firstDay_strictMono.lt_iff_lt.1 (Nat.lt_of_le_of_lt h h₂)
  omega

theorem monthDate_eq (k d : ℕ) :
    monthDate k d = (firstDay k + (min d (monthLength k) - 1)) * millisecondsPerDay := by
  unfold monthDate utcDate firstDay
  rw [Nat.add_sub_cancel_left]

theorem day_monthDate (k d : ℕ) :
    day (monthDate k d) = firstDay k + (min d (monthLength k) - 1) := by
  rw [monthDate_eq, day, Nat.mul_div_cancel _ (by decide)]

/-- **A date of every month.** -/
theorem monthOf_monthDate {k d : ℕ} : monthOf (monthDate k d) = k := by
  have := monthLength_pos k
  refine monthOf_eq ?_ ?_
  · rw [day_monthDate]
    omega
  · rw [day_monthDate, firstDay_succ]
    omega

@[simp] theorem isMidnight_monthDate (k d : ℕ) : isMidnight (monthDate k d) = true :=
  isMidnight_utcDate _ _ _

/-- A time is before all dates of the next month. -/
theorem lt_monthDate (t d : ℕ) : t < monthDate (monthOf t + 1) d := by
  have hday := (firstDay_monthOf t).2
  rw [monthDate_eq]
  have hmul := Nat.mul_le_mul_right millisecondsPerDay
    (show day t + 1 ≤ firstDay (monthOf t + 1) + (min d (monthLength (monthOf t + 1)) - 1) by omega)
  have hlt : t < (day t + 1) * millisecondsPerDay := by
    have := Nat.lt_div_mul_add (a := t) (b := millisecondsPerDay) (by decide)
    rw [Nat.add_mul, Nat.one_mul]
    exact this
  omega

end Calendar

end PreCommunity
