import PreCommunity.Text.Decimal
import Mathlib.Data.Int.Notation

/-!
# Dates and their texts

* `Date` : a time that is a date.
* `DateTexts`, `DateTexts.Specified` : how a date is written and read, and what is relied on.
* `datesWith`, `plainDates` : such functions.
-/

namespace PreCommunity

namespace Calendar

/-- A time in milliseconds that is a date. -/
structure Date where
  time : ℤ
  valid : time.natAbs ≤ 8640000000000000
deriving DecidableEq, Repr

theorem Date.eq_of_time : ∀ a b : Date, a.time = b.time → a = b
  | ⟨_, _⟩, ⟨_, _⟩, rfl => rfl

/-- `new Date(time)`; `none` for an invalid date. -/
def Date.ofTime (time : ℤ) : Option Date :=
  if h : time.natAbs ≤ 8640000000000000 then some ⟨time, h⟩ else none

theorem Date.ofTime_time (date : Date) : Date.ofTime date.time = some date := dif_pos date.valid

/-- The functions that write and read a date. -/
structure DateTexts where
  /-- `toISOString`. -/
  toISOString : Date → List Char
  /-- `new Date(text)`; `none` for an invalid date. -/
  toDate : List Char → Option Date

/-- What is relied on: reading undoes writing, and a date has no other characters. -/
structure DateTexts.Specified (R : DateTexts) : Prop where
  digit_or_sign : ∀ date, ∀ c ∈ R.toISOString date, c.isDigit = true ∨ c ∈ "+-:.TZ".toList
  toDate_toISOString : ∀ date, R.toDate (R.toISOString date) = some date

/-! ### An instance -/

/-- Functions that do what is relied on, where one date has a given text. -/
def datesWith (special : Date) (specialText : List Char) : DateTexts where
  toISOString := fun date =>
    if date = special then specialText
    else if date.time < 0 then '-' :: Decimal.decimalText date.time.natAbs
    else Decimal.decimalText date.time.natAbs
  toDate := fun text =>
    if text = specialText then some special
    else
      let n : ℤ := Decimal.value (text.filter Char.isDigit)
      Date.ofTime (if text.head? = some '-' then -n else n)

/-- **Dates with a given text** are specified when it is no number. -/
theorem datesWith_specified {special : Date} {specialText : List Char}
    (hchars : ∀ c ∈ specialText, c.isDigit = true ∨ c ∈ "+-:.TZ".toList)
    (hhead : specialText.head? ≠ some '-') (hhyphen : '-' ∈ specialText) :
    (datesWith special specialText).Specified where
  digit_or_sign := fun date => by
    obtain ⟨-, hdigits, -⟩ := Decimal.whole_decimalText date.time.natAbs
    dsimp only [datesWith]
    split_ifs
    · exact hchars
    · intro c hc
      rcases List.mem_cons.1 hc with rfl | hc
      · exact .inr (by decide)
      · exact .inl (hdigits c hc)
    · exact fun c hc => .inl (hdigits c hc)
  toDate_toISOString := fun date => by
    obtain ⟨-, hdigits, -⟩ := Decimal.whole_decimalText date.time.natAbs
    have hfilter : (Decimal.decimalText date.time.natAbs).filter Char.isDigit =
        Decimal.decimalText date.time.natAbs := List.filter_eq_self.2 hdigits
    have hsigned : ('-' :: Decimal.decimalText date.time.natAbs).filter Char.isDigit =
        Decimal.decimalText date.time.natAbs := by
      rw [List.filter_cons_of_neg (by decide), hfilter]
    dsimp only [datesWith]
    by_cases hspecial : date = special
    · rw [if_pos hspecial, if_pos rfl, hspecial]
    by_cases hnegative : date.time < 0
    · have hne : '-' :: Decimal.decimalText date.time.natAbs ≠ specialText := by
        intro h
        exact hhead (h ▸ rfl)
      have htime : (-(date.time.natAbs : ℤ)) = date.time := by omega
      rw [if_neg hspecial, if_pos hnegative, if_neg hne, hsigned, Decimal.value_decimalText,
        List.head?_cons, if_pos rfl, htime, date.ofTime_time]
    · have hne : Decimal.decimalText date.time.natAbs ≠ specialText := by
        intro h
        exact absurd (hdigits '-' (h ▸ hhyphen)) (by decide)
      have hdigit : (Decimal.decimalText date.time.natAbs).head? ≠ some '-' := by
        intro h
        exact absurd (hdigits '-' (List.mem_of_head? h)) (by decide)
      have htime : (date.time.natAbs : ℤ) = date.time := by omega
      rw [if_neg hspecial, if_neg hnegative, if_neg hne, hfilter, Decimal.value_decimalText,
        if_neg hdigit, htime, date.ofTime_time]

/-- The beginning of 1970. -/
def epoch : Date where
  time := 0
  valid := Nat.zero_le _

/-- Functions that do what is relied on; the beginning of 1970 has its real text. -/
def plainDates : DateTexts := datesWith epoch "1970-01-01T00:00:00.000Z".toList

theorem plainDates_specified : plainDates.Specified :=
  datesWith_specified (Decimal.forall_of_all rfl) (by decide) (by decide)

end Calendar

end PreCommunity
