import Mathlib.Algebra.Group.Nat.Defs
import Mathlib.Data.List.DropRight
import Mathlib.Data.Nat.Notation

/-!
# Decimal texts

A whole number is spelled by its digits, and a fixed-point number with `d` decimals by its whole
part and a fraction without trailing zeros.

* `decimalText` : the text of a whole number.
* `fixedText` : the text of a number of units of `10⁻ᵈ`.
* `Spells` : what such a text is; `spells_fixedText`.
-/

namespace PreCommunity

namespace Decimal

/-- The decimal text of a whole number. -/
def decimalText (n : ℕ) : List Char := Nat.toDigits 10 n

/-- The number that digits spell. -/
def value (text : List Char) : ℕ := Nat.ofDigitChars 10 text 0

/-- Digits without a superfluous zero in front. -/
def Whole (text : List Char) : Prop :=
  text ≠ [] ∧ (∀ c ∈ text, c.isDigit = true) ∧ (text.head? = some '0' → text = ['0'])

/-- The text with zeros at its end, at least `d` characters long. -/
def padRight (d : ℕ) (text : List Char) : List Char :=
  text ++ List.replicate (d - text.length) '0'

/-- The text with zeros in front, at least `d` characters long. -/
def padLeft (d : ℕ) (text : List Char) : List Char :=
  List.replicate (d - text.length) '0' ++ text

/-- The text without the zeros at its end. -/
def trimRight (text : List Char) : List Char := text.rdropWhile fun c => c = '0'

/-- A whole part and a fraction. -/
def join (whole fraction : List Char) : List Char :=
  whole ++ if fraction = [] then [] else '.' :: fraction

/-- The text of a number of units of `10⁻ᵈ`. -/
def fixedText (n d : ℕ) : List Char :=
  let display := padLeft d (decimalText n)
  let whole := display.take (display.length - d)
  let fraction := trimRight (display.drop (display.length - d))
  join (if whole = [] then ['0'] else whole) fraction

/-- The text is the exact decimal of `n` units of `10⁻ᵈ`, without trailing zeros. -/
def Spells (n d : ℕ) (text : List Char) : Prop :=
  ∃ whole fraction, text = join whole fraction ∧ Whole whole ∧
    (∀ c ∈ fraction, c.isDigit = true) ∧ fraction.length ≤ d ∧ fraction.getLast? ≠ some '0' ∧
    value (whole ++ padRight d fraction) = n

example : fixedText 250000000000000000 18 = "0.25".toList := by decide

/-- A condition on the characters of a text can be tested. -/
theorem forall_of_all {P : Char → Prop} [DecidablePred P] {text : List Char}
    (h : (text.all fun c => decide (P c)) = true) : ∀ c ∈ text, P c := fun c hc =>
  of_decide_eq_true (List.all_eq_true.1 h c hc)

/-! ### Whole numbers -/

theorem value_append (a b : List Char) : value (a ++ b) = 10 ^ b.length * value a + value b := by
  unfold value
  rw [Nat.ofDigitChars_append, Nat.ofDigitChars_eq_ofDigitChars_zero]

@[simp] theorem value_decimalText (n : ℕ) : value (decimalText n) = n :=
  Nat.ofDigitChars_ten_toDigits

@[simp] theorem value_zeros_append (k : ℕ) (text : List Char) :
    value (List.replicate k '0' ++ text) = value text := by
  rw [value_append, value, Nat.ofDigitChars_replicate_zero]
  simp

theorem value_zero_cons (text : List Char) : value ('0' :: text) = value text :=
  value_zeros_append 1 text

theorem head?_decimalText {n : ℕ} (hn : 0 < n) : (decimalText n).head? ≠ some '0' := by
  unfold decimalText
  induction n using Nat.strongRecOn with
  | ind n ih =>
    by_cases hlt : n < 10
    · rw [Nat.toDigits_of_lt_base hlt]
      simp only [List.head?_cons, ne_eq, Option.some.injEq, Nat.digitChar_eq_zero]
      exact hn.ne'
    · have hle : 10 ≤ n := Nat.not_lt.1 hlt
      have hquotient : 0 < n / 10 := Nat.div_pos hle (by decide)
      rw [Nat.toDigits_of_base_le (by decide) hle,
        List.head?_append_of_ne_nil _ Nat.toDigits_ne_nil]
      exact ih _ (Nat.div_lt_self hn (by decide)) hquotient

/-- The text of a whole number has no superfluous zero. -/
theorem whole_decimalText (n : ℕ) : Whole (decimalText n) := by
  refine ⟨Nat.toDigits_ne_nil, fun c hc => ?_, fun hhead => ?_⟩
  · exact Nat.isDigit_of_mem_toDigits (by decide) le_rfl hc
  · obtain rfl | hn := Nat.eq_zero_or_pos n
    · rfl
    · exact absurd hhead (head?_decimalText hn)

/-! ### Fractions -/

theorem trimRight_append (text : List Char) :
    ∃ k, text = trimRight text ++ List.replicate k '0' := by
  induction text using List.reverseRecOn with
  | nil => exact ⟨0, rfl⟩
  | append_singleton text c ih =>
    unfold trimRight at ih ⊢
    by_cases hc : c = '0'
    · subst hc
      obtain ⟨k, hk⟩ := ih
      rw [List.rdropWhile_concat_pos _ _ _ (by simp)]
      refine ⟨k + 1, ?_⟩
      rw [List.replicate_succ', ← List.append_assoc, ← hk]
    · rw [List.rdropWhile_concat_neg _ _ _ (by simpa using hc)]
      exact ⟨0, by simp⟩

theorem padRight_trimRight {d : ℕ} {text : List Char} (h : text.length = d) :
    padRight d (trimRight text) = text := by
  obtain ⟨k, hk⟩ := trimRight_append text
  have hlength : k = d - (trimRight text).length := by
    have := congrArg List.length hk
    rw [List.length_append, List.length_replicate] at this
    omega
  unfold padRight
  rw [← hlength, ← hk]

theorem getLast?_trimRight (text : List Char) : (trimRight text).getLast? ≠ some '0' := by
  induction text using List.reverseRecOn with
  | nil => simp [trimRight]
  | append_singleton text c ih =>
    unfold trimRight at ih ⊢
    by_cases hc : c = '0'
    · rwa [List.rdropWhile_concat_pos _ _ _ (by simpa using hc)]
    · rw [List.rdropWhile_concat_neg _ _ _ (by simpa using hc)]
      simpa using hc

theorem mem_of_mem_trimRight {text : List Char} {c : Char} (h : c ∈ trimRight text) : c ∈ text := by
  obtain ⟨k, hk⟩ := trimRight_append text
  rw [hk]
  exact List.mem_append_left _ h

/-- **The text of a fixed-point number** spells it exactly. -/
theorem spells_fixedText (n d : ℕ) : Spells n d (fixedText n d) := by
  have hlength : d ≤ (padLeft d (decimalText n)).length := by
    unfold padLeft
    rw [List.length_append, List.length_replicate]
    omega
  have hvalue : value (padLeft d (decimalText n)) = n := by
    unfold padLeft
    rw [value_zeros_append, value_decimalText]
  have hdigits : ∀ c ∈ padLeft d (decimalText n), c.isDigit = true := fun c hc => by
    obtain hc | hc := List.mem_append.1 hc
    · rw [List.eq_of_mem_replicate hc]
      rfl
    · exact (whole_decimalText n).2.1 c hc
  -- there is a whole part only when nothing was padded
  have hpadded : (padLeft d (decimalText n)).length - d ≠ 0 →
      padLeft d (decimalText n) = decimalText n := fun h => by
    have hlt : d - (decimalText n).length = 0 := by
      unfold padLeft at h
      rw [List.length_append, List.length_replicate] at h
      omega
    unfold padLeft
    rw [hlt, List.replicate_zero, List.nil_append]
  unfold fixedText
  simp only
  generalize hdisplay : padLeft d (decimalText n) = display at hlength hvalue hdigits hpadded
  have hdrop : (display.drop (display.length - d)).length = d := by
    rw [List.length_drop]
    omega
  refine ⟨_, _, rfl, ?_, fun c hc => ?_, ?_, getLast?_trimRight _, ?_⟩
  · split_ifs with hnone
    · exact ⟨by simp, by simp, fun _ => rfl⟩
    · have hpositive : display.length - d ≠ 0 := fun hzero => hnone (by rw [hzero, List.take_zero])
      have hwhole := whole_decimalText n
      rw [← hpadded hpositive] at hwhole
      refine ⟨hnone, fun c hc => hdigits c (List.mem_of_mem_take hc), fun hhead => ?_⟩
      rw [List.head?_take, if_neg hpositive] at hhead
      have hzero := hwhole.2.2 hhead
      rw [hzero] at hnone hpositive ⊢
      cases d with
      | zero => rfl
      | succ d => simp at hpositive
  · exact hdigits c (List.mem_of_mem_drop (mem_of_mem_trimRight hc))
  · obtain ⟨k, hk⟩ := trimRight_append (display.drop (display.length - d))
    have := congrArg List.length hk
    rw [List.length_append] at this
    omega
  · rw [padRight_trimRight hdrop]
    split_ifs with hnone
    · rw [List.singleton_append, value_zero_cons]
      have hall := List.take_append_drop (display.length - d) display
      rw [hnone, List.nil_append] at hall
      rw [hall, hvalue]
    · rw [List.take_append_drop, hvalue]

end Decimal

end PreCommunity
