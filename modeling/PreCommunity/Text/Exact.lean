import PreCommunity.Text.Decimal
import Mathlib.Algebra.Order.Field.Rat
import Mathlib.Algebra.Order.Field.Power
import Mathlib.Tactic.Ring

/-!
# Exact decimals

A decimal is a sign, a coefficient without zeros at its end and an exponent of ten.

* `Exact`, `Exact.toRat` : a decimal and its value.
* `Exact.ofParts` : the decimal with a value; `toRat_ofParts`.
* `Exact.decimalPlaces`, `Exact.toFixed` : its decimals and its text without an exponent.
* `decimalPlaces_le_iff` : a decimal has at most `n` decimals when it is a number of units of
  `10⁻ⁿ`.
* `spells_toFixed` : the text spells this number of units.
-/

namespace PreCommunity

namespace Decimal

/-- A decimal; its coefficient has no zeros at its end. -/
structure Exact where
  negative : Bool
  coefficient : ℕ
  exponent : ℤ
  normal : coefficient % 10 ≠ 0 ∨ coefficient = 0 ∧ exponent = 0

/-- The factor of a sign. -/
def signum (negative : Bool) : ℚ := if negative then -1 else 1

/-- The value of a decimal. -/
def Exact.toRat (d : Exact) : ℚ := signum d.negative * d.coefficient * 10 ^ d.exponent

/-- A coefficient and its exponent, without at most `fuel` zeros at the end. -/
def stripZeros : ℕ → ℕ → ℤ → ℕ × ℤ
  | 0, coefficient, exponent => (coefficient, exponent)
  | fuel + 1, coefficient, exponent =>
    if coefficient % 10 = 0 then stripZeros fuel (coefficient / 10) (exponent + 1)
    else (coefficient, exponent)

theorem stripZeros_normal (fuel coefficient : ℕ) (exponent : ℤ) (hpositive : 0 < coefficient)
    (hfuel : coefficient < 10 ^ fuel) :
    (stripZeros fuel coefficient exponent).1 % 10 ≠ 0 := by
  induction fuel generalizing coefficient exponent with
  | zero =>
    rw [pow_zero] at hfuel
    omega
  | succ fuel ih =>
    rw [stripZeros]
    split_ifs with hzero
    · refine ih _ _ (by omega) ?_
      rw [pow_succ] at hfuel
      omega
    · exact hzero

theorem stripZeros_value (fuel coefficient : ℕ) (exponent : ℤ) :
    ((stripZeros fuel coefficient exponent).1 : ℚ) * 10 ^ (stripZeros fuel coefficient exponent).2 =
      coefficient * 10 ^ exponent := by
  induction fuel generalizing coefficient exponent with
  | zero => rfl
  | succ fuel ih =>
    rw [stripZeros]
    split_ifs with hzero
    · have hten : coefficient = coefficient / 10 * 10 := by omega
      have hcast : (coefficient : ℚ) = (coefficient / 10 : ℕ) * 10 := by exact_mod_cast hten
      rw [ih, hcast, zpow_add_one₀ (by decide)]
      ring
    · rfl

theorem lt_pow_length (n : ℕ) : n < 10 ^ (decimalText n).length := by
  have hpositive : 0 < (decimalText n).length := List.length_pos_of_ne_nil (whole_decimalText n).1
  exact (Nat.length_toDigits_le_iff (by decide) hpositive).1 le_rfl

/-- The decimal of these parts. -/
def Exact.ofParts (negative : Bool) (coefficient : ℕ) (exponent : ℤ) : Exact :=
  if h : coefficient = 0 then
    { negative := negative, coefficient := 0, exponent := 0, normal := .inr ⟨rfl, rfl⟩ }
  else
    { negative := negative
      coefficient := (stripZeros (decimalText coefficient).length coefficient exponent).1
      exponent := (stripZeros (decimalText coefficient).length coefficient exponent).2
      normal := .inl (stripZeros_normal _ _ _ (Nat.pos_of_ne_zero h) (lt_pow_length coefficient)) }

@[simp] theorem negative_ofParts (negative : Bool) (coefficient : ℕ) (exponent : ℤ) :
    (Exact.ofParts negative coefficient exponent).negative = negative := by
  rw [Exact.ofParts]
  split_ifs <;> rfl

/-- **The decimal of parts** has their value. -/
theorem toRat_ofParts (negative : Bool) (coefficient : ℕ) (exponent : ℤ) :
    (Exact.ofParts negative coefficient exponent).toRat =
      signum negative * coefficient * 10 ^ exponent := by
  rw [Exact.ofParts]
  split_ifs with hzero
  · rw [Exact.toRat, hzero]
    simp
  · rw [Exact.toRat, mul_assoc, stripZeros_value, mul_assoc]

/-! ### Decimals -/

/-- How many decimals it has. -/
def Exact.decimalPlaces (d : Exact) : ℕ := (-d.exponent).toNat

/-- The text without an exponent. -/
def Exact.toFixed (d : Exact) : List Char :=
  (if d.negative = true ∧ d.coefficient ≠ 0 then ['-'] else []) ++
    fixedText (d.coefficient * 10 ^ d.exponent.toNat) d.decimalPlaces

/-- The magnitude in units of `10⁻ⁿ`, when there are at most `n` decimals. -/
def Exact.units (d : Exact) (n : ℕ) : ℕ := d.coefficient * 10 ^ (d.exponent + n).toNat

theorem Exact.toRat_mul_pow (d : Exact) {n : ℕ} (h : d.decimalPlaces ≤ n) :
    d.toRat * 10 ^ n = signum d.negative * d.units n := by
  have hexponent : d.exponent + n = ((d.exponent + n).toNat : ℤ) := by
    rw [Exact.decimalPlaces] at h
    omega
  have hten : (10 : ℚ) ^ d.exponent * 10 ^ n = 10 ^ (d.exponent + n).toNat := by
    rw [← zpow_natCast (10 : ℚ) n, ← zpow_add₀ (by decide), hexponent, zpow_natCast,
      Int.toNat_natCast]
  rw [Exact.toRat, Exact.units, mul_assoc, hten]
  push_cast
  ring

/-- **The decimals** of a number are bounded exactly when it is a whole number of units. -/
theorem Exact.decimalPlaces_le_iff (d : Exact) (n : ℕ) :
    d.decimalPlaces ≤ n ↔ ∃ k : ℤ, d.toRat * 10 ^ n = k := by
  constructor
  · intro h
    refine ⟨(if d.negative then -1 else 1) * d.units n, ?_⟩
    rw [d.toRat_mul_pow h, signum]
    split_ifs <;> push_cast <;> rfl
  · rintro ⟨k, hk⟩
    by_contra hmore
    rw [Exact.decimalPlaces] at hmore
    -- the number of units would be a fraction whose denominator is a power of ten
    obtain ⟨m, hm⟩ : ∃ m : ℕ, d.exponent + n = -((m : ℤ) + 1) :=
      ⟨(-(d.exponent + n)).toNat - 1, by omega⟩
    have hten : (10 : ℚ) ^ d.exponent * 10 ^ n * 10 ^ (m + 1) = 1 := by
      rw [← zpow_natCast (10 : ℚ) n, ← zpow_add₀ (by decide), hm, ← zpow_natCast (10 : ℚ) (m + 1),
        ← zpow_add₀ (by decide)]
      push_cast
      rw [neg_add_cancel, zpow_zero]
    have hwhole : signum d.negative * d.coefficient = k * 10 ^ (m + 1) := by
      calc signum d.negative * d.coefficient
          = signum d.negative * d.coefficient * (10 ^ d.exponent * 10 ^ n * 10 ^ (m + 1)) := by
            rw [hten, mul_one]
        _ = d.toRat * 10 ^ n * 10 ^ (m + 1) := by
            rw [Exact.toRat]
            ring
        _ = k * 10 ^ (m + 1) := by rw [hk]
    have hint : (if d.negative then -(d.coefficient : ℤ) else d.coefficient) =
        k * 10 ^ (m + 1) := by
      refine Int.cast_injective (α := ℚ) ?_
      rw [signum] at hwhole
      push_cast
      rw [← hwhole]
      split_ifs
      · rw [neg_one_mul]
      · rw [one_mul]
    have hdvd : 10 ∣ d.coefficient := by
      have hdvd : (10 : ℤ) ∣ (if d.negative then -(d.coefficient : ℤ) else d.coefficient) :=
        hint ▸ Dvd.dvd.mul_left (dvd_pow_self 10 (Nat.succ_ne_zero m)) k
      split_ifs at hdvd
      · exact_mod_cast (Int.dvd_neg).1 hdvd
      · exact_mod_cast hdvd
    rcases d.normal with hnormal | ⟨-, hzero⟩
    · exact hnormal (Nat.mod_eq_zero_of_dvd hdvd)
    · omega

/-! ### Texts -/

theorem padRight_padRight {d n : ℕ} (h : d ≤ n) {text : List Char} (htext : text.length ≤ d) :
    padRight n text = padRight d text ++ List.replicate (n - d) '0' := by
  rw [padRight, padRight, List.append_assoc, List.replicate_append_replicate]
  congr 2
  omega

theorem value_append_zeros (text : List Char) (k : ℕ) :
    value (text ++ List.replicate k '0') = value text * 10 ^ k := by
  have hzeros : value (List.replicate k '0') = 0 := by
    have h := value_zeros_append k []
    rwa [List.append_nil] at h
  rw [value_append, List.length_replicate, hzeros, Nat.add_zero, Nat.mul_comm]

/-- A text spells a number with more decimals as well. -/
theorem Spells.more {c d n : ℕ} {text : List Char} (h : Spells c d text) (hn : d ≤ n) :
    Spells (c * 10 ^ (n - d)) n text := by
  obtain ⟨whole, fraction, htext, hwhole, hdigits, hlength, hlast, hvalue⟩ := h
  refine ⟨whole, fraction, htext, hwhole, hdigits, hlength.trans hn, hlast, ?_⟩
  rw [padRight_padRight hn hlength, ← List.append_assoc, value_append_zeros, hvalue]

/-- **The text** of a decimal that is not negative spells it. -/
theorem Exact.spells_toFixed (d : Exact) (hsign : d.negative = false) {n : ℕ}
    (h : d.decimalPlaces ≤ n) : Spells (d.units n) n d.toFixed := by
  have hspells := (spells_fixedText (d.coefficient * 10 ^ d.exponent.toNat) d.decimalPlaces).more h
  have hunits : d.coefficient * 10 ^ d.exponent.toNat * 10 ^ (n - d.decimalPlaces) = d.units n := by
    rw [Exact.units, Nat.mul_assoc, ← pow_add]
    congr 2
    rw [Exact.decimalPlaces] at h ⊢
    omega
  rw [Exact.toFixed, hsign, if_neg (by simp), List.nil_append, ← hunits]
  exact hspells

end Decimal

end PreCommunity
