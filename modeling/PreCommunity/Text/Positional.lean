import Mathlib.Data.List.Induction
import Mathlib.Data.List.TakeWhile
import Mathlib.Data.Nat.Digits.Lemmas
import Mathlib.Tactic.Ring

/-!
# Positional notation with the highest digit first

A number is written with a fixed count of digits, zeros in front included; without zeros in front
the digits are those of `Nat.digits` in reverse.

* `ofDigits`, `toDigits` : the number of some digits, and the digits of a number.
* `ofDigits_toDigits`, `toDigits_ofDigits` : each undoes the other.
* `toDigits_add` : the front and the back of the digits.
* `rebase` : the same number in another base, with as many zeros in front; `rebase_rebase`.
-/

namespace PreCommunity

namespace Positional

/-- The number with the digits `l`. -/
def ofDigits (b : ℕ) (l : List ℕ) : ℕ := l.foldl (fun a d => a * b + d) 0

/-- The last `n` digits of a number. -/
def toDigits (b : ℕ) : ℕ → ℕ → List ℕ
  | 0, _ => []
  | n + 1, v => toDigits b n (v / b) ++ [v % b]

variable {b c n m v : ℕ} {l l' : List ℕ}

@[simp] theorem ofDigits_nil : ofDigits b [] = 0 := rfl

@[simp] theorem ofDigits_concat (d : ℕ) : ofDigits b (l ++ [d]) = ofDigits b l * b + d := by
  simp [ofDigits]

theorem ofDigits_append : ofDigits b (l ++ l') = ofDigits b l * b ^ l'.length + ofDigits b l' := by
  induction l' using List.reverseRecOn with
  | nil => simp
  | append_singleton l' d ih =>
    rw [← List.append_assoc, ofDigits_concat, ih, ofDigits_concat, List.length_append,
      List.length_singleton, pow_succ]
    ring

theorem ofDigits_eq_reverse : ofDigits b l = Nat.ofDigits b l.reverse := by
  induction l using List.reverseRecOn with
  | nil => rfl
  | append_singleton l d ih =>
    rw [ofDigits_concat, ih, List.reverse_append, List.reverse_singleton, List.singleton_append,
      Nat.ofDigits_cons]
    ring

theorem ofDigits_lt (hl : ∀ d ∈ l, d < b) : ofDigits b l < b ^ l.length := by
  induction l using List.reverseRecOn with
  | nil => simp
  | append_singleton l d ih =>
    have hd : d < b := hl d (by simp)
    have hl' := ih fun d hd => hl d (by simp [hd])
    rw [ofDigits_concat, List.length_append, List.length_singleton, pow_succ]
    calc ofDigits b l * b + d < ofDigits b l * b + b := Nat.add_lt_add_left hd _
      _ = (ofDigits b l + 1) * b := by ring
      _ ≤ b ^ l.length * b := Nat.mul_le_mul_right b hl'

@[simp] theorem length_toDigits : (toDigits b n v).length = n := by
  induction n generalizing v with
  | zero => rfl
  | succ n ih => simp [toDigits, ih]

theorem toDigits_lt (hb : 0 < b) {d : ℕ} (hd : d ∈ toDigits b n v) : d < b := by
  induction n generalizing v with
  | zero => simp [toDigits] at hd
  | succ n ih =>
    rcases List.mem_append.1 hd with hd | hd
    · exact ih hd
    · rw [List.mem_singleton.1 hd]
      exact Nat.mod_lt v hb

/-- **The number of the digits** of a number. -/
theorem ofDigits_toDigits : ofDigits b (toDigits b n v) = v % b ^ n := by
  induction n generalizing v with
  | zero => simp [toDigits, Nat.mod_one]
  | succ n ih =>
    rw [toDigits, ofDigits_concat, ih, pow_succ', Nat.mod_mul]
    ring

/-- **The digits of the number** with some digits. -/
theorem toDigits_ofDigits (hl : ∀ d ∈ l, d < b) : toDigits b l.length (ofDigits b l) = l := by
  induction l using List.reverseRecOn with
  | nil => rfl
  | append_singleton l d ih =>
    have hd : d < b := hl d (by simp)
    have hdiv : (ofDigits b l * b + d) / b = ofDigits b l := by
      rw [Nat.mul_comm, Nat.mul_add_div (Nat.zero_lt_of_lt hd), Nat.div_eq_of_lt hd, Nat.add_zero]
    rw [ofDigits_concat, List.length_append, List.length_singleton, toDigits, hdiv,
      ih fun d hd => hl d (by simp [hd]), Nat.mul_add_mod', Nat.mod_eq_of_lt hd]

/-- As many digits with the same number are the same. -/
theorem ofDigits_inj (hl : ∀ d ∈ l, d < b) (hl' : ∀ d ∈ l', d < b) (hlength : l.length = l'.length)
    (h : ofDigits b l = ofDigits b l') : l = l' := by
  rw [← toDigits_ofDigits hl, ← toDigits_ofDigits hl', hlength, h]

/-- The front of the digits, and their back. -/
theorem toDigits_add : toDigits b (m + n) v = toDigits b m (v / b ^ n) ++ toDigits b n v := by
  induction n generalizing v with
  | zero => simp [toDigits]
  | succ n ih =>
    rw [← Nat.add_assoc, toDigits, ih, toDigits, List.append_assoc, Nat.div_div_eq_div_mul,
      pow_succ']

/-- A number without zeros in front. -/
theorem reverse_digits_eq (hb : 1 < b) :
    (Nat.digits b v).reverse = toDigits b (Nat.digits b v).length v := by
  have hlt : ∀ d ∈ (Nat.digits b v).reverse, d < b :=
    fun d hd => Nat.digits_lt_base hb (List.mem_reverse.1 hd)
  have h := toDigits_ofDigits hlt
  rw [ofDigits_eq_reverse, List.reverse_reverse, Nat.ofDigits_digits, List.length_reverse] at h
  exact h.symm

/-! ### Another base -/

/-- The digits in base `c` of the number with the digits `l` in base `b`, after the zeros in front
of `l`. -/
def rebase (b c : ℕ) (l : List ℕ) : List ℕ :=
  l.takeWhile (· = 0) ++ (Nat.digits c (ofDigits b l)).reverse

theorem takeWhile_zero_eq : l.takeWhile (· = 0) = List.replicate (l.takeWhile (· = 0)).length 0 :=
  List.eq_replicate_iff.2 ⟨rfl, fun d hd => by simpa using List.mem_takeWhile_imp hd⟩

theorem ofDigits_zeros : ofDigits b (List.replicate n 0 ++ l) = ofDigits b l := by
  have hzero : ofDigits b (List.replicate n 0) = 0 := by
    induction n with
    | zero => rfl
    | succ n ih => rw [List.replicate_succ', ofDigits_concat, ih, Nat.zero_mul]
  rw [ofDigits_append, hzero, Nat.zero_mul, Nat.zero_add]

/-- Digits are the zeros in front and those without zeros in front. -/
theorem rebase_self (hb : 1 < b) (hl : ∀ d ∈ l, d < b) : rebase b b l = l := by
  induction l with
  | nil => simp [rebase]
  | cons d l ih =>
    by_cases hd : d = 0
    · subst hd
      have hzero : ofDigits b (0 :: l) = ofDigits b l := ofDigits_zeros (n := 1)
      have hrest := ih fun x hx => hl x (List.mem_cons_of_mem 0 hx)
      unfold rebase at hrest ⊢
      rw [hzero, List.takeWhile_cons_of_pos (by simp), List.cons_append, hrest]
    · unfold rebase
      rw [List.takeWhile_cons_of_neg (by simp [hd]), List.nil_append, ofDigits_eq_reverse,
        Nat.digits_ofDigits b hb, List.reverse_reverse]
      · exact fun x hx => hl x (List.mem_reverse.1 hx)
      · intro hne
        simpa using hd

theorem rebase_lt (hc : 1 < c) : ∀ d ∈ rebase b c l, d < c := by
  intro d hd
  rcases List.mem_append.1 hd with hd | hd
  · rw [takeWhile_zero_eq] at hd
    rw [List.eq_of_mem_replicate hd]
    exact Nat.lt_trans Nat.zero_lt_one hc
  · exact Nat.digits_lt_base hc (List.mem_reverse.1 hd)

theorem takeWhile_rebase : (rebase b c l).takeWhile (· = 0) = l.takeWhile (· = 0) := by
  unfold rebase
  have hzeros : ∀ d ∈ l.takeWhile (· = 0), decide (d = 0) = true := by
    intro d hd
    exact List.mem_takeWhile_imp (p := fun x => decide (x = 0)) hd
  rw [List.takeWhile_append_of_pos hzeros]
  have hnil : (Nat.digits c (ofDigits b l)).reverse.takeWhile (· = 0) = [] := by
    cases h : (Nat.digits c (ofDigits b l)).reverse with
    | nil => rfl
    | cons d rest =>
      have hne : Nat.digits c (ofDigits b l) ≠ [] := by
        intro hnil
        simp [hnil] at h
      have hzero : ofDigits b l ≠ 0 := by
        intro hzero
        simp [hzero] at hne
      have hlast := Nat.getLast_digit_ne_zero c hzero
      have hd : (Nat.digits c (ofDigits b l)).getLast hne = d := by
        rw [List.getLast_eq_head_reverse]
        simp [h]
      rw [List.takeWhile_cons_of_neg]
      simpa [← hd] using hlast
  rw [hnil, List.append_nil]

theorem ofDigits_rebase : ofDigits c (rebase b c l) = ofDigits b l := by
  unfold rebase
  rw [takeWhile_zero_eq, ofDigits_zeros, ofDigits_eq_reverse, List.reverse_reverse,
    Nat.ofDigits_digits]

/-- **Changing the base back.** -/
theorem rebase_rebase (hb : 1 < b) (hl : ∀ d ∈ l, d < b) : rebase c b (rebase b c l) = l := by
  conv_rhs => rw [← rebase_self hb hl]
  rw [rebase, takeWhile_rebase, ofDigits_rebase]
  rfl

end Positional

end PreCommunity
