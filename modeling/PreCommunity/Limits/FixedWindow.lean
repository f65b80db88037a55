import Mathlib.Data.Nat.Notation
import Mathlib.Tactic.SplitIfs
import Mathlib.Data.Bool.Basic

/-!
# Fixed windows

A counter that admits at most `limit` requests in a window of `width`.  A window begins with the
first request after the last one has ended, so two windows may follow each other closely, and an
interval of the same width may see almost two of them.

* `Window`, `request` : a counter and a request at some time.
* `Forgets` : windows that have ended may be forgotten.
* `Bounded` : what has been admitted in an interval, in terms of the present window.
* `Bounded.request`, `Bounded.of_forgets` : one request keeps it, and so does forgetting a window.
* `Bounded.le` : never more than twice the limit, less one.
-/

namespace PreCommunity

namespace Limits

/-- A window: how many requests it has admitted, and when it ends. -/
structure Window where
  count : ℕ
  resetAt : ℕ
deriving DecidableEq, Repr

/-- The window has ended, or there is none. -/
def ended (now : ℕ) (window : Option Window) : Bool := window.all fun window => window.resetAt ≤ now

/-- The two windows are the same, or one has ended and been forgotten. -/
def Forgets (now : ℕ) (window window' : Option Window) : Prop :=
  window' = window ∨ window' = none ∧ ended now window = true

/-- A request: the window after it, and whether it is admitted. -/
def request (width limit now : ℕ) (window : Option Window) : Option Window × Bool :=
  match window with
  | none => (some ⟨1, now + width⟩, true)
  | some window =>
    if window.resetAt ≤ now then (some ⟨1, now + width⟩, true)
    else if window.count ≥ limit then (some window, false)
    else (some { window with count := window.count + 1 }, true)

/-- The interval of this width that begins at `t`. -/
def inInterval (width t now : ℕ) : Bool := t ≤ now ∧ now < t + width

section

variable {width limit now now' : ℕ} {a b c : Option Window}

theorem ended_mono (hnow : now ≤ now') (h : ended now a = true) : ended now' a = true := by
  cases a with
  | none => rfl
  | some window =>
    have hreset : window.resetAt ≤ now := of_decide_eq_true h
    exact decide_eq_true (Nat.le_trans hreset hnow)

theorem Forgets.trans (hnow : now ≤ now') (h : Forgets now a b) (h' : Forgets now' b c) :
    Forgets now' a c := by
  rcases h with rfl | ⟨rfl, hended⟩
  · exact h'
  · rcases h' with rfl | ⟨rfl, -⟩ <;> exact .inr ⟨rfl, ended_mono hnow hended⟩

/-- **A window that has ended is as good as none.** -/
theorem Forgets.request_eq (hnow : now ≤ now') (h : Forgets now a b) :
    request width limit now' b = request width limit now' a := by
  rcases h with rfl | ⟨rfl, hended⟩
  · rfl
  · cases a with
    | none => rfl
    | some window => exact (if_pos (of_decide_eq_true (ended_mono hnow hended))).symm

end

/-- The present window, and what it has admitted in the interval that begins at `t`. -/
def Current (width limit t admitted : ℕ) (window : Window) (now : ℕ) : Prop :=
  0 < window.count ∧ window.count ≤ limit ∧ width ≤ window.resetAt ∧
    window.resetAt ≤ now + width ∧
    -- the window's first request came before the interval
    (window.resetAt < t + width → admitted < window.count) ∧
    -- the window began in the interval, and the one before it in front of it
    (t + width ≤ window.resetAt → window.resetAt < t + width + width →
      admitted < window.count + limit)

/-- **How many requests an interval has seen**, by the present window. -/
structure Bounded (width limit t admitted : ℕ) (window : Option Window) (now : ℕ) : Prop where
  before : now < t → admitted = 0
  le : admitted < 2 * limit
  -- a window that is forgotten has seen at most `limit - 1` requests of the interval
  current : window.elim (now < t + width → admitted < limit) fun window =>
    Current width limit t admitted window now

namespace Bounded

variable {width limit t admitted now now' : ℕ} {window : Option Window}

/-- Before the first request. -/
theorem start (hlimit : 0 < limit) : Bounded width limit t 0 none now :=
  ⟨fun _ => rfl, by omega, fun _ => hlimit⟩

/-- Fewer requests than were admitted. -/
theorem mono (h : Bounded width limit t admitted window now) {fewer : ℕ} (hle : fewer ≤ admitted) :
    Bounded width limit t fewer window now := by
  refine ⟨fun hlt => ?_, Nat.lt_of_le_of_lt hle h.le, ?_⟩
  · rw [h.before hlt] at hle
    exact Nat.le_zero.1 hle
  · cases window with
    | none => exact fun hlt => Nat.lt_of_le_of_lt hle (h.current hlt)
    | some window =>
      obtain ⟨hpos, hcount, hwidth, hreset, hfirst, hsecond⟩ := h.current
      exact ⟨hpos, hcount, hwidth, hreset, fun hlt => Nat.lt_of_le_of_lt hle (hfirst hlt),
        fun hge hlt => Nat.lt_of_le_of_lt hle (hsecond hge hlt)⟩

/-- A window that has ended has seen at most `limit - 1` requests of an interval that goes on. -/
theorem lt_of_ended (h : Bounded width limit t admitted window now) (hnow : now ≤ now')
    (hended : ended now' window = true) : now' < t + width → admitted < limit := by
  intro hlt
  cases window with
  | none => exact h.current (Nat.lt_of_le_of_lt hnow hlt)
  | some window =>
    obtain ⟨-, hcount, -, -, hfirst, -⟩ := h.current
    have hreset : window.resetAt ≤ now' := of_decide_eq_true hended
    have hseen : admitted < window.count := hfirst (by omega)
    omega

/-- **A window that has ended can be forgotten.** -/
theorem forget (h : Bounded width limit t admitted window now) (hnow : now ≤ now')
    (hended : ended now' window = true) : Bounded width limit t admitted none now' :=
  ⟨fun hlt => h.before (by omega), h.le, h.lt_of_ended hnow hended⟩

/-- Time passes. -/
theorem later (h : Bounded width limit t admitted window now) (hnow : now ≤ now') :
    Bounded width limit t admitted window now' := by
  refine ⟨fun hlt => h.before (by omega), h.le, ?_⟩
  cases window with
  | none => exact fun hlt => h.current (Nat.lt_of_le_of_lt hnow hlt)
  | some window =>
    obtain ⟨hpos, hcount, hwidth, hreset, hfirst, hsecond⟩ := h.current
    exact ⟨hpos, hcount, hwidth, by omega, hfirst, hsecond⟩

/-- **A window that is the same, or has ended and been forgotten.** -/
theorem of_forgets (h : Bounded width limit t admitted window now) (hnow : now ≤ now')
    {window' : Option Window} (hforgets : Forgets now' window window') :
    Bounded width limit t admitted window' now' := by
  rcases hforgets with rfl | ⟨rfl, hended⟩
  · exact h.later hnow
  · exact h.forget hnow hended

/-- A new window begins. -/
theorem renew (hlimit : 0 < limit) (h : Bounded width limit t admitted window now)
    (hnow : now ≤ now') (hended : ended now' window = true) :
    Bounded width limit t (admitted + (inInterval width t now').toNat)
      (some ⟨1, now' + width⟩) now' := by
  have hlt := h.lt_of_ended hnow hended
  have hle := h.le
  have hbefore := h.before
  have hsee : (inInterval width t now').toNat = if t ≤ now' ∧ now' < t + width then 1 else 0 := by
    by_cases hin : t ≤ now' ∧ now' < t + width <;> simp [inInterval, hin]
  rw [hsee]
  refine ⟨fun hearly => ?_, ?_, Nat.one_pos, hlimit, Nat.le_add_left _ _, Nat.le_refl _, ?_, ?_⟩
  · rw [hbefore (by omega), if_neg (by omega)]
  · split_ifs with hin <;> omega
  · intro hearly
    dsimp only at hearly ⊢
    rw [hbefore (by omega), if_neg (by omega)]
    omega
  · intro hlate hsoon
    dsimp only at hlate hsoon ⊢
    split_ifs with hin <;> omega

/-- **A request** keeps the bound. -/
theorem request (hlimit : 0 < limit) (h : Bounded width limit t admitted window now)
    (hnow : now ≤ now') :
    Bounded width limit t (admitted + ((Limits.request width limit now' window).2 &&
      inInterval width t now').toNat) (Limits.request width limit now' window).1 now' := by
  cases window with
  | none => exact h.renew hlimit hnow rfl
  | some window =>
    by_cases hended : window.resetAt ≤ now'
    · have heq : Limits.request width limit now' (some window) =
          (some ⟨1, now' + width⟩, true) := if_pos hended
      rw [heq, Bool.true_and]
      exact h.renew hlimit hnow (decide_eq_true hended)
    by_cases hfull : window.count ≥ limit
    · have heq : Limits.request width limit now' (some window) = (some window, false) := by
        simp only [Limits.request, if_neg hended, if_pos hfull]
      rw [heq]
      exact h.later hnow
    · have heq : Limits.request width limit now' (some window) =
          (some { window with count := window.count + 1 }, true) := by
        simp only [Limits.request, if_neg hended, if_neg hfull]
      rw [heq, Bool.true_and]
      obtain ⟨hbefore, hle, hpos, hcount, hwidth, hreset, hfirst, hsecond⟩ := h
      have hsee : (inInterval width t now').toNat =
          if t ≤ now' ∧ now' < t + width then 1 else 0 := by
        by_cases hin : t ≤ now' ∧ now' < t + width <;> simp [inInterval, hin]
      rw [hsee]
      refine ⟨fun hearly => ?_, ?_, Nat.succ_pos _, ?_, hwidth, ?_, ?_, ?_⟩
      · rw [hbefore (by omega), if_neg (by omega)]
      · split_ifs with hin
        · rcases Nat.lt_or_ge window.resetAt (t + width) with hlt | hge
          · have hseen := hfirst hlt
            omega
          · have hseen := hsecond hge (by omega)
            omega
        · exact hle
      · show window.count + 1 ≤ limit
        omega
      · show window.resetAt ≤ now' + width
        omega
      · intro hlt
        have hseen : admitted < window.count := hfirst hlt
        show _ < window.count + 1
        split_ifs <;> omega
      · intro hge hlt
        have hseen : admitted < window.count + limit := hsecond hge hlt
        show _ < window.count + 1 + limit
        split_ifs <;> omega

end Bounded

end Limits

end PreCommunity
