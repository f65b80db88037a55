import Mathlib.Data.List.Sort
import PreCommunity.Market.Schema

/-!
# The ranking of positions

The positions of a keyword are ranked by their bid, then by their seniority, and at last by the
address of the staker; a position that may not be charged comes after all that may.

* `compareAdStakePositions` : the comparison of the source.
* `Outranks` : the order that it decides; a strict order, total on different stakers.
* `ranked` : positions in this order.
-/

namespace PreCommunity

namespace Ads

open Market

/-- `compareAdStakePositions`: a negative, zero or positive number. -/
def compareAdStakePositions (left right : StakePosition) : Ordering :=
  if left.eligible ≠ right.eligible then if left.eligible then .lt else .gt
  else if right.bidUsdRaw ≠ left.bidUsdRaw then
    if left.bidUsdRaw < right.bidUsdRaw then .gt else .lt
  else if left.stakeSinceBlock ≠ right.stakeSinceBlock then
    if left.stakeSinceBlock < right.stakeSinceBlock then .lt else .gt
  else if left.stakeSinceLogIndex ≠ right.stakeSinceLogIndex then
    if left.stakeSinceLogIndex < right.stakeSinceLogIndex then .lt else .gt
  else if left.stakerAddress < right.stakerAddress then .lt
  else if right.stakerAddress < left.stakerAddress then .gt
  else .eq

/-- The first position comes before the second. -/
def Outranks (p q : StakePosition) : Prop := compareAdStakePositions p q = .lt

instance : DecidableRel Outranks := fun _ _ => inferInstanceAs (Decidable (_ = _))

/-- The order, written out: the bid, the seniority, the address. -/
def Beats (p q : StakePosition) : Prop :=
  q.bidUsdRaw < p.bidUsdRaw ∨ p.bidUsdRaw = q.bidUsdRaw ∧
    (p.stakeSinceBlock < q.stakeSinceBlock ∨ p.stakeSinceBlock = q.stakeSinceBlock ∧
      (p.stakeSinceLogIndex < q.stakeSinceLogIndex ∨
        p.stakeSinceLogIndex = q.stakeSinceLogIndex ∧ p.stakerAddress < q.stakerAddress))

section

variable {p q r : StakePosition}

/-! ### The order -/

/-- **The comparison** decides the order. -/
theorem outranks_iff : Outranks p q ↔
    (p.eligible = true ∧ q.eligible = false) ∨ p.eligible = q.eligible ∧ Beats p q := by
  unfold Outranks compareAdStakePositions Beats
  by_cases heligible : p.eligible = q.eligible
  · rw [if_neg (not_not.2 heligible)]
    have hboth : ¬(p.eligible = true ∧ q.eligible = false) := by
      rintro ⟨hp, hq⟩
      simp [hp, hq] at heligible
    simp only [heligible, true_and]
    dsimp only [Address]
    split_ifs <;> simp <;> omega
  · rw [if_pos heligible]
    cases hp : p.eligible <;> cases hq : q.eligible <;> simp_all

/-- Swapping the positions swaps the outcome. -/
theorem compare_swap : compareAdStakePositions p q = .gt ↔ Outranks q p := by
  unfold Outranks compareAdStakePositions
  by_cases heligible : p.eligible = q.eligible
  · rw [if_neg (not_not.2 heligible), if_neg (not_not.2 heligible.symm)]
    dsimp only [Address]
    split_ifs <;> simp <;> omega
  · rw [if_pos heligible, if_pos (Ne.symm heligible)]
    cases hp : p.eligible <;> cases hq : q.eligible <;> simp_all

theorem Outranks.irrefl : ¬Outranks p p := by
  rw [outranks_iff]
  unfold Beats
  rintro (⟨htrue, hfalse⟩ | ⟨-, h⟩)
  · rw [htrue] at hfalse
    cases hfalse
  · dsimp only [Address] at h
    omega

theorem Outranks.trans (h : Outranks p q) (h' : Outranks q r) : Outranks p r := by
  rw [outranks_iff] at *
  unfold Beats at *
  dsimp only [Address] at *
  obtain ⟨hp, hq⟩ | ⟨hpq, h⟩ := h
  · obtain ⟨hq', -⟩ | ⟨hqr, -⟩ := h'
    · rw [hq] at hq'
      cases hq'
    · exact .inl ⟨hp, hqr ▸ hq⟩
  · obtain ⟨hq, hr⟩ | ⟨hqr, h'⟩ := h'
    · exact .inl ⟨hpq.trans hq, hr⟩
    · exact .inr ⟨hpq.trans hqr, by omega⟩

theorem Outranks.asymm (h : Outranks p q) : ¬Outranks q p := fun h' => Outranks.irrefl (h.trans h')

/-- Two positions of different stakers are never tied. -/
theorem outranks_total (hne : p.stakerAddress ≠ q.stakerAddress) :
    Outranks p q ∨ Outranks q p := by
  rw [outranks_iff, outranks_iff]
  unfold Beats
  dsimp only [Address] at *
  cases hp : p.eligible <;> cases hq : q.eligible <;> simp <;> omega

end

end Ads

end PreCommunity
