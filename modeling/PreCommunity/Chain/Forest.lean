import Mathlib.Logic.Function.Iterate
import Mathlib.Data.Nat.Notation

/-!
# Block trees and canonical chains

Blocks are named by their hashes, so a hash fixes the number of its block and all its ancestors.
A node follows one branch of the tree, the canonical chain below its tip; a reorganisation moves
the tip to another branch and orphans the blocks it leaves, for good.

* `Forest` : a tree of blocks; `Forest.ancestor h n` is the block number `n` below `h`.
* `ChainState`, `Forest.Canonical` : a tip, the orphaned blocks, and the chain below the tip.
* `Forest.Follows` : how a node may move.
* `Forest.Agrees` : *if `h` is canonical, so is `h'`*, in a form that no move can break.
-/

namespace PreCommunity

namespace Chain

/-- A tree of blocks. -/
structure Forest (H : Type) where
  /-- The block before this one; the first block is its own parent. -/
  parent : H → H
  /-- The height of a block. -/
  number : H → ℕ
  number_parent (h : H) : number (parent h) = number h - 1

/-- What a node follows: the tip of the canonical chain, and the blocks that were canonical and
are not any more. -/
structure ChainState (H : Type) where
  /-- The newest block of the canonical chain. -/
  tip : H
  /-- The blocks that reorganisations removed. -/
  orphaned : List H

namespace Forest

variable {H : Type} (F : Forest H)

/-- The block number `n` on the branch of `h`. -/
def ancestor (h : H) (n : ℕ) : H := F.parent^[F.number h - n] h

/-- The block is on the chain below the tip. -/
def Canonical (c : ChainState H) (h : H) : Prop :=
  F.number h ≤ F.number c.tip ∧ F.ancestor c.tip (F.number h) = h

instance [DecidableEq H] (c : ChainState H) (h : H) : Decidable (F.Canonical c h) :=
  inferInstanceAs (Decidable (_ ∧ _))

/-- The canonical block number `n`, if the chain is that long. -/
def canonical (c : ChainState H) (n : ℕ) : Option H :=
  if n ≤ F.number c.tip then some (F.ancestor c.tip n) else none

/-- No orphaned block is canonical. -/
def Consistent (c : ChainState H) : Prop := ∀ h ∈ c.orphaned, ¬F.Canonical c h

/-- The node moved from `c` to `c'`: what was canonical still is, or is orphaned. -/
structure Follows (c c' : ChainState H) : Prop where
  orphaned : ∀ h ∈ c.orphaned, h ∈ c'.orphaned
  canonical : ∀ h, F.Canonical c h → F.Canonical c' h ∨ h ∈ c'.orphaned

/-- The block was canonical at some time: it still is, or it is orphaned. -/
def Known (c : ChainState H) (h : H) : Prop := F.Canonical c h ∨ h ∈ c.orphaned

/-- If `h` is canonical then block number `n` is `h'`, unless `h` is too low to tell. -/
def Agrees (c : ChainState H) (h : H) (n : ℕ) (h' : H) : Prop :=
  h ∈ c.orphaned ∨ (n ≤ F.number h → F.ancestor h n = h')

variable {F} {c c' c'' : ChainState H} {h h' : H} {n m : ℕ}

theorem number_iterate_parent (k : ℕ) (h : H) : F.number (F.parent^[k] h) = F.number h - k := by
  induction k with
  | zero => simp
  | succ k ih => rw [Function.iterate_succ_apply', F.number_parent, ih, Nat.sub_sub]

theorem number_ancestor (hn : n ≤ F.number h) : F.number (F.ancestor h n) = n := by
  rw [ancestor, number_iterate_parent]
  omega

@[simp] theorem ancestor_self (h : H) : F.ancestor h (F.number h) = h := by
  simp [ancestor]

theorem ancestor_ancestor (hm : m ≤ n) (hn : n ≤ F.number h) :
    F.ancestor (F.ancestor h n) m = F.ancestor h m := by
  rw [ancestor, number_ancestor hn, ancestor, ancestor, ← Function.iterate_add_apply]
  congr 2
  omega

theorem Canonical.of_ancestor (hh : F.Canonical c h) (hn : n ≤ F.number h) :
    F.Canonical c (F.ancestor h n) := by
  have hnum := number_ancestor hn
  refine ⟨by rw [hnum]; exact Nat.le_trans hn hh.1, ?_⟩
  rw [hnum, ← ancestor_ancestor hn hh.1, hh.2]

/-- Two canonical blocks are on one branch. -/
theorem Canonical.ancestor_eq (hh : F.Canonical c h) (hh' : F.Canonical c h')
    (hle : F.number h' ≤ F.number h) : F.ancestor h (F.number h') = h' := by
  rw [← hh.2, ancestor_ancestor hle hh.1, hh'.2]

theorem Canonical.eq_of_number (hh : F.Canonical c h) (hh' : F.Canonical c h')
    (heq : F.number h = F.number h') : h = h' := by
  rw [← hh.ancestor_eq hh' (Nat.le_of_eq heq.symm), ← heq, ancestor_self]

theorem canonical_eq_some : F.canonical c n = some h ↔ F.Canonical c h ∧ F.number h = n := by
  unfold canonical
  constructor
  · intro heq
    split at heq
    · obtain rfl := Option.some.inj heq
      have hnum := number_ancestor (F := F) (h := c.tip) ‹_›
      exact ⟨⟨by rw [hnum]; assumption, by rw [hnum]⟩, hnum⟩
    · cases heq
  · rintro ⟨hh, rfl⟩
    rw [if_pos hh.1, hh.2]

/-! ### Moves of the node -/

theorem Follows.refl (c : ChainState H) : F.Follows c c := ⟨fun _ => id, fun _ => .inl⟩

theorem Follows.trans (h₁ : F.Follows c c') (h₂ : F.Follows c' c'') : F.Follows c c'' :=
  ⟨fun h hh => h₂.orphaned h (h₁.orphaned h hh), fun h hh => (h₁.canonical h hh).elim
    (h₂.canonical h) fun ho => .inr (h₂.orphaned h ho)⟩

theorem Follows.known (hf : F.Follows c c') (hh : F.Known c h) : F.Known c' h :=
  hh.elim (hf.canonical h) fun ho => .inr (hf.orphaned h ho)

/-- A block that is canonical was not orphaned before. -/
theorem Follows.not_orphaned (hf : F.Follows c c') (hc : F.Consistent c')
    (hh : F.Canonical c' h) : h ∉ c.orphaned := fun ho => hc h (hf.orphaned h ho) hh

/-- **A block that was canonical and is canonical was canonical in between.** -/
theorem Follows.between (h₁ : F.Follows c c') (h₂ : F.Follows c' c'') (hc : F.Consistent c'')
    (hh : F.Canonical c h) (hh' : F.Canonical c'' h) : F.Canonical c' h :=
  (h₁.canonical h hh).resolve_right (h₂.not_orphaned hc hh')

/-! ### Agreement -/

theorem Agrees.follows (hf : F.Follows c c') (ha : F.Agrees c h n h') : F.Agrees c' h n h' :=
  ha.imp_left (hf.orphaned h)

theorem Agrees.canonical (hc : F.Consistent c) (ha : F.Agrees c h n h') (hh : F.Canonical c h)
    (hn : n ≤ F.number h) : F.Canonical c h' := by
  have heq := ha.resolve_left (fun ho => hc h ho hh) hn
  exact heq ▸ hh.of_ancestor hn

/-- A block that is known agrees with every canonical block. -/
theorem agrees_of_canonical (hh : F.Known c h) (hh' : F.Canonical c h') :
    F.Agrees c h (F.number h') h' :=
  hh.elim (fun hcan => .inr fun hle => hcan.ancestor_eq hh' hle) .inl

end Forest

end Chain

end PreCommunity
