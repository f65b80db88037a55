import Mathlib.Data.List.Nodup

/-!
# Journals

A journal keeps, for every key, the last entry that was made for it.  Whoever makes an entry gives
it a rank above all entries of its group that the journal holds.  Entries that were replaced are
forgotten; but as long as none is replaced by an entry of another group, the ranks of a group
increase over the whole past.

* `JournalMove` : one step, and the entry that it makes.
* `freshEntries_of_move` : the entry is what the journal did not hold before.
* `MadeBefore` : the journal holds entries that were made.
* `Distinct` : no two rows hold entries of one group and one rank.
* `Ranked` : the entries that were made, in order.
-/

namespace PreCommunity

namespace Store

variable {κ α γ : Type} {group : α → γ} {rank : α → ℕ} {journal old new : List (κ × α)}
  {past : List α} {o : Option α} {a : α}

/-! ### Steps -/

/-- What a step may do to a journal: it keeps every entry, or it makes one, which replaces the entry
of its key and ranks above all that the journal holds of its group. -/
inductive JournalMove (group : α → γ) (rank : α → ℕ) (old new : List (κ × α)) :
    Option α → Prop where
  | keep : (∀ e, e ∈ new ↔ e ∈ old) → JournalMove group rank old new none
  | enter {key : κ} {a : α} : (∀ e ∈ old, group e.2 = group a → rank e.2 < rank a) →
      (∀ e, e ∈ new ↔ e = (key, a) ∨ e ∈ old ∧ e.1 ≠ key) → JournalMove group rank old new (some a)

/-- No entry is replaced by one of another group. -/
def KeepsGroups (group : α → γ) (old new : List (κ × α)) : Prop :=
  ∀ e ∈ old, ∀ e' ∈ new, e'.1 = e.1 → group e'.2 = group e.2

instance [DecidableEq κ] [DecidableEq γ] : Decidable (KeepsGroups group old new) :=
  inferInstanceAs (Decidable (∀ e ∈ old, ∀ e' ∈ new, e'.1 = e.1 → group e'.2 = group e.2))

/-- The entries that a journal did not hold before. -/
def freshEntries [DecidableEq κ] [DecidableEq α] (old new : List (κ × α)) : List α :=
  (new.filter fun e => e ∉ old).map (·.2)

/-- A list without repetitions whose elements are all equal. -/
theorem eq_singleton_of_nodup {β : Type} {l : List β} {b : β} (hl : l.Nodup) (hb : b ∈ l)
    (hall : ∀ x ∈ l, x = b) : l = [b] := by
  cases l with
  | nil => cases hb
  | cons x rest =>
    obtain rfl := hall x (.head _)
    refine congrArg _ (List.eq_nil_iff_forall_not_mem.2 fun y hy => ?_)
    exact (List.nodup_cons.1 hl).1 (hall y (.tail _ hy) ▸ hy)

/-- **The entry that a step makes** is what the journal did not hold before. -/
theorem freshEntries_of_move [DecidableEq κ] [DecidableEq α] (hnew : new.Nodup)
    (hstep : JournalMove group rank old new o) : freshEntries old new = o.toList := by
  unfold freshEntries
  cases hstep with
  | keep hsame =>
    have hnone : (new.filter fun e => e ∉ old) = [] := by
      refine List.filter_eq_nil_iff.2 fun e he => ?_
      simp [(hsame e).1 he]
    rw [hnone]
    rfl
  | @enter key a hlt hmem =>
    have hunheld : (key, a) ∉ old := fun hold => Nat.lt_irrefl _ (hlt _ hold rfl)
    have hone : (new.filter fun e => e ∉ old) = [(key, a)] := by
      refine eq_singleton_of_nodup (hnew.filter _) ?_ fun e he => ?_
      · exact List.mem_filter.2 ⟨(hmem _).2 (.inl rfl), decide_eq_true hunheld⟩
      · obtain ⟨he, hnot⟩ := List.mem_filter.1 he
        obtain rfl | ⟨hold, -⟩ := (hmem e).1 he
        · rfl
        · exact absurd hold (of_decide_eq_true hnot)
    rw [hone]
    rfl

/-! ### The past -/

/-- The journal holds entries that were made. -/
def MadeBefore (past : List α) (journal : List (κ × α)) : Prop := ∀ e ∈ journal, e.2 ∈ past

theorem MadeBefore.step (h : MadeBefore past old) (hstep : JournalMove group rank old new o) :
    MadeBefore (past ++ o.toList) new := by
  cases hstep with
  | keep hsame => exact fun e he => List.mem_append_left _ (h e ((hsame e).1 he))
  | enter _ hmem =>
    intro e he
    obtain rfl | ⟨hold, -⟩ := (hmem e).1 he
    · exact List.mem_append_right _ (.head _)
    · exact List.mem_append_left _ (h e hold)

/-- No two rows hold entries of one group and one rank. -/
def Distinct (group : α → γ) (rank : α → ℕ) (journal : List (κ × α)) : Prop :=
  ∀ e ∈ journal, ∀ e' ∈ journal, group e.2 = group e'.2 → rank e.2 = rank e'.2 → e = e'

theorem Distinct.step (h : Distinct group rank old) (hstep : JournalMove group rank old new o) :
    Distinct group rank new := by
  intro e he e' he' hgroup hrank
  cases hstep with
  | keep hsame => exact h e ((hsame e).1 he) e' ((hsame e').1 he') hgroup hrank
  | enter hlt hmem =>
    obtain rfl | ⟨hold, -⟩ := (hmem e).1 he
    · obtain rfl | ⟨hold', -⟩ := (hmem e').1 he'
      · rfl
      · exact absurd hrank.symm (Nat.ne_of_lt (hlt e' hold' hgroup.symm))
    · obtain rfl | ⟨hold', -⟩ := (hmem e').1 he'
      · exact absurd hrank (Nat.ne_of_lt (hlt e hold hgroup))
      · exact h e hold e' hold' hgroup hrank

/-- The ranks of a group increase, and the journal still holds an entry of the group that ranks as
high as any. -/
structure Ranked (group : α → γ) (rank : α → ℕ) (past : List α) (journal : List (κ × α)) :
    Prop where
  covered : ∀ a ∈ past, ∃ e ∈ journal, group e.2 = group a ∧ rank a ≤ rank e.2
  increasing : past.Pairwise fun a b => group a = group b → rank a < rank b

theorem ranked_nil : Ranked group rank [] journal :=
  ⟨fun _ ha => absurd ha List.not_mem_nil, .nil⟩

/-- **One step** that keeps groups. -/
theorem Ranked.step (h : Ranked group rank past old) (hgroups : KeepsGroups group old new)
    (hstep : JournalMove group rank old new o) : Ranked group rank (past ++ o.toList) new := by
  cases hstep with
  | keep hsame =>
    rw [Option.toList_none, List.append_nil]
    refine ⟨fun a ha => ?_, h.increasing⟩
    obtain ⟨e, he, hcovers⟩ := h.covered a ha
    exact ⟨e, (hsame e).2 he, hcovers⟩
  | @enter key b hlt hmem =>
    have hb : (key, b) ∈ new := (hmem _).2 (.inl rfl)
    have habove : ∀ a ∈ past, group a = group b → rank a < rank b := fun a ha hsame => by
      obtain ⟨e, he, hgroup, hle⟩ := h.covered a ha
      exact Nat.lt_of_le_of_lt hle (hlt e he (hgroup.trans hsame))
    refine ⟨fun a ha => ?_, List.pairwise_append.2
      ⟨h.increasing, List.pairwise_singleton _ _, fun a ha x hx => ?_⟩⟩
    · obtain ha | ha := List.mem_append.1 ha
      · obtain ⟨e, he, hgroup, hle⟩ := h.covered a ha
        by_cases hkey : e.1 = key
        · -- the entry is replaced by one of its group
          have hsame : group b = group e.2 := hgroups e he _ hb hkey.symm
          refine ⟨_, hb, hsame.trans hgroup, Nat.le_trans hle (Nat.le_of_lt ?_)⟩
          exact hlt e he hsame.symm
        · exact ⟨e, (hmem e).2 (.inr ⟨he, hkey⟩), hgroup, hle⟩
      · obtain rfl := List.mem_singleton.1 ha
        exact ⟨_, hb, rfl, Nat.le_refl _⟩
    · obtain rfl := List.mem_singleton.1 hx
      exact habove a ha

end Store

end PreCommunity
