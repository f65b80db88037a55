import Mathlib.Data.List.Sort

/-!
# Sorting by a comparison

A comparison need not be an order on all values.  It is enough that on the elements of the list it
decides a strict order that compares any two of them.

* `insertionSort_strict` : the sorted list is strictly increasing.
-/

namespace PreCommunity

namespace Sorting

variable {α : Type*} {r lt : α → α → Prop} [DecidableRel r]

/-- The comparison decides the order between two elements, whichever comes first. -/
def Decides (r lt : α → α → Prop) (a b : α) : Prop := (r a b → lt a b) ∧ (¬r a b → lt b a)

theorem orderedInsert_strict (htrans : ∀ a b c, lt a b → lt b c → lt a c) {a : α} {l : List α}
    (hl : l.Pairwise lt) (h : ∀ b ∈ l, Decides r lt a b) : (l.orderedInsert r a).Pairwise lt := by
  induction l with
  | nil => exact List.pairwise_singleton lt a
  | cons b l ih =>
    obtain ⟨hb, hl⟩ := List.pairwise_cons.1 hl
    obtain ⟨hless, hmore⟩ := h b List.mem_cons_self
    rw [List.orderedInsert]
    split_ifs with hr
    · refine List.pairwise_cons.2 ⟨fun c hc => ?_, List.pairwise_cons.2 ⟨hb, hl⟩⟩
      rcases List.mem_cons.1 hc with rfl | hc
      · exact hless hr
      · exact htrans a b c (hless hr) (hb c hc)
    · refine List.pairwise_cons.2
        ⟨fun c hc => ?_, ih hl fun c hc => h c (List.mem_cons_of_mem b hc)⟩
      rcases (List.mem_orderedInsert r).1 hc with rfl | hc
      · exact hmore hr
      · exact hb c hc

/-- **A sorted list** is strictly increasing. -/
theorem insertionSort_strict (htrans : ∀ a b c, lt a b → lt b c → lt a c) {l : List α}
    (h : l.Pairwise (Decides r lt)) : (l.insertionSort r).Pairwise lt := by
  induction l with
  | nil => exact List.Pairwise.nil
  | cons a l ih =>
    obtain ⟨ha, hl⟩ := List.pairwise_cons.1 h
    exact orderedInsert_strict htrans (ih hl) fun b hb =>
      ha b ((List.mem_insertionSort r).1 hb)

end Sorting

end PreCommunity
