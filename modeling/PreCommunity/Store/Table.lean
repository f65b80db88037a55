import Mathlib.Algebra.BigOperators.Group.List.Basic
import Mathlib.Algebra.Ring.Nat
import Mathlib.Data.List.Nodup
import Mathlib.Tactic.SplitIfs

/-!
# Tables

A table is the list of its rows in the order of their creation.

* `updateWhere`, `upsert` : the bulk update of the rows that meet a condition, or an insertion.
* `view` : a part of the rows, seen through a function.
* `Keyed` : no two rows have the same key.
* `Updated`, `Grown` : a table after updates in place, and a table after updates, deletions and
  insertions.
* `total` : a sum over the rows that meet a condition.
-/

namespace PreCommunity

namespace Store

variable {α β κ : Type}

/-- Update the rows that meet `p`. -/
def updateWhere (p : α → Bool) (f : α → α) (rows : List α) : List α :=
  rows.map fun x => if p x then f x else x

/-- Update the rows that meet `p`; if there are none, insert `row`. -/
def upsert (p : α → Bool) (f : α → α) (row : α) (rows : List α) : List α :=
  if rows.any p then updateWhere p f rows else rows ++ [row]

/-- No two rows have the same key. -/
def Keyed (key : α → κ) (rows : List α) : Prop := (rows.map key).Nodup

/-- The sum of `g` over the rows that meet `p`. -/
def total (p : α → Bool) (g : α → ℕ) (rows : List α) : ℕ := ((rows.filter p).map g).sum

/-! ### Bulk updates -/

section Update

variable {p : α → Bool} {f : α → α} {rows : List α}

theorem mem_updateWhere {y : α} :
    y ∈ updateWhere p f rows ↔ ∃ x ∈ rows, (if p x then f x else x) = y := by
  simp [updateWhere]

theorem mem_updateWhere_of_not {x : α} (hx : x ∈ rows) (hp : p x = false) :
    x ∈ updateWhere p f rows :=
  mem_updateWhere.2 ⟨x, hx, by simp [hp]⟩

theorem mem_updateWhere_of {x : α} (hx : x ∈ rows) (hp : p x = true) :
    f x ∈ updateWhere p f rows :=
  mem_updateWhere.2 ⟨x, hx, by simp [hp]⟩

/-- A row of an updated table is an old row or an updated one. -/
theorem mem_updateWhere_cases {y : α} (hy : y ∈ updateWhere p f rows) :
    (y ∈ rows ∧ p y = false) ∨ ∃ x ∈ rows, p x = true ∧ y = f x := by
  obtain ⟨x, hx, rfl⟩ := mem_updateWhere.1 hy
  cases hp : p x
  · exact .inl ⟨by simpa using hx, by simp [hp]⟩
  · exact .inr ⟨x, hx, hp, by simp⟩

theorem updateWhere_eq_self (h : ∀ x ∈ rows, p x = false) : updateWhere p f rows = rows := by
  unfold updateWhere
  conv_rhs => rw [← List.map_id rows]
  exact List.map_congr_left fun x hx => by simp [h x hx]

@[simp] theorem updateWhere_append (l l' : List α) :
    updateWhere p f (l ++ l') = updateWhere p f l ++ updateWhere p f l' := by
  simp [updateWhere]

/-- An update after which no more rows meet `q` than before. -/
theorem countP_updateWhere_le {q : α → Bool}
    (hq : ∀ x ∈ rows, p x = true → q (f x) = true → q x = true) :
    (updateWhere p f rows).countP q ≤ rows.countP q := by
  unfold updateWhere
  rw [List.countP_map]
  refine List.countP_mono_left fun x hx hqx => ?_
  by_cases hp : p x = true
  · exact hq x hx hp (by simpa [Function.comp, hp] using hqx)
  · simpa [Function.comp, hp] using hqx

/-- An update after which no fewer rows meet `q` than before. -/
theorem le_countP_updateWhere {q : α → Bool}
    (hq : ∀ x ∈ rows, p x = true → q x = true → q (f x) = true) :
    rows.countP q ≤ (updateWhere p f rows).countP q := by
  unfold updateWhere
  rw [List.countP_map]
  refine List.countP_mono_left fun x hx hqx => ?_
  by_cases hp : p x = true
  · simpa [Function.comp, hp] using hq x hx hp hqx
  · simpa [Function.comp, hp] using hqx

/-- A row of the table, after an update. -/
theorem exists_mem_updateWhere {q : α → Prop} (h : ∃ x ∈ rows, q x)
    (hq : ∀ x ∈ rows, p x = true → q x → q (f x)) : ∃ x ∈ updateWhere p f rows, q x := by
  obtain ⟨x, hx, hqx⟩ := h
  by_cases hp : p x = true
  · exact ⟨f x, mem_updateWhere_of hx hp, hq x hx hp hqx⟩
  · exact ⟨x, mem_updateWhere_of_not hx (by simpa using hp), hqx⟩

/-- Updating twice by an idempotent update is updating once. -/
theorem updateWhere_updateWhere_self {q : α → Bool} (hq : ∀ x, q (f x) = q x)
    (hf : ∀ x, f (f x) = f x) :
    updateWhere q f (updateWhere p f rows) = updateWhere (fun x => p x || q x) f rows := by
  simp only [updateWhere, List.map_map]
  refine List.map_congr_left fun x _ => ?_
  by_cases hp : p x = true <;> by_cases hqx : q x = true <;> simp [hp, hqx, hq, hf]

/-- The first row that meets `p`, after an update of the rows that meet `p`. -/
theorem find?_updateWhere (hp : ∀ x, p (f x) = p x) :
    (updateWhere p f rows).find? p = (rows.find? p).map f := by
  induction rows with
  | nil => rfl
  | cons x rows ih =>
    change ((if p x then f x else x) :: updateWhere p f rows).find? p = _
    cases hx : p x with
    | true => simp [hx, hp]
    | false => simpa [hx] using ih

/-- The first row that meets `q`, after an update of rows that do not meet `q`. -/
theorem find?_updateWhere_other {q : α → Bool}
    (hq : ∀ x, p x = true → q x = false ∧ q (f x) = false) :
    (updateWhere p f rows).find? q = rows.find? q := by
  induction rows with
  | nil => rfl
  | cons x rows ih =>
    change ((if p x then f x else x) :: updateWhere p f rows).find? q = _
    cases hx : p x with
    | true => simp [hq x hx, ih]
    | false => simp [List.find?_cons, ih]

/-- A bulk update that keeps `g` keeps the column `g`. -/
theorem map_updateWhere {g : α → β} (hg : ∀ x ∈ rows, p x = true → g (f x) = g x) :
    (updateWhere p f rows).map g = rows.map g := by
  simp only [updateWhere, List.map_map]
  refine List.map_congr_left fun x hx => ?_
  simp only [Function.comp]
  split_ifs with hp
  · exact hg x hx hp
  · rfl

/-- The rows that meet `p`, after an update of them that keeps `p`. -/
theorem filter_updateWhere (hp : ∀ x, p x = true → p (f x) = true) :
    (updateWhere p f rows).filter p = updateWhere p f (rows.filter p) := by
  induction rows with
  | nil => rfl
  | cons x rows ih =>
    simp only [updateWhere, List.map_cons] at ih ⊢
    by_cases hx : p x = true
    · simp [hx, hp x hx, ih]
    · simp [hx, ih]

/-- A bulk update that does not touch the selected rows' membership or column keeps the
selection's column. -/
theorem filter_updateWhere_map {q : α → Bool} {g : α → β}
    (hq : ∀ x ∈ rows, p x = true → q (f x) = q x)
    (hg : ∀ x ∈ rows, p x = true → q x = true → g (f x) = g x) :
    ((updateWhere p f rows).filter q).map g = (rows.filter q).map g := by
  induction rows with
  | nil => rfl
  | cons x rows ih =>
    have ih := ih (fun y hy => hq y (.tail _ hy)) (fun y hy => hg y (.tail _ hy))
    have hx := hq x (.head _)
    have hgx := hg x (.head _)
    simp only [updateWhere, List.map_cons, List.filter_cons] at ih ⊢
    by_cases hp : p x = true
    · by_cases hqx : q x = true <;> simp_all
    · by_cases hqx : q x = true <;> simp_all

theorem total_updateWhere {q : α → Bool} {g : α → ℕ}
    (hq : ∀ x ∈ rows, p x = true → q (f x) = q x)
    (hg : ∀ x ∈ rows, p x = true → q x = true → g (f x) = g x) :
    total q g (updateWhere p f rows) = total q g rows := by
  rw [total, total, filter_updateWhere_map hq hg]

end Update

/-! ### Views -/

/-- The rows that meet `q`, seen through `g`. -/
def view (q : α → Bool) (g : α → β) (rows : List α) : List β := (rows.filter q).map g

section View

variable {p q : α → Bool} {f : α → α} {g : α → β} {p' : β → Bool} {f' : β → β} {rows : List α}

@[simp] theorem view_append (l l' : List α) : view q g (l ++ l') = view q g l ++ view q g l' := by
  simp [view]

theorem mem_view {y : β} : y ∈ view q g rows ↔ ∃ x ∈ rows, q x = true ∧ g x = y := by
  simp [view, and_assoc]

theorem view_perm {rows' : List α} (h : rows.Perm rows') : (view q g rows).Perm (view q g rows') :=
  (h.filter q).map g

theorem view_cons (x : α) :
    view q g (x :: rows) = if q x then g x :: view q g rows else view q g rows := by
  by_cases hq : q x = true <;> simp [view, hq]

/-- An update within a view. -/
theorem view_updateWhere (hp : ∀ x, p x = (q x && p' (g x))) (hq : ∀ x, q (f x) = q x)
    (hg : ∀ x, g (f x) = f' (g x)) :
    view q g (updateWhere p f rows) = updateWhere p' f' (view q g rows) := by
  induction rows with
  | nil => rfl
  | cons x rows ih =>
    simp only [view, updateWhere, List.map_cons, List.filter_cons] at ih ⊢
    by_cases hqx : q x = true
    · by_cases hpx : p' (g x) = true <;> simp_all
    · simp_all

/-- An update outside a view. -/
theorem view_updateWhere_of_not (hp : ∀ x, p x = true → q x = false) (hq : ∀ x, q (f x) = q x) :
    view q g (updateWhere p f rows) = view q g rows :=
  filter_updateWhere_map (fun x _ _ => hq x) fun x _ hpx hqx => by simp [hp x hpx] at hqx

/-- An upsert within a view. -/
theorem view_upsert {row : α} (hrow : q row = true) (hp : ∀ x, p x = (q x && p' (g x)))
    (hq : ∀ x, q (f x) = q x) (hg : ∀ x, g (f x) = f' (g x)) :
    view q g (upsert p f row rows) = upsert p' f' (g row) (view q g rows) := by
  have hany : (view q g rows).any p' = rows.any p := by
    rw [Bool.eq_iff_iff, List.any_eq_true, List.any_eq_true]
    constructor
    · rintro ⟨y, hy, hpy⟩
      obtain ⟨x, hx, hqx, rfl⟩ := mem_view.1 hy
      exact ⟨x, hx, by simp [hp, hqx, hpy]⟩
    · rintro ⟨x, hx, hpx⟩
      simp only [hp, Bool.and_eq_true] at hpx
      exact ⟨g x, mem_view.2 ⟨x, hx, hpx.1, rfl⟩, hpx.2⟩
  unfold upsert
  rw [hany]
  split_ifs
  · exact view_updateWhere hp hq hg
  · rw [view_append]
    congr 1
    simp [view, hrow]

/-- An upsert outside a view. -/
theorem view_upsert_of_not {row : α} (hrow : q row = false) (hp : ∀ x, p x = true → q x = false)
    (hq : ∀ x, q (f x) = q x) : view q g (upsert p f row rows) = view q g rows := by
  unfold upsert
  split_ifs
  · exact view_updateWhere_of_not hp hq
  · rw [view_append]
    simp [view, hrow]

end View

/-! ### Keys -/

section Keyed

variable {key : α → κ} {rows : List α}

theorem Keyed.eq (h : Keyed key rows) {x y : α} (hx : x ∈ rows) (hy : y ∈ rows)
    (hkey : key x = key y) : x = y :=
  List.inj_on_of_nodup_map h hx hy hkey

/-- Rows with the same first part of a key differ in the second. -/
theorem Keyed.of_pairwise {first : α → κ} {second : α → β}
    (h : rows.Pairwise fun x y => first x = first y → second x ≠ second y) :
    Keyed (fun x => (first x, second x)) rows :=
  List.pairwise_map.2 (h.imp fun hne heq => hne (Prod.mk.inj heq).1 (Prod.mk.inj heq).2)

/-- The row with a key, in a table that has it. -/
theorem Keyed.find?_eq [DecidableEq κ] (h : Keyed key rows) {x : α} (hx : x ∈ rows) :
    rows.find? (fun y => key y = key x) = some x := by
  cases hfound : rows.find? fun y => key y = key x with
  | none =>
    have := List.find?_eq_none.1 hfound x hx
    simp at this
  | some y =>
    have hkey : key y = key x := by simpa using List.find?_some hfound
    rw [h.eq (List.mem_of_find?_eq_some hfound) hx hkey]

theorem Keyed.updateWhere (h : Keyed key rows) {p : α → Bool} {f : α → α}
    (hf : ∀ x, key (f x) = key x) : Keyed key (updateWhere p f rows) := by
  unfold Keyed
  rwa [map_updateWhere fun x _ _ => hf x]

theorem Keyed.filter (h : Keyed key rows) (p : α → Bool) : Keyed key (rows.filter p) :=
  h.sublist (List.filter_sublist.map key)

/-- At most one row meets a condition that no two rows share. -/
theorem Keyed.countP_le_one (h : Keyed key rows) {p : α → Bool}
    (hp : ∀ x ∈ rows, ∀ y ∈ rows, p x = true → p y = true → x = y) : rows.countP p ≤ 1 := by
  rw [List.countP_eq_length_filter]
  have hkeys := h.filter p
  match hrows : rows.filter p with
  | [] => exact Nat.zero_le 1
  | [x] => exact le_rfl
  | x :: y :: rest =>
    have hx := List.mem_filter.1 (hrows ▸ List.mem_cons_self : x ∈ rows.filter p)
    have hy := List.mem_filter.1 (hrows ▸ .tail _ (.head _) : y ∈ rows.filter p)
    rw [hrows, hp x hx.1 y hy.1 hx.2 hy.2] at hkeys
    simp [Keyed] at hkeys

/-- An update of the row with a key takes at most one row away from those that meet `q`. -/
theorem Keyed.countP_le_succ [DecidableEq κ] (h : Keyed key rows) (k : κ) (f : α → α)
    (q : α → Bool) :
    rows.countP q ≤ (Store.updateWhere (fun x => key x = k) f rows).countP q + 1 := by
  have hsplit := List.countP_eq_countP_filter_add rows q fun x => key x = k
  have hone : (rows.filter fun x => key x = k).countP q ≤ 1 := by
    refine (h.filter _).countP_le_one fun x hx y hy _ _ => ?_
    have hxk := of_decide_eq_true (List.mem_filter.1 hx).2
    have hyk := of_decide_eq_true (List.mem_filter.1 hy).2
    exact h.eq (List.mem_filter.1 hx).1 (List.mem_filter.1 hy).1 (hxk.trans hyk.symm)
  have hrest : (rows.filter fun x => !decide (key x = k)).countP q ≤
      (Store.updateWhere (fun x => key x = k) f rows).countP q := by
    rw [List.countP_filter, Store.updateWhere, List.countP_map]
    refine List.countP_mono_left fun x _ hx => ?_
    simp only [Bool.and_eq_true, Bool.not_eq_true', decide_eq_false_iff_not] at hx
    simpa [Function.comp, hx.2] using hx.1
  omega

/-- An update of the row with a key adds at most one row to those that meet `q`. -/
theorem Keyed.countP_updateWhere_le_succ [DecidableEq κ] (h : Keyed key rows) (k : κ) (f : α → α)
    (q : α → Bool) :
    (Store.updateWhere (fun x => key x = k) f rows).countP q ≤ rows.countP q + 1 := by
  rw [Store.updateWhere, List.countP_map,
    List.countP_eq_countP_filter_add rows _ fun x => key x = k]
  have hone : (rows.filter fun x => key x = k).length ≤ 1 := by
    rw [← List.countP_eq_length_filter]
    refine h.countP_le_one fun x hx y hy hxk hyk => h.eq hx hy ?_
    exact (of_decide_eq_true hxk).trans (of_decide_eq_true hyk).symm
  have hrest : (rows.filter fun x => !decide (key x = k)).countP
      (q ∘ fun x => if decide (key x = k) then f x else x) ≤ rows.countP q := by
    rw [List.countP_filter]
    refine List.countP_mono_left fun x _ hx => ?_
    simp only [Function.comp, Bool.and_eq_true, Bool.not_eq_true', decide_eq_false_iff_not] at hx
    simpa [hx.2] using hx.1
  have hfirst := List.countP_le_length (l := rows.filter fun x => key x = k)
    (p := q ∘ fun x => if decide (key x = k) then f x else x)
  omega

theorem Keyed.perm (h : Keyed key rows) {rows' : List α} (hp : rows.Perm rows') :
    Keyed key rows' :=
  (hp.map key).nodup_iff.1 h

/-- A row of a table with keys, and the others. -/
theorem Keyed.perm_cons [DecidableEq κ] (h : Keyed key rows) {x : α} (hx : x ∈ rows) :
    rows.Perm (x :: rows.filter fun y => key y ≠ key x) := by
  induction rows with
  | nil => cases hx
  | cons y rows ih =>
    have hkeys : key y ∉ rows.map key ∧ Keyed key rows := List.nodup_cons.1 h
    rcases List.mem_cons.1 hx with rfl | hx
    · have hrest : rows.filter (fun y => key y ≠ key x) = rows :=
        List.filter_eq_self.2 fun z hz => decide_eq_true fun hkey =>
          hkeys.1 (hkey ▸ List.mem_map_of_mem hz)
      rw [List.filter_cons_of_neg (by simp), hrest]
    · have hne : key y ≠ key x := fun hkey => hkeys.1 (hkey ▸ List.mem_map_of_mem hx)
      have hfilter : (y :: rows).filter (fun y => key y ≠ key x) =
          y :: rows.filter fun y => key y ≠ key x :=
        List.filter_cons_of_pos (decide_eq_true hne)
      rw [hfilter]
      exact ((ih hkeys.2 hx).cons y).trans (.swap x y _)

/-- One row of a table with keys is updated; the others stay. -/
theorem Keyed.updateWhere_perm [DecidableEq κ] (h : Keyed key rows) {x : α} (hx : x ∈ rows)
    (f : α → α) :
    (Store.updateWhere (fun y => key y = key x) f rows).Perm
      (f x :: rows.filter fun y => key y ≠ key x) := by
  have hrest : Store.updateWhere (fun y => key y = key x) f
      (rows.filter fun y => key y ≠ key x) = rows.filter fun y => key y ≠ key x :=
    updateWhere_eq_self fun y hy => decide_eq_false (of_decide_eq_true (List.mem_filter.1 hy).2)
  have hperm := (h.perm_cons hx).map fun y => if key y = key x then f y else y
  have hhead : (x :: rows.filter fun y => key y ≠ key x).map
      (fun y => if key y = key x then f y else y) =
        f x :: Store.updateWhere (fun y => key y = key x) f
          (rows.filter fun y => key y ≠ key x) := by
    simp [Store.updateWhere]
  rw [hhead, hrest] at hperm
  have heq : Store.updateWhere (fun y => key y = key x) f rows =
      rows.map fun y => if key y = key x then f y else y := by
    simp [Store.updateWhere]
  rwa [heq]

theorem Keyed.append_one (h : Keyed key rows) {x : α} (hx : ∀ y ∈ rows, key y ≠ key x) :
    Keyed key (rows ++ [x]) := by
  unfold Keyed
  rw [List.map_append, List.map_singleton, List.nodup_append]
  refine ⟨h, List.nodup_singleton _, ?_⟩
  rintro a ha b hb
  obtain ⟨y, hy, rfl⟩ := List.mem_map.1 ha
  rw [List.mem_singleton.1 hb]
  exact hx y hy

theorem Keyed.upsert [DecidableEq κ] (h : Keyed key rows) {f : α → α} {row : α}
    (hf : ∀ x, key (f x) = key x) :
    Keyed key (Store.upsert (fun x => key x = key row) f row rows) := by
  unfold Store.upsert
  split_ifs with hany
  · exact h.updateWhere hf
  · refine h.append_one fun y hy hkey => hany ?_
    exact List.any_eq_true.2 ⟨y, hy, by simpa using hkey⟩

/-- A column of the keys decides. -/
theorem Keyed.of_map_eq {key' : α → β} {k : β → κ} {rows' : List α}
    (h : Keyed (fun x => k (key' x)) rows) (heq : rows'.map key' = rows.map key') :
    Keyed (fun x => k (key' x)) rows' := by
  have := congrArg (List.map k) heq
  rw [List.map_map, List.map_map] at this
  unfold Keyed at h ⊢
  change (rows'.map (k ∘ key')).Nodup
  rw [this]
  exact h

theorem exists_of_map_eq {key' : α → β} {rows' : List α} (heq : rows'.map key' = rows.map key')
    {x' : α} (hx' : x' ∈ rows') : ∃ x ∈ rows, key' x = key' x' := by
  have hmem : key' x' ∈ rows.map key' := heq ▸ List.mem_map_of_mem hx'
  exact List.mem_map.1 hmem

/-- The rows after the update of one row. -/
theorem Keyed.mem_updateWhere_iff [DecidableEq κ] (h : Keyed key rows) {x : α} (hx : x ∈ rows)
    {f : α → α} {y : α} : y ∈ Store.updateWhere (fun z => key z = key x) f rows ↔
      y = f x ∨ y ∈ rows ∧ key y ≠ key x := by
  constructor
  · intro hy
    obtain ⟨hy, hp⟩ | ⟨z, hz, hp, rfl⟩ := mem_updateWhere_cases hy
    · exact .inr ⟨hy, of_decide_eq_false hp⟩
    · exact .inl (by rw [h.eq hz hx (of_decide_eq_true hp)])
  · rintro (rfl | ⟨hy, hne⟩)
    · exact mem_updateWhere_of hx (decide_eq_true rfl)
    · exact mem_updateWhere_of_not hy (decide_eq_false hne)

end Keyed

/-! ### Growing tables -/

/-- A table whose rows are updated and deleted, and whose new rows have ids from `next` on, below
`next'`.  `R` says how the rows that are not new follow from old ones. -/
structure Grown (R : α → α → Prop) (id : α → ℕ) (next next' : ℕ) (rows rows' : List α) : Prop where
  ids : ∃ new, ((rows'.map id).Sublist (rows.map id ++ new)) ∧ new.Nodup ∧
    ∀ k ∈ new, next ≤ k ∧ k < next'
  kept : ∀ x' ∈ rows', id x' < next → ∃ x ∈ rows, id x = id x' ∧ R x x'

/-- A table whose rows are updated in place: they keep their keys, and `R` says how they change. -/
def Updated (R : α → α → Prop) (key : α → κ) (rows rows' : List α) : Prop :=
  ∃ f : α → α, rows' = rows.map f ∧ ∀ x ∈ rows, key (f x) = key x ∧ R x (f x)

section Updated

variable {R : α → α → Prop} {key : α → κ} {rows rows' rows'' : List α}

theorem Updated.refl (hR : ∀ x, R x x) : Updated R key rows rows :=
  ⟨id, by simp, fun x _ => ⟨rfl, hR x⟩⟩

theorem Updated.trans (htrans : ∀ {x y z}, R x y → R y z → R x z) (h : Updated R key rows rows')
    (h' : Updated R key rows' rows'') : Updated R key rows rows'' := by
  obtain ⟨f, rfl, hf⟩ := h
  obtain ⟨f', rfl, hf'⟩ := h'
  refine ⟨f' ∘ f, by simp, fun x hx => ?_⟩
  obtain ⟨hkey, hR⟩ := hf x hx
  obtain ⟨hkey', hR'⟩ := hf' (f x) (List.mem_map_of_mem hx)
  exact ⟨hkey'.trans hkey, htrans hR hR'⟩

theorem Updated.of_updateWhere {p : α → Bool} {f : α → α} (hR : ∀ x, R x x)
    (hf : ∀ x ∈ rows, p x = true → key (f x) = key x ∧ R x (f x)) :
    Updated R key rows (updateWhere p f rows) := by
  refine ⟨_, rfl, fun x hx => ?_⟩
  by_cases hp : p x = true
  · simpa [hp] using hf x hx hp
  · simp [hp, hR]

theorem Updated.map_eq (h : Updated R key rows rows') : rows'.map key = rows.map key := by
  obtain ⟨f, rfl, hf⟩ := h
  rw [List.map_map]
  exact List.map_congr_left fun x hx => (hf x hx).1

end Updated

section Grown

variable {R : α → α → Prop} {id : α → ℕ} {next next' next'' : ℕ} {rows rows' rows'' : List α}

theorem Grown.refl (hR : ∀ x, R x x) : Grown R id next next' rows rows where
  ids := ⟨[], by simp, .nil, by simp⟩
  kept x hx _ := ⟨x, hx, rfl, hR x⟩

theorem Grown.trans (htrans : ∀ {x y z}, R x y → R y z → R x z) (hle : next ≤ next')
    (hle' : next' ≤ next'') (h : Grown R id next next' rows rows')
    (h' : Grown R id next' next'' rows' rows'') : Grown R id next next'' rows rows'' where
  ids := by
    obtain ⟨new, hsub, hnodup, hnew⟩ := h.ids
    obtain ⟨new', hsub', hnodup', hnew'⟩ := h'.ids
    refine ⟨new ++ new', ?_, ?_, fun k hk => ?_⟩
    · rw [← List.append_assoc]
      exact hsub'.trans (hsub.append_right new')
    · refine List.nodup_append.2 ⟨hnodup, hnodup', fun a ha b hb => ?_⟩
      have := hnew a ha
      have := hnew' b hb
      omega
    · obtain hk | hk := List.mem_append.1 hk
      · have := hnew k hk
        omega
      · have := hnew' k hk
        omega
  kept x' hx' hlt := by
    obtain ⟨y, hy, hid, hR⟩ := h'.kept x' hx' (by omega)
    obtain ⟨x, hx, hid', hR'⟩ := h.kept y hy (by omega)
    exact ⟨x, hx, hid'.trans hid, htrans hR' hR⟩

theorem Updated.grown {key : α → κ} {k : κ → ℕ} (hid : ∀ x, k (key x) = id x)
    (h : Updated R key rows rows') : Grown R id next next' rows rows' := by
  have hids : rows'.map id = rows.map id := by
    have := congrArg (List.map k) h.map_eq
    simpa [List.map_map, Function.comp_def, hid] using this
  refine ⟨⟨[], by simp [hids], .nil, by simp⟩, fun x' hx' _ => ?_⟩
  obtain ⟨f, rfl, hf⟩ := h
  obtain ⟨x, hx, rfl⟩ := List.mem_map.1 hx'
  exact ⟨x, hx, by rw [← hid, ← hid, (hf x hx).1], (hf x hx).2⟩

theorem Grown.filter (hR : ∀ x, R x x) (p : α → Bool) :
    Grown R id next next' rows (rows.filter p) where
  ids := ⟨[], by simpa using List.filter_sublist.map id, .nil, by simp⟩
  kept x hx _ := ⟨x, (List.mem_filter.1 hx).1, rfl, hR x⟩

theorem Grown.append_one {x : α} (hR : ∀ x, R x x) (hx : next ≤ id x) (hx' : id x < next') :
    Grown R id next next' rows (rows ++ [x]) where
  ids := ⟨[id x], by simp, by simp, by simp [hx, hx']⟩
  kept y hy hlt := by
    obtain hy | hy := List.mem_append.1 hy
    · exact ⟨y, hy, rfl, hR y⟩
    · rw [List.mem_singleton.1 hy] at hlt
      omega

/-- The ids of a growing table stay unique. -/
theorem Grown.keyed (h : Grown R id next next' rows rows') (hkeyed : Keyed id rows)
    (hlt : ∀ x ∈ rows, id x < next) : Keyed id rows' := by
  obtain ⟨new, hsub, hnodup, hnew⟩ := h.ids
  refine List.Nodup.sublist hsub (List.nodup_append.2 ⟨hkeyed, hnodup, fun a ha b hb => ?_⟩)
  obtain ⟨x, hx, rfl⟩ := List.mem_map.1 ha
  have := hlt x hx
  have := hnew b hb
  omega

theorem Grown.lt (h : Grown R id next next' rows rows') (hle : next ≤ next')
    (hlt : ∀ x ∈ rows, id x < next) : ∀ x ∈ rows', id x < next' := by
  obtain ⟨new, hsub, -, hnew⟩ := h.ids
  intro x hx
  obtain hmem | hmem := List.mem_append.1 (hsub.subset (List.mem_map_of_mem hx))
  · obtain ⟨y, hy, heq⟩ := List.mem_map.1 hmem
    have := hlt y hy
    omega
  · exact (hnew _ hmem).2

end Grown

/-! ### Sums -/

section Total

variable {p : α → Bool} {g : α → ℕ}

@[simp] theorem total_nil : total p g [] = 0 := rfl

@[simp] theorem total_cons (x : α) (rows : List α) :
    total p g (x :: rows) = (if p x then g x else 0) + total p g rows := by
  by_cases h : p x = true <;> simp [total, h]

@[simp] theorem total_append (l l' : List α) :
    total p g (l ++ l') = total p g l + total p g l' := by
  simp [total]

theorem total_congr {q : α → Bool} {g' : α → ℕ} {rows : List α} (hp : ∀ x ∈ rows, p x = q x)
    (hg : ∀ x ∈ rows, p x = true → g x = g' x) : total p g rows = total q g' rows := by
  induction rows with
  | nil => rfl
  | cons x rows ih =>
    rw [total_cons, total_cons, ih (fun y hy => hp y (.tail _ hy)) fun y hy => hg y (.tail _ hy),
      ← hp x (.head _)]
    split_ifs with h
    · rw [hg x (.head _) h]
    · rfl

theorem total_perm {l l' : List α} (h : l.Perm l') : total p g l = total p g l' :=
  ((h.filter p).map g).sum_eq

theorem total_filter (q : α → Bool) (rows : List α) :
    total p g (rows.filter q) = total (fun x => p x && q x) g rows := by
  rw [total, total, List.filter_filter]

theorem total_map (f : β → α) (rows : List β) :
    total p g (rows.map f) = total (fun x => p (f x)) (fun x => g (f x)) rows := by
  rw [total, total, List.filter_map, List.map_map]
  rfl

theorem total_le_total {q : α → Bool} {g' : α → ℕ} {rows : List α}
    (h : ∀ x ∈ rows, p x = true → q x = true ∧ g x ≤ g' x) :
    total p g rows ≤ total q g' rows := by
  induction rows with
  | nil => exact Nat.le_refl _
  | cons x rows ih =>
    have ih := ih fun y hy => h y (.tail _ hy)
    rw [total_cons, total_cons]
    by_cases hp : p x = true
    · obtain ⟨hq, hle⟩ := h x (.head _) hp
      rw [if_pos hp, if_pos hq]
      exact Nat.add_le_add hle ih
    · rw [if_neg hp]
      omega

theorem total_eq_zero {rows : List α} (h : ∀ x ∈ rows, p x = false) : total p g rows = 0 := by
  induction rows with
  | nil => rfl
  | cons x rows ih => simp [h x (.head _), ih fun y hy => h y (.tail _ hy)]

/-- The sum over the row with a key. -/
theorem total_of_keyed [DecidableEq κ] {key : α → κ} {rows : List α} (hkeys : Keyed key rows)
    {x : α} (hx : x ∈ rows) : total (fun y => key y = key x) g rows = g x := by
  induction rows with
  | nil => cases hx
  | cons y rows ih =>
    have hkeys' : key y ∉ rows.map key ∧ Keyed key rows := List.nodup_cons.1 hkeys
    rw [total_cons]
    obtain rfl | hx := List.mem_cons.1 hx
    · rw [if_pos (decide_eq_true rfl), total_eq_zero, Nat.add_zero]
      exact fun z hz => decide_eq_false fun hkey => hkeys'.1 (hkey ▸ List.mem_map_of_mem hz)
    · rw [if_neg, ih hkeys'.2 hx, Nat.zero_add]
      exact fun hkey => hkeys'.1 (of_decide_eq_true hkey ▸ List.mem_map_of_mem hx)

/-- One row of a table with keys is updated: the sum changes by what its value changes. -/
theorem total_update_keyed [DecidableEq κ] {key : α → κ} {rows : List α} (hkeys : Keyed key rows)
    {x : α} (hx : x ∈ rows) {f : α → α} (hp : p (f x) = p x) {n : ℕ} (hg : g (f x) = g x + n) :
    total p g (updateWhere (fun y => key y = key x) f rows) =
      total p g rows + if p x then n else 0 := by
  induction rows with
  | nil => cases hx
  | cons y rows ih =>
    have hkeys' : key y ∉ rows.map key ∧ Keyed key rows := List.nodup_cons.1 hkeys
    have hcons : updateWhere (fun y => key y = key x) f (y :: rows) =
        (if key y = key x then f y else y) :: updateWhere (fun y => key y = key x) f rows := by
      simp [updateWhere]
    rw [hcons, total_cons, total_cons]
    by_cases hyx : y = x
    · subst hyx
      have hrest : updateWhere (fun z => key z = key y) f rows = rows :=
        updateWhere_eq_self fun z hz => decide_eq_false fun hkey =>
          hkeys'.1 (hkey ▸ List.mem_map_of_mem hz)
      rw [hrest, if_pos rfl, hp, hg]
      split_ifs <;> omega
    · have hx' : x ∈ rows := (List.mem_cons.1 hx).resolve_left fun h => hyx h.symm
      have hne : key y ≠ key x := fun hkey => hyx (hkeys.eq (.head _) hx hkey)
      rw [if_neg hne, ih hkeys'.2 hx']
      omega

/-- A row is counted up, or begins with what it counts. -/
theorem total_upsert_keyed [DecidableEq κ] {key : α → κ} {rows : List α} (hkeys : Keyed key rows)
    {f : α → α} (row : α) {n : ℕ} {q : κ → Bool} (hq : ∀ x, p x = q (key x))
    (hf : ∀ x, key (f x) = key x) (hg : ∀ x, g (f x) = g x + n) (hrow : g row = n) :
    total p g (upsert (fun x => key x = key row) f row rows) =
      total p g rows + if p row then n else 0 := by
  unfold upsert
  by_cases hany : (rows.any fun x => key x = key row) = true
  · obtain ⟨x, hx, hxkey⟩ := List.any_eq_true.1 hany
    have hkey : key x = key row := of_decide_eq_true hxkey
    have hsum := total_update_keyed (p := p) hkeys hx (f := f) (by rw [hq, hq, hf]) (hg x)
    rw [hkey, hq x, hkey, ← hq row] at hsum
    rw [if_pos hany, hsum]
  · rw [if_neg hany, total_append, total_cons, total_nil, hrow, Nat.add_zero]

end Total

end Store

end PreCommunity
