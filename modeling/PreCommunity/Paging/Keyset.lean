import PreCommunity.Store.Sorting
import Mathlib.Data.Prod.Basic
import Mathlib.Order.Defs.LinearOrder

/-!
# Keyset pagination

Rows are sorted by a key that no two of them share, the greatest first.  A page holds the rows that
come next, and when there are more, a cursor with the key of its last row.  A client sends the
cursor back and gets the rows with smaller keys.

* `Comparison`, `Comparison.lex` : how columns are compared, one after another.
* `descending` : the sorted rows; `descending_filter` and `filter_after` say what a condition on
  the key leaves of them.
* `Page`, `cut`, `readOn` : a page, the page that is due, and the pages that a client reads.
* `Serves` : an endpoint that answers every cursor that it emits with the page that is due.
* `serves_of_condition` : when it does.
* `readAll_complete` : a client of such an endpoint reads every row once, in their order.
-/

namespace PreCommunity

namespace Keyset

/-! ### Comparisons -/

/-- A strict order that compares any two values and can be tested. -/
structure Comparison (κ : Type*) where
  lt : κ → κ → Prop
  decides : DecidableRel lt
  irrefl : ∀ a, ¬lt a a
  trans : ∀ a b c, lt a b → lt b c → lt a c
  connected : ∀ a b, a ≠ b → lt a b ∨ lt b a

namespace Comparison

variable {κ μ : Type*}

instance (C : Comparison κ) : DecidableRel C.lt := C.decides

theorem asymm (C : Comparison κ) {a b : κ} (h : C.lt a b) : ¬C.lt b a := fun h' =>
  C.irrefl a (C.trans a b a h h')

/-- The order of a type. -/
def standard [LinearOrder κ] : Comparison κ where
  lt := fun a b => a < b
  decides := fun _ _ => inferInstance
  irrefl := lt_irrefl
  trans := fun _ _ _ => lt_trans
  connected := fun _ _ => lt_or_gt_of_ne

/-- The comparison of values by what stands for them. -/
def comap (C : Comparison μ) (f : κ → μ) (hf : ∀ a b, f a = f b → a = b) : Comparison κ where
  lt := fun a b => C.lt (f a) (f b)
  decides := fun a b => C.decides (f a) (f b)
  irrefl := fun a => C.irrefl (f a)
  trans := fun a b c => C.trans (f a) (f b) (f c)
  connected := fun a b hne => C.connected (f a) (f b) fun heq => hne (hf a b heq)

/-- **The comparison of pairs**: the second column decides between ties in the first one. -/
def lex [DecidableEq κ] (C : Comparison κ) (D : Comparison μ) : Comparison (κ × μ) where
  lt := fun a b => C.lt a.1 b.1 ∨ a.1 = b.1 ∧ D.lt a.2 b.2
  decides := fun _ _ => inferInstanceAs (Decidable (_ ∨ _ ∧ _))
  irrefl := by
    rintro a (h | ⟨-, h⟩)
    · exact C.irrefl a.1 h
    · exact D.irrefl a.2 h
  trans := by
    rintro a b c (hab | ⟨hab, hab'⟩) (hbc | ⟨hbc, hbc'⟩)
    · exact .inl (C.trans _ _ _ hab hbc)
    · exact .inl (hbc ▸ hab)
    · exact .inl (hab ▸ hbc)
    · exact .inr ⟨hab.trans hbc, D.trans _ _ _ hab' hbc'⟩
  connected := by
    intro a b hne
    by_cases h : a.1 = b.1
    · rcases D.connected a.2 b.2 fun h' => hne (Prod.ext h h') with h' | h'
      · exact .inl (.inr ⟨h, h'⟩)
      · exact .inr (.inr ⟨h.symm, h'⟩)
    · exact (C.connected a.1 b.1 h).imp .inl .inl

end Comparison

/-! ### Sorted rows -/

section

variable {α κ : Type*} (C : Comparison κ) (key : α → κ)

/-- One row comes before another one: its key is greater. -/
def Before (a b : α) : Prop := C.lt (key b) (key a)

/-- The rows, the greatest key first. -/
def descending (rows : List α) : List α :=
  rows.insertionSort fun a b => ¬C.lt (key a) (key b)

variable {C key}

theorem descending_perm (rows : List α) : (descending C key rows).Perm rows :=
  List.perm_insertionSort _ rows

theorem decides_of_ne {a b : α} (h : key a ≠ key b) :
    Sorting.Decides (fun a b => ¬C.lt (key a) (key b)) (Before C key) a b :=
  ⟨fun hlt => (C.connected _ _ h).resolve_left hlt, not_not.1⟩

theorem decides_rows {rows : List α} (h : (rows.map key).Nodup) :
    rows.Pairwise (Sorting.Decides (fun a b => ¬C.lt (key a) (key b)) (Before C key)) :=
  (List.pairwise_map.1 h).imp decides_of_ne

/-- **The sorted rows** are strictly decreasing when no two of them share a key. -/
theorem descending_sorted {rows : List α} (h : (rows.map key).Nodup) :
    (descending C key rows).Pairwise (Before C key) := by
  have htrans : ∀ a b c, Before C key a b → Before C key b c → Before C key a c :=
    fun a b c hab hbc => C.trans _ _ _ hbc hab
  exact Sorting.insertionSort_strict htrans (decides_rows h)

/-- **A condition** can be put on the rows before or after they are sorted. -/
theorem descending_filter {rows : List α} (h : (rows.map key).Nodup) (p : α → Bool) :
    descending C key (rows.filter p) = (descending C key rows).filter p := by
  have hfilter : ((rows.filter p).map key).Nodup :=
    h.sublist (List.filter_sublist.map key)
  refine List.Perm.eq_of_pairwise
    (fun a b _ _ (hab : Before C key a b) (hba : Before C key b a) => absurd hba (C.asymm hab))
    (descending_sorted hfilter) ((descending_sorted h).filter p) ?_
  exact (descending_perm _).trans ((descending_perm rows).symm.filter p)

/-- **After a row** of the sorted rows stand those with smaller keys. -/
theorem filter_after {before rest : List α} {a : α}
    (h : (before ++ a :: rest).Pairwise (Before C key)) :
    (before ++ a :: rest).filter (fun b => decide (C.lt (key b) (key a))) = rest := by
  obtain ⟨-, hrest, hbefore⟩ := List.pairwise_append.1 h
  have hnone : before.filter (fun b => decide (C.lt (key b) (key a))) = [] :=
    List.filter_eq_nil_iff.2 fun b hb hlt =>
      C.asymm (hbefore b hb a List.mem_cons_self) (of_decide_eq_true hlt)
  have hall : rest.filter (fun b => decide (C.lt (key b) (key a))) = rest :=
    List.filter_eq_self.2 fun b hb => decide_eq_true ((List.pairwise_cons.1 hrest).1 b hb)
  rw [List.filter_append, hnone, List.filter_cons_of_neg, hall, List.nil_append]
  simpa using C.irrefl (key a)

end

/-! ### Pages -/

/-- A page, with the cursor of the next one. -/
structure Page (β γ : Type*) where
  items : List β
  nextCursor : Option γ
deriving DecidableEq, Repr

section

variable {α β γ ℓ ε : Type*}

/-- The page that is due when these rows are left: `encode` writes the cursor of a row, and
`display` the items of a page. -/
def cut (encode : α → γ) (display : List α → List β) (rest : List α) (limit : ℕ) : Page β γ where
  items := display (rest.take limit)
  nextCursor := if limit < rest.length then (rest.take limit).getLast?.map encode else none

/-- The pages from one on, each one but the first with a limit of its own: a client follows the
cursors until there is none.  `none` when a request fails, or after `fuel` pages. -/
def readOn (endpoint : Option γ → ℓ → Except ε (Page β γ)) :
    ℕ → (ℕ → ℓ) → Page β γ → Option (List (Page β γ))
  | 0, _, _ => none
  | fuel + 1, limits, page =>
    match page.nextCursor with
    | none => some [page]
    | some cursor =>
      match endpoint (some cursor) (limits 0) with
      | .error _ => none
      | .ok next => (readOn endpoint fuel (fun k => limits (k + 1)) next).map fun pages =>
          page :: pages

/-- The pages from the first one on. -/
def readAll (endpoint : Option γ → ℓ → Except ε (Page β γ)) (fuel : ℕ) (limits : ℕ → ℓ) :
    Option (List (Page β γ)) :=
  match endpoint none (limits 0) with
  | .error _ => none
  | .ok page => readOn endpoint fuel (fun k => limits (k + 1)) page

/-- A page shows these rows, and its cursor is the one of the last of them. -/
def Shows (encode : α → γ) (display : List α → List β) (page : Page β γ) (rows : List α) : Prop :=
  page.items = display rows ∧
    ∀ cursor, page.nextCursor = some cursor → ∃ row, rows.getLast? = some row ∧
      cursor = encode row

/-- **An endpoint serves** sorted rows: it answers without a cursor, and with the cursor of each
row, by the page that is due. -/
structure Serves (endpoint : Option γ → ℓ → Except ε (Page β γ)) (valid : ℓ → ℕ → Prop)
    (encode : α → γ) (display : List α → List β) (rows : List α) : Prop where
  positive : ∀ value limit, valid value limit → 0 < limit
  first : ∀ value limit, valid value limit →
    endpoint none value = .ok (cut encode display rows limit)
  next : ∀ before row rest, rows = before ++ row :: rest → ∀ value limit, valid value limit →
    endpoint (some (encode row)) value = .ok (cut encode display rest limit)

variable {endpoint : Option γ → ℓ → Except ε (Page β γ)} {valid : ℓ → ℕ → Prop} {encode : α → γ}
  {display : List α → List β} {rows : List α}

theorem shows_cut (rest : List α) (limit : ℕ) :
    Shows encode display (cut encode display rest limit) (rest.take limit) := by
  refine ⟨rfl, fun cursor h => ?_⟩
  unfold cut at h
  dsimp only at h
  split_ifs at h with hmore
  obtain ⟨row, hrow, rfl⟩ := Option.map_eq_some_iff.1 h
  exact ⟨row, hrow, rfl⟩

/-- The rows up to a page end with the last row of the page. -/
theorem split_at_cursor {rest : List α} {limit : ℕ} (hlimit : 0 < limit)
    (hmore : limit < rest.length) :
    ∃ front row, (rest.take limit).getLast? = some row ∧
      rest = front ++ row :: rest.drop limit := by
  have hne : rest.take limit ≠ [] := by
    intro h
    have hlength := congrArg List.length h
    rw [List.length_take, List.length_nil] at hlength
    omega
  refine ⟨(rest.take limit).dropLast, (rest.take limit).getLast hne,
    List.getLast?_eq_some_getLast hne, ?_⟩
  calc rest = rest.take limit ++ rest.drop limit := (List.take_append_drop limit rest).symm
    _ = ((rest.take limit).dropLast ++ [(rest.take limit).getLast hne]) ++ rest.drop limit := by
      rw [List.dropLast_concat_getLast]
    _ = _ := by rw [List.append_assoc, List.singleton_append]

/-- **Reading on**: from the page that is due, a client reads all rows that are left, and ends. -/
theorem readOn_cut (h : Serves endpoint valid encode display rows) :
    ∀ fuel rest, rest.length < fuel → ∀ before, rows = before ++ rest → ∀ limit, 0 < limit →
      ∀ limits : ℕ → ℓ, (∀ k, ∃ limit, valid (limits k) limit) →
      ∃ pages chunks, readOn endpoint fuel limits (cut encode display rest limit) = some pages ∧
        chunks.flatten = rest ∧ List.Forall₂ (Shows encode display) pages chunks := by
  intro fuel
  induction fuel with
  | zero => exact fun rest hfuel => absurd hfuel (Nat.not_lt_zero _)
  | succ fuel ih =>
    intro rest hfuel before hrows limit hlimit limits hlimits
    by_cases hmore : limit < rest.length
    · -- the cursor of the last row asks for what comes after the page
      obtain ⟨front, row, hlast, hsplit⟩ := split_at_cursor hlimit hmore
      obtain ⟨limit', hvalid⟩ := hlimits 0
      have hnext : endpoint (some (encode row)) (limits 0) =
          .ok (cut encode display (rest.drop limit) limit') :=
        h.next (before ++ front) row _
          (by rw [List.append_assoc, ← hsplit, ← hrows]) _ _ hvalid
      have hdrop : (rest.drop limit).length < fuel := by
        rw [List.length_drop]
        omega
      obtain ⟨pages, chunks, hread, hflatten, hshows⟩ := ih (rest.drop limit) hdrop
        (before ++ rest.take limit)
        (by rw [List.append_assoc, List.take_append_drop, ← hrows]) limit'
        (h.positive _ _ hvalid) (fun k => limits (k + 1)) fun k => hlimits (k + 1)
      refine ⟨cut encode display rest limit :: pages, rest.take limit :: chunks, ?_, ?_,
        .cons (shows_cut rest limit) hshows⟩
      · have hcursor : (cut encode display rest limit).nextCursor = some (encode row) := by
          rw [cut, if_pos hmore, hlast, Option.map_some]
        rw [readOn, hcursor]
        dsimp only
        rw [hnext]
        dsimp only
        rw [hread, Option.map_some]
      · rw [List.flatten_cons, hflatten, List.take_append_drop]
    · have hcursor : (cut encode display rest limit).nextCursor = none := by
        rw [cut, if_neg hmore]
      refine ⟨[cut encode display rest limit], [rest.take limit], ?_, ?_,
        .cons (shows_cut rest limit) .nil⟩
      · rw [readOn, hcursor]
      · rw [List.flatten_cons, List.flatten_nil, List.append_nil,
          List.take_of_length_le (not_lt.1 hmore)]

/-- **Reading all pages**: a client reads every row once, in their order, and ends. -/
theorem readAll_complete (h : Serves endpoint valid encode display rows) {fuel : ℕ}
    (hfuel : rows.length < fuel) {limits : ℕ → ℓ} (hlimits : ∀ k, ∃ limit, valid (limits k) limit) :
    ∃ pages chunks, readAll endpoint fuel limits = some pages ∧ chunks.flatten = rows ∧
      List.Forall₂ (Shows encode display) pages chunks := by
  obtain ⟨limit, hvalid⟩ := hlimits 0
  rw [readAll, h.first _ _ hvalid]
  exact readOn_cut h fuel rows hfuel [] rfl limit (h.positive _ _ hvalid) _
    fun k => hlimits (k + 1)

/-- A page that was cut from one row more than it holds is the page that is due. -/
theorem cut_take_succ (rest : List α) (limit : ℕ) :
    cut encode display (rest.take (limit + 1)) limit = cut encode display rest limit := by
  have htake : (rest.take (limit + 1)).take limit = rest.take limit := by
    rw [List.take_take, min_eq_left (Nat.le_succ limit)]
  have hlength : limit < (rest.take (limit + 1)).length ↔ limit < rest.length := by
    rw [List.length_take]
    omega
  simp only [cut, htake, hlength]

/-- **An endpoint serves** the sorted rows when it cuts its pages from one row more than they hold,
and a cursor restricts the rows to those with smaller keys. -/
theorem serves_of_condition {κ : Type*} {C : Comparison κ} {key : α → κ} {rows : List α}
    (hnodup : (rows.map key).Nodup) (hpositive : ∀ value limit, valid value limit → 0 < limit)
    (hfirst : ∀ value limit, valid value limit → endpoint none value =
      .ok (cut encode display ((descending C key rows).take (limit + 1)) limit))
    (hnext : ∀ row ∈ rows, ∀ value limit, valid value limit →
      endpoint (some (encode row)) value = .ok (cut encode display ((descending C key
        (rows.filter fun b => decide (C.lt (key b) (key row)))).take (limit + 1)) limit)) :
    Serves endpoint valid encode display (descending C key rows) := by
  refine ⟨hpositive, fun value limit hvalid => ?_, ?_⟩
  · rw [hfirst value limit hvalid, cut_take_succ]
  · intro before row rest hsplit value limit hvalid
    have hperm : (descending C key rows).Perm rows := descending_perm rows
    have hrow : row ∈ rows := by
      rw [← hperm.mem_iff, hsplit]
      exact List.mem_append_right before List.mem_cons_self
    have hafter : (descending C key rows).filter (fun b => decide (C.lt (key b) (key row))) =
        rest := by
      rw [hsplit]
      exact filter_after (hsplit ▸ descending_sorted hnodup)
    rw [hnext row hrow value limit hvalid, cut_take_succ, descending_filter hnodup, hafter]

end

end Keyset

end PreCommunity
