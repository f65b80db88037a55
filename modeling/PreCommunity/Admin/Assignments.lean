import Mathlib.Data.Char
import Mathlib.Data.List.Dedup
import Mathlib.Data.List.Lex
import PreCommunity.Admin.Managers

/-!
# The assignments of goal managers as they are written

The addresses of the Safe, of the chain and of the tables are texts whose letter case may differ.
Three sources say who should manage goals: the owners of the Safe, the assignments by hand, and the
managers of the contract that are older than the assignments.

* `reconcile` : `reconcileSafeOwnerGoalManagerAssignments` over any type of addresses.
* `desiredGoalManagerSet`, `goalManagerChanges`, `executeChanges` : what is wanted, and how the
  contract gets there.
* `reconciled_managers` : what a reconciliation comes to, given what the contract does.
* `reconcileAssignments_eq`, `mem_desiredGoalManagerSet_iff`, `goalManagerChanges_eq` : the same for
  the tables of the administration, whose addresses have no letter case.
-/

namespace PreCommunity

namespace Admin

namespace Assignments

open Store Escrow

/-- A row of `GoalManagerAssignment` over addresses of the type `α`. -/
structure Assignment (α : Type) where
  address : α
  source : GoalManagerAssignmentSource
  desiredEnabled : Bool
deriving DecidableEq, Repr

/-- An entry of a list of changes over addresses of the type `α`. -/
structure Change (α : Type) where
  address : α
  enabled : Bool
deriving DecidableEq, Repr

section

variable {α : Type} [DecidableEq α]

/-- `Set.add`. -/
def addTo (set : List α) (a : α) : List α := if a ∈ set then set else set ++ [a]

theorem mem_foldl_addTo {l set : List α} {a : α} :
    a ∈ l.foldl addTo set ↔ a ∈ set ∨ a ∈ l := by
  induction l generalizing set with
  | nil => simp
  | cons b l ih =>
    rw [List.foldl_cons, ih, addTo]
    split_ifs with hb
    · by_cases hab : a = b
      · simp [hab, hb]
      · simp [hab]
    · simp [or_assoc]

variable [LE α] [DecidableLE α] (toLowerCase : α → α)

/-- `normalizedAddresses`. -/
def normalizedAddresses (addresses : List α) : List α :=
  ((addresses.map toLowerCase).foldl addTo []).insertionSort (· ≤ ·)

/-- The assignment of an owner of the Safe. -/
def upsertOwner (rows : List (Assignment α)) (address : α) : List (Assignment α) :=
  upsert (fun row => row.address = address ∧ row.source = .safeOwner)
    (fun row => { row with desiredEnabled := true }) ⟨address, .safeOwner, true⟩ rows

/-- The assignment of a manager that nobody assigned. -/
def upsertLegacy (rows : List (Assignment α)) (address : α) : List (Assignment α) :=
  upsert (fun row => row.address = address ∧ row.source = .manual) (fun row => row)
    ⟨address, .manual, true⟩ rows

/-- The assignments of former owners are withdrawn. -/
def withdrawFormer (safeOwners : List α) (rows : List (Assignment α)) : List (Assignment α) :=
  updateWhere (fun row : Assignment α =>
    row.source = .safeOwner ∧ row.desiredEnabled ∧ row.address ∉ safeOwners)
    (fun row => { row with desiredEnabled := false }) rows

/-- The managers that nobody assigned and that are no owners. -/
def legacyManagers (safeOwners actualManagers : List α) (existing : List (Assignment α)) :
    List α :=
  (actualManagers.map toLowerCase).filter fun address => address ∉ safeOwners ∧
    address ∉ existing.map fun row => toLowerCase row.address

/-- `reconcileSafeOwnerGoalManagerAssignments`, from the rows that it reads to those that it
leaves. -/
def reconcile (safeOwners actualManagers : List α) (existing : List (Assignment α)) :
    List (Assignment α) :=
  let safeOwners := normalizedAddresses toLowerCase safeOwners
  let owned := safeOwners.foldl upsertOwner (withdrawFormer safeOwners existing)
  (legacyManagers toLowerCase safeOwners actualManagers existing).foldl upsertLegacy owned

/-- `desiredGoalManagerSet`. -/
def desiredGoalManagerSet (safeOwners actualManagers : List α)
    (assignments : List (Assignment α)) : List α :=
  let desired := normalizedAddresses toLowerCase safeOwners
  let addressesWithPolicy := assignments.map fun row => toLowerCase row.address
  let desired := ((assignments.filter (·.desiredEnabled)).map
    fun row => toLowerCase row.address).foldl addTo desired
  ((actualManagers.map toLowerCase).filter fun address => address ∉ addressesWithPolicy).foldl
    addTo desired

/-- The changes that `prepareSafeGoalManagerSync` finds. -/
def rawChanges (desiredManagers actualManagers : List α) : List (Change α) :=
  ((desiredManagers.filter fun address => address ∉ actualManagers).map (Change.mk · true)) ++
    (actualManagers.filter fun address => address ∉ desiredManagers).map (Change.mk · false)

/-- `normalizedGoalManagerChanges`. -/
def normalizedGoalManagerChanges (changes : List (Change α)) : List (Change α) :=
  (changes.map fun change => { change with address := toLowerCase change.address }).insertionSort
    fun a b => a.address ≤ b.address

/-- The changes that `prepareSafeGoalManagerSync` prepares. -/
def goalManagerChanges (desiredManagers actualManagers : List α) : List (Change α) :=
  normalizedGoalManagerChanges toLowerCase
    (rawChanges desiredManagers (actualManagers.map toLowerCase))

/-- The contract executes a list of changes with its `setGoalManager`, one after another. -/
def executeChanges (setGoalManager : List α → Change α → List α) (managers : List α)
    (changes : List (Change α)) : List α :=
  changes.foldl setGoalManager managers

/-- What `setGoalManager` of the contract does: the address of the change becomes a manager or
ceases to be one, and the others are as before. -/
def SetsGoalManager (setGoalManager : List α → Change α → List α) : Prop :=
  ∀ managers change address, address ∈ setGoalManager managers change ↔
    if change.address = address then change.enabled = true else address ∈ managers

/-! ### The rows after a reconciliation -/

variable {toLowerCase} {safeOwners actualManagers : List α} {existing rows : List (Assignment α)}
  {row : Assignment α} {address : α}

theorem mem_normalizedAddresses : address ∈ normalizedAddresses toLowerCase safeOwners ↔
    address ∈ safeOwners.map toLowerCase := by
  rw [normalizedAddresses, List.mem_insertionSort, mem_foldl_addTo]
  simp

omit [LE α] [DecidableLE α] in
theorem mem_upsertOwner : row ∈ upsertOwner rows address ↔
    (row ∈ rows ∧ ¬ (row.source = .safeOwner ∧ row.address = address)) ∨
      row = ⟨address, .safeOwner, true⟩ := by
  unfold upsertOwner upsert
  split_ifs with hany
  · rw [mem_updateWhere]
    constructor
    · rintro ⟨x, hx, rfl⟩
      split_ifs with hp
      · simp only [decide_eq_true_eq] at hp
        exact .inr (by rw [← hp.1, ← hp.2])
      · refine .inl ⟨hx, fun h => hp ?_⟩
        simp [h.1, h.2]
    · rintro (⟨hrow, hne⟩ | rfl)
      · refine ⟨row, hrow, if_neg fun hp => hne ?_⟩
        simp only [decide_eq_true_eq] at hp
        exact hp.symm
      · obtain ⟨x, hx, hp⟩ := List.any_eq_true.1 hany
        refine ⟨x, hx, ?_⟩
        rw [if_pos hp]
        simp only [decide_eq_true_eq] at hp
        rw [← hp.1, ← hp.2]
  · rw [List.mem_append, List.mem_singleton]
    refine or_congr_left ⟨fun hrow => ⟨hrow, fun h => hany ?_⟩, fun h => h.1⟩
    exact List.any_eq_true.2 ⟨row, hrow, by simp [h.1, h.2]⟩

omit [LE α] [DecidableLE α] in
/-- After their upserts, all owners are assigned. -/
theorem mem_foldl_upsertOwner {addresses : List α} : row ∈ addresses.foldl upsertOwner rows ↔
    (row ∈ rows ∧ ¬ (row.source = .safeOwner ∧ row.address ∈ addresses)) ∨
      (row.address ∈ addresses ∧ row = ⟨row.address, .safeOwner, true⟩) := by
  induction addresses generalizing rows with
  | nil => simp
  | cons b addresses ih =>
    obtain ⟨a, source, enabled⟩ := row
    rw [List.foldl_cons, ih, mem_upsertOwner]
    simp only [List.mem_cons, Assignment.mk.injEq, true_and]
    by_cases hab : a = b
    · subst hab
      cases source with
      | manual => simp
      | safeOwner => by_cases hmem : a ∈ addresses <;> simp [hmem]
    · simp [hab]

omit [LE α] [DecidableLE α] in
theorem mem_upsertLegacy : row ∈ upsertLegacy rows address ↔
    row ∈ rows ∨ (row = ⟨address, .manual, true⟩ ∧
      ∀ other ∈ rows, ¬ (other.source = .manual ∧ other.address = address)) := by
  unfold upsertLegacy upsert
  split_ifs with hany
  · obtain ⟨x, hx, hp⟩ := List.any_eq_true.1 hany
    simp only [decide_eq_true_eq] at hp
    have hself : updateWhere (fun row : Assignment α =>
        decide (row.address = address ∧ row.source = .manual)) (fun row => row) rows = rows := by
      simp [updateWhere]
    rw [hself]
    refine ⟨.inl, ?_⟩
    rintro (hrow | ⟨-, hnone⟩)
    · exact hrow
    · exact absurd hp.symm (hnone x hx)
  · rw [List.mem_append, List.mem_singleton]
    refine or_congr_right ⟨fun hrow => ⟨hrow, fun other hother h => hany ?_⟩, fun h => h.1⟩
    exact List.any_eq_true.2 ⟨other, hother, by simp [h.1, h.2]⟩

omit [LE α] [DecidableLE α] in
/-- After their upserts, the managers are assigned that nobody assigned by hand. -/
theorem mem_foldl_upsertLegacy {addresses : List α} : row ∈ addresses.foldl upsertLegacy rows ↔
    row ∈ rows ∨ (row.address ∈ addresses ∧ row = ⟨row.address, .manual, true⟩ ∧
      ∀ other ∈ rows, ¬ (other.source = .manual ∧ other.address = row.address)) := by
  induction addresses generalizing rows with
  | nil => simp
  | cons b addresses ih =>
    obtain ⟨a, source, enabled⟩ := row
    rw [List.foldl_cons, ih]
    simp only [mem_upsertLegacy, List.mem_cons, Assignment.mk.injEq, true_and]
    by_cases hab : a = b
    · subst hab
      grind
    · grind

omit [LE α] [DecidableLE α] in
theorem mem_withdrawFormer {owners : List α} : row ∈ withdrawFormer owners rows ↔
    (row.source = .manual ∧ row ∈ rows) ∨
    (row.source = .safeOwner ∧ row.address ∈ owners ∧ row ∈ rows) ∨
    (row.source = .safeOwner ∧ row.address ∉ owners ∧ row.desiredEnabled = false ∧
      ∃ x ∈ rows, x.source = .safeOwner ∧ x.address = row.address) := by
  unfold withdrawFormer
  rw [mem_updateWhere]
  constructor
  · rintro ⟨⟨a, source, enabled⟩, hx, rfl⟩
    cases source with
    | manual => exact .inl (by simpa using hx)
    | safeOwner =>
      by_cases ha : a ∈ owners
      · exact .inr (.inl (by simpa [ha] using hx))
      · refine .inr (.inr ⟨?_, ?_, ?_, _, hx, rfl, ?_⟩) <;> cases enabled <;> simp [ha]
  · rintro (⟨hsource, hrow⟩ | ⟨-, ha, hrow⟩ | ⟨hsource, ha, hdisabled, x, hx, hxs, hxa⟩)
    · exact ⟨row, hrow, by simp [hsource]⟩
    · exact ⟨row, hrow, by simp [ha]⟩
    · obtain ⟨a, source, enabled⟩ := row
      obtain ⟨b, source', enabled'⟩ := x
      simp only at hsource ha hdisabled hxs hxa
      subst hsource hdisabled hxs hxa
      exact ⟨_, hx, by cases enabled' <;> simp [ha]⟩

/-- **The rows after a reconciliation**: those assigned by hand, the former owners withdrawn, the
owners enabled, and the managers that nobody assigned. -/
theorem mem_reconcile (hlower : ∀ a : α, toLowerCase (toLowerCase a) = toLowerCase a) :
    row ∈ reconcile toLowerCase safeOwners actualManagers existing ↔
      (row.source = .manual ∧ row ∈ existing) ∨
      (row.source = .safeOwner ∧ row.desiredEnabled = false ∧
        row.address ∉ safeOwners.map toLowerCase ∧
        ∃ x ∈ existing, x.source = .safeOwner ∧ x.address = row.address) ∨
      (row = ⟨row.address, .safeOwner, true⟩ ∧ row.address ∈ safeOwners.map toLowerCase) ∨
      (row = ⟨row.address, .manual, true⟩ ∧ row.address ∈ actualManagers.map toLowerCase ∧
        row.address ∉ safeOwners.map toLowerCase ∧
        row.address ∉ existing.map fun x => toLowerCase x.address) := by
  obtain ⟨a, source, enabled⟩ := row
  unfold reconcile
  simp only [mem_foldl_upsertLegacy, mem_foldl_upsertOwner, mem_withdrawFormer, legacyManagers,
    List.mem_filter, mem_normalizedAddresses, decide_eq_true_eq]
  -- A manager that nobody assigned has no assignment by hand either.
  have hlegacy : a ∈ actualManagers.map toLowerCase →
      a ∉ existing.map (fun x => toLowerCase x.address) →
        ∀ other ∈ existing, other.address ≠ a := by
    rintro ha hnone other hother rfl
    obtain ⟨m, -, hm⟩ := List.mem_map.1 ha
    refine hnone (List.mem_map.2 ⟨other, hother, ?_⟩)
    rw [← hm, hlower]
  cases source with
  | safeOwner => grind
  | manual => grind

/-! ### What is wanted -/

theorem mem_desiredGoalManagerSet :
    address ∈ desiredGoalManagerSet toLowerCase safeOwners actualManagers rows ↔
      address ∈ safeOwners.map toLowerCase ∨
      (∃ x ∈ rows, x.desiredEnabled = true ∧ toLowerCase x.address = address) ∨
      (address ∈ actualManagers.map toLowerCase ∧
        address ∉ rows.map fun x => toLowerCase x.address) := by
  simp only [desiredGoalManagerSet, mem_foldl_addTo, mem_normalizedAddresses, List.mem_filter,
    List.mem_map, decide_eq_true_eq, or_assoc, and_assoc]

/-- An address that was assigned stays assigned. -/
theorem assigned_reconcile (hlower : ∀ a : α, toLowerCase (toLowerCase a) = toLowerCase a)
    (h : address ∈ existing.map fun x => toLowerCase x.address) :
    address ∈ (reconcile toLowerCase safeOwners actualManagers existing).map
      fun x => toLowerCase x.address := by
  obtain ⟨x, hx, rfl⟩ := List.mem_map.1 h
  cases hsource : x.source with
  | manual => exact List.mem_map.2 ⟨x, (mem_reconcile hlower).2 (.inl ⟨hsource, hx⟩), rfl⟩
  | safeOwner =>
    by_cases howner : x.address ∈ safeOwners.map toLowerCase
    · refine List.mem_map.2 ⟨⟨x.address, .safeOwner, true⟩, ?_, rfl⟩
      exact (mem_reconcile hlower).2 (.inr (.inr (.inl ⟨rfl, howner⟩)))
    · refine List.mem_map.2 ⟨⟨x.address, .safeOwner, false⟩, ?_, rfl⟩
      exact (mem_reconcile hlower).2 (.inr (.inl ⟨rfl, rfl, howner, x, hx, hsource, rfl⟩))

/-- A manager of the contract is an owner or assigned. -/
theorem manager_assigned (hlower : ∀ a : α, toLowerCase (toLowerCase a) = toLowerCase a)
    (h : address ∈ actualManagers.map toLowerCase) :
    address ∈ safeOwners.map toLowerCase ∨
      address ∈ (reconcile toLowerCase safeOwners actualManagers existing).map
        fun x => toLowerCase x.address := by
  by_cases howner : address ∈ safeOwners.map toLowerCase
  · exact .inl howner
  by_cases hassigned : address ∈ existing.map fun x => toLowerCase x.address
  · exact .inr (assigned_reconcile hlower hassigned)
  · refine .inr (List.mem_map.2 ⟨⟨address, .manual, true⟩, ?_, ?_⟩)
    · exact (mem_reconcile hlower).2 (.inr (.inr (.inr ⟨rfl, h, howner, hassigned⟩)))
    · obtain ⟨b, -, rfl⟩ := List.mem_map.1 h
      exact hlower b

/-- The owners, the managers assigned by hand, and those that nobody assigned. -/
theorem mem_desired_reconcile (hlower : ∀ a : α, toLowerCase (toLowerCase a) = toLowerCase a) :
    address ∈ desiredGoalManagerSet toLowerCase safeOwners actualManagers
        (reconcile toLowerCase safeOwners actualManagers existing) ↔
      address ∈ safeOwners.map toLowerCase ∨
      (∃ x ∈ existing, x.source = .manual ∧ x.desiredEnabled = true ∧
        toLowerCase x.address = address) ∨
      (address ∈ actualManagers.map toLowerCase ∧
        address ∉ existing.map fun x => toLowerCase x.address) := by
  rw [mem_desiredGoalManagerSet]
  have hfixed : ∀ {l : List α} {a : α}, a ∈ l.map toLowerCase → toLowerCase a = a := by
    intro l a ha
    obtain ⟨b, -, rfl⟩ := List.mem_map.1 ha
    exact hlower b
  constructor
  · rintro (howner | ⟨x, hx, henabled, rfl⟩ | ⟨hmanager, hnone⟩)
    · exact .inl howner
    · rcases (mem_reconcile hlower).1 hx with
        ⟨hsource, hrow⟩ | ⟨-, hdisabled, -⟩ | ⟨-, howner⟩ | ⟨-, hmanager, -, hnone⟩
      · exact .inr (.inl ⟨x, hrow, hsource, henabled, rfl⟩)
      · rw [hdisabled] at henabled
        cases henabled
      · rw [hfixed howner]
        exact .inl howner
      · rw [hfixed hmanager]
        exact .inr (.inr ⟨hmanager, hnone⟩)
    · exact .inr (.inr ⟨hmanager, fun hassigned => hnone (assigned_reconcile hlower hassigned)⟩)
  · rintro (howner | ⟨x, hx, hsource, henabled, rfl⟩ | ⟨hmanager, hnone⟩)
    · exact .inl howner
    · exact .inr (.inl ⟨x, (mem_reconcile hlower).2 (.inl ⟨hsource, hx⟩), henabled, rfl⟩)
    · by_cases howner : address ∈ safeOwners.map toLowerCase
      · exact .inl howner
      refine .inr (.inl ⟨⟨address, .manual, true⟩, ?_, rfl, hfixed hmanager⟩)
      exact (mem_reconcile hlower).2 (.inr (.inr (.inr ⟨rfl, hmanager, howner, hnone⟩)))

/-! ### A second reconciliation -/

omit [LE α] [DecidableLE α] in
/-- The upsert of an owner that is assigned already changes nothing. -/
theorem upsertOwner_eq_self (hmem : ⟨address, .safeOwner, true⟩ ∈ rows)
    (henabled : ∀ x ∈ rows, x.source = .safeOwner → x.address = address →
      x.desiredEnabled = true) : upsertOwner rows address = rows := by
  unfold upsertOwner upsert
  rw [if_pos (List.any_eq_true.2 ⟨_, hmem, by simp⟩)]
  unfold updateWhere
  conv_rhs => rw [← List.map_id rows]
  refine List.map_congr_left fun x hx => ?_
  split_ifs with hp
  · simp only [decide_eq_true_eq] at hp
    rw [← henabled x hx hp.2 hp.1]
    rfl
  · rfl

omit [LE α] [DecidableLE α] in
theorem foldl_upsertOwner_eq_self {addresses : List α}
    (hmem : ∀ a ∈ addresses, ⟨a, .safeOwner, true⟩ ∈ rows)
    (henabled : ∀ x ∈ rows, x.source = .safeOwner → x.address ∈ addresses →
      x.desiredEnabled = true) : addresses.foldl upsertOwner rows = rows := by
  induction addresses with
  | nil => rfl
  | cons a addresses ih =>
    rw [List.foldl_cons, upsertOwner_eq_self (hmem a List.mem_cons_self)
      fun x hx hs ha => henabled x hx hs (ha ▸ List.mem_cons_self)]
    exact ih (fun b hb => hmem b (List.mem_cons_of_mem _ hb))
      fun x hx hs ha => henabled x hx hs (List.mem_cons_of_mem _ ha)

/-- Rows that are reconciled already do not change. -/
theorem reconcile_eq_self
    (hwithdraw : ∀ x ∈ rows, x.source = .safeOwner → x.desiredEnabled = true →
      x.address ∈ safeOwners.map toLowerCase)
    (howned : ∀ a ∈ safeOwners.map toLowerCase, ⟨a, .safeOwner, true⟩ ∈ rows)
    (henabled : ∀ x ∈ rows, x.source = .safeOwner → x.address ∈ safeOwners.map toLowerCase →
      x.desiredEnabled = true)
    (hlegacy : ∀ a ∈ actualManagers.map toLowerCase, a ∈ safeOwners.map toLowerCase ∨
      a ∈ rows.map fun x => toLowerCase x.address) :
    reconcile toLowerCase safeOwners actualManagers rows = rows := by
  have hnone : withdrawFormer (normalizedAddresses toLowerCase safeOwners) rows = rows := by
    refine updateWhere_eq_self fun x hx => ?_
    simp only [mem_normalizedAddresses, decide_eq_false_iff_not]
    rintro ⟨hs, he, hformer⟩
    exact hformer (hwithdraw x hx hs he)
  have hnil : legacyManagers toLowerCase (normalizedAddresses toLowerCase safeOwners)
      actualManagers rows = [] := by
    refine List.filter_eq_nil_iff.2 fun a ha => ?_
    simp only [mem_normalizedAddresses, decide_eq_true_eq]
    rintro ⟨howner, hassigned⟩
    exact (hlegacy a ha).elim howner hassigned
  unfold reconcile
  simp only [hnone, hnil, List.foldl_nil]
  exact foldl_upsertOwner_eq_self (fun a ha => howned a (mem_normalizedAddresses.1 ha))
    fun x hx hs ha => henabled x hx hs (mem_normalizedAddresses.1 ha)

/-- **A second reconciliation changes no row.** -/
theorem reconcile_reconcile (hlower : ∀ a : α, toLowerCase (toLowerCase a) = toLowerCase a) :
    reconcile toLowerCase safeOwners actualManagers
        (reconcile toLowerCase safeOwners actualManagers existing) =
      reconcile toLowerCase safeOwners actualManagers existing := by
  have henabled : ∀ x ∈ reconcile toLowerCase safeOwners actualManagers existing,
      x.source = .safeOwner →
        (x.address ∈ safeOwners.map toLowerCase ↔ x.desiredEnabled = true) := by
    intro x hx hs
    rcases (mem_reconcile hlower).1 hx with
      ⟨hsource, -⟩ | ⟨-, hdisabled, hformer, -⟩ | ⟨he, howner⟩ | ⟨he, -⟩
    · rw [hs] at hsource
      cases hsource
    · simp [hdisabled, hformer]
    · simp only [howner, true_iff]
      rw [he]
    · rw [he] at hs
      cases hs
  exact reconcile_eq_self (fun x hx hs he => (henabled x hx hs).2 he)
    (fun a ha => (mem_reconcile hlower).2 (.inr (.inr (.inl ⟨rfl, ha⟩))))
    (fun x hx hs ha => (henabled x hx hs).1 ha) fun a ha => manager_assigned hlower ha

/-! ### Executing the changes -/

variable {setGoalManager : List α → Change α → List α}

omit [LE α] [DecidableLE α] in
/-- An address about which all changes agree ends as they say. -/
theorem mem_executeChanges (hset : SetsGoalManager setGoalManager) {changes : List (Change α)}
    {managers : List α} {enabled : Bool}
    (hagree : ∀ change ∈ changes, change.address = address → change.enabled = enabled) :
    address ∈ executeChanges setGoalManager managers changes ↔
      (if ∃ change ∈ changes, change.address = address then enabled = true
        else address ∈ managers) := by
  induction changes generalizing managers with
  | nil => simp [executeChanges]
  | cons change changes ih =>
    have ih := @ih (setGoalManager managers change)
      fun c hc => hagree c (List.mem_cons_of_mem _ hc)
    rw [executeChanges, List.foldl_cons]
    refine ih.trans ?_
    simp only [hset managers change address, List.exists_mem_cons_iff]
    by_cases ha : change.address = address
    · have he := hagree change List.mem_cons_self ha
      by_cases hrest : ∃ c ∈ changes, c.address = address <;> simp [ha, he, hrest]
    · simp [ha]

omit [DecidableEq α] in
theorem mem_normalizedGoalManagerChanges {changes : List (Change α)} {change : Change α} :
    change ∈ normalizedGoalManagerChanges toLowerCase changes ↔
      ∃ c ∈ changes, { c with address := toLowerCase c.address } = change := by
  rw [normalizedGoalManagerChanges, List.mem_insertionSort, List.mem_map]

omit [LE α] [DecidableLE α] in
theorem mem_rawChanges {desired actual : List α} {change : Change α} :
    change ∈ rawChanges desired actual ↔
      (change.enabled = true ∧ change.address ∈ desired ∧ change.address ∉ actual) ∨
      (change.enabled = false ∧ change.address ∈ actual ∧ change.address ∉ desired) := by
  obtain ⟨a, enabled⟩ := change
  cases enabled <;> simp [rawChanges]

/-- **The changes lead to what is wanted**, when all addresses are in lower case. -/
theorem mem_execute_goalManagerChanges (hset : SetsGoalManager setGoalManager) {desired : List α}
    (hlower : ∀ a : α, toLowerCase (toLowerCase a) = toLowerCase a)
    (hdesired : ∀ a ∈ desired, toLowerCase a = a) :
    address ∈ executeChanges setGoalManager (actualManagers.map toLowerCase)
        (goalManagerChanges toLowerCase desired actualManagers) ↔ address ∈ desired := by
  have hactual : ∀ a ∈ actualManagers.map toLowerCase, toLowerCase a = a := by
    intro a ha
    obtain ⟨b, -, rfl⟩ := List.mem_map.1 ha
    exact hlower b
  have hmem : ∀ change, change ∈ goalManagerChanges toLowerCase desired actualManagers ↔
      change ∈ rawChanges desired (actualManagers.map toLowerCase) := by
    intro change
    rw [goalManagerChanges, mem_normalizedGoalManagerChanges]
    have hfixed : ∀ c ∈ rawChanges desired (actualManagers.map toLowerCase),
        { c with address := toLowerCase c.address } = c := by
      intro c hc
      rcases mem_rawChanges.1 hc with ⟨-, hd, -⟩ | ⟨-, hm, -⟩
      · rw [hdesired _ hd]
      · rw [hactual _ hm]
    constructor
    · rintro ⟨c, hc, rfl⟩
      rwa [hfixed c hc]
    · exact fun hc => ⟨change, hc, hfixed change hc⟩
  have hagree : ∀ change ∈ goalManagerChanges toLowerCase desired actualManagers,
      change.address = address → change.enabled = decide (address ∈ desired) := by
    rintro change hc rfl
    rcases mem_rawChanges.1 ((hmem change).1 hc) with ⟨he, hd, -⟩ | ⟨he, -, hd⟩
    · simp [he, hd]
    · simp [he, hd]
  rw [mem_executeChanges hset hagree]
  split_ifs with h
  · simp
  · -- No change names the address, so it is wanted exactly if it is a manager.
    by_contra hne
    by_cases hd : address ∈ desired
    · refine h ⟨⟨address, true⟩, (hmem _).2 (mem_rawChanges.2 (.inl ⟨rfl, hd, ?_⟩)), rfl⟩
      exact fun hm => hne (iff_of_true hm hd)
    · refine h ⟨⟨address, false⟩, (hmem _).2 (mem_rawChanges.2 (.inr ⟨rfl, ?_, hd⟩)), rfl⟩
      by_contra hm
      exact hne (iff_of_false hm hd)

end

/-! ### Addresses as texts -/

/-- `String.toLowerCase` of an address. -/
def toLowerCase (address : Text) : Text := address.map Char.toLower

theorem toLowerCase_toLowerCase (address : Text) :
    toLowerCase (toLowerCase address) = toLowerCase address := by
  have hchar : ∀ c : Char, c.toLower.toLower = c.toLower := by
    intro c
    unfold Char.toLower
    grind
  simp [toLowerCase, hchar]

section

variable (setGoalManager : List Text → Change Text → List Text)
  (safeOwners actualManagers : List Text) (existing : List (Assignment Text))

/-- The rows after `reconcileSafeOwnerGoalManagerAssignments`. -/
def reconciled : List (Assignment Text) :=
  reconcile toLowerCase safeOwners actualManagers existing

/-- The goal managers that are wanted after it. -/
def desired : List Text :=
  desiredGoalManagerSet toLowerCase safeOwners actualManagers
    (reconciled safeOwners actualManagers existing)

/-- The managers of the contract once the changes of `prepareSafeGoalManagerSync` are executed. -/
def synchronized : List Text :=
  executeChanges setGoalManager (actualManagers.map toLowerCase)
    (goalManagerChanges toLowerCase (desired safeOwners actualManagers existing) actualManagers)

/-- **Desired goal managers after a reconciliation.**  They are the owners of the Safe, the
addresses that were assigned by hand, and the managers that nobody assigned.  A second
reconciliation changes nothing, no assignment by hand is touched, and the contract is led to them:
it keeps the managers that are older than the assignments, and drops former owners. -/
theorem reconciled_managers (hset : SetsGoalManager setGoalManager) :
    (∀ address, address ∈ desired safeOwners actualManagers existing ↔
      address ∈ safeOwners.map toLowerCase ∨
      (∃ row ∈ existing, row.source = .manual ∧ row.desiredEnabled = true ∧
        toLowerCase row.address = address) ∨
      (address ∈ actualManagers.map toLowerCase ∧
        address ∉ existing.map fun row => toLowerCase row.address)) ∧
    reconciled safeOwners actualManagers (reconciled safeOwners actualManagers existing) =
      reconciled safeOwners actualManagers existing ∧
    (∀ row : Assignment Text, row.source = .manual → row ∈ existing →
      row ∈ reconciled safeOwners actualManagers existing) ∧
    (∀ address, address ∈ synchronized setGoalManager safeOwners actualManagers existing ↔
      address ∈ desired safeOwners actualManagers existing) ∧
    (∀ address ∈ actualManagers.map toLowerCase,
      address ∉ existing.map (fun row => toLowerCase row.address) →
      address ∈ synchronized setGoalManager safeOwners actualManagers existing) ∧
    ∀ row ∈ existing, toLowerCase row.address ∉ safeOwners.map toLowerCase →
      (∀ other ∈ existing, toLowerCase other.address = toLowerCase row.address →
        other.source = .manual → other.desiredEnabled = false) →
      toLowerCase row.address ∉ synchronized setGoalManager safeOwners actualManagers existing := by
  have hdesired : ∀ address, address ∈ desired safeOwners actualManagers existing ↔ _ :=
    fun address => mem_desired_reconcile toLowerCase_toLowerCase
  have hfixed : ∀ a ∈ desired safeOwners actualManagers existing, toLowerCase a = a := by
    intro a ha
    rcases (hdesired a).1 ha with h | ⟨row, -, -, -, rfl⟩ | ⟨h, -⟩
    · obtain ⟨b, -, rfl⟩ := List.mem_map.1 h
      exact toLowerCase_toLowerCase b
    · exact toLowerCase_toLowerCase row.address
    · obtain ⟨b, -, rfl⟩ := List.mem_map.1 h
      exact toLowerCase_toLowerCase b
  have hsync : ∀ address,
      address ∈ synchronized setGoalManager safeOwners actualManagers existing ↔
        address ∈ desired safeOwners actualManagers existing :=
    fun address => mem_execute_goalManagerChanges hset toLowerCase_toLowerCase hfixed
  refine ⟨hdesired, reconcile_reconcile toLowerCase_toLowerCase, ?_, hsync, ?_, ?_⟩
  · exact fun row hsource hrow =>
      (mem_reconcile toLowerCase_toLowerCase).2 (.inl ⟨hsource, hrow⟩)
  · exact fun address hmanager hnone =>
      (hsync address).2 ((hdesired address).2 (.inr (.inr ⟨hmanager, hnone⟩)))
  · intro row hrow howner hunpinned hmem
    rcases (hdesired _).1 ((hsync _).1 hmem) with h | ⟨other, hother, hs, he, ha⟩ | ⟨-, h⟩
    · exact howner h
    · rw [hunpinned other hother ha hs] at he
      cases he
    · exact h (List.mem_map.2 ⟨row, hrow, rfl⟩)

end

/-- A contract that keeps its managers in a list. -/
def listed (managers : List Text) (change : Change Text) : List Text :=
  if change.enabled then addTo managers change.address
  else managers.filter fun address => address ≠ change.address

theorem listed_sets : SetsGoalManager listed := by
  intro managers change address
  unfold listed addTo
  split_ifs with henabled hmem ha ha ha
  · simpa [henabled, ha] using ha ▸ hmem
  · rfl
  · simp [henabled, ha]
  · simp [Ne.symm ha]
  · simp [henabled, ha]
  · simp [Ne.symm ha]

/-- An owner becomes a manager, the manager that nobody assigned stays one, and the former owner
ceases to be one. -/
theorem reconciled_managers_sample :
    desired [['A']] [['B'], ['c']] [⟨['c'], .safeOwner, true⟩] = [['a'], ['b']] ∧
    ['b'] ∈ synchronized listed [['A']] [['B'], ['c']] [⟨['c'], .safeOwner, true⟩] ∧
    ['c'] ∉ synchronized listed [['A']] [['B'], ['c']] [⟨['c'], .safeOwner, true⟩] := by
  obtain ⟨-, -, -, -, hkept, hdropped⟩ := reconciled_managers listed [['A']] [['B'], ['c']]
    [⟨['c'], .safeOwner, true⟩] listed_sets
  exact ⟨by decide, hkept ['b'] (by decide) (by decide),
    hdropped ⟨['c'], .safeOwner, true⟩ (by decide) (by decide) (by decide)⟩

/-! ### The tables of the administration -/

/-- A row of the administration, whose addresses have no letter case. -/
def ofRow (row : GoalManagerAssignment) : Assignment Address :=
  ⟨row.address, row.source, row.desiredEnabled⟩

theorem nodup_foldl_addTo {α : Type} [DecidableEq α] {l set : List α} (h : set.Nodup) :
    (l.foldl addTo set).Nodup := by
  induction l generalizing set with
  | nil => exact h
  | cons a l ih =>
    refine ih ?_
    unfold addTo
    split_ifs with ha
    · exact h
    · refine List.nodup_append.2 ⟨h, List.nodup_singleton a, ?_⟩
      rintro b hb c hc rfl
      exact ha (List.mem_singleton.1 hc ▸ hb)

theorem normalizedAddresses_eq (addresses : List Address) :
    normalizedAddresses (fun a => a) addresses = Admin.normalizedAddresses addresses := by
  have hperm : ((addresses.map fun a => a).foldl addTo []).Perm addresses.dedup := by
    refine (List.perm_ext_iff_of_nodup (nodup_foldl_addTo List.nodup_nil)
      (List.nodup_dedup _)).2 fun a => ?_
    simp [mem_foldl_addTo]
  exact List.Perm.eq_of_sortedLE (List.pairwise_insertionSort _ _).sortedLE
    (List.pairwise_insertionSort _ _).sortedLE
    (((List.perm_insertionSort _ _).trans hperm).trans (List.perm_insertionSort _ _).symm)

theorem map_updateWhere {α β : Type} (g : α → β) {p : α → Bool} {p' : β → Bool} {f : α → α}
    {f' : β → β} (hp : ∀ x, p x = p' (g x)) (hf : ∀ x, g (f x) = f' (g x)) (rows : List α) :
    (updateWhere p f rows).map g = updateWhere p' f' (rows.map g) := by
  simp only [updateWhere, List.map_map]
  refine List.map_congr_left fun x _ => ?_
  simp only [Function.comp_apply, hp]
  split_ifs
  · exact hf x
  · rfl

theorem map_upsert {α β : Type} (g : α → β) {p : α → Bool} {p' : β → Bool} {f : α → α}
    {f' : β → β} (hp : ∀ x, p x = p' (g x)) (hf : ∀ x, g (f x) = f' (g x)) (row : α)
    (rows : List α) :
    (upsert p f row rows).map g = upsert p' f' (g row) (rows.map g) := by
  have hany : rows.any p = (rows.map g).any p' := by
    rw [List.any_map]
    exact List.any_congr rfl hp
  simp only [upsert, hany]
  split_ifs
  · exact map_updateWhere g hp hf rows
  · simp

/-- **The tables of the administration** are reconciled in this way. -/
theorem reconcileAssignments_eq (safeOwners : List Address) (db : Database) :
    (reconcileAssignments safeOwners db).assignments.map ofRow =
      reconcile (fun a => a) safeOwners db.chainManagers (db.assignments.map ofRow) := by
  have howner : ∀ rows address, upsertOwner (List.map ofRow rows) address = List.map ofRow
      (upsert (fun row => row.address = address ∧ row.source = .safeOwner)
        (fun row => { row with desiredEnabled := true }) ⟨address, .safeOwner, true⟩ rows) := by
    intro rows address
    refine (map_upsert ofRow ?_ ?_ ⟨address, .safeOwner, true⟩ rows).symm <;> exact fun _ => rfl
  have hlegacy : ∀ rows address, upsertLegacy (List.map ofRow rows) address = List.map ofRow
      (upsert (fun row => row.address = address ∧ row.source = .manual) (fun row => row)
        ⟨address, .manual, true⟩ rows) := by
    intro rows address
    refine (map_upsert ofRow ?_ ?_ ⟨address, .manual, true⟩ rows).symm <;> exact fun _ => rfl
  have hwithdraw : ∀ owners rows, withdrawFormer owners (List.map ofRow rows) = List.map ofRow
      (updateWhere (fun row : GoalManagerAssignment =>
        row.source = .safeOwner ∧ row.desiredEnabled ∧ row.address ∉ owners)
        (fun row => { row with desiredEnabled := false }) rows) := by
    intro owners rows
    refine (map_updateWhere ofRow ?_ ?_ rows).symm <;> exact fun _ => rfl
  have hmanagers : legacyManagers (fun a => a) (Admin.normalizedAddresses safeOwners)
      db.chainManagers (db.assignments.map ofRow) = db.chainManagers.filter fun address =>
        address ∉ Admin.normalizedAddresses safeOwners ∧
          !(db.assignments.any fun row => row.address = address) := by
    unfold legacyManagers
    rw [List.map_id']
    refine List.filter_congr fun address _ => decide_eq_decide.2 (and_congr_right fun _ => ?_)
    simp [ofRow]
  simp only [reconcileAssignments, reconcile, normalizedAddresses_eq, hmanagers, hwithdraw]
  rw [List.foldl_hom (List.map ofRow) howner, List.foldl_hom (List.map ofRow) hlegacy]

/-- **What the administration wants** is what is wanted by its assignments. -/
theorem mem_desiredGoalManagerSet_iff {safeOwners actualManagers : List Address}
    {assignments : List GoalManagerAssignment} {address : Address} :
    address ∈ Admin.desiredGoalManagerSet safeOwners actualManagers assignments ↔
      address ∈ desiredGoalManagerSet (fun a => a) safeOwners actualManagers
        (assignments.map ofRow) := by
  rw [mem_desiredGoalManagerSet]
  simp only [Admin.desiredGoalManagerSet, Admin.normalizedAddresses, List.mem_insertionSort,
    List.mem_dedup, List.mem_append, List.map_id', or_assoc]
  refine or_congr_right (or_congr ?_ ?_)
  · simp [ofRow, and_assoc]
  · simp [ofRow]

/-- A change of the administration, whose address has no letter case. -/
def ofChange (change : GoalManagerChange) : Change Address := ⟨change.address, change.enabled⟩

/-- **The changes that the administration prepares** are those that lead to what is wanted. -/
theorem goalManagerChanges_eq (desiredManagers actualManagers : List Address) :
    (Admin.normalizedGoalManagerChanges
      (Admin.goalManagerChanges desiredManagers actualManagers)).map ofChange =
      goalManagerChanges (fun a => a) desiredManagers actualManagers := by
  have hraw : (Admin.goalManagerChanges desiredManagers actualManagers).map ofChange =
      rawChanges desiredManagers actualManagers := by
    simp [Admin.goalManagerChanges, rawChanges, ofChange, Function.comp_def]
  rw [goalManagerChanges, normalizedGoalManagerChanges, List.map_id', List.map_id', ← hraw]
  exact List.map_insertionSort _ _ _ _ fun _ _ _ _ => Iff.rfl

end Assignments

end Admin

end PreCommunity
