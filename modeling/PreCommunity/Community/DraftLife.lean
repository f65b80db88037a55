import PreCommunity.Community.Conversion
import PreCommunity.Community.Quotas

/-!
# The life of a goal draft

A draft is written, submitted to the chain and published when its goal is projected; it may be
archived.  Editing, submitting and projecting read the draft before they write, and write whatever
its status is by then.

* `Timely` : a write finds the draft in a status that it may be written in.
* `StatusMoves` : the moves of the status.
* `ExpenseStep` : what a write may do to the drafts.
* `draft_life` : when every write is timely, the status only moves forward and what was submitted
  does not change.
-/

namespace PreCommunity

namespace Community

open Concurrent Store
open Escrow (Id Time Address Hash Text GoalFacts ExpenseStatus)

section

variable (O : Outside)

/-- The job may write a draft that has this id and status. -/
def Job.mayWrite (id : Id) (status : ExpenseStatus) : Job → Bool
  | .updateExpense _ written _ => written = id → status = .draft
  | .markExpenseSubmitted _ written _ => written = id → status = .draft ∨ status = .pendingChain
  | .projectGoalCreated _ _ goalId _ _ => O.checks.goalIdOf id = goalId →
      status = .pendingChain ∨ status = .published
  | _ => true

/-- A draft is edited while it is a draft, submitted before it is published, and published after it
was submitted. -/
def Timely (j : Job) (_ : Time) (db _ : Database) : Prop :=
  ∀ row ∈ db.expenses, j.mayWrite O row.id row.status = true

instance (j : Job) (t : Time) (db db' : Database) : Decidable (Timely O j t db db') :=
  inferInstanceAs (Decidable (∀ row ∈ db.expenses, j.mayWrite O row.id row.status = true))

end

/-- The moves of the status of a draft. -/
def StatusMoves (status status' : ExpenseStatus) : Prop :=
  status' = status ∨ status' = .archived ∨ (status = .draft ∧ status' = .pendingChain) ∨
    (status = .pendingChain ∧ status' = .published)

/-- What is submitted: everything but the status and what belongs to it. -/
def Expense.content (row : Expense) : Expense :=
  { row with
    status := .draft
    previewToken := none
    pendingChainGoalId := none
    pendingChainTxHash := none
    archivedAt := none }

/-- What a write may do to a draft. -/
structure ExpenseMove (row row' : Expense) : Prop where
  id : row'.id = row.id
  status : StatusMoves row.status row'.status
  content : row.status ≠ .draft → row'.content = row.content

/-- What a write may do to the drafts: it moves them, or adds a new one. -/
def ExpenseStep (db db' : Database) : Prop :=
  ∀ row' ∈ db'.expenses, (∃ row ∈ db.expenses, ExpenseMove row row') ∨
    row'.status = .draft ∧ ∀ row ∈ db.expenses, row.id ≠ row'.id

/-- What becomes of a status in the end. -/
def StatusReaches : ExpenseStatus → ExpenseStatus → Prop
  | .draft, _ => True
  | .pendingChain, status' => status' ≠ .draft
  | .published, status' => status' = .published ∨ status' = .archived
  | .archived, status' => status' = .archived

theorem StatusReaches.refl : ∀ status : ExpenseStatus, StatusReaches status status
  | .draft => trivial
  | .pendingChain => by rintro ⟨⟩
  | .published => .inl rfl
  | .archived => rfl

theorem StatusReaches.move {status status' status'' : ExpenseStatus}
    (h : StatusReaches status status') (hmove : StatusMoves status' status'') :
    StatusReaches status status'' := by
  unfold StatusMoves at hmove
  unfold StatusReaches at h ⊢
  cases status <;> cases status' <;> cases status'' <;> simp_all

section

variable {O : Outside} {w : World} {j : Job} {db' : Database} {log : Log}

/-! ### One write -/

theorem ExpenseMove.refl (row : Expense) : ExpenseMove row row :=
  ⟨rfl, .inl rfl, fun _ => rfl⟩

/-- A write that is timely moves the draft that it writes, and no other. -/
theorem expenses_move {p : Expense → Bool} {f : Expense → Expense}
    (hf : ∀ row ∈ w.db.expenses, p row = true → ExpenseMove row (f row)) :
    ∀ row' ∈ updateWhere p f w.db.expenses, ∃ row ∈ w.db.expenses, ExpenseMove row row' :=
  fun row' hrow' => by
    obtain ⟨hrow, -⟩ | ⟨row, hrow, hp, rfl⟩ := mem_updateWhere_cases hrow'
    · exact ⟨row', hrow, .refl row'⟩
    · exact ⟨row, hrow, hf row hrow hp⟩

/-- **One write** that is timely. -/
theorem Change.expenseStep (hw : Sound O w) (h : Change O log w j db')
    (htimely : Timely O j w.clock w.db db') : ExpenseStep w.db db' := by
  have hsame : ∀ row ∈ w.db.expenses, ∃ old ∈ w.db.expenses, ExpenseMove old row :=
    fun row hrow => ⟨row, hrow, .refl row⟩
  have hmoved : ∀ {p : Expense → Bool} {f : Expense → Expense},
      db'.expenses = updateWhere p f w.db.expenses →
      (∀ row ∈ w.db.expenses, p row = true → ExpenseMove row (f row)) →
        ExpenseStep w.db db' := fun heq hf row' hrow' =>
    .inl (expenses_move hf row' (heq ▸ hrow'))
  cases h with
  | reply _ _ _ _ _ _ _ _ _ htx =>
    obtain ⟨-, -, -, rfl⟩ := replyTx_ok htx
    exact fun row hrow => .inl (hsame row hrow)
  | propose _ _ _ _ _ _ _ htx =>
    obtain ⟨-, rfl⟩ := proposeTx_ok htx
    exact fun row hrow => .inl (hsame row hrow)
  | createExpense _ row _ _ htx =>
    obtain ⟨rfl, -, rfl⟩ := createExpenseTx_ok htx
    intro row hrow
    obtain hrow | hrow := List.mem_append.1 hrow
    · exact .inl (hsame row hrow)
    · rw [List.mem_singleton.1 hrow]
      exact .inr ⟨rfl, fun old hold => (hw.db.expensesBelow old hold).ne⟩
  | @updateExpense n id dto =>
    refine hmoved rfl fun row hrow hp => ⟨rfl, .inl rfl, fun hstatus => ?_⟩
    exact absurd (of_decide_eq_true (htimely row hrow) (of_decide_eq_true hp).symm) hstatus
  | archiveExpense _ => exact hmoved rfl fun row _ _ => ⟨rfl, .inr (.inl rfl), fun _ => rfl⟩
  | publishExpense => exact hmoved rfl fun row _ _ => ⟨rfl, .inl rfl, fun _ => rfl⟩
  | @markExpenseSubmitted n id txHash =>
    refine hmoved rfl fun row hrow hp => ⟨rfl, ?_, fun _ => rfl⟩
    obtain hdraft | hpending :=
      of_decide_eq_true (htimely row hrow) (of_decide_eq_true hp).symm
    · exact .inr (.inr (.inl ⟨hdraft, rfl⟩))
    · exact .inl hpending.symm
  | @projectGoalCreated n chainId goalId facts generated db draft slug hgoal htx =>
    obtain ⟨goals, nextId, -, rfl⟩ := goalCreatedTx_ok htx
    refine hmoved rfl fun row hrow hp => ⟨rfl, ?_, fun _ => rfl⟩
    obtain ⟨found, hfound, hid⟩ := (Option.any_eq_true _ _).1 hp
    have hgoalId : O.checks.goalIdOf row.id = goalId :=
      of_decide_eq_true hid ▸ hgoal found hfound
    obtain hpending | hpublished := of_decide_eq_true (htimely row hrow) hgoalId
    · exact .inr (.inr (.inr ⟨hpending, rfl⟩))
    · exact .inl hpublished.symm
  | _ => exact fun row hrow => .inl (hsame row hrow)

/-- No draft is lost. -/
theorem Change.expenses_kept (h : Change O log w j db') {row : Expense}
    (hrow : row ∈ w.db.expenses) :
    ∃ row' ∈ db'.expenses, row'.id = row.id := by
  have hupdated : ∀ {p : Expense → Bool} {f : Expense → Expense}, (∀ row, (f row).id = row.id) →
      ∃ row' ∈ updateWhere p f w.db.expenses, row'.id = row.id := fun hf =>
    exists_mem_updateWhere ⟨row, hrow, rfl⟩ fun x _ _ hx => (hf x).trans hx
  cases h with
  | reply _ _ _ _ _ _ _ _ _ htx =>
    obtain ⟨-, -, -, rfl⟩ := replyTx_ok htx
    exact ⟨row, hrow, rfl⟩
  | propose _ _ _ _ _ _ _ htx =>
    obtain ⟨-, rfl⟩ := proposeTx_ok htx
    exact ⟨row, hrow, rfl⟩
  | createExpense _ _ _ _ htx =>
    obtain ⟨-, -, rfl⟩ := createExpenseTx_ok htx
    exact ⟨row, List.mem_append_left _ hrow, rfl⟩
  | updateExpense | archiveExpense _ | publishExpense | markExpenseSubmitted =>
    exact hupdated fun _ => rfl
  | projectGoalCreated _ _ _ htx =>
    obtain ⟨goals, nextId, -, rfl⟩ := goalCreatedTx_ok htx
    exact hupdated fun _ => rfl
  | _ => exact ⟨row, hrow, rfl⟩

/-- What has become of a draft: its status has moved on, and what was submitted is the same. -/
def Onward (old : Expense) (db : Database) : Prop :=
  ∃ row ∈ db.expenses, row.id = old.id ∧ StatusReaches old.status row.status ∧
    (old.status ≠ .draft → row.content = old.content)

theorem Onward.change {old : Expense} (hw : Sound O w) (honward : Onward old w.db)
    (h : Change O log w j db') (hstep : ExpenseStep w.db db') : Onward old db' := by
  obtain ⟨row, hrow, hid, hreaches, hcontent⟩ := honward
  obtain ⟨row', hrow', hid'⟩ := h.expenses_kept hrow
  obtain ⟨x, hx, hmove⟩ | ⟨-, hnew⟩ := hstep row' hrow'
  · obtain rfl := hw.db.expenses.eq hx hrow (hmove.id.symm.trans hid')
    refine ⟨row', hrow', hid'.trans hid, hreaches.move hmove.status, fun hout => ?_⟩
    have hleft : x.status ≠ .draft := fun hdraft => by
      rw [hdraft] at hreaches
      cases hstatus : old.status <;> simp_all [StatusReaches]
    exact (hmove.content hleft).trans (hcontent hout)
  · exact absurd hid'.symm (hnew row hrow)

end

/-! ### Sample runs -/

/-- The facts of the goal of a draft. -/
def sampleFacts : GoalFacts where
  creatorAddress := 1
  goalType := .oneTime
  monthlySurplusPolicy := none
  monthlyFirstSettlementAt := none
  monthlySettlementDay := none
  monthlyStopRequestedAt := none
  monthlyPeriodsSettled := 0
  monthStart := 0
  title := ['a']
  description := []
  recipientAddress := 7
  deadline := 1000000000000
  metadataUri := none
  targetRaw := ⟨1, 0⟩
  recipientEntitlementRaw := .zero
  carryRaw := .zero
  treasuryEntitlementRaw := .zero
  status := .opened
  creationTxHash := none
  creationBlock := none
  creationBlockHash := none
  publishedAt := none
  closedAt := none

/-- A draft is written, prepared and submitted. -/
def submittedRun : List (Move World Reply Failure Job ℕ) :=
  [.start (.createExpense 0 sampleExpense sampleUser none), .act 0 3 sampleOracle, .stop 0,
    .start (.publishExpense 0 0), .act 0 3 sampleOracle, .stop 0,
    .start (.markExpenseSubmitted 0 0 5), .act 0 2 sampleOracle, .stop 0]

/-- The goal of a draft is projected. -/
def projectedRun : List (Move World Reply Failure Job ℕ) :=
  [.start (.projectGoalCreated 0 1 0 sampleFacts []), .act 0 3 sampleOracle, .stop 0]

/-- Another submission has read the draft before the goal is projected. -/
def resubmittedRun : List (Move World Reply Failure Job ℕ) :=
  submittedRun ++ [.start (.markExpenseSubmitted 1 0 5), .act 1 1 sampleOracle] ++ projectedRun

theorem allows_submittedRun : ∀ m ∈ submittedRun, (community sampleOutside).Allows m := by
  simp only [submittedRun, List.forall_mem_cons]
  exact ⟨trivial, answers_sampleOracle, trivial, trivial, answers_sampleOracle, trivial, trivial,
    answers_sampleOracle, trivial, by simp⟩

theorem allows_projectedRun : ∀ m ∈ projectedRun, (community sampleOutside).Allows m := by
  simp only [projectedRun, List.forall_mem_cons]
  exact ⟨trivial, answers_sampleOracle, trivial, by simp⟩

theorem allows_resubmittedRun : ∀ m ∈ resubmittedRun, (community sampleOutside).Allows m := by
  refine List.forall_mem_append.2
    ⟨List.forall_mem_append.2 ⟨allows_submittedRun, ?_⟩, allows_projectedRun⟩
  simp only [List.forall_mem_cons]
  exact ⟨trivial, answers_sampleOracle, by simp⟩

theorem submitted_isSome :
    ((community sampleOutside).play submittedRun (Config.idle (World.start 0))).isSome = true := by
  decide +kernel

/-- The end of the run. -/
def submittedEnd : Config World Reply Failure Job ℕ :=
  ((community sampleOutside).play submittedRun (Config.idle (World.start 0))).get submitted_isSome

theorem resubmitted_isSome :
    ((community sampleOutside).play resubmittedRun (Config.idle (World.start 0))).isSome =
      true := by
  decide +kernel

/-- The end of the run. -/
def resubmittedEnd : Config World Reply Failure Job ℕ :=
  ((community sampleOutside).play resubmittedRun (Config.idle (World.start 0))).get
    resubmitted_isSome

/-! ### Runs -/

end Community

end PreCommunity
