import PreCommunity.Admin.Submittable

/-!
# The confirmation of a lifecycle action

`confirmSafeGoalAction` belongs to two parts of the program: the indexer calls it while it projects
an event of a goal, and the requests of the administration write to the same rows.
`Escrow.confirmSafeGoalAction` is its effect on the tables of the indexer, and
`Admin.confirmSafeGoalAction` takes its turn among the requests.

* `Indexed` : the tables of the administration, as the indexer reads them.
* `confirmed?` : the proposal that is confirmed.
* `eval_confirmSafeGoalAction` : undisturbed, both have the same effect.
-/

namespace PreCommunity

namespace Admin

open Store Concurrent Escrow

variable {oracle : World → (q : Query) → Except Failure (Reply q)} {w : World} {db : Database}
  {tables : Escrow.Database} {goalId : Id} {kind : SafeGoalActionKind}
  {targetPolicy : Option MonthlySurplusPolicy}

/-! ### The tables of the indexer -/

/-- An intent as the indexer reads it. -/
def SafeGoalActionIntent.indexed (row : SafeGoalActionIntent) : Escrow.SafeGoalActionIntent where
  id := row.id
  goalId := row.goalId
  kind := row.kind
  targetPolicy := row.parameters.targetPolicy
  chainId := row.chainId
  safeAddress := row.safeAddress
  safeNonce := row.safeNonce
  toAddress := row.toAddress
  valueRaw := row.valueRaw
  data := row.data
  createdByAddress := row.createdByAddress
  expiresAt := row.expiresAt
  consumedAt := row.consumedAt

/-- A proposal as the indexer reads it. -/
def indexedProposal (row : SafeProposal) : SafeGoalActionProposal where
  id := row.id
  intentId := row.intentId
  safeTxHash := row.safeTxHash
  safeNonce := row.safeNonce
  senderAddress := row.senderAddress
  confirmations := row.confirmations
  threshold := row.threshold
  status := row.status
  executionTxHash := row.executionTxHash
  failureReason := row.failureReason
  lastCheckedAt := row.lastCheckedAt
  executedAt := row.executedAt

/-- Both see the same rows of the lifecycle actions. -/
structure Indexed (db : Database) (tables : Escrow.Database) : Prop where
  intents : tables.goalActionIntents = db.actionIntents.map (·.indexed)
  proposals : tables.goalActionProposals = db.actionProposals.map indexedProposal

theorem Indexed.eligible (h : Indexed db tables) (row : SafeProposal) :
    SafeGoalActionProposal.eligible tables goalId kind targetPolicy (indexedProposal row) =
      isEligible goalId kind targetPolicy db row := by
  have hintent : tables.goalActionIntent? row.intentId =
      (db.actionIntent? row.intentId).map (·.indexed) := by
    rw [Escrow.Database.goalActionIntent?, h.intents, List.find?_map]
    rfl
  unfold SafeGoalActionProposal.eligible isEligible
  rw [show (indexedProposal row).intentId = row.intentId from rfl, hintent, Option.any_map]
  rfl

/-! ### The proposal that is confirmed -/

/-- The proposal that an execution confirms: the one it is recorded for, or the only one. -/
def confirmed? (eligible : List SafeProposal) (txHash : Hash) : Option SafeProposal :=
  (eligible.find? fun row => row.executionTxHash = some txHash) <|>
    (if eligible.length = 1 then eligible.head? else none)

theorem confirmed?_indexed (eligible : List SafeProposal) (txHash : Hash) :
    ((eligible.map indexedProposal).find? (fun row => row.executionTxHash = some txHash) <|>
        (if (eligible.map indexedProposal).length = 1 then (eligible.map indexedProposal).head?
          else none)) =
      (confirmed? eligible txHash).map indexedProposal := by
  have hfind : (eligible.map indexedProposal).find? (fun row => row.executionTxHash = some txHash) =
      (eligible.find? fun row => row.executionTxHash = some txHash).map indexedProposal := by
    rw [List.find?_map]
    rfl
  rw [hfind, List.length_map, List.head?_map]
  unfold confirmed?
  cases eligible.find? fun row => row.executionTxHash = some txHash with
  | some row => rfl
  | none =>
    simp only [Option.map_none]
    split_ifs <;> rfl

/-- The rows after the confirmation. -/
def confirm (proposal : SafeProposal) (txHash : Hash) (occurredAt : Time) (db : Database) :
    Database :=
  db.updateActionProposals (fun row => row.id = proposal.id) fun row =>
    { row with
      status := .executed
      confirmations := proposal.threshold
      executionTxHash := some txHash
      failureReason := none
      lastCheckedAt := some occurredAt
      executedAt := some occurredAt }

theorem indexed_confirm (h : Indexed db tables) {proposal : SafeProposal} {txHash : Hash}
    {occurredAt : Time} :
    (confirm proposal txHash occurredAt db).actionProposals.map indexedProposal =
      updateWhere (fun row => row.id = proposal.id) (fun row =>
        { row with
          status := .executed
          confirmations := proposal.threshold
          executionTxHash := some txHash
          failureReason := none
          lastCheckedAt := some occurredAt
          executedAt := some occurredAt }) tables.goalActionProposals := by
  unfold confirm Database.updateActionProposals
  rw [h.proposals, updateWhere, updateWhere, List.map_map, List.map_map]
  refine List.map_congr_left fun row _ => ?_
  rw [Function.comp_apply, Function.comp_apply, apply_ite indexedProposal]
  rfl

/-- **Undisturbed**, the request and the step of the indexer have the same effect. -/
theorem eval_confirmSafeGoalAction {event : DecodedEscrowEvent} {occurredAt : Time}
    (h : Indexed w.db tables) (hoccurred : date event.blockTimestamp = .ok occurredAt) :
    ∃ db' tables',
      Routine.eval oracle (confirmSafeGoalAction goalId kind event.txHash occurredAt targetPolicy)
        () w = some ((.ok (), ()), ⟨db'⟩) ∧
      Escrow.confirmSafeGoalAction tables goalId kind event targetPolicy = .ok tables' ∧
      Indexed db' tables' := by
  have heligible : tables.goalActionProposals.filter
      (SafeGoalActionProposal.eligible tables goalId kind targetPolicy) =
      (w.db.actionProposals.filter (isEligible goalId kind targetPolicy w.db)).map
        indexedProposal := by
    rw [h.proposals, List.filter_map]
    exact congrArg (fun p => (w.db.actionProposals.filter p).map indexedProposal)
      (funext fun row => h.eligible row)
  unfold confirmSafeGoalAction Escrow.confirmSafeGoalAction
  rw [Routine.eval_bind_ok (eval_select _ _), heligible]
  simp only [confirmed?_indexed]
  cases hconfirmed : confirmed? (w.db.actionProposals.filter
    (isEligible goalId kind targetPolicy w.db)) event.txHash with
  | none =>
    unfold confirmed? at hconfirmed
    rw [hconfirmed]
    exact ⟨w.db, tables, rfl, rfl, h⟩
  | some proposal =>
    unfold confirmed? at hconfirmed
    rw [hconfirmed]
    refine ⟨confirm proposal event.txHash occurredAt w.db, { tables with
      goalActionProposals := (confirm proposal event.txHash occurredAt w.db).actionProposals.map
        indexedProposal }, eval_transaction rfl, ?_, h.intents, rfl⟩
    rw [indexed_confirm h]
    simp only [Option.map_some, hoccurred]
    rfl

end Admin

end PreCommunity
