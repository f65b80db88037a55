import PreCommunity.Escrow.Handlers

/-!
# Resetting the projection

A reorganisation below the checkpoint clears what the events determine, in one transaction, so that
the canonical log can be projected again.  Reservations and Safe proposals are kept, and so are the
goals they belong to.

* `resetChainProjection` : the tables after the reset.
-/

namespace PreCommunity

namespace Escrow

open Store

/-- A goal without the facts of its events; it keeps its texts, its targets and its dates. -/
def GoalFacts.reset (facts : GoalFacts) : GoalFacts :=
  { facts with
    status := .opened
    creatorAddress := zeroAddress
    goalType := .oneTime
    monthlySurplusPolicy := none
    monthlyFirstSettlementAt := none
    monthlySettlementDay := none
    monthlyStopRequestedAt := none
    monthlyPeriodsSettled := 0
    recipientEntitlementRaw := .zero
    carryRaw := .zero
    treasuryEntitlementRaw := .zero
    creationTxHash := none
    creationBlock := none
    creationBlockHash := none
    publishedAt := none
    closedAt := none }

/-- A profile without the facts of its events. -/
def ProfileFacts.empty : ProfileFacts where
  active := false
  revision := 0
  displayName := none
  websiteUrl := none
  bio := none
  avatarUri := none
  avatarStatus := .notSet
  defaultPublic := false
  blockNumber := none
  blockHash := none
  txHash := none
  logIndex := none

/-- A proposal of a payout whose execution has to be confirmed again. -/
def SafePayoutProposal.reopen (row : SafePayoutProposal) : SafePayoutProposal :=
  { row with
    status := .submitting
    executionTxHash := none
    failureReason := none
    lastCheckedAt := none
    executedAt := none }

/-- A proposal of a lifecycle action whose execution has to be confirmed again. -/
def SafeGoalActionProposal.reopen (row : SafeGoalActionProposal) : SafeGoalActionProposal :=
  { row with
    status := .submitting
    executionTxHash := none
    failureReason := none
    lastCheckedAt := none
    executedAt := none }

namespace Database

variable (chainId : ℕ) (db : Database)

/-- The goals of the chain that a `GoalCreated` event has created. -/
def isProjected (row : FundingGoal) : Bool := row.chainId = chainId ∧ row.creationTxHash.isSome

/-- A reservation or a lifecycle action belongs to the goal. -/
def hasIntents (goalId : Id) : Bool :=
  db.payoutIntents.any (fun row => row.goalId = goalId) ||
    db.goalActionIntents.any (fun row => row.goalId = goalId)

/-- The projected goals that a reset keeps. -/
def isRetained (goalId : Id) : Bool :=
  db.hasIntents goalId ∧ db.goals.any fun row => isProjected chainId row ∧ row.id = goalId

/-- The projected goals that a reset deletes, with all that belongs to them. -/
def isDropped (goalId : Id) : Bool :=
  ¬db.hasIntents goalId ∧ db.goals.any fun row => isProjected chainId row ∧ row.id = goalId

/-- The drafts of the projected goals. -/
def isDraftOfProjected (draftId : Id) : Bool :=
  db.goals.any fun row => isProjected chainId row ∧ row.expenseId = some draftId

/-- The payout of a reservation of a kept goal has been executed. -/
def isExecutedProposal (row : SafePayoutProposal) : Bool :=
  row.status = .executed ∧
    (db.payoutIntents.find? fun intent => intent.id = row.intentId).any fun intent =>
      intent.chainId = chainId ∧ db.isRetained chainId intent.goalId ∧
        (db.payouts.find? fun payout => payout.id = intent.payoutId).any fun payout =>
          payout.status = .executed

/-- The lifecycle action of a kept goal has been executed. -/
def isExecutedGoalAction (row : SafeGoalActionProposal) : Bool :=
  row.status = .executed ∧ (db.goalActionIntent? row.intentId).any fun intent =>
    intent.chainId = chainId ∧ db.isRetained chainId intent.goalId

end Database

/-- `resetChainProjection`.  The payouts without a reservation, the periods and the contributions of
a kept goal are deleted, and its executed reservations are proposed again. -/
def resetChainProjection (config : Deployment) (db : Database) : Database :=
  let retained := db.isRetained config.chainId
  let dropped := db.isDropped config.chainId
  { db with
    expenses := updateWhere
      (fun row => db.isDraftOfProjected config.chainId row.id ∧ row.status = .published)
      (fun row => { row with status := .pendingChain, pendingChainTxHash := none }) db.expenses
    periods := db.periods.filter fun row => ¬retained row.goalId ∧ ¬dropped row.goalId
    contributions := db.contributions.filter fun row => ¬retained row.goalId ∧ ¬dropped row.goalId
    payoutProposals := updateWhere (db.isExecutedProposal config.chainId) (·.reopen)
      db.payoutProposals
    payouts := updateWhere (fun row => retained row.goalId ∧ row.status = .executed)
      (fun row => { row with status := .proposed, chainTxHash := none, executedAt := none })
      (db.payouts.filter fun row =>
        ¬(retained row.goalId ∧ (db.safeIntent? row.id).isNone) ∧ ¬dropped row.goalId)
    goalActionProposals := updateWhere (db.isExecutedGoalAction config.chainId) (·.reopen)
      db.goalActionProposals
    goals := updateWhere (fun row => retained row.id)
      (fun row =>
        { row with
          toGoalFacts := row.toGoalFacts.reset
          metadataStatus := .notSet
          metadata := none })
      (db.goals.filter fun row => ¬dropped row.id)
    profiles := updateWhere (fun row => row.chainId = some config.chainId)
      (fun row => { row with toProfileFacts := .empty }) db.profiles
    authorities := db.authorities.filter fun row =>
      ¬(row.chainId = config.chainId ∧ row.contractAddress = config.escrowAddress)
    events := db.events.filter fun row => row.chainId ≠ config.chainId
    indexers := db.indexers.filter fun row => row.chainId ≠ config.chainId }

end Escrow

end PreCommunity
