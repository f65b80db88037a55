import PreCommunity.Admin.Schema

/-!
# Lifecycle actions of monthly goals

The requests that prepare and submit a lifecycle action, the loop that follows the submitted ones,
and the confirmation of an action by its event.  Every statement and every transaction is atomic,
and others may act between two of them; the rows of an `include` are read by statements of their
own.

* `prepareGoalLifecycle` : a new intent of the service, or a manual export.
* `submitSafeGoalAction` : submit the signed transaction of an intent.
* `syncSafeGoalActionProposals` : follow the proposals.
* `confirmSafeGoalAction` : an event confirms an action.
-/

namespace PreCommunity

namespace Admin

open Store Concurrent Escrow
open Routine (attempt)

/-! ### Writes to a proposal -/

/-- A submission that was not confirmed. -/
def noteUnconfirmedRow (checkedAt : Time) (row : SafeProposal) : SafeProposal :=
  { row with
    failureReason := some "Safe submission has not been confirmed. Retry the signed proposal."
    lastCheckedAt := some checkedAt }

/-- A submitted proposal waits for signatures, or for its execution. -/
def markSubmittedRow (threshold : ℕ) (row : SafeProposal) : SafeProposal :=
  { row with
    status := if threshold ≤ 1 then .readyToExecute else .awaitingConfirmations
    failureReason := none }

/-- An uncertain submission is replaced by a manual export. -/
def supersedeRow (now : Time) (row : SafeProposal) : SafeProposal :=
  { row with
    status := .stale
    failureReason := some "Superseded by a confirmed manual export after checking Safe."
    lastCheckedAt := some now }

/-- A new proposal. -/
def newProposal (id intentId : Id) (safeTxHash : Hash) (safeNonce : ℕ) (actor : Address)
    (threshold : ℕ) (createdAt : Time) : SafeProposal where
  id := id
  intentId := intentId
  safeTxHash := safeTxHash
  safeNonce := safeNonce
  senderAddress := actor
  confirmations := 1
  threshold := threshold
  status := .submitting
  executionTxHash := none
  failureReason := none
  lastCheckedAt := none
  executedAt := none
  createdAt := createdAt

namespace Database

variable (db : Database)

/-- The lifecycle intent with an id. -/
def actionIntent? (id : Id) : Option SafeGoalActionIntent :=
  db.actionIntents.find? fun row => row.id = id

/-- The proposal of a lifecycle intent. -/
def actionProposal? (intentId : Id) : Option SafeProposal :=
  db.actionProposals.find? fun row => row.intentId = intentId

/-- Update the lifecycle intents that meet `p`. -/
def updateActionIntents (p : SafeGoalActionIntent → Bool)
    (f : SafeGoalActionIntent → SafeGoalActionIntent) : Database :=
  { db with actionIntents := updateWhere p f db.actionIntents }

/-- Update the lifecycle proposals that meet `p`. -/
def updateActionProposals (p : SafeProposal → Bool) (f : SafeProposal → SafeProposal) : Database :=
  { db with actionProposals := updateWhere p f db.actionProposals }

/-- The proposal belongs to an intent of the Safe. -/
def isActionOf (chainId : ℕ) (safeAddress : Address) (row : SafeProposal) : Bool :=
  (db.actionIntent? row.intentId).any fun intent =>
    intent.chainId = chainId ∧ intent.safeAddress = safeAddress

end Database

section

variable (config : Deployment) (encodeGoalLifecycleData : Hash → SafeGoalActionKind →
  Option MonthlySurplusPolicy → Hash)

/-! ### Preparing -/

/-- `PrepareGoalLifecycleDto`. -/
structure PrepareGoalLifecycle where
  kind : SafeGoalActionKind
  monthlySurplusPolicy : Option MonthlySurplusPolicy
  delivery : SafePayoutDelivery
  confirmedAbsentFromSafe : Bool
deriving DecidableEq, Repr

/-- The answer to a request for a lifecycle action. -/
inductive LifecycleResponse where
  | direct (toAddress : Address) (data : Hash)
  | manual (toAddress : Address) (data : Hash)
  | service (id : Id) (expiresAt : Time) (safeAddress : Address) (safeNonce threshold : ℕ)
      (toAddress : Address) (data : Hash)
deriving DecidableEq, Repr

/-- `canDirectlyControlGoal`. -/
def canDirectlyControlGoal (goal : FundingGoal) (actor : Principal) : Bool :=
  (actor.isOwner ∧ actor.chainOwnerAddress = some actor.address) ∨
    (actor.isGoalManager ∧ goal.creatorAddress = actor.address)

/-- The checks of the goal. -/
def checkLifecycle (goal : FundingGoal) (dto : PrepareGoalLifecycle) (now : Time) :
    Except Failure Unit :=
  if goal.goalType ≠ .monthly ∨ goal.status ≠ .opened then
    .error (.badRequest "Lifecycle actions require an open monthly goal")
  else if goal.deadline ≤ now then
    .error (.badRequest "Settle overdue monthly periods before changing lifecycle")
  else if dto.kind = .setMonthlySurplusPolicy ∧
      dto.monthlySurplusPolicy = goal.monthlySurplusPolicy then
    .error (.badRequest "The monthly goal already uses this surplus policy")
  else if dto.kind ≠ .cancelMonthly ∧ goal.monthlyStopRequestedAt.isSome then
    .error (.badRequest "This monthly goal is already stopping")
  else .ok ()

/-- An intent of the Safe that was neither submitted nor given up. -/
def isUnsubmitted (safeAddress : Address) (row : SafeGoalActionIntent) : Bool :=
  row.chainId = config.chainId ∧ row.safeAddress = safeAddress ∧ row.consumedAt = none

/-- An intent of the Safe that blocks another one. -/
def isBlocking (safeAddress : Address) (now : Time) (db : Database)
    (row : SafeGoalActionIntent) : Bool :=
  row.chainId = config.chainId ∧ row.safeAddress = safeAddress ∧
    ((row.consumedAt = none ∧ now < row.expiresAt) ∨
      (db.actionProposal? row.id).any (·.status.pending))

/-- The transaction that replaces an uncertain proposal by a manual export. -/
def supersedeActionTx (proposalId : Id) (now : Time) (db : Database) : Except Failure Database :=
  if db.actionProposals.any fun row => row.id = proposalId ∧ row.status = .submitting then
    .ok (db.updateActionProposals (fun row => row.id = proposalId ∧ row.status = .submitting)
      (supersedeRow now))
  else .error (.badRequest "The Safe proposal changed. Refresh and try again.")

/-- A manual export gives up the open intent and the uncertain proposal of the Safe. -/
def exportLifecycle (safeAddress : Address) (dto : PrepareGoalLifecycle) (data : Hash)
    (now : Time) : Worker LifecycleResponse := do
  transaction fun db => .ok (db.updateActionIntents
    (fun row => isUnsubmitted config safeAddress row ∧ (db.actionProposal? row.id).isNone)
    fun row => { row with consumedAt := some now })
  let existingProposal ← select fun db => (db.actionProposals.filter fun row =>
    row.status.pending ∧ db.isActionOf config.chainId safeAddress row).getLast?
  match existingProposal with
  | none => return .manual config.escrowAddress data
  | some existingProposal =>
    attempt (assertManualReplacementAllowed existingProposal dto.confirmedAbsentFromSafe)
    transaction (supersedeActionTx existingProposal.id now)
    return .manual config.escrowAddress data

/-- The transaction that inserts an intent; `SafeGoalActionIntent_one_unsubmitted_per_safe_idx`
allows only one that is not consumed. -/
def insertActionIntentTx (goal : FundingGoal) (dto : PrepareGoalLifecycle) (actor : Address)
    (safeInfo : SafeRuntimeInfo) (safeNonce : ℕ) (data : Hash) (expiresAt : Time)
    (db : Database) : Except Failure (Database × SafeGoalActionIntent) :=
  let intent : SafeGoalActionIntent :=
    { id := db.nextId
      goalId := goal.id
      kind := dto.kind
      parameters :=
        { targetPolicy := dto.monthlySurplusPolicy
          expectedPolicy := goal.monthlySurplusPolicy
          expectedDeadline := goal.deadline
          expectedStopRequestedAt := goal.monthlyStopRequestedAt
          expectedStatus := goal.status }
      chainId := config.chainId
      safeAddress := safeInfo.address
      safeNonce := safeNonce
      toAddress := config.escrowAddress
      valueRaw := 0
      data := data
      createdByAddress := actor
      expiresAt := expiresAt
      consumedAt := none }
  if !(db.goals.any fun row => row.id = goal.id) then .error .foreignKey
  else if db.actionIntents.any (isUnsubmitted config safeInfo.address) then
    .error .uniqueConstraint
  else .ok ({ db with
    actionIntents := db.actionIntents ++ [intent]
    nextId := db.nextId + 1 }, intent)

/-- Prepare an intent of the service. -/
def prepareActionIntent (goal : FundingGoal) (dto : PrepareGoalLifecycle) (actor : Address)
    (safeInfo : SafeRuntimeInfo) (data : Hash) (now : Time) : Worker LifecycleResponse := do
  transaction fun db => .ok (db.updateActionIntents
    (fun row => isUnsubmitted config safeInfo.address row ∧ row.expiresAt ≤ now)
    fun row => { row with consumedAt := some now })
  let existing ← select fun db =>
    db.actionIntents.any (isBlocking config safeInfo.address now db)
  if existing then throw (.badRequest
    "Another lifecycle action is active for this Safe. Finish or replace it first.")
  else
    let safeNonce : ℕ ← ask .nextNonce
    let created : Time ← ask .now
    let intent ← try
        transactionOf (insertActionIntentTx config goal dto actor safeInfo safeNonce data
          (created + 10 * 60000))
      catch error =>
        if error = .uniqueConstraint then
          throw (.badRequest "Another lifecycle action is active for this Safe")
        else throw error
    return .service intent.id intent.expiresAt safeInfo.address safeNonce safeInfo.threshold
      config.escrowAddress data

/-- `AdminService.prepareGoalLifecycle`. -/
def prepareGoalLifecycle (goalId : Id) (dto : PrepareGoalLifecycle) (actor : Principal) :
    Worker LifecycleResponse := do
  let now : Time ← ask .now
  let found ← select fun db => db.goals.find? fun row =>
    row.id = goalId ∧ row.chainId = config.chainId
  match found with
  | none => throw (.notFound "On-chain goal not found")
  | some goal =>
    attempt (checkLifecycle goal dto now)
    let data := encodeGoalLifecycleData goal.chainGoalId dto.kind dto.monthlySurplusPolicy
    if dto.kind ≠ .cancelMonthly ∧ canDirectlyControlGoal goal actor then
      return .direct config.escrowAddress data
    else if !actor.safeOwner then
      throw (.forbidden (if dto.kind = .cancelMonthly then
        "Emergency cancellation requires an owner of the Safe that owns the escrow"
        else "This wallet is neither the goal controller nor an owner of the Safe that owns the escrow"))
    else match dto.delivery with
      | .manual =>
        let safeInfo : SafeRuntimeInfo ← ask (.assertSafeEscrowOwner actor.address)
        exportLifecycle config safeInfo.address dto data now
      | .service =>
        let safeInfo : SafeRuntimeInfo ← ask (.assertPayoutReady actor.address)
        prepareActionIntent config goal dto actor.address safeInfo data now

/-! ### Submitting -/

/-- The goal is as it was when the intent was prepared. -/
def sameGoal (goal : FundingGoal) (parameters : LifecycleParameters) (now : Time) : Bool :=
  goal.status = .opened ∧ goal.goalType = .monthly ∧ now < goal.deadline ∧
    parameters.expectedStatus = goal.status ∧ parameters.expectedDeadline = goal.deadline ∧
    parameters.expectedPolicy = goal.monthlySurplusPolicy ∧
    parameters.expectedStopRequestedAt = goal.monthlyStopRequestedAt

/-- The transaction that claims an intent for its proposal. -/
def claimActionTx (intent : SafeGoalActionIntent) (safeTxHash : Hash) (actor : Address)
    (threshold : ℕ) (consumedAt : Time) (db : Database) :
    Except Failure (Database × SafeProposal) :=
  let isClaimable := fun row : SafeGoalActionIntent => row.id = intent.id ∧
    row.consumedAt = none ∧ consumedAt < row.expiresAt ∧ (db.actionProposal? row.id).isNone
  let proposal := newProposal db.nextId intent.id safeTxHash intent.safeNonce actor threshold
    consumedAt
  if !db.actionIntents.any isClaimable then .error .intentClaim
  else if db.actionProposals.any fun row => row.safeTxHash = safeTxHash then
    .error .uniqueConstraint
  else .ok ({ db.updateActionIntents isClaimable
      fun row => { row with consumedAt := some consumedAt } with
    actionProposals := db.actionProposals ++ [proposal]
    nextId := db.nextId + 1 }, proposal)

/-- The proposal of another submission of the intent. -/
def concurrentAction (intent : SafeGoalActionIntent) (safeTxHash : Hash) : Worker SafeProposal := do
  let concurrent ← select fun db => db.actionProposal? intent.id
  match concurrent.filter (·.safeTxHash = safeTxHash) with
  | none => throw (.badRequest "This lifecycle intent is no longer active")
  | some concurrent => return concurrent

/-- The proposal of an intent: a new one, or the one of another submission. -/
def claimActionProposal (intent : SafeGoalActionIntent) (safeTxHash : Hash) (actor : Address)
    (threshold : ℕ) : Worker SafeProposal := do
  try
    let consumedAt : Time ← ask .now
    transactionOf (claimActionTx intent safeTxHash actor threshold consumedAt)
  catch error =>
    if error = .intentClaim ∨ error = .uniqueConstraint then concurrentAction intent safeTxHash
    else throw error

/-- Send the proposal to the Safe, and note what became of it. -/
def sendAction (proposal : SafeProposal) (dto : SafeSubmission) (safeTxHash : Hash)
    (actor : Address) (threshold : ℕ) : Worker SafeProposal := do
  try ask (.propose dto.transaction safeTxHash actor)
  catch error =>
    let checkedAt : Time ← ask .now
    try transaction fun db => .ok (db.updateActionProposals
      (fun row => row.id = proposal.id ∧ row.status = .submitting) (noteUnconfirmedRow checkedAt))
    catch _ => pure ()
    throw error
  transaction fun db => .ok (db.updateActionProposals
    (fun row => row.id = proposal.id ∧ row.status = .submitting) (markSubmittedRow threshold))
  let submitted ← select fun db => db.actionProposals.find? fun row => row.id = proposal.id
  match submitted with
  | none => throw .recordNotFound
  | some submitted => return submitted

/-- An intent without a proposal must not have expired. -/
def checkExpiry (submitted : Bool) (expiresAt : Time) (text : String) : Worker Unit :=
  if submitted then return ()
  else do
    let now : Time ← ask .now
    if expiresAt ≤ now then throw (.badRequest text) else return ()

/-- An intent without a proposal must have the next nonce. -/
def checkNonce (submitted : Bool) (safeNonce : ℕ) (text : String) : Worker Unit :=
  if submitted then return ()
  else do
    let nonce : ℕ ← ask .nextNonce
    if nonce ≠ safeNonce then throw (.badRequest text) else return ()

/-- The hash of the signed transaction must be the submitted one. -/
def checkHash (dto : SafeSubmission) : Worker Hash := do
  let calculatedHash : Hash ← ask (.transactionHash dto.transaction)
  if calculatedHash ≠ dto.safeTxHash then
    throw (.forbidden "Safe transaction hash does not match the signed transaction")
  else return calculatedHash

/-- The part of a submission in which the intent is checked; it returns the hash of the signed
transaction. -/
def checkAction (intent : SafeGoalActionIntent) (proposal : Option SafeProposal)
    (goal : Option FundingGoal) (dto : SafeSubmission) : Worker Hash := do
  checkExpiry proposal.isSome intent.expiresAt
    "The lifecycle intent expired. Prepare it again."
  let now : Time ← ask .now
  if !(goal.any fun goal => sameGoal goal intent.parameters now) then
    throw (.badRequest "The monthly goal changed. Prepare a new lifecycle action.")
  else
    checkNonce proposal.isSome intent.safeNonce
      "The Safe nonce changed. Prepare a new lifecycle action."
    ask (.validateTransactionData dto.transaction intent.toAddress intent.valueRaw intent.data
      intent.safeNonce)
    checkHash dto

/-- `AdminService.submitSafeGoalAction`. -/
def submitSafeGoalAction (intentId : Id) (dto : SafeSubmission) (actor : Address) :
    Worker SafeProposal := do
  if dto.senderAddress ≠ actor then
    throw (.forbidden "The Safe proposal signer must match the signed-in wallet")
  else
    let safeInfo : SafeRuntimeInfo ← ask (.assertPayoutReady actor)
    let found ← select fun db => db.actionIntent? intentId
    match found with
    | none => throw (.notFound "Safe lifecycle intent not found")
    | some intent =>
      let proposal ← select fun db => db.actionProposal? intent.id
      let goal ← select fun db => db.goals.find? fun row => row.id = intent.goalId
      if intent.chainId ≠ config.chainId ∨ intent.safeAddress ≠ safeInfo.address ∨
          intent.toAddress ≠ config.escrowAddress then
        throw (.forbidden "The lifecycle intent belongs to a different deployment")
      else if proposal.any (·.safeTxHash ≠ dto.safeTxHash) then
        throw (.badRequest "This lifecycle intent already has a different Safe proposal")
      else match proposal.filter (·.status ≠ .submitting) with
        | some proposal => return proposal
        | none =>
          let calculatedHash ← checkAction intent proposal goal dto
          match proposal with
          | some proposal => sendAction proposal dto calculatedHash actor safeInfo.threshold
          | none =>
            let claimed ← claimActionProposal intent calculatedHash actor safeInfo.threshold
            if claimed.status ≠ .submitting then return claimed
            else sendAction claimed dto calculatedHash actor safeInfo.threshold

/-! ### Following -/

/-- Look up the pending proposals, one after another. -/
def syncActions (currentNonce : ℕ) (now : Time) : List SafeProposal → Worker Unit
  | [] => return ()
  | proposal :: rest => do
    let answers : SafeAnswers ← ask (.safeAnswers proposal.safeTxHash proposal.safeNonce)
    transaction fun db => .ok (db.updateActionProposals (fun row => row.id = proposal.id)
      (followGoalAction answers currentNonce now proposal))
    syncActions currentNonce now rest

/-- `syncSafeGoalActionProposals`; `updatedAt` are the times of the last updates. -/
def syncSafeGoalActionProposals (updatedAt : Id → Time) : Worker Unit := do
  if !config.safeServiceConfigured then return ()
  let pending ← select fun db => ((db.actionProposals.filter fun row =>
    row.status.pending ∧ db.isActionOf config.chainId config.safeAddress row).insertionSort
      fun a b => updatedAt a.id ≤ updatedAt b.id).take 100
  if pending = [] then return ()
  let currentNonce : ℕ ← ask .safeNonce
  let now : Time ← ask .now
  syncActions currentNonce now pending

/-! ### Confirming -/

/-- The proposal can be the one that an event of the goal confirms. -/
def isEligible (goalId : Id) (kind : SafeGoalActionKind)
    (targetPolicy : Option MonthlySurplusPolicy) (db : Database) (row : SafeProposal) : Bool :=
  row.status.pending ∧ (db.actionIntent? row.intentId).any fun intent =>
    intent.goalId = goalId ∧ intent.kind = kind ∧
      (targetPolicy = none ∨ intent.parameters.targetPolicy = targetPolicy)

/-- `confirmSafeGoalAction`: the proposal is read, and then it is updated whatever became of it. -/
def confirmSafeGoalAction (goalId : Id) (kind : SafeGoalActionKind) (txHash : Hash)
    (occurredAt : Time) (targetPolicy : Option MonthlySurplusPolicy) : Worker Unit := do
  let eligible ← select fun db =>
    db.actionProposals.filter (isEligible goalId kind targetPolicy db)
  let exact := eligible.find? fun row => row.executionTxHash = some txHash
  match exact <|> (if eligible.length = 1 then eligible.head? else none) with
  | none => return ()
  | some proposal =>
    transaction fun db => .ok (db.updateActionProposals (fun row => row.id = proposal.id)
      fun row => { row with
        status := .executed
        confirmations := proposal.threshold
        executionTxHash := some txHash
        failureReason := none
        lastCheckedAt := some occurredAt
        executedAt := some occurredAt })

end

end Admin

end PreCommunity
