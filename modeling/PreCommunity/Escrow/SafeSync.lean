import Mathlib.Data.List.Sort
import PreCommunity.Escrow.Requests

/-!
# Following the Safe

The worker looks up what became of the submitted payouts, and joins a reservation that was executed
with the row that the indexer made for its release.

* `classifySafeProposal`, `classifyMissingSafeSubmission` : what an answer of the Safe means.
* `applyPendingSafeProposalUpdate`, `reconcileConfirmedSafePayout` : the two guarded updates.
* `syncSafePayoutProposals` : the pass.
-/

namespace PreCommunity

namespace Escrow

open Store Concurrent

/-- `SAFE_SUBMITTING_RECOVERY_DELAY_MS`. -/
def safeSubmittingRecoveryDelayMs : ℕ := 15 * 60000

/-- What a proposal is changed to. -/
structure ProposalUpdate where
  confirmations : Option ℕ
  threshold : Option ℕ
  status : SafeProposalStatus
  failureReason : Option String
  executionTxHash : Option (Option Hash)
  executedAt : Option (Option Time)
deriving DecidableEq, Repr

/-- A proposal with an update that was found at `now`. -/
def SafePayoutProposal.update (row : SafePayoutProposal) (next : ProposalUpdate) (now : Time) :
    SafePayoutProposal :=
  { row with
    confirmations := next.confirmations.getD row.confirmations
    threshold := next.threshold.getD row.threshold
    status := next.status
    failureReason := next.failureReason
    executionTxHash := next.executionTxHash.getD row.executionTxHash
    executedAt := next.executedAt.getD row.executedAt
    lastCheckedAt := some now }

/-! ### What the Safe says -/

/-- `classifySafeProposal`. -/
def classifySafeProposal (transaction : SafeTransaction) (proposalNonce currentNonce : ℕ)
    (fallbackThreshold : ℕ) (now : Time) (nonceWasReplaced : Bool) : ProposalUpdate :=
  let confirmations := transaction.confirmations.getD 0
  let threshold :=
    if transaction.confirmationsRequired ≠ 0 then transaction.confirmationsRequired
    else fallbackThreshold
  let waiting : SafeProposalStatus :=
    if confirmations ≥ threshold then .readyToExecute else .awaitingConfirmations
  if transaction.isExecuted then
    let executedAt := some (transaction.executionDate.getD now)
    match transaction.isSuccessful with
    | some true =>
      ⟨some confirmations, some threshold, .executed, none, some transaction.transactionHash,
        some executedAt⟩
    | some false =>
      ⟨some confirmations, some threshold, .failed, some "Safe transaction execution failed",
        some transaction.transactionHash, some executedAt⟩
    | none =>
      ⟨some confirmations, some threshold, waiting,
        some "Safe execution result is not available yet", some transaction.transactionHash,
        some none⟩
  else if nonceWasReplaced then
    ⟨some confirmations, some threshold, .stale,
      some "A different executed Safe transaction used this nonce", some none, some none⟩
  else
    ⟨some confirmations, some threshold, waiting,
      if proposalNonce < currentNonce then
        some "Safe nonce advanced; awaiting verified execution or replacement"
      else none, some none, some none⟩

/-- `classifyMissingSafeSubmission`. -/
def classifyMissingSafeSubmission (proposalNonce currentNonce : ℕ) (nonceWasReplaced : Bool) :
    ProposalUpdate :=
  if nonceWasReplaced then
    ⟨none, none, .stale, some "A different executed Safe transaction used this nonce", none, none⟩
  else if proposalNonce < currentNonce then
    ⟨none, none, .submitting,
      some "Safe nonce advanced; awaiting verified execution or replacement", none, none⟩
  else
    ⟨none, none, .failed, some "The signed proposal did not reach the Safe Transaction Service",
      none, none⟩

/-- `recoveredSafeTransaction`: the proposal's own transaction among those at its nonce, and
whether another one was executed instead. -/
def recoveredSafeTransaction (transactions : List SafeTransaction) (safeTxHash : Hash) :
    Option SafeTransaction × Bool :=
  let isOwn := fun candidate : SafeTransaction => decide (candidate.safeTxHash = safeTxHash)
  let ownExecution := transactions.find? fun candidate => candidate.isExecuted && isOwn candidate
  let nonceWasReplaced := ownExecution.isNone &&
    transactions.any fun candidate => candidate.isExecuted && !isOwn candidate
  (ownExecution <|> (if nonceWasReplaced then none else transactions.find? isOwn),
    nonceWasReplaced)

/-- `safeTransactionsAtNonce`: the transactions at a nonce; `none` when the service fails. -/
def safeTransactionsAtNonce (nonce : ℕ) (executedOnly : Bool) :
    Worker (Option (List SafeTransaction)) := do
  try
    let history : List SafeTransaction ← ask (.multisigTransactions nonce executedOnly)
    pure (some (history.filter fun transaction =>
      (!executedOnly || transaction.isExecuted) && transaction.nonce = nonce))
  catch _ => pure none

/-- `resolveSafeTransaction`: the proposal's transaction, and whether another one took its
nonce. -/
def resolveSafeTransaction (proposal : SafePayoutProposal) (currentNonce : ℕ) :
    Worker (SafeTransaction × Bool) := do
  let transaction : SafeTransaction ← ask (.safeTransaction proposal.safeTxHash)
  if !transaction.isExecuted ∧ proposal.safeNonce < currentNonce then
    let executed ← safeTransactionsAtNonce proposal.safeNonce true
    let executed := executed.getD []
    match executed.find? fun candidate => candidate.safeTxHash = proposal.safeTxHash with
    | some own => return (own, false)
    | none => return (transaction, executed ≠ [])
  else return (transaction, false)

/-- `shouldRecoverMissingSafeSubmission`. -/
def shouldRecoverMissingSafeSubmission (proposal : SafePayoutProposal) (error : Failure)
    (now : Time) : Bool :=
  proposal.status = .submitting ∧ error = .service (some 404) ∧
    safeSubmittingRecoveryDelayMs ≤ now - proposal.createdAt

/-! ### The guarded updates -/

/-- The payout and the proposal a pass has read. -/
structure TrackedProposal where
  proposal : SafePayoutProposal
  payout : Payout

/-- `applyPendingSafeProposalUpdate`. -/
def applyPendingSafeProposalUpdate (proposalId payoutId : Id) (next : ProposalUpdate) (now : Time)
    (failPayout : Bool) (db : Database) : Database × Bool :=
  if db.payoutProposals.any fun row => row.id = proposalId ∧ row.status.pending then
    let db := db.mapProposal proposalId (·.update next now)
    (if failPayout then db.failPayouts [payoutId] else db, true)
  else (db, false)

/-- The row that the indexer made for the release of this payout. -/
def isConfirmedProjection (db : Database) (payout : Payout) (executionTxHash : Hash)
    (row : Payout) : Bool :=
  row.id ≠ payout.id ∧ row.goalId = payout.goalId ∧ row.asset = payout.asset ∧
    row.kind = payout.kind ∧ row.amountRaw = payout.amountRaw ∧
    row.recipientAddress = payout.recipientAddress ∧ row.chainTxHash = some executionTxHash ∧
    row.status = .executed ∧ (db.safeIntent? row.id).isNone

/-- `reconcileConfirmedSafePayout`: the reservation takes the place of the indexer's row. -/
def reconcileConfirmedSafePayout (payout : Payout) (executionTxHash : Hash) (db : Database) :
    Database × Bool :=
  match db.payouts.find? (isConfirmedProjection db payout executionTxHash) with
  | none => (db, false)
  | some confirmedProjection =>
    if db.payouts.any fun row => row.id = payout.id ∧ row.status = .proposed then
      let db := db.mapPayout payout.id fun row =>
        { row with
          status := .executed
          chainTxHash := some executionTxHash
          recipientAddress := confirmedProjection.recipientAddress
          executedAt := confirmedProjection.executedAt }
      ({ db with payouts := db.payouts.filter fun row => row.id ≠ confirmedProjection.id }, true)
    else (db, false)

/-- The transaction that applies what was found out about a proposal. -/
def applyUpdate (tracked : TrackedProposal) (next : ProposalUpdate) (now : Time)
    (failPayout : Bool) (db : Database) : Database × Bool :=
  let applied := applyPendingSafeProposalUpdate tracked.proposal.id tracked.payout.id next now
    failPayout db
  if applied.2 ∧ next.status = .executed then
    match next.executionTxHash.join with
    | some executionTxHash =>
      ((reconcileConfirmedSafePayout tracked.payout executionTxHash applied.1).1, true)
    | none => applied
  else applied

/-- The Safe's answer was not available. -/
def noteUnavailable (proposalId : Id) (now : Time) (db : Database) : Database :=
  { db with
    payoutProposals := updateWhere (fun row => row.id = proposalId ∧ row.status.pending)
      (fun row => { row with
        lastCheckedAt := some now
        failureReason := some "Safe status is temporarily unavailable" }) db.payoutProposals }

/-! ### The pass -/

section

variable (config : Deployment)

/-- The proposals of the Safe that meet `p`, in the order of their last updates. -/
def safeProposals (updatedAt : Id → Time) (p : SafePayoutProposal → Payout → Bool)
    (db : Database) : List SafePayoutProposal :=
  let proposals := db.payoutProposals.filter fun proposal =>
    (db.intent? proposal.intentId).any fun intent =>
      intent.chainId = config.chainId ∧ intent.safeAddress = config.safeAddress ∧
        (db.payout? intent.payoutId).any (p proposal)
  (proposals.insertionSort fun a b => updatedAt a.id ≤ updatedAt b.id).take 100

/-- The proposals with the payouts of their intents. -/
def withPayouts (proposals : List SafePayoutProposal) (db : Database) : List TrackedProposal :=
  proposals.filterMap fun proposal => do
    let intent ← db.intent? proposal.intentId
    let payout ← db.payout? intent.payoutId
    return ⟨proposal, payout⟩

/-- Join the executed reservations with the rows of their releases. -/
def reconcileExecuted : List TrackedProposal → Worker Unit
  | [] => return ()
  | tracked :: rest => do
    match tracked.proposal.executionTxHash with
    | none => pure ()
    | some executionTxHash =>
      transaction fun db => .ok (reconcileConfirmedSafePayout tracked.payout executionTxHash db).1
    reconcileExecuted rest

/-- The proposal could not be found at the service. -/
def recoverSubmission (tracked : TrackedProposal) (currentNonce : ℕ) (now : Time) :
    Worker Unit := do
  let transactionsAtNonce ← safeTransactionsAtNonce tracked.proposal.safeNonce false
  match transactionsAtNonce with
  | none => transaction fun db => .ok (noteUnavailable tracked.proposal.id now db)
  | some transactions =>
    match recoveredSafeTransaction transactions tracked.proposal.safeTxHash with
    | (some own, _) =>
      let next := classifySafeProposal own tracked.proposal.safeNonce currentNonce
        tracked.proposal.threshold now false
      transaction fun db => .ok (applyUpdate tracked next now (next.status = .failed) db).1
    | (none, nonceWasReplaced) =>
      let next := classifyMissingSafeSubmission tracked.proposal.safeNonce currentNonce
        nonceWasReplaced
      transaction fun db => .ok (applyPendingSafeProposalUpdate tracked.proposal.id
        tracked.payout.id next now (next.status = .failed ∨ next.status = .stale) db).1

/-- Look up one pending proposal. -/
def syncProposal (tracked : TrackedProposal) (currentNonce : ℕ) (now : Time) : Worker Unit := do
  try
    let (resolved, nonceWasReplaced) ← resolveSafeTransaction tracked.proposal currentNonce
    let next := classifySafeProposal resolved tracked.proposal.safeNonce currentNonce
      tracked.proposal.threshold now nonceWasReplaced
    transaction fun db => .ok (applyUpdate tracked next now
      (next.status = .failed ∨ next.status = .stale) db).1
  catch error =>
    if shouldRecoverMissingSafeSubmission tracked.proposal error now then
      recoverSubmission tracked currentNonce now
    else transaction fun db => .ok (noteUnavailable tracked.proposal.id now db)

/-- Look up the pending proposals. -/
def syncPending (currentNonce : ℕ) (now : Time) : List TrackedProposal → Worker Unit
  | [] => return ()
  | tracked :: rest => do
    syncProposal tracked currentNonce now
    syncPending currentNonce now rest

/-- `syncSafePayoutProposals`. -/
def syncSafePayoutProposals (updatedAt : Id → Time) : Worker Unit := do
  if !config.safeServiceConfigured then return ()
  let now : Time ← ask .now
  expireUnconsumedSafePayoutIntents config (some config.safeAddress) now
  let executed ← select (safeProposals config updatedAt fun proposal payout =>
    proposal.status = .executed ∧ proposal.executionTxHash.isSome ∧ payout.status = .proposed)
  let unresolved ← select (withPayouts executed)
  reconcileExecuted unresolved
  let waiting ← select (safeProposals config updatedAt fun proposal _ => proposal.status.pending)
  let pending ← select (withPayouts waiting)
  if pending = [] then return ()
  let currentNonce : ℕ ← ask .safeNonce
  syncPending currentNonce now pending

end

end Escrow

end PreCommunity
