import PreCommunity.Escrow.World

/-!
# Payout requests

The requests of the administration that reserve, submit and cancel payouts.  A reservation is a
payout in `PROPOSED` with its intent; it is delivered to the Safe by the service, through a
proposal, or by hand.  Every statement and every transaction is atomic, and other requests may act
between two of them; the rows of an `include` are read by statements of their own.

* `expireUnconsumedSafePayoutIntents` : expired reservations of the service fail.
* `createSafePayoutIntent` : reserve a payout, or use the reservation that there is.
* `submitSafePayoutProposal` : submit the signed transaction of a reservation to the Safe.
* `cancelManualSafePayout` : give up a manual reservation.
-/

namespace PreCommunity

namespace Escrow

open Store Concurrent
open Routine (attempt)

/-- `ReleaseProposalDto`. -/
structure ReleaseProposal where
  kind : PayoutKind
  asset : FundingAsset
  amountRaw : ℕ
  delivery : SafePayoutDelivery
  confirmedAbsentFromSafe : Bool
deriving DecidableEq, Repr

/-- A transaction to sign or to execute. -/
structure TransactionRequest where
  toAddress : Address
  value : ℕ
  data : Hash
deriving DecidableEq, Repr

/-- The answer to a payout request. -/
inductive PayoutIntentResponse where
  | manual (id : Id) (transactionRequest : TransactionRequest)
  | service (id : Id) (expiresAt : Time) (safeAddress : Address) (safeNonce threshold : ℕ)
      (transactionRequest : TransactionRequest)
deriving DecidableEq, Repr

/-- `SubmitSafePayoutProposalDto`. -/
structure SafeSubmission where
  senderAddress : Address
  safeTxHash : Hash
  transaction : Hash
deriving DecidableEq, Repr

/-- The transaction that an intent stands for. -/
def SafePayoutIntent.request (intent : SafePayoutIntent) : TransactionRequest :=
  ⟨intent.toAddress, intent.valueRaw, intent.data⟩

namespace Database

variable (db : Database)

/-- The payout with an id. -/
def payout? (id : Id) : Option Payout := db.payouts.find? fun row => row.id = id

/-- The reservation with an id. -/
def intent? (id : Id) : Option SafePayoutIntent := db.payoutIntents.find? fun row => row.id = id

/-- The reservation's payout is still proposed. -/
def isReserved (intent : SafePayoutIntent) : Bool :=
  (db.payout? intent.payoutId).any fun payout => payout.status = .proposed

/-- `SafePayoutIntent_one_unsubmitted_per_safe_idx`: another reservation of the Safe is not
consumed. -/
def unsubmittedTaken (id : Id) (chainId : ℕ) (safeAddress : Address) : Bool :=
  db.payoutIntents.any fun row => row.id ≠ id ∧ row.chainId = chainId ∧
    row.safeAddress = safeAddress ∧ row.consumedAt = none

end Database

section

variable (config : Deployment) (ext : External)

/-! ### Expiry -/

/-- A reservation of the service that nobody has submitted in time. -/
def isExpired (db : Database) (now : Time) (intent : SafePayoutIntent) : Bool :=
  intent.delivery = .service ∧ intent.consumedAt = none ∧ intent.expiresAt.any (· ≤ now) ∧
    (db.proposal? intent.id).isNone ∧ db.isReserved intent

/-- Claim one expired reservation, and note its payout. -/
def claimExpired (now : Time) (acc : Database × List Id) (candidate : SafePayoutIntent) :
    Database × List Id :=
  let (db, payoutIds) := acc
  if db.payoutIntents.any fun row => row.id = candidate.id ∧ isExpired db now row then
    (db.mapIntent candidate.id fun row => { row with consumedAt := some now },
      payoutIds ++ [candidate.payoutId])
  else (db, payoutIds)

/-- The payouts that are still proposed fail. -/
def Database.failPayouts (db : Database) (ids : List Id) : Database :=
  { db with
    payouts := updateWhere (fun row => row.id ∈ ids ∧ row.status = .proposed)
      (fun row => { row with status := .failed }) db.payouts }

/-- The transaction of the expiry. -/
def expireTx (now : Time) (candidates : List SafePayoutIntent) (db : Database) : Database :=
  let (db, payoutIds) := candidates.foldl (claimExpired now) (db, [])
  db.failPayouts payoutIds

/-- `expireUnconsumedSafePayoutIntents`. -/
def expireUnconsumedSafePayoutIntents (safeAddress : Option Address) (now : Time) :
    Worker Unit := do
  let candidates ← select fun db => db.payoutIntents.filter fun intent =>
    intent.chainId = config.chainId ∧ safeAddress.all (· = intent.safeAddress) ∧
      isExpired db now intent
  if candidates = [] then return ()
  transaction fun db => .ok (expireTx now candidates db)

/-- `expireAbandonedSafeIntents`. -/
def expireAbandonedSafeIntents : Worker Unit := do
  let now : Time ← ask .now
  expireUnconsumedSafePayoutIntents config none now

/-! ### Reserving -/

/-- The reservation of the service can still be submitted. -/
def SafePayoutIntent.isLive (now : Time) (intent : SafePayoutIntent) : Bool :=
  intent.delivery = .service ∧ intent.consumedAt = none ∧ intent.expiresAt.any (now < ·)

/-- The reservation of this payout that a request continues. -/
def isActiveIntent (db : Database) (safeAddress : Address) (goalId : Id) (dto : ReleaseProposal)
    (now : Time) (intent : SafePayoutIntent) : Bool :=
  intent.chainId = config.chainId ∧ intent.safeAddress = safeAddress ∧ intent.goalId = goalId ∧
    ((db.payout? intent.payoutId).any fun payout => payout.asset = dto.asset ∧
      payout.kind = dto.kind ∧ payout.amountRaw = dto.amountRaw ∧ payout.status = .proposed) ∧
    (intent.delivery = .manual ∨ intent.isLive now ∨
      (db.proposal? intent.id).any (·.status.pending))

/-- A reservation that has to be finished before another one starts. -/
def isBlockingIntent (db : Database) (safeAddress : Address) (now : Time)
    (intent : SafePayoutIntent) : Bool :=
  intent.chainId = config.chainId ∧ intent.safeAddress = safeAddress ∧ db.isReserved intent ∧
    (intent.delivery = .manual ∨ intent.isLive now ∨
      (db.proposal? intent.id).any (·.status = .submitting))

/-- `assertManualReplacementAllowed`. -/
def assertManualReplacementAllowed (proposal : SafePayoutProposal)
    (confirmedAbsentFromSafe : Bool) : Except Failure Unit :=
  match proposal.status with
  | .awaitingConfirmations | .readyToExecute => .error (.badRequest
      "A Safe proposal is already awaiting signatures or ready to execute and cannot be duplicated.")
  | .submitting =>
    if proposal.failureReason.isNone then
      .error (.badRequest "A Safe proposal is still being submitted. Try again later.")
    else if !confirmedAbsentFromSafe then .error (.badRequest
      "CONFIRM_SAFE_QUEUE_ABSENT: Check the Safe queue and confirm that this proposal is absent before exporting a manual replacement.")
    else .ok ()
  | _ => .ok ()

/-- The proposal of an uncertain submission is replaced by a manual export. -/
def staleProposalTx (proposal : SafePayoutProposal) (now : Time) (db : Database) :
    Except Failure Database :=
  if db.payoutProposals.any fun row => row.id = proposal.id ∧ row.status = .submitting then
    .ok (db.mapProposal proposal.id fun row =>
      { row with
        status := .stale
        failureReason := some "Superseded by a confirmed manual export after checking Safe."
        lastCheckedAt := some now })
  else .error (.badRequest "The Safe proposal changed. Refresh and try again.")

/-- A reservation of the service becomes a manual one. -/
def SafePayoutIntent.toManual (intent : SafePayoutIntent) : SafePayoutIntent :=
  { intent with delivery := .manual, safeNonce := none, expiresAt := none, consumedAt := none }

/-- The transaction that converts a reservation. -/
def convertTx (intent : SafePayoutIntent) (proposal : Option SafePayoutProposal) (now : Time)
    (db : Database) : Except Failure Database := do
  let db ← match proposal with
    | none => .ok db
    | some proposal => staleProposalTx proposal now db
  if (db.intent? intent.id).isNone then throw .recordNotFound
  if db.unsubmittedTaken intent.id intent.chainId intent.safeAddress then
    throw .uniqueConstraint
  return db.mapIntent intent.id (·.toManual)

/-- Continue the reservation that there is. -/
def continueIntent (safeInfo : SafeInfo) (dto : ReleaseProposal) (now : Time)
    (intent : SafePayoutIntent) : Worker PayoutIntentResponse := do
  let _ ← select fun db => db.payout? intent.payoutId
  let proposal ← select fun db => db.proposal? intent.id
  let _ ← select fun db => db.goals.find? fun row => row.id = intent.goalId
  match dto.delivery with
  | .manual =>
    if intent.delivery = .manual then return .manual intent.id intent.request
    else
      match proposal with
      | none => pure ()
      | some proposal =>
        attempt (assertManualReplacementAllowed proposal dto.confirmedAbsentFromSafe)
      transaction (convertTx intent proposal now)
      return .manual intent.id intent.request
  | .service =>
    if intent.delivery = .manual then throw (.badRequest
      "This payout is reserved for manual execution. Execute or cancel it before using Safe API.")
    else if proposal.any (·.status ≠ .submitting) then
      throw (.badRequest "This payout already has an active Safe proposal.")
    else match intent.expiresAt, intent.safeNonce with
      | some expiresAt, some safeNonce =>
        return .service intent.id expiresAt safeInfo.address safeNonce safeInfo.threshold
          intent.request
      | _, _ => throw (.badRequest "This Safe payout intent is no longer usable.")

/-- The amount of a token that a goal may release. -/
def FundingGoal.entitlementRaw (goal : FundingGoal) (kind : PayoutKind) (asset : FundingAsset) :
    ℕ :=
  match kind with
  | .expense => goal.recipientEntitlementRaw.get asset
  | .cancelledFunds => goal.treasuryEntitlementRaw.get asset

/-- The sum of the payouts in a state. -/
def payoutsIn (status : PayoutStatus) (kind : PayoutKind) (asset : FundingAsset)
    (payouts : List Payout) : ℕ :=
  total (fun row => row.asset = asset ∧ row.kind = kind ∧ row.status = status) (·.amountRaw) payouts

/-- The checks of a new reservation. -/
def checkAvailable (goal : FundingGoal) (payouts : List Payout) (dto : ReleaseProposal) :
    Except Failure Unit :=
  if dto.kind = .expense ∧ goal.goalType = .oneTime ∧ goal.status ≠ .closed then
    .error (.badRequest "One-time recipient funds require a closed goal")
  else if dto.kind = .cancelledFunds ∧ goal.status ≠ .cancelled then
    .error (.badRequest "Treasury funds require a cancelled goal")
  else
    let entitlementRaw := goal.entitlementRaw dto.kind dto.asset
    let releasedRaw := payoutsIn .executed dto.kind dto.asset payouts
    let reservedRaw := payoutsIn .proposed dto.kind dto.asset payouts
    let alreadyAllocated := releasedRaw + reservedRaw
    let availableRaw :=
      if entitlementRaw > alreadyAllocated then entitlementRaw - alreadyAllocated else 0
    if dto.amountRaw > availableRaw then
      .error (.badRequest "Requested amount exceeds the confirmed available balance")
    else .ok ()

/-- The transaction of a new reservation. -/
def reserveTx (goal : FundingGoal) (dto : ReleaseProposal) (safeInfo : SafeInfo)
    (actor : Address) (safeNonce : Option ℕ) (expiresAt : Option Time) (db : Database) :
    Except Failure (Database × SafePayoutIntent) :=
  let token := match dto.asset with
    | .pre => config.preAddress
    | .usdc => config.usdcAddress
  let payout : Payout :=
    { id := db.nextId
      goalId := goal.id
      asset := dto.asset
      kind := dto.kind
      amountRaw := dto.amountRaw
      recipientAddress := match dto.kind with
        | .expense => goal.recipientAddress
        | .cancelledFunds => config.treasury
      chainTxHash := none
      status := .proposed
      executedAt := none }
  let intent : SafePayoutIntent :=
    { id := db.nextId + 1
      payoutId := db.nextId
      goalId := goal.id
      chainId := config.chainId
      safeAddress := safeInfo.address
      delivery := dto.delivery
      safeNonce := safeNonce
      toAddress := config.escrowAddress
      valueRaw := 0
      data := ext.encodeRelease dto.kind goal.chainGoalId token dto.amountRaw
      createdByAddress := actor
      expiresAt := expiresAt
      consumedAt := none }
  if !(db.goals.any fun row => row.id = goal.id) then .error .foreignKey
  else if db.unsubmittedTaken intent.id config.chainId safeInfo.address then
    .error .uniqueConstraint
  else .ok ({ db with
    payouts := db.payouts ++ [payout]
    payoutIntents := db.payoutIntents ++ [intent]
    nextId := db.nextId + 2 }, intent)

/-- When the Safe's slot is taken, a manual request uses the reservation that took it. -/
def concurrentManual (safeInfo : SafeInfo) (goalId : Id) (dto : ReleaseProposal) :
    Worker SafePayoutIntent := do
  let busy := Failure.badRequest
    "Another payout is being prepared for this Safe. Try this payout again in a moment."
  match dto.delivery with
  | .service => throw busy
  | .manual =>
    let concurrent ← select fun db => db.payoutIntents.find? fun intent =>
      intent.chainId = config.chainId ∧ intent.safeAddress = safeInfo.address ∧
        intent.delivery = .manual ∧ intent.goalId = goalId ∧
        (db.payout? intent.payoutId).any fun payout => payout.asset = dto.asset ∧
          payout.kind = dto.kind ∧ payout.amountRaw = dto.amountRaw ∧ payout.status = .proposed
    match concurrent with
    | some concurrent => return concurrent
    | none => throw busy

/-- Insert the reservation. -/
def insertReservation (safeInfo : SafeInfo) (goal : FundingGoal) (dto : ReleaseProposal)
    (actor : Address) (safeNonce : Option ℕ) (expiresAt : Option Time) :
    Worker SafePayoutIntent := do
  try transactionOf (reserveTx config ext goal dto safeInfo actor safeNonce expiresAt)
  catch error =>
    if error = .uniqueConstraint then concurrentManual config safeInfo goal.id dto
    else throw error

/-- Start a new reservation. -/
def reserve (safeInfo : SafeInfo) (goalId : Id) (dto : ReleaseProposal) (actor : Address)
    (now : Time) : Worker PayoutIntentResponse := do
  let blocking ← select fun db =>
    db.payoutIntents.any (isBlockingIntent config db safeInfo.address now)
  if blocking then throw (.badRequest
    "Another payout is being prepared or submitted for this Safe. Finish it before starting a new one.")
  else
    let found ← select fun db => db.goals.find? fun row =>
      row.id = goalId ∧ row.chainId = config.chainId
    match found with
    | none => throw (.notFound "On-chain goal not found")
    | some goal =>
      let payouts ← select fun db => db.payouts.filter fun row => row.goalId = goalId
      attempt (checkAvailable goal payouts dto)
      match dto.delivery with
      | .manual =>
        let intent ← insertReservation config ext safeInfo goal dto actor none none
        return .manual intent.id intent.request
      | .service =>
        let safeNonce : ℕ ← ask .nextNonce
        let created : Time ← ask .now
        let intent ← insertReservation config ext safeInfo goal dto actor (some safeNonce)
          (some (created + 10 * 60000))
        return .service intent.id (created + 10 * 60000) safeInfo.address safeNonce
          safeInfo.threshold intent.request

/-- `AdminService.createSafePayoutIntent`. -/
def createSafePayoutIntent (goalId : Id) (dto : ReleaseProposal) (actor : Address) :
    Worker PayoutIntentResponse := do
  let safeInfo : SafeInfo ← match dto.delivery with
    | .manual => ask (.assertSafeEscrowOwner actor)
    | .service => ask (.assertPayoutReady actor)
  expireAbandonedSafeIntents config
  let now : Time ← ask .now
  let activeIntent ← select fun db => (db.payoutIntents.filter
    (isActiveIntent config db safeInfo.address goalId dto now)).getLast?
  match activeIntent with
  | some intent => continueIntent safeInfo dto now intent
  | none => reserve config ext safeInfo goalId dto actor now

/-! ### Submitting -/

/-- The transaction that claims a reservation for its proposal. -/
def claimTx (intentId : Id) (safeTxHash : Hash) (safeNonce : ℕ) (actor : Address)
    (threshold : ℕ) (consumedAt : Time) (db : Database) :
    Except Failure (Database × SafePayoutProposal) :=
  let isClaimable := fun row : SafePayoutIntent => row.id = intentId ∧ row.delivery = .service ∧
    row.consumedAt = none ∧ row.expiresAt.any (consumedAt < ·) ∧ (db.proposal? row.id).isNone ∧
    db.isReserved row
  let proposal : SafePayoutProposal :=
    { id := db.nextId
      intentId := intentId
      safeTxHash := safeTxHash
      safeNonce := safeNonce
      senderAddress := actor
      confirmations := 1
      threshold := threshold
      status := .submitting
      executionTxHash := none
      failureReason := none
      lastCheckedAt := none
      executedAt := none
      createdAt := consumedAt }
  if !db.payoutIntents.any isClaimable then .error .intentClaim
  else if db.payoutProposals.any fun row => row.safeTxHash = safeTxHash then
    .error .uniqueConstraint
  else .ok ({ db.mapIntent intentId fun row => { row with consumedAt := some consumedAt } with
    payoutProposals := db.payoutProposals ++ [proposal]
    nextId := db.nextId + 1 }, proposal)

/-- The proposal of another submission of the intent. -/
def concurrentProposal (intent : SafePayoutIntent) (safeTxHash : Hash) (expiresAt : Time) :
    Worker SafePayoutProposal := do
  let concurrent ← select fun db => db.proposal? intent.id
  match concurrent with
  | none =>
    let now : Time ← ask .now
    throw (.badRequest (if expiresAt ≤ now then
      "The payout intent has expired. Create a new one."
      else "This payout intent is no longer active"))
  | some concurrent =>
    if concurrent.safeTxHash ≠ safeTxHash then
      throw (.badRequest "This payout intent already has a different Safe proposal")
    else return concurrent

/-- The proposal of an intent: a new one, or the one of another submission. -/
def claimProposal (intent : SafePayoutIntent) (safeTxHash : Hash) (safeNonce : ℕ)
    (expiresAt : Time) (actor : Address) (threshold : ℕ) : Worker SafePayoutProposal := do
  try
    let consumedAt : Time ← ask .now
    transactionOf (claimTx intent.id safeTxHash safeNonce actor threshold consumedAt)
  catch error =>
    if error = .intentClaim ∨ error = .uniqueConstraint then
      concurrentProposal intent safeTxHash expiresAt
    else throw error

/-- Remember that a submission was not confirmed. -/
def noteUnconfirmed (proposalId : Id) (checkedAt : Time) (db : Database) : Database :=
  { db with
    payoutProposals := updateWhere (fun row => row.id = proposalId ∧ row.status = .submitting)
      (fun row => { row with
        failureReason := some "Safe submission has not been confirmed. Retry the signed proposal."
        lastCheckedAt := some checkedAt }) db.payoutProposals }

/-- A submitted proposal waits for signatures, or for its execution. -/
def markSubmitted (proposalId : Id) (threshold : ℕ) (db : Database) : Database :=
  { db with
    payoutProposals := updateWhere (fun row => row.id = proposalId ∧ row.status = .submitting)
      (fun row => { row with
        status := if threshold ≤ 1 then .readyToExecute else .awaitingConfirmations
        failureReason := none }) db.payoutProposals }

/-- Send the proposal to the Safe, and note what became of it. -/
def sendProposal (proposal : SafePayoutProposal) (dto : SafeSubmission) (safeTxHash : Hash)
    (actor : Address) (threshold : ℕ) : Worker SafePayoutProposal := do
  try ask (.propose dto.transaction safeTxHash actor)
  catch error =>
    let checkedAt : Time ← ask .now
    try transaction fun db => .ok (noteUnconfirmed proposal.id checkedAt db)
    catch _ => pure ()
    throw error
  transactionOf fun db =>
    let db := markSubmitted proposal.id threshold db
    match db.payoutProposals.find? fun row => row.id = proposal.id with
    | some current => .ok (db, current)
    | none => .error .recordNotFound

/-- The part of a submission in which the intent is checked; it returns the hash of the signed
transaction. -/
def checkSubmission (intent : SafePayoutIntent) (proposal : Option SafePayoutProposal)
    (safeNonce : ℕ) (expiresAt : Time) (dto : SafeSubmission) : Worker Hash := do
  if proposal.isNone then
    let now : Time ← ask .now
    if expiresAt ≤ now then
      let now : Time ← ask .now
      expireUnconsumedSafePayoutIntents config none now
      throw (.badRequest "The payout intent has expired. Create a new one.")
    let nonce : ℕ ← ask .nextNonce
    if nonce ≠ safeNonce then
      throw (.badRequest "The Safe nonce changed. Create a new payout request.")
  ask (.validateTransactionData dto.transaction intent.toAddress intent.valueRaw intent.data
    safeNonce)
  let calculatedHash : Hash ← ask (.transactionHash dto.transaction)
  if calculatedHash ≠ dto.safeTxHash then
    throw (.forbidden "Safe transaction hash does not match the signed transaction")
  return calculatedHash

/-- Submit a reservation of the service. -/
def submitIntent (intent : SafePayoutIntent) (proposal : Option SafePayoutProposal)
    (payout : Option Payout) (safeNonce : ℕ) (expiresAt : Time) (dto : SafeSubmission)
    (actor : Address) : Worker SafePayoutProposal := do
  let safeInfo : SafeInfo ← ask (.assertPayoutReady actor)
  if intent.chainId ≠ config.chainId ∨ intent.safeAddress ≠ safeInfo.address ∨
      intent.toAddress ≠ config.escrowAddress then
    throw (.forbidden "The payout intent belongs to a different deployment")
  else if proposal.any (·.safeTxHash ≠ dto.safeTxHash) then
    throw (.badRequest "This payout intent already has a different Safe proposal")
  else match proposal.filter (·.status ≠ .submitting) with
    | some proposal => return proposal
    | none =>
      if !(payout.any (·.status = .proposed)) then
        throw (.badRequest "This payout intent is no longer active")
      else
        let calculatedHash ← checkSubmission config intent proposal safeNonce expiresAt dto
        match proposal with
        | some proposal => sendProposal proposal dto calculatedHash actor safeInfo.threshold
        | none =>
          let claimed ← claimProposal intent calculatedHash safeNonce expiresAt actor
            safeInfo.threshold
          if claimed.status ≠ .submitting then return claimed
          else sendProposal claimed dto calculatedHash actor safeInfo.threshold

/-- `AdminService.submitSafePayoutProposal`. -/
def submitSafePayoutProposal (intentId : Id) (dto : SafeSubmission) (actor : Address) :
    Worker SafePayoutProposal := do
  if dto.senderAddress ≠ actor then
    throw (.forbidden "The Safe proposal signer must match the signed-in wallet")
  else
    let found ← select fun db => db.intent? intentId
    match found with
    | none => throw (.notFound "Safe payout intent not found")
    | some intent =>
      let proposal ← select fun db => db.proposal? intent.id
      let payout ← select fun db => db.payout? intent.payoutId
      match intent.delivery, intent.safeNonce, intent.expiresAt with
      | .service, some safeNonce, some expiresAt =>
        submitIntent config intent proposal payout safeNonce expiresAt dto actor
      | _, _, _ => throw (.badRequest
        "Manual payout reservations must be executed in Safe Wallet, not submitted through the API.")

/-! ### Cancelling -/

/-- The transaction of a cancellation. -/
def cancelTx (intent : SafePayoutIntent) (cancelledAt : Time) (db : Database) :
    Except Failure Database :=
  if !(db.payouts.any fun row => row.id = intent.payoutId ∧ row.status = .proposed) then
    .error (.badRequest "This payout is already executed or cancelled")
  else if (db.intent? intent.id).isNone then .error .recordNotFound
  else .ok ((db.failPayouts [intent.payoutId]).mapIntent intent.id fun row =>
    { row with consumedAt := some cancelledAt })

/-- `AdminService.cancelManualSafePayout`. -/
def cancelManualSafePayout (intentId : Id) (actor : Address) : Worker Unit := do
  let safeInfo : SafeInfo ← ask (.assertOwner actor)
  let found ← select fun db => db.intent? intentId
  match found with
  | none => throw (.notFound "Manual payout reservation not found")
  | some intent =>
    let _ ← select fun db => db.payout? intent.payoutId
    if intent.delivery ≠ .manual ∨ intent.chainId ≠ config.chainId ∨
        intent.safeAddress ≠ safeInfo.address then
      throw (.forbidden "This is not a manual payout reservation for this Safe")
    else
      let cancelledAt : Time ← ask .now
      transaction (cancelTx intent cancelledAt)

end

end Escrow

end PreCommunity
