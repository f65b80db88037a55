import PreCommunity.Escrow.Schedule
import PreCommunity.Escrow.Schema

/-!
# Projecting an event of the escrow

One event of the contract's log is projected in one database transaction, which an error rolls
back.  The functions here compute the tables after it.

* `Deployment`, `External` : the configuration, and the functions of texts and calldata.
* `Failure` : the errors of the escrow's processes.
* `applyAuthorityChange`, `applyProfileUpdate`, `applyProfileClear`, `confirmSafeGoalAction` : the
  helpers of the handler.
* `handleDecodedEscrowEvent` : the handler.
-/

namespace PreCommunity

namespace Escrow

open Store

/-- The deployment of the contract. -/
structure Deployment where
  chainId : ℕ
  escrowAddress : Address
  preAddress : Address
  usdcAddress : Address
  treasury : Address
  deploymentBlock : ℕ
  confirmations : ℕ
  /-- `deploymentStateKey`. -/
  stateKey : Text
  /-- `SAFE_ADDRESS`. -/
  safeAddress : Address
  /-- `SAFE_TRANSACTION_SERVICE_API_KEY` or `SAFE_TRANSACTION_SERVICE_URL` is set. -/
  safeServiceConfigured : Bool

/-- The functions of texts and of calldata. -/
structure External where
  slugFor : Text → Hash → Text
  isValidIpfsUri : Text → Bool
  /-- `encodeFunctionData` of the release of an amount of a token of a goal. -/
  encodeRelease : PayoutKind → Hash → Address → ℕ → Hash

/-- How a transaction or a request fails. -/
inductive Failure where
  /-- `Event … references an unknown goal …`. -/
  | unknownGoal (event : EscrowEvent)
  /-- `Unsupported token event: …`. -/
  | unsupportedToken (token : Address)
  /-- `Unsupported monthly surplus policy: …`. -/
  | unsupportedSurplusPolicy (value : ℕ)
  /-- `Unsupported monthly settlement day: …`. -/
  | unsupportedSettlementDay (value : ℕ)
  /-- `Monthly contribution has no open period …`. -/
  | noOpenPeriod (periodIndex : ℕ)
  /-- `Monthly goal … has no valid settlement day`. -/
  | noSettlementDay (chainGoalId : Hash)
  /-- A time of the chain is no date. -/
  | invalidDate
  | schedule (error : ScheduleError)
  /-- A unique key is taken. -/
  | uniqueConstraint
  /-- A referenced row is missing. -/
  | foreignKey
  /-- The row to update is missing. -/
  | recordNotFound
  | badRequest (text : String)
  | forbidden (text : String)
  | notFound (text : String)
  /-- `SafePayoutIntentClaimError`. -/
  | intentClaim
  /-- An error of the Safe service, with its HTTP status. -/
  | service (statusCode : Option ℕ)
  /-- A lost connection, or any other error. -/
  | other
deriving DecidableEq, Repr

/-- A log of the contract, with the time of its block. -/
structure DecodedEscrowEvent where
  event : EscrowEvent
  blockNumber : ℕ
  blockHash : Hash
  blockTimestamp : ℕ
  txHash : Hash
  logIndex : ℕ

/-- The metadata that has to be fetched after a goal was created. -/
structure MetadataRefresh where
  goalId : Id
  uri : Text
deriving DecidableEq, Repr

/-- The zero address. -/
def zeroAddress : Address := 0

/-- A time of the chain that is written to the database. -/
def date (value : ℕ) : Except Failure Time :=
  match dateFromChainTimestamp value with
  | some t => .ok t
  | none => .error .invalidDate

/-- `metadataURI || null`. -/
def nonempty (text : Text) : Option Text := if text = [] then none else some text

/-! ### Reading the tables -/

namespace Database

variable (db : Database)

/-- The goal of a goal id of the contract. -/
def goal? (chainId : ℕ) (chainGoalId : Hash) : Option FundingGoal :=
  db.goals.find? fun row => row.chainId = chainId ∧ row.chainGoalId = chainGoalId

/-- A period of a goal. -/
def period? (goalId : Id) (periodIndex : ℕ) : Option FundingGoalPeriod :=
  db.periods.find? fun row => row.goalId = goalId ∧ row.periodIndex = periodIndex

/-- The reservation of a payout. -/
def safeIntent? (payoutId : Id) : Option SafePayoutIntent :=
  db.payoutIntents.find? fun row => row.payoutId = payoutId

/-- The proposal of a reservation. -/
def proposal? (intentId : Id) : Option SafePayoutProposal :=
  db.payoutProposals.find? fun row => row.intentId = intentId

/-- The lifecycle action of a proposal. -/
def goalActionIntent? (id : Id) : Option SafeGoalActionIntent :=
  db.goalActionIntents.find? fun row => row.id = id

/-- Update one goal. -/
def mapGoal (id : Id) (f : FundingGoal → FundingGoal) : Database :=
  { db with goals := updateWhere (fun row => row.id = id) f db.goals }

/-- Update one period. -/
def mapPeriod (goalId : Id) (periodIndex : ℕ) (f : FundingGoalPeriod → FundingGoalPeriod) :
    Database :=
  { db with periods :=
      updateWhere (fun row => row.goalId = goalId ∧ row.periodIndex = periodIndex) f db.periods }

/-- Update a period, or create it. -/
def upsertPeriod (row : FundingGoalPeriod) (f : FundingGoalPeriod → FundingGoalPeriod) :
    Database :=
  match db.period? row.goalId row.periodIndex with
  | some _ => db.mapPeriod row.goalId row.periodIndex f
  | none => { db with periods := db.periods ++ [row] }

/-- Update one payout. -/
def mapPayout (id : Id) (f : Payout → Payout) : Database :=
  { db with payouts := updateWhere (fun row => row.id = id) f db.payouts }

/-- Update one reservation. -/
def mapIntent (id : Id) (f : SafePayoutIntent → SafePayoutIntent) : Database :=
  { db with payoutIntents := updateWhere (fun row => row.id = id) f db.payoutIntents }

/-- Update one proposal. -/
def mapProposal (id : Id) (f : SafePayoutProposal → SafePayoutProposal) : Database :=
  { db with payoutProposals := updateWhere (fun row => row.id = id) f db.payoutProposals }

/-- Find the user of an address, or create it. -/
def upsertUser (address : Address) : Database × Id :=
  match db.users.find? fun row => row.address = address with
  | some user => (db, user.id)
  | none =>
    ({ db with users := db.users ++ [⟨db.nextId, address⟩], nextId := db.nextId + 1 }, db.nextId)

end Database

section

variable (config : Deployment) (ext : External)

/-! ### Authorities -/

/-- A row is the authority of this deployment, address and kind. -/
def ChainAuthority.is (address : Address) (kind : ChainAuthorityKind) (row : ChainAuthority) :
    Bool :=
  row.chainId = config.chainId ∧ row.contractAddress = config.escrowAddress ∧
    row.address = address ∧ row.kind = kind

/-- `applyAuthorityChange`. -/
def applyAuthorityChange (event : DecodedEscrowEvent) (kind : ChainAuthorityKind)
    (address : Address) (enabled : Bool) (rows : List ChainAuthority) : List ChainAuthority :=
  let rows :=
    if kind = .owner then rows.filter fun row =>
      ¬(row.chainId = config.chainId ∧ row.contractAddress = config.escrowAddress ∧
        row.kind = .owner)
    else rows
  if ¬enabled ∨ address = zeroAddress then
    if kind ≠ .owner then rows.filter fun row => ¬ChainAuthority.is config address kind row
    else rows
  else if rows.any (ChainAuthority.is config address kind) then
    updateWhere (ChainAuthority.is config address kind) (fun row =>
      { row with
        blockNumber := event.blockNumber
        txHash := event.txHash
        logIndex := event.logIndex }) rows
  else
    rows ++ [⟨config.chainId, config.escrowAddress, address, kind, event.blockNumber, event.txHash,
      event.logIndex⟩]

/-! ### Profiles -/

/-- `isIndexerSafeText`: no character that the database or the decoder cannot hold. -/
def isIndexerSafeText (text : Text) : Bool := ¬('\x00' ∈ text) ∧ ¬('\uFFFD' ∈ text)

/-- The length of a text in UTF-8. -/
def byteLength (text : Text) : ℕ := (text.map Char.utf8Size).sum

/-- `isIndexableProfileEventArgs`, of arguments that have the types of the contract. -/
def isIndexableProfileEventArgs (displayName websiteUrl bio avatarURI : Text) : Bool :=
  [displayName, websiteUrl, bio, avatarURI].all isIndexerSafeText ∧
    0 < byteLength displayName ∧ byteLength displayName ≤ 80 ∧ byteLength websiteUrl ≤ 200 ∧
      byteLength bio ≤ 500 ∧ byteLength avatarURI ≤ 200

/-- Create or overwrite the profile of an address. -/
def upsertProfile (db : Database) (account : Address) (facts : ProfileFacts) : Database :=
  let (db, userId) := db.upsertUser account
  let row : SponsorProfile :=
    { toProfileFacts := facts, userId := userId, chainId := some config.chainId }
  if db.profiles.any fun row => row.userId = userId then
    { db with profiles := updateWhere (fun row => row.userId = userId) (fun _ => row) db.profiles }
  else { db with profiles := db.profiles ++ [row] }

/-- The profile after `ProfileUpdated`. -/
def ProfileFacts.updated (event : DecodedEscrowEvent) (revision : ℕ)
    (displayName websiteUrl bio avatarURI : Text) (defaultPublic : Bool) : ProfileFacts where
  active := true
  revision := revision
  displayName := some displayName
  websiteUrl := nonempty websiteUrl
  bio := nonempty bio
  avatarUri := nonempty avatarURI
  avatarStatus :=
    if avatarURI = [] then .notSet
    else if ext.isValidIpfsUri avatarURI then .unavailable
    else .invalid
  defaultPublic := defaultPublic
  blockNumber := some event.blockNumber
  blockHash := some event.blockHash
  txHash := some event.txHash
  logIndex := some event.logIndex

/-- The profile after `ProfileCleared`. -/
def ProfileFacts.cleared (event : DecodedEscrowEvent) (revision : ℕ) : ProfileFacts where
  active := false
  revision := revision
  displayName := none
  websiteUrl := none
  bio := none
  avatarUri := none
  avatarStatus := .notSet
  defaultPublic := false
  blockNumber := some event.blockNumber
  blockHash := some event.blockHash
  txHash := some event.txHash
  logIndex := some event.logIndex

/-! ### Helpers -/

/-- `assetFor`. -/
def assetFor (token : Address) : Except Failure FundingAsset :=
  if token = config.preAddress then .ok .pre
  else if token = config.usdcAddress then .ok .usdc
  else .error (.unsupportedToken token)

/-- `monthlyPolicyFor`. -/
def monthlyPolicyFor (value : ℕ) : Except Failure MonthlySurplusPolicy :=
  if value = 0 then .ok .payoutAll
  else if value = 1 then .ok .rollOver
  else .error (.unsupportedSurplusPolicy value)

/-- `addRaw` on the amount of one token. -/
def Amounts.addRaw (a : Amounts) (asset : FundingAsset) (n : ℕ) : Amounts :=
  a.set asset (a.get asset + n)

/-- The proposal is eligible for the confirmation of a lifecycle action. -/
def SafeGoalActionProposal.eligible (db : Database) (goalId : Id) (kind : SafeGoalActionKind)
    (targetPolicy : Option MonthlySurplusPolicy) (row : SafeGoalActionProposal) : Bool :=
  row.status.pending ∧ (db.goalActionIntent? row.intentId).any fun intent =>
    intent.goalId = goalId ∧ intent.kind = kind ∧
      (targetPolicy = none ∨ intent.targetPolicy = targetPolicy)

/-- `confirmSafeGoalAction`: the proposal whose execution is the event, or the only one that can
be, is executed. -/
def confirmSafeGoalAction (db : Database) (goalId : Id) (kind : SafeGoalActionKind)
    (event : DecodedEscrowEvent) (targetPolicy : Option MonthlySurplusPolicy) :
    Except Failure Database :=
  let eligible := db.goalActionProposals.filter
    (SafeGoalActionProposal.eligible db goalId kind targetPolicy)
  let exact := eligible.find? fun row => row.executionTxHash = some event.txHash
  match exact <|> (if eligible.length = 1 then eligible.head? else none) with
  | none => .ok db
  | some proposal => do
    let occurredAt ← date event.blockTimestamp
    return { db with
      goalActionProposals := updateWhere (fun row => row.id = proposal.id) (fun row =>
        { row with
          status := .executed
          confirmations := proposal.threshold
          executionTxHash := some event.txHash
          failureReason := none
          lastCheckedAt := some occurredAt
          executedAt := some occurredAt }) db.goalActionProposals }

/-- `visibilityForContribution`. -/
def visibilityForContribution (profileVisible : Bool) : SponsorVisibility :=
  if profileVisible then .pub else .anonymous

/-! ### Goals -/

/-- The goal after `GoalCreated`. -/
def GoalFacts.created (event : DecodedEscrowEvent) (creator recipient : Address)
    (preTarget usdcTarget : ℕ) (deadline occurredAt : Time) (title description metadataURI : Text) :
    GoalFacts where
  creatorAddress := creator
  goalType := .oneTime
  monthlySurplusPolicy := none
  monthlyFirstSettlementAt := none
  monthlySettlementDay := none
  monthlyStopRequestedAt := none
  monthlyPeriodsSettled := 0
  monthStart := utcMonthStart deadline
  title := title
  description := description
  recipientAddress := recipient
  deadline := deadline
  metadataUri := nonempty metadataURI
  targetRaw := ⟨preTarget, usdcTarget⟩
  recipientEntitlementRaw := .zero
  carryRaw := .zero
  treasuryEntitlementRaw := .zero
  status := .opened
  creationTxHash := some event.txHash
  creationBlock := some event.blockNumber
  creationBlockHash := some event.blockHash
  publishedAt := some occurredAt
  closedAt := none

/-- The slug of a new goal: the draft's or a generated one, and the generated one on a
collision. -/
def goalSlug (chainId : ℕ) (draft : Option Expense) (goalId : Hash) (generated : Text)
    (goals : List FundingGoal) : Text :=
  let wanted := (draft.map (·.slug)).getD generated
  let collision := goals.find? fun row => row.chainId = chainId ∧ row.slug = wanted
  if collision.any fun row => row.chainGoalId ≠ goalId then generated else wanted

/-- The row of a goal that is created: the new facts, and a link to the draft if there is one. -/
def FundingGoal.recreate (draft : Option Expense) (slug : Text) (facts : GoalFacts)
    (row : FundingGoal) : FundingGoal :=
  { row with
    toGoalFacts := facts
    expenseId := (draft.map (·.id)) <|> row.expenseId
    slug := slug
    metadataStatus := if facts.metadataUri.isSome then .unavailable else .notSet
    metadata := none }

/-- The row of a new goal. -/
def FundingGoal.fresh (chainId : ℕ) (id : Id) (goalId : Hash) (draft : Option Expense)
    (slug : Text) (facts : GoalFacts) : FundingGoal where
  toGoalFacts := facts
  id := id
  expenseId := draft.map (·.id)
  chainId := chainId
  chainGoalId := goalId
  slug := slug
  metadataStatus := if facts.metadataUri.isSome then .unavailable else .notSet
  metadata := none

/-- Create or overwrite a goal: the table, its next id, and the id of the goal.  Another goal must
not have its slug. -/
def putGoal (chainId : ℕ) (goalId : Hash) (draft : Option Expense) (slug : Text)
    (facts : GoalFacts) (goals : List FundingGoal) (nextId : Id) :
    Option (List FundingGoal × Id × Id) :=
  let slugTaken := goals.any fun row =>
    row.chainId = chainId ∧ row.slug = slug ∧ row.chainGoalId ≠ goalId
  if slugTaken then none
  else match goals.find? fun row => row.chainId = chainId ∧ row.chainGoalId = goalId with
    | some goal =>
      some (updateWhere (fun row => row.id = goal.id) (·.recreate draft slug facts) goals, nextId,
        goal.id)
    | none =>
      some (goals ++ [.fresh chainId nextId goalId draft slug facts], nextId + 1, nextId)

/-- The goal is overwritten, or it is the last row of the table. -/
theorem putGoal_some {chainId : ℕ} {goalId : Hash} {draft : Option Expense} {slug : Text}
    {facts : GoalFacts} {goals goals' : List FundingGoal} {nextId nextId' id : Id} :
    putGoal chainId goalId draft slug facts goals nextId = some (goals', nextId', id) ↔
      (goals.any fun row => row.chainId = chainId ∧ row.slug = slug ∧ row.chainGoalId ≠ goalId) =
        false ∧
      ((∃ goal, goals.find? (fun row => row.chainId = chainId ∧ row.chainGoalId = goalId) =
            some goal ∧
          goals' = updateWhere (fun row => row.id = goal.id) (·.recreate draft slug facts) goals ∧
          nextId' = nextId ∧ id = goal.id) ∨
        goals.find? (fun row => row.chainId = chainId ∧ row.chainGoalId = goalId) = none ∧
          goals' = goals ++ [.fresh chainId nextId goalId draft slug facts] ∧
          nextId' = nextId + 1 ∧ id = nextId) := by
  unfold putGoal
  by_cases hslug : (goals.any fun row =>
      decide (row.chainId = chainId ∧ row.slug = slug ∧ row.chainGoalId ≠ goalId)) = true
  · rw [if_pos hslug]
    simp only [hslug, Bool.true_eq_false, reduceCtorEq, false_and]
  · rw [if_neg hslug]
    simp only [hslug, true_and]
    cases goals.find? fun row => decide (row.chainId = chainId ∧ row.chainGoalId = goalId) with
    | none =>
      simp only [Option.some.injEq, Prod.mk.injEq, reduceCtorEq, false_and, exists_false, true_and,
        false_or]
      exact ⟨fun h => ⟨h.1.symm, h.2.1.symm, h.2.2.symm⟩,
        fun h => ⟨h.1.symm, h.2.1.symm, h.2.2.symm⟩⟩
    | some goal =>
      simp only [Option.some.injEq, Prod.mk.injEq, reduceCtorEq, false_and, or_false]
      exact ⟨fun h => ⟨goal, rfl, h.1.symm, h.2.1.symm, h.2.2.symm⟩, by
        rintro ⟨_, rfl, h, h', h''⟩
        exact ⟨h.symm, h'.symm, h''.symm⟩⟩

/-- The upsert of a goal in the database. -/
def upsertGoal (db : Database) (goalId : Hash) (draft : Option Expense) (slug : Text)
    (facts : GoalFacts) : Except Failure (Database × Id) :=
  match putGoal config.chainId goalId draft slug facts db.goals db.nextId with
  | none => .error .uniqueConstraint
  | some (goals, nextId, id) => .ok ({ db with goals := goals, nextId := nextId }, id)

/-- The draft of a goal is published. -/
def publishDraft (db : Database) : Option Expense → Database
  | none => db
  | some draft =>
    { db with
      expenses := updateWhere (fun row => row.id = draft.id)
        (fun row => { row with status := .published }) db.expenses }

/-- `GoalCreated`. -/
def handleGoalCreated (event : DecodedEscrowEvent) (goalId : Hash) (creator recipient : Address)
    (preTarget usdcTarget deadline : ℕ) (title description metadataURI : Text) (db : Database) :
    Except Failure (Database × Option MetadataRefresh) := do
  let deadline ← date deadline
  let occurredAt ← date event.blockTimestamp
  let draft := db.expenses.find? fun row => row.pendingChainGoalId = some goalId
  let slug := goalSlug config.chainId draft goalId (ext.slugFor title goalId) db.goals
  let (db, createdId) ← upsertGoal config db goalId draft slug
    (.created event creator recipient preTarget usdcTarget deadline occurredAt title description
      metadataURI)
  return (publishDraft db draft, some ⟨createdId, metadataURI⟩)

/-! ### Periods -/

/-- A period that is not settled. -/
def FundingGoalPeriod.new (goalId : Id) (periodIndex : ℕ) (startsAt endsAt : Time)
    (surplusPolicy : MonthlySurplusPolicy) : FundingGoalPeriod where
  goalId := goalId
  periodIndex := periodIndex
  startsAt := startsAt
  endsAt := endsAt
  surplusPolicy := surplusPolicy
  finalPeriod := false
  contributedRaw := .zero
  carryInRaw := .zero
  recipientEntitlementAddedRaw := .zero
  carryOutRaw := .zero
  settlementTxHash := none
  settlementBlock := none
  settlementBlockHash := none
  settlementLogIndex := none
  settledAt := none

/-- `MonthlyGoalCreated`. -/
def handleMonthlyGoalCreated (goal : FundingGoal)
    (periodStart periodEnd settlementDay surplusPolicy : ℕ) (db : Database) :
    Except Failure Database := do
  if settlementDay < 1 ∨ settlementDay > 31 then
    throw (.unsupportedSettlementDay settlementDay)
  let surplusPolicy ← monthlyPolicyFor surplusPolicy
  let startsAt ← date periodStart
  let endsAt ← date periodEnd
  let db := db.mapGoal goal.id fun row =>
    { row with
      goalType := .monthly
      monthlySurplusPolicy := some surplusPolicy
      monthlyFirstSettlementAt := some endsAt
      monthlySettlementDay := some settlementDay
      monthStart := startsAt
      deadline := endsAt }
  return db.upsertPeriod (.new goal.id 1 startsAt endsAt surplusPolicy) fun row =>
    { row with startsAt := startsAt, endsAt := endsAt, surplusPolicy := surplusPolicy }

/-- `ContributionReceived`. -/
def handleContributionReceived (event : DecodedEscrowEvent) (goal : FundingGoal)
    (contributor token : Address) (amount : ℕ) (profileVisible : Bool) (db : Database) :
    Except Failure Database := do
  let (db, userId) := db.upsertUser contributor
  let asset ← assetFor config token
  let confirmedAt ← date event.blockTimestamp
  if db.contributions.any fun row =>
      row.chainId = config.chainId ∧ row.txHash = event.txHash ∧ row.logIndex = event.logIndex then
    throw .uniqueConstraint
  let db := { db with
    contributions := db.contributions ++ [{
      goalId := goal.id
      userId := userId
      chainId := config.chainId
      txHash := event.txHash
      logIndex := event.logIndex
      blockNumber := event.blockNumber
      blockHash := event.blockHash
      contributor := contributor
      asset := asset
      amountRaw := amount
      visibility := visibilityForContribution profileVisible
      confirmedAt := confirmedAt }] }
  if goal.goalType = .monthly then
    let periodIndex := goal.monthlyPeriodsSettled + 1
    match db.period? goal.id periodIndex with
    | none => throw (.noOpenPeriod periodIndex)
    | some period => return db.mapPeriod goal.id periodIndex fun row =>
        { row with contributedRaw := period.contributedRaw.addRaw asset amount }
  else return db

/-- `MonthlySurplusPolicyUpdated`. -/
def handleMonthlySurplusPolicyUpdated (event : DecodedEscrowEvent) (goal : FundingGoal)
    (newPolicy : ℕ) (db : Database) : Except Failure Database := do
  let surplusPolicy ← monthlyPolicyFor newPolicy
  let db := db.mapGoal goal.id fun row => { row with monthlySurplusPolicy := some surplusPolicy }
  let db := { db with
    periods := updateWhere (fun row => row.goalId = goal.id ∧
        row.periodIndex = goal.monthlyPeriodsSettled + 1 ∧ row.settledAt = none)
      (fun row => { row with surplusPolicy := surplusPolicy }) db.periods }
  confirmSafeGoalAction db goal.id .setMonthlySurplusPolicy event (some surplusPolicy)

/-- `MonthlyGoalStopRequested`. -/
def handleMonthlyGoalStopRequested (event : DecodedEscrowEvent) (goal : FundingGoal)
    (db : Database) : Except Failure Database := do
  let occurredAt ← date event.blockTimestamp
  let db := db.mapGoal goal.id fun row => { row with monthlyStopRequestedAt := some occurredAt }
  confirmSafeGoalAction db goal.id .requestMonthlyStop event none

/-- A period after its settlement. -/
def FundingGoalPeriod.settle (event : DecodedEscrowEvent) (startsAt endsAt : Time)
    (surplusPolicy : MonthlySurplusPolicy) (finalPeriod : Bool) (occurredAt : Time)
    (row : FundingGoalPeriod) : FundingGoalPeriod :=
  { row with
    startsAt := startsAt
    endsAt := endsAt
    surplusPolicy := surplusPolicy
    finalPeriod := finalPeriod
    settlementTxHash := some event.txHash
    settlementBlock := some event.blockNumber
    settlementBlockHash := some event.blockHash
    settlementLogIndex := some event.logIndex
    settledAt := some occurredAt }

/-- The next boundary as it is stored.  An invalid date cannot be stored; after the final period no
boundary is. -/
def nextEnd (finalPeriod : Bool) (endsAt settlementDay : ℕ) : Except Failure Time := do
  let next ← (nextMonthlySettlementUtc endsAt settlementDay).mapError .schedule
  match next, finalPeriod with
  | some next, _ => return next
  | none, true => return endsAt
  | none, false => throw .invalidDate

/-- `MonthlyPeriodSettled`. -/
def handleMonthlyPeriodSettled (event : DecodedEscrowEvent) (goal : FundingGoal)
    (periodIndex periodStart periodEnd surplusPolicy : ℕ) (finalPeriod : Bool) (db : Database) :
    Except Failure Database := do
  match goal.monthlySettlementDay with
  | none => throw (.noSettlementDay goal.chainGoalId)
  | some settlementDay =>
    if settlementDay < 1 ∨ settlementDay > 31 then throw (.noSettlementDay goal.chainGoalId)
    let surplusPolicy ← monthlyPolicyFor surplusPolicy
    let startsAt ← date periodStart
    let endsAt ← date periodEnd
    let occurredAt ← date event.blockTimestamp
    let settle :=
      FundingGoalPeriod.settle event startsAt endsAt surplusPolicy finalPeriod occurredAt
    let db := db.upsertPeriod (settle (.new goal.id periodIndex startsAt endsAt surplusPolicy))
      settle
    let nextEnd ← nextEnd finalPeriod endsAt settlementDay
    let db := db.mapGoal goal.id fun row =>
      { row with
        monthlyPeriodsSettled := periodIndex
        deadline := if finalPeriod then row.deadline else nextEnd }
    if finalPeriod then return db
    else
      return db.upsertPeriod (.new goal.id (periodIndex + 1) endsAt nextEnd surplusPolicy) id

/-- `MonthlyTokenSettled`. -/
def handleMonthlyTokenSettled (goal : FundingGoal) (periodIndex : ℕ) (token : Address)
    (periodContributed carryIn recipientEntitlementAdded carryOut : ℕ) (db : Database) :
    Except Failure Database := do
  let asset ← assetFor config token
  if (db.period? goal.id periodIndex).isNone then throw .recordNotFound
  let db := db.mapPeriod goal.id periodIndex fun row =>
    { row with
      contributedRaw := row.contributedRaw.set asset periodContributed
      carryInRaw := row.carryInRaw.set asset carryIn
      recipientEntitlementAddedRaw :=
        row.recipientEntitlementAddedRaw.set asset recipientEntitlementAdded
      carryOutRaw := row.carryOutRaw.set asset carryOut }
  let db := { db with
    periods := updateWhere (fun row => row.goalId = goal.id ∧
        row.periodIndex = periodIndex + 1 ∧ row.settledAt = none)
      (fun row => { row with carryInRaw := row.carryInRaw.set asset carryOut }) db.periods }
  return db.mapGoal goal.id fun row =>
    { row with
      carryRaw := row.carryRaw.set asset carryOut
      recipientEntitlementRaw := row.recipientEntitlementRaw.set asset
        (goal.recipientEntitlementRaw.get asset + recipientEntitlementAdded) }

/-! ### The end of a goal -/

/-- `GoalClosed`. -/
def handleGoalClosed (event : DecodedEscrowEvent) (goal : FundingGoal)
    (preRecipientEntitlement usdcRecipientEntitlement : ℕ) (db : Database) :
    Except Failure Database := do
  let occurredAt ← date event.blockTimestamp
  return db.mapGoal goal.id fun row =>
    { row with
      status := .closed
      closedAt := some occurredAt
      recipientEntitlementRaw := ⟨preRecipientEntitlement, usdcRecipientEntitlement⟩ }

/-- The sum of the contributions of a goal in one token. -/
def Database.contributed (db : Database) (goalId : Id) (asset : FundingAsset) : ℕ :=
  total (fun row => row.goalId = goalId ∧ row.asset = asset) (·.amountRaw) db.contributions

/-- `GoalCancelled`. -/
def handleGoalCancelled (event : DecodedEscrowEvent) (goal : FundingGoal) (db : Database) :
    Except Failure Database := do
  let occurredAt ← date event.blockTimestamp
  return db.mapGoal goal.id fun row =>
    { row with
      status := .cancelled
      closedAt := some occurredAt
      treasuryEntitlementRaw :=
        if goal.goalType = .oneTime then
          ⟨db.contributed goal.id .pre, db.contributed goal.id .usdc⟩
        else row.treasuryEntitlementRaw }

/-- `MonthlyGoalCancelled`. -/
def handleMonthlyGoalCancelled (event : DecodedEscrowEvent) (goal : FundingGoal)
    (preTreasuryEntitlementAdded usdcTreasuryEntitlementAdded : ℕ) (db : Database) :
    Except Failure Database :=
  let db := db.mapGoal goal.id fun row =>
    { row with
      treasuryEntitlementRaw :=
        ⟨goal.treasuryEntitlementRaw.pre + preTreasuryEntitlementAdded,
          goal.treasuryEntitlementRaw.usdc + usdcTreasuryEntitlementAdded⟩
      carryRaw := .zero }
  confirmSafeGoalAction db goal.id .cancelMonthly event none

/-! ### Releases -/

/-- The hash under which the Safe executed the proposal of a payout. -/
def Database.executionTxHash? (db : Database) (payout : Payout) : Option Hash :=
  (db.safeIntent? payout.id).bind fun intent =>
    (db.proposal? intent.id).bind (·.executionTxHash)

/-- The reservations that a release may be the execution of. -/
def releaseCandidates (db : Database) (goalId : Id) (kind : PayoutKind) (asset : FundingAsset)
    (amount : ℕ) : List Payout :=
  db.payouts.filter fun row => row.goalId = goalId ∧ row.kind = kind ∧ row.asset = asset ∧
    row.amountRaw = amount ∧ row.status = .proposed

/-- The reservation that a release is taken to be the execution of: the one the Safe executed in
this transaction, or the only one, unless the Safe executed it in another. -/
def matchedReservation (db : Database) (candidates : List Payout) (txHash : Hash) :
    Option Payout :=
  let exact := candidates.find? fun row => db.executionTxHash? row = some txHash
  let soleCandidate := if candidates.length = 1 then candidates.head? else none
  exact <|> soleCandidate.filter fun row => (db.executionTxHash? row).isNone

/-- The reservation of an executed payout: a proposal of the service is executed, and a manual
reservation is used up. -/
def executeReservation (db : Database) (payoutId : Id) (txHash : Hash) (occurredAt : Time) :
    Database :=
  match db.safeIntent? payoutId with
  | none => db
  | some intent => match intent.delivery with
    | .manual => db.mapIntent intent.id fun row => { row with consumedAt := some occurredAt }
    | .service => match db.proposal? intent.id with
      | none => db
      | some proposal => db.mapProposal proposal.id fun row =>
          { row with
            status := .executed
            confirmations := proposal.threshold
            executionTxHash := some txHash
            failureReason := none
            lastCheckedAt := some occurredAt
            executedAt := some occurredAt }

/-- `ExpenseReleased` and `CancelledFundsReleased`. -/
def handleReleased (event : DecodedEscrowEvent) (goal : FundingGoal) (kind : PayoutKind)
    (token payoutRecipient : Address) (amount : ℕ) (db : Database) : Except Failure Database := do
  let asset ← assetFor config token
  let occurredAt ← date event.blockTimestamp
  let candidates := releaseCandidates db goal.id kind asset amount
  match matchedReservation db candidates event.txHash with
  | some proposed =>
    let db := db.mapPayout proposed.id fun row =>
      { row with
        status := .executed
        chainTxHash := some event.txHash
        recipientAddress := payoutRecipient
        executedAt := some occurredAt }
    return executeReservation db proposed.id event.txHash occurredAt
  | none => return { db with
      payouts := db.payouts ++ [{
          id := db.nextId
          goalId := goal.id
          asset := asset
          kind := kind
          amountRaw := amount
          recipientAddress := payoutRecipient
          chainTxHash := some event.txHash
          status := .executed
          executedAt := some occurredAt }]
      nextId := db.nextId + 1 }

/-! ### The handler -/

/-- The goal an event is about. -/
def EscrowEvent.goalId? : EscrowEvent → Option Hash
  | goalCreated goalId .. | monthlyGoalCreated goalId .. | contributionReceived goalId ..
  | monthlySurplusPolicyUpdated goalId .. | monthlyGoalStopRequested goalId ..
  | monthlyPeriodSettled goalId .. | monthlyTokenSettled goalId .. | goalClosed goalId ..
  | goalCancelled goalId | monthlyGoalCancelled goalId .. | expenseReleased goalId ..
  | cancelledFundsReleased goalId .. | goalPayoutUpdated goalId .. => some goalId
  | treasuryPayoutUpdated .. | excessTokenRecovered .. | goalManagerUpdated ..
  | maxOpenGoalsPerManagerUpdated .. | ownershipTransferStarted .. | ownershipTransferred ..
  | paused .. | unpaused .. | profileUpdated .. | profileCleared .. => none

/-- The events of a goal that exists. -/
def handleGoalEvent (event : DecodedEscrowEvent) (goal : FundingGoal) (db : Database) :
    Except Failure Database :=
  match event.event with
  | .monthlyGoalCreated _ periodStart periodEnd settlementDay surplusPolicy =>
    handleMonthlyGoalCreated goal periodStart periodEnd settlementDay surplusPolicy db
  | .contributionReceived _ contributor token amount profileVisible =>
    handleContributionReceived config event goal contributor token amount profileVisible db
  | .monthlySurplusPolicyUpdated _ _ newPolicy =>
    handleMonthlySurplusPolicyUpdated event goal newPolicy db
  | .monthlyGoalStopRequested _ _ => handleMonthlyGoalStopRequested event goal db
  | .monthlyPeriodSettled _ periodIndex periodStart periodEnd surplusPolicy finalPeriod =>
    handleMonthlyPeriodSettled event goal periodIndex periodStart periodEnd surplusPolicy
      finalPeriod db
  | .monthlyTokenSettled _ periodIndex token periodContributed carryIn recipientEntitlementAdded
      carryOut =>
    handleMonthlyTokenSettled config goal periodIndex token periodContributed carryIn
      recipientEntitlementAdded carryOut db
  | .goalClosed _ preRecipientEntitlement usdcRecipientEntitlement =>
    handleGoalClosed event goal preRecipientEntitlement usdcRecipientEntitlement db
  | .goalCancelled _ => handleGoalCancelled event goal db
  | .monthlyGoalCancelled _ preTreasuryEntitlementAdded usdcTreasuryEntitlementAdded =>
    handleMonthlyGoalCancelled event goal preTreasuryEntitlementAdded usdcTreasuryEntitlementAdded
      db
  | .expenseReleased _ token _ payoutRecipient amount =>
    handleReleased config event goal .expense token payoutRecipient amount db
  | .cancelledFundsReleased _ token _ payoutRecipient amount =>
    handleReleased config event goal .cancelledFunds token payoutRecipient amount db
  | _ => .ok db

/-- `handleDecodedEscrowEvent`. -/
def handleDecodedEscrowEvent (event : DecodedEscrowEvent) (db : Database) :
    Except Failure (Database × Option MetadataRefresh) :=
  match event.event with
  | .ownershipTransferred _ newOwner =>
    .ok ({ db with authorities :=
      applyAuthorityChange config event .owner newOwner true db.authorities }, none)
  -- The nominated owner has no authority before it accepts.
  | .ownershipTransferStarted _ _ => .ok (db, none)
  | .goalManagerUpdated account enabled =>
    .ok ({ db with authorities :=
      applyAuthorityChange config event .goalManager account enabled db.authorities }, none)
  | .profileUpdated account revision displayName websiteUrl bio avatarURI defaultPublic =>
    if isIndexableProfileEventArgs displayName websiteUrl bio avatarURI then
      .ok (upsertProfile config db account
        (.updated ext event revision displayName websiteUrl bio avatarURI defaultPublic), none)
    else .ok (db, none)
  | .profileCleared account revision =>
    .ok (upsertProfile config db account (.cleared event revision), none)
  | .goalCreated goalId creator recipient _ preTarget usdcTarget deadline title description
      metadataURI =>
    handleGoalCreated config ext event goalId creator recipient preTarget usdcTarget deadline
      title description metadataURI db
  | other =>
    match other.goalId?.bind (db.goal? config.chainId) with
    | none => .error (.unknownGoal other)
    | some goal => (handleGoalEvent config event goal db).map fun db => (db, none)

end

end Escrow

end PreCommunity
