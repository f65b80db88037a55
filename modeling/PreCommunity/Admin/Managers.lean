import PreCommunity.Admin.Lifecycle

/-!
# Changes of the goal managers

The goal managers that the administration wants are the owners of the Safe and the addresses that
were assigned by hand.  The difference to the managers of the contract is signed as one transaction
of the Safe, and at most one such proposal of a Safe may be pending: it holds the active key.

* `desiredGoalManagerSet`, `goalManagerChanges` : what has to change.
* `prepareGoalManagerChanges` : a new intent of the service, or a manual export.
* `prepareSafeGoalManagerSync`, `updateGoalManager` : the two requests that prepare.
* `submitSafeGoalManagerIntent` : submit the signed transaction of an intent.
* `syncSafeGoalManagerProposals` : follow the proposals.
-/

namespace PreCommunity

namespace Admin

open Store Concurrent Escrow
open Routine (attempt)

/-! ### What is wanted -/

/-- `normalizedAddresses`. -/
def normalizedAddresses (addresses : List Address) : List Address :=
  addresses.dedup.insertionSort (· ≤ ·)

/-- `desiredGoalManagerSet`. -/
def desiredGoalManagerSet (safeOwners actualManagers : List Address)
    (assignments : List GoalManagerAssignment) : List Address :=
  normalizedAddresses (safeOwners ++
    (assignments.filter (·.desiredEnabled)).map (·.address) ++
    actualManagers.filter fun address => !(assignments.any fun row => row.address = address))

/-- `normalizedGoalManagerChanges`. -/
def normalizedGoalManagerChanges (changes : List GoalManagerChange) : List GoalManagerChange :=
  changes.insertionSort fun a b => a.address ≤ b.address

/-- The changes that lead from the managers of the contract to those that are wanted. -/
def goalManagerChanges (desiredManagers actualManagers : List Address) : List GoalManagerChange :=
  ((desiredManagers.filter fun address => address ∉ actualManagers).map (⟨·, true⟩)) ++
    (actualManagers.filter fun address => address ∉ desiredManagers).map (⟨·, false⟩)

/-- `reconcileSafeOwnerGoalManagerAssignments`: the owners of the Safe are assigned, and managers
that nobody assigned are kept. -/
def reconcileAssignments (safeOwners : List Address) (db : Database) : Database :=
  let safeOwners := normalizedAddresses safeOwners
  let disabled := updateWhere (fun row : GoalManagerAssignment =>
    row.source = .safeOwner ∧ row.desiredEnabled ∧ row.address ∉ safeOwners)
    (fun row => { row with desiredEnabled := false }) db.assignments
  let owned := safeOwners.foldl (fun rows address =>
    upsert (fun row => row.address = address ∧ row.source = .safeOwner)
      (fun row => { row with desiredEnabled := true }) ⟨address, .safeOwner, true⟩ rows) disabled
  let legacy := db.chainManagers.filter fun address =>
    address ∉ safeOwners ∧ !(db.assignments.any fun row => row.address = address)
  { db with
    assignments := legacy.foldl (fun rows address =>
      upsert (fun row => row.address = address ∧ row.source = .manual) (fun row => row)
        ⟨address, .manual, true⟩ rows) owned }

namespace Database

variable (db : Database)

/-- The intent with an id. -/
def managerIntent? (id : Id) : Option SafeGoalManagerIntent :=
  db.managerIntents.find? fun row => row.id = id

/-- The proposal of an intent. -/
def managerProposal? (intentId : Id) : Option SafeGoalManagerProposal :=
  db.managerProposals.find? fun row => row.intentId = intentId

/-- The proposal belongs to an intent of the Safe. -/
def isManagerOf (chainId : ℕ) (safeAddress : Address) (row : SafeGoalManagerProposal) : Bool :=
  (db.managerIntent? row.intentId).any fun intent =>
    intent.chainId = chainId ∧ intent.safeAddress = safeAddress

/-- Update the proposals that meet `p`. -/
def updateManagerProposals (p : SafeGoalManagerProposal → Bool)
    (f : SafeGoalManagerProposal → SafeGoalManagerProposal) : Database :=
  { db with managerProposals := updateWhere p f db.managerProposals }

/-- The last pending proposal of the Safe. -/
def pendingManagerProposal? (chainId : ℕ) (safeAddress : Address) :
    Option SafeGoalManagerProposal :=
  (db.managerProposals.filter fun row =>
    row.status.pending ∧ db.isManagerOf chainId safeAddress row).getLast?

end Database

section

variable (config : Deployment) (goalManagerStateHash : List Address → Hash)

/-- `assertCurrentGoalManagerActor`. -/
def assertCurrentGoalManagerActor (info : SafeRuntimeInfo) (actor : Address) :
    Except Failure Unit :=
  if info.isEscrowOwner then
    if actor ∈ info.owners then .ok ()
    else .error (.forbidden "Only a current Safe owner can synchronize goal managers")
  else if info.escrowOwner = actor then .ok ()
  else .error (.forbidden
    "Only the current direct escrow owner can synchronize goal managers before Safe takes control")

/-! ### Preparing -/

/-- `PrepareSafeDeliveryDto`. -/
structure PrepareSafeDelivery where
  delivery : SafePayoutDelivery
  confirmedAbsentFromSafe : Bool
deriving DecidableEq, Repr

/-- The answer to a request for changes of the goal managers. -/
inductive GoalManagerResponse where
  | nothing
  | direct (changes : List GoalManagerChange)
  | waiting (changes : List GoalManagerChange) (proposal : SafeGoalManagerProposal)
  | manual (changes : List GoalManagerChange)
  | service (intentId : Id) (changes : List GoalManagerChange) (safeAddress : Address)
      (safeNonce threshold : ℕ)
deriving DecidableEq, Repr

/-- The transaction that replaces an uncertain proposal by a manual export. -/
def supersedeManagerTx (proposalId : Id) (now : Time) (db : Database) : Except Failure Database :=
  if db.managerProposals.any fun row => row.id = proposalId ∧ row.status = .submitting then
    .ok (db.updateManagerProposals (fun row => row.id = proposalId ∧ row.status = .submitting)
      fun row => { supersedeRow now row.toSafePayoutProposal with activeKey := none })
  else .error (.badRequest "The Safe proposal changed. Refresh and try again.")

/-- Insert an intent of the service. -/
def insertManagerIntentTx (info : SafeRuntimeInfo) (safeNonce : ℕ)
    (changes : List GoalManagerChange) (desiredStateHash : Hash) (actor : Address)
    (expiresAt : Time) (db : Database) : Except Failure (Database × SafeGoalManagerIntent) :=
  let intent : SafeGoalManagerIntent :=
    { id := db.nextId
      chainId := config.chainId
      safeAddress := info.address
      safeNonce := safeNonce
      changes := changes
      desiredStateHash := desiredStateHash
      createdByAddress := actor
      expiresAt := expiresAt
      consumedAt := none }
  .ok ({ db with
    managerIntents := db.managerIntents ++ [intent]
    nextId := db.nextId + 1 }, intent)

/-- Prepare an intent of the service. -/
def prepareManagerIntent (info : SafeRuntimeInfo) (changes : List GoalManagerChange)
    (desiredManagers : List Address) (actor : Address) : Worker GoalManagerResponse := do
  let ready : Bool ← ask .transactionServiceReady
  if !ready then throw (.service (some 503))
  else
    let safeNonce : ℕ ← ask .nextNonce
    let now : Time ← ask .now
    let intent ← transactionOf (insertManagerIntentTx config info safeNonce changes
      (goalManagerStateHash desiredManagers) actor (now + 10 * 60000))
    return .service intent.id changes info.address safeNonce info.threshold

/-- `prepareGoalManagerChanges`. -/
def prepareGoalManagerChanges (rawChanges : List GoalManagerChange) (actor : Address)
    (desiredManagers : List Address) (dto : PrepareSafeDelivery) (info : SafeRuntimeInfo) :
    Worker GoalManagerResponse := do
  let changes := normalizedGoalManagerChanges rawChanges
  attempt (assertCurrentGoalManagerActor info actor)
  if changes = [] then return .nothing
  else if !info.isEscrowOwner then return .direct changes
  else
    let existing ← select fun db => db.pendingManagerProposal? config.chainId info.address
    match existing, dto.delivery with
    | none, .manual => return .manual changes
    | none, .service =>
      prepareManagerIntent config goalManagerStateHash info changes desiredManagers actor
    | some existing, .manual =>
      attempt (assertManualReplacementAllowed existing.toSafePayoutProposal
        dto.confirmedAbsentFromSafe)
      let now : Time ← ask .now
      transaction (supersedeManagerTx existing.id now)
      return .manual changes
    | some existing, .service => return .waiting changes existing

/-- `AdminService.prepareSafeGoalManagerSync`. -/
def prepareSafeGoalManagerSync (actor : Address) (dto : PrepareSafeDelivery) :
    Worker GoalManagerResponse := do
  let info : SafeRuntimeInfo ← ask .runtimeInfo
  attempt (assertCurrentGoalManagerActor info actor)
  transaction fun db => .ok (reconcileAssignments info.owners db)
  let (actualManagers, assignments) ← select fun db => (db.chainManagers, db.assignments)
  let desiredManagers := desiredGoalManagerSet info.owners actualManagers assignments
  prepareGoalManagerChanges config goalManagerStateHash
    (goalManagerChanges desiredManagers actualManagers) actor desiredManagers dto info

/-- A proposal of the Safe that was prepared for another set of goal managers. -/
def isOutdated (safeAddress : Address) (desiredStateHash : Hash) (db : Database)
    (row : SafeGoalManagerProposal) : Bool :=
  row.status.pending ∧ (db.managerIntent? row.intentId).any fun intent =>
    intent.chainId = config.chainId ∧ intent.safeAddress = safeAddress ∧
      intent.desiredStateHash ≠ desiredStateHash

/-- Note that the settings changed since a proposal was prepared. -/
def SafeGoalManagerProposal.outdated (row : SafeGoalManagerProposal) (now : Time) :
    SafeGoalManagerProposal :=
  { row with
    failureReason := some ("Manual goal manager settings changed. " ++
      "Cancel or replace this proposal at its current nonce in Safe before preparing another sync.")
    lastCheckedAt := some now }

/-- Assign an address by hand, and prepare the change that follows from it. -/
def assignGoalManager (address : Address) (enabled : Bool) (dto : PrepareSafeDelivery)
    (actor : Address) (info : SafeRuntimeInfo) : Worker GoalManagerResponse := do
  transaction fun db => .ok (reconcileAssignments info.owners db)
  transaction fun db => .ok { db with
    assignments := upsert (fun row => row.address = address ∧ row.source = .manual)
      (fun row => { row with desiredEnabled := enabled }) ⟨address, .manual, enabled⟩
      db.assignments }
  let (actualManagers, assignments) ← select fun db => (db.chainManagers, db.assignments)
  let desiredManagers := desiredGoalManagerSet info.owners actualManagers assignments
  let actual := decide (address ∈ actualManagers)
  let desired := decide (address ∈ desiredManagers)
  let now : Time ← ask .now
  transaction fun db => .ok (db.updateManagerProposals
    (isOutdated config info.address (goalManagerStateHash desiredManagers) db)
    (SafeGoalManagerProposal.outdated · now))
  prepareGoalManagerChanges config goalManagerStateHash
    (if actual = desired then [] else [⟨address, desired⟩]) actor desiredManagers dto info

/-- `AdminService.updateGoalManager`. -/
def updateGoalManager (address : Address) (enabled : Bool) (dto : PrepareSafeDelivery)
    (actor : Address) : Worker GoalManagerResponse := do
  let info : SafeRuntimeInfo ← ask .runtimeInfo
  attempt (assertCurrentGoalManagerActor info actor)
  if address = 0 ∨ address = config.escrowAddress ∨ address = info.address then
    throw (.badRequest "The zero, escrow and Safe addresses cannot be manual goal managers")
  else if info.isEscrowOwner ∧ dto.delivery = .manual then
    let existing ← select fun db => db.pendingManagerProposal? config.chainId info.address
    match existing with
    | none => assignGoalManager config goalManagerStateHash address enabled dto actor info
    | some existing =>
      attempt (assertManualReplacementAllowed existing.toSafePayoutProposal
        dto.confirmedAbsentFromSafe)
      assignGoalManager config goalManagerStateHash address enabled dto actor info
  else assignGoalManager config goalManagerStateHash address enabled dto actor info

/-! ### Submitting -/

/-- The key that the pending proposal of a Safe holds. -/
def SafeGoalManagerIntent.key (intent : SafeGoalManagerIntent) : ℕ × Address :=
  (intent.chainId, intent.safeAddress)

/-- The intent can be claimed at `now`. -/
def isClaimable (intentId : Id) (now : Time) (db : Database) (row : SafeGoalManagerIntent) :
    Bool :=
  row.id = intentId ∧ row.consumedAt = none ∧ now < row.expiresAt ∧
    (db.managerProposal? row.id).isNone

/-- A unique key of the new proposal is taken. -/
def keyTaken (intent : SafeGoalManagerIntent) (safeTxHash : Hash) (db : Database) : Bool :=
  db.managerProposals.any fun row =>
    row.activeKey = some intent.key ∨ row.safeTxHash = safeTxHash

/-- The transaction that claims an intent for its proposal. -/
def claimManagerTx (intent : SafeGoalManagerIntent) (safeTxHash : Hash) (actor : Address)
    (threshold : ℕ) (claimedAt : Time) (db : Database) :
    Except Failure (Database × SafeGoalManagerProposal) :=
  let proposal : SafeGoalManagerProposal :=
    { newProposal db.nextId intent.id safeTxHash intent.safeNonce actor threshold claimedAt with
      activeKey := some intent.key }
  if !db.managerIntents.any (isClaimable intent.id claimedAt db) then .error .intentClaim
  else if keyTaken intent safeTxHash db then .error .uniqueConstraint
  else .ok ({ db with
    managerIntents := updateWhere (isClaimable intent.id claimedAt db)
      (fun row => { row with consumedAt := some claimedAt }) db.managerIntents
    managerProposals := db.managerProposals ++ [proposal]
    nextId := db.nextId + 1 }, proposal)

/-- The proposal of another submission of the intent. -/
def concurrentManager (intent : SafeGoalManagerIntent) (safeTxHash : Hash) :
    Worker SafeGoalManagerProposal := do
  let concurrent ← select fun db => db.managerProposal? intent.id
  match concurrent with
  | none => throw (.badRequest
      "Another goal manager proposal is active. Finish or replace it in Safe first.")
  | some concurrent =>
    if concurrent.safeTxHash ≠ safeTxHash then
      throw (.badRequest "This intent already has a different Safe proposal")
    else return concurrent

/-- The proposal of an intent: a new one, or the one of another submission. -/
def claimManagerProposal (intent : SafeGoalManagerIntent) (safeTxHash : Hash) (actor : Address)
    (threshold : ℕ) : Worker SafeGoalManagerProposal := do
  try
    let claimedAt : Time ← ask .now
    transactionOf (claimManagerTx intent safeTxHash actor threshold claimedAt)
  catch error =>
    if error = .intentClaim ∨ error = .uniqueConstraint then concurrentManager intent safeTxHash
    else throw error

/-- Update the proposal with this id, if it is still being submitted. -/
def updateSubmittingManager (proposalId : Id) (f : SafeProposal → SafeProposal) : Worker Unit :=
  transaction fun db => .ok (db.updateManagerProposals
    (fun row => row.id = proposalId ∧ row.status = .submitting)
    fun row => { f row.toSafePayoutProposal with activeKey := row.activeKey })

/-- Send the proposal to the Safe, and note what became of it. -/
def sendManager (proposal : SafeGoalManagerProposal) (dto : SafeSubmission) (safeTxHash : Hash)
    (actor : Address) (threshold : ℕ) : Worker SafeGoalManagerProposal := do
  try ask (.propose dto.transaction safeTxHash actor)
  catch error =>
    let checkedAt : Time ← ask .now
    try updateSubmittingManager proposal.id (noteUnconfirmedRow checkedAt)
    catch _ => pure ()
    throw error
  updateSubmittingManager proposal.id (markSubmittedRow threshold)
  let submitted ← select fun db => db.managerProposals.find? fun row => row.id = proposal.id
  match submitted with
  | none => throw .recordNotFound
  | some submitted => return submitted

/-- The part of a submission in which the intent is checked; it returns the hash of the signed
transaction. -/
def checkManager (intent : SafeGoalManagerIntent) (proposal : Option SafeGoalManagerProposal)
    (safeOwners : List Address) (dto : SafeSubmission) : Worker Hash := do
  checkExpiry proposal.isSome intent.expiresAt
    "The goal manager intent expired. Prepare it again."
  let (actualManagers, assignments) ← select fun db => (db.chainManagers, db.assignments)
  let desiredManagers := desiredGoalManagerSet safeOwners actualManagers assignments
  let changes := normalizedGoalManagerChanges intent.changes
  if goalManagerStateHash desiredManagers ≠ intent.desiredStateHash then throw (.badRequest
    "Safe owners or manual goal manager settings changed. Prepare a new sync.")
  else if changes ≠
      normalizedGoalManagerChanges (goalManagerChanges desiredManagers actualManagers) then
    throw (.badRequest "Confirmed goal manager state changed. Prepare a new synchronization.")
  else
    checkNonce proposal.isSome intent.safeNonce
      "The Safe nonce changed. Prepare a new synchronization."
    ask (.validateGoalManagerCalls dto.transaction changes intent.safeNonce)
    checkHash dto

/-- `AdminService.submitSafeGoalManagerIntent`. -/
def submitSafeGoalManagerIntent (intentId : Id) (dto : SafeSubmission) (actor : Address) :
    Worker SafeGoalManagerProposal := do
  if dto.senderAddress ≠ actor then
    throw (.forbidden "The Safe proposal signer must match the signed-in wallet")
  else
    let info : SafeRuntimeInfo ← ask (.assertPayoutReady actor)
    let found ← select fun db => db.managerIntent? intentId
    match found with
    | none => throw (.notFound "Goal manager intent not found")
    | some intent =>
      let proposal ← select fun db => db.managerProposal? intent.id
      if intent.chainId ≠ config.chainId ∨ intent.safeAddress ≠ info.address then
        throw (.forbidden "The goal manager intent belongs to another deployment")
      else if proposal.any (·.safeTxHash ≠ dto.safeTxHash) then
        throw (.badRequest "This intent already has a different Safe proposal")
      else match proposal.filter (·.status ≠ .submitting) with
        | some proposal => return proposal
        | none =>
          let calculatedHash ← checkManager goalManagerStateHash intent proposal info.owners dto
          match proposal with
          | some proposal => sendManager proposal dto calculatedHash actor info.threshold
          | none =>
            let claimed ← claimManagerProposal intent calculatedHash actor info.threshold
            if claimed.status ≠ .submitting then return claimed
            else sendManager claimed dto calculatedHash actor info.threshold

/-! ### Following -/

/-- Look up the pending proposals, one after another. -/
def syncManagers (currentNonce : ℕ) (now : Time) :
    List (SafeGoalManagerProposal × Bool) → Worker Unit
  | [] => return ()
  | (proposal, policyChanged) :: rest => do
    let answers : SafeAnswers ← ask (.safeAnswers proposal.safeTxHash proposal.safeNonce)
    transaction fun db => .ok (db.updateManagerProposals (fun row => row.id = proposal.id)
      (followGoalManager answers currentNonce now policyChanged proposal.toSafePayoutProposal))
    syncManagers currentNonce now rest

/-- The pending proposals of the Safe, and whether they were prepared for another set of goal
managers. -/
def pendingManagers (updatedAt : Id → Time) (desiredHash : Hash) (db : Database) :
    List (SafeGoalManagerProposal × Bool) :=
  let pending := ((db.managerProposals.filter fun row =>
    row.status.pending ∧ db.isManagerOf config.chainId config.safeAddress row).insertionSort
      fun a b => updatedAt a.id ≤ updatedAt b.id).take 100
  pending.map fun row => (row, (db.managerIntent? row.intentId).any fun intent =>
    intent.desiredStateHash ≠ desiredHash)

/-- `syncSafeGoalManagerProposals`; `updatedAt` are the times of the last updates. -/
def syncSafeGoalManagerProposals (updatedAt : Id → Time) : Worker Unit := do
  if !config.safeServiceConfigured then return ()
  let currentNonce : ℕ ← ask .safeNonce
  let safeOwners : List Address ← ask .safeOwners
  let (actualManagers, assignments) ← select fun db => (db.chainManagers, db.assignments)
  let desiredHash := goalManagerStateHash
    (desiredGoalManagerSet safeOwners actualManagers assignments)
  let pending ← select (pendingManagers config updatedAt desiredHash)
  let now : Time ← ask .now
  syncManagers currentNonce now pending

end

end Admin

end PreCommunity
