import PreCommunity.Community.Proposals

/-!
# Drafts of goals

An administrator writes a draft of a goal, also from a proposal that passed, prepares its
publication on the chain and says that it was sent; the worker publishes the draft when the chain
tells that the goal was created.  A draft may be archived.

* `DraftChecks` : the functions of texts and of calldata.
* `createExpense`, `updateExpense`, `archiveExpense` : writing.
* `publishExpense`, `markExpenseSubmitted`, `projectGoalCreated` : publication.
-/

namespace PreCommunity

namespace Community

open Concurrent Store
open Routine (attempt)
open Escrow (Id Time Address Hash Text FundingAsset FundingGoal GoalFacts MonthlySurplusPolicy
  MetadataStatus ExpenseStatus)

/-- The functions of texts and of calldata. -/
structure DraftChecks where
  /-- `parseFundingTarget`. -/
  parseFundingTarget : FundingAsset → Text → Except Failure ℕ
  isValidIpfsUri : Text → Bool
  /-- The goal id of the contract that belongs to a draft. -/
  goalIdOf : Id → Hash
  /-- The calldata that creates the goal of a draft. -/
  encodeCreate : Expense → Hash → Except Failure Hash

section

variable (checks : DraftChecks)

/-! ### Checks -/

/-- `validateFundingTargets`. -/
def validateFundingTargets (targets : List FundingTarget) : Except Failure Unit := do
  if ¬(targets.map (·.asset)).Nodup then
    throw (.badRequest "Funding target assets must be unique")
  else
    let parsed ← targets.mapM fun target => checks.parseFundingTarget target.asset target.amount
    if ¬parsed.any (0 < ·) then
      throw (.badRequest "At least one funding target must be greater than zero")
    else return ()

/-- `validateCoreGoal`. -/
def validateCoreGoal (title description : Text) (deadline : Option Time)
    (metadataUri : Option Text) (now : Time) : Except Failure Unit :=
  let titleBytes := (String.ofList title).utf8ByteSize
  if titleBytes = 0 ∨ 96 < titleBytes then .error (.badRequest "Title must use 1–96 UTF-8 bytes")
  else if 512 < (String.ofList description).utf8ByteSize then
    .error (.badRequest "Description must use at most 512 UTF-8 bytes")
  else if deadline.any (· ≤ now) then .error (.badRequest "Deadline must be in the future")
  else if metadataUri.any fun uri => uri ≠ [] ∧ !checks.isValidIpfsUri uri then
    .error (.badRequest "Metadata URI must contain a valid IPFS CID")
  else .ok ()

/-- A day, in milliseconds. -/
def dayMs : ℕ := 24 * 60 * 60 * 1000

/-- `validateCadence`. -/
def validateCadence (cadence : ExpenseCadence) (deadline : Option Time)
    (monthlySurplusPolicy : Option MonthlySurplusPolicy)
    (firstSettlementAtOverride : Option Time) (now : Time) : Except Failure Unit :=
  match cadence with
  | .oneTime =>
    if deadline = none then .error (.badRequest "A one-time goal requires a deadline")
    else if monthlySurplusPolicy.isSome then
      .error (.badRequest "A one-time goal cannot define a monthly surplus policy")
    else if firstSettlementAtOverride.isSome then
      .error (.badRequest "A one-time goal cannot define a first settlement date")
    else .ok ()
  | .monthly =>
    if deadline.isSome then .error (.badRequest "A monthly goal cannot define a deadline")
    else if monthlySurplusPolicy = none then
      .error (.badRequest "A monthly goal requires an explicit surplus policy")
    else match firstSettlementAtOverride with
      | none => .ok ()
      | some first =>
        if first % dayMs ≠ 0 then .error (.badRequest "First settlement must be at 00:00 UTC")
        else if first < now + 7 * dayMs ∨ now + 60 * dayMs < first then
          .error (.badRequest "First settlement must be between 7 and 60 days from now")
        else .ok ()

/-! ### Writing -/

/-- `CreateExpenseDto`. -/
structure CreateExpense where
  slug : Text
  name : Text
  description : Text
  purpose : Text
  category : Option Text
  cadence : ExpenseCadence
  monthlySurplusPolicy : Option MonthlySurplusPolicy
  firstSettlementAt : Option (Option Time)
  recipientAddress : Address
  deadline : Option Time
  discussionUrl : Option Text
  metadataUri : Option Text
  targets : List FundingTarget
deriving DecidableEq, Repr

/-- The row of a new draft. -/
def Expense.new (id : Id) (dto : CreateExpense) (communityProposalId : Option Id) : Expense where
  id := id
  slug := dto.slug
  status := .draft
  previewToken := none
  pendingChainGoalId := none
  pendingChainTxHash := none
  archivedAt := none
  communityProposalId := communityProposalId
  name := dto.name
  description := dto.description
  purpose := dto.purpose
  category := dto.category
  cadence := dto.cadence
  monthlySurplusPolicy := dto.monthlySurplusPolicy
  firstSettlementAtOverride := dto.firstSettlementAt.join
  recipientAddress := dto.recipientAddress
  deadline := dto.deadline
  discussionUrl := dto.discussionUrl
  metadataUri := dto.metadataUri
  targets := dto.targets

/-- The proposal can be converted: what the transaction reads of it. -/
def checkConvertible (id : Id) (db : Database) : Except Failure Unit :=
  match db.proposal? id with
  | none => .error (.notFound "Community proposal not found")
  | some proposal =>
    if proposal.status ≠ .passed then
      .error (.badRequest "Only a passed community proposal can become a goal draft")
    else if db.expenses.any fun row => row.communityProposalId = some id then
      .error (.badRequest "This proposal already has a goal draft")
    else .ok ()

/-- The part of a transaction that reads the proposal, if there is one. -/
def checkProposal : Option Id → Worker Unit
  | none => return ()
  | some id => do
    let checked ← select (checkConvertible id)
    attempt checked

/-- The writes of a new draft: its row, and the proposal that it converts. -/
def createExpenseTx (dto : CreateExpense) (communityProposalId : Option Id) (actor : Address)
    (closedAt : Time) (_ : Time) (db : Database) : Except Failure (Database × Expense) :=
  let row := Expense.new db.nextId dto communityProposalId
  if db.expenses.any fun other => other.slug = dto.slug then .error .uniqueConstraint
  else match communityProposalId with
    | none => .ok ({ db with expenses := db.expenses ++ [row], nextId := db.nextId + 1 }, row)
    | some id =>
      if db.expenses.any fun other => other.communityProposalId = some id then
        .error .uniqueConstraint
      else if !db.proposals.any fun proposal => proposal.id = id then .error .foreignKey
      else .ok ({ db.updateProposals (fun proposal => proposal.id = id) fun proposal =>
          { proposal with
            status := .converted
            moderatedBy := some actor
            closedAt := some closedAt } with
        expenses := db.expenses ++ [row]
        nextId := db.nextId + 1 }, row)

/-- `AdminService.createExpense`. -/
def createExpense (n : ℕ) (dto : CreateExpense) (actor : Principal)
    (communityProposalId : Option Id) : Worker Expense := do
  attempt (validateFundingTargets checks dto.targets)
  if dto.cadence = .oneTime ∧ dto.firstSettlementAt.isSome then
    throw (.badRequest "A one-time goal cannot define a first settlement date")
  else
    let current ← now
    attempt (validateCadence dto.cadence dto.deadline dto.monthlySurplusPolicy
      dto.firstSettlementAt.join current)
    attempt (validateCoreGoal checks dto.name dto.purpose dto.deadline dto.metadataUri current)
    checkProposal communityProposalId
    let closedAt ← now
    commit n (communityProposalId.toList.map .proposal)
      (createExpenseTx dto communityProposalId actor.address closedAt)

/-- `UpdateExpenseDto`. -/
structure UpdateExpense where
  slug : Option Text
  name : Option Text
  description : Option Text
  purpose : Option Text
  category : Option Text
  cadence : Option ExpenseCadence
  monthlySurplusPolicy : Option (Option MonthlySurplusPolicy)
  firstSettlementAt : Option (Option Time)
  recipientAddress : Option Address
  deadline : Option (Option Time)
  discussionUrl : Option Text
  metadataUri : Option (Option Text)
  targets : Option (List FundingTarget)
deriving DecidableEq, Repr

/-- A draft with the given fields; the others stay as they are. -/
def Expense.apply (row : Expense) (dto : UpdateExpense) : Expense :=
  { row with
    slug := dto.slug.getD row.slug
    name := dto.name.getD row.name
    description := dto.description.getD row.description
    purpose := dto.purpose.getD row.purpose
    category := dto.category <|> row.category
    cadence := dto.cadence.getD row.cadence
    monthlySurplusPolicy := dto.monthlySurplusPolicy.getD row.monthlySurplusPolicy
    firstSettlementAtOverride := dto.firstSettlementAt.getD row.firstSettlementAtOverride
    recipientAddress := dto.recipientAddress.getD row.recipientAddress
    deadline := dto.deadline.getD row.deadline
    discussionUrl := dto.discussionUrl <|> row.discussionUrl
    metadataUri := dto.metadataUri.getD row.metadataUri
    targets := dto.targets.getD row.targets }

/-- The update of a draft by its id. -/
def updateExpenseTx (id : Id) (dto : UpdateExpense) (_ : Time) (db : Database) :
    Except Failure (Database × Unit) :=
  if !db.expenses.any fun row => row.id = id then .error .recordNotFound
  else if db.expenses.any fun row => row.id ≠ id ∧ dto.slug = some row.slug then
    .error .uniqueConstraint
  else .ok (db.updateExpenses (fun row => row.id = id) (·.apply dto), ())

/-- `AdminService.updateExpense`. -/
def updateExpense (n : ℕ) (id : Id) (dto : UpdateExpense) : Worker Unit := do
  let found ← select fun db => db.expense? id
  match found with
  | none => throw (.notFound "Goal draft not found")
  | some before =>
    if before.status ≠ .draft then
      throw (.badRequest "Only an unpublished draft can be edited")
    else
      let wanted := before.apply dto
      attempt (match dto.targets with
        | none => .ok ()
        | some targets => validateFundingTargets checks targets)
      let current ← now
      attempt (validateCadence wanted.cadence wanted.deadline wanted.monthlySurplusPolicy
        wanted.firstSettlementAtOverride current)
      attempt (validateCoreGoal checks wanted.name wanted.purpose wanted.deadline
        wanted.metadataUri current)
      commit n [] (updateExpenseTx id dto)

/-- An update of one draft by its id. -/
def updateOneExpense (id : Id) (f : Expense → Expense) (_ : Time) (db : Database) :
    Except Failure (Database × Unit) :=
  if db.expenses.any fun row => row.id = id then
    .ok (db.updateExpenses (fun row => row.id = id) f, ())
  else .error .recordNotFound

/-- `AdminService.archiveExpense`. -/
def archiveExpense (n : ℕ) (id : Id) : Worker Unit := do
  let archivedAt ← now
  commit n [] (updateOneExpense id fun row =>
    { row with status := .archived, archivedAt := some archivedAt, previewToken := none })

/-! ### Publication -/

/-- `AdminService.publishExpense`; it returns the goal id and the calldata. -/
def publishExpense (n : ℕ) (id : Id) : Worker (Hash × Hash) := do
  let found ← select fun db => db.expense? id
  match found with
  | none => throw (.notFound "Goal draft not found")
  | some draft =>
    if draft.status ≠ .draft ∧ draft.status ≠ .pendingChain then
      throw (.badRequest "This draft is already published")
    else
      let current ← now
      attempt (validateCadence draft.cadence draft.deadline draft.monthlySurplusPolicy
        draft.firstSettlementAtOverride current)
      attempt (validateFundingTargets checks draft.targets)
      attempt (validateCoreGoal checks draft.name draft.purpose draft.deadline draft.metadataUri
        current)
      let chainGoalId := draft.pendingChainGoalId.getD (checks.goalIdOf draft.id)
      commit n [] (updateOneExpense id fun row =>
        { row with pendingChainGoalId := some chainGoalId })
      let data ← attempt (checks.encodeCreate draft chainGoalId)
      return (chainGoalId, data)

/-- `AdminService.markExpenseSubmitted`. -/
def markExpenseSubmitted (n : ℕ) (id : Id) (txHash : Hash) : Worker Unit := do
  let found ← select fun db => db.expense? id
  match found with
  | none => throw (.notFound "Goal draft not found")
  | some draft =>
    if draft.status = .published then return ()
    else if draft.pendingChainGoalId = none ∨
        (draft.status ≠ .draft ∧ draft.status ≠ .pendingChain) then
      throw (.badRequest "The goal publication has not been prepared")
    else commit n [] (updateOneExpense id fun row =>
      { row with status := .pendingChain, pendingChainTxHash := some txHash })

/-- The upsert of a goal in the database. -/
def upsertGoal (chainId : ℕ) (goalId : Hash) (draft : Option Expense) (slug : Text)
    (facts : GoalFacts) (db : Database) : Except Failure Database :=
  match Escrow.putGoal chainId goalId (draft.map (·.toExpense)) slug facts db.goals db.nextId with
  | none => .error .uniqueConstraint
  | some (goals, nextId, _) => .ok { db with goals := goals, nextId := nextId }

/-- The writes of `GoalCreated`: the goal, and the draft that is published. -/
def goalCreatedTx (chainId : ℕ) (goalId : Hash) (draft : Option Expense) (slug : Text)
    (facts : GoalFacts) (time : Time) (db : Database) : Except Failure (Database × Unit) := do
  let db ← upsertGoal chainId goalId draft slug facts db
  match draft with
  | none => .ok (db, ())
  | some draft => updateOneExpense draft.id (fun row => { row with status := .published }) time db

/-- `handleDecodedEscrowEvent` for `GoalCreated`; `generated` is the slug that belongs to its title
and goal id. -/
def projectGoalCreated (n : ℕ) (chainId : ℕ) (goalId : Hash) (facts : GoalFacts)
    (generated : Text) : Worker Unit := do
  let draft ← select fun db => db.expenses.find? fun row => row.pendingChainGoalId = some goalId
  let slug ← select fun db =>
    Escrow.goalSlug chainId (draft.map (·.toExpense)) goalId generated db.goals
  commit n [] (goalCreatedTx chainId goalId draft slug facts)

end

end Community

end PreCommunity
