import Mathlib.Data.Nat.Notation
import PreCommunity.Store.Table

/-!
# The tables of the escrow

The rows that the escrow indexer, the administration of payouts and the Safe synchronisation share.
Hashes, addresses, calldata and row ids are numbers, which makes the letter case of their
hexadecimal text irrelevant; a decimal text of a whole number is that number.  Times are
milliseconds.  A table lists its rows in the order of `createdAt`; the id of a new row is one that
was never given before.

A field that the source has once for PRE and once for USDC is one field of type `Amounts`.

* `FundingGoal`, `FundingGoalPeriod`, `CryptoContribution` : the projection of the contract's goals.
* `Payout`, `SafePayoutIntent`, `SafePayoutProposal` : releases, reservations, and Safe proposals.
* `SafeGoalActionIntent`, `SafeGoalActionProposal` : lifecycle actions of monthly goals.
* `Expense` : drafts of goals.
* `ChainEvent`, `ChainAuthority`, `SponsorProfile`, `IndexerState` : the rest of the projection.
* `Database` : all of them.
-/

namespace PreCommunity

namespace Escrow

/-- A block hash, a transaction hash, a goal id of the contract, or calldata. -/
abbrev Hash := ℕ

/-- An account or contract address. -/
abbrev Address := ℕ

/-- The primary key of a row. -/
abbrev Id := ℕ

/-- A time, in milliseconds. -/
abbrev Time := ℕ

/-- A text, as its characters. -/
abbrev Text := List Char

/-- The tokens of the escrow. -/
inductive FundingAsset where
  | pre | usdc
deriving DecidableEq, Repr

/-- One amount for each token. -/
structure Amounts where
  pre : ℕ
  usdc : ℕ
deriving DecidableEq, Repr

namespace Amounts

/-- No amount of either token. -/
def zero : Amounts := ⟨0, 0⟩

/-- The amount of a token. -/
def get (a : Amounts) : FundingAsset → ℕ
  | .pre => a.pre
  | .usdc => a.usdc

/-- Replace the amount of a token. -/
def set (a : Amounts) (asset : FundingAsset) (n : ℕ) : Amounts :=
  match asset with
  | .pre => { a with pre := n }
  | .usdc => { a with usdc := n }

@[simp] theorem get_zero (asset : FundingAsset) : zero.get asset = 0 := by cases asset <;> rfl

theorem get_set (a : Amounts) (asset other : FundingAsset) (n : ℕ) :
    (a.set asset n).get other = if other = asset then n else a.get other := by
  cases asset <;> cases other <;> rfl

end Amounts

/-! ### Goals -/

/-- The two types of goals. -/
inductive FundingGoalType where
  | oneTime | monthly
deriving DecidableEq, Repr

/-- The states of a goal. -/
inductive FundingGoalStatus where
  | draft | opened | closed | settled | cancelled
deriving DecidableEq, Repr

/-- What becomes of the surplus of a month. -/
inductive MonthlySurplusPolicy where
  | payoutAll | rollOver
deriving DecidableEq, Repr

/-- The states of fetched metadata. -/
inductive MetadataStatus where
  | notSet | available | unavailable | invalid
deriving DecidableEq, Repr

/-- The fields of a goal that its events determine. -/
structure GoalFacts where
  creatorAddress : Address
  goalType : FundingGoalType
  monthlySurplusPolicy : Option MonthlySurplusPolicy
  monthlyFirstSettlementAt : Option Time
  monthlySettlementDay : Option ℕ
  monthlyStopRequestedAt : Option Time
  monthlyPeriodsSettled : ℕ
  monthStart : Time
  title : Text
  description : Text
  recipientAddress : Address
  deadline : Time
  metadataUri : Option Text
  targetRaw : Amounts
  recipientEntitlementRaw : Amounts
  carryRaw : Amounts
  treasuryEntitlementRaw : Amounts
  status : FundingGoalStatus
  creationTxHash : Option Hash
  creationBlock : Option ℕ
  creationBlockHash : Option Hash
  publishedAt : Option Time
  closedAt : Option Time
deriving DecidableEq, Repr

/-- A row of `FundingGoal`. -/
structure FundingGoal extends GoalFacts where
  id : Id
  expenseId : Option Id
  chainId : ℕ
  chainGoalId : Hash
  slug : Text
  metadataStatus : MetadataStatus
  metadata : Option Text
deriving DecidableEq, Repr

/-- The fields of a period of a monthly goal, apart from the goal. -/
structure PeriodFacts where
  periodIndex : ℕ
  startsAt : Time
  endsAt : Time
  surplusPolicy : MonthlySurplusPolicy
  finalPeriod : Bool
  contributedRaw : Amounts
  carryInRaw : Amounts
  recipientEntitlementAddedRaw : Amounts
  carryOutRaw : Amounts
  settlementTxHash : Option Hash
  settlementBlock : Option ℕ
  settlementBlockHash : Option Hash
  settlementLogIndex : Option ℕ
  settledAt : Option Time
deriving DecidableEq, Repr

/-- A row of `FundingGoalPeriod`; its key is the goal and the index. -/
structure FundingGoalPeriod extends PeriodFacts where
  goalId : Id
deriving DecidableEq, Repr

/-- Who sees the name of a contributor. -/
inductive SponsorVisibility where
  | pub | anonymous
deriving DecidableEq, Repr

/-- The fields of a contribution, apart from the goal and the user. -/
structure ContributionFacts where
  chainId : ℕ
  txHash : Hash
  logIndex : ℕ
  blockNumber : ℕ
  blockHash : Hash
  contributor : Address
  asset : FundingAsset
  amountRaw : ℕ
  visibility : SponsorVisibility
  confirmedAt : Time
deriving DecidableEq, Repr

/-- A row of `CryptoContribution`. -/
structure CryptoContribution extends ContributionFacts where
  goalId : Id
  userId : Id
deriving DecidableEq, Repr

/-! ### Payouts -/

/-- What a payout releases. -/
inductive PayoutKind where
  | expense | cancelledFunds
deriving DecidableEq, Repr

/-- The states of a payout. -/
inductive PayoutStatus where
  | proposed | executed | failed
deriving DecidableEq, Repr

/-- A row of `Payout`. -/
structure Payout where
  id : Id
  goalId : Id
  asset : FundingAsset
  kind : PayoutKind
  amountRaw : ℕ
  recipientAddress : Address
  chainTxHash : Option Hash
  status : PayoutStatus
  executedAt : Option Time
deriving DecidableEq, Repr

/-- How a reservation reaches the Safe. -/
inductive SafePayoutDelivery where
  | service | manual
deriving DecidableEq, Repr

/-- A row of `SafePayoutIntent`. -/
structure SafePayoutIntent where
  id : Id
  payoutId : Id
  goalId : Id
  chainId : ℕ
  safeAddress : Address
  delivery : SafePayoutDelivery
  safeNonce : Option ℕ
  toAddress : Address
  valueRaw : ℕ
  data : Hash
  createdByAddress : Address
  expiresAt : Option Time
  consumedAt : Option Time
deriving DecidableEq, Repr

/-- The states of a Safe proposal, of a payout or of a lifecycle action. -/
inductive SafeProposalStatus where
  | submitting | awaitingConfirmations | readyToExecute | executed | stale | failed
deriving DecidableEq, Repr

/-- `pendingPayoutProposalStatuses`, `pendingSafeProposalStatuses`, `pendingGoalActionStatuses`. -/
def SafeProposalStatus.pending : SafeProposalStatus → Bool
  | submitting | awaitingConfirmations | readyToExecute => true
  | executed | stale | failed => false

/-- A row of `SafePayoutProposal`. -/
structure SafePayoutProposal where
  id : Id
  intentId : Id
  safeTxHash : Hash
  safeNonce : ℕ
  senderAddress : Address
  confirmations : ℕ
  threshold : ℕ
  status : SafeProposalStatus
  executionTxHash : Option Hash
  failureReason : Option String
  lastCheckedAt : Option Time
  executedAt : Option Time
  createdAt : Time
deriving DecidableEq, Repr

/-! ### Lifecycle actions -/

/-- The lifecycle actions of a goal. -/
inductive SafeGoalActionKind where
  | closeOneTime | cancelOneTime | setMonthlySurplusPolicy | requestMonthlyStop | cancelMonthly
deriving DecidableEq, Repr

/-- A row of `SafeGoalActionIntent`; of its parameters only the policy is ever read. -/
structure SafeGoalActionIntent where
  id : Id
  goalId : Id
  kind : SafeGoalActionKind
  targetPolicy : Option MonthlySurplusPolicy
  chainId : ℕ
  safeAddress : Address
  safeNonce : ℕ
  toAddress : Address
  valueRaw : ℕ
  data : Hash
  createdByAddress : Address
  expiresAt : Time
  consumedAt : Option Time
deriving DecidableEq, Repr

/-- A row of `SafeGoalActionProposal`. -/
structure SafeGoalActionProposal where
  id : Id
  intentId : Id
  safeTxHash : Hash
  safeNonce : ℕ
  senderAddress : Address
  confirmations : ℕ
  threshold : ℕ
  status : SafeProposalStatus
  executionTxHash : Option Hash
  failureReason : Option String
  lastCheckedAt : Option Time
  executedAt : Option Time
deriving DecidableEq, Repr

/-! ### Drafts, profiles and authorities -/

/-- The states of a draft. -/
inductive ExpenseStatus where
  | draft | pendingChain | published | archived
deriving DecidableEq, Repr

/-- A row of `Expense`. -/
structure Expense where
  id : Id
  slug : Text
  status : ExpenseStatus
  previewToken : Option Text
  pendingChainGoalId : Option Hash
  pendingChainTxHash : Option Hash
  archivedAt : Option Time
deriving DecidableEq, Repr

/-- A row of `User`. -/
structure User where
  id : Id
  address : Address
deriving DecidableEq, Repr

/-- The fields of a profile that its events determine. -/
structure ProfileFacts where
  active : Bool
  revision : ℕ
  displayName : Option Text
  websiteUrl : Option Text
  bio : Option Text
  avatarUri : Option Text
  avatarStatus : MetadataStatus
  defaultPublic : Bool
  blockNumber : Option ℕ
  blockHash : Option Hash
  txHash : Option Hash
  logIndex : Option ℕ
deriving DecidableEq, Repr

/-- A row of `SponsorProfile`. -/
structure SponsorProfile extends ProfileFacts where
  userId : Id
  chainId : Option ℕ
deriving DecidableEq, Repr

/-- The authorities of the contract. -/
inductive ChainAuthorityKind where
  | owner | goalManager
deriving DecidableEq, Repr

/-- A row of `ChainAuthority`. -/
structure ChainAuthority where
  chainId : ℕ
  contractAddress : Address
  address : Address
  kind : ChainAuthorityKind
  blockNumber : ℕ
  txHash : Hash
  logIndex : ℕ
deriving DecidableEq, Repr

/-- A row of `IndexerState`. -/
structure IndexerState where
  key : Text
  chainId : ℕ
  lastBlockNumber : ℕ
  lastBlockHash : Hash
deriving DecidableEq, Repr

/-! ### Events -/

/-- The decoded events of the contract, with their arguments. -/
inductive EscrowEvent where
  | goalCreated (goalId : Hash) (creator recipient payoutRecipient : Address)
      (preTarget usdcTarget deadline : ℕ) (title description metadataURI : Text)
  | monthlyGoalCreated (goalId : Hash) (periodStart periodEnd settlementDay surplusPolicy : ℕ)
  | contributionReceived (goalId : Hash) (contributor token : Address) (amount : ℕ)
      (profileVisible : Bool)
  | monthlySurplusPolicyUpdated (goalId : Hash) (previousPolicy newPolicy : ℕ)
  | monthlyGoalStopRequested (goalId : Hash) (periodEnd : ℕ)
  | monthlyPeriodSettled (goalId : Hash) (periodIndex periodStart periodEnd surplusPolicy : ℕ)
      (finalPeriod : Bool)
  | monthlyTokenSettled (goalId : Hash) (periodIndex : ℕ) (token : Address)
      (periodContributed carryIn recipientEntitlementAdded carryOut : ℕ)
  | goalClosed (goalId : Hash) (preRecipientEntitlement usdcRecipientEntitlement : ℕ)
  | goalCancelled (goalId : Hash)
  | monthlyGoalCancelled (goalId : Hash)
      (preTreasuryEntitlementAdded usdcTreasuryEntitlementAdded : ℕ)
  | expenseReleased (goalId : Hash) (token recipient payoutRecipient : Address) (amount : ℕ)
  | cancelledFundsReleased (goalId : Hash) (token treasury payoutRecipient : Address)
      (amount : ℕ)
  | goalPayoutUpdated (goalId : Hash) (previousPayout newPayout : Address)
  | treasuryPayoutUpdated (previousPayout newPayout : Address)
  | excessTokenRecovered (token recipient : Address) (amount : ℕ)
  | goalManagerUpdated (account : Address) (enabled : Bool)
  | maxOpenGoalsPerManagerUpdated (previousLimit newLimit : ℕ)
  | ownershipTransferStarted (previousOwner newOwner : Address)
  | ownershipTransferred (previousOwner newOwner : Address)
  | paused (account : Address)
  | unpaused (account : Address)
  | profileUpdated (account : Address) (revision : ℕ)
      (displayName websiteUrl bio avatarURI : Text) (defaultPublic : Bool)
  | profileCleared (account : Address) (revision : ℕ)
deriving DecidableEq, Repr

/-- A row of `ChainEvent`; the name and the payload of the event are the event. -/
structure ChainEvent where
  chainId : ℕ
  txHash : Hash
  logIndex : ℕ
  blockNumber : ℕ
  blockHash : Hash
  event : EscrowEvent
deriving DecidableEq, Repr

/-! ### The database -/

/-- The tables of the escrow. -/
structure Database where
  expenses : List Expense
  goals : List FundingGoal
  periods : List FundingGoalPeriod
  contributions : List CryptoContribution
  payouts : List Payout
  payoutIntents : List SafePayoutIntent
  payoutProposals : List SafePayoutProposal
  goalActionIntents : List SafeGoalActionIntent
  goalActionProposals : List SafeGoalActionProposal
  users : List User
  profiles : List SponsorProfile
  authorities : List ChainAuthority
  events : List ChainEvent
  indexers : List IndexerState
  /-- The id of the next row that is created. -/
  nextId : Id
deriving DecidableEq

/-- A database without any rows. -/
def Database.empty : Database :=
  ⟨[], [], [], [], [], [], [], [], [], [], [], [], [], [], 0⟩

end Escrow

end PreCommunity
