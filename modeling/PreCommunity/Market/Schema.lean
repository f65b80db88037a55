import Mathlib.Data.Nat.Notation
import PreCommunity.Store.Table

/-!
# The tables of the Keyword Market

The rows that the charge worker, the price publication worker, the indexer and the click capture
share.  Hashes, addresses, keyword ids, transaction bytes and row ids are numbers, which makes the
letter case of their hexadecimal text irrelevant; a decimal text of a whole number (`duePreRaw`,
`bidUsdRaw`, …) is that number.  Only the price `priceUsd` is kept as a text.  Times are
milliseconds.  A table lists its rows in the order of `createdAt`.

* `BillingClick`, `ChargeBatch`, `ChargeRun`, `ChargeSettings` : the charge ledger.
* `PricePublication` : the journal of published prices.
* `ClickWindow`, `ClickTotals` : the five-minute windows and the click totals.
* `IndexerState`, `StakePosition`, `ChainEvent` : the projection of the contract's log.
* `Database` : all of them.
-/

namespace PreCommunity

namespace Market

/-- A block hash, a transaction hash, or signed transaction bytes. -/
abbrev Hash := ℕ

/-- An account or contract address. -/
abbrev Address := ℕ

/-- The primary key of a row. -/
abbrev Id := ℕ

/-- A text, as its characters. -/
abbrev Text := List Char

/-- A deployment of the contract: the chain and the contract's address. -/
structure Identity where
  chainId : ℕ
  contractAddress : Address
deriving DecidableEq, Repr

/-- The error codes of clicks, batches, runs, settings and publications. -/
inductive ErrorCode where
  | keystoreMissing | keystoreInvalid | operatorMismatch | insufficientGas | rpcUnavailable
  | indexerUnavailable | priceUnavailable | positionMissing | positionVersionMismatch
  | insufficientStake | waitingConfirmation | transactionFailed | transactionUnknown
  | chainMismatch | contractMismatch | captureFailed | captureInterrupted | queueUnavailable
  | reorgDetected | nonceGap | captureProofOrphaned | clientIpUnavailable
  | duplicateClientWindow | priceUpdaterMismatch | priceUpdaterNotDedicated | nonceConsumed
deriving DecidableEq, Repr

/-! ### Clicks -/

/-- The states of a billing click. -/
inductive ClickStatus where
  | capturing | pending | pricePending | suppressed | unbilled | reserved | settled
  | uncollectable
deriving DecidableEq, Repr

/-- Where the position of a click was read. -/
inductive CaptureSource where
  | rpc | projection
deriving DecidableEq, Repr

/-- A row of `AdBillingClick`; its id is the id of the delivery that was opened. -/
structure BillingClick where
  id : Id
  revisionId : Id
  identity : Identity
  keywordId : Hash
  keyword : Text
  stakerAddress : Address
  positionVersion : ℕ
  status : ClickStatus
  bidUsdRaw : Option ℕ
  amountPreRaw : Option ℕ
  priceUsd : Option Text
  priceQuotedAt : Option ℕ
  captureSource : Option CaptureSource
  bidBlockNumber : Option ℕ
  bidBlockHash : Option Hash
  priceBlockNumber : Option ℕ
  priceBlockHash : Option Hash
  errorCode : Option ErrorCode
  batchId : Option Id
  clickedAt : ℕ

/-! ### Charges -/

/-- The states of a charge batch. -/
inductive BatchStatus where
  | prepared | signed | submitted | reconciling | confirmed | partlyCharged | failed
  | uncollectable
deriving DecidableEq, Repr

/-- A row of `AdChargeBatch`. -/
structure ChargeBatch where
  id : Id
  runId : Id
  chargeId : Hash
  identity : Identity
  keywordId : Hash
  keyword : Text
  stakerAddress : Address
  positionVersion : ℕ
  clickCount : ℕ
  duePreRaw : ℕ
  requestedPreRaw : ℕ
  chargedPreRaw : Option ℕ
  shortfallPreRaw : Option ℕ
  status : BatchStatus
  txHash : Option Hash
  settledTxHash : Option Hash
  signedTransaction : Option Hash
  signerAddress : Option Address
  nonce : Option ℕ
  receiptBlockNumber : Option ℕ
  receiptBlockHash : Option Hash
  errorCode : Option ErrorCode
  attemptCount : ℕ
  nextAttemptAt : Option ℕ

/-- Who asked for a run. -/
inductive Trigger where
  | manual | auto
deriving DecidableEq, Repr

/-- The states of a charge run. -/
inductive RunStatus where
  | queued | running | completed | partlyCharged | blocked
deriving DecidableEq, Repr

/-- A row of `AdChargeRun`. -/
structure ChargeRun where
  id : Id
  identity : Identity
  trigger : Trigger
  status : RunStatus
  errorCode : Option ErrorCode
  startedAt : Option ℕ
  finishedAt : Option ℕ

/-- The readiness of the charge worker. -/
inductive Readiness where
  | workerUnavailable | ready | blocked | waitingConfirmation
deriving DecidableEq, Repr

/-- A row of `AdChargeSettings`. -/
structure ChargeSettings where
  identity : Identity
  automaticEnabled : Bool
  intervalMinutes : ℕ
  clickThreshold : ℕ
  workerHeartbeatAt : Option ℕ
  reconciliationBlockNumber : Option ℕ
  reconciliationBlockHash : Option Hash
  signerAddress : Option Address
  operatorAddress : Option Address
  gasBalanceRaw : Option ℕ
  readiness : Readiness
  errorCode : Option ErrorCode

/-- A new row of `AdChargeSettings`. -/
def ChargeSettings.create (identity : Identity) : ChargeSettings where
  identity := identity
  automaticEnabled := false
  intervalMinutes := 10
  clickThreshold := 50
  workerHeartbeatAt := none
  reconciliationBlockNumber := none
  reconciliationBlockHash := none
  signerAddress := none
  operatorAddress := none
  gasBalanceRaw := none
  readiness := .workerUnavailable
  errorCode := none

/-! ### Published prices -/

/-- The states of a price publication. -/
inductive PublicationStatus where
  | prepared | signed | submitted | reconciling | confirmed | failed | superseded
deriving DecidableEq, Repr

/-- A row of `AdPricePublication`. -/
structure PricePublication where
  id : Id
  identity : Identity
  quoteId : Option Id
  priceE18Raw : ℕ
  quotedAt : ℕ
  status : PublicationStatus
  signerAddress : Option Address
  nonce : Option ℕ
  txHash : Option Hash
  signedTransaction : Option Hash
  receiptBlockNumber : Option ℕ
  receiptBlockHash : Option Hash
  errorCode : Option ErrorCode
  attemptCount : ℕ
  nextAttemptAt : Option ℕ

/-! ### Click windows and totals -/

/-- A row of `AdBillingClickWindow`. -/
structure ClickWindow where
  fingerprint : Hash
  expiresAt : ℕ

/-- A row of `AdBillingClickTotals`. -/
structure ClickTotals where
  identity : Identity
  billableClicks : ℕ
  suppressedClicks : ℕ

/-! ### The projection of the contract's log -/

/-- A row of `AdIndexerState`; its key is its identity. -/
structure IndexerState where
  identity : Identity
  lastBlockNumber : ℕ
  lastBlockHash : Hash
  minimumStakeRaw : Option ℕ
  paused : Option Bool
  operatorAddress : Option Address
  priceUpdaterAddress : Option Address
  preUsdPriceE18Raw : Option ℕ
  preUsdPriceQuotedAt : Option ℕ
  configBlockNumber : Option ℕ
  updatedAt : ℕ

/-- A row of `AdStakePosition`. -/
structure StakePosition where
  identity : Identity
  keywordId : Hash
  stakerAddress : Address
  stakeRaw : ℕ
  bidUsdRaw : ℕ
  requiredCoveragePreRaw : ℕ
  eligible : Bool
  withdrawAvailableAt : ℕ
  positionVersion : ℕ
  stakeSinceBlock : ℕ
  stakeSinceLogIndex : ℕ
  amountSinceBlock : ℕ
  amountSinceLogIndex : ℕ
  positionBlock : ℕ
  positionBlockHash : Hash
  positionTxHash : Hash
  positionLogIndex : ℕ
  active : Bool

/-- The payload of a row of `AdChainEvent`; a field of a charge is `none` when the JSON value is
missing or is no text of the right form. -/
inductive EventPayload where
  | stakeCharged (chargeId : Hash) (keywordId : Option Hash) (staker : Option Address)
      (requestedPre chargedPre remainingPre : Option ℕ)
  | positionChanged (keywordId : Hash) (stakerAddress : Address)
      (stakeRaw previousStakeRaw bidUsdRaw requiredCoveragePreRaw : ℕ) (eligible : Bool)
      (withdrawAvailableAt positionVersion : ℕ)

/-- A row of `AdChainEvent`. -/
structure ChainEvent where
  identity : Identity
  txHash : Hash
  logIndex : ℕ
  blockNumber : ℕ
  blockHash : Hash
  payload : EventPayload

/-! ### The database -/

/-- All tables. -/
structure Database where
  clicks : List BillingClick
  batches : List ChargeBatch
  runs : List ChargeRun
  settings : List ChargeSettings
  publications : List PricePublication
  windows : List ClickWindow
  totals : List ClickTotals
  indexers : List IndexerState
  positions : List StakePosition
  events : List ChainEvent

/-- Every table is empty. -/
def Database.empty : Database := ⟨[], [], [], [], [], [], [], [], [], []⟩

namespace BatchStatus

/-- `terminal`. -/
def terminal : BatchStatus → Bool
  | confirmed | partlyCharged | uncollectable => true
  | _ => false

/-- `inFlight`. -/
def inFlight : BatchStatus → Bool
  | signed | submitted | reconciling => true
  | _ => false

end BatchStatus

/-- `inFlight`. -/
def PublicationStatus.inFlight : PublicationStatus → Bool
  | signed | submitted | reconciling => true
  | _ => false

/-- `recoverableRuns`. -/
def RunStatus.recoverable : RunStatus → Bool
  | queued | running | blocked => true
  | _ => false

/-- The largest amount the contract can be asked for. -/
def maxUint256 : ℕ := 2 ^ 256 - 1

end Market

end PreCommunity
