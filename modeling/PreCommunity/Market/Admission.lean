import PreCommunity.Market.Pricing
import PreCommunity.Text.Decimal

/-!
# The admission of stakes

An advertiser asks for the transactions that change a stake.  The server reads the contract at one
block and refuses what could not pay for one click.

* `parseAdsStakeAmount`, `parseAdsBidUsd` : the texts of a request.
* `StakeReads` : what is read of the contract.
* `prepare` : the plan, or the reason why there is none.
-/

namespace PreCommunity

namespace Market

open Decimal (decimalText)

/-- What a wallet may ask for. -/
inductive AdsStakeOperation where
  | stake | requestUnstake | unstake
deriving DecidableEq, Repr

/-- The state of the projection. -/
inductive AdsChainStatus where
  | awaitingContract | syncing | synced
deriving DecidableEq, Repr

/-- What `prepare` uses of the snapshot of the projection. -/
structure AdsChainSnapshot where
  status : AdsChainStatus
  chainId : ℕ
  contractAddress : Option Address
deriving DecidableEq, Repr

/-- A request; the keyword is given by its id. -/
structure AdsStakeOperationInput where
  keywordId : Hash
  stakerAddress : Address
  amountRaw : Option Text
  bidUsdRaw : Option Text
deriving DecidableEq, Repr

/-- An exception with its text. -/
inductive PrepareError where
  | badRequest (message : Text)
  | serviceUnavailable (message : Text)
  /-- Any other error. -/
  | other
deriving DecidableEq, Repr

/-- `parseAdsStakeAmount`. -/
def parseAdsStakeAmount (value : Option Text) : Except PrepareError ℕ :=
  match value with
  | none => .error (.badRequest "Stake amount must be a non-negative integer in raw PRE units".toList)
  | some text =>
    if !isWhole text ∨ maxUint256 < Decimal.value text then
      .error (.badRequest "Stake amount must be a non-negative integer in raw PRE units".toList)
    else .ok (Decimal.value text)

/-- `parseAdsBidUsd`. -/
def parseAdsBidUsd (value : Option Text) : Except PrepareError ℕ :=
  match value with
  | none => .error (.badRequest "Bid must be a positive integer in micro USD".toList)
  | some text =>
    if !isWhole text ∨ text.head? = some '0' ∨ maxUint256 < Decimal.value text then
      .error (.badRequest "Bid must be a positive integer in micro USD".toList)
    else .ok (Decimal.value text)

/-- What is read of the contract at one block, and the allowance of the staker. -/
structure StakeReads where
  amount : ℕ
  withdrawAvailableAt : ℕ
  minimumStake : ℕ
  paused : Bool
  preUsdPriceE18 : ℕ
  preUsdPriceQuotedAt : ℕ
  allowance : ℕ
deriving DecidableEq, Repr

/-- The call of a transaction. -/
inductive StakeCall where
  | approve (spender : Address) (amount : ℕ)
  | stake (keywordId : Hash) (amount bidUsdRaw : ℕ)
  | requestUnstake (keywordId : Hash)
  | unstake (keywordId : Hash)
deriving DecidableEq, Repr

/-- `AdsPreparedTransaction`; it sends no value. -/
structure AdsPreparedTransaction where
  chainId : ℕ
  recipient : Address
  data : StakeCall
deriving DecidableEq, Repr

/-- `AdsStakeTransactionPlan`. -/
inductive AdsStakeTransactionPlan where
  | disabled (status : AdsChainStatus) (operation : AdsStakeOperation)
  | ready (operation : AdsStakeOperation) (keywordId : Hash) (tokenAddress : Address)
      (approvalTransaction : Option AdsPreparedTransaction) (transaction : AdsPreparedTransaction)
      (priceWarning : Option Text)
deriving DecidableEq, Repr

section

variable (ext : External) (isoText : ℕ → Text) (tokenAddress : Address)

/-- `buildAdsStakeTransactionPlan`, with the warning. -/
def buildAdsStakeTransactionPlan (operation : AdsStakeOperation) (chainId : ℕ)
    (contractAddress : Address) (keywordId : Hash) (amount bidUsdRaw : ℕ) (approvalRequired : Bool)
    (priceWarning : Option Text) : AdsStakeTransactionPlan :=
  let data := match operation with
    | .stake => StakeCall.stake keywordId amount bidUsdRaw
    | .requestUnstake => .requestUnstake keywordId
    | .unstake => .unstake keywordId
  .ready operation keywordId tokenAddress
    (if 0 < amount ∧ approvalRequired then
      some ⟨chainId, tokenAddress, .approve contractAddress amount⟩ else none)
    ⟨chainId, contractAddress, data⟩ priceWarning

/-- The price of the contract is older than thirty minutes, or from the future. -/
def isStale (now quotedAt : ℕ) : Bool :=
  now + 60000 < quotedAt * 1000 ∨ quotedAt * 1000 + 30 * 60000 < now

/-- What the plan of a stake warns of; `now` is in milliseconds. -/
def priceWarning (now quotedAt : ℕ) : Option Text :=
  if isStale now quotedAt then
    some ("The contract's PRE/USD price is older than 30 minutes (updated ".toList ++
      isoText (quotedAt * 1000) ++ "). This stake uses that price.".toList)
  else none

/-- What is said when the stake could not pay for one click. -/
def coverageMessage (required available : ℕ) (warning : Option Text) : Text :=
  "One click requires ".toList ++ ext.formatUnits required 18 ++
    " PRE; your resulting stake is ".toList ++ ext.formatUnits available 18 ++
    " PRE. Add ".toList ++ ext.formatUnits (required - available) 18 ++
    " PRE or lower your bid.".toList ++ (warning.map (' ' :: ·)).getD []

/-- What comes before the price is looked at. -/
def checkStake (reads : StakeReads) (amount now : ℕ) : Except PrepareError Unit :=
  let active := 0 < reads.amount
  if reads.paused then .error (.serviceUnavailable "Keyword Market staking is paused".toList)
  else if active ∧ reads.withdrawAvailableAt ≠ 0 then
    .error (.badRequest "This position is awaiting withdrawal".toList)
  else if amount = 0 ∧ ¬active then
    .error (.badRequest "A new position requires a PRE deposit".toList)
  else if ¬active ∧ amount < reads.minimumStake then
    .error (.badRequest ("A new position requires at least ".toList ++
      decimalText reads.minimumStake ++ " raw PRE units".toList))
  else if reads.preUsdPriceE18 = 0 ∨ reads.preUsdPriceQuotedAt = 0 ∨
      now / 1000 + 60 < reads.preUsdPriceQuotedAt then
    .error (.serviceUnavailable "The contract has no valid PRE/USD price yet.".toList)
  else .ok ()

/-- The checks of a stake, and its warning. -/
def admitStake (reads : StakeReads) (amount bidUsdRaw now : ℕ) :
    Except PrepareError (Option Text) :=
  match checkStake reads amount now with
  | .error e => .error e
  | .ok () =>
    match billPreRaw bidUsdRaw (ext.formatUnits reads.preUsdPriceE18 18) with
    | .error _ => .error .other
    | .ok required =>
      let available := reads.amount + amount
      let warning := priceWarning isoText now reads.preUsdPriceQuotedAt
      if available < required then
        .error (.badRequest (coverageMessage ext required available warning))
      else .ok warning

/-- The checks of the other operations. -/
def checkUnstake (operation : AdsStakeOperation) (reads : StakeReads) (now : ℕ) :
    Except PrepareError Unit :=
  if ¬0 < reads.amount then
    .error (.badRequest "This wallet has no PRE stake for the keyword".toList)
  else match operation with
    | .stake => .ok ()
    | .requestUnstake =>
      if reads.withdrawAvailableAt ≠ 0 then
        .error (.badRequest "Unstake was already requested".toList)
      else .ok ()
    | .unstake =>
      if reads.withdrawAvailableAt = 0 then
        .error (.badRequest "Request unstake before withdrawing PRE".toList)
      else if now / 1000 < reads.withdrawAvailableAt then
        .error (.badRequest "The 24-hour unstake period has not ended".toList)
      else .ok ()

/-- `ContractAdsChainAdapter.prepare`. -/
def prepare (snapshot : AdsChainSnapshot) (operation : AdsStakeOperation)
    (input : AdsStakeOperationInput) (reads : StakeReads) (now : ℕ) :
    Except PrepareError AdsStakeTransactionPlan :=
  match snapshot.contractAddress with
  | none => .ok (.disabled .awaitingContract operation)
  | some contractAddress =>
    match operation with
    | .stake =>
      if snapshot.status ≠ .synced then .ok (.disabled .syncing operation)
      else do
        let amount ← parseAdsStakeAmount input.amountRaw
        let bidUsdRaw ← parseAdsBidUsd input.bidUsdRaw
        let warning ← admitStake ext isoText reads amount bidUsdRaw now
        let allowance := if 0 < amount then reads.allowance else 0
        .ok (buildAdsStakeTransactionPlan tokenAddress operation snapshot.chainId contractAddress
          input.keywordId amount bidUsdRaw (allowance < amount) warning)
    | .requestUnstake | .unstake => do
      checkUnstake operation reads now
      .ok (buildAdsStakeTransactionPlan tokenAddress operation snapshot.chainId contractAddress
        input.keywordId 0 0 false none)

end

end Market

end PreCommunity
