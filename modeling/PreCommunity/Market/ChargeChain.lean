import PreCommunity.Market.Pricing

/-!
# The charge worker's view of the chain

The chain object of one charge pass: its questions to the node, with the block hashes cached for
the length of the pass, and the reading of a receipt.

* `ChargeDependencies` : what a pass is given.
* `ChargePass` : the variables of a pass.
* `ChargeChain.blockHash`, `ChargeChain.receipt`, … : the questions of a pass.
-/

namespace PreCommunity

namespace Market

/-- What a charge pass is given; its chain and its keystore answer its questions. -/
structure ChargeDependencies where
  now : ℕ
  identity : Identity
  confirmations : ℕ

/-- The newest block that is deep enough below `head`. -/
def ChargeDependencies.finalizedBlock (deps : ChargeDependencies) (head : ℕ) : ℕ :=
  if deps.confirmations ≤ head then head - deps.confirmations else 0

/-- The variables of a charge pass. -/
structure ChargePass where
  /-- The block hashes that the chain object of this pass has read. -/
  blockHashes : List (ℕ × Hash)
  signer : Option Address
  operator : Option Address
  balance : Option ℕ
  blocked : Option ErrorCode
  waiting : Bool
  head : ℕ
  reconciliationCheckpoint : Option (ℕ × Hash)
  reconciledRuns : List Id

/-- The variables at the start of a pass. -/
def ChargePass.start : ChargePass where
  blockHashes := []
  signer := none
  operator := none
  balance := none
  blocked := none
  waiting := false
  head := 0
  reconciliationCheckpoint := none
  reconciledRuns := []

/-- The charge that a receipt or an indexed log reports. -/
structure ChargeReceiptEvent where
  chargeId : Hash
  keywordId : Hash
  staker : Address
  requestedPre : ℤ
  chargedPre : ℤ

/-- A receipt as the charge worker reads it. -/
structure ChargeReceipt where
  transactionHash : Option Hash
  blockNumber : ℕ
  blockHash : Hash
  reverted : Bool
  event : Option ChargeReceiptEvent

/-- The charge that a log reports, if it is one of `chargeId` by the contract `address`. -/
def ReceiptLog.charge (address : Address) (chargeId : Hash) (log : ReceiptLog) :
    Option ChargeReceiptEvent :=
  if log.address ≠ address then none
  else match log.event with
    | some (.stakeCharged logChargeId keywordId staker requestedPre chargedPre) =>
      if logChargeId = chargeId then some ⟨logChargeId, keywordId, staker, requestedPre, chargedPre⟩
      else none
    | _ => none

/-- The last charge of `chargeId` among the logs. -/
def chargeEvent (address : Address) (chargeId : Hash) (logs : List ReceiptLog) :
    Option ChargeReceiptEvent :=
  logs.foldl (fun event log => (log.charge address chargeId).or event) none

namespace ChargeChain

variable (deps : ChargeDependencies)

def head : Worker ChargePass ℕ := do
  let chainId : ℕ ← ask .chainId
  if chainId ≠ deps.identity.chainId then throw (.blocked .chainMismatch)
  else ask (.blockNumber deps.identity.chainId)

def blockHash (block : ℕ) : Worker ChargePass Hash := do
  match (← get).blockHashes.lookup block with
  | some saved => return saved
  | none =>
    let hash ← ask (.blockHash deps.identity.chainId block)
    modify fun pass => { pass with blockHashes := (block, hash) :: pass.blockHashes }
    return hash

def verify : Worker ChargePass Unit := ask (.verifyReadiness deps.identity)

def operator : Worker ChargePass Address := ask (.operator deps.identity none)

def balance (address : Address) : Worker ChargePass ℕ :=
  ask (.balance deps.identity.chainId address)

def position (batch : ChargeBatch) (block : Option ℕ) : Worker ChargePass StakeDetails :=
  ask (.stakeDetailsOf deps.identity batch.keywordId batch.stakerAddress block)

def processed (chargeId : Hash) : Worker ChargePass Bool :=
  ask (.chargeProcessed deps.identity chargeId)

def receipt (hash chargeId : Hash) : Worker ChargePass (Option ChargeReceipt) := do
  match ← ask (.transactionReceipt deps.identity.chainId hash) with
  | none => return none
  | some receipt =>
    return some
      { transactionHash := receipt.transactionHash.or (some hash)
        blockNumber := receipt.blockNumber
        blockHash := receipt.blockHash
        reverted := receipt.reverted
        event := chargeEvent deps.identity.contractAddress chargeId receipt.logs }

def pendingNonce (address : Address) : Worker ChargePass ℕ :=
  ask (.transactionCount deps.identity.chainId address true)

def sign (batch : ChargeBatch) (signer : Address) (nonce : ℕ) :
    Worker ChargePass SignedTransaction :=
  ask (.signCharge batch signer nonce)

def broadcast (raw : Hash) : Worker ChargePass Hash :=
  ask (.sendRawTransaction deps.identity.chainId raw)

end ChargeChain

end Market

end PreCommunity
