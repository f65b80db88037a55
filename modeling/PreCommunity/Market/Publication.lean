import PreCommunity.Market.Charges

/-!
# The price publication worker

A publication pass settles the rows in flight, checks that the last settled row is still on the
chain, and then signs and sends the newest quote.  The row it works on is a variable of the pass,
because the handler of its errors records them there.

* `reconcilePublication` : one row in flight.
* `processPreUsdPricePublication` : the pass.
-/

namespace PreCommunity

namespace Market

open Store Concurrent

/-- What a publication pass is given; its chain and its keystore answer its questions. -/
structure PricePublicationDependencies where
  now : ℕ
  identity : Identity
  confirmations : ℕ

/-- The variables of a publication pass. -/
structure PublicationPass where
  active : Option PricePublication

/-- A price of the contract. -/
structure ContractPreUsdPrice where
  priceE18 : ℕ
  quotedAt : ℕ
deriving DecidableEq

/-- A receipt as the publication worker reads it. -/
structure PricePublicationReceipt where
  blockNumber : ℕ
  blockHash : Hash
  reverted : Bool
  event : Option ContractPreUsdPrice

/-- The newest finalized block: the transaction's own block counts as its first confirmation. -/
def finalizedAdsBlock (headBlock confirmations : ℕ) : ℕ := headBlock - (min confirmations 4 - 1)

/-- The price that a log reports, if it is one of the contract `address`. -/
def ReceiptLog.price (address : Address) (log : ReceiptLog) : Option ContractPreUsdPrice :=
  if log.address ≠ address then none
  else match log.event with
    | some (.preUsdPriceUpdated priceE18 quotedAt) => some ⟨priceE18, quotedAt⟩
    | _ => none

namespace PublicationChain

variable (deps : PricePublicationDependencies)

def head : Worker PublicationPass ℕ := do
  let chainId : ℕ ← ask .chainId
  if chainId ≠ deps.identity.chainId then throw (.blocked .chainMismatch)
  else ask (.blockNumber deps.identity.chainId)

def blockHash (block : ℕ) : Worker PublicationPass Hash :=
  ask (.blockHash deps.identity.chainId block)

def verify : Worker PublicationPass Unit := ask (.verifyContract deps.identity)

def priceAt (block : ℕ) : Worker PublicationPass ContractPreUsdPrice := do
  let priceE18 ← ask (.preUsdPriceE18 deps.identity block)
  let quotedAt ← ask (.preUsdPriceQuotedAt deps.identity block)
  return ⟨priceE18, quotedAt⟩

def price : Option ℕ → Worker PublicationPass ContractPreUsdPrice
  | some block => priceAt deps block
  | none => do
    let block ← ask (.blockNumber deps.identity.chainId)
    priceAt deps block

/-- The updater and the operator. -/
def authorities : Worker PublicationPass (Address × Address) := do
  let updater ← ask (.priceUpdater deps.identity none)
  let operator ← ask (.operator deps.identity none)
  return (updater, operator)

def receipt (hash : Hash) : Worker PublicationPass (Option PricePublicationReceipt) := do
  let found : Option TransactionReceipt ← try ask (.transactionReceipt deps.identity.chainId hash)
    catch _ => throw (.blocked .rpcUnavailable)
  return found.map fun receipt =>
    { blockNumber := receipt.blockNumber
      blockHash := receipt.blockHash
      reverted := receipt.reverted
      event := receipt.logs.foldl
        (fun event log => (log.price deps.identity.contractAddress).or event) none }

def nonce (address : Address) (pending : Bool) : Worker PublicationPass ℕ :=
  ask (.transactionCount deps.identity.chainId address pending)

def sign (publication : PricePublication) (signer : Address) (nonce : ℕ) :
    Worker PublicationPass SignedTransaction :=
  ask (.signPublication publication signer nonce)

def broadcast (raw : Hash) : Worker PublicationPass Hash := do
  try ask (.sendRawTransaction deps.identity.chainId raw)
  catch error =>
    throw (.blocked (if error = .blocked .insufficientGas then .insufficientGas
      else .transactionUnknown))

end PublicationChain

/-- What a publication takes from a quote: the price and the time in seconds. -/
def publicationQuote (quote : Option PreUsdQuote) (now : ℕ) : Except Failure (ℕ × ℕ × Id) :=
  match quote with
  | none => .error (.blocked .priceUnavailable)
  | some quote => match decimalE18 quote.priceUsd with
    | none => .error (.blocked .priceUnavailable)
    | some priceE18 =>
      if priceE18 = 0 ∨ maxUint256 < priceE18 ∨ 2 ^ 53 ≤ quote.quotedAt ∨ quote.quotedAt = 0 ∨
          now + 60000 < quote.quotedAt then .error (.blocked .priceUnavailable)
      else .ok (priceE18, quote.quotedAt / 1000, quote.id)

/-- The database with other publications. -/
def Database.withPublications (db : Database) (rows : List PricePublication) : Database :=
  { db with publications := rows }

/-- `adPricePublication.update`. -/
def updatePublication (id : Id) (f : PricePublication → PricePublication) : Tx Unit :=
  updateUnique Database.publications Database.withPublications (fun row => row.id = id) f

/-- Set the status and the error code of a row. -/
def markPublication (id : Id) (status : PublicationStatus) (errorCode : Option ErrorCode) :
    Worker PublicationPass Unit :=
  transaction (updatePublication id fun row =>
    { row with status := status, errorCode := errorCode })

/-- Record the receipt of a row. -/
def PricePublication.withReceipt (row : PricePublication) (status : PublicationStatus)
    (errorCode : Option ErrorCode) (receipt : PricePublicationReceipt)
    (nextAttemptAt : Option ℕ) : PricePublication :=
  { row with
    status := status
    errorCode := errorCode
    receiptBlockNumber := some receipt.blockNumber
    receiptBlockHash := some receipt.blockHash
    nextAttemptAt := nextAttemptAt }

/-- Whether a canonical receipt confirms the row or shows that it was superseded. -/
def receiptStatus (row : PricePublication) (deps : PricePublicationDependencies)
    (receipt : PricePublicationReceipt) : Worker PublicationPass PublicationStatus :=
  match receipt.event with
  | none => do
    -- An exact duplicate update intentionally emits no event.
    let current ← PublicationChain.price deps (some receipt.blockNumber)
    if current.quotedAt > row.quotedAt then return .superseded
    else if current.quotedAt ≠ row.quotedAt ∨ current.priceE18 ≠ row.priceE18Raw then
      throw (.blocked .transactionUnknown)
    else return .confirmed
  | some event =>
    if event.priceE18 ≠ row.priceE18Raw ∨ event.quotedAt ≠ row.quotedAt then
      throw (.blocked .transactionUnknown)
    else return .confirmed

/-- The receipt's block is finalized and canonical. -/
def publicationReceiptFinal (deps : PricePublicationDependencies) (head : ℕ)
    (receipt : PricePublicationReceipt) : Worker PublicationPass Bool := do
  if receipt.blockNumber > finalizedAdsBlock head deps.confirmations then return false
  let hash ← PublicationChain.blockHash deps receipt.blockNumber
  return hash = receipt.blockHash

/-- The branches of `reconcilePublication` with a receipt. -/
def reconcilePublicationReceipt (row : PricePublication) (deps : PricePublicationDependencies)
    (head : ℕ) (receipt : PricePublicationReceipt) : Worker PublicationPass Bool := do
  let final ← publicationReceiptFinal deps head receipt
  if !final then
    markPublication row.id .reconciling (some .waitingConfirmation)
    return true
  else if receipt.reverted then
    transaction (updatePublication row.id fun row =>
      row.withReceipt .failed (some .transactionFailed) receipt (some (deps.now + 60000)))
    return false
  else
    let status ← receiptStatus row deps receipt
    transaction (updatePublication row.id fun row => row.withReceipt status none receipt none)
    return false

/-- Check the contract and its authorities, and send the signed bytes. -/
def sendPublication (row : PricePublication) (deps : PricePublicationDependencies)
    (raw txHash : Hash) (signerAddress : Address) : Worker PublicationPass Unit := do
  PublicationChain.verify deps
  let (updater, operator) ← PublicationChain.authorities deps
  if signerAddress ≠ updater then throw (.blocked .priceUpdaterMismatch)
  else if signerAddress = operator then throw (.blocked .priceUpdaterNotDedicated)
  else
    let hash ← PublicationChain.broadcast deps raw
    if hash ≠ txHash then throw (.blocked .transactionUnknown)
    else markPublication row.id .submitted (some .waitingConfirmation)

/-- Send a row again; `true` means that it waits. -/
def rebroadcastPublication (row : PricePublication) (deps : PricePublicationDependencies)
    (raw txHash : Hash) (signerAddress : Address) : Worker PublicationPass Bool := do
  try
    sendPublication row deps raw txHash signerAddress
    pure true
  catch error =>
    markPublication row.id .reconciling (some error.code)
    if error.code ≠ .transactionUnknown then throw error else pure true

/-- The branches of `reconcilePublication` without a receipt. -/
def reconcilePending (row : PricePublication) (deps : PricePublicationDependencies) (head : ℕ)
    (raw txHash : Hash) (nonce : ℕ) (signerAddress : Address) : Worker PublicationPass Bool := do
  let latestNonce ← PublicationChain.nonce deps signerAddress false
  if latestNonce > nonce then
    let current ← PublicationChain.price deps (some (finalizedAdsBlock head deps.confirmations))
    if current.quotedAt ≥ row.quotedAt then
      markPublication row.id .superseded none
      return false
    else throw (.blocked .nonceConsumed)
  else
    let pendingNonce ← PublicationChain.nonce deps signerAddress true
    if pendingNonce < nonce then throw (.blocked .nonceGap)
    else rebroadcastPublication row deps raw txHash signerAddress

/-- `true` means that the row waits for its transaction. -/
def reconcilePublication (row : PricePublication) (deps : PricePublicationDependencies)
    (head : ℕ) : Worker PublicationPass Bool :=
  match row.txHash, row.signedTransaction, row.nonce, row.signerAddress with
  | some txHash, some raw, some nonce, some signerAddress => do
    match ← PublicationChain.receipt deps txHash with
    | some receipt => reconcilePublicationReceipt row deps head receipt
    | none => reconcilePending row deps head raw txHash nonce signerAddress
  | _, _, _, _ => throw (.blocked .transactionUnknown)

/-- The loop over the rows in flight; `true` means that one of them waits. -/
def reconcileOutstanding (deps : PricePublicationDependencies) (head : ℕ) :
    List PricePublication → Worker PublicationPass Bool
  | [] => return false
  | row :: rest => do
    set (PublicationPass.mk (some row))
    if ← reconcilePublication row deps head then return true
    reconcileOutstanding deps head rest

/-- The settled row with the newest receipt. -/
def previousPublication (db : Database) (identity : Identity) : Option PricePublication :=
  ((db.publications.filter fun row => row.identity = identity ∧
    (row.status = .confirmed ∨ row.status = .failed ∨ row.status = .superseded) ∧
      row.nonce.isSome ∧ row.receiptBlockNumber.isSome).insertionSort
    fun a b => b.receiptBlockNumber.getD 0 ≤ a.receiptBlockNumber.getD 0).head?

/-- Reopen the last settled row if its receipt block is no longer canonical; `true` means that it
waits. -/
def reconcilePrevious (deps : PricePublicationDependencies) (head : ℕ) :
    Worker PublicationPass Bool := do
  let previous ← select fun db => previousPublication db deps.identity
  match previous with
  | none => return false
  | some previous => match previous.receiptBlockNumber, previous.receiptBlockHash with
    | some block, some hash =>
      let canonical ← PublicationChain.blockHash deps block
      if canonical = hash then return false
      markPublication previous.id .reconciling (some .waitingConfirmation)
      let active := { previous with
        status := .reconciling, errorCode := some .waitingConfirmation }
      set (PublicationPass.mk (some active))
      reconcilePublication active deps head
    | _, _ => return false

/-- A new row for a quote. -/
def PricePublication.create (id : Id) (identity : Identity) (quote : ℕ × ℕ × Id) :
    PricePublication where
  id := id
  identity := identity
  quoteId := some quote.2.2
  priceE18Raw := quote.1
  quotedAt := quote.2.1
  status := .prepared
  signerAddress := none
  nonce := none
  txHash := none
  signedTransaction := none
  receiptBlockNumber := none
  receiptBlockHash := none
  errorCode := none
  attemptCount := 0
  nextAttemptAt := none

/-- `adPricePublication.upsert` with an empty update. -/
def upsertPublication (id : Id) (identity : Identity) (quote : ℕ × ℕ × Id) :
    Tx PricePublication := do
  let db ← get
  match db.publications.find? fun row => row.identity = identity ∧ row.quotedAt = quote.2.1 with
  | some row => return row
  | none =>
    let row := PricePublication.create id identity quote
    if db.publications.any fun other => other.id = id then throw .other
    else
      set (db.withPublications (db.publications ++ [row]))
      return row

/-- The row with a new signature. -/
def PricePublication.sign (row : PricePublication) (signer : Address) (nonce : ℕ)
    (transaction : SignedTransaction) : PricePublication :=
  { row with
    status := .signed
    signerAddress := some signer
    nonce := some nonce
    txHash := some transaction.hash
    signedTransaction := some transaction.raw
    attemptCount := row.attemptCount + 1
    errorCode := none
    nextAttemptAt := none
    receiptBlockNumber := none
    receiptBlockHash := none }

/-- The last update of the signing transaction; it returns the updated row. -/
def signPublicationTx (id : Id) (signer : Address) (nonce : ℕ)
    (transaction : SignedTransaction) : Tx PricePublication := do
  let db ← get
  -- `@@unique([chainId, signerAddress, nonce])`
  let chainId := (db.publications.find? fun row => row.id = id).map (·.identity.chainId)
  if db.publications.any fun row => some row.identity.chainId = chainId ∧ row.id ≠ id ∧
      row.signerAddress = some signer ∧ row.nonce = some nonce then throw .other
  else
    updatePublication id fun row => row.sign signer nonce transaction
    let db ← get
    findOrThrow db.publications fun row => row.id = id

/-- The body of the signing transaction, which holds the wallet lock. -/
def signPublication (active : PricePublication) (deps : PricePublicationDependencies)
    (signer : Address) : Worker PublicationPass PricePublication := do
  let wallet : Wallet := ⟨deps.identity.chainId, signer⟩
  let reservation ← readKeywordMarketWalletReservation wallet none (some active.id)
  let found ← select fun db => db.publications.find? fun row => row.id = active.id
  match found with
  | none => throw .other
  | some saved =>
    if saved.status.inFlight then commitLocked .publication wallet (pure saved)
    else if reservation.pending then throw (.blocked .waitingConfirmation)
    else
      let pendingNonce ← PublicationChain.nonce deps signer true
      let latest ← PublicationChain.nonce deps signer false
      if pendingNonce ≠ latest then throw (.blocked .waitingConfirmation)
      else if reservation.latestNonce.any (pendingNonce ≤ ·) then throw (.blocked .nonceGap)
      else
        let signed ← PublicationChain.sign saved signer pendingNonce
        commitLocked .publication wallet (signPublicationTx saved.id signer pendingNonce signed)

/-- Sign and send the row `active`. -/
def publish (active : PricePublication) (deps : PricePublicationDependencies) (head : ℕ) :
    Worker PublicationPass JobResult := do
  PublicationChain.verify deps
  let signer : ℕ ← ask .unlockPriceUpdater
  let (updater, operator) ← PublicationChain.authorities deps
  if signer ≠ updater then throw (.blocked .priceUpdaterMismatch)
  else if signer = operator then throw (.blocked .priceUpdaterNotDedicated)
  else
    let signed ← withWalletLock .publication ⟨deps.identity.chainId, signer⟩
      (signPublication active deps signer)
    -- Signed bytes and nonce must survive a crash before the first RPC submission.
    set (PublicationPass.mk (some signed))
    if ← reconcilePublication signed deps head then
      return ⟨.waitingConfirmation, some .waitingConfirmation⟩
    return ⟨.completed, none⟩

/-- The part of the pass that publishes the newest quote. -/
def publishLatest (deps : PricePublicationDependencies) (head : ℕ) :
    Worker PublicationPass JobResult := do
  set (PublicationPass.mk none)
  let latest : Option PreUsdQuote ← ask .latestPreUsdPrice
  match publicationQuote latest deps.now with
  | .error e => throw e
  | .ok quote =>
    let current ← PublicationChain.price deps none
    if current.quotedAt ≥ quote.2.1 then
      update fun db => db.withPublications (updateWhere (fun row => row.identity = deps.identity ∧
        row.quotedAt ≤ current.quotedAt ∧ (row.status = .prepared ∨ row.status = .failed))
        (fun row => { row with status := .superseded, errorCode := none }) db.publications)
      return ⟨.unchanged, none⟩
    else
      let random : ℕ → Id ← ask .random
      let active ← transaction (upsertPublication (random 0) deps.identity quote)
      set (PublicationPass.mk (some active))
      if active.nextAttemptAt.any (deps.now < ·) then return ⟨.blocked, active.errorCode⟩
      publish active deps head

/-- The part of the pass that its error handler covers. -/
def publicationSteps (deps : PricePublicationDependencies) : Worker PublicationPass JobResult := do
  let head ← PublicationChain.head deps
  let outstanding ← select fun db =>
    db.publications.filter fun row => row.identity = deps.identity ∧ row.status.inFlight
  if ← reconcileOutstanding deps head outstanding then
    return ⟨.waitingConfirmation, some .waitingConfirmation⟩
  if ← reconcilePrevious deps head then
    return ⟨.waitingConfirmation, some .waitingConfirmation⟩
  publishLatest deps head

/-- Record the error of a pass on the row it worked on. -/
def PricePublication.noteError (row : PricePublication) (code : ErrorCode) (inFlight : Bool) :
    PricePublication :=
  { row with
    errorCode := some code
    status := if inFlight then .reconciling else row.status }

/-- The error handler of a publication pass. -/
def recordPublicationError (error : Failure) : Worker PublicationPass JobResult := do
  let pass ← get
  let result : JobResult :=
    ⟨if error.code = .waitingConfirmation then .waitingConfirmation else .blocked, some error.code⟩
  match pass.active with
  | none => return result
  | some active =>
    transaction (updatePublication active.id fun row =>
      row.noteError error.code active.status.inFlight)
    return result

/-- A publication pass. -/
def processPreUsdPricePublication (deps : PricePublicationDependencies) :
    Worker PublicationPass JobResult := do
  try publicationSteps deps
  catch error => recordPublicationError error

end Market

end PreCommunity
