import Mathlib.Data.List.Sort
import PreCommunity.Market.ChargeChain
import PreCommunity.Market.Wallet

/-!
# The charge worker

A charge pass prices and checks the clicks, reconciles the batches with the chain, and then signs
and sends the batches of every open run.  It is translated statement by statement; a database
transaction is one `Tx`, except for the signing transaction, which asks the node and the keystore
while it holds the wallet lock.

* `convertPendingPrices`, `validateClickEvidence` : the clicks that are not in a batch.
* `reserveRun` : clicks become batches.
* `settleChargeReceipt`, `settleIndexedCharge`, `uncollectable` : how a batch ends.
* `reconcileChargeBatch`, `prepareBatch` : one batch.
* `refreshRun` : the status of a run.
* `processAdChargeJob` : the pass.
-/

namespace PreCommunity

namespace Market

open Store Concurrent

/-! ### Updates of single rows -/

section Rows

variable {α : Type}

/-- `update`: change the row that meets `p`; it is an error when there is none. -/
def updateUnique (table : Database → List α) (put : Database → List α → Database)
    (p : α → Bool) (f : α → α) : Tx Unit := do
  let db ← get
  if (table db).any p then set (put db (updateWhere p f (table db))) else throw .other

/-- The database with other batches. -/
def Database.withBatches (db : Database) (rows : List ChargeBatch) : Database :=
  { db with batches := rows }

/-- The database with other clicks. -/
def Database.withClicks (db : Database) (rows : List BillingClick) : Database :=
  { db with clicks := rows }

/-- The database with other runs. -/
def Database.withRuns (db : Database) (rows : List ChargeRun) : Database :=
  { db with runs := rows }

/-- The database with other settings. -/
def Database.withSettings (db : Database) (rows : List ChargeSettings) : Database :=
  { db with settings := rows }

/-- `adChargeBatch.update`. -/
def updateBatch (id : Id) (f : ChargeBatch → ChargeBatch) : Tx Unit :=
  updateUnique Database.batches Database.withBatches (fun row => row.id = id) f

/-- `adChargeRun.update`. -/
def updateRun (id : Id) (f : ChargeRun → ChargeRun) : Tx Unit :=
  updateUnique Database.runs Database.withRuns (fun row => row.id = id) f

/-- `adChargeSettings.update`. -/
def updateSettings (identity : Identity) (f : ChargeSettings → ChargeSettings) : Tx Unit :=
  updateUnique Database.settings Database.withSettings (fun row => row.identity = identity) f

/-- `adBillingClick.updateMany`. -/
def Database.updateClicks (db : Database) (p : BillingClick → Bool)
    (f : BillingClick → BillingClick) : Database :=
  db.withClicks (updateWhere p f db.clicks)

/-- `findUniqueOrThrow`. -/
def findOrThrow (rows : List α) (p : α → Bool) : Except Failure α :=
  match rows.find? p with
  | some row => .ok row
  | none => .error .other

/-- `adChargeSettings.upsert` with an empty update. -/
def Database.upsertSettings (db : Database) (identity : Identity) : Database :=
  if db.settings.any fun row => row.identity = identity then db
  else db.withSettings (db.settings ++ [ChargeSettings.create identity])

end Rows

/-! ### Clicks outside batches -/

/-- A group of clicks is due when it is large enough or its oldest click is old enough. -/
def chargeGroupDue (clicks : List BillingClick) (settings : ChargeSettings) (now : ℕ) : Bool :=
  settings.clickThreshold ≤ clicks.length ∨
    clicks.any fun click => click.clickedAt + settings.intervalMinutes * 60000 ≤ now

/-- The clicks of one position are charged together. -/
def BillingClick.groupKey (click : BillingClick) : Hash × Address × ℕ :=
  (click.keywordId, click.stakerAddress, click.positionVersion)

/-- Put a click into its group; a new group comes last. -/
def addToGroups (groups : List (List BillingClick)) (click : BillingClick) :
    List (List BillingClick) :=
  match groups with
  | [] => [[click]]
  | group :: rest =>
    if group.any fun first => first.groupKey = click.groupKey then (group ++ [click]) :: rest
    else group :: addToGroups rest click

/-- The clicks by position, in the order of their first clicks. -/
def groups (clicks : List BillingClick) : List (List BillingClick) :=
  clicks.foldl addToGroups []

/-- Close a capture that was interrupted. -/
def BillingClick.interrupt (click : BillingClick) : BillingClick :=
  { click with status := .unbilled, errorCode := some .captureInterrupted }

/-- Set the amount of a click from a stored contract price. -/
def BillingClick.convert (click : BillingClick) (amount : ℕ) (priceUsd : Text)
    (quotedAt blockNumber : ℕ) (blockHash : Hash) : BillingClick :=
  { click with
    status := if amount = 0 then .settled else .pending
    amountPreRaw := some amount
    priceUsd := some priceUsd
    priceQuotedAt := some quotedAt
    priceBlockNumber := some blockNumber
    priceBlockHash := some blockHash
    errorCode := none }

/-- A contract price that is current and set. -/
def IndexerState.freshPrice (snapshot : IndexerState) (now : ℕ) : Option (ℕ × ℕ) :=
  match snapshot.preUsdPriceE18Raw, snapshot.preUsdPriceQuotedAt with
  | some price, some quotedAt =>
    if snapshot.configBlockNumber = some snapshot.lastBlockNumber ∧ snapshot.updatedAt ≤ now ∧
        now ≤ snapshot.updatedAt + 60000 ∧ 0 < price ∧ 0 < quotedAt then some (price, quotedAt)
    else none
  | _, _ => none

/-- A click that waits for a price. -/
def BillingClick.awaitsPrice (click : BillingClick) : Bool :=
  click.status = .pricePending ∧ click.amountPreRaw = none

/-- One page of at most 500 clicks that wait for a price, by id. -/
def pricePendingPage (db : Database) (identity : Identity) (after : Option Id) :
    List BillingClick :=
  ((db.clicks.filter fun click =>
    click.identity = identity ∧ click.awaitsPrice ∧ after.all (· < click.id)).insertionSort
      fun a b => a.id ≤ b.id).take 500

/-- Convert the clicks of one page. -/
def convertPage (snapshot : IndexerState) (priceUsd : Text) (quotedAt : ℕ)
    (clicks : List BillingClick) : Worker ChargePass Unit := do
  for click in clicks do
    match click.bidUsdRaw with
    | none => continue
    | some bidUsdRaw =>
      match billPreRaw bidUsdRaw priceUsd with
      | .error e => throw e
      | .ok amount =>
        update fun db => db.updateClicks (fun row => row.id = click.id ∧ row.awaitsPrice)
          fun row => row.convert amount priceUsd (quotedAt * 1000) snapshot.lastBlockNumber
            snapshot.lastBlockHash

/-- The loop over the pages; ids have 128 bits, so it ends before the pages run out. -/
def convertPages (identity : Identity) (snapshot : IndexerState) (priceUsd : Text)
    (quotedAt : ℕ) : ℕ → Option Id → Worker ChargePass Unit
  | 0, _ => pure ()
  | pages + 1, after => do
    let clicks ← select fun db => pricePendingPage db identity after
    convertPage snapshot priceUsd quotedAt clicks
    match clicks.getLast? with
    | some last =>
      if clicks.length < 500 then pure ()
      else convertPages identity snapshot priceUsd quotedAt pages (some last.id)
    | none => pure ()

def convertPendingPrices (ext : External) (identity : Identity) (now : ℕ) :
    Worker ChargePass Unit := do
  update fun db => db.updateClicks (fun click =>
    click.identity = identity ∧ click.status = .capturing ∧ click.clickedAt < now - 5 * 60000)
    BillingClick.interrupt
  let snapshot ← select fun db => db.indexers.find? fun row => row.identity = identity
  match snapshot with
  | none => pure ()
  | some snapshot =>
    match snapshot.freshPrice now with
    | none => pure ()
    | some (price, quotedAt) =>
      convertPages identity snapshot (ext.formatUnits price 18) quotedAt (2 ^ 128) none

/-- What a block reference of a click turns out to be. -/
inductive Evidence where
  /-- The hash was not captured. -/
  | missing
  /-- The block is not deep enough yet. -/
  | later
  /-- Another block has that number now. -/
  | orphaned
  /-- The block is canonical. -/
  | canonical
deriving DecidableEq

/-- Check one block reference. -/
def blockEvidence (deps : ChargeDependencies) (finalizedBlock block : ℕ) :
    Option Hash → Worker ChargePass Evidence
  | none => return .missing
  | some hash => do
    if block > finalizedBlock then return .later
    let canonical ← ChargeChain.blockHash deps block
    return if canonical = hash then .canonical else .orphaned

/-- Check the block of the bid, and then the block of the price if there is one. -/
def clickEvidence (deps : ChargeDependencies) (finalizedBlock : ℕ) (click : BillingClick) :
    Worker ChargePass Evidence :=
  match click.bidBlockNumber with
  | none => return .missing
  | some bidBlock => do
    match ← blockEvidence deps finalizedBlock bidBlock click.bidBlockHash with
    | .canonical =>
      match click.priceBlockNumber with
      | none => return .canonical
      | some priceBlock => blockEvidence deps finalizedBlock priceBlock click.priceBlockHash
    | evidence => return evidence

/-- A click that waits for a batch. -/
def BillingClick.waiting (click : BillingClick) : Bool :=
  click.batchId = none ∧ (click.status = .pending ∨ click.status = .pricePending)

/-- Close a click whose evidence is wrong. -/
def invalidateClick (id : Id) (code : ErrorCode) : Worker ChargePass Unit :=
  update fun db => db.updateClicks (fun row => row.id = id ∧ row.waiting) fun row =>
    { row with status := .unbilled, errorCode := some code }

def validateClickEvidence (deps : ChargeDependencies) (finalizedBlock : ℕ) :
    Worker ChargePass Unit := do
  let clicks ← select fun db =>
    db.clicks.filter fun click => click.identity = deps.identity ∧ click.waiting
  for click in clicks do
    match ← clickEvidence deps finalizedBlock click with
    | .missing => invalidateClick click.id .captureFailed
    | .orphaned => invalidateClick click.id .reorgDetected
    | .later => continue
    | .canonical => continue

/-! ### Reserving clicks -/

/-- The clicks that a run may reserve, oldest first. -/
def reservableClicks (db : Database) (identity : Identity) (cutoff finalizedBlock : ℕ) :
    List BillingClick :=
  (db.clicks.filter fun click =>
    click.identity = identity ∧ click.status = .pending ∧ click.batchId = none ∧
      click.clickedAt ≤ cutoff ∧ click.bidBlockNumber.any (· ≤ finalizedBlock)).insertionSort
    fun a b => a.clickedAt < b.clickedAt ∨ a.clickedAt = b.clickedAt ∧ a.id ≤ b.id

/-- What a group owes. -/
def dueOf (clicks : List BillingClick) : ℕ :=
  (clicks.map fun click => click.amountPreRaw.getD 0).sum

/-- The batch of a group; a group that owes nothing is settled at once. -/
def ChargeBatch.create (id chargeId : Id) (run : ChargeRun) (deps : ChargeDependencies)
    (first : BillingClick) (group : List BillingClick) : ChargeBatch where
  id := id
  runId := run.id
  chargeId := chargeId
  identity := deps.identity
  keywordId := first.keywordId
  keyword := first.keyword
  stakerAddress := first.stakerAddress
  positionVersion := first.positionVersion
  clickCount := group.length
  duePreRaw := dueOf group
  requestedPreRaw := if dueOf group > maxUint256 then maxUint256 else dueOf group
  chargedPreRaw := if dueOf group = 0 then some 0 else none
  shortfallPreRaw := if dueOf group = 0 then some 0 else none
  status := if dueOf group = 0 then .confirmed else .prepared
  txHash := none
  settledTxHash := none
  signedTransaction := none
  signerAddress := none
  nonce := none
  receiptBlockNumber := none
  receiptBlockHash := none
  errorCode := none
  attemptCount := 0
  nextAttemptAt := none

/-- Put a click into a batch. -/
def BillingClick.reserve (batchId : Id) (due : ℕ) (click : BillingClick) : BillingClick :=
  { click with batchId := some batchId, status := if due = 0 then .settled else .reserved }

/-- `adChargeBatch.create`: ids and charge ids are unique. -/
def createBatch (batch : ChargeBatch) : Tx Unit := do
  let db ← get
  if db.batches.any fun row => row.id = batch.id ∨
      row.identity = batch.identity ∧ row.chargeId = batch.chargeId then throw .other
  else set (db.withBatches (db.batches ++ [batch]))

/-- Create the batch of one group and reserve its clicks. -/
def reserveGroup (run : ChargeRun) (deps : ChargeDependencies) (id chargeId : Id) :
    List BillingClick → Tx Unit
  | [] => pure ()
  | first :: rest => do
    let group := first :: rest
    createBatch (ChargeBatch.create id chargeId run deps first group)
    let db ← get
    let open_ (row : BillingClick) : Bool :=
      row.id ∈ group.map (·.id) ∧ row.status = .pending ∧ row.batchId = none
    if (db.clicks.filter open_).length = group.length then
      set (db.updateClicks open_ (BillingClick.reserve id (dueOf group)))
    else throw (.blocked .transactionUnknown)

/-- The loop over the groups; `random` numbers the ids that are drawn. -/
def reserveGroups (run : ChargeRun) (settings : ChargeSettings) (deps : ChargeDependencies)
    (random : ℕ → Id) : ℕ → List (List BillingClick) → Tx Unit
  | _, [] => pure ()
  | k, group :: rest =>
    if run.trigger = .manual ∨ chargeGroupDue group settings deps.now then do
      reserveGroup run deps (random (2 * k)) (random (2 * k + 1)) group
      reserveGroups run settings deps random (k + 1) rest
    else reserveGroups run settings deps random (k + 1) rest

/-- Automatic runs whose unsent batches a manual run takes over. -/
def takenOverRuns (db : Database) (run : ChargeRun) (deps : ChargeDependencies) :
    List ChargeRun :=
  if run.trigger = .manual then
    db.runs.filter fun row =>
      row.identity = deps.identity ∧ row.trigger = .auto ∧ row.status.recoverable
  else []

/-- The batches that a manual run takes over from `autoRuns`. -/
def Database.takeOver (db : Database) (autoRuns : List ChargeRun) (run : ChargeRun) : Database :=
  db.withBatches (updateWhere (fun row =>
    row.runId ∈ autoRuns.map (·.id) ∧ (row.status = .prepared ∨ row.status = .failed))
    (fun row => { row with runId := run.id }) db.batches)

/-- The automatic run that a pass starts. -/
def createRun (run : ChargeRun) : Tx Unit := do
  let db ← get
  if db.runs.any fun row => row.id = run.id then throw .other
  else set (db.withRuns (db.runs ++ [run]))

/-- The transaction of `reserveRun`; it returns the runs that were taken over. -/
def reserveRunTx (run : ChargeRun) (settings : ChargeSettings) (deps : ChargeDependencies)
    (head : ℕ) (random : ℕ → Id) : Tx (List Id) := do
  let db ← get
  let current ← findOrThrow db.runs fun row => row.id = run.id
  let autoRuns := takenOverRuns db run deps
  set (db.takeOver autoRuns run)
  let cutoff := current.startedAt.getD deps.now
  let db ← get
  let clicks := reservableClicks db deps.identity cutoff (deps.finalizedBlock head)
  reserveGroups run settings deps random 0 (groups clicks)
  updateRun run.id fun row =>
    { row with status := .running, startedAt := some cutoff, errorCode := none }
  return autoRuns.map (·.id)

/-! ### The status of a run -/

/-- What `refreshRun` writes. -/
def ChargeRun.refresh (run : ChargeRun) (batches : List ChargeBatch)
    (awaiting : List BillingClick) (now : ℕ) (failure : Option ErrorCode) : ChargeRun :=
  let failure := failure.or
    (if awaiting.any fun click => click.status = .pricePending then some .priceUnavailable
      else none)
  let pending := !awaiting.isEmpty || batches.any fun batch => !batch.status.terminal
  let incomplete := batches.any fun batch =>
    batch.status = .partlyCharged ∨ batch.status = .uncollectable
  let errorCode := failure.or (batches.findSome? (·.errorCode))
  { run with
    status :=
      if pending || failure.isSome then
        if failure.isSome ∧ failure ≠ some .waitingConfirmation then .blocked else .running
      else if incomplete then .partlyCharged else .completed
    errorCode :=
      if pending || failure.isSome then errorCode else if incomplete then errorCode else none
    finishedAt := if pending || failure.isSome then none else some now }

/-- The clicks that a manual run still waits for. -/
def awaitingClicks (db : Database) (run : ChargeRun) : List BillingClick :=
  match run.trigger, run.startedAt with
  | .manual, some startedAt => db.clicks.filter fun click =>
      click.identity = run.identity ∧ click.clickedAt ≤ startedAt ∧ click.waiting
  | _, _ => []

def refreshRun (runId : Id) (now : ℕ) (failure : Option ErrorCode) : Worker ChargePass Unit := do
  let found ← select fun db => db.runs.find? fun row => row.id = runId
  match found with
  | none => throw .other
  | some run =>
    let batches ← select fun db => db.batches.filter fun row => row.runId = runId
    let awaiting ← select fun db => awaitingClicks db run
    transaction (updateRun runId fun row => row.refresh batches awaiting now failure)

def reserveRun (run : ChargeRun) (settings : ChargeSettings) (deps : ChargeDependencies)
    (head : ℕ) : Worker ChargePass Unit := do
  let random ← ask .random
  let transferredRuns ← transaction (reserveRunTx run settings deps head random)
  for runId in transferredRuns do
    refreshRun runId deps.now none

/-! ### How a batch ends -/

/-- The event is one of this batch. -/
def ChargeReceiptEvent.matches (event : ChargeReceiptEvent) (batch : ChargeBatch) : Bool :=
  event.keywordId = batch.keywordId ∧ event.staker = batch.stakerAddress ∧
    event.chargeId = batch.chargeId ∧ event.requestedPre = batch.requestedPreRaw ∧
    0 ≤ event.chargedPre ∧ event.chargedPre ≤ batch.requestedPreRaw

/-- The ids of the clicks that `available` pays for, and of the others. -/
def splitCharge : ℕ → List BillingClick → List Id × List Id
  | _, [] => ([], [])
  | available, click :: rest =>
    let due := click.amountPreRaw.getD 0
    if due ≤ available then
      let (settled, uncollectable) := splitCharge (available - due) rest
      (click.id :: settled, uncollectable)
    else
      let (settled, uncollectable) := splitCharge 0 rest
      (settled, click.id :: uncollectable)

/-- The clicks of a batch, oldest first. -/
def batchClicks (db : Database) (batchId : Id) : List BillingClick :=
  (db.clicks.filter fun click => click.batchId = some batchId).insertionSort
    fun a b => a.clickedAt < b.clickedAt ∨ a.clickedAt = b.clickedAt ∧ a.id ≤ b.id

/-- The batch after a charge of `charged`. -/
def ChargeBatch.settle (row batch : ChargeBatch) (receipt : ChargeReceipt) (charged : ℕ) :
    ChargeBatch :=
  { row with
    status := if 0 < batch.duePreRaw - charged then .partlyCharged else .confirmed
    chargedPreRaw := some charged
    shortfallPreRaw := some (batch.duePreRaw - charged)
    settledTxHash := receipt.transactionHash.or batch.txHash
    receiptBlockNumber := some receipt.blockNumber
    receiptBlockHash := some receipt.blockHash
    errorCode := if 0 < batch.duePreRaw - charged then some .insufficientStake else none
    nextAttemptAt := none }

/-- The transaction of `settleChargeReceipt`. -/
def settleTx (batch : ChargeBatch) (receipt : ChargeReceipt) (charged : ℕ) : Tx Unit := do
  updateBatch batch.id fun row => row.settle batch receipt charged
  let db ← get
  let (settled, uncollectable) := splitCharge charged (batchClicks db batch.id)
  let db := db.updateClicks (fun row => row.id ∈ settled) fun row =>
    { row with status := .settled, errorCode := none }
  set (db.updateClicks (fun row => row.id ∈ uncollectable) fun row =>
    { row with status := .uncollectable, errorCode := some .insufficientStake })

def settleChargeReceipt (batch : ChargeBatch) (receipt : ChargeReceipt) :
    Worker ChargePass Unit :=
  match receipt.event with
  | none => throw (.blocked .transactionUnknown)
  | some event =>
    if event.matches batch then transaction (settleTx batch receipt event.chargedPre.toNat)
    else throw (.blocked .transactionUnknown)

/-- The transaction of `uncollectable`. -/
def uncollectableTx (batch : ChargeBatch) (errorCode : ErrorCode) (blockNumber : ℕ)
    (blockHash : Hash) : Tx Unit := do
  updateBatch batch.id fun row =>
    { row with
      status := .uncollectable
      chargedPreRaw := some 0
      shortfallPreRaw := some batch.duePreRaw
      receiptBlockNumber := some blockNumber
      receiptBlockHash := some blockHash
      errorCode := some errorCode }
  modify fun db => db.updateClicks (fun row => row.batchId = some batch.id) fun row =>
    { row with status := .uncollectable, errorCode := some errorCode }

def uncollectable (batch : ChargeBatch) (errorCode : ErrorCode) (blockNumber : ℕ)
    (blockHash : Hash) : Worker ChargePass Unit :=
  transaction (uncollectableTx batch errorCode blockNumber blockHash)

def assertBatchCapture (batch : ChargeBatch) (deps : ChargeDependencies) (head : ℕ) :
    Worker ChargePass Unit := do
  let clicks ← select fun db => db.clicks.filter fun click => click.batchId = some batch.id
  for click in clicks do
    match ← clickEvidence deps (deps.finalizedBlock head) click with
    | .missing => throw (.blocked .captureFailed)
    | .later => throw (.blocked .waitingConfirmation)
    | .orphaned => throw (.blocked .captureProofOrphaned)
    | .canonical => continue

/-- The row reports a charge of `chargeId`. -/
def ChainEvent.charges (row : ChainEvent) (chargeId : Hash) : Bool :=
  match row.payload with
  | .stakeCharged logChargeId _ _ _ _ _ => logChargeId = chargeId
  | .positionChanged .. => false

/-- The first indexed charge of a batch. -/
def indexedCharge (db : Database) (batch : ChargeBatch) : Option ChainEvent :=
  ((db.events.filter fun row => row.identity = batch.identity ∧ row.charges batch.chargeId)
    |>.insertionSort fun a b =>
      a.blockNumber < b.blockNumber ∨ a.blockNumber = b.blockNumber ∧ a.logIndex ≤ b.logIndex).head?

/-- The receipt that an indexed charge stands for; `none` when its payload is malformed. -/
def ChainEvent.receipt (indexed : ChainEvent) : Option ChargeReceipt :=
  match indexed.payload with
  | .stakeCharged chargeId (some keywordId) (some staker) (some requestedPre) (some chargedPre) _ =>
    some
      { transactionHash := some indexed.txHash
        blockNumber := indexed.blockNumber
        blockHash := indexed.blockHash
        reverted := false
        event := some ⟨chargeId, keywordId, staker, requestedPre, chargedPre⟩ }
  | _ => none

def settleIndexedCharge (batch : ChargeBatch) (deps : ChargeDependencies) (head : ℕ) :
    Worker ChargePass Bool := do
  let found ← select fun db => indexedCharge db batch
  match found with
  | none => return false
  | some indexed =>
    if head < indexed.blockNumber + deps.confirmations then return false
    let canonical ← ChargeChain.blockHash deps indexed.blockNumber
    if canonical ≠ indexed.blockHash then return false
    match indexed.receipt with
    | none => throw (.blocked .transactionUnknown)
    | some receipt =>
      settleChargeReceipt batch receipt
      return true

/-! ### Reconciling a batch with the chain -/

/-- The batch after its receipt was found to be orphaned. -/
def ChargeBatch.reset (row : ChargeBatch) (signed : Bool) : ChargeBatch :=
  { row with
    status := if signed then .reconciling else .prepared
    chargedPreRaw := none
    shortfallPreRaw := none
    settledTxHash := none
    receiptBlockNumber := none
    receiptBlockHash := none
    errorCode := some .reorgDetected }

/-- The transaction that takes a batch back to an open state after a reorganisation. -/
def resetTx (batch : ChargeBatch) : Tx Unit := do
  updateBatch batch.id fun row =>
    row.reset (batch.txHash.isSome && batch.signedTransaction.isSome)
  modify fun db => db.updateClicks (fun row => row.batchId = some batch.id) fun row =>
    { row with status := .reserved, errorCode := some .reorgDetected }
  updateRun batch.runId fun row =>
    { row with status := .running, finishedAt := none, errorCode := some .reorgDetected }

/-- Leave a batch in flight with a status and an error code. -/
def markBatch (id : Id) (status : BatchStatus) (errorCode : ErrorCode) : Worker ChargePass Unit :=
  transaction (updateBatch id fun row =>
    { row with status := status, errorCode := some errorCode })

/-- Record that the batch's transaction was reverted. -/
def failBatch (id : Id) (receipt : ChargeReceipt) (now : ℕ) : Worker ChargePass Unit :=
  transaction (updateBatch id fun row =>
    { row with
      status := .failed
      receiptBlockNumber := some receipt.blockNumber
      receiptBlockHash := some receipt.blockHash
      errorCode := some .transactionFailed
      nextAttemptAt := some (now + 60000) })

/-- Take the batch back if its receipt block is no longer canonical; `true` means that nothing
more has to be done because it still is. -/
def reconcileReceiptBlock (batch : ChargeBatch) (deps : ChargeDependencies) :
    Worker ChargePass Bool :=
  match batch.receiptBlockNumber, batch.receiptBlockHash with
  | some block, some hash =>
    if batch.status.terminal then do
      let canonical ← ChargeChain.blockHash deps block
      if canonical = hash then return true
      transaction (resetTx batch)
      return false
    else return false
  | _, _ => return false

/-- The receipt is confirmation-deep and its block is canonical. -/
def receiptFinal (deps : ChargeDependencies) (head : ℕ) (receipt : ChargeReceipt) :
    Worker ChargePass Bool := do
  if head < receipt.blockNumber + deps.confirmations then return false
  let hash ← ChargeChain.blockHash deps receipt.blockNumber
  return hash = receipt.blockHash

/-- The branches of `reconcileChargeBatch` with a receipt. -/
def reconcileReceipt (batch : ChargeBatch) (deps : ChargeDependencies) (head : ℕ)
    (receipt : ChargeReceipt) : Worker ChargePass Bool := do
  let final ← receiptFinal deps head receipt
  if !final then
    markBatch batch.id .reconciling .waitingConfirmation
    return true
  else if receipt.reverted then
    if batch.status = .failed ∧ batch.receiptBlockHash = some receipt.blockHash then return false
    failBatch batch.id receipt deps.now
    return false
  else if receipt.event.isNone then
    if ← settleIndexedCharge batch deps head then return false
    markBatch batch.id .reconciling .transactionUnknown
    return true
  else
    settleChargeReceipt batch receipt
    return false

/-- Another batch of the wallet that still has to use this nonce. -/
def hasPredecessor (db : Database) (batch : ChargeBatch) (pendingNonce : ℕ) : Bool :=
  db.batches.any fun row => row.identity.chainId = batch.identity.chainId ∧
    row.signerAddress = batch.signerAddress ∧ row.nonce = some pendingNonce ∧
    row.status.inFlight ∧ row.id ≠ batch.id

/-- Check the nonce of a batch without a receipt; `true` means that it has to wait. -/
def reconcileNonce (batch : ChargeBatch) (deps : ChargeDependencies) : Worker ChargePass Bool :=
  match batch.nonce, batch.signerAddress with
  | some nonce, some signerAddress => do
    let pendingNonce : ℕ ← ChargeChain.pendingNonce deps signerAddress
    if pendingNonce < nonce then
      let predecessor ← select fun db => hasPredecessor db batch pendingNonce
      let errorCode : ErrorCode := if predecessor then .waitingConfirmation else .nonceGap
      markBatch batch.id .reconciling errorCode
      if predecessor then return true else throw (.blocked errorCode)
    else return false
  | _, _ => return false

/-- Check the captures of a batch before it is sent again; `true` means that it has to wait. -/
def reconcileCapture (batch : ChargeBatch) (deps : ChargeDependencies) (head : ℕ) :
    Worker ChargePass Bool := do
  try
    assertBatchCapture batch deps head
    pure false
  catch error =>
    markBatch batch.id .reconciling error.code
    -- A signed orphan owns a nonce; operator reconciliation is required before new sends.
    if error.code = .waitingConfirmation then pure true else throw error

/-- Send the signed bytes of a batch. -/
def rebroadcast (batch : ChargeBatch) (deps : ChargeDependencies) (raw txHash : Hash) :
    Worker ChargePass Unit := do
  try
    let hash : ℕ ← ChargeChain.broadcast deps raw
    if hash ≠ txHash then throw (.blocked .transactionUnknown)
    else markBatch batch.id .submitted .waitingConfirmation
  catch error =>
    -- An RPC timeout after acceptance is unresolved, never a reason to charge again.
    markBatch batch.id .reconciling
      (if error = .blocked .insufficientGas then .insufficientGas else .transactionUnknown)
    if error = .blocked .insufficientGas then throw error

/-- `true` means that the batch waits for its transaction. -/
def reconcileChargeBatch (batch : ChargeBatch) (deps : ChargeDependencies) (head : ℕ) :
    Worker ChargePass Bool := do
  if ← reconcileReceiptBlock batch deps then return false
  match batch.txHash, batch.signedTransaction with
  | some txHash, some raw =>
    match ← ChargeChain.receipt deps txHash batch.chargeId with
    | some receipt => reconcileReceipt batch deps head receipt
    | none =>
      if ← ChargeChain.processed deps batch.chargeId then
        if ← settleIndexedCharge batch deps head then return false
        markBatch batch.id .reconciling .transactionUnknown
        return true
      else if ← reconcileNonce batch deps then return true
      else if ← reconcileCapture batch deps head then return true
      else
        rebroadcast batch deps raw txHash
        return true
  | _, _ => return false

/-! ### Signing a batch -/

/-- The batch with a new signature. -/
def ChargeBatch.sign (row : ChargeBatch) (signer : Address) (nonce : ℕ)
    (transaction : SignedTransaction) : ChargeBatch :=
  { row with
    status := .signed
    signerAddress := some signer
    nonce := some nonce
    txHash := some transaction.hash
    signedTransaction := some transaction.raw
    errorCode := none
    attemptCount := row.attemptCount + 1
    nextAttemptAt := none
    receiptBlockNumber := none
    receiptBlockHash := none }

/-- The last update of the signing transaction; it returns the updated row. -/
def signTx (id : Id) (signer : Address) (nonce : ℕ) (transaction : SignedTransaction) :
    Tx (Option ChargeBatch) := do
  let db ← get
  -- `@@unique([chainId, signerAddress, nonce])`
  let chainId := (db.batches.find? fun row => row.id = id).map (·.identity.chainId)
  if db.batches.any fun row => some row.identity.chainId = chainId ∧ row.id ≠ id ∧
      row.signerAddress = some signer ∧ row.nonce = some nonce then throw .other
  else
    updateBatch id fun row => row.sign signer nonce transaction
    let db ← get
    return db.batches.find? fun row => row.id = id

/-- The body of the signing transaction, which holds the wallet lock. -/
def signBatch (batch : ChargeBatch) (deps : ChargeDependencies) (signer : Address) :
    Worker ChargePass (Option ChargeBatch) := do
  let wallet : Wallet := ⟨deps.identity.chainId, signer⟩
  let reservation ← readKeywordMarketWalletReservation wallet (some batch.id) none
  let found ← select fun db => db.batches.find? fun row => row.id = batch.id
  match found with
  | none => throw .other
  | some saved =>
    if saved.status.inFlight then commitLocked .charge wallet (pure (some saved))
    else if saved.status.terminal then commitLocked .charge wallet (pure none)
    else if reservation.pending then throw (.blocked .waitingConfirmation)
    else
      let pendingNonce : ℕ ← ChargeChain.pendingNonce deps signer
      if reservation.latestNonce.any (pendingNonce ≤ ·) then throw (.blocked .nonceGap)
      else
        let signed ← ChargeChain.sign saved signer pendingNonce
        commitLocked .charge wallet (signTx batch.id signer pendingNonce signed)

/-- Close a batch whose position is gone at the finalized block. -/
def closePosition (batch : ChargeBatch) (deps : ChargeDependencies) (errorCode : ErrorCode)
    (finalizedBlock : ℕ) : Worker ChargePass Unit := do
  let hash ← ChargeChain.blockHash deps finalizedBlock
  uncollectable batch errorCode finalizedBlock hash

/-- `true` means that the batch waits for its transaction. -/
def prepareBatch (batch : ChargeBatch) (deps : ChargeDependencies) (signer : Address)
    (head : ℕ) : Worker ChargePass Bool := do
  let finalizedBlock := deps.finalizedBlock head
  assertBatchCapture batch deps head
  let finalized : StakeDetails ← ChargeChain.position deps batch (some finalizedBlock)
  if finalized.positionVersion ≠ batch.positionVersion then
    closePosition batch deps .positionVersionMismatch finalizedBlock
    return false
  else if finalized.amount = 0 then
    closePosition batch deps .positionMissing finalizedBlock
    return false
  else
    let current : StakeDetails ← ChargeChain.position deps batch none
    if current.positionVersion ≠ batch.positionVersion ∨ current.amount = 0 then
      throw (.blocked .waitingConfirmation)
    else if ← ChargeChain.processed deps batch.chargeId then
      throw (.blocked .transactionUnknown)
    else
      let signed ← withWalletLock .charge ⟨deps.identity.chainId, signer⟩
        (signBatch batch deps signer)
      -- The database commits the signed bytes and nonce before the first broadcast.
      match signed with
      | some signed => reconcileChargeBatch signed deps head
      | none => return false

/-! ### The pass -/

/-- The balance of the wallet that an earlier pass has read. -/
structure WalletBalance where
  address : Address
  balance : ℕ
  checkedAt : ℕ

/-- How long a wallet balance may be shown before it is read again. -/
def adWalletRefreshIntervalMs (settings : ChargeSettings) : ℕ :=
  if settings.automaticEnabled ∧ 1 ≤ settings.intervalMinutes ∧
      settings.intervalMinutes ≤ 2147483647 then settings.intervalMinutes * 60000
  else 10 * 60000

/-- The batch was closed above the saved checkpoint, or by no block. -/
def ChargeBatch.aboveCheckpoint (settings : ChargeSettings) (row : ChargeBatch) : Bool :=
  match row.receiptBlockNumber with
  | some block => settings.reconciliationBlockNumber.any (· < block)
  | none => true

/-- The batches that have to be reconciled: those that are open on the chain, and the closed ones
above the last checkpoint if that checkpoint is still canonical. -/
def reconcilableBatches (db : Database) (settings : ChargeSettings) (identity : Identity)
    (previousCanonical : Bool) : List ChargeBatch :=
  db.batches.filter fun row => row.identity = identity ∧
    (row.status.inFlight ∨ row.status = .failed ∨
      row.status.terminal ∧ (previousCanonical → row.aboveCheckpoint settings))

/-- The saved checkpoint is still on the canonical chain. -/
def checkpointCanonical (deps : ChargeDependencies) (settings : ChargeSettings)
    (finalizedBlock : ℕ) : Worker ChargePass Bool :=
  match settings.reconciliationBlockNumber, settings.reconciliationBlockHash with
  | some block, some hash =>
    if block ≤ finalizedBlock then do
      let canonical ← ChargeChain.blockHash deps block
      return canonical = hash
    else return false
  | _, _ => return false

/-- The reconciliation section of a pass. -/
def reconcileSection (deps : ChargeDependencies) (settings : ChargeSettings) :
    Worker ChargePass Unit := do
  let head ← ChargeChain.head deps
  modify fun pass => { pass with head := head }
  let finalizedBlock := deps.finalizedBlock head
  let finalizedHash ← ChargeChain.blockHash deps finalizedBlock
  let previousCanonical ← checkpointCanonical deps settings finalizedBlock
  validateClickEvidence deps finalizedBlock
  let batches ← select fun db => reconcilableBatches db settings deps.identity previousCanonical
  for batch in batches do
    let wait ← reconcileChargeBatch batch deps head
    modify fun pass =>
      { pass with
        waiting := wait || pass.waiting
        reconciledRuns :=
          if batch.runId ∈ pass.reconciledRuns then pass.reconciledRuns
          else pass.reconciledRuns ++ [batch.runId] }
  -- Checkpoint the hash read before the pass; a concurrent reorg is detected next tick.
  modify fun pass =>
    { pass with reconciliationCheckpoint := some (finalizedBlock, finalizedHash) }

/-- The balance of the wallet: the one an earlier pass has read, unless it is too old, zero, or of
another wallet, or a manual run asks. -/
def walletBalance (deps : ChargeDependencies) (settings : ChargeSettings) (runId : Option Id)
    (cached : Option WalletBalance) (signer : Address) : Worker ChargePass ℕ :=
  match cached.filter fun saved =>
      runId.isNone ∧ saved.address = signer ∧ saved.balance ≠ 0 ∧ saved.checkedAt ≤ deps.now ∧
        deps.now < saved.checkedAt + adWalletRefreshIntervalMs settings with
  | some saved => return saved.balance
  | none => ChargeChain.balance deps signer

/-- The section of a pass that unlocks and checks the operator wallet. -/
def walletSection (deps : ChargeDependencies) (settings : ChargeSettings) (runId : Option Id)
    (cached : Option WalletBalance) : Worker ChargePass Unit := do
  ChargeChain.verify deps
  let signer : ℕ ← ask .unlockOperator
  modify fun pass => { pass with signer := some signer }
  let operator : ℕ ← ChargeChain.operator deps
  modify fun pass => { pass with operator := some operator }
  if signer ≠ operator then throw (.blocked .operatorMismatch)
  else
    let balance ← walletBalance deps settings runId cached signer
    modify fun pass => { pass with balance := some balance }
    if balance = 0 then throw (.blocked .insufficientGas)

/-- Run a section of the pass; an error blocks the rest of it. -/
def blocking (section_ : Worker ChargePass Unit) : Worker ChargePass Unit := do
  try
    section_
  catch error =>
    modify fun pass => { pass with blocked := some error.code }

/-- Run a section of the pass that a blocked pass leaves out. -/
def unlessBlocked (section_ : Worker ChargePass Unit) : Worker ChargePass Unit := do
  let pass ← get
  if pass.blocked.isNone then section_

/-- The settings after the reconciliation of a pass. -/
def ChargeSettings.report (row : ChargeSettings) (deps : ChargeDependencies) (pass : ChargePass) :
    ChargeSettings :=
  { row with
    reconciliationBlockNumber :=
      (pass.reconciliationCheckpoint.map (·.1)).or row.reconciliationBlockNumber
    reconciliationBlockHash :=
      (pass.reconciliationCheckpoint.map (·.2)).or row.reconciliationBlockHash
    workerHeartbeatAt := some deps.now
    signerAddress := pass.signer
    operatorAddress := pass.operator
    gasBalanceRaw := pass.balance
    readiness :=
      if pass.blocked.isSome then .blocked else if pass.waiting then .waitingConfirmation
      else .ready
    errorCode := pass.blocked.or (if pass.waiting then some .waitingConfirmation else none) }

/-- Update a row of settings and return it. -/
def saveSettings (identity : Identity) (f : ChargeSettings → ChargeSettings) :
    Tx ChargeSettings := do
  updateSettings identity f
  let db ← get
  findOrThrow db.settings fun row => row.identity = identity

/-- Start an automatic run if automatic charging is on, none is open and a group of clicks is
due. -/
def startAutomaticRun (deps : ChargeDependencies) (settings : ChargeSettings) (pass : ChargePass)
    (runId : Option Id) (runs : List ChargeRun) : Worker ChargePass (List ChargeRun) := do
  if runId.isSome ∨ !settings.automaticEnabled ∨ pass.blocked.isSome ∨ runs.any fun run =>
      run.trigger = .auto ∧ run.errorCode ≠ some .captureProofOrphaned then
    return runs
  else
    let clicks ← select fun db => db.clicks.filter fun click =>
      click.identity = deps.identity ∧ click.status = .pending ∧ click.batchId = none
    if (groups clicks).any fun group => chargeGroupDue group settings deps.now then
      let random : ℕ → Id ← ask .random
      let run : ChargeRun := ⟨random 0, deps.identity, .auto, .queued, none, none, none⟩
      transaction (createRun run)
      return runs ++ [run]
    else return runs

/-- Run `p` and keep its error code. -/
def attempt {μ α : Type} (p : Worker μ α) : Worker μ (Except ErrorCode α) := do
  try
    let a ← p
    pure (.ok a)
  catch error => pure (.error error.code)

/-- A setting change between queued work and signing must stop automatic sends. -/
def sendingEnabled (run : ChargeRun) (deps : ChargeDependencies) : Worker ChargePass Bool :=
  if run.trigger = .auto then do
    let found ← select fun db => db.settings.find? fun row => row.identity = deps.identity
    match found with
    | none => throw .other
    | some settings => return settings.automaticEnabled
  else return true

/-- The loop over the unsent batches of a run; it returns the failure that stopped it. -/
def prepareBatches (run : ChargeRun) (deps : ChargeDependencies) (signer : Address) (head : ℕ) :
    List ChargeBatch → Option ErrorCode → Worker ChargePass (Option ErrorCode)
  | [], failure => return failure
  | batch :: rest, failure =>
    if batch.nextAttemptAt.any (deps.now < ·) then
      prepareBatches run deps signer head rest failure
    else do
      let enabled ← sendingEnabled run deps
      if !enabled then return failure
      match ← attempt (prepareBatch batch deps signer head) with
      | .ok wait =>
        modify fun pass => { pass with waiting := wait || pass.waiting }
        let pass ← get
        if pass.waiting then return failure
        prepareBatches run deps signer head rest failure
      | .error code =>
        transaction (updateBatch batch.id fun row => { row with errorCode := some code })
        if code = .captureProofOrphaned then
          prepareBatches run deps signer head rest (some code)
        else return some code

/-- One run of the run loop. -/
def processRun (deps : ChargeDependencies) (settings : ChargeSettings) (run : ChargeRun) :
    Worker ChargePass Unit := do
  if run.trigger = .auto ∧ !settings.automaticEnabled then return
  let pass ← get
  match pass.blocked, pass.signer with
  | none, some signer =>
    reserveRun run settings deps pass.head
    let batches ← select fun db => db.batches.filter fun row =>
      row.runId = run.id ∧ (row.status = .prepared ∨ row.status = .failed)
    let failure ← prepareBatches run deps signer pass.head batches none
    refreshRun run.id deps.now failure
    if failure.any fun code => code ≠ .waitingConfirmation ∧ code ≠ .captureProofOrphaned then
      modify fun pass => { pass with blocked := failure }
  | blocked, _ =>
    transaction (updateRun run.id fun row =>
      { row with
        status := .blocked
        errorCode := blocked.or (some .keystoreInvalid) })

/-- How a pass ended. -/
inductive Outcome where
  | completed | unchanged | waitingConfirmation | blocked
deriving DecidableEq

/-- What a pass returns. -/
structure JobResult where
  outcome : Outcome
  errorCode : Option ErrorCode

/-- The result of a charge pass. -/
def ChargePass.result (pass : ChargePass) : JobResult where
  outcome :=
    if pass.blocked.isSome then .blocked
    else if pass.waiting then .waitingConfirmation else .completed
  errorCode := pass.blocked

/-- The last update of the settings. -/
def ChargeSettings.reportEnd (row : ChargeSettings) (pass : ChargePass) : ChargeSettings :=
  { row with
    readiness := if pass.blocked.isSome then .blocked else .waitingConfirmation
    errorCode := pass.blocked.or (some .waitingConfirmation) }

/-- A charge pass, of one run or of all open runs. -/
def processAdChargeJob (ext : External) (deps : ChargeDependencies) (runId : Option Id)
    (cached : Option WalletBalance) : Worker ChargePass JobResult := do
  let settings ← transaction do
    modify fun db => db.upsertSettings deps.identity
    let db ← get
    findOrThrow db.settings fun row => row.identity = deps.identity
  convertPendingPrices ext deps.identity deps.now
  blocking (reconcileSection deps settings)
  unlessBlocked (blocking (walletSection deps settings runId cached))
  let pass ← get
  let settings ← transaction (saveSettings deps.identity fun row => row.report deps pass)
  for run in pass.reconciledRuns do
    refreshRun run deps.now none
  let runs ← select fun db => db.runs.filter fun run =>
    run.identity = deps.identity ∧ run.status.recoverable ∧ runId.all (· = run.id)
  let runs ← startAutomaticRun deps settings pass runId runs
  for run in runs do
    processRun deps settings run
  let pass ← get
  if pass.waiting ∨ pass.blocked.isSome then
    transaction (updateSettings deps.identity fun row => row.reportEnd pass)
    return pass.result
  else return pass.result

end Market

end PreCommunity
