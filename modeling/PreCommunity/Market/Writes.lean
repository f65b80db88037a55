import PreCommunity.Market.Effects

/-!
# What the processes write

Every write of every job, with what the job knows when it makes it.  What a job knows is in its
log: the answers it was given and the tables it read.  Everything later is proved about these
writes, and the jobs' programs are shown once to make no others.

* `SawHash`, `RevertProof`, … : what a log says.
* `ChargeWrite`, `PublicationWrite`, `CaptureWrite`, `RetainWrite`, `IndexWrite`, `AdminWrite` :
  the writes, by job.
* `JobWrite`, `JobAsks` : the writes and the questions of a job.
-/

namespace PreCommunity

namespace Market

open Store Concurrent

/-! ### What a log says -/

/-- The question was answered so. -/
def Heard (h : Log) (q : Query) (r : Reply q) : Prop := ∃ w, .asked w q (.ok r) ∈ h

/-- The tables were read in the state `w`. -/
def ReadIn (h : Log) (w : World) : Prop := .ran w w ∈ h

/-- The node named `hash` as the canonical block number `block`. -/
def SawHash (chainId : ℕ) (h : Log) (block : ℕ) (hash : Hash) : Prop :=
  Heard h (.blockHash chainId block) hash

/-- Whether automatic charging is on for a deployment. -/
def Database.automatic (db : Database) (identity : Identity) : Bool :=
  (db.settings.find? fun row => row.identity = identity).any (·.automaticEnabled)

/-- The switch for automatic charging was read, and it was on. -/
def SawAutomatic (identity : Identity) (h : Log) : Prop :=
  ∃ w, ReadIn h w ∧ w.db.automatic identity = true

/-- The node reported the head `head`. -/
def SawHead (chainId : ℕ) (h : Log) (head : ℕ) : Prop := Heard h (.blockNumber chainId) head

section

variable {h h' : Log} {q : Query} {r : Reply q}

theorem Heard.mono (hr : Heard h q r) (hs : ∀ e ∈ h, e ∈ h') : Heard h' q r :=
  hr.imp fun _ => hs _

theorem Heard.cons (hr : Heard h q r) (e : Event World Reply Failure) : Heard (e :: h) q r :=
  hr.mono fun _ => List.mem_cons_of_mem _

theorem heard_asked {w : World} : Heard (.asked w q (.ok r) :: h) q r := ⟨w, .head _⟩

end

/-- The answer to a question about block hashes. -/
def blockHashAnswer (chainId : ℕ) : Event World Reply Failure → Option (ℕ × Hash)
  | .asked _ (.blockHash id block) (.ok hash) => if id = chainId then some (block, hash) else none
  | _ => none

/-- The first block hash that the process was given. -/
def FirstHash (chainId : ℕ) (h : Log) (block : ℕ) (hash : Hash) : Prop :=
  (h.filterMap (blockHashAnswer chainId)).getLast? = some (block, hash)

theorem FirstHash.cons {chainId block : ℕ} {hash : Hash} {h : Log}
    (hf : FirstHash chainId h block hash) (e : Event World Reply Failure) :
    FirstHash chainId (e :: h) block hash := by
  unfold FirstHash at *
  rw [List.filterMap_cons]
  cases blockHashAnswer chainId e with
  | none => exact hf
  | some a => rw [List.getLast?_cons, hf]; rfl

/-- The saved checkpoint of a deployment. -/
def Database.checkpoint (db : Database) (identity : Identity) : Option (ℕ × Hash) :=
  (db.settings.find? fun row => row.identity = identity).bind fun row =>
    row.reconciliationBlockNumber.bind fun block =>
      row.reconciliationBlockHash.map fun hash => (block, hash)

section

variable (deps : ChargeDependencies)

/-- The saved checkpoint is the one that was saved whenever the pass acted, or it is the first
block hash the pass was given. -/
def CheckpointKept (h : Log) (w : World) : Prop :=
  (∀ e ∈ h, e.before.db.checkpoint deps.identity = w.db.checkpoint deps.identity) ∨
    ∃ block hash, w.db.checkpoint deps.identity = some (block, hash) ∧
      FirstHash deps.identity.chainId h block hash

/-- The block is confirmation-deep and was named as canonical. -/
def FinalBlock (h : Log) (block : ℕ) (hash : Hash) : Prop :=
  (∃ head, SawHead deps.identity.chainId h head ∧ block + deps.confirmations ≤ head) ∧
    SawHash deps.identity.chainId h block hash

/-- The node returned a reverted receipt of the transaction `txHash` in a final block. -/
def RevertProof (h : Log) (txHash : Hash) : Prop :=
  ∃ receipt : TransactionReceipt,
    Heard h (.transactionReceipt deps.identity.chainId txHash) (some receipt) ∧
      receipt.reverted = true ∧ FinalBlock deps h receipt.blockNumber receipt.blockHash

/-- The transaction was seen reverted, and after that the charge was not processed. -/
def DeadTransaction (h : Log) (txHash chargeId : Hash) : Prop :=
  ∃ h₁ w, (.asked w (.chargeProcessed deps.identity chargeId) (.ok false) :: h₁) <:+ h ∧
    RevertProof deps h₁ txHash

/-- A block reference is deep enough below `head` and was named as canonical. -/
def EvidenceSeen (h : Log) (head : ℕ) (block : ℕ) (hash : Option Hash) : Prop :=
  block ≤ deps.finalizedBlock head ∧
    ∃ hash', hash = some hash' ∧ SawHash deps.identity.chainId h block hash'

/-- Both block references of a click were checked. -/
def CaptureSeen (h : Log) (head : ℕ) (click : BillingClick) : Prop :=
  (∃ block, click.bidBlockNumber = some block ∧ EvidenceSeen deps h head block click.bidBlockHash) ∧
    ∀ block, click.priceBlockNumber = some block →
      EvidenceSeen deps h head block click.priceBlockHash

/-- A run of the deployment is manual, or automatic charging was seen on. -/
def SendingSeen (h : Log) (runId : Id) (w : World) : Prop :=
  ∃ run ∈ w.db.runs, run.id = runId ∧ run.identity = deps.identity ∧
    (run.trigger = .auto → SawAutomatic deps.identity h)

end

/-- The two rows are one debt: what a batch keeps for life. -/
structure ChargeBatch.SameDebt (a b : ChargeBatch) : Prop where
  id : a.id = b.id
  chargeId : a.chargeId = b.chargeId
  identity : a.identity = b.identity
  keywordId : a.keywordId = b.keywordId
  stakerAddress : a.stakerAddress = b.stakerAddress
  positionVersion : a.positionVersion = b.positionVersion
  clickCount : a.clickCount = b.clickCount
  duePreRaw : a.duePreRaw = b.duePreRaw
  requestedPreRaw : a.requestedPreRaw = b.requestedPreRaw

/-- The batch has a transaction that may be on the chain. -/
def ChargeBatch.Sent (row : ChargeBatch) : Prop :=
  row.status.inFlight = true ∨ row.status = .failed

/-- The batch is not sent yet, or its last transaction was reverted. -/
def ChargeBatch.Unsent (row : ChargeBatch) : Prop :=
  row.status = .prepared ∨ row.status = .failed

/-! ### The charge worker -/

section

variable (ext : External) (deps : ChargeDependencies) (h : Log)

/-- Whether the reconciliation section may save the checkpoint: every closed batch was checked in
this pass, or was closed below a checkpoint that was still canonical. -/
def Reconciled (w : World) (block : ℕ) (hash : Hash) : Prop :=
  FirstHash deps.identity.chainId h block hash ∧
    (∀ e ∈ h, e.before.db.checkpoint deps.identity = w.db.checkpoint deps.identity) ∧
    ∀ row ∈ w.db.batches, row.identity = deps.identity → row.status.terminal = true →
      ∀ n, row.receiptBlockNumber = some n →
        (∃ hash', row.receiptBlockHash = some hash' ∧
          SawHash deps.identity.chainId h n hash') ∨
        ∃ w₀ block₀ hash₀, .asked w₀ (.blockHash deps.identity.chainId block₀) (.ok hash₀) ∈ h ∧
          w₀.db.checkpoint deps.identity = some (block₀, hash₀) ∧ n ≤ block₀ ∧
          row ∈ w₀.db.batches

/-- What a charge pass knows when it signs `row` in `w`; `w₀` is the world in which it read the
other journal under the lock. -/
structure ChargeSigning (w w₀ : World) (row : ChargeBatch) (signer : Address) (nonce head : ℕ) :
    Prop where
  mem : row ∈ w.db.batches
  unsent : row.Unsent
  identity : row.identity = deps.identity
  locked : w.Locks .charge ⟨deps.identity.chainId, signer⟩
  /-- The reservation, as far as the own journal goes. -/
  batches : ∀ other ∈ w.db.batches, other.ofWallet ⟨deps.identity.chainId, signer⟩ = true →
    (∀ n, other.nonce = some n → n < nonce) ∧ (other.status.inFlight = true → other.id = row.id)
  /-- The reservation, as far as the other journal goes. -/
  publications : ∀ other ∈ w.db.publications,
    other.ofWallet ⟨deps.identity.chainId, signer⟩ = true →
      (∀ n, other.nonce = some n → n < nonce) ∧ ∃ other₀ ∈ w₀.db.publications,
        other₀.id = other.id ∧ other₀.nonce = other.nonce ∧ other₀.status.inFlight = false
  read : ReadIn h w₀
  lockedRead : w₀.Locks .charge ⟨deps.identity.chainId, signer⟩
  /-- The last transaction is dead. -/
  dead : ∀ txHash, row.txHash = some txHash → DeadTransaction deps h txHash row.chargeId
  sawHead : SawHead deps.identity.chainId h head
  /-- The evidence of the clicks. -/
  evidence : ∀ click ∈ w.db.clicks, click.batchId = some row.id → CaptureSeen deps h head click
  /-- The run is manual, or automatic charging was seen on. -/
  sending : SendingSeen deps h row.runId w

/-- The writes of a charge pass. -/
inductive ChargeWrite : World → World → Prop where
  | idle {w : World} : ChargeWrite w w
  | lock {w : World} {wallet : Wallet} :
      (∀ l ∈ w.walletLocks, l.1 = wallet → l.2 = .charge) → ChargeWrite w (w.lock .charge wallet)
  | release {w : World} : ChargeWrite w (w.release .charge)
  | upsertSettings {w : World} : ChargeWrite w (w.withDb (w.db.upsertSettings deps.identity))
  /-- Close captures that were interrupted. -/
  | interrupt {w : World} : ChargeWrite w (w.withDb (w.db.updateClicks (fun click =>
      click.identity = deps.identity ∧ click.status = .capturing ∧
        click.clickedAt < deps.now - 5 * 60000) BillingClick.interrupt))
  /-- Convert a click that was read waiting for its price, with a stored price that was fresh. -/
  | convert {w w₁ w₂ : World} {snapshot : IndexerState} {price quotedAt bid amount : ℕ}
      {click : BillingClick} :
      ReadIn h w₁ → w₁.db.indexers.find? (fun row => row.identity = deps.identity) = some snapshot →
      snapshot.freshPrice deps.now = some (price, quotedAt) →
      ReadIn h w₂ → click ∈ w₂.db.clicks → click.awaitsPrice = true → click.bidUsdRaw = some bid →
      billPreRaw bid (ext.formatUnits price 18) = .ok amount →
      click.identity = deps.identity →
      ChargeWrite w (w.withDb (w.db.updateClicks
        (fun row => row.id = click.id ∧ row.awaitsPrice)
        fun row => row.convert amount (ext.formatUnits price 18) (quotedAt * 1000)
          snapshot.lastBlockNumber snapshot.lastBlockHash))
  /-- Close a click whose evidence is wrong. -/
  | invalidate {w : World} {id : Id} {code : ErrorCode} :
      ChargeWrite w (w.withDb (w.db.updateClicks (fun row => row.id = id ∧ row.waiting) fun row =>
        { row with status := .unbilled, errorCode := some code }))
  /-- Reserve the clicks of a run. -/
  | reserve {w : World} {run : ChargeRun} {settings : ChargeSettings} {head : ℕ}
      {random : ℕ → Id} {ids : List Id} {db : Database} :
      (∃ row ∈ w.db.runs, row.id = run.id ∧ row.identity = deps.identity) →
      (reserveRunTx run settings deps head random).run w.db = .ok (ids, db) →
      ChargeWrite w (w.withDb db)
  /-- Settle a sent batch with a final charge of it. -/
  | settle {w : World} {batch row : ChargeBatch} {receipt : ChargeReceipt}
      {event : ChargeReceiptEvent} :
      row ∈ w.db.batches → row.SameDebt batch → row.Sent → row.identity = deps.identity →
      receipt.event = some event → event.matches batch = true →
      FinalBlock deps h receipt.blockNumber receipt.blockHash → CheckpointKept deps h w →
      ChargeWrite w (w.withDb (w.db.settle batch receipt event.chargedPre.toNat))
  /-- Close an unsent batch whose position is gone at the finalized block. -/
  | close {w : World} {row : ChargeBatch} {code : ErrorCode} {block : ℕ} {hash : Hash} :
      row ∈ w.db.batches → row.Unsent → row.identity = deps.identity →
      SawHash deps.identity.chainId h block hash → CheckpointKept deps h w →
      ChargeWrite w (w.withDb (w.db.closeBatch row code block hash))
  /-- Reopen a closed batch whose receipt block is no longer canonical. -/
  | reset {w : World} {row : ChargeBatch} {block : ℕ} {hash hash' : Hash} :
      row ∈ w.db.batches → row.status.terminal = true → row.identity = deps.identity →
      row.receiptBlockNumber = some block → row.receiptBlockHash = some hash →
      SawHash deps.identity.chainId h block hash' → hash' ≠ hash →
      (∃ run ∈ w.db.runs, run.id = row.runId) → ChargeWrite w (w.withDb (w.db.reset row))
  /-- Keep a sent batch in flight. -/
  | mark {w : World} {row : ChargeBatch} {status : BatchStatus} {code : ErrorCode} :
      row ∈ w.db.batches → row.Sent → status = .reconciling ∨ status = .submitted →
      ChargeWrite w (w.withDb (w.db.mapBatch row.id fun row =>
        { row with status := status, errorCode := some code }))
  /-- Record that the transaction of a sent batch was reverted. -/
  | fail {w : World} {row : ChargeBatch} {txHash : Hash} {receipt : ChargeReceipt} :
      row ∈ w.db.batches → row.Sent → row.txHash = some txHash → RevertProof deps h txHash →
      ChargeWrite w (w.withDb (w.db.mapBatch row.id fun row =>
        { row with
          status := .failed
          receiptBlockNumber := some receipt.blockNumber
          receiptBlockHash := some receipt.blockHash
          errorCode := some .transactionFailed
          nextAttemptAt := some (deps.now + 60000) }))
  /-- Sign an unsent batch under the wallet lock, and commit. -/
  | sign {w w₀ : World} {row : ChargeBatch} {signer : Address} {nonce head : ℕ}
      {signed : SignedTransaction} :
      ChargeSigning deps h w w₀ row signer nonce head →
      ChargeWrite w ((w.withDb (w.db.mapBatch row.id fun row =>
        row.sign signer nonce signed)).release .charge)
  /-- Note an error on a batch. -/
  | note {w : World} {id : Id} {code : ErrorCode} :
      ChargeWrite w (w.withDb (w.db.mapBatch id fun row => { row with errorCode := some code }))
  /-- Change the status of a run; it ends only when all its batches are closed. -/
  | runStatus {w : World} {id : Id} {f : ChargeRun → ChargeRun} :
      (∀ run, (f run).id = run.id ∧ (f run).identity = run.identity ∧
        (f run).trigger = run.trigger ∧ (f run).startedAt = run.startedAt) →
      (∀ run, (f run).status.recoverable = true ∨
        ∀ row ∈ w.db.batches, row.runId = id → row.status.terminal = true) →
      ChargeWrite w (w.withDb (w.db.mapRun id f))
  | createRun {w : World} {id : Id} : (∀ row ∈ w.db.runs, row.id ≠ id) →
      ChargeWrite w (w.withDb (w.db.withRuns
        (w.db.runs ++ [⟨id, deps.identity, .auto, .queued, none, none, none⟩])))
  /-- Report the reconciliation, with a checkpoint if it was completed. -/
  | report {w : World} {pass : ChargePass} :
      (∀ block hash, pass.reconciliationCheckpoint = some (block, hash) →
        Reconciled deps h w block hash) →
      ChargeWrite w (w.withDb (w.db.mapSettings deps.identity fun row => row.report deps pass))
  | reportEnd {w : World} {pass : ChargePass} :
      ChargeWrite w (w.withDb (w.db.mapSettings deps.identity fun row => row.reportEnd pass))

end

/-! ### The price publication worker -/

/-- The update leaves alone what a publication is and how it was signed. -/
structure KeepsSignature (f : PricePublication → PricePublication) : Prop where
  id : ∀ row, (f row).id = row.id
  identity : ∀ row, (f row).identity = row.identity
  quotedAt : ∀ row, (f row).quotedAt = row.quotedAt
  priceE18Raw : ∀ row, (f row).priceE18Raw = row.priceE18Raw
  signerAddress : ∀ row, (f row).signerAddress = row.signerAddress
  nonce : ∀ row, (f row).nonce = row.nonce
  txHash : ∀ row, (f row).txHash = row.txHash
  signedTransaction : ∀ row, (f row).signedTransaction = row.signedTransaction

/-- The update confirms no row, and leaves the receipt of a confirmed row alone. -/
def KeepsConfirmed (f : PricePublication → PricePublication) : Prop :=
  ∀ row, (f row).status = .confirmed → row.status = .confirmed ∧
    (f row).receiptBlockNumber = row.receiptBlockNumber ∧
    (f row).receiptBlockHash = row.receiptBlockHash

section

variable (deps : PricePublicationDependencies) (h : Log)

/-- What a publication pass knows when it confirms `row` with `receipt`: the node returned this
receipt of the row's transaction, not reverted, in a final block, and either it reports the row's
price or the contract had the row's price in that block. -/
structure PublicationProof (row : PricePublication) (receipt : PricePublicationReceipt) : Prop where
  heard : ∃ txHash found, row.txHash = some txHash ∧
    Heard h (.transactionReceipt deps.identity.chainId txHash) (some found) ∧
    found.blockNumber = receipt.blockNumber ∧ found.blockHash = receipt.blockHash ∧
    found.reverted = false ∧ receipt.event =
      found.logs.foldl (fun event log => (log.price deps.identity.contractAddress).or event) none
  deep : ∃ head, SawHead deps.identity.chainId h head ∧
    receipt.blockNumber ≤ finalizedAdsBlock head deps.confirmations
  canonical : SawHash deps.identity.chainId h receipt.blockNumber receipt.blockHash
  price : receipt.event = some ⟨row.priceE18Raw, row.quotedAt⟩ ∨ receipt.event = none ∧
    Heard h (.preUsdPriceE18 deps.identity receipt.blockNumber) row.priceE18Raw ∧
    Heard h (.preUsdPriceQuotedAt deps.identity receipt.blockNumber) row.quotedAt

/-- What a publication pass knows when it signs `row` in `w`; `w₀` is the world in which it read
the other journal under the lock. -/
structure PublicationSigning (w w₀ : World) (row : PricePublication) (signer : Address)
    (nonce : ℕ) : Prop where
  mem : row ∈ w.db.publications
  unsent : row.status.inFlight = false
  identity : row.identity = deps.identity
  locked : w.Locks .publication ⟨deps.identity.chainId, signer⟩
  publications : ∀ other ∈ w.db.publications,
    other.ofWallet ⟨deps.identity.chainId, signer⟩ = true →
      (∀ n, other.nonce = some n → n < nonce) ∧ (other.status.inFlight = true → other.id = row.id)
  batches : ∀ other ∈ w.db.batches, other.ofWallet ⟨deps.identity.chainId, signer⟩ = true →
    (∀ n, other.nonce = some n → n < nonce) ∧ ∃ other₀ ∈ w₀.db.batches,
      other₀.id = other.id ∧ other₀.nonce = other.nonce ∧ other₀.status.inFlight = false
  read : ReadIn h w₀
  lockedRead : w₀.Locks .publication ⟨deps.identity.chainId, signer⟩

/-- The writes of a publication pass. -/
inductive PublicationWrite : World → World → Prop where
  | idle {w : World} : PublicationWrite w w
  | lock {w : World} {wallet : Wallet} :
      (∀ l ∈ w.walletLocks, l.1 = wallet → l.2 = .publication) →
      PublicationWrite w (w.lock .publication wallet)
  | release {w : World} : PublicationWrite w (w.release .publication)
  /-- Change the status of a row, but do not confirm it. -/
  | update {w : World} {id : Id} {f : PricePublication → PricePublication} :
      KeepsSignature f → KeepsConfirmed f →
      PublicationWrite w (w.withDb (w.db.mapPublication id f))
  /-- Confirm a row. -/
  | confirm {w : World} {row : PricePublication} {receipt : PricePublicationReceipt} :
      row ∈ w.db.publications → row.identity = deps.identity → PublicationProof deps h row receipt →
      PublicationWrite w (w.withDb (w.db.mapPublication row.id fun row =>
        row.withReceipt .confirmed none receipt none))
  /-- Close the open rows that the contract has overtaken. -/
  | supersede {w : World} {quotedAt : ℕ} :
      PublicationWrite w (w.withDb (w.db.withPublications (updateWhere (fun row =>
        row.identity = deps.identity ∧ row.quotedAt ≤ quotedAt ∧
          (row.status = .prepared ∨ row.status = .failed))
        (fun row => { row with status := .superseded, errorCode := none }) w.db.publications)))
  | insert {w : World} {id : Id} {quote : ℕ × ℕ × Id} :
      (∀ row ∈ w.db.publications, row.id ≠ id) →
      PublicationWrite w (w.withDb (w.db.withPublications
        (w.db.publications ++ [.create id deps.identity quote])))
  /-- Sign a row under the wallet lock, and commit. -/
  | sign {w w₀ : World} {row : PricePublication} {signer : Address} {nonce : ℕ}
      {signed : SignedTransaction} :
      PublicationSigning deps h w w₀ row signer nonce →
      PublicationWrite w ((w.withDb (w.db.mapPublication row.id fun row =>
        row.sign signer nonce signed)).release .publication)

end

/-! ### Clicks and retention -/

section

variable (ext : External) (request : CaptureRequest) (h : Log)

/-- The position that a capture used was read: live at one block number, after the hash of that
block, or from one state of the projection. -/
inductive PositionRead : BillingPosition → Prop where
  | live {block : ℕ} {hash : Hash} {details : StakeDetails} {price quotedAt : ℕ}
      {w₁ w₂ w₃ w₄ : World} {position : BillingPosition} :
      [.asked w₄ (.preUsdPriceQuotedAt request.delivery.identity block) (.ok quotedAt),
        .asked w₃ (.preUsdPriceE18 request.delivery.identity block) (.ok price),
        .asked w₂ (.stakeDetailsOf request.delivery.identity request.delivery.keywordId
          request.delivery.stakerAddress (some block)) (.ok details),
        .asked w₁ (.latestBlock request.delivery.identity.chainId) (.ok (block, hash))].Sublist h →
      billingPositionResult request.delivery details ⟨0, .rpc, block, hash, 0, 0⟩ = .ok position →
      PositionRead { position with preUsdPriceE18 := price, preUsdPriceQuotedAt := quotedAt }
  | projected {w : World} {now : ℕ} {position : BillingPosition} :
      ReadIn h w → projectedPosition request.delivery now w.db = .ok position →
      PositionRead position

/-- The process claimed the delivery. -/
def Claimed : Prop :=
  ∃ w clickedAt, (∀ row ∈ w.db.clicks, row.id ≠ request.delivery.deliveryId) ∧
    .ran w (w.withDb (w.db.withClicks
      (w.db.clicks ++ [BillingClick.claim request.delivery clickedAt]))) ∈ h

/-- The writes of a click. -/
inductive CaptureWrite : World → World → Prop where
  | idle {w : World} : CaptureWrite w w
  /-- Claim a delivery whose token was accepted. -/
  | claim {w w₁ w₂ : World} {now clickedAt : ℕ} :
      h = [.asked w₂ .now (.ok clickedAt), .asked w₁ .now (.ok now)] →
      acceptsDelivery request.delivery request.revisionId now = true →
      (∀ row ∈ w.db.clicks, row.id ≠ request.delivery.deliveryId) →
      CaptureWrite w (w.withDb (w.db.withClicks
        (w.db.clicks ++ [BillingClick.claim request.delivery clickedAt])))
  /-- Close the capture without a bill. -/
  | close {w : World} {code : ErrorCode} :
      CaptureWrite w (w.withDb (w.db.updateClicks
        (BillingClick.isCapturing request.delivery.deliveryId) fun row =>
          { row with status := .unbilled, errorCode := some code }))
  /-- Settle a click that costs nothing. -/
  | settle {w : World} {position : BillingPosition} {c : Capture} :
      Claimed request h → PositionRead request h position → capture ext position = .ok c →
      c.amountPreRaw = some 0 →
      CaptureWrite w (w.withDb (w.db.updateClicks
        (BillingClick.isCapturing request.delivery.deliveryId) fun row => row.finalize c true))
  /-- Finalise a click with its window and the totals. -/
  | finalize {w w₀ : World} {position : BillingPosition} {c : Capture} {fingerprint : Hash} :
      Claimed request h → PositionRead request h position → capture ext position = .ok c →
      c.amountPreRaw ≠ some 0 → clickBillingFingerprint ext request = some fingerprint →
      ReadIn h w₀ → (∃ row ∈ w.db.clicks, row.isCapturing request.delivery.deliveryId = true) →
      CaptureWrite w (w.withDb (w.db.finalizeClick request fingerprint c w₀.clock))

/-- The writes of the retention job. -/
inductive RetainWrite : World → World → Prop where
  | idle {w : World} : RetainWrite w w
  | retain {w w₀ : World} {now : ℕ} : Heard h .now now → ReadIn h w₀ →
      RetainWrite w (w.withDb (w.db.retain now w₀.clock))

end

/-! ### The indexer -/

section

variable (config : IndexConfig) (h : Log)

/-- The reads of the contract's configuration at a block, the newest first. -/
inductive SnapshotRead (block : ℕ) : Option AdsContractSnapshot → Log → Prop where
  | none : SnapshotRead block none []
  | some {w₁ w₂ w₃ w₄ w₅ w₆ : World} {snapshot : AdsContractSnapshot} :
      snapshot.configBlockNumber = block →
      SnapshotRead block (some snapshot)
        [.asked w₆ (.preUsdPriceQuotedAt config.identity block) (.ok snapshot.preUsdPriceQuotedAt),
          .asked w₅ (.preUsdPriceE18 config.identity block) (.ok snapshot.preUsdPriceE18Raw),
          .asked w₄ (.priceUpdater config.identity (some block)) (.ok snapshot.priceUpdaterAddress),
          .asked w₃ (.operator config.identity (some block)) (.ok snapshot.operatorAddress),
          .asked w₂ (.paused config.identity block) (.ok snapshot.paused),
          .asked w₁ (.minimumStake config.identity block) (.ok snapshot.minimumStakeRaw)]

/-- The look at a checkpoint, if there is one. -/
inductive CheckpointRead : Option AdsCheckpoint → Log → Prop where
  | none : CheckpointRead none []
  | some {w : World} {checkpoint : AdsCheckpoint} :
      CheckpointRead (some checkpoint)
        [.asked w (.blockHash config.identity.chainId checkpoint.lastBlockNumber)
          (.ok checkpoint.lastBlockHash)]

/-- The first block that continues a checkpoint. -/
def IndexConfig.next (config : IndexConfig) : Option AdsCheckpoint → ℕ
  | none => config.deploymentBlock
  | some checkpoint => checkpoint.lastBlockNumber + 1

/-- A look at the last block of a chunk and then its logs, the newest first. -/
def chunkReads (start last : ℕ) (hash : Hash) (positions : List (Placed PositionChanged))
    (charges : List (Placed StakeCharged)) (w₁ w₂ w₃ : World) : Log :=
  [.asked w₃ (.chargeLogs config.identity start last) (.ok charges),
    .asked w₂ (.positionLogs config.identity start last) (.ok positions),
    .asked w₁ (.blockHash config.identity.chainId last) (.ok hash)]

/-- The logs of two answers, in the order of the chain. -/
def sortLogs (positions : List (Placed PositionChanged)) (charges : List (Placed StakeCharged)) :
    List IndexedLog :=
  (positions.map IndexedLog.position ++ charges.map IndexedLog.charge).insertionSort
    fun a b => a.place.1 < b.place.1 ∨ a.place.1 = b.place.1 ∧ a.place.2 ≤ b.place.2

/-- The writes of an index pass. -/
inductive IndexWrite : World → World → Prop where
  | idle {w : World} : IndexWrite w w
  /-- Reset the projection after a look at a checkpoint that is no longer canonical. -/
  | reset {w w₀ : World} {checkpoint : AdsCheckpoint} {hash : Hash} :
      ReadIn h w₀ → storedCheckpoint w₀.db config.identity = some checkpoint →
      SawHash config.identity.chainId h checkpoint.lastBlockNumber hash →
      hash ≠ checkpoint.lastBlockHash →
      IndexWrite w (w.withDb (w.db.resetProjection config.identity))
  /-- Commit a chunk that was read between two looks at its last block and at its checkpoint. -/
  | chunk {w w₁ w₂ w₃ w₄ : World} {expected : Option AdsCheckpoint} {last : ℕ} {hash : Hash}
      {positions : List (Placed PositionChanged)} {charges : List (Placed StakeCharged)}
      {snapshot : Option AdsContractSnapshot} {reads before after : Log} {now : ℕ} :
      config.next expected ≤ last → CheckpointRead config expected before →
      SnapshotRead config last snapshot reads → CheckpointRead config expected after →
      (after ++ (.asked w₄ (.blockHash config.identity.chainId last) (.ok hash) :: (reads ++
        (chunkReads config (config.next expected) last hash positions charges w₁ w₂ w₃ ++
          before)))).Sublist h →
      Heard h .now now → storedCheckpoint w.db config.identity = expected →
      IndexWrite w (w.withDb (w.db.commitChunk config.identity (sortLogs positions charges)
        ⟨last, hash⟩ snapshot now))
  /-- Refresh the configuration at an unchanged checkpoint. -/
  | refresh {w w₁ w₂ : World} {state : AdsCheckpoint} {snapshot : AdsContractSnapshot}
      {reads : Log} {now : ℕ} :
      SnapshotRead config state.lastBlockNumber (some snapshot) reads →
      (.asked w₂ (.blockHash config.identity.chainId state.lastBlockNumber)
          (.ok state.lastBlockHash) ::
        (reads ++ [.asked w₁ (.blockHash config.identity.chainId state.lastBlockNumber)
          (.ok state.lastBlockHash)])).Sublist h →
      Heard h .now now → storedCheckpoint w.db config.identity = some state →
      IndexWrite w (w.withDb (w.db.commitChunk config.identity [] state (some snapshot) now))

end

/-! ### The administrator -/

/-- The writes of the administrator. -/
inductive AdminWrite (identity : Identity) : World → World → Prop where
  | idle {w : World} : AdminWrite identity w w
  | settings {w : World} {input : SettingsInput} :
      AdminWrite identity w
        (w.withDb ((w.db.upsertSettings identity).mapSettings identity fun row =>
        { row with
          automaticEnabled := input.automaticEnabled
          intervalMinutes := input.intervalMinutes
          clickThreshold := input.clickThreshold }))
  | upsert {w : World} : AdminWrite identity w (w.withDb (w.db.upsertSettings identity))
  | request {w : World} {id : Id} : (∀ row ∈ w.db.runs, row.id ≠ id) →
      AdminWrite identity w (w.withDb ((w.db.upsertSettings identity).withRuns
        (w.db.runs ++ [⟨id, identity, .manual, .queued, none, none, none⟩])))
  | queueUnavailable {w : World} {id : Id} :
      AdminWrite identity w (w.withDb (w.db.withRuns
        (updateWhere (fun row => row.id = id ∧ row.status = .queued)
          (fun row => { row with errorCode := some .queueUnavailable }) w.db.runs)))

/-! ### Jobs -/

/-- The writes of a job. -/
def JobWrite (ext : External) : Job → Log → World → World → Prop
  | .charge deps _ _, h => ChargeWrite ext deps h
  | .publish deps, h => PublicationWrite deps h
  | .index _ config, h => IndexWrite config h
  | .click _ request, h => CaptureWrite ext request h
  | .retain _, h => RetainWrite h
  | .updateSettings _ identity _, _ => AdminWrite identity
  | .requestRun _ identity, _ => AdminWrite identity

/-- What a charge pass may ask: it sends only bytes that are committed on a sent batch. -/
def ChargeAsks (deps : ChargeDependencies) (w : World) : Query → Prop
  | .sendRawTransaction chainId raw =>
    ∃ row ∈ w.db.batches, row.signedTransaction = some raw ∧ row.Sent ∧
      row.identity = deps.identity ∧ chainId = deps.identity.chainId
  | _ => True

/-- What a publication pass may ask: it sends only bytes that are committed on a row. -/
def PublicationAsks (deps : PricePublicationDependencies) (w : World) : Query → Prop
  | .sendRawTransaction chainId raw =>
    ∃ row ∈ w.db.publications, row.signedTransaction = some raw ∧ row.identity = deps.identity ∧
      chainId = deps.identity.chainId
  | _ => True

/-- What a job may ask. -/
def JobAsks : Job → World → Query → Prop
  | .charge deps _ _, w, q => ChargeAsks deps w q
  | .publish deps, w, q => PublicationAsks deps w q
  | _, _, _ => True

end Market

end PreCommunity
