import PreCommunity.Ads.Delivery
import PreCommunity.Market.Charges

/-!
# Click capture

A click on an advertisement carries a delivery token.  The first opening of a delivery claims the
row of its click before it asks the chain for the bid and the price; the row is finalised in one
transaction with the five-minute window of the client and the click totals.

* `acceptsDelivery` : the checks of a delivery token whose signature is right.
* `billingPosition` : bid, price and block of a position, live or from the projection.
* `claimClickBillingWindow` : the conditional upsert of the window.
* `finalizeClick` : the transaction that finalises a click.
* `captureBillingClick` : the capture of one click.
* `retainAdsData` : what the retention job deletes.
-/

namespace PreCommunity

namespace Market

open Store Concurrent
open Ads (adDeliveryTtlMs clockSkewMs)

/-! ### Delivery tokens -/

/-- The checks of `readAdDelivery` on a payload whose signature is right and whose texts are of the
right form. -/
def acceptsDelivery (delivery : AdDelivery) (revisionId : Id) (now : ℕ) : Bool :=
  0 < delivery.issuedAt ∧ delivery.issuedAt ≤ now + clockSkewMs ∧
    now < delivery.issuedAt + adDeliveryTtlMs ∧ delivery.revisionId = revisionId ∧
    0 < delivery.identity.chainId ∧ 0 < delivery.positionVersion ∧
    delivery.positionVersion < 2 ^ 256

/-! ### The billing position -/

/-- What a click is billed with. -/
structure BillingPosition where
  bidUsdRaw : ℕ
  source : CaptureSource
  blockNumber : ℕ
  blockHash : Hash
  preUsdPriceE18 : ℕ
  preUsdPriceQuotedAt : ℕ

/-- The API replica's configuration and the click it captures. -/
structure CaptureRequest where
  /-- The configured deployment of the contract. -/
  config : Identity
  revisionId : Id
  campaignId : Id
  delivery : AdDelivery
  ip : Option Text

/-- `billingPositionResult`: check a position against the delivery. -/
def billingPositionResult (delivery : AdDelivery) (position : StakeDetails)
    (evidence : BillingPosition) : Except ErrorCode BillingPosition :=
  if position.positionVersion ≠ delivery.positionVersion then .error .positionVersionMismatch
  else if position.amount = 0 ∨ position.bidUsd = 0 then .error .positionMissing
  else .ok { evidence with bidUsdRaw := position.bidUsd }

/-- The live reads, all at the newest block. -/
def livePosition (delivery : AdDelivery) : Worker Unit (Except ErrorCode BillingPosition) := do
  let chainId : ℕ ← ask .chainId
  let block : ℕ × Hash ← ask (.latestBlock delivery.identity.chainId)
  if chainId ≠ delivery.identity.chainId then return .error .chainMismatch
  let details : StakeDetails ← ask (.stakeDetailsOf delivery.identity delivery.keywordId
    delivery.stakerAddress (some block.1))
  match billingPositionResult delivery details ⟨0, .rpc, block.1, block.2, 0, 0⟩ with
  | .error code => return .error code
  | .ok position =>
    let price ← ask (.preUsdPriceE18 delivery.identity block.1)
    let quotedAt ← ask (.preUsdPriceQuotedAt delivery.identity block.1)
    return .ok { position with preUsdPriceE18 := price, preUsdPriceQuotedAt := quotedAt }

/-- The indexer's state is complete and recent. -/
def IndexerState.synchronized (state : IndexerState) (now : ℕ) : Bool :=
  state.updatedAt ≤ now ∧ now ≤ state.updatedAt + 60000 ∧
    state.configBlockNumber = some state.lastBlockNumber ∧ state.minimumStakeRaw.isSome ∧
    state.paused.isSome ∧ state.operatorAddress.isSome

/-- The position in the projection, in one snapshot of the database. -/
def projectedPosition (delivery : AdDelivery) (now : ℕ) (db : Database) :
    Except ErrorCode BillingPosition :=
  match db.indexers.find? fun row => row.identity = delivery.identity with
  | none => .error .captureFailed
  | some state =>
    if !state.synchronized now then .error .captureFailed
    else match db.positions.find? fun row => row.identity = delivery.identity ∧
        row.keywordId = delivery.keywordId ∧ row.stakerAddress = delivery.stakerAddress with
      | none => .error .positionMissing
      | some position =>
        billingPositionResult delivery
          ⟨position.stakeRaw, position.bidUsdRaw, position.positionVersion⟩
          ⟨0, .projection, state.lastBlockNumber, state.lastBlockHash,
            state.preUsdPriceE18Raw.getD 0, state.preUsdPriceQuotedAt.getD 0⟩

/-- `billingPosition`; an error of the live reads, or their timeout, falls back on the
projection. -/
def billingPosition (request : CaptureRequest) :
    Worker Unit (Except ErrorCode BillingPosition) := do
  if request.delivery.identity ≠ request.config then return .error .contractMismatch
  try livePosition request.delivery
  catch _ =>
    let now ← ask .now
    select (projectedPosition request.delivery now)

/-! ### The window -/

/-- `clickBillingFingerprint`: none without a usable address. -/
def clickBillingFingerprint (ext : External) (request : CaptureRequest) : Option Hash :=
  (request.ip.bind ext.canonicalClickIp).map
    (ext.fingerprintHmac request.delivery.identity.chainId
      request.delivery.identity.contractAddress request.campaignId)

/-- Microseconds as a `TIMESTAMPTZ(3)`, which rounds to milliseconds. -/
def toTimestamp3 (time : ℕ) : ℕ := (time + 500) / 1000

/-- The end of a window that opens at `timestamp` microseconds. -/
def windowEnd (timestamp : ℕ) : ℕ := toTimestamp3 (timestamp + 5 * 60 * 1000000)

/-- `claimClickBillingWindow` at the transaction's `timestamp`: whether the window was claimed,
and the windows afterwards. -/
def claimClickBillingWindow (fingerprint : Hash) (timestamp : ℕ) (windows : List ClickWindow) :
    Bool × List ClickWindow :=
  match windows.find? fun row => row.fingerprint = fingerprint with
  | none => (true, windows ++ [⟨fingerprint, windowEnd timestamp⟩])
  | some window =>
    if window.expiresAt * 1000 ≤ timestamp then
      (true, updateWhere (fun row => row.fingerprint = fingerprint)
        (fun row => { row with expiresAt := windowEnd timestamp }) windows)
    else (false, windows)

/-! ### Finalising a click -/

/-- What the capture writes into the click. -/
structure Capture where
  status : ClickStatus
  bidUsdRaw : ℕ
  amountPreRaw : Option ℕ
  priceUsd : Option Text
  priceQuotedAt : Option ℕ
  priceBlockNumber : Option ℕ
  priceBlockHash : Option Hash
  captureSource : CaptureSource
  bidBlockNumber : ℕ
  bidBlockHash : Hash

/-- The price text of a position whose price is set. -/
def BillingPosition.priceUsd (ext : External) (position : BillingPosition) : Option Text :=
  if 0 < position.preUsdPriceE18 ∧ 0 < position.preUsdPriceQuotedAt then
    some (ext.formatUnits position.preUsdPriceE18 18)
  else none

/-- The capture of a position. -/
def capture (ext : External) (position : BillingPosition) : Except Failure Capture :=
  match position.priceUsd ext with
  | none => .ok
      { status := .pricePending
        bidUsdRaw := position.bidUsdRaw
        amountPreRaw := none
        priceUsd := none
        priceQuotedAt := none
        priceBlockNumber := none
        priceBlockHash := none
        captureSource := position.source
        bidBlockNumber := position.blockNumber
        bidBlockHash := position.blockHash }
  | some priceUsd => match billPreRaw position.bidUsdRaw priceUsd with
    | .error e => .error e
    | .ok amount => .ok
      { status := if amount = 0 then .settled else .pending
        bidUsdRaw := position.bidUsdRaw
        amountPreRaw := some amount
        priceUsd := some priceUsd
        priceQuotedAt := some (position.preUsdPriceQuotedAt * 1000)
        priceBlockNumber := some position.blockNumber
        priceBlockHash := some position.blockHash
        captureSource := position.source
        bidBlockNumber := position.blockNumber
        bidBlockHash := position.blockHash }

/-- The click with its capture; a suppressed click keeps the capture too. -/
def BillingClick.finalize (click : BillingClick) (c : Capture) (allowed : Bool) : BillingClick :=
  { click with
    status := if allowed then c.status else .suppressed
    bidUsdRaw := some c.bidUsdRaw
    amountPreRaw := c.amountPreRaw
    priceUsd := c.priceUsd
    priceQuotedAt := c.priceQuotedAt
    priceBlockNumber := c.priceBlockNumber
    priceBlockHash := c.priceBlockHash
    captureSource := some c.captureSource
    bidBlockNumber := some c.bidBlockNumber
    bidBlockHash := some c.bidBlockHash
    errorCode := if allowed then click.errorCode else some .duplicateClientWindow }

/-- The totals after one more click. -/
def countClick (identity : Identity) (allowed : Bool) (totals : List ClickTotals) :
    List ClickTotals :=
  if totals.any fun row => row.identity = identity then
    updateWhere (fun row => row.identity = identity)
      (fun row => if allowed then { row with billableClicks := row.billableClicks + 1 }
        else { row with suppressedClicks := row.suppressedClicks + 1 }) totals
  else totals ++ [⟨identity, if allowed then 1 else 0, if allowed then 0 else 1⟩]

/-- The click `id` is being captured. -/
def BillingClick.isCapturing (id : Id) (row : BillingClick) : Bool :=
  row.id = id ∧ row.status = .capturing

/-- The transaction that finalises a click; its statements hold their row locks to its end, so
they act at once, with the timestamp of its start. -/
def finalizeClickTx (request : CaptureRequest) (fingerprint : Hash) (c : Capture)
    (timestamp : ℕ) : Tx Unit := do
  let db ← get
  let (allowed, windows) := claimClickBillingWindow fingerprint timestamp db.windows
  if db.clicks.any (BillingClick.isCapturing request.delivery.deliveryId) then
    set { db with
      windows := windows
      clicks := updateWhere (BillingClick.isCapturing request.delivery.deliveryId)
        (fun row => row.finalize c allowed) db.clicks
      totals := countClick request.delivery.identity allowed db.totals }
  else throw .other

/-- Begin the transaction, which fixes its timestamp, and run it. -/
def finalizeClick (request : CaptureRequest) (fingerprint : Hash) (c : Capture) :
    Worker Unit Unit := do
  let timestamp ← Routine.read .other World.clock
  transaction (finalizeClickTx request fingerprint c timestamp)

/-- Close the capture without a bill. -/
def closeCapture (id : Id) (code : ErrorCode) : Worker Unit Unit :=
  update fun db => db.updateClicks (BillingClick.isCapturing id) fun row =>
    { row with status := .unbilled, errorCode := some code }

/-- The row that claims a delivery. -/
def BillingClick.claim (delivery : AdDelivery) (clickedAt : ℕ) : BillingClick where
  id := delivery.deliveryId
  revisionId := delivery.revisionId
  identity := delivery.identity
  keywordId := delivery.keywordId
  keyword := delivery.keyword
  stakerAddress := delivery.stakerAddress
  positionVersion := delivery.positionVersion
  status := .capturing
  bidUsdRaw := none
  amountPreRaw := none
  priceUsd := none
  priceQuotedAt := none
  captureSource := none
  bidBlockNumber := none
  bidBlockHash := none
  priceBlockNumber := none
  priceBlockHash := none
  errorCode := none
  batchId := none
  clickedAt := clickedAt

/-- `createMany` with `skipDuplicates`: `true` when the row is new. -/
def claimDelivery (delivery : AdDelivery) (clickedAt : ℕ) : Tx Bool := do
  let db ← get
  if db.clicks.any fun row => row.id = delivery.deliveryId then return false
  else
    set (db.withClicks (db.clicks ++ [BillingClick.claim delivery clickedAt]))
    return true

/-- The part of the capture after the claim. -/
def captureClaimed (ext : External) (request : CaptureRequest) : Worker Unit Unit := do
  let id := request.delivery.deliveryId
  match clickBillingFingerprint ext request with
  | none => closeCapture id .clientIpUnavailable
  | some fingerprint => match ← billingPosition request with
    | .error code => closeCapture id code
    | .ok position => match capture ext position with
      | .error e => throw e
      | .ok c =>
        if c.amountPreRaw = some 0 then
          update fun db => db.updateClicks (BillingClick.isCapturing id)
            fun row => row.finalize c true
        else finalizeClick request fingerprint c

/-- The part of the capture that its error handler covers. -/
def captureSteps (ext : External) (request : CaptureRequest) : Worker Unit Unit := do
  -- Claim before RPC: repeated links preserve the first click, including unbilled failures.
  let clickedAt ← ask .now
  let claimed ← transaction (claimDelivery request.delivery clickedAt)
  if claimed then captureClaimed ext request

/-- The capture of one click. -/
def captureBillingClick (ext : External) (request : CaptureRequest) : Worker Unit Unit := do
  try captureSteps ext request
  catch _ =>
    try closeCapture request.delivery.deliveryId .captureFailed
    -- Keep the tombstone; worker recovery closes interrupted captures without repricing.
    catch _ => pure ()

/-- The billing part of `AdsService.click`. -/
def click (ext : External) (request : CaptureRequest) : Worker Unit Unit := do
  let now ← ask .now
  if acceptsDelivery request.delivery request.revisionId now then captureBillingClick ext request

/-! ### Retention -/

/-- The clicks and windows that the retention job keeps. -/
def Database.retain (db : Database) (now timestamp : ℕ) : Database :=
  { db with
    windows := db.windows.filter fun row => !decide (row.expiresAt * 1000 ≤ timestamp)
    clicks := db.clicks.filter fun row =>
      !decide (row.status = .suppressed ∧ row.clickedAt < now - 2 * 60 * 60000) }

/-- `retainAdsData`, as far as clicks and windows are concerned: one transaction with the timestamp
of its start. -/
def retainAdsData : Worker Unit Unit := do
  let now ← ask .now
  let timestamp ← Routine.read .other World.clock
  update fun db => db.retain now timestamp

end Market

end PreCommunity
