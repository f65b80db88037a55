import PreCommunity.Market.Publication

/-!
# The indexer

An index pass projects the contract's finalized logs, chunk by chunk.  Every chunk is read between
two looks at its last block, and is committed with its checkpoint in one transaction that first
checks that the stored checkpoint is still the one the chunk continues.  A checkpoint that is no
longer canonical resets the projection.

* `applyAdPositionChange`, `applyFinalizedAdPositionChange` : one `PositionChanged` log.
* `commitChunk` : the transaction of a chunk.
* `indexAds` : the pass.
-/

namespace PreCommunity

namespace Market

open Store Concurrent

/-- The configuration of an index pass. -/
structure IndexConfig where
  identity : Identity
  deploymentBlock : ℕ
  confirmations : ℕ

/-- `INDEXER_LOG_BLOCK_RANGE`. -/
def indexerLogBlockRange : ℕ := 500

/-- A stored checkpoint. -/
structure AdsCheckpoint where
  lastBlockNumber : ℕ
  lastBlockHash : Hash
deriving DecidableEq

/-- The contract's configuration at a block. -/
structure AdsContractSnapshot where
  minimumStakeRaw : ℕ
  paused : Bool
  operatorAddress : Address
  priceUpdaterAddress : Address
  preUsdPriceE18Raw : ℕ
  preUsdPriceQuotedAt : ℕ
  configBlockNumber : ℕ

/-- A log of the contract that the indexer projects. -/
inductive IndexedLog where
  | position (log : Placed PositionChanged)
  | charge (log : Placed StakeCharged)

/-- The place of a log in the chain. -/
def IndexedLog.place : IndexedLog → ℕ × ℕ
  | position log => (log.blockNumber, log.logIndex)
  | charge log => (log.blockNumber, log.logIndex)

/-- The row of `AdChainEvent` for a log. -/
def IndexedLog.event (identity : Identity) : IndexedLog → ChainEvent
  | position log =>
    { identity := identity
      txHash := log.transactionHash
      logIndex := log.logIndex
      blockNumber := log.blockNumber
      blockHash := log.blockHash
      payload := .positionChanged log.args.keywordId log.args.staker log.args.newStake
        log.args.previousStake log.args.bidUsd log.args.requiredCoveragePre log.args.eligible
        log.args.withdrawAvailableAt log.args.positionVersion }
  | charge log =>
    { identity := identity
      txHash := log.transactionHash
      logIndex := log.logIndex
      blockNumber := log.blockNumber
      blockHash := log.blockHash
      payload := .stakeCharged log.args.chargeId (some log.args.keywordId) (some log.args.staker)
        (some log.args.requestedPre) (some log.args.chargedPre) (some log.args.remainingPre) }

/-! ### Projecting a log -/

/-- The log at `(blockNumber, logIndex)` comes after the one at the other place. -/
def eventAfter (blockNumber logIndex previousBlock previousLogIndex : ℕ) : Bool :=
  blockNumber > previousBlock ∨ blockNumber = previousBlock ∧ logIndex > previousLogIndex

/-- The position after a change; `current` is the row before it. -/
def projectPosition (identity : Identity) (log : Placed PositionChanged)
    (current : Option StakePosition) : StakePosition :=
  let amountChanged := current.all fun row => row.stakeRaw ≠ log.args.newStake
  let positionOpened := current.all fun row =>
    log.args.previousStake = 0 ∧ 0 < log.args.newStake ∨
      row.positionVersion ≠ log.args.positionVersion
  { identity := identity
    keywordId := log.args.keywordId
    stakerAddress := log.args.staker
    stakeRaw := log.args.newStake
    bidUsdRaw := log.args.bidUsd
    requiredCoveragePreRaw := log.args.requiredCoveragePre
    eligible := log.args.eligible
    withdrawAvailableAt := log.args.withdrawAvailableAt
    positionVersion := log.args.positionVersion
    stakeSinceBlock :=
      if positionOpened then log.blockNumber else (current.map (·.stakeSinceBlock)).getD 0
    stakeSinceLogIndex :=
      if positionOpened then log.logIndex else (current.map (·.stakeSinceLogIndex)).getD 0
    amountSinceBlock :=
      if amountChanged then log.blockNumber else (current.map (·.amountSinceBlock)).getD 0
    amountSinceLogIndex :=
      if amountChanged then log.logIndex else (current.map (·.amountSinceLogIndex)).getD 0
    positionBlock := log.blockNumber
    positionBlockHash := log.blockHash
    positionTxHash := log.transactionHash
    positionLogIndex := log.logIndex
    active := 0 < log.args.newStake }

/-- The row is the position of this staker on this keyword. -/
def StakePosition.isOf (identity : Identity) (keywordId : Hash) (staker : Address)
    (row : StakePosition) : Bool :=
  row.identity = identity ∧ row.keywordId = keywordId ∧ row.stakerAddress = staker

/-- Apply a position change to the projection, unless it is stale. -/
def applyAdPositionChange (identity : Identity) (log : Placed PositionChanged)
    (positions : List StakePosition) : List StakePosition :=
  let isRow := StakePosition.isOf identity log.args.keywordId log.args.staker
  match positions.find? isRow with
  | none => positions ++ [projectPosition identity log none]
  | some current =>
    if eventAfter log.blockNumber log.logIndex current.positionBlock current.positionLogIndex then
      updateWhere isRow (fun _ => projectPosition identity log (some current)) positions
    else positions

/-- The two rows have the same unique key. -/
def ChainEvent.sameKey (a b : ChainEvent) : Bool :=
  a.identity = b.identity ∧ a.txHash = b.txHash ∧ a.logIndex = b.logIndex

/-- Record a log with `skipDuplicates`, and project a new position change. -/
def applyLog (identity : Identity) (db : Database) (log : IndexedLog) : Database :=
  let event := log.event identity
  if db.events.any event.sameKey then db
  else
    { db with
      events := db.events ++ [event]
      positions := match log with
        | .position log => applyAdPositionChange identity log db.positions
        | .charge _ => db.positions }

/-! ### The checkpoint -/

/-- The checkpoint of a row. -/
def IndexerState.checkpoint (row : IndexerState) : AdsCheckpoint :=
  ⟨row.lastBlockNumber, row.lastBlockHash⟩

/-- The stored checkpoint. -/
def storedCheckpoint (db : Database) (identity : Identity) : Option AdsCheckpoint :=
  (db.indexers.find? fun row => row.identity = identity).map IndexerState.checkpoint

/-- The state with a contract snapshot, if there is one. -/
def IndexerState.withSnapshot (row : IndexerState) (snapshot : Option AdsContractSnapshot) :
    IndexerState :=
  match snapshot with
  | none => row
  | some snapshot =>
    { row with
      minimumStakeRaw := some snapshot.minimumStakeRaw
      paused := some snapshot.paused
      operatorAddress := some snapshot.operatorAddress
      priceUpdaterAddress := some snapshot.priceUpdaterAddress
      preUsdPriceE18Raw := some snapshot.preUsdPriceE18Raw
      preUsdPriceQuotedAt := some snapshot.preUsdPriceQuotedAt
      configBlockNumber := some snapshot.configBlockNumber }

/-- The state moved to a checkpoint. -/
def IndexerState.advance (row : IndexerState) (checkpoint : AdsCheckpoint)
    (snapshot : Option AdsContractSnapshot) (now : ℕ) : IndexerState :=
  { row.withSnapshot snapshot with
    lastBlockNumber := checkpoint.lastBlockNumber
    lastBlockHash := checkpoint.lastBlockHash
    updatedAt := now }

/-- A new row of `AdIndexerState`. -/
def IndexerState.create (identity : Identity) (checkpoint : AdsCheckpoint) (now : ℕ) :
    IndexerState where
  identity := identity
  lastBlockNumber := checkpoint.lastBlockNumber
  lastBlockHash := checkpoint.lastBlockHash
  minimumStakeRaw := none
  paused := none
  operatorAddress := none
  priceUpdaterAddress := none
  preUsdPriceE18Raw := none
  preUsdPriceQuotedAt := none
  configBlockNumber := none
  updatedAt := now

/-- `advanceAdsIndexerState`: move the checkpoint, never back. -/
def advanceAdsIndexerState (identity : Identity) (checkpoint : AdsCheckpoint)
    (snapshot : Option AdsContractSnapshot) (now : ℕ) (rows : List IndexerState) :
    List IndexerState :=
  match rows.find? fun row => row.identity = identity with
  | none => rows ++ [(IndexerState.create identity checkpoint now).withSnapshot snapshot]
  | some current =>
    if current.lastBlockNumber > checkpoint.lastBlockNumber then rows
    else updateWhere (fun row => row.identity = identity)
      (fun row => row.advance checkpoint snapshot now) rows

/-- The transaction of a chunk: check the stored checkpoint, apply the logs, and move on. -/
def commitChunk (identity : Identity) (expected : Option AdsCheckpoint) (logs : List IndexedLog)
    (checkpoint : AdsCheckpoint) (snapshot : Option AdsContractSnapshot) (now : ℕ) : Tx Unit := do
  let db ← get
  if storedCheckpoint db identity = expected then
    let applied := logs.foldl (applyLog identity) db
    set { applied with
      indexers := advanceAdsIndexerState identity checkpoint snapshot now applied.indexers }
  else throw .other

/-- `resetAdsProjection`. -/
def Database.resetProjection (db : Database) (identity : Identity) : Database :=
  { db with
    positions := db.positions.filter fun row => row.identity ≠ identity
    events := db.events.filter fun row => row.identity ≠ identity
    indexers := db.indexers.filter fun row => row.identity ≠ identity }

/-! ### The pass -/

section

variable (config : IndexConfig)

def indexedHash (block : ℕ) : Worker Unit Hash := ask (.blockHash config.identity.chainId block)

/-- The contract's configuration at a block; a wrong token address is an error of these reads. -/
def contractSnapshot (block : ℕ) : Worker Unit AdsContractSnapshot := do
  let minimumStake : ℕ ← ask (.minimumStake config.identity block)
  let paused ← ask (.paused config.identity block)
  let operator ← ask (.operator config.identity (some block))
  let priceUpdater ← ask (.priceUpdater config.identity (some block))
  let priceE18 ← ask (.preUsdPriceE18 config.identity block)
  let quotedAt ← ask (.preUsdPriceQuotedAt config.identity block)
  if minimumStake = 0 then throw .other
  else return ⟨minimumStake, paused, operator, priceUpdater, priceE18, quotedAt, block⟩

/-- The configuration at the last block of the last chunk. -/
def snapshotAtHead (block safeHead : ℕ) : Worker Unit (Option AdsContractSnapshot) :=
  if block = safeHead then do
    let snapshot ← contractSnapshot config block
    return some snapshot
  else return none

/-- The checkpoint is canonical, or there is none. -/
def assertCanonicalCheckpoint : Option AdsCheckpoint → Worker Unit Unit
  | none => return ()
  | some checkpoint => do
    let hash ← indexedHash config checkpoint.lastBlockNumber
    if hash ≠ checkpoint.lastBlockHash then throw .other

/-- The logs of a range of blocks, in the order of the chain. -/
def readLogs (start last : ℕ) : Worker Unit (List IndexedLog) := do
  let positions : List (Placed PositionChanged) ← ask (.positionLogs config.identity start last)
  let charges : List (Placed StakeCharged) ← ask (.chargeLogs config.identity start last)
  let logs := positions.map IndexedLog.position ++ charges.map IndexedLog.charge
  return logs.insertionSort
    fun a b => a.place.1 < b.place.1 ∨ a.place.1 = b.place.1 ∧ a.place.2 ≤ b.place.2

/-- One chunk: read it between two looks at its last block, and commit it. -/
def indexChunk (safeHead start last : ℕ) (checkpoint : Option AdsCheckpoint) :
    Worker Unit AdsCheckpoint := do
  assertCanonicalCheckpoint config checkpoint
  let indexed ← indexedHash config last
  let logs ← readLogs config start last
  let snapshot ← snapshotAtHead config last safeHead
  let canonical ← indexedHash config last
  if canonical ≠ indexed then throw .other
  else
    assertCanonicalCheckpoint config checkpoint
    let now ← ask .now
    transaction (commitChunk config.identity checkpoint logs ⟨last, indexed⟩ snapshot now)
    return ⟨last, indexed⟩

/-- The loop over the chunks; every chunk has at least one block. -/
def indexChunks (safeHead : ℕ) : ℕ → ℕ → Option AdsCheckpoint → Worker Unit Unit
  | 0, _, _ => return ()
  | blocks + 1, start, checkpoint =>
    if start > safeHead then return ()
    else do
      let next ← indexChunk config safeHead start
        (min (start + indexerLogBlockRange - 1) safeHead) checkpoint
      indexChunks safeHead blocks (start + indexerLogBlockRange) (some next)

/-- Refresh the configuration when there is no new block. -/
def refreshSnapshot (safeHead : ℕ) (state : AdsCheckpoint) : Worker Unit Unit := do
  let snapshot ← contractSnapshot config safeHead
  let canonical ← indexedHash config state.lastBlockNumber
  if canonical ≠ state.lastBlockHash then throw .other
  else
    let now ← ask .now
    transaction (commitChunk config.identity (some state) [] state (some snapshot) now)

/-- The stored checkpoint; one that is no longer canonical resets the projection. -/
def canonicalState : Worker Unit (Option AdsCheckpoint) := do
  let found ← select fun db => storedCheckpoint db config.identity
  match found with
  | none => return none
  | some state =>
    let hash ← indexedHash config state.lastBlockNumber
    if hash = state.lastBlockHash then return some state
    update fun db => db.resetProjection config.identity
    return none

/-- An index pass. -/
def indexAds : Worker Unit Unit := do
  ask (.verifyContract config.identity)
  let head ← ask (.blockNumber config.identity.chainId)
  let safeHead := finalizedAdsBlock head config.confirmations
  if safeHead < config.deploymentBlock then return ()
  match ← canonicalState config with
  | none =>
    indexChunks config safeHead (safeHead + 1 - config.deploymentBlock) config.deploymentBlock none
  | some state =>
    if state.lastBlockNumber > safeHead then return ()
    else if state.lastBlockNumber + 1 > safeHead then refreshSnapshot config safeHead state
    else
      indexChunks config safeHead (safeHead - state.lastBlockNumber) (state.lastBlockNumber + 1)
        (some state)

end

end Market

end PreCommunity
