import Mathlib.Data.List.Sort
import PreCommunity.Escrow.World

/-!
# The escrow indexer

A pass projects the confirmed logs of the contract, one transaction for each log, and stores a
checkpoint after every range of blocks.  A checkpoint that is no longer canonical resets the
projection.

* `projectLog` : the transaction of a log.
* `refreshGoalMetadata` : fetch the metadata of a new goal.
* `indexEscrow` : the pass.
-/

namespace PreCommunity

namespace Escrow

open Store Concurrent

/-- `INDEXER_LOG_BLOCK_RANGE`. -/
def indexerLogBlockRange : ℕ := 500

/-- How a pass ends. -/
inductive IndexResult where
  | awaitingConfirmations (head : ℕ)
  | synced (indexedThroughBlock : Option ℕ)
deriving DecidableEq, Repr

/-- `chainReorganized`. -/
def chainReorganized (storedHash canonicalHash : Hash) : Bool := storedHash ≠ canonicalHash

/-- A log with the time of its block. -/
def EscrowLog.decoded (log : EscrowLog) (blockTimestamp : ℕ) : DecodedEscrowEvent where
  event := log.event
  blockNumber := log.blockNumber
  blockHash := log.blockHash
  blockTimestamp := blockTimestamp
  txHash := log.txHash
  logIndex := log.logIndex

/-- A log that comes before another one, or at its place: `compareEscrowLogs`. -/
def EscrowLog.le (a b : EscrowLog) : Bool :=
  a.blockNumber < b.blockNumber ∨ a.blockNumber = b.blockNumber ∧ a.logIndex ≤ b.logIndex

/-- A `ProfileUpdated` that cannot be stored. -/
def EscrowEvent.malformedProfile : EscrowEvent → Bool
  | .profileUpdated _ _ displayName websiteUrl bio avatarURI _ =>
    !isIndexableProfileEventArgs displayName websiteUrl bio avatarURI
  | _ => false

section

variable (config : Deployment) (ext : External)

/-- `confirmedHead`. -/
def confirmedHead (head : ℕ) : Option ℕ :=
  if head < config.deploymentBlock + config.confirmations then none
  else some (head - config.confirmations)

/-- The row of `ChainEvent` for a log. -/
def DecodedEscrowEvent.row (event : DecodedEscrowEvent) : ChainEvent where
  chainId := config.chainId
  txHash := event.txHash
  logIndex := event.logIndex
  blockNumber := event.blockNumber
  blockHash := event.blockHash
  event := event.event

/-- The two rows have the same unique key. -/
def ChainEvent.sameKey (a b : ChainEvent) : Bool :=
  a.chainId = b.chainId ∧ a.txHash = b.txHash ∧ a.logIndex = b.logIndex

/-- `claimChainEvent` with `skipDuplicates`: the log is recorded, unless it has been. -/
def claimChainEvent (row : ChainEvent) (db : Database) : Option Database :=
  if db.events.any row.sameKey then none else some { db with events := db.events ++ [row] }

/-- The transaction of a log: claim it, and project it if it was not claimed before. -/
def projectLog (event : DecodedEscrowEvent) (db : Database) :
    Except Failure (Database × Bool × Option MetadataRefresh) :=
  match claimChainEvent (event.row config) db with
  | none => .ok (db, false, none)
  | some claimed => (handleDecodedEscrowEvent config ext event claimed).map fun r =>
      (r.1, true, r.2)

/-- `rebuildAfterReorg`. -/
def rebuildAfterReorg : Worker Unit := transaction fun db => .ok (resetChainProjection config db)

/-! ### Metadata -/

/-- Store the status of a goal's metadata. -/
def setMetadata (goalId : Id) (status : MetadataStatus) (metadata : Option Text) (db : Database) :
    Except Failure Database :=
  if db.goals.any fun row => row.id = goalId then
    .ok (db.mapGoal goalId fun row => { row with metadataStatus := status, metadata := metadata })
  else .error .recordNotFound

/-- Fetch metadata and store them; `none` stands for a text that does not meet the schema. -/
def fetchMetadata (refresh : MetadataRefresh) : Worker Unit := do
  let metadata : Option Text ← ask (.goalMetadata refresh.uri)
  match metadata with
  | none => transaction (setMetadata refresh.goalId .invalid none)
  | some text => transaction (setMetadata refresh.goalId .available (some text))

/-- `refreshGoalMetadata`. -/
def refreshGoalMetadata (refresh : MetadataRefresh) : Worker Unit := do
  if refresh.uri = [] then transaction (setMetadata refresh.goalId .notSet none)
  else if !ext.isValidIpfsUri refresh.uri then
    transaction (setMetadata refresh.goalId .invalid none)
  else
    try fetchMetadata refresh
    catch _ => transaction (setMetadata refresh.goalId .unavailable none)

/-! ### The pass -/

/-- The blocks a range has asked for. -/
abbrev BlockCache := List (ℕ × BlockHeader)

/-- The block of a log, asked for once in a range. -/
def cachedBlock (number : ℕ) (blocks : BlockCache) : Worker (BlockHeader × BlockCache) := do
  match blocks.find? fun entry => entry.1 = number with
  | some entry => return (entry.2, blocks)
  | none =>
    let block : BlockHeader ← ask (.block number)
    return (block, (number, block) :: blocks)

/-- Project one log. -/
def indexLog (log : EscrowLog) (blocks : BlockCache) : Worker BlockCache := do
  if log.event.malformedProfile then return blocks
  else
    let (block, blocks) ← cachedBlock log.blockNumber blocks
    let (_, refresh) ← transactionOf (projectLog config ext (log.decoded block.timestamp))
    match refresh with
    | none => return blocks
    | some refresh =>
      refreshGoalMetadata ext refresh
      return blocks

/-- Project the logs of a range. -/
def indexLogs : List EscrowLog → BlockCache → Worker Unit
  | [], _ => return ()
  | log :: rest, blocks => do
    let blocks ← indexLog config ext log blocks
    indexLogs rest blocks

/-- Store the checkpoint. -/
def storeCheckpoint (number : ℕ) (hash : Hash) (db : Database) : Database :=
  if db.indexers.any fun row => row.key = config.stateKey then
    { db with
      indexers := updateWhere (fun row => row.key = config.stateKey)
        (fun row => { row with lastBlockNumber := number, lastBlockHash := hash }) db.indexers }
  else { db with indexers := db.indexers ++ [⟨config.stateKey, config.chainId, number, hash⟩] }

/-- Project a range of blocks, and store the checkpoint. -/
def indexRange (start last : ℕ) : Worker Unit := do
  let logs : List EscrowLog ← ask (.contractEvents start last)
  indexLogs config ext (logs.insertionSort (fun a b => a.le b)) []
  let indexedBlock : BlockHeader ← ask (.block last)
  transaction fun db => .ok (storeCheckpoint config last indexedBlock.hash db)

/-- The loop over the ranges; every range has at least one block. -/
def indexRanges (safeHead : ℕ) : ℕ → ℕ → Worker Unit
  | 0, _ => return ()
  | blocks + 1, start => do
    if start > safeHead then return ()
    else
      indexRange config ext start (min (start + indexerLogBlockRange - 1) safeHead)
      indexRanges safeHead blocks (start + indexerLogBlockRange)

/-- The stored checkpoint; one that is no longer canonical resets the projection. -/
def canonicalState : Worker (Option IndexerState) := do
  let state ← select fun db => db.indexers.find? fun row => row.key = config.stateKey
  match state with
  | none => return none
  | some state =>
    let canonical : BlockHeader ← ask (.block state.lastBlockNumber)
    if chainReorganized state.lastBlockHash canonical.hash then
      rebuildAfterReorg config
      return none
    else return some state

/-- `indexEscrow`. -/
def indexEscrow : Worker IndexResult := do
  ask .verifyManifest
  let head : ℕ ← ask .blockNumber
  match confirmedHead config head with
  | none => return .awaitingConfirmations head
  | some safeHead =>
    let state ← canonicalState config
    let fromBlock := match state with
      | some state => state.lastBlockNumber + 1
      | none => config.deploymentBlock
    if fromBlock > safeHead then return .synced (state.map (·.lastBlockNumber))
    else
      indexRanges config ext safeHead (safeHead + 1 - fromBlock) fromBlock
      return .synced (some safeHead)

end

end Escrow

end PreCommunity
