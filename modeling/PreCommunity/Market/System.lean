import PreCommunity.Concurrent.Pool
import PreCommunity.Market.Capture
import PreCommunity.Market.Indexer

/-!
# The Keyword Market as a system of processes

Every job of the worker and every request of the API runs over one world.  A charge pass and a
publication pass run one at a time; index passes, clicks, retention jobs and administrator requests
run in any number.  The environment moves the chains, lets time pass, signs delivery tokens, and
may end a transaction that waits for too long.

* `Job` : what may run.
* `Outside` : the third-party functions, the block tree, and the answers of the outside world.
* `Environment` : the steps of the environment.
* `market` : the machine.
-/

namespace PreCommunity

namespace Market

open Store Concurrent

/-! ### The administrator -/

/-- The settings an administrator chooses. -/
structure SettingsInput where
  automaticEnabled : Bool
  intervalMinutes : ℕ
  clickThreshold : ℕ

/-- `KeywordMarketChargesService.updateSettings`. -/
def adminUpdateSettings (identity : Identity) (input : SettingsInput) : Worker Unit Unit :=
  update fun db =>
    let db := db.upsertSettings identity
    db.withSettings (updateWhere (fun row => row.identity = identity) (fun row =>
      { row with
        automaticEnabled := input.automaticEnabled
        intervalMinutes := input.intervalMinutes
        clickThreshold := input.clickThreshold }) db.settings)

/-- Find the newest open manual run, or create one; it returns the run's id. -/
def requestRunTx (identity : Identity) (id : Id) : Tx Id := do
  modify fun db => db.upsertSettings identity
  let db ← get
  match (db.runs.filter fun row => row.identity = identity ∧ row.trigger = .manual ∧
      (row.status = .queued ∨ row.status = .running)).getLast? with
  | some run => return run.id
  | none =>
    createRun ⟨id, identity, .manual, .queued, none, none, none⟩
    return id

/-- `KeywordMarketChargesService.run`. -/
def adminRequestRun (identity : Identity) : Worker Unit Unit := do
  let random : ℕ → Id ← ask .random
  let runId ← transaction (requestRunTx identity (random 0))
  try ask (.enqueueRun runId)
  catch error =>
    -- Enqueue may have succeeded after the timeout; retain its ID for safe retry/recovery.
    update fun db => db.withRuns (updateWhere (fun row => row.id = runId ∧ row.status = .queued)
      (fun row => { row with errorCode := some .queueUnavailable }) db.runs)
    throw error

/-! ### Jobs -/

/-- What may run; `n` numbers the jobs that run side by side. -/
inductive Job where
  | charge (deps : ChargeDependencies) (runId : Option Id) (cached : Option WalletBalance)
  | publish (deps : PricePublicationDependencies)
  | index (n : ℕ) (config : IndexConfig)
  | click (n : ℕ) (request : CaptureRequest)
  | retain (n : ℕ)
  | updateSettings (n : ℕ) (identity : Identity) (input : SettingsInput)
  | requestRun (n : ℕ) (identity : Identity)

/-- Where a job runs. -/
def Job.slot : Job → Slot
  | charge .. => .charge
  | publish .. => .publication
  | index n _ => .other n
  | click n _ => .other n
  | retain n => .other n
  | updateSettings n .. => .other n
  | requestRun n _ => .other n

/-- The code of a job. -/
def Job.code (ext : External) : Job → Program World Reply Failure Unit
  | charge deps runId cached => (processAdChargeJob ext deps runId cached).silently .start
  | publish deps => (processPreUsdPricePublication deps).silently ⟨none⟩
  | index _ config => (indexAds config).silently ()
  | click _ request => (Market.click ext request).silently ()
  | retain _ => retainAdsData.silently ()
  | updateSettings _ identity input => (adminUpdateSettings identity input).silently ()
  | requestRun _ identity => (adminRequestRun identity).silently ()

/-- A click job needs a delivery token that was signed: the signature cannot be forged. -/
def Job.admits : Job → World → Bool
  | click _ request, w => request.delivery ∈ w.issued
  | _, _ => true

/-! ### The machine -/

/-- What the system is placed in. -/
structure Outside where
  /-- The third-party functions. -/
  ext : External
  /-- The tree of all blocks. -/
  forest : Chain.Forest Hash
  /-- The answers that the outside world may give. -/
  answers : World → (q : Query) → Except Failure (Reply q) → Prop

variable (O : Outside)

/-- The steps of the environment. -/
inductive Environment : World → World → Prop where
  /-- Time passes. -/
  | tick {w : World} {t : ℕ} : w.clock ≤ t → Environment w { w with clock := t }
  /-- A chain grows or reorganises; what it orphans stays orphaned. -/
  | chain {w : World} {chainId : ℕ} {c : Chain.ChainState Hash} :
      O.forest.Follows (w.chains chainId) c → O.forest.Consistent c →
      Environment w { w with chains := Function.update w.chains chainId c }
  /-- A delivery token is signed with a new id and the time of some clock. -/
  | issue {w : World} {d : AdDelivery} :
      (∀ d' ∈ w.issued, d'.deliveryId ≠ d.deliveryId) → O.answers w .now (.ok d.issuedAt) →
      Environment w { w with issued := d :: w.issued }
  /-- A transaction that waits for too long is rolled back and loses its lock. -/
  | expire {w : World} {keep : Wallet × Slot → Bool} :
      Environment w { w with walletLocks := w.walletLocks.filter keep }

/-- The Keyword Market. -/
def market : Machine World Reply Failure Job Slot where
  code := Job.code O.ext
  slot := Job.slot
  admits := Job.admits
  answers := O.answers
  env := Environment O
  halt job w := w.release job.slot

/-- A world before anything has happened: all tables are empty. -/
structure World.Initial (w : World) : Prop where
  db : w.db = Database.empty
  walletLocks : w.walletLocks = []
  issued : w.issued = []
  consistent : ∀ chainId, O.forest.Consistent (w.chains chainId)

end Market

end PreCommunity
