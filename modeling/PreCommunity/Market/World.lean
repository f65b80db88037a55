import PreCommunity.Chain.Forest
import PreCommunity.Concurrent.Logic
import PreCommunity.Market.Schema

/-!
# The world of the Keyword Market

What the processes share (`World`), what they ask (`Query`, `Reply`), how they fail (`Failure`),
and the forms in which they use the database.

A process asks its node, its keystore, its clock and its source of random numbers; the charge
chain, the publication chain and the chain adapter of the source are functions of these
questions.  `Tx` is a database transaction: it sees one state of the tables, and an exception
rolls it back.
-/

namespace PreCommunity

namespace Market

open Concurrent

/-- A `ChargeBlocked` or `PricePublicationBlocked` with its code, or any other error. -/
inductive Failure where
  | blocked (code : ErrorCode)
  | other
deriving DecidableEq, Repr

/-- `code` and `errorCode`: the code of an error. -/
def Failure.code : Failure → ErrorCode
  | blocked code => code
  | other => .rpcUnavailable

/-! ### Questions -/

/-- A decoded log of the contract. -/
inductive MarketEvent where
  | stakeCharged (chargeId keywordId : Hash) (staker : Address) (requestedPre chargedPre : ℤ)
  | preUsdPriceUpdated (priceE18 quotedAt : ℕ)
  | other

/-- A log of a receipt; `event` is `none` when it does not decode. -/
structure ReceiptLog where
  address : Address
  event : Option MarketEvent

/-- A transaction receipt as the node returns it. -/
structure TransactionReceipt where
  transactionHash : Option Hash
  blockNumber : ℕ
  blockHash : Hash
  reverted : Bool
  logs : List ReceiptLog

/-- The result of `stakeDetailsOf`. -/
structure StakeDetails where
  amount : ℕ
  bidUsd : ℕ
  positionVersion : ℕ
deriving DecidableEq, Repr

/-- The position a `PositionChanged` log reports. -/
structure PositionChanged where
  keywordId : Hash
  staker : Address
  newStake : ℕ
  previousStake : ℕ
  bidUsd : ℕ
  requiredCoveragePre : ℕ
  eligible : Bool
  withdrawAvailableAt : ℕ
  positionVersion : ℕ

/-- The charge a `StakeCharged` log reports. -/
structure StakeCharged where
  chargeId : Hash
  keywordId : Hash
  staker : Address
  requestedPre : ℕ
  chargedPre : ℕ
  remainingPre : ℕ

/-- A log with its place in the chain. -/
structure Placed (α : Type) where
  blockNumber : ℕ
  blockHash : Hash
  transactionHash : Hash
  logIndex : ℕ
  args : α

/-- Signed bytes and their hash. -/
structure SignedTransaction where
  raw : Hash
  hash : Hash

/-- A quote of PRE in USD, as `readLatestPreUsdPrice` returns it. -/
structure PreUsdQuote where
  id : Id
  priceUsd : Text
  quotedAt : ℕ

/-- What a process may ask. -/
inductive Query where
  | chainId
  | blockNumber (chainId : ℕ)
  | blockHash (chainId block : ℕ)
  | latestBlock (chainId : ℕ)
  | stakeDetailsOf (identity : Identity) (keywordId : Hash) (staker : Address) (block : Option ℕ)
  | preUsdPriceE18 (identity : Identity) (block : ℕ)
  | preUsdPriceQuotedAt (identity : Identity) (block : ℕ)
  | minimumStake (identity : Identity) (block : ℕ)
  | paused (identity : Identity) (block : ℕ)
  | operator (identity : Identity) (block : Option ℕ)
  | priceUpdater (identity : Identity) (block : Option ℕ)
  | chargeProcessed (identity : Identity) (chargeId : Hash)
  | transactionReceipt (chainId : ℕ) (hash : Hash)
  | transactionCount (chainId : ℕ) (address : Address) (pending : Bool)
  | balance (chainId : ℕ) (address : Address)
  | positionLogs (identity : Identity) (fromBlock toBlock : ℕ)
  | chargeLogs (identity : Identity) (fromBlock toBlock : ℕ)
  | verifyReadiness (identity : Identity)
  | verifyContract (identity : Identity)
  | unlockOperator
  | unlockPriceUpdater
  | signCharge (batch : ChargeBatch) (signer : Address) (nonce : ℕ)
  | signPublication (publication : PricePublication) (signer : Address) (nonce : ℕ)
  | sendRawTransaction (chainId : ℕ) (raw : Hash)
  | latestPreUsdPrice
  | enqueueRun (runId : Id)
  | now
  | random

/-- The type of the answers to a question; `random` is answered by a stream of ids. -/
def Reply : Query → Type
  | .chainId => ℕ
  | .blockNumber _ => ℕ
  | .blockHash _ _ => Hash
  | .latestBlock _ => ℕ × Hash
  | .stakeDetailsOf _ _ _ _ => StakeDetails
  | .preUsdPriceE18 _ _ => ℕ
  | .preUsdPriceQuotedAt _ _ => ℕ
  | .minimumStake _ _ => ℕ
  | .paused _ _ => Bool
  | .operator _ _ => Address
  | .priceUpdater _ _ => Address
  | .chargeProcessed _ _ => Bool
  | .transactionReceipt _ _ => Option TransactionReceipt
  | .transactionCount _ _ _ => ℕ
  | .balance _ _ => ℕ
  | .positionLogs _ _ _ => List (Placed PositionChanged)
  | .chargeLogs _ _ _ => List (Placed StakeCharged)
  | .verifyReadiness _ => Unit
  | .verifyContract _ => Unit
  | .unlockOperator => Address
  | .unlockPriceUpdater => Address
  | .signCharge _ _ _ => SignedTransaction
  | .signPublication _ _ _ => SignedTransaction
  | .sendRawTransaction _ _ => Hash
  | .latestPreUsdPrice => Option PreUsdQuote
  | .enqueueRun _ => Unit
  | .now => ℕ
  | .random => ℕ → Id

/-! ### The shared state -/

/-- Where a job runs: one charge pass and one publication pass at a time, and any number of index
passes, requests and maintenance jobs. -/
inductive Slot where
  | charge
  | publication
  | other (n : ℕ)
deriving DecidableEq, Repr

/-- A signing wallet: its chain and its address. -/
structure Wallet where
  chainId : ℕ
  signerAddress : Address
deriving DecidableEq, Repr

/-- The payload of a delivery token. -/
structure AdDelivery where
  deliveryId : Id
  issuedAt : ℕ
  revisionId : Id
  identity : Identity
  keywordId : Hash
  keyword : Text
  stakerAddress : Address
  positionVersion : ℕ
deriving DecidableEq, Repr

/-- What the processes share. -/
structure World where
  /-- The database. -/
  db : Database
  /-- The chains, by chain id. -/
  chains : ℕ → Chain.ChainState Hash
  /-- The clock of the database, in microseconds. -/
  clock : ℕ
  /-- The advisory locks on wallets, with the job that holds them. -/
  walletLocks : List (Wallet × Slot)
  /-- The delivery tokens signed so far. -/
  issued : List AdDelivery

/-- The world with other tables. -/
def World.withDb (w : World) (db : Database) : World := { w with db := db }

@[simp] theorem World.withDb_db (w : World) (db : Database) : (w.withDb db).db = db := rfl

/-! ### Using the database -/

/-- A process of the worker or the API, with private memory `μ`. -/
abbrev Worker (μ : Type) := Routine μ World Reply Failure

/-- What a process did so far. -/
abbrev Log := History World Reply Failure

/-- A database transaction. -/
abbrev Tx := StateT Database (Except Failure)

variable {μ α : Type}

/-- A query. -/
def select (f : Database → α) : Worker μ α := Routine.read .other fun w => f w.db

/-- An update that cannot fail. -/
def update (f : Database → Database) : Worker μ Unit :=
  Routine.write .other fun w => w.withDb (f w.db)

/-- A transaction. -/
def transaction (t : Tx α) : Worker μ α :=
  Routine.atomically .other fun w => match t.run w.db with
    | .ok (a, db) => (.ok a, w.withDb db)
    | .error e => (.error e, w)

/-- Ask a question. -/
def ask (q : Query) : Worker μ (Reply q) := Routine.ask q

/-! ### Proof rules -/

section Rules

variable {D : Discipline World Reply Failure} {E : Failure → View μ World Reply Failure → Prop}
  {v : View μ World Reply Failure}

theorem wp_select {f : Database → α} {Q : α → View μ World Reply Failure → Prop}
    (h : ∀ w, D.rely v.shared w → D.inv w → Q (f w.db) (v.ran w w) ∧ E .other (v.ran w w)) :
    Routine.wp D (select f) Q E v :=
  Routine.wp_read h

theorem wp_update {f : Database → Database} {Q : Unit → View μ World Reply Failure → Prop}
    (hlost : ∀ w, D.rely v.shared w → D.inv w → E .other (v.ran w w))
    (h : ∀ w, D.rely v.shared w → D.inv w → D.guar v.hist w (w.withDb (f w.db)) ∧
      Q () (v.ran w (w.withDb (f w.db))) ∧ E .other (v.ran w (w.withDb (f w.db)))) :
    Routine.wp D (update f) Q E v :=
  Routine.wp_write hlost h

theorem wp_transaction {t : Tx α} {Q : α → View μ World Reply Failure → Prop}
    (hlost : ∀ w, D.rely v.shared w → D.inv w → E .other (v.ran w w))
    (hok : ∀ w a db, D.rely v.shared w → D.inv w → t.run w.db = .ok (a, db) →
      D.guar v.hist w (w.withDb db) ∧ Q a (v.ran w (w.withDb db)) ∧
        E .other (v.ran w (w.withDb db)))
    (habort : ∀ w e, D.rely v.shared w → D.inv w → t.run w.db = .error e → E e (v.ran w w)) :
    Routine.wp D (transaction t) Q E v := by
  refine Routine.wp_atomically hlost ?_ ?_
  · intro w a w' hrely hinv ht
    split at ht
    · simp only [Prod.mk.injEq, Except.ok.injEq] at ht
      obtain ⟨rfl, rfl⟩ := ht
      exact hok _ _ _ hrely hinv ‹_›
    · simp at ht
  · intro w e w' hrely hinv ht
    split at ht
    · simp at ht
    · simp only [Prod.mk.injEq, Except.error.injEq] at ht
      obtain ⟨rfl, rfl⟩ := ht
      exact ⟨D.guar_refl _ _, habort _ _ hrely hinv ‹_›, hlost _ hrely hinv⟩

end Rules

end Market

end PreCommunity
