import PreCommunity.Chain.Forest
import PreCommunity.Concurrent.Logic
import PreCommunity.Escrow.Reset

/-!
# The world of the escrow

What the processes share (`World`), what they ask (`Query`, `Reply`), and the forms in which they
use the database.  The Safe, its transaction service, the node and the clock are asked.

A transaction takes effect as one step.  This is an assumption: the transactions of the escrow run
at the default isolation of the database, where a statement of another one can come between a read
and a later write by id, and what holds of every run holds only if none does.

* `SafeInfo`, `SafeTransaction` : what is known of the Safe and of its transactions.
* `select`, `transaction` : a query, and a transaction that an error rolls back.
-/

namespace PreCommunity

namespace Escrow

open Concurrent

/-- What the API knows of the Safe. -/
structure SafeInfo where
  address : Address
  threshold : ℕ
deriving DecidableEq, Repr

/-- A transaction as the Safe's transaction service reports it. -/
structure SafeTransaction where
  safeTxHash : Hash
  nonce : ℕ
  /-- The number of confirmations, if they are reported. -/
  confirmations : Option ℕ
  confirmationsRequired : ℕ
  isExecuted : Bool
  isSuccessful : Option Bool
  transactionHash : Option Hash
  executionDate : Option Time
deriving DecidableEq, Repr

/-- A log of the contract with its place in the chain. -/
structure EscrowLog where
  event : EscrowEvent
  blockNumber : ℕ
  blockHash : Hash
  txHash : Hash
  logIndex : ℕ
deriving DecidableEq, Repr

/-- A block as the node returns it. -/
structure BlockHeader where
  hash : Hash
  timestamp : ℕ
deriving DecidableEq, Repr

/-- What a process may ask. -/
inductive Query where
  | now
  | assertSafeEscrowOwner (actor : Address)
  | assertPayoutReady (actor : Address)
  | assertOwner (actor : Address)
  | nextNonce
  | validateTransactionData (transaction : Hash) (toAddress : Address) (value : ℕ) (data : Hash)
      (nonce : ℕ)
  | transactionHash (transaction : Hash)
  | propose (transaction safeTxHash : Hash) (senderAddress : Address)
  | safeNonce
  | safeTransaction (safeTxHash : Hash)
  | multisigTransactions (nonce : ℕ) (executedOnly : Bool)
  | verifyManifest
  | blockNumber
  | block (number : ℕ)
  | contractEvents (fromBlock toBlock : ℕ)
  | goalMetadata (uri : Text)

/-- The type of the answers to a question. -/
def Reply : Query → Type
  | .now => Time
  | .assertSafeEscrowOwner _ => SafeInfo
  | .assertPayoutReady _ => SafeInfo
  | .assertOwner _ => SafeInfo
  | .nextNonce => ℕ
  | .validateTransactionData _ _ _ _ _ => Unit
  | .transactionHash _ => Hash
  | .propose _ _ _ => Unit
  | .safeNonce => ℕ
  | .safeTransaction _ => SafeTransaction
  | .multisigTransactions _ _ => List SafeTransaction
  | .verifyManifest => Unit
  | .blockNumber => ℕ
  | .block _ => BlockHeader
  | .contractEvents _ _ => List EscrowLog
  | .goalMetadata _ => Option Text

/-- What the processes share. -/
structure World where
  /-- The database. -/
  db : Database
  /-- The chain of the contract. -/
  chain : Chain.ChainState Hash

/-- The world with other tables. -/
def World.withDb (w : World) (db : Database) : World := { w with db := db }

/-! ### Using the database -/

/-- A process of the worker or the API. -/
abbrev Worker := Routine Unit World Reply Failure

/-- What a process did so far. -/
abbrev Log := History World Reply Failure

/-- What a process sees. -/
abbrev Sight := View Unit World Reply Failure

variable {α : Type}

/-- A query. -/
def select (f : Database → α) : Worker α := Routine.read .other fun w => f w.db

/-- A transaction that returns a result, as one step. -/
def transactionOf (t : Database → Except Failure (Database × α)) : Worker α :=
  Routine.transact .other World.withDb fun w => t w.db

/-- A transaction. -/
def transaction (t : Database → Except Failure Database) : Worker Unit :=
  transactionOf fun db => (t db).map fun db => (db, ())

/-- Ask a question. -/
def ask (q : Query) : Worker (Reply q) := Routine.ask q

/-! ### Proof rules -/

section Rules

variable {D : Discipline World Reply Failure} {E : Failure → Sight → Prop} {v : Sight}

theorem wp_select {f : Database → α} {Q : α → Sight → Prop}
    (h : ∀ w, D.rely v.shared w → D.inv w → Q (f w.db) (v.ran w w) ∧ E .other (v.ran w w)) :
    Routine.wp D (select f) Q E v :=
  Routine.wp_read h

theorem wp_transactionOf {t : Database → Except Failure (Database × α)} {Q : α → Sight → Prop}
    (hlost : ∀ w, D.rely v.shared w → D.inv w → E .other (v.ran w w))
    (hok : ∀ w db a, D.rely v.shared w → D.inv w → t w.db = .ok (db, a) →
      D.guar v.hist w (w.withDb db) ∧ Q a (v.ran w (w.withDb db)) ∧
        E .other (v.ran w (w.withDb db)))
    (habort : ∀ w e, D.rely v.shared w → D.inv w → t w.db = .error e → E e (v.ran w w)) :
    Routine.wp D (transactionOf t) Q E v :=
  Routine.wp_transact hlost (fun w db a => hok w db a) habort

theorem wp_transaction {t : Database → Except Failure Database} {Q : Unit → Sight → Prop}
    (hlost : ∀ w, D.rely v.shared w → D.inv w → E .other (v.ran w w))
    (hok : ∀ w db, D.rely v.shared w → D.inv w → t w.db = .ok db →
      D.guar v.hist w (w.withDb db) ∧ Q () (v.ran w (w.withDb db)) ∧
        E .other (v.ran w (w.withDb db)))
    (habort : ∀ w e, D.rely v.shared w → D.inv w → t w.db = .error e → E e (v.ran w w)) :
    Routine.wp D (transaction t) Q E v := by
  refine wp_transactionOf hlost ?_ ?_
  · intro w db a hrely hinv ht
    cases h : t w.db with
    | error e => simp [h, Except.map] at ht
    | ok db' =>
      obtain rfl : db' = db := by simpa [h, Except.map] using ht
      exact hok w db' hrely hinv h
  · intro w e hrely hinv ht
    cases h : t w.db with
    | error e' =>
      obtain rfl : e' = e := by simpa [h, Except.map] using ht
      exact habort w e' hrely hinv h
    | ok db' => simp [h, Except.map] at ht

end Rules

end Escrow

end PreCommunity
