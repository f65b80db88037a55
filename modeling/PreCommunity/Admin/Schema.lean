import PreCommunity.Concurrent.Within
import PreCommunity.Escrow.SafeLoops

/-!
# The administration of the escrow through its Safe

An administrator may change the goal managers and the lifecycle of a monthly goal only through the
Safe that owns the escrow: the API prepares an intent, a Safe owner signs it, and the signed
transaction is submitted as a proposal.

* `SafeGoalActionIntent`, `SafeGoalManagerIntent` : what is prepared.
* `Database`, `World` : the tables of this part of the program, and what its processes share.
* `Query`, `Reply` : what a process asks.
-/

namespace PreCommunity

namespace Admin

open Concurrent Escrow

/-! ### Rows -/

/-- The parameters of a lifecycle action: what it changes, and the goal it was prepared for. -/
structure LifecycleParameters where
  targetPolicy : Option MonthlySurplusPolicy
  expectedPolicy : Option MonthlySurplusPolicy
  expectedDeadline : Time
  expectedStopRequestedAt : Option Time
  expectedStatus : FundingGoalStatus
deriving DecidableEq, Repr

/-- A row of `SafeGoalActionIntent`. -/
structure SafeGoalActionIntent where
  id : Id
  goalId : Id
  kind : SafeGoalActionKind
  parameters : LifecycleParameters
  chainId : ℕ
  safeAddress : Address
  safeNonce : ℕ
  toAddress : Address
  valueRaw : ℕ
  data : Hash
  createdByAddress : Address
  expiresAt : Time
  consumedAt : Option Time
deriving DecidableEq, Repr

/-- `GoalManagerChange`. -/
structure GoalManagerChange where
  address : Address
  enabled : Bool
deriving DecidableEq, Repr

/-- A row of `SafeGoalManagerIntent`. -/
structure SafeGoalManagerIntent where
  id : Id
  chainId : ℕ
  safeAddress : Address
  safeNonce : ℕ
  changes : List GoalManagerChange
  desiredStateHash : Hash
  createdByAddress : Address
  expiresAt : Time
  consumedAt : Option Time
deriving DecidableEq, Repr

/-- Why an address is assigned. -/
inductive GoalManagerAssignmentSource where
  | safeOwner | manual
deriving DecidableEq, Repr

/-- A row of `GoalManagerAssignment` of the deployment. -/
structure GoalManagerAssignment where
  address : Address
  source : GoalManagerAssignmentSource
  desiredEnabled : Bool
deriving DecidableEq, Repr

/-- The tables. -/
structure Database where
  goals : List FundingGoal
  actionIntents : List SafeGoalActionIntent
  actionProposals : List SafeProposal
  managerIntents : List SafeGoalManagerIntent
  managerProposals : List SafeGoalManagerProposal
  assignments : List GoalManagerAssignment
  /-- The goal managers of the deployment among the rows of `ChainAuthority`. -/
  chainManagers : List Address
  /-- The id of the next row that is created. -/
  nextId : Id
deriving DecidableEq

/-- A database without any rows. -/
def Database.empty : Database := ⟨[], [], [], [], [], [], [], 0⟩

/-! ### Questions -/

/-- `SafeRuntimeInfo`. -/
structure SafeRuntimeInfo where
  address : Address
  owners : List Address
  threshold : ℕ
  escrowOwner : Address
  isEscrowOwner : Bool
deriving DecidableEq, Repr

/-- The signed-in principal. -/
structure Principal where
  address : Address
  isOwner : Bool
  isGoalManager : Bool
  chainOwnerAddress : Option Address
  safeOwner : Bool
deriving DecidableEq, Repr

/-- What a process may ask. -/
inductive Query where
  | now
  | runtimeInfo
  | assertSafeEscrowOwner (actor : Address)
  | assertPayoutReady (actor : Address)
  | transactionServiceReady
  | nextNonce
  | validateTransactionData (transaction : Hash) (toAddress : Address) (value : ℕ) (data : Hash)
      (nonce : ℕ)
  | validateGoalManagerCalls (transaction : Hash) (changes : List GoalManagerChange) (nonce : ℕ)
  | transactionHash (transaction : Hash)
  | propose (transaction safeTxHash : Hash) (senderAddress : Address)
  | safeNonce
  | safeOwners
  /-- The three questions about one proposal that its loop may ask. -/
  | safeAnswers (safeTxHash : Hash) (nonce : ℕ)

/-- The type of the answers to a question. -/
def Reply : Query → Type
  | .now => Time
  | .runtimeInfo => SafeRuntimeInfo
  | .assertSafeEscrowOwner _ => SafeRuntimeInfo
  | .assertPayoutReady _ => SafeRuntimeInfo
  | .transactionServiceReady => Bool
  | .nextNonce => ℕ
  | .validateTransactionData _ _ _ _ _ => Unit
  | .validateGoalManagerCalls _ _ _ => Unit
  | .transactionHash _ => Hash
  | .propose _ _ _ => Unit
  | .safeNonce => ℕ
  | .safeOwners => List Address
  | .safeAnswers _ _ => SafeAnswers

/-- What the processes share. -/
structure World where
  /-- The database. -/
  db : Database

/-- A process of the worker or the API. -/
abbrev Worker := Routine Unit World Reply Failure

variable {α : Type}

/-- A query. -/
def select (f : Database → α) : Worker α := Routine.read .other fun w => f w.db

/-- A transaction that returns a result. -/
def transactionOf (t : Database → Except Failure (Database × α)) : Worker α :=
  Routine.transact .other (fun _ db => ⟨db⟩) fun w => t w.db

/-- A transaction. -/
def transaction (t : Database → Except Failure Database) : Worker Unit :=
  transactionOf fun db => (t db).map fun db => (db, ())

/-- Ask a question. -/
def ask (q : Query) : Worker (Reply q) := Routine.ask q

/-! ### Proof rules -/

section Rules

variable {G : World → World → Prop}

theorem within_select {f : Database → α} : Routine.Within G (select f) := Routine.within_read

theorem within_ask (q : Query) : Routine.Within G (ask q) := Routine.within_ask q

theorem within_transactionOf {t : Database → Except Failure (Database × α)}
    (ht : ∀ w db a, t w.db = .ok (db, a) → db = w.db ∨ G w { w with db := db }) :
    Routine.Within G (transactionOf t) := by
  refine Routine.within_transact fun w db a h => ?_
  exact (ht w db a h).imp_left (congrArg World.mk)

theorem within_transaction {t : Database → Except Failure Database}
    (ht : ∀ w db, t w.db = .ok db → db = w.db ∨ G w { w with db := db }) :
    Routine.Within G (transaction t) := by
  refine within_transactionOf fun w db a h => ?_
  cases hok : t w.db with
  | error e => simp [hok, Except.map] at h
  | ok db' =>
    obtain rfl : db' = db := by simpa [hok, Except.map] using h
    exact ht w db' hok

end Rules

end Admin

end PreCommunity
