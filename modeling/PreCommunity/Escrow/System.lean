import PreCommunity.Concurrent.Pool
import PreCommunity.Escrow.Indexer
import PreCommunity.Escrow.SafeSync

/-!
# The escrow as a system of processes

The requests of any number of administrators, the Safe synchronisation and the indexer run over one
world.  The indexer is one process: its transactions, each of which projects one log or resets the
projection, happen one after another, and here in any order.  The environment moves the chain.

Every transaction is one step, as if the database ran them one after another.

* `Job` : what may run.
* `Outside` : the third-party functions, the block tree, and the answers of the outside world.
* `escrow` : the machine.
-/

namespace PreCommunity

namespace Escrow

open Concurrent

/-- Where a job runs; `other n` numbers the jobs that run side by side. -/
inductive Slot where
  | indexer
  | other (n : ℕ)
deriving DecidableEq, Repr

/-- What may run. -/
inductive Job where
  | create (n : ℕ) (goalId : Id) (dto : ReleaseProposal) (actor : Address)
  | submit (n : ℕ) (intentId : Id) (dto : SafeSubmission) (actor : Address)
  | cancel (n : ℕ) (intentId : Id) (actor : Address)
  | expire (n : ℕ)
  | sync (n : ℕ) (updatedAt : Id → Time)
  /-- The transaction of the indexer that projects a log. -/
  | project (event : DecodedEscrowEvent)
  /-- The transaction of the indexer that resets the projection. -/
  | rebuild

/-- Where a job runs. -/
def Job.slot : Job → Slot
  | create n .. => .other n
  | submit n .. => .other n
  | cancel n .. => .other n
  | expire n => .other n
  | sync n _ => .other n
  | project _ => .indexer
  | rebuild => .indexer

/-- The code of a job. -/
def Job.code (config : Deployment) (ext : External) : Job → Program World Reply Failure Unit
  | create _ goalId dto actor => (createSafePayoutIntent config ext goalId dto actor).silently ()
  | submit _ intentId dto actor => (submitSafePayoutProposal config intentId dto actor).silently ()
  | cancel _ intentId actor => (cancelManualSafePayout config intentId actor).silently ()
  | expire _ => (expireAbandonedSafeIntents config).silently ()
  | sync _ updatedAt => (syncSafePayoutProposals config updatedAt).silently ()
  | project event => (transactionOf (projectLog config ext event)).silently ()
  | rebuild => (rebuildAfterReorg config).silently ()

/-- What the system is placed in. -/
structure Outside where
  /-- The deployment. -/
  config : Deployment
  /-- The third-party functions. -/
  ext : External
  /-- The tree of all blocks. -/
  forest : Chain.Forest Hash
  /-- The answers that the outside world may give. -/
  answers : World → (q : Query) → Except Failure (Reply q) → Prop

variable (O : Outside)

/-- The steps of the environment: the chain grows or reorganises. -/
inductive Environment : World → World → Prop where
  | chain {w : World} {c : Chain.ChainState Hash} :
      O.forest.Follows w.chain c → O.forest.Consistent c → Environment w { w with chain := c }

/-- The escrow. -/
def escrow : Machine World Reply Failure Job Slot where
  code := Job.code O.config O.ext
  slot := Job.slot
  admits _ _ := true
  answers := O.answers
  env := Environment O
  halt _ w := w

end Escrow

end PreCommunity
