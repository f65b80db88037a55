import PreCommunity.Admin.Managers

/-!
# The administration as a system of processes

Any number of requests and synchronisations run over one database.  The environment projects the
contract: it changes the goals and the authorities, and the policy of the goal managers.

* `ActionWrite`, `ManagerWrite` : what a statement may do to the tables of lifecycle actions, and to
  those of the goal managers.
* `Job`, `admin` : the machine.
* `admin_within` : all writes of the machine are of these kinds.
-/

namespace PreCommunity

namespace Admin

open Store Concurrent Escrow

/-! ### Kinds of writes -/

/-- A change of the proposals that meet `p`, which makes none of them pending again. -/
structure Advances (p : SafeProposal → Bool) (f : SafeProposal → SafeProposal) : Prop where
  id : ∀ row, (f row).id = row.id
  intentId : ∀ row, (f row).intentId = row.intentId
  pending : ∀ row, p row = true → (f row).status.pending = true → row.status.pending = true

/-- What a statement may do to the tables of lifecycle actions. -/
inductive ActionWrite (config : Deployment) : Database → Database → Prop where
  /-- It changes other tables. -/
  | elsewhere {db db' : Database} : db'.actionIntents = db.actionIntents →
      db'.actionProposals = db.actionProposals → db.nextId ≤ db'.nextId →
      ActionWrite config db db'
  /-- Intents are given up. -/
  | consume {db : Database} (p : SafeGoalActionIntent → Bool) (now : Time) :
      ActionWrite config db
        (db.updateActionIntents p fun row => { row with consumedAt := some now })
  /-- An intent is prepared. -/
  | insert {db db' : Database} {goal : FundingGoal} {dto : PrepareGoalLifecycle} {actor : Address}
      {safeInfo : SafeRuntimeInfo} {safeNonce : ℕ} {data : Hash} {expiresAt : Time}
      {intent : SafeGoalActionIntent} :
      insertActionIntentTx config goal dto actor safeInfo safeNonce data expiresAt db =
        .ok (db', intent) → ActionWrite config db db'
  /-- An intent is submitted. -/
  | claim {db db' : Database} {intent : SafeGoalActionIntent} {safeTxHash : Hash}
      {actor : Address} {threshold : ℕ} {consumedAt : Time} {proposal : SafeProposal} :
      claimActionTx intent safeTxHash actor threshold consumedAt db = .ok (db', proposal) →
        ActionWrite config db db'
  /-- Proposals advance. -/
  | advance {db : Database} {p : SafeProposal → Bool} {f : SafeProposal → SafeProposal} :
      Advances p f → ActionWrite config db (db.updateActionProposals p f)

/-- A change of the proposals that meet `p`, which frees a key just when it ends the proposal. -/
structure KeepsKey (p : SafeGoalManagerProposal → Bool)
    (f : SafeGoalManagerProposal → SafeGoalManagerProposal) : Prop where
  id : ∀ row, (f row).id = row.id
  intentId : ∀ row, (f row).intentId = row.intentId
  pending : ∀ row, p row = true → (f row).status.pending = true →
    row.status.pending = true ∧ (f row).activeKey = row.activeKey
  ended : ∀ row, p row = true → (f row).status.pending = false →
    (f row).activeKey = none ∨ row.status.pending = false ∧ (f row).activeKey = row.activeKey

/-- The intent is in the table, for the same Safe. -/
def Database.HasManagerIntent (db : Database) (intent : SafeGoalManagerIntent) : Prop :=
  ∃ row ∈ db.managerIntents, row.id = intent.id ∧ row.key = intent.key

/-- What a statement may do to the tables of the goal managers. -/
inductive ManagerWrite (config : Deployment) : Database → Database → Prop where
  /-- It changes other tables. -/
  | elsewhere {db db' : Database} : db'.managerIntents = db.managerIntents →
      db'.managerProposals = db.managerProposals → db.nextId ≤ db'.nextId →
      ManagerWrite config db db'
  /-- An intent is prepared. -/
  | insert {db db' : Database} {info : SafeRuntimeInfo} {safeNonce : ℕ}
      {changes : List GoalManagerChange} {desiredStateHash : Hash} {actor : Address}
      {expiresAt : Time} {intent : SafeGoalManagerIntent} :
      insertManagerIntentTx config info safeNonce changes desiredStateHash actor expiresAt db =
        .ok (db', intent) → ManagerWrite config db db'
  /-- An intent is submitted. -/
  | claim {db db' : Database} {intent : SafeGoalManagerIntent} {safeTxHash : Hash}
      {actor : Address} {threshold : ℕ} {claimedAt : Time} {proposal : SafeGoalManagerProposal} :
      db.HasManagerIntent intent →
        claimManagerTx intent safeTxHash actor threshold claimedAt db = .ok (db', proposal) →
        ManagerWrite config db db'
  /-- Proposals change. -/
  | update {db : Database} {p : SafeGoalManagerProposal → Bool}
      {f : SafeGoalManagerProposal → SafeGoalManagerProposal} :
      KeepsKey p f → ManagerWrite config db (db.updateManagerProposals p f)

/-- What a statement may do. -/
def Write (config : Deployment) (w w' : World) : Prop :=
  ActionWrite config w.db w'.db ∧ ManagerWrite config w.db w'.db

/-! ### The machine -/

/-- What may run; the number tells the jobs apart that run side by side. -/
inductive Job where
  | prepareLifecycle (n : ℕ) (goalId : Id) (dto : PrepareGoalLifecycle) (actor : Principal)
  | submitAction (n : ℕ) (intentId : Id) (dto : SafeSubmission) (actor : Address)
  | syncActions (n : ℕ) (updatedAt : Id → Time)
  | confirmAction (n : ℕ) (goalId : Id) (kind : SafeGoalActionKind) (txHash : Hash)
      (occurredAt : Time) (targetPolicy : Option MonthlySurplusPolicy)
  | prepareManagers (n : ℕ) (actor : Address) (dto : PrepareSafeDelivery)
  | updateManager (n : ℕ) (address : Address) (enabled : Bool) (dto : PrepareSafeDelivery)
      (actor : Address)
  | submitManagers (n : ℕ) (intentId : Id) (dto : SafeSubmission) (actor : Address)
  | syncManagers (n : ℕ) (updatedAt : Id → Time)

/-- Where a job runs. -/
def Job.slot : Job → ℕ
  | prepareLifecycle n .. | submitAction n .. | syncActions n _ | confirmAction n .. => n
  | prepareManagers n .. | updateManager n .. | submitManagers n .. | syncManagers n _ => n

/-- What the system is placed in. -/
structure Outside where
  /-- The deployment. -/
  config : Deployment
  /-- `encodeGoalLifecycleData`. -/
  encodeGoalLifecycleData : Hash → SafeGoalActionKind → Option MonthlySurplusPolicy → Hash
  /-- `goalManagerStateHash` of a normalized list. -/
  goalManagerStateHash : List Address → Hash
  /-- The answers that the outside world may give. -/
  answers : World → (q : Query) → Except Failure (Reply q) → Prop

variable (O : Outside)

/-- The code of a job. -/
def Job.code : Job → Program World Reply Failure Unit
  | prepareLifecycle _ goalId dto actor =>
      (prepareGoalLifecycle O.config O.encodeGoalLifecycleData goalId dto actor).silently ()
  | submitAction _ intentId dto actor =>
      (submitSafeGoalAction O.config intentId dto actor).silently ()
  | syncActions _ updatedAt => (syncSafeGoalActionProposals O.config updatedAt).silently ()
  | confirmAction _ goalId kind txHash occurredAt targetPolicy =>
      (confirmSafeGoalAction goalId kind txHash occurredAt targetPolicy).silently ()
  | prepareManagers _ actor dto =>
      (prepareSafeGoalManagerSync O.config O.goalManagerStateHash actor dto).silently ()
  | updateManager _ address enabled dto actor =>
      (updateGoalManager O.config O.goalManagerStateHash address enabled dto actor).silently ()
  | submitManagers _ intentId dto actor =>
      (submitSafeGoalManagerIntent O.config O.goalManagerStateHash intentId dto actor).silently ()
  | syncManagers _ updatedAt =>
      (syncSafeGoalManagerProposals O.config O.goalManagerStateHash updatedAt).silently ()

/-- The steps of the environment: the goals, the managers of the contract and the policy of the
goal managers change. -/
inductive Environment : World → World → Prop where
  | project {w : World} (goals : List FundingGoal) (chainManagers : List Address)
      (assignments : List GoalManagerAssignment) :
      Environment w ⟨{ w.db with
        goals := goals
        chainManagers := chainManagers
        assignments := assignments }⟩

/-- The administration. -/
def admin : Machine World Reply Failure Job ℕ where
  code := Job.code O
  slot := Job.slot
  admits _ _ := true
  answers := O.answers
  env := Environment
  halt _ w := w

end Admin

end PreCommunity
