import PreCommunity.Concurrent.Locks
import PreCommunity.Concurrent.Triples
import PreCommunity.Escrow.Handlers

/-!
# The community and its database

The forum, the proposals with their votes, and the drafts of goals share one database, one clock
and the row locks of the transactions.  Users, addresses and row ids are numbers, times are
milliseconds, a decimal text of a whole number is that number.

A transaction that locks a row and then reads more is a sequence of steps: it waits for the row,
reads one statement at a time and writes in its last step, which also gives up its locks.  Nothing
that it writes is seen before.

* `CommunityProposal`, `ProposalVote`, `ForumTopic`, `ForumReply`, `Expense` : the rows.
* `Database`, `World` : the tables, the clock and the locks.
* `Query`, `Reply` : what a request asks the chain.
* `lock`, `commit`, `transactionally` : the parts of a transaction.
-/

namespace PreCommunity

namespace Community

open Concurrent Store
open Escrow (Id Time Address Hash Text FundingAsset FundingGoal MonthlySurplusPolicy)

/-! ### Rows -/

/-- `CommunitySettings` of the project. -/
structure CommunitySettings where
  forumTopicModerationEnabled : Bool
  forumMinimumPreRaw : Option ℕ
  proposalModerationEnabled : Bool
  updatedBy : Option Address
deriving DecidableEq, Repr

/-- The defaults of the columns. -/
def CommunitySettings.default : CommunitySettings where
  forumTopicModerationEnabled := false
  forumMinimumPreRaw := none
  proposalModerationEnabled := true
  updatedBy := none

/-- The states of a proposal. -/
inductive CommunityProposalStatus where
  | pendingReview | voting | passed | rejected | converted | declined | removed
deriving DecidableEq, Repr

/-- A row of `CommunityProposal`. -/
structure CommunityProposal where
  id : Id
  authorId : Id
  title : Text
  description : Text
  category : Text
  status : CommunityProposalStatus
  snapshotBlock : Option ℕ
  votingStartsAt : Option Time
  votingEndsAt : Option Time
  closedAt : Option Time
  moderatedBy : Option Address
  moderationNote : Option Text
  removedAt : Option Time
  createdAt : Time
deriving DecidableEq, Repr

/-- The choices of a voter. -/
inductive ProposalVoteChoice where
  | inFavour | against | abstain
deriving DecidableEq, Repr

/-- A row of `ProposalVote`; a proposal and a user have one. -/
structure ProposalVote where
  proposalId : Id
  userId : Id
  choice : ProposalVoteChoice
  weightRaw : ℕ
  createdAt : Time
  updatedAt : Time
deriving DecidableEq, Repr

/-- A row of `ForumCategory`. -/
structure ForumCategory where
  value : Text
  label : Text
  position : ℕ
  archivedAt : Option Time
deriving DecidableEq, Repr

/-- The states of a topic. -/
inductive ForumTopicStatus where
  | draft | pendingReview | published | locked | declined | removed
deriving DecidableEq, Repr

/-- A row of `ForumTopic`. -/
structure ForumTopic where
  id : Id
  authorId : Id
  title : Text
  body : Text
  category : Text
  status : ForumTopicStatus
  replyCount : ℕ
  lastActivityAt : Time
  editedAt : Option Time
  deletedAt : Option Time
  lockedAt : Option Time
  removedAt : Option Time
  moderatedBy : Option Address
  moderationNote : Option Text
  createdAt : Time
deriving DecidableEq, Repr

/-- A row of `ForumReply`. -/
structure ForumReply where
  id : Id
  topicId : Id
  authorId : Id
  body : Text
  parentReplyId : Option Id
  editedAt : Option Time
  deletedAt : Option Time
  removedAt : Option Time
  createdAt : Time
deriving DecidableEq, Repr

/-- How often a goal is due. -/
inductive ExpenseCadence where
  | oneTime | monthly
deriving DecidableEq, Repr

/-- A row of `FundingTarget` of a draft. -/
structure FundingTarget where
  asset : FundingAsset
  amount : Text
deriving DecidableEq, Repr

/-- A row of `Expense` with its targets. -/
structure Expense extends Escrow.Expense where
  communityProposalId : Option Id
  name : Text
  description : Text
  purpose : Text
  category : Option Text
  cadence : ExpenseCadence
  monthlySurplusPolicy : Option MonthlySurplusPolicy
  firstSettlementAtOverride : Option Time
  recipientAddress : Address
  deadline : Option Time
  discussionUrl : Option Text
  metadataUri : Option Text
  targets : List FundingTarget
deriving DecidableEq, Repr

/-- What an audit event of the settings tells: the value before and after. -/
inductive SettingsAudit where
  | forumTopicModerationEnabled (before after : Bool)
  | forumMinimumPreRaw (before after : ℕ)
  | proposalModerationEnabled (before after : Bool)
deriving DecidableEq, Repr

/-- A row of `AuditEvent` about the settings. -/
structure AuditEvent where
  actor : Address
  audit : SettingsAudit
deriving DecidableEq, Repr

/-- The tables. -/
structure Database where
  settings : Option CommunitySettings
  /-- The audit events of the settings. -/
  auditEvents : List AuditEvent
  categories : List ForumCategory
  topics : List ForumTopic
  replies : List ForumReply
  proposals : List CommunityProposal
  votes : List ProposalVote
  expenses : List Expense
  goals : List FundingGoal
  /-- The id of the next row that is created. -/
  nextId : Id
deriving DecidableEq

/-- A database without any rows. -/
def Database.empty : Database := ⟨none, [], [], [], [], [], [], [], [], 0⟩

/-! ### Processes -/

/-- The rows that a transaction locks before it reads more. -/
inductive Resource where
  | project
  | user (id : Id)
  | topic (id : Id)
  | proposal (id : Id)
deriving DecidableEq, Repr

/-- What the processes share; a process is named by its number. -/
structure World where
  /-- The database. -/
  db : Database
  /-- The time, which is the same everywhere. -/
  clock : Time
  /-- The row locks. -/
  locks : Locks ℕ Resource
deriving DecidableEq

/-- How a request fails. -/
inductive Failure where
  | badRequest (text : String)
  | notFound (text : String)
  | forbidden (text : String)
  | conflict (text : String)
  | tooManyRequests (text : String)
  | serviceUnavailable (text : String)
  /-- The current balance is below the minimum for this purpose. -/
  | notEligible (minimumRaw : ℕ) (purpose : String)
  /-- The balance at the snapshot is below the minimum. -/
  | notEligibleAtSnapshot
  | uniqueConstraint
  | recordNotFound
  | foreignKey
  | other
deriving DecidableEq, Repr

/-- What a request may ask. -/
inductive Query where
  | currentBalance (address : Address)
  | snapshotBalance (address : Address) (blockNumber : ℕ)
  | blockNumber
deriving DecidableEq, Repr

/-- The type of the answers to a question. -/
def Reply : Query → Type := fun _ => ℕ

/-- The signed-in user. -/
structure Principal where
  userId : Id
  address : Address
  /-- The user is a super administrator or a content administrator. -/
  canModerate : Bool
deriving DecidableEq, Repr

/-- A process of the API or the worker. -/
abbrev Worker := Routine Unit World Reply Failure

variable {α : Type}

/-- A query. -/
def select (f : Database → α) : Worker α := Routine.read .other fun w => f w.db

/-- `new Date()`. -/
def now : Worker Time := Routine.read .other World.clock

/-- Ask a question. -/
def ask (q : Query) : Worker ℕ := (Routine.ask q : Worker (Reply q))

/-- Lock a row; wait as long as others exclude it. -/
def lock (n : ℕ) (r : Resource) (m : LockMode) : Worker Unit :=
  Routine.await .other fun w =>
    if w.locks.free n r m then some (.ok (), { w with locks := w.locks.acquire n r m }) else none

/-- Lock a row if there is a reason to. -/
def lockIf (reason : Bool) (n : ℕ) (r : Resource) (m : LockMode) : Worker Unit :=
  if reason then lock n r m else return ()

/-- The end of a transaction that is given up. -/
def rollback (n : ℕ) : Worker Unit :=
  Routine.atomically .other fun w => (.ok (), { w with locks := w.locks.release n })

/-- The end of a transaction of the process `n`, whose writes come to `r`. -/
def World.end (n : ℕ) (r : Except Failure (Database × α)) (w : World) : Except Failure α × World :=
  match r with
  | .ok (db, a) => (.ok a, ⟨db, w.clock, w.locks.release n⟩)
  | .error e => (.error e, { w with locks := w.locks.release n })

/-- The writes of a transaction and its end.  They wait for the rows that they change, see the time
of the step, and are given up as a whole when one of them fails. -/
def commit (n : ℕ) (rows : List Resource) (t : Time → Database → Except Failure (Database × α)) :
    Worker α :=
  Routine.await .other fun w =>
    if rows.all fun r => w.locks.free n r .exclusive then some (w.end n (t w.clock w.db))
    else none

/-- The body of a transaction, which gives up its locks when it fails. -/
def transactionally (n : ℕ) (body : Worker α) : Worker α := do
  try body
  catch e =>
    rollback n
    throw e

/-! ### Writes -/

namespace Database

variable (db : Database)

/-- The proposal with an id. -/
def proposal? (id : Id) : Option CommunityProposal := db.proposals.find? fun row => row.id = id

/-- The topic with an id. -/
def topic? (id : Id) : Option ForumTopic := db.topics.find? fun row => row.id = id

/-- The reply with an id. -/
def reply? (id : Id) : Option ForumReply := db.replies.find? fun row => row.id = id

/-- The draft with an id. -/
def expense? (id : Id) : Option Expense := db.expenses.find? fun row => row.id = id

/-- Update the proposals that meet `p`. -/
def updateProposals (p : CommunityProposal → Bool) (f : CommunityProposal → CommunityProposal) :
    Database :=
  { db with proposals := updateWhere p f db.proposals }

/-- Update the topics that meet `p`. -/
def updateTopics (p : ForumTopic → Bool) (f : ForumTopic → ForumTopic) : Database :=
  { db with topics := updateWhere p f db.topics }

/-- Update the replies that meet `p`. -/
def updateReplies (p : ForumReply → Bool) (f : ForumReply → ForumReply) : Database :=
  { db with replies := updateWhere p f db.replies }

/-- Update the drafts that meet `p`. -/
def updateExpenses (p : Expense → Bool) (f : Expense → Expense) : Database :=
  { db with expenses := updateWhere p f db.expenses }

/-- Upsert the settings, and note who changed what. -/
def upsertSettings (f : CommunitySettings → CommunitySettings) (event : AuditEvent) : Database :=
  { db with
    settings := some (f (db.settings.getD .default))
    auditEvents := db.auditEvents ++ [event] }

end Database

end Community

end PreCommunity
