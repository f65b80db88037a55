import Mathlib.Data.List.Dedup
import PreCommunity.Community.System

/-!
# The writes of the community

A step of a job locks a row, or ends its transaction with one of a few kinds of writes.

* `World.Holds` : a lock that is held.
* `TopicEdit`, `Enters` : what becomes of a topic, and when one leaves the drafts.
* `raw_aggregate` : the totals of the votes are sums over the votes.
* `ProposalStep`, `SettingsStep` : what becomes of a proposal and of the settings.
* `Change`, `Does` : the kinds of writes, and the steps of a job.
-/

namespace PreCommunity

namespace Community

open Concurrent Store
open Escrow (Id Time Address Hash Text GoalFacts)

/-- The process `n` holds a lock. -/
def World.Holds (w : World) (n : ℕ) (r : Resource) (m : LockMode) : Prop :=
  (⟨n, r, m⟩ : Held ℕ Resource) ∈ w.locks

/-! ### Topics and replies -/

/-- An update of a topic that is neither its publication nor its first row. -/
structure TopicEdit (row row' : ForumTopic) : Prop where
  id : row'.id = row.id
  authorId : row'.authorId = row.authorId
  createdAt : row'.createdAt = row.createdAt
  replyCount : row'.replyCount = row.replyCount
  draft : row'.status = .draft ↔ row.status = .draft
  deletedAt : row'.deletedAt = none → row.deletedAt = none
  removedAt : row'.removedAt = none → row.removedAt = none

/-- A topic leaves the drafts, or is created outside of them. -/
structure Enters (w : World) (n : ℕ) (userId : Id) (category : Text) (status : ForumTopicStatus)
    (createdAt : Time) : Prop where
  user : w.Holds n (.user userId) .exclusive
  active : w.db.isActiveCategory category = true
  status : status = publishedStatus w.db.settings
  limit : ∃ checked, w.db.topicsSince userId (checked - 60 * 60 * 1000) < 3 ∧ checked ≤ createdAt

/-- An update of a reply. -/
structure ReplyEdit (row row' : ForumReply) : Prop where
  topicId : row'.topicId = row.topicId
  authorId : row'.authorId = row.authorId
  createdAt : row'.createdAt = row.createdAt

/-! ### Proposals -/

/-- The total weight of the votes for a proposal with this choice. -/
def Database.weight (db : Database) (proposalId : Id) (choice : ProposalVoteChoice) : ℕ :=
  total (fun vote => vote.proposalId = proposalId ∧ vote.choice = choice) (·.weightRaw) db.votes

/-- The total for a choice. -/
def ProposalVoteTotals.raw (totals : ProposalVoteTotals) : ProposalVoteChoice → ℕ
  | .inFavour => totals.forRaw
  | .against => totals.againstRaw
  | .abstain => totals.abstainRaw

theorem ProposalVoteTotals.raw_add (totals : ProposalVoteTotals) (row : ProposalVoteAggregateRow)
    (choice : ProposalVoteChoice) : (totals.add row).raw choice =
      if row.choice = choice then row.weightRaw else totals.raw choice := by
  obtain ⟨rowChoice, weightRaw, voterCount⟩ := row
  cases rowChoice <;> cases choice <;> rfl

/-- Rows for different choices are taken into the totals. -/
theorem raw_foldl (g : ProposalVoteChoice → ProposalVoteAggregateRow)
    (hg : ∀ choice, (g choice).choice = choice) {choices : List ProposalVoteChoice}
    (hchoices : choices.Nodup) (totals : ProposalVoteTotals) (choice : ProposalVoteChoice) :
    ((choices.map g).foldl ProposalVoteTotals.add totals).raw choice =
      if choice ∈ choices then (g choice).weightRaw else totals.raw choice := by
  induction choices generalizing totals with
  | nil => simp
  | cons c choices ih =>
    obtain ⟨hc, hrest⟩ := List.nodup_cons.1 hchoices
    rw [List.map_cons, List.foldl_cons, ih hrest, ProposalVoteTotals.raw_add, hg]
    by_cases heq : c = choice
    · subst heq
      simp [hc]
    · have hne : choice ≠ c := fun h => heq h.symm
      simp [heq, hne]

/-- The grouped query agrees with the sums over the votes. -/
theorem raw_aggregate (proposalId : Id) (db : Database) (choice : ProposalVoteChoice) :
    (aggregateProposalVoteTotals proposalId db).raw choice = db.weight proposalId choice := by
  have hweight : db.weight proposalId choice = (((db.votes.filter fun vote =>
      vote.proposalId = proposalId).filter fun vote => vote.choice = choice).map
        (·.weightRaw)).sum := by
    unfold Database.weight total
    rw [List.filter_filter]
    refine congrArg (fun l => (List.map _ l).sum) (List.filter_congr fun vote _ => ?_)
    rw [Bool.and_comm]
    simp
  unfold aggregateProposalVoteTotals voteAggregateRows
  simp only
  rw [raw_foldl _ (fun _ => rfl) (List.nodup_dedup _), hweight]
  split_ifs with hmem
  · rfl
  · -- nobody chose it
    have hnone : (db.votes.filter fun vote => vote.proposalId = proposalId).filter
        (fun vote => vote.choice = choice) = [] := by
      refine List.filter_eq_nil_iff.2 fun vote hvote hchoice => hmem ?_
      exact List.mem_dedup.2 (List.mem_map.2 ⟨vote, hvote, of_decide_eq_true hchoice⟩)
    rw [hnone]
    cases choice <;> rfl

/-- What may become of a proposal. -/
inductive ProposalStep (w : World) (j : Job) (row : CommunityProposal) :
    CommunityProposal → Prop where
  | text (title description category : Text) :
      (∃ n dto actor, j = .update n row.id dto actor) → ProposalStep w j row
        { row with title := title, description := description, category := category }
  | openVoting (block : ℕ) (current : Time) (actor : Address) (note : Option Text) :
      row.status = .pendingReview → ProposalStep w j row
        { row with
          status := .voting
          snapshotBlock := some block
          votingStartsAt := some current
          votingEndsAt := some (current + votingWindowMs)
          moderatedBy := some actor
          moderationNote := note }
  | close (closedAt : Time) : row.status = .voting → row.votingEndsAt.any (· ≤ w.clock) = true →
      ProposalStep w j row { row with
        status := if w.db.weight row.id .against < w.db.weight row.id .inFavour then .passed
          else .rejected
        closedAt := some closedAt }
  | decline (closedAt : Time) (actor : Address) (note : Option Text) :
      row.status = .pendingReview ∨ row.status = .passed ∨ row.status = .rejected →
      ProposalStep w j row { row with
        status := .declined
        moderatedBy := some actor
        moderationNote := note
        closedAt := some closedAt }
  | remove (removedAt : Time) (actor : Address) (note : Option Text) : row.status ≠ .converted →
      ProposalStep w j row { row with
        status := .removed
        moderatedBy := some actor
        moderationNote := note
        removedAt := some removedAt }

/-- The vote was decided in the end. -/
def CommunityProposal.decided (row : CommunityProposal) : Bool :=
  row.status = .passed ∨ row.status = .converted ∨ row.status = .declined ∨ row.status = .removed

/-- The proposal is in the table, and its vote was decided. -/
def Database.Decided (db : Database) (id : Id) : Prop :=
  ∃ row ∈ db.proposals, row.id = id ∧ row.decided = true

/-! ### Settings -/

/-- The switches are set by the jobs that set them only. -/
structure SettingsStep (j : Job) (settings settings' : CommunitySettings) : Prop where
  topics : settings'.forumTopicModerationEnabled = settings.forumTopicModerationEnabled ∨
    ∃ n actor, j = .forumSettings n settings'.forumTopicModerationEnabled actor
  proposals : settings'.proposalModerationEnabled = settings.proposalModerationEnabled ∨
    ∃ n actor, j = .proposalSettings n settings'.proposalModerationEnabled actor

/-! ### Writes -/

variable (O : Outside)

/-- The balance is an answer of the chain. -/
def Outside.Answered (address : Address) (block : Option ℕ) (weight : ℕ) : Prop :=
  ∃ w, O.answers w (.snapshotBalance address (block.getD 0)) (.ok weight)

/-- What a process did so far. -/
abbrev Log := History World Reply Failure

/-- The process `n` has read the clock before the end of the vote, while it held the lock of the
proposal. -/
def InTime (log : Log) (n : ℕ) (proposal : CommunityProposal) : Prop :=
  ∃ w₀, .ran w₀ w₀ ∈ log ∧ w₀.Holds n (.proposal proposal.id) .exclusive ∧
    w₀.db.proposal? proposal.id = some proposal ∧ proposal.votingEndsAt.any (w₀.clock < ·) = true

/-- Nobody else holds the proposal. -/
def World.FreeProposal (w : World) (n : ℕ) (id : Id) : Prop :=
  w.locks.free n (.proposal id) .exclusive = true

variable (log : Log)

/-- The writes of a job when its transaction ends. -/
inductive Change (w : World) : Job → Database → Prop where
  | keep {j : Job} : Change w j w.db
  | settings {j : Job} (f : CommunitySettings → CommunitySettings) (event : AuditEvent) :
      w.Holds j.slot .project .exclusive → (∀ settings, SettingsStep j settings (f settings)) →
      Change w j (w.db.upsertSettings f event)
  | categories {j : Job} (rows : List ForumCategory) : w.Holds j.slot .project .exclusive →
      Keyed ForumCategory.value rows →
      (0 < w.db.activeCategories → 0 < rows.countP fun row => row.archivedAt = none) →
      Change w j { w.db with categories := rows }
  | draft {j : Job} (userId : Id) (title body category : Text) (createdAt : Time) :
      w.Holds j.slot (.user userId) .exclusive → w.db.activeDrafts userId < maxDrafts →
      Change w j { w.db with
        topics := w.db.topics ++
          [ForumTopic.new w.db.nextId userId title body category .draft createdAt]
        nextId := w.db.nextId + 1 }
  | topic {j : Job} (userId : Id) (title body category : Text) (status : ForumTopicStatus)
      (createdAt : Time) : Enters w j.slot userId category status createdAt →
      Change w j { w.db with
        topics := w.db.topics ++
          [ForumTopic.new w.db.nextId userId title body category status createdAt]
        nextId := w.db.nextId + 1 }
  | publish {j : Job} (id : Id) (dto : CreateForumTopic) (userId : Id) (category : Text)
      (status : ForumTopicStatus) (publishedAt : Time) :
      (∀ row ∈ w.db.topics, row.id = id → row.authorId = userId ∧ row.status = .draft) →
      Enters w j.slot userId category status publishedAt →
      Change w j (w.db.updateTopics (fun row => row.id = id)
        (·.publish dto category status publishedAt))
  | topics {j : Job} (p : ForumTopic → Bool) (f : ForumTopic → ForumTopic) :
      (∀ row ∈ w.db.topics, p row = true → TopicEdit row (f row)) →
      Change w j (w.db.updateTopics p f)
  | reply {j : Job} {db : Database} (topicId userId : Id) (dto : ForumReplyRequest)
      (activityAt createdAt : Time) (row : ForumReply) :
      w.Holds j.slot (.user userId) .exclusive → topicId < w.db.nextId →
      (∃ checked, w.db.repliesSince userId (checked - 60000) < 10 ∧ checked ≤ createdAt) →
      replyTx topicId userId dto activityAt createdAt w.clock w.db = .ok (db, row) →
      Change w j db
  | replies {j : Job} (p : ForumReply → Bool) (f : ForumReply → ForumReply) :
      (∀ row ∈ w.db.replies, p row = true → ReplyEdit row (f row)) →
      Change w j (w.db.updateReplies p f)
  | propose {j : Job} {db : Database} (authorId : Id) (dto : CreateProposal) (block : Option ℕ)
      (current createdAt : Time) (row : CommunityProposal) :
      (block = none ↔ w.db.proposalsModerated = true) →
      proposeTx authorId dto block current createdAt w.clock w.db = .ok (db, row) →
      Change w j db
  | proposals {j : Job} (p : CommunityProposal → Bool) (f : CommunityProposal → CommunityProposal) :
      (∀ row ∈ w.db.proposals, p row = true → w.FreeProposal j.slot row.id) →
      (∀ row ∈ w.db.proposals, p row = true → ProposalStep w j row (f row)) →
      Change w j (w.db.updateProposals p f)
  | vote {n : ℕ} {proposalId : Id} {choice : ProposalVoteChoice} {actor : Principal}
      (block : Option ℕ) (weight : ℕ) (current : CommunityProposal) :
      O.Answered (O.addressOf actor.userId) block weight →
      w.Holds n (.proposal proposalId) .exclusive → w.db.proposal? proposalId = some current →
      current.status = .voting → current.snapshotBlock.any (· ≠ 0) = true →
      current.snapshotBlock = block → InTime log n current →
      Change w (.vote n proposalId choice actor)
        (upsertVote proposalId actor.userId choice weight w.clock w.db)
  | createExpense {n : ℕ} {dto : CreateExpense} {actor : Principal} {proposalId : Option Id}
      {db : Database} (closedAt : Time) (row : Expense) :
      (∀ id, proposalId = some id → w.db.Decided id) →
      (∀ id, proposalId = some id → w.FreeProposal n id) →
      createExpenseTx dto proposalId actor.address closedAt w.clock w.db = .ok (db, row) →
      Change w (.createExpense n dto actor proposalId) db
  | updateExpense {n : ℕ} {id : Id} {dto : UpdateExpense} : Change w (.updateExpense n id dto)
      (w.db.updateExpenses (fun row => row.id = id) (·.apply dto))
  | archiveExpense {n : ℕ} {id : Id} (archivedAt : Time) : Change w (.archiveExpense n id)
      (w.db.updateExpenses (fun row => row.id = id) fun row =>
        { row with status := .archived, archivedAt := some archivedAt, previewToken := none })
  | publishExpense {n : ℕ} {id : Id} : Change w (.publishExpense n id)
      (w.db.updateExpenses (fun row => row.id = id) fun row =>
        { row with pendingChainGoalId := some (O.checks.goalIdOf id) })
  | markExpenseSubmitted {n : ℕ} {id : Id} {txHash : Hash} :
      Change w (.markExpenseSubmitted n id txHash)
        (w.db.updateExpenses (fun row => row.id = id) fun row =>
          { row with status := .pendingChain, pendingChainTxHash := some txHash })
  | projectGoalCreated {n chainId : ℕ} {goalId : Hash} {facts : GoalFacts} {generated : Text}
      {db : Database} (draft : Option Expense) (slug : Text) :
      (∀ row, draft = some row → O.checks.goalIdOf row.id = goalId) →
      goalCreatedTx chainId goalId draft slug facts w.clock w.db = .ok (db, ()) →
      Change w (.projectGoalCreated n chainId goalId facts generated) db

/-- A step of a job: it locks a row, or ends its transaction. -/
inductive Does (j : Job) (w : World) : World → Prop where
  | lock (r : Resource) (m : LockMode) : w.locks.free j.slot r m = true →
      Does j w { w with locks := w.locks.acquire j.slot r m }
  | commit {db : Database} : Change O log w j db → Does j w ⟨db, w.clock, w.locks.release j.slot⟩

end Community

end PreCommunity
