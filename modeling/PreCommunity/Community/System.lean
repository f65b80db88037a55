import PreCommunity.Community.Drafts
import PreCommunity.Community.Forum

/-!
# The community as a system of processes

Any number of requests run over one database, and the worker projects the creation of goals.  The
environment lets time pass; a process that crashes loses its locks.

* `Job`, `Outside`, `community` : the machine.
-/

namespace PreCommunity

namespace Community

open Concurrent Store
open Escrow (Id Time Address Hash Text GoalFacts)

/-- What may run; the number tells the jobs apart that run side by side. -/
inductive Job where
  | closeExpired (n : ℕ) (id : Option Id)
  | vote (n : ℕ) (proposalId : Id) (choice : ProposalVoteChoice) (actor : Principal)
  | openVoting (n : ℕ) (id : Id) (note : Option Text) (actor : Principal)
  | decline (n : ℕ) (id : Id) (note : Option Text) (actor : Principal)
  | remove (n : ℕ) (id : Id) (note : Option Text) (actor : Principal)
  | create (n : ℕ) (dto : CreateProposal) (actor : Principal)
  | update (n : ℕ) (id : Id) (dto : UpdateProposal) (actor : Principal)
  | proposalSettings (n : ℕ) (proposalModerationEnabled : Bool) (actor : Principal)
  | createExpense (n : ℕ) (dto : CreateExpense) (actor : Principal)
      (communityProposalId : Option Id)
  | updateExpense (n : ℕ) (id : Id) (dto : UpdateExpense)
  | archiveExpense (n : ℕ) (id : Id)
  | publishExpense (n : ℕ) (id : Id)
  | markExpenseSubmitted (n : ℕ) (id : Id) (txHash : Hash)
  | projectGoalCreated (n : ℕ) (chainId : ℕ) (goalId : Hash) (facts : GoalFacts)
      (generated : Text)
  | createDraft (n : ℕ) (dto : ForumDraft) (actor : Principal)
  | updateDraft (n : ℕ) (id : Id) (dto : ForumDraft) (actor : Principal)
  | publishDraft (n : ℕ) (id : Id) (dto : CreateForumTopic) (actor : Principal)
  | createTopic (n : ℕ) (dto : CreateForumTopic) (actor : Principal)
  | updateTopic (n : ℕ) (id : Id) (dto : UpdateForumTopic) (actor : Principal)
  | deleteTopic (n : ℕ) (id : Id) (actor : Principal)
  | moderateTopic (n : ℕ) (id : Id) (action : ModerationAction) (note : Option Text)
      (actor : Principal)
  | reply (n : ℕ) (topicId : Id) (dto : ForumReplyRequest) (actor : Principal)
  | editReply (n : ℕ) (id : Id) (dto : ForumReplyRequest) (actor : Principal)
  | deleteReply (n : ℕ) (id : Id) (actor : Principal)
  | removeReply (n : ℕ) (id : Id)
  | createCategory (n : ℕ) (label : Text)
  | updateCategory (n : ℕ) (value : Text) (dto : UpdateForumCategory)
  | forumSettings (n : ℕ) (topicModerationEnabled : Bool) (actor : Principal)
  | minimumPre (n : ℕ) (minimumRaw : ℕ) (actor : Principal)

namespace Job

/-- Where a job runs. -/
def slot : Job → ℕ
  | closeExpired n _ | vote n .. | openVoting n .. | decline n .. | remove n .. | create n ..
  | update n .. | proposalSettings n .. => n
  | createExpense n .. | updateExpense n .. | archiveExpense n _ | publishExpense n _
  | markExpenseSubmitted n .. | projectGoalCreated n .. => n
  | createDraft n .. | updateDraft n .. | publishDraft n .. | createTopic n .. | updateTopic n ..
  | deleteTopic n .. | moderateTopic n .. => n
  | reply n .. | editReply n .. | deleteReply n .. | removeReply n _ => n
  | createCategory n _ | updateCategory n .. | forumSettings n .. | minimumPre n .. => n

/-- Who voted. -/
def voter? : Job → Option Principal
  | vote _ _ _ actor => some actor
  | _ => none

end Job

/-- What the system is placed in. -/
structure Outside where
  /-- The number of blocks after which a block is confirmed. -/
  confirmations : ℕ
  /-- `COMMUNITY_MIN_PRE`. -/
  communityMinimumRaw : ℕ
  texts : Texts
  checks : DraftChecks
  /-- The address of a user. -/
  addressOf : Id → Address
  /-- The answers that the chain may give. -/
  answers : World → (q : Query) → Except Failure (Reply q) → Prop

variable (O : Outside)

namespace Job

/-- The code of a job. -/
def code : Job → Program World Reply Failure Unit
  | closeExpired n id => (Community.closeExpired n id).silently ()
  | vote n proposalId choice actor =>
      (Community.vote O.communityMinimumRaw n proposalId choice actor).silently ()
  | openVoting n id note actor => (Community.openVoting O.confirmations n id note actor).silently ()
  | decline n id note actor => (Community.decline n id note actor).silently ()
  | remove n id note actor => (Community.remove n id note actor).silently ()
  | create n dto actor =>
      (Community.create O.confirmations O.communityMinimumRaw n dto actor).silently ()
  | update n id dto actor => (Community.update O.communityMinimumRaw n id dto actor).silently ()
  | proposalSettings n enabled actor => (updateProposalSettings n enabled actor).silently ()
  | createExpense n dto actor proposalId =>
      (Community.createExpense O.checks n dto actor proposalId).silently ()
  | updateExpense n id dto => (Community.updateExpense O.checks n id dto).silently ()
  | archiveExpense n id => (Community.archiveExpense n id).silently ()
  | publishExpense n id => (Community.publishExpense O.checks n id).silently ()
  | markExpenseSubmitted n id txHash => (Community.markExpenseSubmitted n id txHash).silently ()
  | projectGoalCreated n chainId goalId facts generated =>
      (Community.projectGoalCreated n chainId goalId facts generated).silently ()
  | createDraft n dto actor => (Community.createDraft O.texts n dto actor).silently ()
  | updateDraft n id dto actor => (Community.updateDraft O.texts n id dto actor).silently ()
  | publishDraft n id dto actor =>
      (Community.publishDraft O.texts O.communityMinimumRaw n id dto actor).silently ()
  | createTopic n dto actor =>
      (Community.createTopic O.texts O.communityMinimumRaw n dto actor).silently ()
  | updateTopic n id dto actor =>
      (Community.updateTopic O.texts O.communityMinimumRaw n id dto actor).silently ()
  | deleteTopic n id actor => (Community.deleteTopic n id actor).silently ()
  | moderateTopic n id action note actor =>
      (Community.moderateTopic n id action note actor).silently ()
  | reply n topicId dto actor =>
      (Community.reply O.communityMinimumRaw n topicId dto actor).silently ()
  | editReply n id dto actor =>
      (Community.editReply O.communityMinimumRaw n id dto actor).silently ()
  | deleteReply n id actor => (Community.deleteReply n id actor).silently ()
  | removeReply n id => (Community.removeReply n id).silently ()
  | createCategory n label => (Community.createCategory O.texts n label).silently ()
  | updateCategory n value dto => (Community.updateCategory O.texts n value dto).silently ()
  | forumSettings n enabled actor => (updateForumSettings n enabled actor).silently ()
  | minimumPre n minimumRaw actor =>
      (updateMinimumPre O.communityMinimumRaw n minimumRaw actor).silently ()

end Job

/-- The steps of the environment: time passes. -/
inductive Environment : World → World → Prop where
  | tick {w : World} {clock : Time} : w.clock ≤ clock → Environment w { w with clock := clock }

/-- The community.  A request comes with the address of its user, and a process that crashes loses
its locks. -/
def community : Machine World Reply Failure Job ℕ where
  code := Job.code O
  slot := Job.slot
  admits j _ := j.voter?.all fun actor => actor.address = O.addressOf actor.userId
  answers := O.answers
  env := Environment
  halt j w := { w with locks := w.locks.release j.slot }

/-- The world before anything has happened. -/
def World.start (clock : Time) : World := ⟨Database.empty, clock, []⟩

end Community

end PreCommunity
