import PreCommunity.Community.Schema

/-!
# Proposals and votes

The community proposes, votes and decides.  A proposal waits for review or is open for votes at
once, is closed after its voting window, and may be declined, removed or converted to a draft.

* `aggregateProposalVoteTotals` : the weights of the votes.
* `closeExpired`, `vote`, `openVoting`, `decline`, `remove` : the life of a proposal.
* `create`, `update`, `updateSettings` : proposals and the switch of their review.
-/

namespace PreCommunity

namespace Community

open Concurrent Store
open Escrow (Id Time Address Text)

/-- `trim` of a text. -/
def trim (text : Text) : Text :=
  let isSpace := fun c : Char => c.isWhitespace ∨ c.toNat ∈ [0xb, 0xc, 0xa0, 0x1680, 0x2028, 0x2029,
    0x202f, 0x205f, 0x3000, 0xfeff] ∨ (0x2000 ≤ c.toNat ∧ c.toNat ≤ 0x200a)
  ((text.dropWhile isSpace).reverse.dropWhile isSpace).reverse

/-- `VOTING_WINDOW_MS`. -/
def votingWindowMs : ℕ := 7 * 24 * 60 * 60 * 1000

/-! ### Votes -/

/-- `ProposalVoteTotals`. -/
structure ProposalVoteTotals where
  forRaw : ℕ
  againstRaw : ℕ
  abstainRaw : ℕ
  voterCount : ℕ
deriving DecidableEq, Repr

/-- `emptyVoteTotals`. -/
def emptyVoteTotals : ProposalVoteTotals := ⟨0, 0, 0, 0⟩

/-- A row of the grouped query: a choice, the sum of its weights and the number of its votes. -/
structure ProposalVoteAggregateRow where
  choice : ProposalVoteChoice
  weightRaw : ℕ
  voterCount : ℕ
deriving DecidableEq, Repr

/-- The grouped query for one proposal: a row for every choice that has a vote. -/
def voteAggregateRows (proposalId : Id) (db : Database) : List ProposalVoteAggregateRow :=
  let votes := db.votes.filter fun vote => vote.proposalId = proposalId
  ((votes.map (·.choice)).dedup).map fun choice =>
    let chosen := votes.filter fun vote => vote.choice = choice
    ⟨choice, (chosen.map (·.weightRaw)).sum, chosen.length⟩

/-- A row of the query is taken into the totals. -/
def ProposalVoteTotals.add (totals : ProposalVoteTotals) (row : ProposalVoteAggregateRow) :
    ProposalVoteTotals :=
  let totals := match row.choice with
    | .inFavour => { totals with forRaw := row.weightRaw }
    | .against => { totals with againstRaw := row.weightRaw }
    | .abstain => { totals with abstainRaw := row.weightRaw }
  { totals with voterCount := totals.voterCount + row.voterCount }

/-- `aggregateProposalVoteTotals` of one proposal. -/
def aggregateProposalVoteTotals (proposalId : Id) (db : Database) : ProposalVoteTotals :=
  (voteAggregateRows proposalId db).foldl ProposalVoteTotals.add emptyVoteTotals

/-! ### Eligibility -/

section

variable (confirmations communityMinimumRaw : ℕ)

/-- `TokenEligibilityService.assertCurrent`. -/
def assertCurrent (address : Address) (minimumRaw : ℕ) (purpose : String) : Worker Unit :=
  if minimumRaw = 0 then return ()
  else do
    let balance ← ask (.currentBalance address)
    if balance < minimumRaw then throw (.notEligible minimumRaw purpose) else return ()

/-- `confirmedSnapshotBlock`. -/
def confirmedSnapshotBlock : Worker ℕ := do
  let latest ← ask .blockNumber
  return if confirmations < latest then latest - confirmations else 0

/-! ### Closing -/

/-- The transaction that closes a proposal whose voting has ended. -/
def closeTx (n : ℕ) (id : Id) : Worker Unit :=
  transactionally n do
    lock n (.proposal id) .exclusive
    let found ← select fun db => db.proposal? id
    let now ← now
    match found with
    | none => rollback n
    | some proposal =>
      if proposal.status ≠ .voting ∨ proposal.votingEndsAt.all (now < ·) then rollback n
      else
        let totals ← select (aggregateProposalVoteTotals proposal.id)
        let status : CommunityProposalStatus :=
          if totals.againstRaw < totals.forRaw then .passed else .rejected
        commit n [.proposal proposal.id] fun _ db =>
          .ok (db.updateProposals (fun row => row.id = proposal.id) fun row =>
            { row with status := status, closedAt := some now }, ())

/-- Close the candidates, one after another. -/
def closeAll (n : ℕ) : List Id → Worker Unit
  | [] => return ()
  | candidate :: rest => do
    closeTx n candidate
    closeAll n rest

/-- `CommunityService.closeExpired`. -/
def closeExpired (n : ℕ) (id : Option Id) : Worker Unit := do
  let now ← now
  let expired ← select fun db => (db.proposals.filter fun row =>
    id.all (row.id = ·) ∧ row.status = .voting ∧ row.votingEndsAt.any (· ≤ now)).map (·.id)
  closeAll n expired

/-! ### Voting -/

/-- Votes for the proposal are taken at this time. -/
def isVotingOpen (proposal : CommunityProposal) (now : Time) : Bool :=
  proposal.status = .voting ∧ proposal.snapshotBlock.any (· ≠ 0) ∧
    proposal.votingEndsAt.any (now < ·)

/-- The row of a vote is created or changed. -/
def upsertVote (proposalId userId : Id) (choice : ProposalVoteChoice) (weight : ℕ) (now : Time)
    (db : Database) : Database :=
  { db with
    votes := upsert (fun vote => vote.proposalId = proposalId ∧ vote.userId = userId)
      (fun vote => { vote with choice := choice, updatedAt := now })
      ⟨proposalId, userId, choice, weight, now, now⟩ db.votes }

/-- The transaction that casts or changes a vote; the clock is read while the proposal is locked,
and the vote is written after that. -/
def voteTx (n : ℕ) (proposalId userId : Id) (snapshotBlock : Option ℕ)
    (choice : ProposalVoteChoice) (weight : ℕ) : Worker Unit :=
  transactionally n do
    lock n (.proposal proposalId) .exclusive
    let found ← select fun db => db.proposal? proposalId
    match found with
    | none => throw (.conflict "Voting is not open for this proposal")
    | some current =>
      let checked ← now
      if !isVotingOpen current checked ∨ current.snapshotBlock ≠ snapshotBlock then
        throw (.conflict "Voting is not open for this proposal")
      else
        let currentVote ← select fun db => db.votes.find? fun vote =>
          vote.proposalId = proposalId ∧ vote.userId = userId
        let asked ← now
        if currentVote.any fun vote => asked - vote.updatedAt < 2000 then
          throw (.tooManyRequests "Wait a moment before changing your vote again")
        else
          commit n [.proposal proposalId] fun now db =>
            .ok (upsertVote proposalId userId choice weight now db, ())

/-- `CommunityService.vote`. -/
def vote (n : ℕ) (proposalId : Id) (choice : ProposalVoteChoice) (actor : Principal) :
    Worker Unit := do
  closeExpired n (some proposalId)
  let found ← select fun db => db.proposal? proposalId
  match found with
  | none => throw (.notFound "Community proposal not found")
  | some proposal =>
    let current ← now
    if !isVotingOpen proposal current then
      throw (.conflict "Voting is not open for this proposal")
    else
      let weight ← ask (.snapshotBalance actor.address (proposal.snapshotBlock.getD 0))
      if weight < communityMinimumRaw then throw .notEligibleAtSnapshot
      else voteTx n proposalId actor.userId proposal.snapshotBlock choice weight

/-! ### Moderation -/

/-- An `updateMany` that must change one proposal. -/
def updateOne (p : CommunityProposal → Bool) (f : CommunityProposal → CommunityProposal)
    (text : String) (_ : Time) (db : Database) : Except Failure (Database × Unit) :=
  if db.proposals.any p then .ok (db.updateProposals p f, ()) else .error (.conflict text)

/-- `CommunityService.openVoting`. -/
def openVoting (n : ℕ) (id : Id) (note : Option Text) (actor : Principal) : Worker Unit := do
  let block ← confirmedSnapshotBlock confirmations
  let current ← now
  commit n [.proposal id] (updateOne (fun row => row.id = id ∧ row.status = .pendingReview)
    (fun row => { row with
      status := .voting
      snapshotBlock := some block
      votingStartsAt := some current
      votingEndsAt := some (current + votingWindowMs)
      moderatedBy := some actor.address
      moderationNote := note })
    "Only a pending proposal can be opened for voting")

/-- `CommunityService.decline`. -/
def decline (n : ℕ) (id : Id) (note : Option Text) (actor : Principal) : Worker Unit := do
  let closedAt ← now
  commit n [.proposal id] (updateOne
    (fun row => row.id = id ∧
      (row.status = .pendingReview ∨ row.status = .passed ∨ row.status = .rejected))
    (fun row => { row with
      status := .declined
      moderatedBy := some actor.address
      moderationNote := note
      closedAt := some closedAt })
    "This proposal cannot be declined in its current state")

/-- `CommunityService.remove`. -/
def remove (n : ℕ) (id : Id) (note : Option Text) (actor : Principal) : Worker Unit := do
  let removedAt ← now
  commit n [.proposal id] (updateOne (fun row => row.id = id ∧ row.status ≠ .converted)
    (fun row => { row with
      status := .removed
      moderatedBy := some actor.address
      moderationNote := note
      removedAt := some removedAt })
    "A converted proposal cannot be removed")

/-! ### Proposing -/

/-- `CreateProposalDto`. -/
structure CreateProposal where
  title : Text
  description : Text
  category : Text
deriving DecidableEq, Repr

/-- The row of a new proposal; without a snapshot block it waits for review. -/
def CommunityProposal.new (id authorId : Id) (dto : CreateProposal) (snapshotBlock : Option ℕ)
    (now createdAt : Time) : CommunityProposal where
  id := id
  authorId := authorId
  title := trim dto.title
  description := trim dto.description
  category := trim dto.category
  status := if snapshotBlock.isSome then .voting else .pendingReview
  snapshotBlock := snapshotBlock
  votingStartsAt := snapshotBlock.map fun _ => now
  votingEndsAt := snapshotBlock.map fun _ => now + votingWindowMs
  closedAt := none
  moderatedBy := none
  moderationNote := none
  removedAt := none
  createdAt := createdAt

/-- A new proposal. -/
def proposeTx (authorId : Id) (dto : CreateProposal) (snapshotBlock : Option ℕ)
    (now createdAt : Time) (_ : Time) (db : Database) :
    Except Failure (Database × CommunityProposal) :=
  let row := CommunityProposal.new db.nextId authorId dto snapshotBlock now createdAt
  .ok ({ db with proposals := db.proposals ++ [row], nextId := db.nextId + 1 }, row)

/-- An attempt to create a proposal: nothing comes of it when the proposal needs no review and there
is no snapshot block. -/
def createWith (n : ℕ) (dto : CreateProposal) (actor : Principal) (snapshotBlock : Option ℕ) :
    Worker (Option CommunityProposal) :=
  transactionally n do
    lock n .project .shared
    let settings ← select (·.settings)
    let moderated := (settings.map (·.proposalModerationEnabled)).getD true
    if !moderated ∧ snapshotBlock = none then do
      rollback n
      return none
    else
      let started ← now
      lock n (.user actor.userId) .exclusive
      let checked ← now
      let recent ← select fun db => db.proposals.countP fun row =>
        row.authorId = actor.userId ∧ checked - 60 * 60 * 1000 ≤ row.createdAt
      if 3 ≤ recent then throw (.tooManyRequests "Proposal limit reached; try again later")
      else
        let createdAt ← now
        let row ← commit n [] (proposeTx actor.userId dto
          (if moderated then none else snapshotBlock) started createdAt)
        return some row

/-- `CommunityService.create`. -/
def create (n : ℕ) (dto : CreateProposal) (actor : Principal) : Worker CommunityProposal := do
  assertCurrent actor.address communityMinimumRaw "participate"
  let created ← createWith n dto actor none
  match created with
  | some proposal => return proposal
  | none =>
    let block ← confirmedSnapshotBlock confirmations
    let created ← createWith n dto actor (some block)
    match created with
    | some proposal => return proposal
    | none => throw (.conflict "Proposal review settings changed; try again")

/-- `UpdateProposalDto`. -/
structure UpdateProposal where
  title : Option Text
  description : Option Text
  category : Option Text
deriving DecidableEq, Repr

/-- `CommunityService.update`. -/
def update (n : ℕ) (id : Id) (dto : UpdateProposal) (actor : Principal) : Worker Unit := do
  assertCurrent actor.address communityMinimumRaw "participate"
  let found ← select fun db => db.proposal? id
  match found with
  | none => throw (.notFound "Community proposal not found")
  | some proposal =>
    if proposal.authorId ≠ actor.userId then
      throw (.forbidden "Only the author can edit this proposal")
    else if proposal.status ≠ .pendingReview then
      throw (.conflict "A proposal is frozen after voting review")
    else commit n [.proposal id] fun _ db =>
      .ok (db.updateProposals (fun row => row.id = id) fun row =>
        { row with
          title := (dto.title.map trim).getD row.title
          description := (dto.description.map trim).getD row.description
          category := (dto.category.map trim).getD row.category }, ())

/-- `CommunityService.updateSettings`. -/
def updateProposalSettings (n : ℕ) (proposalModerationEnabled : Bool) (actor : Principal) :
    Worker Unit :=
  transactionally n do
    lock n .project .exclusive
    commit n [] fun _ db => .ok (db.upsertSettings (fun settings =>
      { settings with
        proposalModerationEnabled := proposalModerationEnabled
        updatedBy := some actor.address })
      ⟨actor.address, .proposalModerationEnabled
        ((db.settings.map (·.proposalModerationEnabled)).getD true) proposalModerationEnabled⟩, ())

end

end Community

end PreCommunity
