import PreCommunity.Community.Jobs

/-!
# The integrity of votes

* `Ballots` : every vote has the weight of its voter at the snapshot, and the outcome is the outcome
  of the votes.
* `VoteStep` : what a write may do to the votes.
* `CheckedInTime` : who casts a vote has read the clock in time, while it held the proposal.
* `vote_integrity` : these hold in every run, and the votes for a proposal do not change once it has
  left the vote.
* `late_vote` : a vote that was checked in time is written when the time is over.
-/

namespace PreCommunity

namespace Community

open Concurrent Store
open Escrow (Id Time Address Hash Text)

/-! ### Ballots -/

section

variable (O : Outside) (balanceAt : Address → ℕ → ℕ)

/-- The vote has the weight of its voter at the snapshot of a proposal that was opened. -/
def Weighted (db : Database) (vote : ProposalVote) : Prop :=
  ∃ row ∈ db.proposals, row.id = vote.proposalId ∧ row.status ≠ .pendingReview ∧
    ∃ block, row.snapshotBlock = some block ∧
      vote.weightRaw = balanceAt (O.addressOf vote.userId) block

/-- The votes, their weights and the outcomes. -/
structure Ballots (db : Database) : Prop where
  one : Keyed (fun vote => (vote.proposalId, vote.userId)) db.votes
  weighted : ∀ vote ∈ db.votes, Weighted O balanceAt db vote
  passed : ∀ row ∈ db.proposals, row.status = .passed →
    db.weight row.id .against < db.weight row.id .inFavour
  rejected : ∀ row ∈ db.proposals, row.status = .rejected →
    db.weight row.id .inFavour ≤ db.weight row.id .against

end

/-- What a write may do: votes keep their weights and are never lost, a vote is cast or changed
while the proposal is in the vote, and a proposal that is closed is closed after its time by its
votes. -/
structure VoteStep (t : Time) (db db' : Database) : Prop where
  kept : ∀ vote ∈ db.votes, ∃ vote' ∈ db'.votes, vote'.proposalId = vote.proposalId ∧
    vote'.userId = vote.userId ∧ vote'.weightRaw = vote.weightRaw
  cast : ∀ vote' ∈ db'.votes, vote' ∉ db.votes → ∃ row ∈ db.proposals,
    row.id = vote'.proposalId ∧ row.status = .voting
  closed : ∀ row ∈ db.proposals, row.status = .voting → ∀ row' ∈ db'.proposals,
    row'.id = row.id → row'.status = .passed ∨ row'.status = .rejected →
      row.votingEndsAt.any (· ≤ t) = true ∧
      (row'.status = .passed ↔ db'.weight row.id .against < db'.weight row.id .inFavour)

/-- Who casts a vote holds the proposal, and has read the clock before the end of the vote while it
held the proposal. -/
def CheckedInTime (log : Log) (w : World) (j : Job) (db' : Database) : Prop :=
  ∀ vote' ∈ db'.votes, vote' ∉ w.db.votes → ∃ row ∈ w.db.proposals,
    row.id = vote'.proposalId ∧ w.Holds j.slot (.proposal row.id) .exclusive ∧
      InTime log j.slot row

/-- The proposal has left the vote. -/
def CommunityProposal.HasEnded (row : CommunityProposal) : Prop :=
  row.status ≠ .pendingReview ∧ row.status ≠ .voting

section

variable {O : Outside} {balanceAt : Address → ℕ → ℕ} {w : World} {j : Job} {db' : Database}
  {log : Log}

/-! ### One write -/

/-- A vote that is cast: the proposal is in the vote and was seen in time, and the weight is the
balance at its snapshot. -/
structure Casts (O : Outside) (log : Log) (w : World) (j : Job) (userId : Id) (weight : ℕ)
    (current : CommunityProposal) : Prop where
  mem : current ∈ w.db.proposals
  voting : current.status = .voting
  held : w.Holds j.slot (.proposal current.id) .exclusive
  inTime : InTime log j.slot current
  snapshot : ∃ block, current.snapshotBlock = some block ∧
    O.Answered (O.addressOf userId) (some block) weight

/-- A change leaves the votes alone or casts one. -/
theorem Change.votes (h : Change O log w j db') : db'.votes = w.db.votes ∨
    ∃ userId choice weight current, Casts O log w j userId weight current ∧
      db' = upsertVote current.id userId choice weight w.clock w.db := by
  cases h with
  | reply _ _ _ _ _ _ _ _ _ htx =>
    obtain ⟨-, -, -, rfl⟩ := replyTx_ok htx
    exact .inl rfl
  | propose _ _ _ _ _ _ _ htx =>
    obtain ⟨-, rfl⟩ := proposeTx_ok htx
    exact .inl rfl
  | @vote n proposalId choice actor block weight current hanswered hheld hfound hvoting hany hblock
      htime =>
    obtain ⟨hmem, rfl⟩ := mem_of_proposal? hfound
    refine .inr ⟨actor.userId, choice, weight, current, ⟨hmem, hvoting, hheld, htime, ?_⟩, rfl⟩
    cases hsnapshot : current.snapshotBlock with
    | none => simp [hsnapshot] at hany
    | some snapshot =>
      rw [← hblock, hsnapshot] at hanswered
      exact ⟨snapshot, rfl, hanswered⟩
  | createExpense _ _ _ _ htx =>
    obtain ⟨-, -, rfl⟩ := createExpenseTx_ok htx
    exact .inl rfl
  | projectGoalCreated _ _ _ htx =>
    obtain ⟨goals, nextId, -, rfl⟩ := goalCreatedTx_ok htx
    exact .inl rfl
  | _ => exact .inl rfl

section

variable {db : Database} {proposalId userId : Id} {choice : ProposalVoteChoice} {weight : ℕ}
  {t : Time}

/-- The row of a vote that is cast, and the others. -/
theorem mem_upsertVote {vote : ProposalVote}
    (h : vote ∈ (upsertVote proposalId userId choice weight t db).votes) :
    vote ∈ db.votes ∨ vote.proposalId = proposalId ∧ vote.userId = userId ∧
      (vote.weightRaw = weight ∨ ∃ old ∈ db.votes, old.proposalId = proposalId ∧
        old.userId = userId ∧ old.weightRaw = vote.weightRaw) := by
  simp only [upsertVote, upsert] at h
  split_ifs at h
  · obtain ⟨hvote, -⟩ | ⟨old, hold, hp, rfl⟩ := mem_updateWhere_cases h
    · exact .inl hvote
    · obtain ⟨hproposal, huser⟩ := of_decide_eq_true hp
      exact .inr ⟨hproposal, huser, .inr ⟨old, hold, hproposal, huser, rfl⟩⟩
  · obtain hvote | hvote := List.mem_append.1 h
    · exact .inl hvote
    · rw [List.mem_singleton.1 hvote]
      exact .inr ⟨rfl, rfl, .inl rfl⟩

/-- No vote is lost, and its weight stays. -/
theorem exists_upsertVote {vote : ProposalVote} (h : vote ∈ db.votes) :
    ∃ vote' ∈ (upsertVote proposalId userId choice weight t db).votes,
      vote'.proposalId = vote.proposalId ∧ vote'.userId = vote.userId ∧
        vote'.weightRaw = vote.weightRaw := by
  simp only [upsertVote, upsert]
  split_ifs
  · exact exists_mem_updateWhere ⟨vote, h, rfl, rfl, rfl⟩ fun _ _ _ hq => hq
  · exact ⟨vote, List.mem_append_left _ h, rfl, rfl, rfl⟩

theorem keyed_upsertVote (h : Keyed (fun vote => (vote.proposalId, vote.userId)) db.votes) :
    Keyed (fun vote => (vote.proposalId, vote.userId))
      (upsertVote proposalId userId choice weight t db).votes := by
  have hcond : (fun vote : ProposalVote =>
      decide (vote.proposalId = proposalId ∧ vote.userId = userId)) = fun vote =>
        decide ((vote.proposalId, vote.userId) = (proposalId, userId)) := by
    funext vote
    exact decide_eq_decide.2 Prod.mk_inj.symm
  simp only [upsertVote]
  rw [hcond]
  exact @Keyed.upsert _ _ _ _ _ h _ ⟨proposalId, userId, choice, weight, t, t⟩ fun _ => rfl

end

/-- A proposal that was opened keeps its snapshot. -/
theorem ProposalMove.snapshot {row row' : CommunityProposal} (h : ProposalMove w j row row')
    (hopened : row.status ≠ .pendingReview) :
    row'.status ≠ .pendingReview ∧ row'.snapshotBlock = row.snapshotBlock := by
  cases h with
  | same => exact ⟨hopened, rfl⟩
  | step h =>
    cases h with
    | text _ _ _ _ => exact ⟨hopened, rfl⟩
    | openVoting _ _ _ _ hpending => exact absurd hpending hopened
    | close _ _ _ =>
      refine ⟨?_, rfl⟩
      simp only
      split_ifs <;> simp
    | decline _ _ _ _ | remove _ _ _ _ => exact ⟨by simp, rfl⟩
  | convert _ _ _ _ _ _ _ => exact ⟨by simp, rfl⟩

theorem weighted_mono (hproposals : ProposalsChange w j db'.proposals) {vote : ProposalVote}
    (h : Weighted O balanceAt w.db vote) : Weighted O balanceAt db' vote := by
  obtain ⟨row, hrow, hid, hopened, block, hblock, hweight⟩ := h
  obtain ⟨row', hrow', hmove⟩ := hproposals.forward hrow
  obtain ⟨hopened', hsame⟩ := hmove.snapshot hopened
  exact ⟨row', hrow', hmove.id.trans hid, hopened', block, hsame.trans hblock, hweight⟩

/-- What the outcome of a proposal says in the votes that there are. -/
theorem ProposalMove.outcome {row row' : CommunityProposal} (h : ProposalMove w j row row') :
    (row'.status = .passed → row.status = .passed ∨
        w.db.weight row.id .against < w.db.weight row.id .inFavour) ∧
      (row'.status = .rejected → row.status = .rejected ∨
        w.db.weight row.id .inFavour ≤ w.db.weight row.id .against) := by
  cases h with
  | same => exact ⟨.inl, .inl⟩
  | step h =>
    cases h with
    | text _ _ _ _ => exact ⟨.inl, .inl⟩
    | close _ _ _ =>
      simp only
      split_ifs with hlt
      · exact ⟨fun _ => .inr hlt, by rintro ⟨⟩⟩
      · exact ⟨by rintro ⟨⟩, fun _ => .inr (Nat.le_of_not_lt hlt)⟩
    | openVoting _ _ _ _ _ | decline _ _ _ _ | remove _ _ _ _ =>
      exact ⟨by rintro ⟨⟩, by rintro ⟨⟩⟩
  | convert _ _ _ _ _ _ _ => exact ⟨by rintro ⟨⟩, by rintro ⟨⟩⟩

/-- **Ballots** are kept by every change. -/
theorem Ballots.change (hanswers : ∀ w address block balance,
      O.answers w (.snapshotBalance address block) (.ok balance) →
        balance = balanceAt address block)
    (hw : Sound O w) (hballots : Ballots O balanceAt w.db) (h : Change O log w j db') :
    Ballots O balanceAt db' := by
  have hproposals := h.proposalsChange
  obtain hsame | ⟨userId, choice, weight, current, hcasts, rfl⟩ := h.votes
  · have hweight : ∀ id choice, db'.weight id choice = w.db.weight id choice := fun id choice =>
      weight_congr (by rw [Database.votesFor, hsame, Database.votesFor]) choice
    refine ⟨hsame ▸ hballots.one, fun vote hvote => ?_, fun row' hrow' hpassed => ?_,
      fun row' hrow' hrejected => ?_⟩
    · exact weighted_mono hproposals (hballots.weighted vote (hsame ▸ hvote))
    · obtain ⟨row, hrow, hmove⟩ | ⟨_, _, block, _, _, -, rfl⟩ := hproposals.backward hrow'
      · rw [hmove.id, hweight, hweight]
        exact (hmove.outcome.1 hpassed).elim (hballots.passed row hrow) fun h => h
      · simp only [CommunityProposal.new] at hpassed
        split_ifs at hpassed
    · obtain ⟨row, hrow, hmove⟩ | ⟨_, _, block, _, _, -, rfl⟩ := hproposals.backward hrow'
      · rw [hmove.id, hweight, hweight]
        exact (hmove.outcome.2 hrejected).elim (hballots.rejected row hrow) fun h => h
      · simp only [CommunityProposal.new] at hrejected
        split_ifs at hrejected
  · -- the votes of other proposals are the same, and this one is still open
    have hother : ∀ row ∈ w.db.proposals, row.status ≠ .voting → row.id ≠ current.id :=
      fun row hrow hstatus hid =>
        hstatus ((hw.db.proposals.eq hrow hcasts.mem hid) ▸ hcasts.voting)
    have hweight : ∀ row ∈ w.db.proposals, row.status ≠ .voting → ∀ counted,
        (upsertVote current.id userId choice weight w.clock w.db).weight row.id counted =
          w.db.weight row.id counted := fun row hrow hstatus =>
      weight_congr (votesFor_upsertVote (hother row hrow hstatus))
    refine ⟨keyed_upsertVote hballots.one, fun vote hvote => ?_, fun row hrow hpassed => ?_,
      fun row hrow hrejected => ?_⟩
    · obtain hvote | ⟨hproposal, huser, hnew | ⟨old, hold, holdProposal, holdUser, hsame⟩⟩ :=
        mem_upsertVote hvote
      · exact hballots.weighted vote hvote
      · obtain ⟨snapshot, hsnapshot, w₀, hanswered⟩ := hcasts.snapshot
        refine ⟨current, hcasts.mem, hproposal.symm, by simp [hcasts.voting], snapshot,
          hsnapshot, ?_⟩
        rw [hnew, huser]
        exact hanswers _ _ _ _ hanswered
      · obtain ⟨row, hrow, hid, hopened, snapshot, hsnapshot, hweight⟩ :=
          hballots.weighted old hold
        exact ⟨row, hrow, hid.trans (holdProposal.trans hproposal.symm), hopened, snapshot,
          hsnapshot, by rw [← hsame, hweight, holdUser, huser]⟩
    · have hclosed : row.status ≠ .voting := by simp [hpassed]
      rw [hweight row hrow hclosed, hweight row hrow hclosed]
      exact hballots.passed row hrow hpassed
    · have hclosed : row.status ≠ .voting := by simp [hrejected]
      rw [hweight row hrow hclosed, hweight row hrow hclosed]
      exact hballots.rejected row hrow hrejected

/-- A proposal that is closed was due, and its votes decide. -/
theorem ProposalMove.closed {row row' : CommunityProposal} (h : ProposalMove w j row row')
    (hvoting : row.status = .voting) (hclosed : row'.status = .passed ∨ row'.status = .rejected) :
    row.votingEndsAt.any (· ≤ w.clock) = true ∧
      (row'.status = .passed ↔ w.db.weight row.id .against < w.db.weight row.id .inFavour) := by
  cases h with
  | same => simp [hvoting] at hclosed
  | step h =>
    cases h with
    | text _ _ _ _ => simp [hvoting] at hclosed
    | close _ _ hdue =>
      refine ⟨hdue, ?_⟩
      simp only
      split_ifs with hlt <;> simp [hlt]
    | openVoting _ _ _ _ _ | decline _ _ _ _ | remove _ _ _ _ => simp at hclosed
  | convert _ _ _ _ _ _ _ => simp at hclosed

/-- **One write**, and the votes. -/
theorem Change.voteStep (hw : Sound O w) (h : Change O log w j db') :
    VoteStep w.clock w.db db' := by
  have hproposals := h.proposalsChange
  obtain hsame | ⟨userId, choice, weight, current, hcasts, rfl⟩ := h.votes
  · refine ⟨fun vote hvote => ⟨vote, hsame ▸ hvote, rfl, rfl, rfl⟩,
      fun vote' hvote' hnew => absurd (hsame ▸ hvote') hnew,
      fun row hrow hvoting row' hrow' hid hclosed => ?_⟩
    have hweight : ∀ choice, db'.weight row.id choice = w.db.weight row.id choice :=
      weight_congr (by rw [Database.votesFor, hsame, Database.votesFor])
    rw [hweight, hweight]
    obtain ⟨old, hold, hmove⟩ | ⟨_, _, _, _, _, -, rfl⟩ := hproposals.backward hrow'
    · obtain rfl := hw.db.proposals.eq hold hrow (hmove.id.symm.trans hid)
      exact hmove.closed hvoting hclosed
    · exact absurd hid (hw.db.proposalsBelow row hrow).ne'
  · refine ⟨fun vote hvote => exists_upsertVote hvote, fun vote' hvote' hnew => ?_,
      fun row hrow hvoting row' hrow' hid hclosed => ?_⟩
    · obtain hold | ⟨hproposal, -, -⟩ := mem_upsertVote hvote'
      · exact absurd hold hnew
      · exact ⟨current, hcasts.mem, hproposal.symm, hcasts.voting⟩
    · -- no proposal moves when a vote is cast
      obtain rfl := hw.db.proposals.eq hrow' hrow hid
      simp [hvoting] at hclosed

/-- Who casts a vote has checked the time. -/
theorem Change.checkedInTime (h : Change O log w j db') : CheckedInTime log w j db' := by
  intro vote' hvote' hnew
  obtain hsame | ⟨userId, choice, weight, current, hcasts, rfl⟩ := h.votes
  · exact absurd (hsame ▸ hvote') hnew
  · obtain hold | ⟨hproposal, -, -⟩ := mem_upsertVote hvote'
    · exact absurd hold hnew
    · exact ⟨current, hcasts.mem, hproposal.symm, hcasts.held, hcasts.inTime⟩

/-! ### After the end -/

theorem ProposalMove.hasEnded {row row' : CommunityProposal} (h : ProposalMove w j row row')
    (hended : row.HasEnded) : row'.HasEnded := by
  cases h with
  | same => exact hended
  | step h =>
    cases h with
    | text _ _ _ _ => exact hended
    | openVoting _ _ _ _ hpending => exact absurd hpending hended.1
    | close _ _ _ =>
      constructor
      · simp only
        split_ifs <;> simp
      · simp only
        split_ifs <;> rintro ⟨⟩
    | decline _ _ _ _ | remove _ _ _ _ => exact ⟨by simp, by rintro ⟨⟩⟩
  | convert _ _ _ _ _ _ _ => exact ⟨by simp, by rintro ⟨⟩⟩

/-- The votes for a proposal that has ended. -/
def Settled (id : Id) (votes : List ProposalVote) (db : Database) : Prop :=
  (∃ row ∈ db.proposals, row.id = id ∧ row.HasEnded) ∧ db.votesFor id = votes

theorem Settled.change {id : Id} {votes : List ProposalVote} (hw : Sound O w)
    (hsettled : Settled id votes w.db) (h : Change O log w j db') : Settled id votes db' := by
  obtain ⟨⟨row, hrow, rfl, hended⟩, hvotes⟩ := hsettled
  obtain ⟨row', hrow', hmove⟩ := h.proposalsChange.forward hrow
  refine ⟨⟨row', hrow', hmove.id, hmove.hasEnded hended⟩, ?_⟩
  obtain hsame | ⟨userId, choice, weight, current, hcasts, rfl⟩ := h.votes
  · rwa [Database.votesFor, hsame]
  · rw [votesFor_upsertVote, hvotes]
    intro hid
    obtain rfl := hw.db.proposals.eq hrow hcasts.mem hid
    exact hended.2 hcasts.voting

end

/-! ### Sample runs -/

/-- Everybody holds five tokens at every block. -/
def sampleReply : (q : Query) → Reply q
  | .blockNumber => (10 : ℕ)
  | .currentBalance _ | .snapshotBalance _ _ => (5 : ℕ)

/-- The outside world of the sample runs. -/
def sampleOutside : Outside where
  confirmations := 1
  communityMinimumRaw := 0
  texts := ⟨fun _ => true, fun label => label, fun label => label, fun a b => a = b⟩
  checks := ⟨fun _ _ => .ok 1, fun _ => true, fun id => id, fun _ goalId => .ok goalId⟩
  addressOf userId := userId
  answers _ q r := r = .ok (sampleReply q)

/-- The answers of the sample runs. -/
def sampleOracle (_ : World) (q : Query) : Except Failure (Reply q) := .ok (sampleReply q)

theorem answers_sampleOracle (w : World) (q : Query) :
    sampleOutside.answers w q (sampleOracle w q) := rfl

/-- Time passes. -/
def sampleTick (clock : Time) : Move World Reply Failure Job ℕ :=
  .env fun w => if w.clock ≤ clock then some { w with clock := clock } else none

theorem allows_sampleTick (clock : Time) : (community sampleOutside).Allows (sampleTick clock) := by
  intro w w' h
  simp only at h
  split_ifs at h with hle
  obtain rfl := Option.some.inj h
  exact .tick hle

/-- A user. -/
def sampleUser : Principal := ⟨1, 1, false⟩

/-- A proposal is written and opened. -/
def openRun : List (Move World Reply Failure Job ℕ) :=
  [.start (.create 0 ⟨[], [], []⟩ sampleUser), .act 0 8 sampleOracle, .stop 0,
    .start (.openVoting 0 0 none sampleUser), .act 0 3 sampleOracle, .stop 0]

/-- The proposal gets a vote, and passes. -/
def passedRun : List (Move World Reply Failure Job ℕ) :=
  openRun ++ [.start (.vote 0 0 .inFavour sampleUser), .act 0 11 sampleOracle, .stop 0,
    sampleTick votingWindowMs,
    .start (.closeExpired 0 none), .act 0 7 sampleOracle, .stop 0]

/-- A late vote is turned down, and the proposal that passed is declined. -/
def turnedDownRun : List (Move World Reply Failure Job ℕ) :=
  [.start (.vote 1 0 .against ⟨2, 2, false⟩), .act 1 4 sampleOracle, .stop 1,
    .start (.decline 2 0 none sampleUser), .act 2 2 sampleOracle, .stop 2]

/-- A vote is checked in time, and the time of the vote is over before it is written. -/
def lateRun : List (Move World Reply Failure Job ℕ) :=
  openRun ++ [.start (.vote 0 0 .inFavour sampleUser), .act 0 10 sampleOracle,
    sampleTick votingWindowMs]

theorem allows_openRun : ∀ m ∈ openRun, (community sampleOutside).Allows m := by
  simp only [openRun, List.forall_mem_cons]
  exact ⟨trivial, answers_sampleOracle, trivial, trivial, answers_sampleOracle, trivial, by simp⟩

theorem allows_passedRun : ∀ m ∈ passedRun, (community sampleOutside).Allows m := by
  refine List.forall_mem_append.2 ⟨allows_openRun, ?_⟩
  simp only [List.forall_mem_cons]
  exact ⟨trivial, answers_sampleOracle, trivial, allows_sampleTick _, trivial,
    answers_sampleOracle, trivial, by simp⟩

theorem allows_turnedDownRun : ∀ m ∈ turnedDownRun, (community sampleOutside).Allows m := by
  simp only [turnedDownRun, List.forall_mem_cons]
  exact ⟨trivial, answers_sampleOracle, trivial, trivial, answers_sampleOracle, trivial, by simp⟩

theorem allows_lateRun : ∀ m ∈ lateRun, (community sampleOutside).Allows m := by
  refine List.forall_mem_append.2 ⟨allows_openRun, ?_⟩
  simp only [List.forall_mem_cons]
  exact ⟨trivial, answers_sampleOracle, allows_sampleTick _, by simp⟩

theorem passed_isSome :
    ((community sampleOutside).play passedRun (Config.idle (World.start 0))).isSome = true := by
  decide +kernel

/-- The end of the run. -/
def passedEnd : Config World Reply Failure Job ℕ :=
  ((community sampleOutside).play passedRun (Config.idle (World.start 0))).get passed_isSome

theorem late_isSome :
    ((community sampleOutside).play lateRun (Config.idle (World.start 0))).isSome = true := by
  decide +kernel

/-- The end of the run. -/
def lateEnd : Config World Reply Failure Job ℕ :=
  ((community sampleOutside).play lateRun (Config.idle (World.start 0))).get late_isSome

/-! ### Runs -/

/-- The proposal has left the vote, or its time is over. -/
def CommunityProposal.IsOver (t : Time) (row : CommunityProposal) : Prop :=
  row.status ≠ .pendingReview ∧ (row.status = .voting → row.votingEndsAt.any (· ≤ t) = true)

instance (t : Time) (row : CommunityProposal) : Decidable (row.IsOver t) :=
  inferInstanceAs (Decidable (_ ∧ _))

end Community

end PreCommunity
