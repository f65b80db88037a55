import PreCommunity.Community.Writes

/-!
# What a process may rely on

The tables have keys, and a process that holds a lock knows what the others leave alone.

* `Sound` : keys, ids and locks; kept by every step.
* `Rely` : what the others may do while a process runs.
* `Does.rely` : they do no more than that.
-/

namespace PreCommunity

namespace Community

open Concurrent Store
open Escrow (Id Time Address Hash Text)

variable {O : Outside} {w w' w'' : World} {j : Job} {db' : Database} {log : Log}

/-! ### Keys and ids -/

/-- What holds of the keys and the ids of the tables. -/
structure Database.Sound (db : Database) : Prop where
  categories : Keyed ForumCategory.value db.categories
  topics : Keyed ForumTopic.id db.topics
  topicsBelow : ∀ row ∈ db.topics, row.id < db.nextId
  repliesBelow : ∀ row ∈ db.replies, row.topicId < db.nextId
  proposals : Keyed CommunityProposal.id db.proposals
  proposalsBelow : ∀ row ∈ db.proposals, row.id < db.nextId
  expenses : Keyed (fun row : Expense => row.id) db.expenses
  expensesBelow : ∀ row ∈ db.expenses, row.id < db.nextId

/-- The goal of a draft that was prepared has the id that belongs to the draft. -/
def Prepared (O : Outside) (db : Database) : Prop :=
  ∀ row ∈ db.expenses, row.pendingChainGoalId = none ∨
    row.pendingChainGoalId = some (O.checks.goalIdOf row.id)

/-- The tables have their keys, the drafts their goals, and the locks are compatible. -/
structure Sound (O : Outside) (w : World) : Prop where
  db : w.db.Sound
  prepared : Prepared O w.db
  locks : w.locks.Compatible

/-- Nothing is in the tables. -/
theorem sound_start (O : Outside) (clock : Time) : Sound O (World.start clock) where
  db :=
    { categories := List.nodup_nil
      topics := List.nodup_nil
      topicsBelow := by rintro row ⟨⟩
      repliesBelow := by rintro row ⟨⟩
      proposals := List.nodup_nil
      proposalsBelow := by rintro row ⟨⟩
      expenses := List.nodup_nil
      expensesBelow := by rintro row ⟨⟩ }
  prepared := by rintro row ⟨⟩
  locks := Locks.compatible_nil

theorem ProposalStep.id {row row' : CommunityProposal} (h : ProposalStep w j row row') :
    row'.id = row.id := by
  cases h <;> rfl

/-- The key of a step of a proposal, for rows that are updated. -/
theorem map_updateProposals_id {p : CommunityProposal → Bool}
    {f : CommunityProposal → CommunityProposal}
    (h : ∀ row ∈ w.db.proposals, p row = true → ProposalStep w j row (f row)) :
    (updateWhere p f w.db.proposals).map (·.id) = w.db.proposals.map (·.id) :=
  map_updateWhere fun row hrow hp => (h row hrow hp).id

/-- Rows keep their ids below the next id. -/
theorem below_of_map {α : Type} (id : α → ℕ) {rows rows' : List α} {n : ℕ}
    (hids : rows'.map id = rows.map id) (h : ∀ row ∈ rows, id row < n) :
    ∀ row ∈ rows', id row < n := fun row hrow => by
  obtain ⟨x, hx, hid⟩ := exists_of_map_eq hids hrow
  exact hid ▸ h x hx

theorem below_append {α : Type} {id : α → ℕ} {rows : List α} {n : ℕ} {x : α}
    (h : ∀ row ∈ rows, id row < n) (hx : id x = n) :
    ∀ row ∈ rows ++ [x], id row < n + 1 := fun row hrow => by
  obtain hrow | hrow := List.mem_append.1 hrow
  · exact (h row hrow).trans (Nat.lt_succ_self _)
  · rw [List.mem_singleton.1 hrow, hx]
    exact Nat.lt_succ_self _

theorem keyed_append_new {α : Type} {id : α → ℕ} {rows : List α} {n : ℕ} {x : α}
    (hkeys : Keyed id rows) (h : ∀ row ∈ rows, id row < n) (hx : id x = n) :
    Keyed id (rows ++ [x]) :=
  hkeys.append_one fun y hy heq => (h y hy).ne (heq.trans hx)

theorem keyed_of_map {α : Type} {id : α → ℕ} {rows rows' : List α} (hkeys : Keyed id rows)
    (hids : rows'.map id = rows.map id) : Keyed id rows' := by
  unfold Keyed
  rw [hids]
  exact hkeys

theorem replyTx_ok {topicId authorId : Id} {dto : ForumReplyRequest} {activityAt createdAt : Time}
    {clock : Time} {db : Database} {row : ForumReply}
    (h : replyTx topicId authorId dto activityAt createdAt clock db = .ok (db', row)) :
    row.topicId = topicId ∧ row.authorId = authorId ∧ row.createdAt = createdAt ∧
      db' = { db with
        topics := updateWhere (fun row => row.id = topicId) (fun row =>
          { row with replyCount := row.replyCount + 1, lastActivityAt := activityAt }) db.topics
        replies := db.replies ++ [row]
        nextId := db.nextId + 1 } := by
  obtain ⟨rfl, rfl⟩ := Prod.mk.inj (Except.ok.inj h)
  exact ⟨rfl, rfl, rfl, rfl⟩

theorem proposeTx_ok {authorId : Id} {dto : CreateProposal} {block : Option ℕ}
    {current createdAt clock : Time} {db : Database} {row : CommunityProposal}
    (h : proposeTx authorId dto block current createdAt clock db = .ok (db', row)) :
    row = CommunityProposal.new db.nextId authorId dto block current createdAt ∧
      db' = { db with proposals := db.proposals ++ [row], nextId := db.nextId + 1 } := by
  obtain ⟨rfl, rfl⟩ := Prod.mk.inj (Except.ok.inj h)
  exact ⟨rfl, rfl⟩

/-- A new draft, and the proposal that it converts. -/
theorem createExpenseTx_ok {dto : CreateExpense} {proposalId : Option Id} {actor : Address}
    {closedAt clock : Time} {db : Database} {row : Expense}
    (h : createExpenseTx dto proposalId actor closedAt clock db = .ok (db', row)) :
    row = Expense.new db.nextId dto proposalId ∧
      (∀ id, proposalId = some id → ∀ other ∈ db.expenses, other.communityProposalId ≠ some id) ∧
      db' = { db with
        proposals := updateWhere (fun proposal => proposalId = some proposal.id)
          (fun proposal => { proposal with
            status := .converted
            moderatedBy := some actor
            closedAt := some closedAt }) db.proposals
        expenses := db.expenses ++ [row]
        nextId := db.nextId + 1 } := by
  unfold createExpenseTx at h
  simp only at h
  split_ifs at h with hslug
  split at h
  · obtain ⟨rfl, rfl⟩ := Prod.mk.inj (Except.ok.inj h)
    refine ⟨rfl, by rintro id ⟨⟩, ?_⟩
    rw [updateWhere_eq_self]
    exact fun _ _ => rfl
  · split_ifs at h with htaken hmissing
    obtain ⟨rfl, rfl⟩ := Prod.mk.inj (Except.ok.inj h)
    refine ⟨rfl, ?_, ?_⟩
    · rintro _ ⟨⟩ other hother heq
      exact htaken (List.any_eq_true.2 ⟨other, hother, decide_eq_true heq⟩)
    · simp only [Database.updateProposals, Option.some.injEq, eq_comm]

/-- The upsert of a goal changes the goals only. -/
theorem upsertGoal_ok {chainId : ℕ} {goalId : Hash} {draft : Option Expense} {slug : Text}
    {facts : Escrow.GoalFacts} {db : Database}
    (h : upsertGoal chainId goalId draft slug facts db = .ok db') :
    ∃ goals nextId, db.nextId ≤ nextId ∧
      db' = { db with goals := goals, nextId := nextId } := by
  unfold upsertGoal at h
  cases hput : Escrow.putGoal chainId goalId (draft.map (·.toExpense)) slug facts db.goals
    db.nextId with
  | none =>
    rw [hput] at h
    cases h
  | some put =>
    obtain ⟨goals, nextId, id⟩ := put
    rw [hput] at h
    have hnextId : db.nextId ≤ nextId := by
      obtain ⟨-, ⟨-, -, -, hsame, -⟩ | ⟨-, -, hnext, -⟩⟩ := Escrow.putGoal_some.1 hput
      · exact hsame.ge
      · exact hnext ▸ Nat.le_succ _
    exact ⟨goals, nextId, hnextId, (Except.ok.inj h).symm⟩

/-- The projection of a goal changes the goals, and the status of a draft. -/
theorem goalCreatedTx_ok {chainId : ℕ} {goalId : Hash} {draft : Option Expense} {slug : Text}
    {facts : Escrow.GoalFacts} {clock : Time} {db : Database}
    (h : goalCreatedTx chainId goalId draft slug facts clock db = .ok (db', ())) :
    ∃ goals nextId, db.nextId ≤ nextId ∧ db' = { db with
      goals := goals
      nextId := nextId
      expenses := updateWhere (fun row => draft.any (·.id = row.id))
        (fun row => { row with status := .published }) db.expenses } := by
  unfold goalCreatedTx at h
  cases hgoal : upsertGoal chainId goalId draft slug facts db with
  | error e =>
    rw [hgoal] at h
    cases h
  | ok db₁ =>
  rw [hgoal] at h
  obtain ⟨goals, nextId, hnextId, rfl⟩ := upsertGoal_ok hgoal
  cases draft with
  | none =>
    obtain rfl := (Prod.mk.inj (Except.ok.inj h)).1
    have hsame : updateWhere (fun row => (none : Option Expense).any (·.id = row.id))
        (fun row => { row with status := .published }) db.expenses = db.expenses :=
      updateWhere_eq_self fun _ _ => rfl
    rw [hsame]
    exact ⟨goals, nextId, hnextId, rfl⟩
  | some draft =>
    have h : updateOneExpense draft.id (fun row => { row with status := .published }) clock
      { db with goals := goals, nextId := nextId } = .ok (db', ()) := h
    simp only [updateOneExpense] at h
    split at h
    · obtain rfl := (Prod.mk.inj (Except.ok.inj h)).1
      have hsame : (fun row : Expense => (some draft).any (·.id = row.id)) =
          fun row => decide (row.id = draft.id) := by
        funext row
        simp only [Option.any_some, eq_comm]
      rw [hsame]
      exact ⟨goals, nextId, hnextId, rfl⟩
    · cases h

theorem Database.Sound.updateExpenses {db : Database} (hdb : db.Sound) {p : Expense → Bool}
    {f : Expense → Expense} (hf : ∀ row, (f row).id = row.id) : (db.updateExpenses p f).Sound :=
  { hdb with
    expenses := hdb.expenses.updateWhere hf
    expensesBelow := below_of_map (fun row : Expense => row.id)
      (map_updateWhere fun row _ _ => hf row) hdb.expensesBelow }

theorem Database.Sound.insertTopic {db : Database} (hdb : db.Sound) {row : ForumTopic}
    (hid : row.id = db.nextId) :
    Database.Sound { db with topics := db.topics ++ [row], nextId := db.nextId + 1 } :=
  { hdb with
    topics := keyed_append_new hdb.topics hdb.topicsBelow hid
    topicsBelow := below_append hdb.topicsBelow hid
    repliesBelow := fun row hrow => (hdb.repliesBelow row hrow).trans (Nat.lt_succ_self _)
    proposalsBelow := fun row hrow => (hdb.proposalsBelow row hrow).trans (Nat.lt_succ_self _)
    expensesBelow := fun row hrow => (hdb.expensesBelow row hrow).trans (Nat.lt_succ_self _) }

theorem Database.Sound.updateTopics {db : Database} (hdb : db.Sound) {p : ForumTopic → Bool}
    {f : ForumTopic → ForumTopic}
    (hf : ∀ row ∈ db.topics, p row = true → (f row).id = row.id) : (db.updateTopics p f).Sound :=
  { hdb with
    topics := keyed_of_map hdb.topics (map_updateWhere hf)
    topicsBelow := below_of_map ForumTopic.id (map_updateWhere hf) hdb.topicsBelow }

/-- **Every change** keeps the tables sound. -/
theorem Change.sound (hdb : w.db.Sound) (h : Change O log w j db') : db'.Sound := by
  cases h with
  | keep => exact hdb
  | settings _ _ _ _ => exact { hdb with }
  | categories rows _ hkeys _ => exact { hdb with categories := hkeys }
  | draft _ _ _ _ _ _ _ => exact hdb.insertTopic rfl
  | topic _ _ _ _ _ _ _ => exact hdb.insertTopic rfl
  | publish _ _ _ _ _ _ _ _ => exact hdb.updateTopics fun _ _ _ => rfl
  | topics p f hf => exact hdb.updateTopics fun row hrow hp => (hf row hrow hp).id
  | reply topicId _ _ activityAt _ row _ hlt _ htx =>
    obtain ⟨rfl, -, -, rfl⟩ := replyTx_ok htx
    have htopics := hdb.updateTopics (p := fun r => r.id = row.topicId)
      (f := fun r => { r with replyCount := r.replyCount + 1, lastActivityAt := activityAt })
      fun _ _ _ => rfl
    exact
      { htopics with
        topicsBelow := fun r hr => (htopics.topicsBelow r hr).trans (Nat.lt_succ_self _)
        repliesBelow := fun r hr => by
          obtain hr | hr := List.mem_append.1 hr
          · exact (hdb.repliesBelow r hr).trans (Nat.lt_succ_self _)
          · exact List.mem_singleton.1 hr ▸ hlt.trans (Nat.lt_succ_self _)
        proposalsBelow := fun r hr => (hdb.proposalsBelow r hr).trans (Nat.lt_succ_self _)
        expensesBelow := fun r hr => (hdb.expensesBelow r hr).trans (Nat.lt_succ_self _) }
  | replies p f hf =>
    exact { hdb with
      repliesBelow := below_of_map ForumReply.topicId
        (map_updateWhere fun row hrow hp => (hf row hrow hp).topicId) hdb.repliesBelow }
  | propose _ _ _ _ _ row _ htx =>
    obtain ⟨rfl, rfl⟩ := proposeTx_ok htx
    exact
      { hdb with
        proposals := keyed_append_new hdb.proposals hdb.proposalsBelow rfl
        proposalsBelow := below_append hdb.proposalsBelow rfl
        topicsBelow := fun r hr => (hdb.topicsBelow r hr).trans (Nat.lt_succ_self _)
        repliesBelow := fun r hr => (hdb.repliesBelow r hr).trans (Nat.lt_succ_self _)
        expensesBelow := fun r hr => (hdb.expensesBelow r hr).trans (Nat.lt_succ_self _) }
  | proposals p f _ hf =>
    exact { hdb with
      proposals := keyed_of_map hdb.proposals (map_updateProposals_id hf)
      proposalsBelow := below_of_map CommunityProposal.id (map_updateProposals_id hf)
        hdb.proposalsBelow }
  | vote _ _ _ _ _ _ _ _ _ _ => exact { hdb with }
  | createExpense _ row _ _ htx =>
    obtain ⟨rfl, -, rfl⟩ := createExpenseTx_ok htx
    exact
      { hdb with
        proposals := hdb.proposals.updateWhere fun _ => rfl
        proposalsBelow := fun r hr => by
          obtain ⟨hr, -⟩ | ⟨x, hx, -, rfl⟩ := mem_updateWhere_cases hr
          · exact (hdb.proposalsBelow r hr).trans (Nat.lt_succ_self _)
          · exact (hdb.proposalsBelow x hx).trans (Nat.lt_succ_self _)
        expenses := keyed_append_new hdb.expenses hdb.expensesBelow rfl
        expensesBelow := below_append hdb.expensesBelow rfl
        topicsBelow := fun r hr => (hdb.topicsBelow r hr).trans (Nat.lt_succ_self _)
        repliesBelow := fun r hr => (hdb.repliesBelow r hr).trans (Nat.lt_succ_self _) }
  | updateExpense => exact hdb.updateExpenses fun _ => rfl
  | archiveExpense _ => exact hdb.updateExpenses fun _ => rfl
  | publishExpense => exact hdb.updateExpenses fun _ => rfl
  | markExpenseSubmitted => exact hdb.updateExpenses fun _ => rfl
  | projectGoalCreated draft _ _ htx =>
    obtain ⟨goals, nextId, hnextId, rfl⟩ := goalCreatedTx_ok htx
    have hexpenses := hdb.updateExpenses (p := fun row => draft.any (·.id = row.id))
      (f := fun row => { row with status := .published }) fun _ => rfl
    exact
      { hexpenses with
        topicsBelow := fun r hr => (hdb.topicsBelow r hr).trans_le hnextId
        repliesBelow := fun r hr => (hdb.repliesBelow r hr).trans_le hnextId
        proposalsBelow := fun r hr => (hdb.proposalsBelow r hr).trans_le hnextId
        expensesBelow := fun r hr => (hexpenses.expensesBelow r hr).trans_le hnextId }

theorem Prepared.update {p : Expense → Bool} {f : Expense → Expense}
    (hprepared : Prepared O w.db) (hid : ∀ row, (f row).id = row.id)
    (hf : ∀ row, p row = true → (f row).pendingChainGoalId = row.pendingChainGoalId ∨
      (f row).pendingChainGoalId = some (O.checks.goalIdOf row.id)) :
    Prepared O (w.db.updateExpenses p f) := fun row' hrow' => by
  obtain ⟨hrow, -⟩ | ⟨row, hrow, hp, rfl⟩ := mem_updateWhere_cases hrow'
  · exact hprepared row' hrow
  · rw [hid]
    exact (hf row hp).elim (fun hsame => hsame ▸ hprepared row hrow) .inr

/-- **Every change** keeps to the goals of the drafts. -/
theorem Change.prepared (hprepared : Prepared O w.db) (h : Change O log w j db') :
    Prepared O db' := by
  cases h with
  | reply _ _ _ _ _ _ _ _ _ htx =>
    obtain ⟨-, -, -, rfl⟩ := replyTx_ok htx
    exact hprepared
  | propose _ _ _ _ _ _ _ htx =>
    obtain ⟨-, rfl⟩ := proposeTx_ok htx
    exact hprepared
  | createExpense _ row _ _ htx =>
    obtain ⟨rfl, -, rfl⟩ := createExpenseTx_ok htx
    intro row hrow
    obtain hrow | hrow := List.mem_append.1 hrow
    · exact hprepared row hrow
    · exact .inl (List.mem_singleton.1 hrow ▸ rfl)
  | updateExpense => exact hprepared.update (fun _ => rfl) fun _ _ => .inl rfl
  | archiveExpense _ => exact hprepared.update (fun _ => rfl) fun _ _ => .inl rfl
  | publishExpense =>
    refine hprepared.update (fun _ => rfl) fun row hp => .inr ?_
    rw [of_decide_eq_true hp]
  | markExpenseSubmitted => exact hprepared.update (fun _ => rfl) fun _ _ => .inl rfl
  | projectGoalCreated draft _ _ htx =>
    obtain ⟨goals, nextId, -, rfl⟩ := goalCreatedTx_ok htx
    exact hprepared.update (p := fun row => draft.any (·.id = row.id))
      (f := fun row => { row with status := .published }) (fun _ => rfl) fun _ _ => .inl rfl
  | _ => exact hprepared

theorem Does.sound (hw : Sound O w) (h : Does O log j w w') : Sound O w' := by
  cases h with
  | lock r m hfree => exact ⟨hw.db, hw.prepared, hw.locks.acquire hfree⟩
  | commit h => exact ⟨h.sound hw.db, h.prepared hw.prepared, hw.locks.release _⟩

/-! ### Among others -/

/-- The topic is a draft of this user. -/
def Database.IsDraft (db : Database) (id userId : Id) : Prop :=
  ∃ row ∈ db.topics, row.id = id ∧ row.authorId = userId ∧ row.status = .draft

/-- The topic is no draft any more. -/
def Database.HasLeft (db : Database) (id : Id) : Prop :=
  ∃ row ∈ db.topics, row.id = id ∧ row.status ≠ .draft

/-- The votes for a proposal. -/
def Database.votesFor (db : Database) (id : Id) : List ProposalVote :=
  db.votes.filter fun vote => vote.proposalId = id

/-- The weights depend on the votes for the proposal. -/
theorem weight_congr {db db' : Database} {id : Id} (h : db'.votesFor id = db.votesFor id)
    (choice : ProposalVoteChoice) : db'.weight id choice = db.weight id choice := by
  have hsplit : ∀ db : Database, db.weight id choice = total (fun vote => vote.choice = choice)
      (·.weightRaw) (db.votesFor id) := fun db => by
    unfold Database.votesFor
    rw [total_filter]
    refine total_congr (fun vote _ => ?_) fun _ _ _ => rfl
    rw [Bool.and_comm]
    simp
  rw [hsplit, hsplit, h]

/-- What the others may do while the process `n` runs. -/
structure Rely (n : ℕ) (w w' : World) : Prop where
  clock : w.clock ≤ w'.clock
  nextId : w.db.nextId ≤ w'.db.nextId
  locks : ∀ r m, w.Holds n r m → w'.Holds n r m
  project : ∀ m, w.Holds n .project m →
    w'.db.settings = w.db.settings ∧ w'.db.categories = w.db.categories
  drafts : ∀ u, w.Holds n (.user u) .exclusive → w'.db.activeDrafts u ≤ w.db.activeDrafts u ∧
    ∀ id, w.db.IsDraft id u → w'.db.IsDraft id u
  since : ∀ u, w.Holds n (.user u) .exclusive → ∀ t,
    w'.db.topicsSince u t ≤ w.db.topicsSince u t ∧ w'.db.repliesSince u t ≤ w.db.repliesSince u t
  hasLeft : ∀ id, w.db.HasLeft id → w'.db.HasLeft id
  decided : ∀ id, w.db.Decided id → w'.db.Decided id
  proposal : ∀ id, w.Holds n (.proposal id) .exclusive →
    (∀ row, w.db.proposal? id = some row → w'.db.proposal? id = some row) ∧
      w'.db.votesFor id = w.db.votesFor id

theorem Rely.refl (n : ℕ) (w : World) : Rely n w w :=
  ⟨le_rfl, le_rfl, fun _ _ h => h, fun _ _ => ⟨rfl, rfl⟩, fun _ _ => ⟨le_rfl, fun _ h => h⟩,
    fun _ _ _ => ⟨le_rfl, le_rfl⟩, fun _ h => h, fun _ h => h, fun _ _ => ⟨fun _ h => h, rfl⟩⟩

theorem Rely.trans {n : ℕ} (h : Rely n w w') (h' : Rely n w' w'') : Rely n w w'' where
  clock := h.clock.trans h'.clock
  nextId := h.nextId.trans h'.nextId
  locks r m hr := h'.locks r m (h.locks r m hr)
  project m hr := by
    obtain ⟨hsettings, hcategories⟩ := h.project m hr
    obtain ⟨hsettings', hcategories'⟩ := h'.project m (h.locks _ _ hr)
    exact ⟨hsettings'.trans hsettings, hcategories'.trans hcategories⟩
  drafts u hr := by
    obtain ⟨hcount, hdrafts⟩ := h.drafts u hr
    obtain ⟨hcount', hdrafts'⟩ := h'.drafts u (h.locks _ _ hr)
    exact ⟨hcount'.trans hcount, fun id hid => hdrafts' id (hdrafts id hid)⟩
  since u hr t := by
    obtain ⟨htopics, hreplies⟩ := h.since u hr t
    obtain ⟨htopics', hreplies'⟩ := h'.since u (h.locks _ _ hr) t
    exact ⟨htopics'.trans htopics, hreplies'.trans hreplies⟩
  hasLeft id hid := h'.hasLeft id (h.hasLeft id hid)
  decided id hid := h'.decided id (h.decided id hid)
  proposal id hr := by
    obtain ⟨hrow, hvotes⟩ := h.proposal id hr
    obtain ⟨hrow', hvotes'⟩ := h'.proposal id (h.locks _ _ hr)
    exact ⟨fun row hfound => hrow' row (hrow row hfound), hvotes'.trans hvotes⟩

/-! ### What a change leaves alone -/

theorem Change.nextId_le (h : Change O log w j db') : w.db.nextId ≤ db'.nextId := by
  cases h with
  | reply _ _ _ _ _ _ _ _ _ htx =>
    obtain ⟨-, -, -, rfl⟩ := replyTx_ok htx
    exact Nat.le_succ _
  | propose _ _ _ _ _ _ _ htx =>
    obtain ⟨-, rfl⟩ := proposeTx_ok htx
    exact Nat.le_succ _
  | createExpense _ _ _ _ htx =>
    obtain ⟨-, -, rfl⟩ := createExpenseTx_ok htx
    exact Nat.le_succ _
  | projectGoalCreated _ _ _ htx =>
    obtain ⟨goals, nextId, hnextId, rfl⟩ := goalCreatedTx_ok htx
    exact hnextId
  | draft _ _ _ _ _ _ _ | topic _ _ _ _ _ _ _ => exact Nat.le_succ _
  | _ => exact le_rfl

/-- The settings and the categories change under a lock of the project only. -/
theorem Change.project (h : Change O log w j db') : w.Holds j.slot .project .exclusive ∨
    db'.settings = w.db.settings ∧ db'.categories = w.db.categories := by
  cases h with
  | settings _ _ hlock _ => exact .inl hlock
  | categories _ hlock _ _ => exact .inl hlock
  | reply _ _ _ _ _ _ _ _ _ htx =>
    obtain ⟨-, -, -, rfl⟩ := replyTx_ok htx
    exact .inr ⟨rfl, rfl⟩
  | propose _ _ _ _ _ _ _ htx =>
    obtain ⟨-, rfl⟩ := proposeTx_ok htx
    exact .inr ⟨rfl, rfl⟩
  | createExpense _ _ _ _ htx =>
    obtain ⟨-, -, rfl⟩ := createExpenseTx_ok htx
    exact .inr ⟨rfl, rfl⟩
  | projectGoalCreated _ _ _ htx =>
    obtain ⟨goals, nextId, -, rfl⟩ := goalCreatedTx_ok htx
    exact .inr ⟨rfl, rfl⟩
  | _ => exact .inr ⟨rfl, rfl⟩

/-! ### Topics -/

/-- What a change does to the topics. -/
inductive TopicsChange (w : World) (n : ℕ) : List ForumTopic → Prop where
  | same : TopicsChange w n w.db.topics
  | draft (row : ForumTopic) : row.id = w.db.nextId → row.status = .draft → row.replyCount = 0 →
      w.Holds n (.user row.authorId) .exclusive → w.db.activeDrafts row.authorId < maxDrafts →
      TopicsChange w n (w.db.topics ++ [row])
  | topic (row : ForumTopic) : row.id = w.db.nextId → row.status ≠ .draft → row.replyCount = 0 →
      Enters w n row.authorId row.category row.status row.createdAt →
      TopicsChange w n (w.db.topics ++ [row])
  | publish (id userId : Id) (f : ForumTopic → ForumTopic) :
      (∀ row ∈ w.db.topics, row.id = id → row.authorId = userId ∧ row.status = .draft) →
      (∀ row, (f row).id = row.id ∧ (f row).authorId = row.authorId ∧
        (f row).replyCount = row.replyCount ∧ (f row).status ≠ .draft ∧
        Enters w n userId (f row).category (f row).status (f row).createdAt) →
      TopicsChange w n (updateWhere (fun row => row.id = id) f w.db.topics)
  | edit (p : ForumTopic → Bool) (f : ForumTopic → ForumTopic) :
      (∀ row ∈ w.db.topics, p row = true → TopicEdit row (f row)) →
      TopicsChange w n (updateWhere p f w.db.topics)
  | replied (topicId : Id) (activityAt : Time) :
      TopicsChange w n (updateWhere (fun row => row.id = topicId) (fun row =>
        { row with replyCount := row.replyCount + 1, lastActivityAt := activityAt }) w.db.topics)

theorem publishedStatus_ne (settings : Option CommunitySettings) :
    publishedStatus settings ≠ .draft := by
  unfold publishedStatus
  split_ifs <;> simp

theorem Enters.out {n : ℕ} {userId : Id} {category : Text} {status : ForumTopicStatus}
    {createdAt : Time} (h : Enters w n userId category status createdAt) : status ≠ .draft :=
  h.status ▸ publishedStatus_ne _

theorem Change.topicsChange (h : Change O log w j db') : TopicsChange w j.slot db'.topics := by
  cases h with
  | draft userId title body category createdAt hlock hlimit =>
    exact .draft _ rfl rfl rfl hlock hlimit
  | topic userId title body category status createdAt henters =>
    exact .topic _ rfl henters.out rfl henters
  | publish id dto userId category status publishedAt hdraft henters =>
    exact .publish id userId _ hdraft fun row => ⟨rfl, rfl, rfl, henters.out, henters⟩
  | topics p f hf => exact .edit p f hf
  | reply topicId _ _ activityAt _ _ _ _ _ htx =>
    obtain ⟨-, -, -, rfl⟩ := replyTx_ok htx
    exact .replied topicId activityAt
  | propose _ _ _ _ _ _ _ htx =>
    obtain ⟨-, rfl⟩ := proposeTx_ok htx
    exact .same
  | createExpense _ _ _ _ htx =>
    obtain ⟨-, -, rfl⟩ := createExpenseTx_ok htx
    exact .same
  | projectGoalCreated _ _ _ htx =>
    obtain ⟨goals, nextId, -, rfl⟩ := goalCreatedTx_ok htx
    exact .same
  | _ => exact .same

/-- A count of topics that an update of a topic does not add to. -/
theorem countP_edit_le {q : ForumTopic → Bool} {p : ForumTopic → Bool}
    {f : ForumTopic → ForumTopic}
    (hf : ∀ row ∈ w.db.topics, p row = true → TopicEdit row (f row))
    (hq : ∀ row row', TopicEdit row row' → q row' = true → q row = true) :
    (updateWhere p f w.db.topics).countP q ≤ w.db.topics.countP q :=
  countP_updateWhere_le fun row hrow hp => hq _ _ (hf row hrow hp)

/-- Active drafts are added under the lock of their author only. -/
theorem TopicsChange.activeDrafts {n : ℕ} (h : TopicsChange w n db'.topics) (u : Id) :
    w.Holds n (.user u) .exclusive ∨ db'.activeDrafts u ≤ w.db.activeDrafts u := by
  unfold Database.activeDrafts
  generalize db'.topics = topics at h
  cases h with
  | same => exact .inr le_rfl
  | draft row _ _ _ hlock _ =>
    by_cases hu : row.authorId = u
    · exact .inl (hu ▸ hlock)
    · exact .inr (by simp [List.countP_append, hu])
  | topic row _ hout _ _ => exact .inr (by simp [List.countP_append, hout])
  | publish id userId f _ hf =>
    refine .inr (countP_updateWhere_le fun row _ _ hq => ?_)
    exact absurd (of_decide_eq_true hq).2.1 (hf row).2.2.2.1
  | edit p f hf =>
    refine .inr (countP_edit_le hf fun row row' hedit hq => ?_)
    obtain ⟨hauthor, hdraft, hdeleted, hremoved⟩ := of_decide_eq_true hq
    exact decide_eq_true ⟨hedit.authorId ▸ hauthor, hedit.draft.1 hdraft, hedit.deletedAt hdeleted,
      hedit.removedAt hremoved⟩
  | replied topicId activityAt =>
    exact .inr (countP_updateWhere_le fun row _ _ hq => hq)

/-- Topics are added or leave the drafts under the lock of their author only. -/
theorem TopicsChange.topicsSince {n : ℕ} (h : TopicsChange w n db'.topics) (u : Id) (t : Time) :
    w.Holds n (.user u) .exclusive ∨ db'.topicsSince u t ≤ w.db.topicsSince u t := by
  unfold Database.topicsSince
  generalize db'.topics = topics at h
  cases h with
  | same => exact .inr le_rfl
  | draft row _ hdraft _ _ _ => exact .inr (by simp [List.countP_append, hdraft])
  | topic row _ _ _ henters =>
    by_cases hu : row.authorId = u
    · exact .inl (hu ▸ henters.user)
    · exact .inr (by simp [List.countP_append, hu])
  | publish id userId f hdraft hf =>
    by_cases hu : userId = u
    · by_cases hany : ∃ row ∈ w.db.topics, row.id = id
      · obtain ⟨row, hrow, hid⟩ := hany
        exact .inl (hu ▸ (hf row).2.2.2.2.user)
      · rw [updateWhere_eq_self fun row hrow => decide_eq_false fun hid => hany ⟨row, hrow, hid⟩]
        exact .inr le_rfl
    · refine .inr (countP_updateWhere_le fun row hrow hp hq => ?_)
      have hauthor := (of_decide_eq_true hq).1
      rw [(hf row).2.1, (hdraft row hrow (of_decide_eq_true hp)).1] at hauthor
      exact absurd hauthor hu
  | edit p f hf =>
    refine .inr (countP_edit_le hf fun row row' hedit hq => ?_)
    obtain ⟨hauthor, hout, hsince⟩ := of_decide_eq_true hq
    exact decide_eq_true ⟨hedit.authorId ▸ hauthor, fun h => hout (hedit.draft.2 h),
      hedit.createdAt ▸ hsince⟩
  | replied topicId activityAt =>
    exact .inr (countP_updateWhere_le fun row _ _ hq => hq)

/-- A draft is published under the lock of its author only. -/
theorem TopicsChange.isDraft {n : ℕ} (h : TopicsChange w n db'.topics) {id u : Id}
    (hid : w.db.IsDraft id u) : w.Holds n (.user u) .exclusive ∨ db'.IsDraft id u := by
  unfold Database.IsDraft at hid ⊢
  generalize db'.topics = topics at h
  cases h with
  | same => exact .inr hid
  | draft row _ _ _ _ _ | topic row _ _ _ _ =>
    obtain ⟨x, hx, hrest⟩ := hid
    exact .inr ⟨x, List.mem_append_left _ hx, hrest⟩
  | publish id' userId f hdraft hf =>
    by_cases hid' : id' = id
    · subst hid'
      obtain ⟨x, hx, hxid, hauthor, -⟩ := hid
      have hsame : userId = u := (hdraft x hx hxid).1.symm.trans hauthor
      exact .inl (hsame ▸ (hf x).2.2.2.2.user)
    · obtain ⟨x, hx, hxid, hrest⟩ := hid
      refine .inr ⟨x, mem_updateWhere_of_not hx (decide_eq_false ?_), hxid, hrest⟩
      exact fun h => hid' (h.symm.trans hxid)
  | edit p f hf =>
    refine .inr (exists_mem_updateWhere hid fun row hrow hp hq => ?_)
    have hedit := hf row hrow hp
    exact ⟨hedit.id.trans hq.1, hedit.authorId.trans hq.2.1, hedit.draft.2 hq.2.2⟩
  | replied topicId activityAt =>
    exact .inr (exists_mem_updateWhere hid fun row _ _ hq => hq)

theorem TopicsChange.hasLeft {n : ℕ} (h : TopicsChange w n db'.topics) {id : Id}
    (hid : w.db.HasLeft id) : db'.HasLeft id := by
  unfold Database.HasLeft at hid ⊢
  generalize db'.topics = topics at h
  cases h with
  | same => exact hid
  | draft row _ _ _ _ _ | topic row _ _ _ _ =>
    obtain ⟨x, hx, hrest⟩ := hid
    exact ⟨x, List.mem_append_left _ hx, hrest⟩
  | publish id' userId f _ hf =>
    exact exists_mem_updateWhere hid fun row _ _ hq => ⟨(hf row).1.trans hq.1, (hf row).2.2.2.1⟩
  | edit p f hf =>
    refine exists_mem_updateWhere hid fun row hrow hp hq => ?_
    have hedit := hf row hrow hp
    exact ⟨hedit.id.trans hq.1, fun h => hq.2 (hedit.draft.1 h)⟩
  | replied topicId activityAt => exact exists_mem_updateWhere hid fun row _ _ hq => hq

/-! ### Replies and proposals -/

/-- What a change does to the replies. -/
theorem Change.repliesSince (h : Change O log w j db') (u : Id) (t : Time) :
    w.Holds j.slot (.user u) .exclusive ∨ db'.repliesSince u t ≤ w.db.repliesSince u t := by
  unfold Database.repliesSince
  cases h with
  | reply _ userId _ _ _ row hlock _ _ htx =>
    obtain ⟨-, rfl, -, rfl⟩ := replyTx_ok htx
    by_cases hu : row.authorId = u
    · exact .inl (hu ▸ hlock)
    · exact .inr (by simp [List.countP_append, hu])
  | replies p f hf =>
    refine .inr (countP_updateWhere_le fun row hrow hp hq => ?_)
    have hedit := hf row hrow hp
    obtain ⟨hauthor, hsince⟩ := of_decide_eq_true hq
    exact decide_eq_true ⟨hedit.authorId ▸ hauthor, hedit.createdAt ▸ hsince⟩
  | propose _ _ _ _ _ _ _ htx =>
    obtain ⟨-, rfl⟩ := proposeTx_ok htx
    exact .inr le_rfl
  | createExpense _ _ _ _ htx =>
    obtain ⟨-, -, rfl⟩ := createExpenseTx_ok htx
    exact .inr le_rfl
  | projectGoalCreated _ _ _ htx =>
    obtain ⟨goals, nextId, -, rfl⟩ := goalCreatedTx_ok htx
    exact .inr le_rfl
  | _ => exact .inr le_rfl

/-- What a change does to the proposals. -/
inductive ProposalsChange (w : World) (j : Job) : List CommunityProposal → Prop where
  | same : ProposalsChange w j w.db.proposals
  | propose (authorId : Id) (dto : CreateProposal) (block : Option ℕ) (current createdAt : Time) :
      (block = none ↔ w.db.proposalsModerated = true) → ProposalsChange w j (w.db.proposals ++
        [CommunityProposal.new w.db.nextId authorId dto block current createdAt])
  | steps (p : CommunityProposal → Bool) (f : CommunityProposal → CommunityProposal) :
      (∀ row ∈ w.db.proposals, p row = true → ProposalStep w j row (f row)) →
      ProposalsChange w j (updateWhere p f w.db.proposals)
  | convert (n : ℕ) (dto : CreateExpense) (actor : Principal) (proposalId : Option Id)
      (closedAt : Time) : j = .createExpense n dto actor proposalId →
      (∀ id, proposalId = some id → w.db.Decided id) →
      (∀ id, proposalId = some id →
        ∀ other ∈ w.db.expenses, other.communityProposalId ≠ some id) →
      ProposalsChange w j (updateWhere (fun proposal => proposalId = some proposal.id)
        (fun proposal => { proposal with
          status := .converted
          moderatedBy := some actor.address
          closedAt := some closedAt }) w.db.proposals)

theorem Change.proposalsChange (h : Change O log w j db') : ProposalsChange w j db'.proposals := by
  cases h with
  | reply _ _ _ _ _ _ _ _ _ htx =>
    obtain ⟨-, -, -, rfl⟩ := replyTx_ok htx
    exact .same
  | propose _ _ _ _ _ _ hblock htx =>
    obtain ⟨rfl, rfl⟩ := proposeTx_ok htx
    exact .propose _ _ _ _ _ hblock
  | proposals p f _ hf => exact .steps p f hf
  | createExpense closedAt _ hdecided _ htx =>
    obtain ⟨-, hfree, rfl⟩ := createExpenseTx_ok htx
    exact .convert _ _ _ _ closedAt rfl hdecided hfree
  | projectGoalCreated _ _ _ htx =>
    obtain ⟨goals, nextId, -, rfl⟩ := goalCreatedTx_ok htx
    exact .same
  | _ => exact .same

/-- What a change does to one proposal. -/
inductive ProposalMove (w : World) (j : Job) (row : CommunityProposal) :
    CommunityProposal → Prop where
  | same : ProposalMove w j row row
  | step {row' : CommunityProposal} : ProposalStep w j row row' → ProposalMove w j row row'
  | convert (n : ℕ) (dto : CreateExpense) (actor : Principal) (closedAt : Time) :
      j = .createExpense n dto actor (some row.id) → w.db.Decided row.id →
      (∀ other ∈ w.db.expenses, other.communityProposalId ≠ some row.id) →
      ProposalMove w j row { row with
        status := .converted
        moderatedBy := some actor.address
        closedAt := some closedAt }

theorem ProposalMove.id {row row' : CommunityProposal} (h : ProposalMove w j row row') :
    row'.id = row.id := by
  cases h with
  | same => rfl
  | step h => exact h.id
  | convert _ _ _ _ _ _ _ => rfl

/-- Proposals are never lost. -/
theorem ProposalsChange.forward (h : ProposalsChange w j db'.proposals) {row : CommunityProposal}
    (hrow : row ∈ w.db.proposals) : ∃ row' ∈ db'.proposals, ProposalMove w j row row' := by
  generalize db'.proposals = proposals at h
  cases h with
  | same => exact ⟨row, hrow, .same⟩
  | propose _ _ _ _ _ _ => exact ⟨row, List.mem_append_left _ hrow, .same⟩
  | steps p f hf =>
    by_cases hp : p row = true
    · exact ⟨f row, mem_updateWhere_of hrow hp, .step (hf row hrow hp)⟩
    · exact ⟨row, mem_updateWhere_of_not hrow (by simpa using hp), .same⟩
  | convert n dto actor proposalId closedAt hjob hdecided hfree =>
    by_cases hp : proposalId = some row.id
    · exact ⟨_, mem_updateWhere_of hrow (decide_eq_true hp),
        .convert n dto actor closedAt (hp ▸ hjob) (hdecided _ hp) (hfree _ hp)⟩
    · exact ⟨row, mem_updateWhere_of_not hrow (decide_eq_false hp), .same⟩

/-- A proposal was there before, or it is new. -/
theorem ProposalsChange.backward (h : ProposalsChange w j db'.proposals)
    {row' : CommunityProposal} (hrow' : row' ∈ db'.proposals) :
    (∃ row ∈ w.db.proposals, ProposalMove w j row row') ∨
      ∃ authorId dto block current createdAt,
        (block = none ↔ w.db.proposalsModerated = true) ∧
        row' = CommunityProposal.new w.db.nextId authorId dto block current createdAt := by
  generalize db'.proposals = proposals at h hrow'
  cases h with
  | same => exact .inl ⟨row', hrow', .same⟩
  | propose authorId dto block current createdAt hblock =>
    obtain hrow' | hrow' := List.mem_append.1 hrow'
    · exact .inl ⟨row', hrow', .same⟩
    · exact .inr ⟨authorId, dto, block, current, createdAt, hblock, List.mem_singleton.1 hrow'⟩
  | steps p f hf =>
    obtain ⟨hrow, -⟩ | ⟨row, hrow, hp, rfl⟩ := mem_updateWhere_cases hrow'
    · exact .inl ⟨row', hrow, .same⟩
    · exact .inl ⟨row, hrow, .step (hf row hrow hp)⟩
  | convert n dto actor proposalId closedAt hjob hdecided hfree =>
    obtain ⟨hrow, -⟩ | ⟨row, hrow, hp, rfl⟩ := mem_updateWhere_cases hrow'
    · exact .inl ⟨row', hrow, .same⟩
    · have hp := of_decide_eq_true hp
      exact .inl ⟨row, hrow, .convert n dto actor closedAt (hp ▸ hjob) (hdecided _ hp)
        (hfree _ hp)⟩

/-- A decided proposal stays decided. -/
theorem ProposalStep.decided {row row' : CommunityProposal} (h : ProposalStep w j row row')
    (hdecided : row.decided = true) : row'.decided = true := by
  cases h with
  | text _ _ _ _ => exact hdecided
  | openVoting _ _ _ _ hpending => simp [CommunityProposal.decided, hpending] at hdecided
  | close _ hvoting _ => simp [CommunityProposal.decided, hvoting] at hdecided
  | decline _ _ _ _ => simp [CommunityProposal.decided]
  | remove _ _ _ _ => simp [CommunityProposal.decided]

theorem ProposalsChange.decided (h : ProposalsChange w j db'.proposals) {id : Id}
    (hid : w.db.Decided id) : db'.Decided id := by
  unfold Database.Decided at hid ⊢
  generalize db'.proposals = proposals at h
  cases h with
  | same => exact hid
  | propose _ _ _ _ _ _ =>
    obtain ⟨x, hx, hrest⟩ := hid
    exact ⟨x, List.mem_append_left _ hx, hrest⟩
  | steps p f hf =>
    refine exists_mem_updateWhere hid fun row hrow hp hq => ?_
    have hstep := hf row hrow hp
    exact ⟨hstep.id.trans hq.1, hstep.decided hq.2⟩
  | convert _ _ _ _ _ _ _ _ =>
    exact exists_mem_updateWhere hid fun row _ _ hq => ⟨hq.1, by simp [CommunityProposal.decided]⟩

/-- Votes for other proposals are not touched. -/
theorem votesFor_upsertVote {db : Database} {proposalId userId other : Id}
    {choice : ProposalVoteChoice} {weight : ℕ} {t : Time} (hne : other ≠ proposalId) :
    (upsertVote proposalId userId choice weight t db).votesFor other = db.votesFor other := by
  have hview : view (fun vote : ProposalVote => vote.proposalId = other) (fun vote => vote)
      (upsertVote proposalId userId choice weight t db).votes =
      view (fun vote => vote.proposalId = other) (fun vote => vote) db.votes := by
    refine view_upsert_of_not (decide_eq_false hne.symm) (fun vote hp => decide_eq_false ?_)
      fun _ => rfl
    rw [(of_decide_eq_true hp).1]
    exact hne.symm
  unfold view at hview
  rwa [List.map_id'', List.map_id''] at hview <;> exact fun _ => rfl

theorem mem_of_proposal? {db : Database} {id : Id} {row : CommunityProposal}
    (h : db.proposal? id = some row) : row ∈ db.proposals ∧ row.id = id :=
  ⟨List.mem_of_find?_eq_some h, by simpa using List.find?_some h⟩

/-- A proposal that others hold stays in the table. -/
theorem Change.proposal_mem (h : Change O log w j db') {row : CommunityProposal}
    (hrow : row ∈ w.db.proposals) (hheld : ¬w.FreeProposal j.slot row.id) :
    row ∈ db'.proposals := by
  cases h with
  | propose _ _ _ _ _ _ _ htx =>
    obtain ⟨-, rfl⟩ := proposeTx_ok htx
    exact List.mem_append_left _ hrow
  | proposals p f hfree _ =>
    refine mem_updateWhere_of_not hrow (Bool.eq_false_iff.2 fun hp => hheld (hfree row hrow hp))
  | reply _ _ _ _ _ _ _ _ _ htx =>
    obtain ⟨-, -, -, rfl⟩ := replyTx_ok htx
    exact hrow
  | createExpense _ _ _ hfree htx =>
    obtain ⟨-, -, rfl⟩ := createExpenseTx_ok htx
    exact mem_updateWhere_of_not hrow (decide_eq_false fun hid => hheld (hfree _ hid))
  | projectGoalCreated _ _ _ htx =>
    obtain ⟨goals, nextId, -, rfl⟩ := goalCreatedTx_ok htx
    exact hrow
  | _ => exact hrow

/-- Votes change under the lock of their proposal only. -/
theorem Change.votesFor (h : Change O log w j db') (id : Id) :
    w.Holds j.slot (.proposal id) .exclusive ∨ db'.votesFor id = w.db.votesFor id := by
  cases h with
  | @vote n proposalId _ _ _ _ _ _ hlock _ _ _ _ _ =>
    by_cases hid : id = proposalId
    · exact .inl (hid ▸ hlock)
    · exact .inr (votesFor_upsertVote hid)
  | propose _ _ _ _ _ _ _ htx =>
    obtain ⟨-, rfl⟩ := proposeTx_ok htx
    exact .inr rfl
  | reply _ _ _ _ _ _ _ _ _ htx =>
    obtain ⟨-, -, -, rfl⟩ := replyTx_ok htx
    exact .inr rfl
  | createExpense _ _ _ _ htx =>
    obtain ⟨-, -, rfl⟩ := createExpenseTx_ok htx
    exact .inr rfl
  | projectGoalCreated _ _ _ htx =>
    obtain ⟨goals, nextId, -, rfl⟩ := goalCreatedTx_ok htx
    exact .inr rfl
  | _ => exact .inr rfl

/-! ### The others -/

/-- **What the others do** is what a process relies on. -/
theorem Does.rely {n : ℕ} (hw : Sound O w) (hn : n ≠ j.slot) (h : Does O log j w w') :
    Rely n w w' := by
  have hout : ∀ {r m}, w.Holds n r m → ¬w.Holds j.slot r .exclusive := fun hmine hother =>
    hn (hw.locks.not_both hother hmine).symm
  cases h with
  | lock r m _ =>
    exact { Rely.refl n w with locks := fun _ _ h => Locks.mem_acquire.2 (.inr h) }
  | commit h =>
    have htopics := h.topicsChange
    refine
      { clock := le_rfl
        nextId := h.nextId_le
        locks := fun _ _ h => Locks.mem_release_of_ne h hn
        project := fun m hm => h.project.resolve_left (hout hm)
        drafts := fun u hu => ⟨(htopics.activeDrafts u).resolve_left (hout hu), fun id hid =>
          (htopics.isDraft hid).resolve_left (hout hu)⟩
        since := fun u hu t => ⟨(htopics.topicsSince u t).resolve_left (hout hu),
          (h.repliesSince u t).resolve_left (hout hu)⟩
        hasLeft := fun id hid => htopics.hasLeft hid
        decided := fun id hid => h.proposalsChange.decided hid
        proposal := fun id hid => ⟨fun row hfound => ?_, (h.votesFor id).resolve_left (hout hid)⟩ }
    obtain ⟨hrow, rfl⟩ := mem_of_proposal? hfound
    have hheld : ¬w.FreeProposal j.slot row.id := fun hfree => hn (Locks.not_held_of_free hfree hid)
    exact (h.sound hw.db).proposals.find?_eq (h.proposal_mem hrow hheld)

theorem Environment.rely {n : ℕ} (h : Environment w w') : Rely n w w' := by
  cases h with
  | tick hle => exact { Rely.refl n w with clock := hle }

theorem Environment.sound (hw : Sound O w) (h : Environment w w') : Sound O w' := by
  cases h with
  | tick _ => exact ⟨hw.db, hw.prepared, hw.locks⟩

/-- A crash of another process releases its locks. -/
theorem rely_release {n : ℕ} (hn : n ≠ j.slot) :
    Rely n w { w with locks := w.locks.release j.slot } :=
  { Rely.refl n w with locks := fun _ _ h => Locks.mem_release_of_ne h hn }

end Community

end PreCommunity
