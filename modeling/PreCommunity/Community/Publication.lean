import PreCommunity.Concurrent.Within
import PreCommunity.Community.Frozen

/-!
# Publication and the switches of moderation

Topics and proposals are written while the project is locked, after the switch of their review was
read.  So the switch and the category at the commit decide.

* `Switches`, `Stores` : a write sets a switch only for the job that sets it, and a job that sets a
  switch stores what it was given.
* `PublicationStep` : what a write may publish.
* `Window` : a proposal that is open for votes has a snapshot and a window of seven days.
* `publication_is_moderated` : every run.
-/

namespace PreCommunity

namespace Community

open Concurrent Store
open Escrow (Id Time Address Hash Text)

/-! ### What is published -/

/-- The topic was a draft, or is new. -/
def Database.Entering (db : Database) (id : Id) : Prop :=
  ∀ row ∈ db.topics, row.id = id → row.status = .draft

/-- A topic that is published now: the switch and the categories decide. -/
structure PublishedTopic (db : Database) (row' : ForumTopic) : Prop where
  status : row'.status = if db.topicsModerated then .pendingReview else .published
  category : db.isActiveCategory row'.category = true

/-- The snapshot and the seven days of a vote. -/
def Window (row : CommunityProposal) : Prop :=
  row.snapshotBlock.isSome = true ∧
    ∃ start, row.votingStartsAt = some start ∧ row.votingEndsAt = some (start + votingWindowMs)

/-- A proposal that is new: it waits for review, or is open for votes. -/
structure ProposedProposal (db : Database) (row' : CommunityProposal) : Prop where
  status : row'.status = if db.proposalsModerated then .pendingReview else .voting
  window : db.proposalsModerated = false → Window row'

/-- What a write may publish. -/
structure PublicationStep (db db' : Database) : Prop where
  topics : ∀ row' ∈ db'.topics, row'.status ≠ .draft → db.Entering row'.id → PublishedTopic db row'
  proposals : ∀ row' ∈ db'.proposals, (∀ row ∈ db.proposals, row.id ≠ row'.id) →
    ProposedProposal db row'

/-- Proposals that are or were open for votes have a window. -/
def Windows (db : Database) : Prop :=
  ∀ row ∈ db.proposals, row.status = .voting ∨ row.status = .passed ∨ row.status = .rejected →
    Window row

/-- A write sets a switch only for the job that sets it. -/
structure Switches (j : Job) (db db' : Database) : Prop where
  topics : db'.topicsModerated = db.topicsModerated ∨
    ∃ n actor, j = .forumSettings n db'.topicsModerated actor
  proposals : db'.proposalsModerated = db.proposalsModerated ∨
    ∃ n actor, j = .proposalSettings n db'.proposalsModerated actor

/-- The step commits a job that is a `P`: the tables change, since the job notes what it did. -/
def Commits (P : Job → Prop) : Label World Reply Failure Job → Prop
  | .act j _ _ (.ran w w') => P j ∧ w'.db ≠ w.db
  | _ => False

instance (P : Job → Prop) [DecidablePred P] : DecidablePred (Commits P)
  | .act j _ _ (.ran w w') => inferInstanceAs (Decidable (P j ∧ w'.db ≠ w.db))
  | .act _ _ _ (.asked _ _ _) | .env | .start _ | .stop _ | .crash _ =>
      inferInstanceAs (Decidable False)

/-- What the job sets the review of topics to. -/
def Job.topicSwitch : Job → Option Bool
  | .forumSettings _ enabled _ => some enabled
  | _ => none

/-- What the job sets the review of proposals to. -/
def Job.proposalSwitch : Job → Option Bool
  | .proposalSettings _ enabled _ => some enabled
  | _ => none

/-- A job that sets a switch stores the value that it was given. -/
structure Stores (j : Job) (db' : Database) : Prop where
  topics : ∀ enabled, j.topicSwitch = some enabled → db'.topicsModerated = enabled
  proposals : ∀ enabled, j.proposalSwitch = some enabled → db'.proposalsModerated = enabled

/-- The topics are not switched back. -/
def TopicsStay (j : Job) (_ : Time) (_ _ : Database) : Prop := j.topicSwitch ≠ some false

/-- The proposals are not switched back. -/
def ProposalsStay (j : Job) (_ : Time) (_ _ : Database) : Prop := j.proposalSwitch ≠ some false

instance (j : Job) (t : Time) (db db' : Database) : Decidable (TopicsStay j t db db') :=
  inferInstanceAs (Decidable (j.topicSwitch ≠ some false))

section

variable {O : Outside} {w : World} {j : Job} {db' : Database} {log : Log}

/-! ### One write -/

theorem publishedStatus_eq (db : Database) :
    publishedStatus db.settings = if db.topicsModerated then .pendingReview else .published := rfl

theorem Enters.published {n : ℕ} {userId : Id} {row' : ForumTopic}
    (h : Enters w n userId row'.category row'.status row'.createdAt) : PublishedTopic w.db row' :=
  ⟨h.status.trans (publishedStatus_eq w.db), h.active⟩

/-- A topic leaves the drafts by the rules. -/
theorem TopicsChange.published {n : ℕ} (h : TopicsChange w n db'.topics) {row' : ForumTopic}
    (hrow' : row' ∈ db'.topics) (hout : row'.status ≠ .draft) (hentering : w.db.Entering row'.id) :
    PublishedTopic w.db row' := by
  -- an old row with this id is a draft, and stays one unless it is published
  have hold : ∀ row ∈ w.db.topics, row.id = row'.id → row'.status = row.status →
      PublishedTopic w.db row' := fun row hrow hid hstatus =>
    absurd (hstatus.trans (hentering row hrow hid)) hout
  generalize db'.topics = topics at h hrow'
  cases h with
  | same => exact hold row' hrow' rfl rfl
  | draft row _ hdraft _ _ _ =>
    obtain hrow' | hrow' := List.mem_append.1 hrow'
    · exact hold row' hrow' rfl rfl
    · exact absurd ((List.mem_singleton.1 hrow') ▸ hdraft) hout
  | topic row _ _ _ henters =>
    obtain hrow' | hrow' := List.mem_append.1 hrow'
    · exact hold row' hrow' rfl rfl
    · rw [List.mem_singleton.1 hrow']
      exact henters.published
  | publish id userId f _ hf =>
    obtain ⟨hrow, -⟩ | ⟨row, hrow, -, rfl⟩ := mem_updateWhere_cases hrow'
    · exact hold row' hrow rfl rfl
    · exact (hf row).2.2.2.2.published
  | edit p f hf =>
    obtain ⟨hrow, -⟩ | ⟨row, hrow, hp, rfl⟩ := mem_updateWhere_cases hrow'
    · exact hold row' hrow rfl rfl
    · have hedit := hf row hrow hp
      exact absurd (hedit.draft.2 (hentering row hrow hedit.id.symm)) hout
  | replied topicId activityAt =>
    obtain ⟨hrow, -⟩ | ⟨row, hrow, -, rfl⟩ := mem_updateWhere_cases hrow'
    · exact hold row' hrow rfl rfl
    · exact hold row hrow rfl rfl

/-- A new proposal is open for votes just when no review is asked for. -/
theorem proposed_new {authorId : Id} {dto : CreateProposal} {block : Option ℕ}
    {current createdAt : Time} (hblock : block = none ↔ w.db.proposalsModerated = true) :
    ProposedProposal w.db
      (CommunityProposal.new w.db.nextId authorId dto block current createdAt) := by
  cases block with
  | none =>
    have hmoderated := hblock.1 rfl
    exact ⟨by simp [CommunityProposal.new, hmoderated], fun h => by simp [hmoderated] at h⟩
  | some block =>
    have hmoderated : w.db.proposalsModerated = false := by
      cases h : w.db.proposalsModerated with
      | false => rfl
      | true => cases hblock.2 h
    exact ⟨by simp [CommunityProposal.new, hmoderated], fun _ => ⟨rfl, current, rfl, rfl⟩⟩

theorem Change.publicationStep (h : Change O log w j db') : PublicationStep w.db db' := by
  refine ⟨fun row' hrow' hout hentering => h.topicsChange.published hrow' hout hentering,
    fun row' hrow' hnew => ?_⟩
  obtain ⟨row, hrow, hmove⟩ | ⟨_, _, block, _, _, hblock, rfl⟩ := h.proposalsChange.backward hrow'
  · exact absurd hmove.id.symm (hnew row hrow)
  · exact proposed_new hblock

/-- The window of a proposal that is or was open for votes. -/
theorem ProposalMove.window {row row' : CommunityProposal} (h : ProposalMove w j row row')
    (hrow : row.status = .voting ∨ row.status = .passed ∨ row.status = .rejected → Window row)
    (hstatus : row'.status = .voting ∨ row'.status = .passed ∨ row'.status = .rejected) :
    Window row' := by
  cases h with
  | same => exact hrow hstatus
  | step h =>
    cases h with
    | text _ _ _ _ => exact hrow hstatus
    | openVoting _ current _ _ _ => exact ⟨rfl, current, rfl, rfl⟩
    | close _ hvoting _ => exact hrow (.inl hvoting)
    | decline _ _ _ _ | remove _ _ _ _ => simp at hstatus
  | convert _ _ _ _ _ _ _ => simp at hstatus

theorem Windows.change (hwindows : Windows w.db) (h : Change O log w j db') : Windows db' := by
  intro row' hrow' hstatus
  obtain ⟨row, hrow, hmove⟩ | ⟨_, _, block, current, _, hblock, rfl⟩ :=
    h.proposalsChange.backward hrow'
  · exact hmove.window (hwindows row hrow) hstatus
  · cases block with
    | none => simp [CommunityProposal.new] at hstatus
    | some block => exact ⟨rfl, current, rfl, rfl⟩

theorem switches_of_settings {db : Database} (h : db.settings = w.db.settings) :
    Switches j w.db db := by
  have htopics : db.topicsModerated = w.db.topicsModerated := by
    unfold Database.topicsModerated
    rw [h]
  have hproposals : db.proposalsModerated = w.db.proposalsModerated := by
    unfold Database.proposalsModerated
    rw [h]
  exact ⟨.inl htopics, .inl hproposals⟩

/-- The switches of the settings that are there, or of the defaults. -/
theorem moderated_getD (db : Database) :
    db.topicsModerated = (db.settings.getD .default).forumTopicModerationEnabled ∧
      db.proposalsModerated = (db.settings.getD .default).proposalModerationEnabled := by
  unfold Database.topicsModerated Database.proposalsModerated
  cases db.settings <;> exact ⟨rfl, rfl⟩

theorem Change.switches (h : Change O log w j db') : Switches j w.db db' := by
  cases h with
  | settings f _ _ hf =>
    obtain ⟨htopics, hproposals⟩ := moderated_getD w.db
    have hstep := hf (w.db.settings.getD .default)
    exact ⟨htopics ▸ hstep.topics, hproposals ▸ hstep.proposals⟩
  | reply _ _ _ _ _ _ _ _ _ htx =>
    obtain ⟨-, -, -, rfl⟩ := replyTx_ok htx
    exact switches_of_settings rfl
  | propose _ _ _ _ _ _ _ htx =>
    obtain ⟨-, rfl⟩ := proposeTx_ok htx
    exact switches_of_settings rfl
  | createExpense _ _ _ _ htx =>
    obtain ⟨-, -, rfl⟩ := createExpenseTx_ok htx
    exact switches_of_settings rfl
  | projectGoalCreated _ _ _ htx =>
    obtain ⟨goals, nextId, -, rfl⟩ := goalCreatedTx_ok htx
    exact switches_of_settings rfl
  | _ => exact switches_of_settings rfl

theorem Switches.topicsStay (h : Switches j w.db db') (hstay : TopicsStay j w.clock w.db db')
    (hon : w.db.topicsModerated = true) : db'.topicsModerated = true := by
  obtain hsame | ⟨n, actor, hjob⟩ := h.topics
  · exact hsame.trans hon
  · cases hoff : db'.topicsModerated with
    | true => rfl
    | false =>
      rw [hoff] at hjob
      exact absurd (congrArg Job.topicSwitch hjob) hstay

theorem Switches.proposalsStay (h : Switches j w.db db')
    (hstay : ProposalsStay j w.clock w.db db') (hon : w.db.proposalsModerated = true) :
    db'.proposalsModerated = true := by
  obtain hsame | ⟨n, actor, hjob⟩ := h.proposals
  · exact hsame.trans hon
  · cases hoff : db'.proposalsModerated with
    | true => rfl
    | false =>
      rw [hoff] at hjob
      exact absurd (congrArg Job.proposalSwitch hjob) hstay

end

/-! ### What the switches store -/

/-- The transactions of a job: what they change is stored as it was given. -/
def StoresOrKeeps (j : Job) (w w' : World) : Prop := w'.db = w.db ∨ Stores j w'.db

section

variable {O : Outside}

/-- A transaction of the settings. -/
theorem within_settings {j : Job} {f : CommunitySettings → CommunitySettings}
    {event : Database → AuditEvent}
    (hf : ∀ db : Database, Stores j (db.upsertSettings f (event db))) (n : ℕ) :
    Routine.Within (StoresOrKeeps j) (transactionally n do
      lock n .project .exclusive
      commit n [] fun _ db => .ok (db.upsertSettings f (event db), ()) : Worker Unit) := by
  refine Routine.within_tryCatch (Routine.within_bind
    (Routine.within_await fun w b w' h => ?_) fun _ => Routine.within_await fun w b w' h => ?_)
    fun _ => Routine.within_bind (Routine.within_atomically fun w b w' h => ?_) fun _ =>
      Routine.within_throw _
  · split_ifs at h
    obtain ⟨-, rfl⟩ := Prod.mk.inj (Option.some.inj h)
    exact .inr (.inl rfl)
  · simp only [List.all_nil, if_true] at h
    obtain ⟨-, rfl⟩ := Prod.mk.inj (Option.some.inj h)
    exact .inr (.inr (hf w.db))
  · obtain ⟨-, rfl⟩ := Prod.mk.inj h
    exact .inr (.inl rfl)

/-- Of the other jobs nothing is said. -/
theorem within_others {j : Job} (htopics : j.topicSwitch = none)
    (hproposals : j.proposalSwitch = none) (p : Program World Reply Failure Unit) :
    p.Within (StoresOrKeeps j) :=
  Program.within_of_all (fun _ _ => .inr
    ⟨by rw [htopics]; rintro _ ⟨⟩, by rw [hproposals]; rintro _ ⟨⟩⟩) p

variable (O) in
/-- **Every job** stores what it was given. -/
theorem within_community : (community O).Within StoresOrKeeps := by
  intro j
  cases j with
  | forumSettings n enabled actor =>
    refine (within_settings (fun db => ⟨?_, by rintro _ ⟨⟩⟩) n).silently ()
    rintro _ ⟨⟩
    rfl
  | proposalSettings n enabled actor =>
    refine (within_settings (fun db => ⟨by rintro _ ⟨⟩, ?_⟩) n).silently ()
    rintro _ ⟨⟩
    rfl
  | _ => exact within_others rfl rfl _

theorem run_stores {clock : Time} {c : Config World Reply Failure Job ℕ}
    {ls : List (Label World Reply Failure Job)}
    (hrun : (community O).Run (Config.idle (World.start clock)) ls c) :
    ∀ l ∈ ls, OnWrite (fun j _ _ db' => Stores j db') l := by
  refine (within_community O).along (L := fun _ => True)
    (J := fun ls _ => ∀ l ∈ ls, OnWrite (fun j _ _ db' => Stores j db') l)
    (fun ls l w w' _ heffect hall => ?_) (Config.within_idle _) hrun (fun _ _ => trivial)
    (by rintro l ⟨⟩)
  refine List.forall_mem_append.2 ⟨hall, List.forall_mem_singleton.2 ?_⟩
  cases l with
  | act j began h e =>
    cases e with
    | asked _ _ _ => exact trivial
    | ran w₀ w₁ =>
      obtain ⟨rfl, rfl, hsame | hsame | hstores⟩ := heffect
      · exact fun hne => absurd (congrArg World.db hsame) hne
      · exact fun hne => absurd hsame hne
      · exact fun _ => hstores
  | env | start _ | stop _ | crash _ => exact trivial

/-- After a step that commits a job of the switches, the run goes on with what it stored. -/
theorem Commits.stored {P : Job → Prop} {clock : Time} {c : Config World Reply Failure Job ℕ}
    {ls₁ ls₂ : List (Label World Reply Failure Job)} {l : Label World Reply Failure Job}
    (hrun : (community O).Run (Config.idle (World.start clock)) (ls₁ ++ l :: ls₂) c)
    (hcommits : Commits P l) :
    ∃ c₁ ls j, (community O).Run (Config.idle (World.start clock)) ls c₁ ∧
      (community O).Run c₁ ls₂ c ∧ P j ∧ Stores j c₁.shared.db := by
  have hstores := run_stores hrun l (by simp)
  obtain ⟨c₀, hfirst, hlast⟩ := hrun.append
  obtain ⟨c₁, hstep, hrest⟩ := hlast.cons
  cases l with
  | act j began h e =>
    cases e with
    | asked _ _ _ => exact hcommits.elim
    | ran w w' =>
      obtain ⟨i, p, rest, -, -, -, -, -, -, hc₁⟩ := hstep.of_act
      have hshared : c₁.shared = w' := by rw [hc₁]; rfl
      exact ⟨c₁, _, j, hfirst.step hstep, hrest, hcommits.1, hshared ▸ hstores hcommits.2⟩
  | env | start _ | stop _ | crash _ => exact hcommits.elim

end

/-! ### A sample run -/

/-- A proposal is opened for votes, and a topic is written after the review of topics was switched
on. -/
def moderatedRun : List (Move World Reply Failure Job ℕ) :=
  openRun ++ [.start (.createCategory 0 ['a']), .act 0 4 sampleOracle, .stop 0,
    .start (.forumSettings 0 true sampleUser), .act 0 2 sampleOracle, .stop 0,
    .start (.createTopic 0 ⟨['t'], ['b'], ['a']⟩ sampleUser), .act 0 9 sampleOracle, .stop 0]

theorem allows_moderatedRun : ∀ m ∈ moderatedRun, (community sampleOutside).Allows m := by
  refine List.forall_mem_append.2 ⟨allows_openRun, ?_⟩
  simp only [List.forall_mem_cons]
  exact ⟨trivial, answers_sampleOracle, trivial, trivial, answers_sampleOracle, trivial, trivial,
    answers_sampleOracle, trivial, by simp⟩

theorem moderated_isSome :
    ((community sampleOutside).play moderatedRun (Config.idle (World.start 0))).isSome =
      true := by
  decide +kernel

/-- The end of the run. -/
def moderatedEnd : Config World Reply Failure Job ℕ :=
  ((community sampleOutside).play moderatedRun (Config.idle (World.start 0))).get moderated_isSome

/-- The steps of the run. -/
def moderatedLabels : List (Label World Reply Failure Job) :=
  (community sampleOutside).labels moderatedRun (Config.idle (World.start 0))

theorem moderatedLabels_length : 23 < moderatedLabels.length := by decide +kernel

/-! ### Runs -/

/-- What a write publishes waits for review. -/
def TopicsReviewed (_ : Job) (_ : Time) (db db' : Database) : Prop :=
  ∀ row' ∈ db'.topics, row'.status ≠ .draft → db.Entering row'.id → row'.status = .pendingReview

/-- Proposals that are new wait for review. -/
def ProposalsReviewed (_ : Job) (_ : Time) (db db' : Database) : Prop :=
  ∀ row' ∈ db'.proposals, (∀ row ∈ db.proposals, row.id ≠ row'.id) → row'.status = .pendingReview

section

variable {O : Outside} {c c' : Config World Reply Failure Job ℕ}
  {ls : List (Label World Reply Failure Job)}

theorem run_topicsReviewed (hsafe : (safety O).Safe c) (hrun : (community O).Run c ls c')
    (hon : c.shared.db.topicsModerated = true) (hstay : ∀ l ∈ ls, OnWrite TopicsStay l) :
    ∀ l ∈ ls, OnWrite TopicsReviewed l := by
  refine (run_writes (I := fun db _ => db.topicsModerated = true) (fun _ _ _ _ h => h)
    (fun j w db' _ hchange hstay hon => ⟨fun row' hrow' hout hentering => ?_,
      hchange.switches.topicsStay hstay hon⟩) hsafe hrun hstay hon).2
  have hpublished := hchange.publicationStep.topics row' hrow' hout hentering
  rw [hpublished.status, if_pos hon]

theorem run_proposalsReviewed (hsafe : (safety O).Safe c) (hrun : (community O).Run c ls c')
    (hon : c.shared.db.proposalsModerated = true) (hstay : ∀ l ∈ ls, OnWrite ProposalsStay l) :
    ∀ l ∈ ls, OnWrite ProposalsReviewed l := by
  refine (run_writes (I := fun db _ => db.proposalsModerated = true) (fun _ _ _ _ h => h)
    (fun j w db' _ hchange hstay hon => ⟨fun row' hrow' hnew => ?_,
      hchange.switches.proposalsStay hstay hon⟩) hsafe hrun hstay hon).2
  rw [(hchange.publicationStep.proposals row' hrow' hnew).status, if_pos hon]

end

/-- **The switches of moderation are linearizable with publication.**  In every run, what a write
publishes is decided by the switches and the categories that it finds, a switch is set by its jobs
only, which store what they were given, and proposals that are or were open for votes have a
snapshot and a window of seven days.  After a step that commits a switch to moderation, everything
that is published waits for review, as long as nobody switches it back. -/
theorem publication_is_moderated {O : Outside} {clock : Time}
    {c : Config World Reply Failure Job ℕ} {ls : List (Label World Reply Failure Job)}
    (hrun : (community O).Run (Config.idle (World.start clock)) ls c) :
    (∀ l ∈ ls, OnWrite (fun j _ db db' =>
      (PublicationStep db db' ∧ Switches j db db') ∧ Stores j db') l) ∧
      Windows c.shared.db ∧
      (∀ ls₁ l ls₂, ls = ls₁ ++ l :: ls₂ → Commits (·.topicSwitch = some true) l →
        (∀ l' ∈ ls₂, OnWrite TopicsStay l') → ∀ l' ∈ ls₂, OnWrite TopicsReviewed l') ∧
      ∀ ls₁ l ls₂, ls = ls₁ ++ l :: ls₂ → Commits (·.proposalSwitch = some true) l →
        (∀ l' ∈ ls₂, OnWrite ProposalsStay l') → ∀ l' ∈ ls₂, OnWrite ProposalsReviewed l' := by
  obtain ⟨hwindows, hsteps⟩ := run_writes (L := fun _ _ _ _ => True)
    (P := fun j _ db db' => PublicationStep db db' ∧ Switches j db db')
    (I := fun db _ => Windows db) (fun _ _ _ _ h => h)
    (fun j w db' _ hchange _ hwindows =>
      ⟨⟨hchange.publicationStep, hchange.switches⟩, hwindows.change hchange⟩)
    ((safety O).safe_idle (sound_start O clock)) hrun (fun l _ => onCommit_true l)
    (by rintro row ⟨⟩)
  refine ⟨fun l hl => OnCommit.and (hsteps l hl) (run_stores hrun l hl), hwindows, ?_, ?_⟩
  · rintro ls₁ l ls₂ rfl hcommits hstay
    obtain ⟨c₁, _, j, hfirst, hrest, hj, hstores⟩ := hcommits.stored hrun
    exact run_topicsReviewed (safe_of_run hfirst) hrest (hstores.topics true hj) hstay
  · rintro ls₁ l ls₂ rfl hcommits hstay
    obtain ⟨c₁, _, j, hfirst, hrest, hj, hstores⟩ := hcommits.stored hrun
    exact run_proposalsReviewed (safe_of_run hfirst) hrest (hstores.proposals true hj) hstay

theorem publication_is_moderated_sample : ∃ ls₁ l ls₂, moderatedLabels = ls₁ ++ l :: ls₂ ∧
    Commits (·.topicSwitch = some true) l ∧
      moderatedEnd.shared.db.proposals.map (·.votingEndsAt) = [some votingWindowMs] ∧
      moderatedEnd.shared.db.topics.map (·.status) = [.pendingReview] ∧
      Windows moderatedEnd.shared.db ∧ ∀ l' ∈ ls₂, OnWrite TopicsReviewed l' := by
  obtain ⟨-, hwindows, htopics, -⟩ := publication_is_moderated
    (Machine.run_labels allows_moderatedRun (Option.some_get moderated_isSome).symm)
  have hsplit : moderatedLabels =
      moderatedLabels.take 23 ++
        moderatedLabels.get ⟨23, moderatedLabels_length⟩ :: moderatedLabels.drop 24 := by
    rw [List.get_eq_getElem, List.getElem_cons_drop, List.take_append_drop]
  have hcommits : Commits (·.topicSwitch = some true)
      (moderatedLabels.get ⟨23, moderatedLabels_length⟩) := by decide +kernel
  exact ⟨_, _, _, hsplit, hcommits, by decide +kernel, by decide +kernel, hwindows,
    htopics _ _ _ hsplit hcommits (by decide +kernel)⟩

end Community

end PreCommunity
