import PreCommunity.Community.Discipline

/-!
# The jobs of the community

Every job keeps to the discipline, hence every reachable configuration is safe.

* `runs_vote`, `runs_createTopic` and so on : the jobs, one after another.
* `safety` : the protocol.
* `safe_of_run` : every reachable configuration is safe.
* `run_writes` : invariants, and what all writes of a run have in common.
-/

namespace PreCommunity

namespace Community

open Concurrent Store
open Escrow (Id Time Address Hash Text GoalFacts)

variable {O : Outside} {j : Job} {w : World} {db : Database} {K : World → Prop}

/-! ### Proposals -/

/-- A proposal is closed while it is locked, after its votes were counted. -/
theorem runs_closeTx (id : Id) : Runs O j (closeTx j.slot id) := by
  refine triple_transactionally ?_
  refine Routine.triple_bind (triple_lock .true _ _) fun _ => ?_
  refine Routine.triple_bind (R := fun found w => w.Holds j.slot (.proposal id) .exclusive ∧
    ∀ row, found = some row → w.db.proposal? id = some row)
    (triple_select (Stays.true.and (.holds _ _)) fun w _ hw => ⟨hw.2, fun _ h => h⟩) fun found => ?_
  refine Routine.triple_bind (triple_now (.proposal id found)) fun now => ?_
  split
  · exact triple_rollback
  next proposal =>
  split
  · exact triple_rollback
  next hopen =>
  have hread := (Stays.proposal (j := j) id (some proposal)).and (Stays.clock now)
  refine Routine.triple_bind (R := fun totals w => ((w.Holds j.slot (.proposal id) .exclusive ∧
      ∀ row, some proposal = some row → w.db.proposal? id = some row) ∧ now ≤ w.clock) ∧
      w.Holds j.slot (.proposal id) .exclusive ∧
        ∀ choice, totals.raw choice = w.db.weight id choice)
    (triple_select hread fun w _ hw => ⟨hw, hw.1.1, fun choice => ?_⟩) fun totals => ?_
  · obtain ⟨-, rfl⟩ := mem_of_proposal? (hw.1.2 proposal rfl)
    exact raw_aggregate _ _ _
  refine triple_commit_rows (hread.and (.weight id totals.raw)) fun w db _ hw hK hrows h => ?_
  obtain ⟨⟨⟨-, hfound⟩, hclock⟩, -, hweight⟩ := hK
  obtain rfl := (Prod.mk.inj (Except.ok.inj h)).1
  obtain ⟨hmem, rfl⟩ := mem_of_proposal? (hfound proposal rfl)
  simp only [not_or, ne_eq, Decidable.not_not] at hopen
  refine .proposals _ _ (fun row _ hp => ?_) fun row hrow hp => ?_
  · rw [of_decide_eq_true hp]
    exact hrows _ (.head _)
  · obtain rfl : row = proposal := hw.db.proposals.eq hrow hmem (of_decide_eq_true hp)
    rw [show totals.forRaw = w.db.weight row.id .inFavour from hweight .inFavour,
      show totals.againstRaw = w.db.weight row.id .against from hweight .against]
    refine .close now hopen.1 ?_
    cases hends : row.votingEndsAt with
    | none => simp [hends] at hopen
    | some ends =>
      have hle : ends ≤ now := by simpa [hends] using hopen.2
      simpa using hle.trans hclock

theorem runs_closeExpired (id : Option Id) : Runs O j (closeExpired j.slot id) := by
  refine Runs.now.bind fun now => (Runs.select _).bind fun expired => ?_
  induction expired with
  | nil => exact Runs.pure ()
  | cons candidate rest ih => exact (runs_closeTx candidate).bind fun _ => ih

/-- A vote is written while its proposal is locked, by a process that has read the clock under this
lock. -/
theorem runs_voteTx {n : ℕ} {proposalId : Id} {choice : ProposalVoteChoice} {actor : Principal}
    {block : Option ℕ} {weight : ℕ}
    (hanswered : O.Answered (O.addressOf actor.userId) block weight) :
    Runs O (.vote n proposalId choice actor) (voteTx n proposalId actor.userId block choice weight)
    := by
  refine triple_transactionally (j := .vote n proposalId choice actor) ?_
  refine Routine.triple_bind (triple_lock (j := .vote n proposalId choice actor) .true _ _)
    fun _ => ?_
  refine Routine.triple_bind (R := fun found w => w.Holds n (.proposal proposalId) .exclusive ∧
    ∀ row, found = some row → w.db.proposal? proposalId = some row)
    (triple_select (Stays.true.and (.holds _ _)) fun w _ hw => ⟨hw.2, fun _ h => h⟩) fun found => ?_
  split
  · exact Routine.triple_throw
  next current =>
  have hlocked := Stays.proposal (j := .vote n proposalId choice actor) proposalId (some current)
  intro v hv
  -- the clock is read under the lock
  refine (Routine.wp_bind _ _).2 (Routine.wp_read fun w₀ hrely _ => ⟨?_, trivial⟩)
  have hw₀ := hlocked _ _ hrely hv
  have hlog : .ran w₀ w₀ ∈ (v.ran w₀ w₀).hist := .head _
  refine Routine.wp_ite (fun _ => trivial) fun hopen => ?_
  simp only [not_or, Bool.not_eq_eq_eq_not, Bool.not_true, Bool.not_eq_false, ne_eq,
    Decidable.not_not, isVotingOpen, decide_eq_true_eq] at hopen
  obtain ⟨⟨hvoting, hblock, hends⟩, hsame⟩ := hopen
  refine Routine.wp_seq (Routine.wp_hist (triple_select (Q := fun _ w => w.Holds n
    (.proposal proposalId) .exclusive ∧ ∀ row, some current = some row →
      w.db.proposal? proposalId = some row) hlocked (fun _ _ hw => hw) (v.ran w₀ w₀) hw₀)) ?_
    fun _ _ _ => trivial
  rintro currentVote v₁ ⟨hv₁, hlog₁⟩
  refine Routine.wp_seq (Routine.wp_hist (triple_now hlocked v₁ hv₁)) ?_ fun _ _ _ => trivial
  rintro asked v₂ ⟨hv₂, hlog₂⟩
  refine Routine.wp_ite (fun _ => trivial) fun _ => ?_
  refine wp_commit hlocked hv₂.1 fun w db _ _ hw _ h => ?_
  obtain rfl := (Prod.mk.inj (Except.ok.inj h)).1
  obtain ⟨-, rfl⟩ := mem_of_proposal? (hw₀.2 current rfl)
  exact .vote block weight current hanswered hw.1 (hw.2 current rfl) hvoting hblock hsame
    ⟨w₀, hlog₂.mem (hlog₁.mem hlog), hw₀.1, hw₀.2 current rfl, hends⟩

theorem runs_vote {n : ℕ} {proposalId : Id} {choice : ProposalVoteChoice} {actor : Principal}
    (minimumRaw : ℕ) (hactor : actor.address = O.addressOf actor.userId) :
    Runs O (.vote n proposalId choice actor) (vote minimumRaw n proposalId choice actor) := by
  refine Runs.bind (runs_closeExpired (j := .vote n proposalId choice actor) _) fun _ =>
    (Runs.select _).bind fun found => ?_
  split
  · exact Runs.throw _
  refine Runs.now.bind fun current => ?_
  split
  · exact Runs.throw _
  refine Routine.triple_bind (triple_ask .true _) fun weight => ?_
  split
  · exact Routine.triple_throw
  refine Routine.triple_mono (Routine.triple_of_fact fun hanswered => runs_voteTx ?_)
    (fun _ h => h.2) fun _ _ h => h
  exact hactor ▸ hanswered

/-- An `updateMany` of proposals. -/
theorem runs_updateOne {id : Id} {p : CommunityProposal → Bool}
    {f : CommunityProposal → CommunityProposal} {text : String}
    (hf : ∀ w row, p row = true → row.id = id ∧ ProposalStep w j row (f row)) :
    Runs O j (commit j.slot [.proposal id] (updateOne p f text)) := by
  refine triple_commit_rows .true fun w db _ _ _ hrows h => ?_
  unfold updateOne at h
  split_ifs at h
  obtain rfl := (Prod.mk.inj (Except.ok.inj h)).1
  refine .proposals p f (fun row _ hp => ?_) fun row _ hp => (hf w row hp).2
  rw [(hf w row hp).1]
  exact hrows _ (.head _)

theorem runs_openVoting (confirmations : ℕ) (id : Id) (note : Option Text) (actor : Principal) :
    Runs O j (openVoting confirmations j.slot id note actor) := by
  refine (Runs.confirmedSnapshotBlock confirmations).bind fun block =>
    Runs.now.bind fun current => runs_updateOne fun w row hp => ⟨(of_decide_eq_true hp).1, ?_⟩
  exact .openVoting block current actor.address note (of_decide_eq_true hp).2

theorem runs_decline (id : Id) (note : Option Text) (actor : Principal) :
    Runs O j (decline j.slot id note actor) := by
  refine Runs.now.bind fun closedAt => runs_updateOne fun w row hp => ⟨(of_decide_eq_true hp).1, ?_⟩
  exact .decline closedAt actor.address note (of_decide_eq_true hp).2

theorem runs_remove (id : Id) (note : Option Text) (actor : Principal) :
    Runs O j (remove j.slot id note actor) := by
  refine Runs.now.bind fun removedAt =>
    runs_updateOne fun w row hp => ⟨(of_decide_eq_true hp).1, ?_⟩
  exact .remove removedAt actor.address note (of_decide_eq_true hp).2

theorem runs_update {n : ℕ} (minimumRaw : ℕ) (id : Id) (dto : UpdateProposal)
    (actor : Principal) :
    Runs O (.update n id dto actor) (update minimumRaw n id dto actor) := by
  refine (Runs.assertCurrent _ _ _).bind fun _ => (Runs.select _).bind fun found => ?_
  split
  · exact Runs.throw _
  split
  · exact Runs.throw _
  split
  · exact Runs.throw _
  refine triple_commit_rows (j := .update n id dto actor) .true fun w db _ _ _ hrows h => ?_
  obtain rfl := (Prod.mk.inj (Except.ok.inj h)).1
  refine .proposals _ _ (fun row _ hp => ?_) fun row _ hp => .text _ _ _ ⟨n, dto, actor, ?_⟩
  · rw [of_decide_eq_true hp]
    exact hrows _ (.head _)
  · rw [of_decide_eq_true hp]

/-- A proposal is written while the project is locked, after the switch was read. -/
theorem runs_createWith (dto : CreateProposal) (actor : Principal) (block : Option ℕ) :
    Runs O j (createWith j.slot dto actor block) := by
  refine triple_transactionally ?_
  refine Routine.triple_bind (triple_lock .true _ _) fun _ => ?_
  refine Routine.triple_bind (R := fun settings w => w.Holds j.slot .project .shared ∧
    w.db.settings = settings) (triple_select (Stays.true.and (.holds _ _))
      fun w _ hw => ⟨hw.2, rfl⟩) fun settings => ?_
  have hproject : Stays j fun w => w.Holds j.slot .project .shared ∧ w.db.settings = settings :=
    .project .shared fun s _ => s = settings
  simp only
  split
  · exact Routine.triple_bind (triple_rollback) fun _ => Routine.triple_pure fun _ h => h
  next hblock =>
  refine Routine.triple_bind (triple_now hproject) fun started => ?_
  refine Routine.triple_bind (triple_lock (hproject.and (.clock _)) _ _) fun _ => ?_
  refine Routine.triple_bind (R := fun _ w => w.Holds j.slot .project .shared ∧
    w.db.settings = settings) (Routine.triple_mono (triple_now ((hproject.and (.clock _)).and
      (.holds _ _))) (fun _ h => h) fun _ _ h => h.1.1.1) fun checked => ?_
  refine Routine.triple_bind (R := fun _ w => w.Holds j.slot .project .shared ∧
    w.db.settings = settings) (triple_select hproject fun _ _ hw => hw) fun recent => ?_
  split
  · exact Routine.triple_throw
  refine Routine.triple_bind (R := fun _ w => w.Holds j.slot .project .shared ∧
    w.db.settings = settings) (Routine.triple_mono (triple_now hproject) (fun _ h => h)
      fun _ _ h => h.1) fun createdAt => ?_
  refine Routine.triple_bind (triple_commit hproject fun w db row _ hw h => ?_) fun _ =>
    Routine.triple_pure fun _ h => h
  obtain ⟨-, rfl⟩ := hw
  refine .propose actor.userId dto _ started createdAt row ?_ h
  have hmoderated : w.db.proposalsModerated =
    (w.db.settings.map (·.proposalModerationEnabled)).getD true := rfl
  rw [← hmoderated] at hblock ⊢
  cases hswitch : w.db.proposalsModerated <;> simp_all

theorem runs_create (confirmations minimumRaw : ℕ) (dto : CreateProposal) (actor : Principal) :
    Runs O j (create confirmations minimumRaw j.slot dto actor) := by
  refine (Runs.assertCurrent _ _ _).bind fun _ => (runs_createWith dto actor none).bind fun _ => ?_
  split
  · exact Runs.pure _
  refine (Runs.confirmedSnapshotBlock confirmations).bind fun block =>
    (runs_createWith dto actor (some block)).bind fun _ => ?_
  split
  · exact Runs.pure _
  · exact Runs.throw _

/-- The settings change under the lock of the project. -/
theorem runs_settings (f : CommunitySettings → CommunitySettings) (event : Database → AuditEvent)
    (hf : ∀ settings, SettingsStep j settings (f settings)) :
    Runs O j (transactionally j.slot do
      lock j.slot .project .exclusive
      commit j.slot [] fun _ db => .ok (db.upsertSettings f (event db), ())) := by
  refine triple_transactionally (Routine.triple_bind (triple_lock .true _ _) fun _ => ?_)
  refine triple_commit (Stays.true.and (.holds _ _)) fun w db _ _ hw h => ?_
  obtain rfl := (Prod.mk.inj (Except.ok.inj h)).1
  exact .settings f _ hw.2 hf

/-! ### Topics -/

theorem mem_of_topic? {id : Id} {row : ForumTopic} (h : db.topic? id = some row) :
    row ∈ db.topics ∧ row.id = id :=
  ⟨List.mem_of_find?_eq_some h, by simpa using List.find?_some h⟩

/-- A category that is active stays so while the project is locked. -/
theorem triple_category {texts : Texts} {value : Text} (hK : Stays j K)
    (hproject : ∀ w, K w → w.Holds j.slot .project .shared) :
    Keeps O j K (category texts value true) fun row w => K w ∧
      w.Holds j.slot .project .shared ∧ w.db.isActiveCategory row.value = true := by
  unfold category
  split
  · exact Routine.triple_throw
  have hactive : ∀ row : Option ForumCategory, Stays j fun w => K w ∧
      w.Holds j.slot .project .shared ∧ ∀ x, row = some x → x ∈ w.db.categories := fun row =>
    hK.and (.project .shared fun _ categories => ∀ x, row = some x → x ∈ categories)
  refine Routine.triple_bind (R := fun row w => K w ∧ w.Holds j.slot .project .shared ∧
    ∀ x, row = some x → x ∈ w.db.categories) (triple_select hK fun w _ hw =>
      ⟨hw, hproject w hw, fun x hx => List.mem_of_find?_eq_some hx⟩) fun found => ?_
  split
  · exact Routine.triple_throw
  next row =>
  split
  · exact Routine.triple_throw
  next hnot =>
  refine Routine.triple_pure fun w hw => ⟨hw.1, hw.2.1, ?_⟩
  refine List.any_eq_true.2 ⟨row, hw.2.2 row rfl, ?_⟩
  cases harchived : row.archivedAt with
  | none => simp
  | some t => simp [harchived] at hnot

/-- The limit of topics, while the user is locked. -/
theorem triple_checkTopicLimit {userId : Id} (hK : Stays j K)
    (huser : ∀ w, K w → w.Holds j.slot (.user userId) .exclusive) :
    Keeps O j K (checkTopicLimit userId) fun _ w => K w ∧ ∃ checked, checked ≤ w.clock ∧
      w.Holds j.slot (.user userId) .exclusive ∧
      w.db.topicsSince userId (checked - 60 * 60 * 1000) < 3 := by
  unfold checkTopicLimit
  refine Routine.triple_bind (triple_now hK) fun checked => ?_
  refine Routine.triple_bind (R := fun recent w => (K w ∧ checked ≤ w.clock) ∧
    w.db.topicsSince userId (checked - 60 * 60 * 1000) = recent)
    (triple_select (hK.and (.clock _)) fun w _ hw => ⟨hw, rfl⟩) fun recent => ?_
  split
  · exact Routine.triple_throw
  next hlimit =>
  exact Routine.triple_pure fun w hw =>
    ⟨hw.1.1, checked, hw.1.2, huser w hw.1.1, hw.2 ▸ Nat.lt_of_not_le hlimit⟩

theorem stays_limit (userId : Id) : Stays j fun w => ∃ checked, checked ≤ w.clock ∧
    w.Holds j.slot (.user userId) .exclusive ∧
    w.db.topicsSince userId (checked - 60 * 60 * 1000) < 3 := fun w w' h hw => by
  obtain ⟨checked, hclock, hlimit⟩ := hw
  exact ⟨checked, hclock.trans h.clock, Stays.topicsSince userId _ 3 w w' h hlimit⟩

theorem runs_createDraft (texts : Texts) (dto : ForumDraft) (actor : Principal) :
    Runs O j (createDraft texts j.slot dto actor) := by
  refine triple_transactionally ?_
  refine Routine.triple_bind (triple_lock .true _ _) fun _ => ?_
  refine Routine.triple_bind (triple_lock (Stays.true.and (.holds _ _)) _ _) fun _ => ?_
  have hlocks : Stays j fun w => (True ∧ w.Holds j.slot .project .shared) ∧
      w.Holds j.slot (.user actor.userId) .exclusive :=
    (Stays.true.and (.holds _ _)).and (.holds _ _)
  refine Routine.triple_bind (R := fun _ w => w.Holds j.slot (.user actor.userId) .exclusive) ?_
    fun category => ?_
  · unfold draftCategory
    split
    · exact Routine.triple_mono (triple_category hlocks fun _ h => h.1.2) (fun _ h => h)
        fun _ _ h => h.1.2
    · unfold defaultCategory
      refine Routine.triple_bind (R := fun _ w => w.Holds j.slot (.user actor.userId) .exclusive)
        (triple_select hlocks fun _ _ hw => hw.2) fun found => ?_
      split
      · exact Routine.triple_throw
      · exact Routine.triple_pure fun _ h => h
  refine Routine.triple_bind (R := fun draftCount w =>
    w.Holds j.slot (.user actor.userId) .exclusive ∧ w.db.activeDrafts actor.userId = draftCount)
    (triple_select (.holds _ _) fun _ _ hw => ⟨hw, rfl⟩) fun draftCount => ?_
  split
  · exact Routine.triple_throw
  next hlimit =>
  have hdrafts := Stays.activeDrafts (j := j) actor.userId maxDrafts
  refine Routine.triple_bind (R := fun _ w => w.Holds j.slot (.user actor.userId) .exclusive ∧
    w.db.activeDrafts actor.userId < maxDrafts) (Routine.triple_mono (triple_now hdrafts)
      (fun w hw => ⟨hw.1, hw.2 ▸ Nat.lt_of_not_le hlimit⟩) fun _ _ h => h.1) fun createdAt => ?_
  refine triple_commit hdrafts fun w db row _ hw h => ?_
  obtain ⟨rfl, rfl⟩ := Prod.mk.inj (Except.ok.inj h)
  exact .draft actor.userId _ _ _ createdAt hw.1 hw.2

theorem runs_updateDraft (texts : Texts) (id : Id) (dto : ForumDraft) (actor : Principal) :
    Runs O j (updateDraft texts j.slot id dto actor) := by
  refine triple_transactionally ?_
  refine (Runs.lockIf _ _ _).bind fun _ => (Runs.lock _ _).bind fun _ => (Runs.select _).bind
    fun found => (Runs.attempt _).bind fun draft => (Runs.checkNewCategory _ _ _).bind fun _ =>
      Runs.commit fun w db _ _ h => ?_
  obtain rfl := (Prod.mk.inj (Except.ok.inj h)).1
  exact .topics _ _ fun row _ _ => ⟨rfl, rfl, rfl, rfl, .rfl, fun h => h, fun h => h⟩

theorem checkDraft_ok {draft : Option ForumTopic} {actor : Principal} {forbidden text : String}
    {row : ForumTopic} (h : checkDraft draft actor forbidden text = .ok row) :
    draft = some row ∧ row.authorId = actor.userId ∧ row.status = .draft := by
  unfold checkDraft at h
  split at h
  · cases h
  · split_ifs at h with hauthor hstatus
    obtain rfl := Except.ok.inj h
    simp only [not_or, ne_eq, Decidable.not_not] at hauthor hstatus
    exact ⟨rfl, hauthor, hstatus.1⟩

/-- A topic enters with what was read under the locks. -/
theorem enters_of {n : ℕ} {userId : Id} {category : Text} {settings : Option CommunitySettings}
    {createdAt : Time} (hactive : w.db.isActiveCategory category = true)
    (hsettings : w.db.settings = settings)
    (hlimit : ∃ checked, checked ≤ createdAt ∧ w.Holds n (.user userId) .exclusive ∧
      w.db.topicsSince userId (checked - 60 * 60 * 1000) < 3) :
    Enters w n userId category (publishedStatus settings) createdAt := by
  obtain ⟨checked, hle, hlock, hlt⟩ := hlimit
  exact ⟨hlock, hactive, by rw [hsettings], checked, hlt, hle⟩

/-- The limit holds at a time that is read later. -/
theorem triple_now_limit (hK : Stays j K) {userId : Id} :
    Keeps O j (fun w => K w ∧ ∃ checked, checked ≤ w.clock ∧
      w.Holds j.slot (.user userId) .exclusive ∧
      w.db.topicsSince userId (checked - 60 * 60 * 1000) < 3) now
      fun t w => K w ∧ ∃ checked, checked ≤ t ∧ w.Holds j.slot (.user userId) .exclusive ∧
        w.db.topicsSince userId (checked - 60 * 60 * 1000) < 3 :=
  Routine.triple_read (hK.and (stays_limit userId)) fun _ _ hw => hw

theorem stays_limit_at (userId : Id) (t : Time) : Stays j fun w => ∃ checked, checked ≤ t ∧
    w.Holds j.slot (.user userId) .exclusive ∧
    w.db.topicsSince userId (checked - 60 * 60 * 1000) < 3 := fun w w' h hw => by
  obtain ⟨checked, hle, hlimit⟩ := hw
  exact ⟨checked, hle, Stays.topicsSince userId _ 3 w w' h hlimit⟩

theorem runs_publishDraft (texts : Texts) (minimumRaw : ℕ) (id : Id) (dto : CreateForumTopic)
    (actor : Principal) : Runs O j (publishDraft texts minimumRaw j.slot id dto actor) := by
  refine (Runs.assertForumEligible _ _).bind fun _ => triple_transactionally ?_
  refine Routine.triple_bind (triple_lock .true _ _) fun _ => ?_
  refine Routine.triple_bind (triple_category (Stays.true.and (.holds _ _)) fun _ h => h.2)
    fun category => ?_
  have hcategory : Stays j fun w => w.Holds j.slot .project .shared ∧
      w.db.isActiveCategory category.value = true :=
    .project .shared fun _ categories => categories.any (fun row =>
      row.value = category.value ∧ row.archivedAt = none) = true
  refine Routine.triple_bind (Routine.triple_mono (triple_lock hcategory _ _)
    (fun _ h => h.2) fun _ _ h => h) fun _ => ?_
  -- the draft stays a draft while its author is locked
  refine Routine.triple_bind (R := fun found w => (w.Holds j.slot .project .shared ∧
      w.db.isActiveCategory category.value = true) ∧
      w.Holds j.slot (.user actor.userId) .exclusive ∧
      ∀ row, checkDraft found actor "Only the author can publish this draft"
        "Only an active draft can be published" = .ok row → w.db.IsDraft id actor.userId)
    (triple_select (hcategory.and (.holds _ _)) fun w _ hw => ⟨hw.1, hw.2, fun row hrow => ?_⟩)
    fun found => ?_
  · obtain ⟨hfound, hauthor, hdraft⟩ := checkDraft_ok hrow
    obtain ⟨hmem, hid⟩ := mem_of_topic? hfound
    exact ⟨row, hmem, hid, hauthor, hdraft⟩
  refine Routine.triple_bind (R := fun _ w => (w.Holds j.slot .project .shared ∧
      w.db.isActiveCategory category.value = true) ∧
      w.Holds j.slot (.user actor.userId) .exclusive ∧ w.db.IsDraft id actor.userId)
    (Routine.triple_mono (Routine.triple_attempt _) (fun _ h => h)
      fun row _ h => ⟨h.1.1, h.1.2.1, h.1.2.2 row h.2⟩) fun _ => ?_
  have hdraft := hcategory.and (Stays.isDraft (j := j) id actor.userId)
  refine Routine.triple_bind (triple_checkTopicLimit hdraft fun _ h => h.2.1) fun _ => ?_
  refine Routine.triple_bind (R := fun settings w => ((w.Holds j.slot .project .shared ∧
      w.db.settings = settings ∧ w.db.isActiveCategory category.value = true) ∧
      w.Holds j.slot (.user actor.userId) .exclusive ∧ w.db.IsDraft id actor.userId) ∧
      ∃ checked, checked ≤ w.clock ∧ w.Holds j.slot (.user actor.userId) .exclusive ∧
        w.db.topicsSince actor.userId (checked - 60 * 60 * 1000) < 3)
    (triple_select (hdraft.and (stays_limit _)) fun w _ hw =>
      ⟨⟨⟨hw.1.1.1, rfl, hw.1.1.2⟩, hw.1.2⟩, hw.2⟩) fun settings => ?_
  have hsettings : Stays j fun w => w.Holds j.slot .project .shared ∧ w.db.settings = settings ∧
      w.db.isActiveCategory category.value = true :=
    .project .shared fun s categories => s = settings ∧ categories.any (fun row =>
      row.value = category.value ∧ row.archivedAt = none) = true
  have hall := hsettings.and (Stays.isDraft (j := j) id actor.userId)
  refine Routine.triple_bind (triple_now_limit hall) fun publishedAt => ?_
  refine triple_commit (hall.and (stays_limit_at _ _)) fun w db _ hsound hw h => ?_
  obtain rfl := (Prod.mk.inj (Except.ok.inj h)).1
  obtain ⟨⟨⟨-, hset, hactive⟩, -, x, hx, hxid, hauthor, hstatus⟩, hlimit⟩ := hw
  refine .publish id dto actor.userId _ _ publishedAt (fun row hrow hid => ?_)
    (enters_of hactive hset hlimit)
  rw [hsound.db.topics.eq hrow hx (hid.trans hxid.symm)]
  exact ⟨hauthor, hstatus⟩

theorem runs_createTopic (texts : Texts) (minimumRaw : ℕ) (dto : CreateForumTopic)
    (actor : Principal) : Runs O j (createTopic texts minimumRaw j.slot dto actor) := by
  refine (Runs.assertForumEligible _ _).bind fun _ => triple_transactionally ?_
  refine Routine.triple_bind (triple_lock .true _ _) fun _ => ?_
  refine Routine.triple_bind (triple_category (Stays.true.and (.holds _ _)) fun _ h => h.2)
    fun category => ?_
  have hcategory : Stays j fun w => w.Holds j.slot .project .shared ∧
      w.db.isActiveCategory category.value = true :=
    .project .shared fun _ categories => categories.any (fun row =>
      row.value = category.value ∧ row.archivedAt = none) = true
  refine Routine.triple_bind (R := fun settings w => w.Holds j.slot .project .shared ∧
      w.db.settings = settings ∧ w.db.isActiveCategory category.value = true)
    (Routine.triple_mono (triple_select hcategory fun w _ hw => ⟨hw.1, rfl, hw.2⟩)
      (fun _ h => h.2) fun _ _ h => h) fun settings => ?_
  have hsettings : Stays j fun w => w.Holds j.slot .project .shared ∧ w.db.settings = settings ∧
      w.db.isActiveCategory category.value = true :=
    .project .shared fun s categories => s = settings ∧ categories.any (fun row =>
      row.value = category.value ∧ row.archivedAt = none) = true
  refine Routine.triple_bind (triple_lock hsettings _ _) fun _ => ?_
  refine Routine.triple_bind (triple_checkTopicLimit (hsettings.and (.holds _ _)) fun _ h => h.2)
    fun _ => ?_
  refine Routine.triple_bind (triple_now_limit (hsettings.and (.holds _ _))) fun createdAt => ?_
  refine triple_commit ((hsettings.and (.holds _ _)).and (stays_limit_at _ _))
    fun w db row _ hw h => ?_
  obtain ⟨rfl, rfl⟩ := Prod.mk.inj (Except.ok.inj h)
  exact .topic actor.userId _ _ _ _ createdAt (enters_of hw.1.1.2.2 hw.1.1.2.1 hw.2)

theorem runs_updateTopic (texts : Texts) (minimumRaw : ℕ) (id : Id) (dto : UpdateForumTopic)
    (actor : Principal) : Runs O j (updateTopic texts minimumRaw j.slot id dto actor) := by
  refine (Runs.assertForumEligible _ _).bind fun _ => triple_transactionally ?_
  refine (Runs.lockIf _ _ _).bind fun _ => (Runs.select _).bind fun found => ?_
  split
  · exact Runs.throw _
  simp only
  split
  · exact Runs.throw _
  refine (Runs.checkNewCategory _ _ _).bind fun _ => Runs.now.bind fun editedAt =>
    Runs.commit fun w db _ _ h => ?_
  split_ifs at h
  obtain rfl := (Prod.mk.inj (Except.ok.inj h)).1
  exact .topics _ _ fun row _ _ => ⟨rfl, rfl, rfl, rfl, .rfl, fun h => h, fun h => h⟩

theorem runs_deleteTopic (id : Id) (actor : Principal) :
    Runs O j (deleteTopic j.slot id actor) := by
  refine triple_transactionally ?_
  refine (Runs.lock _ _).bind fun _ => (Runs.select _).bind fun found => ?_
  split
  · exact Runs.throw _
  split
  · exact Runs.throw _
  split
  · exact triple_rollback
  refine Runs.now.bind fun deletedAt => Runs.commit fun w db _ _ h => ?_
  obtain rfl := (Prod.mk.inj (Except.ok.inj h)).1
  exact .topics _ _ fun row _ _ => ⟨rfl, rfl, rfl, rfl, .rfl, by rintro ⟨⟩, fun h => h⟩

/-- A moderator changes topics that have left the drafts. -/
theorem topicEdit_moderate (topic row : ForumTopic) {action : ModerationAction}
    {note : Option Text} {actor : Address} {now : Time} {change : ForumTopic → ForumTopic}
    (h : topic.moderate action note actor now = some change) :
    topic.status ≠ .draft ∧ (row.status ≠ .draft → TopicEdit row (change row)) := by
  unfold ForumTopic.moderate at h
  simp only at h
  split_ifs at h
  split at h
  case h_5 => cases h
  case h_7 => cases h
  all_goals
    obtain rfl := Option.some.inj h
    refine ⟨fun hdraft => by simp_all, fun hout =>
      ⟨rfl, rfl, rfl, rfl, by simp [hout], fun h => h, fun h => ?_⟩⟩
    first
    | exact h
    | cases h

theorem runs_moderateTopic (id : Id) (action : ModerationAction) (note : Option Text)
    (actor : Principal) : Runs O j (moderateTopic j.slot id action note actor) := by
  refine triple_transactionally ?_
  refine (Runs.lock _ _).bind fun _ => ?_
  refine Routine.triple_bind (R := fun found w => ∀ row, found = some row →
      row.status ≠ .draft → w.db.HasLeft id) (triple_select .true fun w _ _ row hrow hout => ?_)
    fun found => ?_
  · obtain ⟨hmem, hid⟩ := mem_of_topic? hrow
    exact ⟨row, hmem, hid, hout⟩
  split
  · exact Routine.triple_throw
  next topic =>
  have hstays : Stays j fun w => ∀ row, some topic = some row → row.status ≠ .draft →
      w.db.HasLeft id := fun w w' h hw row hrow hout => h.hasLeft id (hw row hrow hout)
  refine Routine.triple_bind (R := fun _ w => ∀ row, some topic = some row →
      row.status ≠ .draft → w.db.HasLeft id)
    (Routine.triple_mono (triple_now hstays) (fun _ h => h) fun _ _ h => h.1) fun current => ?_
  split
  · exact Routine.triple_throw
  next change hchange =>
  refine triple_commit hstays fun w db _ hsound hw h => ?_
  obtain rfl := (Prod.mk.inj (Except.ok.inj h)).1
  obtain ⟨x, hx, hxid, hout⟩ :=
    hw topic rfl (topicEdit_moderate topic topic hchange).1
  refine .topics _ _ fun row hrow hp => (topicEdit_moderate topic row hchange).2 ?_
  rwa [hsound.db.topics.eq hrow hx ((of_decide_eq_true hp).trans hxid.symm)]

/-! ### Replies -/

/-- A reply is written while its author is locked. -/
theorem runs_reply (minimumRaw : ℕ) (topicId : Id) (dto : ForumReplyRequest)
    (actor : Principal) : Runs O j (reply minimumRaw j.slot topicId dto actor) := by
  refine (Runs.assertForumEligible _ _).bind fun _ => ?_
  refine Routine.triple_bind (R := fun found w => ∀ row, found = some row →
      topicId < w.db.nextId) (triple_select .true fun w hw _ row hrow => ?_) fun found => ?_
  · obtain ⟨hmem, rfl⟩ := mem_of_topic? hrow
    exact hw.db.topicsBelow row hmem
  split
  · exact Routine.triple_throw
  next topic =>
  split
  · exact Routine.triple_throw
  refine Routine.triple_bind (R := fun _ w => topicId < w.db.nextId)
    (Routine.triple_mono (triple_now (.below topicId)) (fun _ h => h topic rfl)
      fun _ _ h => h.1) fun activityAt => ?_
  have hbelow : Stays j fun w => topicId < w.db.nextId := .below topicId
  refine triple_transactionally ?_
  refine Routine.triple_bind (triple_lock hbelow _ _) fun _ => ?_
  refine Routine.triple_bind (triple_now (hbelow.and (.holds _ _))) fun checked => ?_
  refine Routine.triple_bind (R := fun recent w => (topicId < w.db.nextId ∧ checked ≤ w.clock) ∧
      w.Holds j.slot (.user actor.userId) .exclusive ∧
      w.db.repliesSince actor.userId (checked - 60000) = recent)
    (triple_select ((hbelow.and (.holds _ _)).and (.clock _)) fun w _ hw =>
      ⟨⟨hw.1.1, hw.2⟩, hw.1.2, rfl⟩) fun recent => ?_
  split
  · exact Routine.triple_throw
  next hlimit =>
  have hall : Stays j fun w => (topicId < w.db.nextId ∧ checked ≤ w.clock) ∧
      w.Holds j.slot (.user actor.userId) .exclusive ∧
      w.db.repliesSince actor.userId (checked - 60000) < 10 :=
    (hbelow.and (.clock _)).and (.repliesSince _ _ _)
  refine Routine.triple_bind (Routine.triple_mono (triple_lock hall _ _)
    (fun w hw => ⟨hw.1, hw.2.1, hw.2.2 ▸ Nat.lt_of_not_le hlimit⟩) fun _ _ h => h.1) fun _ => ?_
  refine Routine.triple_bind (R := fun _ w => (topicId < w.db.nextId ∧ checked ≤ w.clock) ∧
      w.Holds j.slot (.user actor.userId) .exclusive ∧
      w.db.repliesSince actor.userId (checked - 60000) < 10)
    (triple_select hall fun _ _ hw => hw) fun stillOpen => ?_
  split
  · exact Routine.triple_throw
  refine Routine.triple_bind (R := fun _ w => (topicId < w.db.nextId ∧ checked ≤ w.clock) ∧
      w.Holds j.slot (.user actor.userId) .exclusive ∧
      w.db.repliesSince actor.userId (checked - 60000) < 10)
    (triple_select hall fun _ _ hw => hw) fun parentReply => ?_
  split
  · exact Routine.triple_throw
  refine Routine.triple_bind (R := fun createdAt w => checked ≤ createdAt ∧
      (topicId < w.db.nextId ∧ checked ≤ w.clock) ∧
      w.Holds j.slot (.user actor.userId) .exclusive ∧
      w.db.repliesSince actor.userId (checked - 60000) < 10)
    (Routine.triple_read hall fun _ _ hw => ⟨hw.1.2, hw⟩) fun createdAt => ?_
  refine triple_commit ((Stays.const _).and hall) fun w db row _ hw h => ?_
  exact .reply topicId actor.userId dto activityAt createdAt row hw.2.2.1 hw.2.1.1
    ⟨checked, hw.2.2.2, hw.1⟩ h

/-- Updates of replies. -/
theorem change_replies {p : ForumReply → Bool} {f : ForumReply → ForumReply}
    (hf : ∀ row, ReplyEdit row (f row)) : Change O log w j (w.db.updateReplies p f) :=
  .replies p f fun row _ _ => hf row

theorem runs_editReply (minimumRaw : ℕ) (id : Id) (dto : ForumReplyRequest) (actor : Principal) :
    Runs O j (editReply minimumRaw j.slot id dto actor) := by
  refine (Runs.assertForumEligible _ _).bind fun _ => (Runs.select _).bind ?_
  rintro ⟨found, topics⟩
  simp only
  split
  · exact Runs.throw _
  split
  · exact Runs.throw _
  refine Runs.now.bind fun editedAt => Runs.commit fun w db _ _ h => ?_
  split_ifs at h
  obtain rfl := (Prod.mk.inj (Except.ok.inj h)).1
  exact change_replies fun _ => ⟨rfl, rfl, rfl⟩

theorem runs_deleteReply (id : Id) (actor : Principal) :
    Runs O j (deleteReply j.slot id actor) := by
  refine (Runs.select _).bind fun found => ?_
  split
  · exact Runs.throw _
  split
  · exact Runs.throw _
  split
  · exact Runs.pure _
  refine Runs.now.bind fun deletedAt => Runs.commit fun w db _ _ h => ?_
  obtain rfl := (Prod.mk.inj (Except.ok.inj h)).1
  exact change_replies fun _ => ⟨rfl, rfl, rfl⟩

theorem runs_removeReply (id : Id) : Runs O j (removeReply j.slot id) := by
  refine (Runs.select _).bind fun found => ?_
  split
  · exact Runs.throw _
  refine Runs.now.bind fun removedAt => Runs.commit fun w db _ _ h => ?_
  obtain rfl := (Prod.mk.inj (Except.ok.inj h)).1
  exact change_replies fun _ => ⟨rfl, rfl, rfl⟩

/-! ### Categories -/

/-- A category that is new and active. -/
theorem runs_createCategory (texts : Texts) (rawLabel : Text) :
    Runs O j (createCategory texts j.slot rawLabel) := by
  unfold createCategory
  simp only
  split
  · exact Runs.throw _
  refine triple_transactionally ?_
  refine Routine.triple_bind (Routine.triple_mono (triple_lock .true _ _) (fun _ h => h)
    fun _ _ h => h.2) fun _ => ?_
  refine Routine.triple_bind (R := fun duplicate w => w.Holds j.slot .project .exclusive ∧
      w.db.categories.any (fun row => row.value = texts.categoryValueFromLabel
        (texts.normalizeCategoryLabel rawLabel) ∨
          texts.sameLabel row.label (texts.normalizeCategoryLabel rawLabel)) = duplicate)
    (triple_select (.holds _ _) fun _ _ hw => ⟨hw, rfl⟩) fun duplicate => ?_
  split
  · exact Routine.triple_throw
  next hnew =>
  have hstays : Stays j fun w => w.Holds j.slot .project .exclusive ∧
      w.db.categories.any (fun row => row.value = texts.categoryValueFromLabel
        (texts.normalizeCategoryLabel rawLabel) ∨
          texts.sameLabel row.label (texts.normalizeCategoryLabel rawLabel)) = duplicate :=
    .project .exclusive fun _ categories => categories.any (fun row =>
      row.value = texts.categoryValueFromLabel (texts.normalizeCategoryLabel rawLabel) ∨
        texts.sameLabel row.label (texts.normalizeCategoryLabel rawLabel)) = duplicate
  refine Routine.triple_bind (triple_select hstays (Q := fun _ w =>
    w.Holds j.slot .project .exclusive ∧
      w.db.categories.any (fun row => row.value = texts.categoryValueFromLabel
        (texts.normalizeCategoryLabel rawLabel) ∨
          texts.sameLabel row.label (texts.normalizeCategoryLabel rawLabel)) = duplicate)
    fun _ _ hw => hw) fun last => ?_
  refine triple_commit hstays fun w db _ hsound hw h => ?_
  obtain rfl := (Prod.mk.inj (Except.ok.inj h)).1
  refine .categories _ hw.1 (hsound.db.categories.append_one fun row hrow heq => hnew ?_)
    fun hpos => ?_
  · rw [← hw.2]
    exact List.any_eq_true.2 ⟨row, hrow, decide_eq_true (.inl heq)⟩
  · rw [List.countP_append]
    exact hpos.trans_le (Nat.le_add_right _ _)

/-- The last active category is not archived. -/
theorem runs_updateCategory (texts : Texts) (value : Text) (dto : UpdateForumCategory) :
    Runs O j (updateCategory texts j.slot value dto) := by
  unfold updateCategory
  split
  · exact Runs.throw _
  refine triple_transactionally ?_
  refine Routine.triple_bind (Routine.triple_mono (triple_lock .true _ _) (fun _ h => h)
    fun _ _ h => h.2) fun _ => ?_
  have hlock : Stays j fun w => w.Holds j.slot .project .exclusive := .holds _ _
  refine Routine.triple_bind (R := fun _ w => w.Holds j.slot .project .exclusive) ?_
    fun current => ?_
  · unfold category
    split
    · exact Routine.triple_throw
    refine Routine.triple_bind (R := fun _ w => w.Holds j.slot .project .exclusive)
      (triple_select hlock fun _ _ hw => hw) fun found => ?_
    split
    · exact Routine.triple_throw
    split
    · exact Routine.triple_throw
    · exact Routine.triple_pure fun _ h => h
  simp only
  refine Routine.triple_bind (R := fun _ w => w.Holds j.slot .project .exclusive) ?_ fun _ => ?_
  · unfold checkLabel
    split
    · exact Routine.triple_pure fun _ h => h
    refine Routine.triple_bind (R := fun _ w => w.Holds j.slot .project .exclusive)
      (triple_select hlock fun _ _ hw => hw) fun duplicate => ?_
    split
    · exact Routine.triple_throw
    · exact Routine.triple_pure fun _ h => h
  generalize hchanged : dto.archived.any (· ≠ current.archivedAt.isSome) = archiveChanged
  -- the number of active categories can change only under the lock that is held
  have hcount : Stays j fun w => w.Holds j.slot .project .exclusive ∧
      ((archiveChanged && decide (dto.archived = some true)) = true →
        1 < w.db.activeCategories) :=
    .project .exclusive fun _ categories =>
      (archiveChanged && decide (dto.archived = some true)) = true →
        1 < categories.countP fun row => row.archivedAt = none
  refine Routine.triple_bind (R := fun _ w => w.Holds j.slot .project .exclusive ∧
      ((archiveChanged && decide (dto.archived = some true)) = true →
        1 < w.db.activeCategories)) ?_ fun _ => ?_
  · unfold checkArchive
    split
    next harchiving =>
      exact Routine.triple_pure fun w hw => ⟨hw, fun h => by simp [h] at harchiving⟩
    refine Routine.triple_bind (R := fun activeCount w => w.Holds j.slot .project .exclusive ∧
      w.db.activeCategories = activeCount) (triple_select hlock fun _ _ hw => ⟨hw, rfl⟩)
      fun activeCount => ?_
    split
    · exact Routine.triple_throw
    next hmany =>
      exact Routine.triple_pure fun w hw => ⟨hw.1, fun _ => hw.2 ▸ Nat.lt_of_not_le hmany⟩
  split
  · exact triple_rollback
  refine Routine.triple_bind (Routine.triple_mono (triple_now hcount) (fun _ h => h)
    fun _ _ h => h.1) fun archivedAt => ?_
  refine triple_commit hcount fun w db _ hsound hw h => ?_
  obtain rfl := (Prod.mk.inj (Except.ok.inj h)).1
  refine .categories _ hw.1 (hsound.db.categories.updateWhere fun _ => rfl) fun hpos => ?_
  by_cases harchiving : (archiveChanged && decide (dto.archived = some true)) = true
  · have hle := hsound.db.categories.countP_le_succ value (fun row : ForumCategory =>
      { row with
        label := (dto.label.map texts.normalizeCategoryLabel).getD current.label
        archivedAt := if archiveChanged then
            if dto.archived = some true then some archivedAt else none
          else row.archivedAt }) fun row => row.archivedAt = none
    have hmany : 1 < w.db.categories.countP fun row => row.archivedAt = none := hw.2 harchiving
    omega
  · refine hpos.trans_le (le_countP_updateWhere fun row _ _ hactive => ?_)
    cases archiveChanged with
    | false => simpa using hactive
    | true =>
      have hnot : dto.archived ≠ some true := by simpa using harchiving
      simp [hnot]

/-! ### Drafts of goals -/

theorem checkConvertible_ok {id : Id} (h : checkConvertible id db = .ok ()) : db.Decided id := by
  unfold checkConvertible at h
  split at h
  · cases h
  next proposal hfound =>
  split_ifs at h with hpassed
  obtain ⟨hmem, hid⟩ := mem_of_proposal? hfound
  exact ⟨proposal, hmem, hid, by simp [CommunityProposal.decided, not_not.1 hpassed]⟩

/-- The proposal of a new draft was passed when it was read, so its vote stays decided. -/
theorem runs_createExpense {n : ℕ} {dto : CreateExpense} {actor : Principal}
    {proposalId : Option Id} (checks : DraftChecks) :
    Runs O (.createExpense n dto actor proposalId)
      (createExpense checks n dto actor proposalId) := by
  refine (Runs.attempt _).bind fun _ => ?_
  split
  · exact Runs.throw _
  refine Runs.now.bind fun current => (Runs.attempt _).bind fun _ => (Runs.attempt _).bind
    fun _ => ?_
  have hstays : Stays (.createExpense n dto actor proposalId) fun w =>
      ∀ id, proposalId = some id → w.db.Decided id :=
    fun w w' h hw id hid => h.decided id (hw id hid)
  refine Routine.triple_bind (R := fun _ w => ∀ id, proposalId = some id → w.db.Decided id) ?_
    fun _ => ?_
  · unfold checkProposal
    split
    · exact Routine.triple_pure fun _ _ => by rintro id ⟨⟩
    next id =>
    have hchecked : ∀ r : Except Failure Unit, Stays (.createExpense n dto actor (some id))
        fun w => r = .ok () → w.db.Decided id := fun r w w' h hw hr => h.decided id (hw hr)
    refine Routine.triple_bind (R := fun checked w => checked = .ok () → w.db.Decided id)
      (triple_select .true fun w _ _ h => checkConvertible_ok h) fun checked => ?_
    refine Routine.triple_mono (Routine.triple_attempt checked) (fun _ h => h) fun _ _ h => ?_
    rintro _ ⟨⟩
    exact h.1 h.2
  refine Routine.triple_bind (Routine.triple_mono (triple_now hstays) (fun _ h => h)
    fun _ _ h => h.1) fun closedAt => ?_
  exact triple_commit_rows hstays fun w db row _ hw hrows h => .createExpense closedAt row hw
    (fun id hid => hrows (.proposal id) (by simp [hid])) h

theorem runs_updateExpense {n : ℕ} {id : Id} {dto : UpdateExpense} (checks : DraftChecks) :
    Runs O (.updateExpense n id dto) (updateExpense checks n id dto) := by
  refine (Runs.select _).bind fun found => ?_
  split
  · exact Runs.throw _
  split
  · exact Runs.throw _
  refine (Runs.attempt _).bind fun _ => Runs.now.bind fun current => (Runs.attempt _).bind
    fun _ => (Runs.attempt _).bind fun _ => Runs.commit fun w db _ _ h => ?_
  unfold updateExpenseTx at h
  split_ifs at h
  obtain rfl := (Prod.mk.inj (Except.ok.inj h)).1
  exact .updateExpense

/-- An update of one draft. -/
theorem updateOneExpense_ok {id : Id} {f : Expense → Expense} {t : Time} {db' : Database}
    (h : updateOneExpense id f t db = .ok (db', ())) :
    db' = db.updateExpenses (fun row => row.id = id) f := by
  unfold updateOneExpense at h
  split_ifs at h
  exact (Prod.mk.inj (Except.ok.inj h)).1.symm

theorem runs_archiveExpense {n : ℕ} {id : Id} :
    Runs O (.archiveExpense n id) (archiveExpense n id) := by
  refine Runs.now.bind fun archivedAt => Runs.commit fun w db _ _ h => ?_
  obtain rfl := updateOneExpense_ok h
  exact .archiveExpense archivedAt

theorem runs_publishExpense {n : ℕ} {id : Id} :
    Runs O (.publishExpense n id) (publishExpense O.checks n id) := by
  refine Routine.triple_bind (R := fun found _ => ∀ draft : Expense, found = some draft →
    draft.pendingChainGoalId.getD (O.checks.goalIdOf draft.id) = O.checks.goalIdOf id)
    (triple_select .true fun w hw _ draft hfound => ?_) fun found => ?_
  · have hid : draft.id = id := by simpa using List.find?_some hfound
    obtain hnone | hsome := hw.prepared draft (List.mem_of_find?_eq_some hfound)
    · rw [hnone, hid, Option.getD_none]
    · rw [hsome, hid, Option.getD_some]
  split
  · exact (Runs.throw _).of
  next draft =>
  split
  · exact (Runs.throw _).of
  refine Routine.triple_mono (K := fun _ => draft.pendingChainGoalId.getD
    (O.checks.goalIdOf draft.id) = O.checks.goalIdOf id) ?_ (fun _ h => h draft rfl)
      fun _ _ h => h
  refine Routine.triple_of_fact fun hgoal => ?_
  refine Runs.now.bind fun current => (Runs.attempt _).bind fun _ => (Runs.attempt _).bind
    fun _ => (Runs.attempt _).bind fun _ => ?_
  refine Runs.bind (Runs.commit fun w db _ _ h => ?_) fun _ => (Runs.attempt _).bind
    fun data => Runs.pure _
  rw [hgoal] at h
  obtain rfl := updateOneExpense_ok h
  exact .publishExpense

theorem runs_markExpenseSubmitted {n : ℕ} {id : Id} {txHash : Hash} :
    Runs O (.markExpenseSubmitted n id txHash) (markExpenseSubmitted n id txHash) := by
  refine (Runs.select _).bind fun found => ?_
  split
  · exact Runs.throw _
  split
  · exact Runs.pure _
  split
  · exact Runs.throw _
  refine Runs.commit fun w db _ _ h => ?_
  obtain rfl := updateOneExpense_ok h
  exact .markExpenseSubmitted

theorem runs_projectGoalCreated {n chainId : ℕ} {goalId : Hash} {facts : GoalFacts}
    {generated : Text} : Runs O (.projectGoalCreated n chainId goalId facts generated)
      (projectGoalCreated n chainId goalId facts generated) := by
  refine Routine.triple_bind (R := fun draft _ => ∀ row : Expense, draft = some row →
    O.checks.goalIdOf row.id = goalId) (triple_select .true fun w hw _ row hrow => ?_)
    fun draft => ?_
  · have hgoal : row.pendingChainGoalId = some goalId := by simpa using List.find?_some hrow
    obtain hnone | hsome := hw.prepared row (List.mem_of_find?_eq_some hrow)
    · rw [hnone] at hgoal
      cases hgoal
    · exact Option.some.inj (hsome.symm.trans hgoal)
  have hstays : Stays (.projectGoalCreated n chainId goalId facts generated) fun _ =>
    ∀ row : Expense, draft = some row → O.checks.goalIdOf row.id = goalId := .const _
  refine Routine.triple_bind (R := fun _ _ => ∀ row : Expense, draft = some row →
    O.checks.goalIdOf row.id = goalId) (triple_select hstays fun _ _ hw => hw) fun slug => ?_
  exact triple_commit hstays fun w db _ _ hw h => .projectGoalCreated draft slug hw h

/-! ### The protocol -/

theorem Runs.silently {p : Worker α} (hp : Runs O j p) (w : World) :
    (p.silently ()).wp (discipline O j) (fun _ _ _ => True) [] w :=
  Routine.Triple.silently hp trivial

/-- **Every job** keeps to its discipline. -/
theorem wp_code (hadmits : (community O).admits j w = true) :
    (j.code O).wp (discipline O j) (fun _ _ _ => True) [] w := by
  cases j with
  | closeExpired n id => exact (runs_closeExpired (j := .closeExpired n id) id).silently w
  | vote n proposalId choice actor =>
    exact (runs_vote _ (of_decide_eq_true hadmits)).silently w
  | openVoting n id note actor =>
    exact (runs_openVoting (j := .openVoting n id note actor) _ id note actor).silently w
  | decline n id note actor =>
    exact (runs_decline (j := .decline n id note actor) id note actor).silently w
  | remove n id note actor =>
    exact (runs_remove (j := .remove n id note actor) id note actor).silently w
  | create n dto actor =>
    exact (runs_create (j := .create n dto actor) _ _ dto actor).silently w
  | update n id dto actor =>
    exact (runs_update _ id dto actor).silently w
  | proposalSettings n enabled actor =>
    refine (runs_settings (j := .proposalSettings n enabled actor) _ _ ?_).silently w
    exact fun _ => ⟨.inl rfl, .inr ⟨n, actor, rfl⟩⟩
  | createExpense n dto actor proposalId => exact (runs_createExpense _).silently w
  | updateExpense n id dto => exact (runs_updateExpense _).silently w
  | archiveExpense n id => exact runs_archiveExpense.silently w
  | publishExpense n id => exact runs_publishExpense.silently w
  | markExpenseSubmitted n id txHash => exact runs_markExpenseSubmitted.silently w
  | projectGoalCreated n chainId goalId facts generated =>
    exact runs_projectGoalCreated.silently w
  | createDraft n dto actor =>
    exact (runs_createDraft (j := .createDraft n dto actor) _ dto actor).silently w
  | updateDraft n id dto actor =>
    exact (runs_updateDraft (j := .updateDraft n id dto actor) _ id dto actor).silently w
  | publishDraft n id dto actor =>
    exact (runs_publishDraft (j := .publishDraft n id dto actor) _ _ id dto actor).silently w
  | createTopic n dto actor =>
    exact (runs_createTopic (j := .createTopic n dto actor) _ _ dto actor).silently w
  | updateTopic n id dto actor =>
    exact (runs_updateTopic (j := .updateTopic n id dto actor) _ _ id dto actor).silently w
  | deleteTopic n id actor =>
    exact (runs_deleteTopic (j := .deleteTopic n id actor) id actor).silently w
  | moderateTopic n id action note actor =>
    exact Runs.silently
      (runs_moderateTopic (j := .moderateTopic n id action note actor) id action note actor) w
  | reply n topicId dto actor =>
    exact (runs_reply (j := .reply n topicId dto actor) _ topicId dto actor).silently w
  | editReply n id dto actor =>
    exact (runs_editReply (j := .editReply n id dto actor) _ id dto actor).silently w
  | deleteReply n id actor =>
    exact (runs_deleteReply (j := .deleteReply n id actor) id actor).silently w
  | removeReply n id => exact (runs_removeReply (j := .removeReply n id) id).silently w
  | createCategory n label =>
    exact (runs_createCategory (j := .createCategory n label) _ label).silently w
  | updateCategory n value dto =>
    exact (runs_updateCategory (j := .updateCategory n value dto) _ value dto).silently w
  | forumSettings n enabled actor =>
    refine (runs_settings (j := .forumSettings n enabled actor) _ _ ?_).silently w
    exact fun _ => ⟨.inr ⟨n, actor, rfl⟩, .inl rfl⟩
  | minimumPre n minimumRaw actor =>
    refine Runs.silently ?_ w
    unfold updateMinimumPre
    split
    · exact Runs.throw _
    · exact runs_settings (j := .minimumPre n minimumRaw actor) _ _ fun _ => ⟨.inl rfl, .inl rfl⟩

variable (O)

/-- The protocol of the community. -/
def safety : Protocol (community O) where
  inv := Sound O
  le _ _ := True
  rely j := (discipline O j).rely
  guar j := (discipline O j).guar
  asks j := (discipline O j).asks
  le_refl _ := trivial
  le_trans _ _ := trivial
  rely_refl j := (discipline O j).rely_refl
  rely_trans {j _ _ _} := (discipline O j).rely_trans
  guar_refl j := (discipline O j).guar_refl
  inv_guar _ hguar hinv := by
    obtain rfl | hdoes := hguar
    · exact hinv
    · exact hdoes.sound hinv
  inv_env h hinv := h.sound hinv
  inv_halt hinv := ⟨hinv.db, hinv.prepared, hinv.locks.release _⟩
  le_guar _ _ _ := trivial
  le_env _ := trivial
  le_halt _ _ := trivial
  rely_guar hslot _ hguar hinv := by
    obtain rfl | hdoes := hguar
    · exact Rely.refl _ _
    · exact hdoes.rely hinv hslot
  rely_env h := h.rely
  rely_halt hslot := rely_release hslot
  code_safe hadmits _ := wp_code hadmits

variable {O}

/-- Every reachable configuration is safe. -/
theorem safe_of_run {clock : Time} {c : Config World Reply Failure Job ℕ}
    {ls : List (Label World Reply Failure Job)}
    (hrun : (community O).Run (Config.idle (World.start clock)) ls c) : (safety O).Safe c :=
  ((safety O).safe_idle (sound_start O clock)).run hrun

/-! ### Runs by their writes -/

/-- What holds of a step that changes the tables: of its history, the world before, the job and the
tables after. -/
def OnCommit (P : Log → World → Job → Database → Prop) : Label World Reply Failure Job → Prop
  | .act j _ h (.ran w w') => w'.db ≠ w.db → P h w j w'.db
  | _ => True

instance (P : Log → World → Job → Database → Prop) [∀ h w j db', Decidable (P h w j db')] :
    DecidablePred (OnCommit P)
  | .act j _ h (.ran w w') => inferInstanceAs (Decidable (w'.db ≠ w.db → P h w j w'.db))
  | .act _ _ _ (.asked _ _ _) | .env | .start _ | .stop _ | .crash _ =>
      inferInstanceAs (Decidable True)

/-- What holds of a step that changes the tables, by the time and the tables alone. -/
abbrev OnWrite (P : Job → Time → Database → Database → Prop) :
    Label World Reply Failure Job → Prop :=
  OnCommit fun _ w j db' => P j w.clock w.db db'

theorem onCommit_true (l : Label World Reply Failure Job) :
    OnCommit (fun _ _ _ _ => True) l := by
  unfold OnCommit
  split
  · exact fun _ => trivial
  · trivial

theorem OnCommit.and {P P' : Log → World → Job → Database → Prop}
    {l : Label World Reply Failure Job} (h : OnCommit P l) (h' : OnCommit P' l) :
    OnCommit (fun log w j db' => P log w j db' ∧ P' log w j db') l := by
  cases l with
  | act j began log e =>
    cases e with
    | asked _ _ _ => exact trivial
    | ran w w' => exact fun hne => ⟨h hne, h' hne⟩
  | env | start _ | stop _ | crash _ => exact trivial

/-- **Runs.**  When every write that meets `L` keeps `I` and is a `P`, a run whose writes meet `L`
keeps `I`, and all its writes are `P`s. -/
theorem run_commits {L P : Log → World → Job → Database → Prop} {I : Database → Time → Prop}
    (hclock : ∀ db t t', t ≤ t' → I db t → I db t')
    (hwrite : ∀ log w j db', Sound O w → Change O log w j db' → L log w j db' → I w.db w.clock →
      P log w j db' ∧ I db' w.clock)
    {c c' : Config World Reply Failure Job ℕ} {ls : List (Label World Reply Failure Job)}
    (hc : (safety O).Safe c) (hrun : (community O).Run c ls c') (hok : ∀ l ∈ ls, OnCommit L l)
    (hI : I c.shared.db c.shared.clock) :
    I c'.shared.db c'.shared.clock ∧ ∀ l ∈ ls, OnCommit P l := by
  have hrecalls : Protocol.Recalls (fun _ _ => True) c := fun _ _ _ _ _ => trivial
  refine (hc.along (L := OnCommit L)
    (J := fun ls w => I w.db w.clock ∧ ∀ l ∈ ls, OnCommit P l)
    (fun _ => trivial) ?_ ?_ ?_ ?_ hrecalls ⟨hI, by rintro l ⟨⟩⟩ hrun hok).1
  · intro ls l w hquiet hw
    refine ⟨hw.1, fun l' hl' => ?_⟩
    obtain hl' | hl' := List.mem_append.1 hl'
    · exact hw.2 l' hl'
    · rw [List.mem_singleton.1 hl']
      cases l with
      | act j began h e =>
        cases e with
        | asked _ _ _ => exact trivial
        | ran _ _ => exact hquiet.elim
      | env | start _ | stop _ | crash _ => exact trivial
  · intro ls w w' _ henv hw
    refine ⟨⟨?_, fun l hl => ?_⟩, fun _ _ => trivial⟩
    · cases henv with
      | tick hle => exact hclock _ _ _ hle hw.1
    · obtain hl | hl := List.mem_append.1 hl
      · exact hw.2 l hl
      · rw [List.mem_singleton.1 hl]
        exact trivial
  · intro ls j w _ hw
    refine ⟨⟨hw.1, fun l hl => ?_⟩, fun _ _ => trivial⟩
    obtain hl | hl := List.mem_append.1 hl
    · exact hw.2 l hl
    · rw [List.mem_singleton.1 hl]
      exact trivial
  · intro ls j began h w w' hL hw _ _ hguar hI
    have hstep : OnCommit P (.act j began h (.ran w w')) ∧ I w'.db w'.clock := by
      obtain rfl | hdoes := hguar
      · exact ⟨fun hne => absurd rfl hne, hI.1⟩
      · cases hdoes with
        | lock r m _ => exact ⟨fun hne => absurd rfl hne, hI.1⟩
        | @commit db' hchange =>
          by_cases hdb : db' = w.db
          · subst hdb
            exact ⟨fun hne => absurd rfl hne, hI.1⟩
          · obtain ⟨hP, hI'⟩ := hwrite h w j db' hw hchange (hL hdb) hI.1
            exact ⟨fun _ => hP, hI'⟩
    refine ⟨⟨hstep.2, fun l hl => ?_⟩, fun _ _ => trivial⟩
    obtain hl | hl := List.mem_append.1 hl
    · exact hI.2 l hl
    · rw [List.mem_singleton.1 hl]
      exact hstep.1

/-- Runs whose writes are known by the time and the tables alone. -/
theorem run_writes {L P : Job → Time → Database → Database → Prop} {I : Database → Time → Prop}
    (hclock : ∀ db t t', t ≤ t' → I db t → I db t')
    (hwrite : ∀ {log : Log} j w db', Sound O w → Change O log w j db' →
      L j w.clock w.db db' → I w.db w.clock → P j w.clock w.db db' ∧ I db' w.clock)
    {c c' : Config World Reply Failure Job ℕ} {ls : List (Label World Reply Failure Job)}
    (hc : (safety O).Safe c) (hrun : (community O).Run c ls c') (hok : ∀ l ∈ ls, OnWrite L l)
    (hI : I c.shared.db c.shared.clock) :
    I c'.shared.db c'.shared.clock ∧ ∀ l ∈ ls, OnWrite P l :=
  run_commits hclock (fun _ w j db' hw hchange hL hI => hwrite j w db' hw hchange hL hI) hc hrun
    hok hI

end Community

end PreCommunity
