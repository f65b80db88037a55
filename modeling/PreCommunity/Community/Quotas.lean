import PreCommunity.Community.Publication

/-!
# Counters and quotas of the forum

The quotas are counts that are checked before an insert, under the lock of the user.

* `Database.topicsWithin`, `Database.repliesWithin` : what a user wrote within an interval.
* `Quotas` : the counters and the quotas; kept by every change.
* `quotas_hold` : every run.
-/

namespace PreCommunity

namespace Community

open Concurrent Store
open Escrow (Id Time Address Hash Text)

namespace Database

variable (db : Database)

/-- The number of topics of a user that left the drafts, or were created, within an interval. -/
def topicsWithin (userId : Id) (start length : Time) : ℕ :=
  db.topics.countP fun row => row.authorId = userId ∧ row.status ≠ .draft ∧
    start ≤ row.createdAt ∧ row.createdAt ≤ start + length

/-- The number of replies of a user within an interval. -/
def repliesWithin (userId : Id) (start length : Time) : ℕ :=
  db.replies.countP fun row => row.authorId = userId ∧ start ≤ row.createdAt ∧
    row.createdAt ≤ start + length

/-- The number of replies to a topic. -/
def repliesTo (topicId : Id) : ℕ := db.replies.countP fun row => row.topicId = topicId

end Database

/-- The counters and the quotas of the forum. -/
structure Quotas (db : Database) : Prop where
  replyCount : ∀ row ∈ db.topics, row.replyCount = db.repliesTo row.id
  drafts : ∀ userId, db.activeDrafts userId ≤ 20
  topics : ∀ userId start, db.topicsWithin userId start (60 * 60 * 1000) ≤ 3
  replies : ∀ userId start, db.repliesWithin userId start 60000 ≤ 10

section

variable {O : Outside} {w : World} {j : Job} {db' : Database} {log : Log}

/-! ### Replies -/

/-- What the counts look at in a reply. -/
def ForumReply.key (row : ForumReply) : Id × Id × Time :=
  (row.topicId, row.authorId, row.createdAt)

/-- The topic is an old one with the same count, or new. -/
def SameCount (w : World) (row' : ForumTopic) : Prop :=
  (∃ row ∈ w.db.topics, row.id = row'.id ∧ row.replyCount = row'.replyCount) ∨
    row'.id = w.db.nextId ∧ row'.replyCount = 0

theorem sameCount_of_mem {row' : ForumTopic} (h : row' ∈ w.db.topics) : SameCount w row' :=
  .inl ⟨row', h, rfl, rfl⟩

theorem sameCount_update {p : ForumTopic → Bool} {f : ForumTopic → ForumTopic}
    (hf : ∀ row ∈ w.db.topics, p row = true →
      (f row).id = row.id ∧ (f row).replyCount = row.replyCount) :
    ∀ row' ∈ updateWhere p f w.db.topics, SameCount w row' := fun row' hrow' => by
  obtain ⟨hrow, -⟩ | ⟨row, hrow, hp, rfl⟩ := mem_updateWhere_cases hrow'
  · exact sameCount_of_mem hrow
  · obtain ⟨hid, hcount⟩ := hf row hrow hp
    exact .inl ⟨row, hrow, hid.symm, hcount.symm⟩

theorem sameCount_append {row : ForumTopic} (hid : row.id = w.db.nextId)
    (hcount : row.replyCount = 0) : ∀ row' ∈ w.db.topics ++ [row], SameCount w row' :=
  fun row' hrow' => by
    obtain hrow' | hrow' := List.mem_append.1 hrow'
    · exact sameCount_of_mem hrow'
    · rw [List.mem_singleton.1 hrow']
      exact .inr ⟨hid, hcount⟩

/-- A reply is added, and counted. -/
structure Replied (w : World) (db' : Database) : Prop where
  reply : ∃ (reply : ForumReply) (activityAt checked : Time),
    db'.replies = w.db.replies ++ [reply] ∧
    db'.topics = updateWhere (fun row => row.id = reply.topicId) (fun row =>
      { row with replyCount := row.replyCount + 1, lastActivityAt := activityAt }) w.db.topics ∧
    w.db.repliesSince reply.authorId (checked - 60000) < 10 ∧ checked ≤ reply.createdAt

/-- A change leaves the replies and their numbers alone, or adds one. -/
theorem Change.counted (h : Change O log w j db') :
    (db'.replies.map ForumReply.key = w.db.replies.map ForumReply.key ∧
      ∀ row' ∈ db'.topics, SameCount w row') ∨ Replied w db' := by
  cases h with
  | draft _ _ _ _ _ _ _ => exact .inl ⟨rfl, sameCount_append rfl rfl⟩
  | topic _ _ _ _ _ _ _ => exact .inl ⟨rfl, sameCount_append rfl rfl⟩
  | publish _ _ _ _ _ _ _ _ => exact .inl ⟨rfl, sameCount_update fun _ _ _ => ⟨rfl, rfl⟩⟩
  | topics p f hf =>
    refine .inl ⟨rfl, sameCount_update fun row hrow hp => ?_⟩
    exact ⟨(hf row hrow hp).id, (hf row hrow hp).replyCount⟩
  | reply _ _ _ activityAt _ row _ _ hlimit htx =>
    obtain ⟨rfl, rfl, rfl, rfl⟩ := replyTx_ok htx
    obtain ⟨checked, hlimit, hle⟩ := hlimit
    exact .inr ⟨row, activityAt, checked, rfl, rfl, hlimit, hle⟩
  | replies p f hf =>
    refine .inl ⟨map_updateWhere fun row hrow hp => ?_, fun _ => sameCount_of_mem⟩
    have hedit := hf row hrow hp
    unfold ForumReply.key
    rw [hedit.topicId, hedit.authorId, hedit.createdAt]
  | propose _ _ _ _ _ _ _ htx =>
    obtain ⟨-, rfl⟩ := proposeTx_ok htx
    exact .inl ⟨rfl, fun _ => sameCount_of_mem⟩
  | createExpense _ _ _ _ htx =>
    obtain ⟨-, -, rfl⟩ := createExpenseTx_ok htx
    exact .inl ⟨rfl, fun _ => sameCount_of_mem⟩
  | projectGoalCreated _ _ _ htx =>
    obtain ⟨goals, nextId, -, rfl⟩ := goalCreatedTx_ok htx
    exact .inl ⟨rfl, fun _ => sameCount_of_mem⟩
  | _ => exact .inl ⟨rfl, fun _ => sameCount_of_mem⟩

/-- Counts of replies depend on their keys. -/
theorem countP_replies {p : ForumReply → Bool} {q : Id × Id × Time → Bool}
    (hp : ∀ row, p row = q row.key) (rows : List ForumReply) :
    rows.countP p = (rows.map ForumReply.key).countP q := by
  rw [List.countP_map]
  exact congrArg (fun p => rows.countP p) (funext hp)

theorem repliesTo_congr {db db' : Database}
    (h : db'.replies.map ForumReply.key = db.replies.map ForumReply.key) (id : Id) :
    db'.repliesTo id = db.repliesTo id := by
  have hcount : ∀ rows : List ForumReply, (rows.countP fun row => row.topicId = id) =
      (rows.map ForumReply.key).countP fun key => key.1 = id := countP_replies fun _ => rfl
  unfold Database.repliesTo
  rw [hcount, hcount, h]

theorem repliesWithin_congr {db db' : Database}
    (h : db'.replies.map ForumReply.key = db.replies.map ForumReply.key) (userId : Id)
    (start length : Time) :
    db'.repliesWithin userId start length = db.repliesWithin userId start length := by
  have hcount : ∀ rows : List ForumReply, (rows.countP fun row => row.authorId = userId ∧
      start ≤ row.createdAt ∧ row.createdAt ≤ start + length) =
        (rows.map ForumReply.key).countP fun key => key.2.1 = userId ∧ start ≤ key.2.2 ∧
          key.2.2 ≤ start + length := countP_replies fun _ => rfl
  unfold Database.repliesWithin
  rw [hcount, hcount, h]

/-- **The number of replies** of every topic is kept. -/
theorem Quotas.replyCount_change (hw : Sound O w) (hquotas : Quotas w.db)
    (h : Change O log w j db') :
    ∀ row' ∈ db'.topics, row'.replyCount = db'.repliesTo row'.id := by
  intro row' hrow'
  obtain ⟨hreplies, htopics⟩ | ⟨reply, activityAt, checked, hreplies, htopics, -, -⟩ := h.counted
  · rw [repliesTo_congr hreplies]
    obtain ⟨row, hrow, hid, hcount⟩ | ⟨hid, hcount⟩ := htopics row' hrow'
    · rw [← hcount, ← hid, hquotas.replyCount row hrow]
    · -- nobody has replied to a new topic
      have hnone : w.db.repliesTo row'.id = 0 := List.countP_eq_zero.2 fun reply hreply hto => by
        exact (hw.db.repliesBelow reply hreply).ne ((of_decide_eq_true hto).trans hid)
      rw [hcount, hnone]
  · have hto : db'.repliesTo row'.id =
        w.db.repliesTo row'.id + if reply.topicId = row'.id then 1 else 0 := by
      unfold Database.repliesTo
      rw [hreplies, List.countP_append, List.countP_singleton]
      exact congrArg _ (if_congr decide_eq_true_iff rfl rfl)
    rw [hto]
    obtain ⟨hrow, hp⟩ | ⟨row, hrow, hp, rfl⟩ := mem_updateWhere_cases (htopics ▸ hrow')
    · rw [if_neg fun hid => of_decide_eq_false hp hid.symm, hquotas.replyCount row' hrow,
        Nat.add_zero]
    · rw [if_pos (of_decide_eq_true hp).symm]
      exact congrArg (· + 1) (hquotas.replyCount row hrow)

/-- An interval that ends after the check begins after the window of the check. -/
theorem window_le {start length checked createdAt : Time} (hle : checked ≤ createdAt)
    (hend : createdAt ≤ start + length) : checked - length ≤ start :=
  Nat.sub_le_iff_le_add.2 (hle.trans hend)

theorem Quotas.replies_change (hquotas : Quotas w.db) (h : Change O log w j db') (userId : Id)
    (start : Time) : db'.repliesWithin userId start 60000 ≤ 10 := by
  obtain ⟨hreplies, -⟩ | ⟨reply, activityAt, checked, hreplies, -, hlimit, hle⟩ := h.counted
  · rw [repliesWithin_congr hreplies]
    exact hquotas.replies userId start
  · have hold := hquotas.replies userId start
    unfold Database.repliesWithin at hold ⊢
    rw [hreplies, List.countP_append, List.countP_singleton]
    split_ifs with hnew
    · obtain ⟨rfl, -, hend⟩ := of_decide_eq_true hnew
      -- the others of this interval were counted by the check
      have hcounted : (w.db.replies.countP fun row => row.authorId = reply.authorId ∧
          start ≤ row.createdAt ∧ row.createdAt ≤ start + 60000) ≤
            w.db.repliesSince reply.authorId (checked - 60000) :=
        List.countP_mono_left fun row _ hrow => by
          obtain ⟨hauthor, hstart, -⟩ := of_decide_eq_true hrow
          exact decide_eq_true ⟨hauthor, (window_le hle hend).trans hstart⟩
      omega
    · exact hold

/-! ### Topics -/

theorem TopicsChange.drafts {n : ℕ} (h : TopicsChange w n db'.topics) {userId : Id}
    (hlimit : w.db.activeDrafts userId ≤ 20) : db'.activeDrafts userId ≤ 20 := by
  unfold Database.activeDrafts at hlimit ⊢
  generalize db'.topics = topics at h
  cases h with
  | same => exact hlimit
  | draft row _ _ _ _ hroom =>
    rw [List.countP_append, List.countP_singleton]
    split_ifs with hnew
    · obtain ⟨rfl, -⟩ := of_decide_eq_true hnew
      exact Nat.succ_le_of_lt hroom
    · exact hlimit
  | topic row _ hout _ _ =>
    rw [List.countP_append, List.countP_singleton, if_neg]
    · exact hlimit
    · exact fun hnew => hout (of_decide_eq_true hnew).2.1
  | publish id _ f _ hf =>
    refine (countP_updateWhere_le fun row _ _ hq => ?_).trans hlimit
    exact absurd (of_decide_eq_true hq).2.1 (hf row).2.2.2.1
  | edit p f hf =>
    refine (countP_edit_le hf fun row row' hedit hq => ?_).trans hlimit
    obtain ⟨hauthor, hdraft, hdeleted, hremoved⟩ := of_decide_eq_true hq
    exact decide_eq_true ⟨hedit.authorId ▸ hauthor, hedit.draft.1 hdraft, hedit.deletedAt hdeleted,
      hedit.removedAt hremoved⟩
  | replied topicId activityAt =>
    refine (countP_updateWhere_le ?_).trans hlimit
    exact fun row _ _ hq => hq

/-- There is room for one more topic in every interval that the new one is in. -/
theorem Enters.room {n : ℕ} {userId : Id} {category : Text} {status : ForumTopicStatus}
    {createdAt start : Time} (h : Enters w n userId category status createdAt)
    (hend : createdAt ≤ start + 60 * 60 * 1000) :
    w.db.topicsWithin userId start (60 * 60 * 1000) ≤ 2 := by
  obtain ⟨checked, hlimit, hle⟩ := h.limit
  have hcounted : w.db.topicsWithin userId start (60 * 60 * 1000) ≤
      w.db.topicsSince userId (checked - 60 * 60 * 1000) :=
    List.countP_mono_left fun row _ hrow => by
      obtain ⟨hauthor, hout, hstart, -⟩ := of_decide_eq_true hrow
      exact decide_eq_true ⟨hauthor, hout, (window_le hle hend).trans hstart⟩
  omega

theorem TopicsChange.within {n : ℕ} (hw : Sound O w) (h : TopicsChange w n db'.topics)
    {userId : Id} {start : Time} (hlimit : w.db.topicsWithin userId start (60 * 60 * 1000) ≤ 3) :
    db'.topicsWithin userId start (60 * 60 * 1000) ≤ 3 := by
  have hroom : ∀ {category status createdAt}, Enters w n userId category status createdAt →
      createdAt ≤ start + 60 * 60 * 1000 →
        w.db.topicsWithin userId start (60 * 60 * 1000) ≤ 2 := fun h => h.room
  unfold Database.topicsWithin at hlimit hroom ⊢
  generalize db'.topics = topics at h
  cases h with
  | same => exact hlimit
  | draft row _ hdraft _ _ _ =>
    rw [List.countP_append, List.countP_singleton, if_neg]
    · exact hlimit
    · exact fun hnew => (of_decide_eq_true hnew).2.1 hdraft
  | topic row _ _ _ henters =>
    rw [List.countP_append, List.countP_singleton]
    split_ifs with hnew
    · obtain ⟨rfl, -, -, hend⟩ := of_decide_eq_true hnew
      exact Nat.succ_le_succ (hroom henters hend)
    · exact hlimit
  | publish id author f hdraft hf =>
    -- a draft that comes into the interval takes the room that there is
    by_cases hin : ∃ row ∈ w.db.topics, row.id = id ∧ (f row).authorId = userId ∧
        (f row).createdAt ≤ start + 60 * 60 * 1000
    · obtain ⟨row, hrow, hid, hauthor, hend⟩ := hin
      obtain ⟨-, hsame, -, -, henters⟩ := hf row
      have huser : author = userId := (hdraft row hrow hid).1.symm.trans (hsame.symm.trans hauthor)
      subst huser
      exact (hw.db.topics.countP_updateWhere_le_succ id f _).trans
        (Nat.succ_le_succ (hroom henters hend))
    · refine (countP_updateWhere_le fun row hrow hp hq => ?_).trans hlimit
      obtain ⟨hauthor, -, -, hend⟩ := of_decide_eq_true hq
      exact absurd ⟨row, hrow, of_decide_eq_true hp, hauthor, hend⟩ hin
  | edit p f hf =>
    refine (countP_edit_le hf fun row row' hedit hq => ?_).trans hlimit
    obtain ⟨hauthor, hout, hstart, hend⟩ := of_decide_eq_true hq
    exact decide_eq_true ⟨hedit.authorId ▸ hauthor, fun h => hout (hedit.draft.2 h),
      hedit.createdAt ▸ hstart, hedit.createdAt ▸ hend⟩
  | replied topicId activityAt =>
    refine (countP_updateWhere_le ?_).trans hlimit
    exact fun row _ _ hq => hq

/-- **Every change** keeps the counters and the quotas. -/
theorem Quotas.change (hw : Sound O w) (hquotas : Quotas w.db) (h : Change O log w j db') :
    Quotas db' where
  replyCount := hquotas.replyCount_change hw h
  drafts userId := h.topicsChange.drafts (hquotas.drafts userId)
  topics userId start := h.topicsChange.within hw (hquotas.topics userId start)
  replies := hquotas.replies_change h

/-! ### Categories -/

/-- A change leaves an active category, if there was one. -/
theorem Change.activeCategories (h : Change O log w j db') (hactive : 0 < w.db.activeCategories) :
    0 < db'.activeCategories := by
  have hsame : ∀ db : Database, db.categories = w.db.categories → 0 < db.activeCategories :=
    fun db hdb => by
      unfold Database.activeCategories at hactive ⊢
      rwa [hdb]
  cases h with
  | categories rows _ _ hrows => exact hrows hactive
  | reply _ _ _ _ _ _ _ _ _ htx =>
    obtain ⟨-, -, -, rfl⟩ := replyTx_ok htx
    exact hsame _ rfl
  | propose _ _ _ _ _ _ _ htx =>
    obtain ⟨-, rfl⟩ := proposeTx_ok htx
    exact hsame _ rfl
  | createExpense _ _ _ _ htx =>
    obtain ⟨-, -, rfl⟩ := createExpenseTx_ok htx
    exact hsame _ rfl
  | projectGoalCreated _ _ _ htx =>
    obtain ⟨goals, nextId, -, rfl⟩ := goalCreatedTx_ok htx
    exact hsame _ rfl
  | _ => exact hsame _ rfl

end

/-! ### Sample runs -/

/-- A topic is published in a new category and gets a reply, and a draft is written. -/
def forumRun : List (Move World Reply Failure Job ℕ) :=
  [.start (.createCategory 0 ['a']), .act 0 4 sampleOracle, .stop 0,
    .start (.createTopic 0 ⟨['t'], ['b'], ['a']⟩ sampleUser), .act 0 9 sampleOracle, .stop 0,
    .start (.reply 0 0 ⟨['r'], none⟩ sampleUser), .act 0 11 sampleOracle, .stop 0,
    .start (.createDraft 0 ⟨none, none, none⟩ sampleUser), .act 0 6 sampleOracle, .stop 0]

/-- The category is archived after another one was created. -/
def archivedRun : List (Move World Reply Failure Job ℕ) :=
  [.start (.createCategory 0 ['b']), .act 0 4 sampleOracle, .stop 0,
    .start (.updateCategory 0 ['a'] ⟨none, some true⟩), .act 0 5 sampleOracle, .stop 0]

theorem allows_forumRun : ∀ m ∈ forumRun, (community sampleOutside).Allows m := by
  simp only [forumRun, List.forall_mem_cons]
  exact ⟨trivial, answers_sampleOracle, trivial, trivial, answers_sampleOracle, trivial, trivial,
    answers_sampleOracle, trivial, trivial, answers_sampleOracle, trivial, by simp⟩

theorem allows_archivedRun : ∀ m ∈ archivedRun, (community sampleOutside).Allows m := by
  simp only [archivedRun, List.forall_mem_cons]
  exact ⟨trivial, answers_sampleOracle, trivial, trivial, answers_sampleOracle, trivial, by simp⟩

theorem forum_isSome :
    ((community sampleOutside).play forumRun (Config.idle (World.start 0))).isSome = true := by
  decide +kernel

/-- The end of the run. -/
def forumEnd : Config World Reply Failure Job ℕ :=
  ((community sampleOutside).play forumRun (Config.idle (World.start 0))).get forum_isSome

/-! ### Runs -/

/-- **Counters and quotas of the forum.**  In every run the number of replies of a topic is the
number of its rows, nobody has more than twenty active drafts, more than three topics out of draft
within an hour or more than ten replies within a minute, and a forum with an active category keeps
one in every continuation of the run. -/
theorem quotas_hold {O : Outside} {clock : Time} {c c' : Config World Reply Failure Job ℕ}
    {ls ls' : List (Label World Reply Failure Job)}
    (hrun : (community O).Run (Config.idle (World.start clock)) ls c)
    (hrun' : (community O).Run c ls' c') :
    Quotas c.shared.db ∧
      (0 < c.shared.db.activeCategories → 0 < c'.shared.db.activeCategories) := by
  have hsafe := safe_of_run hrun
  refine ⟨?_, fun hactive => ?_⟩
  · refine (run_writes (L := fun _ _ _ _ => True) (P := fun _ _ _ _ => True)
      (I := fun db _ => Quotas db) (fun _ _ _ _ h => h)
      (fun j w db' hw hchange _ hquotas => ⟨trivial, hquotas.change hw hchange⟩)
      ((safety O).safe_idle (sound_start O clock)) hrun (fun l _ => onCommit_true l) ?_).1
    exact ⟨by rintro row ⟨⟩, fun _ => Nat.zero_le _, fun _ _ => Nat.zero_le _,
      fun _ _ => Nat.zero_le _⟩
  · exact (run_writes (L := fun _ _ _ _ => True) (P := fun _ _ _ _ => True)
      (I := fun db _ => 0 < db.activeCategories)
      (fun _ _ _ _ h => h) (fun j w db' _ hchange _ h => ⟨trivial, hchange.activeCategories h⟩)
      hsafe hrun' (fun l _ => onCommit_true l) hactive).1

theorem quotas_hold_sample : ∃ c' : Config World Reply Failure Job ℕ,
    forumEnd.shared.db.topics.map (fun row => (row.status, row.replyCount)) =
        [(.published, 1), (.draft, 0)] ∧
      c'.shared.db.categories.map (·.archivedAt.isSome) = [true, false] ∧
      Quotas forumEnd.shared.db ∧ 0 < c'.shared.db.activeCategories := by
  have hplay : ((community sampleOutside).play archivedRun forumEnd).map
      (fun c => c.shared.db.categories.map (·.archivedAt.isSome)) = some [true, false] := by
    decide +kernel
  obtain ⟨c', hc', harchived⟩ := Option.map_eq_some_iff.1 hplay
  obtain ⟨hquotas, hactive⟩ := quotas_hold
    (Machine.run_labels allows_forumRun (Option.some_get forum_isSome).symm)
    (Machine.run_labels allows_archivedRun hc')
  exact ⟨c', by decide +kernel, harchived, hquotas, hactive (by decide +kernel)⟩

end Community

end PreCommunity
