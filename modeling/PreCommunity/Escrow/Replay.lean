import PreCommunity.Escrow.Conservation

/-!
# The tables are what the events say

The facts, the periods and the contributions of a goal are a function of the events that were
projected since the last reset, whatever requests, synchronisation and resets happen meanwhile.

* `replay` : the book of a goal after a list of events, a function of the events only.
* `Database.projectedBook` : the book of a goal in the tables.
* `Replayed` : the two agree for every goal.
* `loggedSince` : the events that were projected since the last reset.
* `books_replayed` : the agreement in every run.
-/

namespace PreCommunity

namespace Escrow

open Store Concurrent

/-! ### The abstract projection -/

/-- The event is one of the goal's book. -/
def EscrowEvent.concerns (goalId : Hash) (event : EscrowEvent) : Bool :=
  event.goalId? = some goalId ∧ event.isRelease = false

/-- The facts of a goal that the event creates. -/
def createdFacts (event : DecodedEscrowEvent) : Except Failure GoalFacts :=
  match event.event with
  | .goalCreated _ creator recipient _ preTarget usdcTarget deadline title description
      metadataURI => do
    let deadline ← date deadline
    let occurredAt ← date event.blockTimestamp
    return .created event creator recipient preTarget usdcTarget deadline occurredAt title
      description metadataURI
  | _ => .error .other

/-- A book of these facts, with the entries there are. -/
def Book.renew (b : Option Book) (facts : GoalFacts) : Book :=
  ⟨facts, (b.map (·.periods)).getD [], (b.map (·.contributions)).getD []⟩

/-- The book of a goal after one more event. -/
def replayStep (config : Deployment) (goalId : Hash) (b : Option Book)
    (event : DecodedEscrowEvent) : Option Book :=
  if event.event.concerns goalId then
    if event.event.isCreated then (createdFacts event).toOption.map (Book.renew b)
    else b.bind fun b => (b.apply config event).toOption
  else b

/-- **The book of a goal** after a list of events. -/
def replay (config : Deployment) (goalId : Hash) (events : List DecodedEscrowEvent) : Option Book :=
  events.foldl (replayStep config goalId) none

/-- The book of a goal that has been projected. -/
def Database.projectedBook (config : Deployment) (db : Database) (goalId : Hash) : Option Book :=
  (db.goal? config.chainId goalId).bind fun goal =>
    if goal.creationTxHash.isSome then some (db.book goal) else none

/-- **The tables agree with the events**, and nothing is stored for a goal without a projection. -/
structure Replayed (config : Deployment) (events : List DecodedEscrowEvent) (db : Database) :
    Prop where
  books : ∀ goalId, db.projectedBook config goalId = replay config goalId events
  owned : ∀ id, (∀ goal ∈ db.goals, goal.id = id →
    Database.isProjected config.chainId goal = false) →
      db.periodsOf id = [] ∧ db.contributionsOf id = []

section

variable {config : Deployment} {ext : External} {db db' : Database} {event : DecodedEscrowEvent}
  {events : List DecodedEscrowEvent} {goalId : Hash}

theorem replay_concat (config : Deployment) (goalId : Hash) (events : List DecodedEscrowEvent)
    (event : DecodedEscrowEvent) : replay config goalId (events ++ [event]) =
      replayStep config goalId (replay config goalId events) event := by
  rw [replay, List.foldl_append]
  rfl

theorem replayStep_of_not (h : event.event.concerns goalId = false) (b : Option Book) :
    replayStep config goalId b event = b :=
  if_neg (by rw [h]; exact Bool.false_ne_true)

theorem replayStep_created (h : event.event.concerns goalId = true)
    (hcreated : event.event.isCreated = true) (b : Option Book) :
    replayStep config goalId b event = (createdFacts event).toOption.map (Book.renew b) := by
  rw [replayStep, if_pos h, if_pos hcreated]

theorem replayStep_apply (h : event.event.concerns goalId = true)
    (hcreated : event.event.isCreated = false) (b : Option Book) :
    replayStep config goalId b event = b.bind fun b => (b.apply config event).toOption := by
  rw [replayStep, if_pos h, hcreated, if_neg Bool.false_ne_true]

theorem concerns_of_ne {other : Hash} (h : event.event.goalId? = some other)
    (hne : goalId ≠ other) : event.event.concerns goalId = false :=
  decide_eq_false fun hc => hne (Option.some.inj (hc.1.symm.trans h))

/-- Only the events of a goal make its book. -/
theorem replay_filter (config : Deployment) (goalId : Hash) (events : List DecodedEscrowEvent) :
    replay config goalId events =
      replay config goalId (events.filter fun event => event.event.concerns goalId) := by
  rw [replay, replay, List.foldl_filter]
  congr 1
  funext b event
  by_cases h : event.event.concerns goalId = true
  · rw [if_pos h]
  · rw [if_neg h, replayStep_of_not (Bool.eq_false_of_not_eq_true h)]

/-! ### Tables -/

theorem projectedBook_of_goal {goal : FundingGoal}
    (hgoal : db.goal? config.chainId goalId = some goal) : db.projectedBook config goalId =
      if goal.creationTxHash.isSome then some (db.book goal) else none := by
  rw [Database.projectedBook, hgoal, Option.bind_some]

theorem projectedBook_of_none (hgoal : db.goal? config.chainId goalId = none) :
    db.projectedBook config goalId = none := by
  rw [Database.projectedBook, hgoal, Option.bind_none]

theorem Replayed.of_eq (h : Replayed config events db) (hgoals : db'.goals = db.goals)
    (hperiods : db'.periods = db.periods) (hcontributions : db'.contributions = db.contributions) :
    Replayed config events db' := by
  have hrows : ∀ id, db'.periodsOf id = db.periodsOf id ∧
      db'.contributionsOf id = db.contributionsOf id := by
    intro id
    rw [Database.periodsOf, Database.contributionsOf, hperiods, hcontributions]
    exact ⟨rfl, rfl⟩
  refine ⟨fun goalId => ?_, fun id hid => ?_⟩
  · rw [← h.books goalId, Database.projectedBook, Database.projectedBook, Database.goal?,
      Database.goal?, hgoals]
    congr 1
    funext goal
    rw [Database.book, Database.book, (hrows goal.id).1, (hrows goal.id).2]
  · rw [(hrows id).1, (hrows id).2]
    exact h.owned id (hgoals ▸ hid)

/-- Different goals of the contract have different ids. -/
theorem ne_of_goalId {goal other : FundingGoal} {otherId : Hash} (hdb : db.Sound config)
    (hgoal : db.goal? config.chainId goalId = some goal)
    (hother : db.goal? config.chainId otherId = some other) (hne : otherId ≠ goalId) :
    other.id ≠ goal.id := by
  obtain ⟨hmem, -, hid⟩ := goal?_some hgoal
  obtain ⟨hmem', -, hid'⟩ := goal?_some hother
  intro heq
  obtain rfl := hdb.goals.eq hmem' hmem heq
  exact hne (hid'.symm.trans hid)

/-- Nothing is stored for a goal that is not there. -/
theorem Replayed.fresh (h : Replayed config events db) (hdb : db.Sound config) :
    db.periodsOf db.nextId = [] ∧ db.contributionsOf db.nextId = [] :=
  h.owned _ fun goal hgoal hid => absurd hid (Nat.ne_of_lt (hdb.goals_lt goal hgoal))

/-- Nothing is stored for a goal that is not projected. -/
theorem Replayed.unprojected (h : Replayed config events db) (hdb : db.Sound config)
    {goal : FundingGoal} (hgoal : goal ∈ db.goals) (hnone : goal.creationTxHash.isSome = false) :
    db.periodsOf goal.id = [] ∧ db.contributionsOf goal.id = [] := by
  refine h.owned _ fun other hother hid => ?_
  obtain rfl := hdb.goals.eq hother hgoal hid
  refine decide_eq_false fun hprojected => ?_
  rw [hnone] at hprojected
  exact Bool.false_ne_true hprojected.2

/-! ### Projecting -/

/-- One goal's row changes, or appears, and its book becomes `b`. -/
theorem Replayed.of_goal (h : Replayed config events db) (hdb : db.Sound config)
    (goal' : FundingGoal) {b : Book} (hgoal' : db'.goal? config.chainId goalId = some goal')
    (hcreated : goal'.creationTxHash.isSome = true) (hbook : db'.book goal' = b)
    (hothers : ∀ otherId, otherId ≠ goalId →
      db'.goal? config.chainId otherId = db.goal? config.chainId otherId)
    (hids : ∀ goal ∈ db.goals, goal.id ≠ goal'.id → goal ∈ db'.goals)
    (hsame : ∀ goal, db.goal? config.chainId goalId = some goal → goal.id = goal'.id)
    (hnew : db.goal? config.chainId goalId = none → goal'.id = db.nextId)
    (hrows : ∀ id, id ≠ goal'.id → db'.periodsOf id = db.periodsOf id ∧
      db'.contributionsOf id = db.contributionsOf id)
    (hreplay : ∀ otherId, otherId ≠ goalId → event.event.concerns otherId = false)
    (hstep : replayStep config goalId (db.projectedBook config goalId) event = some b) :
    Replayed config (events ++ [event]) db' := by
  have hmem' := (goal?_some hgoal').1
  refine ⟨fun otherId => ?_, fun id hid => ?_⟩
  · rw [replay_concat, ← h.books otherId]
    by_cases hother : otherId = goalId
    · rw [hother, hstep, projectedBook_of_goal hgoal', if_pos hcreated, hbook]
    · rw [replayStep_of_not (hreplay otherId hother), Database.projectedBook,
        Database.projectedBook, hothers otherId hother]
      cases hfound : db.goal? config.chainId otherId with
      | none => rfl
      | some other =>
        have hne : other.id ≠ goal'.id := by
          cases hgoal : db.goal? config.chainId goalId with
          | some goal => exact hsame goal hgoal ▸ ne_of_goalId hdb hgoal hfound hother
          | none =>
            rw [hnew hgoal]
            exact Nat.ne_of_lt (hdb.goals_lt other (goal?_some hfound).1)
        rw [Option.bind_some, Option.bind_some, Database.book, Database.book,
          (hrows other.id hne).1, (hrows other.id hne).2]
  · have hne : id ≠ goal'.id := by
      rintro rfl
      have hnot := hid goal' hmem' rfl
      exact of_decide_eq_false hnot ⟨(goal?_some hgoal').2.1, hcreated⟩
    rw [(hrows id hne).1, (hrows id hne).2]
    exact h.owned id fun goal hgoal heq => hid goal (hids goal hgoal (heq ▸ hne)) heq

/-- A goal is created, or created again, with other facts. -/
theorem replayed_upsert {draft : Option Expense} {slug : Text} {facts : GoalFacts} {id : Id}
    (h : Replayed config events db) (hdb : db.Sound config)
    (hfacts : facts.creationTxHash.isSome = true) (hid : event.event.goalId? = some goalId)
    (hstep : replayStep config goalId (db.projectedBook config goalId) event =
      some (.renew (db.projectedBook config goalId) facts))
    (hup : upsertGoal config db goalId draft slug facts = .ok (db', id)) :
    Replayed config (events ++ [event]) db' := by
  have hothers : ∀ otherId, otherId ≠ goalId → event.event.concerns otherId = false :=
    fun otherId hne => concerns_of_ne hid hne
  rcases upsertGoal_ok.1 hup with ⟨-, ⟨goal, hgoal, rfl, -⟩ | ⟨hnone, rfl, -⟩⟩
  · -- the goal has a row, projected or reset
    have hmem := (goal?_some hgoal).1
    have hrows : ∀ otherId, (db.mapGoal goal.id (·.recreate draft slug facts)).goal? config.chainId
        otherId = (db.goal? config.chainId otherId).map fun row =>
          if row.id = goal.id then row.recreate draft slug facts else row := by
      intro otherId
      have hkey : ∀ row : FundingGoal, (row.recreate draft slug facts).key = row.key := fun _ => rfl
      rw [goal?_update hkey rfl]
      simp only [decide_eq_true_eq]
    have hbook : Book.renew (db.projectedBook config goalId) facts =
        ⟨facts, db.periodsOf goal.id, db.contributionsOf goal.id⟩ := by
      rw [projectedBook_of_goal hgoal]
      cases hprojected : goal.creationTxHash.isSome with
      | true => rfl
      | false =>
        have hempty := h.unprojected hdb hmem hprojected
        rw [hempty.1, hempty.2]
        rfl
    rw [hbook] at hstep
    refine h.of_goal hdb (goal.recreate draft slug facts) ?_ hfacts rfl ?_ ?_ ?_ ?_
      (fun _ _ => ⟨rfl, rfl⟩) hothers hstep
    · rw [hrows, hgoal, Option.map_some, if_pos rfl]
    · intro otherId hne
      rw [hrows]
      cases hother : db.goal? config.chainId otherId with
      | none => rfl
      | some other => rw [Option.map_some, if_neg (ne_of_goalId hdb hgoal hother hne)]
    · intro row hrow hne
      exact mem_updateWhere_of_not hrow (decide_eq_false hne)
    · intro row hrow
      obtain rfl := Option.some.inj (hgoal.symm.trans hrow)
      rfl
    · intro hnone
      rw [hgoal] at hnone
      cases hnone
  · -- the goal is new
    have hbook : Book.renew (db.projectedBook config goalId) facts =
        ⟨facts, db.periodsOf db.nextId, db.contributionsOf db.nextId⟩ := by
      have hempty := h.fresh hdb
      rw [projectedBook_of_none hnone, hempty.1, hempty.2]
      rfl
    rw [hbook] at hstep
    refine h.of_goal hdb (.fresh config.chainId db.nextId goalId draft slug facts) ?_ hfacts rfl
      ?_ ?_ ?_ (fun _ => rfl) (fun _ _ => ⟨rfl, rfl⟩) hothers hstep
    · rw [Database.goal?] at hnone ⊢
      rw [List.find?_append, hnone, Option.none_or]
      exact List.find?_cons_of_pos (decide_eq_true ⟨rfl, rfl⟩)
    · intro otherId hne
      have hnot : [FundingGoal.fresh config.chainId db.nextId goalId draft slug facts].find?
          (fun row => row.chainId = config.chainId ∧ row.chainGoalId = otherId) = none := by
        refine List.find?_eq_none.2 fun row hrow heq => hne ?_
        rw [List.mem_singleton.1 hrow] at heq
        exact (of_decide_eq_true heq).2.symm
      rw [Database.goal?, Database.goal?, List.find?_append, hnot, Option.or_none]
    · intro row hrow _
      exact List.mem_append_left _ hrow
    · intro row hrow
      rw [hnone] at hrow
      cases hrow

theorem executeReservation_books (db : Database) (payoutId : Id) (txHash : Hash)
    (occurredAt : Time) :
    (executeReservation db payoutId txHash occurredAt).goals = db.goals ∧
      (executeReservation db payoutId txHash occurredAt).periods = db.periods ∧
      (executeReservation db payoutId txHash occurredAt).contributions = db.contributions := by
  rcases executeReservation_cases db payoutId txHash occurredAt with
    ⟨heq, -⟩ | ⟨intent, -, -, heq⟩ | ⟨intent, proposal, -, -, -, heq⟩ <;>
    rw [heq] <;> exact ⟨rfl, rfl, rfl⟩

/-- **A goal is created**, or created again. -/
theorem replayed_created {creator recipient payoutRecipient : Address}
    {preTarget usdcTarget deadline : ℕ} {title description metadataURI : Text}
    {r : Option MetadataRefresh} (h : Replayed config events db) (hdb : db.Sound config)
    (hevent : event.event = .goalCreated goalId creator recipient payoutRecipient preTarget
      usdcTarget deadline title description metadataURI)
    (hcreated : handleGoalCreated config ext event goalId creator recipient preTarget usdcTarget
      deadline title description metadataURI db = .ok (db', r)) :
    Replayed config (events ++ [event]) db' := by
  obtain ⟨deadline', occurredAt, db₁, id, hdeadline, hat, hup, rfl, -⟩ :=
    handleGoalCreated_ok.1 hcreated
  obtain ⟨expenses, heq⟩ := publishDraft_eq db₁ (db.draft? goalId)
  have hid : event.event.goalId? = some goalId := by
    rw [hevent]
    rfl
  have hconcerns : event.event.concerns goalId = true := by
    refine decide_eq_true ⟨hid, ?_⟩
    rw [hevent]
    rfl
  have hfacts : createdFacts event = .ok (.created event creator recipient preTarget usdcTarget
      deadline' occurredAt title description metadataURI) := by
    simp only [createdFacts, hevent, bind_ok, pure_ok]
    exact ⟨deadline', hdeadline, occurredAt, hat, rfl⟩
  have hstep : replayStep config goalId (db.projectedBook config goalId) event =
      some (.renew (db.projectedBook config goalId) (.created event creator recipient preTarget
        usdcTarget deadline' occurredAt title description metadataURI)) := by
    rw [replayStep_created hconcerns (by rw [hevent]; rfl), hfacts]
    rfl
  have hthere := replayed_upsert h hdb rfl hid hstep hup
  rw [heq]
  exact hthere.of_eq rfl rfl rfl

/-- **An event of a projected goal.** -/
theorem replayed_turns {goal : FundingGoal} {b : Book} (h : Replayed config events db)
    (hdb : db.Sound config) (hgoal : db.goal? config.chainId goalId = some goal)
    (hprojected : goal.creationTxHash.isSome = true) (hid : event.event.goalId? = some goalId)
    (hrelease : event.event.isRelease = false) (hcreated : event.event.isCreated = false)
    (hb : (db.book goal).apply config event = .ok b) (hturns : Turns goal db db' b) :
    Replayed config (events ++ [event]) db' := by
  have hrows : ∀ otherId, db'.goal? config.chainId otherId =
      (db.goal? config.chainId otherId).map fun row =>
        if row.id = goal.id then row.withFacts b.facts else row := by
    intro otherId
    have hkey : ∀ row : FundingGoal, (row.withFacts b.facts).key = row.key := fun _ => rfl
    rw [goal?_update hkey hturns.goals]
    simp only [decide_eq_true_eq]
  have hcreation : b.facts.creationTxHash = goal.creationTxHash :=
    (Book.follows_of_apply hb).creation
  refine h.of_goal hdb (goal.withFacts b.facts) (b := b) ?_ (hcreation ▸ hprojected) ?_ ?_ ?_
    ?_ ?_ ?_ (fun otherId hne => concerns_of_ne hid hne) ?_
  · rw [hrows, hgoal, Option.map_some, if_pos rfl]
  · have hbook : db'.book (goal.withFacts b.facts) =
        ⟨b.facts, db'.periodsOf goal.id, db'.contributionsOf goal.id⟩ := rfl
    rw [hbook, hturns.periods, hturns.contributions]
  · intro otherId hne
    rw [hrows]
    cases hother : db.goal? config.chainId otherId with
    | none => rfl
    | some other => rw [Option.map_some, if_neg (ne_of_goalId hdb hgoal hother hne)]
  · intro row hrow hne
    rw [hturns.goals]
    exact mem_updateWhere_of_not hrow (decide_eq_false hne)
  · intro row hrow
    obtain rfl := Option.some.inj (hgoal.symm.trans hrow)
    rfl
  · intro hnone
    rw [hgoal] at hnone
    cases hnone
  · intro id hne
    exact ⟨hturns.periods_of_ne id hne, hturns.contributions_of_ne id hne⟩
  · rw [replayStep_apply (decide_eq_true ⟨hid, hrelease⟩) hcreated, projectedBook_of_goal hgoal,
      if_pos hprojected, Option.bind_some, hb]
    rfl

/-- An event that is in no book. -/
theorem Replayed.of_quiet (h : Replayed config events db) (event : DecodedEscrowEvent)
    (hnone : ∀ goalId, event.event.concerns goalId = false) :
    Replayed config (events ++ [event]) db :=
  ⟨fun goalId => by rw [replay_concat, replayStep_of_not (hnone goalId), h.books], h.owned⟩

/-- **An event** that is projected is the next one of its goal's book. -/
theorem replayed_project {r : Bool × Option MetadataRefresh} (h : Replayed config events db)
    (hdb : db.Sound config) (hc : Conserved config db)
    (horder : event.event.goalId?.isSome = true → event.event.isCreated = false →
      db.KnowsGoal event.event)
    (hproject : projectLog config ext event db = .ok (db', r)) :
    db' = db ∨ (db'.events = db.events ++ [event.row config] ∧
      Replayed config (events ++ [event]) db') := by
  rcases projectLog_cases hproject with rfl | ⟨-, hhandled⟩
  · exact .inl rfl
  have hclaimed := (preserves_event hdb event).sound
  have hthere : Replayed config events { db with events := db.events ++ [event.row config] } :=
    h.of_eq rfl rfl rfl
  refine .inr ⟨handled_events hclaimed hhandled, ?_⟩
  cases hhandled with
  | contract hid _ =>
    refine (h.of_quiet event fun goalId => ?_).of_eq rfl rfl rfl
    refine decide_eq_false fun hconcerns => ?_
    rw [hid] at hconcerns
    cases hconcerns.1
  | created hevent hcreated => exact replayed_created hthere hclaimed hevent hcreated
  | @goal goal goalId _ hid hfound hcreated hhandled =>
    have hgoal : db.goal? config.chainId goalId = some goal := hfound
    cases hrelease : event.event.isRelease with
    | true =>
      have hquiet : ∀ goalId, event.event.concerns goalId = false := by
        refine fun goalId => decide_eq_false fun hconcerns => ?_
        rw [hrelease] at hconcerns
        cases hconcerns.2
      rw [EscrowEvent.isRelease_eq, Option.isSome_iff_exists] at hrelease
      obtain ⟨⟨goalId', kind, token, amount⟩, hrelease⟩ := hrelease
      obtain ⟨payoutRecipient, heq⟩ := handleGoalEvent_release hrelease
      rw [heq] at hhandled
      obtain ⟨asset, occurredAt, -, ⟨reserved, -, -, rfl⟩ | ⟨payout, -, -, rfl⟩⟩ :=
        handleReleased_ok hhandled
      · obtain ⟨hgoals, hperiods, hcontributions⟩ := executeReservation_books
          (Database.mapPayout { db with events := db.events ++ [event.row config] } reserved.id
            (·.execute event.txHash payoutRecipient (some occurredAt)))
          reserved.id event.txHash occurredAt
        exact (h.of_eq hgoals hperiods hcontributions).of_quiet event hquiet
      · exact (h.of_quiet event hquiet).of_eq rfl rfl rfl
    | false =>
      obtain ⟨row, hrow, hcreates, hsame⟩ := horder (by rw [hid]; rfl) hcreated
      obtain ⟨goal', hgoal', hprojected⟩ := hc.created row hrow goalId (hsame.trans hid)
        (.inl hcreates)
      obtain rfl := Option.some.inj (hgoal.symm.trans hgoal')
      obtain ⟨b, hb, hturns⟩ := handleGoalEvent_turns hclaimed.goals (goal?_some hgoal).1
        (hclaimed.periods _) hrelease hhandled
      exact replayed_turns hthere hclaimed hfound hprojected hid hrelease hcreated hb hturns

/-! ### Resetting -/

theorem view_eq_nil {α β : Type} {q : α → Bool} {g : α → β} {rows : List α} :
    view q g rows = [] ↔ ∀ row ∈ rows, q row = false := by
  rw [view, List.map_eq_nil_iff, List.filter_eq_nil_iff]
  simp only [Bool.not_eq_true]

/-- **A reset** leaves no book. -/
theorem replayed_reset (h : Replayed config events db) :
    Replayed config [] (resetChainProjection config db) := by
  -- a projected goal is deleted, or its projection is cleared when intents refer to it
  have hgoals : ∀ goal ∈ (resetChainProjection config db).goals,
      Database.isProjected config.chainId goal = false := by
    intro goal hgoal
    rcases mem_updateWhere_cases hgoal with ⟨hkept, hnot⟩ | ⟨old, -, -, rfl⟩
    · obtain ⟨hmem, hdropped⟩ := List.mem_filter.1 hkept
      by_contra hprojected
      have hprojected := Bool.eq_true_of_not_eq_false hprojected
      have hany : (db.goals.any fun row =>
          decide (Database.isProjected config.chainId row = true ∧ row.id = goal.id)) = true :=
        List.any_eq_true.2 ⟨goal, hmem, decide_eq_true ⟨hprojected, rfl⟩⟩
      cases hintents : db.hasIntents goal.id with
      | true =>
        have hretained : db.isRetained config.chainId goal.id = true :=
          decide_eq_true ⟨hintents, hany⟩
        rw [hretained] at hnot
        cases hnot
      | false =>
        refine of_decide_eq_true hdropped (decide_eq_true ⟨?_, hany⟩)
        rw [hintents]
        exact Bool.false_ne_true
    · exact decide_eq_false fun hprojected => Bool.false_ne_true hprojected.2
  refine ⟨fun goalId => ?_, fun id _ => ?_⟩
  · cases hfound : (resetChainProjection config db).goal? config.chainId goalId with
    | none => exact projectedBook_of_none hfound
    | some goal =>
      obtain ⟨hmem, hchain, -⟩ := goal?_some hfound
      have hnot := of_decide_eq_false (hgoals goal hmem)
      rw [projectedBook_of_goal hfound, if_neg fun hsome => hnot ⟨hchain, hsome⟩]
      rfl
  · -- a row that is kept belongs to a goal that is not projected
    have howned : ∀ id, ¬db.isRetained config.chainId id = true →
        ¬db.isDropped config.chainId id = true →
        db.periodsOf id = [] ∧ db.contributionsOf id = [] := by
      intro id hretained hdropped
      refine h.owned id fun goal hgoal hid => ?_
      by_contra hprojected
      have hprojected := Bool.eq_true_of_not_eq_false hprojected
      have hany : (db.goals.any fun row =>
          decide (Database.isProjected config.chainId row = true ∧ row.id = id)) = true :=
        List.any_eq_true.2 ⟨goal, hgoal, decide_eq_true ⟨hprojected, hid⟩⟩
      cases hintents : db.hasIntents id with
      | true => exact hretained (decide_eq_true ⟨hintents, hany⟩)
      | false =>
        refine hdropped (decide_eq_true ⟨?_, hany⟩)
        rw [hintents]
        exact Bool.false_ne_true
    constructor
    · refine view_eq_nil.2 fun row hrow => decide_eq_false fun hid => ?_
      obtain ⟨hmem, hkept⟩ := List.mem_filter.1 hrow
      have hkept := of_decide_eq_true hkept
      have hnone := view_eq_nil.1 (howned row.goalId hkept.1 hkept.2).1 row hmem
      exact of_decide_eq_false hnone rfl
    · refine view_eq_nil.2 fun row hrow => decide_eq_false fun hid => ?_
      obtain ⟨hmem, hkept⟩ := List.mem_filter.1 hrow
      have hkept := of_decide_eq_true hkept
      have hnone := view_eq_nil.1 (howned row.goalId hkept.1 hkept.2).2 row hmem
      exact of_decide_eq_false hnone rfl

/-! ### The events since the last reset -/

/-- The events that have been projected, after one more step. -/
def logStep (events : List DecodedEscrowEvent) :
    Label World Reply Failure Job → List DecodedEscrowEvent
  | .act (.project event) _ _ (.ran w w') =>
    if w'.db.events = w.db.events then events else events ++ [event]
  | .act .rebuild _ _ (.ran w w') => if w'.db.events = w.db.events then events else []
  | _ => events

/-- The events that were projected since the last reset. -/
def loggedSince (ls : List (Label World Reply Failure Job)) : List DecodedEscrowEvent :=
  ls.foldl logStep []

theorem logStep_quiet (events : List DecodedEscrowEvent) {l : Label World Reply Failure Job}
    (hl : l.Quiet) : logStep events l = events := by
  cases l with
  | act j began h e =>
    cases e with
    | asked w q a => cases j <;> rfl
    | ran w w' => cases hl
  | env => rfl
  | start j => rfl
  | stop j => rfl
  | crash j => rfl

theorem loggedSince_concat (ls : List (Label World Reply Failure Job))
    (l : Label World Reply Failure Job) : loggedSince (ls ++ [l]) = logStep (loggedSince ls) l := by
  rw [loggedSince, List.foldl_append]
  rfl

/-- The tables hold these events, and what they make of the goals. -/
structure Logged (config : Deployment) (events : List DecodedEscrowEvent) (db : Database) :
    Prop where
  rows : db.events = events.map (·.row config)
  replayed : Replayed config events db
  conserved : Conserved config db

/-- **Every transaction** keeps the tables and the events together. -/
theorem Write.logged {j : Job} {began w w' : World} {h : Log} (hdb : w.db.Sound config)
    (hknown : w.db.Known config h) (hl : Logged config events w.db)
    (horder : ∀ event : DecodedEscrowEvent, j = .project event →
      event.event.goalId?.isSome = true → event.event.isCreated = false →
        w.db.KnowsGoal event.event)
    (hw : Write config ext j h w.db w'.db) :
    Logged config (logStep events (.act j began h (.ran w w'))) w'.db := by
  have hconserved : Conserved config w'.db := by
    refine hw.conserved hdb hknown hl.conserved fun event hj hrelease => horder event hj ?_ ?_
    · cases hevent : event.event <;> simp_all [EscrowEvent.goalId?, EscrowEvent.isRelease]
    · cases hevent : event.event <;> simp_all [EscrowEvent.isCreated, EscrowEvent.isRelease]
  -- a step that stores no event adds none to the log
  have hkept : w'.db.events = w.db.events → Replayed config events w'.db →
      Logged config (logStep events (.act j began h (.ran w w'))) w'.db := by
    intro hsame hreplayed
    have hlog : logStep events (.act j began h (.ran w w')) = events := by
      cases j <;> first | exact if_pos hsame | rfl
    rw [hlog]
    exact ⟨hsame.trans hl.rows, hreplayed, hconserved⟩
  rcases hw.untouched hknown with hsame | ⟨event, r, rfl, hproject⟩ | ⟨rfl, heq⟩
  · exact hkept hsame.events (hl.replayed.of_eq hsame.goals hsame.periods hsame.contributions)
  · rcases replayed_project hl.replayed hdb hl.conserved (horder event rfl) hproject with
      heq | ⟨hevents, hreplayed⟩
    · refine hkept (congrArg Database.events heq) ?_
      rw [heq]
      exact hl.replayed
    · have hlog : logStep events (.act (.project event) began h (.ran w w')) =
          events ++ [event] := by
        refine if_neg fun hsame => ?_
        rw [hsame] at hevents
        exact List.cons_ne_nil _ _ (List.append_right_eq_self.1 hevents.symm)
      rw [hlog]
      refine ⟨?_, hreplayed, hconserved⟩
      rw [hevents, hl.rows, List.map_append, List.map_singleton]
  · have hevents : w'.db.events = [] := by
      rw [heq]
      exact reset_events hdb
    have hreplayed : Replayed config [] w'.db := by
      rw [heq]
      exact replayed_reset hl.replayed
    by_cases hsame : w'.db.events = w.db.events
    · refine hkept hsame ?_
      have hnil : events = [] := by
        have hmap := hl.rows
        rw [← hsame, hevents] at hmap
        exact List.map_eq_nil_iff.1 hmap.symm
      rw [hnil]
      exact hreplayed
    · have hlog : logStep events (.act .rebuild began h (.ran w w')) = [] := if_neg hsame
      rw [hlog]
      exact ⟨hevents, hreplayed, hconserved⟩

end

/-! ### Whole runs -/

variable {O : Outside}

/-- The contract emits no event of a goal that it has not created. -/
def InOrder : Label World Reply Failure Job → Prop
  | .act (.project event) _ _ (.ran w _) =>
    event.event.goalId?.isSome = true → event.event.isCreated = false →
      w.db.KnowsGoal event.event
  | _ => True

instance : DecidablePred InOrder
  | .act (.project event) _ _ (.ran w _) => inferInstanceAs (Decidable
      (event.event.goalId?.isSome = true → event.event.isCreated = false →
        ∃ row ∈ w.db.events, row.event.isCreated = true ∧ row.event.goalId? = event.event.goalId?))
  | .act (.project _) _ _ (.asked _ _ _) | .act (.create ..) _ _ _ | .act (.submit ..) _ _ _
  | .act (.cancel ..) _ _ _ | .act (.expire _) _ _ _ | .act (.sync ..) _ _ _ | .act .rebuild _ _ _
  | .env | .start _ | .stop _ | .crash _ => inferInstanceAs (Decidable True)

theorem logged_empty (config : Deployment) : Logged config [] Database.empty where
  rows := rfl
  replayed := ⟨fun _ => rfl, fun _ _ => ⟨rfl, rfl⟩⟩
  conserved := conserved_empty config

/-- The events of a run, and the tables after it. -/
theorem logged_of_run {chain : Chain.ChainState Hash} {c : Config World Reply Failure Job Slot}
    {ls : List (Label World Reply Failure Job)}
    (hrun : (escrow O).Run (Config.idle (World.initial chain)) ls c)
    (horder : ∀ l ∈ ls, InOrder l) : Logged O.config (loggedSince ls) c.shared.db := by
  have hidle : (payouts O).Safe (Config.idle (World.initial chain)) :=
    Protocol.safe_idle (sound_empty O.config)
  refine (hidle.along (L := InOrder)
    (J := fun ls w => Logged O.config (loggedSince ls) w.db)
    (R := fun _ _ => True) (fun _ => trivial) ?_ ?_ ?_ ?_ (Protocol.recalls_idle _)
    (logged_empty _) hrun horder).1
  · intro ls l w hquiet hw
    rw [loggedSince_concat, logStep_quiet _ hquiet]
    exact hw
  · intro ls w w' _ henv hw
    refine ⟨?_, fun _ _ => trivial⟩
    rw [loggedSince_concat, henv.db_eq]
    exact hw
  · intro ls j w _ hw
    refine ⟨?_, fun _ _ => trivial⟩
    rw [loggedSince_concat]
    exact hw
  · intro ls j began h w w' horder hinv hrec _ hguar hw
    refine ⟨?_, fun _ _ => trivial⟩
    rw [loggedSince_concat]
    refine hguar.2.logged hinv (known_of_recorded hrec) hw ?_
    rintro event rfl
    exact horder

/-! ### A sample run of the replay -/

section Sample

/-- The goal is reserved for and released, the projection is reset, and the goal is projected
again. -/
def rebuiltRun : List (Move World Reply Failure Job Slot) :=
  releasedRun ++ [.start .rebuild, .act .indexer 1 (sampleOracle 4 1000), .stop .indexer] ++
    closedGoal

theorem allows_rebuiltRun : ∀ m ∈ rebuiltRun, (escrow sampleOutside).Allows m :=
  Machine.allows_of_internal (fun _ _ _ => trivial) rfl

theorem rebuilt_isSome : ((escrow sampleOutside).play rebuiltRun sampleStart).isSome = true := by
  decide +kernel

/-- The end of the sample run. -/
def rebuiltEnd : Config World Reply Failure Job Slot :=
  ((escrow sampleOutside).play rebuiltRun sampleStart).get rebuilt_isSome

end Sample

/-- **The tables are what the events say.**  In every run the facts, the periods and the
contributions of every goal are those that the events since the last reset make, one after the
other, and the goals without a projection have none. -/
theorem books_replayed {chain : Chain.ChainState Hash} {c : Config World Reply Failure Job Slot}
    {ls : List (Label World Reply Failure Job)}
    (hrun : (escrow O).Run (Config.idle (World.initial chain)) ls c)
    (horder : ∀ l ∈ ls, InOrder l) :
    c.shared.db.events = (loggedSince ls).map (·.row O.config) ∧
      (∀ goalId, c.shared.db.projectedBook O.config goalId =
        replay O.config goalId (loggedSince ls)) ∧
      ∀ goal ∈ c.shared.db.goals, Database.isProjected O.config.chainId goal = false →
        c.shared.db.periodsOf goal.id = [] ∧ c.shared.db.contributionsOf goal.id = [] := by
  have hsound : c.shared.db.Sound O.config := (safe_of_run hrun).inv
  obtain ⟨hrows, hreplayed, -⟩ := logged_of_run hrun horder
  refine ⟨hrows, hreplayed.books, fun goal hgoal hnot => ?_⟩
  refine hreplayed.owned _ fun other hother hid => ?_
  rw [hsound.goals.eq hother hgoal hid]
  exact hnot

theorem books_replayed_sample :
    rebuiltEnd.shared.db.events.length = 2 ∧
      (rebuiltEnd.shared.db.projectedBook sampleDeployment 11).map
        (·.facts.recipientEntitlementRaw) = some ⟨0, 100⟩ ∧
      rebuiltEnd.shared.db.projectedBook sampleDeployment 11 =
        replay sampleDeployment 11
          (loggedSince ((escrow sampleOutside).labels rebuiltRun sampleStart)) := by
  obtain ⟨-, hbooks, -⟩ := books_replayed
    (Machine.run_labels allows_rebuiltRun (Option.some_get rebuilt_isSome).symm)
    (by decide +kernel)
  exact ⟨by decide +kernel, by decide +kernel, hbooks 11⟩

end Escrow

end PreCommunity
