import PreCommunity.Escrow.Books

/-!
# The handlers keep the books

An event of a goal changes the goal's rows as its book says, and no other goal's.

* `Database.book` : the book of a goal in the tables.
* `Turns` : what an event of a goal, other than a release, changes.
* `handleGoalEvent_turns` : the handlers follow the book.
* `handleGoalCreated_cases` : a goal is created, or created again.
-/

namespace PreCommunity

namespace Escrow

open Store

/-! ### The book of a goal -/

/-- The goal with other facts. -/
def FundingGoal.withFacts (facts : GoalFacts) (row : FundingGoal) : FundingGoal :=
  { row with toGoalFacts := facts }

@[simp] theorem FundingGoal.withFacts_self (row : FundingGoal) :
    row.withFacts row.toGoalFacts = row := rfl

namespace Database

variable (db : Database)

/-- The periods of a goal. -/
def periodsOf (goalId : Id) : List PeriodFacts :=
  view (fun row => row.goalId = goalId) (·.toPeriodFacts) db.periods

/-- The contributions of a goal. -/
def contributionsOf (goalId : Id) : List ContributionFacts :=
  view (fun row => row.goalId = goalId) (·.toContributionFacts) db.contributions

/-- The book of a goal. -/
def book (goal : FundingGoal) : Book :=
  ⟨goal.toGoalFacts, db.periodsOf goal.id, db.contributionsOf goal.id⟩

end Database

/-- What an event of `goal` that is no release changes, when the book becomes `b`. -/
structure Turns (goal : FundingGoal) (db db' : Database) (b : Book) : Prop where
  goals : db'.goals = updateWhere (fun row => row.id = goal.id) (·.withFacts b.facts) db.goals
  periods : db'.periodsOf goal.id = b.periods
  periods_of_ne : ∀ id, id ≠ goal.id → db'.periodsOf id = db.periodsOf id
  contributions : db'.contributionsOf goal.id = b.contributions
  contributions_of_ne : ∀ id, id ≠ goal.id → db'.contributionsOf id = db.contributionsOf id
  contributionKeys : ∃ new, db'.contributions = db.contributions ++ new
  expenses : db'.expenses = db.expenses
  payouts : db'.payouts = db.payouts
  payoutIntents : db'.payoutIntents = db.payoutIntents
  payoutProposals : db'.payoutProposals = db.payoutProposals
  goalActionIntents : db'.goalActionIntents = db.goalActionIntents
  profiles : db'.profiles = db.profiles
  authorities : db'.authorities = db.authorities
  events : db'.events = db.events
  indexers : db'.indexers = db.indexers
  nextId : db.nextId ≤ db'.nextId

section

variable {config : Deployment} {event : DecodedEscrowEvent} {goal : FundingGoal}
  {db db' : Database}

/-! ### The rows of one goal -/

theorem Database.period?_book (periodIndex : ℕ) :
    (db.book goal).period? periodIndex =
      (db.period? goal.id periodIndex).map (·.toPeriodFacts) := by
  unfold Database.book Database.periodsOf Book.period? Database.period? view
  induction db.periods with
  | nil => rfl
  | cons row rows ih =>
    by_cases hgoal : row.goalId = goal.id <;> by_cases hindex : row.periodIndex = periodIndex <;>
      simp_all

/-- Changing one goal, whose row is known. -/
theorem updateGoal_eq (hkeyed : Keyed (·.id) db.goals) (hgoal : goal ∈ db.goals)
    (f : FundingGoal → FundingGoal) (facts : GoalFacts) (hf : f goal = goal.withFacts facts) :
    updateWhere (fun row => row.id = goal.id) f db.goals =
      updateWhere (fun row => row.id = goal.id) (·.withFacts facts) db.goals := by
  refine List.map_congr_left fun row hrow => ?_
  by_cases hid : row.id = goal.id
  · rw [hkeyed.eq hrow hgoal hid, hf]
  · simp [hid]

/-- A goal whose facts stay. -/
theorem updateGoal_self (hkeyed : Keyed (·.id) db.goals) (hgoal : goal ∈ db.goals) :
    updateWhere (fun row => row.id = goal.id) (·.withFacts goal.toGoalFacts) db.goals =
      db.goals := by
  unfold updateWhere
  conv_rhs => rw [← List.map_id db.goals]
  refine List.map_congr_left fun row hrow => ?_
  by_cases hid : row.id = goal.id
  · rw [hkeyed.eq hrow hgoal hid]
    simp
  · simp [hid]

/-- A selection of the rows of one goal. -/
structure Within (goalId : Id) (p : FundingGoalPeriod → Bool) (p' : PeriodFacts → Bool) : Prop where
  iff : ∀ row, p row = (decide (row.goalId = goalId) && p' row.toPeriodFacts)

/-- An update of the facts of periods. -/
structure OnFacts (f : FundingGoalPeriod → FundingGoalPeriod) (f' : PeriodFacts → PeriodFacts) :
    Prop where
  goalId : ∀ row, (f row).goalId = row.goalId
  facts : ∀ row, (f row).toPeriodFacts = f' row.toPeriodFacts

section

variable {p : FundingGoalPeriod → Bool} {p' : PeriodFacts → Bool} {goalId id : Id}
  {f : FundingGoalPeriod → FundingGoalPeriod} {f' : PeriodFacts → PeriodFacts}
  {row : FundingGoalPeriod} {rows : List FundingGoalPeriod}

theorem periods_updateWhere (hp : Within goalId p p') (hf : OnFacts f f') :
    view (fun row => row.goalId = goalId) (·.toPeriodFacts) (updateWhere p f rows) =
      updateWhere p' f' (view (fun row => row.goalId = goalId) (·.toPeriodFacts) rows) :=
  view_updateWhere hp.iff (fun row => by rw [hf.goalId]) hf.facts

theorem periods_updateWhere_of_ne (hid : id ≠ goalId) (hp : Within goalId p p')
    (hf : OnFacts f f') :
    view (fun row => row.goalId = id) (·.toPeriodFacts) (updateWhere p f rows) =
      view (fun row => row.goalId = id) (·.toPeriodFacts) rows := by
  refine view_updateWhere_of_not (fun row hrow => ?_) fun row => by rw [hf.goalId]
  simp only [hp.iff, Bool.and_eq_true, decide_eq_true_eq] at hrow
  simp [hrow.1, Ne.symm hid]

theorem periods_upsert (hrow : row.goalId = goalId) (hp : Within goalId p p') (hf : OnFacts f f') :
    view (fun row => row.goalId = goalId) (·.toPeriodFacts) (upsert p f row rows) =
      upsert p' f' row.toPeriodFacts
        (view (fun row => row.goalId = goalId) (·.toPeriodFacts) rows) :=
  view_upsert (by simp [hrow]) hp.iff (fun row => by rw [hf.goalId]) hf.facts

theorem periods_upsert_of_ne (hid : id ≠ goalId) (hrow : row.goalId = goalId)
    (hp : Within goalId p p') (hf : OnFacts f f') :
    view (fun row => row.goalId = id) (·.toPeriodFacts) (upsert p f row rows) =
      view (fun row => row.goalId = id) (·.toPeriodFacts) rows := by
  refine view_upsert_of_not (by simp [hrow, Ne.symm hid]) (fun row hrow => ?_)
    fun row => by rw [hf.goalId]
  simp only [hp.iff, Bool.and_eq_true, decide_eq_true_eq] at hrow
  simp [hrow.1, Ne.symm hid]

end

theorem within_index (goalId : Id) (periodIndex : ℕ) :
    Within goalId (fun row => row.goalId = goalId ∧ row.periodIndex = periodIndex)
      (fun row => row.periodIndex = periodIndex) :=
  ⟨fun row => by simp⟩

theorem within_unsettled (goalId : Id) (periodIndex : ℕ) :
    Within goalId
      (fun row => row.goalId = goalId ∧ row.periodIndex = periodIndex ∧ row.settledAt = none)
      (fun row => row.periodIndex = periodIndex ∧ row.settledAt = none) :=
  ⟨fun row => by simp⟩

theorem Database.upsertPeriod_eq (row : FundingGoalPeriod)
    (f : FundingGoalPeriod → FundingGoalPeriod) :
    db.upsertPeriod row f =
      { db with
        periods := upsert
          (fun row' => row'.goalId = row.goalId ∧ row'.periodIndex = row.periodIndex) f row
          db.periods } := by
  unfold Database.upsertPeriod Database.period? upsert
  cases hfound : db.periods.find? fun row' =>
      decide (row'.goalId = row.goalId ∧ row'.periodIndex = row.periodIndex) with
  | none =>
    rw [if_neg]
    rw [List.find?_eq_none] at hfound
    simpa using hfound
  | some row' =>
    rw [if_pos]
    · rfl
    · have hrow := List.find?_some hfound
      exact List.any_eq_true.2 ⟨row', List.mem_of_find?_eq_some hfound, hrow⟩

/-- An event that leaves the contributions. -/
theorem turns_of {goals : List FundingGoal} {periods : List FundingGoalPeriod}
    {proposals : List SafeGoalActionProposal} {facts : GoalFacts} {facts' : List PeriodFacts}
    (hgoals : goals = updateWhere (fun row => row.id = goal.id) (·.withFacts facts) db.goals)
    (hown : view (fun row => row.goalId = goal.id) (·.toPeriodFacts) periods = facts')
    (hother : ∀ id, id ≠ goal.id → view (fun row => row.goalId = id) (·.toPeriodFacts) periods =
      db.periodsOf id) :
    Turns goal db { db with goals := goals, periods := periods, goalActionProposals := proposals }
      ⟨facts, facts', db.contributionsOf goal.id⟩ where
  goals := hgoals
  periods := hown
  periods_of_ne := hother
  contributions := rfl
  contributions_of_ne _ _ := rfl
  contributionKeys := ⟨[], by simp⟩
  expenses := rfl
  payouts := rfl
  payoutIntents := rfl
  payoutProposals := rfl
  goalActionIntents := rfl
  profiles := rfl
  authorities := rfl
  events := rfl
  indexers := rfl
  nextId := Nat.le_refl _

/-- Only a proposal of a lifecycle action changes with its confirmation. -/
theorem confirmSafeGoalAction_ok {goalId : Id} {kind : SafeGoalActionKind}
    {targetPolicy : Option MonthlySurplusPolicy}
    (h : confirmSafeGoalAction db goalId kind event targetPolicy = .ok db') :
    ∃ proposals, db' = { db with goalActionProposals := proposals } := by
  unfold confirmSafeGoalAction at h
  extract_lets eligible exact at h
  split at h
  · obtain rfl := Except.ok.inj h
    exact ⟨db.goalActionProposals, rfl⟩
  · simp only [bind_ok, pure_ok] at h
    obtain ⟨occurredAt, -, rfl⟩ := h
    exact ⟨_, rfl⟩

/-! ### The handlers -/

theorem handleMonthlyGoalCreated_turns (hkeyed : Keyed (·.id) db.goals) (hgoal : goal ∈ db.goals)
    {periodStart periodEnd settlementDay surplusPolicy : ℕ}
    (h : handleMonthlyGoalCreated goal periodStart periodEnd settlementDay surplusPolicy db =
      .ok db') :
    ∃ b, (db.book goal).monthlyGoalCreated periodStart periodEnd settlementDay surplusPolicy =
      .ok b ∧ Turns goal db db' b := by
  simp only [handleMonthlyGoalCreated, Book.monthlyGoalCreated, guard_ok, bind_ok, pure_ok,
    Database.upsertPeriod_eq] at h ⊢
  obtain ⟨hday, policy, hpolicy, startsAt, hstart, endsAt, hend, rfl⟩ := h
  refine ⟨_, ⟨hday, policy, hpolicy, startsAt, hstart, endsAt, hend, rfl⟩, ?_⟩
  have hf : OnFacts (fun row => { row with
      startsAt := startsAt, endsAt := endsAt, surplusPolicy := policy })
      (·.reschedule startsAt endsAt policy) := ⟨fun _ => rfl, fun _ => rfl⟩
  refine turns_of (updateGoal_eq hkeyed hgoal _ _ rfl) ?_ fun id hid => ?_
  · exact periods_upsert rfl (within_index _ _) hf
  · exact periods_upsert_of_ne hid rfl (within_index _ _) hf

theorem handleMonthlySurplusPolicyUpdated_turns (hkeyed : Keyed (·.id) db.goals)
    (hgoal : goal ∈ db.goals) {newPolicy : ℕ}
    (h : handleMonthlySurplusPolicyUpdated event goal newPolicy db = .ok db') :
    ∃ b, (db.book goal).surplusPolicyUpdated newPolicy = .ok b ∧ Turns goal db db' b := by
  simp only [handleMonthlySurplusPolicyUpdated, Book.surplusPolicyUpdated, bind_ok, pure_ok] at h ⊢
  obtain ⟨policy, hpolicy, h⟩ := h
  obtain ⟨proposals, rfl⟩ := confirmSafeGoalAction_ok h
  refine ⟨_, ⟨policy, hpolicy, rfl⟩, ?_⟩
  have hf : OnFacts (fun row => { row with surplusPolicy := policy }) (·.withPolicy policy) :=
    ⟨fun _ => rfl, fun _ => rfl⟩
  refine turns_of (updateGoal_eq hkeyed hgoal _ _ rfl) ?_ fun id hid => ?_
  · exact periods_updateWhere (within_unsettled _ _) hf
  · exact periods_updateWhere_of_ne hid (within_unsettled _ _) hf

theorem handleMonthlyPeriodSettled_turns (hkeyed : Keyed (·.id) db.goals) (hgoal : goal ∈ db.goals)
    {periodIndex periodStart periodEnd surplusPolicy : ℕ} {finalPeriod : Bool}
    (h : handleMonthlyPeriodSettled event goal periodIndex periodStart periodEnd surplusPolicy
      finalPeriod db = .ok db') :
    ∃ b, (db.book goal).periodSettled event periodIndex periodStart periodEnd surplusPolicy
      finalPeriod = .ok b ∧ Turns goal db db' b := by
  unfold handleMonthlyPeriodSettled at h
  unfold Book.periodSettled
  cases hsettlement : goal.monthlySettlementDay with
  | none => simp [hsettlement, throw_ok] at h
  | some settlementDay =>
    have hbook : (db.book goal).facts.monthlySettlementDay = some settlementDay := hsettlement
    simp only [hsettlement, hbook, guard_ok, bind_ok, Database.upsertPeriod_eq] at h ⊢
    obtain ⟨hday, policy, hpolicy, startsAt, hstart, endsAt, hend, occurredAt, hat, nextEnd, hnext,
      h⟩ := h
    have hf : OnFacts (FundingGoalPeriod.settle event startsAt endsAt policy finalPeriod occurredAt)
      (·.settle event startsAt endsAt policy finalPeriod occurredAt) := ⟨fun _ => rfl, fun _ => rfl⟩
    have hid : OnFacts id id := ⟨fun _ => rfl, fun _ => rfl⟩
    cases finalPeriod with
    | true =>
      simp only [if_true, pure_ok] at h
      subst h
      refine ⟨_, ⟨hday, policy, hpolicy, startsAt, hstart, endsAt, hend, occurredAt, hat, nextEnd,
        hnext, rfl⟩, ?_⟩
      refine turns_of (updateGoal_eq hkeyed hgoal _ _ rfl) ?_ fun id hid => ?_
      · exact periods_upsert rfl (within_index _ _) hf
      · exact periods_upsert_of_ne hid rfl (within_index _ _) hf
    | false =>
      simp only [Bool.false_eq_true, if_false, pure_ok] at h
      subst h
      refine ⟨_, ⟨hday, policy, hpolicy, startsAt, hstart, endsAt, hend, occurredAt, hat, nextEnd,
        hnext, rfl⟩, ?_⟩
      refine turns_of (updateGoal_eq hkeyed hgoal _ _ rfl) ?_ fun id hne => ?_
      · refine (periods_upsert (show _ = goal.id from rfl) (within_index _ _) hid).trans ?_
        congr 1
        exact periods_upsert rfl (within_index _ _) hf
      · refine (periods_upsert_of_ne hne rfl (within_index _ _) hid).trans ?_
        exact periods_upsert_of_ne hne rfl (within_index _ _) hf

theorem handleMonthlyTokenSettled_turns (hkeyed : Keyed (·.id) db.goals) (hgoal : goal ∈ db.goals)
    {periodIndex : ℕ} {token : Address}
    {periodContributed carryIn recipientEntitlementAdded carryOut : ℕ}
    (h : handleMonthlyTokenSettled config goal periodIndex token periodContributed carryIn
      recipientEntitlementAdded carryOut db = .ok db') :
    ∃ b, (db.book goal).tokenSettled config periodIndex token periodContributed carryIn
      recipientEntitlementAdded carryOut = .ok b ∧ Turns goal db db' b := by
  simp only [handleMonthlyTokenSettled, Book.tokenSettled, guard_ok, bind_ok, pure_ok,
    Database.period?_book, Option.isNone_map] at h ⊢
  obtain ⟨asset, hasset, hfound, rfl⟩ := h
  refine ⟨_, ⟨asset, hasset, hfound, rfl⟩, ?_⟩
  have hsettle : OnFacts (fun row => { row with
      contributedRaw := row.contributedRaw.set asset periodContributed
      carryInRaw := row.carryInRaw.set asset carryIn
      recipientEntitlementAddedRaw :=
        row.recipientEntitlementAddedRaw.set asset recipientEntitlementAdded
      carryOutRaw := row.carryOutRaw.set asset carryOut })
      (·.settleToken asset periodContributed carryIn recipientEntitlementAdded carryOut) :=
    ⟨fun _ => rfl, fun _ => rfl⟩
  have hcarry : OnFacts (fun row => { row with
      carryInRaw := row.carryInRaw.set asset carryOut }) (·.withCarryIn asset carryOut) :=
    ⟨fun _ => rfl, fun _ => rfl⟩
  refine turns_of (updateGoal_eq hkeyed hgoal _ _ rfl) ?_ fun id hid => ?_
  · refine (periods_updateWhere (within_unsettled _ _) hcarry).trans ?_
    congr 1
    exact periods_updateWhere (within_index _ _) hsettle
  · refine (periods_updateWhere_of_ne hid (within_unsettled _ _) hcarry).trans ?_
    exact periods_updateWhere_of_ne hid (within_index _ _) hsettle

/-- An event that only changes the facts of the goal. -/
theorem turns_facts {goals : List FundingGoal} {proposals : List SafeGoalActionProposal}
    {facts : GoalFacts}
    (hgoals : goals = updateWhere (fun row => row.id = goal.id) (·.withFacts facts) db.goals) :
    Turns goal db { db with goals := goals, goalActionProposals := proposals }
      { db.book goal with facts := facts } :=
  turns_of hgoals rfl fun _ _ => rfl

theorem Database.contributed_book (asset : FundingAsset) :
    (db.book goal).contributed asset = db.contributed goal.id asset := by
  unfold Book.contributed Database.contributed Database.book Database.contributionsOf
  induction db.contributions with
  | nil => rfl
  | cons row rows ih =>
    by_cases hgoal : row.goalId = goal.id <;> by_cases hasset : row.asset = asset <;>
      simp_all [view]

/-- The user of a contributor is found, or created. -/
theorem Database.upsertUser_eq (address : Address) :
    ∃ users nextId, db.nextId ≤ nextId ∧
      (db.upsertUser address).1 = { db with users := users, nextId := nextId } := by
  unfold Database.upsertUser
  split
  · exact ⟨db.users, db.nextId, Nat.le_refl _, rfl⟩
  · exact ⟨_, _, Nat.le_succ _, rfl⟩

/-- A contribution is added, and periods may change. -/
theorem turns_contributed (hkeyed : Keyed (·.id) db.goals) (hgoal : goal ∈ db.goals)
    {users : List User} {nextId userId : Id} {row : ContributionFacts}
    {periods : List FundingGoalPeriod} {facts' : List PeriodFacts} (hnext : db.nextId ≤ nextId)
    (hown : view (fun row => row.goalId = goal.id) (·.toPeriodFacts) periods = facts')
    (hother : ∀ id, id ≠ goal.id → view (fun row => row.goalId = id) (·.toPeriodFacts) periods =
      db.periodsOf id) :
    Turns goal db
      { db with
        users := users
        nextId := nextId
        contributions :=
          db.contributions ++ [{ toContributionFacts := row, goalId := goal.id, userId := userId }]
        periods := periods }
      ⟨goal.toGoalFacts, facts', db.contributionsOf goal.id ++ [row]⟩ where
  goals := (updateGoal_self hkeyed hgoal).symm
  periods := hown
  periods_of_ne := hother
  contributions := by
    unfold Database.contributionsOf
    rw [view_append]
    simp [view]
  contributions_of_ne id hid := by
    unfold Database.contributionsOf
    rw [view_append]
    simp [view, Ne.symm hid]
  contributionKeys := ⟨_, rfl⟩
  expenses := rfl
  payouts := rfl
  payoutIntents := rfl
  payoutProposals := rfl
  goalActionIntents := rfl
  profiles := rfl
  authorities := rfl
  events := rfl
  indexers := rfl
  nextId := hnext

theorem handleContributionReceived_turns (hkeyed : Keyed (·.id) db.goals) (hgoal : goal ∈ db.goals)
    (hperiods : Keyed (·.periodIndex) (db.periodsOf goal.id)) {contributor token : Address}
    {amount : ℕ} {profileVisible : Bool}
    (h : handleContributionReceived config event goal contributor token amount profileVisible db =
      .ok db') :
    ∃ b, (db.book goal).contributionReceived config event contributor token amount profileVisible =
      .ok b ∧ Turns goal db db' b := by
  obtain ⟨users, nextId, hnext, huser⟩ := db.upsertUser_eq contributor
  unfold handleContributionReceived at h
  simp only [huser, guard_ok, bind_ok] at h
  obtain ⟨asset, hasset, confirmedAt, hat, -, h⟩ := h
  simp only [Book.contributionReceived, bind_ok]
  by_cases hmonthly : goal.goalType = .monthly
  · have hbook : (db.book goal).facts.goalType = .monthly := hmonthly
    rw [if_pos hmonthly] at h
    split at h
    · simp [throw_ok] at h
    rename_i period hperiod
    have hperiod : db.period? goal.id (goal.monthlyPeriodsSettled + 1) = some period := hperiod
    obtain rfl := pure_ok.1 h
    refine ⟨⟨goal.toGoalFacts, updateWhere
      (fun row => row.periodIndex = goal.monthlyPeriodsSettled + 1) (·.contribute asset amount)
      (db.periodsOf goal.id),
      db.contributionsOf goal.id ++ [Book.contribution config event contributor
        asset amount profileVisible confirmedAt]⟩, ⟨asset, hasset, confirmedAt, hat, ?_⟩, ?_⟩
    · rw [if_pos hbook]
      have hfound : (db.book goal).period? ((db.book goal).facts.monthlyPeriodsSettled + 1) =
          some period.toPeriodFacts :=
        (Database.period?_book _).trans (by rw [← Option.map_some, ← hperiod]; rfl)
      unfold Book.period? at hfound ⊢
      rw [hfound]
      rfl
    -- the row that was read is the only one
    have hsame : updateWhere (fun row : FundingGoalPeriod => row.goalId = goal.id ∧
          row.periodIndex = goal.monthlyPeriodsSettled + 1)
        (fun row => { row with contributedRaw := period.contributedRaw.addRaw asset amount })
        db.periods = updateWhere (fun row : FundingGoalPeriod => row.goalId = goal.id ∧
          row.periodIndex = goal.monthlyPeriodsSettled + 1)
        (fun row => { row with contributedRaw := row.contributedRaw.addRaw asset amount })
        db.periods := by
      refine List.map_congr_left fun row hrow => ?_
      by_cases hthis : row.goalId = goal.id ∧ row.periodIndex = goal.monthlyPeriodsSettled + 1
      · have hid := List.find?_some hperiod
        simp only [decide_eq_true_eq] at hid
        have hfacts : row.toPeriodFacts = period.toPeriodFacts :=
          hperiods.eq (mem_view.2 ⟨row, hrow, by simpa using hthis.1, rfl⟩)
            (mem_view.2 ⟨period, List.mem_of_find?_eq_some hperiod, by simpa using hid.1, rfl⟩)
            (hthis.2.trans hid.2.symm)
        simp [hthis, hfacts]
      · simp [hthis]
    have hf : OnFacts (fun row => { row with
        contributedRaw := row.contributedRaw.addRaw asset amount }) (·.contribute asset amount) :=
      ⟨fun _ => rfl, fun _ => rfl⟩
    refine turns_contributed hkeyed hgoal hnext ?_ fun id hid => ?_
    · rw [hsame]
      exact periods_updateWhere (within_index _ _) hf
    · rw [hsame]
      exact periods_updateWhere_of_ne hid (within_index _ _) hf
  · have hbook : ¬(db.book goal).facts.goalType = .monthly := hmonthly
    rw [if_neg hmonthly] at h
    obtain rfl := pure_ok.1 h
    refine ⟨⟨goal.toGoalFacts, db.periodsOf goal.id, db.contributionsOf goal.id ++
      [Book.contribution config event contributor asset amount profileVisible confirmedAt]⟩,
      ⟨asset, hasset, confirmedAt, hat, ?_⟩, ?_⟩
    · rw [if_neg hbook]
      rfl
    · exact turns_contributed hkeyed hgoal hnext rfl fun _ _ => rfl

/-- The event is no release. -/
def EscrowEvent.isRelease : EscrowEvent → Bool
  | expenseReleased .. | cancelledFundsReleased .. => true
  | _ => false

/-- The event creates a goal. -/
def EscrowEvent.isCreated : EscrowEvent → Bool
  | goalCreated .. => true
  | _ => false

/-- **A goal's event** turns a page of its book. -/
theorem handleGoalEvent_turns (hkeyed : Keyed (·.id) db.goals) (hgoal : goal ∈ db.goals)
    (hperiods : Keyed (·.periodIndex) (db.periodsOf goal.id))
    (hrelease : event.event.isRelease = false)
    (h : handleGoalEvent config event goal db = .ok db') :
    ∃ b, (db.book goal).apply config event = .ok b ∧ Turns goal db db' b := by
  have hself : Turns goal db { db with goalActionProposals := db.goalActionProposals }
      (db.book goal) := turns_facts (updateGoal_self hkeyed hgoal).symm
  obtain ⟨event, blockNumber, blockHash, blockTimestamp, txHash, logIndex⟩ := event
  unfold handleGoalEvent at h
  unfold Book.apply
  cases event with
  | monthlyGoalCreated => exact handleMonthlyGoalCreated_turns hkeyed hgoal h
  | contributionReceived => exact handleContributionReceived_turns hkeyed hgoal hperiods h
  | monthlySurplusPolicyUpdated => exact handleMonthlySurplusPolicyUpdated_turns hkeyed hgoal h
  | monthlyPeriodSettled => exact handleMonthlyPeriodSettled_turns hkeyed hgoal h
  | monthlyTokenSettled => exact handleMonthlyTokenSettled_turns hkeyed hgoal h
  | monthlyGoalStopRequested =>
    simp only [handleMonthlyGoalStopRequested, Book.dated, bind_ok, pure_ok] at h ⊢
    obtain ⟨occurredAt, hat, h⟩ := h
    obtain ⟨proposals, rfl⟩ := confirmSafeGoalAction_ok h
    exact ⟨_, ⟨occurredAt, hat, rfl⟩, turns_facts (updateGoal_eq hkeyed hgoal _ _ rfl)⟩
  | goalClosed =>
    simp only [handleGoalClosed, Book.dated, bind_ok, pure_ok] at h ⊢
    obtain ⟨occurredAt, hat, rfl⟩ := h
    exact ⟨_, ⟨occurredAt, hat, rfl⟩, turns_facts (updateGoal_eq hkeyed hgoal _ _ rfl)⟩
  | goalCancelled =>
    simp only [handleGoalCancelled, Book.dated, bind_ok, pure_ok] at h ⊢
    obtain ⟨occurredAt, hat, rfl⟩ := h
    refine ⟨_, ⟨occurredAt, hat, rfl⟩, turns_facts (updateGoal_eq hkeyed hgoal _ _ ?_)⟩
    simp only [Book.contributedRaw, Database.contributed_book]
    rfl
  | monthlyGoalCancelled =>
    obtain ⟨proposals, rfl⟩ := confirmSafeGoalAction_ok h
    exact ⟨_, rfl, turns_facts (updateGoal_eq hkeyed hgoal _ _ rfl)⟩
  | expenseReleased => simp [EscrowEvent.isRelease] at hrelease
  | cancelledFundsReleased => simp [EscrowEvent.isRelease] at hrelease
  | _ =>
    obtain rfl := Except.ok.inj h
    exact ⟨_, rfl, hself⟩

/-! ### Creating a goal -/

/-- The draft of a goal. -/
def Database.draft? (db : Database) (goalId : Hash) : Option Expense :=
  db.expenses.find? fun row => row.pendingChainGoalId = some goalId

theorem upsertGoal_ok {goalId : Hash} {draft : Option Expense} {slug : Text} {facts : GoalFacts}
    {id : Id} :
    upsertGoal config db goalId draft slug facts = .ok (db', id) ↔
      (db.goals.any fun row =>
        row.chainId = config.chainId ∧ row.slug = slug ∧ row.chainGoalId ≠ goalId) = false ∧
      ((∃ goal, db.goal? config.chainId goalId = some goal ∧
          db' = db.mapGoal goal.id (·.recreate draft slug facts) ∧ id = goal.id) ∨
        db.goal? config.chainId goalId = none ∧
          db' = { db with
            goals := db.goals ++ [.fresh config.chainId db.nextId goalId draft slug facts]
            nextId := db.nextId + 1 } ∧ id = db.nextId) := by
  have hput : upsertGoal config db goalId draft slug facts = .ok (db', id) ↔
      ∃ goals nextId, putGoal config.chainId goalId draft slug facts db.goals db.nextId =
        some (goals, nextId, id) ∧ db' = { db with goals := goals, nextId := nextId } := by
    unfold upsertGoal
    cases putGoal config.chainId goalId draft slug facts db.goals db.nextId with
    | none => simp only [reduceCtorEq, false_and, exists_false]
    | some put =>
      obtain ⟨goals, nextId, id'⟩ := put
      simp only [Except.ok.injEq, Prod.mk.injEq, Option.some.injEq]
      constructor
      · rintro ⟨rfl, rfl⟩
        exact ⟨goals, nextId, ⟨rfl, rfl, rfl⟩, rfl⟩
      · rintro ⟨_, _, ⟨rfl, rfl, rfl⟩, rfl⟩
        exact ⟨rfl, rfl⟩
  rw [hput]
  simp only [putGoal_some]
  constructor
  · rintro ⟨_, _, ⟨hslug, ⟨goal, hgoal, rfl, rfl, rfl⟩ | ⟨hnone, rfl, rfl, rfl⟩⟩, rfl⟩
    · exact ⟨hslug, .inl ⟨goal, hgoal, rfl, rfl⟩⟩
    · exact ⟨hslug, .inr ⟨hnone, rfl, rfl⟩⟩
  · rintro ⟨hslug, ⟨goal, hgoal, rfl, rfl⟩ | ⟨hnone, rfl, rfl⟩⟩
    · exact ⟨_, _, ⟨hslug, .inl ⟨goal, hgoal, rfl, rfl, rfl⟩⟩, rfl⟩
    · exact ⟨_, _, ⟨hslug, .inr ⟨hnone, rfl, rfl, rfl⟩⟩, rfl⟩

variable {ext : External}

/-- **A goal is created**: its row is new, or it is there without its projection. -/
theorem handleGoalCreated_ok {goalId : Hash} {creator recipient : Address}
    {preTarget usdcTarget deadline : ℕ} {title description metadataURI : Text}
    {r : Option MetadataRefresh} :
    handleGoalCreated config ext event goalId creator recipient preTarget usdcTarget deadline
      title description metadataURI db = .ok (db', r) ↔
    ∃ deadline' occurredAt db₁ id, date deadline = .ok deadline' ∧
      date event.blockTimestamp = .ok occurredAt ∧
      upsertGoal config db goalId (db.draft? goalId)
        (goalSlug config.chainId (db.draft? goalId) goalId (ext.slugFor title goalId) db.goals)
        (.created event creator recipient preTarget usdcTarget deadline' occurredAt title
          description metadataURI) = .ok (db₁, id) ∧
      db' = publishDraft db₁ (db.draft? goalId) ∧ r = some ⟨id, metadataURI⟩ := by
  unfold handleGoalCreated
  simp only [bind_ok, pure_ok, Prod.mk.injEq]
  constructor
  · rintro ⟨deadline', hdeadline, occurredAt, hat, ⟨db₁, id⟩, hup, hdb, hr⟩
    exact ⟨deadline', occurredAt, db₁, id, hdeadline, hat, hup, hdb.symm, hr.symm⟩
  · rintro ⟨deadline', occurredAt, db₁, id, hdeadline, hat, hup, hdb, hr⟩
    exact ⟨deadline', hdeadline, occurredAt, hat, (db₁, id), hup, hdb.symm, hr.symm⟩

/-! ### Authorities and profiles -/

/-- A profile changes, and a user may be created. -/
theorem upsertProfile_eq (config : Deployment) (db : Database) (account : Address)
    (facts : ProfileFacts) :
    ∃ users profiles nextId, db.nextId ≤ nextId ∧ upsertProfile config db account facts =
      { db with users := users, profiles := profiles, nextId := nextId } := by
  obtain ⟨users, nextId, hnext, huser⟩ := db.upsertUser_eq account
  unfold upsertProfile
  simp only [huser]
  split_ifs
  · exact ⟨users, _, nextId, hnext, rfl⟩
  · exact ⟨users, _, nextId, hnext, rfl⟩

/-! ### Every event -/

/-- **What an event does**, by its kind. -/
inductive Handled (config : Deployment) (ext : External) (event : DecodedEscrowEvent)
    (db : Database) : Database → Prop where
  /-- An event of the whole contract. -/
  | contract {users : List User} {profiles : List SponsorProfile}
      {authorities : List ChainAuthority} {nextId : Id} :
      event.event.goalId? = none → db.nextId ≤ nextId →
      Handled config ext event db
        { db with
          users := users
          profiles := profiles
          authorities := authorities
          nextId := nextId }
  /-- A goal is created. -/
  | created {goalId : Hash} {creator recipient payoutRecipient : Address}
      {preTarget usdcTarget deadline : ℕ} {title description metadataURI : Text} {db' : Database}
      {r : Option MetadataRefresh} :
      event.event = .goalCreated goalId creator recipient payoutRecipient preTarget usdcTarget
        deadline title description metadataURI →
      handleGoalCreated config ext event goalId creator recipient preTarget usdcTarget deadline
        title description metadataURI db = .ok (db', r) → Handled config ext event db db'
  /-- An event of a goal. -/
  | goal {goal : FundingGoal} {goalId : Hash} {db' : Database} :
      event.event.goalId? = some goalId → db.goal? config.chainId goalId = some goal →
      event.event.isCreated = false → handleGoalEvent config event goal db = .ok db' →
      Handled config ext event db db'

theorem handled_of_ok {r : Option MetadataRefresh}
    (h : handleDecodedEscrowEvent config ext event db = .ok (db', r)) :
    Handled config ext event db db' := by
  obtain ⟨event, blockNumber, blockHash, blockTimestamp, txHash, logIndex⟩ := event
  have hgoal : ∀ goalId goal, event.goalId? = some goalId → event.isCreated = false →
      db.goal? config.chainId goalId = some goal →
      (handleGoalEvent config ⟨event, blockNumber, blockHash, blockTimestamp, txHash, logIndex⟩
        goal db).map (fun db => (db, (none : Option MetadataRefresh))) = .ok (db', r) →
      Handled config ext ⟨event, blockNumber, blockHash, blockTimestamp, txHash, logIndex⟩
        db db' := by
    intro goalId goal hid hcreated hfound h
    cases hhandled : handleGoalEvent config
        ⟨event, blockNumber, blockHash, blockTimestamp, txHash, logIndex⟩ goal db with
    | error e => simp [hhandled, Except.map] at h
    | ok db₁ =>
      obtain ⟨rfl, -⟩ : db₁ = db' ∧ none = r := by simpa [hhandled, Except.map] using h
      exact .goal hid hfound hcreated hhandled
  have hcontract : ∀ authorities profiles, event.goalId? = none → Handled config ext
      ⟨event, blockNumber, blockHash, blockTimestamp, txHash, logIndex⟩ db
      { db with profiles := profiles, authorities := authorities } := fun _ _ hid =>
    .contract hid (Nat.le_refl _)
  unfold handleDecodedEscrowEvent at h
  cases event with
  | goalCreated => exact .created rfl h
  | monthlyGoalCreated | contributionReceived | monthlySurplusPolicyUpdated
  | monthlyGoalStopRequested | monthlyPeriodSettled | monthlyTokenSettled | goalClosed
  | goalCancelled | monthlyGoalCancelled | expenseReleased | cancelledFundsReleased
  | goalPayoutUpdated =>
    simp only at h
    split at h
    · cases h
    · exact hgoal _ _ rfl rfl ‹_› h
  | goalManagerUpdated | ownershipTransferStarted | ownershipTransferred =>
    obtain ⟨rfl, -⟩ := Prod.mk.inj (Except.ok.inj h)
    exact hcontract _ _ rfl
  | profileUpdated account revision displayName websiteUrl bio avatarURI defaultPublic =>
    simp only at h
    split_ifs at h
    · obtain ⟨users, profiles, nextId, hnext, heq⟩ := upsertProfile_eq config db account
        (.updated ext _ revision displayName websiteUrl bio avatarURI defaultPublic)
      rw [heq] at h
      obtain ⟨rfl, -⟩ := Prod.mk.inj (Except.ok.inj h)
      exact .contract rfl hnext
    · obtain ⟨rfl, -⟩ := Prod.mk.inj (Except.ok.inj h)
      exact hcontract _ _ rfl
  | profileCleared account revision =>
    obtain ⟨users, profiles, nextId, hnext, heq⟩ := upsertProfile_eq config db account
      (.cleared ⟨.profileCleared account revision, blockNumber, blockHash, blockTimestamp, txHash,
        logIndex⟩ revision)
    simp only [heq] at h
    obtain ⟨rfl, -⟩ := Prod.mk.inj (Except.ok.inj h)
    exact .contract rfl hnext
  | treasuryPayoutUpdated | excessTokenRecovered | maxOpenGoalsPerManagerUpdated | paused
  | unpaused => simp [EscrowEvent.goalId?] at h

end

end Escrow

end PreCommunity
