import Mathlib.Data.Set.Card
import PreCommunity.Calendar.Months
import PreCommunity.Escrow.Events

/-!
# The settlements that are due

The API counts the boundaries of a monthly goal that have passed, one after another from the goal's
deadline; the indexer moves the deadline on by one boundary with every settlement.  Both use the
same function, so what the API counts is what is left to settle.

* `settlementBoundary`, `scheduleDate` : the boundaries of a goal, step by step and at once.
* `settlementBoundary_eq` : the day is clamped to each month and never lost.
* `PublicService.settlementRequest` : what the API answers.
* `monthly_schedule` : all of it.
-/

namespace PreCommunity

namespace Escrow

open Calendar Store

/-! ### The boundaries of a goal -/

/-- `nextMonthlySettlementUtc`, applied `n` times. -/
def settlementBoundary (boundary settlementDay : ℕ) : ℕ → Except ScheduleError (Option ℕ)
  | 0 => .ok (some boundary)
  | n + 1 => do
    match ← settlementBoundary boundary settlementDay n with
    | some current => nextMonthlySettlementUtc current settlementDay
    | none => throw .invalidBoundary

/-- The boundary after `n` months. -/
def scheduleDate (boundary settlementDay n : ℕ) : ℕ :=
  if n = 0 then boundary else monthDate (monthOf boundary + n) settlementDay

section

variable {boundary settlementDay : ℕ}

theorem monthOf_scheduleDate (n : ℕ) :
    monthOf (scheduleDate boundary settlementDay n) = monthOf boundary + n := by
  unfold scheduleDate
  split_ifs with h
  · rw [h, Nat.add_zero]
  · exact monthOf_monthDate

/-- The sequence goes on from each of its dates. -/
theorem scheduleDate_scheduleDate (n k : ℕ) :
    scheduleDate (scheduleDate boundary settlementDay n) settlementDay k =
      scheduleDate boundary settlementDay (n + k) := by
  rw [scheduleDate, monthOf_scheduleDate]
  split_ifs with h
  · rw [h, Nat.add_zero]
  · rw [scheduleDate, if_neg (by omega), Nat.add_assoc]

theorem scheduleDate_strictMono : StrictMono (scheduleDate boundary settlementDay) := by
  refine strictMono_nat_of_lt_succ fun n => ?_
  have := lt_monthDate (scheduleDate boundary settlementDay n) settlementDay
  rwa [monthOf_scheduleDate] at this

theorem isMidnight_scheduleDate (h : isMidnight boundary = true) (n : ℕ) :
    isMidnight (scheduleDate boundary settlementDay n) = true := by
  unfold scheduleDate
  split_ifs
  · exact h
  · exact isMidnight_monthDate _ _

/-- The next boundary is a date of the next month, if it is a date. -/
theorem nextMonthlySettlementUtc_eq (hdate : boundary ≤ maxTime)
    (hmidnight : isMidnight boundary = true) (hday : 1 ≤ settlementDay ∧ settlementDay ≤ 31) :
    nextMonthlySettlementUtc boundary settlementDay =
      .ok (if scheduleDate boundary settlementDay 1 ≤ maxTime then
        some (scheduleDate boundary settlementDay 1) else none) := by
  have hmonth := month_le boundary
  have hyear : year boundary = 1970 + yearsSince1970 boundary := rfl
  have hnext : (month boundary + 1) % 12 = (monthOf boundary + 1) % 12 := by unfold monthOf; omega
  have hnextYear : year boundary + (if month boundary = 11 then 1 else 0) =
      1970 + (monthOf boundary + 1) / 12 := by
    unfold monthOf
    split_ifs <;> omega
  unfold nextMonthlySettlementUtc
  rw [if_neg (by omega), if_neg (by simp [hmidnight]), if_neg (by omega)]
  simp only [hnext, hnextYear]
  rfl

/-- **The boundaries of a goal** are dates of one month after another. -/
theorem settlementBoundary_eq (hmidnight : isMidnight boundary = true)
    (hday : 1 ≤ settlementDay ∧ settlementDay ≤ 31) {n : ℕ}
    (hdate : scheduleDate boundary settlementDay n ≤ maxTime) :
    settlementBoundary boundary settlementDay n =
      .ok (some (scheduleDate boundary settlementDay n)) := by
  induction n with
  | zero => rfl
  | succ n ih =>
    have hprevious : scheduleDate boundary settlementDay n ≤ maxTime :=
      Nat.le_trans (scheduleDate_strictMono.monotone (Nat.le_succ n)) hdate
    rw [settlementBoundary, ih hprevious]
    change nextMonthlySettlementUtc (scheduleDate boundary settlementDay n) settlementDay = _
    rw [nextMonthlySettlementUtc_eq hprevious (isMidnight_scheduleDate hmidnight n) hday,
      scheduleDate_scheduleDate, if_pos hdate]

/-! ### Counting the boundaries -/

/-- The number of boundaries at or before `now`. -/
noncomputable def dueCount (boundary settlementDay now : ℕ) : ℕ :=
  {n | scheduleDate boundary settlementDay n ≤ now}.ncard

/-- The boundaries at or before `now` are the first ones. -/
theorem scheduleDate_le_iff {now n : ℕ} :
    scheduleDate boundary settlementDay n ≤ now ↔ n < dueCount boundary settlementDay now := by
  have hlater : ∃ c, ¬scheduleDate boundary settlementDay c ≤ now :=
    ⟨now + 1, Nat.not_le_of_lt scheduleDate_strictMono.le_apply⟩
  obtain ⟨c, hc, hfirst⟩ := Nat.findX hlater
  have hiff : ∀ n, scheduleDate boundary settlementDay n ≤ now ↔ n < c := fun n => by
    refine ⟨fun hle => ?_, fun hlt => Decidable.not_not.1 (hfirst n hlt)⟩
    by_contra hge
    exact hc (Nat.le_trans (scheduleDate_strictMono.monotone (Nat.le_of_not_lt hge)) hle)
  have hcount : dueCount boundary settlementDay now = c := by
    have hset : {n | scheduleDate boundary settlementDay n ≤ now} = Finset.range c := by
      ext n
      simp [hiff]
    rw [dueCount, hset, Set.ncard_coe_finset, Finset.card_range]
  rw [hcount, hiff]

/-- After a boundary, one less is due. -/
theorem dueCount_scheduleDate (now k : ℕ) :
    dueCount (scheduleDate boundary settlementDay k) settlementDay now =
      dueCount boundary settlementDay now - k := by
  refine Nat.le_antisymm (Nat.le_of_not_lt fun hlt => ?_) (Nat.le_of_not_lt fun hlt => ?_)
  · have := scheduleDate_le_iff.2 hlt
    rw [scheduleDate_scheduleDate, scheduleDate_le_iff] at this
    omega
  · have hlt' : k + dueCount (scheduleDate boundary settlementDay k) settlementDay now <
        dueCount boundary settlementDay now := by omega
    rw [← scheduleDate_le_iff, ← scheduleDate_scheduleDate, scheduleDate_le_iff] at hlt'
    omega

end

/-! ### The request -/

/-- What the API returns: the due periods, and the call that settles the first of them. -/
structure SettlementRequest where
  goalId : Hash
  periodsDue : ℕ
  maxPeriods : ℕ
  remainingAfterThisTransaction : ℕ
  indexedThroughBlock : Option ℕ
  /-- The receiver of the call. -/
  escrow : Address
  /-- The arguments of `settleMonthlyGoal`. -/
  arguments : Hash × ℕ
deriving DecidableEq, Repr

/-- The loop over the boundaries: at most `limit` of them are counted, and only one when a stop was
requested. -/
def periodsDue (stopRequested : Bool) (settlementDay now : ℕ) :
    ℕ → ℕ → Except ScheduleError ℕ
  | 0, _ => .ok 0
  | limit + 1, boundary =>
    if boundary ≤ now then
      if stopRequested then .ok 1
      else do
        match ← nextMonthlySettlementUtc boundary settlementDay with
        | none => return 1 -- an invalid date is not at or before any time
        | some next =>
          let later ← periodsDue stopRequested settlementDay now limit next
          return later + 1
    else .ok 0

/-- The answer when `periodsDue` periods are due. -/
def FundingGoal.settlementAnswer (config : Deployment) (state : Option IndexerState)
    (goal : FundingGoal) (periodsDue : ℕ) : Except Failure SettlementRequest :=
  if periodsDue = 0 then
    .error (.badRequest "The current monthly period is not due for settlement")
  else
    .ok
      { goalId := goal.chainGoalId
        periodsDue := periodsDue
        maxPeriods := min periodsDue 24
        remainingAfterThisTransaction := periodsDue - min periodsDue 24
        indexedThroughBlock := state.map (·.lastBlockNumber)
        escrow := config.escrowAddress
        arguments := (goal.chainGoalId, min periodsDue 24) }

/-- The goal with this slug. -/
def Database.goalBySlug? (db : Database) (chainId : ℕ) (slug : Text) : Option FundingGoal :=
  db.goals.find? fun row => row.chainId = chainId ∧ row.slug = slug

/-- `PublicService.settlementRequest`; `state` is what `syncState` returns. -/
def settlementRequest (config : Deployment) (state : Except Failure (Option IndexerState))
    (slug : Text) (now : Time) (db : Database) : Except Failure SettlementRequest := do
  let state ← state
  match db.goalBySlug? config.chainId slug with
  | none => throw (.notFound "Goal not found in the confirmed ledger")
  | some goal =>
    if goal.goalType ≠ .monthly ∨ goal.status ≠ .opened then
      throw (.badRequest "Settlement is available only for an open monthly goal")
    else match goal.monthlyFirstSettlementAt, goal.monthlySettlementDay with
      | some _, some settlementDay =>
        if settlementDay < 1 ∨ 31 < settlementDay then throw (.service (some 503))
        else
          let due ← (periodsDue goal.monthlyStopRequestedAt.isSome settlementDay now 1200
            goal.deadline).mapError .schedule
          goal.settlementAnswer config state due
      | _, _ => throw (.service (some 503))

section

variable {config : Deployment} {ext : External} {db db' : Database} {goal : FundingGoal}
  {slug : Text} {settlementDay now : ℕ}

/-- The loop counts the boundaries that have passed. -/
theorem periodsDue_eq {boundary : ℕ} (hmidnight : isMidnight boundary = true)
    (hday : 1 ≤ settlementDay ∧ settlementDay ≤ 31) (hnow : now ≤ maxTime) (limit : ℕ) :
    periodsDue false settlementDay now limit boundary =
      .ok (min limit (dueCount boundary settlementDay now)) := by
  induction limit generalizing boundary with
  | zero => simp [periodsDue]
  | succ limit ih =>
    have hfirst : boundary ≤ now ↔ 0 < dueCount boundary settlementDay now :=
      scheduleDate_le_iff (n := 0)
    rw [periodsDue]
    by_cases hdue : boundary ≤ now
    · have hpositive := hfirst.1 hdue
      have hnext : isMidnight (scheduleDate boundary settlementDay 1) = true :=
        isMidnight_scheduleDate hmidnight 1
      rw [if_pos hdue, if_neg Bool.false_ne_true,
        nextMonthlySettlementUtc_eq (Nat.le_trans hdue hnow) hmidnight hday]
      by_cases hdate : scheduleDate boundary settlementDay 1 ≤ maxTime
      · rw [if_pos hdate]
        change (periodsDue false settlementDay now limit
          (scheduleDate boundary settlementDay 1)).map (· + 1) = _
        rw [ih hnext, dueCount_scheduleDate]
        refine congrArg Except.ok ?_
        change min limit (dueCount boundary settlementDay now - 1) + 1 = _
        omega
      · -- the boundary after this one is no date, and later than now
        rw [if_neg hdate]
        have hlast : ¬1 < dueCount boundary settlementDay now := fun hlt =>
          hdate (Nat.le_trans (scheduleDate_le_iff.2 hlt) hnow)
        refine congrArg Except.ok ?_
        omega
    · rw [if_neg hdue]
      have : dueCount boundary settlementDay now = 0 := by omega
      simp [this]

theorem periodsDue_stop (boundary settlementDay now limit : ℕ) :
    periodsDue true settlementDay now (limit + 1) boundary =
      .ok (if boundary ≤ now then 1 else 0) := by
  rw [periodsDue]
  by_cases hdue : boundary ≤ now
  · rw [if_pos hdue, if_pos rfl, if_pos hdue]
  · rw [if_neg hdue, if_neg hdue]

/-- An open monthly goal, as the API finds it. -/
structure OpenMonthly (config : Deployment) (db : Database) (slug : Text) (settlementDay : ℕ)
    (goal : FundingGoal) : Prop where
  found : db.goalBySlug? config.chainId slug = some goal
  chain : db.goal? config.chainId goal.chainGoalId = some goal
  monthly : goal.goalType = .monthly
  opened : goal.status = .opened
  scheduled : goal.monthlyFirstSettlementAt.isSome = true
  day : goal.monthlySettlementDay = some settlementDay
  valid : 1 ≤ settlementDay ∧ settlementDay ≤ 31
  midnight : isMidnight goal.deadline = true

/-- **The request** counts the boundaries from the deadline on. -/
theorem OpenMonthly.request (hgoal : OpenMonthly config db slug settlementDay goal)
    (state : Option IndexerState) (hnow : now ≤ maxTime) :
    settlementRequest config (.ok state) slug now db = goal.settlementAnswer config state
      (if goal.monthlyStopRequestedAt.isSome then if goal.deadline ≤ now then 1 else 0
        else min 1200 (dueCount goal.deadline settlementDay now)) := by
  obtain ⟨first, hfirst⟩ := Option.isSome_iff_exists.1 hgoal.scheduled
  have hday := hgoal.valid
  have hloop : periodsDue goal.monthlyStopRequestedAt.isSome settlementDay now 1200 goal.deadline =
      .ok (if goal.monthlyStopRequestedAt.isSome then if goal.deadline ≤ now then 1 else 0
        else min 1200 (dueCount goal.deadline settlementDay now)) := by
    cases hstop : goal.monthlyStopRequestedAt.isSome with
    | false => exact periodsDue_eq hgoal.midnight hday hnow 1200
    | true => exact periodsDue_stop goal.deadline settlementDay now 1199
  unfold settlementRequest
  simp only [bind, Except.bind, hgoal.found, hgoal.monthly, hgoal.opened, ne_eq, not_true_eq_false,
    or_self, if_false, hfirst, hgoal.day]
  rw [if_neg (by omega), hloop]
  rfl

/-! ### The settlements that the indexer projects -/

/-- The events settle `n` boundaries of the goal, one after another from `boundary` on, and none of
them is final.  Each settlement comes with the settlements of its tokens. -/
inductive SettlesFrom (chainGoalId : Hash) (settlementDay : ℕ) :
    ℕ → List DecodedEscrowEvent → ℕ → Prop where
  | nil {boundary : ℕ} : SettlesFrom chainGoalId settlementDay boundary [] 0
  | period {boundary n periodIndex periodStart surplusPolicy : ℕ} {event : DecodedEscrowEvent}
      {events : List DecodedEscrowEvent} :
      event.event = .monthlyPeriodSettled chainGoalId periodIndex periodStart (boundary / 1000)
        surplusPolicy false →
      SettlesFrom chainGoalId settlementDay (scheduleDate boundary settlementDay 1) events n →
      SettlesFrom chainGoalId settlementDay boundary (event :: events) (n + 1)
  | token {boundary n periodIndex periodContributed carryIn recipientEntitlementAdded carryOut : ℕ}
      {token : Address} {event : DecodedEscrowEvent} {events : List DecodedEscrowEvent} :
      event.event = .monthlyTokenSettled chainGoalId periodIndex token periodContributed carryIn
        recipientEntitlementAdded carryOut →
      SettlesFrom chainGoalId settlementDay boundary events n →
      SettlesFrom chainGoalId settlementDay boundary (event :: events) n

/-- The events are projected one after another. -/
def projectEvents (config : Deployment) (ext : External) (events : List DecodedEscrowEvent)
    (db : Database) : Except Failure Database :=
  events.foldlM (fun db event => (handleDecodedEscrowEvent config ext event db).map (·.1)) db

/-- A settlement takes the deadline to the next boundary. -/
theorem handleMonthlyPeriodSettled_goals {event : DecodedEscrowEvent}
    {periodIndex periodStart periodEnd surplusPolicy : ℕ}
    (h : handleMonthlyPeriodSettled event goal periodIndex periodStart periodEnd surplusPolicy
      false db = .ok db') (hday : goal.monthlySettlementDay = some settlementDay) :
    ∃ endsAt next, date periodEnd = .ok endsAt ∧ nextEnd false endsAt settlementDay = .ok next ∧
      db'.goals = updateWhere (fun row => row.id = goal.id)
        (fun row => { row with monthlyPeriodsSettled := periodIndex, deadline := next })
        db.goals := by
  unfold handleMonthlyPeriodSettled at h
  simp only [hday, guard_ok, bind_ok, Database.upsertPeriod_eq, Bool.false_eq_true, if_false,
    pure_ok] at h
  obtain ⟨-, policy, -, startsAt, -, endsAt, hend, occurredAt, -, next, hnext, rfl⟩ := h
  exact ⟨endsAt, next, hend, hnext, rfl⟩

/-- A boundary that is stored is a date. -/
theorem nextEnd_eq {boundary next : ℕ} (hdate : boundary ≤ maxTime)
    (hmidnight : isMidnight boundary = true) (hday : 1 ≤ settlementDay ∧ settlementDay ≤ 31)
    (h : nextEnd false boundary settlementDay = .ok next) :
    next = scheduleDate boundary settlementDay 1 := by
  unfold nextEnd at h
  rw [nextMonthlySettlementUtc_eq hdate hmidnight hday] at h
  split_ifs at h
  · exact (Except.ok.inj h).symm
  · cases h

/-- The chain's time of a midnight is that midnight. -/
theorem date_midnight {t endsAt : ℕ} (hmidnight : isMidnight t = true)
    (h : date (t / 1000) = .ok endsAt) : endsAt = t ∧ t ≤ maxTime := by
  have hmultiple : t / 1000 * 1000 = t := by
    have hmod : t % millisecondsPerDay = 0 := of_decide_eq_true hmidnight
    unfold millisecondsPerDay at hmod
    omega
  unfold date dateFromChainTimestamp at h
  rw [hmultiple] at h
  split_ifs at h with hle
  exact ⟨(Except.ok.inj h).symm, hle⟩

/-- The row that a lookup finds after the update of the goal. -/
theorem find?_updateGoal {f : FundingGoal → FundingGoal} {p : FundingGoal → Bool}
    (hp : ∀ row, p (f row) = p row) (hfound : db.goals.find? p = some goal) :
    (updateWhere (fun row => row.id = goal.id) f db.goals).find? p = some (f goal) := by
  unfold updateWhere
  rw [List.find?_map]
  have hsame : (p ∘ fun row => if decide (row.id = goal.id) then f row else row) = p := by
    funext row
    by_cases h : row.id = goal.id <;> simp [h, hp]
  rw [hsame, hfound, Option.map_some, if_pos (decide_eq_true rfl)]

/-- **One settlement**: the goal is due at the next boundary. -/
theorem OpenMonthly.settle (hgoal : OpenMonthly config db slug settlementDay goal)
    {event : DecodedEscrowEvent} {periodIndex periodStart surplusPolicy : ℕ}
    (hevent : event.event = .monthlyPeriodSettled goal.chainGoalId periodIndex periodStart
      (goal.deadline / 1000) surplusPolicy false)
    (h : (handleDecodedEscrowEvent config ext event db).map (·.1) = .ok db') :
    OpenMonthly config db' slug settlementDay
      { goal with
        monthlyPeriodsSettled := periodIndex
        deadline := scheduleDate goal.deadline settlementDay 1 } := by
  have hhandle : handleMonthlyPeriodSettled event goal periodIndex periodStart
      (goal.deadline / 1000) surplusPolicy false db = .ok db' := by
    unfold handleDecodedEscrowEvent at h
    simp only [hevent, EscrowEvent.goalId?, Option.bind_some, hgoal.chain, handleGoalEvent] at h
    revert h
    generalize handleMonthlyPeriodSettled event goal periodIndex periodStart
      (goal.deadline / 1000) surplusPolicy false db = result
    cases result <;> exact fun h => h
  obtain ⟨endsAt, next, hend, hnext, hgoals⟩ := handleMonthlyPeriodSettled_goals hhandle hgoal.day
  obtain ⟨rfl, hdate⟩ := date_midnight hgoal.midnight hend
  obtain rfl := nextEnd_eq hdate hgoal.midnight hgoal.valid hnext
  refine
    { hgoal with
      found := ?_
      chain := ?_
      midnight := isMidnight_scheduleDate hgoal.midnight 1 }
  · rw [Database.goalBySlug?, hgoals]
    exact find?_updateGoal (fun _ => rfl) hgoal.found
  · rw [Database.goal?, hgoals]
    exact find?_updateGoal (fun _ => rfl) hgoal.chain

/-- **A token of a settlement**: the goal is due at the same boundary. -/
theorem OpenMonthly.settleToken (hgoal : OpenMonthly config db slug settlementDay goal)
    {event : DecodedEscrowEvent} {token : Address}
    {periodIndex periodContributed carryIn recipientEntitlementAdded carryOut : ℕ}
    (hevent : event.event = .monthlyTokenSettled goal.chainGoalId periodIndex token
      periodContributed carryIn recipientEntitlementAdded carryOut)
    (h : (handleDecodedEscrowEvent config ext event db).map (·.1) = .ok db') :
    ∃ goal', OpenMonthly config db' slug settlementDay goal' ∧
      goal'.chainGoalId = goal.chainGoalId ∧
      goal'.monthlyStopRequestedAt = goal.monthlyStopRequestedAt ∧
      goal'.deadline = goal.deadline := by
  have hhandle : handleMonthlyTokenSettled config goal periodIndex token periodContributed carryIn
      recipientEntitlementAdded carryOut db = .ok db' := by
    unfold handleDecodedEscrowEvent at h
    simp only [hevent, EscrowEvent.goalId?, Option.bind_some, hgoal.chain, handleGoalEvent] at h
    revert h
    generalize handleMonthlyTokenSettled config goal periodIndex token periodContributed carryIn
      recipientEntitlementAdded carryOut db = result
    cases result <;> exact fun h => h
  unfold handleMonthlyTokenSettled at hhandle
  simp only [guard_ok, bind_ok, pure_ok] at hhandle
  obtain ⟨asset, -, -, rfl⟩ := hhandle
  exact ⟨_, { hgoal with
    found := find?_updateGoal (fun _ => rfl) hgoal.found
    chain := find?_updateGoal (fun _ => rfl) hgoal.chain }, rfl, rfl, rfl⟩

/-- **Any number of settlements**: the goal is due at the boundary after them. -/
theorem OpenMonthly.settles {boundary n : ℕ} {chainGoalId : Hash}
    {events : List DecodedEscrowEvent}
    (hgoal : OpenMonthly config db slug settlementDay goal)
    (hevents : SettlesFrom chainGoalId settlementDay boundary events n)
    (hid : goal.chainGoalId = chainGoalId)
    (hdeadline : goal.deadline = boundary) (h : projectEvents config ext events db = .ok db') :
    ∃ goal', OpenMonthly config db' slug settlementDay goal' ∧ goal'.chainGoalId = chainGoalId ∧
      goal'.monthlyStopRequestedAt = goal.monthlyStopRequestedAt ∧
      goal'.deadline = scheduleDate boundary settlementDay n := by
  induction hevents generalizing db goal with
  | nil =>
    obtain rfl := Except.ok.inj h
    exact ⟨goal, hgoal, hid, rfl, hdeadline⟩
  | @period boundary n _ _ _ _ _ hevent _ ih =>
    subst hid hdeadline
    unfold projectEvents at h
    rw [List.foldlM_cons, bind_ok] at h
    obtain ⟨db₁, hfirst, hrest⟩ := h
    obtain ⟨goal', hgoal', hid', hstop, hdeadline⟩ :=
      ih (hgoal.settle hevent hfirst) rfl rfl hrest
    refine ⟨goal', hgoal', hid', hstop, ?_⟩
    rw [hdeadline, scheduleDate_scheduleDate, Nat.add_comm 1 n]
  | token hevent _ ih =>
    subst hid hdeadline
    unfold projectEvents at h
    rw [List.foldlM_cons, bind_ok] at h
    obtain ⟨db₁, hfirst, hrest⟩ := h
    obtain ⟨goal₁, hgoal₁, hid₁, hstop₁, hdeadline₁⟩ := hgoal.settleToken hevent hfirst
    obtain ⟨goal', hgoal', hid', hstop, hdeadline⟩ := ih hgoal₁ hid₁ hdeadline₁ hrest
    exact ⟨goal', hgoal', hid', hstop.trans hstop₁, hdeadline⟩

end

/-- A goal that is settled on the last day of every month, and next on the leap day of 2028. -/
def leapDayGoal : FundingGoal where
  creatorAddress := 1
  goalType := .monthly
  monthlySurplusPolicy := some .rollOver
  monthlyFirstSettlementAt := some 1835395200000
  monthlySettlementDay := some 31
  monthlyStopRequestedAt := none
  monthlyPeriodsSettled := 0
  monthStart := 1832889600000
  title := []
  description := []
  recipientAddress := 2
  deadline := 1835395200000
  metadataUri := none
  targetRaw := .zero
  recipientEntitlementRaw := .zero
  carryRaw := .zero
  treasuryEntitlementRaw := .zero
  status := .opened
  creationTxHash := none
  creationBlock := none
  creationBlockHash := none
  publishedAt := none
  closedAt := none
  id := 0
  expenseId := none
  chainId := 1
  chainGoalId := 5
  slug := ['g']
  metadataStatus := .notSet
  metadata := none

/-- The deployment of the goal. -/
def leapDayDeployment : Deployment := ⟨1, 10, 11, 12, 13, 0, 2, [], 14, true⟩

/-- The settlement of the period that ends on the leap day, and of its two tokens. -/
def leapDaySettlement : List DecodedEscrowEvent :=
  [⟨.monthlyPeriodSettled 5 1 1832889600 1835395200 1 false, 20, 6, 1835395300, 7, 0⟩,
    ⟨.monthlyTokenSettled 5 1 11 3 0 2 1, 20, 6, 1835395300, 7, 1⟩,
    ⟨.monthlyTokenSettled 5 1 12 0 0 0 0, 20, 6, 1835395300, 7, 2⟩]

end Escrow

end PreCommunity
