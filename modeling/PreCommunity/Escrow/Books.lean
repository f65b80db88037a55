import PreCommunity.Escrow.Handlers

/-!
# The book of a goal

What the events of one goal make of it, without the ids and the tables: its facts, its periods and
its contributions.  The book is an abstract model; that the handlers keep it is proved elsewhere.

* `Book` : the facts, the periods and the contributions of a goal.
* `Book.apply` : the book after an event.
* `Book.run` : the book after a list of events.
* `Book.follows_of_apply` : what an event leaves.
-/

namespace PreCommunity

namespace Escrow

open Store

/-! ### Checks -/

section Checks

variable {ε α β : Type} {e : ε} {b : β}

theorem bind_ok {x : Except ε α} {f : α → Except ε β} :
    (x >>= f) = .ok b ↔ ∃ a, x = .ok a ∧ f a = .ok b := by
  cases x with
  | error e => simp [bind, Except.bind]
  | ok a => simp [bind, Except.bind]

theorem guard_ok {c : Prop} [Decidable c] {f : PUnit → Except ε β} :
    (if c then (throw e : Except ε PUnit) >>= f else f ⟨⟩) = .ok b ↔ ¬c ∧ f ⟨⟩ = .ok b := by
  by_cases h : c
  · simp [h, throw, throwThe, MonadExceptOf.throw, bind, Except.bind]
  · simp [h]

theorem pure_ok {a : β} : (pure a : Except ε β) = .ok b ↔ a = b := by simp [pure, Except.pure]

theorem throw_ok : (throw e : Except ε β) = .ok b ↔ False := by
  simp [throw, throwThe, MonadExceptOf.throw]

end Checks

/-! ### The facts of a goal -/

namespace GoalFacts

variable (facts : GoalFacts)

/-- A goal becomes monthly. -/
def monthly (policy : MonthlySurplusPolicy) (settlementDay : ℕ) (startsAt endsAt : Time) :
    GoalFacts :=
  { facts with
    goalType := .monthly
    monthlySurplusPolicy := some policy
    monthlyFirstSettlementAt := some endsAt
    monthlySettlementDay := some settlementDay
    monthStart := startsAt
    deadline := endsAt }

/-- Another surplus policy. -/
def withPolicy (policy : MonthlySurplusPolicy) : GoalFacts :=
  { facts with monthlySurplusPolicy := some policy }

/-- The goal is to stop. -/
def stop (occurredAt : Time) : GoalFacts := { facts with monthlyStopRequestedAt := some occurredAt }

/-- A period is settled. -/
def settled (periodIndex : ℕ) (deadline : Time) : GoalFacts :=
  { facts with monthlyPeriodsSettled := periodIndex, deadline := deadline }

/-- A token of a period is settled. -/
def settleToken (asset : FundingAsset) (recipientEntitlementAdded carryOut : ℕ) : GoalFacts :=
  { facts with
    carryRaw := facts.carryRaw.set asset carryOut
    recipientEntitlementRaw :=
      facts.recipientEntitlementRaw.addRaw asset recipientEntitlementAdded }

/-- The goal is closed. -/
def close (occurredAt : Time) (entitlement : Amounts) : GoalFacts :=
  { facts with
    status := .closed
    closedAt := some occurredAt
    recipientEntitlementRaw := entitlement }

/-- The goal is cancelled; what a one-time goal has received goes to the treasury. -/
def cancel (occurredAt : Time) (contributed : Amounts) : GoalFacts :=
  { facts with
    status := .cancelled
    closedAt := some occurredAt
    treasuryEntitlementRaw :=
      if facts.goalType = .oneTime then contributed else facts.treasuryEntitlementRaw }

/-- A monthly goal is cancelled. -/
def cancelMonthly (preAdded usdcAdded : ℕ) : GoalFacts :=
  { facts with
    treasuryEntitlementRaw :=
      ⟨facts.treasuryEntitlementRaw.pre + preAdded, facts.treasuryEntitlementRaw.usdc + usdcAdded⟩
    carryRaw := .zero }

end GoalFacts

/-! ### The facts of a period -/

namespace PeriodFacts

/-- A period that is not settled. -/
def new (periodIndex : ℕ) (startsAt endsAt : Time) (surplusPolicy : MonthlySurplusPolicy) :
    PeriodFacts where
  periodIndex := periodIndex
  startsAt := startsAt
  endsAt := endsAt
  surplusPolicy := surplusPolicy
  finalPeriod := false
  contributedRaw := .zero
  carryInRaw := .zero
  recipientEntitlementAddedRaw := .zero
  carryOutRaw := .zero
  settlementTxHash := none
  settlementBlock := none
  settlementBlockHash := none
  settlementLogIndex := none
  settledAt := none

variable (facts : PeriodFacts)

/-- Other dates and another policy. -/
def reschedule (startsAt endsAt : Time) (surplusPolicy : MonthlySurplusPolicy) : PeriodFacts :=
  { facts with startsAt := startsAt, endsAt := endsAt, surplusPolicy := surplusPolicy }

/-- Another surplus policy. -/
def withPolicy (surplusPolicy : MonthlySurplusPolicy) : PeriodFacts :=
  { facts with surplusPolicy := surplusPolicy }

/-- The period is settled. -/
def settle (event : DecodedEscrowEvent) (startsAt endsAt : Time)
    (surplusPolicy : MonthlySurplusPolicy) (finalPeriod : Bool) (occurredAt : Time) : PeriodFacts :=
  { facts with
    startsAt := startsAt
    endsAt := endsAt
    surplusPolicy := surplusPolicy
    finalPeriod := finalPeriod
    settlementTxHash := some event.txHash
    settlementBlock := some event.blockNumber
    settlementBlockHash := some event.blockHash
    settlementLogIndex := some event.logIndex
    settledAt := some occurredAt }

/-- A token of the period is settled. -/
def settleToken (asset : FundingAsset)
    (periodContributed carryIn recipientEntitlementAdded carryOut : ℕ) : PeriodFacts :=
  { facts with
    contributedRaw := facts.contributedRaw.set asset periodContributed
    carryInRaw := facts.carryInRaw.set asset carryIn
    recipientEntitlementAddedRaw :=
      facts.recipientEntitlementAddedRaw.set asset recipientEntitlementAdded
    carryOutRaw := facts.carryOutRaw.set asset carryOut }

/-- What the previous period leaves. -/
def withCarryIn (asset : FundingAsset) (carryIn : ℕ) : PeriodFacts :=
  { facts with carryInRaw := facts.carryInRaw.set asset carryIn }

/-- A contribution to the period. -/
def contribute (asset : FundingAsset) (amount : ℕ) : PeriodFacts :=
  { facts with contributedRaw := facts.contributedRaw.addRaw asset amount }

end PeriodFacts

/-! ### Books -/

/-- The book of a goal. -/
structure Book where
  facts : GoalFacts
  periods : List PeriodFacts
  contributions : List ContributionFacts
deriving DecidableEq, Repr

namespace Book

variable (b : Book)

/-- The period with an index. -/
def period? (periodIndex : ℕ) : Option PeriodFacts :=
  b.periods.find? fun row => row.periodIndex = periodIndex

/-- Change a period. -/
def mapPeriod (periodIndex : ℕ) (f : PeriodFacts → PeriodFacts) : Book :=
  { b with periods := updateWhere (fun row => row.periodIndex = periodIndex) f b.periods }

/-- Change a period that is not settled. -/
def mapUnsettled (periodIndex : ℕ) (f : PeriodFacts → PeriodFacts) : Book :=
  { b with
    periods := updateWhere (fun row => row.periodIndex = periodIndex ∧ row.settledAt = none) f
      b.periods }

/-- Change a period, or open it. -/
def upsertPeriod (row : PeriodFacts) (f : PeriodFacts → PeriodFacts) : Book :=
  { b with periods := upsert (fun row' => row'.periodIndex = row.periodIndex) f row b.periods }

/-- What was contributed in one token. -/
def contributed (asset : FundingAsset) : ℕ :=
  total (fun row => row.asset = asset) (·.amountRaw) b.contributions

/-- What was contributed. -/
def contributedRaw : Amounts := ⟨b.contributed .pre, b.contributed .usdc⟩

/-- The facts of a contribution. -/
def contribution (config : Deployment) (event : DecodedEscrowEvent) (contributor : Address)
    (asset : FundingAsset) (amount : ℕ) (profileVisible : Bool) (confirmedAt : Time) :
    ContributionFacts where
  chainId := config.chainId
  txHash := event.txHash
  logIndex := event.logIndex
  blockNumber := event.blockNumber
  blockHash := event.blockHash
  contributor := contributor
  asset := asset
  amountRaw := amount
  visibility := visibilityForContribution profileVisible
  confirmedAt := confirmedAt

/-- A monthly goal has got its first period. -/
def monthlyGoalCreated (periodStart periodEnd settlementDay surplusPolicy : ℕ) :
    Except Failure Book := do
  if settlementDay < 1 ∨ settlementDay > 31 then
    throw (.unsupportedSettlementDay settlementDay)
  let policy ← monthlyPolicyFor surplusPolicy
  let startsAt ← date periodStart
  let endsAt ← date periodEnd
  let b := { b with facts := b.facts.monthly policy settlementDay startsAt endsAt }
  return b.upsertPeriod (.new 1 startsAt endsAt policy) (·.reschedule startsAt endsAt policy)

/-- A contribution counts for the open period of a monthly goal. -/
def contributionReceived (config : Deployment) (event : DecodedEscrowEvent)
    (contributor token : Address) (amount : ℕ) (profileVisible : Bool) : Except Failure Book := do
  let asset ← assetFor config token
  let confirmedAt ← date event.blockTimestamp
  let row := contribution config event contributor asset amount profileVisible confirmedAt
  let b := { b with contributions := b.contributions ++ [row] }
  if b.facts.goalType = .monthly then
    let periodIndex := b.facts.monthlyPeriodsSettled + 1
    match b.period? periodIndex with
    | none => throw (.noOpenPeriod periodIndex)
    | some _ => return b.mapPeriod periodIndex (·.contribute asset amount)
  else return b

/-- The surplus policy of the goal and of its open period. -/
def surplusPolicyUpdated (newPolicy : ℕ) : Except Failure Book := do
  let policy ← monthlyPolicyFor newPolicy
  return { b with facts := b.facts.withPolicy policy }.mapUnsettled
    (b.facts.monthlyPeriodsSettled + 1) (·.withPolicy policy)

/-- A period is settled, and the next one opens unless it was the last one. -/
def periodSettled (event : DecodedEscrowEvent)
    (periodIndex periodStart periodEnd surplusPolicy : ℕ) (finalPeriod : Bool) :
    Except Failure Book := do
  match b.facts.monthlySettlementDay with
  | none => throw .other
  | some settlementDay =>
    if settlementDay < 1 ∨ settlementDay > 31 then throw .other
    let policy ← monthlyPolicyFor surplusPolicy
    let startsAt ← date periodStart
    let endsAt ← date periodEnd
    let occurredAt ← date event.blockTimestamp
    let settle := (·.settle event startsAt endsAt policy finalPeriod occurredAt)
    let b := b.upsertPeriod (settle (.new periodIndex startsAt endsAt policy)) settle
    let nextEnd ← nextEnd finalPeriod endsAt settlementDay
    let b := { b with
      facts := b.facts.settled periodIndex (if finalPeriod then b.facts.deadline else nextEnd) }
    if finalPeriod then return b
    else return b.upsertPeriod (.new (periodIndex + 1) endsAt nextEnd policy) id

/-- A token of a period is settled. -/
def tokenSettled (config : Deployment) (periodIndex : ℕ) (token : Address)
    (periodContributed carryIn recipientEntitlementAdded carryOut : ℕ) : Except Failure Book := do
  let asset ← assetFor config token
  if (b.period? periodIndex).isNone then throw .recordNotFound
  let b := (b.mapPeriod periodIndex
    (·.settleToken asset periodContributed carryIn recipientEntitlementAdded carryOut)).mapUnsettled
      (periodIndex + 1) (·.withCarryIn asset carryOut)
  return { b with facts := b.facts.settleToken asset recipientEntitlementAdded carryOut }

/-- Change the facts at the time of an event. -/
def dated (event : DecodedEscrowEvent) (f : Time → GoalFacts) : Except Failure Book := do
  let occurredAt ← date event.blockTimestamp
  return { b with facts := f occurredAt }

/-- The book after an event of its goal. -/
def apply (config : Deployment) (event : DecodedEscrowEvent) : Except Failure Book :=
  match event.event with
  | .monthlyGoalCreated _ periodStart periodEnd settlementDay surplusPolicy =>
    b.monthlyGoalCreated periodStart periodEnd settlementDay surplusPolicy
  | .contributionReceived _ contributor token amount profileVisible =>
    b.contributionReceived config event contributor token amount profileVisible
  | .monthlySurplusPolicyUpdated _ _ newPolicy => b.surplusPolicyUpdated newPolicy
  | .monthlyGoalStopRequested _ _ => b.dated event b.facts.stop
  | .monthlyPeriodSettled _ periodIndex periodStart periodEnd surplusPolicy finalPeriod =>
    b.periodSettled event periodIndex periodStart periodEnd surplusPolicy finalPeriod
  | .monthlyTokenSettled _ periodIndex token periodContributed carryIn recipientEntitlementAdded
      carryOut =>
    b.tokenSettled config periodIndex token periodContributed carryIn recipientEntitlementAdded
      carryOut
  | .goalClosed _ pre usdc => b.dated event (b.facts.close · ⟨pre, usdc⟩)
  | .goalCancelled _ => b.dated event (b.facts.cancel · b.contributedRaw)
  | .monthlyGoalCancelled _ preAdded usdcAdded =>
    .ok { b with facts := b.facts.cancelMonthly preAdded usdcAdded }
  | _ => .ok b

/-- The book after a list of events of its goal. -/
def run (config : Deployment) (b : Book) (events : List DecodedEscrowEvent) : Except Failure Book :=
  events.foldlM (·.apply config) b

variable {b} {b' : Book} {config : Deployment} {event : DecodedEscrowEvent}

/-- Every period has one entry. -/
def Sound (b : Book) : Prop := Keyed (·.periodIndex) b.periods

theorem Sound.mapPeriod (h : b.Sound) (periodIndex : ℕ) {f : PeriodFacts → PeriodFacts}
    (hf : ∀ row, (f row).periodIndex = row.periodIndex) : (b.mapPeriod periodIndex f).Sound :=
  Keyed.updateWhere h hf

theorem Sound.mapUnsettled (h : b.Sound) (periodIndex : ℕ) {f : PeriodFacts → PeriodFacts}
    (hf : ∀ row, (f row).periodIndex = row.periodIndex) : (b.mapUnsettled periodIndex f).Sound :=
  Keyed.updateWhere h hf

theorem Sound.upsertPeriod (h : b.Sound) (row : PeriodFacts) {f : PeriodFacts → PeriodFacts}
    (hf : ∀ row, (f row).periodIndex = row.periodIndex) : (b.upsertPeriod row f).Sound :=
  Keyed.upsert h hf

theorem sound_of_periods (h : b.Sound) (hperiods : b'.periods = b.periods) : b'.Sound := by
  unfold Sound
  rwa [hperiods]

/-- What an event of a goal never changes. -/
structure Follows (b b' : Book) : Prop where
  creation : b'.facts.creationTxHash = b.facts.creationTxHash
  sound : b.Sound → b'.Sound

/-- **An event** leaves one entry for every period, and how the goal came to be. -/
theorem follows_of_apply (h : b.apply config event = .ok b') : b.Follows b' := by
  obtain ⟨event, blockNumber, blockHash, blockTimestamp, txHash, logIndex⟩ := event
  unfold apply at h
  cases event with
  | monthlyGoalCreated =>
    simp only [monthlyGoalCreated, guard_ok, bind_ok, pure_ok] at h
    obtain ⟨-, policy, -, startsAt, -, endsAt, -, rfl⟩ := h
    exact ⟨rfl, fun hb => (sound_of_periods hb rfl).upsertPeriod _ fun _ => rfl⟩
  | contributionReceived =>
    simp only [contributionReceived, bind_ok] at h
    obtain ⟨asset, -, confirmedAt, -, h⟩ := h
    split_ifs at h
    · split at h
      · simp [throw_ok] at h
      · obtain rfl := pure_ok.1 h
        exact ⟨rfl, fun hb => (sound_of_periods hb rfl).mapPeriod _ fun _ => rfl⟩
    · obtain rfl := pure_ok.1 h
      exact ⟨rfl, fun hb => sound_of_periods hb rfl⟩
  | monthlySurplusPolicyUpdated =>
    simp only [surplusPolicyUpdated, bind_ok, pure_ok] at h
    obtain ⟨policy, -, rfl⟩ := h
    exact ⟨rfl, fun hb => (sound_of_periods hb rfl).mapUnsettled _ fun _ => rfl⟩
  | monthlyPeriodSettled _ _ _ _ _ finalPeriod =>
    simp only [periodSettled] at h
    split at h
    · simp [throw_ok] at h
    simp only [guard_ok, bind_ok] at h
    obtain ⟨-, policy, -, startsAt, -, endsAt, -, occurredAt, -, nextEnd, -, h⟩ := h
    cases finalPeriod with
    | true =>
      simp only [if_true, pure_ok] at h
      subst h
      refine ⟨rfl, fun hb => sound_of_periods (hb.upsertPeriod _ ?_) rfl⟩
      exact fun _ => rfl
    | false =>
      simp only [Bool.false_eq_true, if_false, pure_ok] at h
      subst h
      refine ⟨rfl, fun hb => Sound.upsertPeriod ?_ _ fun _ => rfl⟩
      refine sound_of_periods (hb.upsertPeriod _ ?_) rfl
      exact fun _ => rfl
  | monthlyTokenSettled =>
    simp only [tokenSettled, guard_ok, bind_ok, pure_ok] at h
    obtain ⟨asset, -, -, rfl⟩ := h
    refine ⟨rfl, fun hb => sound_of_periods (Sound.mapUnsettled (hb.mapPeriod _ ?_) _ ?_) rfl⟩
    · exact fun _ => rfl
    · exact fun _ => rfl
  | monthlyGoalStopRequested | goalClosed | goalCancelled =>
    simp only [dated, bind_ok, pure_ok] at h
    obtain ⟨occurredAt, -, rfl⟩ := h
    exact ⟨rfl, fun hb => sound_of_periods hb rfl⟩
  | _ =>
    obtain rfl := Except.ok.inj h
    exact ⟨rfl, fun hb => sound_of_periods hb rfl⟩

end Book

end Escrow

end PreCommunity
