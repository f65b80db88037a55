import PreCommunity.Escrow.Transactions

/-!
# Which proposal an event belongs to

A release, a policy, a stop or a cancellation on the chain may be the execution of a proposal that
is still pending in the database.  The item that the Safe recorded under the event's transaction
comes first; the only item that can be meant comes next, if no execution of it is recorded.

* `attributed` : the rule.
* `matchedReservation_eq` : releases follow it.
* `confirmedProposal_eq` : lifecycle actions follow it unless their only proposal was executed by
  another transaction.
* `projection_attributes` : what the projection of an event does to the pending items.
-/

namespace PreCommunity

namespace Escrow

open Store

/-! ### The rule -/

section

variable {α : Type} {recorded : α → Option Hash} {items : List α} {txHash : Hash} {item : α}

/-- The item that the transaction `txHash` executed: the one it is recorded for, or the only one,
if no transaction is recorded for it. -/
def attributed (recorded : α → Option Hash) (items : List α) (txHash : Hash) : Option α :=
  match items.find? fun row => recorded row = some txHash, items with
  | some row, _ => some row
  | none, [row] => if recorded row = none then some row else none
  | none, _ => none

theorem attributed_of_find (h : items.find? (fun row => recorded row = some txHash) = some item) :
    attributed recorded items txHash = some item := by
  simp only [attributed, h]

theorem mem_of_attributed (h : attributed recorded items txHash = some item) : item ∈ items := by
  unfold attributed at h
  split at h
  · rename_i row hfind
    obtain rfl := Option.some.inj h
    exact List.mem_of_find?_eq_some hfind
  · split_ifs at h
    obtain rfl := Option.some.inj h
    exact List.mem_singleton_self _
  · cases h

/-- An item that another transaction executed is never meant. -/
theorem recorded_of_attributed (h : attributed recorded items txHash = some item) :
    recorded item = some txHash ∨ recorded item = none := by
  unfold attributed at h
  split at h
  · rename_i row hfind
    obtain rfl := Option.some.inj h
    exact .inl (by simpa using List.find?_some hfind)
  · split_ifs at h with hnone
    obtain rfl := Option.some.inj h
    exact .inr hnone
  · cases h

/-- The rule as the source has it: an exact match, or the only item under a condition. -/
theorem orElse_sole_eq {p : α → Bool} (hp : ∀ row, items = [row] → recorded row ≠ some txHash →
    (p row = true ↔ recorded row = none)) :
    ((items.find? fun row => recorded row = some txHash) <|>
      (if items.length = 1 then items.head? else none).filter p) =
      attributed recorded items txHash := by
  cases hfind : items.find? (fun row => decide (recorded row = some txHash)) with
  | some row =>
    rw [attributed_of_find hfind]
    rfl
  | none =>
    cases items with
    | nil => rfl
    | cons row rest =>
      cases rest with
      | cons row' rest => simp [attributed, hfind]
      | nil =>
        have hne : recorded row ≠ some txHash := by simpa using hfind
        by_cases hnone : recorded row = none
        · simp [attributed, hnone, (hp row rfl hne).2 hnone, Option.filter]
        · have hpr : p row = false := by
            rw [← Bool.not_eq_true]
            exact fun hpr => hnone ((hp row rfl hne).1 hpr)
          simp [attributed, hne, hnone, hpr, Option.filter]

/-- The only item is recorded for another transaction. -/
def executedElsewhere (recorded : α → Option Hash) (items : List α) (txHash : Hash) : Prop :=
  ∃ item hash, items = [item] ∧ recorded item = some hash ∧ hash ≠ txHash

/-- The lax rule, which does not look at the recorded hash of the only item. -/
theorem orElse_lax_eq (h : ¬ executedElsewhere recorded items txHash) :
    ((items.find? fun row => recorded row = some txHash) <|>
      (if items.length = 1 then items.head? else none)) = attributed recorded items txHash := by
  have hp : ∀ row, items = [row] → recorded row ≠ some txHash →
      (true = true ↔ recorded row = none) := by
    intro row hrow hne
    refine ⟨fun _ => ?_, fun _ => rfl⟩
    cases hrecorded : recorded row with
    | none => rfl
    | some hash => exact absurd ⟨row, hash, hrow, hrecorded, fun he => hne (he ▸ hrecorded)⟩ h
  have hfilter : ∀ o : Option α, o.filter (fun _ => true) = o := by
    intro o
    cases o <;> rfl
  rw [← orElse_sole_eq (p := fun _ => true) hp, hfilter]

/-- **What an event does to the pending items.**  The item that the rule names is executed, and all
other rows stay as they are. -/
structure Attributes (recorded : α → Option Hash) (items : List α) (txHash : Hash)
    (isExecuted : α → α → Prop) (rows rows' : List α) : Prop where
  executed : ∀ item, attributed recorded items txHash = some item →
    ∃ row ∈ rows', isExecuted item row
  others : ∀ row ∈ rows, attributed recorded items txHash ≠ some row → row ∈ rows'

/-- No item that another transaction executed is marked. -/
theorem Attributes.kept {isExecuted : α → α → Prop} {rows rows' : List α}
    (h : Attributes recorded items txHash isExecuted rows rows') {row : α} (hrow : row ∈ rows)
    {hash : Hash} (hrecorded : recorded row = some hash) (hne : hash ≠ txHash) : row ∈ rows' := by
  refine h.others row hrow fun hattributed => ?_
  rcases recorded_of_attributed hattributed with he | he
  · exact hne (Option.some.inj (hrecorded.symm.trans he))
  · rw [hrecorded] at he
    cases he

/-- The update of the row with the key of the attributed item. -/
theorem attributes_updateWhere {isExecuted : α → α → Prop} {rows : List α} {key : α → Id}
    (hkeyed : Keyed key rows) (hitems : ∀ item ∈ items, item ∈ rows)
    (hattributed : attributed recorded items txHash = some item) {f : α → α}
    (hf : isExecuted item (f item)) :
    Attributes recorded items txHash isExecuted rows
      (updateWhere (fun row => key row = key item) f rows) := by
  have hitem := hitems item (mem_of_attributed hattributed)
  constructor
  · intro item' h'
    obtain rfl := Option.some.inj (hattributed.symm.trans h')
    exact ⟨f item, mem_updateWhere_of hitem (by simp), hf⟩
  · intro row hrow hne
    refine mem_updateWhere_of_not hrow ?_
    simp only [decide_eq_false_iff_not]
    intro hkey
    exact hne (hkeyed.eq hitem hrow hkey.symm ▸ hattributed)

/-- When no item is meant, every row stays. -/
theorem attributes_of_none {isExecuted : α → α → Prop} {rows rows' : List α}
    (hattributed : attributed recorded items txHash = none) (hrows : ∀ row ∈ rows, row ∈ rows') :
    Attributes recorded items txHash isExecuted rows rows' := by
  constructor
  · intro item h
    rw [hattributed] at h
    cases h
  · exact fun row hrow _ => hrows row hrow

end

/-! ### Releases -/

variable {config : Deployment} {db db' : Database} {event : DecodedEscrowEvent}
  {goal : FundingGoal}

/-- The matcher of the releases follows the rule. -/
theorem matchedReservation_eq (candidates : List Payout) (txHash : Hash) :
    matchedReservation db candidates txHash =
      attributed db.executionTxHash? candidates txHash := by
  refine orElse_sole_eq (p := fun row => (db.executionTxHash? row).isNone) fun row _ _ => ?_
  simp [Option.isNone_iff_eq_none]

/-- The payout `row` is the executed `item`. -/
def Payout.ExecutedIn (txHash : Hash) (item row : Payout) : Prop :=
  row.id = item.id ∧ row.status = .executed ∧ row.chainTxHash = some txHash

/-- **What a release does.**  The payout that it belongs to is executed, and neither another payout
nor a proposal that another transaction executed is touched. -/
structure ReleaseAttributed (config : Deployment) (db db' : Database) (goal : FundingGoal)
    (kind : PayoutKind) (token : Address) (amount : ℕ) (txHash : Hash) : Prop where
  payouts : ∀ asset, assetFor config token = .ok asset →
    Attributes db.executionTxHash? (releaseCandidates db goal.id kind asset amount) txHash
      (Payout.ExecutedIn txHash) db.payouts db'.payouts
  proposals : ∀ row ∈ db.payoutProposals, ∀ hash, row.executionTxHash = some hash →
    hash ≠ txHash → row ∈ db'.payoutProposals

theorem executeReservation_payouts (db : Database) (payoutId : Id) (txHash : Hash)
    (occurredAt : Time) : (executeReservation db payoutId txHash occurredAt).payouts =
      db.payouts := by
  rcases executeReservation_cases db payoutId txHash occurredAt with
    ⟨he, -⟩ | ⟨intent, -, -, he⟩ | ⟨intent, proposal, -, -, -, he⟩ <;> rw [he] <;> rfl

/-- The proposal of an attributed payout is not one that another transaction executed. -/
theorem executeReservation_proposals (db : Database) {payoutId : Id} {txHash : Hash}
    {occurredAt : Time}
    (hkeyed : Keyed (·.id) db.payoutProposals)
    (hrecorded : ∀ intent proposal, db.safeIntent? payoutId = some intent →
      db.proposal? intent.id = some proposal →
      proposal.executionTxHash = some txHash ∨ proposal.executionTxHash = none)
    {row : SafePayoutProposal} (hrow : row ∈ db.payoutProposals) {hash : Hash}
    (hhash : row.executionTxHash = some hash) (hne : hash ≠ txHash) :
    row ∈ (executeReservation db payoutId txHash occurredAt).payoutProposals := by
  rcases executeReservation_cases db payoutId txHash occurredAt with
    ⟨he, -⟩ | ⟨intent, -, -, he⟩ | ⟨intent, proposal, hintent, -, hproposal, he⟩
  · rw [he]
    exact hrow
  · rw [he]
    exact hrow
  · rw [he]
    refine mem_updateWhere_of_not hrow ?_
    simp only [decide_eq_false_iff_not]
    intro hid
    obtain rfl := hkeyed.eq hrow (List.mem_of_find?_eq_some hproposal) hid
    rcases hrecorded intent row hintent hproposal with h | h
    · exact hne (Option.some.inj (hhash.symm.trans h))
    · rw [hhash] at h
      cases h

/-- Releases are attributed by the rule. -/
theorem handleReleased_attributes {kind : PayoutKind} {token payoutRecipient : Address} {amount : ℕ}
    (hpayouts : Keyed (·.id) db.payouts) (hproposals : Keyed (·.id) db.payoutProposals)
    (h : handleReleased config event goal kind token payoutRecipient amount db = .ok db') :
    ReleaseAttributed config db db' goal kind token amount event.txHash := by
  obtain ⟨asset, occurredAt, hasset, hcases⟩ := handleReleased_ok h
  have hcandidates : ∀ row ∈ releaseCandidates db goal.id kind asset amount, row ∈ db.payouts :=
    fun row hrow => List.mem_of_mem_filter hrow
  rcases hcases with ⟨reserved, -, hmatched, rfl⟩ | ⟨payout, -, hmatched, rfl⟩
  all_goals rw [matchedReservation_eq] at hmatched
  · constructor
    · intro asset' hasset'
      obtain rfl := Except.ok.inj (hasset.symm.trans hasset')
      rw [executeReservation_payouts]
      exact attributes_updateWhere hpayouts hcandidates hmatched ⟨rfl, rfl, rfl⟩
    · intro row hrow hash hhash hne
      refine executeReservation_proposals (db.mapPayout reserved.id
        (·.execute event.txHash payoutRecipient (some occurredAt))) hproposals ?_ hrow hhash hne
      intro intent proposal hintent hproposal
      have hrecorded := recorded_of_attributed hmatched
      have he : db.executionTxHash? reserved = proposal.executionTxHash := by
        change db.safeIntent? reserved.id = some intent at hintent
        change db.proposal? intent.id = some proposal at hproposal
        simp only [Database.executionTxHash?, hintent, Option.bind_some, hproposal]
      rwa [he] at hrecorded
  · constructor
    · intro asset' hasset'
      obtain rfl := Except.ok.inj (hasset.symm.trans hasset')
      exact attributes_of_none hmatched fun row hrow => List.mem_append_left _ hrow
    · exact fun row hrow _ _ _ => hrow

/-! ### Lifecycle actions -/

/-- The lifecycle action that an event executes. -/
def EscrowEvent.goalAction? :
    EscrowEvent → Option (SafeGoalActionKind × Option MonthlySurplusPolicy)
  | monthlySurplusPolicyUpdated _ _ newPolicy =>
    (monthlyPolicyFor newPolicy).toOption.map fun policy => (.setMonthlySurplusPolicy, some policy)
  | monthlyGoalStopRequested _ _ => some (.requestMonthlyStop, none)
  | monthlyGoalCancelled _ _ _ => some (.cancelMonthly, none)
  | _ => none

/-- The proposals that a lifecycle action may be the execution of. -/
def eligibleActions (db : Database) (goalId : Id) (kind : SafeGoalActionKind)
    (targetPolicy : Option MonthlySurplusPolicy) : List SafeGoalActionProposal :=
  db.goalActionProposals.filter (SafeGoalActionProposal.eligible db goalId kind targetPolicy)

/-- The proposal `row` is the executed `item`. -/
def SafeGoalActionProposal.ExecutedIn (txHash : Hash) (item row : SafeGoalActionProposal) : Prop :=
  row.id = item.id ∧ row.status = .executed ∧ row.executionTxHash = some txHash

/-- What a lifecycle action does: the proposal that it belongs to is executed. -/
def ActionAttributed (db db' : Database) (goal : FundingGoal) (kind : SafeGoalActionKind)
    (targetPolicy : Option MonthlySurplusPolicy) (txHash : Hash) : Prop :=
  Attributes (·.executionTxHash) (eligibleActions db goal.id kind targetPolicy) txHash
    (SafeGoalActionProposal.ExecutedIn txHash) db.goalActionProposals db'.goalActionProposals

/-- The confirmation of a lifecycle action follows the rule exactly when the only proposal is not
one that another transaction executed. -/
theorem confirmSafeGoalAction_attributes {kind : SafeGoalActionKind}
    {targetPolicy : Option MonthlySurplusPolicy} (hkeyed : Keyed (·.id) db.goalActionProposals)
    (h : confirmSafeGoalAction db goal.id kind event targetPolicy = .ok db') :
    ActionAttributed db db' goal kind targetPolicy event.txHash ↔
      ¬ executedElsewhere (·.executionTxHash) (eligibleActions db goal.id kind targetPolicy)
        event.txHash := by
  have hitems : ∀ row ∈ eligibleActions db goal.id kind targetPolicy,
      row ∈ db.goalActionProposals := fun row hrow => List.mem_of_mem_filter hrow
  constructor
  · intro hattributed helsewhere
    obtain ⟨item, hash, hsole, hrecorded, hne⟩ := helsewhere
    have hitem : item ∈ eligibleActions db goal.id kind targetPolicy := by simp [hsole]
    have hkept := hattributed.kept (hitems item hitem) hrecorded hne
    have hpending : item.status.pending = true := by
      have := List.of_mem_filter hitem
      simp only [SafeGoalActionProposal.eligible, decide_eq_true_eq] at this
      exact this.1
    -- The source marks the only proposal, whatever is recorded for it.
    unfold confirmSafeGoalAction at h
    unfold eligibleActions at hsole
    simp only [hsole] at h
    have hfind : List.find? (fun row : SafeGoalActionProposal =>
        decide (row.executionTxHash = some event.txHash)) [item] = none := by
      simp [hrecorded, hne]
    rw [hfind] at h
    obtain ⟨occurredAt, -, hok⟩ := bind_ok.1 h
    obtain rfl := Except.ok.inj hok
    obtain ⟨row, hrow, hupdated⟩ := mem_updateWhere.1 hkept
    split_ifs at hupdated with hid
    · rw [← hupdated] at hpending
      cases hpending
    · exact hid (by simp [hupdated])

  · intro helsewhere
    have hrule := orElse_lax_eq helsewhere
    unfold confirmSafeGoalAction at h
    unfold eligibleActions at hrule
    simp only [hrule] at h
    split at h
    · rename_i hnone
      obtain rfl := Except.ok.inj h
      exact attributes_of_none hnone fun row hrow => hrow
    · rename_i proposal hsome
      simp only [bind_ok, pure_ok] at h
      obtain ⟨occurredAt, -, rfl⟩ := h
      exact attributes_updateWhere hkeyed hitems hsome ⟨rfl, rfl, rfl⟩

/-- A lifecycle event changes the goal and confirms its proposal. -/
theorem handleGoalEvent_action {kind : SafeGoalActionKind}
    {targetPolicy : Option MonthlySurplusPolicy}
    (haction : event.event.goalAction? = some (kind, targetPolicy))
    (h : handleGoalEvent config event goal db = .ok db') :
    ∃ db₁ : Database, db₁.goalActionProposals = db.goalActionProposals ∧
      db₁.goalActionIntents = db.goalActionIntents ∧
      confirmSafeGoalAction db₁ goal.id kind event targetPolicy = .ok db' := by
  obtain ⟨event, blockNumber, blockHash, blockTimestamp, txHash, logIndex⟩ := event
  cases event with
  | monthlySurplusPolicyUpdated goalId oldPolicy newPolicy =>
    obtain ⟨policy, hpolicy, hconfirm⟩ := bind_ok.1 h
    simp only [EscrowEvent.goalAction?, hpolicy, Except.toOption, Option.map_some,
      Option.some.injEq, Prod.mk.injEq] at haction
    obtain ⟨rfl, rfl⟩ := haction
    refine ⟨_, ?_, ?_, hconfirm⟩ <;> rfl
  | monthlyGoalStopRequested goalId requestedAt =>
    obtain ⟨rfl, rfl⟩ : SafeGoalActionKind.requestMonthlyStop = kind ∧ none = targetPolicy := by
      simpa [EscrowEvent.goalAction?] using haction
    obtain ⟨occurredAt, -, hconfirm⟩ := bind_ok.1 h
    refine ⟨_, ?_, ?_, hconfirm⟩ <;> rfl
  | monthlyGoalCancelled goalId preAdded usdcAdded =>
    obtain ⟨rfl, rfl⟩ : SafeGoalActionKind.cancelMonthly = kind ∧ none = targetPolicy := by
      simpa [EscrowEvent.goalAction?] using haction
    refine ⟨_, ?_, ?_, h⟩ <;> rfl
  | _ => simp [EscrowEvent.goalAction?] at haction

theorem eligibleActions_congr {db₁ : Database}
    (hproposals : db₁.goalActionProposals = db.goalActionProposals)
    (hintents : db₁.goalActionIntents = db.goalActionIntents) (goalId : Id)
    (kind : SafeGoalActionKind) (targetPolicy : Option MonthlySurplusPolicy) :
    eligibleActions db₁ goalId kind targetPolicy = eligibleActions db goalId kind targetPolicy := by
  have heligible : SafeGoalActionProposal.eligible db₁ goalId kind targetPolicy =
      SafeGoalActionProposal.eligible db goalId kind targetPolicy := by
    funext row
    refine decide_eq_decide.2 ?_
    simp only [Database.goalActionIntent?, hintents]
  rw [eligibleActions, eligibleActions, hproposals, heligible]

/-- **The attribution of events.**  A release is attributed by the rule, and a lifecycle action is
unless the only proposal it can belong to is one that another transaction executed. -/
theorem projection_attributes (config : Deployment) (event : DecodedEscrowEvent)
    (goal : FundingGoal) (db db' : Database) (hpayouts : Keyed (·.id) db.payouts)
    (hproposals : Keyed (·.id) db.payoutProposals) (hactions : Keyed (·.id) db.goalActionProposals)
    (h : handleGoalEvent config event goal db = .ok db') :
    (∀ goalId kind token amount, event.event.release? = some (goalId, kind, token, amount) →
      ReleaseAttributed config db db' goal kind token amount event.txHash) ∧
    ∀ kind targetPolicy, event.event.goalAction? = some (kind, targetPolicy) →
      (ActionAttributed db db' goal kind targetPolicy event.txHash ↔
        ¬ executedElsewhere (·.executionTxHash) (eligibleActions db goal.id kind targetPolicy)
          event.txHash) := by
  constructor
  · intro goalId kind token amount hrelease
    obtain ⟨payoutRecipient, he⟩ : ∃ payoutRecipient, handleGoalEvent config event goal db =
        handleReleased config event goal kind token payoutRecipient amount db :=
      handleGoalEvent_release hrelease
    rw [he] at h
    exact handleReleased_attributes hpayouts hproposals h
  · intro kind targetPolicy haction
    obtain ⟨db₁, hrows, hintents, hconfirm⟩ := handleGoalEvent_action haction h
    have hiff := confirmSafeGoalAction_attributes (by rwa [hrows]) hconfirm
    rwa [ActionAttributed, eligibleActions_congr hrows hintents, hrows] at hiff

/-- A goal of a treasury, whose cancellation is proposed. -/
def treasuryGoal : FundingGoal where
  creatorAddress := 1
  goalType := .monthly
  monthlySurplusPolicy := some .rollOver
  monthlyFirstSettlementAt := none
  monthlySettlementDay := some 1
  monthlyStopRequestedAt := none
  monthlyPeriodsSettled := 0
  monthStart := 0
  title := []
  description := []
  recipientAddress := 2
  deadline := 0
  metadataUri := none
  targetRaw := .zero
  recipientEntitlementRaw := .zero
  carryRaw := .zero
  treasuryEntitlementRaw := .zero
  status := .opened
  creationTxHash := none
  creationBlock := none
  creationBlockHash := none
  publishedAt := none
  closedAt := none
  id := 0
  expenseId := none
  chainId := 1
  chainGoalId := 5
  slug := []
  metadataStatus := .notSet
  metadata := none

/-- The cancellation, and what the Safe recorded about its execution. -/
def cancellation (executionTxHash : Option Hash) : Database :=
  { Database.empty with
    goals := [treasuryGoal]
    goalActionIntents := [⟨1, 0, .cancelMonthly, none, 1, 14, 3, 10, 0, 21, 9, 600, some 5⟩]
    goalActionProposals :=
      [⟨2, 1, 30, 3, 9, 2, 2, .readyToExecute, executionTxHash, none, none, none⟩] }

/-- The goal is cancelled on the chain, by the transaction 8. -/
def cancelledEvent : DecodedEscrowEvent := ⟨.monthlyGoalCancelled 5 0 0, 100, 50, 70, 8, 0⟩

/-- The deployment of the goal. -/
def treasuryDeployment : Deployment := ⟨1, 10, 11, 12, 13, 0, 2, [], 14, true⟩

/-- The database after the cancellation. -/
def cancelled (executionTxHash : Option Hash) : Database :=
  (handleGoalEvent treasuryDeployment cancelledEvent treasuryGoal
    (cancellation executionTxHash)).toOption.getD Database.empty

/-- A cancellation whose execution is not recorded yet is attributed. -/
theorem projection_attributes_sample :
    ActionAttributed (cancellation none) (cancelled none) treasuryGoal .cancelMonthly none 8 := by
  have h := projection_attributes treasuryDeployment cancelledEvent treasuryGoal
    (cancellation none) (cancelled none) (by unfold Keyed; decide) (by unfold Keyed; decide)
    (by unfold Keyed; decide) (by decide)
  refine (h.2 .cancelMonthly none rfl).2 ?_
  rintro ⟨item, hash, hitem, hhash, -⟩
  obtain rfl := List.cons.inj hitem |>.1
  cases hhash

/-- The Safe executed the only pending cancellation in the transaction 7, which is not final yet.
The cancellation of transaction 8 is attributed to it nevertheless. -/
theorem executed_elsewhere :
    handleGoalEvent treasuryDeployment cancelledEvent treasuryGoal (cancellation (some 7)) =
        .ok (cancelled (some 7)) ∧
      attributed (·.executionTxHash)
        (eligibleActions (cancellation (some 7)) treasuryGoal.id .cancelMonthly none) 8 = none ∧
      (cancellation (some 7)).goalActionProposals.map
        (fun row => (row.status, row.executionTxHash)) = [(.readyToExecute, some 7)] ∧
      (cancelled (some 7)).goalActionProposals.map
        (fun row => (row.status, row.executionTxHash)) = [(.executed, some 8)] ∧
      ¬ ActionAttributed (cancellation (some 7)) (cancelled (some 7)) treasuryGoal .cancelMonthly
        none 8 := by
  refine ⟨by decide, by decide, by decide, by decide, fun h => ?_⟩
  have hkept := h.others _ (List.mem_singleton_self _) (by decide)
  revert hkept
  decide

end Escrow

end PreCommunity
