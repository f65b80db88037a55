import PreCommunity.Escrow.Events
import PreCommunity.Escrow.Writes

/-!
# The payout transactions, table by table

One lemma for each transaction of the payouts: what it found, and the tables it leaves.  What
follows uses these lemmas and no longer the transactions.

* `expireTx_eq`, `convertTx_ok`, `reserveTx_ok`, `claimTx_ok`, `cancelTx_ok` : the requests.
* `reconcile_cases`, `applyUpdate_cases` : the synchronisation.
* `projectLog_cases`, `handleReleased_ok`, `executeReservation_cases` : the indexer.
-/

namespace PreCommunity

namespace Escrow

open Store

variable {config : Deployment} {ext : External} {db db' : Database}

/-! ### Rows -/

/-- A reservation that is used up. -/
def SafePayoutIntent.consume (when : Time) (row : SafePayoutIntent) : SafePayoutIntent :=
  { row with consumedAt := some when }

/-- A payout that will not be made. -/
def Payout.fail (row : Payout) : Payout := { row with status := .failed }

/-- A payout that was made. -/
def Payout.execute (txHash : Hash) (recipient : Address) (executedAt : Option Time)
    (row : Payout) : Payout :=
  { row with
    status := .executed
    chainTxHash := some txHash
    recipientAddress := recipient
    executedAt := executedAt }

/-- A proposal that a manual export replaces. -/
def SafePayoutProposal.supersede (now : Time) (row : SafePayoutProposal) : SafePayoutProposal :=
  { row with
    status := .stale
    failureReason := some "Superseded by a confirmed manual export after checking Safe."
    lastCheckedAt := some now }

section

variable (when : Time) (intent : SafePayoutIntent) (payout : Payout)

@[simp] theorem SafePayoutIntent.consume_id : (intent.consume when).id = intent.id := rfl
@[simp] theorem SafePayoutIntent.consume_consumedAt :
    (intent.consume when).consumedAt = some when := rfl
@[simp] theorem SafePayoutIntent.consume_delivery :
    (intent.consume when).delivery = intent.delivery := rfl
@[simp] theorem SafePayoutIntent.toManual_id : intent.toManual.id = intent.id := rfl
@[simp] theorem SafePayoutIntent.toManual_delivery : intent.toManual.delivery = .manual := rfl
@[simp] theorem SafePayoutIntent.toManual_consumedAt : intent.toManual.consumedAt = none := rfl
@[simp] theorem Payout.fail_id : payout.fail.id = payout.id := rfl
@[simp] theorem Payout.fail_status : payout.fail.status = .failed := rfl

variable (txHash : Hash) (recipient : Address) (executedAt : Option Time)

@[simp] theorem Payout.execute_id :
    (payout.execute txHash recipient executedAt).id = payout.id := rfl
@[simp] theorem Payout.execute_status :
    (payout.execute txHash recipient executedAt).status = .executed := rfl

end

/-! ### Requests -/

/-- The reservations `claimed` are used up. -/
def Database.consumed (db : Database) (now : Time) (claimed : List SafePayoutIntent) : Database :=
  { db with
    payoutIntents := updateWhere (fun row => row.id ∈ claimed.map (·.id)) (·.consume now)
      db.payoutIntents }

theorem Database.consumed_nil (now : Time) : db.consumed now [] = db := by
  unfold Database.consumed
  rw [updateWhere_eq_self (by simp)]

/-- One candidate: a row that is claimed has not been consumed, so it is as it was. -/
theorem claimExpired_cases {now : Time} {candidate : SafePayoutIntent}
    (hids : ∀ row ∈ db.payoutIntents, row.id = candidate.id → row.payoutId = candidate.payoutId)
    (claimed : List SafePayoutIntent) :
    claimExpired now (db.consumed now claimed, claimed.map (·.payoutId)) candidate =
        (db.consumed now claimed, claimed.map (·.payoutId)) ∨
    ∃ row ∈ db.payoutIntents, isExpired db now row = true ∧
      claimExpired now (db.consumed now claimed, claimed.map (·.payoutId)) candidate =
        (db.consumed now (claimed ++ [row]), (claimed ++ [row]).map (·.payoutId)) := by
  by_cases hany : ((db.consumed now claimed).payoutIntents.any fun row =>
      decide (row.id = candidate.id ∧ isExpired (db.consumed now claimed) now row = true)) = true
  · obtain ⟨row, hrow, hexpired⟩ := List.any_eq_true.1 hany
    simp only [decide_eq_true_eq] at hexpired
    obtain ⟨hid, hexpired⟩ := hexpired
    have hmem : row ∈ db.payoutIntents := by
      obtain ⟨hmem, -⟩ | ⟨row, -, -, rfl⟩ := mem_updateWhere_cases hrow
      · exact hmem
      · simp [isExpired] at hexpired
    refine .inr ⟨row, hmem, hexpired, ?_⟩
    have htable : (db.consumed now claimed).mapIntent candidate.id
        (fun row => { row with consumedAt := some now }) = db.consumed now (claimed ++ [row]) := by
      have hupdate : updateWhere (fun row : SafePayoutIntent => row.id = candidate.id)
          (·.consume now) (db.consumed now claimed).payoutIntents =
          (db.consumed now (claimed ++ [row])).payoutIntents := by
        simp only [Database.consumed]
        rw [updateWhere_updateWhere_self (f := SafePayoutIntent.consume now) (fun _ => rfl)
          fun _ => rfl]
        congr 1
        funext x
        simp [hid]
      unfold Database.mapIntent
      rw [show (fun row : SafePayoutIntent => { row with consumedAt := some now }) =
        (·.consume now) from rfl, hupdate]
      rfl
    unfold claimExpired
    simp only
    rw [if_pos hany, htable]
    simp [hids row hmem hid]
  · unfold claimExpired
    simp only
    rw [if_neg hany]
    exact .inl rfl

/-- **Expiry** consumes the expired reservations that it claims, and their payouts fail. -/
theorem expireTx_eq {now : Time} {candidates : List SafePayoutIntent}
    (hids : ∀ c ∈ candidates, ∀ row ∈ db.payoutIntents, row.id = c.id → row.payoutId = c.payoutId) :
    ∃ claimed : List SafePayoutIntent,
      (∀ row ∈ claimed, row ∈ db.payoutIntents ∧ isExpired db now row = true) ∧
      expireTx now candidates db =
        { db with
          payouts := updateWhere
            (fun row => row.id ∈ claimed.map (·.payoutId) ∧ row.status = .proposed)
            (·.fail) db.payouts
          payoutIntents := updateWhere (fun row => row.id ∈ claimed.map (·.id)) (·.consume now)
            db.payoutIntents } := by
  suffices hfold : ∀ claimed : List SafePayoutIntent,
      (∀ row ∈ claimed, row ∈ db.payoutIntents ∧ isExpired db now row = true) →
      ∃ claimed' : List SafePayoutIntent,
        (∀ row ∈ claimed', row ∈ db.payoutIntents ∧ isExpired db now row = true) ∧
        candidates.foldl (claimExpired now) (db.consumed now claimed, claimed.map (·.payoutId)) =
          (db.consumed now claimed', claimed'.map (·.payoutId)) by
    obtain ⟨claimed, hclaimed, heq⟩ := hfold [] (by simp)
    rw [Database.consumed_nil] at heq
    refine ⟨claimed, hclaimed, ?_⟩
    unfold expireTx
    rw [List.map_nil] at heq
    rw [heq]
    rfl
  induction candidates with
  | nil => exact fun claimed hclaimed => ⟨claimed, hclaimed, rfl⟩
  | cons c rest ih =>
    intro claimed hclaimed
    have ih := ih fun c' hc' => hids c' (.tail _ hc')
    rw [List.foldl_cons]
    obtain heq | ⟨row, hmem, hexpired, heq⟩ := claimExpired_cases (hids c (.head _)) claimed
    · rw [heq]
      exact ih claimed hclaimed
    · rw [heq]
      refine ih _ fun row' hrow' => ?_
      obtain hrow' | hrow' := List.mem_append.1 hrow'
      · exact hclaimed row' hrow'
      · exact List.mem_singleton.1 hrow' ▸ ⟨hmem, hexpired⟩

/-- The last part of a conversion. -/
theorem convert_ok {intent : SafePayoutIntent}
    (h : (do
      if (db.intent? intent.id).isNone then throw .recordNotFound
      if db.unsubmittedTaken intent.id intent.chainId intent.safeAddress then
        throw .uniqueConstraint
      return db.mapIntent intent.id (·.toManual) : Except Failure Database) = .ok db') :
    (∃ row ∈ db.payoutIntents, row.id = intent.id) ∧
      db.unsubmittedTaken intent.id intent.chainId intent.safeAddress = false ∧
      db' = db.mapIntent intent.id (·.toManual) := by
  by_cases hfound : (db.intent? intent.id).isNone = true
  · rw [if_pos hfound] at h
    cases h
  by_cases htaken : db.unsubmittedTaken intent.id intent.chainId intent.safeAddress = true
  · rw [if_neg hfound, if_pos htaken] at h
    cases h
  rw [if_neg hfound, if_neg htaken] at h
  obtain rfl := Except.ok.inj h
  refine ⟨?_, by simpa using htaken, rfl⟩
  cases hrow : db.intent? intent.id with
  | none => simp [hrow] at hfound
  | some row =>
    have hid := List.find?_some hrow
    exact ⟨row, List.mem_of_find?_eq_some hrow, by simpa using hid⟩

/-- **A conversion** found the reservation and the proposal it had read. -/
theorem convertTx_ok {intent : SafePayoutIntent} {proposal : Option SafePayoutProposal} {now : Time}
    (h : convertTx intent proposal now db = .ok db') :
    (∃ row ∈ db.payoutIntents, row.id = intent.id) ∧
    db.unsubmittedTaken intent.id intent.chainId intent.safeAddress = false ∧
    (∀ p, proposal = some p →
      ∃ row ∈ db.payoutProposals, row.id = p.id ∧ row.status = .submitting) ∧
    db' =
      { db with
        payoutProposals := updateWhere (fun row => proposal.any fun p => row.id = p.id)
          (·.supersede now) db.payoutProposals
        payoutIntents := updateWhere (fun row => row.id = intent.id) (·.toManual)
          db.payoutIntents } := by
  cases proposal with
  | none =>
    obtain ⟨hfound, htaken, rfl⟩ := convert_ok (show _ = Except.ok db' from h)
    have hnone : updateWhere (fun row : SafePayoutProposal =>
        (none : Option SafePayoutProposal).any fun p => row.id = p.id) (·.supersede now)
        db.payoutProposals = db.payoutProposals := updateWhere_eq_self (by simp)
    refine ⟨hfound, htaken, by simp, ?_⟩
    rw [hnone]
    rfl
  | some p =>
    by_cases hany : (db.payoutProposals.any fun row => decide (row.id = p.id ∧
        row.status = .submitting)) = true
    · have hstale : staleProposalTx p now db = .ok (db.mapProposal p.id (·.supersede now)) :=
        if_pos hany
      simp only [convertTx, hstale] at h
      obtain ⟨hfound, htaken, rfl⟩ := convert_ok h
      refine ⟨hfound, htaken, ?_, rfl⟩
      rintro _ ⟨⟩
      simpa using hany
    · simp only [convertTx, staleProposalTx, if_neg hany] at h
      cases h

/-- **A reservation** adds a payout and its intent. -/
theorem reserveTx_ok {goal : FundingGoal} {dto : ReleaseProposal} {safeInfo : SafeInfo}
    {actor : Address} {safeNonce : Option ℕ} {expiresAt : Option Time} {intent : SafePayoutIntent}
    (h : reserveTx config ext goal dto safeInfo actor safeNonce expiresAt db = .ok (db', intent)) :
    (∃ row ∈ db.goals, row.id = goal.id) ∧
    (intent.id = db.nextId + 1 ∧ intent.payoutId = db.nextId ∧ intent.goalId = goal.id ∧
      intent.delivery = dto.delivery ∧ intent.consumedAt = none) ∧
    ∃ payout : Payout, (payout.id = db.nextId ∧ payout.goalId = goal.id ∧
        payout.asset = dto.asset ∧ payout.kind = dto.kind ∧ payout.amountRaw = dto.amountRaw ∧
        payout.status = .proposed) ∧
      db' =
        { db with
          payouts := db.payouts ++ [payout]
          payoutIntents := db.payoutIntents ++ [intent]
          nextId := db.nextId + 2 } := by
  unfold reserveTx at h
  extract_lets token payout row at h
  split_ifs at h with hgoal htaken
  obtain ⟨rfl, rfl⟩ := Prod.mk.inj (Except.ok.inj h)
  refine ⟨?_, ⟨rfl, rfl, rfl, rfl, rfl⟩, payout, ⟨rfl, rfl, rfl, rfl, rfl, rfl⟩, rfl⟩
  simpa using hgoal

/-- **A claim** consumes a live reservation and adds its proposal. -/
theorem claimTx_ok {intentId : Id} {safeTxHash : Hash} {safeNonce : ℕ} {actor : Address}
    {threshold : ℕ} {consumedAt : Time} {proposal : SafePayoutProposal}
    (h : claimTx intentId safeTxHash safeNonce actor threshold consumedAt db =
      .ok (db', proposal)) :
    (∃ row ∈ db.payoutIntents, row.id = intentId ∧ row.delivery = .service ∧
      row.consumedAt = none ∧ db.proposal? row.id = none ∧ db.isReserved row = true) ∧
    (proposal.id = db.nextId ∧ proposal.intentId = intentId ∧ proposal.status = .submitting) ∧
    db' =
      { db with
        payoutIntents := updateWhere (fun row => row.id = intentId)
          (·.consume consumedAt) db.payoutIntents
        payoutProposals := db.payoutProposals ++ [proposal]
        nextId := db.nextId + 1 } := by
  unfold claimTx at h
  extract_lets isClaimable row at h
  split_ifs at h with hclaimable hhash
  obtain ⟨rfl, rfl⟩ := Prod.mk.inj (Except.ok.inj h)
  refine ⟨?_, ⟨rfl, rfl, rfl⟩, rfl⟩
  have hany : db.payoutIntents.any isClaimable = true := by simpa using hclaimable
  obtain ⟨intent, hintent, hclaim⟩ := List.any_eq_true.1 hany
  simp only [isClaimable, decide_eq_true_eq, Option.isNone_iff_eq_none] at hclaim
  exact ⟨intent, hintent, hclaim.1, hclaim.2.1, hclaim.2.2.1, hclaim.2.2.2.2.1, hclaim.2.2.2.2.2⟩

/-- **A cancellation** consumes the reservation, and its payout fails. -/
theorem cancelTx_ok {intent : SafePayoutIntent} {cancelledAt : Time}
    (h : cancelTx intent cancelledAt db = .ok db') :
    (∃ row ∈ db.payouts, row.id = intent.payoutId ∧ row.status = .proposed) ∧
    db' =
      { db with
        payouts := updateWhere (fun row => row.id ∈ [intent.payoutId] ∧ row.status = .proposed)
          (·.fail) db.payouts
        payoutIntents := updateWhere (fun row => row.id = intent.id) (·.consume cancelledAt)
          db.payoutIntents } := by
  unfold cancelTx at h
  split_ifs at h with hreserved hfound
  obtain rfl := Except.ok.inj h
  refine ⟨?_, rfl⟩
  simpa using hreserved

/-! ### The synchronisation -/

/-- **A merge** executes the reservation and deletes the row of the release; otherwise nothing
happens. -/
theorem reconcile_cases (payout : Payout) (executionTxHash : Hash) (db : Database) :
    (reconcileConfirmedSafePayout payout executionTxHash db).1 = db ∨
    ∃ confirmed ∈ db.payouts, isConfirmedProjection db payout executionTxHash confirmed = true ∧
      (∃ row ∈ db.payouts, row.id = payout.id ∧ row.status = .proposed) ∧
      (reconcileConfirmedSafePayout payout executionTxHash db).1 =
        { db with
          payouts := (updateWhere (fun row => row.id = payout.id)
            (·.execute executionTxHash confirmed.recipientAddress confirmed.executedAt)
            db.payouts).filter fun row => row.id ≠ confirmed.id } := by
  unfold reconcileConfirmedSafePayout
  split
  · exact .inl rfl
  rename_i confirmed hfound
  split_ifs with hreserved
  · refine .inr ⟨confirmed, List.mem_of_find?_eq_some hfound, List.find?_some hfound, ?_, rfl⟩
    simpa using hreserved
  · exact .inl rfl

/-- A merge leaves the reservations and their proposals. -/
theorem reconcile_tables (payout : Payout) (executionTxHash : Hash) (db : Database) :
    (reconcileConfirmedSafePayout payout executionTxHash db).1.payoutProposals =
        db.payoutProposals ∧
      (reconcileConfirmedSafePayout payout executionTxHash db).1.payoutIntents =
        db.payoutIntents := by
  rcases reconcile_cases payout executionTxHash db with heq | ⟨confirmed, -, -, -, heq⟩ <;>
    rw [heq] <;> exact ⟨rfl, rfl⟩

/-- **An update** of a proposal that is not pending does nothing.  It may fail the payout, or
execute the reservation. -/
theorem applyUpdate_cases (tracked : TrackedProposal) (next : ProposalUpdate) (now : Time)
    (failPayout : Bool) (db : Database) :
    (applyUpdate tracked next now failPayout db).1 = db ∨
    (∃ row ∈ db.payoutProposals, row.id = tracked.proposal.id ∧ row.status.pending = true) ∧
      ∃ db₁, db₁ = (if failPayout then (db.mapProposal tracked.proposal.id
          (·.update next now)).failPayouts [tracked.payout.id]
        else db.mapProposal tracked.proposal.id (·.update next now)) ∧
      ((applyUpdate tracked next now failPayout db).1 = db₁ ∨ next.status = .executed ∧
        ∃ executionTxHash, (applyUpdate tracked next now failPayout db).1 =
          (reconcileConfirmedSafePayout tracked.payout executionTxHash db₁).1) := by
  unfold applyUpdate applyPendingSafeProposalUpdate
  by_cases hpending : (db.payoutProposals.any fun row =>
      decide (row.id = tracked.proposal.id ∧ row.status.pending = true)) = true
  · rw [if_pos hpending]
    refine .inr ⟨by simpa using hpending, _, rfl, ?_⟩
    simp only [true_and]
    split_ifs with hexecuted hfail hfail
    · split
      · exact .inr ⟨hexecuted, _, rfl⟩
      · exact .inl rfl
    · split
      · exact .inr ⟨hexecuted, _, rfl⟩
      · exact .inl rfl
    · exact .inl rfl
    · exact .inl rfl
  · rw [if_neg hpending]
    exact .inl (by simp)

/-! ### The indexer -/

/-- **A log** that was projected before is skipped. -/
theorem projectLog_cases {event : DecodedEscrowEvent} {r : Bool × Option MetadataRefresh}
    (h : projectLog config ext event db = .ok (db', r)) :
    db' = db ∨ (db.events.any (event.row config).sameKey = false ∧
      Handled config ext event { db with events := db.events ++ [event.row config] } db') := by
  unfold projectLog claimChainEvent at h
  by_cases hseen : db.events.any (event.row config).sameKey = true
  · rw [if_pos hseen] at h
    obtain ⟨rfl, -⟩ := Prod.mk.inj (Except.ok.inj h)
    exact .inl rfl
  · rw [if_neg hseen] at h
    refine .inr ⟨by simpa using hseen, ?_⟩
    simp only at h
    cases hhandled : handleDecodedEscrowEvent config ext event
        { db with events := db.events ++ [event.row config] } with
    | error e => simp [hhandled, Except.map] at h
    | ok r' =>
      obtain ⟨rfl, -⟩ : r'.1 = db' ∧ _ := by
        rw [hhandled] at h
        exact Prod.mk.inj (Except.ok.inj h)
      exact handled_of_ok hhandled

/-- The goal, the kind, the token and the amount of a release. -/
def EscrowEvent.release? : EscrowEvent → Option (Hash × PayoutKind × Address × ℕ)
  | expenseReleased goalId token _ _ amount => some (goalId, .expense, token, amount)
  | cancelledFundsReleased goalId token _ _ amount => some (goalId, .cancelledFunds, token, amount)
  | _ => none

theorem EscrowEvent.goalId?_of_release {event : EscrowEvent} {goalId : Hash} {kind : PayoutKind}
    {token : Address} {amount : ℕ} (h : event.release? = some (goalId, kind, token, amount)) :
    event.goalId? = some goalId := by
  cases event <;> simp_all [release?, goalId?]

theorem EscrowEvent.isRelease_eq (event : EscrowEvent) :
    event.isRelease = event.release?.isSome := by
  cases event <;> rfl

theorem handleGoalEvent_release {event : DecodedEscrowEvent} {goal : FundingGoal} {goalId : Hash}
    {kind : PayoutKind} {token : Address} {amount : ℕ}
    (hrelease : event.event.release? = some (goalId, kind, token, amount)) :
    ∃ payoutRecipient, handleGoalEvent config event goal db =
      handleReleased config event goal kind token payoutRecipient amount db := by
  obtain ⟨event, blockNumber, blockHash, blockTimestamp, txHash, logIndex⟩ := event
  cases event with
  | expenseReleased _ _ _ payoutRecipient =>
    simp only [EscrowEvent.release?, Option.some.injEq, Prod.mk.injEq] at hrelease
    obtain ⟨rfl, rfl, rfl, rfl⟩ := hrelease
    exact ⟨payoutRecipient, rfl⟩
  | cancelledFundsReleased _ _ _ payoutRecipient =>
    simp only [EscrowEvent.release?, Option.some.injEq, Prod.mk.injEq] at hrelease
    obtain ⟨rfl, rfl, rfl, rfl⟩ := hrelease
    exact ⟨payoutRecipient, rfl⟩
  | _ => simp [EscrowEvent.release?] at hrelease

/-- The proposal of an executed payout. -/
def SafePayoutProposal.execute (txHash : Hash) (threshold : ℕ) (occurredAt : Time)
    (row : SafePayoutProposal) : SafePayoutProposal :=
  { row with
    status := .executed
    confirmations := threshold
    executionTxHash := some txHash
    failureReason := none
    lastCheckedAt := some occurredAt
    executedAt := some occurredAt }

/-- **The reservation of an executed payout.**  A manual one is used up, and the proposal of one of
the service is executed. -/
theorem executeReservation_cases (db : Database) (payoutId : Id) (txHash : Hash)
    (occurredAt : Time) :
    (executeReservation db payoutId txHash occurredAt = db ∧
      ∀ intent, db.safeIntent? payoutId = some intent →
        intent.delivery = .service ∧ db.proposal? intent.id = none) ∨
    (∃ intent, db.safeIntent? payoutId = some intent ∧ intent.delivery = .manual ∧
      executeReservation db payoutId txHash occurredAt =
        db.mapIntent intent.id (·.consume occurredAt)) ∨
    ∃ intent proposal, db.safeIntent? payoutId = some intent ∧ intent.delivery = .service ∧
      db.proposal? intent.id = some proposal ∧
      executeReservation db payoutId txHash occurredAt =
        db.mapProposal proposal.id (·.execute txHash proposal.threshold occurredAt) := by
  unfold executeReservation
  cases hintent : db.safeIntent? payoutId with
  | none => exact .inl ⟨rfl, by simp⟩
  | some intent =>
    cases hdelivery : intent.delivery with
    | manual => exact .inr (.inl ⟨intent, rfl, hdelivery, by simp only [hdelivery]; rfl⟩)
    | service =>
      cases hproposal : db.proposal? intent.id with
      | none => exact .inl ⟨by simp [hdelivery, hproposal], by simp [hdelivery, hproposal]⟩
      | some proposal =>
        exact .inr (.inr ⟨intent, proposal, rfl, hdelivery, hproposal,
          by simp only [hdelivery, hproposal]; rfl⟩)

/-- Both ways of matching choose a candidate. -/
theorem mem_of_matched {candidates : List Payout} {txHash : Hash} {reserved : Payout}
    (h : matchedReservation db candidates txHash = some reserved) : reserved ∈ candidates := by
  unfold matchedReservation at h
  extract_lets exact soleCandidate at h
  cases hexact : exact with
  | some row =>
    obtain rfl : row = reserved := by simpa [hexact] using h
    exact List.mem_of_find?_eq_some hexact
  | none =>
    have hsole : soleCandidate = some reserved := by
      have : Option.filter (fun row => (db.executionTxHash? row).isNone) soleCandidate =
          some reserved := by simpa [hexact] using h
      exact (Option.filter_eq_some_iff.1 this).1
    simp only [soleCandidate] at hsole
    split_ifs at hsole
    exact List.mem_of_head? hsole

/-- **A release** executes a reservation, or adds an executed payout. -/
theorem handleReleased_ok {event : DecodedEscrowEvent} {goal : FundingGoal} {kind : PayoutKind}
    {token payoutRecipient : Address} {amount : ℕ}
    (h : handleReleased config event goal kind token payoutRecipient amount db = .ok db') :
    ∃ asset occurredAt, assetFor config token = .ok asset ∧
      ((∃ reserved ∈ releaseCandidates db goal.id kind asset amount,
          matchedReservation db (releaseCandidates db goal.id kind asset amount) event.txHash =
            some reserved ∧
          db' = executeReservation (db.mapPayout reserved.id
            (·.execute event.txHash payoutRecipient (some occurredAt))) reserved.id event.txHash
            occurredAt) ∨
        ∃ payout : Payout, (payout.id = db.nextId ∧ payout.goalId = goal.id ∧
            payout.asset = asset ∧ payout.kind = kind ∧ payout.amountRaw = amount ∧
            payout.chainTxHash = some event.txHash ∧ payout.status = .executed) ∧
          matchedReservation db (releaseCandidates db goal.id kind asset amount) event.txHash =
            none ∧
          db' = { db with payouts := db.payouts ++ [payout], nextId := db.nextId + 1 }) := by
  unfold handleReleased at h
  simp only [bind_ok] at h
  obtain ⟨asset, hasset, occurredAt, -, h⟩ := h
  refine ⟨asset, occurredAt, hasset, ?_⟩
  split at h
  · rename_i reserved hmatched
    exact .inl ⟨reserved, mem_of_matched hmatched, hmatched, (pure_ok.1 h).symm⟩
  · rename_i hmatched
    exact .inr ⟨_, ⟨rfl, rfl, rfl, rfl, rfl, rfl, rfl⟩, hmatched, (pure_ok.1 h).symm⟩

end Escrow

end PreCommunity
