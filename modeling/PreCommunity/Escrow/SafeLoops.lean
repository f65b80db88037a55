import PreCommunity.Escrow.SafeSync

/-!
# The three loops that follow the Safe

Payouts, changes of the goal managers and lifecycle actions are proposed to the Safe, and the worker
follows each kind with a loop of its own.  The body of a loop reads what the transaction service
says about one pending proposal and changes its row.

* `SafeAnswers` : what the service answers during one round of a loop.
* `followPayout`, `followGoalManager`, `followGoalAction` : the three bodies.
* `followGoalManager_agrees`, `safe_loops_agree_iff` : where they compute the same.
-/

namespace PreCommunity

namespace Escrow

/-- The columns that the tables of proposals to the Safe have in common. -/
abbrev SafeProposal := SafePayoutProposal

/-- A row of `SafeGoalManagerProposal`. -/
structure SafeGoalManagerProposal extends SafeProposal where
  activeKey : Option (ℕ × Address)
deriving DecidableEq, Repr

/-- What the transaction service answers when it is asked for the proposal's transaction, for the
executed transactions at its nonce and for all transactions at its nonce. -/
structure SafeAnswers where
  transaction : Except Failure SafeTransaction
  executedTransactions : Except Failure (List SafeTransaction)
  transactions : Except Failure (List SafeTransaction)

namespace SafeAnswers

variable (answers : SafeAnswers) (proposal : SafeProposal) (currentNonce : ℕ)

/-- `safeTransactionsAtNonce`. -/
def transactionsAtNonce (nonce : ℕ) (executedOnly : Bool) : Option (List SafeTransaction) :=
  match if executedOnly then answers.executedTransactions else answers.transactions with
  | .ok history => some (history.filter fun transaction =>
      (!executedOnly || transaction.isExecuted) && transaction.nonce = nonce)
  | .error _ => none

/-- `resolveSafeTransaction`. -/
def resolve : Except Failure (SafeTransaction × Bool) := do
  let transaction ← answers.transaction
  if !transaction.isExecuted ∧ proposal.safeNonce < currentNonce then
    let executed := (answers.transactionsAtNonce proposal.safeNonce true).getD []
    match executed.find? fun candidate => candidate.safeTxHash = proposal.safeTxHash with
    | some own => return (own, false)
    | none => return (transaction, executed ≠ [])
  else return (transaction, false)

end SafeAnswers

/-! ### Writing a proposal -/

namespace SafePayoutProposal

/-- The row of a pending proposal after an update. -/
def applyPending (row : SafeProposal) (next : ProposalUpdate) (now : Time) : SafeProposal :=
  if row.status.pending then row.update next now else row

/-- The row of a pending proposal about which the service said nothing. -/
def noteFailure (row : SafeProposal) (failureReason : String) (now : Time) : SafeProposal :=
  if row.status.pending then
    { row with lastCheckedAt := some now, failureReason := some failureReason }
  else row

end SafePayoutProposal

/-- The status is final. -/
def SafeProposalStatus.terminal : SafeProposalStatus → Bool
  | executed | stale | failed => true
  | submitting | awaitingConfirmations | readyToExecute => false

/-- `changedPolicyWarning`. -/
def changedPolicyWarning : String :=
  "Safe owners or manual goal manager settings changed. " ++
    "Cancel or replace this proposal at its current nonce in Safe before preparing another sync."

/-- The reason that is noted when the service does not answer. -/
def unavailableReason : String := "Safe status is temporarily unavailable"

namespace SafeGoalManagerProposal

/-- The row of a pending proposal after an update; a final status frees the active key. -/
def applyPending (row : SafeGoalManagerProposal) (next : ProposalUpdate) (policyChanged : Bool)
    (now : Time) : SafeGoalManagerProposal :=
  if row.status.pending then
    { row.toSafePayoutProposal.update { next with
        failureReason :=
          if policyChanged ∧ !next.status.terminal then some changedPolicyWarning
          else next.failureReason } now with
      activeKey := if next.status.terminal then none else row.activeKey }
  else row

/-- The row of a pending proposal about which the service said nothing. -/
def noteFailure (row : SafeGoalManagerProposal) (policyChanged : Bool) (now : Time) :
    SafeGoalManagerProposal :=
  { row.toSafePayoutProposal.noteFailure
      (if policyChanged then changedPolicyWarning else unavailableReason) now with
    activeKey := row.activeKey }

end SafeGoalManagerProposal

/-! ### The bodies of the loops -/

section Bodies

variable (answers : SafeAnswers) (currentNonce : ℕ) (now : Time)

/-- The body of `syncSafePayoutProposals` for a proposal and its row at the time of the update. -/
def followPayout (proposal row : SafeProposal) : SafeProposal :=
  match answers.resolve proposal currentNonce with
  | .ok (resolvedTransaction, nonceWasReplaced) =>
    row.applyPending (classifySafeProposal resolvedTransaction proposal.safeNonce currentNonce
      proposal.threshold now nonceWasReplaced) now
  | .error error =>
    if shouldRecoverMissingSafeSubmission proposal error now then
      match answers.transactionsAtNonce proposal.safeNonce false with
      | none => row.noteFailure unavailableReason now
      | some transactionsAtNonce =>
        match recoveredSafeTransaction transactionsAtNonce proposal.safeTxHash with
        | (some ownTransaction, _) =>
          row.applyPending (classifySafeProposal ownTransaction proposal.safeNonce currentNonce
            proposal.threshold now false) now
        | (none, nonceWasReplaced) =>
          row.applyPending (classifyMissingSafeSubmission proposal.safeNonce currentNonce
            nonceWasReplaced) now
    else row.noteFailure unavailableReason now

/-- The body of `syncSafeGoalManagerProposals` for a proposal and its row at the time of the
update. -/
def followGoalManager (policyChanged : Bool) (proposal : SafeProposal)
    (row : SafeGoalManagerProposal) : SafeGoalManagerProposal :=
  match answers.resolve proposal currentNonce with
  | .ok (resolvedTransaction, nonceWasReplaced) =>
    row.applyPending (classifySafeProposal resolvedTransaction proposal.safeNonce currentNonce
      proposal.threshold now nonceWasReplaced) policyChanged now
  | .error error =>
    if shouldRecoverMissingSafeSubmission proposal error now then
      match answers.transactionsAtNonce proposal.safeNonce false with
      | none => row.noteFailure policyChanged now
      | some transactionsAtNonce =>
        match recoveredSafeTransaction transactionsAtNonce proposal.safeTxHash with
        | (some ownTransaction, _) =>
          row.applyPending (classifySafeProposal ownTransaction proposal.safeNonce currentNonce
            proposal.threshold now false) policyChanged now
        | (none, nonceWasReplaced) =>
          row.applyPending (classifyMissingSafeSubmission proposal.safeNonce currentNonce
            nonceWasReplaced) policyChanged now
    else row.noteFailure policyChanged now

/-- The body of `syncSafeGoalActionProposals` for a proposal and its row at the time of the
update.  It takes the first transaction with the proposal's hash, executed or not. -/
def followGoalAction (proposal row : SafeProposal) : SafeProposal :=
  match answers.resolve proposal currentNonce with
  | .ok (resolved, nonceWasReplaced) =>
    row.applyPending (classifySafeProposal resolved proposal.safeNonce currentNonce
      proposal.threshold now nonceWasReplaced) now
  | .error error =>
    if shouldRecoverMissingSafeSubmission proposal error now then
      match answers.transactionsAtNonce proposal.safeNonce false with
      | none => row.noteFailure unavailableReason now
      | some atNonce =>
        let own := atNonce.find? fun candidate => candidate.safeTxHash = proposal.safeTxHash
        let replaced := own.isNone && atNonce.any fun candidate =>
          candidate.isExecuted && candidate.safeTxHash ≠ proposal.safeTxHash
        row.applyPending (match own with
          | some own => classifySafeProposal own proposal.safeNonce currentNonce
              proposal.threshold now false
          | none => classifyMissingSafeSubmission proposal.safeNonce currentNonce replaced) now
    else row.noteFailure unavailableReason now

end Bodies

/-! ### Agreement -/

/-- The two rows have the same status and execution hash. -/
def SafePayoutProposal.Agrees (row row' : SafeProposal) : Prop :=
  row.status = row'.status ∧ row.executionTxHash = row'.executionTxHash

instance (row row' : SafeProposal) : Decidable (row.Agrees row') :=
  inferInstanceAs (Decidable (_ ∧ _))

theorem applyPending_agrees (row : SafeGoalManagerProposal) (next : ProposalUpdate)
    (policyChanged : Bool) (now : Time) :
    (row.toSafePayoutProposal.applyPending next now).Agrees
      (row.applyPending next policyChanged now).toSafePayoutProposal := by
  unfold SafePayoutProposal.applyPending SafeGoalManagerProposal.applyPending
  split_ifs <;> exact ⟨rfl, rfl⟩

theorem noteFailure_agrees (row : SafeProposal) (reason reason' : String) (now : Time) :
    (row.noteFailure reason now).Agrees (row.noteFailure reason' now) := by
  unfold SafePayoutProposal.noteFailure
  split_ifs <;> exact ⟨rfl, rfl⟩

section Agreement

variable (answers : SafeAnswers) (currentNonce : ℕ) (now : Time)

/-- **Payouts and goal managers** are followed in the same way. -/
theorem followGoalManager_agrees (policyChanged : Bool) (proposal : SafeProposal)
    (row : SafeGoalManagerProposal) :
    (followPayout answers currentNonce now proposal row.toSafePayoutProposal).Agrees
      (followGoalManager answers currentNonce now policyChanged proposal row).toSafePayoutProposal
    := by
  unfold followPayout followGoalManager
  split
  · exact applyPending_agrees row _ policyChanged now
  · split_ifs
    · split
      · exact noteFailure_agrees _ _ _ now
      · split <;> exact applyPending_agrees row _ policyChanged now
    · exact noteFailure_agrees _ _ _ now

/-- The proposal was submitted a while ago, and the service does not know it. -/
def SafeAnswers.Missing (proposal : SafeProposal) : Prop :=
  proposal.status = .submitting ∧ answers.transaction = .error (.service (some 404)) ∧
    safeSubmittingRecoveryDelayMs ≤ now - proposal.createdAt

/-- The transaction has the confirmations it needs. -/
def SafeTransaction.Confirmed (transaction : SafeTransaction) (fallbackThreshold : ℕ) : Prop :=
  (if transaction.confirmationsRequired ≠ 0 then transaction.confirmationsRequired
    else fallbackThreshold) ≤ transaction.confirmations.getD 0

/-- The first transaction listed for the proposal is not executed although its nonce is used:
another listed transaction of the proposal was executed, with something to show for it, or else a
foreign one was. -/
def HidesExecution (proposal : SafeProposal) (transactions : List SafeTransaction) : Prop :=
  ∃ own, transactions.find? (fun candidate => candidate.safeTxHash = proposal.safeTxHash) =
      some own ∧ own.isExecuted = false ∧
    match transactions.find? fun candidate =>
        candidate.isExecuted && decide (candidate.safeTxHash = proposal.safeTxHash) with
    | some execution => execution.isSuccessful.isSome ∨ execution.transactionHash.isSome ∨
        ¬(execution.Confirmed proposal.threshold ↔ own.Confirmed proposal.threshold)
    | none => ∃ candidate ∈ transactions,
        candidate.isExecuted = true ∧ candidate.safeTxHash ≠ proposal.safeTxHash

theorem shouldRecover_iff {proposal : SafeProposal} {error : Failure}
    (hresolve : answers.resolve proposal currentNonce = .error error) :
    shouldRecoverMissingSafeSubmission proposal error now = true ↔
      answers.Missing now proposal := by
  have htransaction : answers.transaction = .error error := by
    unfold SafeAnswers.resolve at hresolve
    cases h : answers.transaction with
    | error e =>
      rw [h] at hresolve
      rw [Except.error.inj hresolve]
    | ok transaction =>
      rw [h] at hresolve
      simp only [bind, Except.bind] at hresolve
      split_ifs at hresolve
      · split at hresolve <;> cases hresolve
      · cases hresolve
  simp [shouldRecoverMissingSafeSubmission, SafeAnswers.Missing, htransaction]

theorem resolve_of_missing {proposal : SafeProposal} (h : answers.Missing now proposal) :
    answers.resolve proposal currentNonce = .error (.service (some 404)) := by
  unfold SafeAnswers.resolve
  rw [h.2.1]
  rfl

/-- An executed transaction that is the first of its kind is also the first executed one. -/
theorem find?_executed {transactions : List SafeTransaction} {p : SafeTransaction → Bool}
    {own : SafeTransaction} (hown : transactions.find? p = some own)
    (hexecuted : own.isExecuted = true) :
    transactions.find? (fun candidate => candidate.isExecuted && p candidate) = some own := by
  obtain ⟨hp, before, after, rfl, hbefore⟩ := List.find?_eq_some_iff_append.1 hown
  refine List.find?_eq_some_iff_append.2 ⟨by simp [hp, hexecuted], before, after, rfl, ?_⟩
  intro x hx
  have := hbefore x hx
  simp_all

/-- What is found out about a transaction that is not known to be executed. -/
theorem classify_waiting {transaction : SafeTransaction}
    (h : transaction.isExecuted = false ∨
      transaction.isSuccessful = none ∧ transaction.transactionHash = none)
    (proposalNonce threshold : ℕ) :
    let next := classifySafeProposal transaction proposalNonce currentNonce threshold now false
    next.executionTxHash = some none ∧ next.status.terminal = false ∧
      (next.status = .readyToExecute ↔ transaction.Confirmed threshold) ∧
      (next.status = .awaitingConfirmations ↔ ¬transaction.Confirmed threshold) := by
  obtain h | ⟨hsuccess, hhash⟩ := h
  · simp only [classifySafeProposal, h, SafeTransaction.Confirmed, Bool.false_eq_true, if_false]
    split_ifs <;> simp_all [SafeProposalStatus.terminal]
  · simp only [classifySafeProposal, hsuccess, hhash, SafeTransaction.Confirmed]
    split_ifs <;> simp_all [SafeProposalStatus.terminal]

/-- The classification of another execution is the same just when that shows nothing. -/
theorem classify_executed_agrees {proposal : SafeProposal} {own execution : SafeTransaction}
    (hown : own.isExecuted = false) (hexecution : execution.isExecuted = true) :
    (proposal.update (classifySafeProposal execution proposal.safeNonce currentNonce
        proposal.threshold now false) now).Agrees
      (proposal.update (classifySafeProposal own proposal.safeNonce currentNonce
        proposal.threshold now false) now) ↔
    ¬(execution.isSuccessful.isSome ∨ execution.transactionHash.isSome ∨
      ¬(execution.Confirmed proposal.threshold ↔ own.Confirmed proposal.threshold)) := by
  obtain ⟨hhash, hterminal, hready, hawaiting⟩ :=
    classify_waiting currentNonce now (.inl hown) proposal.safeNonce proposal.threshold
  revert hhash hterminal hready hawaiting
  generalize classifySafeProposal own proposal.safeNonce currentNonce proposal.threshold now false
    = next
  intro hhash hterminal hready hawaiting
  simp only [SafePayoutProposal.Agrees, SafePayoutProposal.update, hhash, Option.getD_some]
  cases hsuccess : execution.isSuccessful with
  | some success =>
    have : next.status ≠ .executed ∧ next.status ≠ .failed := by
      constructor <;> rintro h <;> simp [h, SafeProposalStatus.terminal] at hterminal
    cases success <;>
      simp [classifySafeProposal, hexecution, hsuccess, this.1.symm, this.2.symm]
  | none =>
    cases htx : execution.transactionHash with
    | some hash => simp [classifySafeProposal, hexecution, hsuccess, htx]
    | none =>
      obtain ⟨hhash', -, hready', hawaiting'⟩ := classify_waiting currentNonce now
        (.inr ⟨hsuccess, htx⟩) proposal.safeNonce proposal.threshold
      rw [hhash']
      by_cases hown' : own.Confirmed proposal.threshold <;>
        by_cases hexec' : execution.Confirmed proposal.threshold
      · simp [hready.2 hown', hready'.2 hexec', hown', hexec']
      · simp [hready.2 hown', hawaiting'.2 hexec', hown', hexec']
      · simp [hawaiting.2 hown', hready'.2 hexec', hown', hexec']
      · simp [hawaiting.2 hown', hawaiting'.2 hexec', hown', hexec']

/-- **The recovery of a missing proposal** is the same just when no execution is hidden. -/
theorem recovery_agrees_iff {proposal : SafeProposal} (h : answers.Missing now proposal)
    {transactions : List SafeTransaction}
    (hlisted : answers.transactionsAtNonce proposal.safeNonce false = some transactions) :
    (followPayout answers currentNonce now proposal proposal).Agrees
      (followGoalAction answers currentNonce now proposal proposal) ↔
    ¬HidesExecution proposal transactions := by
  have hresolve := resolve_of_missing answers currentNonce now h
  have hrecover := (shouldRecover_iff answers currentNonce now hresolve).2 h
  have hpending : ∀ next, proposal.applyPending next now = proposal.update next now := fun next =>
    if_pos (by rw [h.1]; rfl)
  simp only [followPayout, followGoalAction, hresolve, hrecover, hlisted, if_true, hpending]
  unfold HidesExecution
  cases hown : transactions.find? fun candidate => candidate.safeTxHash = proposal.safeTxHash with
  | none =>
    -- nothing of the proposal is listed
    have hexec : transactions.find? (fun candidate =>
        candidate.isExecuted && decide (candidate.safeTxHash = proposal.safeTxHash)) = none := by
      rw [List.find?_eq_none] at hown ⊢
      intro x hx
      simp [show x.safeTxHash ≠ proposal.safeTxHash by simpa using hown x hx]
    simp [recoveredSafeTransaction, hexec, hown, SafePayoutProposal.Agrees]
  | some own =>
    cases hexecuted : own.isExecuted with
    | true =>
      have hexec := find?_executed hown hexecuted
      simp [recoveredSafeTransaction, hexec, SafePayoutProposal.Agrees, hexecuted]
    | false =>
      cases hexec : transactions.find? fun candidate =>
          candidate.isExecuted && decide (candidate.safeTxHash = proposal.safeTxHash) with
      | some execution =>
        have hexecution := List.find?_some hexec
        simp only [Bool.and_eq_true] at hexecution
        have := @classify_executed_agrees currentNonce now proposal _ _ hexecuted hexecution.1
        simpa [recoveredSafeTransaction, hexec, hexecuted] using this
      | none =>
        obtain ⟨-, hterminal, -⟩ :=
          classify_waiting currentNonce now (.inl hexecuted) proposal.safeNonce proposal.threshold
        by_cases hforeign : ∃ candidate ∈ transactions,
            candidate.isExecuted = true ∧ candidate.safeTxHash ≠ proposal.safeTxHash
        · -- the payout is stale, and the action still waits
          have hany : transactions.any (fun candidate => candidate.isExecuted &&
              !decide (candidate.safeTxHash = proposal.safeTxHash)) = true := by
            simpa using hforeign
          have hne : SafeProposalStatus.stale ≠ (classifySafeProposal own proposal.safeNonce
              currentNonce proposal.threshold now false).status := fun heq => by
            simp [← heq, SafeProposalStatus.terminal] at hterminal
          simpa [recoveredSafeTransaction, hexec, hany, hexecuted, classifyMissingSafeSubmission,
            SafePayoutProposal.Agrees, SafePayoutProposal.update, hne] using hforeign
        · have hany : transactions.any (fun candidate => candidate.isExecuted &&
              !decide (candidate.safeTxHash = proposal.safeTxHash)) = false := by
            simpa using hforeign
          simpa [recoveredSafeTransaction, hexec, hany, hown, hexecuted,
            SafePayoutProposal.Agrees] using hforeign

/-- Outside the recovery the two bodies are the same. -/
theorem followGoalAction_eq {proposal row : SafeProposal} (h : ¬(answers.Missing now proposal ∧
    ∃ transactions, answers.transactionsAtNonce proposal.safeNonce false = some transactions)) :
    followGoalAction answers currentNonce now proposal row =
      followPayout answers currentNonce now proposal row := by
  unfold followPayout followGoalAction
  split
  · rfl
  next error hresolve =>
  split_ifs with hrecover
  · split
    · rfl
    · next transactions hlisted =>
      exact absurd ⟨(shouldRecover_iff answers currentNonce now hresolve).1 hrecover,
        transactions, hlisted⟩ h
  · rfl

/-- **The three loops agree** on the status and the execution hash of a proposal, unless its
submission is looked for among the transactions at its nonce and the first one found there hides
an execution: lifecycle actions then take that transaction for the state of the proposal. -/
theorem safe_loops_agree_iff (policyChanged : Bool) (proposal : SafeProposal)
    (activeKey : Option (ℕ × Address)) :
    ((followPayout answers currentNonce now proposal proposal).Agrees
        (followGoalManager answers currentNonce now policyChanged proposal
          ⟨proposal, activeKey⟩).toSafePayoutProposal ∧
      (followPayout answers currentNonce now proposal proposal).Agrees
        (followGoalAction answers currentNonce now proposal proposal)) ↔
    ¬(answers.Missing now proposal ∧ ∃ transactions,
      answers.transactionsAtNonce proposal.safeNonce false = some transactions ∧
        HidesExecution proposal transactions) := by
  refine (and_iff_right (followGoalManager_agrees answers currentNonce now policyChanged proposal
    ⟨proposal, activeKey⟩)).trans ?_
  by_cases h : answers.Missing now proposal ∧
      ∃ transactions, answers.transactionsAtNonce proposal.safeNonce false = some transactions
  · obtain ⟨hmissing, transactions, hlisted⟩ := h
    rw [recovery_agrees_iff answers currentNonce now hmissing hlisted]
    simp [hmissing, hlisted]
  · rw [followGoalAction_eq answers currentNonce now h]
    refine iff_of_true ⟨rfl, rfl⟩ ?_
    rintro ⟨hmissing, transactions, hlisted, -⟩
    exact h ⟨hmissing, transactions, hlisted⟩

end Agreement

/-- A proposal at nonce 4 whose submission was not confirmed. -/
def unconfirmedProposal : SafeProposal where
  id := 1
  intentId := 1
  safeTxHash := 100
  safeNonce := 4
  senderAddress := 7
  confirmations := 1
  threshold := 2
  status := .submitting
  executionTxHash := none
  failureReason := none
  lastCheckedAt := none
  executedAt := none
  createdAt := 0

/-- A transaction at nonce 4. -/
def listedTransaction (safeTxHash : Hash) (isExecuted : Bool) : SafeTransaction where
  safeTxHash := safeTxHash
  nonce := 4
  confirmations := some 1
  confirmationsRequired := 2
  isExecuted := isExecuted
  isSuccessful := if isExecuted then some true else none
  transactionHash := if isExecuted then some 900 else none
  executionDate := if isExecuted then some 800000 else none

/-- The proposal was not found, and then its transaction is listed beside a foreign one that was
executed at the same nonce. -/
def lateAnswers : SafeAnswers where
  transaction := .error (.service (some 404))
  executedTransactions := .ok [listedTransaction 200 true]
  transactions := .ok [listedTransaction 100 false, listedTransaction 200 true]

/-- The payout and the change of the goal managers are stale, but the lifecycle action still
awaits confirmations. -/
theorem safe_loops_disagree :
    (followPayout lateAnswers 5 900000 unconfirmedProposal unconfirmedProposal).status = .stale ∧
      (followGoalManager lateAnswers 5 900000 false unconfirmedProposal
        ⟨unconfirmedProposal, some (1, 7)⟩).status = .stale ∧
      (followGoalAction lateAnswers 5 900000 unconfirmedProposal unconfirmedProposal).status =
        .awaitingConfirmations := by
  decide

end Escrow

end PreCommunity
