import PreCommunity.Admin.System

/-!
# The writes of the administration

Every routine of the administration writes in one of the known ways.  A claim for a proposal of the
goal managers is the only one that uses what was read before, the intent.

* `within_prepareGoalLifecycle`, `within_submitSafeGoalAction`, … : one lemma for every routine.
* `within_claimManager` : submitting an intent that is known.
-/

namespace PreCommunity

namespace Admin

open Store Concurrent Escrow

variable {config : Deployment} {w : World} {db db' : Database}

/-- A write to the tables of lifecycle actions. -/
theorem Write.ofAction (h : ActionWrite config w.db db)
    (hintents : db.managerIntents = w.db.managerIntents)
    (hproposals : db.managerProposals = w.db.managerProposals)
    (hnextId : w.db.nextId ≤ db.nextId) : Write config w ⟨db⟩ :=
  ⟨h, .elsewhere hintents hproposals hnextId⟩

/-- A write to the tables of the goal managers. -/
theorem Write.ofManager (h : ManagerWrite config w.db db)
    (hintents : db.actionIntents = w.db.actionIntents)
    (hproposals : db.actionProposals = w.db.actionProposals)
    (hnextId : w.db.nextId ≤ db.nextId) : Write config w ⟨db⟩ :=
  ⟨.elsewhere hintents hproposals hnextId, h⟩

/-! ### Rows -/

theorem pending_eq_not_terminal (status : SafeProposalStatus) :
    status.pending = !status.terminal := by
  cases status <;> rfl

theorem followGoalAction_cases (answers : SafeAnswers) (currentNonce : ℕ) (now : Time)
    (proposal row : SafeProposal) :
    (∃ next, followGoalAction answers currentNonce now proposal row = row.applyPending next now) ∨
      ∃ reason, followGoalAction answers currentNonce now proposal row =
        row.noteFailure reason now := by
  unfold followGoalAction
  split
  · exact .inl ⟨_, rfl⟩
  · split_ifs
    · split
      · exact .inr ⟨_, rfl⟩
      · exact .inl ⟨_, rfl⟩
    · exact .inr ⟨_, rfl⟩

theorem advances_followGoalAction (p : SafeProposal → Bool) (answers : SafeAnswers)
    (currentNonce : ℕ) (now : Time) (proposal : SafeProposal) :
    Advances p (followGoalAction answers currentNonce now proposal) := by
  refine ⟨fun row => ?_, fun row => ?_, fun row _ => ?_⟩ <;>
    obtain ⟨next, h⟩ | ⟨reason, h⟩ := followGoalAction_cases answers currentNonce now proposal row
      <;> rw [h] <;>
      simp only [SafePayoutProposal.applyPending, SafePayoutProposal.noteFailure] <;>
      split_ifs <;> simp_all [SafePayoutProposal.update]

theorem followGoalManager_cases (answers : SafeAnswers) (currentNonce : ℕ) (now : Time)
    (policyChanged : Bool) (proposal : SafeProposal) (row : SafeGoalManagerProposal) :
    (∃ next, followGoalManager answers currentNonce now policyChanged proposal row =
        row.applyPending next policyChanged now) ∨
      followGoalManager answers currentNonce now policyChanged proposal row =
        row.noteFailure policyChanged now := by
  unfold followGoalManager
  split
  · exact .inl ⟨_, rfl⟩
  · split_ifs
    · split
      · exact .inr rfl
      · split <;> exact .inl ⟨_, rfl⟩
    · exact .inr rfl

/-- Following a proposal frees its key just when it ends. -/
theorem keepsKey_followGoalManager (p : SafeGoalManagerProposal → Bool) (answers : SafeAnswers)
    (currentNonce : ℕ) (now : Time) (policyChanged : Bool) (proposal : SafeProposal) :
    KeepsKey p (followGoalManager answers currentNonce now policyChanged proposal) := by
  have hnote : ∀ row : SafeGoalManagerProposal, ((row.noteFailure policyChanged now).id = row.id ∧
      (row.noteFailure policyChanged now).intentId = row.intentId) ∧
      (row.noteFailure policyChanged now).status = row.status ∧
      (row.noteFailure policyChanged now).activeKey = row.activeKey := fun row => by
    unfold SafeGoalManagerProposal.noteFailure SafePayoutProposal.noteFailure
    split_ifs <;> exact ⟨⟨rfl, rfl⟩, rfl, rfl⟩
  have happly : ∀ (row : SafeGoalManagerProposal) next,
      ((row.applyPending next policyChanged now).id = row.id ∧
        (row.applyPending next policyChanged now).intentId = row.intentId) ∧
      (row.applyPending next policyChanged now = row ∨ row.status.pending = true ∧
        (row.applyPending next policyChanged now).status = next.status ∧
        (row.applyPending next policyChanged now).activeKey =
          if next.status.terminal then none else row.activeKey) := fun row next => by
    unfold SafeGoalManagerProposal.applyPending
    split_ifs with h <;>
      first | exact ⟨⟨rfl, rfl⟩, .inr ⟨h, rfl, rfl⟩⟩ | exact ⟨⟨rfl, rfl⟩, .inl rfl⟩
  refine ⟨fun row => ?_, fun row => ?_, fun row _ hpending => ?_, fun row _ hended => ?_⟩ <;>
    obtain ⟨next, h⟩ | h :=
      followGoalManager_cases answers currentNonce now policyChanged proposal row
  · exact h ▸ (happly row next).1.1
  · exact h ▸ (hnote row).1.1
  · exact h ▸ (happly row next).1.2
  · exact h ▸ (hnote row).1.2
  · rw [h] at hpending ⊢
    obtain ⟨-, hsame | ⟨hrow, hstatus, hkey⟩⟩ := happly row next
    · rw [hsame] at hpending ⊢
      exact ⟨hpending, rfl⟩
    · rw [hstatus, pending_eq_not_terminal] at hpending
      exact ⟨hrow, by rw [hkey, if_neg (by simpa using hpending)]⟩
  · rw [h] at hpending ⊢
    rw [(hnote row).2.1] at hpending
    exact ⟨hpending, (hnote row).2.2⟩
  · rw [h] at hended ⊢
    obtain ⟨-, hsame | ⟨hrow, hstatus, hkey⟩⟩ := happly row next
    · rw [hsame] at hended ⊢
      exact .inr ⟨hended, rfl⟩
    · rw [hstatus, pending_eq_not_terminal] at hended
      exact .inl (by rw [hkey, if_pos (by simpa using hended)])
  · rw [h] at hended ⊢
    rw [(hnote row).2.1] at hended
    exact .inr ⟨hended, (hnote row).2.2⟩

/-! ### Lifecycle actions -/

section Actions

variable (config : Deployment)

theorem within_updateActionIntents (p : Database → SafeGoalActionIntent → Bool) (now : Time) :
    Routine.Within (Write config) (transaction fun db =>
      .ok (db.updateActionIntents (p db) fun row => { row with consumedAt := some now })) := by
  refine within_transaction fun w db h => .inr ?_
  obtain rfl := Except.ok.inj h
  exact .ofAction (.consume _ now) rfl rfl le_rfl

theorem within_updateActionProposals {p : SafeProposal → Bool} {f : SafeProposal → SafeProposal}
    (hf : Advances p f) : Routine.Within (Write config) (transaction fun db =>
      .ok (db.updateActionProposals p f)) := by
  refine within_transaction fun w db h => .inr ?_
  obtain rfl := Except.ok.inj h
  exact .ofAction (.advance hf) rfl rfl le_rfl

/-- A change of proposals that are still being submitted advances them. -/
theorem advances_submitting {id : Id} {f : SafeProposal → SafeProposal}
    (hid : ∀ row, (f row).id = row.id) (hintent : ∀ row, (f row).intentId = row.intentId) :
    Advances (fun row => row.id = id ∧ row.status = .submitting) f := by
  refine ⟨hid, hintent, fun row hrow _ => ?_⟩
  rw [(by simpa using hrow : row.id = id ∧ row.status = .submitting).2]
  rfl

theorem within_exportLifecycle (safeAddress : Address) (dto : PrepareGoalLifecycle) (data : Hash)
    (now : Time) :
    Routine.Within (Write config) (exportLifecycle config safeAddress dto data now) := by
  unfold exportLifecycle
  refine Routine.within_bind (within_updateActionIntents config _ now) fun _ => ?_
  refine Routine.within_bind within_select fun existing => ?_
  split
  · exact Routine.within_pure _
  · refine Routine.within_bind (Routine.within_attempt _) fun _ => ?_
    refine Routine.within_bind (within_transaction fun w db h => .inr ?_) fun _ =>
      Routine.within_pure _
    unfold supersedeActionTx at h
    split_ifs at h
    obtain rfl := Except.ok.inj h
    exact .ofAction (.advance (advances_submitting (fun _ => rfl) fun _ => rfl)) rfl rfl le_rfl

theorem insertActionIntentTx_frame {goal : FundingGoal} {dto : PrepareGoalLifecycle}
    {actor : Address} {safeInfo : SafeRuntimeInfo} {safeNonce : ℕ} {data : Hash} {expiresAt : Time}
    {intent : SafeGoalActionIntent}
    (h : insertActionIntentTx config goal dto actor safeInfo safeNonce data expiresAt db =
      .ok (db', intent)) :
    db'.managerIntents = db.managerIntents ∧ db'.managerProposals = db.managerProposals ∧
      db.nextId ≤ db'.nextId := by
  unfold insertActionIntentTx at h
  simp only at h
  split_ifs at h
  obtain ⟨rfl, -⟩ := Prod.mk.inj (Except.ok.inj h)
  exact ⟨rfl, rfl, Nat.le_succ _⟩

theorem within_prepareActionIntent (goal : FundingGoal) (dto : PrepareGoalLifecycle)
    (actor : Address) (safeInfo : SafeRuntimeInfo) (data : Hash) (now : Time) :
    Routine.Within (Write config)
      (prepareActionIntent config goal dto actor safeInfo data now) := by
  unfold prepareActionIntent
  refine Routine.within_bind (within_updateActionIntents config _ now) fun _ => ?_
  refine Routine.within_bind within_select fun existing => ?_
  split
  · exact Routine.within_throw _
  refine Routine.within_bind (within_ask _) fun safeNonce => ?_
  refine Routine.within_bind (within_ask _) fun created => ?_
  refine Routine.within_bind (Routine.within_tryCatch
    (within_transactionOf fun w db intent h => .inr ?_) fun error => ?_) fun _ =>
      Routine.within_pure _
  · obtain ⟨hintents, hproposals, hnextId⟩ := insertActionIntentTx_frame config h
    exact .ofAction (.insert h) hintents hproposals hnextId
  · split <;> exact Routine.within_throw _

theorem within_prepareGoalLifecycle
    (encode : Hash → SafeGoalActionKind → Option MonthlySurplusPolicy → Hash) (goalId : Id)
    (dto : PrepareGoalLifecycle) (actor : Principal) :
    Routine.Within (Write config) (prepareGoalLifecycle config encode goalId dto actor) := by
  unfold prepareGoalLifecycle
  refine Routine.within_bind (within_ask _) fun now => ?_
  refine Routine.within_bind within_select fun found => ?_
  split
  · exact Routine.within_throw _
  refine Routine.within_bind (Routine.within_attempt _) fun _ => ?_
  simp only
  split
  · exact Routine.within_pure _
  split
  · exact Routine.within_throw _
  split
  · exact Routine.within_bind (within_ask _) fun _ => within_exportLifecycle config _ _ _ _
  · exact Routine.within_bind (within_ask _) fun _ => within_prepareActionIntent config _ _ _ _ _ _

theorem claimActionTx_frame {intent : SafeGoalActionIntent} {safeTxHash : Hash} {actor : Address}
    {threshold : ℕ} {consumedAt : Time} {proposal : SafeProposal}
    (h : claimActionTx intent safeTxHash actor threshold consumedAt db = .ok (db', proposal)) :
    db'.managerIntents = db.managerIntents ∧ db'.managerProposals = db.managerProposals ∧
      db.nextId ≤ db'.nextId := by
  unfold claimActionTx at h
  simp only at h
  split_ifs at h
  obtain ⟨rfl, -⟩ := Prod.mk.inj (Except.ok.inj h)
  exact ⟨rfl, rfl, Nat.le_succ _⟩

theorem within_sendAction (proposal : SafeProposal) (dto : SafeSubmission) (safeTxHash : Hash)
    (actor : Address) (threshold : ℕ) :
    Routine.Within (Write config) (sendAction proposal dto safeTxHash actor threshold) := by
  unfold sendAction
  refine Routine.within_bind (Routine.within_tryCatch (within_ask _) fun error => ?_) fun _ => ?_
  · refine Routine.within_bind (within_ask _) fun checkedAt => ?_
    refine Routine.within_bind (Routine.within_tryCatch (within_updateActionProposals config
      (advances_submitting (fun _ => rfl) fun _ => rfl)) fun _ => Routine.within_pure _) fun _ => ?_
    exact Routine.within_throw _
  · refine Routine.within_bind (within_updateActionProposals config
      (advances_submitting (fun _ => rfl) fun _ => rfl)) fun _ => ?_
    refine Routine.within_bind within_select fun submitted => ?_
    split
    · exact Routine.within_throw _
    · exact Routine.within_pure _

theorem within_claimActionProposal (intent : SafeGoalActionIntent) (safeTxHash : Hash)
    (actor : Address) (threshold : ℕ) :
    Routine.Within (Write config) (claimActionProposal intent safeTxHash actor threshold) := by
  unfold claimActionProposal
  refine Routine.within_tryCatch ?_ fun error => ?_
  · refine Routine.within_bind (within_ask _) fun consumedAt => ?_
    refine within_transactionOf fun w db proposal h => .inr ?_
    obtain ⟨hintents, hproposals, hnextId⟩ := claimActionTx_frame h
    exact .ofAction (.claim h) hintents hproposals hnextId
  · split
    · unfold concurrentAction
      refine Routine.within_bind within_select fun concurrent => ?_
      split
      · exact Routine.within_throw _
      · exact Routine.within_pure _
    · exact Routine.within_throw _

section Checks

variable {G : World → World → Prop}

theorem within_checkExpiry (submitted : Bool) (expiresAt : Time) (text : String) :
    Routine.Within G (checkExpiry submitted expiresAt text) := by
  unfold checkExpiry
  split
  · exact Routine.within_pure _
  · refine Routine.within_bind (within_ask _) fun now => ?_
    split
    · exact Routine.within_throw _
    · exact Routine.within_pure _

theorem within_checkNonce (submitted : Bool) (safeNonce : ℕ) (text : String) :
    Routine.Within G (checkNonce submitted safeNonce text) := by
  unfold checkNonce
  split
  · exact Routine.within_pure _
  · refine Routine.within_bind (within_ask _) fun nonce => ?_
    split
    · exact Routine.within_throw _
    · exact Routine.within_pure _

theorem within_checkHash (dto : SafeSubmission) : Routine.Within G (checkHash dto) := by
  unfold checkHash
  refine Routine.within_bind (within_ask _) fun calculatedHash => ?_
  split
  · exact Routine.within_throw _
  · exact Routine.within_pure _

theorem within_checkAction (intent : SafeGoalActionIntent) (proposal : Option SafeProposal)
    (goal : Option FundingGoal) (dto : SafeSubmission) :
    Routine.Within G (checkAction intent proposal goal dto) := by
  unfold checkAction
  refine Routine.within_bind (within_checkExpiry _ _ _) fun _ => ?_
  refine Routine.within_bind (within_ask _) fun now => ?_
  split
  · exact Routine.within_throw _
  · refine Routine.within_bind (within_checkNonce _ _ _) fun _ => ?_
    exact Routine.within_bind (within_ask _) fun _ => within_checkHash dto

theorem within_checkManager (hash : List Address → Hash) (intent : SafeGoalManagerIntent)
    (proposal : Option SafeGoalManagerProposal) (safeOwners : List Address)
    (dto : SafeSubmission) :
    Routine.Within G (checkManager hash intent proposal safeOwners dto) := by
  unfold checkManager
  refine Routine.within_bind (within_checkExpiry _ _ _) fun _ => ?_
  refine Routine.within_bind within_select fun ⟨actualManagers, assignments⟩ => ?_
  simp only
  split
  · exact Routine.within_throw _
  split
  · exact Routine.within_throw _
  · refine Routine.within_bind (within_checkNonce _ _ _) fun _ => ?_
    exact Routine.within_bind (within_ask _) fun _ => within_checkHash dto

end Checks

theorem within_submitSafeGoalAction (intentId : Id) (dto : SafeSubmission) (actor : Address) :
    Routine.Within (Write config) (submitSafeGoalAction config intentId dto actor) := by
  unfold submitSafeGoalAction
  split
  · exact Routine.within_throw _
  refine Routine.within_bind (within_ask _) fun safeInfo => ?_
  refine Routine.within_bind within_select fun found => ?_
  split
  · exact Routine.within_throw _
  next intent =>
  refine Routine.within_bind within_select fun proposal => ?_
  refine Routine.within_bind within_select fun goal => ?_
  split
  · exact Routine.within_throw _
  split
  · exact Routine.within_throw _
  split
  · exact Routine.within_pure _
  refine Routine.within_bind (within_checkAction _ _ _ _) fun calculatedHash => ?_
  split
  · exact within_sendAction config _ _ _ _ _
  · refine Routine.within_bind (within_claimActionProposal config _ _ _ _) fun claimed => ?_
    split
    · exact Routine.within_pure _
    · exact within_sendAction config _ _ _ _ _

theorem within_syncActions (currentNonce : ℕ) (now : Time) (pending : List SafeProposal) :
    Routine.Within (Write config) (syncActions currentNonce now pending) := by
  induction pending with
  | nil => exact Routine.within_pure _
  | cons proposal rest ih =>
    refine Routine.within_bind (within_ask _) fun answers => ?_
    exact Routine.within_bind (within_updateActionProposals config
      (advances_followGoalAction _ answers currentNonce now proposal)) fun _ => ih

theorem within_syncSafeGoalActionProposals (updatedAt : Id → Time) :
    Routine.Within (Write config) (syncSafeGoalActionProposals config updatedAt) := by
  unfold syncSafeGoalActionProposals
  split
  · exact Routine.within_pure _
  refine Routine.within_bind within_select fun pending => ?_
  split
  · exact Routine.within_pure _
  refine Routine.within_bind (within_ask _) fun currentNonce => ?_
  exact Routine.within_bind (within_ask _) fun now => within_syncActions config _ _ _

theorem within_confirmSafeGoalAction (goalId : Id) (kind : SafeGoalActionKind) (txHash : Hash)
    (occurredAt : Time) (targetPolicy : Option MonthlySurplusPolicy) :
    Routine.Within (Write config)
      (confirmSafeGoalAction goalId kind txHash occurredAt targetPolicy) := by
  unfold confirmSafeGoalAction
  refine Routine.within_bind within_select fun eligible => ?_
  simp only
  split
  · exact Routine.within_pure _
  · refine within_updateActionProposals config ⟨fun _ => rfl, fun _ => rfl, fun row _ h => ?_⟩
    cases h

end Actions

/-! ### Goal managers -/

section Managers

variable (config : Deployment) (hash : List Address → Hash)

theorem within_updateManagerProposals {p : Database → SafeGoalManagerProposal → Bool}
    {f : SafeGoalManagerProposal → SafeGoalManagerProposal} (hf : ∀ db, KeepsKey (p db) f) :
    Routine.Within (Write config) (transaction fun db =>
      .ok (db.updateManagerProposals (p db) f)) := by
  refine within_transaction fun w db h => .inr ?_
  obtain rfl := Except.ok.inj h
  exact .ofManager (.update (hf _)) rfl rfl le_rfl

theorem within_prepareManagerIntent (info : SafeRuntimeInfo) (changes : List GoalManagerChange)
    (desiredManagers : List Address) (actor : Address) :
    Routine.Within (Write config)
      (prepareManagerIntent config hash info changes desiredManagers actor) := by
  unfold prepareManagerIntent
  refine Routine.within_bind (within_ask _) fun ready => ?_
  split
  · exact Routine.within_throw _
  refine Routine.within_bind (within_ask _) fun safeNonce => ?_
  refine Routine.within_bind (within_ask _) fun now => ?_
  refine Routine.within_bind (within_transactionOf fun w db intent h => .inr ?_) fun _ =>
    Routine.within_pure _
  have hinsert := h
  obtain ⟨rfl, -⟩ := Prod.mk.inj (Except.ok.inj h)
  exact .ofManager (.insert hinsert) rfl rfl (Nat.le_succ _)

theorem within_prepareGoalManagerChanges (rawChanges : List GoalManagerChange) (actor : Address)
    (desiredManagers : List Address) (dto : PrepareSafeDelivery) (info : SafeRuntimeInfo) :
    Routine.Within (Write config)
      (prepareGoalManagerChanges config hash rawChanges actor desiredManagers dto info) := by
  unfold prepareGoalManagerChanges
  refine Routine.within_bind (Routine.within_attempt _) fun _ => ?_
  split
  · exact Routine.within_pure _
  split
  · exact Routine.within_pure _
  refine Routine.within_bind within_select fun existing => ?_
  split
  · exact Routine.within_pure _
  · exact within_prepareManagerIntent config hash _ _ _ _
  · refine Routine.within_bind (Routine.within_attempt _) fun _ => ?_
    refine Routine.within_bind (within_ask _) fun now => ?_
    refine Routine.within_bind (within_transaction fun w db h => .inr ?_) fun _ =>
      Routine.within_pure _
    unfold supersedeManagerTx at h
    split_ifs at h
    obtain rfl := Except.ok.inj h
    refine .ofManager (.update ⟨fun _ => rfl, fun _ => rfl, fun row _ hpending => ?_,
      fun row _ _ => .inl rfl⟩) rfl rfl le_rfl
    cases hpending
  · exact Routine.within_pure _

theorem within_reconcileAssignments (owners : List Address) :
    Routine.Within (Write config) (transaction fun db => .ok (reconcileAssignments owners db)) := by
  refine within_transaction fun w db h => .inr ?_
  obtain rfl := Except.ok.inj h
  exact .ofManager (.elsewhere rfl rfl le_rfl) rfl rfl le_rfl

theorem within_prepareSafeGoalManagerSync (actor : Address) (dto : PrepareSafeDelivery) :
    Routine.Within (Write config) (prepareSafeGoalManagerSync config hash actor dto) := by
  unfold prepareSafeGoalManagerSync
  refine Routine.within_bind (within_ask _) fun info => ?_
  refine Routine.within_bind (Routine.within_attempt _) fun _ => ?_
  refine Routine.within_bind (within_reconcileAssignments config _) fun _ => ?_
  refine Routine.within_bind within_select fun ⟨actualManagers, assignments⟩ => ?_
  exact within_prepareGoalManagerChanges config hash _ _ _ _ _

theorem within_assignGoalManager (address : Address) (enabled : Bool) (dto : PrepareSafeDelivery)
    (actor : Address) (info : SafeRuntimeInfo) :
    Routine.Within (Write config)
      (assignGoalManager config hash address enabled dto actor info) := by
  unfold assignGoalManager
  refine Routine.within_bind (within_reconcileAssignments config _) fun _ => ?_
  refine Routine.within_bind (within_transaction fun w db h => .inr ?_) fun _ => ?_
  · obtain rfl := Except.ok.inj h
    exact .ofManager (.elsewhere rfl rfl le_rfl) rfl rfl le_rfl
  refine Routine.within_bind within_select fun ⟨actualManagers, assignments⟩ => ?_
  refine Routine.within_bind (within_ask _) fun now => ?_
  refine Routine.within_bind (within_updateManagerProposals config fun db =>
    ⟨fun _ => rfl, fun _ => rfl, fun row _ h => ⟨h, rfl⟩, fun row _ h => .inr ⟨h, rfl⟩⟩) fun _ => ?_
  exact within_prepareGoalManagerChanges config hash _ _ _ _ _

theorem within_updateGoalManager (address : Address) (enabled : Bool) (dto : PrepareSafeDelivery)
    (actor : Address) :
    Routine.Within (Write config) (updateGoalManager config hash address enabled dto actor) := by
  unfold updateGoalManager
  refine Routine.within_bind (within_ask _) fun info => ?_
  refine Routine.within_bind (Routine.within_attempt _) fun _ => ?_
  split
  · exact Routine.within_throw _
  split
  · refine Routine.within_bind within_select fun existing => ?_
    split
    · exact within_assignGoalManager config hash _ _ _ _ _
    · exact Routine.within_bind (Routine.within_attempt _) fun _ =>
        within_assignGoalManager config hash _ _ _ _ _
  · exact within_assignGoalManager config hash _ _ _ _ _

theorem within_updateSubmittingManager (proposalId : Id) {f : SafeProposal → SafeProposal}
    (hid : ∀ row, (f row).id = row.id) (hintent : ∀ row, (f row).intentId = row.intentId)
    (hpending : ∀ row, (f row).status.pending = row.status.pending ∨
      (f row).status.pending = true) :
    Routine.Within (Write config) (updateSubmittingManager proposalId f) := by
  refine within_updateManagerProposals config fun db => ⟨fun row => hid _, fun row => hintent _,
    fun row hrow _ => ⟨?_, rfl⟩, fun row hrow hended => ?_⟩
  · rw [(by simpa using hrow : row.id = proposalId ∧ row.status = .submitting).2]
    rfl
  · obtain h | h := hpending row.toSafePayoutProposal
    · exact .inr ⟨h ▸ hended, rfl⟩
    · rw [h] at hended
      cases hended

theorem within_sendManager (proposal : SafeGoalManagerProposal) (dto : SafeSubmission)
    (safeTxHash : Hash) (actor : Address) (threshold : ℕ) :
    Routine.Within (Write config) (sendManager proposal dto safeTxHash actor threshold) := by
  unfold sendManager
  refine Routine.within_bind (Routine.within_tryCatch (within_ask _) fun error => ?_) fun _ => ?_
  · refine Routine.within_bind (within_ask _) fun checkedAt => ?_
    refine Routine.within_bind (Routine.within_tryCatch (within_updateSubmittingManager config _
      (fun _ => rfl) (fun _ => rfl) fun _ => .inl rfl) fun _ => Routine.within_pure _) fun _ => ?_
    exact Routine.within_throw _
  · refine Routine.within_bind (within_updateSubmittingManager config _ (fun _ => rfl)
      (fun _ => rfl) fun row => .inr ?_) fun _ => ?_
    · unfold markSubmittedRow
      split_ifs <;> rfl
    refine Routine.within_bind within_select fun submitted => ?_
    split
    · exact Routine.within_throw _
    · exact Routine.within_pure _

theorem claimManagerTx_frame {intent : SafeGoalManagerIntent} {safeTxHash : Hash}
    {actor : Address} {threshold : ℕ} {claimedAt : Time} {proposal : SafeGoalManagerProposal}
    (h : claimManagerTx intent safeTxHash actor threshold claimedAt db = .ok (db', proposal)) :
    db'.actionIntents = db.actionIntents ∧ db'.actionProposals = db.actionProposals ∧
      db.nextId ≤ db'.nextId := by
  unfold claimManagerTx at h
  simp only at h
  split_ifs at h
  obtain ⟨rfl, -⟩ := Prod.mk.inj (Except.ok.inj h)
  exact ⟨rfl, rfl, Nat.le_succ _⟩

/-- The writes of a submission are known as long as its intent is. -/
theorem within_claimManager (intent : SafeGoalManagerIntent) (calculatedHash : Hash)
    (dto : SafeSubmission) (actor : Address) (threshold : ℕ) :
    Routine.Within (fun w w' => w.db.HasManagerIntent intent → Write config w w') (do
      let claimed ← claimManagerProposal intent calculatedHash actor threshold
      if claimed.status ≠ .submitting then return claimed
      else sendManager claimed dto calculatedHash actor threshold) := by
  refine Routine.within_bind ?_ fun claimed => ?_
  · unfold claimManagerProposal
    refine Routine.within_tryCatch ?_ fun error => ?_
    · refine Routine.within_bind (within_ask _) fun claimedAt => ?_
      refine within_transactionOf fun w db proposal h => .inr fun hintent => ?_
      obtain ⟨hintents, hproposals, hnextId⟩ := claimManagerTx_frame h
      exact .ofManager (.claim hintent h) hintents hproposals hnextId
    · split
      · unfold concurrentManager
        refine Routine.within_bind within_select fun concurrent => ?_
        split
        · exact Routine.within_throw _
        · split
          · exact Routine.within_throw _
          · exact Routine.within_pure _
      · exact Routine.within_throw _
  · split
    · exact Routine.within_pure _
    · exact Routine.Within.mono (fun w w' h (_ : w.db.HasManagerIntent intent) => h)
        (within_sendManager config claimed dto calculatedHash actor threshold)

theorem within_syncManagers (currentNonce : ℕ) (now : Time)
    (pending : List (SafeGoalManagerProposal × Bool)) :
    Routine.Within (Write config) (syncManagers currentNonce now pending) := by
  induction pending with
  | nil => exact Routine.within_pure _
  | cons head rest ih =>
    obtain ⟨proposal, policyChanged⟩ := head
    refine Routine.within_bind (within_ask _) fun answers => ?_
    exact Routine.within_bind (within_updateManagerProposals config fun _ =>
      keepsKey_followGoalManager _ answers currentNonce now policyChanged _) fun _ => ih

theorem within_syncSafeGoalManagerProposals (updatedAt : Id → Time) :
    Routine.Within (Write config) (syncSafeGoalManagerProposals config hash updatedAt) := by
  unfold syncSafeGoalManagerProposals
  split
  · exact Routine.within_pure _
  refine Routine.within_bind (within_ask _) fun currentNonce => ?_
  refine Routine.within_bind (within_ask _) fun safeOwners => ?_
  refine Routine.within_bind within_select fun ⟨actualManagers, assignments⟩ => ?_
  refine Routine.within_bind within_select fun pending => ?_
  exact Routine.within_bind (within_ask _) fun now => within_syncManagers config _ _ _

end Managers

end Admin

end PreCommunity
