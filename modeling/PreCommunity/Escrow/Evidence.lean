import PreCommunity.Concurrent.Sequential
import PreCommunity.Escrow.Transactions

/-!
# The evidence of the synchronisation

A pass that follows the Safe ends a proposal only for a reason that the Safe gave it, and frees a
reserved payout only together with such an end, or when nobody submitted the reservation in time.

* `Reported`, `Replaced`, `Lost` : what the answers of the Safe say about a proposal.
* `Justified` : the evidence for a status.
* `SyncWrite`, `wp_evidence` : what a pass commits, given the answers before it.
* `Identities` : what never changes about a row.
* `Proven` : the rows that a transaction of the pass may change.
* `safe_sync_proven` : every transaction of a pass is proven.
* `expired_reservation_freed` : a payout may fail without any proposal.
-/

namespace PreCommunity

namespace Escrow

open Store Concurrent

/-! ### What the Safe said -/

/-- The question was answered so. -/
def Answered (h : Log) (q : Query) (a : Except Failure (Reply q)) : Prop := ∃ w, .asked w q a ∈ h

/-- The transaction was reported as the proposal's own. -/
inductive Reported (h : Log) (proposal : SafePayoutProposal) (transaction : SafeTransaction) :
    Prop where
  | lookup : Answered h (.safeTransaction proposal.safeTxHash) (.ok transaction) →
      Reported h proposal transaction
  | listed {executedOnly : Bool} {listing : List SafeTransaction} :
      Answered h (.multisigTransactions proposal.safeNonce executedOnly) (.ok listing) →
      transaction ∈ listing → transaction.nonce = proposal.safeNonce →
      transaction.safeTxHash = proposal.safeTxHash → Reported h proposal transaction

/-- A listing at the proposal's nonce has an executed transaction, and none of them is the
proposal's own. -/
def Replaced (h : Log) (proposal : SafePayoutProposal) : Prop :=
  ∃ (executedOnly : Bool) (listing : List SafeTransaction),
    Answered h (.multisigTransactions proposal.safeNonce executedOnly) (.ok listing) ∧
    (∃ transaction ∈ listing, transaction.nonce = proposal.safeNonce ∧
      transaction.isExecuted = true ∧ transaction.safeTxHash ≠ proposal.safeTxHash) ∧
    ∀ transaction ∈ listing, transaction.nonce = proposal.safeNonce →
      transaction.isExecuted = true → transaction.safeTxHash ≠ proposal.safeTxHash

/-- The proposal never reached the Safe. -/
structure Lost (h : Log) (proposal : SafePayoutProposal) : Prop where
  submitting : proposal.status = .submitting
  old : ∃ now : Time, Answered h .now (.ok now) ∧
    safeSubmittingRecoveryDelayMs ≤ now - proposal.createdAt
  missing : Answered h (.safeTransaction proposal.safeTxHash) (.error (.service (some 404)))
  absent : ∃ listing : List SafeTransaction,
    Answered h (.multisigTransactions proposal.safeNonce false) (.ok listing) ∧
    ∀ transaction ∈ listing, transaction.nonce = proposal.safeNonce →
      transaction.safeTxHash ≠ proposal.safeTxHash ∧ transaction.isExecuted = false
  current : ∃ currentNonce : ℕ, Answered h .safeNonce (.ok currentNonce) ∧
    currentNonce ≤ proposal.safeNonce

/-- **The evidence** for a status. -/
def Justified (h : Log) (proposal : SafePayoutProposal) : SafeProposalStatus → Prop
  | .executed => ∃ transaction, Reported h proposal transaction ∧
      transaction.isExecuted = true ∧ transaction.isSuccessful = some true
  | .stale => Replaced h proposal
  | .failed => (∃ transaction, Reported h proposal transaction ∧
      transaction.isExecuted = true ∧ transaction.isSuccessful = some false) ∨ Lost h proposal
  | .submitting | .awaitingConfirmations | .readyToExecute => True

section

variable {h h' : Log} {q : Query} {a : Except Failure (Reply q)} {e : Event World Reply Failure}

theorem Answered.mono (ha : Answered h q a) (hsub : h ⊆ h') : Answered h' q a :=
  ha.imp fun _ hmem => hsub hmem

theorem Answered.cons (ha : Answered h q a) : Answered (e :: h) q a :=
  ha.mono (List.subset_cons_self e h)

theorem answered_asked {w : World} : Answered (.asked w q a :: h) q a := ⟨w, .head _⟩

end

/-! ### What the answers mean -/

section

variable {h : Log} {proposal : SafePayoutProposal}

/-- **The classification** of a reported transaction is justified. -/
theorem justified_classify {transaction : SafeTransaction} (hr : Reported h proposal transaction)
    {replaced : Bool} (hreplaced : replaced = true → Replaced h proposal)
    (currentNonce fallbackThreshold : ℕ) (now : Time) :
    Justified h proposal (classifySafeProposal transaction proposal.safeNonce currentNonce
      fallbackThreshold now replaced).status := by
  have hwaiting : ∀ (c : Prop) [Decidable c], Justified h proposal
      (if c then .readyToExecute else .awaitingConfirmations) := by
    intro c _
    split_ifs <;> trivial
  unfold classifySafeProposal
  extract_lets confirmations threshold waiting executedAt
  split_ifs with hexecuted hnonce
  · rcases hsuccessful : transaction.isSuccessful with _ | _ | _
    · exact hwaiting _
    · exact .inl ⟨transaction, hr, hexecuted, hsuccessful⟩
    · exact ⟨transaction, hr, hexecuted, hsuccessful⟩
  · exact hreplaced hnonce
  · exact hwaiting _
  · exact hwaiting _

theorem mem_atNonce {nonce : ℕ} {executedOnly : Bool} {listing : List SafeTransaction}
    {transaction : SafeTransaction}
    (hmem : transaction ∈ listing.filter fun transaction =>
      (!executedOnly || transaction.isExecuted) && transaction.nonce = nonce) :
    transaction ∈ listing ∧ transaction.nonce = nonce ∧
      (executedOnly = true → transaction.isExecuted = true) := by
  obtain ⟨hlisting, hcondition⟩ := List.mem_filter.1 hmem
  simp only [Bool.and_eq_true, Bool.or_eq_true, Bool.not_eq_true', decide_eq_true_eq]
    at hcondition
  refine ⟨hlisting, hcondition.2, fun honly => ?_⟩
  rcases hcondition.1 with hnot | hexecuted
  · rw [honly] at hnot
    cases hnot
  · exact hexecuted

/-- Executed transactions of which none is the proposal's own replace it. -/
theorem replaced_of_executed {listing : List SafeTransaction}
    (ha : Answered h (.multisigTransactions proposal.safeNonce true) (.ok listing))
    (hnone : (listing.filter fun transaction => (!true || transaction.isExecuted) &&
      decide (transaction.nonce = proposal.safeNonce)).find? (fun candidate =>
        decide (candidate.safeTxHash = proposal.safeTxHash)) = none)
    (hne : (listing.filter fun transaction => (!true || transaction.isExecuted) &&
      decide (transaction.nonce = proposal.safeNonce)) ≠ []) : Replaced h proposal := by
  have hother : ∀ transaction ∈ listing, transaction.nonce = proposal.safeNonce →
      transaction.isExecuted = true → transaction.safeTxHash ≠ proposal.safeTxHash := by
    intro transaction hmem hnonce hexecuted hhash
    refine List.find?_eq_none.1 hnone transaction (List.mem_filter.2 ⟨hmem, ?_⟩)
      (decide_eq_true hhash)
    rw [hexecuted, Bool.or_true, Bool.true_and]
    exact decide_eq_true hnonce
  obtain ⟨transaction, hmem⟩ := List.exists_mem_of_ne_nil _ hne
  obtain ⟨hlisting, hnonce, hexecuted⟩ := mem_atNonce hmem
  exact ⟨true, listing, ha, ⟨transaction, hlisting, hnonce, hexecuted rfl,
    hother transaction hlisting hnonce (hexecuted rfl)⟩, hother⟩

variable {listing : List SafeTransaction}

/-- The transactions of a listing at the proposal's nonce. -/
def atNonce (proposal : SafePayoutProposal) (listing : List SafeTransaction) :
    List SafeTransaction :=
  listing.filter fun transaction =>
    (!false || transaction.isExecuted) && decide (transaction.nonce = proposal.safeNonce)

theorem mem_atNonce_iff {transaction : SafeTransaction} :
    transaction ∈ atNonce proposal listing ↔
      transaction ∈ listing ∧ transaction.nonce = proposal.safeNonce := by
  simp [atNonce]

/-- **A recovered transaction** is the proposal's own. -/
theorem reported_of_recovered {own : SafeTransaction} {replaced : Bool}
    (ha : Answered h (.multisigTransactions proposal.safeNonce false) (.ok listing))
    (hrecovered : recoveredSafeTransaction (atNonce proposal listing) proposal.safeTxHash =
      (some own, replaced)) : Reported h proposal own := by
  have hfirst := congrArg Prod.fst hrecovered
  have hmem : own ∈ atNonce proposal listing ∧ own.safeTxHash = proposal.safeTxHash := by
    simp only [recoveredSafeTransaction] at hfirst
    rcases hexecution : (atNonce proposal listing).find? (fun candidate => candidate.isExecuted &&
      decide (candidate.safeTxHash = proposal.safeTxHash)) with _ | found
    · rw [hexecution] at hfirst
      simp only [Option.isNone_none, Bool.true_and, Option.orElse_eq_orElse, Option.orElse_none]
        at hfirst
      split_ifs at hfirst with hreplaced
      have hown := List.find?_some hfirst
      exact ⟨List.mem_of_find?_eq_some hfirst, of_decide_eq_true hown⟩
    · rw [hexecution] at hfirst
      obtain rfl : found = own := Option.some.inj hfirst
      have hfound := List.find?_some hexecution
      rw [Bool.and_eq_true, decide_eq_true_eq] at hfound
      exact ⟨List.mem_of_find?_eq_some hexecution, hfound.2⟩
  obtain ⟨hlisting, hnonce⟩ := mem_atNonce_iff.1 hmem.1
  exact .listed ha hlisting hnonce hmem.2

/-- **Nothing was recovered**: another transaction was executed instead, or there is neither the
proposal's own nor an executed one. -/
theorem missing_of_recovered {replaced : Bool}
    (ha : Answered h (.multisigTransactions proposal.safeNonce false) (.ok listing))
    (hrecovered : recoveredSafeTransaction (atNonce proposal listing) proposal.safeTxHash =
      (none, replaced)) :
    (replaced = true → Replaced h proposal) ∧ (replaced = false →
      ∀ transaction ∈ listing, transaction.nonce = proposal.safeNonce →
        transaction.safeTxHash ≠ proposal.safeTxHash ∧ transaction.isExecuted = false) := by
  have hfirst := congrArg Prod.fst hrecovered
  have hsecond := congrArg Prod.snd hrecovered
  simp only [recoveredSafeTransaction] at hfirst hsecond
  rcases hexecution : (atNonce proposal listing).find? (fun candidate => candidate.isExecuted &&
    decide (candidate.safeTxHash = proposal.safeTxHash)) with _ | found
  · rw [hexecution] at hfirst hsecond
    simp only [Option.isNone_none, Bool.true_and, Option.orElse_eq_orElse, Option.orElse_none]
      at hfirst hsecond
    have hnotOwn : ∀ transaction ∈ listing, transaction.nonce = proposal.safeNonce →
        transaction.isExecuted = true → transaction.safeTxHash ≠ proposal.safeTxHash := by
      intro transaction hmem hnonce hexecuted hhash
      refine List.find?_eq_none.1 hexecution transaction (mem_atNonce_iff.2 ⟨hmem, hnonce⟩) ?_
      rw [hexecuted, Bool.true_and]
      exact decide_eq_true hhash
    constructor
    · rintro rfl
      obtain ⟨transaction, hmem, hforeign⟩ := List.any_eq_true.1 hsecond
      rw [Bool.and_eq_true] at hforeign
      obtain ⟨hlisting, hnonce⟩ := mem_atNonce_iff.1 hmem
      exact ⟨false, listing, ha, ⟨transaction, hlisting, hnonce, hforeign.1,
        hnotOwn transaction hlisting hnonce hforeign.1⟩, hnotOwn⟩
    · rintro rfl transaction hmem hnonce
      rw [hsecond, if_neg Bool.false_ne_true] at hfirst
      have hmem' := mem_atNonce_iff.2 ⟨hmem, hnonce⟩
      have hown : transaction.safeTxHash ≠ proposal.safeTxHash := fun hhash =>
        List.find?_eq_none.1 hfirst transaction hmem' (decide_eq_true hhash)
      refine ⟨hown, Bool.eq_false_of_not_eq_true fun hexecuted => ?_⟩
      have hany := List.any_eq_false.1 hsecond transaction hmem'
      refine hany ?_
      rw [hexecuted, Bool.true_and, decide_eq_false hown]
      rfl
  · rw [hexecution] at hfirst
    cases hfirst

end

/-! ### What a pass commits -/

/-- What a pass may commit, given what it was told before. -/
inductive SyncWrite (h : Log) (db : Database) : Database → Prop where
  | idle : SyncWrite h db db
  | expire {now : Time} {w : World} {candidates : List SafePayoutIntent} :
      Answered h .now (.ok now) → Saw h w →
      (∀ intent ∈ candidates, intent ∈ w.db.payoutIntents) →
      SyncWrite h db (expireTx now candidates db)
  | reconcile {tracked : TrackedProposal} {executionTxHash : Hash} :
      SyncWrite h db (reconcileConfirmedSafePayout tracked.payout executionTxHash db).1
  | update {tracked : TrackedProposal} {next : ProposalUpdate} {now : Time} {failPayout : Bool} :
      Tracked h tracked → Justified h tracked.proposal next.status →
      (failPayout = true → next.status = .failed ∨ next.status = .stale) →
      SyncWrite h db (applyUpdate tracked next now failPayout db).1
  | unavailable {proposalId : Id} {now : Time} :
      SyncWrite h db (noteUnavailable proposalId now db)

section

variable {answers : World → (q : Query) → Except Failure (Reply q) → Prop}

/-- The discipline of a pass: any answers, anything may happen in between. -/
def syncDiscipline (answers : World → (q : Query) → Except Failure (Reply q) → Prop) :
    Discipline World Reply Failure where
  inv _ := True
  rely _ _ := True
  answers := answers
  guar h w w' := SyncWrite h w.db w'.db
  asks _ _ _ := True
  rely_refl _ := trivial
  rely_trans _ _ := trivial
  guar_refl _ _ := .idle

variable {E : Failure → Sight → Prop} {v : Sight} {α : Type}

theorem sync_ask {q : Query} {Q : Reply q → Sight → Prop}
    (hQ : ∀ r w, Q r (v.asked w q (.ok r))) (hE : ∀ e w, E e (v.asked w q (.error e))) :
    Routine.wp (syncDiscipline answers) (ask q) Q E v :=
  Routine.wp_ask fun w _ _ => ⟨trivial, fun r _ => hQ r w, fun e _ => hE e w⟩

theorem sync_select {f : Database → α} {Q : α → Sight → Prop} (hQ : ∀ w, Q (f w.db) (v.ran w w))
    (hE : ∀ w, E .other (v.ran w w)) :
    Routine.wp (syncDiscipline answers) (select f) Q E v :=
  wp_select fun w _ _ => ⟨hQ w, hE w⟩

/-- A transaction that never rolls back. -/
theorem sync_transaction {f : Database → Database} {Q : Unit → Sight → Prop}
    (hwrite : ∀ db, SyncWrite v.hist db (f db)) (hQ : ∀ w w', Q () (v.ran w w'))
    (hE : ∀ w w', E .other (v.ran w w')) :
    Routine.wp (syncDiscipline answers) (transaction fun db => .ok (f db)) Q E v := by
  refine wp_transaction (fun w _ _ => hE w w) (fun w db _ _ ht => ?_) fun w e _ _ ht => nomatch ht
  obtain rfl := Except.ok.inj ht
  exact ⟨hwrite w.db, hQ _ _, hE _ _⟩

theorem sync_listing {nonce : ℕ} {executedOnly : Bool}
    {Q : Option (List SafeTransaction) → Sight → Prop}
    (hsome : ∀ w (listing : List SafeTransaction),
      Q (some (listing.filter fun transaction =>
          (!executedOnly || transaction.isExecuted) && decide (transaction.nonce = nonce)))
        (v.asked w (.multisigTransactions nonce executedOnly) (.ok listing)))
    (hnone : ∀ w e, Q none (v.asked w (.multisigTransactions nonce executedOnly) (.error e))) :
    Routine.wp (syncDiscipline answers) (safeTransactionsAtNonce nonce executedOnly) Q E v := by
  unfold safeTransactionsAtNonce
  refine (Routine.wp_tryCatch _ _).2 ((Routine.wp_bind _ _).2
    (sync_ask (fun listing w => ?_) fun e w => hnone w e))
  exact hsome w listing

theorem sync_unavailable {proposalId : Id} {now : Time} :
    Routine.wp (syncDiscipline answers)
      (transaction fun db => .ok (noteUnavailable proposalId now db)) (fun _ _ => True)
      (fun _ _ => True) v :=
  sync_transaction (fun _ => .unavailable) (fun _ _ => trivial) fun _ _ => trivial

/-- **An update** for which there is evidence. -/
theorem sync_update {tracked : TrackedProposal} {next : ProposalUpdate} {now : Time}
    {failPayout : Bool} (hv : Tracked v.hist tracked)
    (hnext : Justified v.hist tracked.proposal next.status)
    (hfail : failPayout = true → next.status = .failed ∨ next.status = .stale)
    {Q : Unit → Sight → Prop} (hQ : ∀ v', Q () v') (hE : ∀ v', E .other v') :
    Routine.wp (syncDiscipline answers)
      (transaction fun db => .ok (applyUpdate tracked next now failPayout db).1) Q E v :=
  sync_transaction (fun _ => .update hv hnext hfail) (fun _ _ => hQ _) fun _ _ => hE _

/-- The update that a lookup leads to; none of its failures is an answer of the Safe. -/
theorem sync_resolved {tracked : TrackedProposal} {next : ProposalUpdate} {now : Time}
    (hv : Tracked v.hist tracked) (hnext : Justified v.hist tracked.proposal next.status) :
    Routine.wp (syncDiscipline answers)
      (transaction fun db => .ok (applyUpdate tracked next now
        (next.status = .failed ∨ next.status = .stale) db).1)
      (fun _ _ => True)
      (fun e v' => e = .service (some 404) →
        Answered v'.hist (.safeTransaction tracked.proposal.safeTxHash) (.error e)) v :=
  sync_update hv hnext of_decide_eq_true (fun _ => trivial) fun _ => nofun

/-- The lookup of a proposal ends with its own transaction, or fails; a failure with status 404 is
the answer to the lookup. -/
theorem sync_lookup {tracked : TrackedProposal} {currentNonce : ℕ} {now : Time}
    (hv : Tracked v.hist tracked) :
    Routine.wp (syncDiscipline answers)
      (do
        let (resolved, nonceWasReplaced) ← resolveSafeTransaction tracked.proposal currentNonce
        let next := classifySafeProposal resolved tracked.proposal.safeNonce currentNonce
          tracked.proposal.threshold now nonceWasReplaced
        transaction fun db => .ok (applyUpdate tracked next now
          (next.status = .failed ∨ next.status = .stale) db).1)
      (fun _ _ => True)
      (fun e v' => e = .service (some 404) →
        Answered v'.hist (.safeTransaction tracked.proposal.safeTxHash) (.error e)) v := by
  unfold resolveSafeTransaction
  refine (Routine.wp_bind _ _).2 ((Routine.wp_bind _ _).2 (sync_ask
    (fun (found : SafeTransaction) w => ?_) fun e w _ => answered_asked))
  have hfound : Reported (v.asked w (.safeTransaction tracked.proposal.safeTxHash)
      (.ok found)).hist tracked.proposal found := .lookup answered_asked
  refine Routine.wp_ite (fun _ => ?_) fun _ => ?_
  · refine (Routine.wp_bind _ _).2 (sync_listing (fun w₁ listing => ?_) fun w₁ e => ?_)
    · -- the executed transactions at the nonce
      have hlisting : Answered ((v.asked w (.safeTransaction tracked.proposal.safeTxHash)
          (.ok found)).asked w₁ (.multisigTransactions tracked.proposal.safeNonce true)
          (.ok listing)).hist (.multisigTransactions tracked.proposal.safeNonce true)
          (.ok listing) := answered_asked
      extract_lets executed
      split
      · rename_i own hown
        have hmem : own ∈ executed := List.mem_of_find?_eq_some hown
        obtain ⟨hin, hnonce, -⟩ := mem_atNonce hmem
        have hhash := List.find?_some hown
        refine sync_resolved hv.cons.cons ?_
        exact justified_classify (.listed hlisting hin hnonce (of_decide_eq_true hhash))
            (fun h => absurd h Bool.false_ne_true) _ _ _
      · rename_i hnone
        refine sync_resolved hv.cons.cons ?_
        exact justified_classify (.lookup answered_asked.cons)
            (fun hne => replaced_of_executed hlisting hnone (of_decide_eq_true hne)) _ _ _
    · -- the listing has failed
      refine sync_resolved hv.cons.cons ?_
      exact justified_classify (.lookup answered_asked.cons)
          (fun hne => absurd rfl (of_decide_eq_true hne)) _ _ _
  · refine sync_resolved hv.cons ?_
    exact justified_classify hfound (fun h => absurd h Bool.false_ne_true) _ _ _

/-- **The recovery** of a submission that the Safe does not know. -/
theorem sync_recover {tracked : TrackedProposal} {currentNonce : ℕ} {now : Time}
    (hv : Tracked v.hist tracked) (hnow : Answered v.hist .now (.ok now))
    (hnonce : Answered v.hist .safeNonce (.ok currentNonce))
    (hmissing : Answered v.hist (.safeTransaction tracked.proposal.safeTxHash)
      (.error (.service (some 404))))
    (hsubmitting : tracked.proposal.status = .submitting)
    (hold : safeSubmittingRecoveryDelayMs ≤ now - tracked.proposal.createdAt) :
    Routine.wp (syncDiscipline answers) (recoverSubmission tracked currentNonce now)
      (fun _ _ => True) (fun _ _ => True) v := by
  unfold recoverSubmission
  refine (Routine.wp_bind _ _).2 (sync_listing (fun w listing => ?_) fun w e => sync_unavailable)
  have hlisting : Answered (v.asked w (.multisigTransactions tracked.proposal.safeNonce false)
      (.ok listing)).hist (.multisigTransactions tracked.proposal.safeNonce false)
      (.ok listing) := answered_asked
  dsimp only
  rcases hrecovered : recoveredSafeTransaction (atNonce tracked.proposal listing)
    tracked.proposal.safeTxHash with ⟨_ | own, replaced⟩
  · have hcase := missing_of_recovered hlisting hrecovered
    rw [atNonce] at hrecovered
    rw [hrecovered]
    dsimp only
    generalize hnext : classifyMissingSafeSubmission tracked.proposal.safeNonce currentNonce
      replaced = next
    have hne : next.status ≠ .executed := by
      rw [← hnext, classifyMissingSafeSubmission]
      split_ifs <;> nofun
    have hjustified : Justified (v.asked w (.multisigTransactions tracked.proposal.safeNonce false)
        (.ok listing)).hist tracked.proposal next.status := by
      rw [← hnext, classifyMissingSafeSubmission]
      split_ifs with hreplaced hbehind
      · exact hcase.1 hreplaced
      · trivial
      · exact .inr ⟨hsubmitting, ⟨now, hnow.cons, hold⟩, hmissing.cons,
          ⟨listing, hlisting, hcase.2 (Bool.eq_false_of_not_eq_true hreplaced)⟩,
          ⟨currentNonce, hnonce.cons, not_lt.1 hbehind⟩⟩
    simp only [← applyUpdate_of_ne hne]
    refine sync_update hv.cons hjustified ?_ (fun _ => trivial) fun _ => trivial
    exact of_decide_eq_true
  · have hreported := reported_of_recovered hlisting hrecovered
    rw [atNonce] at hrecovered
    rw [hrecovered]
    dsimp only
    refine sync_update hv.cons ?_ ?_ (fun _ => trivial) fun _ => trivial
    · exact justified_classify hreported (fun h => absurd h Bool.false_ne_true) _ _ _
    · exact fun h => .inl (of_decide_eq_true h)

/-- **One pending proposal** is looked up. -/
theorem sync_proposal {tracked : TrackedProposal} {currentNonce : ℕ} {now : Time}
    (hv : Tracked v.hist tracked) (hnow : Answered v.hist .now (.ok now))
    (hnonce : Answered v.hist .safeNonce (.ok currentNonce)) :
    Routine.wp (syncDiscipline answers) (syncProposal tracked currentNonce now) (fun _ _ => True)
      (fun _ _ => True) v := by
  unfold syncProposal
  refine (Routine.wp_tryCatch _ _).2 (Routine.wp_mono (Routine.wp_hist (sync_lookup hv))
    (fun _ _ _ => trivial) ?_)
  rintro e v₁ ⟨hmissing, hsuffix⟩
  have hsub := hsuffix.subset
  refine Routine.wp_ite (fun hrecover => ?_) fun _ => sync_unavailable
  rw [shouldRecoverMissingSafeSubmission, decide_eq_true_eq] at hrecover
  obtain ⟨hsubmitting, rfl, hold⟩ := hrecover
  exact sync_recover (hv.mono hsub) (hnow.mono hsub) (hnonce.mono hsub) (hmissing rfl) hsubmitting
    hold

theorem sync_pending {currentNonce : ℕ} {now : Time} {tracked : List TrackedProposal}
    (htracked : ∀ t ∈ tracked, Tracked v.hist t) (hnow : Answered v.hist .now (.ok now))
    (hnonce : Answered v.hist .safeNonce (.ok currentNonce)) :
    Routine.wp (syncDiscipline answers) (syncPending currentNonce now tracked) (fun _ _ => True)
      (fun _ _ => True) v := by
  induction tracked generalizing v with
  | nil => trivial
  | cons t rest ih =>
    unfold syncPending
    refine Routine.wp_seq (Routine.wp_hist (sync_proposal (htracked t (.head _)) hnow hnonce))
      (fun _ v₁ hv₁ => ?_) fun _ _ _ => trivial
    have hsub := hv₁.2.subset
    exact ih (fun t' ht' => (htracked t' (.tail _ ht')).mono hsub) (hnow.mono hsub)
      (hnonce.mono hsub)

theorem sync_reconcile {tracked : List TrackedProposal} :
    Routine.wp (syncDiscipline answers) (reconcileExecuted tracked) (fun _ _ => True)
      (fun _ _ => True) v := by
  induction tracked generalizing v with
  | nil => trivial
  | cons t rest ih =>
    unfold reconcileExecuted
    split
    · exact ih
    · refine (Routine.wp_bind _ _).2 (sync_transaction (fun _ => .reconcile) (fun _ _ => ih)
        fun _ _ => trivial)

theorem sync_expire {config : Deployment} {safeAddress : Option Address} {now : Time}
    (hnow : Answered v.hist .now (.ok now)) :
    Routine.wp (syncDiscipline answers)
      (expireUnconsumedSafePayoutIntents config safeAddress now) (fun _ _ => True)
      (fun _ _ => True) v := by
  unfold expireUnconsumedSafePayoutIntents
  refine (Routine.wp_bind _ _).2 (sync_select (fun w => ?_) fun _ => trivial)
  refine Routine.wp_ite (fun _ => trivial) fun _ => ?_
  exact sync_transaction (fun db => .expire hnow.cons saw_ran fun intent hmem =>
    (List.mem_filter.1 hmem).1) (fun _ _ => trivial) fun _ _ => trivial

/-- **A pass** commits only what it has evidence for. -/
theorem wp_evidence {config : Deployment} {updatedAt : Id → Time} :
    Routine.wp (syncDiscipline answers) (syncSafePayoutProposals config updatedAt)
      (fun _ _ => True) (fun _ _ => True) v := by
  unfold syncSafePayoutProposals
  refine Routine.wp_ite (fun _ => trivial) fun _ => ?_
  refine (Routine.wp_bind _ _).2 (sync_ask (fun (now : ℕ) w => ?_) fun _ _ => trivial)
  refine Routine.wp_seq (Routine.wp_hist (sync_expire answered_asked)) (fun _ v₁ hv₁ => ?_)
    fun _ _ _ => trivial
  have hnow : Answered v₁.hist .now (.ok now) := answered_asked.mono hv₁.2.subset
  refine (Routine.wp_bind _ _).2 (sync_select (fun w₁ => ?_) fun _ => trivial)
  refine (Routine.wp_bind _ _).2 (sync_select (fun w₂ => ?_) fun _ => trivial)
  refine Routine.wp_seq (Routine.wp_hist sync_reconcile) (fun _ v₂ hv₂ => ?_) fun _ _ _ => trivial
  have hnow : Answered v₂.hist .now (.ok now) := hnow.cons.cons.mono hv₂.2.subset
  refine (Routine.wp_bind _ _).2 (sync_select (fun w₃ => ?_) fun _ => trivial)
  refine (Routine.wp_bind _ _).2 (sync_select (fun w₄ => ?_) fun _ => trivial)
  refine Routine.wp_ite (fun _ => trivial) fun _ => ?_
  refine (Routine.wp_bind _ _).2 (sync_ask (fun (nonce : ℕ) w₅ => ?_) fun _ _ => trivial)
  exact sync_pending (fun t ht => (tracked_of_mem saw_ran.cons saw_ran
    (fun p => mem_safeProposals) ht).cons) hnow.cons.cons.cons answered_asked

end

/-! ### Rows -/

/-- What never changes about a proposal. -/
def SafePayoutProposal.identity (row : SafePayoutProposal) : Id × Id × Hash × ℕ × Time :=
  (row.id, row.intentId, row.safeTxHash, row.safeNonce, row.createdAt)

/-- What never changes about the rows with an id. -/
structure Identities where
  proposal : Id → Id × Id × Hash × ℕ × Time
  payoutId : Id → Id

/-- The tables fit: ids are primary keys, and nobody updates these columns. -/
structure Identities.Fit (I : Identities) (db : Database) : Prop where
  keys : (db.payoutProposals.map (·.id)).Nodup
  proposals : ∀ row ∈ db.payoutProposals, row.identity = I.proposal row.id
  intents : ∀ intent ∈ db.payoutIntents, intent.payoutId = I.payoutId intent.id

/-- **A row of a proposal** may change while it is pending; what ends it is justified for the
proposal as the pass has read it. -/
def ProposalMove (older : Log) (row row' : SafePayoutProposal) : Prop :=
  row' = row ∨ row.status.pending = true ∧ row'.identity = row.identity ∧
    (row'.status.pending = true ∨ ∃ read w, Saw older w ∧ read ∈ w.db.payoutProposals ∧
      read.identity = row.identity ∧ Justified older read row'.status)

/-- The proposal of the payout becomes stale or fails. -/
def FreedByEnd (I : Identities) (db db' : Database) (payout : Payout) : Prop :=
  ∃ (i : ℕ) (row row' : SafePayoutProposal), db.payoutProposals[i]? = some row ∧
    db'.payoutProposals[i]? = some row' ∧ row.status.pending = true ∧
    (row'.status = .stale ∨ row'.status = .failed) ∧ I.payoutId row.intentId = payout.id

/-- The reservation of the payout has expired: nobody has consumed it, it has no proposal, and it
is claimed. -/
def FreedByExpiry (older : Log) (db db' : Database) (payout : Payout) : Prop :=
  ∃ (now : Time) (intent : SafePayoutIntent), Answered older .now (.ok now) ∧
    intent ∈ db.payoutIntents ∧ isExpired db now intent = true ∧
    intent.consume now ∈ db'.payoutIntents ∧ intent.payoutId = payout.id

/-- **What a transaction of the pass may do**, given what it was told before. -/
structure Proven (I : Identities) (older : Log) (db db' : Database) : Prop where
  proposals : List.Forall₂ (ProposalMove older) db.payoutProposals db'.payoutProposals
  payouts : ∀ payout' ∈ db'.payouts, payout'.status = .failed → payout' ∈ db.payouts ∨
    ∃ payout ∈ db.payouts, payout.status = .proposed ∧ payout' = payout.fail ∧
      (FreedByEnd I db db' payout ∨ FreedByExpiry older db db' payout)
  intents : db'.payoutIntents.map (fun intent => (intent.id, intent.payoutId)) =
    db.payoutIntents.map fun intent => (intent.id, intent.payoutId)

theorem forall₂_updateWhere {α : Type} {R : α → α → Prop} {p : α → Bool} {f : α → α} {rows : List α}
    (hkept : ∀ x ∈ rows, p x = false → R x x) (hmoved : ∀ x ∈ rows, p x = true → R x (f x)) :
    List.Forall₂ R rows (updateWhere p f rows) := by
  induction rows with
  | nil => exact .nil
  | cons x rows ih =>
    refine .cons ?_ (ih (fun y hy => hkept y (.tail _ hy)) fun y hy => hmoved y (.tail _ hy))
    show R x (if p x = true then f x else x)
    by_cases hp : p x = true
    · rw [if_pos hp]
      exact hmoved x (.head _) hp
    · rw [if_neg hp]
      exact hkept x (.head _) (Bool.eq_false_of_not_eq_true hp)

section

variable {I : Identities} {older : Log} {db db' : Database}

theorem same_proposals : List.Forall₂ (ProposalMove older) db.payoutProposals db.payoutProposals :=
  List.forall₂_same.2 fun _ _ => .inl rfl

/-- Payouts among which no row fails. -/
theorem no_failure {rows rows' : List Payout} {P : Payout → Payout → Prop}
    (h : ∀ row' ∈ rows', row'.status = .failed → row' ∈ rows) :
    ∀ row' ∈ rows', row'.status = .failed → row' ∈ rows ∨ ∃ row ∈ rows, P row row' :=
  fun row' hmem hfailed => .inl (h row' hmem hfailed)

/-- A row of a merged table that has failed was there before. -/
theorem failed_of_reconcile {payout : Payout} {executionTxHash : Hash} {row' : Payout}
    (hmem : row' ∈ (reconcileConfirmedSafePayout payout executionTxHash db).1.payouts)
    (hfailed : row'.status = .failed) : row' ∈ db.payouts := by
  rcases reconcile_cases payout executionTxHash db with heq | ⟨confirmed, -, -, -, heq⟩
  · rwa [heq] at hmem
  · rw [heq] at hmem
    rcases mem_updateWhere_cases (List.mem_filter.1 hmem).1 with ⟨hold, -⟩ | ⟨row, -, -, rfl⟩
    · exact hold
    · rw [Payout.execute_status] at hfailed
      cases hfailed

/-- **The expiry** is proven. -/
theorem proven_expire {now : Time} {w : World} {candidates : List SafePayoutIntent}
    (hfit : I.Fit db) (hw : I.Fit w.db) (hnow : Answered older .now (.ok now))
    (hcandidates : ∀ intent ∈ candidates, intent ∈ w.db.payoutIntents) :
    Proven I older db (expireTx now candidates db) := by
  have hids : ∀ c ∈ candidates, ∀ row ∈ db.payoutIntents, row.id = c.id →
      row.payoutId = c.payoutId := by
    intro c hc row hrow hid
    rw [hfit.intents row hrow, hw.intents c (hcandidates c hc), hid]
  obtain ⟨claimed, hclaimed, heq⟩ := expireTx_eq hids
  rw [heq]
  refine ⟨same_proposals, fun payout' hmem hfailed => ?_, map_updateWhere fun _ _ _ => rfl⟩
  rcases mem_updateWhere_cases hmem with ⟨hold, -⟩ | ⟨payout, hpayout, hcondition, rfl⟩
  · exact .inl hold
  · rw [decide_eq_true_eq] at hcondition
    obtain ⟨hin, hproposed⟩ := hcondition
    obtain ⟨intent, hintent, hid⟩ := List.mem_map.1 hin
    obtain ⟨hthere, hexpired⟩ := hclaimed intent hintent
    refine .inr ⟨payout, hpayout, hproposed, rfl, .inr ⟨now, intent, hnow, hthere, hexpired, ?_,
      hid⟩⟩
    exact mem_updateWhere_of hthere (decide_eq_true (List.mem_map.2 ⟨intent, hintent, rfl⟩))

theorem eq_of_id {row row' : SafePayoutProposal} (hfit : I.Fit db) (h : row ∈ db.payoutProposals)
    (h' : row' ∈ db.payoutProposals) (hid : row.id = row'.id) : row = row' :=
  List.inj_on_of_nodup_map hfit.keys h h' hid

/-- The rows of the proposals after an update. -/
theorem proposals_update {tracked : TrackedProposal} {next : ProposalUpdate} {now : Time}
    (hfit : I.Fit db) (hold : ∀ w, Saw older w → I.Fit w.db) (ht : Tracked older tracked)
    (hnext : Justified older tracked.proposal next.status)
    (hpending : ∃ row ∈ db.payoutProposals, row.id = tracked.proposal.id ∧
      row.status.pending = true) :
    List.Forall₂ (ProposalMove older) db.payoutProposals
      (db.mapProposal tracked.proposal.id (·.update next now)).payoutProposals := by
  obtain ⟨pending, hpendingMem, hpendingId, hpendingStatus⟩ := hpending
  obtain ⟨w, -, hw, -, hread, -⟩ := ht
  refine forall₂_updateWhere (fun _ _ _ => .inl rfl) fun row hrow hid => ?_
  rw [decide_eq_true_eq] at hid
  obtain rfl := eq_of_id hfit hrow hpendingMem (hid.trans hpendingId.symm)
  refine .inr ⟨hpendingStatus, rfl, .inr ⟨tracked.proposal, w, hw, hread, ?_, hnext⟩⟩
  rw [(hold w hw).proposals _ hread, hfit.proposals _ hrow, hid]

/-- A payout that fails with an update is freed by the end of its proposal. -/
theorem freed_update {tracked : TrackedProposal} {next : ProposalUpdate} {now : Time}
    (hfit : I.Fit db) (hold : ∀ w, Saw older w → I.Fit w.db) (ht : Tracked older tracked)
    (hend : next.status = .failed ∨ next.status = .stale)
    (hpending : ∃ row ∈ db.payoutProposals, row.id = tracked.proposal.id ∧
      row.status.pending = true) {payout : Payout} (hid : payout.id = tracked.payout.id)
    (hdb : db'.payoutProposals =
      (db.mapProposal tracked.proposal.id (·.update next now)).payoutProposals) :
    FreedByEnd I db db' payout := by
  obtain ⟨row, hrow, hrowId, hstatus⟩ := hpending
  obtain ⟨w, w', hw, hw', hread, intent, hintent, hintentId, -, hpayoutId⟩ := ht
  obtain ⟨i, hi⟩ := List.mem_iff_getElem?.1 hrow
  refine ⟨i, row, row.update next now, hi, ?_, hstatus, hend.symm, ?_⟩
  · rw [hdb]
    change (updateWhere _ _ db.payoutProposals)[i]? = _
    rw [updateWhere, List.getElem?_map, hi, Option.map_some, if_pos (decide_eq_true hrowId)]
  · have hidentity : row.identity = tracked.proposal.identity := by
      rw [hfit.proposals row hrow, (hold w hw).proposals _ hread, hrowId]
    have hintentOf : row.intentId = tracked.proposal.intentId :=
      congrArg (fun identity => identity.2.1) hidentity
    rw [hintentOf, ← hintentId, ← (hold w' hw').intents intent hintent, hid, hpayoutId]

/-- **An update** is proven. -/
theorem proven_update {tracked : TrackedProposal} {next : ProposalUpdate} {now : Time}
    {failPayout : Bool} (hfit : I.Fit db) (hold : ∀ w, Saw older w → I.Fit w.db)
    (ht : Tracked older tracked) (hnext : Justified older tracked.proposal next.status)
    (hfail : failPayout = true → next.status = .failed ∨ next.status = .stale) :
    Proven I older db (applyUpdate tracked next now failPayout db).1 := by
  rcases applyUpdate_cases tracked next now failPayout db with
    heq | ⟨hpending, db₁, hdb₁, hcase⟩
  · rw [heq]
    exact ⟨same_proposals, no_failure fun _ hmem _ => hmem, rfl⟩
  have hproposals : List.Forall₂ (ProposalMove older) db.payoutProposals
      (db.mapProposal tracked.proposal.id (·.update next now)).payoutProposals :=
    proposals_update hfit hold ht hnext hpending
  by_cases hf : failPayout = true
  · -- the payout fails with its proposal, so nothing is executed
    rw [if_pos hf] at hdb₁
    have hend := hfail hf
    have heq : (applyUpdate tracked next now failPayout db).1 = db₁ := by
      rcases hcase with heq | ⟨hexecuted, -⟩
      · exact heq
      · rw [hexecuted] at hend
        rcases hend with h | h <;> cases h
    rw [heq, hdb₁]
    refine ⟨hproposals, fun payout' hmem hfailed => ?_, rfl⟩
    rcases mem_updateWhere_cases hmem with ⟨hthere, -⟩ | ⟨payout, hpayout, hcondition, rfl⟩
    · exact .inl hthere
    · rw [decide_eq_true_eq, List.mem_singleton] at hcondition
      exact .inr ⟨payout, hpayout, hcondition.2, rfl,
        .inl (freed_update hfit hold ht hend hpending hcondition.1 rfl)⟩
  · rw [if_neg hf] at hdb₁
    subst hdb₁
    rcases hcase with heq | ⟨-, executionTxHash, heq⟩
    · rw [heq]
      exact ⟨hproposals, no_failure fun _ hmem _ => hmem, rfl⟩
    · obtain ⟨hsame, hintents⟩ := reconcile_tables tracked.payout executionTxHash
        (db.mapProposal tracked.proposal.id (·.update next now))
      rw [heq]
      refine ⟨hsame ▸ hproposals, no_failure fun row' hmem hfailed => ?_, ?_⟩
      · have hthere := failed_of_reconcile hmem hfailed
        exact hthere
      · rw [hintents]
        rfl

/-- **What a pass commits** is proven. -/
theorem proven_of_write (hfit : I.Fit db) (hold : ∀ w, Saw older w → I.Fit w.db)
    (h : SyncWrite older db db') : Proven I older db db' := by
  cases h with
  | idle => exact ⟨same_proposals, no_failure fun _ hmem _ => hmem, rfl⟩
  | expire hnow hw hcandidates => exact proven_expire hfit (hold _ hw) hnow hcandidates
  | @reconcile tracked executionTxHash =>
    obtain ⟨hsame, hintents⟩ := reconcile_tables tracked.payout executionTxHash db
    refine ⟨?_, no_failure fun _ => failed_of_reconcile, by rw [hintents]⟩
    rw [hsame]
    exact same_proposals
  | update ht hnext hfail => exact proven_update hfit hold ht hnext hfail
  | unavailable =>
    refine ⟨forall₂_updateWhere (fun _ _ _ => .inl rfl) fun row _ hcondition => ?_,
      no_failure fun _ hmem _ => hmem, rfl⟩
    rw [decide_eq_true_eq] at hcondition
    exact .inr ⟨hcondition.2, rfl, .inl hcondition.2⟩

theorem identity_of_move {row row' : SafePayoutProposal} (h : ProposalMove older row row') :
    row'.identity = row.identity := by
  rcases h with rfl | ⟨-, hidentity, -⟩
  · rfl
  · exact hidentity

theorem map_of_forall₂ {α β : Type} {R : α → α → Prop} {g : α → β} {rows rows' : List α}
    (hg : ∀ x y, R x y → g y = g x) (h : List.Forall₂ R rows rows') :
    rows'.map g = rows.map g := by
  induction h with
  | nil => rfl
  | cons hxy _ ih => rw [List.map_cons, List.map_cons, hg _ _ hxy, ih]

/-- **A proven transaction** keeps what never changes. -/
theorem Identities.Fit.of_proven (hfit : I.Fit db) (h : Proven I older db db') : I.Fit db' := by
  have hidentities := map_of_forall₂ (g := SafePayoutProposal.identity)
    (fun _ _ => identity_of_move) h.proposals
  have hkeys : db'.payoutProposals.map (·.id) = db.payoutProposals.map (·.id) := by
    have hfst := congrArg (List.map Prod.fst) hidentities
    rwa [List.map_map, List.map_map] at hfst
  refine ⟨hkeys ▸ hfit.keys, fun row hrow => ?_, fun intent hintent => ?_⟩
  · have hmem : row.identity ∈ db.payoutProposals.map SafePayoutProposal.identity :=
      hidentities ▸ List.mem_map_of_mem hrow
    obtain ⟨before, hbefore, heq⟩ := List.mem_map.1 hmem
    have hid : before.id = row.id := congrArg Prod.fst heq
    rw [← heq, hfit.proposals before hbefore, hid]
  · have hmem : (intent.id, intent.payoutId) ∈
        db.payoutIntents.map fun intent => (intent.id, intent.payoutId) :=
      h.intents ▸ List.mem_map_of_mem hintent
    obtain ⟨before, hbefore, heq⟩ := List.mem_map.1 hmem
    obtain ⟨hid, hpayout⟩ := Prod.mk.inj heq
    rw [← hpayout, hfit.intents before hbefore, hid]

end

/-! ### Whole passes -/

/-- The Safe's service answers that it knows nothing; it is 20 minutes past the epoch. -/
def silentSafe : World → (q : Query) → Except Failure (Reply q)
  | _, .now => .ok (1200000 : ℕ)
  | _, .safeNonce => .ok (3 : ℕ)
  | _, .multisigTransactions _ _ => .ok ([] : List SafeTransaction)
  | _, _ => .error (.service (some 404))

/-- A run that nobody disturbs. -/
theorem exec_silent {α : Type} {p : Program World Reply Failure α} {a : α} {s s' : World}
    (h : p.eval silentSafe s = some (a, s')) :
    ∃ h, Program.Exec (fun w q a => silentSafe w q = a) Eq p s [] a s' h :=
  Program.exec_of_eval (fun _ _ => rfl) (fun _ => rfl) h []

/-- The deployment of the two passes. -/
def silentDeployment : Deployment := ⟨1, 10, 11, 12, 13, 0, 2, [], 14, true⟩

/-- A reserved payout. -/
def reservedPayout : Payout := ⟨1, 1, .usdc, .expense, 100, 5, none, .proposed, none⟩

/-- Its reservation, which expires a minute after the epoch. -/
def reservation : SafePayoutIntent :=
  ⟨2, 1, 1, 1, 14, .service, some 3, 10, 0, 7, 9, some 60000, none⟩

/-- A proposal for it that was submitted at the epoch. -/
def lostProposal : SafePayoutProposal :=
  ⟨3, 2, 77, 3, 9, 1, 2, .submitting, none, none, none, none, 0⟩

/-- The world in which the proposal was lost. -/
def lostWorld : World where
  db := { Database.empty with
    payouts := [reservedPayout]
    payoutIntents := [reservation.consume 1]
    payoutProposals := [lostProposal] }
  chain := ⟨0, []⟩

/-- What never changes in it. -/
def lostIdentities : Identities := ⟨fun _ => lostProposal.identity, fun _ => 1⟩

theorem lostIdentities_fit : lostIdentities.Fit lostWorld.db :=
  ⟨List.nodup_singleton _, List.forall_mem_singleton.2 rfl, List.forall_mem_singleton.2 rfl⟩

/-- The proposal and its payout fail. -/
theorem eval_lost :
    ∃ s', Program.eval silentSafe
        (ExceptT.run (syncSafePayoutProposals silentDeployment fun _ => 0) ()) lostWorld =
          some ((.ok (), ()), s') ∧
      s'.db.payoutProposals.map (·.status) = [.failed] ∧
      s'.db.payouts = [reservedPayout.fail] :=
  ⟨_, rfl, rfl, rfl⟩

/-- **The synchronisation** never ends a proposal or frees a payout without proof: in every pass,
with any answers and whatever others do in between, every transaction is proven by what the pass
was told before it. -/
theorem safe_sync_proven (config : Deployment) (updatedAt : Id → Time) (I : Identities)
    {answers : World → (q : Query) → Except Failure (Reply q) → Prop}
    {interf : World → World → Prop} (hinterf : ∀ s s', interf s s' → I.Fit s.db → I.Fit s'.db)
    {s s' : World} (hs : I.Fit s.db) {r : Except Failure Unit × Unit} {h : Log}
    (hexec : Program.Exec answers interf (ExceptT.run (syncSafePayoutProposals config updatedAt) ())
      s [] r s' h) :
    ∀ (newer : Log) (w w' : World) (older : Log), h = newer ++ .ran w w' :: older →
      Proven I older w.db w'.db := by
  have hwp : Program.wp (syncDiscipline answers) (fun _ _ _ => True)
      (ExceptT.run (syncSafePayoutProposals config updatedAt) ()) [] s := by
    refine Program.wp_mono (fun _ _ _ _ => trivial) (wp_evidence (v := ⟨(), [], s⟩))
  have halong := Program.Exec.along (D := syncDiscipline answers)
    (J := fun h s => I.Fit s.db ∧ (∀ w, Saw h w → I.Fit w.db) ∧
      ∀ (newer : Log) (w w' : World) (older : Log), h = newer ++ .ran w w' :: older →
        Proven I older w.db w'.db)
    (fun _ _ _ => ⟨trivial, trivial⟩)
    (fun h s s' hJ hi => ⟨hinterf s s' hi hJ.1, hJ.2⟩) ?_ hexec hwp ⟨hs, ?_, ?_⟩
  · exact halong.2.2
  · rintro h (⟨s, q, a⟩ | ⟨w, w'⟩) s₀ hi ⟨hfit, hsaw, hproven⟩ hmeets -
    · refine ⟨hfit, ?_, ?_⟩
      · rintro w ⟨w', hmem⟩
        rcases List.mem_cons.1 hmem with hmem | hmem
        · cases hmem
        · exact hsaw w ⟨w', hmem⟩
      · rintro (_ | ⟨e, newer⟩) w w' older hsplit
        · cases hsplit
        · exact hproven newer w w' older (List.cons.inj hsplit).2
    · -- the transaction has been proven from what was read before it
      have hthis := proven_of_write hfit hsaw hmeets
      refine ⟨hfit.of_proven hthis, ?_, ?_⟩
      · rintro w₁ ⟨w₁', hmem⟩
        rcases List.mem_cons.1 hmem with hmem | hmem
        · obtain ⟨rfl, -⟩ := Event.ran.inj hmem
          exact hfit
        · exact hsaw w₁ ⟨w₁', hmem⟩
      · rintro (_ | ⟨e, newer⟩) w₁ w₁' older hsplit
        · obtain ⟨hevent, rfl⟩ := List.cons.inj hsplit
          obtain ⟨rfl, rfl⟩ := Event.ran.inj hevent
          exact hthis
        · exact hproven newer w₁ w₁' older (List.cons.inj hsplit).2
  · rintro w ⟨w', hmem⟩
    cases hmem
  · rintro (_ | ⟨e, newer⟩) w w' older hsplit <;> cases hsplit

theorem safe_sync_proven_lost :
    ∃ s' h, Program.Exec (fun w q a => silentSafe w q = a) Eq
        (ExceptT.run (syncSafePayoutProposals silentDeployment fun _ => 0) ()) lostWorld []
        (.ok (), ()) s' h ∧
      s'.db.payoutProposals.map (·.status) = [.failed] ∧
      s'.db.payouts = [reservedPayout.fail] ∧
      ∀ (newer : Log) (w w' : World) (older : Log), h = newer ++ .ran w w' :: older →
        Proven lostIdentities older w.db w'.db := by
  obtain ⟨s', heval, hproposals, hpayouts⟩ := eval_lost
  obtain ⟨h, hexec⟩ := exec_silent heval
  have hinterf : ∀ w w' : World, w = w' → lostIdentities.Fit w.db → lostIdentities.Fit w'.db := by
    rintro w _ rfl hfit
    exact hfit
  refine ⟨s', h, hexec, hproposals, hpayouts, ?_⟩
  exact safe_sync_proven silentDeployment (fun _ => 0) lostIdentities hinterf lostIdentities_fit
    hexec

/-- The world in which nobody submitted the reservation. -/
def expiredWorld : World where
  db := { Database.empty with payouts := [reservedPayout], payoutIntents := [reservation] }
  chain := ⟨0, []⟩

/-- **An expired reservation** frees its payout, although there is no proposal at all. -/
theorem expired_reservation_freed :
    ∃ s' h, Program.Exec (fun w q a => silentSafe w q = a) Eq
        (ExceptT.run (syncSafePayoutProposals silentDeployment fun _ => 0) ()) expiredWorld []
        (.ok (), ()) s' h ∧
      expiredWorld.db.payouts = [reservedPayout] ∧ reservedPayout.status = .proposed ∧
      s'.db.payouts = [reservedPayout.fail] ∧
      expiredWorld.db.payoutProposals = [] ∧ s'.db.payoutProposals = [] := by
  obtain ⟨s', heval, hpayouts, hproposals⟩ : ∃ s', Program.eval silentSafe
      (ExceptT.run (syncSafePayoutProposals silentDeployment fun _ => 0) ()) expiredWorld =
        some ((.ok (), ()), s') ∧
      s'.db.payouts = [reservedPayout.fail] ∧ s'.db.payoutProposals = [] := ⟨_, rfl, rfl, rfl⟩
  obtain ⟨h, hexec⟩ := exec_silent heval
  exact ⟨s', h, hexec, rfl, rfl, hpayouts, rfl, hproposals⟩

end Escrow

end PreCommunity
