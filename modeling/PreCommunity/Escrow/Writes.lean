import PreCommunity.Escrow.System

/-!
# What the processes write

`Write` says once what a job may commit, given what it did before; every invariant of the payouts
is derived from it.  The evidence in its constructors is what the job had read.

* `Saw`, `lastRead`, `Conversion` : what a job has read, and when.
* `Write` : the transactions of the jobs.
* `escrow_code_safe` : every job commits nothing else.
-/

namespace PreCommunity

namespace Escrow

open Store Concurrent

/-! ### What a job has read -/

/-- The job ran a statement in this world. -/
def Saw (h : Log) (w : World) : Prop := ∃ w', .ran w w' ∈ h

/-- The world of the job's last statement. -/
def lastRead : Log → Option World
  | [] => none
  | .ran w _ :: _ => some w
  | .asked _ _ _ :: h => lastRead h

/-- A proposal and its payout, as the synchronisation has read them. -/
def Tracked (h : Log) (tracked : TrackedProposal) : Prop :=
  ∃ w w', Saw h w ∧ Saw h w' ∧ tracked.proposal ∈ w.db.payoutProposals ∧
    ∃ intent ∈ w'.db.payoutIntents, intent.id = tracked.proposal.intentId ∧
      tracked.payout ∈ w'.db.payouts ∧ tracked.payout.id = intent.payoutId

section

variable {h : Log} {w w' : World} {e : Event World Reply Failure}

theorem Saw.cons (hs : Saw h w) : Saw (e :: h) w := hs.imp fun _ => List.mem_cons_of_mem e

theorem saw_ran : Saw (.ran w w' :: h) w := ⟨w', .head _⟩

theorem Tracked.mono {tracked : TrackedProposal} {h' : Log} (ht : Tracked h tracked)
    (hsub : h ⊆ h') : Tracked h' tracked := by
  obtain ⟨w, w', ⟨_, hw⟩, ⟨_, hw'⟩, hrest⟩ := ht
  exact ⟨w, w', ⟨_, hsub hw⟩, ⟨_, hsub hw'⟩, hrest⟩

theorem Tracked.cons {tracked : TrackedProposal} (ht : Tracked h tracked) :
    Tracked (e :: h) tracked :=
  ht.mono (List.subset_cons_self e h)

end

/-! ### The transactions -/

section

variable (config : Deployment) (ext : External)

/-- A manual request is about to convert a reservation of the service: it has found the active
reservation, and read its payout, its proposal and its goal. -/
inductive Conversion : Job → Log → SafePayoutIntent → Option SafePayoutProposal → Prop where
  | intro {n : ℕ} {goalId : Id} {dto : ReleaseProposal} {actor : Address} {safeInfo : SafeInfo}
      {now : Time} {w₀ w found payout proposal goal : World} {intent : SafePayoutIntent} {h : Log} :
      dto.delivery = .manual → .asked w₀ (.assertSafeEscrowOwner actor) (.ok safeInfo) ∈ h →
      (found.db.payoutIntents.filter
        (isActiveIntent config found.db safeInfo.address goalId dto now)).getLast? = some intent →
      intent.delivery = .service →
      (∀ row, proposal.db.proposal? intent.id = some row →
        assertManualReplacementAllowed row dto.confirmedAbsentFromSafe = .ok ()) →
      Conversion (.create n goalId dto actor)
        (.ran goal goal :: .ran proposal proposal :: .ran payout payout :: .ran found found ::
          .asked w .now (.ok now) :: h) intent (proposal.db.proposal? intent.id)

/-- What a job may commit, given what it did before. -/
inductive Write (j : Job) (h : Log) (db : Database) : Database → Prop where
  | idle : Write j h db db
  | expire {now : Time} {w : World} {candidates : List SafePayoutIntent} :
      Saw h w → (∀ intent ∈ candidates, intent ∈ w.db.payoutIntents) →
      Write j h db (expireTx now candidates db)
  | convert {intent : SafePayoutIntent} {proposal : Option SafePayoutProposal} {now : Time}
      {db' : Database} :
      Conversion config j h intent proposal → convertTx intent proposal now db = .ok db' →
      Write j h db db'
  | reserve {goal : FundingGoal} {dto : ReleaseProposal} {safeInfo : SafeInfo} {actor : Address}
      {safeNonce : Option ℕ} {expiresAt : Option Time} {intent : SafePayoutIntent} {w w' : World}
      {db' : Database} :
      Saw h w → goal ∈ w.db.goals → lastRead h = some w' →
      checkAvailable goal (w'.db.payouts.filter fun row => row.goalId = goal.id) dto = .ok () →
      reserveTx config ext goal dto safeInfo actor safeNonce expiresAt db = .ok (db', intent) →
      Write j h db db'
  | claim {intentId : Id} {safeTxHash : Hash} {safeNonce : ℕ} {actor : Address} {threshold : ℕ}
      {consumedAt : Time} {proposal : SafePayoutProposal} {db' : Database} :
      claimTx intentId safeTxHash safeNonce actor threshold consumedAt db = .ok (db', proposal) →
      Write j h db db'
  | unconfirmed {proposalId : Id} {checkedAt : Time} :
      Write j h db (noteUnconfirmed proposalId checkedAt db)
  | submitted {proposalId : Id} {threshold : ℕ} :
      Write j h db (markSubmitted proposalId threshold db)
  | cancel {intent : SafePayoutIntent} {cancelledAt : Time} {w : World} {db' : Database} :
      Saw h w → intent ∈ w.db.payoutIntents → intent.delivery = .manual →
      cancelTx intent cancelledAt db = .ok db' → Write j h db db'
  | reconcile {tracked : TrackedProposal} {executionTxHash : Hash} :
      Tracked h tracked →
        Write j h db (reconcileConfirmedSafePayout tracked.payout executionTxHash db).1
  | update {tracked : TrackedProposal} {next : ProposalUpdate} {now : Time} {failPayout : Bool} :
      Tracked h tracked → (failPayout = true → next.status = .failed ∨ next.status = .stale) →
      Write j h db (applyUpdate tracked next now failPayout db).1
  | unavailable {proposalId : Id} {now : Time} : Write j h db (noteUnavailable proposalId now db)
  | project {event : DecodedEscrowEvent} {db' : Database} {r : Bool × Option MetadataRefresh} :
      j = .project event → projectLog config ext event db = .ok (db', r) → Write j h db db'
  | rebuild : j = .rebuild → Write j h db (resetChainProjection config db)

end

/-! ### The jobs -/

section

variable {O : Outside} {j : Job}

/-- The discipline of a job: it assumes nothing of the others, and commits what it may. -/
def payoutDiscipline (O : Outside) (j : Job) : Discipline World Reply Failure where
  inv _ := True
  rely _ _ := True
  answers := O.answers
  guar h w w' := w'.chain = w.chain ∧ Write O.config O.ext j h w.db w'.db
  asks _ _ _ := True
  rely_refl _ := trivial
  rely_trans _ _ := trivial
  guar_refl _ _ := ⟨rfl, .idle⟩

variable {E : Failure → Sight → Prop} {v : Sight} {α : Type}

/-- Ask a question. -/
theorem free_ask {q : Query} {Q : Reply q → Sight → Prop} (hQ : ∀ r w, Q r (v.asked w q (.ok r)))
    (hE : ∀ e w, E e (v.asked w q (.error e))) :
    Routine.wp (payoutDiscipline O j) (ask q) Q E v :=
  Routine.wp_ask fun w _ _ => ⟨trivial, fun r _ => hQ r w, fun e _ => hE e w⟩

/-- Read the tables. -/
theorem free_select {f : Database → α} {Q : α → Sight → Prop} (hQ : ∀ w, Q (f w.db) (v.ran w w))
    (hE : ∀ w, E .other (v.ran w w)) : Routine.wp (payoutDiscipline O j) (select f) Q E v :=
  wp_select fun w _ _ => ⟨hQ w, hE w⟩

/-- A transaction with a result. -/
theorem free_transactionOf {t : Database → Except Failure (Database × α)} {Q : α → Sight → Prop}
    (hok : ∀ w db a, t w.db = .ok (db, a) →
      Write O.config O.ext j v.hist w.db db ∧ Q a (v.ran w (w.withDb db)))
    (hE : ∀ e w w', E e (v.ran w w')) :
    Routine.wp (payoutDiscipline O j) (transactionOf t) Q E v :=
  wp_transactionOf (fun _ _ _ => hE _ _ _)
    (fun w db a _ _ ht => ⟨⟨rfl, (hok w db a ht).1⟩, (hok w db a ht).2, hE _ _ _⟩)
    fun _ _ _ _ _ => hE _ _ _

/-- A transaction. -/
theorem free_transaction {t : Database → Except Failure Database} {Q : Unit → Sight → Prop}
    (hok : ∀ w db, t w.db = .ok db →
      Write O.config O.ext j v.hist w.db db ∧ Q () (v.ran w (w.withDb db)))
    (hE : ∀ e w w', E e (v.ran w w')) :
    Routine.wp (payoutDiscipline O j) (transaction t) Q E v :=
  wp_transaction (fun _ _ _ => hE _ _ _)
    (fun w db _ _ ht => ⟨⟨rfl, (hok w db ht).1⟩, (hok w db ht).2, hE _ _ _⟩)
    fun _ _ _ _ _ => hE _ _ _

/-! ### Expiry -/

theorem wp_expire {safeAddress : Option Address} {now : Time} {Q : Unit → Sight → Prop}
    (hQ : ∀ v', Q () v') (hE : ∀ e v', E e v') :
    Routine.wp (payoutDiscipline O j)
      (expireUnconsumedSafePayoutIntents O.config safeAddress now) Q E v := by
  unfold expireUnconsumedSafePayoutIntents
  refine (Routine.wp_bind _ _).2 (free_select (fun w => ?_) fun _ => hE _ _)
  refine Routine.wp_ite (fun _ => hQ _) fun _ => ?_
  refine free_transaction (fun w' db ht => ⟨?_, hQ _⟩) fun _ _ _ => hE _ _
  obtain rfl := Except.ok.inj ht
  exact .expire saw_ran fun intent hmem => (List.mem_filter.1 hmem).1

theorem wp_expireAbandoned {Q : Unit → Sight → Prop} (hQ : ∀ v', Q () v')
    (hE : ∀ e v', E e v') :
    Routine.wp (payoutDiscipline O j) (expireAbandonedSafeIntents O.config) Q E v := by
  unfold expireAbandonedSafeIntents
  exact (Routine.wp_bind _ _).2 (free_ask (fun _ _ => wp_expire hQ hE) fun _ _ => hE _ _)

/-! ### Reserving -/

/-- **A reservation is continued**, or converted. -/
theorem wp_continueIntent {n : ℕ} {goalId : Id} {safeInfo : SafeInfo} {dto : ReleaseProposal}
    {actor : Address} {now : Time} {intent : SafePayoutIntent} {w₀ w found : World} {h : Log}
    (hj : j = .create n goalId dto actor)
    (hv : v.hist = .ran found found :: .asked w .now (.ok now) :: h)
    (hsafe : dto.delivery = .manual → .asked w₀ (.assertSafeEscrowOwner actor) (.ok safeInfo) ∈ h)
    (hfound : (found.db.payoutIntents.filter
      (isActiveIntent O.config found.db safeInfo.address goalId dto now)).getLast? = some intent) :
    Routine.wp (payoutDiscipline O j) (continueIntent safeInfo dto now intent) (fun _ _ => True)
      (fun _ _ => True) v := by
  subst hj
  unfold continueIntent
  refine (Routine.wp_bind _ _).2 (free_select (fun w₁ => ?_) fun _ => trivial)
  refine (Routine.wp_bind _ _).2 (free_select (fun w₂ => ?_) fun _ => trivial)
  refine (Routine.wp_bind _ _).2 (free_select (fun w₃ => ?_) fun _ => trivial)
  generalize hproposal : w₂.db.proposal? intent.id = proposal
  -- the conversion itself
  have hconvert : dto.delivery = .manual → intent.delivery ≠ .manual →
      (∀ row, proposal = some row →
        assertManualReplacementAllowed row dto.confirmedAbsentFromSafe = .ok ()) →
      Routine.wp (payoutDiscipline O (.create n goalId dto actor))
        (transaction (convertTx intent proposal now) >>=
          fun _ => pure (PayoutIntentResponse.manual intent.id intent.request))
        (fun _ _ => True) (fun _ _ => True) (((v.ran w₁ w₁).ran w₂ w₂).ran w₃ w₃) := by
    intro hmanual hservice hallowed
    refine (Routine.wp_bind _ _).2 (free_transaction (fun w' db ht => ⟨?_, trivial⟩)
      fun _ _ _ => trivial)
    refine .convert ?_ ht
    simp only [View.ran_hist, hv]
    subst hproposal
    refine .intro hmanual (hsafe hmanual) hfound ?_ hallowed
    cases hdelivery : intent.delivery with
    | manual => exact absurd hdelivery hservice
    | service => rfl
  split
  · rename_i hmanual
    refine Routine.wp_ite (fun _ => trivial) fun hservice => ?_
    cases proposal with
    | none => exact hconvert hmanual hservice (by simp)
    | some row =>
      refine (Routine.wp_bind _ _).2 (Routine.wp_attempt (fun _ hallowed => ?_) fun _ _ => trivial)
      exact hconvert hmanual hservice (by rintro _ ⟨⟩; exact hallowed)
  · refine Routine.wp_ite (fun _ => trivial) fun _ => Routine.wp_ite (fun _ => trivial) fun _ => ?_
    split <;> trivial

theorem wp_insertReservation {safeInfo : SafeInfo} {goal : FundingGoal} {dto : ReleaseProposal}
    {actor : Address} {safeNonce : Option ℕ} {expiresAt : Option Time} {w w' : World}
    (hsaw : Saw v.hist w) (hgoal : goal ∈ w.db.goals) (hlast : lastRead v.hist = some w')
    (havailable : checkAvailable goal (w'.db.payouts.filter fun row => row.goalId = goal.id) dto =
      .ok ()) {Q : SafePayoutIntent → Sight → Prop} (hQ : ∀ intent v', Q intent v')
    (hE : ∀ e v', E e v') :
    Routine.wp (payoutDiscipline O j)
      (insertReservation O.config O.ext safeInfo goal dto actor safeNonce expiresAt) Q E v := by
  unfold insertReservation
  refine (Routine.wp_tryCatch _ _).2 (free_transactionOf (fun w₁ db intent ht => ⟨?_, hQ _ _⟩)
    fun e w₁ w₂ => ?_)
  · exact .reserve hsaw hgoal hlast havailable ht
  refine Routine.wp_ite (fun _ => ?_) fun _ => hE _ _
  unfold concurrentManual
  split
  · exact hE _ _
  · refine (Routine.wp_bind _ _).2 (free_select (fun w₃ => ?_) fun _ => hE _ _)
    split
    · exact hQ _ _
    · exact hE _ _

/-- **A new reservation** is checked against the payouts of the last statement before it. -/
theorem wp_reserve {safeInfo : SafeInfo} {goalId : Id} {dto : ReleaseProposal} {actor : Address}
    {now : Time} :
    Routine.wp (payoutDiscipline O j) (reserve O.config O.ext safeInfo goalId dto actor now)
      (fun _ _ => True) (fun _ _ => True) v := by
  unfold reserve
  refine (Routine.wp_bind _ _).2 (free_select (fun w₁ => ?_) fun _ => trivial)
  refine Routine.wp_ite (fun _ => trivial) fun _ => ?_
  refine (Routine.wp_bind _ _).2 (free_select (fun w₂ => ?_) fun _ => trivial)
  split
  · trivial
  rename_i goal hfound
  have hgoal : goal ∈ w₂.db.goals ∧ goal.id = goalId := by
    have hid := List.find?_some hfound
    simp only [decide_eq_true_eq] at hid
    exact ⟨List.mem_of_find?_eq_some hfound, hid.1⟩
  obtain ⟨hgoal, rfl⟩ := hgoal
  refine (Routine.wp_bind _ _).2 (free_select (fun w₃ => ?_) fun _ => trivial)
  refine (Routine.wp_bind _ _).2 (Routine.wp_attempt (fun _ havailable => ?_) fun _ _ => trivial)
  split
  · exact (Routine.wp_bind _ _).2 (wp_insertReservation (saw_ran.cons) hgoal rfl havailable
      (fun _ _ => trivial) fun _ _ => trivial)
  · refine (Routine.wp_bind _ _).2 (free_ask (fun safeNonce w₄ => ?_) fun _ _ => trivial)
    refine (Routine.wp_bind _ _).2 (free_ask (fun created w₅ => ?_) fun _ _ => trivial)
    exact (Routine.wp_bind _ _).2
      (wp_insertReservation (saw_ran.cons.cons.cons) hgoal rfl havailable
      (fun _ _ => trivial) fun _ _ => trivial)

/-- **`createSafePayoutIntent`** keeps to its discipline. -/
theorem wp_create {n : ℕ} {goalId : Id} {dto : ReleaseProposal} {actor : Address}
    (hj : j = .create n goalId dto actor) :
    Routine.wp (payoutDiscipline O j) (createSafePayoutIntent O.config O.ext goalId dto actor)
      (fun _ _ => True) (fun _ _ => True) v := by
  unfold createSafePayoutIntent
  split
  all_goals
    rename_i hdelivery
    refine (Routine.wp_bind _ _).2 (free_ask (fun safeInfo w => ?_) fun _ _ => trivial)
    refine Routine.wp_seq (Routine.wp_hist (wp_expireAbandoned (Q := fun _ _ => True)
      (E := fun _ _ => True) (fun _ => trivial) fun _ _ => trivial)) (fun _ v₁ hv₁ => ?_)
      fun _ _ _ => trivial
    refine (Routine.wp_bind _ _).2 (free_ask (fun (now : ℕ) w₁ => ?_) fun _ _ => trivial)
    refine (Routine.wp_bind _ _).2 (free_select (fun w₂ => ?_) fun _ => trivial)
    split
    · rename_i intent hfound
      have hasked : dto.delivery = .manual →
          .asked w (.assertSafeEscrowOwner actor) (.ok safeInfo) ∈ v₁.hist := fun hmanual =>
        hv₁.2.subset (by
          first
            | exact .head _
            | exact absurd (hdelivery.symm.trans hmanual) (by decide))
      exact wp_continueIntent hj rfl hasked hfound
    · exact wp_reserve

/-! ### Submitting -/

/-- The proposal is sent, and what became of it is noted. -/
theorem wp_sendProposal {proposal : SafePayoutProposal} {dto : SafeSubmission} {safeTxHash : Hash}
    {actor : Address} {threshold : ℕ} :
    Routine.wp (payoutDiscipline O j) (sendProposal proposal dto safeTxHash actor threshold)
      (fun _ _ => True) (fun _ _ => True) v := by
  unfold sendProposal
  refine (Routine.wp_bind _ _).2 ((Routine.wp_tryCatch _ _).2 (free_ask (fun _ w => ?_)
    fun error w => ?_))
  · refine free_transactionOf (fun w db current ht => ⟨?_, trivial⟩) fun _ _ _ => trivial
    simp only at ht
    split at ht
    · obtain ⟨rfl, -⟩ := Prod.mk.inj (Except.ok.inj ht)
      exact .submitted
    · cases ht
  refine (Routine.wp_bind _ _).2 (free_ask (fun checkedAt w₁ => ?_) fun _ _ => trivial)
  refine (Routine.wp_bind _ _).2 ((Routine.wp_tryCatch _ _).2
    (free_transaction (fun w₂ db ht => ⟨?_, trivial⟩) fun _ _ _ => trivial))
  obtain rfl := Except.ok.inj ht
  exact .unconfirmed

theorem wp_checkSubmission {intent : SafePayoutIntent} {proposal : Option SafePayoutProposal}
    {safeNonce : ℕ} {expiresAt : Time} {dto : SafeSubmission} {Q : Hash → Sight → Prop}
    (hQ : ∀ hash v', Q hash v') :
    Routine.wp (payoutDiscipline O j)
      (checkSubmission O.config intent proposal safeNonce expiresAt dto) Q (fun _ _ => True) v := by
  unfold checkSubmission
  have hrest : ∀ v' : Sight, Routine.wp (payoutDiscipline O j) (do
      ask (.validateTransactionData dto.transaction intent.toAddress intent.valueRaw intent.data
        safeNonce)
      let calculatedHash : Hash ← ask (.transactionHash dto.transaction)
      if calculatedHash ≠ dto.safeTxHash then
        throw (.forbidden "Safe transaction hash does not match the signed transaction")
      return calculatedHash) Q (fun _ _ => True) v' := by
    intro v'
    refine (Routine.wp_bind _ _).2 (free_ask (fun _ w => ?_) fun _ _ => trivial)
    refine (Routine.wp_bind _ _).2 (free_ask (fun (hash : ℕ) w₁ => ?_) fun _ _ => trivial)
    exact Routine.wp_ite (fun _ => trivial) fun _ => hQ _ _
  refine Routine.wp_ite (fun _ => ?_) fun _ => hrest v
  refine (Routine.wp_bind _ _).2 (free_ask (fun (now : ℕ) w => ?_) fun _ _ => trivial)
  have hnonce : ∀ v' : Sight, Routine.wp (payoutDiscipline O j) (do
      let nonce : ℕ ← ask .nextNonce
      if nonce ≠ safeNonce then
        throw (.badRequest "The Safe nonce changed. Create a new payout request.")
      ask (.validateTransactionData dto.transaction intent.toAddress intent.valueRaw intent.data
        safeNonce)
      let calculatedHash : Hash ← ask (.transactionHash dto.transaction)
      if calculatedHash ≠ dto.safeTxHash then
        throw (.forbidden "Safe transaction hash does not match the signed transaction")
      return calculatedHash) Q (fun _ _ => True) v' := by
    intro v'
    refine (Routine.wp_bind _ _).2 (free_ask (fun (nonce : ℕ) w => ?_) fun _ _ => trivial)
    exact Routine.wp_ite (fun _ => trivial) fun _ => hrest _
  refine Routine.wp_ite (fun _ => ?_) fun _ => hnonce _
  refine (Routine.wp_bind _ _).2 (free_ask (fun (now : ℕ) w => ?_) fun _ _ => trivial)
  exact (Routine.wp_bind _ _).2 (wp_expire (fun _ => trivial) fun _ _ => trivial)

theorem wp_claimProposal {intent : SafePayoutIntent} {safeTxHash : Hash} {safeNonce : ℕ}
    {expiresAt : Time} {actor : Address} {threshold : ℕ} {Q : SafePayoutProposal → Sight → Prop}
    (hQ : ∀ proposal v', Q proposal v') :
    Routine.wp (payoutDiscipline O j)
      (claimProposal intent safeTxHash safeNonce expiresAt actor threshold) Q (fun _ _ => True)
      v := by
  unfold claimProposal
  have hconcurrent : ∀ (e : Failure) (v' : Sight), Routine.wp (payoutDiscipline O j)
      (if e = .intentClaim ∨ e = .uniqueConstraint then
        concurrentProposal intent safeTxHash expiresAt else throw e) Q (fun _ _ => True) v' := by
    intro e v'
    refine Routine.wp_ite (fun _ => ?_) fun _ => trivial
    unfold concurrentProposal
    refine (Routine.wp_bind _ _).2 (free_select (fun w => ?_) fun _ => trivial)
    split
    · exact (Routine.wp_bind _ _).2 (free_ask (fun _ _ => trivial) fun _ _ => trivial)
    · exact Routine.wp_ite (fun _ => trivial) fun _ => hQ _ _
  refine (Routine.wp_tryCatch _ _).2 ((Routine.wp_bind _ _).2
    (free_ask (fun consumedAt w => ?_) fun _ _ => hconcurrent _ _))
  refine free_transactionOf (fun w₁ db proposal ht => ⟨.claim ht, hQ _ _⟩) fun _ _ _ =>
    hconcurrent _ _

/-- **`submitSafePayoutProposal`** keeps to its discipline. -/
theorem wp_submit {intentId : Id} {dto : SafeSubmission} {actor : Address} :
    Routine.wp (payoutDiscipline O j) (submitSafePayoutProposal O.config intentId dto actor)
      (fun _ _ => True) (fun _ _ => True) v := by
  unfold submitSafePayoutProposal
  refine Routine.wp_ite (fun _ => trivial) fun _ => ?_
  refine (Routine.wp_bind _ _).2 (free_select (fun w => ?_) fun _ => trivial)
  split
  · trivial
  rename_i intent hfound
  refine (Routine.wp_bind _ _).2 (free_select (fun w₁ => ?_) fun _ => trivial)
  refine (Routine.wp_bind _ _).2 (free_select (fun w₂ => ?_) fun _ => trivial)
  split
  · unfold submitIntent
    refine (Routine.wp_bind _ _).2 (free_ask (fun safeInfo w₃ => ?_) fun _ _ => trivial)
    refine Routine.wp_ite (fun _ => trivial) fun _ => Routine.wp_ite (fun _ => trivial) fun _ => ?_
    split
    · trivial
    refine Routine.wp_ite (fun _ => trivial) fun _ => ?_
    refine (Routine.wp_bind _ _).2 (wp_checkSubmission fun hash v' => ?_)
    split
    · exact wp_sendProposal
    · refine (Routine.wp_bind _ _).2 (wp_claimProposal fun claimed v₁ => ?_)
      exact Routine.wp_ite (fun _ => trivial) fun _ => wp_sendProposal
  · trivial

/-- **`cancelManualSafePayout`** keeps to its discipline. -/
theorem wp_cancel {intentId : Id} {actor : Address} :
    Routine.wp (payoutDiscipline O j) (cancelManualSafePayout O.config intentId actor)
      (fun _ _ => True) (fun _ _ => True) v := by
  unfold cancelManualSafePayout
  refine (Routine.wp_bind _ _).2 (free_ask (fun safeInfo w₀ => ?_) fun _ _ => trivial)
  refine (Routine.wp_bind _ _).2 (free_select (fun w => ?_) fun _ => trivial)
  split
  · trivial
  rename_i intent hfound
  refine (Routine.wp_bind _ _).2 (free_select (fun w₁ => ?_) fun _ => trivial)
  refine Routine.wp_ite (fun _ => trivial) fun hmine => ?_
  refine (Routine.wp_bind _ _).2 (free_ask (fun cancelledAt w₂ => ?_) fun _ _ => trivial)
  refine free_transaction (fun w₃ db ht => ⟨?_, trivial⟩) fun _ _ _ => trivial
  refine .cancel saw_ran.cons.cons (List.mem_of_find?_eq_some hfound) ?_ ht
  exact not_not.1 fun h => hmine (.inl h)

/-! ### Following the Safe -/

theorem wp_transactionsAtNonce {nonce : ℕ} {executedOnly : Bool}
    {Q : Option (List SafeTransaction) → Sight → Prop}
    (hQ : ∀ transactions w q a, Q transactions (v.asked w q a)) :
    Routine.wp (payoutDiscipline O j) (safeTransactionsAtNonce nonce executedOnly) Q E v := by
  unfold safeTransactionsAtNonce
  exact (Routine.wp_tryCatch _ _).2 ((Routine.wp_bind _ _).2
    (free_ask (fun _ _ => hQ _ _ _ _) fun _ _ => hQ _ _ _ _))

theorem wp_unavailable {proposalId : Id} {now : Time} :
    Routine.wp (payoutDiscipline O j)
      (transaction fun db => .ok (noteUnavailable proposalId now db)) (fun _ _ => True)
      (fun _ _ => True) v := by
  refine free_transaction (fun w db ht => ⟨?_, trivial⟩) fun _ _ _ => trivial
  obtain rfl := Except.ok.inj ht
  exact .unavailable

/-- An update that is no execution only touches the proposal and its payout. -/
theorem applyUpdate_of_ne {tracked : TrackedProposal} {next : ProposalUpdate} {now : Time}
    {failPayout : Bool} {db : Database} (h : next.status ≠ .executed) :
    applyUpdate tracked next now failPayout db = applyPendingSafeProposalUpdate
      tracked.proposal.id tracked.payout.id next now failPayout db := by
  unfold applyUpdate
  exact if_neg fun hexecuted => h hexecuted.2

theorem wp_update {tracked : TrackedProposal} {next : ProposalUpdate} {now : Time}
    {failPayout : Bool} (hv : Tracked v.hist tracked)
    (hfail : failPayout = true → next.status = .failed ∨ next.status = .stale) :
    Routine.wp (payoutDiscipline O j)
      (transaction fun db => .ok (applyUpdate tracked next now failPayout db).1) (fun _ _ => True)
      (fun _ _ => True) v := by
  refine free_transaction (fun w db ht => ⟨?_, trivial⟩) fun _ _ _ => trivial
  obtain rfl := Except.ok.inj ht
  exact .update hv hfail

/-- **One pending proposal** is looked up. -/
theorem wp_syncProposal {tracked : TrackedProposal} {currentNonce : ℕ} {now : Time}
    (hv : Tracked v.hist tracked) :
    Routine.wp (payoutDiscipline O j) (syncProposal tracked currentNonce now) (fun _ _ => True)
      (fun _ _ => True) v := by
  unfold syncProposal
  refine (Routine.wp_tryCatch _ _).2 (Routine.wp_mono
    (Routine.wp_hist (Q := fun _ _ => True) (E := fun _ _ => True) ?_) (fun _ _ _ => trivial)
    fun e v₁ hv₁ => ?_)
  · -- looking the proposal up
    unfold resolveSafeTransaction
    refine (Routine.wp_bind _ _).2 ((Routine.wp_bind _ _).2 (free_ask (fun found w => ?_)
      fun _ _ => trivial))
    refine Routine.wp_ite (fun _ => ?_) fun _ => wp_update hv.cons (by simp)
    refine (Routine.wp_bind _ _).2 (wp_transactionsAtNonce fun executed w₁ q a => ?_)
    extract_lets executed
    split
    · exact wp_update hv.cons.cons (by simp)
    · exact wp_update hv.cons.cons (by simp)
  · -- the lookup has failed
    have hv : Tracked v₁.hist tracked := hv.mono hv₁.2.subset
    refine Routine.wp_ite (fun _ => ?_) fun _ => wp_unavailable
    unfold recoverSubmission
    refine (Routine.wp_bind _ _).2 (wp_transactionsAtNonce fun transactions w₁ q a => ?_)
    split
    · exact wp_unavailable
    split
    · exact wp_update hv.cons fun h => .inl (by simpa using h)
    · rename_i nonceWasReplaced _
      extract_lets next
      have hne : next.status ≠ .executed := by
        unfold next classifyMissingSafeSubmission
        split_ifs <;> simp
      simp only [← applyUpdate_of_ne hne]
      exact wp_update hv.cons (by simp)

theorem mem_safeProposals {config : Deployment} {updatedAt : Id → Time}
    {p : SafePayoutProposal → Payout → Bool} {db : Database} {proposal : SafePayoutProposal}
    (h : proposal ∈ safeProposals config updatedAt p db) : proposal ∈ db.payoutProposals := by
  have hmem := List.mem_of_mem_take h
  rw [List.mem_insertionSort] at hmem
  exact (List.mem_filter.1 hmem).1

/-- What was read of the proposals has been read. -/
theorem tracked_of_mem {proposals : List SafePayoutProposal} {w w' : World} {h : Log}
    (hw : Saw h w) (hw' : Saw h w') (hproposals : ∀ p ∈ proposals, p ∈ w.db.payoutProposals)
    {tracked : TrackedProposal} (ht : tracked ∈ withPayouts proposals w'.db) :
    Tracked h tracked := by
  obtain ⟨proposal, hmem, ht⟩ := List.mem_filterMap.1 ht
  simp only [Option.bind_eq_bind, Option.pure_def, Option.bind_eq_some_iff, Option.some.injEq] at ht
  obtain ⟨intent, hintent, payout, hpayout, rfl⟩ := ht
  have hid := List.find?_some hintent
  have hpid := List.find?_some hpayout
  simp only [decide_eq_true_eq] at hid hpid
  exact ⟨w, w', hw, hw', hproposals _ hmem, intent, List.mem_of_find?_eq_some hintent, hid,
    List.mem_of_find?_eq_some hpayout, hpid⟩

theorem wp_reconcileExecuted {tracked : List TrackedProposal}
    (htracked : ∀ t ∈ tracked, Tracked v.hist t) :
    Routine.wp (payoutDiscipline O j) (reconcileExecuted tracked) (fun _ _ => True)
      (fun _ _ => True) v := by
  induction tracked generalizing v with
  | nil => trivial
  | cons t rest ih =>
    unfold reconcileExecuted
    split
    · exact ih fun t' ht' => htracked t' (.tail _ ht')
    · refine (Routine.wp_bind _ _).2 (free_transaction (fun w db ht => ⟨?_, ?_⟩)
        fun _ _ _ => trivial)
      · obtain rfl := Except.ok.inj ht
        exact .reconcile (htracked _ (.head _))
      · exact ih fun t' ht' => (htracked t' (.tail _ ht')).cons

theorem wp_syncPending {currentNonce : ℕ} {now : Time} {tracked : List TrackedProposal}
    (htracked : ∀ t ∈ tracked, Tracked v.hist t) :
    Routine.wp (payoutDiscipline O j) (syncPending currentNonce now tracked) (fun _ _ => True)
      (fun _ _ => True) v := by
  induction tracked generalizing v with
  | nil => trivial
  | cons t rest ih =>
    unfold syncPending
    refine Routine.wp_seq (Routine.wp_hist (wp_syncProposal (htracked t (.head _))))
      (fun _ v₁ hv₁ => ih fun t' ht' => ?_) fun _ _ _ => trivial
    exact (htracked t' (.tail _ ht')).mono hv₁.2.subset

/-- **`syncSafePayoutProposals`** keeps to its discipline. -/
theorem wp_sync {updatedAt : Id → Time} :
    Routine.wp (payoutDiscipline O j) (syncSafePayoutProposals O.config updatedAt) (fun _ _ => True)
      (fun _ _ => True) v := by
  unfold syncSafePayoutProposals
  refine Routine.wp_ite (fun _ => trivial) fun _ => ?_
  refine (Routine.wp_bind _ _).2 (free_ask (fun (now : ℕ) w => ?_) fun _ _ => trivial)
  refine (Routine.wp_bind _ _).2 (wp_expire (fun v₁ => ?_) fun _ _ => trivial)
  refine (Routine.wp_bind _ _).2 (free_select (fun w₁ => ?_) fun _ => trivial)
  refine (Routine.wp_bind _ _).2 (free_select (fun w₂ => ?_) fun _ => trivial)
  refine Routine.wp_seq (wp_reconcileExecuted fun t ht =>
    tracked_of_mem saw_ran.cons saw_ran (fun p => mem_safeProposals) ht) (fun _ v₂ _ => ?_)
    fun _ _ _ => trivial
  refine (Routine.wp_bind _ _).2 (free_select (fun w₃ => ?_) fun _ => trivial)
  refine (Routine.wp_bind _ _).2 (free_select (fun w₄ => ?_) fun _ => trivial)
  refine Routine.wp_ite (fun _ => trivial) fun _ => ?_
  refine (Routine.wp_bind _ _).2 (free_ask (fun (nonce : ℕ) w₅ => ?_) fun _ _ => trivial)
  exact wp_syncPending fun t ht =>
    (tracked_of_mem saw_ran.cons saw_ran (fun p => mem_safeProposals) ht).cons

/-! ### The indexer -/

/-- **Every job** keeps to its discipline. -/
theorem escrow_code_safe (w : World) :
    (Job.code O.config O.ext j).wp (payoutDiscipline O j) (fun _ _ _ => True) [] w := by
  cases j with
  | create n goalId dto actor => exact Routine.wp_silently (wp_create rfl)
  | submit n intentId dto actor => exact Routine.wp_silently wp_submit
  | cancel n intentId actor => exact Routine.wp_silently wp_cancel
  | expire n =>
    exact Routine.wp_silently (wp_expireAbandoned (Q := fun _ _ => True) (E := fun _ _ => True)
      (fun _ => trivial) fun _ _ => trivial)
  | sync n updatedAt => exact Routine.wp_silently wp_sync
  | project event =>
    refine Routine.wp_silently (Q := fun _ _ => True) (E := fun _ _ => True)
      (free_transactionOf (fun w db r ht => ⟨.project rfl ht, trivial⟩) fun _ _ _ => trivial)
  | rebuild =>
    refine Routine.wp_silently (Q := fun _ _ => True) (E := fun _ _ => True)
      (free_transaction (fun w db ht => ⟨?_, trivial⟩) fun _ _ _ => trivial)
    obtain rfl := Except.ok.inj ht
    exact .rebuild rfl

end

end Escrow

end PreCommunity
