import PreCommunity.Admin.Exclusive

/-!
# The pending proposals of a Safe

Runs of the administration: how many proposals of a Safe are pending, and what a proposal that has
ended still blocks.

* `safety` : every process keeps to its writes, and the tables stay sound.
* `one_live_action` : lifecycle actions, when every intent is inserted while nothing is pending.
* `goal_manager_exclusive` : changes of the goal managers, and what blocks a submission.
-/

namespace PreCommunity

namespace Admin

open Store Concurrent Escrow

variable (O : Outside)

/-! ### The protocol -/

/-- Both groups of tables are sound. -/
structure Database.Sound (db : Database) : Prop where
  actions : ActionsSound db
  managers : ManagersSound db

/-- The processes keep to the kinds of writes, and intents stay in the table. -/
def discipline : Discipline World Reply Failure where
  inv w := w.db.Sound
  rely w w' := ∀ intent, w.db.HasManagerIntent intent → w'.db.HasManagerIntent intent
  answers := O.answers
  guar _ w w' := w' = w ∨ Write O.config w w'
  asks _ _ _ := True
  rely_refl _ _ := fun h => h
  rely_trans h h' := fun intent hi => h' intent (h intent hi)
  guar_refl _ _ := .inl rfl

variable {O}

theorem Database.Sound.write {w w' : World} (hw : w.db.Sound) (h : Write O.config w w') :
    w'.db.Sound :=
  ⟨hw.actions.write h.1, hw.managers.write h.2⟩

/-- A routine whose writes are known as long as an intent is in the table. -/
theorem wp_of_within {α : Type} {p : Worker α} {K : World → Prop}
    (hK : ∀ w w', (discipline O).rely w w' → K w → K w')
    (hp : Routine.Within (fun w w' => K w → Write O.config w w') p)
    {v : View Unit World Reply Failure} (hv : K v.shared) :
    Routine.wp (discipline O) p (fun _ _ => True) (fun _ _ => True) v :=
  Routine.wp_of_within hK (fun _ _ _ => trivial)
    (fun _ w w' _ hw hwrite =>
      ⟨.inr hwrite, hK w w' (fun _ hi => hwrite.2.keeps hi) hw⟩) hp hv

theorem wp_of_writes {α : Type} {p : Worker α} (hp : Routine.Within (Write O.config) p)
    (v : View Unit World Reply Failure) :
    Routine.wp (discipline O) p (fun _ _ => True) (fun _ _ => True) v :=
  wp_of_within (K := fun _ => True) (fun _ _ _ h => h) (hp.mono fun _ _ h _ => h) trivial

/-- The intent of a submission stays in the table once it was found. -/
theorem wp_submitSafeGoalManagerIntent (hash : List Address → Hash) (intentId : Id)
    (dto : SafeSubmission) (actor : Address) (v : View Unit World Reply Failure) :
    Routine.wp (discipline O) (submitSafeGoalManagerIntent O.config hash intentId dto actor)
      (fun _ _ => True) (fun _ _ => True) v := by
  unfold submitSafeGoalManagerIntent
  split
  · trivial
  refine Routine.wp_seq (wp_of_writes (within_ask _) v) (fun info v₁ _ => ?_) fun _ _ h => h
  rw [Routine.wp_bind]
  refine Routine.wp_read fun w _ _ => ⟨?_, trivial⟩
  split
  · trivial
  next intent hfound =>
  have hintent : w.db.HasManagerIntent intent :=
    ⟨intent, List.mem_of_find?_eq_some hfound, rfl, rfl⟩
  refine wp_of_within (K := fun w => w.db.HasManagerIntent intent)
    (fun _ _ hrely h => hrely _ h) ?_ hintent
  have hknown : ∀ w w', Write O.config w w' → w.db.HasManagerIntent intent →
      Write O.config w w' := fun _ _ h _ => h
  refine Routine.within_bind within_select fun proposal => ?_
  split
  · exact Routine.within_throw _
  split
  · exact Routine.within_throw _
  split
  · exact Routine.within_pure _
  refine Routine.within_bind (within_checkManager _ _ _ _ _) fun calculatedHash => ?_
  split
  · exact (within_sendManager O.config _ _ _ _ _).mono hknown
  · exact within_claimManager O.config _ _ _ _ _

/-- **Every job** keeps to the discipline. -/
theorem wp_code (j : Job) (w : World) :
    (j.code O).wp (discipline O) (fun _ _ _ => True) [] w := by
  cases j with
  | prepareLifecycle _ goalId dto actor =>
    exact Routine.wp_silently (wp_of_writes (within_prepareGoalLifecycle _ _ _ _ _) _)
  | submitAction _ intentId dto actor =>
    exact Routine.wp_silently (wp_of_writes (within_submitSafeGoalAction _ _ _ _) _)
  | syncActions _ updatedAt =>
    exact Routine.wp_silently (wp_of_writes (within_syncSafeGoalActionProposals _ _) _)
  | confirmAction _ goalId kind txHash occurredAt targetPolicy =>
    exact Routine.wp_silently (wp_of_writes (within_confirmSafeGoalAction _ _ _ _ _ _) _)
  | prepareManagers _ actor dto =>
    exact Routine.wp_silently (wp_of_writes (within_prepareSafeGoalManagerSync _ _ _ _) _)
  | updateManager _ address enabled dto actor =>
    exact Routine.wp_silently (wp_of_writes (within_updateGoalManager _ _ _ _ _ _) _)
  | submitManagers _ intentId dto actor =>
    exact Routine.wp_silently (wp_submitSafeGoalManagerIntent _ _ _ _ _)
  | syncManagers _ updatedAt =>
    exact Routine.wp_silently (wp_of_writes (within_syncSafeGoalManagerProposals _ _ _) _)

theorem Environment.sound {w w' : World} (h : Environment w w') (hw : w.db.Sound) :
    w'.db.Sound := by
  cases h with
  | project goals chainManagers assignments =>
    exact ⟨hw.actions.elsewhere rfl rfl le_rfl, hw.managers.elsewhere rfl rfl le_rfl⟩

theorem Environment.keeps {w w' : World} (h : Environment w w') {intent : SafeGoalManagerIntent}
    (hi : w.db.HasManagerIntent intent) : w'.db.HasManagerIntent intent := by
  cases h with
  | project goals chainManagers assignments => exact hi

variable (O)

/-- The protocol of the administration. -/
def safety : Protocol (admin O) where
  inv w := w.db.Sound
  le _ _ := True
  rely _ := (discipline O).rely
  guar _ := (discipline O).guar
  asks _ := (discipline O).asks
  le_refl _ := trivial
  le_trans _ _ := trivial
  rely_refl _ := (discipline O).rely_refl
  rely_trans := (discipline O).rely_trans
  guar_refl _ := (discipline O).guar_refl
  inv_guar _ hguar hinv := by
    obtain rfl | hwrite := hguar
    · exact hinv
    · exact hinv.write hwrite
  inv_env h hinv := h.sound hinv
  inv_halt h := h
  le_guar _ _ _ := trivial
  le_env _ := trivial
  le_halt _ _ := trivial
  rely_guar _ _ hguar _ := by
    obtain rfl | hwrite := hguar
    · exact fun _ h => h
    · exact fun _ h => hwrite.2.keeps h
  rely_env h := fun _ hi => h.keeps hi
  rely_halt _ := fun _ h => h
  code_safe _ _ := wp_code _ _

/-! ### Sample runs -/

section Sample

/-- The deployment of the sample runs. -/
def sampleConfig : Deployment :=
  { chainId := 1
    escrowAddress := 7
    preAddress := 8
    usdcAddress := 9
    treasury := 10
    deploymentBlock := 0
    confirmations := 1
    stateKey := []
    safeAddress := 5
    safeServiceConfigured := true }

/-- A monthly goal. -/
def sampleGoal : FundingGoal :=
  { id := 100
    expenseId := none
    chainId := 1
    chainGoalId := 11
    slug := []
    metadataStatus := .notSet
    metadata := none
    creatorAddress := 20
    goalType := .monthly
    monthlySurplusPolicy := some .payoutAll
    monthlyFirstSettlementAt := none
    monthlySettlementDay := some 1
    monthlyStopRequestedAt := none
    monthlyPeriodsSettled := 0
    monthStart := 0
    title := []
    description := []
    recipientAddress := 30
    deadline := 1000000000
    metadataUri := none
    targetRaw := .zero
    recipientEntitlementRaw := .zero
    carryRaw := .zero
    treasuryEntitlementRaw := .zero
    status := .opened
    creationTxHash := none
    creationBlock := none
    creationBlockHash := none
    publishedAt := none
    closedAt := none }

/-- The Safe 5 with one owner. -/
def sampleSafe : SafeRuntimeInfo := ⟨5, [2], 1, 5, true⟩

/-- The answers at a time, while the Safe has this nonce; `sent` is what the transaction service
answers to a proposal. -/
def sampleOracle (nonce : ℕ) (time : Time) (sent : Except Failure Unit) (_ : World) :
    (q : Query) → Except Failure (Reply q)
  | .now => .ok time
  | .runtimeInfo | .assertSafeEscrowOwner _ | .assertPayoutReady _ => .ok sampleSafe
  | .transactionServiceReady => .ok true
  | .nextNonce | .safeNonce => .ok nonce
  | .validateTransactionData _ _ _ _ _ | .validateGoalManagerCalls _ _ _ => .ok ()
  | .transactionHash transaction => .ok transaction
  | .propose _ _ _ => sent
  | .safeOwners => .ok [2]
  | .safeAnswers _ _ => .ok ⟨.error (.service (some 404)), .ok [], .ok []⟩

/-- The outside world of the sample runs, which may answer anything. -/
def sampleOutside : Outside where
  config := sampleConfig
  encodeGoalLifecycleData chainGoalId _ _ := chainGoalId
  goalManagerStateHash managers := managers.length
  answers _ _ _ := True

/-- A request to stop the goal. -/
def sampleRequest (n : ℕ) : Job :=
  .prepareLifecycle n 100 ⟨.requestMonthlyStop, none, .service, false⟩
    ⟨2, false, false, none, true⟩

/-- The projection of the goal. -/
def sampleProjection : Move World Reply Failure Job ℕ :=
  .env fun w => some ⟨{ w.db with goals := [sampleGoal] }⟩

theorem allows_sampleProjection : (admin sampleOutside).Allows sampleProjection := by
  intro w w' h
  obtain rfl := Option.some.inj h
  exact .project [sampleGoal] w.db.chainManagers w.db.assignments

/-- A lifecycle action is prepared and submitted. -/
def sampleRun : List (Move World Reply Failure Job ℕ) :=
  [sampleProjection, .start (sampleRequest 1), .act 1 8 (sampleOracle 4 1000 (.ok ())), .stop 1,
    .start (.submitAction 1 0 ⟨2, 70, 70⟩ 2), .act 1 14 (sampleOracle 4 1000 (.ok ())), .stop 1]

/-- Another request found no active action before that, and is submitted after it. -/
def doubleRun : List (Move World Reply Failure Job ℕ) :=
  [sampleProjection, .start (sampleRequest 0), .act 0 5 (sampleOracle 4 1000 (.ok ()))] ++
    sampleRun.tail ++
  [.act 0 3 (sampleOracle 5 1000 (.ok ())), .stop 0, .start (.submitAction 0 2 ⟨2, 71, 71⟩ 2),
    .act 0 14 (sampleOracle 5 1000 (.ok ())), .stop 0]

theorem allows_sampleRun : ∀ m ∈ sampleRun, (admin sampleOutside).Allows m := by
  simp only [sampleRun, List.forall_mem_cons]
  exact ⟨allows_sampleProjection, trivial, fun _ _ => trivial, trivial, trivial,
    fun _ _ => trivial, trivial, by simp⟩

theorem allows_doubleRun : ∀ m ∈ doubleRun, (admin sampleOutside).Allows m := by
  intro m hm
  simp only [doubleRun, List.mem_append, List.mem_cons, List.not_mem_nil, or_false] at hm
  obtain ((rfl | rfl | rfl) | hm) | rfl | rfl | rfl | rfl | rfl := hm
  · exact allows_sampleProjection
  · trivial
  · exact fun _ _ => trivial
  · exact allows_sampleRun m (List.mem_of_mem_tail hm)
  all_goals first | trivial | exact fun _ _ => trivial

theorem sample_isSome :
    ((admin sampleOutside).play sampleRun (Config.idle ⟨Database.empty⟩)).isSome = true := by
  decide +kernel

/-- The end of the sample run. -/
def sampleEnd : Config World Reply Failure Job ℕ :=
  ((admin sampleOutside).play sampleRun (Config.idle ⟨Database.empty⟩)).get sample_isSome

/-- A change of the goal managers does not reach the transaction service, which then knows nothing
of it, and is prepared and submitted once more. -/
def retriedRun : List (Move World Reply Failure Job ℕ) :=
  [.start (.prepareManagers 0 2 ⟨.service, false⟩), .act 0 8 (sampleOracle 4 1000 (.ok ())),
    .stop 0, .start (.submitManagers 0 0 ⟨2, 70, 70⟩ 2),
    .act 0 13 (sampleOracle 4 1000 (.error (.service none))), .stop 0,
    .start (.syncManagers 0 fun _ => 0), .act 0 7 (sampleOracle 4 1000000 (.ok ())), .stop 0,
    .start (.prepareManagers 0 2 ⟨.service, false⟩), .act 0 8 (sampleOracle 4 2000000 (.ok ())),
    .stop 0, .start (.submitManagers 0 2 ⟨2, 70, 70⟩ 2),
    .act 0 11 (sampleOracle 4 2000000 (.ok ())), .stop 0]

theorem allows_retriedRun : ∀ m ∈ retriedRun, (admin sampleOutside).Allows m := by
  simp only [retriedRun, List.forall_mem_cons]
  refine ⟨trivial, ?_, trivial, trivial, ?_, trivial, trivial, ?_, trivial, trivial, ?_, trivial,
    trivial, ?_, trivial, by simp⟩ <;> exact fun _ _ => trivial

theorem retried_isSome :
    ((admin sampleOutside).play retriedRun (Config.idle ⟨Database.empty⟩)).isSome = true := by
  decide +kernel

/-- The end of the run. -/
def retriedEnd : Config World Reply Failure Job ℕ :=
  ((admin sampleOutside).play retriedRun (Config.idle ⟨Database.empty⟩)).get retried_isSome

/-- The new intent is open and nothing is pending, but its claim is refused. -/
theorem retriedEnd_refuses : ∃ intent ∈ retriedEnd.shared.db.managerIntents,
    isClaimable intent.id 2000000 retriedEnd.shared.db intent = true ∧
      retriedEnd.shared.db.pendingManagers intent.chainId intent.safeAddress = 0 ∧
      (claimManagerTx intent 70 2 1 2000000 retriedEnd.shared.db).toOption.isNone = true := by
  decide +kernel

end Sample

/-! ### Lifecycle actions -/

/-- The statement inserts an intent only while no proposal of its Safe is pending. -/
def InsertsFreely : Label World Reply Failure Job → Prop
  | .act _ _ _ (.ran w w') => ∀ i ∈ w'.db.actionIntents, (∀ j ∈ w.db.actionIntents, j.id ≠ i.id) →
      w.db.pendingActions i.chainId i.safeAddress = 0
  | _ => True

instance : DecidablePred InsertsFreely
  | .act _ _ _ (.ran w w') => inferInstanceAs (Decidable (∀ i ∈ w'.db.actionIntents,
      (∀ j ∈ w.db.actionIntents, j.id ≠ i.id) →
        w.db.pendingActions i.chainId i.safeAddress = 0))
  | .act _ _ _ (.asked _ _ _) | .env | .start _ | .stop _ | .crash _ =>
      inferInstanceAs (Decidable True)

variable {O}

theorem sound_empty : Database.empty.Sound where
  actions := ⟨List.Pairwise.nil, by simp [Database.empty], by simp [Database.empty],
    by simp [Database.empty]⟩
  managers := ⟨List.Pairwise.nil, by simp [Database.empty], List.Pairwise.nil,
    by simp [Database.empty], by simp [Database.empty], by simp [Database.empty]⟩

/-- Every reachable configuration is safe. -/
theorem safe_of_run {c : Config World Reply Failure Job ℕ}
    {ls : List (Label World Reply Failure Job)}
    (hrun : (admin O).Run (Config.idle ⟨Database.empty⟩) ls c) : (safety O).Safe c :=
  ((safety O).safe_idle sound_empty).run hrun

/-- **One live lifecycle action.**  In every run whose intents are all inserted while no proposal of
their Safe is pending, at most one proposal of a Safe is pending at any moment. -/
theorem one_live_action {c : Config World Reply Failure Job ℕ}
    {ls : List (Label World Reply Failure Job)}
    (hrun : (admin O).Run (Config.idle ⟨Database.empty⟩) ls c) (hls : ∀ l ∈ ls, InsertsFreely l)
    (chainId : ℕ) (safeAddress : Address) :
    c.shared.db.pendingActions chainId safeAddress ≤ 1 := by
  suffices hexclusive : ActionsExclusive c.shared.db from hexclusive.one chainId safeAddress
  have hidle : (safety O).Safe (Config.idle ⟨Database.empty⟩) := (safety O).safe_idle sound_empty
  refine (hidle.along (L := InsertsFreely) (J := fun _ w => ActionsExclusive w.db)
    (R := fun _ _ => True) (fun _ => trivial) (fun _ _ _ _ h => h) ?_
    (fun _ _ _ _ h => ⟨h, fun _ _ => trivial⟩) ?_ (Protocol.recalls_idle _) ?_ hrun hls).1
  · intro _ w w' hinv henv hw
    refine ⟨?_, fun _ _ => trivial⟩
    cases henv with
    | project goals chainManagers assignments =>
      have hwrite : ActionWrite O.config w.db { w.db with
          goals := goals
          chainManagers := chainManagers
          assignments := assignments } := .elsewhere rfl rfl le_rfl
      exact hw.write hinv.actions hwrite fun i hi hnew => absurd rfl (hnew i hi)
  · intro _ j began h w w' hfree hinv _ _ hguar hw
    refine ⟨?_, fun _ _ => trivial⟩
    obtain rfl | hwrite := hguar
    · exact hw
    · exact hw.write hinv.actions hwrite.1 hfree
  · exact ⟨by rintro i ⟨⟩, fun _ _ => by simp [Database.pendingActions, Config.idle,
      Database.empty]⟩

theorem one_live_action_sample : sampleEnd.shared.db.pendingActions 1 5 ≤ 1 :=
  one_live_action
    (Machine.run_labels allows_sampleRun (Option.some_get sample_isSome).symm)
    (by decide +kernel) 1 5

/-- An action that was prepared while another one was not yet pending, and inserted when the other
one was no longer unsubmitted, gives a Safe two pending proposals. -/
theorem two_live_actions : ¬∀ (O : Outside) (c : Config World Reply Failure Job ℕ)
    (ls : List (Label World Reply Failure Job)),
    (admin O).Run (Config.idle ⟨Database.empty⟩) ls c →
      ∀ chainId safeAddress, c.shared.db.pendingActions chainId safeAddress ≤ 1 := by
  intro hall
  have hplay : ((admin sampleOutside).play doubleRun (Config.idle ⟨Database.empty⟩)).map
      (fun c => c.shared.db.pendingActions 1 5) = some 2 := by decide +kernel
  obtain ⟨c, hc, htwo⟩ := Option.map_eq_some_iff.1 hplay
  have := hall sampleOutside c _ (Machine.run_labels allows_doubleRun hc) 1 5
  omega

/-! ### Goal managers -/

/-- **Changes of the goal managers.**  In every run a proposal holds the key of its Safe just while
it is pending, so at most one proposal of a Safe is pending; and while none is, an intent that is
still open can be submitted if and only if no earlier proposal has the hash of its Safe
transaction. -/
theorem goal_manager_exclusive {c : Config World Reply Failure Job ℕ}
    {ls : List (Label World Reply Failure Job)}
    (hrun : (admin O).Run (Config.idle ⟨Database.empty⟩) ls c) :
    (∀ p ∈ c.shared.db.managerProposals, HoldsKey c.shared.db p) ∧
      (∀ chainId safeAddress, c.shared.db.pendingManagers chainId safeAddress ≤ 1) ∧
      ∀ intent ∈ c.shared.db.managerIntents, ∀ (now : Time) (safeTxHash : Hash) (actor : Address)
        (threshold : ℕ), isClaimable intent.id now c.shared.db intent = true →
        c.shared.db.pendingManagers intent.chainId intent.safeAddress = 0 →
        ((∃ r, claimManagerTx intent safeTxHash actor threshold now c.shared.db = .ok r) ↔
          ∀ p ∈ c.shared.db.managerProposals, p.safeTxHash ≠ safeTxHash) := by
  have hsound : ManagersSound c.shared.db := (safe_of_run hrun).inv.managers
  exact ⟨hsound.keyed, hsound.one, fun intent hintent now safeTxHash actor threshold hclaimable
    hnone => hsound.claim_iff hintent hclaimable hnone safeTxHash actor threshold⟩

theorem goal_manager_exclusive_sample :
    (∀ p ∈ retriedEnd.shared.db.managerProposals, HoldsKey retriedEnd.shared.db p) ∧
      retriedEnd.shared.db.pendingManagers 1 5 ≤ 1 := by
  obtain ⟨hkeys, hone, -⟩ := goal_manager_exclusive
    (Machine.run_labels allows_retriedRun (Option.some_get retried_isSome).symm)
  exact ⟨hkeys, hone 1 5⟩

/-- A proposal that failed blocks the same change from being submitted again. -/
theorem failed_proposal_blocks : ¬∀ (O : Outside) (c : Config World Reply Failure Job ℕ)
    (ls : List (Label World Reply Failure Job)),
    (admin O).Run (Config.idle ⟨Database.empty⟩) ls c →
      (∀ p ∈ c.shared.db.managerProposals, HoldsKey c.shared.db p) ∧
      (∀ chainId safeAddress, c.shared.db.pendingManagers chainId safeAddress ≤ 1) ∧
      ∀ intent ∈ c.shared.db.managerIntents, ∀ (now : Time) (safeTxHash : Hash) (actor : Address)
        (threshold : ℕ), isClaimable intent.id now c.shared.db intent = true →
        c.shared.db.pendingManagers intent.chainId intent.safeAddress = 0 →
        ∃ r, claimManagerTx intent safeTxHash actor threshold now c.shared.db = .ok r := by
  intro hall
  obtain ⟨-, -, hsubmits⟩ := hall sampleOutside retriedEnd _
    (Machine.run_labels allows_retriedRun (Option.some_get retried_isSome).symm)
  obtain ⟨intent, hintent, hclaimable, hnone, hrefused⟩ := retriedEnd_refuses
  obtain ⟨r, hr⟩ := hsubmits intent hintent 2000000 70 2 1 hclaimable hnone
  rw [hr] at hrefused
  cases hrefused

end Admin

end PreCommunity
