import PreCommunity.Admin.Assignments
import PreCommunity.Concurrent.Sequential

/-!
# Submitting what was prepared

An intent is prepared from the goal managers that are wanted and those of the contract, and its
submission computes both again.  The synchronization prepares the whole difference, so its intent
passes; the update of one address prepares that address alone.

* `Submittable` : the checks of a submission pass while nothing changes.
* `submittable_iff` : an intent passes if its changes are the whole difference.
* `manager_intents_submittable` : the intents of both requests.
-/

namespace PreCommunity

namespace Admin

open Store Concurrent Escrow

variable {oracle : World → (q : Query) → Except Failure (Reply q)} {α : Type} {w w' : World}
  {config : Deployment} {goalManagerStateHash : List Address → Hash} {info : SafeRuntimeInfo}
  {actor : Address} {dto : PrepareSafeDelivery}

/-! ### Undisturbed runs of the requests -/

@[simp] theorem eval_select (f : Database → α) (m : Unit) :
    Routine.eval oracle (select f) m w = some ((.ok (f w.db), m), w) := rfl

@[simp] theorem eval_askQuery (q : Query) (m : Unit) :
    Routine.eval oracle (ask q) m w = some ((oracle w q, m), w) := rfl

theorem eval_ask_ok {q : Query} {r : Reply q} (m : Unit) (h : oracle w q = .ok r) :
    Routine.eval oracle (ask q) m w = some ((.ok r, m), w) := by
  rw [eval_askQuery, h]

theorem ok_of_eval_select {f : Database → α} {a : α} {m m' : Unit}
    (h : Routine.eval oracle (select f) m w = some ((.ok a, m'), w')) : f w.db = a ∧ w = w' := by
  simpa using h

theorem eval_transaction {t : Database → Except Failure Database} {db : Database} {m : Unit}
    (h : t w.db = .ok db) :
    Routine.eval oracle (transaction t) m w = some ((.ok (), m), ⟨db⟩) := by
  unfold transaction transactionOf Routine.transact
  simp [h, Except.map]

theorem ok_of_eval_transactionOf {t : Database → Except Failure (Database × α)} {a : α}
    {m m' : Unit} (h : Routine.eval oracle (transactionOf t) m w = some ((.ok a, m'), w')) :
    t w.db = .ok (w'.db, a) := by
  obtain ⟨db, ht, rfl⟩ := Routine.ok_of_eval_transact h
  exact ht

theorem ok_of_eval_ask {q : Query} {r : Reply q} {m m' : Unit}
    (h : Routine.eval oracle (ask q) m w = some ((.ok r, m'), w')) :
    oracle w q = .ok r ∧ w = w' := by
  simp only [eval_askQuery, Option.some.injEq, Prod.mk.injEq] at h
  exact ⟨h.1.1, h.2⟩

/-- The part of a preparation that inserts the intent. -/
theorem prepareManagerIntent_ok {changes : List GoalManagerChange} {desiredManagers : List Address}
    {response : GoalManagerResponse} {m m' : Unit}
    (h : Routine.eval oracle (prepareManagerIntent config goalManagerStateHash info changes
      desiredManagers actor) m' w = some ((.ok response, m), w')) :
    ∃ intent ∈ w'.db.managerIntents, intent.changes = changes ∧
      intent.desiredStateHash = goalManagerStateHash desiredManagers ∧
      intent.chainId = config.chainId ∧ intent.safeAddress = info.address ∧
      0 < intent.expiresAt ∧
      response = .service intent.id changes info.address intent.safeNonce info.threshold ∧
      w'.db.chainManagers = w.db.chainManagers ∧ w'.db.assignments = w.db.assignments := by
  replace h := Routine.ok_of_eval_bind h
  obtain ⟨ready, _, _, hready, h⟩ := h
  obtain ⟨-, rfl⟩ := ok_of_eval_ask hready
  split_ifs at h with hr
  · simp at h
  replace h := Routine.ok_of_eval_bind h
  obtain ⟨safeNonce, _, _, hnonce, h⟩ := h
  obtain ⟨-, rfl⟩ := ok_of_eval_ask hnonce
  replace h := Routine.ok_of_eval_bind h
  obtain ⟨now, _, _, hnow, h⟩ := h
  obtain ⟨-, rfl⟩ := ok_of_eval_ask hnow
  replace h := Routine.ok_of_eval_bind h
  obtain ⟨intent, _, w₁, hinsert, h⟩ := h
  have hok := ok_of_eval_transactionOf hinsert
  simp only [insertManagerIntentTx, Except.ok.injEq, Prod.mk.injEq] at hok
  obtain ⟨hdb, rfl⟩ := hok
  obtain ⟨rfl, rfl⟩ : _ = response ∧ w₁ = w' := by simpa using h
  rw [← hdb]
  exact ⟨_, List.mem_append_right _ (List.mem_singleton_self _), rfl, rfl, rfl, rfl,
    Nat.lt_of_lt_of_le (by decide) (Nat.le_add_left _ _), rfl, rfl, rfl⟩

/-- The answer of a request that prepares is an intent of the service. -/
def GoalManagerResponse.isService : GoalManagerResponse → Bool
  | service .. => true
  | _ => false

/-- A preparation that ends in an intent of the service. -/
theorem prepareGoalManagerChanges_ok {rawChanges : List GoalManagerChange}
    {desiredManagers : List Address} {response : GoalManagerResponse} {m m' : Unit}
    (h : Routine.eval oracle (prepareGoalManagerChanges config goalManagerStateHash rawChanges actor
      desiredManagers dto info) m' w = some ((.ok response, m), w'))
    (hservice : response.isService) :
    ∃ intent ∈ w'.db.managerIntents,
      intent.changes = normalizedGoalManagerChanges rawChanges ∧ intent.changes ≠ [] ∧
      intent.desiredStateHash = goalManagerStateHash desiredManagers ∧
      intent.chainId = config.chainId ∧ intent.safeAddress = info.address ∧
      0 < intent.expiresAt ∧
      response = .service intent.id intent.changes info.address intent.safeNonce info.threshold ∧
      w'.db.chainManagers = w.db.chainManagers ∧ w'.db.assignments = w.db.assignments := by
  unfold prepareGoalManagerChanges at h
  extract_lets changes at h
  replace h := Routine.ok_of_eval_bind h
  obtain ⟨_, _, _, hactor, h⟩ := h
  obtain ⟨-, rfl⟩ := Routine.ok_of_eval_attempt hactor
  split_ifs at h with hempty howner
  · obtain ⟨rfl, -⟩ : GoalManagerResponse.nothing = response ∧ w = w' := by simpa using h
    cases hservice
  · obtain ⟨rfl, -⟩ : GoalManagerResponse.direct changes = response ∧ _ := by simpa using h
    cases hservice
  replace h := Routine.ok_of_eval_bind h
  obtain ⟨existing, _, w₁, hexisting, h⟩ := h
  obtain ⟨-, rfl⟩ := ok_of_eval_select hexisting
  split at h
  · obtain ⟨rfl, -⟩ : GoalManagerResponse.manual changes = response ∧ _ := by simpa using h
    cases hservice
  · obtain ⟨intent, hmem, hchanges, hhash, hchain, hsafe, hexpires, hresponse, hmanagers,
      hassignments⟩ := prepareManagerIntent_ok h
    exact ⟨intent, hmem, hchanges, hchanges ▸ hempty, hhash, hchain, hsafe, hexpires,
      hchanges ▸ hresponse, hmanagers, hassignments⟩
  · replace h := Routine.ok_of_eval_bind h
    obtain ⟨_, _, _, -, h⟩ := h
    replace h := Routine.ok_of_eval_bind h
    obtain ⟨_, _, _, -, h⟩ := h
    replace h := Routine.ok_of_eval_bind h
    obtain ⟨_, _, _, -, h⟩ := h
    obtain ⟨rfl, -⟩ : GoalManagerResponse.manual changes = response ∧ _ := by simpa using h
    cases hservice
  · obtain ⟨rfl, -⟩ : GoalManagerResponse.waiting changes _ = response ∧ _ := by simpa using h
    cases hservice

/-! ### The difference -/

section

variable {desired actual : List Address} {address : Address} {change : GoalManagerChange}

theorem mem_goalManagerChanges : change ∈ goalManagerChanges desired actual ↔
    (change.enabled = true ∧ change.address ∈ desired ∧ change.address ∉ actual) ∨
    (change.enabled = false ∧ change.address ∈ actual ∧ change.address ∉ desired) := by
  obtain ⟨a, enabled⟩ := change
  cases enabled <;> simp [goalManagerChanges]

/-- Sorting a list that is sorted already changes nothing. -/
theorem normalized_normalized (changes : List GoalManagerChange) :
    normalizedGoalManagerChanges (normalizedGoalManagerChanges changes) =
      normalizedGoalManagerChanges changes := by
  have : Std.Total fun a b : GoalManagerChange => a.address ≤ b.address :=
    ⟨fun a b => Nat.le_total a.address b.address⟩
  have : IsTrans GoalManagerChange fun a b => a.address ≤ b.address :=
    ⟨fun a b c hab hbc => Nat.le_trans hab hbc⟩
  exact List.Pairwise.insertionSort_eq (List.pairwise_insertionSort _ _)

/-- The only element that meets a condition. -/
theorem filter_eq_singleton {l : List Address} {p : Address → Bool} (hl : l.Nodup)
    (hmem : address ∈ l) (hp : ∀ x ∈ l, (p x = true ↔ x = address)) : l.filter p = [address] := by
  have hcongr : l.filter p = l.filter (· == address) :=
    List.filter_congr fun x hx => Bool.eq_iff_iff.2 (by simpa using hp x hx)
  rw [hcongr, List.filter_beq, List.count_eq_one_of_mem hl hmem]
  rfl

/-- The whole difference is one change exactly when no other address differs. -/
theorem normalized_eq_singleton (hdesired : desired.Nodup) (hactual : actual.Nodup)
    (hdiffers : decide (address ∈ actual) ≠ decide (address ∈ desired)) :
    normalizedGoalManagerChanges (goalManagerChanges desired actual) =
        [⟨address, decide (address ∈ desired)⟩] ↔
      ∀ other, other ≠ address → (other ∈ actual ↔ other ∈ desired) := by
  constructor
  · intro h other hother
    by_contra hne
    have hmem : ∃ enabled, (⟨other, enabled⟩ : GoalManagerChange) ∈
        goalManagerChanges desired actual := by
      by_cases hd : other ∈ desired
      · exact ⟨true, mem_goalManagerChanges.2 (.inl ⟨rfl, hd, fun ha => hne (iff_of_true ha hd)⟩)⟩
      · refine ⟨false, mem_goalManagerChanges.2 (.inr ⟨rfl, ?_, hd⟩)⟩
        by_contra ha
        exact hne (iff_of_false ha hd)
    obtain ⟨enabled, hmem⟩ := hmem
    have hsorted := (List.mem_insertionSort (fun a b : GoalManagerChange =>
      a.address ≤ b.address)).2 hmem
    rw [show List.insertionSort _ _ = _ from h, List.mem_singleton] at hsorted
    exact hother (congrArg GoalManagerChange.address hsorted)
  · intro hother
    have hlist : goalManagerChanges desired actual = [⟨address, decide (address ∈ desired)⟩] := by
      unfold goalManagerChanges
      by_cases hd : address ∈ desired
      · have ha : address ∉ actual := by
          intro ha
          simp [hd, ha] at hdiffers
        have hremoved : actual.filter (fun other => other ∉ desired) = [] := by
          refine List.filter_eq_nil_iff.2 fun other ho => ?_
          have hne : other ≠ address := fun he => ha (he ▸ ho)
          simpa using (hother other hne).1 ho
        rw [hremoved, filter_eq_singleton hdesired hd]
        · simp [hd]
        · intro other ho
          by_cases he : other = address
          · simp [he, ha]
          · simpa [he] using (hother other he).2 ho
      · have ha : address ∈ actual := by
          by_contra ha
          simp [hd, ha] at hdiffers
        have hadded : desired.filter (fun other => other ∉ actual) = [] := by
          refine List.filter_eq_nil_iff.2 fun other ho => ?_
          have hne : other ≠ address := fun he => hd (he ▸ ho)
          simpa using (hother other hne).2 ho
        rw [hadded, filter_eq_singleton hactual ha]
        · simp [hd]
        · intro other ho
          by_cases he : other = address
          · simp [he, hd]
          · simpa [he] using (hother other he).1 ho
    rw [hlist]
    rfl

end

/-! ### What a submission checks -/

/-- The goal managers that are wanted in a state. -/
def Database.desired (db : Database) (safeOwners : List Address) : List Address :=
  desiredGoalManagerSet safeOwners db.chainManagers db.assignments

/-- The outside world has not changed since `intent` was prepared, and the submitted transaction is
built from the changes of the intent. -/
structure SameOutside (oracle : World → (q : Query) → Except Failure (Reply q)) (w : World)
    (info : SafeRuntimeInfo) (intent : SafeGoalManagerIntent) (submission : SafeSubmission)
    (actor : Address) : Prop where
  sender : submission.senderAddress = actor
  owners : oracle w (.assertPayoutReady actor) = .ok info
  fresh : ∃ now : Time, oracle w .now = .ok now ∧ now < intent.expiresAt
  nonce : oracle w .nextNonce = .ok intent.safeNonce
  built : oracle w (.validateGoalManagerCalls submission.transaction
    (normalizedGoalManagerChanges intent.changes) intent.safeNonce) = .ok ()
  hash : oracle w (.transactionHash submission.transaction) = .ok submission.safeTxHash

/-- The tables have not changed since `intent` was prepared in `w`, and nobody submitted it. -/
structure SameTables (w w₂ : World) (intent : SafeGoalManagerIntent) : Prop where
  managers : w₂.db.chainManagers = w.db.chainManagers
  assignments : w₂.db.assignments = w.db.assignments
  found : w₂.db.managerIntent? intent.id = some intent
  unclaimed : w₂.db.managerProposal? intent.id = none

/-- The rest of a submission, from the claim on. -/
def claimAndSend (intent : SafeGoalManagerIntent) (submission : SafeSubmission) (actor : Address)
    (threshold : ℕ) : Worker SafeGoalManagerProposal := do
  let claimed ← claimManagerProposal intent submission.safeTxHash actor threshold
  if claimed.status ≠ .submitting then return claimed
  else sendManager claimed submission submission.safeTxHash actor threshold

section

variable (config goalManagerStateHash)

/-- **A prepared intent can be submitted.**  While nothing changes, the checks of a submission pass,
and it goes on with the claim. -/
def Submittable (w : World) (info : SafeRuntimeInfo) (intent : SafeGoalManagerIntent) : Prop :=
  ∀ oracle w₂ submission actor, SameOutside oracle w₂ info intent submission actor →
    SameTables w w₂ intent →
    Routine.eval oracle (checkManager goalManagerStateHash intent none info.owners submission) ()
        w₂ = some ((.ok submission.safeTxHash, ()), w₂) ∧
      Routine.eval oracle (submitSafeGoalManagerIntent config goalManagerStateHash intent.id
          submission actor) () w₂ =
        Routine.eval oracle (claimAndSend intent submission actor info.threshold) () w₂

end

variable {intent : SafeGoalManagerIntent} {submission : SafeSubmission} {w₂ : World}

/-- The checks of a submission, up to the two that compare the state. -/
theorem eval_checkManager (houtside : SameOutside oracle w info intent submission actor) :
    Routine.eval oracle (checkManager goalManagerStateHash intent none info.owners submission) ()
        w =
      if goalManagerStateHash (w.db.desired info.owners) ≠ intent.desiredStateHash then
        some ((.error (.badRequest
          "Safe owners or manual goal manager settings changed. Prepare a new sync."), ()), w)
      else if normalizedGoalManagerChanges intent.changes ≠ normalizedGoalManagerChanges
          (goalManagerChanges (w.db.desired info.owners) w.db.chainManagers) then
        some ((.error (.badRequest
          "Confirmed goal manager state changed. Prepare a new synchronization."), ()), w)
      else some ((.ok submission.safeTxHash, ()), w) := by
  obtain ⟨now, hnow, hfresh⟩ := houtside.fresh
  have hexpiry : Routine.eval oracle (checkExpiry (none : Option SafeGoalManagerProposal).isSome
      intent.expiresAt "The goal manager intent expired. Prepare it again.") () w =
        some ((.ok (), ()), w) := by
    refine (Routine.eval_bind_ok (eval_ask_ok () hnow)).trans ?_
    rw [if_neg (Nat.not_le_of_lt hfresh)]
    rfl
  have hnonce : Routine.eval oracle (checkNonce (none : Option SafeGoalManagerProposal).isSome
      intent.safeNonce "The Safe nonce changed. Prepare a new synchronization.") () w =
        some ((.ok (), ()), w) := by
    refine (Routine.eval_bind_ok (eval_ask_ok () houtside.nonce)).trans ?_
    rw [if_neg (fun h => h rfl)]
    rfl
  have hhash : Routine.eval oracle (checkHash submission) () w =
      some ((.ok submission.safeTxHash, ()), w) := by
    refine (Routine.eval_bind_ok (eval_ask_ok () houtside.hash)).trans ?_
    rw [if_neg (fun h => h rfl)]
    rfl
  unfold checkManager
  rw [Routine.eval_bind_ok hexpiry, Routine.eval_bind_ok (eval_select _ _)]
  have hrun : ∀ {p p' : Worker Hash}, p = p' → Routine.eval oracle p () w =
      Routine.eval oracle p' () w := fun h => h ▸ rfl
  by_cases hstate : goalManagerStateHash (w.db.desired info.owners) ≠ intent.desiredStateHash
  · rw [if_pos hstate]
    exact hrun (if_pos hstate)
  rw [if_neg hstate]
  refine (hrun (if_neg hstate)).trans ?_
  by_cases hchanges : normalizedGoalManagerChanges intent.changes ≠ normalizedGoalManagerChanges
      (goalManagerChanges (w.db.desired info.owners) w.db.chainManagers)
  · rw [if_pos hchanges]
    exact hrun (if_pos hchanges)
  rw [if_neg hchanges]
  refine (hrun (if_neg hchanges)).trans ?_
  rw [Routine.eval_bind_ok hnonce]
  exact (Routine.eval_bind_ok (eval_ask_ok () houtside.built)).trans hhash

/-- An outside world that has not changed. -/
def unchanged (info : SafeRuntimeInfo) (intent : SafeGoalManagerIntent) (safeTxHash : Hash) :
    World → (q : Query) → Except Failure (Reply q)
  | _, .now => .ok (0 : Time)
  | _, .assertPayoutReady _ => .ok info
  | _, .nextNonce => .ok intent.safeNonce
  | _, .validateGoalManagerCalls _ _ _ => .ok ()
  | _, .transactionHash _ => .ok safeTxHash
  | _, _ => .error .other

/-- **An intent can be submitted** exactly when its changes are the whole difference. -/
theorem submittable_iff (hhash : intent.desiredStateHash =
      goalManagerStateHash (w.db.desired info.owners))
    (hchain : intent.chainId = config.chainId) (hsafe : intent.safeAddress = info.address)
    (hexpires : 0 < intent.expiresAt) :
    Submittable config goalManagerStateHash w info intent ↔
      normalizedGoalManagerChanges intent.changes = normalizedGoalManagerChanges
        (goalManagerChanges (w.db.desired info.owners) w.db.chainManagers) := by
  constructor
  · intro h
    by_contra hne
    let w₂ : World := ⟨{ w.db with managerIntents := [intent], managerProposals := [] }⟩
    let submission : SafeSubmission := ⟨0, 0, 0⟩
    have houtside : SameOutside (unchanged info intent submission.safeTxHash) w₂ info intent
        submission 0 := ⟨rfl, rfl, ⟨0, rfl, hexpires⟩, rfl, rfl, rfl⟩
    have htables : SameTables w w₂ intent := by
      refine ⟨rfl, rfl, ?_, rfl⟩
      simp [w₂, Database.managerIntent?]
    have hcheck := (h _ w₂ submission 0 houtside htables).1
    rw [eval_checkManager houtside] at hcheck
    have hdesired : w₂.db.desired info.owners = w.db.desired info.owners := rfl
    rw [hdesired, if_neg (fun h => h hhash.symm), if_pos hne] at hcheck
    simp at hcheck
  · intro hchanges oracle w₂ submission actor houtside htables
    have hdesired : w₂.db.desired info.owners = w.db.desired info.owners := by
      simp only [Database.desired, htables.managers, htables.assignments]
    have hcheck : Routine.eval oracle (checkManager goalManagerStateHash intent none info.owners
        submission) () w₂ = _ := eval_checkManager houtside
    rw [hdesired, htables.managers, if_neg (fun hne => hne hhash.symm),
      if_neg (fun hne => hne hchanges)] at hcheck
    refine ⟨hcheck, ?_⟩
    unfold submitSafeGoalManagerIntent
    rw [if_neg (fun hne => hne houtside.sender)]
    refine (Routine.eval_bind_ok (eval_ask_ok () houtside.owners)).trans ?_
    rw [Routine.eval_bind_ok (eval_select _ _)]
    simp only [htables.found]
    rw [Routine.eval_bind_ok (eval_select _ _)]
    simp only [htables.unclaimed]
    rw [if_neg (by simp [hchain, hsafe]), if_neg (by simp)]
    exact Routine.eval_bind_ok hcheck

/-! ### The two requests -/

/-- **The synchronization** prepares an intent that can be submitted. -/
theorem prepareSafeGoalManagerSync_submittable {response : GoalManagerResponse}
    (hinfo : oracle w .runtimeInfo = .ok info)
    (h : Routine.eval oracle (prepareSafeGoalManagerSync config goalManagerStateHash actor dto) ()
      w = some ((.ok response, ()), w')) (hservice : response.isService) :
    ∃ intent ∈ w'.db.managerIntents,
      response = .service intent.id intent.changes info.address intent.safeNonce info.threshold ∧
      Submittable config goalManagerStateHash w' info intent := by
  unfold prepareSafeGoalManagerSync at h
  replace h := (Routine.eval_bind_ok (eval_ask_ok () hinfo)).symm.trans h
  replace h := Routine.ok_of_eval_bind h
  obtain ⟨_, _, _, hactor, h⟩ := h
  obtain ⟨-, rfl⟩ := Routine.ok_of_eval_attempt hactor
  replace h := (Routine.eval_bind_ok (eval_transaction rfl)).symm.trans h
  replace h := (Routine.eval_bind_ok (eval_select _ _)).symm.trans h
  obtain ⟨intent, hmem, hchanges, -, hhash, hchain, hsafe, hexpires, hresponse, hmanagers,
    hassignments⟩ := prepareGoalManagerChanges_ok h hservice
  refine ⟨intent, hmem, hresponse, (submittable_iff ?_ hchain hsafe hexpires).2 ?_⟩
  · simp only [Database.desired, hmanagers, hassignments, hhash]
  · simp only [Database.desired, hmanagers, hassignments, hchanges, normalized_normalized]

/-- Who should manage goals: the owners of the Safe, who was assigned by hand, and the managers that
nobody assigned. -/
def Database.wants (db : Database) (safeOwners : List Address) (address : Address) : Prop :=
  address ∈ safeOwners ∨
  (∃ row ∈ db.assignments, row.source = .manual ∧ row.desiredEnabled = true ∧
    row.address = address) ∨
  (address ∈ db.chainManagers ∧ ∀ row ∈ db.assignments, row.address ≠ address)

/-- No address but `address` waits for a change. -/
def Database.onlyPending (db : Database) (safeOwners : List Address) (address : Address) : Prop :=
  ∀ other, other ≠ address → (other ∈ db.chainManagers ↔ db.wants safeOwners other)

theorem mem_desired {safeOwners actualManagers : List Address} {rows : List GoalManagerAssignment}
    {address : Address} : address ∈ desiredGoalManagerSet safeOwners actualManagers rows ↔
      address ∈ safeOwners ∨
      (∃ row ∈ rows, row.desiredEnabled = true ∧ row.address = address) ∨
      (address ∈ actualManagers ∧ ∀ row ∈ rows, row.address ≠ address) := by
  simp [desiredGoalManagerSet, normalizedAddresses, List.mem_insertionSort, and_assoc]

/-- What is wanted after a reconciliation. -/
theorem mem_desired_reconcileAssignments {safeOwners : List Address} {db : Database}
    {address : Address} :
    address ∈ desiredGoalManagerSet safeOwners db.chainManagers
        (reconcileAssignments safeOwners db).assignments ↔ db.wants safeOwners address := by
  have hgeneral : address ∈ Assignments.desiredGoalManagerSet (fun a => a) safeOwners
      db.chainManagers (Assignments.reconcile (fun a => a) safeOwners db.chainManagers
        (db.assignments.map Assignments.ofRow)) ↔ _ :=
    Assignments.mem_desired_reconcile fun _ => rfl
  rw [← Assignments.reconcileAssignments_eq, Assignments.mem_desiredGoalManagerSet] at hgeneral
  rw [mem_desired]
  simpa [Database.wants, Assignments.ofRow] using hgeneral

/-- The assignment of one address by hand changes nothing about the others. -/
theorem mem_desired_upsert {safeOwners actualManagers : List Address}
    {rows : List GoalManagerAssignment} {address other : Address} {enabled : Bool}
    (hne : other ≠ address) :
    other ∈ desiredGoalManagerSet safeOwners actualManagers
        (upsert (fun row => row.address = address ∧ row.source = .manual)
          (fun row => { row with desiredEnabled := enabled }) ⟨address, .manual, enabled⟩ rows) ↔
      other ∈ desiredGoalManagerSet safeOwners actualManagers rows := by
  have hrow : ∀ (q : GoalManagerAssignment → Prop),
      (∃ row ∈ upsert (fun row => row.address = address ∧ row.source = .manual)
        (fun row => { row with desiredEnabled := enabled }) ⟨address, .manual, enabled⟩ rows,
          q row ∧ row.address = other) ↔ ∃ row ∈ rows, q row ∧ row.address = other := by
    intro q
    unfold upsert
    split_ifs with hany
    · constructor
      · rintro ⟨row, hrow, hq, rfl⟩
        obtain ⟨x, hx, rfl⟩ := mem_updateWhere.1 hrow
        split_ifs at hq hne with hp
        · simp only [decide_eq_true_eq] at hp
          exact absurd hp.1 hne
        · exact ⟨x, hx, hq, by rw [if_neg hp]⟩
      · rintro ⟨row, hrow, hq, rfl⟩
        exact ⟨row, mem_updateWhere_of_not hrow (by simp [hne]), hq, rfl⟩
    · simp only [List.mem_append, List.mem_singleton]
      constructor
      · rintro ⟨row, hrow | rfl, hq, ha⟩
        · exact ⟨row, hrow, hq, ha⟩
        · exact absurd ha.symm hne
      · rintro ⟨row, hrow, hq, ha⟩
        exact ⟨row, .inl hrow, hq, ha⟩
  rw [mem_desired, mem_desired, hrow]
  have hnone := not_congr (hrow fun _ => True)
  simp only [true_and, not_exists, not_and] at hnone
  exact or_congr_right (or_congr_right (and_congr_right fun _ => hnone))

theorem nodup_desired {safeOwners actualManagers : List Address}
    {rows : List GoalManagerAssignment} :
    (desiredGoalManagerSet safeOwners actualManagers rows).Nodup :=
  (List.perm_insertionSort _ _).nodup_iff.2 (List.nodup_dedup _)

/-- An assignment by hand prepares an intent that can be submitted exactly when no other address
waits for a change. -/
theorem assignGoalManager_submittable {response : GoalManagerResponse} {address : Address}
    {enabled : Bool} {m : Unit} (hmanagers : w.db.chainManagers.Nodup)
    (h : Routine.eval oracle (assignGoalManager config goalManagerStateHash address enabled dto
      actor info) m w = some ((.ok response, ()), w')) (hservice : response.isService) :
    ∃ intent ∈ w'.db.managerIntents,
      response = .service intent.id intent.changes info.address intent.safeNonce info.threshold ∧
      (Submittable config goalManagerStateHash w' info intent ↔
        w.db.onlyPending info.owners address) := by
  unfold assignGoalManager at h
  replace h := (Routine.eval_bind_ok (eval_transaction rfl)).symm.trans h
  replace h := (Routine.eval_bind_ok (eval_transaction rfl)).symm.trans h
  replace h := (Routine.eval_bind_ok (eval_select _ _)).symm.trans h
  replace h := Routine.ok_of_eval_bind h
  obtain ⟨now, _, _, hnow, h⟩ := h
  obtain ⟨-, rfl⟩ := ok_of_eval_ask hnow
  replace h := (Routine.eval_bind_ok (eval_transaction rfl)).symm.trans h
  obtain ⟨intent, hmem, hchanges, hne, hhash, hchain, hsafe, hexpires, hresponse, hsame,
    hassignments⟩ := prepareGoalManagerChanges_ok h hservice
  refine ⟨intent, hmem, hresponse, (submittable_iff ?_ hchain hsafe hexpires).trans ?_⟩
  · rw [hhash]
    simp only [Database.desired, hsame, hassignments]
  simp only [Database.desired, hsame, hassignments]
  split_ifs at hchanges with hdiffers
  · exact absurd hchanges hne
  rw [hchanges, normalized_normalized, eq_comm]
  refine (normalized_eq_singleton nodup_desired hmanagers hdiffers).trans ?_
  refine forall_congr' fun other => imp_congr_right fun hother => ?_
  rw [← mem_desired_reconcileAssignments]
  exact iff_congr Iff.rfl (mem_desired_upsert hother)

/-- **The update of one address** prepares an intent that can be submitted exactly when no other
address waits for a change. -/
theorem updateGoalManager_submittable {response : GoalManagerResponse} {address : Address}
    {enabled : Bool} (hmanagers : w.db.chainManagers.Nodup)
    (hinfo : oracle w .runtimeInfo = .ok info)
    (h : Routine.eval oracle (updateGoalManager config goalManagerStateHash address enabled dto
      actor) () w = some ((.ok response, ()), w')) (hservice : response.isService) :
    ∃ intent ∈ w'.db.managerIntents,
      response = .service intent.id intent.changes info.address intent.safeNonce info.threshold ∧
      (Submittable config goalManagerStateHash w' info intent ↔
        w.db.onlyPending info.owners address) := by
  unfold updateGoalManager at h
  replace h := (Routine.eval_bind_ok (eval_ask_ok () hinfo)).symm.trans h
  replace h := Routine.ok_of_eval_bind h
  obtain ⟨_, _, _, hactor, h⟩ := h
  obtain ⟨-, rfl⟩ := Routine.ok_of_eval_attempt hactor
  split_ifs at h with hinvalid hmanual
  · simp at h
  · replace h := (Routine.eval_bind_ok (eval_select _ _)).symm.trans h
    split at h
    · exact assignGoalManager_submittable hmanagers h hservice
    · replace h := Routine.ok_of_eval_bind h
      obtain ⟨_, _, _, hallowed, h⟩ := h
      obtain ⟨-, rfl⟩ := Routine.ok_of_eval_attempt hallowed
      exact assignGoalManager_submittable hmanagers h hservice
  · exact assignGoalManager_submittable hmanagers h hservice

/-- **Prepared changes of the goal managers can be submitted.**  The intent of a synchronization
always can, while nothing changes; the intent of an update can exactly when no other address waits
for a change. -/
theorem manager_intents_submittable (config : Deployment)
    (goalManagerStateHash : List Address → Hash)
    (oracle : World → (q : Query) → Except Failure (Reply q)) (info : SafeRuntimeInfo)
    (actor : Address) (dto : PrepareSafeDelivery) (w w' : World) (response : GoalManagerResponse)
    (hmanagers : w.db.chainManagers.Nodup) (hinfo : oracle w .runtimeInfo = .ok info)
    (hservice : response.isService = true) :
    (Routine.eval oracle (prepareSafeGoalManagerSync config goalManagerStateHash actor dto) () w =
        some ((.ok response, ()), w') →
      ∃ intent ∈ w'.db.managerIntents,
        response = .service intent.id intent.changes info.address intent.safeNonce info.threshold ∧
        Submittable config goalManagerStateHash w' info intent) ∧
    ∀ address enabled,
      Routine.eval oracle (updateGoalManager config goalManagerStateHash address enabled dto actor)
        () w = some ((.ok response, ()), w') →
      ∃ intent ∈ w'.db.managerIntents,
        response = .service intent.id intent.changes info.address intent.safeNonce info.threshold ∧
        (Submittable config goalManagerStateHash w' info intent ↔
          w.db.onlyPending info.owners address) :=
  ⟨fun h => prepareSafeGoalManagerSync_submittable hinfo h hservice,
    fun _ _ h => updateGoalManager_submittable hmanagers hinfo h hservice⟩

/-- The Safe owns the escrow, and has the owners 1 and 2. -/
def pairSafe : SafeRuntimeInfo := ⟨14, [1, 2], 2, 14, true⟩

/-- The deployment of the Safe. -/
def pairDeployment : Deployment := ⟨1, 10, 11, 12, 13, 0, 2, [], 14, true⟩

/-- The answers while the owner 1 works with the administration. -/
def pairAnswers : World → (q : Query) → Except Failure (Reply q)
  | _, .now => .ok (1000 : Time)
  | _, .runtimeInfo => .ok pairSafe
  | _, .transactionServiceReady => .ok true
  | _, .nextNonce => .ok (3 : ℕ)
  | _, _ => .error .other

/-- Only the owner 1 is a goal manager so far. -/
def pairWorld : World := ⟨{ Database.empty with chainManagers := [1], nextId := 20 }⟩

/-- A preparation for the Safe's service. -/
def pairRequest : PrepareSafeDelivery := ⟨.service, false⟩

/-- The state after the synchronization. -/
def pairSynchronized : World :=
  ((Routine.eval pairAnswers (prepareSafeGoalManagerSync pairDeployment List.sum 1 pairRequest) ()
    pairWorld).map Prod.snd).getD pairWorld

/-- Both owners are goal managers. -/
def fullWorld : World := ⟨{ Database.empty with chainManagers := [1, 2], nextId := 20 }⟩

/-- The state after the address 7 was assigned by hand, with nobody else waiting for a change. -/
def fullUpdated : World :=
  ((Routine.eval pairAnswers (updateGoalManager pairDeployment List.sum 7 true pairRequest 1) ()
    fullWorld).map Prod.snd).getD fullWorld

/-- The synchronization of the second owner, and an update when nobody else waits. -/
theorem manager_intents_submittable_sample :
    (∃ intent ∈ pairSynchronized.db.managerIntents, intent.changes = [⟨2, true⟩] ∧
      Submittable pairDeployment List.sum pairSynchronized pairSafe intent) ∧
    ∃ intent ∈ fullUpdated.db.managerIntents, intent.changes = [⟨7, true⟩] ∧
      Submittable pairDeployment List.sum fullUpdated pairSafe intent := by
  have hsync := (manager_intents_submittable pairDeployment List.sum pairAnswers pairSafe 1
    pairRequest pairWorld pairSynchronized (.service 20 [⟨2, true⟩] 14 3 2) (by decide) rfl rfl).1
    rfl
  have hupdate := (manager_intents_submittable pairDeployment List.sum pairAnswers pairSafe 1
    pairRequest fullWorld fullUpdated (.service 20 [⟨7, true⟩] 14 3 2) (by decide) rfl rfl).2 7
    true rfl
  constructor
  · obtain ⟨intent, hmem, hresponse, hsubmittable⟩ := hsync
    refine ⟨intent, hmem, ?_, hsubmittable⟩
    simp only [GoalManagerResponse.service.injEq] at hresponse
    exact hresponse.2.1.symm
  · obtain ⟨intent, hmem, hresponse, hiff⟩ := hupdate
    have honly : fullWorld.db.onlyPending pairSafe.owners 7 := by
      intro other _
      simp [fullWorld, pairSafe, Database.wants, Database.empty]
    refine ⟨intent, hmem, ?_, hiff.2 honly⟩
    simp only [GoalManagerResponse.service.injEq] at hresponse
    exact hresponse.2.1.symm

/-- The state after the address 7 was assigned by hand. -/
def pairUpdated : World :=
  ((Routine.eval pairAnswers (updateGoalManager pairDeployment List.sum 7 true pairRequest 1) ()
    pairWorld).map Prod.snd).getD pairWorld

/-- The intent of that request. -/
def pairIntent : SafeGoalManagerIntent := ⟨20, 1, 14, 3, [⟨7, true⟩], 10, 1, 601000, none⟩

/-- The update prepares the address 7 alone, while the second owner still waits for its change: the
submission finds two changes and refuses, though nothing has changed. -/
theorem update_not_submittable :
    Routine.eval pairAnswers (updateGoalManager pairDeployment List.sum 7 true pairRequest 1) ()
        pairWorld = some ((.ok (.service 20 [⟨7, true⟩] 14 3 2), ()), pairUpdated) ∧
      pairUpdated.db.managerIntents = [pairIntent] ∧
      SameOutside (unchanged pairSafe pairIntent 0) pairUpdated pairSafe pairIntent ⟨1, 0, 0⟩ 1 ∧
      SameTables pairUpdated pairUpdated pairIntent ∧
      Routine.eval (unchanged pairSafe pairIntent 0)
          (submitSafeGoalManagerIntent pairDeployment List.sum 20 ⟨1, 0, 0⟩ 1) () pairUpdated =
        some ((.error (.badRequest
          "Confirmed goal manager state changed. Prepare a new synchronization."), ()),
          pairUpdated) :=
  ⟨rfl, rfl, ⟨rfl, rfl, ⟨0, rfl, by decide⟩, rfl, rfl, rfl⟩, ⟨rfl, rfl, rfl, rfl⟩, rfl⟩

end Admin

end PreCommunity
