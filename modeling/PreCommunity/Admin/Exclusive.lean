import PreCommunity.Admin.Writes

/-!
# One proposal at a time

A Safe executes its transactions one after another, so the administration wants at most one pending
proposal of a Safe.  Changes of the goal managers hold a unique key while they are pending.  For
lifecycle actions the index allows one intent that is not submitted, and whether a proposal is
pending is only read before the intent is inserted.

* `ActionsSound`, `ManagersSound` : invariants of the tables.
* `ActionsExclusive` : what holds as long as intents are inserted while nothing is pending.
* `ActionsSound.write`, `ActionsExclusive.write`, `ManagersSound.write` : every kind of write.
-/

namespace PreCommunity

namespace Admin

open Store Concurrent Escrow

/-- The Safe of an intent. -/
def SafeGoalActionIntent.key (intent : SafeGoalActionIntent) : ℕ × Address :=
  (intent.chainId, intent.safeAddress)

namespace Database

variable (db : Database)

/-- The number of pending lifecycle proposals of a Safe. -/
def pendingActions (chainId : ℕ) (safeAddress : Address) : ℕ :=
  db.actionProposals.countP fun row => row.status.pending ∧ db.isActionOf chainId safeAddress row

/-- The number of pending proposals of a Safe to change the goal managers. -/
def pendingManagers (chainId : ℕ) (safeAddress : Address) : ℕ :=
  db.managerProposals.countP fun row =>
    row.status.pending ∧ db.isManagerOf chainId safeAddress row

end Database

/-! ### Lifecycle actions -/

/-- What holds of the tables of lifecycle actions. -/
structure ActionsSound (db : Database) : Prop where
  intentIds : Keyed SafeGoalActionIntent.id db.actionIntents
  below : ∀ i ∈ db.actionIntents, i.id < db.nextId
  unsubmitted : ∀ i ∈ db.actionIntents, ∀ j ∈ db.actionIntents, i.consumedAt = none →
    j.consumedAt = none → i.key = j.key → i = j
  submitted : ∀ p ∈ db.actionProposals, ∃ i ∈ db.actionIntents,
    i.id = p.intentId ∧ i.consumedAt.isSome

/-- An intent that is not submitted has no pending proposal beside it. -/
structure ActionsExclusive (db : Database) : Prop where
  free : ∀ i ∈ db.actionIntents, i.consumedAt = none →
    db.pendingActions i.chainId i.safeAddress = 0
  one : ∀ chainId safeAddress, db.pendingActions chainId safeAddress ≤ 1

section Actions

variable {db db' : Database}

theorem ActionsSound.find (hdb : ActionsSound db) {i : SafeGoalActionIntent}
    (hi : i ∈ db.actionIntents) : db.actionIntent? i.id = some i :=
  hdb.intentIds.find?_eq hi

theorem isActionOf_iff {row : SafeProposal} {i : SafeGoalActionIntent}
    (hfind : db.actionIntent? row.intentId = some i) (chainId : ℕ) (safeAddress : Address) :
    db.isActionOf chainId safeAddress row = true ↔ i.key = (chainId, safeAddress) := by
  simp [Database.isActionOf, hfind, SafeGoalActionIntent.key]

/-- Whose proposal a row is depends on its intent only. -/
theorem isActionOf_congr {row row' : SafeProposal} {i i' : SafeGoalActionIntent}
    (hfind : db.actionIntent? row.intentId = some i)
    (hfind' : db'.actionIntent? row'.intentId = some i') (hkey : i'.key = i.key) (chainId : ℕ)
    (safeAddress : Address) :
    db'.isActionOf chainId safeAddress row' = db.isActionOf chainId safeAddress row := by
  rw [Bool.eq_iff_iff, isActionOf_iff hfind, isActionOf_iff hfind', hkey]

/-- The tables after the intents changed in place. -/
theorem pendingActions_of_intents (hdb : ActionsSound db) (hdb' : ActionsSound db')
    (hproposals : db'.actionProposals = db.actionProposals)
    (hintents : ∀ i ∈ db.actionIntents, ∃ i' ∈ db'.actionIntents, i'.id = i.id ∧ i'.key = i.key)
    (chainId : ℕ) (safeAddress : Address) :
    db'.pendingActions chainId safeAddress = db.pendingActions chainId safeAddress := by
  unfold Database.pendingActions
  rw [hproposals]
  refine List.countP_congr fun row hrow => ?_
  obtain ⟨i, hi, hid, -⟩ := hdb.submitted row hrow
  obtain ⟨i', hi', hid', hkey⟩ := hintents i hi
  have hfind : db.actionIntent? row.intentId = some i := hid ▸ hdb.find hi
  have hfind' : db'.actionIntent? row.intentId = some i' := (hid'.trans hid) ▸ hdb'.find hi'
  have hsame := isActionOf_congr hfind hfind' hkey chainId safeAddress
  simp [hsame]

/-- Proposals advance. -/
theorem pendingActions_advance (p : SafeProposal → Bool) {f : SafeProposal → SafeProposal}
    (hf : Advances p f) (chainId : ℕ) (safeAddress : Address) :
    (db.updateActionProposals p f).pendingActions chainId safeAddress ≤
      db.pendingActions chainId safeAddress := by
  unfold Database.pendingActions Database.updateActionProposals updateWhere
  rw [List.countP_map]
  refine List.countP_mono_left fun row _ hrow => ?_
  simp only [Function.comp, decide_eq_true_eq] at hrow ⊢
  by_cases hp : p row = true
  · rw [if_pos hp] at hrow
    refine ⟨hf.pending row hp hrow.1, ?_⟩
    have := hrow.2
    unfold Database.isActionOf at this ⊢
    rwa [hf.intentId] at this
  · rw [if_neg hp] at hrow
    exact hrow

theorem ActionsSound.elsewhere (hdb : ActionsSound db)
    (hintents : db'.actionIntents = db.actionIntents)
    (hproposals : db'.actionProposals = db.actionProposals) (hnextId : db.nextId ≤ db'.nextId) :
    ActionsSound db' where
  intentIds := hintents ▸ hdb.intentIds
  below := fun i hi => (hdb.below i (hintents ▸ hi)).trans_le hnextId
  unsubmitted := hintents ▸ hdb.unsubmitted
  submitted := by rw [hintents, hproposals]; exact hdb.submitted

/-- Intents are given up. -/
theorem ActionsSound.consume (hdb : ActionsSound db) (p : SafeGoalActionIntent → Bool)
    (now : Time) :
    ActionsSound (db.updateActionIntents p fun row => { row with consumedAt := some now }) where
  intentIds := hdb.intentIds.updateWhere fun _ => rfl
  below := fun i hi => by
    obtain ⟨hi, -⟩ | ⟨x, hx, -, rfl⟩ := mem_updateWhere_cases hi
    · exact hdb.below i hi
    · exact hdb.below x hx
  unsubmitted := fun i hi j hj hin hjn hkey => by
    obtain ⟨hi, -⟩ | ⟨x, hx, -, rfl⟩ := mem_updateWhere_cases hi
    · obtain ⟨hj, -⟩ | ⟨y, hy, -, rfl⟩ := mem_updateWhere_cases hj
      · exact hdb.unsubmitted i hi j hj hin hjn hkey
      · cases hjn
    · cases hin
  submitted := fun q hq => by
    obtain ⟨i, hi, hid, hconsumed⟩ := hdb.submitted q hq
    refine ⟨_, mem_updateWhere.2 ⟨i, hi, rfl⟩, ?_, ?_⟩ <;> split_ifs
    · exact hid
    · exact hid
    · rfl
    · exact hconsumed

theorem insertActionIntentTx_ok {config : Deployment} {goal : FundingGoal}
    {dto : PrepareGoalLifecycle} {actor : Address} {safeInfo : SafeRuntimeInfo} {safeNonce : ℕ}
    {data : Hash} {expiresAt : Time} {intent : SafeGoalActionIntent}
    (h : insertActionIntentTx config goal dto actor safeInfo safeNonce data expiresAt db =
      .ok (db', intent)) :
    db' = { db with actionIntents := db.actionIntents ++ [intent], nextId := db.nextId + 1 } ∧
      intent.id = db.nextId ∧ intent.consumedAt = none ∧
      ∀ i ∈ db.actionIntents, i.consumedAt = none → i.key ≠ intent.key := by
  unfold insertActionIntentTx at h
  simp only at h
  split_ifs at h with hgoal htaken
  obtain ⟨rfl, rfl⟩ := Prod.mk.inj (Except.ok.inj h)
  refine ⟨rfl, rfl, rfl, fun i hi hnone hkey => htaken (List.any_eq_true.2 ⟨i, hi, ?_⟩)⟩
  obtain ⟨hchain, hsafe⟩ := Prod.mk.inj hkey
  simp [isUnsubmitted, hchain, hsafe, hnone]

theorem claimActionTx_ok {intent : SafeGoalActionIntent} {safeTxHash : Hash} {actor : Address}
    {threshold : ℕ} {consumedAt : Time} {proposal : SafeProposal}
    (h : claimActionTx intent safeTxHash actor threshold consumedAt db = .ok (db', proposal)) :
    ∃ p : SafeGoalActionIntent → Bool, (∀ row, p row = true → row.id = intent.id ∧
        row.consumedAt = none) ∧ (∃ i ∈ db.actionIntents, p i = true) ∧
      proposal.intentId = intent.id ∧ proposal.status = .submitting ∧
      db' = { db.updateActionIntents p fun row => { row with consumedAt := some consumedAt } with
        actionProposals := db.actionProposals ++ [proposal]
        nextId := db.nextId + 1 } := by
  unfold claimActionTx at h
  simp only at h
  split_ifs at h with hclaim htaken
  obtain ⟨rfl, rfl⟩ := Prod.mk.inj (Except.ok.inj h)
  refine ⟨_, fun row hrow => ?_, ?_, rfl, rfl, rfl⟩
  · have := by simpa using hrow
    exact ⟨this.1, this.2.1⟩
  · simpa only [Bool.not_eq_true, Bool.not_eq_false, Bool.not_eq_eq_eq_not, Bool.not_true,
      List.any_eq_true] using hclaim

theorem ActionsSound.insert (hdb : ActionsSound db) {intent : SafeGoalActionIntent}
    (hid : intent.id = db.nextId)
    (hfree : ∀ i ∈ db.actionIntents, i.consumedAt = none → i.key ≠ intent.key) :
    ActionsSound { db with
      actionIntents := db.actionIntents ++ [intent], nextId := db.nextId + 1 } where
  intentIds := hdb.intentIds.append_one fun i hi heq => (hdb.below i hi).ne (heq.trans hid)
  below := fun i hi => by
    obtain hi | hi := List.mem_append.1 hi
    · exact (hdb.below i hi).trans (Nat.lt_succ_self _)
    · obtain rfl := List.mem_singleton.1 hi
      exact hid ▸ Nat.lt_succ_self _
  unsubmitted := fun i hi j hj hin hjn hkey => by
    obtain hi' | hi' := List.mem_append.1 hi <;> obtain hj' | hj' := List.mem_append.1 hj
    · exact hdb.unsubmitted i hi' j hj' hin hjn hkey
    · obtain rfl := List.mem_singleton.1 hj'
      exact absurd hkey (hfree i hi' hin)
    · obtain rfl := List.mem_singleton.1 hi'
      exact absurd hkey.symm (hfree j hj' hjn)
    · rw [List.mem_singleton.1 hi', List.mem_singleton.1 hj']
  submitted := fun q hq => by
    obtain ⟨i, hi, hpair⟩ := hdb.submitted q hq
    exact ⟨i, List.mem_append_left _ hi, hpair⟩

theorem ActionsSound.claim (hdb : ActionsSound db) {p : SafeGoalActionIntent → Bool} {now : Time}
    {proposal : SafeProposal} {i : SafeGoalActionIntent} (hi : i ∈ db.actionIntents)
    (hp : p i = true) (hid : i.id = proposal.intentId) :
    ActionsSound { db.updateActionIntents p fun row => { row with consumedAt := some now } with
      actionProposals := db.actionProposals ++ [proposal]
      nextId := db.nextId + 1 } := by
  have hconsumed := hdb.consume p now
  refine ⟨hconsumed.intentIds, fun j hj => (hconsumed.below j hj).trans (Nat.lt_succ_self _),
    hconsumed.unsubmitted, fun q hq => ?_⟩
  obtain hq | hq := List.mem_append.1 hq
  · exact hconsumed.submitted q hq
  · obtain rfl := List.mem_singleton.1 hq
    exact ⟨_, mem_updateWhere_of hi hp, hid, rfl⟩

theorem ActionsSound.advance (hdb : ActionsSound db) (p : SafeProposal → Bool)
    {f : SafeProposal → SafeProposal} (hf : Advances p f) :
    ActionsSound (db.updateActionProposals p f) where
  intentIds := hdb.intentIds
  below := hdb.below
  unsubmitted := hdb.unsubmitted
  submitted := fun q hq => by
    obtain ⟨hq, -⟩ | ⟨x, hx, -, rfl⟩ := mem_updateWhere_cases hq
    · exact hdb.submitted q hq
    · obtain ⟨i, hi, hid, hconsumed⟩ := hdb.submitted x hx
      exact ⟨i, hi, hid.trans (hf.intentId x).symm, hconsumed⟩

/-- **Every write** keeps the tables of lifecycle actions sound. -/
theorem ActionsSound.write {config : Deployment} (hdb : ActionsSound db)
    (hwrite : ActionWrite config db db') : ActionsSound db' := by
  cases hwrite with
  | elsewhere hintents hproposals hnextId => exact hdb.elsewhere hintents hproposals hnextId
  | consume p now => exact hdb.consume p now
  | insert h =>
    obtain ⟨rfl, hid, -, hfree⟩ := insertActionIntentTx_ok h
    exact hdb.insert hid hfree
  | claim h =>
    obtain ⟨p, hp, ⟨i, hi, hpi⟩, hintent, -, rfl⟩ := claimActionTx_ok h
    exact hdb.claim hi hpi ((hp i hpi).1.trans hintent.symm)
  | advance hf => exact hdb.advance _ hf

/-- **Every write** keeps lifecycle actions exclusive, if an intent is only inserted while no
proposal of its Safe is pending. -/
theorem ActionsExclusive.write {config : Deployment} (hdb : ActionsSound db)
    (hexclusive : ActionsExclusive db) (hwrite : ActionWrite config db db')
    (hinsert : ∀ i ∈ db'.actionIntents, (∀ j ∈ db.actionIntents, j.id ≠ i.id) →
      db.pendingActions i.chainId i.safeAddress = 0) : ActionsExclusive db' := by
  have hdb' := hdb.write hwrite
  cases hwrite with
  | elsewhere hintents hproposals hnextId =>
    have hsame := pendingActions_of_intents hdb hdb' hproposals fun i hi =>
      ⟨i, hintents ▸ hi, rfl, rfl⟩
    exact ⟨fun i hi hnone => by rw [hsame]; exact hexclusive.free i (hintents ▸ hi) hnone,
      fun _ _ => by rw [hsame]; exact hexclusive.one _ _⟩
  | consume p now =>
    have hsame := pendingActions_of_intents hdb hdb' rfl fun i hi =>
      ⟨_, mem_updateWhere.2 ⟨i, hi, rfl⟩, by split_ifs <;> rfl, by split_ifs <;> rfl⟩
    refine ⟨fun i hi hnone => ?_, fun _ _ => by rw [hsame]; exact hexclusive.one _ _⟩
    rw [hsame]
    obtain ⟨hi, -⟩ | ⟨x, -, -, rfl⟩ := mem_updateWhere_cases hi
    · exact hexclusive.free i hi hnone
    · cases hnone
  | insert h =>
    obtain ⟨rfl, hid, -, hfree⟩ := insertActionIntentTx_ok h
    have hsame := pendingActions_of_intents hdb hdb' rfl fun i hi =>
      ⟨i, List.mem_append_left _ hi, rfl, rfl⟩
    refine ⟨fun i hi hnone => ?_, fun _ _ => by rw [hsame]; exact hexclusive.one _ _⟩
    rw [hsame]
    obtain hi' | hi' := List.mem_append.1 hi
    · exact hexclusive.free i hi' hnone
    · obtain rfl := List.mem_singleton.1 hi'
      exact hinsert i hi fun j hj heq => (hdb.below j hj).ne (heq.trans hid)
  | claim h =>
    obtain ⟨p, hp, ⟨i, hi, hpi⟩, hintent, hstatus, rfl⟩ := claimActionTx_ok h
    rename_i consumedAt proposal
    have hid : i.id = proposal.intentId := (hp i hpi).1.trans hintent.symm
    have hconsumed := hdb.consume p consumedAt
    -- the new proposal is the only one that is added
    have hcount : ∀ chainId safeAddress, Database.pendingActions
        { db.updateActionIntents p fun row => { row with consumedAt := some consumedAt } with
          actionProposals := db.actionProposals ++ [proposal]
          nextId := db.nextId + 1 } chainId safeAddress =
        db.pendingActions chainId safeAddress +
          if i.key = (chainId, safeAddress) then 1 else 0 := fun chainId safeAddress => by
      have hold := pendingActions_of_intents hdb hconsumed rfl (fun i hi =>
        ⟨_, mem_updateWhere.2 ⟨i, hi, rfl⟩, by split_ifs <;> rfl, by split_ifs <;> rfl⟩)
        chainId safeAddress
      have hfind : Database.actionIntent? (db.updateActionIntents p fun row =>
          { row with consumedAt := some consumedAt }) proposal.intentId =
            some { i with consumedAt := some consumedAt } :=
        hid ▸ hconsumed.find (mem_updateWhere_of hi hpi)
      have hnew := isActionOf_iff hfind chainId safeAddress
      have hsplit : Database.pendingActions
          { db.updateActionIntents p fun row => { row with consumedAt := some consumedAt } with
            actionProposals := db.actionProposals ++ [proposal]
            nextId := db.nextId + 1 } chainId safeAddress =
          (db.updateActionIntents p fun row =>
            { row with consumedAt := some consumedAt }).pendingActions chainId safeAddress +
            [proposal].countP fun row => row.status.pending ∧ (db.updateActionIntents p fun row =>
              { row with consumedAt := some consumedAt }).isActionOf chainId safeAddress row :=
        List.countP_append
      rw [hsplit, hold, List.countP_singleton]
      congr 1
      refine if_congr ?_ rfl rfl
      simp only [hstatus, SafeProposalStatus.pending, true_and, decide_eq_true_eq]
      exact hnew
    have hnone : db.pendingActions i.chainId i.safeAddress = 0 :=
      hexclusive.free i hi (hp i hpi).2
    refine ⟨fun j hj hjn => ?_, fun chainId safeAddress => ?_⟩
    · rw [hcount]
      obtain ⟨hj, hpj⟩ | ⟨x, -, -, rfl⟩ := mem_updateWhere_cases hj
      · rw [hexclusive.free j hj hjn, if_neg]
        rintro hkey
        have hsame := hdb.unsubmitted i hi j hj (hp i hpi).2 hjn hkey
        rw [← hsame, hpi] at hpj
        cases hpj
      · cases hjn
    · rw [hcount]
      split_ifs with hkey
      · obtain ⟨rfl, rfl⟩ := Prod.mk.inj hkey
        omega
      · have := hexclusive.one chainId safeAddress
        omega
  | @advance p f hf =>
    refine ⟨fun i hi hnone => ?_, fun chainId safeAddress => ?_⟩
    · exact Nat.le_zero.1 ((pendingActions_advance p hf i.chainId i.safeAddress).trans
        (hexclusive.free i hi hnone).le)
    · exact (pendingActions_advance _ hf _ _).trans (hexclusive.one _ _)

end Actions

/-! ### Goal managers -/

/-- The proposal belongs to an intent that was submitted, and it holds the key of its Safe just
while it is pending. -/
def HoldsKey (db : Database) (row : SafeGoalManagerProposal) : Prop :=
  ∃ i ∈ db.managerIntents, i.id = row.intentId ∧
    row.activeKey = if row.status.pending then some i.key else none

/-- What holds of the tables of the goal managers. -/
structure ManagersSound (db : Database) : Prop where
  intentIds : Keyed SafeGoalManagerIntent.id db.managerIntents
  intentBelow : ∀ i ∈ db.managerIntents, i.id < db.nextId
  proposalIds : Keyed (·.id) db.managerProposals
  proposalBelow : ∀ p ∈ db.managerProposals, p.id < db.nextId
  keyed : ∀ p ∈ db.managerProposals, HoldsKey db p
  keys : ∀ p ∈ db.managerProposals, ∀ q ∈ db.managerProposals, p.activeKey.isSome →
    p.activeKey = q.activeKey → p = q

section Managers

variable {db db' : Database}

theorem HoldsKey.mono {row : SafeGoalManagerProposal} (h : HoldsKey db row)
    (hintents : ∀ i ∈ db.managerIntents, ∃ i' ∈ db'.managerIntents, i'.id = i.id ∧ i'.key = i.key) :
    HoldsKey db' row := by
  obtain ⟨i, hi, hid, hkey⟩ := h
  obtain ⟨i', hi', hid', hkey'⟩ := hintents i hi
  exact ⟨i', hi', hid'.trans hid, by rw [hkey, hkey']⟩

theorem claimManagerTx_ok {intent : SafeGoalManagerIntent} {safeTxHash : Hash}
    {actor : Address} {threshold : ℕ} {claimedAt : Time} {proposal : SafeGoalManagerProposal}
    (h : claimManagerTx intent safeTxHash actor threshold claimedAt db = .ok (db', proposal)) :
    proposal.id = db.nextId ∧ proposal.intentId = intent.id ∧ proposal.status = .submitting ∧
      proposal.activeKey = some intent.key ∧
      (∀ row ∈ db.managerProposals, row.activeKey ≠ some intent.key) ∧
      db' = { db with
        managerIntents := updateWhere (isClaimable intent.id claimedAt db)
          (fun row => { row with consumedAt := some claimedAt }) db.managerIntents
        managerProposals := db.managerProposals ++ [proposal]
        nextId := db.nextId + 1 } := by
  unfold claimManagerTx at h
  simp only at h
  split_ifs at h with hclaim htaken
  obtain ⟨rfl, rfl⟩ := Prod.mk.inj (Except.ok.inj h)
  refine ⟨rfl, rfl, rfl, rfl, fun row hrow hkey => htaken ?_, rfl⟩
  exact List.any_eq_true.2 ⟨row, hrow, by simp [hkey]⟩

theorem ManagersSound.elsewhere (hdb : ManagersSound db)
    (hintents : db'.managerIntents = db.managerIntents)
    (hproposals : db'.managerProposals = db.managerProposals) (hnextId : db.nextId ≤ db'.nextId) :
    ManagersSound db' where
  intentIds := hintents ▸ hdb.intentIds
  intentBelow := fun i hi => (hdb.intentBelow i (hintents ▸ hi)).trans_le hnextId
  proposalIds := hproposals ▸ hdb.proposalIds
  proposalBelow := fun p hp => (hdb.proposalBelow p (hproposals ▸ hp)).trans_le hnextId
  keyed := fun p hp => (hdb.keyed p (hproposals ▸ hp)).mono fun i hi =>
    ⟨i, hintents ▸ hi, rfl, rfl⟩
  keys := hproposals ▸ hdb.keys

theorem ManagersSound.insert (hdb : ManagersSound db) {intent : SafeGoalManagerIntent}
    (hid : intent.id = db.nextId) : ManagersSound { db with
      managerIntents := db.managerIntents ++ [intent], nextId := db.nextId + 1 } where
  intentIds := hdb.intentIds.append_one fun i hi heq =>
    (hdb.intentBelow i hi).ne (heq.trans hid)
  intentBelow := fun i hi => by
    obtain hi | hi := List.mem_append.1 hi
    · exact (hdb.intentBelow i hi).trans (Nat.lt_succ_self _)
    · obtain rfl := List.mem_singleton.1 hi
      exact hid ▸ Nat.lt_succ_self _
  proposalIds := hdb.proposalIds
  proposalBelow := fun p hp => (hdb.proposalBelow p hp).trans (Nat.lt_succ_self _)
  keyed := fun p hp => (hdb.keyed p hp).mono fun i hi => ⟨i, List.mem_append_left _ hi, rfl, rfl⟩
  keys := hdb.keys

/-- A new proposal takes a key that nobody holds. -/
theorem ManagersSound.claim (hdb : ManagersSound db) {intent : SafeGoalManagerIntent}
    (hintent : db.HasManagerIntent intent) {p : SafeGoalManagerIntent → Bool} {now : Time}
    {proposal : SafeGoalManagerProposal} (hid : proposal.id = db.nextId)
    (hintentId : proposal.intentId = intent.id) (hstatus : proposal.status = .submitting)
    (hkey : proposal.activeKey = some intent.key)
    (hfree : ∀ row ∈ db.managerProposals, row.activeKey ≠ some intent.key) :
    ManagersSound { db with
      managerIntents := updateWhere p (fun row => { row with consumedAt := some now })
        db.managerIntents
      managerProposals := db.managerProposals ++ [proposal]
      nextId := db.nextId + 1 } := by
  have hintents : ∀ i ∈ db.managerIntents,
      ∃ i' ∈ updateWhere p (fun row => { row with consumedAt := some now }) db.managerIntents,
        i'.id = i.id ∧ i'.key = i.key := fun i hi =>
    ⟨_, mem_updateWhere.2 ⟨i, hi, rfl⟩, by split_ifs <;> rfl, by split_ifs <;> rfl⟩
  refine
    { intentIds := hdb.intentIds.updateWhere fun _ => rfl
      intentBelow := fun i hi => ?_
      proposalIds := hdb.proposalIds.append_one fun q hq heq =>
        (hdb.proposalBelow q hq).ne (heq.trans hid)
      proposalBelow := fun q hq => ?_
      keyed := fun q hq => ?_
      keys := fun q hq r hr hsome hsame => ?_ }
  · obtain ⟨hi, -⟩ | ⟨x, hx, -, rfl⟩ := mem_updateWhere_cases hi
    · exact (hdb.intentBelow i hi).trans (Nat.lt_succ_self _)
    · exact (hdb.intentBelow x hx).trans (Nat.lt_succ_self _)
  · obtain hq | hq := List.mem_append.1 hq
    · exact (hdb.proposalBelow q hq).trans (Nat.lt_succ_self _)
    · obtain rfl := List.mem_singleton.1 hq
      exact hid ▸ Nat.lt_succ_self _
  · obtain hq | hq := List.mem_append.1 hq
    · exact (hdb.keyed q hq).mono hintents
    · obtain rfl := List.mem_singleton.1 hq
      obtain ⟨i, hi, hiid, hikey⟩ := hintent
      refine HoldsKey.mono ⟨i, hi, hiid.trans hintentId.symm, ?_⟩ hintents
      rw [hkey, hstatus, hikey]
      rfl
  · obtain hq' | hq' := List.mem_append.1 hq <;> obtain hr' | hr' := List.mem_append.1 hr
    · exact hdb.keys q hq' r hr' hsome hsame
    · obtain rfl := List.mem_singleton.1 hr'
      exact absurd (hsame.trans hkey) (hfree q hq')
    · obtain rfl := List.mem_singleton.1 hq'
      exact absurd (hsame.symm.trans hkey) (hfree r hr')
    · rw [List.mem_singleton.1 hq', List.mem_singleton.1 hr']

theorem ManagersSound.update (hdb : ManagersSound db) {p : SafeGoalManagerProposal → Bool}
    {f : SafeGoalManagerProposal → SafeGoalManagerProposal} (hf : KeepsKey p f) :
    ManagersSound (db.updateManagerProposals p f) := by
  have hkeyed : ∀ x ∈ db.managerProposals, p x = true → HoldsKey db (f x) ∧
      ((f x).activeKey = none ∨ (f x).activeKey = x.activeKey) := fun x hx hp => by
    obtain ⟨i, hi, hid, hkey⟩ := hdb.keyed x hx
    cases hpending : (f x).status.pending with
    | true =>
      obtain ⟨hold, hsame⟩ := hf.pending x hp hpending
      refine ⟨⟨i, hi, hid.trans (hf.intentId x).symm, ?_⟩, .inr hsame⟩
      rw [hsame, hkey, hold, hpending]
    | false =>
      refine ⟨⟨i, hi, hid.trans (hf.intentId x).symm, ?_⟩, ?_⟩
      · obtain hnone | ⟨hold, hsame⟩ := hf.ended x hp hpending
        · rw [hnone, hpending]
          rfl
        · rw [hsame, hkey, hold, hpending]
      · exact (hf.ended x hp hpending).imp_right And.right
  -- a row that holds a key held it before
  have hback : ∀ q ∈ (db.updateManagerProposals p f).managerProposals, q.activeKey.isSome →
      ∃ x ∈ db.managerProposals, x.activeKey = q.activeKey ∧
        q = if p x = true then f x else x := fun q hq hsome => by
    obtain ⟨x, hx, rfl⟩ := mem_updateWhere.1 hq
    refine ⟨x, hx, ?_, rfl⟩
    by_cases hp : p x = true
    · rw [if_pos hp] at hsome ⊢
      obtain hnone | hsame := (hkeyed x hx hp).2
      · rw [hnone] at hsome
        cases hsome
      · exact hsame.symm
    · rw [if_neg hp]
  refine
    { intentIds := hdb.intentIds
      intentBelow := hdb.intentBelow
      proposalIds := hdb.proposalIds.updateWhere fun _ => hf.id _
      proposalBelow := fun q hq => ?_
      keyed := fun q hq => ?_
      keys := fun q hq r hr hsome hsame => ?_ }
  · obtain ⟨hq, -⟩ | ⟨x, hx, -, rfl⟩ := mem_updateWhere_cases hq
    · exact hdb.proposalBelow q hq
    · exact hf.id x ▸ hdb.proposalBelow x hx
  · obtain ⟨hq, -⟩ | ⟨x, hx, hp, rfl⟩ := mem_updateWhere_cases hq
    · exact hdb.keyed q hq
    · exact (hkeyed x hx hp).1
  · obtain ⟨x, hx, hxkey, hqx⟩ := hback q hq hsome
    obtain ⟨y, hy, hykey, hry⟩ := hback r hr (hsame ▸ hsome)
    have hxy : x = y := hdb.keys x hx y hy (hxkey ▸ hsome) (hxkey.trans (hsame.trans hykey.symm))
    rw [hqx, hry, hxy]

/-- **Every write** keeps the tables of the goal managers sound. -/
theorem ManagersSound.write {config : Deployment} (hdb : ManagersSound db)
    (hwrite : ManagerWrite config db db') : ManagersSound db' := by
  cases hwrite with
  | elsewhere hintents hproposals hnextId => exact hdb.elsewhere hintents hproposals hnextId
  | insert h =>
    obtain ⟨rfl, rfl⟩ := Prod.mk.inj (Except.ok.inj h)
    exact hdb.insert rfl
  | claim hintent h =>
    obtain ⟨hid, hintentId, hstatus, hkey, hfree, rfl⟩ := claimManagerTx_ok h
    exact hdb.claim hintent hid hintentId hstatus hkey hfree
  | update hf => exact hdb.update hf

/-- A row is pending for a Safe just when it holds the key of the Safe. -/
theorem ManagersSound.holds_iff (hdb : ManagersSound db) {p : SafeGoalManagerProposal}
    (hp : p ∈ db.managerProposals) (chainId : ℕ) (safeAddress : Address) :
    p.activeKey = some (chainId, safeAddress) ↔
      p.status.pending = true ∧ db.isManagerOf chainId safeAddress p = true := by
  obtain ⟨i, hi, hid, hkey⟩ := hdb.keyed p hp
  have hfind : db.managerIntent? p.intentId = some i := hid ▸ hdb.intentIds.find?_eq hi
  rw [hkey]
  cases hpending : p.status.pending <;>
    simp [Database.isManagerOf, hfind, SafeGoalManagerIntent.key]

/-- At most one proposal of a Safe is pending. -/
theorem ManagersSound.one (hdb : ManagersSound db) (chainId : ℕ) (safeAddress : Address) :
    db.pendingManagers chainId safeAddress ≤ 1 := by
  refine hdb.proposalIds.countP_le_one fun p hp q hq hpending hpending' => ?_
  have hpkey := (hdb.holds_iff hp chainId safeAddress).2 (by simpa using hpending)
  have hqkey := (hdb.holds_iff hq chainId safeAddress).2 (by simpa using hpending')
  exact hdb.keys p hp q hq (by simp [hpkey]) (hpkey.trans hqkey.symm)

/-- While no proposal of its Safe is pending, an intent can be submitted with every hash that is
not in the table. -/
theorem ManagersSound.claim_iff (hdb : ManagersSound db) {intent : SafeGoalManagerIntent}
    (hintent : intent ∈ db.managerIntents) {now : Time}
    (hclaimable : isClaimable intent.id now db intent = true)
    (hnone : db.pendingManagers intent.chainId intent.safeAddress = 0) (safeTxHash : Hash)
    (actor : Address) (threshold : ℕ) :
    (∃ r, claimManagerTx intent safeTxHash actor threshold now db = .ok r) ↔
      ∀ p ∈ db.managerProposals, p.safeTxHash ≠ safeTxHash := by
  have hclaim : db.managerIntents.any (isClaimable intent.id now db) = true :=
    List.any_eq_true.2 ⟨intent, hintent, hclaimable⟩
  have hfree : ∀ p ∈ db.managerProposals, p.activeKey ≠ some intent.key := fun p hp hkey =>
    List.countP_eq_zero.1 hnone p hp (by simpa using (hdb.holds_iff hp _ _).1 hkey)
  unfold claimManagerTx
  simp only [hclaim, Bool.not_true, Bool.false_eq_true, if_false]
  by_cases htaken : keyTaken intent safeTxHash db = true
  · obtain ⟨p, hp, hboth⟩ := List.any_eq_true.1 htaken
    have hhash : p.safeTxHash = safeTxHash := (of_decide_eq_true hboth).resolve_left (hfree p hp)
    rw [if_pos htaken]
    exact ⟨by rintro ⟨r, ⟨⟩⟩, fun h => absurd hhash (h p hp)⟩
  · rw [if_neg htaken]
    refine ⟨fun _ p hp hhash => htaken ?_, fun _ => ⟨_, rfl⟩⟩
    exact List.any_eq_true.2 ⟨p, hp, by simp [hhash]⟩

/-- Intents stay in the table, for the same Safe. -/
theorem ManagerWrite.keeps {config : Deployment} (hwrite : ManagerWrite config db db')
    {intent : SafeGoalManagerIntent} (hintent : db.HasManagerIntent intent) :
    db'.HasManagerIntent intent := by
  obtain ⟨i, hi, hid, hkey⟩ := hintent
  cases hwrite with
  | elsewhere hintents _ _ => exact ⟨i, hintents ▸ hi, hid, hkey⟩
  | insert h =>
    obtain ⟨rfl, rfl⟩ := Prod.mk.inj (Except.ok.inj h)
    exact ⟨i, List.mem_append_left _ hi, hid, hkey⟩
  | claim _ h =>
    obtain ⟨-, -, -, -, -, rfl⟩ := claimManagerTx_ok h
    refine ⟨_, mem_updateWhere.2 ⟨i, hi, rfl⟩, ?_, ?_⟩ <;> split_ifs <;>
      first | exact hid | exact hkey
  | update _ => exact ⟨i, hi, hid, hkey⟩

end Managers

end Admin

end PreCommunity
