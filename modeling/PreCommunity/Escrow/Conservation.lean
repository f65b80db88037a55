import PreCommunity.Escrow.Rows

/-!
# Payouts and releases

An executed payout stands for one release of the contract, and a release for one executed payout,
whatever the requests, the synchronisation and the resets do in between.

* `Release` : what a release and its payout have in common.
* `Database.releases` : the releases of the projected events.
* `Conserved` : the executed payouts are these releases, one for one.
* `AfterCreation` : the contract emits no release of a goal that it has not created.
* `projectedSince` : the events that were projected since the last reset.
* `payouts_conserved` : the invariant of every run.
-/

namespace PreCommunity

namespace Escrow

open Store Concurrent

/-! ### Releases -/

/-- What a release and its payout have in common. -/
structure Release where
  goalId : Id
  kind : PayoutKind
  asset : FundingAsset
  amountRaw : ℕ
  txHash : Option Hash
deriving DecidableEq, Repr

/-- The release that an executed payout stands for. -/
def Payout.release (row : Payout) : Release :=
  ⟨row.goalId, row.kind, row.asset, row.amountRaw, row.chainTxHash⟩

/-- The payout has been made. -/
def Payout.isExecuted (row : Payout) : Bool := row.status = .executed

namespace Database

variable (config : Deployment) (db : Database)

/-- The releases of the executed payouts. -/
def executedReleases : List Release := view (·.isExecuted) (·.release) db.payouts

/-- The release that an event reports. -/
def release? (row : ChainEvent) : Option Release :=
  row.event.release?.bind fun (goalId, kind, token, amount) =>
    (db.goal? config.chainId goalId).bind fun goal =>
      (assetFor config token).toOption.map fun asset =>
        ⟨goal.id, kind, asset, amount, some row.txHash⟩

/-- The releases of the projected events. -/
def releases : List Release := db.events.filterMap (db.release? config)

/-- The goal of the contract has been projected. -/
def IsCreated (goalId : Hash) : Prop :=
  ∃ goal, db.goal? config.chainId goalId = some goal ∧ goal.creationTxHash.isSome = true

end Database

/-- **Conservation**: the executed payouts are the releases of the projected events, one for one.
The other facts say that no event is lost and no goal is missing. -/
structure Conserved (config : Deployment) (db : Database) : Prop where
  matched : db.executedReleases.Perm (db.releases config)
  reported : ∀ row ∈ db.events, row.event.isRelease = true → (db.release? config row).isSome = true
  created : ∀ row ∈ db.events, ∀ goalId, row.event.goalId? = some goalId →
    row.event.isCreated = true ∨ row.event.isRelease = true → db.IsCreated config goalId

/-- What the chain says of the goals is left alone. -/
structure Untouched (db db' : Database) : Prop where
  goals : db'.goals = db.goals
  periods : db'.periods = db.periods
  contributions : db'.contributions = db.contributions
  events : db'.events = db.events

/-- Goals that are found before are found again. -/
def KeepsGoals (config : Deployment) (db db' : Database) : Prop :=
  ∀ goalId goal, db.goal? config.chainId goalId = some goal →
    ∃ goal', db'.goal? config.chainId goalId = some goal' ∧ goal'.id = goal.id ∧
      (goal.creationTxHash.isSome = true → goal'.creationTxHash.isSome = true)

section

variable {config : Deployment} {ext : External} {db db' : Database}

theorem keepsGoals_of_eq (h : db'.goals = db.goals) : KeepsGoals config db db' := by
  intro goalId goal hgoal
  refine ⟨goal, ?_, rfl, fun hcreated => hcreated⟩
  rw [Database.goal?, h]
  exact hgoal

theorem KeepsGoals.isCreated (h : KeepsGoals config db db') {goalId : Hash}
    (hcreated : db.IsCreated config goalId) : db'.IsCreated config goalId := by
  obtain ⟨goal, hgoal, hsome⟩ := hcreated
  obtain ⟨goal', hgoal', -, hkept⟩ := h goalId goal hgoal
  exact ⟨goal', hgoal', hkept hsome⟩

theorem release?_eq_none {row : ChainEvent} (h : row.event.isRelease = false) :
    db.release? config row = none := by
  rw [EscrowEvent.isRelease_eq, Option.isSome_eq_false_iff, Option.isNone_iff_eq_none] at h
  rw [Database.release?, h]
  rfl

/-- A reported release is reported again while its goal is found. -/
theorem KeepsGoals.release?_eq (h : KeepsGoals config db db') {row : ChainEvent} {r : Release}
    (hr : db.release? config row = some r) : db'.release? config row = some r := by
  unfold Database.release? at hr ⊢
  obtain ⟨⟨goalId, kind, token, amount⟩, hrelease, hr⟩ := Option.bind_eq_some_iff.1 hr
  obtain ⟨goal, hgoal, hr⟩ := Option.bind_eq_some_iff.1 hr
  obtain ⟨goal', hgoal', hid, -⟩ := h goalId goal hgoal
  simp only [hrelease, hgoal', hid, Option.bind_some]
  exact hr

theorem Conserved.releases_eq (h : Conserved config db) (hgoals : KeepsGoals config db db') :
    db.events.filterMap (db'.release? config) = db.releases config := by
  refine List.filterMap_congr fun row hrow => ?_
  by_cases hrelease : row.event.isRelease = true
  · obtain ⟨r, hr⟩ := Option.isSome_iff_exists.1 (h.reported row hrow hrelease)
    rw [hr, hgoals.release?_eq hr]
  · rw [release?_eq_none (Bool.eq_false_of_not_eq_true hrelease),
      release?_eq_none (Bool.eq_false_of_not_eq_true hrelease)]

/-- A transaction that projects nothing. -/
theorem Conserved.of_quiet (h : Conserved config db) (hgoals : KeepsGoals config db db')
    (hevents : db'.events = db.events)
    (hexecuted : db'.executedReleases.Perm db.executedReleases) : Conserved config db' where
  matched := by
    rw [Database.releases, hevents, h.releases_eq hgoals]
    exact hexecuted.trans h.matched
  reported row hrow hrelease := by
    rw [hevents] at hrow
    obtain ⟨r, hr⟩ := Option.isSome_iff_exists.1 (h.reported row hrow hrelease)
    rw [hgoals.release?_eq hr]
    rfl
  created row hrow goalId hid hkind :=
    hgoals.isCreated (h.created row (hevents ▸ hrow) goalId hid hkind)

/-- **A transaction that projects an event**: what it reports is executed. -/
theorem Conserved.of_event (h : Conserved config db) (hgoals : KeepsGoals config db db')
    {row : ChainEvent} (hevents : db'.events = db.events ++ [row])
    (hexecuted : db'.executedReleases.Perm
      ((db'.release? config row).toList ++ db.executedReleases))
    (hreported : row.event.isRelease = true → (db'.release? config row).isSome = true)
    (hcreated : ∀ goalId, row.event.goalId? = some goalId →
      row.event.isCreated = true ∨ row.event.isRelease = true → db'.IsCreated config goalId) :
    Conserved config db' where
  matched := by
    have hreleases : db'.releases config =
        db.releases config ++ (db'.release? config row).toList := by
      have hone : [row].filterMap (db'.release? config) = (db'.release? config row).toList := by
        cases hr : db'.release? config row <;> simp [hr]
      rw [Database.releases, hevents, List.filterMap_append, h.releases_eq hgoals, hone]
    rw [hreleases]
    exact hexecuted.trans ((h.matched.append_left _).trans List.perm_append_comm)
  reported other hother hrelease := by
    rw [hevents] at hother
    rcases List.mem_append.1 hother with hold | hnew
    · obtain ⟨r, hr⟩ := Option.isSome_iff_exists.1 (h.reported other hold hrelease)
      rw [hgoals.release?_eq hr]
      rfl
    · rw [List.mem_singleton.1 hnew] at hrelease ⊢
      exact hreported hrelease
  created other hother goalId hid hkind := by
    rw [hevents] at hother
    rcases List.mem_append.1 hother with hold | hnew
    · exact hgoals.isCreated (h.created other hold goalId hid hkind)
    · rw [List.mem_singleton.1 hnew] at hid hkind
      exact hcreated goalId hid hkind

/-! ### Executed payouts -/

theorem executed_of_payouts (h : db'.payouts = db.payouts) :
    db'.executedReleases = db.executedReleases := by
  rw [Database.executedReleases, h]
  rfl

/-- Payouts that are not executed fail. -/
theorem executed_fail {p : Payout → Bool}
    (hp : ∀ row ∈ db.payouts, p row = true → row.status = .proposed) :
    view (·.isExecuted) (·.release) (updateWhere p (·.fail) db.payouts) =
      db.executedReleases := by
  have hhidden : ∀ row ∈ db.payouts, p row = true → row.isExecuted = false := by
    intro row hrow hprow
    rw [Payout.isExecuted, hp row hrow hprow]
    rfl
  refine filter_updateWhere_map (fun row hrow hprow => ?_) fun row hrow hprow hexecuted => ?_
  · rw [hhidden row hrow hprow]
    rfl
  · rw [hhidden row hrow hprow] at hexecuted
    cases hexecuted

/-- A reserved payout is executed. -/
theorem executed_execute (hdb : db.Sound config) {payout : Payout} (hpayout : payout ∈ db.payouts)
    (hproposed : payout.status = .proposed) (txHash : Hash) (recipient : Address)
    (executedAt : Option Time) :
    (view (·.isExecuted) (·.release) (updateWhere (fun row => row.id = payout.id)
      (·.execute txHash recipient executedAt) db.payouts)).Perm
        ({ payout.release with txHash := some txHash } :: db.executedReleases) := by
  have hnew := view_perm (q := Payout.isExecuted) (g := Payout.release)
    (hdb.payouts.updateWhere_perm hpayout (·.execute txHash recipient executedAt))
  have hold := view_perm (q := Payout.isExecuted) (g := Payout.release)
    (hdb.payouts.perm_cons hpayout)
  have hwas : payout.isExecuted = false := by
    rw [Payout.isExecuted, hproposed]
    rfl
  have his : (payout.execute txHash recipient executedAt).isExecuted = true := rfl
  rw [view_cons, if_pos his] at hnew
  rw [view_cons, hwas, if_neg Bool.false_ne_true] at hold
  exact hnew.trans (hold.symm.cons _)

/-- The row of an executed payout is deleted. -/
theorem executed_delete {rows : List Payout} (hrows : Keyed (·.id) rows) {payout : Payout}
    (hpayout : payout ∈ rows) (hexecuted : payout.isExecuted = true) :
    (view (·.isExecuted) (·.release) rows).Perm
      (payout.release :: view (·.isExecuted) (·.release)
        (rows.filter fun row => row.id ≠ payout.id)) := by
  have hperm := view_perm (q := Payout.isExecuted) (g := Payout.release)
    (hrows.perm_cons hpayout)
  rwa [view_cons, if_pos hexecuted] at hperm

theorem reconcile_untouched (payout : Payout) (executionTxHash : Hash) (db : Database) :
    Untouched db (reconcileConfirmedSafePayout payout executionTxHash db).1 := by
  rcases reconcile_cases payout executionTxHash db with heq | ⟨confirmed, -, -, -, heq⟩ <;>
    rw [heq] <;> exact ⟨rfl, rfl, rfl, rfl⟩

/-- **A merge** executes one payout and deletes another one, for the same release. -/
theorem executed_reconcile (hdb : db.Sound config) {tracked : Payout}
    (htracked : ∀ row ∈ db.payouts, row.id = tracked.id → tracked.Follows row)
    (executionTxHash : Hash) :
    (reconcileConfirmedSafePayout tracked executionTxHash db).1.executedReleases.Perm
      db.executedReleases := by
  rcases reconcile_cases tracked executionTxHash db with
    heq | ⟨confirmed, hconfirmed, hprojection, ⟨reserved, hreserved, hid, hproposed⟩, heq⟩
  · rw [heq]
  simp only [isConfirmedProjection, decide_eq_true_eq] at hprojection
  obtain ⟨hne, hgoal, hasset, hkind, hamount, -, hhash, hexecuted, -⟩ := hprojection
  have hfollows := htracked reserved hreserved hid
  have hnew := executed_execute hdb hreserved hproposed executionTxHash
    confirmed.recipientAddress confirmed.executedAt
  rw [hid] at hnew
  have hthere : confirmed ∈ updateWhere (fun row => row.id = tracked.id)
      (·.execute executionTxHash confirmed.recipientAddress confirmed.executedAt) db.payouts :=
    mem_updateWhere_of_not hconfirmed (decide_eq_false hne)
  have hkeyed : Keyed (·.id) (updateWhere (fun row => row.id = tracked.id)
      (·.execute executionTxHash confirmed.recipientAddress confirmed.executedAt) db.payouts) :=
    hdb.payouts.updateWhere fun _ => rfl
  have hdelete := executed_delete hkeyed hthere (decide_eq_true hexecuted)
  have hsame : ({ reserved.release with txHash := some executionTxHash } : Release) =
      confirmed.release := by
    rw [Payout.release, Payout.release, hgoal, hasset, hkind, hamount, hhash, hfollows.goalId,
      hfollows.asset, hfollows.kind, hfollows.amountRaw]
  rw [heq]
  rw [hsame] at hnew
  exact (hdelete.symm.trans hnew).cons_inv

/-! ### The transactions of the requests and of the synchronisation -/

/-- The payout that a pass has read, in the tables now. -/
theorem Tracked.follows {h : Log} (hknown : db.Known config h) {tracked : TrackedProposal}
    (ht : Tracked h tracked) :
    ∀ row ∈ db.payouts, row.id = tracked.payout.id → tracked.payout.Follows row := by
  intro row hrow hid
  obtain ⟨w, w', -, hw', -, intent, -, -, hpayout, -⟩ := ht
  obtain ⟨hsound, hevolves⟩ := hknown w' hw'
  exact hevolves.payout hsound hpayout hrow hid

theorem conserved_update {h : Log} (hc : Conserved config db) (hdb : db.Sound config)
    (hknown : db.Known config h) {tracked : TrackedProposal} (ht : Tracked h tracked)
    (next : ProposalUpdate) (now : Time) (failPayout : Bool) :
    Conserved config (applyUpdate tracked next now failPayout db).1 := by
  rcases applyUpdate_cases tracked next now failPayout db with
    heq | ⟨-, db₁, hdb₁, hcase⟩
  · rw [heq]
    exact hc
  have hinPlace : InPlace db _ := inPlace_updated tracked next now failPayout
  rw [← hdb₁] at hinPlace
  have hfirst : Conserved config db₁ := by
    rw [hdb₁]
    split_ifs
    · refine hc.of_quiet (keepsGoals_of_eq rfl) rfl (.of_eq (executed_fail fun row _ hrow => ?_))
      exact (of_decide_eq_true hrow).2
    · exact hc.of_quiet (keepsGoals_of_eq rfl) rfl (.of_eq (executed_of_payouts rfl))
  rcases hcase with heq | ⟨-, executionTxHash, heq⟩
  · rw [heq]
    exact hfirst
  · rw [heq]
    have hsame := reconcile_untouched tracked.payout executionTxHash db₁
    refine hfirst.of_quiet (keepsGoals_of_eq hsame.goals) hsame.events ?_
    exact executed_reconcile (hinPlace.sound hdb) (ht.follows (hknown.evolves hinPlace.evolves))
      executionTxHash

/-! ### Projecting -/

theorem goal?_update {p : FundingGoal → Bool} {f : FundingGoal → FundingGoal}
    (hf : ∀ row, (f row).key = row.key) (hrows : db'.goals = updateWhere p f db.goals)
    (goalId : Hash) :
    db'.goal? config.chainId goalId =
      (db.goal? config.chainId goalId).map fun row => if p row then f row else row := by
  rw [Database.goal?, Database.goal?, hrows, updateWhere, List.find?_map]
  congr 2
  funext row
  have hchain : (f row).chainId = row.chainId := congrArg (fun key => key.2.1) (hf row)
  have hid : (f row).chainGoalId = row.chainGoalId := congrArg (fun key => key.2.2) (hf row)
  rw [Function.comp_apply]
  by_cases hp : p row = true
  · rw [if_pos hp, hchain, hid]
  · rw [if_neg hp]

/-- Goals are updated. -/
theorem keepsGoals_update {p : FundingGoal → Bool} {f : FundingGoal → FundingGoal}
    (hgoals : db'.goals = updateWhere p f db.goals) (hf : ∀ row, (f row).key = row.key)
    (hcreated : ∀ row ∈ db.goals, p row = true → row.creationTxHash.isSome = true →
      (f row).creationTxHash.isSome = true) : KeepsGoals config db db' := by
  intro goalId goal hgoal
  refine ⟨if p goal then f goal else goal, ?_, ?_, fun hsome => ?_⟩
  · rw [goal?_update hf hgoals, hgoal]
    rfl
  · split_ifs
    · exact congrArg Prod.fst (hf goal)
    · rfl
  · split_ifs with hp
    · exact hcreated goal (goal?_some hgoal).1 hp hsome
    · exact hsome

/-- A goal is added. -/
theorem keepsGoals_append {row : FundingGoal} (hgoals : db'.goals = db.goals ++ [row]) :
    KeepsGoals config db db' := by
  intro goalId goal hgoal
  refine ⟨goal, ?_, rfl, fun hsome => hsome⟩
  rw [Database.goal?, hgoals, List.find?_append]
  rw [Database.goal?] at hgoal
  rw [hgoal]
  rfl

theorem isCreated_recreate {goalId : Hash} {goal : FundingGoal} {draft : Option Expense}
    {slug : Text} {facts : GoalFacts} (hgoal : db.goal? config.chainId goalId = some goal)
    (hfacts : facts.creationTxHash.isSome = true)
    (hrows : db'.goals = updateWhere (fun row => row.id = goal.id)
      (·.recreate draft slug facts) db.goals) : db'.IsCreated config goalId := by
  have hkey : ∀ row : FundingGoal, (row.recreate draft slug facts).key = row.key := fun _ => rfl
  refine ⟨goal.recreate draft slug facts, ?_, hfacts⟩
  rw [goal?_update hkey hrows, hgoal, Option.map_some, if_pos (decide_eq_true rfl)]

theorem isCreated_fresh {goalId : Hash} {id : Id} {draft : Option Expense} {slug : Text}
    {facts : GoalFacts} (hnone : db.goal? config.chainId goalId = none)
    (hfacts : facts.creationTxHash.isSome = true)
    (hrows : db'.goals = db.goals ++ [.fresh config.chainId id goalId draft slug facts]) :
    db'.IsCreated config goalId := by
  refine ⟨.fresh config.chainId id goalId draft slug facts, ?_, hfacts⟩
  rw [Database.goal?] at hnone ⊢
  rw [hrows, List.find?_append, hnone, Option.none_or]
  exact List.find?_cons_of_pos (decide_eq_true ⟨rfl, rfl⟩)

/-- An event that reports no release and adds no payout. -/
theorem Conserved.of_unreleased (h : Conserved config db) (hgoals : KeepsGoals config db db')
    {row : ChainEvent} (hevents : db'.events = db.events ++ [row])
    (hpayouts : db'.payouts = db.payouts) (hrelease : row.event.isRelease = false)
    (hcreated : ∀ goalId, row.event.goalId? = some goalId → row.event.isCreated = true →
      db'.IsCreated config goalId) : Conserved config db' := by
  have hnot : ¬row.event.isRelease = true := by
    rw [hrelease]
    exact Bool.false_ne_true
  refine h.of_event hgoals hevents ?_ (fun hreleases => absurd hreleases hnot) ?_
  · rw [release?_eq_none hrelease, executed_of_payouts hpayouts]
    exact .refl _
  · rintro goalId hid (hcreates | hreleases)
    · exact hcreated goalId hid hcreates
    · exact absurd hreleases hnot

/-- **A goal is created.** -/
theorem conserved_created {event : DecodedEscrowEvent} {goalId : Hash} {creator recipient : Address}
    {payoutRecipient : Address} {preTarget usdcTarget deadline : ℕ}
    {title description metadataURI : Text} {r : Option MetadataRefresh}
    (hc : Conserved config db)
    (hevent : event.event = .goalCreated goalId creator recipient payoutRecipient preTarget
      usdcTarget deadline title description metadataURI)
    (h : handleGoalCreated config ext event goalId creator recipient preTarget usdcTarget deadline
      title description metadataURI { db with events := db.events ++ [event.row config] } =
        .ok (db', r)) : Conserved config db' := by
  obtain ⟨deadline', occurredAt, db₁, id, -, -, hup, rfl, -⟩ := handleGoalCreated_ok.1 h
  obtain ⟨expenses, heq⟩ := publishDraft_eq db₁
    (Database.draft? { db with events := db.events ++ [event.row config] } goalId)
  have hrelease : (event.row config).event.isRelease = false := by
    show event.event.isRelease = false
    rw [hevent]
    rfl
  have hid : (event.row config).event.goalId? = some goalId := by
    show event.event.goalId? = some goalId
    rw [hevent]
    rfl
  rw [heq]
  rcases upsertGoal_ok.1 hup with ⟨-, ⟨goal, hgoal, rfl, -⟩ | ⟨hnone, rfl, -⟩⟩
  · refine hc.of_unreleased (keepsGoals_update rfl (fun _ => rfl) fun _ _ _ _ => rfl) rfl rfl
      hrelease fun goalId' hid' _ => ?_
    obtain rfl := Option.some.inj (hid.symm.trans hid')
    exact isCreated_recreate hgoal rfl rfl
  · refine hc.of_unreleased (keepsGoals_append rfl) rfl rfl hrelease fun goalId' hid' _ => ?_
    obtain rfl := Option.some.inj (hid.symm.trans hid')
    exact isCreated_fresh hnone rfl rfl

theorem executeReservation_elsewhere (db : Database) (payoutId : Id) (txHash : Hash)
    (occurredAt : Time) :
    (executeReservation db payoutId txHash occurredAt).payouts = db.payouts ∧
      (executeReservation db payoutId txHash occurredAt).goals = db.goals ∧
      (executeReservation db payoutId txHash occurredAt).events = db.events := by
  rcases executeReservation_cases db payoutId txHash occurredAt with
    ⟨heq, -⟩ | ⟨intent, -, -, heq⟩ | ⟨intent, proposal, -, -, -, heq⟩ <;>
    rw [heq] <;> exact ⟨rfl, rfl, rfl⟩

/-- **A release** executes one payout, which stands for it. -/
theorem conserved_released {event : DecodedEscrowEvent} {goal : FundingGoal} {goalId : Hash}
    {kind : PayoutKind} {token payoutRecipient : Address} {amount : ℕ} (hdb : db.Sound config)
    (hc : Conserved config db)
    (hrelease : event.event.release? = some (goalId, kind, token, amount))
    (hgoal : db.goal? config.chainId goalId = some goal) (hcreated : db.IsCreated config goalId)
    (h : handleReleased config event goal kind token payoutRecipient amount
      { db with events := db.events ++ [event.row config] } = .ok db') : Conserved config db' := by
  obtain ⟨asset, occurredAt, hasset, hcases⟩ := handleReleased_ok h
  have hid := EscrowEvent.goalId?_of_release hrelease
  -- what the event reports, wherever its goal is found
  have hreports : ∀ db₂ : Database, db₂.goals = db.goals →
      db₂.release? config (event.row config) =
        some ⟨goal.id, kind, asset, amount, some event.txHash⟩ := by
    intro db₂ hgoals
    have hfound : db₂.goal? config.chainId goalId = some goal := by
      rw [Database.goal?, hgoals]
      exact hgoal
    have hevent : (event.row config).event.release? = some (goalId, kind, token, amount) := hrelease
    rw [Database.release?, hevent, Option.bind_some]
    dsimp only
    rw [hfound, Option.bind_some, hasset]
    rfl
  have hof : ∀ db₂ : Database, db₂.goals = db.goals →
      db₂.events = db.events ++ [event.row config] →
      db₂.executedReleases.Perm
        (⟨goal.id, kind, asset, amount, some event.txHash⟩ :: db.executedReleases) →
      Conserved config db₂ := by
    intro db₂ hgoals hevents hexecuted
    have hkeeps : KeepsGoals config db db₂ := keepsGoals_of_eq hgoals
    refine hc.of_event hkeeps hevents ?_ (fun _ => ?_) fun goalId' hid' _ => ?_
    · rw [hreports db₂ hgoals]
      exact hexecuted
    · rw [hreports db₂ hgoals]
      rfl
    · obtain rfl := Option.some.inj (hid.symm.trans hid')
      exact hkeeps.isCreated hcreated
  rcases hcases with ⟨reserved, hmem, -, rfl⟩ | ⟨payout, hpayout, -, rfl⟩
  · obtain ⟨hreserved, hcandidate⟩ := List.mem_filter.1 hmem
    rw [decide_eq_true_eq] at hcandidate
    obtain ⟨hgoalId, hkind, hassetEq, hamount, hproposed⟩ := hcandidate
    obtain ⟨hpayouts, hgoals, hevents⟩ := executeReservation_elsewhere
      (Database.mapPayout { db with events := db.events ++ [event.row config] } reserved.id
        (·.execute event.txHash payoutRecipient (some occurredAt)))
      reserved.id event.txHash occurredAt
    refine hof _ hgoals hevents ?_
    have hexecuted := executed_execute hdb hreserved hproposed event.txHash payoutRecipient
      (some occurredAt)
    have hsame : ({ reserved.release with txHash := some event.txHash } : Release) =
        ⟨goal.id, kind, asset, amount, some event.txHash⟩ := by
      rw [Payout.release, hgoalId, hkind, hassetEq, hamount]
    rw [Database.executedReleases, hpayouts, ← hsame]
    exact hexecuted
  · obtain ⟨-, hgoalId, hassetEq, hkind, hamount, hhash, hexecuted⟩ := hpayout
    refine hof _ rfl rfl ?_
    have hview : view (·.isExecuted) (·.release) [payout] =
        [⟨goal.id, kind, asset, amount, some event.txHash⟩] := by
      have his : payout.isExecuted = true := decide_eq_true hexecuted
      rw [view_cons, if_pos his, Payout.release, hgoalId, hkind, hassetEq, hamount, hhash]
      rfl
    show (view (·.isExecuted) (·.release) (db.payouts ++ [payout])).Perm _
    rw [view_append, hview]
    exact List.perm_append_comm

/-- **An event of a goal** that is no release executes nothing. -/
theorem conserved_turns {event : DecodedEscrowEvent} {goal : FundingGoal} {b : Book}
    (hdb : db.Sound config) (hc : Conserved config db) (hgoal : goal ∈ db.goals)
    (hrelease : event.event.isRelease = false) (hcreated : event.event.isCreated = false)
    (hb : (Database.book { db with events := db.events ++ [event.row config] } goal).apply config
      event = .ok b)
    (h : Turns goal { db with events := db.events ++ [event.row config] } db' b) :
    Conserved config db' := by
  refine hc.of_unreleased (keepsGoals_update h.goals (fun _ => rfl) ?_) h.events h.payouts hrelease
    fun _ _ hcreates => ?_
  · intro row hrow hid hsome
    have hrowEq := hdb.goals.eq hrow hgoal (of_decide_eq_true hid)
    have hcreation : b.facts.creationTxHash = goal.creationTxHash :=
      (Book.follows_of_apply hb).creation
    show b.facts.creationTxHash.isSome = true
    rw [hcreation, ← hrowEq]
    exact hsome
  · have hcreates : event.event.isCreated = true := hcreates
    rw [hcreated] at hcreates
    cases hcreates

/-- The goal of a release has been created before. -/
def Database.KnowsGoal (db : Database) (event : EscrowEvent) : Prop :=
  ∃ row ∈ db.events, row.event.isCreated = true ∧ row.event.goalId? = event.goalId?

theorem conserved_project {event : DecodedEscrowEvent} {r : Bool × Option MetadataRefresh}
    (hdb : db.Sound config) (hc : Conserved config db)
    (horder : event.event.isRelease = true → db.KnowsGoal event.event)
    (h : projectLog config ext event db = .ok (db', r)) : Conserved config db' := by
  rcases projectLog_cases h with rfl | ⟨-, hhandled⟩
  · exact hc
  cases hhandled with
  | contract hid _ =>
    have hrelease : event.event.isRelease = false := by
      cases hevent : event.event <;> simp_all [EscrowEvent.goalId?, EscrowEvent.isRelease]
    refine hc.of_unreleased (keepsGoals_of_eq rfl) rfl rfl hrelease fun goalId hid' _ => ?_
    have hnone : none = some goalId := hid.symm.trans hid'
    cases hnone
  | created hevent hcreated => exact conserved_created hc hevent hcreated
  | @goal goal goalId _ hid hfound hcreated hhandled =>
    have hgoal : db.goal? config.chainId goalId = some goal := hfound
    obtain ⟨hmem, -, -⟩ := goal?_some hgoal
    cases hrelease : event.event.isRelease with
    | true =>
      obtain ⟨row, hrow, hcreates, hsame⟩ := horder hrelease
      have hcreated := hc.created row hrow goalId (hsame.trans hid) (.inl hcreates)
      rw [EscrowEvent.isRelease_eq, Option.isSome_iff_exists] at hrelease
      obtain ⟨⟨goalId', kind, token, amount⟩, hrelease⟩ := hrelease
      obtain rfl := Option.some.inj ((EscrowEvent.goalId?_of_release hrelease).symm.trans hid)
      obtain ⟨payoutRecipient, heq⟩ := handleGoalEvent_release hrelease
      rw [heq] at hhandled
      exact conserved_released hdb hc hrelease hgoal hcreated hhandled
    | false =>
      have hclaimed := (preserves_event hdb event).sound
      obtain ⟨b, hb, hturns⟩ := handleGoalEvent_turns hclaimed.goals hmem (hclaimed.periods _)
        hrelease hhandled
      exact conserved_turns hdb hc hmem hrelease hcreated hb hturns

/-! ### Resetting -/

/-- The goal of an executed payout has been projected. -/
theorem Conserved.isProjected (hc : Conserved config db) {row : Payout} (hrow : row ∈ db.payouts)
    (hexecuted : row.isExecuted = true) :
    ∃ goal ∈ db.goals, Database.isProjected config.chainId goal = true ∧ goal.id = row.goalId := by
  have hmem : row.release ∈ db.executedReleases := mem_view.2 ⟨row, hrow, hexecuted, rfl⟩
  obtain ⟨event, hevent, hreports⟩ := List.mem_filterMap.1 (hc.matched.mem_iff.1 hmem)
  have hrelease : event.event.isRelease = true := by
    by_contra hnot
    rw [release?_eq_none (Bool.eq_false_of_not_eq_true hnot)] at hreports
    cases hreports
  unfold Database.release? at hreports
  obtain ⟨⟨goalId, kind, token, amount⟩, hargs, hreports⟩ := Option.bind_eq_some_iff.1 hreports
  obtain ⟨goal, hgoal, hreports⟩ := Option.bind_eq_some_iff.1 hreports
  obtain ⟨asset, -, heq⟩ := Option.map_eq_some_iff.1 hreports
  obtain ⟨goal', hgoal', hcreation⟩ := hc.created event hevent goalId
    (EscrowEvent.goalId?_of_release hargs) (.inr hrelease)
  obtain rfl := Option.some.inj (hgoal.symm.trans hgoal')
  obtain ⟨hgoalMem, hchain, -⟩ := goal?_some hgoal
  exact ⟨goal, hgoalMem, decide_eq_true ⟨hchain, hcreation⟩, congrArg Release.goalId heq⟩

theorem reset_events (hdb : db.Sound config) : (resetChainProjection config db).events = [] :=
  List.filter_eq_nil_iff.2 fun row hrow hkept => of_decide_eq_true hkept (hdb.events row hrow)

/-- **A reset** leaves no executed payout. -/
theorem conserved_reset (hdb : db.Sound config) (hc : Conserved config db) :
    (resetChainProjection config db).events = [] ∧
      Conserved config (resetChainProjection config db) := by
  have hevents := reset_events hdb
  have hnone : ∀ row ∈ (resetChainProjection config db).payouts, row.isExecuted = false := by
    intro row hrow
    rw [reset_payouts] at hrow
    rcases mem_updateWhere_cases hrow with ⟨hkept, hnot⟩ | ⟨old, -, -, rfl⟩
    · obtain ⟨hmem, houtlives⟩ := List.mem_filter.1 hkept
      by_contra hexecuted
      have hexecuted := Bool.eq_true_of_not_eq_false hexecuted
      obtain ⟨goal, hgoal, hprojected, hid⟩ := hc.isProjected hmem hexecuted
      have hany : (db.goals.any fun goal =>
          decide (Database.isProjected config.chainId goal = true ∧ goal.id = row.goalId)) = true :=
        List.any_eq_true.2 ⟨goal, hgoal, decide_eq_true ⟨hprojected, hid⟩⟩
      cases hintents : db.hasIntents row.goalId with
      | true =>
        have hretained : db.isRetained config.chainId row.goalId = true :=
          decide_eq_true ⟨hintents, hany⟩
        exact of_decide_eq_false hnot ⟨hretained, of_decide_eq_true hexecuted⟩
      | false =>
        have hdropped : db.isDropped config.chainId row.goalId = true := by
          refine decide_eq_true ⟨?_, hany⟩
          rw [hintents]
          exact Bool.false_ne_true
        exact (of_decide_eq_true houtlives).2 hdropped
    · rfl
  have hexecuted : (resetChainProjection config db).executedReleases = [] := by
    rw [Database.executedReleases, view, List.map_eq_nil_iff, List.filter_eq_nil_iff]
    intro row hrow hexecuted
    rw [hnone row hrow] at hexecuted
    cases hexecuted
  refine ⟨hevents, ?_, ?_, ?_⟩
  · rw [hexecuted, Database.releases, hevents]
    exact .refl _
  · intro row hrow
    rw [hevents] at hrow
    cases hrow
  · intro row hrow
    rw [hevents] at hrow
    cases hrow

/-! ### Every transaction -/

/-- **Every transaction** keeps the executed payouts and the releases together. -/
theorem Write.conserved {j : Job} {h : Log} (hdb : db.Sound config) (hknown : db.Known config h)
    (hc : Conserved config db)
    (horder : ∀ event : DecodedEscrowEvent, j = .project event → event.event.isRelease = true →
      db.KnowsGoal event.event)
    (hw : Write config ext j h db db') : Conserved config db' := by
  have hquiet : ∀ db₂ : Database, db₂.goals = db.goals → db₂.events = db.events →
      db₂.executedReleases.Perm db.executedReleases → Conserved config db₂ :=
    fun db₂ hgoals hevents => hc.of_quiet (keepsGoals_of_eq hgoals) hevents
  cases hw with
  | idle => exact hc
  | expire hsaw hcandidates =>
    obtain ⟨claimed, -, heq⟩ := expireTx_eq (hknown.candidates hsaw hcandidates)
    rw [heq]
    refine hquiet _ rfl rfl (.of_eq (executed_fail fun row _ hrow => ?_))
    exact (of_decide_eq_true hrow).2
  | convert _ hconvert =>
    obtain ⟨-, -, -, rfl⟩ := convertTx_ok hconvert
    exact hquiet _ rfl rfl (.refl _)
  | reserve _ _ _ _ hreserve =>
    obtain ⟨-, -, payout, ⟨-, -, -, -, -, hproposed⟩, rfl⟩ := reserveTx_ok hreserve
    refine hquiet _ rfl rfl (.of_eq ?_)
    have hnot : payout.isExecuted = false := by
      rw [Payout.isExecuted, hproposed]
      rfl
    show view _ _ (db.payouts ++ [payout]) = _
    rw [view_append, view_cons, hnot, if_neg Bool.false_ne_true]
    exact List.append_nil _
  | claim hclaim =>
    obtain ⟨-, -, rfl⟩ := claimTx_ok hclaim
    exact hquiet _ rfl rfl (.refl _)
  | unconfirmed => exact hquiet _ rfl rfl (.refl _)
  | submitted => exact hquiet _ rfl rfl (.refl _)
  | cancel _ _ _ hcancel =>
    obtain ⟨-, rfl⟩ := cancelTx_ok hcancel
    refine hquiet _ rfl rfl (.of_eq (executed_fail fun row _ hrow => ?_))
    exact (of_decide_eq_true hrow).2
  | @reconcile tracked executionTxHash ht =>
    have hsame := reconcile_untouched tracked.payout executionTxHash db
    exact hquiet _ hsame.goals hsame.events
      (executed_reconcile hdb (ht.follows hknown) executionTxHash)
  | update ht _ => exact conserved_update hc hdb hknown ht _ _ _
  | unavailable => exact hquiet _ rfl rfl (.refl _)
  | project hj hproject =>
    exact conserved_project hdb hc (horder _ hj) hproject
  | rebuild => exact (conserved_reset hdb hc).2

/-! ### The projected events -/

theorem handled_events {event : DecodedEscrowEvent} (hdb : db.Sound config)
    (h : Handled config ext event db db') : db'.events = db.events := by
  cases h with
  | contract => rfl
  | created _ hcreated =>
    obtain ⟨deadline', occurredAt, db₁, id, -, -, hup, rfl, -⟩ := handleGoalCreated_ok.1 hcreated
    obtain ⟨expenses, heq⟩ := publishDraft_eq db₁ (db.draft? _)
    rw [heq]
    rcases upsertGoal_ok.1 hup with ⟨-, ⟨goal, -, rfl, -⟩ | ⟨-, rfl, -⟩⟩ <;> rfl
  | goal _ hfound _ hhandled =>
    obtain ⟨hgoal, -, -⟩ := goal?_some hfound
    cases hrelease : event.event.isRelease with
    | true =>
      rw [EscrowEvent.isRelease_eq, Option.isSome_iff_exists] at hrelease
      obtain ⟨⟨goalId, kind, token, amount⟩, hrelease⟩ := hrelease
      obtain ⟨payoutRecipient, heq⟩ := handleGoalEvent_release hrelease
      rw [heq] at hhandled
      obtain ⟨asset, occurredAt, -, ⟨reserved, -, -, rfl⟩ | ⟨payout, -, -, rfl⟩⟩ :=
        handleReleased_ok hhandled
      · exact (executeReservation_elsewhere _ _ _ _).2.2
      · rfl
    | false =>
      obtain ⟨b, -, hturns⟩ := handleGoalEvent_turns hdb.goals hgoal (hdb.periods _) hrelease
        hhandled
      exact hturns.events

/-- **Every transaction** leaves the goals alone, projects an event or resets the projection. -/
theorem Write.untouched {j : Job} {h : Log} (hknown : db.Known config h)
    (hw : Write config ext j h db db') :
    Untouched db db' ∨
      (∃ (event : DecodedEscrowEvent) (r : Bool × Option MetadataRefresh),
        j = .project event ∧ projectLog config ext event db = .ok (db', r)) ∨
      j = .rebuild ∧ db' = resetChainProjection config db := by
  cases hw with
  | idle => exact .inl ⟨rfl, rfl, rfl, rfl⟩
  | expire hsaw hcandidates =>
    obtain ⟨claimed, -, heq⟩ := expireTx_eq (hknown.candidates hsaw hcandidates)
    rw [heq]
    exact .inl ⟨rfl, rfl, rfl, rfl⟩
  | convert _ hconvert =>
    obtain ⟨-, -, -, rfl⟩ := convertTx_ok hconvert
    exact .inl ⟨rfl, rfl, rfl, rfl⟩
  | reserve _ _ _ _ hreserve =>
    obtain ⟨-, -, payout, -, rfl⟩ := reserveTx_ok hreserve
    exact .inl ⟨rfl, rfl, rfl, rfl⟩
  | claim hclaim =>
    obtain ⟨-, -, rfl⟩ := claimTx_ok hclaim
    exact .inl ⟨rfl, rfl, rfl, rfl⟩
  | unconfirmed => exact .inl ⟨rfl, rfl, rfl, rfl⟩
  | submitted => exact .inl ⟨rfl, rfl, rfl, rfl⟩
  | cancel _ _ _ hcancel =>
    obtain ⟨-, rfl⟩ := cancelTx_ok hcancel
    exact .inl ⟨rfl, rfl, rfl, rfl⟩
  | reconcile => exact .inl (reconcile_untouched _ _ _)
  | @update tracked next now failPayout =>
    rcases applyUpdate_cases tracked next now failPayout db with heq | ⟨-, db₁, hdb₁, hcase⟩
    · rw [heq]
      exact .inl ⟨rfl, rfl, rfl, rfl⟩
    have hfirst : Untouched db db₁ := by
      rw [hdb₁]
      split_ifs <;> exact ⟨rfl, rfl, rfl, rfl⟩
    rcases hcase with heq | ⟨-, executionTxHash, heq⟩
    · rw [heq]
      exact .inl hfirst
    · have hthen := reconcile_untouched tracked.payout executionTxHash db₁
      rw [heq]
      exact .inl ⟨hthen.goals.trans hfirst.goals, hthen.periods.trans hfirst.periods,
        hthen.contributions.trans hfirst.contributions, hthen.events.trans hfirst.events⟩
  | unavailable => exact .inl ⟨rfl, rfl, rfl, rfl⟩
  | @project event _ r hj hproject => exact .inr (.inl ⟨event, r, hj, hproject⟩)
  | rebuild hj => exact .inr (.inr ⟨hj, rfl⟩)

/-- **The events** change with a projection or a reset only. -/
theorem Write.events {j : Job} {h : Log} (hdb : db.Sound config) (hknown : db.Known config h)
    (hw : Write config ext j h db db') :
    db'.events = db.events ∨
      (∃ event : DecodedEscrowEvent, j = .project event ∧
        db'.events = db.events ++ [event.row config]) ∨
      j = .rebuild ∧ db'.events = [] := by
  rcases hw.untouched hknown with hsame | ⟨event, r, hj, hproject⟩ | ⟨hj, rfl⟩
  · exact .inl hsame.events
  · rcases projectLog_cases hproject with rfl | ⟨-, hhandled⟩
    · exact .inl rfl
    · exact .inr (.inl ⟨event, hj, handled_events (preserves_event hdb event).sound hhandled⟩)
  · exact .inr (.inr ⟨hj, reset_events hdb⟩)

/-- The events that have been projected, after one more step. -/
def projectStep (config : Deployment) (events : List ChainEvent) :
    Label World Reply Failure Job → List ChainEvent
  | .act (.project event) _ _ (.ran w w') =>
    if w'.db.events = w.db.events then events else events ++ [event.row config]
  | .act .rebuild _ _ (.ran w w') => if w'.db.events = w.db.events then events else []
  | _ => events

/-- The events that were projected since the last reset. -/
def projectedSince (config : Deployment) (ls : List (Label World Reply Failure Job)) :
    List ChainEvent :=
  ls.foldl (projectStep config) []

theorem projectStep_quiet (config : Deployment) (events : List ChainEvent)
    {l : Label World Reply Failure Job} (hl : l.Quiet) : projectStep config events l = events := by
  cases l with
  | act j began h e =>
    cases e with
    | asked w q a => cases j <;> rfl
    | ran w w' => cases hl
  | env => rfl
  | start j => rfl
  | stop j => rfl
  | crash j => rfl

theorem Write.projected {j : Job} {began w w' : World} {h : Log} (hdb : w.db.Sound config)
    (hknown : w.db.Known config h) (hw : Write config ext j h w.db w'.db) :
    projectStep config w.db.events (.act j began h (.ran w w')) = w'.db.events := by
  by_cases hsame : w'.db.events = w.db.events
  · cases j <;> first | exact (if_pos hsame).trans hsame.symm | exact hsame.symm
  · rcases hw.events hdb hknown with heq | ⟨event, rfl, heq⟩ | ⟨rfl, heq⟩
    · exact absurd heq hsame
    · exact (if_neg hsame).trans heq.symm
    · exact (if_neg hsame).trans heq.symm

end

/-! ### Whole runs -/

variable {O : Outside}

/-- The contract releases nothing of a goal that it has not created. -/
def AfterCreation : Label World Reply Failure Job → Prop
  | .act (.project event) _ _ (.ran w _) =>
    event.event.isRelease = true → w.db.KnowsGoal event.event
  | _ => True

instance : DecidablePred AfterCreation
  | .act (.project event) _ _ (.ran w _) => inferInstanceAs (Decidable
      (event.event.isRelease = true → ∃ row ∈ w.db.events,
        row.event.isCreated = true ∧ row.event.goalId? = event.event.goalId?))
  | .act (.project _) _ _ (.asked _ _ _) | .act (.create ..) _ _ _ | .act (.submit ..) _ _ _
  | .act (.cancel ..) _ _ _ | .act (.expire _) _ _ _ | .act (.sync ..) _ _ _ | .act .rebuild _ _ _
  | .env | .start _ | .stop _ | .crash _ => inferInstanceAs (Decidable True)

/-- What a goal has released of a token, by its executed payouts. -/
def Database.paidOut (db : Database) (goalId : Id) (kind : PayoutKind) (asset : FundingAsset) : ℕ :=
  payoutsIn .executed kind asset (db.payouts.filter fun row => row.goalId = goalId)

/-- What a goal has released of a token, by the projected events. -/
def Database.released (config : Deployment) (db : Database) (goalId : Id) (kind : PayoutKind)
    (asset : FundingAsset) : ℕ :=
  total (fun r => r.goalId = goalId ∧ r.kind = kind ∧ r.asset = asset) (·.amountRaw)
    (db.releases config)

theorem paidOut_eq (db : Database) (goalId : Id) (kind : PayoutKind) (asset : FundingAsset) :
    db.paidOut goalId kind asset =
      total (fun r => r.goalId = goalId ∧ r.kind = kind ∧ r.asset = asset) (·.amountRaw)
        db.executedReleases := by
  rw [Database.paidOut, payoutsIn, total_filter, Database.executedReleases, view, total_map,
    total_filter]
  refine total_congr (fun row _ => ?_) fun _ _ _ => rfl
  rw [Bool.eq_iff_iff]
  simp only [Payout.isExecuted, Bool.and_eq_true, decide_eq_true_eq]
  constructor
  · intro h
    exact ⟨⟨h.2, h.1.2.1, h.1.1⟩, h.1.2.2⟩
  · intro h
    exact ⟨⟨h.1.2.2, h.1.2.1, h.2⟩, h.1.1⟩

theorem conserved_empty (config : Deployment) : Conserved config Database.empty :=
  ⟨.refl _, fun _ hrow => absurd hrow List.not_mem_nil,
    fun _ hrow => absurd hrow List.not_mem_nil⟩

/-! ### Sample runs -/

section Sample

/-- The deployment of the sample runs. -/
def sampleDeployment : Deployment :=
  { chainId := 1
    escrowAddress := 7
    preAddress := 8
    usdcAddress := 9
    treasury := 10
    deploymentBlock := 0
    confirmations := 1
    stateKey := []
    safeAddress := 5
    safeServiceConfigured := true }

/-- The outside world of the sample runs, which may answer anything. -/
def sampleOutside : Outside where
  config := sampleDeployment
  ext := ⟨fun title _ => title, fun _ => false, fun _ goalId _ amount => goalId + amount⟩
  forest := ⟨fun h => h - 1, fun h => h, fun _ => rfl⟩
  answers _ _ _ := True

/-- The answers at a time, while the Safe has this nonce. -/
def sampleOracle (nonce : ℕ) (time : Time) (_ : World) : (q : Query) → Except Failure (Reply q)
  | .now => .ok time
  | .assertSafeEscrowOwner _ | .assertPayoutReady _ | .assertOwner _ => .ok ⟨5, 1⟩
  | .nextNonce | .safeNonce => .ok nonce
  | .validateTransactionData _ _ _ _ _ | .propose _ _ _ | .verifyManifest => .ok ()
  | .transactionHash transaction => .ok transaction
  | _ => .error .other

/-- An event of the transaction `txHash`. -/
def sampleEvent (event : EscrowEvent) (txHash : Hash) : DecodedEscrowEvent :=
  ⟨event, 1, 1, 1, txHash, 0⟩

/-- The indexer projects an event. -/
def projects (event : EscrowEvent) (txHash : Hash) : List (Move World Reply Failure Job Slot) :=
  [.start (.project (sampleEvent event txHash)), .act .indexer 1 (sampleOracle 4 1000),
    .stop .indexer]

/-- A goal is created, and closed with 100 units for its recipient. -/
def closedGoal : List (Move World Reply Failure Job Slot) :=
  projects (.goalCreated 11 20 30 30 0 0 60 [] [] []) 70 ++ projects (.goalClosed 11 0 100) 71

/-- A release of the goal to its recipient. -/
def sampleRelease (amount : ℕ) : EscrowEvent := .expenseReleased 11 9 30 30 amount

/-- A request to release an amount. -/
def sampleRequest (n : ℕ) (delivery : SafePayoutDelivery) (amount : ℕ) : Job :=
  .create n 0 ⟨.expense, .usdc, amount, delivery, false⟩ 2

/-- 50 units are reserved and released, and 30 more are released. -/
def releasedRun : List (Move World Reply Failure Job Slot) :=
  closedGoal ++
  [.start (sampleRequest 1 .manual 50), .act (.other 1) 9 (sampleOracle 4 1000),
    .stop (.other 1)] ++
  projects (sampleRelease 50) 72 ++ projects (sampleRelease 30) 73

theorem allows_releasedRun : ∀ m ∈ releasedRun, (escrow sampleOutside).Allows m :=
  Machine.allows_of_internal (fun _ _ _ => trivial) rfl

/-- The world of the sample runs, before anything has happened. -/
def sampleStart : Config World Reply Failure Job Slot := Config.idle (World.initial ⟨0, []⟩)

theorem released_isSome :
    ((escrow sampleOutside).play releasedRun sampleStart).isSome = true := by
  decide +kernel

/-- The end of the sample run. -/
def releasedEnd : Config World Reply Failure Job Slot :=
  ((escrow sampleOutside).play releasedRun sampleStart).get released_isSome

end Sample

/-- **Payouts are conserved.**  In every run the events are those that were projected since the last
reset; each of their releases is that of one executed payout, and each executed payout that of one
release; so the payouts of a goal add up to its releases. -/
theorem payouts_conserved {chain : Chain.ChainState Hash} {c : Config World Reply Failure Job Slot}
    {ls : List (Label World Reply Failure Job)}
    (hrun : (escrow O).Run (Config.idle (World.initial chain)) ls c)
    (horder : ∀ l ∈ ls, AfterCreation l) :
    c.shared.db.events = projectedSince O.config ls ∧
      (∀ row ∈ c.shared.db.events, row.event.isRelease = true →
        (c.shared.db.release? O.config row).isSome = true) ∧
      c.shared.db.executedReleases.Perm (c.shared.db.releases O.config) ∧
      ∀ goalId kind asset, c.shared.db.paidOut goalId kind asset =
        c.shared.db.released O.config goalId kind asset := by
  suffices hinv : Conserved O.config c.shared.db ∧
      c.shared.db.events = projectedSince O.config ls by
    refine ⟨hinv.2, hinv.1.reported, hinv.1.matched, fun goalId kind asset => ?_⟩
    rw [paidOut_eq]
    exact total_perm hinv.1.matched
  have hidle : (payouts O).Safe (Config.idle (World.initial chain)) :=
    Protocol.safe_idle (sound_empty O.config)
  refine (hidle.along (L := AfterCreation)
    (J := fun ls w => Conserved O.config w.db ∧ w.db.events = projectedSince O.config ls)
    (R := fun _ _ => True) (fun _ => trivial) ?_ ?_ ?_ ?_ (Protocol.recalls_idle _)
    ⟨conserved_empty _, rfl⟩ hrun horder).1
  · intro ls l w hquiet hw
    refine ⟨hw.1, ?_⟩
    rw [projectedSince, List.foldl_append]
    exact hw.2.trans (projectStep_quiet _ _ hquiet).symm
  · intro ls w w' _ henv hw
    have hdb := henv.db_eq
    refine ⟨⟨?_, ?_⟩, fun _ _ => trivial⟩
    · rw [hdb]
      exact hw.1
    · rw [projectedSince, List.foldl_append, hdb]
      exact hw.2
  · intro ls j w _ hw
    refine ⟨⟨hw.1, ?_⟩, fun _ _ => trivial⟩
    rw [projectedSince, List.foldl_append]
    exact hw.2
  · intro ls j began h w w' horder hinv hrec _ hguar hw
    refine ⟨⟨?_, ?_⟩, fun _ _ => trivial⟩
    · refine hguar.2.conserved hinv (known_of_recorded hrec) hw.1 ?_
      rintro event rfl
      exact horder
    · rw [projectedSince, List.foldl_append, ← projectedSince, ← hw.2]
      exact (hguar.2.projected hinv (known_of_recorded hrec)).symm

theorem payouts_conserved_sample :
    releasedEnd.shared.db.paidOut 0 .expense .usdc = 80 ∧
      releasedEnd.shared.db.released sampleDeployment 0 .expense .usdc = 80 := by
  obtain ⟨-, -, -, hsum⟩ := payouts_conserved
    (Machine.run_labels allows_releasedRun (Option.some_get released_isSome).symm)
    (by decide +kernel)
  have hpaid : releasedEnd.shared.db.paidOut 0 .expense .usdc = 80 := by decide +kernel
  exact ⟨hpaid, (hsum 0 .expense .usdc).symm.trans hpaid⟩

end Escrow

end PreCommunity
