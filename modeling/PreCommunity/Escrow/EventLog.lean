import Mathlib.Data.List.Pairwise
import PreCommunity.Escrow.Rows

/-!
# Indexing the log of the escrow contract

What a pass of the indexer commits, given what it was told before.

* `EscrowContract` : the logs of every block; a block's hash fixes them.
* `IndexWrite` : the transactions of a pass.
* `indexDiscipline` : nobody else writes the events and the checkpoint.
* `wp_indexEscrow` : a pass keeps to them.
-/

namespace PreCommunity

namespace Escrow

open Store Concurrent

/-! ### What a projection leaves alone -/

/-- The events and the checkpoint stay. -/
def SameLog (db db' : Database) : Prop := db'.events = db.events ∧ db'.indexers = db.indexers

section

variable {config : Deployment} {ext : External} {event : DecodedEscrowEvent} {goal : FundingGoal}
  {db db' db'' : Database}

theorem SameLog.trans (h : SameLog db db') (h' : SameLog db' db'') : SameLog db db'' :=
  ⟨h'.1.trans h.1, h'.2.trans h.2⟩

theorem upsertPeriod_sameLog (db : Database) (row : FundingGoalPeriod)
    (f : FundingGoalPeriod → FundingGoalPeriod) : SameLog db (db.upsertPeriod row f) := by
  unfold Database.upsertPeriod
  split <;> exact ⟨rfl, rfl⟩

theorem upsertUser_sameLog (db : Database) (address : Address) :
    SameLog db (db.upsertUser address).1 := by
  unfold Database.upsertUser
  split <;> exact ⟨rfl, rfl⟩

theorem executeReservation_sameLog (db : Database) (payoutId : Id) (txHash : Hash)
    (occurredAt : Time) : SameLog db (executeReservation db payoutId txHash occurredAt) := by
  rcases executeReservation_cases db payoutId txHash occurredAt with
    ⟨heq, -⟩ | ⟨intent, -, -, heq⟩ | ⟨intent, proposal, -, -, -, heq⟩ <;>
    rw [heq] <;> exact ⟨rfl, rfl⟩

theorem handleGoalCreated_sameLog {goalId : Hash} {creator recipient : Address}
    {preTarget usdcTarget deadline : ℕ} {title description metadataURI : Text}
    {r : Option MetadataRefresh} (h : handleGoalCreated config ext event goalId creator recipient
      preTarget usdcTarget deadline title description metadataURI db = .ok (db', r)) :
    SameLog db db' := by
  obtain ⟨deadline', occurredAt, db₁, id, -, -, hup, rfl, -⟩ := handleGoalCreated_ok.1 h
  obtain ⟨expenses, heq⟩ := publishDraft_eq db₁ (db.draft? goalId)
  rw [heq]
  rcases upsertGoal_ok.1 hup with ⟨-, ⟨goal, -, rfl, -⟩ | ⟨-, rfl, -⟩⟩ <;> exact ⟨rfl, rfl⟩

/-- **An event of a goal** changes neither the events nor the checkpoint. -/
theorem handleGoalEvent_sameLog (h : handleGoalEvent config event goal db = .ok db') :
    SameLog db db' := by
  obtain ⟨event, blockNumber, blockHash, blockTimestamp, txHash, logIndex⟩ := event
  unfold handleGoalEvent at h
  cases event with
  | monthlyGoalCreated =>
    simp only [handleMonthlyGoalCreated, guard_ok, bind_ok, pure_ok] at h
    obtain ⟨-, policy, -, startsAt, -, endsAt, -, rfl⟩ := h
    have hupsert := upsertPeriod_sameLog
    exact SameLog.trans ⟨rfl, rfl⟩ (hupsert _ _ _)
  | contributionReceived =>
    simp only [handleContributionReceived, guard_ok, bind_ok] at h
    obtain ⟨asset, -, confirmedAt, -, -, h⟩ := h
    have hfirst := upsertUser_sameLog db
    split_ifs at h
    · split at h
      · simp [throw_ok] at h
      · obtain rfl := pure_ok.1 h
        exact hfirst _
    · obtain rfl := pure_ok.1 h
      exact hfirst _
  | monthlySurplusPolicyUpdated =>
    simp only [handleMonthlySurplusPolicyUpdated, bind_ok] at h
    obtain ⟨policy, -, h⟩ := h
    obtain ⟨proposals, rfl⟩ := confirmSafeGoalAction_ok h
    exact ⟨rfl, rfl⟩
  | monthlyGoalStopRequested =>
    simp only [handleMonthlyGoalStopRequested, bind_ok] at h
    obtain ⟨occurredAt, -, h⟩ := h
    obtain ⟨proposals, rfl⟩ := confirmSafeGoalAction_ok h
    exact ⟨rfl, rfl⟩
  | monthlyPeriodSettled _ _ _ _ _ finalPeriod =>
    simp only [handleMonthlyPeriodSettled] at h
    split at h
    · simp [throw_ok] at h
    simp only [guard_ok, bind_ok] at h
    obtain ⟨-, policy, -, startsAt, -, endsAt, -, occurredAt, -, nextEnd, -, h⟩ := h
    have hfirst := upsertPeriod_sameLog db
    split_ifs at h
    · obtain rfl := pure_ok.1 h
      exact hfirst _ _
    · obtain rfl := pure_ok.1 h
      exact (hfirst _ _).trans (upsertPeriod_sameLog _ _ _)
  | monthlyTokenSettled =>
    simp only [handleMonthlyTokenSettled, guard_ok, bind_ok, pure_ok] at h
    obtain ⟨asset, -, -, rfl⟩ := h
    exact ⟨rfl, rfl⟩
  | goalClosed =>
    simp only [handleGoalClosed, bind_ok, pure_ok] at h
    obtain ⟨occurredAt, -, rfl⟩ := h
    exact ⟨rfl, rfl⟩
  | goalCancelled =>
    simp only [handleGoalCancelled, bind_ok, pure_ok] at h
    obtain ⟨occurredAt, -, rfl⟩ := h
    exact ⟨rfl, rfl⟩
  | monthlyGoalCancelled =>
    obtain ⟨proposals, rfl⟩ := confirmSafeGoalAction_ok h
    exact ⟨rfl, rfl⟩
  | expenseReleased | cancelledFundsReleased =>
    obtain ⟨asset, occurredAt, -, ⟨reserved, -, -, rfl⟩ | ⟨payout, -, -, rfl⟩⟩ :=
      handleReleased_ok h
    · exact SameLog.trans ⟨rfl, rfl⟩ (executeReservation_sameLog _ _ _ _)
    · exact ⟨rfl, rfl⟩
  | _ =>
    obtain rfl := Except.ok.inj h
    exact ⟨rfl, rfl⟩

theorem handled_sameLog (h : Handled config ext event db db') : SameLog db db' := by
  cases h with
  | contract => exact ⟨rfl, rfl⟩
  | created _ hcreated => exact handleGoalCreated_sameLog hcreated
  | goal _ _ _ hhandled => exact handleGoalEvent_sameLog hhandled

/-- **A projection** appends its event, and leaves the checkpoint. -/
theorem projectLog_log {r : Bool × Option MetadataRefresh}
    (h : projectLog config ext event db = .ok (db', r)) :
    (db' = db ∧ db.events.any (event.row config).sameKey = true) ∨
      (db.events.any (event.row config).sameKey = false ∧
        db'.events = db.events ++ [event.row config] ∧ db'.indexers = db.indexers) := by
  unfold projectLog claimChainEvent at h
  cases hseen : db.events.any (event.row config).sameKey with
  | true =>
    rw [hseen, if_pos rfl] at h
    exact .inl ⟨(Prod.mk.inj (Except.ok.inj h)).1.symm, rfl⟩
  | false =>
    rw [hseen, if_neg Bool.false_ne_true] at h
    simp only at h
    cases hhandled : handleDecodedEscrowEvent config ext event
        { db with events := db.events ++ [event.row config] } with
    | error e => simp [hhandled, Except.map] at h
    | ok r' =>
      rw [hhandled] at h
      obtain ⟨rfl, -⟩ := Prod.mk.inj (Except.ok.inj h)
      have hsame := handled_sameLog (handled_of_ok hhandled)
      exact .inr ⟨rfl, hsame.1, hsame.2⟩

/-! ### The contract -/

/-- The contract's log at every block: a block's hash fixes it. -/
structure EscrowContract (F : Chain.Forest Hash) where
  logs : Hash → List EscrowLog
  placed (h : Hash) : ∀ log ∈ logs h, log.blockNumber = F.number h ∧ log.blockHash = h
  ordered (h : Hash) : (logs h).Pairwise fun a b => a.logIndex < b.logIndex
  /-- A transaction is mined once on a branch. -/
  mined (h : Hash) (n : ℕ) : n < F.number h → ∀ a ∈ logs h, ∀ b ∈ logs (F.ancestor h n),
    a.txHash ≠ b.txHash

namespace EscrowContract

variable {F : Chain.Forest Hash} (C : EscrowContract F)

/-- The logs of the blocks `first` to `last` on the branch of `tip`. -/
def branch (tip : Hash) (first last : ℕ) : List EscrowLog :=
  (List.range' first (last + 1 - first)).flatMap fun n => C.logs (F.ancestor tip n)

variable {C} {tip : Hash} {first last : ℕ} {log : EscrowLog}

theorem mem_branch : log ∈ C.branch tip first last ↔
    ∃ n, first ≤ n ∧ n ≤ last ∧ log ∈ C.logs (F.ancestor tip n) := by
  simp only [branch, List.mem_flatMap, List.mem_range'_1]
  constructor
  · rintro ⟨n, ⟨hfirst, hlast⟩, hmem⟩
    exact ⟨n, hfirst, by omega, hmem⟩
  · rintro ⟨n, hfirst, hlast, hmem⟩
    exact ⟨n, ⟨hfirst, by omega⟩, hmem⟩

/-- **Two logs with one key** on a branch are one log. -/
theorem eq_of_key {a b : EscrowLog} {n m : ℕ} (hn : n ≤ F.number tip) (hm : m ≤ F.number tip)
    (ha : a ∈ C.logs (F.ancestor tip n)) (hb : b ∈ C.logs (F.ancestor tip m))
    (htx : a.txHash = b.txHash) (hindex : a.logIndex = b.logIndex) : a = b := by
  rcases Nat.lt_trichotomy n m with hlt | rfl | hlt
  · rw [← Chain.Forest.ancestor_ancestor (Nat.le_of_lt hlt) hm] at ha
    refine absurd htx.symm (C.mined _ n ?_ b hb a ha)
    rwa [Chain.Forest.number_ancestor hm]
  · by_contra hne
    have hsymm : Std.Symm fun a b : EscrowLog => a.logIndex ≠ b.logIndex := ⟨fun _ _ => Ne.symm⟩
    have hpairs : (C.logs (F.ancestor tip n)).Pairwise fun a b => a.logIndex ≠ b.logIndex :=
      (C.ordered _).imp fun hlt => Nat.ne_of_lt hlt
    exact hpairs.forall ha hb hne hindex
  · rw [← Chain.Forest.ancestor_ancestor (Nat.le_of_lt hlt) hn] at hb
    refine absurd htx (C.mined _ m ?_ a ha b hb)
    rwa [Chain.Forest.number_ancestor hn]

end EscrowContract

/-! ### The pass -/

/-- The stored checkpoint. -/
def Database.checkpoint? (config : Deployment) (db : Database) : Option IndexerState :=
  db.indexers.find? fun row => row.key = config.stateKey

/-- The first block that is not indexed. -/
def Database.nextBlock (config : Deployment) (db : Database) : ℕ :=
  ((db.checkpoint? config).map (·.lastBlockNumber + 1)).getD config.deploymentBlock

/-- The row of `ChainEvent` for a log; the time of the block is not in it. -/
def EscrowLog.row (config : Deployment) (log : EscrowLog) : ChainEvent := (log.decoded 0).row config

/-- The checkpoint of the deployment is one of its chain. -/
def OwnCheckpoint (config : Deployment) (db : Database) : Prop :=
  ∀ row ∈ db.indexers, row.key = config.stateKey → row.chainId = config.chainId

/-- **The transactions of a pass**, given what it was told before. -/
inductive IndexWrite (config : Deployment) (ext : External) : Log → Database → Database → Prop where
  | elsewhere {h : Log} {db db' : Database} : SameLog db db' → IndexWrite config ext h db db'
  /-- A log of the range is projected. -/
  | log {h : Log} {db db' : Database} {w₀ : World} {first last timestamp : ℕ}
      {logs : List EscrowLog} {log : EscrowLog} {r : Bool × Option MetadataRefresh} :
      .asked w₀ (.contractEvents first last) (.ok logs) ∈ h → log ∈ logs →
      log.event.malformedProfile = false → db.nextBlock config = first →
      projectLog config ext (log.decoded timestamp) db = .ok (db', r) →
      IndexWrite config ext h db db'
  /-- Every log of the range has been projected since the logs were read, and then the last block
  of the range has been read. -/
  | checkpoint {h : Log} {db : Database} {w₀ w₁ : World} {first last : ℕ} {logs : List EscrowLog}
      {header : BlockHeader} :
      .asked w₀ (.contractEvents first last) (.ok logs) ∈ h → first ≤ last →
      w₀.db.nextBlock config = first → db.indexers = w₀.db.indexers →
      (∀ row ∈ db.events, row ∈ w₀.db.events ∨
        ∃ log ∈ logs, log.event.malformedProfile = false ∧ row = log.row config) →
      (∀ log ∈ logs, log.event.malformedProfile = false →
        db.events.any (log.row config).sameKey = true) →
      IndexWrite config ext (.asked w₁ (.block last) (.ok header) :: h) db
        (storeCheckpoint config last header.hash db)
  | rebuild {h : Log} {db : Database} :
      IndexWrite config ext h db (resetChainProjection config db)

/-- The discipline of a pass: nobody else writes the events and the checkpoint. -/
def indexDiscipline (O : Outside) : Discipline World Reply Failure where
  inv w := OwnCheckpoint O.config w.db
  rely w w' := SameLog w.db w'.db
  answers := O.answers
  guar h w w' := w'.chain = w.chain ∧ IndexWrite O.config O.ext h w.db w'.db
  asks _ _ _ := True
  rely_refl _ := ⟨rfl, rfl⟩
  rely_trans h h' := h.trans h'
  guar_refl _ _ := ⟨rfl, .elsewhere ⟨rfl, rfl⟩⟩

theorem nextBlock_congr (h : db'.indexers = db.indexers) :
    db'.nextBlock config = db.nextBlock config := by
  rw [Database.nextBlock, Database.nextBlock, Database.checkpoint?, Database.checkpoint?, h]

theorem find?_storeCheckpoint (config : Deployment) (number : ℕ) (hash : Hash) (db : Database) :
    ∃ state, (storeCheckpoint config number hash db).checkpoint? config = some state ∧
      state.lastBlockNumber = number ∧ state.lastBlockHash = hash := by
  unfold storeCheckpoint Database.checkpoint?
  split_ifs with hany
  · obtain ⟨row, hrow, hkey⟩ := List.any_eq_true.1 hany
    obtain ⟨state, hstate⟩ : ∃ state, db.indexers.find? (fun row => row.key = config.stateKey) =
        some state := Option.isSome_iff_exists.1 (List.find?_isSome.2 ⟨row, hrow, hkey⟩)
    have hfind : (updateWhere (fun row => decide (row.key = config.stateKey))
        (fun row : IndexerState =>
          { row with lastBlockNumber := number, lastBlockHash := hash }) db.indexers).find?
          (fun row => row.key = config.stateKey) =
        some { state with lastBlockNumber := number, lastBlockHash := hash } := by
      refine (find?_updateWhere ?_).trans ?_
      · exact fun _ => rfl
      · rw [hstate]
        rfl
    exact ⟨_, hfind, rfl, rfl⟩
  · have hnone : db.indexers.find? (fun row => row.key = config.stateKey) = none :=
      List.find?_eq_none.2 fun row hrow hkey => hany (List.any_eq_true.2 ⟨row, hrow, hkey⟩)
    dsimp only
    rw [List.find?_append, hnone, Option.none_or]
    exact ⟨_, List.find?_cons_of_pos (decide_eq_true rfl), rfl, rfl⟩

theorem nextBlock_storeCheckpoint (number : ℕ) (hash : Hash) (db : Database) :
    (storeCheckpoint config number hash db).nextBlock config = number + 1 := by
  obtain ⟨state, hstate, hnumber, -⟩ := find?_storeCheckpoint config number hash db
  rw [Database.nextBlock, hstate, Option.map_some, hnumber]
  rfl

theorem ownCheckpoint_storeCheckpoint (h : OwnCheckpoint config db) (number : ℕ) (hash : Hash) :
    OwnCheckpoint config (storeCheckpoint config number hash db) := by
  unfold storeCheckpoint
  split_ifs with hany
  · intro row hrow hkey
    rcases mem_updateWhere_cases hrow with ⟨hold, -⟩ | ⟨old, hold, hmatch, rfl⟩
    · exact h row hold hkey
    · exact h old hold (of_decide_eq_true hmatch)
  · intro row hrow hkey
    rcases List.mem_append.1 hrow with hold | hnew
    · exact h row hold hkey
    · rw [List.mem_singleton.1 hnew]

/-- A reset removes the checkpoint. -/
theorem checkpoint?_reset (h : OwnCheckpoint config db) :
    (resetChainProjection config db).checkpoint? config = none := by
  refine List.find?_eq_none.2 fun row hrow hkey => ?_
  obtain ⟨hmem, hchain⟩ := List.mem_filter.1 hrow
  exact of_decide_eq_true hchain (h row hmem (of_decide_eq_true hkey))

theorem IndexWrite.ownCheckpoint {h : Log} (hdb : OwnCheckpoint config db)
    (hw : IndexWrite config ext h db db') : OwnCheckpoint config db' := by
  cases hw with
  | elsewhere hsame => rwa [OwnCheckpoint, hsame.2]
  | log _ _ _ _ hproject =>
    rcases projectLog_log hproject with ⟨rfl, -⟩ | ⟨-, -, hindexers⟩
    · exact hdb
    · rwa [OwnCheckpoint, hindexers]
  | checkpoint => exact ownCheckpoint_storeCheckpoint hdb _ _
  | rebuild => exact fun row hrow hkey => hdb row (List.mem_filter.1 hrow).1 hkey

section

variable {O : Outside} {first last : ℕ} {logs past : List EscrowLog} {v : Sight}
  {E : Failure → Sight → Prop}

/-- The logs of a range are being projected: those of `past` have been. -/
def Ranging (O : Outside) (first last : ℕ) (logs past : List EscrowLog) (v : Sight) : Prop :=
  ∃ w₀, .asked w₀ (.contractEvents first last) (.ok logs) ∈ v.hist ∧
    w₀.db.nextBlock O.config = first ∧ v.shared.db.indexers = w₀.db.indexers ∧
    (∀ row ∈ v.shared.db.events, row ∈ w₀.db.events ∨
      ∃ log ∈ logs, log.event.malformedProfile = false ∧ row = log.row O.config) ∧
    ∀ log ∈ past, log.event.malformedProfile = false →
      v.shared.db.events.any (log.row O.config).sameKey = true

theorem Ranging.step (hv : Ranging O first last logs past v) (e : Event World Reply Failure)
    {w : World} (hsame : SameLog v.shared.db w.db) :
    Ranging O first last logs past ⟨v.memory, e :: v.hist, w⟩ := by
  obtain ⟨w₀, hasked, hnext, hindexers, hrows, hpast⟩ := hv
  refine ⟨w₀, List.mem_cons_of_mem _ hasked, hnext, hsame.2.trans hindexers, ?_, ?_⟩
  · intro row hrow
    exact hrows row (hsame.1 ▸ hrow)
  · intro log hlog hwell
    show w.db.events.any _ = true
    rw [hsame.1]
    exact hpast log hlog hwell

/-- Ask while the range is being projected. -/
theorem ranging_ask (hv : Ranging O first last logs past v) {q : Query}
    {Q : Reply q → Sight → Prop}
    (hQ : ∀ r w, Ranging O first last logs past (v.asked w q (.ok r)) → Q r (v.asked w q (.ok r)))
    (hE : ∀ e v', Ranging O first last logs past v' → E e v') :
    Routine.wp (indexDiscipline O) (ask q) Q E v :=
  Routine.wp_ask fun w hrely _ => ⟨trivial, fun r _ => hQ r w (hv.step _ hrely),
    fun e _ => hE e _ (hv.step _ hrely)⟩

/-- A transaction that leaves the events and the checkpoint. -/
theorem ranging_elsewhere (hv : Ranging O first last logs past v)
    {t : Database → Except Failure Database} (ht : ∀ db db', t db = .ok db' → SameLog db db')
    {Q : Unit → Sight → Prop} (hQ : ∀ v', Ranging O first last logs past v' → Q () v')
    (hE : ∀ e v', Ranging O first last logs past v' → E e v') :
    Routine.wp (indexDiscipline O) (transaction t) Q E v := by
  refine wp_transaction (fun w hrely _ => hE _ _ (hv.step _ hrely)) ?_
    fun w e hrely _ _ => hE _ _ (hv.step _ hrely)
  intro w db hrely _ hok
  have hsame : SameLog w.db db := ht _ _ hok
  have hthen := hv.step (w := w.withDb db) (.ran w (w.withDb db)) (SameLog.trans hrely hsame)
  exact ⟨⟨rfl, .elsewhere hsame⟩, hQ _ hthen, hE _ _ hthen⟩

theorem setMetadata_sameLog {goalId : Id} {status : MetadataStatus} {metadata : Option Text}
    (h : setMetadata goalId status metadata db = .ok db') : SameLog db db' := by
  unfold setMetadata at h
  split_ifs at h
  obtain rfl := Except.ok.inj h
  exact ⟨rfl, rfl⟩

/-- Metadata are no part of the log. -/
theorem ranging_metadata (hv : Ranging O first last logs past v) (refresh : MetadataRefresh)
    {Q : Unit → Sight → Prop} (hQ : ∀ v', Ranging O first last logs past v' → Q () v')
    (hE : ∀ e v', Ranging O first last logs past v' → E e v') :
    Routine.wp (indexDiscipline O) (refreshGoalMetadata O.ext refresh) Q E v := by
  have hset : ∀ {v : Sight} (status : MetadataStatus) (metadata : Option Text)
      (E : Failure → Sight → Prop), Ranging O first last logs past v →
      (∀ e v', Ranging O first last logs past v' → E e v') →
      Routine.wp (indexDiscipline O) (transaction (setMetadata refresh.goalId status metadata)) Q E
        v :=
    fun _ _ _ hv hE => ranging_elsewhere hv (fun _ _ => setMetadata_sameLog) hQ hE
  unfold refreshGoalMetadata
  refine Routine.wp_ite (fun _ => hset _ _ _ hv hE) fun _ => ?_
  refine Routine.wp_ite (fun _ => hset _ _ _ hv hE) fun _ => ?_
  refine (Routine.wp_tryCatch _ _).2 ((Routine.wp_bind _ _).2 (ranging_ask hv ?_ ?_))
  · intro r w hv'
    cases r with
    | none => exact hset _ _ _ hv' fun e v'' hv'' => hset _ _ _ hv'' hE
    | some text => exact hset _ _ _ hv' fun e v'' hv'' => hset _ _ _ hv'' hE
  · exact fun e v' hv' => hset _ _ _ hv' hE

theorem ranging_block (hv : Ranging O first last logs past v) (number : ℕ) (blocks : BlockCache)
    {Q : BlockHeader × BlockCache → Sight → Prop}
    (hQ : ∀ r v', Ranging O first last logs past v' → Q r v')
    (hE : ∀ e v', Ranging O first last logs past v' → E e v') :
    Routine.wp (indexDiscipline O) (cachedBlock number blocks) Q E v := by
  unfold cachedBlock
  cases blocks.find? fun entry => entry.1 = number with
  | some entry => exact hQ _ _ hv
  | none => exact (Routine.wp_bind _ _).2 (ranging_ask hv (fun r w hv' => hQ _ _ hv') hE)

/-- **A log** of the range is projected, or has been. -/
theorem ranging_log {log : EscrowLog} (hlog : log ∈ logs) (blocks : BlockCache)
    (hv : Ranging O first last logs past v) {Q : BlockCache → Sight → Prop}
    (hQ : ∀ r v', Ranging O first last logs (past ++ [log]) v' → Q r v') :
    Routine.wp (indexDiscipline O) (indexLog O.config O.ext log blocks) Q (fun _ _ => True) v := by
  unfold indexLog
  refine Routine.wp_ite (fun hmalformed => hQ _ _ ?_) fun hwell => ?_
  · obtain ⟨w₀, hasked, hnext, hindexers, hrows, hpast⟩ := hv
    refine ⟨w₀, hasked, hnext, hindexers, hrows, fun other hother hwell => ?_⟩
    rcases List.mem_append.1 hother with hold | hnew
    · exact hpast other hold hwell
    · rw [List.mem_singleton.1 hnew, hmalformed] at hwell
      cases hwell
  refine (Routine.wp_bind _ _).2 (ranging_block hv _ _ ?_ fun _ _ _ => trivial)
  rintro ⟨block, blocks'⟩ v₁ hv₁
  refine (Routine.wp_bind _ _).2
    (wp_transactionOf (fun _ _ _ => trivial) ?_ fun _ _ _ _ _ => trivial)
  rintro w db r hrely - hproject
  have hwell := Bool.eq_false_of_not_eq_true hwell
  obtain ⟨w₀, hasked, hnext, hindexers, hrows, hpast⟩ := hv₁.step (.ran w w) hrely
  -- the row of the log is there now, or one with its key was before
  have hthen : Ranging O first last logs (past ++ [log]) (v₁.ran w (w.withDb db)) := by
    have hkept : w.db.events ⊆ db.events ∧ db.indexers = w.db.indexers ∧
        (∀ row ∈ db.events, row ∈ w.db.events ∨ row = log.row O.config) ∧
        db.events.any (log.row O.config).sameKey = true := by
      rcases projectLog_log hproject with ⟨rfl, hseen⟩ | ⟨-, hevents, hsame⟩
      · exact ⟨fun _ h => h, rfl, fun _ h => .inl h, hseen⟩
      · refine ⟨?_, hsame, ?_, ?_⟩
        · rw [hevents]
          exact List.subset_append_left _ _
        · intro row hrow
          rw [hevents] at hrow
          exact (List.mem_append.1 hrow).imp_right List.mem_singleton.1
        · rw [hevents]
          exact List.any_eq_true.2 ⟨log.row O.config, List.mem_append_right _ (.head _),
            decide_eq_true ⟨rfl, rfl, rfl⟩⟩
    obtain ⟨hsub, hsame, hnew, hseen⟩ := hkept
    refine ⟨w₀, List.mem_cons_of_mem _ ((List.mem_cons.1 hasked).resolve_left nofun), hnext,
      hsame.trans hindexers, ?_, ?_⟩
    · intro row hrow
      rcases hnew row hrow with hold | rfl
      · exact hrows row hold
      · exact .inr ⟨log, hlog, hwell, rfl⟩
    · intro other hother hotherWell
      rcases List.mem_append.1 hother with hold | hlast
      · obtain ⟨row, hrow, hkey⟩ := List.any_eq_true.1 (hpast other hold hotherWell)
        exact List.any_eq_true.2 ⟨row, hsub hrow, hkey⟩
      · rw [List.mem_singleton.1 hlast]
        exact hseen
  refine ⟨⟨rfl, ?_⟩, ?_, trivial⟩
  · refine .log ((List.mem_cons.1 hasked).resolve_left nofun) hlog hwell ?_ hproject
    exact (nextBlock_congr hindexers).trans hnext
  · obtain ⟨claimed, refresh⟩ := r
    cases refresh with
    | none => exact hQ _ _ hthen
    | some refresh =>
      refine (Routine.wp_bind _ _).2 (ranging_metadata hthen refresh ?_ fun _ _ _ => trivial)
      exact fun v' hv' => hQ _ _ hv'

/-- All logs of the range are projected. -/
theorem ranging_logs {rest : List EscrowLog} (hrest : ∀ log ∈ rest, log ∈ logs)
    (blocks : BlockCache) (hv : Ranging O first last logs past v) {Q : Unit → Sight → Prop}
    (hQ : ∀ v', Ranging O first last logs (past ++ rest) v' → Q () v') :
    Routine.wp (indexDiscipline O) (indexLogs O.config O.ext rest blocks) Q (fun _ _ => True)
      v := by
  induction rest generalizing past blocks v with
  | nil =>
    rw [List.append_nil] at hQ
    exact hQ _ hv
  | cons log rest ih =>
    rw [indexLogs]
    refine (Routine.wp_bind _ _).2 (ranging_log (hrest log (.head _)) blocks hv ?_)
    intro blocks' v' hv'
    refine ih (fun other hother => hrest other (.tail _ hother)) blocks' hv' ?_
    rwa [List.append_assoc]

/-- **A range** is projected and its checkpoint stored, with the hash of a block that is read when
all of its logs are there. -/
theorem wp_indexRange (hle : first ≤ last) (hnext : v.shared.db.nextBlock O.config = first)
    {Q : Unit → Sight → Prop}
    (hQ : ∀ v', v'.shared.db.nextBlock O.config = last + 1 → Q () v') :
    Routine.wp (indexDiscipline O) (indexRange O.config O.ext first last) Q (fun _ _ => True)
      v := by
  unfold indexRange
  refine (Routine.wp_bind _ _).2 (Routine.wp_ask fun w hrely _ => ⟨trivial,
    fun (logs : List EscrowLog) _ => ?_, fun _ _ => trivial⟩)
  have hstart : Ranging O first last logs [] (v.asked w (.contractEvents first last) (.ok logs)) :=
    ⟨w, .head _, (nextBlock_congr hrely.2).trans hnext, rfl, fun row hrow => .inl hrow,
      fun log hlog => absurd hlog List.not_mem_nil⟩
  have hsorted : ∀ log ∈ List.insertionSort (fun a b : EscrowLog => a.le b) logs, log ∈ logs :=
    fun log hlog => (List.mem_insertionSort _).1 hlog
  refine (Routine.wp_bind _ _).2 (ranging_logs hsorted [] hstart fun v₁ hv₁ => ?_)
  refine (Routine.wp_bind _ _).2 (Routine.wp_ask fun w₁ hrely₁ _ => ⟨trivial,
    fun (header : BlockHeader) _ => ?_, fun _ _ => trivial⟩)
  refine wp_transaction (fun _ _ _ => trivial) ?_ fun _ _ _ _ _ => trivial
  intro w₂ db hrely _ hok
  obtain rfl := Except.ok.inj hok
  obtain ⟨w₀, hasked, hnext₀, hindexers, hrows, hpast⟩ :=
    hv₁.step (.ran w₂ w₂) (SameLog.trans hrely₁ hrely)
  have hasked : .asked w₀ (.contractEvents first last) (.ok logs) ∈ v₁.hist := by
    simpa using hasked
  refine ⟨⟨rfl, ?_⟩, hQ _ (nextBlock_storeCheckpoint _ _ _), trivial⟩
  refine .checkpoint hasked hle hnext₀ hindexers hrows fun log hlog hwell => hpast log ?_ hwell
  exact (List.mem_insertionSort _).2 hlog

/-- **The ranges** follow each other. -/
theorem wp_indexRanges {safeHead : ℕ} (blocks start : ℕ)
    (hnext : start ≤ safeHead → v.shared.db.nextBlock O.config = start) :
    Routine.wp (indexDiscipline O) (indexRanges O.config O.ext safeHead blocks start)
      (fun _ _ => True) (fun _ _ => True) v := by
  induction blocks generalizing start v with
  | zero => trivial
  | succ blocks ih =>
    rw [indexRanges]
    refine Routine.wp_ite (fun _ => trivial) fun hstart => ?_
    have hstart : start ≤ safeHead := Nat.le_of_not_lt hstart
    have hrange : 0 < indexerLogBlockRange := by decide
    refine (Routine.wp_bind _ _).2 (wp_indexRange (by omega) (hnext hstart) fun v' hv' => ?_)
    exact ih _ fun hle => by omega

/-- The first block that is not indexed, by a checkpoint that was read. -/
def nextOf (config : Deployment) (state : Option IndexerState) : ℕ :=
  (state.map (·.lastBlockNumber + 1)).getD config.deploymentBlock

/-- **The checkpoint** is canonical, or the projection is reset. -/
theorem wp_canonicalState {Q : Option IndexerState → Sight → Prop}
    (hQ : ∀ state v', v'.shared.db.nextBlock O.config = nextOf O.config state → Q state v') :
    Routine.wp (indexDiscipline O) (canonicalState O.config) Q (fun _ _ => True) v := by
  unfold canonicalState
  refine (Routine.wp_bind _ _).2 (wp_select fun w hrely hinv => ⟨?_, trivial⟩)
  cases hstate : w.db.indexers.find? fun row => row.key = O.config.stateKey with
  | none => exact hQ _ _ (congrArg (nextOf O.config) hstate)
  | some state =>
    refine (Routine.wp_bind _ _).2 (Routine.wp_ask fun w₁ hrely₁ _ => ⟨trivial,
      fun canonical _ => ?_, fun _ _ => trivial⟩)
    refine Routine.wp_ite (fun _ => ?_) fun _ => hQ _ _ ?_
    · refine (Routine.wp_bind _ _).2 (wp_transaction (fun _ _ _ => trivial) ?_
        fun _ _ _ _ _ => trivial)
      intro w₂ db _ hown hok
      obtain rfl := Except.ok.inj hok
      refine ⟨⟨rfl, .rebuild⟩, hQ _ _ ?_, trivial⟩
      exact congrArg (nextOf O.config) (checkpoint?_reset hown)
    · exact (nextBlock_congr hrely₁.2).trans (congrArg (nextOf O.config) hstate)

/-- **A pass** keeps to the discipline. -/
theorem wp_indexEscrow : Routine.wp (indexDiscipline O) (indexEscrow O.config O.ext)
    (fun _ _ => True) (fun _ _ => True) v := by
  have hask : ∀ {α : Type} (q : Query) (f : Reply q → Worker α) (v : Sight),
      (∀ r v', Routine.wp (indexDiscipline O) (f r) (fun _ _ => True) (fun _ _ => True) v') →
      Routine.wp (indexDiscipline O) (ask q >>= f) (fun _ _ => True) (fun _ _ => True) v :=
    fun q f v hf => (Routine.wp_bind _ _).2 (Routine.wp_ask fun w _ _ =>
      ⟨trivial, fun r _ => hf r _, fun _ _ => trivial⟩)
  unfold indexEscrow
  refine hask _ _ _ fun _ v₁ => hask _ _ _ fun (head : ℕ) v₂ => ?_
  cases confirmedHead O.config head with
  | none => trivial
  | some safeHead =>
    refine (Routine.wp_bind _ _).2 (wp_canonicalState fun state v₃ hv₃ => ?_)
    refine Routine.wp_ite (fun _ => trivial) fun _ => ?_
    refine (Routine.wp_bind _ _).2 (Routine.wp_mono (wp_indexRanges _ _ fun _ => ?_)
      (fun _ _ _ => trivial) fun _ _ _ => trivial)
    rw [hv₃]
    cases state <;> rfl

end

end

end Escrow

end PreCommunity
