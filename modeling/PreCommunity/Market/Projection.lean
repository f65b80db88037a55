import Mathlib.Data.List.Induction
import PreCommunity.Market.Contract

/-!
# The projection of the contract's log

The indexer stores a checkpoint, the logs up to it, and the positions these logs add up to.  Every
chunk is read while one block is canonical, so what is stored is always the log of *one* branch,
the branch of the checkpoint, whatever the chain does meanwhile.

* `Contract.upTo` : the logs up to a checkpoint.
* `positionAt` : the position that a list of logs adds up to.
* `Projected` : the stored tables are the projection of the branch of the checkpoint.
* `IndexWrite.projected` : every write of an index pass keeps it so.
* `projection_canonical` : the projection equals the canonical log.
-/

namespace PreCommunity

namespace Market

open Store Concurrent

/-! ### Folding logs -/

/-- The position of a staker on a keyword after some logs. -/
def positionAt (identity : Identity) (keywordId : Hash) (staker : Address)
    (logs : List IndexedLog) : Option StakePosition :=
  (logs.filterMap IndexedLog.position?).foldl (fun current log =>
    if log.args.keywordId = keywordId ∧ log.args.staker = staker then
      some (projectPosition identity log current)
    else current) none

section Fold

variable {identity identity' : Identity} {keywordId : Hash} {staker : Address}
  {logs old : List IndexedLog} {rows : List StakePosition} {log : Placed PositionChanged}

theorem positionAt_position : positionAt identity keywordId staker (old ++ [.position log]) =
    if log.args.keywordId = keywordId ∧ log.args.staker = staker then
      some (projectPosition identity log (positionAt identity keywordId staker old))
    else positionAt identity keywordId staker old := by
  have hsome : [IndexedLog.position log].filterMap IndexedLog.position? = [log] := rfl
  simp [positionAt, hsome]

theorem positionAt_charge {log : Placed StakeCharged} :
    positionAt identity keywordId staker (old ++ [.charge log]) =
      positionAt identity keywordId staker old := by
  have hnone : [IndexedLog.charge log].filterMap IndexedLog.position? = [] := rfl
  simp [positionAt, hnone]

/-- A position is as old as one of its logs. -/
theorem positionAt_place {row : StakePosition}
    (h : positionAt identity keywordId staker old = some row) :
    ∃ log ∈ old, log.place = (row.positionBlock, row.positionLogIndex) := by
  induction old using List.reverseRecOn with
  | nil => cases h
  | append_singleton old log ih =>
    cases log with
    | charge log =>
      rw [positionAt_charge] at h
      obtain ⟨log', hmem, hplace⟩ := ih h
      exact ⟨log', List.mem_append_left _ hmem, hplace⟩
    | position log =>
      rw [positionAt_position] at h
      split_ifs at h with hkey
      · obtain rfl := Option.some.inj h
        exact ⟨.position log, by simp, rfl⟩
      · obtain ⟨log', hmem, hplace⟩ := ih h
        exact ⟨log', List.mem_append_left _ hmem, hplace⟩

@[simp] theorem isOf_projectPosition {current : Option StakePosition} :
    (projectPosition identity log current).isOf identity' keywordId staker =
      decide (identity = identity' ∧ log.args.keywordId = keywordId ∧
        log.args.staker = staker) := rfl

/-- A position change touches one position. -/
theorem filter_applyAdPositionChange
    (hkey : ¬(identity = identity' ∧ log.args.keywordId = keywordId ∧ log.args.staker = staker)) :
    (applyAdPositionChange identity log rows).filter
        (StakePosition.isOf identity' keywordId staker) =
      rows.filter (StakePosition.isOf identity' keywordId staker) := by
  have hother : ∀ row : StakePosition,
      row.isOf identity log.args.keywordId log.args.staker = true →
        row.isOf identity' keywordId staker = false := by
    intro row hrow
    simp only [StakePosition.isOf, decide_eq_true_eq] at hrow
    obtain ⟨rfl, hk, hs⟩ := hrow
    simpa [StakePosition.isOf, hk, hs] using hkey
  cases hfind : rows.find? (StakePosition.isOf identity log.args.keywordId log.args.staker) with
  | none => simp [applyAdPositionChange, hfind, hkey]
  | some current =>
    simp only [applyAdPositionChange, hfind]
    split_ifs
    · have hsame := @filter_updateWhere_map _ _
        (StakePosition.isOf identity log.args.keywordId log.args.staker)
        (fun _ => projectPosition identity log (some current)) rows
        (StakePosition.isOf identity' keywordId staker) id
        (fun row _ hrow => by simp [hother row hrow, hkey])
        (fun row _ hrow hq => by simp [hother row hrow] at hq)
      simpa using hsame
    · rfl

/-- A position change that comes after the stored position replaces it. -/
theorem filter_applyAdPositionChange_self {current : Option StakePosition}
    (hrows : rows.filter (StakePosition.isOf identity log.args.keywordId log.args.staker) =
      current.toList)
    (hafter : ∀ row, current = some row → row.positionBlock < log.blockNumber ∨
      row.positionBlock = log.blockNumber ∧ row.positionLogIndex < log.logIndex) :
    (applyAdPositionChange identity log rows).filter
        (StakePosition.isOf identity log.args.keywordId log.args.staker) =
      [projectPosition identity log current] := by
  have hfind : rows.find? (StakePosition.isOf identity log.args.keywordId log.args.staker) =
      current := by
    rw [← List.head?_filter, hrows]
    cases current <;> rfl
  simp only [applyAdPositionChange, hfind]
  cases current with
  | none => simp [hrows]
  | some row =>
    have hnew : eventAfter log.blockNumber log.logIndex row.positionBlock row.positionLogIndex =
        true := by
      simp only [eventAfter, decide_eq_true_eq]
      obtain hlt | ⟨heq, hlt⟩ := hafter row rfl
      · exact .inl hlt
      · exact .inr ⟨heq.symm, hlt⟩
    simp only [hnew, if_true]
    rw [filter_updateWhere fun _ => by simp, hrows]
    have hrow : row.isOf identity log.args.keywordId log.args.staker = true :=
      List.find?_some hfind
    simp [updateWhere, hrow]

end Fold

/-! ### Applying a chunk -/

section Chunk

variable {identity : Identity} {db : Database} {log : IndexedLog} {logs old : List IndexedLog}

/-- The rows of `AdChainEvent` with the key of the log. -/
theorem sameKey_event {row : ChainEvent} : (log.event identity).sameKey row =
    decide (identity = row.identity ∧ log.key.1 = row.txHash ∧ log.key.2 = row.logIndex) := by
  cases log <;> rfl

@[simp] theorem event_identity : (log.event identity).identity = identity := by
  cases log <;> rfl

/-- A log that is new is recorded. -/
theorem applyLog_new (hnew : ∀ row ∈ db.events, row.identity = identity →
    (row.txHash, row.logIndex) ≠ log.key) :
    (applyLog identity db log).events = db.events ++ [log.event identity] ∧
      (applyLog identity db log).positions = match log with
        | .position log => applyAdPositionChange identity log db.positions
        | .charge _ => db.positions := by
  have hany : db.events.any (log.event identity).sameKey = false := by
    rw [List.any_eq_false]
    intro row hrow hkey
    simp only [sameKey_event, decide_eq_true_eq] at hkey
    exact hnew row hrow hkey.1.symm (by rw [← hkey.2.1, ← hkey.2.2])
  cases log <;> simp [applyLog, hany]

/-- The tables hold exactly these logs of the deployment, and the positions they add up to. -/
structure Holding (identity : Identity) (logs : List IndexedLog) (db : Database) : Prop where
  events : db.events.filter (fun row => row.identity = identity) =
    logs.map (IndexedLog.event identity)
  positions : ∀ keywordId staker,
    db.positions.filter (StakePosition.isOf identity keywordId staker) =
      (positionAt identity keywordId staker logs).toList

/-- One more log of the branch. -/
theorem Holding.applied (hdb : Holding identity old db)
    (hbefore : ∀ log' ∈ old, log'.Before log) (hkeys : ∀ log' ∈ old, log'.key ≠ log.key) :
    Holding identity (old ++ [log]) (applyLog identity db log) := by
  have hnew : ∀ row ∈ db.events, row.identity = identity →
      (row.txHash, row.logIndex) ≠ log.key := by
    intro row hrow hid
    have hmem : row ∈ db.events.filter (fun row => row.identity = identity) := by
      simp [hrow, hid]
    rw [hdb.events] at hmem
    obtain ⟨log', hlog', rfl⟩ := List.mem_map.1 hmem
    have hkey : ((log'.event identity).txHash, (log'.event identity).logIndex) = log'.key := by
      cases log' <;> rfl
    rw [hkey]
    exact hkeys log' hlog'
  obtain ⟨hevents, hpositions⟩ := applyLog_new hnew
  refine ⟨?_, fun keywordId staker => ?_⟩
  · rw [hevents, List.filter_append, hdb.events]
    simp
  · rw [hpositions]
    cases log with
    | charge log => rw [positionAt_charge]; exact hdb.positions keywordId staker
    | position log =>
      rw [positionAt_position]
      split_ifs with hkey
      · obtain ⟨rfl, rfl⟩ := hkey
        refine filter_applyAdPositionChange_self (hdb.positions _ _) fun row hrow => ?_
        obtain ⟨log', hlog', hplace⟩ := positionAt_place hrow
        have hlt := hbefore log' hlog'
        rw [IndexedLog.Before, hplace] at hlt
        exact hlt
      · rw [filter_applyAdPositionChange fun h => hkey h.2]
        exact hdb.positions keywordId staker

/-- The logs of another deployment. -/
theorem Holding.other {identity' : Identity} (hdb : Holding identity' old db)
    (hid : identity ≠ identity') : Holding identity' old (applyLog identity db log) := by
  unfold applyLog
  simp only
  split_ifs
  · exact hdb
  · refine ⟨?_, fun keywordId staker => ?_⟩
    · simp only [List.filter_append, hdb.events]
      simp [hid]
    · cases log with
      | charge log => exact hdb.positions keywordId staker
      | position log =>
        simp only
        rw [filter_applyAdPositionChange fun h => hid h.1]
        exact hdb.positions keywordId staker

/-- All logs of a chunk. -/
theorem Holding.foldl (hdb : Holding identity old db)
    (hbefore : (old ++ logs).Pairwise IndexedLog.Before)
    (hkeys : (old ++ logs).Pairwise fun a b => a.key ≠ b.key) :
    Holding identity (old ++ logs) (logs.foldl (applyLog identity) db) := by
  induction logs generalizing old db with
  | nil => simpa using hdb
  | cons log logs ih =>
    rw [List.foldl_cons, List.append_cons]
    rw [List.append_cons] at hbefore hkeys
    have hlast {R : IndexedLog → IndexedLog → Prop} (h : (old ++ [log] ++ logs).Pairwise R) :
        ∀ log' ∈ old, R log' log := by
      have hfirst := (List.pairwise_append.1 h).1
      exact fun log' hlog' => (List.pairwise_append.1 hfirst).2.2 log' hlog' log (by simp)
    exact ih (hdb.applied (hlast hbefore) (hlast hkeys)) hbefore hkeys

theorem Holding.foldl_other {identity' : Identity} (hdb : Holding identity' old db)
    (hid : identity ≠ identity') :
    Holding identity' old (logs.foldl (applyLog identity) db) := by
  induction logs generalizing db with
  | nil => exact hdb
  | cons log logs ih => exact ih (hdb.other hid)

theorem foldl_applyLog_indexers :
    (logs.foldl (applyLog identity) db).indexers = db.indexers := by
  induction logs generalizing db with
  | nil => rfl
  | cons log logs ih =>
    rw [List.foldl_cons, ih]
    unfold applyLog
    simp only
    split_ifs <;> rfl

end Chunk

/-! ### What is stored -/

/-- The logs up to a checkpoint. -/
def Contract.upTo {F : Chain.Forest Hash} (C : Contract F) (identity : Identity) (first : ℕ) :
    Option AdsCheckpoint → List IndexedLog
  | none => []
  | some checkpoint => C.branch identity checkpoint.lastBlockHash first checkpoint.lastBlockNumber

/-- The row stores this configuration. -/
structure IndexerState.Stores (row : IndexerState) (state : ContractState) : Prop where
  minimumStake : row.minimumStakeRaw = some state.minimumStake
  paused : row.paused = some state.paused
  operator : row.operatorAddress = some state.operator
  priceUpdater : row.priceUpdaterAddress = some state.priceUpdater
  preUsdPriceE18 : row.preUsdPriceE18Raw = some state.preUsdPriceE18
  preUsdPriceQuotedAt : row.preUsdPriceQuotedAt = some state.preUsdPriceQuotedAt

/-- The snapshot is this configuration. -/
structure AdsContractSnapshot.Shows (snapshot : AdsContractSnapshot) (state : ContractState) :
    Prop where
  minimumStake : snapshot.minimumStakeRaw = state.minimumStake
  paused : snapshot.paused = state.paused
  operator : snapshot.operatorAddress = state.operator
  priceUpdater : snapshot.priceUpdaterAddress = state.priceUpdater
  preUsdPriceE18 : snapshot.preUsdPriceE18Raw = state.preUsdPriceE18
  preUsdPriceQuotedAt : snapshot.preUsdPriceQuotedAt = state.preUsdPriceQuotedAt

section

variable {F : Chain.Forest Hash} (C : Contract F) (deployment : Identity → ℕ)

/-- The configuration of the row is no newer than its checkpoint, and the contract's if it is as
new. -/
def IndexerState.Configured (row : IndexerState) : Prop :=
  ∀ n, row.configBlockNumber = some n → n ≤ row.lastBlockNumber ∧
    (n = row.lastBlockNumber → row.Stores (C.state row.identity row.lastBlockHash))

/-- The stored tables are the projection of the branches of the checkpoints. -/
structure Projected (db : Database) : Prop where
  indexers : Keyed IndexerState.identity db.indexers
  rows : ∀ row ∈ db.indexers, F.number row.lastBlockHash = row.lastBlockNumber ∧
    deployment row.identity ≤ row.lastBlockNumber ∧ row.Configured C
  holding : ∀ identity, Holding identity
    (C.upTo identity (deployment identity) (storedCheckpoint db identity)) db

variable {C deployment} {db : Database} {identity : Identity}

theorem storedCheckpoint_some (hkeyed : Keyed IndexerState.identity db.indexers)
    {checkpoint : AdsCheckpoint} : storedCheckpoint db identity = some checkpoint ↔
      ∃ row ∈ db.indexers, row.identity = identity ∧ row.checkpoint = checkpoint := by
  unfold storedCheckpoint
  rw [Option.map_eq_some_iff]
  constructor
  · rintro ⟨row, hfind, rfl⟩
    exact ⟨row, List.mem_of_find?_eq_some hfind, by simpa using List.find?_some hfind, rfl⟩
  · rintro ⟨row, hrow, rfl, rfl⟩
    exact ⟨row, hkeyed.find?_eq hrow, rfl⟩

/-- The checkpoint moves, and the other rows stay. -/
theorem mem_advance {checkpoint : AdsCheckpoint} {snapshot : Option AdsContractSnapshot}
    {now : ℕ} {rows : List IndexerState}
    (hle : ∀ row ∈ rows, row.identity = identity →
      row.lastBlockNumber ≤ checkpoint.lastBlockNumber) {row : IndexerState} :
    row ∈ advanceAdsIndexerState identity checkpoint snapshot now rows ↔
      (row ∈ rows ∧ row.identity ≠ identity) ∨
      (∃ old ∈ rows, old.identity = identity ∧ row = old.advance checkpoint snapshot now) ∨
      ((∀ old ∈ rows, old.identity ≠ identity) ∧
        row = (IndexerState.create identity checkpoint now).withSnapshot snapshot) := by
  unfold advanceAdsIndexerState
  cases hfind : rows.find? (fun row => row.identity = identity) with
  | none =>
    have hnone : ∀ old ∈ rows, old.identity ≠ identity := by simpa using hfind
    simp only [List.mem_append, List.mem_singleton]
    constructor
    · rintro (hrow | rfl)
      · exact .inl ⟨hrow, hnone _ hrow⟩
      · exact .inr (.inr ⟨hnone, rfl⟩)
    · rintro (⟨hrow, -⟩ | ⟨old, hold, hid, -⟩ | ⟨-, rfl⟩)
      · exact .inl hrow
      · exact absurd hid (hnone old hold)
      · exact .inr rfl
  | some current =>
    have hmem := List.mem_of_find?_eq_some hfind
    have hid : current.identity = identity := by simpa using List.find?_some hfind
    have hnot : ¬current.lastBlockNumber > checkpoint.lastBlockNumber :=
      Nat.not_lt.2 (hle current hmem hid)
    simp only [if_neg hnot]
    constructor
    · intro hrow
      obtain ⟨hrow, hp⟩ | ⟨old, hold, hp, rfl⟩ := mem_updateWhere_cases hrow
      · exact .inl ⟨hrow, by simpa using hp⟩
      · exact .inr (.inl ⟨old, hold, by simpa using hp, rfl⟩)
    · rintro (⟨hrow, hid'⟩ | ⟨old, hold, hid', rfl⟩ | ⟨hnone, -⟩)
      · exact mem_updateWhere_of_not hrow (by simpa using hid')
      · exact mem_updateWhere_of hold (by simpa using hid')
      · exact absurd hid (hnone current hmem)

@[simp] theorem withSnapshot_identity {row : IndexerState}
    {snapshot : Option AdsContractSnapshot} :
    (row.withSnapshot snapshot).identity = row.identity := by
  cases snapshot <;> rfl

@[simp] theorem withSnapshot_checkpoint {row : IndexerState}
    {snapshot : Option AdsContractSnapshot} :
    (row.withSnapshot snapshot).checkpoint = row.checkpoint := by
  cases snapshot <;> rfl

@[simp] theorem advance_identity {row : IndexerState} {checkpoint : AdsCheckpoint}
    {snapshot : Option AdsContractSnapshot} {now : ℕ} :
    (row.advance checkpoint snapshot now).identity = row.identity := by
  cases snapshot <;> rfl

@[simp] theorem advance_checkpoint {row : IndexerState} {checkpoint : AdsCheckpoint}
    {snapshot : Option AdsContractSnapshot} {now : ℕ} :
    (row.advance checkpoint snapshot now).checkpoint = checkpoint := rfl

theorem keyed_advance {checkpoint : AdsCheckpoint} {snapshot : Option AdsContractSnapshot}
    {now : ℕ} {rows : List IndexerState} (hkeyed : Keyed IndexerState.identity rows) :
    Keyed IndexerState.identity (advanceAdsIndexerState identity checkpoint snapshot now rows) := by
  unfold advanceAdsIndexerState
  cases hfind : rows.find? (fun row => row.identity = identity) with
  | none =>
    refine hkeyed.append_one fun row hrow => ?_
    rw [withSnapshot_identity]
    have hne : row.identity ≠ identity := by simpa using List.find?_eq_none.1 hfind row hrow
    exact hne
  | some current =>
    simp only
    split_ifs
    · exact hkeyed
    · exact hkeyed.updateWhere fun row => advance_identity

/-- A row that moves to a checkpoint is configured, when its snapshot is the contract's there, or
when there is no snapshot and the checkpoint is new. -/
theorem configured_withSnapshot {row : IndexerState} {snapshot : Option AdsContractSnapshot}
    (hsnapshot : ∀ s, snapshot = some s → s.configBlockNumber = row.lastBlockNumber ∧
      s.Shows (C.state row.identity row.lastBlockHash))
    (hnone : snapshot = none → ∀ n, row.configBlockNumber = some n → n < row.lastBlockNumber) :
    (row.withSnapshot snapshot).Configured C := by
  cases snapshot with
  | none =>
    intro n hn
    have hlt := hnone rfl n hn
    exact ⟨Nat.le_of_lt hlt, fun heq => absurd heq (Nat.ne_of_lt hlt)⟩
  | some s =>
    obtain ⟨hblock, hshows⟩ := hsnapshot s rfl
    intro n hn
    obtain rfl : s.configBlockNumber = n := Option.some.inj hn
    refine ⟨Nat.le_of_eq hblock, fun _ => ?_⟩
    exact ⟨congrArg some hshows.minimumStake, congrArg some hshows.paused,
      congrArg some hshows.operator, congrArg some hshows.priceUpdater,
      congrArg some hshows.preUsdPriceE18, congrArg some hshows.preUsdPriceQuotedAt⟩

theorem advance_eq {row : IndexerState} {checkpoint : AdsCheckpoint}
    {snapshot : Option AdsContractSnapshot} {now : ℕ} :
    row.advance checkpoint snapshot now =
      { row with
        lastBlockNumber := checkpoint.lastBlockNumber
        lastBlockHash := checkpoint.lastBlockHash
        updatedAt := now : IndexerState }.withSnapshot snapshot := by
  cases snapshot <;> rfl

theorem commitChunk_indexers {logs : List IndexedLog} {checkpoint : AdsCheckpoint}
    {snapshot : Option AdsContractSnapshot} {now : ℕ} :
    (db.commitChunk identity logs checkpoint snapshot now).indexers =
      advanceAdsIndexerState identity checkpoint snapshot now db.indexers := by
  simp only [Database.commitChunk, foldl_applyLog_indexers]

/-- The checkpoints after a chunk. -/
theorem storedCheckpoint_commitChunk {identity' : Identity} {logs : List IndexedLog}
    {checkpoint : AdsCheckpoint} {snapshot : Option AdsContractSnapshot} {now : ℕ}
    (hkeyed : Keyed IndexerState.identity db.indexers)
    (hle : ∀ row ∈ db.indexers, row.identity = identity →
      row.lastBlockNumber ≤ checkpoint.lastBlockNumber) :
    storedCheckpoint (db.commitChunk identity logs checkpoint snapshot now) identity' =
      if identity = identity' then some checkpoint else storedCheckpoint db identity' := by
  have hkeyed' : Keyed IndexerState.identity
      (db.commitChunk identity logs checkpoint snapshot now).indexers := by
    rw [commitChunk_indexers]
    exact keyed_advance hkeyed
  have hmem : ∀ row, row ∈ advanceAdsIndexerState identity checkpoint snapshot now
      db.indexers ↔ _ := fun row => mem_advance hle
  refine Option.ext fun cp => ?_
  rw [storedCheckpoint_some hkeyed', commitChunk_indexers]
  split_ifs with hid
  · subst hid
    constructor
    · rintro ⟨row, hrow, hid, rfl⟩
      obtain ⟨-, hid'⟩ | ⟨old, -, -, rfl⟩ | ⟨-, rfl⟩ := (hmem row).1 hrow
      · exact absurd hid hid'
      · rfl
      · rw [withSnapshot_checkpoint]
        rfl
    · rintro ⟨⟩
      by_cases hfree : ∀ old ∈ db.indexers, old.identity ≠ identity
      · exact ⟨_, (hmem _).2 (.inr (.inr ⟨hfree, rfl⟩)), withSnapshot_identity,
          withSnapshot_checkpoint⟩
      · simp only [not_forall, not_not] at hfree
        obtain ⟨old, hold, hid⟩ := hfree
        exact ⟨_, (hmem _).2 (.inr (.inl ⟨old, hold, hid, rfl⟩)), advance_identity.trans hid, rfl⟩
  · rw [storedCheckpoint_some hkeyed]
    constructor
    · rintro ⟨row, hrow, hid', hcp⟩
      obtain ⟨hrow, -⟩ | ⟨old, -, hold, rfl⟩ | ⟨-, rfl⟩ := (hmem row).1 hrow
      · exact ⟨row, hrow, hid', hcp⟩
      · exact absurd (hold.symm.trans (advance_identity.symm.trans hid')) hid
      · exact absurd (withSnapshot_identity.symm.trans hid') hid
    · rintro ⟨row, hrow, hid', hcp⟩
      exact ⟨row, (hmem row).2 (.inl ⟨hrow, fun h => hid (h.symm.trans hid')⟩), hid', hcp⟩

/-- **A chunk.**  Committing the next blocks of one branch keeps the projection. -/
theorem Projected.commitChunk (hdb : Projected C deployment db) {checkpoint : AdsCheckpoint}
    {expected : Option AdsCheckpoint} {snapshot : Option AdsContractSnapshot} {now first : ℕ}
    (hstored : storedCheckpoint db identity = expected)
    (hnumber : F.number checkpoint.lastBlockHash = checkpoint.lastBlockNumber)
    (hdeployed : deployment identity ≤ checkpoint.lastBlockNumber)
    (hfirst : first ≤ checkpoint.lastBlockNumber + 1)
    (hstart : expected = none → first = deployment identity)
    (hnext : ∀ e, expected = some e → first = e.lastBlockNumber + 1 ∧
      F.ancestor checkpoint.lastBlockHash e.lastBlockNumber = e.lastBlockHash)
    (hsnapshot : ∀ s, snapshot = some s → s.configBlockNumber = checkpoint.lastBlockNumber ∧
      s.Shows (C.state identity checkpoint.lastBlockHash))
    (hnone : snapshot = none → first ≤ checkpoint.lastBlockNumber) :
    Projected C deployment (db.commitChunk identity
      (C.branch identity checkpoint.lastBlockHash first checkpoint.lastBlockNumber)
      checkpoint snapshot now) := by
  -- a chunk begins right after the checkpoint that it was read from
  have hold : ∀ row ∈ db.indexers, row.identity = identity →
      row.lastBlockNumber + 1 = first := by
    intro row hrow hid
    have hsome := (storedCheckpoint_some hdb.indexers).2 ⟨row, hrow, hid, rfl⟩
    exact (hnext _ (hstored.symm.trans hsome)).1.symm
  have hle : ∀ row ∈ db.indexers, row.identity = identity →
      row.lastBlockNumber ≤ checkpoint.lastBlockNumber := by
    intro row hrow hid
    have := hold row hrow hid
    omega
  refine ⟨commitChunk_indexers ▸ keyed_advance hdb.indexers, fun row hrow => ?_,
    fun identity' => ?_⟩
  · rw [commitChunk_indexers, mem_advance hle] at hrow
    obtain ⟨hrow, -⟩ | ⟨old, hrow, rfl, rfl⟩ | ⟨-, rfl⟩ := hrow
    · exact hdb.rows row hrow
    · refine ⟨hnumber, by rwa [advance_identity], ?_⟩
      rw [advance_eq]
      refine configured_withSnapshot hsnapshot fun h n hn => ?_
      have hn := ((hdb.rows old hrow).2.2 n hn).1
      have := hold old hrow rfl
      have := hnone h
      change n < checkpoint.lastBlockNumber
      omega
    · have hcp : ((IndexerState.create identity checkpoint now).withSnapshot snapshot).checkpoint =
          checkpoint := withSnapshot_checkpoint
      have hblock := congrArg AdsCheckpoint.lastBlockNumber hcp
      have hhash := congrArg AdsCheckpoint.lastBlockHash hcp
      simp only [IndexerState.checkpoint] at hblock hhash
      refine ⟨by rw [hblock, hhash]; exact hnumber, ?_, configured_withSnapshot hsnapshot
        fun _ n hn => by cases hn⟩
      rw [hblock, withSnapshot_identity]
      exact hdeployed
  · rw [storedCheckpoint_commitChunk hdb.indexers hle]
    have hholding := hdb.holding identity'
    split_ifs with hid
    · subst hid
      rw [hstored] at hholding
      -- the old checkpoint is on the branch of the new one, so the logs up to it are the same
      have hsplit : C.upTo identity (deployment identity) (some checkpoint) =
          C.upTo identity (deployment identity) expected ++
            C.branch identity checkpoint.lastBlockHash first checkpoint.lastBlockNumber := by
        cases hexpected : expected with
        | none => rw [hstart hexpected]; rfl
        | some e =>
          obtain ⟨rfl, hancestor⟩ := hnext e hexpected
          have hrow := (storedCheckpoint_some hdb.indexers).1 (hstored.trans hexpected)
          obtain ⟨row, hrow, rfl, rfl⟩ := hrow
          obtain ⟨hrownumber, hrowdeployed, -⟩ := hdb.rows row hrow
          have hsame : C.branch row.identity checkpoint.lastBlockHash (deployment row.identity)
              row.lastBlockNumber = C.branch row.identity row.lastBlockHash
                (deployment row.identity) row.lastBlockNumber := by
            refine Contract.branch_of_ancestor (Nat.le_of_eq hrownumber.symm) ?_ ?_
            · rw [hrownumber, hnumber]
              exact Nat.le_of_succ_le_succ hfirst
            · rw [hrownumber]
              exact hancestor
          change C.branch _ _ _ _ = C.branch _ _ _ _ ++ _
          rw [Contract.branch_append (Nat.le_succ_of_le hrowdeployed)
            (Nat.le_of_succ_le_succ hfirst), hsame]
          rfl
      have hbranch : C.upTo identity (deployment identity) (some checkpoint) =
          C.branch identity checkpoint.lastBlockHash (deployment identity)
            checkpoint.lastBlockNumber := rfl
      have hfold := hholding.foldl
        (hsplit ▸ hbranch ▸ Contract.branch_before (Nat.le_of_eq hnumber.symm))
        (hsplit ▸ hbranch ▸ Contract.branch_keys (Nat.le_of_eq hnumber.symm))
      rw [hsplit]
      exact ⟨hfold.events, hfold.positions⟩
    · have hfold : Holding identity' _ ((C.branch identity checkpoint.lastBlockHash first
          checkpoint.lastBlockNumber).foldl (applyLog identity) db) := hholding.foldl_other hid
      exact ⟨hfold.events, hfold.positions⟩

end

/-! ### What an index pass reads -/

section

variable {O : Outside} {C : Contract O.forest} {deployment : Identity → ℕ}
  {config : IndexConfig} {began w w' : World} {h l : Log} {hash : Hash}

/-- An answer about a block number is about the block that is canonical. -/
theorem eq_of_at {α : Type} {v : α} {f : Hash → α} {chainId block : ℕ}
    (hat : ∃ h, O.At w chainId block h ∧ v = f h)
    (hcanonical : O.forest.Canonical (w.chains chainId) hash)
    (hnumber : O.forest.number hash = block) : v = f hash := by
  obtain ⟨h, hat, rfl⟩ := hat
  obtain ⟨hcanonical', hnumber'⟩ := Chain.Forest.canonical_eq_some.1 hat
  rw [hcanonical'.eq_of_number hcanonical (hnumber'.trans hnumber.symm)]

/-- What was read of the configuration while a block was canonical is the configuration there. -/
theorem snapshotRead_shows (htrue : O.Truthful C) {block : ℕ}
    {snapshot : Option AdsContractSnapshot} {reads : Log}
    (hreads : SnapshotRead config block snapshot reads) (hnumber : O.forest.number hash = block)
    (hcanonical : ∀ e ∈ reads, O.forest.Canonical (e.before.chains config.identity.chainId) hash)
    (hanswered : ∀ w q a, .asked w q a ∈ reads → O.answers w q a) :
    ∀ s, snapshot = some s → s.configBlockNumber = block ∧
      s.Shows (C.state config.identity hash) := by
  cases hreads with
  | none => rintro s ⟨⟩
  | @some w₁ w₂ w₃ w₄ w₅ w₆ snapshot hblock =>
    rintro s ⟨⟩
    refine ⟨hblock, ?_⟩
    simp only [List.forall_mem_cons, Event.before_asked] at hcanonical
    obtain ⟨hc₆, hc₅, hc₄, hc₃, hc₂, hc₁, -⟩ := hcanonical
    have hstake := hanswered w₁ (.minimumStake config.identity block)
      (.ok snapshot.minimumStakeRaw) (by simp)
    have hpaused := hanswered w₂ (.paused config.identity block) (.ok snapshot.paused) (by simp)
    have hoperator := hanswered w₃ (.operator config.identity (Option.some block))
      (.ok snapshot.operatorAddress) (by simp)
    have hupdater := hanswered w₄ (.priceUpdater config.identity (Option.some block))
      (.ok snapshot.priceUpdaterAddress) (by simp)
    have hprice := hanswered w₅ (.preUsdPriceE18 config.identity block)
      (.ok snapshot.preUsdPriceE18Raw) (by simp)
    have hquoted := hanswered w₆ (.preUsdPriceQuotedAt config.identity block)
      (.ok snapshot.preUsdPriceQuotedAt) (by simp)
    exact ⟨eq_of_at (htrue.minimumStake hstake) hc₁ hnumber,
      eq_of_at (htrue.paused hpaused) hc₂ hnumber,
      eq_of_at (htrue.operator hoperator) hc₃ hnumber,
      eq_of_at (htrue.priceUpdater hupdater) hc₄ hnumber,
      eq_of_at (htrue.preUsdPriceE18 hprice) hc₅ hnumber,
      eq_of_at (htrue.preUsdPriceQuotedAt hquoted) hc₆ hnumber⟩

/-- A block that was named twice was canonical whenever the process acted in between. -/
theorem canonical_between (htrue : O.Truthful C) {chainId block : ℕ} {w₁ w₄ : World}
    (hrec : Recorded (Inv O.forest) (Grows O.forest) O.answers began h w)
    (hl : (.asked w₄ (.blockHash chainId block) (.ok hash) ::
      (l ++ [.asked w₁ (.blockHash chainId block) (.ok hash)])).Sublist h)
    (hasked : ∀ e ∈ l, e.after = e.before) :
    O.forest.number hash = block ∧
      (∀ e ∈ l, O.forest.Canonical (e.before.chains chainId) hash) ∧
      O.forest.Canonical (w₁.chains chainId) hash ∧
      O.forest.Canonical (w₄.chains chainId) hash ∧ Grows O.forest w₁ w₄ := by
  have hfirst := htrue.blockHash _ _ _ _
    (hrec.answered w₁ (.blockHash chainId block) (.ok hash) (hl.subset (by simp)))
  have hlast := htrue.blockHash _ _ _ _
    (hrec.answered w₄ (.blockHash chainId block) (.ok hash) (hl.subset (.head _)))
  obtain ⟨hcanonical, hnumber⟩ := Chain.Forest.canonical_eq_some.1 hfirst
  obtain ⟨hcanonical', -⟩ := Chain.Forest.canonical_eq_some.1 hlast
  obtain ⟨hhead, htail⟩ := List.pairwise_cons.1 (hrec.ordered.sublist hl)
  have hgrows : Grows O.forest w₁ w₄ :=
    hhead (.asked w₁ (.blockHash chainId block) (.ok hash)) (by simp)
  refine ⟨hnumber, fun e he => ?_, hcanonical, hcanonical', hgrows⟩
  have hafter : Grows O.forest w₁ e.before :=
    (List.pairwise_append.1 htail).2.2 e he (.asked w₁ (.blockHash chainId block) (.ok hash))
      (.head _)
  have hbefore : Grows O.forest e.after w₄ := hhead e (by simp [he])
  have hconsistent := (hrec.inv _ (hl.subset (.head _))).consistent chainId
  rw [hasked e he] at hbefore
  exact (hafter.chains _).between (hbefore.chains _) hconsistent hcanonical hcanonical'

theorem snapshotRead_asked {block : ℕ} {snapshot : Option AdsContractSnapshot} {reads : Log}
    (hreads : SnapshotRead config block snapshot reads) : ∀ e ∈ reads, e.after = e.before := by
  cases hreads <;> simp

/-- A projection that is reset. -/
theorem Projected.resetProjection {db : Database} {identity : Identity}
    (hdb : Projected C deployment db) :
    Projected C deployment (db.resetProjection identity) := by
  have hstored : ∀ identity', storedCheckpoint (db.resetProjection identity) identity' =
      if identity' = identity then none else storedCheckpoint db identity' := by
    intro identity'
    refine Option.ext fun cp => ?_
    rw [storedCheckpoint_some (hdb.indexers.filter _)]
    split_ifs with hid
    · subst hid
      simp only [Database.resetProjection, List.mem_filter, iff_false]
      rintro ⟨row, ⟨-, hrow⟩, hid, -⟩
      simp [hid] at hrow
    · rw [storedCheckpoint_some hdb.indexers]
      simp only [Database.resetProjection, List.mem_filter]
      constructor
      · rintro ⟨row, ⟨hrow, -⟩, hrest⟩
        exact ⟨row, hrow, hrest⟩
      · rintro ⟨row, hrow, rfl, hcp⟩
        exact ⟨row, ⟨hrow, by simpa using hid⟩, rfl, hcp⟩
  refine ⟨hdb.indexers.filter _, fun row hrow => hdb.rows row (List.mem_filter.1 hrow).1,
    fun identity' => ?_⟩
  rw [hstored]
  have hholding := hdb.holding identity'
  split_ifs with hid
  · subst hid
    constructor
    · simp [Database.resetProjection, Contract.upTo, List.filter_filter]
    · intro keywordId staker
      simp [Database.resetProjection, Contract.upTo, List.filter_filter, StakePosition.isOf,
        positionAt]
      tauto
  · constructor
    · rw [← hholding.events]
      simp only [Database.resetProjection, List.filter_filter]
      refine List.filter_congr fun row _ => ?_
      by_cases hrow : row.identity = identity' <;> simp [hrow, hid]
    · intro keywordId staker
      rw [← hholding.positions keywordId staker]
      simp only [Database.resetProjection, List.filter_filter]
      refine List.filter_congr fun row _ => ?_
      by_cases hrow : row.identity = identity' <;> simp [StakePosition.isOf, hrow, hid]

/-- **A write of an index pass** keeps the projection. -/
theorem IndexWrite.projected (htrue : O.Truthful C)
    (hdeployed : config.deploymentBlock = deployment config.identity)
    (hrec : Recorded (Inv O.forest) (Grows O.forest) O.answers began h w)
    (hw : Projected C deployment w.db) (hwrite : IndexWrite config h w w') :
    Projected C deployment w'.db := by
  cases hwrite with
  | idle => exact hw
  | reset => exact hw.resetProjection
  | @chunk w₁ w₂ w₃ w₄ expected last hash positions charges snapshot reads before after now
      hlast hbefore hreads hafter hl _ hstored =>
    -- everything between the two looks at the last block
    let inner : Log := reads ++ [.asked w₃ (.chargeLogs config.identity (config.next expected) last)
        (.ok charges),
      .asked w₂ (.positionLogs config.identity (config.next expected) last) (.ok positions)]
    let look (w : World) : Event World Reply Failure :=
      .asked w (.blockHash config.identity.chainId last) (.ok hash)
    have heq : after ++ (look w₄ :: (inner ++ [look w₁])) ++ before = _ :=
      show _ = after ++ (look w₄ :: (reads ++ (chunkReads config (config.next expected) last hash
        positions charges w₁ w₂ w₃ ++ before))) by simp [inner, look, chunkReads]
    have hinner : ∀ e ∈ inner, e.after = e.before := by
      simp only [inner, List.forall_mem_append]
      exact ⟨snapshotRead_asked hreads, by simp⟩
    have hmiddle : (look w₄ :: (inner ++ [look w₁])).Sublist h := by
      refine List.Sublist.trans ?_ (heq ▸ hl)
      exact (List.sublist_append_right after _).trans (List.sublist_append_left _ before)
    obtain ⟨rfl, hbetween, hcanonical, -⟩ := canonical_between htrue hrec hmiddle hinner
    have hpositions := htrue.positionLogs (hrec.answered w₂ (.positionLogs config.identity
      (config.next expected) (O.forest.number hash)) (.ok positions)
      (hmiddle.subset (by simp [inner])))
    have hcharges := htrue.chargeLogs (hrec.answered w₃ (.chargeLogs config.identity
      (config.next expected) (O.forest.number hash)) (.ok charges)
      (hmiddle.subset (by simp [inner])))
    have hcanonical₂ : O.forest.Canonical (w₂.chains config.identity.chainId) hash :=
      hbetween (.asked w₂ (.positionLogs config.identity (config.next expected)
        (O.forest.number hash)) (.ok positions)) (by simp [inner])
    have hcanonical₃ : O.forest.Canonical (w₃.chains config.identity.chainId) hash :=
      hbetween (.asked w₃ (.chargeLogs config.identity (config.next expected)
        (O.forest.number hash)) (.ok charges)) (by simp [inner])
    rw [logsAt_eq hcanonical₂] at hpositions
    rw [logsAt_eq hcanonical₃] at hcharges
    rw [hpositions, hcharges, sortLogs_of_before (Contract.branch_before (Nat.le_refl _))]
    have hsnapshot := snapshotRead_shows htrue hreads rfl
      (fun e he => hbetween e (by simp [inner, he]))
      fun w q a hmem => hrec.answered w q a (hmiddle.subset (by simp [inner, hmem]))
    -- the branch of the last block goes through the checkpoint that the chunk continues
    have hnext : ∀ e, expected = some e → config.next expected = e.lastBlockNumber + 1 ∧
        O.forest.ancestor hash e.lastBlockNumber = e.lastBlockHash := by
      rintro e rfl
      refine ⟨rfl, ?_⟩
      cases hbefore with | @some w₀ => ?_
      cases hafter with | @some w₅ => ?_
      have hall : ∀ e ∈ look w₄ :: (inner ++ [look w₁]), e.after = e.before := by
        simp only [List.forall_mem_cons, List.forall_mem_append]
        exact ⟨rfl, hinner, by simp [look]⟩
      obtain ⟨hnumber, hbetween', -⟩ := canonical_between htrue hrec (heq ▸ hl) hall
      have hcheckpoint := hbetween' (look w₁) (by simp)
      rw [← hnumber]
      refine hcanonical.ancestor_eq hcheckpoint ?_
      rw [hnumber]
      exact Nat.le_of_succ_le hlast
    have hdeep : deployment config.identity ≤ O.forest.number hash := by
      rw [← hdeployed]
      cases expected with
      | none => exact hlast
      | some e =>
        obtain ⟨row, hrow, hid, rfl⟩ := (storedCheckpoint_some hw.indexers).1 hstored
        have hle := (hw.rows row hrow).2.1
        rw [hid, ← hdeployed] at hle
        exact Nat.le_trans hle (Nat.le_of_succ_le hlast)
    have hcommit := @Projected.commitChunk _ C deployment w.db config.identity hw
      ⟨O.forest.number hash, hash⟩ expected snapshot now (config.next expected) hstored rfl hdeep
      (Nat.le_succ_of_le hlast)
    refine hcommit ?_ hnext hsnapshot fun _ => hlast
    rintro rfl
    exact hdeployed
  | @refresh w₁ w₂ state snapshot reads now hreads hl _ hstored =>
    obtain ⟨hnumber, hbetween, -⟩ :=
      canonical_between htrue hrec hl (snapshotRead_asked hreads)
    have hsnapshot := snapshotRead_shows htrue hreads hnumber hbetween
      fun w q a hmem => hrec.answered w q a (hl.subset (by simp [hmem]))
    obtain ⟨row, hrow, hid, rfl⟩ := (storedCheckpoint_some hw.indexers).1 hstored
    have hbranch : C.branch config.identity row.lastBlockHash (row.lastBlockNumber + 1)
        row.lastBlockNumber = [] := by
      simp [Contract.branch]
    have hself : O.forest.ancestor row.lastBlockHash row.lastBlockNumber = row.lastBlockHash := by
      have hnum := (hw.rows row hrow).1
      rw [← hnum, Chain.Forest.ancestor_self]
    have hcommit : Projected C deployment (w.db.commitChunk config.identity
        (C.branch config.identity row.lastBlockHash (row.lastBlockNumber + 1)
          row.lastBlockNumber) row.checkpoint (some snapshot) now) :=
      hw.commitChunk hstored hnumber (hid ▸ (hw.rows row hrow).2.1) (Nat.le_refl _)
        (by rintro ⟨⟩) (by rintro e ⟨⟩; exact ⟨rfl, hself⟩) hsnapshot (by rintro ⟨⟩)
    rwa [hbranch] at hcommit

/-! ### What the other jobs leave alone -/

/-- The three tables of the projection. -/
def Database.projection (db : Database) :
    List IndexerState × List StakePosition × List ChainEvent :=
  (db.indexers, db.positions, db.events)

theorem Projected.congr {db db' : Database} (hdb : Projected C deployment db)
    (heq : db'.projection = db.projection) : Projected C deployment db' := by
  simp only [Database.projection, Prod.mk.injEq] at heq
  obtain ⟨hindexers, hpositions, hevents⟩ := heq
  have hstored : ∀ identity, storedCheckpoint db' identity = storedCheckpoint db identity := by
    intro identity
    rw [storedCheckpoint, hindexers, storedCheckpoint]
  refine ⟨hindexers ▸ hdb.indexers, hindexers ▸ hdb.rows, fun identity => ?_⟩
  rw [hstored]
  exact ⟨hevents ▸ (hdb.holding identity).events,
    fun k s => hpositions ▸ (hdb.holding identity).positions k s⟩

theorem upsertSettings_projection (db : Database) (identity : Identity) :
    (db.upsertSettings identity).projection = db.projection := by
  unfold Database.upsertSettings
  split_ifs <;> rfl

theorem Reserves.projection {run : ChargeRun} {deps : ChargeDependencies}
    {free : List BillingClick} {db db' : Database} (h : Reserves run deps free db db') :
    db'.projection = db.projection := by
  induction h with
  | refl => rfl
  | step _ _ _ _ _ _ ih => exact ih

/-- The index passes alone write the projection. -/
theorem JobWrite.spares_projection {ext : External} {j : Job}
    (hj : ∀ n config, j ≠ .index n config) (hwrite : JobWrite ext j h w w') :
    w'.db.projection = w.db.projection := by
  have hadmin : ∀ identity, AdminWrite identity w w' →
      w'.db.projection = w.db.projection := by
    intro identity hwrite
    cases hwrite with
    | settings => exact upsertSettings_projection w.db identity
    | upsert => exact upsertSettings_projection w.db identity
    | request => exact upsertSettings_projection w.db identity
    | _ => rfl
  cases j with
  | charge deps runId cached =>
    cases hwrite with
    | upsertSettings => exact upsertSettings_projection w.db _
    | reserve _ hreserve =>
      obtain ⟨db₁, f, hreserves, -, rfl⟩ := reserveRunTx_ok hreserve
      exact hreserves.projection
    | _ => rfl
  | publish deps => cases hwrite <;> rfl
  | index n config => exact absurd rfl (hj n config)
  | click n request => cases hwrite <;> rfl
  | retain n => cases hwrite <;> rfl
  | updateSettings n identity input => exact hadmin identity hwrite
  | requestRun n identity => exact hadmin identity hwrite

end

/-! ### Runs -/

section

variable {O : Outside} {C : Contract O.forest} {deployment : Identity → ℕ}

/-- Every index pass starts from the deployment block. -/
def Job.Deployed (deployment : Identity → ℕ) : Job → Prop
  | .index _ config => config.deploymentBlock = deployment config.identity
  | _ => True

/-- What is stored is the projection of the branch of the checkpoint, in every run. -/
theorem projected_of_run (htrue : O.Truthful C) {w : World} {c : MarketConfig}
    {ls : List (Label World Reply Failure Job)} (hw : World.Initial O w)
    (hrun : (market O).Run (Config.idle w) ls c)
    (hdeployed : ∀ j, .start j ∈ ls → j.Deployed deployment) :
    Projected C deployment c.shared.db := by
  have hsafe : (protocol O).Safe (Config.idle w) := Protocol.safe_idle hw.inv
  have hstart : Projected C deployment w.db := by
    rw [hw.db]
    refine ⟨.nil, by rintro row ⟨⟩, fun identity => ⟨rfl, fun _ _ => rfl⟩⟩
  have hkept := hsafe.invariant_of (I := fun w => Projected C deployment w.db)
    (K := Job.Deployed deployment) ?_ (fun _ _ _ => id) ?_ (Protocol.remembers_idle hstart)
    (by rintro i p ⟨⟩) hdeployed hrun
  · exact hkept.1.1
  · intro s s' _ henv hs
    rw [Environment.db henv]
    exact hs
  · intro j began h s s' hj hinv _ hrec _ hwrite hs
    by_cases hindex : ∃ n config, j = .index n config
    · obtain ⟨n, config, rfl⟩ := hindex
      exact IndexWrite.projected htrue hj hrec hs hwrite
    · refine Projected.congr hs (JobWrite.spares_projection (fun n config heq => ?_) hwrite)
      exact hindex ⟨n, config, heq⟩

section Sample

/-- What the index passes of the sample run are given. -/
def sampleIndexConfig : IndexConfig := ⟨sampleIdentity, 1, 2⟩

/-- Two index passes; the chain grows from block 3 to block 10 in between. -/
def indexRun : List (Move World Reply Failure Job Slot) :=
  [.start (.index 0 sampleIndexConfig), .act (.other 0) 15 indexOracle, .stop (.other 0),
    .env (growSample 10), .start (.index 1 sampleIndexConfig), .act (.other 1) 18 indexOracle,
    .stop (.other 1)]

theorem allows_indexRun : ∀ m ∈ indexRun, (market indexOutside).Allows m := by
  simp only [indexRun, List.forall_mem_cons]
  exact ⟨trivial, fun _ _ => rfl, trivial, allows_growSample 10, trivial, fun _ _ => rfl, trivial,
    by simp⟩

theorem index_isSome :
    ((market indexOutside).play indexRun (Config.idle sampleStart)).isSome = true := by
  decide +kernel

/-- The end of the index passes. -/
def indexEnd : MarketConfig :=
  ((market indexOutside).play indexRun (Config.idle sampleStart)).get index_isSome

theorem run_indexEnd : ∃ ls, (market indexOutside).Run (Config.idle sampleStart) ls indexEnd ∧
    ∀ j, .start j ∈ ls → j.Deployed fun _ => 1 := by
  refine ⟨_, Machine.run_labels allows_indexRun (Option.some_get index_isSome).symm,
    fun j hj => ?_⟩
  have hmem := Machine.start_mem_labels hj
  simp only [indexRun, List.mem_cons, Move.start.injEq, reduceCtorEq, false_or,
    List.not_mem_nil, or_false] at hmem
  obtain rfl | rfl := hmem <;> rfl

end Sample

/-- **The projection equals the canonical log.**  In every state of every run of index passes and
all the other jobs: if the stored checkpoint is canonical, `AdChainEvent` holds exactly the
canonical logs from the deployment to the checkpoint, each once, and `AdStakePosition` the
positions that they add up to; and a configuration that is as new as the checkpoint is the
contract's configuration at the checkpoint. -/
theorem projection_canonical (htrue : O.Truthful C) {w : World} {c : MarketConfig}
    {ls : List (Label World Reply Failure Job)} (hw : World.Initial O w)
    (hrun : (market O).Run (Config.idle w) ls c)
    (hdeployed : ∀ j, .start j ∈ ls → j.Deployed deployment) (identity : Identity)
    (checkpoint : AdsCheckpoint)
    (hstored : storedCheckpoint c.shared.db identity = some checkpoint) :
    (O.forest.Canonical (c.shared.chains identity.chainId) checkpoint.lastBlockHash →
      let logs := O.logsAt C c.shared identity (deployment identity) checkpoint.lastBlockNumber
      (logs.Pairwise fun a b => a.key ≠ b.key) ∧
      c.shared.db.events.filter (fun row => row.identity = identity) =
        logs.map (IndexedLog.event identity) ∧
      ∀ keywordId staker,
        c.shared.db.positions.filter (StakePosition.isOf identity keywordId staker) =
          (positionAt identity keywordId staker logs).toList) ∧
    ∀ row ∈ c.shared.db.indexers, row.identity = identity →
      row.configBlockNumber = some row.lastBlockNumber →
      row.Stores (C.state identity row.lastBlockHash) := by
  have hprojected := projected_of_run htrue hw hrun hdeployed
  constructor
  · intro hcanonical
    obtain ⟨row, hrow, hid, rfl⟩ := (storedCheckpoint_some hprojected.indexers).1 hstored
    have hnumber : O.forest.number row.lastBlockHash = row.lastBlockNumber :=
      (hprojected.rows row hrow).1
    have hcanonical : O.forest.Canonical (c.shared.chains identity.chainId) row.lastBlockHash :=
      hcanonical
    have hlogs : O.logsAt C c.shared identity (deployment identity) row.lastBlockNumber =
        C.upTo identity (deployment identity) (some row.checkpoint) := by
      rw [← hnumber, logsAt_eq hcanonical, hnumber]
      rfl
    have hholding := hprojected.holding identity
    rw [hstored, ← hlogs] at hholding
    refine ⟨?_, hholding.events, hholding.positions⟩
    change (O.logsAt C c.shared identity (deployment identity) row.lastBlockNumber).Pairwise _
    rw [hlogs]
    exact Contract.branch_keys (Nat.le_of_eq hnumber.symm)
  · rintro row hrow rfl hconfig
    exact ((hprojected.rows row hrow).2.2 _ hconfig).2 rfl

/-- In the sample run the checkpoint is block 9, above one position change and one charge. -/
theorem projection_canonical_sample :
    storedCheckpoint indexEnd.shared.db sampleIdentity = some ⟨9, 9⟩ ∧
    let logs := indexOutside.logsAt sampleContract indexEnd.shared sampleIdentity 1 9
    (logs.Pairwise fun a b => a.key ≠ b.key) ∧
    indexEnd.shared.db.events.filter (fun row => row.identity = sampleIdentity) =
      logs.map (IndexedLog.event sampleIdentity) ∧
    ∀ keywordId staker,
      indexEnd.shared.db.positions.filter (StakePosition.isOf sampleIdentity keywordId staker) =
        (positionAt sampleIdentity keywordId staker logs).toList := by
  have hstored : storedCheckpoint indexEnd.shared.db sampleIdentity = some ⟨9, 9⟩ := by
    decide +kernel
  have hcanonical : lineForest.Canonical (indexEnd.shared.chains sampleIdentity.chainId) 9 := by
    decide +kernel
  obtain ⟨ls, hrun, hls⟩ := run_indexEnd
  exact ⟨hstored, (projection_canonical index_truthful ⟨rfl, rfl, rfl, fun _ => by rintro _ ⟨⟩⟩
    hrun hls sampleIdentity ⟨9, 9⟩ hstored).1 hcanonical⟩

end

end Market

end PreCommunity
