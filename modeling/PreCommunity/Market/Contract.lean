import Mathlib.Data.List.Pairwise
import PreCommunity.Market.Checkpoint

/-!
# The contract and a truthful node

A block's hash fixes what the contract stores at the block and what it logged in it.  A node that
is asked about a block number answers for the canonical block of that number.

* `Contract` : the state and the logs of the contract at every block.
* `Contract.branch` : the logs of a range of blocks on the branch of a block.
* `Outside.Truthful` : the node answers for the canonical blocks.
* `sortLogs_branch` : two answers about a range of blocks, merged, are the logs of the range.
-/

namespace PreCommunity

namespace Market

open Store Concurrent

/-! ### Logs -/

namespace IndexedLog

/-- The position change that the log reports. -/
def position? : IndexedLog → Option (Placed PositionChanged)
  | position log => some log
  | charge _ => none

/-- The charge that the log reports. -/
def charge? : IndexedLog → Option (Placed StakeCharged)
  | position _ => none
  | charge log => some log

/-- The unique key of a log: its transaction and its number in the block. -/
def key : IndexedLog → Hash × ℕ
  | position log => (log.transactionHash, log.logIndex)
  | charge log => (log.transactionHash, log.logIndex)

/-- The hash of the log's block. -/
def blockHash : IndexedLog → Hash
  | position log => log.blockHash
  | charge log => log.blockHash

/-- The first log comes before the second in the chain. -/
def Before (a b : IndexedLog) : Prop :=
  a.place.1 < b.place.1 ∨ a.place.1 = b.place.1 ∧ a.place.2 < b.place.2

end IndexedLog

/-! ### The contract -/

/-- What the index passes read of the contract at a block. -/
structure ContractState where
  minimumStake : ℕ
  paused : Bool
  operator : Address
  priceUpdater : Address
  preUsdPriceE18 : ℕ
  preUsdPriceQuotedAt : ℕ

/-- The contract at every block: a block's hash fixes the state and the logs. -/
structure Contract (F : Chain.Forest Hash) where
  state : Identity → Hash → ContractState
  logs : Identity → Hash → List IndexedLog
  placed (identity : Identity) (h : Hash) :
    ∀ log ∈ logs identity h, log.place.1 = F.number h ∧ log.blockHash = h
  ordered (identity : Identity) (h : Hash) :
    (logs identity h).Pairwise fun a b => a.place.2 < b.place.2
  /-- A transaction is mined once on a branch. -/
  mined (identity : Identity) (h : Hash) (n : ℕ) : n < F.number h → ∀ a ∈ logs identity h,
    ∀ b ∈ logs identity (F.ancestor h n), a.key.1 ≠ b.key.1

namespace Contract

variable {F : Chain.Forest Hash} (C : Contract F)

/-- The logs of the blocks `first` to `last` on the branch of `tip`. -/
def branch (identity : Identity) (tip : Hash) (first last : ℕ) : List IndexedLog :=
  (List.range' first (last + 1 - first)).flatMap fun n => C.logs identity (F.ancestor tip n)

variable {C} {identity : Identity} {tip h : Hash} {first mid last : ℕ} {log : IndexedLog}

/-- The logs of a range of blocks are those of its two halves. -/
theorem branch_append (hmid : first ≤ mid + 1) (hle : mid ≤ last) :
    C.branch identity tip first last =
      C.branch identity tip first mid ++ C.branch identity tip (mid + 1) last := by
  unfold branch
  rw [← List.flatMap_append]
  congr 1
  have hsplit := List.range'_append_1 (s := first) (m := mid + 1 - first) (n := last - mid)
  rw [show first + (mid + 1 - first) = mid + 1 by omega,
    show mid + 1 - first + (last - mid) = last + 1 - first by omega] at hsplit
  rw [← hsplit, show last + 1 - (mid + 1) = last - mid by omega]

/-- The blocks below `h` are on its branch. -/
theorem branch_of_ancestor (hlast : last ≤ F.number h) (hh : F.number h ≤ F.number tip)
    (heq : F.ancestor tip (F.number h) = h) :
    C.branch identity tip first last = C.branch identity h first last := by
  unfold branch
  refine congrArg List.flatten (List.map_congr_left fun n hn => ?_)
  rw [List.mem_range'_1] at hn
  obtain hle : n ≤ F.number h := by omega
  rw [← Chain.Forest.ancestor_ancestor hle hh, heq]

theorem branch_before (hlast : last ≤ F.number tip) :
    (C.branch identity tip first last).Pairwise IndexedLog.Before := by
  unfold branch
  rw [List.pairwise_flatMap]
  have hplaced : ∀ n ≤ last, ∀ log ∈ C.logs identity (F.ancestor tip n), log.place.1 = n := by
    intro n hn log hlog
    rw [(C.placed _ _ _ hlog).1, Chain.Forest.number_ancestor (Nat.le_trans hn hlast)]
  constructor
  · intro n hn
    rw [List.mem_range'_1] at hn
    refine (C.ordered _ _).imp_of_mem fun ha hb hlt => .inr ⟨?_, hlt⟩
    rw [hplaced n (by omega) _ ha, hplaced n (by omega) _ hb]
  · refine (List.pairwise_lt_range' _).imp_of_mem ?_
    intro n m hn hm hlt a ha b hb
    rw [List.mem_range'_1] at hn hm
    left
    rw [hplaced n (by omega) a ha, hplaced m (by omega) b hb]
    exact hlt

theorem branch_keys (hlast : last ≤ F.number tip) :
    (C.branch identity tip first last).Pairwise fun a b => a.key ≠ b.key := by
  unfold branch
  rw [List.pairwise_flatMap]
  constructor
  · intro n _
    refine (C.ordered _ _).imp fun {a b} hlt heq => ?_
    have hplace : ∀ log : IndexedLog, log.key.2 = log.place.2 := by rintro (_ | _) <;> rfl
    rw [← hplace, ← hplace, heq] at hlt
    exact Nat.lt_irrefl _ hlt
  · refine (List.pairwise_lt_range' _).imp_of_mem ?_
    intro n m hn hm hlt a ha b hb heq
    rw [List.mem_range'_1] at hn hm
    have hm' : m ≤ F.number tip := by omega
    rw [← Chain.Forest.ancestor_ancestor (Nat.le_of_lt hlt) hm'] at ha
    have hnum : n < F.number (F.ancestor tip m) := by
      rw [Chain.Forest.number_ancestor hm']
      exact hlt
    exact C.mined _ _ n hnum b hb a ha (congrArg Prod.fst heq.symm)

end Contract

/-! ### The node -/

/-- The canonical block that the node answers for when it is asked about a block number. -/
def Outside.At (O : Outside) (w : World) (chainId block : ℕ) (h : Hash) : Prop :=
  O.forest.canonical (w.chains chainId) block = some h

/-- The logs of a range of canonical blocks. -/
def Outside.logsAt (O : Outside) (C : Contract O.forest) (w : World) (identity : Identity)
    (first last : ℕ) : List IndexedLog :=
  let tip := (w.chains identity.chainId).tip
  C.branch identity tip first (min last (O.forest.number tip))

/-- The node answers the questions of the index passes about a block number for the block that is
canonical when it answers. -/
structure Outside.Truthful (O : Outside) (C : Contract O.forest) : Prop where
  blockHash : O.NamesBlocks
  positionLogs {w : World} {identity : Identity} {first last : ℕ}
      {logs : List (Placed PositionChanged)} :
    O.answers w (.positionLogs identity first last) (.ok logs) →
      logs = (O.logsAt C w identity first last).filterMap IndexedLog.position?
  chargeLogs {w : World} {identity : Identity} {first last : ℕ}
      {logs : List (Placed StakeCharged)} :
    O.answers w (.chargeLogs identity first last) (.ok logs) →
      logs = (O.logsAt C w identity first last).filterMap IndexedLog.charge?
  minimumStake {w : World} {identity : Identity} {block v : ℕ} :
    O.answers w (.minimumStake identity block) (.ok v) →
      ∃ h, O.At w identity.chainId block h ∧ v = (C.state identity h).minimumStake
  paused {w : World} {identity : Identity} {block : ℕ} {v : Bool} :
    O.answers w (.paused identity block) (.ok v) →
      ∃ h, O.At w identity.chainId block h ∧ v = (C.state identity h).paused
  operator {w : World} {identity : Identity} {block v : ℕ} :
    O.answers w (.operator identity (some block)) (.ok v) →
      ∃ h, O.At w identity.chainId block h ∧ v = (C.state identity h).operator
  priceUpdater {w : World} {identity : Identity} {block v : ℕ} :
    O.answers w (.priceUpdater identity (some block)) (.ok v) →
      ∃ h, O.At w identity.chainId block h ∧ v = (C.state identity h).priceUpdater
  preUsdPriceE18 {w : World} {identity : Identity} {block v : ℕ} :
    O.answers w (.preUsdPriceE18 identity block) (.ok v) →
      ∃ h, O.At w identity.chainId block h ∧ v = (C.state identity h).preUsdPriceE18
  preUsdPriceQuotedAt {w : World} {identity : Identity} {block v : ℕ} :
    O.answers w (.preUsdPriceQuotedAt identity block) (.ok v) →
      ∃ h, O.At w identity.chainId block h ∧ v = (C.state identity h).preUsdPriceQuotedAt

/-- While `h` is canonical, the logs of the blocks up to its number are those of its branch. -/
theorem logsAt_eq {O : Outside} {C : Contract O.forest} {w : World} {identity : Identity}
    {h : Hash} (hh : O.forest.Canonical (w.chains identity.chainId) h) (first : ℕ) :
    O.logsAt C w identity first (O.forest.number h) =
      C.branch identity h first (O.forest.number h) := by
  simp only [Outside.logsAt, Nat.min_eq_left hh.1]
  exact Contract.branch_of_ancestor (Nat.le_refl _) hh.1 hh.2

/-! ### Merged answers -/

theorem sortLogs_of_before {logs : List IndexedLog} (hlogs : logs.Pairwise IndexedLog.Before) :
    sortLogs (logs.filterMap IndexedLog.position?) (logs.filterMap IndexedLog.charge?) = logs := by
  let r : IndexedLog → IndexedLog → Prop :=
    fun a b => a.place.1 < b.place.1 ∨ a.place.1 = b.place.1 ∧ a.place.2 ≤ b.place.2
  have : Std.Total r := ⟨fun a b => by simp only [r]; omega⟩
  have : IsTrans IndexedLog r := ⟨fun a b c hab hbc => by simp only [r] at *; omega⟩
  have hperm : ∀ logs : List IndexedLog,
      ((logs.filterMap IndexedLog.position?).map IndexedLog.position ++
        (logs.filterMap IndexedLog.charge?).map IndexedLog.charge).Perm logs := by
    intro logs
    induction logs with
    | nil => exact .refl _
    | cons log logs ih =>
      cases log with
      | position log => exact ih.cons _
      | charge log => exact List.perm_middle.trans (ih.cons _)
  have hle : logs.Pairwise r :=
    hlogs.imp fun {a b} hab => hab.imp_right fun ⟨heq, hlt⟩ => ⟨heq, Nat.le_of_lt hlt⟩
  have : Std.Symm fun a b : IndexedLog => a.Before b ∨ b.Before a := ⟨fun _ _ => Or.symm⟩
  have hsymm : logs.Pairwise fun a b => a.Before b ∨ b.Before a := hlogs.imp .inl
  -- two logs of one place are one log
  have hone : ∀ a b, a ∈ sortLogs (logs.filterMap IndexedLog.position?)
      (logs.filterMap IndexedLog.charge?) → b ∈ logs → r a b → r b a → a = b := by
    intro a b ha hb hab hba
    by_contra hne
    have ha := (hperm logs).subset ((List.mem_insertionSort r).1 ha)
    have hplace : ¬a.Before b ∧ ¬b.Before a := by
      simp only [r] at hab hba
      simp only [IndexedLog.Before]
      omega
    obtain hlt | hlt := hsymm.forall ha hb hne
    · exact hplace.1 hlt
    · exact hplace.2 hlt
  exact List.Perm.eq_of_pairwise hone (List.pairwise_insertionSort r _) hle
    ((List.perm_insertionSort r _).trans (hperm logs))

/-! ### A truthful node -/

section Sample

/-- A position that is opened in block 2 and charged in block 7. -/
def sampleContract : Contract lineForest where
  state _ _ := ⟨1, false, 5, 6, 250000000000000000, 1⟩
  logs identity h :=
    if identity = sampleIdentity ∧ h = 2 then
      [.position ⟨2, 2, 300, 0, ⟨3, 4, 10 ^ 21, 0, 500000, 0, true, 0, 1⟩⟩]
    else if identity = sampleIdentity ∧ h = 7 then
      [.charge ⟨7, 7, 901, 0, ⟨101, 3, 4, 2 * 10 ^ 18, 2 * 10 ^ 18, 10 ^ 21 - 2 * 10 ^ 18⟩⟩]
    else []
  placed identity h log hlog := by
    split_ifs at hlog with h₁ h₂
    · obtain ⟨-, rfl⟩ := h₁
      obtain rfl := List.mem_singleton.1 hlog
      exact ⟨rfl, rfl⟩
    · obtain ⟨-, rfl⟩ := h₂
      obtain rfl := List.mem_singleton.1 hlog
      exact ⟨rfl, rfl⟩
    · cases hlog
  ordered identity h := by split_ifs <;> simp
  mined identity h n hn a ha b hb := by
    have hancestor : lineForest.ancestor h n = n := lineForest_ancestor (Nat.le_of_lt hn)
    rw [hancestor] at hb
    have hne : n ≠ h := Nat.ne_of_lt hn
    split_ifs at ha hb with h₁ h₂ h₃ h₄ <;> simp_all [IndexedLog.key]

/-- The answers of a node of the sample contract. -/
def indexOracle (w : World) : (q : Query) → Except Failure (Reply q)
  | .verifyContract _ => .ok ()
  | .now => .ok (w.clock / 1000)
  | .blockNumber chainId => .ok (w.chains chainId).tip
  | .blockHash chainId block =>
    if block ≤ (w.chains chainId).tip then .ok (block : ℕ) else .error .other
  | .positionLogs identity first last => .ok ((sampleOutside.logsAt sampleContract w identity
      first last).filterMap IndexedLog.position?)
  | .chargeLogs identity first last => .ok ((sampleOutside.logsAt sampleContract w identity
      first last).filterMap IndexedLog.charge?)
  | .minimumStake identity block =>
    if block ≤ (w.chains identity.chainId).tip then .ok (1 : ℕ) else .error .other
  | .paused identity block =>
    if block ≤ (w.chains identity.chainId).tip then .ok false else .error .other
  | .operator identity (some block) =>
    if block ≤ (w.chains identity.chainId).tip then .ok (5 : ℕ) else .error .other
  | .priceUpdater identity (some block) =>
    if block ≤ (w.chains identity.chainId).tip then .ok (6 : ℕ) else .error .other
  | .preUsdPriceE18 identity block =>
    if block ≤ (w.chains identity.chainId).tip then .ok (250000000000000000 : ℕ)
    else .error .other
  | .preUsdPriceQuotedAt identity block =>
    if block ≤ (w.chains identity.chainId).tip then .ok (1 : ℕ) else .error .other
  | _ => .error .other

/-- The outside world of the index passes. -/
def indexOutside : Outside := ⟨sampleExternal, lineForest, fun w q a => a = indexOracle w q⟩

theorem canonical_line {w : World} {chainId block : ℕ} (hle : block ≤ (w.chains chainId).tip) :
    indexOutside.At w chainId block block :=
  Chain.Forest.canonical_eq_some.2 ⟨lineForest_canonical.2 hle, rfl⟩

theorem index_truthful : indexOutside.Truthful sampleContract where
  blockHash := by
    intro w chainId block hash hans
    change Except.ok hash = indexOracle w (.blockHash chainId block) at hans
    simp only [indexOracle] at hans
    split_ifs at hans with hle
    have heq : hash = block := Except.ok.inj hans
    rw [heq]
    exact canonical_line hle
  positionLogs := fun hans => Except.ok.inj hans
  chargeLogs := fun hans => Except.ok.inj hans
  minimumStake := by
    intro w identity block v hans
    change Except.ok v = indexOracle w (.minimumStake identity block) at hans
    simp only [indexOracle] at hans
    split_ifs at hans with hle
    exact ⟨block, canonical_line hle, Except.ok.inj hans⟩
  paused := by
    intro w identity block v hans
    change Except.ok v = indexOracle w (.paused identity block) at hans
    simp only [indexOracle] at hans
    split_ifs at hans with hle
    exact ⟨block, canonical_line hle, Except.ok.inj hans⟩
  operator := by
    intro w identity block v hans
    change Except.ok v = indexOracle w (.operator identity (some block)) at hans
    simp only [indexOracle] at hans
    split_ifs at hans with hle
    exact ⟨block, canonical_line hle, Except.ok.inj hans⟩
  priceUpdater := by
    intro w identity block v hans
    change Except.ok v = indexOracle w (.priceUpdater identity (some block)) at hans
    simp only [indexOracle] at hans
    split_ifs at hans with hle
    exact ⟨block, canonical_line hle, Except.ok.inj hans⟩
  preUsdPriceE18 := by
    intro w identity block v hans
    change Except.ok v = indexOracle w (.preUsdPriceE18 identity block) at hans
    simp only [indexOracle] at hans
    split_ifs at hans with hle
    exact ⟨block, canonical_line hle, Except.ok.inj hans⟩
  preUsdPriceQuotedAt := by
    intro w identity block v hans
    change Except.ok v = indexOracle w (.preUsdPriceQuotedAt identity block) at hans
    simp only [indexOracle] at hans
    split_ifs at hans with hle
    exact ⟨block, canonical_line hle, Except.ok.inj hans⟩

end Sample

end Market

end PreCommunity
