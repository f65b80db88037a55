import PreCommunity.Escrow.Conservation
import PreCommunity.Escrow.EventLog

/-!
# The events follow the canonical chain

The indexer passes over the log of the contract again and again, while the chain grows and
reorganises and everybody else writes the other tables.  It reads the logs of a range, projects
them one by one, and reads the hash of the last block of the range only then.  So what it stores is
the log of one branch as long as no reorganisation comes between these reads; a later one is caught
by the next pass, which starts over.

* `indexing O` : the passes of the indexer as a machine.
* `Indexed` : the rows up to the checkpoint are the log of the branch of the checkpoint.
* `Steady` : when logs are read, what is stored is on the branch they are read from.
* `events_canonical` : the stored events are the log of the canonical chain.
-/

namespace PreCommunity

namespace Escrow

open Store Concurrent

/-! ### The machine -/

/-- The steps of the others: the chain moves, or the tables that are not the indexer's change. -/
inductive IndexEnvironment (O : Outside) : World → World → Prop where
  | chain {w : World} {c : Chain.ChainState Hash} :
      O.forest.Follows w.chain c → O.forest.Consistent c →
      IndexEnvironment O w { w with chain := c }
  | tables {w : World} {db : Database} : SameLog w.db db → IndexEnvironment O w (w.withDb db)

/-- The passes of the indexer, one at a time. -/
def indexing (O : Outside) : Machine World Reply Failure Unit Unit where
  code _ := (indexEscrow O.config O.ext).silently ()
  slot _ := ()
  admits _ _ := true
  answers := O.answers
  env := IndexEnvironment O
  halt _ w := w

variable {O : Outside} {C : EscrowContract O.forest} {db db' : Database}

theorem IndexEnvironment.sameLog {w w' : World} (h : IndexEnvironment O w w') :
    SameLog w.db w'.db := by
  cases h with
  | chain => exact ⟨rfl, rfl⟩
  | tables hsame => exact hsame

theorem IndexEnvironment.follows {w w' : World} (h : IndexEnvironment O w w') :
    O.forest.Follows w.chain w'.chain := by
  cases h with
  | chain hfollows => exact hfollows
  | tables => exact .refl _

/-- **The protocol** of the indexer. -/
def indexProtocol (O : Outside) : Protocol (indexing O) where
  inv := (indexDiscipline O).inv
  le w w' := O.forest.Follows w.chain w'.chain
  rely _ := (indexDiscipline O).rely
  guar _ := (indexDiscipline O).guar
  asks _ := (indexDiscipline O).asks
  le_refl w := .refl w.chain
  le_trans := .trans
  rely_refl _ := (indexDiscipline O).rely_refl
  rely_trans := (indexDiscipline O).rely_trans
  guar_refl _ := (indexDiscipline O).guar_refl
  inv_guar _ hguar hinv := hguar.2.ownCheckpoint hinv
  inv_env h hinv := by
    show OwnCheckpoint _ _
    rw [OwnCheckpoint, h.sameLog.2]
    exact hinv
  inv_halt h := h
  le_guar _ hguar _ := by
    show O.forest.Follows _ _
    rw [hguar.1]
    exact .refl _
  le_env h := h.follows
  le_halt _ w := .refl w.chain
  rely_guar hne := absurd rfl hne
  rely_env h := h.sameLog
  rely_halt hne := absurd rfl hne
  code_safe _ _ := Routine.wp_silently wp_indexEscrow

/-- The node answers with what is on its chain. -/
structure Outside.Indexes (O : Outside) (C : EscrowContract O.forest) : Prop where
  block (w : World) (n : ℕ) (header : BlockHeader) : O.answers w (.block n) (.ok header) →
    O.forest.canonical w.chain n = some header.hash
  contractEvents (w : World) (first last : ℕ) (logs : List EscrowLog) :
    O.answers w (.contractEvents first last) (.ok logs) →
    logs = C.branch w.chain.tip first (min last (O.forest.number w.chain.tip))

/-! ### What is stored -/

/-- The row is that of a log of the contract. -/
def Genuine (C : EscrowContract O.forest) (row : ChainEvent) : Prop :=
  O.config.deploymentBlock ≤ row.blockNumber ∧ ∃ log ∈ C.logs row.blockHash,
    log.event.malformedProfile = false ∧ row = log.row O.config

/-- **What is stored**: rows of logs, without duplicates, and up to the checkpoint the log of its
branch. -/
structure Indexed (C : EscrowContract O.forest) (db : Database) : Prop where
  genuine : ∀ row ∈ db.events, Genuine C row
  keys : db.events.Pairwise fun a b => b.sameKey a = false
  number : ∀ state, db.checkpoint? O.config = some state →
    O.forest.number state.lastBlockHash = state.lastBlockNumber
  deployed : O.config.deploymentBlock ≤ db.nextBlock O.config
  sound : ∀ state, db.checkpoint? O.config = some state → ∀ row ∈ db.events,
    row.blockNumber ≤ state.lastBlockNumber →
      row.blockHash = O.forest.ancestor state.lastBlockHash row.blockNumber
  complete : ∀ state, db.checkpoint? O.config = some state → ∀ n,
    O.config.deploymentBlock ≤ n → n ≤ state.lastBlockNumber →
      ∀ log ∈ C.logs (O.forest.ancestor state.lastBlockHash n),
        log.event.malformedProfile = false → log.row O.config ∈ db.events

theorem Genuine.number {row : ChainEvent} (h : Genuine C row) :
    O.forest.number row.blockHash = row.blockNumber := by
  obtain ⟨-, log, hlog, -, heq⟩ := h
  obtain ⟨hnumber, -⟩ := C.placed _ log hlog
  rw [← hnumber, heq]
  rfl

theorem Indexed.congr (h : SameLog db db') (hdb : Indexed C db) : Indexed C db' := by
  obtain ⟨hevents, hindexers⟩ := h
  have hstate : db'.checkpoint? O.config = db.checkpoint? O.config := by
    rw [Database.checkpoint?, Database.checkpoint?, hindexers]
  obtain ⟨hgenuine, hkeys, hnumber, hdeployed, hsound, hcomplete⟩ := hdb
  refine ⟨?_, ?_, ?_, ?_, ?_, ?_⟩
  · rwa [hevents]
  · rwa [hevents]
  · rwa [hstate]
  · rwa [nextBlock_congr hindexers]
  · rwa [hstate, hevents]
  · rwa [hstate, hevents]

theorem nextBlock_of_checkpoint {state : IndexerState} (h : db.checkpoint? O.config = some state) :
    db.nextBlock O.config = state.lastBlockNumber + 1 := by
  rw [Database.nextBlock, h]
  rfl

/-- **A log** of a block that is not indexed yet. -/
theorem Indexed.log {w₀ : World} {first last timestamp : ℕ} {logs : List EscrowLog}
    {log : EscrowLog} {r : Bool × Option MetadataRefresh} (hread : logs = C.branch w₀.chain.tip
      first (min last (O.forest.number w₀.chain.tip))) (hlog : log ∈ logs)
    (hwell : log.event.malformedProfile = false) (hnext : db.nextBlock O.config = first)
    (hproject : projectLog O.config O.ext (log.decoded timestamp) db = .ok (db', r))
    (hdb : Indexed C db) : Indexed C db' := by
  rcases projectLog_log hproject with ⟨rfl, -⟩ | ⟨hnew, hevents, hindexers⟩
  · exact hdb
  -- the row comes after the checkpoint
  have hrow : (log.decoded timestamp).row O.config = log.row O.config := rfl
  rw [hrow] at hnew hevents
  rw [hread] at hlog
  obtain ⟨n, hfirst, hn, hmem⟩ := EscrowContract.mem_branch.1 hlog
  obtain ⟨hnumber, hhash⟩ := C.placed _ log hmem
  rw [Chain.Forest.number_ancestor (by omega)] at hnumber
  have hdeployed := hdb.deployed
  have hbeyond : ∀ state, db.checkpoint? O.config = some state →
      ¬log.blockNumber ≤ state.lastBlockNumber := by
    intro state hstate
    rw [nextBlock_of_checkpoint hstate] at hnext
    omega
  have hstate : db'.checkpoint? O.config = db.checkpoint? O.config := by
    rw [Database.checkpoint?, Database.checkpoint?, hindexers]
  refine ⟨?_, ?_, ?_, ?_, ?_, ?_⟩
  · intro row hmem'
    rw [hevents] at hmem'
    rcases List.mem_append.1 hmem' with hold | hlast
    · exact hdb.genuine row hold
    · rw [List.mem_singleton.1 hlast]
      refine ⟨?_, log, ?_, hwell, rfl⟩
      · show O.config.deploymentBlock ≤ log.blockNumber
        omega
      · show log ∈ C.logs log.blockHash
        rwa [hhash]
  · rw [hevents]
    refine List.pairwise_append.2 ⟨hdb.keys, List.pairwise_singleton _ _, ?_⟩
    intro row hold row' hlast
    rw [List.mem_singleton.1 hlast]
    exact Bool.eq_false_of_not_eq_true (List.any_eq_false.1 hnew row hold)
  · rw [hstate]
    exact hdb.number
  · rw [nextBlock_congr hindexers]
    exact hdeployed
  · intro state hsome row hmem' hle
    rw [hstate] at hsome
    rw [hevents] at hmem'
    rcases List.mem_append.1 hmem' with hold | hlast
    · exact hdb.sound state hsome row hold hle
    · rw [List.mem_singleton.1 hlast] at hle
      exact absurd hle (hbeyond state hsome)
  · intro state hsome m hm hle other hother hotherWell
    rw [hstate] at hsome
    rw [hevents]
    exact List.mem_append_left _ (hdb.complete state hsome m hm hle other hother hotherWell)

/-- **A reset** removes every row. -/
theorem Indexed.rebuild (hown : OwnCheckpoint O.config db) (hdb : Indexed C db) :
    Indexed C (resetChainProjection O.config db) := by
  have hnone := checkpoint?_reset hown
  have hempty : (resetChainProjection O.config db).events = [] := by
    refine List.filter_eq_nil_iff.2 fun row hrow hchain => ?_
    obtain ⟨-, log, -, -, heq⟩ := hdb.genuine row hrow
    exact of_decide_eq_true hchain (heq ▸ rfl)
  refine ⟨?_, ?_, ?_, ?_, ?_, ?_⟩
  · rw [hempty]
    exact fun row hrow => absurd hrow List.not_mem_nil
  · rw [hempty]
    exact .nil
  · rw [hnone]
    exact fun _ h => absurd h (Option.some_ne_none _).symm
  · rw [Database.nextBlock, hnone]
    exact Nat.le_refl _
  · rw [hnone]
    exact fun _ h => absurd h (Option.some_ne_none _).symm
  · rw [hnone]
    exact fun _ h => absurd h (Option.some_ne_none _).symm

/-! ### Steady reads -/

/-- What is stored is on the chain: the checkpoint, and the rows that are past it. -/
def World.Current (O : Outside) (w : World) : Prop :=
  (∀ state ∈ w.db.checkpoint? O.config, O.forest.Canonical w.chain state.lastBlockHash) ∧
    ∀ row ∈ w.db.events, w.db.nextBlock O.config ≤ row.blockNumber →
      O.forest.Canonical w.chain row.blockHash

instance (w : World) : Decidable (w.Current O) := inferInstanceAs (Decidable (_ ∧ _))

/-- When the logs were read, what was stored was on their chain. -/
def steadyRead (O : Outside) : Event World Reply Failure → Bool
  | .asked w₀ (.contractEvents _ _) (.ok _) => w₀.Current O
  | _ => true

/-- The hash of the last block of a range, when it is read after the logs, is on their chain. -/
def steadyHeader (O : Outside) : Event World Reply Failure → Event World Reply Failure → Bool
  | .asked _ (.block n) (.ok header), .asked w₀ (.contractEvents _ last) (.ok _) =>
    n ≠ last ∨ O.forest.Canonical w₀.chain (BlockHeader.hash header)
  | _, _ => true

/-- **The steadiness of a pass**: when the logs of a range are read, no reorganisation has removed
what is stored, and none comes before the last block of the range is read. -/
def Steady (O : Outside) : Label World Reply Failure Unit → Prop
  | .act _ _ h (.ran _ _) => h.all (steadyRead O) = true ∧
    h.Pairwise fun later earlier => steadyHeader O later earlier = true
  | _ => True

instance : DecidablePred (Steady O)
  | .act _ _ _ (.ran _ _) => inferInstanceAs (Decidable (_ ∧ _))
  | .act _ _ _ (.asked _ _ _) | .env | .start _ | .stop _ | .crash _ =>
    inferInstanceAs (Decidable True)

/-- **A checkpoint** after a range that was read steadily. -/
theorem Indexed.checkpoint {w₀ : World} {first last : ℕ} {logs : List EscrowLog}
    {header : BlockHeader} (hread : logs = C.branch w₀.chain.tip first
      (min last (O.forest.number w₀.chain.tip)))
    (hnumber : O.forest.number header.hash = last)
    (hheader : O.forest.Canonical w₀.chain header.hash) (hcurrent : w₀.Current O)
    (hle : first ≤ last) (hnext : w₀.db.nextBlock O.config = first)
    (hindexers : db.indexers = w₀.db.indexers)
    (hrows : ∀ row ∈ db.events, row ∈ w₀.db.events ∨
      ∃ log ∈ logs, log.event.malformedProfile = false ∧ row = log.row O.config)
    (hseen : ∀ log ∈ logs, log.event.malformedProfile = false →
      db.events.any (log.row O.config).sameKey = true)
    (hdb : Indexed C db) : Indexed C (storeCheckpoint O.config last header.hash db) := by
  have hevents : (storeCheckpoint O.config last header.hash db).events = db.events := by
    unfold storeCheckpoint
    split_ifs <;> rfl
  have hstate : db.checkpoint? O.config = w₀.db.checkpoint? O.config := by
    rw [Database.checkpoint?, Database.checkpoint?, hindexers]
  have hdbnext : db.nextBlock O.config = first := (nextBlock_congr hindexers).trans hnext
  have hlast : last ≤ O.forest.number w₀.chain.tip := hnumber ▸ hheader.1
  have htip : ∀ n, n ≤ last →
      O.forest.ancestor header.hash n = O.forest.ancestor w₀.chain.tip n := by
    intro n hn
    rw [← hheader.2, hnumber, Chain.Forest.ancestor_ancestor hn hlast]
  -- below the range the two branches are one
  have hbelow : ∀ n, n < first → O.config.deploymentBlock ≤ n → ∃ state,
      db.checkpoint? O.config = some state ∧ n ≤ state.lastBlockNumber ∧
        O.forest.ancestor header.hash n = O.forest.ancestor state.lastBlockHash n := by
    intro n hn hdeployed
    cases hsome : db.checkpoint? O.config with
    | none =>
      rw [Database.nextBlock, hsome] at hdbnext
      have hfirst : O.config.deploymentBlock = first := hdbnext
      omega
    | some state =>
      have hcanonical := hcurrent.1 state (hstate ▸ hsome)
      have hnum := hdb.number state hsome
      rw [nextBlock_of_checkpoint hsome] at hdbnext
      refine ⟨state, rfl, by omega, ?_⟩
      rw [← hheader.ancestor_eq hcanonical (by omega), hnum,
        Chain.Forest.ancestor_ancestor (by omega) (by omega)]
  -- every row is on the chain of the range
  have hcanonical : ∀ row ∈ db.events, row.blockNumber ≤ O.forest.number w₀.chain.tip ∧
      row.blockHash = O.forest.ancestor w₀.chain.tip row.blockNumber := by
    intro row hrow
    have hgenuine := hdb.genuine row hrow
    have hnum := hgenuine.number
    rcases Nat.lt_or_ge row.blockNumber first with hlt | hge
    · obtain ⟨state, hsome, hn, hsame⟩ := hbelow _ hlt hgenuine.1
      refine ⟨by omega, ?_⟩
      rw [hdb.sound state hsome row hrow hn, ← hsame, htip _ (by omega)]
    · rcases hrows row hrow with hold | ⟨log, hlog, -, rfl⟩
      · have hthere := hcurrent.2 row hold (hnext ▸ hge)
        exact ⟨hnum ▸ hthere.1, by rw [← hnum, hthere.2]⟩
      · rw [hread] at hlog
        obtain ⟨n, -, hn, hmem⟩ := EscrowContract.mem_branch.1 hlog
        obtain ⟨hplace, hhash⟩ := C.placed _ log hmem
        rw [Chain.Forest.number_ancestor (by omega)] at hplace
        refine ⟨?_, ?_⟩
        · show log.blockNumber ≤ _
          omega
        · show log.blockHash = O.forest.ancestor w₀.chain.tip log.blockNumber
          rw [hhash, hplace]
  obtain ⟨state', hstate', hlast', hhash'⟩ :=
    find?_storeCheckpoint O.config last header.hash db
  have honly : ∀ state, (storeCheckpoint O.config last header.hash db).checkpoint? O.config =
      some state → state.lastBlockNumber = last ∧ state.lastBlockHash = header.hash := by
    intro state hsome
    obtain rfl := Option.some.inj (hstate'.symm.trans hsome)
    exact ⟨hlast', hhash'⟩
  refine ⟨?_, ?_, ?_, ?_, ?_, ?_⟩
  · rw [hevents]
    exact hdb.genuine
  · rw [hevents]
    exact hdb.keys
  · intro state hsome
    obtain ⟨hl, hh⟩ := honly state hsome
    rw [hl, hh, hnumber]
  · rw [nextBlock_storeCheckpoint]
    have hdeployed := hdb.deployed
    omega
  · intro state hsome row hrow hrowle
    obtain ⟨hl, hh⟩ := honly state hsome
    rw [hevents] at hrow
    rw [hh, htip _ (hl ▸ hrowle)]
    exact (hcanonical row hrow).2
  · intro state hsome n hdeployed hn log hlog hwell
    obtain ⟨hl, hh⟩ := honly state hsome
    rw [hl] at hn
    rw [hh] at hlog
    rw [hevents]
    rcases Nat.lt_or_ge n first with hlt | hge
    · obtain ⟨state₀, hsome₀, hn₀, hsame⟩ := hbelow n hlt hdeployed
      rw [hsame] at hlog
      exact hdb.complete state₀ hsome₀ n hdeployed hn₀ log hlog hwell
    · rw [htip n hn] at hlog
      have hmem : log ∈ logs := by
        rw [hread]
        exact EscrowContract.mem_branch.2 ⟨n, hge, by omega, hlog⟩
      -- the row with the key of the log is on the same chain, so it is the log's
      obtain ⟨row, hrow, hkey⟩ := List.any_eq_true.1 (hseen log hmem hwell)
      obtain ⟨-, htx, hindex⟩ := of_decide_eq_true hkey
      obtain ⟨hheight, hplace⟩ := hcanonical row hrow
      obtain ⟨-, other, hother, -, heq⟩ := hdb.genuine row hrow
      rw [hplace] at hother
      have hsame : log = other := by
        refine EscrowContract.eq_of_key (by omega) hheight hlog hother ?_ ?_
        · rw [heq] at htx
          exact htx
        · rw [heq] at hindex
          exact hindex
      rwa [hsame, ← heq]

/-- **One transaction** of a pass. -/
theorem IndexWrite.indexed (htrue : O.Indexes C) {h : Log}
    (hanswered : ∀ w q a, .asked w q a ∈ h → O.answers w q a)
    (hread : h.all (steadyRead O) = true)
    (hheader : h.Pairwise fun later earlier => steadyHeader O later earlier = true)
    (hown : OwnCheckpoint O.config db)
    (hw : IndexWrite O.config O.ext h db db') (hdb : Indexed C db) : Indexed C db' := by
  cases hw with
  | elsewhere hsame => exact hdb.congr hsame
  | log hasked hlog hwell hnext hproject =>
    have hlogs := htrue.contractEvents _ _ _ _ (hanswered _ _ _ hasked)
    exact hdb.log hlogs hlog hwell hnext hproject
  | checkpoint hasked hle hnext hindexers hrows hseen =>
    have hlogs := htrue.contractEvents _ _ _ _ (hanswered _ _ _ (.tail _ hasked))
    have hblock := htrue.block _ _ _ (hanswered _ _ _ (.head _))
    have hcurrent := of_decide_eq_true (List.all_eq_true.1 hread _ (.tail _ hasked))
    have hcanonical := of_decide_eq_true ((List.pairwise_cons.1 hheader).1 _ hasked)
    exact hdb.checkpoint hlogs (Chain.Forest.canonical_eq_some.1 hblock).2
      (hcanonical.resolve_left fun hne => hne rfl) hcurrent hle hnext hindexers hrows hseen
  | rebuild => exact hdb.rebuild hown

/-- What is stored in every reachable state. -/
theorem indexed_of_run (htrue : O.Indexes C) {w : World} {c : Config World Reply Failure Unit Unit}
    {ls : List (Label World Reply Failure Unit)} (hevents : w.db.events = [])
    (hindexers : w.db.indexers = []) (hrun : (indexing O).Run (Config.idle w) ls c)
    (hsteady : ∀ l ∈ ls, Steady O l) : Indexed C c.shared.db := by
  have hown : OwnCheckpoint O.config w.db := by
    rw [OwnCheckpoint, hindexers]
    exact fun row hrow => absurd hrow List.not_mem_nil
  have hnone : w.db.checkpoint? O.config = none := by
    rw [Database.checkpoint?, hindexers]
    rfl
  have hstart : Indexed C w.db := by
    refine ⟨?_, ?_, ?_, ?_, ?_, ?_⟩
    · rw [hevents]
      exact fun row hrow => absurd hrow List.not_mem_nil
    · rw [hevents]
      exact .nil
    · rw [hnone]
      exact fun _ h => absurd h (Option.some_ne_none _).symm
    · rw [Database.nextBlock, hnone]
      exact Nat.le_refl _
    · rw [hnone]
      exact fun _ h => absurd h (Option.some_ne_none _).symm
    · rw [hnone]
      exact fun _ h => absurd h (Option.some_ne_none _).symm
  have hidle : (indexProtocol O).Safe (Config.idle w) := Protocol.safe_idle hown
  refine (hidle.along (L := Steady O) (J := fun _ w => Indexed C w.db) (R := fun _ _ => True)
    (fun _ => trivial) ?_ ?_ ?_ ?_ (Protocol.recalls_idle _) hstart hrun hsteady).1
  · exact fun ls l w _ hw => hw
  · intro ls w w' _ henv hw
    exact ⟨hw.congr (IndexEnvironment.sameLog henv), fun _ _ => trivial⟩
  · exact fun ls j w _ hw => ⟨hw, fun _ _ => trivial⟩
  · intro ls j began h w w' hl hinv hrec _ hguar hw
    refine ⟨?_, fun _ _ => trivial⟩
    exact hguar.2.indexed htrue hrec.answered hl.1 hl.2 hinv hw

/-! ### The canonical log -/

theorem EscrowContract.pairwise_branch (C : EscrowContract O.forest) (tip : Hash) (first last : ℕ)
    (hlast : last ≤ O.forest.number tip) : (C.branch tip first last).Pairwise fun a b =>
      ¬(a.txHash = b.txHash ∧ a.logIndex = b.logIndex) := by
  refine List.pairwise_flatMap.2 ⟨?_, ?_⟩
  · intro n _
    exact (C.ordered _).imp fun hlt h => absurd h.2 (Nat.ne_of_lt hlt)
  · have hrange : (List.range' first (last + 1 - first)).Pairwise fun n m => n < m :=
      List.pairwise_lt_range'
    refine hrange.imp_of_mem fun {n m} hn hm hlt a ha b hb h => ?_
    have hn := List.mem_range'_1.1 hn
    have hm := List.mem_range'_1.1 hm
    obtain rfl := EscrowContract.eq_of_key (by omega) (by omega) ha hb h.1 h.2
    have hna := (C.placed _ a ha).1
    have hma := (C.placed _ a hb).1
    rw [Chain.Forest.number_ancestor (by omega)] at hna hma
    omega

/-! ### A sample run of the indexer -/

section Sample

/-- Two branches, of the even and of the odd hashes; the block of the hash `h` has the number
`h / 2`. -/
def twoBranches : Chain.Forest Hash := ⟨fun h => h - 2, fun h => h / 2, fun h => by omega⟩

/-- The owner of the contract is set in the block 3 of either branch, by different transactions. -/
def ownedContract : EscrowContract twoBranches where
  logs h := if h / 2 = 3 then [⟨.ownershipTransferred 0 h, 3, h, h, 0⟩] else []
  placed h log hlog := by
    split_ifs at hlog with hthree
    · rw [List.mem_singleton.1 hlog]
      exact ⟨hthree.symm, rfl⟩
    · exact absurd hlog List.not_mem_nil
  ordered h := by
    split_ifs
    · exact List.pairwise_singleton _ _
    · exact .nil
  mined h n hn a ha b hb := by
    have hnumber : twoBranches.number (twoBranches.ancestor h n) = n :=
      Chain.Forest.number_ancestor (Nat.le_of_lt hn)
    split_ifs at ha hb with hthree hthree'
    · have hn : n < 3 := hthree ▸ hn
      have heq : n = 3 := hnumber.symm.trans hthree'
      omega
    · exact absurd hb List.not_mem_nil
    · exact absurd ha List.not_mem_nil
    · exact absurd ha List.not_mem_nil

/-- What a node answers. -/
def nodeOracle (w : World) : (q : Query) → Except Failure (Reply q)
  | .verifyManifest => .ok ()
  | .blockNumber => .ok (twoBranches.number w.chain.tip)
  | .block n => (twoBranches.canonical w.chain n).elim (.error .other) fun h =>
    .ok (BlockHeader.mk h n)
  | .contractEvents first last =>
    .ok (ownedContract.branch w.chain.tip first (min last (twoBranches.number w.chain.tip)))
  | _ => .error .other

/-- The outside world of the sample run. -/
def nodeOutside : Outside where
  config := sampleDeployment
  ext := sampleOutside.ext
  forest := twoBranches
  answers w q a := a = nodeOracle w q

theorem nodeOutside_indexes : nodeOutside.Indexes ownedContract where
  block w n header h := by
    have heq : (.ok header : Except Failure BlockHeader) =
      (twoBranches.canonical w.chain n).elim (.error .other) fun h => .ok (BlockHeader.mk h n) := h
    show twoBranches.canonical w.chain n = some header.hash
    cases hcanonical : twoBranches.canonical w.chain n with
    | none =>
      rw [hcanonical] at heq
      cases heq
    | some hash =>
      rw [hcanonical] at heq
      obtain rfl := Except.ok.inj heq
      rfl
  contractEvents w first last logs h := Except.ok.inj h

/-- The canonical chain of the first pass. -/
def firstChain : Chain.ChainState Hash := ⟨12, []⟩

/-- The chain after a reorganisation. -/
def secondChain : Chain.ChainState Hash := ⟨15, [12, 10, 8, 6, 4, 2, 0]⟩

theorem secondChain_follows : twoBranches.Follows firstChain secondChain := by
  refine ⟨fun h hh => absurd hh List.not_mem_nil, fun h hh => .inr ?_⟩
  have hall : ∀ n < 7, twoBranches.ancestor 12 n ∈ secondChain.orphaned := by decide
  rw [← hh.2]
  exact hall _ (Nat.lt_succ_of_le hh.1)

theorem secondChain_consistent : twoBranches.Consistent secondChain := by
  have hall : ∀ h ∈ [12, 10, 8, 6, 4, 2, 0], ¬twoBranches.Canonical secondChain h := by decide
  exact hall

/-- The reorganisation. -/
def reorganise (w : World) : Option World :=
  if w.chain.tip = 12 ∧ w.chain.orphaned = [] then some { w with chain := secondChain } else none

/-- A pass of `n` actions. -/
def indexes (n : ℕ) : List (Move World Reply Failure Unit Unit) :=
  [.start (), .act () n nodeOracle, .stop ()]

/-- A pass, a reorganisation, and a pass that starts over. -/
def reindexingRun : List (Move World Reply Failure Unit Unit) :=
  indexes 8 ++ [.env reorganise] ++ indexes 10

theorem allows_reindexingRun : ∀ m ∈ reindexingRun, (indexing nodeOutside).Allows m := by
  have hpass : ∀ n, ∀ m ∈ indexes n, (indexing nodeOutside).Allows m := by
    intro n
    refine List.forall_mem_cons.2 ⟨trivial, List.forall_mem_cons.2 ⟨?_, List.forall_mem_cons.2
      ⟨trivial, fun m hm => absurd hm List.not_mem_nil⟩⟩⟩
    exact fun w q => rfl
  intro m hm
  rcases List.mem_append.1 hm with hm | hm
  · rcases List.mem_append.1 hm with hm | hm
    · exact hpass 8 m hm
    · rw [List.mem_singleton.1 hm]
      intro w w' hmove
      unfold reorganise at hmove
      split_ifs at hmove with hchain
      obtain rfl := Option.some.inj hmove
      have hfirst : w.chain = firstChain := by
        rw [firstChain, ← hchain.1, ← hchain.2]
      exact .chain (hfirst ▸ secondChain_follows) secondChain_consistent
  · exact hpass 10 m hm

/-- The world before the first pass. -/
def indexingStart : Config World Reply Failure Unit Unit := Config.idle (World.initial firstChain)

theorem reindexing_isSome :
    ((indexing nodeOutside).play reindexingRun indexingStart).isSome = true := by
  decide +kernel

/-- The end of the sample run. -/
def reindexingEnd : Config World Reply Failure Unit Unit :=
  ((indexing nodeOutside).play reindexingRun indexingStart).get reindexing_isSome

theorem reindexing_checkpoint : reindexingEnd.shared.db.checkpoint? nodeOutside.config =
    some ⟨[], 1, 6, 13⟩ := by
  decide +kernel

theorem reindexing_steady :
    ∀ l ∈ (indexing nodeOutside).labels reindexingRun indexingStart, Steady nodeOutside l := by
  decide +kernel

end Sample

/-- **The stored events are the log of the canonical chain.**  After any run of passes, between
which the chain moves at will, the rows up to the checkpoint are those of the logs of its branch
that can be stored, each once. -/
theorem events_canonical (C : EscrowContract O.forest) (htrue : O.Indexes C) {w : World}
    {c : Config World Reply Failure Unit Unit} {ls : List (Label World Reply Failure Unit)}
    (hevents : w.db.events = []) (hindexers : w.db.indexers = [])
    (hrun : (indexing O).Run (Config.idle w) ls c) (hsteady : ∀ l ∈ ls, Steady O l)
    (state : IndexerState) (hstate : c.shared.db.checkpoint? O.config = some state)
    (hcanonical : O.forest.Canonical c.shared.chain state.lastBlockHash) :
    (c.shared.db.events.filter fun row => row.blockNumber ≤ state.lastBlockNumber).Perm
      (((C.branch c.shared.chain.tip O.config.deploymentBlock state.lastBlockNumber).filter
        fun log => !log.event.malformedProfile).map (EscrowLog.row O.config)) := by
  have hdb : Indexed C c.shared.db := indexed_of_run htrue hevents hindexers hrun hsteady
  have hnumber := hdb.number state hstate
  have hheight : state.lastBlockNumber ≤ O.forest.number c.shared.chain.tip :=
    hnumber ▸ hcanonical.1
  have htip : ∀ n, n ≤ state.lastBlockNumber → O.forest.ancestor state.lastBlockHash n =
      O.forest.ancestor c.shared.chain.tip n := by
    intro n hn
    rw [← hcanonical.2, hnumber, Chain.Forest.ancestor_ancestor hn hheight]
  have hnodup : c.shared.db.events.Nodup := by
    refine hdb.keys.imp fun {a b} hkey heq => ?_
    rw [heq] at hkey
    exact Bool.false_ne_true (hkey.symm.trans (decide_eq_true ⟨rfl, rfl, rfl⟩))
  refine (List.perm_ext_iff_of_nodup (hnodup.filter _) ?_).2 fun row => ?_
  · refine (List.pairwise_map.2 ?_ : List.Pairwise _ _)
    refine ((C.pairwise_branch _ _ _ hheight).filter _).imp fun hne heq => hne ?_
    exact ⟨congrArg ChainEvent.txHash heq, congrArg ChainEvent.logIndex heq⟩
  · simp only [List.mem_filter, List.mem_map, decide_eq_true_eq, Bool.not_eq_true']
    constructor
    · rintro ⟨hrow, hle⟩
      obtain ⟨hdeployed, log, hlog, hwell, rfl⟩ := hdb.genuine row hrow
      refine ⟨log, ⟨EscrowContract.mem_branch.2 ⟨_, hdeployed, hle, ?_⟩, hwell⟩, rfl⟩
      rwa [← htip _ hle, ← hdb.sound state hstate _ hrow hle]
    · rintro ⟨log, ⟨hmem, hwell⟩, rfl⟩
      obtain ⟨n, hdeployed, hle, hlog⟩ := EscrowContract.mem_branch.1 hmem
      have hplace := (C.placed _ log hlog).1
      rw [Chain.Forest.number_ancestor (by omega)] at hplace
      refine ⟨?_, ?_⟩
      · rw [← htip n hle] at hlog
        exact hdb.complete state hstate n hdeployed hle log hlog hwell
      · show log.blockNumber ≤ state.lastBlockNumber
        omega

theorem events_canonical_sample :
    reindexingEnd.shared.db.events = [⟨1, 7, 0, 3, 7, .ownershipTransferred 0 7⟩] ∧
      (reindexingEnd.shared.db.events.filter fun row => row.blockNumber ≤ 6).Perm
        (((ownedContract.branch reindexingEnd.shared.chain.tip 0 6).filter
          fun log => !log.event.malformedProfile).map (EscrowLog.row sampleDeployment)) := by
  refine ⟨by decide +kernel, ?_⟩
  exact events_canonical ownedContract nodeOutside_indexes rfl rfl
    (Machine.run_labels allows_reindexingRun (Option.some_get reindexing_isSome).symm)
    reindexing_steady ⟨[], 1, 6, 13⟩ reindexing_checkpoint (by decide +kernel)

end Escrow

end PreCommunity
