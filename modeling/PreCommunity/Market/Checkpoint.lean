import PreCommunity.Market.Replacement

/-!
# The reconciliation checkpoint

A charge pass saves the block up to which it has checked every closed batch.  Later passes skip
those batches as long as that block is canonical.  The checkpoint vouches for them in a form that
no reorganisation can break: *if the checkpoint is canonical, so is the receipt's block*.

* `Outside.NamesBlocks` : the node names the canonical block of a number.
* `Vouched` : the checkpoint vouches for the closed batches below it.
* `Reaches.checkpoint` : it does so in every state of every run.
* `section_sound` : what a reconciliation section that has gone through leaves behind.
* `checkpoint_sound` : all of it.
-/

namespace PreCommunity

namespace Market

open Store Concurrent

/-- The node names the canonical block of a number. -/
def Outside.NamesBlocks (O : Outside) : Prop :=
  ∀ w chainId block hash, O.answers w (.blockHash chainId block) (.ok hash) →
    O.forest.canonical (w.chains chainId) block = some hash

/-- Every checkpoint was canonical, and it agrees with the receipts of the closed batches below
it. -/
structure Vouched (F : Chain.Forest Hash) (w : World) : Prop where
  known : ∀ identity block hash, w.db.checkpoint identity = some (block, hash) →
    F.number hash = block ∧ F.Known (w.chains identity.chainId) hash
  rows : ∀ identity block hash, w.db.checkpoint identity = some (block, hash) →
    ∀ row ∈ w.db.batches, row.identity = identity → row.status.terminal = true →
      ∀ n, row.receiptBlockNumber = some n → n ≤ block →
        ∃ hash', row.receiptBlockHash = some hash' ∧
          F.Agrees (w.chains identity.chainId) hash n hash'

section

variable {O : Outside} {w w' : World} {h : Log} {deps : ChargeDependencies}

/-! ### What the log tells -/

/-- The first block hash of a pass splits its log. -/
theorem FirstHash.split {chainId block : ℕ} {hash : Hash}
    (hf : FirstHash chainId h block hash) : ∃ newer older w₀,
      h = newer ++ .asked w₀ (.blockHash chainId block) (.ok hash) :: older ∧
        older.filterMap (blockHashAnswer chainId) = [] := by
  obtain ⟨l, hl⟩ := List.getLast?_eq_some_iff.1 hf
  obtain ⟨newer, older, rfl, -, holder⟩ := List.filterMap_eq_append_iff.1 hl
  obtain ⟨first, e, rest, rfl, -, he, hrest⟩ := List.filterMap_eq_cons_iff.1 holder
  obtain ⟨w₀, rfl⟩ : ∃ w₀, e = .asked w₀ (.blockHash chainId block) (.ok hash) := by
    unfold blockHashAnswer at he
    split at he
    · split_ifs at he with hid
      obtain ⟨rfl, rfl⟩ := Prod.mk.inj (Option.some.inj he)
      exact ⟨_, by rw [hid]⟩
    · cases he
  exact ⟨newer ++ first, rest, w₀, by simp, hrest⟩

theorem FirstHash.asked {chainId block : ℕ} {hash : Hash} (hf : FirstHash chainId h block hash) :
    ∃ w₀, .asked w₀ (.blockHash chainId block) (.ok hash) ∈ h := by
  obtain ⟨newer, older, w₀, rfl, -⟩ := hf.split
  exact ⟨w₀, by simp⟩

/-- The first block hash of a pass was read before every other one. -/
theorem FirstHash.before {inv : World → Prop} {began : World}
    (hrec : Recorded inv (Grows O.forest) O.answers began h w) {chainId block n : ℕ}
    {hash hash' : Hash} (hf : FirstHash chainId h block hash) {w₁ : World}
    (hasked : .asked w₁ (.blockHash chainId n) (.ok hash') ∈ h) :
    ∃ w₀, O.answers w₀ (.blockHash chainId block) (.ok hash) ∧ Grows O.forest w₀ w₁ := by
  obtain ⟨newer, older, w₀, rfl, holder⟩ := hf.split
  refine ⟨w₀, hrec.answered _ _ _ (by simp), ?_⟩
  obtain hmem | hmem := List.mem_append.1 hasked
  · exact (List.pairwise_append.1 hrec.ordered).2.2 _ hmem _ (.head _)
  · obtain heq | hmem := List.mem_cons.1 hmem
    · cases heq
      exact .refl _
    · have := List.filterMap_eq_nil_iff.1 holder _ hmem
      simp [blockHashAnswer] at this

/-- A block that was named while the checkpoint was known agrees with the checkpoint. -/
theorem agrees_of_saw (hnames : O.NamesBlocks) {chainId n : ℕ} {hash hash' : Hash} {w₁ : World}
    (hknown : O.forest.Known (w₁.chains chainId) hash)
    (hans : O.answers w₁ (.blockHash chainId n) (.ok hash'))
    (hgrows : Grows O.forest w₁ w) : O.forest.Agrees (w.chains chainId) hash n hash' := by
  obtain ⟨hcanonical, rfl⟩ := Chain.Forest.canonical_eq_some.1 (hnames _ _ _ _ hans)
  exact (Chain.Forest.agrees_of_canonical hknown hcanonical).follows (hgrows.chains _)

/-- The log of a pass, whose actions were in states in which checkpoints vouch. -/
structure Witnessed (O : Outside) (h : Log) (w : World) : Prop where
  recorded : ∃ began, Recorded (Inv O.forest) (Grows O.forest) O.answers began h w
  vouched : ∀ e ∈ h, Vouched O.forest e.before

theorem Witnessed.known (hnames : O.NamesBlocks) (hh : Witnessed O h w)
    (hkept : CheckpointKept deps h w) {block n : ℕ} {hash hash' : Hash}
    (hcheckpoint : w.db.checkpoint deps.identity = some (block, hash)) {w₁ : World}
    (hasked : .asked w₁ (.blockHash deps.identity.chainId n) (.ok hash') ∈ h) :
    O.forest.Known (w₁.chains deps.identity.chainId) hash := by
  obtain ⟨began, hrec⟩ := hh.recorded
  obtain hsame | ⟨block₂, hash₂, hnow, hfirst⟩ := hkept
  · exact ((hh.vouched _ hasked).known _ _ _ ((hsame _ hasked).trans hcheckpoint)).2
  · obtain ⟨rfl, rfl⟩ := Prod.mk.inj (Option.some.inj (hcheckpoint.symm.trans hnow))
    obtain ⟨w₀, hans, hgrows⟩ := hfirst.before hrec hasked
    have hcanonical := (Chain.Forest.canonical_eq_some.1 (hnames _ _ _ _ hans)).1
    exact (hgrows.chains _).known (.inl hcanonical)

/-- A block that the pass was given agrees with the checkpoint. -/
theorem Witnessed.agrees (hnames : O.NamesBlocks) (hh : Witnessed O h w)
    (hkept : CheckpointKept deps h w) {block n : ℕ} {hash hash' : Hash}
    (hcheckpoint : w.db.checkpoint deps.identity = some (block, hash))
    (hsaw : SawHash deps.identity.chainId h n hash') :
    O.forest.Agrees (w.chains deps.identity.chainId) hash n hash' := by
  obtain ⟨w₁, hasked⟩ := hsaw
  obtain ⟨began, hrec⟩ := hh.recorded
  exact agrees_of_saw hnames (hh.known hnames hkept hcheckpoint hasked)
    (hrec.answered _ _ _ hasked) (hrec.until_ _ hasked)

/-! ### Writes -/

/-- A write that closes no batch leaves the checkpoint sound, and one that closes a batch does so
with a block that the pass was given. -/
theorem Vouched.step (hw : Vouched O.forest w) (hchains : w'.chains = w.chains)
    (hcheckpoint : ∀ identity, w'.db.checkpoint identity = w.db.checkpoint identity)
    (hrows : ∀ row' ∈ w'.db.batches, row'.status.terminal = true → ∀ n,
      row'.receiptBlockNumber = some n →
        (∃ row ∈ w.db.batches, row.identity = row'.identity ∧ row.status.terminal = true ∧
          row.receiptBlockNumber = some n ∧ row.receiptBlockHash = row'.receiptBlockHash) ∨
        ∃ hash', row'.receiptBlockHash = some hash' ∧ ∀ block hash,
          w.db.checkpoint row'.identity = some (block, hash) →
            O.forest.Agrees (w.chains row'.identity.chainId) hash n hash') :
    Vouched O.forest w' := by
  refine ⟨fun identity block hash hck => ?_,
    fun identity block hash hck row' hrow' hid hs n hn hle =>
    ?_⟩
  · rw [hchains]
    exact hw.known identity block hash (hcheckpoint identity ▸ hck)
  · rw [hcheckpoint] at hck
    rw [hchains]
    subst hid
    obtain ⟨row, hrow, hid, hs', hn', hhash⟩ | ⟨hash', hhash, hagrees⟩ := hrows row' hrow' hs n hn
    · obtain ⟨hash', hh, hagrees⟩ := hw.rows _ block hash hck row hrow hid hs' n hn' hle
      exact ⟨hash', hhash ▸ hh, hagrees⟩
    · exact ⟨hash', hhash, hagrees block hash hck⟩

/-- A write that closes no batch. -/
theorem Vouched.congr (hw : Vouched O.forest w) (hchains : w'.chains = w.chains)
    (hcheckpoint : ∀ identity, w'.db.checkpoint identity = w.db.checkpoint identity)
    (hrows : ∀ row' ∈ w'.db.batches, row'.status.terminal = true → row'.receiptBlockNumber.isSome →
      ∃ row ∈ w.db.batches, row.identity = row'.identity ∧ row.status.terminal = true ∧
        row.receiptBlockNumber = row'.receiptBlockNumber ∧
          row.receiptBlockHash = row'.receiptBlockHash) : Vouched O.forest w' :=
  hw.step hchains hcheckpoint fun row' hrow' hs n hn => by
    obtain ⟨row, hrow, hid, hs', hn', hhash⟩ := hrows row' hrow' hs (by simp [hn])
    exact .inl ⟨row, hrow, hid, hs', hn'.trans hn, hhash⟩

/-- A write of tables other than the batches. -/
theorem Vouched.of_eq (hw : Vouched O.forest w) (hchains : w'.chains = w.chains)
    (hcheckpoint : ∀ identity, w'.db.checkpoint identity = w.db.checkpoint identity)
    (hbatches : w'.db.batches = w.db.batches) : Vouched O.forest w' :=
  hw.congr hchains hcheckpoint fun row' hrow' hs _ =>
    ⟨row', hbatches ▸ hrow', rfl, hs, rfl, rfl⟩

theorem checkpoint_of_settings {db db' : Database} (h : db'.settings = db.settings)
    (identity : Identity) : db'.checkpoint identity = db.checkpoint identity := by
  unfold Database.checkpoint
  rw [h]

/-- An update of one batch that closes none. -/
theorem Vouched.mapBatch (hw : Vouched O.forest w) {id : Id} {f : ChargeBatch → ChargeBatch}
    {db : Database} (hbatches : db.batches = updateWhere (fun row => row.id = id) f w.db.batches)
    (hsettings : db.settings = w.db.settings)
    (hf : ∀ row, (f row).identity = row.identity ∧ ((f row).status.terminal = true →
      row.status.terminal = true ∧ (f row).receiptBlockNumber = row.receiptBlockNumber ∧
        (f row).receiptBlockHash = row.receiptBlockHash)) :
    Vouched O.forest (w.withDb db) := by
  refine hw.congr rfl (checkpoint_of_settings hsettings) fun row' hrow' hs _ => ?_
  rw [World.withDb_db, hbatches] at hrow'
  obtain ⟨hrow, -⟩ | ⟨row, hrow, -, rfl⟩ := mem_updateWhere_cases hrow'
  · exact ⟨row', hrow, rfl, hs, rfl, rfl⟩
  · obtain ⟨hid, hkeeps⟩ := hf row
    obtain ⟨hs', hn, hhash⟩ := hkeeps hs
    exact ⟨row, hrow, hid.symm, hs', hn.symm, hhash.symm⟩

/-- An update that closes one batch with a block that the pass was given. -/
theorem Vouched.closeBatch (hnames : O.NamesBlocks) (hh : Witnessed O h w)
    (hw : Vouched O.forest w) (hkept : CheckpointKept deps h w) {row : ChargeBatch}
    (hids : Keyed ChargeBatch.id w.db.batches) (hrow : row ∈ w.db.batches)
    (hidentity : row.identity = deps.identity) {f : ChargeBatch → ChargeBatch} {db : Database}
    (hbatches : db.batches = updateWhere (fun r => r.id = row.id) f w.db.batches)
    (hsettings : db.settings = w.db.settings) {n : ℕ} {hash : Hash}
    (hf : ∀ row, (f row).identity = row.identity ∧ (f row).receiptBlockNumber = some n ∧
      (f row).receiptBlockHash = some hash)
    (hsaw : SawHash deps.identity.chainId h n hash) : Vouched O.forest (w.withDb db) := by
  refine hw.step rfl (checkpoint_of_settings hsettings) fun row' hrow' hs m hm => ?_
  rw [World.withDb_db, hbatches] at hrow'
  obtain ⟨hold, -⟩ | ⟨r, hr, hp, rfl⟩ := mem_updateWhere_cases hrow'
  · exact .inl ⟨row', hold, rfl, hs, hm, rfl⟩
  · obtain rfl := hids.eq hr hrow (by simpa using hp)
    obtain ⟨hid, hn, hhash⟩ := hf r
    obtain rfl : n = m := Option.some.inj (hn.symm.trans hm)
    refine .inr ⟨hash, hhash, fun block hash' hck => ?_⟩
    rw [hid, hidentity] at hck ⊢
    exact hh.agrees hnames hkept hck hsaw

/-- The checkpoints after a report. -/
theorem checkpoint_report_cases (db : Database) (deps : ChargeDependencies) (pass : ChargePass)
    (identity : Identity) :
    (db.mapSettings deps.identity fun row => row.report deps pass).checkpoint identity =
        db.checkpoint identity ∨
      identity = deps.identity ∧ ∃ checkpoint, pass.reconciliationCheckpoint = some checkpoint ∧
        (db.mapSettings deps.identity fun row => row.report deps pass).checkpoint identity =
          some checkpoint := by
  by_cases hid : identity = deps.identity
  · subst hid
    cases hfind : db.settings.find? fun row => row.identity = deps.identity with
    | none =>
      left
      unfold Database.mapSettings
      rw [updateWhere_eq_self fun row hrow => by simpa using List.find?_eq_none.1 hfind row hrow]
      rfl
    | some row =>
      rw [checkpoint_report hfind]
      cases hpass : pass.reconciliationCheckpoint with
      | none => exact .inl rfl
      | some checkpoint => exact .inr ⟨rfl, checkpoint, rfl, rfl⟩
  · left
    unfold Database.checkpoint Database.mapSettings
    rw [withSettings_settings]
    congr 1
    unfold updateWhere
    induction db.settings with
    | nil => rfl
    | cons row rows ih =>
      rw [List.map_cons, List.find?_cons, List.find?_cons, ih]
      by_cases hrow : row.identity = deps.identity
      · simp [hrow, Ne.symm hid, ChargeSettings.report]
      · simp [hrow]

/-- What a section that has gone through knows of a closed batch: when it looked at the chain, the
block of the batch's receipt was canonical. -/
theorem Witnessed.reconciled (hnames : O.NamesBlocks) (hh : Witnessed O h w') {block : ℕ}
    {hash : Hash} (hr : Reconciled deps h w block hash) {row : ChargeBatch}
    (hrow : row ∈ w.db.batches) (hid : row.identity = deps.identity)
    (hs : row.status.terminal = true) {n : ℕ} (hn : row.receiptBlockNumber = some n) :
    ∃ hash' w₁ m hash₁, row.receiptBlockHash = some hash' ∧
      .asked w₁ (.blockHash deps.identity.chainId m) (.ok hash₁) ∈ h ∧
      O.forest.Canonical (w₁.chains deps.identity.chainId) hash' ∧ O.forest.number hash' = n := by
  obtain ⟨began, hrec⟩ := hh.recorded
  obtain ⟨hash', hhash, w₁, hasked⟩ | ⟨w₀, block₀, hash₀, hasked, hck, hle, hrow₀⟩ :=
    hr.2.2 row hrow hid hs n hn
  · obtain ⟨hcanonical, hnumber⟩ := Chain.Forest.canonical_eq_some.1
      (hnames _ _ _ _ (hrec.answered _ _ _ hasked))
    exact ⟨hash', w₁, n, hash', hhash, hasked, hcanonical, hnumber⟩
  · -- the batch was skipped: the checkpoint of that moment vouches for it
    obtain ⟨hcanonical, hnumber⟩ := Chain.Forest.canonical_eq_some.1
      (hnames _ _ _ _ (hrec.answered _ _ _ hasked))
    have hle : n ≤ O.forest.number hash₀ := hnumber ▸ hle
    rw [← hnumber] at hck
    obtain ⟨hash', hhash, hagrees⟩ :=
      (hh.vouched _ hasked).rows _ _ _ hck row hrow₀ hid hs n hn hle
    have hconsistent := (hrec.inv _ hasked).consistent deps.identity.chainId
    refine ⟨hash', w₀, block₀, hash₀, hhash, hasked,
      hagrees.canonical hconsistent hcanonical hle, ?_⟩
    rw [← hagrees.resolve_left (fun ho => hconsistent _ ho hcanonical) hle]
    exact Chain.Forest.number_ancestor hle

/-- A new checkpoint vouches for the batches that the section has checked. -/
theorem Witnessed.report (hnames : O.NamesBlocks) (hh : Witnessed O h w) (hw : Vouched O.forest w)
    {pass : ChargePass} (hreconciled : ∀ block hash,
      pass.reconciliationCheckpoint = some (block, hash) → Reconciled deps h w block hash) :
    Vouched O.forest
      (w.withDb (w.db.mapSettings deps.identity fun row => row.report deps pass)) := by
  obtain ⟨began, hrec⟩ := hh.recorded
  have hnew : ∀ identity block hash, (w.db.mapSettings deps.identity fun row =>
      row.report deps pass).checkpoint identity = some (block, hash) →
      w.db.checkpoint identity = some (block, hash) ∨
        identity = deps.identity ∧ Reconciled deps h w block hash := by
    intro identity block hash hck
    obtain hsame | ⟨hid, checkpoint, hpass, hnow⟩ :=
      checkpoint_report_cases w.db deps pass identity
    · exact .inl (hsame ▸ hck)
    · obtain rfl := Option.some.inj (hnow.symm.trans hck)
      exact .inr ⟨hid, hreconciled block hash hpass⟩
  refine ⟨fun identity block hash hck => ?_, fun identity block hash hck row hrow hid hs n hn hle =>
    ?_⟩
  · obtain hold | ⟨rfl, hr⟩ := hnew identity block hash hck
    · exact hw.known identity block hash hold
    · obtain ⟨w₀, hasked⟩ := hr.1.asked
      obtain ⟨hcanonical, hnumber⟩ := Chain.Forest.canonical_eq_some.1
        (hnames _ _ _ _ (hrec.answered _ _ _ hasked))
      exact ⟨hnumber, ((hrec.until_ _ hasked).chains _).known (.inl hcanonical)⟩
  · obtain hold | ⟨rfl, hr⟩ := hnew identity block hash hck
    · exact hw.rows identity block hash hold row hrow hid hs n hn hle
    · obtain ⟨hash', w₁, m, hash₁, hhash, hasked, hcanonical, rfl⟩ :=
        hh.reconciled hnames hr hrow hid hs hn
      obtain ⟨w₀, hans, hgrows⟩ := hr.1.before hrec hasked
      have hfirst := (Chain.Forest.canonical_eq_some.1 (hnames _ _ _ _ hans)).1
      refine ⟨hash', hhash, ?_⟩
      exact (Chain.Forest.agrees_of_canonical ((hgrows.chains _).known (.inl hfirst))
        hcanonical).follows ((hrec.until_ _ hasked).chains _)

/-- **Every write of a charge pass** leaves the checkpoints sound. -/
theorem ChargeWrite.vouched (hnames : O.NamesBlocks) (hh : Witnessed O h w)
    (hledger : Ledger w.db) (hw : Vouched O.forest w) (hwrite : ChargeWrite O.ext deps h w w') :
    Vouched O.forest w' := by
  -- a batch that is left open need not be vouched for
  have hsame : ∀ {id : Id} {f : ChargeBatch → ChargeBatch},
      (∀ row, (f row).identity = row.identity) →
      (∀ row : ChargeBatch, (f row).status.terminal = false) →
      Vouched O.forest (w.withDb (w.db.mapBatch id f)) := fun hid hopen =>
    hw.mapBatch rfl rfl fun row => ⟨hid row, fun hs => by simp [hopen row] at hs⟩
  cases hwrite with
  | idle => exact hw
  | lock => exact hw.of_eq rfl (fun _ => rfl) rfl
  | release => exact hw.of_eq rfl (fun _ => rfl) rfl
  | upsertSettings =>
    exact hw.of_eq rfl (checkpoint_upsertSettings _ _) (upsertSettings_batches _ _)
  | interrupt => exact hw.of_eq rfl (fun _ => rfl) rfl
  | convert => exact hw.of_eq rfl (fun _ => rfl) rfl
  | invalidate => exact hw.of_eq rfl (fun _ => rfl) rfl
  | reserve _ htx =>
    obtain ⟨db₁, f, hres, -, rfl⟩ := reserveRunTx_ok htx
    obtain ⟨htables, ⟨new, hnew, hfresh⟩, -⟩ := hres.reserved
    refine hw.congr rfl (checkpoint_of_settings ?_) fun row' hrow' hs hn => ?_
    · change db₁.settings = _
      rw [htables]
      rfl
    · change row' ∈ db₁.batches at hrow'
      rw [hnew] at hrow'
      obtain hold | hnew := List.mem_append.1 hrow'
      · obtain ⟨hrow, -⟩ | ⟨row, hrow, -, rfl⟩ := mem_updateWhere_cases hold
        · exact ⟨row', hrow, rfl, hs, rfl, rfl⟩
        · exact ⟨row, hrow, rfl, hs, rfl, rfl⟩
      · simp [(hfresh row' hnew).receipt] at hn
  | @settle batch row receipt event hrow hdebt _ hidentity _ _ hfinal hkept =>
    refine hw.closeBatch (f := fun row => row.settle batch receipt event.chargedPre.toNat) hnames hh
      hkept hledger.batchIds hrow hidentity ?_ rfl (fun _ => ⟨rfl, rfl, rfl⟩) hfinal.2
    rw [hdebt.id]
    rfl
  | close hrow hunsent hidentity hsaw hkept =>
    exact hw.closeBatch hnames hh hkept hledger.batchIds hrow hidentity rfl rfl
      (fun _ => ⟨rfl, rfl, rfl⟩) hsaw
  | reset hrow _ _ _ _ _ _ _ =>
    exact hw.mapBatch rfl rfl fun row => ⟨rfl, fun hs => by
      simp only [ChargeBatch.reset] at hs
      split_ifs at hs <;> cases hs⟩
  | mark _ _ hstatus =>
    exact hsame (fun _ => rfl) fun _ => by obtain rfl | rfl := hstatus <;> rfl
  | fail => exact hsame (fun _ => rfl) fun _ => rfl
  | sign hsign =>
    exact (hsame (f := fun row => row.sign _ _ _) (fun _ => rfl) fun _ => rfl).of_eq rfl
      (fun _ => rfl) rfl
  | note => exact hw.mapBatch rfl rfl fun row => ⟨rfl, fun hs => ⟨hs, rfl, rfl⟩⟩
  | runStatus => exact hw.of_eq rfl (fun _ => rfl) rfl
  | createRun => exact hw.of_eq rfl (fun _ => rfl) rfl
  | report hreconciled => exact hh.report hnames hw hreconciled
  | reportEnd =>
    exact hw.of_eq rfl (fun identity => checkpoint_mapSettings _ _ _ (fun _ => rfl) (fun _ => rfl)
      fun _ => rfl) rfl

/-- Every write of every job leaves the checkpoints sound. -/
theorem JobWrite.vouched {j : Job} (hnames : O.NamesBlocks) (hh : Witnessed O h w)
    (hledger : Ledger w.db) (hw : Vouched O.forest w) (hwrite : JobWrite O.ext j h w w') :
    Vouched O.forest w' := by
  by_cases hslot : j.slot = .charge
  · obtain ⟨deps, runId, cached, rfl⟩ := Job.slot_eq_charge hslot
    exact ChargeWrite.vouched hnames hh hledger hw hwrite
  · obtain ⟨began, hrec⟩ := hh.recorded
    obtain ⟨hbatches, -, hcheckpoint⟩ := hwrite.spares_charges hledger hslot
    exact hw.of_eq (hwrite.keeps hledger (grows_of_recorded hrec)).step.chains hcheckpoint hbatches

/-- The environment leaves the checkpoints sound: what it orphans stays orphaned. -/
theorem Environment.vouched (henv : Environment O w w') (hw : Vouched O.forest w) :
    Vouched O.forest w' := by
  have hdb := henv.db
  refine ⟨fun identity block hash hck => ?_, fun identity block hash hck row hrow hid hs n hn hle =>
    ?_⟩
  · rw [hdb] at hck
    obtain ⟨hnumber, hknown⟩ := hw.known identity block hash hck
    exact ⟨hnumber, (henv.grows.chains _).known hknown⟩
  · rw [hdb] at hck hrow
    obtain ⟨hash', hhash, hagrees⟩ := hw.rows identity block hash hck row hrow hid hs n hn hle
    exact ⟨hash', hhash, hagrees.follows (henv.grows.chains _)⟩

end

/-! ### Runs -/

section

variable {O : Outside} {c c' : MarketConfig}

/-- In every state, and whenever a running process acted, the checkpoints vouch. -/
theorem Reaches.vouched (hnames : O.NamesBlocks) (hc : Reaches O c) :
    Vouched O.forest c.shared := by
  obtain ⟨w, ls, hw, hrun⟩ := hc
  have hsafe : (protocol O).Safe (Config.idle w) := Protocol.safe_idle hw.inv
  have hstart : Vouched O.forest w := by
    constructor <;> simp [Database.checkpoint, hw.db, Database.empty]
  refine (hsafe.invariant (I := Vouched O.forest) (fun _ _ _ henv hI => Environment.vouched henv hI)
    (fun _ _ _ hI => hI.of_eq rfl (fun _ => rfl) rfl) ?_ (Protocol.remembers_idle hstart) hrun).1
  intro j began h s s' hinv _ hrec hI hwrite hs
  exact JobWrite.vouched hnames ⟨⟨began, hrec⟩, hI⟩ (Inv.ledger hinv) hs hwrite

/-- In every state, if the saved checkpoint is canonical then the receipt of every closed batch at
or below it is in a canonical block. -/
theorem Reaches.checkpoint (hnames : O.NamesBlocks) (hc : Reaches O c) {identity : Identity}
    {block : ℕ} {hash : Hash} (hcheckpoint : c.shared.db.checkpoint identity = some (block, hash))
    (hcanonical : O.forest.Canonical (c.shared.chains identity.chainId) hash)
    {row : ChargeBatch} (hrow : row ∈ c.shared.db.batches) (hid : row.identity = identity)
    (hs : row.status.terminal = true) {n : ℕ} (hn : row.receiptBlockNumber = some n)
    (hle : n ≤ block) : ∃ hash', row.receiptBlockHash = some hash' ∧
      O.forest.Canonical (c.shared.chains identity.chainId) hash' := by
  have hvouched := hc.vouched hnames
  obtain ⟨hnumber, -⟩ := hvouched.known identity block hash hcheckpoint
  obtain ⟨hash', hhash, hagrees⟩ :=
    hvouched.rows identity block hash hcheckpoint row hrow hid hs n hn hle
  exact ⟨hash', hhash, hagrees.canonical (hc.inv.consistent _) hcanonical (hnumber ▸ hle)⟩

/-- What the other processes and the environment do while a charge pass runs. -/
abbrev AroundCharge (O : Outside) : World → World → Prop :=
  Protocol.Interferes (market O) (Reaches O) .charge

/-- A reconciliation section that goes through leaves no closed batch whose receipt block was
orphaned before the pass began. -/
theorem section_sound (hnames : O.NamesBlocks) {deps : ChargeDependencies} {w w' : World}
    {m : ChargePass} {h : Log}
    (hexec : Program.Exec O.answers (AroundCharge O)
      (ExceptT.run (reconcilePass O.ext deps) .start) w [] (.ok (), m) w' h) {row : ChargeBatch}
    (hrow : row ∈ w'.db.batches) (hid : row.identity = deps.identity)
    (hs : row.status.terminal = true) {n : ℕ} (hn : row.receiptBlockNumber = some n) :
    ∃ hash', row.receiptBlockHash = some hash' ∧
      hash' ∉ (w.chains deps.identity.chainId).orphaned := by
  obtain ⟨⟨w₁, hpost, hrely⟩, hvouched, hrec⟩ := (protocol O).exec_sound (R := Reaches O)
    (j := .charge deps none none) (fun _ => Reaches.safe) (S := Vouched O.forest)
    (fun c ls c' hc hrun => (hc.run hrun).vouched hnames) hexec wp_reconcilePass
  obtain ⟨C, m', hm, hholds⟩ := hpost
  obtain ⟨⟨block, hash⟩, hm⟩ := Option.isSome_iff_exists.1 hm
  rw [ChargeRely.batches hrely] at hrow
  obtain ⟨hash', w₂, k, hash₂, hhash, hasked, hcanonical, -⟩ :=
    Witnessed.reconciled hnames ⟨⟨w, hrec⟩, hvouched⟩ (hholds.frame.checkpoint block hash hm)
      hrow hid
      hs hn
  refine ⟨hash', hhash, ?_⟩
  have hsince : Grows O.forest w w₂ := hrec.since _ hasked
  exact (hsince.chains _).not_orphaned (Inv.consistent (hrec.inv _ hasked) _) hcanonical

/-- **The checkpoint is sound.**  In every state, if the saved checkpoint is canonical then so are
the receipt blocks of the closed batches at or below it; so whenever a pass finds the checkpoint
canonical, it skips no batch whose proof was orphaned; and a reconciliation section that goes
through leaves no closed batch whose receipt block was orphaned before the pass began. -/
theorem checkpoint_sound (hnames : O.NamesBlocks) :
    (∀ c, Reaches O c → ∀ identity block hash,
      c.shared.db.checkpoint identity = some (block, hash) →
      O.forest.Canonical (c.shared.chains identity.chainId) hash →
      ∀ row ∈ c.shared.db.batches, row.identity = identity → row.status.terminal = true →
        ∀ n, row.receiptBlockNumber = some n → n ≤ block →
          ∃ hash', row.receiptBlockHash = some hash' ∧
            O.forest.Canonical (c.shared.chains identity.chainId) hash') ∧
    (∀ c c' j began h w identity block hash, Reaches O c →
      (market O).Step c (.act j began h
        (.asked w (.blockHash identity.chainId block) (.ok hash))) c' →
      w.db.checkpoint identity = some (block, hash) →
      ∀ row ∈ w.db.batches, row.identity = identity → row.status.terminal = true →
        ∀ n, row.receiptBlockNumber = some n → n ≤ block →
          ∃ hash', row.receiptBlockHash = some hash' ∧
            O.forest.Canonical (w.chains identity.chainId) hash') ∧
    ∀ deps w w' m h, Program.Exec O.answers (AroundCharge O)
        (ExceptT.run (reconcilePass O.ext deps) .start) w [] (.ok (), m) w' h →
      ∀ row ∈ w'.db.batches, row.identity = deps.identity → row.status.terminal = true →
        ∀ n, row.receiptBlockNumber = some n →
          ∃ hash', row.receiptBlockHash = some hash' ∧
            hash' ∉ (w.chains deps.identity.chainId).orphaned := by
  refine ⟨fun c hc identity block hash hck hcan row hrow hid hs n hn hle =>
    hc.checkpoint hnames hck hcan hrow hid hs hn hle, ?_,
    fun deps w w' m h hexec row hrow hid hs n hn => section_sound hnames hexec hrow hid hs hn⟩
  intro c c' j began h w identity block hash hc hstep hck row hrow hid hs n hn hle
  obtain ⟨-, rfl, -⟩ := hc.asked hstep
  have hans : O.answers c.shared (.blockHash identity.chainId block) (.ok hash) := by
    cases hstep with
    | act _ hact _ => exact hact.answers
  obtain ⟨hcanonical, -⟩ := Chain.Forest.canonical_eq_some.1 (hnames _ _ _ _ hans)
  exact hc.checkpoint hnames hck hcanonical hrow hid hs hn hle

end

theorem sample_namesBlocks : sampleOutside.NamesBlocks := by
  intro w chainId block hash hans
  change Except.ok hash = sampleOracle w (.blockHash chainId block) at hans
  simp only [sampleOracle] at hans
  split_ifs at hans with hle
  have heq : hash = block := Except.ok.inj hans
  rw [heq]
  refine Chain.Forest.canonical_eq_some.2 ⟨?_, rfl⟩
  exact lineForest_canonical.2 hle

/-- In the sample run the checkpoint is block 8, and it vouches for the charge in block 7. -/
theorem checkpoint_sound_sample : sampleEnd.shared.db.checkpoint sampleIdentity = some (8, 8) ∧
    ∀ row ∈ sampleEnd.shared.db.batches, row.identity = sampleIdentity →
      row.status.terminal = true → ∀ n, row.receiptBlockNumber = some n → n ≤ 8 →
        ∃ hash', row.receiptBlockHash = some hash' ∧
          lineForest.Canonical (sampleEnd.shared.chains sampleIdentity.chainId) hash' := by
  have hck : sampleEnd.shared.db.checkpoint sampleIdentity = some (8, 8) := by decide +kernel
  have hcanonical : lineForest.Canonical (sampleEnd.shared.chains sampleIdentity.chainId) 8 := by
    decide +kernel
  exact ⟨hck, (checkpoint_sound sample_namesBlocks).1 sampleEnd reaches_sampleEnd sampleIdentity
    8 8 hck hcanonical⟩

end Market

end PreCommunity
