import PreCommunity.Market.System

/-!
# What the transactions do

Every transaction that commits leaves the tables in a state that a function of the tables before
it describes; the functions here are these effects, and the `_ok` lemmas connect them with the
transactions.

* `Database.mapBatch`, `Database.mapRun`, … : the update of one row.
* `Database.settle`, `Database.closeBatch`, `Database.reset` : the transactions of the charge worker
  that change several tables.
-/

namespace PreCommunity

namespace Market

open Store Concurrent

namespace Database

variable (db : Database)

/-- Update one batch. -/
def mapBatch (id : Id) (f : ChargeBatch → ChargeBatch) : Database :=
  db.withBatches (updateWhere (fun row => row.id = id) f db.batches)

/-- Update one run. -/
def mapRun (id : Id) (f : ChargeRun → ChargeRun) : Database :=
  db.withRuns (updateWhere (fun row => row.id = id) f db.runs)

/-- Update the settings of a deployment. -/
def mapSettings (identity : Identity) (f : ChargeSettings → ChargeSettings) : Database :=
  db.withSettings (updateWhere (fun row => row.identity = identity) f db.settings)

/-- Update one publication. -/
def mapPublication (id : Id) (f : PricePublication → PricePublication) : Database :=
  db.withPublications (updateWhere (fun row => row.id = id) f db.publications)

/-- Settle a batch and split its charge over its clicks. -/
def settle (batch : ChargeBatch) (receipt : ChargeReceipt) (charged : ℕ) : Database :=
  let split := splitCharge charged (batchClicks db batch.id)
  ((db.mapBatch batch.id fun row => row.settle batch receipt charged).updateClicks
    (fun row => row.id ∈ split.1) fun row =>
      { row with status := .settled, errorCode := none }).updateClicks
    (fun row => row.id ∈ split.2) fun row =>
      { row with status := .uncollectable, errorCode := some .insufficientStake }

/-- Close a batch whose position is gone. -/
def closeBatch (batch : ChargeBatch) (errorCode : ErrorCode) (blockNumber : ℕ)
    (blockHash : Hash) : Database :=
  (db.mapBatch batch.id fun row =>
    { row with
      status := .uncollectable
      chargedPreRaw := some 0
      shortfallPreRaw := some batch.duePreRaw
      receiptBlockNumber := some blockNumber
      receiptBlockHash := some blockHash
      errorCode := some errorCode }).updateClicks
    (fun row => row.batchId = some batch.id) fun row =>
      { row with status := .uncollectable, errorCode := some errorCode }

/-- Take a batch back after a reorganisation, and reopen its run. -/
def reset (batch : ChargeBatch) : Database :=
  ((db.mapBatch batch.id fun row =>
    row.reset (batch.txHash.isSome && batch.signedTransaction.isSome)).updateClicks
    (fun row => row.batchId = some batch.id) fun row =>
      { row with status := .reserved, errorCode := some .reorgDetected }).mapRun batch.runId
    fun row => { row with status := .running, finishedAt := none, errorCode := some .reorgDetected }

end Database

/-! ### The tables that an update leaves alone -/

section

variable (db : Database) (batches : List ChargeBatch) (clicks : List BillingClick)
  (runs : List ChargeRun) (settings : List ChargeSettings) (publications : List PricePublication)

@[simp] theorem withBatches_batches : (db.withBatches batches).batches = batches := rfl
@[simp] theorem withBatches_clicks : (db.withBatches batches).clicks = db.clicks := rfl

@[simp] theorem withClicks_batches : (db.withClicks clicks).batches = db.batches := rfl
@[simp] theorem withClicks_clicks : (db.withClicks clicks).clicks = clicks := rfl

@[simp] theorem withSettings_settings : (db.withSettings settings).settings = settings := rfl

end

/-! ### Transactions that commit -/

section

variable {α β : Type} {db db' : Database}

theorem Tx.bind_ok {t : Tx α} {k : α → Tx β} {b : β} :
    (t >>= k).run db = .ok (b, db') ↔
      ∃ a db₁, t.run db = .ok (a, db₁) ∧ (k a).run db₁ = .ok (b, db') := by
  change Except.bind (t db) (fun r => k r.1 r.2) = _ ↔ _
  cases h : t db with
  | error e => simp [Except.bind, StateT.run, h]
  | ok r =>
    obtain ⟨a, db₁⟩ := r
    simp [Except.bind, StateT.run, h]

@[simp] theorem Tx.pure_ok {a b : α} :
    (pure a : Tx α).run db = .ok (b, db') ↔ a = b ∧ db = db' := by
  change Except.ok (a, db) = .ok (b, db') ↔ _
  simp

theorem Tx.get_bind {k : Database → Tx β} : (get >>= k).run db = (k db).run db := rfl

@[simp] theorem Tx.set_ok {s : Database} {u : PUnit} :
    (set s : Tx PUnit).run db = .ok (u, db') ↔ s = db' := by
  change Except.ok (PUnit.unit, s) = .ok (u, db') ↔ _
  simp

@[simp] theorem Tx.modify_ok {f : Database → Database} {u : PUnit} :
    (modify f : Tx PUnit).run db = .ok (u, db') ↔ f db = db' := by
  change Except.ok (PUnit.unit, f db) = .ok (u, db') ↔ _
  simp

@[simp] theorem Tx.throw_ok {e : Failure} {b : α} :
    (throw e : Tx α).run db = .ok (b, db') ↔ False := by
  change Except.error e = .ok (b, db') ↔ _
  simp

@[simp] theorem Tx.lift_ok {x : Except Failure α} {b : α} :
    (liftM x : Tx α).run db = .ok (b, db') ↔ x = .ok b ∧ db = db' := by
  change Except.bind x (fun a => .ok (a, db)) = .ok (b, db') ↔ _
  cases x <;> simp [Except.bind]

theorem findOrThrow_ok {rows : List α} {p : α → Bool} {row : α} :
    findOrThrow rows p = .ok row ↔ rows.find? p = some row := by
  unfold findOrThrow
  cases rows.find? p <;> simp

theorem updateUnique_ok {table : Database → List α} {put : Database → List α → Database}
    {p : α → Bool} {f : α → α} {u : Unit} :
    (updateUnique table put p f).run db = .ok (u, db') ↔
      (table db).any p = true ∧ put db (updateWhere p f (table db)) = db' := by
  unfold updateUnique
  rw [Tx.get_bind]
  split_ifs with hany
  · simp only [hany, true_and]
    exact Tx.set_ok
  · exact ⟨fun h => (Tx.throw_ok.1 h).elim, fun h => absurd h.1 hany⟩

theorem updateBatch_ok {id : Id} {f : ChargeBatch → ChargeBatch} {u : Unit}
    (h : (updateBatch id f).run db = .ok (u, db')) : db' = db.mapBatch id f :=
  (updateUnique_ok.1 h).2.symm

theorem updateRun_ok {id : Id} {f : ChargeRun → ChargeRun} {u : Unit}
    (h : (updateRun id f).run db = .ok (u, db')) : db' = db.mapRun id f :=
  (updateUnique_ok.1 h).2.symm

theorem updateSettings_ok {identity : Identity} {f : ChargeSettings → ChargeSettings} {u : Unit}
    (h : (updateSettings identity f).run db = .ok (u, db')) : db' = db.mapSettings identity f :=
  (updateUnique_ok.1 h).2.symm

theorem updatePublication_ok {id : Id} {f : PricePublication → PricePublication} {u : Unit}
    (h : (updatePublication id f).run db = .ok (u, db')) : db' = db.mapPublication id f :=
  (updateUnique_ok.1 h).2.symm

theorem settleTx_ok {batch : ChargeBatch} {receipt : ChargeReceipt} {charged : ℕ} {u : Unit}
    (h : (settleTx batch receipt charged).run db = .ok (u, db')) :
    db' = db.settle batch receipt charged := by
  obtain ⟨_, db₁, hbatch, h⟩ := Tx.bind_ok.1 h
  rw [Tx.get_bind] at h
  obtain rfl := updateBatch_ok hbatch
  exact (Tx.set_ok.1 h).symm

theorem uncollectableTx_ok {batch : ChargeBatch} {errorCode : ErrorCode} {blockNumber : ℕ}
    {blockHash : Hash} {u : Unit}
    (h : (uncollectableTx batch errorCode blockNumber blockHash).run db = .ok (u, db')) :
    db' = db.closeBatch batch errorCode blockNumber blockHash := by
  obtain ⟨_, db₁, hbatch, h⟩ := Tx.bind_ok.1 h
  obtain rfl := updateBatch_ok hbatch
  exact (Tx.modify_ok.1 h).symm

theorem resetTx_ok {batch : ChargeBatch} {u : Unit}
    (h : (resetTx batch).run db = .ok (u, db')) : db' = db.reset batch := by
  obtain ⟨_, db₁, hbatch, h⟩ := Tx.bind_ok.1 h
  obtain ⟨_, db₂, hclicks, h⟩ := Tx.bind_ok.1 h
  obtain rfl := updateBatch_ok hbatch
  obtain rfl := (Tx.modify_ok.1 hclicks).symm
  exact updateRun_ok h

theorem createRun_ok {run : ChargeRun} {u : Unit} (h : (createRun run).run db = .ok (u, db')) :
    (∀ row ∈ db.runs, row.id ≠ run.id) ∧ db' = db.withRuns (db.runs ++ [run]) := by
  unfold createRun at h
  rw [Tx.get_bind] at h
  split_ifs at h with hany
  · exact (Tx.throw_ok.1 h).elim
  · refine ⟨by simpa using hany, (Tx.set_ok.1 h).symm⟩

theorem createBatch_ok {batch : ChargeBatch} {u : Unit}
    (h : (createBatch batch).run db = .ok (u, db')) :
    (∀ row ∈ db.batches, row.id ≠ batch.id) ∧ db' = db.withBatches (db.batches ++ [batch]) := by
  unfold createBatch at h
  rw [Tx.get_bind] at h
  split_ifs at h with hany
  · exact (Tx.throw_ok.1 h).elim
  · refine ⟨fun row hrow heq => hany ?_, (Tx.set_ok.1 h).symm⟩
    exact List.any_eq_true.2 ⟨row, hrow, by simp [heq]⟩

theorem saveSettings_ok {identity : Identity} {f : ChargeSettings → ChargeSettings}
    {row : ChargeSettings} (h : (saveSettings identity f).run db = .ok (row, db')) :
    db' = db.mapSettings identity f ∧
      db'.settings.find? (fun row => row.identity = identity) = some row := by
  obtain ⟨_, db₁, hsettings, h⟩ := Tx.bind_ok.1 h
  rw [Tx.get_bind] at h
  obtain ⟨hfind, rfl⟩ := Tx.lift_ok.1 h
  exact ⟨updateSettings_ok hsettings, findOrThrow_ok.1 hfind⟩

theorem signTx_ok {id : Id} {signer : Address} {nonce : ℕ} {transaction : SignedTransaction}
    {row : Option ChargeBatch}
    (h : (signTx id signer nonce transaction).run db = .ok (row, db')) :
    db' = db.mapBatch id (fun row => row.sign signer nonce transaction) ∧
      row = db'.batches.find? (fun row => row.id = id) := by
  unfold signTx at h
  rw [Tx.get_bind] at h
  simp only at h
  split_ifs at h with hany
  · exact (Tx.throw_ok.1 h).elim
  · obtain ⟨_, db₁, hbatch, h⟩ := Tx.bind_ok.1 h
    rw [Tx.get_bind] at h
    obtain ⟨rfl, rfl⟩ := Tx.pure_ok.1 h
    exact ⟨updateBatch_ok hbatch, rfl⟩

theorem signPublicationTx_ok {id : Id} {signer : Address} {nonce : ℕ}
    {transaction : SignedTransaction} {row : PricePublication}
    (h : (signPublicationTx id signer nonce transaction).run db = .ok (row, db')) :
    db' = db.mapPublication id (fun row => row.sign signer nonce transaction) ∧
      db'.publications.find? (fun row => row.id = id) = some row := by
  unfold signPublicationTx at h
  rw [Tx.get_bind] at h
  simp only at h
  split_ifs at h with hany
  · exact (Tx.throw_ok.1 h).elim
  · obtain ⟨_, db₁, hbatch, h⟩ := Tx.bind_ok.1 h
    rw [Tx.get_bind] at h
    obtain ⟨hfind, rfl⟩ := Tx.lift_ok.1 h
    exact ⟨updatePublication_ok hbatch, findOrThrow_ok.1 hfind⟩

theorem claimDelivery_ok {delivery : AdDelivery} {clickedAt : ℕ} {claimed : Bool}
    (h : (claimDelivery delivery clickedAt).run db = .ok (claimed, db')) :
    claimed = false ∧ db' = db ∨
      claimed = true ∧ (∀ row ∈ db.clicks, row.id ≠ delivery.deliveryId) ∧
        db' = db.withClicks (db.clicks ++ [BillingClick.claim delivery clickedAt]) := by
  unfold claimDelivery at h
  rw [Tx.get_bind] at h
  split_ifs at h with hany
  · obtain ⟨rfl, rfl⟩ := Tx.pure_ok.1 h
    exact .inl ⟨rfl, rfl⟩
  · obtain ⟨_, db₁, hset, h⟩ := Tx.bind_ok.1 h
    obtain ⟨rfl, rfl⟩ := Tx.pure_ok.1 h
    exact .inr ⟨rfl, by simpa using hany, (Tx.set_ok.1 hset).symm⟩

/-- The tables after a click was finalised at `timestamp`. -/
def Database.finalizeClick (db : Database) (request : CaptureRequest) (fingerprint : Hash)
    (c : Capture) (timestamp : ℕ) : Database :=
  let claim := claimClickBillingWindow fingerprint timestamp db.windows
  { db with
    windows := claim.2
    clicks := updateWhere (BillingClick.isCapturing request.delivery.deliveryId)
      (fun row => row.finalize c claim.1) db.clicks
    totals := countClick request.delivery.identity claim.1 db.totals }

theorem finalizeClickTx_ok {request : CaptureRequest} {fingerprint : Hash} {c : Capture}
    {timestamp : ℕ} {u : Unit}
    (h : (finalizeClickTx request fingerprint c timestamp).run db = .ok (u, db')) :
    (∃ row ∈ db.clicks, row.isCapturing request.delivery.deliveryId = true) ∧
      db' = db.finalizeClick request fingerprint c timestamp := by
  unfold finalizeClickTx at h
  rw [Tx.get_bind] at h
  simp only at h
  split_ifs at h with hany
  · exact ⟨List.any_eq_true.1 hany, (Tx.set_ok.1 h).symm⟩
  · exact (Tx.throw_ok.1 h).elim

/-- The tables after a chunk was committed. -/
def Database.commitChunk (db : Database) (identity : Identity) (logs : List IndexedLog)
    (checkpoint : AdsCheckpoint) (snapshot : Option AdsContractSnapshot) (now : ℕ) : Database :=
  let applied := logs.foldl (applyLog identity) db
  { applied with
    indexers := advanceAdsIndexerState identity checkpoint snapshot now applied.indexers }

theorem commitChunk_ok {identity : Identity} {expected : Option AdsCheckpoint}
    {logs : List IndexedLog} {checkpoint : AdsCheckpoint} {snapshot : Option AdsContractSnapshot}
    {now : ℕ} {u : Unit}
    (h : (commitChunk identity expected logs checkpoint snapshot now).run db = .ok (u, db')) :
    storedCheckpoint db identity = expected ∧
      db' = db.commitChunk identity logs checkpoint snapshot now := by
  unfold Market.commitChunk at h
  rw [Tx.get_bind] at h
  split_ifs at h with hck
  · exact ⟨hck, (Tx.set_ok.1 h).symm⟩
  · exact (Tx.throw_ok.1 h).elim

theorem requestRunTx_ok {identity : Identity} {id runId : Id}
    (h : (requestRunTx identity id).run db = .ok (runId, db')) :
    db' = db.upsertSettings identity ∨
      (∀ row ∈ db.runs, row.id ≠ id) ∧ db' = (db.upsertSettings identity).withRuns
        (db.runs ++ [⟨id, identity, .manual, .queued, none, none, none⟩]) := by
  have hruns : (db.upsertSettings identity).runs = db.runs := by
    unfold Database.upsertSettings
    split_ifs <;> rfl
  obtain ⟨_, db₁, hmod, h⟩ := Tx.bind_ok.1 h
  obtain rfl := (Tx.modify_ok.1 hmod).symm
  rw [Tx.get_bind] at h
  split at h
  · exact .inl (Tx.pure_ok.1 h).2.symm
  · obtain ⟨_, db₂, hcreate, h⟩ := Tx.bind_ok.1 h
    obtain ⟨-, rfl⟩ := Tx.pure_ok.1 h
    obtain ⟨hfresh, rfl⟩ := createRun_ok hcreate
    rw [hruns] at hfresh ⊢
    exact .inr ⟨hfresh, rfl⟩

theorem upsertPublication_ok {id : Id} {identity : Identity} {quote : ℕ × ℕ × Id}
    {row : PricePublication} (h : (upsertPublication id identity quote).run db = .ok (row, db')) :
    db' = db ∧ row ∈ db.publications ∧ row.identity = identity ∨
      (∀ other ∈ db.publications, other.id ≠ id) ∧ row = .create id identity quote ∧
        db' = db.withPublications (db.publications ++ [row]) := by
  unfold upsertPublication at h
  rw [Tx.get_bind] at h
  split at h
  · rename_i found hfound
    obtain ⟨rfl, rfl⟩ := Tx.pure_ok.1 h
    have hrow := List.find?_some hfound
    simp only [decide_eq_true_eq] at hrow
    exact .inl ⟨rfl, List.mem_of_find?_eq_some hfound, hrow.1⟩
  · simp only at h
    split_ifs at h with hany
    · exact (Tx.throw_ok.1 h).elim
    · obtain ⟨_, db₁, hset, h⟩ := Tx.bind_ok.1 h
      obtain ⟨rfl, rfl⟩ := Tx.pure_ok.1 h
      exact .inr ⟨by simpa using hany, rfl, (Tx.set_ok.1 hset).symm⟩

end

end Market

end PreCommunity
