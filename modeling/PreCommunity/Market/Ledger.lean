import PreCommunity.Market.Writes

/-!
# The charge ledger

The invariant that ties clicks, batches and runs together, and what every update of one table has
to respect to keep it.

* `ChargeBatch.WellFormed`, `BillingClick.WellFormed` : one row.
* `BillingClick.Belongs` : a click and its batch.
* `Ledger` : the invariant.
* `Ledger.updateClicks`, `Ledger.mapBatch`, … : updates of one table.
* `Ledger.replaceBatch` : a batch changes together with its clicks.
-/

namespace PreCommunity

namespace Market

open Store Concurrent

/-! ### Rows -/

/-- The batch has a signature, and all of it. -/
def ChargeBatch.Signed (b : ChargeBatch) : Prop :=
  b.txHash.isSome ∧ b.signedTransaction.isSome ∧ b.nonce.isSome ∧ b.signerAddress.isSome

/-- The batch has no part of a signature. -/
def ChargeBatch.Unsigned (b : ChargeBatch) : Prop :=
  b.txHash = none ∧ b.signedTransaction = none ∧ b.nonce = none ∧ b.signerAddress = none

/-- What holds of every batch. -/
structure ChargeBatch.WellFormed (b : ChargeBatch) : Prop where
  requested : b.requestedPreRaw = min b.duePreRaw maxUint256
  signature : b.Signed ∨ b.Unsigned
  prepared : b.status = .prepared → b.Unsigned
  sent : b.Sent → b.Signed
  uncharged : b.status.terminal = false → b.chargedPreRaw = none ∧ b.shortfallPreRaw = none
  charged : b.status.terminal = true → ∃ charged, b.chargedPreRaw = some charged ∧
    b.shortfallPreRaw = some (b.duePreRaw - charged) ∧ charged ≤ b.requestedPreRaw
  confirmed : b.status = .confirmed → b.chargedPreRaw = some b.duePreRaw
  uncollectable : b.status = .uncollectable → b.chargedPreRaw = some 0
  receipt : b.receiptBlockNumber.isSome ↔ b.receiptBlockHash.isSome
  unproved : b.status.terminal = true → b.receiptBlockNumber = none → b.Unsigned

/-- What holds of every click. -/
structure BillingClick.WellFormed (c : BillingClick) : Prop where
  capturing : c.status = .capturing → c.bidUsdRaw = none ∧ c.amountPreRaw = none ∧ c.batchId = none
  free : c.status = .pending ∨ c.status = .pricePending ∨ c.status = .suppressed ∨
    c.status = .unbilled → c.batchId = none
  reserved : c.status = .reserved → c.batchId.isSome
  priced : c.status = .pending → c.amountPreRaw.isSome
  placed : c.batchId.isSome → c.amountPreRaw.isSome
  amount : ∀ amount, c.amountPreRaw = some amount → ∃ bid priceUsd,
    c.bidUsdRaw = some bid ∧ c.priceUsd = some priceUsd ∧ billPreRaw bid priceUsd = .ok amount
  bid : c.bidUsdRaw.isSome → c.bidBlockNumber.isSome ∧ c.bidBlockHash.isSome
  price : c.amountPreRaw.isSome ↔ c.priceBlockNumber.isSome
  priceHash : c.priceBlockNumber.isSome ↔ c.priceBlockHash.isSome

/-- The status of a click in a batch with this status. -/
def BatchStatus.Fits : BatchStatus → ClickStatus → Prop
  | confirmed, s => s = .settled
  | uncollectable, s => s = .uncollectable
  | partlyCharged, s => s = .settled ∨ s = .uncollectable
  | _, s => s = .reserved

/-- The click fits the batch. -/
structure BillingClick.Belongs (c : BillingClick) (b : ChargeBatch) : Prop where
  identity : c.identity = b.identity
  keywordId : c.keywordId = b.keywordId
  stakerAddress : c.stakerAddress = b.stakerAddress
  positionVersion : c.positionVersion = b.positionVersion
  status : b.status.Fits c.status

/-- The run is the one of the batch, and it can be found again as long as the batch is open. -/
structure ChargeBatch.InRun (b : ChargeBatch) (r : ChargeRun) : Prop where
  id : r.id = b.runId
  identity : r.identity = b.identity
  recoverable : b.status.terminal = false → r.status.recoverable = true

/-- What the click owes. -/
def BillingClick.owed (c : BillingClick) : ℕ := c.amountPreRaw.getD 0

/-- The click is in the batch. -/
def BillingClick.isIn (id : Id) (c : BillingClick) : Bool := c.batchId = some id

/-- The click is in the batch and settled. -/
def BillingClick.isSettledIn (id : Id) (c : BillingClick) : Bool :=
  c.batchId = some id ∧ c.status = .settled

/-! ### The invariant -/

/-- **The charge ledger.** -/
structure Ledger (db : Database) : Prop where
  batchIds : Keyed ChargeBatch.id db.batches
  clickIds : Keyed BillingClick.id db.clicks
  runIds : Keyed ChargeRun.id db.runs
  settingsIds : Keyed ChargeSettings.identity db.settings
  batch : ∀ b ∈ db.batches, b.WellFormed
  click : ∀ c ∈ db.clicks, c.WellFormed
  run : ∀ b ∈ db.batches, ∃ r ∈ db.runs, b.InRun r
  place : ∀ c ∈ db.clicks, ∀ id, c.batchId = some id → ∃ b ∈ db.batches, b.id = id ∧ c.Belongs b
  due : ∀ b ∈ db.batches, total (BillingClick.isIn b.id) BillingClick.owed db.clicks = b.duePreRaw
  count : ∀ b ∈ db.batches, (db.clicks.filter (BillingClick.isIn b.id)).length = b.clickCount
  paid : ∀ b ∈ db.batches, ∀ charged, b.chargedPreRaw = some charged →
    total (BillingClick.isSettledIn b.id) BillingClick.owed db.clicks ≤ charged

theorem ledger_empty : Ledger Database.empty := by
  constructor <;> simp [Database.empty, Keyed]

/-! ### Updates of one table -/

namespace Ledger

variable {db db' : Database}

/-- Tables outside the ledger do not matter. -/
theorem congr (hdb : Ledger db) (hbatches : db'.batches = db.batches)
    (hclicks : db'.clicks = db.clicks) (hruns : db'.runs = db.runs)
    (hsettings : Keyed ChargeSettings.identity db'.settings) : Ledger db' where
  batchIds := hbatches ▸ hdb.batchIds
  clickIds := hclicks ▸ hdb.clickIds
  runIds := hruns ▸ hdb.runIds
  settingsIds := hsettings
  batch := hbatches ▸ hdb.batch
  click := hclicks ▸ hdb.click
  run := by rw [hbatches, hruns]; exact hdb.run
  place := by rw [hclicks, hbatches]; exact hdb.place
  due := by rw [hclicks, hbatches]; exact hdb.due
  count := by rw [hclicks, hbatches]; exact hdb.count
  paid := by rw [hclicks, hbatches]; exact hdb.paid

theorem mapSettings (hdb : Ledger db) {identity : Identity} {f : ChargeSettings → ChargeSettings}
    (hf : ∀ row, (f row).identity = row.identity) : Ledger (db.mapSettings identity f) :=
  hdb.congr rfl rfl rfl (hdb.settingsIds.updateWhere hf)

theorem upsertSettings (hdb : Ledger db) (identity : Identity) :
    Ledger (db.upsertSettings identity) := by
  unfold Database.upsertSettings
  split_ifs with h
  · exact hdb
  · refine hdb.congr rfl rfl rfl (hdb.settingsIds.append_one ?_)
    simpa [ChargeSettings.create] using h

/-- Other clicks: each batch keeps its clicks, and the clicks outside are well formed. -/
theorem withClicks (hdb : Ledger db) {clicks : List BillingClick}
    (hids : Keyed BillingClick.id clicks) (hwf : ∀ c ∈ clicks, c.WellFormed)
    (hplaced : clicks.filter (·.batchId.isSome) = db.clicks.filter (·.batchId.isSome)) :
    Ledger (db.withClicks clicks) := by
  have hmem : ∀ c ∈ clicks, c.batchId.isSome → c ∈ db.clicks := by
    intro c hc hb
    have : c ∈ clicks.filter (·.batchId.isSome) := List.mem_filter.2 ⟨hc, hb⟩
    rw [hplaced] at this
    exact (List.mem_filter.1 this).1
  have hfilter : ∀ p : BillingClick → Bool, (∀ c, p c = true → c.batchId.isSome = true) →
      clicks.filter p = db.clicks.filter p := by
    intro p hp
    have hboth : ∀ l : List BillingClick, (l.filter (·.batchId.isSome)).filter p = l.filter p := by
      intro l
      rw [List.filter_filter]
      refine List.filter_congr fun c _ => ?_
      cases hpc : p c
      · rfl
      · simp [hp c hpc]
    rw [← hboth clicks, hplaced, hboth]
  have hin : ∀ id, clicks.filter (BillingClick.isIn id) = db.clicks.filter (BillingClick.isIn id) :=
    fun id => hfilter _ fun c hc => by simp_all [BillingClick.isIn]
  refine { hdb with
    clickIds := hids, click := hwf, place := ?_, due := ?_, count := ?_, paid := ?_ }
  · intro c hc id hid
    exact hdb.place c (hmem c hc (by simp [hid])) id hid
  · intro b hb
    simpa only [total, withClicks_clicks, hin] using hdb.due b hb
  · intro b hb
    simpa only [withClicks_clicks, hin] using hdb.count b hb
  · intro b hb charged hcharged
    have hsettled : clicks.filter (BillingClick.isSettledIn b.id) =
        db.clicks.filter (BillingClick.isSettledIn b.id) :=
      hfilter _ fun c hc => by simp_all [BillingClick.isSettledIn]
    simpa only [total, withClicks_clicks, hsettled] using hdb.paid b hb charged hcharged

/-- An update of clicks outside batches. -/
theorem updateClicks (hdb : Ledger db) {p : BillingClick → Bool} {f : BillingClick → BillingClick}
    (hfree : ∀ c ∈ db.clicks, p c = true → c.batchId = none)
    (hf : ∀ c, (f c).id = c.id ∧ (f c).batchId = c.batchId)
    (hwf : ∀ c ∈ db.clicks, p c = true → (f c).WellFormed) : Ledger (db.updateClicks p f) := by
  refine hdb.withClicks (hdb.clickIds.updateWhere fun c => (hf c).1) ?_ ?_
  · intro c hc
    obtain ⟨hold, -⟩ | ⟨x, hx, hp, rfl⟩ := mem_updateWhere_cases hc
    · exact hdb.click c hold
    · exact hwf x hx hp
  · have hmap : ((updateWhere p f db.clicks).filter (·.batchId.isSome)).map id =
        (db.clicks.filter (·.batchId.isSome)).map id :=
      filter_updateWhere_map (fun c _ _ => by simp [(hf c).2])
        fun c hc hp hq => by simp [hfree c hc hp] at hq
    simpa using hmap

/-- A new click outside batches. -/
theorem addClick (hdb : Ledger db) {c : BillingClick} (hid : ∀ row ∈ db.clicks, row.id ≠ c.id)
    (hwf : c.WellFormed) (hfree : c.batchId = none) :
    Ledger (db.withClicks (db.clicks ++ [c])) := by
  refine hdb.withClicks (hdb.clickIds.append_one hid) ?_ ?_
  · intro row hrow
    obtain hrow | hrow := List.mem_append.1 hrow
    · exact hdb.click row hrow
    · rw [List.mem_singleton.1 hrow]
      exact hwf
  · simp [hfree]

/-- Clicks outside batches may be deleted. -/
theorem filterClicks (hdb : Ledger db) {p : BillingClick → Bool}
    (hfree : ∀ c ∈ db.clicks, p c = false → c.batchId = none) :
    Ledger (db.withClicks (db.clicks.filter p)) := by
  refine hdb.withClicks (hdb.clickIds.filter p) ?_ ?_
  · exact fun c hc => hdb.click c (List.mem_of_mem_filter hc)
  · rw [List.filter_filter]
    refine List.filter_congr fun c hc => ?_
    cases hp : p c
    · simp [hfree c hc hp]
    · simp

/-- Other runs: every batch keeps its run. -/
theorem withRuns (hdb : Ledger db) {runs : List ChargeRun} (hids : Keyed ChargeRun.id runs)
    (hruns : ∀ b ∈ db.batches, ∀ r ∈ db.runs, b.InRun r → ∃ r' ∈ runs, b.InRun r') :
    Ledger (db.withRuns runs) := by
  refine { hdb with runIds := hids, run := fun b hb => ?_ }
  obtain ⟨r, hr, hrun⟩ := hdb.run b hb
  exact hruns b hb r hr hrun

/-- An update of runs: a run becomes unrecoverable only when its batches are closed. -/
theorem updateRuns (hdb : Ledger db) {p : ChargeRun → Bool} {f : ChargeRun → ChargeRun}
    (hf : ∀ r, (f r).id = r.id ∧ (f r).identity = r.identity)
    (hopen : ∀ r ∈ db.runs, p r = true → r.status.recoverable = true →
      (f r).status.recoverable = true ∨
        ∀ b ∈ db.batches, b.runId = r.id → b.status.terminal = true) :
    Ledger (db.withRuns (updateWhere p f db.runs)) := by
  refine hdb.withRuns (hdb.runIds.updateWhere fun r => (hf r).1) fun b hb r hr hrun => ?_
  cases hp : p r
  · exact ⟨r, mem_updateWhere_of_not hr hp, hrun⟩
  · refine ⟨f r, mem_updateWhere_of hr hp, (hf r).1.trans hrun.id, (hf r).2.trans hrun.identity,
      fun hb' => ?_⟩
    refine (hopen r hr hp (hrun.recoverable hb')).resolve_right fun hclosed => ?_
    simp [hclosed b hb hrun.id.symm] at hb'

theorem addRun (hdb : Ledger db) {r : ChargeRun} (hid : ∀ row ∈ db.runs, row.id ≠ r.id) :
    Ledger (db.withRuns (db.runs ++ [r])) :=
  hdb.withRuns (hdb.runIds.append_one hid) fun _ _ r' hr' hrun =>
    ⟨r', List.mem_append_left _ hr', hrun⟩

/-- A batch changes without its clicks. -/
theorem updateBatches (hdb : Ledger db) {p : ChargeBatch → Bool} {f : ChargeBatch → ChargeBatch}
    (hdebt : ∀ b, (f b).SameDebt b)
    (hrun : ∀ b ∈ db.batches, p b = true → ∃ r ∈ db.runs, (f b).InRun r)
    (hwf : ∀ b ∈ db.batches, p b = true → (f b).WellFormed)
    (hcharged : ∀ b ∈ db.batches, p b = true → (f b).chargedPreRaw = b.chargedPreRaw)
    (hfits : ∀ b ∈ db.batches, p b = true → ∀ s, b.status.Fits s → (f b).status.Fits s) :
    Ledger (db.withBatches (updateWhere p f db.batches)) := by
  refine
    { hdb with
      batchIds := hdb.batchIds.updateWhere fun b => (hdebt b).id
      batch := ?_, run := ?_, place := ?_, due := ?_, count := ?_, paid := ?_ }
  · intro b hb
    obtain ⟨hold, -⟩ | ⟨x, hx, hp, rfl⟩ := mem_updateWhere_cases hb
    · exact hdb.batch b hold
    · exact hwf x hx hp
  · intro b hb
    obtain ⟨hold, -⟩ | ⟨x, hx, hp, rfl⟩ := mem_updateWhere_cases hb
    · exact hdb.run b hold
    · exact hrun x hx hp
  · intro c hc id hid
    obtain ⟨b, hb, hbid, hbelongs⟩ := hdb.place c hc id hid
    cases hp : p b
    · exact ⟨b, mem_updateWhere_of_not hb hp, hbid, hbelongs⟩
    · refine ⟨f b, mem_updateWhere_of hb hp, (hdebt b).id.trans hbid, ?_⟩
      exact
        { identity := hbelongs.identity.trans (hdebt b).identity.symm
          keywordId := hbelongs.keywordId.trans (hdebt b).keywordId.symm
          stakerAddress := hbelongs.stakerAddress.trans (hdebt b).stakerAddress.symm
          positionVersion := hbelongs.positionVersion.trans (hdebt b).positionVersion.symm
          status := hfits b hb hp _ hbelongs.status }
  · intro b hb
    obtain ⟨hold, -⟩ | ⟨x, hx, hp, rfl⟩ := mem_updateWhere_cases hb
    · exact hdb.due b hold
    · rw [(hdebt x).id, (hdebt x).duePreRaw]
      exact hdb.due x hx
  · intro b hb
    obtain ⟨hold, -⟩ | ⟨x, hx, hp, rfl⟩ := mem_updateWhere_cases hb
    · exact hdb.count b hold
    · rw [(hdebt x).id, (hdebt x).clickCount]
      exact hdb.count x hx
  · intro b hb charged hcharge
    obtain ⟨hold, -⟩ | ⟨x, hx, hp, rfl⟩ := mem_updateWhere_cases hb
    · exact hdb.paid b hold charged hcharge
    · rw [(hdebt x).id]
      exact hdb.paid x hx charged (by rw [← hcharged x hx hp]; exact hcharge)

/-- **A batch changes together with its clicks.**  `clicks` are the clicks afterwards: they are
the old ones, with new statuses in the batch. -/
theorem replaceBatch (hdb : Ledger db) {b b' : ChargeBatch} (hb : b ∈ db.batches)
    {f : ChargeBatch → ChargeBatch} (hf : f b = b') (hdebt : b'.SameDebt b)
    (hrun : ∃ r ∈ db.runs, b'.InRun r) (hwf : b'.WellFormed) {g : BillingClick → BillingClick}
    (hcore : ∀ c, (g c).id = c.id ∧ (g c).batchId = c.batchId ∧ (g c).amountPreRaw = c.amountPreRaw)
    (hsame : ∀ c ∈ db.clicks, c.batchId ≠ some b.id → g c = c)
    (hclick : ∀ c ∈ db.clicks, c.batchId = some b.id → (g c).WellFormed)
    (hfits : ∀ c ∈ db.clicks, c.batchId = some b.id → c.Belongs b → (g c).Belongs b')
    (hpaid : ∀ charged, b'.chargedPreRaw = some charged →
      total (BillingClick.isSettledIn b.id) BillingClick.owed (db.clicks.map g) ≤ charged) :
    Ledger ((db.mapBatch b.id f).withClicks (db.clicks.map g)) := by
  -- a row afterwards is the new batch, or it was there and is of another batch
  have hcases : ∀ x ∈ (db.mapBatch b.id f).batches, x = b' ∨ x ∈ db.batches ∧ x.id ≠ b.id := by
    intro x hx
    obtain ⟨hold, hp⟩ | ⟨y, hy, hp, rfl⟩ := mem_updateWhere_cases hx
    · exact .inr ⟨hold, by simpa using hp⟩
    · obtain rfl := hdb.batchIds.eq hy hb (by simpa using hp)
      exact .inl hf
  -- what a batch owes and how many clicks it has do not depend on their statuses
  have htotal : ∀ id, total (BillingClick.isIn id) BillingClick.owed (db.clicks.map g) =
      total (BillingClick.isIn id) BillingClick.owed db.clicks := by
    intro id
    rw [total_map]
    exact total_congr (fun c _ => by simp [BillingClick.isIn, (hcore c).2.1])
      fun c _ _ => by simp [BillingClick.owed, (hcore c).2.2]
  have hlength : ∀ id, ((db.clicks.map g).filter (BillingClick.isIn id)).length =
      (db.clicks.filter (BillingClick.isIn id)).length := by
    intro id
    rw [List.filter_map, List.length_map]
    congr 1
    refine List.filter_congr fun c _ => ?_
    simp [BillingClick.isIn, (hcore c).2.1]
  -- what is settled does, but only in the batch that changes
  have hother : ∀ id, id ≠ b.id → total (BillingClick.isSettledIn id) BillingClick.owed
      (db.clicks.map g) = total (BillingClick.isSettledIn id) BillingClick.owed db.clicks := by
    intro id hid
    rw [total_map]
    refine total_congr (fun c hc => ?_) fun c _ _ => by simp [BillingClick.owed, (hcore c).2.2]
    by_cases hcb : c.batchId = some b.id
    · have hne : ¬b.id = id := fun heq => hid heq.symm
      simp [BillingClick.isSettledIn, (hcore c).2.1, hcb, hne]
    · rw [hsame c hc hcb]
  refine
    { batchIds := ?_, clickIds := ?_, runIds := hdb.runIds, settingsIds := hdb.settingsIds
      batch := ?_, click := ?_, run := ?_, place := ?_, due := ?_, count := ?_, paid := ?_ }
  · unfold Keyed Database.mapBatch
    rw [withClicks_batches, withBatches_batches, map_updateWhere]
    · exact hdb.batchIds
    · intro x hx hp
      obtain rfl := hdb.batchIds.eq hx hb (by simpa using hp)
      rw [hf, hdebt.id]
  · unfold Keyed
    rw [withClicks_clicks, List.map_map]
    exact (List.map_congr_left fun c _ => (hcore c).1) ▸ hdb.clickIds
  · intro x hx
    obtain rfl | ⟨hx, -⟩ := hcases x hx
    · exact hwf
    · exact hdb.batch x hx
  · rintro _ hmem
    obtain ⟨c, hc, rfl⟩ := List.mem_map.1 hmem
    by_cases hcb : c.batchId = some b.id
    · exact hclick c hc hcb
    · rw [hsame c hc hcb]
      exact hdb.click c hc
  · intro x hx
    obtain rfl | ⟨hx, -⟩ := hcases x hx
    · exact hrun
    · exact hdb.run x hx
  · rintro _ hmem id hid
    obtain ⟨c, hc, rfl⟩ := List.mem_map.1 hmem
    rw [(hcore c).2.1] at hid
    obtain ⟨x, hx, rfl, hbelongs⟩ := hdb.place c hc id hid
    by_cases hxb : x.id = b.id
    · obtain rfl := hdb.batchIds.eq hx hb hxb
      refine ⟨b', ?_, hdebt.id, hfits c hc hid hbelongs⟩
      rw [← hf]
      exact mem_updateWhere_of hx (by simp)
    · have hcb : c.batchId ≠ some b.id := by
        rw [hid]
        simpa using hxb
      rw [hsame c hc hcb]
      exact ⟨x, mem_updateWhere_of_not hx (by simpa using hxb), rfl, hbelongs⟩
  · intro x hx
    rw [withClicks_clicks, htotal]
    obtain rfl | ⟨hx, -⟩ := hcases x hx
    · rw [hdebt.id, hdebt.duePreRaw]
      exact hdb.due b hb
    · exact hdb.due x hx
  · intro x hx
    rw [withClicks_clicks, hlength]
    obtain rfl | ⟨hx, -⟩ := hcases x hx
    · rw [hdebt.id, hdebt.clickCount]
      exact hdb.count b hb
    · exact hdb.count x hx
  · intro x hx charged hcharged
    obtain rfl | ⟨hx, hne⟩ := hcases x hx
    · rw [withClicks_clicks, hdebt.id]
      exact hpaid charged hcharged
    · rw [withClicks_clicks, hother _ hne]
      exact hdb.paid x hx charged hcharged

end Ledger

end Market

end PreCommunity
