import PreCommunity.Market.Growth

/-!
# Every write keeps the ledger

Each write of each job keeps the charge ledger, and moves every table in a way that keeps what is
recorded.

* `Keeps` : a write keeps the ledger and grows the tables.
* `ChargeWrite.keeps`, `CaptureWrite.keeps`, … : the writes, by job.
* `JobWrite.keeps` : all of them.
-/

namespace PreCommunity

namespace Market

open Store Concurrent

/-- The write keeps the ledger and grows the tables. -/
structure Keeps (w w' : World) : Prop where
  ledger : Ledger w'.db
  step : TablesStep w w'

theorem Keeps.refl {w : World} (hw : Ledger w.db) : Keeps w w :=
  ⟨hw, .of_eq rfl rfl rfl rfl rfl rfl⟩

/-! ### The charge worker -/

section Charge

variable {w : World}

theorem keeps_lock (hw : Ledger w.db) (owner : Slot) (wallet : Wallet) :
    Keeps w (w.lock owner wallet) :=
  ⟨hw, .of_eq rfl rfl rfl rfl rfl rfl⟩

theorem keeps_release (hw : Ledger w.db) (owner : Slot) : Keeps w (w.release owner) :=
  ⟨hw, .of_eq rfl rfl rfl rfl rfl rfl⟩

theorem upsertSettings_batches (db : Database) (identity : Identity) :
    (db.upsertSettings identity).batches = db.batches := by
  unfold Database.upsertSettings
  split_ifs <;> rfl

theorem upsertSettings_clicks (db : Database) (identity : Identity) :
    (db.upsertSettings identity).clicks = db.clicks := by
  unfold Database.upsertSettings
  split_ifs <;> rfl

theorem upsertSettings_runs (db : Database) (identity : Identity) :
    (db.upsertSettings identity).runs = db.runs := by
  unfold Database.upsertSettings
  split_ifs <;> rfl

theorem keeps_upsertSettings (hw : Ledger w.db) (identity : Identity) :
    Keeps w (w.withDb (w.db.upsertSettings identity)) :=
  ⟨hw.upsertSettings identity, .of_eq rfl rfl rfl (upsertSettings_clicks _ _)
    (upsertSettings_batches _ _) (upsertSettings_runs _ _)⟩

theorem keeps_mapSettings (hw : Ledger w.db) {identity : Identity}
    {f : ChargeSettings → ChargeSettings} (hf : ∀ row, (f row).identity = row.identity) :
    Keeps w (w.withDb (w.db.mapSettings identity f)) :=
  ⟨hw.mapSettings hf, .of_eq rfl rfl rfl rfl rfl rfl⟩

/-- An update of clicks outside batches. -/
theorem keeps_updateClicks (hw : Ledger w.db) {p : BillingClick → Bool}
    {f : BillingClick → BillingClick}
    (hfree : ∀ c ∈ w.db.clicks, p c = true → c.batchId = none)
    (hid : ∀ c, (f c).id = c.id ∧ (f c).batchId = c.batchId)
    (hwf : ∀ c ∈ w.db.clicks, p c = true → (f c).WellFormed)
    (hmoves : ∀ c ∈ w.db.clicks, p c = true → c.Moves (f c)) :
    Keeps w (w.withDb (w.db.updateClicks p f)) :=
  ⟨hw.updateClicks hfree hid hwf, rfl, rfl, rfl, .update hmoves, .refl _, .refl _⟩

/-- An update of a capture that is under way. -/
theorem keeps_capture (hw : Ledger w.db) {p : BillingClick → Bool}
    {f : BillingClick → BillingClick}
    (hcapturing : ∀ c ∈ w.db.clicks, p c = true → c.status = .capturing)
    (hf : ∀ c, (f c).id = c.id ∧ (f c).identity = c.identity ∧ (f c).keywordId = c.keywordId ∧
      (f c).stakerAddress = c.stakerAddress ∧ (f c).positionVersion = c.positionVersion ∧
      (f c).clickedAt = c.clickedAt ∧ (f c).batchId = c.batchId)
    (hwf : ∀ c ∈ w.db.clicks, c.status = .capturing → (f c).WellFormed) :
    Keeps w (w.withDb (w.db.updateClicks p f)) := by
  refine keeps_updateClicks hw ?_ ?_ ?_ ?_
  · exact fun c hc hp => ((hw.click c hc).capturing (hcapturing c hc hp)).2.2
  · exact fun c => ⟨(hf c).1, (hf c).2.2.2.2.2.2⟩
  · exact fun c hc hp => hwf c hc (hcapturing c hc hp)
  · intro c hc hp
    obtain ⟨h₁, h₂, h₃, h₄, h₅, h₆, -⟩ := hf c
    exact .of_capturing (hw.click c hc) (hcapturing c hc hp) h₁ h₂ h₃ h₄ h₅ h₆

/-- A capture that ends without a bill. -/
theorem wellFormed_unbilled {c : BillingClick} (hc : c.WellFormed)
    (hfree : c.batchId = none) (errorCode : Option ErrorCode) :
    ({ c with status := .unbilled, errorCode := errorCode } : BillingClick).WellFormed :=
  { hc with
    capturing := by simp
    free := fun _ => hfree
    reserved := by simp
    priced := by simp }

/-- A click that waits is not in a batch. -/
theorem waiting_cases {c : BillingClick} (h : c.waiting = true) :
    c.batchId = none ∧ (c.status = .pending ∨ c.status = .pricePending) := by
  simpa [BillingClick.waiting] using h

theorem awaitsPrice_cases {c : BillingClick} (h : c.awaitsPrice = true) :
    c.status = .pricePending ∧ c.amountPreRaw = none := by
  simpa [BillingClick.awaitsPrice] using h

theorem isCapturing_cases {c : BillingClick} {id : Id} (h : c.isCapturing id = true) :
    c.id = id ∧ c.status = .capturing := by
  simpa [BillingClick.isCapturing] using h

/-- The conversion of a click that waits for a price and still has the bid `bid`. -/
theorem keeps_convert (hw : Ledger w.db) {id : Id} {bid amount : ℕ} {priceUsd : Text}
    {quotedAt blockNumber : ℕ} {blockHash : Hash} (hbill : billPreRaw bid priceUsd = .ok amount)
    (hbid : ∀ c ∈ w.db.clicks, c.id = id → c.bidUsdRaw = some bid) :
    Keeps w (w.withDb (w.db.updateClicks (fun row => row.id = id ∧ row.awaitsPrice)
      fun row => row.convert amount priceUsd quotedAt blockNumber blockHash)) := by
  have hp : ∀ c : BillingClick, decide (c.id = id ∧ c.awaitsPrice = true) = true →
      c.id = id ∧ c.status = .pricePending ∧ c.amountPreRaw = none := fun c h =>
    (of_decide_eq_true h).imp_right awaitsPrice_cases
  refine keeps_updateClicks hw ?_ (fun _ => ⟨rfl, rfl⟩) ?_ ?_
  · exact fun c hc h => (hw.click c hc).free (.inr (.inl (hp c h).2.1))
  · intro c hc h
    obtain ⟨hid, hstatus, hnone⟩ := hp c h
    have hwf := hw.click c hc
    have hfree := hwf.free (.inr (.inl hstatus))
    refine
      { hwf with
        capturing := ?_, free := fun _ => hfree, reserved := ?_, priced := fun _ => rfl
        placed := fun _ => rfl, amount := ?_
        price := by simp [BillingClick.convert], priceHash := by simp [BillingClick.convert] }
    · simp only [BillingClick.convert]
      split_ifs <;> simp
    · simp only [BillingClick.convert]
      split_ifs <;> simp
    · rintro _ ⟨⟩
      exact ⟨bid, priceUsd, hbid c hc hid, rfl, hbill⟩
  · intro c hc h
    obtain ⟨-, hstatus, hnone⟩ := hp c h
    refine
      { id := rfl, identity := rfl, keywordId := rfl, stakerAddress := rfl
        positionVersion := rfl, clickedAt := rfl, captured := fun _ => ?_, suppressed := fun _ => ?_
        bid := fun _ => ⟨rfl, rfl, rfl⟩, amount := by simp [hnone], batch := fun _ => rfl }
    · simp only [BillingClick.convert]
      split_ifs <;> simp
    · simp only [BillingClick.convert, hstatus]
      split_ifs <;> simp

/-- An update of a batch without its clicks. -/
theorem keeps_mapBatch (hw : Ledger w.db) {id : Id} {f : ChargeBatch → ChargeBatch}
    (hdebt : ∀ b, (f b).SameDebt b) (hrun : ∀ b, (f b).runId = b.runId)
    (hwf : ∀ b ∈ w.db.batches, b.id = id → (f b).WellFormed)
    (hstatus : ∀ b ∈ w.db.batches, b.id = id → (f b).chargedPreRaw = b.chargedPreRaw ∧
      (f b).status.terminal = b.status.terminal ∧
      ∀ s, b.status.Fits s → (f b).status.Fits s) :
    Keeps w (w.withDb (w.db.mapBatch id f)) := by
  refine ⟨hw.updateBatches hdebt ?_ ?_ ?_ ?_, rfl, rfl, rfl, .refl _,
    .update fun b _ _ => hdebt b, .refl _⟩
  · intro b hb hp
    obtain ⟨r, hr, hrun'⟩ := hw.run b hb
    refine ⟨r, hr, hrun'.id.trans (hrun b).symm, hrun'.identity.trans (hdebt b).identity.symm, ?_⟩
    rw [(hstatus b hb (by simpa using hp)).2.1]
    exact hrun'.recoverable
  · exact fun b hb hp => hwf b hb (by simpa using hp)
  · exact fun b hb hp => (hstatus b hb (by simpa using hp)).1
  · exact fun b hb hp => (hstatus b hb (by simpa using hp)).2.2

/-- A batch that is in flight or failed keeps its clicks reserved. -/
theorem fits_of_open {s s' : BatchStatus} (hs : s.terminal = false) (hs' : s'.terminal = false)
    (c : ClickStatus) (h : s.Fits c) : s'.Fits c := by
  cases s <;> cases s' <;> simp_all [BatchStatus.terminal, BatchStatus.Fits]

theorem ChargeBatch.Sent.open {b : ChargeBatch} (h : b.Sent) : b.status.terminal = false := by
  unfold ChargeBatch.Sent at h
  cases hs : b.status <;> simp_all [BatchStatus.inFlight, BatchStatus.terminal]

theorem ChargeBatch.Unsent.open {b : ChargeBatch} (h : b.Unsent) : b.status.terminal = false := by
  obtain h | h := h <;> rw [h] <;> rfl

/-- The clicks of a batch take a new status. -/
theorem clicksStep_withStatus (hw : Ledger w.db) {id : Id} {status : ClickStatus}
    {errorCode : Option ErrorCode} (hs : status ≠ .capturing ∧ status ≠ .suppressed) :
    ClicksStep w.db.clicks (updateWhere (fun row => row.batchId = some id)
      (fun row => row.withStatus status errorCode) w.db.clicks) :=
  .update fun c hc hp => .withStatus ((hw.click c hc).persists (by simp_all)) hs

theorem keeps_closeBatch (hw : Ledger w.db) {b : ChargeBatch} (hb : b ∈ w.db.batches)
    (code : ErrorCode) (block : ℕ) (hash : Hash) :
    Keeps w (w.withDb (w.db.closeBatch b code block hash)) :=
  ⟨hw.closeBatch hb code block hash, rfl, rfl, rfl, clicksStep_withStatus hw (by simp),
    .update fun _ _ _ => ⟨rfl, rfl, rfl, rfl, rfl, rfl, rfl, rfl, rfl⟩, .refl _⟩

theorem keeps_reset (hw : Ledger w.db) {b : ChargeBatch} (hb : b ∈ w.db.batches) :
    Keeps w (w.withDb (w.db.reset b)) :=
  ⟨hw.reset hb, rfl, rfl, rfl, clicksStep_withStatus hw (by simp),
    .update fun _ _ _ => ⟨rfl, rfl, rfl, rfl, rfl, rfl, rfl, rfl, rfl⟩,
    .update fun _ => ⟨rfl, rfl, rfl⟩⟩

theorem keeps_settle (hw : Ledger w.db) {b batch : ChargeBatch} (hb : b ∈ w.db.batches)
    (hdebt : b.SameDebt batch) (receipt : ChargeReceipt) {charged : ℕ}
    (hcharged : charged ≤ b.requestedPreRaw) :
    Keeps w (w.withDb (w.db.settle batch receipt charged)) := by
  refine ⟨hw.settle hb hdebt receipt hcharged, rfl, rfl, rfl, ?_, ?_, ?_⟩
  · rw [settle_eq w.db hdebt, World.withDb_db, withClicks_clicks]
    refine .map fun c hc => ?_
    by_cases hid : c.id ∈ (splitCharge charged (batchClicks w.db b.id)).1 ∨
        c.id ∈ (splitCharge charged (batchClicks w.db b.id)).2
    · obtain ⟨x, hx, heq⟩ := of_mem_splitCharge charged hid
      obtain ⟨hx, hxb⟩ := mem_batchClicks.1 hx
      obtain rfl := hw.clickIds.eq hx hc heq
      have hp := (hw.click x hx).persists (by simp [hxb])
      obtain ⟨-, e, he⟩ | ⟨-, e, he⟩ := share_cases hid <;> rw [he] <;>
        exact .withStatus hp (by simp)
    · rw [share_of_not_mem _ _ hid]
      exact .refl c
  · exact .update fun _ _ _ => ⟨rfl, rfl, rfl, rfl, rfl, rfl, rfl, rfl, rfl⟩
  · exact .refl _

theorem keeps_mapRun (hw : Ledger w.db) {id : Id} {f : ChargeRun → ChargeRun}
    (hf : ∀ run : ChargeRun, run.Same (f run))
    (hstatus : ∀ run, (f run).status.recoverable = true ∨
      ∀ row ∈ w.db.batches, row.runId = id → row.status.terminal = true) :
    Keeps w (w.withDb (w.db.mapRun id f)) := by
  refine ⟨hw.updateRuns (fun r => ⟨(hf r).1, (hf r).2.1⟩) fun r _ hp _ => ?_, rfl, rfl, rfl,
    .refl _, .refl _, .update hf⟩
  rw [show r.id = id by simpa using hp]
  exact hstatus r

theorem keeps_reserve (hw : Ledger w.db) {run : ChargeRun} {deps : ChargeDependencies}
    {settings : ChargeSettings} {head : ℕ} {random : ℕ → Id} {ids : List Id} {db : Database}
    (hrun : ∃ r ∈ w.db.runs, r.id = run.id ∧ r.identity = deps.identity)
    (h : (reserveRunTx run settings deps head random).run w.db = .ok (ids, db)) :
    Keeps w (w.withDb db) := by
  refine ⟨hw.reserveRun hrun h, rfl, rfl, rfl, ?_, ?_, ?_⟩
  · obtain ⟨db₁, f, hres, -, rfl⟩ := reserveRunTx_ok h
    obtain ⟨-, -, ⟨g, hg, hplaced⟩⟩ := hres.reserved
    change ClicksStep _ db₁.clicks
    rw [hg]
    refine .map fun c hc => ?_
    obtain heq | ⟨hpending, hfree, id, due, heq⟩ := hplaced c
    · rw [heq]
      exact .refl c
    · rw [heq]
      refine ⟨rfl, rfl, rfl, rfl, rfl, rfl, fun _ => ?_, fun _ => ?_, fun _ => ⟨rfl, rfl, rfl⟩,
        fun _ => ⟨rfl, rfl, rfl, rfl, rfl⟩, by simp [hfree]⟩
      · simp only [BillingClick.reserve]
        split_ifs <;> simp
      · simp only [BillingClick.reserve, hpending]
        split_ifs <;> simp
  · obtain ⟨db₁, f, hres, -, rfl⟩ := reserveRunTx_ok h
    obtain ⟨-, ⟨new, hnew, hfresh⟩, -⟩ := hres.reserved
    change BatchesStep _ db₁.batches
    refine ⟨_, new, hnew, fun b _ => ?_,
      fun b hb => ⟨(hfresh b hb).unsigned, (hfresh b hb).receipt, (hfresh b hb).status⟩⟩
    beta_reduce
    split_ifs <;> exact ⟨rfl, rfl, rfl, rfl, rfl, rfl, rfl, rfl, rfl⟩
  · obtain ⟨db₁, f, hres, hf, rfl⟩ := reserveRunTx_ok h
    obtain ⟨htables, -, -⟩ := hres.reserved
    have hruns : db₁.runs = w.db.runs := by rw [htables]; rfl
    change RunsStep _ (updateWhere _ _ db₁.runs)
    rw [hruns]
    exact .update fun r => ⟨(hf r).1, (hf r).2.1, (hf r).2.2.1⟩

/-- A batch that is sent, with another open status. -/
theorem ChargeBatch.WellFormed.reopen {b b' : ChargeBatch} (hb : b.WellFormed)
    (hopen : b.status.terminal = false) (hopen' : b'.status.terminal = false)
    (hdebt : b'.SameDebt b) (hsigned : b'.Signed) (hunprepared : b'.status ≠ .prepared)
    (hcharged : b'.chargedPreRaw = b.chargedPreRaw)
    (hshortfall : b'.shortfallPreRaw = b.shortfallPreRaw)
    (hreceipt : b'.receiptBlockNumber.isSome ↔ b'.receiptBlockHash.isSome) : b'.WellFormed where
  requested := by rw [hdebt.requestedPreRaw, hdebt.duePreRaw]; exact hb.requested
  signature := .inl hsigned
  prepared h := absurd h hunprepared
  sent _ := hsigned
  uncharged _ := by rw [hcharged, hshortfall]; exact hb.uncharged hopen
  charged h := by simp [hopen'] at h
  confirmed h := by simp [h, BatchStatus.terminal] at hopen'
  uncollectable h := by simp [h, BatchStatus.terminal] at hopen'
  receipt := hreceipt
  unproved h := by simp [hopen'] at h

/-- A sent batch gets another open status, and perhaps a receipt. -/
theorem keeps_sent (hw : Ledger w.db) {row : ChargeBatch} (hrow : row ∈ w.db.batches)
    (hopen : row.status.terminal = false) {f : ChargeBatch → ChargeBatch}
    (hdebt : ∀ b, (f b).SameDebt b) (hrun : ∀ b, (f b).runId = b.runId)
    (hsigned : (f row).Signed) (hstatus : (f row).status.terminal = false)
    (hunprepared : (f row).status ≠ .prepared)
    (hcharged : ∀ b, (f b).chargedPreRaw = b.chargedPreRaw ∧
      (f b).shortfallPreRaw = b.shortfallPreRaw)
    (hreceipt : (f row).receiptBlockNumber.isSome ↔ (f row).receiptBlockHash.isSome) :
    Keeps w (w.withDb (w.db.mapBatch row.id f)) := by
  refine keeps_mapBatch hw hdebt hrun ?_ ?_
  · intro b hb hid
    obtain rfl := hw.batchIds.eq hb hrow hid
    exact (hw.batch b hb).reopen hopen hstatus (hdebt b) hsigned hunprepared (hcharged b).1
      (hcharged b).2 hreceipt
  · intro b hb hid
    obtain rfl := hw.batchIds.eq hb hrow hid
    exact ⟨(hcharged b).1, hstatus.trans hopen.symm, fits_of_open hopen hstatus⟩

/-- **The charge worker.** -/
theorem ChargeWrite.keeps {ext : External} {deps : ChargeDependencies} {h : Log}
    {F : Chain.Forest Hash} {w' : World} (hw : Ledger w.db)
    (hreads : ∀ w₁, ReadIn h w₁ → Grows F w₁ w) (hwrite : ChargeWrite ext deps h w w') :
    Keeps w w' := by
  cases hwrite with
  | idle => exact .refl hw
  | lock _ => exact keeps_lock hw _ _
  | release => exact keeps_release hw _
  | upsertSettings => exact keeps_upsertSettings hw _
  | interrupt =>
    refine keeps_capture hw ?_ (fun _ => ⟨rfl, rfl, rfl, rfl, rfl, rfl, rfl⟩) ?_
    · exact fun c hc hp => (of_decide_eq_true hp).2.1
    · exact fun c hc hcap => wellFormed_unbilled (hw.click c hc)
        ((hw.click c hc).capturing hcap).2.2 _
  | @convert w₁ w₂ snapshot price quotedAt bid amount click _ _ _ hread hclick hawaits hbid hbill =>
    refine keeps_convert hw hbill fun c hc hid => ?_
    -- the bid of the click was set when the page was read
    have hstatus := (awaitsPrice_cases hawaits).1
    obtain ⟨c', hc', hm⟩ := (hreads w₂ hread).clicks click hclick
      ⟨by simp [hstatus], by simp [hstatus]⟩
    rw [hw.clickIds.eq hc hc' (hid.trans hm.id.symm), (hm.bid (by simp [hbid])).1, hbid]
  | invalidate =>
    refine keeps_updateClicks hw ?_ (fun _ => ⟨rfl, rfl⟩) ?_ ?_
    · exact fun c hc hp => (waiting_cases (of_decide_eq_true hp).2).1
    · exact fun c hc hp => wellFormed_unbilled (hw.click c hc)
        (waiting_cases (of_decide_eq_true hp).2).1 _
    · intro c hc hp
      refine .withStatus ?_ (by simp)
      obtain ⟨-, hs | hs⟩ := waiting_cases (of_decide_eq_true hp).2 <;>
        exact ⟨by simp [hs], by simp [hs]⟩
  | reserve hrun hres => exact keeps_reserve hw hrun hres
  | @settle batch row receipt event hrow hdebt _ _ _ hmatches _ _ =>
    refine keeps_settle hw hrow hdebt receipt ?_
    rw [hdebt.requestedPreRaw]
    simp only [ChargeReceiptEvent.matches, decide_eq_true_eq] at hmatches
    omega
  | close hrow _ _ _ _ => exact keeps_closeBatch hw hrow _ _ _
  | reset hrow _ _ _ _ _ _ _ => exact keeps_reset hw hrow
  | @mark row status code hrow hsent hstatus =>
    have hsigned := (hw.batch row hrow).sent hsent
    refine keeps_sent hw hrow hsent.open (fun _ => ⟨rfl, rfl, rfl, rfl, rfl, rfl, rfl, rfl, rfl⟩)
      (fun _ => rfl) hsigned ?_ ?_ (fun _ => ⟨rfl, rfl⟩) (hw.batch row hrow).receipt
    · obtain rfl | rfl := hstatus <;> rfl
    · obtain rfl | rfl := hstatus <;> simp
  | @fail row txHash receipt hrow hsent _ _ =>
    have hsigned := (hw.batch row hrow).sent hsent
    exact keeps_sent hw hrow hsent.open (fun _ => ⟨rfl, rfl, rfl, rfl, rfl, rfl, rfl, rfl, rfl⟩)
      (fun _ => rfl) hsigned rfl (by simp) (fun _ => ⟨rfl, rfl⟩) (by simp)
  | @sign w₀ row signer nonce head signed hsign =>
    have hkeeps : Keeps w (w.withDb (w.db.mapBatch row.id fun row =>
        row.sign signer nonce signed)) :=
      keeps_sent hw hsign.mem hsign.unsent.open
        (fun _ => ⟨rfl, rfl, rfl, rfl, rfl, rfl, rfl, rfl, rfl⟩)
        (fun _ => rfl) ⟨rfl, rfl, rfl, rfl⟩ rfl (by simp [ChargeBatch.sign]) (fun _ => ⟨rfl, rfl⟩)
        (by simp [ChargeBatch.sign])
    exact ⟨hkeeps.ledger, { hkeeps.step with }⟩
  | note =>
    refine keeps_mapBatch hw (fun _ => ⟨rfl, rfl, rfl, rfl, rfl, rfl, rfl, rfl, rfl⟩)
      (fun _ => rfl) (fun b hb _ => { hw.batch b hb with }) fun b _ _ => ⟨rfl, rfl, fun _ => id⟩
  | runStatus hf hstatus =>
    exact keeps_mapRun hw (fun r => ⟨(hf r).1, (hf r).2.1, (hf r).2.2.1⟩) hstatus
  | createRun hid =>
    exact ⟨hw.addRun hid, rfl, rfl, rfl, .refl _, .refl _, .add _ _⟩
  | report _ => exact keeps_mapSettings hw fun _ => rfl
  | reportEnd => exact keeps_mapSettings hw fun _ => rfl

end Charge

/-! ### The other jobs -/

section Others

variable {w w' : World} {h : Log}

theorem PublicationWrite.keeps {deps : PricePublicationDependencies} (hw : Ledger w.db)
    (hwrite : PublicationWrite deps h w w') : Keeps w w' := by
  have htables : w'.db.clicks = w.db.clicks ∧ w'.db.batches = w.db.batches ∧
      w'.db.runs = w.db.runs ∧ w'.db.settings = w.db.settings ∧ w'.chains = w.chains ∧
      w'.clock = w.clock ∧ w'.issued = w.issued := by
    cases hwrite <;> exact ⟨rfl, rfl, rfl, rfl, rfl, rfl, rfl⟩
  obtain ⟨hclicks, hbatches, hruns, hsettings, hchains, hclock, hissued⟩ := htables
  exact ⟨hw.congr hbatches hclicks hruns (hsettings ▸ hw.settingsIds),
    .of_eq hchains hclock hissued hclicks hbatches hruns⟩

/-- What a capture may contain. -/
theorem capture_cases {ext : External} {position : BillingPosition} {c : Capture}
    (hc : capture ext position = .ok c) :
    c.bidUsdRaw = position.bidUsdRaw ∧ c.bidBlockNumber = position.blockNumber ∧
      c.bidBlockHash = position.blockHash ∧
      (c.status = .pricePending ∧ c.amountPreRaw = none ∧ c.priceUsd = none ∧
          c.priceBlockNumber = none ∧ c.priceBlockHash = none ∨
        ∃ amount, c.amountPreRaw = some amount ∧ 0 < position.preUsdPriceE18 ∧
          c.status = (if amount = 0 then .settled else .pending) ∧
          c.priceUsd = some (ext.formatUnits position.preUsdPriceE18 18) ∧
          billPreRaw c.bidUsdRaw (ext.formatUnits position.preUsdPriceE18 18) = .ok amount ∧
          c.priceBlockNumber = some position.blockNumber ∧
          c.priceBlockHash = some position.blockHash) := by
  unfold capture BillingPosition.priceUsd at hc
  split at hc
  · obtain rfl := Except.ok.inj hc
    exact ⟨rfl, rfl, rfl, .inl ⟨rfl, rfl, rfl, rfl, rfl⟩⟩
  · rename_i priceUsd hprice
    split_ifs at hprice with hset
    obtain rfl := Option.some.inj hprice
    split at hc
    · cases hc
    · rename_i amount hbill
      obtain rfl := Except.ok.inj hc
      exact ⟨rfl, rfl, rfl, .inr ⟨amount, rfl, hset.1, rfl, rfl, hbill, rfl, rfl⟩⟩

/-- A finalised click is well formed. -/
theorem BillingClick.WellFormed.finalize {row : BillingClick} (hrow : row.WellFormed)
    (hcap : row.status = .capturing) {ext : External} {position : BillingPosition} {c : Capture}
    (hc : capture ext position = .ok c) (allowed : Bool) : (row.finalize c allowed).WellFormed := by
  obtain ⟨-, -, hfree⟩ := hrow.capturing hcap
  obtain ⟨-, -, -, ⟨hstatus, hamount, hprice, hnumber, hhash⟩ |
    ⟨amount, hamount, -, hstatus, hprice, hbill, hnumber, hhash⟩⟩ := capture_cases hc
  · refine
      { capturing := ?_, free := fun _ => hfree, reserved := ?_, priced := ?_
        placed := by simp [BillingClick.finalize, hfree], amount := ?_
        bid := fun _ => ⟨rfl, rfl⟩, price := ?_, priceHash := ?_ }
    all_goals cases allowed <;>
      simp [BillingClick.finalize, hstatus, hamount, hnumber, hhash]
  · have hopen : (row.finalize c allowed).status ≠ .capturing ∧
        (row.finalize c allowed).status ≠ .reserved := by
      simp only [BillingClick.finalize, hstatus]
      split_ifs <;> simp
    refine
      { capturing := fun hs => absurd hs hopen.1, free := fun _ => hfree
        reserved := fun hs => absurd hs hopen.2, priced := ?_
        placed := by simp [BillingClick.finalize, hfree], amount := ?_
        bid := fun _ => ⟨rfl, rfl⟩, price := ?_, priceHash := ?_ }
    · simp [BillingClick.finalize, hamount]
    · intro a ha
      simp only [BillingClick.finalize, hamount, Option.some.injEq] at ha
      subst ha
      exact ⟨_, _, rfl, hprice, hbill⟩
    · simp [BillingClick.finalize, hamount, hnumber]
    · simp [BillingClick.finalize, hnumber, hhash]

theorem wellFormed_claim (delivery : AdDelivery) (clickedAt : ℕ) :
    (BillingClick.claim delivery clickedAt).WellFormed := by
  constructor <;> simp [BillingClick.claim]

theorem keeps_finalize (hw : Ledger w.db) (id : Id) {ext : External} {position : BillingPosition}
    {c : Capture} (hc : capture ext position = .ok c) (allowed : Bool) :
    Keeps w (w.withDb (w.db.updateClicks (BillingClick.isCapturing id) fun row =>
      row.finalize c allowed)) :=
  keeps_capture hw (fun _ _ hp => (isCapturing_cases hp).2)
    (fun _ => ⟨rfl, rfl, rfl, rfl, rfl, rfl, rfl⟩)
    fun x hx hcap => (hw.click x hx).finalize hcap hc allowed

theorem CaptureWrite.keeps {ext : External} {request : CaptureRequest} (hw : Ledger w.db)
    (hwrite : CaptureWrite ext request h w w') : Keeps w w' := by
  cases hwrite with
  | idle => exact .refl hw
  | claim _ _ hid =>
    exact ⟨hw.addClick hid (wellFormed_claim _ _) rfl, rfl, rfl, rfl, .claim hid, .refl _, .refl _⟩
  | close =>
    refine keeps_capture hw (fun _ _ hp => (isCapturing_cases hp).2)
      (fun _ => ⟨rfl, rfl, rfl, rfl, rfl, rfl, rfl⟩) ?_
    exact fun x hx hcap => wellFormed_unbilled (hw.click x hx)
      ((hw.click x hx).capturing hcap).2.2 _
  | settle _ _ hc _ => exact keeps_finalize hw _ hc true
  | @finalize w₀ position c fingerprint _ _ hc _ _ _ _ =>
    have hkeeps := keeps_finalize hw request.delivery.deliveryId hc
      (claimClickBillingWindow fingerprint w₀.clock w.db.windows).1
    exact ⟨hkeeps.ledger.congr rfl rfl rfl hw.settingsIds, { hkeeps.step with }⟩

theorem RetainWrite.keeps (hw : Ledger w.db) (hwrite : RetainWrite h w w') : Keeps w w' := by
  cases hwrite with
  | idle => exact .refl hw
  | @retain w₀ now _ _ =>
    have hsuppressed : ∀ c ∈ w.db.clicks, (!decide (c.status = .suppressed ∧
        c.clickedAt < now - 2 * 60 * 60000)) = false → c.status = .suppressed := by
      intro c _ hp
      simp only [Bool.not_eq_false', decide_eq_true_eq] at hp
      exact hp.1
    refine ⟨?_, rfl, rfl, rfl, .delete hsuppressed, .refl _, .refl _⟩
    have hkept := hw.filterClicks fun c hc hp =>
      (hw.click c hc).free (.inr (.inr (.inl (hsuppressed c hc hp))))
    exact hkept.congr rfl rfl rfl hw.settingsIds

/-- A chunk touches the projection only. -/
theorem commitChunk_tables (db : Database) (identity : Identity) (logs : List IndexedLog)
    (checkpoint : AdsCheckpoint) (snapshot : Option AdsContractSnapshot) (now : ℕ) :
    ∃ positions events indexers, db.commitChunk identity logs checkpoint snapshot now =
      { db with positions := positions, events := events, indexers := indexers } := by
  have hfold : ∀ (logs : List IndexedLog) (db : Database), ∃ positions events,
      logs.foldl (applyLog identity) db =
        { db with positions := positions, events := events } := by
    intro logs
    induction logs with
    | nil => exact fun db => ⟨_, _, rfl⟩
    | cons log logs ih =>
      intro db
      obtain ⟨positions, events, heq⟩ := ih (applyLog identity db log)
      rw [List.foldl_cons, heq]
      unfold applyLog
      simp only
      split_ifs <;> exact ⟨_, _, rfl⟩
  obtain ⟨positions, events, heq⟩ := hfold logs db
  unfold Database.commitChunk
  rw [heq]
  exact ⟨_, _, _, rfl⟩

theorem IndexWrite.keeps {config : IndexConfig} (hw : Ledger w.db)
    (hwrite : IndexWrite config h w w') : Keeps w w' := by
  have htables : ∃ positions events indexers, w' = w.withDb
      { w.db with positions := positions, events := events, indexers := indexers } := by
    cases hwrite with
    | idle => exact ⟨_, _, _, rfl⟩
    | reset _ _ _ _ => exact ⟨_, _, _, rfl⟩
    | chunk _ _ _ _ _ _ _ =>
      obtain ⟨_, _, _, heq⟩ := commitChunk_tables w.db config.identity (sortLogs _ _) _ _ _
      exact ⟨_, _, _, congrArg w.withDb heq⟩
    | refresh _ _ _ _ =>
      obtain ⟨_, _, _, heq⟩ := commitChunk_tables w.db config.identity [] _ _ _
      exact ⟨_, _, _, congrArg w.withDb heq⟩
  obtain ⟨_, _, _, rfl⟩ := htables
  exact ⟨hw.congr rfl rfl rfl hw.settingsIds, .of_eq rfl rfl rfl rfl rfl rfl⟩

theorem AdminWrite.keeps {identity : Identity} (hw : Ledger w.db)
    (hwrite : AdminWrite identity w w') : Keeps w w' := by
  have hupsert := keeps_upsertSettings hw identity
  have hruns := upsertSettings_runs w.db identity
  cases hwrite with
  | idle => exact .refl hw
  | settings =>
    exact ⟨hupsert.ledger.mapSettings fun _ => rfl, { hupsert.step with }⟩
  | upsert => exact hupsert
  | @request id hid =>
    refine ⟨?_, { hupsert.step with runs := .add _ _ }⟩
    have := hupsert.ledger.addRun (r := ⟨id, identity, .manual, .queued, none, none, none⟩)
      (by rw [World.withDb_db, hruns]; exact hid)
    rwa [World.withDb_db, hruns] at this
  | queueUnavailable =>
    exact ⟨hw.updateRuns (fun _ => ⟨rfl, rfl⟩) fun _ _ _ hr => .inl hr, rfl, rfl, rfl, .refl _,
      .refl _, .update fun _ => ⟨rfl, rfl, rfl⟩⟩

/-- **Every write** of every job. -/
theorem JobWrite.keeps {ext : External} {j : Job} {F : Chain.Forest Hash} (hw : Ledger w.db)
    (hreads : ∀ w₁, ReadIn h w₁ → Grows F w₁ w) (hwrite : JobWrite ext j h w w') : Keeps w w' := by
  cases j with
  | charge deps runId cached => exact ChargeWrite.keeps hw hreads hwrite
  | publish deps => exact PublicationWrite.keeps hw hwrite
  | index n config => exact IndexWrite.keeps hw hwrite
  | click n request => exact CaptureWrite.keeps hw hwrite
  | retain n => exact RetainWrite.keeps hw hwrite
  | updateSettings n identity input => exact AdminWrite.keeps hw hwrite
  | requestRun n identity => exact AdminWrite.keeps hw hwrite

end Others

end Market

end PreCommunity
