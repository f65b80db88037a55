import PreCommunity.Market.Safety

/-!
# What the charge ledger promises

The invariant of the ledger in plain terms, in every state of every run: batches add up, debts are
frozen, and no debt is stranded.

* `ChargeBatch.Balanced`, `charge_ledger` : batches and their clicks add up.
* `BillingClick.Frozen`, `frozen_debt` : the bid and the amount of a click never change.
* `no_stranded_debt` : every open batch belongs to a run that the worker still looks at.
-/

namespace PreCommunity

namespace Market

open Store Concurrent

/-! ### Batches -/

/-- **A batch and its clicks add up.** -/
structure ChargeBatch.Balanced (db : Database) (b : ChargeBatch) : Prop where
  /-- The clicks of a batch are clicks on one position. -/
  shared : ∀ c ∈ db.clicks, c.batchId = some b.id → c.keywordId = b.keywordId ∧
    c.stakerAddress = b.stakerAddress ∧ c.positionVersion = b.positionVersion
  priced : ∀ c ∈ db.clicks, c.batchId = some b.id → c.amountPreRaw.isSome
  due : b.duePreRaw = total (fun c => c.batchId = some b.id) (fun c => c.amountPreRaw.getD 0)
    db.clicks
  count : b.clickCount = (db.clicks.filter fun c => c.batchId = some b.id).length
  requested : b.requestedPreRaw = min b.duePreRaw (2 ^ 256 - 1)
  /-- A closed batch splits its debt into a charge and a shortfall. -/
  closed : b.status.terminal = true → ∃ charged shortfall, b.chargedPreRaw = some charged ∧
    b.shortfallPreRaw = some shortfall ∧ charged + shortfall = b.duePreRaw ∧
      charged ≤ b.requestedPreRaw
  confirmed : b.status = .confirmed → ∀ c ∈ db.clicks, c.batchId = some b.id → c.status = .settled
  uncollectable : b.status = .uncollectable → b.chargedPreRaw = some 0 ∧
    ∀ c ∈ db.clicks, c.batchId = some b.id → c.status = .uncollectable
  /-- The charge pays for the clicks that are settled. -/
  settled : ∀ charged, b.chargedPreRaw = some charged →
    total (fun c => c.batchId = some b.id ∧ c.status = .settled) (fun c => c.amountPreRaw.getD 0)
      db.clicks ≤ charged

section

variable {O : Outside} {c c' : MarketConfig} {ls : List (Label World Reply Failure Job)}

theorem Ledger.place_of {db : Database} (hdb : Ledger db) {b : ChargeBatch} (hb : b ∈ db.batches)
    {click : BillingClick} (hclick : click ∈ db.clicks) (hid : click.batchId = some b.id) :
    click.Belongs b := by
  obtain ⟨b', hb', hid', hbelongs⟩ := hdb.place click hclick b.id hid
  rwa [hdb.batchIds.eq hb' hb hid'] at hbelongs

theorem Ledger.balanced {db : Database} (hdb : Ledger db) {b : ChargeBatch} (hb : b ∈ db.batches) :
    b.Balanced db := by
  have hwf := hdb.batch b hb
  constructor
  · intro click hclick hid
    have hbelongs := hdb.place_of hb hclick hid
    exact ⟨hbelongs.keywordId, hbelongs.stakerAddress, hbelongs.positionVersion⟩
  · intro click hclick hid
    exact (hdb.click click hclick).placed (by simp [hid])
  · exact (hdb.due b hb).symm
  · exact (hdb.count b hb).symm
  · exact hwf.requested
  · intro hclosed
    obtain ⟨charged, hcharged, hshortfall, hle⟩ := hwf.charged hclosed
    have hdue : charged ≤ b.duePreRaw :=
      Nat.le_trans hle (hwf.requested ▸ Nat.min_le_left _ _)
    exact ⟨charged, b.duePreRaw - charged, hcharged, hshortfall, by omega, hle⟩
  · intro hs click hclick hid
    have hfits := (hdb.place_of hb hclick hid).status
    rwa [hs] at hfits
  · intro hs
    refine ⟨hwf.uncollectable hs, fun click hclick hid => ?_⟩
    have hfits := (hdb.place_of hb hclick hid).status
    rwa [hs] at hfits
  · exact hdb.paid b hb

/-- A click in a batch stays in it. -/
theorem Grows.batchId {F : Chain.Forest Hash} {w w' : World} (hw : Ledger w.db)
    (hgrows : Grows F w w') {click : BillingClick} (hclick : click ∈ w.db.clicks) {id : Id}
    (hid : click.batchId = some id) :
    ∃ click' ∈ w'.db.clicks, click'.id = click.id ∧ click'.batchId = some id := by
  have hplaced : click.batchId.isSome := by simp [hid]
  obtain ⟨click', hclick', hmoves⟩ :=
    hgrows.clicks click hclick ((hw.click click hclick).persists hplaced)
  exact ⟨click', hclick', hmoves.id, (hmoves.batch hplaced).trans hid⟩

/-- **The charge ledger.**  In every run, every batch adds up with its clicks, a click is in one
batch at most, and it never leaves its batch. -/
theorem charge_ledger (hc : Reaches O c) (hrun : (market O).Run c ls c') :
    (∀ b ∈ c'.shared.db.batches, b.Balanced c'.shared.db) ∧
      ∀ click ∈ c.shared.db.clicks, ∀ id, click.batchId = some id →
        (∃! b, b ∈ c.shared.db.batches ∧ b.id = id) ∧
          ∀ click' ∈ c'.shared.db.clicks, click'.id = click.id → click'.batchId = some id := by
  have hc' := hc.run hrun
  refine ⟨fun b hb => hc'.inv.ledger.balanced hb, fun click hclick id hid => ⟨?_, ?_⟩⟩
  · obtain ⟨b, hb, hbid, -⟩ := hc.inv.ledger.place click hclick id hid
    refine ⟨b, ⟨hb, hbid⟩, fun b' hb' => ?_⟩
    exact hc.inv.ledger.batchIds.eq hb'.1 hb (hb'.2.trans hbid.symm)
  · intro click' hclick' hsame
    obtain ⟨click'', hclick'', hid'', hbatch⟩ :=
      (hc.grows hrun).batchId hc.inv.ledger hclick hid
    rwa [hc'.inv.ledger.clickIds.eq hclick' hclick'' (hsame.trans hid''.symm)]

/-- The charge of the sample run is sent and then settled. -/
theorem charge_ledger_sample :
    (∀ b ∈ sampleSettled.shared.db.batches, b.Balanced sampleSettled.shared.db) ∧
      ∀ click ∈ sampleSent.shared.db.clicks, ∀ id, click.batchId = some id →
        (∃! b, b ∈ sampleSent.shared.db.batches ∧ b.id = id) ∧
          ∀ click' ∈ sampleSettled.shared.db.clicks, click'.id = click.id →
            click'.batchId = some id :=
  charge_ledger reaches_sampleSent run_settling

/-! ### Clicks -/

/-- The bid of `a` and its block, and its amount with the price and its block, are those of
`b`, if `a` has them. -/
def BillingClick.Frozen (a b : BillingClick) : Prop :=
  b.id = a.id ∧ (a.bidUsdRaw.isSome → a.SameBid b) ∧ (a.amountPreRaw.isSome → a.SameAmount b)

theorem BillingClick.Frozen.trans {a b c : BillingClick} (h : a.Frozen b) (h' : b.Frozen c) :
    a.Frozen c := by
  refine ⟨h'.1.trans h.1, fun hbid => ?_, fun hamount => ?_⟩
  · obtain ⟨h₁, h₂, h₃⟩ := h.2.1 hbid
    obtain ⟨h₁', h₂', h₃'⟩ := h'.2.1 (h₁ ▸ hbid)
    exact ⟨h₁'.trans h₁, h₂'.trans h₂, h₃'.trans h₃⟩
  · obtain ⟨h₁, h₂, h₃, h₄, h₅⟩ := h.2.2 hamount
    obtain ⟨h₁', h₂', h₃', h₄', h₅'⟩ := h'.2.2 (h₁ ▸ hamount)
    exact ⟨h₁'.trans h₁, h₂'.trans h₂, h₃'.trans h₃, h₄'.trans h₄, h₅'.trans h₅⟩

/-- One step of the market and the clicks. -/
theorem Reaches.clicksStep {l : Label World Reply Failure Job} (hc : Reaches O c)
    (hstep : (market O).Step c l c') : ClicksStep c.shared.db.clicks c'.shared.db.clicks := by
  have hsame : c'.shared.db = c.shared.db → ClicksStep c.shared.db.clicks c'.shared.db.clicks :=
    fun heq => heq ▸ .refl _
  cases hstep with
  | env henv => exact hsame henv.db
  | start => exact hsame rfl
  | act hp hact hbefore =>
    rename_i i p e rest
    cases e with
    | asked w q a => exact hsame (congrArg World.db hbefore)
    | ran w w' =>
      obtain ⟨hwrite, rfl, -, hrec⟩ := hc.ran (.act hp hact hbefore)
      exact (hwrite.keeps hc.inv.ledger (grows_of_recorded hrec)).step.clicks
  | stop => exact hsame rfl
  | crash => exact hsame rfl

/-- In one step a click keeps what it has, or it was suppressed and its row is deleted. -/
theorem Reaches.frozen_step {l : Label World Reply Failure Job} (hc : Reaches O c)
    (hstep : (market O).Step c l c') {click : BillingClick} (hclick : click ∈ c.shared.db.clicks) :
    (∃ click' ∈ c'.shared.db.clicks, click.Frozen click') ∨
      click.status = .suppressed ∧ ∀ click' ∈ c'.shared.db.clicks, click'.id ≠ click.id := by
  have hids := hc.inv.ledger.clickIds
  have hclicks := hc.clicksStep hstep
  generalize c'.shared.db.clicks = new at hclicks
  cases hclicks with
  | @map g hg =>
    have hmoves := hg click hclick
    exact .inl ⟨g click, List.mem_map_of_mem hclick, hmoves.id, hmoves.bid, hmoves.amount⟩
  | claim =>
    exact .inl ⟨click, List.mem_append_left _ hclick, rfl, fun _ => ⟨rfl, rfl, rfl⟩,
      fun _ => ⟨rfl, rfl, rfl, rfl, rfl⟩⟩
  | @delete p hp =>
    cases hpc : p click with
    | true =>
      exact .inl ⟨click, List.mem_filter.2 ⟨hclick, hpc⟩, rfl, fun _ => ⟨rfl, rfl, rfl⟩,
        fun _ => ⟨rfl, rfl, rfl, rfl, rfl⟩⟩
    | false =>
      refine .inr ⟨hp click hclick hpc, fun click' hclick' hid => ?_⟩
      obtain ⟨hmem, hp'⟩ := List.mem_filter.1 hclick'
      rw [hids.eq hmem hclick hid, hpc] at hp'
      cases hp'

/-- The row `id` was deleted in this run while it was suppressed; until then it kept what `click`
has. -/
def Deleted (O : Outside) (c c' : MarketConfig) (ls : List (Label World Reply Failure Job))
    (click : BillingClick) : Prop :=
  ∃ ls₁ l ls₂ c₁ c₂, ls = ls₁ ++ l :: ls₂ ∧ (market O).Run c ls₁ c₁ ∧ (market O).Step c₁ l c₂ ∧
    (market O).Run c₂ ls₂ c' ∧
    (∃ click₁ ∈ c₁.shared.db.clicks, click.Frozen click₁ ∧ click₁.status = .suppressed) ∧
    ∀ click₂ ∈ c₂.shared.db.clicks, click₂.id ≠ click.id

/-- **Frozen debt.**  The bid of a click with its block, and its amount with its price and the
price's block, never change once they are set, as long as the row exists; the only rows that are
ever deleted are suppressed.  The amount is the floor of the bid at the stored price. -/
theorem frozen_debt (hc : Reaches O c) (hrun : (market O).Run c ls c') {click : BillingClick}
    (hclick : click ∈ c.shared.db.clicks) :
    ((∃ click' ∈ c'.shared.db.clicks, click.Frozen click') ∨ Deleted O c c' ls click) ∧
      ∀ amount, click.amountPreRaw = some amount → ∃ bid priceUsd priceE18,
        click.bidUsdRaw = some bid ∧ click.priceUsd = some priceUsd ∧
          decimalE18 priceUsd = some priceE18 ∧ 0 < priceE18 ∧
            amount = bid * 10 ^ 30 / priceE18 := by
  refine ⟨?_, fun amount hamount => ?_⟩
  · induction hrun with
    | refl =>
      exact .inl ⟨click, hclick, rfl, fun _ => ⟨rfl, rfl, rfl⟩, fun _ => ⟨rfl, rfl, rfl, rfl, rfl⟩⟩
    | @step c₁ c₂ ls l hrun hstep ih =>
      obtain ⟨click₁, hclick₁, hfrozen⟩ | hdeleted := ih
      · obtain ⟨click₂, hclick₂, hfrozen₂⟩ | ⟨hsuppressed, hgone⟩ :=
          (hc.run hrun).frozen_step hstep hclick₁
        · exact .inl ⟨click₂, hclick₂, hfrozen.trans hfrozen₂⟩
        · exact .inr ⟨ls, l, [], c₁, c₂, rfl, hrun, hstep, .refl,
            ⟨click₁, hclick₁, hfrozen, hsuppressed⟩,
            fun click₂ hclick₂ => hfrozen.1 ▸ hgone click₂ hclick₂⟩
      · obtain ⟨ls₁, l₁, ls₂, d₁, d₂, rfl, hrun₁, hstep₁, hrun₂, hbefore, hafter⟩ := hdeleted
        exact .inr ⟨ls₁, l₁, ls₂ ++ [l], d₁, d₂, by simp, hrun₁, hstep₁, hrun₂.step hstep, hbefore,
          hafter⟩
  · obtain ⟨bid, priceUsd, hbid, hprice, hbill⟩ :=
      (hc.inv.ledger.click click hclick).amount amount hamount
    obtain ⟨-, priceE18, hdecimal, hpos, heq⟩ := billPreRaw_eq_ok.1 hbill
    exact ⟨bid, priceUsd, priceE18, hbid, hprice, hdecimal, hpos, heq⟩

/-- The click that the sample run captures, in the batch that was sent. -/
def sampleClick : BillingClick :=
  (sampleSent.shared.db.clicks.head?).get (by decide +kernel)

theorem frozen_debt_sample : sampleClick.amountPreRaw = some (2 * 10 ^ 18) ∧
    ((∃ click' ∈ sampleSettled.shared.db.clicks, sampleClick.Frozen click') ∨
      Deleted sampleOutside sampleSent sampleSettled settling sampleClick) ∧
      ∀ amount, sampleClick.amountPreRaw = some amount → ∃ bid priceUsd priceE18,
        sampleClick.bidUsdRaw = some bid ∧ sampleClick.priceUsd = some priceUsd ∧
          decimalE18 priceUsd = some priceE18 ∧ 0 < priceE18 ∧
            amount = bid * 10 ^ 30 / priceE18 :=
  ⟨by decide +kernel,
    frozen_debt reaches_sampleSent run_settling (List.mem_of_mem_head? (Option.some_get _).symm)⟩

/-! ### Runs -/

/-- **No stranded debt.**  In every state, every open batch belongs to a run that the worker still
looks at, every reserved click is in an open batch, and no run is finished while one of its
batches is open. -/
theorem no_stranded_debt (hc : Reaches O c) :
    (∀ b ∈ c.shared.db.batches, b.status.terminal = false →
      ∃ run ∈ c.shared.db.runs, run.id = b.runId ∧ run.identity = b.identity ∧
        (run.status = .queued ∨ run.status = .running ∨ run.status = .blocked)) ∧
      (∀ click ∈ c.shared.db.clicks, click.status = .reserved →
        ∃ b ∈ c.shared.db.batches, click.batchId = some b.id ∧ b.status.terminal = false) ∧
      ∀ run ∈ c.shared.db.runs, run.status = .completed ∨ run.status = .partlyCharged →
        ∀ b ∈ c.shared.db.batches, b.runId = run.id → b.status.terminal = true := by
  have hdb := hc.inv.ledger
  refine ⟨fun b hb hopen => ?_, fun click hclick hs => ?_, fun run hrun hs b hb hid => ?_⟩
  · obtain ⟨run, hrun, hin⟩ := hdb.run b hb
    have hrecoverable := hin.recoverable hopen
    refine ⟨run, hrun, hin.id, hin.identity, ?_⟩
    cases hstatus : run.status <;> simp [hstatus, RunStatus.recoverable] at hrecoverable ⊢
  · obtain ⟨id, hid⟩ := Option.isSome_iff_exists.1 ((hdb.click click hclick).reserved hs)
    obtain ⟨b, hb, rfl, hbelongs⟩ := hdb.place click hclick id hid
    have hfits := hbelongs.status
    rw [hs] at hfits
    refine ⟨b, hb, hid, ?_⟩
    cases hstatus : b.status <;> simp [hstatus, BatchStatus.Fits, BatchStatus.terminal] at hfits ⊢
  · by_contra hopen
    obtain ⟨run', hrun', hin⟩ := hdb.run b hb
    obtain rfl := hdb.runIds.eq hrun' hrun (hin.id.trans hid)
    have hrecoverable := hin.recoverable (by simpa using hopen)
    obtain hs | hs := hs <;> rw [hs] at hrecoverable <;> cases hrecoverable

/-- While the charge is sent and not settled, its debt is open. -/
theorem no_stranded_debt_sample :
    sampleSent.shared.db.batches.map (·.status) = [.submitted] ∧
    (∀ b ∈ sampleSent.shared.db.batches, b.status.terminal = false →
      ∃ run ∈ sampleSent.shared.db.runs, run.id = b.runId ∧ run.identity = b.identity ∧
        (run.status = .queued ∨ run.status = .running ∨ run.status = .blocked)) ∧
      (∀ click ∈ sampleSent.shared.db.clicks, click.status = .reserved →
        ∃ b ∈ sampleSent.shared.db.batches, click.batchId = some b.id ∧
          b.status.terminal = false) ∧
      ∀ run ∈ sampleSent.shared.db.runs, run.status = .completed ∨ run.status = .partlyCharged →
        ∀ b ∈ sampleSent.shared.db.batches, b.runId = run.id → b.status.terminal = true :=
  ⟨by decide +kernel, no_stranded_debt reaches_sampleSent⟩

end

end Market

end PreCommunity
