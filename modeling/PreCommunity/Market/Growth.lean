import PreCommunity.Market.Reservation

/-!
# What never goes back

Every write moves each table in a way that keeps what is recorded: the bid and the amount of a
click, the debt of a batch, the owner of a run.

* `BillingClick.Moves`, `ClicksStep` : one write and the clicks.
* `BatchesStep`, `RunsStep` : one write and the batches and runs.
* `TablesStep` : one write.
* `Grows` : what holds between an earlier and a later world.
-/

namespace PreCommunity

namespace Market

open Store Concurrent

/-! ### Clicks -/

/-- The click is captured and not suppressed. -/
def BillingClick.Persists (c : BillingClick) : Prop :=
  c.status ≠ .capturing ∧ c.status ≠ .suppressed

/-- The bid of a click and its block. -/
def BillingClick.SameBid (c c' : BillingClick) : Prop :=
  c'.bidUsdRaw = c.bidUsdRaw ∧ c'.bidBlockNumber = c.bidBlockNumber ∧
    c'.bidBlockHash = c.bidBlockHash

/-- The amount of a click, the price it was computed with, and the block of the price. -/
def BillingClick.SameAmount (c c' : BillingClick) : Prop :=
  c'.amountPreRaw = c.amountPreRaw ∧ c'.priceUsd = c.priceUsd ∧
    c'.priceQuotedAt = c.priceQuotedAt ∧ c'.priceBlockNumber = c.priceBlockNumber ∧
      c'.priceBlockHash = c.priceBlockHash

/-- What may become of a click. -/
structure BillingClick.Moves (c c' : BillingClick) : Prop where
  id : c'.id = c.id
  identity : c'.identity = c.identity
  keywordId : c'.keywordId = c.keywordId
  stakerAddress : c'.stakerAddress = c.stakerAddress
  positionVersion : c'.positionVersion = c.positionVersion
  clickedAt : c'.clickedAt = c.clickedAt
  captured : c.status ≠ .capturing → c'.status ≠ .capturing
  suppressed : c.status ≠ .capturing → (c'.status = .suppressed ↔ c.status = .suppressed)
  bid : c.bidUsdRaw.isSome → c.SameBid c'
  amount : c.amountPreRaw.isSome → c.SameAmount c'
  batch : c.batchId.isSome → c'.batchId = c.batchId

namespace BillingClick.Moves

variable {c c' c'' : BillingClick}

theorem refl (c : BillingClick) : c.Moves c :=
  ⟨rfl, rfl, rfl, rfl, rfl, rfl, fun h => h, fun _ => Iff.rfl, fun _ => ⟨rfl, rfl, rfl⟩,
    fun _ => ⟨rfl, rfl, rfl, rfl, rfl⟩, fun _ => rfl⟩

theorem trans (h : c.Moves c') (h' : c'.Moves c'') : c.Moves c'' where
  id := h'.id.trans h.id
  identity := h'.identity.trans h.identity
  keywordId := h'.keywordId.trans h.keywordId
  stakerAddress := h'.stakerAddress.trans h.stakerAddress
  positionVersion := h'.positionVersion.trans h.positionVersion
  clickedAt := h'.clickedAt.trans h.clickedAt
  captured hc := h'.captured (h.captured hc)
  suppressed hc := (h'.suppressed (h.captured hc)).trans (h.suppressed hc)
  bid hc := by
    obtain ⟨h₁, h₂, h₃⟩ := h.bid hc
    obtain ⟨h₁', h₂', h₃'⟩ := h'.bid (h₁ ▸ hc)
    exact ⟨h₁'.trans h₁, h₂'.trans h₂, h₃'.trans h₃⟩
  amount hc := by
    obtain ⟨h₁, h₂, h₃, h₄, h₅⟩ := h.amount hc
    obtain ⟨h₁', h₂', h₃', h₄', h₅'⟩ := h'.amount (h₁ ▸ hc)
    exact ⟨h₁'.trans h₁, h₂'.trans h₂, h₃'.trans h₃, h₄'.trans h₄, h₅'.trans h₅⟩
  batch hc := (h'.batch (h.batch hc ▸ hc)).trans (h.batch hc)

theorem persists (h : c.Moves c') (hc : c.Persists) : c'.Persists :=
  ⟨h.captured hc.1, fun hs => hc.2 ((h.suppressed hc.1).1 hs)⟩

/-- A capture that ends. -/
theorem of_capturing (hwf : c.WellFormed) (hc : c.status = .capturing)
    (hid : c'.id = c.id) (hidentity : c'.identity = c.identity)
    (hkeywordId : c'.keywordId = c.keywordId) (hstaker : c'.stakerAddress = c.stakerAddress)
    (hversion : c'.positionVersion = c.positionVersion) (hclickedAt : c'.clickedAt = c.clickedAt) :
    c.Moves c' := by
  obtain ⟨hbid, hamount, hbatch⟩ := hwf.capturing hc
  exact ⟨hid, hidentity, hkeywordId, hstaker, hversion, hclickedAt, fun h => absurd hc h,
    fun h => absurd hc h, by simp [hbid], by simp [hamount], by simp [hbatch]⟩

/-- A click that changes its status only. -/
theorem withStatus {status : ClickStatus} {errorCode : Option ErrorCode}
    (hc : c.Persists) (hs : status ≠ .capturing ∧ status ≠ .suppressed) :
    c.Moves (c.withStatus status errorCode) :=
  ⟨rfl, rfl, rfl, rfl, rfl, rfl, fun _ => hs.1,
    fun _ => ⟨fun h => absurd h hs.2, fun h => absurd h hc.2⟩, fun _ => ⟨rfl, rfl, rfl⟩,
    fun _ => ⟨rfl, rfl, rfl, rfl, rfl⟩, fun _ => rfl⟩

end BillingClick.Moves

/-- A click in a batch is captured and not suppressed. -/
theorem BillingClick.WellFormed.persists {c : BillingClick} (hc : c.WellFormed)
    (hbatch : c.batchId.isSome) : c.Persists := by
  constructor <;> intro hs
  · simp [(hc.capturing hs).2.2] at hbatch
  · simp [hc.free (.inr (.inr (.inl hs)))] at hbatch

/-- What one write may do to the clicks. -/
inductive ClicksStep (old : List BillingClick) : List BillingClick → Prop where
  /-- Clicks move on. -/
  | map {g : BillingClick → BillingClick} :
      (∀ c ∈ old, c.Moves (g c)) → ClicksStep old (old.map g)
  /-- A delivery is claimed. -/
  | claim {delivery : AdDelivery} {clickedAt : ℕ} :
      (∀ c ∈ old, c.id ≠ delivery.deliveryId) →
      ClicksStep old (old ++ [BillingClick.claim delivery clickedAt])
  /-- Suppressed clicks are deleted. -/
  | delete {p : BillingClick → Bool} :
      (∀ c ∈ old, p c = false → c.status = .suppressed) → ClicksStep old (old.filter p)

theorem ClicksStep.refl (clicks : List BillingClick) : ClicksStep clicks clicks := by
  have : ClicksStep clicks (clicks.map id) := .map fun c _ => .refl c
  rwa [List.map_id] at this

/-- A bulk update whose rows move on. -/
theorem ClicksStep.update {clicks : List BillingClick} {p : BillingClick → Bool}
    {f : BillingClick → BillingClick} (h : ∀ c ∈ clicks, p c = true → c.Moves (f c)) :
    ClicksStep clicks (updateWhere p f clicks) := by
  refine .map fun c hc => ?_
  split_ifs with hp
  · exact h c hc hp
  · exact .refl c

/-- What becomes of a captured click in one write. -/
theorem ClicksStep.moves {old new : List BillingClick} (h : ClicksStep old new)
    {c : BillingClick} (hc : c ∈ old) : (∃ c' ∈ new, c.Moves c') ∨ c.status = .suppressed := by
  cases h with
  | map hg => exact .inl ⟨_, List.mem_map_of_mem hc, hg c hc⟩
  | claim _ => exact .inl ⟨c, List.mem_append_left _ hc, .refl c⟩
  | @delete p hp =>
    cases hpc : p c
    · exact .inr (hp c hc hpc)
    · exact .inl ⟨c, List.mem_filter.2 ⟨hc, hpc⟩, .refl c⟩

/-! ### Batches and runs -/

/-- What one write may do to the batches. -/
def BatchesStep (old new : List ChargeBatch) : Prop :=
  ∃ (g : ChargeBatch → ChargeBatch) (fresh : List ChargeBatch), new = old.map g ++ fresh ∧
    (∀ b ∈ old, (g b).SameDebt b) ∧ ∀ b ∈ fresh, b.Unsigned ∧ b.receiptBlockNumber = none ∧
      (b.status = .prepared ∨ b.status = .confirmed)

theorem ChargeBatch.SameDebt.refl (b : ChargeBatch) : b.SameDebt b :=
  ⟨rfl, rfl, rfl, rfl, rfl, rfl, rfl, rfl, rfl⟩

theorem ChargeBatch.SameDebt.trans {a b c : ChargeBatch} (h : a.SameDebt b) (h' : b.SameDebt c) :
    a.SameDebt c :=
  ⟨h.id.trans h'.id, h.chargeId.trans h'.chargeId, h.identity.trans h'.identity,
    h.keywordId.trans h'.keywordId, h.stakerAddress.trans h'.stakerAddress,
    h.positionVersion.trans h'.positionVersion, h.clickCount.trans h'.clickCount,
    h.duePreRaw.trans h'.duePreRaw, h.requestedPreRaw.trans h'.requestedPreRaw⟩

theorem BatchesStep.refl (batches : List ChargeBatch) : BatchesStep batches batches :=
  ⟨id, [], by simp, fun b _ => .refl b, by simp⟩

theorem BatchesStep.update {batches : List ChargeBatch} {p : ChargeBatch → Bool}
    {f : ChargeBatch → ChargeBatch} (h : ∀ b ∈ batches, p b = true → (f b).SameDebt b) :
    BatchesStep batches (updateWhere p f batches) := by
  refine ⟨fun b => if p b then f b else b, [], by simp [updateWhere], fun b hb => ?_, by simp⟩
  beta_reduce
  split_ifs with hp
  · exact h b hb hp
  · exact .refl b

theorem BatchesStep.sameDebt {old new : List ChargeBatch} (h : BatchesStep old new)
    {b : ChargeBatch} (hb : b ∈ old) : ∃ b' ∈ new, b'.SameDebt b := by
  obtain ⟨g, fresh, rfl, hg, -⟩ := h
  exact ⟨g b, List.mem_append_left _ (List.mem_map_of_mem hb), hg b hb⟩

/-- The rows are one run. -/
def ChargeRun.Same (r r' : ChargeRun) : Prop :=
  r'.id = r.id ∧ r'.identity = r.identity ∧ r'.trigger = r.trigger

/-- Every run is still there. -/
def RunsStep (old new : List ChargeRun) : Prop := ∀ r ∈ old, ∃ r' ∈ new, r.Same r'

theorem RunsStep.refl (runs : List ChargeRun) : RunsStep runs runs :=
  fun r hr => ⟨r, hr, rfl, rfl, rfl⟩

theorem RunsStep.update {runs : List ChargeRun} {p : ChargeRun → Bool} {f : ChargeRun → ChargeRun}
    (h : ∀ r : ChargeRun, r.Same (f r)) : RunsStep runs (updateWhere p f runs) := by
  intro r hr
  cases hp : p r
  · exact ⟨r, mem_updateWhere_of_not hr hp, rfl, rfl, rfl⟩
  · exact ⟨f r, mem_updateWhere_of hr hp, h r⟩

theorem RunsStep.add (runs : List ChargeRun) (r : ChargeRun) : RunsStep runs (runs ++ [r]) :=
  fun r' hr' => ⟨r', List.mem_append_left _ hr', rfl, rfl, rfl⟩

theorem RunsStep.trans {runs runs' runs'' : List ChargeRun} (h : RunsStep runs runs')
    (h' : RunsStep runs' runs'') : RunsStep runs runs'' := by
  intro r hr
  obtain ⟨r', hr', h₁, h₂, h₃⟩ := h r hr
  obtain ⟨r'', hr'', h₁', h₂', h₃'⟩ := h' r' hr'
  exact ⟨r'', hr'', h₁'.trans h₁, h₂'.trans h₂, h₃'.trans h₃⟩

/-! ### Worlds -/

/-- What one write may do to the world. -/
structure TablesStep (w w' : World) : Prop where
  chains : w'.chains = w.chains
  clock : w'.clock = w.clock
  issued : w'.issued = w.issued
  clicks : ClicksStep w.db.clicks w'.db.clicks
  batches : BatchesStep w.db.batches w'.db.batches
  runs : RunsStep w.db.runs w'.db.runs

/-- A write of tables that the ledger does not use. -/
theorem TablesStep.of_eq {w w' : World} (hchains : w'.chains = w.chains)
    (hclock : w'.clock = w.clock) (hissued : w'.issued = w.issued)
    (hclicks : w'.db.clicks = w.db.clicks) (hbatches : w'.db.batches = w.db.batches)
    (hruns : w'.db.runs = w.db.runs) : TablesStep w w' :=
  ⟨hchains, hclock, hissued, hclicks ▸ .refl _, hbatches ▸ .refl _, hruns ▸ .refl _⟩

/-- What holds between an earlier and a later world. -/
structure Grows (F : Chain.Forest Hash) (w w' : World) : Prop where
  chains : ∀ id, F.Follows (w.chains id) (w'.chains id)
  clock : w.clock ≤ w'.clock
  issued : ∀ d ∈ w.issued, d ∈ w'.issued
  clicks : ∀ c ∈ w.db.clicks, c.Persists → ∃ c' ∈ w'.db.clicks, c.Moves c'
  batches : ∀ b ∈ w.db.batches, ∃ b' ∈ w'.db.batches, b'.SameDebt b
  runs : RunsStep w.db.runs w'.db.runs

namespace Grows

variable {F : Chain.Forest Hash} {w w' w'' : World}

theorem refl (w : World) : Grows F w w :=
  ⟨fun _ => .refl _, Nat.le_refl _, fun _ => id, fun c hc _ => ⟨c, hc, .refl c⟩,
    fun b hb => ⟨b, hb, .refl b⟩, .refl _⟩

theorem trans (h : Grows F w w') (h' : Grows F w' w'') : Grows F w w'' where
  chains id := (h.chains id).trans (h'.chains id)
  clock := Nat.le_trans h.clock h'.clock
  issued d hd := h'.issued d (h.issued d hd)
  clicks c hc hp := by
    obtain ⟨c', hc', hm⟩ := h.clicks c hc hp
    obtain ⟨c'', hc'', hm'⟩ := h'.clicks c' hc' (hm.persists hp)
    exact ⟨c'', hc'', hm.trans hm'⟩
  batches b hb := by
    obtain ⟨b', hb', hs⟩ := h.batches b hb
    obtain ⟨b'', hb'', hs'⟩ := h'.batches b' hb'
    exact ⟨b'', hb'', hs'.trans hs⟩
  runs := h.runs.trans h'.runs

theorem of_step (h : TablesStep w w') : Grows F w w' where
  chains _ := h.chains ▸ .refl _
  clock := Nat.le_of_eq h.clock.symm
  issued _ hd := h.issued ▸ hd
  clicks _ hc hp := (h.clicks.moves hc).resolve_right hp.2
  batches _ hb := h.batches.sameDebt hb
  runs := h.runs

end Grows

end Market

end PreCommunity
