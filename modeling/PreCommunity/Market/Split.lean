import PreCommunity.Market.Settlement

/-!
# The split of a partial charge

The contract may charge less than a batch asks for.  `settleChargeReceipt` then goes over the clicks
of the batch, oldest first, and after the first click that the rest of the charge does not cover
nothing more is settled.

* `Settles` : one write of `settleChargeReceipt`.
* `LongestPaid` : the prefix rule.
* `paid` : the clicks that the rule selects.
* `splitCharge_eq_paid` : the loop follows the rule.
* `partial_settlement` : what a settlement writes.
-/

namespace PreCommunity

namespace Market

open Store Concurrent

/-! ### The writes of `settleChargeReceipt` -/

/-- Whatever the others do, an execution of `settleChargeReceipt` takes the world from `w` to `w'`
in one of its actions, and it returns or that action had an effect. -/
def Settles (batch : ChargeBatch) (receipt : ChargeReceipt) (w w' : World) : Prop :=
  ∃ (m : ChargePass) (s s' : World) (r : Except Failure Unit) (h : Log),
    Program.Exec (fun _ _ _ => True) (fun _ _ => True)
      ((settleChargeReceipt batch receipt).start m) s [] r s' h ∧
    .ran w w' ∈ h ∧ (r = .ok () ∨ w ≠ w')

/-- A transaction of an execution that returned, or that had an effect, was committed. -/
theorem transaction_committed {μ α : Type} {t : Tx α} {m : μ} {s s' w w' : World}
    {r : Except Failure α} {h : Log}
    (hexec : Program.Exec (fun _ _ _ => True) (fun _ _ => True)
      ((transaction t : Worker μ α).start m) s [] r s' h)
    (hmem : .ran w w' ∈ h) (heffect : (∃ a, r = .ok a) ∨ w ≠ w') :
    ∃ a db, t.run w.db = .ok (a, db) ∧ w' = w.withDb db := by
  cases hexec with
  | act _ hact hrest =>
    cases hact with
    | run ht =>
      cases hrest with
      | act _ hact _ => cases hact
      | done =>
        obtain ⟨⟩ | ⟨_, ⟨⟩⟩ := hmem
        simp only [Option.some.injEq] at ht
        split at ht
        · obtain ⟨rfl, rfl⟩ := Prod.mk.inj ht
          exact ⟨_, _, ‹_›, rfl⟩
        · obtain ⟨rfl, rfl⟩ := Prod.mk.inj ht
          simp at heffect
    | lost =>
      cases hrest with
      | act _ hact _ => cases hact
      | done =>
        obtain ⟨⟩ | ⟨_, ⟨⟩⟩ := hmem
        simp at heffect
    | unheard ht =>
      cases hrest with
      | act _ hact _ => cases hact
      | done =>
        obtain ⟨⟩ | ⟨_, ⟨⟩⟩ := hmem
        simp only [Option.some.injEq] at ht
        split at ht
        · obtain ⟨rfl, rfl⟩ := Prod.mk.inj ht
          exact ⟨_, _, ‹_›, rfl⟩
        · obtain ⟨rfl, rfl⟩ := Prod.mk.inj ht
          simp at heffect

theorem settleTx_run {batch : ChargeBatch} (receipt : ChargeReceipt) (charged : ℕ) {db : Database}
    (hbatch : ∃ row ∈ db.batches, row.id = batch.id) :
    (settleTx batch receipt charged).run db = .ok ((), db.settle batch receipt charged) := by
  have hany : db.batches.any (fun row => row.id = batch.id) = true := by simpa using hbatch
  have hupdate : (updateBatch batch.id fun row => row.settle batch receipt charged).run db =
      .ok ((), db.mapBatch batch.id fun row => row.settle batch receipt charged) :=
    updateUnique_ok.2 ⟨hany, rfl⟩
  exact Tx.bind_ok.2 ⟨_, _, hupdate, rfl⟩

theorem settleTx_batch {batch : ChargeBatch} {receipt : ChargeReceipt} {charged : ℕ} {u : Unit}
    {db db' : Database} (h : (settleTx batch receipt charged).run db = .ok (u, db')) :
    ∃ row ∈ db.batches, row.id = batch.id := by
  obtain ⟨_, db₁, hbatch, -⟩ := Tx.bind_ok.1 h
  simpa using (updateUnique_ok.1 hbatch).1

/-- One committed transaction is all there is. -/
theorem settles_iff {batch : ChargeBatch} {receipt : ChargeReceipt} {w w' : World} :
    Settles batch receipt w w' ↔ ∃ event, receipt.event = some event ∧
      event.matches batch = true ∧
      (∃ row ∈ w.db.batches, row.id = batch.id) ∧
      w' = w.withDb (w.db.settle batch receipt event.chargedPre.toNat) := by
  have hnone : ∀ {m : ChargePass} {s s' : World} {r : Except Failure Unit} {h : Log},
      Program.Exec (fun _ _ _ => True) (fun _ _ => True)
        ((throw (.blocked .transactionUnknown) : Worker ChargePass Unit).start m) s [] r s' h →
      .ran w w' ∉ h := by
    rintro m s s' r h (_ | ⟨_, ⟨⟩, _⟩)
    exact List.not_mem_nil
  constructor
  · rintro ⟨m, s, s', r, h, hexec, hmem, heffect⟩
    unfold settleChargeReceipt at hexec
    split at hexec
    · exact absurd hmem (hnone hexec)
    next event hevent =>
    split_ifs at hexec with hmatches
    · obtain ⟨_, db, htx, rfl⟩ :=
        transaction_committed hexec hmem (heffect.imp_left fun h => ⟨_, h⟩)
      exact ⟨event, hevent, hmatches, settleTx_batch htx, by rw [settleTx_ok htx]⟩
    · exact absurd hmem (hnone hexec)
  · rintro ⟨event, hevent, hmatches, hbatch, rfl⟩
    refine ⟨ChargePass.start, w, w.withDb (w.db.settle batch receipt event.chargedPre.toNat),
      .ok (), [.ran w _], ?_, .head _, .inl rfl⟩
    unfold settleChargeReceipt
    simp only [hevent, hmatches, if_true]
    refine .act trivial (.run (b := .ok ()) ?_) (.done trivial)
    simp only [settleTx_run receipt _ hbatch]

/-! ### The prefix rule -/

/-- `paid` is the longest initial part of `clicks` that a charge covers. -/
structure LongestPaid (charged : ℕ) (clicks paid : List BillingClick) : Prop where
  initial : paid <+: clicks
  covered : (paid.map BillingClick.owed).sum ≤ charged
  longest : ∀ paid', paid' <+: clicks → (paid'.map BillingClick.owed).sum ≤ charged →
    paid' <+: paid

/-- The clicks that a charge of `available` pays for. -/
def paid : ℕ → List BillingClick → List BillingClick
  | _, [] => []
  | available, c :: rest => if c.owed ≤ available then c :: paid (available - c.owed) rest else []

section Paid

variable {available : ℕ} {clicks : List BillingClick}

theorem longestPaid (available : ℕ) (clicks : List BillingClick) :
    LongestPaid available clicks (paid available clicks) := by
  induction clicks generalizing available with
  | nil => exact ⟨List.prefix_rfl, Nat.zero_le _, fun _ h _ => h⟩
  | cons c rest ih =>
    by_cases hc : c.owed ≤ available
    · obtain ⟨hinitial, hcovered, hlongest⟩ := ih (available - c.owed)
      simp only [paid, if_pos hc]
      refine ⟨(List.prefix_cons_inj c).2 hinitial, ?_, fun paid' hpaid' hsum => ?_⟩
      · simp only [List.map_cons, List.sum_cons]
        omega
      · obtain rfl | ⟨tail, rfl, htail⟩ := List.prefix_cons_iff.1 hpaid'
        · exact List.nil_prefix
        · simp only [List.map_cons, List.sum_cons] at hsum
          exact (List.prefix_cons_inj c).2 (hlongest tail htail (by omega))
    · simp only [paid, if_neg hc]
      refine ⟨List.nil_prefix, Nat.zero_le _, fun paid' hpaid' hsum => ?_⟩
      obtain rfl | ⟨tail, rfl, -⟩ := List.prefix_cons_iff.1 hpaid'
      · exact List.prefix_rfl
      · simp only [List.map_cons, List.sum_cons] at hsum
        omega

/-- A larger charge pays for at least as much. -/
theorem LongestPaid.mono {available' : ℕ} {paid₁ paid₂ : List BillingClick}
    (h₁ : LongestPaid available clicks paid₁) (h₂ : LongestPaid available' clicks paid₂)
    (hle : available ≤ available') : paid₁ <+: paid₂ :=
  h₂.longest _ h₁.initial (h₁.covered.trans hle)

/-- Everything is paid for just when the charge covers the total. -/
theorem LongestPaid.eq_all_iff {paid : List BillingClick}
    (h : LongestPaid available clicks paid) :
    paid = clicks ↔ (clicks.map BillingClick.owed).sum ≤ available := by
  constructor
  · rintro rfl
    exact h.covered
  · exact fun hsum => h.initial.eq_of_length_le (h.longest _ List.prefix_rfl hsum).length_le

/-- Nothing is left for clicks that cost something. -/
theorem paid_zero (hpositive : ∀ c ∈ clicks, 0 < c.owed) : paid 0 clicks = [] := by
  cases clicks with
  | nil => rfl
  | cons c rest =>
    have := hpositive c (.head _)
    rw [paid, if_neg (by omega)]

/-- **The loop follows the prefix rule.** -/
theorem splitCharge_eq_paid (hpositive : ∀ c ∈ clicks, 0 < c.owed) (available : ℕ) :
    splitCharge available clicks = ((paid available clicks).map BillingClick.id,
      (clicks.drop (paid available clicks).length).map BillingClick.id) := by
  induction clicks generalizing available with
  | nil => rfl
  | cons c rest ih =>
    have hrest : ∀ c ∈ rest, 0 < c.owed := fun x hx => hpositive x (.tail _ hx)
    simp only [splitCharge, paid]
    change (if c.owed ≤ available then _ else _) = _
    split_ifs
    · rw [ih hrest]
      rfl
    · rw [ih hrest, paid_zero hrest]
      rfl

/-- The loop looks only at the ids and the amounts. -/
theorem splitCharge_map {f : BillingClick → BillingClick} (hid : ∀ c, (f c).id = c.id)
    (hamount : ∀ c, (f c).amountPreRaw = c.amountPreRaw) (available : ℕ) :
    splitCharge available (clicks.map f) = splitCharge available clicks := by
  induction clicks generalizing available with
  | nil => rfl
  | cons c rest ih => simp only [List.map_cons, splitCharge, hid, hamount, ih]

end Paid

/-- The click after the charge of its batch was split: settled if it is among `paid`, and
uncollectable otherwise; clicks of other batches stay as they are. -/
def BillingClick.split (batchId : Id) (paid : List BillingClick) (c : BillingClick) :
    BillingClick :=
  if c.batchId = some batchId then
    if c.id ∈ paid.map BillingClick.id then c.withStatus .settled none
    else c.withStatus .uncollectable (some .insufficientStake)
  else c

theorem settle_clicks (db : Database) (batch : ChargeBatch) (receipt : ChargeReceipt)
    (charged : ℕ) : (db.settle batch receipt charged).clicks =
      db.clicks.map fun c => c.share (splitCharge charged (batchClicks db batch.id)) := by
  simp only [Database.settle, updateClicks_eq, withClicks_clicks, List.map_map]
  rfl

/-- No click is both among the paid ones and among the others. -/
theorem not_mem_drop_of_mem_paid {charged : ℕ} {clicks : List BillingClick} {id : Id}
    (hclicks : Keyed BillingClick.id clicks)
    (hid : id ∈ (paid charged clicks).map BillingClick.id) :
    id ∉ (clicks.drop (paid charged clicks).length).map BillingClick.id := by
  have happend := List.prefix_iff_eq_append.1 (longestPaid charged clicks).initial
  unfold Keyed at hclicks
  rw [← happend, List.map_append] at hclicks
  exact fun h => (List.nodup_append.1 hclicks).2.2 _ hid _ h rfl

theorem share_of_settled {split : List Id × List Id} {c : BillingClick} (h₁ : c.id ∈ split.1)
    (h₂ : c.id ∉ split.2) : c.share split = c.withStatus .settled none := by
  simp [BillingClick.share, BillingClick.onlyIf, h₁, h₂, BillingClick.withStatus]

theorem share_of_uncollectable {split : List Id × List Id} {c : BillingClick}
    (h₁ : c.id ∉ split.1) (h₂ : c.id ∈ split.2) :
    c.share split = c.withStatus .uncollectable (some .insufficientStake) := by
  simp [BillingClick.share, BillingClick.onlyIf, h₁, h₂]

section Table

variable {db : Database} {batch : ChargeBatch} (hids : Keyed BillingClick.id db.clicks)

include hids

theorem batchClicks_keyed (id : Id) : Keyed BillingClick.id (batchClicks db id) :=
  (hids.filter _).perm (batchClicks_perm db id).symm

theorem settle_clicks_eq_split (hpositive : ∀ c ∈ batchClicks db batch.id, 0 < c.owed)
    (receipt : ChargeReceipt) (charged : ℕ) : (db.settle batch receipt charged).clicks =
      db.clicks.map (BillingClick.split batch.id (paid charged (batchClicks db batch.id))) := by
  rw [settle_clicks, splitCharge_eq_paid hpositive]
  refine List.map_congr_left fun c hc => ?_
  have hkeyed := batchClicks_keyed hids batch.id
  have happend :=
    List.prefix_iff_eq_append.1 (longestPaid charged (batchClicks db batch.id)).initial
  by_cases hcb : c.batchId = some batch.id
  · have hmem : c.id ∈ (batchClicks db batch.id).map BillingClick.id :=
      List.mem_map_of_mem (mem_batchClicks.2 ⟨hc, hcb⟩)
    rw [BillingClick.split, if_pos hcb]
    split_ifs with hpaid
    · exact share_of_settled hpaid (not_mem_drop_of_mem_paid hkeyed hpaid)
    · rw [← happend, List.map_append] at hmem
      exact share_of_uncollectable hpaid ((List.mem_append.1 hmem).resolve_left hpaid)
  · rw [BillingClick.split, if_neg hcb]
    refine share_of_not_mem _ c fun hmem => hcb ?_
    rw [← List.mem_append, ← List.map_append, happend] at hmem
    obtain ⟨x, hx, heq⟩ := List.mem_map.1 hmem
    obtain ⟨hx, hxb⟩ := mem_batchClicks.1 hx
    exact hids.eq hx hc heq ▸ hxb

end Table

/-- What a click was before does not matter to its share. -/
theorem share_withStatus {split : List Id × List Id} {c : BillingClick}
    (h : c.id ∈ split.1 ∨ c.id ∈ split.2) (status : ClickStatus) (errorCode : Option ErrorCode) :
    (c.withStatus status errorCode).share split = c.share split := by
  by_cases h₂ : c.id ∈ split.2
  · by_cases h₁ : c.id ∈ split.1 <;>
      simp [BillingClick.share, BillingClick.onlyIf, BillingClick.withStatus, h₁, h₂]
  · have h₁ := h.resolve_right h₂
    simp [BillingClick.share, BillingClick.onlyIf, BillingClick.withStatus, h₁, h₂]

/-! ### Settling again -/

/-- The click after its batch was taken back. -/
def BillingClick.takenBack (batchId : Id) (c : BillingClick) : BillingClick :=
  c.onlyIf (fun row => row.batchId = some batchId) fun row =>
    row.withStatus .reserved (some .reorgDetected)

section Again

variable {db : Database} {batch row batch' : ChargeBatch}

theorem reset_clicks (db : Database) (row : ChargeBatch) :
    (db.reset row).clicks = db.clicks.map (BillingClick.takenBack row.id) := rfl

theorem takenBack_eq (id : Id) (c : BillingClick) :
    ∃ status errorCode, c.takenBack id = c.withStatus status errorCode := by
  simp only [BillingClick.takenBack, BillingClick.onlyIf]
  split_ifs <;> exact ⟨_, _, rfl⟩

/-- The order of the clicks of a batch depends on nothing that a settlement changes. -/
theorem batchClicks_map {db db' : Database} {f : BillingClick → BillingClick} (id : Id)
    (hf : ∀ c, ∃ status errorCode, f c = c.withStatus status errorCode)
    (hclicks : db'.clicks = db.clicks.map f) :
    batchClicks db' id = (batchClicks db id).map f := by
  have hclick : ∀ c, (f c).clickedAt = c.clickedAt ∧ (f c).id = c.id ∧
      (f c).batchId = c.batchId := fun c => by
    obtain ⟨_, _, h⟩ := hf c
    rw [h]
    exact ⟨rfl, rfl, rfl⟩
  unfold batchClicks
  have hfilter : (db.clicks.map f).filter (fun c => c.batchId = some id) =
      (db.clicks.filter fun c => c.batchId = some id).map f := by
    rw [List.filter_map]
    congr 2
    funext c
    simp [hclick]
  rw [hclicks, hfilter]
  symm
  exact List.map_insertionSort
    (r := fun a b => a.clickedAt < b.clickedAt ∨ a.clickedAt = b.clickedAt ∧ a.id ≤ b.id)
    (s := fun a b => a.clickedAt < b.clickedAt ∨ a.clickedAt = b.clickedAt ∧ a.id ≤ b.id)
    f _ fun a _ b _ => by simp [hclick]

/-- **The clicks are split in the same way again.** -/
theorem settle_reset_settle_clicks (hrow : row.id = batch.id) (hbatch' : batch'.id = batch.id)
    (receipt receipt' : ChargeReceipt) (charged : ℕ) :
    (((db.settle batch receipt charged).reset row).settle batch' receipt' charged).clicks =
      (db.settle batch receipt charged).clicks := by
  have hback : ((db.settle batch receipt charged).reset row).clicks =
      db.clicks.map fun c => (c.share (splitCharge charged (batchClicks db batch.id))).takenBack
        batch.id := by
    rw [reset_clicks, settle_clicks, List.map_map, hrow]
    rfl
  have hstatus : ∀ c : BillingClick, ∃ status errorCode,
      (c.share (splitCharge charged (batchClicks db batch.id))).takenBack batch.id =
        c.withStatus status errorCode := fun c => by
    obtain ⟨s₁, e₁, h₁⟩ := share_eq (splitCharge charged (batchClicks db batch.id)) c
    obtain ⟨s₂, e₂, h₂⟩ := takenBack_eq batch.id (c.withStatus s₁ e₁)
    rw [h₁, h₂]
    exact ⟨s₂, e₂, rfl⟩
  have hsplit : splitCharge charged
      (batchClicks ((db.settle batch receipt charged).reset row) batch.id) =
      splitCharge charged (batchClicks db batch.id) := by
    rw [batchClicks_map batch.id hstatus hback]
    refine splitCharge_map (fun c => ?_) (fun c => ?_) charged <;>
    · obtain ⟨_, _, h⟩ := hstatus c
      rw [h]
      rfl
  rw [settle_clicks, hbatch', hsplit, hback, settle_clicks, List.map_map]
  refine List.map_congr_left fun c hc => ?_
  by_cases hid : c.id ∈ (splitCharge charged (batchClicks db batch.id)).1 ∨
      c.id ∈ (splitCharge charged (batchClicks db batch.id)).2
  · obtain ⟨status, errorCode, h⟩ := hstatus c
    simp only [Function.comp, h]
    exact share_withStatus hid status errorCode
  · -- such a click is in another batch
    have hcb : c.batchId ≠ some batch.id := fun hcb =>
      hid (mem_splitCharge (mem_batchClicks.2 ⟨hc, hcb⟩) charged)
    simp only [Function.comp, share_of_not_mem _ c hid, BillingClick.takenBack,
      onlyIf_of_not (p := fun row => decide (row.batchId = some batch.id)) (decide_eq_false hcb)]

/-- With the same receipt the batches are the same again, too. -/
theorem settle_reset_settle_batches (hids : Keyed ChargeBatch.id db.batches)
    (hbatch : batch ∈ db.batches) (hrow : row.id = batch.id) (receipt : ChargeReceipt)
    (charged : ℕ)
    (hbatch' : batch' ∈ ((db.settle batch receipt charged).reset row).batches)
    (hid : batch'.id = batch.id) :
    (((db.settle batch receipt charged).reset row).settle batch' receipt charged).batches =
      (db.settle batch receipt charged).batches := by
  have hback : ((db.settle batch receipt charged).reset row).batches = db.batches.map fun b =>
      if b.id = batch.id then (b.settle batch receipt charged).reset
        (row.txHash.isSome && row.signedTransaction.isSome) else b := by
    change updateWhere _ _ (updateWhere _ _ db.batches) = _
    rw [updateWhere, updateWhere, List.map_map]
    refine List.map_congr_left fun b _ => ?_
    by_cases hb : b.id = batch.id
    · simp [hb, hrow, ChargeBatch.settle]
    · simp [hb, hrow]
  rw [hback] at hbatch'
  obtain ⟨b, hb, rfl⟩ := List.mem_map.1 hbatch'
  have hbid : b.id = batch.id := by
    by_contra hne
    rw [if_neg hne] at hid
    exact hne hid
  obtain rfl := hids.eq hb hbatch hbid
  change updateWhere _ _ ((db.settle b receipt charged).reset row).batches =
    updateWhere _ _ db.batches
  rw [hback, updateWhere, updateWhere, List.map_map]
  refine List.map_congr_left fun x _ => ?_
  by_cases hx : x.id = b.id
  · simp [hx, ChargeBatch.settle, ChargeBatch.reset]
  · simp [hx, ChargeBatch.settle, ChargeBatch.reset]

end Again

/-! ### The split of a charge -/

/-- The clicks of the batch are all settled just when all of them are paid for. -/
theorem all_settled_iff {db : Database} {id : Id} {charged : ℕ}
    (hids : Keyed BillingClick.id db.clicks) :
    (∀ c ∈ db.clicks.map (BillingClick.split id (paid charged (batchClicks db id))),
      c.batchId = some id → c.status = .settled) ↔
      paid charged (batchClicks db id) = batchClicks db id := by
  have hkeyed := batchClicks_keyed hids id
  constructor
  · intro hall
    have happend := List.prefix_iff_eq_append.1 (longestPaid charged (batchClicks db id)).initial
    refine (longestPaid charged _).initial.eq_of_length_le ?_
    by_contra hlength
    -- the first click that is not paid for
    obtain ⟨c, hc⟩ := List.exists_mem_of_ne_nil
      ((batchClicks db id).drop (paid charged (batchClicks db id)).length) (by simpa using hlength)
    obtain ⟨hcdb, hcb⟩ := mem_batchClicks.1 (List.mem_of_mem_drop hc)
    have hsettled := hall _ (List.mem_map_of_mem hcdb)
    have hunpaid : c.id ∉ (paid charged (batchClicks db id)).map BillingClick.id := fun hpaid =>
      not_mem_drop_of_mem_paid hkeyed hpaid (List.mem_map_of_mem hc)
    rw [BillingClick.split, if_pos hcb, if_neg hunpaid] at hsettled
    exact absurd (hsettled hcb) (by simp [BillingClick.withStatus])
  · intro hpaid x hx hxb
    obtain ⟨c, hc, rfl⟩ := List.mem_map.1 hx
    rw [hpaid] at hxb ⊢
    by_cases hcb : c.batchId = some id
    · rw [BillingClick.split, if_pos hcb,
        if_pos (List.mem_map_of_mem (mem_batchClicks.2 ⟨hc, hcb⟩))]
      rfl
    · rw [BillingClick.split, if_neg hcb] at hxb
      exact absurd hxb hcb

/-- **A partial charge settles the oldest clicks that it covers.**  `settleChargeReceipt` writes
only for an event of the batch.  Then the clicks of the batch up to the last one that the charge
covers are settled and all the others are uncollectable; all are settled just when the charge is
what is due, a larger charge settles at least the same clicks, and after the batch was taken back
the same event leads to the same rows. -/
theorem partial_settlement {batch : ChargeBatch} {w : World}
    (hids : Keyed BillingClick.id w.db.clicks)
    (hpositive : ∀ c ∈ batchClicks w.db batch.id, 0 < c.owed)
    (hdue : ((batchClicks w.db batch.id).map BillingClick.owed).sum = batch.duePreRaw)
    (hrequested : batch.requestedPreRaw = min batch.duePreRaw maxUint256) :
    (∀ receipt w', Settles batch receipt w w' → ∃ event paid, receipt.event = some event ∧
      LongestPaid event.chargedPre.toNat (batchClicks w.db batch.id) paid ∧
      w'.db.clicks = w.db.clicks.map (BillingClick.split batch.id paid) ∧
      ((paid.map BillingClick.owed).sum : ℤ) ≤ event.chargedPre ∧
      ((∀ c ∈ w'.db.clicks, c.batchId = some batch.id → c.status = .settled) ↔
        event.chargedPre = batch.duePreRaw)) ∧
    (∀ receipt receipt' event event' w₁ w₂, Settles batch receipt w w₁ →
      Settles batch receipt' w w₂ → receipt.event = some event → receipt'.event = some event' →
      event.chargedPre ≤ event'.chargedPre → ∀ c ∈ w₁.db.clicks, c.batchId = some batch.id →
      c.status = .settled → ∃ c' ∈ w₂.db.clicks, c'.id = c.id ∧ c'.status = .settled) ∧
    (∀ receipt receipt' row batch' w₁ w₂ w₃, Settles batch receipt w w₁ → row.id = batch.id →
      (resetTx row).run w₁.db = .ok ((), w₂.db) → batch'.id = batch.id →
      Settles batch' receipt' w₂ w₃ → receipt'.event = receipt.event →
      w₃.db.clicks = w₁.db.clicks ∧
      (receipt' = receipt → Keyed ChargeBatch.id w.db.batches → batch ∈ w.db.batches →
        batch' ∈ w₂.db.batches → w₃.db.batches = w₁.db.batches)) ∧
    (∀ receipt event, receipt.event = some event → event.matches batch = true →
      (∃ row ∈ w.db.batches, row.id = batch.id) → ∃ w', Settles batch receipt w w') ∧
    ∀ receipt, (∀ event, receipt.event = some event → event.matches batch = false) →
      ∀ w w', ¬Settles batch receipt w w' := by
  have hbounds : ∀ event : ChargeReceiptEvent, event.matches batch = true →
      0 ≤ event.chargedPre ∧ event.chargedPre ≤ batch.duePreRaw := fun event hmatches => by
    simp only [ChargeReceiptEvent.matches, decide_eq_true_eq] at hmatches
    omega
  refine ⟨?_, ?_, ?_, ?_, ?_⟩
  · intro receipt w' hw'
    obtain ⟨event, hevent, hmatches, -, rfl⟩ := settles_iff.1 hw'
    have hle := hbounds event hmatches
    have hpaid := longestPaid event.chargedPre.toNat (batchClicks w.db batch.id)
    refine ⟨event, _, hevent, hpaid, settle_clicks_eq_split hids hpositive receipt _, ?_, ?_⟩
    · have := hpaid.covered
      omega
    · rw [World.withDb_db, settle_clicks_eq_split hids hpositive, all_settled_iff hids,
        hpaid.eq_all_iff, hdue]
      omega
  · -- the longest prefix that an amount covers grows with the amount
    intro receipt receipt' event event' w₁ w₂ hw₁ hw₂ hevent hevent' hle c hc hcb hsettled
    obtain ⟨_, heq, -, -, rfl⟩ := settles_iff.1 hw₁
    obtain rfl := Option.some.inj (heq.symm.trans hevent)
    obtain ⟨_, heq, -, -, rfl⟩ := settles_iff.1 hw₂
    obtain rfl := Option.some.inj (heq.symm.trans hevent')
    rw [World.withDb_db, settle_clicks_eq_split hids hpositive] at hc ⊢
    obtain ⟨x, hx, rfl⟩ := List.mem_map.1 hc
    have hmono := (longestPaid _ _).mono (longestPaid _ (batchClicks w.db batch.id))
      (Int.toNat_le_toNat hle)
    refine ⟨_, List.mem_map_of_mem hx, ?_, ?_⟩
    · simp only [BillingClick.split]
      split_ifs <;> rfl
    · have hxb : x.batchId = some batch.id := by
        simp only [BillingClick.split] at hcb
        split_ifs at hcb with h <;> first | exact h | exact hcb
      simp only [BillingClick.split, if_pos hxb] at hsettled ⊢
      split_ifs at hsettled with hmem
      · rw [if_pos (List.map_subset _ hmono.subset hmem)]
        rfl
      · cases hsettled
  · -- the second settlement overwrites all that the reset has changed
    intro receipt receipt' row batch' w₁ w₂ w₃ hw₁ hrow hreset hid hw₃ hsame
    obtain ⟨event, hevent, -, -, rfl⟩ := settles_iff.1 hw₁
    obtain ⟨_, heq, -, -, rfl⟩ := settles_iff.1 hw₃
    obtain rfl := Option.some.inj (heq.symm.trans (hsame.trans hevent))
    rw [World.withDb_db, World.withDb_db] at *
    rw [resetTx_ok hreset]
    refine ⟨settle_reset_settle_clicks hrow hid _ _ _, ?_⟩
    rintro rfl hbatches hbatch hbatch'
    exact settle_reset_settle_batches hbatches hbatch hrow _ _ hbatch' hid
  · intro receipt event hevent hmatches hbatch
    exact ⟨_, settles_iff.2 ⟨event, hevent, hmatches, hbatch, rfl⟩⟩
  · intro receipt hmismatch w w' hw'
    obtain ⟨event, hevent, hmatches, -⟩ := settles_iff.1 hw'
    exact absurd hmatches (by simp [hmismatch event hevent])

/-- A click of batch 1 that owes `amount`. -/
def splitClick (id amount clickedAt : ℕ) : BillingClick where
  id := id
  revisionId := 1
  identity := ⟨1, 7⟩
  keywordId := 5
  keyword := []
  stakerAddress := 3
  positionVersion := 1
  status := .reserved
  bidUsdRaw := some amount
  amountPreRaw := some amount
  priceUsd := some []
  priceQuotedAt := none
  captureSource := some .rpc
  bidBlockNumber := some 1
  bidBlockHash := some 1
  priceBlockNumber := some 1
  priceBlockHash := some 1
  errorCode := none
  batchId := some 1
  clickedAt := clickedAt

/-- Batch 1 with 12 due. -/
def splitBatch : ChargeBatch where
  id := 1
  runId := 1
  chargeId := 9
  identity := ⟨1, 7⟩
  keywordId := 5
  keyword := []
  stakerAddress := 3
  positionVersion := 1
  clickCount := 3
  duePreRaw := 12
  requestedPreRaw := 12
  chargedPreRaw := none
  shortfallPreRaw := none
  status := .submitted
  txHash := some 4
  settledTxHash := none
  signedTransaction := some 4
  signerAddress := some 2
  nonce := some 0
  receiptBlockNumber := none
  receiptBlockHash := none
  errorCode := none
  attemptCount := 1
  nextAttemptAt := none

/-- Three clicks, of which the youngest was inserted first. -/
def splitWorld : World where
  db := { Database.empty with
    batches := [splitBatch]
    clicks := [splitClick 3 5 30, splitClick 1 3 10, splitClick 2 4 10] }
  chains := fun _ => ⟨1, []⟩
  clock := 0
  walletLocks := []
  issued := []

/-- A charge of 8 of the 12. -/
def splitReceipt : ChargeReceipt where
  transactionHash := some 4
  blockNumber := 2
  blockHash := 2
  reverted := false
  event := some ⟨9, 5, 3, 12, 8⟩

/-- A charge of 8 pays for the clicks of 3 and 4, and not for the one of 5. -/
theorem partial_settlement_sample : ∃ w', Settles splitBatch splitReceipt splitWorld w' ∧
    ∃ paid, LongestPaid 8 (batchClicks splitWorld.db 1) paid ∧
      w'.db.clicks = splitWorld.db.clicks.map (BillingClick.split 1 paid) := by
  obtain ⟨hsplit, -, -, hsettles, -⟩ := @partial_settlement splitBatch splitWorld
    (by unfold Keyed; decide) (by decide) (by decide) (by decide)
  obtain ⟨w', hw'⟩ := hsettles splitReceipt _ rfl (by decide) ⟨splitBatch, .head _, rfl⟩
  obtain ⟨event, paid, hevent, hpaid, hclicks, -⟩ := hsplit splitReceipt w' hw'
  obtain rfl : _ = event := Option.some.inj hevent
  exact ⟨w', hw', paid, hpaid, hclicks⟩

end Market

end PreCommunity
