import Mathlib.Data.List.Perm.Subperm
import Mathlib.Data.List.Sort
import PreCommunity.Market.Ledger

/-!
# Batches begin and end

The transactions of the charge worker that change a batch together with its clicks keep the charge
ledger: a batch is settled and its charge is split over its clicks, it is closed, it is taken back
after a reorganisation, and clicks are reserved in new batches.

* `splitCharge` : how a charge is split.
* `Ledger.settle`, `Ledger.closeBatch`, `Ledger.reset` : how a batch ends, and begins again.
* `Reserves`, `Ledger.reserveRun` : how batches begin.
-/

namespace PreCommunity

namespace Market

open Store Concurrent

/-! ### Splitting a charge -/

section Split

variable {available : ℕ} {clicks : List BillingClick}

theorem mem_splitCharge {c : BillingClick} (hc : c ∈ clicks) (available : ℕ) :
    c.id ∈ (splitCharge available clicks).1 ∨ c.id ∈ (splitCharge available clicks).2 := by
  induction clicks generalizing available with
  | nil => cases hc
  | cons x rest ih =>
    simp only [splitCharge]
    split_ifs
    · obtain rfl | hc := List.mem_cons.1 hc
      · exact .inl (.head _)
      · exact (ih hc _).imp_left (.tail _)
    · obtain rfl | hc := List.mem_cons.1 hc
      · exact .inr (.head _)
      · exact (ih hc _).imp_right (.tail _)

theorem of_mem_splitCharge {id : Id} (available : ℕ)
    (hid : id ∈ (splitCharge available clicks).1 ∨ id ∈ (splitCharge available clicks).2) :
    ∃ c ∈ clicks, c.id = id := by
  induction clicks generalizing available with
  | nil => simp [splitCharge] at hid
  | cons x rest ih =>
    have htail : ∀ available, (id ∈ (splitCharge available rest).1 ∨
        id ∈ (splitCharge available rest).2) → ∃ c ∈ x :: rest, c.id = id := fun a h =>
      (ih a h).imp fun c hc => ⟨.tail _ hc.1, hc.2⟩
    simp only [splitCharge] at hid
    split_ifs at hid
    · obtain hid | hid := hid
      · obtain rfl | hid := List.mem_cons.1 hid
        · exact ⟨x, .head _, rfl⟩
        · exact htail _ (.inl hid)
      · exact htail _ (.inr hid)
    · obtain hid | hid := hid
      · exact htail _ (.inl hid)
      · obtain rfl | hid := List.mem_cons.1 hid
        · exact ⟨x, .head _, rfl⟩
        · exact htail _ (.inr hid)

/-- A charge that covers everything leaves nothing uncollectable. -/
theorem splitCharge_of_le (h : (clicks.map BillingClick.owed).sum ≤ available) :
    (splitCharge available clicks).2 = [] := by
  induction clicks generalizing available with
  | nil => rfl
  | cons x rest ih =>
    have howed : x.owed = x.amountPreRaw.getD 0 := rfl
    simp only [List.map_cons, List.sum_cons] at h
    simp only [splitCharge]
    rw [if_pos (by omega)]
    exact ih (by omega)

/-- **The settled clicks cost no more than the charge.** -/
theorem total_splitCharge (hids : Keyed BillingClick.id clicks) (available : ℕ) :
    total (fun c => c.id ∈ (splitCharge available clicks).1) BillingClick.owed clicks ≤
      available := by
  induction clicks generalizing available with
  | nil => simp
  | cons x rest ih =>
    obtain ⟨hx, hrest⟩ := List.nodup_cons.1 hids
    have hfresh : ∀ a, x.id ∉ (splitCharge a rest).1 := fun a hmem => by
      obtain ⟨c, hc, heq⟩ := of_mem_splitCharge a (.inl hmem)
      exact hx (heq ▸ List.mem_map_of_mem hc)
    have hother : ∀ a, total (fun c => c.id ∈ x.id :: (splitCharge a rest).1)
        BillingClick.owed rest =
        total (fun c => c.id ∈ (splitCharge a rest).1) BillingClick.owed rest := by
      refine fun a => total_congr (fun c hc => ?_) fun _ _ _ => rfl
      have hne : c.id ≠ x.id := fun heq => hx (heq ▸ List.mem_map_of_mem hc)
      simp [hne]
    have howed : x.owed = x.amountPreRaw.getD 0 := rfl
    simp only [splitCharge]
    split_ifs with hdue
    · have := ih hrest (available - x.amountPreRaw.getD 0)
      rw [total_cons, hother]
      simp only [List.mem_cons, true_or, decide_true, if_true]
      omega
    · have := ih hrest 0
      rw [total_cons]
      simp only [hfresh, decide_false, Bool.false_eq_true, if_false]
      omega

end Split

/-! ### The end of a batch -/

/-- The click with another status. -/
def BillingClick.withStatus (c : BillingClick) (status : ClickStatus)
    (errorCode : Option ErrorCode) : BillingClick :=
  { c with status := status, errorCode := errorCode }

/-- A click in a batch may take any of the statuses of such a click. -/
theorem BillingClick.WellFormed.withStatus {c : BillingClick} (hc : c.WellFormed)
    (hbatch : c.batchId.isSome) {status : ClickStatus} {errorCode : Option ErrorCode}
    (hstatus : status = .reserved ∨ status = .settled ∨ status = .uncollectable) :
    (c.withStatus status errorCode).WellFormed := by
  refine { hc with capturing := ?_, free := ?_, reserved := fun _ => hbatch, priced := ?_ } <;>
    obtain rfl | rfl | rfl := hstatus <;> simp [BillingClick.withStatus]

/-- A bulk update of clicks, one click at a time. -/
def BillingClick.onlyIf (p : BillingClick → Bool) (f : BillingClick → BillingClick)
    (c : BillingClick) : BillingClick :=
  if p c then f c else c

theorem onlyIf_of {p : BillingClick → Bool} {f : BillingClick → BillingClick} {c : BillingClick}
    (h : p c = true) : c.onlyIf p f = f c := if_pos h

theorem onlyIf_of_not {p : BillingClick → Bool} {f : BillingClick → BillingClick}
    {c : BillingClick} (h : p c = false) : c.onlyIf p f = c := if_neg (by simp [h])

theorem updateClicks_eq (db : Database) (p : BillingClick → Bool)
    (f : BillingClick → BillingClick) :
    db.updateClicks p f = db.withClicks (db.clicks.map (BillingClick.onlyIf p f)) := rfl

/-- A click still fits its batch when both have new statuses that fit. -/
theorem BillingClick.Belongs.withStatus {c c' : BillingClick} {b b' : ChargeBatch}
    (h : c.Belongs b) (hdebt : b'.SameDebt b)
    (hc : ∃ status errorCode, c' = c.withStatus status errorCode)
    (hfits : b'.status.Fits c'.status) : c'.Belongs b' := by
  obtain ⟨_, _, rfl⟩ := hc
  exact
    { identity := h.identity.trans hdebt.identity.symm
      keywordId := h.keywordId.trans hdebt.keywordId.symm
      stakerAddress := h.stakerAddress.trans hdebt.stakerAddress.symm
      positionVersion := h.positionVersion.trans hdebt.positionVersion.symm
      status := hfits }

/-- The clicks of a batch, by id. -/
theorem mem_batchClicks {db : Database} {c : BillingClick} {id : Id} :
    c ∈ batchClicks db id ↔ c ∈ db.clicks ∧ c.batchId = some id := by
  unfold batchClicks
  rw [(List.perm_insertionSort _ _).mem_iff]
  simp

theorem batchClicks_perm (db : Database) (id : Id) :
    (batchClicks db id).Perm (db.clicks.filter (BillingClick.isIn id)) :=
  List.perm_insertionSort _ _

/-- What becomes of a click when the charge of its batch was split. -/
def BillingClick.share (split : List Id × List Id) (c : BillingClick) : BillingClick :=
  (c.onlyIf (fun row => row.id ∈ split.1) fun row => row.withStatus .settled none).onlyIf
    (fun row => row.id ∈ split.2) fun row => row.withStatus .uncollectable (some .insufficientStake)

section

variable (split : List Id × List Id) (c : BillingClick)

theorem share_eq : ∃ status errorCode, c.share split = c.withStatus status errorCode := by
  simp only [BillingClick.share, BillingClick.onlyIf]
  split_ifs <;> exact ⟨_, _, rfl⟩

@[simp] theorem share_id : (c.share split).id = c.id := by
  obtain ⟨_, _, h⟩ := share_eq split c
  rw [h]; rfl

@[simp] theorem share_batchId : (c.share split).batchId = c.batchId := by
  obtain ⟨_, _, h⟩ := share_eq split c
  rw [h]; rfl

@[simp] theorem share_amountPreRaw : (c.share split).amountPreRaw = c.amountPreRaw := by
  obtain ⟨_, _, h⟩ := share_eq split c
  rw [h]; rfl

theorem share_of_not_mem (h : ¬(c.id ∈ split.1 ∨ c.id ∈ split.2)) : c.share split = c := by
  rw [not_or] at h
  simp [BillingClick.share, BillingClick.onlyIf, h.1, h.2]

end

/-- What `share` does to a click in one of the two lists. -/
theorem share_cases {split : List Id × List Id} {c : BillingClick}
    (h : c.id ∈ split.1 ∨ c.id ∈ split.2) :
    (c.id ∈ split.1 ∧ ∃ e, c.share split = c.withStatus .settled e) ∨
      (c.id ∈ split.2 ∧ ∃ e, c.share split = c.withStatus .uncollectable e) := by
  by_cases h₂ : c.id ∈ split.2
  · refine .inr ⟨h₂, some .insufficientStake, ?_⟩
    simp only [BillingClick.share, BillingClick.onlyIf]
    split_ifs <;> simp_all [BillingClick.withStatus]
  · have h₁ := h.resolve_right h₂
    refine .inl ⟨h₁, none, ?_⟩
    simp only [BillingClick.share, BillingClick.onlyIf]
    split_ifs <;> simp_all [BillingClick.withStatus]

theorem settle_eq (db : Database) {b batch : ChargeBatch} (hdebt : b.SameDebt batch)
    (receipt : ChargeReceipt) (charged : ℕ) : db.settle batch receipt charged =
      (db.mapBatch b.id fun row => row.settle batch receipt charged).withClicks
        (db.clicks.map fun c => c.share (splitCharge charged (batchClicks db b.id))) := by
  simp only [Database.settle, ← hdebt.id, updateClicks_eq, withClicks_clicks, List.map_map]
  rfl

/-- The batch after a charge is well formed. -/
theorem ChargeBatch.WellFormed.settle {b batch : ChargeBatch}
    (hwf : b.WellFormed) (hdebt : b.SameDebt batch) (receipt : ChargeReceipt) {charged : ℕ}
    (hcharged : charged ≤ b.requestedPreRaw) : (b.settle batch receipt charged).WellFormed := by
  have hdue : charged ≤ b.duePreRaw := by
    have := hwf.requested
    omega
  have hterminal : (b.settle batch receipt charged).status.terminal = true := by
    unfold ChargeBatch.settle
    split_ifs <;> rfl
  refine
    { requested := hwf.requested
      signature := hwf.signature
      prepared := ?_, sent := ?_, uncharged := by simp [hterminal]
      charged := fun _ => ⟨charged, rfl, ?_, hcharged⟩
      confirmed := ?_, uncollectable := ?_
      receipt := by simp [ChargeBatch.settle]
      unproved := by simp [ChargeBatch.settle] }
  · unfold ChargeBatch.settle
    split_ifs <;> simp
  · unfold ChargeBatch.Sent ChargeBatch.settle
    split_ifs <;> simp [BatchStatus.inFlight]
  · simp [ChargeBatch.settle, hdebt.duePreRaw]
  · unfold ChargeBatch.settle
    rw [← hdebt.duePreRaw]
    split_ifs with hshort
    · simp
    · simp only [forall_const, Option.some.injEq]
      omega
  · unfold ChargeBatch.settle
    split_ifs <;> simp

namespace Ledger

variable {db : Database} {b : ChargeBatch}

/-- A batch changes, and its clicks take a new status. -/
theorem replaceAll (hdb : Ledger db) (hb : b ∈ db.batches) {f : ChargeBatch → ChargeBatch}
    (hdebt : (f b).SameDebt b) (hrun : ∃ r ∈ db.runs, (f b).InRun r) (hwf : (f b).WellFormed)
    {status : ClickStatus} {errorCode : Option ErrorCode}
    (hstatus : status = .reserved ∨ status = .settled ∨ status = .uncollectable)
    (hfits : (f b).status.Fits status)
    (hpaid : ∀ charged, (f b).chargedPreRaw = some charged → status ≠ .settled) :
    Ledger ((db.mapBatch b.id f).updateClicks (fun row => row.batchId = some b.id) fun row =>
      row.withStatus status errorCode) := by
  rw [updateClicks_eq]
  refine hdb.replaceBatch hb rfl hdebt hrun hwf ?_ ?_ ?_ ?_ ?_
  · intro c
    unfold BillingClick.onlyIf
    split_ifs <;> exact ⟨rfl, rfl, rfl⟩
  · exact fun c _ hcb => onlyIf_of_not (by simpa using hcb)
  · intro c hc hcb
    rw [onlyIf_of (by simpa using hcb)]
    exact (hdb.click c hc).withStatus (by simp [hcb]) hstatus
  · intro c _ hcb hbelongs
    rw [onlyIf_of (by simpa using hcb)]
    exact hbelongs.withStatus hdebt ⟨_, _, rfl⟩ hfits
  · intro charged hcharged
    rw [total_eq_zero]
    · exact Nat.zero_le _
    · intro c hc
      obtain ⟨x, hx, rfl⟩ := List.mem_map.1 hc
      by_cases hxb : x.batchId = some b.id
      · rw [onlyIf_of (by simpa using hxb)]
        simp [BillingClick.isSettledIn, BillingClick.withStatus, hpaid charged hcharged]
      · rw [onlyIf_of_not (by simpa using hxb)]
        simp [BillingClick.isSettledIn, hxb]

/-- Closing a batch whose position is gone. -/
theorem closeBatch (hdb : Ledger db) (hb : b ∈ db.batches) (errorCode : ErrorCode)
    (blockNumber : ℕ) (blockHash : Hash) :
    Ledger (db.closeBatch b errorCode blockNumber blockHash) := by
  have hwf := hdb.batch b hb
  obtain ⟨r, hr, hrun⟩ := hdb.run b hb
  refine hdb.replaceAll hb ⟨rfl, rfl, rfl, rfl, rfl, rfl, rfl, rfl, rfl⟩ ?_ ?_
    (.inr (.inr rfl)) rfl (by simp)
  · exact ⟨r, hr, hrun.id, hrun.identity, by simp [BatchStatus.terminal]⟩
  · exact
      { requested := hwf.requested
        signature := hwf.signature
        prepared := by simp
        sent := by simp [ChargeBatch.Sent, BatchStatus.inFlight]
        uncharged := by simp [BatchStatus.terminal]
        charged := by simp
        confirmed := by simp
        uncollectable := by simp
        receipt := by simp
        unproved := by simp }

/-- Taking a batch back. -/
theorem reset (hdb : Ledger db) (hb : b ∈ db.batches) : Ledger (db.reset b) := by
  have hwf := hdb.batch b hb
  obtain ⟨r, hr, hrun⟩ := hdb.run b hb
  let reopen (row : ChargeRun) : ChargeRun :=
    { row with status := .running, finishedAt := none, errorCode := some .reorgDetected }
  have hreopened : Ledger (db.mapRun b.runId reopen) :=
    hdb.updateRuns (fun _ => ⟨rfl, rfl⟩) fun _ _ _ _ => .inl rfl
  refine hreopened.replaceAll hb ⟨rfl, rfl, rfl, rfl, rfl, rfl, rfl, rfl, rfl⟩ ?_ ?_ (.inl rfl) ?_
    (by simp [ChargeBatch.reset])
  · exact ⟨reopen r, mem_updateWhere_of hr (by simp [hrun.id]), hrun.id, hrun.identity,
      fun _ => rfl⟩
  · have hsigned : (b.txHash.isSome && b.signedTransaction.isSome) = true → b.Signed := by
      intro h
      refine hwf.signature.resolve_right fun hu => ?_
      simp [hu.1] at h
    have hunsigned : (b.txHash.isSome && b.signedTransaction.isSome) = false → b.Unsigned := by
      intro h
      refine hwf.signature.resolve_left fun hs => ?_
      simp [hs.1, hs.2.1] at h
    cases hs : b.txHash.isSome && b.signedTransaction.isSome
    · exact
        { requested := hwf.requested
          signature := hwf.signature
          prepared := fun _ => hunsigned hs
          sent := by simp [ChargeBatch.Sent, ChargeBatch.reset, BatchStatus.inFlight]
          uncharged := by simp [ChargeBatch.reset]
          charged := by simp [ChargeBatch.reset, BatchStatus.terminal]
          confirmed := by simp [ChargeBatch.reset]
          uncollectable := by simp [ChargeBatch.reset]
          receipt := by simp [ChargeBatch.reset]
          unproved := by simp [ChargeBatch.reset, BatchStatus.terminal] }
    · exact
        { requested := hwf.requested
          signature := hwf.signature
          prepared := by simp [ChargeBatch.reset]
          sent := fun _ => hsigned hs
          uncharged := by simp [ChargeBatch.reset]
          charged := by simp [ChargeBatch.reset, BatchStatus.terminal]
          confirmed := by simp [ChargeBatch.reset]
          uncollectable := by simp [ChargeBatch.reset]
          receipt := by simp [ChargeBatch.reset]
          unproved := by simp [ChargeBatch.reset, BatchStatus.terminal] }
  · unfold ChargeBatch.reset
    split_ifs <;> rfl

/-- The settled clicks of the batch cost no more than the charge. -/
theorem total_share (hdb : Ledger db) (id : Id) (charged : ℕ) :
    total (BillingClick.isSettledIn id) BillingClick.owed (db.clicks.map fun c =>
      c.share (splitCharge charged (batchClicks db id))) ≤ charged := by
  refine Nat.le_trans ?_ (total_splitCharge
    ((hdb.clickIds.filter _).perm (batchClicks_perm db id).symm) charged)
  rw [total_perm (batchClicks_perm db id), total_filter, total_map]
  refine total_le_total fun c hc hp => ⟨?_, ?_⟩
  · simp only [BillingClick.isSettledIn, share_batchId, decide_eq_true_eq] at hp
    obtain ⟨hcb, hset⟩ := hp
    obtain ⟨h₁, -⟩ | ⟨-, e, he⟩ :=
      share_cases (mem_splitCharge (mem_batchClicks.2 ⟨hc, hcb⟩) charged)
    · simpa [BillingClick.isIn, hcb] using h₁
    · rw [he] at hset
      cases hset
  · simp [BillingClick.owed]

/-- Settling a batch. -/
theorem settle (hdb : Ledger db) (hb : b ∈ db.batches) {batch : ChargeBatch}
    (hdebt : b.SameDebt batch) (receipt : ChargeReceipt) {charged : ℕ}
    (hcharged : charged ≤ b.requestedPreRaw) : Ledger (db.settle batch receipt charged) := by
  obtain ⟨r, hr, hrun⟩ := hdb.run b hb
  have hsplit : ∀ c ∈ db.clicks, c.batchId = some b.id →
      c.id ∈ (splitCharge charged (batchClicks db b.id)).1 ∨
        c.id ∈ (splitCharge charged (batchClicks db b.id)).2 :=
    fun c hc hcb => mem_splitCharge (mem_batchClicks.2 ⟨hc, hcb⟩) charged
  have hterminal : (b.settle batch receipt charged).status.terminal = true := by
    unfold ChargeBatch.settle
    split_ifs <;> rfl
  rw [settle_eq db hdebt]
  refine hdb.replaceBatch hb rfl ⟨rfl, rfl, rfl, rfl, rfl, rfl, rfl, rfl, rfl⟩
    ⟨r, hr, hrun.id, hrun.identity, by simp [hterminal]⟩ ((hdb.batch b hb).settle hdebt receipt
      hcharged) (fun c => ⟨share_id _ _, share_batchId _ _, share_amountPreRaw _ _⟩) ?_ ?_ ?_ ?_
  · intro c hc hcb
    refine share_of_not_mem _ c fun hid => ?_
    obtain ⟨x, hx, heq⟩ := of_mem_splitCharge charged hid
    obtain ⟨hx, hxb⟩ := mem_batchClicks.1 hx
    exact hcb (hdb.clickIds.eq hc hx heq.symm ▸ hxb)
  · intro c hc hcb
    obtain ⟨-, e, he⟩ | ⟨-, e, he⟩ := share_cases (hsplit c hc hcb)
    · exact he ▸ (hdb.click c hc).withStatus (by simp [hcb]) (.inr (.inl rfl))
    · exact he ▸ (hdb.click c hc).withStatus (by simp [hcb]) (.inr (.inr rfl))
  · intro c hc hcb hbelongs
    refine hbelongs.withStatus ⟨rfl, rfl, rfl, rfl, rfl, rfl, rfl, rfl, rfl⟩ (share_eq _ c) ?_
    unfold ChargeBatch.settle
    rw [← hdebt.duePreRaw]
    split_ifs with hshort
    · obtain ⟨-, e, he⟩ | ⟨-, e, he⟩ := share_cases (hsplit c hc hcb)
      · exact .inl (by rw [he]; rfl)
      · exact .inr (by rw [he]; rfl)
    · obtain ⟨-, e, he⟩ | ⟨h₂, -⟩ := share_cases (hsplit c hc hcb)
      · rw [he]
        rfl
      · -- the charge covers all clicks
        rw [splitCharge_of_le] at h₂
        · cases h₂
        · rw [((batchClicks_perm db b.id).map _).sum_eq]
          have := hdb.due b hb
          unfold total at this
          omega
  · rintro _ ⟨⟩
    exact hdb.total_share b.id charged

end Ledger

end Market

end PreCommunity
