import PreCommunity.Market.Evidence

/-!
# Reconciling a batch

The reconciliation of a batch changes the row of this batch only, and when it goes through it has
looked at the chain: a batch that is failed afterwards was seen reverted in this pass, and the
receipt block of a batch that is closed afterwards was seen canonical.

* `Only` : one row among the batches.
* `ChargeBatch.Checked` : what the pass saw of a row.
* `wp_reconcileChargeBatch` : the specification.
-/

namespace PreCommunity

namespace Market

open Store Concurrent

/-- `row` is the row with its id among the batches, and the other rows are those of `old`. -/
structure Only (old : List ChargeBatch) (row : ChargeBatch) (new : List ChargeBatch) : Prop where
  keyed : Keyed ChargeBatch.id new
  mem : row ∈ new
  others : ∀ r, r.id ≠ row.id → (r ∈ new ↔ r ∈ old)

theorem Only.refl {batches : List ChargeBatch} {row : ChargeBatch}
    (hids : Keyed ChargeBatch.id batches) (h : row ∈ batches) : Only batches row batches :=
  ⟨hids, h, fun _ _ => Iff.rfl⟩

/-- The row is changed. -/
theorem Only.map {old : List ChargeBatch} {row : ChargeBatch} {db : Database}
    (h : Only old row db.batches) {f : ChargeBatch → ChargeBatch} (hid : ∀ b, (f b).id = b.id) :
    Only old (f row) (db.mapBatch row.id f).batches := by
  refine ⟨h.keyed.updateWhere hid, mem_updateWhere_of h.mem (by simp), fun r hr => ?_⟩
  rw [hid] at hr
  rw [← h.others r hr]
  constructor
  · intro hmem
    obtain ⟨hmem, -⟩ | ⟨x, -, hp, rfl⟩ := mem_updateWhere_cases hmem
    · exact hmem
    · exact absurd ((hid x).trans (by simpa using hp)) hr
  · exact fun hmem => mem_updateWhere_of_not hmem (by simpa using hr)

/-- The last transaction of a failed row was seen reverted. -/
def ChargeBatch.Proved (deps : ChargeDependencies) (h : Log) (row : ChargeBatch) : Prop :=
  row.status = .failed → ∃ txHash, row.txHash = some txHash ∧ RevertProof deps h txHash

/-- The row was looked at on the chain. -/
structure ChargeBatch.Checked (deps : ChargeDependencies) (h : Log) (row : ChargeBatch) :
    Prop where
  failed : row.Proved deps h
  closed : row.status.terminal = true → ∀ n, row.receiptBlockNumber = some n →
    ∃ hash, row.receiptBlockHash = some hash ∧ SawHash deps.identity.chainId h n hash

/-- A row that is in flight needs no look. -/
theorem checked_of_inFlight {deps : ChargeDependencies} {h : Log} {row : ChargeBatch}
    (hrow : row.status = .reconciling ∨ row.status = .submitted) : row.Checked deps h := by
  constructor <;> obtain heq | heq := hrow <;> simp [ChargeBatch.Proved, heq, BatchStatus.terminal]

section Log

variable {deps : ChargeDependencies} {h : Log} {e : Event World Reply Failure}

theorem FinalBlock.cons {block : ℕ} {hash : Hash} (hb : FinalBlock deps h block hash)
    (e : Event World Reply Failure) : FinalBlock deps (e :: h) block hash :=
  ⟨hb.1.imp fun _ hh => ⟨hh.1.cons e, hh.2⟩, hb.2.cons e⟩

theorem RevertProof.cons {txHash : Hash} (hr : RevertProof deps h txHash)
    (e : Event World Reply Failure) : RevertProof deps (e :: h) txHash :=
  hr.imp fun _ hr => ⟨hr.1.cons e, hr.2.1, hr.2.2.cons e⟩

theorem ChargeBatch.Proved.cons {row : ChargeBatch} (hrow : row.Proved deps h)
    (e : Event World Reply Failure) : row.Proved deps (e :: h) :=
  fun hs => (hrow hs).imp fun _ hp => ⟨hp.1, hp.2.cons e⟩

theorem CheckpointKept.congr {w w' : World} (hk : CheckpointKept deps h w)
    (heq : ∀ identity, w'.db.checkpoint identity = w.db.checkpoint identity) :
    CheckpointKept deps h w' := by
  unfold CheckpointKept at *
  rwa [heq]

end Log

/-! ### The row of a batch -/

section

variable {O : Outside} {deps : ChargeDependencies} {m : ChargePass} {K : Log → World → Prop}
  {v : View ChargePass World Reply Failure} {old : List ChargeBatch} {batch row : ChargeBatch}
  {head : ℕ} {E : Failure → View ChargePass World Reply Failure → Prop}

/-- `row` is the row of its batch. -/
def RowIs (deps : ChargeDependencies) (m : ChargePass) (K : Log → World → Prop)
    (old : List ChargeBatch) (row : ChargeBatch) : View ChargePass World Reply Failure → Prop :=
  Holds deps m fun h w => K h w ∧ Only old row w.db.batches

/-- The row of the batch was looked at. -/
def RowChecked (deps : ChargeDependencies) (m : ChargePass) (K : Log → World → Prop)
    (old : List ChargeBatch) (batch : ChargeBatch) : View ChargePass World Reply Failure → Prop :=
  Holds deps m fun h w => K h w ∧ ∃ row : ChargeBatch, Only old row w.db.batches ∧
    row.id = batch.id ∧ row.Checked deps h

/-- The reconciliation of the batch was broken off. -/
def RowLeft (deps : ChargeDependencies) (m : ChargePass) (K : Log → World → Prop)
    (old : List ChargeBatch) (batch : ChargeBatch) : View ChargePass World Reply Failure → Prop :=
  Holds deps m fun h w => K h w ∧ ∃ row : ChargeBatch, Only old row w.db.batches ∧
    row.id = batch.id ∧ (batch.status ≠ .failed → row.Proved deps h)

theorem framed_only (old : List ChargeBatch) (row : ChargeBatch) :
    Framed fun _ w => Only old row w.db.batches :=
  framed_batches fun l => Only old row l

theorem RowIs.checked (hv : RowIs deps m K old row v) (hid : row.id = batch.id)
    (hrow : row.Checked deps v.hist) : RowChecked deps m K old batch v :=
  hv.mono fun hr => ⟨hr.1, row, hr.2, hid, hrow⟩

theorem RowIs.left (hv : RowIs deps m K old row v) (hid : row.id = batch.id)
    (hrow : batch.status ≠ .failed → row.Proved deps v.hist) : RowLeft deps m K old batch v :=
  hv.mono fun hr => ⟨hr.1, row, hr.2, hid, hrow⟩

theorem RowChecked.left (hv : RowChecked deps m K old batch v) : RowLeft deps m K old batch v :=
  hv.mono fun ⟨hk, row, honly, hid, hrow⟩ => ⟨hk, row, honly, hid, fun _ => hrow.failed⟩

/-- A transaction that changes the row of a batch. -/
theorem loud_transaction (hK : Kept K) (hv : RowIs deps m K old row v) {t : Tx Unit}
    {f : ChargeBatch → ChargeBatch} (hid : ∀ b, (f b).id = b.id)
    (hwrite : ∀ w db, Inv O.forest w → K v.hist v.shared → Quiet v.shared w →
      row ∈ w.db.batches → t.run w.db = .ok ((), db) →
      ChargeWrite O.ext deps v.hist w (w.withDb db) ∧
        db.batches = (w.db.mapBatch row.id f).batches ∧ Calm w (w.withDb db))
    {Q : Unit → View ChargePass World Reply Failure → Prop}
    (hQ : ∀ v', RowIs deps m K old (f row) v' → Q () v')
    (hE : ∀ e v', RowIs deps m K old row v' ∨ RowIs deps m K old (f row) v' → E e v') :
    Routine.wp (chargeDiscipline O deps) (transaction t) Q E v := by
  have hstay : ∀ w, ChargeRely O.forest v.shared w → RowIs deps m K old row (v.ran w w) :=
    fun w hrely => hv.ran ⟨hK.framed.ran hv.frame.1 hrely.quiet (.refl w),
      hrely.batches ▸ hv.frame.2⟩
  refine wp_transaction (fun w hrely _ => hE _ _ (.inl (hstay w hrely))) ?_
    fun w e hrely _ _ => hE _ _ (.inl (hstay w hrely))
  intro w a db hrely hinv ht
  have honly : Only old row w.db.batches := by
    rw [hrely.batches]
    exact hv.frame.2
  obtain ⟨hguar, hbatches, hcalm⟩ := hwrite w db hinv hv.frame.1 hrely.quiet honly.mem ht
  have hran : RowIs deps m K old (f row) (v.ran w (w.withDb db)) :=
    hv.ran ⟨hK.ran hv.frame.1 hrely.quiet.calm hcalm, by
      rw [World.withDb_db, hbatches]
      exact honly.map hid⟩
  exact ⟨hguar, hQ _ hran, hE _ _ (.inr hran)⟩

/-! ### A batch that is sent -/

/-- The row is sent, with the debt and the signature of `batch`. -/
structure ChargeBatch.SentAs (deps : ChargeDependencies) (row batch : ChargeBatch) : Prop where
  sent : row.Sent
  same : row.SameSigned batch
  identity : row.identity = deps.identity
  failed : row.status = .failed → batch.status = .failed

/-- The batch is sent. -/
def Sending (deps : ChargeDependencies) (m : ChargePass) (K : Log → World → Prop)
    (old : List ChargeBatch) (batch : ChargeBatch)
    (v : View ChargePass World Reply Failure) : Prop :=
  ∃ row : ChargeBatch, row.SentAs deps batch ∧ RowIs deps m K old row v

/-- The batch is in flight, and was marked so in this pass. -/
def Marked (deps : ChargeDependencies) (m : ChargePass) (K : Log → World → Prop)
    (old : List ChargeBatch) (batch : ChargeBatch)
    (v : View ChargePass World Reply Failure) : Prop :=
  ∃ row : ChargeBatch, row.SentAs deps batch ∧
    (row.status = .reconciling ∨ row.status = .submitted) ∧ RowIs deps m K old row v

theorem Marked.sending (hv : Marked deps m K old batch v) : Sending deps m K old batch v :=
  hv.imp fun _ h => ⟨h.1, h.2.2⟩

theorem Marked.checked (hv : Marked deps m K old batch v) : RowChecked deps m K old batch v := by
  obtain ⟨row, hsent, hstatus, hrow⟩ := hv
  exact hrow.checked hsent.same.1.id (checked_of_inFlight hstatus)

theorem Sending.left (hv : Sending deps m K old batch v) : RowLeft deps m K old batch v := by
  obtain ⟨row, hsent, hrow⟩ := hv
  exact hrow.left hsent.same.1.id fun hne hs => absurd (hsent.failed hs) hne

theorem RowChecked.mono {L : Log → World → Prop} (hv : RowChecked deps m K old batch v)
    (h : ∀ w, K v.hist w → L v.hist w) : RowChecked deps m L old batch v :=
  Holds.mono hv fun hr => ⟨h _ hr.1, hr.2⟩

theorem RowLeft.mono {L : Log → World → Prop} (hv : RowLeft deps m K old batch v)
    (h : ∀ w, K v.hist w → L v.hist w) : RowLeft deps m L old batch v :=
  Holds.mono hv fun hr => ⟨h _ hr.1, hr.2⟩

theorem RowIs.framed (hK : Kept K) (old : List ChargeBatch) (row : ChargeBatch) :
    Framed fun h w => K h w ∧ Only old row w.db.batches :=
  hK.framed.and (framed_only old row)

theorem wp_markBatch (hK : Kept K) (hv : Sending deps m K old batch v) {status : BatchStatus}
    {code : ErrorCode} (hstatus : status = .reconciling ∨ status = .submitted)
    {Q : Unit → View ChargePass World Reply Failure → Prop}
    (hQ : ∀ v', Marked deps m K old batch v' → Q () v')
    (hE : ∀ e v', Sending deps m K old batch v' → E e v') :
    Routine.wp (chargeDiscipline O deps) (markBatch batch.id status code) Q E v := by
  obtain ⟨row, hsent, hrow⟩ := hv
  have hid : row.id = batch.id := hsent.same.1.id
  let f (row : ChargeBatch) : ChargeBatch := { row with status := status, errorCode := some code }
  have hmarked : (f row).SentAs deps batch :=
    { sent := .inl (by obtain rfl | rfl := hstatus <;> rfl)
      same := ⟨{ hsent.same.1 with }, hsent.same.2⟩
      identity := hsent.identity
      failed := by obtain rfl | rfl := hstatus <;> simp [f] }
  refine loud_transaction (f := f) hK hrow (fun _ => rfl) ?_
    (fun v' hv' => hQ v' ⟨f row, hmarked, hstatus, hv'⟩) ?_
  · intro w db _ _ _ hmem ht
    obtain rfl := updateBatch_ok ht
    rw [← hid]
    exact ⟨.mark hmem hsent.sent hstatus, rfl, .of_eq rfl rfl⟩
  · rintro e v' (hv' | hv')
    · exact hE e v' ⟨row, hsent, hv'⟩
    · exact hE e v' ⟨f row, hmarked, hv'⟩

/-- Settling with a receipt in a final block. -/
theorem wp_settleChargeReceipt (hK : Kept K) (hck : ∀ h w, K h w → CheckpointKept deps h w)
    (hv : Sending deps m K old batch v) {receipt : ChargeReceipt}
    (hfinal : ∀ h w, K h w → FinalBlock deps h receipt.blockNumber receipt.blockHash)
    {Q : Unit → View ChargePass World Reply Failure → Prop}
    (hQ : ∀ v', RowChecked deps m K old batch v' → Q () v')
    (hE : ∀ e v', RowLeft deps m K old batch v' → E e v') :
    Routine.wp (chargeDiscipline O deps) (settleChargeReceipt batch receipt) Q E v := by
  unfold settleChargeReceipt
  cases hevent : receipt.event with
  | none => exact hE _ _ hv.left
  | some event =>
    simp only
    refine Routine.wp_ite (fun hmatches => ?_) fun _ => hE _ _ hv.left
    obtain ⟨row, hsent, hrow⟩ := hv
    have hid : row.id = batch.id := hsent.same.1.id
    let f (row : ChargeBatch) : ChargeBatch := row.settle batch receipt event.chargedPre.toNat
    have hdone : ∀ v', RowIs deps m K old (f row) v' → RowChecked deps m K old batch v' := by
      intro v' hv'
      refine hv'.checked hid ⟨?_, ?_⟩
      · unfold ChargeBatch.Proved
        simp only [f, ChargeBatch.settle]
        split_ifs <;> simp
      · rintro _ _ ⟨⟩
        exact ⟨_, rfl, (hfinal _ _ hv'.frame.1).2⟩
    refine loud_transaction (f := f) hK hrow (fun _ => rfl) ?_
      (fun v' hv' => hQ v' (hdone v' hv')) ?_
    · intro w db _ hk hquiet hmem ht
      obtain rfl := settleTx_ok ht
      refine ⟨.settle hmem hsent.same.1 hsent.sent hsent.identity hevent hmatches (hfinal _ _ hk)
        ((hck _ _ hk).congr hquiet.checkpoint), ?_, .of_eq rfl rfl⟩
      rw [hid]
      rfl
    · rintro e v' (hv' | hv')
      · exact hE e v' (Sending.left ⟨row, hsent, hv'⟩)
      · exact hE e v' (hdone v' hv').left

/-- Settling with an indexed charge; `false` means that there is none that is final. -/
theorem wp_settleIndexedCharge (hK : Kept K) (hck : ∀ h w, K h w → CheckpointKept deps h w)
    (hhead : ∀ h w, K h w → SawHead deps.identity.chainId h head)
    (hv : Sending deps m K old batch v)
    {Q : Bool → View ChargePass World Reply Failure → Prop}
    (htrue : ∀ v', RowChecked deps m K old batch v' → Q true v')
    (hfalse : ∀ v', Sending deps m K old batch v' → Q false v')
    (hE : ∀ e v', RowLeft deps m K old batch v' → E e v') :
    Routine.wp (chargeDiscipline O deps) (settleIndexedCharge batch deps head) Q E v := by
  unfold settleIndexedCharge
  obtain ⟨row, hsent, hrow⟩ := hv
  have hR := RowIs.framed hK old row
  have hleft : ∀ e v', RowIs deps m K old row v' → E e v' := fun e v' hv' =>
    hE e v' (Sending.left ⟨row, hsent, hv'⟩)
  refine (Routine.wp_bind _ _).2 (quiet_select hR.ran hrow (fun w _ hv₁ => ?_) hleft)
  split
  · exact hfalse _ ⟨row, hsent, hv₁⟩
  · rename_i indexed _
    refine Routine.wp_ite (fun _ => hfalse _ ⟨row, hsent, hv₁⟩) fun hdeep => ?_
    refine (Routine.wp_bind _ _).2 (wp_blockHash hR hv₁ (fun canonical v₂ hv₂ hsaw => ?_) hleft)
    refine Routine.wp_ite (fun _ => hfalse _ ⟨row, hsent, hv₂⟩) fun hcanonical => ?_
    obtain rfl : canonical = indexed.blockHash := Decidable.not_not.1 hcanonical
    have hfinal : FinalBlock deps v₂.hist indexed.blockNumber indexed.blockHash :=
      ⟨⟨head, hhead _ _ hv₂.frame.1, Nat.le_of_not_lt hdeep⟩, hsaw⟩
    cases hreceipt : indexed.receipt with
    | none => exact hleft _ _ hv₂
    | some receipt =>
      have hblock : receipt.blockNumber = indexed.blockNumber ∧
          receipt.blockHash = indexed.blockHash := by
        unfold ChainEvent.receipt at hreceipt
        split at hreceipt
        · obtain rfl := Option.some.inj hreceipt
          exact ⟨rfl, rfl⟩
        · cases hreceipt
      have hK' := hK.and (kept_log fun h e (hf : FinalBlock deps h receipt.blockNumber
        receipt.blockHash) => hf.cons e)
      simp only
      refine (Routine.wp_bind _ _).2 ?_
      rw [← hblock.1, ← hblock.2] at hfinal
      have hv₂' : Sending deps m (fun h w => K h w ∧ FinalBlock deps h receipt.blockNumber
          receipt.blockHash) old batch v₂ :=
        ⟨row, hsent, hv₂.mono fun hr => ⟨⟨hr.1, hfinal⟩, hr.2⟩⟩
      exact wp_settleChargeReceipt hK' (fun h w hk => hck h w hk.1) hv₂' (fun _ _ hk => hk.2)
        (fun v' hv' => htrue v' (hv'.mono fun _ hk => hk.1))
        fun e v' hv' => hE e v' (hv'.mono fun _ hk => hk.1)

/-! ### The branches of the reconciliation -/

/-- After the look at the receipt block of a batch that was closed: `true` means that the block is
still canonical, and otherwise a batch with a signature is sent. -/
theorem wp_reconcileReceiptBlock (hK : Kept K) (hv : RowIs deps m K old batch v)
    (hwf : batch.WellFormed) (hidentity : batch.identity = deps.identity)
    (hstatus : batch.status ≠ .prepared)
    {Q : Bool → View ChargePass World Reply Failure → Prop}
    (htrue : ∀ v', RowChecked deps m K old batch v' → Q true v')
    (hsigned : ∀ v', batch.Signed → Sending deps m K old batch v' → Q false v')
    (hunsigned : ∀ v', batch.Unsigned → RowChecked deps m K old batch v' → Q false v')
    (hE : ∀ e v', RowLeft deps m K old batch v' → E e v') :
    Routine.wp (chargeDiscipline O deps) (reconcileReceiptBlock batch deps) Q E v := by
  have hR := RowIs.framed hK old batch
  -- a batch that is not closed is sent, and a closed batch without a receipt has no signature
  have hopen : batch.status.terminal = false → batch.Sent := by
    intro hopen
    cases hs : batch.status <;>
      simp_all [BatchStatus.terminal, ChargeBatch.Sent, BatchStatus.inFlight]
  have hsent : batch.status.terminal = false → Q false v := fun ht =>
    hsigned v (hwf.sent (hopen ht)) ⟨batch, ⟨hopen ht, .refl batch, hidentity, id⟩, hv⟩
  unfold reconcileReceiptBlock
  split
  · rename_i block hash hblock hhash
    by_cases hterminal : batch.status.terminal = true
    · have hproved : ∀ h, batch.Proved deps h := by
        intro h hs
        simp [hs, BatchStatus.terminal] at hterminal
      have hleft : ∀ e v', RowIs deps m K old batch v' → E e v' := fun e v' hv' =>
        hE e v' (hv'.left rfl fun _ => hproved _)
      rw [if_pos hterminal]
      refine (Routine.wp_bind _ _).2 (wp_blockHash hR hv (fun canonical v₁ hv₁ hsaw => ?_) hleft)
      refine Routine.wp_ite (fun heq => htrue _ (RowIs.checked hv₁ rfl ⟨hproved _, ?_⟩))
        fun hne => ?_
      · intro _ n hn
        obtain rfl := Option.some.inj (hblock.symm.trans hn)
        exact ⟨hash, hhash, heq ▸ hsaw⟩
      · let f (row : ChargeBatch) : ChargeBatch :=
          row.reset (batch.txHash.isSome && batch.signedTransaction.isSome)
        have hreset : ∀ v', RowIs deps m K old (f batch) v' → Q false v' := by
          intro v' hv'
          obtain hs | hu := hwf.signature
          · refine hsigned v' hs ⟨f batch, ⟨?_, ?_, hidentity, ?_⟩, hv'⟩
            · simp [f, ChargeBatch.reset, ChargeBatch.Sent, BatchStatus.inFlight, hs.1, hs.2.1]
            · exact ⟨⟨rfl, rfl, rfl, rfl, rfl, rfl, rfl, rfl, rfl⟩, rfl, rfl, rfl, rfl⟩
            · simp [f, ChargeBatch.reset, hs.1, hs.2.1]
          · refine hunsigned v' hu (hv'.checked rfl ⟨?_, ?_⟩)
            · simp [f, ChargeBatch.reset, ChargeBatch.Proved, hu.1]
            · simp [f, ChargeBatch.reset]
        refine (Routine.wp_bind _ _).2 ?_
        refine loud_transaction (f := f) hK hv₁ (fun _ => rfl) ?_ hreset ?_
        · intro w db hinv _ _ hmem ht
          obtain rfl := resetTx_ok ht
          obtain ⟨r, hr, hrun⟩ := hinv.ledger.run batch hmem
          exact ⟨.reset hmem hterminal hidentity hblock hhash hsaw hne ⟨r, hr, hrun.id⟩, rfl,
            ⟨fun _ => rfl, .update fun _ => ⟨rfl, rfl, rfl⟩⟩⟩
        · rintro e v' (hv' | hv')
          · exact hleft e v' hv'
          · refine hE e v' (hv'.left rfl fun _ => ?_)
            simp only [f, ChargeBatch.reset, ChargeBatch.Proved]
            split_ifs <;> simp
    · rw [if_neg hterminal]
      exact hsent (by simpa using hterminal)
  · rename_i hnone
    cases hterminal : batch.status.terminal with
    | false => exact hsent hterminal
    | true =>
      have hreceipt : batch.receiptBlockNumber = none := by
        cases hblock : batch.receiptBlockNumber with
        | none => rfl
        | some block =>
          have := hwf.receipt.1 (by simp [hblock])
          obtain ⟨hash, hhash⟩ := Option.isSome_iff_exists.1 this
          exact absurd hhash (hnone block hash hblock)
      refine hunsigned v (hwf.unproved hterminal hreceipt) (hv.checked rfl ⟨?_, ?_⟩)
      · intro hs
        simp [hs, BatchStatus.terminal] at hterminal
      · simp [hreceipt]

/-- A receipt that is final was seen so. -/
theorem wp_receiptFinal {R : Log → World → Prop} (hR : Framed R) (hv : Holds deps m R v)
    (hhead : ∀ h w, R h w → SawHead deps.identity.chainId h head) {receipt : ChargeReceipt}
    {Q : Bool → View ChargePass World Reply Failure → Prop}
    (hQ : ∀ final v', Holds deps m R v' → (final = true →
      FinalBlock deps v'.hist receipt.blockNumber receipt.blockHash) → Q final v')
    (hE : ∀ e v', Holds deps m R v' → E e v') :
    Routine.wp (chargeDiscipline O deps) (receiptFinal deps head receipt) Q E v := by
  unfold receiptFinal
  refine Routine.wp_ite (fun _ => hQ false v hv (by simp)) fun hdeep => ?_
  refine (Routine.wp_bind _ _).2 (wp_blockHash hR hv (fun hash v₁ hv₁ hsaw => ?_) hE)
  refine hQ _ v₁ hv₁ fun heq => ⟨⟨head, hhead _ _ hv₁.frame, Nat.le_of_not_lt hdeep⟩, ?_⟩
  rwa [← of_decide_eq_true heq]

/-- The receipt is what the node returned. -/
def ReceiptHeard (deps : ChargeDependencies) (txHash : Hash) (receipt : ChargeReceipt) (h : Log) :
    Prop :=
  ∃ found : TransactionReceipt,
    Heard h (.transactionReceipt deps.identity.chainId txHash) (some found) ∧
      found.reverted = receipt.reverted ∧ found.blockNumber = receipt.blockNumber ∧
      found.blockHash = receipt.blockHash

theorem wp_reconcileReceipt (hK : Kept K) (hck : ∀ h w, K h w → CheckpointKept deps h w)
    (hhead : ∀ h w, K h w → SawHead deps.identity.chainId h head)
    {receipt : ChargeReceipt} {txHash : Hash}
    (hheard : ∀ h w, K h w → ReceiptHeard deps txHash receipt h)
    (htx : batch.txHash = some txHash) (hv : Sending deps m K old batch v)
    {Q : Bool → View ChargePass World Reply Failure → Prop}
    (hQ : ∀ wait v', RowChecked deps m K old batch v' → Q wait v')
    (hE : ∀ e v', RowLeft deps m K old batch v' → E e v') :
    Routine.wp (chargeDiscipline O deps) (reconcileReceipt batch deps head receipt) Q E v := by
  unfold reconcileReceipt
  obtain ⟨row, hsent, hrow⟩ := hv
  have hR := RowIs.framed hK old row
  have hrowTx : row.txHash = some txHash := hsent.same.2.1.trans htx
  have hleft : ∀ e v', Sending deps m K old batch v' → E e v' := fun e v' hv' => hE e v' hv'.left
  refine (Routine.wp_bind _ _).2 (wp_receiptFinal hR hrow (fun h w hr => hhead h w hr.1)
    (fun final v₁ hv₁ hfinal => ?_) fun e v' hv' => hleft e v' ⟨row, hsent, hv'⟩)
  refine Routine.wp_ite (fun _ => ?_) fun hnot => ?_
  · exact (Routine.wp_bind _ _).2 (wp_markBatch hK ⟨row, hsent, hv₁⟩ (.inl rfl)
      (fun v' hv' => hQ true v' hv'.checked) hleft)
  have hfinal := hfinal (by simpa using hnot)
  have hproof : ∀ h w, K h w → FinalBlock deps h receipt.blockNumber receipt.blockHash →
      receipt.reverted = true → RevertProof deps h txHash := by
    intro h w hk hf hreverted
    obtain ⟨found, hfound, h₁, h₂, h₃⟩ := hheard h w hk
    refine ⟨found, hfound, h₁.trans hreverted, ?_⟩
    rw [h₂, h₃]
    exact hf
  refine Routine.wp_ite (fun hreverted => ?_) fun _ => ?_
  · have hproved := hproof _ _ hv₁.frame.1 hfinal hreverted
    refine Routine.wp_ite
      (fun _ => hQ false v₁ (RowIs.checked hv₁ hsent.same.1.id ⟨fun _ => ?_, ?_⟩))
      fun _ => ?_
    · exact ⟨txHash, hrowTx, hproved⟩
    · intro hterminal
      simp [hsent.sent.open] at hterminal
    · let f (row : ChargeBatch) : ChargeBatch :=
        { row with
          status := .failed
          receiptBlockNumber := some receipt.blockNumber
          receiptBlockHash := some receipt.blockHash
          errorCode := some .transactionFailed
          nextAttemptAt := some (deps.now + 60000) }
      -- the proof stays in the log
      have hK' := hK.and (kept_log fun h e (hp : RevertProof deps h txHash) => hp.cons e)
      have hdone : ∀ v',
          RowIs deps m (fun h w => K h w ∧ RevertProof deps h txHash) old (f row) v' →
          RowChecked deps m K old batch v' := by
        intro v' hv'
        refine RowIs.checked (hv'.mono fun hr => ⟨hr.1.1, hr.2⟩) hsent.same.1.id ⟨fun _ => ?_, ?_⟩
        · exact ⟨txHash, hrowTx, hv'.frame.1.2⟩
        · simp [f, BatchStatus.terminal]
      refine (Routine.wp_bind _ _).2 ?_
      refine loud_transaction (f := f) hK' (hv₁.mono fun hr => ⟨⟨hr.1, hproved⟩, hr.2⟩)
        (fun _ => rfl) ?_ (fun v' hv' => hQ false v' (hdone v' hv')) ?_
      · intro w db _ hk _ hmem ht
        obtain rfl := updateBatch_ok ht
        rw [← hsent.same.1.id]
        exact ⟨.fail hmem hsent.sent hrowTx hk.2, rfl, .of_eq rfl rfl⟩
      · rintro e v' (hv' | hv')
        · exact hleft e v' ⟨row, hsent, hv'.mono fun hr => ⟨hr.1.1, hr.2⟩⟩
        · exact hE e v' (hdone v' hv').left
  · refine Routine.wp_ite (fun _ => ?_) fun _ => ?_
    · refine (Routine.wp_bind _ _).2 (wp_settleIndexedCharge hK hck hhead ⟨row, hsent, hv₁⟩
        (fun v₂ hv₂ => hQ false v₂ hv₂) (fun v₂ hv₂ => ?_) hE)
      exact (Routine.wp_bind _ _).2 (wp_markBatch hK hv₂ (.inl rfl)
        (fun v' hv' => hQ true v' hv'.checked) hleft)
    · have hK' := hK.and (kept_log fun h e (hf : FinalBlock deps h receipt.blockNumber
        receipt.blockHash) => hf.cons e)
      have hv₁' : Sending deps m (fun h w => K h w ∧ FinalBlock deps h receipt.blockNumber
          receipt.blockHash) old batch v₁ :=
        ⟨row, hsent, hv₁.mono fun hr => ⟨⟨hr.1, hfinal⟩, hr.2⟩⟩
      refine (Routine.wp_bind _ _).2 ?_
      exact wp_settleChargeReceipt hK' (fun h w hk => hck h w hk.1) hv₁' (fun _ _ hk => hk.2)
        (fun v' hv' => hQ false v' (hv'.mono fun _ hk => hk.1))
        fun e v' hv' => hE e v' (hv'.mono fun _ hk => hk.1)

/-- A receipt that the pass reads was returned by the node. -/
theorem wp_receipt {R : Log → World → Prop} (hR : Framed R) (hv : Holds deps m R v)
    {txHash chargeId : Hash}
    {Q : Option ChargeReceipt → View ChargePass World Reply Failure → Prop}
    (hnone : ∀ v', Holds deps m R v' → Q none v')
    (hsome : ∀ receipt v', Holds deps m R v' → ReceiptHeard deps txHash receipt v'.hist →
      Q (some receipt) v')
    (hE : ∀ e v', Holds deps m R v' → E e v') :
    Routine.wp (chargeDiscipline O deps) (ChargeChain.receipt deps txHash chargeId) Q E v := by
  unfold ChargeChain.receipt
  refine (Routine.wp_bind _ _).2 ?_
  refine quiet_ask hR hv (fun _ _ _ => by trivial) (fun found w hv' _ => ?_) hE
  cases found with
  | none => exact hnone _ hv'
  | some found => exact hsome _ _ hv' ⟨found, heard_asked, rfl, rfl, rfl⟩

/-- The look at the nonce; `true` means that the batch was marked and waits. -/
theorem wp_reconcileNonce (hK : Kept K) (hv : Sending deps m K old batch v)
    {Q : Bool → View ChargePass World Reply Failure → Prop}
    (htrue : ∀ v', RowChecked deps m K old batch v' → Q true v')
    (hfalse : ∀ v', Sending deps m K old batch v' → Q false v')
    (hE : ∀ e v', RowLeft deps m K old batch v' → E e v') :
    Routine.wp (chargeDiscipline O deps) (reconcileNonce batch deps) Q E v := by
  have hleft : ∀ e v', Sending deps m K old batch v' → E e v' := fun e v' hv' => hE e v' hv'.left
  unfold reconcileNonce
  split
  · obtain ⟨row, hsent, hrow⟩ := hv
    have hR := RowIs.framed hK old row
    have hleft' : ∀ e v', RowIs deps m K old row v' → E e v' := fun e v' hv' =>
      hleft e v' ⟨row, hsent, hv'⟩
    refine (Routine.wp_bind _ _).2 ?_
    refine quiet_ask hR hrow (fun _ _ _ => by trivial) (fun (pendingNonce : ℕ) w hv₁ _ => ?_) hleft'
    refine Routine.wp_ite (fun _ => ?_) fun _ => hfalse _ ⟨row, hsent, hv₁⟩
    refine (Routine.wp_bind _ _).2 (quiet_select hR.ran hv₁ (fun w₂ _ hv₂ => ?_) hleft')
    simp only
    refine (Routine.wp_bind _ _).2 (wp_markBatch hK ⟨row, hsent, hv₂⟩ (.inl rfl)
      (fun v₃ hv₃ => ?_) hleft)
    exact Routine.wp_ite (fun _ => htrue _ hv₃.checked) fun _ => hleft _ _ hv₃.sending
  · exact hfalse v hv

/-- The look at the captures; `true` means that the batch was marked and waits. -/
theorem wp_reconcileCapture (hK : Kept K) (hv : Sending deps m K old batch v)
    {Q : Bool → View ChargePass World Reply Failure → Prop}
    (htrue : ∀ v', RowChecked deps m K old batch v' → Q true v')
    (hfalse : ∀ v', Sending deps m K old batch v' → Q false v')
    (hE : ∀ e v', RowLeft deps m K old batch v' → E e v') :
    Routine.wp (chargeDiscipline O deps) (reconcileCapture batch deps head) Q E v := by
  have hleft : ∀ e v', Sending deps m K old batch v' → E e v' := fun e v' hv' => hE e v' hv'.left
  unfold reconcileCapture
  obtain ⟨row, hsent, hrow⟩ := hv
  have hR := RowIs.framed hK old row
  refine (Routine.wp_tryCatch _ _).2 ((Routine.wp_bind _ _).2 ?_)
  refine wp_assertBatchCapture head hR hrow (fun v₁ hv₁ _ => hfalse v₁ ⟨row, hsent, hv₁⟩)
    fun e v₁ hv₁ => ?_
  refine (Routine.wp_bind _ _).2 (wp_markBatch hK ⟨row, hsent, hv₁⟩ (.inl rfl)
    (fun v₂ hv₂ => ?_) hleft)
  exact Routine.wp_ite (fun _ => htrue _ hv₂.checked) fun _ => hleft _ _ hv₂.sending

/-- **Sending again.**  The bytes are those on the row. -/
theorem wp_rebroadcast (hK : Kept K) (hv : Sending deps m K old batch v) {raw txHash : Hash}
    (hraw : batch.signedTransaction = some raw)
    {Q : Unit → View ChargePass World Reply Failure → Prop}
    (hQ : ∀ v', RowChecked deps m K old batch v' → Q () v')
    (hE : ∀ e v', RowLeft deps m K old batch v' → E e v') :
    Routine.wp (chargeDiscipline O deps) (rebroadcast batch deps raw txHash) Q E v := by
  have hleft : ∀ e v', Sending deps m K old batch v' → E e v' := fun e v' hv' => hE e v' hv'.left
  unfold rebroadcast
  obtain ⟨row, hsent, hrow⟩ := hv
  have hR := RowIs.framed hK old row
  -- an error of the node leaves the batch in flight
  have hcatch : ∀ e v', Sending deps m K old batch v' → Routine.wp (chargeDiscipline O deps) (do
      markBatch batch.id .reconciling
        (if e = .blocked .insufficientGas then .insufficientGas else .transactionUnknown)
      if e = .blocked .insufficientGas then throw e) Q E v' := by
    intro e v' hv'
    refine (Routine.wp_bind _ _).2 (wp_markBatch hK hv' (.inl rfl) (fun v₂ hv₂ => ?_) hleft)
    exact Routine.wp_ite (fun _ => hleft _ _ hv₂.sending) fun _ => hQ _ hv₂.checked
  refine (Routine.wp_tryCatch _ _).2 ((Routine.wp_bind _ _).2 ?_)
  refine quiet_ask hR hrow (fun w hr hquiet => ?_) (fun (hash : ℕ) w hv₁ _ => ?_) fun e v₁ hv₁ =>
    hcatch e v₁ ⟨row, hsent, hv₁⟩
  · exact ⟨row, hquiet.batches ▸ hr.2.mem, hsent.same.2.2.1.trans hraw, hsent.sent,
      hsent.identity, rfl⟩
  · refine Routine.wp_ite (fun _ => hcatch _ _ ⟨row, hsent, hv₁⟩) fun _ => ?_
    exact wp_markBatch hK ⟨row, hsent, hv₁⟩ (.inr rfl) (fun v₂ hv₂ => hQ _ hv₂.checked) hcatch

/-- **The reconciliation of a batch** changes its row only, and looks at the chain. -/
theorem wp_reconcileChargeBatch (hK : Kept K) (hck : ∀ h w, K h w → CheckpointKept deps h w)
    (hhead : ∀ h w, K h w → SawHead deps.identity.chainId h head)
    (hv : RowIs deps m K old batch v) (hwf : batch.WellFormed)
    (hidentity : batch.identity = deps.identity) (hstatus : batch.status ≠ .prepared)
    {Q : Bool → View ChargePass World Reply Failure → Prop}
    (hQ : ∀ wait v', RowChecked deps m K old batch v' → Q wait v')
    (hE : ∀ e v', RowLeft deps m K old batch v' → E e v') :
    Routine.wp (chargeDiscipline O deps) (reconcileChargeBatch batch deps head) Q E v := by
  have hleft : ∀ e v', Sending deps m K old batch v' → E e v' := fun e v' hv' => hE e v' hv'.left
  unfold reconcileChargeBatch
  refine (Routine.wp_bind _ _).2 (wp_reconcileReceiptBlock hK hv hwf hidentity hstatus
    (fun v₁ hv₁ => hQ false v₁ hv₁) (fun v₁ hs hv₁ => ?_) (fun v₁ hu hv₁ => ?_) hE)
  · obtain ⟨txHash, htx⟩ := Option.isSome_iff_exists.1 hs.1
    obtain ⟨raw, hraw⟩ := Option.isSome_iff_exists.1 hs.2.1
    rw [htx, hraw]
    obtain ⟨row, hsent, hrow⟩ := hv₁
    have hR := RowIs.framed hK old row
    have hleft' : ∀ e v', RowIs deps m K old row v' → E e v' := fun e v' hv' =>
      hleft e v' ⟨row, hsent, hv'⟩
    simp only [Bool.false_eq_true, if_false]
    refine (Routine.wp_bind _ _).2 (wp_receipt hR hrow (fun v₂ hv₂ => ?_) (fun receipt v₂ hv₂ hheard
      => ?_) hleft')
    · simp only
      refine (Routine.wp_bind _ _).2 (quiet_ask hR hv₂ (fun _ _ _ => by trivial)
        (fun (processed : Bool) w hv₃ _ => ?_) hleft')
      refine Routine.wp_ite (fun _ => ?_) fun _ => ?_
      · refine (Routine.wp_bind _ _).2 (wp_settleIndexedCharge hK hck hhead ⟨row, hsent, hv₃⟩
          (fun v₄ hv₄ => hQ false v₄ hv₄) (fun v₄ hv₄ => ?_) hE)
        exact (Routine.wp_bind _ _).2 (wp_markBatch hK hv₄ (.inl rfl)
          (fun v' hv' => hQ true v' hv'.checked) hleft)
      · refine (Routine.wp_bind _ _).2 (wp_reconcileNonce hK ⟨row, hsent, hv₃⟩
          (fun v₄ hv₄ => hQ true v₄ hv₄) (fun v₄ hv₄ => ?_) hE)
        refine (Routine.wp_bind _ _).2 (wp_reconcileCapture hK hv₄
          (fun v₅ hv₅ => hQ true v₅ hv₅) (fun v₅ hv₅ => ?_) hE)
        exact (Routine.wp_bind _ _).2 (wp_rebroadcast hK hv₅ hraw
          (fun v₆ hv₆ => hQ true v₆ hv₆) hE)
    · have hK' := hK.and (kept_log fun h e (hp : ReceiptHeard deps txHash receipt h) =>
        hp.imp fun _ hf => ⟨hf.1.cons e, hf.2⟩)
      have hv₂' : Sending deps m (fun h w => K h w ∧ ReceiptHeard deps txHash receipt h) old batch
          v₂ :=
        ⟨row, hsent, hv₂.mono fun hr => ⟨⟨hr.1, hheard⟩, hr.2⟩⟩
      exact wp_reconcileReceipt hK' (fun h w hk => hck h w hk.1) (fun h w hk => hhead h w hk.1)
        (fun _ _ hk => hk.2) htx hv₂'
        (fun wait v' hv' => hQ wait v' (hv'.mono fun _ hk => hk.1))
        fun e v' hv' => hE e v' (hv'.mono fun _ hk => hk.1)
  · rw [hu.1]
    exact hQ false v₁ hv₁

end

end Market

end PreCommunity
