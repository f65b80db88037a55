import PreCommunity.Market.Nonce
import PreCommunity.Market.Reconcile

/-!
# Signing a batch

A batch is signed under the wallet lock, with a nonce above every nonce that the journals hold for
the wallet, and only after its last transaction was seen dead.

* `wp_signBatch` : the signing transaction.
* `wp_prepareBatch`, `wp_prepareBatches` : a batch, and the batches of a run.
-/

namespace PreCommunity

namespace Market

open Store Concurrent

section

variable {O : Outside} {deps : ChargeDependencies} {m : ChargePass} {K : Log → World → Prop}
  {v : View ChargePass World Reply Failure} {old : List ChargeBatch} {batch row : ChargeBatch}
  {head : ℕ} {E : Failure → View ChargePass World Reply Failure → Prop}

/-! ### The signing transaction -/

/-- What a pass knows of a batch between the look at its captures and its signature. -/
structure SigningFrame (deps : ChargeDependencies) (K : Log → World → Prop)
    (B : List ChargeBatch) (batch : ChargeBatch) (head : ℕ) (h : Log) (w : World) : Prop where
  kept : K h w
  batches : w.db.batches = B
  evidence : ∀ click ∈ w.db.clicks.filter (·.batchId.isSome), click.batchId = some batch.id →
    CaptureSeen deps h head click

theorem DeadTransaction.cons {h : Log} {txHash chargeId : Hash}
    (hd : DeadTransaction deps h txHash chargeId) (e : Event World Reply Failure) :
    DeadTransaction deps (e :: h) txHash chargeId := by
  obtain ⟨h₁, w, hsuffix, hproof⟩ := hd
  exact ⟨h₁, w, hsuffix.trans (List.suffix_cons e h), hproof⟩

theorem SigningFrame.framed (hK : Kept K) (B : List ChargeBatch) :
    Framed (SigningFrame deps K B batch head) := by
  have hframe := hK.framed.and (framed_batches fun l => l = B)
  constructor
  · intro h w w' w'' hs h₁ h₂
    obtain ⟨hk, hb⟩ := hframe.ran ⟨hs.kept, hs.batches⟩ h₁ h₂
    refine ⟨hk, hb, fun click hclick hid => ?_⟩
    rw [h₂.placed, h₁.placed] at hclick
    exact (hs.evidence click hclick hid).mono _
  · intro h w w' q a hs h₁
    obtain ⟨hk, hb⟩ := hframe.asked q a ⟨hs.kept, hs.batches⟩ h₁
    refine ⟨hk, hb, fun click hclick hid => ?_⟩
    rw [h₁.placed] at hclick
    exact (hs.evidence click hclick hid).mono _

theorem protects_publications (O : Outside) (deps : ChargeDependencies) :
    Protects (chargeDiscipline O deps) (PublicationsLocked .charge) where
  refl _ w := LockedSince.refl .refl w
  rely h hrely := h.trans (hrely.locked _)

/-- The commit of a signature. -/
theorem wp_commitSignature (hK : Kept K)
    (hhead : ∀ h w, K h w → SawHead deps.identity.chainId h head)
    (hdead : ∀ h w, K h w → ∀ txHash, batch.txHash = some txHash →
      DeadTransaction deps h txHash batch.chargeId)
    (hsending : ∀ h w, K h w → SendingSeen deps h batch.runId w)
    {B : List ChargeBatch} {signer : Address} {nonce : ℕ}
    {tx : SignedTransaction} {w₁ w₂ w₃ w₄ : World}
    (hv : Locking (PublicationsLocked .charge) (fun w => w.db.batches = B)
      (Holds deps m (SigningFrame deps K B batch head)) ⟨deps.identity.chainId, signer⟩
      [w₁, w₂, w₃, w₄] v)
    (honly : Only old batch B) (hunsent : batch.Unsent) (hidentity : batch.identity = deps.identity)
    (hpending : (reservationOf ⟨deps.identity.chainId, signer⟩ (some batch.id) none w₁.db w₂.db
      w₃.db w₄.db).pending = false)
    (hlatest : ¬(reservationOf ⟨deps.identity.chainId, signer⟩ (some batch.id) none w₁.db w₂.db
      w₃.db w₄.db).latestNonce.any (nonce ≤ ·) = true)
    {Q : Option ChargeBatch → View ChargePass World Reply Failure → Prop}
    (hQ : ∀ v', RowIs deps m K old (batch.sign signer nonce tx) v' →
      Q (some (batch.sign signer nonce tx)) v')
    (hE : ∀ e v', (RowIs deps m K old batch v' ∨
      ∃ nonce tx, RowIs deps m K old (batch.sign signer nonce tx) v') → E e v') :
    Routine.wp (chargeDiscipline O deps)
      (commitLocked .charge ⟨deps.identity.chainId, signer⟩ (signTx batch.id signer nonce tx))
      Q E v := by
  have hR : Framed (SigningFrame deps K B batch head) := SigningFrame.framed hK B
  have hleft : ∀ e v', Holds deps m (SigningFrame deps K B batch head) v' → E e v' :=
    fun e v' hv' => hE e v' (.inl (hv'.mono fun hr => ⟨hr.kept, hr.batches ▸ honly⟩))
  refine wp_commitLocked (fun w hrely hinv => hleft _ _ ?_) ?_ fun w e hrely hinv => ?_
  · exact hR.stable.ran hv.1 hrely hinv
  · intro w a db hrely hinv hlocks ht
    -- only the holder of the charge lock writes batches, so they are those of the first read
    have hB : w.db.batches = B := hrely.batches.trans hv.1.frame.batches
    have hmem : batch ∈ w.db.batches := hB ▸ honly.mem
    obtain ⟨rfl, rfl⟩ := signTx_ok ht
    have hsigned : RowIs deps m K old (batch.sign signer nonce tx)
        (v.ran w ((w.withDb (w.db.mapBatch batch.id fun row =>
          row.sign signer nonce tx)).release .charge)) :=
      hv.1.ran ⟨hK.ran hv.1.frame.kept hrely.quiet.calm (.of_eq rfl rfl),
        Only.map (f := fun row => row.sign signer nonce tx) (hB ▸ honly) fun _ => rfl⟩
    have h₁ : w₁.db.batches = B := (hv.2 w₁ (by simp)).1
    have h₃ : w₃.db.batches = B := (hv.2 w₃ (by simp)).1
    obtain ⟨-, hread₂, hlocked₂⟩ := hv.2 w₂ (by simp)
    obtain ⟨-, -, hlocked₄⟩ := hv.2 w₄ (by simp)
    have hprotects := protects_publications O deps
    obtain ⟨hw₂, hrows₂⟩ := hprotects.rely hlocked₂ hrely hlocks
    obtain ⟨-, hrows₄⟩ := hprotects.rely hlocked₄ hrely hlocks
    refine ⟨.sign (?_ : ChargeSigning deps v.hist w w₂ batch signer nonce head), ?_,
      hE _ _ (.inr ⟨nonce, tx, hsigned⟩)⟩
    · refine
        { mem := hmem, unsent := hunsent, identity := hidentity, locked := hlocks
          batches := fun other hother hof => ⟨fun n hn => ?_, fun hflight => ?_⟩
          publications := fun other hother hof => ⟨fun n hn => ?_, ?_⟩
          read := hread₂, lockedRead := hw₂, dead := hdead _ _ hv.1.frame.kept
          sawHead := hhead _ _ hv.1.frame.kept, evidence := fun click hclick hid => ?_
          sending := ?_ }
      · refine reservationOf_latest (.inl ?_) hlatest
        rw [hB, ← h₃] at hother
        exact List.mem_map.2 ⟨other, List.mem_filter.2 ⟨hother, hof⟩, hn⟩
      · rw [hB, ← h₁] at hother
        exact Option.some.inj (reservationOf_batches hpending hother hof hflight)
      · obtain ⟨row₄, hrow₄, hs⟩ := hrows₄ other hother hof
        refine reservationOf_latest (.inr ?_) hlatest
        exact List.mem_map.2 ⟨row₄, List.mem_filter.2 ⟨hrow₄, (hs.ofWallet _).symm.trans hof⟩,
          hs.nonce.symm.trans hn⟩
      · obtain ⟨row₂, hrow₂, hs⟩ := hrows₂ other hother hof
        refine ⟨row₂, hrow₂, hs.id.symm, hs.nonce.symm, ?_⟩
        by_contra hflight
        have := reservationOf_publications hpending hrow₂ ((hs.ofWallet _).symm.trans hof)
          (by simpa using hflight)
        cases this
      · refine hv.1.frame.evidence click ?_ hid
        rw [← hrely.placed]
        exact List.mem_filter.2 ⟨hclick, by simp [hid]⟩
      · obtain ⟨run, hrun, hid, hof, hs⟩ := hsending _ _ hv.1.frame.kept
        obtain ⟨run', hrun', hsame⟩ := hrely.quiet.runs run hrun
        exact ⟨run', hrun', hsame.1.trans hid, hsame.2.1.trans hof, fun hauto =>
          hs (hsame.2.2.symm.trans hauto)⟩
    · have hfind : (w.db.mapBatch batch.id fun row =>
          row.sign signer nonce tx).batches.find? (fun row => row.id = batch.id) =
          some (batch.sign signer nonce tx) := by
        exact hsigned.frame.2.keyed.find?_eq hsigned.frame.2.mem
      rw [hfind]
      exact hQ _ hsigned
  · have hran : Holds deps m (SigningFrame deps K B batch head) (v.ran w (w.release .charge)) :=
      hv.1.ran (hR.ran hv.1.frame hrely.quiet ⟨rfl, rfl, fun _ => rfl, .refl _⟩)
    exact ⟨.release, hleft _ _ hran, hleft _ _ hran⟩

/-- **The signing transaction.** -/
theorem wp_signBatch (hK : Kept K)
    (hhead : ∀ h w, K h w → SawHead deps.identity.chainId h head)
    (hdead : ∀ h w, K h w → ∀ txHash, batch.txHash = some txHash →
      DeadTransaction deps h txHash batch.chargeId)
    (hsending : ∀ h w, K h w → SendingSeen deps h batch.runId w)
    {B : List ChargeBatch} {signer : Address}
    (hv : Holds deps m (SigningFrame deps K B batch head) v) (honly : Only old batch B)
    (hunsent : batch.Unsent) (hidentity : batch.identity = deps.identity)
    {Q : Option ChargeBatch → View ChargePass World Reply Failure → Prop}
    (hQ : ∀ nonce tx v', RowIs deps m K old (batch.sign signer nonce tx) v' →
      Q (some (batch.sign signer nonce tx)) v')
    (hE : ∀ e v', (RowIs deps m K old batch v' ∨
      ∃ nonce tx, RowIs deps m K old (batch.sign signer nonce tx) v') → E e v') :
    Routine.wp (chargeDiscipline O deps) (signBatch batch deps signer) Q E v := by
  have hR : Framed (SigningFrame deps K B batch head) := SigningFrame.framed hK B
  have hstay : ∀ v', Holds deps m (SigningFrame deps K B batch head) v' →
      RowIs deps m K old batch v' := fun v' hv' =>
    hv'.mono fun hr => ⟨hr.kept, hr.batches ▸ honly⟩
  have hleft : ∀ e v', Holds deps m (SigningFrame deps K B batch head) v' → E e v' :=
    fun e v' hv' => hE e v' (.inl (hstay v' hv'))
  have hlocking : ∀ ws, (chargeDiscipline O deps).Stable (Locking (PublicationsLocked .charge)
      (fun w => w.db.batches = B) (Holds deps m (SigningFrame deps K B batch head))
      ⟨deps.identity.chainId, signer⟩ ws) := fun ws =>
    stable_locking hR.stable (protects_publications O deps)
  unfold signBatch
  refine (Routine.wp_bind _ _).2 (wp_reservation hR.stable (protects_publications O deps)
    (S := fun w => w.db.batches = B) (fun v' hv' => hv'.frame.batches) hv
    (fun w₁ w₂ w₃ w₄ v₁ hv₁ => ?_) hleft)
  generalize hres : reservationOf ⟨deps.identity.chainId, signer⟩ (some batch.id) none w₁.db w₂.db
    w₃.db w₄.db = reservation
  refine (Routine.wp_bind _ _).2 ((hlocking _).read hv₁ (fun w₅ _ _ hv₅ => ?_) fun e v' hv' =>
    hleft e v' hv'.1)
  have hB₅ : w₅.db.batches = B := hv₅.1.frame.batches
  beta_reduce
  rw [hB₅, honly.keyed.find?_eq honly.mem]
  have hflight : batch.status.inFlight = false := by
    obtain hs | hs := hunsent <;> rw [hs] <;> rfl
  simp only [hflight, hunsent.open, Bool.false_eq_true, if_false]
  refine Routine.wp_ite (fun _ => hleft _ _ hv₅.1) fun hpending => ?_
  have hpending : reservation.pending = false := by simpa using hpending
  refine (Routine.wp_bind _ _).2 ((hlocking _).ask hv₅ (fun _ _ _ => by trivial)
    (fun (nonce : ℕ) w₆ _ _ _ hv₆ => ?_) fun e v' hv' => hleft e v' hv'.1)
  refine Routine.wp_ite (fun _ => hleft _ _ hv₆.1) fun hlatest => ?_
  refine (Routine.wp_bind _ _).2 ((hlocking _).ask hv₆ (fun _ _ _ => by trivial)
    (fun (tx : SignedTransaction) w₇ _ _ _ hv₇ => ?_) fun e v' hv' => hleft e v' hv'.1)
  subst hres
  exact wp_commitSignature hK hhead hdead hsending hv₇ honly hunsent hidentity hpending hlatest
    (hQ nonce tx)
    hE

/-! ### A batch -/

/-- The row of the batch, if it is failed, was seen reverted. -/
def RowProved (deps : ChargeDependencies) (m : ChargePass) (K : Log → World → Prop)
    (old : List ChargeBatch) (batch : ChargeBatch) : View ChargePass World Reply Failure → Prop :=
  Holds deps m fun h w => K h w ∧ ∃ row : ChargeBatch, Only old row w.db.batches ∧
    row.id = batch.id ∧ row.Proved deps h

theorem RowIs.proved (hv : RowIs deps m K old row v) (hid : row.id = batch.id)
    (hrow : row.Proved deps v.hist) : RowProved deps m K old batch v :=
  hv.mono fun hr => ⟨hr.1, row, hr.2, hid, hrow⟩

theorem RowProved.mono {L : Log → World → Prop} (hv : RowProved deps m K old batch v)
    (h : ∀ w, K v.hist w → L v.hist w) : RowProved deps m L old batch v :=
  Holds.mono hv fun hr => ⟨h _ hr.1, hr.2⟩

theorem RowChecked.proved (hv : RowChecked deps m K old batch v) :
    RowProved deps m K old batch v :=
  Holds.mono hv fun ⟨hk, row, honly, hid, hrow⟩ => ⟨hk, row, honly, hid, hrow.failed⟩

theorem RowLeft.proved (hv : RowLeft deps m K old batch v) (hstatus : batch.status ≠ .failed) :
    RowProved deps m K old batch v :=
  Holds.mono hv fun ⟨hk, row, honly, hid, hrow⟩ => ⟨hk, row, honly, hid, hrow hstatus⟩

theorem ChargeBatch.sign_proved (batch : ChargeBatch) (signer : Address) (nonce : ℕ)
    (tx : SignedTransaction) (h : Log) : (batch.sign signer nonce tx).Proved deps h :=
  fun hs => by cases hs

/-- Closing a batch whose position is gone. -/
theorem wp_closePosition (hK : Kept K) (hck : ∀ h w, K h w → CheckpointKept deps h w)
    (hv : RowIs deps m K old batch v) (hproved : ∀ h w, K h w → batch.Proved deps h)
    (hunsent : batch.Unsent) (hidentity : batch.identity = deps.identity)
    {code : ErrorCode} {block : ℕ}
    {Q : Unit → View ChargePass World Reply Failure → Prop}
    (hQ : ∀ v', RowProved deps m K old batch v' → Q () v')
    (hE : ∀ e v', RowProved deps m K old batch v' → E e v') :
    Routine.wp (chargeDiscipline O deps) (closePosition batch deps code block) Q E v := by
  have hstay : ∀ e v', RowIs deps m K old batch v' → E e v' := fun e v' hv' =>
    hE e v' (hv'.proved rfl (hproved _ _ hv'.frame.1))
  unfold closePosition
  refine (Routine.wp_bind _ _).2 (wp_blockHash (RowIs.framed hK old batch) hv
    (fun hash v₁ hv₁ hsaw => ?_) hstay)
  have hK' := hK.and (kept_log fun h e (hs : SawHash deps.identity.chainId h block hash) =>
    hs.cons e)
  let f (row : ChargeBatch) : ChargeBatch :=
    { row with
      status := .uncollectable
      chargedPreRaw := some 0
      shortfallPreRaw := some batch.duePreRaw
      receiptBlockNumber := some block
      receiptBlockHash := some hash
      errorCode := some code }
  have hclosed : ∀ v', RowIs deps m (fun h w => K h w ∧ SawHash deps.identity.chainId h block hash)
      old (f batch) v' → RowProved deps m K old batch v' := fun v' hv' =>
    RowIs.proved (hv'.mono fun hr => ⟨hr.1.1, hr.2⟩) rfl fun hs => by cases hs
  refine loud_transaction (f := f) hK' (hv₁.mono fun hr => ⟨⟨hr.1, hsaw⟩, hr.2⟩) (fun _ => rfl) ?_
    (fun v' hv' => hQ v' (hclosed v' hv')) ?_
  · intro w db _ hk hquiet hmem ht
    obtain rfl := uncollectableTx_ok ht
    exact ⟨.close hmem hunsent hidentity hk.2 ((hck _ _ hk.1).congr hquiet.checkpoint), rfl,
      .of_eq rfl rfl⟩
  · rintro e v' (hv' | hv')
    · exact hstay e v' (hv'.mono fun hr => ⟨hr.1.1, hr.2⟩)
    · exact hE e v' (hclosed v' hv')

/-- The signing of a batch under the wallet lock. -/
theorem wp_signLocked (hK : Kept K)
    (hhead : ∀ h w, K h w → SawHead deps.identity.chainId h head)
    (hdead : ∀ h w, K h w → ∀ txHash, batch.txHash = some txHash →
      DeadTransaction deps h txHash batch.chargeId)
    (hsending : ∀ h w, K h w → SendingSeen deps h batch.runId w)
    {B : List ChargeBatch} {signer : Address}
    (hv : Holds deps m (SigningFrame deps K B batch head) v) (honly : Only old batch B)
    (hunsent : batch.Unsent) (hidentity : batch.identity = deps.identity)
    {Q : Option ChargeBatch → View ChargePass World Reply Failure → Prop}
    (hQ : ∀ nonce tx v', RowIs deps m K old (batch.sign signer nonce tx) v' →
      Q (some (batch.sign signer nonce tx)) v')
    (hE : ∀ e v', (RowIs deps m K old batch v' ∨
      ∃ nonce tx, RowIs deps m K old (batch.sign signer nonce tx) v') → E e v') :
    Routine.wp (chargeDiscipline O deps)
      (withWalletLock .charge ⟨deps.identity.chainId, signer⟩ (signBatch batch deps signer))
      Q E v := by
  have hR : Framed (SigningFrame deps K B batch head) := SigningFrame.framed hK B
  have hstay : ∀ v', Holds deps m (SigningFrame deps K B batch head) v' →
      RowIs deps m K old batch v' := fun v' hv' =>
    hv'.mono fun hr => ⟨hr.kept, hr.batches ▸ honly⟩
  refine wp_withWalletLock (fun _ v' => RowIs deps m K old batch v' ∨
    ∃ nonce tx, RowIs deps m K old (batch.sign signer nonce tx) v')
    (wp_lockWallet (fun w hrely _ => .inl (hstay _ ?_)) fun w hrely _ hfree => ?_) ?_
  · exact hv.ran (hR.ran hv.frame hrely.quiet (.refl w))
  · have hran : Holds deps m (SigningFrame deps K B batch head)
        (v.ran w (w.lock .charge ⟨deps.identity.chainId, signer⟩)) :=
      hv.ran (hR.ran hv.frame hrely.quiet ⟨rfl, rfl, fun _ => rfl, .refl _⟩)
    exact ⟨.lock hfree,
      wp_signBatch hK hhead hdead hsending hran honly hunsent hidentity hQ fun _ _ => id,
      .inl (hstay _ hran)⟩
  · intro e v' hv' w hrely _
    -- the release leaves the batch as it is
    have hkeep : ∀ row w', RowIs deps m K old row v' → Quiet w w' →
        RowIs deps m K old row (v'.ran w w') := fun row w' hrow hquiet =>
      hrow.ran ((RowIs.framed hK old row).ran hrow.frame hrely.quiet hquiet)
    have hleft : ∀ e w', Quiet w w' → E e (v'.ran w w') := by
      intro e w' hquiet
      refine hE e _ ?_
      obtain hrow | ⟨nonce, tx, hrow⟩ := hv'
      · exact .inl (hkeep _ _ hrow hquiet)
      · exact .inr ⟨nonce, tx, hkeep _ _ hrow hquiet⟩
    have hrelease : Quiet w (w.release .charge) := ⟨rfl, rfl, fun _ => rfl, .refl _⟩
    exact ⟨hleft _ _ (.refl w), .release, hleft _ _ hrelease, hleft _ _ hrelease⟩

/-- **A batch of the run loop.**  It is signed only if its last transaction is dead. -/
theorem wp_prepareBatch (hK : Kept K) (hck : ∀ h w, K h w → CheckpointKept deps h w)
    (hhead : ∀ h w, K h w → SawHead deps.identity.chainId h head)
    (hproved : ∀ h w, K h w → batch.Proved deps h)
    (hsending : ∀ h w, K h w → SendingSeen deps h batch.runId w) (hv : RowIs deps m K old batch v)
    (hwf : batch.WellFormed) (hunsent : batch.Unsent) (hidentity : batch.identity = deps.identity)
    {signer : Address} {Q : Bool → View ChargePass World Reply Failure → Prop}
    (hQ : ∀ wait v', RowProved deps m K old batch v' → Q wait v')
    (hE : ∀ e v', RowProved deps m K old batch v' → E e v') :
    Routine.wp (chargeDiscipline O deps) (prepareBatch batch deps signer head) Q E v := by
  have hR := RowIs.framed hK old batch
  have hstay : ∀ e v', RowIs deps m K old batch v' → E e v' := fun e v' hv' =>
    hE e v' (hv'.proved rfl (hproved _ _ hv'.frame.1))
  unfold prepareBatch
  refine (Routine.wp_bind _ _).2 (wp_assertBatchCapture head hR hv
    (fun v₁ hv₁ hcapture => ?_) hstay)
  -- the batches and the evidence of the clicks stand still until the signature is committed
  obtain ⟨B, hB⟩ : ∃ B, v₁.shared.db.batches = B := ⟨_, rfl⟩
  have honly : Only old batch B := hB ▸ hv₁.frame.2
  have hR₁ : Framed (SigningFrame deps K B batch head) := SigningFrame.framed hK B
  have hv₁ : Holds deps m (SigningFrame deps K B batch head) v₁ := hv₁.mono fun hr =>
    ⟨hr.1, hB, fun click hclick hid => hcapture click (List.mem_filter.1 hclick).1 hid⟩
  have hrow : ∀ v', Holds deps m (SigningFrame deps K B batch head) v' →
      RowIs deps m K old batch v' := fun v' hv' => hv'.mono fun hr => ⟨hr.kept, hr.batches ▸ honly⟩
  have hleft : ∀ e v', Holds deps m (SigningFrame deps K B batch head) v' → E e v' :=
    fun e v' hv' => hstay e v' (hrow v' hv')
  refine (Routine.wp_bind _ _).2 (quiet_ask hR₁ hv₁ (fun _ _ _ => by trivial)
    (fun (finalized : StakeDetails) w₂ hv₂ _ => ?_) hleft)
  have hclose : ∀ code, Routine.wp (chargeDiscipline O deps) (do
      closePosition batch deps code (deps.finalizedBlock head)
      return false) Q E _ := fun code =>
    (Routine.wp_bind _ _).2 (wp_closePosition hK hck (hrow _ hv₂) hproved hunsent hidentity
      (fun v' hv' => hQ false v' hv') hE)
  refine Routine.wp_ite (fun _ => hclose _) fun _ => Routine.wp_ite (fun _ => hclose _) fun _ => ?_
  refine (Routine.wp_bind _ _).2 (quiet_ask hR₁ hv₂ (fun _ _ _ => by trivial)
    (fun (current : StakeDetails) w₃ hv₃ _ => ?_) hleft)
  refine Routine.wp_ite (fun _ => hleft _ _ hv₃) fun _ => ?_
  refine (Routine.wp_bind _ _).2 (quiet_ask hR₁ hv₃ (fun _ _ _ => by trivial)
    (fun (processed : Bool) w₄ hv₄ _ => ?_) hleft)
  refine Routine.wp_ite (fun _ => hleft _ _ hv₄) fun hnot => ?_
  obtain rfl : processed = false := by simpa using hnot
  -- the last transaction was seen reverted before this answer
  have hdead : ∀ h w w', K h w → ∀ txHash, batch.txHash = some txHash → DeadTransaction deps
      (.asked w' (.chargeProcessed deps.identity batch.chargeId) (.ok false) :: h) txHash
      batch.chargeId := by
    intro h w w' hk txHash htx
    have hfailed : batch.status = .failed := hunsent.resolve_left fun hs => by
      simp [(hwf.prepared hs).1] at htx
    obtain ⟨txHash', htx', hproof⟩ := hproved h w hk hfailed
    obtain rfl := Option.some.inj (htx.symm.trans htx')
    exact ⟨h, w', List.suffix_refl _, hproof⟩
  have hK' := hK.and (kept_log fun h e (hd : ∀ txHash, batch.txHash = some txHash →
    DeadTransaction deps h txHash batch.chargeId) => fun txHash htx => (hd txHash htx).cons e)
  refine (Routine.wp_bind _ _).2 (wp_signLocked hK' (fun h w hk => hhead h w hk.1)
    (fun _ _ hk => hk.2) (fun h w hk => hsending h w hk.1)
    (hv₄.mono fun hr => ⟨⟨hr.kept, hdead _ _ _ hv₃.frame.kept⟩,
      hr.batches, hr.evidence⟩) honly
    hunsent hidentity (fun nonce tx v₅ hv₅ => ?_) ?_)
  · have hv₅ :=
      hv₅.mono (S := fun h w => K h w ∧ Only old (batch.sign signer nonce tx) w.db.batches)
      fun hr => ⟨hr.1.1, hr.2⟩
    have hsigned : (batch.sign signer nonce tx).WellFormed :=
      hwf.reopen hunsent.open rfl ⟨rfl, rfl, rfl, rfl, rfl, rfl, rfl, rfl, rfl⟩ ⟨rfl, rfl, rfl, rfl⟩
        (by simp [ChargeBatch.sign]) rfl rfl (by simp [ChargeBatch.sign])
    refine wp_reconcileChargeBatch hK hck hhead hv₅ hsigned hidentity (by simp [ChargeBatch.sign])
      (fun wait v' hv' => hQ wait v' hv'.proved) fun e v' hv' => hE e v' ?_
    exact hv'.proved (by simp [ChargeBatch.sign])
  · rintro e v' (hv' | ⟨nonce, tx, hv'⟩)
    · exact hstay e v' (hv'.mono fun hr => ⟨hr.1.1, hr.2⟩)
    · exact hE e v' (RowIs.proved (hv'.mono fun hr => ⟨hr.1.1, hr.2⟩) rfl
        (batch.sign_proved signer nonce tx _))

end

end Market

end PreCommunity
