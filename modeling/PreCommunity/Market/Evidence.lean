import PreCommunity.Market.Frame

/-!
# The quiet parts of a charge pass

The parts of a charge pass that leave the batches alone, specified for every frame: questions to the
node, the evidence of clicks, the conversion of prices and the status of runs.

* `wp_blockHash`, `wp_clickEvidence`, `wp_assertBatchCapture` : what a pass learns from the node.
* `wp_convertPendingPrices`, `wp_validateClickEvidence`, `wp_refreshRun` : what it writes.
-/

namespace PreCommunity

namespace Market

open Store Concurrent

section

variable {O : Outside} {deps : ChargeDependencies} {m : ChargePass} {R : Log → World → Prop}
  {v : View ChargePass World Reply Failure}
  {E : Failure → View ChargePass World Reply Failure → Prop}

/-! ### Questions to the node -/

theorem Holds.cacheHash (hv : Holds deps m R v) {block : ℕ} {hash : Hash}
    (hsaw : SawHash deps.identity.chainId v.hist block hash) :
    Holds deps m R (v.withMemory
      { v.memory with blockHashes := (block, hash) :: v.memory.blockHashes }) where
  cached entry he := by
    obtain rfl | he := List.mem_cons.1 he
    · exact hsaw
    · exact hv.cached entry he
  memory := ⟨hv.memory.blocked, hv.memory.head, hv.memory.checkpoint⟩
  frame := hv.frame

/-- The block hash of a pass was read in that pass. -/
theorem wp_blockHash (hR : Framed R) (hv : Holds deps m R v) {block : ℕ}
    {Q : Hash → View ChargePass World Reply Failure → Prop}
    (hQ : ∀ hash v', Holds deps m R v' → SawHash deps.identity.chainId v'.hist block hash →
      Q hash v')
    (hE : ∀ e v', Holds deps m R v' → E e v') :
    Routine.wp (chargeDiscipline O deps) (ChargeChain.blockHash deps block) Q E v := by
  unfold ChargeChain.blockHash
  rw [Routine.wp_bind, Routine.wp_get]
  cases hlookup : v.memory.blockHashes.lookup block with
  | some saved =>
    refine hQ saved v hv (hv.cached (block, saved) ?_)
    obtain ⟨l₁, l₂, heq, -⟩ := List.lookup_eq_some_iff.1 hlookup
    rw [heq]
    simp
  | none =>
    refine (Routine.wp_bind _ _).2 ?_
    refine quiet_ask hR hv (fun _ _ _ => by trivial) (fun hash w hv' _ => ?_) hE
    exact hQ hash _ (hv'.cacheHash heard_asked) heard_asked

/-- The head of a pass was read in that pass. -/
theorem wp_head (hR : ∀ q, q = .chainId ∨ q = .blockNumber deps.identity.chainId →
      ∀ ⦃h : Log⦄ ⦃w w' : World⦄ (a : Except Failure (Reply q)), R h w → Quiet w w' →
        R (.asked w' q a :: h) w') (hv : Holds deps m R v)
    {Q : ℕ → View ChargePass World Reply Failure → Prop}
    (hQ : ∀ head v', Holds deps m R v' → SawHead deps.identity.chainId v'.hist head → Q head v')
    (hE : ∀ e v', Holds deps m R v' → E e v') :
    Routine.wp (chargeDiscipline O deps) (ChargeChain.head deps) Q E v := by
  unfold ChargeChain.head
  refine (Routine.wp_bind _ _).2 ?_
  refine quiet_hear (hR _ (.inl rfl)) hv (fun _ _ _ => by trivial)
    (fun (chainId : ℕ) w hv' _ => ?_) hE
  refine Routine.wp_ite (fun _ => hE _ _ hv') fun _ => ?_
  refine quiet_hear (hR _ (.inr rfl)) hv' (fun _ _ _ => by trivial) (fun head w' hv'' _ => ?_) hE
  exact hQ head _ hv'' heard_asked

/-! ### Evidence -/

section Evidence

variable {head : ℕ}

/-- A block reference that is canonical was seen so. -/
theorem wp_blockEvidence (head : ℕ) (hR : Framed R) (hv : Holds deps m R v) {block : ℕ}
    {hash : Option Hash}
    {Q : Evidence → View ChargePass World Reply Failure → Prop}
    (hQ : ∀ evidence v', Holds deps m R v' →
      (evidence = .canonical → EvidenceSeen deps v'.hist head block hash) → Q evidence v')
    (hE : ∀ e v', Holds deps m R v' → E e v') :
    Routine.wp (chargeDiscipline O deps) (blockEvidence deps (deps.finalizedBlock head) block hash)
      Q E v := by
  cases hash with
  | none => exact hQ .missing v hv (by simp)
  | some hash =>
    unfold blockEvidence
    refine Routine.wp_ite (fun _ => hQ .later v hv (by simp)) fun hle => ?_
    rw [Routine.wp_bind]
    refine wp_blockHash hR hv (fun canonical v' hv' hsaw => ?_) hE
    refine hQ _ v' hv' fun heq => ⟨Nat.le_of_not_lt hle, hash, rfl, ?_⟩
    split_ifs at heq with hcanonical
    rwa [← hcanonical]

theorem EvidenceSeen.mono {block : ℕ} {hash : Option Hash} {h : Log}
    (hs : EvidenceSeen deps h head block hash) (e : Event World Reply Failure) :
    EvidenceSeen deps (e :: h) head block hash :=
  hs.imp_right fun ⟨hash', heq, hsaw⟩ => ⟨hash', heq, hsaw.cons e⟩

theorem CaptureSeen.mono {click : BillingClick} {h : Log} (hs : CaptureSeen deps h head click)
    (e : Event World Reply Failure) : CaptureSeen deps (e :: h) head click :=
  ⟨hs.1.imp fun _ hb => ⟨hb.1, hb.2.mono e⟩, fun block hb => (hs.2 block hb).mono e⟩

/-- A click whose evidence is canonical was seen so. -/
theorem wp_clickEvidence (head : ℕ) (hR : Framed R) (hv : Holds deps m R v) {click : BillingClick}
    {Q : Evidence → View ChargePass World Reply Failure → Prop}
    (hQ : ∀ evidence v', Holds deps m R v' →
      (evidence = .canonical → CaptureSeen deps v'.hist head click) → Q evidence v')
    (hE : ∀ e v', Holds deps m R v' → E e v') :
    Routine.wp (chargeDiscipline O deps) (clickEvidence deps (deps.finalizedBlock head) click)
      Q E v := by
  unfold clickEvidence
  cases hbid : click.bidBlockNumber with
  | none => exact hQ .missing v hv (by simp)
  | some bidBlock =>
    simp only
    rw [Routine.wp_bind]
    refine wp_blockEvidence head hR hv (fun evidence v' hv' hseen => ?_) hE
    cases evidence with
    | canonical =>
      have hbidSeen := hseen rfl
      cases hprice : click.priceBlockNumber with
      | none =>
        refine hQ .canonical v' hv' fun _ => ⟨⟨bidBlock, hbid, hbidSeen⟩, ?_⟩
        simp [hprice]
      | some priceBlock =>
        -- the bid's evidence is framed while the price's is read
        have hR' := hR.and (framed_log fun h e (hs : EvidenceSeen deps h head bidBlock
          click.bidBlockHash) => hs.mono e)
        refine wp_blockEvidence head hR' (m := m)
          (hv'.mono fun hr => ⟨hr, hbidSeen⟩) (fun evidence v'' hv'' hprice' => ?_)
          fun e v'' hv'' => hE e v'' (hv''.mono And.left)
        refine hQ evidence v'' (hv''.mono And.left) fun heq => ?_
        refine ⟨⟨bidBlock, hbid, hv''.frame.2⟩, fun block hblock => ?_⟩
        obtain rfl : priceBlock = block := by simpa [hprice] using hblock
        exact hprice' heq
    | missing => exact hQ .missing v' hv' (by simp)
    | later => exact hQ .later v' hv' (by simp)
    | orphaned => exact hQ .orphaned v' hv' (by simp)

/-- A batch whose capture is asserted: the evidence of all its clicks was seen. -/
theorem wp_assertBatchCapture (head : ℕ) (hR : Framed R) (hv : Holds deps m R v)
    {batch : ChargeBatch}
    {Q : Unit → View ChargePass World Reply Failure → Prop}
    (hQ : ∀ v', Holds deps m R v' → (∀ click ∈ v'.shared.db.clicks, click.batchId = some batch.id →
      CaptureSeen deps v'.hist head click) → Q () v')
    (hE : ∀ e v', Holds deps m R v' → E e v') :
    Routine.wp (chargeDiscipline O deps) (assertBatchCapture batch deps head) Q E v := by
  unfold assertBatchCapture
  rw [Routine.wp_bind]
  refine quiet_select hR.ran hv (fun w _ hv' => ?_) hE
  -- the clicks of the batch stand still from here on
  obtain ⟨placed, hplaced⟩ : ∃ placed, w.db.clicks.filter (·.batchId.isSome) = placed := ⟨_, rfl⟩
  have hR' := hR.and (framed_placed fun l => l = placed)
  rw [Routine.wp_bind]
  refine Routine.wp_forIn (fun rest _ v' =>
    Holds deps m (fun h w => R h w ∧ w.db.clicks.filter (·.batchId.isSome) = placed) v' ∧
      ∀ click ∈ placed, click.batchId = some batch.id →
        click ∈ rest ∨ CaptureSeen deps v'.hist head click) ?_ ?_ ?_
  · rintro click rest _ v₁ ⟨hv₁, hseen⟩
    have hR₁ := hR'.and (framed_log (P := fun h => ∀ c ∈ placed, c.batchId = some batch.id →
      c ∈ click :: rest ∨ CaptureSeen deps h head c) fun h e hs c hc hb =>
        (hs c hc hb).imp_right fun hs => hs.mono e)
    rw [Routine.wp_bind]
    refine wp_clickEvidence head hR₁ (hv₁.mono fun hr => ⟨hr, hseen⟩)
      (fun evidence v₂ hv₂ hclick => ?_)
      fun e v₂ hv₂ => hE e v₂ (hv₂.mono fun hr => hr.1.1)
    cases evidence with
    | canonical =>
      refine ⟨hv₂.mono And.left, fun c hc hb => ?_⟩
      obtain hmem | hs := hv₂.frame.2 c hc hb
      · obtain rfl | hmem := List.mem_cons.1 hmem
        · exact .inr (hclick rfl)
        · exact .inl hmem
      · exact .inr hs
    | missing => exact hE _ _ (hv₂.mono fun hr => hr.1.1)
    | later => exact hE _ _ (hv₂.mono fun hr => hr.1.1)
    | orphaned => exact hE _ _ (hv₂.mono fun hr => hr.1.1)
  · rintro _ v₁ ⟨hv₁, hseen⟩
    refine hQ v₁ (hv₁.mono And.left) fun click hclick hb => ?_
    refine (hseen click ?_ hb).resolve_left List.not_mem_nil
    rw [← hv₁.frame.2]
    exact List.mem_filter.2 ⟨hclick, by simp [hb]⟩
  · refine ⟨hv'.mono fun hr => ⟨hr, hplaced⟩, fun click hclick hb => .inl ?_⟩
    rw [← hplaced] at hclick
    exact List.mem_filter.2 ⟨(List.mem_filter.1 hclick).1, by simp [hb]⟩

end Evidence

/-! ### Clicks outside batches -/

theorem quiet_updateClicks {w : World} {p : BillingClick → Bool} {f : BillingClick → BillingClick}
    (hfree : ∀ c ∈ w.db.clicks, p c = true → c.batchId = none)
    (hf : ∀ c, (f c).batchId = c.batchId) : Quiet w (w.withDb (w.db.updateClicks p f)) :=
  ⟨rfl, filter_updateClicks hfree hf, fun _ => rfl, .refl _⟩

/-- The snapshot of the projection was read. -/
def SnapshotSeen (deps : ChargeDependencies) (h : Log) (snapshot : IndexerState) : Prop :=
  ∃ w, ReadIn h w ∧ w.db.indexers.find? (fun row => row.identity = deps.identity) = some snapshot

/-- The clicks were read waiting for a price. -/
def PageSeen (deps : ChargeDependencies) (h : Log) (clicks : List BillingClick) : Prop :=
  ∃ w, ReadIn h w ∧ ∀ c ∈ clicks, c ∈ w.db.clicks ∧ c.awaitsPrice = true ∧
    c.identity = deps.identity

theorem wp_convertPage (hR : Silent R) (hv : Holds deps m R v) {snapshot : IndexerState}
    {price quotedAt : ℕ} {clicks : List BillingClick}
    (hsnapshot : ∀ h w, R h w → SnapshotSeen deps h snapshot ∧ PageSeen deps h clicks)
    (hfresh : snapshot.freshPrice deps.now = some (price, quotedAt))
    {Q : Unit → View ChargePass World Reply Failure → Prop}
    (hQ : ∀ v', Holds deps m R v' → Q () v') (hE : ∀ e v', Holds deps m R v' → E e v') :
    Routine.wp (chargeDiscipline O deps)
      (convertPage snapshot (O.ext.formatUnits price 18) quotedAt clicks) Q E v := by
  unfold convertPage
  refine (Routine.wp_bind _ _).2 ?_
  refine Routine.wp_forIn (fun rest _ v' => Holds deps m R v' ∧ ∀ c ∈ rest, c ∈ clicks) ?_
    (fun _ v' h => hQ v' h.1) ⟨hv, fun _ => id⟩
  rintro click rest _ v₁ ⟨hv₁, hrest⟩
  have hnext : ∀ c ∈ rest, c ∈ clicks := fun c hc => hrest c (.tail _ hc)
  cases hbid : click.bidUsdRaw with
  | none => exact ⟨hv₁, hnext⟩
  | some bid =>
    cases hbill : billPreRaw bid (O.ext.formatUnits price 18) with
    | error e =>
      simp only [hbill]
      exact hE e v₁ hv₁
    | ok amount =>
      simp only [hbill]
      refine (Routine.wp_bind _ _).2 (quiet_update hR hv₁ ?_ (fun v₂ hv₂ => ⟨hv₂, hnext⟩) hE)
      intro w hinv hr _
      obtain ⟨⟨w₁, hread₁, hfind⟩, w₂, hread₂, hpage⟩ := hsnapshot _ _ hr
      obtain ⟨hclick, hawaits, hidentity⟩ := hpage click (hrest click (.head _))
      refine ⟨.convert hread₁ hfind hfresh hread₂ hclick hawaits hbid hbill hidentity, ?_⟩
      refine quiet_updateClicks (fun c hc hp => ?_) fun _ => rfl
      have hstatus := (awaitsPrice_cases (of_decide_eq_true hp).2).1
      exact (hinv.ledger.click c hc).free (.inr (.inl hstatus))

theorem silent_log {P : Log → Prop} (hP : ∀ h e, P h → P (e :: h)) : Silent fun h _ => P h :=
  (framed_log hP).ran

theorem Silent.and {R S : Log → World → Prop} (hR : Silent R) (hS : Silent S) :
    Silent fun h w => R h w ∧ S h w :=
  fun _ _ _ _ h h₁ h₂ => ⟨hR h.1 h₁ h₂, hS h.2 h₁ h₂⟩

theorem ReadIn.cons {h : Log} {w : World} (hr : ReadIn h w) (e : Event World Reply Failure) :
    ReadIn (e :: h) w :=
  List.mem_cons_of_mem e hr

theorem wp_convertPages {snapshot : IndexerState} {price quotedAt : ℕ} (pages : ℕ)
    (after : Option Id) (hR : Silent R) (hv : Holds deps m R v)
    (hsnapshot : ∀ h w, R h w → SnapshotSeen deps h snapshot)
    (hfresh : snapshot.freshPrice deps.now = some (price, quotedAt))
    {Q : Unit → View ChargePass World Reply Failure → Prop}
    (hQ : ∀ v', Holds deps m R v' → Q () v') (hE : ∀ e v', Holds deps m R v' → E e v') :
    Routine.wp (chargeDiscipline O deps)
      (convertPages deps.identity snapshot (O.ext.formatUnits price 18) quotedAt pages after)
      Q E v := by
  induction pages generalizing after v with
  | zero => exact hQ v hv
  | succ pages ih =>
    unfold convertPages
    refine (Routine.wp_bind _ _).2 (quiet_select hR hv (fun w _ hv₁ => ?_) hE)
    refine (Routine.wp_bind _ _).2 ?_
    have hpage : PageSeen deps (.ran w w :: v.hist)
        (pricePendingPage w.db deps.identity after) := by
      refine ⟨w, .head _, fun c hc => ?_⟩
      have hc := (List.perm_insertionSort _ _).mem_iff.1 (List.mem_of_mem_take hc)
      obtain ⟨hc, hp⟩ := List.mem_filter.1 hc
      simp only [decide_eq_true_eq] at hp
      exact ⟨hc, hp.2.1, hp.1⟩
    have hR' := hR.and (silent_log (P := fun h => PageSeen deps h
      (pricePendingPage w.db deps.identity after)) fun h e ⟨w', hr, hc⟩ => ⟨w', hr.cons e, hc⟩)
    refine wp_convertPage hR' (hv₁.mono fun hr => ⟨hr, hpage⟩)
      (fun h w hr => ⟨hsnapshot h w hr.1, hr.2⟩) hfresh (fun v₂ hv₂ => ?_)
      fun e v₂ hv₂ => hE e v₂ (hv₂.mono And.left)
    have hv₂ := hv₂.mono (S := R) And.left
    split
    · exact Routine.wp_ite (fun _ => hQ _ hv₂) fun _ => ih _ hv₂
    · exact hQ _ hv₂

/-- The conversion of prices. -/
theorem wp_convertPendingPrices (hR : Silent R) (hv : Holds deps m R v)
    {Q : Unit → View ChargePass World Reply Failure → Prop}
    (hQ : ∀ v', Holds deps m R v' → Q () v') (hE : ∀ e v', Holds deps m R v' → E e v') :
    Routine.wp (chargeDiscipline O deps) (convertPendingPrices O.ext deps.identity deps.now)
      Q E v := by
  unfold convertPendingPrices
  refine (Routine.wp_bind _ _).2 (quiet_update hR hv ?_ (fun v₁ hv₁ => ?_) hE)
  · intro w hinv _ _
    refine ⟨.interrupt, quiet_updateClicks (fun c hc hp => ?_) fun _ => rfl⟩
    exact ((hinv.ledger.click c hc).capturing (of_decide_eq_true hp).2.1).2.2
  · refine (Routine.wp_bind _ _).2 (quiet_select hR hv₁ (fun w _ hv₂ => ?_) hE)
    split
    · exact hQ _ hv₂
    · rename_i snapshot hfind
      split
      · exact hQ _ hv₂
      · rename_i price quotedAt hfresh
        have hR' := hR.and (silent_log (P := fun h => SnapshotSeen deps h snapshot)
          fun h e ⟨w', hr, hc⟩ => ⟨w', hr.cons e, hc⟩)
        refine wp_convertPages _ _ hR' (hv₂.mono fun hr => ⟨hr, w, .head _, hfind⟩)
          (fun _ _ hr => hr.2) hfresh (fun v₃ hv₃ => hQ _ (hv₃.mono And.left))
          fun e v₃ hv₃ => hE e v₃ (hv₃.mono And.left)

theorem wp_invalidateClick (hR : Silent R) (hv : Holds deps m R v) {id : Id} {code : ErrorCode}
    {Q : Unit → View ChargePass World Reply Failure → Prop}
    (hQ : ∀ v', Holds deps m R v' → Q () v') (hE : ∀ e v', Holds deps m R v' → E e v') :
    Routine.wp (chargeDiscipline O deps) (invalidateClick id code) Q E v := by
  refine quiet_update hR hv (fun w hinv _ _ => ⟨.invalidate, ?_⟩) hQ hE
  exact quiet_updateClicks (fun c _ hp => (waiting_cases (of_decide_eq_true hp).2).1) fun _ => rfl

/-- The validation of clicks outside batches. -/
theorem wp_validateClickEvidence {head : ℕ} (hR : Framed R) (hv : Holds deps m R v)
    {Q : Unit → View ChargePass World Reply Failure → Prop}
    (hQ : ∀ v', Holds deps m R v' → Q () v') (hE : ∀ e v', Holds deps m R v' → E e v') :
    Routine.wp (chargeDiscipline O deps) (validateClickEvidence deps (deps.finalizedBlock head))
      Q E v := by
  unfold validateClickEvidence
  refine (Routine.wp_bind _ _).2 (quiet_select hR.ran hv (fun w _ hv₁ => ?_) hE)
  refine (Routine.wp_bind _ _).2 ?_
  refine Routine.wp_forIn (fun _ _ v' => Holds deps m R v') ?_ (fun _ v' h => hQ v' h) hv₁
  intro click rest _ v₂ hv₂
  refine (Routine.wp_bind _ _).2 ?_
  refine wp_clickEvidence head hR hv₂ (fun evidence v₃ hv₃ _ => ?_) hE
  cases evidence with
  | missing =>
    exact (Routine.wp_bind _ _).2 (wp_invalidateClick hR.ran hv₃ (fun v₄ hv₄ => hv₄) hE)
  | orphaned =>
    exact (Routine.wp_bind _ _).2 (wp_invalidateClick hR.ran hv₃ (fun v₄ hv₄ => hv₄) hE)
  | later => exact hv₃
  | canonical => exact hv₃

/-! ### The status of runs -/

theorem quiet_mapRun (w : World) (id : Id) {f : ChargeRun → ChargeRun}
    (hf : ∀ run : ChargeRun, run.Same (f run)) : Quiet w (w.withDb (w.db.mapRun id f)) :=
  ⟨rfl, rfl, fun _ => rfl, .update hf⟩

/-- A run that is refreshed ends only when its batches are closed. -/
theorem refresh_recoverable (run : ChargeRun) {batches : List ChargeBatch}
    {awaiting : List BillingClick} {now : ℕ} {failure : Option ErrorCode}
    (h : (run.refresh batches awaiting now failure).status.recoverable = false) :
    ∀ b ∈ batches, b.status.terminal = true := by
  intro b hb
  by_contra hopen
  have hpending : (batches.any fun batch => !batch.status.terminal) = true :=
    List.any_eq_true.2 ⟨b, hb, by simpa using hopen⟩
  unfold ChargeRun.refresh at h
  simp only [hpending, Bool.or_true, Bool.true_or, if_true] at h
  split_ifs at h <;> cases h

theorem wp_refreshRun (hR : Framed R) (hv : Holds deps m R v) {runId : Id} {now : ℕ}
    {failure : Option ErrorCode} {Q : Unit → View ChargePass World Reply Failure → Prop}
    (hQ : ∀ v', Holds deps m R v' → Q () v') (hE : ∀ e v', Holds deps m R v' → E e v') :
    Routine.wp (chargeDiscipline O deps) (refreshRun runId now failure) Q E v := by
  unfold refreshRun
  refine (Routine.wp_bind _ _).2 (quiet_select hR.ran hv (fun w _ hv₁ => ?_) hE)
  split
  · exact hE _ _ hv₁
  · rename_i run _
    refine (Routine.wp_bind _ _).2 (quiet_select hR.ran hv₁ (fun w₂ _ hv₂ => ?_) hE)
    -- the batches of the run stand still from here on
    have hR' := hR.and (framed_batches fun l => l = w₂.db.batches)
    refine (Routine.wp_bind _ _).2 (quiet_select hR'.ran (hv₂.mono fun hr => ⟨hr, rfl⟩)
      (fun w₃ _ hv₃ => ?_) fun e v' hv' => hE e v' (hv'.mono And.left))
    refine quiet_transaction hR'.ran hv₃ ?_ (fun _ _ _ _ _ hv₄ => hQ _ (hv₄.mono And.left))
      fun e v' hv' => hE e v' (hv'.mono And.left)
    intro w _ db _ hr hquiet ht
    obtain rfl := updateRun_ok ht
    refine ⟨.runStatus (fun run => ⟨rfl, rfl, rfl, rfl⟩) fun run => ?_,
      quiet_mapRun w runId fun run => ⟨rfl, rfl, rfl⟩⟩
    cases hrec : (run.refresh (w₂.db.batches.filter fun row => row.runId = runId)
        (awaitingClicks w₃.db _) now failure).status.recoverable with
    | true => exact .inl rfl
    | false =>
      refine .inr fun row hrow hid => refresh_recoverable run hrec row ?_
      rw [hquiet.batches, hr.2] at hrow
      exact List.mem_filter.2 ⟨hrow, by simpa using hid⟩

end

end Market

end PreCommunity
