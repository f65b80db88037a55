import PreCommunity.Market.RunLoop

/-!
# The reconciliation section of a charge pass

The section looks at every batch that is in flight, failed, or closed above a checkpoint that is
still canonical.  When it goes through, every failed batch was seen reverted and the receipt block
of every closed batch was seen canonical, or lies below that checkpoint.

* `Standing`, `Sectioning` : before and in the loop over the batches.
* `ChargeBatch.Reconciled` : a row after the section.
* `wp_reconcileSection` : the specification.
-/

namespace PreCommunity

namespace Market

open Store Concurrent

/-- No block hash was read yet. -/
def NoHash (chainId : ℕ) (h : Log) : Prop := h.filterMap (blockHashAnswer chainId) = []

/-- Since the pass began the batches are `B` and the checkpoint is `C`. -/
structure Standing (deps : ChargeDependencies) (B : List ChargeBatch) (C : Option (ℕ × Hash))
    (h : Log) (w : World) : Prop where
  logged : ∀ e ∈ h, e.before.db.batches = B ∧ e.before.db.checkpoint deps.identity = C
  batches : w.db.batches = B
  checkpoint : w.db.checkpoint deps.identity = C

/-- Since the pass began the checkpoint is `C`. -/
structure Unsaved (deps : ChargeDependencies) (C : Option (ℕ × Hash)) (h : Log) (w : World) :
    Prop where
  logged : ∀ e ∈ h, e.before.db.checkpoint deps.identity = C
  checkpoint : w.db.checkpoint deps.identity = C

/-- The row was checked in this pass, or it was closed below a checkpoint that was still
canonical. -/
structure ChargeBatch.Reconciled (deps : ChargeDependencies) (h : Log) (row : ChargeBatch) :
    Prop where
  failed : row.Proved deps h
  closed : row.status.terminal = true → ∀ n, row.receiptBlockNumber = some n →
    (∃ hash, row.receiptBlockHash = some hash ∧ SawHash deps.identity.chainId h n hash) ∨
    ∃ w₀ block₀ hash₀, .asked w₀ (.blockHash deps.identity.chainId block₀) (.ok hash₀) ∈ h ∧
      w₀.db.checkpoint deps.identity = some (block₀, hash₀) ∧ n ≤ block₀ ∧ row ∈ w₀.db.batches

section Frames

variable {deps : ChargeDependencies} {B : List ChargeBatch} {C : Option (ℕ × Hash)} {h : Log}

theorem Standing.framed (deps : ChargeDependencies) (B : List ChargeBatch)
    (C : Option (ℕ × Hash)) : Framed (Standing deps B C) := by
  have hnext : ∀ {h w} (e : Event World Reply Failure) (w' : World), Standing deps B C h w →
      Quiet w e.before → Quiet w w' → Standing deps B C (e :: h) w' := by
    intro h w e w' hs hbefore hafter
    refine ⟨fun e' he' => ?_, hafter.batches.trans hs.batches,
      (hafter.checkpoint _).trans hs.checkpoint⟩
    obtain rfl | he' := List.mem_cons.1 he'
    · exact ⟨hbefore.batches.trans hs.batches, (hbefore.checkpoint _).trans hs.checkpoint⟩
    · exact hs.logged e' he'
  exact ⟨fun _ w w' w'' hs h₁ h₂ => hnext (.ran w' w'') w'' hs h₁ (h₁.trans h₂),
    fun _ w w' q a hs h₁ => hnext (.asked w' q a) w' hs h₁ h₁⟩

theorem Unsaved.kept (deps : ChargeDependencies) (C : Option (ℕ × Hash)) :
    Kept (Unsaved deps C) := by
  have hnext : ∀ {h w} (e : Event World Reply Failure) (w' : World), Unsaved deps C h w →
      Calm w e.before → Calm w w' → Unsaved deps C (e :: h) w' := by
    intro h w e w' hs hbefore hafter
    refine ⟨fun e' he' => ?_, (hafter.checkpoint _).trans hs.checkpoint⟩
    obtain rfl | he' := List.mem_cons.1 he'
    · exact (hbefore.checkpoint _).trans hs.checkpoint
    · exact hs.logged e' he'
  exact ⟨fun _ w w' w'' hs h₁ h₂ => hnext (.ran w' w'') w'' hs h₁ (h₁.trans h₂),
    fun _ w w' q a hs h₁ => hnext (.asked w' q a) w' hs h₁ h₁⟩

theorem Standing.unsaved {w : World} (hs : Standing deps B C h w) : Unsaved deps C h w :=
  ⟨fun e he => (hs.logged e he).2, hs.checkpoint⟩

theorem Unsaved.checkpointKept {w : World} (hs : Unsaved deps C h w) : CheckpointKept deps h w :=
  .inl fun e he => (hs.logged e he).trans hs.checkpoint.symm

theorem ChargeBatch.Reconciled.cons {row : ChargeBatch} (hr : row.Reconciled deps h)
    (e : Event World Reply Failure) : row.Reconciled deps (e :: h) := by
  refine ⟨hr.failed.cons e, fun hs n hn => (hr.closed hs n hn).imp ?_ ?_⟩
  · exact fun ⟨hash, hhash, hsaw⟩ => ⟨hash, hhash, hsaw.cons e⟩
  · exact fun ⟨w₀, block₀, hash₀, hasked, hrest⟩ => ⟨w₀, block₀, hash₀, .tail _ hasked, hrest⟩

theorem ChargeBatch.Checked.reconciled {row : ChargeBatch} (hr : row.Checked deps h) :
    row.Reconciled deps h :=
  ⟨hr.failed, fun hs n hn => .inl (hr.closed hs n hn)⟩

theorem NoHash.first {chainId block : ℕ} {hash : Hash} {w : World} (hn : NoHash chainId h) :
    FirstHash chainId (.asked w (.blockHash chainId block) (.ok hash) :: h) block hash := by
  unfold NoHash at hn
  unfold FirstHash
  simp [blockHashAnswer, hn]

theorem NoHash.not_saw {chainId block : ℕ} {hash : Hash} (hn : NoHash chainId h) :
    ¬SawHash chainId h block hash := by
  rintro ⟨w, hasked⟩
  have := List.filterMap_eq_nil_iff.1 hn _ hasked
  simp [blockHashAnswer] at this

end Frames

/-! ### The reads of the section -/

section

variable {O : Outside} {deps : ChargeDependencies} {m : ChargePass} {R : Log → World → Prop}
  {B : List ChargeBatch} {C : Option (ℕ × Hash)} {v : View ChargePass World Reply Failure}
  {head : ℕ} {E : Failure → View ChargePass World Reply Failure → Prop}

/-- The first block hash of a pass is read from the node. -/
theorem wp_firstHash (hR : Framed R)
    (hv : Holds deps m (fun h w => R h w ∧ NoHash deps.identity.chainId h) v) {block : ℕ}
    {Q : Hash → View ChargePass World Reply Failure → Prop}
    (hQ : ∀ hash v', Holds deps m R v' → FirstHash deps.identity.chainId v'.hist block hash →
      Q hash v')
    (hE : ∀ e v', Holds deps m R v' → E e v') :
    Routine.wp (chargeDiscipline O deps) (ChargeChain.blockHash deps block) Q E v := by
  have hempty : v.memory.blockHashes = [] := List.eq_nil_iff_forall_not_mem.2 fun entry he =>
    hv.frame.2.not_saw (hv.cached entry he)
  unfold ChargeChain.blockHash
  refine (Routine.wp_bind _ _).2 (Routine.wp_get.2 ?_)
  rw [hempty]
  refine (Routine.wp_bind _ _).2 (quiet_ask hR (hv.mono And.left) (fun _ _ _ => by trivial)
    (fun hash w hv' _ => ?_) hE)
  exact hQ hash _ (hv'.cacheHash heard_asked) hv.frame.2.first

theorem wp_checkpointCanonical (hR : Framed R) (hv : Holds deps m R v) {settings : ChargeSettings}
    {finalizedBlock : ℕ} {Q : Bool → View ChargePass World Reply Failure → Prop}
    (hQ : ∀ canonical v', Holds deps m R v' → (canonical = true → ∃ block hash,
      settings.reconciliationBlockNumber = some block ∧
        settings.reconciliationBlockHash = some hash ∧
        SawHash deps.identity.chainId v'.hist block hash) → Q canonical v')
    (hE : ∀ e v', Holds deps m R v' → E e v') :
    Routine.wp (chargeDiscipline O deps) (checkpointCanonical deps settings finalizedBlock)
      Q E v := by
  unfold checkpointCanonical
  split
  · rename_i block hash hblock hhash
    refine Routine.wp_ite (fun _ => ?_) fun _ => hQ false v hv (by simp)
    refine (Routine.wp_bind _ _).2 (wp_blockHash hR hv (fun canonical v' hv' hsaw => ?_) hE)
    refine hQ _ v' hv' fun heq => ⟨block, hash, hblock, hhash, ?_⟩
    rwa [← of_decide_eq_true heq]
  · exact hQ false v hv (by simp)

/-- A batch that is left out was closed below the checkpoint, which is still canonical. -/
theorem reconciled_of_skipped {h : Log} {w : World} (hs : Standing deps B C h w)
    {settings : ChargeSettings} (hsettings : (settings.reconciliationBlockNumber.bind fun block =>
      settings.reconciliationBlockHash.map fun hash => (block, hash)) = C) {canonical : Bool}
    (hcanonical : canonical = true → ∃ block hash,
      settings.reconciliationBlockNumber = some block ∧
        settings.reconciliationBlockHash = some hash ∧ SawHash deps.identity.chainId h block hash)
    {row : ChargeBatch} (hrow : row ∈ w.db.batches) (hidentity : row.identity = deps.identity)
    (hskipped : row ∉ reconcilableBatches w.db settings deps.identity canonical) :
    row.Reconciled deps h := by
  simp only [reconcilableBatches, List.mem_filter, hrow, true_and, decide_eq_true_eq, hidentity,
    not_or, not_and] at hskipped
  obtain ⟨-, hfailed, hclosed⟩ := hskipped
  refine ⟨fun hs => absurd hs hfailed, fun hterminal n hn => .inr ?_⟩
  have hbelow := hclosed hterminal
  rw [Classical.not_imp] at hbelow
  obtain ⟨hpc, hbelow⟩ := hbelow
  obtain ⟨block, hash, hblock, hhash, w₀, hasked⟩ := hcanonical hpc
  obtain ⟨hbatches, hcheckpoint⟩ := hs.logged _ hasked
  simp only [ChargeBatch.aboveCheckpoint, hn, hblock, Option.any_some, decide_eq_true_eq] at hbelow
  refine ⟨w₀, block, hash, hasked, ?_, Nat.le_of_not_lt hbelow, ?_⟩
  · rw [Event.before_asked] at hcheckpoint
    rw [hcheckpoint, ← hsettings, hblock, hhash]
    rfl
  · rw [Event.before_asked] at hbatches
    rwa [hbatches, ← hs.batches]

/-! ### The loop over the batches -/

/-- What the loop keeps. -/
structure SectionKept (deps : ChargeDependencies) (C : Option (ℕ × Hash)) (head block : ℕ)
    (hash : Hash) (h : Log) (w : World) : Prop where
  unsaved : Unsaved deps C h w
  sawHead : SawHead deps.identity.chainId h head
  first : FirstHash deps.identity.chainId h block hash

theorem SectionKept.kept (deps : ChargeDependencies) (C : Option (ℕ × Hash)) (head block : ℕ)
    (hash : Hash) : Kept (SectionKept deps C head block hash) := by
  have hkept := (Unsaved.kept deps C).and (kept_log (P := fun h =>
    SawHead deps.identity.chainId h head ∧ FirstHash deps.identity.chainId h block hash)
    fun h e hs => ⟨hs.1.cons e, hs.2.cons e⟩)
  constructor
  · intro h w w' w'' hs h₁ h₂
    obtain ⟨hu, hl⟩ := hkept.ran ⟨hs.unsaved, hs.sawHead, hs.first⟩ h₁ h₂
    exact ⟨hu, hl.1, hl.2⟩
  · intro h w w' q a hs h₁
    obtain ⟨hu, hl⟩ := hkept.asked q a ⟨hs.unsaved, hs.sawHead, hs.first⟩ h₁
    exact ⟨hu, hl.1, hl.2⟩

/-- In the loop: the batches in `rest` are as they were selected, and the others are done. -/
structure Sectioning (deps : ChargeDependencies) (K : Log → World → Prop)
    (rest : List ChargeBatch) (h : Log) (w : World) : Prop where
  kept : K h w
  ids : Keyed ChargeBatch.id w.db.batches
  rows : ∀ row ∈ w.db.batches, row.identity = deps.identity → row ∈ rest ∨ row.Reconciled deps h
  rest : ∀ b ∈ rest, b ∈ w.db.batches

/-- One step of the loop. -/
theorem wp_sectionStep {K : Log → World → Prop} (hK : Kept K)
    (hck : ∀ h w, K h w → CheckpointKept deps h w)
    (hhead : ∀ h w, K h w → SawHead deps.identity.chainId h head) {batch : ChargeBatch}
    {rest : List ChargeBatch} (hids : Keyed ChargeBatch.id (batch :: rest))
    (hidentity : batch.identity = deps.identity) (hstatus : batch.status ≠ .prepared)
    (hwf : batch.WellFormed) (hv : Holds deps m (Sectioning deps K (batch :: rest)) v)
    {Q : Bool → View ChargePass World Reply Failure → Prop}
    (hQ : ∀ wait v', Holds deps m (Sectioning deps K rest) v' → Q wait v')
    (hE : ∀ e v', Holds deps m K v' → E e v') :
    Routine.wp (chargeDiscipline O deps) (reconcileChargeBatch batch deps head) Q E v := by
  obtain ⟨old, hold⟩ : ∃ old, v.shared.db.batches = old := ⟨_, rfl⟩
  have hK' := hK.and (kept_log (P := fun h => ∀ row ∈ old, row.identity = deps.identity →
    row ∈ batch :: rest ∨ row.Reconciled deps h) fun h e hs row hrow hid =>
      (hs row hrow hid).imp_right fun hr => hr.cons e)
  have hmem : batch ∈ old := hold ▸ hv.frame.rest batch (.head _)
  have hrest : ∀ b ∈ rest, b ∈ old := fun b hb => hold ▸ hv.frame.rest b (.tail _ hb)
  have hkeyed : Keyed ChargeBatch.id old := hold ▸ hv.frame.ids
  have hne : ∀ b ∈ rest, b.id ≠ batch.id := fun b hb heq =>
    (List.nodup_cons.1 hids).1 (heq ▸ List.mem_map_of_mem hb)
  have hrow : RowIs deps m (fun h w => K h w ∧ ∀ row ∈ old, row.identity = deps.identity →
      row ∈ batch :: rest ∨ row.Reconciled deps h) old batch v :=
    hv.mono fun hr => ⟨⟨hr.kept, hold ▸ hr.rows⟩, by rw [hold]; exact .refl hkeyed hmem⟩
  refine wp_reconcileChargeBatch hK' (fun h w hk => hck h w hk.1) (fun h w hk => hhead h w hk.1)
    hrow hwf hidentity hstatus (fun wait v' hv' => hQ wait v' ?_) fun e v' hv' => hE e v' ?_
  · refine Holds.mono hv' fun ⟨⟨hk, hrows⟩, row, honly, hid, hchecked⟩ =>
      ⟨hk, honly.keyed, fun row' hrow' hidentity' => ?_, fun b hb => ?_⟩
    · by_cases heq : row'.id = row.id
      · rw [honly.keyed.eq hrow' honly.mem heq]
        exact .inr hchecked.reconciled
      · have hrow' := (honly.others row' heq).1 hrow'
        obtain hrow' | hr := hrows row' hrow' hidentity'
        · obtain rfl | hrow' := List.mem_cons.1 hrow'
          · exact absurd hid.symm heq
          · exact .inl hrow'
        · exact .inr hr
    · exact (honly.others b (hid ▸ hne b hb)).2 (hrest b hb)
  · exact Holds.mono hv' fun hr => hr.1.1

/-- What the section leaves behind, for the variables `m`. -/
structure SectionEnd (deps : ChargeDependencies) (C : Option (ℕ × Hash)) (m : ChargePass)
    (h : Log) (w : World) : Prop where
  unsaved : Unsaved deps C h w
  ready : m.blocked = none → SawHead deps.identity.chainId h m.head ∧
    FailedProved deps h w.db.batches
  checkpoint : ∀ block hash, m.reconciliationCheckpoint = some (block, hash) →
    Reconciled deps h w block hash

/-- **The reconciliation section.** -/
theorem wp_reconcileSection (hcheckpoint : m.reconciliationCheckpoint = none)
    (hv : Holds deps m (fun h w => Standing deps B C h w ∧ NoHash deps.identity.chainId h) v)
    {settings : ChargeSettings} (hsettings : (settings.reconciliationBlockNumber.bind fun block =>
      settings.reconciliationBlockHash.map fun hash => (block, hash)) = C)
    {Q : Unit → View ChargePass World Reply Failure → Prop}
    (hQ : ∀ m' v', m'.reconciliationCheckpoint.isSome → Holds deps m' (SectionEnd deps C m') v' →
      Q () v')
    (hE : ∀ e m' v', m'.reconciliationCheckpoint = none → Holds deps m' (Unsaved deps C) v' →
      E e v') :
    Routine.wp (chargeDiscipline O deps) (reconcileSection deps settings) Q E v := by
  have hS := Standing.framed deps B C
  have hleft : ∀ m', m'.reconciliationCheckpoint = none →
      ∀ e v', Holds deps m' (Standing deps B C) v' →
      E e v' := fun m' hm' e v' hv' => hE e m' v' hm' (hv'.mono Standing.unsaved)
  unfold reconcileSection
  refine (Routine.wp_bind _ _).2 (wp_head ?_ hv (fun head v₁ hv₁ hsaw => ?_)
    fun e v' hv' => hleft m hcheckpoint e v' (hv'.mono And.left))
  · rintro q hq h w w' a ⟨hs, hn⟩ hquiet
    refine ⟨hS.asked q a hs hquiet, ?_⟩
    obtain rfl | rfl := hq <;> simpa [NoHash, blockHashAnswer] using hn
  refine (Routine.wp_bind _ _).2 ((Routine.wp_modify _).2 ?_)
  -- from here on the head is known
  let m₁ : ChargePass := { m with head := head }
  let R (h : Log) (w : World) : Prop := Standing deps B C h w ∧ SawHead deps.identity.chainId h head
  have hR : Framed R := hS.and (framed_log fun h e (hs : SawHead deps.identity.chainId h head) =>
    hs.cons e)
  have hv₂ : Holds deps m₁ (fun h w => R h w ∧ NoHash deps.identity.chainId h)
      (v₁.withMemory { v₁.memory with head := head }) :=
    (hv₁.mono fun hr => ⟨⟨hr.1, hsaw⟩, hr.2⟩).withMemory rfl
      ⟨hv₁.memory.blocked, rfl, hv₁.memory.checkpoint⟩
  have hleft₁ : ∀ e v', Holds deps m₁ R v' → E e v' := fun e v' hv' =>
    hleft m₁ hcheckpoint e v' (hv'.mono And.left)
  refine (Routine.wp_bind _ _).2 (wp_firstHash hR hv₂ (fun hash v₃ hv₃ hfirst => ?_) hleft₁)
  have hR₁ := hR.and (framed_log fun h e (hf : FirstHash deps.identity.chainId h
    (deps.finalizedBlock head) hash) => hf.cons e)
  have hleft₂ : ∀ e v', Holds deps m₁ (fun h w => R h w ∧ FirstHash deps.identity.chainId h
      (deps.finalizedBlock head) hash) v' → E e v' := fun e v' hv' =>
    hleft₁ e v' (hv'.mono And.left)
  refine (Routine.wp_bind _ _).2 (wp_checkpointCanonical hR₁ (hv₃.mono fun hr => ⟨hr, hfirst⟩)
    (fun canonical v₄ hv₄ hcanonical => ?_) hleft₂)
  have hR₂ := hR₁.and (framed_log (P := fun h => canonical = true → ∃ block hash,
      settings.reconciliationBlockNumber = some block ∧
        settings.reconciliationBlockHash = some hash ∧ SawHash deps.identity.chainId h block hash)
    fun h e hs hc => by
      obtain ⟨block, hash, hblock, hhash, hsaw⟩ := hs hc
      exact ⟨block, hash, hblock, hhash, hsaw.cons e⟩)
  refine (Routine.wp_bind _ _).2 (wp_validateClickEvidence hR₂
    (hv₄.mono fun hr => ⟨hr, hcanonical⟩) (fun v₅ hv₅ => ?_)
    fun e v' hv' => hleft₂ e v' (hv'.mono And.left))
  refine (Routine.wp_bind _ _).2 (quiet_select hR₂.ran hv₅ (fun w hinv hv₆ => ?_)
    fun e v' hv' => hleft₂ e v' (hv'.mono And.left))
  -- the loop over the batches
  let K := SectionKept deps C head (deps.finalizedBlock head) hash
  have hK : Kept K := SectionKept.kept deps C head _ hash
  have hselected : ∀ b ∈ reconcilableBatches w.db settings deps.identity canonical,
      b ∈ w.db.batches ∧ b.identity = deps.identity ∧ b.status ≠ .prepared ∧ b.WellFormed := by
    intro b hb
    obtain ⟨hmem, hp⟩ := List.mem_filter.1 hb
    simp only [decide_eq_true_eq] at hp
    refine ⟨hmem, hp.1, fun hs => ?_, hinv.ledger.batch b hmem⟩
    simp [hs, BatchStatus.inFlight, BatchStatus.terminal] at hp
  have hstart : Holds deps m₁ (Sectioning deps K
      (reconcilableBatches w.db settings deps.identity canonical)) (_ : View _ _ _ _) :=
    hv₆.mono fun hr =>
      { kept := ⟨hr.1.1.1.unsaved, hr.1.1.2, hr.1.2⟩
        ids := hinv.ledger.batchIds
        rows := fun row hrow hidentity => by
          by_cases hin : row ∈ reconcilableBatches w.db settings deps.identity canonical
          · exact .inl hin
          · exact .inr (reconciled_of_skipped hr.1.1.1 hsettings hr.2 hrow hidentity hin)
        rest := fun b hb => (hselected b hb).1 }
  refine (Routine.wp_bind _ _).2 (Routine.wp_forIn (fun rest _ v' =>
    Holds deps m₁ (Sectioning deps K rest) v' ∧ Keyed ChargeBatch.id rest ∧ ∀ b ∈ rest,
      b.identity = deps.identity ∧ b.status ≠ .prepared ∧ b.WellFormed) ?_ ?_
    ⟨hstart, hinv.ledger.batchIds.filter _, fun b hb => (hselected b hb).2⟩)
  · rintro batch rest _ v₇ ⟨hv₇, hids, hfacts⟩
    obtain ⟨hidentity, hstatus, hwf⟩ := hfacts batch (.head _)
    refine (Routine.wp_bind _ _).2 (wp_sectionStep hK (fun _ _ hk => hk.unsaved.checkpointKept)
      (fun _ _ hk => hk.sawHead) hids hidentity hstatus hwf hv₇ (fun wait v₈ hv₈ => ?_)
      fun e v' hv' => hE e m₁ v' hcheckpoint (hv'.mono fun hr => hr.unsaved))
    exact (Routine.wp_bind _ _).2 (quiet_modify hv₈ (fun _ => by exact ⟨rfl, rfl, rfl, rfl⟩)
      fun v₉ hv₉ => ⟨hv₉, (List.nodup_cons.1 hids).2, fun b hb => hfacts b (.tail _ hb)⟩)
  · rintro _ v₇ ⟨hv₇, -, -⟩
    refine (Routine.wp_modify _).2 (hQ { m₁ with
      reconciliationCheckpoint := some (deps.finalizedBlock head, hash) } _ rfl ?_)
    refine (hv₇.mono fun hr => ?_).withMemory rfl ⟨hv₇.memory.blocked, hv₇.memory.head, rfl⟩
    have hrows : ∀ row ∈ v₇.shared.db.batches, row.identity = deps.identity →
        row.Reconciled deps v₇.hist := fun row hrow hidentity =>
      (hr.rows row hrow hidentity).resolve_left List.not_mem_nil
    refine ⟨hr.kept.unsaved, fun _ => ⟨hr.kept.sawHead, fun row hrow hid =>
      (hrows row hrow hid).failed⟩, ?_⟩
    rintro _ _ ⟨⟩
    exact ⟨hr.kept.first, fun e he => (hr.kept.unsaved.logged e he).trans
      hr.kept.unsaved.checkpoint.symm, fun row hrow hid => (hrows row hrow hid).closed⟩

end

end Market

end PreCommunity
