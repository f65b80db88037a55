import PreCommunity.Market.Prepare

/-!
# The run loop of a charge pass

The loop over the runs reserves clicks and prepares batches.  It is entered only when every failed
batch was seen reverted in the same pass, and every part of it leaves that true.

* `FailedProved`, `RunKnown` : what the loop depends on.
* `wp_prepareBatches`, `wp_reserveRun`, `wp_processRun` : the parts of the loop.
-/

namespace PreCommunity

namespace Market

open Store Concurrent

/-- The failed batches of the deployment were seen reverted in this pass. -/
def FailedProved (deps : ChargeDependencies) (h : Log) (batches : List ChargeBatch) : Prop :=
  ∀ row ∈ batches, row.identity = deps.identity → row.Proved deps h

/-- The run is one of the deployment. -/
def RunKnown (deps : ChargeDependencies) (run : ChargeRun) (w : World) : Prop :=
  ∃ row ∈ w.db.runs, row.id = run.id ∧ row.identity = deps.identity ∧ row.trigger = run.trigger

section Frames

variable {deps : ChargeDependencies} {h : Log} {e : Event World Reply Failure}

theorem FailedProved.cons {batches : List ChargeBatch} (hb : FailedProved deps h batches)
    (e : Event World Reply Failure) : FailedProved deps (e :: h) batches :=
  fun row hrow hidentity => (hb row hrow hidentity).cons e

theorem framed_failed (deps : ChargeDependencies) :
    Framed fun h w => FailedProved deps h w.db.batches :=
  ⟨fun h w w' w'' hs h₁ h₂ => by
    rw [h₂.batches, h₁.batches]
    exact hs.cons _, fun h w w' q a hs h₁ => by
    rw [h₁.batches]
    exact hs.cons _⟩

theorem RunKnown.step {run : ChargeRun} {w w' : World} (hr : RunKnown deps run w)
    (hruns : RunsStep w.db.runs w'.db.runs) : RunKnown deps run w' := by
  obtain ⟨row, hrow, hid, hidentity, htrigger⟩ := hr
  obtain ⟨row', hrow', hsame⟩ := hruns row hrow
  exact ⟨row', hrow', hsame.1.trans hid, hsame.2.1.trans hidentity, hsame.2.2.trans htrigger⟩

/-- A run may sign when automatic charging was seen on, or it is manual. -/
theorem RunKnown.sending {run : ChargeRun} {w : World} (hr : RunKnown deps run w)
    (hs : run.trigger = .auto → SawAutomatic deps.identity h) : SendingSeen deps h run.id w := by
  obtain ⟨row, hrow, hid, hidentity, htrigger⟩ := hr
  exact ⟨row, hrow, hid, hidentity, fun hauto => hs (htrigger ▸ hauto)⟩

theorem SawAutomatic.cons {identity : Identity} (hs : SawAutomatic identity h)
    (e : Event World Reply Failure) : SawAutomatic identity (e :: h) := by
  obtain ⟨w, hread, hon⟩ := hs
  exact ⟨w, .tail _ hread, hon⟩

theorem kept_runs (runs : List ChargeRun) : Kept fun _ w => ∀ run ∈ runs, RunKnown deps run w :=
  ⟨fun _ _ _ _ hs h₁ h₂ run hrun => ((hs run hrun).step h₁.runs).step h₂.runs,
    fun _ _ _ _ _ hs h₁ run hrun => (hs run hrun).step h₁.runs⟩

theorem CheckpointKept.cons {w w' : World} (hk : CheckpointKept deps h w)
    (e : Event World Reply Failure)
    (hbefore : e.before.db.checkpoint deps.identity = w.db.checkpoint deps.identity)
    (hafter : w'.db.checkpoint deps.identity = w.db.checkpoint deps.identity) :
    CheckpointKept deps (e :: h) w' := by
  obtain hall | ⟨block, hash, hck, hfirst⟩ := hk
  · refine .inl fun e' he' => ?_
    rw [hafter]
    obtain rfl | he' := List.mem_cons.1 he'
    · exact hbefore
    · exact hall e' he'
  · exact .inr ⟨block, hash, hafter.trans hck, hfirst.cons e⟩

theorem kept_checkpoint : Kept (CheckpointKept deps) :=
  ⟨fun _ _ w' w'' hs h₁ h₂ => hs.cons (.ran w' w'') (h₁.checkpoint _)
      ((h₂.checkpoint _).trans (h₁.checkpoint _)),
    fun _ _ w' q a hs h₁ => hs.cons (.asked w' q a) (h₁.checkpoint _) (h₁.checkpoint _)⟩

end Frames

section

variable {O : Outside} {deps : ChargeDependencies} {m : ChargePass} {K : Log → World → Prop}
  {R : Log → World → Prop} {v : View ChargePass World Reply Failure} {old : List ChargeBatch}
  {batch : ChargeBatch} {head : ℕ} {E : Failure → View ChargePass World Reply Failure → Prop}

/-! ### The batches of a run -/

/-- Between two batches: the batches in `rest` are as they were selected. -/
structure Preparing (deps : ChargeDependencies) (K : Log → World → Prop)
    (rest : List ChargeBatch) (h : Log) (w : World) : Prop where
  kept : K h w
  ids : Keyed ChargeBatch.id w.db.batches
  failed : FailedProved deps h w.db.batches
  rest : ∀ b ∈ rest, b ∈ w.db.batches

theorem Preparing.framed (hK : Kept K) (rest : List ChargeBatch) :
    Framed (Preparing deps K rest) := by
  have hframe := (hK.framed.and (framed_failed deps)).and (framed_batches fun l =>
    Keyed ChargeBatch.id l ∧ ∀ b ∈ rest, b ∈ l)
  constructor
  · intro h w w' w'' hs h₁ h₂
    obtain ⟨⟨hk, hf⟩, hids, hrest⟩ :=
      hframe.ran ⟨⟨hs.kept, hs.failed⟩, hs.ids, hs.rest⟩ h₁ h₂
    exact ⟨hk, hids, hf, hrest⟩
  · intro h w w' q a hs h₁
    obtain ⟨⟨hk, hf⟩, hids, hrest⟩ :=
      hframe.asked q a ⟨⟨hs.kept, hs.failed⟩, hs.ids, hs.rest⟩ h₁
    exact ⟨hk, hids, hf, hrest⟩

/-- One batch is done, and the others are as they were. -/
theorem RowProved.preparing {rest : List ChargeBatch}
    (hv : RowProved deps m (fun h w => K h w ∧ FailedProved deps h old) old batch v)
    (hrest : ∀ b ∈ rest, b ∈ old ∧ b.id ≠ batch.id) : Holds deps m (Preparing deps K rest) v := by
  refine Holds.mono hv fun ⟨⟨hk, hold⟩, row, honly, hid, hproved⟩ =>
    ⟨hk, honly.keyed, fun row' hrow' hidentity => ?_, fun b hb => ?_⟩
  · by_cases heq : row'.id = row.id
    · rwa [honly.keyed.eq hrow' honly.mem heq]
    · exact hold row' ((honly.others row' heq).1 hrow') hidentity
  · obtain ⟨hmem, hne⟩ := hrest b hb
    exact (honly.others b (hid ▸ hne)).2 hmem

/-- The note of an error on a batch. -/
theorem wp_noteBatch (hK : Kept K) (hv : RowProved deps m K old batch v) {code : ErrorCode}
    {Q : Unit → View ChargePass World Reply Failure → Prop}
    (hQ : ∀ v', RowProved deps m K old batch v' → Q () v')
    (hE : ∀ e v', RowProved deps m K old batch v' → E e v') :
    Routine.wp (chargeDiscipline O deps)
      (transaction (updateBatch batch.id fun row => { row with errorCode := some code }))
      Q E v := by
  obtain ⟨hk, row, honly, hid, hproved⟩ := hv.frame
  let f (row : ChargeBatch) : ChargeBatch := { row with errorCode := some code }
  have hK' := hK.and (kept_log fun h e (hp : row.Proved deps h) => hp.cons e)
  have hnoted : ∀ v', RowIs deps m (fun h w => K h w ∧ row.Proved deps h) old (f row) v' →
      RowProved deps m K old batch v' := fun v' hv' =>
    Holds.mono hv' fun hr => ⟨hr.1.1, f row, hr.2, hid, hr.1.2⟩
  have hrow : RowIs deps m (fun h w => K h w ∧ row.Proved deps h) old row v :=
    Holds.mono hv fun _ => ⟨⟨hk, hproved⟩, honly⟩
  refine loud_transaction (f := f) hK' hrow (fun _ => rfl) ?_
    (fun v' hv' => hQ v' (hnoted v' hv')) ?_
  · intro w db _ _ _ _ ht
    obtain rfl := updateBatch_ok ht
    rw [hid]
    exact ⟨.note, rfl, .of_eq rfl rfl⟩
  · rintro e v' (hv' | hv')
    · exact hE e v' (Holds.mono hv' fun hr => ⟨hr.1.1, row, hr.2, hid, hr.1.2⟩)
    · exact hE e v' (hnoted v' hv')

theorem wp_attempt {μ α : Type} {D : Discipline World Reply Failure} {p : Worker μ α}
    {v : View μ World Reply Failure} {Q : Except ErrorCode α → View μ World Reply Failure → Prop}
    {E : Failure → View μ World Reply Failure → Prop}
    (hp : Routine.wp D p (fun a v => Q (.ok a) v) (fun e v => Q (.error e.code) v) v) :
    Routine.wp D (attempt p) Q E v :=
  (Routine.wp_tryCatch _ _).2 ((Routine.wp_bind _ _).2 hp)

theorem wp_sendingEnabled (hR : Framed R) (hv : Holds deps m R v) {run : ChargeRun}
    {Q : Bool → View ChargePass World Reply Failure → Prop}
    (hQ : ∀ enabled v', Holds deps m R v' → (enabled = true → run.trigger = .auto →
      SawAutomatic deps.identity v'.hist) → Q enabled v')
    (hE : ∀ e v', Holds deps m R v' → E e v') :
    Routine.wp (chargeDiscipline O deps) (sendingEnabled run deps) Q E v := by
  unfold sendingEnabled
  refine Routine.wp_ite (fun _ => ?_)
    fun hmanual => hQ true v hv fun _ hauto => absurd hauto hmanual
  refine (Routine.wp_bind _ _).2 (quiet_select hR.ran hv (fun w _ hv₁ => ?_) hE)
  split
  · exact hE _ _ hv₁
  · rename_i settings hfind
    refine hQ _ _ hv₁ fun hon _ => ⟨w, .head _, ?_⟩
    rw [Database.automatic, hfind]
    exact hon

/-- **The unsent batches of a run.** -/
theorem wp_prepareBatches (hK : Kept K) (hck : ∀ h w, K h w → CheckpointKept deps h w)
    (hhead : ∀ h w, K h w → SawHead deps.identity.chainId h head) {run : ChargeRun}
    (hrun : ∀ h w, K h w → RunKnown deps run w) {signer : Address} (batches : List ChargeBatch)
    (failure : Option ErrorCode)
    (hbatches : ∀ b ∈ batches, (b.Unsent ∧ b.identity = deps.identity ∧ b.WellFormed) ∧
      b.runId = run.id)
    (hids : Keyed ChargeBatch.id batches) (hv : Holds deps m (Preparing deps K batches) v)
    {Q : Option ErrorCode → View ChargePass World Reply Failure → Prop}
    (hQ : ∀ failure v', Holds deps m (Preparing deps K []) v' → Q failure v')
    (hE : ∀ e v', Holds deps m (Preparing deps K []) v' → E e v') :
    Routine.wp (chargeDiscipline O deps) (prepareBatches run deps signer head batches failure)
      Q E v := by
  have hstop : ∀ {rest v'}, Holds deps m (Preparing deps K rest) v' →
      Holds deps m (Preparing deps K []) v' := fun hv' =>
    hv'.mono fun hr => { hr with rest := by simp }
  induction batches generalizing v failure with
  | nil => exact hQ failure v hv
  | cons batch rest ih =>
    obtain ⟨⟨hunsent, hidentity, hwf⟩, hrunId⟩ := hbatches batch (.head _)
    have hbatches' := fun b hb => hbatches b (.tail _ hb)
    have hids' : Keyed ChargeBatch.id rest := (List.nodup_cons.1 hids).2
    have hne : ∀ b ∈ rest, b.id ≠ batch.id := fun b hb heq =>
      (List.nodup_cons.1 hids).1 (heq ▸ List.mem_map_of_mem hb)
    have hnext : ∀ {v'} failure, Holds deps m (Preparing deps K rest) v' →
        Routine.wp (chargeDiscipline O deps) (prepareBatches run deps signer head rest failure)
          Q E v' := fun failure hv' => ih failure hbatches' hids' hv'
    unfold prepareBatches
    refine Routine.wp_ite (fun _ => hnext _ ?_) fun _ => ?_
    · exact hv.mono fun hr => { hr with rest := fun b hb => hr.rest b (.tail _ hb) }
    refine (Routine.wp_bind _ _).2 (wp_sendingEnabled (Preparing.framed hK _) hv
      (fun enabled v₁ hv₁ hsending => ?_) fun e v' hv' => hE e v' (hstop hv'))
    refine Routine.wp_ite (fun _ => hQ _ _ (hstop hv₁)) fun henabled => ?_
    -- the table as it is before this batch
    obtain ⟨old, hold⟩ : ∃ old, v₁.shared.db.batches = old := ⟨_, rfl⟩
    let L (h : Log) : Prop := FailedProved deps h old ∧
      (run.trigger = .auto → SawAutomatic deps.identity h)
    have hK' := hK.and (kept_log fun h e (hl : L h) =>
      ⟨hl.1.cons e, fun hauto => (hl.2 hauto).cons e⟩)
    have hmem : batch ∈ old := hold ▸ hv₁.frame.rest batch (.head _)
    have hrow : RowIs deps m (fun h w => K h w ∧ L h) old batch v₁ :=
      hv₁.mono fun hr => ⟨⟨hr.kept, hold ▸ hr.failed, hsending (by simpa using henabled)⟩,
        hold ▸ .refl hr.ids (hold ▸ hmem)⟩
    have hdone : ∀ v', RowProved deps m (fun h w => K h w ∧ L h) old batch v' →
        Holds deps m (Preparing deps K rest) v' := fun v' hv' =>
      (RowProved.mono hv' fun w hk => ⟨hk.1, hk.2.1⟩).preparing fun b hb =>
        ⟨hold ▸ hv₁.frame.rest b (.tail _ hb), hne b hb⟩
    refine (Routine.wp_bind _ _).2 (wp_attempt (wp_prepareBatch hK' (fun h w hk => hck h w hk.1)
      (fun h w hk => hhead h w hk.1) (fun h w hk => hk.2.1 batch hmem hidentity)
      (fun h w hk => hrunId ▸ (hrun h w hk.1).sending hk.2.2) hrow hwf hunsent
      hidentity (fun wait v₂ hv₂ => ?_) fun e v₂ hv₂ => ?_))
    · have hv₂ := hdone v₂ hv₂
      refine (Routine.wp_bind _ _).2 (quiet_modify hv₂ (fun _ => by exact ⟨rfl, rfl, rfl, rfl⟩)
        fun v₃ hv₃ => ?_)
      refine (Routine.wp_bind _ _).2 (Routine.wp_get.2 ?_)
      exact Routine.wp_ite (fun _ => hQ _ _ (hstop hv₃)) fun _ => hnext _ hv₃
    · refine (Routine.wp_bind _ _).2 (wp_noteBatch hK' hv₂ (fun v₃ hv₃ => ?_)
        fun e v' hv' => hE e v' (hstop (hdone v' hv')))
      exact Routine.wp_ite (fun _ => hnext _ (hdone v₃ hv₃)) fun _ => hQ _ _ (hstop (hdone v₃ hv₃))

/-! ### A run -/

/-- Between two runs of the loop. -/
def Looping (deps : ChargeDependencies) (K : Log → World → Prop) (h : Log) (w : World) : Prop :=
  K h w ∧ FailedProved deps h w.db.batches

theorem Looping.framed (hK : Kept K) : Framed (Looping deps K) :=
  hK.framed.and (framed_failed deps)

/-- The clicks of a run become batches that were never sent. -/
theorem wp_reserveRun (hK : Kept K) {run : ChargeRun} (hrun : ∀ h w, K h w → RunKnown deps run w)
    (hv : Holds deps m (Looping deps K) v) {settings : ChargeSettings}
    {Q : Unit → View ChargePass World Reply Failure → Prop}
    (hQ : ∀ v', Holds deps m (Looping deps K) v' → Q () v')
    (hE : ∀ e v', Holds deps m (Looping deps K) v' → E e v') :
    Routine.wp (chargeDiscipline O deps) (reserveRun run settings deps head) Q E v := by
  have hR : Framed (Looping deps K) := Looping.framed hK
  have hstay : ∀ v₁ w, Holds deps m (Looping deps K) v₁ → ChargeRely O.forest v₁.shared w →
      Holds deps m (Looping deps K) (v₁.ran w w) := fun v₁ w hv₁ hrely =>
    hv₁.ran (hR.ran hv₁.frame hrely.quiet (.refl w))
  unfold reserveRun
  refine (Routine.wp_bind _ _).2 (quiet_ask hR hv (fun _ _ _ => by trivial)
    (fun (random : ℕ → Id) w hv₁ _ => ?_) hE)
  refine (Routine.wp_bind _ _).2 (wp_transaction (fun w hrely _ => hE _ _ (hstay _ w hv₁ hrely))
    (fun w₂ ids db hrely hinv ht => ?_) fun w e hrely _ _ => hE _ _ (hstay _ w hv₁ hrely))
  have hwrite : ChargeWrite O.ext deps (v.asked w .random (.ok random)).hist w₂ (w₂.withDb db) :=
    .reserve (((hrun _ _ hv₁.frame.1).step hrely.quiet.runs).imp fun _ hr =>
      ⟨hr.1, hr.2.1, hr.2.2.1⟩) ht
  obtain ⟨db₁, f, hres, hf, rfl⟩ := reserveRunTx_ok ht
  obtain ⟨htables, ⟨new, hnew, hfresh⟩, -⟩ := hres.reserved
  have hsettings : (db₁.mapRun run.id f).settings = w₂.db.settings := by
    rw [htables]
    rfl
  have hruns : db₁.runs = w₂.db.runs := by
    rw [htables]
    rfl
  have hcalm : Calm w₂ (w₂.withDb (db₁.mapRun run.id f)) := by
    refine ⟨fun _ => by unfold Database.checkpoint; rw [World.withDb_db, hsettings], ?_⟩
    change RunsStep _ (updateWhere _ _ db₁.runs)
    rw [hruns]
    exact .update fun r => ⟨(hf r).1, (hf r).2.1, (hf r).2.2.1⟩
  have hfailed : FailedProved deps (v.asked w .random (.ok random)).hist db₁.batches := by
    intro row hrow hidentity
    rw [hnew] at hrow
    obtain hrow | hrow := List.mem_append.1 hrow
    · -- a batch that is taken over only changes its run
      have hold : FailedProved deps _ w₂.db.batches := hrely.batches.symm ▸ hv₁.frame.2
      obtain ⟨hrow, -⟩ | ⟨b, hb, -, rfl⟩ := mem_updateWhere_cases hrow
      · exact hold row hrow hidentity
      · exact hold b hb hidentity
    · obtain hs | hs := (hfresh row hrow).status <;> simp [ChargeBatch.Proved, hs]
  have hv₂ : Holds deps m (Looping deps K)
      ((v.asked w .random (.ok random)).ran w₂ (w₂.withDb (db₁.mapRun run.id f))) :=
    hv₁.ran ⟨hK.ran hv₁.frame.1 hrely.quiet.calm hcalm, hfailed.cons _⟩
  refine ⟨hwrite, ?_, hE _ _ hv₂⟩
  refine (Routine.wp_bind _ _).2 (Routine.wp_forIn (fun _ _ v' => Holds deps m (Looping deps K) v')
    (fun runId rest _ v₃ hv₃ => ?_) (fun _ v' hv' => hQ v' hv') hv₂)
  exact (Routine.wp_bind _ _).2 (wp_refreshRun hR hv₃ (fun v₄ hv₄ => hv₄) hE)

/-- As long as nothing has blocked the pass, its reconciliation section has gone through. -/
def LoopFrame (deps : ChargeDependencies) (runs : List ChargeRun) (m : ChargePass) (h : Log)
    (w : World) : Prop :=
  CheckpointKept deps h w ∧ (∀ run ∈ runs, RunKnown deps run w) ∧
    (m.blocked = none → SawHead deps.identity.chainId h m.head ∧ FailedProved deps h w.db.batches)

theorem LoopFrame.framed (deps : ChargeDependencies) (runs : List ChargeRun) (m : ChargePass) :
    Framed (LoopFrame deps runs m) :=
  kept_checkpoint.framed.and ((kept_runs runs).framed.and (((framed_log fun _ e hs =>
    hs.cons e).and (framed_failed deps)).imp _))

/-- The state between two runs of the loop. -/
def LoopState (deps : ChargeDependencies) (runs : List ChargeRun)
    (v : View ChargePass World Reply Failure) : Prop :=
  ∃ m, Holds deps m (LoopFrame deps runs m) v

/-- The batches that are selected for a run. -/
theorem selected_batches {w : World} (hw : Ledger w.db) {run : ChargeRun}
    (hrun : RunKnown deps run w) {b : ChargeBatch} (hb : b ∈ w.db.batches.filter fun row =>
      row.runId = run.id ∧ (row.status = .prepared ∨ row.status = .failed)) :
    b.Unsent ∧ b.identity = deps.identity ∧ b.WellFormed := by
  obtain ⟨hmem, hp⟩ := List.mem_filter.1 hb
  simp only [decide_eq_true_eq] at hp
  obtain ⟨r, hr, hin⟩ := hw.run b hmem
  obtain ⟨row, hrow, hid, hidentity, -⟩ := hrun
  obtain rfl := hw.runIds.eq hr hrow (hin.id.trans (hp.1.trans hid.symm))
  exact ⟨hp.2, hin.identity.symm.trans hidentity, hw.batch b hmem⟩

/-- **A run of the loop.** -/
theorem wp_processRun {runs : List ChargeRun} {run : ChargeRun} (hmem : run ∈ runs)
    (hv : LoopState deps runs v) {settings : ChargeSettings}
    {Q : Unit → View ChargePass World Reply Failure → Prop}
    (hQ : ∀ v', LoopState deps runs v' → Q () v') (hE : ∀ e v', E e v') :
    Routine.wp (chargeDiscipline O deps) (processRun deps settings run) Q E v := by
  obtain ⟨m, hv⟩ := hv
  unfold processRun
  refine Routine.wp_ite (fun _ => hQ v ⟨m, hv⟩) fun _ => ?_
  refine (Routine.wp_bind _ _).2 (Routine.wp_get.2 ?_)
  split
  · rename_i signer hblocked _
    have hready := hv.frame.2.2 (hv.memory.blocked ▸ hblocked)
    -- from here on nothing but the loop itself writes the batches
    let K (h : Log) (w : World) : Prop :=
      (CheckpointKept deps h w ∧ ∀ run ∈ runs, RunKnown deps run w) ∧
        SawHead deps.identity.chainId h m.head
    have hK : Kept K := (kept_checkpoint.and (kept_runs runs)).and
      (kept_log fun h e (hs : SawHead deps.identity.chainId h m.head) => hs.cons e)
    have hR : Framed (Looping deps K) := Looping.framed hK
    have hv : Holds deps m (Looping deps K) v := hv.mono fun hr =>
      ⟨⟨⟨hr.1, hr.2.1⟩, hready.1⟩, hready.2⟩
    have hend : ∀ v', Holds deps m (Looping deps K) v' → LoopState deps runs v' := fun v' hv' =>
      ⟨m, hv'.mono fun hr => ⟨hr.1.1.1, hr.1.1.2, fun _ => ⟨hr.1.2, hr.2⟩⟩⟩
    rw [hv.memory.head]
    refine (Routine.wp_bind _ _).2 (wp_reserveRun hK (fun h w hk => hk.1.2 run hmem) hv
      (fun v₁ hv₁ => ?_) fun e v' _ => hE e v')
    refine (Routine.wp_bind _ _).2 (quiet_select hR.ran hv₁ (fun w hinv hv₂ => ?_)
      fun e v' _ => hE e v')
    have hbatches := fun b hb => And.intro
      (selected_batches hinv.ledger (hv₂.frame.1.1.2 run hmem) (b := b) hb)
      (of_decide_eq_true (List.mem_filter.1 hb).2).1
    refine (Routine.wp_bind _ _).2 (wp_prepareBatches hK (fun _ _ hk => hk.1.1) (fun _ _ hk => hk.2)
      (fun _ _ hk => hk.1.2 run hmem) _ none hbatches (hinv.ledger.batchIds.filter _)
      (hv₂.mono fun hr => ?_)
      (fun failure v₃ hv₃ => ?_) fun e v' _ => hE e v')
    · exact ⟨hr.1, hinv.ledger.batchIds, hr.2, fun b hb => (List.mem_filter.1 hb).1⟩
    have hv₃ : Holds deps m (Looping deps K) v₃ := hv₃.mono fun hr => ⟨hr.kept, hr.failed⟩
    refine (Routine.wp_bind _ _).2 (wp_refreshRun hR hv₃ (fun v₄ hv₄ => ?_) fun e v' _ => hE e v')
    refine Routine.wp_ite (fun _ => (Routine.wp_modify _).2 (hQ _ ?_)) fun _ => hQ _ (hend _ hv₄)
    refine ⟨{ m with blocked := failure }, ?_⟩
    exact (hv₄.mono fun hr => ⟨hr.1.1.1, hr.1.1.2, fun _ => ⟨hr.1.2, hr.2⟩⟩).withMemory rfl
      ⟨rfl, hv₄.memory.head, hv₄.memory.checkpoint⟩
  · refine quiet_transaction (LoopFrame.framed deps runs m).ran hv ?_
      (fun _ _ _ _ _ hv₁ => hQ _ ⟨m, hv₁⟩) fun e v' _ => hE e v'
    intro w _ db _ _ _ ht
    obtain rfl := updateRun_ok ht
    exact ⟨.runStatus (fun _ => ⟨rfl, rfl, rfl, rfl⟩) fun _ => .inl rfl,
      quiet_mapRun w run.id fun _ => ⟨rfl, rfl, rfl⟩⟩

end

end Market

end PreCommunity
