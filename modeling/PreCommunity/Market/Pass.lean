import PreCommunity.Market.Section

/-!
# A charge pass

The sections of a charge pass together: the pass keeps to its discipline from every state.

* `wp_report` : the checkpoint is saved when the reconciliation section has gone through.
* `wp_processAdChargeJob` : the pass.
-/

namespace PreCommunity

namespace Market

open Store Concurrent

section

variable {O : Outside} {deps : ChargeDependencies} {m : ChargePass} {R : Log → World → Prop}
  {C : Option (ℕ × Hash)} {v : View ChargePass World Reply Failure}
  {E : Failure → View ChargePass World Reply Failure → Prop}

/-! ### Sections -/

theorem Reconciled.quiet {h : Log} {w w' : World} {block : ℕ} {hash : Hash}
    (hr : Reconciled deps h w block hash) (hq : Quiet w w') : Reconciled deps h w' block hash :=
  ⟨hr.1, fun e he => (hr.2.1 e he).trans (hq.checkpoint _).symm, hq.batches ▸ hr.2.2⟩

theorem Reconciled.cons {h : Log} {w : World} {block : ℕ} {hash : Hash}
    (hr : Reconciled deps h w block hash) (e : Event World Reply Failure)
    (he : e.before.db.checkpoint deps.identity = w.db.checkpoint deps.identity) :
    Reconciled deps (e :: h) w block hash := by
  refine ⟨hr.1.cons e, fun e' he' => ?_, fun row hrow hid hs n hn => ?_⟩
  · obtain rfl | he' := List.mem_cons.1 he'
    · exact he
    · exact hr.2.1 e' he'
  · refine (hr.2.2 row hrow hid hs n hn).imp ?_ ?_
    · exact fun ⟨hash', hhash, hsaw⟩ => ⟨hash', hhash, hsaw.cons e⟩
    · exact fun ⟨w₀, block₀, hash₀, hasked, hrest⟩ => ⟨w₀, block₀, hash₀, .tail _ hasked, hrest⟩

theorem SectionEnd.framed (deps : ChargeDependencies) (C : Option (ℕ × Hash)) (m : ChargePass) :
    Framed (SectionEnd deps C m) := by
  have hframe := (Unsaved.kept deps C).framed.and (((framed_log (P := fun h =>
    SawHead deps.identity.chainId h m.head) fun _ e hs => hs.cons e).and (framed_failed deps)).imp
      (m.blocked = none))
  constructor
  · intro h w w' w'' hs h₁ h₂
    obtain ⟨hu, hr⟩ := hframe.ran ⟨hs.unsaved, hs.ready⟩ h₁ h₂
    refine ⟨hu, hr, fun block hash hm => ?_⟩
    exact (((hs.checkpoint block hash hm).quiet h₁).cons (.ran w' w'') rfl).quiet h₂
  · intro h w w' q a hs h₁
    obtain ⟨hu, hr⟩ := hframe.asked q a ⟨hs.unsaved, hs.ready⟩ h₁
    refine ⟨hu, hr, fun block hash hm => ?_⟩
    exact ((hs.checkpoint block hash hm).quiet h₁).cons (.asked w' q a) rfl

theorem wp_blocking {p : Worker ChargePass Unit}
    {Q : Unit → View ChargePass World Reply Failure → Prop}
    (hp : Routine.wp (chargeDiscipline O deps) p Q
      (fun e v => Q () (v.withMemory { v.memory with blocked := some e.code })) v) :
    Routine.wp (chargeDiscipline O deps) (blocking p) Q E v :=
  (Routine.wp_tryCatch _ _).2 hp

/-- The state after a section. -/
def SectionState (deps : ChargeDependencies) (C : Option (ℕ × Hash))
    (v : View ChargePass World Reply Failure) : Prop :=
  ∃ m, Holds deps m (SectionEnd deps C m) v

/-- A section that was broken off blocks the pass. -/
theorem Holds.broken (hv : Holds deps m R v)
    (hR : R v.hist v.shared → Unsaved deps C v.hist v.shared)
    (hcheckpoint : ∀ block hash, m.reconciliationCheckpoint = some (block, hash) →
      Reconciled deps v.hist v.shared block hash) (code : ErrorCode) :
    SectionState deps C (v.withMemory { v.memory with blocked := some code }) := by
  refine ⟨{ m with blocked := some code }, Holds.withMemory (m := m) ?_ rfl
    ⟨rfl, hv.memory.head, hv.memory.checkpoint⟩⟩
  exact hv.mono fun hr => ⟨hR hr, by rintro ⟨⟩, hcheckpoint⟩

/-- The wallet is unlocked and checked. -/
theorem wp_walletSection (hR : Framed R) (hv : Holds deps m R v) {settings : ChargeSettings}
    {runId : Option Id} {cached : Option WalletBalance}
    {Q : Unit → View ChargePass World Reply Failure → Prop}
    (hQ : ∀ v', Holds deps m R v' → Q () v') (hE : ∀ e v', Holds deps m R v' → E e v') :
    Routine.wp (chargeDiscipline O deps) (walletSection deps settings runId cached) Q E v := by
  unfold walletSection
  refine (Routine.wp_bind _ _).2
    (quiet_ask hR hv (fun _ _ _ => by trivial) (fun _ w hv₁ _ => ?_) hE)
  refine (Routine.wp_bind _ _).2 (quiet_ask hR hv₁ (fun _ _ _ => by trivial)
    (fun (signer : ℕ) w hv₂ _ => ?_) hE)
  refine (Routine.wp_bind _ _).2 (quiet_modify hv₂ (fun _ => by exact ⟨rfl, rfl, rfl, rfl⟩)
    fun v₃ hv₃ => ?_)
  refine (Routine.wp_bind _ _).2 (quiet_ask hR hv₃ (fun _ _ _ => by trivial)
    (fun (operator : ℕ) w hv₄ _ => ?_) hE)
  refine (Routine.wp_bind _ _).2 (quiet_modify hv₄ (fun _ => by exact ⟨rfl, rfl, rfl, rfl⟩)
    fun v₅ hv₅ => ?_)
  refine Routine.wp_ite (fun _ => hE _ _ hv₅) fun _ => ?_
  have hbalance : ∀ balance v', Holds deps m R v' → Routine.wp (chargeDiscipline O deps) (do
      modify fun pass => { pass with balance := some balance }
      if balance = 0 then throw (.blocked .insufficientGas)) Q E v' := fun balance v' hv' =>
    (Routine.wp_bind _ _).2 (quiet_modify hv' (fun _ => by exact ⟨rfl, rfl, rfl, rfl⟩)
      fun v₇ hv₇ => Routine.wp_ite (fun _ => hE _ _ hv₇) fun _ => hQ _ hv₇)
  unfold walletBalance
  split
  · exact hbalance _ _ hv₅
  · exact (Routine.wp_bind _ _).2 (quiet_ask hR hv₅ (fun _ _ _ => by trivial)
      (fun (balance : ℕ) w hv₆ _ => hbalance balance _ hv₆) hE)

/-! ### The report -/

/-- The checkpoint after a report. -/
theorem checkpoint_report {db : Database} {row : ChargeSettings} {pass : ChargePass}
    (hrow : db.settings.find? (fun row => row.identity = deps.identity) = some row) :
    (db.mapSettings deps.identity fun row => row.report deps pass).checkpoint deps.identity =
      pass.reconciliationCheckpoint.or (db.checkpoint deps.identity) := by
  unfold Database.checkpoint Database.mapSettings
  rw [withSettings_settings, find?_updateWhere, hrow]
  · cases hpass : pass.reconciliationCheckpoint with
    | none => simp [ChargeSettings.report, hpass]
    | some checkpoint => simp [ChargeSettings.report, hpass]
  · exact fun _ => rfl

/-- **The report** saves the checkpoint of a section that has gone through. -/
theorem wp_report (hv : Holds deps m (SectionEnd deps C m) v)
    {Q : ChargeSettings → View ChargePass World Reply Failure → Prop}
    (hQ : ∀ settings v', Holds deps m (LoopFrame deps [] m) v' → Q settings v')
    (hE : ∀ e v', E e v') :
    Routine.wp (chargeDiscipline O deps)
      (transaction (saveSettings deps.identity fun row => row.report deps v.memory)) Q E v := by
  refine wp_transaction (fun _ _ _ => hE _ _) (fun w settings db hrely _ ht => ?_)
    fun _ _ _ _ _ => hE _ _
  obtain ⟨rfl, hfind⟩ := saveSettings_ok ht
  have hend := hv.frame
  have hquiet := hrely.quiet
  have hcheckpoint : ∀ block hash, v.memory.reconciliationCheckpoint = some (block, hash) →
      Reconciled deps v.hist w block hash := fun block hash hm =>
    (hend.checkpoint block hash (hv.memory.checkpoint ▸ hm)).quiet hquiet
  refine ⟨.report hcheckpoint, hQ _ _ (hv.ran ?_), hE _ _⟩
  have hbefore : w.db.checkpoint deps.identity = C :=
    (hquiet.checkpoint _).trans hend.unsaved.checkpoint
  obtain ⟨row, hrow⟩ : ∃ row, w.db.settings.find? (fun row => row.identity = deps.identity) =
      some row := by
    simp only [Database.mapSettings, withSettings_settings] at hfind
    rw [find?_updateWhere, Option.map_eq_some_iff] at hfind
    · exact hfind.imp fun _ h => h.1
    · exact fun _ => rfl
  refine ⟨?_, by simp, fun hblocked => ⟨(hend.ready hblocked).1.cons _, ?_⟩⟩
  · cases hm : v.memory.reconciliationCheckpoint with
    | none =>
      refine .inl fun e he => ?_
      rw [World.withDb_db, checkpoint_report hrow, hm, Option.none_or, hbefore]
      obtain rfl | he := List.mem_cons.1 he
      · exact hbefore
      · exact hend.unsaved.logged e he
    | some checkpoint =>
      refine .inr ⟨checkpoint.1, checkpoint.2, ?_, (hcheckpoint _ _ hm).1.cons _⟩
      rw [World.withDb_db, checkpoint_report hrow, hm, Option.some_or]
  · have hbatches : w.db.batches = v.shared.db.batches := hquiet.batches
    exact (hbatches ▸ (hend.ready hblocked).2).cons _

/-! ### The pass -/

theorem quiet_mapSettings {w : World} {f : ChargeSettings → ChargeSettings}
    (hid : ∀ row, (f row).identity = row.identity)
    (hblock : ∀ row, (f row).reconciliationBlockNumber = row.reconciliationBlockNumber)
    (hhash : ∀ row, (f row).reconciliationBlockHash = row.reconciliationBlockHash) :
    Quiet w (w.withDb (w.db.mapSettings deps.identity f)) :=
  ⟨rfl, rfl, fun identity => checkpoint_mapSettings w.db deps.identity identity hid hblock hhash,
    .refl _⟩

theorem wp_startAutomaticRun {settings : ChargeSettings} {pass : ChargePass} {runId : Option Id}
    {runs : List ChargeRun} (hv : LoopState deps runs v)
    {Q : List ChargeRun → View ChargePass World Reply Failure → Prop}
    (hQ : ∀ runs' v', LoopState deps runs' v' → Q runs' v') (hE : ∀ e v', E e v') :
    Routine.wp (chargeDiscipline O deps) (startAutomaticRun deps settings pass runId runs)
      Q E v := by
  obtain ⟨m, hv⟩ := hv
  have hR := LoopFrame.framed deps runs m
  unfold startAutomaticRun
  refine Routine.wp_ite (fun _ => hQ _ _ ⟨m, hv⟩) fun _ => ?_
  refine (Routine.wp_bind _ _).2 (quiet_select hR.ran hv (fun w _ hv₁ => ?_) fun e v' _ => hE e v')
  refine Routine.wp_ite (fun _ => ?_) fun _ => hQ _ _ ⟨m, hv₁⟩
  refine (Routine.wp_bind _ _).2 (quiet_ask hR hv₁ (fun _ _ _ => by trivial)
    (fun (random : ℕ → Id) w hv₂ _ => ?_) fun e v' _ => hE e v')
  refine (Routine.wp_bind _ _).2 (quiet_transaction hR.ran hv₂ (fun w _ db _ _ _ ht => ?_)
    (fun w _ db _ ht hv₃ => ?_) fun e v' _ => hE e v')
  · obtain ⟨hfresh, rfl⟩ := createRun_ok ht
    exact ⟨.createRun hfresh, rfl, rfl, fun _ => rfl, .add _ _⟩
  · obtain ⟨-, rfl⟩ := createRun_ok ht
    refine hQ _ _ ⟨m, hv₃.mono fun hr => ⟨hr.1, fun run hrun => ?_, hr.2.2⟩⟩
    obtain hrun | hrun := List.mem_append.1 hrun
    · exact hr.2.1 run hrun
    · obtain rfl := List.mem_singleton.1 hrun
      exact ⟨_, List.mem_append_right _ (.head _), rfl, rfl, rfl⟩

/-- The settings are read at the start of a pass, and created if there are none. -/
theorem wp_readSettings (hempty : v.hist = []) (hv : Holds deps m (fun _ _ => True) v)
    {Q : ChargeSettings → View ChargePass World Reply Failure → Prop}
    (hQ : ∀ B C settings v', Holds deps m (fun h w => Standing deps B C h w ∧
      NoHash deps.identity.chainId h) v' → (settings.reconciliationBlockNumber.bind fun block =>
        settings.reconciliationBlockHash.map fun hash => (block, hash)) = C → Q settings v')
    (hE : ∀ e v', E e v') :
    Routine.wp (chargeDiscipline O deps) (transaction do
      modify fun db => db.upsertSettings deps.identity
      let db ← get
      findOrThrow db.settings fun row => row.identity = deps.identity) Q E v := by
  refine wp_transaction (fun _ _ _ => hE _ _) (fun w settings db _ _ ht => ?_)
    fun _ _ _ _ _ => hE _ _
  obtain ⟨_, db₁, hmod, ht⟩ := Tx.bind_ok.1 ht
  obtain rfl := (Tx.modify_ok.1 hmod).symm
  rw [Tx.get_bind] at ht
  obtain ⟨hfind, rfl⟩ := Tx.lift_ok.1 ht
  have hfind := findOrThrow_ok.1 hfind
  have hcheckpoint := checkpoint_upsertSettings w.db deps.identity deps.identity
  refine ⟨.upsertSettings, hQ w.db.batches (w.db.checkpoint deps.identity) settings _
    (hv.ran ⟨⟨?_, upsertSettings_batches _ _, hcheckpoint⟩, ?_⟩) ?_, hE _ _⟩
  · intro e he
    rw [hempty] at he
    obtain rfl := List.mem_singleton.1 he
    exact ⟨rfl, rfl⟩
  · simp [NoHash, hempty, blockHashAnswer]
  · rw [← hcheckpoint, Database.checkpoint, hfind]
    rfl

/-- The part of the pass after the report. -/
theorem wp_afterReport (hv : LoopState deps [] v) {settings : ChargeSettings} {pass : ChargePass}
    {runId : Option Id} {Q : JobResult → View ChargePass World Reply Failure → Prop}
    (hQ : ∀ r v', Q r v') (hE : ∀ e v', E e v') :
    Routine.wp (chargeDiscipline O deps) (do
      for run in pass.reconciledRuns do
        refreshRun run deps.now none
      let runs ← select fun db => db.runs.filter fun run =>
        run.identity = deps.identity ∧ run.status.recoverable ∧ runId.all (· = run.id)
      let runs ← startAutomaticRun deps settings pass runId runs
      for run in runs do
        processRun deps settings run
      let pass ← get
      if pass.waiting ∨ pass.blocked.isSome then
        transaction (updateSettings deps.identity fun row => row.reportEnd pass)
        return pass.result
      else return pass.result) Q E v := by
  obtain ⟨m, hv⟩ := hv
  have hR := LoopFrame.framed deps [] m
  refine (Routine.wp_bind _ _).2 (Routine.wp_forIn (fun _ _ v' =>
    Holds deps m (LoopFrame deps [] m) v') ?_ (fun _ v₁ hv₁ => ?_) hv)
  · exact fun run rest _ v₁ hv₁ => (Routine.wp_bind _ _).2 (wp_refreshRun hR hv₁
      (fun v₂ hv₂ => hv₂) fun e v' _ => hE e v')
  refine (Routine.wp_bind _ _).2 (quiet_select hR.ran hv₁ (fun w _ hv₂ => ?_) fun e v' _ => hE e v')
  have hruns : LoopState deps (w.db.runs.filter fun run => run.identity = deps.identity ∧
      run.status.recoverable ∧ runId.all (· = run.id)) (v₁.ran w w) := by
    refine ⟨m, hv₂.mono fun hr => ⟨hr.1, fun run hrun => ?_, hr.2.2⟩⟩
    obtain ⟨hmem, hp⟩ := List.mem_filter.1 hrun
    exact ⟨run, hmem, rfl, (of_decide_eq_true hp).1, rfl⟩
  refine (Routine.wp_bind _ _).2 (wp_startAutomaticRun hruns (fun runs v₃ hv₃ => ?_) hE)
  refine (Routine.wp_bind _ _).2 (Routine.wp_forIn (fun rest _ v' =>
    LoopState deps runs v' ∧ ∀ run ∈ rest, run ∈ runs) ?_ (fun _ v₄ hv₄ => ?_) ⟨hv₃, fun _ => id⟩)
  · rintro run rest _ v₄ ⟨hv₄, hrest⟩
    exact (Routine.wp_bind _ _).2 (wp_processRun (hrest run (.head _)) hv₄
      (fun v₅ hv₅ => ⟨hv₅, fun run hrun => hrest run (.tail _ hrun)⟩) hE)
  refine (Routine.wp_bind _ _).2 (Routine.wp_get.2 (Routine.wp_ite (fun _ => ?_) fun _ => hQ _ _))
  obtain ⟨⟨m', hv₄⟩, -⟩ := hv₄
  refine (Routine.wp_bind _ _).2 (quiet_transaction (LoopFrame.framed deps runs m').ran hv₄
    (fun w _ db _ _ _ ht => ?_) (fun _ _ _ _ _ _ => hQ _ _) fun e v' _ => hE e v')
  obtain rfl := updateSettings_ok ht
  exact ⟨.reportEnd, quiet_mapSettings (fun _ => rfl) (fun _ => rfl) fun _ => rfl⟩

theorem Holds.start (w : World) : Holds deps .start (fun _ _ => True)
    (⟨.start, [], w⟩ : View ChargePass World Reply Failure) :=
  ⟨by rintro _ ⟨⟩, .refl _, trivial⟩

theorem Standing.silent (deps : ChargeDependencies) (B : List ChargeBatch)
    (C : Option (ℕ × Hash)) :
    Silent fun h w => Standing deps B C h w ∧ NoHash deps.identity.chainId h :=
  fun _ _ _ _ hs h₁ h₂ => ⟨(Standing.framed deps B C).ran hs.1 h₁ h₂, by
    simpa [NoHash, blockHashAnswer] using hs.2⟩

/-- A charge pass up to the end of its reconciliation section. -/
def reconcilePass (ext : External) (deps : ChargeDependencies) : Worker ChargePass Unit := do
  let settings ← transaction do
    modify fun db => db.upsertSettings deps.identity
    let db ← get
    findOrThrow db.settings fun row => row.identity = deps.identity
  convertPendingPrices ext deps.identity deps.now
  reconcileSection deps settings

/-- **A section that goes through** leaves a checkpoint that is reconciled. -/
theorem wp_reconcilePass {w : World} : Routine.wp (chargeDiscipline O deps)
    (reconcilePass O.ext deps) (fun _ v => ∃ C m, m.reconciliationCheckpoint.isSome ∧
      Holds deps m (SectionEnd deps C m) v) (fun _ _ => True) ⟨.start, [], w⟩ := by
  unfold reconcilePass
  refine (Routine.wp_bind _ _).2 (wp_readSettings rfl (Holds.start w)
    (fun B C settings v₁ hv₁ hsettings => ?_) fun _ _ => trivial)
  refine (Routine.wp_bind _ _).2 (wp_convertPendingPrices (Standing.silent deps B C) hv₁
    (fun v₂ hv₂ => ?_) fun _ _ _ => trivial)
  exact wp_reconcileSection rfl hv₂ hsettings (fun m v₃ hm hv₃ => ⟨C, m, hm, hv₃⟩)
    fun _ _ _ _ _ => trivial

/-- **A charge pass keeps to its discipline.** -/
theorem wp_processAdChargeJob {runId : Option Id} {cached : Option WalletBalance} {w : World} :
    Routine.wp (chargeDiscipline O deps) (processAdChargeJob O.ext deps runId cached)
      (fun _ _ => True) (fun _ _ => True) ⟨.start, [], w⟩ := by
  unfold processAdChargeJob
  refine (Routine.wp_bind _ _).2 (wp_readSettings rfl (Holds.start w)
    (fun B C settings v₁ hv₁ hsettings => ?_) fun _ _ => trivial)
  refine (Routine.wp_bind _ _).2 (wp_convertPendingPrices (Standing.silent deps B C) hv₁
    (fun v₂ hv₂ => ?_)
    fun _ _ _ => trivial)
  -- the two sections, either of which may block the pass
  have hreport : ∀ v', SectionState deps C v' → Routine.wp (chargeDiscipline O deps) (do
      let pass ← get
      let settings ← transaction (saveSettings deps.identity fun row => row.report deps pass)
      for run in pass.reconciledRuns do
        refreshRun run deps.now none
      let runs ← select fun db => db.runs.filter fun run =>
        run.identity = deps.identity ∧ run.status.recoverable ∧ runId.all (· = run.id)
      let runs ← startAutomaticRun deps settings pass runId runs
      for run in runs do
        processRun deps settings run
      let pass ← get
      if pass.waiting ∨ pass.blocked.isSome then
        transaction (updateSettings deps.identity fun row => row.reportEnd pass)
        return pass.result
      else return pass.result) (fun _ _ => True) (fun _ _ => True) v' := by
    rintro v' ⟨m, hv'⟩
    refine (Routine.wp_bind _ _).2 (Routine.wp_get.2 ?_)
    exact (Routine.wp_bind _ _).2 (wp_report hv' (fun _ v'' hv'' => wp_afterReport ⟨m, hv''⟩
      (fun _ _ => trivial) fun _ _ => trivial) fun _ _ => trivial)
  have hwallet : ∀ v', SectionState deps C v' → Routine.wp (chargeDiscipline O deps)
      (unlessBlocked (blocking (walletSection deps settings runId cached)))
      (fun _ v => SectionState deps C v) (fun _ _ => True) v' := by
    rintro v' ⟨m, hv'⟩
    have hR := SectionEnd.framed deps C m
    refine (Routine.wp_bind _ _).2 (Routine.wp_get.2 (Routine.wp_ite (fun _ => ?_)
      fun _ => ⟨m, hv'⟩))
    exact wp_blocking (wp_walletSection hR hv' (fun v'' hv'' => ⟨m, hv''⟩) fun e v'' hv'' =>
      hv''.broken SectionEnd.unsaved hv''.frame.checkpoint e.code)
  refine (Routine.wp_bind _ _).2 (wp_blocking (wp_reconcileSection rfl hv₂ hsettings
    (fun m v₃ _ hv₃ => ?_) fun e m v₃ hm hv₃ => ?_))
  · exact (Routine.wp_bind _ _).2 (Routine.wp_mono (hwallet _ ⟨m, hv₃⟩)
      (fun _ v₄ hv₄ => hreport v₄ hv₄) fun _ _ _ => trivial)
  · have hbroken := hv₃.broken id (by simp [hm]) e.code
    exact (Routine.wp_bind _ _).2 (Routine.wp_mono (hwallet _ hbroken)
      (fun _ v₄ hv₄ => hreport v₄ hv₄) fun _ _ _ => trivial)

end

end Market

end PreCommunity
