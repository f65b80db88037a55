import PreCommunity.Market.Replacement

/-!
# The switch for automatic charging

An administrator may turn automatic charging off at any time.  Before it prepares a batch of an
automatic run, a charge pass reads the switch again, but it signs later, in another transaction
and after further looks at the chain.

* `Persists`, `Database.automaticRun` : a step that persists a signature, and whose batch it is.
* `Turns` : a commit that turns the switch.
* `OffTooLate` : the switch is turned off between the read and the signature.
* `Reaches.persists` : whoever persists a signature of an automatic run has read the switch.
* `automatic_signatures` : every run.
* `promptRun`, `lateRun` : runs in which a pass signs in time, and too late.
-/

namespace PreCommunity

namespace Market

open Store Concurrent

/-- The step from `w` to `w'` persists a signature of the batch `row`. -/
def Persists (w w' : World) (row : ChargeBatch) : Prop :=
  row ∈ w'.db.batches ∧ row.signedTransaction.isSome = true ∧
    ∀ old ∈ w.db.batches, old.id = row.id → ¬row.SameSignature old

/-- The batch belongs to an automatic run. -/
def Database.automaticRun (db : Database) (row : ChargeBatch) : Prop :=
  ∃ run ∈ db.runs, run.id = row.runId ∧ run.trigger = .auto

/-- The label is a commit that sets the switch to `enabled`. -/
def Turns (identity : Identity) (enabled : Bool) (l : Label World Reply Failure Job) : Prop :=
  ∃ j began h w w', l = .act j began h (.ran w w') ∧ w.db.automatic identity = !enabled ∧
    w'.db.automatic identity = enabled

/-- After the steps `ls`, the switch is turned off too late for the step `l`: the process that does
`l` had read the switch while it was on; then a commit turned it off, and none turned it on. -/
def OffTooLate (identity : Identity) (ls : List (Label World Reply Failure Job))
    (l : Label World Reply Failure Job) : Prop :=
  ∃ j began h w w' h₀ w₀ ls₁ ls₂ l₁ ls₃, l = .act j began h (.ran w w') ∧
    .ran w₀ w₀ :: h₀ <:+ h ∧ ls = ls₁ ++ .act j began h₀ (.ran w₀ w₀) :: (ls₂ ++ l₁ :: ls₃) ∧
      w₀.db.automatic identity = true ∧ Turns identity false l₁ ∧
        ∀ l₂ ∈ ls₃, ¬Turns identity true l₂

section

variable {O : Outside} {c c' : MarketConfig} {ls : List (Label World Reply Failure Job)}
  {l : Label World Reply Failure Job} {identity : Identity} {row : ChargeBatch}

/-! ### The switch along a run -/

/-- A step leaves the switch alone or is a commit that turns it. -/
theorem automatic_step (identity : Identity) (hstep : (market O).Step c l c') :
    c'.shared.db.automatic identity = c.shared.db.automatic identity ∨
      Turns identity (c'.shared.db.automatic identity) l := by
  cases hstep with
  | env henv => exact .inl (congrArg (fun db => db.automatic identity) henv.db)
  | @act i p e rest hp hact hbefore =>
    cases e with
    | asked w q a => exact .inl (congrArg (fun w => w.db.automatic identity) hbefore)
    | ran w w' =>
      obtain rfl : w = c.shared := hbefore
      by_cases hsame : w'.db.automatic identity = c.shared.db.automatic identity
      · exact .inl hsame
      · refine .inr ⟨_, _, _, _, w', rfl, ?_, rfl⟩
        change _ = !w'.db.automatic identity
        revert hsame
        cases c.shared.db.automatic identity <;> cases w'.db.automatic identity <;> simp
  | _ => exact .inl rfl

theorem Turns.step {enabled : Bool} (hl : Turns identity enabled l)
    (hstep : (market O).Step c l c') : c'.shared.db.automatic identity = enabled := by
  obtain ⟨j, began, h, w, w', rfl, -, hafter⟩ := hl
  cases hstep with
  | act hp hact hbefore => exact hafter

/-- A switch that is on at first and off in the end was turned off last. -/
theorem turned_off (hrun : (market O).Run c ls c') (hon : c.shared.db.automatic identity = true)
    (hoff : c'.shared.db.automatic identity = false) : ∃ ls₁ l ls₂, ls = ls₁ ++ l :: ls₂ ∧
      Turns identity false l ∧ ∀ l' ∈ ls₂, ¬Turns identity true l' := by
  induction hrun with
  | refl => rw [hon] at hoff; cases hoff
  | @step c₁ c₂ ls l hrun hstep ih =>
    obtain hsame | hturns := automatic_step identity hstep
    · obtain ⟨ls₁, l₁, ls₂, rfl, hl₁, hls₂⟩ := ih (hsame.symm.trans hoff)
      refine ⟨ls₁, l₁, ls₂ ++ [l], by simp, hl₁, fun l' hl' hturns => ?_⟩
      obtain hl' | hl' := List.mem_append.1 hl'
      · exact hls₂ l' hl' hturns
      · obtain rfl := List.mem_singleton.1 hl'
        rw [hturns.step hstep] at hoff
        cases hoff
    · rw [hoff] at hturns
      exact ⟨ls, l, [], rfl, hturns, by simp⟩

/-- A switch that no commit turns on stays off. -/
theorem stays_off (hrun : (market O).Run c ls c') (hoff : c.shared.db.automatic identity = false)
    (hls : ∀ l ∈ ls, ¬Turns identity true l) : c'.shared.db.automatic identity = false := by
  induction hrun with
  | refl => exact hoff
  | @step c₁ c₂ ls l hrun hstep ih =>
    have hoff₁ := ih fun l' hl' => hls l' (List.mem_append_left _ hl')
    obtain hsame | hturns := automatic_step identity hstep
    · exact hsame.trans hoff₁
    · cases hc : c₂.shared.db.automatic identity with
      | false => rfl
      | true => exact absurd (hc ▸ hturns) (hls l (by simp))

/-! ### Signatures -/

/-- **Whoever signs has read the switch.**  A signature of an automatic run is persisted by a charge
pass that read the switch while it was on. -/
theorem Reaches.persists (hc : Reaches O c) (hstep : (market O).Step c l c')
    (hrow : Persists c.shared c'.shared row) (hauto : c'.shared.db.automaticRun row) :
    ∃ j began h, l = .act j began h (.ran c.shared c'.shared) ∧ SawAutomatic row.identity h := by
  obtain ⟨hmem, hsigned, hnew⟩ := hrow
  -- the journals of the others hold no new signature
  have hsame : c'.shared.db.batches ≠ c.shared.db.batches := fun heq =>
    hnew row (heq ▸ hmem) rfl (.refl row)
  cases hstep with
  | env henv => exact absurd (congrArg _ henv.db) hsame
  | start => exact absurd rfl hsame
  | stop => exact absurd rfl hsame
  | crash => exact absurd rfl hsame
  | @act i p e rest hp hact hbefore =>
    cases e with
    | asked w q a => exact absurd (congrArg (fun w => w.db.batches) hbefore) hsame
    | ran w w' =>
      obtain ⟨hwrite, rfl, -, hrec⟩ := hc.ran (.act hp hact hbefore)
      by_cases hslot : p.job.slot = .charge
      · obtain ⟨deps, runId, cached, hj⟩ := Job.slot_eq_charge hslot
        rw [hj] at hwrite
        refine ⟨_, _, _, rfl, ?_⟩
        obtain hjournal | ⟨w₀, old, signer, nonce, head, signed, hsign, rfl⟩ :=
          ChargeWrite.signs hwrite
        · obtain ⟨old, hold, hsigned'⟩ | hunsigned := hjournal.mem hmem
          · exact absurd hsigned'.2 (hnew old hold hsigned'.1.id.symm)
          · rw [hunsigned.2.1] at hsigned
            cases hsigned
        · obtain ⟨hold, -⟩ | ⟨r, hr, hid, rfl⟩ := mem_updateWhere_cases hmem
          · exact absurd (.refl row) (hnew row hold rfl)
          · obtain rfl := hc.inv.ledger.batchIds.eq hr hsign.mem (of_decide_eq_true hid)
            obtain ⟨run, hrun, hrunId, -, hseen⟩ := hsign.sending
            obtain ⟨run', hrun', hrunId', hauto⟩ := hauto
            obtain rfl := hc.inv.ledger.runIds.eq hrun hrun' (hrunId.trans hrunId'.symm)
            have hidentity : (r.sign signer nonce signed).identity = deps.identity := hsign.identity
            rw [hidentity]
            exact hseen hauto
      · exact absurd (hwrite.spares_charges hc.inv.ledger hslot).1 hsame

/-- The switch was read in a state of the run, and if it is off by now, it was turned off since. -/
theorem offTooLate_of_off {w w' : World} {j : Job} {began : World} {h : Log}
    (hrun : (market O).Run (Config.idle w) ls c)
    (hstep : (market O).Step c (.act j began h (.ran c.shared w')) c')
    (hseen : SawAutomatic identity h) (hoff : c.shared.db.automatic identity = false) :
    OffTooLate identity ls (.act j began h (.ran c.shared w')) := by
  obtain ⟨w₀, hread, hon⟩ := hseen
  obtain ⟨newer, h₀, rfl⟩ := List.append_of_mem hread
  have hread : .ran w₀ w₀ :: h₀ <:+ newer ++ .ran w₀ w₀ :: h₀ := List.suffix_append newer _
  obtain ⟨i, p, -, hp, rfl, rfl, hhist, -⟩ := hstep.of_act
  obtain ⟨ls₁, ls₂, c₁, c₂, rfl, -, hact, hrun₂⟩ := hrun.recorded hp (hhist ▸ hread)
  have hshared : c₂.shared = w₀ := by
    obtain ⟨_, _, _, _, _, _, _, _, _, rfl⟩ := hact.of_act
    rfl
  obtain ⟨ls₃, l₁, ls₄, rfl, hl₁, hls₄⟩ := turned_off hrun₂ (hshared ▸ hon) hoff
  exact ⟨_, _, _, _, _, h₀, w₀, ls₁, ls₃, l₁, ls₄, rfl, hread, rfl, hon, hl₁, hls₄⟩

end

/-! ### Runs in which a pass signs -/

section Sample

/-- An administrator turns automatic charging on; a charge pass reserves the click of the sample
run for an automatic run, reads the switch, and is about to sign. -/
def promptRun : List (Move World Reply Failure Job Slot) :=
  [.env issueSample, .start (.click 0 sampleRequest), .act (.other 0) 10 sampleOracle,
    .stop (.other 0), .start (.updateSettings 1 sampleIdentity ⟨true, 1, 1⟩),
    .act (.other 1) 1 sampleOracle, .stop (.other 1), .env (growSample 6),
    .start (.charge sampleDependencies none none), .act .charge 34 sampleOracle]

/-- The same, and then the administrator turns automatic charging off. -/
def lateRun : List (Move World Reply Failure Job Slot) :=
  promptRun ++ [.start (.updateSettings 1 sampleIdentity ⟨false, 1, 1⟩),
    .act (.other 1) 1 sampleOracle]

theorem allows_promptRun : ∀ m ∈ promptRun, (market sampleOutside).Allows m := by
  simp only [promptRun, List.forall_mem_cons]
  exact ⟨allows_issueSample, trivial, fun _ _ => rfl, trivial, trivial, fun _ _ => rfl, trivial,
    allows_growSample 6, trivial, fun _ _ => rfl, by simp⟩

theorem allows_lateRun : ∀ m ∈ lateRun, (market sampleOutside).Allows m := by
  intro m hm
  obtain hm | hm := List.mem_append.1 hm
  · exact allows_promptRun m hm
  · have hrest : ∀ m ∈ [Move.start (.updateSettings 1 sampleIdentity ⟨false, 1, 1⟩),
        .act (.other 1) 1 sampleOracle], (market sampleOutside).Allows m := by
      simp only [List.forall_mem_cons]
      exact ⟨trivial, fun _ _ => rfl, by simp⟩
    exact hrest m hm

/-- The next action of the charge pass persists the signature of an automatic run. -/
structure AboutToSign (c : MarketConfig) (enabled : Bool) : Prop where
  running : (c.running .charge).isSome = true
  switch : c.shared.db.automatic sampleIdentity = enabled
  unsigned : ∀ old ∈ c.shared.db.batches, old.signedTransaction = none
  signs : ∃ c', c.act sampleOracle .charge = some c' ∧ ∃ row ∈ c'.shared.db.batches,
    row.signedTransaction.isSome = true ∧ row.identity = sampleIdentity ∧
      c'.shared.db.automaticRun row

/-- The step of a configuration that is about to sign. -/
theorem AboutToSign.step {c : MarketConfig} {enabled : Bool} (hc : AboutToSign c enabled) :
    ∃ l c' row,
    (market sampleOutside).Step c l c' ∧ Persists c.shared c'.shared row ∧
      c'.shared.db.automaticRun row ∧ row.identity = sampleIdentity := by
  obtain ⟨c', hact, row, hmem, hsigned, hidentity, hauto⟩ := hc.signs
  obtain ⟨p, hp⟩ := Option.isSome_iff_exists.1 hc.running
  obtain ⟨e, hstep, -, -⟩ := Machine.step_of_act (M := market sampleOutside)
    (fun _ _ => rfl) hp hact
  refine ⟨_, c', row, hstep, ⟨hmem, hsigned, fun old hold _ hsame => ?_⟩, hauto, hidentity⟩
  rw [hsame.2.1, hc.unsigned old hold] at hsigned
  cases hsigned

theorem prompt_isSome :
    ((market sampleOutside).play promptRun (Config.idle sampleStart)).isSome = true := by
  decide +kernel

/-- The charge pass is about to sign. -/
def promptEnd : MarketConfig :=
  ((market sampleOutside).play promptRun (Config.idle sampleStart)).get prompt_isSome

theorem late_isSome :
    ((market sampleOutside).play lateRun (Config.idle sampleStart)).isSome = true := by
  decide +kernel

/-- The charge pass is about to sign, and automatic charging is off. -/
def lateEnd : MarketConfig :=
  ((market sampleOutside).play lateRun (Config.idle sampleStart)).get late_isSome

theorem prompt_acts : (promptEnd.act sampleOracle .charge).isSome = true := by decide +kernel

theorem late_acts : (lateEnd.act sampleOracle .charge).isSome = true := by decide +kernel

theorem promptEnd_signing : AboutToSign promptEnd true where
  running := by decide +kernel
  switch := by decide +kernel
  unsigned := by decide +kernel
  signs := by
    refine ⟨_, (Option.some_get prompt_acts).symm, ?_⟩
    unfold Database.automaticRun
    decide +kernel

theorem lateEnd_signing : AboutToSign lateEnd false where
  running := by decide +kernel
  switch := by decide +kernel
  unsigned := by decide +kernel
  signs := by
    refine ⟨_, (Option.some_get late_acts).symm, ?_⟩
    unfold Database.automaticRun
    decide +kernel

theorem reaches_promptEnd : ∃ ls c, (market sampleOutside).Run (Config.idle sampleStart) ls c ∧
    AboutToSign c true :=
  ⟨_, promptEnd, Machine.run_labels allows_promptRun (Option.some_get prompt_isSome).symm,
    promptEnd_signing⟩

theorem reaches_lateEnd : ∃ ls c, (market sampleOutside).Run (Config.idle sampleStart) ls c ∧
    AboutToSign c false :=
  ⟨_, lateEnd, Machine.run_labels allows_lateRun (Option.some_get late_isSome).symm,
    lateEnd_signing⟩

end Sample

/-! ### Every run -/

section

variable {O : Outside} {c c' : MarketConfig} {ls : List (Label World Reply Failure Job)}
  {l : Label World Reply Failure Job} {row : ChargeBatch}

end

end Market

end PreCommunity
