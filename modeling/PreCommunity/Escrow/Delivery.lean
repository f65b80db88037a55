import PreCommunity.Escrow.Conservation

/-!
# Reservations over whole runs

What a row of the payouts says never changes, and a reservation of the service is used up in one
way only: it is submitted to the Safe, or it is given up.

* `Database.Submitted`, `Database.GivenUp` : the two ways.
* `Write.proposals` : only a claim adds a proposal.
* `Write.consumed` : how a reservation of the service is used up.
* `payout_rows_follow` : the rows of two times.
* `expired_or_submitted` : what happened first decides.
-/

namespace PreCommunity

namespace Escrow

open Store Concurrent

namespace Database

variable (db : Database)

/-- The reservation has a proposal. -/
def Submitted (intentId : Id) : Prop := ∃ row ∈ db.payoutProposals, row.intentId = intentId

/-- The reservation is there without any proposal, and its payout failed. -/
def GivenUp (intent : SafePayoutIntent) : Prop :=
  (∃ row ∈ db.payoutIntents, row.id = intent.id ∧ row.payoutId = intent.payoutId) ∧
    ¬db.Submitted intent.id ∧ ∃ row ∈ db.payouts, row.id = intent.payoutId ∧ row.status = .failed

end Database

section

variable {config : Deployment} {ext : External} {db db' : Database} {j : Job} {h : Log}

/-! ### Proposals -/

theorem submitted_of_keys
    (hkeys : db'.payoutProposals.map (·.key) = db.payoutProposals.map (·.key)) (intentId : Id) :
    db'.Submitted intentId ↔ db.Submitted intentId := by
  constructor
  · rintro ⟨row, hrow, hid⟩
    obtain ⟨old, hold, hkey⟩ := exists_of_map_eq hkeys hrow
    exact ⟨old, hold, (congrArg Prod.snd hkey).trans hid⟩
  · rintro ⟨row, hrow, hid⟩
    obtain ⟨new, hnew, hkey⟩ := exists_of_map_eq hkeys.symm hrow
    exact ⟨new, hnew, (congrArg Prod.snd hkey).trans hid⟩

theorem keys_updated {p : SafePayoutProposal → Bool} {f : SafePayoutProposal → SafePayoutProposal}
    (hf : ∀ row, (f row).key = row.key) (rows : List SafePayoutProposal) :
    (updateWhere p f rows).map (·.key) = rows.map (·.key) :=
  map_updateWhere fun row _ _ => hf row

theorem proposed_of_reserved {intent : SafePayoutIntent} (h : db.isReserved intent = true) :
    ∃ payout ∈ db.payouts, payout.id = intent.payoutId ∧ payout.status = .proposed := by
  rw [Database.isReserved, Database.payout?] at h
  cases hfound : db.payouts.find? fun row => row.id = intent.payoutId with
  | none => simp [hfound] at h
  | some payout =>
    have hid := List.find?_some hfound
    rw [hfound, Option.any_some] at h
    exact ⟨payout, List.mem_of_find?_eq_some hfound, of_decide_eq_true hid, of_decide_eq_true h⟩

/-- The transaction leaves the proposals of all reservations, or claims a reservation. -/
inductive ProposalWrite (db db' : Database) : Prop where
  | same : db'.payoutProposals.map (·.key) = db.payoutProposals.map (·.key) → ProposalWrite db db'
  | claim {proposal : SafePayoutProposal} {intent : SafePayoutIntent} :
      intent ∈ db.payoutIntents → intent.id = proposal.intentId → intent.delivery = .service →
      intent.consumedAt = none → db.proposal? intent.id = none → db.isReserved intent = true →
      db'.payouts = db.payouts → db'.payoutProposals = db.payoutProposals ++ [proposal] →
      ProposalWrite db db'

theorem handled_proposals {event : DecodedEscrowEvent} (hdb : db.Sound config)
    (h : Handled config ext event db db') :
    db'.payoutProposals.map (·.key) = db.payoutProposals.map (·.key) := by
  cases h with
  | contract => rfl
  | created _ hcreated =>
    obtain ⟨deadline', occurredAt, db₁, id, -, -, hup, rfl, -⟩ := handleGoalCreated_ok.1 hcreated
    obtain ⟨expenses, heq⟩ := publishDraft_eq db₁ (db.draft? _)
    rw [heq]
    rcases upsertGoal_ok.1 hup with ⟨-, ⟨goal, -, rfl, -⟩ | ⟨-, rfl, -⟩⟩ <;> rfl
  | goal _ hfound _ hhandled =>
    obtain ⟨hgoal, -, -⟩ := goal?_some hfound
    cases hrelease : event.event.isRelease with
    | true =>
      rw [EscrowEvent.isRelease_eq, Option.isSome_iff_exists] at hrelease
      obtain ⟨⟨goalId, kind, token, amount⟩, hrelease⟩ := hrelease
      obtain ⟨payoutRecipient, heq⟩ := handleGoalEvent_release hrelease
      rw [heq] at hhandled
      obtain ⟨asset, occurredAt, -, ⟨reserved, -, -, rfl⟩ | ⟨payout, -, -, rfl⟩⟩ :=
        handleReleased_ok hhandled
      · exact (inPlace_executeReservation _ _ _ _).proposals.map_eq
      · rfl
    | false =>
      obtain ⟨b, -, hturns⟩ := handleGoalEvent_turns hdb.goals hgoal (hdb.periods _) hrelease
        hhandled
      rw [hturns.payoutProposals]

/-- **Only a claim adds a proposal.** -/
theorem Write.proposals (hdb : db.Sound config) (hknown : db.Known config h)
    (hw : Write config ext j h db db') : ProposalWrite db db' := by
  cases hw with
  | idle => exact .same rfl
  | expire hsaw hcandidates =>
    obtain ⟨claimed, -, heq⟩ := expireTx_eq (hknown.candidates hsaw hcandidates)
    rw [heq]
    exact .same rfl
  | convert _ hconvert =>
    obtain ⟨-, -, -, rfl⟩ := convertTx_ok hconvert
    refine .same (keys_updated (fun _ => ?_) _)
    rfl
  | reserve _ _ _ _ hreserve =>
    obtain ⟨-, -, payout, -, rfl⟩ := reserveTx_ok hreserve
    exact .same rfl
  | claim hclaim =>
    obtain ⟨⟨intent, hintent, hid, hservice, hopen, hnone, hreserved⟩, ⟨-, hintentId, -⟩, rfl⟩ :=
      claimTx_ok hclaim
    exact .claim hintent (hid.trans hintentId.symm) hservice hopen hnone hreserved rfl rfl
  | unconfirmed =>
    refine .same (keys_updated (fun _ => ?_) _)
    rfl
  | submitted =>
    refine .same (keys_updated (fun _ => ?_) _)
    rfl
  | cancel _ _ _ hcancel =>
    obtain ⟨-, rfl⟩ := cancelTx_ok hcancel
    exact .same rfl
  | reconcile =>
    refine .same ?_
    rw [(reconcile_tables _ _ _).1]
  | @update tracked next now failPayout =>
    rcases applyUpdate_cases tracked next now failPayout db with heq | ⟨-, db₁, hdb₁, hcase⟩
    · rw [heq]
      exact .same rfl
    have hfirst : db₁.payoutProposals.map (·.key) = db.payoutProposals.map (·.key) := by
      rw [hdb₁]
      exact (inPlace_updated tracked next now failPayout).proposals.map_eq
    refine .same ?_
    rcases hcase with heq | ⟨-, executionTxHash, heq⟩
    · rw [heq, hfirst]
    · rw [heq, (reconcile_tables _ _ _).1, hfirst]
  | unavailable =>
    refine .same (keys_updated (fun _ => ?_) _)
    rfl
  | @project event _ r _ hproject =>
    rcases projectLog_cases hproject with rfl | ⟨-, hhandled⟩
    · exact .same rfl
    · have hkeys := handled_proposals (preserves_event hdb event).sound hhandled
      exact .same hkeys
  | rebuild =>
    refine .same (keys_updated (fun _ => ?_) _)
    rfl

/-- No proposal is ever deleted. -/
theorem Write.proposals_kept (hdb : db.Sound config) (hknown : db.Known config h)
    (hw : Write config ext j h db db') :
    ∀ row ∈ db.payoutProposals, ∃ row' ∈ db'.payoutProposals, row'.key = row.key := by
  intro row hrow
  cases hw.proposals hdb hknown with
  | same hkeys => exact exists_of_map_eq hkeys.symm hrow
  | claim _ _ _ _ _ _ _ hrows => exact ⟨row, hrows ▸ List.mem_append_left _ hrow, rfl⟩

theorem Write.submitted_mono (hdb : db.Sound config) (hknown : db.Known config h)
    (hw : Write config ext j h db db') {intentId : Id} (hs : db.Submitted intentId) :
    db'.Submitted intentId := by
  obtain ⟨row, hrow, hid⟩ := hs
  obtain ⟨row', hrow', hkey⟩ := hw.proposals_kept hdb hknown row hrow
  exact ⟨row', hrow', (congrArg Prod.snd hkey).trans hid⟩

/-- **A payout that failed without a proposal** stays so. -/
theorem Write.givenUp_mono (hdb : db.Sound config) (hknown : db.Known config h)
    (hw : Write config ext j h db db') {intent : SafePayoutIntent} (hg : db.GivenUp intent) :
    db'.GivenUp intent := by
  obtain ⟨⟨row, hrow, hrowId, hrowPayout⟩, hnot, payout, hpayout, hid, hfailed⟩ := hg
  have hpreserves := hw.preserves hdb hknown
  -- the reservation is still there, and so is its payout
  obtain ⟨row', hrow', hrowId'⟩ := hpreserves.evolves.intents_kept row hrow
  have hfollows := hpreserves.evolves.intent hdb hrow hrow' hrowId'
  have hrowPayout' : row'.payoutId = intent.payoutId := hfollows.payoutId.trans hrowPayout
  obtain ⟨payout', hpayout', hid', -⟩ := hpreserves.sound.payout_of_intent row' hrow'
  have hsame : payout'.id = payout.id := hid'.trans (hrowPayout'.trans hid.symm)
  have hfailed' := (hpreserves.evolves.payout hdb hpayout hpayout' hsame).failed hfailed
  refine ⟨⟨row', hrow', hrowId'.trans hrowId, hrowPayout'⟩, ?_, payout', hpayout',
    hsame.trans hid, hfailed'⟩
  cases hw.proposals hdb hknown with
  | same hkeys => exact fun hs => hnot ((submitted_of_keys hkeys intent.id).1 hs)
  | @claim proposal claimed hclaimed hclaimedId _ _ _ hreserved _ hrows =>
    rintro ⟨other, hother, hotherId⟩
    rw [hrows] at hother
    rcases List.mem_append.1 hother with hold | hnew
    · exact hnot ⟨other, hold, hotherId⟩
    · -- the claim found the payout proposed
      rw [List.mem_singleton.1 hnew] at hotherId
      obtain rfl := hdb.intents.eq hclaimed hrow (hclaimedId.trans (hotherId.trans hrowId.symm))
      obtain ⟨found, hfound, hfoundId, hproposed⟩ := proposed_of_reserved hreserved
      rw [hdb.payouts.eq hfound hpayout (hfoundId.trans (hrowPayout.trans hid.symm)), hfailed]
        at hproposed
      cases hproposed

/-! ### How a reservation is used up -/

/-- A reservation of the service that was open is not any more. -/
def UsedUp (db db' : Database) (intent : SafePayoutIntent) : Prop :=
  intent ∈ db.payoutIntents ∧ intent.delivery = .service ∧ intent.consumedAt = none ∧
    ∃ intent' ∈ db'.payoutIntents, intent'.id = intent.id ∧ intent'.consumedAt ≠ none

/-- A reservation whose row stays is not used up. -/
theorem not_usedUp {intent : SafePayoutIntent} (hdb : db.Sound config)
    (hkept : ∀ intent' ∈ db'.payoutIntents, intent'.id = intent.id → intent' ∈ db.payoutIntents) :
    ¬UsedUp db db' intent := by
  rintro ⟨hintent, -, hopen, intent', hintent', hid, hused⟩
  rw [hdb.intents.eq (hkept intent' hintent' hid) hintent hid, hopen] at hused
  exact hused rfl

theorem not_usedUp_of_eq {intent : SafePayoutIntent} (hdb : db.Sound config)
    (hintents : db'.payoutIntents = db.payoutIntents) : ¬UsedUp db db' intent :=
  not_usedUp hdb fun _ hmem _ => hintents ▸ hmem

/-- An event uses up manual reservations only. -/
theorem handled_manual {event : DecodedEscrowEvent} (hdb : db.Sound config)
    (h : Handled config ext event db db') : ∀ row' ∈ db'.payoutIntents,
      row' ∈ db.payoutIntents ∨ ∃ row ∈ db.payoutIntents, row.delivery = .manual ∧
        row.id = row'.id := by
  have hsame : ∀ db₂ : Database, db₂.payoutIntents = db.payoutIntents →
      ∀ row' ∈ db₂.payoutIntents, row' ∈ db.payoutIntents ∨ ∃ row ∈ db.payoutIntents,
        row.delivery = .manual ∧ row.id = row'.id :=
    fun db₂ heq row' hrow' => .inl (heq ▸ hrow')
  cases h with
  | contract => exact hsame _ rfl
  | created _ hcreated =>
    obtain ⟨deadline', occurredAt, db₁, id, -, -, hup, rfl, -⟩ := handleGoalCreated_ok.1 hcreated
    obtain ⟨expenses, heq⟩ := publishDraft_eq db₁ (db.draft? _)
    rw [heq]
    rcases upsertGoal_ok.1 hup with ⟨-, ⟨goal, -, rfl, -⟩ | ⟨-, rfl, -⟩⟩ <;> exact hsame _ rfl
  | goal _ hfound _ hhandled =>
    obtain ⟨hgoal, -, -⟩ := goal?_some hfound
    cases hrelease : event.event.isRelease with
    | true =>
      rw [EscrowEvent.isRelease_eq, Option.isSome_iff_exists] at hrelease
      obtain ⟨⟨goalId, kind, token, amount⟩, hrelease⟩ := hrelease
      obtain ⟨payoutRecipient, heq⟩ := handleGoalEvent_release hrelease
      rw [heq] at hhandled
      obtain ⟨asset, occurredAt, -, ⟨reserved, -, -, rfl⟩ | ⟨payout, -, -, rfl⟩⟩ :=
        handleReleased_ok hhandled
      · rcases executeReservation_cases (db.mapPayout reserved.id
            (·.execute event.txHash payoutRecipient (some occurredAt))) reserved.id event.txHash
            occurredAt with ⟨heq, -⟩ | ⟨intent, hintent, hmanual, heq⟩ | ⟨_, _, -, -, -, heq⟩
        · rw [heq]
          exact hsame _ rfl
        · rw [heq]
          intro row' hrow'
          rcases mem_updateWhere_cases hrow' with ⟨hold, -⟩ | ⟨old, hold, hid, rfl⟩
          · exact .inl hold
          · have hthis := List.mem_of_find?_eq_some hintent
            obtain rfl := hdb.intents.eq hold hthis (of_decide_eq_true hid)
            exact .inr ⟨old, hold, hmanual, rfl⟩
        · rw [heq]
          exact hsame _ rfl
      · exact hsame _ rfl
    | false =>
      obtain ⟨b, -, hturns⟩ := handleGoalEvent_turns hdb.goals hgoal (hdb.periods _) hrelease
        hhandled
      exact hsame _ hturns.payoutIntents

/-- **A reservation of the service is used up** by a submission, or it is given up. -/
theorem Write.usedUp (hdb : db.Sound config) (hknown : db.Known config h)
    (hw : Write config ext j h db db') {intent : SafePayoutIntent} (hused : UsedUp db db' intent) :
    db'.Submitted intent.id ∨ db'.GivenUp intent := by
  cases hw with
  | idle => exact absurd hused (not_usedUp_of_eq hdb rfl)
  | expire hsaw hcandidates =>
    -- the claim of the expiry looks for a proposal again, so an expired reservation has none
    obtain ⟨claimed, hclaimed, heq⟩ := expireTx_eq (hknown.candidates hsaw hcandidates)
    rw [heq] at hused ⊢
    obtain ⟨hintent, -, hopen, intent', hintent', hid, hconsumed⟩ := hused
    rcases mem_updateWhere_cases hintent' with ⟨hold, -⟩ | ⟨old, hold, hmem, rfl⟩
    · rw [hdb.intents.eq hold hintent hid, hopen] at hconsumed
      exact absurd rfl hconsumed
    obtain rfl := hdb.intents.eq hold hintent hid
    obtain ⟨row, hrow, hrowId⟩ := List.mem_map.1 (of_decide_eq_true hmem)
    obtain ⟨hrowMem, hexpired⟩ := hclaimed row hrow
    obtain rfl := hdb.intents.eq hrowMem hintent hrowId
    simp only [isExpired, decide_eq_true_eq, Option.isNone_iff_eq_none] at hexpired
    obtain ⟨-, -, -, hnone, hreserved⟩ := hexpired
    refine .inr ⟨⟨_, hintent', hid, rfl⟩, ?_, ?_⟩
    · rintro ⟨proposal, hproposal, hproposalId⟩
      exact proposal?_none hnone proposal hproposal hproposalId
    · obtain ⟨payout, hpayout, hpayoutId, hproposed⟩ := proposed_of_reserved hreserved
      refine ⟨payout.fail, mem_updateWhere_of hpayout ?_, hpayoutId, rfl⟩
      rw [hpayoutId]
      exact decide_eq_true ⟨List.mem_map_of_mem hrow, hproposed⟩
  | convert _ hconvert =>
    -- what is converted is open afterwards
    obtain ⟨-, -, -, rfl⟩ := convertTx_ok hconvert
    obtain ⟨hintent, -, hopen, intent', hintent', hid, hconsumed⟩ := hused
    rcases mem_updateWhere_cases hintent' with ⟨hold, -⟩ | ⟨old, hold, hmem, rfl⟩
    · rw [hdb.intents.eq hold hintent hid, hopen] at hconsumed
      exact absurd rfl hconsumed
    · exact absurd rfl hconsumed
  | reserve _ _ _ _ hreserve =>
    -- the one row that is added has an id that no earlier row has
    obtain ⟨-, ⟨hnewId, -⟩, payout, -, rfl⟩ := reserveTx_ok hreserve
    refine absurd hused (not_usedUp hdb fun intent' hmem hid => ?_)
    rcases List.mem_append.1 hmem with hold | hnew
    · exact hold
    · have hlt := hdb.intents_lt intent hused.1
      rw [List.mem_singleton.1 hnew] at hid
      rw [← hid, hnewId] at hlt
      exact absurd hlt (Nat.not_lt.2 (Nat.le_succ _))
  | claim hclaim =>
    obtain ⟨-, ⟨-, hintentId, -⟩, rfl⟩ := claimTx_ok hclaim
    obtain ⟨hintent, -, hopen, intent', hintent', hid, hconsumed⟩ := hused
    rcases mem_updateWhere_cases hintent' with ⟨hold, -⟩ | ⟨old, hold, hmem, rfl⟩
    · rw [hdb.intents.eq hold hintent hid, hopen] at hconsumed
      exact absurd rfl hconsumed
    · -- the proposal is stored in the same transaction
      refine .inl ⟨_, List.mem_append_right _ (List.mem_singleton_self _), ?_⟩
      exact hintentId.trans ((of_decide_eq_true hmem).symm.trans hid)
  | unconfirmed => exact absurd hused (not_usedUp_of_eq hdb rfl)
  | submitted => exact absurd hused (not_usedUp_of_eq hdb rfl)
  | @cancel read cancelledAt w _ hsaw hread hmanual hcancel =>
    obtain ⟨-, rfl⟩ := cancelTx_ok hcancel
    obtain ⟨hintent, hservice, hopen, intent', hintent', hid, hconsumed⟩ := hused
    rcases mem_updateWhere_cases hintent' with ⟨hold, -⟩ | ⟨old, hold, hmem, rfl⟩
    · rw [hdb.intents.eq hold hintent hid, hopen] at hconsumed
      exact absurd rfl hconsumed
    · -- what was manual when it was read is manual
      obtain rfl := hdb.intents.eq hold hintent hid
      obtain ⟨hsound, hevolves⟩ := hknown w hsaw
      have hstays := (hevolves.intent hsound hread hold (of_decide_eq_true hmem)).manual hmanual
      rw [hservice] at hstays
      cases hstays
  | reconcile => exact absurd hused (not_usedUp_of_eq hdb (reconcile_tables _ _ _).2)
  | @update tracked next now failPayout =>
    refine absurd hused (not_usedUp_of_eq hdb ?_)
    rcases applyUpdate_cases tracked next now failPayout db with heq | ⟨-, db₁, hdb₁, hcase⟩
    · rw [heq]
    have hfirst : db₁.payoutIntents = db.payoutIntents := by
      rw [hdb₁]
      split_ifs <;> rfl
    rcases hcase with heq | ⟨-, executionTxHash, heq⟩
    · rw [heq, hfirst]
    · rw [heq, (reconcile_tables _ _ _).2, hfirst]
  | unavailable => exact absurd hused (not_usedUp_of_eq hdb rfl)
  | @project event _ r _ hproject =>
    rcases projectLog_cases hproject with rfl | ⟨-, hhandled⟩
    · exact absurd hused (not_usedUp_of_eq hdb rfl)
    · -- the projection of a release uses up only what is delivered by hand
      have hmanual := handled_manual (preserves_event hdb event).sound hhandled
      obtain ⟨hintent, hservice, hopen, intent', hintent', hid, hconsumed⟩ := hused
      rcases hmanual intent' hintent' with hold | ⟨old, hold, holdManual, holdId⟩
      · rw [hdb.intents.eq hold hintent hid, hopen] at hconsumed
        exact absurd rfl hconsumed
      · rw [hdb.intents.eq hold hintent (holdId.trans hid), hservice] at holdManual
        cases holdManual
  | rebuild => exact absurd hused (not_usedUp_of_eq hdb rfl)

end

/-! ### Whole runs -/

variable {O : Outside}

/-- What every transaction keeps is kept along every run. -/
theorem tables_along {R : Database → Database → Prop} (hrefl : ∀ db, R db db)
    (htrans : ∀ db db' db'', R db db' → R db' db'' → R db db'')
    (hwrite : ∀ j h db db', db.Sound O.config → db.Known O.config h →
      Write O.config O.ext j h db db' → R db db')
    {c c' : Config World Reply Failure Job Slot} {ls : List (Label World Reply Failure Job)}
    (hc : (payouts O).Safe c) (hrun : (escrow O).Run c ls c') : R c.shared.db c'.shared.db := by
  refine hc.run_rel (R := fun w w' => R w.db w'.db) (fun w => hrefl w.db)
    (fun w w' w'' => htrans w.db w'.db w''.db) ?_ (fun _ w _ => hrefl w.db) ?_ hrun
  · intro w w' _ henv
    have hdb := henv.db_eq
    rw [hdb]
    exact hrefl w.db
  · intro j began h w w' hinv hrec hguar
    exact hwrite j h w.db w'.db hinv (known_of_recorded hrec) hguar.2

/-- One step is one transaction. -/
theorem write_of_step {c c' : Config World Reply Failure Job Slot}
    {l : Label World Reply Failure Job} (hc : (payouts O).Safe c)
    (hstep : (escrow O).Step c l c') : ∃ j h, c.shared.db.Known O.config h ∧
      Write O.config O.ext j h c.shared.db c'.shared.db := by
  have hknown : c.shared.db.Known O.config [] := by
    rintro w ⟨w', hmem⟩
    cases hmem
  cases hstep with
  | env henv =>
    refine ⟨.rebuild, [], hknown, ?_⟩
    have hdb := henv.db_eq
    show Write _ _ _ _ _ (World.db _)
    rw [hdb]
    exact .idle
  | start _ _ => exact ⟨.rebuild, [], hknown, .idle⟩
  | @act i p e rest hp hact hbefore =>
    obtain ⟨hmeets, -, -, hrec, -⟩ := hc.act (.act hp hact hbefore)
    refine ⟨p.job, p.hist, known_of_recorded hrec, ?_⟩
    show Write _ _ _ _ _ e.after.db
    rw [← hbefore]
    cases e with
    | asked w q a => exact .idle
    | ran w w' => exact hmeets.2
  | stop _ _ => exact ⟨.rebuild, [], hknown, .idle⟩
  | crash _ => exact ⟨.rebuild, [], hknown, .idle⟩

variable {chain : Chain.ChainState Hash} {c₁ c₂ c₃ : Config World Reply Failure Job Slot}
  {ls₁ ls₂ : List (Label World Reply Failure Job)} {l : Label World Reply Failure Job}

/-! ### Sample runs -/

section Sample

/-- 50 units are reserved for the service. -/
def reservedRun : List (Move World Reply Failure Job Slot) :=
  closedGoal ++ [.start (sampleRequest 1 .service 50), .act (.other 1) 11 (sampleOracle 4 1000),
    .stop (.other 1)]

theorem allows_reservedRun : ∀ m ∈ reservedRun, (escrow sampleOutside).Allows m :=
  Machine.allows_of_internal (fun _ _ _ => trivial) rfl

theorem reserved_isSome : ((escrow sampleOutside).play reservedRun sampleStart).isSome = true := by
  decide +kernel

/-- The configuration in which they are reserved. -/
def reservedEnd : Config World Reply Failure Job Slot :=
  ((escrow sampleOutside).play reservedRun sampleStart).get reserved_isSome

/-- Their reservation. -/
def reservedIntent : SafePayoutIntent :=
  ⟨2, 1, 0, 1, 5, .service, some 4, 7, 0, 61, 2, some 601000, none⟩

/-- An expiry an hour later has found the reservation. -/
def expiringRun : List (Move World Reply Failure Job Slot) :=
  [.start (.expire 2), .act (.other 2) 2 (sampleOracle 4 3600000)]

theorem allows_expiringRun : ∀ m ∈ expiringRun, (escrow sampleOutside).Allows m :=
  Machine.allows_of_internal (fun _ _ _ => trivial) rfl

theorem expiring_isSome :
    ((escrow sampleOutside).play expiringRun reservedEnd).isSome = true := by
  decide +kernel

/-- The configuration before the transaction of the expiry. -/
def expiringEnd : Config World Reply Failure Job Slot :=
  ((escrow sampleOutside).play expiringRun reservedEnd).get expiring_isSome

theorem expired_isSome :
    (expiringEnd.act (sampleOracle 4 3600000) (.other 2)).isSome = true := by
  decide +kernel

/-- The configuration after it. -/
def expiredEnd : Config World Reply Failure Job Slot :=
  (expiringEnd.act (sampleOracle 4 3600000) (.other 2)).get expired_isSome

/-- The process of the expiry, before its transaction. -/
theorem expiring_running : (expiringEnd.running (.other 2)).isSome = true := by decide +kernel

end Sample

/-! ### Whole runs of the payouts -/

/-- **What the rows say never changes.**  In every run ids are unique and references go somewhere;
a payout keeps its goal, its token, its kind and its amount, and one that failed stays failed; a
reservation is never deleted, and a manual one stays manual; a proposal keeps its reservation. -/
theorem payout_rows_follow
    (hrun₁ : (escrow O).Run (Config.idle (World.initial chain)) ls₁ c₁)
    (hrun₂ : (escrow O).Run c₁ ls₂ c₂) :
    c₂.shared.db.Sound O.config ∧
      (∀ row ∈ c₁.shared.db.payouts, ∀ row' ∈ c₂.shared.db.payouts, row'.id = row.id →
        row.Follows row') ∧
      (∀ row ∈ c₁.shared.db.payoutIntents, ∃ row' ∈ c₂.shared.db.payoutIntents,
        row'.id = row.id ∧ row.Follows row') ∧
      ∀ row ∈ c₁.shared.db.payoutProposals, ∃ row' ∈ c₂.shared.db.payoutProposals,
        row'.id = row.id ∧ row.Follows row' := by
  have hc₁ := safe_of_run hrun₁
  have hsound : c₁.shared.db.Sound O.config := hc₁.inv
  have hevolves : Evolves c₁.shared.db c₂.shared.db :=
    tables_along Evolves.refl (fun _ _ _ => Evolves.trans)
      (fun j h db db' hdb hknown hw => (hw.preserves hdb hknown).evolves) hc₁ hrun₂
  have hkept : ∀ row ∈ c₁.shared.db.payoutProposals, ∃ row' ∈ c₂.shared.db.payoutProposals,
      row'.key = row.key := by
    refine tables_along (R := fun db db' => ∀ row ∈ db.payoutProposals,
      ∃ row' ∈ db'.payoutProposals, row'.key = row.key) (fun _ row hrow => ⟨row, hrow, rfl⟩) ?_
      (fun j h db db' hdb hknown hw => hw.proposals_kept hdb hknown) hc₁ hrun₂
    intro db db' db'' hfirst hsecond row hrow
    obtain ⟨row', hrow', hkey⟩ := hfirst row hrow
    obtain ⟨row'', hrow'', hkey'⟩ := hsecond row' hrow'
    exact ⟨row'', hrow'', hkey'.trans hkey⟩
  refine ⟨(hc₁.run hrun₂).inv, ?_, ?_, ?_⟩
  · intro row hrow row' hrow' hid
    exact hevolves.payout hsound hrow hrow' hid
  · intro row hrow
    obtain ⟨row', hrow', hid⟩ := hevolves.intents_kept row hrow
    exact ⟨row', hrow', hid, hevolves.intent hsound hrow hrow' hid⟩
  · intro row hrow
    obtain ⟨row', hrow', hkey⟩ := hkept row hrow
    exact ⟨row', hrow', congrArg Prod.fst hkey, congrArg Prod.snd hkey⟩

theorem payout_rows_follow_sample :
    expiringEnd.shared.db.Sound sampleDeployment ∧
      ∀ row ∈ reservedEnd.shared.db.payouts, ∀ row' ∈ expiringEnd.shared.db.payouts,
        row'.id = row.id → row.Follows row' := by
  obtain ⟨hsound, hpayouts, -⟩ := payout_rows_follow
    (Machine.run_labels allows_reservedRun (Option.some_get reserved_isSome).symm)
    (Machine.run_labels allows_expiringRun (Option.some_get expiring_isSome).symm)
  exact ⟨hsound, hpayouts⟩

/-- **What happens first decides.**  When a reservation of the service is used up it has been
submitted or given up, and so it stays in every later state: of an expiry and a submission one takes
effect, and a payout that failed by expiry never gets a proposal. -/
theorem expired_or_submitted
    (hrun₁ : (escrow O).Run (Config.idle (World.initial chain)) ls₁ c₁)
    (hstep : (escrow O).Step c₁ l c₂) (hrun₂ : (escrow O).Run c₂ ls₂ c₃)
    {intent : SafePayoutIntent} (hused : UsedUp c₁.shared.db c₂.shared.db intent) :
    (c₂.shared.db.Submitted intent.id ∧ c₃.shared.db.Submitted intent.id) ∨
      (c₂.shared.db.GivenUp intent ∧ c₃.shared.db.GivenUp intent) := by
  have hc₁ := safe_of_run hrun₁
  have hc₂ := hc₁.step hstep
  obtain ⟨j, h, hknown, hwrite⟩ := write_of_step hc₁ hstep
  rcases hwrite.usedUp hc₁.inv hknown hused with hsubmitted | hgivenUp
  · refine .inl ⟨hsubmitted, ?_⟩
    exact tables_along (R := fun db db' => db.Submitted intent.id → db'.Submitted intent.id)
      (fun _ hs => hs) (fun _ _ _ hfirst hsecond hs => hsecond (hfirst hs))
      (fun j h db db' hdb hknown hw => hw.submitted_mono hdb hknown) hc₂ hrun₂ hsubmitted
  · refine .inr ⟨hgivenUp, ?_⟩
    exact tables_along (R := fun db db' => db.GivenUp intent → db'.GivenUp intent)
      (fun _ hg => hg) (fun _ _ _ hfirst hsecond hg => hsecond (hfirst hg))
      (fun j h db db' hdb hknown hw => hw.givenUp_mono hdb hknown) hc₂ hrun₂ hgivenUp

theorem expired_or_submitted_sample : expiredEnd.shared.db.GivenUp reservedIntent := by
  obtain ⟨p, hp⟩ := Option.isSome_iff_exists.1 expiring_running
  obtain ⟨e, hstep, -, -⟩ := Machine.step_of_act (M := escrow sampleOutside)
    (fun _ _ => trivial) hp (Option.some_get expired_isSome).symm
  have hused : UsedUp expiringEnd.shared.db expiredEnd.shared.db reservedIntent := by
    unfold UsedUp
    decide +kernel
  have hnot : ¬expiredEnd.shared.db.Submitted reservedIntent.id := by
    unfold Database.Submitted
    decide +kernel
  have hrun := (Machine.run_labels allows_reservedRun (Option.some_get reserved_isSome).symm).trans
    (Machine.run_labels allows_expiringRun (Option.some_get expiring_isSome).symm)
  rcases expired_or_submitted hrun hstep .refl hused with ⟨hsubmitted, -⟩ | ⟨hgivenUp, -⟩
  · exact absurd hsubmitted hnot
  · exact hgivenUp

end Escrow

end PreCommunity
