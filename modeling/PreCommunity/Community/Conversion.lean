import PreCommunity.Community.Votes

/-!
# The conversion of proposals

A proposal becomes a draft of a goal.  The transaction reads the proposal first and then writes
without looking at it again, so a moderator may come in between.

* `Undisturbed` : a draft is written while its proposal is neither declined nor removed.
* `Converted` : a proposal is converted just when one draft refers to it.
* `converted_from_passed` : runs in which nobody comes in between.
-/

namespace PreCommunity

namespace Community

open Concurrent Store
open Escrow (Id Time Address Hash Text)

/-- The number of drafts that refer to a proposal. -/
def Database.referring (db : Database) (id : Id) : ℕ :=
  db.expenses.countP fun row => row.communityProposalId = some id

/-- A draft is written while its proposal is neither declined nor removed. -/
def Undisturbed : Job → Time → Database → Database → Prop
  | .createExpense _ _ _ (some id), _, db, _ => ∀ row ∈ db.proposals, row.id = id →
      row.status ≠ .declined ∧ row.status ≠ .removed
  | _, _, _, _ => True

instance (j : Job) (t : Time) (db db' : Database) : Decidable (Undisturbed j t db db') := by
  unfold Undisturbed
  split <;> infer_instance

/-- A proposal is converted just when one draft refers to it. -/
structure Converted (db : Database) : Prop where
  one : ∀ row ∈ db.proposals, row.status = .converted → db.referring row.id = 1
  none : ∀ row ∈ db.proposals, row.status ≠ .converted → db.referring row.id = 0
  below : ∀ row ∈ db.expenses, ∀ id, row.communityProposalId = some id → id < db.nextId

/-- What a write may do: a proposal becomes converted from passed only, and one that was declined or
removed stays so. -/
structure ConversionStep (db db' : Database) : Prop where
  passed : ∀ row' ∈ db'.proposals, row'.status = .converted → ∃ row ∈ db.proposals,
    row.id = row'.id ∧ (row.status = .passed ∨ row.status = .converted)
  closed : ∀ row ∈ db.proposals, row.status = .declined ∨ row.status = .removed →
    ∀ row' ∈ db'.proposals, row'.id = row.id → row'.status = .declined ∨ row'.status = .removed

section

variable {O : Outside} {w : World} {j : Job} {db' : Database} {log : Log}

/-- Every change but the writing of a draft leaves the references alone and converts nothing. -/
theorem Change.conversion (h : Change O log w j db') :
    (∃ n dto actor proposalId closedAt row, j = .createExpense n dto actor proposalId ∧
      (∀ id, proposalId = some id → w.db.Decided id) ∧
      createExpenseTx dto proposalId actor.address closedAt w.clock w.db = .ok (db', row)) ∨
    (db'.expenses.map (·.communityProposalId) = w.db.expenses.map (·.communityProposalId) ∧
      (∀ row ∈ w.db.proposals, ∃ row' ∈ db'.proposals, row' = row ∨ ProposalStep w j row row') ∧
      ∀ row' ∈ db'.proposals, (∃ row ∈ w.db.proposals, row' = row ∨ ProposalStep w j row row') ∨
        row'.id = w.db.nextId ∧ (row'.status = .voting ∨ row'.status = .pendingReview)) := by
  have hmoves : ∀ {proposals : List CommunityProposal}, proposals = w.db.proposals →
      (∀ row ∈ w.db.proposals, ∃ row' ∈ proposals, row' = row ∨ ProposalStep w j row row') ∧
      ∀ row' ∈ proposals, (∃ row ∈ w.db.proposals, row' = row ∨ ProposalStep w j row row') ∨
        row'.id = w.db.nextId ∧ (row'.status = .voting ∨ row'.status = .pendingReview) := by
    rintro _ rfl
    exact ⟨fun row hrow => ⟨row, hrow, .inl rfl⟩, fun row hrow => .inl ⟨row, hrow, .inl rfl⟩⟩
  cases h with
  | createExpense closedAt row hdecided _ htx =>
    exact .inl ⟨_, _, _, _, closedAt, row, rfl, hdecided, htx⟩
  | reply _ _ _ _ _ _ _ _ _ htx =>
    obtain ⟨-, -, -, rfl⟩ := replyTx_ok htx
    exact .inr ⟨rfl, hmoves rfl⟩
  | propose _ _ block _ _ _ _ htx =>
    obtain ⟨rfl, rfl⟩ := proposeTx_ok htx
    refine .inr ⟨rfl, fun row hrow => ⟨row, List.mem_append_left _ hrow, .inl rfl⟩,
      fun row hrow => ?_⟩
    obtain hrow | hrow := List.mem_append.1 hrow
    · exact .inl ⟨row, hrow, .inl rfl⟩
    · rw [List.mem_singleton.1 hrow]
      refine .inr ⟨rfl, ?_⟩
      cases block with
      | none => exact .inr rfl
      | some _ => exact .inl rfl
  | proposals p f _ hf =>
    refine .inr ⟨rfl, fun row hrow => ?_, fun row hrow => ?_⟩
    · by_cases hp : p row = true
      · exact ⟨f row, mem_updateWhere_of hrow hp, .inr (hf row hrow hp)⟩
      · exact ⟨row, mem_updateWhere_of_not hrow (by simpa using hp), .inl rfl⟩
    · obtain ⟨hrow, -⟩ | ⟨x, hx, hp, rfl⟩ := mem_updateWhere_cases hrow
      · exact .inl ⟨row, hrow, .inl rfl⟩
      · exact .inl ⟨x, hx, .inr (hf x hx hp)⟩
  | projectGoalCreated _ _ _ htx =>
    obtain ⟨goals, nextId, -, rfl⟩ := goalCreatedTx_ok htx
    exact .inr ⟨map_updateWhere fun _ _ _ => rfl, hmoves rfl⟩
  | updateExpense | archiveExpense _ | publishExpense | markExpenseSubmitted =>
    exact .inr ⟨map_updateWhere fun _ _ _ => rfl, hmoves rfl⟩
  | _ => exact .inr ⟨rfl, hmoves rfl⟩

theorem ProposalStep.converted {row row' : CommunityProposal} (h : ProposalStep w j row row') :
    row'.status = .converted ↔ row.status = .converted := by
  cases h with
  | text _ _ _ _ => rfl
  | openVoting _ _ _ _ hpending => simp [hpending]
  | close _ hvoting _ =>
    simp only [hvoting]
    split_ifs <;> simp
  | decline _ _ _ hstatus => obtain h | h | h := hstatus <;> simp [h]
  | remove _ _ _ hstatus => simp [hstatus]

theorem ProposalStep.declined {row row' : CommunityProposal} (h : ProposalStep w j row row')
    (hstatus : row.status = .declined ∨ row.status = .removed) :
    row'.status = .declined ∨ row'.status = .removed := by
  cases h with
  | text _ _ _ _ => exact hstatus
  | openVoting _ _ _ _ hpending => simp [hpending] at hstatus
  | close _ hvoting _ => simp [hvoting] at hstatus
  | decline _ _ _ _ => exact .inl rfl
  | remove _ _ _ _ => exact .inr rfl

theorem referring_of_map {db db' : Database} (h : db'.expenses.map (·.communityProposalId) =
    db.expenses.map (·.communityProposalId)) (id : Id) : db'.referring id = db.referring id := by
  have hmap : ∀ db : Database, db.referring id =
      (db.expenses.map (·.communityProposalId)).countP fun other => other = some id := fun db => by
    rw [List.countP_map]
    rfl
  rw [hmap, hmap, h]

/-- **One write** of a run in which nobody comes in between. -/
theorem Change.converts (hw : Sound O w) (hconverted : Converted w.db) (h : Change O log w j db')
    (hcalm : Undisturbed j w.clock w.db db') : ConversionStep w.db db' ∧ Converted db' := by
  have hnextId := h.nextId_le
  obtain ⟨n, dto, actor, proposalId, closedAt, row, rfl, hdecided, htx⟩ |
    ⟨hmap, hforward, hbackward⟩ := h.conversion
  · obtain ⟨rfl, hfree, rfl⟩ := createExpenseTx_ok htx
    have hreferring : ∀ id, Database.referring { w.db with
        proposals := updateWhere (fun proposal => proposalId = some proposal.id)
          (fun proposal => { proposal with
            status := .converted
            moderatedBy := some actor.address
            closedAt := some closedAt }) w.db.proposals
        expenses := w.db.expenses ++ [Expense.new w.db.nextId dto proposalId]
        nextId := w.db.nextId + 1 } id =
        w.db.referring id + if proposalId = some id then 1 else 0 := fun id => by
      unfold Database.referring
      rw [List.countP_append, List.countP_singleton]
      exact congrArg _ (if_congr decide_eq_true_iff rfl rfl)
    -- the proposal that is converted was passed, since nobody referred to it
    have hpassed : ∀ row ∈ w.db.proposals, proposalId = some row.id → row.status = .passed := by
      rintro row hrow rfl
      obtain ⟨x, hx, hid, hxdecided⟩ := hdecided _ rfl
      obtain rfl := hw.db.proposals.eq hx hrow hid
      have hnot : x.status ≠ .converted := fun hstatus => by
        have hone := hconverted.one x hx hstatus
        have hzero : w.db.referring x.id = 0 := List.countP_eq_zero.2 fun e he href =>
          hfree _ rfl e he (of_decide_eq_true href)
        omega
      obtain ⟨hdeclined, hremoved⟩ := hcalm x hx rfl
      simp only [CommunityProposal.decided, decide_eq_true_eq] at hxdecided
      simp_all
    refine ⟨⟨fun row' hrow' hstatus => ?_, fun row hrow hstatus row' hrow' hid => ?_⟩,
      ⟨fun row' hrow' hstatus => ?_, fun row' hrow' hstatus => ?_, fun e he id hid => ?_⟩⟩
    · obtain ⟨hrow, -⟩ | ⟨x, hx, hp, rfl⟩ := mem_updateWhere_cases hrow'
      · exact ⟨row', hrow, rfl, .inr hstatus⟩
      · exact ⟨x, hx, rfl, .inl (hpassed x hx (of_decide_eq_true hp))⟩
    · obtain ⟨hold, -⟩ | ⟨x, hx, hp, rfl⟩ := mem_updateWhere_cases hrow'
      · rwa [hw.db.proposals.eq hold hrow hid]
      · have hx' := hpassed x hx (of_decide_eq_true hp)
        rw [hw.db.proposals.eq hx hrow hid] at hx'
        simp [hx'] at hstatus
    · rw [hreferring]
      obtain ⟨hrow, hp⟩ | ⟨x, hx, hp, rfl⟩ := mem_updateWhere_cases hrow'
      · rw [if_neg (of_decide_eq_false hp), hconverted.one row' hrow hstatus]
      · have hp := of_decide_eq_true hp
        rw [if_pos hp, hconverted.none x hx (by simp [hpassed x hx hp])]
    · rw [hreferring]
      obtain ⟨hrow, hp⟩ | ⟨x, hx, hp, rfl⟩ := mem_updateWhere_cases hrow'
      · rw [if_neg (of_decide_eq_false hp), hconverted.none row' hrow hstatus]
      · exact absurd rfl hstatus
    · obtain he | he := List.mem_append.1 he
      · exact (hconverted.below e he id hid).trans (Nat.lt_succ_self _)
      · rw [List.mem_singleton.1 he] at hid
        obtain ⟨x, hx, rfl, -⟩ := hdecided id hid
        exact (hw.db.proposalsBelow x hx).trans (Nat.lt_succ_self _)
  · have hreferring := referring_of_map hmap
    refine ⟨⟨fun row' hrow' hstatus => ?_, fun row hrow hstatus row' hrow' hid => ?_⟩,
      ⟨fun row' hrow' hstatus => ?_, fun row' hrow' hstatus => ?_, fun e he id hid => ?_⟩⟩
    · obtain ⟨row, hrow, rfl | hstep⟩ | ⟨-, hnew⟩ := hbackward row' hrow'
      · exact ⟨row', hrow, rfl, .inr hstatus⟩
      · exact ⟨row, hrow, hstep.id.symm, .inr (hstep.converted.1 hstatus)⟩
      · simp [hstatus] at hnew
    · obtain ⟨x, hx, rfl | hstep⟩ | ⟨hnew, -⟩ := hbackward row' hrow'
      · rwa [hw.db.proposals.eq hx hrow hid]
      · obtain rfl := hw.db.proposals.eq hx hrow (hstep.id.symm.trans hid)
        exact hstep.declined hstatus
      · exact absurd (hid.symm.trans hnew) (hw.db.proposalsBelow row hrow).ne
    · rw [hreferring]
      obtain ⟨row, hrow, rfl | hstep⟩ | ⟨-, hnew⟩ := hbackward row' hrow'
      · exact hconverted.one row' hrow hstatus
      · exact hstep.id ▸ hconverted.one row hrow (hstep.converted.1 hstatus)
      · simp [hstatus] at hnew
    · rw [hreferring]
      obtain ⟨row, hrow, rfl | hstep⟩ | ⟨hnew, -⟩ := hbackward row' hrow'
      · exact hconverted.none row' hrow hstatus
      · exact hstep.id ▸ hconverted.none row hrow fun h => hstatus (hstep.converted.2 h)
      · refine List.countP_eq_zero.2 fun e he href => ?_
        exact (hconverted.below e he _ (of_decide_eq_true href)).ne hnew
    · obtain ⟨x, hx, hsame⟩ := exists_of_map_eq hmap he
      exact (hconverted.below x hx id (hsame.trans hid)).trans_le hnextId

/-- A proposal that was declined or removed. -/
def Closed (id : Id) (db : Database) : Prop :=
  ∃ row ∈ db.proposals, row.id = id ∧ (row.status = .declined ∨ row.status = .removed)

theorem Closed.change {id : Id} (hclosed : Closed id w.db) (h : Change O log w j db')
    (hstep : ConversionStep w.db db') : Closed id db' := by
  obtain ⟨row, hrow, rfl, hstatus⟩ := hclosed
  obtain ⟨row', hrow', hmove⟩ := h.proposalsChange.forward hrow
  exact ⟨row', hrow', hmove.id, hstep.closed row hrow hstatus row' hrow' hmove.id⟩

end

/-! ### Sample runs -/

/-- A draft that is valid. -/
def sampleExpense : CreateExpense where
  slug := ['a']
  name := ['a']
  description := []
  purpose := []
  category := none
  cadence := .oneTime
  monthlySurplusPolicy := none
  firstSettlementAt := none
  recipientAddress := 7
  deadline := some 1000000000000
  discussionUrl := none
  metadataUri := none
  targets := [⟨.pre, ['1']⟩]

/-- The passed proposal is converted, and another one is declined. -/
def convertRun : List (Move World Reply Failure Job ℕ) :=
  passedRun ++ [.start (.createExpense 0 sampleExpense sampleUser (some 0)),
    .act 0 4 sampleOracle, .stop 0,
    .start (.create 0 ⟨[], [], []⟩ sampleUser), .act 0 8 sampleOracle, .stop 0,
    .start (.decline 0 2 none sampleUser), .act 0 2 sampleOracle, .stop 0]

/-- The proposal that was declined is removed. -/
def removedRun : List (Move World Reply Failure Job ℕ) :=
  [.start (.remove 0 2 none sampleUser), .act 0 2 sampleOracle, .stop 0]

/-- A draft is about to be written for the passed proposal, which is declined. -/
def declinedRun : List (Move World Reply Failure Job ℕ) :=
  passedRun ++ [.start (.createExpense 0 sampleExpense sampleUser (some 0)),
    .act 0 3 sampleOracle, .start (.decline 1 0 none sampleUser), .act 1 2 sampleOracle, .stop 1]

theorem allows_convertRun : ∀ m ∈ convertRun, (community sampleOutside).Allows m := by
  refine List.forall_mem_append.2 ⟨allows_passedRun, ?_⟩
  simp only [List.forall_mem_cons]
  exact ⟨trivial, answers_sampleOracle, trivial, trivial, answers_sampleOracle, trivial, trivial,
    answers_sampleOracle, trivial, by simp⟩

theorem allows_removedRun : ∀ m ∈ removedRun, (community sampleOutside).Allows m := by
  simp only [removedRun, List.forall_mem_cons]
  exact ⟨trivial, answers_sampleOracle, trivial, by simp⟩

theorem allows_declinedRun : ∀ m ∈ declinedRun, (community sampleOutside).Allows m := by
  refine List.forall_mem_append.2 ⟨allows_passedRun, ?_⟩
  simp only [List.forall_mem_cons]
  exact ⟨trivial, answers_sampleOracle, trivial, answers_sampleOracle, trivial, by simp⟩

theorem convert_isSome :
    ((community sampleOutside).play convertRun (Config.idle (World.start 0))).isSome = true := by
  decide +kernel

/-- The end of the run. -/
def convertEnd : Config World Reply Failure Job ℕ :=
  ((community sampleOutside).play convertRun (Config.idle (World.start 0))).get convert_isSome

theorem declined_isSome :
    ((community sampleOutside).play declinedRun (Config.idle (World.start 0))).isSome = true := by
  decide +kernel

/-- The end of the run. -/
def declinedEnd : Config World Reply Failure Job ℕ :=
  ((community sampleOutside).play declinedRun (Config.idle (World.start 0))).get declined_isSome

/-! ### Runs -/

/-- **Only passed proposals are converted**, in every run in which no draft is written for a
proposal that was declined or removed in the meantime: a proposal is converted just when one draft
refers to it, becomes converted from passed only, and never once it was declined or removed. -/
theorem converted_from_passed {O : Outside} {clock : Time}
    {c c' : Config World Reply Failure Job ℕ} {ls ls' : List (Label World Reply Failure Job)}
    (hrun : (community O).Run (Config.idle (World.start clock)) ls c)
    (hrun' : (community O).Run c ls' c') (hls : ∀ l ∈ ls, OnWrite Undisturbed l)
    (hls' : ∀ l ∈ ls', OnWrite Undisturbed l) :
    (∀ row ∈ c.shared.db.proposals,
      row.status = .converted ↔ c.shared.db.referring row.id = 1) ∧
      (∀ l ∈ ls, OnWrite (fun _ _ => ConversionStep) l) ∧
      ∀ row ∈ c.shared.db.proposals, row.status = .declined ∨ row.status = .removed →
        ∀ row' ∈ c'.shared.db.proposals, row'.id = row.id → row'.status ≠ .converted := by
  have hsafe := safe_of_run hrun
  obtain ⟨hconverted, hsteps⟩ := run_writes (P := fun _ _ => ConversionStep)
    (I := fun db _ => Converted db) (fun _ _ _ _ h => h)
    (fun j w db' hw hchange hcalm hconverted => hchange.converts hw hconverted hcalm)
    ((safety O).safe_idle (sound_start O clock)) hrun hls
    ⟨by rintro row ⟨⟩, by rintro row ⟨⟩, by rintro row ⟨⟩⟩
  refine ⟨fun row hrow => ⟨hconverted.one row hrow, fun hone => ?_⟩, hsteps,
    fun row hrow hstatus row' hrow' hid hstatus' => ?_⟩
  · by_contra hnot
    have hzero := hconverted.none row hrow hnot
    omega
  · have hclosed := (run_writes (P := fun _ _ _ _ => True)
      (I := fun db _ => Converted db ∧ Closed row.id db) (fun _ _ _ _ h => h)
      (fun j w db' hw hchange hcalm h => by
        obtain ⟨hstep, hnew⟩ := hchange.converts hw h.1 hcalm
        exact ⟨trivial, hnew, h.2.change hchange hstep⟩)
      hsafe hrun' hls' ⟨hconverted, row, hrow, rfl, hstatus⟩).1.2
    obtain ⟨x, hx, hxid, hxstatus⟩ := hclosed
    have hkeys := (hsafe.run hrun').inv.db.proposals
    rw [hkeys.eq hx hrow' (hxid.trans hid.symm), hstatus'] at hxstatus
    simp at hxstatus

theorem converted_from_passed_sample : ∃ c' : Config World Reply Failure Job ℕ,
    convertEnd.shared.db.proposals.map (·.status) = [.converted, .declined] ∧
      c'.shared.db.proposals.map (·.status) = [.converted, .removed] ∧
      (∀ row ∈ convertEnd.shared.db.proposals,
        row.status = .converted ↔ convertEnd.shared.db.referring row.id = 1) ∧
      ∀ row ∈ convertEnd.shared.db.proposals, row.status = .declined ∨ row.status = .removed →
        ∀ row' ∈ c'.shared.db.proposals, row'.id = row.id → row'.status ≠ .converted := by
  have hplay : ((community sampleOutside).play removedRun convertEnd).map
      (fun c => c.shared.db.proposals.map (·.status)) = some [.converted, .removed] := by
    decide +kernel
  obtain ⟨c', hc', hstatuses⟩ := Option.map_eq_some_iff.1 hplay
  obtain ⟨hone, -, hnever⟩ := converted_from_passed
    (Machine.run_labels allows_convertRun (Option.some_get convert_isSome).symm)
    (Machine.run_labels allows_removedRun hc') (by decide +kernel) (by decide +kernel)
  exact ⟨c', by decide +kernel, hstatuses, hone, hnever⟩

/-- A proposal that is declined after a transaction has read it is converted nevertheless. -/
theorem declined_is_converted : ¬∀ (O : Outside) (clock : Time)
    (c c' : Config World Reply Failure Job ℕ) (ls ls' : List (Label World Reply Failure Job)),
    (community O).Run (Config.idle (World.start clock)) ls c → (community O).Run c ls' c' →
    (∀ row ∈ c.shared.db.proposals,
      row.status = .converted ↔ c.shared.db.referring row.id = 1) ∧
      (∀ l ∈ ls, OnWrite (fun _ _ => ConversionStep) l) ∧
      ∀ row ∈ c.shared.db.proposals, row.status = .declined ∨ row.status = .removed →
        ∀ row' ∈ c'.shared.db.proposals, row'.id = row.id → row'.status ≠ .converted := by
  intro hall
  have hplay : ((community sampleOutside).play [.act 0 1 sampleOracle] declinedEnd).map
      (fun c => c.shared.db.proposals.map fun row => (row.id, row.status)) =
        some [(0, .converted)] := by decide +kernel
  obtain ⟨c', hc', hconverted⟩ := Option.map_eq_some_iff.1 hplay
  obtain ⟨-, -, hnever⟩ := hall sampleOutside 0 declinedEnd c' _ _
    (Machine.run_labels allows_declinedRun (Option.some_get declined_isSome).symm)
    (Machine.run_labels (fun m hm => by
      rw [List.mem_singleton.1 hm]
      exact answers_sampleOracle) hc')
  have hdeclined : ∃ row ∈ declinedEnd.shared.db.proposals,
      row.id = 0 ∧ row.status = .declined := by
    decide +kernel
  obtain ⟨row, hrow, hid, hstatus⟩ := hdeclined
  obtain ⟨row', hrow', heq⟩ : ∃ row' ∈ c'.shared.db.proposals,
      (row'.id, row'.status) = (0, .converted) :=
    List.mem_map.1 (hconverted ▸ List.mem_singleton_self _)
  obtain ⟨hid', hstatus'⟩ := Prod.mk.inj heq
  exact hnever row hrow (.inl hstatus) row' hrow' (hid'.trans hid.symm) hstatus'

end Community

end PreCommunity
