import PreCommunity.Community.Votes

/-!
# The text of a proposal

Voters vote on a fixed text: an author may edit a proposal only while it waits for review.  The
request reads the status before it writes, and writes whatever the status is by then.

* `Pending` : an edit finds its proposal waiting for review.
* `TextStep` : what a write may do to the texts.
* `text_is_frozen` : when every edit finds its proposal waiting, no other text ever changes.
-/

namespace PreCommunity

namespace Community

open Concurrent Store
open Escrow (Id Time Address Hash Text)

/-- The job edits the text of this proposal. -/
def Job.edits : Job → Id → Bool
  | .update _ edited _ _, id => edited = id
  | _, _ => false

/-- An edit is written while its proposal waits for review. -/
def Pending (j : Job) (_ : Time) (db _ : Database) : Prop :=
  ∀ row ∈ db.proposals, j.edits row.id = true → row.status = .pendingReview

instance (j : Job) (t : Time) (db db' : Database) : Decidable (Pending j t db db') :=
  inferInstanceAs
    (Decidable (∀ row ∈ db.proposals, j.edits row.id = true → row.status = .pendingReview))

/-- What voters vote on. -/
def CommunityProposal.text (row : CommunityProposal) : Text × Text × Text :=
  (row.title, row.description, row.category)

/-- What a write may do: a text changes only while its proposal waits for review. -/
def TextStep (db db' : Database) : Prop :=
  ∀ row ∈ db.proposals, row.status ≠ .pendingReview →
    ∀ row' ∈ db'.proposals, row'.id = row.id → row'.text = row.text

/-- The proposal does not wait for review any more, and has this text. -/
def Frozen (id : Id) (text : Text × Text × Text) (db : Database) : Prop :=
  ∃ row ∈ db.proposals, row.id = id ∧ row.status ≠ .pendingReview ∧ row.text = text

section

variable {O : Outside} {w : World} {j : Job} {db' : Database} {log : Log}

/-! ### One write -/

/-- A proposal that does not wait for review keeps its text, and never waits again. -/
theorem ProposalMove.frozen {row row' : CommunityProposal} (h : ProposalMove w j row row')
    (hpending : j.edits row.id = true → row.status = .pendingReview)
    (hstatus : row.status ≠ .pendingReview) :
    row'.status ≠ .pendingReview ∧ row'.text = row.text := by
  refine ⟨(h.snapshot hstatus).1, ?_⟩
  cases h with
  | same => rfl
  | step h =>
    cases h with
    | text _ _ _ hjob =>
      obtain ⟨n, dto, actor, rfl⟩ := hjob
      exact absurd (hpending (decide_eq_true rfl)) hstatus
    | openVoting _ _ _ _ _ | close _ _ _ | decline _ _ _ _ | remove _ _ _ _ => rfl
  | convert _ _ _ _ _ _ _ => rfl

theorem Change.textStep (hw : Sound O w) (h : Change O log w j db')
    (hpending : Pending j w.clock w.db db') : TextStep w.db db' := by
  intro row hrow hstatus row' hrow' hid
  obtain ⟨old, hold, hmove⟩ | ⟨_, _, _, _, _, -, rfl⟩ := h.proposalsChange.backward hrow'
  · obtain rfl := hw.db.proposals.eq hold hrow (hmove.id.symm.trans hid)
    exact (hmove.frozen (hpending old hold) hstatus).2
  · exact absurd hid (hw.db.proposalsBelow row hrow).ne'

theorem Frozen.change {id : Id} {text : Text × Text × Text} (hfrozen : Frozen id text w.db)
    (h : Change O log w j db') (hpending : Pending j w.clock w.db db') : Frozen id text db' := by
  obtain ⟨row, hrow, rfl, hstatus, rfl⟩ := hfrozen
  obtain ⟨row', hrow', hmove⟩ := h.proposalsChange.forward hrow
  obtain ⟨hstatus', htext⟩ := hmove.frozen (hpending row hrow) hstatus
  exact ⟨row', hrow', hmove.id, hstatus', htext⟩

end

/-! ### Sample runs -/

/-- An edit of the text. -/
def sampleEdit : UpdateProposal := ⟨some ['a'], none, none⟩

/-- A proposal is written, edited and opened. -/
def editedRun : List (Move World Reply Failure Job ℕ) :=
  [.start (.create 0 ⟨[], [], []⟩ sampleUser), .act 0 8 sampleOracle, .stop 0,
    .start (.update 0 0 sampleEdit sampleUser), .act 0 2 sampleOracle, .stop 0,
    .start (.openVoting 0 0 none sampleUser), .act 0 3 sampleOracle, .stop 0]

/-- The proposal gets a vote. -/
def votedRun : List (Move World Reply Failure Job ℕ) :=
  [.start (.vote 0 0 .inFavour sampleUser), .act 0 11 sampleOracle, .stop 0]

/-- An edit has read the proposal, which is opened for votes before the edit is written. -/
def openedRun : List (Move World Reply Failure Job ℕ) :=
  [.start (.create 0 ⟨[], [], []⟩ sampleUser), .act 0 8 sampleOracle, .stop 0,
    .start (.update 0 0 sampleEdit sampleUser), .act 0 1 sampleOracle,
    .start (.openVoting 1 0 none sampleUser), .act 1 3 sampleOracle, .stop 1]

theorem allows_editedRun : ∀ m ∈ editedRun, (community sampleOutside).Allows m := by
  simp only [editedRun, List.forall_mem_cons]
  exact ⟨trivial, answers_sampleOracle, trivial, trivial, answers_sampleOracle, trivial, trivial,
    answers_sampleOracle, trivial, by simp⟩

theorem allows_votedRun : ∀ m ∈ votedRun, (community sampleOutside).Allows m := by
  simp only [votedRun, List.forall_mem_cons]
  exact ⟨trivial, answers_sampleOracle, trivial, by simp⟩

theorem allows_openedRun : ∀ m ∈ openedRun, (community sampleOutside).Allows m := by
  simp only [openedRun, List.forall_mem_cons]
  exact ⟨trivial, answers_sampleOracle, trivial, trivial, answers_sampleOracle, trivial,
    answers_sampleOracle, trivial, by simp⟩

theorem edited_isSome :
    ((community sampleOutside).play editedRun (Config.idle (World.start 0))).isSome = true := by
  decide +kernel

/-- The end of the run. -/
def editedEnd : Config World Reply Failure Job ℕ :=
  ((community sampleOutside).play editedRun (Config.idle (World.start 0))).get edited_isSome

theorem opened_isSome :
    ((community sampleOutside).play openedRun (Config.idle (World.start 0))).isSome = true := by
  decide +kernel

/-- The end of the run. -/
def openedEnd : Config World Reply Failure Job ℕ :=
  ((community sampleOutside).play openedRun (Config.idle (World.start 0))).get opened_isSome

/-! ### Runs -/

/-- **Voters vote on a fixed text**, in every run in which edits are written only while their
proposal waits for review: no write changes another text, and a proposal that does not wait any more
keeps its text in every continuation of the run. -/
theorem text_is_frozen {O : Outside} {clock : Time} {c c' : Config World Reply Failure Job ℕ}
    {ls ls' : List (Label World Reply Failure Job)}
    (hrun : (community O).Run (Config.idle (World.start clock)) ls c)
    (hrun' : (community O).Run c ls' c') (hls : ∀ l ∈ ls, OnWrite Pending l)
    (hls' : ∀ l ∈ ls', OnWrite Pending l) :
    (∀ l ∈ ls, OnWrite (fun _ _ => TextStep) l) ∧
      ∀ row ∈ c.shared.db.proposals, row.status ≠ .pendingReview →
        ∀ row' ∈ c'.shared.db.proposals, row'.id = row.id → row'.text = row.text := by
  have hsafe := safe_of_run hrun
  obtain ⟨-, hsteps⟩ := run_writes (P := fun _ _ => TextStep) (I := fun _ _ => True)
    (fun _ _ _ _ h => h)
    (fun j w db' hw hchange hpending _ => ⟨hchange.textStep hw hpending, trivial⟩)
    ((safety O).safe_idle (sound_start O clock)) hrun hls trivial
  refine ⟨hsteps, fun row hrow hstatus row' hrow' hid => ?_⟩
  have hfrozen := (run_writes (P := fun _ _ _ _ => True)
    (I := fun db _ => Frozen row.id row.text db) (fun _ _ _ _ h => h)
    (fun j w db' hw hchange hpending h => ⟨trivial, h.change hchange hpending⟩)
    hsafe hrun' hls' ⟨row, hrow, rfl, hstatus, rfl⟩).1
  obtain ⟨x, hx, hxid, -, htext⟩ := hfrozen
  rw [← htext, (hsafe.run hrun').inv.db.proposals.eq hrow' hx (hid.trans hxid.symm)]

theorem text_is_frozen_sample : ∃ c' : Config World Reply Failure Job ℕ,
    editedEnd.shared.db.proposals.map (·.status) = [.voting] ∧ c'.shared.db.votes.length = 1 ∧
      ∀ row ∈ editedEnd.shared.db.proposals, row.status ≠ .pendingReview →
        ∀ row' ∈ c'.shared.db.proposals, row'.id = row.id → row'.text = row.text := by
  have hplay : ((community sampleOutside).play votedRun editedEnd).map
      (fun c => c.shared.db.votes.length) = some 1 := by decide +kernel
  obtain ⟨c', hc', hvotes⟩ := Option.map_eq_some_iff.1 hplay
  exact ⟨c', by decide +kernel, hvotes, (text_is_frozen
    (Machine.run_labels allows_editedRun (Option.some_get edited_isSome).symm)
    (Machine.run_labels allows_votedRun hc') (by decide +kernel) (by decide +kernel)).2⟩

/-- An edit that has read the proposal before it is opened is written while the vote goes on. -/
theorem text_changes_while_voting : ¬∀ (O : Outside) (clock : Time)
    (c c' : Config World Reply Failure Job ℕ) (ls ls' : List (Label World Reply Failure Job)),
    (community O).Run (Config.idle (World.start clock)) ls c → (community O).Run c ls' c' →
    (∀ l ∈ ls, OnWrite (fun _ _ => TextStep) l) ∧
      ∀ row ∈ c.shared.db.proposals, row.status ≠ .pendingReview →
        ∀ row' ∈ c'.shared.db.proposals, row'.id = row.id → row'.text = row.text := by
  intro hall
  have hplay : ((community sampleOutside).play [.act 0 1 sampleOracle] openedEnd).map
      (fun c => c.shared.db.proposals.map fun row => (row.id, row.text)) =
        some [(0, ['a'], [], [])] := by decide +kernel
  obtain ⟨c', hc', htexts⟩ := Option.map_eq_some_iff.1 hplay
  obtain ⟨-, hnever⟩ := hall sampleOutside 0 openedEnd c' _ _
    (Machine.run_labels allows_openedRun (Option.some_get opened_isSome).symm)
    (Machine.run_labels (fun m hm => by
      rw [List.mem_singleton.1 hm]
      exact answers_sampleOracle) hc')
  have hvoting : ∃ row ∈ openedEnd.shared.db.proposals,
      row.id = 0 ∧ row.status = .voting ∧ row.text = ([], [], []) := by
    decide +kernel
  obtain ⟨row, hrow, hid, hstatus, htext⟩ := hvoting
  obtain ⟨row', hrow', heq⟩ : ∃ row' ∈ c'.shared.db.proposals,
      (row'.id, row'.text) = (0, ['a'], [], []) :=
    List.mem_map.1 (htexts ▸ List.mem_singleton_self _)
  obtain ⟨hid', htext'⟩ := Prod.mk.inj heq
  have hsame := hnever row hrow (by simp [hstatus]) row' hrow' (hid'.trans hid.symm)
  rw [htext, htext'] at hsame
  cases hsame

end Community

end PreCommunity
