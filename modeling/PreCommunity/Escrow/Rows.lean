import PreCommunity.Escrow.Transactions

/-!
# The rows of the payouts

What holds of the tables of the payouts in every reachable state, and what never changes of a row.

* `Database.Sound` : ids are unique and references go somewhere.
* `Payout.Follows`, `SafePayoutIntent.Follows`, `SafePayoutProposal.Follows` : what stays of a row.
* `Evolves` : the tables after any number of transactions.
* `Write.preserves` : every transaction of every job.
* `payouts O` : the protocol of the escrow.
-/

namespace PreCommunity

namespace Escrow

open Store Concurrent

/-! ### Rows -/

/-- What stays of a payout. -/
structure Payout.Follows (row row' : Payout) : Prop where
  goalId : row'.goalId = row.goalId
  asset : row'.asset = row.asset
  kind : row'.kind = row.kind
  amountRaw : row'.amountRaw = row.amountRaw
  failed : row.status = .failed → row'.status = .failed

/-- What stays of a reservation. -/
structure SafePayoutIntent.Follows (row row' : SafePayoutIntent) : Prop where
  payoutId : row'.payoutId = row.payoutId
  goalId : row'.goalId = row.goalId
  chainId : row'.chainId = row.chainId
  manual : row.delivery = .manual → row'.delivery = .manual

/-- What stays of a proposal. -/
def SafePayoutProposal.Follows (row row' : SafePayoutProposal) : Prop :=
  row'.intentId = row.intentId

theorem Payout.Follows.refl (row : Payout) : row.Follows row := ⟨rfl, rfl, rfl, rfl, fun h => h⟩

theorem Payout.Follows.trans {a b c : Payout} (h : a.Follows b) (h' : b.Follows c) : a.Follows c :=
  ⟨h'.goalId.trans h.goalId, h'.asset.trans h.asset, h'.kind.trans h.kind,
    h'.amountRaw.trans h.amountRaw, fun hf => h'.failed (h.failed hf)⟩

theorem SafePayoutIntent.Follows.refl (row : SafePayoutIntent) : row.Follows row :=
  ⟨rfl, rfl, rfl, fun h => h⟩

theorem SafePayoutIntent.Follows.trans {a b c : SafePayoutIntent} (h : a.Follows b)
    (h' : b.Follows c) : a.Follows c :=
  ⟨h'.payoutId.trans h.payoutId, h'.goalId.trans h.goalId, h'.chainId.trans h.chainId,
    fun hm => h'.manual (h.manual hm)⟩

theorem SafePayoutProposal.Follows.refl (row : SafePayoutProposal) : row.Follows row := rfl

theorem SafePayoutProposal.Follows.trans {a b c : SafePayoutProposal} (h : a.Follows b)
    (h' : b.Follows c) : a.Follows c :=
  Eq.trans h' h

/-- The references of a payout. -/
def Payout.key (row : Payout) : Id × Id := (row.id, row.goalId)

/-- The references of a reservation. -/
def SafePayoutIntent.key (row : SafePayoutIntent) : Id × Id × Id :=
  (row.id, row.payoutId, row.goalId)

/-- The references of a proposal. -/
def SafePayoutProposal.key (row : SafePayoutProposal) : Id × Id := (row.id, row.intentId)

/-- The keys of a goal. -/
def FundingGoal.key (row : FundingGoal) : Id × ℕ × Hash := (row.id, row.chainId, row.chainGoalId)

/-! ### Sound tables -/

/-- Ids are unique and references go somewhere. -/
structure Database.Sound (config : Deployment) (db : Database) : Prop where
  payouts : Keyed (·.id) db.payouts
  payouts_lt : ∀ row ∈ db.payouts, row.id < db.nextId
  intents : Keyed (·.id) db.payoutIntents
  intents_lt : ∀ row ∈ db.payoutIntents, row.id < db.nextId
  intents_payout : Keyed (·.payoutId) db.payoutIntents
  payout_of_intent : ∀ row ∈ db.payoutIntents, ∃ payout ∈ db.payouts,
    payout.id = row.payoutId ∧ payout.goalId = row.goalId
  proposals : Keyed (·.id) db.payoutProposals
  proposals_lt : ∀ row ∈ db.payoutProposals, row.id < db.nextId
  proposals_intent : Keyed (·.intentId) db.payoutProposals
  intent_of_proposal : ∀ row ∈ db.payoutProposals, ∃ intent ∈ db.payoutIntents,
    intent.id = row.intentId
  goals : Keyed (·.id) db.goals
  goals_lt : ∀ row ∈ db.goals, row.id < db.nextId
  goals_chain : Keyed (fun row => (row.chainId, row.chainGoalId)) db.goals
  periods : ∀ goalId, Keyed (·.periodIndex) (db.periodsOf goalId)
  events : ∀ row ∈ db.events, row.chainId = config.chainId

/-- The same rows, with the same references. -/
structure SameKeys (db db' : Database) : Prop where
  payouts : db'.payouts.map (·.key) = db.payouts.map (·.key)
  intents : db'.payoutIntents.map (·.key) = db.payoutIntents.map (·.key)
  proposals : db'.payoutProposals.map (·.key) = db.payoutProposals.map (·.key)
  goals : db'.goals.map (·.key) = db.goals.map (·.key)
  periods : ∀ goalId, Keyed (·.periodIndex) (db.periodsOf goalId) →
    Keyed (·.periodIndex) (db'.periodsOf goalId)
  events : ∀ row ∈ db'.events, row ∈ db.events
  nextId : db.nextId ≤ db'.nextId

/-- Later tables of the same rows. -/
structure Evolves (db db' : Database) : Prop where
  nextId : db.nextId ≤ db'.nextId
  payouts : Grown Payout.Follows (·.id) db.nextId db'.nextId db.payouts db'.payouts
  intents : Grown SafePayoutIntent.Follows (·.id) db.nextId db'.nextId db.payoutIntents
    db'.payoutIntents
  intents_kept : ∀ row ∈ db.payoutIntents, ∃ row' ∈ db'.payoutIntents, row'.id = row.id
  proposals : Grown SafePayoutProposal.Follows (·.id) db.nextId db'.nextId db.payoutProposals
    db'.payoutProposals

section

variable {config : Deployment} {ext : External} {db db' db'' : Database}

theorem SameKeys.sound (h : SameKeys db db') (hdb : db.Sound config) : db'.Sound config where
  payouts := hdb.payouts.of_map_eq (k := Prod.fst) h.payouts
  payouts_lt row hrow := by
    obtain ⟨old, hold, hkey⟩ := exists_of_map_eq h.payouts hrow
    have hid : old.id = row.id := congrArg Prod.fst hkey
    exact hid ▸ lt_of_lt_of_le (hdb.payouts_lt old hold) h.nextId
  intents := hdb.intents.of_map_eq (k := Prod.fst) h.intents
  intents_lt row hrow := by
    obtain ⟨old, hold, hkey⟩ := exists_of_map_eq h.intents hrow
    have hid : old.id = row.id := congrArg Prod.fst hkey
    exact hid ▸ lt_of_lt_of_le (hdb.intents_lt old hold) h.nextId
  intents_payout := hdb.intents_payout.of_map_eq (k := fun key => key.2.1) h.intents
  payout_of_intent row hrow := by
    obtain ⟨old, hold, hkey⟩ := exists_of_map_eq h.intents hrow
    obtain ⟨payout, hpayout, hid, hgoal⟩ := hdb.payout_of_intent old hold
    obtain ⟨payout', hpayout', hkey'⟩ := exists_of_map_eq h.payouts.symm hpayout
    have h₁ : old.payoutId = row.payoutId := congrArg (fun key => key.2.1) hkey
    have h₂ : old.goalId = row.goalId := congrArg (fun key => key.2.2) hkey
    have h₃ : payout'.id = payout.id := congrArg Prod.fst hkey'
    have h₄ : payout'.goalId = payout.goalId := congrArg Prod.snd hkey'
    exact ⟨payout', hpayout', h₃.trans (hid.trans h₁), h₄.trans (hgoal.trans h₂)⟩
  proposals := hdb.proposals.of_map_eq (k := Prod.fst) h.proposals
  proposals_lt row hrow := by
    obtain ⟨old, hold, hkey⟩ := exists_of_map_eq h.proposals hrow
    have hid : old.id = row.id := congrArg Prod.fst hkey
    exact hid ▸ lt_of_lt_of_le (hdb.proposals_lt old hold) h.nextId
  proposals_intent := hdb.proposals_intent.of_map_eq (k := Prod.snd) h.proposals
  intent_of_proposal row hrow := by
    obtain ⟨old, hold, hkey⟩ := exists_of_map_eq h.proposals hrow
    obtain ⟨intent, hintent, hid⟩ := hdb.intent_of_proposal old hold
    obtain ⟨intent', hintent', hkey'⟩ := exists_of_map_eq h.intents.symm hintent
    have h₁ : old.intentId = row.intentId := congrArg Prod.snd hkey
    have h₂ : intent'.id = intent.id := congrArg Prod.fst hkey'
    exact ⟨intent', hintent', h₂.trans (hid.trans h₁)⟩
  goals := hdb.goals.of_map_eq (k := Prod.fst) h.goals
  goals_lt row hrow := by
    obtain ⟨old, hold, hkey⟩ := exists_of_map_eq h.goals hrow
    have hid : old.id = row.id := congrArg Prod.fst hkey
    exact hid ▸ lt_of_lt_of_le (hdb.goals_lt old hold) h.nextId
  goals_chain := hdb.goals_chain.of_map_eq (k := Prod.snd) h.goals
  periods goalId := h.periods goalId (hdb.periods goalId)
  events row hrow := hdb.events row (h.events row hrow)

theorem Evolves.refl (db : Database) : Evolves db db :=
  ⟨Nat.le_refl _, .refl Payout.Follows.refl, .refl SafePayoutIntent.Follows.refl,
    fun row hrow => ⟨row, hrow, rfl⟩, .refl SafePayoutProposal.Follows.refl⟩

theorem Evolves.trans (h : Evolves db db') (h' : Evolves db' db'') : Evolves db db'' where
  nextId := Nat.le_trans h.nextId h'.nextId
  payouts := h.payouts.trans Payout.Follows.trans h.nextId h'.nextId h'.payouts
  intents := h.intents.trans SafePayoutIntent.Follows.trans h.nextId h'.nextId h'.intents
  intents_kept row hrow := by
    obtain ⟨row', hrow', hid⟩ := h.intents_kept row hrow
    obtain ⟨row'', hrow'', hid'⟩ := h'.intents_kept row' hrow'
    exact ⟨row'', hrow'', hid'.trans hid⟩
  proposals := h.proposals.trans SafePayoutProposal.Follows.trans h.nextId h'.nextId h'.proposals

/-- Rows of the payouts that are updated in place. -/
structure InPlace (db db' : Database) : Prop where
  payouts : Updated Payout.Follows Payout.key db.payouts db'.payouts
  intents : Updated SafePayoutIntent.Follows SafePayoutIntent.key db.payoutIntents
    db'.payoutIntents
  proposals : Updated SafePayoutProposal.Follows SafePayoutProposal.key db.payoutProposals
    db'.payoutProposals
  goals : db'.goals.map (·.key) = db.goals.map (·.key)
  periods : ∀ goalId, Keyed (·.periodIndex) (db.periodsOf goalId) →
    Keyed (·.periodIndex) (db'.periodsOf goalId)
  events : ∀ row ∈ db'.events, row ∈ db.events
  nextId : db.nextId ≤ db'.nextId

theorem InPlace.sound (h : InPlace db db') (hdb : db.Sound config) : db'.Sound config :=
  SameKeys.sound ⟨h.payouts.map_eq, h.intents.map_eq, h.proposals.map_eq, h.goals, h.periods,
    h.events, h.nextId⟩ hdb

theorem InPlace.evolves (h : InPlace db db') : Evolves db db' where
  nextId := h.nextId
  payouts := h.payouts.grown (k := Prod.fst) fun _ => rfl
  intents := h.intents.grown (k := Prod.fst) fun _ => rfl
  intents_kept row hrow := by
    obtain ⟨row', hrow', hkey⟩ := exists_of_map_eq h.intents.map_eq.symm hrow
    exact ⟨row', hrow', congrArg Prod.fst hkey⟩
  proposals := h.proposals.grown (k := Prod.fst) fun _ => rfl

theorem InPlace.refl (db : Database) : InPlace db db :=
  ⟨.refl Payout.Follows.refl, .refl SafePayoutIntent.Follows.refl,
    .refl SafePayoutProposal.Follows.refl, rfl, fun _ h => h, fun _ h => h, Nat.le_refl _⟩

theorem InPlace.trans (h : InPlace db db') (h' : InPlace db' db'') : InPlace db db'' :=
  ⟨h.payouts.trans Payout.Follows.trans h'.payouts,
    h.intents.trans SafePayoutIntent.Follows.trans h'.intents,
    h.proposals.trans SafePayoutProposal.Follows.trans h'.proposals, h'.goals.trans h.goals,
    fun goalId hperiods => h'.periods goalId (h.periods goalId hperiods),
    fun row hrow => h.events row (h'.events row hrow), Nat.le_trans h.nextId h'.nextId⟩

/-! ### Updates of one table -/

theorem InPlace.payouts_update {p : Payout → Bool} {f : Payout → Payout}
    (hf : ∀ row ∈ db.payouts, p row = true → (f row).key = row.key ∧ row.Follows (f row)) :
    InPlace db { db with payouts := updateWhere p f db.payouts } :=
  { InPlace.refl db with payouts := .of_updateWhere Payout.Follows.refl hf }

theorem InPlace.intents_update {p : SafePayoutIntent → Bool}
    {f : SafePayoutIntent → SafePayoutIntent}
    (hf : ∀ row ∈ db.payoutIntents, p row = true → (f row).key = row.key ∧ row.Follows (f row)) :
    InPlace db { db with payoutIntents := updateWhere p f db.payoutIntents } :=
  { InPlace.refl db with intents := .of_updateWhere SafePayoutIntent.Follows.refl hf }

theorem InPlace.proposals_update {p : SafePayoutProposal → Bool}
    {f : SafePayoutProposal → SafePayoutProposal} (hf : ∀ row, (f row).key = row.key) :
    InPlace db { db with payoutProposals := updateWhere p f db.payoutProposals } :=
  { InPlace.refl db with
    proposals := .of_updateWhere SafePayoutProposal.Follows.refl fun row _ _ =>
      ⟨hf row, congrArg Prod.snd (hf row)⟩ }

/-! ### Rows at two times -/

theorem Evolves.payout (h : Evolves db db') (hdb : db.Sound config) {row row' : Payout}
    (hrow : row ∈ db.payouts) (hrow' : row' ∈ db'.payouts) (hid : row'.id = row.id) :
    row.Follows row' := by
  have hlt : row'.id < db.nextId := hid ▸ hdb.payouts_lt row hrow
  obtain ⟨old, hold, hold', hfollows⟩ := h.payouts.kept row' hrow' hlt
  rwa [← hdb.payouts.eq hold hrow (hold'.trans hid)]

theorem Evolves.intent (h : Evolves db db') (hdb : db.Sound config) {row row' : SafePayoutIntent}
    (hrow : row ∈ db.payoutIntents) (hrow' : row' ∈ db'.payoutIntents) (hid : row'.id = row.id) :
    row.Follows row' := by
  have hlt : row'.id < db.nextId := hid ▸ hdb.intents_lt row hrow
  obtain ⟨old, hold, hold', hfollows⟩ := h.intents.kept row' hrow' hlt
  rwa [← hdb.intents.eq hold hrow (hold'.trans hid)]

theorem Evolves.proposal (h : Evolves db db') (hdb : db.Sound config)
    {row row' : SafePayoutProposal} (hrow : row ∈ db.payoutProposals)
    (hrow' : row' ∈ db'.payoutProposals) (hid : row'.id = row.id) : row.Follows row' := by
  have hlt : row'.id < db.nextId := hid ▸ hdb.proposals_lt row hrow
  obtain ⟨old, hold, hold', hfollows⟩ := h.proposals.kept row' hrow' hlt
  rwa [← hdb.proposals.eq hold hrow (hold'.trans hid)]

/-! ### The transactions -/

/-- A transaction leaves sound tables that follow from the old ones. -/
structure Preserves (config : Deployment) (db db' : Database) : Prop where
  sound : db'.Sound config
  evolves : Evolves db db'

theorem InPlace.preserves (h : InPlace db db') (hdb : db.Sound config) :
    Preserves config db db' :=
  ⟨h.sound hdb, h.evolves⟩

theorem Preserves.trans (h : Preserves config db db') (h' : Preserves config db' db'') :
    Preserves config db db'' :=
  ⟨h'.sound, h.evolves.trans h'.evolves⟩

/-- Payouts without a reservation can be deleted. -/
theorem preserves_filter (hdb : db.Sound config) {p : Payout → Bool}
    (hp : ∀ intent ∈ db.payoutIntents, ∀ payout ∈ db.payouts, payout.id = intent.payoutId →
      payout.goalId = intent.goalId → p payout = true) :
    Preserves config db { db with payouts := db.payouts.filter p } where
  sound :=
    { hdb with
      payouts := hdb.payouts.filter p
      payouts_lt := fun row hrow => hdb.payouts_lt row (List.mem_filter.1 hrow).1
      payout_of_intent := fun intent hintent => by
        obtain ⟨payout, hpayout, hid, hgoal⟩ := hdb.payout_of_intent intent hintent
        exact ⟨payout, List.mem_filter.2 ⟨hpayout, hp intent hintent payout hpayout hid hgoal⟩,
          hid, hgoal⟩ }
  evolves := { Evolves.refl db with payouts := .filter Payout.Follows.refl p }

/-- A payout is added. -/
theorem preserves_payout (hdb : db.Sound config) {payout : Payout} (hid : payout.id = db.nextId) :
    Preserves config db
      { db with payouts := db.payouts ++ [payout], nextId := db.nextId + 1 } := by
  have hgrown : Grown Payout.Follows (·.id) db.nextId (db.nextId + 1) db.payouts
      (db.payouts ++ [payout]) :=
    .append_one Payout.Follows.refl hid.ge (hid ▸ Nat.lt_succ_self _)
  refine ⟨?_, ⟨Nat.le_succ _, hgrown, .refl SafePayoutIntent.Follows.refl,
    fun row hrow => ⟨row, hrow, rfl⟩, .refl SafePayoutProposal.Follows.refl⟩⟩
  exact
    { hdb with
      payouts := hgrown.keyed hdb.payouts hdb.payouts_lt
      payouts_lt := hgrown.lt (Nat.le_succ _) hdb.payouts_lt
      intents_lt := fun row hrow => Nat.lt_succ_of_lt (hdb.intents_lt row hrow)
      payout_of_intent := fun intent hintent => by
        obtain ⟨payout, hpayout, hrefs⟩ := hdb.payout_of_intent intent hintent
        exact ⟨payout, List.mem_append_left _ hpayout, hrefs⟩
      proposals_lt := fun row hrow => Nat.lt_succ_of_lt (hdb.proposals_lt row hrow)
      goals_lt := fun row hrow => Nat.lt_succ_of_lt (hdb.goals_lt row hrow) }

/-- A reservation is added to a payout that has none. -/
theorem preserves_intent (hdb : db.Sound config) {intent : SafePayoutIntent} {payout : Payout}
    (hid : intent.id = db.nextId) (hpayout : payout ∈ db.payouts)
    (hrefs : payout.id = intent.payoutId ∧ payout.goalId = intent.goalId)
    (hnone : ∀ row ∈ db.payoutIntents, row.payoutId ≠ intent.payoutId) :
    Preserves config db
      { db with payoutIntents := db.payoutIntents ++ [intent], nextId := db.nextId + 1 } := by
  have hgrown : Grown SafePayoutIntent.Follows (·.id) db.nextId (db.nextId + 1) db.payoutIntents
      (db.payoutIntents ++ [intent]) :=
    .append_one SafePayoutIntent.Follows.refl hid.ge (hid ▸ Nat.lt_succ_self _)
  refine ⟨?_, ⟨Nat.le_succ _, .refl Payout.Follows.refl, hgrown,
    fun row hrow => ⟨row, List.mem_append_left _ hrow, rfl⟩,
    .refl SafePayoutProposal.Follows.refl⟩⟩
  exact
    { hdb with
      payouts_lt := fun row hrow => Nat.lt_succ_of_lt (hdb.payouts_lt row hrow)
      intents := hgrown.keyed hdb.intents hdb.intents_lt
      intents_lt := hgrown.lt (Nat.le_succ _) hdb.intents_lt
      intents_payout := hdb.intents_payout.append_one hnone
      payout_of_intent := fun row hrow => by
        obtain hrow | hrow := List.mem_append.1 hrow
        · exact hdb.payout_of_intent row hrow
        · rw [List.mem_singleton.1 hrow]
          exact ⟨payout, hpayout, hrefs⟩
      proposals_lt := fun row hrow => Nat.lt_succ_of_lt (hdb.proposals_lt row hrow)
      intent_of_proposal := fun row hrow => by
        obtain ⟨intent, hintent, hid⟩ := hdb.intent_of_proposal row hrow
        exact ⟨intent, List.mem_append_left _ hintent, hid⟩
      goals_lt := fun row hrow => Nat.lt_succ_of_lt (hdb.goals_lt row hrow) }

/-- A proposal is added to a reservation that has none. -/
theorem preserves_proposal (hdb : db.Sound config) {proposal : SafePayoutProposal}
    {intent : SafePayoutIntent} (hid : proposal.id = db.nextId)
    (hintent : intent ∈ db.payoutIntents)
    (href : intent.id = proposal.intentId)
    (hnone : ∀ row ∈ db.payoutProposals, row.intentId ≠ proposal.intentId) :
    Preserves config db
      { db with payoutProposals := db.payoutProposals ++ [proposal], nextId := db.nextId + 1 } := by
  have hgrown : Grown SafePayoutProposal.Follows (·.id) db.nextId (db.nextId + 1)
      db.payoutProposals (db.payoutProposals ++ [proposal]) :=
    .append_one SafePayoutProposal.Follows.refl hid.ge (hid ▸ Nat.lt_succ_self _)
  refine ⟨?_, ⟨Nat.le_succ _, .refl Payout.Follows.refl, .refl SafePayoutIntent.Follows.refl,
    fun row hrow => ⟨row, hrow, rfl⟩, hgrown⟩⟩
  exact
    { hdb with
      payouts_lt := fun row hrow => Nat.lt_succ_of_lt (hdb.payouts_lt row hrow)
      intents_lt := fun row hrow => Nat.lt_succ_of_lt (hdb.intents_lt row hrow)
      proposals := hgrown.keyed hdb.proposals hdb.proposals_lt
      proposals_lt := hgrown.lt (Nat.le_succ _) hdb.proposals_lt
      proposals_intent := hdb.proposals_intent.append_one hnone
      intent_of_proposal := fun row hrow => by
        obtain hrow | hrow := List.mem_append.1 hrow
        · exact hdb.intent_of_proposal row hrow
        · rw [List.mem_singleton.1 hrow]
          exact ⟨intent, hintent, href⟩
      goals_lt := fun row hrow => Nat.lt_succ_of_lt (hdb.goals_lt row hrow) }

/-! ### The requests -/

theorem Payout.fail_follows (row : Payout) : row.fail.key = row.key ∧ row.Follows row.fail :=
  ⟨rfl, rfl, rfl, rfl, rfl, fun _ => rfl⟩

theorem Payout.execute_follows (row : Payout) (h : row.status ≠ .failed) (txHash : Hash)
    (recipient : Address) (executedAt : Option Time) :
    (row.execute txHash recipient executedAt).key = row.key ∧
      row.Follows (row.execute txHash recipient executedAt) :=
  ⟨rfl, rfl, rfl, rfl, rfl, fun hfailed => absurd hfailed h⟩

theorem SafePayoutIntent.consume_follows (when : Time) (row : SafePayoutIntent) :
    (row.consume when).key = row.key ∧ row.Follows (row.consume when) :=
  ⟨rfl, rfl, rfl, rfl, fun h => h⟩

theorem SafePayoutIntent.toManual_follows (row : SafePayoutIntent) :
    row.toManual.key = row.key ∧ row.Follows row.toManual :=
  ⟨rfl, rfl, rfl, rfl, fun _ => rfl⟩

/-- Reservations are given up. -/
theorem inPlace_giveUp (p : Payout → Bool) (q : SafePayoutIntent → Bool) (now : Time) :
    InPlace db
      { db with
        payouts := updateWhere p (·.fail) db.payouts
        payoutIntents := updateWhere q (·.consume now) db.payoutIntents } :=
  (InPlace.payouts_update fun row _ _ => row.fail_follows).trans
    (InPlace.intents_update fun row _ _ => row.consume_follows now)

/-- A reservation becomes a manual one, and its proposal is superseded. -/
theorem inPlace_convert (p : SafePayoutProposal → Bool) (q : SafePayoutIntent → Bool) (now : Time) :
    InPlace db
      { db with
        payoutProposals := updateWhere p (·.supersede now) db.payoutProposals
        payoutIntents := updateWhere q (·.toManual) db.payoutIntents } := by
  have hproposals : InPlace db
      { db with payoutProposals := updateWhere p (·.supersede now) db.payoutProposals } :=
    InPlace.proposals_update fun _ => rfl
  exact hproposals.trans (InPlace.intents_update fun row _ _ => row.toManual_follows)

theorem preserves_reserve {goal : FundingGoal} {dto : ReleaseProposal} {safeInfo : SafeInfo}
    {actor : Address} {safeNonce : Option ℕ} {expiresAt : Option Time} {intent : SafePayoutIntent}
    (hdb : db.Sound config)
    (h : reserveTx config ext goal dto safeInfo actor safeNonce expiresAt db = .ok (db', intent)) :
    Preserves config db db' := by
  obtain ⟨-, ⟨hid, hpayoutId, hgoalId, -, -⟩, payout, ⟨hpayout, hgoal, -⟩, rfl⟩ := reserveTx_ok h
  have hfirst : Preserves config db
      { db with payouts := db.payouts ++ [payout], nextId := db.nextId + 1 } :=
    preserves_payout hdb hpayout
  refine hfirst.trans (preserves_intent hfirst.sound hid
    (List.mem_append_right _ (List.mem_singleton_self payout))
    ⟨hpayout.trans hpayoutId.symm, hgoal.trans hgoalId.symm⟩ fun row hrow heq => ?_)
  obtain ⟨old, hold, hold', -⟩ := hdb.payout_of_intent row hrow
  have hlt := hdb.payouts_lt old hold
  rw [hold', heq, hpayoutId] at hlt
  exact Nat.lt_irrefl _ hlt

theorem proposal?_none {intentId : Id} (h : db.proposal? intentId = none) :
    ∀ row ∈ db.payoutProposals, row.intentId ≠ intentId := by
  intro row hrow hid
  exact List.find?_eq_none.1 h row hrow (decide_eq_true hid)

theorem preserves_claim {intentId : Id} {safeTxHash : Hash} {safeNonce : ℕ} {actor : Address}
    {threshold : ℕ} {consumedAt : Time} {proposal : SafePayoutProposal} (hdb : db.Sound config)
    (h : claimTx intentId safeTxHash safeNonce actor threshold consumedAt db =
      .ok (db', proposal)) :
    Preserves config db db' := by
  obtain ⟨⟨row, hrow, hrowId, -, -, hnone, -⟩, ⟨hid, hintentId, -⟩, rfl⟩ := claimTx_ok h
  have hfirst : Preserves config db
      { db with
        payoutIntents := updateWhere (fun row => row.id = intentId) (·.consume consumedAt)
          db.payoutIntents } :=
    (InPlace.intents_update fun row _ _ => row.consume_follows consumedAt).preserves hdb
  have hmem := mem_updateWhere_of (f := SafePayoutIntent.consume consumedAt)
    (p := fun row => decide (row.id = intentId)) hrow (decide_eq_true hrowId)
  refine hfirst.trans (preserves_proposal hfirst.sound hid hmem (hrowId.trans hintentId.symm) ?_)
  intro other hother
  rw [hintentId, ← hrowId]
  exact proposal?_none hnone other hother

/-! ### The synchronisation -/

theorem preserves_reconcile (hdb : db.Sound config) (payout : Payout) (executionTxHash : Hash) :
    Preserves config db (reconcileConfirmedSafePayout payout executionTxHash db).1 := by
  rcases reconcile_cases payout executionTxHash db with
    heq | ⟨confirmed, -, hprojection, ⟨reserved, hreserved, hid, hproposed⟩, heq⟩
  · rw [heq]
    exact (InPlace.refl db).preserves hdb
  rw [heq]
  have hfirst : Preserves config db
      { db with
        payouts := updateWhere (fun row => row.id = payout.id)
          (·.execute executionTxHash confirmed.recipientAddress confirmed.executedAt)
          db.payouts } := by
    refine InPlace.preserves (InPlace.payouts_update fun row hrow hrowId => ?_) hdb
    refine row.execute_follows ?_ _ _ _
    rw [hdb.payouts.eq hrow hreserved ((of_decide_eq_true hrowId).trans hid.symm), hproposed]
    nofun
  refine hfirst.trans (preserves_filter hfirst.sound fun intent hintent row _ hrowId _ => ?_)
  refine decide_eq_true fun hsame => ?_
  simp only [isConfirmedProjection, decide_eq_true_eq] at hprojection
  have hnone : db.safeIntent? confirmed.id = none :=
    Option.isNone_iff_eq_none.1 hprojection.2.2.2.2.2.2.2.2
  exact List.find?_eq_none.1 hnone intent hintent (decide_eq_true (hrowId.symm.trans hsame))

/-- A proposal is updated, and its payout may fail. -/
theorem inPlace_updated (tracked : TrackedProposal) (next : ProposalUpdate) (now : Time)
    (failPayout : Bool) :
    InPlace db (if failPayout then (db.mapProposal tracked.proposal.id
        (·.update next now)).failPayouts [tracked.payout.id]
      else db.mapProposal tracked.proposal.id (·.update next now)) := by
  have hproposals : InPlace db (db.mapProposal tracked.proposal.id (·.update next now)) :=
    InPlace.proposals_update fun _ => rfl
  split_ifs
  · exact hproposals.trans (InPlace.payouts_update fun row _ _ => row.fail_follows)
  · exact hproposals

theorem preserves_update (hdb : db.Sound config) (tracked : TrackedProposal)
    (next : ProposalUpdate) (now : Time) (failPayout : Bool) :
    Preserves config db (applyUpdate tracked next now failPayout db).1 := by
  rcases applyUpdate_cases tracked next now failPayout db with
    heq | ⟨-, db₁, hdb₁, hcase⟩
  · rw [heq]
    exact (InPlace.refl db).preserves hdb
  have hfirst : Preserves config db db₁ :=
    hdb₁ ▸ (inPlace_updated tracked next now failPayout).preserves hdb
  rcases hcase with heq | ⟨-, executionTxHash, heq⟩
  · rw [heq]
    exact hfirst
  · rw [heq]
    exact hfirst.trans (preserves_reconcile hfirst.sound _ _)

/-! ### The indexer -/

theorem goal?_some {chainId : ℕ} {chainGoalId : Hash} {goal : FundingGoal}
    (h : db.goal? chainId chainGoalId = some goal) :
    goal ∈ db.goals ∧ goal.chainId = chainId ∧ goal.chainGoalId = chainGoalId := by
  have hfound := List.find?_some h
  rw [decide_eq_true_eq] at hfound
  exact ⟨List.mem_of_find?_eq_some h, hfound⟩

/-- The payouts, their reservations and the proposals stay. -/
theorem preserves_elsewhere (hdb : db.Sound config) (hpayouts : db'.payouts = db.payouts)
    (hintents : db'.payoutIntents = db.payoutIntents)
    (hproposals : db'.payoutProposals = db.payoutProposals) (hnext : db.nextId ≤ db'.nextId)
    (hgoals : Keyed (·.id) db'.goals) (hlt : ∀ row ∈ db'.goals, row.id < db'.nextId)
    (hchain : Keyed (fun row => (row.chainId, row.chainGoalId)) db'.goals)
    (hperiods : ∀ goalId, Keyed (·.periodIndex) (db'.periodsOf goalId))
    (hevents : ∀ row ∈ db'.events, row.chainId = config.chainId) :
    Preserves config db db' := by
  constructor
  · constructor
    · exact hpayouts ▸ hdb.payouts
    · exact fun row hrow => lt_of_lt_of_le (hdb.payouts_lt row (hpayouts ▸ hrow)) hnext
    · exact hintents ▸ hdb.intents
    · exact fun row hrow => lt_of_lt_of_le (hdb.intents_lt row (hintents ▸ hrow)) hnext
    · exact hintents ▸ hdb.intents_payout
    · rw [hintents, hpayouts]
      exact hdb.payout_of_intent
    · exact hproposals ▸ hdb.proposals
    · exact fun row hrow => lt_of_lt_of_le (hdb.proposals_lt row (hproposals ▸ hrow)) hnext
    · exact hproposals ▸ hdb.proposals_intent
    · rw [hproposals, hintents]
      exact hdb.intent_of_proposal
    · exact hgoals
    · exact hlt
    · exact hchain
    · exact hperiods
    · exact hevents
  · constructor
    · exact hnext
    · exact hpayouts ▸ .refl Payout.Follows.refl
    · exact hintents ▸ .refl SafePayoutIntent.Follows.refl
    · exact fun row hrow => ⟨row, hintents ▸ hrow, rfl⟩
    · exact hproposals ▸ .refl SafePayoutProposal.Follows.refl

theorem preserves_event (hdb : db.Sound config) (event : DecodedEscrowEvent) :
    Preserves config db { db with events := db.events ++ [event.row config] } := by
  refine preserves_elsewhere hdb rfl rfl rfl le_rfl hdb.goals hdb.goals_lt hdb.goals_chain
    hdb.periods fun row hrow => ?_
  rcases List.mem_append.1 hrow with hold | hnew
  · exact hdb.events row hold
  · rw [List.mem_singleton.1 hnew]
    rfl

theorem publishDraft_eq (db : Database) (draft : Option Expense) :
    ∃ expenses, publishDraft db draft = { db with expenses := expenses } := by
  cases draft with
  | none => exact ⟨db.expenses, rfl⟩
  | some draft => exact ⟨_, rfl⟩

theorem goal?_none {goalId : Hash} (h : db.goal? config.chainId goalId = none) :
    ∀ row ∈ db.goals, (row.chainId, row.chainGoalId) ≠ (config.chainId, goalId) := by
  intro row hrow heq
  obtain ⟨hchain, hgoal⟩ := Prod.mk.inj heq
  exact List.find?_eq_none.1 h row hrow (decide_eq_true ⟨hchain, hgoal⟩)

theorem preserves_created {event : DecodedEscrowEvent} {goalId : Hash} {creator recipient : Address}
    {preTarget usdcTarget deadline : ℕ} {title description metadataURI : Text}
    {r : Option MetadataRefresh} (hdb : db.Sound config)
    (h : handleGoalCreated config ext event goalId creator recipient preTarget usdcTarget deadline
      title description metadataURI db = .ok (db', r)) : Preserves config db db' := by
  obtain ⟨deadline', occurredAt, db₁, id, -, -, hup, rfl, -⟩ := handleGoalCreated_ok.1 h
  obtain ⟨expenses, heq⟩ := publishDraft_eq db₁ (db.draft? goalId)
  rw [heq]
  rcases upsertGoal_ok.1 hup with ⟨-, ⟨goal, hgoal, rfl, -⟩ | ⟨hnone, rfl, -⟩⟩
  · refine preserves_elsewhere hdb rfl rfl rfl le_rfl ?_ ?_ ?_ hdb.periods hdb.events
    · exact hdb.goals.updateWhere fun _ => rfl
    · intro row hrow
      rcases mem_updateWhere_cases hrow with ⟨hold, -⟩ | ⟨old, hold, -, rfl⟩
      · exact hdb.goals_lt row hold
      · exact hdb.goals_lt old hold
    · exact hdb.goals_chain.updateWhere fun _ => rfl
  · refine preserves_elsewhere hdb rfl rfl rfl (Nat.le_succ _) ?_ ?_ ?_ hdb.periods hdb.events
    · refine hdb.goals.append_one fun row hrow hid => ?_
      have hlt := hdb.goals_lt row hrow
      rw [hid] at hlt
      exact Nat.lt_irrefl _ hlt
    · intro row hrow
      rcases List.mem_append.1 hrow with hold | hnew
      · exact Nat.lt_succ_of_lt (hdb.goals_lt row hold)
      · rw [List.mem_singleton.1 hnew]
        exact Nat.lt_succ_self _
    · exact hdb.goals_chain.append_one (goal?_none hnone)

theorem inPlace_executeReservation (db : Database) (payoutId : Id) (txHash : Hash)
    (occurredAt : Time) : InPlace db (executeReservation db payoutId txHash occurredAt) := by
  rcases executeReservation_cases db payoutId txHash occurredAt with
    ⟨heq, -⟩ | ⟨intent, -, -, heq⟩ | ⟨intent, proposal, -, -, -, heq⟩
  · rw [heq]
    exact InPlace.refl db
  · rw [heq]
    exact InPlace.intents_update fun row _ _ => row.consume_follows occurredAt
  · rw [heq]
    exact InPlace.proposals_update fun _ => rfl

theorem preserves_released {event : DecodedEscrowEvent} {goal : FundingGoal} {kind : PayoutKind}
    {token payoutRecipient : Address} {amount : ℕ} (hdb : db.Sound config)
    (h : handleReleased config event goal kind token payoutRecipient amount db = .ok db') :
    Preserves config db db' := by
  obtain ⟨asset, occurredAt, -, ⟨reserved, hmem, -, rfl⟩ | ⟨payout, ⟨hid, -⟩, -, rfl⟩⟩ :=
    handleReleased_ok h
  · obtain ⟨hreserved, hcandidate⟩ := List.mem_filter.1 hmem
    rw [decide_eq_true_eq] at hcandidate
    have hfirst : InPlace db (db.mapPayout reserved.id
        (·.execute event.txHash payoutRecipient (some occurredAt))) := by
      refine InPlace.payouts_update fun row hrow hrowId => row.execute_follows ?_ _ _ _
      rw [hdb.payouts.eq hrow hreserved (of_decide_eq_true hrowId), hcandidate.2.2.2.2]
      nofun
    exact (hfirst.trans (inPlace_executeReservation _ _ _ _)).preserves hdb
  · exact preserves_payout hdb hid

theorem preserves_turns {event : DecodedEscrowEvent} {goal : FundingGoal} {b : Book}
    (hdb : db.Sound config) (hb : (db.book goal).apply config event = .ok b)
    (h : Turns goal db db' b) :
    Preserves config db db' := by
  refine preserves_elsewhere hdb h.payouts h.payoutIntents h.payoutProposals h.nextId ?_ ?_ ?_ ?_
    fun row hrow => hdb.events row (h.events ▸ hrow)
  · rw [h.goals]
    exact hdb.goals.updateWhere fun _ => rfl
  · rw [h.goals]
    intro row hrow
    rcases mem_updateWhere_cases hrow with ⟨hold, -⟩ | ⟨old, hold, -, rfl⟩
    · exact lt_of_lt_of_le (hdb.goals_lt row hold) h.nextId
    · exact lt_of_lt_of_le (hdb.goals_lt old hold) h.nextId
  · rw [h.goals]
    exact hdb.goals_chain.updateWhere fun _ => rfl
  · intro goalId
    by_cases hid : goalId = goal.id
    · rw [hid, h.periods]
      exact (Book.follows_of_apply hb).sound (hdb.periods goal.id)
    · rw [h.periods_of_ne goalId hid]
      exact hdb.periods goalId

theorem preserves_handled {event : DecodedEscrowEvent} (hdb : db.Sound config)
    (h : Handled config ext event db db') : Preserves config db db' := by
  cases h with
  | contract _ hnext =>
    exact preserves_elsewhere hdb rfl rfl rfl hnext hdb.goals
      (fun row hrow => lt_of_lt_of_le (hdb.goals_lt row hrow) hnext) hdb.goals_chain hdb.periods
      hdb.events
  | created _ hcreated => exact preserves_created hdb hcreated
  | goal _ hfound _ hhandled =>
    obtain ⟨hgoal, -, -⟩ := goal?_some hfound
    by_cases hrelease : event.event.isRelease = true
    · rw [EscrowEvent.isRelease_eq, Option.isSome_iff_exists] at hrelease
      obtain ⟨⟨goalId, kind, token, amount⟩, hrelease⟩ := hrelease
      obtain ⟨payoutRecipient, heq⟩ := handleGoalEvent_release hrelease
      rw [heq] at hhandled
      exact preserves_released hdb hhandled
    · obtain ⟨b, hb, hturns⟩ := handleGoalEvent_turns hdb.goals hgoal (hdb.periods _)
        (Bool.eq_false_of_not_eq_true hrelease) hhandled
      exact preserves_turns hdb hb hturns

theorem preserves_project {event : DecodedEscrowEvent} {r : Bool × Option MetadataRefresh}
    (hdb : db.Sound config) (h : projectLog config ext event db = .ok (db', r)) :
    Preserves config db db' := by
  rcases projectLog_cases h with rfl | ⟨-, hhandled⟩
  · exact (InPlace.refl _).preserves hdb
  · exact (preserves_event hdb event).trans
      (preserves_handled (preserves_event hdb event).sound hhandled)

/-- A payout that a reset proposes again. -/
def Payout.reopen (row : Payout) : Payout :=
  { row with status := .proposed, chainTxHash := none, executedAt := none }

/-- A payout that a reset keeps. -/
def Database.outlives (config : Deployment) (db : Database) (row : Payout) : Bool :=
  ¬(db.isRetained config.chainId row.goalId ∧ (db.safeIntent? row.id).isNone) ∧
    ¬db.isDropped config.chainId row.goalId

theorem reset_payouts (config : Deployment) (db : Database) :
    (resetChainProjection config db).payouts =
      updateWhere (fun row => db.isRetained config.chainId row.goalId ∧ row.status = .executed)
        (·.reopen) (db.payouts.filter (db.outlives config)) :=
  rfl

/-- The payout of a reservation outlives a reset. -/
theorem outlives_of_intent {intent : SafePayoutIntent} {payout : Payout}
    (hintent : intent ∈ db.payoutIntents) (hid : payout.id = intent.payoutId)
    (hgoal : payout.goalId = intent.goalId) : db.outlives config payout = true := by
  refine decide_eq_true ⟨?_, ?_⟩
  · rintro ⟨-, hnone⟩
    exact List.find?_eq_none.1 (Option.isNone_iff_eq_none.1 hnone) intent hintent
      (decide_eq_true hid.symm)
  · intro hdropped
    rw [Database.isDropped, decide_eq_true_eq] at hdropped
    refine hdropped.1 (Bool.or_eq_true_iff.2 (.inl ?_))
    exact List.any_eq_true.2 ⟨intent, hintent, decide_eq_true hgoal.symm⟩

/-- **A reset** deletes no payout that has a reservation, and fails none. -/
theorem preserves_reset (hdb : db.Sound config) :
    Preserves config db (resetChainProjection config db) := by
  have hfilter : Preserves config db
      { db with payouts := db.payouts.filter (db.outlives config) } :=
    preserves_filter hdb fun _ hintent _ _ hid hgoal => outlives_of_intent hintent hid hgoal
  have hpayouts : InPlace { db with payouts := db.payouts.filter (db.outlives config) }
      { db with payouts := (resetChainProjection config db).payouts } := by
    refine InPlace.payouts_update fun row _ hexecuted => ⟨rfl, rfl, rfl, rfl, rfl, fun h => ?_⟩
    rw [decide_eq_true_eq] at hexecuted
    rw [hexecuted.2] at h
    cases h
  have hproposals : InPlace { db with payouts := (resetChainProjection config db).payouts }
      { db with
        payouts := (resetChainProjection config db).payouts
        payoutProposals := (resetChainProjection config db).payoutProposals } :=
    InPlace.proposals_update fun _ => rfl
  have hrows := (hpayouts.trans hproposals).preserves hfilter.sound
  refine hfilter.trans (hrows.trans (preserves_elsewhere hrows.sound rfl rfl rfl le_rfl ?_ ?_ ?_
    (fun goalId => ?_) fun row hrow => hdb.events row (List.mem_filter.1 hrow).1))
  · exact (hdb.goals.filter _).updateWhere fun _ => rfl
  · intro row hrow
    rcases mem_updateWhere_cases hrow with ⟨hold, -⟩ | ⟨old, hold, -, rfl⟩
    · exact hdb.goals_lt row (List.mem_filter.1 hold).1
    · exact hdb.goals_lt old (List.mem_filter.1 hold).1
  · exact (hdb.goals_chain.filter _).updateWhere fun _ => rfl
  · exact List.Nodup.sublist (((List.filter_sublist.filter _).map _).map _) (hdb.periods goalId)

/-! ### Every transaction -/

/-- What a job read is sound, and the tables have evolved from it. -/
def Database.Known (config : Deployment) (h : Log) (db : Database) : Prop :=
  ∀ w, Saw h w → w.db.Sound config ∧ Evolves w.db db

theorem Database.Known.evolves {h : Log} (hknown : db.Known config h) (he : Evolves db db') :
    db'.Known config h :=
  fun w hw => ⟨(hknown w hw).1, (hknown w hw).2.trans he⟩

/-- The candidates of an expiry still have their payouts. -/
theorem Database.Known.candidates {h : Log} (hknown : db.Known config h) {w : World}
    (hsaw : Saw h w) {candidates : List SafePayoutIntent}
    (hcandidates : ∀ intent ∈ candidates, intent ∈ w.db.payoutIntents) :
    ∀ c ∈ candidates, ∀ row ∈ db.payoutIntents, row.id = c.id → row.payoutId = c.payoutId := by
  intro c hc row hrow hid
  obtain ⟨hsound, hevolves⟩ := hknown w hsaw
  exact (hevolves.intent hsound (hcandidates c hc) hrow hid).payoutId

/-- **Every transaction** of every job leaves sound tables that follow from the old ones. -/
theorem Write.preserves {j : Job} {h : Log} (hdb : db.Sound config) (hknown : db.Known config h)
    (hw : Write config ext j h db db') : Preserves config db db' := by
  cases hw with
  | idle => exact (InPlace.refl db).preserves hdb
  | expire hsaw hcandidates =>
    obtain ⟨claimed, -, heq⟩ := expireTx_eq (hknown.candidates hsaw hcandidates)
    rw [heq]
    exact (inPlace_giveUp _ _ _).preserves hdb
  | convert _ hconvert =>
    obtain ⟨-, -, -, rfl⟩ := convertTx_ok hconvert
    exact (inPlace_convert _ _ _).preserves hdb
  | reserve _ _ _ _ hreserve => exact preserves_reserve hdb hreserve
  | claim hclaim => exact preserves_claim hdb hclaim
  | unconfirmed =>
    refine InPlace.preserves (InPlace.proposals_update ?_) hdb
    exact fun _ => rfl
  | submitted =>
    refine InPlace.preserves (InPlace.proposals_update ?_) hdb
    exact fun _ => rfl
  | cancel _ _ _ hcancel =>
    obtain ⟨-, rfl⟩ := cancelTx_ok hcancel
    exact (inPlace_giveUp _ _ _).preserves hdb
  | reconcile => exact preserves_reconcile hdb _ _
  | update => exact preserves_update hdb _ _ _ _
  | unavailable =>
    refine InPlace.preserves (InPlace.proposals_update ?_) hdb
    exact fun _ => rfl
  | project _ hproject => exact preserves_project hdb hproject
  | rebuild => exact preserves_reset hdb

end

/-! ### The protocol -/

variable {O : Outside}

theorem Environment.db_eq {w w' : World} (h : Environment O w w') : w'.db = w.db := by
  cases h
  rfl

/-- What a process recorded is known. -/
theorem known_of_recorded {began w : World} {h : Log}
    (hrec : Recorded (fun w : World => w.db.Sound O.config) (fun w w' => Evolves w.db w'.db)
      (escrow O).answers began h w) : w.db.Known O.config h := by
  rintro w₀ ⟨w₀', hmem⟩
  exact ⟨hrec.inv _ hmem, (hrec.step _ hmem).trans (hrec.until_ _ hmem)⟩

/-- The discipline of a job that finds sound tables. -/
def soundDiscipline (O : Outside) (j : Job) : Discipline World Reply Failure :=
  { payoutDiscipline O j with inv := fun w => w.db.Sound O.config }

theorem escrow_code_sound {j : Job} (w : World) :
    (Job.code O.config O.ext j).wp (soundDiscipline O j) (fun _ _ _ => True) [] w := by
  refine Program.wp_of_discipline (D := payoutDiscipline O j) ?_ ?_ ?_ ?_ ?_ (escrow_code_safe w)
  · exact fun _ _ h => h
  · exact fun _ _ => trivial
  · exact fun _ _ _ h => h
  · exact fun _ _ _ h => h
  · exact fun _ _ _ h => h

variable (O)

/-- **The protocol** of the escrow: the tables stay sound and never go back. -/
def payouts : Protocol (escrow O) where
  inv w := w.db.Sound O.config
  le w w' := Evolves w.db w'.db
  rely j := (soundDiscipline O j).rely
  guar j h w w' := w'.chain = w.chain ∧ Write O.config O.ext j h w.db w'.db
  asks j := (soundDiscipline O j).asks
  le_refl w := .refl w.db
  le_trans := .trans
  rely_refl j := (soundDiscipline O j).rely_refl
  rely_trans := (soundDiscipline O _).rely_trans
  guar_refl j := (soundDiscipline O j).guar_refl
  inv_guar hrec hguar hinv := (hguar.2.preserves hinv (known_of_recorded hrec)).sound
  inv_env h hinv := by
    show Database.Sound _ _
    rw [h.db_eq]
    exact hinv
  inv_halt h := h
  le_guar hrec hguar hinv := (hguar.2.preserves hinv (known_of_recorded hrec)).evolves
  le_env h := by
    show Evolves _ _
    rw [h.db_eq]
    exact .refl _
  le_halt _ w := .refl w.db
  rely_guar _ _ _ _ := trivial
  rely_env _ := trivial
  rely_halt _ := trivial
  code_safe _ _ := escrow_code_sound _

variable {O}

theorem sound_empty (config : Deployment) : Database.empty.Sound config := by
  have hempty : ∀ {α : Type} {P : α → Prop}, ∀ x ∈ ([] : List α), P x :=
    fun x hx => absurd hx List.not_mem_nil
  exact ⟨.nil, hempty, .nil, hempty, .nil, hempty, .nil, hempty, .nil, hempty, .nil, hempty, .nil,
    fun _ => .nil, hempty⟩

/-- The world before anything has happened. -/
def World.initial (chain : Chain.ChainState Hash) : World := ⟨Database.empty, chain⟩

/-- Every reachable configuration is safe. -/
theorem safe_of_run {chain : Chain.ChainState Hash} {c : Config World Reply Failure Job Slot}
    {ls : List (Label World Reply Failure Job)}
    (hrun : (escrow O).Run (Config.idle (World.initial chain)) ls c) : (payouts O).Safe c := by
  have hempty : (payouts O).inv (World.initial chain) := sound_empty O.config
  exact (Protocol.safe_idle hempty).run hrun

end Escrow

end PreCommunity
