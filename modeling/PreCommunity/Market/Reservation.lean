import PreCommunity.Market.Settlement

/-!
# Clicks become batches

What the transaction of `reserveRun` does: unsent batches move to the run, every group of clicks
that is due gets a new batch, and the run is running.

* `Reserves` : groups of clicks are reserved, one after another.
* `Ledger.addBatch` : a new batch with its clicks.
* `Ledger.reserveRun` : the whole transaction keeps the charge ledger.
-/

namespace PreCommunity

namespace Market

open Store Concurrent

/-! ### Groups -/

/-- The clicks are of one position. -/
def OnePosition (group : List BillingClick) : Prop :=
  ∀ c ∈ group, ∀ c' ∈ group, c.groupKey = c'.groupKey

theorem addToGroups_spec {gs : List (List BillingClick)} {click : BillingClick}
    (hgs : ∀ g ∈ gs, OnePosition g) {g : List BillingClick} (hg : g ∈ addToGroups gs click) :
    OnePosition g ∧ ∀ c ∈ g, c = click ∨ ∃ g' ∈ gs, c ∈ g' := by
  induction gs with
  | nil =>
    obtain rfl := List.mem_singleton.1 hg
    simp [OnePosition]
  | cons group rest ih =>
    unfold addToGroups at hg
    split_ifs at hg with hany
    · obtain rfl | hg := List.mem_cons.1 hg
      · obtain ⟨first, hfirst, hkey⟩ := List.any_eq_true.1 hany
        have hgroup := hgs group (.head _)
        have hclick : ∀ c ∈ group ++ [click], c.groupKey = click.groupKey := by
          intro c hc
          obtain hc | hc := List.mem_append.1 hc
          · exact (hgroup c hc first hfirst).trans (by simpa using hkey)
          · rw [List.mem_singleton.1 hc]
        refine ⟨fun c hc c' hc' => (hclick c hc).trans (hclick c' hc').symm, fun c hc => ?_⟩
        obtain hc | hc := List.mem_append.1 hc
        · exact .inr ⟨group, .head _, hc⟩
        · exact .inl (List.mem_singleton.1 hc)
      · exact ⟨hgs g (.tail _ hg), fun c hc => .inr ⟨g, .tail _ hg, hc⟩⟩
    · obtain rfl | hg := List.mem_cons.1 hg
      · exact ⟨hgs g (.head _), fun c hc => .inr ⟨g, .head _, hc⟩⟩
      · obtain ⟨hone, hmem⟩ := ih (fun g' hg' => hgs g' (.tail _ hg')) hg
        refine ⟨hone, fun c hc => (hmem c hc).imp_right ?_⟩
        rintro ⟨g', hg', hc'⟩
        exact ⟨g', .tail _ hg', hc'⟩

/-- **Groups** hold clicks of one position. -/
theorem groups_spec (clicks : List BillingClick) :
    ∀ g ∈ groups clicks, OnePosition g ∧ ∀ c ∈ g, c ∈ clicks := by
  have hfold : ∀ (l : List BillingClick) (gs : List (List BillingClick)) (p : BillingClick → Prop),
      (∀ g ∈ gs, OnePosition g ∧ ∀ c ∈ g, p c) → (∀ c ∈ l, p c) →
      ∀ g ∈ l.foldl addToGroups gs, OnePosition g ∧ ∀ c ∈ g, p c := by
    intro l
    induction l with
    | nil => exact fun gs p hgs _ => hgs
    | cons click rest ih =>
      intro gs p hgs hl
      refine ih _ p (fun g hg => ?_) fun c hc => hl c (.tail _ hc)
      obtain ⟨hone, hmem⟩ := addToGroups_spec (fun g hg => (hgs g hg).1) hg
      refine ⟨hone, fun c hc => ?_⟩
      obtain rfl | ⟨g', hg', hc⟩ := hmem c hc
      · exact hl c (.head _)
      · exact (hgs g' hg').2 c hc
  exact hfold clicks [] (· ∈ clicks) (by simp) fun c hc => hc

/-! ### Reserving groups -/

/-- A click of the group that is still free. -/
def BillingClick.isOpenIn (group : List BillingClick) (row : BillingClick) : Bool :=
  row.id ∈ group.map (·.id) ∧ row.status = .pending ∧ row.batchId = none

/-- The tables after a group was reserved. -/
def Database.reserveGroup (db : Database) (batch : ChargeBatch) (group : List BillingClick) :
    Database :=
  (db.withBatches (db.batches ++ [batch])).updateClicks (BillingClick.isOpenIn group)
    (BillingClick.reserve batch.id (dueOf group))

/-- Groups of clicks are reserved, one after another. -/
inductive Reserves (run : ChargeRun) (deps : ChargeDependencies) (free : List BillingClick) :
    Database → Database → Prop where
  | refl {db : Database} : Reserves run deps free db db
  | step {db db' : Database} {id chargeId : Id} {first : BillingClick} {group : List BillingClick} :
      Reserves run deps free db db' → (∀ row ∈ db'.batches, row.id ≠ id) → first ∈ group →
      OnePosition group → (∀ c ∈ group, c ∈ free ∧ c.identity = deps.identity) →
      (db'.clicks.filter (BillingClick.isOpenIn group)).length = group.length →
      Reserves run deps free db
        (db'.reserveGroup (ChargeBatch.create id chargeId run deps first group) group)

section

variable {run : ChargeRun} {deps : ChargeDependencies} {free : List BillingClick}
  {db db' db'' : Database}

theorem Reserves.trans (h : Reserves run deps free db db') (h' : Reserves run deps free db' db'') :
    Reserves run deps free db db'' := by
  induction h' with
  | refl => exact h
  | step _ hid hfirst hone hmem hlen ih => exact ih.step hid hfirst hone hmem hlen

theorem reserveGroup_ok {id chargeId : Id} {group : List BillingClick} {u : Unit}
    (hone : OnePosition group) (hmem : ∀ c ∈ group, c ∈ free ∧ c.identity = deps.identity)
    (h : (reserveGroup run deps id chargeId group).run db = .ok (u, db')) :
    Reserves run deps free db db' := by
  cases group with
  | nil =>
    obtain ⟨-, rfl⟩ := Tx.pure_ok.1 h
    exact .refl
  | cons first rest =>
    unfold reserveGroup at h
    obtain ⟨_, db₁, hcreate, h⟩ := Tx.bind_ok.1 h
    obtain ⟨hfresh, rfl⟩ := createBatch_ok hcreate
    rw [Tx.get_bind] at h
    simp only at h
    split_ifs at h with hlen
    · obtain rfl := (Tx.set_ok.1 h).symm
      exact Reserves.refl.step hfresh (.head _) hone hmem hlen
    · exact (Tx.throw_ok.1 h).elim

theorem reserveGroups_ok {settings : ChargeSettings} {random : ℕ → Id} {k : ℕ}
    {gs : List (List BillingClick)} {u : Unit}
    (hgs : ∀ g ∈ gs, OnePosition g ∧ ∀ c ∈ g, c ∈ free ∧ c.identity = deps.identity)
    (h : (reserveGroups run settings deps random k gs).run db = .ok (u, db')) :
    Reserves run deps free db db' := by
  induction gs generalizing k db with
  | nil =>
    obtain ⟨-, rfl⟩ := Tx.pure_ok.1 h
    exact .refl
  | cons g gs ih =>
    unfold reserveGroups at h
    have hrest := fun g' hg' => hgs g' (List.mem_cons_of_mem g hg')
    split_ifs at h
    · obtain ⟨_, db₁, hgroup, h⟩ := Tx.bind_ok.1 h
      obtain ⟨hone, hmem⟩ := hgs g (.head _)
      exact (reserveGroup_ok hone hmem hgroup).trans (ih hrest h)
    · exact ih hrest h

/-- What the reservation of a run does. -/
theorem reserveRunTx_ok {settings : ChargeSettings} {head : ℕ} {random : ℕ → Id} {ids : List Id}
    (h : (reserveRunTx run settings deps head random).run db = .ok (ids, db')) :
    ∃ (db₁ : Database) (f : ChargeRun → ChargeRun),
      Reserves run deps db.clicks (db.takeOver (takenOverRuns db run deps) run) db₁ ∧
      (∀ row, (f row).id = row.id ∧ (f row).identity = row.identity ∧
        (f row).trigger = row.trigger ∧ (f row).status = .running) ∧
      db' = db₁.mapRun run.id f := by
  unfold reserveRunTx at h
  rw [Tx.get_bind] at h
  obtain ⟨current, db₁, hfind, h⟩ := Tx.bind_ok.1 h
  obtain ⟨-, rfl⟩ := Tx.lift_ok.1 hfind
  obtain ⟨_, db₂, hset, h⟩ := Tx.bind_ok.1 h
  obtain rfl := (Tx.set_ok.1 hset).symm
  rw [Tx.get_bind] at h
  obtain ⟨_, db₃, hgroups, h⟩ := Tx.bind_ok.1 h
  obtain ⟨_, db₄, hrun, h⟩ := Tx.bind_ok.1 h
  obtain ⟨-, rfl⟩ := Tx.pure_ok.1 h
  refine ⟨db₃, _, reserveGroups_ok ?_ hgroups, ?_, updateRun_ok hrun⟩
  · intro g hg
    obtain ⟨hone, hmem⟩ := groups_spec _ g hg
    refine ⟨hone, fun c hc => ?_⟩
    have hres := hmem c hc
    unfold reservableClicks at hres
    rw [(List.perm_insertionSort _ _).mem_iff] at hres
    obtain ⟨hc, hp⟩ := List.mem_filter.1 hres
    simp only [decide_eq_true_eq] at hp
    exact ⟨hc, hp.1⟩
  · exact fun row => ⟨rfl, rfl, rfl, rfl⟩

end

/-! ### What a reservation leaves alone -/

/-- A click stays as it is, or it is reserved. -/
def BillingClick.Placed (c c' : BillingClick) : Prop :=
  c' = c ∨ c.status = .pending ∧ c.batchId = none ∧ ∃ id due, c' = c.reserve id due

/-- A batch that has just been created. -/
structure ChargeBatch.Fresh (run : ChargeRun) (deps : ChargeDependencies) (b : ChargeBatch) :
    Prop where
  runId : b.runId = run.id
  identity : b.identity = deps.identity
  unsigned : b.Unsigned
  receipt : b.receiptBlockNumber = none
  status : b.status = .prepared ∨ b.status = .confirmed

/-- What reserving groups does to the tables. -/
structure Database.Reserved (run : ChargeRun) (deps : ChargeDependencies) (db db' : Database) :
    Prop where
  tables : db' = (db.withBatches db'.batches).withClicks db'.clicks
  batches : ∃ new, db'.batches = db.batches ++ new ∧ ∀ b ∈ new, b.Fresh run deps
  clicks : ∃ g : BillingClick → BillingClick, db'.clicks = db.clicks.map g ∧
    ∀ c, BillingClick.Placed c (g c)

theorem Reserves.reserved {run : ChargeRun} {deps : ChargeDependencies} {free : List BillingClick}
    {db db' : Database} (h : Reserves run deps free db db') : db.Reserved run deps db' := by
  induction h with
  | refl => exact ⟨rfl, ⟨[], by simp⟩, ⟨id, by simp, fun c => .inl rfl⟩⟩
  | @step db' id chargeId first group _ _ _ _ _ _ ih =>
    obtain ⟨htables, ⟨new, hnew, hfresh⟩, ⟨g, hg, hplaced⟩⟩ := ih
    refine ⟨?_, ?_, ?_⟩
    · rw [htables]
      rfl
    · refine ⟨new ++ [ChargeBatch.create id chargeId run deps first group], ?_, ?_⟩
      · rw [← List.append_assoc, ← hnew]
        rfl
      · intro b hb
        obtain hb | hb := List.mem_append.1 hb
        · exact hfresh b hb
        · obtain rfl := List.mem_singleton.1 hb
          refine ⟨rfl, rfl, ⟨rfl, rfl, rfl, rfl⟩, rfl, ?_⟩
          simp only [ChargeBatch.create]
          split_ifs
          · exact .inr rfl
          · exact .inl rfl
    · refine ⟨fun c => (g c).onlyIf (BillingClick.isOpenIn group)
        (BillingClick.reserve id (dueOf group)), ?_, fun c => ?_⟩
      · change (db'.clicks.map _) = _
        rw [hg, List.map_map]
        rfl
      · beta_reduce
        cases hopen : (g c).isOpenIn group
        · rw [onlyIf_of_not hopen]
          exact hplaced c
        · rw [onlyIf_of hopen]
          simp only [BillingClick.isOpenIn, decide_eq_true_eq] at hopen
          obtain heq | ⟨-, -, id', due, heq⟩ := hplaced c
          · rw [heq] at hopen ⊢
            exact .inr ⟨hopen.2.1, hopen.2.2, _, _, rfl⟩
          · rw [heq] at hopen
            cases hopen.2.2

/-! ### The ledger -/

/-- A new batch is well formed. -/
theorem wellFormed_create (id chargeId : Id) (run : ChargeRun) (deps : ChargeDependencies)
    (first : BillingClick) (group : List BillingClick) :
    (ChargeBatch.create id chargeId run deps first group).WellFormed := by
  by_cases hdue : dueOf group = 0
  · exact
      { requested := by simp [ChargeBatch.create, hdue]
        signature := .inr ⟨rfl, rfl, rfl, rfl⟩
        prepared := fun _ => ⟨rfl, rfl, rfl, rfl⟩
        sent := by simp [ChargeBatch.create, hdue, ChargeBatch.Sent, BatchStatus.inFlight]
        uncharged := by simp [ChargeBatch.create, hdue, BatchStatus.terminal]
        charged := by simp [ChargeBatch.create, hdue]
        confirmed := by simp [ChargeBatch.create, hdue]
        uncollectable := by simp [ChargeBatch.create, hdue]
        receipt := by simp [ChargeBatch.create]
        unproved := fun _ _ => ⟨rfl, rfl, rfl, rfl⟩ }
  · exact
      { requested := by
          simp only [ChargeBatch.create]
          split_ifs <;> omega
        signature := .inr ⟨rfl, rfl, rfl, rfl⟩
        prepared := fun _ => ⟨rfl, rfl, rfl, rfl⟩
        sent := by simp [ChargeBatch.create, hdue, ChargeBatch.Sent, BatchStatus.inFlight]
        uncharged := by simp [ChargeBatch.create, hdue]
        charged := by simp [ChargeBatch.create, hdue, BatchStatus.terminal]
        confirmed := by simp [ChargeBatch.create, hdue]
        uncollectable := by simp [ChargeBatch.create, hdue]
        receipt := by simp [ChargeBatch.create]
        unproved := fun _ _ => ⟨rfl, rfl, rfl, rfl⟩ }

/-- A reserved click is well formed. -/
theorem BillingClick.WellFormed.reserve {c : BillingClick} (hc : c.WellFormed)
    (hpending : c.status = .pending) (id : Id) (due : ℕ) : (c.reserve id due).WellFormed := by
  have hamount := hc.priced hpending
  refine
    { hc with
      capturing := ?_, free := ?_, reserved := fun _ => rfl, priced := ?_
      placed := fun _ => hamount }
  all_goals
    simp only [BillingClick.reserve]
    split_ifs <;> simp

namespace Ledger

variable {db : Database}

/-- **A new batch** with clicks that were free. -/
theorem addBatch (hdb : Ledger db) {b : ChargeBatch} {p : BillingClick → Bool}
    (hid : ∀ row ∈ db.batches, row.id ≠ b.id) (hwf : b.WellFormed)
    (hrun : ∃ r ∈ db.runs, b.InRun r)
    (hp : ∀ c ∈ db.clicks, p c = true → c.batchId = none ∧ c.status = .pending ∧
      (c.reserve b.id b.duePreRaw).Belongs b)
    (hdue : total p BillingClick.owed db.clicks = b.duePreRaw)
    (hcount : (db.clicks.filter p).length = b.clickCount)
    (hcharged : ∀ charged, b.chargedPreRaw = some charged → b.duePreRaw ≤ charged) :
    Ledger ((db.withBatches (db.batches ++ [b])).updateClicks p
      (BillingClick.reserve b.id b.duePreRaw)) := by
  have hempty : ∀ c ∈ db.clicks, c.batchId ≠ some b.id := fun c hc hcb => by
    obtain ⟨b', hb', hid', -⟩ := hdb.place c hc b.id hcb
    exact hid b' hb' hid'
  -- the clicks of the new batch are the chosen ones, and the other batches keep theirs
  have hnew : ∀ c ∈ db.clicks, (c.onlyIf p (BillingClick.reserve b.id b.duePreRaw)).isIn b.id =
      p c := by
    intro c hc
    cases hpc : p c
    · rw [onlyIf_of_not hpc]
      simpa [BillingClick.isIn] using hempty c hc
    · rw [onlyIf_of hpc]
      simp [BillingClick.isIn, BillingClick.reserve]
  have howed : ∀ c : BillingClick,
      (c.onlyIf p (BillingClick.reserve b.id b.duePreRaw)).owed = c.owed := by
    intro c
    unfold BillingClick.onlyIf
    split_ifs <;> rfl
  have hsame : ∀ x ∈ db.batches, ∀ c ∈ db.clicks,
      (c.onlyIf p (BillingClick.reserve b.id b.duePreRaw)).batchId = some x.id →
      c.onlyIf p (BillingClick.reserve b.id b.duePreRaw) = c := by
    intro x hx c hc hcx
    cases hpc : p c
    · exact onlyIf_of_not hpc
    · rw [onlyIf_of hpc] at hcx
      exact absurd (Option.some.inj hcx).symm (hid x hx)
  have hkeep : ∀ x ∈ db.batches, ∀ q : BillingClick → Bool,
      (∀ c, q c = true → c.batchId = some x.id) →
      ((db.clicks.map fun c => c.onlyIf p (BillingClick.reserve b.id b.duePreRaw)).filter q) =
        db.clicks.filter q := by
    intro x hx q hq
    have hfilter : ∀ c ∈ db.clicks,
        q (c.onlyIf p (BillingClick.reserve b.id b.duePreRaw)) = q c := by
      intro c hc
      cases hpc : p c
      · rw [onlyIf_of_not hpc]
      · cases hqc : q (c.onlyIf p (BillingClick.reserve b.id b.duePreRaw))
        · symm
          by_contra hne
          have := hq c (by simpa using hne)
          simp [(hp c hc hpc).1] at this
        · rw [hsame x hx c hc (hq _ hqc)] at hqc
          exact hqc.symm
    rw [List.filter_map, show db.clicks.filter (q ∘ _) = db.clicks.filter q from
      List.filter_congr hfilter]
    conv_rhs => rw [← List.map_id (db.clicks.filter q)]
    refine List.map_congr_left fun c hc => ?_
    obtain ⟨hc, hqc⟩ := List.mem_filter.1 hc
    exact hsame x hx c hc (hq _ ((hfilter c hc).trans hqc))
  have hcases : ∀ x ∈ db.batches ++ [b], x ∈ db.batches ∨ x = b := fun x hx =>
    (List.mem_append.1 hx).imp_right List.mem_singleton.1
  rw [updateClicks_eq]
  refine
    { batchIds := hdb.batchIds.append_one hid
      clickIds := hdb.clickIds.updateWhere fun _ => rfl
      runIds := hdb.runIds, settingsIds := hdb.settingsIds
      batch := ?_, click := ?_, run := ?_, place := ?_, due := ?_, count := ?_, paid := ?_ }
  · intro x hx
    obtain hx | rfl := hcases x hx
    · exact hdb.batch x hx
    · exact hwf
  · intro _ hmem
    obtain ⟨c, hc, rfl⟩ := List.mem_map.1 hmem
    cases hpc : p c
    · rw [onlyIf_of_not hpc]
      exact hdb.click c hc
    · rw [onlyIf_of hpc]
      exact (hdb.click c hc).reserve (hp c hc hpc).2.1 _ _
  · intro x hx
    obtain hx | rfl := hcases x hx
    · exact hdb.run x hx
    · exact hrun
  · intro _ hmem id hcid
    obtain ⟨c, hc, rfl⟩ := List.mem_map.1 hmem
    cases hpc : p c
    · rw [onlyIf_of_not hpc] at hcid ⊢
      obtain ⟨x, hx, hrest⟩ := hdb.place c hc id hcid
      exact ⟨x, List.mem_append_left _ hx, hrest⟩
    · rw [onlyIf_of hpc] at hcid ⊢
      exact ⟨b, List.mem_append_right _ (.head _), Option.some.inj hcid, (hp c hc hpc).2.2⟩
  · intro x hx
    obtain hx | rfl := hcases x hx
    · rw [← hdb.due x hx]
      unfold total
      rw [withClicks_clicks, withBatches_clicks, hkeep x hx]
      simp [BillingClick.isIn]
    · rw [withClicks_clicks, withBatches_clicks, total_map]
      exact (total_congr hnew fun c _ _ => howed c).trans hdue
  · intro x hx
    obtain hx | rfl := hcases x hx
    · rw [← hdb.count x hx, withClicks_clicks, withBatches_clicks, hkeep x hx]
      simp [BillingClick.isIn]
    · rw [withClicks_clicks, withBatches_clicks, List.filter_map, List.length_map, ← hcount]
      exact congrArg List.length (List.filter_congr hnew)
  · intro x hx charged hx'
    obtain hx | rfl := hcases x hx
    · refine Nat.le_trans (Nat.le_of_eq ?_) (hdb.paid x hx charged hx')
      unfold total
      rw [withClicks_clicks, withBatches_clicks, hkeep x hx]
      simp +contextual [BillingClick.isSettledIn]
    · refine Nat.le_trans ?_ (hcharged charged hx')
      rw [withClicks_clicks, withBatches_clicks, total_map]
      refine Nat.le_trans (total_le_total fun c hc hset => ⟨?_, Nat.le_of_eq (howed c)⟩)
        (Nat.le_of_eq hdue)
      rw [← hnew c hc]
      simp only [BillingClick.isSettledIn, BillingClick.isIn, decide_eq_true_eq] at hset ⊢
      exact hset.1

/-- Reserving groups. -/
theorem reserves {run : ChargeRun} {deps : ChargeDependencies} {db' : Database}
    (hdb : Ledger db) (hrun : ∃ r ∈ db.runs, r.id = run.id ∧ r.identity = deps.identity ∧
      r.status.recoverable = true)
    {free : List BillingClick} (hfree : ∀ c ∈ db.clicks, c ∈ free)
    (hfreeIds : Keyed BillingClick.id free)
    (h : Reserves run deps free db db') : Ledger db' := by
  induction h with
  | refl => exact hdb
  | @step db' id chargeId first group hres hid hfirst hone hmem hlen ih =>
    obtain ⟨htables, -, ⟨g, hg, hplaced⟩⟩ := hres.reserved
    have hruns : db'.runs = db.runs := by rw [htables]; rfl
    -- the open clicks are the clicks of the group
    have hopen : ∀ c ∈ db'.clicks, c.isOpenIn group = true →
        c.status = .pending ∧ c.batchId = none ∧ c ∈ group := by
      intro c hc hop
      simp only [BillingClick.isOpenIn, decide_eq_true_eq, List.mem_map] at hop
      obtain ⟨⟨x, hx, hxid⟩, hpending, hfree'⟩ := hop
      refine ⟨hpending, hfree', ?_⟩
      rw [hg] at hc
      obtain ⟨c₀, hc₀, rfl⟩ := List.mem_map.1 hc
      obtain heq | ⟨-, -, _, _, heq⟩ := hplaced c₀
      · rw [heq] at hxid ⊢
        exact hfreeIds.eq (hmem x hx).1 (hfree c₀ hc₀) hxid ▸ hx
      · rw [heq] at hfree'
        cases hfree'
    have hperm : (db'.clicks.filter (BillingClick.isOpenIn group)).Perm group := by
      have hnodup : (db'.clicks.filter (BillingClick.isOpenIn group)).Nodup :=
        (ih.clickIds.of_map _).filter _
      refine (List.subperm_of_subset hnodup fun c hc => ?_).perm_of_length_le
        (Nat.le_of_eq hlen.symm)
      obtain ⟨hc, hop⟩ := List.mem_filter.1 hc
      exact (hopen c hc hop).2.2
    refine ih.addBatch (b := ChargeBatch.create id chargeId run deps first group) hid
      (wellFormed_create _ _ _ _ _ _) ?_ ?_ ?_ ?_ ?_
    · obtain ⟨r, hr, hrid, hidentity, hrec⟩ := hrun
      exact ⟨r, hruns ▸ hr, hrid, hidentity, fun _ => hrec⟩
    · intro c hc hop
      obtain ⟨hpending, hnone, hgroup⟩ := hopen c hc hop
      have hkey := hone c hgroup first hfirst
      simp only [BillingClick.groupKey, Prod.mk.injEq] at hkey
      refine ⟨hnone, hpending, (hmem c hgroup).2, hkey.1, hkey.2.1, hkey.2.2, ?_⟩
      by_cases hdue : dueOf group = 0 <;>
        simp [ChargeBatch.create, BillingClick.reserve, BatchStatus.Fits, hdue]
    · exact (hperm.map BillingClick.owed).sum_eq
    · exact hlen
    · intro charged hcharged
      simp only [ChargeBatch.create] at hcharged ⊢
      split_ifs at hcharged with hdue
      omega

/-- **The reservation of a run.** -/
theorem reserveRun {run : ChargeRun} {deps : ChargeDependencies} {settings : ChargeSettings}
    {head : ℕ} {random : ℕ → Id} {ids : List Id} {db' : Database} (hdb : Ledger db)
    (hrun : ∃ r ∈ db.runs, r.id = run.id ∧ r.identity = deps.identity)
    (h : (reserveRunTx run settings deps head random).run db = .ok (ids, db')) : Ledger db' := by
  obtain ⟨db₁, f, hres, hf, rfl⟩ := reserveRunTx_ok h
  obtain ⟨r, hr, hrid, hidentity⟩ := hrun
  -- the run's update comes last, and could come first
  have hrunning : Ledger (db.mapRun run.id f) :=
    hdb.updateRuns (fun row => ⟨(hf row).1, (hf row).2.1⟩) fun row _ _ _ => .inl (by
      rw [(hf row).2.2.2]
      rfl)
  have hfr : f r ∈ (db.mapRun run.id f).runs := mem_updateWhere_of hr (by simp [hrid])
  have htake : Ledger ((db.mapRun run.id f).takeOver (takenOverRuns db run deps) run) := by
    refine hrunning.updateBatches (fun _ => ⟨rfl, rfl, rfl, rfl, rfl, rfl, rfl, rfl, rfl⟩)
      (fun b hb hp => ⟨f r, hfr, ?_⟩) (fun b hb _ => { hrunning.batch b hb with })
      (fun _ _ _ => rfl)
      fun _ _ _ _ => id
    refine ⟨(hf r).1.trans hrid, ?_, fun _ => by rw [(hf r).2.2.2]; rfl⟩
    -- the batch comes from an automatic run of the same deployment
    simp only [decide_eq_true_eq, List.mem_map] at hp
    obtain ⟨⟨auto, hauto, hid⟩, -⟩ := hp
    unfold takenOverRuns at hauto
    split_ifs at hauto
    · obtain ⟨hauto, hp⟩ := List.mem_filter.1 hauto
      simp only [decide_eq_true_eq] at hp
      obtain ⟨r', hr', hrun'⟩ := hdb.run b hb
      rw [(hf r).2.1, hidentity, ← hp.1, hdb.runIds.eq hauto hr' (hid.trans hrun'.id.symm)]
      exact hrun'.identity
    · cases hauto
  have hres' : Reserves run deps db.clicks
      ((db.mapRun run.id f).takeOver (takenOverRuns db run deps) run) (db₁.mapRun run.id f) := by
    clear htake h
    induction hres with
    | refl => exact .refl
    | step _ hid hfirst hone hmem hlen ih => exact ih.step hid hfirst hone hmem hlen
  refine htake.reserves ⟨f r, hfr, (hf r).1.trans hrid, (hf r).2.1.trans hidentity, ?_⟩
    (fun c hc => hc) hdb.clickIds hres'
  rw [(hf r).2.2.2]
  rfl

end Ledger

end Market

end PreCommunity
