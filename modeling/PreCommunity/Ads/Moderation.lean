import PreCommunity.Ads.Campaigns

/-!
# The invariant of the moderation

The status of a revision and the active revision of its campaign stand in two tables, and every
transaction that moderates a revision writes both.  Here the transactions commit one after another.

* `Replaced` : one row is replaced by another.
* `Revisions`, `Moderated` : the invariant, for the revisions that were approved at some time.
* `Moderated.apply` : each transaction keeps it.
* `Committed` : the tables after each committed transaction.
* `clicks_approved` : a click leads to the revisions that were approved and are not suspended.
-/

namespace PreCommunity

namespace Ads

open Market (Text Hash Address StakePosition)

open Store

/-! ### One row -/

/-- The row `x` is replaced by `x'`. -/
structure Replaced {α : Type} (key : α → ℕ) (x x' : α) (rows rows' : List α) : Prop where
  mem : x ∈ rows
  same : key x' = key x
  iff : ∀ y, y ∈ rows' ↔ y = x' ∨ y ∈ rows ∧ key y ≠ key x
  keyed : Keyed key rows'

section

variable {α : Type} {key : α → ℕ} {p : α → Bool} {f : α → α} {rows rows' : List α} {k : ℕ}
  {x x' z : α}

/-- No key is lost. -/
theorem Replaced.exists_key (h : Replaced key x x' rows rows') (hz : z ∈ rows) :
    ∃ z' ∈ rows', key z' = key z := by
  by_cases hkey : key z = key x
  · exact ⟨x', (h.iff x').2 (.inl rfl), h.same.trans hkey.symm⟩
  · exact ⟨z, (h.iff z).2 (.inr ⟨hz, hkey⟩), rfl⟩

/-- **An update of one row** replaces it. -/
theorem replaced_of_updateOne (h : updateOne p f rows = some rows') (hids : Keyed key rows)
    (hf : ∀ x, key (f x) = key x) (hp : ∀ x ∈ rows, p x = true → key x = k) :
    ∃ x, p x = true ∧ key x = k ∧ Replaced key x (f x) rows rows' := by
  rw [updateOne] at h
  split_ifs at h with hcount
  obtain rfl := Option.some.inj h
  obtain ⟨x, hx, hpx⟩ := List.countP_pos_iff.1 (hcount ▸ Nat.one_pos)
  refine ⟨x, hpx, hp x hx hpx, hx, hf x, fun y => ⟨fun hy => ?_, ?_⟩, hids.updateWhere hf⟩
  · obtain ⟨hy, hpy⟩ | ⟨z, hz, hpz, rfl⟩ := mem_updateWhere_cases hy
    · refine .inr ⟨hy, fun heq => ?_⟩
      rw [hids.eq hy hx heq, hpx] at hpy
      cases hpy
    · exact .inl (by rw [hids.eq hz hx ((hp z hz hpz).trans (hp x hx hpx).symm)])
  · rintro (rfl | ⟨hy, hne⟩)
    · exact mem_updateWhere_of hx hpx
    · refine mem_updateWhere_of_not hy (Bool.eq_false_iff.2 fun hpy => hne ?_)
      rw [hp y hy hpy, hp x hx hpx]

end

/-! ### The two tables -/

/-- The revision is approved, and of this campaign. -/
def ApprovedIn (revisions : List Revision) (campaignId id : ℕ) : Prop :=
  ∃ row ∈ revisions, row.campaignId = campaignId ∧ row.id = id ∧ row.status = .approved

/-- The revision is the active one of the campaign. -/
def ActiveIn (campaigns : List Campaign) (campaignId id : ℕ) : Prop :=
  ∃ row ∈ campaigns, row.id = campaignId ∧ row.activeRevisionId = some id

/-- What the status and the moderation of a revision say about its past. -/
def Revision.Fits (row : Revision) (was : Prop) : Prop :=
  match row.status with
  | .pendingReview => row.moderated = false ∧ ¬ was
  | .approved => row.moderated = true ∧ was
  | .rejected => ¬ was
  | .suspended => was
  | .superseded => row.moderated = true ↔ was

/-- The revisions of some campaigns, of which those with `was` were approved at some time. -/
structure Revisions (campaigns : List Campaign) (was : ℕ → Prop) (rows : List Revision) : Prop where
  ids : Keyed Revision.id rows
  owned : ∀ row ∈ rows, ∃ campaign ∈ campaigns, campaign.id = row.campaignId
  known : ∀ id, was id → ∃ row ∈ rows, row.id = id
  fits : ∀ row ∈ rows, row.Fits (was row.id)
  pending : ∀ row ∈ rows, ∀ row' ∈ rows, row.status = .pendingReview →
    row'.status = .pendingReview → row.campaignId = row'.campaignId → row = row'

section

variable {was was' : ℕ → Prop} {rows rows' : List Revision} {campaigns campaigns' : List Campaign}
  {x x' : Revision} {c k : ℕ}

/-- A row that is replaced by one that is not pending. -/
theorem Revisions.replace (h : Revisions campaigns was rows)
    (hrep : Replaced Revision.id x x' rows rows')
    (hcampaign : x'.campaignId = x.campaignId) (hpending : x'.status ≠ .pendingReview)
    (hfits : x.Fits (was x.id) → x'.Fits (was' x.id))
    (hwas : ∀ id, id ≠ x.id → (was' id ↔ was id)) : Revisions campaigns was' rows' where
  ids := hrep.keyed
  owned row hrow := by
    obtain rfl | ⟨hold, -⟩ := (hrep.iff row).1 hrow
    · rw [hcampaign]
      exact h.owned x hrep.mem
    · exact h.owned row hold
  known id hid := by
    by_cases heq : id = x.id
    · exact ⟨x', (hrep.iff _).2 (.inl rfl), hrep.same.trans heq.symm⟩
    · obtain ⟨row, hrow, rfl⟩ := h.known id ((hwas id heq).1 hid)
      exact ⟨row, (hrep.iff _).2 (.inr ⟨hrow, heq⟩), rfl⟩
  fits row hrow := by
    obtain rfl | ⟨hold, hne⟩ := (hrep.iff row).1 hrow
    · rw [hrep.same]
      exact hfits (h.fits x hrep.mem)
    · rw [propext (hwas row.id hne)]
      exact h.fits row hold
  pending row hrow row' hrow' hstatus hstatus' heq := by
    obtain rfl | ⟨hold, -⟩ := (hrep.iff row).1 hrow
    · exact absurd hstatus hpending
    obtain rfl | ⟨hold', -⟩ := (hrep.iff row').1 hrow'
    · exact absurd hstatus' hpending
    · exact h.pending row hold row' hold' hstatus hstatus' heq

/-- A new row. -/
theorem Revisions.append (h : Revisions campaigns was rows) (hnew : ∀ row ∈ rows, row.id ≠ x.id)
    (howned : ∃ campaign ∈ campaigns, campaign.id = x.campaignId)
    (hfits : x.Fits (was' x.id)) (hwas : ∀ id, id ≠ x.id → (was' id ↔ was id))
    (hpending : x.status = .pendingReview → ∀ row ∈ rows, row.status = .pendingReview →
      row.campaignId ≠ x.campaignId) : Revisions campaigns was' (rows ++ [x]) where
  ids := h.ids.append_one hnew
  owned row hrow := by
    obtain hold | hrow := List.mem_append.1 hrow
    · exact h.owned row hold
    · rw [List.mem_singleton.1 hrow]
      exact howned
  known id hid := by
    by_cases heq : id = x.id
    · exact ⟨x, List.mem_append_right _ (.head _), heq.symm⟩
    · obtain ⟨row, hrow, rfl⟩ := h.known id ((hwas id heq).1 hid)
      exact ⟨row, List.mem_append_left _ hrow, rfl⟩
  fits row hrow := by
    obtain hold | hrow := List.mem_append.1 hrow
    · rw [propext (hwas row.id (hnew row hold))]
      exact h.fits row hold
    · rw [List.mem_singleton.1 hrow]
      exact hfits
  pending row hrow row' hrow' hstatus hstatus' heq := by
    obtain hold | hrow := List.mem_append.1 hrow <;> obtain hold' | hrow' := List.mem_append.1 hrow'
    · exact h.pending row hold row' hold' hstatus hstatus' heq
    · rw [List.mem_singleton.1 hrow'] at hstatus' heq
      exact absurd heq (hpending hstatus' row hold hstatus)
    · rw [List.mem_singleton.1 hrow] at hstatus heq
      exact absurd heq.symm (hpending hstatus row' hold' hstatus')
    · rw [List.mem_singleton.1 hrow, List.mem_singleton.1 hrow']

/-- The pending revisions of a campaign are withdrawn. -/
theorem Revisions.withdraw (h : Revisions campaigns was rows) (campaignId : ℕ) :
    Revisions campaigns was (updateWhere (fun row => decide (row.campaignId = campaignId) &&
      decide (row.status = .pendingReview))
        (fun row => { row with status := .superseded }) rows) where
  ids := h.ids.updateWhere fun _ => rfl
  owned row hrow := by
    obtain ⟨hold, -⟩ | ⟨old, hold, -, rfl⟩ := mem_updateWhere_cases hrow
    · exact h.owned row hold
    · exact h.owned old hold
  known id hid := by
    obtain ⟨row, hrow, rfl⟩ := h.known id hid
    refine ⟨_, mem_updateWhere.2 ⟨row, hrow, rfl⟩, ?_⟩
    split_ifs <;> rfl
  fits row hrow := by
    obtain ⟨hold, -⟩ | ⟨old, hold, hp, rfl⟩ := mem_updateWhere_cases hrow
    · exact h.fits row hold
    · have hfits := h.fits old hold
      simp only [Bool.and_eq_true, decide_eq_true_eq] at hp
      simp only [Revision.Fits, hp.2] at hfits ⊢
      simp [hfits]
  pending row hrow row' hrow' hstatus hstatus' heq := by
    obtain ⟨hold, -⟩ | ⟨old, hold, -, rfl⟩ := mem_updateWhere_cases hrow
    · obtain ⟨hold', -⟩ | ⟨old', hold', -, rfl⟩ := mem_updateWhere_cases hrow'
      · exact h.pending row hold row' hold' hstatus hstatus' heq
      · cases hstatus'
    · cases hstatus

theorem approvedIn_replaced (hrep : Replaced Revision.id x x' rows rows')
    (hcampaign : x'.campaignId = x.campaignId) : ApprovedIn rows' c k ↔
      x'.status = .approved ∧ x.campaignId = c ∧ x.id = k ∨ ApprovedIn rows c k ∧ k ≠ x.id := by
  constructor
  · rintro ⟨row, hrow, rfl, rfl, hstatus⟩
    obtain rfl | ⟨hold, hne⟩ := (hrep.iff row).1 hrow
    · exact .inl ⟨hstatus, hcampaign.symm, hrep.same.symm⟩
    · exact .inr ⟨⟨row, hold, rfl, rfl, hstatus⟩, hne⟩
  · rintro (⟨hstatus, rfl, rfl⟩ | ⟨⟨row, hrow, rfl, rfl, hstatus⟩, hne⟩)
    · exact ⟨x', (hrep.iff _).2 (.inl rfl), hcampaign, hrep.same, hstatus⟩
    · exact ⟨row, (hrep.iff _).2 (.inr ⟨hrow, hne⟩), rfl, rfl, hstatus⟩

theorem approvedIn_append : ApprovedIn (rows ++ [x]) c k ↔
    ApprovedIn rows c k ∨ x.campaignId = c ∧ x.id = k ∧ x.status = .approved := by
  simp [ApprovedIn, or_and_right, exists_or]

theorem activeIn_replaced {y y' : Campaign}
    (hrep : Replaced Campaign.id y y' campaigns campaigns') :
    ActiveIn campaigns' c k ↔
      y.id = c ∧ y'.activeRevisionId = some k ∨ ActiveIn campaigns c k ∧ c ≠ y.id := by
  constructor
  · rintro ⟨row, hrow, rfl, hactive⟩
    obtain rfl | ⟨hold, hne⟩ := (hrep.iff row).1 hrow
    · exact .inl ⟨hrep.same.symm, hactive⟩
    · exact .inr ⟨⟨row, hold, rfl, hactive⟩, hne⟩
  · rintro (⟨rfl, hactive⟩ | ⟨⟨row, hrow, rfl, hactive⟩, hne⟩)
    · exact ⟨y', (hrep.iff _).2 (.inl rfl), hrep.same, hactive⟩
    · exact ⟨row, (hrep.iff _).2 (.inr ⟨hrow, hne⟩), rfl, hactive⟩

theorem Revisions.mono (h : Revisions campaigns was rows)
    (hle : ∀ y ∈ campaigns, ∃ y' ∈ campaigns', y'.id = y.id) : Revisions campaigns' was rows :=
  { h with
    owned := fun row hrow => by
      obtain ⟨y, hy, hid⟩ := h.owned row hrow
      obtain ⟨y', hy', hid'⟩ := hle y hy
      exact ⟨y', hy', hid'.trans hid⟩ }

theorem Revisions.congr (h : Revisions campaigns was rows) (heq : ∀ id, was id ↔ was' id) :
    Revisions campaigns was' rows := by
  rwa [← (funext fun id => propext (heq id) : was = was')]

end

/-! ### The writes of a transaction -/

section

variable {was : ℕ → Prop} {rows rows' : List Revision} {campaigns : List Campaign}

/-- The approved active revision is superseded. -/
theorem Revisions.supersedeActive {active : Option ℕ} (h : Revisions campaigns was rows)
    (hupdate : Ads.supersedeActive active rows = some rows') : Revisions campaigns was rows' ∧
      (∀ c k, ApprovedIn rows' c k ↔ ApprovedIn rows c k ∧ active ≠ some k) ∧
      ∀ row' ∈ rows', ∃ row ∈ rows, row.id = row'.id ∧ row.campaignId = row'.campaignId := by
  cases active with
  | none =>
    obtain rfl := Option.some.inj hupdate
    exact ⟨h, fun c k => by simp, fun row hrow => ⟨row, hrow, rfl, rfl⟩⟩
  | some active =>
    rw [Ads.supersedeActive] at hupdate
    obtain ⟨x, hp, hid, hrep⟩ := replaced_of_updateOne (k := active) hupdate h.ids
      (fun _ => rfl) fun x _ hp => of_decide_eq_true (Bool.and_eq_true_iff.1 hp).1
    have hstatus : x.status = .approved := of_decide_eq_true (Bool.and_eq_true_iff.1 hp).2
    refine ⟨h.replace hrep rfl (by simp) (fun hfits => ?_) fun _ _ => Iff.rfl, fun c k => ?_,
      fun row' hrow' => ?_⟩
    · simp only [Revision.Fits, hstatus] at hfits ⊢
      simp [hfits]
    · rw [approvedIn_replaced hrep rfl, hid]
      simp [eq_comm]
    · obtain rfl | ⟨hold, -⟩ := (hrep.iff row').1 hrow'
      · exact ⟨x, hrep.mem, rfl, rfl⟩
      · exact ⟨row', hold, rfl, rfl⟩

/-- A pending or a suspended revision is approved. -/
theorem Revisions.approve {id : ℕ} {before : AdCreativeStatus} (h : Revisions campaigns was rows)
    (hupdate : moderateFrom id before .approved rows = some rows') (hbefore : before ≠ .approved) :
    Revisions campaigns (fun k => was k ∨ some id = some k) rows' ∧
      ∃ x ∈ rows, x.id = id ∧ ∀ c k, ApprovedIn rows' c k ↔
        x.campaignId = c ∧ some id = some k ∨ ApprovedIn rows c k := by
  rw [moderateFrom] at hupdate
  obtain ⟨x, hp, rfl, hrep⟩ := replaced_of_updateOne (k := id) hupdate h.ids (fun _ => rfl)
    fun x _ hp => of_decide_eq_true (Bool.and_eq_true_iff.1 hp).1
  have hstatus : x.status = before := of_decide_eq_true (Bool.and_eq_true_iff.1 hp).2
  refine ⟨h.replace hrep rfl (by simp) (fun _ => ⟨rfl, .inr rfl⟩) fun id hne => ?_,
    x, hrep.mem, rfl, fun c k => ?_⟩
  · exact or_iff_left fun heq => hne (Option.some.inj heq).symm
  · rw [approvedIn_replaced hrep rfl]
    refine or_congr (by simp) ⟨fun hk => hk.1, fun hk => ⟨hk, ?_⟩⟩
    rintro rfl
    obtain ⟨row, hrow, -, hid, happroved⟩ := hk
    rw [h.ids.eq hrow hrep.mem hid, hstatus] at happroved
    exact hbefore happroved

/-- A pending revision is rejected. -/
theorem Revisions.reject {id : ℕ} (h : Revisions campaigns was rows)
    (hupdate : moderateFrom id .pendingReview .rejected rows = some rows') :
    Revisions campaigns was rows' ∧ ∀ c k, ApprovedIn rows' c k ↔ ApprovedIn rows c k := by
  rw [moderateFrom] at hupdate
  obtain ⟨x, hp, rfl, hrep⟩ := replaced_of_updateOne (k := id) hupdate h.ids (fun _ => rfl)
    fun x _ hp => of_decide_eq_true (Bool.and_eq_true_iff.1 hp).1
  have hstatus : x.status = .pendingReview := of_decide_eq_true (Bool.and_eq_true_iff.1 hp).2
  refine ⟨h.replace hrep rfl (by simp) (fun hfits => ?_) fun _ _ => Iff.rfl, fun c k => ?_⟩
  · simp only [Revision.Fits, hstatus] at hfits ⊢
    exact hfits.2
  · rw [approvedIn_replaced hrep rfl]
    simp only [reduceCtorEq, false_and, false_or, and_iff_left_iff_imp]
    rintro ⟨row, hrow, -, rfl, happroved⟩ hid
    rw [h.ids.eq hrow hrep.mem hid, hstatus] at happroved
    cases happroved

/-- An approved revision, or one that was superseded after its approval, is suspended. -/
theorem Revisions.suspend {revision : Revision} (h : Revisions campaigns was rows)
    (hmem : revision ∈ rows) (hcan : canSuspendRevision revision = true)
    (hupdate : updateOne (fun row => decide (row.id = revision.id) &&
      decide (row.status = revision.status) &&
      (decide (revision.status ≠ .superseded) || row.moderated))
      (fun row => { row with status := .suspended, moderated := true }) rows = some rows') :
    Revisions campaigns was rows' ∧
      ∀ c k, ApprovedIn rows' c k ↔ ApprovedIn rows c k ∧ k ≠ revision.id := by
  obtain ⟨x, -, hid, hrep⟩ := replaced_of_updateOne (k := revision.id) hupdate h.ids
    (fun _ => rfl)
    fun x _ hp => of_decide_eq_true (Bool.and_eq_true_iff.1 (Bool.and_eq_true_iff.1 hp).1).1
  obtain rfl := h.ids.eq hrep.mem hmem hid
  refine ⟨h.replace hrep rfl (by simp) (fun hfits => ?_) fun _ _ => Iff.rfl, fun c k => ?_⟩
  · simp only [canSuspendRevision, Bool.or_eq_true, Bool.and_eq_true, decide_eq_true_eq] at hcan
    obtain hstatus | ⟨hstatus, hmoderated⟩ := hcan <;>
      simp only [Revision.Fits, hstatus] at hfits ⊢
    · exact hfits.2
    · exact hfits.1 hmoderated
  · rw [approvedIn_replaced hrep rfl]
    simp

theorem approvedIn_withdraw {campaignId c k : ℕ} :
    ApprovedIn (updateWhere (fun row => decide (row.campaignId = campaignId) &&
      decide (row.status = .pendingReview)) (fun row => { row with status := .superseded }) rows)
      c k ↔ ApprovedIn rows c k := by
  constructor
  · rintro ⟨row, hrow, hcampaign, hid, hstatus⟩
    obtain ⟨hold, -⟩ | ⟨old, -, -, rfl⟩ := mem_updateWhere_cases hrow
    · exact ⟨row, hold, hcampaign, hid, hstatus⟩
    · cases hstatus
  · rintro ⟨row, hrow, hcampaign, hid, hstatus⟩
    exact ⟨row, mem_updateWhere_of_not hrow (by simp [hstatus]), hcampaign, hid, hstatus⟩

/-- No pending revision of the campaign is left. -/
theorem not_pending_withdraw {campaignId : ℕ} {row : Revision}
    (hrow : row ∈ updateWhere (fun row => decide (row.campaignId = campaignId) &&
      decide (row.status = .pendingReview)) (fun row => { row with status := .superseded }) rows)
    (hstatus : row.status = .pendingReview) : row.campaignId ≠ campaignId := by
  obtain ⟨-, hp⟩ | ⟨old, -, -, rfl⟩ := mem_updateWhere_cases hrow
  · rintro rfl
    simp [hstatus] at hp
  · cases hstatus

end

/-! ### The transactions -/

/-- **The invariant**: the active revision of a campaign is its approved one. -/
structure Moderated (was : ℕ → Prop) (db : AdsDatabase) : Prop where
  campaignIds : Keyed Campaign.id db.campaigns
  revisions : Revisions db.campaigns was db.revisions
  active : ∀ c k, ActiveIn db.campaigns c k ↔ ApprovedIn db.revisions c k

/-- The revisions that were approved before, or are so now. -/
def wasOrIs (was : ℕ → Prop) (revisions : List Revision) (id : ℕ) : Prop :=
  was id ∨ ∃ c, ApprovedIn revisions c id

section

variable {was : ℕ → Prop} {db db' : AdsDatabase} {campaigns' : List Campaign}
  {revisions' : List Revision} {campaignId : ℕ} {before after : Option ℕ}

theorem Revisions.commit {campaigns : List Campaign} {rows : List Revision}
    (h : Revisions campaigns (fun k => was k ∨ after = some k) rows)
    (happroved : ∀ k, after = some k → ∃ c, ApprovedIn rows c k) :
    Revisions campaigns (wasOrIs was rows) rows := by
  refine h.congr fun k => ⟨Or.imp_right (happroved k), ?_⟩
  rintro (hwas | ⟨c, row, hrow, -, rfl, hstatus⟩)
  · exact .inl hwas
  · have hfits := h.fits row hrow
    simp only [Revision.Fits, hstatus] at hfits
    exact hfits.2

/-- The active revisions stay. -/
theorem Moderated.keep (h : Moderated was db) (hrevisions : Revisions db.campaigns was revisions')
    (happroved : ∀ c k, ApprovedIn revisions' c k ↔ ApprovedIn db.revisions c k) :
    Moderated (wasOrIs was revisions') { db with revisions := revisions' } where
  campaignIds := h.campaignIds
  revisions := (hrevisions.congr fun _ => (or_iff_left (Option.some_ne_none _).symm).symm :
    Revisions _ (fun k => was k ∨ none = some k) _).commit fun _ hk =>
      absurd hk.symm (Option.some_ne_none _)
  active c k := (h.active c k).trans (happroved c k).symm

/-- A campaign is pointed from one active revision to another. -/
theorem Moderated.activate (h : Moderated was db)
    (hupdate : Ads.activate campaignId before after db.campaigns = some campaigns')
    (hrevisions : Revisions db.campaigns (fun k => was k ∨ after = some k) revisions')
    (happroved : ∀ c k, ApprovedIn revisions' c k ↔
      campaignId = c ∧ after = some k ∨ ApprovedIn db.revisions c k ∧ before ≠ some k) :
    Moderated (wasOrIs was revisions')
      { db with campaigns := campaigns', revisions := revisions' } := by
  rw [Ads.activate] at hupdate
  obtain ⟨y, hp, rfl, hrep⟩ := replaced_of_updateOne (k := campaignId) hupdate h.campaignIds
    (fun _ => rfl) fun x _ hp => of_decide_eq_true (Bool.and_eq_true_iff.1 hp).1
  have hactive : y.activeRevisionId = before := of_decide_eq_true (Bool.and_eq_true_iff.1 hp).2
  refine ⟨hrep.keyed, Revisions.commit (hrevisions.mono fun z hz => hrep.exists_key hz)
    fun k hk => ⟨y.id, (happroved _ _).2 (.inl ⟨rfl, hk⟩)⟩, fun c k => ?_⟩
  rw [activeIn_replaced hrep, happroved]
  refine or_congr Iff.rfl ⟨?_, ?_⟩
  · rintro ⟨hc, hne⟩
    refine ⟨(h.active c k).1 hc, ?_⟩
    -- the revision would be approved for two campaigns
    rintro rfl
    obtain ⟨row, hrow, hcampaign, hid, -⟩ := (h.active y.id k).1 ⟨y, hrep.mem, rfl, hactive⟩
    obtain ⟨row', hrow', hcampaign', hid', -⟩ := (h.active c k).1 hc
    obtain rfl := h.revisions.ids.eq hrow hrow' (hid.trans hid'.symm)
    exact hne (hcampaign'.symm.trans hcampaign)
  · rintro ⟨hc, hne⟩
    refine ⟨(h.active c k).2 hc, ?_⟩
    -- the campaign would have two active revisions
    rintro rfl
    obtain ⟨z, hz, hid, hk⟩ := (h.active y.id k).2 hc
    rw [h.campaignIds.eq hz hrep.mem hid, hactive] at hk
    exact hne hk

theorem Moderated.suspendRevision {revision : Revision} {campaign : Campaign}
    (h : Moderated was db) (hrevision : revision ∈ db.revisions)
    (hcampaign : campaign ∈ db.campaigns)
    (hid : campaign.id = revision.campaignId) (hcan : canSuspendRevision revision = true)
    (hsuspend : Ads.suspendRevision db revision campaign = some db') :
    Moderated (wasOrIs was db'.revisions) db' := by
  simp only [Ads.suspendRevision, Option.bind_eq_bind, Option.bind_eq_some_iff] at hsuspend
  obtain ⟨revisions, hrevisions, campaigns, hcampaigns, hdb⟩ := hsuspend
  obtain rfl := Option.some.inj hdb
  obtain ⟨hkeeps, happroved⟩ := h.revisions.suspend hrevision hcan hrevisions
  rw [deactivate] at hcampaigns
  split_ifs at hcampaigns with hactive
  · refine h.activate hcampaigns (hkeeps.congr fun _ =>
      (or_iff_left (Option.some_ne_none _).symm).symm) fun c k => ?_
    simp [happroved, eq_comm]
  · obtain rfl := Option.some.inj hcampaigns
    refine h.keep hkeeps fun c k => (happroved c k).trans (and_iff_left_of_imp fun hk heq => ?_)
    -- it would be active, in this campaign
    obtain ⟨z, hz, hzid, hzactive⟩ := (h.active c k).2 hk
    obtain ⟨row, hrow, hrowCampaign, hrowId, -⟩ := hk
    obtain rfl := h.revisions.ids.eq hrow hrevision (hrowId.trans heq)
    obtain rfl := h.campaignIds.eq hz hcampaign ((hzid.trans hrowCampaign.symm).trans hid.symm)
    exact hactive (heq ▸ hzactive)

theorem Moderated.moderateRevision {revisionId : ℕ} {action : AdModerationAction}
    (h : Moderated was db) (hmoderate : Ads.moderateRevision db revisionId action = some db') :
    Moderated (wasOrIs was db'.revisions) db' := by
  simp only [Ads.moderateRevision, Option.bind_eq_bind, Option.bind_eq_some_iff] at hmoderate
  obtain ⟨revision, hfound, campaign, hcampaign, hmoderate⟩ := hmoderate
  have hrevision := List.mem_of_find?_eq_some hfound
  have hrevisionId : revision.id = revisionId := by simpa using List.find?_some hfound
  have hid : campaign.id = revision.campaignId := by simpa using List.find?_some hcampaign
  cases action with
  | approve =>
    simp only [Option.bind_eq_some_iff] at hmoderate
    obtain ⟨superseded, hsuperseded, revisions, hrevisions, campaigns, hcampaigns, hdb⟩ := hmoderate
    obtain rfl := Option.some.inj hdb
    obtain ⟨hkeeps, hold, hrows⟩ := h.revisions.supersedeActive hsuperseded
    obtain ⟨happroves, x, hx, hxid, happroved⟩ := hkeeps.approve hrevisions (by decide)
    obtain ⟨row, hrow, hrowId, hrowCampaign⟩ := hrows x hx
    obtain rfl := h.revisions.ids.eq hrow hrevision ((hrowId.trans hxid).trans hrevisionId.symm)
    refine h.activate hcampaigns happroves fun c k => ?_
    rw [happroved, hold, ← hrowCampaign, ← hid]
  | reject =>
    simp only [Option.bind_eq_some_iff] at hmoderate
    obtain ⟨revisions, hrevisions, hdb⟩ := hmoderate
    obtain rfl := Option.some.inj hdb
    obtain ⟨hkeeps, happroved⟩ := h.revisions.reject hrevisions
    exact h.keep hkeeps happroved
  | suspend =>
    simp only at hmoderate
    split_ifs at hmoderate with hcan
    exact h.suspendRevision hrevision (List.mem_of_find?_eq_some hcampaign) hid hcan hmoderate
  | restore =>
    simp only at hmoderate
    split_ifs at hmoderate
    simp only [Option.bind_eq_some_iff] at hmoderate
    obtain ⟨revisions, hrevisions, campaigns, hcampaigns, hdb⟩ := hmoderate
    obtain rfl := Option.some.inj hdb
    obtain ⟨happroves, x, hx, hxid, happroved⟩ := h.revisions.approve hrevisions (by decide)
    obtain rfl := h.revisions.ids.eq hx hrevision (hxid.trans hrevisionId.symm)
    refine h.activate hcampaigns happroves fun c k => ?_
    rw [happroved, ← hid]
    simp

/-- The other tables do not matter. -/
theorem Moderated.same (h : Moderated was db) (hcampaigns : db'.campaigns = db.campaigns)
    (hrevisions : db'.revisions = db.revisions) : Moderated was db' := by
  refine ⟨?_, ?_, ?_⟩ <;> rw [hcampaigns]
  · exact h.campaignIds
  · rw [hrevisions]
    exact h.revisions
  · rw [hrevisions]
    exact h.active

theorem Moderated.resolveReports {revisionId : ℕ} {action : AdReportResolutionAction}
    (h : Moderated was db) (hresolve : Ads.resolveReports db revisionId action = some db') :
    Moderated (wasOrIs was db'.revisions) db' := by
  simp only [Ads.resolveReports, Option.bind_eq_bind, Option.bind_eq_some_iff] at hresolve
  obtain ⟨revision, hfound, campaign, hcampaign, middle, hmiddle, hresolve⟩ := hresolve
  have hrevision := List.mem_of_find?_eq_some hfound
  have hid : campaign.id = revision.campaignId := by simpa using List.find?_some hcampaign
  have hsame : Moderated (wasOrIs was middle.revisions) middle := by
    cases action with
    | dismiss =>
      obtain rfl := Option.some.inj hmiddle
      exact h.keep h.revisions fun _ _ => Iff.rfl
    | suspendAd =>
      rw [actOnReports] at hmiddle
      split_ifs at hmiddle with hcan
      · exact h.suspendRevision hrevision (List.mem_of_find?_eq_some hcampaign) hid hcan hmiddle
      · obtain ⟨campaigns, hcampaigns, rfl⟩ := Option.map_eq_some_iff.1 hmiddle
        rw [deactivate] at hcampaigns
        split_ifs at hcampaigns with hactive
        · -- an active revision is approved, so it could have been suspended
          obtain ⟨row, hrow, -, hrowId, hstatus⟩ := (h.active campaign.id revision.id).1
            ⟨campaign, List.mem_of_find?_eq_some hcampaign, rfl, hactive⟩
          obtain rfl := h.revisions.ids.eq hrow hrevision hrowId
          exact absurd (by simp [canSuspendRevision, hstatus]) hcan
        · obtain rfl := Option.some.inj hcampaigns
          exact h.keep h.revisions fun _ _ => Iff.rfl
  split_ifs at hresolve
  obtain rfl := Option.some.inj hresolve
  exact hsame.same rfl rfl

theorem Moderated.updateCampaign {address : Address} {pausedAt : Option ℕ} (h : Moderated was db)
    (hpause : Ads.updateCampaign db campaignId address pausedAt = some db') :
    Moderated (wasOrIs was db'.revisions) db' := by
  obtain ⟨campaigns, hcampaigns, rfl⟩ := Option.map_eq_some_iff.1 hpause
  obtain ⟨y, -, rfl, hrep⟩ := replaced_of_updateOne (k := campaignId) hcampaigns h.campaignIds
    (fun _ => rfl) fun x _ hp => of_decide_eq_true (Bool.and_eq_true_iff.1 hp).1
  have hkeep := h.keep h.revisions fun _ _ => Iff.rfl
  refine ⟨hrep.keyed, hkeep.revisions.mono fun z hz => hrep.exists_key hz, fun c k => ?_⟩
  rw [← hkeep.active, activeIn_replaced hrep]
  constructor
  · rintro (⟨rfl, hactive⟩ | ⟨hactive, -⟩)
    · exact ⟨y, hrep.mem, rfl, hactive⟩
    · exact hactive
  · rintro ⟨z, hz, rfl, hactive⟩
    by_cases hid : z.id = y.id
    · obtain rfl := h.campaignIds.eq hz hrep.mem hid
      exact .inl ⟨rfl, hactive⟩
    · exact .inr ⟨⟨z, hz, rfl, hactive⟩, hid⟩

theorem Moderated.createCampaign {id revisionId : ℕ} {address : Address} {canonicalKeyword : Text}
    {creative : Creative} {requireReview : Bool} (h : Moderated was db)
    (hcreate : Ads.createCampaign db id revisionId address canonicalKeyword creative requireReview =
      some db') : Moderated (wasOrIs was db'.revisions) db' := by
  rw [Ads.createCampaign] at hcreate
  split at hcreate
  · cases hcreate
  rename_i hnew
  obtain rfl := Option.some.inj hcreate
  simp only [Bool.or_eq_true, List.any_eq_true, Bool.and_eq_true, decide_eq_true_eq, not_or,
    not_exists, not_and] at hnew
  obtain ⟨hcampaign, hrevision⟩ := hnew
  have hfresh : ¬ was revisionId := fun hwas => by
    obtain ⟨row, hrow, hid⟩ := h.revisions.known revisionId hwas
    exact hrevision row hrow hid
  have hother : ∀ row ∈ db.revisions, row.campaignId ≠ id := fun row hrow heq => by
    obtain ⟨campaign, hmem, hid⟩ := h.revisions.owned row hrow
    exact (hcampaign campaign hmem).1 (hid.trans heq)
  have hgrown : Revisions (db.campaigns ++ [⟨id, address, canonicalKeyword, none,
      if requireReview then none else some revisionId⟩])
      (fun k => was k ∨ (if requireReview then none else some revisionId) = some k)
      (db.revisions ++ [submitted revisionId id 1 creative requireReview]) := by
    refine (h.revisions.mono fun y hy => ⟨y, List.mem_append_left _ hy, rfl⟩).append hrevision
      ⟨_, List.mem_append_right _ (.head _), rfl⟩ ?_ (fun k hk => ?_)
      fun _ row hrow _ => hother row hrow
    · cases requireReview with
      | true => exact ⟨rfl, fun hwas => hwas.elim hfresh (Option.some_ne_none _).symm⟩
      | false => exact ⟨rfl, .inr rfl⟩
    · cases requireReview with
      | true => exact or_iff_left (Option.some_ne_none _).symm
      | false => exact or_iff_left fun heq => hk (Option.some.inj heq).symm
  refine ⟨h.campaignIds.append_one fun y hy => (hcampaign y hy).1, hgrown.commit fun k hk =>
    ⟨id, approvedIn_append.2 (.inr ?_)⟩, fun c k => ?_⟩
  · cases requireReview with
    | true => cases hk
    | false => exact ⟨rfl, Option.some.inj hk, rfl⟩
  · rw [approvedIn_append, ← h.active]
    cases requireReview <;> simp [ActiveIn, submitted, or_and_right, exists_or]

theorem Moderated.createRevision {revisionId : ℕ} {address : Address} {creative : Creative}
    {requireReview : Bool} (h : Moderated was db)
    (hcreate : Ads.createRevision db revisionId campaignId address creative requireReview =
      some db') : Moderated (wasOrIs was db'.revisions) db' := by
  simp only [Ads.createRevision, Option.bind_eq_bind, Option.bind_eq_some_iff] at hcreate
  obtain ⟨campaign, hfound, superseded, hsuperseded, campaigns, hcampaigns, hcreate⟩ := hcreate
  have hcampaign := List.mem_of_find?_eq_some hfound
  have hid : campaign.id = campaignId ∧ campaign.address = address := by
    simpa using List.find?_some hfound
  split_ifs at hcreate with hnew
  obtain rfl := Option.some.inj hcreate
  simp only [List.any_eq_true, decide_eq_true_eq, not_exists, not_and] at hnew
  have howned : ∃ y ∈ db.campaigns, y.id = campaignId := ⟨campaign, hcampaign, hid.1⟩
  cases requireReview with
  | true =>
    obtain rfl := Option.some.inj hsuperseded
    obtain rfl := Option.some.inj hcampaigns
    have hkeeps := h.revisions.withdraw campaignId
    refine h.keep (hkeeps.append hnew howned ⟨rfl, fun hwas => ?_⟩ (fun _ _ => Iff.rfl)
      fun _ row hrow hstatus => not_pending_withdraw hrow hstatus) fun c k => ?_
    · obtain ⟨row, hrow, hrowId⟩ := hkeeps.known revisionId hwas
      exact hnew row hrow hrowId
    · rw [approvedIn_append, approvedIn_withdraw]
      simp [submitted]
  | false =>
    rw [supersedeFor, if_neg Bool.false_ne_true] at hsuperseded
    rw [activateFor, if_neg Bool.false_ne_true] at hcampaigns
    obtain ⟨hkeeps, hold, -⟩ := h.revisions.supersedeActive hsuperseded
    refine h.activate hcampaigns ((hkeeps.withdraw campaignId).append hnew howned ⟨rfl, .inr rfl⟩
      (fun k hk => or_iff_left fun heq => hk (Option.some.inj heq).symm) (by simp [submitted]))
      fun c k => ?_
    rw [approvedIn_append, approvedIn_withdraw, hold, hid.1]
    simp [submitted, or_comm]

/-- **Every transaction** keeps the invariant. -/
theorem Moderated.apply {transaction : Transaction} (h : Moderated was db)
    (happly : transaction.apply db = some db') : Moderated (wasOrIs was db'.revisions) db' := by
  cases transaction with
  | moderateRevision => exact h.moderateRevision happly
  | resolveReports => exact h.resolveReports happly
  | updateCampaign => exact h.updateCampaign happly
  | createCampaign => exact h.createCampaign happly
  | createRevision => exact h.createRevision happly

end

/-! ### Runs -/

/-- The tables after each of the transactions that have committed one after another, the last ones
first; between them others write reports and positions. -/
inductive Committed : List AdsDatabase → Prop where
  | start {db : AdsDatabase} : db.campaigns = [] → db.revisions = [] → Committed [db]
  | commit {db db' : AdsDatabase} {past : List AdsDatabase} {transaction : Transaction} :
      Committed (db :: past) → transaction.apply db = some db' → Committed (db' :: db :: past)
  | other {db db' : AdsDatabase} {past : List AdsDatabase} :
      Committed (db :: past) → db'.campaigns = db.campaigns → db'.revisions = db.revisions →
      Committed (db' :: db :: past)

/-- The revision was approved in one of the states. -/
def WasApproved (dbs : List AdsDatabase) (id : ℕ) : Prop :=
  ∃ db ∈ dbs, ∃ row ∈ db.revisions, row.id = id ∧ row.status = .approved

/-- `click`: where a click on a revision leads. -/
def click (db : AdsDatabase) (revisionId : ℕ) : Option Text :=
  (db.revisions.find? fun row => decide (row.id = revisionId) &&
    (decide (row.status = .approved) || (decide (row.status = .superseded) && row.moderated))).map
      (·.creative.destinationUrl)

section

variable {db db' : AdsDatabase} {past dbs : List AdsDatabase}

theorem wasApproved_cons {id : ℕ} :
    WasApproved (db :: dbs) id ↔ wasOrIs (WasApproved dbs) db.revisions id := by
  simp only [WasApproved, wasOrIs, ApprovedIn, List.mem_cons, exists_eq_or_imp]
  grind

theorem Moderated.congr {was was' : ℕ → Prop} (h : Moderated was db)
    (heq : ∀ id, was id ↔ was' id) : Moderated was' db :=
  ⟨h.campaignIds, h.revisions.congr heq, h.active⟩

theorem moderated_of_committed (h : Committed dbs) :
    ∀ db past, dbs = db :: past → Moderated (WasApproved dbs) db := by
  induction h with
  | @start db hcampaigns hrevisions =>
    rintro _ _ ⟨⟩
    refine ⟨?_, ⟨?_, ?_, ?_, ?_, ?_⟩, ?_⟩ <;>
      simp [hcampaigns, hrevisions, Keyed, WasApproved, ActiveIn, ApprovedIn]
  | @commit db db' past transaction _ happly ih =>
    rintro _ _ ⟨⟩
    exact ((ih db past rfl).apply happly).congr fun _ => wasApproved_cons.symm
  | @other db db' past _ hcampaigns hrevisions ih =>
    rintro _ _ ⟨⟩
    have hold := ih db past rfl
    have hkeep := hold.keep hold.revisions fun _ _ => Iff.rfl
    refine (hkeep.same hcampaigns hrevisions).congr fun _ => ?_
    rw [wasApproved_cons, hrevisions]

/-- What a click finds. -/
theorem click_eq_some (hids : Keyed Revision.id db.revisions) {row : Revision}
    (hrow : row ∈ db.revisions) {url : Text} : click db row.id = some url ↔
      canSuspendRevision row = true ∧ url = row.creative.destinationUrl := by
  rw [click, Option.map_eq_some_iff]
  constructor
  · rintro ⟨found, hfound, rfl⟩
    have hp := List.find?_some hfound
    obtain rfl := hids.eq (List.mem_of_find?_eq_some hfound) hrow
      (of_decide_eq_true (Bool.and_eq_true_iff.1 hp).1)
    exact ⟨(Bool.and_eq_true_iff.1 hp).2, rfl⟩
  · rintro ⟨hcan, rfl⟩
    cases hfound : db.revisions.find? fun other => decide (other.id = row.id) &&
        (decide (other.status = .approved) ||
          (decide (other.status = .superseded) && other.moderated)) with
    | none =>
      have hnone := List.find?_eq_none.1 hfound row hrow
      rw [decide_eq_true rfl, Bool.true_and] at hnone
      exact absurd hcan hnone
    | some found =>
      have hp := List.find?_some hfound
      obtain rfl := hids.eq (List.mem_of_find?_eq_some hfound) hrow
        (of_decide_eq_true (Bool.and_eq_true_iff.1 hp).1)
      exact ⟨_, rfl, rfl⟩

theorem Revision.Fits.canSuspend {row : Revision} {was : Prop} (h : row.Fits was) :
    canSuspendRevision row = true ↔ was ∧ row.status ≠ .suspended := by
  unfold Revision.Fits at h
  cases hstatus : row.status <;> simp only [hstatus] at h <;> simp [canSuspendRevision, hstatus, h]

/-- **Moderation is consistent.**  After any sequence of transactions, one after another, the active
revision of a campaign is its approved one, at most one revision of a campaign waits for a review,
and a click on a revision leads to its address exactly when it was approved at some time and is not
suspended. -/
theorem clicks_approved (h : Committed (db :: past)) :
    (∀ campaign ∈ db.campaigns, ∀ id, campaign.activeRevisionId = some id ↔
      ∃ row ∈ db.revisions, row.campaignId = campaign.id ∧ row.id = id ∧ row.status = .approved) ∧
    (∀ row ∈ db.revisions, ∀ row' ∈ db.revisions, row.status = .pendingReview →
      row'.status = .pendingReview → row.campaignId = row'.campaignId → row = row') ∧
    ∀ row ∈ db.revisions, ∀ url, click db row.id = some url ↔
      (WasApproved (db :: past) row.id ∧ row.status ≠ .suspended) ∧
        url = row.creative.destinationUrl := by
  have hmoderated := moderated_of_committed h db past rfl
  refine ⟨fun campaign hcampaign id => ?_, hmoderated.revisions.pending, fun row hrow url => ?_⟩
  · refine Iff.trans ⟨fun hactive => ⟨campaign, hcampaign, rfl, hactive⟩, ?_⟩
      (hmoderated.active campaign.id id)
    rintro ⟨other, hother, hid, hactive⟩
    rwa [← hmoderated.campaignIds.eq hother hcampaign hid]
  · rw [click_eq_some hmoderated.revisions.ids hrow,
      (hmoderated.revisions.fits row hrow).canSuspend]

/-- What the ad of the sample says. -/
def sampleCreative : Creative := ⟨"Tea".toList, "Green tea".toList, "tea".toList⟩

/-- The tables after a campaign was created and approved, and its creative changed without a
review. -/
def sampleTables : AdsDatabase where
  campaigns := [⟨1, 5, "tea".toList, none, some 2⟩]
  revisions := [⟨1, 1, 1, sampleCreative, .superseded, true⟩,
    ⟨2, 1, 2, sampleCreative, .approved, true⟩]
  reports := []
  positions := []

theorem committed_sampleTables : ∃ past, Committed (sampleTables :: past) := by
  have hcreated : (Transaction.createCampaign 1 1 5 "tea".toList sampleCreative true).apply
      ⟨[], [], [], []⟩ = some ⟨[⟨1, 5, "tea".toList, none, none⟩],
        [⟨1, 1, 1, sampleCreative, .pendingReview, false⟩], [], []⟩ := rfl
  have happroved : (Transaction.moderateRevision 1 .approve).apply ⟨[⟨1, 5, "tea".toList, none,
      none⟩], [⟨1, 1, 1, sampleCreative, .pendingReview, false⟩], [], []⟩ =
        some ⟨[⟨1, 5, "tea".toList, none, some 1⟩],
          [⟨1, 1, 1, sampleCreative, .approved, true⟩], [], []⟩ := rfl
  have hchanged : (Transaction.createRevision 2 1 5 sampleCreative false).apply ⟨[⟨1, 5,
      "tea".toList, none, some 1⟩], [⟨1, 1, 1, sampleCreative, .approved, true⟩], [], []⟩ =
        some sampleTables := rfl
  exact ⟨_, (((Committed.start rfl rfl).commit hcreated).commit happroved).commit hchanged⟩

theorem clicks_approved_sample : ∃ past, Committed (sampleTables :: past) ∧
    WasApproved (sampleTables :: past) 1 := by
  obtain ⟨past, hcommitted⟩ := committed_sampleTables
  have hclick : click sampleTables 1 = some sampleCreative.destinationUrl := rfl
  exact ⟨past, hcommitted,
    (((clicks_approved hcommitted).2.2 _ (.head _) _).1 hclick).1.1⟩

end

end Ads

end PreCommunity
