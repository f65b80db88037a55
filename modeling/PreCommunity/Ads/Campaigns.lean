import PreCommunity.Ads.Selection

/-!
# Campaigns and their moderation

A campaign has an owner, a keyword and revisions of its creative, of which at most one is active.
Advertisers change campaigns, and moderators approve, reject, suspend and restore revisions.

* `Campaign`, `Revision`, `AdsDatabase` : the tables.
* `moderateRevision`, `resolveReports`, `updateCampaign`, … : the transactions.
* `isOff` : a revision that is suspended, or a campaign that is paused.
* `isOff_apply` : what is off stays off, unless it is restored or resumed.
-/

namespace PreCommunity

namespace Ads

open Market (Text Hash Address StakePosition)

open Store

/-- What a creative says. -/
structure Creative where
  headline : Text
  description : Text
  destinationUrl : Text
deriving DecidableEq, Repr

/-- A row of `AdCreativeRevision`. -/
structure Revision where
  id : ℕ
  campaignId : ℕ
  version : ℕ
  creative : Creative
  status : AdCreativeStatus
  /-- `moderatedAt` is set. -/
  moderated : Bool
deriving DecidableEq, Repr

/-- A row of `AdCampaign`, with the address of its user. -/
structure Campaign where
  id : ℕ
  address : Address
  canonicalKeyword : Text
  pausedAt : Option ℕ
  activeRevisionId : Option ℕ
deriving DecidableEq, Repr

/-- A row of `AdReport`. -/
structure Report where
  revisionId : ℕ
  isOpen : Bool
deriving DecidableEq, Repr

/-- The tables of the ads. -/
structure AdsDatabase where
  campaigns : List Campaign
  revisions : List Revision
  reports : List Report
  positions : List StakePosition

inductive AdModerationAction where
  | approve | reject | suspend | restore
deriving DecidableEq, Repr

inductive AdReportResolutionAction where
  | dismiss | suspendAd
deriving DecidableEq, Repr

/-- An update that must change exactly one row; otherwise the transaction fails. -/
def updateOne {α : Type} (p : α → Bool) (f : α → α) (rows : List α) : Option (List α) :=
  if rows.countP p = 1 then some (updateWhere p f rows) else none

/-- `canSuspendRevision`. -/
def canSuspendRevision (revision : Revision) : Bool :=
  decide (revision.status = .approved) ||
    (decide (revision.status = .superseded) && revision.moderated)

/-- Give the revision of a state another state, and note the moderation. -/
def moderateFrom (id : ℕ) (before after : AdCreativeStatus) (revisions : List Revision) :
    Option (List Revision) :=
  updateOne (fun revision => decide (revision.id = id) && decide (revision.status = before))
    (fun revision => { revision with status := after, moderated := true }) revisions

/-- Point a campaign from one active revision to another. -/
def activate (campaignId : ℕ) (before after : Option ℕ) (campaigns : List Campaign) :
    Option (List Campaign) :=
  updateOne (fun campaign => decide (campaign.id = campaignId) &&
      decide (campaign.activeRevisionId = before))
    (fun campaign => { campaign with activeRevisionId := after }) campaigns

/-- The approved active revision of a campaign, if there is one, is superseded. -/
def supersedeActive (activeRevisionId : Option ℕ) (revisions : List Revision) :
    Option (List Revision) :=
  match activeRevisionId with
  | none => some revisions
  | some active =>
    updateOne (fun revision =>
      decide (revision.id = active) && decide (revision.status = .approved))
      (fun revision => { revision with status := .superseded }) revisions

/-- The campaign has no active revision any more, if it was this one. -/
def deactivate (campaign : Campaign) (revisionId : ℕ) (campaigns : List Campaign) :
    Option (List Campaign) :=
  if campaign.activeRevisionId = some revisionId then
    activate campaign.id (some revisionId) none campaigns
  else some campaigns

/-- The revision is suspended, and taken from its campaign. -/
def suspendRevision (db : AdsDatabase) (revision : Revision) (campaign : Campaign) :
    Option AdsDatabase := do
  let revisions ← updateOne (fun row => decide (row.id = revision.id) &&
      decide (row.status = revision.status) &&
      (decide (revision.status ≠ .superseded) || row.moderated))
    (fun row => { row with status := .suspended, moderated := true }) db.revisions
  let campaigns ← deactivate campaign revision.id db.campaigns
  return { db with revisions, campaigns }

/-- `moderateRevision`; `none` when it fails. -/
def moderateRevision (db : AdsDatabase) (revisionId : ℕ) (action : AdModerationAction) :
    Option AdsDatabase := do
  let revision ← db.revisions.find? fun row => decide (row.id = revisionId)
  let campaign ← db.campaigns.find? fun row => decide (row.id = revision.campaignId)
  match action with
  | .approve =>
    let superseded ← supersedeActive campaign.activeRevisionId db.revisions
    let revisions ← moderateFrom revisionId .pendingReview .approved superseded
    let campaigns ← activate campaign.id campaign.activeRevisionId (some revisionId) db.campaigns
    return { db with revisions, campaigns }
  | .reject =>
    let revisions ← moderateFrom revisionId .pendingReview .rejected db.revisions
    return { db with revisions }
  | .suspend =>
    if canSuspendRevision revision then suspendRevision db revision campaign else none
  | .restore =>
    if campaign.activeRevisionId.isSome then none
    else
      let revisions ← moderateFrom revisionId .suspended .approved db.revisions
      let campaigns ← activate campaign.id none (some revisionId) db.campaigns
      return { db with revisions, campaigns }

/-- What `resolveReports` does to the ad; one that cannot be suspended is only taken from its
campaign. -/
def actOnReports (db : AdsDatabase) (revision : Revision) (campaign : Campaign) :
    AdReportResolutionAction → Option AdsDatabase
  | .dismiss => some db
  | .suspendAd =>
    if canSuspendRevision revision then suspendRevision db revision campaign
    else (deactivate campaign revision.id db.campaigns).map fun campaigns => { db with campaigns }

/-- `resolveReports`. -/
def resolveReports (db : AdsDatabase) (revisionId : ℕ) (action : AdReportResolutionAction) :
    Option AdsDatabase := do
  let revision ← db.revisions.find? fun row => decide (row.id = revisionId)
  let campaign ← db.campaigns.find? fun row => decide (row.id = revision.campaignId)
  let db' ← actOnReports db revision campaign action
  if db'.reports.any fun report => decide (report.revisionId = revisionId) && report.isOpen then
    some { db' with
      reports := updateWhere
        (fun report => decide (report.revisionId = revisionId) && report.isOpen)
        (fun report => { report with isOpen := false }) db'.reports }
  else none

/-- `updateCampaign`, by the owner. -/
def updateCampaign (db : AdsDatabase) (campaignId : ℕ) (address : Address)
    (pausedAt : Option ℕ) : Option AdsDatabase :=
  (updateOne (fun row => decide (row.id = campaignId) && decide (row.address = address))
    (fun row => { row with pausedAt }) db.campaigns).map fun campaigns => { db with campaigns }

/-- The revision that a submission creates. -/
def submitted (id campaignId version : ℕ) (creative : Creative) (requireReview : Bool) : Revision :=
  ⟨id, campaignId, version, creative, if requireReview then .pendingReview else .approved,
    !requireReview⟩

/-- `createCampaign`, with the ids that the database generates. -/
def createCampaign (db : AdsDatabase) (id revisionId : ℕ) (address : Address)
    (canonicalKeyword : Text) (creative : Creative) (requireReview : Bool) : Option AdsDatabase :=
  if db.campaigns.any (fun row => decide (row.id = id) ||
      (decide (row.address = address) && decide (row.canonicalKeyword = canonicalKeyword))) ||
      db.revisions.any (fun row => decide (row.id = revisionId)) then none
  else some { db with
    campaigns := db.campaigns ++
      [⟨id, address, canonicalKeyword, none, if requireReview then none else some revisionId⟩]
    revisions := db.revisions ++ [submitted revisionId id 1 creative requireReview] }

/-- Without a review, the active revision is superseded. -/
def supersedeFor (requireReview : Bool) (activeRevisionId : Option ℕ) (revisions : List Revision) :
    Option (List Revision) :=
  if requireReview then some revisions else supersedeActive activeRevisionId revisions

/-- Without a review, the new revision is activated. -/
def activateFor (requireReview : Bool) (campaign : Campaign) (revisionId : ℕ)
    (campaigns : List Campaign) : Option (List Campaign) :=
  if requireReview then some campaigns
  else activate campaign.id campaign.activeRevisionId (some revisionId) campaigns

/-- `createRevision`, with the id that the database generates. -/
def createRevision (db : AdsDatabase) (revisionId campaignId : ℕ) (address : Address)
    (creative : Creative) (requireReview : Bool) : Option AdsDatabase := do
  let campaign ← db.campaigns.find? fun row =>
    decide (row.id = campaignId) && decide (row.address = address)
  let superseded ← supersedeFor requireReview campaign.activeRevisionId db.revisions
  let revisions := updateWhere (fun row => decide (row.campaignId = campaignId) &&
      decide (row.status = .pendingReview))
    (fun row => { row with status := .superseded }) superseded
  let version := ((db.revisions.filter fun row => decide (row.campaignId = campaignId)).map
    (·.version)).foldl max 0 + 1
  let campaigns ← activateFor requireReview campaign revisionId db.campaigns
  if revisions.any fun row => decide (row.id = revisionId) then none
  else some { db with
    campaigns
    revisions := revisions ++ [submitted revisionId campaignId version creative requireReview] }

/-- A transaction of the service. -/
inductive Transaction where
  | moderateRevision (revisionId : ℕ) (action : AdModerationAction)
  | resolveReports (revisionId : ℕ) (action : AdReportResolutionAction)
  | updateCampaign (campaignId : ℕ) (address : Address) (pausedAt : Option ℕ)
  | createCampaign (id revisionId : ℕ) (address : Address) (canonicalKeyword : Text)
      (creative : Creative) (requireReview : Bool)
  | createRevision (revisionId campaignId : ℕ) (address : Address) (creative : Creative)
      (requireReview : Bool)
deriving DecidableEq, Repr

/-- The tables after the transaction; `none` when it fails. -/
def Transaction.apply (db : AdsDatabase) : Transaction → Option AdsDatabase
  | .moderateRevision revisionId action => Ads.moderateRevision db revisionId action
  | .resolveReports revisionId action => Ads.resolveReports db revisionId action
  | .updateCampaign campaignId address pausedAt => Ads.updateCampaign db campaignId address pausedAt
  | .createCampaign id revisionId address canonicalKeyword creative requireReview =>
    Ads.createCampaign db id revisionId address canonicalKeyword creative requireReview
  | .createRevision revisionId campaignId address creative requireReview =>
    Ads.createRevision db revisionId campaignId address creative requireReview

/-! ### What is switched off -/

/-- What a moderator suspends or an advertiser pauses. -/
inductive Target where
  | revision (id : ℕ)
  | campaign (id : ℕ)
deriving DecidableEq, Repr

/-- What the transaction switches off. -/
def Transaction.switchesOff : Transaction → Option Target
  | .moderateRevision revisionId .suspend => some (.revision revisionId)
  | .resolveReports revisionId .suspendAd => some (.revision revisionId)
  | .updateCampaign campaignId _ (some _) => some (.campaign campaignId)
  | _ => none

/-- What the transaction switches on again. -/
def Transaction.switchesOn : Transaction → Option Target
  | .moderateRevision revisionId .restore => some (.revision revisionId)
  | .updateCampaign campaignId _ none => some (.campaign campaignId)
  | _ => none

section

variable {α : Type} {id : α → ℕ} {off p : α → Bool} {f : α → α} {k : ℕ} {rows : List α}

/-- There is a row with the id, and every row with it is off. -/
def allOff (id : α → ℕ) (off : α → Bool) (k : ℕ) (rows : List α) : Bool :=
  (rows.any fun x => decide (id x = k)) && rows.all fun x => decide (id x ≠ k) || off x

theorem allOff_iff : allOff id off k rows = true ↔
    (∃ x ∈ rows, id x = k) ∧ ∀ x ∈ rows, id x = k → off x = true := by
  simp only [allOff, Bool.and_eq_true, List.any_eq_true, List.all_eq_true, Bool.or_eq_true,
    decide_eq_true_eq]
  exact and_congr_right fun _ => forall₂_congr fun x _ => by tauto

theorem allOff_updateWhere (hid : ∀ x, id (f x) = id x)
    (hoff : ∀ x, id x = k → p x = true → off x = true → off (f x) = true)
    (h : allOff id off k rows = true) : allOff id off k (updateWhere p f rows) = true := by
  rw [allOff_iff] at *
  obtain ⟨⟨x, hx, hxk⟩, hall⟩ := h
  have hmap : (if p x then f x else x) ∈ updateWhere p f rows := mem_updateWhere.2 ⟨x, hx, rfl⟩
  refine ⟨⟨_, hmap, ?_⟩, fun y hy hyk => ?_⟩
  · split_ifs
    · exact (hid x).trans hxk
    · exact hxk
  · obtain ⟨hold, -⟩ | ⟨z, hz, hpz, rfl⟩ := mem_updateWhere_cases hy
    · exact hall y hold hyk
    · rw [hid] at hyk
      exact hoff z hyk hpz (hall z hz hyk)

theorem allOff_updateOne {rows' : List α} (hupdate : updateOne p f rows = some rows')
    (hid : ∀ x, id (f x) = id x)
    (hoff : ∀ x, id x = k → p x = true → off x = true → off (f x) = true)
    (h : allOff id off k rows = true) :
    allOff id off k rows' = true := by
  rw [updateOne] at hupdate
  split_ifs at hupdate
  rw [← Option.some.inj hupdate]
  exact allOff_updateWhere hid hoff h

theorem allOff_append {x : α} (hnew : ∀ y ∈ rows, id y ≠ id x)
    (h : allOff id off k rows = true) : allOff id off k (rows ++ [x]) = true := by
  rw [allOff_iff] at *
  obtain ⟨⟨y, hy, rfl⟩, hall⟩ := h
  refine ⟨⟨y, List.mem_append_left _ hy, rfl⟩, fun z hz hzk => ?_⟩
  rcases List.mem_append.1 hz with hz | hz
  · exact hall z hz hzk
  · rw [List.mem_singleton.1 hz] at hzk
    exact absurd hzk.symm (hnew y hy)

end

/-- The revision is suspended. -/
def suspended (revision : Revision) : Bool := decide (revision.status = .suspended)

/-- The campaign is paused. -/
def paused (campaign : Campaign) : Bool := campaign.pausedAt.isSome

/-- The revision is suspended, or the campaign is paused. -/
def isOff (db : AdsDatabase) : Target → Bool
  | .revision id => allOff Revision.id suspended id db.revisions
  | .campaign id => allOff Campaign.id paused id db.campaigns

/-! ### What stays off -/

section

variable {k : ℕ} {revisions revisions' : List Revision} {campaigns campaigns' : List Campaign}

theorem allOff_moderateFrom {id : ℕ} {before after : AdCreativeStatus}
    (hne : before ≠ .suspended ∨ id ≠ k)
    (hupdate : moderateFrom id before after revisions = some revisions')
    (h : allOff Revision.id suspended k revisions = true) :
    allOff Revision.id suspended k revisions' = true := by
  rw [moderateFrom] at hupdate
  refine allOff_updateOne hupdate (fun _ => rfl) (fun x hx hp hoff => ?_) h
  simp only [Bool.and_eq_true, decide_eq_true_eq] at hp
  obtain hne | hne := hne
  · exact absurd (hp.2.symm.trans (of_decide_eq_true hoff)) hne
  · exact absurd (hp.1.symm.trans hx) hne

theorem allOff_supersedeActive {active : Option ℕ}
    (hupdate : supersedeActive active revisions = some revisions')
    (h : allOff Revision.id suspended k revisions = true) :
    allOff Revision.id suspended k revisions' = true := by
  cases active with
  | none => exact Option.some.inj hupdate ▸ h
  | some active =>
    rw [supersedeActive] at hupdate
    refine allOff_updateOne hupdate (fun _ => rfl) (fun x hx hp hoff => ?_) h
    simp only [Bool.and_eq_true, decide_eq_true_eq] at hp
    exact absurd (hp.2.symm.trans (of_decide_eq_true hoff)) (by decide)

theorem allOff_activate {id : ℕ} {before after : Option ℕ}
    (hupdate : activate id before after campaigns = some campaigns')
    (h : allOff Campaign.id paused k campaigns = true) :
    allOff Campaign.id paused k campaigns' = true := by
  rw [activate] at hupdate
  exact allOff_updateOne hupdate (fun _ => rfl) (fun _ _ _ hoff => hoff) h

theorem allOff_deactivate {campaign : Campaign} {id : ℕ}
    (hupdate : deactivate campaign id campaigns = some campaigns')
    (h : allOff Campaign.id paused k campaigns = true) :
    allOff Campaign.id paused k campaigns' = true := by
  rw [deactivate] at hupdate
  split_ifs at hupdate
  · exact allOff_activate hupdate h
  · exact Option.some.inj hupdate ▸ h

end

section

variable {db db' : AdsDatabase} {target : Target}

theorem isOff_of {db db' : AdsDatabase}
    (hrevisions : ∀ k, allOff Revision.id suspended k db.revisions = true →
      allOff Revision.id suspended k db'.revisions = true)
    (hcampaigns : ∀ k, allOff Campaign.id paused k db.campaigns = true →
      allOff Campaign.id paused k db'.campaigns = true) (h : isOff db target = true) :
    isOff db' target = true := by
  cases target with
  | revision id => exact hrevisions id h
  | campaign id => exact hcampaigns id h

theorem isOff_suspendRevision {revision : Revision} {campaign : Campaign}
    (h : suspendRevision db revision campaign = some db') (hoff : isOff db target = true) :
    isOff db' target = true := by
  simp only [suspendRevision, Option.bind_eq_bind, Option.bind_eq_some_iff] at h
  obtain ⟨revisions, hrevisions, campaigns, hcampaigns, hdb⟩ := h
  obtain rfl := Option.some.inj hdb
  refine isOff_of (fun k h => ?_) (fun k h => ?_) hoff
  · exact allOff_updateOne hrevisions (fun _ => rfl) (fun _ _ _ _ => rfl) h
  · exact allOff_deactivate hcampaigns h

theorem isOff_moderateRevision {revisionId : ℕ} {action : AdModerationAction}
    (h : moderateRevision db revisionId action = some db')
    (hne : action = .restore → target ≠ .revision revisionId) (hoff : isOff db target = true) :
    isOff db' target = true := by
  simp only [moderateRevision, Option.bind_eq_bind, Option.bind_eq_some_iff] at h
  obtain ⟨revision, -, campaign, -, h⟩ := h
  cases action with
  | approve =>
    simp only [Option.bind_eq_some_iff] at h
    obtain ⟨superseded, hsuperseded, revisions, hrevisions, campaigns, hcampaigns, hdb⟩ := h
    obtain rfl := Option.some.inj hdb
    refine isOff_of (fun k h => ?_) (fun k h => allOff_activate hcampaigns h) hoff
    exact allOff_moderateFrom (.inl (by decide)) hrevisions (allOff_supersedeActive hsuperseded h)
  | reject =>
    simp only [Option.bind_eq_some_iff] at h
    obtain ⟨revisions, hrevisions, hdb⟩ := h
    obtain rfl := Option.some.inj hdb
    exact isOff_of (fun k h => allOff_moderateFrom (.inl (by decide)) hrevisions h)
      (fun _ h => h) hoff
  | suspend =>
    simp only at h
    split_ifs at h
    exact isOff_suspendRevision h hoff
  | restore =>
    simp only at h
    split_ifs at h
    simp only [Option.bind_eq_some_iff] at h
    obtain ⟨revisions, hrevisions, campaigns, hcampaigns, hdb⟩ := h
    obtain rfl := Option.some.inj hdb
    cases target with
    | revision id =>
      have hid : revisionId ≠ id := fun heq => hne rfl (heq ▸ rfl)
      exact allOff_moderateFrom (.inr hid) hrevisions hoff
    | campaign id => exact allOff_activate hcampaigns hoff

theorem isOff_resolveReports {revisionId : ℕ} {action : AdReportResolutionAction}
    (h : resolveReports db revisionId action = some db') (hoff : isOff db target = true) :
    isOff db' target = true := by
  simp only [resolveReports, Option.bind_eq_bind, Option.bind_eq_some_iff] at h
  obtain ⟨revision, -, campaign, -, middle, hmiddle, h⟩ := h
  have hkeep : isOff middle target = true := by
    cases action with
    | dismiss => exact Option.some.inj hmiddle ▸ hoff
    | suspendAd =>
      rw [actOnReports] at hmiddle
      split_ifs at hmiddle
      · exact isOff_suspendRevision hmiddle hoff
      · obtain ⟨campaigns, hcampaigns, rfl⟩ := Option.map_eq_some_iff.1 hmiddle
        refine isOff_of (fun k h => ?_) (fun k h => ?_) hoff
        · exact h
        · exact allOff_deactivate hcampaigns h
  split_ifs at h
  obtain rfl := Option.some.inj h
  exact isOff_of (fun _ h => h) (fun _ h => h) hkeep

theorem isOff_updateCampaign {campaignId : ℕ} {address : Address} {pausedAt : Option ℕ}
    (h : updateCampaign db campaignId address pausedAt = some db')
    (hne : pausedAt = none → target ≠ .campaign campaignId) (hoff : isOff db target = true) :
    isOff db' target = true := by
  obtain ⟨campaigns, hcampaigns, rfl⟩ := Option.map_eq_some_iff.1 h
  cases target with
  | revision id => exact hoff
  | campaign id =>
    refine allOff_updateOne hcampaigns (fun _ => rfl) (fun x hx hp _ => ?_) hoff
    cases pausedAt with
    | some time => rfl
    | none =>
      simp only [Bool.and_eq_true, decide_eq_true_eq] at hp
      exact absurd (hx.symm.trans hp.1 ▸ rfl) (hne rfl)

theorem isOff_createCampaign {id revisionId : ℕ} {address : Address} {canonicalKeyword : Text}
    {creative : Creative} {requireReview : Bool}
    (h : createCampaign db id revisionId address canonicalKeyword creative requireReview = some db')
    (hoff : isOff db target = true) : isOff db' target = true := by
  rw [createCampaign] at h
  split at h
  · cases h
  rename_i hnew
  obtain rfl := Option.some.inj h
  simp only [Bool.or_eq_true, List.any_eq_true, Bool.and_eq_true, decide_eq_true_eq, not_or,
    not_exists, not_and] at hnew
  refine isOff_of (fun k h => ?_) (fun k h => ?_) hoff
  · exact allOff_append (fun y hy heq => hnew.2 y hy heq) h
  · exact allOff_append (fun y hy heq => (hnew.1 y hy).1 heq) h

theorem isOff_createRevision {revisionId campaignId : ℕ} {address : Address} {creative : Creative}
    {requireReview : Bool}
    (h : createRevision db revisionId campaignId address creative requireReview = some db')
    (hoff : isOff db target = true) : isOff db' target = true := by
  simp only [createRevision, Option.bind_eq_bind, Option.bind_eq_some_iff] at h
  obtain ⟨campaign, -, superseded, hsuperseded, campaigns, hcampaigns, h⟩ := h
  split_ifs at h with hnew
  obtain rfl := Option.some.inj h
  simp only [List.any_eq_true, decide_eq_true_eq, not_exists, not_and] at hnew
  refine isOff_of (fun k h => allOff_append (fun y hy heq => hnew y hy heq) ?_) (fun k h => ?_)
    hoff
  · refine allOff_updateWhere (fun _ => rfl) (fun x hx hp hoff => ?_) ?_
    · simp only [Bool.and_eq_true, decide_eq_true_eq] at hp
      exact absurd (hp.2.symm.trans (of_decide_eq_true hoff)) (by decide)
    · rw [supersedeFor] at hsuperseded
      split_ifs at hsuperseded
      · exact Option.some.inj hsuperseded ▸ h
      · exact allOff_supersedeActive hsuperseded h
  · rw [activateFor] at hcampaigns
    split_ifs at hcampaigns
    · exact Option.some.inj hcampaigns ▸ h
    · exact allOff_activate hcampaigns h

/-- **What is off** stays off in every transaction that does not switch it on again. -/
theorem isOff_apply {transaction : Transaction} (h : transaction.apply db = some db')
    (hne : transaction.switchesOn ≠ some target) (hoff : isOff db target = true) :
    isOff db' target = true := by
  cases transaction with
  | moderateRevision revisionId action =>
    exact isOff_moderateRevision h (fun heq ht => hne (by rw [heq, ht]; rfl)) hoff
  | resolveReports revisionId action => exact isOff_resolveReports h hoff
  | updateCampaign campaignId address pausedAt =>
    exact isOff_updateCampaign h (fun heq ht => hne (by rw [heq, ht]; rfl)) hoff
  | createCampaign id revisionId address canonicalKeyword creative requireReview =>
    exact isOff_createCampaign h hoff
  | createRevision revisionId campaignId address creative requireReview =>
    exact isOff_createRevision h hoff

end

end Ads

end PreCommunity
