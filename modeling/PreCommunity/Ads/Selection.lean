import PreCommunity.Ads.Keywords
import PreCommunity.Ads.Ranking

/-!
# The selection of an ad

For the candidates of a query, the longest first, the selection looks for the best position of the
keyword whose staker has an approved ad.

* `selectEligibleAd` : the selection.
* `Qualifies` : a pair that may be shown.
* `Found`, `First` : what the selection finds under the id of a keyword.
* `selects_best_iff` : the selection finds the best pair exactly when what it finds first is for the
  keyword of its candidate, and not for another keyword with the same id.
* `hex_word_takes_ad` : a word that writes another one in hexadecimal has its id.
-/

namespace PreCommunity

namespace Ads

open Market (Text Hash Address StakePosition)

/-- The states of a creative. -/
inductive AdCreativeStatus where
  | pendingReview | approved | rejected | suspended | superseded
deriving DecidableEq, Repr

/-- What the selection uses of the active revision of a campaign. -/
structure ActiveRevision where
  id : ℕ
  headline : Text
  description : Text
  destinationUrl : Text
  status : AdCreativeStatus
deriving DecidableEq, Repr

/-- `EligibleCampaign`. -/
structure EligibleCampaign where
  id : ℕ
  canonicalKeyword : Text
  pausedAt : Option ℕ
  /-- `user.address`. -/
  address : Address
  activeRevision : Option ActiveRevision
deriving DecidableEq, Repr

/-- A candidate with its position and campaign. -/
structure Selected where
  candidate : AdsKeywordCandidate
  position : StakePosition
  campaign : EligibleCampaign

/-- The campaign is not paused and its active revision is approved. -/
def EligibleCampaign.live (campaign : EligibleCampaign) : Bool :=
  campaign.pausedAt.isNone &&
    (campaign.activeRevision.map (·.status)) == some AdCreativeStatus.approved

/-- The position may be charged. -/
def usable (position : StakePosition) : Bool :=
  position.active && position.eligible && decide (0 < position.stakeRaw)

/-- Positions, sorted by their rank. -/
def ranked (positions : List StakePosition) : List StakePosition :=
  positions.insertionSort fun left right => compareAdStakePositions left right ≠ .gt

/-- The usable positions of a keyword, sorted. -/
def group (positions : List StakePosition) (keywordId : Hash) : List StakePosition :=
  ranked ((positions.filter usable).filter fun position => decide (position.keywordId = keywordId))

/-- The entries of `campaignByPosition`: a campaign under its keyword's id and its owner. -/
def campaignEntries (U : Unicode) :
    List EligibleCampaign →
      Except AdsTextValidationError (List ((Hash × Address) × EligibleCampaign))
  | [] => .ok []
  | campaign :: campaigns => do
    let keywordId ← adKeywordId U campaign.canonicalKeyword
    let entries ← campaignEntries U campaigns
    return ((keywordId, campaign.address), campaign) :: entries

/-- `campaignByPosition.get`: the last campaign that was put under the key. -/
def campaignAt (entries : List ((Hash × Address) × EligibleCampaign)) (key : Hash × Address) :
    Option EligibleCampaign :=
  (entries.reverse.find? fun entry => decide (entry.1 = key)).map (·.2)

/-- The inner loop: the first position of a keyword whose staker has a campaign. -/
def firstPosition (entries : List ((Hash × Address) × EligibleCampaign))
    (positions : List StakePosition) (candidate : AdsKeywordCandidate) (keywordId : Hash) :
    Option Selected :=
  (group positions keywordId).findSome? fun position =>
    ((campaignAt entries (keywordId, position.stakerAddress)).filter (·.activeRevision.isSome)).map
      fun campaign => ⟨candidate, position, campaign⟩

/-- The outer loop. -/
def firstCandidate (U : Unicode) (entries : List ((Hash × Address) × EligibleCampaign))
    (positions : List StakePosition) :
    List AdsKeywordCandidate → Except AdsTextValidationError (Option Selected)
  | [] => .ok none
  | candidate :: candidates => do
    let keywordId ← adKeywordId U candidate.keyword
    match firstPosition entries positions candidate keywordId with
    | some selected => return some selected
    | none => firstCandidate U entries positions candidates

/-- `selectEligibleAd`. -/
def selectEligibleAd (U : Unicode) (candidates : List AdsKeywordCandidate)
    (positions : List StakePosition) (campaigns : List EligibleCampaign) :
    Except AdsTextValidationError (Option Selected) := do
  let entries ← campaignEntries U (campaigns.filter (·.live))
  firstCandidate U entries positions candidates

/-- The pair may be shown for the candidate: an active, eligible position with a stake, whose
staker has a campaign for the keyword that is not paused and whose active revision is approved. -/
structure Qualifies (U : Unicode) (positions : List StakePosition)
    (campaigns : List EligibleCampaign) (candidate : AdsKeywordCandidate)
    (position : StakePosition) (campaign : EligibleCampaign) : Prop where
  position_mem : position ∈ positions
  active : position.active = true
  eligible : position.eligible = true
  staked : 0 < position.stakeRaw
  keywordId : adKeywordId U candidate.keyword = .ok position.keywordId
  campaign_mem : campaign ∈ campaigns
  owner : campaign.address = position.stakerAddress
  keyword : campaign.canonicalKeyword = candidate.keyword
  unpaused : campaign.pausedAt = none
  approved : ∃ revision, campaign.activeRevision = some revision ∧ revision.status = .approved

/-! ### The order of a group -/

theorem decides_compare {p q : StakePosition} (hne : p.stakerAddress ≠ q.stakerAddress) :
    Sorting.Decides (fun left right => compareAdStakePositions left right ≠ .gt) Outranks p q := by
  refine ⟨fun h => ?_, fun h => compare_swap.1 (not_not.1 h)⟩
  obtain hless | hmore := outranks_total hne
  · exact hless
  · exact absurd (compare_swap.2 hmore) h

/-- **Ranked positions** of different stakers are strictly ordered. -/
theorem ranked_strict {positions : List StakePosition}
    (h : positions.Pairwise fun p q => p.stakerAddress ≠ q.stakerAddress) :
    (ranked positions).Pairwise Outranks := by
  have htrans : ∀ p q r, Outranks p q → Outranks q r → Outranks p r := fun _ _ _ => Outranks.trans
  exact Sorting.insertionSort_strict htrans (h.imp decides_compare)

theorem mem_ranked {positions : List StakePosition} {p : StakePosition} :
    p ∈ ranked positions ↔ p ∈ positions :=
  List.mem_insertionSort _

/-- No staker has two positions of one keyword. -/
def DistinctPositions (positions : List StakePosition) : Prop :=
  positions.Pairwise fun p q => p.keywordId = q.keywordId → p.stakerAddress ≠ q.stakerAddress

theorem DistinctPositions.ofKeyword {positions : List StakePosition}
    (h : DistinctPositions positions) (keywordId : Hash) :
    ((positions.filter usable).filter fun p => decide (p.keywordId = keywordId)).Pairwise
      fun p q => p.stakerAddress ≠ q.stakerAddress := by
  refine ((h.sublist List.filter_sublist).sublist List.filter_sublist).imp_of_mem
    fun hp hq hne => hne ?_
  exact (of_decide_eq_true (List.mem_filter.1 hp).2).trans
    (of_decide_eq_true (List.mem_filter.1 hq).2).symm

theorem mem_group {positions : List StakePosition} {keywordId : Hash} {p : StakePosition} :
    p ∈ group positions keywordId ↔
      p ∈ positions ∧ usable p = true ∧ p.keywordId = keywordId := by
  rw [group, mem_ranked, List.mem_filter, List.mem_filter, decide_eq_true_eq, and_assoc]

theorem usable_iff {p : StakePosition} :
    usable p = true ↔ p.active = true ∧ p.eligible = true ∧ 0 < p.stakeRaw := by
  rw [usable, Bool.and_eq_true, Bool.and_eq_true, decide_eq_true_eq, and_assoc]

/-! ### The campaigns of a key -/

theorem live_iff {g : EligibleCampaign} : g.live = true ↔ g.pausedAt = none ∧
    ∃ revision, g.activeRevision = some revision ∧ revision.status = .approved := by
  rw [EligibleCampaign.live, Bool.and_eq_true, Option.isNone_iff_eq_none, beq_iff_eq,
    Option.map_eq_some_iff]

/-- No owner has two campaigns for one keyword. -/
def DistinctCampaigns (campaigns : List EligibleCampaign) : Prop :=
  campaigns.Pairwise fun g h => g.canonicalKeyword = h.canonicalKeyword → g.address ≠ h.address

section

variable (U : Unicode)

/-- The id of a keyword in normal form. -/
def idOf (keyword : Text) : Hash := U.keccak256 (U.toBytes keyword)

/-- The entries of campaigns whose keywords are in normal form. -/
def entriesOf (campaigns : List EligibleCampaign) :
    List ((Hash × Address) × EligibleCampaign) :=
  campaigns.map fun g => ((idOf U g.canonicalKeyword, g.address), g)

theorem campaignEntries_eq {U : Unicode} {campaigns : List EligibleCampaign}
    (h : ∀ g ∈ campaigns, normalizeAdKeyword U g.canonicalKeyword = .ok g.canonicalKeyword) :
    campaignEntries U campaigns = .ok (entriesOf U campaigns) := by
  induction campaigns with
  | nil => rfl
  | cons g campaigns ih =>
    rw [campaignEntries, adKeywordId_of_normal (h g List.mem_cons_self),
      ih fun h' hh => h h' (List.mem_cons_of_mem g hh)]
    rfl

theorem firstCandidate_eq {U : Unicode} {entries : List ((Hash × Address) × EligibleCampaign)}
    {positions : List StakePosition} {candidates : List AdsKeywordCandidate}
    (h : ∀ c ∈ candidates, normalizeAdKeyword U c.keyword = .ok c.keyword) :
    firstCandidate U entries positions candidates = .ok (candidates.findSome? fun c =>
      firstPosition entries positions c (idOf U c.keyword)) := by
  induction candidates with
  | nil => rfl
  | cons c candidates ih =>
    rw [firstCandidate, adKeywordId_of_normal (h c List.mem_cons_self), List.findSome?_cons]
    rw [idOf]
    cases hfirst : firstPosition entries positions c (U.keccak256 (U.toBytes c.keyword)) with
    | none =>
      simp only [bind, Except.bind, hfirst]
      exact ih fun d hd => h d (List.mem_cons_of_mem c hd)
    | some selected =>
      simp only [bind, Except.bind, hfirst]
      rfl

end

/-! ### The selection, computed -/

section

variable (U : Unicode) (candidates : List AdsKeywordCandidate) (positions : List StakePosition)
  (campaigns : List EligibleCampaign)

/-- What is found under the id of a candidate: a usable position, and a live campaign of its staker
whose keyword has the same id. -/
structure Found (c : AdsKeywordCandidate) (p : StakePosition) (g : EligibleCampaign) : Prop where
  position_mem : p ∈ positions
  usable : usable p = true
  keywordId : p.keywordId = idOf U c.keyword
  campaign_mem : g ∈ campaigns
  live : g.live = true
  sameId : idOf U g.canonicalKeyword = idOf U c.keyword
  owner : g.address = p.stakerAddress

/-- What is found first: the earliest candidate for which anything is found, and the first position
of those that are found for it. -/
structure First (c : AdsKeywordCandidate) (p : StakePosition) : Prop where
  earliest : ∃ before after, candidates = before ++ c :: after ∧
    ∀ d ∈ before, ∀ q h, ¬Found U positions campaigns d q h
  found : ∃ g, Found U positions campaigns c p g
  first : ∀ q h, Found U positions campaigns c q h → q = p ∨ Outranks p q

/-- What is found first is found for the keyword of its candidate, not only under its id. -/
def FirstForKeyword : Prop :=
  ∀ c p, First U candidates positions campaigns c p →
    ∀ g, Found U positions campaigns c p g → g.canonicalKeyword = c.keyword

/-- The selection returns a pair if and only if one qualifies.  The pair is one of the earliest
candidate that has any, and its position is the first in the order.  The result does not depend on
the order of the positions and campaigns. -/
def SelectsBest : Prop :=
  ∃ result, selectEligibleAd U candidates positions campaigns = .ok result ∧
    (result.isSome = true ↔ ∃ c ∈ candidates, ∃ p g, Qualifies U positions campaigns c p g) ∧
    (∀ c p g, result = some ⟨c, p, g⟩ → Qualifies U positions campaigns c p g ∧
      (∃ before after, candidates = before ++ c :: after ∧
        ∀ d ∈ before, ∀ q h, ¬Qualifies U positions campaigns d q h) ∧
      ∀ q h, Qualifies U positions campaigns c q h → q = p ∨ Outranks p q) ∧
    ∀ positions' campaigns', positions'.Perm positions → campaigns'.Perm campaigns →
      selectEligibleAd U candidates positions' campaigns' = .ok result

end

section

variable {U : Unicode} {candidates : List AdsKeywordCandidate}
  {positions positions' : List StakePosition} {campaigns campaigns' : List EligibleCampaign}
  {c : AdsKeywordCandidate} {p : StakePosition} {g : EligibleCampaign}

/-- **A pair qualifies** when it is found for the keyword of the candidate. -/
theorem qualifies_iff (hkeyword : normalizeAdKeyword U c.keyword = .ok c.keyword) :
    Qualifies U positions campaigns c p g ↔
      Found U positions campaigns c p g ∧ g.canonicalKeyword = c.keyword := by
  have hid := adKeywordId_of_normal hkeyword
  constructor
  · intro h
    have hkeywordId := h.keywordId
    rw [hid] at hkeywordId
    exact ⟨⟨h.position_mem, usable_iff.2 ⟨h.active, h.eligible, h.staked⟩,
      (Except.ok.inj hkeywordId).symm, h.campaign_mem, live_iff.2 ⟨h.unpaused, h.approved⟩,
      by rw [h.keyword], h.owner⟩, h.keyword⟩
  · rintro ⟨h, hkeyword⟩
    obtain ⟨hactive, heligible, hstaked⟩ := usable_iff.1 h.usable
    obtain ⟨hunpaused, happroved⟩ := live_iff.1 h.live
    exact ⟨h.position_mem, hactive, heligible, hstaked, hid.trans (congrArg _ h.keywordId.symm),
      h.campaign_mem, h.owner, hkeyword, hunpaused, happroved⟩

theorem Found.of_perm (hpositions : positions'.Perm positions)
    (hcampaigns : campaigns'.Perm campaigns) :
    Found U positions' campaigns' c p g ↔ Found U positions campaigns c p g :=
  ⟨fun h => { h with
      position_mem := hpositions.mem_iff.1 h.position_mem
      campaign_mem := hcampaigns.mem_iff.1 h.campaign_mem },
    fun h => { h with
      position_mem := hpositions.mem_iff.2 h.position_mem
      campaign_mem := hcampaigns.mem_iff.2 h.campaign_mem }⟩

theorem First.of_perm (hpositions : positions'.Perm positions)
    (hcampaigns : campaigns'.Perm campaigns)
    (h : First U candidates positions' campaigns' c p) :
    First U candidates positions campaigns c p := by
  obtain ⟨⟨before, after, hsplit, hnone⟩, ⟨g, hg⟩, hfirst⟩ := h
  have hfound :
      ∀ {d q h}, Found U positions campaigns d q h → Found U positions' campaigns' d q h :=
    (Found.of_perm hpositions hcampaigns).2
  exact ⟨⟨before, after, hsplit, fun d hd q h hq => hnone d hd q h (hfound hq)⟩,
    ⟨g, (Found.of_perm hpositions hcampaigns).1 hg⟩, fun q h hq => hfirst q h (hfound hq)⟩

/-- **What is found first** is unique. -/
theorem First.unique {c' : AdsKeywordCandidate} {p' : StakePosition}
    (h : First U candidates positions campaigns c p)
    (h' : First U candidates positions campaigns c' p') : c = c' ∧ p = p' := by
  obtain ⟨before, after, hsplit, hnone⟩ := h.earliest
  obtain ⟨before', after', hsplit', hnone'⟩ := h'.earliest
  obtain ⟨g, hg⟩ := h.found
  obtain ⟨g', hg'⟩ := h'.found
  have hc : c = c' := by
    obtain ⟨rest, hbefore, hrest⟩ | ⟨rest, hbefore, hrest⟩ :=
      List.append_eq_append_iff.1 (hsplit.symm.trans hsplit')
    · cases rest with
      | nil => exact (List.cons.inj hrest).1
      | cons d rest =>
        obtain rfl := (List.cons.inj hrest).1
        exact absurd hg (hnone' c (by simp [hbefore]) p g)
    · cases rest with
      | nil => exact (List.cons.inj hrest).1.symm
      | cons d rest =>
        obtain rfl := (List.cons.inj hrest).1
        exact absurd hg' (hnone c' (by simp [hbefore]) p' g')
  subst hc
  obtain rfl | hless := h.first p' g' hg'
  · exact ⟨rfl, rfl⟩
  · obtain rfl | hmore := h'.first p g hg
    · exact ⟨rfl, rfl⟩
    · exact absurd hless hmore.asymm

/-! ### The campaign of a key -/

/-- What the map holds under a key is a live campaign of the owner whose keyword has the id. -/
theorem of_campaignAt {keywordId : Hash} {address : Address}
    (h : campaignAt (entriesOf U (campaigns.filter (·.live))) (keywordId, address) = some g) :
    g ∈ campaigns ∧ g.live = true ∧ idOf U g.canonicalKeyword = keywordId ∧
      g.address = address := by
  obtain ⟨entry, hentry, rfl⟩ := Option.map_eq_some_iff.1 h
  have hmem := List.mem_reverse.1 (List.mem_of_find?_eq_some hentry)
  obtain ⟨g, hg, rfl⟩ := List.mem_map.1 hmem
  obtain ⟨hin, hlive⟩ := List.mem_filter.1 hg
  have hkey := List.find?_some hentry
  simp only [decide_eq_true_eq, Prod.mk.injEq] at hkey
  exact ⟨hin, hlive, hkey.1, hkey.2⟩

theorem campaignAt_isSome (hg : g ∈ campaigns) (hlive : g.live = true) :
    (campaignAt (entriesOf U (campaigns.filter (·.live)))
      (idOf U g.canonicalKeyword, g.address)).isSome = true := by
  rw [campaignAt, Option.isSome_map, List.find?_isSome]
  exact ⟨_, List.mem_reverse.2 (List.mem_map_of_mem (List.mem_filter.2 ⟨hg, hlive⟩)),
    decide_eq_true rfl⟩

/-- The last campaign stays in the map. -/
theorem campaignAt_last (hlive : g.live = true) :
    campaignAt (entriesOf U ((campaigns ++ [g]).filter (·.live)))
      (idOf U g.canonicalKeyword, g.address) = some g := by
  have hlast : (campaigns ++ [g]).filter (·.live) = campaigns.filter (·.live) ++ [g] := by
    rw [List.filter_append, List.filter_cons_of_pos hlive, List.filter_nil]
  rw [campaignAt, entriesOf, hlast, List.map_append, List.map_singleton, List.reverse_append,
    List.reverse_singleton, List.singleton_append, List.find?_cons_of_pos]
  · rfl
  · simp

/-- What the inner loop tries at a position. -/
def offer (entries : List ((Hash × Address) × EligibleCampaign)) (c : AdsKeywordCandidate)
    (keywordId : Hash) (p : StakePosition) : Option Selected :=
  ((campaignAt entries (keywordId, p.stakerAddress)).filter (·.activeRevision.isSome)).map
    fun g => ⟨c, p, g⟩

/-- What the inner loop is offered at a position of the group was found. -/
theorem of_offer {s : Selected} (hp : p ∈ group positions (idOf U c.keyword))
    (h : offer (entriesOf U (campaigns.filter (·.live))) c (idOf U c.keyword) p = some s) :
    s.candidate = c ∧ s.position = p ∧ Found U positions campaigns c p s.campaign := by
  obtain ⟨hmem, husable, hkeyword⟩ := mem_group.1 hp
  obtain ⟨g, hg, rfl⟩ := Option.map_eq_some_iff.1 h
  obtain ⟨hin, hlive, hid, howner⟩ := of_campaignAt (Option.filter_eq_some_iff.1 hg).1
  exact ⟨rfl, rfl, hmem, husable, hkeyword, hin, hlive, hid, howner⟩

/-- At a position for which anything is found, something is offered. -/
theorem Found.offer_isSome (h : Found U positions campaigns c p g) :
    (offer (entriesOf U (campaigns.filter (·.live))) c (idOf U c.keyword) p).isSome = true := by
  obtain ⟨g', hg'⟩ := Option.isSome_iff_exists.1 (campaignAt_isSome (U := U) h.campaign_mem h.live)
  rw [h.sameId, h.owner] at hg'
  obtain ⟨-, revision, hrevision, -⟩ := live_iff.1 (of_campaignAt hg').2.1
  have hfilter : Option.filter (·.activeRevision.isSome) (some g') = some g' :=
    Option.filter_some_pos (by rw [hrevision]; rfl)
  rw [offer, hg', hfilter]
  rfl

/-- The selection, without its errors. -/
theorem selectEligibleAd_eq
    (hcandidates : ∀ c ∈ candidates, normalizeAdKeyword U c.keyword = .ok c.keyword)
    (hkeywords : ∀ g ∈ campaigns,
      normalizeAdKeyword U g.canonicalKeyword = .ok g.canonicalKeyword) :
    selectEligibleAd U candidates positions campaigns = .ok (candidates.findSome? fun c =>
      firstPosition (entriesOf U (campaigns.filter (·.live))) positions c (idOf U c.keyword)) := by
  rw [selectEligibleAd, campaignEntries_eq fun g hg => hkeywords g (List.mem_filter.1 hg).1]
  exact firstCandidate_eq hcandidates

end

/-! ### What is returned -/

section

variable {U : Unicode} {candidates : List AdsKeywordCandidate}
  {positions : List StakePosition} {campaigns : List EligibleCampaign} {c : AdsKeywordCandidate}

theorem firstPosition_none
    (h : firstPosition (entriesOf U (campaigns.filter (·.live))) positions c (idOf U c.keyword) =
      none) (p : StakePosition) (g : EligibleCampaign) : ¬Found U positions campaigns c p g := by
  intro hfound
  have hsome := hfound.offer_isSome
  have hnone := List.findSome?_eq_none_iff.1 h p
    (mem_group.2 ⟨hfound.position_mem, hfound.usable, hfound.keywordId⟩)
  rw [offer, hnone] at hsome
  cases hsome

/-- **What the inner loop takes** was found, and comes before all others that were. -/
theorem firstPosition_some (hpositions : DistinctPositions positions) {s : Selected}
    (h : firstPosition (entriesOf U (campaigns.filter (·.live))) positions c (idOf U c.keyword) =
      some s) :
    s.candidate = c ∧ Found U positions campaigns c s.position s.campaign ∧
      s.campaign ∈ campaignAt (entriesOf U (campaigns.filter (·.live)))
        (idOf U c.keyword, s.position.stakerAddress) ∧
      ∀ q g, Found U positions campaigns c q g → q = s.position ∨ Outranks s.position q := by
  obtain ⟨before, p, after, hgroup, hoffer, hnone⟩ := List.findSome?_eq_some_iff.1 h
  have hmem : p ∈ group positions (idOf U c.keyword) := by simp [hgroup]
  obtain ⟨hcandidate, rfl, hfound⟩ := of_offer hmem hoffer
  obtain ⟨g, hg, hs⟩ := Option.map_eq_some_iff.1 hoffer
  refine ⟨hcandidate, hfound, ?_, fun q g hq => ?_⟩
  · rw [← hs]
    exact (Option.filter_eq_some_iff.1 hg).1
  have hin : q ∈ group positions (idOf U c.keyword) :=
    mem_group.2 ⟨hq.position_mem, hq.usable, hq.keywordId⟩
  have hsorted := ranked_strict (hpositions.ofKeyword (idOf U c.keyword))
  change (group positions (idOf U c.keyword)).Pairwise Outranks at hsorted
  rw [hgroup] at hin hsorted
  rcases List.mem_append.1 hin with hbefore | hrest
  · have hsome := hq.offer_isSome
    rw [offer, hnone q hbefore] at hsome
    cases hsome
  · rcases List.mem_cons.1 hrest with rfl | hafter
    · exact .inl rfl
    · exact .inr ((List.pairwise_cons.1 (List.pairwise_append.1 hsorted).2.1).1 q hafter)

/-- **What is returned** is what is found first, with the last campaign of its key. -/
theorem selected_first
    (hcandidates : ∀ c ∈ candidates, normalizeAdKeyword U c.keyword = .ok c.keyword)
    (hkeywords : ∀ g ∈ campaigns,
      normalizeAdKeyword U g.canonicalKeyword = .ok g.canonicalKeyword)
    (hpositions : DistinctPositions positions) {s : Selected}
    (h : selectEligibleAd U candidates positions campaigns = .ok (some s)) :
    First U candidates positions campaigns s.candidate s.position ∧
      Found U positions campaigns s.candidate s.position s.campaign ∧
      s.campaign ∈ campaignAt (entriesOf U (campaigns.filter (·.live)))
        (idOf U s.candidate.keyword, s.position.stakerAddress) := by
  rw [selectEligibleAd_eq hcandidates hkeywords] at h
  obtain ⟨before, c, after, hsplit, hfirst, hnone⟩ :=
    List.findSome?_eq_some_iff.1 (Except.ok.inj h)
  obtain ⟨rfl, hfound, hlast, hbest⟩ := firstPosition_some hpositions hfirst
  exact ⟨⟨⟨before, after, hsplit, fun d hd q h => firstPosition_none (hnone d hd) q h⟩,
    ⟨_, hfound⟩, hbest⟩, hfound, hlast⟩

/-- **When anything is found**, something is returned. -/
theorem selected_none
    (hcandidates : ∀ c ∈ candidates, normalizeAdKeyword U c.keyword = .ok c.keyword)
    (hkeywords : ∀ g ∈ campaigns,
      normalizeAdKeyword U g.canonicalKeyword = .ok g.canonicalKeyword)
    (h : selectEligibleAd U candidates positions campaigns = .ok none) (hc : c ∈ candidates)
    (p : StakePosition) (g : EligibleCampaign) : ¬Found U positions campaigns c p g := by
  rw [selectEligibleAd_eq hcandidates hkeywords] at h
  exact firstPosition_none (List.findSome?_eq_none_iff.1 (Except.ok.inj h) c hc) p g

end

/-! ### The best pair -/

section

variable {U : Unicode} {candidates : List AdsKeywordCandidate}
  {positions positions' : List StakePosition} {campaigns campaigns' : List EligibleCampaign}

theorem DistinctPositions.of_perm (hperm : positions'.Perm positions)
    (h : DistinctPositions positions) : DistinctPositions positions' :=
  h.perm hperm.symm fun hpq hkey => (hpq hkey.symm).symm

/-- What is returned for other orders of the positions and campaigns is found first, too. -/
theorem selected_of_perm
    (hcandidates : ∀ c ∈ candidates, normalizeAdKeyword U c.keyword = .ok c.keyword)
    (hkeywords : ∀ g ∈ campaigns,
      normalizeAdKeyword U g.canonicalKeyword = .ok g.canonicalKeyword)
    (hpositions : DistinctPositions positions) (hperm : positions'.Perm positions)
    (hperm' : campaigns'.Perm campaigns) {c : AdsKeywordCandidate} {p : StakePosition}
    (hfirst : First U candidates positions campaigns c p) : ∃ g,
      selectEligibleAd U candidates positions' campaigns' = .ok (some ⟨c, p, g⟩) ∧
        Found U positions campaigns c p g ∧
        g ∈ campaignAt (entriesOf U (campaigns'.filter (·.live)))
          (idOf U c.keyword, p.stakerAddress) := by
  have hkeywords' : ∀ g ∈ campaigns',
      normalizeAdKeyword U g.canonicalKeyword = .ok g.canonicalKeyword := fun g hg =>
    hkeywords g (hperm'.mem_iff.1 hg)
  obtain ⟨before, after, hsplit, -⟩ := hfirst.earliest
  obtain ⟨g, hg⟩ := hfirst.found
  cases hresult : candidates.findSome? fun c =>
      firstPosition (entriesOf U (campaigns'.filter (·.live))) positions' c (idOf U c.keyword) with
  | none =>
    have hnone := (selectEligibleAd_eq hcandidates hkeywords').trans (congrArg Except.ok hresult)
    exact absurd ((Found.of_perm hperm hperm').2 hg)
      (selected_none hcandidates hkeywords' hnone (by simp [hsplit]) p g)
  | some s =>
    have hsome := (selectEligibleAd_eq hcandidates hkeywords').trans (congrArg Except.ok hresult)
    obtain ⟨hfirst', hfound, hlast⟩ :=
      selected_first hcandidates hkeywords' (hpositions.of_perm hperm) hsome
    obtain ⟨hc, hp⟩ := hfirst.unique (hfirst'.of_perm hperm hperm')
    obtain ⟨c', p', g'⟩ := s
    obtain rfl : c = c' := hc
    obtain rfl : p = p' := hp
    exact ⟨g', hsome, (Found.of_perm hperm hperm').1 hfound, hlast⟩

/-- When what is found first is found for its keyword, the selection is right. -/
theorem selectsBest_of_first
    (hcandidates : ∀ c ∈ candidates, normalizeAdKeyword U c.keyword = .ok c.keyword)
    (hkeywords : ∀ g ∈ campaigns,
      normalizeAdKeyword U g.canonicalKeyword = .ok g.canonicalKeyword)
    (hpositions : DistinctPositions positions) (hcampaigns : DistinctCampaigns campaigns)
    (h : FirstForKeyword U candidates positions campaigns) :
    SelectsBest U candidates positions campaigns := by
  have hqualifies : ∀ {c p g}, c ∈ candidates → (Qualifies U positions campaigns c p g ↔
      Found U positions campaigns c p g ∧ g.canonicalKeyword = c.keyword) := fun hc =>
    qualifies_iff (hcandidates _ hc)
  cases hresult : candidates.findSome? fun c =>
      firstPosition (entriesOf U (campaigns.filter (·.live))) positions c (idOf U c.keyword) with
  | none =>
    have hselect : selectEligibleAd U candidates positions campaigns = _ :=
      (selectEligibleAd_eq hcandidates hkeywords).trans (congrArg Except.ok hresult)
    have hnone := fun {c} hc => selected_none (c := c) hcandidates hkeywords hselect hc
    refine ⟨none, hselect, ⟨by rintro ⟨⟩, ?_⟩, by rintro c p g ⟨⟩,
      fun positions' campaigns' hperm hperm' => ?_⟩
    · rintro ⟨c, hc, p, g, hq⟩
      exact absurd ((hqualifies hc).1 hq).1 (hnone hc p g)
    · have hkeywords' : ∀ g ∈ campaigns',
          normalizeAdKeyword U g.canonicalKeyword = .ok g.canonicalKeyword := fun g hg =>
        hkeywords g (hperm'.mem_iff.1 hg)
      rw [selectEligibleAd_eq hcandidates hkeywords']
      refine congrArg _ (List.findSome?_eq_none_iff.2 fun c hc => ?_)
      by_contra hne
      obtain ⟨s, hs⟩ := Option.ne_none_iff_exists'.1 hne
      obtain ⟨-, hfound, -⟩ := firstPosition_some (hpositions.of_perm hperm) hs
      exact hnone hc _ _ ((Found.of_perm hperm hperm').1 hfound)
  | some s =>
    have hselect : selectEligibleAd U candidates positions campaigns = _ :=
      (selectEligibleAd_eq hcandidates hkeywords).trans (congrArg Except.ok hresult)
    obtain ⟨hfirst, hfound, -⟩ := selected_first hcandidates hkeywords hpositions hselect
    obtain ⟨before, after, hsplit, hnone⟩ := hfirst.earliest
    have hmem : ∀ d ∈ before ++ s.candidate :: after, d ∈ candidates := fun d hd => hsplit ▸ hd
    have hc := hmem s.candidate (by simp)
    have hkeyword := h _ _ hfirst _ hfound
    refine ⟨some s, hselect, ⟨fun _ => ⟨_, hc, _, _, (hqualifies hc).2 ⟨hfound, hkeyword⟩⟩,
      fun _ => rfl⟩, ?_, fun positions' campaigns' hperm hperm' => ?_⟩
    · rintro c p g hs
      obtain rfl := Option.some.inj hs
      exact ⟨(hqualifies hc).2 ⟨hfound, hkeyword⟩, ⟨before, after, hsplit, fun d hd q h hq =>
        hnone d hd q h ((hqualifies (hmem d (List.mem_append_left _ hd))).1 hq).1⟩,
        fun q h hq => hfirst.first q h ((hqualifies hc).1 hq).1⟩
    · obtain ⟨g, hg, hfound', -⟩ :=
        selected_of_perm hcandidates hkeywords hpositions hperm hperm' hfirst
      have hsame : g = s.campaign := (Store.Keyed.of_pairwise hcampaigns).eq hfound'.campaign_mem
        hfound.campaign_mem (Prod.ext ((h _ _ hfirst g hfound').trans hkeyword.symm)
          (hfound'.owner.trans hfound.owner.symm))
      rw [hg, hsame]

/-- When the selection is right in every order, what is found first is found for its keyword: any
campaign that is found may be the last one. -/
theorem SelectsBest.first
    (hcandidates : ∀ c ∈ candidates, normalizeAdKeyword U c.keyword = .ok c.keyword)
    (hkeywords : ∀ g ∈ campaigns,
      normalizeAdKeyword U g.canonicalKeyword = .ok g.canonicalKeyword)
    (hpositions : DistinctPositions positions) (h : SelectsBest U candidates positions campaigns) :
    FirstForKeyword U candidates positions campaigns := by
  intro c p hfirst g hg
  obtain ⟨result, -, -, hbest, hperm⟩ := h
  have hlast : (campaigns.erase g ++ [g]).Perm campaigns :=
    (List.perm_append_singleton _ _).trans (List.perm_cons_erase hg.campaign_mem).symm
  obtain ⟨g', hselect, hfound', hg'⟩ :=
    selected_of_perm hcandidates hkeywords hpositions (.refl _) hlast hfirst
  have hsame : g = g' := by
    have hkey : campaignAt (entriesOf U ((campaigns.erase g ++ [g]).filter (·.live))) _ = _ :=
      campaignAt_last hg.live
    rw [hg.sameId, hg.owner] at hkey
    exact Option.some.inj (hkey.symm.trans hg')
  have hresult := (hperm positions _ (.refl _) hlast).symm.trans hselect
  obtain ⟨hqualifies, -⟩ := hbest c p g' (Except.ok.inj hresult)
  exact hsame ▸ hqualifies.keyword

/-- **The selection** compares positions of different stakers by a strict total order.  It returns
the best pair, in any order of the positions and campaigns, exactly when what is found first under
the id of a candidate is found for its keyword. -/
theorem selects_best_iff (U : Unicode) (candidates : List AdsKeywordCandidate)
    (positions : List StakePosition) (campaigns : List EligibleCampaign)
    (hcandidates : ∀ c ∈ candidates, normalizeAdKeyword U c.keyword = .ok c.keyword)
    (hkeywords : ∀ g ∈ campaigns,
      normalizeAdKeyword U g.canonicalKeyword = .ok g.canonicalKeyword)
    (hpositions : DistinctPositions positions) (hcampaigns : DistinctCampaigns campaigns) :
    ((∀ p, ¬Outranks p p) ∧ (∀ p q r, Outranks p q → Outranks q r → Outranks p r) ∧
      (∀ p q, compareAdStakePositions p q = .gt ↔ Outranks q p) ∧
      (∀ p q, p.stakerAddress ≠ q.stakerAddress → Outranks p q ∨ Outranks q p) ∧
      ∀ p q, p.eligible = q.eligible → (Outranks p q ↔ Beats p q)) ∧
    (SelectsBest U candidates positions campaigns ↔
      FirstForKeyword U candidates positions campaigns) := by
  refine ⟨⟨fun _ => Outranks.irrefl, fun _ _ _ => Outranks.trans, fun _ _ => compare_swap,
    fun _ _ => outranks_total, fun p q h => ?_⟩,
    fun h => h.first hcandidates hkeywords hpositions,
    selectsBest_of_first hcandidates hkeywords hpositions hcampaigns⟩
  rw [outranks_iff]
  refine ⟨fun hless => ?_, fun hbeats => .inr ⟨h, hbeats⟩⟩
  obtain ⟨hp, hq⟩ | ⟨-, hbeats⟩ := hless
  · rw [hp, hq] at h
    cases h
  · exact hbeats

end

/-! ### Samples -/

section

/-- A position that locks `stakeRaw` for the word `tea`. -/
def sampleStake (stakerAddress bidUsdRaw stakeSinceBlock : ℕ) : StakePosition where
  identity := ⟨1, 9⟩
  keywordId := idOf plain "tea".toList
  stakerAddress := stakerAddress
  stakeRaw := 1
  bidUsdRaw := bidUsdRaw
  requiredCoveragePreRaw := 1
  eligible := true
  withdrawAvailableAt := 0
  positionVersion := 1
  stakeSinceBlock := stakeSinceBlock
  stakeSinceLogIndex := 0
  amountSinceBlock := 0
  amountSinceLogIndex := 0
  positionBlock := 0
  positionBlockHash := 0
  positionTxHash := 0
  positionLogIndex := 0
  active := true

/-- A campaign for the word `tea` with an approved creative. -/
def sampleCampaign (address : Address) : EligibleCampaign where
  id := address
  canonicalKeyword := "tea".toList
  pausedAt := none
  address := address
  activeRevision := some ⟨address, [], [], [], .approved⟩

/-- Two stakers bid the same for one word, and have campaigns for it. -/
theorem selects_best_tie :
    SelectsBest plain [candidateAt ["tea".toList] 0 1] [sampleStake 1 5 7, sampleStake 2 5 6]
      [sampleCampaign 1, sampleCampaign 2] := by
  refine (selects_best_iff plain [candidateAt ["tea".toList] 0 1]
    [sampleStake 1 5 7, sampleStake 2 5 6] [sampleCampaign 1, sampleCampaign 2]
    (by decide) (by decide) (by unfold DistinctPositions; decide)
    (by unfold DistinctCampaigns; decide)).2.2 fun c p hfirst g hg => ?_
  obtain ⟨before, after, hsplit, -⟩ := hfirst.earliest
  have hc : c ∈ [candidateAt ["tea".toList] 0 1] := hsplit ▸ by simp
  have hg := hg.campaign_mem
  rw [List.mem_singleton.1 hc]
  simp only [List.mem_cons, List.not_mem_nil, or_false] at hg
  obtain rfl | rfl := hg <;> rfl

/-- The words of the query `bitcoin 0x626974636f696e`, the longer one first. -/
def hexCandidates : List AdsKeywordCandidate :=
  [candidateAt ["0x626974636f696e".toList] 0 1, candidateAt ["bitcoin".toList] 0 1]

/-- A position for the word `bitcoin`. -/
def bitcoinStake : StakePosition :=
  { sampleStake 1 5 7 with keywordId := idOf plain "bitcoin".toList }

/-- A campaign for the word `bitcoin`. -/
def bitcoinCampaign : EligibleCampaign :=
  { sampleCampaign 1 with canonicalKeyword := "bitcoin".toList }

/-- A word that writes the bytes of another one in hexadecimal has its id, and takes its ad. -/
theorem hex_word_takes_ad : ¬∀ (U : Unicode) (candidates : List AdsKeywordCandidate)
    (positions : List StakePosition) (campaigns : List EligibleCampaign),
    (∀ c ∈ candidates, normalizeAdKeyword U c.keyword = .ok c.keyword) →
    (∀ g ∈ campaigns, normalizeAdKeyword U g.canonicalKeyword = .ok g.canonicalKeyword) →
    DistinctPositions positions → DistinctCampaigns campaigns →
    SelectsBest U candidates positions campaigns := by
  intro hall
  obtain ⟨result, hresult, -, hbest, -⟩ := hall plain hexCandidates [bitcoinStake]
    [bitcoinCampaign] (by decide) (by decide) (by unfold DistinctPositions; decide)
    (by unfold DistinctCampaigns; decide)
  have hselect : selectEligibleAd plain hexCandidates [bitcoinStake] [bitcoinCampaign] =
      .ok (some ⟨candidateAt ["0x626974636f696e".toList] 0 1, bitcoinStake, bitcoinCampaign⟩) := by
    rfl
  obtain ⟨hqualifies, -⟩ := hbest _ _ _ (Except.ok.inj (hresult.symm.trans hselect))
  exact absurd hqualifies.keyword (by decide)

end

end Ads

end PreCommunity
