import PreCommunity.Ads.Selection

/-!
# The bid needed to lead

An advertiser is told how much to add to a bid in order to lead the ranking of the keyword.

* `mineAdvice` : the advice for the positions of a keyword.
* `Leads` : a position is first among the eligible ones.
* `bid_advice` : the advice is enough, and nothing less is.
-/

namespace PreCommunity

namespace Ads

open Market (Hash Address StakePosition)

/-- What a campaign's view says about the ranking. -/
structure Advice where
  /-- `position.rank`. -/
  rank : Option ℕ
  leaderBidUsdRaw : Option ℕ
  bidNeededToLeadUsdRaw : Option ℕ
deriving DecidableEq, Repr

/-- The ranking of a keyword. -/
def ranking (positions : List StakePosition) (keywordId : Hash) : List StakePosition :=
  ranked (positions.filter fun position => decide (position.keywordId = keywordId))

/-- `own`: the position of the caller. -/
def ownOf (ranking : List StakePosition) (address : Address) : Option StakePosition :=
  ranking.find? fun position => decide (position.stakerAddress = address)

/-- `leader`: the first position that may be charged. -/
def leaderOf (ranking : List StakePosition) : Option StakePosition :=
  ranking.find? fun position => position.eligible

/-- `winsEqualBid`. -/
def winsEqualBid (own : Option StakePosition) (leader : StakePosition) : Bool :=
  match own with
  | none => false
  | some own => decide (own.withdrawAvailableAt = 0) &&
    decide (compareAdStakePositions { own with eligible := true, bidUsdRaw := leader.bidUsdRaw }
      leader = .lt)

/-- `targetBid`. -/
def targetBid (own : Option StakePosition) (leader : StakePosition) : ℕ :=
  leader.bidUsdRaw + if winsEqualBid own leader then 0 else 1

/-- `ownBid`. -/
def ownBid (own : Option StakePosition) : ℕ := (own.map (·.bidUsdRaw)).getD 0

/-- `bidNeededToLeadUsdRaw`, when there is a leader. -/
def bidNeeded (own : Option StakePosition) (leader : StakePosition) : ℕ :=
  if own.any fun own => own.eligible && decide (own.stakerAddress = leader.stakerAddress) then 0
  else if ownBid own < targetBid own leader then targetBid own leader - ownBid own
  else 0

/-- `mine`, for one campaign: the rank of the caller, the bid of the leader, and the advice. -/
def mineAdvice (positions : List StakePosition) (keywordId : Hash) (address : Address) : Advice :=
  let ranking := ranking positions keywordId
  let own := ownOf ranking address
  let leader := leaderOf ranking
  { rank := (ranking.findIdx? fun position => decide (position.stakerAddress = address)).map (· + 1)
    leaderBidUsdRaw := leader.map (·.bidUsdRaw)
    bidNeededToLeadUsdRaw := leader.map (bidNeeded own) }

/-! ### Leading -/

/-- The position is first among the eligible positions of the keyword. -/
def Leads (positions : List StakePosition) (keywordId : Hash) (p : StakePosition) : Prop :=
  ∀ q ∈ positions, q.keywordId = keywordId → q.eligible = true →
    q.stakerAddress ≠ p.stakerAddress → Outranks p q

/-- The position with a higher bid, eligible. -/
def raised (own : StakePosition) (d : ℕ) : StakePosition :=
  { own with eligible := true, bidUsdRaw := own.bidUsdRaw + d }

/-- The position with a higher bid, eligible, as if it were opened anew. -/
def reopened (own : StakePosition) (block logIndex d : ℕ) : StakePosition :=
  { raised own d with stakeSinceBlock := block, stakeSinceLogIndex := logIndex }

/-- The position is the caller's. -/
structure Owns (positions : List StakePosition) (keywordId : Hash) (address : Address)
    (own : StakePosition) : Prop where
  mem : own ∈ positions
  keywordId : own.keywordId = keywordId
  stakerAddress : own.stakerAddress = address

/-- All positions of other stakers were opened before. -/
def OpenedAfter (positions : List StakePosition) (keywordId : Hash) (address : Address)
    (block logIndex : ℕ) : Prop :=
  ∀ q ∈ positions, q.keywordId = keywordId → q.stakerAddress ≠ address →
    q.stakeSinceBlock < block ∨ q.stakeSinceBlock = block ∧ q.stakeSinceLogIndex < logIndex

/-- The position wins against one with the same bid. -/
def Senior (p q : StakePosition) : Prop :=
  p.stakeSinceBlock < q.stakeSinceBlock ∨ p.stakeSinceBlock = q.stakeSinceBlock ∧
    (p.stakeSinceLogIndex < q.stakeSinceLogIndex ∨
      p.stakeSinceLogIndex = q.stakeSinceLogIndex ∧ p.stakerAddress < q.stakerAddress)

theorem outranks_iff_senior {p q : StakePosition} (hp : p.eligible = true)
    (hq : q.eligible = true) : Outranks p q ↔
      q.bidUsdRaw < p.bidUsdRaw ∨ p.bidUsdRaw = q.bidUsdRaw ∧ Senior p q := by
  rw [outranks_iff, hp, hq]
  simp [Beats, Senior]

/-! ### The leader -/

section

variable {positions : List StakePosition} {keywordId : Hash} {address : Address}

theorem mem_ranking {p : StakePosition} :
    p ∈ ranking positions keywordId ↔ p ∈ positions ∧ p.keywordId = keywordId := by
  rw [ranking, mem_ranked, List.mem_filter, decide_eq_true_eq]

theorem ranking_strict (h : DistinctPositions positions) :
    (ranking positions keywordId).Pairwise Outranks := by
  apply ranked_strict
  refine (h.sublist List.filter_sublist).imp_of_mem fun hp hq hne => hne ?_
  exact (of_decide_eq_true (List.mem_filter.1 hp).2).trans
    (of_decide_eq_true (List.mem_filter.1 hq).2).symm

/-- **The leader** is eligible and outranks every other eligible position. -/
theorem leader_spec (h : DistinctPositions positions) {leader : StakePosition}
    (hleader : leaderOf (ranking positions keywordId) = some leader) :
    (leader ∈ positions ∧ leader.keywordId = keywordId) ∧ leader.eligible = true ∧
      ∀ q ∈ positions, q.keywordId = keywordId → q.eligible = true →
        q = leader ∨ Outranks leader q := by
  obtain ⟨heligible, before, after, hsplit, hnone⟩ := List.find?_eq_some_iff_append.1 hleader
  have hsorted : (ranking positions keywordId).Pairwise Outranks := ranking_strict h
  have hmem : leader ∈ ranking positions keywordId := by
    rw [hsplit]
    exact List.mem_append_right _ List.mem_cons_self
  refine ⟨mem_ranking.1 hmem, heligible, fun q hq hkeyword hqe => ?_⟩
  have hqmem : q ∈ ranking positions keywordId := mem_ranking.2 ⟨hq, hkeyword⟩
  rw [hsplit] at hqmem hsorted
  rcases List.mem_append.1 hqmem with hbefore | hrest
  · have hineligible := hnone q hbefore
    rw [hqe] at hineligible
    cases hineligible
  · rcases List.mem_cons.1 hrest with rfl | hafter
    · exact .inl rfl
    · exact .inr ((List.pairwise_cons.1 (List.pairwise_append.1 hsorted).2.1).1 q hafter)

theorem leader_isSome {p : StakePosition} (hp : p ∈ positions) (hkeyword : p.keywordId = keywordId)
    (heligible : p.eligible = true) :
    ∃ leader, leaderOf (ranking positions keywordId) = some leader := by
  rw [← Option.isSome_iff_exists, leaderOf, List.find?_isSome]
  exact ⟨p, mem_ranking.2 ⟨hp, hkeyword⟩, heligible⟩

theorem ownOf_eq_some (h : DistinctPositions positions) {own : StakePosition} :
    ownOf (ranking positions keywordId) address = some own ↔
      Owns positions keywordId address own := by
  have hfound : ∀ p, ownOf (ranking positions keywordId) address = some p →
      Owns positions keywordId address p := by
    intro p hp
    obtain ⟨hmem, hkeyword⟩ := mem_ranking.1 (List.mem_of_find?_eq_some hp)
    have hstaker := List.find?_some hp
    exact ⟨hmem, hkeyword, of_decide_eq_true hstaker⟩
  refine ⟨hfound own, fun hown => ?_⟩
  have hsome : (ownOf (ranking positions keywordId) address).isSome = true := by
    rw [ownOf, List.find?_isSome]
    exact ⟨own, mem_ranking.2 ⟨hown.mem, hown.keywordId⟩, decide_eq_true hown.stakerAddress⟩
  obtain ⟨p, hp⟩ := Option.isSome_iff_exists.1 hsome
  have hp' := hfound p hp
  rw [hp, (Store.Keyed.of_pairwise h).eq hp'.mem hown.mem
    (Prod.ext (hp'.keywordId.trans hown.keywordId.symm)
      (hp'.stakerAddress.trans hown.stakerAddress.symm))]

/-- **To lead** is to outrank the leader. -/
theorem leads_iff (h : DistinctPositions positions) {leader p : StakePosition}
    (hleader : leaderOf (ranking positions keywordId) = some leader)
    (hne : leader.stakerAddress ≠ p.stakerAddress) :
    Leads positions keywordId p ↔ Outranks p leader := by
  obtain ⟨⟨hmem, hkeyword⟩, heligible, hfirst⟩ := leader_spec h hleader
  refine ⟨fun hleads => hleads leader hmem hkeyword heligible hne, fun hless => ?_⟩
  intro q hq hqk hqe hqne
  obtain rfl | hlater := hfirst q hq hqk hqe
  · exact hless
  · exact hless.trans hlater

/-- **A bid is enough** when it reaches the target, which depends on who wins a tie. -/
theorem leads_iff_bid (h : DistinctPositions positions) {leader p : StakePosition}
    (hleader : leaderOf (ranking positions keywordId) = some leader)
    (hne : leader.stakerAddress ≠ p.stakerAddress) (heligible : p.eligible = true) :
    Leads positions keywordId p ↔
      leader.bidUsdRaw < p.bidUsdRaw ∨ p.bidUsdRaw = leader.bidUsdRaw ∧ Senior p leader := by
  rw [leads_iff h hleader hne, outranks_iff_senior heligible (leader_spec h hleader).2.1]

/-- A position that was opened last loses every tie. -/
theorem OpenedAfter.not_senior {block logIndex : ℕ} (h : DistinctPositions positions)
    (hafter : OpenedAfter positions keywordId address block logIndex) {leader p : StakePosition}
    (hleader : leaderOf (ranking positions keywordId) = some leader)
    (hne : leader.stakerAddress ≠ address) (hblock : p.stakeSinceBlock = block)
    (hindex : p.stakeSinceLogIndex = logIndex) : ¬Senior p leader := by
  obtain ⟨⟨hmem, hkeyword⟩, -, -⟩ := leader_spec h hleader
  have hbefore := hafter leader hmem hkeyword hne
  unfold Senior
  omega

theorem winsEqualBid_iff {own leader : StakePosition} (hleader : leader.eligible = true) :
    winsEqualBid (some own) leader = true ↔ own.withdrawAvailableAt = 0 ∧ Senior own leader := by
  have hcompare : Outranks { own with eligible := true, bidUsdRaw := leader.bidUsdRaw } leader ↔
      Senior own leader := by
    rw [outranks_iff_senior rfl hleader]
    simp [Senior]
  rw [winsEqualBid, Bool.and_eq_true, decide_eq_true_eq, decide_eq_true_eq]
  exact and_congr_right fun _ => hcompare

end

/-! ### The advice -/

section

variable {positions : List StakePosition} {keywordId : Hash} {address : Address}

/-- The advice, when the caller does not lead. -/
theorem bidNeeded_eq {own : Option StakePosition} {leader : StakePosition}
    (h : ∀ p, own = some p → ¬(p.eligible = true ∧ p.stakerAddress = leader.stakerAddress)) :
    bidNeeded own leader = targetBid own leader - ownBid own := by
  rw [bidNeeded, if_neg]
  · split_ifs <;> omega
  · cases own with
    | none => simp
    | some p =>
      have hp := h p rfl
      simpa using hp

/-- The caller's own position is the leader, or belongs to another staker than the leader. -/
theorem own_ne_leader (h : DistinctPositions positions) {own leader : StakePosition}
    (hleader : leaderOf (ranking positions keywordId) = some leader)
    (hown : Owns positions keywordId address own) (hne : own ≠ leader) :
    leader.stakerAddress ≠ own.stakerAddress := by
  obtain ⟨⟨hmem, hkeyword⟩, -, -⟩ := leader_spec h hleader
  exact fun heq => hne ((Store.Keyed.of_pairwise h).eq hown.mem hmem
    (Prod.ext (hown.keywordId.trans hkeyword.symm) heq.symm))

/-- An eligible position that leads is the leader. -/
theorem eq_leader_of_leads (h : DistinctPositions positions) {own leader : StakePosition}
    (hleader : leaderOf (ranking positions keywordId) = some leader)
    (hown : Owns positions keywordId address own) (heligible : own.eligible = true)
    (hleads : Leads positions keywordId own) : own = leader := by
  obtain ⟨⟨hmem, hkeyword⟩, hle, hfirst⟩ := leader_spec h hleader
  obtain heq | hless := hfirst own hown.mem hown.keywordId heligible
  · exact heq
  · by_contra hne
    exact (hleads leader hmem hkeyword hle (own_ne_leader h hleader hown hne)).asymm hless

/-- A leading position leads with its bid as it is. -/
theorem leader_leads (h : DistinctPositions positions) {leader : StakePosition}
    (hleader : leaderOf (ranking positions keywordId) = some leader) :
    Leads positions keywordId leader := by
  obtain ⟨-, -, hfirst⟩ := leader_spec h hleader
  intro q hq hqk hqe hqne
  obtain rfl | hless := hfirst q hq hqk hqe
  · exact absurd rfl hqne
  · exact hless

/-- The bid at which a position starts to lead is the target, less what is bid already. -/
theorem leads_from (leads : ℕ → Prop) (wins : Prop) (leaderBid : ℕ) {target bid : ℕ}
    (hleads : ∀ d, leads d ↔ leaderBid < bid + d ∨ bid + d = leaderBid ∧ wins)
    (hwins : wins → target = leaderBid) (hloses : ¬wins → target = leaderBid + 1) :
    leads (target - bid) ∧ ∀ d < target - bid, ¬leads d := by
  by_cases h : wins
  · have := hwins h
    refine ⟨(hleads _).2 ?_, fun d hd hl => ?_⟩
    · rcases Nat.lt_or_ge leaderBid bid with hlt | hge
      · exact .inl (by omega)
      · exact .inr ⟨by omega, h⟩
    · obtain hlt | ⟨heq, -⟩ := (hleads d).1 hl <;> omega
  · have := hloses h
    refine ⟨(hleads _).2 (.inl (by omega)), fun d hd hl => ?_⟩
    obtain hlt | ⟨-, hw⟩ := (hleads d).1 hl
    · omega
    · exact h hw

/-- **The advice** is enough to lead and nothing less is, for a position that keeps its seniority
and for one that is opened last; it is nothing for a position that leads.  A position that waits for
its withdrawal is counted as opened last, with the bid that it has. -/
theorem bid_advice (positions : List StakePosition) (keywordId : Hash) (address : Address)
    (hpositions : DistinctPositions positions)
    (heligible : ∃ p ∈ positions, p.keywordId = keywordId ∧ p.eligible = true) :
    ∃ d, (mineAdvice positions keywordId address).bidNeededToLeadUsdRaw = some d ∧
      (∀ own, Owns positions keywordId address own → own.withdrawAvailableAt = 0 →
        Leads positions keywordId (raised own d) ∧
          ∀ d' < d, ¬Leads positions keywordId (raised own d')) ∧
      (∀ own, Owns positions keywordId address own → own.eligible = true →
        Leads positions keywordId own → d = 0) ∧
      (∀ own block logIndex, Owns positions keywordId address own → own.withdrawAvailableAt ≠ 0 →
        ¬(own.eligible = true ∧ Leads positions keywordId own) →
        OpenedAfter positions keywordId address block logIndex →
        Leads positions keywordId (reopened own block logIndex d) ∧
          ∀ d' < d, ¬Leads positions keywordId (reopened own block logIndex d')) ∧
      ((∀ p, ¬Owns positions keywordId address p) → ∀ fresh : StakePosition,
        fresh.stakerAddress = address → fresh.eligible = true →
        OpenedAfter positions keywordId address fresh.stakeSinceBlock fresh.stakeSinceLogIndex →
        Leads positions keywordId { fresh with bidUsdRaw := d } ∧
          ∀ d' < d, ¬Leads positions keywordId { fresh with bidUsdRaw := d' }) := by
  obtain ⟨e, he, hekeyword, hee⟩ := heligible
  obtain ⟨leader, hleader⟩ := leader_isSome he hekeyword hee
  obtain ⟨⟨hmem, hkeyword⟩, hle, -⟩ := leader_spec hpositions hleader
  refine ⟨bidNeeded (ownOf (ranking positions keywordId) address) leader, ?_, fun own hown hzero =>
    ?_, fun own hown howne hleads => ?_, fun own block logIndex hown hnonzero hnot hafter => ?_,
    fun hnone fresh hstaker hfresh hafter => ?_⟩
  · simp only [mineAdvice, hleader, Option.map_some]
  · -- it keeps its seniority
    rw [(ownOf_eq_some hpositions).2 hown]
    by_cases heq : own = leader ∧ own.eligible = true
    · obtain ⟨rfl, howne⟩ := heq
      have hd : bidNeeded (some own) own = 0 := by simp [bidNeeded, howne]
      have hsame : raised own 0 = own := by simp [raised, ← howne]
      rw [hd, hsame]
      exact ⟨leader_leads hpositions hleader, fun d hd => absurd hd (Nat.not_lt_zero d)⟩
    · have hne : own ≠ leader := fun h => heq ⟨h, h ▸ hle⟩
      have hstaker := own_ne_leader hpositions hleader hown hne
      rw [bidNeeded_eq fun p hp => (Option.some.inj hp) ▸ fun hboth => hstaker hboth.2.symm]
      refine leads_from (fun d => Leads positions keywordId (raised own d)) (Senior own leader)
        leader.bidUsdRaw (fun d => ?_) (fun hw => ?_) fun hw => ?_
      · exact leads_iff_bid hpositions hleader hstaker rfl
      · rw [targetBid, if_pos ((winsEqualBid_iff hle).2 ⟨hzero, hw⟩), Nat.add_zero]
      · rw [targetBid, if_neg fun h => hw ((winsEqualBid_iff hle).1 h).2]
  · rw [(ownOf_eq_some hpositions).2 hown]
    obtain rfl := eq_leader_of_leads hpositions hleader hown howne hleads
    simp [bidNeeded, howne]
  · -- it is opened again, so it is the last one of its bid
    rw [(ownOf_eq_some hpositions).2 hown]
    have hne : own ≠ leader := fun h => hnot ⟨h ▸ hle, h ▸ leader_leads hpositions hleader⟩
    have hstaker := own_ne_leader hpositions hleader hown hne
    have hlate := hafter.not_senior (p := reopened own block logIndex 0) hpositions hleader
      (hown.stakerAddress ▸ hstaker) rfl rfl
    rw [bidNeeded_eq fun p hp => (Option.some.inj hp) ▸ fun hboth => hstaker hboth.2.symm]
    refine leads_from (fun d => Leads positions keywordId (reopened own block logIndex d)) False
      leader.bidUsdRaw (fun d => ?_) False.elim fun _ => ?_
    · have hiff := leads_iff_bid (p := reopened own block logIndex d) hpositions hleader hstaker rfl
      exact hiff.trans (or_congr_right (and_congr_right fun _ => iff_false_intro hlate))
    · rw [targetBid, if_neg fun h => hnonzero ((winsEqualBid_iff hle).1 h).1]
  · -- a new position, which is the last one of its bid too
    have hown : ownOf (ranking positions keywordId) address = none := by
      cases hfind : ownOf (ranking positions keywordId) address with
      | none => rfl
      | some p => exact absurd ((ownOf_eq_some hpositions).1 hfind) (hnone p)
    rw [hown]
    have hne : leader.stakerAddress ≠ address := fun h => hnone leader ⟨hmem, hkeyword, h⟩
    have hlate := hafter.not_senior (p := fresh) hpositions hleader hne rfl rfl
    rw [bidNeeded_eq fun p hp => absurd hp (Option.some_ne_none p).symm]
    refine leads_from (fun d => Leads positions keywordId { fresh with bidUsdRaw := d }) False
      leader.bidUsdRaw (fun d => ?_) False.elim fun _ => rfl
    have hiff := leads_iff_bid (p := { fresh with bidUsdRaw := d }) hpositions hleader
      (hstaker ▸ hne) hfresh
    rw [ownBid, Option.map_none, Option.getD_none, Nat.zero_add]
    exact hiff.trans (or_congr_right (and_congr_right fun _ => iff_false_intro hlate))

theorem bid_advice_pair :
    ∃ d, (mineAdvice [sampleStake 1 100 7, sampleStake 2 90 6] (idOf plain "tea".toList)
      2).bidNeededToLeadUsdRaw = some d ∧
      Leads [sampleStake 1 100 7, sampleStake 2 90 6] (idOf plain "tea".toList)
        (raised (sampleStake 2 90 6) d) := by
  obtain ⟨d, hd, hown, -, -, -⟩ := bid_advice [sampleStake 1 100 7, sampleStake 2 90 6]
    (idOf plain "tea".toList) 2 (by unfold DistinctPositions; decide)
    ⟨sampleStake 1 100 7, by simp, rfl, rfl⟩
  exact ⟨d, hd, (hown (sampleStake 2 90 6) ⟨by simp, rfl, rfl⟩ rfl).1⟩

/-- A position that waits for its withdrawal. -/
def withdrawingStake (stakerAddress bidUsdRaw stakeSinceBlock : ℕ) : StakePosition :=
  { sampleStake stakerAddress bidUsdRaw stakeSinceBlock with
    eligible := false
    withdrawAvailableAt := 1700000000 }

/-- **The recorded bid counts** while the withdrawal is awaited: to a bid of 90 against 100 the
advice adds 11, where a newly opened position is told 101 and does not lead with 11. -/
theorem advice_while_withdrawing :
    Owns [sampleStake 1 100 7, withdrawingStake 3 90 6] (idOf plain "tea".toList) 3
        (withdrawingStake 3 90 6) ∧
      (mineAdvice [sampleStake 1 100 7, withdrawingStake 3 90 6] (idOf plain "tea".toList)
        3).bidNeededToLeadUsdRaw = some 11 ∧
      (mineAdvice [sampleStake 1 100 7] (idOf plain "tea".toList) 3).bidNeededToLeadUsdRaw =
        some 101 ∧
      ¬Leads [sampleStake 1 100 7, withdrawingStake 3 90 6] (idOf plain "tea".toList)
        (sampleStake 3 11 8) := by
  refine ⟨⟨by simp, rfl, rfl⟩, by decide, by decide, fun h => ?_⟩
  have hless := h (sampleStake 1 100 7) (by simp) rfl rfl (by decide)
  exact absurd hless (by decide)

end

end Ads

end PreCommunity
