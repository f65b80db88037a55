import Mathlib.Logic.Function.Basic
import PreCommunity.Ads.Campaigns
import PreCommunity.Market.Admission

/-!
# The resolver and its cache

One instance of the server answers queries.  An answer is kept for a while, and every operation that
changes an ad empties the cache when its transaction is done.  Calls and operations wait for the
database, so their steps interleave.

* `World`, `Event`, `step` : the calls and operations in progress, and one step of any of them.
* `Safe` : no answer of the cache is off.
* `moderation_takes_effect` : in a run that never keeps an answer that has been switched off, no
  later call returns it.
* `suspended_ad_returned` : a run in which a call returns a suspended ad.
-/

namespace PreCommunity

namespace Ads

open Market (Text Hash Address StakePosition AdsChainSnapshot)

open Decimal (decimalText)

/-- `ResolvedAd`, without the links, which are made of the revision's id. -/
structure ResolvedAd where
  revisionId : ℕ
  /-- The campaign of the ad; the source does not keep it. -/
  campaignId : ℕ
  chainId : ℕ
  contractAddress : Address
  keywordId : Hash
  keyword : Text
  stakerAddress : Address
  positionVersion : ℕ
  headline : Text
  description : Text
  url : Text
deriving DecidableEq, Repr

/-- An entry of the cache. -/
structure Entry where
  expiresAt : ℕ
  ad : Option ResolvedAd
deriving DecidableEq, Repr

def resolverCacheMs : ℕ := 15000
def resolverCacheMax : ℕ := 5000

/-- The resolver cache, the oldest key first. -/
abbrev Cache := List (Hash × Entry)

/-- What has to leave a full cache: what has expired, or else the oldest entry. -/
def makeRoom (cache : Cache) (now : ℕ) : Cache :=
  if cache.length < resolverCacheMax then cache
  else
    let kept := cache.filter fun entry => decide (now < entry.2.expiresAt)
    if kept.length < resolverCacheMax then kept else kept.tail

/-- `cache`: put an answer under its key. -/
def cacheAnswer (cache : Cache) (key : Hash) (ad : Option ResolvedAd) (now : ℕ) : Cache :=
  Store.upsert (fun entry => decide (entry.1 = key))
    (fun entry => (entry.1, ⟨now + resolverCacheMs, ad⟩)) (key, ⟨now + resolverCacheMs, ad⟩)
    (makeRoom cache now)

/-! ### Reading the database -/

/-- The campaigns that are read, with their active revisions. -/
def eligibleCampaigns (db : AdsDatabase) (keywords : List Text) (addresses : List Address) :
    List EligibleCampaign :=
  (db.campaigns.filter fun row => decide (row.canonicalKeyword ∈ keywords) &&
      row.pausedAt.isNone && row.activeRevisionId.isSome && decide (row.address ∈ addresses)).map
    fun row =>
      { id := row.id
        canonicalKeyword := row.canonicalKeyword
        pausedAt := row.pausedAt
        address := row.address
        activeRevision := row.activeRevisionId.bind fun id =>
          (db.revisions.find? fun revision => decide (revision.id = id)).map fun revision =>
            ⟨revision.id, revision.creative.headline, revision.creative.description,
              revision.creative.destinationUrl, revision.status⟩ }

/-- The ad of a selection. -/
def resolvedAd (snapshot : AdsChainSnapshot) (selected : Selected) : Option ResolvedAd :=
  snapshot.contractAddress.bind fun contractAddress =>
    selected.campaign.activeRevision.map fun revision =>
      { revisionId := revision.id
        campaignId := selected.campaign.id
        chainId := snapshot.chainId
        contractAddress := contractAddress
        keywordId := selected.position.keywordId
        keyword := selected.campaign.canonicalKeyword
        stakerAddress := selected.position.stakerAddress
        positionVersion := selected.position.positionVersion
        headline := revision.headline
        description := revision.description
        url := revision.destinationUrl }

/-- The functions that the resolver uses. -/
structure Resolver where
  unicode : Unicode
  /-- SHA-256 of a text. -/
  sha256 : Text → Hash

/-- The text under whose hash an answer is kept. -/
def cacheText : List AdsKeywordCandidate → Text
  | [] => []
  | [c] => decimalText c.startToken ++ ':' :: c.keyword
  | c :: d :: candidates =>
    decimalText c.startToken ++ ':' :: c.keyword ++ '|' :: cacheText (d :: candidates)

/-! ### Calls and operations -/

/-- How far a call of `resolve` is. -/
inductive Phase where
  | idle
  /-- It waits for the snapshot. -/
  | starting (candidates : List AdsKeywordCandidate)
  /-- It waits for the positions. -/
  | reading (candidates : List AdsKeywordCandidate) (snapshot : AdsChainSnapshot) (now : ℕ)
  /-- It waits for the campaigns. -/
  | joining (candidates : List AdsKeywordCandidate) (snapshot : AdsChainSnapshot) (now : ℕ)
      (positions : List StakePosition)
  /-- The answer is known, and is to be put into the cache. -/
  | filling (key : Hash) (ad : Option ResolvedAd) (now : ℕ)
  | returned (ad : Option ResolvedAd)
  /-- An error was thrown. -/
  | failed

/-- A call, with what has been off since it started; the latter is not read. -/
structure Call where
  phase : Phase
  watched : List Target

/-- How far an operation is. -/
inductive Operation where
  | idle
  /-- The transaction is done, and the cache is to be emptied. -/
  | committed (switchesOff : Option Target)
  | returned

/-- The state of an instance, with what has been off since an operation that switched it off has
returned; the latter is not read. -/
structure World where
  db : AdsDatabase
  cache : Cache
  calls : ℕ → Call
  operations : ℕ → Operation
  off : List Target

/-- What happens next. -/
inductive Event where
  /-- A call starts with a query. -/
  | resolve (call : ℕ) (query : Text)
  /-- The snapshot is there; the cache is looked up. -/
  | snapshot (call : ℕ) (snapshot : AdsChainSnapshot) (now : ℕ)
  /-- The positions are read. -/
  | positions (call : ℕ)
  /-- The campaigns are read, and an ad is selected. -/
  | campaigns (call : ℕ)
  /-- The answer is put into the cache and returned. -/
  | fill (call : ℕ)
  /-- The transaction of an operation is committed. -/
  | commit (operation : ℕ) (transaction : Transaction)
  /-- An operation empties the cache and returns. -/
  | finish (operation : ℕ)
  /-- The worker writes the positions. -/
  | project (positions : List StakePosition)

/-- The call goes on. -/
def World.continue (w : World) (call : ℕ) (phase : Phase) : World :=
  { w with calls := Function.update w.calls call { w.calls call with phase } }

/-- `cache` and `return`: the answer of a call. -/
def World.answer (w : World) (call : ℕ) (key : Hash) (ad : Option ResolvedAd) (now : ℕ) : World :=
  { w.continue call (.returned ad) with cache := cacheAnswer w.cache key ad now }

/-- What is on again is off no more. -/
def World.switchOn (w : World) (target : Option Target) : World :=
  { w with
    off := w.off.filter fun t => decide (target ≠ some t)
    calls := fun call =>
      { w.calls call with
        watched := (w.calls call).watched.filter fun t => decide (target ≠ some t) } }

/-- An operation has returned; what it switched off is off, unless it is on again already. -/
def World.settle (w : World) (target : Option Target) : World :=
  { w with off := target.toList.filter (isOff w.db) ++ w.off }

variable (R : Resolver)

/-- The key of an answer. -/
def Resolver.keyOf (candidates : List AdsKeywordCandidate) : Hash := R.sha256 (cacheText candidates)

/-- The positions that are read, or an error. -/
def positionsOf (db : AdsDatabase) (candidates : List AdsKeywordCandidate)
    (snapshot : AdsChainSnapshot) (contractAddress : Address) :
    Except AdsTextValidationError (List StakePosition) := do
  let keywordIds ← candidates.mapM fun candidate => adKeywordId R.unicode candidate.keyword
  return db.positions.filter fun position =>
    decide (position.identity = ⟨snapshot.chainId, contractAddress⟩) &&
      decide (position.keywordId ∈ keywordIds) && position.active

/-- After the snapshot: the cached answer, or the first read. -/
def afterSnapshot (w : World) (call : ℕ) (candidates : List AdsKeywordCandidate)
    (snapshot : AdsChainSnapshot) (now : ℕ) : World :=
  match (w.cache.lookup (R.keyOf candidates)).filter fun entry =>
    decide (now < entry.expiresAt) with
  | some entry => w.continue call (.returned entry.ad)
  | none =>
    if snapshot.status = .synced then w.continue call (.reading candidates snapshot now)
    else w.answer call (R.keyOf candidates) none now

/-- After the positions: nothing, or the second read. -/
def afterPositions (w : World) (call : ℕ) (candidates : List AdsKeywordCandidate)
    (snapshot : AdsChainSnapshot) (now : ℕ) : World :=
  match snapshot.contractAddress with
  | none => w.continue call (.filling (R.keyOf candidates) none now)
  | some contractAddress =>
    match positionsOf R w.db candidates snapshot contractAddress with
    | .error _ => w.continue call .failed
    | .ok [] => w.continue call (.filling (R.keyOf candidates) none now)
    | .ok positions => w.continue call (.joining candidates snapshot now positions)

/-- After the campaigns: the ad that is selected. -/
def afterCampaigns (w : World) (call : ℕ) (candidates : List AdsKeywordCandidate)
    (snapshot : AdsChainSnapshot) (now : ℕ) (positions : List StakePosition) : World :=
  match selectEligibleAd R.unicode candidates positions
      (eligibleCampaigns w.db (candidates.map (·.keyword)) (positions.map (·.stakerAddress))) with
  | .error _ => w.continue call .failed
  | .ok selected =>
    w.continue call (.filling (R.keyOf candidates) (selected.bind (resolvedAd snapshot)) now)

/-- One step of the instance; `none` when the event cannot happen. -/
def step (w : World) : Event → Option World
  | .resolve call query =>
    match (w.calls call).phase, adsKeywordCandidates R.unicode query with
    | .idle, .ok candidates =>
      some { w with calls := Function.update w.calls call ⟨.starting candidates, w.off⟩ }
    | _, _ => none
  | .snapshot call snapshot now =>
    match (w.calls call).phase with
    | .starting candidates => some (afterSnapshot R w call candidates snapshot now)
    | _ => none
  | .positions call =>
    match (w.calls call).phase with
    | .reading candidates snapshot now => some (afterPositions R w call candidates snapshot now)
    | _ => none
  | .campaigns call =>
    match (w.calls call).phase with
    | .joining candidates snapshot now positions =>
      some (afterCampaigns R w call candidates snapshot now positions)
    | _ => none
  | .fill call =>
    match (w.calls call).phase with
    | .filling key ad now => some (w.answer call key ad now)
    | _ => none
  | .commit operation transaction =>
    match w.operations operation, transaction.apply w.db with
    | .idle, some db =>
      some ({ w with
        db
        operations := Function.update w.operations operation
          (.committed transaction.switchesOff) }.switchOn transaction.switchesOn)
    | _, _ => none
  | .finish operation =>
    match w.operations operation with
    | .committed target =>
      some ({ w with
        cache := []
        operations := Function.update w.operations operation .returned }.settle target)
    | _ => none
  | .project positions => some { w with db := { w.db with positions } }

/-! ### No answer is off -/

/-- The ad is of the revision, or of the campaign. -/
def Concerns (ad : ResolvedAd) : Target → Prop
  | .revision id => ad.revisionId = id
  | .campaign id => ad.campaignId = id

instance (ad : ResolvedAd) (t : Target) : Decidable (Concerns ad t) := by
  cases t <;> exact inferInstanceAs (Decidable (_ = _))

/-- The ad that a call is about to return, or has returned. -/
def Phase.ad : Phase → Option ResolvedAd
  | .filling _ ad _ => ad
  | .returned ad => ad
  | _ => none

/-- The ad that a call has returned. -/
def Phase.result : Phase → Option ResolvedAd
  | .returned ad => ad
  | _ => none

theorem Phase.eq_returned {phase : Phase} {ad : ResolvedAd} (h : phase.result = some ad) :
    phase = .returned (some ad) := by
  cases phase with
  | returned answer => exact congrArg _ h
  | _ => cases h

/-- **No answer is off**: neither in the cache, nor for a call that started after it was switched
off. -/
structure Safe (w : World) : Prop where
  off : ∀ t ∈ w.off, isOff w.db t = true
  cached : ∀ entry ∈ w.cache, ∀ ad, entry.2.ad = some ad → ∀ t ∈ w.off, ¬Concerns ad t
  watched : ∀ call, ∀ t ∈ (w.calls call).watched, t ∈ w.off
  answers : ∀ call ad, (w.calls call).phase.ad = some ad →
    ∀ t ∈ (w.calls call).watched, ¬Concerns ad t

/-- The answer that is put into the cache is not off. -/
def keepsLive (w : World) : Event → Bool
  | .fill call => (w.calls call).phase.ad.all fun ad => w.off.all fun t => decide (¬Concerns ad t)
  | _ => true

theorem campaignEntries_mem {U : Unicode} {campaigns : List EligibleCampaign}
    {entries : List ((Hash × Address) × EligibleCampaign)}
    (h : campaignEntries U campaigns = .ok entries) {entry : (Hash × Address) × EligibleCampaign}
    (hentry : entry ∈ entries) : entry.2 ∈ campaigns := by
  induction campaigns generalizing entries with
  | nil =>
    obtain rfl := Except.ok.inj h
    cases hentry
  | cons g campaigns ih =>
    rw [campaignEntries] at h
    cases hid : adKeywordId U g.canonicalKeyword with
    | error e =>
      rw [hid] at h
      cases h
    | ok id =>
      cases hrest : campaignEntries U campaigns with
      | error e =>
        rw [hid, hrest] at h
        cases h
      | ok rest =>
        rw [hid, hrest] at h
        obtain rfl := Except.ok.inj h
        rcases List.mem_cons.1 hentry with rfl | hmem
        · exact List.mem_cons_self
        · exact List.mem_cons_of_mem g (ih hrest hmem)

theorem firstCandidate_campaign {U : Unicode}
    {entries : List ((Hash × Address) × EligibleCampaign)} {positions : List StakePosition}
    {candidates : List AdsKeywordCandidate} {s : Selected}
    (h : firstCandidate U entries positions candidates = .ok (some s)) :
    ∃ entry ∈ entries, entry.2 = s.campaign := by
  induction candidates with
  | nil => cases Except.ok.inj h
  | cons c candidates ih =>
    rw [firstCandidate] at h
    cases hid : adKeywordId U c.keyword with
    | error e =>
      rw [hid] at h
      cases h
    | ok id =>
      simp only [hid, bind, Except.bind] at h
      cases hfirst : firstPosition entries positions c id with
      | none =>
        rw [hfirst] at h
        exact ih h
      | some found =>
        rw [hfirst] at h
        obtain rfl := Option.some.inj (Except.ok.inj h)
        obtain ⟨p, -, hoffer⟩ := List.exists_of_findSome?_eq_some hfirst
        obtain ⟨g, hg, hfound⟩ := Option.map_eq_some_iff.1 hoffer
        obtain ⟨hat, -⟩ := Option.filter_eq_some_iff.1 hg
        obtain ⟨entry, hentry, rfl⟩ := Option.map_eq_some_iff.1 hat
        exact ⟨entry, List.mem_reverse.1 (List.mem_of_find?_eq_some hentry), by rw [← hfound]⟩

/-- **A selected campaign** is one of those that were read, and may be shown. -/
theorem selected_live {U : Unicode} {candidates : List AdsKeywordCandidate}
    {positions : List StakePosition} {campaigns : List EligibleCampaign} {s : Selected}
    (h : selectEligibleAd U candidates positions campaigns = .ok (some s)) :
    s.campaign ∈ campaigns ∧ s.campaign.live = true := by
  rw [selectEligibleAd] at h
  cases hentries : campaignEntries U (campaigns.filter (·.live)) with
  | error e =>
    rw [hentries] at h
    cases h
  | ok entries =>
    rw [hentries] at h
    obtain ⟨entry, hentry, heq⟩ := firstCandidate_campaign h
    have hmem := List.mem_filter.1 (campaignEntries_mem hentries hentry)
    rw [heq] at hmem
    exact hmem

/-- **An ad that was read** concerns nothing that is off in the database. -/
theorem resolved_not_off {db : AdsDatabase} {keywords : List Text} {addresses : List Address}
    {s : Selected} {snapshot : AdsChainSnapshot} {ad : ResolvedAd}
    (hmem : s.campaign ∈ eligibleCampaigns db keywords addresses) (hlive : s.campaign.live = true)
    (had : resolvedAd snapshot s = some ad) {t : Target} (hoff : isOff db t = true) :
    ¬Concerns ad t := by
  obtain ⟨contractAddress, -, had⟩ := Option.bind_eq_some_iff.1 had
  obtain ⟨revision, hrevision, rfl⟩ := Option.map_eq_some_iff.1 had
  obtain ⟨-, approved, happroved, hstatus⟩ := live_iff.1 hlive
  obtain ⟨row, hrow, hcampaign⟩ := List.mem_map.1 hmem
  simp only [List.mem_filter, Bool.and_eq_true, decide_eq_true_eq] at hrow
  cases t with
  | revision id =>
    rintro rfl
    rw [← hcampaign] at hrevision happroved
    obtain ⟨active, -, hactive⟩ := Option.bind_eq_some_iff.1 hrevision
    obtain ⟨found, hfound, rfl⟩ := Option.map_eq_some_iff.1 hactive
    rw [hrevision] at happroved
    obtain rfl := Option.some.inj happroved
    have hsuspended := (allOff_iff.1 hoff).2 found (List.mem_of_find?_eq_some hfound) rfl
    rw [suspended, decide_eq_true_eq] at hsuspended
    exact absurd (hsuspended.symm.trans hstatus) (by decide)
  | campaign id =>
    rintro rfl
    have hpaused := (allOff_iff.1 hoff).2 row hrow.1 (by rw [← hcampaign])
    rw [paused] at hpaused
    have hnone := hrow.2.1.1.2
    rw [Option.isNone_iff_eq_none] at hnone
    rw [hnone] at hpaused
    cases hpaused

/-! ### One step -/

section

variable {R : Resolver} {w w' : World}

theorem Safe.continue (h : Safe w) {call : ℕ} {phase : Phase}
    (hphase : ∀ ad, phase.ad = some ad → ∀ t ∈ (w.calls call).watched, ¬Concerns ad t) :
    Safe (w.continue call phase) := by
  refine ⟨h.off, h.cached, fun other t ht => ?_, fun other ad had t ht => ?_⟩
  · by_cases heq : other = call
    · subst heq
      simp only [World.continue, Function.update_self] at ht
      exact h.watched other t ht
    · simp only [World.continue, Function.update_of_ne heq] at ht
      exact h.watched other t ht
  · by_cases heq : other = call
    · subst heq
      simp only [World.continue, Function.update_self] at had ht
      exact hphase ad had t ht
    · simp only [World.continue, Function.update_of_ne heq] at had ht
      exact h.answers other ad had t ht

theorem mem_cacheAnswer {cache : Cache} {key : Hash} {ad : Option ResolvedAd} {now : ℕ}
    {entry : Hash × Entry} (h : entry ∈ cacheAnswer cache key ad now) :
    entry ∈ cache ∨ entry.2.ad = ad := by
  have hroom : ∀ e ∈ makeRoom cache now, e ∈ cache := by
    intro e he
    simp only [makeRoom] at he
    split_ifs at he
    · exact he
    · exact (List.mem_filter.1 he).1
    · exact (List.mem_filter.1 (List.mem_of_mem_tail he)).1
  rw [cacheAnswer, Store.upsert] at h
  split_ifs at h
  · obtain ⟨hold, -⟩ | ⟨old, -, -, rfl⟩ := Store.mem_updateWhere_cases h
    · exact .inl (hroom entry hold)
    · exact .inr rfl
  · rcases List.mem_append.1 h with hold | hnew
    · exact .inl (hroom entry hold)
    · rw [List.mem_singleton.1 hnew]
      exact .inr rfl

theorem Safe.answer (h : Safe w) {call : ℕ} {key : Hash} {ad : Option ResolvedAd} {now : ℕ}
    (hcall : ∀ a, ad = some a → ∀ t ∈ (w.calls call).watched, ¬Concerns a t)
    (hoff : ∀ a, ad = some a → ∀ t ∈ w.off, ¬Concerns a t) :
    Safe (w.answer call key ad now) := by
  have hcontinue : Safe (w.continue call (.returned ad)) := h.continue fun a ha => hcall a ha
  refine ⟨hcontinue.off, fun entry hentry a ha => ?_, hcontinue.watched, hcontinue.answers⟩
  obtain hold | hnew := mem_cacheAnswer hentry
  · exact h.cached entry hold a ha
  · exact hoff a (hnew.symm.trans ha)

theorem Safe.resolve (h : Safe w) {call : ℕ} {candidates : List AdsKeywordCandidate} :
    Safe { w with calls := Function.update w.calls call ⟨.starting candidates, w.off⟩ } := by
  refine ⟨h.off, h.cached, fun other t ht => ?_, fun other ad had t ht => ?_⟩
  · by_cases heq : other = call
    · subst heq
      simp only [Function.update_self] at ht
      exact ht
    · simp only [Function.update_of_ne heq] at ht
      exact h.watched other t ht
  · by_cases heq : other = call
    · subst heq
      simp only [Function.update_self] at had
      cases had
    · simp only [Function.update_of_ne heq] at had ht
      exact h.answers other ad had t ht

theorem Safe.afterSnapshot (h : Safe w) {call : ℕ} {candidates : List AdsKeywordCandidate}
    {snapshot : AdsChainSnapshot} {now : ℕ} :
    Safe (Ads.afterSnapshot R w call candidates snapshot now) := by
  rw [Ads.afterSnapshot]
  split
  · rename_i entry hentry
    refine h.continue fun ad had t ht => ?_
    obtain ⟨hlookup, -⟩ := Option.filter_eq_some_iff.1 hentry
    obtain ⟨before, after, hsplit, -⟩ := List.lookup_eq_some_iff.1 hlookup
    have hmem : (R.keyOf candidates, entry) ∈ w.cache := by
      rw [hsplit]
      exact List.mem_append_right _ List.mem_cons_self
    -- The cached answer is not off, and the call watches only what is off.
    exact h.cached _ hmem ad had t (h.watched call t ht)
  · split_ifs
    · exact h.continue fun ad had => absurd had (Option.some_ne_none ad).symm
    · exact h.answer (fun ad had => absurd had (Option.some_ne_none ad).symm)
        fun ad had => absurd had (Option.some_ne_none ad).symm

theorem Safe.afterPositions (h : Safe w) {call : ℕ} {candidates : List AdsKeywordCandidate}
    {snapshot : AdsChainSnapshot} {now : ℕ} :
    Safe (Ads.afterPositions R w call candidates snapshot now) := by
  rw [Ads.afterPositions]
  split
  · exact h.continue fun ad had => absurd had (Option.some_ne_none ad).symm
  · split <;> exact h.continue fun ad had => absurd had (Option.some_ne_none ad).symm

theorem Safe.afterCampaigns (h : Safe w) {call : ℕ} {candidates : List AdsKeywordCandidate}
    {snapshot : AdsChainSnapshot} {now : ℕ} {positions : List StakePosition} :
    Safe (Ads.afterCampaigns R w call candidates snapshot now positions) := by
  rw [Ads.afterCampaigns]
  split
  · exact h.continue fun ad had => absurd had (Option.some_ne_none ad).symm
  · rename_i selected hselected
    refine h.continue fun ad had t ht => ?_
    obtain ⟨s, rfl, hresolved⟩ := Option.bind_eq_some_iff.1 had
    obtain ⟨hmem, hlive⟩ := selected_live hselected
    exact resolved_not_off hmem hlive hresolved (h.off t (h.watched call t ht))

/-- A transaction leaves off what it does not switch on. -/
theorem Safe.commit (h : Safe w) {transaction : Transaction} {db : AdsDatabase}
    {operations : ℕ → Operation} (hdb : transaction.apply w.db = some db) :
    Safe ({ w with db, operations }.switchOn transaction.switchesOn) := by
  refine ⟨fun t ht => ?_, fun entry hentry ad had t ht => ?_, fun call t ht => ?_,
    fun call ad had t ht => ?_⟩
  · obtain ⟨hmem, hne⟩ := List.mem_filter.1 ht
    exact isOff_apply hdb (of_decide_eq_true hne) (h.off t hmem)
  · exact h.cached entry hentry ad had t (List.mem_filter.1 ht).1
  · obtain ⟨hmem, hne⟩ := List.mem_filter.1 ht
    exact List.mem_filter.2 ⟨h.watched call t hmem, hne⟩
  · exact h.answers call ad had t (List.mem_filter.1 ht).1

/-- An operation that returns leaves an empty cache behind. -/
theorem Safe.finish (h : Safe w) {operations : ℕ → Operation} {target : Option Target} :
    Safe ({ w with cache := [], operations }.settle target) := by
  refine ⟨fun t ht => ?_, fun entry hentry => absurd hentry List.not_mem_nil, fun call t ht => ?_,
    h.answers⟩
  · rcases List.mem_append.1 ht with ht | ht
    · exact (List.mem_filter.1 ht).2
    · exact h.off t ht
  · exact List.mem_append_right _ (h.watched call t ht)

theorem Safe.project (h : Safe w) {positions : List StakePosition} :
    Safe { w with db := { w.db with positions } } := by
  refine ⟨fun t ht => ?_, h.cached, h.watched, h.answers⟩
  have hoff := h.off t ht
  cases t with
  | revision id => exact hoff
  | campaign id => exact hoff

/-- **One step** keeps answers from being off, unless it keeps one that is. -/
theorem Safe.step (h : Safe w) {e : Event} (hstep : Ads.step R w e = some w')
    (hkeeps : keepsLive w e = true) : Safe w' := by
  cases e with
  | resolve call query =>
    simp only [Ads.step] at hstep
    split at hstep
    · obtain rfl := Option.some.inj hstep
      exact h.resolve
    · cases hstep
  | snapshot call snapshot now =>
    simp only [Ads.step] at hstep
    split at hstep
    · obtain rfl := Option.some.inj hstep
      exact h.afterSnapshot
    · cases hstep
  | positions call =>
    simp only [Ads.step] at hstep
    split at hstep
    · obtain rfl := Option.some.inj hstep
      exact h.afterPositions
    · cases hstep
  | campaigns call =>
    simp only [Ads.step] at hstep
    split at hstep
    · obtain rfl := Option.some.inj hstep
      exact h.afterCampaigns
    · cases hstep
  | fill call =>
    simp only [Ads.step] at hstep
    split at hstep
    · -- the only event that can keep an answer that a committed change has overtaken
      rename_i key ad now hphase
      obtain rfl := Option.some.inj hstep
      refine h.answer (fun a ha => ?_) fun a ha => ?_
      · exact h.answers call a (by rw [hphase]; exact ha)
      · subst ha
        simpa [keepsLive, hphase, Phase.ad] using hkeeps
    · cases hstep
  | commit operation transaction =>
    simp only [Ads.step] at hstep
    split at hstep
    · rename_i db _ hdb
      obtain rfl := Option.some.inj hstep
      exact h.commit hdb
    · cases hstep
  | finish operation =>
    simp only [Ads.step] at hstep
    split at hstep
    · obtain rfl := Option.some.inj hstep
      exact h.finish
    · cases hstep
  | project positions =>
    obtain rfl := Option.some.inj hstep
    exact h.project

end

/-! ### Runs -/

/-- An instance that has just started. -/
def start (db : AdsDatabase) : World :=
  ⟨db, [], fun _ => ⟨.idle, []⟩, fun _ => .idle, []⟩

/-- The state after some events. -/
def run (R : Resolver) (w : World) : List Event → Option World
  | [] => some w
  | e :: events => (step R w e).bind fun w' => run R w' events

/-- In every step of the run, the answer that is put into the cache is not off. -/
def runKeepsLive (R : Resolver) (w : World) : List Event → Bool
  | [] => true
  | e :: events => keepsLive w e && (step R w e).all fun w' => runKeepsLive R w' events

theorem Safe.run {R : Resolver} {w w' : World} {events : List Event} (h : Safe w)
    (hrun : Ads.run R w events = some w') (hkeeps : runKeepsLive R w events = true) :
    Safe w' := by
  induction events generalizing w with
  | nil => exact Option.some.inj hrun ▸ h
  | cons e events ih =>
    obtain ⟨next, hnext, hrest⟩ := Option.bind_eq_some_iff.1 hrun
    rw [runKeepsLive, Bool.and_eq_true, hnext, Option.all_some] at hkeeps
    exact ih (h.step hnext hkeeps.1) hrest hkeeps.2

theorem safe_start (db : AdsDatabase) : Safe (start db) :=
  ⟨fun _ ht => absurd ht List.not_mem_nil, fun _ he => absurd he List.not_mem_nil,
    fun _ _ ht => absurd ht List.not_mem_nil, fun _ _ _ _ ht => absurd ht List.not_mem_nil⟩

/-- **Moderation takes effect**: in a run that keeps no answer that an operation has switched off
before, a call returns no ad that has been off since the call started. -/
theorem moderation_takes_effect (R : Resolver) (db : AdsDatabase) (events : List Event) (w : World)
    (hrun : run R (start db) events = some w) (hkeeps : runKeepsLive R (start db) events = true)
    (call : ℕ) (ad : ResolvedAd) (hreturned : (w.calls call).phase = .returned (some ad))
    (t : Target)
    (ht : t ∈ (w.calls call).watched) : ¬Concerns ad t :=
  ((safe_start db).run hrun hkeeps).answers call ad (by rw [hreturned]; rfl) t ht

/-- The functions on plain texts. -/
def plainResolver : Resolver := ⟨plain, fun text => plain.keccak256 (utf8Bytes text)⟩

/-- Two campaigns for the word `tea`; the second one bids less. -/
def sampleDatabase : AdsDatabase where
  campaigns := [⟨1, 1, "tea".toList, none, some 10⟩, ⟨2, 2, "tea".toList, none, some 20⟩]
  revisions :=
    [⟨10, 1, 1, ⟨[], [], []⟩, .approved, true⟩, ⟨20, 2, 1, ⟨[], [], []⟩, .approved, true⟩]
  reports := []
  positions := [sampleStake 1 8 7, sampleStake 2 5 6]

def sampleSnapshot : AdsChainSnapshot := ⟨.synced, 1, some 9⟩

/-- The ad of the second campaign. -/
def secondAd : ResolvedAd :=
  ⟨20, 2, 1, 9, idOf plain "tea".toList, "tea".toList, 2, 1, [], [], []⟩

/-- The first ad is suspended, and then a call is answered. -/
def suspendThenResolve : List Event :=
  [.commit 0 (.moderateRevision 10 .suspend), .finish 0, .resolve 1 "tea".toList,
    .snapshot 1 sampleSnapshot 0, .positions 1, .campaigns 1, .fill 1]

theorem moderation_takes_effect_suspended :
    ∃ w, run plainResolver (start sampleDatabase) suspendThenResolve = some w ∧
      (w.calls 1).phase = .returned (some secondAd) ∧ .revision 10 ∈ (w.calls 1).watched ∧
      ¬Concerns secondAd (.revision 10) := by
  have hcheck : (run plainResolver (start sampleDatabase) suspendThenResolve).any (fun w =>
      decide ((w.calls 1).phase.result = some secondAd) &&
        decide (.revision 10 ∈ (w.calls 1).watched)) = true := by
    decide
  obtain ⟨w, hrun, hw⟩ := (Option.any_eq_true _ _).1 hcheck
  rw [Bool.and_eq_true, decide_eq_true_eq, decide_eq_true_eq] at hw
  have hreturned := Phase.eq_returned hw.1
  exact ⟨w, hrun, hreturned, hw.2, moderation_takes_effect plainResolver sampleDatabase
    suspendThenResolve w hrun (by decide) 1 secondAd hreturned (.revision 10) hw.2⟩

/-- The ad of the first campaign. -/
def firstAd : ResolvedAd :=
  ⟨10, 1, 1, 9, idOf plain "tea".toList, "tea".toList, 1, 1, [], [], []⟩

/-- A call has read the campaigns when the ad is suspended, and keeps its answer afterwards. -/
def suspendDuringResolve : List Event :=
  [.resolve 1 "tea".toList, .snapshot 1 sampleSnapshot 0, .positions 1, .campaigns 1,
    .commit 0 (.moderateRevision 10 .suspend), .finish 0, .fill 1, .resolve 2 "tea".toList,
    .snapshot 2 sampleSnapshot 1]

/-- **A suspended ad is returned** to a call that started after the suspension had returned. -/
theorem suspended_ad_returned :
    ∃ w, run plainResolver (start sampleDatabase) suspendDuringResolve = some w ∧
      (w.calls 2).phase = .returned (some firstAd) ∧ .revision 10 ∈ (w.calls 2).watched ∧
      Concerns firstAd (.revision 10) := by
  have hcheck : (run plainResolver (start sampleDatabase) suspendDuringResolve).any (fun w =>
      decide ((w.calls 2).phase.result = some firstAd) &&
        decide (.revision 10 ∈ (w.calls 2).watched)) = true := by
    decide
  obtain ⟨w, hrun, hw⟩ := (Option.any_eq_true _ _).1 hcheck
  rw [Bool.and_eq_true, decide_eq_true_eq, decide_eq_true_eq] at hw
  exact ⟨w, hrun, Phase.eq_returned hw.1, hw.2, rfl⟩

end Ads

end PreCommunity
