import PreCommunity.Market.Admission
import PreCommunity.Market.Capture
import PreCommunity.Market.Charges

/-!
# One price for a bid

The rate of the contract is stored as a whole number, becomes a decimal text, and is read back where
a click is captured, where its price is converted later, and where a stake is admitted.

* `ExactUnits` : `formatUnits` writes exact decimals.
* `decimalE18_of_spells` : the text is read back to the rate.
* `one_pricing_formula` : all three bill the floor of the bid at the rate.
-/

namespace PreCommunity

namespace Market

open Concurrent Decimal

/-- `formatUnits` writes the exact decimal, without trailing zeros. -/
def External.ExactUnits (ext : External) : Prop := ∀ n d, Spells n d (ext.formatUnits n d)

/-- Functions whose `formatUnits` is exact. -/
def exactExternal : External where
  formatUnits := fixedText
  canonicalClickIp _ := none
  fingerprintHmac _ _ _ _ := 0

theorem exactUnits_exactExternal : exactExternal.ExactUnits := spells_fixedText

/-! ### Reading a text back -/

theorem isWhole_of_whole {text : Text} (h : Whole text) : isWhole text = true := by
  obtain ⟨hne, hdigits, hzero⟩ := h
  unfold isWhole
  rw [Bool.and_eq_true, List.all_eq_true]
  refine ⟨hdigits, ?_⟩
  cases text with
  | nil => exact absurd rfl hne
  | cons c rest =>
    by_cases hc : c = '0'
    · subst hc
      have hsingle := hzero rfl
      rw [List.cons.injEq] at hsingle
      rw [hsingle.2]
      rfl
    · split
      next h => cases h
      next h => exact absurd (List.cons.inj h).1 hc
      · rfl

/-- A whole part has no point. -/
theorem digits_ne_point {text : Text} (h : ∀ c ∈ text, c.isDigit = true) : ∀ c ∈ text, c ≠ '.' :=
  fun c hc heq => by
    have := h c hc
    rw [heq] at this
    cases this

theorem splitPoint_whole {whole : Text} (h : ∀ c ∈ whole, c ≠ '.') :
    splitPoint whole = (whole, none) := by
  unfold splitPoint
  rw [List.dropWhile_eq_nil_iff.2 fun c hc => decide_eq_true (h c hc)]

theorem splitPoint_join {whole fraction : Text} (h : ∀ c ∈ whole, c ≠ '.') :
    splitPoint (whole ++ '.' :: fraction) = (whole, some fraction) := by
  have hwhole : ∀ c ∈ whole, decide (c ≠ '.') = true := fun c hc => decide_eq_true (h c hc)
  have hdrop : (whole ++ '.' :: fraction).dropWhile (fun c => decide (c ≠ '.')) =
      '.' :: fraction := by
    rw [List.dropWhile_append_of_pos hwhole]
    rfl
  have htake : (whole ++ '.' :: fraction).takeWhile (fun c => decide (c ≠ '.')) = whole := by
    rw [List.takeWhile_append_of_pos hwhole]
    simp
  unfold splitPoint
  rw [hdrop, htake]

/-- **The text of a rate** is read back to the rate. -/
theorem decimalE18_of_spells {n : ℕ} {text : Text} (h : Spells n 18 text) :
    decimalE18 text = some n := by
  obtain ⟨whole, fraction, rfl, hwhole, hdigits, hlength, -, hvalue⟩ := h
  have hpoint := digits_ne_point hwhole.2.1
  unfold decimalE18 join
  by_cases hnone : fraction = []
  · subst hnone
    rw [if_pos rfl, List.append_nil, splitPoint_whole hpoint]
    simp only
    rw [if_pos (isWhole_of_whole hwhole), hvalue]
  · rw [if_neg hnone, splitPoint_join hpoint]
    simp only
    rw [if_pos, hvalue]
    refine ⟨isWhole_of_whole hwhole, List.all_eq_true.2 hdigits, ?_, hlength⟩
    exact List.length_pos_of_ne_nil hnone

/-- A bid at a rate. -/
theorem billPreRaw_formatUnits {ext : External} (hext : ext.ExactUnits) {bid rate : ℕ}
    (hbid : 0 < bid) (hrate : 0 < rate) :
    billPreRaw bid (ext.formatUnits rate 18) = .ok (bid * 10 ^ 30 / rate) :=
  billPreRaw_eq_ok.2 ⟨hbid, rate, decimalE18_of_spells (hext rate 18), hrate, rfl⟩

/-! ### The three places -/

/-- What a click is captured with. -/
theorem capture_amount {ext : External} (hext : ext.ExactUnits) {position : BillingPosition}
    (hbid : 0 < position.bidUsdRaw) (hrate : 0 < position.preUsdPriceE18)
    (hquoted : 0 < position.preUsdPriceQuotedAt) :
    ∃ c, capture ext position = .ok c ∧ c.amountPreRaw =
      some (position.bidUsdRaw * 10 ^ 30 / position.preUsdPriceE18) := by
  unfold capture BillingPosition.priceUsd
  rw [if_pos ⟨hrate, hquoted⟩]
  simp only
  rw [billPreRaw_formatUnits hext hbid hrate]
  exact ⟨_, rfl, rfl⟩

/-- The loop that writes the amounts of a page at a rate. -/
def convertPageAt (snapshot : IndexerState) (rate : ℕ) (priceUsd : Text) (quotedAt : ℕ)
    (clicks : List BillingClick) : Worker ChargePass Unit := do
  for click in clicks do
    match click.bidUsdRaw with
    | none => continue
    | some bidUsdRaw =>
      update fun db => db.updateClicks (fun row => row.id = click.id ∧ row.awaitsPrice)
        fun row => row.convert (bidUsdRaw * 10 ^ 30 / rate) priceUsd (quotedAt * 1000)
          snapshot.lastBlockNumber snapshot.lastBlockHash

/-- Loops with the same bodies. -/
theorem forIn_congr.{u} {m : Type → Type u} [Monad m] {α β : Type} {xs : List α} {b : β}
    {f g : α → β → m (ForInStep β)} (h : ∀ x ∈ xs, ∀ b, f x b = g x b) :
    forIn xs b f = forIn xs b g := by
  induction xs generalizing b with
  | nil => rfl
  | cons x xs ih =>
    obtain ⟨hx, hxs⟩ := List.forall_mem_cons.1 h
    simp only [List.forIn_cons, hx]
    refine congrArg _ (funext fun step => ?_)
    cases step with
    | done b => rfl
    | yield b => exact ih hxs

/-- What a price is converted to. -/
theorem convertPage_eq {ext : External} (hext : ext.ExactUnits) {snapshot : IndexerState}
    {rate quotedAt : ℕ} {clicks : List BillingClick} (hrate : 0 < rate)
    (hclicks : ∀ click ∈ clicks, click.bidUsdRaw ≠ some 0) :
    convertPage snapshot (ext.formatUnits rate 18) quotedAt clicks =
      convertPageAt snapshot rate (ext.formatUnits rate 18) quotedAt clicks := by
  unfold convertPage convertPageAt
  refine congrArg (· >>= _) (forIn_congr fun click hclick _ => ?_)
  cases hbid : click.bidUsdRaw with
  | none => rfl
  | some bid =>
    have hpositive : 0 < bid :=
      Nat.pos_of_ne_zero fun hzero => hclicks click hclick (hbid.trans (congrArg some hzero))
    simp only
    rw [billPreRaw_formatUnits hext hpositive hrate]

/-- What a stake is admitted by, once it has passed the other checks. -/
theorem admitStake_eq {ext : External} (hext : ext.ExactUnits) {isoText : ℕ → Text}
    {reads : StakeReads} {amount bid now : ℕ} (hbid : 0 < bid)
    (hchecked : checkStake reads amount now = .ok ()) :
    admitStake ext isoText reads amount bid now =
      if reads.amount + amount < bid * 10 ^ 30 / reads.preUsdPriceE18 then
        .error (.badRequest (coverageMessage ext (bid * 10 ^ 30 / reads.preUsdPriceE18)
          (reads.amount + amount) (priceWarning isoText now reads.preUsdPriceQuotedAt)))
      else .ok (priceWarning isoText now reads.preUsdPriceQuotedAt) := by
  have hrate : 0 < reads.preUsdPriceE18 := by
    unfold checkStake at hchecked
    simp only at hchecked
    split_ifs at hchecked with _ _ _ _ hprice
    exact Nat.pos_of_ne_zero fun hzero => hprice (.inl hzero)
  unfold admitStake
  rw [hchecked]
  simp only
  rw [billPreRaw_formatUnits hext hbid hrate]

/-- **A stake is refused** just when it could not pay for one click. -/
theorem prepare_stake_error {ext : External} (hext : ext.ExactUnits) {isoText : ℕ → Text}
    {tokenAddress contractAddress : Address} {snapshot : AdsChainSnapshot}
    {input : AdsStakeOperationInput} {reads : StakeReads} {now amount bid : ℕ}
    (hcontract : snapshot.contractAddress = some contractAddress)
    (hsynced : snapshot.status = .synced)
    (hamount : parseAdsStakeAmount input.amountRaw = .ok amount)
    (hbid : parseAdsBidUsd input.bidUsdRaw = .ok bid) (hpositive : 0 < bid)
    (hchecked : checkStake reads amount now = .ok ()) :
    (∃ e, prepare ext isoText tokenAddress snapshot .stake input reads now = .error e) ↔
      reads.amount + amount < bid * 10 ^ 30 / reads.preUsdPriceE18 := by
  unfold prepare
  rw [hcontract]
  simp only
  rw [if_neg (not_not.2 hsynced), hamount, hbid]
  simp only [bind, Except.bind]
  rw [admitStake_eq hext hpositive hchecked]
  by_cases hlow : reads.amount + amount < bid * 10 ^ 30 / reads.preUsdPriceE18
  · rw [if_pos hlow]
    exact ⟨fun _ => hlow, fun _ => ⟨_, rfl⟩⟩
  · rw [if_neg hlow]
    exact ⟨by rintro ⟨e, ⟨⟩⟩, fun h => absurd h hlow⟩

/-- A bid is positive. -/
theorem parseAdsBidUsd_pos {text : Option Text} {bid : ℕ} (h : parseAdsBidUsd text = .ok bid) :
    0 < bid := by
  unfold parseAdsBidUsd at h
  split at h
  · cases h
  next text =>
  split_ifs at h with hinvalid
  obtain rfl := Except.ok.inj h
  simp only [not_or, Bool.not_eq_true', Bool.not_eq_false] at hinvalid
  obtain ⟨hwhole, hhead, -⟩ := hinvalid
  unfold isWhole at hwhole
  rw [Bool.and_eq_true, List.all_eq_true] at hwhole
  cases text with
  | nil => cases hwhole.2
  | cons c rest =>
    -- the first digit counts
    have hdigit : '0'.toNat < c.toNat := by
      have hle : '0'.toNat ≤ c.toNat := by
        have := hwhole.1 c (.head _)
        simp only [Char.isDigit, Bool.and_eq_true, decide_eq_true_eq] at this
        exact this.1
      refine lt_of_le_of_ne hle fun heq => hhead ?_
      rw [List.head?_cons, Char.toNat_inj.1 heq]
    have hvalue : value (c :: rest) =
        10 ^ rest.length * (c.toNat - '0'.toNat) + value rest := by
      rw [← List.singleton_append, value_append]
      simp [value, Nat.ofDigitChars]
    rw [hvalue]
    exact Nat.add_pos_left (Nat.mul_pos (Nat.pow_pos (by decide)) (Nat.sub_pos_of_lt hdigit)) _

/-! ### The formula -/

/-- **One pricing formula everywhere.**  A click that is captured, a price that is converted later
and a stake that is admitted all bill the floor of the bid at the rate. -/
theorem one_pricing_formula {ext : External} (hext : ext.ExactUnits) :
    (∀ bid rate, 0 < bid → 0 < rate →
      billPreRaw bid (ext.formatUnits rate 18) = .ok (bid * 10 ^ 30 / rate)) ∧
    (∀ bid rate, 0 < rate → (bid * 10 ^ 30 / rate = 0 ↔ bid * 10 ^ 30 < rate)) ∧
    (∀ bid bid' rate, bid ≤ bid' → bid * 10 ^ 30 / rate ≤ bid' * 10 ^ 30 / rate) ∧
    (∀ bid rate rate', 0 < rate → rate ≤ rate' →
      bid * 10 ^ 30 / rate' ≤ bid * 10 ^ 30 / rate) ∧
    (∀ position, 0 < position.bidUsdRaw → 0 < position.preUsdPriceE18 →
      0 < position.preUsdPriceQuotedAt → ∃ c, capture ext position = .ok c ∧
        c.amountPreRaw = some (position.bidUsdRaw * 10 ^ 30 / position.preUsdPriceE18)) ∧
    (∀ snapshot rate quotedAt clicks, 0 < rate →
      (∀ click ∈ clicks, click.bidUsdRaw ≠ some 0) →
        convertPage snapshot (ext.formatUnits rate 18) quotedAt clicks =
          convertPageAt snapshot rate (ext.formatUnits rate 18) quotedAt clicks) ∧
    ∀ isoText tokenAddress contractAddress snapshot input reads now amount bid,
      snapshot.contractAddress = some contractAddress → snapshot.status = .synced →
      parseAdsStakeAmount input.amountRaw = .ok amount →
      parseAdsBidUsd input.bidUsdRaw = .ok bid → checkStake reads amount now = .ok () →
        ((∃ e, prepare ext isoText tokenAddress snapshot .stake input reads now = .error e) ↔
          reads.amount + amount < bid * 10 ^ 30 / reads.preUsdPriceE18) := by
  refine ⟨fun bid rate hbid hrate => billPreRaw_formatUnits hext hbid hrate,
    fun bid rate hrate => ?_, fun bid bid' rate hle => ?_, fun bid rate rate' hrate hle => ?_,
    fun position hbid hrate hquoted => capture_amount hext hbid hrate hquoted,
    fun snapshot rate quotedAt clicks hrate hclicks => convertPage_eq hext hrate hclicks, ?_⟩
  · rw [Nat.div_eq_zero_iff]
    exact ⟨fun h => h.resolve_left hrate.ne', .inr⟩
  · exact Nat.div_le_div_right (Nat.mul_le_mul_right _ hle)
  · exact Nat.div_le_div_left hle hrate
  · intro isoText tokenAddress contractAddress snapshot input reads now amount bid hcontract
      hsynced hamount hbid hchecked
    exact prepare_stake_error hext hcontract hsynced hamount hbid (parseAdsBidUsd_pos hbid)
      hchecked

theorem one_pricing_formula_sample :
    billPreRaw 250000 (exactExternal.formatUnits (25 * 10 ^ 16) 18) = .ok (10 ^ 18) := by
  have hbill := (one_pricing_formula exactUnits_exactExternal).1 250000 (25 * 10 ^ 16) (by decide)
    (by decide)
  exact hbill

end Market

end PreCommunity
