import Mathlib.Data.List.Chain
import PreCommunity.Escrow.Replay

/-!
# The accounts of a monthly goal

The contract keeps accounts of a monthly goal: what its periods have brought in, what they have
granted, and what is carried over.  The tables follow these accounts.

* `Accounts` : the accounts in the contract, an abstract model.
* `Emits`, `Stream` : the events of the contract, and what they do to the accounts.
* `Ledger` : the book of the goal agrees with the accounts.
* `ledger_emits` : every step of the contract keeps the agreement.
* `monthly_accounting` : the tables after any stream.
-/

namespace PreCommunity

namespace Escrow

open Store Concurrent

/-! ### Amounts -/

namespace Amounts

variable (a b : Amounts)

@[simp] theorem set_get_self (asset : FundingAsset) : a.set asset (a.get asset) = a := by
  cases asset <;> rfl

theorem get_addRaw (asset other : FundingAsset) (n : ℕ) :
    (a.addRaw asset n).get other = a.get other + if other = asset then n else 0 := by
  cases asset <;> cases other <;> rfl

theorem eq_or_eq {x y : FundingAsset} (h : x ≠ y) (asset : FundingAsset) :
    asset = x ∨ asset = y := by
  cases x <;> cases y <;> cases asset <;> simp_all

/-- Two tokens are all tokens. -/
theorem set_set_eq {x y : FundingAsset} (h : x ≠ y) (m n : ℕ) :
    (a.set x m).set y n = (b.set x m).set y n := by
  cases x <;> cases y <;> first | rfl | exact absurd rfl h

end Amounts

/-! ### The contract -/

/-- The accounts of a monthly goal in the contract. -/
structure Accounts where
  /-- The settlements so far. -/
  settled : ℕ
  /-- The last settlement was the final one. -/
  final : Bool
  /-- When the open period began. -/
  opensAt : ℕ
  /-- The contributions to the open period. -/
  contributed : Amounts
  /-- What the last settlement has carried over. -/
  carry : Amounts

/-- One token of a settlement. -/
structure TokenSettlement where
  token : Address
  asset : FundingAsset
  recipientEntitlementAdded : ℕ
  carryOut : ℕ

namespace Accounts

variable (s : Accounts)

/-- The accounts before the first event of a monthly goal's first period. -/
def first (opensAt : ℕ) : Accounts := ⟨0, false, opensAt, .zero, .zero⟩

/-- A contribution. -/
def contribute (asset : FundingAsset) (amount : ℕ) : Accounts :=
  { s with contributed := s.contributed.addRaw asset amount }

/-- A settlement of both tokens. -/
def settle (periodEnd : ℕ) (final : Bool) (x y : TokenSettlement) : Accounts where
  settled := s.settled + 1
  final := final
  opensAt := periodEnd
  contributed := .zero
  carry := (s.carry.set x.asset x.carryOut).set y.asset y.carryOut

/-- A token is settled correctly: what came in is granted or carried over. -/
def Balances (config : Deployment) (x : TokenSettlement) : Prop :=
  assetFor config x.token = .ok x.asset ∧
    x.recipientEntitlementAdded + x.carryOut = s.contributed.get x.asset + s.carry.get x.asset

/-- The event of a token's settlement. -/
def tokenSettled (goalId : Hash) (x : TokenSettlement) : EscrowEvent :=
  .monthlyTokenSettled goalId (s.settled + 1) x.token (s.contributed.get x.asset)
    (s.carry.get x.asset) x.recipientEntitlementAdded x.carryOut

end Accounts

/-- What the contract emits in one step, and the accounts after it. -/
inductive Emits (config : Deployment) (goalId : Hash) (s : Accounts) :
    List DecodedEscrowEvent → Accounts → Prop where
  | contribution {event : DecodedEscrowEvent} {contributor token : Address} {amount : ℕ}
      {profileVisible : Bool} {asset : FundingAsset} :
      event.event = .contributionReceived goalId contributor token amount profileVisible →
      assetFor config token = .ok asset →
      Emits config goalId s [event] (s.contribute asset amount)
  | policy {event : DecodedEscrowEvent} {previousPolicy newPolicy : ℕ} :
      event.event = .monthlySurplusPolicyUpdated goalId previousPolicy newPolicy →
      Emits config goalId s [event] s
  | stop {event : DecodedEscrowEvent} {periodEnd : ℕ} :
      event.event = .monthlyGoalStopRequested goalId periodEnd → Emits config goalId s [event] s
  /-- A settlement, with its tokens in either order. -/
  | settlement {period first second : DecodedEscrowEvent} {periodEnd surplusPolicy : ℕ}
      {final : Bool} {x y : TokenSettlement} : s.final = false →
      period.event = .monthlyPeriodSettled goalId (s.settled + 1) s.opensAt periodEnd
        surplusPolicy final →
      first.event = s.tokenSettled goalId x → second.event = s.tokenSettled goalId y →
      s.Balances config x → s.Balances config y → x.asset ≠ y.asset →
      Emits config goalId s [period, first, second] (s.settle periodEnd final x y)

/-- What the contract emits in any number of steps. -/
inductive Stream (config : Deployment) (goalId : Hash) (s : Accounts) :
    List DecodedEscrowEvent → Accounts → Prop where
  | nil : Stream config goalId s [] s
  | step {s' s'' : Accounts} {events block : List DecodedEscrowEvent} :
      Stream config goalId s events s' → Emits config goalId s' block s'' →
      Stream config goalId s (events ++ block) s''

/-! ### The book -/

/-- The next period begins when the period ends, with what it carries over. -/
def PeriodFacts.Continues (row next : PeriodFacts) : Prop :=
  next.startsAt = row.endsAt ∧ next.carryInRaw = row.carryOutRaw

/-- The open period. -/
structure PeriodFacts.IsOpen (s : Accounts) (row : PeriodFacts) : Prop where
  index : row.periodIndex = s.settled + 1
  settledAt : row.settledAt = none
  contributed : row.contributedRaw = s.contributed
  carryIn : row.carryInRaw = s.carry
  granted : row.recipientEntitlementAddedRaw = .zero
  opensAt : date s.opensAt = .ok row.startsAt

/-- The periods: the settled ones, and the open one unless the last settlement was final. -/
structure Periods (s : Accounts) (closed opened : List PeriodFacts) : Prop where
  indices : closed.map (·.periodIndex) = List.range' 1 s.settled
  settledAt : ∀ row ∈ closed, row.settledAt.isSome = true
  opened : if s.final then opened = [] else ∃ row, opened = [row] ∧ row.IsOpen s
  left : s.final = true → ∀ row ∈ closed.getLast?, row.carryOutRaw = s.carry

/-- **The book agrees with the accounts.** -/
structure Ledger (s : Accounts) (b : Book) : Prop where
  monthly : b.facts.goalType = .monthly
  settled : b.facts.monthlyPeriodsSettled = s.settled
  carry : b.facts.carryRaw = s.carry
  periods : ∃ closed opened, b.periods = closed ++ opened ∧ Periods s closed opened
  linked : b.periods.IsChain PeriodFacts.Continues
  granted : ∀ asset, b.facts.recipientEntitlementRaw.get asset =
    (b.periods.map fun row => row.recipientEntitlementAddedRaw.get asset).sum
  balance : ∀ asset, b.contributed asset =
    b.facts.recipientEntitlementRaw.get asset + s.carry.get asset + s.contributed.get asset

section

variable {config : Deployment} {s s' : Accounts} {b b' : Book} {goalId : Hash}
  {event : DecodedEscrowEvent} {closed opened : List PeriodFacts} {row : PeriodFacts}

/-! ### Lists of periods -/

theorem Periods.lt (h : Periods s closed opened) :
    ∀ row ∈ closed, row.periodIndex < s.settled + 1 := by
  intro row hrow
  have hmem : row.periodIndex ∈ List.range' 1 s.settled :=
    h.indices ▸ List.mem_map_of_mem hrow
  have hbound := List.mem_range'_1.1 hmem
  omega

/-- An update of the periods with an index that no settled period has. -/
theorem updateWhere_closed {p : PeriodFacts → Bool} {f : PeriodFacts → PeriodFacts}
    (hp : ∀ row ∈ closed, p row = false) (rows : List PeriodFacts) :
    updateWhere p f (closed ++ rows) = closed ++ updateWhere p f rows := by
  rw [updateWhere_append, updateWhere_eq_self hp]

theorem updateWhere_one {p : PeriodFacts → Bool} {f : PeriodFacts → PeriodFacts}
    (hp : p row = true) : updateWhere p f [row] = [f row] :=
  congrArg (fun x => [x]) (if_pos hp)

theorem contributed_concat (b : Book) (x : ContributionFacts) (facts : GoalFacts)
    (periods : List PeriodFacts) (asset : FundingAsset) :
    Book.contributed ⟨facts, periods, b.contributions ++ [x]⟩ asset =
      b.contributed asset + if x.asset = asset then x.amountRaw else 0 := by
  rw [Book.contributed, total_append, total_cons, total_nil, Nat.add_zero]
  by_cases hx : x.asset = asset
  · rw [if_pos (decide_eq_true hx), if_pos hx]
    rfl
  · rw [if_neg hx, if_neg (by simpa using hx)]
    rfl

/-- The last period is replaced by one that begins as it did. -/
theorem isChain_replace {row' : PeriodFacts}
    (h : (closed ++ [row]).IsChain PeriodFacts.Continues) (hstarts : row'.startsAt = row.startsAt)
    (hcarry : row'.carryInRaw = row.carryInRaw) :
    (closed ++ [row']).IsChain PeriodFacts.Continues := by
  obtain ⟨hclosed, -, hlast⟩ := List.isChain_append.1 h
  refine hclosed.append (List.isChain_singleton _) fun x hx y hy => ?_
  obtain rfl := Option.some.inj hy
  have hrow := hlast x hx row rfl
  exact ⟨hstarts.trans hrow.1, hcarry.trans hrow.2⟩

theorem sum_concat (asset : FundingAsset) (rows : List PeriodFacts) (row : PeriodFacts) :
    ((rows ++ [row]).map fun row => row.recipientEntitlementAddedRaw.get asset).sum =
      (rows.map fun row => row.recipientEntitlementAddedRaw.get asset).sum +
        row.recipientEntitlementAddedRaw.get asset := by
  rw [List.map_append, List.sum_append, List.map_singleton, List.sum_singleton]

/-- The open period, while there is one. -/
theorem Ledger.openPeriod (hl : Ledger s b) (hfinal : s.final = false) :
    ∃ closed row, b.periods = closed ++ [row] ∧ row.IsOpen s ∧ Periods s closed [row] := by
  obtain ⟨closed, opened, hperiods, hp⟩ := hl.periods
  obtain ⟨row, rfl, hrow⟩ : ∃ row, opened = [row] ∧ row.IsOpen s := by
    have hopened := hp.opened
    rwa [hfinal, if_neg Bool.false_ne_true] at hopened
  exact ⟨closed, row, hperiods, hrow, hp⟩

/-- There is no open period after the final settlement. -/
theorem Ledger.final_of_none (hl : Ledger s b) {found : PeriodFacts}
    (hfound : b.period? (s.settled + 1) = some found) : s.final = false := by
  by_contra hfinal
  have hfinal := Bool.eq_true_of_not_eq_false hfinal
  obtain ⟨closed, opened, hperiods, hp⟩ := hl.periods
  have hopened := hp.opened
  rw [hfinal, if_pos rfl] at hopened
  have hmem := List.mem_of_find?_eq_some hfound
  have hindex := List.find?_some hfound
  rw [hperiods, hopened, List.append_nil] at hmem
  exact Nat.ne_of_lt (hp.lt found hmem) (of_decide_eq_true hindex)

/-- The open period changes, and begins as it did. -/
theorem Ledger.reopen (hl : Ledger s b) (s' : Accounts) (row' : PeriodFacts)
    (hfinal : s.final = false) (hperiods : b.periods = closed ++ [row])
    (hp : Periods s closed [row]) (hrow : row.IsOpen s) (hrow' : row'.IsOpen s')
    (hstarts : row'.startsAt = row.startsAt) (hsettled : s'.settled = s.settled)
    (hfinal' : s'.final = s.final) (hcarry : s'.carry = s.carry)
    (hperiods' : b'.periods = closed ++ [row']) (hmonthly : b'.facts.goalType = .monthly)
    (hcount : b'.facts.monthlyPeriodsSettled = b.facts.monthlyPeriodsSettled)
    (hcarry' : b'.facts.carryRaw = b.facts.carryRaw)
    (hgranted : b'.facts.recipientEntitlementRaw = b.facts.recipientEntitlementRaw)
    (hbalance : ∀ asset, b'.contributed asset + s.contributed.get asset =
      b.contributed asset + s'.contributed.get asset) : Ledger s' b' where
  monthly := hmonthly
  settled := (hcount.trans hl.settled).trans hsettled.symm
  carry := (hcarry'.trans hl.carry).trans hcarry.symm
  periods := by
    refine ⟨closed, [row'], hperiods', ?_, hp.settledAt, ?_, fun hyes => ?_⟩
    · rw [hsettled]
      exact hp.indices
    · rw [hfinal', hfinal, if_neg Bool.false_ne_true]
      exact ⟨row', rfl, hrow'⟩
    · rw [hfinal', hfinal] at hyes
      cases hyes
  linked := by
    have hlinked := hl.linked
    rw [hperiods] at hlinked
    rw [hperiods']
    exact isChain_replace hlinked hstarts (hrow'.carryIn.trans (hcarry.trans hrow.carryIn.symm))
  granted asset := by
    have hsum := hl.granted asset
    rw [hperiods, sum_concat, hrow.granted] at hsum
    rw [hperiods', sum_concat, hrow'.granted, hgranted]
    exact hsum
  balance asset := by
    have hbefore := hl.balance asset
    have hafter := hbalance asset
    rw [hgranted, hcarry]
    omega

/-! ### Steps without a settlement -/

theorem ledger_contribution (hl : Ledger s b) {contributor token : Address} {amount : ℕ}
    {profileVisible : Bool} {asset : FundingAsset}
    (hevent : event.event = .contributionReceived goalId contributor token amount profileVisible)
    (hasset : assetFor config token = .ok asset) (h : b.apply config event = .ok b') :
    Ledger (s.contribute asset amount) b' := by
  simp only [Book.apply, hevent, Book.contributionReceived, bind_ok, hasset, Except.ok.injEq,
    exists_eq_left'] at h
  obtain ⟨confirmedAt, -, h⟩ := h
  rw [if_pos hl.monthly] at h
  split at h
  · exact absurd h (by simp [throw_ok])
  rename_i found hfound
  rw [hl.settled] at h hfound
  obtain rfl := pure_ok.1 h
  have hfinal := hl.final_of_none (b := b) hfound
  obtain ⟨closed, row, hperiods, hrow, hp⟩ := hl.openPeriod hfinal
  refine hl.reopen (s.contribute asset amount) (row.contribute asset amount) hfinal
    hperiods hp hrow ?_ rfl rfl rfl rfl ?_ hl.monthly rfl rfl rfl fun other => ?_
  · exact ⟨hrow.index, hrow.settledAt, by
      rw [PeriodFacts.contribute, hrow.contributed]
      rfl, hrow.carryIn, hrow.granted, hrow.opensAt⟩
  · show updateWhere _ _ b.periods = _
    rw [hperiods, updateWhere_closed, updateWhere_one]
    · exact decide_eq_true hrow.index
    · exact fun row hmem => decide_eq_false (Nat.ne_of_lt (hp.lt row hmem))
  · show Book.contributed ⟨b.facts, _, b.contributions ++ [_]⟩ other + _ = _
    rw [contributed_concat, Accounts.contribute, Amounts.get_addRaw]
    simp only [Book.contribution, eq_comm (a := asset)]
    omega

/-- The open period has another policy, and no other period has. -/
theorem ledger_policy (hl : Ledger s b) {previousPolicy newPolicy : ℕ}
    (hevent : event.event = .monthlySurplusPolicyUpdated goalId previousPolicy newPolicy)
    (h : b.apply config event = .ok b') : Ledger s b' := by
  simp only [Book.apply, hevent, Book.surplusPolicyUpdated, bind_ok, pure_ok] at h
  obtain ⟨policy, -, rfl⟩ := h
  have hclosed : ∀ {closed opened : List PeriodFacts}, Periods s closed opened → ∀ row ∈ closed,
      decide (row.periodIndex = b.facts.monthlyPeriodsSettled + 1 ∧ row.settledAt = none) =
        false := by
    intro closed opened hp row hrow
    have hlt := hp.lt row hrow
    rw [hl.settled]
    exact decide_eq_false fun h => Nat.ne_of_lt hlt h.1
  cases hfinal : s.final with
  | false =>
    obtain ⟨closed, row, hperiods, hrow, hp⟩ := hl.openPeriod hfinal
    refine hl.reopen s (row.withPolicy policy) hfinal hperiods hp hrow
      ⟨hrow.index, hrow.settledAt, hrow.contributed, hrow.carryIn, hrow.granted, hrow.opensAt⟩ rfl
      rfl rfl rfl ?_ hl.monthly rfl rfl rfl fun _ => rfl
    show updateWhere _ _ b.periods = _
    rw [hperiods, updateWhere_closed (hclosed hp), updateWhere_one]
    rw [hl.settled]
    exact decide_eq_true ⟨hrow.index, hrow.settledAt⟩
  | true =>
    obtain ⟨closed, opened, hperiods, hp⟩ := hl.periods
    have hnone : opened = [] := by
      have hopened := hp.opened
      rwa [hfinal, if_pos rfl] at hopened
    have hsame : updateWhere (fun row => decide (row.periodIndex =
        b.facts.monthlyPeriodsSettled + 1 ∧ row.settledAt = none)) (·.withPolicy policy) b.periods =
        b.periods := by
      refine updateWhere_eq_self fun row hrow => hclosed hp row ?_
      rwa [hperiods, hnone, List.append_nil] at hrow
    unfold Book.mapUnsettled
    dsimp only
    rw [hsame]
    exact ⟨hl.monthly, hl.settled, hl.carry, hl.periods, hl.linked, hl.granted, hl.balance⟩

theorem ledger_stop (hl : Ledger s b) {periodEnd : ℕ}
    (hevent : event.event = .monthlyGoalStopRequested goalId periodEnd)
    (h : b.apply config event = .ok b') : Ledger s b' := by
  simp only [Book.apply, hevent, Book.dated, bind_ok, pure_ok] at h
  obtain ⟨occurredAt, -, rfl⟩ := h
  exact ⟨hl.monthly, hl.settled, hl.carry, hl.periods, hl.linked, hl.granted, hl.balance⟩

/-! ### Settlements -/

/-- The book in the middle of a settlement: the period `p` is being settled, and `next` is the
period after it, if there is one. -/
structure Settling (b : Book) (n : ℕ) (closed : List PeriodFacts) (p : PeriodFacts)
    (next : List PeriodFacts) : Prop where
  periods : b.periods = closed ++ p :: next
  closed_lt : ∀ row ∈ closed, row.periodIndex < n
  index : p.periodIndex = n
  next_index : ∀ row ∈ next, row.periodIndex = n + 1 ∧ row.settledAt = none

/-- The open period is settled, and the next one opens. -/
theorem settling_period {periodEnd surplusPolicy : ℕ} {final : Bool} (hl : Ledger s b)
    (hfinal : s.final = false)
    (hevent : event.event = .monthlyPeriodSettled goalId (s.settled + 1) s.opensAt periodEnd
      surplusPolicy final) (h : b.apply config event = .ok b') :
    ∃ closed row startsAt endsAt occurredAt policy next deadline, b.periods = closed ++ [row] ∧
      row.IsOpen s ∧ Periods s closed [row] ∧ date s.opensAt = .ok startsAt ∧
      date periodEnd = .ok endsAt ∧
      Settling b' (s.settled + 1) closed (row.settle event startsAt endsAt policy final occurredAt)
        next ∧
      (if final then next = []
        else ∃ nextEnd, next = [.new (s.settled + 2) endsAt nextEnd policy]) ∧
      b'.facts = b.facts.settled (s.settled + 1) deadline ∧ b'.contributions = b.contributions := by
  obtain ⟨closed, row, hperiods, hrow, hp⟩ := hl.openPeriod hfinal
  simp only [Book.apply, hevent, Book.periodSettled] at h
  split at h
  · exact absurd h (by simp [throw_ok])
  simp only [guard_ok, bind_ok] at h
  obtain ⟨-, policy, -, startsAt, hstarts, endsAt, hends, occurredAt, -, nextEnd, -, h⟩ := h
  have hclosed : ∀ row ∈ closed, decide (row.periodIndex = s.settled + 1) = false := fun row hmem =>
    decide_eq_false (Nat.ne_of_lt (hp.lt row hmem))
  have hany : (b.periods.any fun row => decide (row.periodIndex = s.settled + 1)) = true := by
    rw [hperiods]
    exact List.any_eq_true.2 ⟨row, by simp, decide_eq_true hrow.index⟩
  -- the open row is there, so the upsert of the settled period updates it
  have hfirst : upsert (fun row' => decide (row'.periodIndex = s.settled + 1))
      (·.settle event startsAt endsAt policy final occurredAt)
      ((PeriodFacts.new (s.settled + 1) startsAt endsAt policy).settle event startsAt endsAt policy
        final occurredAt) b.periods =
      closed ++ [row.settle event startsAt endsAt policy final occurredAt] := by
    rw [upsert, if_pos hany, hperiods, updateWhere_closed hclosed,
      updateWhere_one (decide_eq_true hrow.index)]
  cases final with
  | true =>
    simp only [if_true, pure_ok] at h
    subst h
    refine ⟨closed, row, startsAt, endsAt, occurredAt, policy, [], _, hperiods, hrow, hp, hstarts,
      hends, ⟨hfirst, hp.lt, hrow.index, fun row hrow => absurd hrow List.not_mem_nil⟩, rfl, rfl,
      rfl⟩
  | false =>
    simp only [Bool.false_eq_true, if_false, pure_ok] at h
    subst h
    -- and the next one is not, so its upsert creates it
    have hnone : ((closed ++ [row.settle event startsAt endsAt policy false occurredAt]).any
        fun row => decide (row.periodIndex = s.settled + 2)) = false := by
      rw [List.any_eq_false]
      intro other hmem hindex
      have hindex := of_decide_eq_true hindex
      rcases List.mem_append.1 hmem with hold | hnew
      · have hlt := hp.lt other hold
        omega
      · rw [List.mem_singleton.1 hnew] at hindex
        have hself : row.periodIndex = s.settled + 2 := hindex
        have hold := hrow.index
        omega
    refine ⟨closed, row, startsAt, endsAt, occurredAt, policy, [.new (s.settled + 2) endsAt nextEnd
      policy], _, hperiods, hrow, hp, hstarts, hends, ⟨?_, hp.lt, hrow.index, ?_⟩, ⟨nextEnd, rfl⟩,
      rfl, rfl⟩
    · show upsert _ _ _ (upsert _ _ _ b.periods) = _
      rw [upsert, if_neg]
      · exact (congrArg (· ++ [_]) hfirst).trans (List.append_assoc _ _ _)
      · exact fun hany' => Bool.false_ne_true (hnone.symm.trans (hfirst ▸ hany'))
    · intro other hother
      rw [List.mem_singleton.1 hother]
      exact ⟨rfl, rfl⟩

/-- A token of the period is settled, and its surplus is carried over. -/
theorem settling_token {n : ℕ} {p : PeriodFacts} {next : List PeriodFacts}
    {token : Address} {asset : FundingAsset} {contributed carryIn added carryOut : ℕ}
    (hb : Settling b n closed p next)
    (hevent : event.event = .monthlyTokenSettled goalId n token contributed carryIn added carryOut)
    (hasset : assetFor config token = .ok asset) (h : b.apply config event = .ok b') :
    Settling b' n closed (p.settleToken asset contributed carryIn added carryOut)
        (next.map (·.withCarryIn asset carryOut)) ∧
      b'.facts = b.facts.settleToken asset added carryOut ∧ b'.contributions = b.contributions := by
  simp only [Book.apply, hevent, Book.tokenSettled, hasset, guard_ok, bind_ok, pure_ok,
    Except.ok.injEq, exists_eq_left'] at h
  obtain ⟨-, rfl⟩ := h
  refine ⟨⟨?_, hb.closed_lt, hb.index, ?_⟩, rfl, rfl⟩
  · -- neither the settled periods nor the one being settled are the next one
    have hbefore : ∀ row ∈ closed ++ [p.settleToken asset contributed carryIn added carryOut],
        decide (row.periodIndex = n + 1 ∧ row.settledAt = none) = false := by
      intro row hrow
      have hle : row.periodIndex ≤ n := by
        rcases List.mem_append.1 hrow with hold | hnew
        · exact Nat.le_of_lt (hb.closed_lt row hold)
        · rw [List.mem_singleton.1 hnew]
          exact Nat.le_of_eq hb.index
      exact decide_eq_false fun h => by omega
    have hnot : ∀ row ∈ next, decide (row.periodIndex = n) = false := by
      intro row hrow
      have hindex := (hb.next_index row hrow).1
      exact decide_eq_false (by omega)
    have hall : updateWhere (fun row => decide (row.periodIndex = n + 1 ∧ row.settledAt = none))
        (·.withCarryIn asset carryOut) next = next.map (·.withCarryIn asset carryOut) :=
      List.map_congr_left fun row hrow => if_pos (decide_eq_true (hb.next_index row hrow))
    have hinner : updateWhere (fun row => decide (row.periodIndex = n))
        (·.settleToken asset contributed carryIn added carryOut) b.periods =
        (closed ++ [p.settleToken asset contributed carryIn added carryOut]) ++ next := by
      rw [hb.periods, updateWhere_closed fun row hrow =>
        decide_eq_false (Nat.ne_of_lt (hb.closed_lt row hrow)), ← List.singleton_append,
        updateWhere_append, updateWhere_one (decide_eq_true hb.index), updateWhere_eq_self hnot,
        List.append_assoc]
    show updateWhere _ _ (updateWhere _ _ b.periods) = _
    rw [hinner, updateWhere_closed hbefore, hall, List.append_assoc]
    rfl
  · intro row hrow
    obtain ⟨old, hold, rfl⟩ := List.mem_map.1 hrow
    exact hb.next_index old hold

/-- **A settlement** grants or carries over what has come in. -/
theorem ledger_settlement {period first second : DecodedEscrowEvent} {periodEnd surplusPolicy : ℕ}
    {final : Bool} {x y : TokenSettlement} {b₁ b₂ b₃ : Book} (hl : Ledger s b)
    (hfinal : s.final = false)
    (hperiod : period.event = .monthlyPeriodSettled goalId (s.settled + 1) s.opensAt periodEnd
      surplusPolicy final)
    (hfirst : first.event = s.tokenSettled goalId x)
    (hsecond : second.event = s.tokenSettled goalId y) (hx : s.Balances config x)
    (hy : s.Balances config y) (hne : x.asset ≠ y.asset)
    (h₁ : b.apply config period = .ok b₁) (h₂ : b₁.apply config first = .ok b₂)
    (h₃ : b₂.apply config second = .ok b₃) : Ledger (s.settle periodEnd final x y) b₃ := by
  obtain ⟨closed, row, startsAt, endsAt, occurredAt, policy, next, deadline, hperiods, hrow, hp,
    hstarts, hends, hb₁, hnext, hfacts₁, hcontributions₁⟩ := settling_period hl hfinal hperiod h₁
  obtain ⟨hb₂, hfacts₂, hcontributions₂⟩ := settling_token hb₁ hfirst hx.1 h₂
  obtain ⟨hb₃, hfacts₃, hcontributions₃⟩ := settling_token hb₂ hsecond hy.1 h₃
  rw [hfacts₂, hfacts₁] at hfacts₃
  rw [hcontributions₂, hcontributions₁] at hcontributions₃
  -- the settled period
  obtain ⟨settled, hsettled⟩ : ∃ p : PeriodFacts, p =
    ((row.settle period startsAt endsAt policy final occurredAt).settleToken x.asset
      (s.contributed.get x.asset) (s.carry.get x.asset) x.recipientEntitlementAdded
      x.carryOut).settleToken y.asset (s.contributed.get y.asset) (s.carry.get y.asset)
      y.recipientEntitlementAdded y.carryOut := ⟨_, rfl⟩
  have hstartsAt : settled.startsAt = row.startsAt := by
    rw [hsettled]
    exact Except.ok.inj (hstarts.symm.trans hrow.opensAt)
  have hcarryIn : settled.carryInRaw = row.carryInRaw := by
    rw [hsettled, hrow.carryIn]
    show ((row.carryInRaw.set x.asset _).set y.asset _) = s.carry
    rw [hrow.carryIn, Amounts.set_get_self, Amounts.set_get_self]
  have hcarryOut : settled.carryOutRaw = (s.settle periodEnd final x y).carry := by
    rw [hsettled]
    exact Amounts.set_set_eq _ _ hne _ _
  have hadded : ∀ asset, settled.recipientEntitlementAddedRaw.get asset =
      if asset = x.asset then x.recipientEntitlementAdded else y.recipientEntitlementAdded := by
    intro asset
    have heq : settled.recipientEntitlementAddedRaw =
        (Amounts.zero.set x.asset x.recipientEntitlementAdded).set y.asset
          y.recipientEntitlementAdded := by
      rw [hsettled]
      exact Amounts.set_set_eq _ _ hne _ _
    rw [heq, Amounts.get_set, Amounts.get_set]
    rcases Amounts.eq_or_eq hne asset with rfl | rfl
    · rw [if_neg hne, if_pos rfl, if_pos rfl]
    · rw [if_pos rfl, if_neg hne.symm]
  rw [← hsettled] at hb₃
  -- the period after it
  have hopened : ∀ other ∈ (next.map (·.withCarryIn x.asset x.carryOut)).map
      (·.withCarryIn y.asset y.carryOut), other.IsOpen (s.settle periodEnd final x y) ∧
        other.startsAt = endsAt := by
    intro other hother
    obtain ⟨old, hold, rfl⟩ := List.mem_map.1 hother
    obtain ⟨older, holder, rfl⟩ := List.mem_map.1 hold
    cases final with
    | true =>
      rw [show next = [] from hnext] at holder
      exact absurd holder List.not_mem_nil
    | false =>
      obtain ⟨nextEnd, heq⟩ := hnext
      rw [heq] at holder
      obtain rfl := List.mem_singleton.1 holder
      exact ⟨⟨rfl, rfl, rfl, Amounts.set_set_eq _ _ hne _ _, rfl, hends⟩, rfl⟩
  have hcount : if final then
      (next.map (·.withCarryIn x.asset x.carryOut)).map (·.withCarryIn y.asset y.carryOut) = []
      else ∃ other, (next.map (·.withCarryIn x.asset x.carryOut)).map
        (·.withCarryIn y.asset y.carryOut) = [other] := by
    cases final with
    | true =>
      rw [show next = [] from hnext]
      rfl
    | false =>
      obtain ⟨nextEnd, heq⟩ := hnext
      rw [heq]
      exact ⟨_, rfl⟩
  obtain ⟨rest, hrest⟩ : ∃ rest, rest = (next.map (·.withCarryIn x.asset x.carryOut)).map
    (·.withCarryIn y.asset y.carryOut) := ⟨_, rfl⟩
  rw [← hrest] at hb₃ hopened hcount
  have hperiods₃ : b₃.periods = (closed ++ [settled]) ++ rest := by
    rw [hb₃.periods, List.append_assoc]
    rfl
  exact
    { monthly := by
        rw [hfacts₃]
        exact hl.monthly
      settled := by
        rw [hfacts₃]
        rfl
      carry := by
        rw [hfacts₃]
        exact Amounts.set_set_eq _ _ hne _ _
      periods := by
        refine ⟨closed ++ [settled], rest, hperiods₃, ?_, ?_, ?_, ?_⟩
        · rw [List.map_append, hp.indices, List.map_singleton, hb₃.index]
          show _ = List.range' 1 (s.settled + 1)
          rw [List.range'_1_concat, Nat.add_comm 1]
        · intro other hother
          rcases List.mem_append.1 hother with hold | hnew
          · exact hp.settledAt other hold
          · rw [List.mem_singleton.1 hnew, hsettled]
            rfl
        · show if final then rest = [] else _
          cases final with
          | true => exact hcount
          | false =>
            obtain ⟨other, heq⟩ := hcount
            rw [heq] at hopened ⊢
            exact ⟨other, rfl, (hopened other (List.mem_singleton.2 rfl)).1⟩
        · intro _ other hother
          rw [List.getLast?_concat] at hother
          obtain rfl := Option.some.inj hother
          exact hcarryOut
      linked := by
        have hlinked := hl.linked
        rw [hperiods] at hlinked
        rw [hperiods₃]
        refine (isChain_replace hlinked hstartsAt hcarryIn).append ?_ ?_
        · revert hcount
          cases final with
          | true =>
            intro heq
            rw [show rest = [] from heq]
            exact .nil
          | false =>
            rintro ⟨other, heq⟩
            rw [heq]
            exact List.isChain_singleton _
        · intro last hlast other hother
          rw [List.getLast?_concat] at hlast
          obtain rfl := Option.some.inj hlast
          obtain ⟨hother, hstartsNext⟩ := hopened other (List.mem_of_mem_head? hother)
          refine ⟨hstartsNext.trans ?_, hother.carryIn.trans hcarryOut.symm⟩
          rw [hsettled]
          rfl
      granted := by
        intro asset
        have hsum := hl.granted asset
        rw [hperiods, sum_concat, hrow.granted, Amounts.get_zero, Nat.add_zero] at hsum
        have hrest : (rest.map fun row => row.recipientEntitlementAddedRaw.get asset).sum = 0 := by
          refine List.sum_eq_zero fun n hn => ?_
          obtain ⟨other, hother, rfl⟩ := List.mem_map.1 hn
          rw [(hopened other hother).1.granted, Amounts.get_zero]
        rw [hperiods₃, List.map_append, List.sum_append, hrest, sum_concat, ← hsum, hadded, hfacts₃]
        show (((b.facts.recipientEntitlementRaw.addRaw _ _).addRaw _ _).get asset) = _
        rw [Amounts.get_addRaw, Amounts.get_addRaw]
        rcases Amounts.eq_or_eq hne asset with rfl | rfl
        · rw [if_pos rfl, if_neg hne, if_pos rfl]
        · rw [if_neg hne.symm, if_pos rfl, if_neg hne.symm]
          omega
      balance := by
        intro asset
        have hbefore := hl.balance asset
        have hsame : b₃.contributed asset = b.contributed asset := by
          rw [Book.contributed, hcontributions₃]
          rfl
        rw [hsame, hfacts₃]
        show _ = ((b.facts.recipientEntitlementRaw.addRaw _ _).addRaw _ _).get asset +
          ((s.carry.set _ _).set _ _).get asset + Amounts.zero.get asset
        rw [Amounts.get_addRaw, Amounts.get_addRaw, Amounts.get_set, Amounts.get_set,
          Amounts.get_zero]
        have hbalanceX := hx.2
        have hbalanceY := hy.2
        rcases Amounts.eq_or_eq hne asset with rfl | rfl
        · rw [if_pos rfl, if_neg hne, if_neg hne, if_pos rfl]
          omega
        · rw [if_neg hne.symm, if_pos rfl, if_pos rfl]
          omega }

/-! ### Streams -/

/-- **The first period.** -/
theorem ledger_first {periodStart periodEnd settlementDay surplusPolicy : ℕ}
    (hperiods : b.periods = []) (hcontributions : b.contributions = [])
    (hsettled : b.facts.monthlyPeriodsSettled = 0) (hcarry : b.facts.carryRaw = .zero)
    (hgranted : b.facts.recipientEntitlementRaw = .zero)
    (hevent : event.event = .monthlyGoalCreated goalId periodStart periodEnd settlementDay
      surplusPolicy)
    (h : b.apply config event = .ok b') : Ledger (.first periodStart) b' := by
  simp only [Book.apply, hevent, Book.monthlyGoalCreated, guard_ok, bind_ok, pure_ok] at h
  obtain ⟨-, policy, -, startsAt, hstarts, endsAt, -, rfl⟩ := h
  have hrows : (Book.upsertPeriod
      { b with facts := b.facts.monthly policy settlementDay startsAt endsAt }
      (.new 1 startsAt endsAt policy) (·.reschedule startsAt endsAt policy)).periods =
      [.new 1 startsAt endsAt policy] := by
    show upsert _ _ _ b.periods = _
    rw [hperiods]
    rfl
  exact
    { monthly := rfl
      settled := hsettled
      carry := hcarry
      periods := ⟨[], _, hrows, rfl, fun row hrow => absurd hrow List.not_mem_nil,
        ⟨_, rfl, rfl, rfl, rfl, rfl, rfl, hstarts⟩, fun hfinal => absurd hfinal Bool.false_ne_true⟩
      linked := by
        rw [hrows]
        exact List.isChain_singleton _
      granted := by
        intro asset
        rw [hrows]
        show b.facts.recipientEntitlementRaw.get asset = _
        rw [hgranted]
        cases asset <;> rfl
      balance := by
        intro asset
        show total _ _ b.contributions = b.facts.recipientEntitlementRaw.get asset + _ + _
        rw [hcontributions, hgranted]
        cases asset <;> rfl }

/-- Several events after each other. -/
theorem run_append (events events' : List DecodedEscrowEvent) :
    b.run config (events ++ events') = .ok b' ↔
      ∃ b₁, b.run config events = .ok b₁ ∧ b₁.run config events' = .ok b' := by
  rw [Book.run, List.foldlM_append, bind_ok]
  rfl

theorem run_cons (event : DecodedEscrowEvent) (events : List DecodedEscrowEvent) :
    b.run config (event :: events) = .ok b' ↔
      ∃ b₁, b.apply config event = .ok b₁ ∧ b₁.run config events = .ok b' := by
  rw [Book.run, List.foldlM_cons, bind_ok]
  rfl

theorem run_nil : b.run config [] = .ok b' ↔ b = b' := by
  rw [Book.run, List.foldlM_nil, pure_ok]

/-- **Every step of the contract** keeps the book and the accounts together. -/
theorem ledger_emits {events : List DecodedEscrowEvent} (hl : Ledger s b)
    (hemits : Emits config goalId s events s') (h : b.run config events = .ok b') :
    Ledger s' b' := by
  cases hemits with
  | contribution hevent hasset =>
    obtain ⟨b₁, happly, hrest⟩ := (run_cons _ _).1 h
    obtain rfl := run_nil.1 hrest
    exact ledger_contribution hl hevent hasset happly
  | policy hevent =>
    obtain ⟨b₁, happly, hrest⟩ := (run_cons _ _).1 h
    obtain rfl := run_nil.1 hrest
    exact ledger_policy hl hevent happly
  | stop hevent =>
    obtain ⟨b₁, happly, hrest⟩ := (run_cons _ _).1 h
    obtain rfl := run_nil.1 hrest
    exact ledger_stop hl hevent happly
  | settlement hfinal hperiod hfirst hsecond hx hy hne =>
    obtain ⟨b₁, h₁, hrest⟩ := (run_cons _ _).1 h
    obtain ⟨b₂, h₂, hrest⟩ := (run_cons _ _).1 hrest
    obtain ⟨b₃, h₃, hrest⟩ := (run_cons _ _).1 hrest
    obtain rfl := run_nil.1 hrest
    exact ledger_settlement hl hfinal hperiod hfirst hsecond hx hy hne h₁ h₂ h₃

/-- **A stream** keeps them together. -/
theorem ledger_stream {events : List DecodedEscrowEvent}
    (hstream : Stream config goalId s events s') (hl : Ledger s b)
    (h : b.run config events = .ok b') : Ledger s' b' := by
  induction hstream generalizing b' with
  | nil => exact run_nil.1 h ▸ hl
  | step _ hemits ih =>
    obtain ⟨b₁, hbefore, hblock⟩ := (run_append _ _).1 h
    exact ledger_emits (ih hbefore) hemits hblock

/-- The events of a step are events of the goal. -/
theorem emits_concerns {events : List DecodedEscrowEvent} (h : Emits config goalId s events s') :
    ∀ event ∈ events, event.event.concerns goalId = true ∧ event.event.isCreated = false := by
  have hof : ∀ event : DecodedEscrowEvent, event.event.goalId? = some goalId →
      event.event.isRelease = false → event.event.isCreated = false →
      event.event.concerns goalId = true ∧ event.event.isCreated = false :=
    fun event hid hrelease hcreated => ⟨decide_eq_true ⟨hid, hrelease⟩, hcreated⟩
  cases h with
  | contribution hevent _ | policy hevent | stop hevent =>
    intro event hmem
    rw [List.mem_singleton.1 hmem]
    exact hof _ (by rw [hevent]; rfl) (by rw [hevent]; rfl) (by rw [hevent]; rfl)
  | settlement _ hperiod hfirst hsecond _ _ _ =>
    intro event hmem
    rcases List.mem_cons.1 hmem with rfl | hmem
    · exact hof _ (by rw [hperiod]; rfl) (by rw [hperiod]; rfl) (by rw [hperiod]; rfl)
    rcases List.mem_cons.1 hmem with rfl | hmem
    · exact hof _ (by rw [hfirst]; rfl) (by rw [hfirst]; rfl) (by rw [hfirst]; rfl)
    · rw [List.mem_singleton.1 hmem]
      exact hof _ (by rw [hsecond]; rfl) (by rw [hsecond]; rfl) (by rw [hsecond]; rfl)

theorem stream_concerns {events : List DecodedEscrowEvent}
    (h : Stream config goalId s events s') :
    ∀ event ∈ events, event.event.concerns goalId = true ∧ event.event.isCreated = false := by
  induction h with
  | nil => exact fun event hmem => absurd hmem List.not_mem_nil
  | step _ hemits ih =>
    intro event hmem
    exact (List.mem_append.1 hmem).elim (ih event) (emits_concerns hemits event)

/-- Replaying the events of a goal that is there is running its book. -/
theorem run_of_replay {events : List DecodedEscrowEvent}
    (hevents : ∀ event ∈ events, event.event.concerns goalId = true ∧ event.event.isCreated = false)
    {b? : Option Book} (h : events.foldl (replayStep config goalId) b? = some b') :
    ∃ b, b? = some b ∧ b.run config events = .ok b' := by
  induction events generalizing b? with
  | nil => exact ⟨b', h, rfl⟩
  | cons event events ih =>
    obtain ⟨hconcerns, hcreated⟩ := hevents event (.head _)
    obtain ⟨b₁, hstep, hrest⟩ := ih (fun event hmem => hevents event (.tail _ hmem)) h
    rw [replayStep_apply hconcerns hcreated] at hstep
    obtain ⟨b, hb, hone⟩ := Option.bind_eq_some_iff.1 hstep
    refine ⟨b, hb, (run_cons _ _).2 ⟨b₁, ?_, hrest⟩⟩
    cases happly : b.apply config event with
    | error e =>
      rw [happly] at hone
      cases hone
    | ok b₂ =>
      rw [happly] at hone
      exact congrArg Except.ok (Option.some.inj hone)

/-- **The events of a monthly goal** make a book that agrees with the accounts. -/
theorem ledger_replay {created opens : DecodedEscrowEvent} {events : List DecodedEscrowEvent}
    {periodStart periodEnd settlementDay surplusPolicy : ℕ}
    (hcreated : created.event.isCreated = true) (hconcerns : created.event.concerns goalId = true)
    (hopens : opens.event =
      .monthlyGoalCreated goalId periodStart periodEnd settlementDay surplusPolicy)
    (hstream : Stream config goalId (.first periodStart) events s)
    (h : replay config goalId (created :: opens :: events) = some b) : Ledger s b := by
  have hfirst : opens.event.concerns goalId = true ∧ opens.event.isCreated = false := by
    rw [hopens]
    exact ⟨decide_eq_true ⟨rfl, rfl⟩, rfl⟩
  rw [replay, List.foldl_cons, replayStep_created hconcerns hcreated] at h
  have hall : ∀ event ∈ opens :: events, event.event.concerns goalId = true ∧
      event.event.isCreated = false := by
    intro event hmem
    rcases List.mem_cons.1 hmem with rfl | hmem
    · exact hfirst
    · exact stream_concerns hstream event hmem
  obtain ⟨b₀, hb₀, hrun⟩ := run_of_replay hall h
  obtain ⟨b₁, happly, hrest⟩ := (run_cons _ _).1 hrun
  obtain ⟨facts, hfacts, rfl⟩ := Option.map_eq_some_iff.1 hb₀
  have hnew : facts.monthlyPeriodsSettled = 0 ∧ facts.carryRaw = .zero ∧
      facts.recipientEntitlementRaw = .zero := by
    cases hok : createdFacts created with
    | error e =>
      rw [hok] at hfacts
      cases hfacts
    | ok facts' =>
      rw [hok] at hfacts
      obtain rfl := Option.some.inj hfacts
      unfold createdFacts at hok
      split at hok
      · simp only [bind_ok, pure_ok] at hok
        obtain ⟨deadline, -, occurredAt, -, rfl⟩ := hok
        exact ⟨rfl, rfl, rfl⟩
      · cases hok
  exact ledger_stream hstream (ledger_first rfl rfl hnew.1 hnew.2.1 hnew.2.2 hopens happly) hrest

end

/-! ### The accounts in every run -/

deriving instance DecidableEq for DecodedEscrowEvent

variable {O : Outside}

section Sample

/-- A token of the sample settlement, which grants 60 units and carries over 40. -/
def settledUsdc : TokenSettlement := ⟨9, .usdc, 60, 40⟩

/-- The other token of the sample settlement. -/
def settledPre : TokenSettlement := ⟨8, .pre, 0, 0⟩

/-- The events of a monthly goal that has received 100 units in its first period. -/
def monthlyEvents : List DecodedEscrowEvent :=
  [sampleEvent (.goalCreated 11 20 30 30 0 0 60 [] [] []) 70,
    sampleEvent (.monthlyGoalCreated 11 0 2678400 1 1) 71,
    sampleEvent (.contributionReceived 11 40 9 100 true) 72,
    sampleEvent (.monthlyPeriodSettled 11 1 0 2678400 1 false) 73,
    sampleEvent (.monthlyTokenSettled 11 1 9 100 0 60 40) 74,
    sampleEvent (.monthlyTokenSettled 11 1 8 0 0 0 0) 75]

/-- The indexer projects them. -/
def monthlyRun : List (Move World Reply Failure Job Slot) :=
  monthlyEvents.flatMap fun event =>
    [.start (.project event), .act .indexer 1 (sampleOracle 4 1000), .stop .indexer]

theorem allows_monthlyRun : ∀ m ∈ monthlyRun, (escrow sampleOutside).Allows m :=
  Machine.allows_of_internal (fun _ _ _ => trivial) rfl

theorem monthly_isSome : ((escrow sampleOutside).play monthlyRun sampleStart).isSome = true := by
  decide +kernel

/-- The end of the sample run. -/
def monthlyEnd : Config World Reply Failure Job Slot :=
  ((escrow sampleOutside).play monthlyRun sampleStart).get monthly_isSome

/-- The contract settles the first period. -/
theorem stream_monthly : Stream sampleDeployment 11 (.first 0) (monthlyEvents.drop 2)
    (((Accounts.first 0).contribute .usdc 100).settle 2678400 false settledUsdc settledPre) := by
  have hcontribution : Stream sampleDeployment 11 (.first 0)
      [sampleEvent (.contributionReceived 11 40 9 100 true) 72]
      ((Accounts.first 0).contribute .usdc 100) := .step .nil (.contribution rfl rfl)
  refine .step hcontribution (.settlement rfl rfl rfl rfl ⟨rfl, rfl⟩ ⟨rfl, rfl⟩ ?_)
  decide

end Sample

/-- **Monthly accounting.**  In every run, when the events of a goal since the last reset are its
creation and a stream of the contract's, the periods in the tables are the settled ones, one after
the other, and the open one; each begins when and with what the previous one ends; and what was
contributed has been granted, is carried over, or belongs to the open period. -/
theorem monthly_accounting {chain : Chain.ChainState Hash}
    {c : Config World Reply Failure Job Slot} {ls : List (Label World Reply Failure Job)}
    (hrun : (escrow O).Run (Config.idle (World.initial chain)) ls c)
    (horder : ∀ l ∈ ls, InOrder l) {goalId : Hash} {s : Accounts}
    {created opens : DecodedEscrowEvent} {events : List DecodedEscrowEvent}
    {periodStart periodEnd settlementDay surplusPolicy : ℕ}
    (hcreated : created.event.isCreated = true)
    (hopens : opens.event =
      .monthlyGoalCreated goalId periodStart periodEnd settlementDay surplusPolicy)
    (hstream : Stream O.config goalId (.first periodStart) events s)
    (hlog : (loggedSince ls).filter (fun event => event.event.concerns goalId) =
      created :: opens :: events) :
    ∃ goal, c.shared.db.goal? O.config.chainId goalId = some goal ∧
      Ledger s (c.shared.db.book goal) := by
  obtain ⟨hrows, hreplayed, hconserved⟩ := logged_of_run hrun horder
  obtain ⟨hmem, hconcerns⟩ := List.mem_filter.1 (hlog ▸ List.mem_cons_self :
    created ∈ (loggedSince ls).filter fun event => event.event.concerns goalId)
  have hrow : created.row O.config ∈ c.shared.db.events := by
    rw [hrows]
    exact List.mem_map_of_mem hmem
  have hid : created.event.goalId? = some goalId := (of_decide_eq_true hconcerns).1
  obtain ⟨goal, hgoal, hprojected⟩ := hconserved.created _ hrow goalId hid (.inl hcreated)
  have hbook := hreplayed.books goalId
  rw [projectedBook_of_goal hgoal, if_pos hprojected, replay_filter, hlog] at hbook
  exact ⟨goal, hgoal, ledger_replay hcreated hconcerns hopens hstream hbook.symm⟩

theorem monthly_accounting_sample : ∃ goal, monthlyEnd.shared.db.goal? 1 11 = some goal ∧
    Ledger (((Accounts.first 0).contribute .usdc 100).settle 2678400 false settledUsdc settledPre)
      (monthlyEnd.shared.db.book goal) := by
  have hcreated :
      (sampleEvent (.goalCreated 11 20 30 30 0 0 60 [] [] []) 70).event.isCreated = true := rfl
  have hopens : (sampleEvent (.monthlyGoalCreated 11 0 2678400 1 1) 71).event =
      .monthlyGoalCreated 11 0 2678400 1 1 := rfl
  exact monthly_accounting (O := sampleOutside)
    (Machine.run_labels allows_monthlyRun (Option.some_get monthly_isSome).symm)
    (by decide +kernel) hcreated hopens stream_monthly (by decide +kernel)

end Escrow

end PreCommunity
