import PreCommunity.Market.Projection

/-!
# The seniority of a stake

The events of a position are applied one after another, and may be delivered again.  The stored row
remembers when the position was opened and when its amount last changed.

* `Delivered` : a history of a position, and a delivery of it with repetitions.
* `StakePosition.Records` : what the row says of the history.
* `Stored` : the row of a position in the table.
* `stake_position_fold` : a delivery leaves the row of its history.
-/

namespace PreCommunity

namespace Market

open Store

/-- An event of a position. -/
abbrev PositionEvent := Placed PositionChanged

/-- The event comes before another one. -/
def PositionEvent.Before (a b : PositionEvent) : Prop :=
  a.blockNumber < b.blockNumber ∨ a.blockNumber = b.blockNumber ∧ a.logIndex < b.logIndex

/-- The event opens a position that was empty. -/
def PositionEvent.Opens (event : PositionEvent) : Prop :=
  event.args.previousStake = 0 ∧ 0 < event.args.newStake

/-- The event is of this position. -/
def PositionEvent.IsOf (keywordId : Hash) (staker : Address) (event : PositionEvent) : Prop :=
  event.args.keywordId = keywordId ∧ event.args.staker = staker

/-- An event follows another one in the history of a position. -/
structure PositionEvent.Follows (a b : PositionEvent) : Prop where
  before : PositionEvent.Before a b
  previousStake : b.args.previousStake = a.args.newStake
  version : b.args.positionVersion ≠ a.args.positionVersion → PositionEvent.Opens b

/-- A history of a position and a delivery of it: an event is delivered in its turn, and an event
that does not come after the last one may be delivered at any time. -/
inductive Delivered (keywordId : Hash) (staker : Address) :
    List PositionEvent → List PositionEvent → Prop where
  | nil : Delivered keywordId staker [] []
  | first {event : PositionEvent} : event.IsOf keywordId staker →
      Delivered keywordId staker [event] [event]
  | next {history deliveries : List PositionEvent} {last event : PositionEvent} :
      Delivered keywordId staker (history ++ [last]) deliveries → event.IsOf keywordId staker →
      PositionEvent.Follows last event →
      Delivered keywordId staker (history ++ [last] ++ [event]) (deliveries ++ [event])
  | stale {history deliveries : List PositionEvent} {last event : PositionEvent} :
      Delivered keywordId staker (history ++ [last]) deliveries → event.IsOf keywordId staker →
      ¬PositionEvent.Before last event →
      Delivered keywordId staker (history ++ [last]) (deliveries ++ [event])

/-- The last event that opened the position, or the first one; the version is the same since. -/
def OpenedBy (history : List PositionEvent) (event : PositionEvent) : Prop :=
  ∃ before after, history = before ++ event :: after ∧ (before = [] ∨ event.Opens) ∧
    ∀ later ∈ after, ¬later.Opens ∧ later.args.positionVersion = event.args.positionVersion

/-- The last event that changed the amount, or the first one. -/
def AmountChangedBy (history : List PositionEvent) (event : PositionEvent) : Prop :=
  ∃ before after, history = before ++ event :: after ∧
    (before = [] ∨ event.args.newStake ≠ event.args.previousStake) ∧
    ∀ later ∈ after, later.args.newStake = later.args.previousStake

/-- What the row says of a history that ends with this event. -/
structure StakePosition.Records (row : StakePosition) (history : List PositionEvent)
    (last : PositionEvent) : Prop where
  stakeRaw : row.stakeRaw = last.args.newStake
  bidUsdRaw : row.bidUsdRaw = last.args.bidUsd
  requiredCoveragePreRaw : row.requiredCoveragePreRaw = last.args.requiredCoveragePre
  eligible : row.eligible = last.args.eligible
  withdrawAvailableAt : row.withdrawAvailableAt = last.args.withdrawAvailableAt
  positionVersion : row.positionVersion = last.args.positionVersion
  position : (row.positionBlock, row.positionLogIndex) = (last.blockNumber, last.logIndex)
  stakeSince : ∃ event, OpenedBy history event ∧
    (row.stakeSinceBlock, row.stakeSinceLogIndex) = (event.blockNumber, event.logIndex)
  amountSince : ∃ event, AmountChangedBy history event ∧
    (row.amountSinceBlock, row.amountSinceLogIndex) = (event.blockNumber, event.logIndex)
  active : row.active = true ↔ 0 < row.stakeRaw

section

variable {identity : Identity} {keywordId : Hash} {staker : Address}
  {history deliveries : List PositionEvent} {last event : PositionEvent} {row : StakePosition}

/-! ### Histories -/

theorem OpenedBy.opens (h : event.Opens) : OpenedBy (history ++ [event]) event :=
  ⟨history, [], rfl, .inr h, by rintro later ⟨⟩⟩

theorem OpenedBy.append {opening : PositionEvent} (h : OpenedBy history opening)
    (hopens : ¬event.Opens)
    (hversion : event.args.positionVersion = opening.args.positionVersion) :
    OpenedBy (history ++ [event]) opening := by
  obtain ⟨before, after, rfl, hfirst, hafter⟩ := h
  refine ⟨before, after ++ [event], by simp, hfirst, fun later hlater => ?_⟩
  obtain hlater | hlater := List.mem_append.1 hlater
  · exact hafter later hlater
  · rw [List.mem_singleton.1 hlater]
    exact ⟨hopens, hversion⟩

/-- The version of the last event is the one that was opened. -/
theorem OpenedBy.version {opening : PositionEvent} (h : OpenedBy (history ++ [last]) opening) :
    last.args.positionVersion = opening.args.positionVersion := by
  obtain ⟨before, after, heq, -, hafter⟩ := h
  obtain rfl | ⟨init, later, rfl⟩ := after.eq_nil_or_concat
  · obtain ⟨-, hlast⟩ := List.append_inj' heq rfl
    rw [(List.cons.inj hlast).1]
  · have heq' : history ++ [last] = before ++ opening :: init ++ [later] := by
      rw [heq]
      simp
    obtain ⟨-, hlast⟩ := List.append_inj' heq' rfl
    rw [(List.cons.inj hlast).1]
    exact (hafter later (by simp)).2

theorem AmountChangedBy.changes (h : event.args.newStake ≠ event.args.previousStake) :
    AmountChangedBy (history ++ [event]) event :=
  ⟨history, [], rfl, .inr h, by rintro later ⟨⟩⟩

theorem AmountChangedBy.append {change : PositionEvent} (h : AmountChangedBy history change)
    (hsame : event.args.newStake = event.args.previousStake) :
    AmountChangedBy (history ++ [event]) change := by
  obtain ⟨before, after, rfl, hfirst, hafter⟩ := h
  refine ⟨before, after ++ [event], by simp, hfirst, fun later hlater => ?_⟩
  obtain hlater | hlater := List.mem_append.1 hlater
  · exact hafter later hlater
  · rw [List.mem_singleton.1 hlater]
    exact hsame

/-! ### One event -/

/-- The first event makes the row. -/
theorem records_first : (projectPosition identity event none).Records [event] event where
  stakeRaw := rfl
  bidUsdRaw := rfl
  requiredCoveragePreRaw := rfl
  eligible := rfl
  withdrawAvailableAt := rfl
  positionVersion := rfl
  position := rfl
  stakeSince := ⟨event, ⟨[], [], rfl, .inl rfl, by rintro later ⟨⟩⟩, rfl⟩
  amountSince := ⟨event, ⟨[], [], rfl, .inl rfl, by rintro later ⟨⟩⟩, rfl⟩
  active := decide_eq_true_iff

/-- **One event** that follows the last one. -/
theorem StakePosition.Records.next (hrow : row.Records (history ++ [last]) last)
    (hfollows : PositionEvent.Follows last event) :
    (projectPosition identity event (some row)).Records (history ++ [last] ++ [event]) event where
  stakeRaw := rfl
  bidUsdRaw := rfl
  requiredCoveragePreRaw := rfl
  eligible := rfl
  withdrawAvailableAt := rfl
  positionVersion := rfl
  position := rfl
  stakeSince := by
    by_cases hopens : event.Opens
    · refine ⟨event, .opens hopens, ?_⟩
      have hopened : (event.args.previousStake = 0 ∧ 0 < event.args.newStake) ∨
        row.positionVersion ≠ event.args.positionVersion := .inl hopens
      simp [projectPosition, hopened]
    · obtain ⟨opening, hopening, hsince⟩ := hrow.stakeSince
      have hversion : event.args.positionVersion = last.args.positionVersion := by
        by_contra hne
        exact hopens (hfollows.version hne)
      refine ⟨opening, hopening.append hopens (hversion.trans hopening.version), ?_⟩
      have hkept : ¬((event.args.previousStake = 0 ∧ 0 < event.args.newStake) ∨
          row.positionVersion ≠ event.args.positionVersion) := by
        rw [hrow.positionVersion, hversion]
        exact fun h => h.elim hopens fun hne => hne rfl
      rw [← hsince]
      simp [projectPosition, hkept]
  amountSince := by
    by_cases hsame : event.args.newStake = event.args.previousStake
    · obtain ⟨change, hchange, hsince⟩ := hrow.amountSince
      refine ⟨change, hchange.append hsame, ?_⟩
      have hstake : row.stakeRaw = event.args.newStake :=
        hrow.stakeRaw.trans (hfollows.previousStake.symm.trans hsame.symm)
      rw [← hsince]
      simp [projectPosition, hstake]
    · refine ⟨event, .changes hsame, ?_⟩
      have hstake : row.stakeRaw ≠ event.args.newStake := by
        rw [hrow.stakeRaw, ← hfollows.previousStake]
        exact fun h => hsame h.symm
      simp [projectPosition, hstake]
  active := decide_eq_true_iff

/-! ### The table -/

/-- The row of a position in the table, which records its history. -/
def Stored (identity : Identity) (keywordId : Hash) (staker : Address)
    (history : List PositionEvent) (positions : List StakePosition) : Prop :=
  ∃ current : Option StakePosition,
    positions.filter (StakePosition.isOf identity keywordId staker) = current.toList ∧
    (current = none ↔ history = []) ∧
    ∀ row, current = some row → ∃ before last, history = before ++ [last] ∧
      row.Records history last

/-- An event that does not come after the last one changes nothing. -/
theorem Stored.stale {positions : List StakePosition}
    (hstored : Stored identity keywordId staker (history ++ [last]) positions)
    (hevent : event.IsOf keywordId staker) (hstale : ¬PositionEvent.Before last event) :
    applyAdPositionChange identity event positions = positions := by
  obtain ⟨rfl, rfl⟩ := hevent
  obtain ⟨current, hrows, hnone, hrecords⟩ := hstored
  cases current with
  | none => exact absurd (hnone.1 rfl) (by simp)
  | some row =>
    obtain ⟨before, last', heq, hrow⟩ := hrecords row rfl
    obtain ⟨-, hlast⟩ := List.append_inj' heq rfl
    obtain rfl := (List.cons.inj hlast).1
    have hfind : positions.find? (StakePosition.isOf identity event.args.keywordId
        event.args.staker) = some row := by
      rw [← List.head?_filter, hrows]
      rfl
    obtain ⟨hblock, hindex⟩ := Prod.mk.inj hrow.position
    have hnot : eventAfter event.blockNumber event.logIndex row.positionBlock
        row.positionLogIndex = false := by
      unfold eventAfter
      rw [hblock, hindex]
      refine decide_eq_false fun h => hstale ?_
      exact h.imp (fun h => h) fun h => ⟨h.1.symm, h.2⟩
    simp only [applyAdPositionChange, hfind, hnot]
    rfl

theorem Stored.first {positions : List StakePosition}
    (hstored : Stored identity keywordId staker [] positions)
    (hevent : event.IsOf keywordId staker) :
    Stored identity keywordId staker [event] (applyAdPositionChange identity event positions) := by
  obtain ⟨rfl, rfl⟩ := hevent
  obtain ⟨current, hrows, hnone, -⟩ := hstored
  obtain rfl := hnone.2 rfl
  refine ⟨some (projectPosition identity event none),
    filter_applyAdPositionChange_self hrows (by rintro row ⟨⟩), by simp, ?_⟩
  rintro row ⟨⟩
  exact ⟨[], event, rfl, records_first⟩

theorem Stored.next {positions : List StakePosition}
    (hstored : Stored identity keywordId staker (history ++ [last]) positions)
    (hevent : event.IsOf keywordId staker) (hfollows : PositionEvent.Follows last event) :
    Stored identity keywordId staker (history ++ [last] ++ [event])
      (applyAdPositionChange identity event positions) := by
  obtain ⟨rfl, rfl⟩ := hevent
  obtain ⟨current, hrows, hnone, hrecords⟩ := hstored
  cases current with
  | none => exact absurd (hnone.1 rfl) (by simp)
  | some row =>
    obtain ⟨before, last', heq, hrow⟩ := hrecords row rfl
    obtain ⟨-, hlast⟩ := List.append_inj' heq rfl
    obtain rfl := (List.cons.inj hlast).1
    obtain ⟨hblock, hindex⟩ := Prod.mk.inj hrow.position
    refine ⟨some (projectPosition identity event (some row)),
      filter_applyAdPositionChange_self hrows ?_, by simp, ?_⟩
    · rintro _ ⟨⟩
      rw [hblock, hindex]
      exact hfollows.before
    · rintro _ ⟨⟩
      exact ⟨_, event, rfl, hrow.next hfollows⟩

/-! ### Deliveries -/

theorem PositionEvent.Before.trans {a b c : PositionEvent} (h : PositionEvent.Before a b)
    (h' : PositionEvent.Before b c) : PositionEvent.Before a c := by
  unfold PositionEvent.Before at *
  omega

/-- What was delivered does not come after the last event. -/
theorem Delivered.not_before (h : Delivered keywordId staker history deliveries) :
    ∀ before last, history = before ++ [last] →
      ∀ event ∈ deliveries, ¬PositionEvent.Before last event := by
  have hirrefl : ∀ event : PositionEvent, ¬PositionEvent.Before event event := fun event h => by
    unfold PositionEvent.Before at h
    omega
  induction h with
  | nil => exact fun before last heq => absurd heq (by simp)
  | first _ =>
    intro before last heq event hevent
    have hlength := congrArg List.length heq
    obtain rfl : before = [] := by
      cases before with
      | nil => rfl
      | cons => simp at hlength
    obtain rfl := (List.cons.inj heq).1
    rw [List.mem_singleton.1 hevent]
    exact hirrefl _
  | @next history deliveries last new _ _ hfollows ih =>
    intro before last' heq event hevent
    obtain ⟨-, hlast⟩ := List.append_inj' heq rfl
    obtain rfl := (List.cons.inj hlast).1
    obtain hevent | hevent := List.mem_append.1 hevent
    · exact fun hbefore => ih _ _ rfl event hevent (hfollows.before.trans hbefore)
    · rw [List.mem_singleton.1 hevent]
      exact hirrefl _
  | @stale history deliveries last new _ _ hstale ih =>
    intro before last' heq event hevent
    obtain ⟨-, hlast⟩ := List.append_inj' heq rfl
    obtain rfl := (List.cons.inj hlast).1
    obtain hevent | hevent := List.mem_append.1 hevent
    · exact ih _ _ rfl event hevent
    · rw [List.mem_singleton.1 hevent]
      exact hstale

/-- The events are applied to the table. -/
def applyAll (identity : Identity) (events : List PositionEvent) (positions : List StakePosition) :
    List StakePosition :=
  events.foldl (fun positions event => applyAdPositionChange identity event positions) positions

theorem applyAll_append (events : List PositionEvent) (positions : List StakePosition) :
    applyAll identity (events ++ [event]) positions =
      applyAdPositionChange identity event (applyAll identity events positions) := by
  unfold applyAll
  rw [List.foldl_append]
  rfl

/-- **A delivery** leaves the row that its history leaves. -/
theorem Delivered.stored (h : Delivered keywordId staker history deliveries)
    {positions : List StakePosition} (hpositions : Stored identity keywordId staker [] positions) :
    Stored identity keywordId staker history (applyAll identity deliveries positions) ∧
      applyAll identity deliveries positions = applyAll identity history positions := by
  induction h with
  | nil => exact ⟨hpositions, rfl⟩
  | first hevent => exact ⟨hpositions.first hevent, rfl⟩
  | next _ hevent hfollows ih =>
    rw [applyAll_append, applyAll_append, ← ih.2]
    exact ⟨ih.1.next hevent hfollows, rfl⟩
  | stale _ hevent hstale ih =>
    rw [applyAll_append, ih.1.stale hevent hstale]
    exact ih

/-- The transaction hash and the log index of an event. -/
def PositionEvent.key (event : PositionEvent) : Hash × ℕ := (event.transactionHash, event.logIndex)

/-- The event is in the table of events. -/
def Recorded (identity : Identity) (key : Hash × ℕ) (db : Database) : Prop :=
  ∃ row ∈ db.events, row.identity = identity ∧ (row.txHash, row.logIndex) = key

/-- A log is recorded, and applied when it is new. -/
theorem applyLog_cases (identity : Identity) (event : PositionEvent) (db : Database) :
    (Recorded identity event.key db ∧ applyLog identity db (.position event) = db) ∨
      (¬Recorded identity event.key db ∧
        (applyLog identity db (.position event)).positions =
          applyAdPositionChange identity event db.positions ∧
        (applyLog identity db (.position event)).events =
          db.events ++ [(IndexedLog.position event).event identity]) := by
  by_cases hrecorded : Recorded identity event.key db
  · refine .inl ⟨hrecorded, ?_⟩
    obtain ⟨row, hrow, hid, hkey⟩ := hrecorded
    unfold applyLog
    refine if_pos (List.any_eq_true.2 ⟨row, hrow, ?_⟩)
    rw [sameKey_event]
    obtain ⟨hhash, hindex⟩ := Prod.mk.inj hkey
    exact decide_eq_true ⟨hid.symm, hhash.symm, hindex.symm⟩
  · have hnew : ∀ row ∈ db.events, row.identity = identity →
        (row.txHash, row.logIndex) ≠ (IndexedLog.position event).key :=
      fun row hrow hid hkey => hrecorded ⟨row, hrow, hid, hkey⟩
    obtain ⟨hevents, hpositions⟩ := applyLog_new hnew
    exact .inr ⟨hrecorded, hpositions, hevents⟩

/-- What is recorded after one more log. -/
theorem Recorded.of_applyLog {key : Hash × ℕ} {db : Database}
    (h : Recorded identity key (applyLog identity db (.position event))) :
    Recorded identity key db ∨ event.key = key := by
  obtain ⟨-, hsame⟩ | ⟨-, -, hevents⟩ := applyLog_cases identity event db
  · exact .inl (hsame ▸ h)
  · obtain ⟨row, hrow, hid, hkey⟩ := h
    rw [hevents] at hrow
    obtain hrow | hrow := List.mem_append.1 hrow
    · exact .inl ⟨row, hrow, hid, hkey⟩
    · rw [List.mem_singleton.1 hrow] at hkey
      exact .inr hkey

/-- **A delivery of logs** that the table of events has not seen. -/
theorem Delivered.applyLog (h : Delivered keywordId staker history deliveries) {db : Database}
    (hpositions : Stored identity keywordId staker [] db.positions)
    (hnew : ∀ event ∈ deliveries, ¬Recorded identity event.key db)
    (hkeys : ∀ a ∈ deliveries, ∀ b ∈ deliveries, PositionEvent.key a = PositionEvent.key b →
      a = b) :
    ((deliveries.map IndexedLog.position).foldl (applyLog identity) db).positions =
        applyAll identity deliveries db.positions ∧
      ∀ key, Recorded identity key ((deliveries.map IndexedLog.position).foldl
        (applyLog identity) db) →
        Recorded identity key db ∨ ∃ event ∈ deliveries, PositionEvent.key event = key := by
  -- the keys that are recorded after one more log
  have hsnoc : ∀ {deliveries : List PositionEvent} {event : PositionEvent} {db' : Database},
      (∀ key, Recorded identity key db' →
        Recorded identity key db ∨ ∃ x ∈ deliveries, PositionEvent.key x = key) →
      ∀ key, Recorded identity key (Market.applyLog identity db' (.position event)) →
        Recorded identity key db ∨ ∃ x ∈ deliveries ++ [event], PositionEvent.key x = key :=
    fun hold key hkey => by
      obtain hkey | hkey := hkey.of_applyLog
      · refine (hold key hkey).imp (fun h => h) ?_
        rintro ⟨x, hx, hxkey⟩
        exact ⟨x, List.mem_append_left _ hx, hxkey⟩
      · exact .inr ⟨_, by simp, hkey⟩
  induction h with
  | nil => exact ⟨rfl, fun key h => .inl h⟩
  | @first event hevent =>
    have hkeep : ∀ key, Recorded identity key db →
        Recorded identity key db ∨ ∃ x ∈ ([] : List PositionEvent), PositionEvent.key x = key :=
      fun key h => .inl h
    refine ⟨?_, hsnoc hkeep⟩
    obtain ⟨hrecorded, -⟩ | ⟨-, hpositions', -⟩ := applyLog_cases identity event db
    · exact absurd hrecorded (hnew event (by simp))
    · exact hpositions'
  | @next history deliveries last event hdelivered hevent hfollows ih =>
    obtain ⟨hfold, hrecorded⟩ := ih (fun x hx => hnew x (List.mem_append_left _ hx))
      fun a ha b hb => hkeys a (List.mem_append_left _ ha) b (List.mem_append_left _ hb)
    rw [List.map_append, List.foldl_append]
    refine ⟨?_, hsnoc hrecorded⟩
    obtain ⟨hold, -⟩ | ⟨-, hpositions', -⟩ := applyLog_cases identity event
      ((deliveries.map IndexedLog.position).foldl (Market.applyLog identity) db)
    · -- an event that is delivered in its turn was not delivered before
      obtain hdb | ⟨x, hx, hxkey⟩ := hrecorded _ hold
      · exact absurd hdb (hnew event (by simp))
      · obtain rfl := hkeys x (List.mem_append_left _ hx) event (by simp) hxkey
        exact absurd hfollows.before (hdelivered.not_before _ _ rfl x hx)
    · rw [applyAll_append, ← hfold]
      exact hpositions'
  | @stale history deliveries last event hdelivered hevent hstale ih =>
    obtain ⟨hfold, hrecorded⟩ := ih (fun x hx => hnew x (List.mem_append_left _ hx))
      fun a ha b hb => hkeys a (List.mem_append_left _ ha) b (List.mem_append_left _ hb)
    rw [List.map_append, List.foldl_append]
    refine ⟨?_, hsnoc hrecorded⟩
    have hsame := (hdelivered.stored hpositions).1.stale hevent hstale
    rw [applyAll_append, hsame, ← hfold]
    obtain ⟨-, hdb⟩ | ⟨-, hpositions', -⟩ := applyLog_cases identity event
      ((deliveries.map IndexedLog.position).foldl (Market.applyLog identity) db)
    · exact congrArg Database.positions hdb
    · exact hpositions'.trans (by rw [hfold, hsame])

end

/-- **The fold of a stake position.**  A history of a position is delivered, with any repetitions,
to a table that does not have the position yet.  The stored row has the fields of the last event,
was opened by the event that opened the current version, and its amount is as old as its last
change; the repetitions make no difference, and neither does the table of events that skips
duplicates. -/
theorem stake_position_fold {identity : Identity} {keywordId : Hash} {staker : Address}
    {history deliveries : List PositionEvent}
    (hdelivered : Delivered keywordId staker history deliveries) (hne : history ≠ [])
    {db : Database}
    (hpositions : ∀ row ∈ db.positions, row.isOf identity keywordId staker = false) :
    (∃ row before last, history = before ++ [last] ∧
      (applyAll identity deliveries db.positions).filter
        (StakePosition.isOf identity keywordId staker) = [row] ∧
      row.Records history last) ∧
    applyAll identity deliveries db.positions = applyAll identity history db.positions ∧
    ((∀ event ∈ deliveries, ¬Recorded identity event.key db) →
      (∀ a ∈ deliveries, ∀ b ∈ deliveries, PositionEvent.key a = PositionEvent.key b → a = b) →
        ((deliveries.map IndexedLog.position).foldl (applyLog identity) db).positions =
          applyAll identity deliveries db.positions) := by
  have hempty : Stored identity keywordId staker [] db.positions := by
    refine ⟨none, List.filter_eq_nil_iff.2 fun row hrow => ?_, by simp, by rintro row ⟨⟩⟩
    rw [hpositions row hrow]
    exact Bool.false_ne_true
  obtain ⟨⟨current, hrows, hnone, hrecords⟩, hsame⟩ := hdelivered.stored hempty
  refine ⟨?_, hsame, fun hnew hkeys => (hdelivered.applyLog hempty hnew hkeys).1⟩
  cases current with
  | none => exact absurd (hnone.1 rfl) hne
  | some row =>
    obtain ⟨before, last, heq, hrow⟩ := hrecords row rfl
    exact ⟨row, before, last, heq, hrows, hrow⟩

/-- A position is opened. -/
def sampleOpening : PositionEvent := ⟨1, 1, 1, 0, ⟨1, 2, 10, 0, 3, 4, true, 0, 1⟩⟩

/-- More is staked. -/
def sampleTopUp : PositionEvent := ⟨2, 2, 2, 0, ⟨1, 2, 15, 10, 3, 4, true, 0, 1⟩⟩

theorem stake_position_fold_sample :
    ∃ row : StakePosition, (applyAll ⟨1, 1⟩ [sampleOpening, sampleTopUp, sampleOpening] []).filter
      (StakePosition.isOf ⟨1, 1⟩ 1 2) = [row] ∧
        row.Records [sampleOpening, sampleTopUp] sampleTopUp := by
  have hdelivered : Delivered 1 2 [sampleOpening, sampleTopUp]
      [sampleOpening, sampleTopUp, sampleOpening] := by
    have hfirst : Delivered 1 2 ([] ++ [sampleOpening]) [sampleOpening] := .first ⟨rfl, rfl⟩
    have hsecond :
        Delivered 1 2 ([sampleOpening] ++ [sampleTopUp]) ([sampleOpening, sampleTopUp]) :=
      hfirst.next ⟨rfl, rfl⟩ ⟨.inl (by decide), rfl, fun hne => absurd rfl hne⟩
    refine hsecond.stale ⟨rfl, rfl⟩ ?_
    unfold PositionEvent.Before
    decide
  obtain ⟨⟨row, before, last, hhistory, hrow, hrecords⟩, -, -⟩ :=
    @stake_position_fold ⟨1, 1⟩ 1 2 _ _ hdelivered (by simp) Database.empty (by rintro row ⟨⟩)
  have hhistory' : [sampleOpening] ++ [sampleTopUp] = before ++ [last] := hhistory
  obtain ⟨-, hlast⟩ := List.append_inj' hhistory' rfl
  obtain rfl := (List.cons.inj hlast).1
  exact ⟨row, hrow, hrecords⟩

end Market

end PreCommunity
