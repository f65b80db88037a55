import PreCommunity.Concurrent.Within
import PreCommunity.Market.Billing

/-!
# The five-minute window of a client

A click that costs something is finalised in one transaction with the window of its client and the
totals of the contract.  The transaction's timestamp is that of its start; until it gets to the
window, another click may have opened it, or the retention job may have deleted it.

* `CapturePromise` : what a click may do to windows and totals.
* `finalized` : the finalisation that a step makes.
* `billable_apart` : two billable clicks of one client are five minutes apart.
* `suppressed_after` : a click is suppressed only after a billable one.
* `totals_counted` : the totals are the numbers of finalised clicks.
-/

namespace PreCommunity

namespace Market

open Store Concurrent

/-! ### What a click may do -/

/-- A status with which a capture ends in a transaction with the window: billable, or suppressed. -/
def ClickStatus.billable? : ClickStatus → Option Bool
  | pending | pricePending => some true
  | suppressed => some false
  | _ => none

/-- What a click may do to the windows and the totals: nothing, or it finalises its click right
after its transaction has begun. -/
inductive CapturePromise (ext : External) (request : CaptureRequest) (h : Log) (w : World) :
    World → Prop where
  | other {w' : World} : w'.db.windows = w.db.windows → w'.db.totals = w.db.totals →
      (∀ row ∈ w'.db.clicks, row ∈ w.db.clicks ∨ row.status.billable? = none) →
      CapturePromise ext request h w w'
  | finalize {started : World} {h₀ : Log} {fingerprint : Hash} {c : Capture} :
      h = .ran started started :: h₀ → clickBillingFingerprint ext request = some fingerprint →
      c.status.billable? = some true →
      (∃ row ∈ w.db.clicks, row.isCapturing request.delivery.deliveryId = true) →
      CapturePromise ext request h w
        (w.withDb (w.db.finalizeClick request fingerprint c started.clock))

/-- What a job promises beyond its writes. -/
def JobPromise (ext : External) : Job → Log → World → World → Prop
  | .click _ request, h, w, w' => CapturePromise ext request h w w'
  | _, _, _, _ => True

theorem CapturePromise.refl {ext : External} {request : CaptureRequest} (h : Log) (w : World) :
    CapturePromise ext request h w w :=
  .other rfl rfl fun _ hrow => .inl hrow

theorem JobPromise.refl {ext : External} (j : Job) (h : Log) (w : World) :
    JobPromise ext j h w w := by
  cases j with
  | click n request => exact CapturePromise.refl h w
  | _ => trivial

section

variable {O : Outside} {n : ℕ} {request : CaptureRequest} {v : View Unit World Reply Failure}
  {E : Failure → View Unit World Reply Failure → Prop}

/-- The discipline of a click that promises how it treats the window. -/
def windowDiscipline (O : Outside) (n : ℕ) (request : CaptureRequest) :
    Discipline World Reply Failure :=
  (market O).promising (JobPromise O.ext (.click n request)) (JobPromise.refl _)

/-- The position is only read. -/
theorem within_billingPosition (request : CaptureRequest) :
    Routine.Within (fun _ _ => False) (billingPosition request) := by
  unfold billingPosition
  refine Routine.within_ite (fun _ => Routine.within_pure _) fun _ => ?_
  refine Routine.within_tryCatch ?_ fun _ =>
    Routine.within_bind (Routine.within_ask _) fun _ => Routine.within_read
  unfold livePosition
  refine Routine.within_bind (Routine.within_ask _) fun _ => ?_
  refine Routine.within_bind (Routine.within_ask _) fun _ => ?_
  refine Routine.within_ite (fun _ => Routine.within_pure _) fun _ => ?_
  refine Routine.within_bind (Routine.within_ask _) fun _ => ?_
  split
  · exact Routine.within_pure _
  · refine Routine.within_bind (Routine.within_ask _) fun _ => ?_
    exact Routine.within_bind (Routine.within_ask _) fun _ => Routine.within_pure _

theorem promised_billingPosition {Q : Except ErrorCode BillingPosition →
      View Unit World Reply Failure → Prop} (hQ : ∀ result v', Q result v') (hE : ∀ e v', E e v') :
    Routine.wp (windowDiscipline O n request) (billingPosition request) Q E v := by
  have hread : Routine.Within (fun _ _ => True → False) (billingPosition request) :=
    (within_billingPosition request).mono fun _ _ h _ => h
  refine Routine.wp_mono (Routine.wp_of_within (K := fun _ => True) (fun _ _ _ _ => trivial)
    (fun _ _ _ => trivial) ?_ hread trivial) (fun _ _ _ => hQ _ _) fun _ _ _ => hE _ _
  exact fun _ _ _ _ _ h => h.elim

/-- An update of the capture after which the click is neither billable nor suppressed. -/
theorem promised_update {h : Log} {w : World} {id : Id} {f : BillingClick → BillingClick}
    (hf : ∀ row, (f row).status.billable? = none) :
    CapturePromise O.ext request h w
      (w.withDb (w.db.updateClicks (BillingClick.isCapturing id) f)) := by
  refine .other rfl rfl fun row hrow => ?_
  obtain ⟨hrow, -⟩ | ⟨x, -, -, rfl⟩ := mem_updateWhere_cases hrow
  · exact .inl hrow
  · exact .inr (hf x)

theorem promised_closeCapture {id : Id} {code : ErrorCode}
    {Q : Unit → View Unit World Reply Failure → Prop} (hQ : ∀ v', Q () v') (hE : ∀ e v', E e v') :
    Routine.wp (windowDiscipline O n request) (closeCapture id code) Q E v :=
  wp_update (fun _ _ _ => hE _ _) fun _ _ _ => ⟨promised_update fun _ => rfl, hQ _, hE _ _⟩

/-- The capture after the claim. -/
theorem promised_captureClaimed {Q : Unit → View Unit World Reply Failure → Prop}
    (hQ : ∀ v', Q () v') (hE : ∀ e v', E e v') :
    Routine.wp (windowDiscipline O n request) (captureClaimed O.ext request) Q E v := by
  unfold captureClaimed
  extract_lets id
  split
  · exact promised_closeCapture hQ hE
  rename_i fingerprint hfingerprint
  refine (Routine.wp_bind _ _).2 (promised_billingPosition (fun result v₁ => ?_) hE)
  split
  · exact promised_closeCapture hQ hE
  rename_i position
  split
  · exact hE _ _
  rename_i c hc
  obtain ⟨-, -, -, hstatus⟩ := capture_cases hc
  refine Routine.wp_ite (fun hzero => ?_) fun hpositive => ?_
  · -- a click that costs nothing is settled
    have hsettled : c.status = .settled := by
      obtain ⟨-, hamount, -⟩ | ⟨amount, hamount, -, hstatus, -⟩ := hstatus
      · rw [hamount] at hzero
        cases hzero
      · rw [hamount, Option.some.injEq] at hzero
        rw [hstatus, if_pos hzero]
    refine wp_update (fun _ _ _ => hE _ _) fun _ _ _ => ⟨promised_update fun _ => ?_, hQ _, hE _ _⟩
    show c.status.billable? = none
    rw [hsettled]
    rfl
  · have hbillable : c.status.billable? = some true := by
      obtain ⟨hstatus, -⟩ | ⟨amount, hamount, -, hstatus, -⟩ := hstatus
      · rw [hstatus]
        rfl
      · have hne : amount ≠ 0 := fun hzero => hpositive (by rw [hamount, hzero])
        rw [hstatus, if_neg hne]
        rfl
    unfold Market.finalizeClick
    refine (Routine.wp_bind _ _).2 (Routine.wp_read fun started _ _ => ⟨?_, hE _ _⟩)
    refine wp_transaction (fun _ _ _ => hE _ _) (fun w _ db _ _ ht => ?_) fun _ _ _ _ _ => hE _ _
    obtain ⟨hcapturing, rfl⟩ := finalizeClickTx_ok ht
    exact ⟨CapturePromise.finalize rfl hfingerprint hbillable hcapturing, hQ _, hE _ _⟩

/-- **A click** keeps its promise. -/
theorem promised_click (w : World) :
    Routine.wp (windowDiscipline O n request) (Market.click O.ext request)
      (fun _ _ => True) (fun _ _ => True) ⟨(), [], w⟩ := by
  unfold Market.click
  refine (Routine.wp_bind _ _).2 (Routine.wp_ask fun w₁ _ _ =>
    ⟨trivial, fun (now : ℕ) _ => ?_, fun _ _ => trivial⟩)
  refine Routine.wp_ite (fun _ => ?_) fun _ => trivial
  unfold captureBillingClick captureSteps
  have hfail : ∀ v : View Unit World Reply Failure,
      Routine.wp (windowDiscipline O n request)
        (tryCatch (closeCapture request.delivery.deliveryId .captureFailed) fun _ => pure ())
        (fun _ _ => True) (fun _ _ => True) v := fun v =>
    (Routine.wp_tryCatch _ _).2 (promised_closeCapture (fun _ => trivial) fun _ _ => by trivial)
  refine (Routine.wp_tryCatch _ _).2 ((Routine.wp_bind _ _).2 (Routine.wp_ask fun w₂ _ _ =>
    ⟨trivial, fun (clickedAt : ℕ) _ => ?_, fun _ _ => hfail _⟩))
  refine (Routine.wp_bind _ _).2 (wp_transaction (fun _ _ _ => hfail _)
    (fun w₃ claimed db _ _ ht => ?_) fun _ _ _ _ _ => hfail _)
  have hcontinue : ∀ v, Routine.wp (windowDiscipline O n request)
      (if claimed = true then captureClaimed O.ext request else pure ()) (fun _ _ => True)
      (fun e v => Routine.wp (windowDiscipline O n request)
        (tryCatch (closeCapture request.delivery.deliveryId .captureFailed) fun _ => pure ())
        (fun _ _ => True) (fun _ _ => True) v) v := fun v =>
    Routine.wp_ite (fun _ => promised_captureClaimed (fun _ => trivial) fun _ v => hfail v)
      fun _ => trivial
  obtain ⟨rfl, rfl⟩ | ⟨rfl, -, rfl⟩ := claimDelivery_ok ht
  · exact ⟨CapturePromise.refl _ _, hcontinue _, hfail _⟩
  · refine ⟨CapturePromise.other rfl rfl fun row hrow => ?_, hcontinue _, hfail _⟩
    obtain hrow | hrow := List.mem_append.1 hrow
    · exact .inl hrow
    · rw [List.mem_singleton.1 hrow]
      exact .inr rfl

/-- Every job keeps its promise. -/
theorem promised_code (j : Job) (w : World) :
    ((market O).code j).wp ((market O).promising (JobPromise O.ext j) (JobPromise.refl j))
      (fun _ _ _ => True) [] w := by
  cases j with
  | click n request => exact Routine.wp_silently (promised_click w)
  | _ => exact Program.wp_trivial (fun _ _ _ => trivial) (fun _ _ _ => trivial) _ _ _

end

/-- The market with the promise about the windows. -/
def windowProtocol (O : Outside) : Protocol (market O) :=
  (protocol O).withPromise (JobPromise O.ext) JobPromise.refl promised_code

/-! ### Windows -/

/-- Five minutes, in microseconds. -/
def fiveMinutes : ℕ := 5 * 60 * 1000000

/-- The window of a client. -/
def windowOf (fingerprint : Hash) (windows : List ClickWindow) : Option ClickWindow :=
  windows.find? fun row => row.fingerprint = fingerprint

section Windows

variable {fingerprint fingerprint' : Hash} {timestamp : ℕ} {windows : List ClickWindow}
  {window : ClickWindow}

/-- The end of a window is rounded to a millisecond. -/
theorem windowEnd_bounds (timestamp : ℕ) :
    timestamp + fiveMinutes ≤ windowEnd timestamp * 1000 + 500 ∧
      windowEnd timestamp * 1000 ≤ timestamp + fiveMinutes + 500 := by
  simp only [windowEnd, toTimestamp3, fiveMinutes]
  omega

/-- **The upsert of the window**: there was none, or it has ended, or it goes on as it is. -/
theorem claimWindow_cases (fingerprint : Hash) (timestamp : ℕ) (windows : List ClickWindow) :
    (windowOf fingerprint windows = none ∧ claimClickBillingWindow fingerprint timestamp windows =
      (true, windows ++ [⟨fingerprint, windowEnd timestamp⟩])) ∨
    (∃ window, windowOf fingerprint windows = some window ∧
      ((window.expiresAt * 1000 ≤ timestamp ∧
        claimClickBillingWindow fingerprint timestamp windows =
          (true, updateWhere (fun row => row.fingerprint = fingerprint)
            (fun row => { row with expiresAt := windowEnd timestamp }) windows)) ∨
        timestamp < window.expiresAt * 1000 ∧
          claimClickBillingWindow fingerprint timestamp windows = (false, windows))) := by
  unfold claimClickBillingWindow
  rcases hfound : windowOf fingerprint windows with _ | window
  · refine .inl ⟨rfl, ?_⟩
    unfold windowOf at hfound
    rw [hfound]
  · refine .inr ⟨window, rfl, ?_⟩
    unfold windowOf at hfound
    rw [hfound]
    by_cases hended : window.expiresAt * 1000 ≤ timestamp
    · exact .inl ⟨hended, if_pos hended⟩
    · exact .inr ⟨Nat.lt_of_not_le hended, if_neg hended⟩

theorem windowOf_fingerprint (h : windowOf fingerprint windows = some window) :
    window ∈ windows ∧ window.fingerprint = fingerprint := by
  have hfound := List.find?_some h
  exact ⟨List.mem_of_find?_eq_some h, of_decide_eq_true hfound⟩

/-- The window that was claimed. -/
theorem windowOf_claimed
    (h : (claimClickBillingWindow fingerprint timestamp windows).1 = true) :
    windowOf fingerprint (claimClickBillingWindow fingerprint timestamp windows).2 =
      some ⟨fingerprint, windowEnd timestamp⟩ := by
  obtain ⟨hnone, heq⟩ | ⟨window, hfound, ⟨-, heq⟩ | ⟨-, heq⟩⟩ :=
    claimWindow_cases fingerprint timestamp windows
  · rw [heq]
    unfold windowOf at hnone ⊢
    rw [List.find?_append, hnone]
    simp
  · rw [heq]
    obtain ⟨-, hfingerprint⟩ := windowOf_fingerprint hfound
    unfold windowOf at hfound ⊢
    have hmap : (updateWhere (fun row => decide (row.fingerprint = fingerprint))
        (fun row => { row with expiresAt := windowEnd timestamp }) windows).find?
          (fun row => decide (row.fingerprint = fingerprint)) =
        (windows.find? fun row => decide (row.fingerprint = fingerprint)).map
          fun row => { row with expiresAt := windowEnd timestamp } :=
      find?_updateWhere fun _ => rfl
    rw [hmap, hfound, Option.map_some, ← hfingerprint]
  · rw [heq] at h
    cases h

/-- The windows of the other clients. -/
theorem windowOf_other (hne : fingerprint' ≠ fingerprint) :
    windowOf fingerprint' (claimClickBillingWindow fingerprint timestamp windows).2 =
      windowOf fingerprint' windows := by
  obtain ⟨-, heq⟩ | ⟨window, -, ⟨-, heq⟩ | ⟨-, heq⟩⟩ :=
    claimWindow_cases fingerprint timestamp windows <;> rw [heq]
  · unfold windowOf
    rw [List.find?_append]
    simp [Ne.symm hne]
  · refine find?_updateWhere_other fun row hrow => ?_
    have heq : row.fingerprint = fingerprint := of_decide_eq_true hrow
    simp [heq, Ne.symm hne]

/-- A window that retention keeps. -/
theorem windowOf_retained (h : windowOf fingerprint windows = some window)
    (hkept : timestamp < window.expiresAt * 1000) :
    windowOf fingerprint (windows.filter fun row =>
      !decide (row.expiresAt * 1000 ≤ timestamp)) = some window := by
  unfold windowOf at h ⊢
  rw [List.find?_filter]
  obtain ⟨hmatches, before, after, rfl, hnone⟩ := List.find?_eq_some_iff_append.1 h
  refine List.find?_eq_some_iff_append.2 ⟨?_, before, after, rfl, fun row hrow => ?_⟩
  · simp [hkept, of_decide_eq_true hmatches]
  · have hother := hnone row hrow
    simp only [Bool.not_eq_true', decide_eq_false_iff_not] at hother
    simp [hother]

end Windows

/-! ### Finalisations -/

/-- A finalised click: its client and contract, whether it is billable, when its transaction began,
and when it was committed. -/
structure Finalization where
  fingerprint : Hash
  identity : Identity
  billable : Bool
  startedAt : ℕ
  committedAt : ℕ
deriving DecidableEq

/-- How the capture of a click has ended in a step. -/
def endedIn (id : Id) (w w' : World) : Option ClickStatus :=
  if w.db.clicks.any (BillingClick.isCapturing id) then
    (w'.db.clicks.find? fun row => row.id = id).map (·.status)
  else none

/-- The finalisation that a step makes: a capture ends billable or suppressed.  The transaction
began with the action before. -/
def finalized (ext : External) : Label World Reply Failure Job → Option Finalization
  | .act (.click _ request) _ (.ran started _ :: _) (.ran w w') =>
    (clickBillingFingerprint ext request).bind fun fingerprint =>
      ((endedIn request.delivery.deliveryId w w').bind ClickStatus.billable?).map fun billable =>
        ⟨fingerprint, request.delivery.identity, billable, started.clock, w.clock⟩
  | _ => none

/-- What a transaction of a job does to the windows and the totals. -/
inductive WindowStep (j : Job) (w w' : World) : Option Finalization → Prop where
  | none : w'.db.windows = w.db.windows → w'.db.totals = w.db.totals → WindowStep j w w' none
  | finalize {f : Finalization} : f.startedAt ≤ w.clock → f.committedAt = w.clock →
      claimClickBillingWindow f.fingerprint f.startedAt w.db.windows =
        (f.billable, w'.db.windows) →
      w'.db.totals = countClick f.identity f.billable w.db.totals → WindowStep j w w' (some f)
  | retain {n timestamp : ℕ} : j = .retain n → timestamp ≤ w.clock →
      w'.db.windows = (w.db.windows.filter fun row =>
        !decide (row.expiresAt * 1000 ≤ timestamp)) →
      w'.db.totals = w.db.totals → WindowStep j w w' none

/-- The step is one of the retention job. -/
def isRetention : Label World Reply Failure Job → Bool
  | .act (.retain _) _ _ _ => true
  | _ => false

section Steps

variable {O : Outside} {w w' : World} {h : Log} {j : Job} {began : World}

theorem finalized_silent {l : Label World Reply Failure Job} (hl : l.Silent) :
    finalized O.ext l = none := by
  cases l with
  | act j began h e => cases e with
    | asked =>
      cases j with
      | click =>
        cases h with
        | nil => rfl
        | cons e h => cases e <;> rfl
      | _ => rfl
    | ran w w' => exact absurd rfl (hl j began h w w')
  | _ => rfl

theorem finalized_click {n : ℕ} {request : CaptureRequest} {started started' : World} :
    finalized O.ext (.act (.click n request) began (.ran started started' :: h) (.ran w w')) =
      (clickBillingFingerprint O.ext request).bind fun fingerprint =>
        ((endedIn request.delivery.deliveryId w w').bind ClickStatus.billable?).map fun billable =>
          ⟨fingerprint, request.delivery.identity, billable, started.clock, w.clock⟩ := rfl

/-- A click that ends neither billable nor suppressed. -/
theorem finalized_other {n : ℕ} {request : CaptureRequest}
    (hended : (endedIn request.delivery.deliveryId w w').bind ClickStatus.billable? = none) :
    finalized O.ext (.act (.click n request) began h (.ran w w')) = none := by
  cases h with
  | nil => rfl
  | cons e h => cases e with
    | asked => rfl
    | ran started _ =>
      rw [finalized_click, hended]
      cases clickBillingFingerprint O.ext request <;> rfl

/-- How a capture has ended, by the row of its click. -/
theorem endedIn_eq {id : Id} {row : BillingClick} (hw' : Ledger w'.db)
    (hold : ∃ old ∈ w.db.clicks, old.isCapturing id = true) (hrow : row ∈ w'.db.clicks)
    (hid : row.id = id) : endedIn id w w' = some row.status := by
  subst hid
  unfold endedIn
  rw [if_pos (List.any_eq_true.2 hold), hw'.clickIds.find?_eq hrow]
  rfl

/-- The capture of a click that stays as it was has not ended so. -/
theorem endedIn_other {id : Id} (hw : Ledger w.db) (hrows : ∀ row ∈ w'.db.clicks,
    row ∈ w.db.clicks ∨ row.status.billable? = none) :
    (endedIn id w w').bind ClickStatus.billable? = none := by
  unfold endedIn
  split_ifs with hany
  · rcases hfound : w'.db.clicks.find? fun row => row.id = id with _ | row <;> rw [hfound]
    · rfl
    · have hmatch := List.find?_some hfound
      have hid : row.id = id := of_decide_eq_true hmatch
      obtain ⟨old, hold, hcapturing⟩ := List.any_eq_true.1 hany
      obtain ⟨holdId, hstatus⟩ := isCapturing_cases hcapturing
      show row.status.billable? = none
      obtain hmem | hnone := hrows row (List.mem_of_find?_eq_some hfound)
      · -- the row is the one that is being captured
        rw [hw.clickIds.eq hmem hold (hid.trans holdId.symm), hstatus]
        rfl
      · exact hnone
  · rfl

/-- **One transaction.** -/
theorem windowStep_of_write (hw : Ledger w.db) (hw' : Ledger w'.db)
    (hreads : ∀ w₁, ReadIn h w₁ → w₁.clock ≤ w.clock) (hwrite : JobWrite O.ext j h w w')
    (hpromise : JobPromise O.ext j h w w') :
    WindowStep j w w' (finalized O.ext (.act j began h (.ran w w'))) := by
  cases j with
  | click n request =>
    have hclick : CapturePromise O.ext request h w w' := hpromise
    cases hclick with
    | other hwindows htotals hrows =>
      rw [finalized_other (endedIn_other hw hrows)]
      exact .none hwindows htotals
    | @finalize started h₀ fingerprint c hlog hfingerprint hbillable hcapturing =>
      subst hlog
      obtain ⟨old, hold, hold'⟩ := hcapturing
      generalize hclaim : claimClickBillingWindow fingerprint started.clock w.db.windows = claim
      obtain ⟨allowed, windows⟩ := claim
      have hdb : w.db.finalizeClick request fingerprint c started.clock =
          { w.db with
            windows := windows
            clicks := updateWhere (BillingClick.isCapturing request.delivery.deliveryId)
              (fun row => row.finalize c allowed) w.db.clicks
            totals := countClick request.delivery.identity allowed w.db.totals } := by
        unfold Database.finalizeClick
        rw [hclaim]
      rw [hdb] at hw' ⊢
      have hrow : old.finalize c allowed ∈ updateWhere
          (BillingClick.isCapturing request.delivery.deliveryId)
          (fun row => row.finalize c allowed) w.db.clicks := mem_updateWhere_of hold hold'
      have hstatus : (old.finalize c allowed).status.billable? = some allowed := by
        cases allowed
        · rfl
        · exact hbillable
      rw [finalized_click, hfingerprint,
        endedIn_eq hw' ⟨old, hold, hold'⟩ hrow (isCapturing_cases hold').1, Option.bind_some,
        Option.bind_some, hstatus]
      exact .finalize (hreads started (.head _)) rfl hclaim rfl
  | retain n =>
    cases hwrite with
    | idle => exact .none rfl rfl
    | @retain w₀ now _ hread => exact .retain rfl (hreads w₀ hread) rfl rfl
  | _ =>
    obtain ⟨_, _, ⟨⟩, -⟩ | ⟨_, ⟨⟩, -⟩ | hattends := hwrite.attends hw
    exact .none hattends.windows hattends.totals

end Steps

/-! ### Runs -/

/-- The totals of a contract: billable and suppressed clicks. -/
def countsOf (identity : Identity) (totals : List ClickTotals) : ℕ × ℕ :=
  ((totals.find? fun row => row.identity = identity).map fun row =>
    (row.billableClicks, row.suppressedClicks)).getD (0, 0)

theorem countsOf_countClick (identity identity' : Identity) (allowed : Bool)
    (totals : List ClickTotals) : countsOf identity' (countClick identity allowed totals) =
      ((countsOf identity' totals).1 + (decide (identity = identity') && allowed).toNat,
        (countsOf identity' totals).2 + (decide (identity = identity') && !allowed).toNat) := by
  unfold countsOf countClick
  by_cases hany : (totals.any fun row => decide (row.identity = identity)) = true
  · rw [if_pos hany]
    by_cases hid : identity = identity'
    · subst hid
      have hmap : ∀ f : ClickTotals → ClickTotals, (∀ row, (f row).identity = row.identity) →
          (updateWhere (fun row => decide (row.identity = identity)) f totals).find?
            (fun row => decide (row.identity = identity)) =
          (totals.find? fun row => decide (row.identity = identity)).map f := fun f hf =>
        find?_updateWhere fun row => by rw [hf]
      have hfound := List.find?_isSome.2 (List.any_eq_true.1 hany)
      obtain ⟨row, hrow⟩ := Option.isSome_iff_exists.1 hfound
      rw [hmap _ fun row => by cases allowed <;> rfl, hrow]
      cases allowed <;> simp
    · rw [find?_updateWhere_other fun row hrow => ?_]
      · simp [hid]
      · have heq : row.identity = identity := of_decide_eq_true hrow
        cases allowed <;> simp [heq, hid]
  · rw [if_neg hany, List.find?_append]
    by_cases hid : identity = identity'
    · subst hid
      have hnone : (totals.find? fun row => decide (row.identity = identity)) = none :=
        List.find?_eq_none.2 fun row hrow hmatch => hany (List.any_eq_true.2 ⟨row, hrow, hmatch⟩)
      rw [hnone]
      cases allowed <;> simp
    · simp [hid]

/-- The window of the client stays open for five minutes after the click's transaction began. -/
def Finalization.Covers (f : Finalization) (w : World) : Prop :=
  ∃ window, windowOf f.fingerprint w.db.windows = some window ∧
    f.startedAt + fiveMinutes ≤ window.expiresAt * 1000 + 500

section

variable {O : Outside} {w w' : World} {f g : Finalization} {fs : List Finalization}

/-- Another finalisation. -/
theorem Finalization.Covers.finalize (hf : f.Covers w)
    (hclaim : claimClickBillingWindow g.fingerprint g.startedAt w.db.windows =
      (g.billable, w'.db.windows)) :
    f.Covers w' ∧ (g.fingerprint = f.fingerprint → g.billable = true →
      f.startedAt + fiveMinutes ≤ g.startedAt + 500) := by
  obtain ⟨window, hwindow, hcovers⟩ := hf
  have hwindows : w'.db.windows =
      (claimClickBillingWindow g.fingerprint g.startedAt w.db.windows).2 := by rw [hclaim]
  by_cases hsame : g.fingerprint = f.fingerprint
  · obtain ⟨hnone, -⟩ | ⟨window', hwindow', ⟨hended, heq⟩ | ⟨-, heq⟩⟩ :=
      claimWindow_cases g.fingerprint g.startedAt w.db.windows
    · rw [hsame, hwindow] at hnone
      cases hnone
    · -- the window has ended, and opens again
      have hopened := windowOf_claimed (by rw [heq] :
        (claimClickBillingWindow g.fingerprint g.startedAt w.db.windows).1 = true)
      rw [hsame, hwindow] at hwindow'
      obtain rfl := Option.some.inj hwindow'
      have hfirst : f.startedAt + fiveMinutes ≤ g.startedAt + 500 :=
        Nat.le_trans hcovers (Nat.add_le_add_right hended _)
      have hlater : g.startedAt + 500 ≤ g.startedAt + fiveMinutes :=
        Nat.add_le_add_left (by decide) _
      refine ⟨⟨⟨g.fingerprint, windowEnd g.startedAt⟩, ?_, ?_⟩, fun _ _ => hfirst⟩
      · rw [hwindows, ← hsame]
        exact hopened
      · exact Nat.le_trans hfirst (Nat.le_trans hlater (windowEnd_bounds g.startedAt).1)
    · rw [hclaim] at heq
      obtain ⟨hsuppressed, hsame'⟩ := Prod.mk.inj heq
      refine ⟨⟨window, hsame' ▸ hwindow, hcovers⟩, fun _ hbillable => ?_⟩
      rw [hsuppressed] at hbillable
      cases hbillable
  · refine ⟨⟨window, ?_, hcovers⟩, fun h => absurd h hsame⟩
    rw [hwindows, windowOf_other (Ne.symm hsame)]
    exact hwindow

/-- A billable click opens the window. -/
theorem Finalization.covers_of_claim (hbillable : f.billable = true)
    (hclaim : claimClickBillingWindow f.fingerprint f.startedAt w.db.windows =
      (f.billable, w'.db.windows)) : f.Covers w' := by
  have hopened := windowOf_claimed (by rw [hclaim, hbillable] :
    (claimClickBillingWindow f.fingerprint f.startedAt w.db.windows).1 = true)
  rw [hclaim] at hopened
  exact ⟨_, hopened, (windowEnd_bounds f.startedAt).1⟩

/-- What the windows and the totals say about the finalisations so far. -/
structure Accounted (fs : List Finalization) (w : World) : Prop where
  opened : ∀ window ∈ w.db.windows, ∃ f ∈ fs, f.fingerprint = window.fingerprint ∧
    f.billable = true ∧ window.expiresAt = windowEnd f.startedAt
  covered : ∀ f ∈ fs, f.billable = true →
    f.Covers w ∨ f.startedAt + fiveMinutes ≤ w.clock + 500
  apart : fs.Pairwise fun a b => a.fingerprint = b.fingerprint → a.billable = true →
    b.billable = true → a.startedAt + fiveMinutes ≤ b.committedAt + 500
  counts : ∀ identity, countsOf identity w.db.totals =
    (fs.countP fun f => decide (f.identity = identity) && f.billable,
      fs.countP fun f => decide (f.identity = identity) && !f.billable)

/-- Windows are deleted when they have ended, and time passes. -/
theorem Accounted.later (h : Accounted fs w) (hclock : w.clock ≤ w'.clock)
    (htotals : w'.db.totals = w.db.totals) {timestamp : ℕ} (htimestamp : timestamp ≤ w.clock)
    (hwindows : w'.db.windows = w.db.windows ∨ w'.db.windows = w.db.windows.filter fun row =>
      !decide (row.expiresAt * 1000 ≤ timestamp)) : Accounted fs w' := by
  refine ⟨fun window hwindow => ?_, fun f hf hbillable => ?_, h.apart, htotals ▸ h.counts⟩
  · refine h.opened window ?_
    obtain heq | heq := hwindows <;> rw [heq] at hwindow
    · exact hwindow
    · exact (List.mem_filter.1 hwindow).1
  · obtain ⟨window, hwindow, hcovers⟩ | hlate := h.covered f hf hbillable
    · obtain heq | heq := hwindows
      · exact .inl ⟨window, heq ▸ hwindow, hcovers⟩
      · rcases Nat.lt_or_ge timestamp (window.expiresAt * 1000) with hlt | hge
        · exact .inl ⟨window, heq ▸ windowOf_retained hwindow hlt, hcovers⟩
        · exact .inr (by omega)
    · exact .inr (by omega)

/-- One more finalisation. -/
theorem Accounted.finalize (h : Accounted fs w) (hclock : w'.clock = w.clock)
    (hstarted : g.startedAt ≤ w.clock) (hcommitted : g.committedAt = w.clock)
    (hclaim : claimClickBillingWindow g.fingerprint g.startedAt w.db.windows =
      (g.billable, w'.db.windows))
    (htotals : w'.db.totals = countClick g.identity g.billable w.db.totals) :
    Accounted (fs ++ [g]) w' := by
  refine ⟨fun window hwindow => ?_, fun f hf hbillable => ?_, ?_, fun identity => ?_⟩
  · have hold : ∀ window ∈ w.db.windows, ∃ f ∈ fs ++ [g], f.fingerprint = window.fingerprint ∧
        f.billable = true ∧ window.expiresAt = windowEnd f.startedAt := fun window hwindow => by
      obtain ⟨f, hf, hopened⟩ := h.opened window hwindow
      exact ⟨f, List.mem_append_left _ hf, hopened⟩
    have hwindows : w'.db.windows =
        (claimClickBillingWindow g.fingerprint g.startedAt w.db.windows).2 := by rw [hclaim]
    rw [hwindows] at hwindow
    obtain ⟨-, heq⟩ | ⟨_, -, ⟨-, heq⟩ | ⟨-, heq⟩⟩ :=
      claimWindow_cases g.fingerprint g.startedAt w.db.windows <;> rw [heq] at hwindow
    · obtain hwindow | hwindow := List.mem_append.1 hwindow
      · exact hold window hwindow
      · rw [List.mem_singleton.1 hwindow]
        exact ⟨g, by simp, rfl, congrArg Prod.fst (hclaim.symm.trans heq), rfl⟩
    · obtain ⟨hwindow, -⟩ | ⟨window, -, hmatch, rfl⟩ := mem_updateWhere_cases hwindow
      · exact hold window hwindow
      · exact ⟨g, by simp, (of_decide_eq_true hmatch).symm,
          congrArg Prod.fst (hclaim.symm.trans heq), rfl⟩
    · exact hold window hwindow
  · obtain hf | hf := List.mem_append.1 hf
    · obtain hcovers | hlate := h.covered f hf hbillable
      · exact .inl (hcovers.finalize hclaim).1
      · exact .inr (hclock ▸ hlate)
    · obtain rfl := List.mem_singleton.1 hf
      exact .inl (Finalization.covers_of_claim hbillable hclaim)
  · refine List.pairwise_append.2 ⟨h.apart, List.pairwise_singleton _ _, ?_⟩
    intro a ha b hb hsame habillable hbillable
    obtain rfl := List.mem_singleton.1 hb
    obtain hcovers | hlate := h.covered a ha habillable
    · have happart := (hcovers.finalize hclaim).2 hsame.symm hbillable
      omega
    · omega
  · rw [htotals, countsOf_countClick, h.counts identity, List.countP_append, List.countP_append,
      List.countP_singleton, List.countP_singleton]
    cases g.billable <;> by_cases hid : g.identity = identity <;> simp [hid]

variable {ls ls' : List (Label World Reply Failure Job)} {c c' : MarketConfig}

theorem filterMap_finalized_append (ls : List (Label World Reply Failure Job))
    (l : Label World Reply Failure Job) : (ls ++ [l]).filterMap (finalized O.ext) =
      ls.filterMap (finalized O.ext) ++ (finalized O.ext l).toList := by
  rw [List.filterMap_append]
  cases h : finalized O.ext l <;> simp [h]

/-- What a transaction of a run does to the windows. -/
theorem windowStep_of_guar {j : Job} {began : World} {h : Log} (hinv : Inv O.forest w)
    (hinv' : Inv O.forest w')
    (hrec : Concurrent.Recorded (Inv O.forest) (Grows O.forest) O.answers began h w)
    (hguar : JobWrite O.ext j h w w' ∧ JobPromise O.ext j h w w') :
    WindowStep j w w' (finalized O.ext (.act j began h (.ran w w'))) :=
  windowStep_of_write hinv.ledger hinv'.ledger (fun _ hread => (hrec.until_ _ hread).clock)
    hguar.1 hguar.2

theorem accounted_of_run (hw : World.Initial O w) (hrun : (market O).Run (Config.idle w) ls c) :
    Accounted (ls.filterMap (finalized O.ext)) c.shared := by
  refine (windowProtocol O).traced (L := fun _ => True) (I := fun _ => True)
    (J := fun ls w => Accounted (ls.filterMap (finalized O.ext)) w) (fun _ _ _ => trivial)
    ?_ ?_ hw.inv ?_ hrun fun _ _ => trivial
  · intro ls l w w' hl hle hcause hJ
    rw [filterMap_finalized_append, finalized_silent hl, Option.toList_none, List.append_nil]
    have hdb : w'.db = w.db := db_of_cause hcause
    exact hJ.later (Grows.clock hle) (by rw [hdb]) (Nat.zero_le _) (.inl (by rw [hdb]))
  · intro ls j began h w w' _ _ hinv hinv' hle hrec _ hguar hJ
    have hstep := windowStep_of_guar hinv hinv' hrec hguar
    have hclock := (JobWrite.keeps (Inv.ledger hinv) (grows_of_recorded hrec) hguar.1).step.clock
    rw [filterMap_finalized_append]
    generalize finalized O.ext (.act j began h (.ran w w')) = o at hstep
    cases hstep with
    | none hwindows htotals =>
      rw [Option.toList_none, List.append_nil]
      exact hJ.later (Grows.clock hle) htotals (Nat.zero_le _) (.inl hwindows)
    | finalize hstarted hcommitted hclaim htotals =>
      exact hJ.finalize hclock hstarted hcommitted hclaim htotals
    | retain _ htimestamp hwindows htotals =>
      rw [Option.toList_none, List.append_nil]
      exact hJ.later (Grows.clock hle) htotals htimestamp (.inr hwindows)
  · have hwindows : w.db.windows = [] := by rw [hw.db]; rfl
    have htotals : w.db.totals = [] := by rw [hw.db]; rfl
    refine ⟨fun window hwindow => ?_, fun f hf => ?_, .nil, fun identity => ?_⟩
    · rw [hwindows] at hwindow
      cases hwindow
    · cases hf
    · rw [htotals]
      rfl

/-- As long as no window is deleted, the windows keep the finalisations apart. -/
structure Spaced (fs : List Finalization) (w : World) : Prop where
  covered : ∀ f ∈ fs, f.billable = true → f.Covers w
  apart : fs.Pairwise fun a b => a.fingerprint = b.fingerprint → a.billable = true →
    b.billable = true → a.startedAt + fiveMinutes ≤ b.startedAt + 500

theorem Spaced.same (h : Spaced fs w) (hwindows : w'.db.windows = w.db.windows) : Spaced fs w' :=
  ⟨fun f hf hbillable => by
    obtain ⟨window, hwindow, hcovers⟩ := h.covered f hf hbillable
    exact ⟨window, hwindows ▸ hwindow, hcovers⟩, h.apart⟩

theorem Spaced.finalize (h : Spaced fs w)
    (hclaim : claimClickBillingWindow g.fingerprint g.startedAt w.db.windows =
      (g.billable, w'.db.windows)) : Spaced (fs ++ [g]) w' := by
  refine ⟨fun f hf hbillable => ?_,
    List.pairwise_append.2 ⟨h.apart, List.pairwise_singleton _ _, ?_⟩⟩
  · obtain hf | hf := List.mem_append.1 hf
    · exact ((h.covered f hf hbillable).finalize hclaim).1
    · obtain rfl := List.mem_singleton.1 hf
      exact Finalization.covers_of_claim hbillable hclaim
  · intro a ha b hb hsame habillable hbillable
    obtain rfl := List.mem_singleton.1 hb
    exact ((h.covered a ha habillable).finalize hclaim).2 hsame.symm hbillable

theorem spaced_of_run (hc : (windowProtocol O).Safe c) (hrun : (market O).Run c ls c')
    (hls : ∀ l ∈ ls, isRetention l = false) :
    Spaced (ls.filterMap (finalized O.ext)) c'.shared := by
  have hsilent : ∀ {ls l w w'}, l.Silent → w'.db = w.db →
      Spaced (ls.filterMap (finalized O.ext)) w →
      Spaced ((ls ++ [l]).filterMap (finalized O.ext)) w' := fun hl hdb hJ => by
    rw [filterMap_finalized_append, finalized_silent hl, Option.toList_none, List.append_nil]
    exact hJ.same (by rw [hdb])
  refine (hc.along (L := fun l => isRetention l = false)
    (J := fun ls w => Spaced (ls.filterMap (finalized O.ext)) w)
    (R := fun _ _ => True) (fun _ => trivial) ?_ ?_ ?_ ?_ (fun _ _ _ _ _ => trivial) ?_ hrun hls).1
  · intro ls l w hl hJ
    refine hsilent ?_ rfl hJ
    rintro j began h s s' rfl
    exact hl
  · intro ls w w' _ henv hJ
    refine ⟨hsilent ?_ (Environment.db henv) hJ, fun _ _ => trivial⟩
    rintro j began h s s' ⟨⟩
  · intro ls j w _ hJ
    refine ⟨hsilent (w := w) ?_ rfl hJ, fun _ _ => trivial⟩
    rintro j began h s s' ⟨⟩
  · intro ls j began h w w' hl hinv hrec _ hguar hJ
    refine ⟨?_, fun _ _ => trivial⟩
    have hinv' : Inv O.forest w' := (windowProtocol O).inv_guar hrec hguar hinv
    have hstep : WindowStep j w w' (finalized O.ext (.act j began h (.ran w w'))) :=
      windowStep_of_guar hinv hinv' hrec hguar
    rw [filterMap_finalized_append]
    generalize finalized O.ext (.act j began h (.ran w w')) = o at hstep
    cases hstep with
    | none hwindows _ =>
      rw [Option.toList_none, List.append_nil]
      exact hJ.same hwindows
    | finalize _ _ hclaim _ => exact hJ.finalize hclaim
    | retain hj =>
      subst hj
      cases hl
  · exact ⟨fun f hf => absurd hf List.not_mem_nil, .nil⟩

/-! ### A run -/

/-- The delivery `id` of the sample run, signed at some time. -/
def windowDelivery (id issuedAt : ℕ) : AdDelivery :=
  ⟨id, issuedAt, 2, sampleIdentity, 3, "hat".toList, 4, 1⟩

/-- The request that opens it. -/
def windowRequest (id issuedAt : ℕ) : CaptureRequest :=
  ⟨sampleIdentity, 2, 6, windowDelivery id issuedAt, some "::1".toList⟩

/-- A token is signed. -/
def issueWindow (id issuedAt : ℕ) (w : World) : Option World :=
  if (w.issued.all fun d => d.deliveryId ≠ id) ∧ w.clock / 1000 = issuedAt then
    some { w with issued := windowDelivery id issuedAt :: w.issued }
  else none

/-- Time passes. -/
def tickWindow (clock : ℕ) (w : World) : Option World :=
  if w.clock ≤ clock then some { w with clock := clock } else none

/-- Two clicks of one client follow each other closely. -/
def windowOpening : List (Move World Reply Failure Job Slot) :=
  [.env (issueWindow 11 1000000), .env (issueWindow 12 1000000),
    .env (issueWindow 13 1000000), .start (.click 0 (windowRequest 11 1000000)),
    .act (.other 0) 10 sampleOracle, .stop (.other 0),
    .start (.click 1 (windowRequest 12 1000000)), .act (.other 1) 10 sampleOracle,
    .stop (.other 1)]

/-- A third click comes five minutes later. -/
def windowReopening : List (Move World Reply Failure Job Slot) :=
  [.env (tickWindow 1300001000), .start (.click 2 (windowRequest 13 1000000)),
    .act (.other 2) 10 sampleOracle, .stop (.other 2)]

theorem allows_issueWindow (id issuedAt : ℕ) :
    (market sampleOutside).Allows (.env (issueWindow id issuedAt)) := by
  intro w w' h
  unfold issueWindow at h
  split_ifs at h with hw
  obtain rfl := Option.some.inj h
  obtain ⟨hnew, hclock⟩ := hw
  refine .issue (fun d hd => of_decide_eq_true (List.all_eq_true.1 hnew d hd)) ?_
  rw [← hclock]
  rfl

theorem allows_tickWindow (clock : ℕ) :
    (market sampleOutside).Allows (.env (tickWindow clock)) := by
  intro w w' h
  unfold tickWindow at h
  split_ifs at h with hle
  obtain rfl := Option.some.inj h
  exact .tick hle

theorem allows_windowOpening : ∀ m ∈ windowOpening, (market sampleOutside).Allows m := by
  simp only [windowOpening, List.forall_mem_cons]
  exact ⟨allows_issueWindow _ _, allows_issueWindow _ _, allows_issueWindow _ _, trivial,
    fun _ _ => rfl, trivial, trivial, fun _ _ => rfl, trivial, by simp⟩

theorem allows_windowReopening : ∀ m ∈ windowReopening, (market sampleOutside).Allows m := by
  simp only [windowReopening, List.forall_mem_cons]
  exact ⟨allows_tickWindow _, trivial, fun _ _ => rfl, trivial, by simp⟩

theorem windowOpening_isSome :
    ((market sampleOutside).play windowOpening (Config.idle sampleStart)).isSome = true := by
  decide +kernel

/-- After the first two clicks. -/
def windowOpened : MarketConfig :=
  ((market sampleOutside).play windowOpening (Config.idle sampleStart)).get windowOpening_isSome

theorem windowReopening_isSome :
    ((market sampleOutside).play windowReopening windowOpened).isSome = true := by
  decide +kernel

/-- After all three clicks. -/
def windowEnded : MarketConfig :=
  ((market sampleOutside).play windowReopening windowOpened).get windowReopening_isSome

/-- What happens up to the second click. -/
def openingLabels : List (Label World Reply Failure Job) :=
  (market sampleOutside).labels windowOpening (Config.idle sampleStart)

/-- What happens afterwards. -/
def reopeningLabels : List (Label World Reply Failure Job) :=
  (market sampleOutside).labels windowReopening windowOpened

theorem run_windowOpening :
    (market sampleOutside).Run (Config.idle sampleStart) openingLabels windowOpened :=
  Machine.run_labels allows_windowOpening (Option.some_get windowOpening_isSome).symm

theorem run_windowReopening :
    (market sampleOutside).Run windowOpened reopeningLabels windowEnded :=
  Machine.run_labels allows_windowReopening (Option.some_get windowReopening_isSome).symm

/-- The first click is billable, the second is suppressed, and the third is billable again. -/
theorem finalized_windowLabels :
    (openingLabels ++ reopeningLabels).filterMap (finalized sampleExternal) =
      [⟨7, sampleIdentity, true, 1000000000, 1000000000⟩,
        ⟨7, sampleIdentity, false, 1000000000, 1000000000⟩,
        ⟨7, sampleIdentity, true, 1300001000, 1300001000⟩] := by
  decide +kernel

/-! ### The theorems -/

/-- **Two billable clicks of one client are five minutes apart**, up to half a millisecond by which
the end of a window is rounded: the second is committed five minutes after the transaction of the
first began.  As long as the retention job does not run in between, its transaction also begins five
minutes later; but the job may delete a window that has ended before an older transaction gets to
it. -/
theorem billable_apart (hw : World.Initial O w) (hrun : (market O).Run (Config.idle w) ls c)
    (hrun' : (market O).Run c ls' c') :
    ((ls ++ ls').filterMap (finalized O.ext)).Pairwise (fun a b =>
      a.fingerprint = b.fingerprint → a.billable = true → b.billable = true →
        a.startedAt + fiveMinutes ≤ b.committedAt + 500) ∧
    ((∀ l ∈ ls', isRetention l = false) → (ls'.filterMap (finalized O.ext)).Pairwise fun a b =>
      a.fingerprint = b.fingerprint → a.billable = true → b.billable = true →
        a.startedAt + fiveMinutes ≤ b.startedAt + 500) := by
  refine ⟨(accounted_of_run hw (hrun.trans hrun')).apart, fun hls => ?_⟩
  have hsafe : (windowProtocol O).Safe c :=
    (Protocol.safe_idle (P := windowProtocol O) hw.inv).run hrun
  exact (spaced_of_run hsafe hrun' hls).apart

theorem billable_apart_sample :
    ((openingLabels ++ reopeningLabels).filterMap (finalized sampleExternal)).map (·.billable) =
      [true, false, true] ∧
    ((openingLabels ++ reopeningLabels).filterMap (finalized sampleExternal)).Pairwise fun a b =>
      a.fingerprint = b.fingerprint → a.billable = true → b.billable = true →
        a.startedAt + fiveMinutes ≤ b.committedAt + 500 :=
  ⟨by rw [finalized_windowLabels]; rfl,
    (billable_apart (O := sampleOutside) sampleStart_initial run_windowOpening
      run_windowReopening).1⟩

/-- **A click is suppressed only after a billable one** of its client, whose transaction began less
than five minutes before (and half a millisecond); a suppressed click leaves the window alone. -/
theorem suppressed_after {l : Label World Reply Failure Job} (hw : World.Initial O w)
    (hrun : (market O).Run (Config.idle w) (ls ++ l :: ls') c) (hl : finalized O.ext l = some f)
    (hsuppressed : f.billable = false) :
    ∃ j began h w₁ w₂, l = .act j began h (.ran w₁ w₂) ∧ w₂.db.windows = w₁.db.windows ∧
      ∃ g ∈ ls.filterMap (finalized O.ext), g.fingerprint = f.fingerprint ∧ g.billable = true ∧
        f.startedAt < g.startedAt + fiveMinutes + 500 := by
  obtain ⟨c₁, hrun₁, hrest⟩ := hrun.append
  obtain ⟨c₂, hstep, -⟩ := hrest.cons
  have hsafe : (windowProtocol O).Safe c₁ :=
    (Protocol.safe_idle (P := windowProtocol O) hw.inv).run hrun₁
  cases l with
  | act j began h e => cases e with
    | ran w₁ w₂ =>
      obtain ⟨hguar, hbefore, -, hrec, hsafe₂⟩ := hsafe.act hstep
      obtain rfl : w₁ = c₁.shared := hbefore
      have hinv' : Inv O.forest w₂ := (windowProtocol O).inv_guar hrec hguar hsafe.inv
      have hwindow : WindowStep j c₁.shared w₂
          (finalized O.ext (.act j began h (.ran c₁.shared w₂))) :=
        windowStep_of_guar hsafe.inv hinv' hrec hguar
      rw [hl] at hwindow
      cases hwindow with
      | finalize _ _ hclaim _ =>
        obtain ⟨-, heq⟩ | ⟨window, hfound, ⟨-, heq⟩ | ⟨hopen, heq⟩⟩ :=
          claimWindow_cases f.fingerprint f.startedAt c₁.shared.db.windows
        · rw [hclaim, hsuppressed] at heq
          cases congrArg Prod.fst heq
        · rw [hclaim, hsuppressed] at heq
          cases congrArg Prod.fst heq
        · obtain ⟨hmem, hfingerprint⟩ := windowOf_fingerprint hfound
          obtain ⟨g, hg, hsame, hbillable, hends⟩ := (accounted_of_run hw hrun₁).opened window hmem
          refine ⟨j, began, h, _, w₂, rfl, congrArg Prod.snd (hclaim.symm.trans heq), g, hg,
            hsame.trans hfingerprint, hbillable, ?_⟩
          rw [hends] at hopen
          exact Nat.lt_of_lt_of_le hopen (windowEnd_bounds g.startedAt).2
    | asked s q a =>
      rw [finalized_silent (by rintro j began h s s' ⟨⟩)] at hl
      cases hl
  | _ =>
    rw [finalized_silent (by rintro j began h s s' ⟨⟩)] at hl
    cases hl

theorem suppressed_after_sample : ∃ l ∈ openingLabels ++ reopeningLabels,
    finalized sampleExternal l = some ⟨7, sampleIdentity, false, 1000000000, 1000000000⟩ ∧
      ∃ g ∈ (openingLabels ++ reopeningLabels).filterMap (finalized sampleExternal),
        g.billable = true ∧ 1000000000 < g.startedAt + fiveMinutes + 500 := by
  have hmem : (⟨7, sampleIdentity, false, 1000000000, 1000000000⟩ : Finalization) ∈
      (openingLabels ++ reopeningLabels).filterMap (finalized sampleExternal) := by
    rw [finalized_windowLabels]
    exact List.mem_cons_of_mem _ (.head _)
  obtain ⟨l, hl, hfinalized⟩ := List.mem_filterMap.1 hmem
  obtain ⟨ls, ls', hsplit⟩ := List.append_of_mem hl
  have hrun := run_windowOpening.trans run_windowReopening
  rw [hsplit] at hrun
  obtain ⟨-, -, -, -, -, -, -, g, hg, -, hbillable, hlt⟩ :=
    suppressed_after (O := sampleOutside) sampleStart_initial hrun hfinalized rfl
  refine ⟨l, hl, hfinalized, g, ?_, hbillable, hlt⟩
  rw [hsplit, List.filterMap_append]
  exact List.mem_append_left _ hg

/-- **The totals are the numbers of finalised clicks**, billable and suppressed. -/
theorem totals_counted (hw : World.Initial O w) (hrun : (market O).Run (Config.idle w) ls c)
    (identity : Identity) : countsOf identity c.shared.db.totals =
      ((ls.filterMap (finalized O.ext)).countP fun f =>
          decide (f.identity = identity) && f.billable,
        (ls.filterMap (finalized O.ext)).countP fun f =>
          decide (f.identity = identity) && !f.billable) :=
  (accounted_of_run hw hrun).counts identity

theorem totals_counted_sample : countsOf sampleIdentity windowEnded.shared.db.totals = (2, 1) := by
  rw [totals_counted (O := sampleOutside) sampleStart_initial
    (run_windowOpening.trans run_windowReopening) sampleIdentity]
  rw [show sampleOutside.ext = sampleExternal from rfl, finalized_windowLabels]
  rfl

end

end Market

end PreCommunity
