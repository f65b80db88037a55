import PreCommunity.Concurrent.Promises
import PreCommunity.Market.Safety

/-!
# Every delivery is billed at most once

The first opening of a delivery claims the row of its click, and only the process that claimed it
can bill it.  Billed rows stay.  Suppressed rows are deleted after two hours, and with the row the
claim is forgotten; but by then every token of the delivery has expired.

* `Attends` : what the other jobs do to clicks.
* `billed`, `claimed` : the deliveries that a step bills or claims.
* `billed_once` : no delivery is billed twice, and who bills it has claimed it.
* `claimed_once` : no delivery is claimed twice, so its first opening decides.
-/

namespace PreCommunity

namespace Market

open Store Concurrent
open Ads (adDeliveryTtlMs clockSkewMs)

/-! ### The other jobs -/

/-- What the jobs that do not capture clicks do to one: a capture may be given up. -/
structure BillingClick.Attended (c c' : BillingClick) : Prop where
  id : c'.id = c.id
  clickedAt : c'.clickedAt = c.clickedAt
  capturing : c.status = .capturing → c'.status = .capturing ∨ c'.status = .unbilled

theorem BillingClick.Attended.refl (c : BillingClick) : c.Attended c := ⟨rfl, rfl, .inl⟩

/-- What the jobs that do not capture clicks leave alone. -/
structure Attends (db db' : Database) : Prop where
  clicks : ∃ g, db'.clicks = db.clicks.map g ∧ ∀ c ∈ db.clicks, c.Attended (g c)
  windows : db'.windows = db.windows
  totals : db'.totals = db.totals

theorem Attends.of_eq {db db' : Database} (hclicks : db'.clicks = db.clicks)
    (hwindows : db'.windows = db.windows) (htotals : db'.totals = db.totals) : Attends db db' := by
  refine ⟨⟨fun c => c, ?_, fun c _ => .refl c⟩, hwindows, htotals⟩
  rw [hclicks, List.map_id']

/-- A bulk update of clicks. -/
theorem attended_updateWhere {clicks : List BillingClick} {p : BillingClick → Bool}
    {f : BillingClick → BillingClick} (hf : ∀ c ∈ clicks, p c = true → c.Attended (f c)) :
    ∃ g, updateWhere p f clicks = clicks.map g ∧ ∀ c ∈ clicks, c.Attended (g c) := by
  refine ⟨fun c => if p c then f c else c, rfl, fun c hc => ?_⟩
  beta_reduce
  split_ifs with hp
  · exact hf c hc hp
  · exact .refl c

/-- A click that is not being captured gets another status. -/
theorem attended_of_captured {c c' : BillingClick} (hc : c.status ≠ .capturing)
    (hid : c'.id = c.id) (hclickedAt : c'.clickedAt = c.clickedAt) : c.Attended c' :=
  ⟨hid, hclickedAt, fun h => absurd h hc⟩

section Writes

variable {w w' : World} {h : Log}

theorem upsertSettings_windows (db : Database) (identity : Identity) :
    (db.upsertSettings identity).windows = db.windows := by
  unfold Database.upsertSettings
  split_ifs <;> rfl

theorem upsertSettings_totals (db : Database) (identity : Identity) :
    (db.upsertSettings identity).totals = db.totals := by
  unfold Database.upsertSettings
  split_ifs <;> rfl

theorem attends_upsertSettings (db : Database) (identity : Identity) :
    Attends db (db.upsertSettings identity) :=
  .of_eq (upsertSettings_clicks _ _) (upsertSettings_windows _ _) (upsertSettings_totals _ _)

/-- The clicks of a batch get another status. -/
theorem attended_withStatus (hw : Ledger w.db) {id : Id} {status : ClickStatus}
    {errorCode : Option ErrorCode} : ∃ g, updateWhere (fun row => row.batchId = some id)
      (fun row => row.withStatus status errorCode) w.db.clicks = w.db.clicks.map g ∧
        ∀ c ∈ w.db.clicks, c.Attended (g c) := by
  refine attended_updateWhere fun c hc hp => ?_
  have hbatch : c.batchId = some id := of_decide_eq_true hp
  exact attended_of_captured ((hw.click c hc).persists (by simp [hbatch])).1 rfl rfl

theorem attends_settle (hw : Ledger w.db) {b batch : ChargeBatch} (hdebt : b.SameDebt batch)
    (receipt : ChargeReceipt) (charged : ℕ) :
    Attends w.db (w.db.settle batch receipt charged) := by
  refine ⟨?_, rfl, rfl⟩
  rw [settle_eq w.db hdebt, withClicks_clicks]
  refine ⟨_, rfl, fun c hc => ?_⟩
  by_cases hid : c.id ∈ (splitCharge charged (batchClicks w.db b.id)).1 ∨
      c.id ∈ (splitCharge charged (batchClicks w.db b.id)).2
  · obtain ⟨x, hx, heq⟩ := of_mem_splitCharge charged hid
    obtain ⟨hx, hxb⟩ := mem_batchClicks.1 hx
    obtain rfl := hw.clickIds.eq hx hc heq
    have hcaptured := ((hw.click x hx).persists (by simp [hxb])).1
    obtain ⟨-, e, he⟩ | ⟨-, e, he⟩ := share_cases hid <;> rw [he] <;>
      exact attended_of_captured hcaptured rfl rfl
  · rw [share_of_not_mem _ _ hid]
    exact .refl c

theorem attends_reserve {run : ChargeRun} {deps : ChargeDependencies} {settings : ChargeSettings}
    {head : ℕ} {random : ℕ → Id} {ids : List Id} {db : Database}
    (hres : (reserveRunTx run settings deps head random).run w.db = .ok (ids, db)) :
    Attends w.db db := by
  obtain ⟨db₁, f, hreserves, -, rfl⟩ := reserveRunTx_ok hres
  obtain ⟨htables, -, ⟨g, hg, hplaced⟩⟩ := hreserves.reserved
  have hwindows : db₁.windows = w.db.windows := by rw [htables]; rfl
  have htotals : db₁.totals = w.db.totals := by rw [htables]; rfl
  refine ⟨⟨g, hg, fun c _ => ?_⟩, hwindows, htotals⟩
  obtain heq | ⟨hpending, -, id, due, heq⟩ := hplaced c
  · rw [heq]
    exact .refl c
  · rw [heq]
    exact attended_of_captured (by simp [hpending]) rfl rfl

theorem ChargeWrite.attends {ext : External} {deps : ChargeDependencies} (hw : Ledger w.db)
    (hwrite : ChargeWrite ext deps h w w') : Attends w.db w'.db := by
  cases hwrite with
  | upsertSettings => exact attends_upsertSettings _ _
  | interrupt =>
    refine ⟨attended_updateWhere fun c _ _ => ?_, rfl, rfl⟩
    exact ⟨rfl, rfl, fun _ => .inr rfl⟩
  | convert =>
    refine ⟨attended_updateWhere fun c _ hp => ?_, rfl, rfl⟩
    have hstatus := (awaitsPrice_cases (of_decide_eq_true hp).2).1
    exact attended_of_captured (by simp [hstatus]) rfl rfl
  | invalidate =>
    refine ⟨attended_updateWhere fun c _ hp => ?_, rfl, rfl⟩
    obtain ⟨-, hs | hs⟩ := waiting_cases (of_decide_eq_true hp).2 <;>
      exact attended_of_captured (by simp [hs]) rfl rfl
  | reserve _ hres => exact attends_reserve hres
  | settle _ hdebt => exact attends_settle hw hdebt _ _
  | close => exact ⟨attended_withStatus hw, rfl, rfl⟩
  | reset => exact ⟨attended_withStatus hw, rfl, rfl⟩
  | _ => exact .of_eq rfl rfl rfl

theorem PublicationWrite.attends {deps : PricePublicationDependencies}
    (hwrite : PublicationWrite deps h w w') : Attends w.db w'.db := by
  cases hwrite <;> exact .of_eq rfl rfl rfl

theorem IndexWrite.attends {config : IndexConfig} (hwrite : IndexWrite config h w w') :
    Attends w.db w'.db := by
  cases hwrite with
  | chunk _ _ _ _ _ _ _ =>
    obtain ⟨_, _, _, heq⟩ := commitChunk_tables w.db config.identity (sortLogs _ _) _ _ _
    rw [World.withDb_db, heq]
    exact .of_eq rfl rfl rfl
  | refresh _ _ _ _ =>
    obtain ⟨_, _, _, heq⟩ := commitChunk_tables w.db config.identity [] _ _ _
    rw [World.withDb_db, heq]
    exact .of_eq rfl rfl rfl
  | _ => exact .of_eq rfl rfl rfl

theorem AdminWrite.attends {identity : Identity} (hwrite : AdminWrite identity w w') :
    Attends w.db w'.db := by
  cases hwrite with
  | settings | upsert | request =>
    exact .of_eq (upsertSettings_clicks w.db identity) (upsertSettings_windows w.db identity)
      (upsertSettings_totals w.db identity)
  | _ => exact .of_eq rfl rfl rfl

/-- **Every write**: of a click, of a retention job, or one that leaves captures to themselves. -/
theorem JobWrite.attends {ext : External} {j : Job} (hw : Ledger w.db)
    (hwrite : JobWrite ext j h w w') :
    (∃ n request, j = .click n request ∧ CaptureWrite ext request h w w') ∨
      (∃ n, j = .retain n ∧ RetainWrite h w w') ∨ Attends w.db w'.db := by
  cases j with
  | charge deps runId cached => exact .inr (.inr (ChargeWrite.attends hw hwrite))
  | publish deps => exact .inr (.inr (PublicationWrite.attends hwrite))
  | index n config => exact .inr (.inr (IndexWrite.attends hwrite))
  | click n request => exact .inl ⟨n, request, rfl, hwrite⟩
  | retain n => exact .inr (.inl ⟨n, rfl, hwrite⟩)
  | updateSettings n identity input => exact .inr (.inr (AdminWrite.attends hwrite))
  | requestRun n identity => exact .inr (.inr (AdminWrite.attends hwrite))

end Writes

/-! ### Steps that claim and bill -/

/-- The capture of the click has ended with a bill. -/
def ClickStatus.billed : ClickStatus → Bool
  | pending | pricePending | settled => true
  | _ => false

/-- The deliveries that a step bills: their clicks were being captured, and now have a bill. -/
def billed : Label World Reply Failure Job → List Id
  | .act _ _ _ (.ran w w') => (w'.db.clicks.filter fun row => row.status.billed &&
      w.db.clicks.any (BillingClick.isCapturing row.id)).map (·.id)
  | _ => []

/-- The deliveries that a step claims: their clicks are new. -/
def claimed : Label World Reply Failure Job → List Id
  | .act _ _ _ (.ran w w') => (w'.db.clicks.filter fun row =>
      !w.db.clicks.any fun old => old.id = row.id).map (·.id)
  | _ => []

section Labels

variable {j : Job} {began w w' : World} {h : Log} {id : Id} {l : Label World Reply Failure Job}

theorem mem_billed : id ∈ billed (.act j began h (.ran w w')) ↔
    ∃ row ∈ w'.db.clicks, row.id = id ∧ row.status.billed = true ∧
      ∃ old ∈ w.db.clicks, old.id = id ∧ old.status = .capturing := by
  simp only [billed, List.mem_map, List.mem_filter, Bool.and_eq_true, List.any_eq_true,
    BillingClick.isCapturing, decide_eq_true_eq]
  constructor
  · rintro ⟨row, ⟨hrow, hbilled, hold⟩, rfl⟩
    exact ⟨row, hrow, rfl, hbilled, hold⟩
  · rintro ⟨row, hrow, rfl, hbilled, hold⟩
    exact ⟨row, ⟨hrow, hbilled, hold⟩, rfl⟩

theorem mem_claimed : id ∈ claimed (.act j began h (.ran w w')) ↔
    ∃ row ∈ w'.db.clicks, row.id = id ∧ ∀ old ∈ w.db.clicks, old.id ≠ id := by
  simp only [claimed, List.mem_map, List.mem_filter, Bool.not_eq_true', List.any_eq_false,
    decide_eq_true_eq]
  constructor
  · rintro ⟨row, ⟨hrow, hnew⟩, rfl⟩
    exact ⟨row, hrow, rfl, hnew⟩
  · rintro ⟨row, hrow, rfl, hnew⟩
    exact ⟨row, ⟨hrow, hnew⟩, rfl⟩

theorem billed_silent (hl : l.Silent) : billed l = [] := by
  cases l with
  | act j began h e => cases e with
    | asked => rfl
    | ran w w' => exact absurd rfl (hl j began h w w')
  | _ => rfl

theorem claimed_silent (hl : l.Silent) : claimed l = [] := by
  cases l with
  | act j began h e => cases e with
    | asked => rfl
    | ran w w' => exact absurd rfl (hl j began h w w')
  | _ => rfl

theorem nodup_billed (hw' : Ledger w'.db) : (billed (.act j began h (.ran w w'))).Nodup :=
  (List.filter_sublist.map _).nodup hw'.clickIds

theorem nodup_claimed (hw' : Ledger w'.db) : (claimed (.act j began h (.ran w w'))).Nodup :=
  (List.filter_sublist.map _).nodup hw'.clickIds

/-- A click with a bill stays. -/
theorem persists_of_billed {c : BillingClick} (hc : c.status.billed = true) : c.Persists := by
  constructor <;> intro hs <;> rw [hs] at hc <;> cases hc

/-- The only click of its id has no bill while it is being captured. -/
theorem not_billed_of_capturing {clicks : List BillingClick} (hkeyed : Keyed (·.id) clicks)
    {row old : BillingClick} (hrow : row ∈ clicks) (hold : old ∈ clicks) (hid : row.id = old.id)
    (hcapturing : old.status = .capturing) : row.status.billed = false := by
  rw [hkeyed.eq hrow hold hid, hcapturing]
  rfl

end Labels

/-! ### Billing -/

/-- What was billed so far is still there, and was billed once. -/
structure Billed (ls : List (Label World Reply Failure Job)) (w : World) : Prop where
  persists : ∀ id ∈ ls.flatMap billed, ∃ row ∈ w.db.clicks, row.id = id ∧ row.Persists
  nodup : (ls.flatMap billed).Nodup

section Runs

variable {O : Outside} {w w' : World} {ls : List (Label World Reply Failure Job)}

theorem Billed.grows (hbilled : Billed ls w) (hgrows : Grows O.forest w w')
    {l : Label World Reply Failure Job} (hl : billed l = []) : Billed (ls ++ [l]) w' := by
  have hsame : (ls ++ [l]).flatMap billed = ls.flatMap billed := by
    simp [List.flatMap_append, hl]
  refine ⟨?_, hsame ▸ hbilled.nodup⟩
  rw [hsame]
  intro id hid
  obtain ⟨row, hrow, rfl, hpersists⟩ := hbilled.persists id hid
  obtain ⟨row', hrow', hmoves⟩ := hgrows.clicks row hrow hpersists
  exact ⟨row', hrow', hmoves.id, hmoves.persists hpersists⟩

/-- One transaction. -/
theorem Billed.ran (hbilled : Billed ls w) (hw : Ledger w.db) (hw' : Ledger w'.db)
    (hgrows : Grows O.forest w w') (j : Job) (began : World) (h : Log) :
    Billed (ls ++ [.act j began h (.ran w w')]) w' := by
  have hsplit : (ls ++ [Label.act j began h (.ran w w')]).flatMap billed =
      ls.flatMap billed ++ billed (.act j began h (.ran w w')) := by
    rw [List.flatMap_append, List.flatMap_singleton]
  refine ⟨?_, ?_⟩
  · rw [hsplit]
    intro id hid
    obtain hid | hid := List.mem_append.1 hid
    · obtain ⟨row, hrow, rfl, hpersists⟩ := hbilled.persists id hid
      obtain ⟨row', hrow', hmoves⟩ := hgrows.clicks row hrow hpersists
      exact ⟨row', hrow', hmoves.id, hmoves.persists hpersists⟩
    · obtain ⟨row, hrow, heq, hbill, -⟩ := mem_billed.1 hid
      exact ⟨row, hrow, heq, persists_of_billed hbill⟩
  · rw [hsplit]
    refine List.nodup_append.2 ⟨hbilled.nodup, nodup_billed hw', ?_⟩
    rintro id hid _ hid' rfl
    -- the click that was billed before is not being captured any more
    obtain ⟨row, hrow, heq, hpersists⟩ := hbilled.persists id hid
    obtain ⟨-, -, -, -, old, hold, hold', hcapturing⟩ := mem_billed.1 hid'
    have hsame := hw.clickIds.eq hrow hold (heq.trans hold'.symm)
    exact hpersists.1 (hsame ▸ hcapturing)

theorem billed_of_run {c : MarketConfig} (hw : World.Initial O w)
    (hrun : (market O).Run (Config.idle w) ls c) : Billed ls c.shared := by
  refine (protocol O).traced (L := fun _ => True) (I := fun _ => True) (J := Billed)
    (fun _ _ _ => trivial) ?_ ?_ hw.inv ⟨by simp, List.nodup_nil⟩ hrun fun _ _ => trivial
  · exact fun ls l w w' hl hle _ hJ => hJ.grows hle (billed_silent hl)
  · intro ls j began h w w' _ _ hinv hinv' hle _ _ _ hJ
    exact hJ.ran hinv.ledger hinv'.ledger hle j began h

/-- **Who bills a click has claimed it**: a transaction that bills is one of a click job, and the
job's log has its claim. -/
theorem JobWrite.of_billed {j : Job} {began : World} {h : Log} {id : Id} (hw : Ledger w.db)
    (hwrite : JobWrite O.ext j h w w') (hid : id ∈ billed (.act j began h (.ran w w'))) :
    ∃ n request, j = .click n request ∧ id = request.delivery.deliveryId ∧ Claimed request h := by
  obtain ⟨row, hrow, hrowId, hbill, old, hold, holdId, hcapturing⟩ := mem_billed.1 hid
  have hunbilled : ∀ x ∈ w.db.clicks, x.id = id → x.status.billed = false := fun x hx hxid =>
    not_billed_of_capturing hw.clickIds hx hold (hxid.trans holdId.symm) hcapturing
  -- the row is not one that was left as it was
  have hsame : row ∉ w.db.clicks := fun hmem => by
    rw [hunbilled row hmem hrowId] at hbill
    cases hbill
  obtain ⟨n, request, rfl, hcapture⟩ | ⟨n, rfl, hretain⟩ | hattends := hwrite.attends hw
  · refine ⟨n, request, rfl, ?_⟩
    have hupdated : ∀ {f : BillingClick → BillingClick},
        row ∈ updateWhere (BillingClick.isCapturing request.delivery.deliveryId) f w.db.clicks →
        (∀ x, (f x).id = x.id) → id = request.delivery.deliveryId ∧ ∃ x, row = f x := by
      intro f hmem hf
      obtain ⟨hmem, -⟩ | ⟨x, -, hx, rfl⟩ := mem_updateWhere_cases hmem
      · exact absurd hmem hsame
      · exact ⟨hrowId.symm.trans ((hf x).trans (isCapturing_cases hx).1), x, rfl⟩
    cases hcapture with
    | idle => exact absurd hrow hsame
    | claim _ _ hfresh =>
      obtain hmem | hmem := List.mem_append.1 hrow
      · exact absurd hmem hsame
      · rw [List.mem_singleton.1 hmem] at hbill
        cases hbill
    | close =>
      obtain ⟨-, x, rfl⟩ := hupdated hrow fun _ => rfl
      cases hbill
    | settle hclaimed => exact ⟨(hupdated hrow fun _ => rfl).1, hclaimed⟩
    | finalize hclaimed => exact ⟨(hupdated hrow fun _ => rfl).1, hclaimed⟩
  · cases hretain with
    | idle => exact absurd hrow hsame
    | retain => exact absurd (List.mem_filter.1 hrow).1 hsame
  · obtain ⟨⟨g, hg, hattended⟩, -, -⟩ := hattends
    rw [hg] at hrow
    obtain ⟨x, hx, rfl⟩ := List.mem_map.1 hrow
    obtain rfl := hw.clickIds.eq hx hold (((hattended x hx).id.symm.trans hrowId).trans holdId.symm)
    obtain hs | hs := (hattended x hx).capturing hcapturing <;> rw [hs] at hbill <;> cases hbill

/-- **No delivery is billed twice**: in no run of the market, with any number of openings at once.
And who bills it has claimed it before, when its click was new. -/
theorem billed_once {c : MarketConfig} (hw : World.Initial O w)
    (hrun : (market O).Run (Config.idle w) ls c) :
    (ls.flatMap billed).Nodup ∧ ∀ j began h w₁ w₂, .act j began h (.ran w₁ w₂) ∈ ls →
      ∀ id ∈ billed (.act j began h (.ran w₁ w₂)), ∃ e h₁, e :: h₁ <:+ h ∧
        .act j began h₁ e ∈ ls ∧ id ∈ claimed (.act j began h₁ e) := by
  refine ⟨(billed_of_run hw hrun).nodup, fun j began h w₁ w₂ hmem id hid => ?_⟩
  obtain ⟨before, after, rfl⟩ := List.append_of_mem hmem
  obtain ⟨c₁, hrun₁, hrest⟩ := hrun.append
  obtain ⟨c₂, hstep, -⟩ := hrest.cons
  have hreaches : Reaches O c₁ := ⟨w, before, hw, hrun₁⟩
  obtain ⟨hwrite, rfl, -, -⟩ := hreaches.ran hstep
  obtain ⟨n, request, rfl, rfl, w₀, clickedAt, hfresh, hran⟩ :=
    hwrite.of_billed hreaches.inv.ledger hid
  obtain ⟨later, h₁, rfl⟩ := List.append_of_mem hran
  obtain ⟨i, p, rest, hp, hjob, hbegan, hhist, -⟩ := hstep.of_act
  obtain ⟨ls₁, ls₂, -, -, rfl, -⟩ := hrun₁.recorded hp (h := h₁)
    (by rw [hhist]; exact List.suffix_append _ _)
  refine ⟨_, h₁, List.suffix_append _ _, ?_, ?_⟩
  · rw [← hjob, ← hbegan]
    simp
  · refine mem_claimed.2 ⟨BillingClick.claim request.delivery clickedAt, ?_, rfl, hfresh⟩
    exact List.mem_append_right _ (.head _)

theorem billed_once_sample :
    ((market sampleOutside).labels sampleRun (Config.idle sampleStart)).flatMap billed = [11] ∧
      ∀ id ∈ ((market sampleOutside).labels sampleRun (Config.idle sampleStart)).flatMap billed,
        id ∈ ((market sampleOutside).labels sampleRun (Config.idle sampleStart)).flatMap
          claimed := by
  refine ⟨by decide +kernel, fun id hid => ?_⟩
  have hrun := Machine.run_labels allows_sampleRun (Option.some_get sample_isSome).symm
  obtain ⟨l, hl, hid⟩ := List.mem_flatMap.1 hid
  cases l with
  | act j began h e => cases e with
    | ran w₁ w₂ =>
      obtain ⟨e, h₁, -, hmem, hclaimed⟩ :=
        (billed_once sampleStart_initial hrun).2 j began h w₁ w₂ hl id hid
      exact List.mem_flatMap.2 ⟨_, hmem, hclaimed⟩
    | asked => exact absurd hid List.not_mem_nil
  | _ => exact absurd hid List.not_mem_nil

/-! ### Claiming -/

/-- The clocks of the API and the worker and the clock of the database agree within a minute. -/
def Outside.Synchronized (O : Outside) : Prop :=
  ∀ (w : World) (now : ℕ), O.answers w .now (.ok now) →
    w.clock ≤ (now + clockSkewMs) * 1000 ∧ now * 1000 ≤ w.clock + clockSkewMs * 1000

/-- The answer to a question about the time. -/
def clockAnswer : Event World Reply Failure → Option ℕ
  | .asked _ .now (.ok now) => some now
  | _ => none

/-- If the step claims a delivery, it comes at most 57 minutes after the token was checked. -/
def Prompt : Label World Reply Failure Job → Bool
  | .act (.click _ _) _ [_, checked] (.ran w _) =>
    (clockAnswer checked).all fun now => w.clock ≤ (now + 57 * 60000) * 1000
  | _ => true

/-- The tokens signed so far: one for each delivery, dated by a clock that is right. -/
structure Dated (w : World) : Prop where
  distinct : Keyed (·.deliveryId) w.issued
  issuedAt : ∀ d ∈ w.issued, d.issuedAt * 1000 ≤ w.clock + clockSkewMs * 1000

/-- What was claimed so far: a click is there until all tokens of its delivery have expired. -/
structure ClaimedOnce (ls : List (Label World Reply Failure Job)) (w : World) : Prop where
  dated : Dated w
  clicks : ∀ row ∈ w.db.clicks, ∃ d ∈ w.issued, d.deliveryId = row.id ∧
    d.issuedAt ≤ row.clickedAt + 2 * clockSkewMs
  kept : ∀ id ∈ ls.flatMap claimed, (∃ row ∈ w.db.clicks, row.id = id) ∨
    ∃ d ∈ w.issued, d.deliveryId = id ∧ (d.issuedAt + 117 * 60000) * 1000 < w.clock
  nodup : (ls.flatMap claimed).Nodup

theorem Dated.grows {w w' : World} (hw : Dated w) (hissued : w'.issued = w.issued)
    (hclock : w.clock ≤ w'.clock) : Dated w' := by
  refine ⟨hissued ▸ hw.distinct, fun d hd => ?_⟩
  have hle := hw.issuedAt d (hissued ▸ hd)
  exact Nat.le_trans hle (Nat.add_le_add_right hclock _)

/-- The environment signs a token with a new id and the time of its clock. -/
theorem Dated.env {w w' : World} (hO : O.Synchronized) (hw : Dated w)
    (henv : Environment O w w') : Dated w' := by
  cases henv with
  | tick hle => exact hw.grows rfl hle
  | chain => exact hw.grows rfl (Nat.le_refl _)
  | issue hnew hnow =>
    refine ⟨List.nodup_cons.2 ⟨fun hmem => ?_, hw.distinct⟩, fun d hd => ?_⟩
    · obtain ⟨d', hd', heq⟩ := List.mem_map.1 hmem
      exact hnew d' hd' heq
    · obtain rfl | hd := List.mem_cons.1 hd
      · exact (hO _ _ hnow).2
      · exact hw.issuedAt d hd
  | expire => exact hw.grows rfl (Nat.le_refl _)

/-- The ids and dates of the clicks. -/
def Database.clickDates (db : Database) : List (Id × ℕ) :=
  db.clicks.map fun row => (row.id, row.clickedAt)

theorem mem_clickDates {db : Database} {id : Id} {clickedAt : ℕ} :
    (id, clickedAt) ∈ db.clickDates ↔
      ∃ row ∈ db.clicks, row.id = id ∧ row.clickedAt = clickedAt := by
  simp [Database.clickDates]

theorem clickDates_updateClicks {db : Database} {p : BillingClick → Bool}
    {f : BillingClick → BillingClick} (hf : ∀ c, (f c).id = c.id ∧ (f c).clickedAt = c.clickedAt) :
    (db.updateClicks p f).clickDates = db.clickDates :=
  map_updateWhere fun c _ _ => by rw [(hf c).1, (hf c).2]

theorem Attends.clickDates {db db' : Database} (h : Attends db db') :
    db'.clickDates = db.clickDates := by
  obtain ⟨⟨g, hg, hattended⟩, -, -⟩ := h
  unfold Database.clickDates
  rw [hg, List.map_map]
  refine List.map_congr_left fun c hc => ?_
  show ((g c).id, (g c).clickedAt) = _
  rw [(hattended c hc).id, (hattended c hc).clickedAt]

/-- What a step does to the ids and dates of the clicks. -/
theorem JobWrite.clickDates {j : Job} {h : Log} {w w' : World} (hw : Ledger w.db)
    (hwrite : JobWrite O.ext j h w w') : w'.db.clickDates = w.db.clickDates ∨
      (∃ n request w₁ w₂, ∃ now clickedAt : ℕ, j = .click n request ∧
        h = [.asked w₂ .now (.ok clickedAt), .asked w₁ .now (.ok now)] ∧
        acceptsDelivery request.delivery request.revisionId now = true ∧
        (∀ row ∈ w.db.clicks, row.id ≠ request.delivery.deliveryId) ∧
        w'.db.clickDates = w.db.clickDates ++ [(request.delivery.deliveryId, clickedAt)]) ∨
      ∃ (w₀ : World) (now : ℕ), Heard h .now now ∧ w' = w.withDb (w.db.retain now w₀.clock) := by
  obtain ⟨n, request, rfl, hcapture⟩ | ⟨n, rfl, hretain⟩ | hattends := hwrite.attends hw
  · cases hcapture with
    | idle => exact .inl rfl
    | @claim w₁ w₂ now clickedAt hlog haccepts hfresh =>
      refine .inr (.inl ⟨n, request, w₁, w₂, now, clickedAt, rfl, hlog, haccepts, hfresh, ?_⟩)
      simp [Database.clickDates, BillingClick.claim]
    | close => exact .inl (clickDates_updateClicks fun _ => ⟨rfl, rfl⟩)
    | settle => exact .inl (clickDates_updateClicks fun _ => ⟨rfl, rfl⟩)
    | finalize => exact .inl (clickDates_updateClicks fun _ => ⟨rfl, rfl⟩)
  · cases hretain with
    | idle => exact .inl rfl
    | @retain w₀ now hnow _ => exact .inr (.inr ⟨w₀, now, hnow, rfl⟩)
  · exact .inl hattends.clickDates

namespace ClaimedOnce

/-- A step that claims nothing. -/
theorem same {w w' : World} (h : ClaimedOnce ls w) {l : Label World Reply Failure Job}
    (hl : claimed l = []) (hdated : Dated w') (hclock : w.clock ≤ w'.clock)
    (hissued : ∀ d ∈ w.issued, d ∈ w'.issued) (hrows : ∀ row' ∈ w'.db.clicks,
      (row'.id, row'.clickedAt) ∈ w.db.clickDates)
    (hkept : ∀ row ∈ w.db.clicks, (∃ row' ∈ w'.db.clicks, row'.id = row.id) ∨
      ∃ d ∈ w'.issued, d.deliveryId = row.id ∧ (d.issuedAt + 117 * 60000) * 1000 < w'.clock) :
    ClaimedOnce (ls ++ [l]) w' := by
  have hsame : (ls ++ [l]).flatMap claimed = ls.flatMap claimed := by
    rw [List.flatMap_append, List.flatMap_singleton, hl, List.append_nil]
  refine ⟨hdated, fun row' hrow' => ?_, fun id hid => ?_, hsame ▸ h.nodup⟩
  · obtain ⟨row, hrow, hid, hclickedAt⟩ := mem_clickDates.1 (hrows row' hrow')
    obtain ⟨d, hd, hdelivery, hle⟩ := h.clicks row hrow
    exact ⟨d, hissued d hd, hdelivery.trans hid, hclickedAt ▸ hle⟩
  · obtain ⟨row, hrow, rfl⟩ | ⟨d, hd, hdelivery, hlt⟩ := h.kept id (hsame ▸ hid)
    · exact hkept row hrow
    · exact .inr ⟨d, hissued d hd, hdelivery, Nat.lt_of_lt_of_le hlt hclock⟩

/-- A step that leaves the ids and dates of the clicks alone. -/
theorem keeps {w w' : World} (h : ClaimedOnce ls w) {l : Label World Reply Failure Job}
    (hl : claimed l = []) (hdated : Dated w') (hclock : w.clock ≤ w'.clock)
    (hissued : ∀ d ∈ w.issued, d ∈ w'.issued) (hdates : w'.db.clickDates = w.db.clickDates) :
    ClaimedOnce (ls ++ [l]) w' := by
  refine h.same hl hdated hclock hissued (fun row' hrow' => ?_) fun row hrow => .inl ?_
  · rw [← hdates]
    exact mem_clickDates.2 ⟨row', hrow', rfl, rfl⟩
  · have hmem : (row.id, row.clickedAt) ∈ w'.db.clickDates := by
      rw [hdates]
      exact mem_clickDates.2 ⟨row, hrow, rfl, rfl⟩
    obtain ⟨row', hrow', hid, -⟩ := mem_clickDates.1 hmem
    exact ⟨row', hrow', hid⟩

/-- **Retention** deletes a click when its tokens have expired. -/
theorem retain {w : World} (h : ClaimedOnce ls w) {j : Job} {began : World} {log : Log}
    {now timestamp : ℕ} (hnow : now * 1000 ≤ w.clock + clockSkewMs * 1000) :
    ClaimedOnce (ls ++ [.act j began log (.ran w (w.withDb (w.db.retain now timestamp)))])
      (w.withDb (w.db.retain now timestamp)) := by
  refine h.same ?_ (h.dated.grows rfl (Nat.le_refl _)) (Nat.le_refl _) (fun _ hd => hd) ?_ ?_
  · refine List.eq_nil_iff_forall_not_mem.2 fun id hid => ?_
    obtain ⟨row, hrow, hrowId, hnew⟩ := mem_claimed.1 hid
    exact hnew row (List.mem_filter.1 hrow).1 hrowId
  · exact fun row hrow => mem_clickDates.2 ⟨row, (List.mem_filter.1 hrow).1, rfl, rfl⟩
  · intro row hrow
    by_cases hdelete : row.status = .suppressed ∧ row.clickedAt < now - 2 * 60 * 60000
    · obtain ⟨d, hd, hdelivery, hle⟩ := h.clicks row hrow
      refine .inr ⟨d, hd, hdelivery, ?_⟩
      have hold := hdelete.2
      change _ < w.clock
      simp only [clockSkewMs] at hnow hle
      omega
    · refine .inl ⟨row, List.mem_filter.2 ⟨hrow, ?_⟩, rfl⟩
      rw [decide_eq_false hdelete]
      rfl

/-- **A claim** is the first of its delivery. -/
theorem claim {w w' : World} (h : ClaimedOnce ls w) {j : Job} {began : World} {log : Log}
    {request : CaptureRequest} {now clickedAt : ℕ} (hissued : request.delivery ∈ w.issued)
    (hsame : w'.issued = w.issued ∧ w'.clock = w.clock)
    (haccepts : acceptsDelivery request.delivery request.revisionId now = true)
    (hprompt : w.clock ≤ (now + 57 * 60000) * 1000)
    (hclickedAt : request.delivery.issuedAt ≤ clickedAt + 2 * clockSkewMs)
    (hfresh : ∀ row ∈ w.db.clicks, row.id ≠ request.delivery.deliveryId)
    (hdates : w'.db.clickDates = w.db.clickDates ++ [(request.delivery.deliveryId, clickedAt)])
    (hw' : Ledger w'.db) : ClaimedOnce (ls ++ [.act j began log (.ran w w')]) w' := by
  have hsplit : (ls ++ [Label.act j began log (.ran w w')]).flatMap claimed =
      ls.flatMap claimed ++ claimed (.act j began log (.ran w w')) := by
    rw [List.flatMap_append, List.flatMap_singleton]
  -- the only new id
  have hnew : ∀ id ∈ claimed (.act j began log (.ran w w')), id = request.delivery.deliveryId := by
    intro id hid
    obtain ⟨row, hrow, rfl, hnone⟩ := mem_claimed.1 hid
    have hmem : (row.id, row.clickedAt) ∈ w'.db.clickDates := mem_clickDates.2 ⟨row, hrow, rfl, rfl⟩
    rw [hdates] at hmem
    obtain hmem | hmem := List.mem_append.1 hmem
    · obtain ⟨old, hold, heq, -⟩ := mem_clickDates.1 hmem
      exact absurd heq (hnone old hold)
    · exact congrArg Prod.fst (List.mem_singleton.1 hmem)
  have hforth : ∀ id date, (id, date) ∈ w'.db.clickDates → ∃ row ∈ w'.db.clicks, row.id = id :=
    fun id date hmem => by
      obtain ⟨row, hrow, hid, -⟩ := mem_clickDates.1 hmem
      exact ⟨row, hrow, hid⟩
  have hdated := h.dated.grows hsame.1 (Nat.le_of_eq hsame.2.symm)
  refine ⟨hdated, fun row hrow => ?_, fun id hid => ?_, ?_⟩
  · have hmem : (row.id, row.clickedAt) ∈ w'.db.clickDates := mem_clickDates.2 ⟨row, hrow, rfl, rfl⟩
    rw [hdates] at hmem
    rw [hsame.1]
    obtain hmem | hmem := List.mem_append.1 hmem
    · obtain ⟨old, hold, hid, hdate⟩ := mem_clickDates.1 hmem
      obtain ⟨d, hd, hdelivery, hle⟩ := h.clicks old hold
      exact ⟨d, hd, hdelivery.trans hid, hdate ▸ hle⟩
    · obtain ⟨hid, hdate⟩ := Prod.mk.inj (List.mem_singleton.1 hmem)
      exact ⟨request.delivery, hissued, hid.symm, hdate ▸ hclickedAt⟩
  · rw [hsplit] at hid
    rw [hsame.1, hsame.2]
    obtain hid | hid := List.mem_append.1 hid
    · obtain ⟨row, hrow, rfl⟩ | hgone := h.kept id hid
      · refine .inl (hforth _ row.clickedAt ?_)
        rw [hdates]
        exact List.mem_append_left _ (mem_clickDates.2 ⟨row, hrow, rfl, rfl⟩)
      · exact .inr hgone
    · refine .inl (hforth _ clickedAt ?_)
      rw [hnew id hid, hdates]
      exact List.mem_append_right _ (.head _)
  · rw [hsplit]
    refine List.nodup_append.2 ⟨h.nodup, nodup_claimed hw', ?_⟩
    rintro id hid _ hid' rfl
    obtain rfl := hnew id hid'
    obtain ⟨row, hrow, heq⟩ | ⟨d, hd, heq, hlt⟩ := h.kept _ hid
    · exact hfresh row hrow heq
    · -- the click was deleted when no token of the delivery was valid any more
      obtain rfl := h.dated.distinct.eq hd hissued heq
      obtain ⟨-, -, hvalid, -⟩ := of_decide_eq_true haccepts
      simp only [adDeliveryTtlMs] at hvalid
      omega

end ClaimedOnce

theorem claimed_same {j : Job} {began w w' : World} {h : Log}
    (hdates : w'.db.clickDates = w.db.clickDates) : claimed (.act j began h (.ran w w')) = [] := by
  refine List.eq_nil_iff_forall_not_mem.2 fun id hid => ?_
  obtain ⟨row, hrow, rfl, hnone⟩ := mem_claimed.1 hid
  have hmem : (row.id, row.clickedAt) ∈ w'.db.clickDates := mem_clickDates.2 ⟨row, hrow, rfl, rfl⟩
  rw [hdates] at hmem
  obtain ⟨old, hold, heq, -⟩ := mem_clickDates.1 hmem
  exact hnone old hold heq

theorem claimedOnce_of_run {c : MarketConfig} (hO : O.Synchronized) (hw : World.Initial O w)
    (hrun : (market O).Run (Config.idle w) ls c) (hprompt : ∀ l ∈ ls, Prompt l = true) :
    ClaimedOnce ls c.shared := by
  refine (protocol O).traced (L := fun l => Prompt l = true) (I := Dated) (J := ClaimedOnce)
    (fun _ _ h => h.dated) ?_ ?_ hw.inv ?_ hrun hprompt
  · intro ls l w w' hl hle hcause hJ
    have hnone := claimed_silent hl
    have hissued := Grows.issued hle
    have hclock := Grows.clock hle
    obtain rfl | henv | ⟨j, rfl⟩ := hcause
    · exact hJ.keeps hnone hJ.dated hclock hissued rfl
    · refine hJ.keeps hnone (hJ.dated.env hO henv) hclock hissued ?_
      rw [Environment.db henv]
    · exact hJ.keeps hnone (hJ.dated.grows rfl (Nat.le_refl _)) hclock hissued rfl
  · intro ls j began h w w' hprompt hadmits hinv hinv' hle hrec hheld hwrite hJ
    have hjob : JobWrite O.ext j h w w' := hwrite
    have hledger : Ledger w.db := hinv.ledger
    have hstep := (hjob.keeps hledger (grows_of_recorded hrec)).step
    have hcases := hjob.clickDates hledger
    obtain hdates | ⟨n, request, w₁, w₂, now, clickedAt, rfl, rfl, haccepts, hfresh, hdates⟩ |
      ⟨w₀, now, ⟨w₁, hnow⟩, rfl⟩ := hcases
    · have hdated := hJ.dated.grows hstep.issued (Nat.le_of_eq hstep.clock.symm)
      exact hJ.keeps (claimed_same hdates) hdated (Grows.clock hle) (Grows.issued hle) hdates
    · have hbegan : request.delivery ∈ began.issued := of_decide_eq_true hadmits
      refine hJ.claim (Grows.issued hrec.began_le _ hbegan) ⟨hstep.issued, hstep.clock⟩ haccepts
        (of_decide_eq_true hprompt) ?_ hfresh hdates hinv'.ledger
      -- the token was signed before the click was dated
      have hmem : request.delivery ∈ w₂.issued := Grows.issued (hrec.since _ (.head _)) _ hbegan
      have hissuedAt := (hheld _ (.head _)).issuedAt _ hmem
      have hclickedAt := (hO w₂ clickedAt (hrec.answered _ _ _ (.head _))).1
      simp only [Event.before_asked, clockSkewMs] at hissuedAt hclickedAt ⊢
      omega
    · refine hJ.retain ?_
      have hread := (hO w₁ now (hrec.answered _ _ _ hnow)).2
      have hclock := Grows.clock (hrec.until_ _ hnow)
      exact Nat.le_trans hread (Nat.add_le_add_right hclock _)
  · have hissued := hw.issued
    have hclicks : w.db.clicks = [] := by rw [hw.db]; rfl
    refine ⟨⟨?_, ?_⟩, ?_, by simp, List.nodup_nil⟩
    · rw [hissued]
      exact .nil
    · rw [hissued]
      exact fun d hd => absurd hd List.not_mem_nil
    · rw [hclicks]
      exact fun row hrow => absurd hrow List.not_mem_nil

/-- A click that is not being captured never is again, unless its delivery is claimed. -/
theorem not_capturing_of_run {c c' : MarketConfig} {ls' : List (Label World Reply Failure Job)}
    {id : Id} (hc : (protocol O).Safe c) (hrun : (market O).Run c ls' c')
    (hnone : ∀ row ∈ c.shared.db.clicks, row.id = id → row.status ≠ .capturing)
    (hunclaimed : ∀ l ∈ ls', id ∉ claimed l) :
    ∀ row ∈ c'.shared.db.clicks, row.id = id → row.status ≠ .capturing := by
  refine (hc.along (L := fun l => id ∉ claimed l)
    (J := fun _ w => ∀ row ∈ w.db.clicks, row.id = id → row.status ≠ .capturing)
    (R := fun _ _ => True) (fun _ => trivial) ?_ ?_ ?_ ?_ ?_ hnone hrun hunclaimed).1
  · exact fun _ _ _ _ hJ => hJ
  · intro ls w w' _ henv hJ
    rw [Environment.db henv]
    exact ⟨hJ, fun _ _ => trivial⟩
  · exact fun _ _ _ _ hJ => ⟨hJ, fun _ _ => trivial⟩
  · intro ls j began h w w' hl hinv hrec _ hwrite hJ
    refine ⟨?_, fun _ _ => trivial⟩
    have hstep := (JobWrite.keeps hinv.ledger (grows_of_recorded hrec) hwrite).step.clicks
    intro row hrow hid
    generalize hclicks : w'.db.clicks = clicks at hstep hrow
    cases hstep with
    | map hg =>
      obtain ⟨x, hx, rfl⟩ := List.mem_map.1 hrow
      exact (hg x hx).captured (hJ x hx ((hg x hx).id.symm.trans hid))
    | claim hfresh =>
      obtain hrow' | hrow' := List.mem_append.1 hrow
      · exact hJ row hrow' hid
      · refine absurd (mem_claimed.2 ⟨row, hclicks ▸ hrow, hid, fun old hold heq => ?_⟩) hl
        rw [List.mem_singleton.1 hrow'] at hid
        exact hfresh old hold (heq.trans hid.symm)
    | delete => exact hJ row (List.mem_filter.1 hrow).1 hid
  · rintro i p - e -
    trivial

/-- **The first opening of a delivery decides**, if the clocks agree within a minute and a claim
comes within 57 minutes after the token was checked: no delivery is claimed twice, although
suppressed clicks are deleted; so once an opening has claimed it, and its capture has ended, no
later opening bills it. -/
theorem claimed_once {c c' : MarketConfig} {ls' : List (Label World Reply Failure Job)}
    (hO : O.Synchronized) (hw : World.Initial O w) (hrun : (market O).Run (Config.idle w) ls c)
    (hrun' : (market O).Run c ls' c') (hprompt : ∀ l ∈ ls ++ ls', Prompt l = true) :
    ((ls ++ ls').flatMap claimed).Nodup ∧ ∀ id ∈ ls.flatMap claimed,
      (∀ row ∈ c.shared.db.clicks, row.id = id → row.status ≠ .capturing) →
        id ∉ ls'.flatMap billed := by
  have hnodup := (claimedOnce_of_run hO hw (hrun.trans hrun') hprompt).nodup
  refine ⟨hnodup, fun id hid hended hbilled => ?_⟩
  rw [List.flatMap_append] at hnodup
  have hunclaimed : ∀ l ∈ ls', id ∉ claimed l := fun l hl hmem =>
    (List.nodup_append.1 hnodup).2.2 id hid id (List.mem_flatMap.2 ⟨l, hl, hmem⟩) rfl
  obtain ⟨l, hl, hid'⟩ := List.mem_flatMap.1 hbilled
  obtain ⟨before, after, rfl⟩ := List.append_of_mem hl
  obtain ⟨c₁, hrun₁, hrest⟩ := hrun'.append
  obtain ⟨c₂, hstep, -⟩ := hrest.cons
  have hsafe : (protocol O).Safe c := (Protocol.safe_idle (P := protocol O) hw.inv).run hrun
  have hnone := not_capturing_of_run hsafe hrun₁ hended fun l' hl' =>
    hunclaimed l' (List.mem_append_left _ hl')
  cases l with
  | act j began h e => cases e with
    | ran w₁ w₂ =>
      obtain ⟨-, -, -, -, old, hold, hold', hcapturing⟩ := mem_billed.1 hid'
      obtain ⟨-, -, -, -, -, -, -, -, hshared, -⟩ := hstep.of_act
      rw [show w₁ = c₁.shared from hshared] at hold
      exact hnone old hold hold' hcapturing
    | asked => exact absurd hid' List.not_mem_nil
  | _ => exact absurd hid' List.not_mem_nil

theorem opening_isSome :
    ((market sampleOutside).play (sampleRun.take 4) (Config.idle sampleStart)).isSome = true := by
  decide +kernel

/-- The sample run after the opening of the delivery. -/
def openingEnd : MarketConfig :=
  ((market sampleOutside).play (sampleRun.take 4) (Config.idle sampleStart)).get opening_isSome

theorem later_isSome :
    ((market sampleOutside).play (sampleRun.drop 4) openingEnd).isSome = true := by
  decide +kernel

theorem sampleOutside_synchronized : sampleOutside.Synchronized := by
  intro w now hnow
  have heq : Except.ok (w.clock / 1000) = (Except.ok now : Except Failure ℕ) := hnow.symm
  obtain rfl := Except.ok.inj heq
  simp only [clockSkewMs]
  omega

theorem claimed_once_sample : 11 ∈ ((market sampleOutside).labels (sampleRun.take 4)
      (Config.idle sampleStart)).flatMap claimed ∧
    11 ∉ ((market sampleOutside).labels (sampleRun.drop 4) openingEnd).flatMap billed := by
  have hmem : 11 ∈ ((market sampleOutside).labels (sampleRun.take 4)
      (Config.idle sampleStart)).flatMap claimed := by decide +kernel
  have hrun := Machine.run_labels (fun m hm => allows_sampleRun m (List.mem_of_mem_take hm))
    (Option.some_get opening_isSome).symm
  have hrun' := Machine.run_labels (fun m hm => allows_sampleRun m (List.mem_of_mem_drop hm))
    (Option.some_get later_isSome).symm
  have hprompt : ((market sampleOutside).labels (sampleRun.take 4) (Config.idle sampleStart) ++
      (market sampleOutside).labels (sampleRun.drop 4) openingEnd).all Prompt = true := by
    decide +kernel
  have hended : openingEnd.shared.db.clicks.all
      (fun row => decide (row.status ≠ .capturing)) = true := by decide +kernel
  refine ⟨hmem, (claimed_once sampleOutside_synchronized sampleStart_initial hrun hrun'
    (List.all_eq_true.1 hprompt)).2 11 hmem fun row hrow _ => ?_⟩
  exact of_decide_eq_true (List.all_eq_true.1 hended row hrow)

end Runs

end Market

end PreCommunity
