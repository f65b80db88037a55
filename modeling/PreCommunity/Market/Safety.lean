import PreCommunity.Market.Pass
import PreCommunity.Market.Publishing
import PreCommunity.Market.Requests

/-!
# The system is safe

Every job keeps to its discipline, and every discipline respects what the others assume.  So in
every run of the Keyword Market the invariant holds, nothing recorded goes back, and every action
of every process is one of the writes and questions listed for its job.

* `protocol` : the rely-guarantee argument for the market.
* `Reaches` : runs from a world before anything has happened.
* `Reaches.inv`, `Reaches.ran`, `Reaches.asked` : what holds in every run.
* `sampleRun` : a run in which a click is captured, charged and settled.
-/

namespace PreCommunity

namespace Market

open Store Concurrent

section

variable {O : Outside} {w w' : World}

/-- The environment moves only forward. -/
theorem Environment.grows (henv : Environment O w w') : Grows O.forest w w' := by
  cases henv with
  | tick hle =>
    exact ⟨fun _ => .refl _, hle, fun _ => id, fun c hc _ => ⟨c, hc, .refl c⟩,
      fun b hb => ⟨b, hb, .refl b⟩, .refl _⟩
  | @chain chainId c hfollows _ =>
    refine ⟨fun id => ?_, Nat.le_refl _, fun _ => id, fun c hc _ => ⟨c, hc, .refl c⟩,
      fun b hb => ⟨b, hb, .refl b⟩, .refl _⟩
    by_cases hid : id = chainId
    · subst hid
      simpa using hfollows
    · simpa [hid] using Chain.Forest.Follows.refl _
  | issue =>
    exact ⟨fun _ => .refl _, Nat.le_refl _, fun _ => .tail _, fun c hc _ => ⟨c, hc, .refl c⟩,
      fun b hb => ⟨b, hb, .refl b⟩, .refl _⟩
  | expire => exact .of_step (.of_eq rfl rfl rfl rfl rfl rfl)

theorem Environment.db (henv : Environment O w w') : w'.db = w.db := by
  cases henv <;> rfl

/-- A step that is no transaction leaves the database alone. -/
theorem db_of_cause (hcause : w' = w ∨ Environment O w w' ∨ ∃ j : Job, w' = w.release j.slot) :
    w'.db = w.db := by
  obtain rfl | henv | ⟨j, rfl⟩ := hcause
  · rfl
  · exact henv.db
  · rfl

theorem Environment.locks (henv : Environment O w w') {owner : Slot} {wallet : Wallet}
    (hl : w'.Locks owner wallet) : w.Locks owner wallet := by
  cases henv with
  | expire => exact (List.mem_filter.1 hl).1
  | _ => exact hl

theorem Environment.inv (henv : Environment O w w') (hw : Inv O.forest w) : Inv O.forest w' := by
  refine ⟨henv.db ▸ hw.ledger, fun wallet owner owner' hl hl' =>
    hw.exclusive wallet owner owner' (henv.locks hl) (henv.locks hl'),
    henv.db ▸ hw.publicationIds, fun id => ?_⟩
  cases henv with
  | @chain chainId c _ hconsistent =>
    by_cases hid : id = chainId
    · subst hid
      simpa using hconsistent
    · simpa [hid] using hw.consistent id
  | _ => exact hw.consistent id

theorem inv_release (hw : Inv O.forest w) (owner : Slot) : Inv O.forest (w.release owner) :=
  ⟨hw.ledger, fun wallet _ _ hl hl' => hw.exclusive wallet _ _ (World.locks_release.1 hl).1
    (World.locks_release.1 hl').1, hw.publicationIds, hw.consistent⟩

theorem grows_release (w : World) (owner : Slot) : Grows O.forest w (w.release owner) :=
  .of_step (.of_eq rfl rfl rfl rfl rfl rfl)

/-- What a process read, it read in an earlier world. -/
theorem grows_of_recorded {inv : World → Prop}
    {ans : World → (q : Query) → Except Failure (Reply q) → Prop} {began : World} {h : Log}
    (hrec : Recorded inv (Grows O.forest) ans began h w) :
    ∀ w₁, ReadIn h w₁ → Grows O.forest w₁ w := fun _ hread => hrec.until_ _ hread

/-- **Every job** keeps to its discipline, from any world. -/
theorem wp_code (j : Job) (w : World) :
    (Job.code O.ext j).wp (jobDiscipline O j) (fun _ _ _ => True) [] w := by
  cases j with
  | charge deps runId cached => exact Routine.wp_silently wp_processAdChargeJob
  | publish deps => exact Routine.wp_silently wp_processPreUsdPricePublication
  | index n config => exact Routine.wp_silently (wp_indexAds _)
  | click n request => exact Routine.wp_silently (wp_click w)
  | retain n => exact Routine.wp_silently (wp_retainAdsData _)
  | updateSettings n identity input => exact Routine.wp_silently (wp_adminUpdateSettings _)
  | requestRun n identity => exact Routine.wp_silently (wp_adminRequestRun _)

variable (O) in
/-- **The rely-guarantee argument** for the market. -/
def protocol : Protocol (market O) where
  inv := Inv O.forest
  le := Grows O.forest
  rely := Relies O.forest
  guar := JobWrite O.ext
  asks j _ := JobAsks j
  le_refl := .refl
  le_trans := .trans
  rely_refl j := (jobDiscipline O j).rely_refl
  rely_trans {j} := (jobDiscipline O j).rely_trans
  guar_refl j h w := (jobDiscipline O j).guar_refl h w
  inv_guar hrec hwrite hw := hwrite.inv hw (grows_of_recorded hrec)
  inv_env henv hw := henv.inv hw
  inv_halt hw := inv_release hw _
  le_guar hrec hwrite hw := .of_step (hwrite.keeps hw.ledger (grows_of_recorded hrec)).step
  le_env henv := henv.grows
  le_halt _ _ := grows_release _ _
  rely_guar hslot hrec hwrite hw := hwrite.relies hw (grows_of_recorded hrec) hslot
  rely_env henv := .of_eq henv.grows henv.db fun _ hl => henv.locks hl
  rely_halt _ := .of_eq (grows_release _ _) rfl fun _ hl => (World.locks_release.1 hl).1
  code_safe _ _ := wp_code _ _

end

/-! ### Runs -/

/-- A configuration of the market. -/
abbrev MarketConfig := Config World Reply Failure Job Slot

/-- A run from a world before anything has happened. -/
def Reaches (O : Outside) (c : MarketConfig) : Prop :=
  ∃ w ls, World.Initial O w ∧ (market O).Run (Config.idle w) ls c

section

variable {O : Outside} {c c' : MarketConfig}

theorem World.Initial.inv {w : World} (hw : World.Initial O w) : Inv O.forest w where
  ledger := hw.db ▸ ledger_empty
  exclusive wallet owner owner' hl := by simp [World.Locks, hw.walletLocks] at hl
  publicationIds := by rw [hw.db]; exact .nil
  consistent := hw.consistent

theorem Reaches.safe (hc : Reaches O c) : (protocol O).Safe c := by
  obtain ⟨w, ls, hw, hrun⟩ := hc
  exact (Protocol.safe_idle (P := protocol O) hw.inv).run hrun

/-- **The invariant** holds in every run. -/
theorem Reaches.inv (hc : Reaches O c) : Inv O.forest c.shared := hc.safe.inv

theorem Reaches.run {ls : List (Label World Reply Failure Job)} (hc : Reaches O c)
    (hrun : (market O).Run c ls c') : Reaches O c' := by
  obtain ⟨w, ls₀, hw, hrun₀⟩ := hc
  exact ⟨w, _, hw, hrun₀.trans hrun⟩

/-- **Nothing recorded goes back.** -/
theorem Reaches.grows {ls : List (Label World Reply Failure Job)} (hc : Reaches O c)
    (hrun : (market O).Run c ls c') : Grows O.forest c.shared c'.shared :=
  hc.safe.run_rel (R := Grows O.forest) .refl (fun _ _ _ => .trans)
    (fun _ _ _ henv => Environment.grows henv) (fun _ _ _ => grows_release _ _)
    (fun _ _ _ _ _ hw hrec hwrite => (protocol O).le_guar hrec hwrite hw) hrun

/-- **Every transaction** of every process is one of its job's writes. -/
theorem Reaches.ran {j : Job} {began w w' : World} {h : Log} (hc : Reaches O c)
    (hstep : (market O).Step c (.act j began h (.ran w w')) c') :
    JobWrite O.ext j h w w' ∧ w = c.shared ∧ w' = c'.shared ∧
      Recorded (Inv O.forest) (Grows O.forest) O.answers began h c.shared := by
  obtain ⟨hmeets, hbefore, hafter, hrec, -⟩ := hc.safe.act hstep
  exact ⟨hmeets, hbefore, hafter, hrec⟩

/-- **Every question** of every process is one that its job may ask. -/
theorem Reaches.asked {j : Job} {began w : World} {h : Log} {q : Query}
    {a : Except Failure (Reply q)} (hc : Reaches O c)
    (hstep : (market O).Step c (.act j began h (.asked w q a)) c') :
    JobAsks j w q ∧ w = c.shared ∧
      Recorded (Inv O.forest) (Grows O.forest) O.answers began h c.shared := by
  obtain ⟨hmeets, hbefore, -, hrec, -⟩ := hc.safe.act hstep
  exact ⟨hmeets, hbefore, hrec⟩

end

/-! ### A run -/

section Sample

/-- A chain that never forks: a block is named by its number. -/
def lineForest : Chain.Forest Hash := ⟨fun h => h - 1, fun h => h, fun _ => rfl⟩

theorem lineForest_ancestor {h n : ℕ} (hn : n ≤ h) : lineForest.ancestor h n = n := by
  have hnumber := Chain.Forest.number_ancestor (F := lineForest) (h := h) hn
  exact hnumber

theorem lineForest_canonical {c : Chain.ChainState Hash} {h : ℕ} :
    lineForest.Canonical c h ↔ h ≤ c.tip :=
  ⟨And.left, fun hle => ⟨hle, lineForest_ancestor hle⟩⟩

theorem lineForest_follows {tip tip' : ℕ} (hle : tip ≤ tip') :
    lineForest.Follows ⟨tip, []⟩ ⟨tip', []⟩ :=
  ⟨fun _ => id, fun _ hh => .inl (lineForest_canonical.2
    (Nat.le_trans (lineForest_canonical.1 hh) hle))⟩

/-- The deployment of the sample run. -/
def sampleIdentity : Identity := ⟨1, 77⟩

/-- The answers of the outside world in the sample run: a position with a bid of half a dollar at
a quarter of a dollar for PRE, and a charge that is mined in block 7. -/
def sampleOracle (w : World) : (q : Query) → Except Failure (Reply q)
  | .chainId => .ok (1 : ℕ)
  | .blockNumber chainId => .ok (w.chains chainId).tip
  | .blockHash chainId block =>
    if block ≤ (w.chains chainId).tip then .ok (block : ℕ) else .error .other
  | .latestBlock chainId => .ok ((w.chains chainId).tip, (w.chains chainId).tip)
  | .stakeDetailsOf _ _ _ block =>
    if block.getD 0 ≤ (w.chains 1).tip then .ok ⟨10 ^ 21, 500000, 1⟩ else .error .other
  | .preUsdPriceE18 _ block =>
    if block ≤ (w.chains 1).tip then .ok (250000000000000000 : ℕ) else .error .other
  | .preUsdPriceQuotedAt _ block =>
    if block ≤ (w.chains 1).tip then .ok (1 : ℕ) else .error .other
  | .operator _ _ => .ok (5 : ℕ)
  | .chargeProcessed _ _ => .ok (decide (7 ≤ (w.chains 1).tip))
  | .transactionReceipt _ hash =>
    if 7 ≤ (w.chains 1).tip ∧ hash = 901 then
      .ok (some ⟨some hash, 7, 7, false,
        [⟨77, some (.stakeCharged 101 3 4 (2 * 10 ^ 18) (2 * 10 ^ 18))⟩]⟩)
    else .ok none
  | .transactionCount _ _ _ => .ok (0 : ℕ)
  | .balance _ _ => .ok (1 : ℕ)
  | .verifyReadiness _ => .ok ()
  | .unlockOperator => .ok (5 : ℕ)
  | .signCharge _ _ _ => .ok ⟨900, 901⟩
  | .sendRawTransaction _ _ => .ok (901 : ℕ)
  | .enqueueRun _ => .ok ()
  | .now => .ok (w.clock / 1000)
  | .random => .ok (fun k => (100 + k : ℕ))
  | _ => .error .other

/-- The price text of the sample run. -/
def sampleExternal : External := ⟨fun _ _ => "0.25".toList, some, fun _ _ _ _ => 7⟩

/-- The outside world of the sample run. -/
def sampleOutside : Outside := ⟨sampleExternal, lineForest, fun w q a => a = sampleOracle w q⟩

/-- The delivery that is opened in the sample run. -/
def sampleDelivery : AdDelivery := ⟨11, 1000000, 2, sampleIdentity, 3, "hat".toList, 4, 1⟩

/-- The request that opens it. -/
def sampleRequest : CaptureRequest := ⟨sampleIdentity, 2, 6, sampleDelivery, some "::1".toList⟩

/-- What the charge passes of the sample run are given. -/
def sampleDependencies : ChargeDependencies := ⟨2000000, sampleIdentity, 2⟩

/-- The world before the sample run. -/
def sampleStart : World := ⟨Database.empty, fun _ => ⟨3, []⟩, 10 ^ 9, [], []⟩

/-- The token of a delivery is signed. -/
def issueSample (w : World) : Option World :=
  if w.issued = [] ∧ w.clock = 10 ^ 9 then some { w with issued := sampleDelivery :: w.issued }
  else none

/-- The chain grows to the block `tip`. -/
def growSample (tip : ℕ) (w : World) : Option World :=
  if (w.chains 1).orphaned = [] ∧ (w.chains 1).tip ≤ tip then
    some { w with chains := Function.update w.chains 1 ⟨tip, []⟩ }
  else none

/-- The sample run: a click is captured; an administrator asks for a run; a charge pass reserves,
signs and sends; the next pass finds the receipt. -/
def sampleRun : List (Move World Reply Failure Job Slot) :=
  [.env issueSample, .start (.click 0 sampleRequest), .act (.other 0) 10 sampleOracle,
    .stop (.other 0), .start (.requestRun 1 sampleIdentity), .act (.other 1) 3 sampleOracle,
    .stop (.other 1), .env (growSample 6), .start (.charge sampleDependencies none none),
    .act .charge 42 sampleOracle, .stop .charge, .env (growSample 10),
    .start (.charge sampleDependencies none none), .act .charge 22 sampleOracle, .stop .charge]

theorem allows_growSample {ext : External}
    {answers : World → (q : Query) → Except Failure (Reply q) → Prop} (tip : ℕ) :
    (market ⟨ext, lineForest, answers⟩).Allows (.env (growSample tip)) := by
  intro w w' h
  unfold growSample at h
  split_ifs at h with hw
  obtain rfl := Option.some.inj h
  obtain ⟨horphaned, hle⟩ := hw
  refine .chain ?_ (by rintro _ ⟨⟩)
  have hchain : w.chains 1 = ⟨(w.chains 1).tip, []⟩ := by rw [← horphaned]
  rw [hchain]
  exact lineForest_follows hle

theorem allows_issueSample : (market sampleOutside).Allows (.env issueSample) := by
  intro w w' h
  unfold issueSample at h
  split_ifs at h with hw
  obtain rfl := Option.some.inj h
  refine .issue (by simp [hw.1]) ?_
  change _ = sampleOracle w .now
  simp [sampleOracle, hw.2, sampleDelivery]

theorem allows_sampleRun : ∀ m ∈ sampleRun, (market sampleOutside).Allows m := by
  simp only [sampleRun, List.forall_mem_cons]
  exact ⟨allows_issueSample, trivial, fun _ _ => rfl, trivial, trivial, fun _ _ => rfl, trivial,
    allows_growSample 6, trivial, fun _ _ => rfl, trivial, allows_growSample 10, trivial,
    fun _ _ => rfl, trivial, by simp⟩

theorem sample_isSome :
    ((market sampleOutside).play sampleRun (Config.idle sampleStart)).isSome = true := by
  decide +kernel

/-- The end of the sample run. -/
def sampleEnd : MarketConfig :=
  ((market sampleOutside).play sampleRun (Config.idle sampleStart)).get sample_isSome

theorem sampleStart_initial : World.Initial sampleOutside sampleStart :=
  ⟨rfl, rfl, rfl, fun _ => by rintro _ ⟨⟩⟩

theorem reaches_sampleEnd : Reaches sampleOutside sampleEnd := by
  have hrun := Machine.run_labels allows_sampleRun (Option.some_get sample_isSome).symm
  exact ⟨sampleStart, _, sampleStart_initial, hrun⟩

example : sampleEnd.shared.db.batches.map (·.status) = [.confirmed] := by decide +kernel

theorem sent_isSome : ((market sampleOutside).play (sampleRun.take 11)
    (Config.idle sampleStart)).isSome = true := by
  decide +kernel

/-- The sample run after the first charge pass: the charge is sent, and its receipt is still to
come. -/
def sampleSent : MarketConfig :=
  ((market sampleOutside).play (sampleRun.take 11) (Config.idle sampleStart)).get sent_isSome

theorem reaches_sampleSent : Reaches sampleOutside sampleSent := by
  have hrun := Machine.run_labels (fun m hm => allows_sampleRun m (List.mem_of_mem_take hm))
    (Option.some_get sent_isSome).symm
  exact ⟨sampleStart, _, sampleStart_initial, hrun⟩

theorem settled_isSome :
    ((market sampleOutside).play (sampleRun.drop 11) sampleSent).isSome = true := by
  decide +kernel

/-- The end of the second charge pass. -/
def sampleSettled : MarketConfig :=
  ((market sampleOutside).play (sampleRun.drop 11) sampleSent).get settled_isSome

/-- What happens while the charge is settled. -/
def settling : List (Label World Reply Failure Job) :=
  (market sampleOutside).labels (sampleRun.drop 11) sampleSent

theorem run_settling : (market sampleOutside).Run sampleSent settling sampleSettled :=
  Machine.run_labels (fun m hm => allows_sampleRun m (List.mem_of_mem_drop hm))
    (Option.some_get settled_isSome).symm

end Sample

end Market

end PreCommunity
