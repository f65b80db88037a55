import PreCommunity.Market.Rely

/-!
# The other jobs

Clicks, retention jobs, index passes and administrator requests assume of the others only that the
tables grow.  What they write depends on what they read, in the order in which they read it; so
the rules below keep track of a part of the log.

* `jobDiscipline` : the discipline of a job.
* `Reads` : the log contains the given actions, the newest first.
* `wp_click`, `wp_retainAdsData`, `wp_indexAds`, `wp_adminUpdateSettings`, `wp_adminRequestRun` :
  the jobs keep to their disciplines.
-/

namespace PreCommunity

namespace Market

open Store Concurrent

/-- The discipline of a job. -/
def jobDiscipline (O : Outside) (j : Job) : Discipline World Reply Failure where
  inv := Inv O.forest
  rely := Relies O.forest j
  answers := O.answers
  guar := JobWrite O.ext j
  asks _ := JobAsks j
  rely_refl := .refl j
  rely_trans := .trans
  guar_refl h w := by cases j <;> exact .idle

/-- The log contains the actions `l`. -/
def Reads (l : Log) (v : View Unit World Reply Failure) : Prop := l.Sublist v.hist

section Rules

variable {D : Discipline World Reply Failure} {l : Log} {v : View Unit World Reply Failure}
  {E : Failure → View Unit World Reply Failure → Prop} {α : Type}

theorem Reads.heard {q : Query} {r : Reply q} {w : World} (hv : Reads (.asked w q (.ok r) :: l) v) :
    Heard v.hist q r :=
  ⟨w, hv.subset (.head _)⟩

theorem Reads.tail {e : Event World Reply Failure} (hv : Reads (e :: l) v) : Reads l v :=
  (List.sublist_cons_self e l).trans hv

/-- Ask a question. -/
theorem reads_ask (hv : Reads l v) {q : Query} (hq : ∀ h w, D.asks h w q)
    {Q : Reply q → View Unit World Reply Failure → Prop}
    (hQ : ∀ r w v', Reads (.asked w q (.ok r) :: l) v' → Q r v')
    (hE : ∀ e v', Reads l v' → E e v') : Routine.wp D (ask q) Q E v :=
  Routine.wp_ask fun w _ _ => ⟨hq _ w, fun r _ => hQ r w _ (List.Sublist.cons_cons _ hv),
    fun e _ => hE e _ (List.Sublist.cons _ hv)⟩

/-- Read the shared state. -/
theorem reads_read (hv : Reads l v) {f : World → α} {Q : α → View Unit World Reply Failure → Prop}
    (hQ : ∀ w v', Reads (.ran w w :: l) v' → Q (f w) v') (hE : ∀ e v', Reads l v' → E e v') :
    Routine.wp D (Routine.read .other f) Q E v :=
  Routine.wp_read fun w _ _ => ⟨hQ w _ (List.Sublist.cons_cons _ hv),
    hE _ _ (List.Sublist.cons _ hv)⟩

end Rules

section

variable {O : Outside} {E : Failure → View Unit World Reply Failure → Prop}

/-! ### Clicks -/

section Click

variable {n : ℕ} {request : CaptureRequest} {l : Log} {v : View Unit World Reply Failure}

/-- The position that a view gives to a capture. -/
def Positioned (request : CaptureRequest) (l : Log) (result : Except ErrorCode BillingPosition)
    (v : View Unit World Reply Failure) : Prop :=
  Reads l v ∧ ∀ position, result = .ok position → PositionRead request v.hist position

theorem wp_livePosition (hv : Reads l v)
    {Q : Except ErrorCode BillingPosition → View Unit World Reply Failure → Prop}
    (hQ : ∀ result v', Positioned request l result v' → Q result v')
    (hE : ∀ e v', Reads l v' → E e v') :
    Routine.wp (jobDiscipline O (.click n request)) (livePosition request.delivery) Q E v := by
  have herror : ∀ code v', Reads l v' → Q (.error code) v' := fun code v' hv' =>
    hQ _ _ ⟨hv', by simp⟩
  unfold livePosition
  refine (Routine.wp_bind _ _).2
    (reads_ask hv (fun _ _ => trivial) (fun (chainId : ℕ) w v₁ hv₁ => ?_)
    hE)
  have hv₁ := hv₁.tail
  refine (Routine.wp_bind _ _).2 (reads_ask hv₁ (fun _ _ => trivial)
    (fun (latest : ℕ × Hash) w₁ v₂ hv₂ => ?_) hE)
  refine Routine.wp_ite (fun _ => herror _ _ hv₂.tail) fun _ => ?_
  refine (Routine.wp_bind _ _).2 (reads_ask hv₂ (fun _ _ => trivial)
    (fun (details : StakeDetails) w₂ v₃ hv₃ => ?_) fun e v' hv' => hE e v' hv'.tail)
  split
  · exact herror _ _ hv₃.tail.tail
  rename_i position hposition
  refine (Routine.wp_bind _ _).2 (reads_ask hv₃ (fun _ _ => trivial)
    (fun (price : ℕ) w₃ v₄ hv₄ => ?_) fun e v' hv' => hE e v' hv'.tail.tail)
  refine (Routine.wp_bind _ _).2 (reads_ask hv₄ (fun _ _ => trivial)
    (fun (quotedAt : ℕ) w₄ v₅ hv₅ => ?_) fun e v' hv' => hE e v' hv'.tail.tail.tail)
  refine hQ _ v₅ ⟨hv₅.tail.tail.tail.tail, fun position' hposition' => ?_⟩
  obtain rfl := Except.ok.inj hposition'
  exact .live ((List.sublist_append_left [_, _, _, _] l).trans hv₅) hposition

theorem wp_billingPosition (hv : Reads l v)
    {Q : Except ErrorCode BillingPosition → View Unit World Reply Failure → Prop}
    (hQ : ∀ result v', Positioned request l result v' → Q result v') (hE : ∀ e v', E e v') :
    Routine.wp (jobDiscipline O (.click n request)) (billingPosition request) Q E v := by
  unfold billingPosition
  refine Routine.wp_ite (fun _ => hQ _ _ ⟨hv, by simp⟩) fun _ => ?_
  refine (Routine.wp_tryCatch _ _).2 (wp_livePosition hv hQ fun _ v₁ hv₁ => ?_)
  refine (Routine.wp_bind _ _).2 (reads_ask hv₁ (fun _ _ => trivial)
    (fun (now : ℕ) _ v₂ hv₂ => ?_) fun e v' _ => hE e v')
  refine reads_read hv₂.tail (fun w v₃ hv₃ => ?_) fun e v' _ => hE e v'
  exact hQ _ v₃ ⟨hv₃.tail, fun position hposition => .projected (hv₃.subset (.head _)) hposition⟩

theorem wp_closeCapture {id : Id} {code : ErrorCode} (hid : id = request.delivery.deliveryId)
    {Q : Unit → View Unit World Reply Failure → Prop} (hQ : ∀ v', Q () v')
    (hE : ∀ e v', E e v') :
    Routine.wp (jobDiscipline O (.click n request)) (closeCapture id code) Q E v := by
  subst hid
  exact wp_update (fun _ _ _ => hE _ _) fun w _ _ => ⟨.close, hQ _, hE _ _⟩

/-- The capture after the claim. -/
theorem wp_captureClaimed (hv : Reads l v) (hclaimed : ∀ h, l.Sublist h → Claimed request h)
    {Q : Unit → View Unit World Reply Failure → Prop} (hQ : ∀ v', Q () v')
    (hE : ∀ e v', E e v') :
    Routine.wp (jobDiscipline O (.click n request)) (captureClaimed O.ext request) Q E v := by
  unfold captureClaimed
  extract_lets id
  split
  · exact wp_closeCapture rfl hQ hE
  rename_i fingerprint hfingerprint
  refine (Routine.wp_bind _ _).2 (wp_billingPosition hv (fun result v₁ hv₁ => ?_) hE)
  split
  · exact wp_closeCapture rfl hQ hE
  rename_i position
  split
  · exact hE _ _
  rename_i c hc
  have hposition := hv₁.2 position rfl
  refine Routine.wp_ite (fun hzero => ?_) fun hpositive => ?_
  · exact wp_update (fun _ _ _ => hE _ _) fun w _ _ =>
      ⟨.settle (hclaimed _ hv₁.1) hposition hc hzero, hQ _, hE _ _⟩
  unfold Market.finalizeClick
  refine (Routine.wp_bind _ _).2 (Routine.wp_read fun w₀ _ _ => ⟨?_, hE _ _⟩)
  refine wp_transaction (fun _ _ _ => hE _ _) (fun w _ db _ _ ht => ?_) fun _ _ _ _ _ => hE _ _
  obtain ⟨hcapturing, rfl⟩ := finalizeClickTx_ok ht
  have hposition : PositionRead request (v₁.ran w₀ w₀).hist position := by
    cases hposition with
    | live hsub hok => exact .live (hsub.cons _) hok
    | projected hread hok => exact .projected (List.mem_cons_of_mem _ hread) hok
  exact ⟨.finalize (hclaimed _ (List.Sublist.cons _ hv₁.1)) hposition hc hpositive hfingerprint
    (.head _) hcapturing, hQ _, hE _ _⟩

/-- **A click** keeps to its discipline. -/
theorem wp_click (w : World) :
    Routine.wp (jobDiscipline O (.click n request)) (Market.click O.ext request)
      (fun _ _ => True) (fun _ _ => True) ⟨(), [], w⟩ := by
  unfold Market.click
  refine (Routine.wp_bind _ _).2 (Routine.wp_ask fun w₁ _ _ =>
    ⟨trivial, fun (now : ℕ) _ => ?_, fun _ _ => trivial⟩)
  refine Routine.wp_ite (fun haccepts => ?_) fun _ => trivial
  unfold captureBillingClick captureSteps
  -- whatever went wrong, the capture is closed
  have hfail : ∀ v : View Unit World Reply Failure,
      Routine.wp (jobDiscipline O (.click n request))
        (tryCatch (closeCapture request.delivery.deliveryId .captureFailed) fun _ => pure ())
        (fun _ _ => True) (fun _ _ => True) v := fun v =>
    (Routine.wp_tryCatch _ _).2 (wp_closeCapture rfl (fun _ => trivial) fun _ _ => by trivial)
  refine (Routine.wp_tryCatch _ _).2 ((Routine.wp_bind _ _).2 (Routine.wp_ask fun w₂ _ _ =>
    ⟨trivial, fun (clickedAt : ℕ) _ => ?_, fun _ _ => hfail _⟩))
  refine (Routine.wp_bind _ _).2 (wp_transaction (fun _ _ _ => hfail _)
    (fun w₃ claimed db _ _ ht => ?_) fun _ _ _ _ _ => hfail _)
  obtain ⟨rfl, rfl⟩ | ⟨rfl, hfresh, rfl⟩ := claimDelivery_ok ht
  · exact ⟨.idle, Routine.wp_ite (fun h => by simp at h) fun _ => trivial, hfail _⟩
  · refine ⟨.claim rfl haccepts hfresh, Routine.wp_ite (fun _ => ?_) fun _ => trivial, hfail _⟩
    refine wp_captureClaimed (l := [.ran w₃ (w₃.withDb (w₃.db.withClicks
      (w₃.db.clicks ++ [BillingClick.claim request.delivery clickedAt])))])
      ?_ (fun h hsub => ?_) (fun _ => trivial) fun _ v => hfail v
    · exact List.Sublist.cons_cons _ (List.nil_sublist _)
    exact ⟨w₃, clickedAt, hfresh, hsub.subset (.head _)⟩

end Click

/-! ### Retention -/

/-- **A retention job** keeps to its discipline. -/
theorem wp_retainAdsData {n : ℕ} (v : View Unit World Reply Failure) :
    Routine.wp (jobDiscipline O (.retain n)) retainAdsData (fun _ _ => True) (fun _ _ => True)
      v := by
  unfold retainAdsData
  refine (Routine.wp_bind _ _).2 (reads_ask (l := []) (List.nil_sublist _) (fun _ _ => trivial)
    (fun (now : ℕ) _ v₁ hv₁ => ?_) fun _ _ _ => trivial)
  refine (Routine.wp_bind _ _).2 (reads_read hv₁ (fun w₀ v₂ hv₂ => ?_) fun _ _ _ => trivial)
  exact wp_update (fun _ _ _ => trivial) fun w _ _ =>
    ⟨.retain hv₂.tail.heard (hv₂.subset (.head _)), trivial, trivial⟩

/-! ### Index passes -/

section Index

variable {n : ℕ} {config : IndexConfig} {l : Log} {v : View Unit World Reply Failure}

theorem wp_contractSnapshot (hv : Reads l v) {block : ℕ}
    {Q : AdsContractSnapshot → View Unit World Reply Failure → Prop}
    (hQ : ∀ snapshot reads v', SnapshotRead config block (some snapshot) reads →
      Reads (reads ++ l) v' → Q snapshot v')
    (hE : ∀ e v', E e v') :
    Routine.wp (jobDiscipline O (.index n config)) (contractSnapshot config block) Q E v := by
  have hE' : ∀ {l : Log} e v', Reads l v' → E e v' := fun e v' _ => hE e v'
  unfold contractSnapshot
  refine (Routine.wp_bind _ _).2 (reads_ask hv (fun _ _ => trivial)
    (fun (minimumStake : ℕ) w₁ v₁ hv₁ => ?_) hE')
  refine (Routine.wp_bind _ _).2 (reads_ask hv₁ (fun _ _ => trivial)
    (fun (paused : Bool) w₂ v₂ hv₂ => ?_) hE')
  refine (Routine.wp_bind _ _).2 (reads_ask hv₂ (fun _ _ => trivial)
    (fun (operator : ℕ) w₃ v₃ hv₃ => ?_) hE')
  refine (Routine.wp_bind _ _).2 (reads_ask hv₃ (fun _ _ => trivial)
    (fun (priceUpdater : ℕ) w₄ v₄ hv₄ => ?_) hE')
  refine (Routine.wp_bind _ _).2 (reads_ask hv₄ (fun _ _ => trivial)
    (fun (priceE18 : ℕ) w₅ v₅ hv₅ => ?_) hE')
  refine (Routine.wp_bind _ _).2 (reads_ask hv₅ (fun _ _ => trivial)
    (fun (quotedAt : ℕ) w₆ v₆ hv₆ => ?_) hE')
  refine Routine.wp_ite (fun _ => hE _ _) fun _ => ?_
  let snapshot : AdsContractSnapshot :=
    ⟨minimumStake, paused, operator, priceUpdater, priceE18, quotedAt, block⟩
  exact hQ snapshot _ v₆ (@SnapshotRead.some _ _ w₁ w₂ w₃ w₄ w₅ w₆ snapshot rfl) hv₆

theorem wp_snapshotAtHead (hv : Reads l v) {block safeHead : ℕ}
    {Q : Option AdsContractSnapshot → View Unit World Reply Failure → Prop}
    (hQ : ∀ snapshot reads v', SnapshotRead config block snapshot reads →
      Reads (reads ++ l) v' → Q snapshot v')
    (hE : ∀ e v', E e v') :
    Routine.wp (jobDiscipline O (.index n config)) (snapshotAtHead config block safeHead)
      Q E v := by
  unfold snapshotAtHead
  refine Routine.wp_ite (fun _ => ?_) fun _ => hQ none [] v .none hv
  exact (Routine.wp_bind _ _).2 (wp_contractSnapshot hv (fun snapshot reads v₁ hreads hv₁ =>
    hQ (some snapshot) reads v₁ hreads hv₁) hE)

theorem wp_assertCanonicalCheckpoint (hv : Reads l v) {checkpoint : Option AdsCheckpoint}
    {Q : Unit → View Unit World Reply Failure → Prop}
    (hQ : ∀ reads v', CheckpointRead config checkpoint reads → Reads (reads ++ l) v' → Q () v')
    (hE : ∀ e v', E e v') :
    Routine.wp (jobDiscipline O (.index n config)) (assertCanonicalCheckpoint config checkpoint)
      Q E v := by
  cases checkpoint with
  | none => exact hQ [] v .none hv
  | some checkpoint =>
    unfold assertCanonicalCheckpoint indexedHash
    refine (Routine.wp_bind _ _).2 (reads_ask hv (fun _ _ => trivial)
      (fun (hash : ℕ) w v₁ hv₁ => ?_) fun e v' _ => hE e v')
    refine Routine.wp_ite (fun _ => hE _ _) fun hsame => ?_
    obtain rfl : hash = checkpoint.lastBlockHash := not_not.1 hsame
    exact hQ [.asked w _ _] v₁ .some hv₁

/-- **A chunk.** -/
theorem wp_indexChunk {safeHead start last : ℕ} {checkpoint : Option AdsCheckpoint}
    (hstart : start = config.next checkpoint) (hlast : start ≤ last)
    {Q : AdsCheckpoint → View Unit World Reply Failure → Prop}
    (hQ : ∀ hash v', Q ⟨last, hash⟩ v') (hE : ∀ e v', E e v') :
    Routine.wp (jobDiscipline O (.index n config))
      (indexChunk config safeHead start last checkpoint)
      Q E v := by
  have hE' : ∀ {l : Log} e v', Reads l v' → E e v' := fun e v' _ => hE e v'
  subst hstart
  unfold indexChunk indexedHash readLogs
  refine (Routine.wp_bind _ _).2 (wp_assertCanonicalCheckpoint (l := []) (List.nil_sublist _)
    (fun before v₁ hbefore hv₁ => ?_) hE)
  rw [List.append_nil] at hv₁
  refine (Routine.wp_bind _ _).2 (reads_ask hv₁ (fun _ _ => trivial)
    (fun (indexed : ℕ) w₁ v₂ hv₂ => ?_) hE')
  refine (Routine.wp_bind _ _).2 ((Routine.wp_bind _ _).2 (reads_ask hv₂ (fun _ _ => trivial)
    (fun (positions : List (Placed PositionChanged)) w₂ v₃ hv₃ => ?_) hE'))
  refine (Routine.wp_bind _ _).2 (reads_ask hv₃ (fun _ _ => trivial)
    (fun (charges : List (Placed StakeCharged)) w₃ v₄ hv₄ => ?_) hE')
  refine (Routine.wp_bind _ _).2 (wp_snapshotAtHead hv₄ (fun snapshot reads v₅ hreads hv₅ => ?_) hE)
  refine (Routine.wp_bind _ _).2 (reads_ask hv₅ (fun _ _ => trivial)
    (fun (canonical : ℕ) w₄ v₆ hv₆ => ?_) hE')
  refine Routine.wp_ite (fun _ => hE _ _) fun hsame => ?_
  obtain rfl : canonical = indexed := not_not.1 hsame
  refine (Routine.wp_bind _ _).2 (wp_assertCanonicalCheckpoint hv₆
    (fun after v₇ hafter hv₇ => ?_) hE)
  refine (Routine.wp_bind _ _).2 (reads_ask hv₇ (fun _ _ => trivial)
    (fun (now : ℕ) w₈ v₈ hv₈ => ?_) hE')
  refine (Routine.wp_bind _ _).2 (wp_transaction (fun _ _ _ => hE _ _)
    (fun w _ db _ _ ht => ?_) fun _ _ _ _ _ => hE _ _)
  obtain ⟨hstored, rfl⟩ := commitChunk_ok ht
  exact ⟨.chunk hlast hbefore hreads hafter hv₈.tail hv₈.heard hstored, hQ _ _, hE _ _⟩

/-- The loop over the chunks. -/
theorem wp_indexChunks {safeHead blocks start : ℕ} {checkpoint : Option AdsCheckpoint}
    (hstart : start = config.next checkpoint) {Q : Unit → View Unit World Reply Failure → Prop}
    (hQ : ∀ v', Q () v') (hE : ∀ e v', E e v') :
    Routine.wp (jobDiscipline O (.index n config))
      (indexChunks config safeHead blocks start checkpoint)
      Q E v := by
  induction blocks generalizing start checkpoint v with
  | zero => exact hQ v
  | succ blocks ih =>
    unfold indexChunks
    refine Routine.wp_ite (fun _ => hQ _) fun hle => ?_
    have hle : start ≤ safeHead := Nat.le_of_not_lt hle
    refine (Routine.wp_bind _ _).2 (wp_indexChunk hstart (by
      simp only [indexerLogBlockRange]; omega) (fun hash v₁ => ?_) hE)
    by_cases hlast : start + indexerLogBlockRange - 1 ≤ safeHead
    · refine ih ?_
      rw [Nat.min_eq_left hlast]
      simp only [IndexConfig.next, indexerLogBlockRange]
      omega
    · -- the last chunk ends at the finalized head, and the loop with it
      cases blocks with
      | zero => exact hQ _
      | succ blocks =>
        unfold indexChunks
        refine Routine.wp_ite (fun _ => hQ _) fun hle' => ?_
        simp only [indexerLogBlockRange] at hle' hlast
        omega

/-- The look at the stored checkpoint. -/
theorem wp_canonicalState {Q : Option AdsCheckpoint → View Unit World Reply Failure → Prop}
    (hnone : ∀ v', Q none v')
    (hsome : ∀ state w v', Reads [.asked w (.blockHash config.identity.chainId
      state.lastBlockNumber) (.ok state.lastBlockHash)] v' → Q (some state) v')
    (hE : ∀ e v', E e v') :
    Routine.wp (jobDiscipline O (.index n config)) (canonicalState config) Q E v := by
  have hE' : ∀ {l : Log} e v', Reads l v' → E e v' := fun e v' _ => hE e v'
  unfold canonicalState indexedHash
  refine (Routine.wp_bind _ _).2 (reads_read (l := []) (List.nil_sublist _)
    (fun w₀ v₁ hv₁ => ?_) hE')
  split
  · exact hnone v₁
  rename_i state hstate
  refine (Routine.wp_bind _ _).2 (reads_ask hv₁ (fun _ _ => trivial)
    (fun (hash : ℕ) w₁ v₂ hv₂ => ?_) hE')
  refine Routine.wp_ite (fun hsame => ?_) fun hsame => ?_
  · subst hsame
    exact hsome state w₁ v₂ (List.Sublist.trans (List.Sublist.cons_cons _ (List.nil_sublist _)) hv₂)
  · exact (Routine.wp_bind _ _).2 (wp_update (fun _ _ _ => hE _ _) fun w _ _ =>
      ⟨.reset (hv₂.tail.subset (.head _)) hstate hv₂.heard hsame, hnone _, hE _ _⟩)

/-- The configuration at an unchanged checkpoint. -/
theorem wp_refreshSnapshot {state : AdsCheckpoint} {w₁ : World}
    (hv : Reads [.asked w₁ (.blockHash config.identity.chainId state.lastBlockNumber)
      (.ok state.lastBlockHash)] v) {Q : Unit → View Unit World Reply Failure → Prop}
    (hQ : ∀ v', Q () v') (hE : ∀ e v', E e v') :
    Routine.wp (jobDiscipline O (.index n config))
      (refreshSnapshot config state.lastBlockNumber state) Q E v := by
  have hE' : ∀ {l : Log} e v', Reads l v' → E e v' := fun e v' _ => hE e v'
  unfold refreshSnapshot indexedHash
  refine (Routine.wp_bind _ _).2
    (wp_contractSnapshot hv (fun snapshot reads v₁ hreads hv₁ => ?_) hE)
  refine (Routine.wp_bind _ _).2 (reads_ask hv₁ (fun _ _ => trivial)
    (fun (canonical : ℕ) w₂ v₂ hv₂ => ?_) hE')
  refine Routine.wp_ite (fun _ => hE _ _) fun hsame => ?_
  obtain rfl : canonical = state.lastBlockHash := not_not.1 hsame
  refine (Routine.wp_bind _ _).2 (reads_ask hv₂ (fun _ _ => trivial)
    (fun (now : ℕ) _ v₃ hv₃ => ?_) hE')
  refine wp_transaction (fun _ _ _ => hE _ _) (fun w _ db _ _ ht => ?_) fun _ _ _ _ _ => hE _ _
  obtain ⟨hstored, rfl⟩ := commitChunk_ok ht
  exact ⟨.refresh hreads hv₃.tail hv₃.heard hstored, hQ _, hE _ _⟩

/-- **An index pass** keeps to its discipline. -/
theorem wp_indexAds (v : View Unit World Reply Failure) :
    Routine.wp (jobDiscipline O (.index n config)) (indexAds config) (fun _ _ => True)
      (fun _ _ => True) v := by
  have hE : ∀ {l : Log} (e : Failure) v', Reads l v' → True := fun _ _ _ => trivial
  unfold indexAds
  refine (Routine.wp_bind _ _).2 (reads_ask (l := []) (List.nil_sublist _) (fun _ _ => trivial)
    (fun _ _ v₁ hv₁ => ?_) hE)
  refine (Routine.wp_bind _ _).2 (reads_ask hv₁.tail (fun _ _ => trivial)
    (fun (head : ℕ) _ v₂ _ => ?_) hE)
  extract_lets safeHead
  refine Routine.wp_ite (fun _ => trivial) fun _ => ?_
  refine (Routine.wp_bind _ _).2 (wp_canonicalState (fun v₃ => ?_) (fun state w₃ v₃ hv₃ => ?_)
    fun _ _ => trivial)
  · exact wp_indexChunks (by rfl) (fun _ => by trivial) fun _ _ => trivial
  refine Routine.wp_ite (fun _ => trivial) fun hle => Routine.wp_ite (fun hge => ?_) fun _ => ?_
  · -- the stored checkpoint is the finalized head
    obtain hhead : safeHead = state.lastBlockNumber := by omega
    rw [hhead]
    exact wp_refreshSnapshot hv₃ (fun _ => by trivial) fun _ _ => trivial
  · exact wp_indexChunks (by rfl) (fun _ => by trivial) fun _ _ => trivial

end Index

/-! ### The administrator -/

/-- **New settings.** -/
theorem wp_adminUpdateSettings {n : ℕ} {identity : Identity} {input : SettingsInput}
    (v : View Unit World Reply Failure) :
    Routine.wp (jobDiscipline O (.updateSettings n identity input))
      (adminUpdateSettings identity input) (fun _ _ => True) (fun _ _ => True) v := by
  unfold adminUpdateSettings
  exact wp_update (fun _ _ _ => by trivial) fun _ _ _ => ⟨.settings, by trivial, by trivial⟩

/-- **A manual run.** -/
theorem wp_adminRequestRun {n : ℕ} {identity : Identity} (v : View Unit World Reply Failure) :
    Routine.wp (jobDiscipline O (.requestRun n identity)) (adminRequestRun identity)
      (fun _ _ => True) (fun _ _ => True) v := by
  have hE : ∀ {l : Log} (e : Failure) v', Reads l v' → True := fun _ _ _ => trivial
  unfold adminRequestRun
  refine (Routine.wp_bind _ _).2 (reads_ask (l := []) (List.nil_sublist _) (fun _ _ => trivial)
    (fun (random : ℕ → Id) _ v₁ hv₁ => ?_) hE)
  refine (Routine.wp_bind _ _).2 (wp_transaction (fun _ _ _ => trivial)
    (fun w runId db _ _ ht => ?_) fun _ _ _ _ _ => trivial)
  refine ⟨?_, ?_, trivial⟩
  · obtain rfl | ⟨hfresh, rfl⟩ := requestRunTx_ok ht
    · exact .upsert
    · exact .request hfresh
  · refine (Routine.wp_tryCatch _ _).2 (Routine.wp_ask fun _ _ _ =>
      ⟨trivial, fun _ _ => trivial, fun e _ => ?_⟩)
    exact (Routine.wp_bind _ _).2 (wp_update (fun _ _ _ => trivial) fun _ _ _ =>
      ⟨.queueUnavailable, trivial, trivial⟩)

end

end Market

end PreCommunity
