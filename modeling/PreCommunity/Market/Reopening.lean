import PreCommunity.Market.Safety

/-!
# Settled publications

A row of the publication journal is settled when it is confirmed, failed or superseded.  A pass
works on rows that it read while they were in flight, and nobody else writes the journal.  So all
the writes of its steps spare the settled rows, except that it reopens the last settled row when
the row's receipt block is no longer canonical, and that it signs a settled row anew, or closes a
failed one, when it publishes a quote.

Its error handler works on the copy of a row that the pass still remembers.  It is only as good as
that copy: when the pass has settled the row in the meantime, the handler reopens it.

* `Spared`, `SparesSettled` : what a write may do to a settled row.
* `Following` : the rows that a pass works on are in flight.
* `follow_publicationSteps` : the steps of a pass spare the settled rows.
* `Stale` : the remembered row is settled by now.
* `failing_pass_keeps_settled_rows` : the handler spares the settled rows unless the remembered row
  is stale.
-/

namespace PreCommunity

namespace Market

open Store Concurrent

/-- The transaction of the row is decided. -/
def PublicationStatus.settled : PublicationStatus → Bool
  | confirmed | failed | superseded => true
  | _ => false

theorem PublicationStatus.not_settled {status : PublicationStatus}
    (h : status.inFlight = true) : status.settled = false := by
  cases status <;> first | rfl | cases h

theorem PublicationStatus.inFlight_of_open {status : PublicationStatus}
    (hprepared : status ≠ .prepared) (hsettled : status.settled ≠ true) :
    status.inFlight = true := by
  cases status <;> first | rfl | exact absurd rfl hprepared | exact absurd rfl hsettled

/-- The receipt block that the row records was found to be no longer canonical. -/
def ReceiptForked (chainId : ℕ) (h : Log) (row : PricePublication) : Prop :=
  ∃ block hash hash', row.receiptBlockNumber = some block ∧ row.receiptBlockHash = some hash ∧
    SawHash chainId h block hash' ∧ hash' ≠ hash

/-- What a step of a pass may do to a settled row. -/
inductive Spared (chainId : ℕ) (h : Log) (row row' : PricePublication) : Prop where
  | same : row'.status = row.status → Spared chainId h row row'
  /-- The row is reopened because its receipt block is gone. -/
  | reopened : row'.status = .reconciling → ReceiptForked chainId h row →
      Spared chainId h row row'
  /-- A quote that the contract does not have is published again. -/
  | signed (signer : Address) (nonce : ℕ) (signed : SignedTransaction) :
      row' = row.sign signer nonce signed → Spared chainId h row row'
  /-- The contract has overtaken a failed row. -/
  | overtaken : row.status = .failed → row'.status = .superseded → Spared chainId h row row'

/-- A write spares the settled rows. -/
def SparesSettled (chainId : ℕ) (h : Log) (w w' : World) : Prop :=
  ∀ row ∈ w.db.publications, row.status.settled = true →
    ∃ row' ∈ w'.db.publications, row'.id = row.id ∧ Spared chainId h row row'

theorem SparesSettled.of_eq {chainId : ℕ} {h : Log} {w w' : World}
    (heq : w'.db.publications = w.db.publications) : SparesSettled chainId h w w' :=
  fun row hrow _ => ⟨row, heq ▸ hrow, rfl, .same rfl⟩

theorem publicationRely_refl (O : Outside) (w : World) : PublicationRely O.forest w w := .refl w

theorem publicationRely_trans (O : Outside) {w w' w'' : World}
    (h : PublicationRely O.forest w w') (h' : PublicationRely O.forest w' w'') :
    PublicationRely O.forest w w'' := h.trans h'

/-- The discipline of a pass that spares the settled rows. -/
def sparingDiscipline (O : Outside) (chainId : ℕ) : Discipline World Reply Failure where
  inv := Inv O.forest
  rely := PublicationRely O.forest
  answers := O.answers
  guar := SparesSettled chainId
  asks _ _ _ := True
  rely_refl := publicationRely_refl O
  rely_trans := @publicationRely_trans O
  guar_refl _ _ := .of_eq rfl

/-! ### What a pass follows -/

/-- The row is in flight. -/
def Waiting (id : Id) (w : World) : Prop :=
  ∃ row ∈ w.db.publications, row.id = id ∧ row.status.inFlight = true

/-- The row has been signed. -/
def Opened (id : Id) (w : World) : Prop :=
  ∃ row ∈ w.db.publications, row.id = id ∧ row.status ≠ .prepared

theorem Waiting.opened {id : Id} {w : World} (h : Waiting id w) : Opened id w := by
  obtain ⟨row, hrow, hid, hflight⟩ := h
  refine ⟨row, hrow, hid, fun hprepared => ?_⟩
  rw [hprepared] at hflight
  cases hflight

theorem Opened.updateWhere {id : Id} {w : World} (h : Opened id w) {p : PricePublication → Bool}
    {f : PricePublication → PricePublication} (hsame : ∀ row, (f row).id = row.id)
    (hopen : ∀ row, (f row).status ≠ .prepared) :
    ∃ row ∈ Store.updateWhere p f w.db.publications, row.id = id ∧ row.status ≠ .prepared :=
  exists_mem_updateWhere h fun row _ _ hrow => ⟨(hsame row).trans hrow.1, hopen row⟩

/-- A row that the pass remembers as in flight has been signed. -/
def Remembered (v : View PublicationPass World Reply Failure) : Prop :=
  ∀ active, v.memory.active = some active → active.status.inFlight = true →
    Opened active.id v.shared

/-- The rows `ids` are in flight. -/
def Following (ids : List Id) (v : View PublicationPass World Reply Failure) : Prop :=
  (∀ id ∈ ids, Waiting id v.shared) ∧ Remembered v

section

variable {O : Outside} {chainId : ℕ} {ids : List Id}
  {v : View PublicationPass World Reply Failure}
  {E : Failure → View PublicationPass World Reply Failure → Prop}

theorem Following.of_eq (hv : Following ids v) {v' : View PublicationPass World Reply Failure}
    (hmemory : v'.memory = v.memory)
    (hshared : v'.shared.db.publications = v.shared.db.publications) : Following ids v' := by
  refine ⟨fun id hid => ?_, fun active hactive hflight => ?_⟩
  · rw [Waiting, hshared]
    exact hv.1 id hid
  · rw [Opened, hshared]
    exact hv.2 active (hmemory ▸ hactive) hflight

theorem Following.stable : (sparingDiscipline O chainId).Stable (Following ids) where
  asked _ _ hv hrely _ := hv.of_eq rfl hrely.publications
  ran hv hrely _ := hv.of_eq rfl hrely.publications

theorem Following.forget (hv : Following ids v) {ids' : List Id} (h : ∀ id ∈ ids', id ∈ ids) :
    Following ids' v :=
  ⟨fun id hid => hv.1 id (h id hid), hv.2⟩

/-- The pass takes up a row that is in flight, or one that it does not remember as in flight. -/
theorem Following.remember (hv : Following ids v) {row : PricePublication}
    (h : row.status.inFlight = true → Opened row.id v.shared) :
    Following ids (v.withMemory ⟨some row⟩) :=
  ⟨hv.1, fun active hactive hflight => by
    obtain rfl := Option.some.inj hactive
    exact h hflight⟩

theorem Following.drop (hv : Following ids v) : Following ids (v.withMemory ⟨none⟩) :=
  ⟨hv.1, by rintro active ⟨⟩⟩

theorem follow_ask (hv : Following ids v) {q : Query}
    {Q : Reply q → View PublicationPass World Reply Failure → Prop}
    (hQ : ∀ r v', Following ids v' → Q r v') (hE : ∀ e v', Following ids v' → E e v') :
    Routine.wp (sparingDiscipline O chainId) (ask q) Q E v :=
  Following.stable.ask hv (fun _ _ _ => trivial) (fun r _ _ _ _ hv' => hQ r _ hv') hE

theorem follow_select (hv : Following ids v) {α : Type} {f : Database → α}
    {Q : α → View PublicationPass World Reply Failure → Prop}
    (hQ : ∀ w, Inv O.forest w → Following ids (v.ran w w) → Q (f w.db) (v.ran w w))
    (hE : ∀ e v', Following ids v' → E e v') :
    Routine.wp (sparingDiscipline O chainId) (select f) Q E v :=
  Following.stable.read hv (fun w _ hinv hv' => hQ w hinv hv') hE

/-- A row in flight moves on; `ids'` are the rows that are still in flight then. -/
theorem Following.move (hv : Following ids v) {w : World} {id : Id} (hid : id ∈ ids)
    {f : PricePublication → PricePublication} (hsame : ∀ row, (f row).id = row.id)
    (hopen : ∀ row, (f row).status ≠ .prepared) {ids' : List Id}
    (hids : ∀ i ∈ ids', i ∈ ids ∧ (i = id → ∀ row, (f row).status.inFlight = true))
    (hinv : Inv O.forest w) (hrely : PublicationRely O.forest v.shared w) {h : Log} :
    SparesSettled chainId h w (w.withDb (w.db.mapPublication id f)) ∧
      Following ids' (v.ran w (w.withDb (w.db.mapPublication id f))) := by
  have hrow : ∀ row ∈ w.db.publications, ∃ row' ∈ (w.db.mapPublication id f).publications,
      row'.id = row.id ∧ (row' = row ∧ row.id ≠ id ∨ row' = f row ∧ row.id = id) := by
    intro row hrow
    by_cases hp : row.id = id
    · exact ⟨f row, mem_updateWhere_of hrow (decide_eq_true hp), hsame row, .inr ⟨rfl, hp⟩⟩
    · exact ⟨row, mem_updateWhere_of_not hrow (decide_eq_false hp), rfl, .inl ⟨rfl, hp⟩⟩
  have hwaiting : ∀ i ∈ ids, Waiting i w := fun i hi => by
    rw [Waiting, hrely.publications]
    exact hv.1 i hi
  refine ⟨fun row hmem hsettled => ?_, fun i hi => ?_, fun active hactive hflight => ?_⟩
  · obtain ⟨row', hrow', hid', ⟨rfl, -⟩ | ⟨-, hp⟩⟩ := hrow row hmem
    · exact ⟨row', hrow', hid', .same rfl⟩
    · -- the row that moves is in flight
      obtain ⟨r, hr, hrid, hflight⟩ := hwaiting id hid
      obtain rfl := hinv.publicationIds.eq hr hmem (hrid.trans hp.symm)
      rw [PublicationStatus.not_settled hflight] at hsettled
      cases hsettled
  · obtain ⟨hi, hstill⟩ := hids i hi
    obtain ⟨row, hmem, hrid, hflight⟩ := hwaiting i hi
    obtain ⟨row', hrow', hid', ⟨rfl, -⟩ | ⟨rfl, hp⟩⟩ := hrow row hmem
    · exact ⟨row', hrow', hrid, hflight⟩
    · exact ⟨f row, hrow', hid'.trans hrid, hstill (hrid.symm.trans hp) row⟩
  · have hopened : Opened active.id w := by
      rw [Opened, hrely.publications]
      exact hv.2 active hactive hflight
    exact hopened.updateWhere hsame hopen

theorem follow_move (hv : Following ids v) {id : Id} (hid : id ∈ ids)
    {f : PricePublication → PricePublication} (hsame : ∀ row, (f row).id = row.id)
    (hopen : ∀ row, (f row).status ≠ .prepared) {ids' : List Id}
    (hids : ∀ i ∈ ids', i ∈ ids ∧ (i = id → ∀ row, (f row).status.inFlight = true))
    {Q : Unit → View PublicationPass World Reply Failure → Prop}
    (hQ : ∀ v', Following ids' v' → Q () v') (hE : ∀ e v', Following ids' v' → E e v') :
    Routine.wp (sparingDiscipline O chainId) (transaction (updatePublication id f)) Q E v := by
  have hsub : ∀ i ∈ ids', i ∈ ids := fun i hi => (hids i hi).1
  have hlost : ∀ w, PublicationRely O.forest v.shared w → Following ids' (v.ran w w) :=
    fun w hrely => (hv.of_eq rfl hrely.publications : Following ids (v.ran w w)).forget hsub
  refine wp_transaction (fun w hrely _ => hE _ _ (hlost w hrely))
    (fun w _ db hrely hinv ht => ?_) fun w e hrely _ _ => hE _ _ (hlost w hrely)
  obtain rfl := updatePublication_ok ht
  obtain ⟨hspares, hv'⟩ := hv.move hid hsame hopen hids hinv hrely
  exact ⟨hspares, hQ _ hv', hE _ _ hv'⟩

/-- The row leaves the rows in flight. -/
theorem follow_settle {id : Id} (hv : Following (id :: ids) v) (hid : id ∉ ids)
    {f : PricePublication → PricePublication} (hsame : ∀ row, (f row).id = row.id)
    (hopen : ∀ row, (f row).status ≠ .prepared)
    {Q : Unit → View PublicationPass World Reply Failure → Prop}
    (hQ : ∀ v', Following ids v' → Q () v') (hE : ∀ e v', Following ids v' → E e v') :
    Routine.wp (sparingDiscipline O chainId) (transaction (updatePublication id f)) Q E v :=
  follow_move hv (.head _) hsame hopen
    (fun _ hi => ⟨.tail _ hi, fun heq => absurd (heq ▸ hi) hid⟩) hQ hE

/-- The row stays in flight. -/
theorem follow_wait {id : Id} (hv : Following ids v) (hid : id ∈ ids) {status : PublicationStatus}
    {errorCode : Option ErrorCode} (hstatus : status.inFlight = true)
    {Q : Unit → View PublicationPass World Reply Failure → Prop}
    (hQ : ∀ v', Following ids v' → Q () v') (hE : ∀ e v', Following ids v' → E e v') :
    Routine.wp (sparingDiscipline O chainId) (markPublication id status errorCode) Q E v := by
  have hopen : status ≠ .prepared := by
    rintro rfl
    cases hstatus
  exact follow_move (f := fun row => { row with status := status, errorCode := errorCode }) hv hid
    (fun _ => rfl) (fun _ => hopen) (fun _ hi => ⟨hi, fun _ _ => hstatus⟩) hQ hE

/-! ### A row in flight -/

variable {deps : PricePublicationDependencies} {head : ℕ} {row : PricePublication}

theorem follow_priceAt (hv : Following ids v) {block : ℕ}
    {Q : ContractPreUsdPrice → View PublicationPass World Reply Failure → Prop}
    (hQ : ∀ price v', Following ids v' → Q price v') (hE : ∀ e v', Following ids v' → E e v') :
    Routine.wp (sparingDiscipline O chainId) (PublicationChain.priceAt deps block) Q E v := by
  unfold PublicationChain.priceAt
  refine (Routine.wp_bind _ _).2 (follow_ask hv (fun (priceE18 : ℕ) v₁ hv₁ => ?_) hE)
  exact (Routine.wp_bind _ _).2 (follow_ask hv₁ (fun (quotedAt : ℕ) v₂ hv₂ => hQ _ v₂ hv₂) hE)

theorem follow_receipt (hv : Following ids v) {txHash : Hash}
    {Q : Option PricePublicationReceipt → View PublicationPass World Reply Failure → Prop}
    (hQ : ∀ receipt v', Following ids v' → Q receipt v')
    (hE : ∀ e v', Following ids v' → E e v') :
    Routine.wp (sparingDiscipline O chainId) (PublicationChain.receipt deps txHash) Q E v := by
  unfold PublicationChain.receipt
  exact (Routine.wp_bind _ _).2 ((Routine.wp_tryCatch _ _).2 (follow_ask hv
    (fun (found : Option TransactionReceipt) v₁ hv₁ => hQ _ v₁ hv₁) fun _ v₁ hv₁ => hE _ v₁ hv₁))

theorem follow_authorities (hv : Following ids v)
    {Q : Address × Address → View PublicationPass World Reply Failure → Prop}
    (hQ : ∀ authorities v', Following ids v' → Q authorities v')
    (hE : ∀ e v', Following ids v' → E e v') :
    Routine.wp (sparingDiscipline O chainId) (PublicationChain.authorities deps) Q E v := by
  unfold PublicationChain.authorities
  refine (Routine.wp_bind _ _).2 (follow_ask hv (fun (updater : ℕ) v₁ hv₁ => ?_) hE)
  exact (Routine.wp_bind _ _).2 (follow_ask hv₁ (fun (operator : ℕ) v₂ hv₂ => hQ _ v₂ hv₂) hE)

theorem follow_receiptFinal (hv : Following ids v) {receipt : PricePublicationReceipt}
    {Q : Bool → View PublicationPass World Reply Failure → Prop}
    (hQ : ∀ final v', Following ids v' → Q final v') (hE : ∀ e v', Following ids v' → E e v') :
    Routine.wp (sparingDiscipline O chainId) (publicationReceiptFinal deps head receipt) Q E v := by
  unfold publicationReceiptFinal
  refine Routine.wp_ite (fun _ => hQ false v hv) fun _ => ?_
  exact (Routine.wp_bind _ _).2 (follow_ask hv (fun (hash : ℕ) v₁ hv₁ => hQ _ v₁ hv₁) hE)

theorem follow_receiptStatus (hv : Following ids v) {receipt : PricePublicationReceipt}
    {Q : PublicationStatus → View PublicationPass World Reply Failure → Prop}
    (hQ : ∀ status v', status.settled = true → Following ids v' → Q status v')
    (hE : ∀ e v', Following ids v' → E e v') :
    Routine.wp (sparingDiscipline O chainId) (receiptStatus row deps receipt) Q E v := by
  unfold receiptStatus
  split
  · refine (Routine.wp_bind _ _).2 (follow_priceAt hv (fun price v₁ hv₁ => ?_) hE)
    refine Routine.wp_ite (fun _ => hQ _ v₁ rfl hv₁) fun _ => ?_
    exact Routine.wp_ite (fun _ => hE _ v₁ hv₁) fun _ => hQ _ v₁ rfl hv₁
  · exact Routine.wp_ite (fun _ => hE _ v hv) fun _ => hQ _ v rfl hv

theorem PublicationStatus.settled_ne {status : PublicationStatus} (h : status.settled = true) :
    status ≠ .prepared := by
  rintro rfl
  cases h

/-- **A row with a receipt** waits or is settled. -/
theorem follow_reconcileReceipt (hv : Following (row.id :: ids) v) (hrow : row.id ∉ ids)
    {receipt : PricePublicationReceipt}
    {Q : Bool → View PublicationPass World Reply Failure → Prop}
    (hQ : ∀ wait v', Following ids v' → Q wait v') (hE : ∀ e v', Following ids v' → E e v') :
    Routine.wp (sparingDiscipline O chainId) (reconcilePublicationReceipt row deps head receipt)
      Q E v := by
  have hdrop : ∀ v' : View PublicationPass World Reply Failure,
      Following (row.id :: ids) v' → Following ids v' :=
    fun v' hv' => hv'.forget fun _ => List.mem_cons_of_mem _
  unfold reconcilePublicationReceipt
  refine (Routine.wp_bind _ _).2 (follow_receiptFinal hv (fun final v₁ hv₁ => ?_)
    fun e v₁ hv₁ => hE e v₁ (hdrop v₁ hv₁))
  refine Routine.wp_ite (fun _ => ?_) fun _ => Routine.wp_ite (fun _ => ?_) fun _ => ?_
  · exact (Routine.wp_bind _ _).2 (follow_wait hv₁ (.head _) rfl
      (fun v₂ hv₂ => hQ true v₂ (hdrop v₂ hv₂)) fun e v₂ hv₂ => hE e v₂ (hdrop v₂ hv₂))
  · exact (Routine.wp_bind _ _).2 (follow_settle (f := fun row => row.withReceipt .failed
      (some .transactionFailed) receipt (some (deps.now + 60000))) hv₁ hrow (fun _ => rfl)
      (fun _ => PublicationStatus.settled_ne rfl) (fun v₂ hv₂ => hQ false v₂ hv₂) hE)
  · refine (Routine.wp_bind _ _).2 (follow_receiptStatus hv₁ (fun status v₂ hsettled hv₂ => ?_)
      fun e v₂ hv₂ => hE e v₂ (hdrop v₂ hv₂))
    exact (Routine.wp_bind _ _).2 (follow_settle (f := fun row => row.withReceipt status none
      receipt none) hv₂ hrow (fun _ => rfl) (fun _ => PublicationStatus.settled_ne hsettled)
      (fun v₃ hv₃ => hQ false v₃ hv₃) hE)

/-- Sending a row leaves it in flight, whether it succeeds or not. -/
theorem follow_rebroadcast (hv : Following ids v) (hrow : row.id ∈ ids) {raw txHash : Hash}
    {signerAddress : Address} {Q : Bool → View PublicationPass World Reply Failure → Prop}
    (hQ : ∀ wait v', Following ids v' → Q wait v') (hE : ∀ e v', Following ids v' → E e v') :
    Routine.wp (sparingDiscipline O chainId)
      (rebroadcastPublication row deps raw txHash signerAddress) Q E v := by
  unfold rebroadcastPublication sendPublication PublicationChain.verify PublicationChain.broadcast
  -- what is thrown is recorded on the row
  have hcatch : ∀ (e : Failure) (v' : View PublicationPass World Reply Failure),
      Following ids v' → Routine.wp (sparingDiscipline O chainId) (do
        markPublication row.id .reconciling (some e.code)
        if e.code ≠ .transactionUnknown then throw e else pure true) Q E v' := fun e v' hv' =>
    (Routine.wp_bind _ _).2 (follow_wait hv' hrow rfl (fun v₁ hv₁ =>
      Routine.wp_ite (fun _ => hE _ v₁ hv₁) fun _ => hQ _ v₁ hv₁) hE)
  refine (Routine.wp_tryCatch _ _).2 ((Routine.wp_bind _ _).2 ((Routine.wp_bind _ _).2
    (follow_ask hv (fun _ v₁ hv₁ => ?_) hcatch)))
  refine (Routine.wp_bind _ _).2 (follow_authorities hv₁ (fun authorities v₂ hv₂ => ?_) hcatch)
  refine Routine.wp_ite (fun _ => hcatch _ v₂ hv₂) fun _ => Routine.wp_ite
    (fun _ => hcatch _ v₂ hv₂) fun _ => ?_
  refine (Routine.wp_bind _ _).2 ((Routine.wp_tryCatch _ _).2 (follow_ask hv₂
    (fun (hash : ℕ) v₃ hv₃ => ?_) fun e v₃ hv₃ => hcatch _ v₃ hv₃))
  exact Routine.wp_ite (fun _ => hcatch _ v₃ hv₃) fun _ => follow_wait hv₃ hrow rfl
    (fun v₄ hv₄ => hQ true v₄ hv₄) hcatch

theorem follow_reconcilePending (hv : Following (row.id :: ids) v) (hrow : row.id ∉ ids)
    {raw txHash : Hash} {nonce : ℕ} {signerAddress : Address}
    {Q : Bool → View PublicationPass World Reply Failure → Prop}
    (hQ : ∀ wait v', Following ids v' → Q wait v') (hE : ∀ e v', Following ids v' → E e v') :
    Routine.wp (sparingDiscipline O chainId)
      (reconcilePending row deps head raw txHash nonce signerAddress) Q E v := by
  have hdrop : ∀ v' : View PublicationPass World Reply Failure,
      Following (row.id :: ids) v' → Following ids v' :=
    fun v' hv' => hv'.forget fun _ => List.mem_cons_of_mem _
  have hthrow : ∀ (e : Failure) (v' : View PublicationPass World Reply Failure),
      Following (row.id :: ids) v' → E e v' := fun e v' hv' => hE e v' (hdrop v' hv')
  unfold reconcilePending PublicationChain.nonce
  refine (Routine.wp_bind _ _).2 (follow_ask hv (fun (latestNonce : ℕ) v₁ hv₁ => ?_) hthrow)
  refine Routine.wp_ite (fun _ => ?_) fun _ => ?_
  · refine (Routine.wp_bind _ _).2 (follow_priceAt hv₁ (fun price v₂ hv₂ => ?_) hthrow)
    refine Routine.wp_ite (fun _ => ?_) fun _ => hthrow _ v₂ hv₂
    exact (Routine.wp_bind _ _).2 (follow_settle
      (f := fun row => { row with status := .superseded, errorCode := none }) hv₂ hrow
      (fun _ => rfl) (fun _ => PublicationStatus.settled_ne rfl)
      (fun v₃ hv₃ => hQ false v₃ hv₃) hE)
  · refine (Routine.wp_bind _ _).2 (follow_ask hv₁ (fun (pendingNonce : ℕ) v₂ hv₂ => ?_) hthrow)
    refine Routine.wp_ite (fun _ => hthrow _ v₂ hv₂) fun _ => ?_
    exact follow_rebroadcast hv₂ (.head _) (fun wait v₃ hv₃ => hQ wait v₃ (hdrop v₃ hv₃)) hthrow

/-- **The reconciliation of a row** writes only while the row is in flight. -/
theorem follow_reconcilePublication (hv : Following (row.id :: ids) v) (hrow : row.id ∉ ids)
    {Q : Bool → View PublicationPass World Reply Failure → Prop}
    (hQ : ∀ wait v', Following ids v' → Q wait v') (hE : ∀ e v', Following ids v' → E e v') :
    Routine.wp (sparingDiscipline O chainId) (reconcilePublication row deps head) Q E v := by
  have hthrow : ∀ (e : Failure) (v' : View PublicationPass World Reply Failure),
      Following (row.id :: ids) v' → E e v' :=
    fun e v' hv' => hE e v' (hv'.forget fun _ => List.mem_cons_of_mem _)
  unfold reconcilePublication
  split
  · refine (Routine.wp_bind _ _).2 (follow_receipt hv (fun receipt v₁ hv₁ => ?_) hthrow)
    cases receipt with
    | none => exact follow_reconcilePending hv₁ hrow hQ hE
    | some receipt => exact follow_reconcileReceipt hv₁ hrow hQ hE
  · exact hthrow _ v hv

/-- The loop over the rows in flight. -/
theorem follow_reconcileOutstanding {todo : List PricePublication}
    (hv : Following (todo.map (·.id)) v) (hdistinct : (todo.map (·.id)).Nodup)
    {Q : Bool → View PublicationPass World Reply Failure → Prop}
    (hQ : ∀ wait v', Following [] v' → Q wait v') (hE : ∀ e v', Following [] v' → E e v') :
    Routine.wp (sparingDiscipline O chainId) (reconcileOutstanding deps head todo) Q E v := by
  induction todo generalizing v with
  | nil => exact hQ false v hv
  | cons row rest ih =>
    obtain ⟨hrow, hrest⟩ := List.nodup_cons.1 hdistinct
    have hforget : ∀ v' : View PublicationPass World Reply Failure,
        Following (rest.map (·.id)) v' → Following [] v' :=
      fun v' hv' => hv'.forget fun _ h => absurd h List.not_mem_nil
    unfold reconcileOutstanding
    refine (Routine.wp_bind _ _).2 ((Routine.wp_set _).2 ((Routine.wp_bind _ _).2 ?_))
    refine follow_reconcilePublication (hv.remember fun _ => (hv.1 row.id (.head _)).opened) hrow
      (fun wait v₁ hv₁ => ?_) fun e v₁ hv₁ => hE e v₁ (hforget v₁ hv₁)
    exact Routine.wp_ite (fun _ => hQ true v₁ (hforget v₁ hv₁)) fun _ => ih hv₁ hrest

/-! ### The last settled row -/

/-- **The last settled row** is reopened only when its receipt block is gone. -/
theorem follow_reconcilePrevious (hv : Following [] v)
    {Q : Bool → View PublicationPass World Reply Failure → Prop}
    (hQ : ∀ wait v', Following [] v' → Q wait v') (hE : ∀ e v', Following [] v' → E e v') :
    Routine.wp (sparingDiscipline O deps.identity.chainId) (reconcilePrevious deps head) Q E v := by
  unfold reconcilePrevious
  refine (Routine.wp_bind _ _).2 (follow_select hv (fun w₁ hinv₁ hv₁ => ?_) hE)
  split
  · exact hQ false _ hv₁
  rename_i previous hprevious
  split
  · rename_i block hash hblock hhash
    have hmem := (previousPublication_some hprevious).1
    refine (Routine.wp_bind _ _).2 (Routine.wp_ask fun w₂ hrely₂ hinv₂ => ⟨trivial, ?_,
      fun e _ => hE e _ (hv₁.of_eq rfl hrely₂.publications)⟩)
    intro (canonical : ℕ) _
    have hv₂ : Following [] ((v.ran w₁ w₁).asked w₂
        (.blockHash deps.identity.chainId block) (.ok canonical)) :=
      hv₁.of_eq rfl hrely₂.publications
    refine Routine.wp_ite (fun _ => hQ false _ hv₂) fun hne => ?_
    refine (Routine.wp_bind _ _).2 (wp_transaction
      (fun w₃ hrely₃ _ => hE _ _ (hv₂.of_eq rfl hrely₃.publications))
      (fun w₃ _ db hrely₃ hinv₃ ht => ?_)
      fun w₃ e hrely₃ _ _ => hE _ _ (hv₂.of_eq rfl hrely₃.publications))
    obtain rfl := updatePublication_ok ht
    have hpublications : w₃.db.publications = w₁.db.publications :=
      hrely₃.publications.trans hrely₂.publications
    have hmem₃ : previous ∈ w₃.db.publications := hpublications ▸ hmem
    have hforked : ReceiptForked deps.identity.chainId ((v.ran w₁ w₁).asked w₂
        (.blockHash deps.identity.chainId block) (.ok canonical)).hist previous :=
      ⟨block, hash, canonical, hblock, hhash, heard_asked, hne⟩
    generalize hv₃ : (View.ran _ w₃ _ : View PublicationPass World Reply Failure) = v₃
    have hfollow : Following [previous.id] v₃ := by
      refine ⟨fun id hid => ?_, fun active hactive hflight => ?_⟩
      · obtain rfl := List.mem_singleton.1 hid
        rw [← hv₃]
        exact ⟨_, mem_updateWhere_of hmem₃ (decide_eq_true rfl), rfl, rfl⟩
      · have hopened : Opened active.id w₃ := by
          rw [Opened, hrely₃.publications]
          exact hv₂.2 active (by rw [← hactive, ← hv₃]; rfl) hflight
        rw [← hv₃]
        exact hopened.updateWhere (fun _ => rfl) fun _ => nofun
    refine ⟨fun row hrow hsettled => ?_, ?_, hE _ _ (hfollow.forget nofun)⟩
    · cases hp : decide (row.id = previous.id) with
      | false => exact ⟨row, mem_updateWhere_of_not hrow hp, rfl, .same rfl⟩
      | true =>
        obtain rfl := hinv₃.publicationIds.eq hrow hmem₃ (of_decide_eq_true hp)
        exact ⟨_, mem_updateWhere_of hrow hp, rfl, .reopened rfl hforked⟩
    · refine (Routine.wp_bind _ _).2 ((Routine.wp_set _).2 ?_)
      have hreopened : Following [({ previous with
          status := .reconciling
          errorCode := some .waitingConfirmation } : PricePublication).id] v₃ := hfollow
      exact follow_reconcilePublication (hreopened.remember fun _ =>
        (hreopened.1 _ (.head _)).opened) List.not_mem_nil hQ hE
  · exact hQ false _ hv₁

/-! ### The newest quote -/

theorem follow_commitLocked {α : Type} {wallet : Wallet} {t : Tx α} (hv : Following ids v)
    {Q : α → View PublicationPass World Reply Failure → Prop}
    (hok : ∀ w a db, PublicationRely O.forest v.shared w → Inv O.forest w →
      t.run w.db = .ok (a, db) → SparesSettled chainId v.hist w (w.withDb db) ∧
        Q a (v.ran w ((w.withDb db).release .publication)) ∧
        E .other (v.ran w ((w.withDb db).release .publication)))
    (hE : ∀ e v', Following ids v' → E e v') :
    Routine.wp (sparingDiscipline O chainId) (commitLocked .publication wallet t) Q E v := by
  refine wp_commitLocked (fun w hrely _ => hE _ _ (hv.of_eq rfl hrely.publications)) ?_ ?_
  · intro w a db hrely hinv _ ht
    obtain ⟨hspares, hrest⟩ := hok w a db hrely hinv ht
    exact ⟨hspares, hrest⟩
  · intro w e hrely _
    have hv' : Following ids (v.ran w (w.release .publication)) := hv.of_eq rfl hrely.publications
    exact ⟨.of_eq rfl, hE _ _ hv', hE _ _ hv'⟩

/-- **The signing transaction.** -/
theorem follow_signPublication (hv : Following [] v) {active : PricePublication} {signer : Address}
    {Q : PricePublication → View PublicationPass World Reply Failure → Prop}
    (hQ : ∀ signed v', Following [signed.id] v' → Q signed v')
    (hE : ∀ e v', Following [] v' → E e v') :
    Routine.wp (sparingDiscipline O chainId) (signPublication active deps signer) Q E v := by
  unfold signPublication readKeywordMarketWalletReservation
  refine (Routine.wp_bind _ _).2 ((Routine.wp_bind _ _).2 (follow_select hv (fun w₁ _ hv => ?_) hE))
  refine (Routine.wp_bind _ _).2 (follow_select hv (fun w₂ _ hv => ?_) hE)
  refine (Routine.wp_bind _ _).2 (follow_select hv (fun w₃ _ hv => ?_) hE)
  refine (Routine.wp_bind _ _).2 (follow_select hv (fun w₄ _ hv => ?_) hE)
  refine (Routine.wp_bind _ _).2 (follow_select hv (fun w₅ _ hv => ?_) hE)
  split
  · exact hE _ _ hv
  rename_i saved hfound
  have hsaved := List.mem_of_find?_eq_some hfound
  refine Routine.wp_ite (fun hflight => ?_) fun _ => ?_
  · -- the row was signed in the meantime
    refine follow_commitLocked hv (fun w row db hrely _ ht => ?_) hE
    obtain ⟨rfl, rfl⟩ := Tx.pure_ok.1 ht
    have hv₆ : Following [] ((((((v.ran w₁ w₁).ran w₂ w₂).ran w₃ w₃).ran w₄ w₄).ran w₅ w₅).ran w
        ((w.withDb w.db).release .publication)) := hv.of_eq rfl hrely.publications
    refine ⟨.of_eq rfl, hQ _ _ ⟨fun id hid => ?_, hv₆.2⟩, hE _ _ hv₆⟩
    obtain rfl := List.mem_singleton.1 hid
    exact ⟨_, hrely.publications ▸ hsaved, rfl, hflight⟩
  refine Routine.wp_ite (fun _ => hE _ _ hv) fun _ => ?_
  refine (Routine.wp_bind _ _).2 (follow_ask hv (fun (pendingNonce : ℕ) v₆ hv₆ => ?_) hE)
  refine (Routine.wp_bind _ _).2 (follow_ask hv₆ (fun (latest : ℕ) v₇ hv₇ => ?_) hE)
  refine Routine.wp_ite (fun _ => hE _ _ hv₇) fun _ => ?_
  refine Routine.wp_ite (fun _ => hE _ _ hv₇) fun _ => ?_
  refine (Routine.wp_bind _ _).2 (follow_ask hv₇ (fun (tx : SignedTransaction) v₈ hv₈ => ?_) hE)
  refine follow_commitLocked hv₈ (fun w row db hrely _ ht => ?_) hE
  obtain ⟨rfl, hfind⟩ := signPublicationTx_ok ht
  have hv₉ : Following [] (v₈.ran w ((w.withDb (w.db.mapPublication saved.id fun row =>
      row.sign signer pendingNonce tx)).release .publication)) := by
    refine ⟨nofun, fun active hactive hflight => ?_⟩
    have hopened : Opened active.id w := by
      rw [Opened, hrely.publications]
      exact hv₈.2 active hactive hflight
    exact hopened.updateWhere (fun _ => rfl) fun _ => nofun
  refine ⟨fun r hr hsettled => ?_, hQ row _ ⟨fun id hid => ?_, hv₉.2⟩, hE _ _ hv₉⟩
  · cases hp : decide (r.id = saved.id) with
    | false => exact ⟨r, mem_updateWhere_of_not hr hp, rfl, .same rfl⟩
    | true => exact ⟨_, mem_updateWhere_of hr hp, rfl, .signed signer pendingNonce tx rfl⟩
  · obtain rfl := List.mem_singleton.1 hid
    have hmem := List.mem_of_find?_eq_some hfind
    have hrow := List.find?_some hfind
    refine ⟨row, hmem, rfl, ?_⟩
    obtain ⟨-, hne⟩ | ⟨r, -, -, rfl⟩ := mem_updateWhere_cases hmem
    · exact absurd hrow (by simpa using hne)
    · rfl

theorem follow_publish (hv : Following [] v) {active : PricePublication}
    {Q : JobResult → View PublicationPass World Reply Failure → Prop}
    (hQ : ∀ r v', Following [] v' → Q r v') (hE : ∀ e v', Following [] v' → E e v') :
    Routine.wp (sparingDiscipline O chainId) (publish active deps head) Q E v := by
  unfold publish PublicationChain.verify
  refine (Routine.wp_bind _ _).2 (follow_ask hv (fun _ v₁ hv₁ => ?_) hE)
  refine (Routine.wp_bind _ _).2 (follow_ask hv₁ (fun (signer : ℕ) v₂ hv₂ => ?_) hE)
  refine (Routine.wp_bind _ _).2 (follow_authorities hv₂ (fun authorities v₃ hv₃ => ?_) hE)
  refine Routine.wp_ite (fun _ => hE _ v₃ hv₃) fun _ => Routine.wp_ite (fun _ => hE _ v₃ hv₃)
    fun _ => ?_
  refine (Routine.wp_bind _ _).2 (wp_withWalletLock (fun _ v' => Following [] v')
    (wp_lockWallet (fun w hrely _ => hv₃.of_eq rfl hrely.publications) fun w hrely _ _ => ?_)
    fun e v' hv' w hrely _ => ?_)
  · have hlocked : Following [] (v₃.ran w (w.lock .publication ⟨deps.identity.chainId, signer⟩)) :=
      hv₃.of_eq rfl hrely.publications
    refine ⟨.of_eq rfl, follow_signPublication hlocked (fun signed v₄ hv₄ => ?_)
      fun _ _ hv₄ => hv₄, hlocked⟩
    refine (Routine.wp_bind _ _).2 ((Routine.wp_set _).2 ((Routine.wp_bind _ _).2 ?_))
    refine follow_reconcilePublication (hv₄.remember fun _ =>
      (hv₄.1 signed.id (.head _)).opened) List.not_mem_nil (fun wait v₅ hv₅ => ?_) hE
    exact Routine.wp_ite (fun _ => hQ _ v₅ hv₅) fun _ => hQ _ v₅ hv₅
  · have hread : Following [] (v'.ran w w) := hv'.of_eq rfl hrely.publications
    have hreleased : Following [] (v'.ran w (w.release .publication)) :=
      hv'.of_eq rfl hrely.publications
    exact ⟨hE _ _ hread, .of_eq rfl, hE _ _ hreleased, hE _ _ hreleased⟩

theorem follow_publishLatest (hv : Following [] v)
    {Q : JobResult → View PublicationPass World Reply Failure → Prop}
    (hQ : ∀ r v', Following [] v' → Q r v') (hE : ∀ e v', Following [] v' → E e v') :
    Routine.wp (sparingDiscipline O chainId) (publishLatest deps head) Q E v := by
  unfold publishLatest PublicationChain.price
  refine (Routine.wp_bind _ _).2 ((Routine.wp_set _).2 ((Routine.wp_bind _ _).2
    (follow_ask hv.drop (fun (latest : Option PreUsdQuote) v₁ hv₁ => ?_) hE)))
  split
  · exact hE _ _ hv₁
  rename_i quote _
  refine (Routine.wp_bind _ _).2 ((Routine.wp_bind _ _).2 (follow_ask hv₁
    (fun (block : ℕ) v₂ hv₂ => ?_) hE))
  refine follow_priceAt hv₂ (fun current v₃ hv₃ => ?_) hE
  refine Routine.wp_ite (fun _ => ?_) fun _ => ?_
  · refine (Routine.wp_bind _ _).2 (wp_update
      (fun w hrely _ => hE _ _ (hv₃.of_eq rfl hrely.publications)) fun w hrely _ => ?_)
    generalize hv₄ : (View.ran _ w _ : View PublicationPass World Reply Failure) = v₄
    have hfollow : Following [] v₄ := by
      refine ⟨nofun, fun active hactive hflight => ?_⟩
      have hopened : Opened active.id w := by
        rw [Opened, hrely.publications]
        exact hv₃.2 active (by rw [← hactive, ← hv₄]; rfl) hflight
      rw [← hv₄]
      exact hopened.updateWhere (fun _ => rfl) fun _ => nofun
    refine ⟨fun row hrow hsettled => ?_, hQ _ _ hfollow, hE _ _ hfollow⟩
    generalize hp : decide (row.identity = deps.identity ∧ row.quotedAt ≤ current.quotedAt ∧
      (row.status = .prepared ∨ row.status = .failed)) = p
    cases p with
    | false => exact ⟨row, mem_updateWhere_of_not hrow hp, rfl, .same rfl⟩
    | true =>
      obtain ⟨-, -, hprepared | hfailed⟩ := of_decide_eq_true hp
      · exact absurd hprepared (PublicationStatus.settled_ne hsettled)
      · exact ⟨_, mem_updateWhere_of hrow hp, rfl, .overtaken hfailed rfl⟩
  refine (Routine.wp_bind _ _).2 (follow_ask hv₃ (fun (random : ℕ → Id) v₄ hv₄ => ?_) hE)
  have hlost : ∀ w, PublicationRely O.forest v₄.shared w → Following [] (v₄.ran w w) :=
    fun w hrely => hv₄.of_eq rfl hrely.publications
  refine (Routine.wp_bind _ _).2 (wp_transaction (fun w hrely _ => hE _ _ (hlost w hrely))
    (fun w active db hrely _ ht => ?_) fun w e hrely _ _ => hE _ _ (hlost w hrely))
  have hactive : SparesSettled chainId v₄.hist w (w.withDb db) ∧ active ∈ db.publications ∧
      Following [] (v₄.ran w (w.withDb db)) := by
    obtain ⟨rfl, hmem, -⟩ | ⟨-, -, rfl⟩ := upsertPublication_ok ht
    · exact ⟨.of_eq rfl, hmem, hlost w hrely⟩
    · refine ⟨fun row hrow _ => ⟨row, List.mem_append_left _ hrow, rfl, .same rfl⟩,
        List.mem_append_right _ (.head _), nofun, fun remembered hremembered hflight => ?_⟩
      obtain ⟨row, hrow, hid, hstatus⟩ := (hlost w hrely).2 remembered hremembered hflight
      exact ⟨row, List.mem_append_left _ hrow, hid, hstatus⟩
  obtain ⟨hspares, hmem, hv₅⟩ := hactive
  refine ⟨hspares, (Routine.wp_bind _ _).2 ((Routine.wp_set _).2 ?_), hE _ _ hv₅⟩
  have hv₆ : Following [] ((v₄.ran w (w.withDb db)).withMemory ⟨some active⟩) :=
    hv₅.remember fun hflight => Waiting.opened ⟨active, hmem, rfl, hflight⟩
  exact Routine.wp_ite (fun _ => hQ _ _ hv₆) fun _ => follow_publish hv₆ hQ hE

/-- **The steps of a pass** spare the settled rows. -/
theorem follow_publicationSteps (hv : Following [] v)
    {Q : JobResult → View PublicationPass World Reply Failure → Prop}
    (hQ : ∀ r v', Following [] v' → Q r v') (hE : ∀ e v', Following [] v' → E e v') :
    Routine.wp (sparingDiscipline O deps.identity.chainId) (publicationSteps deps) Q E v := by
  unfold publicationSteps PublicationChain.head
  refine (Routine.wp_bind _ _).2 ((Routine.wp_bind _ _).2 (follow_ask hv
    (fun (chainId : ℕ) v₁ hv₁ => ?_) hE))
  refine Routine.wp_ite (fun _ => hE _ _ hv₁) fun _ => follow_ask hv₁
    (fun (head : ℕ) v₂ hv₂ => ?_) hE
  refine (Routine.wp_bind _ _).2 (follow_select hv₂ (fun w hinv hv₃ => ?_) hE)
  generalize houtstanding : w.db.publications.filter (fun row =>
    decide (row.identity = deps.identity ∧ row.status.inFlight = true)) = outstanding
  have hwaiting : Following (outstanding.map (·.id)) (v₂.ran w w) := by
    refine ⟨fun id hid => ?_, hv₃.2⟩
    obtain ⟨row, hrow, rfl⟩ := List.mem_map.1 hid
    rw [← houtstanding] at hrow
    obtain ⟨hmem, hflight⟩ := List.mem_filter.1 hrow
    exact ⟨row, hmem, rfl, (of_decide_eq_true hflight).2⟩
  have hdistinct : (outstanding.map (·.id)).Nodup := by
    rw [← houtstanding]
    exact Keyed.filter hinv.publicationIds _
  refine (Routine.wp_bind _ _).2 (follow_reconcileOutstanding hwaiting hdistinct
    (fun wait v₄ hv₄ => ?_) hE)
  refine Routine.wp_ite (fun _ => hQ _ v₄ hv₄) fun _ => ?_
  refine (Routine.wp_bind _ _).2 (follow_reconcilePrevious hv₄ (fun wait v₅ hv₅ => ?_) hE)
  exact Routine.wp_ite (fun _ => hQ _ v₅ hv₅) fun _ => follow_publishLatest hv₅ hQ hE

end

/-! ### The error handler -/

/-- What the other processes and the environment do while a publication pass runs. -/
abbrev AroundPublication (O : Outside) : World → World → Prop :=
  Protocol.Interferes (market O) (Reaches O) .publication

/-- The pass remembers a row as in flight that is settled by now. -/
def Stale (pass : PublicationPass) (w : World) : Prop :=
  ∃ active, pass.active = some active ∧ active.status.inFlight = true ∧
    ∃ row ∈ w.db.publications, row.id = active.id ∧ row.status.settled = true

/-- Settled rows keep their status, and only rows in flight are set to be reconciled. -/
structure HandlerSpares (w w' : World) : Prop where
  settled : ∀ row ∈ w.db.publications, row.status.settled = true →
    ∃ row' ∈ w'.db.publications, row'.id = row.id ∧ row'.status = row.status
  reconciling : ∀ row' ∈ w'.db.publications, row'.status = .reconciling →
    ∃ row ∈ w.db.publications, row.id = row'.id ∧ row.status.inFlight = true

theorem HandlerSpares.refl (w : World) : HandlerSpares w w where
  settled row hrow _ := ⟨row, hrow, rfl, rfl⟩
  reconciling row hrow hstatus := ⟨row, hrow, rfl, by rw [hstatus]; rfl⟩

section

variable {O : Outside} {w w' : World} {error : Failure}

/-- The transaction of the handler. -/
def recordTx (error : Failure) (active : PricePublication) : Tx Unit :=
  updatePublication active.id fun row => row.noteError error.code active.status.inFlight

/-- The handler does one transaction, if the pass remembers a row. -/
theorem handler_acts {pass : PublicationPass}
    {rest : Program World Reply Failure (Except Failure JobResult × PublicationPass)}
    (hact : Program.Act O.answers (ExceptT.run (recordPublicationError error) pass) (.ran w w')
      rest) :
    w' = w ∨ ∃ active db, pass.active = some active ∧
      (recordTx error active).run w.db = .ok ((), db) ∧ w' = w.withDb db := by
  obtain ⟨_ | active⟩ := pass
  · cases hact
  obtain hsame | ⟨b, hrun⟩ := Program.Act.ran hact
  · exact .inl hsame
  replace hrun := Option.some.inj hrun
  dsimp only at hrun
  split at hrun
  · rename_i db hdb
    exact .inr ⟨active, db, rfl, hdb, (Prod.mk.inj hrun).2.symm⟩
  · exact .inl (Prod.mk.inj hrun).2.symm

/-- **A fresh memory.**  The row that the handler marks is in flight. -/
theorem handler_spares {pass : PublicationPass} {h : Log} (hinv : Inv O.forest w)
    (hfollow : Following [] ⟨pass, h, w⟩) (hfresh : ¬Stale pass w) {active : PricePublication}
    {db : Database} (hactive : pass.active = some active)
    (ht : (recordTx error active).run w.db = .ok ((), db)) : HandlerSpares w (w.withDb db) := by
  obtain rfl := updatePublication_ok ht
  have hmarked : ∀ row ∈ w.db.publications, row.id = active.id →
      row.status.inFlight = true ∨
        (row.noteError error.code active.status.inFlight).status = row.status := by
    intro row hrow hid
    by_cases hflight : active.status.inFlight = true
    · obtain ⟨r, hr, hrid, hopened⟩ := hfollow.2 active hactive hflight
      obtain rfl := hinv.publicationIds.eq hr hrow (hrid.trans hid.symm)
      exact .inl (PublicationStatus.inFlight_of_open hopened fun hsettled =>
        hfresh ⟨active, hactive, hflight, r, hrow, hid, hsettled⟩)
    · exact .inr (if_neg hflight)
  refine ⟨fun row hrow hsettled => ?_, fun row' hrow' hstatus => ?_⟩
  · cases hp : decide (row.id = active.id) with
    | false => exact ⟨row, mem_updateWhere_of_not hrow hp, rfl, rfl⟩
    | true =>
      refine ⟨_, mem_updateWhere_of hrow hp, rfl, ?_⟩
      obtain hflight | hsame := hmarked row hrow (of_decide_eq_true hp)
      · rw [PublicationStatus.not_settled hflight] at hsettled
        cases hsettled
      · exact hsame
  · obtain ⟨hmem, -⟩ | ⟨row, hrow, hp, rfl⟩ := mem_updateWhere_cases hrow'
    · exact (HandlerSpares.refl w).reconciling row' hmem hstatus
    · obtain hflight | hsame := hmarked row hrow (of_decide_eq_true hp)
      · exact ⟨row, hrow, rfl, hflight⟩
      · exact ⟨row, hrow, rfl, by rw [← hsame, hstatus]; rfl⟩

/-- **A stale memory.**  The handler reopens the row that the pass has settled. -/
theorem handler_reopens {pass : PublicationPass} (hstale : Stale pass w) (error : Failure) :
    ∃ w' rest, Program.Act O.answers (ExceptT.run (recordPublicationError error) pass)
      (.ran w w') rest ∧ ¬HandlerSpares w w' := by
  obtain ⟨_ | active⟩ := pass
  · obtain ⟨-, ⟨⟩, -⟩ := hstale
  obtain ⟨remembered, hactive, hflight, row, hrow, hid, hsettled⟩ := hstale
  obtain rfl := Option.some.inj hactive
  have ht : (recordTx error active).run w.db = .ok ((), w.db.mapPublication active.id
      fun row => row.noteError error.code active.status.inFlight) :=
    updateUnique_ok.2 ⟨List.any_eq_true.2 ⟨row, hrow, decide_eq_true hid⟩, rfl⟩
  refine ⟨w.withDb (w.db.mapPublication active.id
    fun row => row.noteError error.code active.status.inFlight), _,
    Program.Act.run (b := .ok ()) (congrArg some ?_), fun hspares => ?_⟩
  · dsimp only
    rw [recordTx] at ht
    rw [ht]
  · obtain ⟨row', hrow', hid', hstatus⟩ := hspares.settled row hrow hsettled
    obtain ⟨-, hne⟩ | ⟨r, -, -, rfl⟩ := mem_updateWhere_cases hrow'
    · exact absurd (hid'.trans hid) (of_decide_eq_false hne)
    · have hreopened : row.status = .reconciling := hstatus.symm.trans (if_pos hflight)
      rw [hreopened] at hsettled
      cases hsettled

end

/-! ### A run in which a call fails -/

/-- The answers of the outside world: a price update that is mined in block 7. -/
def publicationOracle (w : World) : (q : Query) → Except Failure (Reply q)
  | .chainId => .ok (1 : ℕ)
  | .blockNumber chainId => .ok (w.chains chainId).tip
  | .blockHash _ block => .ok (block : ℕ)
  | .latestPreUsdPrice => .ok (some ⟨1, "0.25".toList, 1000⟩)
  | .preUsdPriceE18 _ block => .ok (if 7 ≤ block then 250000000000000000 else 0 : ℕ)
  | .preUsdPriceQuotedAt _ block => .ok (if 7 ≤ block then 1 else 0 : ℕ)
  | .random => .ok (fun k => (100 + k : ℕ))
  | .verifyContract _ => .ok ()
  | .unlockPriceUpdater => .ok (5 : ℕ)
  | .priceUpdater _ _ => .ok (5 : ℕ)
  | .operator _ _ => .ok (6 : ℕ)
  | .transactionCount _ _ _ => .ok (0 : ℕ)
  | .signPublication _ _ _ => .ok ⟨900, 901⟩
  | .sendRawTransaction _ _ => .ok (901 : ℕ)
  | .transactionReceipt _ hash =>
    if 7 ≤ (w.chains 1).tip ∧ hash = 901 then
      .ok (some ⟨some hash, 7, 7, false, [⟨77, some (.preUsdPriceUpdated 250000000000000000 1)⟩]⟩)
    else .ok none
  | _ => .error .other

/-- An outside world in which every call may fail. -/
def failingOutside : Outside :=
  ⟨sampleExternal, lineForest, fun w q a => a = publicationOracle w q ∨ a = .error .other⟩

/-- What the publication passes are given. -/
def publicationDependencies : PricePublicationDependencies := ⟨2000000, sampleIdentity, 2⟩

/-- One pass signs and sends a price update, and the next one finds its receipt.  Then its look at
the block of the last settled row fails. -/
def failingRun : List (Move World Reply Failure Job Slot) :=
  [.start (.publish publicationDependencies), .act .publication 32 publicationOracle,
    .stop .publication, .env (growSample 10), .start (.publish publicationDependencies),
    .act .publication 7 publicationOracle, .act .publication 1 fun _ _ => .error .other]

theorem allows_failingRun : ∀ m ∈ failingRun, (market failingOutside).Allows m := by
  simp only [failingRun, List.forall_mem_cons]
  exact ⟨trivial, fun _ _ => .inl rfl, trivial, allows_growSample 10, trivial,
    fun _ _ => .inl rfl, fun _ _ => .inr rfl, by simp⟩

theorem failing_isSome :
    ((market failingOutside).play failingRun (Config.idle sampleStart)).isSome = true := by
  decide +kernel

/-- The call has failed. -/
def failingEnd : MarketConfig :=
  ((market failingOutside).play failingRun (Config.idle sampleStart)).get failing_isSome

theorem reaches_failingEnd : Reaches failingOutside failingEnd := by
  have hrun := Machine.run_labels allows_failingRun (Option.some_get failing_isSome).symm
  exact ⟨sampleStart, _, ⟨rfl, rfl, rfl, fun _ => by rintro _ ⟨⟩⟩, hrun⟩

theorem failing_acts : (failingEnd.act publicationOracle .publication).isSome = true := by
  decide +kernel

theorem failingEnd_confirmed : ∃ row ∈ failingEnd.shared.db.publications,
    row.status = .confirmed ∧ row.receiptBlockNumber = some 7 ∧ row.receiptBlockHash = some 7 := by
  decide +kernel

theorem failingEnd_reopened : ∀ row ∈ ((failingEnd.act publicationOracle .publication).get
    failing_acts).shared.db.publications, row.status = .reconciling := by
  decide +kernel

theorem failingEnd_running : (failingEnd.running .publication).isSome = true := by
  decide +kernel

/-! ### A run with two rows -/

/-- The answers when there is a newer quote, and the node counts the first transaction. -/
def renewedOracle (w : World) : (q : Query) → Except Failure (Reply q)
  | .latestPreUsdPrice => .ok (some ⟨2, "0.25".toList, 2000⟩)
  | .random => .ok (fun k => (200 + k : ℕ))
  | .transactionCount _ _ _ => .ok (1 : ℕ)
  | .signPublication _ _ _ => .ok ⟨902, 903⟩
  | .sendRawTransaction _ _ => .ok (903 : ℕ)
  | q => publicationOracle w q

/-- An outside world with either quote, in which every call may fail. -/
def renewedOutside : Outside :=
  ⟨sampleExternal, lineForest, fun w q a =>
    a = publicationOracle w q ∨ a = renewedOracle w q ∨ a = .error .other⟩

/-- The second pass confirms the first row, and then sends the newer quote. -/
def renewedRun : List (Move World Reply Failure Job Slot) :=
  [.start (.publish publicationDependencies), .act .publication 32 publicationOracle,
    .stop .publication, .env (growSample 10), .start (.publish publicationDependencies),
    .act .publication 7 publicationOracle, .act .publication 29 renewedOracle, .stop .publication]

theorem allows_renewedRun : ∀ m ∈ renewedRun, (market renewedOutside).Allows m := by
  simp only [renewedRun, List.forall_mem_cons]
  exact ⟨trivial, fun _ _ => .inl rfl, trivial, allows_growSample 10, trivial,
    fun _ _ => .inl rfl, fun _ _ => .inr (.inl rfl), trivial, by simp⟩

theorem renewed_isSome :
    ((market renewedOutside).play renewedRun (Config.idle sampleStart)).isSome = true := by
  decide +kernel

/-- The first row is confirmed, and the second one is sent. -/
def renewedEnd : MarketConfig :=
  ((market renewedOutside).play renewedRun (Config.idle sampleStart)).get renewed_isSome

theorem reaches_renewedEnd : Reaches renewedOutside renewedEnd := by
  have hrun := Machine.run_labels allows_renewedRun (Option.some_get renewed_isSome).symm
  exact ⟨sampleStart, _, ⟨rfl, rfl, rfl, fun _ => by rintro _ ⟨⟩⟩, hrun⟩

theorem renewedEnd_confirmed : ∃ row ∈ renewedEnd.shared.db.publications,
    row.status = .confirmed := by
  decide +kernel

/-- What the next pass reads first. -/
def outstanding (w : World) : List PricePublication :=
  w.db.publications.filter fun row =>
    row.identity = publicationDependencies.identity ∧ row.status.inFlight

theorem renewedEnd_outstanding : ∃ row, outstanding renewedEnd.shared = [row] ∧
    row.txHash = some 903 ∧ row.signedTransaction = some 902 ∧ row.nonce = some 1 ∧
      row.signerAddress = some 5 := by
  have hlength : (outstanding renewedEnd.shared).length = 1 := by decide +kernel
  have hrows : ∀ row ∈ outstanding renewedEnd.shared, row.txHash = some 903 ∧
      row.signedTransaction = some 902 ∧ row.nonce = some 1 ∧ row.signerAddress = some 5 := by
    decide +kernel
  obtain ⟨row, hrow⟩ := List.length_eq_one_iff.1 hlength
  exact ⟨row, hrow, hrows row (hrow ▸ List.mem_singleton_self row)⟩

/-- The pass fails when it looks for the receipt of the row that is sent. -/
theorem renewed_fails {w : World} {row : PricePublication} {interf : World → World → Prop}
    (hinterf : interf w w) (houtstanding : outstanding w = [row])
    (hsigned : row.txHash = some 903 ∧ row.signedTransaction = some 902 ∧ row.nonce = some 1 ∧
      row.signerAddress = some 5) :
    Program.Exec renewedOutside.answers interf
      (ExceptT.run (publicationSteps publicationDependencies) ⟨none⟩) w []
      (.error (.blocked .rpcUnavailable), ⟨some row⟩) w
      [.asked w (.transactionReceipt 1 903) (.error .other), .ran w w,
        .asked w (.blockNumber 1) (.ok (w.chains 1).tip), .asked w .chainId (.ok (1 : ℕ))] := by
  obtain ⟨id, identity, quoteId, priceE18Raw, quotedAt, status, _, _, _, _, _, _, _, _, _⟩ := row
  obtain ⟨rfl, rfl, rfl, rfl⟩ := hsigned
  refine .act (e := .asked w .chainId (.ok (1 : ℕ))) hinterf (.ask (.inl rfl)) <|
    .act (e := .asked w (.blockNumber 1) (.ok (w.chains 1).tip)) hinterf (.ask (.inl rfl)) <|
    .act (e := .ran w w) hinterf (.run rfl) ?_
  unfold outstanding at houtstanding
  simp only [houtstanding]
  exact .act (e := .asked w (.transactionReceipt 1 903) (.error .other)) hinterf
    (.ask (.inr (.inr rfl))) (.done hinterf)

theorem renewedEnd_distinct : ∀ other ∈ renewedEnd.shared.db.publications,
    other.status.settled = true → ∀ row ∈ outstanding renewedEnd.shared, other.id ≠ row.id := by
  decide +kernel

/-! ### Failing passes -/

section

variable {O : Outside} {deps : PricePublicationDependencies}

theorem AroundPublication.relies (deps : PricePublicationDependencies) {s s' : World}
    (h : AroundPublication O s s') : PublicationRely O.forest s s' ∧ Inv O.forest s' := by
  obtain ⟨hrely, -, hinv⟩ := Protocol.Interferes.relies (P := protocol O) (j := .publish deps)
    (fun _ => Reaches.safe) h
  exact ⟨hrely, hinv⟩

/-- The log records only writes that spare the settled rows. -/
def LogSpares (chainId : ℕ) (h : Log) : Prop :=
  ∀ h' w₁ w₂, (.ran w₁ w₂ :: h') <:+ h → SparesSettled chainId h' w₁ w₂

theorem LogSpares.cons {chainId : ℕ} {h : Log} {e : Event World Reply Failure}
    (hlog : LogSpares chainId h)
    (he : Program.Meets (sparingDiscipline O chainId) h e) : LogSpares chainId (e :: h) := by
  intro h' w₁ w₂ hsuffix
  obtain heq | hsuffix := List.suffix_cons_iff.1 hsuffix
  · obtain ⟨rfl, rfl⟩ := List.cons.inj heq
    exact he
  · exact hlog h' w₁ w₂ hsuffix

theorem logSpares_nil (chainId : ℕ) : LogSpares chainId [] := by
  intro h' w₁ w₂ hsuffix
  cases List.suffix_nil.1 hsuffix

theorem following_start (w : World) : Following [] ⟨⟨none⟩, [], w⟩ := by
  refine ⟨fun id hid => absurd hid List.not_mem_nil, ?_⟩
  rintro active ⟨⟩

/-- The writes of the steps of a pass spare the settled rows. -/
theorem steps_spare {w w' : World} {r : Except Failure JobResult} {pass : PublicationPass} {h : Log}
    (hexec : Program.Exec O.answers (AroundPublication O)
      (ExceptT.run (publicationSteps deps) ⟨none⟩) w [] (r, pass) w' h) :
    LogSpares deps.identity.chainId h ∧ Following [] ⟨pass, h, w'⟩ ∧ Inv O.forest w' := by
  have hinterf : ∀ s s', AroundPublication O s s' →
      (sparingDiscipline O deps.identity.chainId).rely s s' ∧
        (sparingDiscipline O deps.identity.chainId).inv s' :=
    fun s s' hi => AroundPublication.relies deps hi
  have hsteps : Routine.wp (sparingDiscipline O deps.identity.chainId) (publicationSteps deps)
      (fun _ v' => Following [] v') (fun _ v' => Following [] v') ⟨⟨none⟩, [], w⟩ :=
    follow_publicationSteps (following_start w) (fun _ _ h => h) fun _ _ h => h
  refine ⟨?_, ?_⟩
  · exact hexec.along (J := fun h _ => LogSpares deps.identity.chainId h) hinterf
      (fun _ _ _ hlog _ => hlog) (fun _ _ _ _ hlog hmeets _ => hlog.cons hmeets) hsteps
      (logSpares_nil _)
  · obtain ⟨s₁, hpost, hrely, hinv⟩ := hexec.sound hinterf hsteps
    refine ⟨?_, hinv⟩
    have hfollow : Following [] ⟨pass, h, s₁⟩ := by
      cases r with
      | ok r => exact hpost
      | error e => exact hpost
    exact hfollow.of_eq rfl (PublicationRely.publications hrely)

/-- **A failing pass keeps the settled rows.**  Every write of the steps of a pass, among
everything else that happens, spares them; and when a call fails, the error handler keeps them, and
marks only a row that is in flight, if and only if the row that the pass still remembers as in
flight is not settled by then. -/
theorem failing_pass_keeps_settled_rows {w w' : World} {r : Except Failure JobResult}
    {pass : PublicationPass} {h : Log}
    (hexec : Program.Exec O.answers (AroundPublication O)
      (ExceptT.run (publicationSteps deps) ⟨none⟩) w [] (r, pass) w' h) :
    LogSpares deps.identity.chainId h ∧
      ∀ error, r = .error error →
        ((∀ w₂ rest, Program.Act O.answers (ExceptT.run (recordPublicationError error) pass)
          (.ran w' w₂) rest → HandlerSpares w' w₂) ↔ ¬Stale pass w') := by
  obtain ⟨hspares, hfollow, hinv⟩ := steps_spare hexec
  refine ⟨hspares, fun error _ => ⟨fun hkeeps hstale => ?_, fun hfresh w₂ rest hact => ?_⟩⟩
  · obtain ⟨w₂, rest, hact, hnot⟩ := handler_reopens (O := O) hstale error
    exact hnot (hkeeps w₂ rest hact)
  · obtain rfl | ⟨active, db, hactive, ht, rfl⟩ := handler_acts hact
    · exact .refl _
    · exact handler_spares hinv hfollow hfresh hactive ht

end

/-- A pass fails while one row is confirmed, and remembers another one that is in flight. -/
theorem failing_pass_keeps_settled_rows_sample : ∃ (w : World) (pass : PublicationPass),
    (∃ row ∈ w.db.publications, row.status = .confirmed) ∧ pass.active.isSome ∧
      ∀ w₂ rest, Program.Act renewedOutside.answers
        (ExceptT.run (recordPublicationError (.blocked .rpcUnavailable)) pass) (.ran w w₂) rest →
          HandlerSpares w w₂ := by
  obtain ⟨row, houtstanding, hsigned⟩ := renewedEnd_outstanding
  have hdistinct := renewedEnd_distinct
  have hconfirmed := renewedEnd_confirmed
  have hreaches := reaches_renewedEnd
  -- the state is only known by these facts from now on
  generalize renewedEnd = c at houtstanding hdistinct hconfirmed hreaches
  have haround : AroundPublication renewedOutside c.shared c.shared :=
    ⟨c, [], c, hreaches, .refl, rfl, rfl, by simp⟩
  refine ⟨c.shared, ⟨some row⟩, hconfirmed, rfl, ?_⟩
  refine ((failing_pass_keeps_settled_rows
    (renewed_fails haround houtstanding hsigned)).2 _ rfl).2 ?_
  rintro ⟨_, ⟨⟩, -, other, hother, hid, hsettled⟩
  exact hdistinct other hother hsettled row (houtstanding ▸ List.mem_singleton_self row) hid

/-- A pass has confirmed a row, and its next look at the chain fails: the row is reopened, although
its receipt block is canonical. -/
theorem confirmed_row_reopened : ∃ c c' deps began h w w', Reaches failingOutside c ∧
    (market failingOutside).Step c (.act (.publish deps) began h (.ran w w')) c' ∧
      ∃ row ∈ w.db.publications, row.status = .confirmed ∧
        ¬ReceiptForked deps.identity.chainId h row ∧
          ∀ row' ∈ w'.db.publications, row'.id = row.id → row'.status = .reconciling := by
  obtain ⟨c, c', hreaches, hact, ⟨row, hmem, hconfirmed, hblock, hhash⟩, hreopened, hrunning⟩ :
      ∃ c c' : MarketConfig, Reaches failingOutside c ∧
        c.act publicationOracle .publication = some c' ∧
        (∃ row ∈ c.shared.db.publications, row.status = .confirmed ∧
          row.receiptBlockNumber = some 7 ∧ row.receiptBlockHash = some 7) ∧
        (∀ row ∈ c'.shared.db.publications, row.status = .reconciling) ∧
        (c.running .publication).isSome = true :=
    ⟨failingEnd, _, reaches_failingEnd, (Option.some_get failing_acts).symm, failingEnd_confirmed,
      failingEnd_reopened, failingEnd_running⟩
  obtain ⟨p, hp⟩ := Option.isSome_iff_exists.1 hrunning
  obtain ⟨e, hstep, hbefore, hafter⟩ := Machine.step_of_act (M := market failingOutside)
    (fun _ _ => .inl rfl) hp hact
  have hslot : (market failingOutside).slot p.job = .publication := hreaches.safe.slot _ _ hp
  obtain ⟨deps, hjob⟩ : ∃ deps, p.job = .publish deps := by
    cases hj : p.job with
    | publish deps => exact ⟨deps, rfl⟩
    | _ => rw [hj] at hslot; cases hslot
  rw [hjob] at hstep
  cases e with
  | asked s q a =>
    rw [← hbefore] at hmem
    rw [hreopened row (hafter ▸ hmem)] at hconfirmed
    cases hconfirmed
  | ran s s' =>
    obtain ⟨-, -, -, hrec⟩ := hreaches.ran hstep
    rw [← hbefore] at hmem
    refine ⟨c, c', deps, _, _, s, s', hreaches, hstep, row, hmem, hconfirmed, ?_, ?_⟩
    · rintro ⟨block, hash, hash', hb, hh, ⟨w', hasked⟩, hne⟩
      obtain rfl : (7 : ℕ) = block := Option.some.inj (hblock.symm.trans hb)
      obtain rfl : (7 : ℕ) = hash := Option.some.inj (hhash.symm.trans hh)
      -- the node always names the same block
      obtain hans | hans := hrec.answered _ _ _ hasked
      · exact hne (Except.ok.inj hans)
      · cases hans
    · intro row' hrow' _
      exact hreopened row' (hafter ▸ hrow')

end Market

end PreCommunity
