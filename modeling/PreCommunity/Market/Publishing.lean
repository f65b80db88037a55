import PreCommunity.Market.Nonce

/-!
# A publication pass

A publication pass is the only writer of the publications.  It confirms a row only with a receipt
that it has seen to be final, it sends only bytes that are committed on a row, and it signs under
the wallet lock.

* `publicationDiscipline` : the discipline of a publication pass.
* `Committed`, `Publishing` : what the pass knows of the rows it works on.
* `wp_reconcilePublication`, `wp_publish` : the parts of the pass.
* `wp_processPreUsdPricePublication` : the pass.
-/

namespace PreCommunity

namespace Market

open Store Concurrent

/-- The discipline of a publication pass. -/
def publicationDiscipline (O : Outside) (deps : PricePublicationDependencies) :
    Discipline World Reply Failure where
  inv := Inv O.forest
  rely := PublicationRely O.forest
  answers := O.answers
  guar := PublicationWrite deps
  asks _ := PublicationAsks deps
  rely_refl := .refl
  rely_trans := .trans
  guar_refl _ _ := .idle

/-- The two rows are one publication with the same bytes. -/
structure PricePublication.SameBytes (a b : PricePublication) : Prop where
  id : a.id = b.id
  identity : a.identity = b.identity
  quotedAt : a.quotedAt = b.quotedAt
  priceE18Raw : a.priceE18Raw = b.priceE18Raw
  txHash : a.txHash = b.txHash
  signedTransaction : a.signedTransaction = b.signedTransaction

theorem KeepsSignature.sameBytes {f : PricePublication → PricePublication} (hf : KeepsSignature f)
    (row : PricePublication) : (f row).SameBytes row :=
  ⟨hf.id row, hf.identity row, hf.quotedAt row, hf.priceE18Raw row, hf.txHash row,
    hf.signedTransaction row⟩

theorem PricePublication.SameBytes.trans {a b c : PricePublication} (h : a.SameBytes b)
    (h' : b.SameBytes c) : a.SameBytes c :=
  ⟨h.id.trans h'.id, h.identity.trans h'.identity, h.quotedAt.trans h'.quotedAt,
    h.priceE18Raw.trans h'.priceE18Raw, h.txHash.trans h'.txHash,
    h.signedTransaction.trans h'.signedTransaction⟩

/-- The row is one of the deployment, and its bytes are those in the table. -/
def Committed (deps : PricePublicationDependencies) (row : PricePublication) (w : World) : Prop :=
  row.identity = deps.identity ∧ ∃ r ∈ w.db.publications, r.SameBytes row

/-- The log says `L`, and the bytes of `rows` are those in the table. -/
def Publishing (deps : PricePublicationDependencies) (L : Log → Prop)
    (rows : List PricePublication) (v : View PublicationPass World Reply Failure) : Prop :=
  L v.hist ∧ ∀ row ∈ rows, Committed deps row v.shared

/-- What a log says stays said. -/
def Lasting (L : Log → Prop) : Prop := ∀ ⦃h : Log⦄ (e : Event World Reply Failure), L h → L (e :: h)

theorem Lasting.and {L M : Log → Prop} (hL : Lasting L) (hM : Lasting M) :
    Lasting fun h => L h ∧ M h :=
  fun _ e h => ⟨hL e h.1, hM e h.2⟩

theorem lasting_heard {q : Query} {r : Reply q} : Lasting fun h => Heard h q r :=
  fun _ e h => h.cons e

section

variable {O : Outside} {deps : PricePublicationDependencies} {L : Log → Prop}
  {rows : List PricePublication} {row : PricePublication}
  {v : View PublicationPass World Reply Failure} {head : ℕ}
  {E : Failure → View PublicationPass World Reply Failure → Prop}

theorem Publishing.stable (hL : Lasting L) :
    (publicationDiscipline O deps).Stable (Publishing deps L rows) where
  asked q a hv hrely _ := ⟨hL _ hv.1, fun row hrow => by
    rw [View.asked_shared, Committed, hrely.publications]
    exact hv.2 row hrow⟩
  ran hv hrely _ := ⟨hL _ hv.1, fun row hrow => by
    rw [View.ran_shared, Committed, hrely.publications]
    exact hv.2 row hrow⟩

theorem Publishing.mono {M : Log → Prop} (hv : Publishing deps L rows v) (h : L v.hist → M v.hist) :
    Publishing deps M rows v :=
  ⟨h hv.1, hv.2⟩

/-- Ask a question that sends nothing. -/
theorem pub_ask (hL : Lasting L) (hv : Publishing deps L rows v) {q : Query}
    (hq : ∀ w, PublicationRely O.forest v.shared w → PublicationAsks deps w q)
    {Q : Reply q → View PublicationPass World Reply Failure → Prop}
    (hQ : ∀ r v', Publishing deps (fun h => L h ∧ Heard h q r) rows v' → v'.memory = v.memory →
      Q r v')
    (hE : ∀ e v', E e v') : Routine.wp (publicationDiscipline O deps) (ask q) Q E v :=
  (Publishing.stable hL).ask hv (fun w hrely _ => hq w hrely)
    (fun r _ _ _ _ hv' => hQ r _ ⟨⟨hv'.1, heard_asked⟩, hv'.2⟩ rfl) fun e v' _ => hE e v'

theorem pub_select (hL : Lasting L) (hv : Publishing deps L rows v) {α : Type} {f : Database → α}
    {Q : α → View PublicationPass World Reply Failure → Prop}
    (hQ : ∀ w, Inv O.forest w → Publishing deps L rows (v.ran w w) → Q (f w.db) (v.ran w w))
    (hE : ∀ e v', E e v') : Routine.wp (publicationDiscipline O deps) (select f) Q E v :=
  (Publishing.stable hL).read hv (fun w _ hinv hv' => hQ w hinv hv') fun e v' _ => hE e v'

/-- A transaction that keeps the bytes. -/
theorem pub_transaction (hL : Lasting L) (hv : Publishing deps L rows v)
    {f : PricePublication → PricePublication} (hf : KeepsSignature f) {id : Id}
    (hwrite : ∀ w, PublicationRely O.forest v.shared w → PublicationWrite deps v.hist w
      (w.withDb (w.db.mapPublication id f)))
    {Q : Unit → View PublicationPass World Reply Failure → Prop}
    (hQ : ∀ v', Publishing deps L rows v' → Q () v') (hE : ∀ e v', E e v') :
    Routine.wp (publicationDiscipline O deps) (transaction (updatePublication id f)) Q E v := by
  refine wp_transaction (fun _ _ _ => hE _ _) (fun w _ db hrely hinv ht => ?_)
    fun _ _ _ _ _ => hE _ _
  obtain rfl := updatePublication_ok ht
  refine ⟨hwrite w hrely, hQ _ ⟨hL _ hv.1, fun row hrow => ?_⟩, hE _ _⟩
  obtain ⟨hidentity, r, hr, hsame⟩ := ((Publishing.stable hL).ran hv hrely hinv).2 row hrow
  refine ⟨hidentity, ?_⟩
  cases hp : decide (r.id = id) with
  | false => exact ⟨r, mem_updateWhere_of_not hr hp, hsame⟩
  | true => exact ⟨f r, mem_updateWhere_of hr hp, (hf.sameBytes r).trans hsame⟩

theorem keepsSignature_status (status : PublicationStatus) (errorCode : Option ErrorCode) :
    KeepsSignature fun row => { row with status := status, errorCode := errorCode } :=
  ⟨fun _ => rfl, fun _ => rfl, fun _ => rfl, fun _ => rfl, fun _ => rfl, fun _ => rfl, fun _ => rfl,
    fun _ => rfl⟩

theorem keepsSignature_receipt (status : PublicationStatus) (errorCode : Option ErrorCode)
    (receipt : PricePublicationReceipt) (nextAttemptAt : Option ℕ) :
    KeepsSignature fun row => row.withReceipt status errorCode receipt nextAttemptAt :=
  ⟨fun _ => rfl, fun _ => rfl, fun _ => rfl, fun _ => rfl, fun _ => rfl, fun _ => rfl, fun _ => rfl,
    fun _ => rfl⟩

/-- Give a row a status other than confirmed. -/
theorem wp_markPublication (hL : Lasting L) (hv : Publishing deps L rows v) {id : Id}
    {status : PublicationStatus} {errorCode : Option ErrorCode} (hstatus : status ≠ .confirmed)
    {Q : Unit → View PublicationPass World Reply Failure → Prop}
    (hQ : ∀ v', Publishing deps L rows v' → Q () v') (hE : ∀ e v', E e v') :
    Routine.wp (publicationDiscipline O deps) (markPublication id status errorCode) Q E v :=
  pub_transaction hL hv (keepsSignature_status status errorCode) (fun _ _ =>
    .update (keepsSignature_status status errorCode) fun _ h => absurd h hstatus) hQ hE

/-! ### A row with a receipt -/

/-- The receipt is what the node returned for the row's transaction. -/
def PublicationHeard (deps : PricePublicationDependencies) (row : PricePublication)
    (receipt : PricePublicationReceipt) (h : Log) : Prop :=
  ∃ txHash found, row.txHash = some txHash ∧
    Heard h (.transactionReceipt deps.identity.chainId txHash) (some found) ∧
    found.blockNumber = receipt.blockNumber ∧ found.blockHash = receipt.blockHash ∧
    found.reverted = receipt.reverted ∧ receipt.event =
      found.logs.foldl (fun event log => (log.price deps.identity.contractAddress).or event) none

theorem lasting_publicationHeard {receipt : PricePublicationReceipt} :
    Lasting (PublicationHeard deps row receipt) :=
  fun _ e ⟨txHash, found, htx, hfound, hrest⟩ => ⟨txHash, found, htx, hfound.cons e, hrest⟩

theorem wp_publicationReceipt (hL : Lasting L) (hv : Publishing deps L rows v) {txHash : Hash}
    (htx : row.txHash = some txHash)
    {Q : Option PricePublicationReceipt → View PublicationPass World Reply Failure → Prop}
    (hnone : ∀ v', Publishing deps L rows v' → Q none v')
    (hsome : ∀ receipt v',
      Publishing deps (fun h => L h ∧ PublicationHeard deps row receipt h) rows v' →
      Q (some receipt) v')
    (hE : ∀ e v', E e v') :
    Routine.wp (publicationDiscipline O deps) (PublicationChain.receipt deps txHash) Q E v := by
  unfold PublicationChain.receipt
  refine (Routine.wp_bind _ _).2 ((Routine.wp_tryCatch _ _).2 ?_)
  refine pub_ask hL hv (fun _ _ => by trivial) (fun (found : Option TransactionReceipt) v₁ hv₁ _ =>
    ?_) fun e v' => hE _ v'
  cases found with
  | none => exact hnone _ (hv₁.mono And.left)
  | some found =>
    exact hsome _ _ (hv₁.mono fun hl => ⟨hl.1, txHash, found, htx, hl.2, rfl, rfl, rfl, rfl⟩)

theorem wp_priceAt (hL : Lasting L) (hv : Publishing deps L rows v) {block : ℕ}
    {Q : ContractPreUsdPrice → View PublicationPass World Reply Failure → Prop}
    (hQ : ∀ price v', Publishing deps (fun h => L h ∧
      Heard h (.preUsdPriceE18 deps.identity block) price.priceE18 ∧
      Heard h (.preUsdPriceQuotedAt deps.identity block) price.quotedAt) rows v' → Q price v')
    (hE : ∀ e v', E e v') :
    Routine.wp (publicationDiscipline O deps) (PublicationChain.priceAt deps block) Q E v := by
  unfold PublicationChain.priceAt
  refine (Routine.wp_bind _ _).2 (pub_ask hL hv (fun _ _ => by trivial)
    (fun (priceE18 : ℕ) v₁ hv₁ _ => ?_) hE)
  refine (Routine.wp_bind _ _).2 (pub_ask (hL.and lasting_heard) hv₁ (fun _ _ => by trivial)
    (fun (quotedAt : ℕ) v₂ hv₂ _ => ?_) hE)
  exact hQ ⟨priceE18, quotedAt⟩ v₂ (hv₂.mono fun hl => ⟨hl.1.1, hl.1.2, hl.2⟩)

theorem wp_publicationReceiptFinal (hL : Lasting L) (hv : Publishing deps L rows v)
    {receipt : PricePublicationReceipt} {Q : Bool → View PublicationPass World Reply Failure → Prop}
    (hfalse : ∀ v', Publishing deps L rows v' → Q false v')
    (htrue : ∀ v', receipt.blockNumber ≤ finalizedAdsBlock head deps.confirmations →
      Publishing deps (fun h => L h ∧
        SawHash deps.identity.chainId h receipt.blockNumber receipt.blockHash) rows v' → Q true v')
    (hE : ∀ e v', E e v') :
    Routine.wp (publicationDiscipline O deps) (publicationReceiptFinal deps head receipt)
      Q E v := by
  unfold publicationReceiptFinal
  refine Routine.wp_ite (fun _ => hfalse v hv) fun hdeep => ?_
  refine (Routine.wp_bind _ _).2 (pub_ask hL hv (fun _ _ => by trivial)
    (fun (hash : ℕ) v₁ hv₁ _ => ?_) hE)
  change Q (decide (hash = receipt.blockHash)) v₁
  by_cases heq : hash = receipt.blockHash
  · rw [decide_eq_true heq]
    exact htrue v₁ (Nat.le_of_not_lt hdeep) (hv₁.mono fun hl => ⟨hl.1, heq ▸ hl.2⟩)
  · rw [decide_eq_false heq]
    exact hfalse v₁ (hv₁.mono And.left)

/-- What a status that a canonical receipt gives to a row says. -/
def PriceSeen (deps : PricePublicationDependencies) (row : PricePublication)
    (receipt : PricePublicationReceipt) (h : Log) : Prop :=
  receipt.event = some ⟨row.priceE18Raw, row.quotedAt⟩ ∨ receipt.event = none ∧
    Heard h (.preUsdPriceE18 deps.identity receipt.blockNumber) row.priceE18Raw ∧
    Heard h (.preUsdPriceQuotedAt deps.identity receipt.blockNumber) row.quotedAt

theorem wp_receiptStatus (hL : Lasting L) (hv : Publishing deps L rows v)
    {receipt : PricePublicationReceipt}
    {Q : PublicationStatus → View PublicationPass World Reply Failure → Prop}
    (hconfirmed : ∀ v', Publishing deps (fun h => L h ∧ PriceSeen deps row receipt h) rows v' →
      Q .confirmed v')
    (hsuperseded : ∀ v', Publishing deps L rows v' → Q .superseded v') (hE : ∀ e v', E e v') :
    Routine.wp (publicationDiscipline O deps) (receiptStatus row deps receipt) Q E v := by
  unfold receiptStatus
  split
  · rename_i hevent
    refine (Routine.wp_bind _ _).2 (wp_priceAt hL hv (fun price v₁ hv₁ => ?_) hE)
    refine Routine.wp_ite (fun _ => hsuperseded _ (hv₁.mono And.left)) fun _ => ?_
    refine Routine.wp_ite (fun _ => hE _ _) fun hsame => hconfirmed _ (hv₁.mono fun hl => ?_)
    simp only [not_or, Decidable.not_not, ne_eq] at hsame
    exact ⟨hl.1, .inr ⟨hevent, hsame.2 ▸ hl.2.1, hsame.1 ▸ hl.2.2⟩⟩
  · rename_i event hevent
    refine Routine.wp_ite (fun _ => hE _ _) fun hsame => hconfirmed _ (hv.mono fun hl => ?_)
    simp only [not_or, Decidable.not_not, ne_eq] at hsame
    exact ⟨hl, .inl (by rw [hevent, ← hsame.1, ← hsame.2])⟩

/-- **A row with a receipt** is confirmed only with a proof. -/
theorem wp_reconcilePublicationReceipt (hL : Lasting L)
    (hhead : ∀ h, L h → SawHead deps.identity.chainId h head) (hrow : row ∈ rows)
    {receipt : PricePublicationReceipt}
    (hv : Publishing deps (fun h => L h ∧ PublicationHeard deps row receipt h) rows v)
    {Q : Bool → View PublicationPass World Reply Failure → Prop}
    (hQ : ∀ wait v', Publishing deps L rows v' → Q wait v') (hE : ∀ e v', E e v') :
    Routine.wp (publicationDiscipline O deps) (reconcilePublicationReceipt row deps head receipt)
      Q E v := by
  have hL₁ : Lasting fun h => L h ∧ PublicationHeard deps row receipt h :=
    hL.and lasting_publicationHeard
  unfold reconcilePublicationReceipt
  refine (Routine.wp_bind _ _).2 (wp_publicationReceiptFinal hL₁ hv (fun v₁ hv₁ => ?_)
    (fun v₁ hdeep hv₁ => ?_) hE)
  · exact (Routine.wp_bind _ _).2 (wp_markPublication hL (hv₁.mono And.left) (by simp)
      (fun v₂ hv₂ => hQ true v₂ hv₂) hE)
  refine Routine.wp_ite (fun h => by simp at h) fun _ => Routine.wp_ite (fun _ => ?_) fun hok => ?_
  · have hkeeps := keepsSignature_receipt .failed (some .transactionFailed) receipt
      (some (deps.now + 60000))
    exact (Routine.wp_bind _ _).2 (pub_transaction hL (hv₁.mono fun hl => hl.1.1) hkeeps
      (fun _ _ => .update hkeeps fun _ h => by cases h) (fun v₂ hv₂ => hQ false v₂ hv₂) hE)
  have hL₂ : Lasting fun h => (L h ∧ PublicationHeard deps row receipt h) ∧
      SawHash deps.identity.chainId h receipt.blockNumber receipt.blockHash :=
    hL₁.and lasting_heard
  refine (Routine.wp_bind _ _).2 (wp_receiptStatus hL₂ hv₁ (fun v₂ hv₂ => ?_) (fun v₂ hv₂ => ?_) hE)
  · refine (Routine.wp_bind _ _).2 (pub_transaction hL (hv₂.mono fun hl => hl.1.1.1)
      (keepsSignature_receipt .confirmed none receipt none) (fun w hrely => ?_)
      (fun v₃ hv₃ => hQ false v₃ hv₃) hE)
    obtain ⟨⟨⟨⟨hl, hheard⟩, hsaw⟩, hprice⟩, hcommitted⟩ := hv₂
    obtain ⟨hidentity, r, hr, hsame⟩ := hcommitted row hrow
    rw [← hsame.id]
    refine .confirm (hrely.publications ▸ hr) (hsame.identity.trans hidentity) ?_
    obtain ⟨txHash, found, htx, hfound, hnumber, hhash, hreverted, hevent⟩ := hheard
    refine ⟨⟨txHash, found, hsame.txHash.trans htx, hfound, hnumber, hhash, ?_, hevent⟩,
      ⟨head, hhead _ hl, hdeep⟩, hsaw, ?_⟩
    · rw [hreverted]
      simpa using hok
    · rw [hsame.priceE18Raw, hsame.quotedAt]
      exact hprice
  · have hkeeps := keepsSignature_receipt .superseded none receipt none
    exact (Routine.wp_bind _ _).2 (pub_transaction hL (hv₂.mono fun hl => hl.1.1) hkeeps
      (fun _ _ => .update hkeeps fun _ h => by cases h) (fun v₃ hv₃ => hQ false v₃ hv₃) hE)

/-! ### A row without a receipt -/

/-- Sending the bytes of a row. -/
theorem wp_sendPublication (hL : Lasting L) (hv : Publishing deps L rows v) (hrow : row ∈ rows)
    {raw txHash : Hash} {signerAddress : Address} (hraw : row.signedTransaction = some raw)
    {Q : Unit → View PublicationPass World Reply Failure → Prop} (hQ : ∀ v', Q () v')
    (hE : ∀ e v', E e v') :
    Routine.wp (publicationDiscipline O deps) (sendPublication row deps raw txHash signerAddress)
      Q E v := by
  unfold sendPublication PublicationChain.authorities
  refine (Routine.wp_bind _ _).2 (pub_ask hL hv (fun _ _ => by trivial) (fun _ v₁ hv₁ _ => ?_) hE)
  have hv₁ := hv₁.mono (M := L) And.left
  refine (Routine.wp_bind _ _).2 ((Routine.wp_bind _ _).2 (pub_ask hL hv₁ (fun _ _ => by trivial)
    (fun (updater : ℕ) v₂ hv₂ _ => ?_) hE))
  have hv₂ := hv₂.mono (M := L) And.left
  refine (Routine.wp_bind _ _).2 (pub_ask hL hv₂ (fun _ _ => by trivial)
    (fun (operator : ℕ) v₃ hv₃ _ => ?_) hE)
  have hv₃ := hv₃.mono (M := L) And.left
  refine Routine.wp_ite (fun _ => hE _ _) fun _ => Routine.wp_ite (fun _ => hE _ _) fun _ => ?_
  unfold PublicationChain.broadcast
  refine (Routine.wp_bind _ _).2 ((Routine.wp_tryCatch _ _).2 (pub_ask hL hv₃ (fun w hrely => ?_)
    (fun (hash : ℕ) v₄ hv₄ _ => ?_) fun e v' => hE _ v'))
  · obtain ⟨hidentity, r, hr, hsame⟩ := hv₃.2 row hrow
    exact ⟨r, hrely.publications ▸ hr, hsame.signedTransaction.trans hraw,
      hsame.identity.trans hidentity, rfl⟩
  · exact Routine.wp_ite (fun _ => hE _ _) fun _ => wp_markPublication hL (hv₄.mono And.left)
      (by simp) (fun v₅ _ => hQ v₅) hE

theorem publishing_nil (v : View PublicationPass World Reply Failure) :
    Publishing deps (fun _ => True) [] v :=
  ⟨trivial, by simp⟩

theorem lasting_true : Lasting fun _ => True := fun _ _ h => h

/-- Sending a row again leaves it waiting. -/
theorem wp_rebroadcastPublication (hL : Lasting L) (hv : Publishing deps L rows v)
    (hrow : row ∈ rows) {raw txHash : Hash} {signerAddress : Address}
    (hraw : row.signedTransaction = some raw)
    {Q : Bool → View PublicationPass World Reply Failure → Prop} (hQ : ∀ v', Q true v')
    (hE : ∀ e v', E e v') :
    Routine.wp (publicationDiscipline O deps)
      (rebroadcastPublication row deps raw txHash signerAddress) Q E v := by
  unfold rebroadcastPublication
  refine (Routine.wp_tryCatch _ _).2 ((Routine.wp_bind _ _).2 (wp_sendPublication hL hv hrow hraw
    (fun v₁ => hQ v₁) fun e v₁ => ?_))
  refine (Routine.wp_bind _ _).2 (wp_markPublication lasting_true (publishing_nil v₁) (by simp)
    (fun v₂ _ => ?_) hE)
  exact Routine.wp_ite (fun _ => hE _ _) fun _ => hQ _

theorem wp_reconcilePending (hL : Lasting L) (hv : Publishing deps L rows v)
    (hrow : row ∈ rows) {raw txHash : Hash} {nonce : ℕ} {signerAddress : Address}
    (hraw : row.signedTransaction = some raw)
    {Q : Bool → View PublicationPass World Reply Failure → Prop}
    (hQ : ∀ wait v', (wait = false → Publishing deps L rows v') → Q wait v')
    (hE : ∀ e v', E e v') :
    Routine.wp (publicationDiscipline O deps)
      (reconcilePending row deps head raw txHash nonce signerAddress) Q E v := by
  unfold reconcilePending PublicationChain.nonce
  refine (Routine.wp_bind _ _).2 (pub_ask hL hv (fun _ _ => by trivial)
    (fun (latestNonce : ℕ) v₁ hv₁ _ => ?_) hE)
  have hv₁ := hv₁.mono (M := L) And.left
  refine Routine.wp_ite (fun _ => ?_) fun _ => ?_
  · refine (Routine.wp_bind _ _).2 (wp_priceAt hL hv₁ (fun price v₂ hv₂ => ?_) hE)
    refine Routine.wp_ite (fun _ => ?_) fun _ => hE _ _
    exact (Routine.wp_bind _ _).2 (wp_markPublication hL (hv₂.mono And.left) (by simp)
      (fun v₃ hv₃ => hQ false v₃ fun _ => hv₃) hE)
  · refine (Routine.wp_bind _ _).2 (pub_ask hL hv₁ (fun _ _ => by trivial)
      (fun (pendingNonce : ℕ) v₂ hv₂ _ => ?_) hE)
    refine Routine.wp_ite (fun _ => hE _ _) fun _ => ?_
    exact wp_rebroadcastPublication hL (hv₂.mono And.left) hrow hraw
      (fun v₃ => hQ true v₃ (by simp)) hE

/-- **The reconciliation of a row.** -/
theorem wp_reconcilePublication (hL : Lasting L)
    (hhead : ∀ h, L h → SawHead deps.identity.chainId h head) (hv : Publishing deps L rows v)
    (hrow : row ∈ rows) {Q : Bool → View PublicationPass World Reply Failure → Prop}
    (hQ : ∀ wait v', (wait = false → Publishing deps L rows v') → Q wait v')
    (hE : ∀ e v', E e v') :
    Routine.wp (publicationDiscipline O deps) (reconcilePublication row deps head) Q E v := by
  unfold reconcilePublication
  split
  · rename_i txHash raw nonce signerAddress htx hraw _ _
    refine (Routine.wp_bind _ _).2 (wp_publicationReceipt hL hv htx (fun v₁ hv₁ => ?_)
      (fun receipt v₁ hv₁ => ?_) hE)
    · exact wp_reconcilePending hL hv₁ hrow hraw hQ hE
    · exact wp_reconcilePublicationReceipt hL hhead hrow hv₁
        (fun wait v₂ hv₂ => hQ wait v₂ fun _ => hv₂) hE
  · exact hE _ _

theorem Publishing.withMemory (hv : Publishing deps L rows v) (m : PublicationPass) :
    Publishing deps L rows (v.withMemory m) := hv

/-- The loop over the rows in flight. -/
theorem wp_reconcileOutstanding (hL : Lasting L)
    (hhead : ∀ h, L h → SawHead deps.identity.chainId h head) {todo : List PricePublication}
    (htodo : ∀ row ∈ todo, row ∈ rows) (hv : Publishing deps L rows v)
    {Q : Bool → View PublicationPass World Reply Failure → Prop}
    (hQ : ∀ wait v', (wait = false → Publishing deps L rows v') → Q wait v')
    (hE : ∀ e v', E e v') :
    Routine.wp (publicationDiscipline O deps) (reconcileOutstanding deps head todo) Q E v := by
  induction todo generalizing v with
  | nil => exact hQ false v fun _ => hv
  | cons row rest ih =>
    unfold reconcileOutstanding
    refine (Routine.wp_bind _ _).2 ((Routine.wp_set _).2 ((Routine.wp_bind _ _).2 ?_))
    refine wp_reconcilePublication hL hhead (hv.withMemory _) (htodo row (.head _))
      (fun wait v₁ hv₁ => ?_) hE
    refine Routine.wp_ite (fun hwait => hQ true v₁ (by simp)) fun hwait => ?_
    exact ih (fun row hrow => htodo row (.tail _ hrow)) (hv₁ (by simpa using hwait))

/-- The settled row with the newest receipt is one of the deployment. -/
theorem previousPublication_some {db : Database}
    (h : previousPublication db deps.identity = some row) :
    row ∈ db.publications ∧ row.identity = deps.identity := by
  have hrow := List.mem_filter.1 ((List.mem_insertionSort _).1 (List.mem_of_mem_head? h))
  exact ⟨hrow.1, (of_decide_eq_true hrow.2).1⟩

theorem PricePublication.SameBytes.refl (a : PricePublication) : a.SameBytes a :=
  ⟨rfl, rfl, rfl, rfl, rfl, rfl⟩

theorem Publishing.forget (hv : Publishing deps L rows v) : Publishing deps L [] v :=
  ⟨hv.1, by simp⟩

/-- The look at the last settled row. -/
theorem wp_reconcilePrevious (hL : Lasting L)
    (hhead : ∀ h, L h → SawHead deps.identity.chainId h head) (hv : Publishing deps L [] v)
    {Q : Bool → View PublicationPass World Reply Failure → Prop}
    (hQ : ∀ wait v', (wait = false → Publishing deps L [] v') → Q wait v')
    (hE : ∀ e v', E e v') :
    Routine.wp (publicationDiscipline O deps) (reconcilePrevious deps head) Q E v := by
  unfold reconcilePrevious
  refine (Routine.wp_bind _ _).2 (pub_select hL hv (fun w _ hv₁ => ?_) hE)
  split
  · exact hQ false _ fun _ => hv₁
  · rename_i previous hprevious
    obtain ⟨hmem, hidentity⟩ := previousPublication_some hprevious
    split
    · have hv₁ : Publishing deps L [previous] (v.ran w w) := ⟨hv₁.1, fun row hrow => by
        rw [List.mem_singleton.1 hrow]
        exact ⟨hidentity, previous, hmem, .refl previous⟩⟩
      refine (Routine.wp_bind _ _).2 (pub_ask hL hv₁ (fun _ _ => by trivial)
        (fun (hash : ℕ) v₂ hv₂ _ => ?_) hE)
      have hv₂ := hv₂.mono (M := L) And.left
      refine Routine.wp_ite (fun _ => hQ false v₂ fun _ => hv₂.forget) fun _ => ?_
      refine (Routine.wp_bind _ _).2 (wp_markPublication hL hv₂ (by simp) (fun v₃ hv₃ => ?_) hE)
      refine (Routine.wp_bind _ _).2 ((Routine.wp_set _).2 ?_)
      -- the row is the one that was read, but for its status
      have hv₃ : Publishing deps L [{ previous with
          status := .reconciling, errorCode := some .waitingConfirmation }] v₃ :=
        ⟨hv₃.1, fun row hrow => by
          rw [List.mem_singleton.1 hrow]
          obtain ⟨-, r, hr, hsame⟩ := hv₃.2 previous (.head _)
          exact ⟨hidentity, r, hr, hsame.trans ⟨rfl, rfl, rfl, rfl, rfl, rfl⟩⟩⟩
      exact wp_reconcilePublication hL hhead (hv₃.withMemory _) (.head _)
        (fun wait v₄ hv₄ => hQ wait v₄ fun hwait => (hv₄ hwait).forget) hE
    · exact hQ false _ fun _ => hv₁

/-! ### The signature -/

theorem protects_batches (O : Outside) (deps : PricePublicationDependencies) :
    Protects (publicationDiscipline O deps) (BatchesLocked .publication) where
  refl _ w := LockedSince.refl .refl w
  rely h hrely := h.trans (hrely.locked _)

/-- The publications stand still while a pass signs. -/
def Signing (deps : PricePublicationDependencies) (L : Log → Prop) (rows : List PricePublication)
    (B : List PricePublication) (v : View PublicationPass World Reply Failure) : Prop :=
  Publishing deps L rows v ∧ v.shared.db.publications = B

theorem Signing.stable (hL : Lasting L) {B : List PricePublication} :
    (publicationDiscipline O deps).Stable (Signing deps L rows B) where
  asked q a hv hrely hinv := ⟨(Publishing.stable hL).asked q a hv.1 hrely hinv,
    hrely.publications.trans hv.2⟩
  ran hv hrely hinv := ⟨(Publishing.stable hL).ran hv.1 hrely hinv,
    hrely.publications.trans hv.2⟩

/-- The commit of a signature. -/
theorem wp_commitPublication (hL : Lasting L) {saved : PricePublication} {signer : Address}
    {nonce : ℕ} {tx : SignedTransaction} {B : List PricePublication} {w₁ w₂ w₃ w₄ : World}
    (hv : Locking (BatchesLocked .publication) (fun w => w.db.publications = B)
      (Signing deps L [] B) ⟨deps.identity.chainId, signer⟩ [w₁, w₂, w₃, w₄] v)
    (hsaved : saved ∈ B) (hidentity : saved.identity = deps.identity)
    (hunsent : saved.status.inFlight = false)
    (hpending : (reservationOf ⟨deps.identity.chainId, signer⟩ none (some saved.id) w₁.db w₂.db
      w₃.db w₄.db).pending = false)
    (hlatest : ¬(reservationOf ⟨deps.identity.chainId, signer⟩ none (some saved.id) w₁.db w₂.db
      w₃.db w₄.db).latestNonce.any (nonce ≤ ·) = true)
    {Q : PricePublication → View PublicationPass World Reply Failure → Prop}
    (hQ : ∀ row v', Publishing deps L [row] v' → Q row v') (hE : ∀ e v', E e v') :
    Routine.wp (publicationDiscipline O deps)
      (commitLocked .publication ⟨deps.identity.chainId, signer⟩
        (signPublicationTx saved.id signer nonce tx)) Q E v := by
  refine wp_commitLocked (fun w hrely hinv => hE _ _) ?_ fun w e _ _ => ⟨.release, hE _ _, hE _ _⟩
  intro w row db hrely hinv hlocks ht
  -- only the holder of the publication lock writes publications
  have hB : w.db.publications = B := hrely.publications.trans hv.1.2
  obtain ⟨rfl, hfind⟩ := signPublicationTx_ok ht
  obtain ⟨-, hread₁, hlocked₁⟩ := hv.2 w₁ (by simp)
  have h₂ : w₂.db.publications = B := (hv.2 w₂ (by simp)).1
  obtain ⟨-, -, hlocked₃⟩ := hv.2 w₃ (by simp)
  have h₄ : w₄.db.publications = B := (hv.2 w₄ (by simp)).1
  have hprotects := protects_batches O deps
  obtain ⟨hlock₁, hrows₁⟩ := hprotects.rely hlocked₁ hrely hlocks
  obtain ⟨-, hrows₃⟩ := hprotects.rely hlocked₃ hrely hlocks
  refine ⟨.sign (?_ : PublicationSigning deps v.hist w w₁ saved signer nonce), hQ row _ ?_, hE _ _⟩
  · refine
      { mem := hB ▸ hsaved, unsent := hunsent, identity := hidentity, locked := hlocks
        publications := fun other hother hof => ⟨fun n hn => ?_, fun hflight => ?_⟩
        batches := fun other hother hof => ⟨fun n hn => ?_, ?_⟩
        read := hread₁, lockedRead := hlock₁ }
    · refine reservationOf_latest (.inr ?_) hlatest
      rw [hB, ← h₄] at hother
      exact List.mem_map.2 ⟨other, List.mem_filter.2 ⟨hother, hof⟩, hn⟩
    · rw [hB, ← h₂] at hother
      exact Option.some.inj (reservationOf_publications hpending hother hof hflight)
    · obtain ⟨row₃, hrow₃, hs⟩ := hrows₃ other hother hof
      refine reservationOf_latest (.inl ?_) hlatest
      exact List.mem_map.2 ⟨row₃, List.mem_filter.2 ⟨hrow₃, (hs.ofWallet _).symm.trans hof⟩,
        hs.2.2.2.1.symm.trans hn⟩
    · obtain ⟨row₁, hrow₁, hs⟩ := hrows₁ other hother hof
      refine ⟨row₁, hrow₁, hs.1.id.symm, hs.2.2.2.1.symm, ?_⟩
      by_contra hflight
      have := reservationOf_batches hpending hrow₁ ((hs.ofWallet _).symm.trans hof)
        (by simpa using hflight)
      cases this
  · refine ⟨hL _ hv.1.1.1, fun r hr => ?_⟩
    rw [List.mem_singleton.1 hr]
    have hmem := List.mem_of_find?_eq_some hfind
    refine ⟨?_, row, hmem, .refl row⟩
    obtain ⟨-, hne⟩ | ⟨r', hr', hp, rfl⟩ := mem_updateWhere_cases hmem
    · have hid := List.find?_some hfind
      exact absurd hid (by simpa using hne)
    · obtain rfl := hinv.publicationIds.eq hr' (hB ▸ hsaved) (by simpa using hp)
      exact hidentity

/-- **The signing transaction.** -/
theorem wp_signPublication (hL : Lasting L) {active : PricePublication} {signer : Address}
    (hv : Publishing deps L [active] v)
    {Q : PricePublication → View PublicationPass World Reply Failure → Prop}
    (hQ : ∀ row v', Publishing deps L [row] v' → Q row v') (hE : ∀ e v', E e v') :
    Routine.wp (publicationDiscipline O deps) (signPublication active deps signer) Q E v := by
  have hprotects := protects_batches O deps
  unfold signPublication
  obtain ⟨B, hB⟩ : ∃ B, v.shared.db.publications = B := ⟨_, rfl⟩
  obtain ⟨hidentity, r, hr, hsame⟩ := hv.2 active (.head _)
  have hv₀ : Signing deps L [] B v := ⟨hv.forget, hB⟩
  refine (Routine.wp_bind _ _).2 (wp_reservation (Signing.stable hL) hprotects
    (S := fun w => w.db.publications = B) (fun v' hv' => hv'.2) hv₀ (fun w₁ w₂ w₃ w₄ v₁ hv₁ => ?_)
    fun e v' _ => hE e v')
  have hstable : (publicationDiscipline O deps).Stable (Locking (BatchesLocked .publication)
      (fun w => w.db.publications = B) (Signing deps L [] B) ⟨deps.identity.chainId, signer⟩
      [w₁, w₂, w₃, w₄]) := stable_locking (Signing.stable hL) hprotects
  generalize hres : reservationOf ⟨deps.identity.chainId, signer⟩ none (some active.id) w₁.db w₂.db
    w₃.db w₄.db = reservation
  refine (Routine.wp_bind _ _).2 (hstable.read hv₁ (fun w₅ _ hinv hv₅ => ?_) fun e v' _ => hE e v')
  beta_reduce
  split
  · exact hE _ _
  rename_i saved hfound
  have hsaved : saved ∈ B := hv₅.1.2 ▸ List.mem_of_find?_eq_some hfound
  have hid : saved.id = active.id := by simpa using List.find?_some hfound
  -- the saved row is the active one
  obtain rfl : saved = r := hinv.publicationIds.eq (hv₅.1.2.symm ▸ hsaved)
    (hv₅.1.2.symm ▸ hB ▸ hr) (hid.trans hsame.id.symm)
  have hidentity := hsame.identity.trans hidentity
  refine Routine.wp_ite (fun _ => ?_) fun hflight => ?_
  · refine wp_commitLocked (fun _ _ _ => hE _ _) ?_ fun w e _ _ => ⟨.release, hE _ _, hE _ _⟩
    intro w row db hrely hinv hlocks ht
    obtain ⟨hrow, rfl⟩ := Tx.pure_ok.1 ht
    subst hrow
    have hsaved : saved ∈ w.db.publications := hrely.publications.trans hv₅.1.2 ▸ hsaved
    exact ⟨.release, hQ saved _ ⟨hL _ hv₅.1.1.1, fun r' hr' => by
      rw [List.mem_singleton.1 hr']
      exact ⟨hidentity, saved, hsaved, .refl saved⟩⟩, hE _ _⟩
  refine Routine.wp_ite (fun _ => hE _ _) fun hpending => ?_
  refine (Routine.wp_bind _ _).2 (hstable.ask hv₅ (fun _ _ _ => by trivial)
    (fun (pendingNonce : ℕ) w₆ _ _ _ hv₆ => ?_) fun e v' _ => hE e v')
  refine (Routine.wp_bind _ _).2 (hstable.ask hv₆ (fun _ _ _ => by trivial)
    (fun (latest : ℕ) w₇ _ _ _ hv₇ => ?_) fun e v' _ => hE e v')
  refine Routine.wp_ite (fun _ => hE _ _) fun _ => ?_
  refine Routine.wp_ite (fun _ => hE _ _) fun hlatest => ?_
  refine (Routine.wp_bind _ _).2 (hstable.ask hv₇ (fun _ _ _ => by trivial)
    (fun (tx : SignedTransaction) w₈ _ _ _ hv₈ => ?_) fun e v' _ => hE e v')
  subst hres
  rw [← hid] at hpending hlatest
  exact wp_commitPublication hL hv₈ hsaved hidentity (by simpa using hflight)
    (by simpa using hpending) hlatest hQ hE

/-! ### The pass -/

/-- Signing and sending a row. -/
theorem wp_publish (hL : Lasting L) (hhead : ∀ h, L h → SawHead deps.identity.chainId h head)
    {active : PricePublication} (hv : Publishing deps L [active] v)
    {Q : JobResult → View PublicationPass World Reply Failure → Prop} (hQ : ∀ r v', Q r v')
    (hE : ∀ e v', E e v') :
    Routine.wp (publicationDiscipline O deps) (publish active deps head) Q E v := by
  unfold publish PublicationChain.authorities PublicationChain.verify
  refine (Routine.wp_bind _ _).2 (pub_ask hL hv (fun _ _ => by trivial) (fun _ v₁ hv₁ _ => ?_) hE)
  have hv₁ := hv₁.mono (M := L) And.left
  refine (Routine.wp_bind _ _).2 (pub_ask hL hv₁ (fun _ _ => by trivial)
    (fun (signer : ℕ) v₂ hv₂ _ => ?_) hE)
  have hv₂ := hv₂.mono (M := L) And.left
  refine (Routine.wp_bind _ _).2 ((Routine.wp_bind _ _).2 (pub_ask hL hv₂ (fun _ _ => by trivial)
    (fun (updater : ℕ) v₃ hv₃ _ => ?_) hE))
  have hv₃ := hv₃.mono (M := L) And.left
  refine (Routine.wp_bind _ _).2 (pub_ask hL hv₃ (fun _ _ => by trivial)
    (fun (operator : ℕ) v₄ hv₄ _ => ?_) hE)
  have hv₄ := hv₄.mono (M := L) And.left
  refine Routine.wp_ite (fun _ => hE _ _) fun _ => Routine.wp_ite (fun _ => hE _ _) fun _ => ?_
  refine (Routine.wp_bind _ _).2 (wp_withWalletLock (fun _ _ => True)
    (wp_lockWallet (fun _ _ _ => trivial) fun w hrely hinv hfree => ?_)
    fun e v' _ w _ _ => ⟨hE _ _, .release, hE _ _, hE _ _⟩)
  have hlocked : Publishing deps L [active] (v₄.ran w (w.lock .publication
      ⟨deps.identity.chainId, signer⟩)) :=
    ⟨hL _ hv₄.1, ((Publishing.stable hL).ran hv₄ hrely hinv).2⟩
  refine ⟨.lock hfree, wp_signPublication hL hlocked (fun signed v₅ hv₅ => ?_)
    fun _ _ => trivial, trivial⟩
  refine (Routine.wp_bind _ _).2 ((Routine.wp_set _).2 ((Routine.wp_bind _ _).2
    (wp_reconcilePublication hL hhead (hv₅.withMemory _) (.head _) (fun wait v₆ _ => ?_) hE)))
  exact Routine.wp_ite (fun _ => hQ _ _) fun _ => hQ _ _

/-- The part of the pass that publishes the newest quote. -/
theorem wp_publishLatest (hL : Lasting L) (hhead : ∀ h, L h → SawHead deps.identity.chainId h head)
    (hv : Publishing deps L [] v)
    {Q : JobResult → View PublicationPass World Reply Failure → Prop} (hQ : ∀ r v', Q r v')
    (hE : ∀ e v', E e v') :
    Routine.wp (publicationDiscipline O deps) (publishLatest deps head) Q E v := by
  unfold publishLatest PublicationChain.price
  refine (Routine.wp_bind _ _).2 ((Routine.wp_set _).2 ((Routine.wp_bind _ _).2
    (pub_ask hL (hv.withMemory _) (fun _ _ => by trivial)
      (fun (latest : Option PreUsdQuote) v₁ hv₁ _ => ?_) hE)))
  have hv₁ := hv₁.mono (M := L) And.left
  split
  · exact hE _ _
  rename_i quote _
  refine (Routine.wp_bind _ _).2 ((Routine.wp_bind _ _).2 (pub_ask hL hv₁ (fun _ _ => by trivial)
    (fun (block : ℕ) v₂ hv₂ _ => ?_) hE))
  have hv₂ := hv₂.mono (M := L) And.left
  refine wp_priceAt hL hv₂ (fun current v₃ hv₃ => ?_) hE
  have hv₃ := hv₃.mono (M := L) And.left
  refine Routine.wp_ite (fun _ => ?_) fun _ => ?_
  · exact (Routine.wp_bind _ _).2 (wp_update (fun _ _ _ => hE _ _) fun w _ _ =>
      ⟨.supersede, hQ _ _, hE _ _⟩)
  refine (Routine.wp_bind _ _).2 (pub_ask hL hv₃ (fun _ _ => by trivial)
    (fun (random : ℕ → Id) v₄ hv₄ _ => ?_) hE)
  have hv₄ := hv₄.mono (M := L) And.left
  refine (Routine.wp_bind _ _).2 (wp_transaction (fun _ _ _ => hE _ _)
    (fun w active db _ _ ht => ?_) fun _ _ _ _ _ => hE _ _)
  have hactive : PublicationWrite deps v₄.hist w (w.withDb db) ∧
      Publishing deps L [active] (v₄.ran w (w.withDb db)) := by
    obtain ⟨rfl, hmem, hidentity⟩ | ⟨hfresh, rfl, rfl⟩ := upsertPublication_ok ht
    · refine ⟨.idle, hL _ hv₄.1, fun row hrow => ?_⟩
      rw [List.mem_singleton.1 hrow]
      exact ⟨hidentity, active, hmem, .refl active⟩
    · refine ⟨.insert hfresh, hL _ hv₄.1, fun row hrow => ?_⟩
      rw [List.mem_singleton.1 hrow]
      exact ⟨rfl, _, List.mem_append_right _ (.head _), .refl _⟩
  refine ⟨hactive.1, (Routine.wp_bind _ _).2 ((Routine.wp_set _).2 ?_), hE _ _⟩
  refine Routine.wp_ite (fun _ => hQ _ _) fun _ => ?_
  exact wp_publish hL hhead (hactive.2.withMemory _) hQ hE

theorem wp_publicationHead (hL : Lasting L) (hv : Publishing deps L rows v)
    {Q : ℕ → View PublicationPass World Reply Failure → Prop}
    (hQ : ∀ head v', Publishing deps (fun h => L h ∧ SawHead deps.identity.chainId h head) rows v' →
      Q head v')
    (hE : ∀ e v', E e v') :
    Routine.wp (publicationDiscipline O deps) (PublicationChain.head deps) Q E v := by
  unfold PublicationChain.head
  refine (Routine.wp_bind _ _).2 (pub_ask hL hv (fun _ _ => by trivial)
    (fun (chainId : ℕ) v₁ hv₁ _ => ?_) hE)
  exact Routine.wp_ite (fun _ => hE _ _) fun _ => pub_ask hL (hv₁.mono And.left)
    (fun _ _ => by trivial) (fun (head : ℕ) v₂ hv₂ _ => hQ head v₂ hv₂) hE

/-- Recording the error of a pass. -/
theorem wp_recordPublicationError (error : Failure) :
    Routine.wp (publicationDiscipline O deps) (recordPublicationError error)
      (fun _ _ => True) (fun _ _ => True) v := by
  unfold recordPublicationError
  refine (Routine.wp_bind _ _).2 (Routine.wp_get.2 ?_)
  extract_lets result
  cases v.memory.active with
  | none => trivial
  | some active => ?_
  have hkeeps : KeepsSignature fun row =>
      row.noteError error.code active.status.inFlight :=
    ⟨fun _ => rfl, fun _ => rfl, fun _ => rfl, fun _ => rfl, fun _ => rfl, fun _ => rfl,
      fun _ => rfl, fun _ => rfl⟩
  refine (Routine.wp_bind _ _).2 (pub_transaction lasting_true (publishing_nil v) hkeeps
    (fun _ _ => .update hkeeps fun row hrow => ?_) (fun _ _ => trivial) fun _ _ => trivial)
  simp only [PricePublication.noteError] at hrow
  split_ifs at hrow
  exact ⟨hrow, rfl, rfl⟩

/-- **A publication pass** keeps to its discipline, from any world. -/
theorem wp_processPreUsdPricePublication :
    Routine.wp (publicationDiscipline O deps) (processPreUsdPricePublication deps)
      (fun _ _ => True) (fun _ _ => True) v := by
  unfold processPreUsdPricePublication publicationSteps
  refine (Routine.wp_tryCatch _ _).2 ((Routine.wp_bind _ _).2 (wp_publicationHead lasting_true
    (publishing_nil v) (fun head v₁ hv₁ => ?_) fun e v' => wp_recordPublicationError e))
  have hL : Lasting fun h => SawHead deps.identity.chainId h head := lasting_heard
  have hv₁ := hv₁.mono (M := fun h => SawHead deps.identity.chainId h head) And.right
  refine (Routine.wp_bind _ _).2 (pub_select hL hv₁ (fun w _ hv₂ => ?_)
    fun e v' => wp_recordPublicationError e)
  have hrows : Publishing deps (fun h => SawHead deps.identity.chainId h head)
      (w.db.publications.filter fun row => row.identity = deps.identity ∧ row.status.inFlight)
      (v₁.ran w w) := ⟨hv₂.1, fun row hrow => by
    obtain ⟨hmem, hrow⟩ := List.mem_filter.1 hrow
    exact ⟨(of_decide_eq_true hrow).1, row, hmem, .refl row⟩⟩
  refine (Routine.wp_bind _ _).2 (wp_reconcileOutstanding hL (fun _ hl => hl) (fun _ => id) hrows
    (fun wait v₃ hv₃ => ?_) fun e v' => wp_recordPublicationError e)
  refine Routine.wp_ite (fun _ => trivial) fun hwait => ?_
  refine (Routine.wp_bind _ _).2 (wp_reconcilePrevious hL (fun _ hl => hl)
    (hv₃ (by simpa using hwait)).forget (fun wait v₄ hv₄ => ?_)
    fun e v' => wp_recordPublicationError e)
  refine Routine.wp_ite (fun _ => trivial) fun hwait => ?_
  exact wp_publishLatest hL (fun _ hl => hl) (hv₄ (by simpa using hwait)) (fun _ _ => trivial)
    fun e v' => wp_recordPublicationError e

end

end Market

end PreCommunity
