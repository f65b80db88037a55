import PreCommunity.Concurrent.Promises
import PreCommunity.Market.Reopening
import PreCommunity.Store.Journal

/-!
# The nonces of a wallet

The charge worker and the price publication worker may share a wallet.  Both keep the signed bytes
of a row on the row itself, and signing a row again forgets its last signature.  Still no nonce is
used twice, as long as a row is signed again by the wallet that has signed it before.

* `JournalRow` : what a row of either journal says about its signature.
* `JobWrite.rows` : what a write does to these, and what the process knows when it signs.
* `persisted` : the signatures that a step stores.
* `signed_in_order` : the nonces of a wallet increase over every run.
* `signed_alone` : what a process knows of the wallet when it signs.
* `sent_persisted` : what is sent was stored before.
-/

namespace PreCommunity

namespace Market

open Store Concurrent

/-! ### Rows -/

/-- A signature as a row stores it. -/
structure Signature where
  wallet : Wallet
  nonce : ℕ
  raw : Hash
deriving DecidableEq

/-- The key of a row of either journal. -/
inductive JournalKey where
  | batch (id : Id)
  | publication (id : Id)
deriving DecidableEq

/-- What a row of either journal says about its signature. -/
structure JournalRow where
  key : JournalKey
  chainId : ℕ
  signerAddress : Option Address
  nonce : Option ℕ
  signedTransaction : Option Hash

/-- The signature that the row holds. -/
def JournalRow.signature (row : JournalRow) : Option Signature :=
  match row.signerAddress, row.nonce, row.signedTransaction with
  | some signer, some nonce, some raw => some ⟨⟨row.chainId, signer⟩, nonce, raw⟩
  | _, _, _ => none

/-- The row after it was signed. -/
def JournalRow.sign (row : JournalRow) (σ : Signature) : JournalRow where
  key := row.key
  chainId := row.chainId
  signerAddress := some σ.wallet.signerAddress
  nonce := some σ.nonce
  signedTransaction := some σ.raw

/-- The row was never signed. -/
def JournalRow.Blank (row : JournalRow) : Prop :=
  row.signerAddress = none ∧ row.signedTransaction = none

/-- The row of a batch. -/
def ChargeBatch.journalRow (row : ChargeBatch) : JournalRow :=
  ⟨.batch row.id, row.identity.chainId, row.signerAddress, row.nonce, row.signedTransaction⟩

/-- The row of a publication. -/
def PricePublication.journalRow (row : PricePublication) : JournalRow :=
  ⟨.publication row.id, row.identity.chainId, row.signerAddress, row.nonce, row.signedTransaction⟩

/-- The rows of both journals. -/
def Database.journalRows (db : Database) : List JournalRow :=
  db.batches.map ChargeBatch.journalRow ++ db.publications.map PricePublication.journalRow

/-- The signatures that some rows hold. -/
def signaturesOf (rows : List JournalRow) : List (JournalKey × Signature) :=
  rows.filterMap fun row => row.signature.map fun σ => (row.key, σ)

/-- The signatures that a step stores. -/
def persisted : Label World Reply Failure Job → List Signature
  | .act _ _ _ (.ran w w') =>
    freshEntries (signaturesOf w.db.journalRows) (signaturesOf w'.db.journalRows)
  | _ => []

/-- What a worker hands to the node: the chain and the bytes. -/
def sent : Label World Reply Failure Job → Option (ℕ × Hash)
  | .act j _ _ (.asked _ (.sendRawTransaction chainId raw) _) =>
    if j.slot = .charge ∨ j.slot = .publication then some (chainId, raw) else none
  | _ => none

/-- A row that is signed again is signed by the wallet that has signed it before. -/
def KeepsSigners : Label World Reply Failure Job → Bool
  | .act _ _ _ (.ran w w') => decide (KeepsGroups Signature.wallet
      (signaturesOf w.db.journalRows) (signaturesOf w'.db.journalRows))
  | _ => true

/-- What a write may do to the rows. -/
inductive RowsStep (old new : List JournalRow) : Option Signature → Prop where
  /-- The rows stay, and new ones are blank. -/
  | keep : (∀ row ∈ old, row ∈ new) → (∀ row ∈ new, row ∈ old ∨ row.Blank) → RowsStep old new none
  /-- One row is signed, with a nonce above all those of its wallet. -/
  | sign {row : JournalRow} {σ : Signature} : σ.wallet.chainId = row.chainId →
      (∀ x ∈ old, ∀ σ', x.signature = some σ' → σ'.wallet = σ.wallet → σ'.nonce < σ.nonce) →
      (∀ x, x ∈ new ↔ x = row.sign σ ∨ x ∈ old ∧ x.key ≠ row.key) → RowsStep old new (some σ)

section Rows

variable {row : JournalRow} {old new : List JournalRow} {σ : Signature} {o : Option Signature}
  {e : JournalKey × Signature}

theorem JournalRow.signature_eq_some : row.signature = some σ ↔
    σ.wallet.chainId = row.chainId ∧ row.signerAddress = some σ.wallet.signerAddress ∧
      row.nonce = some σ.nonce ∧ row.signedTransaction = some σ.raw := by
  obtain ⟨key, chainId, signer, nonce, raw⟩ := row
  obtain ⟨⟨chainId', signer'⟩, nonce', raw'⟩ := σ
  rcases signer with _ | signer <;> rcases nonce with _ | nonce <;> rcases raw with _ | raw <;>
    simp [JournalRow.signature, eq_comm, and_assoc]

theorem JournalRow.signature_sign (hchain : σ.wallet.chainId = row.chainId) :
    (row.sign σ).signature = some σ :=
  JournalRow.signature_eq_some.2 ⟨hchain, rfl, rfl, rfl⟩

theorem JournalRow.Blank.signature (h : row.Blank) : row.signature = none := by
  unfold JournalRow.signature
  rw [h.1]

theorem mem_signaturesOf :
    e ∈ signaturesOf old ↔ ∃ row ∈ old, row.key = e.1 ∧ row.signature = some e.2 := by
  simp only [signaturesOf, List.mem_filterMap, Option.map_eq_some_iff, Prod.ext_iff]
  constructor
  · rintro ⟨row, hrow, σ, hσ, hkey, rfl⟩
    exact ⟨row, hrow, hkey, hσ⟩
  · rintro ⟨row, hrow, hkey, hσ⟩
    exact ⟨row, hrow, e.2, hσ, hkey, rfl⟩

theorem nodup_signaturesOf (hrows : (old.map JournalRow.key).Nodup) :
    (signaturesOf old).Nodup := by
  refine List.Nodup.of_map Prod.fst (List.Sublist.nodup ?_ hrows)
  unfold signaturesOf
  induction old with
  | nil => exact .slnil
  | cons row rest ih =>
    have hrest := ih (List.nodup_cons.1 hrows).2
    rw [List.filterMap_cons, List.map_cons]
    cases row.signature with
    | none => exact hrest.cons _
    | some σ => exact hrest.cons_cons _

/-- **A write of the rows** moves the journal of their signatures. -/
theorem RowsStep.move (h : RowsStep old new o) :
    JournalMove Signature.wallet Signature.nonce (signaturesOf old) (signaturesOf new) o := by
  cases h with
  | keep hkeep hnew =>
    refine .keep fun e => ?_
    rw [mem_signaturesOf, mem_signaturesOf]
    constructor
    · rintro ⟨row, hrow, hkey, hσ⟩
      obtain hold | hblank := hnew row hrow
      · exact ⟨row, hold, hkey, hσ⟩
      · rw [hblank.signature] at hσ
        cases hσ
    · rintro ⟨row, hrow, hkey, hσ⟩
      exact ⟨row, hkeep row hrow, hkey, hσ⟩
  | @sign row σ hchain hlt hmem =>
    refine .enter (fun e he hwallet => ?_) fun e =>
      (?_ : _ ↔ e = (row.key, σ) ∨ e ∈ signaturesOf old ∧ e.1 ≠ row.key)
    · obtain ⟨x, hx, -, hσ⟩ := mem_signaturesOf.1 he
      exact hlt x hx e.2 hσ hwallet
    · rw [mem_signaturesOf, mem_signaturesOf]
      constructor
      · rintro ⟨x, hx, hkey, hσ⟩
        obtain rfl | ⟨hold, hne⟩ := (hmem x).1 hx
        · rw [JournalRow.signature_sign hchain] at hσ
          exact .inl (Prod.ext hkey.symm (Option.some.inj hσ).symm)
        · exact .inr ⟨⟨x, hold, hkey, hσ⟩, hkey ▸ hne⟩
      · rintro (rfl | ⟨⟨x, hx, hkey, hσ⟩, hne⟩)
        · exact ⟨_, (hmem _).2 (.inl rfl), rfl, JournalRow.signature_sign hchain⟩
        · exact ⟨x, (hmem x).2 (.inr ⟨hx, hkey ▸ hne⟩), hkey, hσ⟩

/-- The rows with signed bytes have a signature. -/
def Complete (rows : List JournalRow) : Prop :=
  ∀ row ∈ rows, row.signedTransaction.isSome = true → row.signature.isSome = true

theorem Complete.step (h : Complete old) (hstep : RowsStep old new o) : Complete new := by
  intro row hrow hraw
  cases hstep with
  | keep _ hnew =>
    obtain hold | hblank := hnew row hrow
    · exact h row hold hraw
    · rw [hblank.2] at hraw
      cases hraw
  | sign hchain _ hmem =>
    obtain rfl | ⟨hold, -⟩ := (hmem row).1 hrow
    · rw [JournalRow.signature_sign hchain]
      rfl
    · exact h row hold hraw

end Rows

/-! ### Writes -/

/-- The process that signs knows the wallet: it holds its lock, no row of its own journal is in
flight, and when it read the other journal under the lock, no row that still has its nonce was in
flight there either. -/
inductive Alone (h : Log) (w : World) (wallet : Wallet) : Job → Prop where
  | charge {deps : ChargeDependencies} {runId : Option Id} {cached : Option WalletBalance}
      {w₀ : World} :
      w.Locks .charge wallet → ReadIn h w₀ → w₀.Locks .charge wallet →
      (∀ row ∈ w.db.batches, row.ofWallet wallet = true → row.status.inFlight = false) →
      (∀ row ∈ w.db.publications, row.ofWallet wallet = true → ∃ row₀ ∈ w₀.db.publications,
        row₀.id = row.id ∧ row₀.nonce = row.nonce ∧ row₀.status.inFlight = false) →
      Alone h w wallet (.charge deps runId cached)
  | publish {deps : PricePublicationDependencies} {w₀ : World} :
      w.Locks .publication wallet → ReadIn h w₀ → w₀.Locks .publication wallet →
      (∀ row ∈ w.db.publications, row.ofWallet wallet = true → row.status.inFlight = false) →
      (∀ row ∈ w.db.batches, row.ofWallet wallet = true → ∃ row₀ ∈ w₀.db.batches,
        row₀.id = row.id ∧ row₀.nonce = row.nonce ∧ row₀.status.inFlight = false) →
      Alone h w wallet (.publish deps)

section Writes

variable {w w' : World} {h : Log} {j : Job}

theorem mem_journalRows {db : Database} {x : JournalRow} : x ∈ db.journalRows ↔
    (∃ row ∈ db.batches, row.journalRow = x) ∨ ∃ row ∈ db.publications, row.journalRow = x := by
  simp [Database.journalRows]

/-- The keys of both journals are unique. -/
theorem nodup_journalRows {db : Database} (hbatches : Keyed (·.id) db.batches)
    (hpublications : Keyed PricePublication.id db.publications) :
    (db.journalRows.map JournalRow.key).Nodup := by
  unfold Database.journalRows
  rw [List.map_append, List.map_map, List.map_map]
  refine List.nodup_append.2 ⟨?_, ?_, ?_⟩
  · have hmap := hbatches.map (f := JournalKey.batch) fun _ _ heq => JournalKey.batch.inj heq
    rwa [List.map_map] at hmap
  · have hmap := hpublications.map (f := JournalKey.publication) fun _ _ heq =>
      JournalKey.publication.inj heq
    rwa [List.map_map] at hmap
  · intro a ha b hb
    obtain ⟨row, -, rfl⟩ := List.mem_map.1 ha
    obtain ⟨row', -, rfl⟩ := List.mem_map.1 hb
    rintro ⟨⟩

theorem rowsStep_refl (rows : List JournalRow) : RowsStep rows rows none :=
  .keep (fun _ hrow => hrow) fun _ hrow => .inl hrow

theorem ChargeBatch.SameSigned.journalRow {a b : ChargeBatch} (h : a.SameSigned b) :
    a.journalRow = b.journalRow := by
  unfold ChargeBatch.journalRow
  rw [h.1.id, h.1.identity, h.2.2.1, h.2.2.2.1, h.2.2.2.2]

/-- A charge pass that does not sign keeps the rows. -/
theorem JournalStep.rows (hstep : JournalStep w.db.batches w'.db.batches)
    (hpublications : w'.db.publications = w.db.publications) :
    RowsStep w.db.journalRows w'.db.journalRows none := by
  obtain ⟨g, new, heq, hg, hnew⟩ := hstep
  refine .keep (fun x hx => ?_) fun x hx => ?_
  · obtain ⟨row, hrow, rfl⟩ | hx := mem_journalRows.1 hx
    · refine mem_journalRows.2 (.inl ⟨g row, ?_, (hg row hrow).journalRow⟩)
      rw [heq]
      exact List.mem_append_left _ (List.mem_map_of_mem hrow)
    · exact mem_journalRows.2 (.inr (hpublications ▸ hx))
  · obtain ⟨row, hrow, rfl⟩ | hx := mem_journalRows.1 hx
    · rw [heq] at hrow
      obtain hrow | hrow := List.mem_append.1 hrow
      · obtain ⟨old, hold, rfl⟩ := List.mem_map.1 hrow
        exact .inl (mem_journalRows.2 (.inl ⟨old, hold, (hg old hold).journalRow.symm⟩))
      · obtain ⟨-, hraw, -, hsigner⟩ := hnew row hrow
        exact .inr ⟨hsigner, hraw⟩
    · exact .inl (mem_journalRows.2 (.inr (hpublications ▸ hx)))

/-- Updates of publications that keep their signatures. -/
theorem rowsStep_updatePublications {p : PricePublication → Bool}
    {f : PricePublication → PricePublication} (hf : ∀ row, (f row).journalRow = row.journalRow) :
    RowsStep w.db.journalRows
      (w.db.withPublications (updateWhere p f w.db.publications)).journalRows none := by
  have hmap : (updateWhere p f w.db.publications).map PricePublication.journalRow =
      w.db.publications.map PricePublication.journalRow :=
    map_updateWhere fun row _ _ => hf row
  have hsame : (w.db.withPublications (updateWhere p f w.db.publications)).journalRows =
      w.db.journalRows := congrArg (w.db.batches.map ChargeBatch.journalRow ++ ·) hmap
  rw [hsame]
  exact rowsStep_refl _

/-- A nonce above those of both journals. -/
theorem signature_lt {wallet : Wallet} {nonce : ℕ}
    (hbatches : ∀ other ∈ w.db.batches, other.ofWallet wallet = true →
      ∀ n, other.nonce = some n → n < nonce)
    (hpublications : ∀ other ∈ w.db.publications, other.ofWallet wallet = true →
      ∀ n, other.nonce = some n → n < nonce) :
    ∀ x ∈ w.db.journalRows, ∀ σ, x.signature = some σ → σ.wallet = wallet → σ.nonce < nonce := by
  rintro x hx σ hσ rfl
  obtain ⟨hchain, hsigner, hnonce, -⟩ := JournalRow.signature_eq_some.1 hσ
  obtain ⟨other, hother, rfl⟩ | ⟨other, hother, rfl⟩ := mem_journalRows.1 hx
  · exact hbatches other hother (decide_eq_true ⟨hchain.symm, hsigner⟩) _ hnonce
  · exact hpublications other hother (decide_eq_true ⟨hchain.symm, hsigner⟩) _ hnonce

/-- The rows of one journal after one of them was signed. -/
theorem mem_map_sign {α : Type} {key : α → Id} {f : α → α} {g : α → JournalRow} {rows : List α}
    {row : α} {σ : Signature} (hids : Keyed key rows) (hrow : row ∈ rows)
    (hkey : ∀ other, (g other).key = (g row).key ↔ key other = key row)
    (hsigned : g (f row) = (g row).sign σ) (x : JournalRow) :
    x ∈ (updateWhere (fun other => key other = key row) f rows).map g ↔
      x = (g row).sign σ ∨ x ∈ rows.map g ∧ x.key ≠ (g row).key := by
  rw [List.mem_map, List.mem_map]
  constructor
  · rintro ⟨other, hother, rfl⟩
    obtain rfl | ⟨hold, hne⟩ := (hids.mem_updateWhere_iff hrow).1 hother
    · exact .inl hsigned
    · exact .inr ⟨⟨other, hold, rfl⟩, fun heq => hne ((hkey other).1 heq)⟩
  · rintro (rfl | ⟨⟨other, hold, rfl⟩, hne⟩)
    · exact ⟨_, (hids.mem_updateWhere_iff hrow).2 (.inl rfl), hsigned⟩
    · exact ⟨other, (hids.mem_updateWhere_iff hrow).2 (.inr ⟨hold, fun heq =>
        hne ((hkey other).2 heq)⟩), rfl⟩

/-- The rows after a batch was signed. -/
theorem ChargeSigning.rows {deps : ChargeDependencies} {w₀ : World} {row : ChargeBatch}
    {signer : Address} {nonce head : ℕ} {signed : SignedTransaction}
    (hsign : ChargeSigning deps h w w₀ row signer nonce head) (hids : Keyed (·.id) w.db.batches) :
    RowsStep w.db.journalRows (w.db.mapBatch row.id fun row =>
      row.sign signer nonce signed).journalRows
      (some ⟨⟨deps.identity.chainId, signer⟩, nonce, signed.raw⟩) := by
  have hchain : deps.identity.chainId = row.journalRow.chainId := by rw [← hsign.identity]; rfl
  refine .sign hchain (signature_lt (fun other hother hof => (hsign.batches other hother hof).1)
    fun other hother hof => (hsign.publications other hother hof).1) fun x => ?_
  have hupdated := mem_map_sign (f := fun row => row.sign signer nonce signed)
    (g := ChargeBatch.journalRow) (σ := ⟨⟨deps.identity.chainId, signer⟩, nonce, signed.raw⟩) hids
    hsign.mem (fun _ => ⟨JournalKey.batch.inj, congrArg JournalKey.batch⟩) rfl x
  -- the rows of the other journal have other keys
  have hother : x ∈ w.db.publications.map PricePublication.journalRow →
      x.key ≠ row.journalRow.key := by
    rintro hx heq
    obtain ⟨other, -, rfl⟩ := List.mem_map.1 hx
    cases heq
  rw [Database.journalRows, Database.journalRows, List.mem_append, List.mem_append]
  exact (or_congr_left hupdated).trans (by tauto)

/-- The rows after a publication was signed. -/
theorem PublicationSigning.rows {deps : PricePublicationDependencies} {w₀ : World}
    {row : PricePublication} {signer : Address} {nonce : ℕ} {signed : SignedTransaction}
    (hsign : PublicationSigning deps h w w₀ row signer nonce)
    (hids : Keyed PricePublication.id w.db.publications) :
    RowsStep w.db.journalRows (w.db.mapPublication row.id fun row =>
      row.sign signer nonce signed).journalRows
      (some ⟨⟨deps.identity.chainId, signer⟩, nonce, signed.raw⟩) := by
  have hchain : deps.identity.chainId = row.journalRow.chainId := by rw [← hsign.identity]; rfl
  refine .sign hchain (signature_lt (fun other hother hof => (hsign.batches other hother hof).1)
    fun other hother hof => (hsign.publications other hother hof).1) fun x => ?_
  have hupdated := mem_map_sign (f := fun row => row.sign signer nonce signed)
    (g := PricePublication.journalRow) (σ := ⟨⟨deps.identity.chainId, signer⟩, nonce, signed.raw⟩)
    hids hsign.mem (fun _ => ⟨JournalKey.publication.inj, congrArg JournalKey.publication⟩) rfl x
  have hother : x ∈ w.db.batches.map ChargeBatch.journalRow → x.key ≠ row.journalRow.key := by
    rintro hx heq
    obtain ⟨other, -, rfl⟩ := List.mem_map.1 hx
    cases heq
  rw [Database.journalRows, Database.journalRows, List.mem_append, List.mem_append]
  exact (or_congr_right hupdated).trans (by tauto)

/-- **Every write** of the rows, with what the process knows when it signs. -/
theorem JobWrite.rows {ext : External} {F : Chain.Forest Hash} (hw : Inv F w)
    (hwrite : JobWrite ext j h w w') :
    ∃ o, RowsStep w.db.journalRows w'.db.journalRows o ∧
      ∀ σ, o = some σ → Alone h w σ.wallet j := by
  have hkept : RowsStep w.db.journalRows w'.db.journalRows none →
      ∃ o, RowsStep w.db.journalRows w'.db.journalRows o ∧ ∀ σ, o = some σ → Alone h w σ.wallet j :=
    fun hstep => ⟨none, hstep, by rintro σ ⟨⟩⟩
  have hother : w'.db.batches = w.db.batches → w'.db.publications = w.db.publications →
      ∃ o, RowsStep w.db.journalRows w'.db.journalRows o ∧ ∀ σ, o = some σ → Alone h w σ.wallet j :=
    fun hbatches hpublications => by
      have hsame : w'.db.journalRows = w.db.journalRows := by
        unfold Database.journalRows
        rw [hbatches, hpublications]
      exact hkept (hsame ▸ rowsStep_refl _)
  cases j with
  | charge deps runId cached =>
    obtain hstep | ⟨w₀, row, signer, nonce, head, signed, hsign, rfl⟩ := ChargeWrite.signs hwrite
    · exact hkept (hstep.rows (JobWrite.spares_publications (by simp [Job.slot]) hwrite))
    · refine ⟨_, hsign.rows hw.ledger.batchIds, ?_⟩
      rintro σ ⟨⟩
      refine .charge hsign.locked hsign.read hsign.lockedRead (fun other hother hof => ?_)
        fun other hother hof => (hsign.publications other hother hof).2
      -- only the row itself could be in flight
      rw [Bool.eq_false_iff]
      intro hflight
      obtain rfl := hw.ledger.batchIds.eq hother hsign.mem
        ((hsign.batches other hother hof).2 hflight)
      obtain hs | hs := hsign.unsent <;> rw [hs] at hflight <;> cases hflight
  | publish deps =>
    have hbatches := (JobWrite.spares_charges hw.ledger (by simp [Job.slot]) hwrite).1
    have hupdated : ∀ {p : PricePublication → Bool} {f : PricePublication → PricePublication},
        w'.db = w.db.withPublications (updateWhere p f w.db.publications) →
        (∀ row, (f row).journalRow = row.journalRow) →
        ∃ o, RowsStep w.db.journalRows w'.db.journalRows o ∧
          ∀ σ, o = some σ → Alone h w σ.wallet _ :=
      fun heq hf => hkept (heq ▸ rowsStep_updatePublications hf)
    cases hwrite with
    | sign hsign =>
      refine ⟨_, hsign.rows hw.publicationIds, ?_⟩
      rintro σ ⟨⟩
      refine .publish hsign.locked hsign.read hsign.lockedRead (fun other hother hof => ?_)
        fun other hother hof => (hsign.batches other hother hof).2
      rw [Bool.eq_false_iff]
      intro hflight
      obtain rfl := hw.publicationIds.eq hother hsign.mem
        ((hsign.publications other hother hof).2 hflight)
      rw [hsign.unsent] at hflight
      cases hflight
    | update hf _ =>
      refine hupdated rfl fun row => ?_
      unfold PricePublication.journalRow
      rw [hf.id, hf.identity, hf.signerAddress, hf.nonce, hf.signedTransaction]
    | confirm => exact hupdated rfl fun row => rfl
    | supersede => exact hupdated rfl fun row => rfl
    | insert _ =>
      refine hkept (.keep (fun x hx => ?_) fun x hx => ?_)
      · obtain hx | ⟨row, hrow, rfl⟩ := mem_journalRows.1 hx
        · exact mem_journalRows.2 (.inl hx)
        · exact mem_journalRows.2 (.inr ⟨row, List.mem_append_left _ hrow, rfl⟩)
      · obtain hx | ⟨row, hrow, rfl⟩ := mem_journalRows.1 hx
        · exact .inl (mem_journalRows.2 (.inl hx))
        · obtain hrow | hrow := List.mem_append.1 hrow
          · exact .inl (mem_journalRows.2 (.inr ⟨row, hrow, rfl⟩))
          · rw [List.mem_singleton.1 hrow]
            exact .inr ⟨rfl, rfl⟩
    | _ => exact hother rfl rfl
  | _ =>
    refine hother (JobWrite.spares_charges hw.ledger ?_ hwrite).1
      (JobWrite.spares_publications ?_ hwrite) <;> simp [Job.slot]

end Writes

/-! ### Runs -/

/-- The rows hold signatures that were stored on them by a step so far. -/
structure Signed (ls : List (Label World Reply Failure Job)) (w : World) : Prop where
  complete : Complete w.db.journalRows
  stored : MadeBefore (ls.flatMap persisted) (signaturesOf w.db.journalRows)
  distinct : Distinct Signature.wallet Signature.nonce (signaturesOf w.db.journalRows)

section Runs

variable {O : Outside} {w w' : World} {ls ls' : List (Label World Reply Failure Job)}
  {l : Label World Reply Failure Job} {c c' : MarketConfig} {σ : Signature} {j : Job}
  {began : World} {h : Log}

theorem persisted_silent (hl : l.Silent) : persisted l = [] := by
  cases l with
  | act j began h e => cases e with
    | asked => rfl
    | ran w w' => exact absurd rfl (hl j began h w w')
  | _ => rfl

theorem flatMap_persisted_silent (hl : l.Silent) :
    (ls ++ [l]).flatMap persisted = ls.flatMap persisted := by
  rw [List.flatMap_append, List.flatMap_singleton, persisted_silent hl, List.append_nil]

/-- What a transaction stores. -/
theorem persisted_ran (hw' : Inv O.forest w') {o : Option Signature}
    (hstep : RowsStep w.db.journalRows w'.db.journalRows o) :
    persisted (.act j began h (.ran w w')) = o.toList :=
  freshEntries_of_move (nodup_signaturesOf (nodup_journalRows hw'.ledger.batchIds
    hw'.publicationIds)) hstep.move

theorem flatMap_persisted_ran (hw' : Inv O.forest w') {o : Option Signature}
    (hstep : RowsStep w.db.journalRows w'.db.journalRows o) :
    (ls ++ [Label.act j began h (.ran w w')]).flatMap persisted =
      ls.flatMap persisted ++ o.toList := by
  rw [List.flatMap_append, List.flatMap_singleton, persisted_ran hw' hstep]

theorem journalRows_initial (hw : World.Initial O w) : w.db.journalRows = [] := by
  rw [hw.db]
  rfl

theorem signed_of_run (hw : World.Initial O w) (hrun : (market O).Run (Config.idle w) ls c) :
    Signed ls c.shared := by
  refine (protocol O).traced (L := fun _ => True) (I := fun _ => True) (J := Signed)
    (fun _ _ _ => trivial) ?_ ?_ hw.inv ?_ hrun fun _ _ => trivial
  · intro ls l w w' hl _ hcause hJ
    have hsame := congrArg Database.journalRows (db_of_cause hcause)
    refine ⟨hsame ▸ hJ.complete, ?_, hsame ▸ hJ.distinct⟩
    rw [hsame, flatMap_persisted_silent hl]
    exact hJ.stored
  · intro ls j began h w w' _ _ hinv hinv' _ _ _ hwrite hJ
    obtain ⟨o, hstep, -⟩ := JobWrite.rows hinv hwrite
    refine ⟨hJ.complete.step hstep, ?_, hJ.distinct.step hstep.move⟩
    rw [flatMap_persisted_ran hinv' hstep]
    exact hJ.stored.step hstep.move
  · refine ⟨?_, ?_, ?_⟩ <;> rw [journalRows_initial hw]
    · exact fun row hrow => absurd hrow List.not_mem_nil
    · exact fun e he => absurd he List.not_mem_nil
    · exact fun e he => absurd he List.not_mem_nil

theorem ranked_of_run (hw : World.Initial O w) (hrun : (market O).Run (Config.idle w) ls c)
    (hsigners : ∀ l ∈ ls, KeepsSigners l = true) :
    Ranked Signature.wallet Signature.nonce (ls.flatMap persisted)
      (signaturesOf c.shared.db.journalRows) := by
  refine (protocol O).traced (L := fun l => KeepsSigners l = true) (I := fun _ => True)
    (J := fun ls w => Ranked Signature.wallet Signature.nonce (ls.flatMap persisted)
      (signaturesOf w.db.journalRows)) (fun _ _ _ => trivial) ?_ ?_ hw.inv ranked_nil hrun hsigners
  · intro ls l w w' hl _ hcause hJ
    have hsame := congrArg Database.journalRows (db_of_cause hcause)
    rw [hsame, flatMap_persisted_silent hl]
    exact hJ
  · intro ls j began h w w' hkeeps _ hinv hinv' _ _ _ hwrite hJ
    obtain ⟨o, hstep, -⟩ := JobWrite.rows hinv hwrite
    rw [flatMap_persisted_ran hinv' hstep]
    exact hJ.step (of_decide_eq_true hkeeps) hstep.move

/-- A row holds the bytes that a worker sends. -/
theorem sent_row {chainId : ℕ} {raw : Hash} (hc : Reaches O c) (hstep : (market O).Step c l c')
    (hl : sent l = some (chainId, raw)) : ∃ row ∈ c.shared.db.journalRows,
      row.chainId = chainId ∧ row.signedTransaction = some raw := by
  cases l with
  | act j began h e => cases e with
    | ran => cases hl
    | asked w₁ q a => cases q with
      | sendRawTransaction chainId' raw' =>
        obtain ⟨hasks, rfl, -⟩ := hc.asked hstep
        simp only [sent] at hl
        split_ifs at hl with hslot
        obtain ⟨rfl, rfl⟩ := Prod.mk.inj (Option.some.inj hl)
        cases j with
        | charge deps runId cached =>
          obtain ⟨row, hrow, hraw, -, hidentity, hchain⟩ := hasks
          refine ⟨row.journalRow, mem_journalRows.2 (.inl ⟨row, hrow, rfl⟩), ?_, hraw⟩
          rw [hchain, ← hidentity]
          rfl
        | publish deps =>
          obtain ⟨row, hrow, hraw, hidentity, hchain⟩ := hasks
          refine ⟨row.journalRow, mem_journalRows.2 (.inr ⟨row, hrow, rfl⟩), ?_, hraw⟩
          rw [hchain, ← hidentity]
          rfl
        | _ => simp [Job.slot] at hslot
      | _ => cases hl
  | _ => cases hl

end Runs

/-! ### Two workers with one wallet -/

/-- The answers of the outside world to a publication pass after the sample run: the quote has
risen, and the node has seen one transaction of the wallet. -/
def sharedOracle (w : World) : (q : Query) → Except Failure (Reply q)
  | .latestPreUsdPrice => .ok (some ⟨2, "0.5".toList, 2000000⟩)
  | .transactionCount _ _ _ => .ok (1 : ℕ)
  | .signPublication _ _ _ => .ok ⟨902, 903⟩
  | .sendRawTransaction _ _ => .ok (903 : ℕ)
  | q => publicationOracle w q

/-- An outside world that answers either worker. -/
def sharedOutside : Outside :=
  ⟨sampleExternal, lineForest, fun w q a => a = sampleOracle w q ∨ a = sharedOracle w q⟩

/-- After the sample run, a publication pass signs with the wallet of the charge worker. -/
def sharedRun : List (Move World Reply Failure Job Slot) :=
  sampleRun ++ [.start (.publish publicationDependencies), .act .publication 32 sharedOracle,
    .stop .publication]

theorem shared_isSome :
    ((market sharedOutside).play sharedRun (Config.idle sampleStart)).isSome = true := by
  decide +kernel

/-- What happens in this run. -/
def sharedLabels : List (Label World Reply Failure Job) :=
  (market sharedOutside).labels sharedRun (Config.idle sampleStart)

theorem Environment.shared {w w' : World} (h : Environment sampleOutside w w') :
    Environment sharedOutside w w' := by
  cases h with
  | tick hle => exact .tick hle
  | chain hfollows hconsistent => exact .chain hfollows hconsistent
  | issue hnew hnow => exact .issue hnew (.inl hnow)
  | expire => exact .expire

theorem allows_sharedRun : ∀ m ∈ sharedRun, (market sharedOutside).Allows m := by
  intro m hm
  obtain hm | hm := List.mem_append.1 hm
  · have hallows := allows_sampleRun m hm
    cases m with
    | env f => exact fun w w' hf => (hallows w w' hf).shared
    | act i n oracle => exact fun w q => .inl (hallows w q)
    | _ => trivial
  · simp only [List.mem_cons, List.not_mem_nil, or_false] at hm
    obtain rfl | rfl | rfl := hm
    · trivial
    · exact fun _ _ => .inr rfl
    · trivial

/-- The end of this run. -/
def sharedEnd : MarketConfig :=
  ((market sharedOutside).play sharedRun (Config.idle sampleStart)).get shared_isSome

theorem run_sharedRun :
    (market sharedOutside).Run (Config.idle sampleStart) sharedLabels sharedEnd :=
  Machine.run_labels allows_sharedRun (Option.some_get shared_isSome).symm

theorem sharedStart_initial : World.Initial sharedOutside sampleStart :=
  ⟨rfl, rfl, rfl, fun _ => by rintro _ ⟨⟩⟩

theorem persisted_sharedLabels :
    sharedLabels.flatMap persisted = [⟨⟨1, 5⟩, 0, 900⟩, ⟨⟨1, 5⟩, 1, 902⟩] := by
  decide +kernel

theorem sent_sharedLabels : sharedLabels.filterMap sent = [(1, 900), (1, 902)] := by
  decide +kernel

theorem keepsSigners_sharedLabels : sharedLabels.all KeepsSigners = true := by
  decide +kernel

/-! ### The theorems -/

section

variable {O : Outside} {w : World} {ls ls' : List (Label World Reply Failure Job)}
  {l : Label World Reply Failure Job} {c c' : MarketConfig} {σ : Signature}

/-- **The nonces of a wallet increase** over every run in which a row that is signed again is signed
by the wallet that has signed it before, whatever the node says about nonces: whichever worker
signs, and although a row forgets its last signature.  In any case no two rows of the two journals
ever hold the same nonce of a wallet. -/
theorem signed_in_order (hw : World.Initial O w) (hrun : (market O).Run (Config.idle w) ls c) :
    ((∀ l ∈ ls, KeepsSigners l = true) → (ls.flatMap persisted).Pairwise fun a b =>
      a.wallet = b.wallet → a.nonce < b.nonce) ∧
    ∀ e ∈ signaturesOf c.shared.db.journalRows, ∀ e' ∈ signaturesOf c.shared.db.journalRows,
      e.2.wallet = e'.2.wallet → e.2.nonce = e'.2.nonce → e = e' :=
  ⟨fun hsigners => (ranked_of_run hw hrun hsigners).increasing, (signed_of_run hw hrun).distinct⟩

theorem signed_in_order_sample :
    (sharedLabels.flatMap persisted).map (·.nonce) = [0, 1] ∧
    (sharedLabels.flatMap persisted).Pairwise fun a b => a.wallet = b.wallet → a.nonce < b.nonce :=
  ⟨by rw [persisted_sharedLabels]; rfl, (signed_in_order sharedStart_initial run_sharedRun).1
    (List.all_eq_true.1 keepsSigners_sharedLabels)⟩

/-- **Who signs is alone**: whenever a signature is stored, the process that stores it holds the
lock of the wallet, no row of its own journal is in flight for the wallet, and the rows of the other
journal have kept their nonces since it read them under the lock, when none of them was in flight;
and the nonce is above all those that either journal holds for the wallet. -/
theorem signed_alone (hw : World.Initial O w)
    (hrun : (market O).Run (Config.idle w) (ls ++ l :: ls') c) (hσ : σ ∈ persisted l) :
    ∃ j began h w₁ w₂, l = .act j began h (.ran w₁ w₂) ∧ Alone h w₁ σ.wallet j ∧
      ∀ e ∈ signaturesOf w₁.db.journalRows, e.2.wallet = σ.wallet → e.2.nonce < σ.nonce := by
  obtain ⟨c₁, hrun₁, hrest⟩ := hrun.append
  obtain ⟨c₂, hstep, -⟩ := hrest.cons
  have hsafe : (protocol O).Safe c₁ :=
    (Protocol.safe_idle (P := protocol O) hw.inv).run hrun₁
  cases l with
  | act j began h e => cases e with
    | ran w₁ w₂ =>
      obtain ⟨hwrite, hbefore, -, hrec, -⟩ := hsafe.act hstep
      obtain rfl : w₁ = c₁.shared := hbefore
      have hinv' : Inv O.forest w₂ := (protocol O).inv_guar hrec hwrite hsafe.inv
      obtain ⟨o, hrows, halone⟩ := JobWrite.rows hsafe.inv hwrite
      rw [persisted_ran hinv' hrows, Option.mem_toList] at hσ
      refine ⟨j, began, h, _, w₂, rfl, halone σ hσ, ?_⟩
      have hmove := hrows.move
      rw [hσ] at hmove
      cases hmove with
      | enter hlt _ => exact hlt
    | asked s q a => exact absurd hσ List.not_mem_nil
  | _ => exact absurd hσ List.not_mem_nil

theorem signed_alone_sample : ∃ l ∈ sharedLabels, ⟨⟨1, 5⟩, 1, 902⟩ ∈ persisted l ∧
    ∃ j h w₁, Alone h w₁ ⟨1, 5⟩ j := by
  have hmem : (⟨⟨1, 5⟩, 1, 902⟩ : Signature) ∈ sharedLabels.flatMap persisted := by
    rw [persisted_sharedLabels]
    exact .tail _ (.head _)
  obtain ⟨l, hl, hσ⟩ := List.mem_flatMap.1 hmem
  obtain ⟨before, after, hsplit⟩ := List.append_of_mem hl
  have hrun := run_sharedRun
  rw [hsplit] at hrun
  obtain ⟨j, began, h, w₁, w₂, rfl, halone, -⟩ := signed_alone sharedStart_initial hrun hσ
  exact ⟨_, hl, hσ, j, h, w₁, halone⟩

/-- **What is sent was stored before**: the bytes that either worker hands to the node are those of
a signature that a row holds at that moment, for the same chain, and a step of the run has stored
it. -/
theorem sent_persisted {chainId : ℕ} {raw : Hash} (hw : World.Initial O w)
    (hrun : (market O).Run (Config.idle w) (ls ++ l :: ls') c) (hl : sent l = some (chainId, raw)) :
    ∃ c₁, (market O).Run (Config.idle w) ls c₁ ∧ ∃ e ∈ signaturesOf c₁.shared.db.journalRows,
      e.2.wallet.chainId = chainId ∧ e.2.raw = raw ∧ e.2 ∈ ls.flatMap persisted := by
  obtain ⟨c₁, hrun₁, hrest⟩ := hrun.append
  obtain ⟨c₂, hstep, -⟩ := hrest.cons
  refine ⟨c₁, hrun₁, ?_⟩
  obtain ⟨row, hrow, hchain, hraw⟩ := sent_row ⟨w, ls, hw, hrun₁⟩ hstep hl
  have hsigned := signed_of_run hw hrun₁
  obtain ⟨σ, hσ⟩ := Option.isSome_iff_exists.1 (hsigned.complete row hrow (by rw [hraw]; rfl))
  obtain ⟨hchain', -, -, hraw'⟩ := JournalRow.signature_eq_some.1 hσ
  have hmem : (row.key, σ) ∈ signaturesOf c₁.shared.db.journalRows :=
    mem_signaturesOf.2 ⟨row, hrow, rfl, hσ⟩
  exact ⟨_, hmem, hchain'.trans hchain, Option.some.inj (hraw'.symm.trans hraw),
    hsigned.stored _ hmem⟩

theorem sent_persisted_sample : ∃ ls l ls', sharedLabels = ls ++ l :: ls' ∧
    sent l = some (1, 902) ∧ ∃ σ ∈ ls.flatMap persisted, σ.raw = 902 := by
  have hmem : (1, 902) ∈ sharedLabels.filterMap sent := by
    rw [sent_sharedLabels]
    exact .tail _ (.head _)
  obtain ⟨l, hl, hsent⟩ := List.mem_filterMap.1 hmem
  obtain ⟨before, after, hsplit⟩ := List.append_of_mem hl
  have hrun := run_sharedRun
  rw [hsplit] at hrun
  obtain ⟨-, -, e, -, -, hraw, hpersisted⟩ := sent_persisted sharedStart_initial hrun hsent
  exact ⟨before, l, after, hsplit, hsent, e.2, hpersisted, hraw⟩

end

end Market

end PreCommunity
