import PreCommunity.Market.Keeping

/-!
# What the jobs may assume of each other

Batches, clicks in batches and checkpoints are written by charge passes only, and publications by
publication passes only.  While a job holds the lock of a wallet, the nonces of that wallet in the
other journal stand still.

* `Inv` : the invariant of the world.
* `ChargeRely`, `PublicationRely`, `Relies` : what the others may do while a job runs.
* `JobWrite.relies` : every write respects what the other jobs assume.
-/

namespace PreCommunity

namespace Market

open Store Concurrent

/-- **The invariant** of the world. -/
structure Inv (F : Chain.Forest Hash) (w : World) : Prop where
  ledger : Ledger w.db
  exclusive : ∀ wallet owner owner', w.Locks owner wallet → w.Locks owner' wallet → owner = owner'
  publicationIds : Keyed PricePublication.id w.db.publications
  consistent : ∀ id, F.Consistent (w.chains id)

/-- The two rows have the same signature. -/
def ChargeBatch.SameSignature (a b : ChargeBatch) : Prop :=
  a.txHash = b.txHash ∧ a.signedTransaction = b.signedTransaction ∧ a.nonce = b.nonce ∧
    a.signerAddress = b.signerAddress

/-- The two rows are one batch with one signature. -/
def ChargeBatch.SameSigned (a b : ChargeBatch) : Prop := a.SameDebt b ∧ a.SameSignature b

/-- The two rows are one publication with one signature. -/
structure PricePublication.SameSigned (a b : PricePublication) : Prop where
  id : a.id = b.id
  identity : a.identity = b.identity
  nonce : a.nonce = b.nonce
  signerAddress : a.signerAddress = b.signerAddress

/-- While `owner` holds the lock of a wallet, the rows of that wallet keep their signatures: if it
holds the lock in `w'`, it held it in `w`, and every row of the wallet in `w'` was there in `w`. -/
def LockedSince {α : Type} (table : Database → List α) (ofWallet : Wallet → α → Bool)
    (same : α → α → Prop) (owner : Slot) (wallet : Wallet) (w w' : World) : Prop :=
  w'.Locks owner wallet → w.Locks owner wallet ∧
    ∀ row' ∈ table w'.db, ofWallet wallet row' = true → ∃ row ∈ table w.db, same row' row

/-- The charge journal stands still while `owner` holds the lock. -/
abbrev BatchesLocked : Slot → Wallet → World → World → Prop :=
  LockedSince Database.batches ChargeBatch.ofWallet ChargeBatch.SameSigned

/-- The publication journal stands still while `owner` holds the lock. -/
abbrev PublicationsLocked : Slot → Wallet → World → World → Prop :=
  LockedSince Database.publications PricePublication.ofWallet PricePublication.SameSigned

/-- What the others may do while a charge pass runs. -/
structure ChargeRely (F : Chain.Forest Hash) (w w' : World) : Prop where
  grows : Grows F w w'
  batches : w'.db.batches = w.db.batches
  placed : w'.db.clicks.filter (·.batchId.isSome) = w.db.clicks.filter (·.batchId.isSome)
  checkpoint : ∀ identity, w'.db.checkpoint identity = w.db.checkpoint identity
  locked : ∀ wallet, PublicationsLocked .charge wallet w w'

/-- What the others may do while a publication pass runs. -/
structure PublicationRely (F : Chain.Forest Hash) (w w' : World) : Prop where
  grows : Grows F w w'
  publications : w'.db.publications = w.db.publications
  locked : ∀ wallet, BatchesLocked .publication wallet w w'

/-- What the others may do while a job runs. -/
def Relies (F : Chain.Forest Hash) : Job → World → World → Prop
  | .charge .. => ChargeRely F
  | .publish .. => PublicationRely F
  | _ => Grows F

section Order

variable {F : Chain.Forest Hash} {w w' w'' : World}

theorem ChargeBatch.SameSigned.refl (b : ChargeBatch) : b.SameSigned b :=
  ⟨.refl b, rfl, rfl, rfl, rfl⟩

theorem ChargeBatch.SameSigned.trans {a b c : ChargeBatch} (h : a.SameSigned b)
    (h' : b.SameSigned c) : a.SameSigned c :=
  ⟨h.1.trans h'.1, h.2.1.trans h'.2.1, h.2.2.1.trans h'.2.2.1, h.2.2.2.1.trans h'.2.2.2.1,
    h.2.2.2.2.trans h'.2.2.2.2⟩

theorem ChargeBatch.SameSigned.ofWallet {a b : ChargeBatch} (h : a.SameSigned b)
    (wallet : Wallet) : a.ofWallet wallet = b.ofWallet wallet := by
  simp [ChargeBatch.ofWallet, h.1.identity, h.2.2.2.2]

theorem PricePublication.SameSigned.refl (a : PricePublication) : a.SameSigned a :=
  ⟨rfl, rfl, rfl, rfl⟩

theorem PricePublication.SameSigned.trans {a b c : PricePublication} (h : a.SameSigned b)
    (h' : b.SameSigned c) : a.SameSigned c :=
  ⟨h.id.trans h'.id, h.identity.trans h'.identity, h.nonce.trans h'.nonce,
    h.signerAddress.trans h'.signerAddress⟩

theorem PricePublication.SameSigned.ofWallet {a b : PricePublication} (h : a.SameSigned b)
    (wallet : Wallet) : a.ofWallet wallet = b.ofWallet wallet := by
  simp [PricePublication.ofWallet, h.identity, h.signerAddress]

section Locked

variable {α : Type} {table : Database → List α} {ofWallet : Wallet → α → Bool}
  {same : α → α → Prop} {owner : Slot} {wallet : Wallet}

theorem LockedSince.refl (hrefl : ∀ a, same a a) (w : World) :
    LockedSince table ofWallet same owner wallet w w :=
  fun h => ⟨h, fun row hrow _ => ⟨row, hrow, hrefl row⟩⟩

theorem LockedSince.trans (htrans : ∀ {a b c}, same a b → same b c → same a c)
    (hwallet : ∀ {a b}, same a b → ofWallet wallet a = ofWallet wallet b)
    (h : LockedSince table ofWallet same owner wallet w w')
    (h' : LockedSince table ofWallet same owner wallet w' w'') :
    LockedSince table ofWallet same owner wallet w w'' := by
  intro hlock''
  obtain ⟨hlock', hrows'⟩ := h' hlock''
  obtain ⟨hlock, hrows⟩ := h hlock'
  refine ⟨hlock, fun row'' hrow'' hof => ?_⟩
  obtain ⟨row', hrow', hs'⟩ := hrows' row'' hrow'' hof
  obtain ⟨row, hrow, hs⟩ := hrows row' hrow' (hwallet hs' ▸ hof)
  exact ⟨row, hrow, htrans hs' hs⟩

end Locked

theorem PublicationsLocked.trans {owner : Slot} {wallet : Wallet}
    (h : PublicationsLocked owner wallet w w') (h' : PublicationsLocked owner wallet w' w'') :
    PublicationsLocked owner wallet w w'' :=
  LockedSince.trans .trans (fun hs => hs.ofWallet wallet) h h'

theorem BatchesLocked.trans {owner : Slot} {wallet : Wallet}
    (h : BatchesLocked owner wallet w w') (h' : BatchesLocked owner wallet w' w'') :
    BatchesLocked owner wallet w w'' :=
  LockedSince.trans .trans (fun hs => hs.ofWallet wallet) h h'

theorem ChargeRely.refl (w : World) : ChargeRely F w w :=
  ⟨.refl w, rfl, rfl, fun _ => rfl, fun _ => LockedSince.refl .refl w⟩

theorem ChargeRely.trans (h : ChargeRely F w w') (h' : ChargeRely F w' w'') :
    ChargeRely F w w'' where
  grows := h.grows.trans h'.grows
  batches := h'.batches.trans h.batches
  placed := h'.placed.trans h.placed
  checkpoint identity := (h'.checkpoint identity).trans (h.checkpoint identity)
  locked wallet := (h.locked wallet).trans (h'.locked wallet)

theorem PublicationRely.refl (w : World) : PublicationRely F w w :=
  ⟨.refl w, rfl, fun _ => LockedSince.refl .refl w⟩

theorem PublicationRely.trans (h : PublicationRely F w w') (h' : PublicationRely F w' w'') :
    PublicationRely F w w'' where
  grows := h.grows.trans h'.grows
  publications := h'.publications.trans h.publications
  locked wallet := (h.locked wallet).trans (h'.locked wallet)

theorem Relies.refl (j : Job) (w : World) : Relies F j w w := by
  cases j
  · exact ChargeRely.refl w
  · exact PublicationRely.refl w
  all_goals exact Grows.refl w

theorem Relies.trans {j : Job} (h : Relies F j w w') (h' : Relies F j w' w'') :
    Relies F j w w'' := by
  cases j
  · exact ChargeRely.trans h h'
  · exact PublicationRely.trans h h'
  all_goals exact Grows.trans h h'

/-- What the others do when they leave the journals alone. -/
theorem Relies.of_eq {j : Job} (hgrows : Grows F w w') (hdb : w'.db = w.db)
    (hlocks : ∀ wallet, w'.Locks j.slot wallet → w.Locks j.slot wallet) : Relies F j w w' := by
  cases j
  · exact ⟨hgrows, by rw [hdb], by rw [hdb], fun _ => by rw [hdb], fun wallet h =>
      ⟨hlocks wallet h, fun row hrow _ => ⟨row, hdb ▸ hrow, .refl row⟩⟩⟩
  · exact ⟨hgrows, by rw [hdb], fun wallet h =>
      ⟨hlocks wallet h, fun row hrow _ => ⟨row, hdb ▸ hrow, .refl row⟩⟩⟩
  all_goals exact hgrows

end Order

/-! ### Locks -/

section Locks

variable {w w' : World} {h : Log}

theorem World.locks_release {owner owner' : Slot} {wallet : Wallet} :
    (w.release owner).Locks owner' wallet ↔ w.Locks owner' wallet ∧ owner' ≠ owner := by
  simp [World.Locks, World.release]

/-- What one write does to the locks: it takes none, or its own. -/
theorem JobWrite.locks {ext : External} {j : Job} (hwrite : JobWrite ext j h w w') :
    (∀ owner wallet, w'.Locks owner wallet → w.Locks owner wallet) ∨
      ∃ wallet, w' = w.lock j.slot wallet ∧ ∀ l ∈ w.walletLocks, l.1 = wallet → l.2 = j.slot := by
  cases j with
  | charge deps runId cached =>
    cases hwrite with
    | lock hfree => exact .inr ⟨_, rfl, hfree⟩
    | release => exact .inl fun _ _ hl => (World.locks_release.1 hl).1
    | sign => exact .inl fun _ _ hl => (World.locks_release.1 hl).1
    | _ => exact .inl fun _ _ hl => hl
  | publish deps =>
    cases hwrite with
    | lock hfree => exact .inr ⟨_, rfl, hfree⟩
    | release => exact .inl fun _ _ hl => (World.locks_release.1 hl).1
    | sign => exact .inl fun _ _ hl => (World.locks_release.1 hl).1
    | _ => exact .inl fun _ _ hl => hl
  | index n config => cases hwrite <;> exact .inl fun _ _ hl => hl
  | click n request => cases hwrite <;> exact .inl fun _ _ hl => hl
  | retain n => cases hwrite <;> exact .inl fun _ _ hl => hl
  | updateSettings n identity input => cases hwrite <;> exact .inl fun _ _ hl => hl
  | requestRun n identity => cases hwrite <;> exact .inl fun _ _ hl => hl

end Locks

/-! ### Signatures -/

section Signatures

variable {w w' : World} {h : Log}

/-- What a write does to the batches when it signs none. -/
def JournalStep (old new : List ChargeBatch) : Prop :=
  ∃ (g : ChargeBatch → ChargeBatch) (fresh : List ChargeBatch), new = old.map g ++ fresh ∧
    (∀ b ∈ old, (g b).SameSigned b) ∧ ∀ b ∈ fresh, b.Unsigned

theorem JournalStep.refl (batches : List ChargeBatch) : JournalStep batches batches :=
  ⟨id, [], by simp, fun b _ => .refl b, by simp⟩

theorem JournalStep.update {batches : List ChargeBatch} {p : ChargeBatch → Bool}
    {f : ChargeBatch → ChargeBatch} (h : ∀ b : ChargeBatch, (f b).SameSigned b) :
    JournalStep batches (updateWhere p f batches) := by
  refine ⟨fun b => if p b then f b else b, [], by simp [updateWhere], fun b _ => ?_, by simp⟩
  beta_reduce
  split_ifs
  · exact h b
  · exact .refl b

/-- A row of the new journal is an old one, or it has no signature. -/
theorem JournalStep.mem {old new : List ChargeBatch} (h : JournalStep old new) {b' : ChargeBatch}
    (hb' : b' ∈ new) : (∃ b ∈ old, b'.SameSigned b) ∨ b'.Unsigned := by
  obtain ⟨g, fresh, rfl, hg, hfresh⟩ := h
  obtain hb' | hb' := List.mem_append.1 hb'
  · obtain ⟨b, hb, rfl⟩ := List.mem_map.1 hb'
    exact .inl ⟨b, hb, hg b hb⟩
  · exact .inr (hfresh b' hb')

/-- **A charge pass signs, or it keeps every signature.** -/
theorem ChargeWrite.signs {ext : External} {deps : ChargeDependencies}
    (hwrite : ChargeWrite ext deps h w w') : JournalStep w.db.batches w'.db.batches ∨
      ∃ w₀ row signer nonce head signed, ChargeSigning deps h w w₀ row signer nonce head ∧
        w' = (w.withDb (w.db.mapBatch row.id fun row =>
          row.sign signer nonce signed)).release .charge := by
  cases hwrite with
  | sign hsign => exact .inr ⟨_, _, _, _, _, _, hsign, rfl⟩
  | reserve _ htx =>
    obtain ⟨db₁, f, hres, -, rfl⟩ := reserveRunTx_ok htx
    obtain ⟨-, ⟨new, hnew, hfresh⟩, -⟩ := hres.reserved
    refine .inl ⟨_, new, hnew, fun b _ => ?_, fun b hb => (hfresh b hb).unsigned⟩
    beta_reduce
    split_ifs
    · exact ⟨⟨rfl, rfl, rfl, rfl, rfl, rfl, rfl, rfl, rfl⟩, rfl, rfl, rfl, rfl⟩
    · exact .refl b
  | upsertSettings =>
    rw [World.withDb_db, upsertSettings_batches]
    exact .inl (.refl _)
  | settle =>
    exact .inl (.update fun _ =>
      ⟨⟨rfl, rfl, rfl, rfl, rfl, rfl, rfl, rfl, rfl⟩, rfl, rfl, rfl, rfl⟩)
  | close =>
    exact .inl (.update fun _ =>
      ⟨⟨rfl, rfl, rfl, rfl, rfl, rfl, rfl, rfl, rfl⟩, rfl, rfl, rfl, rfl⟩)
  | reset =>
    exact .inl (.update fun _ =>
      ⟨⟨rfl, rfl, rfl, rfl, rfl, rfl, rfl, rfl, rfl⟩, rfl, rfl, rfl, rfl⟩)
  | mark =>
    exact .inl (.update fun _ =>
      ⟨⟨rfl, rfl, rfl, rfl, rfl, rfl, rfl, rfl, rfl⟩, rfl, rfl, rfl, rfl⟩)
  | fail =>
    exact .inl (.update fun _ =>
      ⟨⟨rfl, rfl, rfl, rfl, rfl, rfl, rfl, rfl, rfl⟩, rfl, rfl, rfl, rfl⟩)
  | note =>
    exact .inl (.update fun _ =>
      ⟨⟨rfl, rfl, rfl, rfl, rfl, rfl, rfl, rfl, rfl⟩, rfl, rfl, rfl, rfl⟩)
  | _ => exact .inl (.refl _)

/-- What a write does to the publications when it signs none. -/
theorem PublicationWrite.signs {deps : PricePublicationDependencies}
    (hwrite : PublicationWrite deps h w w') :
    (∀ row' ∈ w'.db.publications, (∃ row ∈ w.db.publications, row'.SameSigned row) ∨
      row'.signerAddress = none) ∨
    ∃ w₀ row signer nonce signed, PublicationSigning deps h w w₀ row signer nonce ∧
      w' = (w.withDb (w.db.mapPublication row.id fun row =>
        row.sign signer nonce signed)).release .publication := by
  have hrefl : ∀ row' ∈ w.db.publications, (∃ row ∈ w.db.publications, row'.SameSigned row) ∨
      row'.signerAddress = none := fun row' hrow' => .inl ⟨row', hrow', .refl row'⟩
  have hupdate : ∀ (p : PricePublication → Bool) (f : PricePublication → PricePublication),
      (∀ row : PricePublication, (f row).SameSigned row) →
      ∀ row' ∈ updateWhere p f w.db.publications,
        (∃ row ∈ w.db.publications, row'.SameSigned row) ∨ row'.signerAddress = none := by
    intro p f hf row' hrow'
    obtain ⟨hold, -⟩ | ⟨row, hrow, -, rfl⟩ := mem_updateWhere_cases hrow'
    · exact hrefl row' hold
    · exact .inl ⟨row, hrow, hf row⟩
  cases hwrite with
  | sign hsign => exact .inr ⟨_, _, _, _, _, hsign, rfl⟩
  | update hf _ =>
    exact .inl (hupdate _ _ fun row =>
      ⟨hf.id row, hf.identity row, hf.nonce row, hf.signerAddress row⟩)
  | confirm => exact .inl (hupdate _ _ fun row => ⟨rfl, rfl, rfl, rfl⟩)
  | supersede => exact .inl (hupdate _ _ fun row => ⟨rfl, rfl, rfl, rfl⟩)
  | insert _ =>
    refine .inl fun row' hrow' => ?_
    obtain hold | hnew := List.mem_append.1 hrow'
    · exact hrefl row' hold
    · rw [List.mem_singleton.1 hnew]
      exact .inr rfl
  | _ => exact .inl hrefl

/-! ### What every write leaves to the others -/

theorem checkpoint_upsertSettings (db : Database) (identity identity' : Identity) :
    (db.upsertSettings identity).checkpoint identity' = db.checkpoint identity' := by
  unfold Database.upsertSettings
  split_ifs with hany
  · rfl
  · unfold Database.checkpoint
    rw [withSettings_settings, List.find?_append]
    cases hfind : db.settings.find? fun row => row.identity = identity' with
    | some row => rfl
    | none =>
      by_cases hid : identity = identity' <;> simp [hid, ChargeSettings.create]

theorem checkpoint_mapSettings (db : Database) (identity identity' : Identity)
    {f : ChargeSettings → ChargeSettings} (hid : ∀ row, (f row).identity = row.identity)
    (hblock : ∀ row, (f row).reconciliationBlockNumber = row.reconciliationBlockNumber)
    (hhash : ∀ row, (f row).reconciliationBlockHash = row.reconciliationBlockHash) :
    (db.mapSettings identity f).checkpoint identity' = db.checkpoint identity' := by
  unfold Database.checkpoint Database.mapSettings
  rw [withSettings_settings]
  unfold updateWhere
  rw [List.find?_map]
  have hfind : db.settings.find? ((fun row => decide (row.identity = identity')) ∘
      fun row => if decide (row.identity = identity) = true then f row else row) =
      db.settings.find? fun row => decide (row.identity = identity') := by
    congr 1
    funext row
    simp only [Function.comp]
    split_ifs
    · rw [hid]
    · rfl
  rw [hfind]
  cases db.settings.find? fun row => decide (row.identity = identity') with
  | none => rfl
  | some row =>
    simp only [Option.map_some, Option.bind_some]
    split_ifs
    · rw [hblock, hhash]
    · rfl

/-- A bulk update of clicks outside batches leaves the others alone. -/
theorem filter_updateClicks {clicks : List BillingClick} {p : BillingClick → Bool}
    {f : BillingClick → BillingClick} (hfree : ∀ c ∈ clicks, p c = true → c.batchId = none)
    (hf : ∀ c, (f c).batchId = c.batchId) :
    (updateWhere p f clicks).filter (·.batchId.isSome) = clicks.filter (·.batchId.isSome) := by
  have hmap : ((updateWhere p f clicks).filter (·.batchId.isSome)).map id =
      (clicks.filter (·.batchId.isSome)).map id :=
    filter_updateWhere_map (fun c _ _ => by simp [hf c])
      fun c hc hp hq => by simp [hfree c hc hp] at hq
  simpa using hmap

theorem AdminWrite.spares_charges {identity : Identity} (hwrite : AdminWrite identity w w') :
    w'.db.batches = w.db.batches ∧
      w'.db.clicks.filter (·.batchId.isSome) = w.db.clicks.filter (·.batchId.isSome) ∧
      ∀ identity', w'.db.checkpoint identity' = w.db.checkpoint identity' := by
  have hbatches := upsertSettings_batches w.db identity
  have hclicks := upsertSettings_clicks w.db identity
  have hcheckpoint := checkpoint_upsertSettings w.db identity
  cases hwrite with
  | idle => exact ⟨rfl, rfl, fun _ => rfl⟩
  | settings =>
    refine ⟨hbatches, congrArg _ hclicks, fun identity' => ?_⟩
    rw [World.withDb_db, checkpoint_mapSettings, hcheckpoint] <;> exact fun _ => rfl
  | upsert => exact ⟨hbatches, congrArg _ hclicks, hcheckpoint⟩
  | request => exact ⟨hbatches, congrArg _ hclicks, hcheckpoint⟩
  | queueUnavailable => exact ⟨rfl, rfl, fun _ => rfl⟩

/-- **What only charge passes write.** -/
theorem JobWrite.spares_charges {ext : External} {k : Job} (hw : Ledger w.db)
    (hslot : k.slot ≠ .charge) (hwrite : JobWrite ext k h w w') :
    w'.db.batches = w.db.batches ∧
      w'.db.clicks.filter (·.batchId.isSome) = w.db.clicks.filter (·.batchId.isSome) ∧
      ∀ identity, w'.db.checkpoint identity = w.db.checkpoint identity := by
  have hcapturing : ∀ id, ∀ c ∈ w.db.clicks, c.isCapturing id = true → c.batchId = none :=
    fun id c hc hp => ((hw.click c hc).capturing (isCapturing_cases hp).2).2.2
  cases k with
  | charge => exact absurd rfl hslot
  | publish deps => cases hwrite <;> exact ⟨rfl, rfl, fun _ => rfl⟩
  | index n config =>
    cases hwrite with
    | idle => exact ⟨rfl, rfl, fun _ => rfl⟩
    | reset => exact ⟨rfl, rfl, fun _ => rfl⟩
    | chunk =>
      obtain ⟨_, _, _, heq⟩ := commitChunk_tables w.db config.identity (sortLogs _ _) _ _ _
      rw [heq]
      exact ⟨rfl, rfl, fun _ => rfl⟩
    | refresh =>
      obtain ⟨_, _, _, heq⟩ := commitChunk_tables w.db config.identity [] _ _ _
      rw [heq]
      exact ⟨rfl, rfl, fun _ => rfl⟩
  | click n request =>
    cases hwrite with
    | idle => exact ⟨rfl, rfl, fun _ => rfl⟩
    | claim =>
      refine ⟨rfl, ?_, fun _ => rfl⟩
      simp [BillingClick.claim]
    | close => exact ⟨rfl, filter_updateClicks (hcapturing _) fun _ => rfl, fun _ => rfl⟩
    | settle => exact ⟨rfl, filter_updateClicks (hcapturing _) fun _ => rfl, fun _ => rfl⟩
    | finalize => exact ⟨rfl, filter_updateClicks (hcapturing _) fun _ => rfl, fun _ => rfl⟩
  | retain n =>
    cases hwrite with
    | idle => exact ⟨rfl, rfl, fun _ => rfl⟩
    | retain =>
      refine ⟨rfl, ?_, fun _ => rfl⟩
      simp only [World.withDb_db, Database.retain]
      rw [List.filter_filter]
      refine List.filter_congr fun c hc => ?_
      cases hb : c.batchId.isSome
      · rfl
      · have := ((hw.click c hc).persists hb).2
        simp [this]
  | updateSettings n identity input => exact AdminWrite.spares_charges hwrite
  | requestRun n identity => exact AdminWrite.spares_charges hwrite

/-- What only publication passes write. -/
theorem JobWrite.spares_publications {ext : External} {k : Job} (hslot : k.slot ≠ .publication)
    (hwrite : JobWrite ext k h w w') : w'.db.publications = w.db.publications := by
  have hadmin : ∀ identity, AdminWrite identity w w' →
      w'.db.publications = w.db.publications := by
    intro identity hwrite
    have hupsert : (w.db.upsertSettings identity).publications = w.db.publications := by
      unfold Database.upsertSettings
      split_ifs <;> rfl
    cases hwrite with
    | settings => exact hupsert
    | upsert => exact hupsert
    | request => exact hupsert
    | _ => rfl
  cases k with
  | charge deps runId cached =>
    cases hwrite with
    | reserve _ htx =>
      obtain ⟨db₁, f, hres, -, rfl⟩ := reserveRunTx_ok htx
      obtain ⟨htables, -, -⟩ := hres.reserved
      change db₁.publications = _
      rw [htables]
      rfl
    | upsertSettings =>
      rw [World.withDb_db]
      unfold Database.upsertSettings
      split_ifs <;> rfl
    | _ => rfl
  | publish => exact absurd rfl hslot
  | index n config =>
    cases hwrite with
    | chunk =>
      obtain ⟨_, _, _, heq⟩ := commitChunk_tables w.db config.identity (sortLogs _ _) _ _ _
      rw [heq]
      rfl
    | refresh =>
      obtain ⟨_, _, _, heq⟩ := commitChunk_tables w.db config.identity [] _ _ _
      rw [heq]
      rfl
    | _ => rfl
  | click n request => cases hwrite <;> rfl
  | retain n => cases hwrite <;> rfl
  | updateSettings n identity input => exact hadmin identity hwrite
  | requestRun n identity => exact hadmin identity hwrite

theorem JobWrite.publicationIds {ext : External} {k : Job}
    (hw : Keyed PricePublication.id w.db.publications) (hwrite : JobWrite ext k h w w') :
    Keyed PricePublication.id w'.db.publications := by
  by_cases hslot : k.slot = .publication
  · cases k with
    | publish deps =>
      cases hwrite with
      | update hf _ => exact hw.updateWhere hf.id
      | confirm => exact hw.updateWhere fun _ => rfl
      | supersede => exact hw.updateWhere fun _ => rfl
      | insert hid => exact hw.append_one hid
      | sign => exact hw.updateWhere fun _ => rfl
      | _ => exact hw
    | _ => simp [Job.slot] at hslot
  · rw [hwrite.spares_publications hslot]
    exact hw

/-- **Every write keeps the invariant.** -/
theorem JobWrite.inv {ext : External} {j : Job} {F : Chain.Forest Hash} (hw : Inv F w)
    (hreads : ∀ w₁, ReadIn h w₁ → Grows F w₁ w) (hwrite : JobWrite ext j h w w') : Inv F w' := by
  have hkeeps := hwrite.keeps hw.ledger hreads
  refine ⟨hkeeps.ledger, fun wallet owner owner' hl hl' => ?_,
    hwrite.publicationIds hw.publicationIds, fun id => hkeeps.step.chains ▸ hw.consistent id⟩
  obtain hlocks | ⟨wallet', rfl, hfree⟩ := hwrite.locks
  · exact hw.exclusive wallet owner owner' (hlocks _ _ hl) (hlocks _ _ hl')
  · have hcase : ∀ o, (w.lock j.slot wallet').Locks o wallet →
        (wallet = wallet' ∧ o = j.slot) ∨ w.Locks o wallet := by
      intro o ho
      simpa [World.Locks, World.lock, Prod.ext_iff] using ho
    obtain ⟨rfl, rfl⟩ | hold := hcase owner hl
    · obtain ⟨-, rfl⟩ | hold' := hcase owner' hl'
      · rfl
      · exact (hfree (wallet, owner') hold' rfl).symm
    · obtain ⟨rfl, rfl⟩ | hold' := hcase owner' hl'
      · exact hfree (wallet, owner) hold rfl
      · exact hw.exclusive wallet owner owner' hold hold'

/-- A lock that another job holds was held before the write. -/
theorem JobWrite.locks_other {ext : External} {j k : Job} (hslot : j.slot ≠ k.slot)
    (hwrite : JobWrite ext k h w w') {wallet : Wallet} (hl : w'.Locks j.slot wallet) :
    w.Locks j.slot wallet := by
  obtain hlocks | ⟨wallet', rfl, -⟩ := hwrite.locks
  · exact hlocks _ _ hl
  · simpa [World.Locks, World.lock, hslot] using hl

/-- **Every write respects what the other jobs assume.** -/
theorem JobWrite.relies {ext : External} {j k : Job} {F : Chain.Forest Hash} (hw : Inv F w)
    (hreads : ∀ w₁, ReadIn h w₁ → Grows F w₁ w) (hslot : j.slot ≠ k.slot)
    (hwrite : JobWrite ext k h w w') : Relies F j w w' := by
  have hkeeps := hwrite.keeps hw.ledger hreads
  have hgrows : Grows F w w' := .of_step hkeeps.step
  cases j with
  | charge deps runId cached =>
    obtain ⟨hbatches, hplaced, hcheckpoint⟩ := hwrite.spares_charges hw.ledger hslot.symm
    refine ⟨hgrows, hbatches, hplaced, hcheckpoint, fun wallet hl => ?_⟩
    have hold := JobWrite.locks_other (j := .charge deps runId cached) hslot hwrite hl
    refine ⟨hold, fun row' hrow' hof => ?_⟩
    cases k with
    | publish deps' =>
      obtain hrows | ⟨w₀, row, signer, nonce, signed, hsign, rfl⟩ := PublicationWrite.signs hwrite
      · obtain hrow | hnone := hrows row' hrow'
        · exact hrow
        · simp [PricePublication.ofWallet, hnone] at hof
      · -- the other journal signs for a wallet that it has locked itself
        obtain ⟨hrow', -⟩ | ⟨x, hx, hp, rfl⟩ := mem_updateWhere_cases hrow'
        · exact ⟨row', hrow', .refl row'⟩
        · obtain rfl := hw.publicationIds.eq hx hsign.mem (by simpa using hp)
          have hwallet : wallet = ⟨deps'.identity.chainId, signer⟩ := by
            simp only [PricePublication.ofWallet, PricePublication.sign, decide_eq_true_eq,
              Option.some.injEq] at hof
            rw [← hsign.identity, hof.1, hof.2]
          subst hwallet
          exact absurd (hw.exclusive _ _ _ hold hsign.locked) (by simp [Job.slot])
    | _ => exact ⟨row', hwrite.spares_publications (by simp [Job.slot]) ▸ hrow', .refl row'⟩
  | publish deps =>
    refine ⟨hgrows, hwrite.spares_publications hslot.symm, fun wallet hl => ?_⟩
    have hold := JobWrite.locks_other (j := .publish deps) hslot hwrite hl
    refine ⟨hold, fun row' hrow' hof => ?_⟩
    cases k with
    | charge deps' runId cached =>
      obtain hstep | ⟨w₀, row, signer, nonce, head, signed, hsign, rfl⟩ := ChargeWrite.signs hwrite
      · obtain hrow | hnone := hstep.mem hrow'
        · exact hrow
        · simp [ChargeBatch.ofWallet, hnone.2.2.2] at hof
      · obtain ⟨hrow', -⟩ | ⟨x, hx, hp, rfl⟩ := mem_updateWhere_cases hrow'
        · exact ⟨row', hrow', .refl row'⟩
        · obtain rfl := hw.ledger.batchIds.eq hx hsign.mem (by simpa using hp)
          have hwallet : wallet = ⟨deps'.identity.chainId, signer⟩ := by
            simp only [ChargeBatch.ofWallet, ChargeBatch.sign, decide_eq_true_eq,
              Option.some.injEq] at hof
            rw [← hsign.identity, hof.1, hof.2]
          subst hwallet
          exact absurd (hw.exclusive _ _ _ hold hsign.locked) (by simp [Job.slot])
    | _ =>
      exact ⟨row', (hwrite.spares_charges hw.ledger (by simp [Job.slot])).1 ▸ hrow', .refl row'⟩
  | _ => exact hgrows

end Signatures

end Market

end PreCommunity
