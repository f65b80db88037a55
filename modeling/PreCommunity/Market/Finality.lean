import PreCommunity.Concurrent.Promises
import PreCommunity.Market.Checkpoint
import PreCommunity.Market.Reopening
import PreCommunity.Market.Switch

/-!
# What rests on final blocks

A published price is confirmed by one kind of write only, and that write has proof.  Whatever else
happens to the row afterwards, as long as it is confirmed it keeps its transaction, its price and
the receipt that confirmed it.  A charge is signed only for clicks whose evidence was taken from
final blocks.

* `Confirms` : the step that has confirmed a row.
* `PublicationWrite.confirmed` : what a write may do to a confirmed row.
* `confirmed_proved` : in every reachable state, every confirmed row was confirmed with proof.
* `Reaches.signs` : who persists a signature of a batch.
* `signed_evidence` : the blocks of the evidence that a charge is signed for.
-/

namespace PreCommunity

namespace Market

open Store Concurrent

/-! ### Confirmed prices -/

/-- The rows have one price, one transaction and one receipt. -/
structure PricePublication.SameReceipt (a b : PricePublication) : Prop where
  id : a.id = b.id
  identity : a.identity = b.identity
  priceE18Raw : a.priceE18Raw = b.priceE18Raw
  quotedAt : a.quotedAt = b.quotedAt
  txHash : a.txHash = b.txHash
  receiptBlockNumber : a.receiptBlockNumber = b.receiptBlockNumber
  receiptBlockHash : a.receiptBlockHash = b.receiptBlockHash

/-- The row is `old` with the receipt that `old` was confirmed with. -/
structure PricePublication.ConfirmedAs (row old : PricePublication)
    (receipt : PricePublicationReceipt) : Prop where
  id : row.id = old.id
  identity : row.identity = old.identity
  priceE18Raw : row.priceE18Raw = old.priceE18Raw
  quotedAt : row.quotedAt = old.quotedAt
  txHash : row.txHash = old.txHash
  receiptBlockNumber : row.receiptBlockNumber = some receipt.blockNumber
  receiptBlockHash : row.receiptBlockHash = some receipt.blockHash

/-- The step has confirmed `row`: it is a transaction of a publication pass that had proof that the
transaction of the row is final on the chain, with the price of the row.  After it the row is
confirmed with the receipt that it has now. -/
def Confirms (l : Label World Reply Failure Job) (row : PricePublication) : Prop :=
  ∃ deps began h w w' old settled receipt, l = .act (.publish deps) began h (.ran w w') ∧
    old ∈ w.db.publications ∧ old.identity = deps.identity ∧ PublicationProof deps h old receipt ∧
      settled ∈ w'.db.publications ∧ settled.status = .confirmed ∧
        settled.ConfirmedAs old receipt ∧ row.SameReceipt settled

section

variable {w w' : World} {h : Log} {deps : PricePublicationDependencies}
  {row row' : PricePublication}

theorem PricePublication.SameReceipt.refl (row : PricePublication) : row.SameReceipt row :=
  ⟨rfl, rfl, rfl, rfl, rfl, rfl, rfl⟩

theorem PricePublication.SameReceipt.trans {a b c : PricePublication} (h : a.SameReceipt b)
    (h' : b.SameReceipt c) : a.SameReceipt c where
  id := h.id.trans h'.id
  identity := h.identity.trans h'.identity
  priceE18Raw := h.priceE18Raw.trans h'.priceE18Raw
  quotedAt := h.quotedAt.trans h'.quotedAt
  txHash := h.txHash.trans h'.txHash
  receiptBlockNumber := h.receiptBlockNumber.trans h'.receiptBlockNumber
  receiptBlockHash := h.receiptBlockHash.trans h'.receiptBlockHash

theorem Confirms.same {l : Label World Reply Failure Job} (h : Confirms l row)
    (hsame : row'.SameReceipt row) : Confirms l row' := by
  obtain ⟨deps, began, h, w, w', old, settled, receipt, hl, hold, hidentity, hproof, hsettled,
    hstatus, hconfirmed, hsame'⟩ := h
  exact ⟨deps, began, h, w, w', old, settled, receipt, hl, hold, hidentity, hproof, hsettled,
    hstatus, hconfirmed, hsame.trans hsame'⟩

/-- **A confirmed row** was confirmed before, with the same receipt, or this write confirms it. -/
theorem PublicationWrite.confirmed (hwrite : PublicationWrite deps h w w')
    (hids : Keyed PricePublication.id w.db.publications) (hrow' : row' ∈ w'.db.publications)
    (hconfirmed : row'.status = .confirmed) :
    (∃ row ∈ w.db.publications, row.status = .confirmed ∧ row'.SameReceipt row) ∨
      ∃ old ∈ w.db.publications, ∃ receipt, old.identity = deps.identity ∧
        PublicationProof deps h old receipt ∧ row'.ConfirmedAs old receipt := by
  have hkept : row' ∈ w.db.publications → (∃ row ∈ w.db.publications, row.status = .confirmed ∧
      row'.SameReceipt row) ∨ ∃ old ∈ w.db.publications, ∃ receipt, old.identity = deps.identity ∧
        PublicationProof deps h old receipt ∧ row'.ConfirmedAs old receipt :=
    fun hmem => .inl ⟨row', hmem, hconfirmed, .refl row'⟩
  cases hwrite with
  | update hkeeps hreceipt =>
    obtain ⟨hmem, -⟩ | ⟨row, hrow, -, rfl⟩ := mem_updateWhere_cases hrow'
    · exact hkept hmem
    · obtain ⟨hstatus, hblock, hhash⟩ := hreceipt row hconfirmed
      exact .inl ⟨row, hrow, hstatus, hkeeps.id row, hkeeps.identity row, hkeeps.priceE18Raw row,
        hkeeps.quotedAt row, hkeeps.txHash row, hblock, hhash⟩
  | @confirm old receipt hold hidentity hproof =>
    obtain ⟨hmem, -⟩ | ⟨row, hrow, hp, rfl⟩ := mem_updateWhere_cases hrow'
    · exact hkept hmem
    · obtain rfl := hids.eq hrow hold (of_decide_eq_true hp)
      exact .inr ⟨row, hrow, receipt, hidentity, hproof, rfl, rfl, rfl, rfl, rfl, rfl, rfl⟩
  | supersede =>
    obtain ⟨hmem, -⟩ | ⟨row, -, -, rfl⟩ := mem_updateWhere_cases hrow'
    · exact hkept hmem
    · cases hconfirmed
  | insert _ =>
    obtain hmem | hmem := List.mem_append.1 hrow'
    · exact hkept hmem
    · rw [List.mem_singleton.1 hmem] at hconfirmed
      cases hconfirmed
  | sign _ =>
    obtain ⟨hmem, -⟩ | ⟨row, -, -, rfl⟩ := mem_updateWhere_cases hrow'
    · exact hkept hmem
    · cases hconfirmed
  | _ => exact hkept hrow'

end

section

variable {O : Outside} {w : World} {ls : List (Label World Reply Failure Job)} {c : MarketConfig}

theorem Confirms.append {l : Label World Reply Failure Job} {row : PricePublication}
    (h : ∃ l' ∈ ls, Confirms l' row) : ∃ l' ∈ ls ++ [l], Confirms l' row :=
  h.imp fun _ hl => ⟨List.mem_append_left _ hl.1, hl.2⟩

/-- **Confirmed prices have proof.**  In every reachable state, whatever reorganisations, crashes
and failing calls came before, each confirmed row was confirmed by a step of the run whose process
had been given a receipt of the row's own transaction, not reverted, in a block that was
confirmation-deep and that the node named as canonical, with the row's price in its event or, when
it has no event, stored by the contract in that block; and the row still has that transaction, that
price and that receipt. -/
theorem confirmed_proved (hw : World.Initial O w) (hrun : (market O).Run (Config.idle w) ls c) :
    ∀ row ∈ c.shared.db.publications, row.status = .confirmed → ∃ l ∈ ls, Confirms l row := by
  refine (protocol O).traced (L := fun _ => True) (I := fun _ => True)
    (J := fun ls w => ∀ row ∈ w.db.publications, row.status = .confirmed →
      ∃ l ∈ ls, Confirms l row) (fun _ _ _ => trivial) ?_ ?_ hw.inv ?_ hrun fun _ _ => trivial
  · intro ls l w w' _ _ hcause hJ row hrow hconfirmed
    exact Confirms.append (hJ row (db_of_cause hcause ▸ hrow) hconfirmed)
  · intro ls j began h w w' _ _ hinv _ _ _ _ hwrite hJ row hrow hconfirmed
    by_cases hslot : j.slot = .publication
    · cases j with
      | publish deps =>
        obtain ⟨old, hold, hwas, hsame⟩ | ⟨old, hold, receipt, hidentity, hproof, has⟩ :=
          PublicationWrite.confirmed hwrite hinv.publicationIds hrow hconfirmed
        · obtain ⟨l, hl, hl'⟩ := hJ old hold hwas
          exact Confirms.append ⟨l, hl, hl'.same hsame⟩
        · exact ⟨_, List.mem_append_right _ (.head _), deps, began, h, w, w', old, row, receipt,
            rfl, hold, hidentity, hproof, hrow, hconfirmed, has, .refl row⟩
      | _ => cases hslot
    · rw [JobWrite.spares_publications hslot hwrite] at hrow
      exact Confirms.append (hJ row hrow hconfirmed)
  · rw [hw.db]
    exact fun row hrow => absurd hrow List.not_mem_nil

theorem confirmed_proved_sample : ∃ ls, (market failingOutside).Run (Config.idle sampleStart) ls
    failingEnd ∧ ∃ row ∈ failingEnd.shared.db.publications, ∃ l ∈ ls, Confirms l row := by
  have hrun := Machine.run_labels allows_failingRun (Option.some_get failing_isSome).symm
  obtain ⟨row, hrow, hconfirmed, -⟩ := failingEnd_confirmed
  have hinitial : World.Initial failingOutside sampleStart :=
    ⟨rfl, rfl, rfl, fun _ => by rintro _ ⟨⟩⟩
  exact ⟨_, hrun, row, hrow, confirmed_proved hinitial hrun row hrow hconfirmed⟩

end

/-! ### Charged evidence -/

/-- The block was canonical at a moment of the pass, and it is deep enough below `head`. -/
def WasFinal (O : Outside) (deps : ChargeDependencies) (h : Log) (head block : ℕ) (hash : Hash) :
    Prop :=
  block ≤ deps.finalizedBlock head ∧ ∃ w₁, .asked w₁ (.blockHash deps.identity.chainId block)
    (.ok hash) ∈ h ∧ O.forest.canonical (w₁.chains deps.identity.chainId) block = some hash

section

variable {O : Outside} {c c' : MarketConfig} {l : Label World Reply Failure Job}
  {row : ChargeBatch} {deps : ChargeDependencies} {h : Log}

/-- **Who persists a signature of a batch** is a charge pass that signs it. -/
theorem Reaches.signs (hc : Reaches O c) (hstep : (market O).Step c l c')
    (hrow : Persists c.shared c'.shared row) :
    ∃ deps runId cached began h w₀ old signer nonce head,
      l = .act (.charge deps runId cached) began h (.ran c.shared c'.shared) ∧
        ChargeSigning deps h c.shared w₀ old signer nonce head ∧ row.id = old.id ∧
          c'.shared.db.clicks = c.shared.db.clicks ∧
            Concurrent.Recorded (Inv O.forest) (Grows O.forest) O.answers began h c.shared := by
  obtain ⟨hmem, hsigned, hnew⟩ := hrow
  -- the journals of the others hold no new signature
  have hsame : c'.shared.db.batches ≠ c.shared.db.batches := fun heq =>
    hnew row (heq ▸ hmem) rfl (.refl row)
  cases hstep with
  | env henv => exact absurd (congrArg _ henv.db) hsame
  | start => exact absurd rfl hsame
  | stop => exact absurd rfl hsame
  | crash => exact absurd rfl hsame
  | @act i p e rest hp hact hbefore =>
    cases e with
    | asked w q a => exact absurd (congrArg (fun w => w.db.batches) hbefore) hsame
    | ran w w' =>
      obtain ⟨hwrite, rfl, -, hrec⟩ := hc.ran (.act hp hact hbefore)
      by_cases hslot : p.job.slot = .charge
      · obtain ⟨deps, runId, cached, hj⟩ := Job.slot_eq_charge hslot
        rw [hj] at hwrite
        obtain hjournal | ⟨w₀, old, signer, nonce, head, signed, hsign, rfl⟩ :=
          ChargeWrite.signs hwrite
        · obtain ⟨old, hold, hsigned'⟩ | hunsigned := hjournal.mem hmem
          · exact absurd hsigned'.2 (hnew old hold hsigned'.1.id.symm)
          · rw [hunsigned.2.1] at hsigned
            cases hsigned
        · obtain ⟨hold, -⟩ | ⟨r, -, hid, rfl⟩ := mem_updateWhere_cases hmem
          · exact absurd (.refl row) (hnew row hold rfl)
          · exact ⟨deps, runId, cached, p.began, p.hist, w₀, old, signer, nonce, head,
              by rw [hj]; rfl, hsign, of_decide_eq_true hid, rfl, hrec⟩
      · exact absurd (hwrite.spares_charges hc.inv.ledger hslot).1 hsame

/-- A block that the node named as canonical was so when it was named. -/
theorem EvidenceSeen.wasFinal {w began : World} {head block : ℕ} {hash : Option Hash}
    (hnames : O.NamesBlocks)
    (hrec : Concurrent.Recorded (Inv O.forest) (Grows O.forest) O.answers began h w)
    (hseen : EvidenceSeen deps h head block hash) :
    ∃ hash', hash = some hash' ∧ WasFinal O deps h head block hash' := by
  obtain ⟨hdeep, hash', rfl, w₁, hasked⟩ := hseen
  exact ⟨hash', rfl, hdeep, w₁, hasked, hnames _ _ _ _ (hrec.answered _ _ _ hasked)⟩

/-- **Evidence of a signed charge.**  If the node names canonical blocks, then whenever a signature
of a batch is persisted, every click of the batch has a bid block that is confirmation-deep below
the head of this pass, and the stored hash was canonical at a moment of this pass; and so has every
click with a price block. -/
theorem signed_evidence (hnames : O.NamesBlocks) (hc : Reaches O c)
    (hstep : (market O).Step c l c') (hrow : Persists c.shared c'.shared row) :
    ∃ deps runId cached began h head,
      l = .act (.charge deps runId cached) began h (.ran c.shared c'.shared) ∧
      SawHead deps.identity.chainId h head ∧ ∀ click ∈ c'.shared.db.clicks,
        click.batchId = some row.id →
          (∃ block hash, click.bidBlockNumber = some block ∧ click.bidBlockHash = some hash ∧
            WasFinal O deps h head block hash) ∧
          ∀ block, click.priceBlockNumber = some block → ∃ hash,
            click.priceBlockHash = some hash ∧ WasFinal O deps h head block hash := by
  obtain ⟨deps, runId, cached, began, h, w₀, old, signer, nonce, head, rfl, hsign, hid, hclicks,
    hrec⟩ := hc.signs hstep hrow
  refine ⟨deps, runId, cached, began, h, head, rfl, hsign.sawHead, fun click hclick hbatch => ?_⟩
  obtain ⟨⟨block, hblock, hseen⟩, hprice⟩ :=
    hsign.evidence click (hclicks ▸ hclick) (hid ▸ hbatch)
  obtain ⟨hash, hhash, hfinal⟩ := hseen.wasFinal hnames hrec
  exact ⟨⟨block, hash, hblock, hhash, hfinal⟩, fun block' hblock' =>
    (hprice block' hblock').wasFinal hnames hrec⟩

end

/-- The pass that is about to sign has put a click into the batch. -/
theorem promptEnd_clicks : ∃ c', promptEnd.act sampleOracle .charge = some c' ∧
    ∃ row ∈ c'.shared.db.batches, row.signedTransaction.isSome = true ∧
      ∃ click ∈ c'.shared.db.clicks, click.batchId = some row.id := by
  refine ⟨_, (Option.some_get prompt_acts).symm, ?_⟩
  decide +kernel

theorem signed_evidence_sample : ∃ deps h head block hash, SawHead deps.identity.chainId h head ∧
    WasFinal sampleOutside deps h head block hash := by
  obtain ⟨c', hact, row, hmem, hsigned, click, hclick, hbatch⟩ := promptEnd_clicks
  obtain ⟨p, hp⟩ := Option.isSome_iff_exists.1 promptEnd_signing.running
  obtain ⟨e, hstep, -, -⟩ := Machine.step_of_act (M := market sampleOutside)
    (fun _ _ => rfl) hp hact
  have hreaches : Reaches sampleOutside promptEnd := ⟨sampleStart, _, sampleStart_initial,
    Machine.run_labels allows_promptRun (Option.some_get prompt_isSome).symm⟩
  have hpersists : Persists promptEnd.shared c'.shared row := by
    refine ⟨hmem, hsigned, fun old hold _ hsame => ?_⟩
    rw [hsame.2.1, promptEnd_signing.unsigned old hold] at hsigned
    cases hsigned
  obtain ⟨deps, -, -, -, h, head, -, hhead, hevidence⟩ :=
    signed_evidence sample_namesBlocks hreaches hstep hpersists
  obtain ⟨⟨block, hash, -, -, hfinal⟩, -⟩ := hevidence click hclick hbatch
  exact ⟨deps, h, head, block, hash, hhead, hfinal⟩

end Market

end PreCommunity
