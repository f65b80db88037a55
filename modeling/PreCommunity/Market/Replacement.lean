import PreCommunity.Market.Debt

/-!
# No transaction is replaced while it may be live

A batch keeps its signed bytes, its transaction hash and its nonce until a charge pass has seen
its transaction reverted in a final block and then the charge unprocessed.

* `Replaces` : the action in which a charge pass replaces a signature.
* `Reaches.signature_step` : one step.
* `no_replacement` : every run.
-/

namespace PreCommunity

namespace Market

open Store Concurrent

/-- The label is the action of a charge pass that saw, earlier in this pass, the transaction of
`row` reverted in a final block, and after that the charge of `row` unprocessed. -/
def Replaces (l : Label World Reply Failure Job) (row : ChargeBatch) : Prop :=
  ∃ deps runId cached began h w w', l = .act (.charge deps runId cached) began h (.ran w w') ∧
    row.identity = deps.identity ∧
    ∀ txHash, row.txHash = some txHash → DeadTransaction deps h txHash row.chargeId

/-- The label is the action in which a charge pass sends the bytes `raw`. -/
def Sends (l : Label World Reply Failure Job) (raw : Hash) : Prop :=
  ∃ deps runId cached began h w chainId a,
    l = .act (.charge deps runId cached) began h (.asked w (.sendRawTransaction chainId raw) a)

section

variable {O : Outside} {c c' : MarketConfig} {ls : List (Label World Reply Failure Job)}
  {l : Label World Reply Failure Job} {b : ChargeBatch}

theorem ChargeBatch.SameSignature.refl (b : ChargeBatch) : b.SameSignature b := ⟨rfl, rfl, rfl, rfl⟩

theorem ChargeBatch.SameSignature.trans {a b c : ChargeBatch} (h : a.SameSignature b)
    (h' : b.SameSignature c) : a.SameSignature c :=
  ⟨h.1.trans h'.1, h.2.1.trans h'.2.1, h.2.2.1.trans h'.2.2.1, h.2.2.2.trans h'.2.2.2⟩

theorem Job.slot_eq_charge {j : Job} (h : j.slot = .charge) :
    ∃ deps runId cached, j = .charge deps runId cached := by
  cases j with
  | charge deps runId cached => exact ⟨deps, runId, cached, rfl⟩
  | _ => cases h

/-- A charge pass that replaces a signature has seen the transaction dead. -/
theorem ChargeWrite.signature {ext : External} {deps : ChargeDependencies} {h : Log}
    {w w' : World} (hw : Ledger w.db) (hwrite : ChargeWrite ext deps h w w')
    (hb : b ∈ w.db.batches) : ∃ b' ∈ w'.db.batches, b'.SameDebt b ∧ (b'.SameSignature b ∨
      b.status.inFlight = false ∧ b.identity = deps.identity ∧
        ∀ txHash, b.txHash = some txHash → DeadTransaction deps h txHash b.chargeId) := by
  obtain ⟨g, fresh, heq, hg, -⟩ | ⟨w₀, row, signer, nonce, head, signed, hsign, rfl⟩ :=
    hwrite.signs
  · rw [heq]
    exact ⟨g b, List.mem_append_left _ (List.mem_map_of_mem hb), (hg b hb).1, .inl (hg b hb).2⟩
  · cases hp : decide (b.id = row.id) with
    | false => exact ⟨b, mem_updateWhere_of_not hb hp, .refl b, .inl (.refl b)⟩
    | true =>
      obtain rfl := hw.batchIds.eq hb hsign.mem (of_decide_eq_true hp)
      refine ⟨_, mem_updateWhere_of hb hp, ⟨rfl, rfl, rfl, rfl, rfl, rfl, rfl, rfl, rfl⟩,
        .inr ⟨?_, hsign.identity, hsign.dead⟩⟩
      obtain hs | hs := hsign.unsent <;> rw [hs] <;> rfl

/-- **One step** and the signature of a batch. -/
theorem Reaches.signature_step (hc : Reaches O c) (hstep : (market O).Step c l c')
    (hb : b ∈ c.shared.db.batches) : ∃ b' ∈ c'.shared.db.batches, b'.SameDebt b ∧
      (b'.SameSignature b ∨ b.status.inFlight = false ∧ Replaces l b) := by
  have hsame : c'.shared.db.batches = c.shared.db.batches → ∃ b' ∈ c'.shared.db.batches,
      b'.SameDebt b ∧ (b'.SameSignature b ∨ b.status.inFlight = false ∧ Replaces l b) :=
    fun heq => ⟨b, heq ▸ hb, .refl b, .inl (.refl b)⟩
  cases hstep with
  | env henv => exact hsame (congrArg _ henv.db)
  | start => exact hsame rfl
  | act hp hact hbefore =>
    rename_i i p e rest
    cases e with
    | asked w q a => exact hsame (congrArg (fun w => w.db.batches) hbefore)
    | ran w w' =>
      obtain ⟨hwrite, rfl, -, hrec⟩ := hc.ran (.act hp hact hbefore)
      by_cases hslot : p.job.slot = .charge
      · obtain ⟨deps, runId, cached, hj⟩ := Job.slot_eq_charge hslot
        rw [hj] at hwrite
        obtain ⟨b', hb', hdebt, hsig⟩ := ChargeWrite.signature hc.inv.ledger hwrite hb
        exact ⟨b', hb', hdebt, hsig.imp_right fun ⟨hflight, hidentity, hdead⟩ =>
          ⟨hflight, deps, runId, cached, _, _, _, _, by rw [hj], hidentity, hdead⟩⟩
      · exact hsame (hwrite.spares_charges hc.inv.ledger hslot).1
  | stop => exact hsame rfl
  | crash => exact hsame rfl

/-- A charge pass sends only bytes that are committed on a batch that was sent. -/
theorem Reaches.sends (hc : Reaches O c) (hstep : (market O).Step c l c') {raw : Hash}
    (hsend : Sends l raw) : ∃ row ∈ c.shared.db.batches, row.signedTransaction = some raw ∧
      (row.status.inFlight = true ∨ row.status = .failed) := by
  obtain ⟨deps, runId, cached, began, h, w, chainId, a, rfl⟩ := hsend
  obtain ⟨⟨row, hrow, hraw, hsent, -⟩, rfl, -⟩ := hc.asked hstep
  exact ⟨row, hrow, hraw, hsent⟩

/-- The first replacement of the signature of `b` in a run: until then the batch keeps it, and it
is replaced while the batch is not in flight, by a pass that has seen its transaction dead. -/
def Replaced (O : Outside) (c c' : MarketConfig) (ls : List (Label World Reply Failure Job))
    (b : ChargeBatch) : Prop :=
  ∃ ls₁ l ls₂ c₁ c₂, ls = ls₁ ++ l :: ls₂ ∧ (market O).Run c ls₁ c₁ ∧ (market O).Step c₁ l c₂ ∧
    (market O).Run c₂ ls₂ c' ∧ ∃ row ∈ c₁.shared.db.batches, row.SameDebt b ∧
      row.SameSignature b ∧ row.status.inFlight = false ∧ Replaces l row

/-- **No replacement.**  In every run a batch keeps its debt, and it keeps its signature until a
charge pass has seen its transaction dead; and whatever a charge pass sends is committed on a
batch at that moment. -/
theorem no_replacement (hc : Reaches O c) (hrun : (market O).Run c ls c') :
    (∀ b ∈ c.shared.db.batches, ∃ b' ∈ c'.shared.db.batches, b'.SameDebt b ∧
      (b'.SameSignature b ∨ Replaced O c c' ls b)) ∧
      ∀ l c'' raw, (market O).Step c' l c'' → Sends l raw →
        ∃ row ∈ c'.shared.db.batches, row.signedTransaction = some raw ∧
          (row.status.inFlight = true ∨ row.status = .failed) := by
  refine ⟨fun b hb => ?_, fun l c'' raw hstep hsend => (hc.run hrun).sends hstep hsend⟩
  induction hrun with
  | refl => exact ⟨b, hb, .refl b, .inl (.refl b)⟩
  | @step c₁ c₂ ls l hrun hstep ih =>
    obtain ⟨b₁, hb₁, hdebt₁, hsig₁⟩ := ih
    obtain ⟨b₂, hb₂, hdebt₂, hsig₂⟩ := (hc.run hrun).signature_step hstep hb₁
    refine ⟨b₂, hb₂, hdebt₂.trans hdebt₁, ?_⟩
    obtain hsig₁ | ⟨ls₁, l₁, ls₂, d₁, d₂, rfl, hrun₁, hstep₁, hrun₂, hrow⟩ := hsig₁
    · obtain hsig₂ | ⟨hflight, hreplaces⟩ := hsig₂
      · exact .inl (hsig₂.trans hsig₁)
      · exact .inr ⟨ls, l, [], c₁, c₂, rfl, hrun, hstep, .refl, b₁, hb₁, hdebt₁, hsig₁, hflight,
          hreplaces⟩
    · exact .inr ⟨ls₁, l₁, ls₂ ++ [l], d₁, d₂, by simp, hrun₁, hstep₁, hrun₂.step hstep, hrow⟩

/-- The charge of the sample run is sent and then settled. -/
theorem no_replacement_sample :
    (∀ b ∈ sampleSent.shared.db.batches, ∃ b' ∈ sampleSettled.shared.db.batches, b'.SameDebt b ∧
      (b'.SameSignature b ∨ Replaced sampleOutside sampleSent sampleSettled settling b)) ∧
      ∀ l c'' raw, (market sampleOutside).Step sampleSettled l c'' → Sends l raw →
        ∃ row ∈ sampleSettled.shared.db.batches, row.signedTransaction = some raw ∧
          (row.status.inFlight = true ∨ row.status = .failed) :=
  no_replacement reaches_sampleSent run_settling

end

end Market

end PreCommunity
