import PreCommunity.Market.Rely

/-!
# The nonce reservation

A process that holds the lock of a wallet reads both journals and reserves a nonce above all that
they hold for the wallet.  As long as it still holds the lock, the other journal is as it was read.

* `Locking` : what was read under the lock.
* `reservationOf` : the reservation that the reads add up to.
* `wp_reservation` : the specification of the reads.
-/

namespace PreCommunity

namespace Market

open Store Concurrent

/-! ### Reads under the lock -/

section

variable {μ : Type} {D : Discipline World Reply Failure} {P : View μ World Reply Failure → Prop}
  {Since : Wallet → World → World → Prop} {S : World → Prop} {wallet : Wallet} {ws : List World}
  {v : View μ World Reply Failure} {E : Failure → View μ World Reply Failure → Prop}

/-- `P` holds, and the tables were read in the worlds `ws`, all of which meet `S`, under the
lock. -/
def Locking (Since : Wallet → World → World → Prop) (S : World → Prop)
    (P : View μ World Reply Failure → Prop) (wallet : Wallet) (ws : List World)
    (v : View μ World Reply Failure) : Prop :=
  P v ∧ ∀ w ∈ ws, S w ∧ ReadIn v.hist w ∧ Since wallet w v.shared

/-- What the lock of a wallet protects while a process runs. -/
structure Protects (D : Discipline World Reply Failure) (Since : Wallet → World → World → Prop) :
    Prop where
  refl (wallet : Wallet) (w : World) : Since wallet w w
  rely {wallet : Wallet} {w₀ w w' : World} : Since wallet w₀ w → D.rely w w' → Since wallet w₀ w'

theorem stable_locking (hP : D.Stable P) (hS : Protects D Since) :
    D.Stable (Locking Since S P wallet ws) where
  asked q a hv hrely hinv := ⟨hP.asked q a hv.1 hrely hinv,
    fun w hw => ⟨(hv.2 w hw).1, List.mem_cons_of_mem _ (hv.2 w hw).2.1,
      hS.rely (hv.2 w hw).2.2 hrely⟩⟩
  ran hv hrely hinv := ⟨hP.ran hv.1 hrely hinv,
    fun w hw => ⟨(hv.2 w hw).1, List.mem_cons_of_mem _ (hv.2 w hw).2.1,
      hS.rely (hv.2 w hw).2.2 hrely⟩⟩

/-- Read the tables under the lock. -/
theorem locking_select (hP : D.Stable P) (hS : Protects D Since) (hPS : ∀ v, P v → S v.shared)
    (hv : Locking Since S P wallet ws v) {α : Type} {f : Database → α}
    {Q : α → View μ World Reply Failure → Prop}
    (hQ : ∀ w v', v'.shared = w → Locking Since S P wallet (ws ++ [w]) v' → Q (f w.db) v')
    (hE : ∀ e v', P v' → E e v') : Routine.wp D (select f) Q E v := by
  refine (stable_locking hP hS).read hv (fun w _ hinv hv' => hQ w _ rfl ⟨hv'.1, ?_⟩)
    fun e v' hv' => hE e v' hv'.1
  intro w' hw'
  obtain hw' | hw' := List.mem_append.1 hw'
  · exact hv'.2 w' hw'
  · obtain rfl := List.mem_singleton.1 hw'
    exact ⟨hPS _ hv'.1, .head _, hS.refl wallet _⟩

end

/-! ### The reservation -/

/-- The reservation that the four reads add up to. -/
def reservationOf (wallet : Wallet) (ownCharge ownPublication : Option Id)
    (db₁ db₂ db₃ db₄ : Database) : WalletReservation where
  pending := (db₁.batches.any fun row =>
      row.ofWallet wallet ∧ row.status.inFlight ∧ some row.id ≠ ownCharge) ||
    db₂.publications.any fun row =>
      row.ofWallet wallet ∧ row.status.inFlight ∧ some row.id ≠ ownPublication
  latestNonce :=
    match latestNonce ((db₃.batches.filter (·.ofWallet wallet)).map (·.nonce)),
      latestNonce ((db₄.publications.filter (·.ofWallet wallet)).map (·.nonce)) with
    | none, nonce => nonce
    | nonce, none => nonce
    | some charge, some publication =>
      if charge > publication then some charge else some publication

section Reservation

variable {wallet : Wallet} {ownCharge ownPublication : Option Id} {db₁ db₂ db₃ db₄ : Database}
  {nonce : ℕ}

/-- No batch of the wallet is in flight, except the own one. -/
theorem reservationOf_batches
    (h : (reservationOf wallet ownCharge ownPublication db₁ db₂ db₃ db₄).pending = false)
    {row : ChargeBatch} (hrow : row ∈ db₁.batches) (hof : row.ofWallet wallet = true)
    (hflight : row.status.inFlight = true) : some row.id = ownCharge := by
  by_contra hne
  simp only [reservationOf, Bool.or_eq_false_iff, List.any_eq_false, decide_eq_true_eq] at h
  exact h.1 row hrow ⟨hof, hflight, hne⟩

/-- No publication of the wallet is in flight, except the own one. -/
theorem reservationOf_publications
    (h : (reservationOf wallet ownCharge ownPublication db₁ db₂ db₃ db₄).pending = false)
    {row : PricePublication} (hrow : row ∈ db₂.publications) (hof : row.ofWallet wallet = true)
    (hflight : row.status.inFlight = true) : some row.id = ownPublication := by
  by_contra hne
  simp only [reservationOf, Bool.or_eq_false_iff, List.any_eq_false, decide_eq_true_eq] at h
  exact h.2 row hrow ⟨hof, hflight, hne⟩

/-- The latest nonce is the largest of both journals. -/
theorem reservationOf_latest {n : ℕ}
    (hn : some n ∈ (db₃.batches.filter (·.ofWallet wallet)).map (·.nonce) ∨
      some n ∈ (db₄.publications.filter (·.ofWallet wallet)).map (·.nonce))
    (h : ¬(reservationOf wallet ownCharge ownPublication db₁ db₂ db₃ db₄).latestNonce.any
      (nonce ≤ ·) = true) : n < nonce := by
  have hle : (∃ latest, latestNonce ((db₃.batches.filter (·.ofWallet wallet)).map (·.nonce)) =
      some latest ∧ n ≤ latest) ∨ ∃ latest, latestNonce
        ((db₄.publications.filter (·.ofWallet wallet)).map (·.nonce)) = some latest ∧ n ≤ latest :=
    hn.imp le_latestNonce le_latestNonce
  unfold reservationOf at h
  simp only at h
  generalize latestNonce ((db₃.batches.filter (·.ofWallet wallet)).map (·.nonce)) = charge at h hle
  generalize latestNonce ((db₄.publications.filter (·.ofWallet wallet)).map (·.nonce)) =
    publication at h hle
  cases charge with
  | none =>
    cases publication with
    | none => simp at hle
    | some publication =>
      simp only [Option.some.injEq, exists_eq_left', reduceCtorEq, false_and, exists_false,
        false_or, Option.any_some, decide_eq_true_eq] at hle h
      omega
  | some charge =>
    cases publication with
    | none =>
      simp only [Option.some.injEq, exists_eq_left', reduceCtorEq, false_and, exists_false,
        or_false, Option.any_some, decide_eq_true_eq] at hle h
      omega
    | some publication =>
      simp only [Option.some.injEq, exists_eq_left'] at hle h
      split_ifs at h <;> simp only [Option.any_some, decide_eq_true_eq] at h <;> omega

end Reservation

/-- **The reads of the reservation.** -/
theorem wp_reservation {μ : Type} {D : Discipline World Reply Failure}
    {P : View μ World Reply Failure → Prop} {Since : Wallet → World → World → Prop}
    {S : World → Prop} {wallet : Wallet} {v : View μ World Reply Failure}
    {E : Failure → View μ World Reply Failure → Prop} (hP : D.Stable P) (hS : Protects D Since)
    (hPS : ∀ v, P v → S v.shared) (hv : P v) {ownCharge ownPublication : Option Id}
    {Q : WalletReservation → View μ World Reply Failure → Prop}
    (hQ : ∀ w₁ w₂ w₃ w₄ v', Locking Since S P wallet [w₁, w₂, w₃, w₄] v' →
      Q (reservationOf wallet ownCharge ownPublication w₁.db w₂.db w₃.db w₄.db) v')
    (hE : ∀ e v', P v' → E e v') :
    Routine.wp D (readKeywordMarketWalletReservation wallet ownCharge ownPublication) Q E v := by
  have hv₀ : Locking Since S P wallet [] v := ⟨hv, by simp⟩
  unfold readKeywordMarketWalletReservation
  refine (Routine.wp_bind _ _).2 (locking_select hP hS hPS hv₀ (fun w₁ v₁ _ hv₁ => ?_) hE)
  refine (Routine.wp_bind _ _).2 (locking_select hP hS hPS hv₁ (fun w₂ v₂ _ hv₂ => ?_) hE)
  refine (Routine.wp_bind _ _).2 (locking_select hP hS hPS hv₂ (fun w₃ v₃ _ hv₃ => ?_) hE)
  refine (Routine.wp_bind _ _).2 (locking_select hP hS hPS hv₃ (fun w₄ v₄ _ hv₄ => ?_) hE)
  exact hQ w₁ w₂ w₃ w₄ v₄ hv₄

end Market

end PreCommunity
