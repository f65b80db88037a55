import PreCommunity.Market.World

/-!
# The wallet lock and the nonce reservation

Both journals reserve one chain nonce while a transaction holds the wallet lock.  The lock is
taken before the journals are read and is released with the transaction; when the transaction has
timed out, the lock is gone and the transaction can no longer commit.

* `readKeywordMarketWalletReservation` : whether the wallet has a transaction in flight, and its
  latest nonce.
* `commitLocked` : the last update of a transaction that holds the lock, and its commit.
-/

namespace PreCommunity

namespace Market

open Concurrent

variable {μ α : Type}

/-- The wallet is locked by `owner`. -/
def World.Locks (w : World) (owner : Slot) (wallet : Wallet) : Prop :=
  (wallet, owner) ∈ w.walletLocks

instance (w : World) (owner : Slot) (wallet : Wallet) : Decidable (w.Locks owner wallet) :=
  inferInstanceAs (Decidable (_ ∈ _))

/-- The world after `owner` has taken the lock. -/
def World.lock (w : World) (owner : Slot) (wallet : Wallet) : World :=
  { w with walletLocks := (wallet, owner) :: w.walletLocks }

/-- The world after `owner` has released its locks. -/
def World.release (w : World) (owner : Slot) : World :=
  { w with walletLocks := w.walletLocks.filter fun l => l.2 ≠ owner }

/-- `pg_advisory_xact_lock`: wait until no other transaction holds the lock. -/
def lockWallet (owner : Slot) (wallet : Wallet) : Worker μ Unit :=
  Routine.await .other fun w =>
    if w.walletLocks.any fun l => l.1 = wallet ∧ l.2 ≠ owner then none
    else some (.ok (), w.lock owner wallet)

/-- A transaction that takes the wallet lock: an exception rolls it back and releases the lock. -/
def withWalletLock (owner : Slot) (wallet : Wallet) (body : Worker μ α) : Worker μ α := do
  try
    lockWallet owner wallet
    body
  catch e =>
    Routine.write .other fun w => w.release owner
    throw e

/-- The last statements of a transaction that holds the wallet lock, and its commit. -/
def commitLocked (owner : Slot) (wallet : Wallet) (t : Tx α) : Worker μ α :=
  Routine.atomically .other fun w =>
    if w.Locks owner wallet then
      match t.run w.db with
      | .ok (a, db) => (.ok a, (w.withDb db).release owner)
      | .error e => (.error e, w.release owner)
    else (.error .other, w)

/-- What the journals say about a wallet. -/
structure WalletReservation where
  pending : Bool
  latestNonce : Option ℕ

/-- The batch belongs to the wallet. -/
def ChargeBatch.ofWallet (wallet : Wallet) (batch : ChargeBatch) : Bool :=
  batch.identity.chainId = wallet.chainId ∧ batch.signerAddress = some wallet.signerAddress

/-- The publication belongs to the wallet. -/
def PricePublication.ofWallet (wallet : Wallet) (row : PricePublication) : Bool :=
  row.identity.chainId = wallet.chainId ∧ row.signerAddress = some wallet.signerAddress

/-- The largest nonce in a column, ignoring null. -/
def latestNonce : List (Option ℕ) → Option ℕ
  | [] => none
  | nonce :: rest => match nonce, latestNonce rest with
    | none, latest => latest
    | some n, none => some n
    | some n, some latest => some (max n latest)

/-- The rest of `readKeywordMarketWalletReservation`, after the lock has been taken. -/
def readKeywordMarketWalletReservation (wallet : Wallet) (ownCharge ownPublication : Option Id) :
    Worker μ WalletReservation := do
  let pendingCharge ← select fun db =>
    db.batches.any fun row => row.ofWallet wallet ∧ row.status.inFlight ∧ some row.id ≠ ownCharge
  let pendingPublication ← select fun db =>
    db.publications.any fun row =>
      row.ofWallet wallet ∧ row.status.inFlight ∧ some row.id ≠ ownPublication
  let chargeNonce ← select fun db =>
    latestNonce ((db.batches.filter (·.ofWallet wallet)).map (·.nonce))
  let publicationNonce ← select fun db =>
    latestNonce ((db.publications.filter (·.ofWallet wallet)).map (·.nonce))
  return {
    pending := pendingCharge || pendingPublication
    latestNonce := match chargeNonce, publicationNonce with
      | none, nonce => nonce
      | nonce, none => nonce
      | some charge, some publication =>
        if charge > publication then some charge else some publication }

/-! ### The latest nonce -/

theorem le_latestNonce {nonces : List (Option ℕ)} {n : ℕ} (h : some n ∈ nonces) :
    ∃ latest, latestNonce nonces = some latest ∧ n ≤ latest := by
  induction nonces with
  | nil => cases h
  | cons nonce rest ih =>
    cases h with
    | head =>
      cases hrest : latestNonce rest with
      | none => exact ⟨n, by simp [latestNonce, hrest], Nat.le_refl _⟩
      | some latest => exact ⟨max n latest, by simp [latestNonce, hrest], Nat.le_max_left _ _⟩
    | tail _ h =>
      obtain ⟨latest, hlatest, hle⟩ := ih h
      cases nonce with
      | none => exact ⟨latest, by simp [latestNonce, hlatest], hle⟩
      | some m =>
        exact ⟨max m latest, by simp [latestNonce, hlatest],
          Nat.le_trans hle (Nat.le_max_right _ _)⟩

/-! ### Proof rules -/

section Rules

variable {D : Discipline World Reply Failure} {E : Failure → View μ World Reply Failure → Prop}
  {v : View μ World Reply Failure} {owner : Slot} {wallet : Wallet}

theorem wp_lockWallet {Q : Unit → View μ World Reply Failure → Prop}
    (hlost : ∀ w, D.rely v.shared w → D.inv w → E .other (v.ran w w))
    (hlock : ∀ w, D.rely v.shared w → D.inv w →
      (∀ l ∈ w.walletLocks, l.1 = wallet → l.2 = owner) →
      D.guar v.hist w (w.lock owner wallet) ∧ Q () (v.ran w (w.lock owner wallet)) ∧
        E .other (v.ran w (w.lock owner wallet))) :
    Routine.wp D (lockWallet owner wallet) Q E v := by
  refine Routine.wp_await hlost ?_ ?_
  · intro w u w' hrely hinv ht
    split_ifs at ht with hheld
    obtain ⟨-, rfl⟩ : () = u ∧ w.lock owner wallet = w' := by simpa using ht
    refine hlock w hrely hinv fun l hl hwallet => ?_
    by_contra hne
    exact hheld (List.any_eq_true.2 ⟨l, hl, by simp [hwallet, hne]⟩)
  · intro w e w' hrely hinv ht
    split_ifs at ht
    simp at ht

theorem wp_commitLocked {t : Tx α} {Q : α → View μ World Reply Failure → Prop}
    (hlost : ∀ w, D.rely v.shared w → D.inv w → E .other (v.ran w w))
    (hok : ∀ w a db, D.rely v.shared w → D.inv w → w.Locks owner wallet →
      t.run w.db = .ok (a, db) → D.guar v.hist w ((w.withDb db).release owner) ∧
        Q a (v.ran w ((w.withDb db).release owner)) ∧
        E .other (v.ran w ((w.withDb db).release owner)))
    (habort : ∀ w e, D.rely v.shared w → D.inv w → D.guar v.hist w (w.release owner) ∧
      E e (v.ran w (w.release owner)) ∧ E .other (v.ran w (w.release owner))) :
    Routine.wp D (commitLocked owner wallet t) Q E v := by
  refine Routine.wp_atomically hlost ?_ ?_
  · intro w a w' hrely hinv ht
    split_ifs at ht with hlocks
    · split at ht
      · obtain ⟨rfl, rfl⟩ := Prod.mk.inj ht |>.imp_left Except.ok.inj
        exact hok w _ _ hrely hinv hlocks ‹_›
      · cases (Prod.mk.inj ht).1
    · cases (Prod.mk.inj ht).1
  · intro w e w' hrely hinv ht
    split_ifs at ht with hlocks
    · split at ht
      · cases (Prod.mk.inj ht).1
      · obtain ⟨rfl, rfl⟩ := Prod.mk.inj ht |>.imp_left Except.error.inj
        exact habort w _ hrely hinv
    · obtain ⟨rfl, rfl⟩ := Prod.mk.inj ht |>.imp_left Except.error.inj
      exact ⟨D.guar_refl _ _, hlost _ hrely hinv, hlost _ hrely hinv⟩

/-- An exception in a transaction with the wallet lock releases the lock. -/
theorem wp_withWalletLock {body : Worker μ α} {Q : α → View μ World Reply Failure → Prop}
    (E' : Failure → View μ World Reply Failure → Prop)
    (hbody : Routine.wp D (lockWallet owner wallet) (fun _ v' => Routine.wp D body Q E' v') E' v)
    (hE : ∀ e v', E' e v' → ∀ w, D.rely v'.shared w → D.inv w →
      E .other (v'.ran w w) ∧ D.guar v'.hist w (w.release owner) ∧
        E e (v'.ran w (w.release owner)) ∧ E .other (v'.ran w (w.release owner))) :
    Routine.wp D (withWalletLock owner wallet body) Q E v := by
  refine (Routine.wp_tryCatch _ _).2 ((Routine.wp_bind _ _).2 (Routine.wp_mono hbody
    (fun _ v' hv' => Routine.wp_mono hv' (fun _ _ h => h) fun e v'' hv'' => ?_)
    fun e v'' hv'' => ?_))
  all_goals
    refine (Routine.wp_bind _ _).2
      (Routine.wp_write (fun w hrely hinv => (hE e v'' hv'' w hrely hinv).1)
      fun w hrely hinv => ?_)
    obtain ⟨-, hguar, hthrow, hother⟩ := hE e v'' hv'' w hrely hinv
    exact ⟨hguar, hthrow, hother⟩

end Rules

end Market

end PreCommunity
