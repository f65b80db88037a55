import PreCommunity.Community.Rely

/-!
# What a job keeps to

* `discipline` : what a job relies on, and what it does.
* `triple_lock`, `triple_commit`, `triple_transactionally` and so on : one rule for every part of a
  transaction.
* `Runs` : a job that needs to know nothing.
-/

namespace PreCommunity

namespace Community

open Concurrent Store
open Escrow (Id Time Address Hash Text)

/-- What a job keeps to. -/
def discipline (O : Outside) (j : Job) : Discipline World Reply Failure where
  inv := Sound O
  rely := Rely j.slot
  answers := O.answers
  guar log w w' := w' = w ∨ Does O log j w w'
  asks _ _ _ := True
  rely_refl := Rely.refl j.slot
  rely_trans := Rely.trans
  guar_refl _ _ := .inl rfl

variable {O : Outside} {j : Job} {α β : Type} {K : World → Prop}

/-- What holds whatever the others do. -/
def Stays (j : Job) (K : World → Prop) : Prop := ∀ w w', Rely j.slot w w' → K w → K w'

namespace Stays

variable {K' : World → Prop}

theorem true : Stays j fun _ => True := fun _ _ _ _ => trivial

theorem const (p : Prop) : Stays j fun _ => p := fun _ _ _ h => h

theorem and (hK : Stays j K) (hK' : Stays j K') : Stays j fun w => K w ∧ K' w :=
  fun w w' h hw => ⟨hK w w' h hw.1, hK' w w' h hw.2⟩

theorem holds (r : Resource) (m : LockMode) : Stays j fun w => w.Holds j.slot r m :=
  fun _ _ h hw => h.locks r m hw

theorem clock (t : Time) : Stays j fun w => t ≤ w.clock :=
  fun _ _ h hw => hw.trans h.clock

/-- What depends on the settings and the categories stays under a lock of the project. -/
theorem project (m : LockMode) (P : Option CommunitySettings → List ForumCategory → Prop) :
    Stays j fun w => w.Holds j.slot .project m ∧ P w.db.settings w.db.categories :=
  fun w w' h hw => by
    obtain ⟨hsettings, hcategories⟩ := h.project m hw.1
    rw [hsettings, hcategories]
    exact ⟨h.locks _ _ hw.1, hw.2⟩

/-- A proposal that was read stays as it is while it is locked. -/
theorem proposal (id : Id) (found : Option CommunityProposal) :
    Stays j fun w => w.Holds j.slot (.proposal id) .exclusive ∧
      ∀ row, found = some row → w.db.proposal? id = some row :=
  fun _ _ h hw => ⟨h.locks _ _ hw.1, fun row hrow => (h.proposal id hw.1).1 row (hw.2 row hrow)⟩

/-- The weights of the votes for a proposal stay as they are while it is locked. -/
theorem weight (id : Id) (weights : ProposalVoteChoice → ℕ) :
    Stays j fun w => w.Holds j.slot (.proposal id) .exclusive ∧
      ∀ choice, weights choice = w.db.weight id choice :=
  fun _ _ h hw => ⟨h.locks _ _ hw.1, fun choice =>
    (hw.2 choice).trans (weight_congr (h.proposal id hw.1).2 choice).symm⟩

theorem activeDrafts (u : Id) (n : ℕ) :
    Stays j fun w => w.Holds j.slot (.user u) .exclusive ∧ w.db.activeDrafts u < n :=
  fun _ _ h hw => ⟨h.locks _ _ hw.1, (h.drafts u hw.1).1.trans_lt hw.2⟩

theorem isDraft (id u : Id) :
    Stays j fun w => w.Holds j.slot (.user u) .exclusive ∧ w.db.IsDraft id u :=
  fun _ _ h hw => ⟨h.locks _ _ hw.1, (h.drafts u hw.1).2 id hw.2⟩

theorem topicsSince (u : Id) (t : Time) (n : ℕ) :
    Stays j fun w => w.Holds j.slot (.user u) .exclusive ∧ w.db.topicsSince u t < n :=
  fun _ _ h hw => ⟨h.locks _ _ hw.1, (h.since u hw.1 t).1.trans_lt hw.2⟩

theorem repliesSince (u : Id) (t : Time) (n : ℕ) :
    Stays j fun w => w.Holds j.slot (.user u) .exclusive ∧ w.db.repliesSince u t < n :=
  fun _ _ h hw => ⟨h.locks _ _ hw.1, (h.since u hw.1 t).2.trans_lt hw.2⟩

theorem below (id : Id) : Stays j fun w => id < w.db.nextId :=
  fun _ _ h hw => hw.trans_le h.nextId

end Stays

/-! ### Parts of a transaction -/

section

variable {Q : α → World → Prop}

/-- A routine that keeps to the discipline: what it knows at first, and in the end. -/
abbrev Keeps (O : Outside) (j : Job) (K : World → Prop) (p : Worker α) (Q : α → World → Prop) :
    Prop :=
  Routine.Triple (discipline O j) K p Q

/-- A query. -/
theorem triple_select (hK : Stays j K) {f : Database → α}
    (hQ : ∀ w, Sound O w → K w → Q (f w.db) w) : Keeps O j K (select f) Q :=
  Routine.triple_read hK hQ

/-- The time. -/
theorem triple_now (hK : Stays j K) : Keeps O j K now fun t w => K w ∧ t ≤ w.clock :=
  Routine.triple_read hK fun _ _ hw => ⟨hw, le_rfl⟩

/-- A question that is answered. -/
theorem triple_ask (hK : Stays j K) (q : Query) :
    Keeps O j K (ask q) fun a w => K w ∧ ∃ w₀, O.answers w₀ q (.ok a) :=
  Routine.triple_ask hK (fun _ _ => trivial) fun _ w _ hw ha => ⟨hw, w, ha⟩

/-- A lock that is taken. -/
theorem triple_lock (hK : Stays j K) (r : Resource) (m : LockMode) :
    Keeps O j K (lock j.slot r m) fun _ w => K w ∧ w.Holds j.slot r m := by
  refine Routine.triple_await hK fun _ w b w' _ hw h => ?_
  split_ifs at h with hfree
  obtain ⟨-, rfl⟩ := Prod.mk.inj (Option.some.inj h)
  refine ⟨.inr (.lock r m hfree), fun _ _ => ⟨hK w _ ?_ hw, Locks.mem_acquire.2 (.inl rfl)⟩⟩
  exact { Rely.refl j.slot w with locks := fun _ _ h => Locks.mem_acquire.2 (.inr h) }

theorem triple_lockIf (hK : Stays j K) (reason : Bool) (r : Resource) (m : LockMode) :
    Keeps O j K (lockIf reason j.slot r m) fun _ => K := by
  unfold lockIf
  split
  · exact Routine.triple_mono (triple_lock hK r m) (fun _ h => h) fun _ _ h => h.1
  · exact Routine.triple_pure fun _ h => h

theorem triple_rollback : Keeps O j K (rollback j.slot) fun _ _ => True :=
  Routine.triple_mono (K := fun _ => True) (Routine.triple_atomically (fun _ _ _ h => h)
    fun _ w _ w' _ _ h => by
      obtain ⟨-, rfl⟩ := Prod.mk.inj h
      exact ⟨.inr (.commit .keep), fun _ _ => trivial⟩) (fun _ _ => trivial) fun _ _ h => h

/-- **The end of a transaction** is one of the kinds of writes, while nobody else holds the rows
that it waits for. -/
theorem wp_commit (hK : Stays j K) {rows : List Resource}
    {t : Time → Database → Except Failure (Database × α)} {v : View Unit World Reply Failure}
    (hv : K v.shared) (ht : ∀ w db a, Sound O w → K w →
      (∀ r ∈ rows, w.locks.free j.slot r .exclusive = true) → t w.clock w.db = .ok (db, a) →
      Change O v.hist w j db) :
    Routine.wp (discipline O j) (commit j.slot rows t) (fun _ _ => True) (fun _ _ => True) v := by
  have hdoes : ∀ w (b : Except Failure α) w', Rely j.slot v.shared w → Sound O w →
      (if rows.all fun r => w.locks.free j.slot r .exclusive then
        some (w.end j.slot (t w.clock w.db)) else none) = some (b, w') →
      w' = w ∨ Does O v.hist j w w' := by
    intro w b w' hrely hsound h
    split_ifs at h with hfree
    cases hres : t w.clock w.db with
    | ok r =>
      rw [hres] at h
      obtain ⟨-, rfl⟩ := Prod.mk.inj (Option.some.inj h)
      exact .inr (.commit (ht w r.1 r.2 hsound (hK _ _ hrely hv) (List.all_eq_true.1 hfree) hres))
    | error e =>
      rw [hres] at h
      obtain ⟨-, rfl⟩ := Prod.mk.inj (Option.some.inj h)
      exact .inr (.commit .keep)
  exact Routine.wp_await (fun _ _ _ => trivial)
    (fun w b w' hrely hsound h => ⟨hdoes w _ w' hrely hsound h, trivial, trivial⟩)
    fun w e w' hrely hsound h => ⟨hdoes w _ w' hrely hsound h, trivial, trivial⟩

theorem triple_commit_rows (hK : Stays j K) {rows : List Resource}
    {t : Time → Database → Except Failure (Database × α)}
    (ht : ∀ {log : Log} w db a, Sound O w → K w →
      (∀ r ∈ rows, w.locks.free j.slot r .exclusive = true) → t w.clock w.db = .ok (db, a) →
      Change O log w j db) : Keeps O j K (commit j.slot rows t) fun _ _ => True :=
  fun _ hv => wp_commit hK hv fun w db a hw hK hrows h => ht w db a hw hK hrows h

theorem triple_commit (hK : Stays j K) {rows : List Resource}
    {t : Time → Database → Except Failure (Database × α)}
    (ht : ∀ {log : Log} w db a, Sound O w → K w → t w.clock w.db = .ok (db, a) →
      Change O log w j db) : Keeps O j K (commit j.slot rows t) fun _ _ => True :=
  triple_commit_rows hK fun w db a hw hK _ h => ht w db a hw hK h

theorem triple_transactionally {body : Worker α} (hbody : Keeps O j K body fun _ _ => True) :
    Keeps O j K (transactionally j.slot body) fun _ _ => True :=
  Routine.triple_tryCatch hbody fun _ =>
    Routine.triple_bind triple_rollback fun _ => Routine.triple_throw

end

/-! ### Jobs that need to know nothing -/

/-- The routine keeps to the discipline whatever holds. -/
abbrev Runs (O : Outside) (j : Job) (p : Worker α) : Prop :=
  Keeps O j (fun _ => True) p fun _ _ => True

namespace Runs

theorem of {p : Worker α} (hp : Runs O j p) : Keeps O j K p fun _ _ => True :=
  Routine.triple_mono hp (fun _ _ => trivial) fun _ _ h => h

theorem bind {p : Worker α} {f : α → Worker β} (hp : Runs O j p) (hf : ∀ a, Runs O j (f a)) :
    Runs O j (p >>= f) :=
  Routine.triple_bind hp hf

theorem pure (a : α) : Runs O j (Pure.pure a : Worker α) := Routine.triple_pure fun _ h => h

theorem throw (e : Failure) : Runs O j (MonadExcept.throw e : Worker α) := Routine.triple_throw

theorem select (f : Database → α) : Runs O j (Community.select f) :=
  triple_select .true fun _ _ _ => trivial

theorem now : Runs O j Community.now :=
  Routine.triple_mono (triple_now .true) (fun _ h => h) fun _ _ _ => trivial

theorem ask (q : Query) : Runs O j (Community.ask q) :=
  Routine.triple_mono (triple_ask .true q) (fun _ h => h) fun _ _ _ => trivial

theorem attempt (x : Except Failure α) : Runs O j (Routine.attempt x) :=
  Routine.triple_mono (Routine.triple_attempt x) (fun _ h => h) fun _ _ _ => trivial

theorem lock (r : Resource) (m : LockMode) : Runs O j (Community.lock j.slot r m) :=
  Routine.triple_mono (triple_lock .true r m) (fun _ h => h) fun _ _ _ => trivial

theorem lockIf (reason : Bool) (r : Resource) (m : LockMode) :
    Runs O j (Community.lockIf reason j.slot r m) :=
  triple_lockIf .true reason r m

theorem commit {rows : List Resource} {t : Time → Database → Except Failure (Database × α)}
    (ht : ∀ {log : Log} w db a, Sound O w → t w.clock w.db = .ok (db, a) → Change O log w j db) :
    Runs O j (Community.commit j.slot rows t) :=
  triple_commit .true fun w db a hw _ => ht w db a hw

theorem assertCurrent (address : Address) (minimumRaw : ℕ) (purpose : String) :
    Runs O j (Community.assertCurrent address minimumRaw purpose) := by
  unfold Community.assertCurrent
  split
  · exact pure ()
  · refine bind (ask _) fun balance => ?_
    split
    · exact throw _
    · exact pure ()

theorem assertForumEligible (communityMinimumRaw : ℕ) (address : Address) :
    Runs O j (Community.assertForumEligible communityMinimumRaw address) :=
  bind (select _) fun _ => assertCurrent _ _ _

theorem confirmedSnapshotBlock (confirmations : ℕ) :
    Runs O j (Community.confirmedSnapshotBlock confirmations) :=
  bind (ask _) fun _ => pure _

theorem checkNewCategory (texts : Texts) (chosen : Option Text) (current : Text) :
    Runs O j (Community.checkNewCategory texts chosen current) := by
  unfold Community.checkNewCategory
  split
  · exact pure ()
  · refine bind ?_ fun _ => pure ()
    unfold category
    split
    · exact throw _
    · refine bind (select _) fun found => ?_
      split
      · exact throw _
      · split
        · exact throw _
        · exact pure _

end Runs

end Community

end PreCommunity
