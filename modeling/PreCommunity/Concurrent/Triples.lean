import PreCommunity.Concurrent.Within

/-!
# What a process knows of the shared state

A process knows an assertion about the shared state when the others cannot break it.  `Triple`
says what a routine may rely on and what it then knows; it forgets what was done before and what
holds after an exception.

* `Discipline.Keeps` : the others cannot break an assertion.
* `Routine.Triple` : with one rule for every way of building a routine.
* `Routine.Triple.silently` : a routine as a program.
-/

namespace PreCommunity

namespace Concurrent

variable {μ σ Ask : Type} {Reply : Ask → Type} {ε α β : Type}

/-- The others cannot break `K`. -/
def Discipline.Keeps (D : Discipline σ Reply ε) (K : σ → Prop) : Prop :=
  ∀ s s', D.rely s s' → K s → K s'

namespace Discipline.Keeps

variable {D : Discipline σ Reply ε} {K K' : σ → Prop}

theorem true : D.Keeps fun _ => True := fun _ _ _ _ => trivial

theorem and (hK : D.Keeps K) (hK' : D.Keeps K') : D.Keeps fun s => K s ∧ K' s :=
  fun s s' h hs => ⟨hK s s' h hs.1, hK' s s' h hs.2⟩

end Discipline.Keeps

namespace Routine

/-- When the routine starts while `K` holds, it keeps to the discipline, and `Q` holds of its
result and the shared state. -/
def Triple (D : Discipline σ Reply ε) (K : σ → Prop) (p : Routine μ σ Reply ε α)
    (Q : α → σ → Prop) : Prop :=
  ∀ v : View μ σ Reply ε, K v.shared → wp D p (fun a v => Q a v.shared) (fun _ _ => True) v

variable {D : Discipline σ Reply ε} {K K' : σ → Prop} {Q Q' : α → σ → Prop}

theorem triple_pure {a : α} (h : ∀ s, K s → Q a s) :
    Triple D K (pure a : Routine μ σ Reply ε α) Q :=
  fun v hv => h v.shared hv

theorem triple_throw {e : ε} : Triple D K (throw e : Routine μ σ Reply ε α) Q :=
  fun _ _ => trivial

theorem triple_bind {p : Routine μ σ Reply ε α} {f : α → Routine μ σ Reply ε β}
    {R : α → σ → Prop} {Q : β → σ → Prop} (hp : Triple D K p R)
    (hf : ∀ a, Triple D (R a) (f a) Q) : Triple D K (p >>= f) Q :=
  fun _ hv => wp_seq (hp _ hv) (fun a v' hv' => hf a v' hv') fun _ _ h => h

theorem triple_mono {p : Routine μ σ Reply ε α} (hp : Triple D K p Q) (hK : ∀ s, K' s → K s)
    (hQ : ∀ a s, Q a s → Q' a s) : Triple D K' p Q' :=
  fun v hv => wp_mono (hp v (hK _ hv)) (fun a v' => hQ a v'.shared) fun _ _ h => h

/-- What holds of the inputs of a routine is known all the time. -/
theorem triple_of_fact {fact : Prop} {p : Routine μ σ Reply ε α}
    (hp : fact → Triple D (fun _ => True) p Q) : Triple D (fun _ => fact) p Q :=
  fun v hv => hp hv v trivial

theorem triple_tryCatch {p : Routine μ σ Reply ε α} {f : ε → Routine μ σ Reply ε α}
    (hp : Triple D K p Q) (hf : ∀ e, Triple D (fun _ => True) (f e) Q) :
    Triple D K (tryCatch p f) Q :=
  fun _ hv => (wp_tryCatch p f).2 (wp_mono (hp _ hv) (fun _ _ h => h) fun e v' _ => hf e v' trivial)

theorem triple_ask {q : Ask} {Q : Reply q → σ → Prop} (hK : D.Keeps K)
    (hasks : ∀ h s, D.asks h s q)
    (hQ : ∀ r s, D.inv s → K s → D.answers s q (.ok r) → Q r s) :
    Triple D K (ask q : Routine μ σ Reply ε (Reply q)) Q :=
  fun _ hv => wp_ask fun s hrely hinv =>
    ⟨hasks _ _, fun r hr => hQ r s hinv (hK _ _ hrely hv) hr, fun _ _ => trivial⟩

theorem triple_await {lost : ε} {t : σ → Option (Except ε β × σ)} {Q : β → σ → Prop}
    (hK : D.Keeps K)
    (ht : ∀ h s b s', D.inv s → K s → t s = some (b, s') →
      D.guar h s s' ∧ ∀ a, b = .ok a → Q a s') :
    Triple D K (await lost t : Routine μ σ Reply ε β) Q := by
  intro v hv
  refine wp_await (fun _ _ _ => trivial) (fun s b s' hrely hinv h => ?_)
    fun s e s' hrely hinv h => ⟨(ht v.hist s _ s' hinv (hK _ _ hrely hv) h).1, trivial, trivial⟩
  obtain ⟨hguar, hQ⟩ := ht v.hist s _ s' hinv (hK _ _ hrely hv) h
  exact ⟨hguar, hQ b rfl, trivial⟩

theorem triple_atomically {lost : ε} {t : σ → Except ε β × σ} {Q : β → σ → Prop}
    (hK : D.Keeps K)
    (ht : ∀ h s b s', D.inv s → K s → t s = (b, s') →
      D.guar h s s' ∧ ∀ a, b = .ok a → Q a s') :
    Triple D K (atomically lost t : Routine μ σ Reply ε β) Q :=
  triple_await hK fun h s b s' hinv hs hb => ht h s b s' hinv hs (Option.some.inj hb)

theorem triple_attempt (x : Except ε α) :
    Triple D K (attempt x : Routine μ σ Reply ε α) fun a s => K s ∧ x = .ok a := by
  cases x with
  | ok a => exact triple_pure fun _ h => ⟨h, rfl⟩
  | error e => exact triple_throw

theorem triple_read {lost : ε} {f : σ → β} {Q : β → σ → Prop} (hK : D.Keeps K)
    (hQ : ∀ s, D.inv s → K s → Q (f s) s) :
    Triple D K (read lost f : Routine μ σ Reply ε β) Q :=
  fun _ hv => wp_read fun s hrely hinv => ⟨hQ s hinv (hK _ _ hrely hv), trivial⟩

theorem triple_forIn {xs : List β} {b : α} {f : β → α → Routine μ σ Reply ε (ForInStep α)}
    (hf : ∀ x ∈ xs, ∀ a, Triple D K (f x a) fun _ => K) :
    Triple D K (forIn xs b f) fun _ => K := by
  induction xs generalizing b with
  | nil => exact triple_pure fun _ h => h
  | cons x rest ih =>
    rw [List.forIn_cons]
    refine triple_bind (hf x (.head _) b) ?_
    rintro (a | a)
    · exact triple_pure fun _ h => h
    · exact ih fun y hy => hf y (.tail _ hy)

/-- A routine that keeps to the discipline does so as a program. -/
theorem Triple.silently {p : Routine μ σ Reply ε α} {Q : α → σ → Prop} (hp : Triple D K p Q)
    {m : μ} {h : History σ Reply ε} {s : σ} (hs : K s) :
    (p.silently m).wp D (fun _ _ _ => True) h s :=
  wp_silently (hp ⟨m, h, s⟩ hs)

end Routine

end Concurrent

end PreCommunity
