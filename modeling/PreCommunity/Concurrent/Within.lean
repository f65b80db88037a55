import PreCommunity.Concurrent.Pool

/-!
# Machines by their writes

When every statement of a program is guarded by itself, it is enough to know what the program may
write, whatever it was told and whatever happened in between.

* `Program.Within`, `Routine.Within` : every transaction of a program is in a relation, with one
  rule for every way of building a routine.
* `Program.wp_of_within` : such a program keeps to a discipline.
* `Machine.Within` : the same for all jobs of a machine.
* `Machine.Within.step` : what a step may do to the shared state.
* `Machine.Within.along` : runs.
-/

namespace PreCommunity

namespace Concurrent

variable {μ σ Ask : Type} {Reply : Ask → Type} {ε α β : Type} {G : σ → σ → Prop}

/-- Every transaction of the program that changes the shared state is in `G`. -/
def Program.Within (G : σ → σ → Prop) : Program σ Reply ε α → Prop
  | .done _ => True
  | .ask _ k => ∀ a, (k a).Within G
  | .run t _ k => (∀ s b s', t s = some (b, s') → s' = s ∨ G s s') ∧ ∀ b, (k b).Within G

namespace Program

theorem within_bind {p : Program σ Reply ε α} {f : α → Program σ Reply ε β} (hp : p.Within G)
    (hf : ∀ a, (f a).Within G) : (p.bind f).Within G := by
  induction p with
  | done a => exact hf a
  | ask q k ih => exact fun a => ih a (hp a)
  | run t lost k ih => exact ⟨hp.1, fun b => ih b (hp.2 b)⟩

/-- What is in every step. -/
theorem within_of_all (hG : ∀ s s', G s s') (p : Program σ Reply ε α) : p.Within G := by
  induction p with
  | done a => trivial
  | ask q k ih => exact ih
  | run t lost k ih => exact ⟨fun s _ s' _ => .inr (hG s s'), ih⟩

theorem Within.mono {G' : σ → σ → Prop} (hG : ∀ s s', G s s' → G' s s')
    {p : Program σ Reply ε α} (hp : p.Within G) : p.Within G' := by
  induction p with
  | done a => trivial
  | ask q k ih => exact fun a => ih a (hp a)
  | run t lost k ih =>
    exact ⟨fun s b s' h => (hp.1 s b s' h).imp_right (hG s s'), fun b => ih b (hp.2 b)⟩

/-- One action of a program that keeps within `G`. -/
theorem Within.act {answers : σ → (q : Ask) → Except ε (Reply q) → Prop}
    {p p' : Program σ Reply ε α} {e : Event σ Reply ε} (hp : p.Within G)
    (hact : Act answers p e p') : p'.Within G ∧ (e.after = e.before ∨ G e.before e.after) := by
  cases hact with
  | ask _ => exact ⟨hp _, .inl rfl⟩
  | run ht => exact ⟨hp.2 _, hp.1 _ _ _ ht⟩
  | lost => exact ⟨hp.2 _, .inl rfl⟩
  | unheard ht => exact ⟨hp.2 _, hp.1 _ _ _ ht⟩

end Program

/-! ### Routines -/

namespace Routine

/-- The transactions of the routine are in `G`. -/
def Within (G : σ → σ → Prop) (p : Routine μ σ Reply ε α) : Prop :=
  ∀ m, (ExceptT.run p m : Program σ Reply ε (Except ε α × μ)).Within G

theorem within_pure (a : α) : Within G (pure a : Routine μ σ Reply ε α) := fun _ => trivial

theorem within_throw (e : ε) : Within G (throw e : Routine μ σ Reply ε α) := fun _ => trivial

theorem within_bind {p : Routine μ σ Reply ε α} {f : α → Routine μ σ Reply ε β}
    (hp : Within G p) (hf : ∀ a, Within G (f a)) : Within G (p >>= f) := by
  intro m
  refine Program.within_bind (hp m) ?_
  rintro ⟨_ | a, m'⟩
  · trivial
  · exact hf a m'

theorem within_tryCatch {p : Routine μ σ Reply ε α} {f : ε → Routine μ σ Reply ε α}
    (hp : Within G p) (hf : ∀ e, Within G (f e)) : Within G (tryCatch p f) := by
  intro m
  refine Program.within_bind (hp m) ?_
  rintro ⟨e | _, m'⟩
  · exact hf e m'
  · trivial

theorem within_ask (q : Ask) : Within G (ask q : Routine μ σ Reply ε (Reply q)) :=
  fun _ _ => trivial

theorem within_atomically {lost : ε} {t : σ → Except ε β × σ}
    (ht : ∀ s b s', t s = (b, s') → s' = s ∨ G s s') :
    Within G (atomically lost t : Routine μ σ Reply ε β) :=
  fun _ => ⟨fun s b s' h => ht s b s' (Option.some.inj h), fun _ => trivial⟩

theorem within_await {lost : ε} {t : σ → Option (Except ε β × σ)}
    (ht : ∀ s b s', t s = some (b, s') → s' = s ∨ G s s') :
    Within G (await lost t : Routine μ σ Reply ε β) :=
  fun _ => ⟨ht, fun _ => trivial⟩

theorem within_transact {δ : Type} {lost : ε} {put : σ → δ → σ} {t : σ → Except ε (δ × β)}
    (ht : ∀ s d b, t s = .ok (d, b) → put s d = s ∨ G s (put s d)) :
    Within G (transact lost put t : Routine μ σ Reply ε β) := by
  refine within_atomically fun s b s' h => ?_
  split at h <;> obtain ⟨rfl, rfl⟩ := Prod.mk.inj h
  · exact ht _ _ _ ‹_›
  · exact .inl rfl

theorem within_attempt (x : Except ε α) : Within G (attempt x : Routine μ σ Reply ε α) := by
  cases x with
  | ok a => exact within_pure a
  | error e => exact within_throw e

theorem within_read {lost : ε} {f : σ → β} :
    Within G (read lost f : Routine μ σ Reply ε β) :=
  within_atomically fun _ _ _ h => .inl (Prod.mk.inj h).2.symm

theorem within_ite {c : Prop} [Decidable c] {p p' : Routine μ σ Reply ε α} (hp : c → Within G p)
    (hp' : ¬c → Within G p') : Within G (if c then p else p') := by
  by_cases h : c
  · rw [if_pos h]; exact hp h
  · rw [if_neg h]; exact hp' h

theorem Within.mono {G' : σ → σ → Prop} (hG : ∀ s s', G s s' → G' s s')
    {p : Routine μ σ Reply ε α} (hp : Within G p) : Within G' p :=
  fun m => Program.Within.mono hG (hp m)

theorem Within.start {p : Routine μ σ Reply ε α} (hp : Within G p) (m : μ) :
    (p.start m).Within G :=
  Program.within_bind (hp m) fun _ => trivial

theorem Within.silently {p : Routine μ σ Reply ε α} (hp : Within G p) (m : μ) :
    (p.silently m).Within G :=
  Program.within_bind (hp.start m) fun _ => trivial

end Routine

/-! ### Among others -/

/-- A program whose writes are in `G` as long as `K` holds keeps to a discipline that allows `G`
and keeps `K`. -/
theorem Program.wp_of_within {D : Discipline σ Reply ε} {K : σ → Prop}
    (hrely : ∀ s s', D.rely s s' → K s → K s') (hasks : ∀ h s q, D.asks h s q)
    (hguar : ∀ h s s', D.inv s → K s → G s s' → D.guar h s s' ∧ K s')
    {p : Program σ Reply ε α} (hp : p.Within fun s s' => K s → G s s') {h : History σ Reply ε}
    {s : σ} (hs : K s) : p.wp D (fun _ _ _ => True) h s := by
  induction p generalizing h s with
  | done a => trivial
  | ask q k ih => exact fun s₁ h₁ _ => ⟨hasks _ _ _, fun a _ => ih a (hp a) (hrely _ _ h₁ hs)⟩
  | run t lost k ih =>
    intro s₁ h₁ hinv
    have hs₁ := hrely _ _ h₁ hs
    refine ⟨ih _ (hp.2 _) hs₁, fun b s₂ ht => ?_⟩
    obtain rfl | hG := hp.1 _ _ _ ht
    · exact ⟨D.guar_refl _ _, ih _ (hp.2 _) hs₁, ih _ (hp.2 _) hs₁⟩
    · obtain ⟨hguar, hs₂⟩ := hguar h _ _ hinv hs₁ (hG hs₁)
      exact ⟨hguar, ih _ (hp.2 _) hs₂, ih _ (hp.2 _) hs₂⟩

theorem Routine.wp_of_within {D : Discipline σ Reply ε} {K : σ → Prop}
    (hrely : ∀ s s', D.rely s s' → K s → K s') (hasks : ∀ h s q, D.asks h s q)
    (hguar : ∀ h s s', D.inv s → K s → G s s' → D.guar h s s' ∧ K s')
    {p : Routine μ σ Reply ε α} (hp : Routine.Within (fun s s' => K s → G s s') p)
    {v : View μ σ Reply ε} (hs : K v.shared) :
    Routine.wp D p (fun _ _ => True) (fun _ _ => True) v := by
  refine Program.wp_mono ?_ (Program.wp_of_within hrely hasks hguar (hp v.memory) hs)
  rintro ⟨_ | _, m⟩ h s - <;> trivial

/-! ### Machines -/

variable {Job ι : Type} [DecidableEq ι] {M : Machine σ Reply ε Job ι} {W : Job → σ → σ → Prop}

/-- The transactions of every job `j` are in `W j`. -/
def Machine.Within (M : Machine σ Reply ε Job ι) (W : Job → σ → σ → Prop) : Prop :=
  ∀ j, (M.code j).Within (W j)

/-- What the running processes still have to do is in `W`. -/
def Config.Within (c : Config σ Reply ε Job ι) (W : Job → σ → σ → Prop) : Prop :=
  ∀ i p, c.running i = some p → p.rest.Within (W p.job)

omit [DecidableEq ι] in
theorem Config.within_idle (s : σ) : (Config.idle s : Config σ Reply ε Job ι).Within W := by
  rintro i p ⟨⟩

theorem Config.Within.withSlot {c : Config σ Reply ε Job ι} (hc : c.Within W) {s : σ} {i : ι}
    {p : Option (Process σ Reply ε Job)} (hp : ∀ q, p = some q → q.rest.Within (W q.job)) :
    (Config.withSlot { c with shared := s } i p).Within W := by
  intro k q hq
  obtain ⟨-, hq⟩ | ⟨-, hq⟩ := Config.running_of_withSlot hq
  · exact hp q hq
  · exact hc k q hq

/-- What a step with this label may do to the shared state. -/
def Label.Effect (M : Machine σ Reply ε Job ι) (W : Job → σ → σ → Prop) (s s' : σ) :
    Label σ Reply ε Job → Prop
  | .env => M.env s s'
  | .start _ | .stop _ => s' = s
  | .crash j => s' = M.halt j s
  | .act j _ _ e => e.before = s ∧ e.after = s' ∧ (s' = s ∨ W j s s')

namespace Machine.Within

/-- **One step.** -/
theorem step (hM : M.Within W) {c c' : Config σ Reply ε Job ι} {l : Label σ Reply ε Job}
    (hc : c.Within W) (hstep : M.Step c l c') :
    c'.Within W ∧ l.Effect M W c.shared c'.shared := by
  cases hstep with
  | env h => exact ⟨hc, h⟩
  | start _ _ =>
    refine ⟨hc.withSlot ?_, rfl⟩
    rintro q ⟨⟩
    exact hM _
  | act hp hact hbefore =>
    obtain ⟨hrest, heffect⟩ := (hc _ _ hp).act hact
    refine ⟨hc.withSlot ?_, hbefore, rfl, hbefore ▸ heffect⟩
    rintro q ⟨⟩
    exact hrest
  | stop _ _ => exact ⟨hc.withSlot (by rintro q ⟨⟩), rfl⟩
  | crash _ => exact ⟨hc.withSlot (by rintro q ⟨⟩), rfl⟩

theorem run (hM : M.Within W) {c c' : Config σ Reply ε Job ι} {ls : List (Label σ Reply ε Job)}
    (hc : c.Within W) (hrun : M.Run c ls c') : c'.Within W := by
  induction hrun with
  | refl => exact hc
  | step _ hstep ih => exact (hM.step ih hstep).1

/-- **Runs whose labels meet a condition**: `J` holds of the labels so far and the shared state. -/
theorem along (hM : M.Within W) {L : Label σ Reply ε Job → Prop}
    {J : List (Label σ Reply ε Job) → σ → Prop}
    (hstep : ∀ ls l s s', L l → l.Effect M W s s' → J ls s → J (ls ++ [l]) s')
    {c c' : Config σ Reply ε Job ι} {ls : List (Label σ Reply ε Job)} (hc : c.Within W)
    (hrun : M.Run c ls c') (hok : ∀ l ∈ ls, L l) (hJ : J [] c.shared) : J ls c'.shared := by
  induction hrun with
  | refl => exact hJ
  | step hrun hlast ih =>
    have heffect := (hM.step (hM.run hc hrun) hlast).2
    exact hstep _ _ _ _ (hok _ (by simp)) heffect
      (ih fun l hl => hok l (List.mem_append_left _ hl))

end Machine.Within

end Concurrent

end PreCommunity
