import PreCommunity.Concurrent.Pool

/-!
# More promises

What the processes of a machine promise beyond a protocol can be proved apart, without the
invariant and without what they rely on.

* `Program.wp_and` : a program that keeps to two disciplines keeps to both at once.
* `Machine.promising` : a discipline that promises something and relies on nothing.
* `Protocol.withPromise` : a protocol with more promises.
* `Protocol.traced` : what holds of the labels of a run and its last state.
-/

namespace PreCommunity

namespace Concurrent

variable {σ Ask : Type} {Reply : Ask → Type} {ε Job ι α : Type}

/-- **Two disciplines at once.** -/
theorem Program.wp_and {D D' D'' : Discipline σ Reply ε}
    (hrely : ∀ s s', D''.rely s s' → D.rely s s' ∧ D'.rely s s')
    (hinv : ∀ s, D''.inv s → D.inv s ∧ D'.inv s)
    (hanswers : ∀ s q a, D''.answers s q a → D.answers s q a ∧ D'.answers s q a)
    (hguar : ∀ h s s', D.guar h s s' → D'.guar h s s' → D''.guar h s s')
    (hasks : ∀ h s q, D.asks h s q → D'.asks h s q → D''.asks h s q) {p : Program σ Reply ε α}
    {post post' : α → History σ Reply ε → σ → Prop} {h : History σ Reply ε} {s : σ}
    (hp : p.wp D post h s) (hp' : p.wp D' post' h s) :
    p.wp D'' (fun a h s => post a h s ∧ post' a h s) h s := by
  induction p generalizing h s with
  | done a => exact ⟨hp, hp'⟩
  | ask q k ih =>
    intro s₁ h₁ hi
    obtain ⟨hask, hk⟩ := hp s₁ (hrely _ _ h₁).1 (hinv _ hi).1
    obtain ⟨hask', hk'⟩ := hp' s₁ (hrely _ _ h₁).2 (hinv _ hi).2
    refine ⟨hasks _ _ _ hask hask', fun a ha => ?_⟩
    exact ih a (hk a (hanswers _ _ _ ha).1) (hk' a (hanswers _ _ _ ha).2)
  | run t lost k ih =>
    intro s₁ h₁ hi
    obtain ⟨hlost, hrun⟩ := hp s₁ (hrely _ _ h₁).1 (hinv _ hi).1
    obtain ⟨hlost', hrun'⟩ := hp' s₁ (hrely _ _ h₁).2 (hinv _ hi).2
    refine ⟨ih _ hlost hlost', fun b s₂ ht => ?_⟩
    obtain ⟨hg, hk, hunheard⟩ := hrun b s₂ ht
    obtain ⟨hg', hk', hunheard'⟩ := hrun' b s₂ ht
    exact ⟨hguar _ _ _ hg hg', ih _ hk hk', ih _ hunheard hunheard'⟩

/-- A discipline that asks nothing of a program. -/
theorem Program.wp_trivial {D : Discipline σ Reply ε} (hguar : ∀ h s s', D.guar h s s')
    (hasks : ∀ h s q, D.asks h s q) (p : Program σ Reply ε α) (h : History σ Reply ε) (s : σ) :
    p.wp D (fun _ _ _ => True) h s := by
  induction p generalizing h s with
  | done a => trivial
  | ask q k ih => exact fun s₁ _ _ => ⟨hasks _ _ _, fun a _ => ih a _ _⟩
  | run t lost k ih =>
    exact fun s₁ _ _ => ⟨ih _ _ _, fun b s₂ _ => ⟨hguar _ _ _, ih _ _ _, ih _ _ _⟩⟩

section Machine

variable [DecidableEq ι] (M : Machine σ Reply ε Job ι)

/-- A discipline that promises `guar` and relies on nothing. -/
def Machine.promising (guar : History σ Reply ε → σ → σ → Prop) (hrefl : ∀ h s, guar h s s) :
    Discipline σ Reply ε where
  inv _ := True
  rely _ _ := True
  answers := M.answers
  guar := guar
  asks _ _ _ := True
  rely_refl _ := trivial
  rely_trans _ _ := trivial
  guar_refl := hrefl

variable {M}

/-- **A protocol with more promises.** -/
def Protocol.withPromise (P : Protocol M) (guar : Job → History σ Reply ε → σ → σ → Prop)
    (hrefl : ∀ j h s, guar j h s s)
    (hcode : ∀ j s, (M.code j).wp (M.promising (guar j) (hrefl j)) (fun _ _ _ => True) [] s) :
    Protocol M where
  inv := P.inv
  le := P.le
  rely := P.rely
  guar j h s s' := P.guar j h s s' ∧ guar j h s s'
  asks := P.asks
  le_refl := P.le_refl
  le_trans := P.le_trans
  rely_refl := P.rely_refl
  rely_trans := P.rely_trans
  guar_refl j h s := ⟨P.guar_refl j h s, hrefl j h s⟩
  inv_guar hrec hguar hinv := P.inv_guar hrec hguar.1 hinv
  inv_env := P.inv_env
  inv_halt := P.inv_halt
  le_guar hrec hguar hinv := P.le_guar hrec hguar.1 hinv
  le_env := P.le_env
  le_halt := P.le_halt
  rely_guar hslot hrec hguar hinv := P.rely_guar hslot hrec hguar.1 hinv
  rely_env := P.rely_env
  rely_halt := P.rely_halt
  code_safe {j s} hadmits hinv := by
    refine Program.wp_mono (fun _ _ _ _ => trivial) (Program.wp_and ?_ ?_ ?_ ?_ ?_
      (P.code_safe hadmits hinv) (hcode j s))
    · exact fun _ _ h => ⟨h, trivial⟩
    · exact fun _ h => ⟨h, trivial⟩
    · exact fun _ _ _ h => ⟨h, h⟩
    · exact fun _ _ _ h h' => ⟨h, h'⟩
    · exact fun _ _ _ h _ => h

/-- A label that is not a transaction. -/
def Label.Silent {σ Ask : Type} {Reply : Ask → Type} {ε Job : Type} (l : Label σ Reply ε Job) :
    Prop :=
  ∀ j began h s s', l ≠ .act j began h (.ran s s')

/-- **Traces.**  `J` is what holds of the labels so far and the shared state.  A transaction may use
that its process was admitted, and that `I`, which `J` implies, held whenever the process acted. -/
theorem Protocol.traced (P : Protocol M) {L : Label σ Reply ε Job → Prop} {I : σ → Prop}
    {J : List (Label σ Reply ε Job) → σ → Prop} (hI : ∀ ls s, J ls s → I s)
    (hsilent : ∀ ls l s s', l.Silent → P.le s s' →
      (s' = s ∨ M.env s s' ∨ ∃ j, s' = M.halt j s) → J ls s → J (ls ++ [l]) s')
    (hran : ∀ ls j began h s s', L (.act j began h (.ran s s')) → M.admits j began = true →
      P.inv s → P.inv s' → P.le s s' → Recorded P.inv P.le M.answers began h s →
      (∀ e ∈ h, I e.before) → P.guar j h s s' → J ls s →
      J (ls ++ [.act j began h (.ran s s')]) s')
    {s : σ} {ls : List (Label σ Reply ε Job)} {c : Config σ Reply ε Job ι} (hs : P.inv s)
    (hJ : J [] s) (hrun : M.Run (Config.idle s) ls c) (hok : ∀ l ∈ ls, L l) : J ls c.shared := by
  -- the invariant of the states carries over to all that a running job has seen
  suffices hall : J ls c.shared ∧ ∀ i p, c.running i = some p →
      M.admits p.job p.began = true ∧ ∀ e ∈ p.hist, I e.before from hall.1
  induction hrun with
  | refl =>
    refine ⟨hJ, ?_⟩
    rintro i p ⟨⟩
  | @step c₁ c₂ ls l hrun hstep ih =>
    obtain ⟨hJ₁, hrunning⟩ := ih fun l' hl' => hok l' (List.mem_append_left _ hl')
    have hl := hok l (by simp)
    have hc₁ : P.Safe c₁ := (Protocol.safe_idle hs).run hrun
    cases hstep with
    | env h =>
      refine ⟨hsilent _ _ _ _ ?_ (P.le_env h) (.inr (.inl h)) hJ₁, hrunning⟩
      rintro j began h s s' ⟨⟩
    | start _ hadmits =>
      refine ⟨hsilent _ _ _ _ ?_ (P.le_refl _) (.inl rfl) hJ₁, fun k q hq => ?_⟩
      · rintro j began h s s' ⟨⟩
      obtain ⟨-, heq⟩ | ⟨-, hq⟩ := Config.running_of_withSlot hq
      · obtain rfl := Option.some.inj heq
        exact ⟨hadmits, fun e he => absurd he List.not_mem_nil⟩
      · exact hrunning k q hq
    | @act i p e rest hp hact hbefore =>
      obtain ⟨hmeets, -, -, hrec, hsafe⟩ := hc₁.act (.act hp hact hbefore)
      obtain ⟨hadmits, hheld⟩ := hrunning i p hp
      have hinv := hc₁.inv
      have hinv' : P.inv e.after := hsafe.inv
      have hI₁ : I e.before := hbefore ▸ hI _ _ hJ₁
      refine ⟨?_, fun k q hq => ?_⟩
      · change J _ e.after
        rw [← hbefore] at hrec hinv hJ₁
        cases e with
        | asked s q a =>
          refine hsilent _ _ _ _ ?_ (P.le_refl _) (.inl rfl) hJ₁
          rintro j began h s s' ⟨⟩
        | ran s s' =>
          exact hran _ _ _ _ _ _ hl hadmits hinv hinv' (P.le_guar hrec hmeets hinv) hrec hheld
            hmeets hJ₁
      · obtain ⟨-, heq⟩ | ⟨-, hq⟩ := Config.running_of_withSlot hq
        · obtain rfl := Option.some.inj heq
          refine ⟨hadmits, fun e' he' => ?_⟩
          obtain rfl | he' := List.mem_cons.1 he'
          · exact hI₁
          · exact hheld e' he'
        · exact hrunning k q hq
    | stop _ _ =>
      refine ⟨hsilent _ _ _ _ ?_ (P.le_refl _) (.inl rfl) hJ₁, fun k q hq => ?_⟩
      · rintro j began h s s' ⟨⟩
      obtain ⟨-, ⟨⟩⟩ | ⟨-, hq⟩ := Config.running_of_withSlot hq
      exact hrunning k q hq
    | @crash i p hp =>
      refine ⟨hsilent _ _ _ _ ?_ (P.le_halt _ _) (.inr (.inr ⟨_, rfl⟩)) hJ₁, fun k q hq => ?_⟩
      · rintro j began h s s' ⟨⟩
      obtain ⟨-, ⟨⟩⟩ | ⟨-, hq⟩ := Config.running_of_withSlot hq
      exact hrunning k q hq

end Machine

end Concurrent

end PreCommunity
