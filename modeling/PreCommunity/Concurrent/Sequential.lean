import PreCommunity.Concurrent.Program

/-!
# Undisturbed runs

A program whose questions are answered by a table, with nobody else at work and no transaction
lost, has one run.  What a request does to a state and what it answers is read off that run.

* `Program.eval`, `Routine.eval` : the result of the run; `none` when a transaction has to wait.
* `Program.exec_of_eval` : the run is an execution.
* `Routine.eval_bind_ok`, `Routine.ok_of_eval_bind` : sequencing, forwards and backwards.
-/

namespace PreCommunity

namespace Concurrent

variable {μ σ Ask : Type} {Reply : Ask → Type} {ε α β : Type}
  {oracle : σ → (q : Ask) → Except ε (Reply q)}

namespace Program

/-- The result of the undisturbed run from `s`, and the shared state at its end. -/
def eval (oracle : σ → (q : Ask) → Except ε (Reply q)) : Program σ Reply ε α → σ → Option (α × σ)
  | done a, s => some (a, s)
  | ask q k, s => (k (oracle s q)).eval oracle s
  | run t _ k, s => (t s).bind fun r => (k r.1).eval oracle r.2

theorem eval_bind (p : Program σ Reply ε α) (f : α → Program σ Reply ε β) (s : σ) :
    (p.bind f).eval oracle s = (p.eval oracle s).bind fun r => (f r.1).eval oracle r.2 := by
  induction p generalizing s with
  | done a => rfl
  | ask q k ih => exact ih _ s
  | run t lost k ih =>
    simp only [bind, eval, Option.bind_assoc]
    congr 1
    funext r
    exact ih r.1 r.2

/-- **The undisturbed run** is an execution. -/
theorem exec_of_eval {answers : σ → (q : Ask) → Except ε (Reply q) → Prop}
    {interf : σ → σ → Prop} (horacle : ∀ s q, answers s q (oracle s q))
    (hrefl : ∀ s, interf s s) {p : Program σ Reply ε α} {s s' : σ} {a : α}
    (h : p.eval oracle s = some (a, s')) (hist : History σ Reply ε) :
    ∃ hist', Exec answers interf p s hist a s' hist' := by
  induction p generalizing s hist with
  | done b =>
    obtain ⟨rfl, rfl⟩ : b = a ∧ s = s' := by simpa [eval] using h
    exact ⟨hist, .done (hrefl s)⟩
  | ask q k ih =>
    obtain ⟨hist', hexec⟩ := ih _ h (.asked s q (oracle s q) :: hist)
    exact ⟨hist', .act (e := .asked s q (oracle s q)) (hrefl s) (.ask (horacle s q)) hexec⟩
  | run t lost k ih =>
    obtain ⟨⟨b, s₁⟩, ht, h⟩ := Option.bind_eq_some_iff.1 h
    obtain ⟨hist', hexec⟩ := ih b h (.ran s s₁ :: hist)
    exact ⟨hist', .act (e := .ran s s₁) (hrefl s) (.run ht) hexec⟩

end Program

namespace Routine

/-- The undisturbed run of a routine with memory `m`. -/
def eval (oracle : σ → (q : Ask) → Except ε (Reply q)) (p : Routine μ σ Reply ε α) (m : μ)
    (s : σ) : Option ((Except ε α × μ) × σ) :=
  Program.eval oracle (ExceptT.run p m) s

variable {p : Routine μ σ Reply ε α} {f : α → Routine μ σ Reply ε β} {m m' : μ} {s s' : σ}

@[simp] theorem eval_pure (a : α) :
    eval oracle (pure a : Routine μ σ Reply ε α) m s = some ((.ok a, m), s) := rfl

@[simp] theorem eval_throw (e : ε) :
    eval oracle (throw e : Routine μ σ Reply ε α) m s = some ((.error e, m), s) := rfl

@[simp] theorem eval_ask (q : Ask) :
    eval oracle (ask q : Routine μ σ Reply ε (Reply q)) m s = some ((oracle s q, m), s) := rfl

@[simp] theorem eval_read (lost : ε) (g : σ → β) :
    eval oracle (read lost g : Routine μ σ Reply ε β) m s = some ((.ok (g s), m), s) := rfl

@[simp] theorem eval_atomically (lost : ε) (t : σ → Except ε β × σ) :
    eval oracle (atomically lost t : Routine μ σ Reply ε β) m s =
      some (((t s).1, m), (t s).2) := rfl

theorem ok_of_eval_attempt {x : Except ε α} {a : α}
    (h : eval oracle (attempt x) m s = some ((.ok a, m'), s')) : x = .ok a ∧ s = s' := by
  cases x with
  | ok b =>
    simp only [attempt, eval_pure, Option.some.injEq, Prod.mk.injEq, Except.ok.injEq] at h
    exact ⟨congrArg _ h.1.1, h.2⟩
  | error e => simp [attempt] at h

/-- A transaction that succeeds. -/
theorem ok_of_eval_transact {δ : Type} {lost : ε} {put : σ → δ → σ} {t : σ → Except ε (δ × β)}
    {b : β} (h : eval oracle (transact lost put t) m s = some ((.ok b, m'), s')) :
    ∃ d, t s = .ok (d, b) ∧ s' = put s d := by
  simp only [transact, eval_atomically, Option.some.injEq, Prod.mk.injEq] at h
  cases ht : t s with
  | error e => simp [ht] at h
  | ok r =>
    simp only [ht, Except.ok.injEq] at h
    obtain ⟨⟨rfl, -⟩, rfl⟩ := h
    exact ⟨r.1, rfl, rfl⟩

/-- What is left to do after the first part. -/
def continued (f : α → Routine μ σ Reply ε β) :
    Except ε α × μ → Program σ Reply ε (Except ε β × μ)
  | (.ok a, m) => ExceptT.run (f a) m
  | (.error e, m) => .done (.error e, m)

theorem eval_bind : eval oracle (p >>= f) m s =
    (eval oracle p m s).bind fun r => (continued f r.1).eval oracle r.2 := by
  have hbind : ExceptT.run (p >>= f) m = (ExceptT.run p m).bind (continued f) := by
    change (ExceptT.run p m).bind _ = _
    congr 1
    funext r
    rcases r with ⟨_ | _, m⟩ <;> rfl
  unfold eval
  rw [hbind, Program.eval_bind]

theorem eval_bind_ok {a : α} (hp : eval oracle p m s = some ((.ok a, m'), s')) :
    eval oracle (p >>= f) m s = eval oracle (f a) m' s' := by
  rw [eval_bind, hp]
  rfl

/-- A run that succeeds goes through both parts. -/
theorem ok_of_eval_bind {b : β} {m₂ : μ} {s₂ : σ}
    (h : eval oracle (p >>= f) m s = some ((.ok b, m₂), s₂)) :
    ∃ a m₁ s₁, eval oracle p m s = some ((.ok a, m₁), s₁) ∧
      eval oracle (f a) m₁ s₁ = some ((.ok b, m₂), s₂) := by
  rw [eval_bind] at h
  obtain ⟨⟨⟨r, m₁⟩, s₁⟩, hp, hf⟩ := Option.bind_eq_some_iff.1 h
  cases r with
  | ok a => exact ⟨a, m₁, s₁, hp, hf⟩
  | error e => simp [continued, Program.eval] at hf

end Routine

end Concurrent

end PreCommunity
