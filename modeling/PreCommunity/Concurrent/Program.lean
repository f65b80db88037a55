import Mathlib.Logic.Relation

/-!
# Sequential programs over a shared state

A server process alternates between two kinds of action: it *asks* the outside world a question
(a remote call, a clock, a random number) and it *runs* a transaction on a state it shares with
other processes.  Between two actions anything may happen to the shared state.

`Program σ Reply ε α` is the tree of such actions ending in a result of type `α`.  A transaction
is a function `σ → Option (Except ε β × σ)`: `none` means that it has to wait (a lock is held),
an error result means that it rolled itself back.  A question is answered by
`Except ε (Reply q)`, so every remote call may fail.  A transaction may be lost without effect, or
commit while its answer is lost; the program sees the same error either way.

* `Routine μ σ Reply ε α` : programs with a private memory `μ` and exceptions `ε`; the monad in
  which source code is transcribed (`try`/`catch`, `for`, early results).
* `Event`, `History` : what a process did, with the shared state at that moment.
* `Program.Act`, `Program.Exec` : one action, and executions of a program while the environment
  interferes.
* `Program.act?` : the next action against a table of answers.
-/

namespace PreCommunity

namespace Concurrent

/-- A program over the shared state `σ`: questions `q : Ask` are answered by
`Except ε (Reply q)`. -/
inductive Program (σ : Type) {Ask : Type} (Reply : Ask → Type) (ε α : Type) : Type 1 where
  /-- The program has ended with `a`. -/
  | done (a : α)
  /-- Ask `q` and continue with the answer. -/
  | ask (q : Ask) (next : Except ε (Reply q) → Program σ Reply ε α)
  /-- Run the transaction `t`; `lost` is what the program sees when the call fails. -/
  | run {β : Type} (t : σ → Option (Except ε β × σ)) (lost : ε)
      (next : Except ε β → Program σ Reply ε α)

/-- One action of a process, with the shared state at that moment. -/
inductive Event (σ : Type) {Ask : Type} (Reply : Ask → Type) (ε : Type) where
  /-- In state `s` the process asked `q` and was answered `a`. -/
  | asked (s : σ) (q : Ask) (a : Except ε (Reply q))
  /-- A transaction took the shared state from `s` to `s'`. -/
  | ran (s s' : σ)

/-- What a process has done so far, the newest action first. -/
abbrev History (σ : Type) {Ask : Type} (Reply : Ask → Type) (ε : Type) := List (Event σ Reply ε)

namespace Event

variable {σ Ask : Type} {Reply : Ask → Type} {ε : Type}

/-- The shared state just before the action. -/
def before : Event σ Reply ε → σ
  | asked s _ _ => s
  | ran s _ => s

/-- The shared state just after the action. -/
def after : Event σ Reply ε → σ
  | asked s _ _ => s
  | ran _ s' => s'

@[simp] theorem before_asked (s : σ) (q : Ask) (a : Except ε (Reply q)) :
    (asked s q a).before = s := rfl
@[simp] theorem after_asked (s : σ) (q : Ask) (a : Except ε (Reply q)) :
    (asked s q a).after = s := rfl
@[simp] theorem before_ran (s s' : σ) : (ran s s' : Event σ Reply ε).before = s := rfl
@[simp] theorem after_ran (s s' : σ) : (ran s s' : Event σ Reply ε).after = s' := rfl

end Event

namespace Program

variable {σ Ask : Type} {Reply : Ask → Type} {ε α β γ : Type}

/-- Sequencing. -/
def bind : Program σ Reply ε α → (α → Program σ Reply ε β) → Program σ Reply ε β
  | done a, f => f a
  | ask q k, f => ask q fun a => (k a).bind f
  | run t lost k, f => run t lost fun b => (k b).bind f

instance : Monad (Program σ Reply ε) where
  pure := done
  bind := bind

/-- One action `e` of a program, which is left with the program on the right. -/
inductive Act (answers : σ → (q : Ask) → Except ε (Reply q) → Prop) :
    Program σ Reply ε α → Event σ Reply ε → Program σ Reply ε α → Prop where
  | ask {q : Ask} {k : Except ε (Reply q) → Program σ Reply ε α} {a : Except ε (Reply q)} {s : σ} :
      answers s q a → Act answers (ask q k) (.asked s q a) (k a)
  | run {β : Type} {t : σ → Option (Except ε β × σ)} {lost : ε}
      {k : Except ε β → Program σ Reply ε α} {b : Except ε β} {s s' : σ} :
      t s = some (b, s') → Act answers (run t lost k) (.ran s s') (k b)
  | lost {β : Type} {t : σ → Option (Except ε β × σ)} {lost : ε}
      {k : Except ε β → Program σ Reply ε α} {s : σ} :
      Act answers (run t lost k) (.ran s s) (k (.error lost))
  | unheard {β : Type} {t : σ → Option (Except ε β × σ)} {lost : ε}
      {k : Except ε β → Program σ Reply ε α} {b : Except ε β} {s s' : σ} :
      t s = some (b, s') → Act answers (run t lost k) (.ran s s') (k (.error lost))

theorem Act.answers {ans : σ → (q : Ask) → Except ε (Reply q) → Prop}
    {p p' : Program σ Reply ε α} {s : σ} {q : Ask} {a : Except ε (Reply q)}
    (h : Act ans p (.asked s q a) p') : ans s q a := by
  cases h with
  | ask h => exact h

/-- A transaction takes its step or leaves the shared state alone. -/
theorem Act.ran {ans : σ → (q : Ask) → Except ε (Reply q) → Prop}
    {t : σ → Option (Except ε β × σ)} {lost : ε} {k : Except ε β → Program σ Reply ε α} {s s' : σ}
    {p' : Program σ Reply ε α} (h : Act ans (Program.run t lost k) (.ran s s') p') :
    s' = s ∨ ∃ b, t s = some (b, s') := by
  cases h with
  | run ht => exact .inr ⟨_, ht⟩
  | lost => exact .inl rfl
  | unheard ht => exact .inr ⟨_, ht⟩

/-- Executions of a program whose environment may take the shared state from `s` to `s'` before
every action and at the end whenever `interf s s'`. -/
inductive Exec (answers : σ → (q : Ask) → Except ε (Reply q) → Prop) (interf : σ → σ → Prop) :
    Program σ Reply ε α → σ → History σ Reply ε → α → σ → History σ Reply ε → Prop where
  | done {a : α} {s s' : σ} {h : History σ Reply ε} :
      interf s s' → Exec answers interf (done a) s h a s' h
  | act {p p' : Program σ Reply ε α} {e : Event σ Reply ε} {r : α} {s s' : σ}
      {h h' : History σ Reply ε} :
      interf s e.before → Act answers p e p' → Exec answers interf p' e.after (e :: h) r s' h' →
      Exec answers interf p s h r s' h'

/-- The next action when questions are answered by `oracle` and no transaction is lost; `none` at
the end, and when a transaction has to wait. -/
def act? (oracle : σ → (q : Ask) → Except ε (Reply q)) (s : σ) :
    Program σ Reply ε α → Option (Event σ Reply ε × Program σ Reply ε α)
  | done _ => none
  | ask q k => some (.asked s q (oracle s q), k (oracle s q))
  | run t _ k => (t s).map fun r => (.ran s r.2, k r.1)

theorem act_of_act? {answers : σ → (q : Ask) → Except ε (Reply q) → Prop}
    {oracle : σ → (q : Ask) → Except ε (Reply q)} (horacle : ∀ s q, answers s q (oracle s q))
    {s : σ} {p p' : Program σ Reply ε α} {e : Event σ Reply ε}
    (h : p.act? oracle s = some (e, p')) : Act answers p e p' ∧ e.before = s := by
  cases p with
  | done a => simp [act?] at h
  | ask q k =>
    simp only [act?, Option.some.injEq, Prod.mk.injEq] at h
    obtain ⟨rfl, rfl⟩ := h
    exact ⟨.ask (horacle s q), rfl⟩
  | run t lost k =>
    simp only [act?, Option.map_eq_some_iff, Prod.mk.injEq] at h
    obtain ⟨⟨b, s'⟩, ht, rfl, rfl⟩ := h
    exact ⟨.run ht, rfl⟩

end Program

/-- Programs with a private memory `μ` and exceptions `ε`. -/
abbrev Routine (μ σ : Type) {Ask : Type} (Reply : Ask → Type) (ε : Type) :=
  ExceptT ε (StateT μ (Program σ Reply ε))

namespace Routine

variable {μ σ Ask : Type} {Reply : Ask → Type} {ε α β : Type}

/-- Ask a question; an error answer is thrown. -/
def ask (q : Ask) : Routine μ σ Reply ε (Reply q) :=
  ExceptT.mk fun m => .ask q fun a => .done (a, m)

/-- Run a transaction that may have to wait. -/
def await (lost : ε) (t : σ → Option (Except ε β × σ)) : Routine μ σ Reply ε β :=
  ExceptT.mk fun m => .run t lost fun b => .done (b, m)

/-- Run a transaction. -/
def atomically (lost : ε) (t : σ → Except ε β × σ) : Routine μ σ Reply ε β :=
  await lost fun s => some (t s)

/-- Read the shared state. -/
def read (lost : ε) (f : σ → β) : Routine μ σ Reply ε β :=
  atomically lost fun s => (.ok (f s), s)

/-- Change the shared state. -/
def write (lost : ε) (f : σ → σ) : Routine μ σ Reply ε Unit :=
  atomically lost fun s => (.ok (), f s)

/-- Run a transaction that changes part of the shared state, or fails and changes nothing. -/
def transact {δ : Type} (lost : ε) (put : σ → δ → σ) (t : σ → Except ε (δ × β)) :
    Routine μ σ Reply ε β :=
  atomically lost fun s => match t s with
    | .ok (d, b) => (.ok b, put s d)
    | .error e => (.error e, s)

/-- Go on with a value, or fail. -/
def attempt (x : Except ε α) : Routine μ σ Reply ε α :=
  match x with
  | .ok a => pure a
  | .error e => throw e

/-- The program of a routine started with memory `m`. -/
def start (p : Routine μ σ Reply ε α) (m : μ) : Program σ Reply ε (Except ε α) :=
  (ExceptT.run p m).bind fun r => .done r.1

/-- The program of a routine of which nobody hears the result. -/
def silently (p : Routine μ σ Reply ε α) (m : μ) : Program σ Reply ε Unit :=
  (p.start m).bind fun _ => .done ()

end Routine

end Concurrent

end PreCommunity
