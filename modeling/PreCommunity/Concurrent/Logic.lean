import PreCommunity.Concurrent.Program

/-!
# A rely-guarantee logic for sequential programs

A process is proved correct alone, against a `Discipline`: what the others may do between two of
its actions (`rely`), an invariant of the shared state, and what the process itself may do given
what it did before (`guar` for its transactions, `asks` for its questions).

* `Program.wp` : the weakest precondition of a program.
* `Routine.wp` : the same for programs with a private memory and exceptions, with one rule for every
  way of building a routine.
* `Discipline.Stable` : assertions that the others cannot break.
* `Program.Exec.sound`, `Program.Exec.along` : executions end in the postcondition, and what holds
  along them.
-/

namespace PreCommunity

namespace Concurrent

/-- What a process may assume and has to guarantee while it runs among others. -/
structure Discipline (σ : Type) {Ask : Type} (Reply : Ask → Type) (ε : Type) where
  /-- Holds of the shared state between any two actions. -/
  inv : σ → Prop
  /-- What the others may do between two actions of the process. -/
  rely : σ → σ → Prop
  /-- The answers the outside world may give. -/
  answers : σ → (q : Ask) → Except ε (Reply q) → Prop
  /-- What the process may do in one transaction, given what it did before. -/
  guar : History σ Reply ε → σ → σ → Prop
  /-- What the process may ask, given what it did before. -/
  asks : History σ Reply ε → σ → Ask → Prop
  rely_refl (s : σ) : rely s s
  rely_trans {s s₁ s₂ : σ} : rely s s₁ → rely s₁ s₂ → rely s s₂
  guar_refl (h : History σ Reply ε) (s : σ) : guar h s s

variable {μ σ Ask : Type} {Reply : Ask → Type} {ε α β γ : Type}

namespace Program

/-- From `s`, having done `h`, the program keeps to the discipline whatever the others do, and if
it ends, it ends in `post`. -/
def wp (D : Discipline σ Reply ε) (post : α → History σ Reply ε → σ → Prop) :
    Program σ Reply ε α → History σ Reply ε → σ → Prop
  | done a, h, s => post a h s
  | ask q k, h, s => ∀ s₁, D.rely s s₁ → D.inv s₁ → D.asks h s₁ q ∧
      ∀ a, D.answers s₁ q a → (k a).wp D post (.asked s₁ q a :: h) s₁
  | run t lost k, h, s => ∀ s₁, D.rely s s₁ → D.inv s₁ →
      (k (.error lost)).wp D post (.ran s₁ s₁ :: h) s₁ ∧
      ∀ b s₂, t s₁ = some (b, s₂) → D.guar h s₁ s₂ ∧
        (k b).wp D post (.ran s₁ s₂ :: h) s₂ ∧ (k (.error lost)).wp D post (.ran s₁ s₂ :: h) s₂

variable {D : Discipline σ Reply ε}

theorem wp_bind (p : Program σ Reply ε α) (f : α → Program σ Reply ε β)
    (post : β → History σ Reply ε → σ → Prop) (h : History σ Reply ε) (s : σ) :
    (p.bind f).wp D post h s ↔ p.wp D (fun a h s => (f a).wp D post h s) h s := by
  induction p generalizing h s with
  | done a => rfl
  | ask q k ih => simp only [bind, wp, ih]
  | run t lost k ih => simp only [bind, wp, ih]

theorem wp_mono {p : Program σ Reply ε α} {post post' : α → History σ Reply ε → σ → Prop}
    (hpost : ∀ a h s, post a h s → post' a h s) {h : History σ Reply ε} {s : σ}
    (hp : p.wp D post h s) : p.wp D post' h s := by
  induction p generalizing h s with
  | done a => exact hpost _ _ _ hp
  | ask q k ih =>
    intro s₁ hrely hinv
    exact ⟨(hp s₁ hrely hinv).1, fun a ha => ih a ((hp s₁ hrely hinv).2 a ha)⟩
  | run t lost k ih =>
    intro s₁ hrely hinv
    obtain ⟨hlost, hrun⟩ := hp s₁ hrely hinv
    refine ⟨ih _ hlost, fun b s₂ ht => ?_⟩
    obtain ⟨hguar, hk, hunheard⟩ := hrun b s₂ ht
    exact ⟨hguar, ih _ hk, ih _ hunheard⟩

/-- A discipline that assumes more and promises no more. -/
theorem wp_of_discipline {D' : Discipline σ Reply ε}
    (hrely : ∀ s s', D'.rely s s' → D.rely s s') (hinv : ∀ s, D'.inv s → D.inv s)
    (hanswers : ∀ s q a, D'.answers s q a → D.answers s q a)
    (hguar : ∀ h s s', D.guar h s s' → D'.guar h s s')
    (hasks : ∀ h s q, D.asks h s q → D'.asks h s q) {p : Program σ Reply ε α}
    {post : α → History σ Reply ε → σ → Prop} {h : History σ Reply ε} {s : σ}
    (hp : p.wp D post h s) : p.wp D' post h s := by
  induction p generalizing h s with
  | done a => exact hp
  | ask q k ih =>
    intro s₁ h₁ hi
    obtain ⟨hask, hk⟩ := hp s₁ (hrely _ _ h₁) (hinv _ hi)
    exact ⟨hasks _ _ _ hask, fun a ha => ih a (hk a (hanswers _ _ _ ha))⟩
  | run t lost k ih =>
    intro s₁ h₁ hi
    obtain ⟨hlost, hrun⟩ := hp s₁ (hrely _ _ h₁) (hinv _ hi)
    refine ⟨ih _ hlost, fun b s₂ ht => ?_⟩
    obtain ⟨hg, hk, hunheard⟩ := hrun b s₂ ht
    exact ⟨hguar _ _ _ hg, ih _ hk, ih _ hunheard⟩

/-- A program only adds to what it did. -/
theorem wp_hist {p : Program σ Reply ε α} {post : α → History σ Reply ε → σ → Prop}
    {h : History σ Reply ε} {s : σ} (hp : p.wp D post h s) :
    p.wp D (fun a h' s' => post a h' s' ∧ h <:+ h') h s := by
  induction p generalizing h s with
  | done a => exact ⟨hp, List.suffix_rfl⟩
  | ask q k ih =>
    intro s₁ hrely hinv
    refine ⟨(hp s₁ hrely hinv).1, fun a ha => ?_⟩
    exact wp_mono (fun _ _ _ hpost => ⟨hpost.1, (List.suffix_cons _ _).trans hpost.2⟩)
      (ih a ((hp s₁ hrely hinv).2 a ha))
  | run t lost k ih =>
    intro s₁ hrely hinv
    obtain ⟨hlost, hrun⟩ := hp s₁ hrely hinv
    have hadd : ∀ {b : Except ε _} {s' s'' : σ}, (k b).wp D post (.ran s₁ s' :: h) s'' →
        (k b).wp D (fun a h' s' => post a h' s' ∧ h <:+ h') (.ran s₁ s' :: h) s'' := fun hk =>
      wp_mono (fun _ _ _ hpost => ⟨hpost.1, (List.suffix_cons _ _).trans hpost.2⟩) (ih _ hk)
    refine ⟨hadd hlost, fun b s₂ ht => ?_⟩
    obtain ⟨hguar, hk, hunheard⟩ := hrun b s₂ ht
    exact ⟨hguar, hadd hk, hadd hunheard⟩

/-- What the discipline asks of one action. -/
def Meets (D : Discipline σ Reply ε) (h : History σ Reply ε) : Event σ Reply ε → Prop
  | .asked s q _ => D.asks h s q
  | .ran s s' => D.guar h s s'

/-- **One action.**  It keeps to the discipline and leaves a program that does. -/
theorem wp_act {post : α → History σ Reply ε → σ → Prop} {p p' : Program σ Reply ε α}
    {e : Event σ Reply ε} {s : σ} {h : History σ Reply ε} (hp : p.wp D post h s)
    (hact : Act D.answers p e p') (hrely : D.rely s e.before) (hinv : D.inv e.before) :
    Meets D h e ∧ p'.wp D post (e :: h) e.after := by
  cases hact with
  | ask ha => exact ⟨(hp _ hrely hinv).1, (hp _ hrely hinv).2 _ ha⟩
  | run ht =>
    obtain ⟨hguar, hk, -⟩ := (hp _ hrely hinv).2 _ _ ht
    exact ⟨hguar, hk⟩
  | lost => exact ⟨D.guar_refl _ _, (hp _ hrely hinv).1⟩
  | unheard ht =>
    obtain ⟨hguar, -, hk⟩ := (hp _ hrely hinv).2 _ _ ht
    exact ⟨hguar, hk⟩

/-- **Executions** end in the postcondition, up to a last interference. -/
theorem Exec.sound {interf : σ → σ → Prop} (hinterf : ∀ s s', interf s s' → D.rely s s' ∧ D.inv s')
    {post : α → History σ Reply ε → σ → Prop} {p : Program σ Reply ε α} {r : α} {s s' : σ}
    {h h' : History σ Reply ε} (hexec : Exec D.answers interf p s h r s' h')
    (hp : p.wp D post h s) : ∃ s₁, post r h' s₁ ∧ D.rely s₁ s' ∧ D.inv s' := by
  induction hexec with
  | done hi => exact ⟨_, hp, hinterf _ _ hi⟩
  | act hi hact _ ih =>
    obtain ⟨hrely, hinv⟩ := hinterf _ _ hi
    exact ih (wp_act hp hact hrely hinv).2

/-- What holds of the log and the shared state along an execution. -/
theorem Exec.along {interf : σ → σ → Prop} (hinterf : ∀ s s', interf s s' → D.rely s s' ∧ D.inv s')
    {J : History σ Reply ε → σ → Prop} (hJ : ∀ h s s', J h s → interf s s' → J h s')
    (hact : ∀ h e s, interf s e.before → J h e.before → Meets D h e →
      (∀ s q a, e = .asked s q a → D.answers s q a) → J (e :: h) e.after)
    {post : α → History σ Reply ε → σ → Prop} {p : Program σ Reply ε α} {r : α} {s s' : σ}
    {h h' : History σ Reply ε} (hexec : Exec D.answers interf p s h r s' h')
    (hp : p.wp D post h s) (hs : J h s) : J h' s' := by
  induction hexec with
  | done hi => exact hJ _ _ _ hs hi
  | @act p p' e r s s' h h' hi hstep _ ih =>
    obtain ⟨hrely, hinv⟩ := hinterf _ _ hi
    obtain ⟨hmeets, hp'⟩ := wp_act hp hstep hrely hinv
    refine ih hp' (hact h e _ hi (hJ _ _ _ hs hi) hmeets ?_)
    rintro s q a rfl
    exact hstep.answers

end Program

/-! ### Routines -/

/-- What a routine can see: its memory, what it did so far, and the shared state. -/
structure View (μ σ : Type) {Ask : Type} (Reply : Ask → Type) (ε : Type) where
  /-- The private memory. -/
  memory : μ
  /-- What the routine did so far. -/
  hist : History σ Reply ε
  /-- The shared state. -/
  shared : σ

namespace View

/-- The view after the question `q` was answered by `a` in state `s`. -/
def asked (v : View μ σ Reply ε) (s : σ) (q : Ask) (a : Except ε (Reply q)) : View μ σ Reply ε :=
  ⟨v.memory, .asked s q a :: v.hist, s⟩

/-- The view after a transaction from `s` to `s'`. -/
def ran (v : View μ σ Reply ε) (s s' : σ) : View μ σ Reply ε :=
  ⟨v.memory, .ran s s' :: v.hist, s'⟩

/-- The view with another memory. -/
def withMemory (v : View μ σ Reply ε) (m : μ) : View μ σ Reply ε :=
  ⟨m, v.hist, v.shared⟩

variable (v : View μ σ Reply ε) (s s' : σ) (q : Ask) (a : Except ε (Reply q)) (m : μ)

@[simp] theorem asked_memory : (v.asked s q a).memory = v.memory := rfl
@[simp] theorem asked_hist : (v.asked s q a).hist = .asked s q a :: v.hist := rfl
@[simp] theorem asked_shared : (v.asked s q a).shared = s := rfl
@[simp] theorem ran_memory : (v.ran s s').memory = v.memory := rfl
@[simp] theorem ran_hist : (v.ran s s').hist = .ran s s' :: v.hist := rfl
@[simp] theorem ran_shared : (v.ran s s').shared = s' := rfl
@[simp] theorem withMemory_memory : (v.withMemory m).memory = m := rfl
@[simp] theorem withMemory_hist : (v.withMemory m).hist = v.hist := rfl
@[simp] theorem withMemory_shared : (v.withMemory m).shared = v.shared := rfl

end View

namespace Discipline

/-- An assertion that survives the others and the questions of the routine itself. -/
structure Stable (D : Discipline σ Reply ε) (P : View μ σ Reply ε → Prop) : Prop where
  asked {v : View μ σ Reply ε} {s : σ} (q : Ask) (a : Except ε (Reply q)) :
    P v → D.rely v.shared s → D.inv s → P (v.asked s q a)
  ran {v : View μ σ Reply ε} {s : σ} :
    P v → D.rely v.shared s → D.inv s → P (v.ran s s)

end Discipline

namespace Routine

/-- The weakest precondition of a routine: `Q` of its result, `E` of its exceptions. -/
def wp (D : Discipline σ Reply ε) (p : Routine μ σ Reply ε α) (Q : α → View μ σ Reply ε → Prop)
    (E : ε → View μ σ Reply ε → Prop) (v : View μ σ Reply ε) : Prop :=
  (ExceptT.run p v.memory).wp D (fun r h s => match r with
    | (.ok a, m) => Q a ⟨m, h, s⟩
    | (.error e, m) => E e ⟨m, h, s⟩) v.hist v.shared

variable {D : Discipline σ Reply ε} {Q : α → View μ σ Reply ε → Prop}
  {E : ε → View μ σ Reply ε → Prop} {v : View μ σ Reply ε}

theorem wp_bind (p : Routine μ σ Reply ε α) (f : α → Routine μ σ Reply ε β)
    {Q : β → View μ σ Reply ε → Prop} :
    wp D (p >>= f) Q E v ↔ wp D p (fun a v => wp D (f a) Q E v) E v := by
  have hbind : ExceptT.run (p >>= f) v.memory =
      (ExceptT.run p v.memory).bind fun r => match r with
        | (.ok a, m) => ExceptT.run (f a) m
        | (.error e, m) => .done (.error e, m) := by
    change (ExceptT.run p v.memory).bind _ = _
    congr 1
    funext r
    rcases r with ⟨_ | _, m⟩ <;> rfl
  unfold wp
  rw [hbind, Program.wp_bind]
  constructor <;> refine Program.wp_mono ?_ <;> rintro ⟨_ | _, m⟩ h s hr <;> exact hr

theorem wp_tryCatch (p : Routine μ σ Reply ε α) (f : ε → Routine μ σ Reply ε α) :
    wp D (tryCatch p f) Q E v ↔ wp D p Q (fun e v => wp D (f e) Q E v) v := by
  have hcatch : ExceptT.run (tryCatch p f) v.memory =
      (ExceptT.run p v.memory).bind fun r => match r with
        | (.ok a, m) => .done (.ok a, m)
        | (.error e, m) => ExceptT.run (f e) m := by
    change (ExceptT.run p v.memory).bind _ = _
    congr 1
    funext r
    rcases r with ⟨_ | _, m⟩ <;> rfl
  unfold wp
  rw [hcatch, Program.wp_bind]
  constructor <;> refine Program.wp_mono ?_ <;> rintro ⟨_ | _, m⟩ h s hr <;> exact hr

theorem wp_mono {p : Routine μ σ Reply ε α} {Q' : α → View μ σ Reply ε → Prop}
    {E' : ε → View μ σ Reply ε → Prop} (hp : wp D p Q E v) (hQ : ∀ a v, Q a v → Q' a v)
    (hE : ∀ e v, E e v → E' e v) : wp D p Q' E' v := by
  refine Program.wp_mono ?_ hp
  rintro ⟨_ | _, m⟩ h s hr
  · exact hE _ _ hr
  · exact hQ _ _ hr

/-- A routine only adds to what it did. -/
theorem wp_hist {p : Routine μ σ Reply ε α} (hp : wp D p Q E v) :
    wp D p (fun a v' => Q a v' ∧ v.hist <:+ v'.hist) (fun e v' => E e v' ∧ v.hist <:+ v'.hist)
      v := by
  refine Program.wp_mono ?_ (Program.wp_hist hp)
  rintro ⟨_ | _, m⟩ h s hr
  · exact hr
  · exact hr

/-- Sequencing through a specification of the first part. -/
theorem wp_seq {p : Routine μ σ Reply ε α} {f : α → Routine μ σ Reply ε β}
    {R : α → View μ σ Reply ε → Prop} {Q : β → View μ σ Reply ε → Prop}
    {E' : ε → View μ σ Reply ε → Prop} (hp : wp D p R E' v)
    (hf : ∀ a v, R a v → wp D (f a) Q E v) (hE : ∀ e v, E' e v → E e v) :
    wp D (p >>= f) Q E v :=
  (wp_bind p f).2 (wp_mono hp hf hE)

theorem wp_get {Q : μ → View μ σ Reply ε → Prop} :
    wp D (get : Routine μ σ Reply ε μ) Q E v ↔ Q v.memory v := Iff.rfl

theorem wp_set (m : μ) {Q : PUnit → View μ σ Reply ε → Prop} :
    wp D (set m : Routine μ σ Reply ε PUnit) Q E v ↔ Q ⟨⟩ (v.withMemory m) := Iff.rfl

theorem wp_modify (f : μ → μ) {Q : PUnit → View μ σ Reply ε → Prop} :
    wp D (modify f : Routine μ σ Reply ε PUnit) Q E v ↔ Q ⟨⟩ (v.withMemory (f v.memory)) := Iff.rfl

/-! ### Actions -/

theorem wp_ask {q : Ask} {Q : Reply q → View μ σ Reply ε → Prop}
    (hq : ∀ s, D.rely v.shared s → D.inv s → D.asks v.hist s q ∧
      (∀ r, D.answers s q (.ok r) → Q r (v.asked s q (.ok r))) ∧
      ∀ e, D.answers s q (.error e) → E e (v.asked s q (.error e))) :
    wp D (ask q) Q E v := by
  intro s hrely hinv
  obtain ⟨hasks, hok, herror⟩ := hq s hrely hinv
  refine ⟨hasks, fun a ha => ?_⟩
  cases a with
  | ok r => exact hok r ha
  | error e => exact herror e ha

theorem wp_await {lost : ε} {t : σ → Option (Except ε β × σ)} {Q : β → View μ σ Reply ε → Prop}
    (hlost : ∀ s, D.rely v.shared s → D.inv s → E lost (v.ran s s))
    (hrun : ∀ s b s', D.rely v.shared s → D.inv s → t s = some (.ok b, s') →
      D.guar v.hist s s' ∧ Q b (v.ran s s') ∧ E lost (v.ran s s'))
    (habort : ∀ s e s', D.rely v.shared s → D.inv s → t s = some (.error e, s') →
      D.guar v.hist s s' ∧ E e (v.ran s s') ∧ E lost (v.ran s s')) :
    wp D (await lost t) Q E v := by
  intro s hrely hinv
  refine ⟨hlost s hrely hinv, fun b s' ht => ?_⟩
  cases b with
  | ok b => exact hrun s b s' hrely hinv ht
  | error e => exact habort s e s' hrely hinv ht

theorem wp_atomically {lost : ε} {t : σ → Except ε β × σ} {Q : β → View μ σ Reply ε → Prop}
    (hlost : ∀ s, D.rely v.shared s → D.inv s → E lost (v.ran s s))
    (hrun : ∀ s b s', D.rely v.shared s → D.inv s → t s = (.ok b, s') →
      D.guar v.hist s s' ∧ Q b (v.ran s s') ∧ E lost (v.ran s s'))
    (habort : ∀ s e s', D.rely v.shared s → D.inv s → t s = (.error e, s') →
      D.guar v.hist s s' ∧ E e (v.ran s s') ∧ E lost (v.ran s s')) :
    wp D (atomically lost t) Q E v :=
  wp_await hlost (fun s b s' hrely hinv ht => hrun s b s' hrely hinv (Option.some.inj ht))
    fun s e s' hrely hinv ht => habort s e s' hrely hinv (Option.some.inj ht)

theorem wp_transact {δ : Type} {lost : ε} {put : σ → δ → σ} {t : σ → Except ε (δ × β)}
    {Q : β → View μ σ Reply ε → Prop}
    (hlost : ∀ s, D.rely v.shared s → D.inv s → E lost (v.ran s s))
    (hrun : ∀ s d b, D.rely v.shared s → D.inv s → t s = .ok (d, b) →
      D.guar v.hist s (put s d) ∧ Q b (v.ran s (put s d)) ∧ E lost (v.ran s (put s d)))
    (habort : ∀ s e, D.rely v.shared s → D.inv s → t s = .error e → E e (v.ran s s)) :
    wp D (transact lost put t) Q E v := by
  refine wp_atomically hlost ?_ ?_
  · intro s b s' hrely hinv ht
    split at ht
    · obtain ⟨hb, rfl⟩ := Prod.mk.inj ht
      obtain rfl := Except.ok.inj hb
      exact hrun _ _ _ hrely hinv ‹_›
    · cases (Prod.mk.inj ht).1
  · intro s e s' hrely hinv ht
    split at ht
    · cases (Prod.mk.inj ht).1
    · obtain ⟨he, rfl⟩ := Prod.mk.inj ht
      obtain rfl := Except.error.inj he
      exact ⟨D.guar_refl _ _, habort _ _ hrely hinv ‹_›, hlost _ hrely hinv⟩

theorem wp_attempt {x : Except ε α} {Q : α → View μ σ Reply ε → Prop}
    (hok : ∀ a, x = .ok a → Q a v) (herror : ∀ e, x = .error e → E e v) :
    wp D (attempt x) Q E v := by
  cases x with
  | ok a => exact hok a rfl
  | error e => exact herror e rfl

theorem wp_read {lost : ε} {f : σ → β} {Q : β → View μ σ Reply ε → Prop}
    (h : ∀ s, D.rely v.shared s → D.inv s → Q (f s) (v.ran s s) ∧ E lost (v.ran s s)) :
    wp D (read lost f) Q E v := by
  refine wp_atomically (fun s hrely hinv => (h s hrely hinv).2) ?_ ?_
  · rintro s b s' hrely hinv ht
    obtain ⟨rfl, rfl⟩ : f s = b ∧ s = s' := by simpa using ht
    exact ⟨D.guar_refl _ _, h s hrely hinv⟩
  · rintro s e s' hrely hinv ht
    simp at ht

theorem wp_write {lost : ε} {f : σ → σ} {Q : Unit → View μ σ Reply ε → Prop}
    (hlost : ∀ s, D.rely v.shared s → D.inv s → E lost (v.ran s s))
    (h : ∀ s, D.rely v.shared s → D.inv s →
      D.guar v.hist s (f s) ∧ Q () (v.ran s (f s)) ∧ E lost (v.ran s (f s))) :
    wp D (write lost f) Q E v := by
  refine wp_atomically hlost ?_ ?_
  · rintro s b s' hrely hinv ht
    obtain ⟨-, rfl⟩ : () = b ∧ f s = s' := by simpa using ht
    exact h s hrely hinv
  · rintro s e s' hrely hinv ht
    simp at ht

/-! ### Loops and branches -/

/-- **Loops.**  `I rest b` holds before the body runs for the head of `rest`. -/
theorem wp_forIn {xs : List α} {b : β} {f : α → β → Routine μ σ Reply ε (ForInStep β)}
    (I : List α → β → View μ σ Reply ε → Prop) {Q : β → View μ σ Reply ε → Prop}
    (hstep : ∀ x rest b v, I (x :: rest) b v → wp D (f x b) (fun r v => match r with
      | .yield b => I rest b v
      | .done b => Q b v) E v)
    (hdone : ∀ b v, I [] b v → Q b v) (hI : I xs b v) : wp D (forIn xs b f) Q E v := by
  induction xs generalizing b v with
  | nil => exact hdone b v hI
  | cons x rest ih =>
    rw [List.forIn_cons, wp_bind]
    refine wp_mono (hstep x rest b v hI) ?_ fun _ _ h => h
    rintro (b | b) v hr
    · exact hr
    · exact ih hr

theorem wp_ite {c : Prop} [Decidable c] {p p' : Routine μ σ Reply ε α}
    (hp : c → wp D p Q E v) (hp' : ¬c → wp D p' Q E v) : wp D (if c then p else p') Q E v := by
  by_cases h : c
  · rw [if_pos h]; exact hp h
  · rw [if_neg h]; exact hp' h

theorem wp_silently {p : Routine μ σ Reply ε α} {m : μ} {h : History σ Reply ε} {s : σ}
    (hp : wp D p Q E ⟨m, h, s⟩) : (p.silently m).wp D (fun _ _ _ => True) h s := by
  unfold silently start
  rw [Program.wp_bind, Program.wp_bind]
  exact Program.wp_mono (fun _ _ _ _ => trivial) hp

end Routine

/-! ### Assertions that the others cannot break -/

namespace Discipline.Stable

open PreCommunity.Concurrent.Routine

variable {D : Discipline σ Reply ε} {P : View μ σ Reply ε → Prop} {v : View μ σ Reply ε}
  {E : ε → View μ σ Reply ε → Prop}

/-- Ask a question while `P` holds. -/
theorem ask (hP : D.Stable P) (hv : P v) {q : Ask} {Q : Reply q → View μ σ Reply ε → Prop}
    (hasks : ∀ s, D.rely v.shared s → D.inv s → D.asks v.hist s q)
    (hQ : ∀ r s, D.rely v.shared s → D.inv s → D.answers s q (.ok r) → P (v.asked s q (.ok r)) →
      Q r (v.asked s q (.ok r)))
    (hE : ∀ e v, P v → E e v) : wp D (Routine.ask q) Q E v :=
  wp_ask fun s hrely hinv => ⟨hasks s hrely hinv,
    fun r hr => hQ r s hrely hinv hr (hP.asked q _ hv hrely hinv),
    fun e _ => hE e _ (hP.asked q _ hv hrely hinv)⟩

/-- Read the shared state while `P` holds. -/
theorem read (hP : D.Stable P) (hv : P v) {lost : ε} {f : σ → β}
    {Q : β → View μ σ Reply ε → Prop}
    (hQ : ∀ s, D.rely v.shared s → D.inv s → P (v.ran s s) → Q (f s) (v.ran s s))
    (hE : ∀ e v, P v → E e v) : wp D (Routine.read lost f) Q E v :=
  wp_read fun s hrely hinv =>
    ⟨hQ s hrely hinv (hP.ran hv hrely hinv), hE _ _ (hP.ran hv hrely hinv)⟩

end Discipline.Stable

end Concurrent

end PreCommunity
