import Mathlib.Data.Nat.Notation
import Mathlib.Logic.Function.Basic
import Mathlib.Tactic.SplitIfs
import PreCommunity.Concurrent.Logic

/-!
# Processes over a shared state

A `Machine` says which programs may run over a shared state: every `Job` has its code and a slot,
and a slot runs one job at a time.  In a step one process does its next action, a job starts,
ends or crashes, or the environment changes the shared state; the order is arbitrary.

* `Machine.Step`, `Machine.Run` : labelled steps, and runs with their list of labels.
* `Machine.Run.recorded` : what a process did is a step of the run.
* `Protocol` : a rely-guarantee argument for a machine, one discipline for each job.
* `Protocol.safe_of_run` : in every reachable configuration every process keeps to its discipline.
* `Protocol.exec_sound` : executions of one process among the others.
* `Protocol.Safe.invariant` : what every allowed transaction preserves holds in every run.
* `Protocol.Safe.along` : the same for runs whose labels meet a condition.
* `Machine.play` : concrete runs.
-/

namespace PreCommunity

namespace Concurrent

/-- The jobs that may run over a shared state. -/
structure Machine (σ : Type) {Ask : Type} (Reply : Ask → Type) (ε Job ι : Type) where
  /-- What a job does. -/
  code : Job → Program σ Reply ε Unit
  /-- Where a job runs. -/
  slot : Job → ι
  /-- When a job may start. -/
  admits : Job → σ → Bool
  /-- The answers the outside world may give. -/
  answers : σ → (q : Ask) → Except ε (Reply q) → Prop
  /-- The changes of the shared state that are no job's doing. -/
  env : σ → σ → Prop
  /-- What becomes of the shared state when a job crashes. -/
  halt : Job → σ → σ

/-- A job that is running. -/
structure Process (σ : Type) {Ask : Type} (Reply : Ask → Type) (ε Job : Type) where
  /-- The job. -/
  job : Job
  /-- The shared state when it started. -/
  began : σ
  /-- What it did so far. -/
  hist : History σ Reply ε
  /-- What it still has to do. -/
  rest : Program σ Reply ε Unit

/-- A shared state and the processes that run over it. -/
structure Config (σ : Type) {Ask : Type} (Reply : Ask → Type) (ε Job ι : Type) where
  /-- The shared state. -/
  shared : σ
  /-- The process in each slot. -/
  running : ι → Option (Process σ Reply ε Job)

/-- What happens in a step; an action comes with what its process did before. -/
inductive Label (σ : Type) {Ask : Type} (Reply : Ask → Type) (ε Job : Type) where
  /-- The environment changes the shared state. -/
  | env
  /-- A job starts. -/
  | start (j : Job)
  /-- The job `j`, which started in `began` and has done `h`, does `e`. -/
  | act (j : Job) (began : σ) (h : History σ Reply ε) (e : Event σ Reply ε)
  /-- A job has ended. -/
  | stop (j : Job)
  /-- A job crashes. -/
  | crash (j : Job)

/-- A step that does not touch the shared state. -/
def Label.Quiet {σ Ask : Type} {Reply : Ask → Type} {ε Job : Type} : Label σ Reply ε Job → Prop
  | start _ | stop _ | act _ _ _ (.asked _ _ _) => True
  | env | crash _ | act _ _ _ (.ran _ _) => False

variable {σ Ask : Type} {Reply : Ask → Type} {ε Job ι : Type} [DecidableEq ι]

namespace Config

/-- Put a process, or none, into the slot `i`. -/
def withSlot (c : Config σ Reply ε Job ι) (i : ι) (p : Option (Process σ Reply ε Job)) :
    Config σ Reply ε Job ι :=
  { c with running := Function.update c.running i p }

/-- Nothing is running. -/
def idle (s : σ) : Config σ Reply ε Job ι := ⟨s, fun _ => none⟩

/-- A process in another slot runs on as it was. -/
theorem running_of_withSlot {c : Config σ Reply ε Job ι} {s : σ} {i k : ι}
    {p : Option (Process σ Reply ε Job)} {q : Process σ Reply ε Job}
    (h : (Config.withSlot { c with shared := s } i p).running k = some q) :
    k = i ∧ p = some q ∨ k ≠ i ∧ c.running k = some q := by
  by_cases hk : k = i
  · subst hk
    exact .inl ⟨rfl, by simpa [Config.withSlot] using h⟩
  · exact .inr ⟨hk, by simpa [Config.withSlot, hk] using h⟩

end Config

namespace Machine

variable (M : Machine σ Reply ε Job ι)

/-- One step of the machine. -/
inductive Step : Config σ Reply ε Job ι → Label σ Reply ε Job → Config σ Reply ε Job ι → Prop where
  | env {c : Config σ Reply ε Job ι} {s : σ} :
      M.env c.shared s → Step c .env { c with shared := s }
  | start {c : Config σ Reply ε Job ι} {j : Job} :
      c.running (M.slot j) = none → M.admits j c.shared →
      Step c (.start j) (c.withSlot (M.slot j) (some ⟨j, c.shared, [], M.code j⟩))
  | act {c : Config σ Reply ε Job ι} {i : ι} {p : Process σ Reply ε Job} {e : Event σ Reply ε}
      {rest : Program σ Reply ε Unit} :
      c.running i = some p → Program.Act M.answers p.rest e rest → e.before = c.shared →
      Step c (.act p.job p.began p.hist e)
        (Config.withSlot { c with shared := e.after } i
          (some { p with hist := e :: p.hist, rest := rest }))
  | stop {c : Config σ Reply ε Job ι} {i : ι} {p : Process σ Reply ε Job} :
      c.running i = some p → p.rest = .done () → Step c (.stop p.job) (c.withSlot i none)
  | crash {c : Config σ Reply ε Job ι} {i : ι} {p : Process σ Reply ε Job} :
      c.running i = some p →
      Step c (.crash p.job) (Config.withSlot { c with shared := M.halt p.job c.shared } i none)

/-- Runs, with their labels in the order in which they happened. -/
inductive Run : Config σ Reply ε Job ι → List (Label σ Reply ε Job) → Config σ Reply ε Job ι →
    Prop where
  | refl {c : Config σ Reply ε Job ι} : Run c [] c
  | step {c c' c'' : Config σ Reply ε Job ι} {ls : List (Label σ Reply ε Job)}
      {l : Label σ Reply ε Job} : Run c ls c' → M.Step c' l c'' → Run c (ls ++ [l]) c''

variable {M}

theorem Run.trans {c c' c'' : Config σ Reply ε Job ι} {ls ls' : List (Label σ Reply ε Job)}
    (h : M.Run c ls c') (h' : M.Run c' ls' c'') : M.Run c (ls ++ ls') c'' := by
  induction h' with
  | refl => simpa using h
  | step _ hstep ih => rw [← List.append_assoc]; exact ih.step hstep

theorem Run.single {c c' : Config σ Reply ε Job ι} {l : Label σ Reply ε Job}
    (h : M.Step c l c') : M.Run c [l] c' := .step .refl h

/-- What it takes for a process to act. -/
theorem Step.of_act {c c' : Config σ Reply ε Job ι} {j : Job} {began : σ} {h : History σ Reply ε}
    {e : Event σ Reply ε} (hstep : M.Step c (.act j began h e) c') : ∃ i p rest,
      c.running i = some p ∧ p.job = j ∧ p.began = began ∧ p.hist = h ∧
      Program.Act M.answers p.rest e rest ∧ e.before = c.shared ∧
      c' = Config.withSlot { c with shared := e.after } i
        (some { p with hist := e :: p.hist, rest := rest }) := by
  cases hstep with
  | act hp hact hbefore => exact ⟨_, _, _, hp, rfl, rfl, rfl, hact, hbefore, rfl⟩

/-- A run in two parts. -/
theorem Run.append {c c' : Config σ Reply ε Job ι} {ls₁ ls₂ : List (Label σ Reply ε Job)}
    (h : M.Run c (ls₁ ++ ls₂) c') : ∃ c₁, M.Run c ls₁ c₁ ∧ M.Run c₁ ls₂ c' := by
  generalize heq : ls₁ ++ ls₂ = ls at h
  induction h generalizing ls₂ with
  | refl =>
    obtain ⟨rfl, rfl⟩ := List.append_eq_nil_iff.1 heq
    exact ⟨c, .refl, .refl⟩
  | step hrun hstep ih =>
    obtain rfl | ⟨ls₃, l, rfl⟩ := List.eq_nil_or_concat ls₂
    · obtain rfl := (List.append_nil _).symm.trans heq
      exact ⟨_, hrun.step hstep, .refl⟩
    · rw [List.concat_eq_append, ← List.append_assoc] at heq
      rw [List.concat_eq_append]
      obtain ⟨rfl, hl⟩ := List.append_inj' heq rfl
      obtain rfl := List.singleton_inj.1 hl
      obtain ⟨c₁, h₁, h₂⟩ := ih rfl
      exact ⟨c₁, h₁, h₂.step hstep⟩

/-- The first step of a run. -/
theorem Run.cons {c c' : Config σ Reply ε Job ι} {l : Label σ Reply ε Job}
    {ls : List (Label σ Reply ε Job)} (h : M.Run c (l :: ls) c') :
    ∃ c₁, M.Step c l c₁ ∧ M.Run c₁ ls c' := by
  have hsplit : M.Run c ([l] ++ ls) c' := h
  obtain ⟨c₁, hfirst, hrest⟩ := hsplit.append
  refine ⟨c₁, ?_, hrest⟩
  generalize heq : [l] = ls' at hfirst
  cases hfirst with
  | refl => cases heq
  | step hrun hstep =>
    obtain ⟨hnil, hl⟩ := List.append_inj' ((List.nil_append [l]).trans heq) rfl
    obtain rfl := List.singleton_inj.1 hl
    cases hrun with
    | refl => exact hstep
    | step _ _ => simp at hnil

/-- **What a process did is a step of the run**: every action in its history. -/
theorem Run.recorded {s : σ} {c : Config σ Reply ε Job ι} {ls : List (Label σ Reply ε Job)}
    (hrun : M.Run (Config.idle s) ls c) {i : ι} {p : Process σ Reply ε Job}
    (hp : c.running i = some p) {e : Event σ Reply ε} {h : History σ Reply ε}
    (he : e :: h <:+ p.hist) : ∃ ls₁ ls₂ c₁ c₂, ls = ls₁ ++ .act p.job p.began h e :: ls₂ ∧
      M.Run (Config.idle s) ls₁ c₁ ∧ M.Step c₁ (.act p.job p.began h e) c₂ ∧ M.Run c₂ ls₂ c := by
  have hlater : ∀ {ls c c' l} {p : Process σ Reply ε Job}, M.Step c l c' →
      (∃ ls₁ ls₂ c₁ c₂, ls = ls₁ ++ .act p.job p.began h e :: ls₂ ∧
        M.Run (Config.idle s) ls₁ c₁ ∧ M.Step c₁ (.act p.job p.began h e) c₂ ∧
          M.Run c₂ ls₂ c) →
      ∃ ls₁ ls₂ c₁ c₂, ls ++ [l] = ls₁ ++ .act p.job p.began h e :: ls₂ ∧
        M.Run (Config.idle s) ls₁ c₁ ∧ M.Step c₁ (.act p.job p.began h e) c₂ ∧
          M.Run c₂ ls₂ c' := by
    rintro ls c c' l p hstep ⟨ls₁, ls₂, c₁, c₂, rfl, hrun₁, hact, hrun₂⟩
    exact ⟨ls₁, ls₂ ++ [l], c₁, c₂, by simp, hrun₁, hact, hrun₂.step hstep⟩
  induction hrun generalizing i p with
  | refl => cases hp
  | @step c₁ c₂ ls l hrun hstep ih =>
    have hbefore : c₁.running i = some p → _ := fun hp' => hlater hstep (ih hp' he)
    cases hstep with
    | env _ => exact hbefore hp
    | start _ _ =>
      obtain ⟨-, heq⟩ | ⟨-, hp'⟩ := Config.running_of_withSlot hp
      · obtain rfl := Option.some.inj heq
        cases List.suffix_nil.1 he
      · exact hbefore hp'
    | @act k q e' rest hq hact hb =>
      obtain ⟨rfl, heq⟩ | ⟨-, hp'⟩ := Config.running_of_withSlot hp
      · obtain rfl := Option.some.inj heq
        obtain heq | hsuffix := List.suffix_cons_iff.1 he
        · -- the last step itself
          obtain ⟨rfl, rfl⟩ := List.cons.inj heq
          exact ⟨ls, [], c₁, _, rfl, hrun, .act hq hact hb, .refl⟩
        · exact hlater (p := q) (.act hq hact hb) (ih hq hsuffix)
      · exact hbefore hp'
    | stop _ _ =>
      obtain ⟨-, ⟨⟩⟩ | ⟨-, hp'⟩ := Config.running_of_withSlot hp
      exact hbefore hp'
    | crash _ =>
      obtain ⟨-, ⟨⟩⟩ | ⟨-, hp'⟩ := Config.running_of_withSlot hp
      exact hbefore hp'

end Machine

/-- What a process recorded really happened, in this order, and before `s`. -/
structure Recorded (inv : σ → Prop) (le : σ → σ → Prop)
    (answers : σ → (q : Ask) → Except ε (Reply q) → Prop) (began : σ) (h : History σ Reply ε)
    (s : σ) : Prop where
  began_le : le began s
  since : ∀ e ∈ h, le began e.before
  until_ : ∀ e ∈ h, le e.after s
  step : ∀ e ∈ h, le e.before e.after
  ordered : h.Pairwise fun e' e => le e.after e'.before
  inv : ∀ e ∈ h, inv e.before
  answered : ∀ s' q a, .asked s' q a ∈ h → answers s' q a

/-- A rely-guarantee argument for a machine. -/
structure Protocol (M : Machine σ Reply ε Job ι) where
  /-- Holds of the shared state in every reachable configuration. -/
  inv : σ → Prop
  /-- What never goes back. -/
  le : σ → σ → Prop
  /-- What the others may do while a job runs. -/
  rely : Job → σ → σ → Prop
  /-- What a job may do in a transaction, given what it did before. -/
  guar : Job → History σ Reply ε → σ → σ → Prop
  /-- What a job may ask, given what it did before. -/
  asks : Job → History σ Reply ε → σ → Ask → Prop
  le_refl (s : σ) : le s s
  le_trans {s s₁ s₂ : σ} : le s s₁ → le s₁ s₂ → le s s₂
  rely_refl (j : Job) (s : σ) : rely j s s
  rely_trans {j : Job} {s s₁ s₂ : σ} : rely j s s₁ → rely j s₁ s₂ → rely j s s₂
  guar_refl (j : Job) (h : History σ Reply ε) (s : σ) : guar j h s s
  inv_guar {j : Job} {began : σ} {h : History σ Reply ε} {s s' : σ} :
    Recorded inv le M.answers began h s → guar j h s s' → inv s → inv s'
  inv_env {s s' : σ} : M.env s s' → inv s → inv s'
  inv_halt {j : Job} {s : σ} : inv s → inv (M.halt j s)
  le_guar {j : Job} {began : σ} {h : History σ Reply ε} {s s' : σ} :
    Recorded inv le M.answers began h s → guar j h s s' → inv s → le s s'
  le_env {s s' : σ} : M.env s s' → le s s'
  le_halt (j : Job) (s : σ) : le s (M.halt j s)
  rely_guar {j k : Job} {began : σ} {h : History σ Reply ε} {s s' : σ} : M.slot j ≠ M.slot k →
    Recorded inv le M.answers began h s → guar k h s s' → inv s → rely j s s'
  rely_env {j : Job} {s s' : σ} : M.env s s' → rely j s s'
  rely_halt {j k : Job} {s : σ} : M.slot j ≠ M.slot k → rely j s (M.halt k s)
  code_safe {j : Job} {s : σ} : M.admits j s → inv s →
    (M.code j).wp
      ⟨inv, rely j, M.answers, guar j, asks j, rely_refl j, rely_trans, guar_refl j⟩
      (fun _ _ _ => True) [] s

namespace Protocol

variable {M : Machine σ Reply ε Job ι} (P : Protocol M)

/-- The discipline of one job. -/
def discipline (j : Job) : Discipline σ Reply ε :=
  ⟨P.inv, P.rely j, M.answers, P.guar j, P.asks j, P.rely_refl j, P.rely_trans, P.guar_refl j⟩

/-- Every process keeps to its discipline from now on, and its records are true. -/
structure Safe (c : Config σ Reply ε Job ι) : Prop where
  inv : P.inv c.shared
  slot : ∀ i p, c.running i = some p → M.slot p.job = i
  recorded : ∀ i p, c.running i = some p →
    Recorded P.inv P.le M.answers p.began p.hist c.shared
  safe : ∀ i p, c.running i = some p → ∃ s, P.rely p.job s c.shared ∧
    p.rest.wp (P.discipline p.job) (fun _ _ _ => True) p.hist s

omit [DecidableEq ι] in
theorem recorded_mono {began s s' : σ} {h : History σ Reply ε}
    (hrec : Recorded P.inv P.le M.answers began h s) (hle : P.le s s') :
    Recorded P.inv P.le M.answers began h s' :=
  { hrec with
    began_le := P.le_trans hrec.began_le hle
    until_ := fun e he => P.le_trans (hrec.until_ e he) hle }

omit [DecidableEq ι] in
/-- One more action is recorded. -/
theorem recorded_act {began : σ} {h : History σ Reply ε} {e : Event σ Reply ε}
    (hrec : Recorded P.inv P.le M.answers began h e.before) (hinv : P.inv e.before)
    (hle : P.le e.before e.after) (hans : ∀ s q a, e = .asked s q a → M.answers s q a) :
    Recorded P.inv P.le M.answers began (e :: h) e.after where
  began_le := P.le_trans hrec.began_le hle
  since e' he' := by
    obtain rfl | he' := List.mem_cons.1 he'
    · exact hrec.began_le
    · exact hrec.since e' he'
  until_ e' he' := by
    obtain rfl | he' := List.mem_cons.1 he'
    · exact P.le_refl _
    · exact P.le_trans (hrec.until_ e' he') hle
  step e' he' := by
    rcases List.mem_cons.1 he' with rfl | he'
    · exact hle
    · exact hrec.step e' he'
  ordered := List.pairwise_cons.2 ⟨fun e' he' => hrec.until_ e' he', hrec.ordered⟩
  inv e' he' := by
    obtain rfl | he' := List.mem_cons.1 he'
    · exact hinv
    · exact hrec.inv e' he'
  answered s' q a he' := by
    obtain heq | he' := List.mem_cons.1 he'
    · exact hans s' q a heq.symm
    · exact hrec.answered s' q a he'

omit [DecidableEq ι] in
theorem recorded_nil (s : σ) : Recorded P.inv P.le M.answers s [] s :=
  ⟨P.le_refl s, by simp, by simp, by simp, .nil, by simp, by simp⟩

variable {P}

/-- The others keep a configuration safe: the shared state moves on and a slot is emptied or
filled. -/
theorem Safe.change {c : Config σ Reply ε Job ι} (hc : P.Safe c) {s : σ} {i : ι}
    {p : Option (Process σ Reply ε Job)} (hinv : P.inv s) (hle : P.le c.shared s)
    (hrely : ∀ j, M.slot j ≠ i → P.rely j c.shared s)
    (hp : ∀ q, p = some q → M.slot q.job = i ∧
      Recorded P.inv P.le M.answers q.began q.hist s ∧
      ∃ s₀, P.rely q.job s₀ s ∧
        q.rest.wp (P.discipline q.job) (fun _ _ _ => True) q.hist s₀) :
    P.Safe (Config.withSlot { c with shared := s } i p) := by
  refine ⟨hinv, fun k q hq => ?_, fun k q hq => ?_, fun k q hq => ?_⟩
  · obtain ⟨rfl, h⟩ | ⟨-, h⟩ := Config.running_of_withSlot hq
    · exact (hp q h).1
    · exact hc.slot k q h
  · obtain ⟨rfl, h⟩ | ⟨-, h⟩ := Config.running_of_withSlot hq
    · exact (hp q h).2.1
    · exact P.recorded_mono (hc.recorded k q h) hle
  · obtain ⟨rfl, h⟩ | ⟨hk, h⟩ := Config.running_of_withSlot hq
    · exact (hp q h).2.2
    · obtain ⟨s₀, hs₀, hwp⟩ := hc.safe k q h
      refine ⟨s₀, P.rely_trans hs₀ (hrely q.job ?_), hwp⟩
      rw [hc.slot k q h]
      exact hk

omit [DecidableEq ι] in
theorem Safe.env {c : Config σ Reply ε Job ι} (hc : P.Safe c) {s : σ} (h : M.env c.shared s) :
    P.Safe { c with shared := s } := by
  refine ⟨P.inv_env h hc.inv, hc.slot, fun i p hp => ?_, fun i p hp => ?_⟩
  · exact P.recorded_mono (hc.recorded i p hp) (P.le_env h)
  · obtain ⟨s₀, hs₀, hwp⟩ := hc.safe i p hp
    exact ⟨s₀, P.rely_trans hs₀ (P.rely_env h), hwp⟩

/-- **What an action may be.**  In a safe configuration every action is one its discipline
allows, and the process's records are true. -/
theorem Safe.act {c c' : Config σ Reply ε Job ι} (hc : P.Safe c) {j : Job} {began : σ}
    {h : History σ Reply ε} {e : Event σ Reply ε} (hstep : M.Step c (.act j began h e) c') :
    Program.Meets (P.discipline j) h e ∧ e.before = c.shared ∧ e.after = c'.shared ∧
      Recorded P.inv P.le M.answers began h c.shared ∧ P.Safe c' := by
  obtain ⟨i, p, rest, hp, rfl, rfl, rfl, hact, hbefore, rfl⟩ := hstep.of_act
  obtain ⟨s₀, hs₀, hwp⟩ := hc.safe i p hp
  have hinv : P.inv e.before := hbefore ▸ hc.inv
  obtain ⟨hmeets, hrest⟩ := Program.wp_act hwp hact (hbefore ▸ hs₀) hinv
  have hrec := hc.recorded i p hp
  have hafter : P.inv e.after ∧ P.le c.shared e.after ∧
      ∀ k, M.slot k ≠ i → P.rely k c.shared e.after := by
    rw [← hbefore] at hrec ⊢
    cases e with
    | asked s q a => exact ⟨hinv, P.le_refl _, fun k _ => P.rely_refl _ _⟩
    | ran s s' =>
      refine ⟨P.inv_guar hrec hmeets hinv, P.le_guar hrec hmeets hinv, fun k hk => ?_⟩
      exact P.rely_guar (hc.slot i p hp ▸ hk) hrec hmeets hinv
  refine ⟨hmeets, hbefore, rfl, hrec, ?_⟩
  refine hc.change hafter.1 hafter.2.1 hafter.2.2 ?_
  rintro q ⟨⟩
  refine ⟨hc.slot i p hp, ?_, _, P.rely_refl _ _, hrest⟩
  rw [← hbefore] at hrec hafter
  exact P.recorded_act hrec hinv hafter.2.1 fun s q a he => (he ▸ hact).answers

/-- **One step** of a safe configuration leads to a safe configuration. -/
theorem Safe.step {c c' : Config σ Reply ε Job ι} {l : Label σ Reply ε Job} (hc : P.Safe c)
    (hstep : M.Step c l c') : P.Safe c' := by
  cases hstep with
  | env h => exact hc.env h
  | start hfree hadmits =>
    refine hc.change hc.inv (P.le_refl _) (fun j _ => P.rely_refl _ _) ?_
    rintro q ⟨⟩
    exact ⟨rfl, P.recorded_nil _, _, P.rely_refl _ _, P.code_safe hadmits hc.inv⟩
  | act hp hact hbefore => exact (hc.act (.act hp hact hbefore)).2.2.2.2
  | stop hp hdone =>
    exact hc.change hc.inv (P.le_refl _) (fun j _ => P.rely_refl _ _) (by rintro q ⟨⟩)
  | @crash i p hp =>
    refine hc.change (P.inv_halt hc.inv) (P.le_halt _ _) (fun j hj => P.rely_halt ?_)
      (by rintro q ⟨⟩)
    rw [hc.slot i p hp]
    exact hj

omit [DecidableEq ι] in
theorem safe_idle {s : σ} (h : P.inv s) : P.Safe (Config.idle s) :=
  ⟨h, by rintro i p ⟨⟩, by rintro i p ⟨⟩, by rintro i p ⟨⟩⟩

/-- **Runs** from a safe configuration stay safe. -/
theorem Safe.run {c c' : Config σ Reply ε Job ι} {ls : List (Label σ Reply ε Job)}
    (hc : P.Safe c) (hrun : M.Run c ls c') : P.Safe c' := by
  induction hrun with
  | refl => exact hc
  | step _ hstep ih => exact ih.step hstep

/-- What every allowed transaction, every change of the environment and every crash respects is
respected along every run. -/
theorem Safe.run_rel {R : σ → σ → Prop} (hrefl : ∀ s, R s s)
    (htrans : ∀ s s₁ s₂, R s s₁ → R s₁ s₂ → R s s₂)
    (henv : ∀ s s', P.inv s → M.env s s' → R s s') (hhalt : ∀ j s, P.inv s → R s (M.halt j s))
    (hguar : ∀ j began h s s', P.inv s → Recorded P.inv P.le M.answers began h s →
      P.guar j h s s' → R s s')
    {c c' : Config σ Reply ε Job ι} {ls : List (Label σ Reply ε Job)} (hc : P.Safe c)
    (hrun : M.Run c ls c') : R c.shared c'.shared := by
  induction hrun with
  | refl => exact hrefl _
  | @step c₁ c₂ ls l hrun hstep ih =>
    have hc₁ := hc.run hrun
    refine htrans _ _ _ ih ?_
    cases hstep with
    | env h => exact henv _ _ hc₁.inv h
    | start _ _ => exact hrefl _
    | @act i p e rest hp hact hbefore =>
      obtain ⟨hmeets, -, -, hrec, -⟩ := hc₁.act (.act hp hact hbefore)
      rw [← hbefore] at hrec ⊢
      have hinv : P.inv e.before := hbefore ▸ hc₁.inv
      cases e with
      | asked s q a => exact hrefl _
      | ran s s' => exact hguar _ _ _ _ _ hinv hrec hmeets
    | stop _ _ => exact hrefl _
    | crash _ => exact hhalt _ _ hc₁.inv

/-- `I` holds of the shared state, and held whenever a process that is running acted. -/
def Remembers (I : σ → Prop) (c : Config σ Reply ε Job ι) : Prop :=
  I c.shared ∧ ∀ i p, c.running i = some p → ∀ e ∈ p.hist, I e.before

omit [DecidableEq ι] in
theorem remembers_idle {I : σ → Prop} {s : σ} (h : I s) :
    Remembers I (Config.idle s : Config σ Reply ε Job ι) :=
  ⟨h, by rintro i p ⟨⟩⟩

theorem Remembers.withSlot {I : σ → Prop} {c : Config σ Reply ε Job ι} (h : Remembers I c) {s : σ}
    (hs : I s) {i : ι} {p : Option (Process σ Reply ε Job)}
    (hp : ∀ q, p = some q → ∀ e ∈ q.hist, I e.before) :
    Remembers I (Config.withSlot { c with shared := s } i p) := by
  refine ⟨hs, fun k q hq => ?_⟩
  obtain ⟨-, hq⟩ | ⟨-, hq⟩ := Config.running_of_withSlot hq
  · exact hp q hq
  · exact h.2 k q hq

/-! ### One process among the others -/

/-- What happens to the shared state in a run, from a configuration that meets `R`, in which the
slot `i` does nothing. -/
def Interferes (M : Machine σ Reply ε Job ι) (R : Config σ Reply ε Job ι → Prop) (i : ι)
    (s s' : σ) : Prop :=
  ∃ c ls c', R c ∧ M.Run c ls c' ∧ c.shared = s ∧ c'.shared = s' ∧
    ∀ j, ((∃ began h e, .act j began h e ∈ ls) ∨ .crash j ∈ ls) → M.slot j ≠ i

/-- What happens around a process is what it relies on. -/
theorem Interferes.relies {R : Config σ Reply ε Job ι → Prop} (hR : ∀ c, R c → P.Safe c) {j : Job}
    {s s' : σ} (h : Interferes M R (M.slot j) s s') :
    P.rely j s s' ∧ P.le s s' ∧ P.inv s' := by
  obtain ⟨c, ls, c', hc, hrun, rfl, rfl, hothers⟩ := h
  have hsafe := hR c hc
  suffices hrely : P.rely j c.shared c'.shared ∧ P.le c.shared c'.shared from
    ⟨hrely.1, hrely.2, (hsafe.run hrun).inv⟩
  clear hc hR
  induction hrun with
  | refl => exact ⟨P.rely_refl _ _, P.le_refl _⟩
  | @step c₁ c₂ ls l hrun hstep ih =>
    have hc₁ := hsafe.run hrun
    obtain ⟨hrely, hle⟩ := ih fun k hk => hothers k (by
      obtain ⟨began, h, e, hmem⟩ | hmem := hk
      · exact .inl ⟨began, h, e, List.mem_append_left _ hmem⟩
      · exact .inr (List.mem_append_left _ hmem))
    suffices hlast : P.rely j c₁.shared c₂.shared ∧ P.le c₁.shared c₂.shared from
      ⟨P.rely_trans hrely hlast.1, P.le_trans hle hlast.2⟩
    cases hstep with
    | env henv => exact ⟨P.rely_env henv, P.le_env henv⟩
    | start _ _ => exact ⟨P.rely_refl _ _, P.le_refl _⟩
    | @act i p e rest hp hact hbefore =>
      obtain ⟨hmeets, -, -, hrec, -⟩ := hc₁.act (.act hp hact hbefore)
      have hslot : M.slot j ≠ M.slot p.job :=
        (hothers p.job (.inl ⟨p.began, p.hist, e, by simp⟩)).symm
      rw [← hbefore] at hrec ⊢
      have hinv : P.inv e.before := hbefore ▸ hc₁.inv
      cases e with
      | asked s q a => exact ⟨P.rely_refl _ _, P.le_refl _⟩
      | ran s s' => exact ⟨P.rely_guar hslot hrec hmeets hinv, P.le_guar hrec hmeets hinv⟩
    | stop _ _ => exact ⟨P.rely_refl _ _, P.le_refl _⟩
    | @crash i p hp =>
      exact ⟨P.rely_halt (hothers p.job (.inr (by simp))).symm, P.le_halt _ _⟩

/-- **One process among the others.**  An execution of a program that keeps to the discipline of
`j`, among the other processes of the machine, ends in the postcondition, and what it recorded
happened, each action in a state of `S`. -/
theorem exec_sound {R : Config σ Reply ε Job ι → Prop} (hR : ∀ c, R c → P.Safe c) {S : σ → Prop}
    (hS : ∀ c ls c', R c → M.Run c ls c' → S c'.shared) {α : Type} {j : Job}
    {post : α → History σ Reply ε → σ → Prop} {p : Program σ Reply ε α} {r : α} {s s' : σ}
    {h : History σ Reply ε}
    (hexec : Program.Exec M.answers (Interferes M R (M.slot j)) p s [] r s' h)
    (hp : p.wp (P.discipline j) post [] s) :
    (∃ s₁, post r h s₁ ∧ P.rely j s₁ s') ∧ (∀ e ∈ h, S e.before) ∧
      Recorded P.inv P.le M.answers s h s' := by
  have hinterf : ∀ s s', Interferes M R (M.slot j) s s' →
      (P.discipline j).rely s s' ∧ (P.discipline j).inv s' := fun s s' hi =>
    ⟨(hi.relies hR).1, (hi.relies hR).2.2⟩
  refine ⟨?_, ?_⟩
  · obtain ⟨s₁, hpost, hrely, -⟩ := hexec.sound hinterf hp
    exact ⟨s₁, hpost, hrely⟩
  refine hexec.along (J := fun h' s₁ => (∀ e ∈ h', S e.before) ∧
    Recorded P.inv P.le M.answers s h' s₁) hinterf ?_ ?_ hp ⟨by simp, P.recorded_nil s⟩
  · exact fun h s₁ s₂ ⟨hin, hrec⟩ hi => ⟨hin, P.recorded_mono hrec (hi.relies hR).2.1⟩
  · rintro h e s₁ hi ⟨hin, hrec⟩ hmeets hans
    obtain ⟨hrely, hle, hinv⟩ := hi.relies hR
    refine ⟨fun e' he' => ?_, P.recorded_act hrec hinv ?_ hans⟩
    · obtain rfl | he' := List.mem_cons.1 he'
      · obtain ⟨c, ls, c', hc, hrun, -, heq, -⟩ := hi
        exact heq ▸ hS c ls c' hc hrun
      · exact hin e' he'
    · cases e with
      | asked s q a => exact P.le_refl _
      | ran s s' => exact P.le_guar hrec hmeets hinv

/-- **Invariants.**  What every allowed transaction of the jobs that meet `K`, every change of the
environment and every crash preserves holds along every run of such jobs. -/
theorem Safe.invariant_of {I : σ → Prop} {K : Job → Prop}
    (henv : ∀ s s', P.inv s → M.env s s' → I s → I s')
    (hhalt : ∀ j s, P.inv s → I s → I (M.halt j s))
    (hguar : ∀ j began h s s', K j → P.inv s → P.inv s' →
      Recorded P.inv P.le M.answers began h s → (∀ e ∈ h, I e.before) → P.guar j h s s' →
      I s → I s')
    {c c' : Config σ Reply ε Job ι} {ls : List (Label σ Reply ε Job)} (hc : P.Safe c)
    (hI : Remembers I c) (hok : ∀ i p, c.running i = some p → K p.job)
    (hls : ∀ j, .start j ∈ ls → K j) (hrun : M.Run c ls c') :
    Remembers I c' ∧ ∀ i p, c'.running i = some p → K p.job := by
  induction hrun with
  | refl => exact ⟨hI, hok⟩
  | @step c₁ c₂ ls l hrun hstep ih =>
    have hc₁ := hc.run hrun
    obtain ⟨ih, hok₁⟩ := ih fun j hj => hls j (List.mem_append_left _ hj)
    have hslot : ∀ (s : σ) (i : ι) (p : Option (Process σ Reply ε Job)),
        (∀ q, p = some q → K q.job) → ∀ k q,
          (Config.withSlot { c₁ with shared := s } i p).running k = some q → K q.job := by
      intro s i p hp k q hq
      obtain ⟨-, hq⟩ | ⟨-, hq⟩ := Config.running_of_withSlot hq
      · exact hp q hq
      · exact hok₁ k q hq
    cases hstep with
    | env h => exact ⟨⟨henv _ _ hc₁.inv h ih.1, ih.2⟩, hok₁⟩
    | start _ _ =>
      refine ⟨ih.withSlot ih.1 (by rintro q ⟨⟩ e ⟨⟩), hslot _ _ _ ?_⟩
      rintro q ⟨⟩
      exact hls _ (by simp)
    | @act i p e rest hp hact hbefore =>
      obtain ⟨hmeets, -, -, hrec, -⟩ := hc₁.act (.act hp hact hbefore)
      rw [← hbefore] at hrec
      have hinv : P.inv e.before := hbefore ▸ hc₁.inv
      have hI : I e.before := hbefore ▸ ih.1
      have hafter : I e.after := by
        cases e with
        | asked s q a => exact hI
        | ran s s' =>
          exact hguar _ _ _ _ _ (hok₁ i p hp) hinv (P.inv_guar hrec hmeets hinv) hrec
            (ih.2 i p hp) hmeets hI
      refine ⟨ih.withSlot hafter ?_, hslot _ _ _ ?_⟩
      · rintro q ⟨⟩ e' (_ | ⟨_, he'⟩)
        · exact hI
        · exact ih.2 i p hp e' he'
      · rintro q ⟨⟩
        exact hok₁ i p hp
    | stop _ _ => exact ⟨ih.withSlot ih.1 (by rintro q ⟨⟩), hslot _ _ _ (by rintro q ⟨⟩)⟩
    | crash _ =>
      exact ⟨ih.withSlot (hhalt _ _ hc₁.inv ih.1) (by rintro q ⟨⟩),
        hslot _ _ _ (by rintro q ⟨⟩)⟩

/-- **Invariants**, of runs of any jobs. -/
theorem Safe.invariant {I : σ → Prop}
    (henv : ∀ s s', P.inv s → M.env s s' → I s → I s')
    (hhalt : ∀ j s, P.inv s → I s → I (M.halt j s))
    (hguar : ∀ j began h s s', P.inv s → P.inv s' → Recorded P.inv P.le M.answers began h s →
      (∀ e ∈ h, I e.before) → P.guar j h s s' → I s → I s')
    {c c' : Config σ Reply ε Job ι} {ls : List (Label σ Reply ε Job)} (hc : P.Safe c)
    (hI : Remembers I c) (hrun : M.Run c ls c') : Remembers I c' :=
  (hc.invariant_of (K := fun _ => True) henv hhalt
    (fun j began h s s' _ => hguar j began h s s') hI (fun _ _ _ => trivial)
    (fun _ _ => trivial) hrun).1

/-! ### Conditions on the labels -/

/-- What relates the states in which the running processes acted to the present one. -/
def Recalls (R : σ → σ → Prop) (c : Config σ Reply ε Job ι) : Prop :=
  ∀ i p, c.running i = some p → ∀ e ∈ p.hist, R e.before c.shared

omit [DecidableEq ι] in
theorem recalls_idle {R : σ → σ → Prop} (s : σ) :
    Recalls R (Config.idle s : Config σ Reply ε Job ι) := by
  rintro i p ⟨⟩

theorem Recalls.withSlot {R : σ → σ → Prop} {c : Config σ Reply ε Job ι} (h : Recalls R c)
    {s : σ} (hs : ∀ s₀, R s₀ c.shared → R s₀ s) {i : ι} {p : Option (Process σ Reply ε Job)}
    (hp : ∀ q, p = some q → ∀ e ∈ q.hist, R e.before s) :
    Recalls R (Config.withSlot { c with shared := s } i p) := by
  intro k q hq e he
  obtain ⟨-, hq⟩ | ⟨-, hq⟩ := Config.running_of_withSlot hq
  · exact hp q hq e he
  · exact hs _ (h k q hq e he)

/-- **Runs with a condition on their labels.**  `J` is what holds of the labels so far and the
shared state, and `R` relates the states in which a running process acted to the present one. -/
theorem Safe.along {L : Label σ Reply ε Job → Prop} {J : List (Label σ Reply ε Job) → σ → Prop}
    {R : σ → σ → Prop} (hrefl : ∀ s, R s s)
    (hquiet : ∀ ls l s, l.Quiet → J ls s → J (ls ++ [l]) s)
    (henv : ∀ ls s s', P.inv s → M.env s s' → J ls s →
      J (ls ++ [.env]) s' ∧ ∀ s₀, R s₀ s → R s₀ s')
    (hhalt : ∀ ls j s, P.inv s → J ls s →
      J (ls ++ [.crash j]) (M.halt j s) ∧ ∀ s₀, R s₀ s → R s₀ (M.halt j s))
    (hran : ∀ ls j began h s s', L (.act j began h (.ran s s')) → P.inv s →
      Recorded P.inv P.le M.answers began h s → (∀ e ∈ h, R e.before s) → P.guar j h s s' →
      J ls s → J (ls ++ [.act j began h (.ran s s')]) s' ∧ ∀ s₀, R s₀ s → R s₀ s')
    {c c' : Config σ Reply ε Job ι} {ls : List (Label σ Reply ε Job)} (hc : P.Safe c)
    (hM : Recalls R c) (hJ : J [] c.shared) (hrun : M.Run c ls c') (hok : ∀ l ∈ ls, L l) :
    J ls c'.shared ∧ Recalls R c' := by
  induction hrun with
  | refl => exact ⟨hJ, hM⟩
  | @step c₁ c₂ ls l hrun hstep ih =>
    have hc₁ := hc.run hrun
    obtain ⟨ihJ, ihM⟩ := ih fun l' hl' => hok l' (List.mem_append_left _ hl')
    have hl := hok l (by simp)
    cases hstep with
    | env h =>
      obtain ⟨hJ', hmem⟩ := henv _ _ _ hc₁.inv h ihJ
      exact ⟨hJ', fun i p hp e he => hmem _ (ihM i p hp e he)⟩
    | start _ _ =>
      exact ⟨hquiet _ _ _ trivial ihJ, ihM.withSlot (fun _ h => h) (by rintro q ⟨⟩ e ⟨⟩)⟩
    | @act i p e rest hp hact hbefore =>
      obtain ⟨hmeets, -, -, hrec, -⟩ := hc₁.act (.act hp hact hbefore)
      have hinv := hc₁.inv
      have hmem := ihM i p hp
      obtain ⟨hJ', hmem'⟩ : J (ls ++ [.act p.job p.began p.hist e]) e.after ∧
          ∀ s₀, R s₀ c₁.shared → R s₀ e.after := by
        rw [← hbefore] at hrec hinv ihJ hmem ⊢
        cases e with
        | asked s q a => exact ⟨hquiet _ _ _ trivial ihJ, fun _ h => h⟩
        | ran s s' => exact hran _ _ _ _ _ _ hl hinv hrec hmem hmeets ihJ
      refine ⟨hJ', ihM.withSlot hmem' ?_⟩
      rintro q ⟨⟩ e' (_ | ⟨_, he'⟩)
      · exact hmem' _ (hbefore ▸ hrefl _)
      · exact hmem' _ (hmem e' he')
    | stop _ _ =>
      exact ⟨hquiet _ _ _ trivial ihJ, ihM.withSlot (fun _ h => h) (by rintro q ⟨⟩)⟩
    | crash _ =>
      obtain ⟨hJ', hmem⟩ := hhalt _ _ _ hc₁.inv ihJ
      exact ⟨hJ', ihM.withSlot hmem (by rintro q ⟨⟩)⟩

end Protocol

/-! ### Concrete runs -/

/-- One move of a concrete run. -/
inductive Move (σ : Type) {Ask : Type} (Reply : Ask → Type) (ε Job ι : Type) where
  /-- The environment changes the shared state by `f`. -/
  | env (f : σ → Option σ)
  /-- Start a job. -/
  | start (j : Job)
  /-- Let the process in slot `i` do `n` actions, with its questions answered by `oracle`. -/
  | act (i : ι) (n : ℕ) (oracle : σ → (q : Ask) → Except ε (Reply q))
  /-- The process in slot `i` crashes. -/
  | crash (i : ι)
  /-- The process in slot `i` has ended. -/
  | stop (i : ι)

/-- The move is one of a process. -/
def Move.isInternal {σ Ask : Type} {Reply : Ask → Type} {ε Job ι : Type} :
    Move σ Reply ε Job ι → Bool
  | env _ => false
  | start _ | act _ _ _ | crash _ | stop _ => true

namespace Config

/-- The process in slot `i` does its next action. -/
def act (oracle : σ → (q : Ask) → Except ε (Reply q)) (i : ι) (c : Config σ Reply ε Job ι) :
    Option (Config σ Reply ε Job ι) :=
  match c.running i with
  | none => none
  | some p => (p.rest.act? oracle c.shared).map fun r =>
      withSlot { c with shared := r.1.after } i
        (some { p with hist := r.1 :: p.hist, rest := r.2 })

/-- The process in slot `i` does its next `n` actions. -/
def acts (oracle : σ → (q : Ask) → Except ε (Reply q)) (i : ι) :
    ℕ → Config σ Reply ε Job ι → Option (Config σ Reply ε Job ι)
  | 0, c => some c
  | n + 1, c => (act oracle i c).bind (acts oracle i n)

/-- What the process in slot `i` does in its next `n` actions. -/
def labels (oracle : σ → (q : Ask) → Except ε (Reply q)) (i : ι) :
    ℕ → Config σ Reply ε Job ι → List (Label σ Reply ε Job)
  | 0, _ => []
  | n + 1, c => match c.running i with
    | none => []
    | some p => match p.rest.act? oracle c.shared with
      | none => []
      | some r => .act p.job p.began p.hist r.1 ::
          labels oracle i n (withSlot { c with shared := r.1.after } i
            (some { p with hist := r.1 :: p.hist, rest := r.2 }))

/-- What happens in a move. -/
def moveLabels (c : Config σ Reply ε Job ι) : Move σ Reply ε Job ι → List (Label σ Reply ε Job)
  | .env _ => [.env]
  | .start j => [.start j]
  | .act i n oracle => c.labels oracle i n
  | .crash i => ((c.running i).map fun p => .crash p.job).toList
  | .stop i => ((c.running i).map fun p => .stop p.job).toList

end Config

namespace Machine

variable (M : Machine σ Reply ε Job ι)

/-- One move; `none` when it is impossible. -/
def move (c : Config σ Reply ε Job ι) : Move σ Reply ε Job ι → Option (Config σ Reply ε Job ι)
  | .env f => (f c.shared).map fun s => { c with shared := s }
  | .start j => match c.running (M.slot j) with
    | none => if M.admits j c.shared then
        some (c.withSlot (M.slot j) (some ⟨j, c.shared, [], M.code j⟩)) else none
    | some _ => none
  | .act i n oracle => c.acts oracle i n
  | .crash i => match c.running i with
    | none => none
    | some p => some (Config.withSlot { c with shared := M.halt p.job c.shared } i none)
  | .stop i => match c.running i with
    | some ⟨_, _, _, .done ()⟩ => some (c.withSlot i none)
    | _ => none

/-- A list of moves. -/
def play : List (Move σ Reply ε Job ι) → Config σ Reply ε Job ι →
    Option (Config σ Reply ε Job ι)
  | [], c => some c
  | m :: ms, c => (M.move c m).bind (play ms)

/-- What happens in a list of moves. -/
def labels : List (Move σ Reply ε Job ι) → Config σ Reply ε Job ι → List (Label σ Reply ε Job)
  | [], _ => []
  | m :: ms, c => c.moveLabels m ++ ((M.move c m).map (labels ms)).getD []

variable {M}

/-- The machine allows the move in every configuration in which it is possible. -/
def Allows (M : Machine σ Reply ε Job ι) : Move σ Reply ε Job ι → Prop
  | .env f => ∀ s s', f s = some s' → M.env s s'
  | .act _ _ oracle => ∀ s q, M.answers s q (oracle s q)
  | _ => True

omit [DecidableEq ι] in
/-- Processes may do whatever they can, when every answer is possible. -/
theorem allows_of_internal (hanswers : ∀ s q a, M.answers s q a) {ms : List (Move σ Reply ε Job ι)}
    (hms : ms.all Move.isInternal = true) : ∀ m ∈ ms, M.Allows m := by
  intro m hm
  have hinternal := List.all_eq_true.1 hms m hm
  cases m with
  | env f => cases hinternal
  | act i n oracle => exact fun s q => hanswers s q _
  | start j => trivial
  | crash i => trivial
  | stop i => trivial

/-- The next action of a process is a step. -/
theorem step_of_act {oracle : σ → (q : Ask) → Except ε (Reply q)}
    (horacle : ∀ s q, M.answers s q (oracle s q)) {i : ι} {c c' : Config σ Reply ε Job ι}
    {p : Process σ Reply ε Job} (hp : c.running i = some p) (h : c.act oracle i = some c') :
    ∃ e, M.Step c (.act p.job p.began p.hist e) c' ∧ e.before = c.shared ∧ e.after = c'.shared := by
  unfold Config.act at h
  rw [hp] at h
  obtain ⟨⟨e, rest⟩, hr, rfl⟩ := Option.map_eq_some_iff.1 h
  obtain ⟨hact, hbefore⟩ := Program.act_of_act? horacle hr
  exact ⟨e, .act hp hact hbefore, hbefore, rfl⟩

theorem run_of_acts {oracle : σ → (q : Ask) → Except ε (Reply q)}
    (horacle : ∀ s q, M.answers s q (oracle s q)) {i : ι} {n : ℕ} {c c' : Config σ Reply ε Job ι}
    (h : c.acts oracle i n = some c') : M.Run c (c.labels oracle i n) c' := by
  induction n generalizing c with
  | zero => exact Option.some.inj h ▸ .refl
  | succ n ih =>
    obtain ⟨c₁, hact, hrest⟩ := Option.bind_eq_some_iff.1 h
    unfold Config.act at hact
    unfold Config.labels
    split at hact
    · cases hact
    · rename_i p hp
      obtain ⟨⟨e, rest⟩, hr, rfl⟩ := Option.map_eq_some_iff.1 hact
      obtain ⟨hact, hbefore⟩ := Program.act_of_act? horacle hr
      simp only [hr]
      exact Run.trans (Run.single (.act hp hact hbefore)) (ih hrest)

theorem run_of_move {m : Move σ Reply ε Job ι} (hm : M.Allows m) {c c' : Config σ Reply ε Job ι}
    (h : M.move c m = some c') : M.Run c (c.moveLabels m) c' := by
  cases m with
  | env f =>
    obtain ⟨s, hs, rfl⟩ := Option.map_eq_some_iff.1 h
    exact .single (.env (hm _ s hs))
  | start j =>
    simp only [move] at h
    split at h
    · split_ifs at h with hadmits
      cases h
      exact .single (.start ‹_› hadmits)
    · cases h
  | act i n oracle => exact run_of_acts hm h
  | crash i =>
    simp only [move] at h
    split at h
    · cases h
    · rename_i p hp
      cases h
      simp only [Config.moveLabels, hp, Option.map_some, Option.toList_some]
      exact .single (.crash hp)
  | stop i =>
    simp only [move] at h
    split at h
    · rename_i hp
      cases h
      simp only [Config.moveLabels, hp, Option.map_some, Option.toList_some]
      exact .single (.stop hp rfl)
    · cases h

/-- **A list of moves that goes through is a run.** -/
theorem run_labels {ms : List (Move σ Reply ε Job ι)} (hms : ∀ m ∈ ms, M.Allows m)
    {c c' : Config σ Reply ε Job ι} (h : M.play ms c = some c') : M.Run c (M.labels ms c) c' := by
  induction ms generalizing c with
  | nil => exact Option.some.inj h ▸ .refl
  | cons m ms ih =>
    obtain ⟨c₁, hm, hrest⟩ := Option.bind_eq_some_iff.1 h
    have hlabels : M.labels (m :: ms) c = c.moveLabels m ++ M.labels ms c₁ := by
      simp [labels, hm]
    exact hlabels ▸ (run_of_move (hms m (.head _)) hm).trans
      (ih (fun m' hm' => hms m' (.tail _ hm')) hrest)

theorem start_notMem_labels {oracle : σ → (q : Ask) → Except ε (Reply q)} {i : ι} {n : ℕ}
    {c : Config σ Reply ε Job ι} (j : Job) : .start j ∉ c.labels oracle i n := by
  induction n generalizing c with
  | zero => simp [Config.labels]
  | succ n ih =>
    unfold Config.labels
    split
    · simp
    · split
      · simp
      · simpa using ih

/-- A list of moves starts no jobs but its own. -/
theorem start_mem_labels {ms : List (Move σ Reply ε Job ι)} {c : Config σ Reply ε Job ι} {j : Job}
    (hj : .start j ∈ M.labels ms c) : .start j ∈ ms := by
  induction ms generalizing c with
  | nil => cases hj
  | cons m ms ih =>
    obtain hj | hj := List.mem_append.1 hj
    · cases m with
      | env f => simp [Config.moveLabels] at hj
      | start k =>
        obtain rfl : j = k := by simpa [Config.moveLabels] using hj
        exact .head _
      | act i n oracle => exact absurd hj (start_notMem_labels j)
      | crash i => simp [Config.moveLabels] at hj
      | stop i => simp [Config.moveLabels] at hj
    · cases hm : M.move c m with
      | none => simp [hm] at hj
      | some c₁ => exact .tail _ (ih (by simpa [hm] using hj))

end Machine

end Concurrent

end PreCommunity
