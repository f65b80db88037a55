import PreCommunity.Market.Rely

/-!
# Frames for a charge pass

A charge pass is the only writer of the batches, and most of its steps leave them alone.  A frame
is an assertion about the log and the world that such steps keep; every part of the pass is
specified for all frames at once.

* `chargeDiscipline` : the discipline of a charge pass.
* `Quiet` : steps that leave the batches, their clicks and the checkpoints alone.
* `Silent`, `Framed`, `Kept` : frames.
* `Holds` : a frame together with what the variables of the pass mean.
-/

namespace PreCommunity

namespace Market

open Store Concurrent

/-- The discipline of a charge pass. -/
def chargeDiscipline (O : Outside) (deps : ChargeDependencies) :
    Discipline World Reply Failure where
  inv := Inv O.forest
  rely := ChargeRely O.forest
  answers := O.answers
  guar := ChargeWrite O.ext deps
  asks _ := ChargeAsks deps
  rely_refl := .refl
  rely_trans := .trans
  guar_refl _ _ := .idle

/-- A step that leaves the batches, their clicks and the checkpoints alone. -/
structure Quiet (w w' : World) : Prop where
  batches : w'.db.batches = w.db.batches
  placed : w'.db.clicks.filter (·.batchId.isSome) = w.db.clicks.filter (·.batchId.isSome)
  checkpoint : ∀ identity, w'.db.checkpoint identity = w.db.checkpoint identity
  runs : RunsStep w.db.runs w'.db.runs

/-- A step that leaves the checkpoints alone and loses no run. -/
structure Calm (w w' : World) : Prop where
  checkpoint : ∀ identity, w'.db.checkpoint identity = w.db.checkpoint identity
  runs : RunsStep w.db.runs w'.db.runs

theorem Calm.of_eq {w w' : World} (h : w'.db.settings = w.db.settings)
    (hruns : w'.db.runs = w.db.runs) : Calm w w' :=
  ⟨fun _ => by unfold Database.checkpoint; rw [h], hruns ▸ .refl _⟩

theorem Quiet.calm {w w' : World} (h : Quiet w w') : Calm w w' := ⟨h.checkpoint, h.runs⟩

theorem Quiet.refl (w : World) : Quiet w w := ⟨rfl, rfl, fun _ => rfl, .refl _⟩

theorem Calm.trans {w w' w'' : World} (h : Calm w w') (h' : Calm w' w'') : Calm w w'' :=
  ⟨fun identity => (h'.checkpoint identity).trans (h.checkpoint identity), h.runs.trans h'.runs⟩

theorem Quiet.trans {w w' w'' : World} (h : Quiet w w') (h' : Quiet w' w'') : Quiet w w'' :=
  ⟨h'.batches.trans h.batches, h'.placed.trans h.placed,
    fun identity => (h'.checkpoint identity).trans (h.checkpoint identity), h.runs.trans h'.runs⟩

theorem ChargeRely.quiet {F : Chain.Forest Hash} {w w' : World} (h : ChargeRely F w w') :
    Quiet w w' :=
  ⟨h.batches, h.placed, h.checkpoint, h.grows.runs⟩

/-- An assertion that quiet transactions keep. -/
def Silent (R : Log → World → Prop) : Prop :=
  ∀ ⦃h : Log⦄ ⦃w w' w'' : World⦄, R h w → Quiet w w' → Quiet w' w'' → R (.ran w' w'' :: h) w''

/-- An assertion that quiet steps keep. -/
structure Framed (R : Log → World → Prop) : Prop where
  ran : Silent R
  asked : ∀ ⦃h : Log⦄ ⦃w w' : World⦄ (q : Query) (a : Except Failure (Reply q)), R h w →
    Quiet w w' → R (.asked w' q a :: h) w'

/-- An assertion that calm steps keep. -/
structure Kept (K : Log → World → Prop) : Prop where
  ran : ∀ ⦃h : Log⦄ ⦃w w' w'' : World⦄, K h w → Calm w w' → Calm w' w'' → K (.ran w' w'' :: h) w''
  asked : ∀ ⦃h : Log⦄ ⦃w w' : World⦄ (q : Query) (a : Except Failure (Reply q)), K h w →
    Calm w w' → K (.asked w' q a :: h) w'

theorem Kept.framed {K : Log → World → Prop} (hK : Kept K) : Framed K :=
  ⟨fun _ _ _ _ h h₁ h₂ => hK.ran h h₁.calm h₂.calm, fun _ _ _ q a h h₁ => hK.asked q a h h₁.calm⟩

theorem Framed.and {R S : Log → World → Prop} (hR : Framed R) (hS : Framed S) :
    Framed fun h w => R h w ∧ S h w :=
  ⟨fun _ _ _ _ h h₁ h₂ => ⟨hR.ran h.1 h₁ h₂, hS.ran h.2 h₁ h₂⟩,
    fun _ _ _ q a h h₁ => ⟨hR.asked q a h.1 h₁, hS.asked q a h.2 h₁⟩⟩

theorem Framed.imp {R : Log → World → Prop} (hR : Framed R) (A : Prop) :
    Framed fun h w => A → R h w :=
  ⟨fun _ _ _ _ h h₁ h₂ ha => hR.ran (h ha) h₁ h₂, fun _ _ _ q a h h₁ ha => hR.asked q a (h ha) h₁⟩

theorem Kept.and {K L : Log → World → Prop} (hK : Kept K) (hL : Kept L) :
    Kept fun h w => K h w ∧ L h w :=
  ⟨fun _ _ _ _ h h₁ h₂ => ⟨hK.ran h.1 h₁ h₂, hL.ran h.2 h₁ h₂⟩,
    fun _ _ _ q a h h₁ => ⟨hK.asked q a h.1 h₁, hL.asked q a h.2 h₁⟩⟩

/-- What a log says stays said. -/
theorem kept_log {P : Log → Prop} (hP : ∀ h e, P h → P (e :: h)) : Kept fun h _ => P h :=
  ⟨fun _ _ _ _ h _ _ => hP _ _ h, fun _ _ _ _ _ h _ => hP _ _ h⟩

theorem framed_log {P : Log → Prop} (hP : ∀ h e, P h → P (e :: h)) : Framed fun h _ => P h :=
  (kept_log hP).framed

/-- The batches stand still. -/
theorem framed_batches (P : List ChargeBatch → Prop) : Framed fun _ w => P w.db.batches :=
  ⟨fun _ _ _ _ h h₁ h₂ => by rwa [h₂.batches, h₁.batches], fun _ _ _ _ _ h h₁ => by
    rwa [h₁.batches]⟩

/-- The clicks in batches stand still. -/
theorem framed_placed (P : List BillingClick → Prop) :
    Framed fun _ w => P (w.db.clicks.filter (·.batchId.isSome)) :=
  ⟨fun _ _ _ _ h h₁ h₂ => by rwa [h₂.placed, h₁.placed], fun _ _ _ _ _ h h₁ => by
    rwa [h₁.placed]⟩

/-! ### The variables of a pass -/

/-- The variables that later steps of the pass depend on are those of `m`. -/
structure ChargePass.Like (m pass : ChargePass) : Prop where
  blocked : pass.blocked = m.blocked
  head : pass.head = m.head
  checkpoint : pass.reconciliationCheckpoint = m.reconciliationCheckpoint

theorem ChargePass.Like.refl (m : ChargePass) : m.Like m := ⟨rfl, rfl, rfl⟩

/-- The frame `R` holds, the cached block hashes were read in this pass, and its variables are
those of `m`. -/
structure Holds (deps : ChargeDependencies) (m : ChargePass) (R : Log → World → Prop)
    (v : View ChargePass World Reply Failure) : Prop where
  cached : ∀ entry ∈ v.memory.blockHashes, SawHash deps.identity.chainId v.hist entry.1 entry.2
  memory : m.Like v.memory
  frame : R v.hist v.shared

namespace Holds

variable {O : Outside} {deps : ChargeDependencies} {m : ChargePass} {R S : Log → World → Prop}
  {v : View ChargePass World Reply Failure}

theorem mono (hv : Holds deps m R v) (h : R v.hist v.shared → S v.hist v.shared) :
    Holds deps m S v :=
  { hv with frame := h hv.frame }

theorem withMemory (hv : Holds deps m R v) {m' pass : ChargePass}
    (hcached : pass.blockHashes = v.memory.blockHashes) (hlike : m'.Like pass) :
    Holds deps m' R (v.withMemory pass) :=
  ⟨hcached ▸ hv.cached, hlike, hv.frame⟩

theorem ran (hv : Holds deps m R v) {w w' : World} (hR : S (.ran w w' :: v.hist) w') :
    Holds deps m S (v.ran w w') where
  cached entry he := (hv.cached entry he).cons _
  memory := hv.memory
  frame := hR

theorem asked (hv : Holds deps m R v) {w : World} {q : Query} {a : Except Failure (Reply q)}
    (hR : S (.asked w q a :: v.hist) w) : Holds deps m S (v.asked w q a) where
  cached entry he := (hv.cached entry he).cons _
  memory := hv.memory
  frame := hR

end Holds

/-- A frame is stable. -/
theorem Framed.stable {O : Outside} {deps : ChargeDependencies} {m : ChargePass}
    {R : Log → World → Prop} (hR : Framed R) :
    (chargeDiscipline O deps).Stable (Holds deps m R) where
  asked q a hv hrely _ := hv.asked (hR.asked q a hv.frame hrely.quiet)
  ran hv hrely _ := hv.ran (hR.ran hv.frame hrely.quiet (.refl _))

/-! ### Rules -/

section Rules

variable {O : Outside} {deps : ChargeDependencies} {m : ChargePass} {R : Log → World → Prop}
  {v : View ChargePass World Reply Failure} {α : Type}
  {E : Failure → View ChargePass World Reply Failure → Prop}

/-- Ask a question that `R` survives. -/
theorem quiet_hear {q : Query} (hR : ∀ ⦃h : Log⦄ ⦃w w' : World⦄ (a : Except Failure (Reply q)),
      R h w → Quiet w w' → R (.asked w' q a :: h) w') (hv : Holds deps m R v)
    (hq : ∀ w, R v.hist v.shared → Quiet v.shared w → ChargeAsks deps w q)
    {Q : Reply q → View ChargePass World Reply Failure → Prop}
    (hQ : ∀ r w, Holds deps m R (v.asked w q (.ok r)) → O.answers w q (.ok r) →
      Q r (v.asked w q (.ok r)))
    (hE : ∀ e v', Holds deps m R v' → E e v') :
    Routine.wp (chargeDiscipline O deps) (ask q) Q E v :=
  Routine.wp_ask fun w hrely _ => ⟨hq w hv.frame hrely.quiet,
    fun r hr => hQ r w (hv.asked (hR _ hv.frame hrely.quiet)) hr,
    fun e _ => hE e _ (hv.asked (hR _ hv.frame hrely.quiet))⟩

/-- Ask a question. -/
theorem quiet_ask (hR : Framed R) (hv : Holds deps m R v) {q : Query}
    (hq : ∀ w, R v.hist v.shared → Quiet v.shared w → ChargeAsks deps w q)
    {Q : Reply q → View ChargePass World Reply Failure → Prop}
    (hQ : ∀ r w, Holds deps m R (v.asked w q (.ok r)) → O.answers w q (.ok r) →
      Q r (v.asked w q (.ok r)))
    (hE : ∀ e v', Holds deps m R v' → E e v') :
    Routine.wp (chargeDiscipline O deps) (ask q) Q E v :=
  quiet_hear (fun _ _ _ a => hR.asked q a) hv hq hQ hE

/-- Read the tables. -/
theorem quiet_select (hR : Silent R) (hv : Holds deps m R v) {f : Database → α}
    {Q : α → View ChargePass World Reply Failure → Prop}
    (hQ : ∀ w, Inv O.forest w → Holds deps m R (v.ran w w) → Q (f w.db) (v.ran w w))
    (hE : ∀ e v', Holds deps m R v' → E e v') :
    Routine.wp (chargeDiscipline O deps) (select f) Q E v :=
  wp_select fun w hrely hinv =>
    have hran := hv.ran (hR hv.frame hrely.quiet (.refl w))
    ⟨hQ w hinv hran, hE _ _ hran⟩

/-- A quiet update. -/
theorem quiet_update (hR : Silent R) (hv : Holds deps m R v) {f : Database → Database}
    (hwrite : ∀ w, Inv O.forest w → R v.hist v.shared → Quiet v.shared w →
      ChargeWrite O.ext deps v.hist w (w.withDb (f w.db)) ∧ Quiet w (w.withDb (f w.db)))
    {Q : Unit → View ChargePass World Reply Failure → Prop}
    (hQ : ∀ v', Holds deps m R v' → Q () v') (hE : ∀ e v', Holds deps m R v' → E e v') :
    Routine.wp (chargeDiscipline O deps) (update f) Q E v := by
  refine wp_update (fun w hrely _ => hE _ _ (hv.ran (hR hv.frame hrely.quiet (.refl w)))) ?_
  intro w hrely hinv
  obtain ⟨hguar, hquiet⟩ := hwrite w hinv hv.frame hrely.quiet
  have hran := hv.ran (hR hv.frame hrely.quiet hquiet)
  exact ⟨hguar, hQ _ hran, hE _ _ hran⟩

/-- A quiet transaction. -/
theorem quiet_transaction (hR : Silent R) (hv : Holds deps m R v) {t : Tx α}
    (hwrite : ∀ w a db, Inv O.forest w → R v.hist v.shared → Quiet v.shared w →
      t.run w.db = .ok (a, db) →
      ChargeWrite O.ext deps v.hist w (w.withDb db) ∧ Quiet w (w.withDb db))
    {Q : α → View ChargePass World Reply Failure → Prop}
    (hQ : ∀ w a db, Inv O.forest w → t.run w.db = .ok (a, db) →
      Holds deps m R (v.ran w (w.withDb db)) → Q a (v.ran w (w.withDb db)))
    (hE : ∀ e v', Holds deps m R v' → E e v') :
    Routine.wp (chargeDiscipline O deps) (transaction t) Q E v := by
  refine wp_transaction (fun w hrely _ => hE _ _ (hv.ran (hR hv.frame hrely.quiet (.refl w)))) ?_
    fun w e hrely _ _ => hE _ _ (hv.ran (hR hv.frame hrely.quiet (.refl w)))
  intro w a db hrely hinv ht
  obtain ⟨hguar, hquiet⟩ := hwrite w a db hinv hv.frame hrely.quiet ht
  have hran := hv.ran (hR hv.frame hrely.quiet hquiet)
  exact ⟨hguar, hQ w a db hinv ht hran, hE _ _ hran⟩

/-- Change a variable that later steps do not depend on. -/
theorem quiet_modify (hv : Holds deps m R v) {f : ChargePass → ChargePass}
    (hf : ∀ pass : ChargePass, (f pass).blockHashes = pass.blockHashes ∧ pass.Like (f pass))
    {Q : PUnit → View ChargePass World Reply Failure → Prop}
    (hQ : ∀ v', Holds deps m R v' → Q ⟨⟩ v') :
    Routine.wp (chargeDiscipline O deps) (modify f) Q E v :=
  (Routine.wp_modify f).2 (hQ _ (hv.withMemory (hf _).1
    ⟨(hf _).2.blocked.trans hv.memory.blocked, (hf _).2.head.trans hv.memory.head,
      (hf _).2.checkpoint.trans hv.memory.checkpoint⟩))

end Rules

end Market

end PreCommunity
