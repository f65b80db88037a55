import PreCommunity.Metrics.Balance

/-!
# Every count is flushed once

Runs of the metrics: any number of flushes and increments side by side, with crashes anywhere.

* `Write`, `Does` : the steps of a flush and of an increment.
* `Rely` : what a flush knows of a batch whatever the others do: either it has a receipt, or its
  fields are as they were.
* `Balanced` : the counts match the increments; kept by every step.
* `flush_exactly_once` : the metrics are balanced in every run.
-/

namespace PreCommunity

namespace Metrics

open Concurrent Store

/-! ### Steps -/

/-- What a flush may do. -/
inductive Write (w : World) : World → Prop where
  | roll {key : Key} : key.flush = none → Write w (w.roll key)
  | persist {key : Key} : w.issued key = true → Write w (w.persist key)
  | del {key : Key} : w.db.flushed key = true →
      Write w { w with redis := w.redis.filter fun c => c.key ≠ key }

/-- What a job may do. -/
def Does : Job → World → World → Prop
  | .increment _ type revisionId day, w, w' => revisionId < w.nextId ∧
      w' = { w with redis := hincrby ⟨type, day, none⟩ revisionId w.redis }
  | .flush _ _, w, w' => Write w w'

/-- What others may do: a batch keeps its fields until it has a receipt. -/
structure Rely (w w' : World) : Prop where
  nextId : w.nextId ≤ w'.nextId
  flushed : ∀ key, w.db.flushed key = true → w'.db.flushed key = true
  fields : ∀ key, w.issued key = true → w'.db.flushed key = true ∨ w'.fields key = w.fields key

section

variable {w w' w'' : World}

theorem Rely.refl (w : World) : Rely w w := ⟨le_rfl, fun _ h => h, fun _ _ => .inr rfl⟩

theorem Rely.trans (h : Rely w w') (h' : Rely w' w'') : Rely w w'' where
  nextId := h.nextId.trans h'.nextId
  flushed key hkey := h'.flushed key (h.flushed key hkey)
  fields key hkey := by
    obtain hflushed | hsame := h.fields key hkey
    · exact .inl (h'.flushed key hflushed)
    · obtain hflushed' | hsame' := h'.fields key (issued_mono h.nextId hkey)
      · exact .inl hflushed'
      · exact .inr (hsame'.trans hsame)

theorem fields_filter {key k : Key} :
    World.fields { w with redis := w.redis.filter fun c => c.key ≠ key } k =
      if k = key then [] else w.fields k := by
  unfold World.fields
  rw [List.filter_filter]
  split_ifs with hk
  · subst hk
    exact List.filter_eq_nil_iff.2 fun c _ => by simp
  · refine List.filter_congr fun c _ => ?_
    by_cases hc : c.key = k
    · simp [hc, hk]
    · simp [hc]

theorem Sound.write (hw : Sound w) (h : Write w w') : Sound w' := by
  cases h with
  | roll _ => exact hw.roll _
  | persist hissued => exact hw.persist hissued
  | del _ => exact hw.del _

theorem Write.rely (hw : Sound w) (h : Write w w') : Rely w w' := by
  cases h with
  | @roll key hkey =>
    refine ⟨Nat.le_succ _, fun _ h => h, fun k hk => .inr ?_⟩
    unfold World.fields
    rw [hw.roll_redis]
    -- neither the hash that is renamed nor the new batch was rolled before
    have hkeys : k ≠ key ∧ k ≠ { key with flush := some w.nextId } := by
      constructor <;> rintro rfl <;> simp [World.issued, hkey] at hk
    have hout : (updateWhere (fun c => c.key = key)
        (fun c => { c with key := { key with flush := some w.nextId } }) w.redis).filter
          (fun c => c.key = k) = w.redis.filter fun c => c.key = k := by
      have hmap := filter_updateWhere_map (p := fun c : Counter => c.key = key)
        (f := fun c => { c with key := { key with flush := some w.nextId } })
        (q := fun c => c.key = k) (g := fun c => c)
        (fun c (_ : c ∈ w.redis) hc => ?_) fun c _ hc hc' => ?_
      · simpa using hmap
      · have : c.key = key := of_decide_eq_true hc
        simp [this, hkeys.1.symm, hkeys.2.symm]
      · exact absurd ((of_decide_eq_true hc').symm.trans (of_decide_eq_true hc)) hkeys.1
    exact hout
  | @persist key _ =>
    cases hkey : w.db.flushed key with
    | true => exact (persist_flushed hkey).symm ▸ Rely.refl w
    | false =>
      refine ⟨le_rfl, fun k hk => ?_, fun _ _ => .inr rfl⟩
      rw [flushed_persist k hw hkey, hk, Bool.true_or]
  | @del key hkey =>
    refine ⟨le_rfl, fun _ h => h, fun k _ => ?_⟩
    rw [fields_filter]
    split_ifs with hk
    · exact .inl (hk ▸ hkey)
    · exact .inr rfl

theorem hincrby_fields {key k : Key} {r : Id} (hne : k ≠ key) :
    World.fields { w with redis := hincrby key r w.redis } k = w.fields k := by
  have hnew : (⟨key, r, 1⟩ : Counter).key ≠ k := hne.symm
  have hview : view (fun c : Counter => c.key = k) (fun c => c) (hincrby key r w.redis) =
      view (fun c => c.key = k) (fun c => c) w.redis := by
    refine view_upsert_of_not (decide_eq_false hnew) (fun c hc => ?_) fun _ => rfl
    have : c.key = key := (Prod.mk.inj (of_decide_eq_true hc)).1
    simp [this, hne.symm]
  unfold view at hview
  rwa [List.map_id'', List.map_id''] at hview <;> exact fun _ => rfl

theorem Does.sound {j : Job} (hw : Sound w) (h : Does j w w') : Sound w' := by
  cases j with
  | increment n type revisionId day =>
    obtain ⟨hlt, rfl⟩ := h
    exact hw.hincrby rfl hlt
  | flush n fuel => exact hw.write h

theorem Does.rely {j : Job} (hw : Sound w) (h : Does j w w') : Rely w w' := by
  cases j with
  | increment n type revisionId day =>
    obtain ⟨hlt, rfl⟩ := h
    refine ⟨le_rfl, fun _ h => h, fun k hk => .inr (hincrby_fields ?_)⟩
    rintro rfl
    simp [World.issued] at hk
  | flush n fuel => exact Write.rely hw h

theorem Environment.sound (h : Environment w w') (hw : Sound w) : Sound w' := by
  cases h with
  | tick _ => exact { hw with }
  | create =>
    exact
      { fields := hw.fields
        days := hw.days
        revisions := hw.revisions.append_one fun row hrow heq => (hw.existing row hrow).ne heq
        batches := fun c hc => by
          have := hw.batches c hc
          cases hflush : c.key.flush with
          | none => rfl
          | some id =>
            simpa [hflush] using Nat.lt_succ_of_lt (by simpa [hflush] using this)
        receipts := fun row hrow => issued_mono (Nat.le_succ _) (hw.receipts row hrow)
        counted := fun c hc => (hw.counted c hc).trans (Nat.lt_succ_self _)
        existing := fun row hrow => by
          obtain hrow | hrow := List.mem_append.1 hrow
          · exact (hw.existing row hrow).trans (Nat.lt_succ_self _)
          · rw [List.mem_singleton.1 hrow]
            exact Nat.lt_succ_self _
        daily := fun row hrow => (hw.daily row hrow).trans (Nat.lt_succ_self _) }
  | delete revisionId =>
    exact { hw with
      days := hw.days.filter _
      revisions := hw.revisions.filter _
      existing := fun row hrow => hw.existing row (List.mem_filter.1 hrow).1
      daily := fun row hrow => hw.daily row (List.mem_filter.1 hrow).1 }
  | retain =>
    exact { hw with
      days := hw.days.filter _
      daily := fun row hrow => hw.daily row (List.mem_filter.1 hrow).1 }

theorem Environment.rely (h : Environment w w') : Rely w w' := by
  cases h with
  | tick _ => exact ⟨le_rfl, fun _ h => h, fun _ _ => .inr rfl⟩
  | create => exact ⟨Nat.le_succ _, fun _ h => h, fun _ _ => .inr rfl⟩
  | delete _ => exact ⟨le_rfl, fun _ h => h, fun _ _ => .inr rfl⟩
  | retain => exact ⟨le_rfl, fun _ h => h, fun _ _ => .inr rfl⟩

end

/-! ### The protocol -/

/-- What a process keeps to. -/
def discipline (j : Job) : Discipline World Reply Failure where
  inv := Sound
  rely := Rely
  answers := Answers
  guar _ w w' := w' = w ∨ Does j w w'
  asks _ _ _ := True
  rely_refl := Rely.refl
  rely_trans := Rely.trans
  guar_refl _ _ := .inl rfl

/-- The batches were rolled before. -/
def Known (batches : List Key) (w : World) : Prop := ∀ key ∈ batches, w.issued key = true

section

variable {j : Job} {n fuel : ℕ}

theorem keeps_known {batches : List Key} : (discipline j).Keeps (Known batches) :=
  fun _ _ h hs key hkey => issued_mono h.nextId (hs key hkey)

theorem triple_scanKeys (batches : List Key) (type : MetricType) (onlyBatches : Bool)
    (fuel cursor : ℕ) : Routine.Triple (discipline j) (Known batches)
    (scanKeys type onlyBatches fuel cursor)
      fun keys w => onlyBatches = true → Known (batches ++ keys) w := by
  induction fuel generalizing cursor batches with
  | zero => exact Routine.triple_throw
  | succ fuel ih =>
    unfold scanKeys
    refine Routine.triple_bind (R := fun r w => onlyBatches = true → Known (batches ++ r.2) w)
      (Routine.triple_ask keeps_known (fun _ _ => trivial) fun r w hw hknown hr hbatches => ?_) ?_
    · intro key hkey
      obtain hkey | hkey := List.mem_append.1 hkey
      · exact hknown key hkey
      · obtain ⟨hexists, -, hflush⟩ := hr r.1 r.2 rfl key hkey
        obtain ⟨c, hc, hck⟩ := List.any_eq_true.1 hexists
        have hbelow := hw.batches c hc
        rw [of_decide_eq_true hck] at hbelow
        obtain ⟨id, hid⟩ := Option.isSome_iff_exists.1 (hflush hbatches)
        simpa [World.issued, hid] using hbelow
    · rintro ⟨next, page⟩
      simp only
      split
      · exact Routine.triple_pure fun _ h => h
      · cases onlyBatches with
        | false =>
          refine Routine.triple_bind (R := fun _ _ => True)
            (Routine.triple_mono (ih [] _) (fun _ _ => by rintro key ⟨⟩) fun _ _ _ => trivial)
            fun rest => Routine.triple_pure fun _ _ h => by cases h
        | true =>
          refine Routine.triple_bind (R := fun rest w => Known ((batches ++ page) ++ rest) w)
            (Routine.triple_mono (ih (batches ++ page) _) (fun _ h => h rfl) fun _ _ h => h rfl)
            fun rest => Routine.triple_pure fun _ h _ => by rwa [← List.append_assoc]

theorem triple_rollActiveCounter {key : Key} (hkey : key.flush = none) :
    Routine.Triple (discipline (.flush n fuel)) (fun _ => True) (rollActiveCounter key)
      fun _ _ => True := by
  refine Routine.triple_atomically .true fun _ w b w' _ _ h => ⟨?_, fun _ _ => trivial⟩
  split_ifs at h
  · obtain ⟨-, rfl⟩ := Prod.mk.inj h
    exact .inr (.roll hkey)
  · obtain ⟨-, rfl⟩ := Prod.mk.inj h
    exact .inl rfl

theorem triple_rollActiveCounters (type : MetricType) (m : ℕ) :
    Routine.Triple (discipline (.flush n fuel)) (fun _ => True) (rollActiveCounters m type)
      fun _ _ => True := by
  unfold rollActiveCounters
  refine Routine.triple_bind (R := fun _ _ => True)
    (Routine.triple_mono (triple_scanKeys [] type false m 0)
      (fun _ _ => by rintro key ⟨⟩) fun _ _ _ => trivial) fun keys => ?_
  refine Routine.triple_bind (R := fun _ _ => True) ?_ fun _ => Routine.triple_pure fun _ h => h
  refine Routine.triple_forIn fun key hkey _ => ?_
  have hactive : key.flush = none := by simpa using (List.mem_filter.1 hkey).2
  exact Routine.triple_bind (triple_rollActiveCounter hactive) fun _ =>
    Routine.triple_pure fun _ h => h

/-- **A batch.**  Its fields are added unless it has a receipt, and it is deleted when it has
one. -/
theorem triple_persistBatch {batches : List Key} {batch : Key} (hbatch : batch ∈ batches) :
    Routine.Triple (discipline (.flush n fuel)) (Known batches) (persistBatch batch)
      fun _ => Known batches := by
  unfold persistBatch
  have hkeeps : ∀ counters, (discipline (.flush n fuel)).Keeps fun w => Known batches w ∧
      (w.db.flushed batch = true ∨ w.fields batch = counters) := fun counters w w' h hw => by
    refine ⟨keeps_known w w' h hw.1, ?_⟩
    obtain hflushed | hfields := hw.2
    · exact .inl (h.flushed _ hflushed)
    · exact (h.fields _ (hw.1 _ hbatch)).imp_right fun hsame => hsame.trans hfields
  refine Routine.triple_bind (R := fun counters w => Known batches w ∧
      (w.db.flushed batch = true ∨ w.fields batch = counters))
    (Routine.triple_read keeps_known fun w _ hw => ⟨hw, .inr rfl⟩) fun counters => ?_
  refine Routine.triple_bind (R := fun _ w => Known batches w ∧ w.db.flushed batch = true)
    (Routine.triple_atomically (hkeeps counters) fun _ w b w' hinv hw h => ?_) fun r => ?_
  · obtain ⟨-, rfl⟩ := Prod.mk.inj h
    cases hflushed : w.db.flushed batch with
    | true =>
      have hsame : ∀ entries, (persistTx batch entries w.db).1 = w.db := fun entries => by
        unfold persistTx
        rw [if_pos hflushed]
      simp only [hsame]
      exact ⟨.inl rfl, fun _ _ => ⟨hw.1, hflushed⟩⟩
    | false =>
      obtain rfl := hw.2.resolve_left (by simp [hflushed])
      refine ⟨.inr (.persist (hw.1 _ hbatch)), fun _ _ => ⟨hw.1, ?_⟩⟩
      have := flushed_persist batch hinv hflushed
      rwa [decide_eq_true rfl, Bool.or_true] at this
  · have hdel : (discipline (.flush n fuel)).Keeps fun w => Known batches w ∧
        w.db.flushed batch = true := keeps_known.and fun _ _ h hw => h.flushed _ hw
    refine Routine.triple_bind (R := fun _ => Known batches)
      (Routine.triple_atomically hdel fun _ w b w' _ hw h => ?_) fun _ =>
        Routine.triple_pure fun _ h => h
    obtain ⟨-, rfl⟩ := Prod.mk.inj h
    exact ⟨.inr (.del hw.2), fun _ _ => hw.1⟩

theorem triple_flush (m : ℕ) : Routine.Triple (discipline (.flush n fuel)) (fun _ => True)
    (flushAdResolutionMetrics m) fun _ _ => True := by
  unfold flushAdResolutionMetrics
  refine Routine.triple_bind (R := fun _ _ => True) (Routine.triple_forIn fun type _ results => ?_)
    fun _ => Routine.triple_pure fun _ h => h
  refine Routine.triple_bind (triple_rollActiveCounters type m) fun _ => ?_
  refine Routine.triple_bind (R := fun batches => Known batches)
    (Routine.triple_mono (triple_scanKeys [] type true m 0)
      (fun _ _ => by rintro key ⟨⟩) fun _ _ h => h rfl) fun batches => ?_
  refine Routine.triple_bind (R := fun _ => Known batches)
    (Routine.triple_forIn fun batch hbatch _ => ?_) fun _ =>
      Routine.triple_pure fun _ _ => trivial
  exact Routine.triple_bind (triple_persistBatch hbatch) fun _ => Routine.triple_pure fun _ h => h

theorem triple_incrementCounter (type : MetricType) (revisionId : Id) (day : Day) :
    Routine.Triple (discipline (.increment n type revisionId day))
      (fun w => revisionId < w.nextId) (incrementCounter type revisionId day) fun _ _ => True := by
  have hkeeps : (discipline (.increment n type revisionId day)).Keeps fun w =>
      revisionId < w.nextId := fun _ _ h hw => hw.trans_le h.nextId
  refine Routine.triple_atomically hkeeps fun _ w b w' _ hw h => ?_
  obtain ⟨-, rfl⟩ := Prod.mk.inj h
  exact ⟨.inr ⟨hw, rfl⟩, fun _ _ => trivial⟩

end

/-- The protocol of the metrics. -/
def safety : Protocol metrics where
  inv := Sound
  le _ _ := True
  rely j := (discipline j).rely
  guar j := (discipline j).guar
  asks j := (discipline j).asks
  le_refl _ := trivial
  le_trans _ _ := trivial
  rely_refl j := (discipline j).rely_refl
  rely_trans {j _ _ _} := (discipline j).rely_trans
  guar_refl j := (discipline j).guar_refl
  inv_guar _ hguar hinv := by
    obtain rfl | hdoes := hguar
    · exact hinv
    · exact hdoes.sound hinv
  inv_env h hinv := h.sound hinv
  inv_halt h := h
  le_guar _ _ _ := trivial
  le_env _ := trivial
  le_halt _ _ := trivial
  rely_guar _ _ hguar hinv := by
    obtain rfl | hdoes := hguar
    · exact Rely.refl _
    · exact hdoes.rely hinv
  rely_env h := h.rely
  rely_halt _ := Rely.refl _
  code_safe {j w} hadmits _ := by
    cases j with
    | increment n type revisionId day =>
      exact (triple_incrementCounter type revisionId day).silently (of_decide_eq_true hadmits)
    | flush n fuel => exact (triple_flush fuel).silently trivial

/-! ### The balance -/

/-- The step is an increment of a revision, on one of the days `P`. -/
def isIncrement (P : Day → Bool) (revisionId : Id) (type : MetricType) :
    Label World Reply Failure Job → Bool
  | .act (.increment _ type' revisionId' day) _ _ (.ran w w') =>
    type' = type ∧ revisionId' = revisionId ∧ P day ∧ w'.redis ≠ w.redis
  | _ => false

/-- The number of increments in a run. -/
def increments (P : Day → Bool) (revisionId : Id) (type : MetricType)
    (ls : List (Label World Reply Failure Job)) : ℕ :=
  ls.countP (isIncrement P revisionId type)

/-- What a step persists comes from a batch that exists and gets its receipt. -/
def FromBatch : Label World Reply Failure Job → Prop
  | .act _ _ _ (.ran w w') =>
    w'.db.revisions ≠ w.db.revisions ∨ w'.db.dailyMetrics ≠ w.db.dailyMetrics →
      ∃ key, w.hasKey key = true ∧ w.db.flushed key = false ∧
        w'.db.flushes = w.db.flushes ++ [⟨key, key.day⟩]
  | _ => True

/-- The counts of the existing revisions match the increments. -/
structure Balanced (ls : List (Label World Reply Failure Job)) (w : World) : Prop where
  fresh : ∀ r, w.nextId ≤ r → ∀ P t, increments P r t ls = 0
  lifetime : ∀ row ∈ w.db.revisions, ∀ t, w.db.lifetime row.id t +
    w.pending (fun _ => true) row.id t = increments (fun _ => true) row.id t ls
  daily : ∀ row ∈ w.db.revisions, ∀ t P, (∀ day, P day = true → retained w.clock day = true) →
    w.db.daily P row.id t + w.pending P row.id t = increments P row.id t ls
  fromBatch : ∀ l ∈ ls, FromBatch l

section

variable {w w' : World} {ls : List (Label World Reply Failure Job)}
  {l : Label World Reply Failure Job}

theorem increments_append (P : Day → Bool) (r : Id) (t : MetricType) :
    increments P r t (ls ++ [l]) =
      increments P r t ls + if isIncrement P r t l = true then 1 else 0 := by
  unfold increments
  rw [List.countP_append, List.countP_singleton]

theorem hincrby_ne (hw : Sound w) {key : Key} (r : Id) : hincrby key r w.redis ≠ w.redis := by
  intro heq
  have hsum := total_upsert_keyed (p := fun _ => true) (g := Counter.value) (n := 1)
    (q := fun _ => true) (f := fun c : Counter => { c with value := c.value + 1 }) hw.fields
    ⟨key, r, 1⟩ (fun _ => rfl) (fun _ => rfl) (fun _ => rfl) rfl
  have hsame : total (fun _ => true) Counter.value (hincrby key r w.redis) =
      total (fun _ => true) Counter.value w.redis + 1 := hsum
  rw [heq] at hsame
  omega

theorem fromBatch_of_eq {j : Job} {began : World} {h : History World Reply Failure}
    (hdb : w'.db = w.db) : FromBatch (.act j began h (.ran w w')) := by
  intro hne
  rw [hdb] at hne
  exact absurd rfl (hne.resolve_left fun h => h rfl)

/-- A step that is no increment and persists nothing. -/
theorem Balanced.quiet (hls : Balanced ls w) (hl : ∀ P r t, isIncrement P r t l = false)
    (hfrom : FromBatch l) : Balanced (ls ++ [l]) w := by
  have hnone : ∀ P r t, increments P r t (ls ++ [l]) = increments P r t ls := fun P r t => by
    rw [increments_append, hl]
    rfl
  refine ⟨fun r hr P t => ?_, fun row hrow t => ?_, fun row hrow t P hP => ?_, fun l' hl' => ?_⟩
  · rw [hnone]
    exact hls.fresh r hr P t
  · rw [hnone]
    exact hls.lifetime row hrow t
  · rw [hnone]
    exact hls.daily row hrow t P hP
  · obtain hl' | hl' := List.mem_append.1 hl'
    · exact hls.fromBatch l' hl'
    · exact List.mem_singleton.1 hl' ▸ hfrom

/-- A step that is no increment, and keeps the sum of what is persisted and pending. -/
theorem Balanced.same (hls : Balanced ls w) (hl : ∀ P r t, isIncrement P r t l = false)
    (hfrom : FromBatch l) (hnextId : w.nextId ≤ w'.nextId) (hclock : w.clock ≤ w'.clock)
    (hrows : ∀ row ∈ w'.db.revisions, (∃ x ∈ w.db.revisions, x.id = row.id) ∨ w.nextId ≤ row.id)
    (hlifetime : ∀ row ∈ w'.db.revisions, ∀ t,
      w'.db.lifetime row.id t + w'.pending (fun _ => true) row.id t =
        w.db.lifetime row.id t + w.pending (fun _ => true) row.id t)
    (hdaily : ∀ row ∈ w'.db.revisions, ∀ t P,
      (∀ day, P day = true → retained w'.clock day = true) →
      w'.db.daily P row.id t + w'.pending P row.id t =
        w.db.daily P row.id t + w.pending P row.id t)
    (hnew : ∀ r, w.nextId ≤ r → ∀ P t,
      w.db.lifetime r t + w.pending P r t = 0 ∧ w.db.daily P r t = 0) :
    Balanced (ls ++ [l]) w' := by
  have hnone : ∀ P r t, increments P r t (ls ++ [l]) = increments P r t ls := fun P r t => by
    rw [increments_append, hl]
    rfl
  refine ⟨fun r hr P t => ?_, fun row hrow t => ?_, fun row hrow t P hP => ?_, fun l' hl' => ?_⟩
  · rw [hnone]
    exact hls.fresh r (hnextId.trans hr) P t
  · rw [hnone, hlifetime row hrow t]
    obtain ⟨x, hx, hid⟩ | hnext := hrows row hrow
    · exact hid ▸ hls.lifetime x hx t
    · rw [hls.fresh _ hnext]
      exact (hnew _ hnext _ t).1
  · rw [hnone, hdaily row hrow t P hP]
    obtain ⟨x, hx, hid⟩ | hnext := hrows row hrow
    · refine hid ▸ hls.daily x hx t P fun day hday => ?_
      have := hP day hday
      simp only [retained, decide_eq_true_eq] at this ⊢
      exact hclock.trans this
    · rw [hls.fresh _ hnext, (hnew _ hnext P t).2]
      have := (hnew _ hnext P t).1
      omega
  · obtain hl' | hl' := List.mem_append.1 hl'
    · exact hls.fromBatch l' hl'
    · exact List.mem_singleton.1 hl' ▸ hfrom

/-- Nothing is known of an id that was not generated. -/
theorem Sound.nothing (hw : Sound w) {r : Id} (hr : w.nextId ≤ r) (P : Day → Bool)
    (t : MetricType) : w.db.lifetime r t + w.pending P r t = 0 ∧ w.db.daily P r t = 0 := by
  refine ⟨Nat.add_eq_zero_iff.2 ⟨?_, ?_⟩, ?_⟩ <;> refine total_eq_zero fun x hx => ?_
  · exact decide_eq_false ((hw.existing x hx).trans_le hr).ne
  · exact decide_eq_false fun h => ((hw.counted x hx).trans_le hr).ne h.1
  · exact decide_eq_false fun h => ((hw.daily x hx).trans_le hr).ne h.1

/-- A write of a flush takes counts from Redis into the database, or nothing. -/
theorem Balanced.write {j : Job} {began : World} {h : History World Reply Failure}
    (hw : Sound w) (hls : Balanced ls w) (hwrite : Write w w')
    (hl : ∀ P r t, isIncrement P r t (.act j began h (.ran w w')) = false) :
    Balanced (ls ++ [.act j began h (.ran w w')]) w' := by
  cases hwrite with
  | @roll key hkey =>
    exact hls.same hl (fromBatch_of_eq rfl) (Nat.le_succ _)
      le_rfl (fun row hrow => .inl ⟨row, hrow, rfl⟩)
      (fun row _ t => congrArg _ (pending_roll hw hkey))
      (fun row _ t P _ => congrArg _ (pending_roll hw hkey)) fun r hr P t => hw.nothing hr P t
  | @persist key hissued =>
    cases hkey : w.db.flushed key with
    | true =>
      rw [persist_flushed hkey] at hl ⊢
      exact hls.same hl (fromBatch_of_eq rfl) le_rfl le_rfl
        (fun row hrow => .inl ⟨row, hrow, rfl⟩) (fun _ _ _ => rfl) (fun _ _ _ _ _ => rfl)
        fun r hr P t => hw.nothing hr P t
    | false =>
      have hp := hw.persisted hkey
      have hback : ∀ row ∈ (w.persist key).db.revisions, ∃ x ∈ w.db.revisions, x.id = row.id :=
        fun row hrow => by
          have hmem : row.id ∈ w.db.revisions.map (·.id) := hp.ids ▸ List.mem_map_of_mem hrow
          exact List.mem_map.1 hmem
      refine hls.same hl (fun hne => ?_) le_rfl le_rfl (fun row hrow => .inl (hback row hrow))
        (fun row hrow t => ?_) (fun row hrow t P _ => ?_) fun r hr P t => hw.nothing hr P t
      · refine ⟨key, ?_, hkey, hp.flushes⟩
        -- an empty batch changes no row
        by_contra hnone
        have hfields : w.fields key = [] := List.filter_eq_nil_iff.2 fun c hc hck =>
          hnone (List.any_eq_true.2 ⟨c, hc, hck⟩)
        unfold World.persist persistTx at hne
        rw [hfields, if_neg (by simp [hkey])] at hne
        exact hne.elim (fun h => h rfl) fun h => h rfl
      · obtain ⟨x, hx, hid⟩ := hback row hrow
        have hrows := hp.lifetime x hx t
        have hredis := pending_persist (P := fun _ => true) (r := x.id) (t := t) hw hkey
        rw [hid] at hrows hredis
        have hold : Database.lifetime { w.db with flushes := w.db.flushes ++ [⟨key, key.day⟩] }
          row.id t = w.db.lifetime row.id t := rfl
        simp only [and_true] at hredis
        omega
      · obtain ⟨x, hx, hid⟩ := hback row hrow
        have hrows := hp.daily x hx P t
        have hredis := pending_persist (P := P) (r := x.id) (t := t) hw hkey
        rw [hid] at hrows hredis
        have hold : Database.daily { w.db with flushes := w.db.flushes ++ [⟨key, key.day⟩] } P
          row.id t = w.db.daily P row.id t := rfl
        omega
  | @del key hkey =>
    exact hls.same hl (fromBatch_of_eq rfl) le_rfl le_rfl
      (fun row hrow => .inl ⟨row, hrow, rfl⟩) (fun row _ t => congrArg _ (pending_del hkey))
      (fun row _ t P _ => congrArg _ (pending_del hkey)) fun r hr P t => hw.nothing hr P t

/-- An increment is pending. -/
theorem Balanced.increment {n : ℕ} {type : MetricType} {revisionId : Id} {day : Day}
    {began : World} {h : History World Reply Failure} (hw : Sound w) (hls : Balanced ls w)
    (hlt : revisionId < w.nextId) : Balanced (ls ++ [.act (.increment n type revisionId day) began h
      (.ran w { w with redis := hincrby ⟨type, day, none⟩ revisionId w.redis })])
      { w with redis := hincrby ⟨type, day, none⟩ revisionId w.redis } := by
  have hone : ∀ P r t, (if isIncrement P r t (.act (.increment n type revisionId day) began h
      (.ran w { w with redis := hincrby ⟨type, day, none⟩ revisionId w.redis })) = true
        then 1 else 0) = if type = t ∧ revisionId = r ∧ P day = true then 1 else 0 :=
    fun P r t => if_congr (by simp [isIncrement, hincrby_ne hw]) rfl rfl
  refine ⟨fun r hr P t => ?_, fun row hrow t => ?_, fun row hrow t P hP => ?_, fun l' hl' => ?_⟩
  · rw [increments_append, hone, hls.fresh r hr P t, if_neg fun h => (hlt.trans_le hr).ne h.2.1]
  · rw [increments_append, hone, pending_hincrby hw rfl, ← hls.lifetime row hrow t]
    exact (Nat.add_assoc _ _ _).symm
  · rw [increments_append, hone, pending_hincrby hw rfl, ← hls.daily row hrow t P hP]
    exact (Nat.add_assoc _ _ _).symm
  · obtain hl' | hl' := List.mem_append.1 hl'
    · exact hls.fromBatch l' hl'
    · exact List.mem_singleton.1 hl' ▸ fromBatch_of_eq rfl

theorem Balanced.env (hw : Sound w) (hls : Balanced ls w) (h : Environment w w') :
    Balanced (ls ++ [.env]) w' := by
  have hnothing : ∀ r, w.nextId ≤ r → ∀ P t,
      w.db.lifetime r t + w.pending P r t = 0 ∧ w.db.daily P r t = 0 :=
    fun r hr P t => hw.nothing hr P t
  cases h with
  | tick hle =>
    exact hls.same (fun _ _ _ => rfl) trivial le_rfl hle (fun row hrow => .inl ⟨row, hrow, rfl⟩)
      (fun _ _ _ => rfl) (fun _ _ _ _ _ => rfl) hnothing
  | create =>
    refine hls.same (fun _ _ _ => rfl) trivial (Nat.le_succ _) le_rfl (fun row hrow => ?_)
      (fun row _ t => ?_) (fun _ _ _ _ _ => rfl) hnothing
    · obtain hrow | hrow := List.mem_append.1 hrow
      · exact .inl ⟨row, hrow, rfl⟩
      · exact .inr (by rw [List.mem_singleton.1 hrow])
    · unfold Database.lifetime
      rw [total_append, total_cons, Counts.get_zero]
      simp [World.pending, Database.flushed]
  | delete revisionId =>
    have hrows : ∀ row ∈ w.db.revisions.filter fun row => row.id ≠ revisionId,
        row ∈ w.db.revisions ∧ row.id ≠ revisionId := fun row hrow =>
      ⟨(List.mem_filter.1 hrow).1, of_decide_eq_true (List.mem_filter.1 hrow).2⟩
    refine hls.same (fun _ _ _ => rfl) trivial le_rfl le_rfl
      (fun row hrow => .inl ⟨row, (hrows row hrow).1, rfl⟩) (fun row hrow t => ?_)
      (fun row hrow t P _ => ?_) hnothing
    · refine congrArg (· + _) ((total_filter _ _).trans
        (total_congr (fun x _ => ?_) fun _ _ _ => rfl))
      by_cases hx : x.id = row.id
      · simp [hx, (hrows row hrow).2]
      · simp [hx]
    · refine congrArg (· + _) ((total_filter _ _).trans
        (total_congr (fun x _ => ?_) fun _ _ _ => rfl))
      by_cases hx : x.revisionId = row.id
      · simp [hx, (hrows row hrow).2]
      · simp [hx]
  | retain =>
    refine hls.same (fun _ _ _ => rfl) trivial le_rfl le_rfl
      (fun row hrow => .inl ⟨row, hrow, rfl⟩) (fun _ _ _ => rfl) (fun row hrow t P hP => ?_)
      hnothing
    refine congrArg (· + _) ((total_filter _ _).trans
      (total_congr (fun x _ => ?_) fun _ _ _ => rfl))
    by_cases hx : P x.day = true
    · simp [hx, hP x.day hx]
    · simp [hx]

end

/-- The days are those in `P` and the others. -/
theorem pending_split (w : World) (P : Day → Bool) (r : Id) (t : MetricType) :
    w.pending (fun _ => true) r t = w.pending P r t + w.pending (!P ·) r t := by
  unfold World.pending
  induction w.redis with
  | nil => rfl
  | cons c redis ih =>
    rw [total_cons, total_cons, total_cons, ih]
    by_cases hP : P c.key.day = true <;> simp [hP] <;> omega

theorem increments_split (P : Day → Bool) (r : Id) (t : MetricType)
    (ls : List (Label World Reply Failure Job)) :
    increments (fun _ => true) r t ls = increments P r t ls + increments (!P ·) r t ls := by
  unfold increments
  induction ls with
  | nil => rfl
  | cons l ls ih =>
    rw [List.countP_cons, List.countP_cons, List.countP_cons, ih]
    unfold isIncrement
    split
    · by_cases hP : P ‹Day› = true <;> simp [hP] <;> omega
    · rfl

/-- Every run is balanced. -/
theorem balanced_of_run {clock : ℕ} {c : Config World Reply Failure Job ℕ}
    {ls : List (Label World Reply Failure Job)}
    (hrun : metrics.Run (Config.idle (World.start clock)) ls c) :
    Sound c.shared ∧ Balanced ls c.shared := by
  have hsound : Sound (World.start clock) :=
    ⟨List.nodup_nil, List.nodup_nil, List.nodup_nil, by rintro c ⟨⟩, by rintro row ⟨⟩,
      by rintro c ⟨⟩, by rintro row ⟨⟩, by rintro row ⟨⟩⟩
  have hidle : safety.Safe (Config.idle (World.start clock)) := Protocol.safe_idle hsound
  refine ⟨(hidle.run hrun).inv, (hidle.along (L := fun _ => True) (J := Balanced)
    (R := fun _ _ => True) (fun _ => trivial) ?_ ?_ ?_ ?_ (Protocol.recalls_idle _) ?_ hrun
    fun _ _ => trivial).1⟩
  · intro ls l w hquiet hls
    cases l with
    | act j began h e =>
      cases e with
      | asked s q a => exact hls.quiet (fun _ _ _ => by cases j <;> rfl) trivial
      | ran s s' => exact hquiet.elim
    | env => exact hquiet.elim
    | crash j => exact hquiet.elim
    | start j => exact hls.quiet (fun _ _ _ => rfl) trivial
    | stop j => exact hls.quiet (fun _ _ _ => rfl) trivial
  · exact fun ls w w' hw henv hls => ⟨hls.env hw henv, fun _ _ => trivial⟩
  · intro ls j w _ hls
    exact ⟨hls.quiet (fun _ _ _ => rfl) trivial, fun _ _ => trivial⟩
  · intro ls j began h w w' _ hw _ _ hguar hls
    refine ⟨?_, fun _ _ => trivial⟩
    obtain rfl | hdoes := hguar
    · exact hls.quiet (fun P r t => by cases j <;> simp [isIncrement]) (fromBatch_of_eq rfl)
    · cases j with
      | increment n type revisionId day =>
        obtain ⟨hlt, rfl⟩ := hdoes
        exact hls.increment hw hlt
      | flush n fuel => exact hls.write hw hdoes fun _ _ _ => rfl
  · exact ⟨fun _ _ _ _ => rfl, by rintro row ⟨⟩, by rintro row ⟨⟩, by rintro l ⟨⟩⟩

/-! ### Exactly once -/

/-- A scan that returns every key twice. -/
def sampleOracle (w : World) : (q : Query) → Except Failure (Reply q)
  | .scan _ type onlyBatches =>
    let keys := (w.redis.map (·.key)).filter fun key =>
      key.type = type ∧ (onlyBatches = true → key.flush.isSome)
    .ok (0, keys ++ keys)

theorem answers_sampleOracle (w : World) (q : Query) : Answers w q (sampleOracle w q) := by
  obtain ⟨cursor, type, onlyBatches⟩ := q
  intro next page h key hkey
  obtain ⟨-, rfl⟩ := Prod.mk.inj (Except.ok.inj h)
  obtain ⟨hkey, hmatch⟩ := List.mem_filter.1 ((List.mem_append.1 hkey).elim (fun h => h) fun h => h)
  obtain ⟨c, hc, rfl⟩ := List.mem_map.1 hkey
  exact ⟨List.any_eq_true.2 ⟨c, hc, decide_eq_true rfl⟩, of_decide_eq_true hmatch⟩

/-- A revision is shown twice and clicked once, and two flushes run side by side: the second one
reads the batch before the first one persists it and crashes. -/
def sampleRun : List (Move World Reply Failure Job ℕ) :=
  [.env fun w => some { w with
      db := { w.db with revisions := w.db.revisions ++ [⟨w.nextId, Counts.zero⟩] }
      nextId := w.nextId + 1 },
    .start (.increment 0 .views 0 3), .act 0 1 sampleOracle, .stop 0,
    .start (.increment 0 .views 0 3), .act 0 1 sampleOracle, .stop 0,
    .start (.increment 0 .clicks 0 3), .act 0 1 sampleOracle, .stop 0,
    .start (.flush 1 1), .act 1 7 sampleOracle,
    .start (.flush 2 1), .act 2 5 sampleOracle,
    .act 1 1 sampleOracle, .crash 1,
    .act 2 2 sampleOracle]

theorem allows_sampleRun : ∀ m ∈ sampleRun, metrics.Allows m := by
  simp only [sampleRun, List.forall_mem_cons]
  refine ⟨?_, trivial, answers_sampleOracle, trivial, trivial, answers_sampleOracle, trivial,
    trivial, answers_sampleOracle, trivial, trivial, answers_sampleOracle, trivial,
    answers_sampleOracle, answers_sampleOracle, trivial, answers_sampleOracle, by simp⟩
  intro w w' h
  obtain rfl := Option.some.inj h
  exact .create

theorem sample_isSome :
    (metrics.play sampleRun (Config.idle (World.start 0))).isSome = true := by decide +kernel

/-- The end of the run. -/
def sampleEnd : Config World Reply Failure Job ℕ :=
  (metrics.play sampleRun (Config.idle (World.start 0))).get sample_isSome

/-- **Every count is flushed once.**  At any moment of any run the lifetime count of an existing
revision and what is still pending in Redis add up to its increments, and so do its daily row and
what is pending for a day that is retained; the daily rows sum to the lifetime count, up to the
days that are no longer retained.  A step that changes counts in the database takes them from a
batch that exists and has no receipt, and writes its receipt. -/
theorem flush_exactly_once {clock : ℕ} {c : Config World Reply Failure Job ℕ}
    {ls : List (Label World Reply Failure Job)}
    (hrun : metrics.Run (Config.idle (World.start clock)) ls c) :
    (∀ row ∈ c.shared.db.revisions, ∀ t,
      row.lifetime.get t + c.shared.pending (fun _ => true) row.id t =
        increments (fun _ => true) row.id t ls ∧
      (∀ day, retained c.shared.clock day = true →
        c.shared.db.daily (· = day) row.id t + c.shared.pending (· = day) row.id t =
          increments (· = day) row.id t ls) ∧
      row.lifetime.get t + c.shared.pending (!retained c.shared.clock ·) row.id t =
        c.shared.db.daily (retained c.shared.clock) row.id t +
          increments (!retained c.shared.clock ·) row.id t ls) ∧
    ∀ l ∈ ls, FromBatch l := by
  obtain ⟨hw, hls⟩ := balanced_of_run hrun
  refine ⟨fun row hrow t => ?_, hls.fromBatch⟩
  have hrowLifetime : c.shared.db.lifetime row.id t = row.lifetime.get t :=
    total_of_keyed hw.revisions hrow
  have hall := hls.lifetime row hrow t
  rw [hrowLifetime] at hall
  refine ⟨hall, fun day hday => hls.daily row hrow t _ fun d hd => ?_, ?_⟩
  · rw [of_decide_eq_true hd]
    exact hday
  · have hretained := hls.daily row hrow t (retained c.shared.clock) fun _ h => h
    have hpending := pending_split (w := c.shared) (retained c.shared.clock) row.id t
    have hincrements := increments_split (retained c.shared.clock) row.id t ls
    omega

theorem flush_exactly_once_sample : sampleEnd.shared.db.revisions = [⟨0, ⟨0, 2, 0⟩⟩] ∧
    2 + sampleEnd.shared.pending (fun _ => true) 0 .views =
      increments (fun _ => true) 0 .views
        (metrics.labels sampleRun (Config.idle (World.start 0))) := by
  have hrevisions : sampleEnd.shared.db.revisions = [⟨0, ⟨0, 2, 0⟩⟩] := by decide +kernel
  obtain ⟨hrows, -⟩ := flush_exactly_once
    (Machine.run_labels allows_sampleRun (Option.some_get sample_isSome).symm)
  have hmem : ⟨0, ⟨0, 2, 0⟩⟩ ∈ sampleEnd.shared.db.revisions := by
    rw [hrevisions]
    exact .head _
  exact ⟨hrevisions, (hrows _ hmem .views).1⟩

end Metrics

end PreCommunity
