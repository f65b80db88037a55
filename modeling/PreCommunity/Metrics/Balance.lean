import PreCommunity.Metrics.Counters

/-!
# The balance of the metrics

Every count is in one place: in a counter that no receipt covers, or in the rows of the database.

* `World.pending`, `Database.lifetime`, `Database.daily` : the counts in Redis and in the database.
* `Sound` : what holds of the keys and ids, kept by every write.
* `Write` : what a flush may do, with what it does to the counts.
* `Balanced` : the counts and the increments that happened.
-/

namespace PreCommunity

namespace Metrics

open Concurrent Store

/-! ### Sums -/

/-- What Redis holds for a revision on the days `P`, without the batches that have a receipt. -/
def World.pending (w : World) (P : Day → Bool) (revisionId : Id) (type : MetricType) : ℕ :=
  total (fun c => c.revisionId = revisionId ∧ c.key.type = type ∧ P c.key.day ∧
    !w.db.flushed c.key) (·.value) w.redis

/-- The lifetime count of a revision. -/
def Database.lifetime (db : Database) (revisionId : Id) (type : MetricType) : ℕ :=
  total (fun row => row.id = revisionId) (·.lifetime.get type) db.revisions

/-- The sum of the daily rows of a revision on the days `P`. -/
def Database.daily (db : Database) (P : Day → Bool) (revisionId : Id) (type : MetricType) : ℕ :=
  total (fun row => row.revisionId = revisionId ∧ P row.day) (·.counts.get type) db.dailyMetrics

/-- The fields of a revision in a batch. -/
def fieldsOf (revisionId : Id) (entries : List Counter) : ℕ :=
  total (fun c => c.revisionId = revisionId) (·.value) entries

theorem fieldsOf_positive (revisionId : Id) (entries : List Counter) :
    fieldsOf revisionId (entries.filter fun c => 0 < c.value) = fieldsOf revisionId entries := by
  induction entries with
  | nil => rfl
  | cons c entries ih =>
    unfold fieldsOf at ih ⊢
    rw [List.filter_cons, total_cons, ← ih]
    by_cases hc : 0 < c.value
    · rw [if_pos (decide_eq_true hc), total_cons]
    · rw [if_neg (by simpa using hc), Nat.eq_zero_of_not_pos hc]
      simp

/-! ### Keys and ids -/

/-- The batch was rolled before. -/
def World.issued (w : World) (key : Key) : Bool := key.flush.any (· < w.nextId)

/-- What holds of the keys and ids. -/
structure Sound (w : World) : Prop where
  fields : Keyed (fun c => (c.key, c.revisionId)) w.redis
  days : Keyed (fun row => (row.revisionId, row.day)) w.db.dailyMetrics
  revisions : Keyed AdCreativeRevision.id w.db.revisions
  batches : ∀ c ∈ w.redis, c.key.flush.all (· < w.nextId)
  receipts : ∀ row ∈ w.db.flushes, w.issued row.id = true
  counted : ∀ c ∈ w.redis, c.revisionId < w.nextId
  existing : ∀ row ∈ w.db.revisions, row.id < w.nextId
  daily : ∀ row ∈ w.db.dailyMetrics, row.revisionId < w.nextId

theorem flushed_iff {db : Database} {key : Key} :
    db.flushed key = true ↔ ∃ row ∈ db.flushes, row.id = key := by
  simp [Database.flushed]

section

variable {w w' : World} {key : Key} {P : Day → Bool} {r : Id} {t : MetricType}

/-- A hash that is counted in has no receipt. -/
theorem Sound.active (hw : Sound w) (hkey : key.flush = none) : w.db.flushed key = false := by
  by_contra hflushed
  obtain ⟨row, hrow, rfl⟩ := flushed_iff.1 (by simpa using hflushed)
  have := hw.receipts row hrow
  simp [World.issued, hkey] at this

/-- A batch that was not rolled before has no receipt and no field. -/
theorem Sound.unissued (hw : Sound w) (key : Key) (hkey : key.flush = some w.nextId) :
    w.db.flushed key = false ∧ ∀ c ∈ w.redis, c.key ≠ key := by
  refine ⟨?_, fun c hc heq => ?_⟩
  · by_contra hflushed
    obtain ⟨row, hrow, rfl⟩ := flushed_iff.1 (by simpa using hflushed)
    have := hw.receipts row hrow
    simp [World.issued, hkey] at this
  · have := hw.batches c hc
    simp [heq, hkey] at this

theorem issued_mono (hle : w.nextId ≤ w'.nextId) (h : w.issued key = true) :
    w'.issued key = true := by
  cases hflush : key.flush with
  | none => simp [World.issued, hflush] at h
  | some id =>
    have hlt : id < w.nextId := by simpa [World.issued, hflush] using h
    simpa [World.issued, hflush] using hlt.trans_le hle

/-! ### Counting -/

theorem mem_hincrby {c : Counter} (hc : c ∈ hincrby key r w.redis) :
    (c.key = key ∧ c.revisionId = r) ∨ c ∈ w.redis := by
  unfold hincrby upsert at hc
  split_ifs at hc
  · obtain ⟨hc, -⟩ | ⟨x, hx, hkey, rfl⟩ := mem_updateWhere_cases hc
    · exact .inr hc
    · exact .inl (by simpa using hkey)
  · obtain hc | hc := List.mem_append.1 hc
    · exact .inr hc
    · rw [List.mem_singleton.1 hc]
      exact .inl ⟨rfl, rfl⟩

theorem Sound.hincrby (hw : Sound w) (hkey : key.flush = none) (hr : r < w.nextId) :
    Sound { w with redis := hincrby key r w.redis } :=
  { hw with
    fields := @Keyed.upsert _ _ _ _ _ hw.fields _ ⟨key, r, 1⟩ fun _ => rfl
    batches := fun c hc => by
      obtain ⟨h, -⟩ | h := mem_hincrby hc
      · simp [h, hkey]
      · exact hw.batches c h
    counted := fun c hc => by
      obtain ⟨-, h⟩ | h := mem_hincrby hc
      · exact h ▸ hr
      · exact hw.counted c h }

theorem pending_hincrby (hw : Sound w) (hkey : key.flush = none) {r' : Id} :
    World.pending { w with redis := hincrby key r' w.redis } P r t = w.pending P r t +
      if key.type = t ∧ r' = r ∧ P key.day = true then 1 else 0 := by
  have hsum := total_upsert_keyed (g := Counter.value) (n := 1)
    (p := fun c => c.revisionId = r ∧ c.key.type = t ∧ P c.key.day ∧ !w.db.flushed c.key)
    (q := fun k => k.2 = r ∧ k.1.type = t ∧ P k.1.day ∧ !w.db.flushed k.1)
    (f := fun c => { c with value := c.value + 1 }) hw.fields ⟨key, r', 1⟩
    (fun _ => rfl) (fun _ => rfl) (fun _ => rfl) rfl
  refine hsum.trans (congrArg _ (if_congr ?_ rfl rfl))
  simp only [hw.active hkey, Bool.not_false, and_true, decide_eq_true_eq]
  exact ⟨fun h => ⟨h.2.1, h.1, h.2.2⟩, fun h => ⟨h.2.1, h.1, h.2.2⟩⟩

/-! ### Rolling -/

theorem mem_roll {c : Counter} (hc : c ∈ (w.roll key).redis) :
    ∃ x ∈ w.redis, c.revisionId = x.revisionId ∧
      (c = x ∨ x.key = key ∧ c = { x with key := { key with flush := some w.nextId } }) := by
  obtain ⟨hc, -⟩ | ⟨x, hx, hkey, rfl⟩ := mem_updateWhere_cases hc
  · exact ⟨c, (List.mem_filter.1 hc).1, rfl, .inl rfl⟩
  · exact ⟨x, (List.mem_filter.1 hx).1, rfl, .inr ⟨of_decide_eq_true hkey, rfl⟩⟩

/-- Nothing is overwritten. -/
theorem Sound.roll_redis (hw : Sound w) (key : Key) : (w.roll key).redis =
    updateWhere (fun c => c.key = key)
      (fun c => { c with key := { key with flush := some w.nextId } }) w.redis := by
  have hnone : w.redis.filter (fun c => c.key ≠ { key with flush := some w.nextId }) = w.redis :=
    List.filter_eq_self.2 fun c hc => decide_eq_true ((hw.unissued _ rfl).2 c hc)
  change updateWhere _ _ (w.redis.filter _) = _
  rw [hnone]

theorem Sound.roll (hw : Sound w) (key : Key) : Sound (w.roll key) where
  fields := by
    rw [hw.roll_redis]
    have hmap : (updateWhere (fun c => c.key = key)
        (fun c => { c with key := { key with flush := some w.nextId } }) w.redis).map
          (fun c => (c.key, c.revisionId)) =
        (w.redis.map fun c => (c.key, c.revisionId)).map fun k =>
          (if k.1 = key then { key with flush := some w.nextId } else k.1, k.2) := by
      simp only [updateWhere, List.map_map]
      refine List.map_congr_left fun c _ => ?_
      simp only [Function.comp, decide_eq_true_eq]
      split_ifs <;> rfl
    unfold Keyed
    rw [hmap]
    -- a field that is not renamed is not in the new batch
    refine List.Nodup.map_on (fun k hk k' hk' heq => ?_) hw.fields
    obtain ⟨c, hc, rfl⟩ := List.mem_map.1 hk
    obtain ⟨c', hc', rfl⟩ := List.mem_map.1 hk'
    have hold := (hw.unissued { key with flush := some w.nextId } rfl).2
    obtain ⟨hkeys, hids⟩ := Prod.mk.inj heq
    refine Prod.ext ?_ hids
    simp only at hkeys ⊢
    split_ifs at hkeys with h h' h'
    · exact h.trans h'.symm
    · exact absurd hkeys.symm (hold c' hc')
    · exact absurd hkeys (hold c hc)
    · exact hkeys
  days := hw.days
  revisions := hw.revisions
  batches := fun c hc => by
    obtain ⟨x, hx, -, rfl | ⟨-, rfl⟩⟩ := mem_roll hc
    · have := hw.batches c hx
      cases hflush : c.key.flush with
      | none => rfl
      | some id => simpa [World.roll, hflush] using Nat.lt_succ_of_lt (by simpa [hflush] using this)
    · simp [World.roll]
  receipts := fun row hrow => issued_mono (Nat.le_succ _) (hw.receipts row hrow)
  counted := fun c hc => by
    obtain ⟨x, hx, hid, -⟩ := mem_roll hc
    exact hid ▸ (hw.counted x hx).trans (Nat.lt_succ_self _)
  existing := fun row hrow => (hw.existing row hrow).trans (Nat.lt_succ_self _)
  daily := fun row hrow => (hw.daily row hrow).trans (Nat.lt_succ_self _)

theorem pending_roll (hw : Sound w) (hkey : key.flush = none) :
    (w.roll key).pending P r t = w.pending P r t := by
  unfold World.pending
  rw [hw.roll_redis]
  refine total_updateWhere (fun c hc hp => ?_) fun c hc hp _ => rfl
  have hold : w.db.flushed c.key = false := of_decide_eq_true hp ▸ hw.active hkey
  have hnew := (hw.unissued { key with flush := some w.nextId } rfl).1
  obtain rfl : c.key = key := of_decide_eq_true hp
  simp only [World.roll, hold, hnew]

/-! ### Persisting -/

/-- What the fields of a batch add to the rows. -/
structure Persisted (key : Key) (entries : List Counter) (db db' : Database) : Prop where
  flushes : db'.flushes = db.flushes
  ids : db'.revisions.map (·.id) = db.revisions.map (·.id)
  days : Keyed (fun row => (row.revisionId, row.day)) db'.dailyMetrics
  daily_ids : ∀ row ∈ db'.dailyMetrics, (∃ x ∈ db.dailyMetrics, x.revisionId = row.revisionId) ∨
    ∃ x ∈ db.revisions, x.id = row.revisionId
  lifetime : ∀ row ∈ db.revisions, ∀ t, db'.lifetime row.id t =
    db.lifetime row.id t + if key.type = t then fieldsOf row.id entries else 0
  daily : ∀ row ∈ db.revisions, ∀ P t, db'.daily P row.id t =
    db.daily P row.id t + if key.type = t ∧ P key.day = true then fieldsOf row.id entries else 0

/-- One field. -/
theorem persisted_one (key : Key) (n : ℕ) (entry : Counter) {db : Database}
    (hrevisions : Keyed AdCreativeRevision.id db.revisions)
    (hdays : Keyed (fun row : AdDailyMetric => (row.revisionId, row.day)) db.dailyMetrics) :
    Persisted key [entry] db (persistEntry key (db, n) entry).1 := by
  have hone : ∀ id, fieldsOf id [entry] = if entry.revisionId = id then entry.value else 0 := by
    simp [fieldsOf]
  by_cases hany : (db.revisions.any fun row => row.id = entry.revisionId) = true
  · have hdb : (persistEntry key (db, n) entry).1 = _ := congrArg Prod.fst (if_pos hany)
    rw [hdb]
    obtain ⟨x, hx, hid⟩ := List.any_eq_true.1 hany
    have hid : x.id = entry.revisionId := of_decide_eq_true hid
    refine ⟨rfl, map_updateWhere fun _ _ _ => rfl, ?_, ?_, ?_, ?_⟩
    · exact @Keyed.upsert _ _ _ _ _ hdays _
        ⟨entry.revisionId, key.day, Counts.zero.add key.type entry.value⟩ fun _ => rfl
    · intro row hrow
      simp only [upsert] at hrow
      split_ifs at hrow
      · obtain ⟨hrow, -⟩ | ⟨y, hy, -, rfl⟩ := mem_updateWhere_cases hrow
        · exact .inl ⟨row, hrow, rfl⟩
        · exact .inl ⟨y, hy, rfl⟩
      · obtain hrow | hrow := List.mem_append.1 hrow
        · exact .inl ⟨row, hrow, rfl⟩
        · rw [List.mem_singleton.1 hrow]
          exact .inr ⟨x, hx, hid⟩
    · intro row _ t
      have hsum := total_update_keyed (p := fun y => y.id = row.id) (g := (·.lifetime.get t))
        hrevisions hx (f := fun y => { y with lifetime := y.lifetime.add key.type entry.value })
        rfl (Counts.get_add _ _ _ _)
      simp only [hid] at hsum
      refine hsum.trans (congrArg _ ?_)
      rw [hone]
      by_cases hrow : entry.revisionId = row.id <;> simp [hrow]
    · intro row _ P t
      have hsum := total_upsert_keyed (p := fun y => y.revisionId = row.id ∧ P y.day)
        (g := (·.counts.get t)) (q := fun k => k.1 = row.id ∧ P k.2)
        (f := fun y => { y with counts := y.counts.add key.type entry.value }) hdays
        ⟨entry.revisionId, key.day, Counts.zero.add key.type entry.value⟩ (fun _ => rfl)
        (fun _ => rfl)
        (fun _ => Counts.get_add _ _ _ _)
        ((Counts.get_add _ _ _ _).trans (by simp))
      refine hsum.trans (congrArg _ ?_)
      rw [hone]
      by_cases hrow : entry.revisionId = row.id <;> by_cases hday : P key.day = true <;>
        simp [hrow, hday]
  · have hdb : (persistEntry key (db, n) entry).1 = db := congrArg Prod.fst (if_neg hany)
    rw [hdb]
    have hnone : ∀ row ∈ db.revisions, fieldsOf row.id [entry] = 0 := fun row hrow => by
      rw [hone, if_neg]
      intro heq
      exact hany (List.any_eq_true.2 ⟨row, hrow, by simp [heq]⟩)
    exact ⟨rfl, rfl, hdays, fun row hrow => .inl ⟨row, hrow, rfl⟩,
      fun row hrow t => by simp [hnone row hrow], fun row hrow P t => by simp [hnone row hrow]⟩

/-- **All fields of a batch**, by induction on the fields. -/
theorem persisted_foldl (key : Key) (entries : List Counter) (n : ℕ) {db : Database}
    (hrevisions : Keyed AdCreativeRevision.id db.revisions)
    (hdays : Keyed (fun row : AdDailyMetric => (row.revisionId, row.day)) db.dailyMetrics) :
    Persisted key entries db (entries.foldl (persistEntry key) (db, n)).1 := by
  induction entries generalizing db n with
  | nil => exact ⟨rfl, rfl, hdays, fun row hrow => .inl ⟨row, hrow, rfl⟩,
      fun _ _ _ => by simp [fieldsOf], fun _ _ _ _ => by simp [fieldsOf]⟩
  | cons entry entries ih =>
    have h := persisted_one key n entry hrevisions hdays
    have hkeys : Keyed AdCreativeRevision.id (persistEntry key (db, n) entry).1.revisions := by
      unfold Keyed
      rw [h.ids]
      exact hrevisions
    have h' := ih (persistEntry key (db, n) entry).2 hkeys h.days
    have hsplit : ∀ id, fieldsOf id (entry :: entries) =
        fieldsOf id [entry] + fieldsOf id entries := fun id => by simp [fieldsOf]
    -- a counter keeps every revision, so the rest can be read at the row with its id
    have hback : ∀ row ∈ db.revisions,
        ∃ x ∈ (persistEntry key (db, n) entry).1.revisions, x.id = row.id := fun row hrow => by
      have hmem : row.id ∈ (persistEntry key (db, n) entry).1.revisions.map (·.id) :=
        h.ids ▸ List.mem_map_of_mem hrow
      exact List.mem_map.1 hmem
    refine ⟨h'.flushes.trans h.flushes, h'.ids.trans h.ids, h'.days, fun row hrow => ?_,
      fun row hrow t => ?_, fun row hrow P t => ?_⟩
    · obtain ⟨x, hx, hid⟩ | ⟨x, hx, hid⟩ := h'.daily_ids row hrow
      · exact hid ▸ h.daily_ids x hx
      · have hmem : x.id ∈ db.revisions.map (·.id) := h.ids ▸ List.mem_map_of_mem hx
        obtain ⟨y, hy, hyid⟩ := List.mem_map.1 hmem
        exact .inr ⟨y, hy, hyid.trans hid⟩
    · obtain ⟨x, hx, hid⟩ := hback row hrow
      have hrest := h'.lifetime x hx t
      rw [hid] at hrest
      rw [List.foldl_cons, hrest, h.lifetime row hrow t, hsplit]
      split_ifs <;> omega
    · obtain ⟨x, hx, hid⟩ := hback row hrow
      have hrest := h'.daily x hx P t
      rw [hid] at hrest
      rw [List.foldl_cons, hrest, h.daily row hrow P t, hsplit]
      split_ifs <;> omega

/-- The world after the transaction of a batch. -/
def World.persist (w : World) (key : Key) : World :=
  { w with db := (persistTx key ((w.fields key).filter fun c => 0 < c.value) w.db).1 }

theorem persist_flushed (hkey : w.db.flushed key = true) : w.persist key = w := by
  unfold World.persist persistTx
  rw [if_pos hkey]

/-- A batch without receipt gets one, and its fields are added. -/
theorem Sound.persisted (hw : Sound w) (hkey : w.db.flushed key = false) :
    Persisted key (w.fields key) { w.db with flushes := w.db.flushes ++ [⟨key, key.day⟩] }
      (w.persist key).db := by
  have hdb : (w.persist key).db = (((w.fields key).filter fun c => 0 < c.value).foldl
      (persistEntry key)
      ({ w.db with flushes := w.db.flushes ++ [⟨key, key.day⟩] }, 0)).1 := by
    unfold World.persist persistTx
    rw [if_neg (by simp [hkey])]
  rw [hdb]
  have h : Persisted key _ { w.db with flushes := w.db.flushes ++ [⟨key, key.day⟩] } _ :=
    persisted_foldl key ((w.fields key).filter fun c => 0 < c.value) 0 hw.revisions hw.days
  exact ⟨h.flushes, h.ids, h.days, h.daily_ids,
    fun row hrow t => (h.lifetime row hrow t).trans (by rw [fieldsOf_positive]),
    fun row hrow P t => (h.daily row hrow P t).trans (by rw [fieldsOf_positive])⟩

theorem Sound.persist (hw : Sound w) (hissued : w.issued key = true) : Sound (w.persist key) := by
  cases hkey : w.db.flushed key with
  | true => exact (persist_flushed hkey).symm ▸ hw
  | false =>
    have h := hw.persisted hkey
    have hids : ∀ row ∈ (w.persist key).db.revisions, ∃ x ∈ w.db.revisions, x.id = row.id :=
      fun row hrow => by
        have hmem : row.id ∈ w.db.revisions.map (·.id) := h.ids ▸ List.mem_map_of_mem hrow
        exact List.mem_map.1 hmem
    refine
      { fields := hw.fields
        days := h.days
        revisions := ?_
        batches := hw.batches
        receipts := fun row hrow => ?_
        counted := hw.counted
        existing := fun row hrow => ?_
        daily := fun row hrow => ?_ }
    · unfold Keyed
      rw [h.ids]
      exact hw.revisions
    · obtain hrow | hrow := List.mem_append.1 (h.flushes ▸ hrow)
      · exact hw.receipts row hrow
      · rw [List.mem_singleton.1 hrow]
        exact hissued
    · obtain ⟨x, hx, hid⟩ := hids row hrow
      exact hid ▸ hw.existing x hx
    · obtain ⟨x, hx, hid⟩ | ⟨x, hx, hid⟩ := h.daily_ids row hrow
      · exact hid ▸ hw.daily x hx
      · exact hid ▸ hw.existing x hx

theorem flushed_persist (k : Key) (hw : Sound w) (hkey : w.db.flushed key = false) :
    (w.persist key).db.flushed k = (w.db.flushed k || decide (key = k)) := by
  unfold Database.flushed
  rw [(hw.persisted hkey).flushes, List.any_append]
  simp

/-- What the receipt covers is no longer pending. -/
theorem pending_persist (hw : Sound w) (hkey : w.db.flushed key = false) :
    (w.persist key).pending P r t +
      (if key.type = t ∧ P key.day = true then fieldsOf r (w.fields key) else 0) =
      w.pending P r t := by
  have hgeneral : ∀ redis : List Counter,
      total (fun c => c.revisionId = r ∧ c.key.type = t ∧ P c.key.day ∧
        !(w.persist key).db.flushed c.key) (·.value) redis +
      (if key.type = t ∧ P key.day = true then
        fieldsOf r (redis.filter fun c => c.key = key) else 0) =
      total (fun c => c.revisionId = r ∧ c.key.type = t ∧ P c.key.day ∧
        !w.db.flushed c.key) (·.value) redis := by
    intro redis
    induction redis with
    | nil => simp [fieldsOf]
    | cons c redis ih =>
      rw [total_cons, total_cons, ← ih, flushed_persist _ hw hkey, List.filter_cons]
      by_cases hc : c.key = key
      · subst hc
        simp only [hkey, fieldsOf, decide_true, if_true, total_cons]
        by_cases hr : c.revisionId = r <;> by_cases hP : c.key.type = t ∧ P c.key.day = true <;>
          (simp [hr, hP]; try omega)
      · have hc' : key ≠ c.key := fun h => hc h.symm
        simp only [hc, hc', decide_false, Bool.or_false]
        simp only [Bool.false_eq_true, if_false]
        omega
  exact hgeneral w.redis

/-! ### Deleting -/

theorem Sound.del (hw : Sound w) (key : Key) :
    Sound { w with redis := w.redis.filter fun c => c.key ≠ key } :=
  { hw with
    fields := hw.fields.filter _
    batches := fun c hc => hw.batches c (List.mem_filter.1 hc).1
    counted := fun c hc => hw.counted c (List.mem_filter.1 hc).1 }

theorem pending_del (hkey : w.db.flushed key = true) :
    World.pending { w with redis := w.redis.filter fun c => c.key ≠ key } P r t =
      w.pending P r t := by
  refine (total_filter _ _).trans (total_congr (fun c _ => ?_) fun _ _ _ => rfl)
  by_cases hc : c.key = key
  · simp [hc, hkey]
  · simp [hc]

end

end Metrics

end PreCommunity
