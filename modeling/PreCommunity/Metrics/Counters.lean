import PreCommunity.Concurrent.Triples
import PreCommunity.Store.Table

/-!
# Counting what advertisements achieve

The API counts resolutions, views and clicks of advertisements in Redis, in one hash for every kind
of count and every day.  The worker flushes these hashes into the database: it renames a hash, so
that nothing is added to it any more, adds its fields to the rows of the database together with a
receipt, and deletes it.

A hash of Redis is the list of its fields, so a key exists just when it has a field.  Only keys that
the API writes are modelled, hence every key has a kind and a day.

* `Counter`, `Database`, `World` : the fields in Redis and the rows of the database.
* `incrementCounter` : the API.
* `scanKeys`, `rollActiveCounters`, `persistBatch`, `flushAdResolutionMetrics` : the worker.
* `metrics` : the machine.
-/

namespace PreCommunity

namespace Metrics

open Concurrent Store

/-! ### Rows -/

/-- The ids of revisions and of batches. -/
abbrev Id := ℕ

/-- A day, in UTC. -/
abbrev Day := ℕ

/-- What is counted. -/
inductive MetricType where
  | resolutions | views | clicks
deriving DecidableEq, Repr

/-- `metricTypes`. -/
def metricTypes : List MetricType := [.resolutions, .views, .clicks]

/-- A number for everything that is counted. -/
structure Counts where
  resolutions : ℕ
  views : ℕ
  clicks : ℕ
deriving DecidableEq, Repr

namespace Counts

/-- Nothing was counted. -/
def zero : Counts := ⟨0, 0, 0⟩

/-- The number for one of them. -/
def get (counts : Counts) : MetricType → ℕ
  | .resolutions => counts.resolutions
  | .views => counts.views
  | .clicks => counts.clicks

/-- `increment` of one of them. -/
def add (counts : Counts) (type : MetricType) (n : ℕ) : Counts :=
  match type with
  | .resolutions => { counts with resolutions := counts.resolutions + n }
  | .views => { counts with views := counts.views + n }
  | .clicks => { counts with clicks := counts.clicks + n }

theorem get_add (counts : Counts) (type type' : MetricType) (n : ℕ) :
    (counts.add type n).get type' = counts.get type' + if type = type' then n else 0 := by
  cases type <;> cases type' <;> rfl

@[simp] theorem get_zero (type : MetricType) : zero.get type = 0 := by cases type <;> rfl

end Counts

/-- A key of Redis: `adMetricCounterKey` of a kind and a day, and the id of the batch behind
`FLUSH_MARKER` when it was rolled. -/
structure Key where
  type : MetricType
  day : Day
  flush : Option Id
deriving DecidableEq, Repr

/-- A field of a hash. -/
structure Counter where
  key : Key
  revisionId : Id
  value : ℕ
deriving DecidableEq, Repr

/-- A row of `AdCreativeRevision`. -/
structure AdCreativeRevision where
  id : Id
  lifetime : Counts
deriving DecidableEq, Repr

/-- A row of `AdDailyMetric`. -/
structure AdDailyMetric where
  revisionId : Id
  day : Day
  counts : Counts
deriving DecidableEq, Repr

/-- A row of `AdMetricFlush`, the receipt of a batch. -/
structure AdMetricFlush where
  id : Key
  bucketDay : Day
deriving DecidableEq, Repr

/-- The tables. -/
structure Database where
  revisions : List AdCreativeRevision
  dailyMetrics : List AdDailyMetric
  flushes : List AdMetricFlush
deriving DecidableEq

/-- Redis, the database and the time. -/
structure World where
  redis : List Counter
  db : Database
  /-- The next id that is generated. -/
  nextId : Id
  /-- The time in milliseconds. -/
  clock : ℕ
deriving DecidableEq

namespace World

/-- Nothing was counted, and there is no revision. -/
def start (clock : ℕ) : World := ⟨[], ⟨[], [], []⟩, 0, clock⟩

/-- `EXISTS`. -/
def hasKey (w : World) (key : Key) : Bool := w.redis.any fun c => c.key = key

/-- `HGETALL`. -/
def fields (w : World) (key : Key) : List Counter := w.redis.filter fun c => c.key = key

end World

/-- The batch has a receipt. -/
def Database.flushed (db : Database) (key : Key) : Bool := db.flushes.any fun row => row.id = key

/-! ### Processes -/

/-- A page of the keys of one kind; `onlyBatches` is the pattern with `FLUSH_MARKER`. -/
inductive Query where
  | scan (cursor : ℕ) (type : MetricType) (onlyBatches : Bool)
deriving DecidableEq, Repr

/-- The next cursor and the keys of the page. -/
def Reply : Query → Type := fun _ => ℕ × List Key

/-- A connection fails. -/
inductive Failure where
  | other
deriving DecidableEq, Repr

/-- A process of the API or the worker. -/
abbrev Worker := Routine Unit World Reply Failure

/-- `HINCRBY` by one. -/
def hincrby (key : Key) (revisionId : Id) (redis : List Counter) : List Counter :=
  upsert (fun c => (c.key, c.revisionId) = (key, revisionId))
    (fun c => { c with value := c.value + 1 }) ⟨key, revisionId, 1⟩ redis

/-- `AdsMetricsService.incrementCounter`. -/
def incrementCounter (type : MetricType) (revisionId : Id) (day : Day) : Worker Unit :=
  Routine.write .other fun w => { w with redis := hincrby ⟨type, day, none⟩ revisionId w.redis }

/-- `scanKeys`; a scan that runs out of fuel fails. -/
def scanKeys (type : MetricType) (onlyBatches : Bool) : ℕ → ℕ → Worker (List Key)
  | 0, _ => throw .other
  | fuel + 1, cursor => do
    let (next, page) ← (Routine.ask (.scan cursor type onlyBatches) :
      Worker (Reply (.scan cursor type onlyBatches)))
    if next = 0 then return page
    else
      let rest ← scanKeys type onlyBatches fuel next
      return page ++ rest

/-- `RENAME` to the key of a new batch, where there is something to rename. -/
def World.roll (w : World) (activeKey : Key) : World :=
  let batchKey := { activeKey with flush := some w.nextId }
  { w with
    redis := updateWhere (fun c => c.key = activeKey) (fun c => { c with key := batchKey })
      (w.redis.filter fun c => c.key ≠ batchKey)
    nextId := w.nextId + 1 }

/-- The script that renames a key if it exists. -/
def rollActiveCounter (activeKey : Key) : Worker (Option Key) :=
  Routine.atomically .other fun w =>
    if w.hasKey activeKey then
      (.ok (some { activeKey with flush := some w.nextId }), w.roll activeKey)
    else (.ok none, w)

/-- `rollActiveCounters`. -/
def rollActiveCounters (fuel : ℕ) (type : MetricType) : Worker (List Key) := do
  let keys ← scanKeys type false fuel 0
  let mut batches := []
  for activeKey in keys.filter (·.flush.isNone) do
    let moved ← rollActiveCounter activeKey
    batches := batches ++ moved.toList
  return batches

/-- A field of a batch is added to the rows of its revision, which must exist. -/
def persistEntry (batchKey : Key) (r : Database × ℕ) (entry : Counter) : Database × ℕ :=
  if r.1.revisions.any fun row => row.id = entry.revisionId then
    ({ r.1 with
      dailyMetrics := upsert
        (fun row => (row.revisionId, row.day) = (entry.revisionId, batchKey.day))
        (fun row => { row with counts := row.counts.add batchKey.type entry.value })
        ⟨entry.revisionId, batchKey.day, Counts.zero.add batchKey.type entry.value⟩
        r.1.dailyMetrics
      revisions := updateWhere (fun row => row.id = entry.revisionId)
        (fun row => { row with lifetime := row.lifetime.add batchKey.type entry.value })
        r.1.revisions }, r.2 + entry.value)
  else r

/-- The transaction of a batch: its receipt, unless there is one, and its fields. -/
def persistTx (batchKey : Key) (entries : List Counter) (db : Database) : Database × Bool × ℕ :=
  if db.flushed batchKey then (db, false, 0)
  else
    let r := entries.foldl (persistEntry batchKey)
      ({ db with flushes := db.flushes ++ [⟨batchKey, batchKey.day⟩] }, 0)
    (r.1, true, r.2)

/-- What became of a batch. -/
structure BatchResult where
  batchKey : Key
  applied : Bool
  total : ℕ
deriving DecidableEq, Repr

/-- `DEL`. -/
def del (key : Key) : Worker Unit :=
  Routine.write .other fun w => { w with redis := w.redis.filter fun c => c.key ≠ key }

/-- `persistBatch`. -/
def persistBatch (batchKey : Key) : Worker BatchResult := do
  let counters ← Routine.read .other fun w : World => w.fields batchKey
  let entries := counters.filter fun entry => 0 < entry.value
  let (applied, total) ← Routine.atomically .other fun w : World =>
    let r := persistTx batchKey entries w.db
    (.ok (r.2.1, r.2.2), { w with db := r.1 })
  del batchKey
  return ⟨batchKey, applied, total⟩

/-- What a flush reports. -/
structure FlushResult where
  batches : ℕ
  applied : ℕ
  totals : Counts
deriving DecidableEq, Repr

/-- The report on the batches. -/
def FlushResult.of (results : List BatchResult) : FlushResult where
  batches := results.length
  applied := results.countP (·.applied)
  totals := results.foldl (fun totals result =>
    if result.applied then totals.add result.batchKey.type result.total else totals) Counts.zero

/-- `flushAdResolutionMetrics`. -/
def flushAdResolutionMetrics (fuel : ℕ) : Worker FlushResult := do
  let mut results := []
  for type in metricTypes do
    let _ ← rollActiveCounters fuel type
    let batches ← scanKeys type true fuel 0
    for batch in batches do
      let result ← persistBatch batch
      results := results ++ [result]
  return FlushResult.of results

/-! ### The machine -/

/-- What may run; the number tells the jobs apart that run side by side. -/
inductive Job where
  | increment (n : ℕ) (type : MetricType) (revisionId : Id) (day : Day)
  | flush (n : ℕ) (fuel : ℕ)

namespace Job

/-- Where a job runs. -/
def slot : Job → ℕ
  | increment n .. | flush n _ => n

/-- The revision that is counted. -/
def revision? : Job → Option Id
  | increment _ _ revisionId _ => some revisionId
  | flush .. => none

/-- The code of a job. -/
def code : Job → Program World Reply Failure Unit
  | increment _ type revisionId day => (incrementCounter type revisionId day).silently ()
  | flush _ fuel => (flushAdResolutionMetrics fuel).silently ()

end Job

/-- A day, in milliseconds. -/
def dayMs : ℕ := 24 * 60 * 60 * 1000

/-- `RETENTION_MS`. -/
def retentionMs : ℕ := 365 * dayMs

/-- The rows of the day are not deleted at this time. -/
def retained (clock : ℕ) (day : Day) : Bool := clock ≤ day * dayMs + retentionMs

/-- The steps of the environment: time passes, revisions come and go, and the rows of days that are
no longer retained are deleted.  Receipts outlive the keys of Redis. -/
inductive Environment : World → World → Prop where
  | tick {w : World} {clock : ℕ} : w.clock ≤ clock → Environment w { w with clock := clock }
  | create {w : World} : Environment w { w with
      db := { w.db with revisions := w.db.revisions ++ [⟨w.nextId, Counts.zero⟩] }
      nextId := w.nextId + 1 }
  | delete {w : World} (revisionId : Id) : Environment w { w with
      db := { w.db with
        revisions := w.db.revisions.filter fun row => row.id ≠ revisionId
        dailyMetrics := w.db.dailyMetrics.filter fun row => row.revisionId ≠ revisionId } }
  | retain {w : World} : Environment w { w with
      db := { w.db with
        dailyMetrics := w.db.dailyMetrics.filter fun row => retained w.clock row.day } }

/-- A page of a scan has keys that exist, in any order and any number of times. -/
def Answers (w : World) : (q : Query) → Except Failure (Reply q) → Prop
  | .scan _ type onlyBatches, r => ∀ next page, r = .ok (next, page) → ∀ key ∈ page,
      w.hasKey key = true ∧ key.type = type ∧ (onlyBatches = true → key.flush.isSome)

/-- The metrics.  Only revisions that were created are counted. -/
def metrics : Machine World Reply Failure Job ℕ where
  code := Job.code
  slot := Job.slot
  admits j w := j.revision?.all (· < w.nextId)
  answers := Answers
  env := Environment
  halt _ w := w

end Metrics

end PreCommunity
