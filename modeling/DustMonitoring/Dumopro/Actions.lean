import DustMonitoring.Dumopro.Backfill
import DustMonitoring.Dumopro.StationTask

/-!
# A station task, action by action

A tick or a cold start can be cut short at every call to the database or
to Redis.  Here both are lists of `Action`s: a tick that raises an
exception, and a process that ends, do some of the actions of the list,
from the front, and leave the others out.

* `act` is the effect of one action on the task and its keys in Redis.
* `tickActions` and `coldActions` are the lists.  All actions of a tick
  together are `StationTask.tick` (`tick_eq_run`), and all actions of a cold
  start on an empty Redis are `coldRedis` (`redis_run_coldActions`).

What is published on the channel of the station is no action of its own:
an exception there comes between two actions of the list.
-/

namespace DustMonitoring.Dumopro

open DustMonitoring.Lib

/-- What a station task does between two points at which it can be cut
short. -/
inductive Action where
  /-- Remember the bucket of the sample, and schedule the one before. -/
  | crossBoundary (s : SampleRow) (unit : BucketUnit)
  | addLiveRaw (s : SampleRow) (unit : BucketUnit)
  | markDirty (s : SampleRow) (unit : BucketUnit)
  | setCursor (last : SampleRow)
  | popDirty (p : BucketUnit × BucketKey)
  | setLiveStats (updatedAt : DateTime) (p : BucketUnit × BucketKey)
  | freezeBucket (p : BucketUnit × BucketKey)
  | dropPending (p : BucketUnit × BucketKey)
  /-- A bucket that a cold start freezes. -/
  | freezeItems (unit : BucketUnit) (lastSampledAt : DateTime)
      (bucket : BucketKey × List SampleRow)
  /-- The statistics of the bucket that a cold start leaves live. -/
  | setItemStats (unit : BucketUnit) (lastSampledAt : DateTime)
      (bucket : BucketKey × List SampleRow)

namespace Redis

/-- The freeze of a bucket, from what its live set holds. -/
def freezeLive (r : Redis) (p : BucketUnit × BucketKey) : Redis :=
  match computeBoxStats (r.getLiveRawValues p.1 p.2), inferTsForBucket p.2 p.1 with
  | some stats, some ts =>
    r.freezeBucket p.1 p.2 ⟨stats, none⟩ (bucketScore ts p.1)
  | _, _ => r

/-- The live statistics that a cold start sets. -/
def setItemStats (r : Redis) (unit : BucketUnit) (lastSampledAt : DateTime)
    (bucket : BucketKey × List SampleRow) : Redis :=
  match computeBoxStats (bucket.2.map SampleRow.value) with
  | none => r
  | some stats => r.setLiveStats unit bucket.1 ⟨stats, some lastSampledAt⟩

end Redis

namespace StationTask

/-- The task after the action. -/
def act (c : Settings) (clock : Nat → BucketUnit → Rat) (t : StationTask) :
    Action → StationTask
  | .crossBoundary s unit =>
    { t with
      freezer :=
        match t.lastBucketKeys unit with
        | none => t.freezer
        | some prev =>
          if prev ≠ bucketKey s.sampledAt unit then
            t.freezer.schedule c.gracePeriodSec (clock s.id unit) unit prev
          else t.freezer
      lastBucketKeys :=
        Function.update t.lastBucketKeys unit (some (bucketKey s.sampledAt unit)) }
  | .addLiveRaw s unit =>
    { t with
      redis := t.redis.addLiveRaw unit (bucketKey s.sampledAt unit) s.id s.value }
  | .markDirty s unit =>
    { t with
      dirty := addDirty t.dirty (unit, bucketKey s.sampledAt unit) }
  | .setCursor last =>
    { t with
      redis := t.redis.setCursor last.id last.sampledAt }
  | .popDirty p =>
    { t with
      dirty := t.dirty.erase p }
  | .setLiveStats updatedAt p =>
    { t with
      redis := recompute updatedAt t.redis p }
  | .freezeBucket p =>
    { t with
      redis := t.redis.freezeLive p }
  | .dropPending p =>
    { t with
      freezer := t.freezer.drop p.1 p.2 }
  | .freezeItems unit lastSampledAt bucket =>
    { t with
      redis := Dumopro.freezeItems unit lastSampledAt t.redis bucket }
  | .setItemStats unit lastSampledAt bucket =>
    { t with
      redis := t.redis.setItemStats unit lastSampledAt bucket }

/-! ## The actions of a tick -/

/-- A sample and a unit. -/
def sampleActions (s : SampleRow) (unit : BucketUnit) : List Action :=
  [.crossBoundary s unit, .addLiveRaw s unit, .markDirty s unit]

/-- The samples of a batch. -/
def addActions (batch : List SampleRow) : List Action :=
  batch.flatMap fun s => unitList.flatMap (sampleActions s)

/-- What follows a batch: the cursor, and `_recompute_dirty`. -/
def commitActions (last : SampleRow) (dirty : List (BucketUnit × BucketKey)) :
    List Action :=
  .setCursor last ::
    dirty.flatMap fun p => [.popDirty p, .setLiveStats last.sampledAt p]

/-- `_process_freezes`. -/
def freezeActions (due : List (BucketUnit × BucketKey)) : List Action :=
  due.flatMap fun p => [.freezeBucket p, .dropPending p]

/-- `_tick`.  The set of dirty buckets is popped in the order `pops`. -/
def tickActions (c : Settings)
    (pops : List (BucketUnit × BucketKey) → List (BucketUnit × BucketKey))
    (t : StationTask) (τ : Tick) : List Action :=
  let batch := fetched c t τ
  let added := run (act c τ.clock) t (addActions batch)
  addActions batch ++
    ((match batch.getLast? with
      | none => []
      | some last => commitActions last (pops added.dirty)) ++
    freezeActions (added.freezer.due τ.dueAt))

/-- What `_tick` returns. -/
def tickResult (c : Settings) (t : StationTask) (τ : Tick) : Nat :=
  match (fetched c t τ).getLast? with
  | none => t.lastId
  | some last => last.id

section Tick

variable {c : Settings} {clock : Nat → BucketUnit → Rat} {t : StationTask}

theorem run_sampleActions (s : SampleRow) (unit : BucketUnit) :
    run (act c clock) t (sampleActions s unit) = addSample c (clock s.id) s t unit :=
  rfl

theorem run_addActions (batch : List SampleRow) :
    run (act c clock) t (addActions batch) = batch.foldl (handleSample c clock) t := by
  rw [addActions, run_flatMap]
  simp only [run_flatMap, run_sampleActions]
  rfl

/-- Each dirty bucket is popped and recomputed. -/
theorem run_recomputeActions (updatedAt : DateTime) {ps : List (BucketUnit × BucketKey)}
    (h : t.dirty = ps) :
    run (act c clock) t (ps.flatMap fun p => [.popDirty p, .setLiveStats updatedAt p]) =
      recomputeDirty updatedAt t := by
  induction ps generalizing t with
  | nil =>
    show t = _
    rw [recomputeDirty, h, List.foldl_nil, ← h]
  | cons p ps ih =>
    have hpop : t.dirty.erase p = ps := by rw [h, List.erase_cons_head]
    rw [List.flatMap_cons, run_append, recomputeDirty, h, List.foldl_cons]
    refine (ih (t := act c clock (act c clock t (.popDirty p))
      (.setLiveStats updatedAt p)) hpop).trans ?_
    rw [recomputeDirty]
    show { t with
      redis := (t.dirty.erase p).foldl _ (recompute updatedAt t.redis p)
      dirty := [] } = _
    rw [hpop]

theorem run_commitActions (last : SampleRow) :
    run (act c clock) t (commitActions last t.dirty) =
      recomputeDirty last.sampledAt
        { t with
          redis := t.redis.setCursor last.id last.sampledAt } :=
  run_recomputeActions last.sampledAt rfl

theorem freeze_eq (t : StationTask) (p : BucketUnit × BucketKey) :
    freeze t p =
      { t with
        redis := t.redis.freezeLive p
        freezer := t.freezer.drop p.1 p.2 } := by
  unfold freeze Redis.freezeLive
  cases computeBoxStats (t.redis.getLiveRawValues p.1 p.2) with
  | none => rfl
  | some stats =>
    cases inferTsForBucket p.2 p.1 with
    | none => rfl
    | some ts => rfl

theorem run_freezeActions (due : List (BucketUnit × BucketKey)) :
    run (act c clock) t (freezeActions due) = due.foldl freeze t := by
  have hfreeze : ∀ (t : StationTask) p,
      run (act c clock) t [.freezeBucket p, .dropPending p] = freeze t p :=
    fun t p => (freeze_eq t p).symm
  rw [freezeActions, run_flatMap]
  simp only [hfreeze]

/-- A freeze neither reads nor writes the last id. -/
theorem foldl_freeze_lastId (due : List (BucketUnit × BucketKey)) (n : Nat) :
    due.foldl freeze { t with lastId := n } = { due.foldl freeze t with lastId := n } := by
  induction due generalizing t with
  | nil => rfl
  | cons p ps ih =>
    have hfreeze : freeze { t with lastId := n } p = { freeze t p with lastId := n } := by
      rw [freeze_eq, freeze_eq]
    rw [List.foldl_cons, hfreeze, ih, List.foldl_cons]

/-- A tick does all its actions, and then its result becomes the last
id. -/
theorem tick_eq_run (c : Settings) (t : StationTask) (τ : Tick) :
    tick c t τ =
      { run (act c τ.clock) t (tickActions c id t τ) with
        lastId := tickResult c t τ } := by
  rw [tickActions, tickResult, tick, processFreezes, handleBatch, run_append, run_append,
    run_freezeActions, run_addActions]
  cases hlast : (fetched c t τ).getLast? with
  | none =>
    rw [List.getLast?_eq_none_iff.mp hlast]
    show (t.freezer.due τ.dueAt).foldl freeze t = _
    rw [← foldl_freeze_lastId]
    rfl
  | some last =>
    dsimp only [id]
    rw [run_commitActions, ← foldl_freeze_lastId]
    rfl

end Tick

/-! ## The actions of a cold start -/

/-- A unit: its buckets but the last one, and then that one. -/
def coldUnitActions (samples : List SampleRow) (lastSampledAt : DateTime)
    (unit : BucketUnit) : List Action :=
  let buckets := sortedBuckets samples unit
  match buckets.getLast? with
  | none => []
  | some live =>
    buckets.dropLast.map (.freezeItems unit lastSampledAt) ++
      (live.2.map (.addLiveRaw · unit) ++ [.setItemStats unit lastSampledAt live])

/-- `cold_start` once the samples were read. -/
def coldActions (samples : List SampleRow) : List Action :=
  match samples.getLast? with
  | none => []
  | some last =>
    unitList.flatMap (coldUnitActions samples last.sampledAt) ++ [.setCursor last]

section ColdStart

variable {c : Settings} {clock : Nat → BucketUnit → Rat} {t : StationTask}

/-- The samples of a bucket are of the bucket. -/
theorem bucketKey_of_mem_sortedBuckets {samples : List SampleRow} {unit : BucketUnit}
    {bucket : BucketKey × List SampleRow} (hb : bucket ∈ sortedBuckets samples unit)
    {s : SampleRow} (hs : s ∈ bucket.2) :
    s ∈ samples ∧ bucketKey s.sampledAt unit = bucket.1 := by
  rw [snd_of_mem_groupOn (mem_sortedBuckets.mp hb)] at hs
  exact ⟨List.mem_of_mem_filter hs, of_decide_eq_true (List.mem_filter.mp hs).2⟩

theorem run_freezeItems (unit : BucketUnit) (lastSampledAt : DateTime)
    (buckets : List (BucketKey × List SampleRow)) :
    run (act c clock) t (buckets.map (.freezeItems unit lastSampledAt)) =
      { t with
        redis := buckets.foldl (freezeItems unit lastSampledAt) t.redis } := by
  induction buckets generalizing t with
  | nil => rfl
  | cons b bs ih => exact ih

theorem run_addItems {unit : BucketUnit} {bkey : BucketKey} {items : List SampleRow}
    (h : ∀ s ∈ items, bucketKey s.sampledAt unit = bkey) :
    run (act c clock) t (items.map (.addLiveRaw · unit)) =
      { t with
        redis := addAll unit bkey items t.redis } := by
  induction items generalizing t with
  | nil => rfl
  | cons s ss ih =>
    have hs := h s List.mem_cons_self
    rw [List.map_cons, run_cons, ih fun x hx => h x (List.mem_cons_of_mem s hx)]
    show { t with redis := addAll unit bkey ss (t.redis.addLiveRaw unit _ s.id s.value) } = _
    rw [hs]
    rfl

theorem run_coldUnitActions (samples : List SampleRow) (lastSampledAt : DateTime)
    (unit : BucketUnit) :
    run (act c clock) t (coldUnitActions samples lastSampledAt unit) =
      { t with
        redis := coldUnit samples lastSampledAt t.redis unit } := by
  unfold coldUnitActions coldUnit
  dsimp only
  cases hlive : (sortedBuckets samples unit).getLast? with
  | none => rfl
  | some live =>
    have hkey : ∀ s ∈ live.2, bucketKey s.sampledAt unit = live.1 := fun s hs =>
      (bucketKey_of_mem_sortedBuckets (List.mem_of_getLast? hlive) hs).2
    rw [run_append, run_append, run_freezeItems, run_addItems hkey]
    rfl

theorem run_coldUnits (samples : List SampleRow) (lastSampledAt : DateTime)
    (units : List BucketUnit) :
    run (act c clock) t (units.flatMap (coldUnitActions samples lastSampledAt)) =
      { t with
        redis := units.foldl (coldUnit samples lastSampledAt) t.redis } := by
  rw [run_flatMap]
  simp only [run_coldUnitActions]
  induction units generalizing t with
  | nil => rfl
  | cons unit units ih => exact ih

/-- A cold start on an empty Redis does all its actions. -/
theorem redis_run_coldActions (samples : List SampleRow) (h : t.redis = .empty) :
    (run (act c clock) t (coldActions samples)).redis = coldRedis samples := by
  unfold coldActions coldRedis
  cases samples.getLast? with
  | none => exact h
  | some last =>
    rw [run_append, run_coldUnits, h]
    rfl

end ColdStart

end StationTask

end DustMonitoring.Dumopro
