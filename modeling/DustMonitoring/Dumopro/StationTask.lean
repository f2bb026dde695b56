import DustMonitoring.Dumopro.Redis
import DustMonitoring.Dumopro.Samples
import DustMonitoring.Lib.Run

/-!
# The warm path: one tick after the other

`freezer.py` and the ticks of `station_task.py`.  A tick reads the samples
after the cursor, adds each of them to the live bucket of every unit,
schedules a bucket for freezing when a sample is the first of the next
one, computes the statistics of the live buckets it has touched, and
freezes the scheduled buckets whose grace period is over.

`GraceFreezer.due` goes over `UNITS`, which leaves out the hour.

What is published on the channel of the station is left out, and so are
failures of the database and of Redis.
-/

namespace DustMonitoring.Dumopro

open DustMonitoring.Lib

/-! ## The grace freezer -/

/-- `PendingFreeze`. -/
structure PendingFreeze where
  bucketKey : BucketKey
  readyAt : Rat
deriving DecidableEq, Repr

/-- `GraceFreezer`: at most one pending bucket for each unit. -/
structure GraceFreezer where
  pending : BucketUnit → Option PendingFreeze := fun _ => none

/-- `UNITS` of `freezer.py`. -/
def freezerUnits : List BucketUnit := [.day, .week, .month]

namespace GraceFreezer

/-- `schedule`. -/
def schedule (f : GraceFreezer) (graceSeconds now : Rat) (unit : BucketUnit)
    (bkey : BucketKey) : GraceFreezer :=
  if (f.pending unit).any fun pf => pf.bucketKey == bkey then f
  else ⟨Function.update f.pending unit (some ⟨bkey, now + graceSeconds⟩)⟩

/-- `due`. -/
def due (f : GraceFreezer) (now : Rat) : List (BucketUnit × BucketKey) :=
  freezerUnits.filterMap fun unit =>
    match f.pending unit with
    | none => none
    | some pf => if pf.readyAt ≤ now then some (unit, pf.bucketKey) else none

/-- `drop`. -/
def drop (f : GraceFreezer) (unit : BucketUnit) (bkey : BucketKey) :
    GraceFreezer :=
  if (f.pending unit).any fun pf => pf.bucketKey == bkey then
    ⟨Function.update f.pending unit none⟩
  else f

/-- Only a unit of `UNITS` is ever due. -/
theorem mem_freezerUnits_of_mem_due {f : GraceFreezer} {now : Rat}
    {p : BucketUnit × BucketKey} (h : p ∈ f.due now) : p.1 ∈ freezerUnits := by
  obtain ⟨unit, hunit, hp⟩ := List.mem_filterMap.mp h
  cases hpending : f.pending unit with
  | none => simp [hpending] at hp
  | some pf =>
    simp only [hpending] at hp
    split at hp
    · obtain rfl := Option.some.inj hp
      exact hunit
    · contradiction

end GraceFreezer

/-! ## A tick -/

/-- The settings of a station task. -/
structure Settings extends Source where
  pollBatchLimit : Nat := 500
  gracePeriodSec : Rat := 30

/-- A station task, with the keys of its station in Redis. -/
structure StationTask where
  lastId : Nat := 0
  freezer : GraceFreezer := {}
  lastBucketKeys : BucketUnit → Option BucketKey := fun _ => none
  dirty : List (BucketUnit × BucketKey) := []
  redis : Redis := .empty

/-- What a tick meets: the table of the samples, the wall clock at each
sample and unit, and the wall clock when the freezes are processed. -/
structure Tick where
  rows : Table SampleRow.id
  clock : Nat → BucketUnit → Rat
  dueAt : Rat

/-- `set.add`. -/
def addDirty (dirty : List (BucketUnit × BucketKey))
    (p : BucketUnit × BucketKey) : List (BucketUnit × BucketKey) :=
  if p ∈ dirty then dirty else dirty ++ [p]

namespace StationTask

/-- A sample and a unit: the body of the inner loop of `_tick`. -/
def addSample (c : Settings) (clock : BucketUnit → Rat) (s : SampleRow)
    (t : StationTask) (unit : BucketUnit) : StationTask :=
  let bkey := bucketKey s.sampledAt unit
  { t with
    freezer :=
      match t.lastBucketKeys unit with
      | none => t.freezer
      | some prev =>
        if prev ≠ bkey then
          t.freezer.schedule c.gracePeriodSec (clock unit) unit prev
        else t.freezer
    lastBucketKeys := Function.update t.lastBucketKeys unit (some bkey)
    redis := t.redis.addLiveRaw unit bkey s.id s.value
    dirty := addDirty t.dirty (unit, bkey) }

/-- A sample and all units. -/
def handleSample (c : Settings) (clock : Nat → BucketUnit → Rat) (t : StationTask)
    (s : SampleRow) : StationTask :=
  unitList.foldl (addSample c (clock s.id) s) t

/-- One bucket of `_recompute_dirty`. -/
def recompute (updatedAt : DateTime) (r : Redis) (p : BucketUnit × BucketKey) :
    Redis :=
  match computeBoxStats (r.getLiveRawValues p.1 p.2) with
  | none => r
  | some stats => r.setLiveStats p.1 p.2 ⟨stats, some updatedAt⟩

/-- `_recompute_dirty`.  `set.pop` takes the buckets in no particular order;
what `foldl_recompute_eq` says of the result does not depend on it. -/
def recomputeDirty (updatedAt : DateTime) (t : StationTask) : StationTask :=
  { t with
    redis := t.dirty.foldl (recompute updatedAt) t.redis
    dirty := [] }

/-- One bucket of `_process_freezes`. -/
def freeze (t : StationTask) (p : BucketUnit × BucketKey) : StationTask :=
  match computeBoxStats (t.redis.getLiveRawValues p.1 p.2),
      inferTsForBucket p.2 p.1 with
  | some stats, some ts =>
    { t with
      redis := t.redis.freezeBucket p.1 p.2 ⟨stats, none⟩ (bucketScore ts p.1)
      freezer := t.freezer.drop p.1 p.2 }
  | _, _ =>
    { t with
      freezer := t.freezer.drop p.1 p.2 }

/-- `_process_freezes`. -/
def processFreezes (now : Rat) (t : StationTask) : StationTask :=
  (t.freezer.due now).foldl freeze t

/-- The samples that the tick fetches. -/
def fetched (c : Settings) (t : StationTask) (τ : Tick) : List SampleRow :=
  fetchSamplesSince c.toSource τ.rows t.lastId c.pollBatchLimit

/-- The samples of a tick, before the freezes. -/
def handleBatch (c : Settings) (clock : Nat → BucketUnit → Rat) (batch : List SampleRow)
    (t : StationTask) : StationTask :=
  match batch.getLast? with
  | none => t
  | some last =>
    let t := batch.foldl (handleSample c clock) t
    let t :=
      { t with
        lastId := last.id
        redis := t.redis.setCursor last.id last.sampledAt }
    recomputeDirty last.sampledAt t

/-- `_tick`. -/
def tick (c : Settings) (t : StationTask) (τ : Tick) : StationTask :=
  processFreezes τ.dueAt (handleBatch c τ.clock (fetched c t τ) t)

/-- The samples that a run of ticks fetches, in order. -/
def consumed (c : Settings) (ticks : List Tick) : List SampleRow :=
  outputs (tick c) (fetched c) {} ticks

/-! ## Recomputing the live statistics -/

/-- The statistics that a bucket has after its recomputation. -/
def freshStats (updatedAt : DateTime) (r : Redis) (u : BucketUnit)
    (k : BucketKey) : Option Candle :=
  match computeBoxStats (r.getLiveRawValues u k) with
  | none => r.liveStats u k
  | some stats => some ⟨stats, some updatedAt⟩

/-- Recomputing a bucket writes its live statistics and nothing else. -/
theorem recompute_eq (updatedAt : DateTime) (r : Redis)
    (p : BucketUnit × BucketKey) :
    recompute updatedAt r p =
      { r with
        liveStats := setKey r.liveStats p.1 p.2
          (freshStats updatedAt r p.1 p.2) } := by
  unfold recompute freshStats
  split
  · rw [setKey_self]
  · rfl

/-- After the dirty buckets were recomputed, exactly their statistics are
fresh. -/
theorem foldl_recompute_eq (updatedAt : DateTime) (r : Redis)
    (dirty : List (BucketUnit × BucketKey)) :
    dirty.foldl (recompute updatedAt) r =
      { r with
        liveStats := fun u k =>
          if (u, k) ∈ dirty then freshStats updatedAt r u k
          else r.liveStats u k } := by
  induction dirty generalizing r with
  | nil => simp
  | cons p ps ih =>
    have hfresh : ∀ u k, freshStats updatedAt (recompute updatedAt r p) u k =
        freshStats updatedAt r u k := by
      intro u k
      rw [recompute_eq]
      unfold freshStats Redis.getLiveRawValues setKey
      dsimp only
      split
      · split
        · next hnone h =>
          rw [h.1, h.2] at hnone ⊢
          rw [hnone]
        · rfl
      · rfl
    rw [List.foldl_cons, ih]
    have hstats : (fun u k =>
        if (u, k) ∈ ps then freshStats updatedAt (recompute updatedAt r p) u k
        else (recompute updatedAt r p).liveStats u k) = fun u k =>
        if (u, k) ∈ p :: ps then freshStats updatedAt r u k
        else r.liveStats u k := by
      funext u k
      by_cases htail : (u, k) ∈ ps
      · rw [if_pos htail, if_pos (List.mem_cons_of_mem p htail), hfresh]
      · rw [if_neg htail, recompute_eq]
        by_cases hp : (u, k) = p
        · subst hp
          rw [if_pos List.mem_cons_self]
          exact if_pos ⟨rfl, rfl⟩
        · rw [if_neg fun h => (List.mem_cons.mp h).elim hp htail]
          exact if_neg fun h => hp (Prod.ext h.1 h.2)
    rw [hstats, recompute_eq]

end StationTask

end DustMonitoring.Dumopro
