import DustMonitoring.Dumopro.Accounting

/-!
# A station and its task, over any number of restarts

`StationTask.run`, with the table of the samples beside it.  Samples arrive
in the order of their ids, with any time of measurement.  A process starts,
with a cold start when there is no cursor, and ticks until it stops; a tick
or a cold start may end early with an exception.  A tick that did so is
tried again, as `run` does not move its `last_id` on.

A process that is killed during a tick is such a tick with a stop after it.
A tick that does not fail is `StationTask.tick` (`attemptTick_eq_tick`).
-/

namespace DustMonitoring.Dumopro

open DustMonitoring.Lib

/-- What is done of a list of actions. -/
def cutShort (failsAfter : Option Nat) (actions : List Action) : List Action :=
  match failsAfter with
  | none => actions
  | some n => actions.take n

/-- A tick as it goes: the wall clock, the order in which `set.pop` takes
the dirty buckets, and the number of its actions if it fails. -/
structure Attempt where
  clock : Nat → BucketUnit → Rat
  dueAt : Rat
  pops : List (BucketUnit × BucketKey) → List (BucketUnit × BucketKey) := id
  pops_perm : ∀ dirty, (pops dirty).Perm dirty := by exact fun _ => List.Perm.refl _
  failsAfter : Option Nat := none

/-- The table of the samples, and the task with its keys in Redis.  A task
that is not running has nothing but these. -/
structure Station where
  rows : SerialTable SampleRow.id := .empty
  task : StationTask := {}
  running : Bool := false

namespace Station

inductive Event where
  | arrive (row : SampleRow)
  | start (failsAfter : Option Nat)
  | tick (attempt : Attempt)
  | stop

/-- The samples of the station's source. -/
def samples (c : Settings) (w : Station) : List SampleRow :=
  samplesAfter c.toSource w.rows.toTable 0

/-- `_seed_last_buckets`. -/
def seedLastBuckets (ts : DateTime) (unit : BucketUnit) : Option BucketKey :=
  some (bucketKey ts unit)

/-- What a cold start does.  It does not look at the clock. -/
def coldRun (c : Settings) (samples : List SampleRow) (failsAfter : Option Nat)
    (w : Station) : StationTask :=
  run (StationTask.act c fun _ _ => 0) w.task
    (cutShort failsAfter (StationTask.coldActions samples))

/-- The beginning of `run`, when a cold start reads these samples.  A warm
start writes nothing, and so does not fail. -/
def startOn (c : Settings) (samples : List SampleRow) (failsAfter : Option Nat)
    (w : Station) : Station :=
  match w.task.redis.cursor with
  | some (lastId, lastSampledAt) =>
    { w with
      task :=
        { redis := w.task.redis
          lastId := lastId
          lastBucketKeys := seedLastBuckets lastSampledAt }
      running := true }
  | none =>
    let cold := coldRun c samples failsAfter w
    match failsAfter, samples.getLast? with
    | some _, _ => { w with task := { redis := cold.redis } }
    | none, none => { w with task := { redis := cold.redis }, running := true }
    | none, some last =>
      { w with
        task :=
          { redis := cold.redis
            lastId := last.id
            lastBucketKeys := seedLastBuckets last.sampledAt }
        running := true }

/-- The tick that an attempt makes. -/
def tickOf (w : Station) (a : Attempt) : Tick := ⟨w.rows.toTable, a.clock, a.dueAt⟩

/-- What is done in an attempt. -/
def attempted (c : Settings) (w : Station) (a : Attempt) : List Action :=
  cutShort a.failsAfter (StationTask.tickActions c a.pops w.task (w.tickOf a))

/-- The task after an attempt.  An exception leaves its last id as it
was. -/
def attemptTick (c : Settings) (w : Station) (a : Attempt) : StationTask :=
  let task := run (StationTask.act c a.clock) w.task (w.attempted c a)
  match a.failsAfter with
  | none => { task with lastId := StationTask.tickResult c w.task (w.tickOf a) }
  | some _ => task

def step (c : Settings) (w : Station) : Event → Station
  | .arrive row =>
    { w with
      rows := w.rows.append (fun id => { row with id := id }) fun _ => rfl }
  | .start failsAfter =>
    if w.running then w
    else startOn c (iterAllSamples c.toSource w.rows.toTable 5000) failsAfter w
  | .tick a =>
    if w.running then
      { w with
        task := w.attemptTick c a }
    else w
  | .stop =>
    { w with
      task := { redis := w.task.redis }
      running := false }

/-! ## Without failures -/

/-- An attempt that does not fail is a tick. -/
theorem attemptTick_eq_tick (c : Settings) (w : Station) {a : Attempt}
    (hfails : a.failsAfter = none) (hpops : a.pops = id) :
    w.attemptTick c a = StationTask.tick c w.task (w.tickOf a) := by
  rw [StationTask.tick_eq_run, attemptTick, attempted, hfails, hpops]
  rfl

/-- A first start that does not fail is a cold start on an empty Redis. -/
theorem redis_coldRun (c : Settings) (samples : List SampleRow) {w : Station}
    (h : w.task.redis = .empty) :
    (w.coldRun c samples none).redis = coldRedis samples :=
  StationTask.redis_run_coldActions samples h

end Station

end DustMonitoring.Dumopro
