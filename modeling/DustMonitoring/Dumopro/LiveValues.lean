import Mathlib.Order.WithBot
import DustMonitoring.Dumopro.StationTask
import DustMonitoring.Lib.Fallible
import DustMonitoring.Lib.Numerals

/-!
# A tick and the values of its samples

`StationTask.run` and `_tick` once more, now with the values as the doubles
they are.  `add_live_raw` makes a value the score of a sorted set, and Redis
refuses NaN for a score; the exception ends the tick, and `run` tries again
after the same id until it has failed too often.

What `compute_box_stats` makes of values that are there is a parameter.

* `exists_tick_ok_iff`: a tick goes through exactly when none of its samples is
  NaN, and then the cursor is at the last of them.
* `aborted_of_nan`: with a NaN in the batch the task gives up where it was.
-/

namespace DustMonitoring.Dumopro.LiveValues

open DustMonitoring.Lib

/-! ## Values -/

/-- What Redis takes for a score. -/
abbrev Score := WithBot (WithTop Rat)

/-- The score that `ZADD` is sent; the server refuses NaN. -/
def score? : Double → Option Score
  | .nan => none
  | .negInf => some ⊥
  | .finite q => some ((q : WithTop Rat) : Score)
  | .posInf => some ((⊤ : WithTop Rat) : Score)

theorem score?_eq_none_iff {d : Double} : score? d = none ↔ d = .nan := by
  cases d <;> simp [score?]

/-- `SampleRow`. -/
structure Sample where
  id : Nat
  stationId : String
  measurementType : String
  value : Double
  sampledAt : DateTime
deriving DecidableEq, Repr

/-- `compute_box_stats`; no score is NaN, and so only an empty array raises. -/
def boxStats {σ : Type} (box : List Score → σ) (values : List Score) : Option σ :=
  if values = [] then none else some (box values)

/-! ## A tick -/

/-- A station task, with the keys of its station in Redis. -/
structure LiveTask (σ : Type) where
  lastId : Nat := 0
  consecutiveFailures : Nat := 0
  aborted : Bool := false
  freezer : GraceFreezer := {}
  lastBucketKeys : BucketUnit → Option BucketKey := fun _ => none
  dirty : List (BucketUnit × BucketKey) := []
  cursor : Option (Nat × DateTime) := none
  liveRaw : BucketUnit → BucketKey → SortedSet String Score := fun _ _ => .empty
  liveStats : BucketUnit → BucketKey → Option σ := fun _ _ => none
  frozen : BucketUnit → BucketKey → Option σ := fun _ _ => none
  frozenIndex : BucketUnit → SortedSet BucketKey Rat := fun _ => .empty

/-- What a tick meets: the samples that are stored, and the wall clock. -/
structure Tick where
  samples : List Sample
  clock : Nat → BucketUnit → Rat := fun _ _ => 0
  dueAt : Rat := 0

/-- `fetch_samples_since`. -/
def fetchSamplesSince (src : Source) (samples : List Sample) (lastId limit : Nat) : List Sample :=
  (orderBy Sample.id (samples.filter fun s =>
    s.stationId == src.stationId && s.measurementType == src.measurementType &&
      decide (lastId < s.id))).take limit

namespace LiveTask

variable {σ : Type}

/-- A sample and a unit.  An exception of `add_live_raw` leaves what was done
before it. -/
def addSample (c : Settings) (clock : BucketUnit → Rat) (s : Sample) (t : LiveTask σ)
    (unit : BucketUnit) : Except (LiveTask σ) (LiveTask σ) :=
  let bkey := bucketKey s.sampledAt unit
  let t :=
    { t with
      freezer :=
        match t.lastBucketKeys unit with
        | none => t.freezer
        | some prev =>
          if prev ≠ bkey then t.freezer.schedule c.gracePeriodSec (clock unit) unit prev
          else t.freezer
      lastBucketKeys := Function.update t.lastBucketKeys unit (some bkey) }
  match score? s.value with
  | none => .error t
  | some score =>
    .ok
      { t with
        liveRaw := setKey t.liveRaw unit bkey
          ((t.liveRaw unit bkey).zadd (Nat.repr s.id) score)
        dirty := addDirty t.dirty (unit, bkey) }

/-- A sample and all units. -/
def handleSample (c : Settings) (clock : Nat → BucketUnit → Rat) (t : LiveTask σ) (s : Sample) :
    Except (LiveTask σ) (LiveTask σ) :=
  unitList.foldlM (addSample c (clock s.id) s) t

/-- One bucket of `_recompute_dirty`. -/
def recompute (box : List Score → σ) (t : LiveTask σ) (p : BucketUnit × BucketKey) : LiveTask σ :=
  match boxStats box (t.liveRaw p.1 p.2).scores with
  | none => t
  | some stats => { t with liveStats := setKey t.liveStats p.1 p.2 (some stats) }

/-- One bucket of `_process_freezes`. -/
def freeze (box : List Score → σ) (t : LiveTask σ) (p : BucketUnit × BucketKey) : LiveTask σ :=
  match boxStats box (t.liveRaw p.1 p.2).scores, inferTsForBucket p.2 p.1 with
  | some stats, some ts =>
    { t with
      frozen := setKey t.frozen p.1 p.2 (some stats)
      frozenIndex := Function.update t.frozenIndex p.1
        ((t.frozenIndex p.1).zadd p.2 (bucketScore ts p.1))
      liveRaw := setKey t.liveRaw p.1 p.2 .empty
      liveStats := setKey t.liveStats p.1 p.2 none
      freezer := t.freezer.drop p.1 p.2 }
  | _, _ => { t with freezer := t.freezer.drop p.1 p.2 }

/-- The samples that the tick fetches. -/
def fetched (c : Settings) (t : LiveTask σ) (τ : Tick) : List Sample :=
  fetchSamplesSince c.toSource τ.samples t.lastId c.pollBatchLimit

/-- What a tick does after its samples were added. -/
def finishBatch (box : List Score → σ) (batch : List Sample) (t : LiveTask σ) : LiveTask σ :=
  match batch.getLast? with
  | none => t
  | some last =>
    let t := { t with lastId := last.id, cursor := some (last.id, last.sampledAt) }
    { t.dirty.foldl (recompute box) t with dirty := [] }

/-- `_tick`. -/
def tick (c : Settings) (box : List Score → σ) (t : LiveTask σ) (τ : Tick) :
    Except (LiveTask σ) (LiveTask σ) :=
  ((fetched c t τ).foldlM (handleSample c τ.clock) t).map fun added =>
    let t := finishBatch box (fetched c t τ) added
    (t.freezer.due τ.dueAt).foldl (freeze box) t

/-- One turn of the loop of `run`. -/
def turn (c : Settings) (failureCap : Nat) (box : List Score → σ) (t : LiveTask σ) (τ : Tick) :
    LiveTask σ :=
  if t.aborted then t
  else
    match tick c box t τ with
    | .ok t => { t with consecutiveFailures := 0 }
    | .error t =>
      { t with
        consecutiveFailures := t.consecutiveFailures + 1
        aborted := decide (failureCap ≤ t.consecutiveFailures + 1) }

/-! ## What a tick keeps -/

/-- Where the task is in the samples, and how often it has failed. -/
def progress (t : LiveTask σ) : Nat × Option (Nat × DateTime) × Nat × Bool :=
  (t.lastId, t.cursor, t.consecutiveFailures, t.aborted)

variable {c : Settings} {box : List Score → σ}

theorem progress_addSample (clock : BucketUnit → Rat) (s : Sample) (t : LiveTask σ)
    (unit : BucketUnit) : (reached (addSample c clock s t unit)).progress = t.progress := by
  unfold addSample
  cases score? s.value <;> rfl

theorem progress_handleSample (clock : Nat → BucketUnit → Rat) (t : LiveTask σ) (s : Sample) :
    (reached (handleSample c clock t s)).progress = t.progress :=
  reached_foldlM_eq progress (fun t unit => progress_addSample _ s t unit) unitList t

theorem progress_recompute (t : LiveTask σ) (p : BucketUnit × BucketKey) :
    (recompute box t p).progress = t.progress := by
  unfold recompute
  split <;> rfl

theorem progress_freeze (t : LiveTask σ) (p : BucketUnit × BucketKey) :
    (freeze box t p).progress = t.progress := by
  unfold freeze
  split <;> rfl

theorem progress_foldl {f : LiveTask σ → BucketUnit × BucketKey → LiveTask σ}
    (hf : ∀ t p, (f t p).progress = t.progress) (ps : List (BucketUnit × BucketKey))
    (t : LiveTask σ) : (ps.foldl f t).progress = t.progress := by
  induction ps generalizing t with
  | nil => rfl
  | cons p ps ih => rw [List.foldl_cons, ih, hf]

/-- The cursor after the samples of a batch. -/
theorem progress_finishBatch (batch : List Sample) (t : LiveTask σ) :
    (finishBatch box batch t).progress =
      match batch.getLast? with
      | none => t.progress
      | some last =>
        (last.id, some (last.id, last.sampledAt), t.consecutiveFailures, t.aborted) := by
  unfold finishBatch
  split
  · rfl
  · next last _ =>
    exact progress_foldl progress_recompute t.dirty
      { t with lastId := last.id, cursor := some (last.id, last.sampledAt) }

/-! ## NaN -/

theorem exists_addSample_ok_iff {clock : BucketUnit → Rat} {s : Sample} {t : LiveTask σ}
    {unit : BucketUnit} :
    (∃ t', addSample c clock s t unit = .ok t') ↔ ¬ s.value = .nan := by
  rw [← score?_eq_none_iff]
  unfold addSample
  cases score? s.value with
  | none => simp
  | some score => simp

theorem exists_handleSample_ok_iff {clock : Nat → BucketUnit → Rat} {s : Sample}
    {t : LiveTask σ} : (∃ t', handleSample c clock t s = .ok t') ↔ ¬ s.value = .nan := by
  have hunit : ∀ (t : LiveTask σ) (unit : BucketUnit),
      (∃ t', addSample c (clock s.id) s t unit = .ok t') ↔ ¬ s.value = .nan :=
    fun _ _ => exists_addSample_ok_iff
  have hfold := exists_foldlM_ok_iff hunit unitList t
  exact hfold.trans ⟨fun hall => hall .hour (mem_unitList _), fun hne _ _ => hne⟩

/-- A tick that goes through has its cursor at the last sample of its batch, if
there is one. -/
theorem progress_of_tick_ok {t t' : LiveTask σ} {τ : Tick} (h : tick c box t τ = .ok t') :
    t'.progress =
      match (fetched c t τ).getLast? with
      | none => t.progress
      | some last =>
        (last.id, some (last.id, last.sampledAt), t.consecutiveFailures, t.aborted) := by
  unfold tick at h
  have hkept := reached_foldlM_eq progress (progress_handleSample (c := c) τ.clock)
    (fetched c t τ) t
  cases hbatch : (fetched c t τ).foldlM (handleSample c τ.clock) t with
  | error s =>
    rw [hbatch] at h
    contradiction
  | ok s =>
    rw [hbatch] at h
    obtain rfl := Except.ok.inj h
    rw [hbatch, reached_ok] at hkept
    rw [progress_foldl progress_freeze, progress_finishBatch]
    split
    · exact hkept
    · simp only [progress, Prod.mk.injEq] at hkept
      rw [hkept.2.2.1, hkept.2.2.2]

/-- A tick that fails has moved nothing. -/
theorem progress_of_tick_error {t t' : LiveTask σ} {τ : Tick} (h : tick c box t τ = .error t') :
    t'.progress = t.progress := by
  unfold tick at h
  have hkept := reached_foldlM_eq progress (progress_handleSample (c := c) τ.clock)
    (fetched c t τ) t
  cases hbatch : (fetched c t τ).foldlM (handleSample c τ.clock) t with
  | error s =>
    rw [hbatch] at h hkept
    obtain rfl := Except.error.inj h
    exact hkept
  | ok s =>
    rw [hbatch] at h
    contradiction

/-- A tick goes through exactly when none of its samples is NaN. -/
theorem exists_tick_ok_iff {t : LiveTask σ} {τ : Tick} :
    (∃ t', tick c box t τ = .ok t') ↔ ∀ s ∈ fetched c t τ, s.value ≠ .nan := by
  have hsample : ∀ (t : LiveTask σ) (s : Sample),
      (∃ t', handleSample c τ.clock t s = .ok t') ↔ ¬ s.value = .nan :=
    fun _ _ => exists_handleSample_ok_iff
  rw [← exists_foldlM_ok_iff hsample (fetched c t τ) t]
  unfold tick
  cases (fetched c t τ).foldlM (handleSample c τ.clock) t with
  | error s => simp [Except.map]
  | ok s => simp [Except.map]

/-! ## Turns -/

/-- Without a NaN no turn counts as a failure, and none ends the task. -/
theorem turn_of_tick_ok {failureCap : Nat} {t : LiveTask σ} {τ : Tick} (hopen : t.aborted = false)
    (hvalues : ∀ s ∈ fetched c t τ, s.value ≠ .nan) :
    (turn c failureCap box t τ).aborted = false ∧
      (turn c failureCap box t τ).consecutiveFailures = 0 := by
  obtain ⟨t', ht'⟩ : ∃ t', tick c box t τ = .ok t' := exists_tick_ok_iff.mpr hvalues
  have hprogress := progress_of_tick_ok ht'
  have haborted : t'.aborted = t.aborted := by
    split at hprogress
    · exact congrArg (fun p => p.2.2.2) hprogress
    · exact congrArg (fun p => p.2.2.2) hprogress
  rw [turn, hopen, ht']
  exact ⟨haborted.trans hopen, rfl⟩

/-- A batch with a NaN leaves the task where it is, with one failure more. -/
theorem turn_of_nan {failureCap : Nat} {t : LiveTask σ} {τ : Tick} (hopen : t.aborted = false)
    (hnan : ∃ s ∈ fetched c t τ, s.value = .nan) :
    (turn c failureCap box t τ).progress =
      (t.lastId, t.cursor, t.consecutiveFailures + 1,
        decide (failureCap ≤ t.consecutiveFailures + 1)) := by
  cases htick : tick c box t τ with
  | ok t' =>
    obtain ⟨s, hs, hvalue⟩ := hnan
    exact absurd hvalue (exists_tick_ok_iff.mp ⟨t', htick⟩ s hs)
  | error t' =>
    have hprogress := progress_of_tick_error htick
    simp only [progress, Prod.mk.injEq] at hprogress
    obtain ⟨hid, hcursor, hfailures, -⟩ := hprogress
    rw [turn, hopen, htick]
    simp only [progress, hid, hcursor, hfailures, Bool.false_eq_true, if_false]

/-- A task that has given up does nothing more. -/
theorem run_turn_of_aborted {failureCap : Nat} {t : LiveTask σ} (h : t.aborted = true)
    (ticks : List Tick) : run (turn c failureCap box) t ticks = t := by
  have hkeep : ∀ (t' : LiveTask σ) τ, t' = t → turn c failureCap box t' τ = t := by
    rintro t' τ rfl
    exact if_pos h
  exact run_invariant hkeep rfl ticks

/-- As long as the batch has a NaN the task stays where it is, and it gives up
after so many turns. -/
theorem aborted_of_nan {failureCap : Nat} {ticks : List Tick} {t : LiveTask σ}
    (hnan : ∀ τ ∈ ticks, ∃ s ∈ fetchSamplesSince c.toSource τ.samples t.lastId c.pollBatchLimit,
      s.value = .nan)
    (hopen : t.aborted = false) (hfailures : t.consecutiveFailures < failureCap) :
    (run (turn c failureCap box) t ticks).lastId = t.lastId ∧
      (run (turn c failureCap box) t ticks).cursor = t.cursor ∧
      ((run (turn c failureCap box) t ticks).aborted = true ↔
        failureCap ≤ t.consecutiveFailures + ticks.length) := by
  induction ticks generalizing t with
  | nil =>
    refine ⟨rfl, rfl, ?_⟩
    rw [run_nil, hopen, List.length_nil]
    exact iff_of_false Bool.false_ne_true (by omega)
  | cons τ ticks ih =>
    rw [List.forall_mem_cons] at hnan
    have hprogress : (turn c failureCap box t τ).progress =
        (t.lastId, t.cursor, t.consecutiveFailures + 1,
          decide (failureCap ≤ t.consecutiveFailures + 1)) :=
      turn_of_nan hopen hnan.1
    simp only [progress, Prod.mk.injEq] at hprogress
    obtain ⟨hid, hcursor, hcount, hstopped⟩ := hprogress
    rw [run_cons, List.length_cons]
    by_cases hlast : failureCap ≤ t.consecutiveFailures + 1
    · -- it gives up at once
      have habort : (turn c failureCap box t τ).aborted = true := by
        rw [hstopped]
        exact decide_eq_true hlast
      rw [run_turn_of_aborted habort]
      exact ⟨hid, hcursor, iff_of_true habort (by omega)⟩
    · have hgoes : (turn c failureCap box t τ).aborted = false := by
        rw [hstopped]
        exact decide_eq_false hlast
      rw [← hid] at hnan
      obtain ⟨hid', hcursor', habort⟩ := ih hnan.2 hgoes (by omega)
      refine ⟨hid'.trans hid, hcursor'.trans hcursor, habort.trans ?_⟩
      rw [hcount]
      omega

end LiveTask

end DustMonitoring.Dumopro.LiveValues
