import DustMonitoring.Dumopro.BucketOrder
import DustMonitoring.Dumopro.FrozenCandles

/-!
# The chart of a station

`apps/api/routes/chart.py` and the part of `redis_client.py` it uses.  The
API reads the index of the frozen buckets, then one candle after the other,
then the live buckets, while the poller goes on: each read sees a state of
its own.

`Charted` ties the index to the candles.  `freeze_bucket` writes both in one
transaction, so no crash, restart or late sample comes between them.

Main results:

* `charted_step` -- every event of a station keeps `Charted`;
* `chart_run` -- the chart has each frozen bucket of the window once, in the
  order of time, whatever the poller does between the reads.
-/

namespace DustMonitoring.Dumopro

open DustMonitoring.Lib

/-! ## The route -/

/-- `Range`. -/
inductive ChartRange where
  | days90 | days180 | days365 | all
deriving DecidableEq, Repr

/-- `int(range_)`. -/
def ChartRange.days : ChartRange → Option Nat
  | .days90 => some 90
  | .days180 => some 180
  | .days365 => some 365
  | .all => none

/-- `now - timedelta(days=days)`; `none` is the `OverflowError`. -/
def daysBefore (now : DateTime) (days : Nat) : Option DateTime :=
  ofMicros (micros now - days * 86400000000)

/-- `_range_to_min_score`. -/
def rangeToMinScore (range : ChartRange) (unit : BucketUnit) (now : DateTime) : Option Rat :=
  match range.days with
  | none => some 0
  | some days => (daysBefore now days).map fun ts => bucketScore ts unit

/-- `get_frozen_range`, without an upper limit. -/
def Redis.getFrozenRange (r : Redis) (unit : BucketUnit) (minScore : Rat) : List BucketKey :=
  (r.frozenIndex unit).zrangebyscore minScore

/-- What the commands of a request see. -/
structure Reads where
  stations : List String
  index : Redis
  /-- The state at the read of each candle. -/
  candle : BucketKey → Redis
  /-- What `SCAN` finds of the live buckets, in any order. -/
  scan : List BucketKey
  live : Redis
  cursor : Redis

structure Chart where
  frozen : List (BucketKey × Candle)
  live : Option (BucketKey × Candle)
  lastSampledAt : Option DateTime

/-- `_get_live`, without a candle if the key is gone. -/
def getLive (R : Reads) (unit : BucketUnit) : Option (BucketKey × Candle) :=
  (orderBy id R.scan).getLast?.bind fun bkey =>
    (R.live.liveStats unit bkey).map fun stats => (bkey, stats)

/-- `get_chart`; `none` is the status 404 of an unknown station, and the
`OverflowError`. -/
def getChart (R : Reads) (station : String) (unit : BucketUnit) (range : ChartRange)
    (now : DateTime) : Option Chart :=
  if station ∈ R.stations then
    (rangeToMinScore range unit now).map fun minScore =>
      { frozen := (R.index.getFrozenRange unit minScore).filterMap fun bkey =>
          ((R.candle bkey).frozen unit bkey).map fun stats => (bkey, stats)
        live := getLive R unit
        lastSampledAt := R.cursor.cursor.map Prod.snd }
  else none

/-! ## The index and the candles -/

/-- A time of which the keys and scores of the buckets are in order. -/
structure Regular (ts : DateTime) : Prop where
  inRange : ts.InRange
  year : 1000 ≤ ts.year ∧ ts.year ≤ 9998

theorem Regular.two_le_year {ts : DateTime} (h : Regular ts) : 2 ≤ ts.year := by
  have hyear := h.year
  omega

/-- The bucket is that of one of the times. -/
def BucketOf (T : DateTime → Prop) (unit : BucketUnit) (bkey : BucketKey) : Prop :=
  ∃ ts, T ts ∧ bucketKey ts unit = bkey

/-- The keys are of buckets of the times, and the index has the frozen ones
with their scores. -/
structure Charted (T : DateTime → Prop) (r : Redis) : Prop where
  liveRaw : ∀ unit bkey, r.getLiveRawValues unit bkey ≠ [] → BucketOf T unit bkey
  liveStats : ∀ unit bkey, r.liveStats unit bkey ≠ none → BucketOf T unit bkey
  index : ∀ unit, ∀ e ∈ (r.frozenIndex unit).entries, r.frozen unit e.1 ≠ none ∧
    ∃ ts, T ts ∧ bucketKey ts unit = e.1 ∧ bucketScore ts unit = e.2
  frozen : ∀ unit bkey, r.frozen unit bkey ≠ none →
    ∃ score, (bkey, score) ∈ (r.frozenIndex unit).entries

variable {T : DateTime → Prop} {r : Redis} {unit : BucketUnit} {bkey : BucketKey}

/-- A key leads back to a time with the score of the bucket. -/
theorem BucketOf.score (hT : ∀ ts, T ts → Regular ts) (h : BucketOf T unit bkey) {ts : DateTime}
    (hts : inferTsForBucket bkey unit = some ts) :
    ∃ u, T u ∧ bucketKey u unit = bkey ∧ bucketScore u unit = bucketScore ts unit := by
  obtain ⟨u, hu, rfl⟩ := h
  have hregular := hT u hu
  obtain ⟨ts', hts', -, hscore⟩ :=
    exists_inferTsForBucket hregular.inRange hregular.year.1 unit
  obtain rfl := Option.some.inj (hts'.symm.trans hts)
  exact ⟨u, hu, rfl, hscore.symm⟩

theorem bucketScore_lt_iff {u v : DateTime} (hu : u.InRange) (hv : v.InRange)
    (huyear : 2 ≤ u.year) (hvyear : 2 ≤ v.year) :
    bucketScore u unit < bucketScore v unit ↔ bucketKey u unit < bucketKey v unit := by
  constructor
  · intro hlt
    by_contra hnot
    rcases lt_or_eq_of_le (not_lt.mp hnot) with hgt | heq
    · have hscore := bucketScore_lt hv hu hvyear huyear hgt
      exact absurd hscore (not_lt.mpr hlt.le)
    · exact absurd (bucketScore_eq_of_key heq) hlt.ne'
  · exact bucketScore_lt hu hv huyear hvyear

/-- The range of an index has the order of time. -/
theorem Charted.pairwise_getFrozenRange (hT : ∀ ts, T ts → Regular ts) (h : Charted T r)
    (unit : BucketUnit) (minScore : Rat) :
    (r.getFrozenRange unit minScore).Pairwise fun a b => a < b := by
  refine SortedSet.pairwise_zrangebyscore (fun a ha b hb hlt => ?_) minScore
  obtain ⟨-, u, hu, hukey, huscore⟩ := h.index unit a ha
  obtain ⟨-, v, hv, hvkey, hvscore⟩ := h.index unit b hb
  rw [← hukey, ← hvkey] at hlt
  rw [← huscore, ← hvscore]
  exact bucketScore_lt (hT u hu).inRange (hT v hv).inRange (hT u hu).two_le_year
    (hT v hv).two_le_year hlt

section Fields

variable {candle : Candle} {score : Rat} {u : BucketUnit} {k : BucketKey}

theorem setKey_apply {α : Type} (f : BucketUnit → BucketKey → α) (x : α) :
    setKey f unit bkey x u k = if u = unit ∧ k = bkey then x else f u k :=
  rfl

theorem liveStats_freezeBucket :
    (r.freezeBucket unit bkey candle score).liveStats u k =
      if u = unit ∧ k = bkey then none else r.liveStats u k :=
  rfl

theorem mem_frozenIndex_freezeBucket {e : BucketKey × Rat} :
    e ∈ ((r.freezeBucket unit bkey candle score).frozenIndex u).entries ↔
      (u = unit ∧ e = (bkey, score)) ∨
        (e ∈ (r.frozenIndex u).entries ∧ ¬ (u = unit ∧ e.1 = bkey)) := by
  show e ∈ (Function.update r.frozenIndex unit ((r.frozenIndex unit).zadd bkey score) u).entries ↔ _
  by_cases hu : u = unit
  · subst hu
    rw [Function.update_self, SortedSet.mem_zadd]
    simp
  · rw [Function.update_of_ne hu]
    simp [hu]

end Fields

theorem Charted.addLiveRaw (h : Charted T r) {s : SampleRow} (hs : T s.sampledAt)
    (unit : BucketUnit) :
    Charted T (r.addLiveRaw unit (bucketKey s.sampledAt unit) s.id s.value) where
  liveRaw := by
    intro u k hne
    by_cases hk : u = unit ∧ k = bucketKey s.sampledAt unit
    · obtain ⟨rfl, rfl⟩ := hk
      exact ⟨s.sampledAt, hs, rfl⟩
    · refine h.liveRaw u k ?_
      simpa only [Redis.getLiveRawValues, Redis.addLiveRaw, setKey_apply, if_neg hk] using hne
  liveStats := h.liveStats
  index := h.index
  frozen := h.frozen

theorem Charted.setLiveStats (h : Charted T r) (hbucket : BucketOf T unit bkey)
    (candle : Candle) : Charted T (r.setLiveStats unit bkey candle) where
  liveRaw := h.liveRaw
  liveStats := by
    intro u k hne
    by_cases hk : u = unit ∧ k = bkey
    · obtain ⟨rfl, rfl⟩ := hk
      exact hbucket
    · refine h.liveStats u k ?_
      simpa only [Redis.setLiveStats, setKey_apply, if_neg hk] using hne
  index := h.index
  frozen := h.frozen

theorem Charted.freezeBucket (hT : ∀ ts, T ts → Regular ts) (h : Charted T r)
    (hbucket : BucketOf T unit bkey) {ts : DateTime}
    (hts : inferTsForBucket bkey unit = some ts) (candle : Candle) :
    Charted T (r.freezeBucket unit bkey candle (bucketScore ts unit)) ∧
      StaysFrozen r (r.freezeBucket unit bkey candle (bucketScore ts unit)) := by
  have hstays : StaysFrozen r (r.freezeBucket unit bkey candle (bucketScore ts unit)) := by
    intro u k hne
    rw [frozen_freezeBucket]
    split
    · exact Option.some_ne_none _
    · exact hne
  refine ⟨⟨fun u k hne => ?_, fun u k hne => ?_, fun u e he => ?_, fun u k hne => ?_⟩, hstays⟩
  · refine h.liveRaw u k fun hnil => hne ?_
    rw [Redis.getLiveRawValues, liveRaw_freezeBucket]
    split
    · rfl
    · exact hnil
  · refine h.liveStats u k fun hnone => hne ?_
    rw [liveStats_freezeBucket]
    split
    · rfl
    · exact hnone
  · rcases mem_frozenIndex_freezeBucket.mp he with ⟨rfl, rfl⟩ | ⟨he, -⟩
    · refine ⟨?_, hbucket.score hT hts⟩
      rw [frozen_freezeBucket, if_pos ⟨rfl, rfl⟩]
      exact Option.some_ne_none _
    · obtain ⟨hfrozen, hscore⟩ := h.index u e he
      exact ⟨hstays u e.1 hfrozen, hscore⟩
  · simp only [mem_frozenIndex_freezeBucket, Prod.mk.injEq]
    by_cases hp : u = unit ∧ k = bkey
    · exact ⟨_, Or.inl ⟨hp.1, hp.2, rfl⟩⟩
    · rw [frozen_freezeBucket, if_neg hp] at hne
      obtain ⟨score, hscore⟩ := h.frozen u k hne
      exact ⟨score, Or.inr ⟨hscore, hp⟩⟩

/-! ## The events of a station -/

namespace StationTask

/-- The samples of the action are of the times. -/
def ActionOf (T : DateTime → Prop) : Action → Prop
  | .addLiveRaw s _ => T s.sampledAt
  | .freezeItems unit _ bucket => BucketOf T unit bucket.1
  | .setItemStats unit _ bucket => BucketOf T unit bucket.1
  | _ => True

variable {c : Settings} {clock : Nat → BucketUnit → Rat} {t : StationTask}

theorem charted_act (hT : ∀ ts, T ts → Regular ts) {a : Action} (h : Charted T t.redis)
    (ha : ActionOf T a) :
    Charted T (act c clock t a).redis ∧ StaysFrozen t.redis (act c clock t a).redis := by
  have hsame : Charted T t.redis ∧ StaysFrozen t.redis t.redis := ⟨h, fun _ _ hne => hne⟩
  cases a with
  | addLiveRaw s unit => exact ⟨h.addLiveRaw ha unit, fun _ _ hne => hne⟩
  | setLiveStats updatedAt p =>
    show Charted T (recompute updatedAt t.redis p) ∧
      StaysFrozen t.redis (recompute updatedAt t.redis p)
    unfold recompute
    split
    · exact hsame
    · next stats hstats =>
      have hne := ne_nil_of_computeBoxStats hstats
      exact ⟨h.setLiveStats (h.liveRaw p.1 p.2 hne) _, fun _ _ hne => hne⟩
  | freezeBucket p =>
    show Charted T (t.redis.freezeLive p) ∧ StaysFrozen t.redis (t.redis.freezeLive p)
    unfold Redis.freezeLive
    split
    · next stats ts hstats hts =>
      exact h.freezeBucket hT (h.liveRaw p.1 p.2 (ne_nil_of_computeBoxStats hstats)) hts _
    · exact hsame
  | freezeItems unit lastSampledAt bucket =>
    show Charted T (Dumopro.freezeItems unit lastSampledAt t.redis bucket) ∧
      StaysFrozen t.redis (Dumopro.freezeItems unit lastSampledAt t.redis bucket)
    unfold Dumopro.freezeItems
    split
    · next stats ts _ hts => exact h.freezeBucket hT ha hts _
    · exact hsame
  | setItemStats unit lastSampledAt bucket =>
    show Charted T (t.redis.setItemStats unit lastSampledAt bucket) ∧
      StaysFrozen t.redis (t.redis.setItemStats unit lastSampledAt bucket)
    unfold Redis.setItemStats
    split
    · exact hsame
    · exact ⟨h.setLiveStats ha _, fun _ _ hne => hne⟩
  | _ => exact ⟨⟨h.liveRaw, h.liveStats, h.index, h.frozen⟩, fun _ _ hne => hne⟩

theorem charted_run (hT : ∀ ts, T ts → Regular ts) {as : List Action} (h : Charted T t.redis)
    (has : ∀ a ∈ as, ActionOf T a) :
    Charted T (run (act c clock) t as).redis ∧
      StaysFrozen t.redis (run (act c clock) t as).redis := by
  have hstep : ∀ u, ∀ a ∈ as, (Charted T u.redis ∧ StaysFrozen t.redis u.redis) →
      Charted T (act c clock u a).redis ∧ StaysFrozen t.redis (act c clock u a).redis := by
    intro u a ha hu
    obtain ⟨hcharted, hstays⟩ := charted_act (c := c) hT hu.1 (has a ha)
    exact ⟨hcharted, fun unit bkey hne => hstays unit bkey (hu.2 unit bkey hne)⟩
  exact run_invariant_of_mem hstep ⟨h, fun _ _ hne => hne⟩

theorem actionOf_of_mem_tickActions {pops : List (BucketUnit × BucketKey) →
      List (BucketUnit × BucketKey)} {τ : Tick} (hrows : ∀ s ∈ τ.rows.rows, T s.sampledAt)
    {a : Action} (ha : a ∈ tickActions c pops t τ) : ActionOf T a := by
  have hbatch : ∀ s ∈ fetched c t τ, T s.sampledAt := fun s hs =>
    hrows s (mem_samplesAfter.mp (mem_samplesAfter_of_mem_fetch hs)).1
  unfold tickActions at ha
  rcases List.mem_append.mp ha with ha | ha
  · obtain ⟨s, hs, unit, rfl | rfl | rfl⟩ := mem_addActions.mp ha
    · trivial
    · exact hbatch s hs
    · trivial
  rcases List.mem_append.mp ha with ha | ha
  · split at ha
    · exact absurd ha List.not_mem_nil
    · rcases List.mem_cons.mp ha with rfl | ha
      · trivial
      · obtain ⟨p, -, ha⟩ := List.mem_flatMap.mp ha
        simp only [List.mem_cons, List.not_mem_nil, or_false] at ha
        rcases ha with rfl | rfl <;> trivial
  · obtain ⟨p, -, ha⟩ := List.mem_flatMap.mp ha
    simp only [List.mem_cons, List.not_mem_nil, or_false] at ha
    rcases ha with rfl | rfl <;> trivial

theorem actionOf_of_mem_coldActions {samples : List SampleRow}
    (hsamples : ∀ s ∈ samples, T s.sampledAt) {a : Action} (ha : a ∈ coldActions samples) :
    ActionOf T a := by
  have hbucket : ∀ unit, ∀ bucket ∈ sortedBuckets samples unit, BucketOf T unit bucket.1 := by
    intro unit bucket hb
    obtain ⟨-, s, hs, hkey⟩ := of_mem_groupOn (mem_sortedBuckets.mp hb)
    exact ⟨s.sampledAt, hsamples s hs, hkey⟩
  unfold coldActions at ha
  split at ha
  · exact absurd ha List.not_mem_nil
  next last _ =>
  rcases List.mem_append.mp ha with ha | ha
  · obtain ⟨unit, -, ha⟩ := List.mem_flatMap.mp ha
    unfold coldUnitActions at ha
    dsimp only at ha
    split at ha
    · exact absurd ha List.not_mem_nil
    next live hlive =>
    have hmem := List.mem_of_getLast? hlive
    rcases List.mem_append.mp ha with ha | ha
    · obtain ⟨bucket, hb, rfl⟩ := List.mem_map.mp ha
      exact hbucket unit bucket (List.dropLast_subset _ hb)
    rcases List.mem_append.mp ha with ha | ha
    · obtain ⟨s, hs, rfl⟩ := List.mem_map.mp ha
      exact hsamples s (bucketKey_of_mem_sortedBuckets hmem hs).1
    · obtain rfl := List.mem_singleton.mp ha
      exact hbucket unit live hmem
  · obtain rfl := List.mem_singleton.mp ha
    trivial

end StationTask

namespace Station

/-- The samples of the table are of the times, and so are the keys. -/
structure ChartSound (T : DateTime → Prop) (w : Station) : Prop where
  rows : ∀ row ∈ w.rows.rows, T row.sampledAt
  redis : Charted T w.task.redis

/-- The sample that arrives is of the times. -/
def EventOf (T : DateTime → Prop) : Event → Prop
  | .arrive row => T row.sampledAt
  | _ => True

variable {c : Settings} {w : Station}

theorem mem_cutShort {failsAfter : Option Nat} {as : List Action} {a : Action}
    (h : a ∈ cutShort failsAfter as) : a ∈ as := by
  cases failsAfter with
  | none => exact h
  | some n => exact List.mem_of_mem_take h

theorem charted_attemptTick (hT : ∀ ts, T ts → Regular ts) (h : ChartSound T w) (a : Attempt) :
    Charted T (w.attemptTick c a).redis ∧ StaysFrozen w.task.redis (w.attemptTick c a).redis := by
  have hactions : ∀ action ∈ w.attempted c a, StationTask.ActionOf T action :=
    fun action haction => StationTask.actionOf_of_mem_tickActions h.rows (mem_cutShort haction)
  have hrun := @StationTask.charted_run T c a.clock w.task hT _ h.redis hactions
  unfold attemptTick
  cases a.failsAfter <;> exact hrun

theorem charted_coldRun (hT : ∀ ts, T ts → Regular ts) (h : ChartSound T w)
    (failsAfter : Option Nat) :
    Charted T (w.coldRun c (w.samples c) failsAfter).redis ∧
      StaysFrozen w.task.redis (w.coldRun c (w.samples c) failsAfter).redis := by
  have hsamples : ∀ s ∈ w.samples c, T s.sampledAt := fun s hs =>
    h.rows s (mem_samplesAfter.mp hs).1
  exact StationTask.charted_run hT h.redis fun action haction =>
    StationTask.actionOf_of_mem_coldActions hsamples (mem_cutShort haction)

theorem charted_step (hT : ∀ ts, T ts → Regular ts) (h : ChartSound T w) {e : Event}
    (he : EventOf T e) :
    ChartSound T (step c w e) ∧ StaysFrozen w.task.redis (step c w e).task.redis := by
  have hsame : StaysFrozen w.task.redis w.task.redis := fun _ _ hne => hne
  cases e with
  | arrive row =>
    refine ⟨⟨fun s hs => ?_, h.redis⟩, hsame⟩
    rcases SerialTable.mem_append.mp hs with hs | rfl
    · exact h.rows s hs
    · exact he
  | start failsAfter =>
    rw [step_start]
    split
    · exact ⟨h, hsame⟩
    · obtain ⟨hrows, hredis⟩ := startOn_cases c (w.samples c) failsAfter w
      have hregular : ∀ row ∈ (startOn c (w.samples c) failsAfter w).rows.rows,
          T row.sampledAt := by
        rw [hrows]
        exact h.rows
      rcases hredis with hredis | ⟨-, hredis⟩
      · refine ⟨⟨hregular, ?_⟩, ?_⟩
        · rw [hredis]
          exact h.redis
        · rw [hredis]
          exact hsame
      · obtain ⟨hcharted, hstays⟩ := charted_coldRun (c := c) hT h failsAfter
        rw [← hredis] at hcharted hstays
        exact ⟨⟨hregular, hcharted⟩, hstays⟩
  | tick a =>
    rw [step_tick]
    split
    · obtain ⟨hcharted, hstays⟩ := charted_attemptTick (c := c) hT h a
      exact ⟨⟨h.rows, hcharted⟩, hstays⟩
    · exact ⟨h, hsame⟩
  | stop => exact ⟨⟨h.rows, h.redis⟩, hsame⟩

theorem charted_run (hT : ∀ ts, T ts → Regular ts) {es : List Event} (h : ChartSound T w)
    (hes : ∀ e ∈ es, EventOf T e) :
    ChartSound T (run (step c) w es) ∧
      StaysFrozen w.task.redis (run (step c) w es).task.redis := by
  have hstep : ∀ u, ∀ e ∈ es, (ChartSound T u ∧ StaysFrozen w.task.redis u.task.redis) →
      ChartSound T (step c u e) ∧ StaysFrozen w.task.redis (step c u e).task.redis := by
    intro u e he hu
    obtain ⟨hsound, hstays⟩ := charted_step (c := c) hT hu.1 (hes e he)
    exact ⟨hsound, fun unit bkey hne => hstays unit bkey (hu.2 unit bkey hne)⟩
  exact run_invariant_of_mem hstep ⟨h, fun _ _ hne => hne⟩

theorem chartSound_init : ChartSound T {} where
  rows := fun _ hrow => absurd hrow List.not_mem_nil
  redis :=
    { liveRaw := fun _ _ hne => absurd rfl hne
      liveStats := fun _ _ hne => absurd rfl hne
      index := fun _ _ he => absurd he List.not_mem_nil
      frozen := fun _ _ hne => absurd rfl hne }

end Station

/-! ## The answer -/

/-- The last of the ordered values is the greatest. -/
theorem getLast?_orderBy_iff {β : Type} [LinearOrder β] {xs : List β} {x : β} :
    (orderBy id xs).getLast? = some x ↔ x ∈ xs ∧ ∀ y ∈ xs, y ≤ x := by
  have hsorted : (orderBy id xs).Pairwise (fun a b => a ≤ b) := pairwise_orderBy id xs
  have hle : ∀ {z}, (orderBy id xs).getLast? = some z → z ∈ xs ∧ ∀ y ∈ xs, y ≤ z := by
    intro z hz
    refine ⟨mem_orderBy.mp (List.mem_of_getLast? hz), fun y hy => ?_⟩
    obtain ⟨init, hinit⟩ := List.getLast?_eq_some_iff.mp hz
    have hmem : y ∈ orderBy id xs := mem_orderBy.mpr hy
    rw [hinit] at hmem hsorted
    rcases List.mem_append.mp hmem with hmem | hmem
    · exact (List.pairwise_append.mp hsorted).2.2 y hmem z List.mem_cons_self
    · rw [List.mem_singleton.mp hmem]
  refine ⟨hle, fun ⟨hx, hgreatest⟩ => ?_⟩
  have hne : orderBy id xs ≠ [] := List.ne_nil_of_mem (mem_orderBy.mpr hx)
  have hlast := List.getLast?_eq_some_getLast hne
  obtain ⟨hmem, hup⟩ := hle hlast
  rw [hlast, le_antisymm (hgreatest _ hmem) (hup x hx)]

/-- The bucket is in the window of the chart: it is that of the first moment of
the window or a later one, or it begins in 1970 or later. -/
def InWindow (range : ChartRange) (unit : BucketUnit) (now : DateTime) (bkey : BucketKey) : Prop :=
  match range.days with
  | some days => ∃ ts, daysBefore now days = some ts ∧ bucketKey ts unit ≤ bkey
  | none => ∃ ts, inferTsForBucket bkey unit = some ts ∧ 0 ≤ bucketScore ts unit

section Years

variable {ts : DateTime} {year : Nat}

theorem inRange_newYear (h : 1 ≤ year ∧ year ≤ 9999) :
    DateTime.InRange { year := year, month := 1, day := 1 } :=
  ⟨h, ⟨le_rfl, Nat.le_add_left 1 11⟩, ⟨le_rfl, by simp [daysInMonth]⟩, Nat.succ_pos 23,
    Nat.succ_pos 59, Nat.succ_pos 59, Nat.succ_pos 999999⟩

theorem micros_lt_newYear (h : ts.InRange) (hyear : ts.year < year) (hmax : year ≤ 9999) :
    micros ts < micros { year := year, month := 1, day := 1 } :=
  h.micros_lt_of_lt (inRange_newYear ⟨by omega, hmax⟩) (List.cons_lt_cons_iff.mpr (Or.inl hyear))

theorem micros_newYear_le (h : ts.InRange) (hyear : year ≤ ts.year) (hpos : 1 ≤ year) :
    micros { year := year, month := 1, day := 1 } ≤ micros ts := by
  have hmax := h.year.2
  have hmonth := h.month.1
  have hday := h.day.1
  rw [← not_lt, h.micros_lt_iff (inRange_newYear ⟨hpos, by omega⟩)]
  simp only [DateTime.toList, List.cons_lt_cons_iff, List.not_lt_nil, Nat.not_lt_zero, and_false,
    or_false]
  omega

end Years

/-- The first moment of a window is at most a year earlier. -/
theorem year_daysBefore {now ts : DateTime} (hnow : now.InRange) (hyear : 1000 ≤ now.year)
    {days : Nat} (hdays : days ≤ 365) (hts : daysBefore now days = some ts) :
    ts.InRange ∧ 2 ≤ ts.year := by
  obtain ⟨hrange, hmicros⟩ := of_ofMicros hts
  refine ⟨hrange, ?_⟩
  have hyears : micros { year := 2, month := 1, day := 1 } + 365 * 86400000000 ≤
      micros { year := 1000, month := 1, day := 1 } := by decide
  have hlow := micros_newYear_le hnow hyear (Nat.succ_pos 999)
  by_contra hlt
  have hbefore := micros_lt_newYear hrange (not_le.mp hlt) (by decide)
  omega

theorem ChartRange.days_le {range : ChartRange} {days : Nat} (h : range.days = some days) :
    days ≤ 365 := by
  cases range <;> cases h <;> decide

/-- The range that a request reads is the window. -/
theorem Charted.mem_getFrozenRange_iff (h : Charted Regular r) {range : ChartRange} {now : DateTime}
    (hnow : now.InRange) (hyear : 1000 ≤ now.year) {minScore : Rat}
    (hmin : rangeToMinScore range unit now = some minScore) :
    bkey ∈ r.getFrozenRange unit minScore ↔
      r.frozen unit bkey ≠ none ∧ InWindow range unit now bkey := by
  have hwindow : ∀ score, (bkey, score) ∈ (r.frozenIndex unit).entries →
      (minScore ≤ score ↔ InWindow range unit now bkey) := by
    intro score hscore
    obtain ⟨-, u, hu, rfl, rfl⟩ := h.index unit _ hscore
    unfold rangeToMinScore at hmin
    unfold InWindow
    cases hdays : range.days with
    | none =>
      rw [hdays] at hmin
      obtain rfl := Option.some.inj hmin
      obtain ⟨v, hv, -, hscore⟩ := exists_inferTsForBucket hu.inRange hu.year.1 unit
      simp only [hv, Option.some.injEq, exists_eq_left', hscore]
    | some days =>
      rw [hdays] at hmin
      obtain ⟨ts, hts, rfl⟩ := Option.map_eq_some_iff.mp hmin
      obtain ⟨hrange, htwo⟩ := year_daysBefore hnow hyear (ChartRange.days_le hdays) hts
      simp only [hts, Option.some.injEq, exists_eq_left']
      rw [← not_lt, ← not_lt, bucketScore_lt_iff hu.inRange hrange hu.two_le_year htwo]
  unfold Redis.getFrozenRange
  rw [SortedSet.mem_zrangebyscore]
  constructor
  · rintro ⟨score, hscore, hle⟩
    exact ⟨(h.index unit _ hscore).1, (hwindow score hscore).mp hle⟩
  · rintro ⟨hfrozen, hin⟩
    obtain ⟨score, hscore⟩ := h.frozen unit bkey hfrozen
    exact ⟨score, hscore, (hwindow score hscore).mpr hin⟩

namespace Station

/-- A request whose reads come after these parts of a run. -/
def reads (c : Settings) (stations : List String) (scan : List BucketKey) (index : List Event)
    (candle : BucketKey → List Event) (live cursor : List Event) : Reads where
  stations := stations
  index := (run (step c) {} index).task.redis
  candle := fun bkey => (run (step c) {} (index ++ candle bkey)).task.redis
  scan := scan
  live := (run (step c) {} (index ++ live)).task.redis
  cursor := (run (step c) {} (index ++ cursor)).task.redis

/-- Whatever the poller does before a request and between its reads, the chart
has each bucket of the window that was frozen when the index was read, once and
in the order of time, with the candle that it has when it is read.  The live
candle is that of the latest live bucket. -/
theorem chart_run (c : Settings) (stations : List String) (station : String) (unit : BucketUnit)
    (range : ChartRange) (now : DateTime) (scan : List BucketKey) (index : List Event)
    (candle : BucketKey → List Event) (live cursor : List Event) (hnow : now.InRange)
    (hyear : 1000 ≤ now.year) (hindex : ∀ e ∈ index, EventOf Regular e)
    (hcandle : ∀ bkey, ∀ e ∈ candle bkey, EventOf Regular e)
    (hscan : ∀ bkey, bkey ∈ scan ↔
      (run (step c) {} (index ++ live)).task.redis.liveStats unit bkey ≠ none) {chart : Chart}
    (hchart : getChart (reads c stations scan index candle live cursor) station unit range now =
      some chart) :
    (chart.frozen.map Prod.fst).Pairwise (fun a b => a < b) ∧
    (∀ bkey, bkey ∈ chart.frozen.map Prod.fst ↔
      (run (step c) {} index).task.redis.frozen unit bkey ≠ none ∧
        InWindow range unit now bkey) ∧
    (∀ p ∈ chart.frozen,
      (run (step c) {} (index ++ candle p.1)).task.redis.frozen unit p.1 = some p.2) ∧
    ∀ p, chart.live = some p ↔
      (run (step c) {} (index ++ live)).task.redis.liveStats unit p.1 = some p.2 ∧
        ∀ bkey, (run (step c) {} (index ++ live)).task.redis.liveStats unit bkey ≠ none →
          bkey ≤ p.1 := by
  have hsound : ChartSound Regular (run (step c) {} index) :=
    (charted_run (fun _ hts => hts) chartSound_init hindex).1
  unfold getChart at hchart
  split at hchart
  case isFalse => contradiction
  obtain ⟨minScore, hmin, rfl⟩ := Option.map_eq_some_iff.mp hchart
  have hkeys := hsound.redis.pairwise_getFrozenRange (fun _ hts => hts) unit minScore
  have hmem : ∀ bkey, bkey ∈ Redis.getFrozenRange _ unit minScore ↔ _ ∧ _ := fun bkey =>
    hsound.redis.mem_getFrozenRange_iff hnow hyear hmin
  -- a candle is still there when it is read
  have hread : ∀ bkey, (run (step c) {} index).task.redis.frozen unit bkey ≠ none →
      (run (step c) {} (index ++ candle bkey)).task.redis.frozen unit bkey ≠ none := by
    intro bkey hne
    rw [run_append]
    exact (charted_run (fun _ hts => hts) hsound (hcandle bkey)).2 unit bkey hne
  refine ⟨?_, fun bkey => ?_, fun p hp => ?_, fun p => ?_⟩
  · rw [List.pairwise_map]
    refine List.Pairwise.filterMap _ (fun a b hab x hx y hy => ?_) hkeys
    obtain ⟨-, -, rfl⟩ := Option.map_eq_some_iff.mp hx
    obtain ⟨-, -, rfl⟩ := Option.map_eq_some_iff.mp hy
    exact hab
  · rw [← hmem bkey]
    constructor
    · intro h
      obtain ⟨p, hp, rfl⟩ := List.mem_map.mp h
      obtain ⟨k, hk, hp⟩ := List.mem_filterMap.mp hp
      obtain ⟨-, -, rfl⟩ := Option.map_eq_some_iff.mp hp
      exact hk
    · intro h
      obtain ⟨stats, hstats⟩ := Option.ne_none_iff_exists'.mp (hread bkey ((hmem bkey).mp h).1)
      exact List.mem_map.mpr ⟨(bkey, stats),
        List.mem_filterMap.mpr ⟨bkey, h, Option.map_eq_some_iff.mpr ⟨stats, hstats, rfl⟩⟩, rfl⟩
  · obtain ⟨k, -, hp⟩ := List.mem_filterMap.mp hp
    obtain ⟨stats, hstats, rfl⟩ := Option.map_eq_some_iff.mp hp
    exact hstats
  · show getLive (reads c stations scan index candle live cursor) unit = some p ↔ _
    unfold getLive
    simp only [Option.bind_eq_some_iff, getLast?_orderBy_iff, Option.map_eq_some_iff]
    constructor
    · rintro ⟨bkey, ⟨-, hgreatest⟩, stats, hstats, rfl⟩
      exact ⟨hstats, fun k hk => hgreatest k ((hscan k).mpr hk)⟩
    · rintro ⟨hstats, hgreatest⟩
      refine ⟨p.1, ⟨(hscan p.1).mpr ?_, fun k hk => hgreatest k ((hscan k).mp hk)⟩, p.2, hstats,
        rfl⟩
      rw [hstats]
      exact Option.some_ne_none _

/-- The times of the samples of `firstDay`. -/
def IsFirstDay (ts : DateTime) : Prop :=
  ts ∈ [{ year := 2026, month := 6, day := 1, hour := 10 },
    { year := 2026, month := 6, day := 1, hour := 11 },
    ({ year := 2026, month := 6, day := 2 } : DateTime)]

theorem regular_june {day hour : Nat} (hday : 1 ≤ day ∧ day ≤ 30) (hhour : hour < 24) :
    Regular { year := 2026, month := 6, day := day, hour := hour } :=
  ⟨⟨by simp, by simp, hday, hhour, Nat.succ_pos 59, Nat.succ_pos 59, Nat.succ_pos 999999⟩, by simp⟩

theorem regular_of_isFirstDay {ts : DateTime} (h : IsFirstDay ts) : Regular ts := by
  simp only [IsFirstDay, List.mem_cons, List.not_mem_nil, or_false] at h
  rcases h with rfl | rfl | rfl
  · exact regular_june (by decide) (by decide)
  · exact regular_june (by decide) (by decide)
  · exact regular_june (by decide) (by decide)

theorem eventOf_firstDay : ∀ e ∈ firstDay, EventOf IsFirstDay e := by
  simp [firstDay, EventOf, IsFirstDay, arriveJune, tickEvent]

/-- After `firstDay` the second of June is live, and no other day. -/
theorem liveStats_firstDay (bkey : BucketKey) :
    bkey ∈ [[2026, 6, 2]] ↔
      (run (step dustSettings) {} (firstDay ++ [])).task.redis.liveStats .day bkey ≠ none := by
  have hsecond : (run (step dustSettings) {} firstDay).task.redis.liveStats .day [2026, 6, 2] ≠
      none := by decide +kernel
  have hfirst : (run (step dustSettings) {} firstDay).task.redis.liveStats .day [2026, 6, 1] =
      none := by decide +kernel
  rw [List.append_nil, List.mem_singleton]
  constructor
  · rintro rfl
    exact hsecond
  · intro hne
    have hsound : ChartSound IsFirstDay (run (step dustSettings) {} firstDay) :=
      (charted_run (fun _ => regular_of_isFirstDay) chartSound_init eventOf_firstDay).1
    obtain ⟨ts, hts, rfl⟩ := hsound.redis.liveStats .day bkey hne
    simp only [IsFirstDay, List.mem_cons, List.not_mem_nil, or_false] at hts
    rcases hts with rfl | rfl | rfl
    · exact absurd hfirst hne
    · exact absurd hfirst hne
    · rfl

/-- A late sample changes the first of June between the two reads of it. -/
theorem chart_run_lateSample :
    ∃ chart, getChart (reads dustSettings ["s-1"] [[2026, 6, 2]] firstDay (fun _ => lateSample) []
        []) "s-1" .day .days90 { year := 2026, month := 6, day := 10 } = some chart ∧
      (chart.frozen.map Prod.fst).Pairwise (fun a b => a < b) ∧
      ∀ p ∈ chart.frozen, (run (step dustSettings) {} (firstDay ++ lateSample)).task.redis.frozen
        .day p.1 = some p.2 := by
  have hsome : (getChart (reads dustSettings ["s-1"] [[2026, 6, 2]] firstDay (fun _ => lateSample)
      [] []) "s-1" .day .days90 { year := 2026, month := 6, day := 10 }).isSome = true := by
    decide +kernel
  obtain ⟨chart, hchart⟩ := Option.isSome_iff_exists.mp hsome
  have hlate : ∀ e ∈ lateSample, EventOf Regular e := by
    simp only [lateSample, List.forall_mem_cons, EventOf, arriveJune, tickEvent]
    exact ⟨regular_june (by decide) (by decide), regular_june (by decide) (by decide), trivial,
      trivial, fun _ h => absurd h List.not_mem_nil⟩
  have hindex : ∀ e ∈ firstDay, EventOf Regular e := by
    intro e he
    have hof := eventOf_firstDay e he
    cases e with
    | arrive row => exact regular_of_isFirstDay hof
    | _ => trivial
  obtain ⟨hsorted, -, hcandles, -⟩ := chart_run dustSettings ["s-1"] "s-1" .day .days90
    { year := 2026, month := 6, day := 10 } [[2026, 6, 2]] firstDay (fun _ => lateSample) [] []
    (regular_june (by decide) (by decide)).inRange (by decide) hindex (fun _ => hlate)
    liveStats_firstDay hchart
  exact ⟨chart, hchart, hsorted, hcandles⟩

end Station

end DustMonitoring.Dumopro
