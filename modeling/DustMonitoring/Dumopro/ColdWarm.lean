import DustMonitoring.Dumopro.Backfill
import DustMonitoring.Dumopro.StationTask

/-!
# Cold start against warm ticking

The two ways to fill the keys of a station: `cold_start` on the samples as a
whole, and ticks that consume the same samples in batches.

They leave the same candles exactly when all samples are of one hour and
those beyond the fences come in ascending order
(`sameCandles_coldStart_iff`).

* A second hour: `cold_start` freezes the first one, while a tick schedules
  its freeze under a unit that `GraceFreezer.due` never goes over
  (`frozen_hour_run_tick`).
* One hour: both leave one live bucket for each unit, with the same raw
  values (`oneLive_coldRedis`, `oneLive_run_tick`).  A tick takes the
  statistics of the values in the order of the sorted set, `cold_start` in
  the order of the ids.
-/

namespace DustMonitoring.Dumopro

open DustMonitoring.Lib

/-! ## The raw values of one bucket -/

/-- The raw values of a bucket after the samples were added to it. -/
def addRaw (samples : List SampleRow) (raw : SortedSet String Rat) :
    SortedSet String Rat :=
  samples.foldl (fun raw s => raw.zadd (Nat.repr s.id) s.value) raw

theorem addRaw_append (pre post : List SampleRow) (raw : SortedSet String Rat) :
    addRaw (pre ++ post) raw = addRaw post (addRaw pre raw) :=
  List.foldl_append

theorem scores_addRaw_ne_nil {samples : List SampleRow} (h : samples ≠ [])
    (raw : SortedSet String Rat) : (addRaw samples raw).scores ≠ [] := by
  induction samples using List.reverseRecOn with
  | nil => exact absurd rfl h
  | append_singleton pre s _ =>
    rw [addRaw_append]
    exact SortedSet.scores_zadd_ne_nil _ _ _

/-- Samples with distinct ids keep all their values. -/
theorem scores_addRaw {samples : List SampleRow}
    (h : samples.Pairwise (fun a b => a.id < b.id)) :
    (addRaw samples .empty).scores =
      orderBy id (samples.map SampleRow.value) := by
  have hnodup : ((samples.map fun s => (Nat.repr s.id, s.value)).map
      Prod.fst).Nodup := by
    rw [List.map_map]
    apply List.pairwise_map.mpr
    exact h.imp fun {a b} hlt heq => absurd (repr_inj heq) (Nat.ne_of_lt hlt)
  have hscores := SortedSet.scores_foldl_zadd hnodup
  rw [List.foldl_map, List.map_map] at hscores
  exact hscores

/-! ## One live bucket for each unit -/

/-- Each unit has one live bucket, and no bucket is frozen. -/
structure OneLive (key : BucketUnit → BucketKey) (raw : SortedSet String Rat)
    (stats : Option CandleStats) (r : Redis) : Prop where
  frozen : ∀ u k, r.frozen u k = none
  frozenIndex : ∀ u, r.frozenIndex u = .empty
  liveRaw : ∀ u k, r.liveRaw u k = if k = key u then raw else .empty
  liveStats : ∀ u k,
    (r.liveStats u k).map Candle.stats = if k = key u then stats else none

theorem oneLive_empty (key : BucketUnit → BucketKey) :
    OneLive key .empty none .empty where
  frozen _ _ := rfl
  frozenIndex _ := rfl
  liveRaw _ _ := (ite_self _).symm
  liveStats _ _ := (ite_self _).symm

/-- With the same raw values, what is left to compare are the statistics. -/
theorem OneLive.sameCandles_iff {key : BucketUnit → BucketKey}
    {raw : SortedSet String Rat} {stats stats' : Option CandleStats}
    {r r' : Redis} (h : OneLive key raw stats r)
    (h' : OneLive key raw stats' r') :
    Redis.SameCandles r r' ↔ stats = stats' := by
  constructor
  · intro hsame
    have hhour := hsame.liveStats .hour (key .hour)
    rwa [h.liveStats, h'.liveStats, if_pos rfl, if_pos rfl] at hhour
  · intro heq
    subst heq
    constructor
    · intro u k
      rw [h.frozen, h'.frozen]
    · intro u
      rw [h.frozenIndex, h'.frozenIndex]
    · intro u k
      rw [h.liveRaw, h'.liveRaw]
    · intro u k
      rw [h.liveStats, h'.liveStats]

/-! ## Cold start in one hour -/

section Cold

variable {samples : List SampleRow} {key : BucketUnit → BucketKey}
  {stats : CandleStats}

theorem addAll_eq (unit : BucketUnit) (bkey : BucketKey)
    (samples : List SampleRow) (r : Redis) :
    addAll unit bkey samples r =
      { r with
        liveRaw := setKey r.liveRaw unit bkey
          (addRaw samples (r.liveRaw unit bkey)) } := by
  induction samples generalizing r with
  | nil =>
    rw [addRaw, List.foldl_nil, setKey_self]
    rfl
  | cons s ss ih =>
    show addAll unit bkey ss (r.addLiveRaw unit bkey s.id s.value) = _
    rw [ih]
    unfold Redis.addLiveRaw addRaw
    simp only [setKey_setKey, setKey_eq, List.foldl_cons]

/-- The one bucket of a unit becomes its live bucket. -/
theorem coldUnit_eq (lastSampledAt : DateTime)
    (hstats : computeBoxStats (samples.map SampleRow.value) = some stats)
    (hkey : ∀ s ∈ samples, ∀ u, bucketKey s.sampledAt u = key u)
    (r : Redis) (u : BucketUnit) :
    coldUnit samples lastSampledAt r u =
      { r with
        liveRaw := setKey r.liveRaw u (key u)
          (addRaw samples (r.liveRaw u (key u)))
        liveStats := setKey r.liveStats u (key u)
          (some ⟨stats, some lastSampledAt⟩) } := by
  have hne : samples ≠ [] := by
    intro hnil
    rw [hnil] at hstats
    contradiction
  rw [coldUnit_of_forall_eq lastSampledAt r hne fun s hs => hkey s hs u]
  unfold keepLive
  dsimp only
  rw [hstats, addAll_eq]
  rfl

theorem foldl_coldUnit_eq (lastSampledAt : DateTime)
    (hstats : computeBoxStats (samples.map SampleRow.value) = some stats)
    (hkey : ∀ s ∈ samples, ∀ u, bucketKey s.sampledAt u = key u)
    {units : List BucketUnit} (hnodup : units.Nodup) (r : Redis) :
    units.foldl (coldUnit samples lastSampledAt) r =
      { r with
        liveRaw := fun u k =>
          if u ∈ units ∧ k = key u then addRaw samples (r.liveRaw u k)
          else r.liveRaw u k
        liveStats := fun u k =>
          if u ∈ units ∧ k = key u then some ⟨stats, some lastSampledAt⟩
          else r.liveStats u k } := by
  have hfold : units.foldl (coldUnit samples lastSampledAt) r =
      { r with
        liveRaw := units.foldl (fun f u =>
          setKey f u (key u) (addRaw samples (f u (key u)))) r.liveRaw
        liveStats := units.foldl (fun f u =>
          setKey f u (key u) (some ⟨stats, some lastSampledAt⟩)) r.liveStats } := by
    clear hnodup
    induction units generalizing r with
    | nil => rfl
    | cons u us ih =>
      rw [List.foldl_cons, ih, coldUnit_eq lastSampledAt hstats hkey]
      rfl
  have hlive := foldl_setKey key
    (fun _ => some (Candle.mk stats (some lastSampledAt))) hnodup r.liveStats
  beta_reduce at hlive
  rw [hfold, foldl_setKey key (addRaw samples) hnodup, hlive]

/-- `cold_start` leaves one live bucket for each unit, with the statistics
of the values in the order of the ids. -/
theorem oneLive_coldRedis
    (hkey : ∀ s ∈ samples, ∀ u, bucketKey s.sampledAt u = key u) :
    OneLive key (addRaw samples .empty)
      (computeBoxStats (samples.map SampleRow.value)) (coldRedis samples) := by
  unfold coldRedis
  split
  · next hnone =>
    rw [List.getLast?_eq_none_iff.mp hnone]
    exact oneLive_empty key
  · next last hlast =>
    have hvalues : samples.map SampleRow.value ≠ [] := by
      intro hnil
      rw [List.map_eq_nil_iff.mp hnil] at hlast
      contradiction
    obtain ⟨stats, hstats⟩ := exists_computeBoxStats hvalues
    rw [foldl_coldUnit_eq last.sampledAt hstats hkey nodup_unitList, hstats]
    constructor
    · intro u k
      rfl
    · intro u
      rfl
    · intro u k
      simp [Redis.setCursor, Redis.empty, mem_unitList]
    · intro u k
      by_cases hk : k = key u
      · simp [Redis.setCursor, mem_unitList, hk]
      · simp [Redis.setCursor, Redis.empty, hk]

end Cold

/-! ## Ticks in one hour -/

namespace StationTask

section Sample

variable (c : Settings) (clock : BucketUnit → Rat) (s : SampleRow)
  {units : List BucketUnit}

/-- What a sample does to Redis: in each unit it adds a raw value to its
bucket. -/
theorem redis_foldl_addSample (hnodup : units.Nodup) (t : StationTask) :
    (units.foldl (addSample c clock s) t).redis =
      { t.redis with
        liveRaw := fun u k =>
          if u ∈ units ∧ k = bucketKey s.sampledAt u then
            addRaw [s] (t.redis.liveRaw u k)
          else t.redis.liveRaw u k } := by
  have hfold : (units.foldl (addSample c clock s) t).redis =
      { t.redis with
        liveRaw := units.foldl (fun f u =>
          setKey f u (bucketKey s.sampledAt u)
            (addRaw [s] (f u (bucketKey s.sampledAt u)))) t.redis.liveRaw } := by
    clear hnodup
    induction units generalizing t with
    | nil => rfl
    | cons u us ih =>
      rw [List.foldl_cons, ih]
      rfl
  rw [hfold, foldl_setKey (bucketKey s.sampledAt) (addRaw [s]) hnodup]

theorem mem_addDirty {dirty : List (BucketUnit × BucketKey)}
    {p q : BucketUnit × BucketKey} :
    q ∈ addDirty dirty p ↔ q ∈ dirty ∨ q = p := by
  unfold addDirty
  split
  · next hp =>
    constructor
    · exact Or.inl
    · intro h
      exact h.elim id fun heq => heq ▸ hp
  · simp

/-- The buckets that a sample makes dirty. -/
theorem mem_dirty_foldl_addSample (t : StationTask)
    (p : BucketUnit × BucketKey) :
    p ∈ (units.foldl (addSample c clock s) t).dirty ↔
      p ∈ t.dirty ∨ p.1 ∈ units ∧ p.2 = bucketKey s.sampledAt p.1 := by
  induction units generalizing t with
  | nil => simp
  | cons u us ih =>
    have hstep : p ∈ (addSample c clock s t u).dirty ↔
        p ∈ t.dirty ∨ p = (u, bucketKey s.sampledAt u) := mem_addDirty
    rw [List.foldl_cons, ih, hstep, or_assoc, List.mem_cons]
    by_cases hu : p.1 = u
    · subst hu
      by_cases hk : p.2 = bucketKey s.sampledAt p.1
      · simp [Prod.ext_iff, hk]
      · simp [Prod.ext_iff, hk]
    · simp [Prod.ext_iff, hu]

end Sample

section Batch

variable (c : Settings) (clock : Nat → BucketUnit → Rat)
  {batch : List SampleRow} {key : BucketUnit → BucketKey}

theorem redis_foldl_handleSample
    (hkey : ∀ s ∈ batch, ∀ u, bucketKey s.sampledAt u = key u)
    (t : StationTask) :
    (batch.foldl (handleSample c clock) t).redis =
      { t.redis with
        liveRaw := fun u k =>
          if k = key u then addRaw batch (t.redis.liveRaw u k)
          else t.redis.liveRaw u k } := by
  induction batch generalizing t with
  | nil => simp [addRaw]
  | cons s ss ih =>
    have hs : bucketKey s.sampledAt = key :=
      funext fun u => hkey s List.mem_cons_self u
    have hstep : (handleSample c clock t s).redis = _ :=
      redis_foldl_addSample c (clock s.id) s nodup_unitList t
    rw [List.foldl_cons, ih fun x hx => hkey x (List.mem_cons_of_mem s hx),
      hstep, hs]
    have hraw : (fun u k =>
        if k = key u then
          addRaw ss (if u ∈ unitList ∧ k = key u then
            addRaw [s] (t.redis.liveRaw u k) else t.redis.liveRaw u k)
        else if u ∈ unitList ∧ k = key u then addRaw [s] (t.redis.liveRaw u k)
          else t.redis.liveRaw u k) = fun u k =>
        if k = key u then addRaw (s :: ss) (t.redis.liveRaw u k)
        else t.redis.liveRaw u k := by
      funext u k
      by_cases hk : k = key u
      · rw [if_pos hk, if_pos hk, if_pos ⟨mem_unitList u, hk⟩,
          ← addRaw_append, List.singleton_append]
      · rw [if_neg hk, if_neg hk, if_neg fun h => hk h.2]
    rw [← hraw]

theorem mem_dirty_foldl_handleSample
    (hkey : ∀ s ∈ batch, ∀ u, bucketKey s.sampledAt u = key u)
    (t : StationTask) (p : BucketUnit × BucketKey) :
    p ∈ (batch.foldl (handleSample c clock) t).dirty ↔
      p ∈ t.dirty ∨ batch ≠ [] ∧ p.2 = key p.1 := by
  induction batch generalizing t with
  | nil => simp
  | cons s ss ih =>
    have hstep : p ∈ (handleSample c clock t s).dirty ↔ _ :=
      mem_dirty_foldl_addSample c (clock s.id) s t p
    rw [List.foldl_cons, ih fun x hx => hkey x (List.mem_cons_of_mem s hx),
      hstep, hkey s List.mem_cons_self]
    by_cases hk : p.2 = key p.1
    · simp [mem_unitList, hk]
    · simp [hk]

/-- No freeze is pending, and the last bucket of a unit is its bucket of the
hour. -/
structure InHour (key : BucketUnit → BucketKey) (t : StationTask) : Prop where
  pending : ∀ u, t.freezer.pending u = none
  lastBucketKeys : ∀ u k, t.lastBucketKeys u = some k → k = key u

theorem inHour_addSample {clock : BucketUnit → Rat} {s : SampleRow}
    (hkey : ∀ u, bucketKey s.sampledAt u = key u) (t : StationTask)
    (unit : BucketUnit) (h : InHour key t) :
    InHour key (addSample c clock s t unit) := by
  have hfreezer : (addSample c clock s t unit).freezer = t.freezer := by
    unfold addSample
    dsimp only
    split
    · rfl
    · next prev hprev =>
      rw [if_neg]
      rw [h.lastBucketKeys unit prev hprev, hkey]
      exact fun hne => hne rfl
  constructor
  · intro u
    rw [hfreezer]
    exact h.pending u
  · intro u k hk
    change Function.update t.lastBucketKeys unit _ u = some k at hk
    by_cases hu : u = unit
    · subst hu
      rw [Function.update_self, hkey] at hk
      exact (Option.some.inj hk).symm
    · rw [Function.update_of_ne hu] at hk
      exact h.lastBucketKeys u k hk

theorem inHour_foldl_handleSample
    (hkey : ∀ s ∈ batch, ∀ u, bucketKey s.sampledAt u = key u)
    {t : StationTask} (h : InHour key t) :
    InHour key (batch.foldl (handleSample c clock) t) := by
  induction batch generalizing t with
  | nil => exact h
  | cons s ss ih =>
    have hs : InHour key (handleSample c clock t s) :=
      run_invariant (inHour_addSample c (hkey s List.mem_cons_self)) h unitList
    exact ih (fun x hx => hkey x (List.mem_cons_of_mem s hx)) hs

/-- The samples of a batch are added to the live buckets. -/
theorem oneLive_foldl_handleSample {raw : SortedSet String Rat}
    {stats : Option CandleStats} {t : StationTask}
    (h : OneLive key raw stats t.redis)
    (hkey : ∀ s ∈ batch, ∀ u, bucketKey s.sampledAt u = key u) :
    OneLive key (addRaw batch raw) stats
      (batch.foldl (handleSample c clock) t).redis := by
  rw [redis_foldl_handleSample c clock hkey t]
  refine ⟨h.frozen, h.frozenIndex, fun u k => ?_, h.liveStats⟩
  by_cases hk : k = key u
  · simp [h.liveRaw, hk]
  · simp [h.liveRaw, hk]

/-- Recomputing the live buckets gives them the statistics of their raw
values. -/
theorem oneLive_foldl_recompute {raw : SortedSet String Rat}
    {stats : Option CandleStats} {r : Redis}
    {dirty : List (BucketUnit × BucketKey)} (h : OneLive key raw stats r)
    (hraw : raw.scores ≠ []) (hdirty : ∀ u k, (u, k) ∈ dirty ↔ k = key u)
    (updatedAt : DateTime) :
    OneLive key raw (computeBoxStats raw.scores)
      (dirty.foldl (recompute updatedAt) r) := by
  obtain ⟨fresh, hfresh⟩ := exists_computeBoxStats hraw
  rw [foldl_recompute_eq]
  refine ⟨h.frozen, h.frozenIndex, h.liveRaw, fun u k => ?_⟩
  dsimp only
  by_cases hk : k = key u
  · have hvalues : r.getLiveRawValues u k = raw.scores := by
      rw [Redis.getLiveRawValues, h.liveRaw, if_pos hk]
    rw [if_pos ((hdirty u k).mpr hk), if_pos hk, freshStats, hvalues, hfresh]
    rfl
  · rw [if_neg fun hd => hk ((hdirty u k).mp hd), if_neg hk]
    exact (h.liveStats u k).trans (if_neg hk)

/-- What holds between two ticks that have consumed the samples `pre`. -/
structure Warm (key : BucketUnit → BucketKey) (pre : List SampleRow)
    (t : StationTask) : Prop where
  inHour : InHour key t
  dirty : t.dirty = []
  redis : OneLive key (addRaw pre .empty)
    (computeBoxStats (addRaw pre .empty).scores) t.redis

theorem warm_init (key : BucketUnit → BucketKey) : Warm key [] {} where
  inHour := ⟨fun _ => rfl, fun _ _ h => nomatch h⟩
  dirty := rfl
  redis := oneLive_empty key

theorem warm_handleBatch {pre : List SampleRow} {t : StationTask}
    (h : Warm key pre t)
    (hkey : ∀ s ∈ batch, ∀ u, bucketKey s.sampledAt u = key u) :
    Warm key (pre ++ batch) (handleBatch c clock batch t) := by
  unfold handleBatch
  split
  · next hnone =>
    rw [List.getLast?_eq_none_iff.mp hnone, List.append_nil]
    exact h
  · next last hlast =>
    have hne : batch ≠ [] := by
      intro hnil
      rw [hnil] at hlast
      contradiction
    have hhour := inHour_foldl_handleSample c clock hkey h.inHour
    have hlive := oneLive_foldl_handleSample c clock h.redis hkey
    have hdirty := mem_dirty_foldl_handleSample c clock hkey t
    generalize batch.foldl (handleSample c clock) t = t' at hhour hlive hdirty
    rw [← addRaw_append] at hlive
    have hcursor : OneLive key (addRaw (pre ++ batch) .empty) _
        (t'.redis.setCursor last.id last.sampledAt) :=
      ⟨hlive.frozen, hlive.frozenIndex, hlive.liveRaw, hlive.liveStats⟩
    refine ⟨⟨hhour.pending, hhour.lastBucketKeys⟩, rfl, ?_⟩
    apply oneLive_foldl_recompute hcursor
    · exact scores_addRaw_ne_nil (by simp [hne]) .empty
    · intro u k
      rw [hdirty, h.dirty]
      simp [hne]

end Batch

section Ticks

variable {c : Settings} {key : BucketUnit → BucketKey}

theorem InHour.processFreezes_eq {t : StationTask} (h : InHour key t)
    (now : Rat) : processFreezes now t = t := by
  have hdue : t.freezer.due now = [] := by
    simp [GraceFreezer.due, h.pending]
  rw [processFreezes, hdue]
  rfl

theorem warm_tick {pre : List SampleRow} {t : StationTask} {τ : Tick}
    (h : Warm key pre t)
    (hkey : ∀ s ∈ fetched c t τ, ∀ u, bucketKey s.sampledAt u = key u) :
    Warm key (pre ++ fetched c t τ) (tick c t τ) := by
  have hbatch := warm_handleBatch c τ.clock h hkey
  rw [tick, hbatch.inHour.processFreezes_eq]
  exact hbatch

theorem warm_run {pre : List SampleRow} {t : StationTask} {ticks : List Tick}
    (h : Warm key pre t)
    (hkey : ∀ s ∈ outputs (tick c) (fetched c) t ticks,
      ∀ u, bucketKey s.sampledAt u = key u) :
    Warm key (pre ++ outputs (tick c) (fetched c) t ticks)
      (run (tick c) t ticks) := by
  induction ticks generalizing t pre with
  | nil =>
    rw [outputs, List.append_nil]
    exact h
  | cons τ ticks ih =>
    have htick := warm_tick h
      fun s hs => hkey s (List.mem_append_left _ hs)
    rw [outputs, ← List.append_assoc]
    exact ih htick fun s hs => hkey s (List.mem_append_right _ hs)

/-- Ticks leave one live bucket for each unit, with the statistics of the
values in the order of the sorted set. -/
theorem oneLive_run_tick {ticks : List Tick}
    (hkey : ∀ s ∈ consumed c ticks, ∀ u, bucketKey s.sampledAt u = key u) :
    OneLive key (addRaw (consumed c ticks) .empty)
      (computeBoxStats (addRaw (consumed c ticks) .empty).scores)
      (run (tick c) {} ticks).redis :=
  (warm_run (warm_init key) hkey).redis

end Ticks

/-! ## Ticks over several hours -/

theorem frozen_handleBatch (c : Settings) (clock : Nat → BucketUnit → Rat)
    (batch : List SampleRow) (t : StationTask) :
    (handleBatch c clock batch t).redis.frozen = t.redis.frozen := by
  have hsample : ∀ (t : StationTask) (s : SampleRow),
      (handleSample c clock t s).redis.frozen = t.redis.frozen := by
    intro t s
    have hredis : (handleSample c clock t s).redis = _ :=
      redis_foldl_addSample c (clock s.id) s nodup_unitList t
    rw [hredis]
  have hfold : (batch.foldl (handleSample c clock) t).redis.frozen =
      t.redis.frozen :=
    run_eq (handleSample c clock) (fun t => t.redis.frozen) hsample t batch
  unfold handleBatch
  split
  · rfl
  · unfold recomputeDirty
    dsimp only
    rw [foldl_recompute_eq]
    exact hfold

/-- Freezing a bucket of another unit freezes no hour. -/
theorem frozen_hour_freeze {t : StationTask} {p : BucketUnit × BucketKey}
    (hp : p.1 ≠ .hour) (k : BucketKey) (h : t.redis.frozen .hour k = none) :
    (freeze t p).redis.frozen .hour k = none := by
  unfold freeze
  split
  · exact (if_neg fun heq => hp heq.1.symm).trans h
  · exact h

theorem frozen_hour_tick {c : Settings} {t : StationTask} (τ : Tick)
    (h : ∀ k, t.redis.frozen .hour k = none) (k : BucketKey) :
    (tick c t τ).redis.frozen .hour k = none := by
  have hbatch : (handleBatch c τ.clock (fetched c t τ) t).redis.frozen .hour k =
      none := by
    rw [frozen_handleBatch]
    exact h k
  unfold tick processFreezes
  generalize handleBatch c τ.clock (fetched c t τ) t = t' at hbatch
  have hunits : ∀ p ∈ t'.freezer.due τ.dueAt, p.1 ≠ .hour := by
    intro p hp hhour
    have hmem := GraceFreezer.mem_freezerUnits_of_mem_due hp
    rw [hhour] at hmem
    simp [freezerUnits] at hmem
  generalize t'.freezer.due τ.dueAt = due at hunits
  induction due generalizing t' with
  | nil => exact hbatch
  | cons p ps ih =>
    exact ih (freeze t' p)
      (frozen_hour_freeze (hunits p List.mem_cons_self) k hbatch)
      fun q hq => hunits q (List.mem_cons_of_mem p hq)

/-- No tick ever freezes an hour. -/
theorem frozen_hour_run_tick (c : Settings) (ticks : List Tick)
    (k : BucketKey) : (run (tick c) {} ticks).redis.frozen .hour k = none := by
  have hstep : ∀ (t : StationTask) (τ : Tick),
      (∀ k, t.redis.frozen .hour k = none) →
        ∀ k, (tick c t τ).redis.frozen .hour k = none :=
    fun t τ h => frozen_hour_tick τ h
  exact run_invariant hstep (fun k => rfl) ticks k

end StationTask

/-! ## The comparison -/

/-- All samples are of one hour. -/
def SameHour (samples : List SampleRow) : Prop :=
  ∀ a ∈ samples, ∀ b ∈ samples,
    bucketKey a.sampledAt .hour = bucketKey b.sampledAt .hour

instance (samples : List SampleRow) : Decidable (SameHour samples) :=
  inferInstanceAs (Decidable (∀ a ∈ samples, ∀ b ∈ samples, _))

/-- Samples of one hour are of one bucket in every unit. -/
theorem SameHour.exists_key {samples : List SampleRow}
    (h : SameHour samples) :
    ∃ key : BucketUnit → BucketKey,
      ∀ s ∈ samples, ∀ u, bucketKey s.sampledAt u = key u := by
  cases samples with
  | nil => exact ⟨fun _ => [], fun s hs => absurd hs List.not_mem_nil⟩
  | cons a samples =>
    refine ⟨bucketKey a.sampledAt, fun s hs u => ?_⟩
    exact bucketKey_eq_of_hour (h s hs a List.mem_cons_self) u

/-- The rows of samples of one station, with ids from 1 on. -/
def sampleRows (samples : List (DateTime × Rat)) : List SampleRow :=
  samples.zipIdx.map fun p =>
    { id := p.2 + 1
      stationId := "s-1"
      measurementType := "dust"
      value := p.1.2
      sampledAt := p.1.1 }

def dustSettings : Settings where
  stationId := "s-1"
  measurementType := "dust"

/-- A time of the first of June. -/
def firstOfJune (hour minute : Nat) : DateTime :=
  { year := 2026, month := 6, day := 1, hour := hour, minute := minute }

/-- A tick on a table, all of it at one time. -/
def tickAt (rows : Table SampleRow.id) (now : Rat) : Tick :=
  ⟨rows, fun _ _ => now, now⟩

def oneHourRows : Table SampleRow.id :=
  ⟨sampleRows [(firstOfJune 10 0, 4), (firstOfJune 10 30, 2)], by decide⟩

def twoHourRows : Table SampleRow.id :=
  ⟨sampleRows [(firstOfJune 10 30, 5), (firstOfJune 11 0, 5)], by decide⟩

/-- Ticks that consume the samples in whatever batches, and at whatever
times, leave the candles of `cold_start` exactly when all samples are of one
hour and those beyond the fences come in ascending order. -/
theorem sameCandles_coldStart_iff (c : Settings) (rows : Table SampleRow.id)
    (chunk : Nat) (ticks : List Tick)
    (hsplit : StationTask.consumed c ticks =
      iterAllSamples c.toSource rows chunk) :
    Redis.SameCandles (run (StationTask.tick c) {} ticks).redis
        (coldStart c.toSource rows chunk) ↔
      SameHour (iterAllSamples c.toSource rows chunk) ∧
        BeyondSorted
          ((iterAllSamples c.toSource rows chunk).map SampleRow.value) := by
  have hids := pairwise_iterAllSamples c.toSource rows chunk
  unfold coldStart
  rw [← hsplit] at hids ⊢
  by_cases hhour : SameHour (StationTask.consumed c ticks)
  · obtain ⟨key, hkey⟩ := hhour.exists_key
    have hwarm := StationTask.oneLive_run_tick hkey
    have hcold := oneLive_coldRedis hkey
    rw [hwarm.sameCandles_iff hcold, scores_addRaw hids,
      computeBoxStats_eq_sorted_iff]
    exact (and_iff_right hhour).symm
  · refine iff_of_false ?_ fun h => hhour h.1
    intro hsame
    unfold SameHour at hhour
    push Not at hhour
    obtain ⟨a, ha, b, hb, hne⟩ := hhour
    obtain ⟨k, hk⟩ := exists_frozen_hour_coldRedis ha hb hne
    have hfrozen := hsame.frozen .hour k
    rw [StationTask.frozen_hour_run_tick] at hfrozen
    rw [Option.isSome_iff_exists] at hk
    obtain ⟨candle, hcandle⟩ := hk
    rw [hcandle] at hfrozen
    contradiction

/-- Two ticks that each read the table of one hour. -/
theorem sameCandles_coldStart_oneHour :
    Redis.SameCandles
      (run (StationTask.tick dustSettings) {}
        [tickAt oneHourRows 0, tickAt oneHourRows 60]).redis
      (coldStart dustSettings.toSource oneHourRows 5000) := by
  have hiter : iterAllSamples dustSettings.toSource oneHourRows 5000 =
      samplesAfter dustSettings.toSource oneHourRows 0 :=
    iterAllSamples_eq (by decide)
  apply (sameCandles_coldStart_iff dustSettings oneHourRows 5000 _ ?_).mpr
  · rw [hiter]
    exact ⟨by decide +kernel, by decide +kernel⟩
  · rw [hiter]
    decide +kernel

/-- Two samples in two hours: the hour of the first one is never frozen,
although its grace period is over at the second tick. -/
theorem not_sameCandles_coldStart_twoHours :
    ∃ first last : Tick,
      StationTask.consumed dustSettings [first, last] =
        iterAllSamples dustSettings.toSource twoHourRows 5000 ∧
      (iterAllSamples dustSettings.toSource twoHourRows 5000).Pairwise
        (fun a b => timestamp a.sampledAt ≤ timestamp b.sampledAt) ∧
      (∀ unit ∈ unitList, ∀ pf ∈ (run (StationTask.tick dustSettings) {}
        [first]).freezer.pending unit, pf.readyAt ≤ last.dueAt) ∧
      ¬ Redis.SameCandles
        (run (StationTask.tick dustSettings) {} [first, last]).redis
        (coldStart dustSettings.toSource twoHourRows 5000) := by
  have hiter : iterAllSamples dustSettings.toSource twoHourRows 5000 =
      samplesAfter dustSettings.toSource twoHourRows 0 :=
    iterAllSamples_eq (by decide)
  refine ⟨tickAt twoHourRows 0, tickAt twoHourRows 60, ?_⟩
  rw [coldStart, hiter]
  refine ⟨by decide +kernel, by decide +kernel, by decide +kernel, ?_⟩
  intro hsame
  have hfrozen := hsame.frozen .hour [2026, 6, 1, 10]
  revert hfrozen
  decide +kernel

end DustMonitoring.Dumopro
