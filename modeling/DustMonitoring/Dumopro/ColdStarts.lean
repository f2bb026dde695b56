import DustMonitoring.Dumopro.Attempts

/-!
# What a cold start keeps, and what it leaves

A cold start may end after any number of its actions, and then the next
process begins with another one, on what the first one left in Redis and
with the samples that have arrived since.

* `ColdReady`: the keys in Redis as long as there is no cursor.  Only
  buckets before the latest one are ever frozen, and the latest one stays
  the latest or is frozen by the next cold start.
* `coldReady_run`: every action of a cold start keeps this.
* `closed_run_coldActions`: a cold start that comes to its end leaves a
  frozen candle of all samples for each bucket but the latest, and the
  latest one live.
-/

namespace DustMonitoring.Dumopro

open DustMonitoring.Lib

/-- No sample is of a later bucket. -/
def Latest (samples : List SampleRow) (unit : BucketUnit) (bkey : BucketKey) : Prop :=
  ∀ s ∈ samples, bucketKey s.sampledAt unit ≤ bkey

/-! ## The buckets of a cold start -/

section Buckets

variable {samples : List SampleRow} {unit : BucketUnit}
  {bucket live : BucketKey × List SampleRow}

theorem pairwise_sortedBuckets (samples : List SampleRow) (unit : BucketUnit) :
    (sortedBuckets samples unit).Pairwise (fun a b => a.1 < b.1) := by
  have hle := pairwise_orderBy Prod.fst
    (groupOn (fun s => bucketKey s.sampledAt unit) samples)
  have hnodup : ((sortedBuckets samples unit).map Prod.fst).Nodup :=
    ((perm_orderBy Prod.fst _).map Prod.fst).nodup_iff.mpr
      (nodup_map_fst_groupOn (fun s => bucketKey s.sampledAt unit) samples)
  exact (hle.and (List.pairwise_map.mp hnodup)).imp
    fun {a b} h => lt_of_le_of_ne h.1 h.2

/-- A bucket has all samples of its key. -/
theorem snd_of_mem_sortedBuckets (h : bucket ∈ sortedBuckets samples unit) :
    bucket.2 = samples.filter fun s => decide (bucketKey s.sampledAt unit = bucket.1) :=
  snd_of_mem_groupOn (mem_sortedBuckets.mp h)

theorem exists_mem_sortedBuckets (unit : BucketUnit) {s : SampleRow} (hs : s ∈ samples) :
    ∃ bucket ∈ sortedBuckets samples unit, bucket.1 = bucketKey s.sampledAt unit := by
  obtain ⟨bucket, hb, hkey⟩ :=
    exists_mem_groupOn (fun s => bucketKey s.sampledAt unit) hs
  exact ⟨bucket, mem_sortedBuckets.mpr hb, hkey⟩

theorem latest_of_getLast? (h : (sortedBuckets samples unit).getLast? = some live) :
    Latest samples unit live.1 := by
  intro s hs
  obtain ⟨bucket, hb, hkey⟩ := exists_mem_sortedBuckets unit hs
  obtain ⟨pre, hpre⟩ := List.getLast?_eq_some_iff.mp h
  have hsorted := pairwise_sortedBuckets samples unit
  rw [hpre] at hb hsorted
  rw [← hkey]
  rcases List.mem_append.mp hb with hb | hb
  · exact le_of_lt ((List.pairwise_append.mp hsorted).2.2 bucket hb live List.mem_cons_self)
  · rw [List.mem_singleton.mp hb]

theorem not_latest_of_mem_dropLast (h : bucket ∈ (sortedBuckets samples unit).dropLast) :
    ¬ Latest samples unit bucket.1 := by
  intro hlatest
  have hne : sortedBuckets samples unit ≠ [] := by
    intro hnil
    rw [hnil] at h
    contradiction
  have hsplit := List.dropLast_append_getLast hne
  have hsorted := pairwise_sortedBuckets samples unit
  have hlast := List.getLast_mem hne
  rw [← hsplit] at hsorted
  have hlt := (List.pairwise_append.mp hsorted).2.2 bucket h _ List.mem_cons_self
  obtain ⟨-, s, hs, hkey⟩ := of_mem_groupOn (mem_sortedBuckets.mp hlast)
  have hle := hlatest s hs
  rw [hkey] at hle
  exact absurd hlt (not_lt.mpr hle)

end Buckets

/-! ## The actions of a cold start -/

namespace StationTask

/-- What an action of a cold start is. -/
inductive ColdAction (samples : List SampleRow) : Action → Prop where
  | freeze {unit : BucketUnit} {lastSampledAt : DateTime}
      {bucket : BucketKey × List SampleRow} :
      bucket ∈ sortedBuckets samples unit → ¬ Latest samples unit bucket.1 →
      ColdAction samples (.freezeItems unit lastSampledAt bucket)
  | add {s : SampleRow} {unit : BucketUnit} :
      s ∈ samples → Latest samples unit (bucketKey s.sampledAt unit) →
      ColdAction samples (.addLiveRaw s unit)
  | stats {unit : BucketUnit} {lastSampledAt : DateTime}
      {bucket : BucketKey × List SampleRow} :
      ColdAction samples (.setItemStats unit lastSampledAt bucket)
  | cursor {last : SampleRow} : ColdAction samples (.setCursor last)

section ColdAction

variable {samples : List SampleRow}

theorem coldAction_of_mem {a : Action} (h : a ∈ coldActions samples) :
    ColdAction samples a := by
  unfold coldActions at h
  split at h
  · contradiction
  next last _ =>
  rcases List.mem_append.mp h with h | h
  · obtain ⟨unit, -, h⟩ := List.mem_flatMap.mp h
    unfold coldUnitActions at h
    dsimp only at h
    split at h
    · contradiction
    next live hlive =>
    rcases List.mem_append.mp h with h | h
    · obtain ⟨bucket, hb, rfl⟩ := List.mem_map.mp h
      exact .freeze (List.dropLast_subset _ hb) (not_latest_of_mem_dropLast hb)
    rcases List.mem_append.mp h with h | h
    · obtain ⟨s, hs, rfl⟩ := List.mem_map.mp h
      obtain ⟨hmem, hkey⟩ := bucketKey_of_mem_sortedBuckets (List.mem_of_getLast? hlive) hs
      exact .add hmem (hkey ▸ latest_of_getLast? hlive)
    · obtain rfl := List.mem_singleton.mp h
      exact .stats
  · obtain rfl := List.mem_singleton.mp h
    exact .cursor

theorem mem_coldActions_of_unit {last : SampleRow} (hlast : samples.getLast? = some last)
    {unit : BucketUnit} {a : Action}
    (h : a ∈ coldUnitActions samples last.sampledAt unit) : a ∈ coldActions samples := by
  unfold coldActions
  rw [hlast]
  exact List.mem_append_left _ (List.mem_flatMap.mpr ⟨unit, mem_unitList unit, h⟩)

/-- A sample goes to the live set of its bucket, or its bucket is frozen. -/
theorem exists_mem_coldActions {s : SampleRow} (hs : s ∈ samples) (unit : BucketUnit) :
    (Latest samples unit (bucketKey s.sampledAt unit) ∧
      .addLiveRaw s unit ∈ coldActions samples) ∨
    (¬ Latest samples unit (bucketKey s.sampledAt unit) ∧
      ∃ lastSampledAt, ∃ bucket ∈ sortedBuckets samples unit,
        bucket.1 = bucketKey s.sampledAt unit ∧
        .freezeItems unit lastSampledAt bucket ∈ coldActions samples) := by
  have hne : samples ≠ [] := List.ne_nil_of_mem hs
  have hlast := List.getLast?_eq_some_getLast hne
  obtain ⟨bucket, hb, hkey⟩ := exists_mem_sortedBuckets unit hs
  have hbne : sortedBuckets samples unit ≠ [] := List.ne_nil_of_mem hb
  have hlive := List.getLast?_eq_some_getLast hbne
  have hsplit := List.dropLast_append_getLast hbne
  have hactions : ∀ a, a ∈ coldUnitActions samples (samples.getLast hne).sampledAt unit →
      a ∈ coldActions samples := fun a => mem_coldActions_of_unit hlast
  unfold coldUnitActions at hactions
  dsimp only at hactions
  rw [hlive] at hactions
  rw [← hsplit] at hb
  rcases List.mem_append.mp hb with hb | hb
  · refine Or.inr ⟨hkey ▸ not_latest_of_mem_dropLast hb, (samples.getLast hne).sampledAt,
      bucket, List.dropLast_subset _ hb, hkey, hactions _ ?_⟩
    exact List.mem_append_left _ (List.mem_map.mpr ⟨bucket, hb, rfl⟩)
  · obtain rfl := List.mem_singleton.mp hb
    refine Or.inl ⟨hkey ▸ latest_of_getLast? hlive, hactions _ ?_⟩
    have hmem : s ∈ ((sortedBuckets samples unit).getLast hbne).2 := by
      rw [snd_of_mem_sortedBuckets (List.getLast_mem hbne)]
      exact List.mem_filter.mpr ⟨hs, decide_eq_true hkey.symm⟩
    exact List.mem_append_right _ (List.mem_append_left _
      (List.mem_map.mpr ⟨s, hmem, rfl⟩))

end ColdAction

end StationTask

/-! ## While there is no cursor -/

/-- The keys in Redis that a cold start can begin with. -/
structure ColdReady (samples : List SampleRow) (r : Redis) : Prop where
  sound : LiveSound samples r
  earlier : ∀ unit bkey, r.frozen unit bkey ≠ none →
    (∃ s ∈ samples, bucketKey s.sampledAt unit = bkey) ∧ ¬ Latest samples unit bkey

/-- Every candle of the one is a candle of the other. -/
def StaysFrozen (r r' : Redis) : Prop :=
  ∀ unit bkey, r.frozen unit bkey ≠ none → r'.frozen unit bkey ≠ none

/-- A bucket that was collected has statistics, and a timestamp. -/
theorem exists_freezeItems {samples : List SampleRow} {unit : BucketUnit}
    {bucket : BucketKey × List SampleRow} (h : bucket ∈ sortedBuckets samples unit)
    (lastSampledAt : DateTime) (r : Redis) :
    ∃ stats score, computeBoxStats (bucket.2.map SampleRow.value) = some stats ∧
      freezeItems unit lastSampledAt r bucket =
        r.freezeBucket unit bucket.1 ⟨stats, some lastSampledAt⟩ score := by
  obtain ⟨hne, s, -, hkey⟩ := of_mem_groupOn (mem_sortedBuckets.mp h)
  have hvalues : bucket.2.map SampleRow.value ≠ [] := by simpa using hne
  obtain ⟨stats, hstats⟩ := exists_computeBoxStats hvalues
  have hts : (inferTsForBucket bucket.1 unit).isSome := by
    rw [← hkey]
    exact inferTsForBucket_bucketKey s.sampledAt unit
  obtain ⟨ts, hts⟩ := Option.isSome_iff_exists.mp hts
  refine ⟨stats, bucketScore ts unit, hstats, ?_⟩
  unfold freezeItems
  rw [hstats, hts]

theorem setItemStats_eq (r : Redis) (unit : BucketUnit) (lastSampledAt : DateTime)
    (bucket : BucketKey × List SampleRow) :
    ∃ stats, r.setItemStats unit lastSampledAt bucket = { r with liveStats := stats } := by
  unfold Redis.setItemStats
  split
  · exact ⟨_, rfl⟩
  · exact ⟨_, rfl⟩

section ColdReady

open StationTask

variable {c : Settings} {clock : Nat → BucketUnit → Rat} {t : StationTask}
  {samples : List SampleRow}

theorem coldReady_act {a : Action} (h : ColdReady samples t.redis)
    (ha : ColdAction samples a) :
    ColdReady samples (act c clock t a).redis ∧
      StaysFrozen t.redis (act c clock t a).redis := by
  cases ha with
  | @freeze unit lastSampledAt bucket hb hlatest =>
    obtain ⟨stats, score, -, heq⟩ := exists_freezeItems hb lastSampledAt t.redis
    show ColdReady samples (freezeItems unit lastSampledAt t.redis bucket) ∧
      StaysFrozen t.redis (freezeItems unit lastSampledAt t.redis bucket)
    rw [heq]
    refine ⟨⟨h.sound.freezeBucket, fun u k hc => ?_⟩, fun u k hc => ?_⟩
    · rw [frozen_freezeBucket] at hc
      split at hc
      · next hp =>
        obtain ⟨rfl, rfl⟩ := hp
        obtain ⟨-, s, hs, hkey⟩ := of_mem_groupOn (mem_sortedBuckets.mp hb)
        exact ⟨⟨s, hs, hkey⟩, hlatest⟩
      · exact h.earlier u k hc
    · rw [frozen_freezeBucket]
      split
      · exact Option.some_ne_none _
      · exact hc
  | add hs hlatest => exact ⟨⟨h.sound.addSample hs, h.earlier⟩, fun _ _ hc => hc⟩
  | @stats unit lastSampledAt bucket =>
    show ColdReady samples (t.redis.setItemStats unit lastSampledAt bucket) ∧
      StaysFrozen t.redis (t.redis.setItemStats unit lastSampledAt bucket)
    obtain ⟨stats, heq⟩ := setItemStats_eq t.redis unit lastSampledAt bucket
    rw [heq]
    exact ⟨⟨h.sound, h.earlier⟩, fun _ _ hc => hc⟩
  | cursor => exact ⟨⟨h.sound, h.earlier⟩, fun _ _ hc => hc⟩

/-- A cold start, whole or cut short. -/
theorem coldReady_run {as : List Action} (h : ColdReady samples t.redis)
    (has : as ⊆ coldActions samples) :
    ColdReady samples (run (act c clock) t as).redis ∧
      StaysFrozen t.redis (run (act c clock) t as).redis := by
  have hstep : ∀ u, ∀ a ∈ as,
      (ColdReady samples u.redis ∧ StaysFrozen t.redis u.redis) →
      ColdReady samples (act c clock u a).redis ∧
        StaysFrozen t.redis (act c clock u a).redis := by
    intro u a ha hu
    obtain ⟨hready, hstays⟩ := coldReady_act hu.1 (coldAction_of_mem (has ha))
    exact ⟨hready, fun unit bkey hc => hstays unit bkey (hu.2 unit bkey hc)⟩
  exact run_invariant_of_mem hstep ⟨h, fun _ _ hc => hc⟩

/-! ## A cold start that comes to its end -/

/-- The bucket was frozen from these samples. -/
def FrozenFrom (r : Redis) (unit : BucketUnit) (bucket : BucketKey × List SampleRow) :
    Prop :=
  r.liveRaw unit bucket.1 = .empty ∧
    ∃ candle, r.frozen unit bucket.1 = some candle ∧
      computeBoxStats (bucket.2.map SampleRow.value) = some candle.stats

theorem frozenFrom_run {unit : BucketUnit} {lastSampledAt : DateTime}
    {bucket : BucketKey × List SampleRow} (hb : bucket ∈ sortedBuckets samples unit)
    (hlatest : ¬ Latest samples unit bucket.1)
    (ha : Action.freezeItems unit lastSampledAt bucket ∈ coldActions samples) :
    FrozenFrom (run (act c clock) t (coldActions samples)).redis unit bucket := by
  have hdo : ∀ ts r, FrozenFrom (freezeItems unit ts r bucket) unit bucket := by
    intro ts r
    obtain ⟨stats, score, hstats, heq⟩ := exists_freezeItems hb ts r
    rw [heq]
    refine ⟨?_, ⟨stats, some ts⟩, ?_, hstats⟩
    · rw [liveRaw_freezeBucket, if_pos ⟨rfl, rfl⟩]
    · rw [frozen_freezeBucket, if_pos ⟨rfl, rfl⟩]
  refine run_of_mem (D := fun u => FrozenFrom u.redis unit bucket)
    (fun u => ?_) (fun u a hmem hu => ?_) ha t
  · exact hdo lastSampledAt u.redis
  cases coldAction_of_mem hmem with
  | @freeze unit' ts bucket' hb' _ =>
    by_cases hp : unit = unit' ∧ bucket.1 = bucket'.1
    · obtain ⟨rfl, hkey⟩ := hp
      have hsnd : bucket'.2 = bucket.2 := by
        rw [snd_of_mem_sortedBuckets hb', snd_of_mem_sortedBuckets hb, hkey]
      obtain rfl : bucket' = bucket := Prod.ext hkey.symm hsnd
      exact hdo ts u.redis
    · obtain ⟨stats, score, -, heq⟩ := exists_freezeItems hb' ts u.redis
      show FrozenFrom (freezeItems unit' ts u.redis bucket') unit bucket
      rw [heq, FrozenFrom, liveRaw_freezeBucket, frozen_freezeBucket, if_neg hp, if_neg hp]
      exact hu
  | @add s unit' _ hadd =>
    refine ⟨?_, hu.2⟩
    show setKey u.redis.liveRaw unit' _ _ unit bucket.1 = .empty
    unfold setKey
    rw [if_neg, hu.1]
    intro hp
    obtain ⟨rfl, hkey⟩ := hp
    rw [hkey] at hlatest
    exact hlatest hadd
  | @stats unit' ts bucket' =>
    obtain ⟨stats, heq⟩ := setItemStats_eq u.redis unit' ts bucket'
    show FrozenFrom (u.redis.setItemStats unit' ts bucket') unit bucket
    rw [heq]
    exact hu
  | cursor => exact hu

theorem holds_run_coldActions {s : SampleRow} {unit : BucketUnit}
    (hlatest : Latest samples unit (bucketKey s.sampledAt unit))
    (ha : Action.addLiveRaw s unit ∈ coldActions samples) :
    (run (act c clock) t (coldActions samples)).redis.Holds unit s := by
  refine run_of_mem (D := fun u => u.redis.Holds unit s)
    (fun u => ?_) (fun u a hmem hu => ?_) ha t
  · exact holds_addSample.mpr (Or.inl ⟨rfl, rfl, rfl⟩)
  cases coldAction_of_mem hmem with
  | @freeze unit' ts bucket hb hearlier =>
    obtain ⟨stats, score, -, heq⟩ := exists_freezeItems hb ts u.redis
    show (freezeItems unit' ts u.redis bucket).Holds unit s
    rw [heq]
    refine holds_freezeBucket.mpr ⟨fun hp => ?_, hu⟩
    obtain ⟨rfl, hkey⟩ := hp
    rw [hkey] at hlatest
    exact hearlier hlatest
  | add _ _ => exact holds_addSample.mpr (Or.inr hu)
  | @stats unit' ts bucket =>
    obtain ⟨stats, heq⟩ := setItemStats_eq u.redis unit' ts bucket
    show (u.redis.setItemStats unit' ts bucket).Holds unit s
    rw [heq]
    exact hu
  | cursor => exact hu

/-- The end of a cold start is the cursor. -/
theorem cursor_run_coldActions {last : SampleRow} (h : samples.getLast? = some last) :
    (run (act c clock) t (coldActions samples)).redis.cursor =
      some (last.id, last.sampledAt) := by
  unfold coldActions
  rw [h, run_concat]
  rfl

theorem cursor_act_coldUnit {unit : BucketUnit} {lastSampledAt : DateTime} {a : Action}
    (ha : a ∈ coldUnitActions samples lastSampledAt unit) :
    (act c clock t a).redis.cursor = t.redis.cursor := by
  unfold coldUnitActions at ha
  dsimp only at ha
  split at ha
  · contradiction
  simp only [List.mem_append, List.mem_map, List.mem_singleton] at ha
  rcases ha with ⟨bucket, hb, rfl⟩ | ⟨s, -, rfl⟩ | rfl
  · obtain ⟨stats, score, -, heq⟩ :=
      exists_freezeItems (List.dropLast_subset _ hb) lastSampledAt t.redis
    show (freezeItems unit lastSampledAt t.redis bucket).cursor = _
    rw [heq]
    rfl
  · rfl
  · next live _ =>
    obtain ⟨stats, heq⟩ := setItemStats_eq t.redis unit lastSampledAt live
    show (t.redis.setItemStats unit lastSampledAt live).cursor = _
    rw [heq]

/-- A cold start that does not come to its end leaves the cursor alone. -/
theorem cursor_run_cut {as : List Action} (has : as <+: coldActions samples) :
    (run (act c clock) t as).redis.cursor = t.redis.cursor ∨
      samples ≠ [] ∧ as = coldActions samples := by
  unfold coldActions at has ⊢
  cases hlast : samples.getLast? with
  | none =>
    rw [hlast] at has
    rw [List.prefix_nil.mp has]
    exact Or.inl rfl
  | some last =>
    rw [hlast] at has
    rcases List.prefix_concat_iff.mp has with rfl | has
    · refine Or.inr ⟨fun hnil => ?_, rfl⟩
      rw [hnil] at hlast
      contradiction
    · have hstep : ∀ u, ∀ a ∈ as, u.redis.cursor = t.redis.cursor →
          (act c clock u a).redis.cursor = t.redis.cursor := by
        intro u a ha hu
        obtain ⟨unit, -, ha⟩ := List.mem_flatMap.mp (has.subset ha)
        rw [cursor_act_coldUnit ha, hu]
      exact Or.inl (run_invariant_of_mem hstep rfl)

theorem closed_run_coldActions (h : ColdReady samples t.redis)
    (hsorted : samples.Pairwise (fun a b => a.id < b.id)) {last : SampleRow}
    (hlast : samples.getLast? = some last) :
    Closed samples (run (act c clock) t (coldActions samples)).redis last.id := by
  have hready : ColdReady samples (run (act c clock) t (coldActions samples)).redis :=
    (coldReady_run h (List.Subset.refl _)).1
  have hcursor : (run (act c clock) t (coldActions samples)).redis.cursorId = last.id := by
    rw [Redis.cursorId, cursor_run_coldActions hlast]
    rfl
  have hle : ∀ s ∈ samples, s.id ≤ last.id := by
    intro s hs
    obtain ⟨pre, hpre⟩ := List.getLast?_eq_some_iff.mp hlast
    rw [hpre] at hs hsorted
    rcases List.mem_append.mp hs with hs | hs
    · exact le_of_lt ((List.pairwise_append.mp hsorted).2.2 s hs last List.mem_cons_self)
    · rw [List.mem_singleton.mp hs]
  refine ⟨⟨hready.sound, fun unit bkey candle hc => ?_, fun unit bkey hc => ?_⟩,
    fun _ s hs _ => hcursor ▸ hle s hs, hcursor, fun hnone => ?_⟩
  rotate_right
  · rw [cursor_run_coldActions hlast] at hnone
    contradiction
  · obtain ⟨⟨s, hs, rfl⟩, hearlier⟩ :=
      hready.earlier unit bkey (by rw [hc]; exact Option.some_ne_none _)
    obtain ⟨hlatest, -⟩ | ⟨-, lastSampledAt, bucket, hb, hkey, hmem⟩ :=
      exists_mem_coldActions hs unit
    · exact absurd hlatest hearlier
    have hfrom : FrozenFrom (run (act c clock) t (coldActions samples)).redis unit bucket :=
      frozenFrom_run hb (hkey ▸ hearlier) hmem
    obtain ⟨hraw, candle', hc', hstats⟩ := hfrom
    rw [hkey] at hraw hc'
    obtain rfl : candle' = candle := Option.some.inj (hc'.symm.trans hc)
    refine ⟨bucket.2.map SampleRow.value, ?_, hstats⟩
    have hsettled : settled samples (run (act c clock) t (coldActions samples)).redis unit
        (bucketKey s.sampledAt unit) = bucket.2 := by
      rw [snd_of_mem_sortedBuckets hb, hkey]
      refine List.filter_congr fun x hx => decide_eq_decide.mpr ⟨fun h => h.2.1, fun h => ?_⟩
      refine ⟨hcursor ▸ hle x hx, h, ?_⟩
      rw [Redis.Holds, h, hraw]
      exact List.not_mem_nil
    rw [hsettled]
  · refine List.eq_nil_iff_forall_not_mem.mpr fun s hmem => ?_
    obtain ⟨hs, -, rfl, hnot⟩ := mem_settled.mp hmem
    obtain ⟨hlatest, hadd⟩ | ⟨hearlier, lastSampledAt, bucket, hb, hkey, hfreeze⟩ :=
      exists_mem_coldActions hs unit
    · exact hnot (holds_run_coldActions hlatest hadd)
    · have hfrom : FrozenFrom (run (act c clock) t (coldActions samples)).redis unit bucket :=
        frozenFrom_run hb (hkey ▸ hearlier) hfreeze
      obtain ⟨-, candle, hc', -⟩ := hfrom
      rw [hkey, hc] at hc'
      contradiction

end ColdReady

end DustMonitoring.Dumopro
