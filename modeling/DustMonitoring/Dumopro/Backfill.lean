import DustMonitoring.Dumopro.Redis
import DustMonitoring.Dumopro.Samples

/-!
# The cold path: backfill

`cold_start` of `backfill.py`: it collects all samples of the station by
bucket, freezes every bucket of a unit but the last one, and leaves that
one live.
-/

namespace DustMonitoring.Dumopro

open DustMonitoring.Lib

/-- Freeze a bucket from the samples that were collected for it. -/
def freezeItems (unit : BucketUnit) (lastSampledAt : DateTime) (r : Redis)
    (bucket : BucketKey × List SampleRow) : Redis :=
  match computeBoxStats (bucket.2.map SampleRow.value),
      inferTsForBucket bucket.1 unit with
  | some stats, some ts =>
    r.freezeBucket unit bucket.1 ⟨stats, some lastSampledAt⟩ (bucketScore ts unit)
  | _, _ => r

/-- Add the raw values of samples to one live bucket. -/
def addAll (unit : BucketUnit) (bkey : BucketKey) (samples : List SampleRow)
    (r : Redis) : Redis :=
  samples.foldl (fun r s => r.addLiveRaw unit bkey s.id s.value) r

/-- Leave a bucket live: its raw values and their statistics. -/
def keepLive (unit : BucketUnit) (lastSampledAt : DateTime) (r : Redis)
    (bucket : BucketKey × List SampleRow) : Redis :=
  let r := addAll unit bucket.1 bucket.2 r
  match computeBoxStats (bucket.2.map SampleRow.value) with
  | none => r
  | some stats => r.setLiveStats unit bucket.1 ⟨stats, some lastSampledAt⟩

/-- The buckets of a unit in the order of their keys. -/
def sortedBuckets (samples : List SampleRow) (unit : BucketUnit) :
    List (BucketKey × List SampleRow) :=
  orderBy Prod.fst (groupOn (fun s => bucketKey s.sampledAt unit) samples)

/-- One unit of `cold_start`. -/
def coldUnit (samples : List SampleRow) (lastSampledAt : DateTime) (r : Redis)
    (unit : BucketUnit) : Redis :=
  let buckets := sortedBuckets samples unit
  match buckets.getLast? with
  | none => r
  | some live =>
    keepLive unit lastSampledAt
      (buckets.dropLast.foldl (freezeItems unit lastSampledAt) r) live

/-- `cold_start` once the samples were read, on an empty Redis. -/
def coldRedis (samples : List SampleRow) : Redis :=
  match samples.getLast? with
  | none => .empty
  | some last =>
    (unitList.foldl (coldUnit samples last.sampledAt) .empty).setCursor
      last.id last.sampledAt

/-- `cold_start` on an empty Redis. -/
def coldStart (src : Source) (rows : Table SampleRow.id) (chunk : Nat) : Redis :=
  coldRedis (iterAllSamples src rows chunk)

/-! ## Frozen buckets stay frozen -/

section Frozen

variable {unit : BucketUnit} {lastSampledAt : DateTime} {r : Redis}
  {u : BucketUnit} {k : BucketKey}

theorem frozen_freezeItems (bucket : BucketKey × List SampleRow)
    (h : (r.frozen u k).isSome) :
    ((freezeItems unit lastSampledAt r bucket).frozen u k).isSome := by
  unfold freezeItems
  split
  · show (ite _ _ _ : Option Candle).isSome
    split
    · rfl
    · exact h
  · exact h

theorem frozen_foldl_freezeItems (buckets : List (BucketKey × List SampleRow))
    (h : (r.frozen u k).isSome) :
    ((buckets.foldl (freezeItems unit lastSampledAt) r).frozen u k).isSome := by
  induction buckets generalizing r with
  | nil => exact h
  | cons b bs ih => exact ih (frozen_freezeItems b h)

/-- A bucket that has samples is frozen. -/
theorem frozen_freezeItems_self {bucket : BucketKey × List SampleRow}
    (hne : bucket.2 ≠ []) (hts : (inferTsForBucket bucket.1 unit).isSome) :
    ((freezeItems unit lastSampledAt r bucket).frozen unit bucket.1).isSome := by
  obtain ⟨ts, hts⟩ := Option.isSome_iff_exists.mp hts
  have hvalues : bucket.2.map SampleRow.value ≠ [] := by
    simpa using hne
  unfold freezeItems computeBoxStats
  rw [if_neg hvalues, hts]
  simp [Redis.freezeBucket, setKey]

@[simp] theorem frozen_addAll (bkey : BucketKey) (samples : List SampleRow) :
    (addAll unit bkey samples r).frozen = r.frozen := by
  induction samples generalizing r with
  | nil => rfl
  | cons s ss ih => exact ih (r := r.addLiveRaw unit bkey s.id s.value)

theorem frozen_keepLive (bucket : BucketKey × List SampleRow) :
    (keepLive unit lastSampledAt r bucket).frozen = r.frozen := by
  unfold keepLive
  dsimp only
  split
  · exact frozen_addAll bucket.1 bucket.2
  · exact frozen_addAll bucket.1 bucket.2

theorem frozen_coldUnit (samples : List SampleRow)
    (h : (r.frozen u k).isSome) :
    ((coldUnit samples lastSampledAt r unit).frozen u k).isSome := by
  unfold coldUnit
  dsimp only
  split
  · exact h
  · rw [frozen_keepLive]
    exact frozen_foldl_freezeItems _ h

theorem frozen_foldl_coldUnit (samples : List SampleRow)
    (units : List BucketUnit) (h : (r.frozen u k).isSome) :
    ((units.foldl (coldUnit samples lastSampledAt) r).frozen u k).isSome := by
  induction units generalizing r with
  | nil => exact h
  | cons unit units ih => exact ih (frozen_coldUnit samples h)

end Frozen

/-! ## Samples of several buckets -/

theorem mem_sortedBuckets {samples : List SampleRow} {unit : BucketUnit}
    {bucket : BucketKey × List SampleRow} :
    bucket ∈ sortedBuckets samples unit ↔
      bucket ∈ groupOn (fun s => bucketKey s.sampledAt unit) samples :=
  mem_orderBy

/-- Every bucket of a unit but the last one is frozen. -/
theorem frozen_coldUnit_of_mem_dropLast {samples : List SampleRow}
    {unit : BucketUnit} (lastSampledAt : DateTime) (r : Redis)
    {bucket : BucketKey × List SampleRow}
    (h : bucket ∈ (sortedBuckets samples unit).dropLast) :
    ((coldUnit samples lastSampledAt r unit).frozen unit bucket.1).isSome := by
  obtain ⟨hne, s, -, hkey⟩ :=
    of_mem_groupOn (mem_sortedBuckets.mp (List.dropLast_subset _ h))
  have hts : (inferTsForBucket bucket.1 unit).isSome := by
    rw [← hkey]
    exact inferTsForBucket_bucketKey s.sampledAt unit
  obtain ⟨pre, post, hsplit⟩ := List.append_of_mem h
  unfold coldUnit
  dsimp only
  split
  · next hnone =>
    rw [List.getLast?_eq_none_iff.mp hnone] at h
    contradiction
  · rw [frozen_keepLive, hsplit, List.foldl_append, List.foldl_cons]
    exact frozen_foldl_freezeItems post (frozen_freezeItems_self hne hts)

/-- When two samples are of different buckets, some bucket is frozen. -/
theorem exists_frozen_coldUnit {samples : List SampleRow} {unit : BucketUnit}
    (lastSampledAt : DateTime) (r : Redis) {a b : SampleRow}
    (ha : a ∈ samples) (hb : b ∈ samples)
    (hne : bucketKey a.sampledAt unit ≠ bucketKey b.sampledAt unit) :
    ∃ k, ((coldUnit samples lastSampledAt r unit).frozen unit k).isSome := by
  obtain ⟨ga, hga, hka⟩ :=
    exists_mem_groupOn (fun s => bucketKey s.sampledAt unit) ha
  obtain ⟨gb, hgb, hkb⟩ :=
    exists_mem_groupOn (fun s => bucketKey s.sampledAt unit) hb
  have hga := mem_sortedBuckets.mpr hga
  have hgb := mem_sortedBuckets.mpr hgb
  have hnil : sortedBuckets samples unit ≠ [] := List.ne_nil_of_mem hga
  have hsplit := List.dropLast_append_getLast hnil
  rw [← hsplit, List.mem_append, List.mem_singleton] at hga hgb
  rcases hga with hga | hga
  · exact ⟨ga.1, frozen_coldUnit_of_mem_dropLast lastSampledAt r hga⟩
  · rcases hgb with hgb | hgb
    · exact ⟨gb.1, frozen_coldUnit_of_mem_dropLast lastSampledAt r hgb⟩
    · refine absurd ?_ hne
      rw [← hka, ← hkb, hga, hgb]

/-- When two samples are of different hours, some hour is frozen. -/
theorem exists_frozen_hour_coldRedis {samples : List SampleRow}
    {a b : SampleRow} (ha : a ∈ samples) (hb : b ∈ samples)
    (hne : bucketKey a.sampledAt .hour ≠ bucketKey b.sampledAt .hour) :
    ∃ k, ((coldRedis samples).frozen .hour k).isSome := by
  unfold coldRedis
  split
  · next hnone =>
    rw [List.getLast?_eq_none_iff.mp hnone] at ha
    contradiction
  · next last _ =>
    obtain ⟨k, hk⟩ := exists_frozen_coldUnit last.sampledAt .empty ha hb hne
    exact ⟨k, frozen_foldl_coldUnit samples [.day, .week, .month] hk⟩

/-! ## Samples of one bucket -/

/-- A unit all of whose samples are of one bucket keeps that bucket live,
and freezes nothing. -/
theorem coldUnit_of_forall_eq {samples : List SampleRow} {unit : BucketUnit}
    {k : BucketKey} (lastSampledAt : DateTime) (r : Redis)
    (hne : samples ≠ []) (hkey : ∀ s ∈ samples, bucketKey s.sampledAt unit = k) :
    coldUnit samples lastSampledAt r unit =
      keepLive unit lastSampledAt r (k, samples) := by
  have hone : sortedBuckets samples unit = [(k, samples)] := by
    rw [sortedBuckets, groupOn_of_forall_eq hne hkey]
    rfl
  unfold coldUnit
  rw [hone]
  rfl

end DustMonitoring.Dumopro
