import DustMonitoring.Lib.Calendar

/-!
# Buckets

`dumopro_core/buckets.py`, and `_infer_ts_for_bucket` of `backfill.py`: the
bucket that a timestamp falls into, for each of the four units, and the
score of a bucket in the frozen index.

The source writes a bucket key as text with fixed widths, such as
`2026-06-01T10`.  The model keeps the numbers of the text; within a unit
the order of the texts is the lexicographic order of the numbers
(`key_trichotomy`).
-/

namespace DustMonitoring.Dumopro

open DustMonitoring.Lib

/-- `Unit` of `keys.py`. -/
inductive BucketUnit where
  | hour | day | week | month
deriving DecidableEq, Repr

/-- `UNIT_LIST`. -/
def unitList : List BucketUnit := [.hour, .day, .week, .month]

theorem mem_unitList (unit : BucketUnit) : unit ∈ unitList := by
  cases unit <;> decide

theorem nodup_unitList : unitList.Nodup := by decide

/-- The numbers of a bucket key. -/
abbrev BucketKey := List Nat

/-- `bucket_key`. -/
def bucketKey (ts : DateTime) : BucketUnit → BucketKey
  | .hour => [ts.year, ts.month, ts.day, ts.hour]
  | .day => [ts.year, ts.month, ts.day]
  | .week =>
    let (isoYear, isoWeek) := isocalendar ts.year ts.month ts.day
    [isoYear, isoWeek]
  | .month => [ts.year, ts.month]

/-- Seconds since the epoch. -/
def timestamp (ts : DateTime) : Int :=
  (ymd2ord ts.year ts.month ts.day - epochDay) * 86400 + ts.hour * 3600 +
    ts.minute * 60 + ts.second

/-- Midnight of a day number. -/
def midnight (day : Nat) : DateTime :=
  let (year, month, dayOfMonth) := ord2ymd day
  { year := year, month := month, day := dayOfMonth }

/-- `bucket_score`. -/
def bucketScore (ts : DateTime) : BucketUnit → Rat
  | .hour => timestamp { year := ts.year, month := ts.month, day := ts.day, hour := ts.hour }
  | .day => timestamp { year := ts.year, month := ts.month, day := ts.day }
  | .week =>
    let (isoYear, isoWeek) := isocalendar ts.year ts.month ts.day
    timestamp (midnight (fromisocalendar isoYear isoWeek).toNat)
  | .month => timestamp { year := ts.year, month := ts.month, day := 1 }

/-- `_infer_ts_for_bucket`; `none` is the `ValueError` of a key that is not
one of the unit. -/
def inferTsForBucket : BucketKey → BucketUnit → Option DateTime
  | [year, month, day, hour], .hour =>
    some { year := year, month := month, day := day, hour := hour }
  | [year, month, day], .day => some { year := year, month := month, day := day }
  | [isoYear, isoWeek], .week =>
    some (midnight (fromisocalendar isoYear isoWeek).toNat)
  | [year, month], .month => some { year := year, month := month, day := 1 }
  | _, _ => none

example : bucketKey { year := 2025, month := 12, day := 29, hour := 7 } .week = [2026, 1] ∧
    inferTsForBucket [2026, 1] .week = some { year := 2025, month := 12, day := 29 } := by
  decide

/-- A key of a unit has a timestamp. -/
theorem inferTsForBucket_bucketKey (ts : DateTime) (unit : BucketUnit) :
    (inferTsForBucket (bucketKey ts unit) unit).isSome := by
  cases unit <;> rfl

/-- Within one hour the bucket of every unit is the same. -/
theorem bucketKey_eq_of_hour {ts ts' : DateTime}
    (h : bucketKey ts .hour = bucketKey ts' .hour) (unit : BucketUnit) :
    bucketKey ts unit = bucketKey ts' unit := by
  simp only [bucketKey, List.cons.injEq, and_true] at h
  obtain ⟨hyear, hmonth, hday, hhour⟩ := h
  cases unit <;> simp only [bucketKey, hyear, hmonth, hday, hhour]

end DustMonitoring.Dumopro
