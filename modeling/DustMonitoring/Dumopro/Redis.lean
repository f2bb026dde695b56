import Mathlib.Data.List.Lex
import Mathlib.Data.String.Basic
import DustMonitoring.Dumopro.Buckets
import DustMonitoring.Dumopro.Candles
import DustMonitoring.Lib.SortedSet

/-!
# The keys of one station in Redis

The part of `dumopro_core/redis_client.py` that the poller uses, for the
keys of one station: the cursor, the raw values and the statistics of the
live buckets, the frozen candles, and the index of the frozen buckets.  A
sorted set that is not there is the empty one.  The stored JSON of a
candle is kept as the object it encodes.
-/

namespace DustMonitoring.Dumopro

open DustMonitoring.Lib

/-- The object that `candle_to_json` encodes. -/
structure Candle where
  stats : CandleStats
  updatedAt : Option DateTime
deriving DecidableEq, Repr

structure Redis where
  cursor : Option (Nat × DateTime)
  liveRaw : BucketUnit → BucketKey → SortedSet String Rat
  liveStats : BucketUnit → BucketKey → Option Candle
  frozen : BucketUnit → BucketKey → Option Candle
  frozenIndex : BucketUnit → SortedSet BucketKey Rat

/-- One value under the key of a unit and a bucket. -/
def setKey {α : Type} (f : BucketUnit → BucketKey → α) (unit : BucketUnit)
    (bkey : BucketKey) (x : α) : BucketUnit → BucketKey → α :=
  fun u k => if u = unit ∧ k = bkey then x else f u k

@[simp] theorem setKey_eq {α : Type} (f : BucketUnit → BucketKey → α)
    (unit : BucketUnit) (bkey : BucketKey) (x : α) :
    setKey f unit bkey x unit bkey = x :=
  if_pos ⟨rfl, rfl⟩

@[simp] theorem setKey_self {α : Type} (f : BucketUnit → BucketKey → α)
    (unit : BucketUnit) (bkey : BucketKey) :
    setKey f unit bkey (f unit bkey) = f := by
  funext u k
  unfold setKey
  split
  · next h => rw [h.1, h.2]
  · rfl

@[simp] theorem setKey_setKey {α : Type} (f : BucketUnit → BucketKey → α)
    (unit : BucketUnit) (bkey : BucketKey) (x y : α) :
    setKey (setKey f unit bkey x) unit bkey y = setKey f unit bkey y := by
  funext u k
  unfold setKey
  split
  · rfl
  · rfl

/-- Changing one bucket of each of several units. -/
theorem foldl_setKey {α : Type} (key : BucketUnit → BucketKey) (g : α → α)
    {units : List BucketUnit} (hnodup : units.Nodup)
    (f : BucketUnit → BucketKey → α) :
    units.foldl (fun f u => setKey f u (key u) (g (f u (key u)))) f =
      fun u k => if u ∈ units ∧ k = key u then g (f u k) else f u k := by
  induction units generalizing f with
  | nil => simp
  | cons unit units ih =>
    obtain ⟨hnew, hnodup⟩ := List.nodup_cons.mp hnodup
    rw [List.foldl_cons, ih hnodup]
    funext u k
    unfold setKey
    by_cases hu : u = unit
    · subst hu
      by_cases hk : k = key u
      · subst hk
        simp [hnew]
      · simp [hk]
    · simp [hu]

namespace Redis

def empty : Redis :=
  ⟨none, fun _ _ => .empty, fun _ _ => none, fun _ _ => none, fun _ => .empty⟩

/-- `set_cursor`. -/
def setCursor (r : Redis) (lastId : Nat) (lastSampledAt : DateTime) : Redis :=
  { r with
    cursor := some (lastId, lastSampledAt) }

/-- `add_live_raw`. -/
def addLiveRaw (r : Redis) (unit : BucketUnit) (bkey : BucketKey)
    (sampleId : Nat) (value : Rat) : Redis :=
  { r with
    liveRaw := setKey r.liveRaw unit bkey
      ((r.liveRaw unit bkey).zadd (Nat.repr sampleId) value) }

/-- `get_live_raw_values`. -/
def getLiveRawValues (r : Redis) (unit : BucketUnit) (bkey : BucketKey) :
    List Rat :=
  (r.liveRaw unit bkey).scores

/-- `set_live_stats`. -/
def setLiveStats (r : Redis) (unit : BucketUnit) (bkey : BucketKey)
    (candle : Candle) : Redis :=
  { r with
    liveStats := setKey r.liveStats unit bkey (some candle) }

/-- `freeze_bucket`. -/
def freezeBucket (r : Redis) (unit : BucketUnit) (bkey : BucketKey)
    (candle : Candle) (score : Rat) : Redis :=
  { r with
    frozen := setKey r.frozen unit bkey (some candle)
    frozenIndex := Function.update r.frozenIndex unit
      ((r.frozenIndex unit).zadd bkey score)
    liveRaw := setKey r.liveRaw unit bkey .empty
    liveStats := setKey r.liveStats unit bkey none }

/-- The candles and indexes are the same, up to the times at which they
were updated, and so are the live keys. -/
structure SameCandles (r r' : Redis) : Prop where
  frozen : ∀ u k, (r.frozen u k).map Candle.stats = (r'.frozen u k).map Candle.stats
  frozenIndex : ∀ u, r.frozenIndex u = r'.frozenIndex u
  liveRaw : ∀ u k, r.liveRaw u k = r'.liveRaw u k
  liveStats : ∀ u k,
    (r.liveStats u k).map Candle.stats = (r'.liveStats u k).map Candle.stats

end Redis

/-- Samples are members under the text of their id, and two ids have
different texts. -/
theorem repr_inj {m n : Nat} (h : Nat.repr m = Nat.repr n) : m = n := by
  have hdigits : Nat.toDigits 10 m = Nat.toDigits 10 n :=
    String.ofList_injective h
  have hvalue := congrArg (fun cs => Nat.ofDigitChars 10 cs 0) hdigits
  simpa only [Nat.ofDigitChars_ten_toDigits] using hvalue

end DustMonitoring.Dumopro
