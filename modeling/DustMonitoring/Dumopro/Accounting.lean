import DustMonitoring.Dumopro.Actions

/-!
# Where the samples of a bucket are

Of the samples that the cursor has passed, a bucket holds some in its live
set; the others are `settled`.  `FrozenIntegrity` says that the candle of a
frozen bucket is the box statistics of its settled samples.  `Balanced`
adds what the writes to Redis keep besides: the live sets hold samples
under their ids and values, and a bucket that is not frozen has no settled
sample.

There is a lemma for each write.  Adding a sample to a live set may not
take a settled sample back (`SafeAdd`), the cursor may only pass samples
that are held, and a bucket may be frozen only if it has no candle yet and
the cursor has passed all that it holds.
-/

namespace DustMonitoring.Dumopro

open DustMonitoring.Lib

namespace Redis

/-- The last id of the cursor, 0 when there is none. -/
def cursorId (r : Redis) : Nat := (r.cursor.map Prod.fst).getD 0

/-- The live set of the sample's bucket holds the sample. -/
def Holds (r : Redis) (unit : BucketUnit) (s : SampleRow) : Prop :=
  Nat.repr s.id ∈ (r.liveRaw unit (bucketKey s.sampledAt unit)).entries.map Prod.fst

instance (r : Redis) (unit : BucketUnit) (s : SampleRow) : Decidable (r.Holds unit s) :=
  inferInstanceAs (Decidable (_ ∈ _))

end Redis

section Definitions

variable (samples : List SampleRow) (r : Redis)

/-- The samples of the bucket that the cursor has passed and that are not
in its live set. -/
def settled (unit : BucketUnit) (bkey : BucketKey) : List SampleRow :=
  samples.filter fun s =>
    decide (s.id ≤ r.cursorId ∧ bucketKey s.sampledAt unit = bkey ∧ ¬ r.Holds unit s)

/-- Each frozen candle is the box statistics of the settled samples of its
bucket. -/
def FrozenIntegrity : Prop :=
  ∀ unit bkey candle, r.frozen unit bkey = some candle →
    ∃ values, values.Perm ((settled samples r unit bkey).map SampleRow.value) ∧
      computeBoxStats values = some candle.stats

/-- What a live set holds are samples of its bucket. -/
def LiveSound : Prop :=
  ∀ unit bkey, ∀ e ∈ (r.liveRaw unit bkey).entries,
    ∃ s ∈ samples, bucketKey s.sampledAt unit = bkey ∧ e = (Nat.repr s.id, s.value)

/-- Every sample is accounted for. -/
structure Balanced : Prop where
  sound : LiveSound samples r
  integrity : FrozenIntegrity samples r
  complete : ∀ unit bkey, r.frozen unit bkey = none → settled samples r unit bkey = []

/-- The cursor has passed everything that is held. -/
def Passed : Prop := ∀ unit, ∀ s ∈ samples, r.Holds unit s → s.id ≤ r.cursorId

/-- No candle gets lost, and none loses a sample. -/
def Grows (r r' : Redis) : Prop :=
  ∀ unit bkey, r.frozen unit bkey ≠ none → r'.frozen unit bkey ≠ none ∧
    ∀ s ∈ settled samples r unit bkey, s ∈ settled samples r' unit bkey

/-- The sample can go to the live set: its bucket has no candle, or the
sample is not in it. -/
def SafeAdd (s : SampleRow) (unit : BucketUnit) : Prop :=
  r.frozen unit (bucketKey s.sampledAt unit) ≠ none →
    r.cursorId < s.id ∨ r.Holds unit s

/-- The bucket can be frozen: it has no candle, or nothing is held. -/
def SafeFreeze (p : BucketUnit × BucketKey) : Prop :=
  r.getLiveRawValues p.1 p.2 ≠ [] → r.frozen p.1 p.2 = none

end Definitions

section Basic

variable {samples : List SampleRow} {r r' : Redis}

theorem mem_settled {unit : BucketUnit} {bkey : BucketKey} {s : SampleRow} :
    s ∈ settled samples r unit bkey ↔
      s ∈ samples ∧ s.id ≤ r.cursorId ∧ bucketKey s.sampledAt unit = bkey ∧
        ¬ r.Holds unit s := by
  rw [settled, List.mem_filter, decide_eq_true_iff]

theorem settled_congr {unit : BucketUnit} {bkey : BucketKey}
    (h : ∀ s ∈ samples, bucketKey s.sampledAt unit = bkey →
      (s.id ≤ r'.cursorId ∧ ¬ r'.Holds unit s ↔ s.id ≤ r.cursorId ∧ ¬ r.Holds unit s)) :
    settled samples r' unit bkey = settled samples r unit bkey := by
  refine List.filter_congr fun s hs => decide_eq_decide.mpr ?_
  constructor
  · intro hr
    obtain ⟨hid, hkey, hhold⟩ := hr
    have hnew := (h s hs hkey).mp ⟨hid, hhold⟩
    exact ⟨hnew.1, hkey, hnew.2⟩
  · intro hr
    obtain ⟨hid, hkey, hhold⟩ := hr
    have hold := (h s hs hkey).mpr ⟨hid, hhold⟩
    exact ⟨hold.1, hkey, hold.2⟩

theorem Grows.refl (samples : List SampleRow) (r : Redis) : Grows samples r r :=
  fun _ _ h => ⟨h, fun _ hs => hs⟩

theorem Grows.trans {r'' : Redis} (h : Grows samples r r') (h' : Grows samples r' r'') :
    Grows samples r r'' := by
  intro unit bkey hne
  obtain ⟨hne', hsub⟩ := h unit bkey hne
  obtain ⟨hne'', hsub'⟩ := h' unit bkey hne'
  exact ⟨hne'', fun s hs => hsub' s (hsub s hs)⟩

/-- A write that keeps the candles and what is settled. -/
theorem Balanced.of_settled_eq (h : Balanced samples r) (hsound : LiveSound samples r')
    (hfrozen : r'.frozen = r.frozen)
    (hsettled : ∀ unit bkey,
      settled samples r' unit bkey = settled samples r unit bkey) :
    Balanced samples r' ∧ Grows samples r r' := by
  refine ⟨⟨hsound, fun unit bkey candle hc => ?_, fun unit bkey hc => ?_⟩,
    fun unit bkey hne => ⟨?_, fun s hs => ?_⟩⟩
  · rw [hsettled]
    exact h.integrity unit bkey candle (hfrozen ▸ hc)
  · rw [hsettled]
    exact h.complete unit bkey (hfrozen ▸ hc)
  · rw [hfrozen]
    exact hne
  · rw [hsettled]
    exact hs

/-- A write to other keys. -/
theorem Balanced.of_eq (h : Balanced samples r) (hfrozen : r'.frozen = r.frozen)
    (hraw : r'.liveRaw = r.liveRaw) (hcursor : r'.cursor = r.cursor) :
    Balanced samples r' ∧ Grows samples r r' := by
  have hid : r'.cursorId = r.cursorId := by rw [Redis.cursorId, Redis.cursorId, hcursor]
  refine h.of_settled_eq ?_ hfrozen fun unit bkey => settled_congr fun s _ _ => ?_
  · rw [LiveSound, hraw]
    exact h.sound
  · rw [hid, Redis.Holds, Redis.Holds, hraw]

end Basic

/-! ## Samples that arrive -/

section Arrive

variable {samples new : List SampleRow} {r : Redis}

/-- Samples beyond the cursor are not settled. -/
theorem settled_append (hnew : ∀ s ∈ new, r.cursorId < s.id) (unit : BucketUnit)
    (bkey : BucketKey) :
    settled (samples ++ new) r unit bkey = settled samples r unit bkey := by
  have hnil : settled new r unit bkey = [] := by
    refine List.filter_eq_nil_iff.mpr fun s hs h => ?_
    exact absurd (of_decide_eq_true h).1 (Nat.not_le.mpr (hnew s hs))
  unfold settled at hnil ⊢
  rw [List.filter_append, hnil, List.append_nil]

theorem LiveSound.append (h : LiveSound samples r) : LiveSound (samples ++ new) r := by
  intro unit bkey e he
  obtain ⟨s, hs, hsample⟩ := h unit bkey e he
  exact ⟨s, List.mem_append_left new hs, hsample⟩

theorem Balanced.append (h : Balanced samples r) (hnew : ∀ s ∈ new, r.cursorId < s.id) :
    Balanced (samples ++ new) r := by
  refine ⟨h.sound.append, fun unit bkey candle hc => ?_, fun unit bkey hc => ?_⟩
  · rw [settled_append hnew]
    exact h.integrity unit bkey candle hc
  · rw [settled_append hnew]
    exact h.complete unit bkey hc

end Arrive

/-! ## Adding a sample to a live set -/

section Add

variable {samples : List SampleRow} {r : Redis} {s : SampleRow} {unit : BucketUnit}

/-- `add_live_raw` of a sample. -/
def Redis.addSample (r : Redis) (s : SampleRow) (unit : BucketUnit) : Redis :=
  r.addLiveRaw unit (bucketKey s.sampledAt unit) s.id s.value

theorem holds_addSample {u : BucketUnit} {x : SampleRow} :
    (r.addSample s unit).Holds u x ↔
      (u = unit ∧ bucketKey x.sampledAt unit = bucketKey s.sampledAt unit ∧ x.id = s.id) ∨
        r.Holds u x := by
  show Nat.repr x.id ∈ (setKey r.liveRaw unit _ _ u (bucketKey x.sampledAt u)).entries.map
    Prod.fst ↔ _
  unfold setKey
  split
  · next h =>
    obtain ⟨rfl, hkey⟩ := h
    rw [SortedSet.mem_members_zadd, Redis.Holds, hkey]
    refine or_congr_left ⟨fun heq => ⟨rfl, rfl, repr_inj heq⟩, fun h => ?_⟩
    rw [h.2.2]
  · next h =>
    refine (or_iff_right fun hx => h ⟨hx.1, ?_⟩).symm
    rw [hx.1]
    exact hx.2.1

theorem LiveSound.addSample (h : LiveSound samples r) (hs : s ∈ samples) :
    LiveSound samples (r.addSample s unit) := by
  intro u k e he
  change e ∈ (setKey r.liveRaw unit _ _ u k).entries at he
  unfold setKey at he
  split at he
  · next hkey =>
    obtain ⟨rfl, rfl⟩ := hkey
    rcases SortedSet.mem_zadd.mp he with rfl | ⟨he, -⟩
    · exact ⟨s, hs, rfl, rfl⟩
    · exact h u _ e he
  · exact h u k e he

/-- A sample that goes to a live set leaves what is settled as it is. -/
theorem settled_addSample (h : Balanced samples r)
    (hids : (samples.map SampleRow.id).Nodup) (hs : s ∈ samples)
    (hsafe : SafeAdd r s unit) (u : BucketUnit) (k : BucketKey) :
    settled samples (r.addSample s unit) u k = settled samples r u k := by
  refine settled_congr fun x hx _ => and_congr_right fun hid => not_congr ?_
  change x.id ≤ r.cursorId at hid
  rw [holds_addSample]
  refine or_iff_right_of_imp fun hsame => ?_
  obtain ⟨rfl, hkey, hsame⟩ := hsame
  obtain rfl : x = s := List.inj_on_of_nodup_map hids hx hs hsame
  -- a bucket without a candle has no settled sample
  by_cases hfrozen : r.frozen u (bucketKey x.sampledAt u) = none
  · by_contra hnot
    have hmem := mem_settled.mpr ⟨hx, hid, rfl, hnot⟩
    rw [h.complete u _ hfrozen] at hmem
    exact List.not_mem_nil hmem
  · exact (hsafe hfrozen).resolve_left (Nat.not_lt.mpr hid)

theorem Balanced.addSample (h : Balanced samples r)
    (hids : (samples.map SampleRow.id).Nodup) (hs : s ∈ samples)
    (hsafe : SafeAdd r s unit) :
    Balanced samples (r.addSample s unit) ∧ Grows samples r (r.addSample s unit) :=
  h.of_settled_eq (h.sound.addSample hs) rfl (settled_addSample h hids hs hsafe)

end Add

/-! ## Moving the cursor -/

section Cursor

variable {samples : List SampleRow} {r : Redis} {last : SampleRow}

/-- The cursor moves on over samples that are held. -/
theorem Balanced.setCursor (h : Balanced samples r) (hle : r.cursorId ≤ last.id)
    (hheld : ∀ s ∈ samples, r.cursorId < s.id → s.id ≤ last.id →
      ∀ unit, r.Holds unit s) :
    Balanced samples (r.setCursor last.id last.sampledAt) ∧
      Grows samples r (r.setCursor last.id last.sampledAt) := by
  refine h.of_settled_eq h.sound rfl fun unit bkey => settled_congr fun s hs _ => ?_
  show s.id ≤ last.id ∧ ¬ r.Holds unit s ↔ s.id ≤ r.cursorId ∧ ¬ r.Holds unit s
  refine and_congr_left fun hnot => ⟨fun hid => ?_, fun hid => hid.trans hle⟩
  by_contra hlt
  exact hnot (hheld s hs (Nat.not_le.mp hlt) hid unit)

end Cursor

/-! ## Freezing a bucket -/

section Freeze

variable {samples : List SampleRow} {r : Redis} {p : BucketUnit × BucketKey}

/-- The samples of the bucket that the cursor has passed. -/
def passedSamples (samples : List SampleRow) (r : Redis) (unit : BucketUnit)
    (bkey : BucketKey) : List SampleRow :=
  samples.filter fun s => decide (s.id ≤ r.cursorId ∧ bucketKey s.sampledAt unit = bkey)

theorem mem_passedSamples {unit : BucketUnit} {bkey : BucketKey} {s : SampleRow} :
    s ∈ passedSamples samples r unit bkey ↔
      s ∈ samples ∧ s.id ≤ r.cursorId ∧ bucketKey s.sampledAt unit = bkey := by
  rw [passedSamples, List.mem_filter, decide_eq_true_iff]

/-- The live set of a bucket whose samples up to the cursor it all holds,
when it holds no others. -/
theorem perm_entries (h : Balanced samples r) (hids : (samples.map SampleRow.id).Nodup)
    (hpassed : Passed samples r) (hfrozen : r.frozen p.1 p.2 = none) :
    (r.liveRaw p.1 p.2).entries.Perm
      ((passedSamples samples r p.1 p.2).map fun s => (Nat.repr s.id, s.value)) := by
  have hnodup : ((passedSamples samples r p.1 p.2).map
      fun s => (Nat.repr s.id, s.value)).Nodup := by
    have hsub : ((passedSamples samples r p.1 p.2).map SampleRow.id).Nodup :=
      hids.sublist (List.filter_sublist.map SampleRow.id)
    have hrepr := hsub.map fun _ _ => repr_inj
    rw [List.map_map] at hrepr
    refine List.Nodup.of_map Prod.fst ?_
    rw [List.map_map]
    exact hrepr
  refine (List.perm_ext_iff_of_nodup (r.liveRaw p.1 p.2).nodup.of_map hnodup).mpr
    fun e => ?_
  constructor
  · intro he
    obtain ⟨s, hs, hkey, rfl⟩ := h.sound p.1 p.2 e he
    have hholds : r.Holds p.1 s := by
      rw [Redis.Holds, hkey]
      exact List.mem_map_of_mem he
    exact List.mem_map.mpr
      ⟨s, mem_passedSamples.mpr ⟨hs, hpassed p.1 s hs hholds, hkey⟩, rfl⟩
  · intro he
    obtain ⟨s, hs, rfl⟩ := List.mem_map.mp he
    obtain ⟨hs, hid, hkey⟩ := mem_passedSamples.mp hs
    have hholds : r.Holds p.1 s := by
      by_contra hnot
      have hmem := mem_settled.mpr ⟨hs, hid, hkey, hnot⟩
      rw [h.complete p.1 p.2 hfrozen] at hmem
      exact List.not_mem_nil hmem
    rw [Redis.Holds, hkey] at hholds
    obtain ⟨entry, hentry, hrepr⟩ := List.mem_map.mp hholds
    -- the entry under the id of the sample is that of the sample
    obtain ⟨x, hx, -, rfl⟩ := h.sound p.1 p.2 entry hentry
    obtain rfl := List.inj_on_of_nodup_map hids hx hs (repr_inj hrepr)
    exact hentry

/-- A value in a live set is that of a sample it holds. -/
theorem exists_holds (h : LiveSound samples r) (hne : r.getLiveRawValues p.1 p.2 ≠ []) :
    ∃ s ∈ samples, bucketKey s.sampledAt p.1 = p.2 ∧ r.Holds p.1 s := by
  obtain ⟨x, hx⟩ := List.exists_mem_of_ne_nil _ hne
  obtain ⟨e, he, -⟩ := List.mem_map.mp hx
  obtain ⟨s, hs, hkey, rfl⟩ := h p.1 p.2 e he
  refine ⟨s, hs, hkey, ?_⟩
  rw [Redis.Holds, hkey]
  exact List.mem_map_of_mem he

/-- A bucket with a value in its live set has a timestamp. -/
theorem inferTs_of_getLiveRawValues (h : LiveSound samples r)
    (hne : r.getLiveRawValues p.1 p.2 ≠ []) : (inferTsForBucket p.2 p.1).isSome := by
  obtain ⟨s, -, hkey, -⟩ := exists_holds h hne
  rw [← hkey]
  exact inferTsForBucket_bucketKey s.sampledAt p.1

/-- What a freeze does: nothing if the live set is empty. -/
theorem freezeLive_cases (h : LiveSound samples r) :
    (r.getLiveRawValues p.1 p.2 = [] ∧ r.freezeLive p = r) ∨
    (r.getLiveRawValues p.1 p.2 ≠ [] ∧
      ∃ stats ts, computeBoxStats (r.getLiveRawValues p.1 p.2) = some stats ∧
        r.freezeLive p =
          r.freezeBucket p.1 p.2 ⟨stats, none⟩ (bucketScore ts p.1)) := by
  unfold Redis.freezeLive
  by_cases hnil : r.getLiveRawValues p.1 p.2 = []
  · rw [hnil]
    exact Or.inl ⟨rfl, rfl⟩
  · obtain ⟨stats, hstats⟩ := exists_computeBoxStats hnil
    obtain ⟨ts, hts⟩ := Option.isSome_iff_exists.mp (inferTs_of_getLiveRawValues h hnil)
    refine Or.inr ⟨hnil, stats, ts, hstats, ?_⟩
    rw [hstats, hts]

section FreezeBucket

variable {unit : BucketUnit} {bkey : BucketKey} {candle : Candle} {score : Rat}

theorem liveRaw_freezeBucket (r : Redis) (u : BucketUnit) (k : BucketKey) :
    (r.freezeBucket unit bkey candle score).liveRaw u k =
      if u = unit ∧ k = bkey then .empty else r.liveRaw u k :=
  rfl

theorem frozen_freezeBucket (r : Redis) (u : BucketUnit) (k : BucketKey) :
    (r.freezeBucket unit bkey candle score).frozen u k =
      if u = unit ∧ k = bkey then some candle else r.frozen u k :=
  rfl

theorem holds_freezeBucket {u : BucketUnit} {x : SampleRow} :
    (r.freezeBucket unit bkey candle score).Holds u x ↔
      ¬ (u = unit ∧ bucketKey x.sampledAt u = bkey) ∧ r.Holds u x := by
  rw [Redis.Holds, liveRaw_freezeBucket]
  split
  · next h => exact iff_of_false List.not_mem_nil fun hx => hx.1 h
  · next h => exact (and_iff_right h).symm

theorem LiveSound.freezeBucket (h : LiveSound samples r) :
    LiveSound samples (r.freezeBucket unit bkey candle score) := by
  intro u k e he
  rw [liveRaw_freezeBucket] at he
  split at he
  · exact absurd he List.not_mem_nil
  · exact h u k e he

/-- The other buckets keep what is settled. -/
theorem settled_freezeBucket {u : BucketUnit} {k : BucketKey}
    (hne : ¬ (u = unit ∧ k = bkey)) :
    settled samples (r.freezeBucket unit bkey candle score) u k =
      settled samples r u k := by
  refine settled_congr fun s _ hkey => ?_
  rw [holds_freezeBucket, hkey, and_iff_right hne]
  exact Iff.rfl

/-- In the bucket itself everything up to the cursor is settled. -/
theorem settled_freezeBucket_self :
    settled samples (r.freezeBucket unit bkey candle score) unit bkey =
      passedSamples samples r unit bkey := by
  refine List.filter_congr fun s _ => decide_eq_decide.mpr ?_
  rw [holds_freezeBucket]
  refine and_congr_right fun _ => ⟨And.left, fun hkey => ⟨hkey, ?_⟩⟩
  exact fun h => h.1 ⟨rfl, hkey⟩

end FreezeBucket

/-- A bucket without a candle is frozen when the cursor has passed all that
it holds. -/
theorem Balanced.freezeLive (h : Balanced samples r)
    (hids : (samples.map SampleRow.id).Nodup) (hpassed : Passed samples r)
    (hsafe : SafeFreeze r p) :
    Balanced samples (r.freezeLive p) ∧ Grows samples r (r.freezeLive p) ∧
      Passed samples (r.freezeLive p) := by
  rcases freezeLive_cases (p := p) h.sound with ⟨-, heq⟩ | ⟨hne, stats, ts, hstats, heq⟩
  · rw [heq]
    exact ⟨h, .refl samples r, hpassed⟩
  rw [heq]
  have hfrozen := hsafe hne
  refine ⟨⟨h.sound.freezeBucket, fun u k candle hc => ?_, fun u k hc => ?_⟩,
    fun u k hc => ?_, fun u s hs hold => ?_⟩
  · rw [frozen_freezeBucket] at hc
    split at hc
    · next hp =>
      obtain ⟨rfl, rfl⟩ := hp
      obtain rfl := Option.some.inj hc
      refine ⟨r.getLiveRawValues p.1 p.2, ?_, hstats⟩
      rw [settled_freezeBucket_self]
      have hperm := (perm_entries h hids hpassed hfrozen).map Prod.snd
      rw [List.map_map] at hperm
      exact hperm
    · next hp =>
      rw [settled_freezeBucket hp]
      exact h.integrity u k candle hc
  · rw [frozen_freezeBucket] at hc
    split at hc
    · contradiction
    · next hp =>
      rw [settled_freezeBucket hp]
      exact h.complete u k hc
  · have hp : ¬ (u = p.1 ∧ k = p.2) := by
      intro hp
      obtain ⟨rfl, rfl⟩ := hp
      exact hc hfrozen
    rw [frozen_freezeBucket, if_neg hp, settled_freezeBucket hp]
    exact ⟨hc, fun _ hs => hs⟩
  · exact hpassed u s hs (holds_freezeBucket.mp hold).2

end Freeze

end DustMonitoring.Dumopro
