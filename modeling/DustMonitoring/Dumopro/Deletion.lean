import Mathlib.Data.Set.Basic
import DustMonitoring.Dumopro.Keys

/-!
# What the deletion of a station takes away

`delete_station_data` puts the name of the station, as it is, into six patterns
and deletes the keys that Redis finds for them.  A name can be any text, so it
may be cut off at a colon and be the name of another station, and it may be
read as a pattern.

* `mem_deleteStationData`: a key is gone exactly if one of the patterns takes it.
* `takes_text`: only the patterns of its own kind take a key of a station.
* `sweeps_field`: a name without an open bracket takes the fields after a text
  exactly if it matches the text, or what stands before one of its colons.
* `sweeps_of_endsInClass`: what a name with an open bracket takes.
* `exact_iff`: the keys of the station are taken and the keys of the others are
  left exactly if its name is separate from theirs.
* `separate_iff_of_plain`: for names that are no patterns, only the colons matter.
-/

namespace DustMonitoring.Dumopro

open DustMonitoring.Lib DustMonitoring.Lib.Glob

/-! ## The deletion -/

/-- Whether the key is deleted for the pattern: with a `*` in it, if `SCAN`
finds the key, and else if it is the key. -/
def deletes (pattern key : String) : Bool :=
  if pattern.contains '*' then redisGlob pattern key else key == pattern

/-- The keys without those that the pattern finds, and how many have been found
so far. -/
def deleteFound (p : List String × Nat) (pattern : String) : List String × Nat :=
  (p.1.filter fun key => !deletes pattern key, p.2 + (p.1.filter (deletes pattern)).length)

/-- `delete_station_data` on the keys that are there, with the number of those
deleted.  The marker is cleared by `Registry.clearRemovedStationId`. -/
def deleteStationData (keys : List String) (station : String) : List String × Nat :=
  (Registry.deletePatterns station).foldl deleteFound (keys, 0)

/-- The bucket is one that `bucket_key` gives for the unit. -/
def IsBucket (yearWidth : Nat) (unit : BucketUnit) (bkey : String) : Prop :=
  ∃ ts : DateTime, ts.InRange ∧ bkey = bucketKeyText yearWidth ts unit

/-- The key can be written: its bucket, if it has one, is one of its unit. -/
def StationKey.Written (yearWidth : Nat) : StationKey → Prop
  | .data .cursor => True
  | .data (.liveRaw unit bkey) => IsBucket yearWidth unit bkey
  | .data (.liveStats unit bkey) => IsBucket yearWidth unit bkey
  | .data (.frozen unit bkey) => IsBucket yearWidth unit bkey
  | .data (.frozenIndex _) => True
  | .residual _ _ => True

/-- The deletion takes every key of the station and none of another. -/
def Exact (yearWidth : Nat) (station : String) (others : Set String) : Prop :=
  ∀ keys : List String,
    (∀ k : StationKey, k.Written yearWidth →
      k.text station ∉ (deleteStationData keys station).1) ∧
    ∀ other ∈ others, other ≠ station → ∀ k : StationKey, k.Written yearWidth →
      k.text other ∈ keys → k.text other ∈ (deleteStationData keys station).1

/-- One of the patterns of the station takes the key. -/
def Takes (station key : String) : Prop :=
  ∃ pattern ∈ Registry.deletePatterns station, deletes pattern key = true

instance (station key : String) : Decidable (Takes station key) :=
  inferInstanceAs (Decidable (∃ _ ∈ _, _))

theorem mem_deleteStationData {keys : List String} {station key : String} :
    key ∈ (deleteStationData keys station).1 ↔ key ∈ keys ∧ ¬ Takes station key := by
  have hfold : ∀ (patterns : List String) (p : List String × Nat),
      key ∈ (patterns.foldl deleteFound p).1 ↔
        key ∈ p.1 ∧ ∀ pattern ∈ patterns, deletes pattern key = false := by
    intro patterns
    induction patterns with
    | nil => simp
    | cons pattern patterns ih =>
      intro p
      rw [List.foldl_cons, ih, List.forall_mem_cons, deleteFound, List.mem_filter,
        Bool.not_eq_true', and_assoc]
  rw [deleteStationData, hfold, Takes]
  simp

/-- The number is that of the keys that are gone. -/
theorem total_deleteStationData (keys : List String) (station : String) :
    (deleteStationData keys station).2 + (deleteStationData keys station).1.length =
      keys.length := by
  have hfold : ∀ (patterns : List String) (p : List String × Nat),
      (patterns.foldl deleteFound p).2 + (patterns.foldl deleteFound p).1.length =
        p.2 + p.1.length := by
    intro patterns
    induction patterns with
    | nil => exact fun p => rfl
    | cons pattern patterns ih =>
      intro p
      have hsplit := List.length_eq_length_filter_add (l := p.1) (deletes pattern)
      rw [List.foldl_cons, ih, deleteFound]
      dsimp only
      omega
  rw [deleteStationData, hfold, Nat.zero_add]

theorem map_text_deletePattern (r : Registry) (pattern : String) :
    (r.deletePattern redisGlob pattern).data.map Entry.text =
      (r.data.map Entry.text).filter fun key => !deletes pattern key := by
  have hentry : ∀ e : Entry, (if pattern.contains '*' then !redisGlob pattern e.text
      else e.text != pattern) = !deletes pattern e.text := by
    intro e
    rw [deletes]
    split <;> rfl
  rw [Registry.deletePattern, List.filter_map]
  simp only [hentry]
  rfl

/-- The deletion of the registry leaves the keys that this one leaves. -/
theorem map_text_deletePatterns (r : Registry) (station : String) :
    ((Registry.deletePatterns station).foldl (Registry.deletePattern redisGlob) r).data.map
      Entry.text = (deleteStationData (r.data.map Entry.text) station).1 := by
  have hfold : ∀ (patterns : List String) (r : Registry) (total : Nat),
      (patterns.foldl (Registry.deletePattern redisGlob) r).data.map Entry.text =
        (patterns.foldl deleteFound (r.data.map Entry.text, total)).1 := by
    intro patterns
    induction patterns with
    | nil => exact fun r total => rfl
    | cons pattern patterns ih =>
      intro r total
      rw [List.foldl_cons, ih, map_text_deletePattern, List.foldl_cons]
      rfl
  exact hfold _ _ _

/-- The deletion is exact if every key of the station is taken, and none of the
others. -/
theorem exact_iff_takes {yearWidth : Nat} {station : String} {others : Set String} :
    Exact yearWidth station others ↔
      (∀ k : StationKey, k.Written yearWidth → Takes station (k.text station)) ∧
      ∀ other ∈ others, other ≠ station → ∀ k : StationKey, k.Written yearWidth →
        ¬ Takes station (k.text other) := by
  simp only [Exact, mem_deleteStationData]
  constructor
  · intro h
    constructor
    · intro k hk
      by_contra htakes
      exact (h [k.text station]).1 k hk ⟨List.mem_singleton_self _, htakes⟩
    · intro other hother hne k hk
      exact ((h [k.text other]).2 other hother hne k hk (List.mem_singleton_self _)).2
  · rintro ⟨hown, hothers⟩ keys
    constructor
    · rintro k hk ⟨-, htakes⟩
      exact htakes (hown k hk)
    · intro other hother hne k hk hmem
      exact ⟨hmem, hothers other hother hne k hk⟩

/-! ## Patterns and keys with the same start -/

theorem deletes_eq (pattern key : String) :
    deletes pattern key = if '*' ∈ pattern.toList then redisGlob pattern key else key == pattern := by
  simp [deletes, String.contains_char_eq]

theorem plain_of_mem_starts : ∀ pre ∈ starts, ∀ b ∈ utf8 pre, Plain b := by
  have hall : ∀ pre ∈ starts, (utf8 pre).all (fun b => decide (Plain b)) = true := by decide
  exact fun pre hpre => plain_of_all (hall pre hpre)

theorem notMem_of_plain {pre : String} (hpre : ∀ b ∈ utf8 pre, Plain b) : '*' ∉ pre.toList := by
  intro hmem
  exact (hpre _ ((mem_utf8 (by decide)).mpr hmem)).1 rfl

/-- A plain start can be taken off the pattern and the key. -/
theorem deletes_append {pre pattern key : String} (hpre : ∀ b ∈ utf8 pre, Plain b) :
    deletes (pre ++ pattern) (pre ++ key) = deletes pattern key := by
  have hglob : redisGlob (pre ++ pattern) (pre ++ key) = redisGlob pattern key := by
    rw [Bool.eq_iff_iff, redisGlob, utf8_append, utf8_append, glob_plain_append hpre]
    simp [redisGlob]
  have htext : (pre ++ key == pre ++ pattern) = (key == pattern) := by
    rw [Bool.eq_iff_iff, beq_iff_eq, beq_iff_eq]
    exact ⟨name_inj, fun h => h ▸ rfl⟩
  have hstar : '*' ∈ (pre ++ pattern).toList ↔ '*' ∈ pattern.toList := by
    rw [String.toList_append, List.mem_append, or_iff_right (notMem_of_plain hpre)]
  simp only [deletes_eq, hglob, htext, hstar]

/-- A pattern with a plain start takes only keys with that start. -/
theorem exists_of_deletes_append {pre pattern key : String} (hpre : ∀ b ∈ utf8 pre, Plain b)
    (h : deletes (pre ++ pattern) key = true) : ∃ rest, utf8 key = utf8 pre ++ rest := by
  rw [deletes_eq] at h
  split at h
  · rw [redisGlob, utf8_append] at h
    obtain ⟨rest, hkey, -⟩ := (glob_plain_append hpre).mp h
    exact ⟨rest, hkey⟩
  · rw [beq_iff_eq.mp h, utf8_append]
    exact ⟨_, rfl⟩

theorem deletes_start {pre pre' pattern key : String} (hpre : pre ∈ starts)
    (hpre' : pre' ∈ starts) :
    deletes (pre ++ pattern) (pre' ++ key) = true ↔ pre = pre' ∧ deletes pattern key = true := by
  have hplain := plain_of_mem_starts pre hpre
  constructor
  · intro h
    obtain ⟨rest, hkey⟩ := exists_of_deletes_append hplain h
    rw [utf8_append] at hkey
    obtain rfl := start_inj hpre' hpre hkey
    exact ⟨rfl, deletes_append hplain ▸ h⟩
  · rintro ⟨rfl, h⟩
    rw [deletes_append hplain]
    exact h

/-- The patterns of a station, each behind its start. -/
def startPatterns (station : String) : List (String × String) :=
  [("cursor:", station), ("live:raw:", station ++ ":*"), ("live:stats:", station ++ ":*"),
    ("frozen:", station ++ ":*"), ("frozen:", "index:" ++ station ++ ":*"),
    ("residual:", station ++ ":*")]

theorem deletePatterns_eq (station : String) :
    Registry.deletePatterns station = (startPatterns station).map fun p => p.1 ++ p.2 := by
  show ["cursor:" ++ station, _, _, _, _, _] = _
  simp [startPatterns, ← String.append_assoc]

/-- Only the patterns with the start of the key take it. -/
theorem takes_text {station other : String} {k : StationKey} :
    Takes station (k.text other) ↔
      ∃ p ∈ startPatterns station, p.1 = k.start ∧ deletes p.2 (k.body other) = true := by
  have hstart := k.start_mem_starts
  have hmem : ∀ p ∈ startPatterns station, p.1 ∈ starts := by
    simp [startPatterns, starts]
  rw [Takes, deletePatterns_eq, StationKey.text_eq]
  constructor
  · rintro ⟨_, hpattern, h⟩
    obtain ⟨p, hp, rfl⟩ := List.mem_map.mp hpattern
    exact ⟨p, hp, (deletes_start (hmem p hp) hstart).mp h⟩
  · rintro ⟨p, hp, h⟩
    exact ⟨_, List.mem_map_of_mem hp, (deletes_start (hmem p hp) hstart).mpr h⟩

/-! ## The kinds of keys -/

/-- Whether the pattern `{name}:*` matches. -/
def sweeps (name body : String) : Bool := redisGlob (name ++ ":*") body

theorem deletes_sweep (name body : String) : deletes (name ++ ":*") body = sweeps name body := by
  rw [deletes_eq, if_pos (by simp [String.toList_append])]
  rfl

theorem takes_cursor {station other : String} :
    Takes station ((StationKey.data .cursor).text other) ↔ deletes station other = true := by
  simp [takes_text, startPatterns, StationKey.start, StationKey.body]

theorem takes_liveRaw {station other bkey : String} {unit : BucketUnit} :
    Takes station ((StationKey.data (.liveRaw unit bkey)).text other) ↔
      sweeps station (other ++ ":" ++ unit.text ++ ":" ++ bkey) = true := by
  simp [takes_text, startPatterns, StationKey.start, StationKey.body, deletes_sweep]

theorem takes_liveStats {station other bkey : String} {unit : BucketUnit} :
    Takes station ((StationKey.data (.liveStats unit bkey)).text other) ↔
      sweeps station (other ++ ":" ++ unit.text ++ ":" ++ bkey) = true := by
  simp [takes_text, startPatterns, StationKey.start, StationKey.body, deletes_sweep]

theorem takes_residual {station other : String} {unit : BucketUnit} {target : Target} :
    Takes station ((StationKey.residual unit target).text other) ↔
      sweeps station (other ++ ":" ++ unit.text ++ ":" ++ target.text) = true := by
  simp [takes_text, startPatterns, StationKey.start, StationKey.body, deletes_sweep]

/-- A frozen candle is also taken as an index. -/
theorem takes_frozen {station other bkey : String} {unit : BucketUnit} :
    Takes station ((StationKey.data (.frozen unit bkey)).text other) ↔
      sweeps station (other ++ ":" ++ unit.text ++ ":" ++ bkey) = true ∨
        sweeps ("index:" ++ station) (other ++ ":" ++ unit.text ++ ":" ++ bkey) = true := by
  simp [takes_text, startPatterns, StationKey.start, StationKey.body, deletes_sweep]

/-- An index is also taken as a frozen candle. -/
theorem takes_frozenIndex {station other : String} {unit : BucketUnit} :
    Takes station ((StationKey.data (.frozenIndex unit)).text other) ↔
      sweeps station ("index:" ++ other ++ ":" ++ unit.text) = true ∨
        sweeps station (other ++ ":" ++ unit.text) = true := by
  have hplain : ∀ b ∈ utf8 "index:", Plain b := plain_of_all (by decide)
  have hassoc : "index:" ++ station ++ ":*" = "index:" ++ (station ++ ":*") :=
    String.append_assoc
  have hindex : sweeps ("index:" ++ station) ("index:" ++ (other ++ ":" ++ unit.text)) =
      sweeps station (other ++ ":" ++ unit.text) := by
    rw [← deletes_sweep, hassoc, deletes_append hplain, deletes_sweep]
  have hbody : "index:" ++ other ++ ":" ++ unit.text = "index:" ++ (other ++ ":" ++ unit.text) := by
    simp only [String.append_assoc]
  simp [takes_text, startPatterns, StationKey.start, StationKey.body, deletes_sweep, hindex, hbody]

/-! ## Names that are apart -/

theorem forall_written {yearWidth : Nat} {P : StationKey → Prop} :
    (∀ k : StationKey, k.Written yearWidth → P k) ↔
      P (.data .cursor) ∧
      (∀ unit bkey, IsBucket yearWidth unit bkey →
        P (.data (.liveRaw unit bkey)) ∧ P (.data (.liveStats unit bkey)) ∧
          P (.data (.frozen unit bkey))) ∧
      (∀ unit, P (.data (.frozenIndex unit))) ∧
      ∀ unit target, P (.residual unit target) := by
  constructor
  · intro h
    exact ⟨h _ trivial, fun unit bkey hbkey => ⟨h _ hbkey, h _ hbkey, h _ hbkey⟩,
      fun unit => h _ trivial, fun unit target => h _ trivial⟩
  · rintro ⟨hcursor, hdata, hindex, hresidual⟩ k hk
    rcases k with (_ | ⟨unit, bkey⟩ | ⟨unit, bkey⟩ | ⟨unit, bkey⟩ | unit) | ⟨unit, target⟩
    · exact hcursor
    · exact (hdata unit bkey hk).1
    · exact (hdata unit bkey hk).2.1
    · exact (hdata unit bkey hk).2.2
    · exact hindex unit
    · exact hresidual unit target

/-- The name as a pattern, without a lone backslash at its end, matches the other
one, or what stands before one of its colons. -/
def Reaches (name other : String) : Prop :=
  ∃ part ∈ parts ':'.toUInt8 (utf8 other), glob (stem (utf8 name)) part = true

instance (name other : String) : Decidable (Reaches name other) :=
  inferInstanceAs (Decidable (∃ _ ∈ _, _))

/-- A bracket of the name is left open, so that the `:*` behind it belongs to a
class. -/
def EndsInClass (name : String) : Prop := (run Mode.step .text (utf8 name)).inClass = true

instance (name : String) : Decidable (EndsInClass name) :=
  inferInstanceAs (Decidable (_ = true))

/-- What stands before the open bracket matches all of the text but its last
byte, and the class has that one. -/
def clips (name body : String) : Bool :=
  (utf8 body).getLast?.any (openClass (utf8 name ++ utf8 ":*")).holds &&
    matchToks (front (utf8 name)) (utf8 body).dropLast

/-- The name, as a pattern, takes its own keys. -/
structure TakesOwn (station : String) : Prop where
  cursor : '*' ∈ station.toList → redisGlob station station = true
  unit : ∀ unit : BucketUnit, Reaches station (station ++ ":" ++ unit.text)
  index : Reaches station ("index:" ++ station) ∨ Reaches station station

/-- The name, as a pattern, leaves the keys of the other one. -/
structure Leaves (station other : String) : Prop where
  cursor : '*' ∈ station.toList → redisGlob station other = false
  unit : ∀ unit : BucketUnit, ¬ Reaches station (other ++ ":" ++ unit.text)
  frozen : ∀ unit : BucketUnit, ¬ Reaches ("index:" ++ station) (other ++ ":" ++ unit.text)
  index : ¬ Reaches station ("index:" ++ other)

/-- The keys of the station are taken, if `takes` is what the name with `:*`
behind it takes. -/
structure SweepsOwn (yearWidth : Nat) (takes : String → Bool) (station : String) : Prop where
  cursor : '*' ∈ station.toList → redisGlob station station = true
  bucket : ∀ (unit : BucketUnit) (bkey : String), IsBucket yearWidth unit bkey →
    takes (station ++ ":" ++ unit.text ++ ":" ++ bkey) = true
  index : ∀ unit : BucketUnit, takes ("index:" ++ station ++ ":" ++ unit.text) = true ∨
    takes (station ++ ":" ++ unit.text) = true
  residual : ∀ (unit : BucketUnit) (target : Target),
    takes (station ++ ":" ++ unit.text ++ ":" ++ target.text) = true

/-- The keys of the other station are left.  `takesIndex` is what the name takes
with `index:` before it. -/
structure Spares (yearWidth : Nat) (takes takesIndex : String → Bool) (station other : String) :
    Prop where
  cursor : '*' ∈ station.toList → redisGlob station other = false
  bucket : ∀ (unit : BucketUnit) (bkey : String), IsBucket yearWidth unit bkey →
    takes (other ++ ":" ++ unit.text ++ ":" ++ bkey) = false
  frozen : ∀ (unit : BucketUnit) (bkey : String), IsBucket yearWidth unit bkey →
    takesIndex (other ++ ":" ++ unit.text ++ ":" ++ bkey) = false
  index : ∀ unit : BucketUnit, takes ("index:" ++ other ++ ":" ++ unit.text) = false ∧
    takes (other ++ ":" ++ unit.text) = false
  residual : ∀ (unit : BucketUnit) (target : Target),
    takes (other ++ ":" ++ unit.text ++ ":" ++ target.text) = false

/-- The name takes its own keys and leaves those of the others.  Where a bracket
of the name is left open, what it takes depends on the whole text of the key. -/
def Separate (yearWidth : Nat) (station : String) (others : Set String) : Prop :=
  if EndsInClass station then
    SweepsOwn yearWidth (clips station) station ∧ ∀ other ∈ others, other ≠ station →
      Spares yearWidth (clips station) (clips ("index:" ++ station)) station other
  else
    TakesOwn station ∧ ∀ other ∈ others, other ≠ station → Leaves station other

theorem deletes_self_iff {station : String} :
    deletes station station = true ↔
      ('*' ∈ station.toList → redisGlob station station = true) := by
  rw [deletes_eq]
  split
  · simp_all
  · simp_all

theorem deletes_iff_of_ne {station other : String} (hne : other ≠ station) :
    ¬ deletes station other = true ↔
      ('*' ∈ station.toList → redisGlob station other = false) := by
  rw [deletes_eq]
  split
  · simp_all
  · simp_all

theorem takes_own_iff {yearWidth : Nat} {station : String} :
    (∀ k : StationKey, k.Written yearWidth → Takes station (k.text station)) ↔
      SweepsOwn yearWidth (sweeps station) station := by
  rw [forall_written, takes_cursor, deletes_self_iff]
  simp only [takes_liveRaw, takes_liveStats, takes_frozen, takes_frozenIndex, takes_residual]
  constructor
  · rintro ⟨hcursor, hbucket, hindex, hresidual⟩
    exact ⟨hcursor, fun unit bkey hbkey => (hbucket unit bkey hbkey).1, hindex, hresidual⟩
  · intro h
    exact ⟨h.cursor, fun unit bkey hbkey => ⟨h.bucket unit bkey hbkey, h.bucket unit bkey hbkey,
      Or.inl (h.bucket unit bkey hbkey)⟩, h.index, h.residual⟩

theorem leaves_other_iff {yearWidth : Nat} {station other : String} (hne : other ≠ station) :
    (∀ k : StationKey, k.Written yearWidth → ¬ Takes station (k.text other)) ↔
      Spares yearWidth (sweeps station) (sweeps ("index:" ++ station)) station other := by
  rw [forall_written, takes_cursor, deletes_iff_of_ne hne]
  simp only [takes_liveRaw, takes_liveStats, takes_frozen, takes_frozenIndex, takes_residual,
    not_or, Bool.not_eq_true]
  constructor
  · rintro ⟨hcursor, hbucket, hindex, hresidual⟩
    exact ⟨hcursor, fun unit bkey hbkey => (hbucket unit bkey hbkey).1,
      fun unit bkey hbkey => (hbucket unit bkey hbkey).2.2.2, hindex, hresidual⟩
  · intro h
    exact ⟨h.cursor, fun unit bkey hbkey => ⟨h.bucket unit bkey hbkey, h.bucket unit bkey hbkey,
      h.bucket unit bkey hbkey, h.frozen unit bkey hbkey⟩, h.index, h.residual⟩

/-! ## Names with an open bracket -/

theorem endsInClass_index {station : String} :
    EndsInClass ("index:" ++ station) ↔ EndsInClass station := by
  have hindex : run Mode.step .text (utf8 "index:") = .text := by decide
  rw [EndsInClass, utf8_append, run_append, hindex, EndsInClass]

theorem sweeps_of_endsInClass {name : String} (h : EndsInClass name) : sweeps name = clips name := by
  funext body
  rw [sweeps, redisGlob, utf8_append, glob_open_append h (by decide)]
  rfl

/-! ## The other names -/

theorem utf8_colonStar : utf8 ":*" = [':'.toUInt8, '*'.toUInt8] := by
  decide

theorem exists_isBucket (yearWidth : Nat) (unit : BucketUnit) :
    ∃ bkey, IsBucket yearWidth unit bkey :=
  ⟨_, { year := 2026, month := 1, day := 1 }, by constructor <;> decide, rfl⟩

theorem IsBucket.isField {yearWidth : Nat} {unit : BucketUnit} {bkey : String}
    (h : IsBucket yearWidth unit bkey) : IsField bkey := by
  obtain ⟨ts, -, rfl⟩ := h
  exact isField_bucketKeyText yearWidth ts unit

/-- The last field does not matter to a name without an open bracket. -/
theorem sweeps_field {name other field : String} (hname : ¬ EndsInClass name)
    (hfield : IsField field) :
    sweeps name (other ++ ":" ++ field) = true ↔ Reaches name other := by
  have hcolon : utf8 ":" = [':'.toUInt8] := by decide
  have hstem : Glob.Closed (stem (utf8 name)) := closed_stem (Bool.eq_false_iff.mpr hname)
  rw [sweeps, redisGlob, utf8_append, utf8_colonStar, ← glob_stem_append (by decide), utf8_append,
    utf8_append, hcolon, List.append_assoc, List.singleton_append]
  exact glob_field hstem (by decide) (mt (mem_utf8 (by decide)).mp hfield)

/-- What reaches a name reaches it with a field more. -/
theorem Reaches.append {name other field : String} (h : Reaches name other) :
    Reaches name (other ++ ":" ++ field) := by
  obtain ⟨part, hpart, hmatch⟩ := h
  refine ⟨part, mem_parts.mpr (Or.inr ?_), hmatch⟩
  rcases mem_parts.mp hpart with rfl | ⟨rest, htext⟩
  · exact ⟨utf8 field, by rw [utf8_append, utf8_append, List.append_assoc]; rfl⟩
  · exact ⟨rest ++ utf8 ":" ++ utf8 field, by rw [utf8_append, utf8_append, htext]; simp⟩

theorem takesOwn_iff {yearWidth : Nat} {station : String} (hclosed : ¬ EndsInClass station) :
    SweepsOwn yearWidth (sweeps station) station ↔ TakesOwn station := by
  constructor
  · intro h
    constructor
    · exact h.cursor
    · intro unit
      exact (sweeps_field hclosed Target.median.isField).mp (h.residual unit .median)
    · exact (h.index .hour).imp (sweeps_field hclosed (BucketUnit.isField _)).mp
        (sweeps_field hclosed (BucketUnit.isField _)).mp
  · intro h
    constructor
    · exact h.cursor
    · intro unit bkey hbkey
      exact (sweeps_field hclosed hbkey.isField).mpr (h.unit unit)
    · intro unit
      exact h.index.imp (sweeps_field hclosed unit.isField).mpr
        (sweeps_field hclosed unit.isField).mpr
    · intro unit target
      exact (sweeps_field hclosed target.isField).mpr (h.unit unit)

theorem leaves_iff {yearWidth : Nat} {station other : String} (hclosed : ¬ EndsInClass station) :
    Spares yearWidth (sweeps station) (sweeps ("index:" ++ station)) station other ↔
      Leaves station other := by
  have hindex : ¬ EndsInClass ("index:" ++ station) := mt endsInClass_index.mp hclosed
  have hfield : ∀ {name body field : String}, ¬ EndsInClass name → IsField field →
      (sweeps name (body ++ ":" ++ field) = false ↔ ¬ Reaches name body) := by
    intro name body field hname hfield
    rw [← Bool.not_eq_true, sweeps_field hname hfield]
  constructor
  · intro h
    constructor
    · exact h.cursor
    · intro unit
      exact (hfield hclosed Target.median.isField).mp (h.residual unit .median)
    · intro unit
      obtain ⟨bkey, hbkey⟩ := exists_isBucket yearWidth unit
      exact (hfield hindex hbkey.isField).mp (h.frozen unit bkey hbkey)
    · exact (hfield hclosed (BucketUnit.isField _)).mp (h.index .hour).1
  · intro h
    -- the shorter text is reached only with the longer ones
    have hother : ¬ Reaches station other := fun hreach => h.unit .hour hreach.append
    constructor
    · exact h.cursor
    · intro unit bkey hbkey
      exact (hfield hclosed hbkey.isField).mpr (h.unit unit)
    · intro unit bkey hbkey
      exact (hfield hindex hbkey.isField).mpr (h.frozen unit)
    · intro unit
      exact ⟨(hfield hclosed unit.isField).mpr h.index,
        (hfield hclosed unit.isField).mpr hother⟩
    · intro unit target
      exact (hfield hclosed target.isField).mpr (h.unit unit)

/-! ## Exactness -/

/-- The deletion takes all keys of the station and no key of the others exactly
if the name of the station is separate from theirs. -/
theorem exact_iff (yearWidth : Nat) (station : String) (others : Set String) :
    Exact yearWidth station others ↔ Separate yearWidth station others := by
  have hspares : (∀ other ∈ others, other ≠ station → ∀ k : StationKey, k.Written yearWidth →
      ¬ Takes station (k.text other)) ↔
      ∀ other ∈ others, other ≠ station →
        Spares yearWidth (sweeps station) (sweeps ("index:" ++ station)) station other :=
    forall_congr' fun other => forall_congr' fun _ => forall_congr' leaves_other_iff
  rw [exact_iff_takes, takes_own_iff, hspares, Separate]
  split
  · next hopen =>
    rw [sweeps_of_endsInClass hopen, sweeps_of_endsInClass (endsInClass_index.mpr hopen)]
  · next hclosed => simp only [takesOwn_iff hclosed, leaves_iff hclosed]

/-- A name that goes on after a colon, a name that is read as a class, and the
name `index`. -/
theorem not_exact :
    ¬ Exact 4 "hall" {"hall:2"} ∧ ¬ Exact 4 "hall[2]" ∅ ∧ ¬ Exact 4 "index" {"hall"} := by
  simp only [exact_iff_takes]
  refine ⟨fun h => ?_, fun h => ?_, fun h => ?_⟩
  · apply h.2 "hall:2" rfl (by decide) (.residual .hour .q3) trivial
    rw [takes_residual]
    decide
  · have htakes := h.1 (.residual .hour .q3) trivial
    rw [takes_residual] at htakes
    revert htakes
    decide
  · apply h.2 "hall" rfl (by decide) (.data (.frozenIndex .hour)) trivial
    rw [takes_frozenIndex]
    exact Or.inl (by decide)

theorem reaches_of_plain {name other : String} (hplain : ∀ b ∈ utf8 name, Plain b) :
    Reaches name other ↔ utf8 name ∈ parts ':'.toUInt8 (utf8 other) := by
  rw [Reaches, stem_of_closed (closed_of_plain hplain)]
  constructor
  · rintro ⟨part, hpart, hmatch⟩
    obtain rfl := (glob_of_plain hplain).mp hmatch
    exact hpart
  · intro hpart
    exact ⟨_, hpart, (glob_of_plain hplain).mpr rfl⟩

/-- For a name that is no pattern only the colons matter. -/
theorem separate_iff_of_plain {yearWidth : Nat} {station : String} {others : Set String}
    (hplain : ∀ b ∈ utf8 station, Plain b) :
    Separate yearWidth station others ↔
      ∀ other ∈ others, other ≠ station →
        (∀ unit : BucketUnit,
          utf8 station ∉ parts ':'.toUInt8 (utf8 (other ++ ":" ++ unit.text)) ∧
          utf8 ("index:" ++ station) ∉ parts ':'.toUInt8 (utf8 (other ++ ":" ++ unit.text))) ∧
        utf8 station ∉ parts ':'.toUInt8 (utf8 ("index:" ++ other)) := by
  have hindex : ∀ b ∈ utf8 ("index:" ++ station), Plain b := by
    have hpre : ∀ b ∈ utf8 "index:", Plain b := plain_of_all (by decide)
    rw [utf8_append]
    exact fun b hb => (List.mem_append.mp hb).elim (hpre b) (hplain b)
  have hself : Reaches station station :=
    (reaches_of_plain hplain).mpr (mem_parts.mpr (Or.inl rfl))
  have hown : TakesOwn station :=
    ⟨fun hstar => absurd hstar (notMem_of_plain hplain), fun unit => hself.append, Or.inr hself⟩
  have hleaves : ∀ other, Leaves station other ↔
      (∀ unit : BucketUnit,
        utf8 station ∉ parts ':'.toUInt8 (utf8 (other ++ ":" ++ unit.text)) ∧
        utf8 ("index:" ++ station) ∉ parts ':'.toUInt8 (utf8 (other ++ ":" ++ unit.text))) ∧
      utf8 station ∉ parts ':'.toUInt8 (utf8 ("index:" ++ other)) := by
    intro other
    simp only [← reaches_of_plain hplain, ← reaches_of_plain hindex]
    exact ⟨fun h => ⟨fun unit => ⟨h.unit unit, h.frozen unit⟩, h.index⟩,
      fun h => ⟨fun hstar => absurd hstar (notMem_of_plain hplain), fun unit => (h.1 unit).1,
        fun unit => (h.1 unit).2, h.2⟩⟩
  have hclosed : ¬ EndsInClass station := by
    rw [EndsInClass, closed_of_plain hplain]
    exact Bool.false_ne_true
  rw [Separate, if_neg hclosed, and_iff_right hown]
  simp only [hleaves]

end DustMonitoring.Dumopro
