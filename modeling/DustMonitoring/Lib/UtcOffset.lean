import DustMonitoring.Lib.CalendarOrder

/-!
# Times with a UTC offset

An aware `datetime` is read on a clock whose offset from UTC it carries along;
a naive one has none and is taken for UTC.  All times are microseconds on one
scale, on which the offset is subtracted.

Main results:

* `micros_lt_iff` -- the scale has the order of the fields;
* `ofMicros_micros` -- a time is read back from the scale;
* `OffsetTime.le_iff` -- the comparison of two times is that of their instants;
* `asUtc_spec` -- converting to UTC keeps the instant.
-/

namespace DustMonitoring.Lib

/-! ## The scale -/

/-- The microseconds since the day number `0`. -/
def micros (ts : DateTime) : Int :=
  (((ymd2ord ts.year ts.month ts.day * 24 + ts.hour) * 60 + ts.minute) * 60 + ts.second : Nat) *
    1000000 + ts.microsecond

/-- `date.max.toordinal()`. -/
def maxOrdinal : Int := 3652059

/-- The time of the microseconds; `none` is the `OverflowError`. -/
def ofMicros (n : Int) : Option DateTime :=
  let days := n / 86400000000
  let rest := (n % 86400000000).toNat
  if 0 < days ∧ days ≤ maxOrdinal then
    let (year, month, day) := ord2ymd days.toNat
    some
      { year := year
        month := month
        day := day
        hour := rest / 3600000000
        minute := rest / 60000000 % 60
        second := rest / 1000000 % 60
        microsecond := rest % 1000000 }
  else none

/-- The fields, the largest first. -/
def DateTime.toList (ts : DateTime) : List Nat :=
  [ts.year, ts.month, ts.day, ts.hour, ts.minute, ts.second, ts.microsecond]

theorem DateTime.toList_injective {ts ts' : DateTime} (h : ts.toList = ts'.toList) : ts = ts' := by
  simp only [DateTime.toList, List.cons.injEq, and_true] at h
  obtain ⟨h₁, h₂, h₃, h₄, h₅, h₆, h₇⟩ := h
  cases ts
  cases ts'
  subst h₁ h₂ h₃ h₄ h₅ h₆ h₇
  rfl

namespace DateTime.InRange

variable {ts ts' : DateTime}

theorem validDate (h : ts.InRange) : ValidDate ts.year ts.month ts.day :=
  ⟨h.year.1, h.month, h.day⟩

theorem micros_lt_of_lt (h : ts.InRange) (h' : ts'.InRange) (hlt : ts.toList < ts'.toList) :
    micros ts < micros ts' := by
  have hdate := h.validDate.ord_lt_of_lt h'.validDate
  have hhour := h.hour
  have hminute := h.minute
  have hsecond := h.second
  have hmicro := h.microsecond
  simp only [List.cons_lt_cons_iff, List.not_lt_nil, and_false, or_false] at hdate
  simp only [DateTime.toList, List.cons_lt_cons_iff, List.not_lt_nil, and_false, or_false] at hlt
  unfold micros
  rcases hlt with hlt | ⟨hyear, hlt | ⟨hmonth, hlt | ⟨hday, hlt⟩⟩⟩
  · have := hdate (Or.inl hlt)
    omega
  · have := hdate (Or.inr ⟨hyear, Or.inl hlt⟩)
    omega
  · have := hdate (Or.inr ⟨hyear, Or.inr ⟨hmonth, hlt⟩⟩)
    omega
  · rw [hyear, hmonth, hday]
    omega

/-- The scale has the order of the fields. -/
theorem micros_lt_iff (h : ts.InRange) (h' : ts'.InRange) :
    micros ts < micros ts' ↔ ts.toList < ts'.toList := by
  refine ⟨fun hlt => ?_, h.micros_lt_of_lt h'⟩
  rcases lt_trichotomy ts.toList ts'.toList with hfields | heq | hfields
  · exact hfields
  · rw [DateTime.toList_injective heq] at hlt
    exact absurd hlt (lt_irrefl _)
  · exact absurd hlt (h'.micros_lt_of_lt h hfields).asymm

theorem micros_injective (h : ts.InRange) (h' : ts'.InRange) (heq : micros ts = micros ts') :
    ts = ts' := by
  apply DateTime.toList_injective
  apply eq_of_le_of_ge
  · rw [← not_lt, ← h'.micros_lt_iff h]
    exact heq.not_gt
  · rw [← not_lt, ← h.micros_lt_iff h']
    exact heq.not_lt

end DateTime.InRange

theorem year_le_of_ord {year month day : Nat} (h : ValidDate year month day)
    (hord : (ymd2ord year month day : Int) ≤ maxOrdinal) : year ≤ 9999 := by
  have hlt := h.lt_ord
  have hmax : daysBeforeYear 10000 = 3652059 := by decide
  unfold maxOrdinal at hord
  by_contra hyear
  rcases Nat.lt_or_eq_of_le (show 10000 ≤ year by omega) with hlater | rfl
  · have := daysBeforeYear_add_le (show 1 ≤ 10000 by omega) hlater
    omega
  · omega

/-- The time of the microseconds has valid fields and lies where they say. -/
theorem of_ofMicros {n : Int} {ts : DateTime} (h : ofMicros n = some ts) :
    ts.InRange ∧ micros ts = n := by
  unfold ofMicros at h
  dsimp only at h
  split at h
  · next hdays =>
    obtain ⟨year, month, day, heq, hvalid, hord⟩ :=
      ord2ymd_spec (show 1 ≤ (n / 86400000000).toNat by omega)
    rw [heq] at h
    obtain rfl := Option.some.inj h
    have hyear : year ≤ 9999 := year_le_of_ord hvalid (by omega)
    constructor
    · exact ⟨⟨hvalid.one_le_year, hyear⟩, hvalid.month_bounds, hvalid.day_bounds, by
        dsimp only; omega, by dsimp only; omega, by dsimp only; omega, by dsimp only; omega⟩
    · unfold micros
      dsimp only
      rw [hord]
      omega
  · cases h

theorem ord_le_of_year {ts : DateTime} (h : ts.InRange) :
    (ymd2ord ts.year ts.month ts.day : Int) ≤ maxOrdinal := by
  have hle := h.validDate.ord_le
  have hmax : daysBeforeYear 10000 = 3652059 := by decide
  have hyears := daysBeforeYear_add_le h.year.1 (show ts.year < 10000 by have := h.year; omega)
  unfold maxOrdinal
  omega

theorem isSome_ofMicros {n : Int} (h : 0 < n / 86400000000 ∧ n / 86400000000 ≤ maxOrdinal) :
    (ofMicros n).isSome = true := by
  unfold ofMicros
  dsimp only
  rw [if_pos h]
  rfl

/-- A time is read back from the scale. -/
theorem ofMicros_micros {ts : DateTime} (h : ts.InRange) : ofMicros (micros ts) = some ts := by
  have hdays : micros ts / 86400000000 = ymd2ord ts.year ts.month ts.day := by
    have := h.hour
    have := h.minute
    have := h.second
    have := h.microsecond
    unfold micros
    omega
  have hord := h.validDate.lt_ord
  have hsome := isSome_ofMicros (n := micros ts) (by
    rw [hdays]
    exact ⟨by omega, ord_le_of_year h⟩)
  obtain ⟨ts', hof⟩ := Option.isSome_iff_exists.mp hsome
  obtain ⟨hrange, hmicros⟩ := of_ofMicros hof
  rw [hof, hrange.micros_injective h hmicros]

/-! ## Offsets -/

/-- A `datetime`: its fields, and its UTC offset in microseconds if it is
aware. -/
structure OffsetTime where
  fields : DateTime
  offset : Option Int
deriving DecidableEq, Repr

namespace OffsetTime

/-- The fields are in range, and the offset is less than a day. -/
structure Valid (ts : OffsetTime) : Prop where
  fields : ts.fields.InRange
  offset : ∀ offset ∈ ts.offset, -86400000000 < offset ∧ offset < 86400000000

/-- The place on the scale of UTC. -/
def instant (ts : OffsetTime) : Int := micros ts.fields - ts.offset.getD 0

/-- `astimezone(utc)`, where a naive time is one in UTC already; `none` is the
`OverflowError` of a time that is out of range in UTC. -/
def asUtc (ts : OffsetTime) : Option DateTime :=
  match ts.offset with
  | none => some ts.fields
  | some offset => ofMicros (micros ts.fields - offset)

/-- A time in UTC. -/
def utc (ts : DateTime) : OffsetTime := ⟨ts, some 0⟩

/-- `<=`: times with one offset are compared by their fields, and others by
their instants.  A naive time counts as UTC, where Python would not compare it
with an aware one. -/
instance : LE OffsetTime where
  le a b :=
    if a.offset = b.offset then a.fields.toList ≤ b.fields.toList else a.instant ≤ b.instant

theorem le_def {a b : OffsetTime} : a ≤ b ↔
    if a.offset = b.offset then a.fields.toList ≤ b.fields.toList else a.instant ≤ b.instant :=
  Iff.rfl

/-- The comparison of two times is that of their instants. -/
theorem le_iff {a b : OffsetTime} (ha : a.Valid) (hb : b.Valid) :
    a ≤ b ↔ a.instant ≤ b.instant := by
  rw [le_def]
  split
  · next heq =>
    rw [← not_lt, ← hb.fields.micros_lt_iff ha.fields, instant, instant, heq, not_lt]
    omega
  · exact Iff.rfl

/-- Converting to UTC keeps the instant. -/
theorem asUtc_spec {ts : OffsetTime} {u : DateTime} (h : ts.Valid) (hu : ts.asUtc = some u) :
    u.InRange ∧ micros u = ts.instant := by
  unfold asUtc at hu
  unfold instant
  cases hoffset : ts.offset with
  | none =>
    rw [hoffset] at hu
    obtain rfl := Option.some.inj hu
    rw [Option.getD_none, Int.sub_zero]
    exact ⟨h.fields, rfl⟩
  | some offset =>
    rw [hoffset] at hu
    rw [Option.getD_some]
    exact of_ofMicros hu

theorem asUtc_utc {ts : DateTime} (h : ts.InRange) : (utc ts).asUtc = some ts := by
  show ofMicros (micros ts - 0) = some ts
  rw [Int.sub_zero, ofMicros_micros h]

end OffsetTime

example : (OffsetTime.mk { year := 2026, month := 1, day := 1, hour := 8 } (some 32400000000)).asUtc =
    some { year := 2025, month := 12, day := 31, hour := 23 } := by decide

end DustMonitoring.Lib
