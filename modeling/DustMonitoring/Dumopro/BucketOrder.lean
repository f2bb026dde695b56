import DustMonitoring.Dumopro.ColdStarts
import DustMonitoring.Dumopro.Keys
import DustMonitoring.Lib.Strptime
import DustMonitoring.Lib.UtcOffset

/-!
# Keys and scores of buckets

A bucket has a text as its key and the seconds of its start as its score.
The cold start and the chart order buckets by the text and the frozen index
orders them by the score; `_infer_ts_for_bucket` gets from the text to a time.

Main results:

* `bucketKey_le` -- the numbers of the key grow with the time, across the ends
  of months, years and ISO years;
* `bucketScore_lt` -- the score grows with the numbers of the key;
* `bucketKeyText_lt` -- so does the text;
* `sortedBuckets_texts` -- so the buckets of a cold start are in the order of
  their texts and of their scores;
* `bucketKey_bucketScore_agree` -- so texts and scores agree on the order of
  buckets, and the text leads back to the score.
-/

namespace DustMonitoring.Dumopro

open DustMonitoring.Lib

/-! ## The functions on times with an offset -/

/-- `bucket_key`, with `asUtc` for `_as_utc`; `none` is its `OverflowError`. -/
def bucketKeyAt (yearWidth : Nat) (ts : OffsetTime) (unit : BucketUnit) : Option String :=
  ts.asUtc.map fun u => bucketKeyText yearWidth u unit

/-- `bucket_score`. -/
def bucketScoreAt (ts : OffsetTime) (unit : BucketUnit) : Option Rat :=
  ts.asUtc.map fun u => bucketScore u unit

/-- `"%Y-%m-%dT%H"`. -/
def hourFormat : Format := [([], .year), (['-'], .month), (['-'], .day), (['T'], .hour)]

/-- `"%Y-%m-%d"`. -/
def dayFormat : Format := [([], .year), (['-'], .month), (['-'], .day)]

/-- `"%Y-%m"`. -/
def monthFormat : Format := [([], .year), (['-'], .month)]

/-- `str.split("-W")`. -/
def splitWeek : List Char → List (List Char)
  | [] => [[]]
  | '-' :: 'W' :: s => [] :: splitWeek s
  | c :: s =>
    match splitWeek s with
    | [] => [[c]]
    | part :: parts => (c :: part) :: parts

/-- The ISO year has 53 weeks. -/
def isLongYear (year : Nat) : Bool :=
  ymd2ord year 1 1 % 7 == 4 || ymd2ord year 1 1 % 7 == 3 && isLeap year

/-- `datetime.fromisocalendar(year, week, 1)`; `none` is the `ValueError`. -/
def fromIsoWeek (year week : Int) : Option DateTime :=
  if (1 ≤ year ∧ year ≤ 9999) ∧
      (1 ≤ week ∧ week ≤ 52 ∨ week = 53 ∧ isLongYear year.toNat = true) then
    some (midnight (fromisocalendar year.toNat week.toNat).toNat)
  else none

/-- `_infer_ts_for_bucket`; `none` is the `ValueError`. -/
def inferTsOfText (bkey : String) : BucketUnit → Option OffsetTime
  | .hour => (strptime hourFormat bkey).map .utc
  | .day => (strptime dayFormat bkey).map .utc
  | .week =>
    match splitWeek bkey.toList with
    | [year, week] => do
      let year ← intOfText (strip isSpace year)
      let week ← intOfText (strip isSpace week)
      (fromIsoWeek year week).map .utc
    | _ => none
  | .month => (strptime monthFormat bkey).map .utc

example : inferTsOfText "2026-W01" .week =
    some (.utc { year := 2025, month := 12, day := 29 }) := by decide +kernel

/-! ## The order of the numbers -/

section Order

variable {u v : DateTime}

theorem micros_lt_of_ord_lt (hu : u.InRange) (hv : v.InRange)
    (hlt : ymd2ord u.year u.month u.day < ymd2ord v.year v.month v.day) :
    micros u < micros v := by
  have hdate := (ymd2ord_lt_iff hu.validDate hv.validDate).mp hlt
  exact hu.micros_lt_of_lt hv (append_lt_append_of_lt (by rfl) hdate
    [u.hour, u.minute, u.second, u.microsecond] [v.hour, v.minute, v.second, v.microsecond])

/-- The numbers of the key grow with the time. -/
theorem bucketKey_le (hu : u.InRange) (hv : v.InRange) (huyear : 2 ≤ u.year)
    (hvyear : 2 ≤ v.year) (hle : micros u ≤ micros v) (unit : BucketUnit) :
    bucketKey u unit ≤ bucketKey v unit := by
  rw [← not_lt] at hle ⊢
  intro hlt
  apply hle
  cases unit with
  | hour =>
    exact hv.micros_lt_of_lt hu (append_lt_append_of_lt (by rfl) hlt
      [v.minute, v.second, v.microsecond] [u.minute, u.second, u.microsecond])
  | day =>
    exact hv.micros_lt_of_lt hu (append_lt_append_of_lt (by rfl) hlt
      [v.hour, v.minute, v.second, v.microsecond] [u.hour, u.minute, u.second, u.microsecond])
  | month =>
    exact hv.micros_lt_of_lt hu (append_lt_append_of_lt (by rfl) hlt
      [v.day, v.hour, v.minute, v.second, v.microsecond]
      [u.day, u.hour, u.minute, u.second, u.microsecond])
  | week =>
    obtain ⟨isoYear, isoWeek, hiso, hbounds, hweek⟩ := isocalendar_spec hu.validDate huyear
    obtain ⟨isoYear', isoWeek', hiso', hbounds', hweek'⟩ := isocalendar_spec hv.validDate hvyear
    simp only [bucketKey, hiso, hiso'] at hlt
    have hmonday := hweek'.monday_lt_of_lt hweek (by omega) hlt
    rw [hweek'.monday_eq, hweek.monday_eq] at hmonday
    apply micros_lt_of_ord_lt hv hu
    omega

/-! ## The order of the scores -/

theorem timestamp_midnight {day : Nat} (hday : 1 ≤ day) :
    timestamp (midnight day) = (day - epochDay) * 86400 := by
  have hord := ymd2ord_ord2ymd hday
  unfold timestamp midnight
  dsimp only
  rw [hord]
  simp

/-- The score is a function of the numbers of the key. -/
theorem bucketScore_eq_of_key {unit : BucketUnit} (h : bucketKey u unit = bucketKey v unit) :
    bucketScore u unit = bucketScore v unit := by
  cases unit with
  | hour =>
    simp only [bucketKey, List.cons.injEq, and_true] at h
    obtain ⟨hyear, hmonth, hday, hhour⟩ := h
    simp only [bucketScore, hyear, hmonth, hday, hhour]
  | day =>
    simp only [bucketKey, List.cons.injEq, and_true] at h
    obtain ⟨hyear, hmonth, hday⟩ := h
    simp only [bucketScore, hyear, hmonth, hday]
  | week =>
    simp only [bucketKey, List.cons.injEq, and_true] at h
    obtain ⟨hyear, hweek⟩ := h
    simp only [bucketScore, hyear, hweek]
  | month =>
    simp only [bucketKey, List.cons.injEq, and_true] at h
    obtain ⟨hyear, hmonth⟩ := h
    simp only [bucketScore, hyear, hmonth]

theorem one_le_monday {day : Int} {isoYear isoWeek : Nat} (h : InIsoWeek day isoYear isoWeek)
    (hday : 1 ≤ day) : 1 ≤ fromisocalendar isoYear isoWeek := by
  rw [h.monday_eq]
  omega

/-- The score of a week is that of its Monday. -/
theorem bucketScore_week {isoYear isoWeek : Nat}
    (hiso : isocalendar u.year u.month u.day = (isoYear, isoWeek))
    (hmonday : 1 ≤ fromisocalendar isoYear isoWeek) :
    bucketScore u .week = ((fromisocalendar isoYear isoWeek - epochDay) * 86400 : Int) := by
  simp only [bucketScore, hiso]
  rw [timestamp_midnight (by omega), Int.toNat_of_nonneg (by omega)]

/-- The first of the month of a time. -/
theorem validDate_first (hu : u.InRange) : ValidDate u.year u.month 1 :=
  ⟨hu.year.1, hu.month, Nat.le_refl 1, hu.day.1.trans hu.day.2⟩

/-- The score grows with the numbers of the key. -/
theorem bucketScore_lt (hu : u.InRange) (hv : v.InRange) (huyear : 2 ≤ u.year)
    (hvyear : 2 ≤ v.year) {unit : BucketUnit} (hlt : bucketKey u unit < bucketKey v unit) :
    bucketScore u unit < bucketScore v unit := by
  have hord := hu.validDate.ord_lt_of_lt hv.validDate
  cases unit with
  | hour =>
    have hhour := hu.hour
    simp only [List.cons_lt_cons_iff, List.not_lt_nil, and_false, or_false] at hord
    simp only [bucketKey, List.cons_lt_cons_iff, List.not_lt_nil, and_false, or_false] at hlt
    refine Int.cast_lt.mpr ?_
    unfold timestamp
    dsimp only
    rcases hlt with hlt | ⟨hyear, hlt | ⟨hmonth, hlt | ⟨hday, hlt⟩⟩⟩
    · have := hord (Or.inl hlt)
      omega
    · have := hord (Or.inr ⟨hyear, Or.inl hlt⟩)
      omega
    · have := hord (Or.inr ⟨hyear, Or.inr ⟨hmonth, hlt⟩⟩)
      omega
    · rw [hyear, hmonth, hday]
      omega
  | day =>
    have := hord hlt
    refine Int.cast_lt.mpr ?_
    unfold timestamp
    dsimp only
    omega
  | week =>
    obtain ⟨isoYear, isoWeek, hiso, hbounds, hweek⟩ := isocalendar_spec hu.validDate huyear
    obtain ⟨isoYear', isoWeek', hiso', hbounds', hweek'⟩ := isocalendar_spec hv.validDate hvyear
    have hday := hu.validDate.lt_ord
    have hday' := hv.validDate.lt_ord
    rw [bucketScore_week hiso (one_le_monday hweek (by omega)),
      bucketScore_week hiso' (one_le_monday hweek' (by omega)), Int.cast_lt]
    simp only [bucketKey, hiso, hiso'] at hlt
    have hmonday := hweek.monday_lt_of_lt hweek' (by omega) hlt
    omega
  | month =>
    have := (validDate_first hu).ord_lt_of_lt (validDate_first hv)
      (append_lt_append_of_lt (by rfl) hlt [1] [1])
    refine Int.cast_lt.mpr ?_
    unfold timestamp
    dsimp only
    omega

/-! ## The order of the texts -/

/-- The layout of the keys of a unit. -/
def keyLayout : BucketUnit → Layout
  | .hour => Format.layout hourFormat
  | .day => Format.layout dayFormat
  | .week => [([], 4), (['-', 'W'], 2)]
  | .month => Format.layout monthFormat

theorem admits_hourFormat (hu : u.InRange) :
    Format.Admits hourFormat [u.year, u.month, u.day, u.hour] :=
  .cons (Nat.lt_succ_of_le hu.year.2) (.cons hu.month
    (.cons ⟨hu.day.1, hu.validDate.day_le⟩ (.cons hu.hour .nil)))

theorem admits_dayFormat (hu : u.InRange) :
    Format.Admits dayFormat [u.year, u.month, u.day] :=
  .cons (Nat.lt_succ_of_le hu.year.2) (.cons hu.month
    (.cons ⟨hu.day.1, hu.validDate.day_le⟩ .nil))

theorem admits_monthFormat (hu : u.InRange) : Format.Admits monthFormat [u.year, u.month] :=
  .cons (Nat.lt_succ_of_le hu.year.2) (.cons hu.month .nil)

/-- The numbers of a key have the widths of its layout. -/
theorem fits_bucketKey (hu : u.InRange) (huyear : 1000 ≤ u.year ∧ u.year ≤ 9998)
    (unit : BucketUnit) : FitsLayout (keyLayout unit) (bucketKey u unit) := by
  cases unit with
  | hour => exact (admits_hourFormat hu).fits
  | day => exact (admits_dayFormat hu).fits
  | month => exact (admits_monthFormat hu).fits
  | week =>
    obtain ⟨isoYear, isoWeek, hiso, hbounds, hweek⟩ :=
      isocalendar_spec hu.validDate (show 2 ≤ u.year by omega)
    have := hweek.week
    simp only [bucketKey, hiso]
    exact .cons (show isoYear < 10000 by omega) (.cons (show isoWeek < 100 by omega) .nil)

/-- The text of a key shows its numbers in full widths. -/
theorem toList_bucketKeyText {yearWidth : Nat} (hwidth : yearWidth ≤ 4) (hu : u.InRange)
    (huyear : 1000 ≤ u.year ∧ u.year ≤ 9998) (unit : BucketUnit) :
    (bucketKeyText yearWidth u unit).toList = render (keyLayout unit) (bucketKey u unit) := by
  have hyear : (zeroPad yearWidth u.year).toList = digits 4 u.year :=
    toList_zeroPad_of_le hwidth huyear.1 (show u.year < 10000 by omega)
  have hmonth : (zeroPad 2 u.month).toList = digits 2 u.month :=
    toList_zeroPad (by omega) (show u.month < 100 by have := hu.month; omega)
  have hday : (zeroPad 2 u.day).toList = digits 2 u.day :=
    toList_zeroPad (by omega) (show u.day < 100 by have := hu.validDate.day_le; omega)
  have hhour : (zeroPad 2 u.hour).toList = digits 2 u.hour :=
    toList_zeroPad (by omega) (show u.hour < 100 by have := hu.hour; omega)
  cases unit with
  | hour =>
    simp only [bucketKeyText, String.toList_append, hyear, hmonth, hday, hhour, List.append_assoc]
    simp only [bucketKey, keyLayout, hourFormat, Format.layout, List.map_cons, List.map_nil,
      render, List.append_nil]
    rfl
  | day =>
    simp only [bucketKeyText, String.toList_append, hyear, hmonth, hday, List.append_assoc]
    simp only [bucketKey, keyLayout, dayFormat, Format.layout, List.map_cons, List.map_nil,
      render, List.append_nil]
    rfl
  | week =>
    obtain ⟨isoYear, isoWeek, hiso, hbounds, hweek⟩ :=
      isocalendar_spec hu.validDate (show 2 ≤ u.year by omega)
    have hisoYear : (zeroPad 4 isoYear).toList = digits 4 isoYear :=
      toList_zeroPad (by omega) (show isoYear < 10000 by omega)
    have hisoWeek : (zeroPad 2 isoWeek).toList = digits 2 isoWeek :=
      toList_zeroPad (by omega) (show isoWeek < 100 by have := hweek.week; omega)
    simp only [bucketKeyText, hiso, String.toList_append, hisoYear, hisoWeek, List.append_assoc]
    simp only [bucketKey, hiso, keyLayout, render, List.append_nil]
    rfl
  | month =>
    simp only [bucketKeyText, String.toList_append, hyear, hmonth, List.append_assoc]
    simp only [bucketKey, keyLayout, monthFormat, Format.layout, List.map_cons, List.map_nil,
      render, List.append_nil]
    rfl

/-- The text grows with the numbers of the key. -/
theorem bucketKeyText_lt {yearWidth : Nat} (hwidth : yearWidth ≤ 4) (hu : u.InRange)
    (hv : v.InRange) (huyear : 1000 ≤ u.year ∧ u.year ≤ 9998)
    (hvyear : 1000 ≤ v.year ∧ v.year ≤ 9998) {unit : BucketUnit}
    (hlt : bucketKey u unit < bucketKey v unit) :
    bucketKeyText yearWidth u unit < bucketKeyText yearWidth v unit := by
  rw [String.lt_iff_toList_lt, toList_bucketKeyText hwidth hu huyear,
    toList_bucketKeyText hwidth hv hvyear]
  exact render_lt (fits_bucketKey hu huyear unit) (fits_bucketKey hv hvyear unit) hlt

/-! ## Back from the text -/

theorem splitWeek_eq_self {s : List Char} (h : ∀ c ∈ s, c ≠ '-') : splitWeek s = [s] := by
  induction s with
  | nil => rfl
  | cons c s ih =>
    have hc : c ≠ '-' := h c List.mem_cons_self
    rw [splitWeek, ih fun d hd => h d (List.mem_cons_of_mem c hd)]
    exact fun _ heq => absurd heq hc

theorem splitWeek_append {s : List Char} (h : ∀ c ∈ s, c ≠ '-') (t : List Char) :
    splitWeek (s ++ '-' :: 'W' :: t) = s :: splitWeek t := by
  induction s with
  | nil => rfl
  | cons c s ih =>
    have hc : c ≠ '-' := h c List.mem_cons_self
    rw [List.cons_append, splitWeek, ih fun d hd => h d (List.mem_cons_of_mem c hd)]
    exact fun _ heq => absurd heq hc

theorem ne_dash_of_mem_digits {width n : Nat} {c : Char} (hc : c ∈ digits width n) : c ≠ '-' := by
  rintro rfl
  exact absurd (isDigit_of_mem_digits hc) (by decide)

theorem bucketKeyText_eq_ofList {yearWidth : Nat} (hwidth : yearWidth ≤ 4) (hu : u.InRange)
    (huyear : 1000 ≤ u.year ∧ u.year ≤ 9998) (unit : BucketUnit) :
    bucketKeyText yearWidth u unit =
      String.ofList (render (keyLayout unit) (bucketKey u unit)) := by
  rw [← toList_bucketKeyText hwidth hu huyear, String.ofList_toList]

/-- A date and an hour are a time. -/
theorem inRange_of_validDate {year month day hour : Nat} (h : ValidDate year month day)
    (hyear : year ≤ 9999) (hhour : hour < 24) :
    DateTime.InRange { year := year, month := month, day := day, hour := hour } :=
  ⟨⟨h.one_le_year, hyear⟩, h.month_bounds, h.day_bounds, hhour, Nat.succ_pos 59,
    Nat.succ_pos 59, Nat.succ_pos 999999⟩

/-- The midnight of a day number is a time. -/
theorem inRange_midnight {day : Nat} (hlow : 1 ≤ day) (hhigh : (day : Int) ≤ maxOrdinal) :
    (midnight day).InRange := by
  obtain ⟨year, month, dayOfMonth, heq, hvalid, hord⟩ := ord2ymd_spec hlow
  unfold midnight
  rw [heq]
  exact inRange_of_validDate hvalid (year_le_of_ord hvalid (by omega)) (by omega)

/-- After the first year the year is not the first. -/
theorem two_le_year_midnight {day : Nat} (h : 365 < day) : 2 ≤ (midnight day).year := by
  obtain ⟨year, month, dayOfMonth, heq, hvalid, hord⟩ := ord2ymd_spec (show 1 ≤ day by omega)
  have hle := hvalid.ord_le
  have hone := hvalid.one_le_year
  have hdays : daysBeforeYear 1 + daysInYear 1 = 365 := by decide
  unfold midnight
  rw [heq]
  show 2 ≤ year
  by_contra hlt
  obtain rfl : year = 1 := by omega
  omega

theorem checkDate_eq_some {ts : DateTime} (h : ts.InRange) : checkDate ts = some ts :=
  if_pos ⟨h.validDate, h.year.2⟩

/-- The ISO week of a date is one that `fromisocalendar` takes. -/
theorem fromIsoWeek_eq {day : Int} {isoYear isoWeek : Nat} (h : InIsoWeek day isoYear isoWeek)
    (hyear : 1 ≤ isoYear ∧ isoYear ≤ 9999) :
    fromIsoWeek isoYear isoWeek =
      some (midnight (fromisocalendar isoYear isoWeek).toNat) := by
  have hweek := h.week
  have hnext := isoWeek1Monday_succ hyear.1
  have hmonday := h.monday_le
  have hlt := h.lt_year
  unfold fromIsoWeek
  rw [Int.toNat_natCast, Int.toNat_natCast, if_pos]
  refine ⟨by omega, ?_⟩
  rcases Nat.lt_or_eq_of_le hweek.2 with hshort | rfl
  · exact Or.inl (by omega)
  · refine Or.inr ⟨rfl, ?_⟩
    unfold fromisocalendar at hmonday
    have hlong := isoWeek1Monday_long hyear.1 (hnext.resolve_left (by omega))
    simpa [isLongYear] using hlong

/-- The start of a week is read from its key. -/
theorem inferTsOfText_week {yearWidth : Nat} (hwidth : yearWidth ≤ 4) (hu : u.InRange)
    (huyear : 1000 ≤ u.year ∧ u.year ≤ 9998) {isoYear isoWeek : Nat}
    (hiso : isocalendar u.year u.month u.day = (isoYear, isoWeek))
    (hbounds : u.year - 1 ≤ isoYear ∧ isoYear ≤ u.year + 1) {day : Int}
    (hweek : InIsoWeek day isoYear isoWeek) :
    inferTsOfText (bucketKeyText yearWidth u .week) .week =
      some (.utc (midnight (fromisocalendar isoYear isoWeek).toNat)) := by
  have htext : (bucketKeyText yearWidth u .week).toList =
      digits 4 isoYear ++ '-' :: 'W' :: digits 2 isoWeek := by
    rw [toList_bucketKeyText hwidth hu huyear]
    simp only [bucketKey, hiso, keyLayout, render, List.append_nil]
    rfl
  have hsplit : splitWeek (digits 4 isoYear ++ '-' :: 'W' :: digits 2 isoWeek) =
      [digits 4 isoYear, digits 2 isoWeek] := by
    rw [splitWeek_append (fun c hc => ne_dash_of_mem_digits hc),
      splitWeek_eq_self (fun c hc => ne_dash_of_mem_digits hc)]
  have hisoYear : intOfText (strip isSpace (digits 4 isoYear)) = some (isoYear : Int) :=
    intOfText_digits (by decide) (show isoYear < 10000 by omega)
  have hisoWeek : intOfText (strip isSpace (digits 2 isoWeek)) = some (isoWeek : Int) :=
    intOfText_digits (by decide) (show isoWeek < 100 by have := hweek.week; omega)
  unfold inferTsOfText
  rw [htext, hsplit]
  dsimp only
  rw [hisoYear, hisoWeek]
  show (fromIsoWeek isoYear isoWeek).map OffsetTime.utc = _
  rw [fromIsoWeek_eq hweek (by omega)]
  rfl

/-- The Monday of a week is in it. -/
theorem bucketScore_monday {day : Int} {isoYear isoWeek : Nat}
    (hiso : isocalendar u.year u.month u.day = (isoYear, isoWeek))
    (hweek : InIsoWeek day isoYear isoWeek) (hlow : 1000 ≤ day) (hhigh : day ≤ maxOrdinal) :
    bucketScore (midnight (fromisocalendar isoYear isoWeek).toNat) .week =
      bucketScore u .week := by
  have hmonday := hweek.monday_eq
  have hone := one_le_monday hweek (by omega)
  have hrange : (midnight (fromisocalendar isoYear isoWeek).toNat).InRange :=
    inRange_midnight (by omega) (by omega)
  obtain ⟨isoYear', isoWeek', hiso', -, hweek'⟩ := isocalendar_spec hrange.validDate
    (two_le_year_midnight (by omega))
  have hord : ymd2ord (midnight (fromisocalendar isoYear isoWeek).toNat).year
      (midnight (fromisocalendar isoYear isoWeek).toNat).month
      (midnight (fromisocalendar isoYear isoWeek).toNat).day =
      (fromisocalendar isoYear isoWeek).toNat := ymd2ord_ord2ymd (by omega)
  have hmonday' := hweek'.monday_eq
  rw [hord] at hweek' hmonday'
  have hsame : fromisocalendar isoYear' isoWeek' = fromisocalendar isoYear isoWeek := by omega
  rw [bucketScore_week hiso hone, bucketScore_week hiso' (by omega), hsame]

/-- A text that was written with full widths is read as the time. -/
theorem map_strptime_eq {format : Format} {ns : List Nat} {ts : DateTime} {text : String}
    (hadmits : Format.Admits format ns)
    (hts : timeOfFields ((format.map Prod.snd).zip ns) = ts) (hrange : ts.InRange)
    (htext : text = String.ofList (render (Format.layout format) ns)) :
    (strptime format text).map OffsetTime.utc = some (.utc ts) := by
  rw [htext, strptime_render hadmits, hts, checkDate_eq_some hrange]
  rfl

/-- Reading the text gives what the numbers of the key give. -/
theorem inferTsOfText_bucketKeyText {yearWidth : Nat} (hwidth : yearWidth ≤ 4) (hu : u.InRange)
    (huyear : 1000 ≤ u.year ∧ u.year ≤ 9998) (unit : BucketUnit) :
    inferTsOfText (bucketKeyText yearWidth u unit) unit =
      (inferTsForBucket (bucketKey u unit) unit).map OffsetTime.utc := by
  have htext := bucketKeyText_eq_ofList hwidth hu huyear
  cases unit with
  | hour =>
    show (strptime hourFormat (bucketKeyText yearWidth u .hour)).map OffsetTime.utc = _
    exact map_strptime_eq (admits_hourFormat hu) rfl
      (inRange_of_validDate hu.validDate hu.year.2 hu.hour) (htext .hour)
  | day =>
    show (strptime dayFormat (bucketKeyText yearWidth u .day)).map OffsetTime.utc = _
    exact map_strptime_eq (admits_dayFormat hu) rfl
      (inRange_of_validDate hu.validDate hu.year.2 (Nat.succ_pos 23)) (htext .day)
  | week =>
    obtain ⟨isoYear, isoWeek, hiso, hbounds, hweek⟩ :=
      isocalendar_spec hu.validDate (show 2 ≤ u.year by omega)
    rw [inferTsOfText_week hwidth hu huyear hiso hbounds hweek]
    simp only [bucketKey, hiso, inferTsForBucket, Option.map_some]
  | month =>
    show (strptime monthFormat (bucketKeyText yearWidth u .month)).map OffsetTime.utc = _
    exact map_strptime_eq (admits_monthFormat hu) rfl
      (inRange_of_validDate (validDate_first hu) hu.year.2 (Nat.succ_pos 23)) (htext .month)

/-- The numbers of a key lead back to a time with its score. -/
theorem exists_inferTsForBucket (hu : u.InRange) (huyear : 1000 ≤ u.year) (unit : BucketUnit) :
    ∃ ts, inferTsForBucket (bucketKey u unit) unit = some ts ∧ ts.InRange ∧
      bucketScore ts unit = bucketScore u unit := by
  cases unit with
  | hour => exact ⟨_, rfl, inRange_of_validDate hu.validDate hu.year.2 hu.hour, rfl⟩
  | day => exact ⟨_, rfl, inRange_of_validDate hu.validDate hu.year.2 (Nat.succ_pos 23), rfl⟩
  | week =>
    obtain ⟨isoYear, isoWeek, hiso, -, hweek⟩ :=
      isocalendar_spec hu.validDate (show 2 ≤ u.year by omega)
    have hlow := hu.validDate.lt_ord
    have hyears := daysBeforeYear_add_le (show 1 ≤ 3 by omega) (show 3 < u.year by omega)
    have hthree : 1000 ≤ daysBeforeYear 3 + daysInYear 3 := by decide
    have hhigh := ord_le_of_year hu
    have hmonday := hweek.monday_eq
    simp only [bucketKey, hiso, inferTsForBucket]
    exact ⟨_, rfl, inRange_midnight (by omega) (by omega),
      bucketScore_monday hiso hweek (by omega) (by omega)⟩
  | month =>
    exact ⟨_, rfl, inRange_of_validDate (validDate_first hu) hu.year.2 (Nat.succ_pos 23), rfl⟩

/-- Both the text and the score have the order of the numbers of the key. -/
theorem key_trichotomy {yearWidth : Nat} (hwidth : yearWidth ≤ 4) (hu : u.InRange)
    (hv : v.InRange) (huyear : 1000 ≤ u.year ∧ u.year ≤ 9998)
    (hvyear : 1000 ≤ v.year ∧ v.year ≤ 9998) (unit : BucketUnit) :
    (bucketKey u unit < bucketKey v unit ∧
      bucketKeyText yearWidth u unit < bucketKeyText yearWidth v unit ∧
      bucketScore u unit < bucketScore v unit) ∨
    (bucketKey u unit = bucketKey v unit ∧
      bucketKeyText yearWidth u unit = bucketKeyText yearWidth v unit ∧
      bucketScore u unit = bucketScore v unit) ∨
    (bucketKey v unit < bucketKey u unit ∧
      bucketKeyText yearWidth v unit < bucketKeyText yearWidth u unit ∧
      bucketScore v unit < bucketScore u unit) := by
  rcases lt_trichotomy (bucketKey u unit) (bucketKey v unit) with hlt | heq | hlt
  · exact Or.inl ⟨hlt, bucketKeyText_lt hwidth hu hv huyear hvyear hlt,
      bucketScore_lt hu hv (by omega) (by omega) hlt⟩
  · refine Or.inr (Or.inl ⟨heq, ?_, bucketScore_eq_of_key heq⟩)
    rw [bucketKeyText_eq_ofList hwidth hu huyear, bucketKeyText_eq_ofList hwidth hv hvyear, heq]
  · exact Or.inr (Or.inr ⟨hlt, bucketKeyText_lt hwidth hv hu hvyear huyear hlt,
      bucketScore_lt hv hu (by omega) (by omega) hlt⟩)

end Order

/-- The buckets of a cold start, which the model sorts by the numbers of their
keys, are in the order of the texts and of the scores. -/
theorem sortedBuckets_texts {yearWidth : Nat} (hwidth : yearWidth ≤ 4) {samples : List SampleRow}
    (hsamples : ∀ s ∈ samples,
      s.sampledAt.InRange ∧ 1000 ≤ s.sampledAt.year ∧ s.sampledAt.year ≤ 9998)
    (unit : BucketUnit) :
    (sortedBuckets samples unit).Pairwise fun a b => ∀ s ∈ a.2, ∀ t ∈ b.2,
      bucketKeyText yearWidth s.sampledAt unit < bucketKeyText yearWidth t.sampledAt unit ∧
        bucketScore s.sampledAt unit < bucketScore t.sampledAt unit := by
  have hkey (bucket : BucketKey × List SampleRow) (hbucket : bucket ∈ sortedBuckets samples unit)
      (s : SampleRow) (hs : s ∈ bucket.2) :
      s ∈ samples ∧ bucketKey s.sampledAt unit = bucket.1 := by
    rw [snd_of_mem_sortedBuckets hbucket, List.mem_filter, decide_eq_true_eq] at hs
    exact hs
  refine (pairwise_sortedBuckets samples unit).imp_of_mem fun {a b} ha hb hlt s hs t ht => ?_
  obtain ⟨hsample, hskey⟩ := hkey a ha s hs
  obtain ⟨htsample, htkey⟩ := hkey b hb t ht
  obtain ⟨hsrange, hsyear⟩ := hsamples s hsample
  obtain ⟨htrange, htyear⟩ := hsamples t htsample
  rw [← hskey, ← htkey] at hlt
  exact ⟨bucketKeyText_lt hwidth hsrange htrange hsyear htyear hlt,
    bucketScore_lt hsrange htrange (by omega) (by omega) hlt⟩

/-! ## Keys and scores agree -/

/-- The time is in UTC in one of the years 1000 to 9998. -/
def InYears (ts : OffsetTime) : Prop :=
  ∃ u, ts.asUtc = some u ∧ 1000 ≤ u.year ∧ u.year ≤ 9998

/-- The texts of the keys and the scores agree on the order of the buckets of
two times, and the text leads back to the score. -/
theorem bucketKey_bucketScore_agree (yearWidth : Nat) (hwidth : yearWidth ≤ 4)
    (unit : BucketUnit) (a b : OffsetTime) (ha : a.Valid) (hb : b.Valid)
    (hayears : InYears a) (hbyears : InYears b) :
    ∃ ka kb sa sb,
      bucketKeyAt yearWidth a unit = some ka ∧ bucketKeyAt yearWidth b unit = some kb ∧
      bucketScoreAt a unit = some sa ∧ bucketScoreAt b unit = some sb ∧
      (a ≤ b → sa ≤ sb ∧ ka ≤ kb) ∧ (ka = kb ↔ sa = sb) ∧
      ∃ ts, inferTsOfText ka unit = some ts ∧ bucketScoreAt ts unit = some sa := by
  obtain ⟨u, hu, huyear⟩ := hayears
  obtain ⟨v, hv, hvyear⟩ := hbyears
  obtain ⟨hurange, huinstant⟩ := OffsetTime.asUtc_spec ha hu
  obtain ⟨hvrange, hvinstant⟩ := OffsetTime.asUtc_spec hb hv
  have horder := key_trichotomy hwidth hurange hvrange huyear hvyear unit
  refine ⟨bucketKeyText yearWidth u unit, bucketKeyText yearWidth v unit, bucketScore u unit,
    bucketScore v unit, by rw [bucketKeyAt, hu]; rfl, by rw [bucketKeyAt, hv]; rfl,
    by rw [bucketScoreAt, hu]; rfl, by rw [bucketScoreAt, hv]; rfl, ?_, ?_, ?_⟩
  · intro hle
    rw [OffsetTime.le_iff ha hb, ← huinstant, ← hvinstant] at hle
    have hkey := bucketKey_le hurange hvrange (by omega) (by omega) hle unit
    rcases horder with ⟨-, htext, hscore⟩ | ⟨-, htext, hscore⟩ | ⟨hlt, -, -⟩
    · exact ⟨hscore.le, htext.le⟩
    · exact ⟨hscore.le, htext.le⟩
    · exact absurd hlt (not_lt.mpr hkey)
  · rcases horder with ⟨-, htext, hscore⟩ | ⟨-, htext, hscore⟩ | ⟨-, htext, hscore⟩
    · exact iff_of_false htext.ne hscore.ne
    · exact iff_of_true htext hscore
    · exact iff_of_false htext.ne' hscore.ne'
  · obtain ⟨ts, hts, hrange, hscore⟩ := exists_inferTsForBucket hurange huyear.1 unit
    refine ⟨.utc ts, ?_, ?_⟩
    · rw [inferTsOfText_bucketKeyText hwidth hurange huyear, hts]
      rfl
    · rw [bucketScoreAt, OffsetTime.asUtc_utc hrange, ← hscore]
      rfl

/-- 1 January 2027, 8 o'clock in Seoul: the last day of 2026 in UTC. -/
def seoulNewYear : OffsetTime :=
  ⟨{ year := 2027, month := 1, day := 1, hour := 8 }, some 32400000000⟩

/-- 4 January 2027 in New York: the first ISO week of 2027. -/
def newYorkMonday : OffsetTime := ⟨{ year := 2027, month := 1, day := 4 }, some (-18000000000)⟩

/-- The week 53 of 2026 and the week after it. -/
theorem bucketKey_bucketScore_agree_newYear :
    ∃ ka kb sa sb,
      bucketKeyAt 4 seoulNewYear .week = some ka ∧ bucketKeyAt 4 newYorkMonday .week = some kb ∧
      bucketScoreAt seoulNewYear .week = some sa ∧ bucketScoreAt newYorkMonday .week = some sb ∧
      (seoulNewYear ≤ newYorkMonday → sa ≤ sb ∧ ka ≤ kb) ∧ (ka = kb ↔ sa = sb) ∧
      ∃ ts, inferTsOfText ka .week = some ts ∧ bucketScoreAt ts .week = some sa :=
  bucketKey_bucketScore_agree 4 (by decide) .week seoulNewYear newYorkMonday
    ⟨inRange_of_validDate (by decide) (by decide) (by decide), by decide⟩
    ⟨inRange_of_validDate (by decide) (by decide) (by decide), by decide⟩
    ⟨{ year := 2026, month := 12, day := 31, hour := 23 }, by decide +kernel, by decide⟩
    ⟨{ year := 2027, month := 1, day := 4, hour := 5 }, by decide +kernel, by decide⟩

end DustMonitoring.Dumopro
