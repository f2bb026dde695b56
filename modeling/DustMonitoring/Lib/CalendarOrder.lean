import Mathlib.Data.List.Lex
import Mathlib.Tactic.IntervalCases
import DustMonitoring.Lib.Calendar

/-!
# The order of dates

Day numbers and dates are the same thing in two encodings, and so are the
Mondays and the ISO weeks.  Both encodings keep the order, which on dates and
on weeks is the lexicographic one.

Main results:

* `ymd2ord_lt_iff` -- the day number grows with the date;
* `ymd2ord_ord2ymd` -- every day number is that of its date;
* `isocalendar_spec` -- a date lies in its ISO week, also where the ISO year is
  not the year of the date;
* `InIsoWeek.monday_lt_of_lt` -- the Mondays have the order of the ISO weeks.
-/

namespace DustMonitoring.Lib

/-! ## Months and years -/

/-- A date that exists. -/
structure ValidDate (year month day : Nat) : Prop where
  one_le_year : 1 ≤ year
  month_bounds : 1 ≤ month ∧ month ≤ 12
  day_bounds : 1 ≤ day ∧ day ≤ daysInMonth year month

instance (year month day : Nat) : Decidable (ValidDate year month day) :=
  decidable_of_iff (1 ≤ year ∧ (1 ≤ month ∧ month ≤ 12) ∧
      (1 ≤ day ∧ day ≤ daysInMonth year month))
    ⟨fun h => ⟨h.1, h.2.1, h.2.2⟩, fun h => ⟨h.1, h.2, h.3⟩⟩

/-- The days of the year. -/
def daysInYear (year : Nat) : Nat := 365 + if isLeap year then 1 else 0

theorem isLeap_iff (year : Nat) :
    isLeap year = true ↔ year % 4 = 0 ∧ (year % 100 ≠ 0 ∨ year % 400 = 0) := by
  simp [isLeap]

/-- A month starts where the one before it ends. -/
theorem daysBeforeMonth_succ (year : Nat) {month : Nat} (h : 1 ≤ month ∧ month ≤ 11) :
    daysBeforeMonth year (month + 1) = daysBeforeMonth year month + daysInMonth year month := by
  obtain ⟨hlow, hhigh⟩ := h
  unfold daysBeforeMonth daysInMonth
  cases isLeap year with
  | false => interval_cases month <;> rfl
  | true => interval_cases month <;> rfl

/-- The year ends with December. -/
theorem daysBeforeMonth_december (year : Nat) :
    daysBeforeMonth year 12 + daysInMonth year 12 = daysInYear year := by
  unfold daysBeforeMonth daysInMonth daysInYear
  cases isLeap year with
  | false => rfl
  | true => rfl

theorem daysBeforeMonth_add_le (year : Nat) {month month' : Nat} (hmonth : 1 ≤ month)
    (hlt : month < month') (hmonth' : month' ≤ 12) :
    daysBeforeMonth year month + daysInMonth year month ≤ daysBeforeMonth year month' := by
  induction month' with
  | zero => omega
  | succ n ih =>
    rcases Nat.lt_succ_iff_lt_or_eq.mp hlt with hlt | rfl
    · have hsucc := daysBeforeMonth_succ year (show 1 ≤ n ∧ n ≤ 11 by omega)
      have := ih hlt (by omega)
      omega
    · exact (daysBeforeMonth_succ year (by omega)).ge

theorem daysBeforeMonth_add_le_year (year : Nat) {month : Nat} (h : 1 ≤ month ∧ month ≤ 12) :
    daysBeforeMonth year month + daysInMonth year month ≤ daysInYear year := by
  rw [← daysBeforeMonth_december]
  rcases Nat.lt_or_eq_of_le h.2 with hlt | rfl
  · have := daysBeforeMonth_add_le year h.1 hlt (Nat.le_refl 12)
    omega
  · exact Nat.le_refl _

theorem daysBeforeYear_succ {year : Nat} (h : 1 ≤ year) :
    daysBeforeYear (year + 1) = daysBeforeYear year + daysInYear year := by
  obtain ⟨n, rfl⟩ : ∃ n, year = n + 1 := ⟨year - 1, by omega⟩
  have hdiv (k : Nat) : (n + 1) / k = n / k + if (n + 1) % k = 0 then 1 else 0 := by
    simp only [Nat.succ_div, Nat.dvd_iff_mod_eq_zero]
  have hle : n / 100 ≤ n / 4 := Nat.div_le_div_left (by omega) (by omega)
  have hcentury : (n + 1) % 100 = 0 → (n + 1) % 4 = 0 := by omega
  have hfour : (n + 1) % 400 = 0 → (n + 1) % 100 = 0 := by omega
  unfold daysBeforeYear daysInYear
  simp only [Nat.add_sub_cancel, isLeap_iff, hdiv]
  -- From here on only the three remainders matter.
  generalize n / 4 = a at *
  generalize n / 100 = b at *
  generalize (n + 1) % 4 = r₄ at *
  generalize (n + 1) % 100 = r₁₀₀ at *
  generalize (n + 1) % 400 = r₄₀₀ at *
  split_ifs
  all_goals omega

theorem daysBeforeYear_add_le {year year' : Nat} (hyear : 1 ≤ year) (hlt : year < year') :
    daysBeforeYear year + daysInYear year ≤ daysBeforeYear year' := by
  induction year' with
  | zero => omega
  | succ n ih =>
    rcases Nat.lt_succ_iff_lt_or_eq.mp hlt with hlt | rfl
    · have hsucc := daysBeforeYear_succ (show 1 ≤ n by omega)
      have := ih hlt
      omega
    · exact (daysBeforeYear_succ hyear).ge

/-! ## Day numbers -/

namespace ValidDate

variable {year month day year' month' day' : Nat}

theorem day_le (h : ValidDate year month day) : day ≤ 31 := by
  obtain ⟨hlow, hhigh⟩ := h.month_bounds
  have hle : daysInMonth year month ≤ 31 := by
    unfold daysInMonth
    cases isLeap year with
    | false =>
      interval_cases month
      all_goals decide
    | true =>
      interval_cases month
      all_goals decide
  exact h.day_bounds.2.trans hle

/-- A date lies in its year. -/
theorem ord_le (h : ValidDate year month day) :
    ymd2ord year month day ≤ daysBeforeYear year + daysInYear year := by
  have := daysBeforeMonth_add_le_year year h.month_bounds
  have := h.day_bounds
  unfold ymd2ord
  omega

theorem lt_ord (h : ValidDate year month day) :
    daysBeforeYear year < ymd2ord year month day := by
  have := h.day_bounds
  unfold ymd2ord
  omega

theorem ord_lt_of_lt (h : ValidDate year month day) (h' : ValidDate year' month' day')
    (hlt : [year, month, day] < [year', month', day']) :
    ymd2ord year month day < ymd2ord year' month' day' := by
  simp only [List.cons_lt_cons_iff, List.not_lt_nil, and_false, or_false] at hlt
  rcases hlt with hyear | ⟨rfl, hmonth | ⟨rfl, hday⟩⟩
  · have := daysBeforeYear_add_le h.one_le_year hyear
    have := h.ord_le
    have := h'.lt_ord
    omega
  · have := daysBeforeMonth_add_le year h.month_bounds.1 hmonth h'.month_bounds.2
    have := h.day_bounds
    have := h'.day_bounds
    unfold ymd2ord
    omega
  · unfold ymd2ord
    omega

end ValidDate

/-- The day number grows with the date. -/
theorem ymd2ord_lt_iff {year month day year' month' day' : Nat}
    (h : ValidDate year month day) (h' : ValidDate year' month' day') :
    ymd2ord year month day < ymd2ord year' month' day' ↔
      [year, month, day] < [year', month', day'] := by
  refine ⟨fun hlt => ?_, h.ord_lt_of_lt h'⟩
  rcases lt_trichotomy [year, month, day] [year', month', day'] with hdate | heq | hdate
  · exact hdate
  · simp only [List.cons.injEq, and_true] at heq
    obtain ⟨rfl, rfl, rfl⟩ := heq
    exact absurd hlt (lt_irrefl _)
  · exact absurd hlt (h'.ord_lt_of_lt h hdate).asymm

/-! ## The date of a day number -/

/-- The days before a year that is given by its place in the cycles of 400,
100 and 4 years. -/
theorem daysBeforeYear_cycles {a b c d : Nat} (hb : b ≤ 3) (hc : c ≤ 24) (hd : d ≤ 3) :
    daysBeforeYear (400 * a + 100 * b + 4 * c + d + 1) =
      146097 * a + 36524 * b + 1461 * c + 365 * d := by
  have h4 : (400 * a + 100 * b + 4 * c + d) / 4 = 100 * a + 25 * b + c := by omega
  have h100 : (400 * a + 100 * b + 4 * c + d) / 100 = 4 * a + b := by omega
  have h400 : (400 * a + 100 * b + 4 * c + d) / 400 = a := by omega
  unfold daysBeforeYear
  simp only [Nat.add_sub_cancel, h4, h100, h400]
  omega

/-- The last year of a cycle of four is a leap year, but for three centuries. -/
theorem isLeap_cycles {a b c : Nat} (hc : c ≤ 24) (h : c < 24 ∨ b = 3) :
    isLeap (400 * a + 100 * b + 4 * c + 3 + 1) = true := by
  rw [isLeap_iff]
  omega

/-- The estimate of the month is never too small, and at most one too large. -/
theorem month_estimate {year e n : Nat} (he : 1 ≤ e ∧ e ≤ 12) (hn : n < daysInYear year)
    (hlow : 32 * e ≤ n + 50) (hhigh : n + 50 < 32 * e + 32) :
    n < daysBeforeMonth year e + daysInMonth year e ∧
      (daysBeforeMonth year e ≤ n ∨ 2 ≤ e ∧ daysBeforeMonth year (e - 1) ≤ n) := by
  obtain ⟨hone, htwelve⟩ := he
  unfold daysInYear at hn
  unfold daysBeforeMonth daysInMonth
  cases hl : isLeap year with
  | false =>
    rw [hl] at hn
    interval_cases e
    all_goals
      simp at hn ⊢
      omega
  | true =>
    rw [hl] at hn
    interval_cases e
    all_goals
      simp at hn ⊢
      omega

theorem month_of_day {year n : Nat} (hn : n < daysInYear year) :
    ∃ month, (if n < daysBeforeMonth year ((n + 50) / 32) then (n + 50) / 32 - 1
        else (n + 50) / 32) = month ∧
      (1 ≤ month ∧ month ≤ 12) ∧ daysBeforeMonth year month ≤ n ∧
      n < daysBeforeMonth year month + daysInMonth year month := by
  have hlow : 32 * ((n + 50) / 32) ≤ n + 50 := Nat.mul_div_le (n + 50) 32
  have hhigh : n + 50 < 32 * ((n + 50) / 32) + 32 := Nat.lt_mul_div_succ (n + 50) (by omega)
  generalize (n + 50) / 32 = e at *
  have he : 1 ≤ e ∧ e ≤ 12 := by
    unfold daysInYear at hn
    split at hn
    all_goals omega
  obtain ⟨hlt, hle⟩ := month_estimate he hn hlow hhigh
  refine ⟨_, rfl, ?_⟩
  split
  · next hbefore =>
    obtain ⟨htwo, hle⟩ := hle.resolve_left (by omega)
    have hsucc := daysBeforeMonth_succ year (show 1 ≤ e - 1 ∧ e - 1 ≤ 11 by omega)
    rw [Nat.sub_add_cancel he.1] at hsucc
    omega
  · next hbefore => omega

theorem daysInMonth_december (year : Nat) : daysInMonth year 12 = 31 := by
  simp [daysInMonth]

/-- The last day of a year. -/
theorem ymd2ord_december (year : Nat) :
    ymd2ord year 12 31 = daysBeforeYear year + daysInYear year := by
  rw [← daysBeforeMonth_december, daysInMonth_december]
  unfold ymd2ord
  omega

/-- The last day of a cycle of four years, which the cycles have no place for. -/
theorem december_of_cycles {a b c : Nat} (hb : b ≤ 3) (hc : c ≤ 24) (hleap : c < 24 ∨ b = 3) :
    ValidDate (400 * a + 100 * b + 4 * c + 3 + 1) 12 31 ∧
      ymd2ord (400 * a + 100 * b + 4 * c + 3 + 1) 12 31 =
        146097 * a + 36524 * b + 1461 * c + 1461 := by
  have hbefore := daysBeforeYear_cycles (a := a) hb hc (Nat.le_refl 3)
  have hdays : daysInYear (400 * a + 100 * b + 4 * c + 3 + 1) = 366 := by
    rw [daysInYear, if_pos (isLeap_cycles hc hleap)]
  refine ⟨⟨by omega, by omega, ?_⟩, ?_⟩
  · rw [daysInMonth_december]
    omega
  · rw [ymd2ord_december]
    omega

/-- A day among the first 365 of a year, by its month. -/
theorem date_of_cycles {a b c d n : Nat} (hb : b ≤ 3) (hc : c ≤ 24) (hd : d ≤ 3) (hn : n < 365) :
    let year := 400 * a + 100 * b + 4 * c + d + 1
    ∃ month, (if n < daysBeforeMonth year ((n + 50) / 32) then (n + 50) / 32 - 1
        else (n + 50) / 32) = month ∧
      ValidDate year month (n - daysBeforeMonth year month + 1) ∧
      ymd2ord year month (n - daysBeforeMonth year month + 1) =
        146097 * a + 36524 * b + 1461 * c + 365 * d + n + 1 := by
  intro year
  have hbefore : daysBeforeYear year = 146097 * a + 36524 * b + 1461 * c + 365 * d :=
    daysBeforeYear_cycles hb hc hd
  have hlt : n < daysInYear year := by
    unfold daysInYear
    omega
  obtain ⟨month, hmonth, hbounds, hle, hmlt⟩ := month_of_day hlt
  refine ⟨month, hmonth, ⟨by omega, hbounds, by omega⟩, ?_⟩
  unfold ymd2ord
  omega

/-- The date of a day number exists, and its number is the day number. -/
theorem ord2ymd_spec {day : Nat} (hday : 1 ≤ day) :
    ∃ year month dayOfMonth, ord2ymd day = (year, month, dayOfMonth) ∧
      ValidDate year month dayOfMonth ∧ ymd2ord year month dayOfMonth = day := by
  unfold ord2ymd
  dsimp only
  have hn := Nat.div_add_mod (day - 1) 146097
  have hr₁ : (day - 1) % 146097 < 146097 := Nat.mod_lt _ (by omega)
  generalize (day - 1) / 146097 = a at *
  generalize (day - 1) % 146097 = r₁ at *
  have hn₁ := Nat.div_add_mod r₁ 36524
  have hr₂ : r₁ % 36524 < 36524 := Nat.mod_lt _ (by omega)
  generalize r₁ / 36524 = b at *
  generalize r₁ % 36524 = r₂ at *
  have hn₂ := Nat.div_add_mod r₂ 1461
  have hr₃ : r₂ % 1461 < 1461 := Nat.mod_lt _ (by omega)
  generalize r₂ / 1461 = c at *
  generalize r₂ % 1461 = r₃ at *
  have hn₃ := Nat.div_add_mod r₃ 365
  have hr₄ : r₃ % 365 < 365 := Nat.mod_lt _ (by omega)
  generalize r₃ / 365 = d at *
  generalize r₃ % 365 = n at *
  split
  · next hlast =>
    obtain ⟨b', c', hb, hc, hleap, hyear, hnumber⟩ : ∃ b' c', b' ≤ 3 ∧ c' ≤ 24 ∧
        (c' < 24 ∨ b' = 3) ∧
        a * 400 + 1 + b * 100 + c * 4 + d - 1 = 400 * a + 100 * b' + 4 * c' + 3 + 1 ∧
        146097 * a + 36524 * b' + 1461 * c' + 1461 = day := by
      rcases hlast with rfl | rfl
      · exact ⟨b, c, by omega, by omega, by omega, by omega, by omega⟩
      · exact ⟨3, 24, by omega, by omega, by omega, by omega, by omega⟩
    obtain ⟨hvalid, hord⟩ := december_of_cycles (a := a) hb hc hleap
    rw [hyear]
    exact ⟨_, _, _, rfl, hvalid, hord.trans hnumber⟩
  · next hnot =>
    have hyear : a * 400 + 1 + b * 100 + c * 4 + d = 400 * a + 100 * b + 4 * c + d + 1 := by
      omega
    obtain ⟨month, hmonth, hvalid, hord⟩ := date_of_cycles (a := a) (show b ≤ 3 by omega)
      (show c ≤ 24 by omega) (show d ≤ 3 by omega) hr₄
    rw [hyear, hmonth]
    exact ⟨_, _, _, rfl, hvalid, hord.trans (by omega)⟩

theorem ymd2ord_ord2ymd {day : Nat} (hday : 1 ≤ day) :
    ymd2ord (ord2ymd day).1 (ord2ymd day).2.1 (ord2ymd day).2.2 = day := by
  obtain ⟨year, month, dayOfMonth, heq, -, hord⟩ := ord2ymd_spec hday
  rw [heq]
  exact hord

/-! ## ISO weeks -/

theorem ymd2ord_january (year : Nat) : ymd2ord year 1 1 = daysBeforeYear year + 1 := rfl

/-- The first ISO week starts on a Monday, at most three days away from the
first of January. -/
theorem isoWeek1Monday_bounds (year : Nat) :
    isoWeek1Monday year % 7 = 1 ∧ (ymd2ord year 1 1 : Int) - 3 ≤ isoWeek1Monday year ∧
      isoWeek1Monday year ≤ ymd2ord year 1 1 + 3 := by
  unfold isoWeek1Monday
  dsimp only
  split
  all_goals omega

/-- An ISO year has 52 or 53 weeks. -/
theorem isoWeek1Monday_succ {year : Nat} (h : 1 ≤ year) :
    isoWeek1Monday (year + 1) = isoWeek1Monday year + 364 ∨
      isoWeek1Monday (year + 1) = isoWeek1Monday year + 371 := by
  have hsucc := daysBeforeYear_succ h
  have hbounds := isoWeek1Monday_bounds year
  have hbounds' := isoWeek1Monday_bounds (year + 1)
  rw [ymd2ord_january] at hbounds hbounds'
  have hdays : daysInYear year = 365 ∨ daysInYear year = 366 := by
    unfold daysInYear
    split
    · exact Or.inr rfl
    · exact Or.inl rfl
  omega

/-- The years with 53 weeks start on a Thursday, or are leap years that start
on a Wednesday. -/
theorem isoWeek1Monday_long {year : Nat} (h : 1 ≤ year)
    (hlong : isoWeek1Monday (year + 1) = isoWeek1Monday year + 371) :
    ymd2ord year 1 1 % 7 = 4 ∨ ymd2ord year 1 1 % 7 = 3 ∧ isLeap year = true := by
  have hsucc := daysBeforeYear_succ h
  have hbounds := isoWeek1Monday_bounds year
  have hbounds' := isoWeek1Monday_bounds (year + 1)
  rw [ymd2ord_january] at *
  unfold daysInYear at hsucc
  cases hl : isLeap year with
  | false =>
    rw [hl, if_neg Bool.false_ne_true] at hsucc
    omega
  | true =>
    rw [hl, if_pos rfl] at hsucc
    rw [and_iff_left rfl]
    omega

theorem isoWeek1Monday_lt {year year' : Nat} (h : 1 ≤ year) (hlt : year < year') :
    isoWeek1Monday (year + 1) ≤ isoWeek1Monday year' := by
  induction year' with
  | zero => omega
  | succ n ih =>
    rcases Nat.lt_succ_iff_lt_or_eq.mp hlt with hlt | rfl
    · have hsucc := isoWeek1Monday_succ (show 1 ≤ n by omega)
      have := ih hlt
      omega
    · exact le_refl _

/-- The day is in the ISO week of the ISO year. -/
structure InIsoWeek (day : Int) (isoYear isoWeek : Nat) : Prop where
  week : 1 ≤ isoWeek ∧ isoWeek ≤ 53
  year_le : isoWeek1Monday isoYear ≤ day
  lt_year : day < isoWeek1Monday (isoYear + 1)
  monday_le : fromisocalendar isoYear isoWeek ≤ day
  lt_sunday : day < fromisocalendar isoYear isoWeek + 7

/-- A date is in the ISO week that `isocalendar` gives, and its ISO year is
the year of the date or one next to it. -/
theorem isocalendar_spec {year month day : Nat} (h : ValidDate year month day)
    (hyear : 2 ≤ year) :
    ∃ isoYear isoWeek, isocalendar year month day = (isoYear, isoWeek) ∧
      (year - 1 ≤ isoYear ∧ isoYear ≤ year + 1) ∧
      InIsoWeek (ymd2ord year month day) isoYear isoWeek := by
  have hlow := h.lt_ord
  have hhigh := h.ord_le
  have hnext := daysBeforeYear_succ (show 1 ≤ year by omega)
  have hbounds := isoWeek1Monday_bounds year
  have hbounds' := isoWeek1Monday_bounds (year + 1)
  rw [ymd2ord_january] at hbounds hbounds'
  obtain ⟨previous, rfl⟩ : ∃ previous, year = previous + 1 := ⟨year - 1, by omega⟩
  have hweeks := isoWeek1Monday_succ (show 1 ≤ previous by omega)
  have hweeks' := isoWeek1Monday_succ (show 1 ≤ previous + 1 by omega)
  have hweeks'' := isoWeek1Monday_succ (show 1 ≤ previous + 1 + 1 by omega)
  unfold isocalendar
  dsimp only
  rw [Nat.add_sub_cancel]
  generalize ymd2ord (previous + 1) month day = today at *
  split
  · refine ⟨_, _, rfl, by omega, ⟨by omega, by omega, by omega, ?_, ?_⟩⟩
    all_goals
      unfold fromisocalendar
      omega
  · split
    · refine ⟨_, _, rfl, by omega, ⟨by omega, by omega, by omega, ?_, ?_⟩⟩
      all_goals
        unfold fromisocalendar
        omega
    · refine ⟨_, _, rfl, by omega, ⟨by omega, by omega, by omega, ?_, ?_⟩⟩
      all_goals
        unfold fromisocalendar
        omega

namespace InIsoWeek

variable {day day' : Int} {isoYear isoWeek isoYear' isoWeek' : Nat}

/-- The Monday of the week is the last one up to the day. -/
theorem monday_eq (h : InIsoWeek day isoYear isoWeek) :
    fromisocalendar isoYear isoWeek = day - (day - 1) % 7 := by
  have := isoWeek1Monday_bounds isoYear
  have := h.monday_le
  have := h.lt_sunday
  unfold fromisocalendar at *
  omega

theorem monday_lt_of_lt (h : InIsoWeek day isoYear isoWeek)
    (h' : InIsoWeek day' isoYear' isoWeek') (hyear : 1 ≤ isoYear)
    (hlt : [isoYear, isoWeek] < [isoYear', isoWeek']) :
    fromisocalendar isoYear isoWeek < fromisocalendar isoYear' isoWeek' := by
  simp only [List.cons_lt_cons_iff, List.not_lt_nil, and_false, or_false] at hlt
  have hweek := h'.week
  rcases hlt with hlt | ⟨rfl, hlt⟩
  · have hnext := isoWeek1Monday_lt hyear hlt
    have := h.monday_le
    have := h.lt_year
    unfold fromisocalendar at *
    omega
  · unfold fromisocalendar
    omega

end InIsoWeek

end DustMonitoring.Lib
