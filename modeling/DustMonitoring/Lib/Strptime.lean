import Mathlib.Data.List.TakeWhile
import DustMonitoring.Lib.CalendarOrder
import DustMonitoring.Lib.FixedWidth
import DustMonitoring.Lib.Numerals

/-!
# Reading a date from a text

`datetime.strptime` of Python 3.11, for formats of `%Y`, `%m`, `%d` and `%H`
with plain text before each of them.  The format is matched as a regular
expression: the alternatives of a directive are tried in order, a leading zero
may be missing, and letters match in either case.

Main results:

* `intOfText_digits` -- `int` reads a decimal back;
* `strptime_render` -- what was written with full widths is read back.
-/

namespace DustMonitoring.Lib

/-! ## The regular expression -/

/-- `%Y`, `%m`, `%d` and `%H`. -/
inductive Directive where
  | year | month | day | hour
deriving DecidableEq, Repr

/-- `\d`. -/
def isAnyDigit (c : Char) : Bool := (asciiDigit c).isDigit

/-- `[lo-hi]`. -/
def within (lo hi c : Char) : Bool := decide (lo ≤ c ∧ c ≤ hi)

/-- The alternatives of the directive in `TimeRE`. -/
def Directive.alternatives : Directive → List (List (Char → Bool))
  | year => [[isAnyDigit, isAnyDigit, isAnyDigit, isAnyDigit]]
  | month =>
    [[within '1' '1', within '0' '2'], [within '0' '0', within '1' '9'], [within '1' '9']]
  | day =>
    [[within '3' '3', within '0' '1'], [within '1' '2', isAnyDigit],
      [within '0' '0', within '1' '9'], [within '1' '9'], [within ' ' ' ', within '1' '9']]
  | hour => [[within '2' '2', within '0' '3'], [within '0' '1', isAnyDigit], [isAnyDigit]]

/-- The characters that match the classes, and the rest. -/
def matchClasses : List (Char → Bool) → List Char → Option (List Char × List Char)
  | [], s => some ([], s)
  | _ :: _, [] => none
  | p :: ps, c :: cs =>
    if p c then (matchClasses ps cs).map fun found => (c :: found.1, found.2) else none

/-- All ways to match the directive, in the order in which they are tried. -/
def Directive.readings (d : Directive) (s : List Char) : List (List Char × List Char) :=
  d.alternatives.filterMap fun classes => matchClasses classes s

/-- The rest after a plain text, in upper or lower case. -/
def dropLiteral : List Char → List Char → Option (List Char)
  | [], s => some s
  | _ :: _, [] => none
  | c :: literal, x :: s => if x.toLower = c.toLower then dropLiteral literal s else none

/-- A format: the plain text before each directive, and the directive. -/
abbrev Format := List (List Char × Directive)

/-- All ways to match the format: the text of each directive, and the rest. -/
def matchFormat : Format → List Char → List (List (Directive × List Char) × List Char)
  | [], s => [([], s)]
  | (literal, d) :: format, s =>
    match dropLiteral literal s with
    | none => []
    | some s => (d.readings s).flatMap fun found =>
        (matchFormat format found.2).map fun later => ((d, found.1) :: later.1, later.2)

/-! ## The fields -/

/-- The time with the number in the field of the directive. -/
def setField (ts : DateTime) : Directive × Nat → DateTime
  | (.year, n) => { ts with year := n }
  | (.month, n) => { ts with month := n }
  | (.day, n) => { ts with day := n }
  | (.hour, n) => { ts with hour := n }

/-- The time of the numbers; fields that are not given have their defaults. -/
def timeOfFields (fields : List (Directive × Nat)) : DateTime :=
  fields.foldl setField { year := 1900, month := 1, day := 1 }

/-- `int` of the text of a directive. -/
def numberOfField (field : Directive × List Char) : Option (Directive × Nat) :=
  (intOfText (strip isSpace field.2)).map fun n => (field.1, n.toNat)

/-- A date of the calendar or the `ValueError` of `date`. -/
def checkDate (ts : DateTime) : Option DateTime :=
  if ValidDate ts.year ts.month ts.day ∧ ts.year ≤ 9999 then some ts else none

/-- `datetime.strptime`; `none` is the `ValueError`. -/
def strptime (format : Format) (s : String) : Option DateTime :=
  match (matchFormat format s.toList).head? with
  | some (fields, []) => (fields.mapM numberOfField).bind fun fields =>
      checkDate (timeOfFields fields)
  | _ => none

example : strptime [([], .year), (['-'], .month)] "2026-6" =
      some { year := 2026, month := 6, day := 1 } ∧
    strptime [([], .year), (['-'], .month)] "2026-13" = none ∧
    strptime [([], .year), (['-'], .month), (['-'], .day)] "2026-02-29" = none := by
  decide +kernel

/-! ## Decimals are read back -/

theorem asciiDigit_of_isDigit {c : Char} (h : c.isDigit = true) : asciiDigit c = c := by
  have hbounds : 48 ≤ c.toNat ∧ c.toNat ≤ 57 := by
    simpa [Char.isDigit, UInt32.le_iff_toNat_le] using h
  have hfind : decimalZeros.find? (fun z => decide (z ≤ c.toNat ∧ c.toNat < z + 10)) = some 48 :=
    List.find?_cons_of_pos (by
      simp only [decide_eq_true_eq]
      omega)
  unfold asciiDigit
  rw [hfind]
  show Char.ofNat (c.toNat - 48 + 48) = c
  rw [Nat.sub_add_cancel hbounds.1]
  exact Char.ofNat_toNat c

theorem isAnyDigit_of_mem_digits {width n : Nat} {c : Char} (hc : c ∈ digits width n) :
    isAnyDigit c = true := by
  have hdigit := isDigit_of_mem_digits hc
  rw [isAnyDigit, asciiDigit_of_isDigit hdigit]
  exact hdigit

theorem not_isSpace_of_isDigit {c : Char} (h : c.isDigit = true) : isSpace c = false := by
  have hbounds : 48 ≤ c.toNat ∧ c.toNat ≤ 57 := by
    simpa [Char.isDigit, UInt32.le_iff_toNat_le] using h
  simp only [isSpace, decide_eq_false_iff_not, List.mem_cons, List.not_mem_nil, or_false]
  omega

theorem strip_eq_self {p : Char → Bool} {text : List Char} (h : ∀ c ∈ text, p c = false) :
    strip p text = text := by
  have hkeep (l : List Char) (hl : ∀ c ∈ l, p c = false) : l.dropWhile p = l :=
    List.dropWhile_eq_self_iff.mpr fun hlen => by
      rw [hl _ (List.getElem_mem hlen)]
      exact Bool.false_ne_true
  unfold strip
  rw [hkeep text h, hkeep text.reverse fun c hc => h c (List.mem_reverse.mp hc),
    List.reverse_reverse]

theorem dropUnderscores_eq_self {text : List Char} (h : ∀ c ∈ text, c.isDigit = true)
    (after : Bool) : dropUnderscores after text = some text := by
  induction text generalizing after with
  | nil => rfl
  | cons c text ih =>
    have hc : c ≠ '_' := by
      rintro rfl
      exact absurd (h '_' List.mem_cons_self) (by decide)
    rw [dropUnderscores]
    · rw [ih fun d hd => h d (List.mem_cons_of_mem c hd)]
      rfl
    · exact hc

theorem sign_eq_self {text : List Char} (h : ∀ c ∈ text, c.isDigit = true) :
    sign text = (false, text) := by
  unfold sign
  split
  · exact absurd (h '-' List.mem_cons_self) (by decide)
  · exact absurd (h '+' List.mem_cons_self) (by decide)
  · rfl

theorem natOfDigits_digits {width n : Nat} (h : n < 10 ^ width) :
    natOfDigits (digits width n) = n := by
  have hdigit : ∀ d < 10, (Nat.digitChar d).toNat - 48 = d := by decide
  induction width generalizing n with
  | zero =>
    obtain rfl : n = 0 := by simpa using h
    rfl
  | succ width ih =>
    have hn : n / 10 < 10 ^ width := Nat.div_lt_of_lt_mul (by rwa [pow_succ'] at h)
    have hlast := hdigit (n % 10) (Nat.mod_lt n (by omega))
    unfold natOfDigits at ih ⊢
    rw [digits, List.foldl_append, ih hn, List.foldl_cons, List.foldl_nil, hlast]
    omega

/-- `int` reads a decimal back. -/
theorem intOfText_digits {width n : Nat} (hwidth : 0 < width ∧ width ≤ maxStrDigits)
    (h : n < 10 ^ width) : intOfText (strip isSpace (digits width n)) = some (n : Int) := by
  have hall : ∀ c ∈ digits width n, c.isDigit = true := fun c hc => isDigit_of_mem_digits hc
  have hascii : (digits width n).map asciiDigit = digits width n := by
    rw [List.map_congr_left fun c hc => asciiDigit_of_isDigit (hall c hc), List.map_id']
  have hne : digits width n ≠ [] := by
    rw [← List.length_pos_iff, length_digits]
    exact hwidth.1
  have hsigned : signed (digits width n) = some (false, digits width n) := by
    unfold signed
    rw [hascii, dropUnderscores_eq_self hall, Option.map_some, sign_eq_self hall]
  unfold intOfText
  rw [strip_eq_self fun c hc => not_isSpace_of_isDigit (hall c hc), hsigned]
  dsimp only
  rw [if_pos ⟨hne, List.all_eq_true.mpr hall, by rw [length_digits]; exact hwidth.2⟩,
    natOfDigits_digits h]
  rfl

/-! ## Formats are read back -/

/-- How many digits the directive writes. -/
def Directive.width : Directive → Nat
  | year => 4
  | month | day | hour => 2

theorem Directive.width_bounds (d : Directive) : 0 < d.width ∧ d.width ≤ maxStrDigits := by
  cases d <;> decide

/-- The numbers of the directive. -/
def Directive.Admits : Directive → Nat → Prop
  | year, n => n < 10000
  | month, n => 1 ≤ n ∧ n ≤ 12
  | day, n => 1 ≤ n ∧ n ≤ 31
  | hour, n => n < 24

theorem Directive.Admits.lt_pow {d : Directive} {n : Nat} (h : d.Admits n) :
    n < 10 ^ d.width := by
  cases d with
  | year => exact h
  | month => exact Nat.lt_of_le_of_lt h.2 (by decide)
  | day => exact Nat.lt_of_le_of_lt h.2 (by decide)
  | hour => exact Nat.lt_trans h (by decide)

theorem matchClasses_replicate (p : Char → Bool) {text : List Char}
    (h : ∀ c ∈ text, p c = true) (rest : List Char) :
    matchClasses (List.replicate text.length p) (text ++ rest) = some (text, rest) := by
  induction text with
  | nil => rfl
  | cons c text ih =>
    rw [List.length_cons, List.replicate_succ, List.cons_append, matchClasses,
      if_pos (h c List.mem_cons_self), ih fun d hd => h d (List.mem_cons_of_mem c hd)]
    rfl

/-- The first way to match a directive takes the number that was written. -/
theorem Directive.head?_readings {d : Directive} {n : Nat} (h : d.Admits n) (rest : List Char) :
    (d.readings (digits d.width n ++ rest)).head? = some (digits d.width n, rest) := by
  cases d with
  | year =>
    have hmatch : matchClasses (List.replicate 4 isAnyDigit) (digits 4 n ++ rest) =
        some (digits 4 n, rest) := by
      have h := matchClasses_replicate isAnyDigit
        (fun c (hc : c ∈ digits 4 n) => isAnyDigit_of_mem_digits hc) rest
      rwa [length_digits] at h
    show ([List.replicate 4 isAnyDigit].filterMap fun classes =>
      matchClasses classes (digits 4 n ++ rest)).head? = some (digits 4 n, rest)
    simp only [List.filterMap_cons, hmatch, List.head?_cons]
  | month =>
    obtain ⟨hone, htwelve⟩ := h
    interval_cases n
    all_goals rfl
  | day =>
    obtain ⟨hone, hlast⟩ := h
    interval_cases n
    all_goals rfl
  | hour =>
    have hlast : n < 24 := h
    interval_cases n
    all_goals rfl

theorem dropLiteral_append (literal s : List Char) :
    dropLiteral literal (literal ++ s) = some s := by
  induction literal with
  | nil => rfl
  | cons c literal ih => rw [List.cons_append, dropLiteral, if_pos rfl, ih]

/-- The layout in which a format is written with full widths. -/
def Format.layout (format : Format) : Layout := format.map fun field => (field.1, field.2.width)

/-- There is one number for each directive, and the directive admits it. -/
def Format.Admits (format : Format) (ns : List Nat) : Prop :=
  List.Forall₂ (fun field n => field.2.Admits n) format ns

/-- Numbers that the directives admit fit into the layout. -/
theorem Format.Admits.fits {format : Format} {ns : List Nat} (h : Format.Admits format ns) :
    FitsLayout (Format.layout format) ns := by
  induction h with
  | nil => exact .nil
  | cons hn _ ih => exact .cons (Directive.Admits.lt_pow hn) ih

/-- The first way to match a format takes the numbers that were written. -/
theorem exists_head?_matchFormat {format : Format} {ns : List Nat} (h : Format.Admits format ns) :
    ∃ fields, (matchFormat format (render (Format.layout format) ns)).head? = some (fields, []) ∧
      fields.mapM numberOfField = some ((format.map Prod.snd).zip ns) := by
  induction h with
  | nil => exact ⟨[], rfl, rfl⟩
  | @cons field n format ns hn hrest ih =>
    obtain ⟨literal, d⟩ := field
    obtain ⟨fields, hhead, hnumbers⟩ := ih
    obtain ⟨ways, hways⟩ : ∃ ways, d.readings
        (digits d.width n ++ render (Format.layout format) ns) =
        (digits d.width n, render (Format.layout format) ns) :: ways := by
      have hfirst := Directive.head?_readings hn (render (Format.layout format) ns)
      exact ⟨_, (List.cons_head?_tail hfirst).symm⟩
    refine ⟨(d, digits d.width n) :: fields, ?_, ?_⟩
    · show (matchFormat ((literal, d) :: format)
        (literal ++ (digits d.width n ++ render (Format.layout format) ns))).head? = _
      rw [matchFormat, dropLiteral_append]
      dsimp only
      rw [hways, List.head?_flatMap, List.findSome?_cons, List.head?_map, hhead]
      rfl
    · have hnumber : numberOfField (d, digits d.width n) = some (d, n) := by
        unfold numberOfField
        rw [intOfText_digits d.width_bounds (Directive.Admits.lt_pow hn)]
        rfl
      rw [List.mapM_cons, hnumber, hnumbers]
      rfl

/-- What was written with full widths is read back. -/
theorem strptime_render {format : Format} {ns : List Nat} (h : Format.Admits format ns) :
    strptime format (String.ofList (render (Format.layout format) ns)) =
      checkDate (timeOfFields ((format.map Prod.snd).zip ns)) := by
  obtain ⟨fields, hhead, hnumbers⟩ := exists_head?_matchFormat h
  unfold strptime
  rw [String.toList_ofList, hhead]
  dsimp only
  rw [hnumbers]
  rfl

end DustMonitoring.Lib
