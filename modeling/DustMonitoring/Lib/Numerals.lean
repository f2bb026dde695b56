import Mathlib.Algebra.Field.Rat
import Mathlib.Algebra.Order.Ring.Rat
import DustMonitoring.Lib.Double
import DustMonitoring.Lib.Uuid

/-!
# Numbers in texts

`str.strip`, `int` and `float` of Python 3.11.  A text is first read as a
`Numeral`, which says what is written there, and then made a double; `float`
also takes the words for NaN and the infinities.

* `isFinite_toDouble_iff`: the double is finite exactly when the text is a
  decimal number in the range of the doubles.
-/

namespace DustMonitoring.Lib

/-! ## Characters -/

/-- `str.isspace`. -/
def isSpace (c : Char) : Bool :=
  c.toNat ∈ [0x9, 0xA, 0xB, 0xC, 0xD, 0x1C, 0x1D, 0x1E, 0x1F, 0x20, 0x85, 0xA0, 0x1680, 0x2000,
    0x2001, 0x2002, 0x2003, 0x2004, 0x2005, 0x2006, 0x2007, 0x2008, 0x2009, 0x200A, 0x2028,
    0x2029, 0x202F, 0x205F, 0x3000]

/-- The zeros of Unicode, each of them followed by the other nine digits. -/
def decimalZeros : List Nat :=
  [0x30, 0x660, 0x6F0, 0x7C0, 0x966, 0x9E6, 0xA66, 0xAE6, 0xB66, 0xBE6, 0xC66, 0xCE6, 0xD66,
    0xDE6, 0xE50, 0xED0, 0xF20, 0x1040, 0x1090, 0x17E0, 0x1810, 0x1946, 0x19D0, 0x1A80, 0x1A90,
    0x1B50, 0x1BB0, 0x1C40, 0x1C50, 0xA620, 0xA8D0, 0xA900, 0xA9D0, 0xA9F0, 0xAA50, 0xABF0,
    0xFF10, 0x104A0, 0x10D30, 0x11066, 0x110F0, 0x11136, 0x111D0, 0x112F0, 0x11450, 0x114D0,
    0x11650, 0x116C0, 0x11730, 0x118E0, 0x11950, 0x11C50, 0x11D50, 0x11DA0, 0x16A60, 0x16AC0,
    0x16B50, 0x1D7CE, 0x1D7D8, 0x1D7E2, 0x1D7EC, 0x1D7F6, 0x1E140, 0x1E2F0, 0x1E950, 0x1FBF0]

/-- A decimal digit of any script as the ASCII digit. -/
def asciiDigit (c : Char) : Char :=
  match decimalZeros.find? fun z => decide (z ≤ c.toNat ∧ c.toNat < z + 10) with
  | some z => Char.ofNat (c.toNat - z + 48)
  | none => c

/-- Take out the underscores, each of which has to stand between two digits. -/
def dropUnderscores : Bool → List Char → Option (List Char)
  | _, [] => some []
  | afterDigit, '_' :: cs =>
    if afterDigit && cs.head?.any Char.isDigit then dropUnderscores false cs else none
  | _, c :: cs => (dropUnderscores c.isDigit cs).map (c :: ·)

/-- The sign, and what stands behind it. -/
def sign : List Char → Bool × List Char
  | '-' :: cs => (true, cs)
  | '+' :: cs => (false, cs)
  | cs => (false, cs)

/-- The value of ASCII digits. -/
def natOfDigits (cs : List Char) : Nat := cs.foldl (fun acc c => acc * 10 + (c.toNat - 48)) 0

/-- Sign and rest of a stripped text. -/
def signed (text : List Char) : Option (Bool × List Char) :=
  (dropUnderscores false (text.map asciiDigit)).map sign

/-! ## `int` -/

/-- `sys.int_info.default_max_str_digits`. -/
def maxStrDigits : Nat := 4300

/-- `int(text)` of a stripped text; `none` is the `ValueError`. -/
def intOfText (text : List Char) : Option Int :=
  match signed text with
  | none => none
  | some (neg, digits) =>
    if digits ≠ [] ∧ digits.all Char.isDigit ∧ digits.length ≤ maxStrDigits then
      some (if neg then -(natOfDigits digits : Int) else natOfDigits digits)
    else none

example : intOfText "-1_102".toList = some (-1102) ∧ intOfText "１".toList = some 1 ∧
    intOfText "1__0".toList = none ∧ intOfText "0x1".toList = none := by
  decide +kernel

/-! ## `float` -/

/-- What is written: a word, or a decimal number. -/
inductive Numeral where
  | nan
  | infinity (neg : Bool)
  | decimal (q : Rat)
deriving DecidableEq, Repr

/-- The exponent of a decimal number. -/
def exponent : List Char → Option Int
  | [] => some 0
  | c :: cs =>
    if c = 'e' ∨ c = 'E' then
      let (neg, digits) := sign cs
      if digits ≠ [] ∧ digits.all Char.isDigit then
        some (if neg then -(natOfDigits digits : Int) else natOfDigits digits)
      else none
    else none

/-- A decimal number without sign. -/
def decimalValue (cs : List Char) : Option Rat :=
  let whole := cs.takeWhile Char.isDigit
  let rest := cs.dropWhile Char.isDigit
  let (frac, rest) := match rest with
    | '.' :: cs => (cs.takeWhile Char.isDigit, cs.dropWhile Char.isDigit)
    | _ => ([], rest)
  if whole = [] ∧ frac = [] then none
  else (exponent rest).map fun e => natOfDigits (whole ++ frac) * (10 : Rat) ^ (e - (frac.length : Int))

/-- What a stripped text is read as. -/
def numeral (text : List Char) : Option Numeral :=
  match signed text with
  | none => none
  | some (neg, body) =>
    let word := body.map Char.toLower
    if word = "nan".toList then some .nan
    else if word = "inf".toList ∨ word = "infinity".toList then some (.infinity neg)
    else (decimalValue body).map fun q => .decimal (if neg then -q else q)

/-- From here on a number is rounded to an infinity. -/
def doubleLimit : Rat := 2 ^ 1024 - 2 ^ 970

/-- The number is in the range of the doubles. -/
def Numeral.InRange : Numeral → Prop
  | nan | infinity _ => False
  | decimal q => -doubleLimit < q ∧ q < doubleLimit

instance : DecidablePred Numeral.InRange
  | .nan | .infinity _ => isFalse id
  | .decimal q => inferInstanceAs (Decidable (-doubleLimit < q ∧ q < doubleLimit))

/-- The double of what is written. -/
def Numeral.toDouble : Numeral → Double
  | nan => .nan
  | infinity neg => if neg then .negInf else .posInf
  | decimal q =>
    if -doubleLimit < q ∧ q < doubleLimit then .finite q
    else if q < 0 then .negInf
    else .posInf

/-- `float(text)` of a stripped text; `none` is the `ValueError`. -/
def floatOfText (text : List Char) : Option Double := (numeral text).map Numeral.toDouble

example : floatOfText "-1_0.25e1".toList = some (.finite (-205 / 2)) ∧
    floatOfText "NaN".toList = some .nan ∧ floatOfText "-Infinity".toList = some .negInf ∧
    floatOfText "1e309".toList = some .posInf ∧ floatOfText "1e".toList = none := by
  decide +kernel

/-- `math.isfinite`. -/
def Double.IsFinite : Double → Prop
  | finite _ => True
  | nan | negInf | posInf => False

instance : DecidablePred Double.IsFinite
  | .finite _ => isTrue trivial
  | .nan | .negInf | .posInf => isFalse id

theorem isFinite_toDouble_iff (n : Numeral) : n.toDouble.IsFinite ↔ n.InRange := by
  cases n with
  | nan => exact Iff.rfl
  | infinity neg => cases neg <;> exact Iff.rfl
  | decimal q =>
    simp only [Numeral.toDouble, Numeral.InRange]
    split
    · next h => exact iff_of_true trivial h
    · next h =>
      refine iff_of_false ?_ h
      split <;> exact id

end DustMonitoring.Lib
