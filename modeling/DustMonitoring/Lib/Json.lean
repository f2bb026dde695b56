import DustMonitoring.Lib.Double

/-!
# Decoded JSON

The values a JSON text is decoded to, with the two operations the source
uses on them: `get`, the lookup of a key that gives `null` for a missing
one, and `or`, which passes over a value that counts as false.
-/

namespace DustMonitoring.Lib

/-- A decoded JSON value. -/
inductive Json where
  | null
  | bool (b : Bool)
  | int (n : Int)
  | float (d : Double)
  | str (s : String)
  | arr (items : List Json)
  | obj (fields : List (String × Json))

namespace Json

/-- The value under a key, `null` when the key is missing. -/
def get (fields : List (String × Json)) (key : String) : Json :=
  (fields.lookup key).getD null

/-- Whether a value counts as true. -/
def truthy : Json → Bool
  | null => false
  | bool b => b
  | int n => n != 0
  | float d => d != .finite 0
  | str s => s != ""
  | arr items => !items.isEmpty
  | obj fields => !fields.isEmpty

/-- `a or b`. -/
def or (a b : Json) : Json := if a.truthy then a else b

/-- The name of the type that the value is decoded to. -/
def typeName : Json → String
  | null => "NoneType"
  | bool _ => "bool"
  | int _ => "int"
  | float _ => "float"
  | str _ => "str"
  | arr _ => "list"
  | obj _ => "dict"

/-! ## Keys of dictionaries -/

/-- What a value is as a key: numbers that are equal are one key, whatever
their types. -/
inductive Key where
  | none
  | number (q : Rat)
  | posInf
  | negInf
  | nan
  | text (s : String)
deriving DecidableEq, Repr

/-- The key that a value is.  Lists and objects are none (`unhashable
type`). -/
def key? : Json → Option Key
  | null => some .none
  | bool b => some (.number (if b then 1 else 0))
  | int n => some (.number n)
  | float (.finite q) => some (.number q)
  | float .posInf => some .posInf
  | float .negInf => some .negInf
  | float .nan => some .nan
  | str s => some (.text s)
  | arr _ => Option.none
  | obj _ => Option.none

/-- The error of a value that is no key. -/
def unhashable (value : Json) : String :=
  let type := value.typeName
  s!"unhashable type: '{type}'"

end Json

end DustMonitoring.Lib
