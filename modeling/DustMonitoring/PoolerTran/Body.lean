import DustMonitoring.Lib.Json
import DustMonitoring.Schema.Decision

/-!
# Reading the answer of the REST server

The server answers a batch with two results, one of the static and one of
the dynamic analysis.  The functions here take the two scores and the
first image path out of whatever the server sent, and grade a score
against its threshold.

An exception is represented by its `repr`.  `oneResult` swallows the
`TypeError` and `ValueError` of `float(..)` but not the `OverflowError`,
and `classify` raises when a score that is not a number meets a threshold.
-/

namespace DustMonitoring.PoolerTran

open DustMonitoring.Lib DustMonitoring.Schema

/-- `float(x)`, where `none` is a `TypeError` or a `ValueError`.  What it
makes of a text is `floatOfStr`. -/
def toFloat (floatOfStr : String → Option Double) :
    Json → Except String (Option Double)
  | .bool b => .ok (some (.finite (if b then 1 else 0)))
  | .int n =>
    match Double.ofInt n with
    | some d => .ok (some d)
    | none => .error "OverflowError('int too large to convert to float')"
  | .float d => .ok (some d)
  | .str s => .ok (floatOfStr s)
  | .null | .arr _ | .obj _ => .ok none

/-- `_extract_score_image`. -/
def extractScoreImage : Json → Json × Json
  | .obj fields =>
    (Json.get fields "score",
      (Json.get fields "image_path").or (Json.get fields "file_path"))
  | _ => (.null, .null)

/-- `_one_result`: the score of one element of the answer. -/
def oneResult (floatOfStr : String → Option Double) :
    Json → Except String (Option Double)
  | .arr (score :: _) => toFloat floatOfStr score
  | .obj fields => toFloat floatOfStr (Json.get fields "score")
  | elem => toFloat floatOfStr elem

/-- A score as a value again. -/
def ofScore : Option Double → Json
  | none => .null
  | some d => .float d

/-- `_extract_dual`: the static and the dynamic score. -/
def extractDual (floatOfStr : String → Option Double) :
    Json → Except String (Json × Json)
  | .arr (static :: dynamic :: _) => do
    let s ← oneResult floatOfStr static
    let d ← oneResult floatOfStr dynamic
    pure (ofScore s, ofScore d)
  | .arr [elem] => do
    let s ← oneResult floatOfStr elem
    pure (ofScore s, ofScore s)
  | .obj fields =>
    let s := (extractScoreImage (.obj fields)).1
    pure (s, s)
  | _ => pure (.null, .null)

/-- `value > threshold`. -/
def gtThreshold (threshold : Double) : Json → Except String Bool
  | .bool b => .ok (Double.gt (.finite (if b then 1 else 0)) threshold)
  | .int n => .ok (Double.gt (.finite n) threshold)
  | .float d => .ok (Double.gt d threshold)
  | value =>
    .error ("TypeError(\"'>' not supported between instances of '" ++
      value.typeName ++ "' and 'float'\")")

/-- `_classify`: grade a value against its threshold.  Without a value or
a threshold the grade is `normal`. -/
def classify (value : Json) (threshold : Option Double) :
    Except String ChannelResult :=
  match value, threshold with
  | .null, _ => .ok .normal
  | _, none => .ok .normal
  | value, some t => do
    let above ← gtThreshold t value
    pure (if above then .abnormal else .normal)

/-- `_static_p1`: the first image path of the static result. -/
def staticP1 : Json → Json
  | .arr (.arr (_ :: path :: _) :: _) => path
  | .arr (.obj fields :: _) | .obj fields =>
    ((Json.get fields "path1").or (Json.get fields "image_path")).or
      (Json.get fields "file_path")
  | _ => .null

/-- Why a file could not be read. -/
inductive ReadError where
  | osError
  | other (repr : String)

/-- The alphabet of Base64. -/
def b64Alphabet : List Char :=
  "ABCDEFGHIJKLMNOPQRSTUVWXYZabcdefghijklmnopqrstuvwxyz0123456789+/".toList

/-- `base64.b64encode`: three bytes give four letters, and the last group
is padded. -/
def b64encode : List UInt8 → List Char
  | [] => []
  | [a] =>
    let n := a.toNat * 65536
    [letter (n / 262144), letter (n / 4096 % 64), '=', '=']
  | [a, b] =>
    let n := a.toNat * 65536 + b.toNat * 256
    [letter (n / 262144), letter (n / 4096 % 64), letter (n / 64 % 64), '=']
  | a :: b :: c :: rest =>
    let n := a.toNat * 65536 + b.toNat * 256 + c.toNat
    letter (n / 262144) :: letter (n / 4096 % 64) :: letter (n / 64 % 64) ::
      letter (n % 64) :: b64encode rest
where
  letter (i : Nat) : Char := b64Alphabet.getD i '='

example : String.ofList (b64encode [77, 97, 110, 77, 97]) = "TWFuTWE=" := by decide

/-- `_encode_b64`: the file under the path in Base64.  There is none when
there is no path or the file cannot be read. -/
def encodeB64 (readBytes : String → Except ReadError (List UInt8)) (path : Json) :
    Except String (Option String) :=
  if path.truthy then
    match path with
    | .str s =>
      match readBytes s with
      | .ok data => .ok (some (String.ofList (b64encode data)))
      | .error .osError => .ok none
      | .error (.other repr) => .error repr
    | value =>
      .error ("TypeError('expected str, bytes or os.PathLike object, not " ++
        value.typeName ++ "')")
  else .ok none

end DustMonitoring.PoolerTran
