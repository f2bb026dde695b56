import Mathlib.Data.List.Basic
import Mathlib.Data.List.Infix
import Mathlib.Data.List.TakeWhile

/-!
# UUIDs in texts

The constructor of `uuid.UUID` takes a text in several forms: it leaves out
`urn:` and `uuid:`, braces around the text and all hyphens, and reads what
is left as a number in base 16, which has to be 32 characters long.

`int` also takes blanks and decimal digits outside ASCII, such as the wide
ones.  They are not modelled: a text with one of them is no UUID here.

* `not_mem_of_parseUuid`: what it takes has no slash.
-/

namespace DustMonitoring.Lib

/-! ## Texts -/

/-- `str.replace(pat, "")`; so many characters of an occurrence are still to
be skipped. -/
def removeAll (pat : List Char) : Nat → List Char → List Char
  | _, [] => []
  | skip + 1, _ :: cs => removeAll pat skip cs
  | 0, c :: cs =>
    if pat.isPrefixOf (c :: cs) then removeAll pat (pat.length - 1) cs
    else c :: removeAll pat 0 cs

/-- `str.strip`. -/
def strip (p : Char → Bool) (l : List Char) : List Char :=
  ((l.dropWhile p).reverse.dropWhile p).reverse

/-- What is not in the pattern stays. -/
theorem mem_removeAll {pat : List Char} {x : Char} (hpat : pat ≠ []) (hx : x ∉ pat)
    {l : List Char} :
    ∀ {skip : Nat}, (∀ y ∈ l.take skip, y ∈ pat) → x ∈ l → x ∈ removeAll pat skip l := by
  induction l with
  | nil => exact fun _ h => h
  | cons c cs ih =>
    intro skip hskip hmem
    cases skip with
    | succ skip =>
      have hc : c ∈ pat := hskip c (by simp)
      have hne : x ≠ c := fun heq => hx (heq ▸ hc)
      refine ih (fun y hy => hskip y ?_) ((List.mem_cons.mp hmem).resolve_left hne)
      rw [List.take_succ_cons]
      exact List.mem_cons_of_mem c hy
    | zero =>
      rw [removeAll]
      split
      · next hprefix =>
        obtain ⟨rest, hrest⟩ := List.isPrefixOf_iff_prefix.mp hprefix
        have htake : ∀ y ∈ (c :: cs).take pat.length, y ∈ pat := by
          rw [← hrest, List.take_left']
          · exact fun y hy => hy
          · rfl
        cases hlen : pat.length with
        | zero => exact absurd (List.length_eq_zero_iff.mp hlen) hpat
        | succ n =>
          rw [hlen, List.take_succ_cons] at htake
          have hne : x ≠ c := fun heq => hx (heq ▸ htake c List.mem_cons_self)
          exact ih (fun y hy => htake y (List.mem_cons_of_mem c hy))
            ((List.mem_cons.mp hmem).resolve_left hne)
      · rcases List.mem_cons.mp hmem with rfl | hmem
        · exact List.mem_cons_self
        · exact List.mem_cons_of_mem c (ih (fun y hy => by simp at hy) hmem)

theorem mem_dropWhile {p : Char → Bool} {x : Char} (hx : p x = false) {l : List Char}
    (h : x ∈ l) : x ∈ l.dropWhile p := by
  rw [← List.takeWhile_append_dropWhile (p := p) (l := l), List.mem_append] at h
  refine h.resolve_left fun htake => ?_
  rw [List.mem_takeWhile_imp htake] at hx
  contradiction

/-- What is not stripped stays. -/
theorem mem_strip {p : Char → Bool} {x : Char} (hx : p x = false) {l : List Char}
    (h : x ∈ l) : x ∈ strip p l := by
  rw [strip, List.mem_reverse]
  exact mem_dropWhile hx (List.mem_reverse.mpr (mem_dropWhile hx h))

/-! ## Numbers in base 16 -/

/-- The value of a digit. -/
def hexValue (c : Char) : Option Nat :=
  if '0' ≤ c ∧ c ≤ '9' then some (c.toNat - 48)
  else if 'a' ≤ c ∧ c ≤ 'f' then some (c.toNat - 87)
  else if 'A' ≤ c ∧ c ≤ 'F' then some (c.toNat - 55)
  else none

/-- Digits, with an underscore between two of them at most. -/
def hexDigits (acc : Nat) : List Char → Option Nat
  | [] => some acc
  | '_' :: c :: cs => (hexValue c).bind fun d => hexDigits (acc * 16 + d) cs
  | c :: cs => (hexValue c).bind fun d => hexDigits (acc * 16 + d) cs

/-- The white space of `int`. -/
def isBlank (c : Char) : Bool := c == ' ' || decide ('\t' ≤ c ∧ c ≤ '\r')

def dropSign : List Char → List Char
  | '+' :: cs => cs
  | cs => cs

def dropBase : List Char → List Char
  | '0' :: 'x' :: '_' :: cs => cs
  | '0' :: 'X' :: '_' :: cs => cs
  | '0' :: 'x' :: cs => cs
  | '0' :: 'X' :: cs => cs
  | cs => cs

/-- `int(hex, 16)`. -/
def intBase16 (l : List Char) : Option Nat :=
  match dropBase (dropSign (strip isBlank l)) with
  | [] => none
  | c :: cs => (hexValue c).bind fun d => hexDigits d cs

theorem mem_dropSign {l : List Char} (h : '/' ∈ l) : '/' ∈ dropSign l := by
  unfold dropSign
  split
  · exact (List.mem_cons.mp h).resolve_left (by decide)
  · exact h

theorem mem_dropBase {l : List Char} (h : '/' ∈ l) : '/' ∈ dropBase l := by
  unfold dropBase
  split <;> simp_all

theorem hexValue_slash : hexValue '/' = none := by decide

theorem not_mem_of_hexDigits {l : List Char} {acc n : Nat} (h : hexDigits acc l = some n) :
    '/' ∉ l := by
  fun_induction hexDigits acc l with
  | case1 acc => exact List.not_mem_nil
  | case2 acc c cs ih =>
    obtain ⟨d, hd, hcs⟩ := Option.bind_eq_some_iff.mp h
    intro hmem
    rcases List.mem_cons.mp hmem with hc | hmem
    · contradiction
    · rcases List.mem_cons.mp hmem with hc | hmem
      · rw [← hc, hexValue_slash] at hd
        contradiction
      · exact ih d hcs hmem
  | case3 acc c cs _ ih =>
    obtain ⟨d, hd, hcs⟩ := Option.bind_eq_some_iff.mp h
    intro hmem
    rcases List.mem_cons.mp hmem with hc | hmem
    · rw [← hc, hexValue_slash] at hd
      contradiction
    · exact ih d hcs hmem

/-- A number has no slash. -/
theorem not_mem_of_intBase16 {l : List Char} {n : Nat} (h : intBase16 l = some n) : '/' ∉ l := by
  intro hslash
  have hdigits : '/' ∈ dropBase (dropSign (strip isBlank l)) :=
    mem_dropBase (mem_dropSign (mem_strip (by decide) hslash))
  unfold intBase16 at h
  split at h
  · contradiction
  · next c cs heq =>
    obtain ⟨d, hd, hcs⟩ := Option.bind_eq_some_iff.mp h
    rw [heq] at hdigits
    rcases List.mem_cons.mp hdigits with hc | hmem
    · rw [← hc, hexValue_slash] at hd
      contradiction
    · exact not_mem_of_hexDigits hcs hmem

/-- `uuid.UUID`; `none` is the `ValueError`. -/
def parseUuid (text : String) : Option Nat :=
  let hex := removeAll "uuid:".toList 0 (removeAll "urn:".toList 0 text.toList)
  let hex := (strip (fun c => c == '{' || c == '}') hex).filter fun c => c != '-'
  if hex.length = 32 then intBase16 hex else none

/-- A text that is taken has no slash. -/
theorem not_mem_of_parseUuid {text : String} {n : Nat} (h : parseUuid text = some n) :
    '/' ∉ text.toList := by
  intro hslash
  have hurn : '/' ∈ removeAll "urn:".toList 0 text.toList :=
    mem_removeAll (by decide) (by decide) (fun y hy => by simp at hy) hslash
  have huuid : '/' ∈ removeAll "uuid:".toList 0 (removeAll "urn:".toList 0 text.toList) :=
    mem_removeAll (by decide) (by decide) (fun y hy => by simp at hy) hurn
  unfold parseUuid at h
  dsimp only at h
  split at h
  · refine not_mem_of_intBase16 h (List.mem_filter.mpr ⟨mem_strip (by decide) huuid, by decide⟩)
  · contradiction

example : parseUuid "urn:uuid:00000000-0000-0000-0000-0000000000fF" = some 255 := by
  decide +kernel

example : parseUuid "video-1" = none := by decide +kernel

/-! ## The text of a UUID -/

/-- The digits in groups of 8, 4, 4, 4 and 12. -/
def uuidText (u : BitVec 128) : String :=
  let digits := (List.range 32).map fun i => Nat.digitChar (u.toNat >>> (4 * (31 - i)) % 16)
  let groups := [digits.take 8, (digits.drop 8).take 4, (digits.drop 12).take 4,
    (digits.drop 16).take 4, digits.drop 20]
  String.ofList (['-'].intercalate groups)

example : uuidText 255 = "00000000-0000-0000-0000-0000000000ff" := by decide +kernel

end DustMonitoring.Lib
