import Mathlib.Data.List.Infix
import DustMonitoring.Lib.Text

/-!
# Glob patterns

The patterns of Redis, over bytes: `*` for any bytes, `?` for one, `[ae]`,
`[a-e]` and `[^e]` for one of a class, and a backslash before a byte that
stands for itself.  A class that is not closed ends with the pattern.

A pattern is read byte by byte into tokens.  `Closed` patterns end outside of
a class and not after a backslash, and only these can be put before another
pattern.

* `glob_append`: a closed pattern and another one.
* `glob_plain_append`: what is no pattern matches itself.
* `glob_field`: a star after a separator takes the last field of a text.
* `glob_stem_append`: before another byte, a lone backslash at the end is lost.
* `glob_open_append`: a class that is left open takes in what is put behind it.
-/

namespace DustMonitoring.Lib.Glob

open DustMonitoring.Lib

/-! ## Tokens -/

/-- A class of bytes: those in one of the ranges, or the others. -/
structure ByteClass where
  negated : Bool := false
  ranges : List (UInt8 × UInt8)
deriving DecidableEq

/-- The byte is in the range, whichever of its ends comes first.  Bytes have no
sign here.  Where `char` has one, as on x86, the ends of a range across `0x80`
come in the other order, and Redis takes the bytes between them in that one. -/
def inRange (c : UInt8) (r : UInt8 × UInt8) : Bool :=
  decide (min r.1.toNat r.2.toNat ≤ c.toNat) && decide (c.toNat ≤ max r.1.toNat r.2.toNat)

def ByteClass.holds (p : ByteClass) (c : UInt8) : Bool := (p.ranges.any (inRange c)) != p.negated

/-- Any bytes, or one byte of a class. -/
inductive Tok where
  | star
  | one (p : ByteClass)
deriving DecidableEq

/-- The byte itself. -/
def lit (b : UInt8) : Tok := .one { ranges := [(b, b)] }

/-- Whether the tokens match the bytes. -/
def matchToks : List Tok → List UInt8 → Bool
  | [], s => s.isEmpty
  | .star :: ts, s => s.tails.any fun rest => matchToks ts rest
  | .one _ :: _, [] => false
  | .one p :: ts, c :: s => p.holds c && matchToks ts s

/-! ## Reading a pattern -/

/-- What was read last in a class and is not settled yet. -/
inductive Pending where
  | nothing
  | byte (a : UInt8)
  | range (a : UInt8)
  | escape
deriving DecidableEq

/-- Where a reader of a pattern is: outside of a class, after a backslash, after
an opening bracket, or among the members of a class. -/
inductive Mode where
  | text
  | escape
  | opened
  | members (negated : Bool) (ranges : List (UInt8 × UInt8)) (pending : Pending)
deriving DecidableEq

/-- A byte in a class with nothing pending. -/
def member (negated : Bool) (ranges : List (UInt8 × UInt8)) (c : UInt8) : Mode × List Tok :=
  if c = '\\'.toUInt8 then (.members negated ranges .escape, [])
  else if c = ']'.toUInt8 then (.text, [.one ⟨negated, ranges⟩])
  else (.members negated ranges (.byte c), [])

/-- The reader after a byte, and the tokens that it has completed. -/
def Mode.next : Mode → UInt8 → Mode × List Tok
  | .text, c =>
    if c = '*'.toUInt8 then (.text, [.star])
    else if c = '?'.toUInt8 then (.text, [.one ⟨true, []⟩])
    else if c = '['.toUInt8 then (.opened, [])
    else if c = '\\'.toUInt8 then (.escape, [])
    else (.text, [lit c])
  | .escape, c => (.text, [lit c])
  | .opened, c =>
    if c = '^'.toUInt8 then (.members true [] .nothing, []) else member false [] c
  | .members negated ranges .nothing, c => member negated ranges c
  | .members negated ranges (.byte a), c =>
    if c = '-'.toUInt8 then (.members negated ranges (.range a), [])
    else member negated (ranges ++ [(a, a)]) c
  | .members negated ranges (.range a), c => (.members negated (ranges ++ [(a, c)]) .nothing, [])
  | .members negated ranges .escape, c => (.members negated (ranges ++ [(c, c)]) .nothing, [])

def Mode.step (m : Mode) (c : UInt8) : Mode := (m.next c).1

def Mode.emit (m : Mode) (c : UInt8) : List Tok := (m.next c).2

/-- The members of a class with what is pending at the end. -/
def Pending.settle (ranges : List (UInt8 × UInt8)) : Pending → List (UInt8 × UInt8)
  | .nothing => ranges
  | .byte a => ranges ++ [(a, a)]
  | .range a => ranges ++ [(a, a), ('-'.toUInt8, '-'.toUInt8)]
  | .escape => ranges ++ [('\\'.toUInt8, '\\'.toUInt8)]

/-- The token that the end of the pattern completes. -/
def Mode.flush : Mode → List Tok
  | .text => []
  | .escape => [lit '\\'.toUInt8]
  | .opened => [.one ⟨false, []⟩]
  | .members negated ranges pending => [.one ⟨negated, pending.settle ranges⟩]

/-- The tokens of a pattern. -/
def tokens (pattern : List UInt8) : List Tok :=
  outputs Mode.step Mode.emit .text pattern ++ (run Mode.step .text pattern).flush

/-- Whether the pattern matches the bytes. -/
def glob (pattern s : List UInt8) : Bool := matchToks (tokens pattern) s

/-- The pattern ends outside of a class and not after a backslash. -/
def Closed (pattern : List UInt8) : Prop := run Mode.step .text pattern = .text

instance : DecidablePred Closed := fun _ => inferInstanceAs (Decidable (_ = _))

/-- The byte stands for itself. -/
def Plain (b : UInt8) : Prop :=
  b ≠ '*'.toUInt8 ∧ b ≠ '?'.toUInt8 ∧ b ≠ '['.toUInt8 ∧ b ≠ '\\'.toUInt8

instance : DecidablePred Plain := fun _ => inferInstanceAs (Decidable (_ ∧ _))

/-! ## Matching -/

theorem matchToks_append {ts us : List Tok} {s : List UInt8} :
    matchToks (ts ++ us) s = true ↔
      ∃ a b, s = a ++ b ∧ matchToks ts a = true ∧ matchToks us b = true := by
  induction ts generalizing s with
  | nil =>
    constructor
    · exact fun h => ⟨[], s, rfl, rfl, h⟩
    · rintro ⟨a, b, rfl, ha, hb⟩
      obtain rfl := List.isEmpty_iff.mp ha
      exact hb
  | cons t ts ih =>
    cases t with
    | star =>
      simp only [List.cons_append, matchToks, List.any_eq_true, List.mem_tails, ih]
      constructor
      · rintro ⟨_, ⟨front, rfl⟩, a, b, rfl, ha, hb⟩
        exact ⟨front ++ a, b, by simp, ⟨a, ⟨front, rfl⟩, ha⟩, hb⟩
      · rintro ⟨_, b, rfl, ⟨a, ⟨front, rfl⟩, ha⟩, hb⟩
        exact ⟨a ++ b, ⟨front, by simp⟩, a, b, rfl, ha, hb⟩
    | one p =>
      cases s with
      | nil =>
        refine iff_of_false (by simp [matchToks]) ?_
        rintro ⟨a, b, h, ha, -⟩
        obtain ⟨rfl, -⟩ := List.append_eq_nil_iff.mp h.symm
        simp [matchToks] at ha
      | cons c s =>
        simp only [List.cons_append, matchToks, Bool.and_eq_true, ih]
        constructor
        · rintro ⟨hc, a, b, rfl, ha, hb⟩
          exact ⟨c :: a, b, rfl, by simp [matchToks, hc, ha], hb⟩
        · rintro ⟨a, b, h, ha, hb⟩
          cases a with
          | nil => simp [matchToks] at ha
          | cons d a =>
            obtain ⟨rfl, rfl⟩ := List.cons.inj h
            simp only [matchToks, Bool.and_eq_true] at ha
            exact ⟨ha.1, a, b, rfl, ha.2, hb⟩

theorem holds_lit {b c : UInt8} : (ByteClass.mk false [(b, b)]).holds c = true ↔ c = b := by
  simp only [ByteClass.holds, inRange, List.any_cons, List.any_nil, Bool.or_false, bne_iff_ne,
    ne_eq, Bool.not_eq_false, Bool.and_eq_true, decide_eq_true_eq, ← UInt8.toNat_inj]
  omega

theorem matchToks_lits {p s : List UInt8} : matchToks (p.map lit) s = true ↔ s = p := by
  induction p generalizing s with
  | nil => exact List.isEmpty_iff
  | cons b p ih =>
    cases s with
    | nil => simp [matchToks, lit]
    | cons c s =>
      simp only [List.map_cons, lit, matchToks, Bool.and_eq_true, holds_lit, List.cons.injEq]
      exact and_congr_right fun _ => ih

/-! ## Patterns that are put together -/

theorem tokens_append {p q : List UInt8} (h : Closed p) : tokens (p ++ q) = tokens p ++ tokens q := by
  have hp : tokens p = outputs Mode.step Mode.emit .text p := by
    rw [tokens, h]
    exact List.append_nil _
  rw [hp, tokens, outputs_append, run_append, h, List.append_assoc]
  rfl

theorem glob_append {p q s : List UInt8} (h : Closed p) :
    glob (p ++ q) s = true ↔ ∃ a b, s = a ++ b ∧ glob p a = true ∧ glob q b = true := by
  unfold glob
  rw [tokens_append h, matchToks_append]

theorem next_of_plain {b : UInt8} (h : Plain b) : Mode.next .text b = (.text, [lit b]) := by
  obtain ⟨hstar, hany, hopen, hescape⟩ := h
  simp only [Mode.next, hstar, hany, hopen, hescape, if_false]

theorem plain_of_all {p : List UInt8} (h : p.all (fun b => decide (Plain b)) = true) :
    ∀ b ∈ p, Plain b := by
  simpa using h

theorem closed_of_plain {p : List UInt8} (h : ∀ b ∈ p, Plain b) : Closed p := by
  induction p with
  | nil => rfl
  | cons b p ih =>
    rw [List.forall_mem_cons] at h
    rw [Closed, run_cons, Mode.step, next_of_plain h.1]
    exact ih h.2

theorem tokens_of_plain {p : List UInt8} (h : ∀ b ∈ p, Plain b) : tokens p = p.map lit := by
  induction p with
  | nil => rfl
  | cons b p ih =>
    rw [List.forall_mem_cons] at h
    have hb : tokens [b] = [lit b] := by
      simp [tokens, outputs, Mode.emit, Mode.step, next_of_plain h.1, Mode.flush]
    rw [← List.singleton_append, tokens_append (closed_of_plain (by simpa using h.1)), hb, ih h.2]
    rfl

/-- What is no pattern matches itself. -/
theorem glob_of_plain {p s : List UInt8} (h : ∀ b ∈ p, Plain b) : glob p s = true ↔ s = p := by
  rw [glob, tokens_of_plain h, matchToks_lits]

theorem glob_plain_append {p q s : List UInt8} (h : ∀ b ∈ p, Plain b) :
    glob (p ++ q) s = true ↔ ∃ rest, s = p ++ rest ∧ glob q rest = true := by
  rw [glob_append (closed_of_plain h)]
  constructor
  · rintro ⟨a, b, rfl, ha, hb⟩
    obtain rfl := (glob_of_plain h).mp ha
    exact ⟨b, rfl, hb⟩
  · rintro ⟨rest, rfl, hrest⟩
    exact ⟨p, rest, rfl, (glob_of_plain h).mpr rfl, hrest⟩

theorem glob_star (s : List UInt8) : glob ['*'.toUInt8] s = true := by
  have htokens : tokens ['*'.toUInt8] = [.star] := rfl
  rw [glob, htokens, matchToks, List.any_eq_true]
  exact ⟨[], (List.mem_tails _ _).mpr List.nil_suffix, rfl⟩

/-- A closed pattern, a byte that stands for itself, and a star. -/
theorem glob_append_star {p s : List UInt8} {b : UInt8} (h : Closed p) (hb : Plain b) :
    glob (p ++ [b, '*'.toUInt8]) s = true ↔
      ∃ front rest, s = front ++ b :: rest ∧ glob p front = true := by
  have hplain : ∀ c ∈ [b], Plain c := by simpa using hb
  rw [← List.singleton_append, glob_append h]
  constructor
  · rintro ⟨front, tail, rfl, hfront, htail⟩
    obtain ⟨rest, rfl, -⟩ := (glob_plain_append hplain).mp htail
    exact ⟨front, rest, rfl, hfront⟩
  · rintro ⟨front, rest, rfl, hfront⟩
    exact ⟨front, b :: rest, rfl, hfront, (glob_plain_append hplain).mpr ⟨rest, rfl, glob_star rest⟩⟩

/-- With a star after a separator, a closed pattern matches what it matches
before one of the separators. -/
theorem glob_field {p s field : List UInt8} {sep : UInt8} (h : Closed p) (hsep : Plain sep)
    (hfield : sep ∉ field) :
    glob (p ++ [sep, '*'.toUInt8]) (s ++ sep :: field) = true ↔
      ∃ part ∈ parts sep s, glob p part = true := by
  rw [glob_append_star h hsep]
  constructor
  · rintro ⟨front, rest, htext, hfront⟩
    exact ⟨front, (mem_parts_iff_append hfield).mpr ⟨rest, htext⟩, hfront⟩
  · rintro ⟨part, hpart, hmatch⟩
    obtain ⟨rest, htext⟩ := (mem_parts_iff_append hfield).mp hpart
    exact ⟨part, rest, htext, hmatch⟩

/-! ## Patterns that are not closed -/

/-- The reader is in a class. -/
def Mode.inClass : Mode → Bool
  | .opened | .members _ _ _ => true
  | .text | .escape => false

/-- The class, if the pattern ended here. -/
def Mode.openClass : Mode → ByteClass
  | .members negated ranges pending => ⟨negated, pending.settle ranges⟩
  | _ => ⟨false, []⟩

/-- The class that the pattern leaves open. -/
def openClass (pattern : List UInt8) : ByteClass := (run Mode.step .text pattern).openClass

/-- What the pattern has completed. -/
def front (pattern : List UInt8) : List Tok := outputs Mode.step Mode.emit .text pattern

theorem flush_of_inClass {m : Mode} (h : m.inClass = true) : m.flush = [.one m.openClass] := by
  cases m with
  | text => contradiction
  | escape => contradiction
  | opened => rfl
  | members negated ranges pending => rfl

theorem member_of_ne {negated : Bool} {ranges : List (UInt8 × UInt8)} {c : UInt8}
    (hc : c ≠ ']'.toUInt8) :
    (member negated ranges c).1.inClass = true ∧ (member negated ranges c).2 = [] := by
  unfold member
  rw [if_neg hc]
  split <;> exact ⟨rfl, rfl⟩

/-- Only a closing bracket ends a class. -/
theorem next_of_inClass {m : Mode} (h : m.inClass = true) {c : UInt8} (hc : c ≠ ']'.toUInt8) :
    (m.next c).1.inClass = true ∧ (m.next c).2 = [] := by
  cases m with
  | text => contradiction
  | escape => contradiction
  | opened =>
    rw [Mode.next]
    split
    · exact ⟨rfl, rfl⟩
    · exact member_of_ne hc
  | members negated ranges pending =>
    cases pending with
    | nothing => exact member_of_ne hc
    | byte a =>
      rw [Mode.next]
      split
      · exact ⟨rfl, rfl⟩
      · exact member_of_ne hc
    | range a => exact ⟨rfl, rfl⟩
    | escape => exact ⟨rfl, rfl⟩

theorem run_of_inClass {m : Mode} (h : m.inClass = true) {p : List UInt8}
    (hp : ']'.toUInt8 ∉ p) :
    (run Mode.step m p).inClass = true ∧ outputs Mode.step Mode.emit m p = [] := by
  induction p generalizing m with
  | nil => exact ⟨h, rfl⟩
  | cons c p ih =>
    rw [List.mem_cons, not_or] at hp
    obtain ⟨hclass, hnone⟩ := next_of_inClass h (Ne.symm hp.1)
    obtain ⟨hclass, houts⟩ : (run Mode.step (m.step c) p).inClass = true ∧
        outputs Mode.step Mode.emit (m.step c) p = [] := ih hclass hp.2
    refine ⟨hclass, ?_⟩
    rw [outputs, houts, List.append_nil]
    exact hnone

/-- One byte more, at the end. -/
theorem matchToks_concat_one {ts : List Tok} {k : ByteClass} {s : List UInt8} :
    matchToks (ts ++ [.one k]) s = true ↔
      s.getLast?.any k.holds = true ∧ matchToks ts s.dropLast = true := by
  rw [matchToks_append, Option.any_eq_true]
  constructor
  · rintro ⟨a, b, rfl, ha, hb⟩
    match b with
    | [] => contradiction
    | [c] =>
      rw [List.getLast?_concat, List.dropLast_concat]
      simp only [matchToks, List.isEmpty_nil, Bool.and_true] at hb
      exact ⟨⟨c, rfl, hb⟩, ha⟩
    | c :: d :: b => simp [matchToks] at hb
  · rintro ⟨⟨c, hlast, hc⟩, hfront⟩
    obtain ⟨a, rfl⟩ := List.getLast?_eq_some_iff.mp hlast
    rw [List.dropLast_concat] at hfront
    exact ⟨a, [c], rfl, hfront, by simpa [matchToks] using hc⟩

/-- Behind an open class the pattern has one byte more, which is in the class. -/
theorem glob_open_append {p q s : List UInt8} (hp : (run Mode.step .text p).inClass = true)
    (hq : ']'.toUInt8 ∉ q) :
    glob (p ++ q) s = (s.getLast?.any (openClass (p ++ q)).holds &&
      matchToks (front p) s.dropLast) := by
  obtain ⟨hclass, hnone⟩ := run_of_inClass hp hq
  have htokens : tokens (p ++ q) = front p ++ [.one (openClass (p ++ q))] := by
    rw [tokens, outputs_append, hnone, List.append_nil, openClass, run_append,
      flush_of_inClass hclass]
    rfl
  rw [glob, htokens, Bool.eq_iff_iff, Bool.and_eq_true]
  exact matchToks_concat_one

/-- The pattern without a lone backslash at its end. -/
def stem (p : List UInt8) : List UInt8 :=
  if run Mode.step .text p = .escape then p.dropLast else p

theorem member_ne_escape (negated : Bool) (ranges : List (UInt8 × UInt8)) (c : UInt8) :
    (member negated ranges c).1 ≠ .escape := by
  unfold member
  split
  · simp
  · split <;> simp

theorem step_eq_escape {m : Mode} {c : UInt8} (h : m.step c = .escape) :
    m = .text ∧ c = '\\'.toUInt8 := by
  cases m with
  | text =>
    refine ⟨rfl, ?_⟩
    by_contra hc
    rw [Mode.step, Mode.next, if_neg hc] at h
    repeat' split at h
    all_goals contradiction
  | escape => contradiction
  | opened =>
    rw [Mode.step, Mode.next] at h
    split at h
    · contradiction
    · exact absurd h (member_ne_escape _ _ _)
  | members negated ranges pending =>
    cases pending with
    | nothing => exact absurd h (member_ne_escape _ _ _)
    | byte a =>
      rw [Mode.step, Mode.next] at h
      split at h
      · contradiction
      · exact absurd h (member_ne_escape _ _ _)
    | range a => contradiction
    | escape => contradiction

theorem stem_of_escape {p : List UInt8} (h : run Mode.step .text p = .escape) :
    Closed (stem p) ∧ p = stem p ++ ['\\'.toUInt8] := by
  rw [stem, if_pos h]
  induction p using List.reverseRecOn with
  | nil => contradiction
  | append_singleton p c _ =>
    rw [run_concat] at h
    obtain ⟨hclosed, rfl⟩ := step_eq_escape h
    rw [List.dropLast_concat]
    exact ⟨hclosed, rfl⟩

theorem stem_of_closed {p : List UInt8} (h : Closed p) : stem p = p := by
  rw [stem, h]
  exact if_neg nofun

theorem closed_stem {p : List UInt8} (h : (run Mode.step .text p).inClass = false) :
    Closed (stem p) := by
  cases hrun : run Mode.step .text p with
  | text =>
    rw [stem_of_closed hrun]
    exact hrun
  | escape => exact (stem_of_escape hrun).1
  | opened =>
    rw [hrun] at h
    contradiction
  | members negated ranges pending =>
    rw [hrun] at h
    contradiction

/-- Before a byte that stands for itself, a lone backslash does nothing. -/
theorem glob_stem_append {p q s : List UInt8} {b : UInt8} (hb : Plain b) :
    glob (stem p ++ b :: q) s = glob (p ++ b :: q) s := by
  by_cases h : run Mode.step .text p = .escape
  · obtain ⟨hclosed, heq⟩ := stem_of_escape h
    have htokens : tokens ('\\'.toUInt8 :: b :: q) = tokens (b :: q) := by
      simp only [tokens, outputs, run_cons, Mode.emit, Mode.step, next_of_plain hb]
      rfl
    conv_rhs => rw [heq, List.append_assoc, List.singleton_append]
    rw [glob, glob, tokens_append hclosed, tokens_append hclosed, htokens]
  · rw [stem, if_neg h]

end DustMonitoring.Lib.Glob
