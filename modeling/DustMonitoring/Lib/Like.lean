import Mathlib.Data.List.Infix

/-!
# Patterns of `ILIKE`

In a pattern `%` stands for any characters, `_` for one, and a backslash before
a character takes it as it is; letters match whatever their case, which is up to
the collation (`lower`).

* `ilike_startsWith`: a text without these characters, and `%` after it.
* `ilike_contains`: such a text between two of them.
-/

namespace DustMonitoring.Lib.Like

/-- Any characters, any one, or the one in either case. -/
inductive Tok where
  | any
  | one
  | lit (c : Char)
deriving DecidableEq

/-- A character that no backslash stands before. -/
def tok (c : Char) : Tok := if c = '%' then .any else if c = '_' then .one else .lit c

/-- The tokens of a pattern, in its middle after a backslash or not.  PostgreSQL
refuses a pattern that ends in a single backslash. -/
def tokens : Bool → List Char → List Tok
  | false, [] => []
  | true, [] => [.lit '\\']
  | true, c :: cs => .lit c :: tokens false cs
  | false, c :: cs => if c = '\\' then tokens true cs else tok c :: tokens false cs

variable (lower : Char → Char)

/-- Whether the tokens match the text. -/
def matchToks : List Tok → List Char → Bool
  | [], t => t.isEmpty
  | .any :: ts, t => t.tails.any fun rest => matchToks ts rest
  | .one :: _, [] => false
  | .one :: ts, _ :: t => matchToks ts t
  | .lit _ :: _, [] => false
  | .lit c :: ts, d :: t => lower d == lower c && matchToks ts t

/-- `text ILIKE pattern`. -/
def ilike (pattern text : List Char) : Bool := matchToks lower (tokens false pattern) text

/-- The character stands for itself. -/
def Plain (c : Char) : Prop := c ≠ '%' ∧ c ≠ '_' ∧ c ≠ '\\'

instance : DecidablePred Plain := fun _ => inferInstanceAs (Decidable (_ ∧ _))

variable {lower} {p q text : List Char}

theorem tokens_plain_append (hp : ∀ c ∈ p, Plain c) :
    tokens false (p ++ q) = p.map .lit ++ tokens false q := by
  induction p with
  | nil => rfl
  | cons c p ih =>
    rw [List.forall_mem_cons] at hp
    obtain ⟨⟨hany, hone, hescape⟩, hp⟩ := hp
    rw [List.cons_append, tokens, if_neg hescape, ih hp, tok, if_neg hany, if_neg hone]
    rfl

theorem matchToks_lits_append {ts : List Tok} :
    matchToks lower (p.map .lit ++ ts) text = true ↔
      ∃ front rest, text = front ++ rest ∧ front.map lower = p.map lower ∧
        matchToks lower ts rest = true := by
  induction p generalizing text with
  | nil =>
    constructor
    · exact fun h => ⟨[], text, rfl, rfl, h⟩
    · rintro ⟨front, rest, rfl, hfront, h⟩
      obtain rfl := List.map_eq_nil_iff.mp hfront
      exact h
  | cons c p ih =>
    cases text with
    | nil =>
      refine iff_of_false (by simp [matchToks]) ?_
      rintro ⟨front, rest, h, hfront, -⟩
      obtain ⟨rfl, -⟩ := List.append_eq_nil_iff.mp h.symm
      cases hfront
    | cons d text =>
      rw [List.map_cons, List.cons_append, matchToks, Bool.and_eq_true, beq_iff_eq, ih]
      constructor
      · rintro ⟨hd, front, rest, rfl, hfront, h⟩
        exact ⟨d :: front, rest, rfl, by rw [List.map_cons, hd, hfront, List.map_cons], h⟩
      · rintro ⟨front, rest, htext, hfront, h⟩
        cases front with
        | nil => cases hfront
        | cons e front =>
          obtain ⟨rfl, rfl⟩ := List.cons.inj htext
          obtain ⟨hd, hfront⟩ := List.cons.inj hfront
          exact ⟨hd, front, rest, rfl, hfront, h⟩

theorem matchToks_any (text : List Char) : matchToks lower [.any] text = true := by
  rw [matchToks, List.any_eq_true]
  exact ⟨[], (List.mem_tails _ _).mpr List.nil_suffix, rfl⟩

/-- A text and anything after it. -/
theorem ilike_startsWith (hp : ∀ c ∈ p, Plain c) :
    ilike lower (p ++ ['%']) text = true ↔ p.map lower <+: text.map lower := by
  rw [ilike, tokens_plain_append hp, matchToks_lits_append]
  constructor
  · rintro ⟨front, rest, rfl, hfront, -⟩
    exact ⟨rest.map lower, by rw [List.map_append, hfront]⟩
  · rintro ⟨rest, hrest⟩
    obtain ⟨front, rest', rfl, hfront, -⟩ := List.map_eq_append_iff.mp hrest.symm
    exact ⟨front, rest', rfl, hfront, matchToks_any rest'⟩

/-- A text with anything around it. -/
theorem ilike_contains (hp : ∀ c ∈ p, Plain c) :
    ilike lower ('%' :: (p ++ ['%'])) text = true ↔ p.map lower <:+: text.map lower := by
  have htokens : tokens false ('%' :: (p ++ ['%'])) = .any :: tokens false (p ++ ['%']) := rfl
  rw [ilike, htokens, matchToks, List.any_eq_true, List.infix_iff_prefix_suffix]
  constructor
  · rintro ⟨rest, hrest, hmatch⟩
    have hsuffix : rest <:+ text := (List.mem_tails _ _).mp hrest
    exact ⟨rest.map lower, (ilike_startsWith hp).mp hmatch, hsuffix.map lower⟩
  · rintro ⟨_, hprefix, hsuffix⟩
    obtain ⟨front, hfront⟩ := hsuffix
    obtain ⟨front', rest, rfl, -, rfl⟩ := List.map_eq_append_iff.mp hfront.symm
    exact ⟨rest, (List.mem_tails _ _).mpr ⟨front', rfl⟩, (ilike_startsWith hp).mpr hprefix⟩

example : ilike Char.toLower "%B\\_%".toList "ab_c".toList = true ∧
    ilike Char.toLower "%B\\_%".toList "abxc".toList = false := by
  decide +kernel

end DustMonitoring.Lib.Like
