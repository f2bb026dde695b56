import Mathlib.Data.List.Basic
import DustMonitoring.Lib.Run

/-!
# Texts that are put together

Decimals with leading zeros, the bytes of a text, and fields between
separators: a field without the separator can be told from what stands before
it, whatever that is.

* `append_cons_inj_right`: the last field of a text.
* `mem_parts_iff_append`: what stands before a separator.
* `isDigit_of_mem_zeroPad`: a decimal has digits only.
* `utf8_append`, `mem_utf8`: the bytes of a text.
-/

namespace DustMonitoring.Lib

/-! ## Fields -/

/-- The last field of a text, and what stands before its separator. -/
theorem append_cons_inj_right {α : Type*} {xs xs' ys ys' : List α} {sep : α} (hys : sep ∉ ys)
    (hys' : sep ∉ ys') : xs ++ sep :: ys = xs' ++ sep :: ys' ↔ xs = xs' ∧ ys = ys' := by
  refine ⟨fun h => ?_, by rintro ⟨rfl, rfl⟩; rfl⟩
  rcases append_eq_append_cons h with ⟨as, -, hpost⟩ | ⟨as, hpre, hpost⟩
  · exact absurd (hpost ▸ List.mem_append_right as List.mem_cons_self) hys'
  · cases as with
    | nil => exact ⟨by simpa using hpre.symm, (List.cons.inj hpost).2⟩
    | cons a as =>
      have hrest : ys = as ++ sep :: ys' := (List.cons.inj hpost).2
      exact absurd (hrest ▸ List.mem_append_right as List.mem_cons_self) hys

/-- The text itself and what stands before each of its separators. -/
def parts {α : Type*} [DecidableEq α] (sep : α) : List α → List (List α)
  | [] => [[]]
  | c :: s =>
    if c = sep then [] :: (parts sep s).map (c :: ·) else (parts sep s).map (c :: ·)

theorem mem_parts {α : Type*} [DecidableEq α] {sep : α} {part s : List α} :
    part ∈ parts sep s ↔ part = s ∨ ∃ rest, s = part ++ sep :: rest := by
  induction s generalizing part with
  | nil => simp [parts]
  | cons c s ih =>
    cases part with
    | nil =>
      by_cases h : c = sep
      · simp [parts, h]
      · simp [parts, h]
    | cons d part =>
      have hmap : d :: part ∈ (parts sep s).map (c :: ·) ↔ d = c ∧ part ∈ parts sep s := by
        simp only [List.mem_map, List.cons.injEq]
        constructor
        · rintro ⟨_, hmem, rfl, rfl⟩
          exact ⟨rfl, hmem⟩
        · rintro ⟨rfl, hmem⟩
          exact ⟨part, hmem, rfl, rfl⟩
      have hparts : d :: part ∈ parts sep (c :: s) ↔ d :: part ∈ (parts sep s).map (c :: ·) := by
        rw [parts]
        split
        · simp
        · rfl
      rw [hparts, hmap, ih]
      simp only [List.cons.injEq, List.cons_append, exists_and_left]
      constructor
      · rintro ⟨rfl, hpart⟩
        exact hpart.imp (fun h => ⟨rfl, h⟩) fun h => ⟨rfl, h⟩
      · rintro (⟨rfl, h⟩ | ⟨rfl, h⟩)
        · exact ⟨rfl, Or.inl h⟩
        · exact ⟨rfl, Or.inr h⟩

/-- What stands before a separator, in a text with one field more. -/
theorem mem_parts_iff_append {α : Type*} [DecidableEq α] {sep : α} {part s field : List α}
    (hfield : sep ∉ field) :
    part ∈ parts sep s ↔ ∃ rest, s ++ sep :: field = part ++ sep :: rest := by
  rw [mem_parts]
  constructor
  · rintro (rfl | ⟨rest, rfl⟩)
    · exact ⟨field, rfl⟩
    · exact ⟨rest ++ sep :: field, by simp⟩
  · rintro ⟨rest, h⟩
    rcases append_eq_append_cons h with ⟨as, hpre, -⟩ | ⟨as, hpre, hpost⟩
    · exact Or.inr ⟨as, hpre⟩
    · cases as with
      | nil => exact Or.inl (by simpa using hpre)
      | cons a as =>
        have hrest : field = as ++ sep :: rest := (List.cons.inj hpost).2
        exact absurd (hrest ▸ List.mem_append_right as List.mem_cons_self) hfield

/-! ## Decimals -/

theorem isDigit_of_mem_toString {n : Nat} {c : Char} (hc : c ∈ (toString n).toList) :
    c.isDigit = true := by
  rw [Nat.toString_eq_repr, Nat.toList_repr] at hc
  exact Nat.isDigit_of_mem_toDigits (by omega) (by omega) hc

theorem isDigit_or_of_mem_toString {n : Int} {c : Char} (hc : c ∈ (toString n).toList) :
    c.isDigit = true ∨ c = '-' := by
  rw [Int.toString_eq_repr, Int.repr_eq_if] at hc
  split at hc
  · exact Or.inl (isDigit_of_mem_toString hc)
  · rw [String.toList_append, List.mem_append] at hc
    rcases hc with hc | hc
    · exact Or.inr (by simpa using hc)
    · exact Or.inl (isDigit_of_mem_toString hc)

theorem toList_pushn (s : String) (c : Char) (n : Nat) :
    (s.pushn c n).toList = s.toList ++ List.replicate n c := by
  rw [String.pushn_eq_repeat_push]
  induction n with
  | zero => simp [Nat.repeat]
  | succ n ih => simp [Nat.repeat, ih, List.replicate_succ']

/-- `%04d` and the like. -/
def zeroPad (width n : Nat) : String :=
  "".pushn '0' (width - (toString n).length) ++ toString n

theorem isDigit_of_mem_zeroPad {width n : Nat} {c : Char} (hc : c ∈ (zeroPad width n).toList) :
    c.isDigit = true := by
  rw [zeroPad, String.toList_append, toList_pushn, List.mem_append] at hc
  rcases hc with hc | hc
  · rcases List.mem_append.mp hc with hc | hc
    · simp at hc
    · rw [List.eq_of_mem_replicate hc]
      rfl
  · exact isDigit_of_mem_toString hc

theorem zeroPad_ne_nil (width n : Nat) : (zeroPad width n).toList ≠ [] := by
  rw [zeroPad, String.toList_append, Nat.toString_eq_repr, Nat.toList_repr]
  exact List.append_ne_nil_of_right_ne_nil _ Nat.toDigits_ne_nil

/-! ## Bytes -/

/-- The bytes of a text. -/
def utf8 (s : String) : List UInt8 := s.toList.flatMap String.utf8EncodeChar

@[simp] theorem utf8_append (s t : String) : utf8 (s ++ t) = utf8 s ++ utf8 t := by
  rw [utf8, String.toList_append, List.flatMap_append]
  rfl

/-- A character of ASCII is one byte. -/
theorem utf8EncodeChar_of_lt {c : Char} (h : c.toNat < 128) :
    String.utf8EncodeChar c = [c.toUInt8] :=
  String.utf8EncodeChar_eq_singleton (Char.utf8Size_eq_one_iff.mpr (Nat.le_of_lt_succ h))

theorem toUInt8_inj_of_lt {c d : Char} (hc : c.toNat < 128) (hd : d.toNat < 128)
    (h : c.toUInt8 = d.toUInt8) : c = d := by
  have hnat : c.toNat % 256 = d.toNat % 256 := congrArg UInt8.toNat h
  apply Char.toNat_inj.mp
  omega

/-- The bytes of a character that is not in ASCII are not in ASCII. -/
theorem le_of_mem_utf8EncodeChar {d : Char} (hd : 128 ≤ d.toNat) {b : UInt8}
    (hb : b ∈ String.utf8EncodeChar d) : 128 ≤ b.toNat := by
  have hval : 128 ≤ d.val.toNat := hd
  unfold String.utf8EncodeChar at hb
  dsimp only at hb
  split at hb
  · omega
  · have hcont : ∀ n, 128 ≤ (UInt8.ofNat (n % 64 + 128)).toNat := by
      intro n
      rw [UInt8.toNat_ofNat']
      omega
    split at hb
    · simp only [List.mem_cons, List.not_mem_nil, or_false] at hb
      rcases hb with rfl | rfl
      · rw [UInt8.toNat_ofNat']
        omega
      · exact hcont _
    · split at hb
      · simp only [List.mem_cons, List.not_mem_nil, or_false] at hb
        rcases hb with rfl | rfl | rfl
        · rw [UInt8.toNat_ofNat']
          omega
        · exact hcont _
        · exact hcont _
      · simp only [List.mem_cons, List.not_mem_nil, or_false] at hb
        rcases hb with rfl | rfl | rfl | rfl
        · rw [UInt8.toNat_ofNat']
          omega
        · exact hcont _
        · exact hcont _
        · exact hcont _

/-- A text has a character of ASCII exactly if it has its byte. -/
theorem mem_utf8 {s : String} {c : Char} (hc : c.toNat < 128) :
    c.toUInt8 ∈ utf8 s ↔ c ∈ s.toList := by
  rw [utf8, List.mem_flatMap]
  constructor
  · rintro ⟨d, hd, hbyte⟩
    by_cases hlt : d.toNat < 128
    · rw [utf8EncodeChar_of_lt hlt, List.mem_singleton] at hbyte
      rwa [toUInt8_inj_of_lt hc hlt hbyte]
    · have hle := le_of_mem_utf8EncodeChar (Nat.le_of_not_lt hlt) hbyte
      have hnat : c.toUInt8.toNat = c.toNat % 256 := rfl
      omega
  · intro hmem
    refine ⟨c, hmem, ?_⟩
    rw [utf8EncodeChar_of_lt hc]
    exact List.mem_singleton_self _

end DustMonitoring.Lib
