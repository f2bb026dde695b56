import Mathlib.Logic.Function.Basic
import DustMonitoring.Lib.Files

/-!
# Files that are open

`Files` says which body is behind a path.  A program that has a file open
goes on writing to that file whatever becomes of its path: the file can be
removed, and another program can have opened it too.  So the files of a
`Disk` have numbers, and a path names one of them.

What is done to the file behind one path leaves the other paths alone
(`read_openWrite_of_ne`, `read_write_of_ne`, `read_unlink_of_ne`), also when
that path was removed while the file was open (`Opened`), and who writes a
body piece by piece to a file of its own ends up with the body
(`overwrite_take`).
-/

namespace DustMonitoring.Lib

variable {π β : Type*}

/-! ## Writing in the middle -/

/-- Write at the position, with zeros up to it if the file ends before. -/
def overwrite [Zero β] (old : List β) (pos : Nat) (bs : List β) : List β :=
  (old ++ List.replicate (pos - old.length) 0).take pos ++ bs ++ old.drop (pos + bs.length)

/-- The next piece of a body, after what was written of it. -/
theorem overwrite_take [Zero β] {body : List β} {pos : Nat} (k : Nat)
    (h : pos ≤ body.length) :
    overwrite (body.take pos) pos ((body.drop pos).take k) = body.take (pos + k) := by
  have hlen : (body.take pos).length = pos := by
    rw [List.length_take]
    omega
  have hdrop : (body.take pos).drop (pos + ((body.drop pos).take k).length) = [] := by
    apply List.drop_eq_nil_of_le
    omega
  rw [overwrite, hlen, hdrop, Nat.sub_self, List.replicate_zero, List.append_nil, List.append_nil,
    List.take_take, Nat.min_self, List.take_add]

/-! ## The disk -/

/-- The paths with the numbers of their files, and the bodies of the files.
No file has two paths. -/
structure Disk (π β : Type*) where
  names : Files π Nat
  bodies : Nat → List β
  next : Nat
  lt_next : ∀ p n, names p = some n → n < next
  eq_of_names : ∀ p q n, names p = some n → names q = some n → p = q

namespace Disk

/-- The disk without a file. -/
def empty : Disk π β where
  names := fun _ => none
  bodies := fun _ => []
  next := 0
  lt_next := nofun
  eq_of_names := nofun

/-- The body behind the path. -/
def read (d : Disk π β) (p : π) : Option (List β) := (d.names p).map d.bodies

/-- Write to the open file. -/
def write [Zero β] (d : Disk π β) (n pos : Nat) (bs : List β) : Disk π β :=
  { d with bodies := Function.update d.bodies n (overwrite (d.bodies n) pos bs) }

variable {d : Disk π β} {p q : π} {n : Nat}

theorem read_write_self [Zero β] {old : List β} (hn : d.names p = some n)
    (hold : d.read p = some old) (pos : Nat) (bs : List β) :
    (d.write n pos bs).read p = some (overwrite old pos bs) := by
  rw [read, hn] at hold
  obtain rfl := Option.some.inj hold
  simp [read, write, hn]

/-- The file was opened by the path: no other one names it, and this one does
unless it was removed since. -/
structure Opened (d : Disk π β) (p : π) (n : Nat) : Prop where
  lt_next : n < d.next
  eq_of_names : ∀ q, d.names q = some n → q = p

/-- Who writes to an open file changes nothing behind the other paths. -/
theorem Opened.read_write_of_ne [Zero β] (h : d.Opened p n) (hne : q ≠ p) (pos : Nat)
    (bs : List β) : (d.write n pos bs).read q = d.read q := by
  refine Option.map_congr fun m hm => ?_
  have hfile : m ≠ n := fun heq => hne (h.eq_of_names q (heq ▸ hm))
  exact Function.update_of_ne hfile _ _

theorem opened_of_names (hn : d.names p = some n) : d.Opened p n :=
  ⟨d.lt_next p n hn, fun q hq => d.eq_of_names q p n hq hn⟩

theorem read_write_of_ne [Zero β] (hn : d.names p = some n) (h : q ≠ p) (pos : Nat)
    (bs : List β) : (d.write n pos bs).read q = d.read q :=
  (opened_of_names hn).read_write_of_ne h pos bs

theorem Opened.write [Zero β] {m : Nat} (h : d.Opened p n) (pos : Nat) (bs : List β) :
    (d.write m pos bs).Opened p n :=
  ⟨h.lt_next, h.eq_of_names⟩

/-- The path names the open file, and this is what is in it. -/
structure Wrote (d : Disk π β) (p : π) (n : Nat) (written : List β) : Prop where
  names : d.names p = some n
  read : d.read p = some written

theorem Wrote.write [Zero β] {body : List β} {pos : Nat} (h : d.Wrote p n (body.take pos))
    (hpos : pos ≤ body.length) (k : Nat) :
    (d.write n pos ((body.drop pos).take k)).Wrote p n (body.take (pos + k)) := by
  refine ⟨h.names, ?_⟩
  rw [read_write_self h.names h.read, overwrite_take k hpos]

theorem Wrote.write_of_ne [Zero β] {written : List β} {m : Nat} (h : d.Wrote q m written)
    (hn : d.names p = some n) (hne : q ≠ p) (pos : Nat) (bs : List β) :
    (d.write n pos bs).Wrote q m written :=
  ⟨h.names, (read_write_of_ne hn hne pos bs).trans h.read⟩

variable [DecidableEq π]

/-- `open(path, "wb")`: the file behind the path is emptied, or there is a
new one. -/
def openWrite (d : Disk π β) (p : π) : Nat × Disk π β :=
  match d.names p with
  | some n => (n, { d with bodies := Function.update d.bodies n [] })
  | none =>
    (d.next,
      { names := d.names.write p d.next
        bodies := Function.update d.bodies d.next []
        next := d.next + 1
        lt_next := by
          intro q n hn
          by_cases hq : q = p
          · rw [hq, Files.write_same] at hn
            obtain rfl := Option.some.inj hn
            omega
          · rw [Files.write_of_ne d.next hq] at hn
            have hlt := d.lt_next q n hn
            omega
        eq_of_names := by
          intro q q' n hn hn'
          by_cases hq : q = p
          · by_cases hq' : q' = p
            · rw [hq, hq']
            · rw [hq, Files.write_same] at hn
              rw [Files.write_of_ne d.next hq'] at hn'
              have hlt := d.lt_next q' n hn'
              have heq := Option.some.inj hn
              omega
          · rw [Files.write_of_ne d.next hq] at hn
            by_cases hq' : q' = p
            · rw [hq', Files.write_same] at hn'
              have hlt := d.lt_next q n hn
              have heq := Option.some.inj hn'
              omega
            · rw [Files.write_of_ne d.next hq'] at hn'
              exact d.eq_of_names q q' n hn hn' })

/-- `os.unlink`: an open file stays open. -/
def unlink (d : Disk π β) (p : π) (fails : Bool) : Disk π β where
  names := (d.names.unlink p fails).2
  bodies := d.bodies
  next := d.next
  lt_next := by
    intro q n hn
    exact d.lt_next q n (Files.eq_of_unlink hn)
  eq_of_names := by
    intro q q' n hn hn'
    exact d.eq_of_names q q' n (Files.eq_of_unlink hn) (Files.eq_of_unlink hn')

theorem names_openWrite_self (d : Disk π β) (p : π) :
    (d.openWrite p).2.names p = some (d.openWrite p).1 := by
  unfold openWrite
  split
  · next n hn => exact hn
  · exact Files.write_same _ _ _

theorem read_openWrite_self (d : Disk π β) (p : π) : (d.openWrite p).2.read p = some [] := by
  unfold openWrite read
  split
  · next n hn => simp [hn]
  · simp

theorem names_openWrite_of_ne (h : q ≠ p) : (d.openWrite p).2.names q = d.names q := by
  unfold openWrite
  split
  · rfl
  · exact Files.write_of_ne _ h

theorem read_openWrite_of_ne (h : q ≠ p) : (d.openWrite p).2.read q = d.read q := by
  rw [read, names_openWrite_of_ne h, read]
  refine Option.map_congr fun m hm => ?_
  unfold openWrite
  split
  · next n hn =>
    have hne : m ≠ n := fun heq => h (d.eq_of_names q p n (heq ▸ hm) hn)
    exact Function.update_of_ne hne _ _
  · have hlt := d.lt_next q m hm
    exact Function.update_of_ne (by omega) _ _

theorem names_unlink_of_ne (h : q ≠ p) (fails : Bool) :
    (d.unlink p fails).names q = d.names q := Files.unlink_of_ne h fails

theorem read_unlink_of_ne (h : q ≠ p) (fails : Bool) : (d.unlink p fails).read q = d.read q := by
  rw [read, names_unlink_of_ne h]
  rfl

theorem opened_openWrite (d : Disk π β) (p : π) :
    (d.openWrite p).2.Opened p (d.openWrite p).1 :=
  opened_of_names (names_openWrite_self d p)

/-- A file that is opened later is another one, or the path has it already. -/
theorem Opened.openWrite (h : d.Opened p n) (q : π) : (d.openWrite q).2.Opened p n := by
  cases hq : d.names q with
  | some m =>
    have hopen : (d.openWrite q).2 = { d with bodies := Function.update d.bodies m [] } := by
      rw [Disk.openWrite, hq]
    rw [hopen]
    exact ⟨h.lt_next, h.eq_of_names⟩
  | none =>
    have hnext : (d.openWrite q).2.next = d.next + 1 := by rw [Disk.openWrite, hq]
    have hfile : (d.openWrite q).1 = d.next := by rw [Disk.openWrite, hq]
    have hlt := h.lt_next
    refine ⟨by omega, fun q' hq' => ?_⟩
    by_cases hne : q' = q
    · rw [hne, names_openWrite_self, hfile] at hq'
      have heq := Option.some.inj hq'
      omega
    · rw [names_openWrite_of_ne hne] at hq'
      exact h.eq_of_names q' hq'

theorem Opened.unlink (h : d.Opened p n) (q : π) (fails : Bool) :
    (d.unlink q fails).Opened p n :=
  ⟨h.lt_next, fun q' hq' => h.eq_of_names q' (Files.eq_of_unlink hq')⟩

theorem wrote_openWrite (d : Disk π β) (p : π) :
    (d.openWrite p).2.Wrote p (d.openWrite p).1 [] :=
  ⟨names_openWrite_self d p, read_openWrite_self d p⟩

theorem Wrote.openWrite_of_ne {written : List β} (h : d.Wrote q n written) (hne : q ≠ p) :
    (d.openWrite p).2.Wrote q n written :=
  ⟨(names_openWrite_of_ne hne).trans h.names, (read_openWrite_of_ne hne).trans h.read⟩

theorem Wrote.unlink_of_ne {written : List β} (h : d.Wrote q n written) (hne : q ≠ p)
    (fails : Bool) : (d.unlink p fails).Wrote q n written :=
  ⟨(names_unlink_of_ne hne fails).trans h.names, (read_unlink_of_ne hne fails).trans h.read⟩

end Disk

end DustMonitoring.Lib
