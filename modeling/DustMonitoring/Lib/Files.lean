import Mathlib.Init

/-!
# Files

A file system is the map from a path to the body of the file there.  The
directories and the rights are not part of it: an operation that the
operating system refuses is one that `fails`, whatever the reason.
-/

namespace DustMonitoring.Lib

/-- The files by their paths. -/
abbrev Files (π β : Type*) := π → Option β

/-- How `os.unlink` ends: the file is removed, there was none
(`FileNotFoundError`), or it is refused (any other `OSError`). -/
inductive Unlinked where
  | removed
  | notFound
  | refused
deriving DecidableEq, Repr

namespace Files

variable {π β : Type*} [DecidableEq π]

/-- Create the file, or replace its body. -/
def write (fs : Files π β) (path : π) (body : β) : Files π β :=
  fun p => if p = path then some body else fs p

/-- Remove the file. -/
def remove (fs : Files π β) (path : π) : Files π β :=
  fun p => if p = path then none else fs p

@[simp] theorem write_same (fs : Files π β) (path : π) (body : β) :
    fs.write path body path = some body := by
  simp [write]

@[simp] theorem remove_same (fs : Files π β) (path : π) :
    fs.remove path path = none := by
  simp [remove]

theorem write_of_ne {fs : Files π β} {path p : π} (body : β) (h : p ≠ path) :
    fs.write path body p = fs p := by
  simp [write, h]

theorem remove_of_ne {fs : Files π β} {path p : π} (h : p ≠ path) :
    fs.remove path p = fs p := by
  simp [remove, h]

/-- No file appears when one is removed. -/
theorem remove_eq_none {fs : Files π β} {p : π} (path : π) (h : fs p = none) :
    fs.remove path p = none := by
  by_cases hp : p = path
  · rw [hp, remove_same]
  · rw [remove_of_ne hp, h]

/-- `os.unlink`. -/
def unlink (fs : Files π β) (path : π) (fails : Bool) : Unlinked × Files π β :=
  if fails then (.refused, fs)
  else match fs path with
    | none => (.notFound, fs)
    | some _ => (.removed, fs.remove path)

theorem unlink_refused_iff {fs : Files π β} {path : π} {fails : Bool} :
    (fs.unlink path fails).1 = .refused ↔ fails = true := by
  unfold unlink
  cases fails <;> cases fs path <;> simp

/-- After an `os.unlink` that is not refused the file is gone. -/
theorem unlink_same {fs : Files π β} {path : π} {fails : Bool}
    (h : (fs.unlink path fails).1 ≠ .refused) :
    (fs.unlink path fails).2 path = none := by
  unfold unlink at h ⊢
  cases fails with
  | true => exact absurd rfl h
  | false =>
    cases hp : fs path with
    | none => exact hp
    | some body => exact remove_same fs path

theorem unlink_eq_none {fs : Files π β} {p : π} (path : π) (fails : Bool)
    (h : fs p = none) : (fs.unlink path fails).2 p = none := by
  unfold unlink
  cases fails with
  | true => exact h
  | false =>
    cases fs path with
    | none => exact h
    | some body => exact remove_eq_none path h

/-- What is there after an `os.unlink` was there before. -/
theorem eq_of_unlink {fs : Files π β} {p path : π} {fails : Bool} {body : β}
    (h : (fs.unlink path fails).2 p = some body) : fs p = some body := by
  cases hp : fs p with
  | none =>
    rw [unlink_eq_none path fails hp] at h
    contradiction
  | some b =>
    unfold unlink at h
    cases fails with
    | true => exact hp.symm.trans h
    | false =>
      by_cases heq : p = path
      · subst heq
        simp [hp] at h
      · cases hpath : fs path with
        | none =>
          simp only [hpath, Bool.false_eq_true, if_false] at h
          exact hp.symm.trans h
        | some b' =>
          simp only [hpath, Bool.false_eq_true, if_false, remove_of_ne heq] at h
          exact hp.symm.trans h

theorem unlink_of_ne {fs : Files π β} {p path : π} (h : p ≠ path) (fails : Bool) :
    (fs.unlink path fails).2 p = fs p := by
  unfold unlink
  cases fails with
  | true => rfl
  | false =>
    cases fs path with
    | none => rfl
    | some b => exact remove_of_ne h

end Files

end DustMonitoring.Lib
