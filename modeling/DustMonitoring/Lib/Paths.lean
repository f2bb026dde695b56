import Mathlib.Data.List.Basic
import Mathlib.Data.List.Induction

/-!
# What a path names

The operating system reads a path name by name, from the root if the path
begins with a slash and from the working directory else: nothing and `.` stay
where they are, and `..` goes up.  Links are left out.

* `ne_of_name_ne`: paths with different last names never name one file,
  whatever stands before.
* `isInside_target_iff`: a path that goes up is inside the place that it
  starts from exactly when it comes back the same way.
-/

namespace DustMonitoring.Lib

/-- The name of a directory or a file, and a place as the names from the root
to it. -/
abbrev Name := List Char

abbrev Place := List Name

/-- One name further. -/
def enter (place : Place) (name : Name) : Place :=
  if name = [] ∨ name = ['.'] then place
  else if name = ['.', '.'] then place.dropLast
  else place ++ [name]

/-- The place that the path names. -/
def resolve (cwd : Place) (path : List Char) : Place :=
  (path.splitOn '/').foldl enter (if path.head? = some '/' then [] else cwd)

example : resolve [['w']] "data/./a//b/../c.bin".toList =
    ["w".toList, "data".toList, "a".toList, "c.bin".toList] := by
  decide +kernel

example : resolve [['w']] "/../c.bin".toList = ["c.bin".toList] := by decide +kernel

/-- A name that goes down. -/
def Name.Plain (name : Name) : Prop :=
  '/' ∉ name ∧ name ≠ [] ∧ name ≠ ['.'] ∧ name ≠ ['.', '.']

theorem Name.Plain.enter {name : Name} (h : name.Plain) (place : Place) :
    enter place name = place ++ [name] := by
  obtain ⟨-, hnil, hdot, hup⟩ := h
  rw [Lib.enter, if_neg (by simp [hnil, hdot]), if_neg hup]

theorem getLast?_resolve {name : Name} (h : name.Plain) (cwd : Place) (dir : List Char) :
    (resolve cwd (dir ++ '/' :: name)).getLast? = some name := by
  rw [resolve, List.splitOn_append_cons_self, List.splitOn_eq_singleton h.1, List.foldl_append,
    List.foldl_cons, List.foldl_nil, h.enter, List.getLast?_concat]

theorem ne_of_name_ne {name name' : Name} (h : name.Plain) (h' : name'.Plain)
    (hne : name ≠ name') (cwd : Place) (dir dir' : List Char) :
    resolve cwd (dir ++ '/' :: name) ≠ resolve cwd (dir' ++ '/' :: name') := by
  intro heq
  have hlast := getLast?_resolve h cwd dir
  rw [heq, getLast?_resolve h' cwd dir'] at hlast
  exact hne (Option.some.inj hlast).symm

/-! ## Routes -/

/-- What a list of names comes to from any place: so many directories up, and
from there down these names. -/
structure Route where
  ups : Nat := 0
  downs : List Name := []
deriving DecidableEq, Repr

/-- One name further. -/
def Route.enter (r : Route) (name : Name) : Route :=
  if name = [] ∨ name = ['.'] then r
  else if name = ['.', '.'] then
    if r.downs = [] then { r with ups := r.ups + 1 }
    else { r with downs := r.downs.dropLast }
  else { r with downs := r.downs ++ [name] }

/-- The route of a path that does not begin with a slash. -/
def route (path : List Char) : Route := (path.splitOn '/').foldl Route.enter {}

example : route "a/../../b/./c".toList = ⟨1, ["b".toList, "c".toList]⟩ := by decide +kernel

theorem route_of_plain {name : Name} (h : name.Plain) : route name = { downs := [name] } := by
  obtain ⟨hslash, hnil, hdot, hup⟩ := h
  rw [route, List.splitOn_eq_singleton hslash, List.foldl_cons, List.foldl_nil, Route.enter,
    if_neg (by simp [hnil, hdot]), if_neg hup]
  rfl

/-- Where the way up ends. -/
def Route.top (r : Route) (place : Place) : Place := place.take (place.length - r.ups)

/-- Where the route ends. -/
def Route.target (r : Route) (place : Place) : Place := r.top place ++ r.downs

/-- What the way up has left. -/
def Route.left (r : Route) (place : Place) : Place := place.drop (place.length - r.ups)

theorem Route.top_append_left (r : Route) (place : Place) : r.top place ++ r.left place = place :=
  List.take_append_drop _ _

theorem Route.target_enter (r : Route) (place : Place) (name : Name) :
    (r.enter name).target place = Lib.enter (r.target place) name := by
  unfold Route.enter Lib.enter
  split
  · rfl
  · split
    · split
      · next hdowns =>
        have hlen : place.length - (r.ups + 1) =
            min (min (place.length - r.ups) place.length - 1) (place.length - r.ups) := by
          omega
        simp only [Route.target, Route.top, hdowns, List.append_nil]
        rw [List.dropLast_eq_take, List.take_take, List.length_take, hlen]
      · next hdowns => simp only [Route.target, Route.top, List.dropLast_append_of_ne_nil hdowns]
    · simp only [Route.target, Route.top, List.append_assoc]

theorem foldl_enter (names : List Name) (place : Place) :
    names.foldl enter place = (names.foldl Route.enter {}).target place := by
  induction names using List.reverseRecOn with
  | nil => simp [Route.target, Route.top]
  | append_singleton names name ih =>
    rw [List.foldl_append, List.foldl_append, ih]
    exact (Route.target_enter _ _ _).symm

/-- What stands behind a slash is read from where the part before it ends. -/
theorem resolve_append {dir : List Char} (hdir : dir ≠ []) (cwd : Place) (path : List Char) :
    resolve cwd (dir ++ '/' :: path) = (route path).target (resolve cwd dir) := by
  rw [resolve, List.splitOn_append_cons_self, List.foldl_append, foldl_enter (path.splitOn '/'),
    List.head?_append_of_ne_nil dir hdir]
  rfl

theorem resolve_absolute {path : List Char} (hpath : path.head? = some '/') (cwd : Place) :
    resolve cwd path = (route path).downs := by
  rw [resolve, if_pos hpath, foldl_enter]
  simp [Route.target, Route.top, route]

/-- The place is below the directory. -/
def IsInside (dir place : Place) : Prop := dir <+: place ∧ place ≠ dir

instance (dir place : Place) : Decidable (IsInside dir place) :=
  inferInstanceAs (Decidable (_ ∧ _))

theorem isInside_append_iff (place p q : Place) :
    IsInside (place ++ p) (place ++ q) ↔ IsInside p q := by
  rw [IsInside, IsInside, List.prefix_append_right_inj, ne_eq, List.append_cancel_left_eq]

/-- The route has to come back through what it left. -/
theorem isInside_target_iff (r : Route) (place : Place) :
    IsInside place (r.target place) ↔ IsInside (r.left place) r.downs := by
  have happend := isInside_append_iff (r.top place) (r.left place) r.downs
  rwa [r.top_append_left] at happend

theorem target_of_isInside {r : Route} {place : Place} (h : IsInside (r.left place) r.downs) :
    r.target place = place ++ r.downs.drop (r.left place).length := by
  obtain ⟨rest, hrest⟩ := h.1
  rw [Route.target, ← hrest, List.drop_left, ← List.append_assoc, r.top_append_left]

end DustMonitoring.Lib
