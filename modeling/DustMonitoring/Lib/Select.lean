import Mathlib.Algebra.Order.Ring.Rat
import DustMonitoring.Lib.Double
import DustMonitoring.Lib.Like
import DustMonitoring.Lib.Paging

/-!
# Statements with positional parameters

A `SELECT` of PostgreSQL over the rows of a join, with conditions that name
their parameter by its number (`$1`, `$2`, ..), `ORDER BY`, and parameters for
`LIMIT` and `OFFSET`.  A column is a value of a family over the types, so that a
comparison has two sides of one type.

A condition on a `NULL` is neither true nor false, and `WHERE` keeps the rows on
which the conditions are true.

Main results:

* `accepts_numbered` -- the driver takes the arguments when the parameters are
  numbered as they stand;
* `transCmp_compareTerms` -- `ORDER BY` is an order;
* `Binding.selects_add` -- a condition that is added with its value leaves the
  earlier ones as they were.
-/

namespace DustMonitoring.Lib.Select

open DustMonitoring.Lib

/-! ## Types and values -/

/-- The types of columns and parameters. -/
inductive SqlType where
  | uuid
  | text
  | timestamptz
  | boolean
  | float8
  | int8
deriving DecidableEq, Repr

/-- The values of a type, but for `NULL`.  A time is in microseconds. -/
abbrev SqlType.Carrier : SqlType → Type
  | .uuid => BitVec 128
  | .text => String
  | .timestamptz => Int
  | .boolean => Bool
  | .float8 => Double
  | .int8 => Int

/-- An argument of a statement. -/
structure Value where
  type : SqlType
  val : type.Carrier

/-- The argument, if it has the type. -/
def Value.as? (t : SqlType) (v : Value) : Option t.Carrier :=
  if h : v.type = t then some (h ▸ v.val) else none

@[simp] theorem Value.as?_mk {t : SqlType} (x : t.Carrier) :
    (Value.mk t x).as? t = some x := dif_pos rfl

/-- What the collation of the database decides: the order of its texts, in which
only equal texts are equal, and the lower case of a letter. -/
structure Collation where
  compare : String → String → Ordering
  transCmp : Std.TransCmp compare
  lawfulEqCmp : Std.LawfulEqCmp compare
  lower : Char → Char

/-- The collation `C`. -/
def Collation.c : Collation := ⟨Ord.compare, inferInstance, inferInstance, Char.toLower⟩

/-- The place of a double among those of other kinds; `NaN` is the largest. -/
def doubleRank : Double → Nat
  | .negInf => 0
  | .finite _ => 1
  | .posInf => 2
  | .nan => 3

def finiteValue : Double → Rat
  | .finite q => q
  | _ => 0

def compareDouble : Double → Double → Ordering :=
  compareLex (compareOn doubleRank) (compareOn finiteValue)

instance : Std.TransCmp compareDouble := inferInstanceAs (Std.TransCmp (compareLex _ _))

/-- The order of the values of a type. -/
def SqlType.compare (coll : Collation) : (t : SqlType) → t.Carrier → t.Carrier → Ordering
  | .uuid => Ord.compare
  | .text => coll.compare
  | .timestamptz => Ord.compare
  | .boolean => Ord.compare
  | .float8 => compareDouble
  | .int8 => Ord.compare

instance (coll : Collation) (t : SqlType) : Std.TransCmp (t.compare coll) := by
  cases t with
  | uuid => exact inferInstanceAs (Std.TransOrd (BitVec 128))
  | text => exact coll.transCmp
  | timestamptz => exact inferInstanceAs (Std.TransOrd Int)
  | boolean => exact inferInstanceAs (Std.TransOrd Bool)
  | float8 => exact inferInstanceAs (Std.TransCmp compareDouble)
  | int8 => exact inferInstanceAs (Std.TransOrd Int)

theorem compareDouble_eq_iff {x y : Double} : compareDouble x y = .eq ↔ x = y := by
  constructor
  · intro h
    rw [compareDouble, compareLex, Ordering.then_eq_eq, compareOn, compareOn, Std.compare_eq_iff_eq,
      Std.compare_eq_iff_eq] at h
    cases x <;> cases y <;> simp_all [doubleRank, finiteValue]
  · rintro rfl
    exact Std.ReflCmp.compare_self

/-- Only equal values are equal to the order. -/
theorem SqlType.compare_eq_iff {coll : Collation} {t : SqlType} {x y : t.Carrier} :
    t.compare coll x y = .eq ↔ x = y := by
  cases t with
  | uuid => exact Std.compare_eq_iff_eq
  | text =>
    have hlawful : Std.LawfulEqCmp coll.compare := coll.lawfulEqCmp
    show coll.compare x y = .eq ↔ x = y
    exact Std.LawfulEqCmp.compare_eq_iff_eq
  | timestamptz => exact Std.compare_eq_iff_eq
  | boolean => exact Std.compare_eq_iff_eq
  | float8 => exact compareDouble_eq_iff
  | int8 => exact Std.compare_eq_iff_eq

/-! ## Conditions -/

inductive Operator where
  | eq
  | lt
  | le
  | ge
deriving DecidableEq, Repr

def Operator.holds : Operator → Ordering → Bool
  | .eq, o => o.isEq
  | .lt, o => o.isLT
  | .le, o => o.isLE
  | .ge, o => o.isGE

/-- A condition without the number of its parameter. -/
inductive Template (κ : SqlType → Type) : SqlType → Type where
  /-- `column <op> $n`. -/
  | compare {t : SqlType} (column : κ t) (op : Operator) : Template κ t
  /-- `column ILIKE before || $n || after`. -/
  | ilike (column : κ .text) (before after : String) : Template κ .text

/-- A condition on the parameter with the number. -/
structure Cond (κ : SqlType → Type) where
  type : SqlType
  template : Template κ type
  n : Nat

/-- `AND` of three-valued logic; `none` is neither true nor false. -/
def and3 : Option Bool → Option Bool → Option Bool
  | some false, _ => some false
  | some true, b => b
  | none, some false => some false
  | none, _ => none

theorem and3_eq_true_iff {a b : Option Bool} :
    and3 a b = some true ↔ a = some true ∧ b = some true := by
  rcases a with _ | _ | _ <;> rcases b with _ | _ | _ <;> simp [and3]

variable {κ : SqlType → Type} {ρ : Type}
  (coll : Collation) (value : (t : SqlType) → κ t → ρ → Option t.Carrier)

/-- The condition on a row. -/
def Template.eval : {t : SqlType} → Template κ t → t.Carrier → ρ → Option Bool
  | t, .compare column op, x, r => (value t column r).map fun y => op.holds (t.compare coll y x)
  | _, .ilike column before after, x, r =>
    (value .text column r).map fun y =>
      Like.ilike coll.lower (before ++ x ++ after).toList y.toList

/-- The argument for the parameter `$n`. -/
def param? (args : List Value) (t : SqlType) (n : Nat) : Option t.Carrier :=
  args[n - 1]?.bind (Value.as? t)

def Cond.eval (args : List Value) (c : Cond κ) (r : ρ) : Option Bool :=
  (param? args c.type c.n).bind fun x => c.template.eval coll value x r

/-- Whether `WHERE` keeps the row. -/
def selects (conds : List (Cond κ)) (args : List Value) (r : ρ) : Bool :=
  conds.foldr (fun c acc => and3 (c.eval coll value args r) acc) (some true) == some true

theorem selects_iff {conds : List (Cond κ)} {args : List Value} {r : ρ} :
    selects coll value conds args r = true ↔ ∀ c ∈ conds, c.eval coll value args r = some true := by
  rw [selects, beq_iff_eq]
  induction conds with
  | nil => simp
  | cons c conds ih => rw [List.foldr_cons, and3_eq_true_iff, ih, List.forall_mem_cons]

section Eval

variable {coll} {value} {t : SqlType} {r : ρ}

theorem eval_compare_iff {column : κ t} {op : Operator} {x : t.Carrier} :
    (Template.compare column op).eval coll value x r = some true ↔
      ∃ y ∈ value t column r, op.holds (t.compare coll y x) = true := by
  rw [Template.eval, Option.map_eq_some_iff]
  rfl

theorem eval_ilike_iff {column : κ .text} {before after x : String} :
    (Template.ilike column before after).eval coll value x r = some true ↔
      ∃ y ∈ value .text column r,
        Like.ilike coll.lower (before ++ x ++ after).toList y.toList = true := by
  rw [Template.eval, Option.map_eq_some_iff]
  rfl

theorem eval_eq_iff {column : κ t} {x : t.Carrier} :
    (Template.compare column .eq).eval coll value x r = some true ↔ value t column r = some x := by
  rw [eval_compare_iff]
  constructor
  · rintro ⟨y, hy, heq⟩
    rw [Operator.holds, Ordering.isEq_iff_eq_eq, SqlType.compare_eq_iff] at heq
    rw [← heq]
    exact hy
  · intro h
    refine ⟨x, h, ?_⟩
    rw [Operator.holds, SqlType.compare_eq_iff.mpr rfl]
    rfl

theorem timestamptz_ge_iff {x y : Int} :
    Operator.ge.holds (SqlType.timestamptz.compare coll y x) = true ↔ x ≤ y :=
  Std.isGE_compare

theorem timestamptz_lt_iff {x y : Int} :
    Operator.lt.holds (SqlType.timestamptz.compare coll y x) = true ↔ y < x :=
  Ordering.isLT_iff_eq_lt.trans compare_lt_iff_lt

end Eval

/-! ## The order of the rows -/

inductive Direction where
  | asc
  | desc
deriving DecidableEq, Repr

/-- Where the rows stand that have no value. -/
inductive Nulls where
  | first
  | last
deriving DecidableEq, Repr

/-- One column of `ORDER BY`. -/
structure OrderTerm (κ : SqlType → Type) where
  type : SqlType
  column : κ type
  direction : Direction
  nulls : Nulls

def Direction.compare {β : Type} (cmp : β → β → Ordering) : Direction → β → β → Ordering
  | .asc, x, y => cmp x y
  | .desc, x, y => cmp y x

def Nulls.compare {β : Type} (cmp : β → β → Ordering) : Nulls → Option β → Option β → Ordering
  | _, none, none => .eq
  | .first, none, some _ => .lt
  | .first, some _, none => .gt
  | .last, none, some _ => .gt
  | .last, some _, none => .lt
  | _, some x, some y => cmp x y

def OrderTerm.compare (o : OrderTerm κ) (a b : ρ) : Ordering :=
  o.nulls.compare (o.direction.compare (o.type.compare coll)) (value o.type o.column a)
    (value o.type o.column b)

/-- `ORDER BY` of several columns. -/
def compareTerms : List (OrderTerm κ) → ρ → ρ → Ordering
  | [] => fun _ _ => .eq
  | o :: os => compareLex (o.compare coll value) (compareTerms os)

instance {β : Type} {cmp : β → β → Ordering} [Std.TransCmp cmp] (d : Direction) :
    Std.TransCmp (d.compare cmp) := by
  cases d with
  | asc => exact inferInstanceAs (Std.TransCmp cmp)
  | desc => exact inferInstanceAs (Std.TransCmp fun x y => cmp y x)

instance {β : Type} {cmp : β → β → Ordering} [Std.TransCmp cmp] (nulls : Nulls) :
    Std.TransCmp (nulls.compare cmp) where
  eq_swap := by
    intro a b
    cases nulls <;> cases a <;> cases b <;> simp only [Nulls.compare, Ordering.swap]
    all_goals exact Std.OrientedCmp.eq_swap
  isLE_trans := by
    intro a b c
    cases nulls <;> cases a <;> cases b <;> cases c <;> simp [Nulls.compare]
    all_goals exact Std.TransCmp.isLE_trans

/-- A comparison of values of the elements. -/
theorem transCmp_on {α β : Type} {cmp : β → β → Ordering} [Std.TransCmp cmp] (f : α → β) :
    Std.TransCmp fun a b => cmp (f a) (f b) where
  eq_swap := Std.OrientedCmp.eq_swap
  isLE_trans := Std.TransCmp.isLE_trans

instance transCmp_compareTerms (os : List (OrderTerm κ)) :
    Std.TransCmp (compareTerms coll value os) := by
  induction os with
  | nil => exact { eq_swap := rfl, isLE_trans := fun _ _ => rfl }
  | cons o os ih =>
    have ho : Std.TransCmp (o.compare coll value) := transCmp_on (value o.type o.column)
    exact inferInstanceAs (Std.TransCmp (compareLex _ _))

/-! ## Statements -/

/-- `SELECT .. WHERE .. ORDER BY .. LIMIT $n OFFSET $n`. -/
structure Query (κ : SqlType → Type) where
  conds : List (Cond κ)
  order : List (OrderTerm κ) := []
  limit? : Option Nat := none
  offset? : Option Nat := none

inductive QueryError where
  /-- The arguments are not those of the parameters. -/
  | arguments
  | negativeLimit
  | negativeOffset
deriving DecidableEq, Repr

def Cond.param (c : Cond κ) : SqlType × Nat := (c.type, c.n)

/-- The parameters with their types. -/
def Query.params (q : Query κ) : List (SqlType × Nat) :=
  q.conds.map Cond.param ++ q.limit?.toList.map (.int8, ·) ++ q.offset?.toList.map (.int8, ·)

/-- Every argument is that of a parameter, and every parameter has an argument
of its type. -/
def accepts (params : List (SqlType × Nat)) (args : List Value) : Bool :=
  ((List.range' 1 args.length).all fun n => params.any fun p => p.2 == n) &&
    params.all fun p => decide (1 ≤ p.2) && args[p.2 - 1]?.map Value.type == some p.1

/-- `fetchval` of the statement with `COUNT(*)`, on the rows of the join. -/
def Query.count (q : Query κ) (rows : List ρ) (args : List Value) : Except QueryError Nat :=
  if accepts q.params args then .ok (rows.filter (selects coll value q.conds args)).length
  else .error .arguments

/-- What `LIMIT` and `OFFSET` leave of the rows. -/
def window (limit? offset? : Option Int) (rows : List ρ) : Except QueryError (List ρ) :=
  if offset?.any (· < 0) then .error .negativeOffset
  else if limit?.any (· < 0) then .error .negativeLimit
  else
    let rest := rows.drop (offset?.getD 0).toNat
    .ok (match limit? with
      | none => rest
      | some limit => rest.take limit.toNat)

/-- `fetch` of the statement, on the rows of the join as they are scanned. -/
def Query.fetch (q : Query κ) (scanned : List ρ) (args : List Value) :
    Except QueryError (List ρ) :=
  if accepts q.params args then
    window (q.limit?.bind (param? args .int8)) (q.offset?.bind (param? args .int8))
      (sortBy (compareTerms coll value q.order) (scanned.filter (selects coll value q.conds args)))
  else .error .arguments

theorem window_page {size p : Nat} {rows : List ρ} :
    window (some (size : Int)) (some (((p - 1) * size : Nat) : Int)) rows =
      .ok (page size rows p) := by
  have hsize : ¬ (size : Int) < 0 := by omega
  have hoffset : ¬ (((p - 1) * size : Nat) : Int) < 0 := by omega
  simp only [window, Option.any_some, hsize, hoffset, decide_false, Bool.false_eq_true, if_false,
    Option.getD_some, Int.toNat_natCast, page]

/-! ## Statements that are put together -/

/-- The types of the arguments, numbered from one on. -/
def numbered (args : List Value) : List (SqlType × Nat) := (args.map Value.type).zipIdx 1

theorem mem_numbered {args : List Value} {p : SqlType × Nat} :
    p ∈ numbered args ↔ 1 ≤ p.2 ∧ args[p.2 - 1]?.map Value.type = some p.1 := by
  rw [numbered, List.mem_zipIdx_iff_le_and_getElem?_sub, List.getElem?_map]

theorem numbered_append (args : List Value) (v : Value) :
    numbered (args ++ [v]) = numbered args ++ [(v.type, args.length + 1)] := by
  rw [numbered, List.map_append, List.zipIdx_append, List.length_map, Nat.add_comm 1]
  rfl

theorem accepts_numbered (args : List Value) : accepts (numbered args) args = true := by
  rw [accepts, Bool.and_eq_true, List.all_eq_true, List.all_eq_true]
  constructor
  · intro n hn
    obtain ⟨hone, hlast⟩ := List.mem_range'_1.mp hn
    have hlt : n - 1 < args.length := by omega
    rw [List.any_eq_true]
    refine ⟨(args[n - 1].type, n), mem_numbered.mpr ⟨hone, ?_⟩, by simp⟩
    rw [List.getElem?_eq_getElem hlt]
    rfl
  · intro p hp
    obtain ⟨hone, htype⟩ := mem_numbered.mp hp
    rw [htype]
    simp [hone]

/-- The conditions and their values, each numbered as its value stands. -/
structure Binding (κ : SqlType → Type) where
  conds : List (Cond κ) := []
  args : List Value := []
  params_eq : conds.map Cond.param = numbered args := by rfl

namespace Binding

/-- A condition on a value. -/
def add (b : Binding κ) {t : SqlType} (template : Template κ t) (x : t.Carrier) : Binding κ where
  conds := b.conds ++ [⟨t, template, (b.args ++ [Value.mk t x]).length⟩]
  args := b.args ++ [⟨t, x⟩]
  params_eq := by
    rw [List.map_append, b.params_eq, numbered_append, List.length_append]
    rfl

/-- A condition on a value that may not be given. -/
def addGiven (b : Binding κ) {t : SqlType} (template : Template κ t) (x? : Option t.Carrier) :
    Binding κ :=
  match x? with
  | none => b
  | some x => b.add template x

/-- The conditions are true on the row. -/
def Selects (b : Binding κ) (r : ρ) : Prop := selects coll value b.conds b.args r = true

variable {b : Binding κ} {t : SqlType} {template : Template κ t} {r : ρ}

/-- The number of a condition is that of an argument. -/
theorem n_le {c : Cond κ} (hc : c ∈ b.conds) : 1 ≤ c.n ∧ c.n ≤ b.args.length := by
  have hmem : c.param ∈ numbered b.args := b.params_eq ▸ List.mem_map_of_mem hc
  obtain ⟨hone, htype⟩ := mem_numbered.mp hmem
  obtain ⟨v, hv, -⟩ := Option.map_eq_some_iff.mp htype
  have hlt : c.n - 1 < b.args.length := (List.getElem?_eq_some_iff.mp hv).1
  have hone : 1 ≤ c.n := hone
  omega

/-- The arguments after them do not count. -/
theorem eval_append_args {c : Cond κ} (hc : c ∈ b.conds) (more : List Value) :
    c.eval coll value (b.args ++ more) r = c.eval coll value b.args r := by
  obtain ⟨hone, hle⟩ := n_le hc
  have hlt : c.n - 1 < b.args.length := by omega
  rw [Cond.eval, Cond.eval, param?, param?, List.getElem?_append_left hlt]

theorem selects_append_args (more : List Value) :
    selects coll value b.conds (b.args ++ more) r = selects coll value b.conds b.args r := by
  rw [Bool.eq_iff_iff, selects_iff, selects_iff]
  exact forall₂_congr fun c hc => by rw [eval_append_args coll value hc]

theorem selects_add {x : t.Carrier} :
    (b.add template x).Selects coll value r ↔
      b.Selects coll value r ∧ template.eval coll value x r = some true := by
  have hlast : (Cond.mk t template (b.args ++ [Value.mk t x]).length).eval coll value
      (b.args ++ [⟨t, x⟩]) r = template.eval coll value x r := by
    simp [Cond.eval, param?]
  rw [Selects, Selects, selects_iff, selects_iff]
  show (∀ c ∈ b.conds ++ [_], c.eval coll value (b.args ++ [⟨t, x⟩]) r = some true) ↔ _
  rw [List.forall_mem_append, List.forall_mem_singleton, hlast]
  refine and_congr_left fun _ => forall₂_congr fun c hc => ?_
  rw [eval_append_args coll value hc]

/-- A condition that is added for a value, if it is given. -/
theorem selects_addGiven {x? : Option t.Carrier} :
    (b.addGiven template x?).Selects coll value r ↔
      b.Selects coll value r ∧ ∀ x ∈ x?, template.eval coll value x r = some true := by
  cases x? with
  | none => simp [addGiven]
  | some x => simp [addGiven, selects_add]

/-- The arguments of the conditions are those of the statement. -/
theorem count_eq (b : Binding κ) (rows : List ρ) :
    Query.count coll value { conds := b.conds } rows b.args =
      .ok (rows.filter (selects coll value b.conds b.args)).length := by
  have hparams : Query.params { conds := b.conds } = numbered b.args := by
    simp [Query.params, b.params_eq]
  rw [Query.count, hparams, if_pos (accepts_numbered b.args)]

/-- Two arguments more are those of `LIMIT` and `OFFSET`. -/
theorem fetch_eq (b : Binding κ) (order : List (OrderTerm κ)) (scanned : List ρ)
    {limit offset : Int} {args : List Value}
    (hargs : args = b.args ++ [⟨.int8, limit⟩] ++ [⟨.int8, offset⟩]) :
    Query.fetch coll value
        { conds := b.conds, order := order, limit? := some (args.length - 1),
          offset? := some args.length } scanned args =
      window (some limit) (some offset)
        (sortBy (compareTerms coll value order)
          (scanned.filter (selects coll value b.conds args))) := by
  have hlength : args.length = b.args.length + 2 := by simp [hargs]
  have hparams : Query.params
      { conds := b.conds, order := order, limit? := some (args.length - 1),
        offset? := some args.length } = numbered args := by
    rw [hlength, hargs, numbered_append, numbered_append]
    simp [Query.params, b.params_eq]
  have hlimit : param? args .int8 (args.length - 1) = some limit := by
    rw [param?, hlength, hargs, List.getElem?_append_left (by simp)]
    simp
  have hoffset : param? args .int8 args.length = some offset := by
    rw [param?, hlength, hargs, List.getElem?_append_right (by simp)]
    simp
  rw [Query.fetch, hparams, if_pos (accepts_numbered args)]
  show window (param? args .int8 (args.length - 1)) (param? args .int8 args.length) _ = _
  rw [hlimit, hoffset]

end Binding

end DustMonitoring.Lib.Select
