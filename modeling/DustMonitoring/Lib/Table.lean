import Mathlib.Data.List.Basic
import Mathlib.Data.List.Nodup

/-!
# Tables with a primary key

`Table key` is a list of rows whose keys are distinct.  The distinctness
is a field, so a table with two rows under one key cannot be built, and
every operation below returns a table.  The operations are those of SQL:

* `insert` is `INSERT .. ON CONFLICT (key) DO NOTHING`;
* `upsert` is `INSERT .. ON CONFLICT (key) DO UPDATE`;
* `deleteWhere` and `updateWhere` are `DELETE` and `UPDATE`.

`SerialTable key` adds the sequence of a `BIGSERIAL` key: `next` is above
every key that was ever given out, so a key is never used twice, also
after its row is deleted.
-/

namespace DustMonitoring.Lib

variable {α κ : Type*}

/-- A list of rows with distinct keys. -/
structure Table (key : α → κ) where
  rows : List α
  nodup : (rows.map key).Nodup

namespace Table

variable {key : α → κ}

/-- The table with no row. -/
def empty : Table key := ⟨[], List.nodup_nil⟩

@[simp] theorem rows_empty : (empty : Table key).rows = [] := rfl

/-- Two rows under one key are the same row. -/
theorem eq_of_key_eq (t : Table key) {x y : α} (hx : x ∈ t.rows)
    (hy : y ∈ t.rows) (h : key x = key y) : x = y :=
  List.inj_on_of_nodup_map t.nodup hx hy h

/-! ## Lookup -/

section Lookup

variable [DecidableEq κ]

/-- The row under the key, if there is one. -/
def find? (t : Table key) (k : κ) : Option α :=
  t.rows.find? (fun r => decide (key r = k))

theorem find?_eq_some_iff {t : Table key} {k : κ} {r : α} :
    t.find? k = some r ↔ r ∈ t.rows ∧ key r = k := by
  constructor
  · intro h
    exact ⟨List.mem_of_find?_eq_some h, by simpa using List.find?_some h⟩
  · rintro ⟨hr, hk⟩
    cases hf : t.find? k with
    | none =>
      have hne := List.find?_eq_none.mp hf r hr
      exact absurd hk (by simpa using hne)
    | some x =>
      have hx : x ∈ t.rows := List.mem_of_find?_eq_some hf
      have hxk : key x = k := by simpa using List.find?_some hf
      rw [t.eq_of_key_eq hx hr (hxk.trans hk.symm)]

theorem find?_eq_none_iff {t : Table key} {k : κ} :
    t.find? k = none ↔ ∀ r ∈ t.rows, key r ≠ k := by
  simp [find?, List.find?_eq_none]

/-- No other row is under the key. -/
theorem filter_key_eq_singleton {t : Table key} {r : α} (hr : r ∈ t.rows) :
    (t.rows.filter fun x => decide (key x = key r)) = [r] := by
  have hnodup : (t.rows.filter fun x => decide (key x = key r)).Nodup :=
    (List.Nodup.of_map key t.nodup).filter _
  apply List.perm_singleton.mp
  rw [List.perm_ext_iff_of_nodup hnodup (List.nodup_singleton r)]
  intro x
  rw [List.mem_filter, decide_eq_true_iff, List.mem_singleton]
  constructor
  · rintro ⟨hx, hk⟩
    exact t.eq_of_key_eq hx hr hk
  · rintro rfl
    exact ⟨hr, rfl⟩

end Lookup

/-! ## Insertion -/

private theorem nodup_append_row {t : Table key} {r : α}
    (h : ∀ x ∈ t.rows, key x ≠ key r) :
    ((t.rows ++ [r]).map key).Nodup := by
  rw [List.map_append, List.nodup_append]
  refine ⟨t.nodup, by simp, ?_⟩
  intro a ha b hb hab
  obtain ⟨x, hx, rfl⟩ := List.mem_map.mp ha
  have hbr : b = key r := by simpa using hb
  exact h x hx (hab.trans hbr)

section Insertion

variable [DecidableEq κ]

/-- Append the row unless its key is taken. -/
def insert (t : Table key) (r : α) : Table key :=
  if h : ∀ x ∈ t.rows, key x ≠ key r then
    ⟨t.rows ++ [r], nodup_append_row h⟩
  else t

theorem rows_insert_of_find? {t : Table key} {r : α} (h : t.find? (key r) = none) :
    (t.insert r).rows = t.rows ++ [r] := by
  unfold insert
  rw [dif_pos (find?_eq_none_iff.mp h)]

theorem mem_insert {t : Table key} {r x : α} :
    x ∈ (t.insert r).rows ↔
      x ∈ t.rows ∨ (x = r ∧ ∀ y ∈ t.rows, key y ≠ key r) := by
  unfold insert
  split
  · rename_i h
    rw [List.mem_append, List.mem_singleton]
    exact or_congr_right ⟨fun hx => ⟨hx, h⟩, And.left⟩
  · rename_i h
    exact ⟨Or.inl, fun hx => hx.elim id fun hr => absurd hr.2 h⟩

/-- After an insert some row has the key. -/
theorem exists_key_insert (t : Table key) (r : α) :
    ∃ x ∈ (t.insert r).rows, key x = key r := by
  by_cases h : ∀ y ∈ t.rows, key y ≠ key r
  · exact ⟨r, mem_insert.mpr (Or.inr ⟨rfl, h⟩), rfl⟩
  · push Not at h
    obtain ⟨y, hy, hk⟩ := h
    exact ⟨y, mem_insert.mpr (Or.inl hy), hk⟩

/-- Rows with distinct keys, inserted one after the other.  Each of them is
there afterwards unless its key was taken before. -/
theorem mem_foldl_insert {rows : List α} (hnodup : (rows.map key).Nodup)
    {t : Table key} {x : α} :
    x ∈ (rows.foldl insert t).rows ↔
      x ∈ t.rows ∨ (x ∈ rows ∧ ∀ y ∈ t.rows, key y ≠ key x) := by
  induction rows generalizing t with
  | nil => simp
  | cons r rs ih =>
    rw [List.map_cons, List.nodup_cons] at hnodup
    have hne : ∀ y ∈ rs, key r ≠ key y := by
      intro y hy heq
      exact hnodup.1 (heq ▸ List.mem_map_of_mem hy)
    rw [List.foldl_cons, ih hnodup.2]
    constructor
    · intro h
      rcases h with h | ⟨hx, hfree⟩
      · rcases mem_insert.mp h with h | ⟨rfl, hfree⟩
        · exact Or.inl h
        · exact Or.inr ⟨List.mem_cons_self, hfree⟩
      · refine Or.inr ⟨List.mem_cons_of_mem r hx, fun y hy => ?_⟩
        exact hfree y (mem_insert.mpr (Or.inl hy))
    · intro h
      rcases h with h | ⟨hx, hfree⟩
      · exact Or.inl (mem_insert.mpr (Or.inl h))
      · rcases List.mem_cons.mp hx with rfl | htail
        · exact Or.inl (mem_insert.mpr (Or.inr ⟨rfl, hfree⟩))
        · refine Or.inr ⟨htail, fun y hy => ?_⟩
          rcases mem_insert.mp hy with hy | ⟨rfl, -⟩
          · exact hfree y hy
          · exact hne x htail

end Insertion

/-! ## Deletion and update -/

/-- Keep the rows that do not match. -/
def deleteWhere (t : Table key) (p : α → Bool) : Table key :=
  ⟨t.rows.filter (fun r => !p r),
    t.nodup.sublist (List.filter_sublist.map key)⟩

@[simp] theorem mem_deleteWhere {t : Table key} {p : α → Bool} {x : α} :
    x ∈ (t.deleteWhere p).rows ↔ x ∈ t.rows ∧ p x = false := by
  simp [deleteWhere]

/-- Rewrite the rows that match.  The rewrite keeps the key. -/
def updateWhere (t : Table key) (p : α → Bool) (f : α → α)
    (hf : ∀ r, key (f r) = key r) : Table key :=
  ⟨t.rows.map (fun r => if p r then f r else r), by
    rw [List.map_map]
    have hmap : (key ∘ fun r => if p r then f r else r) = key := by
      funext r
      simp only [Function.comp]
      split
      · exact hf r
      · rfl
    rw [hmap]
    exact t.nodup⟩

@[simp] theorem mem_updateWhere {t : Table key} {p : α → Bool} {f : α → α}
    {hf : ∀ r, key (f r) = key r} {x : α} :
    x ∈ (t.updateWhere p f hf).rows ↔
      ∃ y ∈ t.rows, (if p y then f y else y) = x := by
  simp [updateWhere]

/-- Under each key the update rewrites the row that was there. -/
theorem find?_updateWhere [DecidableEq κ] (t : Table key) (p : α → Bool)
    (f : α → α) (hf : ∀ r, key (f r) = key r) (k : κ) :
    (t.updateWhere p f hf).find? k =
      (t.find? k).map (fun r => if p r then f r else r) := by
  have hcomp : (fun r => decide (key r = k)) ∘ (fun r => if p r then f r else r) =
      fun r => decide (key r = k) := by
    funext r
    simp only [Function.comp]
    split
    · rw [hf r]
    · rfl
  rw [find?, find?, updateWhere, List.find?_map, hcomp]

/-- Every row is kept or deleted. -/
theorem length_deleteWhere (t : Table key) (p : α → Bool) :
    (t.deleteWhere p).rows.length + (t.rows.filter p).length = t.rows.length := by
  have hsplit := t.rows.length_eq_length_filter_add p
  show (t.rows.filter (fun r => !p r)).length + _ = _
  omega

@[simp] theorem length_updateWhere (t : Table key) (p : α → Bool) (f : α → α)
    (hf : ∀ r, key (f r) = key r) : (t.updateWhere p f hf).rows.length = t.rows.length :=
  List.length_map _

/-- Replace the row under the key, or append it. -/
def upsert [DecidableEq κ] (t : Table key) (r : α) : Table key :=
  (t.deleteWhere (fun x => decide (key x = key r))).insert r

theorem mem_upsert [DecidableEq κ] {t : Table key} {r x : α} :
    x ∈ (t.upsert r).rows ↔ x = r ∨ (x ∈ t.rows ∧ key x ≠ key r) := by
  simp only [upsert, mem_insert, mem_deleteWhere, decide_eq_false_iff_not]
  constructor
  · rintro (h | ⟨rfl, -⟩)
    · exact Or.inr h
    · exact Or.inl rfl
  · rintro (rfl | h)
    · exact Or.inr ⟨rfl, fun y hy => hy.2⟩
    · exact Or.inl h

/-- Rows with distinct keys, put in one after the other, take the places of
those with their keys. -/
theorem mem_foldl_upsert [DecidableEq κ] {rows : List α} (hnodup : (rows.map key).Nodup)
    {t : Table key} {x : α} :
    x ∈ (rows.foldl upsert t).rows ↔
      x ∈ rows ∨ (x ∈ t.rows ∧ ∀ y ∈ rows, key y ≠ key x) := by
  induction rows generalizing t with
  | nil => simp
  | cons r rs ih =>
    rw [List.map_cons, List.nodup_cons] at hnodup
    have hne : ∀ y ∈ rs, key y ≠ key r := by
      intro y hy heq
      exact hnodup.1 (heq ▸ List.mem_map_of_mem hy)
    rw [List.foldl_cons, ih hnodup.2, List.mem_cons, List.forall_mem_cons]
    constructor
    · rintro (h | ⟨hx, hfree⟩)
      · exact Or.inl (Or.inr h)
      · rcases mem_upsert.mp hx with rfl | ⟨hx, hxr⟩
        · exact Or.inl (Or.inl rfl)
        · exact Or.inr ⟨hx, Ne.symm hxr, hfree⟩
    · rintro ((rfl | h) | ⟨hx, hxr, hfree⟩)
      · exact Or.inr ⟨mem_upsert.mpr (Or.inl rfl), hne⟩
      · exact Or.inl h
      · exact Or.inr ⟨mem_upsert.mpr (Or.inr ⟨hx, Ne.symm hxr⟩), hfree⟩

/-- Under its key an upserted row is found, and under every other key what
was found before. -/
theorem find?_upsert [DecidableEq κ] (t : Table key) (r : α) (k : κ) :
    (t.upsert r).find? k = if k = key r then some r else t.find? k := by
  split
  · next h => exact find?_eq_some_iff.mpr ⟨mem_upsert.mpr (Or.inl rfl), h.symm⟩
  · next h =>
    cases hf : t.find? k with
    | none =>
      rw [find?_eq_none_iff] at hf ⊢
      intro x hx hk
      rcases mem_upsert.mp hx with rfl | hx
      · exact h hk.symm
      · exact hf x hx.1 hk
    | some y =>
      obtain ⟨hy, hk⟩ := find?_eq_some_iff.mp hf
      refine find?_eq_some_iff.mpr ⟨mem_upsert.mpr (Or.inr ⟨hy, ?_⟩), hk⟩
      exact fun heq => h (hk.symm.trans heq)

/-- A row whose key is deleted is not found, and every other key finds what
it found before. -/
theorem find?_deleteWhere_key [DecidableEq κ] (t : Table key) (k k' : κ) :
    (t.deleteWhere fun r => decide (key r = k)).find? k' =
      if k' = k then none else t.find? k' := by
  split
  · next h =>
    rw [find?_eq_none_iff]
    intro x hx hk
    have hne := (mem_deleteWhere.mp hx).2
    rw [decide_eq_false_iff_not] at hne
    exact hne (hk.trans h)
  · next h =>
    cases hf : t.find? k' with
    | none =>
      rw [find?_eq_none_iff] at hf ⊢
      exact fun x hx => hf x (mem_deleteWhere.mp hx).1
    | some y =>
      obtain ⟨hy, hk⟩ := find?_eq_some_iff.mp hf
      refine find?_eq_some_iff.mpr ⟨mem_deleteWhere.mpr ⟨hy, ?_⟩, hk⟩
      rw [decide_eq_false_iff_not, hk]
      exact h

/-! ## The keys -/

/-- There is a row under the key. -/
def Has (t : Table key) (k : κ) : Prop := ∃ r ∈ t.rows, key r = k

section Has

variable {t : Table key} {r : α} {k : κ}

theorem has_iff_find? [DecidableEq κ] : t.Has k ↔ (t.find? k).isSome = true := by
  rw [Has, Option.isSome_iff_exists]
  simp only [find?_eq_some_iff]

@[simp] theorem has_insert [DecidableEq κ] : (t.insert r).Has k ↔ t.Has k ∨ k = key r := by
  constructor
  · rintro ⟨x, hx, rfl⟩
    rcases mem_insert.mp hx with hx | ⟨rfl, -⟩
    · exact Or.inl ⟨x, hx, rfl⟩
    · exact Or.inr rfl
  · rintro (⟨x, hx, rfl⟩ | rfl)
    · exact ⟨x, mem_insert.mpr (Or.inl hx), rfl⟩
    · exact exists_key_insert t r

@[simp] theorem has_deleteWhere_key [DecidableEq κ] {k' : κ} :
    (t.deleteWhere fun r => decide (key r = k')).Has k ↔ t.Has k ∧ k ≠ k' := by
  simp only [Has, mem_deleteWhere, decide_eq_false_iff_not]
  constructor
  · rintro ⟨x, ⟨hx, hne⟩, rfl⟩
    exact ⟨⟨x, hx, rfl⟩, hne⟩
  · rintro ⟨⟨x, hx, rfl⟩, hne⟩
    exact ⟨x, ⟨hx, hne⟩, rfl⟩

@[simp] theorem has_upsert [DecidableEq κ] : (t.upsert r).Has k ↔ t.Has k ∨ k = key r := by
  rw [upsert, has_insert, has_deleteWhere_key]
  by_cases hk : k = key r <;> simp [hk]

@[simp] theorem has_updateWhere {p : α → Bool} {f : α → α} {hf : ∀ r, key (f r) = key r} :
    (t.updateWhere p f hf).Has k ↔ t.Has k := by
  have hkey : ∀ x, key (if p x then f x else x) = key x := by
    intro x
    split
    · exact hf x
    · rfl
  simp [Has, hkey]

theorem has_of_mem_updateWhere {p : α → Bool} {f : α → α} {hf : ∀ r, key (f r) = key r}
    (h : r ∈ (t.updateWhere p f hf).rows) : t.Has (key r) :=
  has_updateWhere.mp ⟨r, h, rfl⟩

/-- A key of the table is the key of one row. -/
theorem length_filter_key [DecidableEq κ] (h : t.Has k) :
    (t.rows.filter fun r => decide (key r = k)).length = 1 := by
  obtain ⟨r, hr, hk⟩ := h
  have hone := List.count_eq_one_of_mem t.nodup (List.mem_map_of_mem hr)
  rw [hk, List.count, List.countP_map, List.countP_eq_length_filter] at hone
  rw [← hone]
  congr 1

/-- A table that has the keys of another one is longer by the keys that are
new. -/
theorem length_eq_add_new [DecidableEq κ] {t' : Table key} (h : ∀ k, t.Has k → t'.Has k) :
    t'.rows.length = t.rows.length +
      ((t'.rows.map key).filter fun k => decide (k ∉ t.rows.map key)).length := by
  have hsplit := (t'.rows.map key).length_eq_length_filter_add
    fun k => decide (k ∈ t.rows.map key)
  have hperm : ((t'.rows.map key).filter fun k => decide (k ∈ t.rows.map key)).Perm
      (t.rows.map key) := by
    rw [List.perm_ext_iff_of_nodup (t'.nodup.filter _) t.nodup]
    intro k
    rw [List.mem_filter, decide_eq_true_eq, and_iff_right_iff_imp]
    intro hk
    obtain ⟨r, hr, hkey⟩ := h k (List.mem_map.mp hk)
    exact List.mem_map.mpr ⟨r, hr, hkey⟩
  have hold := hperm.length_eq
  simp only [List.length_map, decide_not] at hsplit hold ⊢
  omega

end Has

/-! ## Tables side by side -/

theorem ext_rows {t t' : Table key} (h : t.rows = t'.rows) : t = t' := by
  cases t
  cases t'
  cases h
  rfl

theorem rows_upsert [DecidableEq κ] (t : Table key) (r : α) :
    (t.upsert r).rows = t.rows.filter (fun x => !decide (key x = key r)) ++ [r] := by
  unfold upsert insert
  rw [dif_pos]
  · rfl
  · intro x hx heq
    rw [mem_deleteWhere, decide_eq_false_iff_not] at hx
    exact hx.2 heq

/-- A row that is replaced at once need not have been inserted. -/
theorem upsert_insert [DecidableEq κ] (t : Table key) {r r' : α} (h : key r = key r')
    (hnew : t.find? (key r) = none) : (t.insert r).upsert r' = t.upsert r' := by
  have hfree : ∀ x ∈ t.rows, key x ≠ key r := find?_eq_none_iff.mp hnew
  apply ext_rows
  rw [rows_upsert, rows_upsert, insert, dif_pos hfree, List.filter_append]
  simp [h]

section Map

variable {β κ' : Type*} {key' : β → κ'} {f : α → β} {g : κ → κ'}

/-- The same table with other rows and other keys. -/
def map (t : Table key) (f : α → β) {g : κ → κ'} (hg : Function.Injective g)
    (hkey : ∀ r, key' (f r) = g (key r)) : Table key' where
  rows := t.rows.map f
  nodup := by
    have hmap : (t.rows.map f).map key' = (t.rows.map key).map g := by
      rw [List.map_map, List.map_map]
      exact List.map_congr_left fun r _ => hkey r
    rw [hmap]
    exact t.nodup.map hg

variable (t : Table key) (f) (hg : Function.Injective g) (hkey : ∀ r, key' (f r) = g (key r))

theorem find?_map [DecidableEq κ] [DecidableEq κ'] (k : κ) :
    (t.map f hg hkey).find? (g k) = (t.find? k).map f := by
  have hcomp : (fun r => decide (key' r = g k)) ∘ f = fun r => decide (key r = k) := by
    funext r
    simp [hkey, hg.eq_iff]
  rw [find?, find?, map, List.find?_map, hcomp]

theorem upsert_map [DecidableEq κ] [DecidableEq κ'] (r : α) :
    (t.map f hg hkey).upsert (f r) = (t.upsert r).map f hg hkey := by
  have hcomp : (fun x => !decide (key' x = key' (f r))) ∘ f =
      fun x => !decide (key x = key r) := by
    funext x
    simp [hkey, hg.eq_iff]
  apply ext_rows
  rw [rows_upsert]
  show (t.rows.map f).filter (fun x => !decide (key' x = key' (f r))) ++ [f r] =
    (t.upsert r).rows.map f
  rw [rows_upsert, List.map_append, List.filter_map, hcomp]
  rfl

end Map

end Table

/-- A table whose keys come from a sequence. -/
structure SerialTable (key : α → Nat) extends Table key where
  next : Nat
  lt_next : ∀ r ∈ rows, key r < next

namespace SerialTable

variable {key : α → Nat}

/-- The same rows in another order. -/
def reorder (t : SerialTable key) (rows : List α) (h : t.rows.Perm rows) : SerialTable key where
  rows := rows
  nodup := (h.map key).nodup_iff.mp t.nodup
  next := t.next
  lt_next := fun r hr => t.lt_next r (h.mem_iff.mpr hr)

/-- The table with no row, before any key was given out. -/
def empty : SerialTable key := ⟨Table.empty, 1, by simp⟩

@[simp] theorem rows_empty : (empty : SerialTable key).rows = [] := rfl

/-- Append the row that `mk` builds from the next key of the sequence. -/
def append (t : SerialTable key) (mk : Nat → α) (hk : ∀ n, key (mk n) = n) :
    SerialTable key where
  rows := t.rows ++ [mk t.next]
  nodup := by
    rw [List.map_append, List.nodup_append]
    refine ⟨t.nodup, by simp, ?_⟩
    intro a ha b hb hab
    obtain ⟨x, hx, rfl⟩ := List.mem_map.mp ha
    have hlt := t.lt_next x hx
    have hbn : b = t.next := by simpa [hk] using hb
    omega
  next := t.next + 1
  lt_next := by
    intro r hr
    rcases List.mem_append.mp hr with h | h
    · have := t.lt_next r h
      omega
    · rw [List.mem_singleton.mp h, hk]
      omega

@[simp] theorem mem_append {t : SerialTable key} {mk : Nat → α}
    {hk : ∀ n, key (mk n) = n} {x : α} :
    x ∈ (t.append mk hk).rows ↔ x ∈ t.rows ∨ x = mk t.next := by
  simp [append]

/-- The appended row is found under the key it got, and every other key
finds what it found before. -/
theorem find?_append (t : SerialTable key) (mk : Nat → α)
    (hk : ∀ n, key (mk n) = n) (k : Nat) :
    (t.append mk hk).find? k =
      if k = t.next then some (mk t.next) else t.find? k := by
  split
  · next h =>
    subst h
    exact Table.find?_eq_some_iff.mpr ⟨mem_append.mpr (Or.inr rfl), hk _⟩
  · next h =>
    show List.find? _ (t.rows ++ [mk t.next]) = List.find? _ t.rows
    have hne : ¬ key (mk t.next) = k := fun heq => h (heq.symm.trans (hk _))
    rw [List.find?_append, List.find?_singleton]
    simp [hne]

theorem find?_next (t : SerialTable key) : t.find? t.next = none := by
  rw [Table.find?_eq_none_iff]
  intro r hr heq
  exact absurd heq (Nat.ne_of_lt (t.lt_next r hr))

/-- An insert that is rolled back: the sequence does not take its key
back. -/
def skip (t : SerialTable key) : SerialTable key where
  toTable := t.toTable
  next := t.next + 1
  lt_next := fun r hr => Nat.lt_succ_of_lt (t.lt_next r hr)

/-- Keep the rows that do not match.  The sequence does not go back. -/
def deleteWhere (t : SerialTable key) (p : α → Bool) : SerialTable key where
  toTable := t.toTable.deleteWhere p
  next := t.next
  lt_next := fun r hr => t.lt_next r (Table.mem_deleteWhere.mp hr).1

/-- Rewrite the rows that match. -/
def updateWhere (t : SerialTable key) (p : α → Bool) (f : α → α)
    (hf : ∀ r, key (f r) = key r) : SerialTable key where
  toTable := t.toTable.updateWhere p f hf
  next := t.next
  lt_next := by
    intro r hr
    obtain ⟨y, hy, rfl⟩ := Table.mem_updateWhere.mp hr
    split
    · rw [hf]
      exact t.lt_next y hy
    · exact t.lt_next y hy

@[simp] theorem toTable_updateWhere (t : SerialTable key) (p : α → Bool)
    (f : α → α) (hf : ∀ r, key (f r) = key r) :
    (t.updateWhere p f hf).toTable = t.toTable.updateWhere p f hf := rfl

end SerialTable

/-! ## What a client learns of a write -/

/-- How a write to a database ends for the client: it is applied, or it
fails and the client gets an exception.  A `lost` write was applied, but
the client got an exception all the same. -/
inductive Outcome where
  | ok
  | failed (exc : String)
  | lost (exc : String)
deriving DecidableEq, Repr

namespace Outcome

/-- The write took effect. -/
def applied : Outcome → Bool
  | ok | lost _ => true
  | failed _ => false

/-- The database after a write that would turn `before` into `after`. -/
def settle {σ : Type*} (o : Outcome) (before after : σ) : σ :=
  if o.applied then after else before

/-- The exception that the client got. -/
def exc? : Outcome → Option String
  | ok => none
  | failed exc | lost exc => some exc

end Outcome

end DustMonitoring.Lib
