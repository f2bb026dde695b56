import Mathlib.Data.List.Induction
import Mathlib.Data.List.Perm.Subperm
import Mathlib.Data.List.Sort
import Mathlib.Data.Prod.Lex

/-!
# Ordered queries

`orderBy key` is the stable `ORDER BY` of a query, and `distinctOn key`
keeps the first row of each key, as `DISTINCT ON (key)` does on an ordered
result.  A key of several columns is a value of a lexicographic product.
`groupOn key` collects the rows of each key, as a program does that
appends them one after the other to lists in a dictionary.
-/

namespace DustMonitoring.Lib

variable {α β κ : Type*}

section OrderBy

variable [LinearOrder β]

/-- The rows in ascending order of the key. -/
def orderBy (key : α → β) (rows : List α) : List α :=
  rows.insertionSort (fun a b => key a ≤ key b)

@[simp] theorem mem_orderBy {key : α → β} {rows : List α} {x : α} :
    x ∈ orderBy key rows ↔ x ∈ rows :=
  List.mem_insertionSort _

theorem perm_orderBy (key : α → β) (rows : List α) :
    (orderBy key rows).Perm rows :=
  List.perm_insertionSort _ rows

theorem pairwise_orderBy (key : α → β) (rows : List α) :
    (orderBy key rows).Pairwise (fun a b => key a ≤ key b) := by
  have htotal : Std.Total (fun a b : α => key a ≤ key b) :=
    ⟨fun a b => le_total (key a) (key b)⟩
  have htrans : IsTrans α (fun a b => key a ≤ key b) :=
    ⟨fun a b c hab hbc => le_trans hab hbc⟩
  exact List.pairwise_insertionSort _ rows

/-- Only the comparisons of the keys count. -/
theorem orderBy_congr {γ : Type*} [LinearOrder γ] {f : α → β} {g : α → γ}
    (h : ∀ a b, f a ≤ f b ↔ g a ≤ g b) (rows : List α) :
    orderBy f rows = orderBy g rows := by
  simp only [orderBy, h]

/-- If no two of the rows have the same key, the order in which they come
does not count. -/
theorem orderBy_eq_of_perm {key : α → β} {rows rows' : List α}
    (hperm : rows.Perm rows')
    (hkey : ∀ a ∈ rows, ∀ b ∈ rows, key a = key b → a = b) :
    orderBy key rows = orderBy key rows' := by
  refine ((perm_orderBy key rows).trans (hperm.trans
    (perm_orderBy key rows').symm)).eq_of_pairwise ?_ (pairwise_orderBy key rows)
    (pairwise_orderBy key rows')
  intro a b ha hb hab hba
  have hb' : b ∈ rows := hperm.mem_iff.mpr (mem_orderBy.mp hb)
  exact hkey a (mem_orderBy.mp ha) b hb' (le_antisymm hab hba)

/-- Values in ascending order are the ordered ones. -/
theorem eq_orderBy_of_perm {xs ys : List β} (hperm : xs.Perm ys)
    (hsorted : xs.Pairwise (fun a b => a ≤ b)) : xs = orderBy id ys :=
  (hperm.trans (perm_orderBy id ys).symm).eq_of_pairwise
    (fun _ _ _ _ hab hba => le_antisymm hab hba) hsorted
    (pairwise_orderBy id ys)

/-- Rows that are numbered without a gap, by their numbers. -/
theorem map_orderBy_numbered {key : α → β} {number : Nat → β} (hnumber : StrictMono number)
    {γ : Type*} {value : α → γ} {rows : List α} {parts : List γ}
    (hnodup : (rows.map key).Nodup) (hlength : rows.length = parts.length)
    (hrows : ∀ r ∈ rows, ∃ i, key r = number i ∧ parts[i]? = some (value r)) :
    (orderBy key rows).map value = parts := by
  have hsubset : rows.map key ⊆ (List.range parts.length).map number := by
    intro k hk
    obtain ⟨r, hr, rfl⟩ := List.mem_map.mp hk
    obtain ⟨i, hi, hpart⟩ := hrows r hr
    rw [hi]
    exact List.mem_map_of_mem (List.mem_range.mpr (List.getElem?_eq_some_iff.mp hpart).1)
  have hperm : (rows.map key).Perm ((List.range parts.length).map number) := by
    apply (hnodup.subperm hsubset).perm_of_length_le
    simp [hlength]
  have hkeys : (orderBy key rows).map key = (List.range parts.length).map number := by
    apply (((perm_orderBy key rows).map key).trans hperm).eq_of_pairwise
      (fun _ _ _ _ hab hba => le_antisymm hab hba)
    · exact List.pairwise_map.mpr (pairwise_orderBy key rows)
    · apply List.pairwise_map.mpr
      exact List.pairwise_lt_range.imp fun hlt => (hnumber hlt).le
  have hsorted : (orderBy key rows).length = parts.length :=
    (perm_orderBy key rows).length_eq.trans hlength
  apply List.ext_getElem (by rw [List.length_map, hsorted])
  intro j hj _
  rw [List.length_map] at hj
  rw [List.getElem_map]
  obtain ⟨i, hi, hpart⟩ := hrows _ (mem_orderBy.mp (List.getElem_mem hj))
  have hkey : key (orderBy key rows)[j] = number j := by
    have hget := congrArg (fun keys => keys[j]?) hkeys
    simpa [hj, hsorted ▸ hj] using hget
  obtain rfl : i = j := hnumber.injective (hi.symm.trans hkey)
  obtain ⟨_, hvalue⟩ := List.getElem?_eq_some_iff.mp hpart
  exact hvalue.symm

end OrderBy

section DistinctOn

variable [DecidableEq κ]

/-- The first row of each key. -/
def distinctOn (key : α → κ) : List α → List α
  | [] => []
  | r :: rs => r :: (distinctOn key rs).filter (fun x => key x ≠ key r)

theorem mem_of_mem_distinctOn {key : α → κ} {rows : List α} {x : α}
    (h : x ∈ distinctOn key rows) : x ∈ rows := by
  induction rows with
  | nil => exact h
  | cons r rs ih =>
    rcases List.mem_cons.mp h with rfl | h
    · exact List.mem_cons_self
    · exact List.mem_cons_of_mem r (ih (List.mem_of_mem_filter h))

theorem nodup_map_distinctOn (key : α → κ) (rows : List α) :
    ((distinctOn key rows).map key).Nodup := by
  induction rows with
  | nil => exact List.nodup_nil
  | cons r rs ih =>
    rw [distinctOn, List.map_cons, List.nodup_cons]
    constructor
    · intro h
      obtain ⟨x, hx, heq⟩ := List.mem_map.mp h
      have hne := (List.mem_filter.mp hx).2
      exact absurd heq (by simpa using hne)
    · exact ih.sublist (List.filter_sublist.map key)

/-- Every key has a row. -/
theorem exists_mem_distinctOn {key : α → κ} {rows : List α} {y : α}
    (hy : y ∈ rows) : ∃ x ∈ distinctOn key rows, key x = key y := by
  induction rows with
  | nil => exact absurd hy List.not_mem_nil
  | cons r rs ih =>
    by_cases hk : key y = key r
    · exact ⟨r, List.mem_cons_self, hk.symm⟩
    · rcases List.mem_cons.mp hy with rfl | hy
      · exact absurd rfl hk
      · obtain ⟨x, hx, hxy⟩ := ih hy
        refine ⟨x, List.mem_cons_of_mem r (List.mem_filter.mpr ⟨hx, ?_⟩), hxy⟩
        simpa [hxy] using hk

/-- In an ordered list the row that is kept comes before every other row of
its key. -/
theorem rel_of_mem_distinctOn {key : α → κ} {R : α → α → Prop}
    {rows : List α} (hrows : rows.Pairwise R) {x y : α}
    (hx : x ∈ distinctOn key rows) (hy : y ∈ rows) (hk : key y = key x) :
    y = x ∨ R x y := by
  induction rows with
  | nil => exact absurd hy List.not_mem_nil
  | cons r rs ih =>
    rw [List.pairwise_cons] at hrows
    rcases List.mem_cons.mp hx with rfl | hx
    · rcases List.mem_cons.mp hy with rfl | hy
      · exact Or.inl rfl
      · exact Or.inr (hrows.1 y hy)
    · obtain ⟨hx, hne⟩ := List.mem_filter.mp hx
      rcases List.mem_cons.mp hy with rfl | hy
      · exact absurd hk.symm (by simpa using hne)
      · exact ih hrows.2 hx hy

end DistinctOn

section GroupOn

variable [DecidableEq κ]

/-- Append a row to the group of the key, a new group if there is none. -/
def appendTo (k : κ) (r : α) : List (κ × List α) → List (κ × List α)
  | [] => [(k, [r])]
  | g :: gs => if g.1 = k then (g.1, g.2 ++ [r]) :: gs else g :: appendTo k r gs

/-- The rows of each key in their order, the keys in the order in which
they first appear. -/
def groupOn (key : α → κ) (rows : List α) : List (κ × List α) :=
  rows.foldl (fun gs r => appendTo (key r) r gs) []

theorem exists_mem_appendTo (k : κ) (r : α) (gs : List (κ × List α)) :
    ∃ g ∈ appendTo k r gs, g.1 = k := by
  induction gs with
  | nil => exact ⟨(k, [r]), List.mem_singleton_self _, rfl⟩
  | cons g gs ih =>
    rw [appendTo]
    split
    · next h => exact ⟨_, List.mem_cons_self, h⟩
    · obtain ⟨g', hg', h⟩ := ih
      exact ⟨g', List.mem_cons_of_mem g hg', h⟩

/-- A group keeps its key when a row is appended. -/
theorem exists_mem_appendTo_of_mem (k : κ) (r : α) {gs : List (κ × List α)}
    {g : κ × List α} (hg : g ∈ gs) : ∃ g' ∈ appendTo k r gs, g'.1 = g.1 := by
  induction gs with
  | nil => exact absurd hg List.not_mem_nil
  | cons x gs ih =>
    rw [appendTo]
    rcases List.mem_cons.mp hg with rfl | hg
    · split
      · exact ⟨_, List.mem_cons_self, rfl⟩
      · exact ⟨g, List.mem_cons_self, rfl⟩
    · split
      · exact ⟨g, List.mem_cons_of_mem _ hg, rfl⟩
      · obtain ⟨g', hg', h⟩ := ih hg
        exact ⟨g', List.mem_cons_of_mem x hg', h⟩

theorem ne_nil_of_mem_appendTo {k : κ} {r : α} {gs : List (κ × List α)}
    (hgs : ∀ g ∈ gs, g.2 ≠ []) {g : κ × List α} (hg : g ∈ appendTo k r gs) :
    g.2 ≠ [] := by
  induction gs with
  | nil =>
    obtain rfl := List.mem_singleton.mp hg
    exact List.cons_ne_nil r []
  | cons x gs ih =>
    rw [appendTo] at hg
    split at hg
    · rcases List.mem_cons.mp hg with rfl | hg
      · simp
      · exact hgs g (List.mem_cons_of_mem x hg)
    · rcases List.mem_cons.mp hg with rfl | hg
      · exact hgs g List.mem_cons_self
      · exact ih (fun g' hg' => hgs g' (List.mem_cons_of_mem x hg')) hg

theorem key_of_mem_appendTo {k : κ} {r : α} {gs : List (κ × List α)}
    {g : κ × List α} (hg : g ∈ appendTo k r gs) :
    g.1 = k ∨ ∃ g' ∈ gs, g'.1 = g.1 := by
  induction gs with
  | nil =>
    obtain rfl := List.mem_singleton.mp hg
    exact Or.inl rfl
  | cons x gs ih =>
    rw [appendTo] at hg
    split at hg
    · next hk =>
      rcases List.mem_cons.mp hg with rfl | hg
      · exact Or.inl hk
      · exact Or.inr ⟨g, List.mem_cons_of_mem x hg, rfl⟩
    · rcases List.mem_cons.mp hg with rfl | hg
      · exact Or.inr ⟨g, List.mem_cons_self, rfl⟩
      · rcases ih hg with hk | ⟨g', hg', hk⟩
        · exact Or.inl hk
        · exact Or.inr ⟨g', List.mem_cons_of_mem x hg', hk⟩

/-- Every row is of some group. -/
theorem exists_mem_groupOn (key : α → κ) {rows : List α} {r : α}
    (hr : r ∈ rows) : ∃ g ∈ groupOn key rows, g.1 = key r := by
  induction rows using List.reverseRecOn with
  | nil => exact absurd hr List.not_mem_nil
  | append_singleton rows x ih =>
    rw [groupOn, List.foldl_append]
    rcases List.mem_append.mp hr with hr | hr
    · obtain ⟨g, hg, hk⟩ := ih hr
      obtain ⟨g', hg', hk'⟩ := exists_mem_appendTo_of_mem (key x) x hg
      exact ⟨g', hg', hk'.trans hk⟩
    · obtain rfl := List.mem_singleton.mp hr
      exact exists_mem_appendTo (key r) r _

/-- Every group is of some row, and it is not empty. -/
theorem of_mem_groupOn {key : α → κ} {rows : List α} {g : κ × List α}
    (hg : g ∈ groupOn key rows) : g.2 ≠ [] ∧ ∃ r ∈ rows, key r = g.1 := by
  induction rows using List.reverseRecOn generalizing g with
  | nil => exact absurd hg List.not_mem_nil
  | append_singleton rows x ih =>
    rw [groupOn, List.foldl_append] at hg
    refine ⟨ne_nil_of_mem_appendTo (fun g' hg' => (ih hg').1) hg, ?_⟩
    rcases key_of_mem_appendTo hg with hk | ⟨g', hg', hk⟩
    · exact ⟨x, by simp, hk.symm⟩
    · obtain ⟨r, hr, hkr⟩ := (ih hg').2
      exact ⟨r, List.mem_append_left _ hr, hkr.trans hk⟩

theorem map_fst_appendTo (k : κ) (r : α) (gs : List (κ × List α)) :
    (appendTo k r gs).map Prod.fst =
      if k ∈ gs.map Prod.fst then gs.map Prod.fst else gs.map Prod.fst ++ [k] := by
  induction gs with
  | nil => rfl
  | cons g gs ih =>
    rw [appendTo]
    by_cases hk : g.1 = k
    · rw [if_pos hk, if_pos (by simp [hk])]
      rfl
    · have hmem : k ∈ (g :: gs).map Prod.fst ↔ k ∈ gs.map Prod.fst := by
        simp [Ne.symm hk]
      rw [if_neg hk, List.map_cons, ih]
      simp only [hmem]
      split
      · rfl
      · rfl

/-- No two groups have the same key. -/
theorem nodup_map_fst_groupOn (key : α → κ) (rows : List α) :
    ((groupOn key rows).map Prod.fst).Nodup := by
  induction rows using List.reverseRecOn with
  | nil => exact List.nodup_nil
  | append_singleton rows x ih =>
    rw [groupOn, List.foldl_append]
    show ((appendTo (key x) x (groupOn key rows)).map Prod.fst).Nodup
    rw [map_fst_appendTo]
    split
    · exact ih
    · next h => exact List.nodup_append.mpr ⟨ih, List.nodup_singleton _, by
        intro a ha b hb
        rw [List.mem_singleton.mp hb]
        exact fun heq => h (heq ▸ ha)⟩

/-- The group of the key grows by the row, and the others stay. -/
theorem mem_appendTo_cases {k : κ} {r : α} {gs : List (κ × List α)}
    (hnodup : (gs.map Prod.fst).Nodup) {g : κ × List α} (hg : g ∈ appendTo k r gs) :
    (g.1 ≠ k ∧ g ∈ gs) ∨
      (g.1 = k ∧ ∃ xs, g.2 = xs ++ [r] ∧
        ((k, xs) ∈ gs ∨ (xs = [] ∧ k ∉ gs.map Prod.fst))) := by
  induction gs with
  | nil =>
    obtain rfl := List.mem_singleton.mp hg
    exact Or.inr ⟨rfl, [], rfl, Or.inr ⟨rfl, List.not_mem_nil⟩⟩
  | cons x gs ih =>
    obtain ⟨hx, hnodup⟩ := List.nodup_cons.mp hnodup
    rw [appendTo] at hg
    split at hg
    · next hk =>
      rcases List.mem_cons.mp hg with rfl | hg
      · exact Or.inr ⟨hk, x.2, rfl, Or.inl (by rw [← hk]; exact List.mem_cons_self)⟩
      · refine Or.inl ⟨fun heq => hx ?_, List.mem_cons_of_mem x hg⟩
        exact List.mem_map.mpr ⟨g, hg, heq.trans hk.symm⟩
    · next hk =>
      rcases List.mem_cons.mp hg with rfl | hg
      · exact Or.inl ⟨hk, List.mem_cons_self⟩
      · rcases ih hnodup hg with ⟨hne, hg⟩ | ⟨heq, xs, hxs, hold⟩
        · exact Or.inl ⟨hne, List.mem_cons_of_mem x hg⟩
        · refine Or.inr ⟨heq, xs, hxs, ?_⟩
          rcases hold with hold | ⟨hnil, hnew⟩
          · exact Or.inl (List.mem_cons_of_mem x hold)
          · refine Or.inr ⟨hnil, ?_⟩
            simp only [List.map_cons, List.mem_cons, not_or]
            exact ⟨Ne.symm hk, hnew⟩

/-- A group holds the rows of its key, in their order. -/
theorem snd_of_mem_groupOn {key : α → κ} {rows : List α} {g : κ × List α}
    (hg : g ∈ groupOn key rows) :
    g.2 = rows.filter fun r => decide (key r = g.1) := by
  induction rows using List.reverseRecOn generalizing g with
  | nil => exact absurd hg List.not_mem_nil
  | append_singleton rows x ih =>
    rw [groupOn, List.foldl_append] at hg
    rw [List.filter_append, List.filter_singleton]
    rcases mem_appendTo_cases (nodup_map_fst_groupOn key rows) hg with
      ⟨hne, hg⟩ | ⟨heq, xs, hxs, hold⟩
    · rw [ih hg, decide_eq_false (Ne.symm hne)]
      simp
    · rw [hxs, heq, decide_eq_true rfl]
      refine congrArg (· ++ [x]) ?_
      rcases hold with hold | ⟨rfl, hnew⟩
      · exact ih hold
      · -- no row before this one has the key
        refine (List.filter_eq_nil_iff.mpr fun r hr h => hnew ?_).symm
        obtain ⟨g', hg', hk⟩ := exists_mem_groupOn key hr
        refine List.mem_map.mpr ⟨g', hg', hk.trans ?_⟩
        exact of_decide_eq_true h

/-- Rows of one key make one group. -/
theorem groupOn_of_forall_eq {key : α → κ} {k : κ} {rows : List α}
    (hne : rows ≠ []) (hkey : ∀ r ∈ rows, key r = k) :
    groupOn key rows = [(k, rows)] := by
  induction rows using List.reverseRecOn with
  | nil => exact absurd rfl hne
  | append_singleton rows x ih =>
    have hx : key x = k := hkey x (by simp)
    rw [groupOn, List.foldl_append]
    show appendTo (key x) x (groupOn key rows) = _
    by_cases hnil : rows = []
    · rw [hnil, hx]
      rfl
    · rw [ih hnil fun r hr => hkey r (List.mem_append_left _ hr), hx, appendTo,
        if_pos rfl]

end GroupOn

end DustMonitoring.Lib
