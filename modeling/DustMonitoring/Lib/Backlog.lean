import Mathlib.Data.List.Perm.Subperm
import DustMonitoring.Lib.Query

/-!
# Serving a backlog in batches

A backlog is served in rounds.  A round takes the first `limit` items in
the order of their key and removes those that can be served; an item that
is stuck stays and is taken again by the next round.  The order among
items with one key is open, and may change from round to round (`tie`).

* `not_mem_of_rounds`: an item is gone after as many rounds as there are
  items to serve that do not come after it, if fewer than `limit` stuck
  items do not come after it.
* `mem_of_rounds`: as soon as `limit` stuck items are in front of it in
  every round, it stays for ever.
-/

namespace DustMonitoring.Lib.Backlog

variable {α κ : Type*} [LinearOrder κ] (key : α → κ) (stuck : α → Bool)
  (limit : Nat)

/-- The items that a round takes. -/
def batch (tie : α → Nat) (items : List α) : List α :=
  (orderBy (fun x => toLex (key x, tie x)) items).take limit

/-- The items after a round: those it did not take, and the stuck ones. -/
structure Serves (tie : α → Nat) (items items' : List α) : Prop where
  nodup : items'.Nodup
  mem_iff : ∀ x, x ∈ items' ↔
    x ∈ items ∧ (x ∈ batch key limit tie items → stuck x = true)

/-- The items after one round for each of the ties. -/
inductive Rounds : List (α → Nat) → List α → List α → Prop
  | nil (items : List α) : Rounds [] items items
  | cons {tie ties items mid items'} (head : Serves key stuck limit tie items mid)
      (tail : Rounds ties mid items') : Rounds (tie :: ties) items items'

/-- The stuck items that do not come after `x`. -/
def stuckAhead (items : List α) (x : α) : List α :=
  items.filter fun y => stuck y && decide (key y ≤ key x)

/-- The items to serve that do not come after `x`, with `x` itself. -/
def waiting (items : List α) (x : α) : List α :=
  items.filter fun y => !stuck y && decide (key y ≤ key x)

variable {key stuck limit} {tie : α → Nat} {items items' : List α} {x : α}

/-! ## The batch -/

theorem batch_subset : batch key limit tie items ⊆ items := by
  intro y hy
  exact mem_orderBy.mp (List.mem_of_mem_take hy)

theorem nodup_batch (h : items.Nodup) : (batch key limit tie items).Nodup :=
  ((perm_orderBy _ items).nodup_iff.mpr h).take

/-- A batch that leaves out `x` is full, and nothing in it comes after
`x`. -/
theorem batch_of_not_mem (hx : x ∈ items)
    (hout : x ∉ batch key limit tie items) :
    (batch key limit tie items).length = limit ∧
      ∀ y ∈ batch key limit tie items, key y ≤ key x := by
  have hsorted := pairwise_orderBy (fun y => toLex (key y, tie y)) items
  have hmem : x ∈ orderBy (fun y => toLex (key y, tie y)) items :=
    mem_orderBy.mpr hx
  unfold batch at hout ⊢
  generalize orderBy (fun y => toLex (key y, tie y)) items = sorted at *
  rw [← List.take_append_drop limit sorted] at hsorted hmem
  have hdrop : x ∈ sorted.drop limit := (List.mem_append.mp hmem).resolve_left hout
  constructor
  · have hpos := List.length_pos_of_mem hdrop
    rw [List.length_drop] at hpos
    rw [List.length_take]
    omega
  · intro y hy
    have hle := (List.pairwise_append.mp hsorted).2.2 y hy x hdrop
    exact Prod.Lex.monotone_fst _ _ hle

/-- In front of an item of the batch there are fewer than `limit` items. -/
theorem length_lt_of_mem_batch {ahead : List α} (hnodup : ahead.Nodup)
    (hsub : ahead ⊆ items)
    (hlt : ∀ y ∈ ahead, toLex (key y, tie y) < toLex (key x, tie x))
    (hx : x ∈ batch key limit tie items) : ahead.length < limit := by
  have hsorted := pairwise_orderBy (fun y => toLex (key y, tie y)) items
  unfold batch at hx
  obtain ⟨pre, post, heq⟩ := List.append_of_mem hx
  have hpre : pre.length < limit := by
    have hlen := congrArg List.length heq
    rw [List.length_take, List.length_append, List.length_cons] at hlen
    omega
  have hsub' : ahead ⊆ pre := by
    intro y hy
    have hmem : y ∈ orderBy (fun y => toLex (key y, tie y)) items :=
      mem_orderBy.mpr (hsub hy)
    rw [← List.take_append_drop limit (orderBy _ items), heq,
      List.append_assoc] at hmem hsorted
    have hafter := List.pairwise_cons.mp (List.pairwise_append.mp hsorted).2.1
    rcases List.mem_append.mp hmem with hmem | hmem
    · exact hmem
    · rcases List.mem_cons.mp hmem with rfl | hmem
      · exact absurd (hlt y hy) (lt_irrefl _)
      · exact absurd (hlt y hy) (not_lt.mpr (hafter.1 y hmem))
  exact lt_of_le_of_lt (hnodup.subperm hsub').length_le hpre

/-! ## Rounds -/

theorem Rounds.subset {ties : List (α → Nat)}
    (h : Rounds key stuck limit ties items items') : items' ⊆ items := by
  induction h with
  | nil items => exact List.Subset.refl items
  | cons head _ ih => exact fun y hy => ((head.mem_iff y).mp (ih hy)).1

/-- A round with fewer than `limit` stuck items in the way serves some item
that does not come after `x`. -/
theorem exists_served (hnodup : items.Nodup) (hx : x ∈ items)
    (hstuck : stuck x = false)
    (hfew : (stuckAhead key stuck items x).length < limit) :
    ∃ z ∈ waiting key stuck items x, z ∈ batch key limit tie items := by
  by_cases hin : x ∈ batch key limit tie items
  · exact ⟨x, List.mem_filter.mpr ⟨hx, by simp [hstuck]⟩, hin⟩
  · obtain ⟨hfull, hle⟩ := batch_of_not_mem hx hin
    by_contra hnone
    push Not at hnone
    have hsub : batch key limit tie items ⊆ stuckAhead key stuck items x := by
      intro y hy
      have hmem := batch_subset hy
      refine List.mem_filter.mpr ⟨hmem, ?_⟩
      by_contra hfree
      have hwait : y ∈ waiting key stuck items x := by
        refine List.mem_filter.mpr ⟨hmem, ?_⟩
        simp only [hle y hy, decide_true, Bool.and_true] at hfree ⊢
        simpa using hfree
      exact hnone y hwait hy
    have hcount := ((nodup_batch hnodup).subperm hsub).length_le
    omega

theorem not_mem_of_rounds {ties : List (α → Nat)} (hnodup : items.Nodup)
    (hstuck : stuck x = false)
    (hfew : (stuckAhead key stuck items x).length < limit)
    (hties : (waiting key stuck items x).length ≤ ties.length)
    (h : Rounds key stuck limit ties items items') : x ∉ items' := by
  induction h with
  | nil items =>
    intro hx
    have hwait : x ∈ waiting key stuck items x :=
      List.mem_filter.mpr ⟨hx, by simp [hstuck]⟩
    have hpos := List.length_pos_of_mem hwait
    rw [List.length_nil] at hties
    omega
  | @cons tie ties items mid items' head tail ih =>
    by_cases hx : x ∈ items
    · have hserved : ∃ z ∈ waiting key stuck items x, z ∈ batch key limit tie items :=
        exists_served hnodup hx hstuck hfew
      obtain ⟨z, hz, htaken⟩ := hserved
      have hzfree : stuck z = false := by
        have h := (List.mem_filter.mp hz).2
        simp only [Bool.and_eq_true, Bool.not_eq_true'] at h
        exact h.1
      have hgone : z ∉ mid := by
        intro hmem
        have hz' := ((head.mem_iff z).mp hmem).2 htaken
        rw [hzfree] at hz'
        contradiction
      have hmid : mid ⊆ items := fun y hy => ((head.mem_iff y).mp hy).1
      have hwait : (z :: waiting key stuck mid x).length ≤
          (waiting key stuck items x).length := by
        apply List.Subperm.length_le
        apply List.Nodup.subperm
        · refine List.nodup_cons.mpr ⟨?_, head.nodup.filter _⟩
          exact fun hmem => hgone (List.mem_filter.mp hmem).1
        · refine List.cons_subset.mpr ⟨hz, ?_⟩
          exact List.filter_subset _ hmid
      have hahead : (stuckAhead key stuck mid x).length ≤
          (stuckAhead key stuck items x).length := by
        apply List.Subperm.length_le
        exact (head.nodup.filter _).subperm (List.filter_subset _ hmid)
      rw [List.length_cons] at hwait hties
      exact ih head.nodup (by omega) (by omega)
    · intro hmem
      exact hx (((head.mem_iff x).mp (tail.subset hmem)).1)

/-- The stuck items that are in front of `x` in every round keep it where it
is. -/
theorem mem_of_rounds {ties : List (α → Nat)} (hnodup : items.Nodup)
    (hx : x ∈ items)
    (hmany : limit ≤ (stuckAhead key stuck items x).length)
    (hfront : ∀ tie ∈ ties, ∀ y, stuck y = true → key y ≤ key x → y ∈ items →
      toLex (key y, tie y) < toLex (key x, tie x))
    (h : Rounds key stuck limit ties items items') : x ∈ items' := by
  induction h with
  | nil items => exact hx
  | @cons tie ties items mid items' head tail ih =>
    have hahead : ∀ y ∈ stuckAhead key stuck items x,
        y ∈ items ∧ stuck y = true ∧ key y ≤ key x := by
      intro y hy
      have h := List.mem_filter.mp hy
      simp only [Bool.and_eq_true, decide_eq_true_eq] at h
      exact h
    have hout : x ∉ batch key limit tie items := by
      intro hin
      have hlt := length_lt_of_mem_batch (hnodup.filter _)
        (List.filter_subset_self _) (fun y hy => hfront tie List.mem_cons_self y
          (hahead y hy).2.1 (hahead y hy).2.2 (hahead y hy).1) hin
      unfold stuckAhead at hmany
      omega
    have hkept : stuckAhead key stuck items x ⊆ stuckAhead key stuck mid x := by
      intro y hy
      have hstuck := (hahead y hy).2
      refine List.mem_filter.mpr ⟨?_, by simp [hstuck]⟩
      exact (head.mem_iff y).mpr ⟨(hahead y hy).1, fun _ => hstuck.1⟩
    have hmany' := ((hnodup.filter _).subperm hkept).length_le
    refine ih head.nodup ?_ (le_trans hmany hmany') ?_
    · exact (head.mem_iff x).mpr ⟨hx, fun hin => absurd hin hout⟩
    · intro tie' htie y hstuck hle hy
      have hy' := ((head.mem_iff y).mp hy).1
      exact hfront tie' (List.mem_cons_of_mem tie htie) y hstuck hle hy'

end DustMonitoring.Lib.Backlog
