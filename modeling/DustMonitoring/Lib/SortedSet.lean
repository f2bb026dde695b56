import DustMonitoring.Lib.Query

/-!
# Sorted sets

A `SortedSet μ σ` is the sorted set of Redis: members of type `μ`, each
with one score of type `σ`, in ascending order of the score and, among
equal scores, of the member.  `zadd` adds a member or changes its score,
and `zrange` lists the set.

The scores of a set to which members were added one after the other are
the added scores in ascending order (`scores_foldl_zadd`).
-/

namespace DustMonitoring.Lib

variable {μ σ : Type*} [LinearOrder μ] [LinearOrder σ]

/-- The place of an entry: its score, then its member. -/
def entryRank (e : μ × σ) : σ ×ₗ μ := toLex (e.2, e.1)

/-- Entries with distinct members, in the order of their ranks. -/
structure SortedSet (μ σ : Type*) [LinearOrder μ] [LinearOrder σ] where
  entries : List (μ × σ)
  nodup : (entries.map Prod.fst).Nodup
  sorted : entries.Pairwise (fun a b => entryRank a ≤ entryRank b)

namespace SortedSet

/-- The set without a member. -/
def empty : SortedSet μ σ := ⟨[], List.nodup_nil, List.Pairwise.nil⟩

/-- The entries in order. -/
def zrange (s : SortedSet μ σ) : List (μ × σ) := s.entries

/-- The scores in order. -/
def scores (s : SortedSet μ σ) : List σ := s.zrange.map Prod.snd

/-- The members with a score of `low` or more, in order. -/
def zrangebyscore (s : SortedSet μ σ) (low : σ) : List μ :=
  (s.zrange.filter fun e => low ≤ e.2).map Prod.fst

theorem mem_zrangebyscore {s : SortedSet μ σ} {low : σ} {m : μ} :
    m ∈ s.zrangebyscore low ↔ ∃ x, (m, x) ∈ s.entries ∧ low ≤ x := by
  simp [zrangebyscore, zrange]

/-- Where the scores have the order of the members, so has the range. -/
theorem pairwise_zrangebyscore {s : SortedSet μ σ}
    (h : ∀ a ∈ s.entries, ∀ b ∈ s.entries, a.1 < b.1 → a.2 < b.2) (low : σ) :
    (s.zrangebyscore low).Pairwise (fun a b => a < b) := by
  have hne : s.entries.Pairwise (fun a b => a.1 ≠ b.1) := List.pairwise_map.mp s.nodup
  have hlt : s.entries.Pairwise (fun a b => a.1 < b.1) := by
    refine (s.sorted.and hne).imp_of_mem fun {a b} ha hb hab => ?_
    obtain ⟨hle, hne⟩ := hab
    have hscore : a.2 ≤ b.2 := (Prod.Lex.le_iff.mp hle).elim le_of_lt fun h => h.1.le
    by_contra hnot
    have hgt := lt_of_le_of_ne (not_lt.mp hnot) (Ne.symm hne)
    exact absurd (h b hb a ha hgt) (not_lt.mpr hscore)
  exact List.pairwise_map.mpr (hlt.filter _)

/-- Add a member with a score, in place of the score it had. -/
def zadd (s : SortedSet μ σ) (m : μ) (x : σ) : SortedSet μ σ where
  entries := orderBy entryRank ((m, x) :: s.entries.filter (fun e => e.1 ≠ m))
  nodup := by
    have hfilter := s.nodup.sublist
      ((List.filter_sublist (p := fun e => decide (e.1 ≠ m))).map Prod.fst)
    have hcons : (((m, x) :: s.entries.filter
        (fun e => e.1 ≠ m)).map Prod.fst).Nodup := by
      rw [List.map_cons, List.nodup_cons]
      refine ⟨?_, hfilter⟩
      intro h
      obtain ⟨e, he, heq⟩ := List.mem_map.mp h
      have hne := (List.mem_filter.mp he).2
      exact absurd heq (by simpa using hne)
    exact ((perm_orderBy entryRank _).map Prod.fst).nodup_iff.mpr hcons
  sorted := pairwise_orderBy entryRank _

theorem mem_zadd {s : SortedSet μ σ} {m : μ} {x : σ} {e : μ × σ} :
    e ∈ (s.zadd m x).entries ↔ e = (m, x) ∨ (e ∈ s.entries ∧ e.1 ≠ m) := by
  rw [zadd, mem_orderBy, List.mem_cons, List.mem_filter, decide_eq_true_iff]

theorem mem_members_zadd {s : SortedSet μ σ} {m m' : μ} {x : σ} :
    m' ∈ (s.zadd m x).entries.map Prod.fst ↔
      m' = m ∨ m' ∈ s.entries.map Prod.fst := by
  constructor
  · intro h
    obtain ⟨e, he, rfl⟩ := List.mem_map.mp h
    rcases mem_zadd.mp he with rfl | ⟨he, -⟩
    · exact Or.inl rfl
    · exact Or.inr (List.mem_map_of_mem he)
  · intro h
    by_cases hm : m' = m
    · exact List.mem_map.mpr ⟨(m, x), mem_zadd.mpr (Or.inl rfl), hm.symm⟩
    · obtain ⟨e, he, rfl⟩ := List.mem_map.mp (h.resolve_left hm)
      exact List.mem_map_of_mem (mem_zadd.mpr (Or.inr ⟨he, hm⟩))

theorem pairwise_scores (s : SortedSet μ σ) :
    s.scores.Pairwise (fun a b => a ≤ b) := by
  rw [scores, List.pairwise_map]
  refine s.sorted.imp fun {a b} hab => ?_
  rcases Prod.Lex.le_iff.mp hab with hlt | ⟨heq, -⟩
  · exact le_of_lt hlt
  · exact le_of_eq heq

theorem scores_zadd_ne_nil (s : SortedSet μ σ) (m : μ) (x : σ) :
    (s.zadd m x).scores ≠ [] := by
  have hperm : (s.zadd m x).entries.Perm _ := perm_orderBy entryRank _
  intro hnil
  have hentries : (s.zadd m x).entries = [] := List.map_eq_nil_iff.mp hnil
  rw [hentries] at hperm
  exact List.cons_ne_nil _ _ hperm.symm.eq_nil

/-- A new member adds its score. -/
theorem perm_zadd {s : SortedSet μ σ} {m : μ} (x : σ)
    (h : m ∉ s.entries.map Prod.fst) :
    (s.zadd m x).entries.Perm ((m, x) :: s.entries) := by
  have hall : s.entries.filter (fun e => e.1 ≠ m) = s.entries := by
    rw [List.filter_eq_self]
    intro e he
    simp only [ne_eq, decide_eq_true_eq]
    intro heq
    exact h (heq ▸ List.mem_map_of_mem he)
  show (orderBy entryRank (_ :: s.entries.filter _)).Perm _
  rw [hall]
  exact perm_orderBy entryRank _

/-- Distinct members, added one after the other to a set that has none of
them. -/
theorem perm_foldl_zadd {items : List (μ × σ)} {s : SortedSet μ σ}
    (hnodup : (items.map Prod.fst).Nodup)
    (hfresh : ∀ m ∈ items.map Prod.fst, m ∉ s.entries.map Prod.fst) :
    (items.foldl (fun t e => t.zadd e.1 e.2) s).entries.Perm
      (s.entries ++ items) := by
  induction items generalizing s with
  | nil => simp
  | cons e es ih =>
    rw [List.map_cons, List.nodup_cons] at hnodup
    have hperm : (s.zadd e.1 e.2).entries.Perm (e :: s.entries) :=
      perm_zadd e.2 (hfresh e.1 List.mem_cons_self)
    have htail := @ih (s.zadd e.1 e.2) hnodup.2 ?_
    · exact htail.trans ((hperm.append_right es).trans List.perm_middle.symm)
    · intro m hm hmem
      have hmem := ((hperm.map Prod.fst).mem_iff).mp hmem
      rcases List.mem_cons.mp hmem with rfl | hmem
      · exact hnodup.1 hm
      · exact hfresh m (List.mem_cons_of_mem _ hm) hmem

/-- The scores of a set that was filled from nothing. -/
theorem scores_foldl_zadd {items : List (μ × σ)}
    (hnodup : (items.map Prod.fst).Nodup) :
    (items.foldl (fun t e => t.zadd e.1 e.2) empty).scores =
      orderBy id (items.map Prod.snd) := by
  apply eq_orderBy_of_perm
  · exact (perm_foldl_zadd (s := empty) hnodup
      fun m _ => List.not_mem_nil).map Prod.snd
  · exact pairwise_scores _

end SortedSet

end DustMonitoring.Lib
