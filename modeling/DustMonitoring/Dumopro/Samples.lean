import DustMonitoring.Lib.Calendar
import DustMonitoring.Lib.Query
import DustMonitoring.Lib.Table

/-!
# Reading the samples of a station

`fetch_samples_since` and `iter_all_samples` of `dumopro_core/db.py`: both
read the samples of a station in the order of their ids, the first a batch
after a given id, the second all of them, chunk by chunk.

* `iterAllSamples_eq`: the chunks put together are the samples after id 0,
  whatever the size of a chunk.
-/

namespace DustMonitoring.Dumopro

open DustMonitoring.Lib

/-- `SampleRow`; the unit of the value is left out. -/
structure SampleRow where
  id : Nat
  stationId : String
  measurementType : String
  value : Rat
  sampledAt : DateTime
deriving DecidableEq, Repr

/-- What a query for samples asks for. -/
structure Source where
  stationId : String
  measurementType : String

/-- The samples of the source with an id above `lastId`, in order. -/
def samplesAfter (src : Source) (rows : Table SampleRow.id) (lastId : Nat) :
    List SampleRow :=
  orderBy SampleRow.id (rows.rows.filter fun s =>
    s.stationId == src.stationId && s.measurementType == src.measurementType &&
      decide (lastId < s.id))

/-- `fetch_samples_since`. -/
def fetchSamplesSince (src : Source) (rows : Table SampleRow.id)
    (lastId limit : Nat) : List SampleRow :=
  (samplesAfter src rows lastId).take limit

theorem mem_samplesAfter {src : Source} {rows : Table SampleRow.id}
    {lastId : Nat} {s : SampleRow} :
    s ∈ samplesAfter src rows lastId ↔
      s ∈ rows.rows ∧ s.stationId = src.stationId ∧
        s.measurementType = src.measurementType ∧ lastId < s.id := by
  simp [samplesAfter, and_assoc]

theorem nodup_samplesAfter (src : Source) (rows : Table SampleRow.id) (lastId : Nat) :
    ((samplesAfter src rows lastId).map SampleRow.id).Nodup :=
  ((perm_orderBy SampleRow.id _).map SampleRow.id).nodup_iff.mpr
    (rows.nodup.sublist (List.filter_sublist.map SampleRow.id))

/-- The samples are in strictly ascending order of their ids. -/
theorem pairwise_samplesAfter (src : Source) (rows : Table SampleRow.id)
    (lastId : Nat) :
    (samplesAfter src rows lastId).Pairwise (fun a b => a.id < b.id) := by
  have hle := pairwise_orderBy SampleRow.id (rows.rows.filter fun s =>
    s.stationId == src.stationId && s.measurementType == src.measurementType &&
      decide (lastId < s.id))
  have hne := List.pairwise_map.mp (nodup_samplesAfter src rows lastId)
  exact (hle.and hne).imp fun {a b} h => lt_of_le_of_ne h.1 h.2

/-- Two lists of samples in the order of their ids with the same members
are the same. -/
theorem eq_of_mem_iff {xs ys : List SampleRow}
    (hxs : xs.Pairwise (fun a b => a.id < b.id))
    (hys : ys.Pairwise (fun a b => a.id < b.id)) (h : ∀ s, s ∈ xs ↔ s ∈ ys) : xs = ys := by
  have hnodup : ∀ {l : List SampleRow}, l.Pairwise (fun a b => a.id < b.id) →
      l.Nodup := fun hl => hl.imp fun {a b} hab heq => by
    rw [heq] at hab
    exact lt_irrefl _ hab
  exact ((List.perm_ext_iff_of_nodup (hnodup hxs) (hnodup hys)).mpr h).eq_of_pairwise
    (fun a b _ _ hab hba => absurd (lt_trans hab hba) (lt_irrefl _)) hxs hys

/-- What comes after a batch are the samples after its last id. -/
theorem drop_samplesAfter {src : Source} {rows : Table SampleRow.id}
    {lastId : Nat} {pre : List SampleRow} {last : SampleRow}
    {post : List SampleRow}
    (h : samplesAfter src rows lastId = pre ++ last :: post) :
    samplesAfter src rows last.id = post := by
  have hsorted := pairwise_samplesAfter src rows lastId
  rw [h, List.pairwise_append, List.pairwise_cons] at hsorted
  obtain ⟨-, ⟨hpost, hpostSorted⟩, hpre⟩ := hsorted
  have hmem : ∀ s, s ∈ samplesAfter src rows last.id ↔ s ∈ post := by
    intro s
    have hlast : last ∈ samplesAfter src rows lastId := by
      rw [h]
      simp
    have hlt := (mem_samplesAfter.mp hlast).2.2.2
    have hall : s ∈ samplesAfter src rows lastId ↔
        s ∈ pre ∨ s = last ∨ s ∈ post := by
      rw [h]
      simp
    constructor
    · intro hs
      obtain ⟨hrow, hst, hmt, hid⟩ := mem_samplesAfter.mp hs
      rcases hall.mp (mem_samplesAfter.mpr ⟨hrow, hst, hmt, hlt.trans hid⟩) with
        hs | rfl | hs
      · exact absurd (hpre s hs last List.mem_cons_self) (by omega)
      · exact absurd hid (lt_irrefl _)
      · exact hs
    · intro hs
      obtain ⟨hrow, hst, hmt, -⟩ := mem_samplesAfter.mp (hall.mpr (Or.inr (Or.inr hs)))
      exact mem_samplesAfter.mpr ⟨hrow, hst, hmt, hpost s hs⟩
  exact eq_of_mem_iff (pairwise_samplesAfter src rows last.id) hpostSorted hmem

/-- A batch that is not empty is followed by the samples after its last
one. -/
theorem samplesAfter_eq_append {src : Source} {rows : Table SampleRow.id}
    {lastId limit : Nat} {last : SampleRow}
    (h : (fetchSamplesSince src rows lastId limit).getLast? = some last) :
    samplesAfter src rows lastId =
      fetchSamplesSince src rows lastId limit ++
        samplesAfter src rows last.id := by
  obtain ⟨pre, hpre⟩ := List.getLast?_eq_some_iff.mp h
  have hsplit : samplesAfter src rows lastId =
      fetchSamplesSince src rows lastId limit ++
        (samplesAfter src rows lastId).drop limit :=
    (List.take_append_drop limit _).symm
  rw [hpre, List.append_assoc, List.singleton_append] at hsplit
  rw [drop_samplesAfter hsplit, hpre, List.append_assoc, List.singleton_append]
  exact hsplit

theorem length_samplesAfter_lt {src : Source} {rows : Table SampleRow.id}
    {lastId limit : Nat} {last : SampleRow}
    (h : (fetchSamplesSince src rows lastId limit).getLast? = some last) :
    (samplesAfter src rows last.id).length <
      (samplesAfter src rows lastId).length := by
  have hne : fetchSamplesSince src rows lastId limit ≠ [] := by
    intro hnil
    rw [hnil] at h
    contradiction
  have hpos := List.length_pos_iff.mpr hne
  rw [samplesAfter_eq_append h, List.length_append]
  omega

/-! ## Batches -/

section Batch

variable {src : Source} {rows : Table SampleRow.id} {lastId limit : Nat}
  {s last : SampleRow}

theorem mem_samplesAfter_of_mem_fetch (h : s ∈ fetchSamplesSince src rows lastId limit) :
    s ∈ samplesAfter src rows lastId :=
  List.mem_of_mem_take h

/-- A batch ends with its largest id. -/
theorem le_last_of_mem_fetch
    (hlast : (fetchSamplesSince src rows lastId limit).getLast? = some last)
    (h : s ∈ fetchSamplesSince src rows lastId limit) : s.id ≤ last.id := by
  obtain ⟨pre, hpre⟩ := List.getLast?_eq_some_iff.mp hlast
  have hsorted : (fetchSamplesSince src rows lastId limit).Pairwise
      (fun a b => a.id < b.id) :=
    (pairwise_samplesAfter src rows lastId).sublist (List.take_sublist _ _)
  rw [hpre] at h hsorted
  rcases List.mem_append.mp h with h | h
  · exact le_of_lt ((List.pairwise_append.mp hsorted).2.2 s h last List.mem_cons_self)
  · rw [List.mem_singleton.mp h]

/-- A batch has every sample up to its last id. -/
theorem mem_fetch_of_le
    (hlast : (fetchSamplesSince src rows lastId limit).getLast? = some last)
    (h : s ∈ samplesAfter src rows lastId) (hle : s.id ≤ last.id) :
    s ∈ fetchSamplesSince src rows lastId limit := by
  rw [samplesAfter_eq_append hlast] at h
  rcases List.mem_append.mp h with h | h
  · exact h
  · exact absurd (mem_samplesAfter.mp h).2.2.2 (Nat.not_lt.mpr hle)

/-- Leaving out others brings an entry forward. -/
private theorem mem_take_filter {α : Type} {p : α → Bool} {x : α} {l : List α} {n : Nat}
    (h : x ∈ l.take n) (hp : p x = true) : x ∈ (l.filter p).take n := by
  induction l generalizing n with
  | nil => simp at h
  | cons y ys ih =>
    cases n with
    | zero => simp at h
    | succ n =>
      rw [List.take_succ_cons] at h
      rcases List.mem_cons.mp h with rfl | h
      · rw [List.filter_cons_of_pos hp, List.take_succ_cons]
        exact List.mem_cons_self
      · by_cases hy : p y = true
        · rw [List.filter_cons_of_pos hy, List.take_succ_cons]
          exact List.mem_cons_of_mem y (ih h)
        · rw [List.filter_cons_of_neg hy]
          exact List.take_subset_take_left _ (Nat.le_succ n) (ih h)

theorem samplesAfter_filter {n : Nat} (hle : lastId ≤ n) :
    samplesAfter src rows n =
      (samplesAfter src rows lastId).filter fun s => decide (n < s.id) := by
  refine eq_of_mem_iff (pairwise_samplesAfter src rows n)
    ((pairwise_samplesAfter src rows lastId).filter _) fun s => ?_
  rw [List.mem_filter, mem_samplesAfter, mem_samplesAfter, decide_eq_true_iff]
  constructor
  · intro h
    exact ⟨⟨h.1, h.2.1, h.2.2.1, lt_of_le_of_lt hle h.2.2.2⟩, h.2.2.2⟩
  · intro h
    exact ⟨h.1.1, h.1.2.1, h.1.2.2.1, h.2⟩

/-- A batch that starts later reaches as far. -/
theorem mem_fetch_of_lt {n : Nat} (h : s ∈ fetchSamplesSince src rows lastId limit)
    (hle : lastId ≤ n) (hlt : n < s.id) : s ∈ fetchSamplesSince src rows n limit := by
  rw [fetchSamplesSince, samplesAfter_filter hle]
  exact mem_take_filter h (decide_eq_true hlt)

/-- A new sample comes after all others. -/
theorem samplesAfter_append (src : Source) (rows : SerialTable SampleRow.id) (n : Nat)
    (mk : Nat → SampleRow) (hk : ∀ m, (mk m).id = m) :
    ∃ new, (∀ s ∈ new, s.id = rows.next) ∧
      samplesAfter src (rows.append mk hk).toTable n =
        samplesAfter src rows.toTable n ++ new := by
  let new := [mk rows.next].filter fun s =>
    s.stationId == src.stationId && s.measurementType == src.measurementType &&
      decide (n < s.id)
  have hnew : ∀ s ∈ new, s = mk rows.next :=
    fun s hs => List.mem_singleton.mp (List.mem_of_mem_filter hs)
  refine ⟨new, fun s hs => by rw [hnew s hs, hk], ?_⟩
  refine eq_of_mem_iff (pairwise_samplesAfter src _ n) ?_ fun s => ?_
  · refine List.pairwise_append.mpr ⟨pairwise_samplesAfter src rows.toTable n, ?_, ?_⟩
    · exact (List.pairwise_singleton _ _).filter _
    · intro a ha b hb
      rw [hnew b hb, hk]
      exact rows.lt_next a (mem_samplesAfter.mp ha).1
  · rw [mem_samplesAfter, List.mem_append, mem_samplesAfter, SerialTable.mem_append]
    simp only [new, List.mem_filter, List.mem_singleton, Bool.and_eq_true, beq_iff_eq,
      decide_eq_true_eq]
    tauto

/-- A batch keeps its samples when a new one arrives. -/
theorem mem_fetch_append {rows : SerialTable SampleRow.id} {mk : Nat → SampleRow}
    {hk : ∀ m, (mk m).id = m} (h : s ∈ fetchSamplesSince src rows.toTable lastId limit) :
    s ∈ fetchSamplesSince src (rows.append mk hk).toTable lastId limit := by
  obtain ⟨new, -, heq⟩ := samplesAfter_append src rows lastId mk hk
  rw [fetchSamplesSince, heq, List.take_append]
  exact List.mem_append_left _ h

end Batch

/-- The loop of `iter_all_samples` after `lastId`. -/
def iterFrom (src : Source) (rows : Table SampleRow.id) (chunk lastId : Nat) :
    List SampleRow :=
  match _h : (fetchSamplesSince src rows lastId chunk).getLast? with
  | none => []
  | some last =>
    let batch := fetchSamplesSince src rows lastId chunk
    if batch.length < chunk then batch
    else batch ++ iterFrom src rows chunk last.id
termination_by (samplesAfter src rows lastId).length
decreasing_by exact length_samplesAfter_lt ‹_›

/-- `iter_all_samples`. -/
def iterAllSamples (src : Source) (rows : Table SampleRow.id) (chunk : Nat) :
    List SampleRow :=
  iterFrom src rows chunk 0

theorem iterFrom_eq {src : Source} {rows : Table SampleRow.id} {chunk : Nat}
    (hchunk : 0 < chunk) (lastId : Nat) :
    iterFrom src rows chunk lastId = samplesAfter src rows lastId := by
  induction h : (samplesAfter src rows lastId).length using Nat.strong_induction_on
    generalizing lastId with
  | _ n ih =>
    rw [iterFrom]
    split
    · next hnone =>
      have hnil := List.getLast?_eq_none_iff.mp hnone
      rw [fetchSamplesSince, List.take_eq_nil_iff] at hnil
      exact (hnil.resolve_left (by omega)).symm
    · next last hlast =>
      dsimp only
      split
      · next hshort =>
        rw [fetchSamplesSince, List.length_take] at hshort
        rw [fetchSamplesSince, List.take_of_length_le (by omega)]
      · have hlt := length_samplesAfter_lt hlast
        rw [ih _ (h ▸ hlt) last.id rfl, ← samplesAfter_eq_append hlast]

/-- The size of the chunks does not show. -/
theorem iterAllSamples_eq {src : Source} {rows : Table SampleRow.id}
    {chunk : Nat} (hchunk : 0 < chunk) :
    iterAllSamples src rows chunk = samplesAfter src rows 0 :=
  iterFrom_eq hchunk 0

theorem pairwise_iterAllSamples (src : Source) (rows : Table SampleRow.id)
    (chunk : Nat) :
    (iterAllSamples src rows chunk).Pairwise (fun a b => a.id < b.id) := by
  rcases Nat.eq_zero_or_pos chunk with rfl | hchunk
  · rw [iterAllSamples, iterFrom]
    split
    · exact List.Pairwise.nil
    · next last hlast =>
      rw [fetchSamplesSince, List.take_zero] at hlast
      contradiction
  · rw [iterAllSamples_eq hchunk]
    exact pairwise_samplesAfter src rows 0

end DustMonitoring.Dumopro
