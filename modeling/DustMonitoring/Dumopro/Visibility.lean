import DustMonitoring.Dumopro.StationTask

/-!
# Samples that become visible out of order

The id of a sample comes from a sequence when its row is inserted, and the
poller sees the row when its transaction is committed.  Several writers
insert at the same time, so a row may become visible after rows with larger
ids.

The poller reads in two ways, and both read the rows above its cursor and
move the cursor to the last one that they have read: the pages of the cold
start, and then the ticks.

* `neverLost_iff`: every sample that becomes visible is ingested exactly
  once, as soon as the poller has read often enough, exactly if no sample
  becomes visible behind the cursor.
-/

namespace DustMonitoring.Dumopro

open DustMonitoring.Lib

namespace Visibility

/-- The samples with an id, the ids whose transaction is open, and the
poller of a station.  `cold` says that the poller is in its cold start. -/
structure World where
  rows : SerialTable SampleRow.id := .empty
  uncommitted : List Nat := []
  task : StationTask := {}
  cold : Bool := true

/-- The rows that a query sees. -/
def World.visible (w : World) : Table SampleRow.id :=
  w.rows.toTable.deleteWhere fun s => w.uncommitted.contains s.id

/-- What happens to the table, and a query of the poller. -/
inductive Event where
  | insert (row : SampleRow)
  | commit (id : Nat)
  | rollback (id : Nat)
  | poll (clock : Nat → BucketUnit → Rat) (dueAt : Rat)

/-- The chunk of `iter_all_samples`. -/
def chunk : Nat := 5000

/-- What the poller reads next. -/
def batch (c : Settings) (w : World) : List SampleRow :=
  fetchSamplesSince c.toSource w.visible w.task.lastId
    (if w.cold then chunk else c.pollBatchLimit)

/-- The id of the last sample of a batch, or the cursor before it. -/
def lastIdOf (lastId : Nat) (samples : List SampleRow) : Nat :=
  match samples.getLast? with
  | none => lastId
  | some last => last.id

theorem id_withId (row : SampleRow) (n : Nat) : ({ row with id := n } : SampleRow).id = n := rfl

/-- One event.  A chunk that is not full ends the cold start; what the cold
start writes to Redis is in `Dumopro/Backfill.lean`. -/
def step (c : Settings) (w : World) : Event → World
  | .insert row =>
    { w with
      rows := w.rows.append (fun n => { row with id := n }) (id_withId row)
      uncommitted := w.rows.next :: w.uncommitted }
  | .commit id =>
    { w with uncommitted := w.uncommitted.filter fun i => decide (i ≠ id) }
  | .rollback id =>
    if id ∈ w.uncommitted then
      { w with
        rows := w.rows.deleteWhere fun s => decide (s.id = id)
        uncommitted := w.uncommitted.filter fun i => decide (i ≠ id) }
    else w
  | .poll clock dueAt =>
    if w.cold then
      { w with
        task := { w.task with lastId := lastIdOf w.task.lastId (batch c w) }
        cold := decide (chunk ≤ (batch c w).length) }
    else
      { w with task := w.task.tick c ⟨w.visible, clock, dueAt⟩ }

/-- The samples that the event ingests. -/
def ingests (c : Settings) (w : World) : Event → List SampleRow
  | .poll _ _ => batch c w
  | _ => []

/-- The world after the events. -/
def after (c : Settings) (es : List Event) : World := run (step c) {} es

/-- The samples that were ingested, in order. -/
def ingested (c : Settings) (es : List Event) : List SampleRow :=
  outputs (step c) (ingests c) {} es

/-! ## The cursor -/

variable {c : Settings} {w : World}

theorem lastId_processFreezes (now : Rat) (t : StationTask) :
    (t.processFreezes now).lastId = t.lastId := by
  have hfreeze : ∀ (ps : List (BucketUnit × BucketKey)) (t : StationTask),
      (ps.foldl StationTask.freeze t).lastId = t.lastId := by
    intro ps
    induction ps with
    | nil => exact fun _ => rfl
    | cons p ps ih =>
      intro t
      rw [List.foldl_cons, ih]
      unfold StationTask.freeze
      split <;> rfl
  exact hfreeze _ t

/-- A tick moves the cursor to the last sample that it reads. -/
theorem lastId_tick (t : StationTask) (τ : Tick) :
    (t.tick c τ).lastId = lastIdOf t.lastId (t.fetched c τ) := by
  unfold StationTask.tick StationTask.handleBatch lastIdOf
  rw [lastId_processFreezes]
  cases (t.fetched c τ).getLast? with
  | none => rfl
  | some last => rfl

/-- Every query moves the cursor to the last sample that it reads. -/
theorem lastId_poll (clock : Nat → BucketUnit → Rat) (dueAt : Rat) :
    (step c w (.poll clock dueAt)).task.lastId = lastIdOf w.task.lastId (batch c w) := by
  cases hcold : w.cold with
  | true => simp only [step, hcold, if_true]
  | false =>
    simp only [step, batch, hcold]
    exact lastId_tick w.task ⟨w.visible, clock, dueAt⟩

theorem rows_poll (clock : Nat → BucketUnit → Rat) (dueAt : Rat) :
    (step c w (.poll clock dueAt)).rows = w.rows ∧
      (step c w (.poll clock dueAt)).uncommitted = w.uncommitted := by
  cases hcold : w.cold with
  | true => simp only [step, hcold, if_true, and_self]
  | false => simp only [step, hcold]; exact ⟨rfl, rfl⟩

theorem le_lastIdOf {lastId limit : Nat} {src : Source} {rows : Table SampleRow.id} :
    lastId ≤ lastIdOf lastId (fetchSamplesSince src rows lastId limit) := by
  unfold lastIdOf
  split
  · exact le_rfl
  · next last hlast =>
    have hmem := mem_samplesAfter_of_mem_fetch (List.mem_of_getLast? hlast)
    exact le_of_lt (mem_samplesAfter.mp hmem).2.2.2

theorem le_lastIdOf_of_mem {lastId limit : Nat} {src : Source}
    {rows : Table SampleRow.id} {s : SampleRow}
    (h : s ∈ fetchSamplesSince src rows lastId limit) :
    s.id ≤ lastIdOf lastId (fetchSamplesSince src rows lastId limit) := by
  unfold lastIdOf
  split
  · next hnone =>
    rw [List.getLast?_eq_none_iff.mp hnone] at h
    exact absurd h List.not_mem_nil
  · next last hlast => exact le_last_of_mem_fetch hlast h

theorem mem_visible {s : SampleRow} :
    s ∈ w.visible.rows ↔ s ∈ w.rows.rows ∧ s.id ∉ w.uncommitted := by
  rw [World.visible, Table.mem_deleteWhere]
  simp

theorem mem_batch {s : SampleRow} (h : s ∈ batch c w) :
    s ∈ w.visible.rows ∧ s.stationId = c.stationId ∧
      s.measurementType = c.measurementType ∧ w.task.lastId < s.id :=
  mem_samplesAfter.mp (mem_samplesAfter_of_mem_fetch h)

/-- A sample in front of the cursor that a query leaves out is still in front
of it, and the cursor has come closer. -/
theorem lastId_poll_of_not_mem {s : SampleRow} (clock : Nat → BucketUnit → Rat)
    (dueAt : Rat) (hlimit : 0 < c.pollBatchLimit) (hs : s ∈ w.visible.rows)
    (hst : s.stationId = c.stationId) (hmt : s.measurementType = c.measurementType)
    (hahead : w.task.lastId < s.id) (hnot : s ∉ batch c w) :
    w.task.lastId < (step c w (.poll clock dueAt)).task.lastId ∧
      (step c w (.poll clock dueAt)).task.lastId < s.id := by
  rw [lastId_poll]
  have hafter : s ∈ samplesAfter c.toSource w.visible w.task.lastId :=
    mem_samplesAfter.mpr ⟨hs, hst, hmt, hahead⟩
  have hpos : 0 < (if w.cold then chunk else c.pollBatchLimit) := by
    split
    · decide
    · exact hlimit
  unfold batch at hnot ⊢
  generalize (if w.cold then chunk else c.pollBatchLimit) = limit at *
  cases hlast : (fetchSamplesSince c.toSource w.visible w.task.lastId limit).getLast? with
  | none =>
    have hnil := List.getLast?_eq_none_iff.mp hlast
    rw [fetchSamplesSince, List.take_eq_nil_iff] at hnil
    rcases hnil with hnil | hnil
    · omega
    · rw [hnil] at hafter
      exact absurd hafter List.not_mem_nil
  | some last =>
    have hmem := mem_samplesAfter_of_mem_fetch (List.mem_of_getLast? hlast)
    simp only [lastIdOf, hlast]
    refine ⟨(mem_samplesAfter.mp hmem).2.2.2, ?_⟩
    by_contra hle
    exact hnot (mem_fetch_of_le hlast hafter (not_lt.mp hle))

/-! ## What was ingested -/

theorem after_concat (es : List Event) (e : Event) :
    after c (es ++ [e]) = step c (after c es) e :=
  run_concat _ _ _ _

theorem ingested_append (es fs : List Event) :
    ingested c (es ++ fs) =
      ingested c es ++ outputs (step c) (ingests c) (after c es) fs :=
  outputs_append _ _ _ _ _

theorem lastId_rollback (id : Nat) :
    (step c w (.rollback id)).task.lastId = w.task.lastId := by
  simp only [step]
  split <;> rfl

theorem lastId_le_step (e : Event) : w.task.lastId ≤ (step c w e).task.lastId := by
  cases e with
  | insert row => exact le_rfl
  | commit id => exact le_rfl
  | rollback id => exact (lastId_rollback id).ge
  | poll clock dueAt =>
    rw [lastId_poll]
    exact le_lastIdOf

/-- A query reads what is above the cursor. -/
theorem not_le_of_mem_ingests {e : Event} {s : SampleRow} (hs : s ∈ ingests c w e) :
    ¬ s.id ≤ w.task.lastId := by
  cases e with
  | poll clock dueAt => exact Nat.not_le.mpr (mem_batch hs).2.2.2
  | _ => exact absurd hs List.not_mem_nil

/-- The cursor moves past what a query reads. -/
theorem le_lastId_of_mem_ingests {e : Event} {s : SampleRow} (hs : s ∈ ingests c w e) :
    s.id ≤ (step c w e).task.lastId := by
  cases e with
  | poll clock dueAt =>
    rw [lastId_poll]
    exact le_lastIdOf_of_mem hs
  | _ => exact absurd hs List.not_mem_nil

/-- No sample is ingested twice: the ids of what is ingested are above the
cursor, and the cursor moves past them. -/
theorem nodup_ingested (es : List Event) : (ingested c es).Nodup := by
  refine nodup_outputs (fun _ => True) (fun (w : World) (s : SampleRow) => s.id ≤ w.task.lastId)
    (fun _ _ _ => trivial) ?_ ?_ ?_ (fun w e s _ h => le_trans h (lastId_le_step e)) trivial es
  · intro w e _
    cases e with
    | poll clock dueAt =>
      exact List.Nodup.of_map SampleRow.id ((nodup_samplesAfter _ _ _).sublist
        ((List.take_sublist _ _).map SampleRow.id))
    | _ => exact List.nodup_nil
  · exact fun w e s _ hs => not_le_of_mem_ingests hs
  · exact fun w e s _ hs => le_lastId_of_mem_ingests hs

/-- What is known of the world and the samples that were ingested. -/
structure Inv (w : World) (seen : List SampleRow) : Prop where
  uncommitted : ∀ i ∈ w.uncommitted, i < w.rows.next
  cursor : w.task.lastId < w.rows.next
  seen : ∀ s ∈ seen, s ∈ w.visible.rows ∧ s.id ≤ w.task.lastId

/-- A visible sample stays visible. -/
theorem mem_visible_step {s : SampleRow} (e : Event) (h : s ∈ w.visible.rows) :
    s ∈ (step c w e).visible.rows := by
  obtain ⟨hs, hid⟩ := mem_visible.mp h
  rw [mem_visible]
  cases e with
  | insert row =>
    refine ⟨SerialTable.mem_append.mpr (Or.inl hs), fun hmem => ?_⟩
    rcases List.mem_cons.mp hmem with heq | hmem
    · have hlt := w.rows.lt_next s hs
      omega
    · exact hid hmem
  | commit id => exact ⟨hs, fun hmem => hid (List.mem_of_mem_filter hmem)⟩
  | rollback id =>
    simp only [step]
    split
    · next hopen =>
      refine ⟨Table.mem_deleteWhere.mpr ⟨hs, ?_⟩, fun hmem => hid (List.mem_of_mem_filter hmem)⟩
      rw [decide_eq_false_iff_not]
      exact fun heq => hid (heq ▸ hopen)
    · exact ⟨hs, hid⟩
  | poll clock dueAt =>
    obtain ⟨hrows, huncommitted⟩ := rows_poll (c := c) (w := w) clock dueAt
    rw [hrows, huncommitted]
    exact ⟨hs, hid⟩

theorem next_le_step (e : Event) : w.rows.next ≤ (step c w e).rows.next := by
  cases e with
  | insert row => exact Nat.le_succ _
  | commit id => exact le_rfl
  | rollback id =>
    simp only [step]
    split <;> exact le_rfl
  | poll clock dueAt => rw [(rows_poll clock dueAt).1]

theorem uncommitted_step {e : Event} {i : Nat} (hi : i ∈ (step c w e).uncommitted) :
    i ∈ w.uncommitted ∨ i < (step c w e).rows.next := by
  cases e with
  | insert row =>
    rcases List.mem_cons.mp hi with rfl | hi
    · exact Or.inr (Nat.lt_succ_self _)
    · exact Or.inl hi
  | commit id => exact Or.inl (List.mem_of_mem_filter hi)
  | rollback id =>
    simp only [step] at hi
    split at hi
    · exact Or.inl (List.mem_of_mem_filter hi)
    · exact Or.inl hi
  | poll clock dueAt =>
    rw [(rows_poll clock dueAt).2] at hi
    exact Or.inl hi

theorem cursor_step (h : w.task.lastId < w.rows.next) (e : Event) :
    (step c w e).task.lastId < (step c w e).rows.next := by
  cases e with
  | insert row => exact Nat.lt_succ_of_lt h
  | commit id => exact h
  | rollback id =>
    simp only [step]
    split <;> exact h
  | poll clock dueAt =>
    rw [lastId_poll, (rows_poll clock dueAt).1]
    unfold lastIdOf
    split
    · exact h
    · next last hlast =>
      have hvisible := (mem_batch (List.mem_of_getLast? hlast)).1
      exact w.rows.lt_next last (mem_visible.mp hvisible).1

/-- What a query reads is visible. -/
theorem visible_of_mem_ingests {e : Event} {s : SampleRow} (hs : s ∈ ingests c w e) :
    s ∈ w.visible.rows := by
  cases e with
  | poll clock dueAt => exact (mem_batch hs).1
  | _ => exact absurd hs List.not_mem_nil

theorem inv_step {seen : List SampleRow} (h : Inv w seen) (e : Event) :
    Inv (step c w e) (seen ++ ingests c w e) where
  uncommitted := by
    intro i hi
    rcases uncommitted_step hi with hi | hlt
    · exact lt_of_lt_of_le (h.uncommitted i hi) (next_le_step e)
    · exact hlt
  cursor := cursor_step h.cursor e
  seen := by
    intro s hs
    rcases List.mem_append.mp hs with hs | hs
    · obtain ⟨hvisible, hle⟩ := h.seen s hs
      exact ⟨mem_visible_step e hvisible, le_trans hle (lastId_le_step e)⟩
    · exact ⟨mem_visible_step e (visible_of_mem_ingests hs), le_lastId_of_mem_ingests hs⟩

theorem inv_after (es : List Event) : Inv (after c es) (ingested c es) := by
  induction es using List.reverseRecOn with
  | nil =>
    exact ⟨fun _ h => absurd h List.not_mem_nil, Nat.zero_lt_one,
      fun _ h => absurd h List.not_mem_nil⟩
  | append_singleton es e ih =>
    rw [after_concat, ingested_append, outputs, outputs, List.append_nil]
    exact inv_step ih e

/-! ## No sample is lost -/

/-- The sample is one that the poller asks for. -/
def OfSource (c : Settings) (s : SampleRow) : Prop :=
  s.stationId = c.stationId ∧ s.measurementType = c.measurementType

/-- The event is a query of the poller. -/
def Event.isPoll : Event → Bool
  | .poll _ _ => true
  | _ => false

/-- The queries among the events. -/
def polls (es : List Event) : Nat := es.countP Event.isPoll

/-- Every sample that is visible at some point of the run is ingested exactly
once when the poller has read often enough from then on, whatever else
happens. -/
def NeverLost (c : Settings) (es : List Event) : Prop :=
  ∀ pre, pre <+: es → ∀ s ∈ (after c pre).visible.rows, OfSource c s →
    ∀ more, s.id ≤ polls more → (ingested c (pre ++ more)).count s = 1

/-- No sample of the source becomes visible behind the cursor. -/
def AheadOfCursor (c : Settings) (w : World) : Event → Prop
  | .commit id => ∀ s ∈ w.rows.rows, s.id = id → id ∈ w.uncommitted → OfSource c s →
      w.task.lastId < id
  | _ => True

/-- A sample in front of the cursor is read by one of the next queries. -/
theorem mem_outputs_of_polls {s : SampleRow} (hlimit : 0 < c.pollBatchLimit)
    (hsource : OfSource c s) (more : List Event) {w : World}
    (hs : s ∈ w.visible.rows) (hahead : w.task.lastId < s.id)
    (henough : s.id ≤ w.task.lastId + polls more) :
    s ∈ outputs (step c) (ingests c) w more := by
  induction more generalizing w with
  | nil =>
    simp only [polls, List.countP_nil] at henough
    omega
  | cons e more ih =>
    rw [outputs, List.mem_append]
    by_cases hread : s ∈ ingests c w e
    · exact Or.inl hread
    · refine Or.inr ?_
      have hs' := mem_visible_step (c := c) e hs
      rw [polls, List.countP_cons] at henough
      cases e with
      | insert row => exact ih hs' hahead henough
      | commit id => exact ih hs' hahead henough
      | rollback id =>
        have hcursor : (step c w (.rollback id)).task.lastId = w.task.lastId := lastId_rollback id
        exact ih hs' (by omega) (by rwa [hcursor])
      | poll clock dueAt =>
        obtain ⟨hcloser, hahead'⟩ := lastId_poll_of_not_mem (c := c) clock dueAt hlimit hs
          hsource.1 hsource.2 hahead hread
        exact ih hs' hahead' (by
          simp only [Event.isPoll, if_true] at henough
          unfold polls
          omega)

/-- A row becomes visible when its transaction is committed. -/
theorem visible_before {e : Event} {s : SampleRow} (hs : s ∈ (step c w e).visible.rows) :
    s ∈ w.visible.rows ∨ (e = .commit s.id ∧ s ∈ w.rows.rows ∧ s.id ∈ w.uncommitted) := by
  obtain ⟨hrows, hid⟩ := mem_visible.mp hs
  cases e with
  | insert row =>
    have hid' : s.id ∉ w.rows.next :: w.uncommitted := hid
    rcases SerialTable.mem_append.mp hrows with hrows | heq
    · exact Or.inl (mem_visible.mpr ⟨hrows, fun hmem => hid' (List.mem_cons_of_mem _ hmem)⟩)
    · -- the new row is not committed
      rw [heq] at hid'
      exact absurd List.mem_cons_self hid'
  | commit id =>
    by_cases hopen : s.id ∈ w.uncommitted
    · have hid' : s.id = id := by
        by_contra hne
        exact hid (List.mem_filter.mpr ⟨hopen, by simpa using hne⟩)
      exact Or.inr ⟨by rw [hid'], hrows, hopen⟩
    · exact Or.inl (mem_visible.mpr ⟨hrows, hopen⟩)
  | rollback id =>
    simp only [step] at hrows hid
    rw [mem_visible]
    split at hrows
    · next hopen =>
      rw [if_pos hopen] at hid
      obtain ⟨hrows, hne⟩ := Table.mem_deleteWhere.mp hrows
      rw [decide_eq_false_iff_not] at hne
      exact Or.inl ⟨hrows, fun hmem => hid (List.mem_filter.mpr ⟨hmem, by simpa using hne⟩)⟩
    · next hopen =>
      rw [if_neg hopen] at hid
      exact Or.inl ⟨hrows, hid⟩
  | poll clock dueAt =>
    obtain ⟨hsame, huncommitted⟩ := rows_poll (c := c) (w := w) clock dueAt
    rw [hsame] at hrows
    rw [huncommitted] at hid
    exact Or.inl (mem_visible.mpr ⟨hrows, hid⟩)

/-- A poll reads a visible sample above the cursor, or stays below it. -/
theorem read_or_ahead {s : SampleRow} (hs : s ∈ w.visible.rows) (hsource : OfSource c s)
    (hahead : w.task.lastId < s.id) (e : Event) :
    s ∈ ingests c w e ∨ (step c w e).task.lastId < s.id := by
  cases e with
  | insert row => exact Or.inr hahead
  | commit id => exact Or.inr hahead
  | rollback id =>
    rw [lastId_rollback]
    exact Or.inr hahead
  | poll clock dueAt =>
    by_cases hread : s ∈ batch c w
    · exact Or.inl hread
    · right
      rw [lastId_poll]
      by_contra hle
      have hafter : s ∈ samplesAfter c.toSource w.visible w.task.lastId :=
        mem_samplesAfter.mpr ⟨hs, hsource.1, hsource.2, hahead⟩
      unfold lastIdOf at hle
      split at hle
      · exact hle hahead
      · next last hlast => exact hread (mem_fetch_of_le hlast hafter (not_lt.mp hle))

/-- In a run in which no sample becomes visible behind the cursor, a visible
sample was ingested, or it is in front of the cursor. -/
theorem ingested_or_ahead {es : List Event}
    (h : AllSteps (step c) (AheadOfCursor c) {} es) {s : SampleRow}
    (hs : s ∈ (after c es).visible.rows) (hsource : OfSource c s) :
    s ∈ ingested c es ∨ (after c es).task.lastId < s.id := by
  induction es using List.reverseRecOn with
  | nil => exact absurd (mem_visible.mp hs).1 List.not_mem_nil
  | append_singleton es e ih =>
    obtain ⟨hes, he, -⟩ := allSteps_append.mp h
    rw [after_concat] at hs ⊢
    rw [ingested_append, outputs, outputs, List.append_nil]
    rcases visible_before hs with hvisible | ⟨rfl, hrows, hopen⟩
    · rcases ih hes hvisible with hseen | hahead
      · exact Or.inl (List.mem_append_left _ hseen)
      · exact (read_or_ahead hvisible hsource hahead e).imp (List.mem_append_right _) id
    · -- a commit leaves the cursor
      exact Or.inr (he s hrows rfl hopen hsource)

/-- No sample is lost exactly if none becomes visible behind the cursor. -/
theorem neverLost_iff (hlimit : 0 < c.pollBatchLimit) (es : List Event) :
    NeverLost c es ↔ AllSteps (step c) (AheadOfCursor c) {} es := by
  constructor
  · intro h
    rw [allSteps_iff]
    intro pre e post hes
    cases e with
    | commit id =>
      intro s hs hid hopen hsource
      by_contra hbehind
      have hinv := inv_after (c := c) pre
      have hprefix : pre ++ [.commit id] <+: es := ⟨post, by simp [hes]⟩
      have hvisible : s ∈ (after c (pre ++ [.commit id])).visible.rows := by
        rw [after_concat, mem_visible]
        refine ⟨hs, fun hmem => ?_⟩
        have hne := (List.mem_filter.mp hmem).2
        simp [hid] at hne
      let more : List Event := List.replicate s.id (.poll (fun _ _ => 0) 0)
      have hcount := h _ hprefix s hvisible hsource more
        (by simp [polls, more, List.countP_replicate, Event.isPoll])
      have hmem : s ∈ ingested c ((pre ++ [.commit id]) ++ more) :=
        List.count_pos_iff.mp (by omega)
      rw [ingested_append, ingested_append, List.append_assoc] at hmem
      rcases List.mem_append.mp hmem with hmem | hmem
      · -- what was ingested before was visible before
        have hbefore := (mem_visible.mp (hinv.seen s hmem).1).2
        exact hbefore (hid ▸ hopen)
      · rcases List.mem_append.mp hmem with hmem | hmem
        · exact absurd hmem List.not_mem_nil
        · -- what is ingested later is above the cursor
          have hnot := @not_done_of_mem_outputs World Event SampleRow (step c) (ingests c)
            (fun _ => True) (fun w s => s.id ≤ w.task.lastId) (fun _ _ _ => trivial)
            (fun w e x _ hx => not_le_of_mem_ingests hx)
            (fun w e x _ hx => le_trans hx (lastId_le_step e)) _ trivial _ _ hmem
          apply hnot
          rw [after_concat]
          show s.id ≤ (after c pre).task.lastId
          rw [hid]
          exact not_lt.mp hbehind
    | _ => trivial
  · intro h pre hprefix s hs hsource more henough
    obtain ⟨post, rfl⟩ := hprefix
    have hmem : s ∈ ingested c (pre ++ more) := by
      rw [ingested_append, List.mem_append]
      refine (ingested_or_ahead (allSteps_append.mp h).1 hs hsource).imp id fun hahead => ?_
      exact mem_outputs_of_polls hlimit hsource more hs hahead (by omega)
    exact List.count_eq_one_of_mem (nodup_ingested _) hmem

/-! ## Two writers -/

/-- A station, with the settings that the poller has by default. -/
def oneStation : Settings where
  stationId := "a5b8c4de-2f10-4a51-9d3e-0c7f5b1e2a90"
  measurementType := "dust_concentration"

/-- A sample of the station. -/
def sampleRow (id : Nat) : SampleRow where
  id := id
  stationId := oneStation.stationId
  measurementType := oneStation.measurementType
  value := 1
  sampledAt := { year := 2026, month := 6, day := 1 }

/-- Two writers insert a sample each, and commit in the order of the ids. -/
def commitsInOrder : List Event :=
  [.insert (sampleRow 0), .insert (sampleRow 0), .commit 1, .commit 2,
    .poll (fun _ _ => 0) 0]

theorem neverLost_commitsInOrder :
    0 < oneStation.pollBatchLimit ∧ NeverLost oneStation commitsInOrder := by
  refine ⟨by decide, (neverLost_iff (by decide) _).mpr ⟨trivial, trivial, ?_, ?_, trivial, trivial⟩⟩
  · exact fun _ _ _ _ _ => Nat.zero_lt_one
  · exact fun _ _ _ _ _ => Nat.zero_lt_two

/-- The writer of the second sample commits first, and the poller reads
before the other one commits. -/
def commitsOutOfOrder : List Event :=
  [.insert (sampleRow 0), .insert (sampleRow 0), .commit 2, .poll (fun _ _ => 0) 0,
    .commit 1]

/-- The first sample is behind the cursor when it becomes visible. -/
theorem not_neverLost_commitsOutOfOrder :
    0 < oneStation.pollBatchLimit ∧ ¬ NeverLost oneStation commitsOutOfOrder := by
  refine ⟨by decide, fun h => ?_⟩
  have hcount := h commitsOutOfOrder List.prefix_rfl (sampleRow 1) (by decide)
    ⟨rfl, rfl⟩ [.poll (fun _ _ => 0) 0] (by decide)
  revert hcount
  decide

end Visibility

end DustMonitoring.Dumopro
