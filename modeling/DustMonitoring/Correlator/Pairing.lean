import DustMonitoring.Lib.Run
import DustMonitoring.Schema.Gateway
import Mathlib.Data.List.MinMax
import Mathlib.Data.Prod.Lex

/-!
# Pairing frames with measurements

The ingestion gateway pairs every `cctv_frame` with the `dust_inspection`
that is nearest in time.  The pairing is deferred: `FrameCorrelator.tick`
is one `UPDATE` over the frames that are not paired yet and not older than
the lookback, and the trigger of `cctv_frame` queues every frame that it
pairs.

`tick` is the update as the statement writes it.  `mem_cctvFrame_pairSql`
and `mem_cctvTransferQueue_pairSql` say what a pass leaves in the two
tables, and the rest of the development uses these two.
-/

namespace DustMonitoring.Correlator

open DustMonitoring.Lib DustMonitoring.Schema

/-- The settings of a `FrameCorrelator`, in microseconds, with the checks
of its constructor.  `interval_sec` only paces the ticks. -/
structure FrameCorrelator where
  before : Int
  after : Int
  lookback : Int
  before_nonneg : 0 ≤ before
  after_nonneg : 0 ≤ after
  lookback_pos : 0 < lookback

/-- What the database brings to one pass: the reading of
`clock_timestamp()` for each frame, and the place of each measurement
among those that are equally near. -/
structure Pass where
  clock : Nat → Timestamp
  tie : CctvFrame → DustInspection → Nat

/-- `abs(extract(epoch FROM (f2.received_at - di.received_at)))`. -/
def distance (f : CctvFrame) (d : DustInspection) : Nat :=
  (f.receivedAt - d.receivedAt).natAbs

namespace FrameCorrelator

variable (c : FrameCorrelator)

/-- The join condition: the frame lies in the window around the
measurement. -/
def inWindow (f : CctvFrame) (d : DustInspection) : Bool :=
  decide (d.receivedAt - c.before ≤ f.receivedAt ∧
    f.receivedAt ≤ d.receivedAt + c.after)

/-- The frame is not older than the lookback. -/
def inLookback (p : Pass) (f : CctvFrame) : Bool :=
  decide (p.clock f.id - c.lookback < f.receivedAt)

/-- The measurement that `DISTINCT ON (f2.id) .. ORDER BY` keeps for the
frame: the first of those in the window, by distance. -/
def nearest (p : Pass) (dusts : List DustInspection) (f : CctvFrame) :
    Option DustInspection :=
  (dusts.filter (c.inWindow f)).argmin
    (fun d => toLex (distance f d, p.tie f d))

/-- The `inspection_id` that the subselect holds for the frame, if the
frame is in it. -/
def selection (p : Pass) (gw : GatewayDb) (f : CctvFrame) : Option Nat :=
  if f.dustInspectionId.isNone && c.inLookback p f then
    (c.nearest p gw.dustInspection.rows f).map DustInspection.id
  else none

/-- The subselect: pairs of `frame_id` and `inspection_id`. -/
def pairs (p : Pass) (gw : GatewayDb) : List (Nat × Nat) :=
  gw.cctvFrame.rows.filterMap
    (fun f => (c.selection p gw f).map (fun i => (f.id, i)))

/-- `_PAIR_SQL`: set the pairing of the selected frames, then fire the
trigger for each of them. -/
def pairSql (p : Pass) (gw : GatewayDb) : GatewayDb :=
  let updated := gw.cctvFrame.updateWhere
    (fun f => (c.selection p gw f).isSome)
    (fun f => { f with
      dustInspectionId := c.selection p gw f
      pairedAt := some (p.clock f.id) })
    (fun _ => rfl)
  (c.pairs p gw).foldl
    (fun gw' pair => gw'.enqueueCctvTransfer (p.clock pair.1) pair)
    { gw with cctvFrame := updated }

/-- One pass.  It returns the number of frames it paired. -/
def tick (p : Pass) (gw : GatewayDb) : GatewayDb × Nat :=
  (c.pairSql p gw, (c.pairs p gw).length)

/-! ## What a pass selects -/

/-- `d` is at least as near to the frame as every measurement whose window
the frame lies in, and is one of them. -/
structure IsNearest (dusts : List DustInspection) (f : CctvFrame)
    (d : DustInspection) : Prop where
  mem : d ∈ dusts
  inWindow : c.inWindow f d = true
  le : ∀ d' ∈ dusts, c.inWindow f d' = true → distance f d ≤ distance f d'

theorem isNearest_of_nearest {p : Pass} {dusts : List DustInspection}
    {f : CctvFrame} {d : DustInspection} (h : c.nearest p dusts f = some d) :
    c.IsNearest dusts f d := by
  have hmem := List.mem_filter.mp (List.argmin_mem h)
  refine ⟨hmem.1, hmem.2, ?_⟩
  intro d' hd' hw
  have hle := List.le_of_mem_argmin (List.mem_filter.mpr ⟨hd', hw⟩) h
  rw [Prod.Lex.toLex_le_toLex] at hle
  rcases hle with hlt | heq
  · exact Nat.le_of_lt hlt
  · exact Nat.le_of_eq heq.1

theorem nearest_eq_none_iff {p : Pass} {dusts : List DustInspection}
    {f : CctvFrame} :
    c.nearest p dusts f = none ↔ ∀ d ∈ dusts, c.inWindow f d = false := by
  rw [nearest, List.argmin_eq_none, List.filter_eq_nil_iff]
  simp

/-- A frame is selected when it is unpaired and in the lookback, and then
its nearest measurement is. -/
theorem selection_eq_some {p : Pass} {gw : GatewayDb} {f : CctvFrame} {i : Nat}
    (h : c.selection p gw f = some i) :
    f.dustInspectionId = none ∧ c.inLookback p f = true ∧
      ∃ d, d.id = i ∧ c.IsNearest gw.dustInspection.rows f d := by
  unfold selection at h
  split at h
  · rename_i hcand
    rw [Bool.and_eq_true, Option.isNone_iff_eq_none] at hcand
    obtain ⟨d, hd, hid⟩ := Option.map_eq_some_iff.mp h
    exact ⟨hcand.1, hcand.2, d, hid, c.isNearest_of_nearest hd⟩
  · contradiction

/-- An unpaired frame in the lookback that is not selected lies in no
window. -/
theorem inWindow_of_selection_eq_none {p : Pass} {gw : GatewayDb}
    {f : CctvFrame} (hnone : f.dustInspectionId = none)
    (hlook : c.inLookback p f = true) (h : c.selection p gw f = none) :
    ∀ d ∈ gw.dustInspection.rows, c.inWindow f d = false := by
  rw [selection, if_pos (by simp [hnone, hlook]), Option.map_eq_none_iff] at h
  exact c.nearest_eq_none_iff.mp h

/-! ## What a pass leaves behind -/

@[simp] theorem dustInspection_pairSql (p : Pass) (gw : GatewayDb) :
    (c.pairSql p gw).dustInspection = gw.dustInspection := by
  rw [pairSql, GatewayDb.foldl_enqueueCctvTransfer]

/-- The frame after a pass: paired if it was selected. -/
def pairFrame (p : Pass) (gw : GatewayDb) (f : CctvFrame) : CctvFrame :=
  match c.selection p gw f with
  | none => f
  | some i =>
    { f with
      dustInspectionId := some i
      pairedAt := some (p.clock f.id) }

theorem mem_cctvFrame_pairSql {p : Pass} {gw : GatewayDb} {g : CctvFrame} :
    g ∈ (c.pairSql p gw).cctvFrame.rows ↔
      ∃ f ∈ gw.cctvFrame.rows, g = c.pairFrame p gw f := by
  rw [pairSql, GatewayDb.foldl_enqueueCctvTransfer,
    SerialTable.toTable_updateWhere, Table.mem_updateWhere]
  have hframe : ∀ f : CctvFrame,
      (if (c.selection p gw f).isSome then
        { f with
          dustInspectionId := c.selection p gw f
          pairedAt := some (p.clock f.id) }
      else f) = c.pairFrame p gw f := by
    intro f
    unfold pairFrame
    cases c.selection p gw f <;> rfl
  constructor
  · intro h
    obtain ⟨f, hf, hg⟩ := h
    exact ⟨f, hf, by rw [← hg, hframe]⟩
  · intro h
    obtain ⟨f, hf, hg⟩ := h
    exact ⟨f, hf, by rw [hg, hframe]⟩

theorem mem_pairs {p : Pass} {gw : GatewayDb} {k i : Nat} :
    (k, i) ∈ c.pairs p gw ↔
      ∃ f ∈ gw.cctvFrame.rows, f.id = k ∧ c.selection p gw f = some i := by
  simp only [pairs, List.mem_filterMap, Option.map_eq_some_iff, Prod.mk.injEq]
  constructor
  · intro h
    obtain ⟨f, hf, j, hj, hk, rfl⟩ := h
    exact ⟨f, hf, hk, hj⟩
  · intro h
    obtain ⟨f, hf, hk, hi⟩ := h
    exact ⟨f, hf, i, hi, hk, rfl⟩

/-- The queue row of a frame that the pass paired with the measurement. -/
def queueRow (p : Pass) (f : CctvFrame) (d : DustInspection) : TransferRow where
  frameId := f.id
  dustId := some d.id
  enqueuedAt := p.clock f.id

/-- The rows that the trigger offers to the queue are those of the selected
frames whose measurement names a waypoint. -/
theorem mem_transferRows {p : Pass} {gw : GatewayDb} {q : TransferRow} :
    q ∈ (c.pairs p gw).filterMap
        (fun pair => gw.transferRow (p.clock pair.1) pair) ↔
      ∃ f ∈ gw.cctvFrame.rows, ∃ d ∈ gw.dustInspection.rows,
        c.selection p gw f = some d.id ∧ d.waypointId ≠ none ∧
        q = queueRow p f d := by
  rw [List.mem_filterMap]
  constructor
  · intro h
    obtain ⟨⟨k, i⟩, hpair, hq⟩ := h
    obtain ⟨f, hf, rfl, hsel⟩ := c.mem_pairs.mp hpair
    obtain ⟨⟨d, hd, rfl, hw⟩, rfl⟩ := GatewayDb.transferRow_eq_some_iff.mp hq
    exact ⟨f, hf, d, hd, hsel, hw, rfl⟩
  · intro h
    obtain ⟨f, hf, d, hd, hsel, hw, rfl⟩ := h
    refine ⟨(f.id, d.id), c.mem_pairs.mpr ⟨f, hf, rfl, hsel⟩, ?_⟩
    exact GatewayDb.transferRow_eq_some_iff.mpr ⟨⟨d, hd, rfl, hw⟩, rfl⟩

private theorem nodup_transferRows (p : Pass) (gw : GatewayDb) :
    (((c.pairs p gw).filterMap
      (fun pair => gw.transferRow (p.clock pair.1) pair)).map
        TransferRow.frameId).Nodup := by
  refine List.Nodup.sublist ?_ gw.cctvFrame.nodup
  rw [pairs]
  generalize gw.cctvFrame.rows = frames
  induction frames with
  | nil => exact List.Sublist.slnil
  | cons f fs ih =>
    cases hsel : c.selection p gw f with
    | none =>
      rw [List.filterMap_cons_none (by rw [hsel]; rfl)]
      exact List.Sublist.cons _ ih
    | some i =>
      rw [List.filterMap_cons_some (b := (f.id, i)) (by rw [hsel]; rfl)]
      rw [List.filterMap_cons]
      cases hrow : gw.transferRow (p.clock f.id) (f.id, i) with
      | none => exact List.Sublist.cons _ ih
      | some q =>
        have hq := (GatewayDb.transferRow_eq_some_iff.mp hrow).2
        have hkey : q.frameId = f.id := by rw [hq]
        show (q.frameId :: _).Sublist (f.id :: _)
        rw [hkey]
        exact List.Sublist.cons_cons _ ih

/-- After a pass the queue holds what it held, and the selected frames
whose measurement names a waypoint unless they were queued. -/
theorem mem_cctvTransferQueue_pairSql {p : Pass} {gw : GatewayDb}
    {q : TransferRow} :
    q ∈ (c.pairSql p gw).cctvTransferQueue.rows ↔
      q ∈ gw.cctvTransferQueue.rows ∨
        (∃ f ∈ gw.cctvFrame.rows, ∃ d ∈ gw.dustInspection.rows,
          c.selection p gw f = some d.id ∧ d.waypointId ≠ none ∧
          q = queueRow p f d) ∧
        ∀ r ∈ gw.cctvTransferQueue.rows, r.frameId ≠ q.frameId := by
  rw [pairSql, GatewayDb.foldl_enqueueCctvTransfer, ← c.mem_transferRows]
  exact Table.mem_foldl_insert (c.nodup_transferRows p gw)

end FrameCorrelator

end DustMonitoring.Correlator
