import DustMonitoring.Lib.Calendar
import DustMonitoring.Lib.Double
import DustMonitoring.Lib.Table

/-!
# The tables of gateway_db

`dust_inspection` holds one row for each measurement of the dust sensor,
`cctv_frame` one row for each image of the AMR camera, and
`cctv_transfer_queue` the backlog of paired frames that PoolerTran still
has to send.  The queue has no foreign key, so a queue row outlives the
frame and the measurement it names.

The only writer of the queue besides PoolerTran is the trigger
`trg_enqueue_cctv_transfer`, which runs `enqueueCctvTransfer` for every
frame whose `dust_inspection_id` goes from `NULL` to a value.
-/

namespace DustMonitoring.Schema

open DustMonitoring.Lib

/-- Microseconds since the epoch. -/
abbrev Timestamp := Int

/-- One row of `dust_inspection`.  The columns that no modelled query
reads (`cmd_id`, `raw_xml` and the like) are left out. -/
structure DustInspection where
  id : Nat
  receivedAt : Timestamp
  sensorDatetime : Option DateTime := none
  dustValue : Option Double := none
  dustAlarm : Option Int := none
  sensorType : Option Int := none
  sensorIndex : Option Int := none
  targetIndex : Option Int := none
  waypointX : Option Double := none
  waypointY : Option Double := none
  waypointZ : Option Double := none
  rotX : Option Double := none
  rotY : Option Double := none
  rotZ : Option Double := none
  rotW : Option Double := none
  ugvId : Option Int := none
  locationId : Option Int := none
  mapId : Option Int := none
  navigationId : Option Int := none
  execId : Option Int := none
  missionId : Option Int := none
  plantId : Option Int := none
  targetId : Option Int := none
  waypointId : Option Int := none
  inspectionLocalId : Option Int := none
  objectId : Option Int := none
  inspectionPan : Option Int := none
  inspectionTilt : Option Int := none
  inspectionLift : Option Int := none
deriving DecidableEq, Repr

/-- One row of `cctv_frame`. -/
structure CctvFrame where
  id : Nat
  receivedAt : Timestamp
  amrId : String
  resolution : String := ""
  filePath : String
  dustInspectionId : Option Nat := none
  pairedAt : Option Timestamp := none
deriving DecidableEq, Repr

/-- One row of `cctv_transfer_queue`. -/
structure TransferRow where
  frameId : Nat
  dustId : Option Nat
  enqueuedAt : Timestamp
  attempts : Nat := 0
deriving DecidableEq, Repr

/-- A queue row joined with the frame and the measurement it names.  The
columns of a source that is gone are `none`. -/
structure QueueRow where
  frameId : Nat
  attempts : Nat
  enqueuedAt : Timestamp
  dustId : Option Nat
  cfId : Option Nat
  amrId : Option String
  filePath : Option String
  resolution : Option String
  receivedAt : Option Timestamp
  pairedAt : Option Timestamp
  dustValue : Option Double
  dustAlarm : Option Int
  waypointId : Option Int
  targetId : Option Int
  missionId : Option Int
  waypointX : Option Double
  waypointY : Option Double
  waypointZ : Option Double
deriving DecidableEq, Repr

/-- The frame that the queue row names is gone. -/
def QueueRow.isOrphan (r : QueueRow) : Bool := r.cfId.isNone

/-- gateway_db. -/
structure GatewayDb where
  cctvFrame : SerialTable CctvFrame.id
  dustInspection : SerialTable DustInspection.id
  cctvTransferQueue : Table TransferRow.frameId

namespace GatewayDb

/-- gateway_db after the schema was created. -/
def empty : GatewayDb := ⟨SerialTable.empty, SerialTable.empty, Table.empty⟩

/-- The DUST handler inserts a measurement; the id is the next of the
sequence. -/
def insertDust (gw : GatewayDb) (row : DustInspection) : GatewayDb :=
  { gw with
    dustInspection := gw.dustInspection.append
      (fun n => { row with id := n }) (fun _ => rfl) }

/-- The CCTV handler inserts a frame, not yet paired. -/
def insertFrame (gw : GatewayDb) (row : CctvFrame) : GatewayDb :=
  { gw with
    cctvFrame := gw.cctvFrame.append
      (fun n => { row with id := n, dustInspectionId := none, pairedAt := none })
      (fun _ => rfl) }

/-- The retention of the cleaner deletes frames. -/
def deleteFrames (gw : GatewayDb) (p : CctvFrame → Bool) : GatewayDb :=
  { gw with
    cctvFrame := gw.cctvFrame.deleteWhere p }

/-- The retention of the cleaner deletes measurements.  A frame that was
paired with one of them is unpaired again (`ON DELETE SET NULL`). -/
def deleteDusts (gw : GatewayDb) (p : DustInspection → Bool) : GatewayDb :=
  { gw with
    dustInspection := gw.dustInspection.deleteWhere p
    cctvFrame := gw.cctvFrame.updateWhere
      (fun f => gw.dustInspection.rows.any
        (fun d => p d && f.dustInspectionId == some d.id))
      (fun f => { f with dustInspectionId := none }) (fun _ => rfl) }

/-- The two left joins of the queue with its sources. -/
def joinRow (gw : GatewayDb) (q : TransferRow) : QueueRow :=
  let cf := gw.cctvFrame.find? q.frameId
  let di := q.dustId.bind gw.dustInspection.find?
  { frameId := q.frameId
    attempts := q.attempts
    enqueuedAt := q.enqueuedAt
    dustId := q.dustId
    cfId := cf.map CctvFrame.id
    amrId := cf.map CctvFrame.amrId
    filePath := cf.map CctvFrame.filePath
    resolution := cf.map CctvFrame.resolution
    receivedAt := cf.map CctvFrame.receivedAt
    pairedAt := cf.bind CctvFrame.pairedAt
    dustValue := di.bind DustInspection.dustValue
    dustAlarm := di.bind DustInspection.dustAlarm
    waypointId := di.bind DustInspection.waypointId
    targetId := di.bind DustInspection.targetId
    missionId := di.bind DustInspection.missionId
    waypointX := di.bind DustInspection.waypointX
    waypointY := di.bind DustInspection.waypointY
    waypointZ := di.bind DustInspection.waypointZ }

/-- `DELETE FROM cctv_transfer_queue WHERE frame_id = $1`. -/
def dequeue (gw : GatewayDb) (frameId : Nat) : GatewayDb :=
  { gw with
    cctvTransferQueue := gw.cctvTransferQueue.deleteWhere
      (fun q => decide (q.frameId = frameId)) }

/-- The row that the trigger function `enqueue_cctv_transfer` inserts for
a frame and the measurement it was paired with.  There is none when the
measurement names no waypoint. -/
def transferRow (gw : GatewayDb) (now : Timestamp) (pair : Nat × Nat) :
    Option TransferRow :=
  ((gw.dustInspection.find? pair.2).bind DustInspection.waypointId).map
    fun _ => { frameId := pair.1, dustId := some pair.2, enqueuedAt := now }

/-- The trigger function `enqueue_cctv_transfer`.  A frame that is already
queued is left alone (`ON CONFLICT (frame_id) DO NOTHING`). -/
def enqueueCctvTransfer (now : Timestamp) (gw : GatewayDb) (pair : Nat × Nat) :
    GatewayDb :=
  match gw.transferRow now pair with
  | none => gw
  | some row =>
    { gw with cctvTransferQueue := gw.cctvTransferQueue.insert row }

/-- The retention of measurements deletes no frame and keeps its AMR. -/
theorem exists_frame_of_deleteDusts {gw : GatewayDb} {p : DustInspection → Bool}
    {g : CctvFrame} (h : g ∈ (gw.deleteDusts p).cctvFrame.rows) :
    ∃ f ∈ gw.cctvFrame.rows, f.id = g.id ∧ f.amrId = g.amrId := by
  rw [deleteDusts, SerialTable.toTable_updateWhere, Table.mem_updateWhere] at h
  obtain ⟨f, hf, rfl⟩ := h
  refine ⟨f, hf, ?_, ?_⟩
  · split <;> rfl
  · split <;> rfl

theorem transferRow_eq_some_iff {gw : GatewayDb} {now : Timestamp}
    {pair : Nat × Nat} {q : TransferRow} :
    gw.transferRow now pair = some q ↔
      (∃ d ∈ gw.dustInspection.rows, d.id = pair.2 ∧ d.waypointId ≠ none) ∧
        q = { frameId := pair.1, dustId := some pair.2, enqueuedAt := now } := by
  unfold transferRow
  rw [Option.map_eq_some_iff]
  constructor
  · intro h
    obtain ⟨w, hw, hq⟩ := h
    obtain ⟨d, hd, hdw⟩ := Option.bind_eq_some_iff.mp hw
    obtain ⟨hmem, hid⟩ := Table.find?_eq_some_iff.mp hd
    exact ⟨⟨d, hmem, hid, by rw [hdw]; simp⟩, hq.symm⟩
  · intro h
    obtain ⟨⟨d, hmem, hid, hdw⟩, hq⟩ := h
    obtain ⟨w, hw⟩ := Option.ne_none_iff_exists'.mp hdw
    have hfind := Table.find?_eq_some_iff.mpr ⟨hmem, hid⟩
    exact ⟨w, Option.bind_eq_some_iff.mpr ⟨d, hfind, hw⟩, hq.symm⟩

/-- The trigger only writes the queue, and what it writes does not depend
on the queue. -/
theorem foldl_enqueueCctvTransfer (clock : Nat → Timestamp)
    (pairs : List (Nat × Nat)) (gw : GatewayDb) :
    pairs.foldl (fun g pair => g.enqueueCctvTransfer (clock pair.1) pair) gw =
      { gw with
        cctvTransferQueue :=
          (pairs.filterMap (fun pair => gw.transferRow (clock pair.1) pair)).foldl
            Table.insert gw.cctvTransferQueue } := by
  induction pairs generalizing gw with
  | nil => rfl
  | cons pair ps ih =>
    rw [List.foldl_cons, ih, enqueueCctvTransfer]
    cases h : gw.transferRow (clock pair.1) pair with
    | none =>
      rw [List.filterMap_cons_none (f := fun pair => gw.transferRow (clock pair.1) pair) h]
    | some row =>
      rw [List.filterMap_cons_some (f := fun pair => gw.transferRow (clock pair.1) pair) h]
      rfl

end GatewayDb

end DustMonitoring.Schema
