import DustMonitoring.Lib.Query
import DustMonitoring.Schema.Gateway
import Mathlib.Data.String.Basic

/-!
# The queries of the queue repository

PoolerTran works on the queue rows of one AMR at one waypoint.
`fetchBatchForWaypoint` claims the oldest of them, up to a limit;
`purgeWaypointRemainder` deletes all that are left; and
`fetchCurrentWaypoints` reads off the newest queue row where each AMR is.

`AtWaypoint gw amrId waypointId q` says that the queue row `q` is one of
those rows.  All three queries are characterised by it.
-/

namespace DustMonitoring.PoolerTran

open DustMonitoring.Lib DustMonitoring.Schema

/-- The key of `ORDER BY q.enqueued_at, q.frame_id`. -/
def oldestFirst (r : QueueRow) : Timestamp ×ₗ Nat :=
  toLex (r.enqueuedAt, r.frameId)

/-- The key of `ORDER BY cf.amr_id, q.enqueued_at DESC, q.frame_id DESC`. -/
def newestFirst (amrId : String) (r : QueueRow) :
    String ×ₗ (Timestamp ×ₗ Nat)ᵒᵈ :=
  toLex (amrId, OrderDual.toDual (oldestFirst r))

/-- The condition `di.waypoint_id = $1 AND cf.amr_id = $2`. -/
def isAtWaypoint (amrId : String) (waypointId : Int) (r : QueueRow) : Bool :=
  r.waypointId == some waypointId && r.amrId == some amrId

/-- `_SELECT_BATCH_FOR_WAYPOINT`: the queue rows of the AMR at the
waypoint, oldest first, at most `limit`. -/
def fetchBatchForWaypoint (gw : GatewayDb) (amrId : String) (waypointId : Int)
    (limit : Nat) : List QueueRow :=
  (orderBy oldestFirst ((gw.cctvTransferQueue.rows.map gw.joinRow).filter
    (isAtWaypoint amrId waypointId))).take limit

/-- `_BUMP_ATTEMPTS`. -/
def bumpAttempts (gw : GatewayDb) (frameId : Nat) : GatewayDb :=
  { gw with
    cctvTransferQueue := gw.cctvTransferQueue.updateWhere
      (fun q => decide (q.frameId = frameId))
      (fun q => { q with attempts := q.attempts + 1 }) (fun _ => rfl) }

/-- `_SWEEP_STALE`: delete the rows that were queued before the time. -/
def sweepStale (gw : GatewayDb) (before : Timestamp) : GatewayDb × Nat :=
  let stale := fun q : TransferRow => decide (q.enqueuedAt < before)
  ({ gw with
      cctvTransferQueue := gw.cctvTransferQueue.deleteWhere stale },
    (gw.cctvTransferQueue.rows.filter stale).length)

/-- `_PURGE_WAYPOINT_REMAINDER`: delete every queue row of the AMR at the
waypoint.  It returns the number of deleted rows. -/
def purgeWaypointRemainder (gw : GatewayDb) (amrId : String)
    (waypointId : Int) : GatewayDb × Nat :=
  let matching := fun q => isAtWaypoint amrId waypointId (gw.joinRow q)
  ({ gw with
      cctvTransferQueue := gw.cctvTransferQueue.deleteWhere matching },
    (gw.cctvTransferQueue.rows.filter matching).length)

/-- The joined rows with both an AMR and a waypoint. -/
def locatedRows (gw : GatewayDb) : List (String × Int × QueueRow) :=
  (gw.cctvTransferQueue.rows.map gw.joinRow).filterMap fun r =>
    match r.amrId, r.waypointId with
    | some amrId, some waypointId => some (amrId, waypointId, r)
    | _, _ => none

/-- The located rows by AMR, newest first. -/
def newestRows (gw : GatewayDb) : List (String × Int × QueueRow) :=
  orderBy (fun x => newestFirst x.1 x.2.2) (locatedRows gw)

/-- `_CURRENT_WAYPOINTS`: for each AMR the waypoint of its newest queue
row. -/
def fetchCurrentWaypoints (gw : GatewayDb) : List (String × Int) :=
  (distinctOn Prod.fst (newestRows gw)).map (fun x => (x.1, x.2.1))

/-! ## Rows of an AMR at a waypoint -/

/-- The frame of the queue row is of the AMR and its measurement of the
waypoint. -/
def AtWaypoint (gw : GatewayDb) (amrId : String) (waypointId : Int)
    (q : TransferRow) : Prop :=
  (gw.joinRow q).amrId = some amrId ∧ (gw.joinRow q).waypointId = some waypointId

instance (gw : GatewayDb) (amrId : String) (waypointId : Int) (q : TransferRow) :
    Decidable (AtWaypoint gw amrId waypointId q) :=
  inferInstanceAs (Decidable (_ ∧ _))

theorem isAtWaypoint_joinRow {gw : GatewayDb} {amrId : String} {waypointId : Int}
    {q : TransferRow} :
    isAtWaypoint amrId waypointId (gw.joinRow q) = true ↔
      AtWaypoint gw amrId waypointId q := by
  rw [isAtWaypoint, Bool.and_eq_true, beq_iff_eq, beq_iff_eq, AtWaypoint, and_comm]

/-- The frame and the measurement of a row that is at a waypoint. -/
theorem atWaypoint_iff {gw : GatewayDb} {amrId : String} {waypointId : Int}
    {q : TransferRow} :
    AtWaypoint gw amrId waypointId q ↔
      (∃ f ∈ gw.cctvFrame.rows, f.id = q.frameId ∧ f.amrId = amrId) ∧
      ∃ d ∈ gw.dustInspection.rows, q.dustId = some d.id ∧
        d.waypointId = some waypointId := by
  refine and_congr ?_ ?_
  · show (gw.cctvFrame.find? q.frameId).map CctvFrame.amrId = some amrId ↔ _
    rw [Option.map_eq_some_iff]
    refine exists_congr fun f => ?_
    rw [Table.find?_eq_some_iff, and_assoc]
  · show (q.dustId.bind gw.dustInspection.find?).bind DustInspection.waypointId =
      some waypointId ↔ _
    rw [Option.bind_eq_some_iff]
    refine exists_congr fun d => ?_
    rw [Option.bind_eq_some_iff]
    constructor
    · intro h
      obtain ⟨⟨k, hk, hfind⟩, hw⟩ := h
      obtain ⟨hd, rfl⟩ := Table.find?_eq_some_iff.mp hfind
      exact ⟨hd, hk, hw⟩
    · intro h
      obtain ⟨hd, hk, hw⟩ := h
      exact ⟨⟨d.id, hk, Table.find?_eq_some_iff.mpr ⟨hd, rfl⟩⟩, hw⟩

/-- A row is at one waypoint of one AMR at most. -/
theorem AtWaypoint.unique {gw : GatewayDb} {amrId amrId' : String}
    {waypointId waypointId' : Int} {q : TransferRow}
    (h : AtWaypoint gw amrId waypointId q)
    (h' : AtWaypoint gw amrId' waypointId' q) :
    amrId = amrId' ∧ waypointId = waypointId' := by
  constructor
  · exact Option.some.inj (h.1.symm.trans h'.1)
  · exact Option.some.inj (h.2.symm.trans h'.2)

/-- A row that is at a waypoint is no orphan. -/
theorem AtWaypoint.isOrphan {gw : GatewayDb} {amrId : String} {waypointId : Int}
    {q : TransferRow} (h : AtWaypoint gw amrId waypointId q) :
    (gw.joinRow q).isOrphan = false := by
  have hamr : (gw.cctvFrame.find? q.frameId).map CctvFrame.amrId = some amrId := h.1
  show ((gw.cctvFrame.find? q.frameId).map CctvFrame.id).isNone = false
  cases hfind : gw.cctvFrame.find? q.frameId with
  | none =>
    rw [hfind] at hamr
    contradiction
  | some f => rfl

/-- The tables that the queue is joined with. -/
def sources (gw : GatewayDb) :
    SerialTable CctvFrame.id × SerialTable DustInspection.id :=
  (gw.cctvFrame, gw.dustInspection)

/-- Where a row is depends on its sources and its two keys only. -/
theorem AtWaypoint.congr {gw gw' : GatewayDb} {amrId : String} {waypointId : Int}
    {q q' : TransferRow} (h : AtWaypoint gw amrId waypointId q)
    (hsources : sources gw' = sources gw) (hframe : q'.frameId = q.frameId)
    (hdust : q'.dustId = q.dustId) : AtWaypoint gw' amrId waypointId q' := by
  obtain ⟨hcf, hdi⟩ := Prod.mk.inj hsources
  constructor
  · show (gw'.cctvFrame.find? q'.frameId).map CctvFrame.amrId = some amrId
    rw [hcf, hframe]
    exact h.1
  · show (q'.dustId.bind gw'.dustInspection.find?).bind DustInspection.waypointId =
      some waypointId
    rw [hdi, hdust]
    exact h.2

/-- The measurement of a row that is at a waypoint is known. -/
theorem AtWaypoint.exists_dustId {gw : GatewayDb} {amrId : String}
    {waypointId : Int} {q : TransferRow} (h : AtWaypoint gw amrId waypointId q) :
    ∃ d, q.dustId = some d := by
  have hwp : (q.dustId.bind gw.dustInspection.find?).bind
      DustInspection.waypointId = some waypointId := h.2
  cases hd : q.dustId with
  | none =>
    rw [hd] at hwp
    contradiction
  | some d => exact ⟨d, rfl⟩

/-! ## What the queries return -/

section Batch

variable {gw : GatewayDb} {amrId : String} {waypointId : Int} {limit : Nat}

/-- A claimed row is a queue row of the AMR at the waypoint. -/
theorem of_mem_fetchBatch {r : QueueRow}
    (h : r ∈ fetchBatchForWaypoint gw amrId waypointId limit) :
    ∃ q ∈ gw.cctvTransferQueue.rows, r = gw.joinRow q ∧
      AtWaypoint gw amrId waypointId q := by
  have hmem := mem_orderBy.mp (List.mem_of_mem_take h)
  obtain ⟨hmap, hat⟩ := List.mem_filter.mp hmem
  obtain ⟨q, hq, rfl⟩ := List.mem_map.mp hmap
  exact ⟨q, hq, rfl, isAtWaypoint_joinRow.mp hat⟩

/-- A batch that is not full holds every queue row of the AMR at the
waypoint. -/
theorem mem_fetchBatch_of_lt
    (hlt : (fetchBatchForWaypoint gw amrId waypointId limit).length < limit)
    {q : TransferRow} (hq : q ∈ gw.cctvTransferQueue.rows)
    (hat : AtWaypoint gw amrId waypointId q) :
    gw.joinRow q ∈ fetchBatchForWaypoint gw amrId waypointId limit := by
  have hall : (orderBy oldestFirst ((gw.cctvTransferQueue.rows.map
      gw.joinRow).filter (isAtWaypoint amrId waypointId))).length ≤ limit := by
    rw [fetchBatchForWaypoint, List.length_take] at hlt
    omega
  rw [fetchBatchForWaypoint, List.take_of_length_le hall, mem_orderBy, List.mem_filter]
  exact ⟨List.mem_map_of_mem hq, isAtWaypoint_joinRow.mpr hat⟩

theorem length_fetchBatch_le :
    (fetchBatchForWaypoint gw amrId waypointId limit).length ≤ limit :=
  List.length_take_le _ _

/-- A batch claims a row once. -/
theorem nodup_fetchBatch :
    ((fetchBatchForWaypoint gw amrId waypointId limit).map
      QueueRow.frameId).Nodup := by
  have hjoined : ((gw.cctvTransferQueue.rows.map gw.joinRow).map
      QueueRow.frameId).Nodup := by
    rw [List.map_map]
    exact gw.cctvTransferQueue.nodup
  have hfiltered := hjoined.sublist (List.filter_sublist
    (p := isAtWaypoint amrId waypointId).map QueueRow.frameId)
  have hsorted := ((perm_orderBy oldestFirst _).map QueueRow.frameId).nodup_iff.mpr
    hfiltered
  exact hsorted.sublist ((List.take_sublist _ _).map QueueRow.frameId)

end Batch

section Current

variable {gw : GatewayDb}

theorem mem_locatedRows {amrId : String} {waypointId : Int} {r : QueueRow} :
    (amrId, waypointId, r) ∈ locatedRows gw ↔
      ∃ q ∈ gw.cctvTransferQueue.rows, r = gw.joinRow q ∧
        AtWaypoint gw amrId waypointId q := by
  rw [locatedRows, List.mem_filterMap]
  constructor
  · intro h
    obtain ⟨r', hr', heq⟩ := h
    obtain ⟨q, hq, rfl⟩ := List.mem_map.mp hr'
    split at heq
    · rename_i a w ha hw
      obtain ⟨rfl, rfl, rfl⟩ := by simpa using heq
      exact ⟨q, hq, rfl, ha, hw⟩
    · contradiction
  · intro h
    obtain ⟨q, hq, rfl, ha, hw⟩ := h
    refine ⟨gw.joinRow q, List.mem_map_of_mem hq, ?_⟩
    rw [ha, hw]

/-- Each AMR has one current waypoint at most. -/
theorem nodup_fetchCurrentWaypoints :
    ((fetchCurrentWaypoints gw).map Prod.fst).Nodup := by
  rw [fetchCurrentWaypoints, List.map_map]
  exact nodup_map_distinctOn Prod.fst _

/-- The current waypoint of an AMR is where its newest queue row is. -/
theorem of_mem_fetchCurrentWaypoints {amrId : String} {waypointId : Int}
    (h : (amrId, waypointId) ∈ fetchCurrentWaypoints gw) :
    ∃ q ∈ gw.cctvTransferQueue.rows, AtWaypoint gw amrId waypointId q ∧
      ∀ q' ∈ gw.cctvTransferQueue.rows, ∀ waypointId',
        AtWaypoint gw amrId waypointId' q' →
        oldestFirst (gw.joinRow q') ≤ oldestFirst (gw.joinRow q) := by
  obtain ⟨⟨a, w, r⟩, hmem, heq⟩ := List.mem_map.mp h
  obtain ⟨rfl, rfl⟩ := Prod.mk.inj heq
  have hlocated := mem_orderBy.mp (mem_of_mem_distinctOn hmem)
  obtain ⟨q, hq, rfl, hat⟩ := mem_locatedRows.mp hlocated
  refine ⟨q, hq, hat, fun q' hq' w' hat' => ?_⟩
  have hlocated' := mem_locatedRows.mpr ⟨q', hq', rfl, hat'⟩
  rcases rel_of_mem_distinctOn (pairwise_orderBy _ _) hmem
    (mem_orderBy.mpr hlocated') rfl with heq | hle
  · have hrow : gw.joinRow q' = gw.joinRow q := (Prod.mk.inj (Prod.mk.inj heq).2).2
    rw [hrow]
  · rw [newestFirst, newestFirst, Prod.Lex.toLex_le_toLex] at hle
    rcases hle with hlt | hle
    · exact absurd hlt (lt_irrefl _)
    · exact OrderDual.toDual_le_toDual.mp hle.2

/-- An AMR with a located queue row has a current waypoint. -/
theorem exists_mem_fetchCurrentWaypoints {q : TransferRow} {amrId : String}
    {waypointId : Int} (hq : q ∈ gw.cctvTransferQueue.rows)
    (hat : AtWaypoint gw amrId waypointId q) :
    ∃ current, (amrId, current) ∈ fetchCurrentWaypoints gw := by
  have hlocated := mem_locatedRows.mpr ⟨q, hq, rfl, hat⟩
  have hsorted : (amrId, waypointId, gw.joinRow q) ∈ newestRows gw :=
    mem_orderBy.mpr hlocated
  obtain ⟨x, hmem, hkey⟩ : ∃ x ∈ distinctOn Prod.fst (newestRows gw), x.1 = amrId :=
    exists_mem_distinctOn hsorted
  exact ⟨x.2.1, List.mem_map.mpr ⟨x, hmem, by rw [hkey]⟩⟩

end Current

end DustMonitoring.PoolerTran
