import DustMonitoring.Correlator.Safety
import DustMonitoring.PoolerTran.Conservation

/-!
# Polls

A poll reads where every AMR is.  For each AMR whose waypoint is not the
one remembered from the previous poll it processes the batch of the
remembered waypoint, and then remembers the current one, whether the batch
was sent or failed.

`transitions` is the loop of a poll.  It returns the batches that it
claimed, in order, beside the world.  A batch whose transaction does not
commit leaves gateway_db as it was and ends the poll with an exception.
Between two polls the listeners, the correlator, the retention of the
cleaner and the age sweep write gateway_db (`Event`).
-/

namespace DustMonitoring.PoolerTran

open DustMonitoring.Lib DustMonitoring.Schema

/-- A batch of a poll. -/
structure Batch where
  amrId : String
  waypointId : Int
  rows : List QueueRow
  committed : Bool
deriving DecidableEq

/-- The waypoint that the poller remembers for the AMR. -/
def prevWaypoint (P : Poller) (w : World) (amrId : String) : Int :=
  (w.poller.lastWaypointByAmr amrId).getD P.initWaypointId

/-- `_last_waypoint_by_amr[amr_id] = current_wp`. -/
def remember (w : World) (amrId : String) (waypointId : Int) : World :=
  { w with
    poller.lastWaypointByAmr :=
      Function.update w.poller.lastWaypointByAmr amrId (some waypointId) }

/-- Count a transition. -/
def countTransition (w : World) : World :=
  { w with
    poller.stats.waypointTransitions := w.poller.stats.waypointTransitions + 1 }

/-- Count the transition and process the batch of the previous waypoint. -/
def leaveWaypoint (P : Poller) (calls : Calls) (amrId : String)
    (prevWp : Int) (w : World) : List QueueRow × World :=
  processWaypointBatch P calls amrId prevWp (countTransition w)

/-- The loop of `_check_waypoint_transition` over the current waypoints. -/
def transitions (P : Poller) (calls : String → Calls) :
    List (String × Int) → World → World × List Batch
  | [], w => (w, [])
  | (amrId, currentWp) :: rest, w =>
    let prevWp := prevWaypoint P w amrId
    if currentWp = prevWp then
      transitions P calls rest (remember w amrId currentWp)
    else
      let (rows, w₁) := leaveWaypoint P (calls amrId) amrId prevWp w
      if (calls amrId).commits then
        let (w', log) := transitions P calls rest (remember w₁ amrId currentWp)
        (w', ⟨amrId, prevWp, rows, true⟩ :: log)
      else
        ({ w₁ with gw := w.gw }, [⟨amrId, prevWp, rows, false⟩])

/-- `_check_waypoint_transition`: the world after the poll and its
batches. -/
def checkWaypointTransition (P : Poller) (calls : String → Calls) (w : World) :
    World × List Batch :=
  transitions P calls (fetchCurrentWaypoints w.gw) w

/-- The frames that a poll returns, unless it ends with an exception. -/
def processed (log : List Batch) : Option (List WaypointFrame) :=
  if log.all Batch.committed then
    some (log.flatMap fun b => b.rows.map toWaypointFrame)
  else none

/-- What happens to the world of the poller. -/
inductive Event where
  /-- The listeners and the correlator. -/
  | gateway (c : Correlator.FrameCorrelator) (e : Correlator.Event)
  | deleteFrames (p : CctvFrame → Bool)
  | deleteDusts (p : DustInspection → Bool)
  /-- `_sweep_stale`. -/
  | sweep (before : Timestamp)
  | poll (calls : String → Calls)

/-- The event is a poll. -/
def Event.isPoll : Event → Bool
  | .poll _ => true
  | _ => false

/-- The world after the event. -/
def step (P : Poller) (w : World) : Event → World
  | .gateway c e => { w with gw := c.step w.gw e }
  | .deleteFrames p => { w with gw := w.gw.deleteFrames p }
  | .deleteDusts p => { w with gw := w.gw.deleteDusts p }
  | .sweep before => { w with gw := (sweepStale w.gw before).1 }
  | .poll calls => (checkWaypointTransition P calls w).1

/-- The world when the poller starts on empty databases. -/
def World.init : World := ⟨GatewayDb.empty, DecisionDb.empty, {}⟩

/-! ## What a batch leaves alone -/

section Batch

variable {P : Poller} {calls : Calls} {amrId : String} {waypointId : Int} {w : World}

theorem sources_beforePurge :
    sources (beforePurge P calls amrId waypointId w).gw = sources w.gw := by
  obtain ⟨w₀, hins, ⟨-, -, hfold⟩ | ⟨-, exc, hfold⟩⟩ :=
    beforePurge_cases P calls amrId waypointId w
  · rw [hfold, sources_foldl_finishRow, hins.gw]
  · rw [hfold, sources_foldl_handleFailure, hins.gw]

theorem sources_afterBatch :
    sources (afterBatch P calls amrId waypointId w).gw = sources w.gw := by
  by_cases hp : purges P calls amrId waypointId w
  · rw [afterBatch_of_purges hp]
    exact sources_beforePurge
  · rw [afterBatch_of_not_purges hp, sources_beforePurge]

/-- A queue row after the batch was there before, under the same keys. -/
theorem exists_queue_of_afterBatch {q : TransferRow}
    (h : q ∈ (afterBatch P calls amrId waypointId w).gw.cctvTransferQueue.rows) :
    ∃ q₀ ∈ w.gw.cctvTransferQueue.rows,
      q₀.frameId = q.frameId ∧ q₀.dustId = q.dustId := by
  have hbefore := mem_queue_beforePurge h
  obtain ⟨w₀, hins, ⟨-, -, hfold⟩ | ⟨-, exc, hfold⟩⟩ :=
    beforePurge_cases P calls amrId waypointId w
  · rw [hfold, mem_queue_foldl_finishRow, hins.gw] at hbefore
    exact ⟨q, hbefore.1, rfl, rfl⟩
  · rw [hfold, mem_queue_foldl_handleFailure nodup_claimedRows, hins.gw] at hbefore
    obtain ⟨q₀, hq₀, ⟨rfl, -⟩ | ⟨r, -, -, -, rfl⟩⟩ := hbefore
    · exact ⟨q, hq₀, rfl, rfl⟩
    · exact ⟨q₀, hq₀, rfl, rfl⟩

theorem lastWaypointByAmr_afterBatch :
    (afterBatch P calls amrId waypointId w).poller.lastWaypointByAmr =
      w.poller.lastWaypointByAmr := by
  have hbefore : (beforePurge P calls amrId waypointId w).poller.lastWaypointByAmr =
      w.poller.lastWaypointByAmr := by
    obtain ⟨w₀, hins, ⟨-, -, hfold⟩ | ⟨-, exc, hfold⟩⟩ :=
      beforePurge_cases P calls amrId waypointId w
    · rw [hfold, lastWaypointByAmr_foldl_finishRow, hins.poller]
    · rw [hfold, lastWaypointByAmr_foldl_handleFailure, hins.poller]
  by_cases hp : purges P calls amrId waypointId w
  · rw [afterBatch_of_purges hp]
    exact hbefore
  · rw [afterBatch_of_not_purges hp, hbefore]

end Batch

/-! ## The loop of a poll -/

section Loop

variable {P : Poller} {calls : String → Calls} {amrId : String} {currentWp : Int}
  {rest items : List (String × Int)} {w : World}

theorem transitions_of_eq (h : currentWp = prevWaypoint P w amrId) :
    transitions P calls ((amrId, currentWp) :: rest) w =
      transitions P calls rest (remember w amrId currentWp) := by
  rw [transitions]
  exact if_pos h

theorem transitions_of_commits (h : currentWp ≠ prevWaypoint P w amrId)
    (hc : (calls amrId).commits = true) :
    transitions P calls ((amrId, currentWp) :: rest) w =
      (let r := leaveWaypoint P (calls amrId) amrId (prevWaypoint P w amrId) w
       let r' := transitions P calls rest (remember r.2 amrId currentWp)
       (r'.1, ⟨amrId, prevWaypoint P w amrId, r.1, true⟩ :: r'.2)) := by
  rw [transitions]
  simp only [h, hc, if_true, if_false]

theorem transitions_of_not_commits (h : currentWp ≠ prevWaypoint P w amrId)
    (hc : (calls amrId).commits = false) :
    transitions P calls ((amrId, currentWp) :: rest) w =
      (let r := leaveWaypoint P (calls amrId) amrId (prevWaypoint P w amrId) w
       ({ r.2 with gw := w.gw }, [⟨amrId, prevWaypoint P w amrId, r.1, false⟩])) := by
  rw [transitions]
  simp only [h, hc, if_false, Bool.false_eq_true]

theorem sources_leaveWaypoint {calls : Calls} {prevWp : Int} :
    sources (leaveWaypoint P calls amrId prevWp w).2.gw = sources w.gw :=
  sources_afterBatch (w := countTransition w)

theorem lastWaypointByAmr_leaveWaypoint {calls : Calls} {prevWp : Int} :
    (leaveWaypoint P calls amrId prevWp w).2.poller.lastWaypointByAmr =
      w.poller.lastWaypointByAmr :=
  lastWaypointByAmr_afterBatch (w := countTransition w)

/-- A poll does not write the tables that the queue is joined with. -/
theorem sources_transitions :
    sources (transitions P calls items w).1.gw = sources w.gw := by
  induction items generalizing w with
  | nil => rfl
  | cons item rest ih =>
    obtain ⟨amrId, currentWp⟩ := item
    by_cases h : currentWp = prevWaypoint P w amrId
    · rw [transitions_of_eq h]
      exact ih
    · cases hc : (calls amrId).commits with
      | true =>
        rw [transitions_of_commits h hc]
        exact ih.trans sources_leaveWaypoint
      | false => rw [transitions_of_not_commits h hc]

/-- A poll remembers nothing new of an AMR that has no current waypoint. -/
theorem lastWaypointByAmr_of_not_mem {a : String} (ha : a ∉ items.map Prod.fst) :
    (transitions P calls items w).1.poller.lastWaypointByAmr a =
      w.poller.lastWaypointByAmr a := by
  induction items generalizing w with
  | nil => rfl
  | cons item rest ih =>
    obtain ⟨amrId, currentWp⟩ := item
    rw [List.map_cons, List.mem_cons, not_or] at ha
    have hremember : ∀ w' : World, (remember w' amrId currentWp).poller.lastWaypointByAmr a =
        w'.poller.lastWaypointByAmr a :=
      fun w' => Function.update_of_ne ha.1 _ _
    by_cases h : currentWp = prevWaypoint P w amrId
    · rw [transitions_of_eq h, ih ha.2, hremember]
    · cases hc : (calls amrId).commits with
      | true =>
        rw [transitions_of_commits h hc]
        refine (ih ha.2).trans ?_
        rw [hremember, lastWaypointByAmr_leaveWaypoint]
      | false =>
        rw [transitions_of_not_commits h hc]
        exact congrFun lastWaypointByAmr_leaveWaypoint a

/-- What a batch of a poll is about, seen from the world before the
poll. -/
structure IsBatchOf (P : Poller) (w w' : World) (items : List (String × Int))
    (b : Batch) : Prop where
  waypointId : b.waypointId = prevWaypoint P w b.amrId
  rows : ∀ r ∈ b.rows, ∃ q ∈ w.gw.cctvTransferQueue.rows,
    q.frameId = r.frameId ∧ q.dustId = r.dustId ∧
      AtWaypoint w.gw b.amrId b.waypointId q
  current : ∃ currentWp, (b.amrId, currentWp) ∈ items ∧ currentWp ≠ b.waypointId ∧
    (b.committed = true → w'.poller.lastWaypointByAmr b.amrId = some currentWp)

theorem prevWaypoint_congr {w' : World} {a : String}
    (h : w'.poller.lastWaypointByAmr a = w.poller.lastWaypointByAmr a) :
    prevWaypoint P w' a = prevWaypoint P w a := by
  rw [prevWaypoint, prevWaypoint, h]

/-- A batch of a later item, seen from the world before an earlier one. -/
private theorem IsBatchOf.of_rest {w₁ w' : World} {b : Batch}
    (hb : IsBatchOf P w₁ w' rest b)
    (hlast : ∀ a, a ≠ amrId →
      w₁.poller.lastWaypointByAmr a = w.poller.lastWaypointByAmr a)
    (hfresh : amrId ∉ rest.map Prod.fst) (hsources : sources w₁.gw = sources w.gw)
    (hqueue : ∀ q ∈ w₁.gw.cctvTransferQueue.rows,
      ∃ q₀ ∈ w.gw.cctvTransferQueue.rows,
        q₀.frameId = q.frameId ∧ q₀.dustId = q.dustId) :
    IsBatchOf P w w' ((amrId, currentWp) :: rest) b := by
  obtain ⟨cur, hmem, hne, hcommitted⟩ := hb.current
  have hamr : b.amrId ≠ amrId := by
    intro heq
    exact hfresh (heq ▸ List.mem_map_of_mem hmem)
  refine ⟨?_, ?_, cur, List.mem_cons_of_mem _ hmem, hne, hcommitted⟩
  · rw [hb.waypointId]
    exact prevWaypoint_congr (hlast b.amrId hamr)
  · intro r hr
    obtain ⟨q, hq, hframe, hdust, hat⟩ := hb.rows r hr
    obtain ⟨q₀, hq₀, hframe₀, hdust₀⟩ := hqueue q hq
    exact ⟨q₀, hq₀, hframe₀.trans hframe, hdust₀.trans hdust,
      hat.congr hsources.symm hframe₀ hdust₀⟩

private theorem rows_leaveWaypoint (calls : Calls) (prevWp : Int) {r : QueueRow}
    (hr : r ∈ (leaveWaypoint P calls amrId prevWp w).1) :
    ∃ q ∈ w.gw.cctvTransferQueue.rows,
      q.frameId = r.frameId ∧ q.dustId = r.dustId ∧ AtWaypoint w.gw amrId prevWp q := by
  obtain ⟨q, hq, rfl, hat⟩ := of_mem_fetchBatch hr
  exact ⟨q, hq, rfl, rfl, hat⟩

theorem isBatchOf_of_mem (hnodup : (items.map Prod.fst).Nodup) {b : Batch}
    (hb : b ∈ (transitions P calls items w).2) :
    IsBatchOf P w (transitions P calls items w).1 items b := by
  induction items generalizing w with
  | nil => exact absurd hb List.not_mem_nil
  | cons item rest ih =>
    obtain ⟨amrId, currentWp⟩ := item
    rw [List.map_cons, List.nodup_cons] at hnodup
    have hremember : ∀ (w' : World) (a : String), a ≠ amrId →
        (remember w' amrId currentWp).poller.lastWaypointByAmr a =
          w'.poller.lastWaypointByAmr a :=
      fun w' a ha => Function.update_of_ne ha _ _
    by_cases h : currentWp = prevWaypoint P w amrId
    · rw [transitions_of_eq h] at hb ⊢
      exact (ih hnodup.2 hb).of_rest (hremember w) hnodup.1 rfl
        (fun q hq => ⟨q, hq, rfl, rfl⟩)
    · cases hc : (calls amrId).commits with
      | true =>
        rw [transitions_of_commits h hc] at hb ⊢
        rcases List.mem_cons.mp hb with rfl | hb
        · refine ⟨rfl, fun r hr => rows_leaveWaypoint (calls amrId) _ hr, currentWp,
            List.mem_cons_self, h, fun _ => ?_⟩
          refine (lastWaypointByAmr_of_not_mem hnodup.1).trans ?_
          exact Function.update_self _ _ _
        · refine (ih hnodup.2 hb).of_rest ?_ hnodup.1 sources_leaveWaypoint
            (fun q hq => exists_queue_of_afterBatch (w := countTransition w) hq)
          intro a ha
          rw [hremember _ a ha, lastWaypointByAmr_leaveWaypoint]
      | false =>
        rw [transitions_of_not_commits h hc] at hb ⊢
        obtain rfl := List.mem_singleton.mp hb
        exact ⟨rfl, fun r hr => rows_leaveWaypoint (calls amrId) _ hr, currentWp,
          List.mem_cons_self, h, fun hcommitted => by contradiction⟩

end Loop

end DustMonitoring.PoolerTran
