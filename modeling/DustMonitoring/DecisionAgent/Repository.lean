import DustMonitoring.DecisionAgent.Judge
import DustMonitoring.Schema.Record

/-!
# The queries of the decision agent

`repository/decision_repo.py`, and the edits of the rules that `judge.py`
and `role_resolver.py` make.  `mark_decided` and `force_decide` run the
same guarded update: it writes the verdict of a record that is still
pending, and no other.
-/

namespace DustMonitoring.DecisionAgent

open DustMonitoring.Lib DustMonitoring.Schema

/-- `DecisionRepository.fetch_pending`. -/
def fetchPending (db : DecisionDb) (limit : Nat) : List PendingRecord :=
  let rows := db.decisionRecord.rows.filter fun r =>
    r.finalDecision == .pending && r.anomalyDetectionResult != .pending &&
      r.objectDetectionResult != .pending && r.sensorAnalysisResult != .pending
  ((orderBy DecisionRecord.observationTimestamp rows).take limit).map fun r =>
    { id := r.id
      stationId := r.stationId
      observationTimestamp := r.observationTimestamp
      anomalyDetectionResult := r.anomalyDetectionResult
      objectDetectionResult := r.objectDetectionResult
      sensorAnalysisResult := r.sensorAnalysisResult }

/-- `UPDATE decision_record SET final_decision .. WHERE id = $1 AND
final_decision = 'pending'`. -/
def setVerdict (db : DecisionDb) (decisionId : Nat)
    (finalDecision : DecisionResult) (mappingId : Option Nat)
    (now : Timestamp) : DecisionDb :=
  db.updateRecords
    (fun r => decide (r.id = decisionId) && r.finalDecision == .pending)
    (fun r =>
      { r with
        finalDecision := finalDecision
        decidedAt := some now
        mappingId := mappingId })
    (fun _ => rfl)

/-- The number of rows that `setVerdict` updates is above zero. -/
def updatesVerdict (db : DecisionDb) (decisionId : Nat) : Bool :=
  db.decisionOf decisionId == some .pending

/-- `DecisionRepository.mark_decided`. -/
def markDecided (db : DecisionDb) (decisionId : Nat) (level : FinalLevel)
    (mappingId : Nat) (now : Timestamp) : DecisionDb × Bool :=
  (setVerdict db decisionId (levelDecision level) (some mappingId) now,
    updatesVerdict db decisionId)

/-- `_VALID_DECISION_LEVELS`. -/
def validDecisionLevels : List DecisionResult := [.normal, .caution, .warning]

/-- `DecisionRepository.force_decide`; `none` is the `ValueError`. -/
def forceDecide (db : DecisionDb) (decisionId : Nat)
    (finalDecision : DecisionResult) (mappingId : Option Nat)
    (now : Timestamp) : Option (DecisionDb × Bool) :=
  if finalDecision ∉ validDecisionLevels then none
  else
    some (setVerdict db decisionId finalDecision mappingId now,
      updatesVerdict db decisionId)

/-- The statement of `Judge.update_final`, and whether it updated a row. -/
def updateFinal (db : DecisionDb) (mappingId : Nat) (level : FinalLevel) :
    DecisionDb × Bool :=
  ({ db with
      alarmMapping := db.alarmMapping.updateWhere
        (fun m => decide (m.id = mappingId))
        (fun m => { m with finalDecision := level }) (fun _ => rfl) },
    db.alarmMapping.rows.any fun m => decide (m.id = mappingId))

/-- The statement of `RoleResolver.update_component`, and whether it
updated a row; `none` is the `ValueError`. -/
def updateComponent (db : DecisionDb) (detectionRole componentName : String) :
    Option (DecisionDb × Bool) :=
  if componentToColumn.lookup componentName = none then none
  else
    some
      ({ db with
          roleMapping := db.roleMapping.updateWhere
            (fun r => decide (r.detectionRole = detectionRole))
            (fun r => { r with componentName := componentName })
            (fun _ => rfl) },
        db.roleMapping.rows.any fun r => decide (r.detectionRole = detectionRole))

/-- A channel reports its result, in the one column it may write. -/
def reportChannel (db : DecisionDb) (decisionId : Nat) (col : Column)
    (result : ChannelResult) : DecisionDb :=
  db.updateRecords (fun r => decide (r.id = decisionId))
    (fun r =>
      match col with
      | .anomalyDetectionResult => { r with anomalyDetectionResult := result }
      | .objectDetectionResult => { r with objectDetectionResult := result }
      | .sensorAnalysisResult => { r with sensorAnalysisResult := result })
    (fun _ => by cases col <;> rfl)

/-! ## What the statements keep -/

/-- A verdict is written once: the update passes over decided records. -/
theorem keeps_setVerdict (db : DecisionDb) (decisionId : Nat)
    (finalDecision : DecisionResult) (mappingId : Option Nat)
    (now : Timestamp) :
    db.Keeps (setVerdict db decisionId finalDecision mappingId now) := by
  apply DecisionDb.keeps_updateRecords
  · intro r
    rfl
  · intro r hp hne
    have hpending : r.finalDecision = .pending := by
      simp only [Bool.and_eq_true, beq_iff_eq] at hp
      exact hp.2
    exact absurd hpending hne

theorem keeps_forceDecide {db db' : DecisionDb} {decisionId : Nat}
    {finalDecision : DecisionResult} {mappingId : Option Nat}
    {now : Timestamp} {updated : Bool}
    (h : forceDecide db decisionId finalDecision mappingId now =
      some (db', updated)) : db.Keeps db' := by
  unfold forceDecide at h
  split at h
  · contradiction
  · obtain ⟨rfl, -⟩ := Prod.mk.inj (Option.some.inj h)
    exact keeps_setVerdict db decisionId finalDecision mappingId now

theorem keeps_updateFinal (db : DecisionDb) (mappingId : Nat)
    (level : FinalLevel) : db.Keeps (updateFinal db mappingId level).1 :=
  DecisionDb.keeps_of_record_eq fun _ => rfl

theorem keeps_updateComponent {db db' : DecisionDb}
    {detectionRole componentName : String} {updated : Bool}
    (h : updateComponent db detectionRole componentName =
      some (db', updated)) : db.Keeps db' := by
  unfold updateComponent at h
  split at h
  · contradiction
  · obtain ⟨rfl, -⟩ := Prod.mk.inj (Option.some.inj h)
    exact DecisionDb.keeps_of_record_eq fun _ => rfl

theorem keeps_reportChannel (db : DecisionDb) (decisionId : Nat)
    (col : Column) (result : ChannelResult) :
    db.Keeps (reportChannel db decisionId col result) := by
  apply DecisionDb.keeps_updateRecords
  · intro r
    cases col <;> rfl
  · intro r _ _
    cases col <;> rfl

end DustMonitoring.DecisionAgent
