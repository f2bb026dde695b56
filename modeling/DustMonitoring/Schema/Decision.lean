import DustMonitoring.Lib.Json
import DustMonitoring.Lib.Table
import DustMonitoring.Schema.Gateway

/-!
# The tables of decision_db

`decision_record` holds one row for each batch that PoolerTran has sent:
the producer inserts it with the verdict still pending, decision_agent
decides it by the rules of `alarm_mapping` and `role_mapping`, and the
egress gateway marks it as sent.  `transfer_dlq` holds the queue rows that
PoolerTran has given up.

The primary key of `decision_record` is a random UUID.  The model draws it
from a sequence instead; all that is used of it is that it is never drawn
twice.
-/

namespace DustMonitoring.Schema

open DustMonitoring.Lib

/-- The enum `channel_result`. -/
inductive ChannelResult where
  | normal | abnormal | caution | warning | pending
deriving DecidableEq, Repr

/-- The enum `decision_result`. -/
inductive DecisionResult where
  | normal | caution | warning | danger | pending
deriving DecidableEq, Repr

/-- The enum `final_level`. -/
inductive FinalLevel where
  | normal | caution | warning | danger
deriving DecidableEq, Repr

/-- The enum `model_result`. -/
inductive ModelResult where
  | normal | abnormal
deriving DecidableEq, Repr

/-- One row of `decision_record`.  The times at which the three channels
reported are left out: no modelled query reads them. -/
structure DecisionRecord where
  id : Nat
  stationId : String
  observationTimestamp : Timestamp
  anomalyDetectionResult : ChannelResult := .pending
  objectDetectionResult : ChannelResult := .pending
  sensorAnalysisResult : ChannelResult := .pending
  finalDecision : DecisionResult := .pending
  decidedAt : Option Timestamp := none
  mappingId : Option Nat := none
  dustId : Option Nat := none
  resultPayload : Json := .null
  imageB64 : Option String := none
  sentAt : Option Timestamp := none

/-- One row of `transfer_dlq`. -/
structure TransferDlq where
  frameId : Nat
  attempts : Nat
  lastError : String
  sourceRow : QueueRow
  deadLetteredAt : Timestamp

/-- One row of `alarm_mapping`. -/
structure AlarmMapping where
  id : Nat
  iotSensorLevel : ModelResult
  staticModelResult : ModelResult
  dynamicModelResult : ModelResult
  finalDecision : FinalLevel
deriving DecidableEq, Repr

/-- One row of `role_mapping`. -/
structure RoleMapping where
  detectionRole : String
  componentName : String
deriving DecidableEq, Repr

/-- decision_db. -/
structure DecisionDb where
  decisionRecord : SerialTable DecisionRecord.id
  transferDlq : Table TransferDlq.frameId
  alarmMapping : Table AlarmMapping.id
  roleMapping : Table RoleMapping.detectionRole

namespace DecisionDb

/-- decision_db after the schema was created. -/
def empty : DecisionDb :=
  ⟨SerialTable.empty, Table.empty, Table.empty, Table.empty⟩

/-- Whether some record is of the measurement. -/
def hasDecision (db : DecisionDb) (dustId : Nat) : Bool :=
  db.decisionRecord.rows.any (fun r => r.dustId == some dustId)

/-- The producer inserts a record with a new id, unless there is one of the
measurement already (`ON CONFLICT (dust_id) DO NOTHING`).  It returns
whether the record is new. -/
def insertDecision (db : DecisionDb) (row : DecisionRecord) : DecisionDb × Bool :=
  if row.dustId.any db.hasDecision then (db, false)
  else
    ({ db with
        decisionRecord := db.decisionRecord.append
          (fun n => { row with id := n }) (fun _ => rfl) },
      true)

/-- The producer puts a queue row into the dead letter table, in place of
an earlier row of the frame. -/
def deadLetter (db : DecisionDb) (row : TransferDlq) : DecisionDb :=
  { db with
    transferDlq := db.transferDlq.upsert row }

@[simp] theorem hasDecision_iff {db : DecisionDb} {dustId : Nat} :
    db.hasDecision dustId = true ↔
      ∃ r ∈ db.decisionRecord.rows, r.dustId = some dustId := by
  simp [hasDecision]

/-- After the insert there is a record of the measurement. -/
theorem hasDecision_insertDecision_self {db : DecisionDb} {row : DecisionRecord}
    {dustId : Nat} (h : row.dustId = some dustId) :
    (db.insertDecision row).1.hasDecision dustId = true := by
  unfold insertDecision
  split
  · rename_i hany
    simpa [h] using hany
  · rw [hasDecision_iff]
    refine ⟨{ row with id := db.decisionRecord.next }, ?_, h⟩
    exact SerialTable.mem_append.mpr (Or.inr rfl)

/-- The insert deletes no record. -/
theorem hasDecision_insertDecision {db : DecisionDb} {row : DecisionRecord}
    {dustId : Nat} (h : db.hasDecision dustId = true) :
    (db.insertDecision row).1.hasDecision dustId = true := by
  unfold insertDecision
  split
  · exact h
  · obtain ⟨r, hr, hd⟩ := hasDecision_iff.mp h
    exact hasDecision_iff.mpr ⟨r, SerialTable.mem_append.mpr (Or.inl hr), hd⟩

@[simp] theorem transferDlq_insertDecision (db : DecisionDb)
    (row : DecisionRecord) :
    (db.insertDecision row).1.transferDlq = db.transferDlq := by
  unfold insertDecision
  split <;> rfl

/-- A dead letter is there for the frame afterwards, and those of the other
frames stay. -/
theorem exists_transferDlq_deadLetter {db : DecisionDb} {row : TransferDlq}
    {k : Nat} :
    (∃ x ∈ (db.deadLetter row).transferDlq.rows, x.frameId = k) ↔
      (∃ x ∈ db.transferDlq.rows, x.frameId = k) ∨ row.frameId = k := by
  simp only [deadLetter, Table.mem_upsert]
  constructor
  · intro h
    obtain ⟨x, rfl | ⟨hx, -⟩, hk⟩ := h
    · exact Or.inr hk
    · exact Or.inl ⟨x, hx, hk⟩
  · intro h
    by_cases hrow : row.frameId = k
    · exact ⟨row, Or.inl rfl, hrow⟩
    · rcases h with ⟨x, hx, hk⟩ | h
      · exact ⟨x, Or.inr ⟨hx, fun heq => hrow (heq.symm.trans hk)⟩, hk⟩
      · exact absurd h hrow

end DecisionDb

end DustMonitoring.Schema
