import DustMonitoring.Lib.Query
import DustMonitoring.Schema.Decision

/-!
# The rules of the decision agent

`judge.py` and `role_resolver.py`: the truth table that turns the results
of three detection roles into a verdict, and the assignment of components
to roles.  Both are cached by the agent, and neither cache is refreshed
when another agent edits the table.  `verdict` is the part of
`Poller._decide` in `poller.py` that only reads the caches.
-/

namespace DustMonitoring.DecisionAgent

open DustMonitoring.Lib DustMonitoring.Schema

/-- A row of `decision_record` as `fetch_pending` returns it. -/
structure PendingRecord where
  id : Nat
  stationId : String
  observationTimestamp : Timestamp
  anomalyDetectionResult : ChannelResult
  objectDetectionResult : ChannelResult
  sensorAnalysisResult : ChannelResult
deriving DecidableEq, Repr

/-! ## The truth table -/

/-- The label of a model result, compared as text with the label of a
channel result. -/
def modelLabel : ModelResult → ChannelResult
  | .normal => .normal
  | .abnormal => .abnormal

/-- `final_level` cast to `decision_result`. -/
def levelDecision : FinalLevel → DecisionResult
  | .normal => .normal
  | .caution => .caution
  | .warning => .warning
  | .danger => .danger

/-- `Judge`, with its table from the three labels to the verdict and the
row it comes from. -/
structure Judge where
  table : List ((ChannelResult × ChannelResult × ChannelResult) ×
    (FinalLevel × Nat)) := []

/-- `Judge.load`. -/
def Judge.load (db : DecisionDb) : Judge :=
  ⟨db.alarmMapping.rows.map fun m =>
    ((modelLabel m.iotSensorLevel, modelLabel m.staticModelResult,
      modelLabel m.dynamicModelResult), (m.finalDecision, m.id))⟩

/-- `Judge.judge`.  In the dict of the source the last row of a key
stays; `none` is the `JudgeLookupError`. -/
def Judge.judge (j : Judge) (iot static dynamic : ChannelResult) :
    Option (FinalLevel × Nat) :=
  j.table.reverse.lookup (iot, static, dynamic)

/-! ## The roles -/

/-- A result column of `decision_record`. -/
inductive Column where
  | anomalyDetectionResult
  | objectDetectionResult
  | sensorAnalysisResult
deriving DecidableEq, Repr

/-- `_COMPONENT_TO_COLUMN`. -/
def componentToColumn : List (String × Column) :=
  [("anomaly_detection", .anomalyDetectionResult),
    ("object_detection", .objectDetectionResult),
    ("sensor_analysis", .sensorAnalysisResult)]

/-- `ROLES`. -/
def roles : List String := ["static_dust", "dynamic_dust", "iot_sensor"]

/-- `RoleResolver`. -/
structure RoleResolver where
  roleToComponent : List (String × String) := []

/-- `RoleResolver.refresh`. -/
def RoleResolver.refresh (db : DecisionDb) : RoleResolver :=
  ⟨db.roleMapping.rows.map fun r => (r.detectionRole, r.componentName)⟩

/-- `RoleResolver.column_for_role`; `none` is the `KeyError`. -/
def RoleResolver.columnForRole (r : RoleResolver) (role : String) :
    Option Column :=
  (r.roleToComponent.lookup role).bind fun c => componentToColumn.lookup c

/-- `RoleResolver.role_columns`. -/
def RoleResolver.roleColumns (r : RoleResolver) :
    Option (List (String × Column)) :=
  roles.mapM fun role => (r.columnForRole role).map fun col => (role, col)

/-- The field of the record that holds the column. -/
def PendingRecord.field (rec : PendingRecord) : Column → ChannelResult
  | .anomalyDetectionResult => rec.anomalyDetectionResult
  | .objectDetectionResult => rec.objectDetectionResult
  | .sensorAnalysisResult => rec.sensorAnalysisResult

/-- The verdict of `_decide`, `none` where it only logs an error. -/
def verdict (j : Judge) (roleColumns : List (String × Column))
    (rec : PendingRecord) : Option (FinalLevel × Nat) := do
  let iotCol ← roleColumns.lookup "iot_sensor"
  let staticCol ← roleColumns.lookup "static_dust"
  let dynamicCol ← roleColumns.lookup "dynamic_dust"
  j.judge (rec.field iotCol) (rec.field staticCol) (rec.field dynamicCol)

end DustMonitoring.DecisionAgent
