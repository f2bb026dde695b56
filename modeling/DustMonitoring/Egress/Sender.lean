import DustMonitoring.Lib.Query
import DustMonitoring.Schema.Record

/-!
# The egress gateway

`sender.py`, `outbox.py`, `poller.py`, the repositories and `_drain_outbox`
of `main.py`: one process that copies decided records from decision_db to
the table `t_inspection` of LOAS.

The process is a program counter `Pc` that names the operation it awaits.
`Pc.effect` is what that operation does to the stores, `Pc.resume` and
`Pc.raised` say where the process goes on when it returns and when it
raises.  Between any two operations the process can crash, and the other
writers of the stores can run.

The values of a `t_inspection` row are kept with the id of the decision
they were written for (`LoasRow`).  The table has no such column; nothing
of the source reads it.
-/

namespace DustMonitoring.Egress

open DustMonitoring.Lib DustMonitoring.Schema

/-! ## Rows of t_inspection -/

/-- A timestamp column: a datetime as the database gave it, or its text
once it went through the JSON of the outbox. -/
inductive Stamp where
  | datetime (t : DateTime)
  | text (s : String)
deriving DecidableEq, Repr

/-- One row for `t_inspection`. -/
structure TInspection where
  inspectionDatetime : Option Stamp
  eventId : Option Int
  sensorType : Option Int
  sensorIndex : Option Int
  targetIndex : Option Int
  inspectionValue : Option String
  waypointX : Option Double
  waypointY : Option Double
  waypointZ : Option Double
  locationId : Option Int
  mapId : Option Int
  navigationId : Option Int
  execId : Option Int
  plantId : Option Int
  targetId : Option Int
  ugvId : Option Int
  waypointId : Option Int
  inspectionLoaclId : Option Int
  inspectionPan : Option Int
  inspectionTilt : Option Int
  inspectionLift : Option Int
  objectId : Option Int
  rotX : Option Double
  rotY : Option Double
  rotZ : Option Double
  rotW : Option Double
  imageData : Option String
deriving DecidableEq, Repr

/-- A `decision_record` as `fetch_pending` returns it. -/
structure Decision where
  id : Nat
  dustId : Option Nat
  finalDecision : DecisionResult
  imageB64 : Option String
deriving DecidableEq, Repr

/-- The settings of the process, and how it writes a float and a datetime
as text. -/
structure Sender where
  allowedEventIds : List Int := []
  batchSize : Nat := 100
  strFloat : Double → String
  strDatetime : DateTime → String

/-- `_EVENT_ID.get`. -/
def eventId : DecisionResult → Option Int
  | .normal => some 0
  | .caution => some 1
  | .warning => some 2
  | .danger => some 3
  | .pending => none

/-- `_build_row`. -/
def buildRow (S : Sender) (rec : Decision) (dust : DustInspection) :
    TInspection where
  inspectionDatetime := dust.sensorDatetime.map .datetime
  eventId := eventId rec.finalDecision
  sensorType := dust.sensorType
  sensorIndex := dust.sensorIndex
  targetIndex := dust.targetIndex
  inspectionValue := dust.dustValue.map S.strFloat
  waypointX := dust.waypointX
  waypointY := dust.waypointY
  waypointZ := dust.waypointZ
  locationId := dust.locationId
  mapId := dust.mapId
  navigationId := dust.navigationId
  execId := dust.execId
  plantId := dust.plantId
  targetId := dust.targetId
  ugvId := dust.ugvId
  waypointId := dust.waypointId
  inspectionLoaclId := dust.inspectionLocalId
  inspectionPan := dust.inspectionPan
  inspectionTilt := dust.inspectionTilt
  inspectionLift := dust.inspectionLift
  objectId := dust.objectId
  rotX := dust.rotX
  rotY := dust.rotY
  rotZ := dust.rotZ
  rotW := dust.rotW
  imageData := rec.imageB64

/-- The allowed event ids of the sender, all four when none are given. -/
def Sender.allowed (S : Sender) : List Int :=
  if S.allowedEventIds.isEmpty then [0, 1, 2, 3] else S.allowedEventIds

/-- `event_id in self._allowed_event_ids`. -/
def Sender.allows (S : Sender) (event : Option Int) : Bool :=
  event.any fun e => S.allowed.contains e

/-- The object that `json.loads` reads back from the payload that
`json.dumps(values, default=str)` wrote. -/
def jsonRow (S : Sender) (values : TInspection) : TInspection :=
  { values with
    inspectionDatetime := values.inspectionDatetime.map fun
      | .datetime t => .text (S.strDatetime t)
      | .text s => .text s }

/-! ## The stores -/

/-- A row of the SQLite outbox.  The rows are in the order of their
`outbox_id`. -/
structure OutboxRow where
  decisionId : Nat
  msgType : Nat
  payload : TInspection
  attempts : Nat := 0
deriving DecidableEq, Repr

/-- A row that was committed to `t_inspection`. -/
structure LoasRow where
  decisionId : Nat
  values : TInspection
deriving DecidableEq, Repr

/-- The four stores that the process uses. -/
structure Stores where
  db : DecisionDb
  gw : GatewayDb
  outbox : Table OutboxRow.decisionId
  loas : List LoasRow

/-- The key of `ORDER BY decided_at`, in which nulls come last. -/
def decidedKey (r : DecisionRecord) : Bool ×ₗ Timestamp :=
  toLex (r.decidedAt.isNone, r.decidedAt.getD 0)

/-- The records that a tick has to send. -/
def toSend (r : DecisionRecord) : Bool :=
  r.finalDecision != .pending && r.sentAt.isNone

/-- `DecisionRepository.fetch_pending`. -/
def fetchPending (db : DecisionDb) (limit : Nat) : List Decision :=
  let rows := db.decisionRecord.rows.filter toSend
  ((orderBy decidedKey rows).take limit).map fun r =>
    { id := r.id
      dustId := r.dustId
      finalDecision := r.finalDecision
      imageB64 := r.imageB64 }

/-- `DecisionRepository.mark_sent`. -/
def markSent (db : DecisionDb) (decisionId : Nat) (now : Timestamp) :
    DecisionDb :=
  db.updateRecords
    (fun r => decide (r.id = decisionId) && r.sentAt.isNone)
    (fun r => { r with sentAt := some now }) (fun _ => rfl)

/-- `Outbox.add`. -/
def Stores.addOutbox (s : Stores) (decisionId msgType : Nat)
    (payload : TInspection) : Stores :=
  { s with
    outbox := s.outbox.insert
      { decisionId := decisionId, msgType := msgType, payload := payload } }

/-- `Outbox.remove`. -/
def Stores.removeOutbox (s : Stores) (decisionId : Nat) : Stores :=
  { s with
    outbox := s.outbox.deleteWhere fun r => decide (r.decisionId = decisionId) }

/-- `Outbox.bump_attempts`. -/
def Stores.bumpAttempts (s : Stores) (decisionId : Nat) : Stores :=
  { s with
    outbox := s.outbox.updateWhere
      (fun r => decide (r.decisionId = decisionId))
      (fun r => { r with attempts := r.attempts + 1 }) (fun _ => rfl) }

/-- The insert of `MariaDbSink.write`, committed. -/
def Stores.commitRow (s : Stores) (decisionId : Nat) (values : TInspection) :
    Stores :=
  { s with
    loas := s.loas ++ [⟨decisionId, values⟩] }

/-! ## The process -/

/-- What the process does after it has handled a decision: the rest of the
loop of `_drain_outbox`, or of `_tick`. -/
inductive Cont where
  | drain (rows : List OutboxRow)
  | tick (records : List Decision)

/-- Why `send_record` marks a decision as sent without sending it. -/
inductive Shortcut where
  | dustNotFound
  | skippedEventId
deriving DecidableEq, Repr

/-- The operation that the process awaits. -/
inductive Pc where
  | down
  /-- `iter_pending` in `_drain_outbox`. -/
  | listOutbox
  /-- Between two ticks. -/
  | idle
  | fetchPending
  | fetchDust (dustId : Nat) (rec : Decision) (rest : List Decision)
  /-- The `mark_sent` of a shortcut. -/
  | skip (why : Shortcut) (rec : Decision) (rest : List Decision)
  | add (rec : Decision) (values : TInspection) (rest : List Decision)
  | write (decisionId : Nat) (values : TInspection) (k : Cont)
  | bump (decisionId : Nat) (k : Cont)
  | remove (decisionId : Nat) (k : Cont)
  | mark (decisionId : Nat) (k : Cont)

/-- Go on with the next decision of the loop. -/
def Cont.next : Cont → Pc
  | .drain [] => .idle
  | .drain (row :: rest) => .write row.decisionId row.payload (.drain rest)
  | .tick [] => .idle
  | .tick (rec :: rest) =>
    match rec.dustId with
    | none => .skip .dustNotFound rec rest
    | some dustId => .fetchDust dustId rec rest

/-- An exception leaves the loop.  The poller catches it, and nothing does
while the outbox is drained. -/
def Cont.abort : Cont → Pc
  | .drain _ => .down
  | .tick _ => .idle

/-- `send_record` once the measurement was looked up. -/
def sendRecord (S : Sender) (dust : Option DustInspection) (rec : Decision)
    (rest : List Decision) : Pc :=
  match dust with
  | none => .skip .dustNotFound rec rest
  | some dust =>
    let values := buildRow S rec dust
    if S.allows values.eventId then .add rec values rest
    else .skip .skippedEventId rec rest

namespace Pc

/-- What the awaited operation does to the stores. -/
def effect (S : Sender) (pc : Pc) (now : Timestamp) (s : Stores) : Stores :=
  match pc with
  | .skip _ rec _ => { s with db := markSent s.db rec.id now }
  | .add rec values _ => s.addOutbox rec.id 0 (jsonRow S values)
  | .write decisionId values _ => s.commitRow decisionId values
  | .bump decisionId _ => s.bumpAttempts decisionId
  | .remove decisionId _ => s.removeOutbox decisionId
  | .mark decisionId _ => { s with db := markSent s.db decisionId now }
  | _ => s

/-- Where the process goes on when the operation returns.  After a failed
send both loops end (`break`). -/
def resume (S : Sender) (s : Stores) : Pc → Pc
  | .down => .down
  | .idle => .idle
  | .listOutbox => (Cont.drain s.outbox.rows).next
  | .fetchPending => (Cont.tick (Egress.fetchPending s.db S.batchSize)).next
  | .fetchDust dustId rec rest =>
    sendRecord S (s.gw.dustInspection.find? dustId) rec rest
  | .skip _ _ rest => (Cont.tick rest).next
  | .add rec values rest => .write rec.id values (.tick rest)
  | .write decisionId _ k => .remove decisionId k
  | .bump _ _ => .idle
  | .remove decisionId k => .mark decisionId k
  | .mark _ k => k.next

/-- Where the process goes on when the operation raises.  `_write` catches
what the sink raises. -/
def raised : Pc → Pc
  | .down | .listOutbox => .down
  | .write decisionId _ k => .bump decisionId k
  | .bump _ k | .remove _ k | .mark _ k => k.abort
  | .idle | .fetchPending | .fetchDust _ _ _ | .skip _ _ _ | .add _ _ _ => .idle

end Pc

/-- What happens to the process. -/
inductive ProcessEvent where
  /-- The process starts and drains its outbox. -/
  | boot
  /-- The interval of the poller has passed. -/
  | poll
  /-- The stop event, seen between two ticks. -/
  | stop
  /-- The awaited operation ends. -/
  | reply (o : Outcome) (now : Timestamp)
  /-- `sink.write` returns `False`. -/
  | refuse
  /-- The process is killed.  The operation in flight is applied or not. -/
  | crash (applied : Bool) (now : Timestamp)

/-- The process and the stores after the event. -/
def processStep (S : Sender) (pc : Pc) (s : Stores) :
    ProcessEvent → Pc × Stores
  | .boot =>
    match pc with
    | .down => (.listOutbox, s)
    | _ => (pc, s)
  | .poll =>
    match pc with
    | .idle => (.fetchPending, s)
    | _ => (pc, s)
  | .stop =>
    match pc with
    | .idle => (.down, s)
    | _ => (pc, s)
  | .refuse =>
    match pc with
    | .write decisionId _ k => (.bump decisionId k, s)
    | _ => (pc, s)
  | .reply o now =>
    match o.exc? with
    | none => (pc.resume S s, pc.effect S now s)
    | some _ => (pc.raised, o.settle s (pc.effect S now s))
  | .crash applied now => (.down, if applied then pc.effect S now s else s)

end DustMonitoring.Egress
