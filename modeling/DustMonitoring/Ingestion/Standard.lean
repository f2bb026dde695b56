import DustMonitoring.AdminUi.Stations
import DustMonitoring.Ingestion.VideoMessages
import DustMonitoring.Lib.Server
import DustMonitoring.Lib.Uuid

/-!
# The gateway in standard mode

`_run_standard` of `main.py`: `dispatch` hands a message of a connection to the
handler of its type, and the handlers call the repositories.  A handler is a
`Handler` whose calls are the statements of the repositories and the thread that
saves a file, and the connections are the workers of a `Service`.  Between the
calls anything can happen in the tables: other connections, the admin UI, the
cleaner.

An answer of the database may get lost after the statement took effect.  What a
driver refuses to send is a `ValueError`; what the database refuses is not.
-/

namespace DustMonitoring.Ingestion.Standard

open DustMonitoring.Lib DustMonitoring.GwProto DustMonitoring.AdminUi

/-! ## Exceptions -/

/-- An exception, by what the handlers tell apart. -/
inductive Exc where
  | key (name : String)
  | value (text : String)
  | type (text : String)
  | other (text : String)
deriving DecidableEq, Repr

/-- `str(exc)`. -/
def Exc.text : Exc → String
  | key name => s!"'{name}'"
  | value text | type text | other text => text

/-- `except (KeyError, ValueError, TypeError)`. -/
def Exc.isBadPayload : Exc → Bool
  | key _ | value _ | type _ => true
  | other _ => false

/-! ## The repositories -/

/-- The arguments of `SensorRepository.insert`. -/
structure SampleInsert where
  stationId : String
  measurementType : String
  value : Double
  unit : String
  sampledAt : Int
deriving DecidableEq, Repr

/-- The arguments of `VideoRepository.insert`, as they are sent. -/
structure VideoInsert where
  videoId : Nat
  stationId : String
  filePath : String
  capturedAt : Option Int
  amrId : Option String
  amrPosition : Json
  sourceFormat : Option String

/-- What a handler awaits. -/
inductive Call where
  | lookupByName (stationName : String)
  | upsert (stationName : String)
  | insertLog (entry : LogEntry)
  | insertSample (row : SampleInsert)
  /-- `_assemble_and_save` in its thread. -/
  | assembleAndSave (buf : Wire.Buffer)
  | insertVideo (row : VideoInsert)

/-- What the call returns. -/
def Call.Result : Call → Type
  | .lookupByName _ => Option String
  | .assembleAndSave _ => String
  | .upsert _ | .insertLog _ | .insertSample _ | .insertVideo _ => Unit

/-- How a call ends.  A `failed` one had no effect, a `lost` one had its effect
although it raises. -/
inductive Answer (β : Type) where
  | ok (result : β)
  | failed (exc : Exc)
  | lost (text : String)

/-- The call took effect. -/
def Answer.applied {β : Type} : Answer β → Bool
  | .ok _ | .lost _ => true
  | .failed _ => false

/-- A handler of the gateway; its state is `session.video_buffers`. -/
abbrev Task (α : Type) := Handler Call (fun k => Answer k.Result) Exc Wire.Buffers α

/-- The calls of a task, with their answers. -/
abbrev Trace := List (Exchange Call fun k => Answer k.Result)

/-- `await`. -/
def ask (k : Call) : Task k.Result := fun s => .call k fun
  | .ok result => .done (.ok result, s)
  | .failed exc => .done (.error exc, s)
  | .lost text => .done (.error (.other text), s)

/-- `StationRepository.lookup_by_name`. -/
def lookupByName (stationName : String) : Task (Option String) := ask (.lookupByName stationName)

/-- The statement of `StationRequestRepository.upsert`. -/
def upsertRequest (stationName : String) : Task Unit := ask (.upsert stationName)

/-- `StationRequestRepository.upsert`. -/
def upsert (stationName : String) : Task Unit :=
  if stationName = "" then pure () else upsertRequest stationName

/-- `IngestionLogRepository.insert`. -/
def insertLog (stationId : Option String) (messageType errorMessage : String) : Task Unit :=
  ask (.insertLog { stationId, messageType, errorMessage })

/-- `SensorRepository.insert`. -/
def insertSample (row : SampleInsert) : Task Unit := ask (.insertSample row)

def assembleAndSave (buf : Wire.Buffer) : Task String := ask (.assembleAndSave buf)

/-- `VideoRepository.insert`, behind its arguments. -/
def insertVideo (row : VideoInsert) : Task Unit := ask (.insertVideo row)

/-! ## What the handlers compute -/

/-- A reply to the sender. -/
inductive Response where
  | ack
  | error (reason : String)
deriving DecidableEq, Repr

/-- The libraries that the handlers use: `json` with `str`, `float(text)` with
the text of its `ValueError`, `datetime.fromisoformat`, the reading of bytes as
UTF-8 with `errors="replace"`, and the complaint of the driver about an argument
that is no text. -/
structure Gateway where
  json : JsonCodec
  floatOfStr : String → Except String Double
  fromIsoformat : String → Except String Int
  decodeReplace : List UInt8 → String
  dataError : Json → String

namespace Gateway

variable (g : Gateway)

/-- `str(value)`. -/
def str (value : Json) : Except Exc String :=
  match g.json.str value with
  | some text => .ok text
  | none => .error (.other Wire.recursionError)

/-- `float(value)`. -/
def float : Json → Except Exc Double
  | .bool b => .ok (.finite (if b then 1 else 0))
  | .int n =>
    match Double.ofInt n with
    | some d => .ok d
    | none => .error (.other "int too large to convert to float")
  | .float d => .ok d
  | .str text =>
    match g.floatOfStr text with
    | .ok d => .ok d
    | .error exc => .error (.value exc)
  | value =>
    let type := value.typeName
    .error (.type s!"float() argument must be a string or a real number, not '{type}'")

/-- `datetime.fromisoformat(str(value).replace("Z", "+00:00"))`. -/
def datetime (value : Json) : Except Exc Int := do
  let text ← g.str value
  match g.fromIsoformat (text.replace "Z" "+00:00") with
  | .ok t => .ok t
  | .error exc => .error (.value exc)

/-- `_parse_iso`. -/
def parseIso (value : Json) : Except Exc (Option Int) :=
  if !value.truthy then .ok none
  else
    match g.datetime value with
    | .ok t => .ok (some t)
    | .error (.value _) => .ok none
    | .error exc => .error exc

/-- An argument for a text column. -/
def textArg : Json → Except Exc (Option String)
  | .null => .ok none
  | .str text => .ok (some text)
  | value => .error (.value (g.dataError value))

/-- `data[name]`. -/
def item (data : List (String × Json)) (name : String) : Except Exc Json :=
  match data.lookup name with
  | some value => .ok value
  | none => .error (.key name)

/-- The value as a key of a dictionary. -/
def hashed (value : Json) : Except Exc Json.Key :=
  match value.key? with
  | some key => .ok key
  | none => .error (.type value.unhashable)

theorem hashed_eq_ok {value : Json} {key : Json.Key} :
    hashed value = .ok key ↔ value.key? = some key := by
  unfold hashed
  cases value.key? <;> simp

/-- The arguments of the insert in `SensorHandler.handle`, in the order in which
they are read. -/
def sampleOf (stationId : String) (data : List (String × Json)) : Except Exc SampleInsert := do
  let sampledAt ← g.datetime (← item data "sampled_at")
  let measurementType ← g.str (← item data "measurement_type")
  let value ← g.float (← item data "value")
  let unit ← g.str (← item data "unit")
  return { stationId, measurementType, value, unit, sampledAt }

/-- The arguments of the insert in `handle_complete`. -/
def videoOf (buf : Wire.Buffer) (filePath : String) (capturedAt : Option Int) :
    Except Exc VideoInsert := do
  let text ← g.str buf.videoId
  match parseUuid text with
  | none => .error (.value "badly formed hexadecimal UUID string")
  | some videoId =>
    let amrId ← g.textArg buf.amrId
    let sourceFormat ← g.textArg buf.sourceFormat
    let stationId := buf.stationId
    let amrPosition := buf.amrPosition
    return { videoId, stationId, filePath, capturedAt, amrId, amrPosition, sourceFormat }

end Gateway

/-- The key as a number. -/
def number? : Json.Key → Option Rat
  | .number q => some q
  | _ => none

/-- What `_assemble_and_save` writes for a buffer whose chunks have numbers. -/
def assembled (buf : Wire.Buffer) : Option (List UInt8) :=
  if buf.chunks.rows.all fun chunk => (number? chunk.1).isSome then
    let sorted := orderBy (fun chunk => (number? chunk.1).getD 0) buf.chunks.rows
    some (sorted.flatMap Prod.snd)
  else none

/-! ## The handlers -/

/-- The answer to a station that is not there. -/
def unknownStation (messageType stationName : String) : Task Response := do
  upsert stationName
  insertLog none messageType s!"Unknown or inactive station: {stationName}"
  return .error s!"Unknown station: {stationName}"

/-- The `except` of `SensorHandler.handle`. -/
def badPayload (stationId : String) (exc : Exc) : Task Response :=
  if exc.isBadPayload then do
    let text := exc.text
    insertLog (some stationId) "SENSOR_SAMPLE" s!"Bad payload: {text}"
    return .error s!"Bad sensor payload: {text}"
  else throw exc

/-- The end of `SensorHandler.handle`, which has the station. -/
def storeSample (g : Gateway) (stationId : String) (data : List (String × Json)) :
    Task Response :=
  tryCatch
    (do
      let row ← Handler.ofExcept (g.sampleOf stationId data)
      insertSample row
      return .ack)
    (badPayload stationId)

/-- `SensorHandler.handle`. -/
def handleSample (g : Gateway) (message : GwProto.Message) : Task Response :=
  match message.metadata with
  | .obj data =>
    let value := Json.get data "station_name"
    if !value.truthy then do
      insertLog none "SENSOR_SAMPLE" "Missing station_name"
      return .error "Missing station_name"
    else do
      let stationName ← Handler.ofExcept (g.str value)
      let stationId ← lookupByName stationName
      match stationId with
      | none => unknownStation "SENSOR_SAMPLE" stationName
      | some stationId => storeSample g stationId data
  | _ => do
    insertLog none "SENSOR_SAMPLE" "Invalid payload (no metadata)"
    return .error "Invalid sensor payload"

/-- The answer to a chunk that `parse_video_chunk` refuses. -/
def malformedChunk (exc : String) : Task Response := do
  insertLog none "VIDEO_CHUNK" s!"Malformed chunk: {exc}"
  return .error s!"Malformed video chunk: {exc}"

/-- `buf.chunks[seq] = body`. -/
def storeChunk (key : Json.Key) (buf : Wire.Buffer) (chunkSeq : Json) (body : List UInt8) :
    Task Response := do
  let seq ← Handler.ofExcept (Gateway.hashed chunkSeq)
  modify fun buffers => buffers.upsert (key, buf.add seq body)
  return .ack

/-- `VideoHandler.handle_chunk`. -/
def handleChunk (g : Gateway) (message : GwProto.Message) : Task Response :=
  match parseVideoChunk g.json message.payload with
  | .error (.value exc) => malformedChunk exc
  | .error (.key name) => malformedChunk s!"'{name}'"
  | .error (.attribute exc) | .error (.recursion exc) => throw (.other exc)
  | .ok (chunkMeta, body) => do
    let key ← Handler.ofExcept (Gateway.hashed chunkMeta.videoId)
    let buffers ← get
    match buffers.find? key with
    | some (_, buf) => storeChunk key buf chunkMeta.chunkSeq body
    | none => do
      let stationId ← lookupByName chunkMeta.stationName
      match stationId with
      | none => unknownStation "VIDEO_CHUNK" chunkMeta.stationName
      | some stationId => do
        let buf := Wire.Buffer.ofMeta chunkMeta stationId
        modify fun buffers => buffers.insert (key, buf)
        storeChunk key buf chunkMeta.chunkSeq body

/-- `session.video_buffers.pop(video_id, None)`. -/
def pop (key : Json.Key) : Task Unit :=
  modify fun buffers => buffers.deleteWhere fun row => decide (row.1 = key)

/-- What stands in the `try` of `handle_complete`. -/
def saveVideo (g : Gateway) (buf : Wire.Buffer) : Task Unit := do
  let filePath ← assembleAndSave buf
  let capturedAt ← Handler.ofExcept (g.parseIso buf.capturedAt)
  let row ← Handler.ofExcept (g.videoOf buf filePath capturedAt)
  insertVideo row

/-- The `except` of `handle_complete`. -/
def saveFailed (key : Json.Key) (buf : Wire.Buffer) (exc : Exc) : Task Response := do
  let text := exc.text
  insertLog (some buf.stationId) "VIDEO_COMPLETE" s!"Save failed: {text}"
  pop key
  return .error s!"Video save failed: {text}"

/-- The end of `handle_complete`, which has a complete buffer. -/
def completeVideo (g : Gateway) (key : Json.Key) (buf : Wire.Buffer) : Task Response :=
  tryCatch
    (do
      saveVideo g buf
      pop key
      return .ack)
    (saveFailed key buf)

/-- `VideoHandler.handle_complete`. -/
def handleComplete (g : Gateway) (message : GwProto.Message) : Task Response :=
  match message.metadata with
  | .obj fields =>
    let videoId := Json.get fields "video_id"
    if !videoId.truthy then return .error "Missing video_id in VIDEO_COMPLETE"
    else do
      let key ← Handler.ofExcept (Gateway.hashed videoId)
      let buffers ← get
      match buffers.find? key with
      | none => do
        let text ← Handler.ofExcept (g.str videoId)
        insertLog none "VIDEO_COMPLETE" s!"No chunks buffered for video_id={text}"
        return .error s!"No buffered video: {text}"
      | some (_, buf) =>
        if buf.isComplete then completeVideo g key buf
        else do
          let total ← Handler.ofExcept (g.str buf.totalChunks)
          let received := buf.receivedCount
          insertLog (some buf.stationId) "VIDEO_COMPLETE" s!"Incomplete: received {received}/{total}"
          return .error s!"Incomplete: {received}/{total} chunks"
  | _ => return .error "Invalid VIDEO_COMPLETE payload"

/-- `ControlHandler.handle_error`. -/
def handleError (g : Gateway) (message : GwProto.Message) : Task Unit :=
  match message.metadata with
  | .obj (field :: fields) => do
    let reason ← Handler.ofExcept (g.str (((field :: fields).lookup "error").getD (.str "")))
    insertLog none "ERROR" reason
  | _ => insertLog none "ERROR" (g.decodeReplace message.payload)

/-- `f"{n:04X}"`. -/
def hex4 (n : Nat) : String :=
  let digits := (Nat.toDigits 16 n).map Char.toUpper
  String.ofList (List.replicate (4 - digits.length) '0' ++ digits)

/-- `dispatch`.  An `ACK` and an `ERROR` have no reply. -/
def dispatch (g : Gateway) (message : GwProto.Message) : Task (Option Response) :=
  match message.msgType with
  | .videoChunk => do
    let response ← handleChunk g message
    return some response
  | .videoComplete => do
    let response ← handleComplete g message
    return some response
  | .sensorSample => do
    let response ← handleSample g message
    return some response
  | .heartbeat => return some .ack
  | .error => do
    handleError g message
    return none
  | .ack => return none
  | .analysisResult | .alert => do
    let code := hex4 message.msgType.value
    return some (.error s!"Unhandled type: 0x{code}")

/-! ## The tables -/

/-- A row of `station`; what only the admin UI reads is left out. -/
structure Station where
  stationId : String
  stationName : String
  status : String
deriving DecidableEq, Repr

/-- A row of `station_request`; its times and notes are left out. -/
structure StationRequest where
  stationName : String
  attempts : Nat := 1
  status : RequestStatus := .pending
deriving DecidableEq, Repr

/-- A row of `sensor_sample`. -/
structure Sample extends SampleInsert where
  id : Nat
deriving DecidableEq, Repr

/-- A row of `ingestion_log`. -/
structure LogRow extends LogEntry where
  id : Nat
deriving DecidableEq, Repr

/-- The tables that the gateway writes to. -/
structure Db where
  station : Table Station.stationId := Table.empty
  stationRequest : Table StationRequest.stationName := Table.empty
  sensorSample : SerialTable Sample.id := SerialTable.empty
  video : Table VideoInsert.videoId := Table.empty
  ingestionLog : SerialTable LogRow.id := SerialTable.empty

namespace Db

/-- The ids that the query of `lookup_by_name` selects. -/
def lookups (db : Db) (stationName : String) : List String :=
  (db.station.rows.filter fun r =>
    decide (r.stationName = stationName ∧ r.status ≠ "inactive")).map Station.stationId

/-- The `INSERT .. ON CONFLICT` of `StationRequestRepository.upsert`. -/
def upsertRequest (db : Db) (stationName : String) : Db :=
  { db with
    stationRequest :=
      if (db.stationRequest.find? stationName).isSome then
        db.stationRequest.updateWhere (fun r => decide (r.stationName = stationName))
          (fun r => { r with attempts := r.attempts + 1 }) fun _ => rfl
      else db.stationRequest.insert { stationName } }

/-- `REFERENCES station(station_id)`. -/
def hasStation (db : Db) (stationId : String) : Bool := (db.station.find? stationId).isSome

end Db

/-- What a call meets: which of the rows a query finds first, where the file is
saved, and how the connection to the database behaves. -/
structure Circumstance where
  scan : Nat := 0
  filePath : String := ""
  answer : Answer Unit := .ok ()

/-- The answer with the result. -/
def Answer.map {β γ : Type} (f : β → γ) : Answer β → Answer γ
  | .ok b => .ok (f b)
  | .failed exc => .failed exc
  | .lost text => .lost text

/-- The answer to a statement that a constraint refuses. -/
def Circumstance.refused (c : Circumstance) (text : String) : Answer Unit :=
  match c.answer with
  | .failed exc => .failed exc
  | .ok _ | .lost _ => .failed (.other text)

/-- An insert that the database takes unless a constraint refuses it. -/
def Circumstance.write (c : Circumstance) (db after : Db) (violated : Option String) :
    Db × Answer Unit :=
  match violated with
  | some text => (db, c.refused text)
  | none => (if c.answer.applied then after else db, c.answer)

namespace Db

/-- The constraint of `sensor_sample` that the row violates. -/
def sampleViolation (db : Db) (row : SampleInsert) : Option String :=
  if db.hasStation row.stationId then none
  else some "insert or update on table \"sensor_sample\" violates foreign key constraint"

/-- The constraint of `video` that the row violates. -/
def videoViolation (db : Db) (row : VideoInsert) : Option String :=
  if (db.video.find? row.videoId).isSome then
    some "duplicate key value violates unique constraint \"video_pkey\""
  else if db.hasStation row.stationId then none
  else some "insert or update on table \"video\" violates foreign key constraint"

/-- The tables after the call, and its answer. -/
def perform (db : Db) (c : Circumstance) : (k : Call) → Db × Answer k.Result
  | .lookupByName stationName =>
    let found := db.lookups stationName
    (db, c.answer.map fun _ => found[c.scan % found.length]?)
  | .upsert stationName => c.write db (db.upsertRequest stationName) none
  | .insertLog entry =>
    c.write db
      { db with ingestionLog := db.ingestionLog.append (fun id => { entry with id }) fun _ => rfl }
      none
  | .insertSample row =>
    c.write db
      { db with sensorSample := db.sensorSample.append (fun id => { row with id }) fun _ => rfl }
      (db.sampleViolation row)
  | .assembleAndSave _ => (db, c.answer.map fun _ => c.filePath)
  | .insertVideo row =>
    c.write db { db with video := db.video.insert row } (db.videoViolation row)

end Db

/-! ## The system -/

/-- What the admin UI and the cleaner do to the tables.  A new station has an id
that was drawn at random. -/
inductive Write where
  | createStation (row : Station)
  | patchStation (stationId stationName status : String)
  | deleteStation (stationId : String)
  /-- Approved, rejected or restored. -/
  | setRequest (stationName : String) (status : RequestStatus)
  | deleteSamples (p : Sample → Bool)
  | deleteVideos (p : VideoInsert → Bool)
  | deleteLogs (p : LogRow → Bool)

/-- A sample or a video refers to the station. -/
def Db.isReferenced (db : Db) (stationId : String) : Bool :=
  db.sensorSample.rows.any (fun r => decide (r.stationId = stationId)) ||
    db.video.rows.any fun r => decide (r.stationId = stationId)

def Db.write (db : Db) : Write → Db
  | .createStation row => { db with station := db.station.insert row }
  | .patchStation stationId stationName status =>
    { db with
      station := db.station.updateWhere (fun r => decide (r.stationId = stationId))
        (fun r => { r with stationName, status }) fun _ => rfl }
  | .deleteStation stationId =>
    if db.isReferenced stationId then db
    else
      { db with station := db.station.deleteWhere fun r => decide (r.stationId = stationId) }
  | .setRequest stationName status =>
    { db with
      stationRequest :=
        db.stationRequest.updateWhere (fun r => decide (r.stationName = stationName))
          (fun r => { r with status }) fun _ => rfl }
  | .deleteSamples p => { db with sensorSample := db.sensorSample.deleteWhere p }
  | .deleteVideos p => { db with video := db.video.deleteWhere p }
  | .deleteLogs p => { db with ingestionLog := db.ingestionLog.deleteWhere p }

/-- The gateway as a service. -/
def service (g : Gateway) :
    Service GwProto.Message Call (fun k => Answer k.Result) Exc Wire.Buffers (Option Response) where
  handle := dispatch g
  initial := Table.empty

/-- The connections by their session ids. -/
abbrev Connections :=
  Workers Nat GwProto.Message Call (fun k => Answer k.Result) Exc Wire.Buffers (Option Response)

/-- A message that was handled. -/
abbrev Handled :=
  Receipt Nat GwProto.Message Call (fun k => Answer k.Result) Exc Wire.Buffers (Option Response)

structure System where
  db : Db := {}
  connections : Connections := Table.empty

/-- What happens next. -/
inductive Event where
  | connect (id : Nat)
  | frame (id : Nat) (msgType : MessageType) (payload : List UInt8)
  /-- The call that the connection waits for is answered. -/
  | answer (id : Nat) (c : Circumstance)
  /-- The connection is closed.  A call that it waits for may still have its
  effect. -/
  | close (id : Nat) (last : Option Circumstance)
  | write (w : Write)

/-- What the event is to the connections. -/
def serverEvents (g : Gateway) (s : System) :
    Event → List (ServerEvent Nat GwProto.Message Call fun k => Answer k.Result)
  | .connect id => [.open id]
  | .frame id msgType payload =>
    match decode g.json msgType payload with
    | .ok message => [.move id (.receive message)]
    | .error _ => [.move id (.close none)]
  | .answer id c => [.move id (.answer fun k => (s.db.perform c k).2)]
  | .close id last => [.move id (.close (last.map fun c k => (s.db.perform c k).2))]
  | .write _ => []

/-- The call that the connection waits for. -/
def System.pending (s : System) (id : Nat) : Option Call :=
  match s.connections.find? id with
  | some ⟨_, _, .busy _ _ k _⟩ => some k
  | _ => none

/-- The tables after the pending call of the connection. -/
def System.performed (s : System) (id : Nat) (c : Circumstance) : Db :=
  match s.pending id with
  | some k => (s.db.perform c k).1
  | none => s.db

def dbAfter (s : System) : Event → Db
  | .answer id c | .close id (some c) => s.performed id c
  | .connect _ | .frame _ _ _ | .close _ none => s.db
  | .write w => s.db.write w

def step (g : Gateway) (s : System) (e : Event) : System where
  db := dbAfter s e
  connections := run (service g).step s.connections (serverEvents g s e)

end DustMonitoring.Ingestion.Standard
