import DustMonitoring.Lib.Json
import DustMonitoring.Lib.Query
import DustMonitoring.Lib.Table

/-!
# Video uploads of the ingestion gateway

`handler/video_handler.py` with `session.py` of the gateway's standard
protocol.  A sender splits a video into numbered chunks; the session keeps
them in a buffer for each video id until `VIDEO_COMPLETE` arrives, and then
the chunks are written to one file in the order of their numbers.

A call of a handler gives the session afterwards, the reply, and its
`Effects` on the disk and the database.
-/

namespace DustMonitoring.Ingestion

open Lib

/-! ## Messages -/

/-- `VideoChunkMeta`. -/
structure VideoChunkMeta where
  videoId : String
  chunkSeq : Int
  totalChunks : Int
  stationName : String
  capturedAt : Option String := none
  amrId : Option String := none
  amrPosition : Json := .null
  sourceFormat : Option String := none

/-- A `VIDEO_CHUNK`, as far as `parse_video_chunk` makes sense of it. -/
inductive ChunkPayload
  | malformed (exc : String)
  | chunk (chunkMeta : VideoChunkMeta) (body : List UInt8)

/-- The reply to a message.  The exception that escapes a handler ends the
connection without one. -/
inductive Reply
  | ack
  | error (reason : String)
  | raised (exc : String)
deriving DecidableEq, Repr

/-! ## The session -/

/-- `VideoBuffer`. -/
structure VideoBuffer where
  videoId : String
  stationName : String
  stationId : String
  totalChunks : Int
  capturedAt : Option String
  amrId : Option String
  amrPosition : Json
  sourceFormat : Option String
  /-- Bodies by their sequence number. -/
  chunks : Table (Prod.fst : Int × List UInt8 → Int) := Table.empty
  totalSize : Nat := 0

namespace VideoBuffer

/-- The buffer that the first chunk of a video opens. -/
def ofMeta (chunkMeta : VideoChunkMeta) (stationId : String) : VideoBuffer :=
  { videoId := chunkMeta.videoId
    stationName := chunkMeta.stationName
    stationId := stationId
    totalChunks := chunkMeta.totalChunks
    capturedAt := chunkMeta.capturedAt
    amrId := chunkMeta.amrId
    amrPosition := chunkMeta.amrPosition
    sourceFormat := chunkMeta.sourceFormat }

/-- `buf.chunks[seq] = body`, with the size that is only logged. -/
def add (buf : VideoBuffer) (seq : Int) (body : List UInt8) : VideoBuffer :=
  { buf with
    chunks := buf.chunks.upsert (seq, body)
    totalSize := buf.totalSize + body.length }

/-- `received_count`. -/
def receivedCount (buf : VideoBuffer) : Nat := buf.chunks.rows.length

/-- `is_complete`. -/
def isComplete (buf : VideoBuffer) : Bool :=
  decide ((buf.receivedCount : Int) = buf.totalChunks)

/-- What `_assemble_and_save` writes. -/
def assemble (buf : VideoBuffer) : List UInt8 :=
  (orderBy Prod.fst buf.chunks.rows).flatMap Prod.snd

end VideoBuffer

/-- `IngestionSession`, its buffers. -/
structure IngestionSession where
  videoBuffers : Table VideoBuffer.videoId := Table.empty

/-- `session.video_buffers[video_id] = buf`. -/
def IngestionSession.put (s : IngestionSession) (buf : VideoBuffer) :
    IngestionSession :=
  ⟨s.videoBuffers.upsert buf⟩

/-- `session.video_buffers.pop(video_id, None)`. -/
def IngestionSession.pop (s : IngestionSession) (videoId : String) :
    IngestionSession :=
  ⟨s.videoBuffers.deleteWhere fun buf => decide (buf.videoId = videoId)⟩

/-! ## The handlers -/

/-- One row of `ingestion_log`. -/
structure LogEntry where
  stationId : Option String
  messageType : String
  status : String := "error"
  errorMessage : String
deriving DecidableEq, Repr

/-- One row of `video`. -/
structure VideoRow where
  videoId : String
  stationId : String
  filePath : String
  capturedAt : Option Int
  amrId : Option String
  amrPosition : Json
  sourceFormat : Option String

/-- What a handler writes. -/
structure Effects where
  log? : Option LogEntry := none
  /-- The station asked for in `station_request`. -/
  stationRequest? : Option String := none
  /-- A file under its path. -/
  file? : Option (String × List UInt8) := none
  row? : Option VideoRow := none

/-- How saving a video ends. -/
inductive SaveOutcome
  | saved
  | fileFailed (exc : String)
  | insertFailed (exc : String)

/-- `VideoHandler`, with the reading of an ISO timestamp and the text of a
value in a message. -/
structure VideoHandler where
  storageRoot : String
  parseIso : String → Option Int
  text : Json → String

namespace VideoHandler

/-- `handle_chunk`.  `station?` is what `lookup_by_name` finds for the
station of the chunk. -/
def handleChunk (station? : Option String) (payload : ChunkPayload)
    (s : IngestionSession) : IngestionSession × Reply × Effects :=
  match payload with
  | .malformed exc =>
    (s, .error s!"Malformed video chunk: {exc}",
      { log? := some
          { stationId := none
            messageType := "VIDEO_CHUNK"
            errorMessage := s!"Malformed chunk: {exc}" } })
  | .chunk chunkMeta body =>
    match s.videoBuffers.find? chunkMeta.videoId with
    | some buf => (s.put (buf.add chunkMeta.chunkSeq body), .ack, {})
    | none =>
      let name := chunkMeta.stationName
      match station? with
      | none =>
        (s, .error s!"Unknown station: {name}",
          { stationRequest? := some name
            log? := some
              { stationId := none
                messageType := "VIDEO_CHUNK"
                errorMessage := s!"Unknown or inactive station: {name}" } })
      | some stationId =>
        let buf := VideoBuffer.ofMeta chunkMeta stationId
        (s.put (buf.add chunkMeta.chunkSeq body), .ack, {})

/-- The path of the file and the row of a video.  `pathlib` drops the empty
names and the dots of the text, which name the same file; an empty root is `/`
here, and the working directory there. -/
def rowOf (h : VideoHandler) (today : String) (buf : VideoBuffer) : VideoRow :=
  let root := h.storageRoot
  let stationId := buf.stationId
  let videoId := buf.videoId
  { videoId := videoId
    stationId := stationId
    filePath := s!"{root}/videos/{stationId}/{today}/{videoId}.bin"
    capturedAt := buf.capturedAt.bind h.parseIso
    amrId := buf.amrId
    amrPosition := buf.amrPosition
    sourceFormat := buf.sourceFormat }

/-- The part of `handle_complete` that has a complete buffer. -/
def saveVideo (h : VideoHandler) (today : String) (save : SaveOutcome)
    (buf : VideoBuffer) (s : IngestionSession) :
    IngestionSession × Reply × Effects :=
  let row := h.rowOf today buf
  let failed (exc : String) : LogEntry :=
    { stationId := some buf.stationId
      messageType := "VIDEO_COMPLETE"
      errorMessage := s!"Save failed: {exc}" }
  match save with
  | .saved =>
    (s.pop buf.videoId, .ack,
      { file? := some (row.filePath, buf.assemble), row? := some row })
  | .fileFailed exc =>
    (s.pop buf.videoId, .error s!"Video save failed: {exc}",
      { log? := some (failed exc) })
  | .insertFailed exc =>
    (s.pop buf.videoId, .error s!"Video save failed: {exc}",
      { log? := some (failed exc)
        file? := some (row.filePath, buf.assemble) })

/-- The reply for an id that has no buffer. -/
def noBuffer (videoId : String) (s : IngestionSession) :
    IngestionSession × Reply × Effects :=
  (s, .error s!"No buffered video: {videoId}",
    { log? := some
        { stationId := none
          messageType := "VIDEO_COMPLETE"
          errorMessage := s!"No chunks buffered for video_id={videoId}" } })

/-- `handle_complete` once there is a video id. -/
def completeVideo (h : VideoHandler) (today : String) (save : SaveOutcome)
    (videoId : String) (s : IngestionSession) :
    IngestionSession × Reply × Effects :=
  match s.videoBuffers.find? videoId with
  | none => noBuffer videoId s
  | some buf =>
    if buf.isComplete then h.saveVideo today save buf s
    else
      let received := buf.receivedCount
      let total := buf.totalChunks
      (s, .error s!"Incomplete: {received}/{total} chunks",
        { log? := some
            { stationId := some buf.stationId
              messageType := "VIDEO_COMPLETE"
              errorMessage := s!"Incomplete: received {received}/{total}" } })

/-- `handle_complete`.  Of the metadata it reads the video id; a list or an
object in its place is not a key of the buffers and raises. -/
def handleComplete (h : VideoHandler) (today : String) (save : SaveOutcome)
    (metadata : Json) (s : IngestionSession) :
    IngestionSession × Reply × Effects :=
  match metadata with
  | .obj fields =>
    match Json.get fields "video_id" with
    | .str videoId =>
      if videoId = "" then (s, .error "Missing video_id in VIDEO_COMPLETE", {})
      else h.completeVideo today save videoId s
    | .arr (_ :: _) => (s, .raised "unhashable type: 'list'", {})
    | .obj (_ :: _) => (s, .raised "unhashable type: 'dict'", {})
    | other =>
      -- The keys of the buffers are texts.
      if other.truthy then noBuffer (h.text other) s
      else (s, .error "Missing video_id in VIDEO_COMPLETE", {})
  | _ => (s, .error "Invalid VIDEO_COMPLETE payload", {})

end VideoHandler

end DustMonitoring.Ingestion
