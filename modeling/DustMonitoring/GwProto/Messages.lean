import DustMonitoring.GwProto.Framing
import DustMonitoring.Lib.Json
import DustMonitoring.Lib.Text

/-!
# Messages and their payloads

`messages.py` and `codec/standard.py`.  The payload of a `VIDEO_CHUNK` is a
JSON object on a line of its own and the body of the chunk behind it;
`parse_video_chunk` and `StandardCodec.decode` both take it apart.  The JSON
library is a parameter.

* `parse_build_video_chunk`: what `build_video_chunk_payload` puts together
  both of them take apart again, whatever the body has in it.
-/

namespace DustMonitoring.GwProto

open Lib

/-! ## The JSON library -/

/-- What `json.loads` raises.  All but the last are subclasses of
`ValueError`. -/
inductive LoadsError where
  | jsonDecode (exc : String)
  | unicodeDecode (exc : String)
  /-- A number of too many digits. -/
  | digits (exc : String)
  /-- Too many values inside of each other. -/
  | recursion (exc : String)
deriving DecidableEq, Repr

/-- `json.dumps(value).encode()`, `json.loads`, and `str` of a decoded value
that is no text.  `nested` gives nothing where values are nested too deep. -/
structure JsonCodec where
  dumps : Json → List UInt8
  loads : List UInt8 → Except LoadsError Json
  scalar : Json → String
  nested : Json → Option String

/-- `str(value)`. -/
def JsonCodec.str (c : JsonCodec) : Json → Option String
  | .str text => some text
  | .arr items => c.nested (.arr items)
  | .obj fields => c.nested (.obj fields)
  | value => some (c.scalar value)

/-! ## Video chunks -/

/-- `VideoChunkMeta`.  What comes from the sender has any type; `null` is
`None`. -/
structure VideoChunkMeta where
  videoId : Json
  chunkSeq : Json
  totalChunks : Json
  stationName : String
  capturedAt : Json := .null
  amrId : Json := .null
  amrPosition : Json := .null
  sourceFormat : Json := .null

/-- What `parse_video_chunk` raises. -/
inductive ChunkError where
  | value (exc : String)
  | key (name : String)
  | attribute (exc : String)
  | recursion (exc : String)
deriving DecidableEq, Repr

/-- `ord("\n")`. -/
def newline : UInt8 := 10

/-- What stands before the first newline, and what behind it. -/
def splitLine : List UInt8 → Option (List UInt8 × List UInt8)
  | [] => none
  | b :: bs =>
    if b = newline then some ([], bs)
    else (splitLine bs).map fun (line, rest) => (b :: line, rest)

/-- `data[name]`. -/
def field (data : List (String × Json)) (name : String) : Except ChunkError Json :=
  match data.lookup name with
  | some value => .ok value
  | none => .error (.key name)

/-- The error of `json.loads` in `parse_video_chunk`. -/
def LoadsError.inChunk : LoadsError → ChunkError
  | jsonDecode exc | unicodeDecode exc | digits exc => .value exc
  | recursion exc => .recursion exc

/-- The part of `parse_video_chunk` behind `json.loads`. -/
def readMeta (c : JsonCodec) : Json → Except ChunkError VideoChunkMeta
  | .obj data =>
    let name := Json.get data "station_name"
    if !name.truthy then .error (.key "station_name")
    else do
      let videoId ← field data "video_id"
      let chunkSeq ← field data "chunk_seq"
      let totalChunks ← field data "total_chunks"
      match c.str name with
      | none => .error (.recursion "maximum recursion depth exceeded")
      | some stationName =>
        .ok
          { videoId, chunkSeq, totalChunks, stationName
            capturedAt := Json.get data "captured_at"
            amrId := Json.get data "amr_id"
            amrPosition := Json.get data "amr_position"
            sourceFormat := Json.get data "source_format" }
  | other =>
    let type := other.typeName
    .error (.attribute s!"'{type}' object has no attribute 'get'")

/-- `parse_video_chunk`. -/
def parseVideoChunk (c : JsonCodec) (payload : List UInt8) :
    Except ChunkError (VideoChunkMeta × List UInt8) :=
  match splitLine payload with
  | none => .error (.value "subsection not found")
  | some (headerJson, binaryBody) =>
    match c.loads headerJson with
    | .error exc => .error exc.inChunk
    | .ok data => (readMeta c data).map fun chunkMeta => (chunkMeta, binaryBody)

/-- An entry that is written unless its value is `None`. -/
def optional (name : String) : Json → List (String × Json)
  | .null => []
  | value => [(name, value)]

/-- The header of `build_video_chunk_payload`. -/
def VideoChunkMeta.header (m : VideoChunkMeta) : Json :=
  .obj ([("video_id", m.videoId), ("chunk_seq", m.chunkSeq),
    ("total_chunks", m.totalChunks), ("station_name", .str m.stationName)] ++
    optional "captured_at" m.capturedAt ++ optional "amr_id" m.amrId ++
    optional "amr_position" m.amrPosition ++ optional "source_format" m.sourceFormat)

/-- `build_video_chunk_payload`. -/
def buildVideoChunkPayload (c : JsonCodec) (m : VideoChunkMeta) (binaryBody : List UInt8) :
    List UInt8 :=
  c.dumps m.header ++ newline :: binaryBody

/-! ## The codec -/

/-- `Message`.  A `metadata` of `null` is `None`. -/
structure Message where
  msgType : MessageType
  payload : List UInt8
  metadata : Json := .null

/-- The metadata of a message whose JSON text is there; only two kinds of
errors are passed over. -/
def loadMetadata (c : JsonCodec) (text : List UInt8) : Except LoadsError Json :=
  match c.loads text with
  | .ok metadata => .ok metadata
  | .error (.jsonDecode _) | .error (.unicodeDecode _) => .ok .null
  | .error exc => .error exc

/-- `StandardCodec.decode`. -/
def decode (c : JsonCodec) (msgType : MessageType) (payload : List UInt8) :
    Except LoadsError Message := do
  let metadata ←
    if msgType = .videoChunk then
      match splitLine payload with
      | none => .ok .null
      | some (headerJson, _) => loadMetadata c headerJson
    else if payload = [] then .ok .null
    else loadMetadata c payload
  return { msgType, payload, metadata }

theorem parseVideoChunk_of_split {c : JsonCodec} {payload header body : List UInt8}
    (h : splitLine payload = some (header, body)) :
    parseVideoChunk c payload = match c.loads header with
      | .error exc => .error exc.inChunk
      | .ok data => (readMeta c data).map fun chunkMeta => (chunkMeta, body) := by
  unfold parseVideoChunk
  rw [h]

theorem decode_videoChunk (c : JsonCodec) (payload : List UInt8) :
    decode c .videoChunk payload = match splitLine payload with
      | none => .ok ⟨.videoChunk, payload, .null⟩
      | some (header, _) =>
        (loadMetadata c header).map fun metadata => ⟨.videoChunk, payload, metadata⟩ := by
  unfold decode
  rw [if_pos rfl]
  cases splitLine payload with
  | none => rfl
  | some parts =>
    dsimp only
    cases loadMetadata c parts.1 <;> rfl

theorem decode_of_ne_videoChunk (c : JsonCodec) {msgType : MessageType}
    (h : msgType ≠ .videoChunk) (payload : List UInt8) :
    decode c msgType payload =
      if payload = [] then .ok ⟨msgType, payload, .null⟩
      else (loadMetadata c payload).map fun metadata => ⟨msgType, payload, metadata⟩ := by
  unfold decode
  rw [if_neg h]
  split
  · rfl
  · cases loadMetadata c payload <;> rfl

/-! ## Round trip -/

theorem splitLine_append {line : List UInt8} (h : newline ∉ line) (rest : List UInt8) :
    splitLine (line ++ newline :: rest) = some (line, rest) := by
  induction line with
  | nil => exact if_pos rfl
  | cons b bs ih =>
    rw [List.mem_cons, not_or] at h
    rw [List.cons_append, splitLine, if_neg (Ne.symm h.1), ih h.2]
    rfl

theorem get_cons_self (name : String) (value : Json) (rest : List (String × Json)) :
    Json.get ((name, value) :: rest) name = value := by
  rw [Json.get, List.lookup_cons_self]
  rfl

theorem get_cons_of_ne {name other : String} (h : name ≠ other) (value : Json)
    (rest : List (String × Json)) :
    Json.get ((other, value) :: rest) name = Json.get rest name := by
  have hne : (name == other) = false := beq_eq_false_iff_ne.mpr h
  simp only [Json.get, List.lookup_cons, hne]

theorem optional_eq_nil_or (name : String) (value : Json) :
    (value = .null ∧ optional name value = []) ∨ optional name value = [(name, value)] := by
  cases value with
  | null => exact Or.inl ⟨rfl, rfl⟩
  | _ => exact Or.inr rfl

theorem get_optional_self (name : String) (value : Json) {rest : List (String × Json)}
    (h : Json.get rest name = .null) :
    Json.get (optional name value ++ rest) name = value := by
  rcases optional_eq_nil_or name value with ⟨hvalue, hnil⟩ | hsome
  · rw [hnil, List.nil_append, h, hvalue]
  · rw [hsome, List.singleton_append, get_cons_self]

theorem get_optional_of_ne {name other : String} (h : name ≠ other) (value : Json)
    (rest : List (String × Json)) :
    Json.get (optional other value ++ rest) name = Json.get rest name := by
  rcases optional_eq_nil_or other value with ⟨-, hnil⟩ | hsome
  · rw [hnil, List.nil_append]
  · rw [hsome, List.singleton_append, get_cons_of_ne h]

/-- The entries behind the required ones. -/
def VideoChunkMeta.options (m : VideoChunkMeta) : List (String × Json) :=
  optional "captured_at" m.capturedAt ++ (optional "amr_id" m.amrId ++
    (optional "amr_position" m.amrPosition ++ (optional "source_format" m.sourceFormat ++ [])))

theorem header_eq (m : VideoChunkMeta) :
    m.header = .obj (("video_id", m.videoId) :: ("chunk_seq", m.chunkSeq) ::
      ("total_chunks", m.totalChunks) :: ("station_name", .str m.stationName) :: m.options) := by
  simp only [VideoChunkMeta.header, VideoChunkMeta.options, List.append_assoc,
    List.cons_append, List.nil_append, List.append_nil]

theorem get_options (m : VideoChunkMeta) :
    Json.get m.options "captured_at" = m.capturedAt ∧
      Json.get m.options "amr_id" = m.amrId ∧
      Json.get m.options "amr_position" = m.amrPosition ∧
      Json.get m.options "source_format" = m.sourceFormat := by
  have hnil (name : String) : Json.get [] name = .null := rfl
  unfold VideoChunkMeta.options
  refine ⟨?_, ?_, ?_, ?_⟩
  · apply get_optional_self
    rw [get_optional_of_ne (by decide), get_optional_of_ne (by decide),
      get_optional_of_ne (by decide), hnil]
  · rw [get_optional_of_ne (by decide)]
    apply get_optional_self
    rw [get_optional_of_ne (by decide), get_optional_of_ne (by decide), hnil]
  · rw [get_optional_of_ne (by decide), get_optional_of_ne (by decide)]
    apply get_optional_self
    rw [get_optional_of_ne (by decide), hnil]
  · rw [get_optional_of_ne (by decide), get_optional_of_ne (by decide),
      get_optional_of_ne (by decide)]
    exact get_optional_self _ _ (hnil _)

/-- The entries of a header. -/
def VideoChunkMeta.fields (m : VideoChunkMeta) : List (String × Json) :=
  ("video_id", m.videoId) :: ("chunk_seq", m.chunkSeq) ::
    ("total_chunks", m.totalChunks) :: ("station_name", .str m.stationName) :: m.options

theorem get_fields (m : VideoChunkMeta) {name : String}
    (h : name ∉ ["video_id", "chunk_seq", "total_chunks", "station_name"]) :
    Json.get m.fields name = Json.get m.options name := by
  simp only [List.mem_cons, List.not_mem_nil, or_false, not_or] at h
  unfold VideoChunkMeta.fields
  rw [get_cons_of_ne h.1, get_cons_of_ne h.2.1, get_cons_of_ne h.2.2.1,
    get_cons_of_ne h.2.2.2]

theorem lookup_fields (m : VideoChunkMeta) :
    m.fields.lookup "video_id" = some m.videoId ∧
      m.fields.lookup "chunk_seq" = some m.chunkSeq ∧
      m.fields.lookup "total_chunks" = some m.totalChunks ∧
      m.fields.lookup "station_name" = some (.str m.stationName) := by
  unfold VideoChunkMeta.fields
  simp [List.lookup_cons]

/-- The header of a chunk is read back. -/
theorem readMeta_header (c : JsonCodec) {m : VideoChunkMeta} (hname : m.stationName ≠ "") :
    readMeta c m.header = .ok m := by
  obtain ⟨hcaptured, hamr, hposition, hformat⟩ := get_options m
  obtain ⟨hvideo, hseq, htotal, hstation⟩ := lookup_fields m
  have hname' : Json.get m.fields "station_name" = .str m.stationName := by
    rw [Json.get, hstation]
    rfl
  have htruthy : (Json.str m.stationName).truthy = true := by
    simpa [Json.truthy] using hname
  rw [← get_fields m (by decide)] at hcaptured hamr hposition hformat
  have hheader : m.header = .obj m.fields := header_eq m
  rw [hheader, readMeta]
  simp only [hname', htruthy, Bool.not_true, Bool.false_eq_true, if_false, field, hvideo, hseq,
    htotal, JsonCodec.str, hcaptured, hamr, hposition, hformat]
  rfl

/-- Both parsers take apart what was put together, whatever the body has in
it. -/
theorem parse_build_video_chunk (c : JsonCodec) {m : VideoChunkMeta}
    (hname : m.stationName ≠ "") (hline : newline ∉ c.dumps m.header)
    (hloads : c.loads (c.dumps m.header) = .ok m.header) (body : List UInt8) :
    parseVideoChunk c (buildVideoChunkPayload c m body) = .ok (m, body) ∧
      decode c .videoChunk (buildVideoChunkPayload c m body) =
        .ok ⟨.videoChunk, buildVideoChunkPayload c m body, m.header⟩ := by
  have hsplit : splitLine (buildVideoChunkPayload c m body) =
      some (c.dumps m.header, body) := splitLine_append hline body
  constructor
  · unfold parseVideoChunk
    rw [hsplit]
    dsimp only
    rw [hloads]
    dsimp only
    rw [readMeta_header c hname]
    rfl
  · unfold decode loadMetadata
    rw [if_pos rfl, hsplit]
    dsimp only
    rw [hloads]
    rfl

/-- A chunk with one of the optional fields. -/
def sampleMeta : VideoChunkMeta :=
  { videoId := .str "v1", chunkSeq := .int 0, totalChunks := .int 2, stationName := "hall"
    amrId := .str "amr-7" }

/-- Its header as it is written. -/
def sampleText : List UInt8 :=
  encodeAscii ("\x7b\"video_id\": \"v1\", \"chunk_seq\": 0, \"total_chunks\": 2, " ++
    "\"station_name\": \"hall\", \"amr_id\": \"amr-7\"\x7d")

/-- The JSON library on that header. -/
def sampleCodec : JsonCodec :=
  { dumps := fun _ => sampleText
    loads := fun raw =>
      if raw = sampleText then .ok sampleMeta.header else .error (.jsonDecode "")
    scalar := fun _ => ""
    nested := fun _ => none }

theorem parse_build_video_chunk_sample :
    parseVideoChunk sampleCodec
        (buildVideoChunkPayload sampleCodec sampleMeta [0, newline, 123, 125]) =
      .ok (sampleMeta, [0, newline, 123, 125]) := by
  have hname : sampleMeta.stationName ≠ "" := by decide
  have hline : newline ∉ sampleCodec.dumps sampleMeta.header := by decide +kernel
  have hloads : sampleCodec.loads (sampleCodec.dumps sampleMeta.header) =
      .ok sampleMeta.header := by
    simp only [sampleCodec, if_true]
  exact (parse_build_video_chunk sampleCodec hname hline hloads _).1

end DustMonitoring.GwProto
