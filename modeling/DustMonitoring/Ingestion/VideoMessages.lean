import DustMonitoring.GwProto.Messages
import DustMonitoring.Ingestion.VideoHandler

/-!
# The video handlers on any payload

The messages of a video as they come off the wire, with whatever JSON values
the sender puts into the fields.  `Ingestion/VideoHandler.lean` has the
handlers for texts and numbers, this module has them for all values, with
the exceptions that a value of another type leads to.

Main results:

* `error_keeps_buffers` -- a chunk that is answered with an error leaves the
  buffers as they are;
* `chunk_answered_iff`, `complete_answered_iff` -- which payloads are
  answered at all;
* `handleChunk_typed` -- on texts and numbers the handler is the one of
  `Ingestion/VideoHandler.lean`.
-/

namespace DustMonitoring.Ingestion.Wire

open Lib GwProto

/-! ## The session -/

/-- `VideoBuffer`, with the values of the first chunk as they came. -/
structure Buffer where
  videoId : Json
  stationName : String
  stationId : String
  totalChunks : Json
  capturedAt : Json
  amrId : Json
  amrPosition : Json
  sourceFormat : Json
  /-- Bodies by their sequence number. -/
  chunks : Table (Prod.fst : Json.Key × List UInt8 → Json.Key) := Table.empty
  totalSize : Nat := 0

/-- `session.video_buffers`. -/
abbrev Buffers := Table (Prod.fst : Json.Key × Buffer → Json.Key)

namespace Buffer

/-- The buffer that the first chunk of a video opens. -/
def ofMeta (m : GwProto.VideoChunkMeta) (stationId : String) : Buffer :=
  { videoId := m.videoId
    stationName := m.stationName
    stationId := stationId
    totalChunks := m.totalChunks
    capturedAt := m.capturedAt
    amrId := m.amrId
    amrPosition := m.amrPosition
    sourceFormat := m.sourceFormat }

/-- `buf.chunks[seq] = body` and `buf.total_size += len(body)`. -/
def add (buf : Buffer) (seq : Json.Key) (body : List UInt8) : Buffer :=
  { buf with
    chunks := buf.chunks.upsert (seq, body)
    totalSize := buf.totalSize + body.length }

/-- `received_count`. -/
def receivedCount (buf : Buffer) : Nat := buf.chunks.rows.length

/-- `is_complete`: the number is equal to the value. -/
def isComplete (buf : Buffer) : Bool :=
  decide (buf.totalChunks.key? = some (.number buf.receivedCount))

end Buffer

/-! ## The handlers -/

/-- The end of `handle_chunk`, which has a buffer. -/
def storeChunk (s : Buffers) (key : Json.Key) (buf : Buffer) (chunkSeq : Json)
    (body : List UInt8) : Buffers × Reply × Effects :=
  match chunkSeq.key? with
  | none => (s, .raised chunkSeq.unhashable, {})
  | some seq => (s.upsert (key, buf.add seq body), .ack, {})

/-- The reply to a chunk that `parse_video_chunk` refuses. -/
def malformedChunk (s : Buffers) (exc : String) : Buffers × Reply × Effects :=
  (s, .error s!"Malformed video chunk: {exc}",
    { log? := some
        { stationId := none
          messageType := "VIDEO_CHUNK"
          errorMessage := s!"Malformed chunk: {exc}" } })

/-- The reply to a chunk for a station that is not there. -/
def unknownStation (s : Buffers) (name : String) : Buffers × Reply × Effects :=
  (s, .error s!"Unknown station: {name}",
    { stationRequest? := some name
      log? := some
        { stationId := none
          messageType := "VIDEO_CHUNK"
          errorMessage := s!"Unknown or inactive station: {name}" } })

/-- `handle_chunk`.  `lookup` is `lookup_by_name`. -/
def handleChunk (c : JsonCodec) (lookup : String → Option String) (payload : List UInt8)
    (s : Buffers) : Buffers × Reply × Effects :=
  match parseVideoChunk c payload with
  | .error (.value exc) => malformedChunk s exc
  | .error (.key name) => malformedChunk s s!"'{name}'"
  | .error (.attribute exc) | .error (.recursion exc) => (s, .raised exc, {})
  | .ok (m, body) =>
    match m.videoId.key? with
    | none => (s, .raised m.videoId.unhashable, {})
    | some key =>
      match s.find? key with
      | some (_, buf) => storeChunk s key buf m.chunkSeq body
      | none =>
        match lookup m.stationName with
        | none => unknownStation s m.stationName
        | some stationId =>
          let buf := Buffer.ofMeta m stationId
          storeChunk (s.insert (key, buf)) key buf m.chunkSeq body

/-- `RecursionError`. -/
def recursionError : String := "maximum recursion depth exceeded while getting the repr of an object"

/-- The part of `handle_complete` that has a complete buffer.  `save` is what
stands in its `try`. -/
def saveVideo (save : Buffer → Except String Unit) (s : Buffers) (key : Json.Key)
    (buf : Buffer) : Buffers × Reply × Effects :=
  let popped := s.deleteWhere fun row => decide (row.1 = key)
  match save buf with
  | .ok () => (popped, .ack, {})
  | .error exc =>
    (popped, .error s!"Video save failed: {exc}",
      { log? := some
          { stationId := some buf.stationId
            messageType := "VIDEO_COMPLETE"
            errorMessage := s!"Save failed: {exc}" } })

/-- The reply for an id that has no buffer. -/
def noBuffer (s : Buffers) (videoId : String) : Buffers × Reply × Effects :=
  (s, .error s!"No buffered video: {videoId}",
    { log? := some
        { stationId := none
          messageType := "VIDEO_COMPLETE"
          errorMessage := s!"No chunks buffered for video_id={videoId}" } })

/-- The reply for a video that has not all of its chunks. -/
def incomplete (c : JsonCodec) (s : Buffers) (buf : Buffer) : Buffers × Reply × Effects :=
  match c.str buf.totalChunks with
  | none => (s, .raised recursionError, {})
  | some total =>
    let received := buf.receivedCount
    (s, .error s!"Incomplete: {received}/{total} chunks",
      { log? := some
          { stationId := some buf.stationId
            messageType := "VIDEO_COMPLETE"
            errorMessage := s!"Incomplete: received {received}/{total}" } })

/-- `handle_complete`. -/
def handleComplete (c : JsonCodec) (save : Buffer → Except String Unit) (metadata : Json)
    (s : Buffers) : Buffers × Reply × Effects :=
  match metadata with
  | .obj fields =>
    let videoId := Json.get fields "video_id"
    if !videoId.truthy then (s, .error "Missing video_id in VIDEO_COMPLETE", {})
    else
      match videoId.key? with
      | none => (s, .raised videoId.unhashable, {})
      | some key =>
        match s.find? key with
        | none =>
          match c.str videoId with
          | none => (s, .raised recursionError, {})
          | some text => noBuffer s text
        | some (_, buf) =>
          if buf.isComplete then saveVideo save s key buf
          else incomplete c s buf
  | _ => (s, .error "Invalid VIDEO_COMPLETE payload", {})

/-! ## Messages off the wire -/

/-- The error text of `json.loads`. -/
def loadsExc : LoadsError → String
  | .jsonDecode exc | .unicodeDecode exc | .digits exc | .recursion exc => exc

/-- A `VIDEO_CHUNK` in the loop of a connection: it is decoded, and handed to
the handler. -/
def receiveChunk (c : JsonCodec) (lookup : String → Option String) (payload : List UInt8)
    (s : Buffers) : Buffers × Reply × Effects :=
  match decode c .videoChunk payload with
  | .error exc => (s, .raised (loadsExc exc), {})
  | .ok message => handleChunk c lookup message.payload s

/-- A `VIDEO_COMPLETE` in the loop of a connection. -/
def receiveComplete (c : JsonCodec) (save : Buffer → Except String Unit)
    (payload : List UInt8) (s : Buffers) : Buffers × Reply × Effects :=
  match decode c .videoComplete payload with
  | .error exc => (s, .raised (loadsExc exc), {})
  | .ok message => handleComplete c save message.metadata s

/-! ## What is answered -/

/-- The handler returns. -/
def Answered (r : Reply) : Prop := ∀ exc, r ≠ .raised exc

@[simp] theorem answered_ack : Answered .ack := fun _ => Reply.noConfusion

@[simp] theorem answered_error (reason : String) : Answered (.error reason) :=
  fun _ => Reply.noConfusion

@[simp] theorem not_answered_raised (exc : String) : ¬ Answered (.raised exc) :=
  fun h => h exc rfl

/-- The header of a chunk can be used: the text of the station can be taken,
the video id is a key, and so is the number of the chunk unless the chunk is
refused for its station.  A header that lacks one of the required fields is
refused before any of this counts. -/
def HeaderFits (c : JsonCodec) (lookup : String → Option String) (s : Buffers)
    (fields : List (String × Json)) : Prop :=
  (Json.get fields "station_name").truthy = true →
    ∀ videoId chunkSeq totalChunks, fields.lookup "video_id" = some videoId →
      fields.lookup "chunk_seq" = some chunkSeq →
      fields.lookup "total_chunks" = some totalChunks →
      ∃ name key, c.str (Json.get fields "station_name") = some name ∧
        videoId.key? = some key ∧
        (chunkSeq.key?.isSome = true ∨ s.find? key = none ∧ lookup name = none)

/-- The JSON text of a payload is refused as such, or it is an object that
can be used. -/
def TextFits (fits : List (String × Json) → Prop) (other : Prop) :
    Except LoadsError Json → Prop
  | .ok (.obj fields) => fits fields
  | .ok _ => other
  | .error (.jsonDecode _) | .error (.unicodeDecode _) => True
  | .error (.digits _) | .error (.recursion _) => False

/-- A chunk has no line for its header, or the header is an object that can
be used. -/
def ChunkFits (c : JsonCodec) (lookup : String → Option String) (s : Buffers)
    (payload : List UInt8) : Prop :=
  ∀ header body, splitLine payload = some (header, body) →
    TextFits (HeaderFits c lookup s) False (c.loads header)

/-- The video id is a key or counts as missing, and the number of chunks of
an incomplete video can be shown. -/
def IdFits (c : JsonCodec) (s : Buffers) (fields : List (String × Json)) : Prop :=
  (Json.get fields "video_id").truthy = true →
    ∃ key, (Json.get fields "video_id").key? = some key ∧
      ∀ row, s.find? key = some row → row.2.isComplete = false →
        (c.str row.2.totalChunks).isSome = true

def CompleteFits (c : JsonCodec) (s : Buffers) (payload : List UInt8) : Prop :=
  payload ≠ [] → TextFits (IdFits c s) True (c.loads payload)

theorem storeChunk_answered_iff {s : Buffers} {key : Json.Key} {buf : Buffer}
    {chunkSeq : Json} {body : List UInt8} :
    Answered (storeChunk s key buf chunkSeq body).2.1 ↔ chunkSeq.key?.isSome = true := by
  unfold storeChunk
  cases chunkSeq.key? with
  | none => simp
  | some seq => simp

/-- The errors that `handle_chunk` catches. -/
def caught : ChunkError → Bool
  | .value _ | .key _ => true
  | .attribute _ | .recursion _ => false

theorem refused_answered_iff {c : JsonCodec} {lookup : String → Option String} {s : Buffers}
    {payload : List UInt8} {exc : ChunkError} (h : parseVideoChunk c payload = .error exc) :
    Answered (handleChunk c lookup payload s).2.1 ↔ caught exc = true := by
  unfold handleChunk
  rw [h]
  cases exc <;> simp [caught, malformedChunk]

/-- What happens to a chunk whose header is there. -/
theorem stored_answered_iff {c : JsonCodec} {lookup : String → Option String} {s : Buffers}
    {payload body : List UInt8} {m : GwProto.VideoChunkMeta}
    (h : parseVideoChunk c payload = .ok (m, body)) :
    Answered (handleChunk c lookup payload s).2.1 ↔
      ∃ key, m.videoId.key? = some key ∧
        (m.chunkSeq.key?.isSome = true ∨ s.find? key = none ∧ lookup m.stationName = none) := by
  unfold handleChunk
  rw [h]
  dsimp only
  cases hkey : m.videoId.key? with
  | none => simp
  | some key =>
    dsimp only
    cases hfind : s.find? key with
    | some row => simp [storeChunk_answered_iff, hfind]
    | none =>
      cases hlookup : lookup m.stationName with
      | none => simp [unknownStation, hfind]
      | some stationId => simp [storeChunk_answered_iff]

/-- The fields that are required. -/
def Required (fields : List (String × Json)) (videoId chunkSeq totalChunks : Json) : Prop :=
  (Json.get fields "station_name").truthy = true ∧
    fields.lookup "video_id" = some videoId ∧ fields.lookup "chunk_seq" = some chunkSeq ∧
    fields.lookup "total_chunks" = some totalChunks

theorem headerFits_iff {c : JsonCodec} {lookup : String → Option String} {s : Buffers}
    {fields : List (String × Json)} : HeaderFits c lookup s fields ↔
      ∀ videoId chunkSeq totalChunks, Required fields videoId chunkSeq totalChunks →
        ∃ name key, c.str (Json.get fields "station_name") = some name ∧
          videoId.key? = some key ∧
          (chunkSeq.key?.isSome = true ∨ s.find? key = none ∧ lookup name = none) := by
  unfold HeaderFits Required
  constructor
  · intro h videoId chunkSeq totalChunks ⟨hname, hid, hseq, htotal⟩
    exact h hname videoId chunkSeq totalChunks hid hseq htotal
  · intro h hname videoId chunkSeq totalChunks hid hseq htotal
    exact h videoId chunkSeq totalChunks ⟨hname, hid, hseq, htotal⟩

/-- A header without one of the required fields is a `KeyError`. -/
theorem readMeta_missing {c : JsonCodec} {fields : List (String × Json)}
    (h : ∀ videoId chunkSeq totalChunks, ¬ Required fields videoId chunkSeq totalChunks) :
    ∃ name, readMeta c (.obj fields) = .error (.key name) := by
  unfold readMeta
  dsimp only
  by_cases hname : (Json.get fields "station_name").truthy = true
  · rw [if_neg (by simp [hname])]
    unfold field
    cases hid : fields.lookup "video_id" with
    | none => exact ⟨_, rfl⟩
    | some videoId =>
      cases hseq : fields.lookup "chunk_seq" with
      | none => exact ⟨_, rfl⟩
      | some chunkSeq =>
        cases htotal : fields.lookup "total_chunks" with
        | none => exact ⟨_, rfl⟩
        | some totalChunks =>
          exact absurd ⟨hname, hid, hseq, htotal⟩ (h videoId chunkSeq totalChunks)
  · rw [if_pos (by simpa using hname)]
    exact ⟨_, rfl⟩

theorem readMeta_required {c : JsonCodec} {fields : List (String × Json)}
    {videoId chunkSeq totalChunks : Json}
    (h : Required fields videoId chunkSeq totalChunks) :
    (c.str (Json.get fields "station_name") = none ∧
        ∃ exc, readMeta c (.obj fields) = .error (.recursion exc)) ∨
      ∃ m : GwProto.VideoChunkMeta, c.str (Json.get fields "station_name") = some m.stationName ∧
        m.videoId = videoId ∧ m.chunkSeq = chunkSeq ∧ readMeta c (.obj fields) = .ok m := by
  obtain ⟨hname, hid, hseq, htotal⟩ := h
  unfold readMeta
  simp only [hname, Bool.not_true, Bool.false_eq_true, if_false, field, hid, hseq, htotal]
  cases hstr : c.str (Json.get fields "station_name") with
  | none => exact Or.inl ⟨rfl, _, rfl⟩
  | some name => exact Or.inr ⟨_, rfl, rfl, rfl, rfl⟩

theorem header_answered_iff {c : JsonCodec} {lookup : String → Option String} {s : Buffers}
    {payload header body : List UInt8} {fields : List (String × Json)}
    (hsplit : splitLine payload = some (header, body))
    (hloads : c.loads header = .ok (.obj fields)) :
    Answered (handleChunk c lookup payload s).2.1 ↔ HeaderFits c lookup s fields := by
  have hparse : parseVideoChunk c payload =
      (readMeta c (.obj fields)).map fun m => (m, body) := by
    rw [parseVideoChunk_of_split hsplit, hloads]
  rw [headerFits_iff]
  by_cases hrequired : ∃ videoId chunkSeq totalChunks,
      Required fields videoId chunkSeq totalChunks
  · obtain ⟨videoId, chunkSeq, totalChunks, h⟩ := hrequired
    have hunique : ∀ videoId' chunkSeq' totalChunks',
        Required fields videoId' chunkSeq' totalChunks' →
          videoId' = videoId ∧ chunkSeq' = chunkSeq := by
      intro videoId' chunkSeq' totalChunks' h'
      exact ⟨Option.some.inj (h'.2.1.symm.trans h.2.1),
        Option.some.inj (h'.2.2.1.symm.trans h.2.2.1)⟩
    rcases readMeta_required (c := c) h with ⟨hstr, exc, herror⟩ | ⟨m, hstr, rfl, rfl, hok⟩
    · have hparse' : parseVideoChunk c payload = .error (.recursion exc) := by
        rw [hparse, herror]
        rfl
      have hraised : ¬ Answered (handleChunk c lookup payload s).2.1 := by
        rw [refused_answered_iff hparse']
        exact Bool.false_ne_true
      refine iff_of_false hraised fun hall => ?_
      obtain ⟨name, -, hname, -⟩ := hall _ _ _ h
      rw [hstr] at hname
      contradiction
    · have hok' : parseVideoChunk c payload = .ok (m, body) := by
        rw [hparse, hok]
        rfl
      rw [stored_answered_iff hok']
      constructor
      · intro ⟨key, hkey, hrest⟩ videoId' chunkSeq' totalChunks' h'
        obtain ⟨rfl, rfl⟩ := hunique _ _ _ h'
        exact ⟨m.stationName, key, hstr, hkey, hrest⟩
      · intro hall
        obtain ⟨name, key, hname, hkey, hrest⟩ := hall _ _ _ h
        rw [hstr] at hname
        obtain rfl := Option.some.inj hname
        exact ⟨key, hkey, hrest⟩
  · have hnone : ∀ videoId chunkSeq totalChunks,
        ¬ Required fields videoId chunkSeq totalChunks :=
      fun videoId chunkSeq totalChunks h => hrequired ⟨_, _, _, h⟩
    obtain ⟨name, herror⟩ := readMeta_missing (c := c) hnone
    have hparse' : parseVideoChunk c payload = .error (.key name) := by
      rw [hparse, herror]
      rfl
    exact iff_of_true ((refused_answered_iff hparse').mpr rfl)
      fun _ _ _ h => absurd h (hnone _ _ _)

/-- A chunk is answered exactly when its header fits. -/
theorem chunk_answered_iff (c : JsonCodec) (lookup : String → Option String)
    (payload : List UInt8) (s : Buffers) :
    Answered (receiveChunk c lookup payload s).2.1 ↔ ChunkFits c lookup s payload := by
  unfold ChunkFits receiveChunk
  rw [decode_videoChunk]
  cases hsplit : splitLine payload with
  | none =>
    have hparse : parseVideoChunk c payload = .error (.value "subsection not found") := by
      unfold parseVideoChunk
      rw [hsplit]
    refine iff_of_true ((refused_answered_iff hparse).mpr rfl) ?_
    intro header body h
    contradiction
  | some parts =>
    obtain ⟨header, body⟩ := parts
    have hone : (∀ header' body', some (header, body) = some (header', body') →
        TextFits (HeaderFits c lookup s) False (c.loads header')) ↔
          TextFits (HeaderFits c lookup s) False (c.loads header) := by
      constructor
      · intro h
        exact h header body rfl
      · intro h header' body' heq
        obtain ⟨rfl, rfl⟩ := Prod.mk.inj (Option.some.inj heq)
        exact h
    have hparse := parseVideoChunk_of_split (c := c) hsplit
    rw [hone]
    dsimp only
    unfold loadMetadata
    cases hloads : c.loads header with
    | error exc =>
      rw [hloads] at hparse
      cases exc with
      | jsonDecode exc => exact iff_of_true ((refused_answered_iff hparse).mpr rfl) trivial
      | unicodeDecode exc => exact iff_of_true ((refused_answered_iff hparse).mpr rfl) trivial
      | digits exc => exact iff_of_false (not_answered_raised exc) id
      | recursion exc => exact iff_of_false (not_answered_raised exc) id
    | ok data =>
      rw [hloads] at hparse
      cases data with
      | obj fields => exact header_answered_iff hsplit hloads
      | _ =>
        refine iff_of_false ?_ id
        intro h
        exact absurd ((refused_answered_iff hparse).mp h) Bool.false_ne_true

theorem saveVideo_answered (save : Buffer → Except String Unit) (s : Buffers)
    (key : Json.Key) (buf : Buffer) : Answered (saveVideo save s key buf).2.1 := by
  unfold saveVideo
  cases save buf with
  | ok _ => exact answered_ack
  | error exc => exact answered_error _

theorem incomplete_answered_iff {c : JsonCodec} {s : Buffers} {buf : Buffer} :
    Answered (incomplete c s buf).2.1 ↔ (c.str buf.totalChunks).isSome = true := by
  unfold incomplete
  cases c.str buf.totalChunks with
  | none => simp
  | some total => simp

/-- The text of a key can be taken. -/
theorem str_of_key {c : JsonCodec} {value : Json} {key : Json.Key}
    (h : value.key? = some key) : ∃ text, c.str value = some text := by
  cases value with
  | arr items => simp [Json.key?] at h
  | obj fields => simp [Json.key?] at h
  | _ => exact ⟨_, rfl⟩

theorem fields_answered_iff {c : JsonCodec} {save : Buffer → Except String Unit}
    {fields : List (String × Json)} {s : Buffers} :
    Answered (handleComplete c save (.obj fields) s).2.1 ↔ IdFits c s fields := by
  unfold handleComplete IdFits
  dsimp only
  by_cases htruthy : (Json.get fields "video_id").truthy = true
  · simp only [htruthy, Bool.not_true, Bool.false_eq_true, if_false, true_implies]
    cases hkey : (Json.get fields "video_id").key? with
    | none => simp
    | some key =>
      dsimp only
      cases hfind : s.find? key with
      | none =>
        obtain ⟨text, htext⟩ := str_of_key (c := c) hkey
        simp [htext, noBuffer, hfind]
      | some row =>
        obtain ⟨key', buf⟩ := row
        by_cases hcomplete : buf.isComplete = true
        · simp [hcomplete, saveVideo_answered, hfind]
        · simp [hcomplete, incomplete_answered_iff, hfind]
  · simp [htruthy]

/-- A message that ends a video is answered exactly when its id fits. -/
theorem complete_answered_iff (c : JsonCodec) (save : Buffer → Except String Unit)
    (payload : List UInt8) (s : Buffers) :
    Answered (receiveComplete c save payload s).2.1 ↔ CompleteFits c s payload := by
  unfold CompleteFits receiveComplete
  rw [decode_of_ne_videoChunk c (by decide)]
  by_cases hempty : payload = []
  · rw [if_pos hempty]
    exact iff_of_true (answered_error _) fun hne => absurd hempty hne
  · rw [if_neg hempty]
    unfold loadMetadata
    cases hloads : c.loads payload with
    | error exc =>
      cases exc with
      | jsonDecode exc => exact iff_of_true (answered_error _) fun _ => trivial
      | unicodeDecode exc => exact iff_of_true (answered_error _) fun _ => trivial
      | digits exc => exact iff_of_false (not_answered_raised exc) fun h => h hempty
      | recursion exc => exact iff_of_false (not_answered_raised exc) fun h => h hempty
    | ok data =>
      cases data with
      | obj fields =>
        have hne : (payload ≠ [] → IdFits c s fields) ↔ IdFits c s fields :=
          ⟨fun h => h hempty, fun h _ => h⟩
        exact fields_answered_iff.trans hne.symm
      | _ => exact iff_of_true (answered_error _) fun _ => trivial

/-! ## What an error leaves behind -/

/-- A chunk that is answered with an error leaves the buffers as they
are. -/
theorem error_keeps_buffers {c : JsonCodec} {lookup : String → Option String}
    {payload : List UInt8} {s : Buffers} {reason : String}
    (h : (receiveChunk c lookup payload s).2.1 = .error reason) :
    (receiveChunk c lookup payload s).1 = s := by
  have hstore (s' : Buffers) (key : Json.Key) (buf : Buffer) (seq : Json)
      (body : List UInt8) : (storeChunk s' key buf seq body).2.1 ≠ .error reason := by
    unfold storeChunk
    cases seq.key? with
    | none => exact Reply.noConfusion
    | some _ => exact Reply.noConfusion
  unfold receiveChunk at h ⊢
  cases hdecode : decode c .videoChunk payload with
  | error exc => rfl
  | ok message =>
    rw [hdecode] at h
    dsimp only at h ⊢
    unfold handleChunk at h ⊢
    cases hparse : parseVideoChunk c message.payload with
    | error exc => cases exc <;> rfl
    | ok parsed =>
      obtain ⟨m, body⟩ := parsed
      rw [hparse] at h
      dsimp only at h ⊢
      cases hkey : m.videoId.key? with
      | none => rfl
      | some key =>
        rw [hkey] at h
        dsimp only at h ⊢
        cases hfind : s.find? key with
        | some row =>
          rw [hfind] at h
          exact absurd h (hstore _ _ _ _ _)
        | none =>
          rw [hfind] at h
          dsimp only at h ⊢
          cases hlookup : lookup m.stationName with
          | none => rfl
          | some stationId =>
            rw [hlookup] at h
            exact absurd h (hstore _ _ _ _ _)

/-- For every payload: the chunk is answered exactly when its header fits,
the end of a video exactly when its id fits, and an error for a chunk leaves
the buffers as they are. -/
theorem handlers_answer_iff (c : JsonCodec) (lookup : String → Option String)
    (save : Buffer → Except String Unit) (payload : List UInt8) (s : Buffers) :
    (Answered (receiveChunk c lookup payload s).2.1 ↔ ChunkFits c lookup s payload) ∧
      (Answered (receiveComplete c save payload s).2.1 ↔ CompleteFits c s payload) ∧
      ∀ reason, (receiveChunk c lookup payload s).2.1 = .error reason →
        (receiveChunk c lookup payload s).1 = s :=
  ⟨chunk_answered_iff c lookup payload s, complete_answered_iff c save payload s,
    fun _ h => error_keeps_buffers h⟩

/-- The JSON library on an empty list. -/
def listCodec : JsonCodec :=
  { dumps := fun _ => encodeAscii "[]"
    loads := fun raw =>
      if raw = encodeAscii "[]" then .ok (.arr []) else .error (.jsonDecode "Expecting value")
    scalar := fun _ => ""
    nested := fun _ => some "[]" }

/-- A list on the line of the header ends the connection. -/
theorem list_header_raises :
    ¬ ∀ payload s, Answered (receiveChunk listCodec (fun _ => none) payload s).2.1 := by
  intro h
  have hfits := (chunk_answered_iff _ _ _ _).mp
    (h (encodeAscii "[]" ++ [newline]) Table.empty) (encodeAscii "[]") []
    (splitLine_append (by decide) [])
  exact hfits

/-! ## Texts and numbers -/

/-- An optional text as a value. -/
def ofOption : Option String → Json
  | none => .null
  | some text => .str text

/-- The metadata of a chunk as values. -/
def ofTypedMeta (m : Ingestion.VideoChunkMeta) : GwProto.VideoChunkMeta :=
  { videoId := .str m.videoId
    chunkSeq := .int m.chunkSeq
    totalChunks := .int m.totalChunks
    stationName := m.stationName
    capturedAt := ofOption m.capturedAt
    amrId := ofOption m.amrId
    amrPosition := m.amrPosition
    sourceFormat := ofOption m.sourceFormat }

theorem number_injective : Function.Injective fun n : Int => Json.Key.number n := by
  intro m n h
  exact Int.cast_injective (Json.Key.number.inj h)

theorem text_injective : Function.Injective Json.Key.text :=
  fun _ _ h => Json.Key.text.inj h

/-- A chunk under the key that its number is. -/
def keyedChunk (row : Int × List UInt8) : Json.Key × List UInt8 := (.number row.1, row.2)

def keyedChunks (chunks : Table (Prod.fst : Int × List UInt8 → Int)) :
    Table (Prod.fst : Json.Key × List UInt8 → Json.Key) :=
  chunks.map keyedChunk number_injective fun _ => rfl

/-- A buffer of texts and numbers as one of values. -/
def ofTypedBuffer (buf : VideoBuffer) : Buffer :=
  { videoId := .str buf.videoId
    stationName := buf.stationName
    stationId := buf.stationId
    totalChunks := .int buf.totalChunks
    capturedAt := ofOption buf.capturedAt
    amrId := ofOption buf.amrId
    amrPosition := buf.amrPosition
    sourceFormat := ofOption buf.sourceFormat
    chunks := keyedChunks buf.chunks
    totalSize := buf.totalSize }

/-- A buffer under the key that its id is. -/
def keyedBuffer (buf : VideoBuffer) : Json.Key × Buffer :=
  (.text buf.videoId, ofTypedBuffer buf)

/-- The buffers of a session with their keys. -/
def ofTyped (s : IngestionSession) : Buffers :=
  s.videoBuffers.map keyedBuffer text_injective fun _ => rfl

theorem add_ofTypedBuffer (buf : VideoBuffer) (seq : Int) (body : List UInt8) :
    (ofTypedBuffer buf).add (.number seq) body = ofTypedBuffer (buf.add seq body) := by
  have hchunks : (keyedChunks buf.chunks).upsert (keyedChunk (seq, body)) =
      keyedChunks (buf.chunks.upsert (seq, body)) :=
    Table.upsert_map keyedChunk buf.chunks number_injective (fun _ => rfl) (seq, body)
  show { ofTypedBuffer buf with
      chunks := (keyedChunks buf.chunks).upsert (keyedChunk (seq, body))
      totalSize := buf.totalSize + body.length } = ofTypedBuffer (buf.add seq body)
  rw [hchunks]
  rfl

theorem ofTyped_put (s : IngestionSession) (buf : VideoBuffer) :
    (ofTyped s).upsert (keyedBuffer buf) = ofTyped (s.put buf) :=
  Table.upsert_map keyedBuffer s.videoBuffers text_injective (fun _ => rfl) buf

theorem find?_ofTyped (s : IngestionSession) (videoId : String) :
    (ofTyped s).find? (.text videoId) = (s.videoBuffers.find? videoId).map keyedBuffer :=
  Table.find?_map keyedBuffer s.videoBuffers text_injective (fun _ => rfl) videoId

theorem storeChunk_typed (s : IngestionSession) (m : Ingestion.VideoChunkMeta)
    (buf : VideoBuffer) (hid : buf.videoId = m.videoId) (body : List UInt8) (t : Buffers)
    (ht : t.upsert (keyedBuffer (buf.add m.chunkSeq body)) =
      (ofTyped s).upsert (keyedBuffer (buf.add m.chunkSeq body))) :
    storeChunk t (.text m.videoId) (ofTypedBuffer buf) (ofTypedMeta m).chunkSeq body =
      (ofTyped (s.put (buf.add m.chunkSeq body)), .ack, {}) := by
  have hadded : (Json.Key.text m.videoId, (ofTypedBuffer buf).add (.number m.chunkSeq) body) =
      keyedBuffer (buf.add m.chunkSeq body) := by
    rw [add_ofTypedBuffer, ← hid]
    rfl
  show (t.upsert (Json.Key.text m.videoId,
    (ofTypedBuffer buf).add (.number m.chunkSeq) body), Reply.ack, _) = _
  rw [hadded, ht, ofTyped_put]

/-- On texts and numbers the handler is the one of the typed session. -/
theorem handleChunk_typed {c : JsonCodec} {lookup : String → Option String}
    {payload body : List UInt8} {m : Ingestion.VideoChunkMeta} (s : IngestionSession)
    (h : parseVideoChunk c payload = .ok (ofTypedMeta m, body)) :
    handleChunk c lookup payload (ofTyped s) =
      let typed := VideoHandler.handleChunk (lookup m.stationName) (.chunk m body) s
      (ofTyped typed.1, typed.2) := by
  have hkey : (ofTypedMeta m).videoId.key? = some (.text m.videoId) := rfl
  unfold handleChunk VideoHandler.handleChunk
  rw [h]
  dsimp only
  rw [hkey]
  dsimp only
  rw [find?_ofTyped]
  cases hfind : s.videoBuffers.find? m.videoId with
  | some buf =>
    exact storeChunk_typed s m buf (Table.find?_eq_some_iff.mp hfind).2 body _ rfl
  | none =>
    have hnew : (ofTyped s).find? (.text m.videoId) = none := by
      rw [find?_ofTyped, hfind]
      rfl
    cases hlookup : lookup (ofTypedMeta m).stationName with
    | none =>
      have hlookup' : lookup m.stationName = none := hlookup
      rw [hlookup']
      rfl
    | some stationId =>
      have hlookup' : lookup m.stationName = some stationId := hlookup
      rw [hlookup']
      let opened := VideoBuffer.ofMeta m stationId
      have hreplaced : ((ofTyped s).insert (keyedBuffer opened)).upsert
          (keyedBuffer (opened.add m.chunkSeq body)) =
            (ofTyped s).upsert (keyedBuffer (opened.add m.chunkSeq body)) :=
        Table.upsert_insert (ofTyped s) rfl hnew
      exact storeChunk_typed s m opened rfl body _ hreplaced

end DustMonitoring.Ingestion.Wire
