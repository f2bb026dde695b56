import DustMonitoring.Ingestion.Origins

/-!
# A connection is the video handler, message by message

`Wire.handleChunk` and `Wire.handleComplete` take what the tables return as an
argument.  In the gateway their calls wait, and the other connections go on in
between.  As long as a connection is open nothing of that can be told: it has the
buffers that the two functions leave, one message after the other, and the
replies and the entries are theirs.

Main results:

* `connection_refines` -- for every open connection of every run there are such
  arguments.
-/

namespace DustMonitoring.Ingestion.Standard

open DustMonitoring.Lib DustMonitoring.GwProto

/-! ## The sequential handlers -/

/-- A message with what its calls return. -/
structure Input where
  msg : GwProto.Message
  lookup : String → Option String
  save : Wire.Buffer → Except String Unit

/-- The reply to a message about a video, and what is written for it. -/
structure Told where
  reply : Reply
  log? : Option LogEntry
  stationRequest? : Option String
deriving DecidableEq

def Told.of (reply : Reply) (effects : Effects) : Told :=
  ⟨reply, effects.log?, effects.stationRequest?.filter (· ≠ "")⟩

/-- The buffers after the message, and the reply. -/
def Input.handle (g : Gateway) (s : Wire.Buffers) (i : Input) : Wire.Buffers × Option Told :=
  match i.msg.msgType with
  | .videoChunk =>
    let (s', reply, effects) := Wire.handleChunk g.json i.lookup i.msg.payload s
    (s', some (.of reply effects))
  | .videoComplete =>
    let (s', reply, effects) := Wire.handleComplete g.json i.save i.msg.metadata s
    (s', some (.of reply effects))
  | _ => (s, none)

/-! ## What a connection has done -/

def replyOf : Response → Reply
  | .ack => .ack
  | .error reason => .error reason

/-- The entry of the call. -/
def entry? (x : Exchange Call fun k => Answer k.Result) : Option LogEntry :=
  match x.1 with
  | .insertLog entry => some entry
  | _ => none

/-- The station that the call asks for. -/
def stationRequest? (x : Exchange Call fun k => Answer k.Result) : Option String :=
  match x.1 with
  | .upsert stationName => some stationName
  | _ => none

/-- The reply and the calls that write. -/
def toldOf (t : Trace) (response : Response) : Told :=
  ⟨replyOf response, t.findSome? entry?, t.findSome? stationRequest?⟩

/-- What was told to the sender of a message about a video. -/
def toldBy (r : Handled) : Option Told :=
  match r.msg.msgType, r.result with
  | .videoChunk, .ok (some response) | .videoComplete, .ok (some response) =>
    some (toldOf r.past response)
  | _, _ => none

/-- The station is what the lookup returned. -/
def LookedUp (t : Trace) (lookup : String → Option String) : Prop :=
  ∀ stationName result, Answered t (.lookupByName stationName) result →
    lookup stationName = result

/-- The buffer is saved if its row was inserted. -/
def Saved (t : Trace) (save : Wire.Buffer → Except String Unit) : Prop :=
  ∀ buf result, (⟨.assembleAndSave buf, result⟩ : Exchange Call fun k => Answer k.Result) ∈ t →
    (save buf = .ok () ↔ ∃ row, Answered t (.insertVideo row) ())

/-- The input is the message of the receipt with what its calls returned. -/
structure Gives (i : Input) (r : Handled) : Prop where
  msg : i.msg = r.msg
  lookup : r.msg.msgType = .videoChunk → LookedUp r.past i.lookup
  save : r.msg.msgType = .videoComplete → Saved r.past i.save

/-! ## One message -/

section Message

variable {g : Gateway} {msg : GwProto.Message} {s : Wire.Buffers}

/-- The handler leaves the buffers and tells the sender what the sequential one
does. -/
def Matches (t : Trace) (response : Response) (s' : Wire.Buffers)
    (out : Wire.Buffers × Reply × Effects) : Prop :=
  out.1 = s' ∧ Told.of out.2.1 out.2.2 = toldOf t response

/-- A handler that returns does what the sequential one does on what it was
answered. -/
abbrev Refines (P : Trace → Response → Wire.Buffers → Prop) (t : Trace) (h : Task Response)
    (s' : Wire.Buffers) : Prop :=
  Handler.Meets (fun _ _ => True) (Handler.Ended P fun _ _ _ => True) t h s'

/-- A chunk is handled as with what the lookup returned. -/
def ChunkMatches (g : Gateway) (msg : GwProto.Message) (s : Wire.Buffers) (t : Trace)
    (response : Response) (s' : Wire.Buffers) : Prop :=
  ∃ lookup, LookedUp t lookup ∧
    Matches t response s' (Wire.handleChunk g.json lookup msg.payload s)

theorem lookedUp_nil (lookup : String → Option String) : LookedUp [] lookup :=
  fun _ _ h => absurd h List.not_mem_nil

/-- A call that is no lookup says nothing about the stations. -/
theorem LookedUp.concat {t : Trace} {lookup : String → Option String} (h : LookedUp t lookup)
    {x : Exchange Call fun k => Answer k.Result}
    (hx : ∀ stationName, x.1 ≠ .lookupByName stationName) : LookedUp (t ++ [x]) lookup := by
  intro stationName result hanswered
  rcases List.mem_append.mp hanswered with hanswered | hanswered
  · exact h stationName result hanswered
  · rw [← List.mem_singleton.mp hanswered] at hx
    exact absurd rfl (hx stationName)

/-- The first lookup. -/
theorem lookedUp_singleton (stationName : String) (result : Option String) :
    LookedUp [⟨.lookupByName stationName, .ok result⟩] fun _ => result := by
  intro stationName' result' hanswered
  cases List.mem_singleton.mp hanswered
  rfl

theorem malformedChunk_refines {exc : String}
    (hchunk : ∀ lookup, Wire.handleChunk g.json lookup msg.payload s = Wire.malformedChunk s exc) :
    Refines (ChunkMatches g msg s) [] (malformedChunk exc) s := by
  simp only [malformedChunk, Handler.meets_bind, meets_insertLog, Handler.ended_ok,
    Handler.ended_error, Raises, Handler.meets_pure, implies_true, and_true, true_and]
  refine ⟨fun _ => none, (lookedUp_nil _).concat (by simp), ?_⟩
  rw [hchunk]
  exact ⟨rfl, rfl⟩

theorem unknownStation_refines {m : GwProto.VideoChunkMeta}
    (hchunk : ∀ lookup, lookup m.stationName = none →
      Wire.handleChunk g.json lookup msg.payload s = Wire.unknownStation s m.stationName) :
    Refines (ChunkMatches g msg s) [⟨.lookupByName m.stationName, .ok none⟩]
      (unknownStation "VIDEO_CHUNK" m.stationName) s := by
  have hlookedUp := lookedUp_singleton m.stationName none
  unfold unknownStation upsert
  by_cases hname : m.stationName = ""
  · rw [if_pos hname]
    simp only [Handler.meets_bind, Handler.meets_pure, meets_insertLog, Handler.ended_ok,
      Handler.ended_error, Raises, implies_true, and_true, true_and]
    refine ⟨fun _ => none, hlookedUp.concat (by simp), ?_⟩
    rw [hchunk _ rfl]
    have hnone : (some m.stationName).filter (fun name => decide (name ≠ "")) = none := by
      simp [hname]
    refine ⟨rfl, ?_⟩
    dsimp only [Told.of, Wire.unknownStation]
    rw [hnone]
    rfl
  · rw [if_neg hname]
    simp only [Handler.meets_bind, meets_upsertRequest, Handler.meets_pure, meets_insertLog,
      Handler.ended_ok, Handler.ended_error, Raises, implies_true, and_true, true_and]
    refine ⟨fun _ => none, (hlookedUp.concat (by simp)).concat (by simp), ?_⟩
    rw [hchunk _ rfl]
    have hsome : (some m.stationName).filter (fun name => decide (name ≠ "")) =
        some m.stationName := by
      simp [hname]
    refine ⟨rfl, ?_⟩
    dsimp only [Told.of, Wire.unknownStation]
    rw [hsome]
    rfl

theorem storeChunk_refines {t : Trace} {lookup : String → Option String}
    (hlookedUp : LookedUp t lookup) (htold : t.findSome? entry? = none)
    (hasked : t.findSome? stationRequest? = none) {s' : Wire.Buffers} {key : Json.Key}
    {buf : Wire.Buffer} {chunkSeq : Json} {body : List UInt8}
    (hchunk : Wire.handleChunk g.json lookup msg.payload s =
      Wire.storeChunk s' key buf chunkSeq body) :
    Refines (ChunkMatches g msg s) t (storeChunk key buf chunkSeq body) s' := by
  unfold storeChunk
  cases hseq : chunkSeq.key? with
  | none => simp [Gateway.hashed, hseq]
  | some seq =>
    simp only [Gateway.hashed, hseq, Handler.meets_bind, Handler.meets_ofExcept,
      Handler.ended_ok, Handler.meets_modify, Handler.meets_pure]
    refine ⟨lookup, hlookedUp, ?_⟩
    rw [hchunk, Wire.storeChunk, hseq]
    refine ⟨rfl, ?_⟩
    rw [toldOf, htold, hasked]
    rfl

theorem handleChunk_refines :
    Refines (ChunkMatches g msg s) [] (handleChunk g msg) s := by
  unfold handleChunk
  cases hparse : parseVideoChunk g.json msg.payload with
  | error exc =>
    cases exc with
    | value text =>
      apply malformedChunk_refines
      intro lookup
      simp only [Wire.handleChunk, hparse]
    | key name =>
      apply malformedChunk_refines
      intro lookup
      simp only [Wire.handleChunk, hparse]
    | «attribute» text => trivial
    | recursion text => trivial
  | ok parsed =>
    obtain ⟨m, body⟩ := parsed
    dsimp only
    cases hkey : m.videoId.key? with
    | none => simp [Gateway.hashed, hkey]
    | some key =>
      simp only [Gateway.hashed, hkey, Handler.meets_bind, Handler.meets_ofExcept,
        Handler.ended_ok, Handler.meets_get]
      cases hfind : s.find? key with
      | some row =>
        apply storeChunk_refines (lookedUp_nil fun _ => none) rfl rfl
        simp only [Wire.handleChunk, hparse, hkey, hfind]
      | none =>
        simp only [Handler.meets_bind, meets_lookupByName, Raises, Handler.ended_ok,
          Handler.ended_error, implies_true, and_true, true_and]
        intro result
        cases result with
        | none =>
          apply unknownStation_refines
          intro lookup hlookup
          simp only [Wire.handleChunk, hparse, hkey, hfind, hlookup]
        | some stationId =>
          simp only [Handler.meets_bind, Handler.meets_modify, Handler.ended_ok]
          apply storeChunk_refines (lookedUp_singleton _ _) rfl rfl
          simp only [Wire.handleChunk, hparse, hkey, hfind]

/-- A `VIDEO_COMPLETE` is handled as with how the saving ended. -/
def CompleteMatches (g : Gateway) (msg : GwProto.Message) (s : Wire.Buffers) (t : Trace)
    (response : Response) (s' : Wire.Buffers) : Prop :=
  ∃ save, Saved t save ∧
    Matches t response s' (Wire.handleComplete g.json save msg.metadata s)

/-- Nothing was saved. -/
theorem saved_of_not_mem {t : Trace}
    (ht : ∀ buf result,
      (⟨.assembleAndSave buf, result⟩ : Exchange Call fun k => Answer k.Result) ∉ t)
    (save : Wire.Buffer → Except String Unit) : Saved t save :=
  fun buf result h => absurd h (ht buf result)

/-- A message that is refused with an entry in the log. -/
theorem refused_refines {stationId : Option String} {errorMessage reason : String}
    (hcomplete : ∀ save, Wire.handleComplete g.json save msg.metadata s =
      (s, .error reason, { log? := some ⟨stationId, "VIDEO_COMPLETE", "error", errorMessage⟩ })) :
    Refines (CompleteMatches g msg s) []
      (do
        insertLog stationId "VIDEO_COMPLETE" errorMessage
        return .error reason) s := by
  simp only [Handler.meets_bind, meets_insertLog, Handler.ended_ok, Handler.ended_error, Raises,
    Handler.meets_pure, implies_true, and_true, true_and]
  refine ⟨fun _ => .ok (), saved_of_not_mem (by simp) _, ?_⟩
  rw [hcomplete]
  exact ⟨rfl, rfl⟩

/-- The buffer was not saved. -/
theorem saveFailed_refines {t : Trace} {key : Json.Key} {buf : Wire.Buffer} {exc : Exc}
    (hno : ∀ row, ¬ Answered t (.insertVideo row) ()) (htold : t.findSome? entry? = none)
    (hasked : t.findSome? stationRequest? = none)
    (hcomplete : ∀ save, Wire.handleComplete g.json save msg.metadata s =
      Wire.saveVideo save s key buf) :
    Refines (CompleteMatches g msg s) t (saveFailed key buf exc) s := by
  simp only [saveFailed, pop, Handler.meets_bind, meets_insertLog, Handler.meets_modify,
    Handler.ended_ok, Handler.ended_error, Raises, Handler.meets_pure, implies_true, and_true,
    true_and]
  refine ⟨fun _ => .error exc.text, ?_, ?_⟩
  · intro buf' result _
    constructor
    · intro h
      contradiction
    · rintro ⟨row, hrow⟩
      rcases List.mem_append.mp hrow with hrow | hrow
      · exact absurd hrow (hno row)
      · cases List.mem_singleton.mp hrow
  · rw [hcomplete]
    refine ⟨rfl, ?_⟩
    rw [toldOf, List.findSome?_append, List.findSome?_append, htold, hasked]
    rfl

theorem completeVideo_refines {key : Json.Key} {buf : Wire.Buffer}
    (hcomplete : ∀ save, Wire.handleComplete g.json save msg.metadata s =
      Wire.saveVideo save s key buf) :
    Refines (CompleteMatches g msg s) [] (completeVideo g key buf) s := by
  unfold completeVideo saveVideo
  simp only [Handler.meets_tryCatch, Handler.meets_bind, meets_assembleAndSave, Raises,
    Handler.ended_ok, Handler.ended_error, true_and]
  have hfailed : ∀ (t : Trace) (exc : Exc), (∀ row, ¬ Answered t (.insertVideo row) ()) →
      t.findSome? entry? = none → t.findSome? stationRequest? = none →
      Refines (CompleteMatches g msg s) t (saveFailed key buf exc) s :=
    fun t exc hno htold hasked => saveFailed_refines hno htold hasked hcomplete
  refine ⟨fun path => ?_, fun exc => hfailed _ exc (by simp [Answered]) rfl rfl,
    fun text => hfailed _ _ (by simp [Answered]) rfl rfl⟩
  cases hcaptured : g.parseIso buf.capturedAt with
  | error exc =>
    simp only [Handler.meets_ofExcept, Handler.ended_error]
    exact hfailed _ exc (by simp [Answered]) rfl rfl
  | ok capturedAt =>
    simp only [Handler.meets_ofExcept, Handler.ended_ok]
    cases hrow : g.videoOf buf path capturedAt with
    | error exc =>
      simp only [Handler.ended_error]
      exact hfailed _ exc (by simp [Answered]) rfl rfl
    | ok row =>
      simp only [Handler.ended_ok, meets_insertVideo, Raises, Handler.ended_error, pop,
        Handler.meets_modify, Handler.meets_pure, true_and]
      refine ⟨⟨fun _ => .ok (), ?_, ?_⟩, fun exc => hfailed _ exc (by simp [Answered]) rfl rfl,
        fun text => hfailed _ _ (by simp [Answered]) rfl rfl⟩
      · intro buf' result _
        exact ⟨fun _ => ⟨row, answered_concat _ (.insertVideo row) ()⟩, fun _ => rfl⟩
      · rw [hcomplete]
        exact ⟨rfl, rfl⟩

theorem handleComplete_refines :
    Refines (CompleteMatches g msg s) [] (handleComplete g msg) s := by
  have hunread : ∀ reason : String,
      (∀ save, Wire.handleComplete g.json save msg.metadata s = (s, .error reason, {})) →
      Refines (CompleteMatches g msg s) [] (pure (.error reason)) s := by
    intro reason hcomplete
    refine ⟨fun _ => .ok (), saved_of_not_mem (by simp) _, ?_⟩
    rw [hcomplete]
    exact ⟨rfl, rfl⟩
  unfold handleComplete
  cases hmetadata : msg.metadata with
  | obj fields =>
    dsimp only
    by_cases htruthy : (Json.get fields "video_id").truthy = true
    · simp only [htruthy, Bool.not_true, Bool.false_eq_true, if_false]
      cases hkey : (Json.get fields "video_id").key? with
      | none => simp [Gateway.hashed, hkey]
      | some key =>
        simp only [Gateway.hashed, hkey, Handler.meets_bind, Handler.meets_ofExcept,
          Handler.ended_ok, Handler.meets_get]
        cases hfind : s.find? key with
        | none =>
          cases htext : g.json.str (Json.get fields "video_id") with
          | none => simp [Gateway.str, htext]
          | some text =>
            have hstr : g.str (Json.get fields "video_id") = .ok text := by
              simp only [Gateway.str, htext]
            rw [hstr]
            refine refused_refines fun save => ?_
            simp only [Wire.handleComplete, Wire.noBuffer, hmetadata, htruthy, hkey, hfind, htext,
              Bool.not_true, Bool.false_eq_true, if_false]
        | some row =>
          obtain ⟨-, rfl⟩ := Table.find?_eq_some_iff.mp hfind
          dsimp only
          cases hfull : row.2.isComplete with
          | true =>
            simp only [if_true]
            apply completeVideo_refines
            intro save
            simp only [Wire.handleComplete, hmetadata, htruthy, hkey, hfind, hfull, Bool.not_true,
              Bool.false_eq_true, if_false, if_true]
          | false =>
            cases htotal : g.json.str row.2.totalChunks with
            | none => simp [Gateway.str, htotal]
            | some total =>
              have hstr : g.str row.2.totalChunks = .ok total := by
                simp only [Gateway.str, htotal]
              rw [hstr]
              refine refused_refines fun save => ?_
              simp only [Wire.handleComplete, Wire.incomplete, hmetadata, htruthy, hkey, hfind,
                hfull, htotal, Bool.not_true, Bool.false_eq_true, if_false]
    · rw [Bool.not_eq_true] at htruthy
      simp only [htruthy, Bool.not_false, if_true]
      apply hunread
      intro save
      simp only [Wire.handleComplete, hmetadata, htruthy, Bool.not_false, if_true]
  | _ =>
    apply hunread
    intro save
    simp only [Wire.handleComplete, hmetadata]

/-- A handler that leaves the buffers alone. -/
abbrev Keeps {α : Type} (t : Trace) (h : Task α) (s : Wire.Buffers) : Prop :=
  Handler.Meets (fun _ _ => True) (fun _ _ s' => s' = s) t h s

theorem unknownStation_keeps {t : Trace} {messageType stationName : String} :
    Keeps t (unknownStation messageType stationName) s := by
  unfold unknownStation upsert
  split <;> simp [Raises]

theorem badPayload_keeps {t : Trace} {stationId : String} {exc : Exc} :
    Keeps t (badPayload stationId exc) s := by
  unfold badPayload
  split <;> simp [Raises]

theorem storeSample_keeps {t : Trace} {stationId : String} {data : List (String × Json)} :
    Keeps t (storeSample g stationId data) s := by
  unfold storeSample
  cases hrow : g.sampleOf stationId data with
  | error exc =>
    simp only [Handler.meets_tryCatch, Handler.meets_bind, Handler.meets_ofExcept,
      Handler.ended_error]
    exact badPayload_keeps
  | ok row =>
    simp only [Handler.meets_tryCatch, Handler.meets_bind, Handler.meets_ofExcept,
      Handler.ended_ok, meets_insertSample, Handler.meets_pure, Raises, Handler.ended_error,
      true_and]
    exact ⟨fun exc => badPayload_keeps, fun text => badPayload_keeps⟩

theorem handleSample_keeps : Keeps [] (handleSample g msg) s := by
  unfold handleSample
  split
  · next data hdata =>
    dsimp only
    split
    · simp [Raises]
    · cases hname : g.str (Json.get data "station_name") with
      | error exc => simp
      | ok stationName =>
        simp only [Handler.meets_bind, Handler.meets_ofExcept, Handler.ended_ok,
          meets_lookupByName, Raises, Handler.ended_error, implies_true, and_true, true_and]
        intro result
        cases result with
        | none => exact unknownStation_keeps
        | some stationId => exact storeSample_keeps
  · simp [Raises]

/-- What a handler that returns has left and told is what the sequential one
does on its input. -/
def Steps (g : Gateway) (msg : GwProto.Message) (s : Wire.Buffers) (t : Trace)
    (result : Except Exc (Option Response)) (s' : Wire.Buffers) : Prop :=
  ∀ id response, result = .ok response →
    ∃ i, Gives i ⟨id, msg, s, t, result, s'⟩ ∧
      i.handle g s = (s', toldBy ⟨id, msg, s, t, result, s'⟩)

/-- A message that is not about a video. -/
theorem steps_of_keeps (hchunk : msg.msgType ≠ .videoChunk)
    (hcomplete : msg.msgType ≠ .videoComplete) {t : Trace}
    {result : Except Exc (Option Response)} : Steps g msg s t result s := by
  intro id response hresult
  refine ⟨⟨msg, fun _ => none, fun _ => .ok ()⟩, ⟨rfl, fun h => absurd h hchunk,
    fun h => absurd h hcomplete⟩, ?_⟩
  unfold Input.handle toldBy
  cases htype : msg.msgType <;> simp_all

/-- A handler that raises. -/
theorem steps_of_error {t : Trace} {exc : Exc} {s' : Wire.Buffers} :
    Steps g msg s t (.error exc) s' := by
  intro id response hresult
  contradiction

/-- A reply that matches the one of the sequential handler. -/
theorem Matches.steps {t : Trace} {response : Response} {s' : Wire.Buffers}
    {out : Wire.Buffers × Reply × Effects} (h : Matches t response s' out)
    {lookup : String → Option String} {save : Wire.Buffer → Except String Unit}
    (hvideo : msg.msgType = .videoChunk ∨ msg.msgType = .videoComplete)
    (hlookup : msg.msgType = .videoChunk → LookedUp t lookup)
    (hsave : msg.msgType = .videoComplete → Saved t save)
    (hhandle : Input.handle g s ⟨msg, lookup, save⟩ =
      (out.1, some (Told.of out.2.1 out.2.2))) :
    Steps g msg s t (.ok (some response)) s' := by
  intro id response' _
  obtain ⟨hs', htold⟩ := h
  refine ⟨⟨msg, lookup, save⟩, ⟨rfl, hlookup, hsave⟩, ?_⟩
  rw [hhandle, hs', htold]
  rcases hvideo with htype | htype <;> simp only [toldBy, htype]

theorem dispatch_steps (g : Gateway) (msg : GwProto.Message) (s : Wire.Buffers) :
    Handler.Meets (fun _ _ => True) (Steps g msg s) [] (dispatch g msg) s := by
  unfold dispatch
  cases htype : msg.msgType with
  | videoChunk =>
    rw [Handler.meets_bind]
    refine Handler.Meets.mono (fun _ _ _ => trivial) ?_ handleChunk_refines
    rintro t (exc | response) s' hmatches
    · exact steps_of_error
    · obtain ⟨lookup, hlookup, hmatches⟩ := hmatches
      have hsave : msg.msgType = .videoComplete → Saved t fun _ => .ok () := by
        simp [htype]
      apply hmatches.steps (Or.inl htype) (fun _ => hlookup) hsave
      simp only [Input.handle, htype]
  | videoComplete =>
    rw [Handler.meets_bind]
    refine Handler.Meets.mono (fun _ _ _ => trivial) ?_ handleComplete_refines
    rintro t (exc | response) s' hmatches
    · exact steps_of_error
    · obtain ⟨save, hsave, hmatches⟩ := hmatches
      have hlookup : msg.msgType = .videoChunk → LookedUp t fun _ => none := by
        simp [htype]
      apply hmatches.steps (Or.inr htype) hlookup fun _ => hsave
      simp only [Input.handle, htype]
  | sensorSample =>
    rw [Handler.meets_bind]
    refine Handler.Meets.mono (fun _ _ _ => trivial) ?_ handleSample_keeps
    rintro t (exc | response) s' rfl
    · exact steps_of_keeps (by simp [htype]) (by simp [htype])
    · exact steps_of_keeps (by simp [htype]) (by simp [htype])
  | error =>
    dsimp only
    rw [Handler.meets_bind]
    refine Handler.Meets.mono (fun _ _ _ => trivial) ?_ handleError_meets
    rintro t (exc | ⟨⟩) s' ⟨-, rfl⟩
    · exact steps_of_keeps (by simp [htype]) (by simp [htype])
    · exact steps_of_keeps (by simp [htype]) (by simp [htype])
  | heartbeat => exact steps_of_keeps (by simp [htype]) (by simp [htype])
  | ack => exact steps_of_keeps (by simp [htype]) (by simp [htype])
  | analysisResult => exact steps_of_keeps (by simp [htype]) (by simp [htype])
  | alert => exact steps_of_keeps (by simp [htype]) (by simp [htype])

end Message

/-! ## Runs -/

/-- Whatever the other connections do, an open connection has been handled as by
the sequential handlers, one message after the other: there are inputs with its
messages and what their calls returned, on which the two functions leave its
buffers and give its replies and entries. -/
theorem connection_refines (g : Gateway) (events : List Event) :
    ∀ w ∈ (run (step g) {} events).connections.rows, w.activity ≠ .gone →
      ∃ inputs : List Input,
        List.Forall₂ Gives inputs (Service.of w.id (receipts g events)) ∧
        run (fun s i => (i.handle g s).1) Table.empty inputs = w.memory ∧
        outputs (fun s i => (i.handle g s).1) (fun s i => [(i.handle g s).2]) Table.empty inputs =
          (Service.of w.id (receipts g events)).map toldBy := by
  intro w hw hopen
  have hconnections : (run (step g) {} events).connections =
      run (service g).step Table.empty (serverRun g events) :=
    @run_outputs System Event _ Connections (step g) (serverEvents g) (service g).step
      System.connections (fun _ _ => rfl) {} events
  rw [hconnections] at hw
  have hinOrder := (Service.sequential_run (service g) (serverRun g events)).inOrder w hw
  have hsteps : ∀ r ∈ receipts g events, Steps g r.msg r.before r.past r.result r.after :=
    Service.receipt_meets (dispatch_steps g) (serverRun g events)
  apply hinOrder.serial.refines
  intro r hr
  obtain ⟨response, hresult⟩ := hinOrder.answered hopen r hr
  exact hsteps r (List.mem_filter.mp hr).1 r.worker response hresult

set_option maxRecDepth 4000 in
theorem connection_refines_visit :
    ∃ w ∈ (run (step visitGateway) {} visit).connections.rows, w.activity ≠ .gone ∧
      ∃ inputs : List Input,
        List.Forall₂ Gives inputs (Service.of w.id (receipts visitGateway visit)) ∧
        run (fun s i => (i.handle visitGateway s).1) Table.empty inputs = w.memory ∧
        outputs (fun s i => (i.handle visitGateway s).1)
            (fun s i => [(i.handle visitGateway s).2]) Table.empty inputs =
          (Service.of w.id (receipts visitGateway visit)).map toldBy := by
  have hvisit : 0 < (run (step visitGateway) {} visit).connections.rows.length ∧
      ((run (step visitGateway) {} visit).connections.rows.all fun w =>
        w.activity.isOpen) = true := by
    decide +kernel
  obtain ⟨hcount, hopen⟩ := hvisit
  have hmem := List.getElem_mem hcount
  have hne := Activity.isOpen_iff.mp (List.all_eq_true.mp hopen _ hmem)
  exact ⟨_, hmem, hne, connection_refines visitGateway visit _ hmem hne⟩

end DustMonitoring.Ingestion.Standard
