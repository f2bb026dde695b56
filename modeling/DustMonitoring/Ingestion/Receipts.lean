import DustMonitoring.Ingestion.Standard

/-!
# What the handlers of the gateway do

One condition on the calls of a handler and one on its end, for all messages.

A handler inserts at most one row into the tables that it fills, and with its
last call.  Which table that is goes with the reply: a sample or a video for an
`ACK`, an entry of the log for an error.

Main results:

* `dispatch_meets` -- every call has its reason in the message, in the buffers
  or in what was answered before (`Justified`), the rows that were inserted go
  with the reply (`expected`), and the buffers change by the chunk of the
  message (`Remembers`).
-/

namespace DustMonitoring.Ingestion.Standard

open DustMonitoring.Lib DustMonitoring.GwProto

/-! ## Rules for the calls -/

section Rules

variable {P : Trace → Call → Prop} {t : Trace} {s : Wire.Buffers}

/-- The call raises, with or without its effect. -/
def Raises {β : Type} (k : Call) (Q : Trace → Except Exc β → Wire.Buffers → Prop) (t : Trace)
    (s : Wire.Buffers) : Prop :=
  (∀ exc, Q (t ++ [⟨k, .failed exc⟩]) (.error exc) s) ∧
    ∀ text, Q (t ++ [⟨k, .lost text⟩]) (.error (.other text)) s

theorem meets_ask {k : Call} {Q : Trace → Except Exc k.Result → Wire.Buffers → Prop} :
    Handler.Meets P Q t (ask k) s ↔
      P t k ∧ (∀ result, Q (t ++ [⟨k, .ok result⟩]) (.ok result) s) ∧ Raises k Q t s := by
  refine Program.meets_call.trans (and_congr_right fun _ => ?_)
  constructor
  · intro h
    exact ⟨fun result => h (.ok result), fun exc => h (.failed exc), fun text => h (.lost text)⟩
  · rintro ⟨hok, hfailed, hlost⟩ (result | exc | text)
    · exact hok result
    · exact hfailed exc
    · exact hlost text

@[simp] theorem meets_lookupByName {stationName : String}
    {Q : Trace → Except Exc (Option String) → Wire.Buffers → Prop} :
    Handler.Meets P Q t (lookupByName stationName) s ↔
      P t (.lookupByName stationName) ∧
        (∀ result, Q (t ++ [⟨.lookupByName stationName, .ok result⟩]) (.ok result) s) ∧
        Raises (.lookupByName stationName) Q t s :=
  meets_ask

@[simp] theorem meets_assembleAndSave {buf : Wire.Buffer}
    {Q : Trace → Except Exc String → Wire.Buffers → Prop} :
    Handler.Meets P Q t (assembleAndSave buf) s ↔
      P t (.assembleAndSave buf) ∧
        (∀ path, Q (t ++ [⟨.assembleAndSave buf, .ok path⟩]) (.ok path) s) ∧
        Raises (.assembleAndSave buf) Q t s :=
  meets_ask

/-- The rule for the calls that return nothing. -/
theorem forall_unit {p : Unit → Prop} : (∀ u, p u) ↔ p () := ⟨fun h => h (), fun h _ => h⟩

variable {Q : Trace → Except Exc Unit → Wire.Buffers → Prop}

@[simp] theorem meets_insertLog {stationId : Option String} {messageType errorMessage : String} :
    Handler.Meets P Q t (insertLog stationId messageType errorMessage) s ↔
      P t (.insertLog { stationId, messageType, errorMessage }) ∧
        Q (t ++ [⟨.insertLog { stationId, messageType, errorMessage }, .ok ()⟩]) (.ok ()) s ∧
        Raises (.insertLog { stationId, messageType, errorMessage }) Q t s :=
  meets_ask.trans (and_congr_right' (and_congr_left' forall_unit))

@[simp] theorem meets_insertSample {row : SampleInsert} :
    Handler.Meets P Q t (insertSample row) s ↔
      P t (.insertSample row) ∧ Q (t ++ [⟨.insertSample row, .ok ()⟩]) (.ok ()) s ∧
        Raises (.insertSample row) Q t s :=
  meets_ask.trans (and_congr_right' (and_congr_left' forall_unit))

@[simp] theorem meets_insertVideo {row : VideoInsert} :
    Handler.Meets P Q t (insertVideo row) s ↔
      P t (.insertVideo row) ∧ Q (t ++ [⟨.insertVideo row, .ok ()⟩]) (.ok ()) s ∧
        Raises (.insertVideo row) Q t s :=
  meets_ask.trans (and_congr_right' (and_congr_left' forall_unit))

@[simp] theorem meets_upsertRequest {stationName : String} :
    Handler.Meets P Q t (upsertRequest stationName) s ↔
      P t (.upsert stationName) ∧ Q (t ++ [⟨.upsert stationName, .ok ()⟩]) (.ok ()) s ∧
        Raises (.upsert stationName) Q t s :=
  meets_ask.trans (and_congr_right' (and_congr_left' forall_unit))

end Rules

/-! ## The conditions -/

/-- The tables that the gateway fills. -/
inductive Kind where
  | log
  | sample
  | video
deriving DecidableEq, Repr

/-- The table that the call fills. -/
def Call.kind? : Call → Option Kind
  | .insertLog _ => some .log
  | .insertSample _ => some .sample
  | .insertVideo _ => some .video
  | .lookupByName _ | .upsert _ | .assembleAndSave _ => none

/-- The table of an insert that was answered. -/
def kindOf (x : Exchange Call fun k => Answer k.Result) : Option Kind :=
  match x.2 with
  | .ok _ => x.1.kind?
  | .failed _ | .lost _ => none

/-- The tables of the inserts that were answered. -/
def kinds (t : Trace) : List Kind := t.filterMap kindOf

@[simp] theorem kinds_nil : kinds [] = [] := rfl

@[simp] theorem kinds_concat (t : Trace) (x : Exchange Call fun k => Answer k.Result) :
    kinds (t ++ [x]) = kinds t ++ (kindOf x).toList := by
  rw [kinds, List.filterMap_append]
  cases h : kindOf x <;> simp [kinds, h]

@[simp] theorem kinds_singleton (x : Exchange Call fun k => Answer k.Result) :
    kinds [x] = (kindOf x).toList := kinds_concat [] x

/-- The call was answered with the result. -/
def Answered (t : Trace) (k : Call) (result : k.Result) : Prop :=
  (⟨k, .ok result⟩ : Exchange Call fun k => Answer k.Result) ∈ t

theorem answered_concat (t : Trace) (k : Call) (result : k.Result) :
    Answered (t ++ [⟨k, .ok result⟩]) k result := List.mem_append_right _ List.mem_cons_self

theorem Answered.concat {t : Trace} {k : Call} {result : k.Result} (h : Answered t k result)
    (x : Exchange Call fun k => Answer k.Result) : Answered (t ++ [x]) k result :=
  List.mem_append_left _ h

/-- The station that the message is for. -/
inductive Names (g : Gateway) (msg : GwProto.Message) : String → Prop
  | sample {data : List (String × Json)} {stationName : String}
    (htype : msg.msgType = .sensorSample) (hdata : msg.metadata = .obj data)
    (hname : g.str (Json.get data "station_name") = .ok stationName) : Names g msg stationName
  | chunk {m : GwProto.VideoChunkMeta} {body : List UInt8} (htype : msg.msgType = .videoChunk)
    (hparsed : parseVideoChunk g.json msg.payload = .ok (m, body)) : Names g msg m.stationName

/-- The message is a chunk of the video. -/
structure IsChunk (g : Gateway) (msg : GwProto.Message) (key : Json.Key)
    (m : GwProto.VideoChunkMeta) (body : List UInt8) : Prop where
  isType : msg.msgType = .videoChunk
  parsed : parseVideoChunk g.json msg.payload = .ok (m, body)
  video : m.videoId.key? = some key

/-- The message completes the video. -/
structure Completes (msg : GwProto.Message) (key : Json.Key) : Prop where
  isType : msg.msgType = .videoComplete
  video : ∃ fields, msg.metadata = .obj fields ∧ (Json.get fields "video_id").key? = some key

/-- Why the handler of the message calls, after what was answered. -/
inductive Justified (g : Gateway) (msg : GwProto.Message) (s : Wire.Buffers) (t : Trace) :
    Call → Prop
  | lookup (stationName : String) : Justified g msg s t (.lookupByName stationName)
  | log (entry : LogEntry) : Justified g msg s t (.insertLog entry)
  /-- The name is that of no station. -/
  | request {stationName : String} (hnames : Names g msg stationName) (hne : stationName ≠ "")
    (hlookup : Answered t (.lookupByName stationName) none) :
    Justified g msg s t (.upsert stationName)
  /-- The message has a sample for a station that was found. -/
  | sample {data : List (String × Json)} {stationName stationId : String} {row : SampleInsert}
    (htype : msg.msgType = .sensorSample) (hdata : msg.metadata = .obj data)
    (hname : g.str (Json.get data "station_name") = .ok stationName)
    (hlookup : Answered t (.lookupByName stationName) (some stationId))
    (hrow : g.sampleOf stationId data = .ok row) : Justified g msg s t (.insertSample row)
  /-- The buffer is complete. -/
  | save {key : Json.Key} {buf : Wire.Buffer} (hnames : Completes msg key)
    (hbuf : s.find? key = some (key, buf)) (hcomplete : buf.isComplete = true) :
    Justified g msg s t (.assembleAndSave buf)
  /-- Its file is saved. -/
  | video {key : Json.Key} {buf : Wire.Buffer} {path : String} {capturedAt : Option Int}
    {row : VideoInsert} (hnames : Completes msg key)
    (hbuf : s.find? key = some (key, buf)) (hcomplete : buf.isComplete = true)
    (hsaved : Answered t (.assembleAndSave buf) path)
    (hcaptured : g.parseIso buf.capturedAt = .ok capturedAt)
    (hrow : g.videoOf buf path capturedAt = .ok row) : Justified g msg s t (.insertVideo row)

/-- A call has its reason, and nothing was inserted before it. -/
def Asked (g : Gateway) (msg : GwProto.Message) (s : Wire.Buffers) (t : Trace) (k : Call) : Prop :=
  kinds t = [] ∧ Justified g msg s t k

/-- A `VIDEO_COMPLETE` with these metadata has a video id. -/
def namesVideo : Json → Bool
  | .obj fields => (Json.get fields "video_id").truthy
  | _ => false

/-- The message is refused without an entry in the log. -/
def refusedUnread (msg : GwProto.Message) : Bool :=
  match msg.msgType with
  | .videoComplete => !namesVideo msg.metadata
  | .analysisResult | .alert => true
  | _ => false

/-- The table that an acknowledged message goes to. -/
def ackKinds : MessageType → List Kind
  | .sensorSample => [.sample]
  | .videoComplete => [.video]
  | _ => []

/-- What is inserted for a message that ends like this. -/
def expected (msg : GwProto.Message) : Except Exc (Option Response) → List Kind
  | .error _ => []
  | .ok none => if msg.msgType = .error then [.log] else []
  | .ok (some .ack) => ackKinds msg.msgType
  | .ok (some (.error _)) => if refusedUnread msg then [] else [.log]

/-- A buffer after the message is one from before it, or the chunk in the
message went into it, and its station was looked up unless the buffer was
there. -/
def Remembers (g : Gateway) (msg : GwProto.Message) (t : Trace) (s s' : Wire.Buffers) : Prop :=
  ∀ key buf, s'.find? key = some (key, buf) → s.find? key = some (key, buf) ∨
    ∃ m body base, IsChunk g msg key m body ∧
      (s.find? key = some (key, base) ∨
        ∃ stationId, Answered t (.lookupByName m.stationName) (some stationId) ∧
          base = Wire.Buffer.ofMeta m stationId) ∧
      (buf = base ∨ ∃ seq, m.chunkSeq.key? = some seq ∧ buf = base.add seq body)

theorem Remembers.refl {g : Gateway} {msg : GwProto.Message} {t : Trace} {s : Wire.Buffers} :
    Remembers g msg t s s := fun _ _ h => Or.inl h

/-- How a handler with a reply ends. -/
def Settled (acked refused : List Kind) (t : Trace) : Except Exc Response → Prop
  | .ok .ack => kinds t = acked
  | .ok (.error _) => kinds t = refused
  | .error _ => kinds t = []

/-! ## The handlers -/

variable {g : Gateway} {msg : GwProto.Message} {t : Trace} {s s' : Wire.Buffers}

/-- The condition that a handler with a reply meets. -/
abbrev Does (g : Gateway) (msg : GwProto.Message) (s : Wire.Buffers) (acked refused : List Kind)
    (t : Trace) (h : Task Response) (s' : Wire.Buffers) : Prop :=
  Handler.Meets (Asked g msg s) (fun t' r s'' => Settled acked refused t' r ∧
    Remembers g msg t' s s'') t h s'

theorem unknownStation_does {acked : List Kind} {messageType stationName : String}
    (hnames : Names g msg stationName) (hkinds : kinds t = [])
    (hlookup : Answered t (.lookupByName stationName) none)
    (hs : ∀ t', Remembers g msg t' s s') :
    Does g msg s acked [.log] t (unknownStation messageType stationName) s' := by
  unfold unknownStation
  by_cases hname : stationName = ""
  · simp [upsert, hname, Raises, Asked, Settled, hkinds, kindOf, Call.kind?, hs, Justified.log]
  · have hrequest : Justified g msg s t (.upsert stationName) := .request hnames hname hlookup
    simp [upsert, hname, Raises, Asked, Settled, hkinds, kindOf, Call.kind?, hs, hrequest,
      Justified.log]

theorem storeSample_does {data : List (String × Json)} {stationName stationId : String}
    (htype : msg.msgType = .sensorSample) (hdata : msg.metadata = .obj data)
    (hname : g.str (Json.get data "station_name") = .ok stationName)
    (hkinds : kinds t = [])
    (hlookup : Answered t (.lookupByName stationName) (some stationId)) :
    Does g msg s [.sample] [.log] t (storeSample g stationId data) s := by
  unfold storeSample
  have hcatch : ∀ (t' : Trace) (exc : Exc), kinds t' = [] →
      Does g msg s [.sample] [.log] t' (badPayload stationId exc) s := by
    intro t' exc ht'
    unfold badPayload
    cases hbad : exc.isBadPayload <;>
      simp [Raises, Asked, Settled, ht', kindOf, Call.kind?, Remembers.refl, Justified.log]
  cases hrow : g.sampleOf stationId data with
  | error exc =>
    simp only [Handler.meets_tryCatch, Handler.meets_bind, Handler.meets_ofExcept,
      Handler.ended_error]
    exact hcatch t exc hkinds
  | ok row =>
    have hask := Justified.sample (s := s) htype hdata hname hlookup hrow
    simp only [Handler.meets_tryCatch, Handler.meets_bind, Handler.meets_ofExcept,
      Handler.ended_ok, meets_insertSample, Handler.meets_pure, Raises, Handler.ended_error]
    refine ⟨⟨hkinds, hask⟩, ?_, ?_, ?_⟩
    · simp [Settled, hkinds, kindOf, Call.kind?, Remembers.refl]
    · intro exc
      exact hcatch _ exc (by simp [hkinds, kindOf])
    · intro text
      exact hcatch _ _ (by simp [hkinds, kindOf])

theorem handleSample_does (htype : msg.msgType = .sensorSample) :
    Does g msg s [.sample] [.log] [] (handleSample g msg) s := by
  have hrefuse : ∀ errorMessage reason : String, Does g msg s [.sample] [.log] []
      (do
        insertLog none "SENSOR_SAMPLE" errorMessage
        return .error reason) s := by
    intro errorMessage reason
    simp [Raises, Asked, Settled, kindOf, Call.kind?, Remembers.refl, Justified.log]
  unfold handleSample
  split
  · next data hdata =>
    dsimp only
    split
    · exact hrefuse _ _
    · cases hname : g.str (Json.get data "station_name") with
      | error exc =>
        simp [Settled, Remembers.refl]
      | ok stationName =>
        simp only [Handler.meets_bind, Handler.meets_ofExcept, Handler.ended_ok,
          meets_lookupByName, Raises, Handler.ended_error]
        refine ⟨⟨rfl, .lookup stationName⟩, ?_, ?_, ?_⟩
        · intro result
          have hanswered := answered_concat [] (.lookupByName stationName) result
          cases result with
          | none =>
            exact unknownStation_does (.sample htype hdata hname) (by simp [kindOf, Call.kind?])
              hanswered fun _ => .refl
          | some stationId =>
            exact storeSample_does htype hdata hname (by simp [kindOf, Call.kind?]) hanswered
        · simp [Settled, kindOf, Remembers.refl]
        · simp [Settled, kindOf, Remembers.refl]
  · exact hrefuse _ _

theorem malformedChunk_does (exc : String) :
    Does g msg s [] [.log] [] (malformedChunk exc) s := by
  unfold malformedChunk
  simp [Raises, Asked, Settled, kindOf, Call.kind?, Remembers.refl, Justified.log]

/-- A chunk goes into the buffer that is there, or into the one that was just
opened. -/
theorem storeChunk_does {refused : List Kind} {m : GwProto.VideoChunkMeta} {body : List UInt8}
    {key : Json.Key} {base : Wire.Buffer} (hchunk : IsChunk g msg key m body)
    (hkinds : kinds t = [])
    (hbase : s.find? key = some (key, base) ∨
      ∃ stationId, Answered t (.lookupByName m.stationName) (some stationId) ∧
        base = Wire.Buffer.ofMeta m stationId)
    (hs : ∀ key' buf, s'.find? key' = some (key', buf) →
      s.find? key' = some (key', buf) ∨ key' = key ∧ buf = base) :
    Does g msg s [] refused t (storeChunk key base m.chunkSeq body) s' := by
  unfold storeChunk
  cases hseq : Gateway.hashed m.chunkSeq with
  | error exc =>
    simp only [Handler.meets_bind, Handler.meets_ofExcept, Handler.ended_error]
    refine ⟨hkinds, fun key' buf hbuf => ?_⟩
    rcases hs key' buf hbuf with hold | ⟨rfl, rfl⟩
    · exact Or.inl hold
    · exact Or.inr ⟨m, body, buf, hchunk, hbase, Or.inl rfl⟩
  | ok seq =>
    simp only [Handler.meets_bind, Handler.meets_ofExcept, Handler.ended_ok,
      Handler.meets_modify, Handler.meets_pure]
    refine ⟨hkinds, fun key' buf hbuf => ?_⟩
    rw [Table.find?_upsert] at hbuf
    split at hbuf
    · next heq =>
      obtain ⟨rfl, rfl⟩ := Prod.mk.inj (Option.some.inj hbuf)
      exact Or.inr ⟨m, body, base, hchunk, hbase,
        Or.inr ⟨seq, Gateway.hashed_eq_ok.mp hseq, rfl⟩⟩
    · rcases hs key' buf hbuf with hold | ⟨rfl, -⟩
      · exact Or.inl hold
      · contradiction

theorem handleChunk_does (htype : msg.msgType = .videoChunk) :
    Does g msg s [] [.log] [] (handleChunk g msg) s := by
  unfold handleChunk
  split
  · exact malformedChunk_does _
  · exact malformedChunk_does _
  · exact ⟨rfl, .refl⟩
  · exact ⟨rfl, .refl⟩
  · next m body hmeta =>
    cases hkey : m.videoId.key? with
    | none => simp [Gateway.hashed, hkey, Settled, Remembers.refl]
    | some key =>
      have hchunk : IsChunk g msg key m body := ⟨htype, hmeta, hkey⟩
      simp only [Gateway.hashed, hkey, Handler.meets_bind, Handler.meets_ofExcept,
        Handler.ended_ok, Handler.meets_get]
      cases hfind : s.find? key with
      | some row =>
        obtain ⟨-, rfl⟩ := Table.find?_eq_some_iff.mp hfind
        exact storeChunk_does hchunk rfl (Or.inl hfind) fun _ _ hbuf => Or.inl hbuf
      | none =>
        simp only [Handler.meets_bind, meets_lookupByName, Raises, Handler.ended_ok,
          Handler.ended_error]
        refine ⟨⟨rfl, .lookup _⟩, ?_, ?_, ?_⟩
        · intro result
          have hanswered := answered_concat [] (.lookupByName m.stationName) result
          cases result with
          | none =>
            exact unknownStation_does (.chunk htype hmeta) (by simp [kindOf, Call.kind?])
              hanswered fun _ => .refl
          | some stationId =>
            simp only [Handler.meets_bind, Handler.meets_modify, Handler.ended_ok]
            refine storeChunk_does hchunk (by simp [kindOf, Call.kind?])
              (Or.inr ⟨stationId, hanswered, rfl⟩) fun key' buf hbuf => ?_
            obtain ⟨hmem, hkey'⟩ := Table.find?_eq_some_iff.mp hbuf
            rcases Table.mem_insert.mp hmem with hmem | ⟨heq, -⟩
            · exact Or.inl (Table.find?_eq_some_iff.mpr ⟨hmem, hkey'⟩)
            · exact Or.inr (Prod.mk.inj heq)
        · simp [Settled, kindOf, Remembers.refl]
        · simp [Settled, kindOf, Remembers.refl]

/-- What `pop` leaves was there before. -/
theorem remembers_pop {key : Json.Key} :
    Remembers g msg t s (s.deleteWhere fun row => decide (row.1 = key)) := by
  intro key' buf hbuf
  rw [Table.find?_deleteWhere_key] at hbuf
  split at hbuf
  · contradiction
  · exact Or.inl hbuf

theorem completeVideo_does {key : Json.Key} {buf : Wire.Buffer}
    (hnames : Completes msg key) (hbuf : s.find? key = some (key, buf))
    (hcomplete : buf.isComplete = true) :
    Does g msg s [.video] [.log] [] (completeVideo g key buf) s := by
  have hcatch : ∀ (t' : Trace) (exc : Exc), kinds t' = [] →
      Does g msg s [.video] [.log] t' (saveFailed key buf exc) s := by
    intro t' exc ht'
    simp [saveFailed, pop, Raises, Asked, Settled, ht', kindOf, Call.kind?, Remembers.refl,
      remembers_pop, Justified.log]
  unfold completeVideo saveVideo
  simp only [Handler.meets_tryCatch, Handler.meets_bind, meets_assembleAndSave, Raises,
    Handler.ended_ok, Handler.ended_error]
  refine ⟨⟨rfl, .save hnames hbuf hcomplete⟩, ?_, fun exc => hcatch _ exc rfl,
    fun text => hcatch _ (.other text) rfl⟩
  intro path
  have hsaved := answered_concat [] (.assembleAndSave buf) path
  cases hcaptured : g.parseIso buf.capturedAt with
  | error exc =>
    simp only [Handler.meets_ofExcept, Handler.ended_error]
    exact hcatch _ exc rfl
  | ok capturedAt =>
    simp only [Handler.meets_ofExcept, Handler.ended_ok]
    cases hrow : g.videoOf buf path capturedAt with
    | error exc =>
      simp only [Handler.ended_error]
      exact hcatch _ exc rfl
    | ok row =>
      have hask := Justified.video hnames hbuf hcomplete hsaved hcaptured hrow
      simp only [Handler.ended_ok, meets_insertVideo, Raises, Handler.ended_error, pop,
        Handler.meets_modify, Handler.meets_pure]
      exact ⟨⟨rfl, hask⟩, ⟨rfl, remembers_pop⟩, fun exc => hcatch _ exc rfl,
        fun text => hcatch _ (.other text) rfl⟩

theorem handleComplete_does (htype : msg.msgType = .videoComplete) :
    Does g msg s [.video] (if refusedUnread msg then [] else [.log]) [] (handleComplete g msg)
      s := by
  have hrefused : refusedUnread msg = !namesVideo msg.metadata := by
    rw [refusedUnread, htype]
  rw [hrefused]
  unfold handleComplete
  cases hmetadata : msg.metadata with
  | obj fields =>
    dsimp only [namesVideo]
    by_cases htruthy : (Json.get fields "video_id").truthy = true
    · simp only [htruthy, Bool.not_true, Bool.false_eq_true, if_false]
      have hlogged : ∀ (stationId : Option String) (errorMessage reason : String),
          Does g msg s [.video] [.log] []
            (do
              insertLog stationId "VIDEO_COMPLETE" errorMessage
              return .error reason) s := by
        intro stationId errorMessage reason
        simp [Raises, Asked, Settled, kindOf, Call.kind?, Remembers.refl, Justified.log]
      cases hkey : Gateway.hashed (Json.get fields "video_id") with
      | error exc =>
        simp only [Handler.meets_bind, Handler.meets_ofExcept, Handler.ended_error]
        exact ⟨rfl, .refl⟩
      | ok key =>
        simp only [Handler.meets_bind, Handler.meets_ofExcept, Handler.ended_ok, Handler.meets_get]
        cases hfind : s.find? key with
        | none =>
          cases htext : g.str (Json.get fields "video_id") with
          | error exc =>
            simp only [Handler.meets_bind, Handler.meets_ofExcept, Handler.ended_error]
            exact ⟨rfl, .refl⟩
          | ok text => exact hlogged _ _ _
        | some row =>
          obtain ⟨-, rfl⟩ := Table.find?_eq_some_iff.mp hfind
          dsimp only
          cases hcomplete : row.2.isComplete with
          | true =>
            have hnames : Completes msg row.1 :=
              ⟨htype, fields, hmetadata, Gateway.hashed_eq_ok.mp hkey⟩
            exact completeVideo_does hnames hfind hcomplete
          | false =>
            cases htotal : g.str row.2.totalChunks with
            | error exc =>
              simp only [Bool.false_eq_true, if_false, Handler.meets_bind, Handler.meets_ofExcept,
                Handler.ended_error]
              exact ⟨rfl, .refl⟩
            | ok total => exact hlogged _ _ _
    · rw [Bool.not_eq_true] at htruthy
      simp only [htruthy, Bool.not_false, if_true]
      exact ⟨rfl, .refl⟩
  | _ => exact ⟨rfl, .refl⟩

/-- An `ERROR` is written into the log. -/
theorem handleError_meets :
    Handler.Meets (Asked g msg s)
      (Handler.Ended (fun t' _ s' => kinds t' = [.log] ∧ s' = s)
        fun t' _ s' => kinds t' = [] ∧ s' = s) [] (handleError g msg) s := by
  have hlog : ∀ errorMessage : String, Handler.Meets (Asked g msg s)
      (Handler.Ended (fun t' _ s' => kinds t' = [.log] ∧ s' = s)
        fun t' _ s' => kinds t' = [] ∧ s' = s) [] (insertLog none "ERROR" errorMessage) s := by
    intro errorMessage
    simp [Raises, Asked, kindOf, Call.kind?, Justified.log]
  unfold handleError
  split
  · next field fields hfields =>
    cases hreason : g.str (((field :: fields).lookup "error").getD (.str "")) with
    | error exc => simp
    | ok reason => exact hlog reason
  · exact hlog _

/-- What a handler with a reply does, the message does. -/
theorem reply_meets {acked refused : List Kind} {h : Task Response}
    (hdoes : Does g msg s acked refused [] h s) (hacked : acked = ackKinds msg.msgType)
    (hrefused : refused = if refusedUnread msg then [] else [.log]) :
    Handler.Meets (Asked g msg s)
      (fun t r s' => kinds t = expected msg r ∧ Remembers g msg t s s') []
      (do
        let response ← h
        return some response) s := by
  rw [Handler.meets_bind]
  refine Handler.Meets.mono (fun _ _ hask => hask) ?_ hdoes
  rintro t' (exc | response) s' ⟨hsettled, hremembers⟩
  · exact ⟨hsettled, hremembers⟩
  · cases response with
    | ack => exact ⟨hsettled.trans hacked, hremembers⟩
    | error reason => exact ⟨hsettled.trans hrefused, hremembers⟩

/-- Whatever is answered, the handler of a message calls for a reason, inserts
what goes with its reply and changes the buffers by its chunk. -/
theorem dispatch_meets (g : Gateway) (msg : GwProto.Message) (s : Wire.Buffers) :
    Handler.Meets (Asked g msg s)
      (fun t r s' => kinds t = expected msg r ∧ Remembers g msg t s s') [] (dispatch g msg) s := by
  unfold dispatch
  cases htype : msg.msgType with
  | videoChunk =>
    refine reply_meets (handleChunk_does htype) ?_ ?_
    · rw [htype]
      rfl
    · rw [refusedUnread, htype]
      rfl
  | videoComplete =>
    refine reply_meets (handleComplete_does htype) ?_ rfl
    rw [htype]
    rfl
  | sensorSample =>
    refine reply_meets (handleSample_does htype) ?_ ?_
    · rw [htype]
      rfl
    · rw [refusedUnread, htype]
      rfl
  | heartbeat => simp [expected, ackKinds, htype, Remembers.refl]
  | ack => simp [expected, htype, Remembers.refl]
  | analysisResult => simp [expected, refusedUnread, htype, Remembers.refl]
  | alert => simp [expected, refusedUnread, htype, Remembers.refl]
  | error =>
    dsimp only
    rw [Handler.meets_bind]
    refine Handler.Meets.mono (fun _ _ hask => hask) ?_ handleError_meets
    rintro t' (exc | ⟨⟩) s' ⟨hkinds, rfl⟩
    · exact ⟨hkinds, .refl⟩
    · refine ⟨?_, .refl⟩
      rw [hkinds, expected, if_pos htype]

end DustMonitoring.Ingestion.Standard
