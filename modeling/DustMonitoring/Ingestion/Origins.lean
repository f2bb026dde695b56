import DustMonitoring.Ingestion.Books
import DustMonitoring.Lib.Fallible

/-!
# Where the rows of the gateway come from

Whatever the connections, the admin UI and the cleaner do in between, a row that
the gateway has written goes back to messages that have come before it.  A
message that has come is an `Arrival`, which splits the run.

The tables can change between two calls of a handler, so a station that was
looked up may be renamed or inactive when the row is written.  What is certain
is that it was active under the name at some moment since the message has come.

Main results:

* `samples_origin` -- a sample comes from one message, for a station that was
  looked up for it;
* `videos_origin` -- a video comes from chunks of one connection, for the station
  in the first of them;
* `requests_origin` -- a station is asked for only if no active station had the
  name.
-/

namespace DustMonitoring.Ingestion.Standard

open DustMonitoring.Lib DustMonitoring.GwProto

/-! ## Messages that have come -/

/-- A message of a connection, between what happened before it came and what has
happened since. -/
structure Arrival where
  before : List Event
  id : Nat
  msg : GwProto.Message
  after : List Event

namespace Arrival

def frame (a : Arrival) : Event := .frame a.id a.msg.msgType a.msg.payload

def events (a : Arrival) : List Event := a.before ++ a.frame :: a.after

/-- The frame is decoded as the message. -/
def Decoded (g : Gateway) (a : Arrival) : Prop :=
  decode g.json a.msg.msgType a.msg.payload = .ok a.msg

/-- At some moment since the message has come, the tables satisfied `P`. -/
def Since (g : Gateway) (a : Arrival) (P : Db → Prop) : Prop :=
  Sometime (step g) (fun s => P s.db) (run (step g) {} (a.before ++ [a.frame])) a.after

/-- The call was made and answered since the message has come. -/
def Exchanged (g : Gateway) (a : Arrival) (x : Exchange Call fun k => Answer k.Result) : Prop :=
  ∃ pre e post, a.after = pre ++ e :: post ∧
    x ∈ exchange (run (step g) {} (a.before ++ a.frame :: pre)) e

/-- The same message later. -/
def later (a : Arrival) (es : List Event) : Arrival := { a with after := a.after ++ es }

@[simp] theorem id_later (a : Arrival) (es : List Event) : (a.later es).id = a.id := rfl

@[simp] theorem events_later (a : Arrival) (es : List Event) :
    (a.later es).events = a.events ++ es :=
  (List.append_assoc a.before (a.frame :: a.after) es).symm

theorem Since.later {g : Gateway} {a : Arrival} {P : Db → Prop} (h : a.Since g P)
    (es : List Event) : (a.later es).Since g P := Sometime.append h es

theorem Exchanged.later {g : Gateway} {a : Arrival} {x : Exchange Call fun k => Answer k.Result}
    (h : a.Exchanged g x) (es : List Event) : (a.later es).Exchanged g x := by
  obtain ⟨pre, e, post, hafter, hx⟩ := h
  refine ⟨pre, e, post ++ es, ?_, hx⟩
  rw [Arrival.later, hafter, List.append_assoc, List.cons_append]

/-- The event after which the message is `a` made the exchange. -/
theorem exchanged_last {g : Gateway} {a : Arrival} {x : Exchange Call fun k => Answer k.Result}
    {e : Event} (hx : x ∈ exchange (run (step g) {} a.events) e) :
    (a.later [e]).Exchanged g x :=
  ⟨a.after, e, [], rfl, hx⟩

theorem mem_exchange {s : System} {e : Event} {x : Exchange Call fun k => Answer k.Result}
    (hx : x ∈ exchange s e) : ∃ c, x.2 = (s.db.perform c x.1).2 := by
  have hexchanged : ∀ id c, x ∈ s.exchanged id c → ∃ c', x.2 = (s.db.perform c' x.1).2 := by
    intro id c h
    unfold System.exchanged at h
    split at h
    · rw [List.mem_singleton.mp h]
      exact ⟨c, rfl⟩
    · contradiction
  cases e with
  | answer id c => exact hexchanged id c hx
  | close id last =>
    cases last with
    | none => contradiction
    | some c => exact hexchanged id c hx
  | connect id => contradiction
  | frame id msgType payload => contradiction
  | write w => contradiction

/-- The answer to a call is that of the tables at the time. -/
theorem Exchanged.since {g : Gateway} {a : Arrival} {x : Exchange Call fun k => Answer k.Result}
    (h : a.Exchanged g x) : a.Since g fun db => ∃ c, x.2 = (db.perform c x.1).2 := by
  obtain ⟨pre, e, post, hafter, hx⟩ := h
  refine ⟨pre, e :: post, hafter, ?_⟩
  rw [← run_append, List.append_assoc]
  exact mem_exchange hx

end Arrival

/-! ## Origins -/

/-- The buffer without what is in it. -/
def headerOf (buf : Wire.Buffer) : Wire.Buffer :=
  { buf with chunks := Table.empty, totalSize := 0 }

/-- The message has opened the buffer, for a station that was active under its
name, and the chunks in the buffer came with it or after it on its connection. -/
structure Arrival.Opened (g : Gateway) (a : Arrival) (key : Json.Key) (buf : Wire.Buffer) :
    Prop where
  decoded : a.Decoded g
  header : ∃ m body, IsChunk g a.msg key m body ∧
    headerOf buf = Wire.Buffer.ofMeta m buf.stationId ∧
    a.Since g fun db => buf.stationId ∈ db.lookups m.stationName
  chunks : ∀ row ∈ buf.chunks.rows, ∃ msg m, IsChunk g msg key m row.2 ∧
    m.chunkSeq.key? = some row.1 ∧
    Event.frame a.id msg.msgType msg.payload ∈ a.frame :: a.after

/-- The message has the sample, for a station that was active under its name. -/
structure Arrival.Samples (g : Gateway) (a : Arrival) (row : SampleInsert) : Prop where
  decoded : a.Decoded g
  isType : a.msg.msgType = .sensorSample
  sample : ∃ data stationName, a.msg.metadata = .obj data ∧
    g.str (Json.get data "station_name") = .ok stationName ∧
    g.sampleOf row.stationId data = .ok row ∧
    a.Since g fun db => row.stationId ∈ db.lookups stationName

/-- The message has opened the buffer of the video, which another message of the
connection has completed, and its file was saved. -/
def Arrival.Films (g : Gateway) (a : Arrival) (row : VideoInsert) : Prop :=
  ∃ key buf path capturedAt, a.Opened g key buf ∧ buf.isComplete = true ∧
    a.Exchanged g ⟨.assembleAndSave buf, .ok path⟩ ∧
    g.parseIso buf.capturedAt = .ok capturedAt ∧ g.videoOf buf path capturedAt = .ok row ∧
    ∃ msg, Completes msg key ∧ decode g.json msg.msgType msg.payload = .ok msg ∧
      Event.frame a.id msg.msgType msg.payload ∈ a.after

/-- The message is for a station of which there was none that is active. -/
structure Arrival.Requests (g : Gateway) (a : Arrival) (stationName : String) : Prop where
  decoded : a.Decoded g
  names : Names g a.msg stationName
  unknown : a.Since g fun db => db.lookups stationName = []

namespace Arrival

variable {g : Gateway} {a : Arrival}

theorem Opened.later {key : Json.Key} {buf : Wire.Buffer} (h : a.Opened g key buf)
    (es : List Event) : (a.later es).Opened g key buf where
  decoded := h.decoded
  header := by
    obtain ⟨m, body, hchunk, hheader, hsince⟩ := h.header
    exact ⟨m, body, hchunk, hheader, hsince.later es⟩
  chunks := by
    intro row hrow
    obtain ⟨msg, m, hchunk, hseq, hmem⟩ := h.chunks row hrow
    exact ⟨msg, m, hchunk, hseq, List.mem_append_left es hmem⟩

/-- Another chunk of the connection. -/
theorem Opened.add {key : Json.Key} {buf : Wire.Buffer} (h : a.Opened g key buf)
    {msg : GwProto.Message} {m : GwProto.VideoChunkMeta} {body : List UInt8}
    (hchunk : IsChunk g msg key m body) {seq : Json.Key} (hseq : m.chunkSeq.key? = some seq)
    (hmem : Event.frame a.id msg.msgType msg.payload ∈ a.frame :: a.after) :
    a.Opened g key (buf.add seq body) where
  decoded := h.decoded
  header := h.header
  chunks := by
    intro row hrow
    rcases Table.mem_upsert.mp hrow with rfl | ⟨hrow, -⟩
    · exact ⟨msg, m, hchunk, hseq, hmem⟩
    · exact h.chunks row hrow

theorem Samples.later {row : SampleInsert} (h : a.Samples g row) (es : List Event) :
    (a.later es).Samples g row where
  decoded := h.decoded
  isType := h.isType
  sample := by
    obtain ⟨data, stationName, hdata, hname, hrow, hsince⟩ := h.sample
    exact ⟨data, stationName, hdata, hname, hrow, hsince.later es⟩

theorem Films.later {row : VideoInsert} (h : a.Films g row) (es : List Event) :
    (a.later es).Films g row := by
  obtain ⟨key, buf, path, capturedAt, hopened, hcomplete, hsaved, hcaptured, hrow, msg, hnames,
    hdecoded, hmem⟩ := h
  exact ⟨key, buf, path, capturedAt, hopened.later es, hcomplete, hsaved.later es, hcaptured, hrow,
    msg, hnames, hdecoded, List.mem_append_left es hmem⟩

theorem Requests.later {stationName : String} (h : a.Requests g stationName) (es : List Event) :
    (a.later es).Requests g stationName where
  decoded := h.decoded
  names := h.names
  unknown := h.unknown.later es

end Arrival

/-! ## What a handler knows -/

/-- A message of the connection has opened the buffer. -/
def Kept (g : Gateway) (events : List Event) (id : Nat) (key : Json.Key) (buf : Wire.Buffer) :
    Prop :=
  ∃ a : Arrival, a.events = events ∧ a.id = id ∧ a.Opened g key buf

theorem Kept.later {g : Gateway} {events : List Event} {id : Nat} {key : Json.Key}
    {buf : Wire.Buffer} (h : Kept g events id key buf) (es : List Event) :
    Kept g (events ++ es) id key buf := by
  obtain ⟨a, rfl, rfl, hopened⟩ := h
  exact ⟨a.later es, a.events_later es, rfl, hopened.later es⟩

/-- The handler of the message started with the buffers `s`, and has made its
calls since then. -/
structure Arrival.Handling (g : Gateway) (a : Arrival) (s : Wire.Buffers) (past : Trace) :
    Prop where
  decoded : a.Decoded g
  kept : ∀ key buf, s.find? key = some (key, buf) → Kept g a.before a.id key buf
  exchanged : ∀ x ∈ past, a.Exchanged g x

theorem map_eq_ok {β γ : Type} {f : β → γ} {answer : Answer β} {c : γ}
    (h : answer.map f = .ok c) : ∃ b, f b = c := by
  cases answer with
  | ok b => exact ⟨b, Answer.ok.inj h⟩
  | failed exc => contradiction
  | lost text => contradiction

theorem lookups_of_some {db : Db} {c : Circumstance} {stationName stationId : String}
    (h : (db.perform c (.lookupByName stationName)).2 = .ok (some stationId)) :
    stationId ∈ db.lookups stationName := by
  obtain ⟨-, hfound⟩ := map_eq_ok h
  exact List.mem_of_getElem? hfound

theorem lookups_of_none {db : Db} {c : Circumstance} {stationName : String}
    (h : (db.perform c (.lookupByName stationName)).2 = .ok none) :
    db.lookups stationName = [] := by
  obtain ⟨-, hfound⟩ := map_eq_ok h
  by_contra hne
  have hpos : 0 < (db.lookups stationName).length := List.length_pos_iff.mpr hne
  have hlt := Nat.mod_lt c.scan hpos
  have hle := List.getElem?_eq_none_iff.mp hfound
  omega

namespace Arrival

variable {g : Gateway} {a : Arrival} {s : Wire.Buffers} {past : Trace}

theorem Handling.later (h : a.Handling g s past) (es : List Event) :
    (a.later es).Handling g s past where
  decoded := h.decoded
  kept := h.kept
  exchanged := fun x hx => (h.exchanged x hx).later es

/-- The next call of the handler is answered. -/
theorem Handling.answer (h : a.Handling g s past) {e : Event}
    {x : Exchange Call fun k => Answer k.Result}
    (hx : x ∈ exchange (run (step g) {} a.events) e) :
    (a.later [e]).Handling g s (past ++ [x]) where
  decoded := h.decoded
  kept := h.kept
  exchanged := by
    intro y hy
    rcases List.mem_append.mp hy with hy | hy
    · exact (h.exchanged y hy).later [e]
    · rw [List.mem_singleton.mp hy]
      exact exchanged_last hx

theorem Handling.found (h : a.Handling g s past) {stationName stationId : String}
    (hanswered : Answered past (.lookupByName stationName) (some stationId)) :
    a.Since g fun db => stationId ∈ db.lookups stationName :=
  (h.exchanged _ hanswered).since.mono fun _ ⟨_, hr⟩ => lookups_of_some hr.symm

theorem Handling.missed (h : a.Handling g s past) {stationName : String}
    (hanswered : Answered past (.lookupByName stationName) none) :
    a.Since g fun db => db.lookups stationName = [] :=
  (h.exchanged _ hanswered).since.mono fun _ ⟨_, hr⟩ => lookups_of_none hr.symm

/-- The buffers that the message leaves were opened by messages of the
connection. -/
theorem Handling.remembers (h : a.Handling g s past) {s' : Wire.Buffers}
    (hremembers : Remembers g a.msg past s s') {key : Json.Key} {buf : Wire.Buffer}
    (hbuf : s'.find? key = some (key, buf)) : Kept g a.events a.id key buf := by
  rcases hremembers key buf hbuf with hold | ⟨m, body, base, hchunk, hbase, hadd⟩
  · exact (h.kept key buf hold).later _
  · have hkept : ∃ a' : Arrival, a'.events = a.events ∧ a'.id = a.id ∧ a'.Opened g key base ∧
        a.frame ∈ a'.frame :: a'.after := by
      rcases hbase with hold | ⟨stationId, hanswered, rfl⟩
      · obtain ⟨a', hevents, hid, hopened⟩ := h.kept key base hold
        refine ⟨a'.later (a.frame :: a.after), ?_, hid, hopened.later _, ?_⟩
        · rw [events_later, hevents]
          rfl
        · exact List.mem_cons_of_mem _ (List.mem_append_right _ List.mem_cons_self)
      · refine ⟨a, rfl, rfl, ⟨h.decoded, ⟨m, body, hchunk, rfl, h.found hanswered⟩, ?_⟩,
          List.mem_cons_self⟩
        exact fun row hrow => absurd hrow List.not_mem_nil
    obtain ⟨a', hevents, hid, hopened, hmem⟩ := hkept
    rcases hadd with rfl | ⟨seq, hseq, rfl⟩
    · exact ⟨a', hevents, hid, hopened⟩
    · refine ⟨a', hevents, hid, hopened.add hchunk hseq ?_⟩
      rw [hid]
      exact hmem

theorem stationId_sampleOf {stationId : String} {data : List (String × Json)}
    {row : SampleInsert} (h : g.sampleOf stationId data = .ok row) :
    row.stationId = stationId := by
  obtain ⟨time, -, h⟩ := bind_eq_ok.mp h
  obtain ⟨sampledAt, -, h⟩ := bind_eq_ok.mp h
  obtain ⟨type, -, h⟩ := bind_eq_ok.mp h
  obtain ⟨measurementType, -, h⟩ := bind_eq_ok.mp h
  obtain ⟨number, -, h⟩ := bind_eq_ok.mp h
  obtain ⟨value, -, h⟩ := bind_eq_ok.mp h
  obtain ⟨label, -, h⟩ := bind_eq_ok.mp h
  obtain ⟨unit, -, h⟩ := bind_eq_ok.mp h
  rw [← Except.ok.inj h]

/-- A sample that the handler inserts. -/
theorem Handling.samples (h : a.Handling g s past) {row : SampleInsert}
    (hjustified : Justified g a.msg s past (.insertSample row)) : a.Samples g row := by
  cases hjustified with
  | @sample data stationName stationId _ htype hdata hname hlookup hrow =>
    have hid : row.stationId = stationId := stationId_sampleOf hrow
    rw [← hid] at hlookup hrow
    exact ⟨h.decoded, htype, data, stationName, hdata, hname, hrow, h.found hlookup⟩

/-- A video that the handler inserts. -/
theorem Handling.films (h : a.Handling g s past) {row : VideoInsert}
    (hjustified : Justified g a.msg s past (.insertVideo row)) :
    ∃ a' : Arrival, a'.events = a.events ∧ a'.Films g row := by
  cases hjustified with
  | @video key buf path capturedAt _ hnames hbuf hcomplete hsaved hcaptured hrow =>
    obtain ⟨a', hevents, hid, hopened⟩ := h.kept key buf hbuf
    have hexchanged : (a'.later (a.frame :: a.after)).Exchanged g
        ⟨.assembleAndSave buf, .ok path⟩ := by
      obtain ⟨pre, e, post, hafter, hx⟩ := h.exchanged _ hsaved
      refine ⟨a'.after ++ a.frame :: pre, e, post, ?_, ?_⟩
      · rw [Arrival.later, hafter, List.append_assoc, List.cons_append]
      · rw [← hevents, events, List.append_assoc, List.cons_append] at hx
        exact hx
    refine ⟨a'.later (a.frame :: a.after), ?_, key, buf, path, capturedAt, hopened.later _,
      hcomplete, hexchanged, hcaptured, hrow, a.msg, hnames, h.decoded, ?_⟩
    · rw [events_later, hevents]
      rfl
    · rw [id_later, hid]
      exact List.mem_append_right _ List.mem_cons_self

/-- A station that the handler asks for. -/
theorem Handling.requests (h : a.Handling g s past) {stationName : String}
    (hjustified : Justified g a.msg s past (.upsert stationName)) :
    stationName ≠ "" ∧ a.Requests g stationName := by
  cases hjustified with
  | request hnames hne hlookup => exact ⟨hne, h.decoded, hnames, h.missed hlookup⟩

end Arrival

/-! ## The rows -/

/-- Every row of the tables goes back to a message of the run. -/
structure Accounted (g : Gateway) (events : List Event) (db : Db) : Prop where
  samples : ∀ row ∈ db.sensorSample.rows,
    ∃ a : Arrival, a.events = events ∧ a.Samples g row.toSampleInsert
  videos : ∀ row ∈ db.video.rows, ∃ a : Arrival, a.events = events ∧ a.Films g row
  requests : ∀ row ∈ db.stationRequest.rows, row.stationName ≠ "" ∧
    ∃ a : Arrival, a.events = events ∧ a.Requests g row.stationName

theorem Accounted.later {g : Gateway} {events : List Event} {db : Db}
    (h : Accounted g events db) (es : List Event) : Accounted g (events ++ es) db where
  samples := by
    intro row hrow
    obtain ⟨a, rfl, hsamples⟩ := h.samples row hrow
    exact ⟨a.later es, a.events_later es, hsamples.later es⟩
  videos := by
    intro row hrow
    obtain ⟨a, rfl, hfilms⟩ := h.videos row hrow
    exact ⟨a.later es, a.events_later es, hfilms.later es⟩
  requests := by
    intro row hrow
    obtain ⟨hne, a, rfl, hrequests⟩ := h.requests row hrow
    exact ⟨hne, a.later es, a.events_later es, hrequests.later es⟩

/-- Tables with rows that were accounted for already. -/
theorem Accounted.of_subset {g : Gateway} {events : List Event} {db db' : Db}
    (h : Accounted g events db)
    (hsamples : ∀ row ∈ db'.sensorSample.rows, row ∈ db.sensorSample.rows)
    (hvideos : ∀ row ∈ db'.video.rows, row ∈ db.video.rows)
    (hrequests : ∀ row ∈ db'.stationRequest.rows, db.stationRequest.Has row.stationName) :
    Accounted g events db' where
  samples := fun row hrow => h.samples row (hsamples row hrow)
  videos := fun row hrow => h.videos row (hvideos row hrow)
  requests := by
    intro row hrow
    obtain ⟨row', hrow', hname⟩ := hrequests row hrow
    rw [← hname]
    exact h.requests row' hrow'

/-- The admin UI and the cleaner write no sample, no video and no new request. -/
theorem Accounted.write {g : Gateway} {events : List Event} {db : Db} (h : Accounted g events db)
    (w : Write) : Accounted g events (db.write w) := by
  have hrows : ∀ row ∈ db.stationRequest.rows, db.stationRequest.Has row.stationName :=
    fun row hrow => ⟨row, hrow, rfl⟩
  cases w with
  | createStation row => exact h.of_subset (fun _ hr => hr) (fun _ hr => hr) hrows
  | patchStation stationId stationName status =>
    exact h.of_subset (fun _ hr => hr) (fun _ hr => hr) hrows
  | deleteStation stationId =>
    dsimp only [Db.write]
    split
    · exact h
    · exact h.of_subset (fun _ hr => hr) (fun _ hr => hr) hrows
  | setRequest stationName status =>
    refine h.of_subset (fun _ hr => hr) (fun _ hr => hr) fun row hrow => ?_
    dsimp only [Db.write] at hrow
    exact Table.has_of_mem_updateWhere hrow
  | deleteSamples p =>
    exact h.of_subset (fun _ hr => (Table.mem_deleteWhere.mp hr).1) (fun _ hr => hr) hrows
  | deleteVideos p =>
    exact h.of_subset (fun _ hr => hr) (fun _ hr => (Table.mem_deleteWhere.mp hr).1) hrows
  | deleteLogs p => exact h.of_subset (fun _ hr => hr) (fun _ hr => hr) hrows

/-- A call writes a row only if it is there to. -/
theorem Accounted.perform {g : Gateway} {a : Arrival} {s : Wire.Buffers} {past : Trace} {db : Db}
    (h : Accounted g a.events db) (hhandling : a.Handling g s past) {k : Call}
    (hjustified : Justified g a.msg s past k) (c : Circumstance) :
    Accounted g a.events (db.perform c k).1 := by
  have hwrite : ∀ (after : Db) (violated : Option String), Accounted g a.events after →
      Accounted g a.events (c.write db after violated).1 := by
    intro after violated hafter
    unfold Circumstance.write
    cases violated with
    | some text => exact h
    | none =>
      dsimp only
      split
      · exact hafter
      · exact h
  cases k with
  | lookupByName stationName => exact h
  | assembleAndSave buf => exact h
  | upsert stationName =>
    refine hwrite _ _ ⟨h.samples, h.videos, fun row hrow => ?_⟩
    have hname : db.stationRequest.Has row.stationName ∨ row.stationName = stationName := by
      dsimp only [Db.upsertRequest] at hrow
      split at hrow
      · exact Or.inl (Table.has_of_mem_updateWhere hrow)
      · exact Table.has_insert.mp ⟨row, hrow, rfl⟩
    rcases hname with ⟨row', hrow', hname⟩ | rfl
    · rw [← hname]
      exact h.requests row' hrow'
    · obtain ⟨hne, hrequests⟩ := hhandling.requests hjustified
      exact ⟨hne, a, rfl, hrequests⟩
  | insertLog entry => exact hwrite _ _ ⟨h.samples, h.videos, h.requests⟩
  | insertSample row =>
    refine hwrite _ _ ⟨fun r hr => ?_, h.videos, h.requests⟩
    dsimp only at hr
    rcases SerialTable.mem_append.mp hr with hr | rfl
    · exact h.samples r hr
    · exact ⟨a, rfl, hhandling.samples hjustified⟩
  | insertVideo row =>
    refine hwrite _ _ ⟨h.samples, fun r hr => ?_, h.requests⟩
    rcases Table.mem_insert.mp hr with hr | ⟨rfl, -⟩
    · exact h.videos r hr
    · exact hhandling.films hjustified

/-! ## The connections -/

/-- What a connection has, it has from its messages. -/
structure Traced (g : Gateway) (events : List Event)
    (w : Worker Nat GwProto.Message Call (fun k => Answer k.Result) Exc Wire.Buffers
      (Option Response)) : Prop where
  memory : ∀ key buf, w.memory.find? key = some (key, buf) → Kept g events w.id key buf
  busy : ∀ msg past k next, w.activity = .busy msg past k next →
    ∃ a : Arrival, a.events = events ∧ a.id = w.id ∧ a.msg = msg ∧ a.Handling g w.memory past

section Traced

variable {g : Gateway} {events : List Event} {w : Worker Nat GwProto.Message Call
  (fun k => Answer k.Result) Exc Wire.Buffers (Option Response)}

theorem Traced.later (h : Traced g events w) (es : List Event) :
    Traced g (events ++ es) w where
  memory := fun key buf hbuf => (h.memory key buf hbuf).later es
  busy := by
    intro msg past k next hbusy
    obtain ⟨a, rfl, hid, hmsg, hhandling⟩ := h.busy msg past k next hbusy
    exact ⟨a.later es, a.events_later es, hid, hmsg, hhandling.later es⟩

theorem Traced.gone (h : Traced g events w) : Traced g events { w with activity := .gone } where
  memory := h.memory
  busy := fun _ _ _ _ hbusy => nomatch hbusy

/-- The connection when a handler has come so far. -/
theorem traced_goOn {a : Arrival} {past : Trace}
    {p : Program Call (fun k => Answer k.Result) (Except Exc (Option Response) × Wire.Buffers)}
    (hid : a.id = w.id) (hhandling : a.Handling g w.memory past)
    (hmemory : ∀ key buf, w.memory.find? key = some (key, buf) → Kept g a.events w.id key buf)
    (hmeets : Program.Meets (Asked g a.msg w.memory)
      (fun t (ending : Except Exc (Option Response) × Wire.Buffers) =>
        kinds t = expected a.msg ending.1 ∧ Remembers g a.msg t w.memory ending.2) past p) :
    Traced g a.events (w.goOn a.msg past p) := by
  have hafter : ∀ memory, Remembers g a.msg past w.memory memory → ∀ key buf,
      memory.find? key = some (key, buf) → Kept g a.events w.id key buf := by
    intro memory hremembers key buf hbuf
    rw [← hid]
    exact hhandling.remembers hremembers hbuf
  rcases p with ⟨⟨exc | response, memory⟩⟩ | ⟨k, next⟩
  · exact ⟨hafter memory hmeets.2, fun _ _ _ _ hbusy => nomatch hbusy⟩
  · exact ⟨hafter memory hmeets.2, fun _ _ _ _ hbusy => nomatch hbusy⟩
  · refine ⟨hmemory, fun msg past' k' next' hbusy => ?_⟩
    cases hbusy
    exact ⟨a, rfl, hid, rfl, hhandling⟩

end Traced

/-! ## Runs -/

/-- After the events, the handlers are on their way, the connections know where
what they have comes from, and the rows are accounted for. -/
structure Known (g : Gateway) (events : List Event) (s : System) : Prop where
  onPaths : OnPaths g s
  traced : ∀ w ∈ s.connections.rows, Traced g events w
  accounted : Accounted g events s.db

variable {g : Gateway} {events : List Event}

/-- The tables after the call that a connection waits for. -/
theorem Known.performed {s : System} (h : Known g events s) (id : Nat) (c : Circumstance) :
    Accounted g events (s.performed id c) := by
  unfold System.performed System.pending
  cases hfind : s.connections.find? id with
  | none => exact h.accounted
  | some w =>
    obtain ⟨hw, -⟩ := Table.find?_eq_some_iff.mp hfind
    obtain ⟨wid, memory, activity⟩ := w
    cases activity with
    | idle => exact h.accounted
    | gone => exact h.accounted
    | busy msg past k next =>
      obtain ⟨a, rfl, -, rfl, hhandling⟩ := (h.traced _ hw).busy msg past k next rfl
      have hasked := ((h.onPaths _ hw).meets (dispatch_meets g) rfl).1
      exact h.accounted.perform hhandling hasked.2 c

theorem Known.dbAfter {s : System} (h : Known g events s) (e : Event) :
    Accounted g (events ++ [e]) (dbAfter s e) := by
  cases e with
  | connect id => exact h.accounted.later _
  | frame id msgType payload => exact h.accounted.later _
  | answer id c => exact (h.performed id c).later _
  | close id last =>
    cases last with
    | none => exact h.accounted.later _
    | some c => exact (h.performed id c).later _
  | write w => exact (h.accounted.write w).later _

theorem decode_fields {c : JsonCodec} {msgType : MessageType} {payload : List UInt8}
    {msg : GwProto.Message} (h : decode c msgType payload = .ok msg) :
    msg.msgType = msgType ∧ msg.payload = payload := by
  have hread : ∀ x : Except LoadsError Json,
      (x >>= fun metadata => pure (⟨msgType, payload, metadata⟩ : GwProto.Message)) = .ok msg →
        msg.msgType = msgType ∧ msg.payload = payload := by
    intro x hx
    obtain ⟨metadata, -, hx⟩ := bind_eq_ok.mp hx
    rw [← Except.ok.inj hx]
    exact ⟨rfl, rfl⟩
  dsimp only [decode] at h
  split at h
  · split at h <;> exact hread _ h
  · split at h <;> exact hread _ h

/-- The connections after the event. -/
theorem Known.connections {s : System} (hs : s = run (step g) {} events) (h : Known g events s)
    (e : Event) : ∀ w ∈ (step g s e).connections.rows, Traced g (events ++ [e]) w := by
  have hlater : ∀ w, Traced g events w → Traced g (events ++ [e]) w := fun w hw => hw.later _
  have hclosed : ∀ id last, ∀ w ∈ ((service g).step s.connections (.move id (.close last))).rows,
      Traced g (events ++ [e]) w := by
    intro id last
    refine Service.forall_workers_move hlater h.traced fun w hfind => ?_
    exact (hlater w (h.traced w (Table.find?_eq_some_iff.mp hfind).1)).gone
  cases e with
  | write w => exact fun w' hw => hlater w' (h.traced w' hw)
  | connect id =>
    intro w hw
    rcases Table.mem_insert.mp hw with hw | ⟨rfl, -⟩
    · exact hlater w (h.traced w hw)
    · have hempty : ∀ key buf, (service g).initial.find? key ≠ some (key, buf) :=
        fun _ _ hbuf => nomatch hbuf
      exact ⟨fun key buf hbuf => absurd hbuf (hempty key buf), fun _ _ _ _ hbusy => nomatch hbusy⟩
  | close id last => exact hclosed id _
  | frame id msgType payload =>
    dsimp only [step, serverEvents]
    split
    · next msg hdecode =>
      refine Service.forall_workers_move hlater h.traced fun w hfind => ?_
      obtain ⟨hw, rfl⟩ := Table.find?_eq_some_iff.mp hfind
      obtain ⟨rfl, rfl⟩ := decode_fields hdecode
      dsimp only [Service.moved]
      split
      · next hidle =>
        -- the message has come with this event
        have hmemory := (h.traced w hw).memory
        exact traced_goOn (a := ⟨events, w.id, msg, []⟩) rfl
          ⟨hdecode, hmemory, fun _ hx => absurd hx List.not_mem_nil⟩
          (fun key buf hbuf => (hmemory key buf hbuf).later _) (dispatch_meets g msg w.memory)
      · exact hlater w (h.traced w hw)
      · exact hlater w (h.traced w hw)
    · exact hclosed id none
  | answer id c =>
    dsimp only [step, serverEvents]
    refine Service.forall_workers_move hlater h.traced fun w hfind => ?_
    obtain ⟨hw, rfl⟩ := Table.find?_eq_some_iff.mp hfind
    dsimp only [Service.moved]
    split
    · next msg past k next hbusy =>
      obtain ⟨a, ha, hid, rfl, hhandling⟩ := (h.traced w hw).busy msg past k next hbusy
      have hnext := ((h.onPaths w hw).meets (dispatch_meets g) hbusy).2
      have hpending : s.pending w.id = some k := by
        obtain ⟨wid, memory, activity⟩ := w
        rw [System.pending, hfind]
        subst hbusy
        rfl
      have hx : (⟨k, (s.db.perform c k).2⟩ : Exchange Call fun k => Answer k.Result) ∈
          exchange (run (step g) {} a.events) (.answer w.id c) := by
        rw [ha, ← hs, exchange, System.exchanged, hpending]
        exact List.mem_singleton.mpr rfl
      have hevents : (a.later [.answer w.id c]).events = events ++ [.answer w.id c] := by
        rw [Arrival.events_later, ha]
      have hgoOn := traced_goOn (a := a.later [.answer w.id c]) hid
        (hhandling.answer hx)
        (fun key buf hbuf => by
          rw [hevents]
          exact ((h.traced w hw).memory key buf hbuf).later _)
        (hnext _)
      rw [hevents] at hgoOn
      exact hgoOn
    · exact hlater w (h.traced w hw)
    · exact hlater w (h.traced w hw)

theorem known_run (g : Gateway) (events : List Event) :
    Known g events (run (step g) {} events) := by
  have hempty : Accounted g [] {} :=
    ⟨fun _ hr => absurd hr List.not_mem_nil, fun _ hr => absurd hr List.not_mem_nil,
      fun _ hr => absurd hr List.not_mem_nil⟩
  apply run_history ⟨onPaths_init g, fun _ hw => absurd hw List.not_mem_nil, hempty⟩
  · intro events e h
    exact ⟨onPaths_step h.onPaths e, h.connections rfl e, h.dbAfter e⟩

/-! ## A visit -/

/-- A sample of the station `hall`. -/
def sampleFields : List (String × Json) :=
  [("station_name", .str "hall"), ("measurement_type", .str "dust"), ("value", .int 7),
    ("unit", .str "mg"), ("sampled_at", .str "2024-01-01T00:00:00Z")]

def sampleText : List UInt8 :=
  encodeAscii ("\x7b\"station_name\": \"hall\", \"measurement_type\": \"dust\", \"value\": 7, " ++
    "\"unit\": \"mg\", \"sampled_at\": \"2024-01-01T00:00:00Z\"\x7d")

/-- A chunk of a video of the station. -/
def chunkFields (stationName : String) : List (String × Json) :=
  [("video_id", .str "00000000-0000-0000-0000-000000000001"), ("chunk_seq", .int 0),
    ("total_chunks", .int 1), ("station_name", .str stationName)]

def chunkText (stationName : String) : List UInt8 :=
  encodeAscii ("\x7b\"video_id\": \"00000000-0000-0000-0000-000000000001\", \"chunk_seq\": 0, " ++
    "\"total_chunks\": 1, \"station_name\": \"" ++ stationName ++ "\"\x7d")

def completeText : List UInt8 :=
  encodeAscii "\x7b\"video_id\": \"00000000-0000-0000-0000-000000000001\"\x7d"

/-- The libraries on these messages. -/
def visitGateway : Gateway where
  json :=
    { dumps := fun _ => []
      loads := fun raw =>
        if raw = sampleText then .ok (.obj sampleFields)
        else if raw = chunkText "hall" then .ok (.obj (chunkFields "hall"))
        else if raw = chunkText "yard" then .ok (.obj (chunkFields "yard"))
        else if raw = completeText then
          .ok (.obj [("video_id", .str "00000000-0000-0000-0000-000000000001")])
        else .error (.jsonDecode "Expecting value")
      scalar := fun _ => ""
      nested := fun _ => none }
  floatOfStr := fun _ => .error "could not convert string to float"
  fromIsoformat := fun _ => .ok 1704067200
  decodeReplace := fun _ => ""
  dataError := fun _ => "expected str"

/-- A sample and a video of `hall`, and a chunk for a station that nobody knows. -/
def visit : List Event :=
  [.write (.createStation ⟨"00000000-0000-0000-0000-00000000000a", "hall", "active"⟩),
    .connect 0, .connect 1, .frame 0 .sensorSample sampleText, .answer 0 {}, .answer 0 {},
    .frame 0 .videoChunk (chunkText "hall" ++ newline :: [1, 2]),
    .frame 1 .videoChunk (chunkText "yard" ++ newline :: [3]), .answer 0 {}, .answer 1 {},
    .frame 0 .videoComplete completeText, .answer 0 { filePath := "/storage/1.bin" }, .answer 1 {},
    .answer 0 {}, .answer 1 {}]

set_option maxRecDepth 4000 in
theorem visit_rows : 0 < (run (step visitGateway) {} visit).db.sensorSample.rows.length ∧
    0 < (run (step visitGateway) {} visit).db.video.rows.length ∧
    0 < (run (step visitGateway) {} visit).db.stationRequest.rows.length := by
  decide +kernel

/-! ## Main results -/

/-- Every sample of a run has the values of one message, and its station was an
active one of the name in the message at some moment since the message had
come. -/
theorem samples_origin (g : Gateway) (events : List Event) :
    ∀ row ∈ (run (step g) {} events).db.sensorSample.rows,
      ∃ a : Arrival, a.events = events ∧ a.Samples g row.toSampleInsert :=
  (known_run g events).accounted.samples

theorem samples_origin_visit : ∃ row ∈ (run (step visitGateway) {} visit).db.sensorSample.rows,
    ∃ a : Arrival, a.events = visit ∧ a.Samples visitGateway row.toSampleInsert :=
  ⟨_, List.getElem_mem visit_rows.1, samples_origin visitGateway visit _ (List.getElem_mem _)⟩

/-- Every video of a run is that of a complete buffer: all its chunks and its end
came over one connection, and its station was an active one of the name in the
first chunk at some moment since that chunk had come. -/
theorem videos_origin (g : Gateway) (events : List Event) :
    ∀ row ∈ (run (step g) {} events).db.video.rows,
      ∃ a : Arrival, a.events = events ∧ a.Films g row :=
  (known_run g events).accounted.videos

theorem videos_origin_visit : ∃ row ∈ (run (step visitGateway) {} visit).db.video.rows,
    ∃ a : Arrival, a.events = visit ∧ a.Films visitGateway row :=
  ⟨_, List.getElem_mem visit_rows.2.1, videos_origin visitGateway visit _ (List.getElem_mem _)⟩

/-- Every station that is asked for was named by a message, and at some moment
since then no active station had the name. -/
theorem requests_origin (g : Gateway) (events : List Event) :
    ∀ row ∈ (run (step g) {} events).db.stationRequest.rows, row.stationName ≠ "" ∧
      ∃ a : Arrival, a.events = events ∧ a.Requests g row.stationName :=
  (known_run g events).accounted.requests

theorem requests_origin_visit : ∃ row ∈ (run (step visitGateway) {} visit).db.stationRequest.rows,
    row.stationName ≠ "" ∧
      ∃ a : Arrival, a.events = visit ∧ a.Requests visitGateway row.stationName :=
  ⟨_, List.getElem_mem visit_rows.2.2, requests_origin visitGateway visit _ (List.getElem_mem _)⟩

end DustMonitoring.Ingestion.Standard
