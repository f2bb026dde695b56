import DustMonitoring.GwProto.Framing
import DustMonitoring.Ingestion.Uploads

/-!
# The sessions of the gateway

`TcpServer` has a `SessionContext` for each connection, and `dispatch` of
`main.py` keeps an `IngestionSession` for it in the `SessionRegistry`, from the
first message on.  When the loop of a connection ends, for whatever reason,
`_cleanup_session` takes the context away.  `SessionRegistry.drop` is there for
the session, but nothing calls it.

* `forall_belongs_iff`: the sessions belong to open connections at every time
  of a run exactly when no connection ends after its first message.
-/

namespace DustMonitoring.Ingestion.Sessions

open DustMonitoring.Lib DustMonitoring.GwProto

/-! ## The registry -/

/-- A session under its id, with its peer. -/
structure Registered where
  sessionId : String
  peerAddr : String × Nat
  session : IngestionSession := {}

/-- `SessionRegistry`. -/
structure SessionRegistry where
  sessions : Table Registered.sessionId := Table.empty

namespace SessionRegistry

/-- `get_or_create`. -/
def getOrCreate (r : SessionRegistry) (sessionId : String) (peerAddr : String × Nat) :
    SessionRegistry :=
  if (r.sessions.find? sessionId).isSome then r
  else ⟨r.sessions.insert { sessionId := sessionId, peerAddr := peerAddr }⟩

/-- `drop`. -/
def drop (r : SessionRegistry) (sessionId : String) : SessionRegistry :=
  ⟨r.sessions.deleteWhere fun reg => decide (reg.sessionId = sessionId)⟩

/-- A handler changes the session that it was given. -/
def modify (r : SessionRegistry) (sessionId : String)
    (f : IngestionSession → IngestionSession) : SessionRegistry :=
  ⟨r.sessions.updateWhere (fun reg => decide (reg.sessionId = sessionId))
    (fun reg => { reg with session := f reg.session }) fun _ => rfl⟩

end SessionRegistry

/-! ## The server -/

/-- A decoded message, with what the collaborators of its handler answer. -/
inductive Incoming where
  /-- `VIDEO_CHUNK` or `VIDEO_COMPLETE`. -/
  | video (msg : Message)
  | other (type : MessageType)

/-- What `dispatch` does to the buffers of the session. -/
def dispatch (h : VideoHandler) (s : IngestionSession) : Incoming → IngestionSession
  | .video msg => step h s msg
  | .other _ => s

/-- Where the loop of a connection is. -/
inductive Phase where
  | reading
  | handling (msg : Incoming)
  /-- In the `write_frame` of the response. -/
  | responding

/-- `SessionContext`. -/
structure SessionContext where
  sessionId : String
  peer : String × Nat
  phase : Phase := .reading

/-- The `except` that the loop ends in. -/
inductive LoopExit where
  | connectionTimeout
  | framingError
  | protoError
  /-- Reset, broken or cancelled. -/
  | closed
  | exception

/-- The connections of the server and the registry. -/
structure System where
  connections : Table SessionContext.sessionId := Table.empty
  registry : SessionRegistry := {}

/-- What happens next. -/
inductive Event where
  | connect (sessionId : String) (peer : String × Nat)
  /-- A frame is read and decoded. -/
  | receive (sessionId : String) (msg : Incoming)
  /-- The handler returns. -/
  | handled (sessionId : String)
  /-- The response is written, if there is one. -/
  | responded (sessionId : String)
  /-- Reading, decoding, handling or writing raises. -/
  | exit (sessionId : String) (reason : LoopExit)

def System.setPhase (s : System) (sessionId : String) (phase : Phase) : System :=
  { s with
    connections :=
      s.connections.updateWhere (fun ctx => decide (ctx.sessionId = sessionId))
        (fun ctx => { ctx with phase := phase }) fun _ => rfl }

/-- `_cleanup_session`. -/
def System.cleanupSession (s : System) (sessionId : String) : System :=
  { s with
    connections := s.connections.deleteWhere fun ctx => decide (ctx.sessionId = sessionId) }

/-- `_on_connect` with the handler `dispatch`. -/
def act (h : VideoHandler) (s : System) : Event → System
  | .connect sessionId peer =>
    { s with connections := s.connections.upsert { sessionId := sessionId, peer := peer } }
  | .receive sessionId msg =>
    match s.connections.find? sessionId with
    | some ⟨_, peer, .reading⟩ =>
      { s with registry := s.registry.getOrCreate sessionId peer }.setPhase sessionId
        (.handling msg)
    | _ => s
  | .handled sessionId =>
    match s.connections.find? sessionId with
    | some ⟨_, _, .handling msg⟩ =>
      { s with registry := s.registry.modify sessionId fun session => dispatch h session msg }.setPhase
        sessionId .responding
    | _ => s
  | .responded sessionId =>
    match s.connections.find? sessionId with
    | some ⟨_, _, .responding⟩ => s.setPhase sessionId .reading
    | _ => s
  | .exit sessionId _ => s.cleanupSession sessionId

/-! ## Who is open and who is held -/

/-- Every session belongs to an open connection. -/
def Belongs (s : System) : Prop :=
  ∀ reg ∈ s.registry.sessions.rows, s.connections.Has reg.sessionId

/-- The event does not end a connection that has a session. -/
def Spares (s : System) : Event → Prop
  | .exit sessionId _ => ¬ s.registry.sessions.Has sessionId
  | _ => True

theorem belongs_iff {s : System} :
    Belongs s ↔ ∀ id, s.registry.sessions.Has id → s.connections.Has id := by
  refine ⟨?_, fun hall reg hreg => hall _ ⟨reg, hreg, rfl⟩⟩
  rintro hall id ⟨reg, hreg, rfl⟩
  exact hall reg hreg

variable {h : VideoHandler} {s : System} {id sessionId : String}

theorem has_getOrCreate {r : SessionRegistry} {peerAddr : String × Nat} :
    (r.getOrCreate sessionId peerAddr).sessions.Has id ↔ r.sessions.Has id ∨ id = sessionId := by
  unfold SessionRegistry.getOrCreate
  split
  · next hfound =>
    rw [← Table.has_iff_find?] at hfound
    refine ⟨Or.inl, ?_⟩
    rintro (hid | rfl)
    · exact hid
    · exact hfound
  · exact Table.has_insert

@[simp] theorem has_connections_setPhase {phase : Phase} :
    (s.setPhase sessionId phase).connections.Has id ↔ s.connections.Has id := by
  rw [System.setPhase, Table.has_updateWhere]

@[simp] theorem has_modify {r : SessionRegistry} {f : IngestionSession → IngestionSession} :
    (r.modify sessionId f).sessions.Has id ↔ r.sessions.Has id := by
  rw [SessionRegistry.modify, Table.has_updateWhere]

/-- Only the end of a connection closes it, and only a message opens a session.
An event of a connection that is not in the right phase does nothing. -/
theorem act_cases (h : VideoHandler) (s : System) (e : Event) :
    (∃ id reason, e = .exit id reason ∧ act h s e = s.cleanupSession id) ∨
      ((∀ id reason, e ≠ .exit id reason) ∧
        (∀ id, s.connections.Has id → (act h s e).connections.Has id) ∧
        ∀ id, (act h s e).registry.sessions.Has id →
          s.registry.sessions.Has id ∨ s.connections.Has id) := by
  cases e with
  | exit id reason => exact Or.inl ⟨id, reason, rfl, rfl⟩
  | connect id peer =>
    refine Or.inr ⟨by simp, fun id hid => ?_, fun id hid => Or.inl hid⟩
    exact Table.has_upsert.mpr (Or.inl hid)
  | receive id msg =>
    refine Or.inr ⟨by simp, ?_⟩
    dsimp only [act]
    split
    · next peer hfound =>
      refine ⟨fun id hid => has_connections_setPhase.mpr hid, fun id' hid' => ?_⟩
      rcases has_getOrCreate.mp hid' with hid' | rfl
      · exact Or.inl hid'
      · exact Or.inr (Table.has_iff_find?.mpr (by rw [hfound]; rfl))
    · exact ⟨fun _ hid => hid, fun _ hid => Or.inl hid⟩
  | handled id =>
    refine Or.inr ⟨by simp, ?_⟩
    dsimp only [act]
    split
    · exact ⟨fun id hid => has_connections_setPhase.mpr hid,
        fun id hid => Or.inl (has_modify.mp hid)⟩
    · exact ⟨fun _ hid => hid, fun _ hid => Or.inl hid⟩
  | responded id =>
    refine Or.inr ⟨by simp, ?_⟩
    dsimp only [act]
    split
    · exact ⟨fun id hid => has_connections_setPhase.mpr hid, fun id hid => Or.inl hid⟩
    · exact ⟨fun _ hid => hid, fun _ hid => Or.inl hid⟩

theorem has_connections_cleanupSession :
    (s.cleanupSession sessionId).connections.Has id ↔ s.connections.Has id ∧ id ≠ sessionId :=
  Table.has_deleteWhere_key

/-- The end of a connection leaves its session without one. -/
theorem belongs_cleanupSession_iff (hs : Belongs s) :
    Belongs (s.cleanupSession id) ↔ ¬ s.registry.sessions.Has id := by
  rw [belongs_iff] at hs ⊢
  constructor
  · intro hall hid
    exact (has_connections_cleanupSession.mp (hall id hid)).2 rfl
  · intro hnone id' hid'
    refine has_connections_cleanupSession.mpr ⟨hs id' hid', ?_⟩
    rintro rfl
    exact hnone hid'

theorem belongs_act_iff (hs : Belongs s) (e : Event) : Belongs (act h s e) ↔ Spares s e := by
  rcases act_cases h s e with ⟨id, reason, rfl, hact⟩ | ⟨hexit, hopen, hheld⟩
  · rw [hact]
    exact belongs_cleanupSession_iff hs
  · have hspares : Spares s e := by
      cases e with
      | exit id reason => exact absurd rfl (hexit id reason)
      | _ => trivial
    refine iff_of_true (belongs_iff.mpr fun id hid => ?_) hspares
    rcases hheld id hid with hid | hid
    · exact hopen id (belongs_iff.mp hs id hid)
    · exact hopen id hid

/-- In a run the sessions belong to open connections at every time exactly when
no connection ends that has a session. -/
theorem forall_belongs_iff (h : VideoHandler) (events : List Event) :
    (∀ pre, pre <+: events → Belongs (run (act h) {} pre)) ↔
      AllSteps (act h) Spares {} events := by
  have hstep : ∀ s e, Belongs s → (Belongs (act h s e) ↔ Spares s e) :=
    fun _ e hs => belongs_act_iff hs e
  have hinit : Belongs {} := fun _ hreg => absurd hreg List.not_mem_nil
  exact forall_prefix_iff_allSteps hstep hinit events

/-- `drop` would take the session away with the connection. -/
theorem belongs_drop (hs : Belongs s) (id : String) :
    Belongs { s.cleanupSession id with registry := s.registry.drop id } := by
  rw [belongs_iff] at hs ⊢
  intro id' hid'
  obtain ⟨hid', hne⟩ := Table.has_deleteWhere_key.mp hid'
  exact has_connections_cleanupSession.mpr ⟨hs id' hid', hne⟩

/-- A peer that sends one of two chunks and goes. -/
def abandoned : List Event :=
  [.connect "c1" ("10.0.0.7", 5000), .receive "c1" (.video (sampleChunk 0 [1])), .handled "c1",
    .responded "c1", .exit "c1" .framingError]

/-- Its buffer stays in the registry. -/
theorem not_belongs_abandoned :
    ¬ Belongs (run (act plainHandler) {} abandoned) ∧
      ((run (act plainHandler) {} abandoned).registry.sessions.rows.map fun reg =>
        reg.session.videoBuffers.rows.map VideoBuffer.receivedCount) = [[1]] := by
  refine ⟨fun hbelongs => ?_, by decide +kernel⟩
  have hheld : (run (act plainHandler) {} abandoned).registry.sessions.Has "c1" :=
    Table.has_iff_find?.mpr (by decide +kernel)
  have hopen := Table.has_iff_find?.mp (belongs_iff.mp hbelongs "c1" hheld)
  exact absurd hopen (by decide +kernel)

end DustMonitoring.Ingestion.Sessions
