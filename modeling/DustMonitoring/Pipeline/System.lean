import DustMonitoring.Pipeline.Verdicts
import DustMonitoring.PoolerTran.Redelivery

/-!
# The whole pipeline

The listeners, the correlator, the retention and the poller of PoolerTran on
gateway_db, the decision agents on decision_db, and the egress gateway with its
outbox and LOAS, in any interleaving.  `PoolerTran.Redelivery.step` and
`Egress.step` are the two halves of it; they share the two databases.

Main results:

* `grows_pooler` -- what the half of PoolerTran does to decision_db;
* `faithful_system` -- the invariant of the egress gateway holds in the whole
  system;
* `ruled_system` -- so does that of the verdicts, for the rows that the batches
  of the run insert.
-/

namespace DustMonitoring.Pipeline

open DustMonitoring.Lib DustMonitoring.Schema DustMonitoring.DecisionAgent
open DustMonitoring.Egress (Sender Pc OutboxRow LoasRow Stores)
open DustMonitoring.PoolerTran (PollerState Delivery)

structure System where
  gw : GatewayDb := .empty
  decision : DecisionDb
  poller : PollerState := {}
  outbox : Table OutboxRow.decisionId := .empty
  loas : List LoasRow := []
  pc : Pc := .down
  agents : Nat → Agent := fun _ => {}

/-- What happens next. -/
inductive Event where
  | pooler (e : PoolerTran.Redelivery.Event)
  | egress (e : Egress.ProcessEvent)
  | agent (i : Nat) (e : AgentEvent)

namespace System

/-- The half of PoolerTran. -/
def pooler (s : System) : PoolerTran.World := ⟨s.gw, s.decision, s.poller⟩

/-- The half of the egress gateway and the agents. -/
def egress (s : System) : Egress.World :=
  ⟨⟨s.decision, s.gw, s.outbox, s.loas⟩, s.pc, s.agents⟩

/-- The system once the half of PoolerTran has made a step. -/
def setPooler (s : System) (w : PoolerTran.World) : System :=
  { s with
    gw := w.gw
    decision := w.decision
    poller := w.poller }

/-- The system once the other half has made a step. -/
def setEgress (s : System) (w : Egress.World) : System :=
  { s with
    gw := w.stores.gw
    decision := w.stores.db
    outbox := w.stores.outbox
    loas := w.stores.loas
    pc := w.pc
    agents := w.agents }

/-- The system before anything was measured, with the rules of the agents. -/
def init (alarmMapping : Table AlarmMapping.id) (roleMapping : Table RoleMapping.detectionRole) :
    System where
  decision :=
    { DecisionDb.empty with
      alarmMapping := alarmMapping
      roleMapping := roleMapping }

end System

section

variable (P : PoolerTran.Poller) (S : Sender)

def step (s : System) : Event → System
  | .pooler e => s.setPooler (PoolerTran.Redelivery.step P s.pooler e)
  | .egress e => s.setEgress (Egress.step S s.egress (.egress e))
  | .agent i e => s.setEgress (Egress.step S s.egress (.agent i e))

/-- The batches of the event. -/
def eventBatches (s : System) : Event → List Delivery
  | .pooler e => PoolerTran.Redelivery.eventDeliveries P s.pooler e
  | _ => []

/-- The batches of a run, in order. -/
def batches (s : System) (es : List Event) : List Delivery :=
  outputs (step P S) (eventBatches P) s es

end

/-- Nobody edits the rules or overrules an agent. -/
def Event.isAutomatic : Event → Bool
  | .agent i e => Pipeline.isAutomatic (.agent i e)
  | _ => true

/-! ## What PoolerTran does to decision_db -/

/-- Records with the property are added at the end, and nothing else of the
verdicts or the rules changes. -/
structure Grows (Q : DecisionRecord → Prop) (db db' : DecisionDb) : Prop where
  alarms : db'.alarmMapping = db.alarmMapping
  roles : db'.roleMapping = db.roleMapping
  records : ∃ new, db'.decisionRecord.rows = db.decisionRecord.rows ++ new ∧
    ∀ r ∈ new, r.finalDecision = .pending ∧ r.sentAt = none ∧ Q r

section Grows

variable {Q : DecisionRecord → Prop} {rules db db' : DecisionDb}

theorem Grows.refl (db : DecisionDb) : Grows Q db db :=
  ⟨rfl, rfl, [], (List.append_nil _).symm, fun _ hr => absurd hr List.not_mem_nil⟩

theorem Grows.record_eq (h : Grows Q db db') {id : Nat} {r : DecisionRecord}
    (hr : db.record id = some r) : db'.record id = some r := by
  obtain ⟨new, hrows, -⟩ := h.records
  obtain ⟨hmem, hid⟩ := Table.find?_eq_some_iff.mp hr
  refine Table.find?_eq_some_iff.mpr ⟨?_, hid⟩
  rw [hrows]
  exact List.mem_append_left new hmem

theorem Grows.keeps (h : Grows Q db db') : db.Keeps db' where
  decided := by
    intro id x hx _
    obtain ⟨r, hr, rfl⟩ := Option.map_eq_some_iff.mp hx
    rw [DecisionDb.decisionOf, h.record_eq hr]
    rfl
  sent := by
    intro id
    cases hr : db.record id with
    | some r => rw [DecisionDb.isSent, DecisionDb.isSent, h.record_eq hr, hr]
    | none =>
      rw [DecisionDb.isSent, DecisionDb.isSent, hr]
      cases hr' : db'.record id with
      | none => rfl
      | some r =>
        obtain ⟨new, hrows, hnew⟩ := h.records
        obtain ⟨hmem, hid⟩ := Table.find?_eq_some_iff.mp hr'
        rw [hrows] at hmem
        rcases List.mem_append.mp hmem with hmem | hmem
        · exact absurd hid (Table.find?_eq_none_iff.mp hr r hmem)
        · simp [(hnew r hmem).2.1]

theorem Grows.persists (h : Grows Q db db') : Persists db db' := by
  obtain ⟨new, hrows, -⟩ := h.records
  intro r hr
  exact ⟨r, by rw [hrows]; exact List.mem_append_left new hr, rfl⟩

theorem Grows.dbRuled (h : Grows Q db db') (hdb : DbRuled Q rules db) : DbRuled Q rules db' where
  alarms := h.alarms.trans hdb.alarms
  roles := h.roles.trans hdb.roles
  records := by
    obtain ⟨new, hrows, hnew⟩ := h.records
    intro r hr
    rw [hrows] at hr
    rcases List.mem_append.mp hr with hr | hr
    · exact hdb.records r hr
    · obtain ⟨hpending, -, hrow⟩ := hnew r hr
      exact ⟨⟨r, hrow, .refl r⟩, Or.inl hpending⟩

end Grows

section Pooler

open DustMonitoring.PoolerTran

variable {P : PoolerTran.Poller} {S : Sender}

/-- The two tables of the rules. -/
def rulesOf (db : DecisionDb) : Table AlarmMapping.id × Table RoleMapping.detectionRole :=
  (db.alarmMapping, db.roleMapping)

theorem rulesOf_insertDecision (db : DecisionDb) (row : DecisionRecord) :
    rulesOf (db.insertDecision row).1 = rulesOf db := by
  unfold DecisionDb.insertDecision
  split <;> rfl

theorem rulesOf_handleFailure (calls : Calls) (exc : String) (w : PoolerTran.World)
    (row : QueueRow) : rulesOf (handleFailure P calls exc w row).decision = rulesOf w.decision := by
  rcases handleFailure_cases P calls exc w row with ⟨-, -, h⟩ | ⟨-, -, h⟩ | ⟨-, -, h⟩ <;>
    rw [h] <;> rfl

theorem rulesOf_foldl_handleFailure (calls : Calls) (exc : String) (rows : List QueueRow)
    (w : PoolerTran.World) :
    rulesOf (rows.foldl (handleFailure P calls exc) w).decision = rulesOf w.decision :=
  run_eq (handleFailure P calls exc) (fun w => rulesOf w.decision)
    (fun w row => rulesOf_handleFailure calls exc w row) w rows

/-- A batch leaves the rules alone. -/
theorem rulesOf_afterBatch (calls : Calls) (amrId : String) (waypointId : Int)
    (w : PoolerTran.World) :
    rulesOf (afterBatch P calls amrId waypointId w).decision = rulesOf w.decision := by
  rw [decision_afterBatch, beforePurge_eq]
  have hinsert : ∀ row, rulesOf (PoolerTran.insertDecision calls w row).decision =
      rulesOf w.decision := by
    intro row
    unfold PoolerTran.insertDecision
    split
    · exact rulesOf_insertDecision w.decision row
    · rfl
  cases claimedRows P amrId waypointId w with
  | nil => rfl
  | cons first rest =>
    show rulesOf (sendRows P calls amrId waypointId first rest w).decision = _
    unfold sendRows
    split
    · exact rulesOf_foldl_handleFailure calls _ _ w
    · split
      · exact rulesOf_foldl_handleFailure calls _ _ w
      · split
        · exact (rulesOf_foldl_handleFailure calls _ _ _).trans (hinsert _)
        · rw [decision_foldl_finishRow]
          exact hinsert _

theorem rulesOf_transitions (calls : String → Calls) (items : List (String × Int))
    (w : PoolerTran.World) :
    rulesOf (transitions P calls items w).1.decision = rulesOf w.decision := by
  induction items generalizing w with
  | nil => rfl
  | cons item rest ih =>
    obtain ⟨amrId, currentWp⟩ := item
    have hleave : rulesOf (leaveWaypoint P (calls amrId) amrId (prevWaypoint P w amrId)
        w).2.decision = rulesOf w.decision :=
      rulesOf_afterBatch (calls amrId) amrId _ (countTransition w)
    by_cases h : currentWp = prevWaypoint P w amrId
    · rw [transitions_of_eq h]
      exact ih _
    · cases hc : (calls amrId).commits with
      | true =>
        rw [transitions_of_commits h hc]
        exact (ih _).trans hleave
      | false =>
        rw [transitions_of_not_commits h hc]
        exact hleave

/-- The row that a batch inserts is not decided, nor sent. -/
theorem fresh_of_decisionOf {calls : Calls} {amrId : String} {waypointId : Int}
    {rows : List QueueRow} {row : DecisionRecord}
    (h : PoolerTran.decisionOf calls amrId waypointId rows = some row) :
    row.finalDecision = .pending ∧ row.sentAt = none := by
  cases rows with
  | nil => contradiction
  | cons first rest =>
    simp only [PoolerTran.decisionOf] at h
    split at h
    · contradiction
    · next answer body _ =>
      cases hrow : decisionRow calls amrId waypointId first rest body with
      | error exc =>
        rw [hrow] at h
        contradiction
      | ok row' =>
        rw [hrow] at h
        obtain rfl := Option.some.inj h
        unfold decisionRow at hrow
        obtain ⟨th, -, hrow⟩ := bind_eq_ok.mp hrow
        obtain ⟨scores, -, hrow⟩ := bind_eq_ok.mp hrow
        obtain ⟨sensor, -, hrow⟩ := bind_eq_ok.mp hrow
        obtain ⟨anomaly, -, hrow⟩ := bind_eq_ok.mp hrow
        obtain ⟨object, -, hrow⟩ := bind_eq_ok.mp hrow
        obtain ⟨image, -, hrow⟩ := bind_eq_ok.mp hrow
        obtain rfl := Except.ok.inj hrow
        exact ⟨rfl, rfl⟩

/-- One of the batches inserted the record. -/
def InsertedBy (P : PoolerTran.Poller) (ds : List Delivery) (r : DecisionRecord) : Prop :=
  ∃ d ∈ ds, r ∈ d.newRecords P

/-- A step of the half of PoolerTran adds the records of its batches. -/
theorem grows_pooler (w : PoolerTran.World) (e : Redelivery.Event) {ds : List Delivery}
    (hds : ∀ d ∈ Redelivery.eventDeliveries P w e, d ∈ ds) :
    Grows (InsertedBy P ds) w.decision (Redelivery.step P w e).decision := by
  cases e with
  | restart => exact .refl _
  | world e =>
    cases e with
    | poll calls =>
      have hrules := rulesOf_transitions (P := P) calls (fetchCurrentWaypoints w.gw) w
      refine ⟨congrArg Prod.fst hrules, congrArg Prod.snd hrules, _,
        decisionRecord_transitions, fun r hr => ?_⟩
      obtain ⟨d, hd, hr⟩ := List.mem_flatMap.mp hr
      obtain ⟨-, hnone⟩ | ⟨-, -, row, hrow, hnew⟩ := d.newRecords_cases P
      · rw [hnone] at hr
        exact absurd hr List.not_mem_nil
      · have hr' := hr
        rw [hnew] at hr'
        obtain rfl := List.mem_singleton.mp hr'
        obtain ⟨hpending, hsent⟩ := fresh_of_decisionOf hrow
        exact ⟨hpending, hsent, d, hds d hd, hr⟩
    | _ => exact .refl _

theorem calls_of_mem_deliveries {calls : String → Calls} {items : List (String × Int)}
    {w : PoolerTran.World} {d : Delivery} (hd : d ∈ deliveries P calls items w) :
    ∃ amrId, d.calls = calls amrId := by
  induction items generalizing w with
  | nil => exact absurd hd List.not_mem_nil
  | cons item rest ih =>
    obtain ⟨amrId, currentWp⟩ := item
    by_cases h : currentWp = prevWaypoint P w amrId
    · rw [deliveries_of_eq h] at hd
      exact ih hd
    · cases hc : (calls amrId).commits with
      | true =>
        rw [deliveries_of_commits h hc] at hd
        rcases List.mem_cons.mp hd with rfl | hd
        · exact ⟨amrId, rfl⟩
        · exact ih hd
      | false =>
        rw [deliveries_of_not_commits h hc] at hd
        obtain rfl := List.mem_singleton.mp hd
        exact ⟨amrId, rfl⟩

/-- What a batch of a run is answered is the answer of one of its polls. -/
theorem calls_of_mem_batches {s : System} {es : List Event} {d : Delivery}
    (hd : d ∈ batches P S s es) :
    ∃ calls amrId, Event.pooler (.world (.poll calls)) ∈ es ∧ d.calls = calls amrId := by
  induction es generalizing s with
  | nil => exact absurd hd List.not_mem_nil
  | cons e es ih =>
    rcases List.mem_append.mp hd with hd | hd
    · cases e with
      | pooler e =>
        cases e with
        | restart => exact absurd hd List.not_mem_nil
        | world e =>
          cases e with
          | poll calls =>
            obtain ⟨amrId, hcalls⟩ := calls_of_mem_deliveries hd
            exact ⟨calls, amrId, List.mem_cons_self, hcalls⟩
          | _ => exact absurd hd List.not_mem_nil
      | _ => exact absurd hd List.not_mem_nil
    · obtain ⟨calls, amrId, hmem, hcalls⟩ := ih hd
      exact ⟨calls, amrId, List.mem_cons_of_mem e hmem, hcalls⟩

/-! ## The invariants of the halves, in the whole -/

theorem faithful_pooler {s : System} (h : s.egress.Faithful S) (e : Redelivery.Event) :
    (s.setPooler (Redelivery.step P s.pooler e)).egress.Faithful S := by
  have hkeeps := (grows_pooler (P := P) s.pooler e fun _ hd => hd).keeps
  constructor
  · constructor
    · intro row hrow
      exact ⟨(h.stores.outbox row hrow).1.keeps hkeeps, (h.stores.outbox row hrow).2⟩
    · intro l hl
      exact (h.stores.loas l hl).keeps hkeeps
    · intro d hd
      have hsent : s.decision.isSent d = true := (hkeeps.sent d).symm.trans hd
      exact (h.stores.sent d hsent).imp fun _ => Egress.HasCode.keeps hkeeps
  · exact h.pc.mono (Egress.HasCode.keeps hkeeps)

theorem faithful_step {s : System} (h : s.egress.Faithful S) (e : Event) :
    (step P S s e).egress.Faithful S := by
  cases e with
  | pooler e => exact faithful_pooler h e
  | egress e => exact h.step (.egress e)
  | agent i e => exact h.step (.agent i e)

theorem faithful_system (alarmMapping : Table AlarmMapping.id)
    (roleMapping : Table RoleMapping.detectionRole) (es : List Event) :
    (run (step P S) (System.init alarmMapping roleMapping) es).egress.Faithful S := by
  have hstep : ∀ s e, s.egress.Faithful S → (step P S s e).egress.Faithful S :=
    fun _ e h => faithful_step h e
  have hinit : (System.init alarmMapping roleMapping).egress.Faithful S :=
    Egress.faithful_init alarmMapping roleMapping
  exact run_invariant hstep hinit es

theorem ruled_system_step {ds : List Delivery} {rules : DecisionDb} {s : System} {e : Event}
    (h : Ruled (InsertedBy P ds) rules s.egress) (hauto : e.isAutomatic = true)
    (hds : ∀ d ∈ eventBatches P s e, d ∈ ds) :
    Ruled (InsertedBy P ds) rules (step P S s e).egress := by
  cases e with
  | pooler e =>
    have hgrows := grows_pooler s.pooler e hds
    exact ⟨hgrows.dbRuled h.db, fun a => (h.agents a).mono hgrows.persists⟩
  | egress e =>
    have hkeeps : Keeps (InsertedBy P ds) (.egress e) := ⟨rfl, fun _ heq => nomatch heq⟩
    exact ruled_step S h hkeeps
  | agent i e =>
    have hkeeps : Keeps (InsertedBy P ds) (.agent i e) := ⟨hauto, fun _ heq => nomatch heq⟩
    exact ruled_step S h hkeeps

theorem ruled_system (alarmMapping : Table AlarmMapping.id)
    (roleMapping : Table RoleMapping.detectionRole) {es : List Event}
    (hauto : ∀ e ∈ es, e.isAutomatic = true) :
    Ruled (InsertedBy P (batches P S (System.init alarmMapping roleMapping) es))
      (System.init alarmMapping roleMapping).decision
      (run (step P S) (System.init alarmMapping roleMapping) es).egress := by
  have hbatches := allSteps_mem_outputs (step P S) (eventBatches P)
    (System.init alarmMapping roleMapping) es
  have hstep : ∀ s e,
      Ruled (InsertedBy P (batches P S (System.init alarmMapping roleMapping) es))
        (System.init alarmMapping roleMapping).decision s.egress →
      (∀ d ∈ eventBatches P s e,
        d ∈ batches P S (System.init alarmMapping roleMapping) es) ∧ e ∈ es →
      Ruled (InsertedBy P (batches P S (System.init alarmMapping roleMapping) es))
        (System.init alarmMapping roleMapping).decision (step P S s e).egress :=
    fun s e h he => ruled_system_step h (hauto e he.2) he.1
  exact run_invariant_of_allSteps hstep (ruled_init alarmMapping roleMapping) hbatches.and_mem

end Pooler

end DustMonitoring.Pipeline
