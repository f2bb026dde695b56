import DustMonitoring.DecisionAgent.Progress
import DustMonitoring.Egress.DecideOnce

/-!
# From the inserted record to the code in LOAS

The agents decide what the producer inserted, and the egress gateway sends the
codes of their verdicts.  As long as nobody edits the rules, overrules an agent
or overwrites a channel, the code in LOAS is a function of the record as it was
inserted and of the rules at the start.

Main results:

* `ruled_step` -- the caches of the agents are those rules or empty, and every
  verdict is the one they give;
* `loas_of_ruled` -- so is the code of every row of LOAS.
-/

namespace DustMonitoring.Pipeline

open DustMonitoring.Lib DustMonitoring.Schema DustMonitoring.DecisionAgent
open DustMonitoring.Egress

/-- Nobody edits the rules, overrules an agent or overwrites a channel. -/
def isAutomatic : Egress.Event → Bool
  | .agent _ (.forceDecide _ _ _ _ _) | .agent _ (.updateFinal _ _ _)
  | .agent _ (.updateComponent _ _ _) | .reportChannel _ _ _ => false
  | _ => true

/-- The record has what it was inserted with, whatever its verdict is. -/
structure Observes (row r : DecisionRecord) : Prop where
  id : r.id = row.id
  stationId : r.stationId = row.stationId
  observationTimestamp : r.observationTimestamp = row.observationTimestamp
  anomaly : r.anomalyDetectionResult = row.anomalyDetectionResult
  object : r.objectDetectionResult = row.objectDetectionResult
  sensor : r.sensorAnalysisResult = row.sensorAnalysisResult
  dustId : r.dustId = row.dustId
  imageB64 : r.imageB64 = row.imageB64

theorem Observes.refl (r : DecisionRecord) : Observes r r :=
  ⟨rfl, rfl, rfl, rfl, rfl, rfl, rfl, rfl⟩

/-- The verdict of the rules on a record. -/
def ruleVerdict (rules : DecisionDb) (r : DecisionRecord) : Option (FinalLevel × Nat) :=
  (RoleResolver.refresh rules).roleColumns.bind fun cols =>
    verdict (.load rules) cols (pendingRecord r)

/-- The record waits, or has the verdict of the rules. -/
def Judged (rules : DecisionDb) (r : DecisionRecord) : Prop :=
  r.finalDecision = .pending ∨ ∃ level mappingId,
    ruleVerdict rules r = some (level, mappingId) ∧ r.finalDecision = levelDecision level ∧
      r.mappingId = some mappingId

/-- The rules are the ones of the start, and every record was inserted with the
property and is judged by them. -/
structure DbRuled (Q : DecisionRecord → Prop) (rules db : DecisionDb) : Prop where
  alarms : db.alarmMapping = rules.alarmMapping
  roles : db.roleMapping = rules.roleMapping
  records : ∀ r ∈ db.decisionRecord.rows, (∃ row, Q row ∧ Observes row r) ∧ Judged rules r

/-- What an agent holds is empty, or was read from the rules and the records. -/
structure AgentRuled (rules db : DecisionDb) (a : Agent) : Prop where
  judge : a.judge = {} ∨ a.judge = .load rules
  resolver : a.roles = {} ∨ a.roles = .refresh rules
  deciding : ∀ records cols, a.pc = .deciding records cols →
    (RoleResolver.refresh rules).roleColumns = some cols ∧
      ∀ rec ∈ records, ∃ r ∈ db.decisionRecord.rows, pendingRecord r = rec

structure Ruled (Q : DecisionRecord → Prop) (rules : DecisionDb) (w : World) : Prop where
  db : DbRuled Q rules w.stores.db
  agents : ∀ a, AgentRuled rules w.stores.db (w.agents a)

variable {Q : DecisionRecord → Prop} {rules db db' : DecisionDb}

/-! ## What the writers do to the records -/

/-- Every record is still there, as the agents see it. -/
def Persists (db db' : DecisionDb) : Prop :=
  ∀ r ∈ db.decisionRecord.rows, ∃ r' ∈ db'.decisionRecord.rows,
    pendingRecord r' = pendingRecord r

theorem Persists.refl (db : DecisionDb) : Persists db db :=
  fun r hr => ⟨r, hr, rfl⟩

theorem AgentRuled.mono {a : Agent} (h : AgentRuled rules db a) (hdb : Persists db db') :
    AgentRuled rules db' a where
  judge := h.judge
  resolver := h.resolver
  deciding := by
    intro records cols hpc
    obtain ⟨hcols, hrecords⟩ := h.deciding records cols hpc
    refine ⟨hcols, fun rec hrec => ?_⟩
    obtain ⟨r, hr, rfl⟩ := hrecords rec hrec
    exact hdb r hr

theorem ruleVerdict_congr {r r' : DecisionRecord} (h : pendingRecord r' = pendingRecord r) :
    ruleVerdict rules r' = ruleVerdict rules r := by
  unfold ruleVerdict
  rw [h]

section Update

variable {p : DecisionRecord → Bool} {f : DecisionRecord → DecisionRecord}
  {hf : ∀ r, (f r).id = r.id}

theorem mem_updateRecords {r' : DecisionRecord} :
    r' ∈ (db.updateRecords p f hf).decisionRecord.rows ↔
      ∃ r ∈ db.decisionRecord.rows, (if p r then f r else r) = r' := by
  simp [DecisionDb.updateRecords]

theorem persists_updateRecords (h : ∀ r, pendingRecord (f r) = pendingRecord r) :
    Persists db (db.updateRecords p f hf) := by
  intro r hr
  refine ⟨_, mem_updateRecords.mpr ⟨r, hr, rfl⟩, ?_⟩
  split
  · exact h r
  · rfl

/-- An update that leaves alone what the producer wrote, and keeps to the
rules. -/
theorem DbRuled.updateRecords (h : DbRuled Q rules db)
    (hobserves : ∀ row r, Observes row r → Observes row (f r))
    (hjudged : ∀ r ∈ db.decisionRecord.rows, p r = true → Judged rules r → Judged rules (f r)) :
    DbRuled Q rules (db.updateRecords p f hf) where
  alarms := h.alarms
  roles := h.roles
  records := by
    intro r' hr'
    obtain ⟨r, hr, rfl⟩ := mem_updateRecords.mp hr'
    obtain ⟨⟨row, hrow, hobs⟩, hj⟩ := h.records r hr
    split
    · next hp => exact ⟨⟨row, hrow, hobserves row r hobs⟩, hjudged r hr hp hj⟩
    · exact ⟨⟨row, hrow, hobs⟩, hj⟩

end Update

/-- `mark_sent`. -/
theorem ruled_markSent (h : DbRuled Q rules db) (id : Nat) (now : Timestamp) :
    DbRuled Q rules (markSent db id now) ∧ Persists db (markSent db id now) := by
  constructor
  · refine h.updateRecords ?_ ?_
    · rintro row r ⟨h1, h2, h3, h4, h5, h6, h7, h8⟩
      exact ⟨h1, h2, h3, h4, h5, h6, h7, h8⟩
    · intro r _ _ hj
      exact hj
  · exact persists_updateRecords fun r => rfl

/-- The operations of the egress gateway. -/
theorem ruled_effect (S : Sender) (pc : Pc) (now : Timestamp) (s : Stores)
    (h : DbRuled Q rules s.db) :
    DbRuled Q rules (pc.effect S now s).db ∧ Persists s.db (pc.effect S now s).db := by
  cases pc with
  | skip why rec rest => exact ruled_markSent h rec.id now
  | mark decisionId k => exact ruled_markSent h decisionId now
  | _ => exact ⟨h, .refl s.db⟩

theorem ruled_processStep (S : Sender) (pc : Pc) (s : Stores) (e : ProcessEvent)
    (h : DbRuled Q rules s.db) :
    DbRuled Q rules (processStep S pc s e).2.db ∧
      Persists s.db (processStep S pc s e).2.db := by
  have hsame : DbRuled Q rules s.db ∧ Persists s.db s.db := ⟨h, .refl s.db⟩
  cases e with
  | reply o now =>
    unfold processStep
    dsimp only
    split
    · exact ruled_effect S pc now s h
    · unfold Outcome.settle
      split
      · exact ruled_effect S pc now s h
      · exact hsame
  | crash applied now =>
    unfold processStep
    dsimp only
    split
    · exact ruled_effect S pc now s h
    · exact hsame
  | _ =>
    unfold processStep
    dsimp only
    split <;> exact hsame

/-- The producer inserts a row. -/
theorem ruled_insertDecision (h : DbRuled Q rules db) (row : DecisionRecord)
    (hrow : ∀ n, Q { row with id := n }) (hpending : row.finalDecision = .pending) :
    DbRuled Q rules (db.insertDecision row).1 ∧ Persists db (db.insertDecision row).1 := by
  unfold DecisionDb.insertDecision
  split
  · exact ⟨h, .refl db⟩
  · constructor
    · refine ⟨h.alarms, h.roles, fun r hr => ?_⟩
      rcases SerialTable.mem_append.mp hr with hr | rfl
      · exact h.records r hr
      · exact ⟨⟨_, hrow _, .refl _⟩, Or.inl hpending⟩
    · intro r hr
      exact ⟨r, SerialTable.mem_append.mpr (Or.inl hr), rfl⟩

/-! ## What the agents do -/

theorem load_eq (h : DbRuled Q rules db) : Judge.load db = .load rules := by
  unfold Judge.load
  rw [h.alarms]

theorem refresh_eq (h : DbRuled Q rules db) : RoleResolver.refresh db = .refresh rules := by
  unfold RoleResolver.refresh
  rw [h.roles]

/-- Without a table there is no verdict. -/
theorem verdict_empty (cols : List (String × Column)) (rec : PendingRecord) :
    verdict {} cols rec = none := by
  unfold verdict Judge.judge
  cases cols.lookup "iot_sensor" <;> cases cols.lookup "static_dust" <;>
    cases cols.lookup "dynamic_dust" <;> rfl

theorem ruled_tick {a : Agent} (h : AgentRuled rules db a) (limit : Nat) :
    AgentRuled rules db (a.tick db limit) := by
  unfold Agent.tick
  split
  · exact h
  · split
    · exact h
    · split
      · exact h
      · next cols hcols =>
        refine ⟨h.judge, h.resolver, fun records cols' hpc => ?_⟩
        obtain ⟨rfl, rfl⟩ := AgentPc.deciding.inj hpc
        constructor
        · rcases h.resolver with hempty | hroles
          · rw [hempty] at hcols
            contradiction
          · rw [← hroles]
            exact hcols
        · intro rec hrec
          obtain ⟨r, hr, rfl⟩ := List.mem_map.mp hrec
          have hr := mem_orderBy.mp (List.mem_of_mem_take hr)
          exact ⟨r, (List.mem_filter.mp hr).1, rfl⟩

/-- `mark_decided` with the verdict of the rules. -/
theorem ruled_markDecided (h : DbRuled Q rules db) {r : DecisionRecord}
    (hr : r ∈ db.decisionRecord.rows) {level : FinalLevel} {mappingId : Nat}
    (hverdict : ruleVerdict rules r = some (level, mappingId)) (now : Timestamp) :
    DbRuled Q rules (markDecided db r.id level mappingId now).1 ∧
      Persists db (markDecided db r.id level mappingId now).1 := by
  constructor
  · refine h.updateRecords ?_ ?_
    · rintro row r ⟨h1, h2, h3, h4, h5, h6, h7, h8⟩
      exact ⟨h1, h2, h3, h4, h5, h6, h7, h8⟩
    · intro r' hr' hp _
      simp only [Bool.and_eq_true, decide_eq_true_eq] at hp
      obtain rfl := db.decisionRecord.eq_of_key_eq hr' hr hp.1
      exact Or.inr ⟨level, mappingId, (ruleVerdict_congr rfl).trans hverdict, rfl, rfl⟩
  · exact persists_updateRecords fun r => rfl

theorem ruled_settle (h : DbRuled Q rules db) (o : Outcome)
    (h' : DbRuled Q rules db' ∧ Persists db db') :
    DbRuled Q rules (o.settle db db') ∧ Persists db (o.settle db db') := by
  unfold Outcome.settle
  split
  · exact h'
  · exact ⟨h, .refl db⟩

theorem ruled_decide {a : Agent} (hdb : DbRuled Q rules db) (h : AgentRuled rules db a)
    (o : Outcome) (now : Timestamp) :
    (DbRuled Q rules (a.decide db o now).2 ∧ Persists db (a.decide db o now).2) ∧
      AgentRuled rules db (a.decide db o now).1 := by
  have hidle : AgentRuled rules db { a with pc := .idle } :=
    ⟨h.judge, h.resolver, fun _ _ hpc => nomatch hpc⟩
  unfold Agent.decide
  split
  · exact ⟨⟨hdb, .refl db⟩, h⟩
  · exact ⟨⟨hdb, .refl db⟩, hidle⟩
  · next rec rest cols hpc =>
    obtain ⟨hcols, hrecords⟩ := h.deciding _ _ hpc
    have hrest : AgentRuled rules db { a with pc := .deciding rest cols } := by
      refine ⟨h.judge, h.resolver, fun records cols' heq => ?_⟩
      obtain ⟨rfl, rfl⟩ := AgentPc.deciding.inj heq
      exact ⟨hcols, fun x hx => hrecords x (List.mem_cons_of_mem rec hx)⟩
    split
    · exact ⟨⟨hdb, .refl db⟩, hrest⟩
    · next level mappingId hverdict =>
      obtain ⟨r, hr, rfl⟩ := hrecords rec List.mem_cons_self
      have hrule : ruleVerdict rules r = some (level, mappingId) := by
        unfold ruleVerdict
        rw [hcols]
        rcases h.judge with hempty | hjudge
        · rw [hempty, verdict_empty] at hverdict
          contradiction
        · rw [← hjudge]
          exact hverdict
      have hsettled := ruled_settle hdb o (ruled_markDecided hdb hr hrule now)
      split
      · exact ⟨hsettled, hrest⟩
      · exact ⟨hsettled, hidle⟩

/-! ## Over a run -/

/-- The row of the producer under its id. -/
def asInserted (row : DecisionRecord) (n : Nat) : DecisionRecord :=
  { row with
    id := n
    finalDecision := .pending
    decidedAt := none
    mappingId := none
    sentAt := none }

/-- An event that keeps to the rules; what the producer inserts has the
property, whatever its id. -/
structure Keeps (Q : DecisionRecord → Prop) (e : Egress.Event) : Prop where
  automatic : isAutomatic e = true
  inserts : ∀ row, e = .insertRecord row → ∀ n, Q (asInserted row n)

theorem ruled_agentStep {a : Agent} (hdb : DbRuled Q rules db) (h : AgentRuled rules db a)
    {i : Nat} {e : AgentEvent} (he : isAutomatic (.agent i e) = true) :
    (DbRuled Q rules (agentStep a db e).2 ∧ Persists db (agentStep a db e).2) ∧
      AgentRuled rules db (agentStep a db e).1 := by
  have hsame : DbRuled Q rules db ∧ Persists db db := ⟨hdb, .refl db⟩
  cases e with
  | loadJudge => exact ⟨hsame, Or.inr (load_eq hdb), h.resolver, h.deciding⟩
  | refreshRoles => exact ⟨hsame, h.judge, Or.inr (refresh_eq hdb), h.deciding⟩
  | tick limit => exact ⟨hsame, ruled_tick h limit⟩
  | decide o now => exact ruled_decide hdb h o now
  | crash => exact ⟨hsame, Or.inl rfl, Or.inl rfl, fun _ _ hpc => nomatch hpc⟩
  | _ => contradiction

theorem ruled_step (S : Sender) {w : World} {e : Egress.Event} (h : Ruled Q rules w)
    (he : Keeps Q e) : Ruled Q rules (step S w e) := by
  cases e with
  | egress pe =>
    obtain ⟨hdb, hpersists⟩ := ruled_processStep S w.pc w.stores pe h.db
    exact ⟨hdb, fun a => (h.agents a).mono hpersists⟩
  | agent i e =>
    obtain ⟨⟨hdb, hpersists⟩, hagent⟩ := ruled_agentStep h.db (h.agents i) he.automatic
    refine ⟨hdb, fun a => ?_⟩
    show AgentRuled rules _ (Function.update w.agents i _ a)
    by_cases ha : a = i
    · rw [ha, Function.update_self]
      exact hagent.mono hpersists
    · rw [Function.update_of_ne ha]
      exact (h.agents a).mono hpersists
  | insertRecord row =>
    obtain ⟨hdb, hpersists⟩ := ruled_insertDecision h.db (asInserted row row.id)
      (he.inserts row rfl) rfl
    exact ⟨hdb, fun a => (h.agents a).mono hpersists⟩
  | reportChannel decisionId col result => exact absurd he.automatic Bool.false_ne_true
  | insertDust row => exact ⟨h.db, h.agents⟩
  | deleteDusts p => exact ⟨h.db, h.agents⟩

theorem ruled_init (alarmMapping : Table AlarmMapping.id)
    (roleMapping : Table RoleMapping.detectionRole) :
    Ruled Q (World.init alarmMapping roleMapping).stores.db
      (World.init alarmMapping roleMapping) where
  db := ⟨rfl, rfl, fun _ hr => absurd hr List.not_mem_nil⟩
  agents := fun _ => ⟨Or.inl rfl, Or.inl rfl, fun _ _ hpc => nomatch hpc⟩

/-- Every row of LOAS has the code that the rules give to a row that was
inserted. -/
theorem loas_of_ruled {S : Sender} {w : World} (hruled : Ruled Q rules w) (hw : w.Faithful S)
    {l : LoasRow} (hl : l ∈ w.stores.loas) :
    ∃ row r level mappingId, Q row ∧ w.stores.db.record l.decisionId = some r ∧
      Observes row r ∧ ruleVerdict rules r = some (level, mappingId) ∧
      l.values.eventId = eventId (levelDecision level) := by
  obtain ⟨x, hx, hne, hcode⟩ := hw.stores.loas l hl
  obtain ⟨r, hr, rfl⟩ := Option.map_eq_some_iff.mp hx
  obtain ⟨⟨row, hrow, hobs⟩, hjudged⟩ := hruled.db.records r (Table.find?_eq_some_iff.mp hr).1
  rcases hjudged with hpending | ⟨level, mappingId, hverdict, hfinal, -⟩
  · exact absurd hpending hne
  · exact ⟨row, r, level, mappingId, hrow, hr, hobs, hverdict, by rw [← hcode, hfinal]⟩

end DustMonitoring.Pipeline
