import DustMonitoring.DecisionAgent.Poller
import DustMonitoring.Lib.Backlog
import DustMonitoring.Lib.Run

/-!
# Progress of the decision agent

Ticks of `Poller._tick` on one content of decision_db, with no database
error.  `fetch_pending` orders the records by their observation timestamp
and takes as many as the batch size; in which order it takes records of
one timestamp is not said, and a tick comes with a choice of it.  A record
whose combination is not in the alarm table stays pending, so the next
tick takes it again.

## Main result

* `decidedInTime_iff`: a record is decided in time exactly when fewer than
  `batch_size` records that cannot be judged do not come after it.
-/

namespace DustMonitoring.DecisionAgent

open DustMonitoring.Lib DustMonitoring.Schema

/-! ## Ticks -/

/-- The `WHERE` of `fetch_pending`. -/
def isReady (r : DecisionRecord) : Bool :=
  r.finalDecision == .pending && r.anomalyDetectionResult != .pending &&
    r.objectDetectionResult != .pending && r.sensorAnalysisResult != .pending

/-- The records that have fully arrived and wait for their verdict. -/
def ready (db : DecisionDb) : List DecisionRecord :=
  db.decisionRecord.rows.filter isReady

/-- The columns that `fetch_pending` selects. -/
def pendingRecord (r : DecisionRecord) : PendingRecord :=
  { id := r.id
    stationId := r.stationId
    observationTimestamp := r.observationTimestamp
    anomalyDetectionResult := r.anomalyDetectionResult
    objectDetectionResult := r.objectDetectionResult
    sensorAnalysisResult := r.sensorAnalysisResult }

/-- What the database brings to one tick: the place of each record among
those of its timestamp, and the readings of `NOW()`. -/
structure TickInput where
  tie : DecisionRecord → Nat := fun _ => 0
  clock : Nat → Timestamp := fun _ => 0

/-- `fetch_pending`, with records of one timestamp in the order of
`tie`. -/
def fetchPendingBy (tie : DecisionRecord → Nat) (db : DecisionDb)
    (limit : Nat) : List PendingRecord :=
  (Backlog.batch DecisionRecord.observationTimestamp limit tie (ready db)).map
    pendingRecord

/-- The loop of `_tick` over the records. -/
def decideAll (j : Judge) (roleColumns : List (String × Column))
    (clock : Nat → Timestamp) (db : DecisionDb)
    (records : List PendingRecord) : DecisionDb :=
  records.foldl
    (fun db rec =>
      match verdict j roleColumns rec with
      | none => db
      | some (level, mappingId) =>
        (markDecided db rec.id level mappingId (clock rec.id)).1)
    db

/-- `_tick`. -/
def tickDb (j : Judge) (roles : RoleResolver) (limit : Nat) (db : DecisionDb)
    (input : TickInput) : DecisionDb :=
  match fetchPendingBy input.tie db limit with
  | [] => db
  | records =>
    match roles.roleColumns with
    | none => db
    | some roleColumns => decideAll j roleColumns input.clock db records

/-- The ticks one after the other. -/
def ticks (j : Judge) (roles : RoleResolver) (limit : Nat) (db : DecisionDb)
    (inputs : List TickInput) : DecisionDb :=
  inputs.foldl (tickDb j roles limit) db

/-! ## The ticks of the agent -/

/-- `fetch_pending` as the agent has it is one of the orders. -/
theorem fetchPending_eq (db : DecisionDb) (limit : Nat) :
    fetchPending db limit = fetchPendingBy (fun _ => 0) db limit := by
  have hkey : ∀ a b : DecisionRecord,
      a.observationTimestamp ≤ b.observationTimestamp ↔
        toLex (a.observationTimestamp, 0) ≤ toLex (b.observationTimestamp, 0) := by
    intro a b
    rw [Prod.Lex.toLex_le_toLex]
    constructor
    · intro h
      exact (lt_or_eq_of_le h).imp id fun h => ⟨h, le_refl 0⟩
    · intro h
      exact h.elim le_of_lt fun h => le_of_eq h.1
  unfold fetchPending fetchPendingBy Backlog.batch ready
  dsimp only
  rw [orderBy_congr hkey]
  rfl

theorem run_decide (a : Agent) (clock : Nat → Timestamp) (db : DecisionDb)
    (records : List PendingRecord) (roleColumns : List (String × Column)) :
    run (fun p e => agentStep p.1 p.2 e)
        ({ a with pc := .deciding records roleColumns }, db)
        (records.map fun rec => .decide .ok (clock rec.id)) =
      ({ a with pc := .deciding [] roleColumns },
        decideAll a.judge roleColumns clock db records) := by
  induction records generalizing db with
  | nil => rfl
  | cons rec records ih =>
    have hstep : agentStep { a with pc := .deciding (rec :: records) roleColumns }
        db (.decide .ok (clock rec.id)) =
          ({ a with pc := .deciding records roleColumns },
            decideAll a.judge roleColumns clock db [rec]) := by
      unfold agentStep Agent.decide decideAll
      dsimp only [List.foldl_cons, List.foldl_nil]
      cases verdict a.judge roleColumns rec with
      | none => rfl
      | some v => rfl
    rw [List.map_cons, run_cons, hstep, ih]
    rfl

theorem run_decide_idle {a : Agent} (hidle : a.pc = .idle) (db : DecisionDb)
    (nows : List Timestamp) :
    run (fun p e => agentStep p.1 p.2 e) (a, db) (nows.map (.decide .ok)) =
      (a, db) := by
  induction nows with
  | nil => rfl
  | cons now nows ih =>
    have hstep : agentStep a db (.decide .ok now) = (a, db) := by
      simp only [agentStep, Agent.decide, hidle]
    rw [List.map_cons, run_cons, hstep, ih]

/-- A tick of the agent without an error is a tick. -/
theorem run_tick (a : Agent) (hidle : a.pc = .idle) (clock : Nat → Timestamp)
    (db : DecisionDb) (limit : Nat) :
    run (fun p e => agentStep p.1 p.2 e) (a, db)
        (.tick limit :: ((fetchPending db limit).map
          (fun rec => .decide .ok (clock rec.id)) ++ [.decide .ok 0])) =
      (a, tickDb a.judge a.roles limit db { clock := clock }) := by
  have hnows : (fetchPending db limit).map
        (fun rec => AgentEvent.decide .ok (clock rec.id)) ++ [.decide .ok 0] =
      ((fetchPending db limit).map
        (fun rec : PendingRecord => clock rec.id) ++ [0]).map (.decide .ok) := by
    simp [Function.comp_def]
  have hrecords := fetchPending_eq db limit
  rw [run_cons]
  show run _ (a.tick db limit, db) _ = _
  unfold Agent.tick tickDb
  simp only [hidle, ← hrecords]
  cases hfetch : fetchPending db limit with
  | nil => exact run_decide_idle hidle db [0]
  | cons rec records =>
    cases hcolumns : a.roles.roleColumns with
    | none =>
      rw [hfetch] at hnows
      rw [hnows]
      exact run_decide_idle hidle db _
    | some roleColumns =>
      rw [run_append, run_decide a clock db (rec :: records) roleColumns]
      obtain ⟨judge, roles, pc⟩ := a
      obtain rfl : pc = .idle := hidle
      rfl

/-! ## One tick -/

theorem mem_ready {db : DecisionDb} {r : DecisionRecord} :
    r ∈ ready db ↔ r ∈ db.decisionRecord.rows ∧ isReady r = true :=
  List.mem_filter

theorem nodup_ready (db : DecisionDb) : (ready db).Nodup :=
  (List.Nodup.of_map _ db.decisionRecord.nodup).filter _

theorem eq_of_mem_ready {db : DecisionDb} {r r' : DecisionRecord}
    (h : r ∈ ready db) (h' : r' ∈ ready db) (hid : r.id = r'.id) : r = r' :=
  db.decisionRecord.eq_of_key_eq (mem_ready.mp h).1 (mem_ready.mp h').1 hid

theorem levelDecision_ne_pending (level : FinalLevel) :
    levelDecision level ≠ .pending := by
  cases level <;> decide

/-- The record is decided, and the others stay as they are. -/
theorem mem_ready_markDecided {db : DecisionDb} {id mappingId : Nat}
    {level : FinalLevel} {now : Timestamp} {r : DecisionRecord} :
    r ∈ ready (markDecided db id level mappingId now).1 ↔
      r ∈ ready db ∧ r.id ≠ id := by
  simp only [mem_ready, markDecided, setVerdict, DecisionDb.updateRecords,
    SerialTable.toTable_updateWhere, Table.mem_updateWhere]
  constructor
  · intro h
    obtain ⟨⟨y, hy, heq⟩, hready⟩ := h
    split at heq
    · subst heq
      have hne := levelDecision_ne_pending level
      simp [isReady, hne] at hready
    · next hno =>
      subst heq
      refine ⟨⟨hy, hready⟩, fun hid => hno ?_⟩
      simp only [isReady, Bool.and_eq_true] at hready
      simp [hid, hready.1.1.1]
  · intro h
    obtain ⟨⟨hmem, hready⟩, hid⟩ := h
    exact ⟨⟨r, hmem, by simp [hid]⟩, hready⟩

theorem mem_ready_decideAll {j : Judge} {roleColumns : List (String × Column)}
    {clock : Nat → Timestamp} {db : DecisionDb} {records : List PendingRecord}
    {r : DecisionRecord} :
    r ∈ ready (decideAll j roleColumns clock db records) ↔
      r ∈ ready db ∧
        ∀ rec ∈ records, rec.id = r.id → verdict j roleColumns rec = none := by
  induction records generalizing db with
  | nil => simp [decideAll]
  | cons rec records ih =>
    rw [decideAll, List.foldl_cons]
    show r ∈ ready (decideAll j roleColumns clock _ records) ↔ _
    rw [ih, List.forall_mem_cons]
    cases hv : verdict j roleColumns rec with
    | none => simp
    | some v =>
      simp only [mem_ready_markDecided, reduceCtorEq, imp_false]
      constructor
      · intro h
        exact ⟨h.1.1, fun hid => h.1.2 hid.symm, h.2⟩
      · intro h
        exact ⟨⟨h.1, fun hid => h.2.1 hid.symm⟩, h.2.2⟩

/-! ## Verdicts -/

theorem decisionOf_markDecided (db : DecisionDb) (id mappingId : Nat)
    (level : FinalLevel) (now : Timestamp) (k : Nat) :
    (markDecided db id level mappingId now).1.decisionOf k =
      if k = id ∧ db.decisionOf k = some .pending then
        some (levelDecision level)
      else db.decisionOf k := by
  unfold DecisionDb.decisionOf markDecided setVerdict
  dsimp only
  rw [DecisionDb.record_updateRecords]
  cases hr : db.record k with
  | none => simp
  | some r =>
    have hid := DecisionDb.id_of_record hr
    simp only [Option.map_some, Option.some.injEq, hid]
    by_cases hp : k = id ∧ r.finalDecision = .pending
    · simp [hp]
    · rw [if_neg hp]
      by_cases hk : k = id
      · have hne : r.finalDecision ≠ .pending := fun h => hp ⟨hk, h⟩
        simp [hne]
      · simp [hk]

theorem decisionOf_of_mem_ready {db : DecisionDb} {r : DecisionRecord}
    (h : r ∈ ready db) : db.decisionOf r.id = some .pending := by
  obtain ⟨hmem, hready⟩ := mem_ready.mp h
  simp only [isReady, Bool.and_eq_true, beq_iff_eq] at hready
  rw [DecisionDb.decisionOf, DecisionDb.record_of_mem hmem, Option.map_some,
    hready.1.1.1]

/-- A verdict that is there stays. -/
theorem decisionOf_decideAll_of_decided {j : Judge}
    {roleColumns : List (String × Column)} {clock : Nat → Timestamp}
    {records : List PendingRecord} {db : DecisionDb} {k : Nat}
    {d : DecisionResult} (h : db.decisionOf k = some d) (hd : d ≠ .pending) :
    (decideAll j roleColumns clock db records).decisionOf k = some d := by
  induction records generalizing db with
  | nil => exact h
  | cons rec records ih =>
    rw [decideAll, List.foldl_cons]
    apply ih
    cases verdict j roleColumns rec with
    | none => exact h
    | some v =>
      dsimp only
      rw [decisionOf_markDecided, if_neg, h]
      rw [h, Option.some.injEq]
      exact fun hk => hd hk.2

/-- The loop decides a record of its list by the verdict on it. -/
theorem decisionOf_decideAll {j : Judge} {roleColumns : List (String × Column)}
    {clock : Nat → Timestamp} {records : List PendingRecord} {db : DecisionDb}
    {r : DecisionRecord} {level : FinalLevel} {mappingId : Nat}
    (hr : r ∈ ready db)
    (hverdict : verdict j roleColumns (pendingRecord r) = some (level, mappingId))
    (hsame : ∀ rec ∈ records, rec.id = r.id → rec = pendingRecord r)
    (hmem : pendingRecord r ∈ records) :
    (decideAll j roleColumns clock db records).decisionOf r.id =
      some (levelDecision level) := by
  induction records generalizing db with
  | nil => exact absurd hmem List.not_mem_nil
  | cons rec records ih =>
    rw [List.forall_mem_cons] at hsame
    rw [decideAll, List.foldl_cons]
    by_cases hid : rec.id = r.id
    · obtain rfl := hsame.1 hid
      rw [hverdict]
      apply decisionOf_decideAll_of_decided _ (levelDecision_ne_pending level)
      dsimp only
      rw [decisionOf_markDecided, if_pos]
      exact ⟨rfl, decisionOf_of_mem_ready hr⟩
    · have hne : pendingRecord r ≠ rec := fun h => hid (by rw [← h]; rfl)
      apply ih _ hsame.2 ((List.mem_cons.mp hmem).resolve_left hne)
      cases verdict j roleColumns rec with
      | none => exact hr
      | some v => exact mem_ready_markDecided.mpr ⟨hr, fun h => hid h.symm⟩

section Tick

variable {j : Judge} {roles : RoleResolver} {roleColumns : List (String × Column)}
  (hcolumns : roles.roleColumns = some roleColumns) {limit : Nat}

/-- No alarm is defined for the combination of the record. -/
def unjudgeable (j : Judge) (roleColumns : List (String × Column))
    (r : DecisionRecord) : Bool :=
  (verdict j roleColumns (pendingRecord r)).isNone

include hcolumns

theorem tickDb_eq (db : DecisionDb) (input : TickInput) :
    tickDb j roles limit db input =
      decideAll j roleColumns input.clock db
        (fetchPendingBy input.tie db limit) := by
  unfold tickDb
  split
  · next h =>
    rw [h]
    rfl
  · rw [hcolumns]

/-- A tick is a round in which the unjudgeable records are stuck. -/
theorem serves_tickDb (db : DecisionDb) (input : TickInput) :
    Backlog.Serves DecisionRecord.observationTimestamp (unjudgeable j roleColumns)
      limit input.tie (ready db) (ready (tickDb j roles limit db input)) where
  nodup := nodup_ready _
  mem_iff r := by
    rw [tickDb_eq hcolumns, mem_ready_decideAll]
    apply and_congr_right
    intro hr
    constructor
    · intro h hbatch
      have hnone := h (pendingRecord r) (List.mem_map_of_mem hbatch) rfl
      simp [unjudgeable, hnone]
    · intro h rec hrec hid
      obtain ⟨r', hr', rfl⟩ := List.mem_map.mp hrec
      obtain rfl := eq_of_mem_ready (Backlog.batch_subset hr') hr hid
      simpa [unjudgeable] using h hr'

theorem rounds_ticks (db : DecisionDb) (inputs : List TickInput) :
    Backlog.Rounds DecisionRecord.observationTimestamp (unjudgeable j roleColumns)
      limit (inputs.map TickInput.tie) (ready db)
      (ready (ticks j roles limit db inputs)) := by
  induction inputs generalizing db with
  | nil => exact .nil _
  | cons input inputs ih =>
    exact .cons (serves_tickDb hcolumns db input) (ih _)

/-- A record that no longer waits was decided by the verdict on it. -/
theorem ready_or_decided_ticks {r : DecisionRecord} {level : FinalLevel}
    {mappingId : Nat}
    (hverdict : verdict j roleColumns (pendingRecord r) = some (level, mappingId))
    {db : DecisionDb} (h : r ∈ ready db ∨
      db.decisionOf r.id = some (levelDecision level))
    (inputs : List TickInput) :
    r ∈ ready (ticks j roles limit db inputs) ∨
      (ticks j roles limit db inputs).decisionOf r.id =
        some (levelDecision level) := by
  induction inputs generalizing db with
  | nil => exact h
  | cons input inputs ih =>
    apply ih
    rw [tickDb_eq hcolumns]
    rcases h with h | h
    · by_cases hmem : pendingRecord r ∈ fetchPendingBy input.tie db limit
      · refine Or.inr (decisionOf_decideAll h hverdict ?_ hmem)
        intro rec hrec hid
        obtain ⟨r', hr', rfl⟩ := List.mem_map.mp hrec
        rw [eq_of_mem_ready (Backlog.batch_subset hr') h hid]
      · refine Or.inl (mem_ready_decideAll.mpr ⟨h, ?_⟩)
        intro rec hrec hid
        obtain ⟨r', hr', rfl⟩ := List.mem_map.mp hrec
        obtain rfl := eq_of_mem_ready (Backlog.batch_subset hr') h hid
        exact absurd hrec hmem
    · exact Or.inr (decisionOf_decideAll_of_decided h
        (levelDecision_ne_pending level))

end Tick

/-! ## Starvation -/

/-- The other pending records that do not come after `r`. -/
def olderPending (db : DecisionDb) (r : DecisionRecord) : List DecisionRecord :=
  db.decisionRecord.rows.filter fun q =>
    q.finalDecision == .pending && q.id != r.id &&
      decide (q.observationTimestamp ≤ r.observationTimestamp)

/-- Those of the waiting records that cannot be judged and do not come
after `r`. -/
def unjudgeableAhead (j : Judge) (roleColumns : List (String × Column))
    (db : DecisionDb) (r : DecisionRecord) : List DecisionRecord :=
  Backlog.stuckAhead DecisionRecord.observationTimestamp
    (unjudgeable j roleColumns) (ready db) r

/-- After one tick more than there are older pending records, the record is
decided. -/
def DecidedInTime (j : Judge) (roles : RoleResolver) (limit : Nat)
    (db : DecisionDb) (r : DecisionRecord) : Prop :=
  ∀ inputs : List TickInput, (olderPending db r).length < inputs.length →
    ∃ d, d ≠ .pending ∧
      (ticks j roles limit db inputs).decisionOf r.id = some d

section Starvation

variable {j : Judge} {roles : RoleResolver} {roleColumns : List (String × Column)}
  (hcolumns : roles.roleColumns = some roleColumns) {limit : Nat}
  {db : DecisionDb} {r : DecisionRecord}

theorem length_waiting_le (hr : r ∈ ready db) :
    (Backlog.waiting DecisionRecord.observationTimestamp
      (unjudgeable j roleColumns) (ready db) r).length ≤
        (olderPending db r).length + 1 := by
  have hsub : Backlog.waiting DecisionRecord.observationTimestamp
      (unjudgeable j roleColumns) (ready db) r ⊆ r :: olderPending db r := by
    intro q hq
    obtain ⟨hqr, hp⟩ := List.mem_filter.mp hq
    by_cases hid : q.id = r.id
    · rw [eq_of_mem_ready hqr hr hid]
      exact List.mem_cons_self
    · obtain ⟨hmem, hready⟩ := mem_ready.mp hqr
      simp only [Bool.and_eq_true, decide_eq_true_eq] at hp
      simp only [isReady, Bool.and_eq_true] at hready
      refine List.mem_cons_of_mem r (List.mem_filter.mpr ⟨hmem, ?_⟩)
      simp [hready.1.1.1, hid, hp.2]
  exact (((nodup_ready db).filter _).subperm hsub).length_le

theorem unjudgeable_eq_false {level : FinalLevel} {mappingId : Nat}
    (h : verdict j roleColumns (pendingRecord r) = some (level, mappingId)) :
    unjudgeable j roleColumns r = false := by
  rw [unjudgeable, h]
  rfl

include hcolumns

theorem decidedInTime_of_lt (hr : r ∈ ready db) {level : FinalLevel}
    {mappingId : Nat}
    (hverdict : verdict j roleColumns (pendingRecord r) = some (level, mappingId))
    (hfew : (unjudgeableAhead j roleColumns db r).length < limit) :
    DecidedInTime j roles limit db r := by
  intro inputs hlen
  have hfree := unjudgeable_eq_false hverdict
  have hties : (Backlog.waiting DecisionRecord.observationTimestamp
      (unjudgeable j roleColumns) (ready db) r).length ≤
        (inputs.map TickInput.tie).length := by
    rw [List.length_map]
    exact le_trans (length_waiting_le hr) hlen
  have hgone := Backlog.not_mem_of_rounds (nodup_ready db) hfree hfew hties
    (rounds_ticks hcolumns db inputs)
  have hdecided := (ready_or_decided_ticks hcolumns hverdict (Or.inl hr)
    inputs).resolve_left hgone
  exact ⟨_, levelDecision_ne_pending level, hdecided⟩

/-- Unjudgeable records that fill the batch hold the record back in every
tick that takes them first. -/
theorem pending_of_le (hr : r ∈ ready db)
    (hmany : limit ≤ (unjudgeableAhead j roleColumns db r).length)
    {inputs : List TickInput}
    (hfirst : ∀ input ∈ inputs, ∀ q ∈ unjudgeableAhead j roleColumns db r,
      toLex (q.observationTimestamp, input.tie q) <
        toLex (r.observationTimestamp, input.tie r)) :
    (ticks j roles limit db inputs).decisionOf r.id = some .pending := by
  apply decisionOf_of_mem_ready
  refine Backlog.mem_of_rounds (nodup_ready db) hr hmany ?_
    (rounds_ticks hcolumns db inputs)
  intro tie htie q hstuck hle hq
  obtain ⟨input, hinput, rfl⟩ := List.mem_map.mp htie
  refine hfirst input hinput q (List.mem_filter.mpr ⟨hq, ?_⟩)
  simp [hstuck, hle]

/-- A waiting record with a verdict is decided in time, whatever the order
of the records of one timestamp, exactly when the unjudgeable records that
do not come after it do not fill the batch. -/
theorem decidedInTime_iff (hr : r ∈ ready db)
    (hverdict : verdict j roleColumns (pendingRecord r) ≠ none) :
    DecidedInTime j roles limit db r ↔
      (unjudgeableAhead j roleColumns db r).length < limit := by
  obtain ⟨⟨level, mappingId⟩, hverdict⟩ := Option.ne_none_iff_exists'.mp hverdict
  have hfree := unjudgeable_eq_false hverdict
  constructor
  · intro h
    by_contra hmany
    let stuckFirst : TickInput :=
      { tie := fun q => if unjudgeable j roleColumns q then 0 else 1 }
    have hfirst : ∀ q ∈ unjudgeableAhead j roleColumns db r,
        toLex (q.observationTimestamp, stuckFirst.tie q) <
          toLex (r.observationTimestamp, stuckFirst.tie r) := by
      intro q hq
      have hp := (List.mem_filter.mp hq).2
      simp only [Bool.and_eq_true, decide_eq_true_eq] at hp
      rw [Prod.Lex.toLex_lt_toLex]
      simp only [stuckFirst, hp.1, if_true, hfree]
      rcases lt_or_eq_of_le hp.2 with hlt | heq
      · exact Or.inl hlt
      · exact Or.inr ⟨heq, by decide⟩
    obtain ⟨d, hd, hdecided⟩ :=
      h (List.replicate ((olderPending db r).length + 1) stuckFirst) (by simp)
    rw [pending_of_le hcolumns hr (not_lt.mp hmany)] at hdecided
    · exact hd (Option.some.inj hdecided).symm
    · intro input hinput
      rw [List.eq_of_mem_replicate hinput]
      exact hfirst
  · exact decidedInTime_of_lt hcolumns hr hverdict

end Starvation

/-- The rules of `seed_mapping.sql`. -/
def seedRules : DecisionDb :=
  { DecisionDb.empty with
    alarmMapping :=
      { rows :=
          [⟨1, .normal, .normal, .normal, .normal⟩,
            ⟨2, .normal, .normal, .abnormal, .caution⟩,
            ⟨3, .normal, .abnormal, .normal, .caution⟩,
            ⟨4, .normal, .abnormal, .abnormal, .caution⟩,
            ⟨5, .abnormal, .normal, .normal, .warning⟩,
            ⟨6, .abnormal, .normal, .abnormal, .danger⟩,
            ⟨7, .abnormal, .abnormal, .normal, .danger⟩,
            ⟨8, .abnormal, .abnormal, .abnormal, .danger⟩]
        nodup := by decide }
    roleMapping :=
      { rows :=
          [⟨"static_dust", "anomaly_detection"⟩,
            ⟨"dynamic_dust", "object_detection"⟩,
            ⟨"iot_sensor", "sensor_analysis"⟩]
        nodup := by decide } }

/-- A record with the given sensor level, nothing found on the images. -/
def arrived (id : Nat) (time : Timestamp) (sensor : ChannelResult) :
    DecisionRecord :=
  { id := id
    stationId := "ST-001"
    observationTimestamp := time
    anomalyDetectionResult := .normal
    objectDetectionResult := .normal
    sensorAnalysisResult := sensor }

/-- The sensor of the older record reports `caution`, for which there is no
rule. -/
def blockedDb : DecisionDb :=
  ((seedRules.insertDecision (arrived 1 100 .caution)).1.insertDecision
    (arrived 2 200 .abnormal)).1

def seedColumns : List (String × Column) :=
  [("static_dust", .anomalyDetectionResult),
    ("dynamic_dust", .objectDetectionResult),
    ("iot_sensor", .sensorAnalysisResult)]

theorem roleColumns_blockedDb :
    (RoleResolver.refresh blockedDb).roleColumns = some seedColumns := rfl

theorem mem_ready_blockedDb : arrived 2 200 .abnormal ∈ ready blockedDb := by
  show _ ∈ [arrived 1 100 .caution, arrived 2 200 .abnormal]
  simp

/-- With a batch size of two the younger record is decided all the same. -/
theorem decidedInTime_iff_blockedDb :
    DecidedInTime (.load blockedDb) (.refresh blockedDb) 2 blockedDb
      (arrived 2 200 .abnormal) :=
  (decidedInTime_iff roleColumns_blockedDb mem_ready_blockedDb
    (by decide)).mpr (by decide)

/-- With a batch size of one it waits for ever. -/
theorem not_decidedInTime_blockedDb :
    arrived 2 200 .abnormal ∈ ready blockedDb ∧
      verdict (.load blockedDb) seedColumns
        (pendingRecord (arrived 2 200 .abnormal)) = some (.warning, 5) ∧
      (∀ inputs, (ticks (.load blockedDb) (.refresh blockedDb) 1 blockedDb
        inputs).decisionOf 2 = some .pending) ∧
      ¬ DecidedInTime (.load blockedDb) (.refresh blockedDb) 1 blockedDb
        (arrived 2 200 .abnormal) := by
  have hpending : ∀ inputs, (ticks (.load blockedDb) (.refresh blockedDb) 1
      blockedDb inputs).decisionOf 2 = some .pending := by
    intro inputs
    refine pending_of_le roleColumns_blockedDb mem_ready_blockedDb (by decide) ?_
    intro input _ q hq
    have hq' : q ∈ [arrived 1 100 .caution] := hq
    obtain rfl := List.mem_singleton.mp hq'
    exact Prod.Lex.toLex_lt_toLex.mpr
      (Or.inl (show (100 : Int) < 200 by decide))
  refine ⟨mem_ready_blockedDb, by decide, hpending, ?_⟩
  intro h
  obtain ⟨d, hd, hdecided⟩ := h [{}, {}] (by decide)
  exact hd (Option.some.inj (hdecided.symm.trans (hpending _)))

end DustMonitoring.DecisionAgent
