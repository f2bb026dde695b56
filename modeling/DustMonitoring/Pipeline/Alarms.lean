import DustMonitoring.Pipeline.System

/-!
# Which alarm reaches LOAS

The seeds of `seed_mapping.sql` grade a batch by three yes-or-no questions:
is one of the dust values above its threshold, is the static score, is the
dynamic score.  `alarmLevel` is what they say, without tables, channels or
roles.  Between a batch and LOAS are the REST server, the two databases, the
agents and the outbox, each with its faults; the code of the row in LOAS is
still `alarmCode` of the three answers.

Main results:

* `gt_representativeRow_iff` -- the representative is above the threshold iff
  one of the rows is;
* `ruleVerdict_seedRules` -- the tables of the seeds amount to `alarmLevel`;
* `loas_alarms` -- so the rows of LOAS have the codes of the batches.
-/

namespace DustMonitoring.Pipeline

open DustMonitoring.Lib DustMonitoring.Schema DustMonitoring.DecisionAgent
open DustMonitoring.PoolerTran
open DustMonitoring.Egress (Sender Pc OutboxRow LoasRow Stores eventId)

/-! ## What the seeds say -/

/-- The sensor alone warns, one of the cameras alone cautions, and both
together are a danger. -/
def alarmLevel (dust static dynamic : Bool) : FinalLevel :=
  if dust then
    if static || dynamic then .danger else .warning
  else
    if static || dynamic then .caution else .normal

def alarmCode (dust static dynamic : Bool) : Option Int :=
  eventId (levelDecision (alarmLevel dust static dynamic))

/-- The grade of a channel. -/
def grade (alarm : Bool) : ChannelResult :=
  if alarm then .abnormal else .normal

/-- The tables of the seeds amount to `alarmLevel`. -/
theorem ruleVerdict_seedRules {r : DecisionRecord} {dust static dynamic : Bool}
    (hsensor : r.sensorAnalysisResult = grade dust)
    (hanomaly : r.anomalyDetectionResult = grade static)
    (hobject : r.objectDetectionResult = grade dynamic) {v : FinalLevel × Nat}
    (h : ruleVerdict seedRules r = some v) : v.1 = alarmLevel dust static dynamic := by
  have hjudge : (Judge.load seedRules).judge r.sensorAnalysisResult r.anomalyDetectionResult
      r.objectDetectionResult = some v := h
  rw [hsensor, hanomaly, hobject] at hjudge
  revert hjudge
  cases dust <;> cases static <;> cases dynamic <;>
    · intro hjudge
      obtain rfl := Option.some.inj hjudge
      rfl

/-! ## The grades of a batch -/

/-- The score is above its threshold. -/
def exceeds (score : Json) (threshold : Option Double) : Bool :=
  match classify score threshold with
  | .ok .abnormal => true
  | _ => false

theorem eq_grade_of_classify {value : Json} {threshold : Option Double} {c : ChannelResult}
    (h : classify value threshold = .ok c) : c = grade (exceeds value threshold) := by
  unfold exceeds
  rw [h]
  unfold classify at h
  split at h
  · obtain rfl := Except.ok.inj h
    rfl
  · obtain rfl := Except.ok.inj h
    rfl
  · obtain ⟨above, -, h⟩ := bind_eq_ok.mp h
    obtain rfl := Except.ok.inj h
    cases above <;> rfl

/-- One of the rows has a dust value above the threshold.  A NaN in the first
row hides the others: no value is greater than it, so `max` stays there. -/
def dustAlarm (rows : List QueueRow) (threshold : Option Double) : Bool :=
  threshold.any fun t =>
    decide ((rows.head?.bind QueueRow.dustValue) ≠ some .nan) &&
      rows.any fun r => r.dustValue.any fun v => v.gt t

/-- A row without a value is above nothing. -/
theorem gt_dustKey_iff (r : QueueRow) (t : Double) :
    (dustKey r).gt t = r.dustValue.any fun v => v.gt t := by
  unfold dustKey
  cases r.dustValue <;> simp

theorem dustKey_eq_nan_iff (r : QueueRow) : dustKey r = .nan ↔ r.dustValue = some .nan := by
  unfold dustKey
  cases r.dustValue <;> simp

/-- The representative is above the threshold iff one of the rows is. -/
theorem gt_representativeRow_iff (first : QueueRow) (rest : List QueueRow) (t : Double) :
    (dustKey (representativeRow first rest)).gt t = true ↔
      dustKey first ≠ .nan ∧ ∃ r ∈ first :: rest, (dustKey r).gt t = true := by
  induction rest generalizing first with
  | nil =>
    show (dustKey first).gt t = true ↔ _
    simp only [List.mem_singleton, exists_eq_left]
    refine ⟨fun h => ⟨fun hnan => ?_, h⟩, And.right⟩
    rw [hnan, Double.nan_gt] at h
    contradiction
  | cons r rs ih =>
    show (dustKey (representativeRow
      (if (dustKey r).gt (dustKey first) then r else first) rs)).gt t = true ↔ _
    rw [ih]
    cases hgt : (dustKey r).gt (dustKey first) with
    | true =>
      -- `r` takes over, and neither of the two is NaN
      have hr : dustKey r ≠ .nan := by
        intro hnan
        rw [hnan, Double.nan_gt] at hgt
        contradiction
      have hfirst : dustKey first ≠ .nan := by
        intro hnan
        rw [hnan, Double.gt_nan] at hgt
        contradiction
      simp only [if_true, ne_eq, hr, hfirst, not_false_eq_true, true_and, List.mem_cons]
      constructor
      · rintro ⟨x, hx, hxt⟩
        exact ⟨x, Or.inr hx, hxt⟩
      · rintro ⟨x, rfl | hx, hxt⟩
        · exact ⟨r, Or.inl rfl, Double.gt_trans hgt hxt⟩
        · exact ⟨x, hx, hxt⟩
    | false =>
      simp only [Bool.false_eq_true, if_false]
      refine and_congr_right fun hfirst => ?_
      simp only [List.mem_cons]
      constructor
      · rintro ⟨x, rfl | hx, hxt⟩
        · exact ⟨x, Or.inl rfl, hxt⟩
        · exact ⟨x, Or.inr (Or.inr hx), hxt⟩
      · rintro ⟨x, rfl | rfl | hx, hxt⟩
        · exact ⟨x, Or.inl rfl, hxt⟩
        · exact ⟨first, Or.inl rfl, Double.gt_of_not_gt hfirst hgt hxt⟩
        · exact ⟨x, Or.inr hx, hxt⟩

/-- The sensor is graded by the rows of the whole batch. -/
theorem exceeds_representativeRow (first : QueueRow) (rest : List QueueRow)
    (threshold : Option Double) :
    exceeds (ofScore (representativeRow first rest).dustValue) threshold =
      dustAlarm (first :: rest) threshold := by
  have hexceeds : exceeds (ofScore (representativeRow first rest).dustValue) threshold =
      threshold.any fun t => (dustKey (representativeRow first rest)).gt t := by
    unfold dustKey exceeds
    cases (representativeRow first rest).dustValue with
    | none => cases threshold <;> simp [ofScore, classify]
    | some v =>
      cases threshold with
      | none => rfl
      | some t =>
        show (match (do let above ← Except.ok (v.gt t); pure (if above then _ else _) :
          Except String ChannelResult) with | .ok .abnormal => true | _ => false) = v.gt t
        cases v.gt t <;> rfl
  rw [hexceeds, dustAlarm]
  cases threshold with
  | none => rfl
  | some t =>
    rw [Option.any_some, Option.any_some, Bool.eq_iff_iff, gt_representativeRow_iff,
      Bool.and_eq_true, decide_eq_true_eq, ne_eq, dustKey_eq_nan_iff, List.any_eq_true]
    simp only [gt_dustKey_iff]
    rfl

/-- What a batch answers to the three questions. -/
structure Answers (P : PoolerTran.Poller) (d : Delivery) (dust static dynamic : Bool) : Prop where
  scores : ∃ status body th staticScore dynamicScore,
    d.calls.sendBatch d.amrId d.waypointId (d.rows P) = .ok (status, body) ∧
    d.calls.fetchThresholds = .ok th ∧
    extractDual d.calls.floatOfStr body = .ok (staticScore, dynamicScore) ∧
    dust = dustAlarm (d.rows P) (th "dust") ∧
    static = exceeds staticScore (th "static") ∧
    dynamic = exceeds dynamicScore (th "dynamic")

/-- The channels of a decision are the answers of its batch. -/
theorem answers_of_decisionOf {P : PoolerTran.Poller} {d : Delivery} {row : DecisionRecord}
    (h : PoolerTran.decisionOf d.calls d.amrId d.waypointId (d.rows P) = some row) :
    ∃ dust static dynamic, Answers P d dust static dynamic ∧
      row.sensorAnalysisResult = grade dust ∧ row.anomalyDetectionResult = grade static ∧
      row.objectDetectionResult = grade dynamic ∧
      row.stationId = s!"{d.amrId}:wp{d.waypointId}" ∧
      ∃ rep, representative (d.rows P) = some rep ∧ row.dustId = rep.dustId ∧
        row.observationTimestamp = observationTimestamp rep (d.rows P) d.calls.now := by
  cases hrows : d.rows P with
  | nil =>
    rw [hrows] at h
    contradiction
  | cons first rest =>
    rw [hrows] at h
    simp only [PoolerTran.decisionOf] at h
    cases hsend : d.calls.sendBatch d.amrId d.waypointId (first :: rest) with
    | error exc =>
      rw [hsend] at h
      contradiction
    | ok answer =>
      rw [hsend] at h
      obtain ⟨status, body⟩ := answer
      cases hrow : decisionRow d.calls d.amrId d.waypointId first rest body with
      | error exc =>
        simp only [hrow] at h
        contradiction
      | ok row' =>
        simp only [hrow] at h
        obtain rfl := Option.some.inj h
        unfold decisionRow at hrow
        obtain ⟨th, hth, hrow⟩ := bind_eq_ok.mp hrow
        obtain ⟨⟨staticScore, dynamicScore⟩, hscores, hrow⟩ := bind_eq_ok.mp hrow
        obtain ⟨sensor, hsensor, hrow⟩ := bind_eq_ok.mp hrow
        obtain ⟨anomaly, hanomaly, hrow⟩ := bind_eq_ok.mp hrow
        obtain ⟨object, hobject, hrow⟩ := bind_eq_ok.mp hrow
        obtain ⟨image, -, hrow⟩ := bind_eq_ok.mp hrow
        obtain rfl := Except.ok.inj hrow
        have hdust := eq_grade_of_classify hsensor
        rw [exceeds_representativeRow] at hdust
        refine ⟨_, _, _, ⟨status, body, th, staticScore, dynamicScore, ?_, hth, hscores, rfl,
          rfl, rfl⟩, ?_, eq_grade_of_classify hanomaly, eq_grade_of_classify hobject, rfl, _, rfl,
          rfl, rfl⟩
        · rw [hrows]
          exact hsend
        · rw [hrows]
          exact hdust

/-! ## The codes of LOAS -/

/-- The rows of `classification_threshold` in the seeds. -/
def seedThresholds : String → Option Double
  | "dust" => some (.finite 2)
  | "static" => some (.finite (1 / 2))
  | "dynamic" => some (.finite (1 / 2))
  | _ => none

/-- The system that starts with the rules of the seeds. -/
def System.seeded : System := .init seedRules.alarmMapping seedRules.roleMapping

/-- In numbers, dust counts two and a camera that sees some counts one. -/
theorem alarmCode_eq (dust static dynamic : Bool) :
    alarmCode dust static dynamic =
      some ((if dust then 2 else 0) + if static || dynamic then 1 else 0) := by
  cases dust <;> cases static <;> cases dynamic <;> rfl

/-- The batch inserted the record, with the measurement and the time of its
representative. -/
structure OfBatch (P : PoolerTran.Poller) (d : Delivery) (r : DecisionRecord) : Prop where
  inserted : ∃ r₀ ∈ d.newRecords P, r₀.id = r.id
  stationId : r.stationId = s!"{d.amrId}:wp{d.waypointId}"
  measured : ∃ rep, representative (d.rows P) = some rep ∧ r.dustId = rep.dustId ∧
    r.observationTimestamp = observationTimestamp rep (d.rows P) d.calls.now

/-- A record that a batch has inserted, whatever became of its verdict. -/
theorem answers_of_newRecords {P : PoolerTran.Poller} {d : Delivery} {r₀ r : DecisionRecord}
    (hnew : r₀ ∈ d.newRecords P) (hobs : Observes r₀ r) :
    ∃ dust static dynamic, Answers P d dust static dynamic ∧
      r.sensorAnalysisResult = grade dust ∧ r.anomalyDetectionResult = grade static ∧
      r.objectDetectionResult = grade dynamic ∧ OfBatch P d r := by
  obtain ⟨-, hnone⟩ | ⟨-, -, row, hrow, hone⟩ := d.newRecords_cases P
  · rw [hnone] at hnew
    exact absurd hnew List.not_mem_nil
  · have hr₀ : r₀ = d.recordOf row := by
      rw [hone] at hnew
      exact List.mem_singleton.mp hnew
    obtain ⟨dust, static, dynamic, hanswers, hsensor, hanomaly, hobject, hstation, rep, hrep,
      hdust, htime⟩ := answers_of_decisionOf hrow
    rw [hr₀] at hobs
    refine ⟨dust, static, dynamic, hanswers, hobs.sensor.trans hsensor,
      hobs.anomaly.trans hanomaly, hobs.object.trans hobject, ⟨r₀, hnew, ?_⟩,
      hobs.stationId.trans hstation, rep, hrep, hobs.dustId.trans hdust,
      hobs.observationTimestamp.trans htime⟩
    rw [hr₀]
    exact hobs.id.symm

/-- The code of a row of LOAS is that of the answers of the batch that inserted
its record. -/
theorem loas_of_answers {P : PoolerTran.Poller} {S : Sender} {es : List Event}
    (hauto : ∀ e ∈ es, e.isAutomatic = true) {l : LoasRow}
    (hl : l ∈ (run (step P S) System.seeded es).loas) :
    ∃ d ∈ batches P S System.seeded es, ∃ r,
      (run (step P S) System.seeded es).decision.record l.decisionId = some r ∧ OfBatch P d r ∧
      ∃ dust static dynamic, Answers P d dust static dynamic ∧
        l.values.eventId = alarmCode dust static dynamic := by
  have hruled := ruled_system (P := P) (S := S) seedRules.alarmMapping seedRules.roleMapping hauto
  have hfaithful := faithful_system (P := P) (S := S) seedRules.alarmMapping
    seedRules.roleMapping es
  obtain ⟨r₀, r, level, mappingId, ⟨d, hd, hnew⟩, hr, hobs, hverdict, hcode⟩ :=
    loas_of_ruled hruled hfaithful hl
  obtain ⟨dust, static, dynamic, hanswers, hsensor, hanomaly, hobject, hbatch⟩ :=
    answers_of_newRecords hnew hobs
  refine ⟨d, hd, r, hr, hbatch, dust, static, dynamic, hanswers, ?_⟩
  have hlevel : level = alarmLevel dust static dynamic :=
    ruleVerdict_seedRules hsensor hanomaly hobject hverdict
  rw [hcode, hlevel, alarmCode]

/-- `amr-01` measures dust at waypoint 101 and goes on to 201; an agent decides
the batch of 101, and the egress gateway sends it. -/
def visit (calls : Calls) : List Event :=
  let poll : Redelivery.Event := .world (.poll fun _ => calls)
  (Redelivery.measures 101 3 10 ++ poll :: Redelivery.measures 201 1 20 ++ [poll]).map .pooler ++
    [.loadJudge, .refreshRoles, .tick 10, .decide .ok 30].map (.agent 0) ++
    [.boot, .reply .ok 40, .poll, .reply .ok 40, .reply .ok 40, .reply .ok 40, .reply .ok 40,
      .reply .ok 40].map .egress

/-- A server that sees static dust. -/
def seesStatic : Calls :=
  { answering with
    sendBatch := fun _ _ _ =>
      .ok (200, .arr [.float (.finite (7 / 10)), .float (.finite (2 / 10))])
    fetchThresholds := .ok seedThresholds }

def plainSender : Sender where
  strFloat := fun _ => ""
  strDatetime := fun _ => ""

end DustMonitoring.Pipeline
