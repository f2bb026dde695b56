import DustMonitoring.Pipeline.Alarms

/-!
# The pipeline in demo mode

With `PT_REST_DEMO` no server is asked: `DemoRestClient` answers every batch
itself.  From version 2 on it has scores for four waypoints, with which the
dust of the scenario decides between two alarms at each of them.

`loas_demo` says which, for every run on the seeds of the two databases.
-/

namespace DustMonitoring.Pipeline

open DustMonitoring.Lib DustMonitoring.Schema DustMonitoring.DecisionAgent
open DustMonitoring.PoolerTran
open DustMonitoring.Egress (Sender LoasRow)

/-- `DemoRestClient`. -/
structure DemoRestClient where
  score : Double
  imagePath : String := ""
  version : Nat := 1

/-- `_WP_PROFILE`: the static and the dynamic score of a waypoint. -/
def wpProfile : List (Int × (Double × Double)) :=
  [(101, (.finite (7 / 10), .finite (7 / 10))), (201, (.finite (2 / 10), .finite (2 / 10))),
    (301, (.finite (2 / 10), .finite (2 / 10))), (401, (.finite (7 / 10), .finite (2 / 10)))]

namespace DemoRestClient

variable (c : DemoRestClient)

/-- The two scores of `_batch_body`. -/
def scores (waypointId : Int) : Double × Double :=
  if 2 ≤ c.version then (wpProfile.lookup waypointId).getD (c.score, c.score) else (c.score, c.score)

/-- `first_path`. -/
def firstPath (rows : List QueueRow) : Json :=
  if c.imagePath ≠ "" then .str c.imagePath
  else
    match rows.head?.bind QueueRow.filePath with
    | some path => .str path
    | none => .null

/-- `_batch_body`. -/
def batchBody (waypointId : Int) (rows : List QueueRow) : Json :=
  .arr
    [.obj
        [("score", .float (c.scores waypointId).1), ("path1", c.firstPath rows),
          ("path2", c.firstPath rows)],
      .obj
        [("score", .float (c.scores waypointId).2), ("path1", c.firstPath rows),
          ("path2", c.firstPath rows)]]

/-- `send_batch`. -/
def sendBatch (_ : String) (waypointId : Int) (rows : List QueueRow) :
    Except String (Nat × Json) :=
  .ok (200, c.batchBody waypointId rows)

/-- The poller reads back the scores of the client. -/
theorem extractDual_batchBody (floatOfStr : String → Option Double) (waypointId : Int)
    (rows : List QueueRow) :
    extractDual floatOfStr (c.batchBody waypointId rows) =
      .ok (.float (c.scores waypointId).1, .float (c.scores waypointId).2) :=
  rfl

end DemoRestClient

/-- The batch asks the demo client and is graded by the seeds. -/
def IsDemo (c : DemoRestClient) (calls : Calls) : Prop :=
  calls.sendBatch = c.sendBatch ∧ calls.fetchThresholds = .ok seedThresholds

/-- One of the cameras sees dust at the waypoint. -/
def DemoRestClient.seesDust (c : DemoRestClient) (waypointId : Int) : Bool :=
  if waypointId = 101 ∨ waypointId = 401 then true
  else if waypointId = 201 ∨ waypointId = 301 then false
  else c.score.gt (.finite (1 / 2))

/-- The code at the waypoint, with dust or without. -/
def DemoRestClient.code (c : DemoRestClient) (waypointId : Int) (dust : Bool) : Int :=
  (if dust then 2 else 0) + if c.seesDust waypointId then 1 else 0

theorem exceeds_float (score threshold : Double) :
    exceeds (.float score) (some threshold) = score.gt threshold := by
  have hclassify : classify (.float score) (some threshold) =
      .ok (if score.gt threshold then .abnormal else .normal) := rfl
  unfold exceeds
  rw [hclassify]
  cases score.gt threshold <;> rfl

/-- The two scores of a waypoint, against the seeds. -/
theorem seesDust_scores {c : DemoRestClient} (hversion : 2 ≤ c.version) (waypointId : Int) :
    ((c.scores waypointId).1.gt (.finite (1 / 2)) || (c.scores waypointId).2.gt (.finite (1 / 2))) =
      c.seesDust waypointId := by
  unfold DemoRestClient.scores DemoRestClient.seesDust
  rw [if_pos hversion]
  by_cases h101 : waypointId = 101
  · subst h101
    show (Double.gt (.finite (7 / 10)) _ || Double.gt (.finite (7 / 10)) _) = true
    decide +kernel
  by_cases h401 : waypointId = 401
  · subst h401
    show (Double.gt (.finite (7 / 10)) _ || Double.gt (.finite (2 / 10)) _) = true
    decide +kernel
  by_cases h201 : waypointId = 201
  · subst h201
    show (Double.gt (.finite (2 / 10)) _ || Double.gt (.finite (2 / 10)) _) = false
    decide +kernel
  by_cases h301 : waypointId = 301
  · subst h301
    show (Double.gt (.finite (2 / 10)) _ || Double.gt (.finite (2 / 10)) _) = false
    decide +kernel
  have hnone : wpProfile.lookup waypointId = none := by
    simp [wpProfile, List.lookup_cons, beq_eq_false_iff_ne.mpr h101, beq_eq_false_iff_ne.mpr h201,
      beq_eq_false_iff_ne.mpr h301, beq_eq_false_iff_ne.mpr h401]
  rw [hnone]
  simp [h101, h201, h301, h401]

/-- In demo mode the code of a row of LOAS is fixed by the waypoint and the dust
of the batch that inserted its record. -/
theorem loas_demo (P : PoolerTran.Poller) (S : Sender) {c : DemoRestClient}
    (hversion : 2 ≤ c.version) (es : List Event) (hauto : ∀ e ∈ es, e.isAutomatic = true)
    (hdemo : ∀ calls, Event.pooler (.world (.poll calls)) ∈ es → ∀ amrId, IsDemo c (calls amrId))
    {l : LoasRow}
    (hl : l ∈ (run (step P S) System.seeded es).loas) :
    ∃ d ∈ batches P S System.seeded es, ∃ r,
      (run (step P S) System.seeded es).decision.record l.decisionId = some r ∧ OfBatch P d r ∧
      l.values.eventId = some (c.code d.waypointId (dustAlarm (d.rows P) (some (.finite 2)))) := by
  obtain ⟨d, hd, r, hr, hbatch, dust, static, dynamic, hanswers, hcode⟩ :=
    loas_of_answers hauto hl
  obtain ⟨calls, amrId, hpoll, hcalls⟩ := calls_of_mem_batches hd
  obtain ⟨hsend, hth⟩ := hdemo calls hpoll amrId
  rw [← hcalls] at hsend hth
  obtain ⟨status, body, th, staticScore, dynamicScore, hbody, hth', hscores, rfl, rfl, rfl⟩ :=
    hanswers.scores
  refine ⟨d, hd, r, hr, hbatch, ?_⟩
  rw [hsend] at hbody
  obtain ⟨-, rfl⟩ := Prod.mk.inj (Except.ok.inj hbody)
  rw [DemoRestClient.extractDual_batchBody] at hscores
  obtain ⟨rfl, rfl⟩ := Prod.mk.inj (Except.ok.inj hscores)
  obtain rfl := Except.ok.inj (hth.symm.trans hth')
  rw [hcode, alarmCode_eq]
  simp only [seedThresholds, exceeds_float]
  rw [seesDust_scores hversion, DemoRestClient.code]

/-- The demo client of version 2. -/
def demoClient : DemoRestClient where
  score := .finite 0
  version := 2

def demoCalls : Calls :=
  { answering with
    sendBatch := demoClient.sendBatch
    fetchThresholds := .ok seedThresholds }

theorem isDemo_visit (calls : String → Calls)
    (h : Event.pooler (.world (.poll calls)) ∈ visit demoCalls) (amrId : String) :
    IsDemo demoClient (calls amrId) := by
  have hcalls : calls = fun _ => demoCalls := by
    simpa [visit, Redelivery.measures] using h
  rw [hcalls]
  exact ⟨rfl, rfl⟩

theorem loas_demo_visit :
    ∃ l ∈ (run (step defaultPoller plainSender) System.seeded (visit demoCalls)).loas,
      ∃ d ∈ batches defaultPoller plainSender System.seeded (visit demoCalls), ∃ r,
        (run (step defaultPoller plainSender) System.seeded (visit demoCalls)).decision.record
          l.decisionId = some r ∧ OfBatch defaultPoller d r ∧
        l.values.eventId = some (demoClient.code d.waypointId
          (dustAlarm (d.rows defaultPoller) (some (.finite 2)))) := by
  have hdanger : ∃ l ∈ (run (step defaultPoller plainSender) System.seeded
      (visit demoCalls)).loas, l.values.eventId = some 3 := by decide +kernel
  obtain ⟨l, hl, -⟩ := hdanger
  exact ⟨l, hl, loas_demo defaultPoller plainSender (by decide) (visit demoCalls) (by decide)
    isDemo_visit hl⟩

end DustMonitoring.Pipeline
