import DustMonitoring.PoolerTran.AmrView

/-!
# Two runs that differ in the frames of other AMRs

The correlator pairs by time only, so frames of two AMRs can share a
measurement, while `dust_id` is unique in `decision_record`.  The AMR whose
batch comes second then gets no decision.

`SameInputs` relates two runs with the same measurements, the same frames
of one AMR and the same ticks and polls.  `recordsOf_eq` says that the
decisions of the AMR are the same in both, provided that no batch of the
AMR finds the measurement of its representative recorded by another AMR.
Nothing else of the other AMRs shows: not their place in the queue, not the
transitions that the poller sees of them, and not what it purges.
-/

namespace DustMonitoring.PoolerTran.Isolation

open DustMonitoring.Lib DustMonitoring.Schema DustMonitoring.Correlator

/-- What happens between the listeners, the correlator and the poller. -/
inductive Event where
  | insertDust (row : DustInspection)
  | insertFrame (row : CctvFrame)
  /-- The insert of a frame is rolled back. -/
  | skipFrame
  | tick (p : Pass)
  | poll (calls : String → Calls)

section System

variable (c : FrameCorrelator) (P : Poller)

/-- The world after the event. -/
def step (w : World) : Event → World
  | .insertDust row => PoolerTran.step P w (.gateway c (.insertDust row))
  | .insertFrame row => PoolerTran.step P w (.gateway c (.insertFrame row))
  | .skipFrame => { w with gw := skipFrame w.gw }
  | .tick p => PoolerTran.step P w (.gateway c (.tick p))
  | .poll calls => PoolerTran.step P w (.poll calls)

/-- The deliveries of the AMR in the event. -/
def eventDeliveries (amrId : String) (w : World) : Event → List Delivery
  | .poll calls =>
    deliveriesOf amrId (deliveries P calls (fetchCurrentWaypoints w.gw) w)
  | _ => []

/-- The deliveries of the AMR in a run. -/
def delivered (amrId : String) (w : World) (es : List Event) : List Delivery :=
  outputs (step c P) (eventDeliveries P amrId) w es

/-- The records of the deliveries. -/
def records (ds : List Delivery) : List DecisionRecord :=
  ds.flatMap (·.newRecords P)

/-- The event brings nothing but a frame of another AMR. -/
def Event.IsOfOther (amrId : String) : Event → Prop
  | .insertFrame row => row.amrId ≠ amrId
  | .skipFrame => True
  | _ => False

/-- Two runs from two worlds: the same measurements, the same frames of the
AMR under the same ids, and ticks and polls at the same times and without
failures.  In between each run has frames of other AMRs of its own. -/
inductive SameInputs (amrId : String) :
    World → World → List Event → List Event → Prop
  | nil (w w' : World) : SameInputs amrId w w' [] []
  | left {w w' : World} {e : Event} {es es' : List Event} (he : e.IsOfOther amrId) :
      SameInputs amrId (step c P w e) w' es es' → SameInputs amrId w w' (e :: es) es'
  | right {w w' : World} {e : Event} {es es' : List Event} (he : e.IsOfOther amrId) :
      SameInputs amrId w (step c P w' e) es es' → SameInputs amrId w w' es (e :: es')
  | insertDust {w w' : World} {es es' : List Event} (row : DustInspection) :
      SameInputs amrId (step c P w (.insertDust row)) (step c P w' (.insertDust row))
        es es' →
      SameInputs amrId w w' (.insertDust row :: es) (.insertDust row :: es')
  | insertFrame {w w' : World} {es es' : List Event} (row : CctvFrame)
      (hnext : w'.gw.cctvFrame.next = w.gw.cctvFrame.next) :
      SameInputs amrId (step c P w (.insertFrame row)) (step c P w' (.insertFrame row))
        es es' →
      SameInputs amrId w w' (.insertFrame row :: es) (.insertFrame row :: es')
  | tick {w w' : World} {es es' : List Event} {p p' : Pass}
      (hp : SamePass amrId w.gw p p') :
      SameInputs amrId (step c P w (.tick p)) (step c P w' (.tick p')) es es' →
      SameInputs amrId w w' (.tick p :: es) (.tick p' :: es')
  | poll {w w' : World} {es es' : List Event} {calls calls' : String → Calls}
      (hcalls : NoFailure calls) (hcalls' : NoFailure calls')
      (hsame : calls' amrId = calls amrId) :
      SameInputs amrId (step c P w (.poll calls)) (step c P w' (.poll calls')) es es' →
      SameInputs amrId w w' (.poll calls :: es) (.poll calls' :: es')

/-- If the measurement of the representative has a record, it has one among
those of the AMR. -/
def Unsuppressed (own : List DecisionRecord) (d : Delivery) : Prop :=
  d.Decided P →
    ∃ x ∈ own, x.dustId = (representative (d.rows P)).bind QueueRow.dustId

/-- No delivery of the list is suppressed, the AMR having the records
`own` before it. -/
def NoneSuppressed (own : List DecisionRecord) (ds : List Delivery) : Prop :=
  AllSteps (fun own d => own ++ d.newRecords P) (Unsuppressed P) own ds

end System

/-- What a decision says. -/
structure Verdict where
  stationId : String
  dustId : Option Nat
  sensorAnalysisResult : ChannelResult
  anomalyDetectionResult : ChannelResult
  objectDetectionResult : ChannelResult
deriving DecidableEq, Repr

/-- The verdict of a record. -/
def verdict (x : DecisionRecord) : Verdict where
  stationId := x.stationId
  dustId := x.dustId
  sensorAnalysisResult := x.sensorAnalysisResult
  anomalyDetectionResult := x.anomalyDetectionResult
  objectDetectionResult := x.objectDetectionResult

/-! ## One batch of the AMR in two worlds -/

section Batch

variable {P : Poller} {amrId : String} {w w' : World} {own own' : List DecisionRecord}

theorem decided_iff {d : Delivery} :
    d.Decided P ↔ ∃ k, (representative (d.rows P)).bind QueueRow.dustId = some k ∧
      ∃ x ∈ d.before.decision.decisionRecord.rows, x.dustId = some k := by
  rw [Delivery.Decided]
  cases (representative (d.rows P)).bind QueueRow.dustId with
  | none => simp
  | some k => simp

/-- A batch that is suppressed in one world is suppressed in the other. -/
private theorem decided_leaving (h : SameFor amrId w w') (calls : Calls)
    (hown' : ∀ x ∈ own', x ∈ w'.decision.decisionRecord.rows)
    (hverdicts : own'.map verdict = own.map verdict)
    (hd : Unsuppressed P own (leaving P calls amrId w))
    (hdec : (leaving P calls amrId w).Decided P) :
    (leaving P calls amrId w').Decided P := by
  obtain ⟨k, hk, -⟩ := decided_iff.mp hdec
  obtain ⟨x, hx, hdust⟩ := hd hdec
  have hmem : verdict x ∈ own'.map verdict := by
    rw [hverdicts]
    exact List.mem_map_of_mem hx
  obtain ⟨x', hx', heq⟩ := List.mem_map.mp hmem
  have hdust' : x'.dustId = some k :=
    (congrArg Verdict.dustId heq).trans (hdust.trans hk)
  refine decided_iff.mpr ⟨k, ?_, x', hown' x' hx', hdust'⟩
  rw [h.rows_leaving]
  exact hk

/-- The batch of the AMR adds the same verdict in two worlds, if it adds
one in both or in none. -/
theorem verdicts_leaving (h : SameFor amrId w w') (calls : Calls)
    (hdec : (leaving P calls amrId w').Decided P ↔ (leaving P calls amrId w).Decided P) :
    ((leaving P calls amrId w').newRecords P).map verdict =
      ((leaving P calls amrId w).newRecords P).map verdict := by
  have hrows := h.rows_leaving (P := P) calls
  have hwp : (leaving P calls amrId w').waypointId = (leaving P calls amrId w).waypointId :=
    h.prevWaypoint
  have hins : (leaving P calls amrId w').Inserts P ↔ (leaving P calls amrId w).Inserts P := by
    rw [Delivery.Inserts, Delivery.Inserts, hrows, hwp]
    exact Iff.rfl
  rcases (leaving P calls amrId w).newRecords_cases P with
    ⟨hnot, hnone⟩ | ⟨hi, hd, row, hrow, hone⟩
  · rcases (leaving P calls amrId w').newRecords_cases P with
      ⟨-, hnone'⟩ | ⟨hi', hd', -⟩
    · rw [hnone, hnone']
    · exact absurd (hdec.mpr (hnot (hins.mp hi'))) hd'
  · rcases (leaving P calls amrId w').newRecords_cases P with
      ⟨hnot', -⟩ | ⟨-, -, row', hrow', hone'⟩
    · exact absurd (hdec.mp (hnot' (hins.mpr hi))) hd
    · rw [hrows, hwp] at hrow'
      obtain rfl := Option.some.inj (hrow.symm.trans hrow')
      rw [hone, hone']
      rfl

end Batch

/-! ## What a run keeps -/

/-- Every queue row is of a paired frame, and the records of the AMR are in
the table. -/
structure Kept (w : World) (own : List DecisionRecord) : Prop where
  paired : FrameCorrelator.QueuePaired w.gw
  own : ∀ x ∈ own, x ∈ w.decision.decisionRecord.rows

theorem kept_init : Kept World.init [] :=
  ⟨FrameCorrelator.queuePaired_empty, fun _ hx => absurd hx List.not_mem_nil⟩

/-- The event is no poll, or a poll without failures. -/
def Event.Succeeds : Event → Prop
  | .poll calls => NoFailure calls
  | _ => True

section Kept

variable {c : FrameCorrelator} {P : Poller} {amrId : String} {w : World}
  {own : List DecisionRecord}

/-- A poll leaves no row in the queue that was not there. -/
theorem queuePaired_poll {calls : String → Calls} (hcalls : NoFailure calls)
    (h : FrameCorrelator.QueuePaired w.gw) :
    FrameCorrelator.QueuePaired (checkWaypointTransition P calls w).1.gw := by
  intro q hq
  have hold := (mem_queue_transitions hcalls nodup_fetchCurrentWaypoints).mp hq
  have hsources : sources (transitions P calls (fetchCurrentWaypoints w.gw) w).1.gw =
      sources w.gw := sources_transitions
  obtain ⟨hframes, -⟩ := Prod.mk.inj hsources
  rw [pairedTo, checkWaypointTransition, hframes]
  exact h q hold.1

theorem Kept.step (h : Kept w own) {e : Event} (he : e.Succeeds) :
    Kept (step c P w e) (own ++ records P (eventDeliveries P amrId w e)) := by
  have hquiet : Kept (Isolation.step c P w e) own →
      Kept (Isolation.step c P w e) (own ++ records P []) := by
    intro hkept
    rw [records, List.flatMap_nil, List.append_nil]
    exact hkept
  cases e with
  | insertDust row =>
    exact hquiet ⟨FrameCorrelator.queuePaired_step (c := c) (.insertDust row) h.paired,
      h.own⟩
  | insertFrame row =>
    exact hquiet ⟨FrameCorrelator.queuePaired_step (c := c) (.insertFrame row) h.paired,
      h.own⟩
  | skipFrame => exact hquiet ⟨h.paired, h.own⟩
  | tick p => exact hquiet ⟨FrameCorrelator.queuePaired_step (.tick p) h.paired, h.own⟩
  | poll calls =>
    refine ⟨queuePaired_poll he h.paired, fun x hx => ?_⟩
    show x ∈ (transitions P calls _ w).1.decision.decisionRecord.rows
    rw [decisionRecord_transitions]
    rcases List.mem_append.mp hx with hx | hx
    · exact List.mem_append_left _ (h.own x hx)
    · obtain ⟨d, hd, hx⟩ := List.mem_flatMap.mp hx
      exact List.mem_append_right _
        (List.mem_flatMap.mpr ⟨d, List.mem_of_mem_filter hd, hx⟩)

end Kept

/-! ## One step in two worlds -/

/-- The AMR sees the same in two worlds, and has got the same verdicts. -/
structure Tied (amrId : String) (w w' : World) (own own' : List DecisionRecord) :
    Prop where
  same : SameFor amrId w w'
  left : Kept w own
  right : Kept w' own'
  verdicts : own'.map verdict = own.map verdict

section Step

variable {c : FrameCorrelator} {P : Poller} {amrId : String} {w w' : World}
  {own own' : List DecisionRecord} {calls calls' : String → Calls}

/-- A frame of another AMR changes nothing for the AMR. -/
theorem sameFor_other {e : Event} (he : e.IsOfOther amrId) (w : World) :
    SameFor amrId w (step c P w e) ∧ e.Succeeds ∧ eventDeliveries P amrId w e = [] := by
  cases e with
  | insertFrame row => exact ⟨⟨.insertFrame_other he, rfl⟩, trivial, rfl⟩
  | skipFrame => exact ⟨⟨.skipFrame, rfl⟩, trivial, rfl⟩
  | insertDust row => exact absurd he id
  | tick p => exact absurd he id
  | poll calls => exact absurd he id

/-- A poll in two worlds: the AMR has its turn in both or in none. -/
theorem sameFor_poll (h : Tied amrId w w' own own') (hcalls : NoFailure calls)
    (hcalls' : NoFailure calls') (hsame : calls' amrId = calls amrId)
    (hds : NoneSuppressed P own (eventDeliveries P amrId w (.poll calls)))
    (hds' : NoneSuppressed P own' (eventDeliveries P amrId w' (.poll calls'))) :
    SameFor amrId (step c P w (.poll calls)) (step c P w' (.poll calls')) ∧
      (records P (eventDeliveries P amrId w' (.poll calls'))).map verdict =
        (records P (eventDeliveries P amrId w (.poll calls))).map verdict := by
  by_cases hitem : ∃ current, (amrId, current) ∈ fetchCurrentWaypoints w.gw
  · obtain ⟨current, hitem⟩ := hitem
    have hitem' := h.same.gw.mem_fetchCurrentWaypoints hitem
    obtain ⟨turn, hturn, hrecords, hcases⟩ :=
      transitions_own (P := P) hcalls nodup_fetchCurrentWaypoints hitem w
    obtain ⟨turn', hturn', hrecords', hcases'⟩ :=
      transitions_own (P := P) hcalls' nodup_fetchCurrentWaypoints hitem' w'
    have hturns : SameFor amrId turn turn' := hturn.symm.trans (h.same.trans hturn')
    rw [h.same.prevWaypoint, hsame] at hcases'
    rcases hcases with ⟨heq, hnone, hend⟩ | ⟨hne, hone, hend⟩
    · rcases hcases' with ⟨-, hnone', hend'⟩ | ⟨hne', -⟩
      · refine ⟨hend.symm.trans ((hturns.remember current).trans hend'), ?_⟩
        rw [eventDeliveries, eventDeliveries, hnone, hnone']
      · exact absurd heq hne'
    · rcases hcases' with ⟨heq', -⟩ | ⟨-, hone', hend'⟩
      · exact absurd heq' hne
      · rw [eventDeliveries, hone] at hds
        rw [eventDeliveries, hone'] at hds'
        have hleaving : SameFor amrId ((leaving P (calls amrId) amrId turn).after P)
            ((leaving P (calls amrId) amrId turn').after P) := by
          have hafter := hturns.leaving (P := P) hcalls hcalls'
          rw [hsame] at hafter
          exact hafter
        refine ⟨hend.symm.trans ((hleaving.remember current).trans hend'), ?_⟩
        rw [eventDeliveries, eventDeliveries, hone, hone', records, records,
          List.flatMap_singleton, List.flatMap_singleton]
        refine verdicts_leaving hturns (calls amrId) ⟨fun hdec => ?_, fun hdec => ?_⟩
        · exact decided_leaving hturns.symm (calls amrId)
            (fun x hx => hrecords x (h.left.own x hx)) h.verdicts.symm hds'.1 hdec
        · exact decided_leaving hturns (calls amrId)
            (fun x hx => hrecords' x (h.right.own x hx)) h.verdicts hds.1 hdec
  · have hout : ∀ {gw gw' : GatewayDb}, SameGateway amrId gw gw' →
        (¬ ∃ current, (amrId, current) ∈ fetchCurrentWaypoints gw) →
        amrId ∉ (fetchCurrentWaypoints gw').map Prod.fst := by
      intro gw gw' hgw hnot hmem
      obtain ⟨⟨b, current⟩, hcur, rfl⟩ := List.mem_map.mp hmem
      exact hnot ⟨current, hgw.symm.mem_fetchCurrentWaypoints hcur⟩
    obtain ⟨hend, hnone⟩ := transitions_other (P := P) hcalls
      (hout (.refl amrId w.gw) hitem) w
    obtain ⟨hend', hnone'⟩ := transitions_other (P := P) hcalls'
      (hout h.same.gw hitem) w'
    refine ⟨hend.symm.trans (h.same.trans hend'), ?_⟩
    rw [eventDeliveries, eventDeliveries, hnone, hnone']

theorem Tied.symm (h : Tied amrId w w' own own') : Tied amrId w' w own' own :=
  ⟨h.same.symm, h.right, h.left, h.verdicts.symm⟩

/-- A step of one of the two worlds that only brings a frame of another
AMR. -/
theorem Tied.other (h : Tied amrId w w' own own') {e : Event} (he : e.IsOfOther amrId) :
    Tied amrId (step c P w e) w' (own ++ records P (eventDeliveries P amrId w e)) own' := by
  obtain ⟨hsame, hsucceeds, hnone⟩ := sameFor_other (c := c) (P := P) he w
  refine ⟨hsame.symm.trans h.same, h.left.step hsucceeds, h.right, ?_⟩
  rw [hnone, records, List.flatMap_nil, List.append_nil]
  exact h.verdicts

/-- A step that both worlds make. -/
theorem Tied.step (h : Tied amrId w w' own own') {e e' : Event} (he : e.Succeeds)
    (he' : e'.Succeeds) (hsame : SameFor amrId (step c P w e) (step c P w' e'))
    (hverdicts : (records P (eventDeliveries P amrId w' e')).map verdict =
      (records P (eventDeliveries P amrId w e)).map verdict) :
    Tied amrId (Isolation.step c P w e) (Isolation.step c P w' e')
      (own ++ records P (eventDeliveries P amrId w e))
      (own' ++ records P (eventDeliveries P amrId w' e')) := by
  refine ⟨hsame, h.left.step he, h.right.step he', ?_⟩
  rw [List.map_append, List.map_append, h.verdicts, hverdicts]

end Step

/-! ## Two runs -/

section Runs

variable {c : FrameCorrelator} {P : Poller} {amrId : String}

theorem run_records (own : List DecisionRecord) (ds : List Delivery) :
    run (fun own d => own ++ d.newRecords P) own ds = own ++ records P ds := by
  induction ds generalizing own with
  | nil => exact (List.append_nil own).symm
  | cons d ds ih =>
    rw [run_cons, ih, records, records, List.flatMap_cons, List.append_assoc]

/-- The first event of a run comes before the rest. -/
theorem noneSuppressed_cons {w : World} {own : List DecisionRecord} {e : Event}
    {es : List Event} :
    NoneSuppressed P own (delivered c P amrId w (e :: es)) ↔
      NoneSuppressed P own (eventDeliveries P amrId w e) ∧
        NoneSuppressed P (own ++ records P (eventDeliveries P amrId w e))
          (delivered c P amrId (step c P w e) es) := by
  rw [NoneSuppressed, delivered, outputs, allSteps_append, run_records]
  exact Iff.rfl

theorem records_cons (w : World) (own : List DecisionRecord) (e : Event)
    (es : List Event) :
    own ++ records P (delivered c P amrId w (e :: es)) =
      own ++ records P (eventDeliveries P amrId w e) ++
        records P (delivered c P amrId (step c P w e) es) := by
  rw [records, delivered, outputs, List.flatMap_append, List.append_assoc]
  rfl

/-- The verdicts of the AMR are the same after two runs with the same
inputs, from worlds in which they are the same. -/
theorem verdicts_of_sameInputs {w w' : World} {es es' : List Event}
    (h : SameInputs c P amrId w w' es es') {own own' : List DecisionRecord}
    (htied : Tied amrId w w' own own')
    (hds : NoneSuppressed P own (delivered c P amrId w es))
    (hds' : NoneSuppressed P own' (delivered c P amrId w' es')) :
    (own' ++ records P (delivered c P amrId w' es')).map verdict =
      (own ++ records P (delivered c P amrId w es)).map verdict := by
  induction h generalizing own own' with
  | nil w w' =>
    show (own' ++ []).map verdict = (own ++ []).map verdict
    rw [List.append_nil, List.append_nil, htied.verdicts]
  | left he _ ih =>
    rw [noneSuppressed_cons] at hds
    rw [records_cons]
    exact ih (htied.other he) hds.2 hds'
  | right he _ ih =>
    rw [noneSuppressed_cons] at hds'
    rw [records_cons]
    exact ih (htied.symm.other he).symm hds hds'.2
  | insertDust row _ ih =>
    rw [noneSuppressed_cons] at hds hds'
    rw [records_cons, records_cons]
    refine ih (htied.step trivial trivial ?_ rfl) hds.2 hds'.2
    exact ⟨htied.same.gw.insertDust row, htied.same.last⟩
  | insertFrame row hnext _ ih =>
    rw [noneSuppressed_cons] at hds hds'
    rw [records_cons, records_cons]
    refine ih (htied.step trivial trivial ?_ rfl) hds.2 hds'.2
    exact ⟨htied.same.gw.insertFrame htied.left.paired htied.right.paired row hnext,
      htied.same.last⟩
  | tick hp _ ih =>
    rw [noneSuppressed_cons] at hds hds'
    rw [records_cons, records_cons]
    refine ih (htied.step trivial trivial ?_ rfl) hds.2 hds'.2
    exact ⟨htied.same.gw.tick c hp, htied.same.last⟩
  | poll hcalls hcalls' hsame _ ih =>
    rw [noneSuppressed_cons] at hds hds'
    rw [records_cons, records_cons]
    obtain ⟨hend, hverdicts⟩ := sameFor_poll htied hcalls hcalls' hsame hds.1 hds'.1
    exact ih (htied.step hcalls hcalls' hend hverdicts) hds.2 hds'.2

/-- The records of the AMR's batches in a run from empty databases. -/
def recordsOf (c : FrameCorrelator) (P : Poller) (amrId : String) (es : List Event) :
    List DecisionRecord :=
  records P (delivered c P amrId World.init es)

/-- In two runs with the same inputs for an AMR, none of whose batches
finds the measurement of its representative recorded by another AMR, the
AMR gets the same verdicts. -/
theorem recordsOf_eq (c : FrameCorrelator) (P : Poller) (amrId : String)
    (es es' : List Event) (h : SameInputs c P amrId World.init World.init es es')
    (hds : NoneSuppressed P [] (delivered c P amrId World.init es))
    (hds' : NoneSuppressed P [] (delivered c P amrId World.init es')) :
    (recordsOf c P amrId es').map verdict = (recordsOf c P amrId es).map verdict := by
  have htied : Tied amrId World.init World.init [] [] :=
    ⟨.refl amrId World.init, kept_init, kept_init, rfl⟩
  exact verdicts_of_sameInputs h htied hds hds'

end Runs

/-! ## A shared measurement -/

/-- A frame of the AMR, taken at the time. -/
def frameOf (amrId : String) (now : Timestamp) : Event :=
  .insertFrame { id := 0, receivedAt := now, amrId := amrId, filePath := "" }

/-- `amr-01` is measured at the waypoint at the time, after the event of
another AMR, and a tick and a poll follow. -/
def visit (other : Event) (waypointId : Int) (now : Timestamp) : List Event :=
  [.insertDust { id := 0, receivedAt := now, waypointId := some waypointId },
    other,
    frameOf "amr-01" now,
    .tick ⟨fun _ => now, fun _ _ => 0⟩,
    .poll fun _ => answering]

/-- `amr-01` is measured at waypoint 1 and at waypoint 2. -/
def visits (other : Timestamp → Event) : List Event :=
  visit (other 10) 1 10 ++ visit (other 20) 2 20

/-- `amr-01` alone. -/
def alone : List Event := visits fun _ => .skipFrame

/-- How many ids of `cctv_frame` the event uses up. -/
def Event.usedIds : Event → Nat
  | .insertFrame _ | .skipFrame => 1
  | _ => 0

theorem next_step (c : FrameCorrelator) (P : Poller) (w : World) (e : Event) :
    (step c P w e).gw.cctvFrame.next = w.gw.cctvFrame.next + e.usedIds := by
  cases e with
  | insertDust row => rfl
  | insertFrame row => rfl
  | skipFrame => rfl
  | tick p =>
    show (c.pairSql p w.gw).cctvFrame.next = _
    rw [FrameCorrelator.pairSql, GatewayDb.foldl_enqueueCctvTransfer]
    rfl
  | poll calls => exact congrArg (fun s => s.1.next) sources_transitions

/-- `amr-01` alone, and beside another AMR. -/
theorem sameInputs_visits {b : String} (hb : b ≠ "amr-01") :
    SameInputs tightWindow defaultPoller "amr-01" World.init World.init alone
      (visits (frameOf b)) := by
  have hpass : ∀ gw p, SamePass "amr-01" gw p p :=
    fun gw p => ⟨fun _ _ _ => rfl, fun _ _ _ => rfl⟩
  refine .insertDust _ (.left trivial (.right hb (.insertFrame _ ?_ (.tick (hpass _ _)
    (.poll noFailure_answering noFailure_answering rfl ?_)))))
  · simp only [next_step, frameOf, Event.usedIds]
  refine .insertDust _ (.left trivial (.right hb (.insertFrame _ ?_ (.tick (hpass _ _)
    (.poll noFailure_answering noFailure_answering rfl (.nil _ _))))))
  simp only [next_step, frameOf, Event.usedIds]

/-- `amr-00` is at both waypoints as well, and its batch comes first: `amr-01`
gets no decision. -/
theorem not_recordsOf_eq_shared :
    SameInputs tightWindow defaultPoller "amr-01" World.init World.init alone
      (visits (frameOf "amr-00")) ∧
    (recordsOf tightWindow defaultPoller "amr-01" (visits (frameOf "amr-00"))).map verdict ≠
      (recordsOf tightWindow defaultPoller "amr-01" alone).map verdict := by
  exact ⟨sameInputs_visits (by decide), by decide⟩

instance (P : Poller) (own : List DecisionRecord) (d : Delivery) :
    Decidable (Unsuppressed P own d) :=
  inferInstanceAs (Decidable (_ → _))

instance (P : Poller) (own : List DecisionRecord) (ds : List Delivery) :
    Decidable (NoneSuppressed P own ds) :=
  decidableAllSteps own ds

/-- The batch of `amr-02` comes second, and `amr-01` gets the decision that
it gets alone. -/
theorem recordsOf_eq_shared :
    (recordsOf tightWindow defaultPoller "amr-01" (visits (frameOf "amr-02"))).map verdict =
      (recordsOf tightWindow defaultPoller "amr-01" alone).map verdict :=
  recordsOf_eq tightWindow defaultPoller "amr-01" alone (visits (frameOf "amr-02"))
    (sameInputs_visits (by decide)) (by decide) (by decide)

end DustMonitoring.PoolerTran.Isolation
