import DustMonitoring.PoolerTran.LeftBehind

/-!
# Deliveries

A `Delivery` is one batch as it begins: the AMR, the waypoint, the world
that the batch finds and the answers that it gets.  `deliveries` lists the
batches of a poll in this form.

What a delivery adds to `decision_record` is `newRecords`: the decision of
its claimed rows, if the batch gets as far as the insert, the insert is
applied, and the measurement of the representative has no record yet.
Nothing else of a poll writes `decision_record`, whether the transaction of
a batch commits or not (`decisionRecord_transitions`).
-/

namespace DustMonitoring.PoolerTran

open DustMonitoring.Lib DustMonitoring.Schema

/-- A batch as it begins. -/
structure Delivery where
  calls : Calls
  amrId : String
  waypointId : Int
  before : World

namespace Delivery

variable (P : Poller) (d : Delivery)

/-- The rows that the batch claims. -/
def rows : List QueueRow := claimedRows P d.amrId d.waypointId d.before

/-- The world after the batch, before its transaction ends. -/
def after : World := afterBatch P d.calls d.amrId d.waypointId d.before

/-- The records that the batch adds. -/
def newRecords : List DecisionRecord :=
  (d.after P).decision.decisionRecord.rows.drop
    d.before.decision.decisionRecord.rows.length

end Delivery

/-- The delivery of the previous waypoint of an AMR. -/
def leaving (P : Poller) (calls : Calls) (amrId : String) (w : World) : Delivery :=
  ⟨calls, amrId, prevWaypoint P w amrId, countTransition w⟩

/-- The batches of a poll, each with the world that it finds. -/
def deliveries (P : Poller) (calls : String → Calls) :
    List (String × Int) → World → List Delivery
  | [], _ => []
  | (amrId, currentWp) :: rest, w =>
    if currentWp = prevWaypoint P w amrId then
      deliveries P calls rest (remember w amrId currentWp)
    else
      let d := leaving P (calls amrId) amrId w
      if (calls amrId).commits then
        d :: deliveries P calls rest (remember (d.after P) amrId currentWp)
      else [d]

/-! ## The decision that a batch inserts -/

/-- The decision of the claimed rows, if the REST server answers with
something that the steps before the insert accept. -/
def decisionOf (calls : Calls) (amrId : String) (waypointId : Int) :
    List QueueRow → Option DecisionRecord
  | [] => none
  | first :: rest =>
    match calls.sendBatch amrId waypointId (first :: rest) with
    | .error _ => none
    | .ok (_, body) => (decisionRow calls amrId waypointId first rest body).toOption

theorem reachesInsert_eq (calls : Calls) (amrId : String) (waypointId : Int)
    (rows : List QueueRow) :
    reachesInsert calls amrId waypointId rows =
      (decisionOf calls amrId waypointId rows).isSome := by
  cases rows with
  | nil => rfl
  | cons first rest =>
    simp only [reachesInsert, decisionOf]
    cases calls.sendBatch amrId waypointId (first :: rest) with
    | error exc => rfl
    | ok answer =>
      show (decisionRow calls amrId waypointId first rest answer.2).toBool =
        (decisionRow calls amrId waypointId first rest answer.2).toOption.isSome
      cases decisionRow calls amrId waypointId first rest answer.2 with
      | error exc => rfl
      | ok row => rfl

/-- The decision is of the measurement of the representative. -/
theorem dustId_of_decisionOf {calls : Calls} {amrId : String} {waypointId : Int}
    {rows : List QueueRow} {row : DecisionRecord}
    (h : decisionOf calls amrId waypointId rows = some row) :
    row.dustId = (representative rows).bind QueueRow.dustId := by
  cases rows with
  | nil => contradiction
  | cons first rest =>
    simp only [decisionOf] at h
    cases hsend : calls.sendBatch amrId waypointId (first :: rest) with
    | error exc =>
      rw [hsend] at h
      contradiction
    | ok answer =>
      rw [hsend] at h
      cases hrow : decisionRow calls amrId waypointId first rest answer.2 with
      | error exc =>
        simp only [hrow] at h
        contradiction
      | ok row' =>
        simp only [hrow] at h
        obtain rfl := Option.some.inj h
        exact dustId_of_decisionRow hrow

/-- The table `decision_record` after the insert of the decision, if the
batch gets as far and the insert is applied. -/
def insertedRecords (calls : Calls) (amrId : String) (waypointId : Int)
    (rows : List QueueRow) (db : DecisionDb) : SerialTable DecisionRecord.id :=
  match decisionOf calls amrId waypointId rows with
  | some row =>
    if calls.insertDecision.applied then (db.insertDecision row).1.decisionRecord
    else db.decisionRecord
  | none => db.decisionRecord

section Batch

variable {P : Poller} {calls : Calls} {amrId : String} {waypointId : Int} {w : World}

private theorem decisionRecord_sendRows (first : QueueRow) (rest : List QueueRow) :
    (sendRows P calls amrId waypointId first rest w).decision.decisionRecord =
      insertedRecords calls amrId waypointId (first :: rest) w.decision := by
  have hinsert : ∀ row, (insertDecision calls w row).decision.decisionRecord =
      if calls.insertDecision.applied then
        (w.decision.insertDecision row).1.decisionRecord
      else w.decision.decisionRecord := by
    intro row
    unfold insertDecision
    split <;> rfl
  cases hsend : calls.sendBatch amrId waypointId (first :: rest) with
  | error exc =>
    have hnone : decisionOf calls amrId waypointId (first :: rest) = none := by
      simp only [decisionOf, hsend]
    simp only [sendRows, insertedRecords, hsend, hnone]
    exact decisionRecord_foldl_handleFailure P calls exc (first :: rest) w
  | ok answer =>
    cases hrow : decisionRow calls amrId waypointId first rest answer.2 with
    | error exc =>
      have hnone : decisionOf calls amrId waypointId (first :: rest) = none := by
        simp only [decisionOf, hsend, hrow]
        rfl
      simp only [sendRows, insertedRecords, hsend, hrow, hnone]
      exact decisionRecord_foldl_handleFailure P calls exc (first :: rest) w
    | ok row =>
      have hsome : decisionOf calls amrId waypointId (first :: rest) = some row := by
        simp only [decisionOf, hsend, hrow]
        rfl
      simp only [sendRows, insertedRecords, hsend, hrow, hsome, ← hinsert]
      cases calls.insertDecision.exc? with
      | none => exact congrArg _ (decision_foldl_finishRow (first :: rest) _)
      | some exc => exact decisionRecord_foldl_handleFailure P calls exc (first :: rest) _

/-- A batch writes `decision_record` by its one insert. -/
theorem decisionRecord_afterBatch :
    (afterBatch P calls amrId waypointId w).decision.decisionRecord =
      insertedRecords calls amrId waypointId (claimedRows P amrId waypointId w)
        w.decision := by
  rw [decision_afterBatch, beforePurge_eq]
  cases claimedRows P amrId waypointId w with
  | nil => rfl
  | cons first rest => exact decisionRecord_sendRows first rest

end Batch

/-! ## The record that a delivery adds -/

namespace Delivery

variable {P : Poller} {d : Delivery}

/-- The insert of the delivery is applied. -/
def Inserts (P : Poller) (d : Delivery) : Prop :=
  insertApplied d.calls d.amrId d.waypointId (d.rows P) = true

/-- The measurement of the representative has a record already. -/
def Decided (P : Poller) (d : Delivery) : Prop :=
  ((representative (d.rows P)).bind QueueRow.dustId).any
    d.before.decision.hasDecision = true

instance : Decidable (d.Inserts P) := inferInstanceAs (Decidable (_ = _))

instance : Decidable (d.Decided P) := inferInstanceAs (Decidable (_ = _))

/-- The record of the decision `row`, under the id that it gets. -/
def recordOf (d : Delivery) (row : DecisionRecord) : DecisionRecord :=
  { row with id := d.before.decision.decisionRecord.next }

/-- A delivery adds one record, or it adds none: its insert is not applied,
or the measurement has a record. -/
theorem decisionRecord_after (P : Poller) (d : Delivery) :
    ((d.Inserts P → d.Decided P) ∧
      (d.after P).decision.decisionRecord = d.before.decision.decisionRecord) ∨
    (d.Inserts P ∧ ¬ d.Decided P ∧
      ∃ row, decisionOf d.calls d.amrId d.waypointId (d.rows P) = some row ∧
        (d.after P).decision.decisionRecord =
          d.before.decision.decisionRecord.append
            (fun n => { row with id := n }) (fun _ => rfl)) := by
  have hafter : (d.after P).decision.decisionRecord =
      insertedRecords d.calls d.amrId d.waypointId (d.rows P) d.before.decision :=
    decisionRecord_afterBatch
  have hinserts : d.Inserts P ↔
      (decisionOf d.calls d.amrId d.waypointId (d.rows P)).isSome = true ∧
        d.calls.insertDecision.applied = true := by
    rw [Inserts, insertApplied, reachesInsert_eq, Bool.and_eq_true]
  rw [hafter, hinserts, insertedRecords]
  cases hrow : decisionOf d.calls d.amrId d.waypointId (d.rows P) with
  | none => exact Or.inl ⟨fun h => by simp at h, rfl⟩
  | some row =>
    have hdust := dustId_of_decisionOf hrow
    cases happ : d.calls.insertDecision.applied with
    | false => exact Or.inl ⟨fun h => by simp at h, by simp⟩
    | true =>
      rw [Decided, ← hdust]
      simp only [if_true, DecisionDb.insertDecision]
      by_cases hany : row.dustId.any d.before.decision.hasDecision = true
      · exact Or.inl ⟨fun _ => hany, by rw [if_pos hany]⟩
      · exact Or.inr ⟨⟨rfl, trivial⟩, hany, row, rfl, by rw [if_neg hany]⟩

/-- A delivery adds to `decision_record` and changes nothing of it. -/
theorem rows_after (P : Poller) (d : Delivery) :
    (d.after P).decision.decisionRecord.rows =
      d.before.decision.decisionRecord.rows ++ d.newRecords P := by
  obtain ⟨-, h⟩ | ⟨-, -, row, -, h⟩ := decisionRecord_after P d
  · rw [newRecords, h, List.drop_length, List.append_nil]
  · rw [newRecords, h]
    simp [SerialTable.append]

theorem newRecords_cases (P : Poller) (d : Delivery) :
    ((d.Inserts P → d.Decided P) ∧ d.newRecords P = []) ∨
    (d.Inserts P ∧ ¬ d.Decided P ∧
      ∃ row, decisionOf d.calls d.amrId d.waypointId (d.rows P) = some row ∧
        d.newRecords P = [d.recordOf row]) := by
  obtain ⟨hdec, h⟩ | ⟨hins, hdec, row, hrow, h⟩ := decisionRecord_after P d
  · exact Or.inl ⟨hdec, by rw [newRecords, h, List.drop_length]⟩
  · refine Or.inr ⟨hins, hdec, row, hrow, ?_⟩
    rw [newRecords, h]
    simp [SerialTable.append, recordOf]

/-- The ids of the new records are drawn after those before the
delivery. -/
theorem next_le_after (P : Poller) (d : Delivery) :
    d.before.decision.decisionRecord.next ≤
      (d.after P).decision.decisionRecord.next := by
  obtain ⟨-, h⟩ | ⟨-, -, row, -, h⟩ := decisionRecord_after P d
  · rw [h]
  · rw [h]
    exact Nat.le_succ _

end Delivery

/-! ## The deliveries of a poll -/

section Loop

variable {P : Poller} {calls : String → Calls} {amrId : String} {currentWp : Int}
  {rest items : List (String × Int)} {w : World}

theorem deliveries_of_eq (h : currentWp = prevWaypoint P w amrId) :
    deliveries P calls ((amrId, currentWp) :: rest) w =
      deliveries P calls rest (remember w amrId currentWp) := by
  rw [deliveries]
  exact if_pos h

theorem deliveries_of_commits (h : currentWp ≠ prevWaypoint P w amrId)
    (hc : (calls amrId).commits = true) :
    deliveries P calls ((amrId, currentWp) :: rest) w =
      leaving P (calls amrId) amrId w ::
        deliveries P calls rest
          (remember ((leaving P (calls amrId) amrId w).after P) amrId currentWp) := by
  rw [deliveries]
  simp only [h, hc, if_true, if_false]

theorem deliveries_of_not_commits (h : currentWp ≠ prevWaypoint P w amrId)
    (hc : (calls amrId).commits = false) :
    deliveries P calls ((amrId, currentWp) :: rest) w =
      [leaving P (calls amrId) amrId w] := by
  rw [deliveries]
  simp only [h, hc, if_false, Bool.false_eq_true]

/-- A poll adds to `decision_record` what its deliveries add. -/
theorem decisionRecord_transitions :
    (transitions P calls items w).1.decision.decisionRecord.rows =
      w.decision.decisionRecord.rows ++
        (deliveries P calls items w).flatMap (·.newRecords P) := by
  induction items generalizing w with
  | nil => exact (List.append_nil _).symm
  | cons item rest ih =>
    obtain ⟨amrId, currentWp⟩ := item
    have hafter := Delivery.rows_after P (leaving P (calls amrId) amrId w)
    by_cases h : currentWp = prevWaypoint P w amrId
    · rw [transitions_of_eq h, deliveries_of_eq h]
      exact ih
    · cases hc : (calls amrId).commits with
      | true =>
        rw [transitions_of_commits h hc, deliveries_of_commits h hc, List.flatMap_cons,
          ← List.append_assoc]
        refine ih.trans (congrArg (· ++ _) ?_)
        exact hafter
      | false =>
        rw [transitions_of_not_commits h hc, deliveries_of_not_commits h hc,
          List.flatMap_singleton]
        exact hafter

end Loop

end DustMonitoring.PoolerTran
