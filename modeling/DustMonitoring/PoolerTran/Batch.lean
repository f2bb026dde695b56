import DustMonitoring.PoolerTran.Body
import DustMonitoring.PoolerTran.Queue

/-!
# One waypoint batch

`processWaypointBatch` claims the queue rows of one AMR at one waypoint,
sends them to the REST server in one call, inserts one decision for the
whole batch and deletes the rows.  When one of the steps fails every row
goes through `handleFailure`, which counts the attempt or, past the limit,
moves the row to the dead letter table.  At the end the remainder of the
waypoint is purged if the batch was full and some counter went up.

What the outside world answers during a batch is a `Calls`.  The gateway
statements of a batch run in one transaction; here they all succeed, and
whether the transaction commits is left to the caller (`Statements` has those
that raise).
-/

namespace DustMonitoring.PoolerTran

open DustMonitoring.Lib DustMonitoring.Schema

/-- The settings of a `Poller` that its batches use. -/
structure Poller where
  batchSize : Nat
  maxAttempts : Int
  initWaypointId : Int := -1

/-- The counters of a poller. -/
structure Stats where
  processedOk : Nat := 0
  failed : Nat := 0
  deadLettered : Nat := 0
  orphansPurged : Nat := 0
  waypointTransitions : Nat := 0
  discardedOverBatch : Nat := 0
deriving DecidableEq, Repr

/-- What the poller remembers between polls. -/
structure PollerState where
  lastWaypointByAmr : String → Option Int := fun _ => none
  lastFrameId : Option Nat := none
  lastDustId : Option Nat := none
  stats : Stats := {}

/-- The two databases and the poller. -/
structure World where
  gw : GatewayDb
  decision : DecisionDb
  poller : PollerState

/-- What the outside world answers during one batch. -/
structure Calls where
  /-- The status and the body of the REST answer, or the exception. -/
  sendBatch : String → Int → List QueueRow → Except String (Nat × Json)
  fetchThresholds : Except String (String → Option Double)
  floatOfStr : String → Option Double
  readBytes : String → Except ReadError (List UInt8)
  insertDecision : Outcome
  /-- The write to the dead letter table, for each frame. -/
  deadLetter : Nat → Outcome
  now : Timestamp
  /-- The transaction of the batch commits. -/
  commits : Bool := true

/-- One frame of the list that a poll returns. -/
structure WaypointFrame where
  frameId : Nat
  dustId : Option Nat
  amrId : Option String
  receivedAt : Option Timestamp
  filePath : Option String
deriving DecidableEq, Repr

/-! ## The decision of a batch -/

/-- `r.dust_value`, or minus infinity. -/
def dustKey (r : QueueRow) : Double := r.dustValue.getD .negInf

/-- `_representative_row`: the first row with the largest dust value. -/
def representativeRow (first : QueueRow) (rest : List QueueRow) : QueueRow :=
  rest.foldl (fun best r => if (dustKey r).gt (dustKey best) then r else best) first

/-- `rep.received_at or max(received) or now`. -/
def observationTimestamp (rep : QueueRow) (rows : List QueueRow)
    (now : Timestamp) : Timestamp :=
  (rep.receivedAt.or (rows.filterMap QueueRow.receivedAt).max?).getD now

/-- The decision of a batch whose answer has the body, by the steps between
the REST call and the insert. -/
def decisionRow (calls : Calls) (amrId : String) (waypointId : Int)
    (first : QueueRow) (rest : List QueueRow) (body : Json) :
    Except String DecisionRecord := do
  let th ← calls.fetchThresholds
  let (staticScore, dynamicScore) ← extractDual calls.floatOfStr body
  let rep := representativeRow first rest
  let sensorRes ← classify (ofScore rep.dustValue) (th "dust")
  let anomalyRes ← classify staticScore (th "static")
  let objectRes ← classify dynamicScore (th "dynamic")
  let imageB64 ← encodeB64 calls.readBytes (staticP1 body)
  pure
    { id := 0
      stationId := s!"{amrId}:wp{waypointId}"
      observationTimestamp := observationTimestamp rep (first :: rest) calls.now
      dustId := rep.dustId
      sensorAnalysisResult := sensorRes
      anomalyDetectionResult := anomalyRes
      objectDetectionResult := objectRes
      resultPayload := body
      imageB64 := imageB64 }

/-! ## Failures -/

/-- One more failure takes the row past the retry limit. -/
def exceedsMaxAttempts (P : Poller) (row : QueueRow) : Bool :=
  decide (P.maxAttempts < (row.attempts + 1 : Nat))

/-- `queue.delete`. -/
def deleteRow (w : World) (row : QueueRow) : World :=
  { w with
    gw := w.gw.dequeue row.frameId }

/-- `queue.bump_attempts`, and the counter. -/
def bumpRow (w : World) (row : QueueRow) : World :=
  { w with
    gw := bumpAttempts w.gw row.frameId
    poller.stats.failed := w.poller.stats.failed + 1 }

/-- The dead letter of a row. -/
def letterOf (calls : Calls) (exc : String) (row : QueueRow) : TransferDlq where
  frameId := row.frameId
  attempts := row.attempts + 1
  lastError := String.ofList (exc.toList.take 2000)
  sourceRow := row
  deadLetteredAt := calls.now

/-- `_handle_failure`.  A row whose dead letter cannot be written stays in
the queue. -/
def handleFailure (P : Poller) (calls : Calls) (exc : String) (w : World)
    (row : QueueRow) : World :=
  if exceedsMaxAttempts P row then
    let written :=
      if (calls.deadLetter row.frameId).applied then
        { w with
          decision := w.decision.deadLetter (letterOf calls exc row) }
      else w
    match (calls.deadLetter row.frameId).exc? with
    | none =>
      { deleteRow written row with
        poller.stats.deadLettered := w.poller.stats.deadLettered + 1 }
    | some _ => bumpRow written row
  else bumpRow w row

/-! ## The batch -/

/-- Step ③: delete a row that was sent. -/
def finishRow (w : World) (row : QueueRow) : World :=
  { deleteRow w row with
    poller.stats.processedOk := w.poller.stats.processedOk + 1
    poller.lastFrameId := some row.frameId
    poller.lastDustId := row.dustId }

/-- Delete a row whose frame is gone. -/
def purgeOrphan (w : World) (row : QueueRow) : World :=
  { deleteRow w row with
    poller.stats.orphansPurged := w.poller.stats.orphansPurged + 1 }

/-- The decision insert. -/
def insertDecision (calls : Calls) (w : World) (row : DecisionRecord) : World :=
  if calls.insertDecision.applied then
    { w with
      decision := (w.decision.insertDecision row).1 }
  else w

/-- Steps ①, ② and ③ for rows that are no orphans. -/
def sendRows (P : Poller) (calls : Calls) (amrId : String) (waypointId : Int)
    (first : QueueRow) (rest : List QueueRow) (w : World) : World :=
  match calls.sendBatch amrId waypointId (first :: rest) with
  | .error exc => (first :: rest).foldl (handleFailure P calls exc) w
  | .ok (_, body) =>
    match decisionRow calls amrId waypointId first rest body with
    | .error exc => (first :: rest).foldl (handleFailure P calls exc) w
    | .ok row =>
      match calls.insertDecision.exc? with
      | some exc =>
        (first :: rest).foldl (handleFailure P calls exc)
          (insertDecision calls w row)
      | none => (first :: rest).foldl finishRow (insertDecision calls w row)

/-- `_process_batch_rows`. -/
def processBatchRows (P : Poller) (calls : Calls) (amrId : String)
    (waypointId : Int) (rows : List QueueRow) (w : World) : World :=
  let orphans := rows.filter QueueRow.isOrphan
  let purged := orphans.foldl purgeOrphan w
  match rows.filter (fun r => !r.isOrphan) with
  | [] => purged
  | first :: rest => sendRows P calls amrId waypointId first rest purged

/-- The counters that tell whether a batch made progress. -/
def cleared (w : World) : Nat :=
  w.poller.stats.processedOk + w.poller.stats.deadLettered +
    w.poller.stats.orphansPurged

/-- Purge the remainder of the waypoint, and count it. -/
def purgeRemainder (amrId : String) (waypointId : Int) (w : World) : World :=
  let (gw, discarded) := purgeWaypointRemainder w.gw amrId waypointId
  { w with
    gw := gw
    poller.stats.discardedOverBatch :=
      w.poller.stats.discardedOverBatch + discarded }

/-- `_process_waypoint_batch`: the rows it claimed and the world after it. -/
def processWaypointBatch (P : Poller) (calls : Calls) (amrId : String)
    (waypointId : Int) (w : World) : List QueueRow × World :=
  let rows := fetchBatchForWaypoint w.gw amrId waypointId P.batchSize
  let w₁ := processBatchRows P calls amrId waypointId rows w
  (rows,
    if rows.length = P.batchSize ∧ cleared w < cleared w₁ then
      purgeRemainder amrId waypointId w₁
    else w₁)

/-- The frame that a poll returns for a claimed row. -/
def toWaypointFrame (row : QueueRow) : WaypointFrame where
  frameId := row.frameId
  dustId := row.dustId
  amrId := row.amrId
  receivedAt := row.receivedAt
  filePath := row.filePath

/-! ## What a failure writes -/

/-- The row is deleted by its failure: it is past the limit and its dead
letter is written. -/
def deadLetters (P : Poller) (calls : Calls) (row : QueueRow) : Bool :=
  exceedsMaxAttempts P row && (calls.deadLetter row.frameId).exc?.isNone

/-- The row gets a dead letter: it is past the limit and the write is
applied, even if its exception keeps the row in the queue. -/
def letterApplied (P : Poller) (calls : Calls) (row : QueueRow) : Bool :=
  exceedsMaxAttempts P row && (calls.deadLetter row.frameId).applied

section Failure

variable (P : Poller) (calls : Calls) (exc : String) (w : World) (row : QueueRow)

/-- A failure deletes the row and writes its dead letter, or it counts the
attempt, with the dead letter written or not. -/
theorem handleFailure_cases :
    (deadLetters P calls row = true ∧ letterApplied P calls row = true ∧
      handleFailure P calls exc w row =
        { deleteRow { w with
            decision := w.decision.deadLetter (letterOf calls exc row) } row with
          poller.stats.deadLettered := w.poller.stats.deadLettered + 1 }) ∨
    (deadLetters P calls row = false ∧ letterApplied P calls row = true ∧
      handleFailure P calls exc w row =
        bumpRow { w with
          decision := w.decision.deadLetter (letterOf calls exc row) } row) ∨
    (deadLetters P calls row = false ∧ letterApplied P calls row = false ∧
      handleFailure P calls exc w row = bumpRow w row) := by
  unfold handleFailure deadLetters letterApplied
  cases hmax : exceedsMaxAttempts P row with
  | false => exact Or.inr (Or.inr ⟨rfl, rfl, rfl⟩)
  | true =>
    cases calls.deadLetter row.frameId with
    | ok => exact Or.inl ⟨rfl, rfl, rfl⟩
    | failed e => exact Or.inr (Or.inr ⟨rfl, rfl, rfl⟩)
    | lost e => exact Or.inr (Or.inl ⟨rfl, rfl, rfl⟩)

/-- The failure of a row in the queue. -/
def failQueue (gw : GatewayDb) (row : QueueRow) : GatewayDb :=
  if deadLetters P calls row then gw.dequeue row.frameId
  else bumpAttempts gw row.frameId

theorem gw_handleFailure :
    (handleFailure P calls exc w row).gw = failQueue P calls w.gw row := by
  unfold failQueue
  rcases handleFailure_cases P calls exc w row with ⟨hd, -, h⟩ | ⟨hd, -, h⟩ | ⟨hd, -, h⟩
  all_goals
    rw [h, hd]
    rfl

theorem decisionRecord_handleFailure :
    (handleFailure P calls exc w row).decision.decisionRecord =
      w.decision.decisionRecord := by
  rcases handleFailure_cases P calls exc w row with ⟨-, -, h⟩ | ⟨-, -, h⟩ | ⟨-, -, h⟩
  all_goals
    rw [h]
    rfl

theorem lastWaypointByAmr_handleFailure :
    (handleFailure P calls exc w row).poller.lastWaypointByAmr =
      w.poller.lastWaypointByAmr := by
  rcases handleFailure_cases P calls exc w row with ⟨-, -, h⟩ | ⟨-, -, h⟩ | ⟨-, -, h⟩
  all_goals
    rw [h]
    rfl

theorem cleared_handleFailure :
    cleared (handleFailure P calls exc w row) =
      cleared w + (deadLetters P calls row).toNat := by
  rcases handleFailure_cases P calls exc w row with ⟨hd, -, h⟩ | ⟨hd, -, h⟩ | ⟨hd, -, h⟩
  · rw [h, hd]
    simp only [cleared, deleteRow, Bool.toNat_true]
    omega
  all_goals
    rw [h, hd]
    rfl

theorem exists_transferDlq_handleFailure (k : Nat) :
    (∃ x ∈ (handleFailure P calls exc w row).decision.transferDlq.rows,
        x.frameId = k) ↔
      (∃ x ∈ w.decision.transferDlq.rows, x.frameId = k) ∨
        (row.frameId = k ∧ letterApplied P calls row = true) := by
  have hletter : (∃ x ∈ (w.decision.deadLetter
        (letterOf calls exc row)).transferDlq.rows, x.frameId = k) ↔
      (∃ x ∈ w.decision.transferDlq.rows, x.frameId = k) ∨ row.frameId = k := by
    rw [DecisionDb.exists_transferDlq_deadLetter]
    rfl
  rcases handleFailure_cases P calls exc w row with ⟨-, ha, h⟩ | ⟨-, ha, h⟩ | ⟨-, ha, h⟩
  · rw [h, ha, and_iff_left rfl]
    exact hletter
  · rw [h, ha, and_iff_left rfl]
    exact hletter
  · rw [h, ha]
    exact ⟨Or.inl, fun hk => hk.elim id (fun hk => absurd hk.2 (by decide))⟩

end Failure

end DustMonitoring.PoolerTran
