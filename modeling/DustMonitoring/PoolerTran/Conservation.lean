import DustMonitoring.Lib.Fallible
import DustMonitoring.Lib.Run
import DustMonitoring.PoolerTran.Batch

/-!
# Where the rows of a batch end up

A batch should leave each row it claimed in one of three places: recorded,
which is deleted with a decision of the batch's representative; in the dead
letter table; or in the queue with one more attempt.  The purge at the end
takes `cleared` as the sign that the batch was sent, but a dead letter
counts as well, so a full batch that fails loses the rows it kept as soon
as one of its rows becomes a dead letter.  `conserves_iff` is the exact
condition.
-/

namespace DustMonitoring.PoolerTran

open DustMonitoring.Lib DustMonitoring.Schema

/-! ## The queue after a list of rows -/

theorem mem_queue_dequeue {gw : GatewayDb} {k : Nat} {q : TransferRow} :
    q ∈ (gw.dequeue k).cctvTransferQueue.rows ↔
      q ∈ gw.cctvTransferQueue.rows ∧ q.frameId ≠ k := by
  simp [GatewayDb.dequeue]

theorem mem_queue_bumpAttempts {gw : GatewayDb} {k : Nat} {q : TransferRow} :
    q ∈ (bumpAttempts gw k).cctvTransferQueue.rows ↔
      ∃ q₀ ∈ gw.cctvTransferQueue.rows,
        (q₀.frameId ≠ k ∧ q = q₀) ∨
        (q₀.frameId = k ∧ q = { q₀ with attempts := q₀.attempts + 1 }) := by
  simp only [bumpAttempts, Table.mem_updateWhere, decide_eq_true_eq]
  constructor
  · intro h
    obtain ⟨q₀, hq₀, rfl⟩ := h
    refine ⟨q₀, hq₀, ?_⟩
    by_cases hk : q₀.frameId = k
    · exact Or.inr ⟨hk, if_pos hk⟩
    · exact Or.inl ⟨hk, if_neg hk⟩
  · intro h
    obtain ⟨q₀, hq₀, ⟨hk, rfl⟩ | ⟨hk, rfl⟩⟩ := h
    · exact ⟨q, hq₀, if_neg hk⟩
    · exact ⟨q₀, hq₀, if_pos hk⟩

/-- Taking the rows off the queue deletes them and nothing else. -/
theorem mem_queue_foldl_of_dequeue {step : World → QueueRow → World}
    (hstep : ∀ w r, (step w r).gw = w.gw.dequeue r.frameId) {rows : List QueueRow}
    {w : World} {q : TransferRow} :
    q ∈ (rows.foldl step w).gw.cctvTransferQueue.rows ↔
      q ∈ w.gw.cctvTransferQueue.rows ∧ ∀ r ∈ rows, r.frameId ≠ q.frameId := by
  induction rows generalizing w with
  | nil => simp
  | cons r rs ih =>
    rw [List.foldl_cons, ih, hstep, mem_queue_dequeue, List.forall_mem_cons, and_assoc]
    exact and_congr_right fun _ => and_congr_left fun _ => ne_comm

theorem mem_queue_foldl_finishRow {rows : List QueueRow} {w : World}
    {q : TransferRow} :
    q ∈ (rows.foldl finishRow w).gw.cctvTransferQueue.rows ↔
      q ∈ w.gw.cctvTransferQueue.rows ∧ ∀ r ∈ rows, r.frameId ≠ q.frameId :=
  mem_queue_foldl_of_dequeue fun _ _ => rfl

/-- Failing one row deletes it if its dead letter is written, and else counts
the attempt. -/
theorem mem_queue_failQueue {P : Poller} {calls : Calls} {gw : GatewayDb} {r : QueueRow}
    {q : TransferRow} :
    q ∈ (failQueue P calls gw r).cctvTransferQueue.rows ↔
      ∃ q₀ ∈ gw.cctvTransferQueue.rows,
        (q = q₀ ∧ r.frameId ≠ q₀.frameId) ∨
        (r.frameId = q₀.frameId ∧ deadLetters P calls r = false ∧
          q = { q₀ with attempts := q₀.attempts + 1 }) := by
  unfold failQueue
  cases deadLetters P calls r with
  | true =>
    rw [if_pos rfl, mem_queue_dequeue]
    constructor
    · rintro ⟨hq, hne⟩
      exact ⟨q, hq, Or.inl ⟨rfl, hne.symm⟩⟩
    · rintro ⟨q₀, hq₀, ⟨rfl, hne⟩ | ⟨-, hd, -⟩⟩
      · exact ⟨hq₀, hne.symm⟩
      · cases hd
  | false =>
    rw [if_neg Bool.false_ne_true, mem_queue_bumpAttempts]
    refine exists_congr fun q₀ => and_congr_right fun _ => or_congr ?_ ?_
    · rw [and_comm, ne_comm]
    · rw [eq_comm, and_iff_right rfl]

/-- Failing the rows deletes those whose dead letter is written, counts the
attempt of the others, and leaves the rest of the queue. -/
theorem mem_queue_foldl_handleFailure {P : Poller} {calls : Calls} {exc : String}
    {rows : List QueueRow} (hnodup : (rows.map QueueRow.frameId).Nodup)
    {w : World} {q : TransferRow} :
    q ∈ (rows.foldl (handleFailure P calls exc) w).gw.cctvTransferQueue.rows ↔
      ∃ q₀ ∈ w.gw.cctvTransferQueue.rows,
        (q = q₀ ∧ ∀ r ∈ rows, r.frameId ≠ q₀.frameId) ∨
        (∃ r ∈ rows, r.frameId = q₀.frameId ∧ deadLetters P calls r = false ∧
          q = { q₀ with attempts := q₀.attempts + 1 }) := by
  induction rows generalizing w with
  | nil => simp
  | cons r rs ih =>
    rw [List.map_cons, List.nodup_cons] at hnodup
    have hfresh : ∀ x ∈ rs, x.frameId ≠ r.frameId := by
      intro x hx heq
      exact hnodup.1 (heq ▸ List.mem_map_of_mem hx)
    rw [List.foldl_cons, ih hnodup.2, gw_handleFailure]
    simp only [mem_queue_failQueue]
    constructor
    · rintro ⟨q₁, ⟨q₀, hq₀, ⟨rfl, hne⟩ | ⟨hk₀, hd, rfl⟩⟩, hq⟩
      · rcases hq with ⟨rfl, hall⟩ | ⟨x, hx, hk, hq⟩
        · exact ⟨q, hq₀, Or.inl ⟨rfl, List.forall_mem_cons.mpr ⟨hne, hall⟩⟩⟩
        · exact ⟨q₁, hq₀, Or.inr ⟨x, List.mem_cons_of_mem r hx, hk, hq⟩⟩
      · rcases hq with ⟨rfl, hall⟩ | ⟨x, hx, hk, -⟩
        · exact ⟨q₀, hq₀, Or.inr ⟨r, List.mem_cons_self, hk₀, hd, rfl⟩⟩
        · exact absurd (hk.trans hk₀.symm) (hfresh x hx)
    · rintro ⟨q₀, hq₀, ⟨rfl, hall⟩ | ⟨x, hx, hk, hd, rfl⟩⟩
      · obtain ⟨hne, hall⟩ := List.forall_mem_cons.mp hall
        exact ⟨q, ⟨q, hq₀, Or.inl ⟨rfl, hne⟩⟩, Or.inl ⟨rfl, hall⟩⟩
      · rcases List.mem_cons.mp hx with rfl | hx
        · refine ⟨_, ⟨q₀, hq₀, Or.inr ⟨hk, hd, rfl⟩⟩, Or.inl ⟨rfl, fun y hy => ?_⟩⟩
          rw [← hk]
          exact hfresh y hy
        · refine ⟨q₀, ⟨q₀, hq₀, Or.inl ⟨rfl, ?_⟩⟩, Or.inr ⟨x, hx, hk, hd, rfl⟩⟩
          rw [← hk]
          exact (hfresh x hx).symm

/-! ## The rest of the world after a list of rows -/

section Folds

variable (P : Poller) (calls : Calls) (exc : String) (rows : List QueueRow)
  (w : World)

theorem sources_foldl_handleFailure :
    sources (rows.foldl (handleFailure P calls exc) w).gw = sources w.gw := by
  have hstep : ∀ (w : World) r,
      sources (handleFailure P calls exc w r).gw = sources w.gw := by
    intro w r
    rw [gw_handleFailure, failQueue]
    split
    · rfl
    · rfl
  exact run_eq (handleFailure P calls exc) (fun w => sources w.gw) hstep w rows

theorem lastWaypointByAmr_foldl_handleFailure :
    (rows.foldl (handleFailure P calls exc) w).poller.lastWaypointByAmr =
      w.poller.lastWaypointByAmr :=
  run_eq (handleFailure P calls exc) (fun w => w.poller.lastWaypointByAmr)
    (lastWaypointByAmr_handleFailure P calls exc) w rows

theorem decisionRecord_foldl_handleFailure :
    (rows.foldl (handleFailure P calls exc) w).decision.decisionRecord =
      w.decision.decisionRecord :=
  run_eq (handleFailure P calls exc) (fun w => w.decision.decisionRecord)
    (decisionRecord_handleFailure P calls exc) w rows

theorem exists_transferDlq_foldl_handleFailure (k : Nat) :
    (∃ x ∈ (rows.foldl (handleFailure P calls exc) w).decision.transferDlq.rows,
        x.frameId = k) ↔
      (∃ x ∈ w.decision.transferDlq.rows, x.frameId = k) ∨
        ∃ r ∈ rows, r.frameId = k ∧ letterApplied P calls r = true := by
  induction rows generalizing w with
  | nil => simp
  | cons r rs ih =>
    rw [List.foldl_cons, ih, exists_transferDlq_handleFailure, or_assoc]
    exact or_congr_right (by simp [List.mem_cons])

/-- A failing batch makes progress exactly if some row becomes a dead
letter. -/
theorem cleared_foldl_handleFailure :
    cleared w < cleared (rows.foldl (handleFailure P calls exc) w) ↔
      ∃ r ∈ rows, deadLetters P calls r = true := by
  have hsum : cleared (rows.foldl (handleFailure P calls exc) w) =
      cleared w + rows.countP (deadLetters P calls) := by
    induction rows generalizing w with
    | nil => rfl
    | cons r rs ih =>
      rw [List.foldl_cons, ih, cleared_handleFailure, List.countP_cons]
      cases deadLetters P calls r with
      | true =>
        simp only [Bool.toNat_true, if_true]
        omega
      | false => rfl
  rw [hsum, Nat.lt_add_right_iff_pos, List.countP_pos_iff]

theorem sources_foldl_finishRow :
    sources (rows.foldl finishRow w).gw = sources w.gw :=
  run_eq finishRow (fun w => sources w.gw) (fun _ _ => rfl) w rows

theorem lastWaypointByAmr_foldl_finishRow :
    (rows.foldl finishRow w).poller.lastWaypointByAmr =
      w.poller.lastWaypointByAmr :=
  run_eq finishRow (fun w => w.poller.lastWaypointByAmr) (fun _ _ => rfl) w rows

theorem decision_foldl_finishRow :
    (rows.foldl finishRow w).decision = w.decision :=
  run_eq finishRow World.decision (fun _ _ => rfl) w rows

theorem cleared_foldl_finishRow :
    cleared (rows.foldl finishRow w) = cleared w + rows.length := by
  induction rows generalizing w with
  | nil => rfl
  | cons r rs ih =>
    rw [List.foldl_cons, ih, List.length_cons]
    simp only [cleared, finishRow, deleteRow]
    omega

end Folds

/-! ## The two ways a batch can end -/

/-- The representative of the claimed rows. -/
def representative : List QueueRow → Option QueueRow
  | [] => none
  | first :: rest => some (representativeRow first rest)

/-- The REST server answers, and with something that the steps before the
insert accept. -/
def reachesInsert (calls : Calls) (amrId : String) (waypointId : Int) :
    List QueueRow → Bool
  | [] => false
  | first :: rest =>
    match calls.sendBatch amrId waypointId (first :: rest) with
    | .error _ => false
    | .ok (_, body) =>
      (decisionRow calls amrId waypointId first rest body).toBool

/-- Every call of the batch succeeds. -/
def succeeds (calls : Calls) (amrId : String) (waypointId : Int)
    (rows : List QueueRow) : Bool :=
  reachesInsert calls amrId waypointId rows && calls.insertDecision.exc?.isNone

/-- The decision of the batch is inserted, even if the client gets an
exception. -/
def insertApplied (calls : Calls) (amrId : String) (waypointId : Int)
    (rows : List QueueRow) : Bool :=
  reachesInsert calls amrId waypointId rows && calls.insertDecision.applied

/-- A decision that was made has its image read, and holds the measurement of
the representative and the body. -/
theorem of_decisionRow {calls : Calls} {amrId : String} {waypointId : Int}
    {first : QueueRow} {rest : List QueueRow} {body : Json} {row : DecisionRecord}
    (h : decisionRow calls amrId waypointId first rest body = .ok row) :
    encodeB64 calls.readBytes (staticP1 body) = .ok row.imageB64 ∧
      row.dustId = (representativeRow first rest).dustId ∧ row.resultPayload = body := by
  unfold decisionRow at h
  obtain ⟨th, -, h⟩ := bind_eq_ok.mp h
  obtain ⟨scores, -, h⟩ := bind_eq_ok.mp h
  obtain ⟨sensor, -, h⟩ := bind_eq_ok.mp h
  obtain ⟨anomaly, -, h⟩ := bind_eq_ok.mp h
  obtain ⟨object, -, h⟩ := bind_eq_ok.mp h
  obtain ⟨image, himage, h⟩ := bind_eq_ok.mp h
  obtain rfl := Except.ok.inj h
  exact ⟨himage, rfl, rfl⟩

/-- The decision is of the measurement of the representative. -/
theorem dustId_of_decisionRow {calls : Calls} {amrId : String} {waypointId : Int}
    {first : QueueRow} {rest : List QueueRow} {body : Json} {row : DecisionRecord}
    (h : decisionRow calls amrId waypointId first rest body = .ok row) :
    row.dustId = (representativeRow first rest).dustId :=
  (of_decisionRow h).2.1

/-- `w'` is `w` with the decision of the batch inserted if `applied`. -/
structure Inserted (rows : List QueueRow) (applied : Bool) (w w' : World) :
    Prop where
  gw : w'.gw = w.gw
  poller : w'.poller = w.poller
  transferDlq : w'.decision.transferDlq = w.decision.transferDlq
  hasDecision : ∀ d, (representative rows).bind QueueRow.dustId = some d →
    (w'.decision.hasDecision d = true ↔
      w.decision.hasDecision d = true ∨ applied = true)
  mono : ∀ d, w.decision.hasDecision d = true → w'.decision.hasDecision d = true

private theorem inserted_insertDecision {calls : Calls} {amrId : String}
    {waypointId : Int} {first : QueueRow} {rest : List QueueRow} {body : Json}
    {row : DecisionRecord}
    (hrow : decisionRow calls amrId waypointId first rest body = .ok row)
    (w : World) :
    Inserted (first :: rest) calls.insertDecision.applied w
      (insertDecision calls w row) := by
  unfold insertDecision
  cases happ : calls.insertDecision.applied with
  | false => exact ⟨rfl, rfl, rfl, fun d _ => by simp, fun d h => h⟩
  | true =>
    refine ⟨rfl, rfl, DecisionDb.transferDlq_insertDecision _ _, ?_,
      fun d h => DecisionDb.hasDecision_insertDecision h⟩
    intro d hd
    have hdust : row.dustId = some d := (dustId_of_decisionRow hrow).trans hd
    simp [DecisionDb.hasDecision_insertDecision_self hdust]

/-- A batch that succeeds finishes its rows, and one that does not fails
them all. -/
theorem sendRows_cases (P : Poller) (calls : Calls) (amrId : String)
    (waypointId : Int) (first : QueueRow) (rest : List QueueRow) (w : World) :
    ∃ w₀, Inserted (first :: rest)
        (insertApplied calls amrId waypointId (first :: rest)) w w₀ ∧
      ((succeeds calls amrId waypointId (first :: rest) = true ∧
          insertApplied calls amrId waypointId (first :: rest) = true ∧
          sendRows P calls amrId waypointId first rest w =
            (first :: rest).foldl finishRow w₀) ∨
        (succeeds calls amrId waypointId (first :: rest) = false ∧
          ∃ exc, sendRows P calls amrId waypointId first rest w =
            (first :: rest).foldl (handleFailure P calls exc) w₀)) := by
  have hskip : Inserted (first :: rest) false w w :=
    ⟨rfl, rfl, rfl, fun d _ => by simp, fun d h => h⟩
  rw [succeeds, insertApplied]
  cases hsend : calls.sendBatch amrId waypointId (first :: rest) with
  | error exc =>
    have hreach : reachesInsert calls amrId waypointId (first :: rest) = false := by
      simp only [reachesInsert, hsend]
    rw [hreach]
    refine ⟨w, hskip, Or.inr ⟨rfl, exc, ?_⟩⟩
    simp only [sendRows, hsend]
  | ok answer =>
    cases hrow : decisionRow calls amrId waypointId first rest answer.2 with
    | error exc =>
      have hreach : reachesInsert calls amrId waypointId (first :: rest) = false := by
        simp only [reachesInsert, hsend, hrow]
        rfl
      rw [hreach]
      refine ⟨w, hskip, Or.inr ⟨rfl, exc, ?_⟩⟩
      simp only [sendRows, hsend, hrow]
    | ok row =>
      have hreach : reachesInsert calls amrId waypointId (first :: rest) = true := by
        simp only [reachesInsert, hsend, hrow]
        rfl
      rw [hreach]
      refine ⟨insertDecision calls w row, inserted_insertDecision hrow w, ?_⟩
      cases hins : calls.insertDecision with
      | ok =>
        refine Or.inl ⟨rfl, rfl, ?_⟩
        simp only [sendRows, hsend, hrow, hins, Outcome.exc?]
      | failed exc =>
        refine Or.inr ⟨rfl, exc, ?_⟩
        simp only [sendRows, hsend, hrow, hins, Outcome.exc?]
      | lost exc =>
        refine Or.inr ⟨rfl, exc, ?_⟩
        simp only [sendRows, hsend, hrow, hins, Outcome.exc?]

/-! ## What the batch leaves -/

/-- The queue holds a row of the frame. -/
def Queued (w : World) (frameId : Nat) : Prop :=
  ∃ q ∈ w.gw.cctvTransferQueue.rows, q.frameId = frameId

/-- The row is deleted, and there is a decision of the representative. -/
def Recorded (rows : List QueueRow) (w : World) (r : QueueRow) : Prop :=
  ¬ Queued w r.frameId ∧
    ∃ d, (representative rows).bind QueueRow.dustId = some d ∧
      w.decision.hasDecision d = true

/-- The row is deleted and in the dead letter table. -/
def DeadLettered (w : World) (r : QueueRow) : Prop :=
  ¬ Queued w r.frameId ∧
    ∃ x ∈ w.decision.transferDlq.rows, x.frameId = r.frameId

/-- The row is in the queue with one more attempt. -/
def Kept (w : World) (r : QueueRow) : Prop :=
  ∃ q ∈ w.gw.cctvTransferQueue.rows,
    q.frameId = r.frameId ∧ q.attempts = r.attempts + 1

/-- One of three and no other. -/
def ExactlyOne (a b c : Prop) : Prop :=
  (a ∧ ¬ b ∧ ¬ c) ∨ (¬ a ∧ b ∧ ¬ c) ∨ (¬ a ∧ ¬ b ∧ c)

section Batch

variable (P : Poller) (calls : Calls) (amrId : String) (waypointId : Int)
  (w : World)

/-- The rows that the batch claims. -/
def claimedRows : List QueueRow :=
  fetchBatchForWaypoint w.gw amrId waypointId P.batchSize

/-- The world before the purge. -/
def beforePurge : World :=
  processBatchRows P calls amrId waypointId (claimedRows P amrId waypointId w) w

/-- The world after the batch. -/
def afterBatch : World := (processWaypointBatch P calls amrId waypointId w).2

/-- The batch purges the remainder of the waypoint. -/
def purges : Prop :=
  (claimedRows P amrId waypointId w).length = P.batchSize ∧
    cleared w < cleared (beforePurge P calls amrId waypointId w)

/-- Every claimed row ends up in one place, and the purge takes none of the
rows that were kept. -/
def Conserves : Prop :=
  (∀ r ∈ claimedRows P amrId waypointId w, r.isOrphan = false →
    ExactlyOne
      (Recorded (claimedRows P amrId waypointId w)
        (afterBatch P calls amrId waypointId w) r)
      (DeadLettered (afterBatch P calls amrId waypointId w) r)
      (Kept (afterBatch P calls amrId waypointId w) r)) ∧
  ∀ r ∈ claimedRows P amrId waypointId w,
    Kept (beforePurge P calls amrId waypointId w) r →
      Kept (afterBatch P calls amrId waypointId w) r

/-- A batch that succeeds claims no frame that is in the dead letter table
already.  A batch that fails and writes a dead letter leaves no decision of
its representative, and is not full or writes one for every row. -/
def CanConserve : Prop :=
  if succeeds calls amrId waypointId (claimedRows P amrId waypointId w) = true then
    ∀ r ∈ claimedRows P amrId waypointId w,
      ¬ ∃ x ∈ w.decision.transferDlq.rows, x.frameId = r.frameId
  else
    (∃ r ∈ claimedRows P amrId waypointId w, deadLetters P calls r = true) →
      ((∀ d, (representative (claimedRows P amrId waypointId w)).bind
            QueueRow.dustId = some d → w.decision.hasDecision d = false) ∧
        insertApplied calls amrId waypointId
          (claimedRows P amrId waypointId w) = false) ∧
      ((claimedRows P amrId waypointId w).length < P.batchSize ∨
        ∀ r ∈ claimedRows P amrId waypointId w, deadLetters P calls r = true)

variable {P calls amrId waypointId w}

theorem nodup_claimedRows :
    ((claimedRows P amrId waypointId w).map QueueRow.frameId).Nodup :=
  nodup_fetchBatch

theorem afterBatch_of_purges (h : purges P calls amrId waypointId w) :
    afterBatch P calls amrId waypointId w =
      purgeRemainder amrId waypointId (beforePurge P calls amrId waypointId w) :=
  if_pos h

theorem afterBatch_of_not_purges (h : ¬ purges P calls amrId waypointId w) :
    afterBatch P calls amrId waypointId w =
      beforePurge P calls amrId waypointId w :=
  if_neg h

theorem decision_afterBatch :
    (afterBatch P calls amrId waypointId w).decision =
      (beforePurge P calls amrId waypointId w).decision := by
  by_cases h : purges P calls amrId waypointId w
  · rw [afterBatch_of_purges h]
    rfl
  · rw [afterBatch_of_not_purges h]

theorem mem_queue_purge {gw : GatewayDb} {q : TransferRow} :
    q ∈ (purgeWaypointRemainder gw amrId waypointId).1.cctvTransferQueue.rows ↔
      q ∈ gw.cctvTransferQueue.rows ∧ ¬ AtWaypoint gw amrId waypointId q := by
  simp only [purgeWaypointRemainder, Table.mem_deleteWhere]
  rw [← Bool.not_eq_true, isAtWaypoint_joinRow]

theorem mem_queue_afterBatch_of_purges (h : purges P calls amrId waypointId w)
    {q : TransferRow} :
    q ∈ (afterBatch P calls amrId waypointId w).gw.cctvTransferQueue.rows ↔
      q ∈ (beforePurge P calls amrId waypointId w).gw.cctvTransferQueue.rows ∧
        ¬ AtWaypoint (beforePurge P calls amrId waypointId w).gw amrId waypointId q := by
  rw [← mem_queue_purge, afterBatch_of_purges h]
  rfl

/-- The purge adds nothing to the queue. -/
theorem mem_queue_beforePurge {q : TransferRow}
    (h : q ∈ (afterBatch P calls amrId waypointId w).gw.cctvTransferQueue.rows) :
    q ∈ (beforePurge P calls amrId waypointId w).gw.cctvTransferQueue.rows := by
  by_cases hp : purges P calls amrId waypointId w
  · exact ((mem_queue_afterBatch_of_purges hp).mp h).1
  · rw [afterBatch_of_not_purges hp] at h
    exact h

/-- No claimed row is an orphan, so the batch sends all it claims. -/
theorem beforePurge_eq :
    beforePurge P calls amrId waypointId w =
      match claimedRows P amrId waypointId w with
      | [] => w
      | first :: rest => sendRows P calls amrId waypointId first rest w := by
  have hnone : ∀ r ∈ claimedRows P amrId waypointId w, r.isOrphan = false := by
    intro r hr
    obtain ⟨q, -, rfl, hat⟩ := of_mem_fetchBatch hr
    exact hat.isOrphan
  have horphans : (claimedRows P amrId waypointId w).filter QueueRow.isOrphan = [] :=
    List.filter_eq_nil_iff.mpr fun r hr => by simp [hnone r hr]
  have hrows : (claimedRows P amrId waypointId w).filter (fun r => !r.isOrphan) =
      claimedRows P amrId waypointId w :=
    List.filter_eq_self.mpr fun r hr => by simp [hnone r hr]
  rw [beforePurge, processBatchRows, horphans, hrows]
  rfl

variable (P calls amrId waypointId w) in
/-- The rows of the batch are all finished, or all failed. -/
theorem beforePurge_cases :
    ∃ w₀, Inserted (claimedRows P amrId waypointId w)
        (insertApplied calls amrId waypointId (claimedRows P amrId waypointId w)) w w₀ ∧
      ((succeeds calls amrId waypointId (claimedRows P amrId waypointId w) = true ∧
          insertApplied calls amrId waypointId
            (claimedRows P amrId waypointId w) = true ∧
          beforePurge P calls amrId waypointId w =
            (claimedRows P amrId waypointId w).foldl finishRow w₀) ∨
        (succeeds calls amrId waypointId (claimedRows P amrId waypointId w) = false ∧
          ∃ exc, beforePurge P calls amrId waypointId w =
            (claimedRows P amrId waypointId w).foldl (handleFailure P calls exc) w₀)) := by
  rw [beforePurge_eq]
  cases claimedRows P amrId waypointId w with
  | nil =>
    refine ⟨w, ⟨rfl, rfl, rfl, fun d hd => ?_, fun d h => h⟩, Or.inr ⟨rfl, "", rfl⟩⟩
    contradiction
  | cons first rest =>
    exact sendRows_cases P calls amrId waypointId first rest w

theorem representativeRow_mem (first : QueueRow) (rest : List QueueRow) :
    representativeRow first rest ∈ first :: rest := by
  induction rest generalizing first with
  | nil => exact List.mem_cons_self
  | cons r rs ih =>
    show representativeRow (if (dustKey r).gt (dustKey first) then r else first) rs ∈ _
    split
    · exact List.mem_cons_of_mem first (ih r)
    · rcases List.mem_cons.mp (ih first) with h | h
      · rw [h]
        exact List.mem_cons_self
      · exact List.mem_cons_of_mem first (List.mem_cons_of_mem r h)

/-- A batch that claims a row has a representative, and its measurement is
known. -/
theorem exists_representative_dustId {r : QueueRow}
    (hr : r ∈ claimedRows P amrId waypointId w) :
    ∃ d, (representative (claimedRows P amrId waypointId w)).bind
      QueueRow.dustId = some d := by
  cases hrows : claimedRows P amrId waypointId w with
  | nil =>
    rw [hrows] at hr
    exact absurd hr List.not_mem_nil
  | cons first rest =>
    have hmem := representativeRow_mem first rest
    rw [← hrows] at hmem
    obtain ⟨q, -, hq, hat⟩ := of_mem_fetchBatch hmem
    obtain ⟨d, hd⟩ := hat.exists_dustId
    refine ⟨d, ?_⟩
    show (representativeRow first rest).dustId = some d
    rw [hq]
    exact hd

/-! ### A batch that succeeds -/

theorem not_queued_of_succeeds {w₀ : World}
    (h : beforePurge P calls amrId waypointId w =
      (claimedRows P amrId waypointId w).foldl finishRow w₀) {r : QueueRow}
    (hr : r ∈ claimedRows P amrId waypointId w) :
    ¬ Queued (beforePurge P calls amrId waypointId w) r.frameId := by
  intro hqueued
  obtain ⟨q, hq, hk⟩ := hqueued
  rw [h] at hq
  exact (mem_queue_foldl_finishRow.mp hq).2 r hr hk.symm

theorem conserves_of_succeeds
    (h : succeeds calls amrId waypointId (claimedRows P amrId waypointId w) = true) :
    Conserves P calls amrId waypointId w ↔
      ∀ r ∈ claimedRows P amrId waypointId w,
        ¬ ∃ x ∈ w.decision.transferDlq.rows, x.frameId = r.frameId := by
  obtain ⟨w₀, hins, ⟨-, happ, hfold⟩ | ⟨hfail, -⟩⟩ :=
    beforePurge_cases P calls amrId waypointId w
  · have hdec : (afterBatch P calls amrId waypointId w).decision = w₀.decision := by
      rw [decision_afterBatch, hfold, decision_foldl_finishRow]
    have hgone : ∀ r ∈ claimedRows P amrId waypointId w,
        ¬ Queued (afterBatch P calls amrId waypointId w) r.frameId := by
      intro r hr hqueued
      obtain ⟨q, hq, hk⟩ := hqueued
      exact not_queued_of_succeeds hfold hr ⟨q, mem_queue_beforePurge hq, hk⟩
    have hrecorded : ∀ r ∈ claimedRows P amrId waypointId w,
        Recorded (claimedRows P amrId waypointId w)
          (afterBatch P calls amrId waypointId w) r := by
      intro r hr
      obtain ⟨d, hd⟩ := exists_representative_dustId hr
      refine ⟨hgone r hr, d, hd, ?_⟩
      rw [hdec]
      exact (hins.hasDecision d hd).mpr (Or.inr happ)
    constructor
    · intro hc r hr hletter
      obtain ⟨q, -, hq, hat⟩ := of_mem_fetchBatch hr
      have horphan : r.isOrphan = false := by
        rw [hq]
        exact hat.isOrphan
      have hdead : DeadLettered (afterBatch P calls amrId waypointId w) r := by
        refine ⟨hgone r hr, ?_⟩
        rw [hdec, hins.transferDlq]
        exact hletter
      rcases hc.1 r hr horphan with ⟨-, hnot, -⟩ | ⟨hnot, -, -⟩ | ⟨hnot, -, -⟩
      · exact hnot hdead
      · exact hnot (hrecorded r hr)
      · exact hnot (hrecorded r hr)
    · intro hfree
      refine ⟨fun r hr _ => Or.inl ⟨hrecorded r hr, ?_, ?_⟩, fun r hr hkept => ?_⟩
      · intro hdead
        have hletter := hdead.2
        rw [hdec, hins.transferDlq] at hletter
        exact hfree r hr hletter
      · intro hkept
        obtain ⟨q, hq, hk, -⟩ := hkept
        exact hgone r hr ⟨q, hq, hk⟩
      · obtain ⟨q, hq, hk, -⟩ := hkept
        exact absurd ⟨q, hq, hk⟩ (not_queued_of_succeeds hfold hr)
  · rw [h] at hfail
    contradiction

/-! ### A batch that fails -/

theorem letterApplied_of_deadLetters {r : QueueRow}
    (h : deadLetters P calls r = true) : letterApplied P calls r = true := by
  unfold deadLetters at h
  unfold letterApplied
  cases hletter : calls.deadLetter r.frameId with
  | ok =>
    rw [hletter] at h
    exact h
  | failed exc =>
    rw [hletter] at h
    simp [Outcome.exc?] at h
  | lost exc =>
    rw [hletter] at h
    simp [Outcome.exc?] at h

section Fails

variable {exc : String} {w₀ : World}
  (hins : Inserted (claimedRows P amrId waypointId w)
    (insertApplied calls amrId waypointId (claimedRows P amrId waypointId w)) w w₀)
  (hfold : beforePurge P calls amrId waypointId w =
    (claimedRows P amrId waypointId w).foldl (handleFailure P calls exc) w₀)

include hfold

/-- A row with a dead letter is deleted. -/
theorem not_queued_of_fails {r : QueueRow}
    (hr : r ∈ claimedRows P amrId waypointId w)
    (hdead : deadLetters P calls r = true) :
    ¬ Queued (beforePurge P calls amrId waypointId w) r.frameId := by
  intro hqueued
  obtain ⟨q, hq, hk⟩ := hqueued
  rw [hfold, mem_queue_foldl_handleFailure nodup_claimedRows] at hq
  obtain ⟨q₀, -, ⟨rfl, hall⟩ | ⟨r', hr', hk', hnot, rfl⟩⟩ := hq
  · exact hall r hr hk.symm
  · have heq : r' = r :=
      List.inj_on_of_nodup_map nodup_claimedRows hr' hr (hk'.trans hk)
    rw [heq, hdead] at hnot
    contradiction

theorem not_kept_of_fails {r : QueueRow}
    (hr : r ∈ claimedRows P amrId waypointId w)
    (hdead : deadLetters P calls r = true) :
    ¬ Kept (beforePurge P calls amrId waypointId w) r := by
  intro hkept
  obtain ⟨q, hq, hk, -⟩ := hkept
  exact not_queued_of_fails hfold hr hdead ⟨q, hq, hk⟩

theorem deadLettered_of_fails {r : QueueRow}
    (hr : r ∈ claimedRows P amrId waypointId w)
    (hdead : deadLetters P calls r = true) :
    DeadLettered (afterBatch P calls amrId waypointId w) r := by
  constructor
  · intro hqueued
    obtain ⟨q, hq, hk⟩ := hqueued
    exact not_queued_of_fails hfold hr hdead ⟨q, mem_queue_beforePurge hq, hk⟩
  · rw [decision_afterBatch, hfold, exists_transferDlq_foldl_handleFailure]
    exact Or.inr ⟨r, hr, rfl, letterApplied_of_deadLetters hdead⟩

include hins

/-- A failing batch purges exactly if it is full and writes a dead
letter. -/
theorem purges_iff_of_fails :
    purges P calls amrId waypointId w ↔
      (claimedRows P amrId waypointId w).length = P.batchSize ∧
        ∃ r ∈ claimedRows P amrId waypointId w, deadLetters P calls r = true := by
  have hcleared : cleared w = cleared w₀ := by rw [cleared, cleared, hins.poller]
  rw [purges, hfold, hcleared, cleared_foldl_handleFailure]

/-- A row without a dead letter is still queued before the purge, at its
waypoint and with one more attempt. -/
theorem exists_kept_of_fails {r : QueueRow}
    (hr : r ∈ claimedRows P amrId waypointId w)
    (hnot : deadLetters P calls r = false) :
    ∃ q ∈ (beforePurge P calls amrId waypointId w).gw.cctvTransferQueue.rows,
      (q.frameId = r.frameId ∧ q.attempts = r.attempts + 1) ∧
      AtWaypoint (beforePurge P calls amrId waypointId w).gw amrId waypointId q := by
  obtain ⟨q, hq, rfl, hat⟩ := of_mem_fetchBatch hr
  refine ⟨{ q with attempts := q.attempts + 1 }, ?_, ⟨rfl, rfl⟩, ?_⟩
  · rw [hfold, mem_queue_foldl_handleFailure nodup_claimedRows, hins.gw]
    exact ⟨q, hq, Or.inr ⟨w.gw.joinRow q, hr, rfl, hnot, rfl⟩⟩
  · refine hat.congr ?_ rfl rfl
    rw [hfold, sources_foldl_handleFailure, hins.gw]

/-- A row without a dead letter is lost if the batch purges. -/
theorem not_kept_of_purges {r : QueueRow}
    (hr : r ∈ claimedRows P amrId waypointId w)
    (hnot : deadLetters P calls r = false)
    (hp : purges P calls amrId waypointId w) :
    ¬ Kept (afterBatch P calls amrId waypointId w) r := by
  intro hkept
  obtain ⟨q, hq, hk, -⟩ := hkept
  obtain ⟨hbefore, hnotAt⟩ := (mem_queue_afterBatch_of_purges hp).mp hq
  obtain ⟨q', hq', ⟨hk', -⟩, hat⟩ := exists_kept_of_fails hins hfold hr hnot
  have heq : q = q' :=
    (beforePurge P calls amrId waypointId w).gw.cctvTransferQueue.eq_of_key_eq
      hbefore hq' (hk.trans hk'.symm)
  rw [heq] at hnotAt
  exact hnotAt hat

/-- After a failing batch there is a decision of the representative if
there was one or the insert was applied. -/
theorem hasDecision_afterBatch_of_fails {d : Nat}
    (hd : (representative (claimedRows P amrId waypointId w)).bind
      QueueRow.dustId = some d) :
    (afterBatch P calls amrId waypointId w).decision.hasDecision d = true ↔
      w.decision.hasDecision d = true ∨
        insertApplied calls amrId waypointId
          (claimedRows P amrId waypointId w) = true := by
  rw [← hins.hasDecision d hd, DecisionDb.hasDecision_iff, DecisionDb.hasDecision_iff,
    decision_afterBatch, hfold, decisionRecord_foldl_handleFailure]

end Fails

theorem isOrphan_of_claimed {r : QueueRow}
    (hr : r ∈ claimedRows P amrId waypointId w) : r.isOrphan = false := by
  obtain ⟨q, -, rfl, hat⟩ := of_mem_fetchBatch hr
  exact hat.isOrphan

/-- What a failing batch must avoid, from what it leaves. -/
theorem of_conserves_of_fails {exc : String} {w₀ : World}
    (hins : Inserted (claimedRows P amrId waypointId w)
      (insertApplied calls amrId waypointId (claimedRows P amrId waypointId w)) w w₀)
    (hfold : beforePurge P calls amrId waypointId w =
      (claimedRows P amrId waypointId w).foldl (handleFailure P calls exc) w₀)
    (hc : Conserves P calls amrId waypointId w) {r₀ : QueueRow}
    (hr₀ : r₀ ∈ claimedRows P amrId waypointId w)
    (hd₀ : deadLetters P calls r₀ = true) :
    ((∀ d, (representative (claimedRows P amrId waypointId w)).bind
          QueueRow.dustId = some d → w.decision.hasDecision d = false) ∧
      insertApplied calls amrId waypointId
        (claimedRows P amrId waypointId w) = false) ∧
    ((claimedRows P amrId waypointId w).length < P.batchSize ∨
      ∀ r ∈ claimedRows P amrId waypointId w, deadLetters P calls r = true) := by
  have hdead := deadLettered_of_fails hfold hr₀ hd₀
  have hnone : ∀ d, (representative (claimedRows P amrId waypointId w)).bind
      QueueRow.dustId = some d →
      ¬ (afterBatch P calls amrId waypointId w).decision.hasDecision d = true := by
    intro d hd hhas
    rcases hc.1 r₀ hr₀ (isOrphan_of_claimed hr₀) with ⟨-, hnot, -⟩ | ⟨hnot, -, -⟩ | ⟨-, hnot, -⟩
    · exact hnot hdead
    · exact hnot ⟨hdead.1, d, hd, hhas⟩
    · exact hnot hdead
  refine ⟨⟨fun d hd => ?_, ?_⟩, ?_⟩
  · rw [← Bool.not_eq_true]
    intro hhas
    exact hnone d hd ((hasDecision_afterBatch_of_fails hins hfold hd).mpr (Or.inl hhas))
  · obtain ⟨d, hd⟩ := exists_representative_dustId hr₀
    rw [← Bool.not_eq_true]
    intro happ
    exact hnone d hd ((hasDecision_afterBatch_of_fails hins hfold hd).mpr (Or.inr happ))
  · by_cases hlt : (claimedRows P amrId waypointId w).length < P.batchSize
    · exact Or.inl hlt
    · refine Or.inr fun r hr => ?_
      have hle : (claimedRows P amrId waypointId w).length ≤ P.batchSize :=
        length_fetchBatch_le
      have hp : purges P calls amrId waypointId w :=
        (purges_iff_of_fails hins hfold).mpr ⟨by omega, r₀, hr₀, hd₀⟩
      cases hd : deadLetters P calls r with
      | true => rfl
      | false =>
        obtain ⟨q, hq, hk, -⟩ := exists_kept_of_fails hins hfold hr hd
        exact absurd (hc.2 r hr ⟨q, hq, hk⟩) (not_kept_of_purges hins hfold hr hd hp)

theorem conserves_of_fails
    (h : succeeds calls amrId waypointId (claimedRows P amrId waypointId w) = false) :
    Conserves P calls amrId waypointId w ↔
      ((∃ r ∈ claimedRows P amrId waypointId w, deadLetters P calls r = true) →
        ((∀ d, (representative (claimedRows P amrId waypointId w)).bind
              QueueRow.dustId = some d → w.decision.hasDecision d = false) ∧
          insertApplied calls amrId waypointId
            (claimedRows P amrId waypointId w) = false) ∧
        ((claimedRows P amrId waypointId w).length < P.batchSize ∨
          ∀ r ∈ claimedRows P amrId waypointId w, deadLetters P calls r = true)) := by
  obtain ⟨w₀, hins, ⟨hok, -⟩ | ⟨-, exc, hfold⟩⟩ :=
    beforePurge_cases P calls amrId waypointId w
  · rw [h] at hok
    contradiction
  constructor
  · intro hc hsome
    obtain ⟨r₀, hr₀, hd₀⟩ := hsome
    exact of_conserves_of_fails hins hfold hc hr₀ hd₀
  intro hcond
  -- a batch that keeps a row does not purge
  have hsame : ∀ r ∈ claimedRows P amrId waypointId w, deadLetters P calls r = false →
      afterBatch P calls amrId waypointId w =
        beforePurge P calls amrId waypointId w := by
    intro r hr hnot
    apply afterBatch_of_not_purges
    intro hp
    obtain ⟨hfull, hsome⟩ := (purges_iff_of_fails hins hfold).mp hp
    rcases (hcond hsome).2 with hlt | hall
    · omega
    · rw [hall r hr] at hnot
      contradiction
  constructor
  · intro r hr _
    cases hd : deadLetters P calls r with
    | true =>
      have hdead := deadLettered_of_fails hfold hr hd
      obtain ⟨⟨hnone, hnotApplied⟩, -⟩ := hcond ⟨r, hr, hd⟩
      refine Or.inr (Or.inl ⟨fun hrec => ?_, hdead, fun hkept => ?_⟩)
      · obtain ⟨-, d, hrep, hhas⟩ := hrec
        rw [hasDecision_afterBatch_of_fails hins hfold hrep, hnone d hrep,
          hnotApplied] at hhas
        simp at hhas
      · obtain ⟨q, hq, hk, -⟩ := hkept
        exact hdead.1 ⟨q, hq, hk⟩
    | false =>
      obtain ⟨q, hq, hk, -⟩ := exists_kept_of_fails hins hfold hr hd
      rw [hsame r hr hd]
      have hqueued : Queued (beforePurge P calls amrId waypointId w) r.frameId :=
        ⟨q, hq, hk.1⟩
      exact Or.inr (Or.inr ⟨fun hrec => hrec.1 hqueued,
        fun hdead => hdead.1 hqueued, q, hq, hk⟩)
  · intro r hr hkept
    cases hd : deadLetters P calls r with
    | true => exact absurd hkept (not_kept_of_fails hfold hr hd)
    | false =>
      rw [hsame r hr hd]
      exact hkept

/-- A batch conserves its rows exactly under the condition. -/
theorem conserves_iff (P : Poller) (calls : Calls) (amrId : String)
    (waypointId : Int) (w : World) :
    Conserves P calls amrId waypointId w ↔
      CanConserve P calls amrId waypointId w := by
  unfold CanConserve
  split
  · rename_i h
    exact conserves_of_succeeds h
  · rename_i h
    exact conserves_of_fails (Bool.not_eq_true _ ▸ h)

end Batch

/-! ## A full batch with mixed attempts -/

instance (w : World) (r : QueueRow) : Decidable (Kept w r) :=
  inferInstanceAs (Decidable (∃ q ∈ w.gw.cctvTransferQueue.rows, _))

/-- Two frames of one AMR at waypoint 7 are queued.  The first has failed
ten times. -/
def mixedAttempts : World where
  gw :=
    let paired := (((GatewayDb.empty.insertDust
        { id := 0, receivedAt := 0, waypointId := some 7 }).insertFrame
        { id := 0, receivedAt := 0, amrId := "amr-01", filePath := "1.jpg" }).insertFrame
        { id := 0, receivedAt := 1, amrId := "amr-01", filePath := "2.jpg" })
    let queued := (paired.enqueueCctvTransfer 0 (1, 1)).enqueueCctvTransfer 1 (2, 1)
    (List.range 10).foldl (fun gw _ => bumpAttempts gw 1) queued
  decision := DecisionDb.empty
  poller := {}

/-- The REST server does not answer; decision_db does. -/
def restDown : Calls where
  sendBatch := fun _ _ _ => .error "ConnectError('')"
  fetchThresholds := .ok fun _ => none
  floatOfStr := fun _ => none
  readBytes := fun _ => .error .osError
  insertDecision := .ok
  deadLetter := fun _ => .ok
  now := 2

/-- The first row becomes a dead letter, and the purge takes the second one
along, which was kept for a retry. -/
theorem not_conserves_mixedAttempts :
    ¬ Conserves { batchSize := 2, maxAttempts := 10 } restDown "amr-01" 7
      mixedAttempts := by
  intro h
  have hkept := h.2 (mixedAttempts.gw.joinRow
    { frameId := 2, dustId := some 1, enqueuedAt := 1 }) (by decide) (by decide)
  revert hkept
  decide

end DustMonitoring.PoolerTran
