import DustMonitoring.PoolerTran.Delivery

/-!
# Statements that raise

The gateway statements of a batch run in one transaction.  In `Batch` they all
succeed, and only the commit may fail.  Here any of them may raise.  The first
one that does ends the batch: the transaction is broken, so every statement
behind it raises too, also the one that `_handle_failure` falls back to; the
exception ends the poll, and gateway_db is as it was before the batch.  What
the batch wrote to decision_db stays, and so do its counters up to then.

Main results:

* `transitions_quiet` -- a poll in which nothing raises is the poll of `Poll`;
* `processWaypointBatch_cases` -- where a batch can end;
* `exists_calls_of_error` -- one that ends early leaves decision_db and what is
  remembered of the waypoints like one whose commit fails.
-/

namespace DustMonitoring.PoolerTran

open DustMonitoring.Lib DustMonitoring.Schema

/-- The statements of the transaction of a batch that raise. -/
structure Raising where
  /-- The claim of the rows. -/
  claim : Bool := false
  /-- The delete of the frame, or the count of its attempt. -/
  row : Nat → Bool := fun _ => false
  /-- The purge of the remainder. -/
  purge : Bool := false

namespace Raising

variable (R : Raising) (P : Poller) (calls : Calls)

/-- The statement of the row raises. -/
def fails (row : QueueRow) : Bool := R.row row.frameId

/-- `queue.bump_attempts`, and the counter. -/
def bumpRow (w : World) (row : QueueRow) : Except World World :=
  if R.fails row then .error w else .ok (PoolerTran.bumpRow w row)

/-- `_handle_failure`.  A delete that raises is caught, and the statement behind
it raises again. -/
def handleFailure (exc : String) (w : World) (row : QueueRow) : Except World World :=
  if exceedsMaxAttempts P row then
    let written :=
      if (calls.deadLetter row.frameId).applied then
        { w with
          decision := w.decision.deadLetter (letterOf calls exc row) }
      else w
    match (calls.deadLetter row.frameId).exc? with
    | none =>
      if R.fails row then R.bumpRow written row
      else
        .ok { deleteRow written row with
          poller.stats.deadLettered := w.poller.stats.deadLettered + 1 }
    | some _ => R.bumpRow written row
  else R.bumpRow w row

/-- Step ③: delete a row that was sent. -/
def finishRow (w : World) (row : QueueRow) : Except World World :=
  if R.fails row then .error w else .ok (PoolerTran.finishRow w row)

/-- Delete a row whose frame is gone. -/
def purgeOrphan (w : World) (row : QueueRow) : Except World World :=
  if R.fails row then .error w else .ok (PoolerTran.purgeOrphan w row)

/-- Steps ①, ② and ③ for rows that are no orphans. -/
def sendRows (amrId : String) (waypointId : Int) (first : QueueRow) (rest : List QueueRow)
    (w : World) : Except World World :=
  match calls.sendBatch amrId waypointId (first :: rest) with
  | .error exc => (first :: rest).foldlM (R.handleFailure P calls exc) w
  | .ok (_, body) =>
    match decisionRow calls amrId waypointId first rest body with
    | .error exc => (first :: rest).foldlM (R.handleFailure P calls exc) w
    | .ok row =>
      match calls.insertDecision.exc? with
      | some exc =>
        (first :: rest).foldlM (R.handleFailure P calls exc) (insertDecision calls w row)
      | none => (first :: rest).foldlM R.finishRow (insertDecision calls w row)

/-- `_process_batch_rows`. -/
def processBatchRows (amrId : String) (waypointId : Int) (rows : List QueueRow) (w : World) :
    Except World World := do
  let purged ← (rows.filter QueueRow.isOrphan).foldlM R.purgeOrphan w
  match rows.filter (fun r => !r.isOrphan) with
  | [] => .ok purged
  | first :: rest => R.sendRows P calls amrId waypointId first rest purged

/-- `_process_waypoint_batch`: the world at its end, or when it raises. -/
def processWaypointBatch (amrId : String) (waypointId : Int) (w : World) :
    Except World World :=
  if R.claim then .error w
  else do
    let rows := fetchBatchForWaypoint w.gw amrId waypointId P.batchSize
    let w₁ ← R.processBatchRows P calls amrId waypointId rows w
    if rows.length = P.batchSize ∧ cleared w < cleared w₁ then
      if R.purge then .error w₁ else .ok (purgeRemainder amrId waypointId w₁)
    else .ok w₁

end Raising

/-- The loop of `_check_waypoint_transition` over the current waypoints. -/
def transitionsRaising (P : Poller) (calls : String → Calls) (raising : String → Raising) :
    List (String × Int) → World → World
  | [], w => w
  | (amrId, currentWp) :: rest, w =>
    let prevWp := prevWaypoint P w amrId
    if currentWp = prevWp then
      transitionsRaising P calls raising rest (remember w amrId currentWp)
    else
      match (raising amrId).processWaypointBatch P (calls amrId) amrId prevWp
        (countTransition w) with
      | .error w₁ => { w₁ with gw := w.gw }
      | .ok w₁ =>
        if (calls amrId).commits then
          transitionsRaising P calls raising rest (remember w₁ amrId currentWp)
        else { w₁ with gw := w.gw }

/-! ## One row -/

namespace Raising

variable {R : Raising} {P : Poller} {calls : Calls}

/-- The dead letter of a row, where it is written. -/
def writeLetter (P : Poller) (calls : Calls) (exc : String) (w : World) (row : QueueRow) :
    World :=
  if letterApplied P calls row then
    { w with
      decision := w.decision.deadLetter (letterOf calls exc row) }
  else w

/-- A failure is handled, or ends the batch with the dead letter of the row. -/
theorem handleFailure_eq (exc : String) :
    R.handleFailure P calls exc =
      failAt R.fails (writeLetter P calls exc) (PoolerTran.handleFailure P calls exc) := by
  funext w row
  unfold handleFailure failAt writeLetter PoolerTran.handleFailure letterApplied bumpRow
  cases exceedsMaxAttempts P row <;> cases R.fails row <;>
    cases calls.deadLetter row.frameId <;> rfl

end Raising

/-! ## The batch -/

/-- The world when the loop over the rows begins, and the exception that the
rows fail with. -/
def beforeLoop (calls : Calls) (amrId : String) (waypointId : Int) (w : World) :
    List QueueRow → World × Option String
  | [] => (w, none)
  | first :: rest =>
    match calls.sendBatch amrId waypointId (first :: rest) with
    | .error exc => (w, some exc)
    | .ok (_, body) =>
      match decisionRow calls amrId waypointId first rest body with
      | .error exc => (w, some exc)
      | .ok row => (insertDecision calls w row, calls.insertDecision.exc?)

/-- What the loop does with a row. -/
def rowStep (P : Poller) (calls : Calls) : Option String → World → QueueRow → World
  | none => finishRow
  | some exc => handleFailure P calls exc

/-- What a row leaves whose statement raises. -/
def rowFailure (P : Poller) (calls : Calls) : Option String → World → QueueRow → World
  | none => fun w _ => w
  | some exc => Raising.writeLetter P calls exc

section Batch

variable {R : Raising} {P : Poller} {calls : Calls} {amrId : String} {waypointId : Int}
  {w : World} {rows : List QueueRow}

theorem gw_beforeLoop : (beforeLoop calls amrId waypointId w rows).1.gw = w.gw := by
  unfold beforeLoop
  split
  · rfl
  · split
    · rfl
    · split
      · rfl
      · unfold insertDecision
        split <;> rfl

theorem poller_beforeLoop : (beforeLoop calls amrId waypointId w rows).1.poller = w.poller := by
  unfold beforeLoop
  split
  · rfl
  · split
    · rfl
    · split
      · rfl
      · unfold insertDecision
        split <;> rfl

theorem sendRows_eq_foldl (first : QueueRow) (rest : List QueueRow) :
    sendRows P calls amrId waypointId first rest w =
      (first :: rest).foldl
        (rowStep P calls (beforeLoop calls amrId waypointId w (first :: rest)).2)
        (beforeLoop calls amrId waypointId w (first :: rest)).1 := by
  cases hsend : calls.sendBatch amrId waypointId (first :: rest) with
  | error exc =>
    simp only [sendRows, beforeLoop, hsend]
    rfl
  | ok answer =>
    cases hrow : decisionRow calls amrId waypointId first rest answer.2 with
    | error exc =>
      simp only [sendRows, beforeLoop, hsend, hrow]
      rfl
    | ok row =>
      cases hins : calls.insertDecision.exc? <;>
        · simp only [sendRows, beforeLoop, hsend, hrow, hins]
          rfl

theorem Raising.sendRows_eq_foldlM (first : QueueRow) (rest : List QueueRow) :
    R.sendRows P calls amrId waypointId first rest w =
      (first :: rest).foldlM
        (failAt R.fails
          (rowFailure P calls (beforeLoop calls amrId waypointId w (first :: rest)).2)
          (rowStep P calls (beforeLoop calls amrId waypointId w (first :: rest)).2))
        (beforeLoop calls amrId waypointId w (first :: rest)).1 := by
  cases hsend : calls.sendBatch amrId waypointId (first :: rest) with
  | error exc =>
    simp only [Raising.sendRows, beforeLoop, hsend, Raising.handleFailure_eq]
    rfl
  | ok answer =>
    cases hrow : decisionRow calls amrId waypointId first rest answer.2 with
    | error exc =>
      simp only [Raising.sendRows, beforeLoop, hsend, hrow, Raising.handleFailure_eq]
      rfl
    | ok row =>
      cases hins : calls.insertDecision.exc? with
      | none =>
        simp only [Raising.sendRows, beforeLoop, hsend, hrow, hins]
        rfl
      | some exc =>
        simp only [Raising.sendRows, beforeLoop, hsend, hrow, hins, Raising.handleFailure_eq]
        rfl

/-- The loop over the rows that the batch claims. -/
theorem beforePurge_eq_foldl :
    beforePurge P calls amrId waypointId w =
      (claimedRows P amrId waypointId w).foldl
        (rowStep P calls
          (beforeLoop calls amrId waypointId w (claimedRows P amrId waypointId w)).2)
        (beforeLoop calls amrId waypointId w (claimedRows P amrId waypointId w)).1 := by
  rw [beforePurge_eq]
  cases claimedRows P amrId waypointId w with
  | nil => rfl
  | cons first rest => exact sendRows_eq_foldl first rest

theorem Raising.processBatchRows_eq_foldlM :
    R.processBatchRows P calls amrId waypointId (claimedRows P amrId waypointId w) w =
      (claimedRows P amrId waypointId w).foldlM
        (failAt R.fails
          (rowFailure P calls
            (beforeLoop calls amrId waypointId w (claimedRows P amrId waypointId w)).2)
          (rowStep P calls
            (beforeLoop calls amrId waypointId w (claimedRows P amrId waypointId w)).2))
        (beforeLoop calls amrId waypointId w (claimedRows P amrId waypointId w)).1 := by
  have horphans : (claimedRows P amrId waypointId w).filter QueueRow.isOrphan = [] :=
    List.filter_eq_nil_iff.mpr fun r hr => by simp [isOrphan_of_claimed hr]
  have hrows : (claimedRows P amrId waypointId w).filter (fun r => !r.isOrphan) =
      claimedRows P amrId waypointId w :=
    List.filter_eq_self.mpr fun r hr => by simp [isOrphan_of_claimed hr]
  rw [processBatchRows, horphans, hrows]
  show (match claimedRows P amrId waypointId w with | [] => _ | first :: rest => _) = _
  cases claimedRows P amrId waypointId w with
  | nil => rfl
  | cons first rest => exact sendRows_eq_foldlM first rest

variable (R P calls amrId waypointId w) in
/-- Where a batch ends, and the world then. -/
inductive Ends : Except World World → Prop
  /-- Nothing raises. -/
  | through (hclaim : R.claim = false)
    (hrows : ∀ r ∈ claimedRows P amrId waypointId w, R.fails r = false) :
    Ends (.ok (afterBatch P calls amrId waypointId w))
  | claim (hclaim : R.claim = true) : Ends (.error w)
  | row (hclaim : R.claim = false) {done rest : List QueueRow} {r : QueueRow}
    (hclaimed : claimedRows P amrId waypointId w = done ++ r :: rest)
    (hdone : ∀ x ∈ done, R.fails x = false) (hr : R.fails r = true)
    {start : World × Option String}
    (hstart : start = beforeLoop calls amrId waypointId w (claimedRows P amrId waypointId w)) :
    Ends (.error (rowFailure P calls start.2 (done.foldl (rowStep P calls start.2) start.1) r))
  | purge (hclaim : R.claim = false)
    (hrows : ∀ r ∈ claimedRows P amrId waypointId w, R.fails r = false)
    (hpurge : R.purge = true) :
    Ends (.error (beforePurge P calls amrId waypointId w))

theorem Raising.ends_processWaypointBatch :
    Ends R P calls amrId waypointId w (R.processWaypointBatch P calls amrId waypointId w) := by
  unfold processWaypointBatch
  cases hclaim : R.claim with
  | true => exact .claim hclaim
  | false =>
    have hloop := @processBatchRows_eq_foldlM R P calls amrId waypointId w
    have hbefore := @beforePurge_eq_foldl P calls amrId waypointId w
    generalize hstart : beforeLoop calls amrId waypointId w
      (claimedRows P amrId waypointId w) = start at hloop hbefore
    simp only [Bool.false_eq_true, if_false]
    obtain ⟨hrows, heq⟩ | ⟨done, r, rest, hclaimed, hdone, hr, heq⟩ :=
      @foldlM_failAt_cases World QueueRow R.fails (rowFailure P calls start.2)
        (rowStep P calls start.2) (claimedRows P amrId waypointId w) start.1
    · rw [heq, ← hbefore, claimedRows] at hloop
      rw [hloop]
      show Ends R P calls amrId waypointId w
        (if (claimedRows P amrId waypointId w).length = P.batchSize ∧
            cleared w < cleared (beforePurge P calls amrId waypointId w) then
          if R.purge then .error (beforePurge P calls amrId waypointId w)
          else .ok (purgeRemainder amrId waypointId (beforePurge P calls amrId waypointId w))
        else .ok (beforePurge P calls amrId waypointId w))
      split
      · next hp =>
        split
        · next hpurge => exact .purge hclaim hrows hpurge
        · rw [← afterBatch_of_purges hp]
          exact .through hclaim hrows
      · next hp =>
        rw [← afterBatch_of_not_purges hp]
        exact .through hclaim hrows
    · rw [heq, claimedRows] at hloop
      rw [hloop]
      exact .row hclaim hclaimed hdone hr hstart.symm

/-- Nothing raises. -/
theorem processWaypointBatch_quiet :
    ({} : Raising).processWaypointBatch P calls amrId waypointId w =
      .ok (afterBatch P calls amrId waypointId w) := by
  have hends := @Raising.ends_processWaypointBatch {} P calls amrId waypointId w
  generalize ({} : Raising).processWaypointBatch P calls amrId waypointId w = b at hends ⊢
  cases hends with
  | through _ _ => rfl
  | claim hclaim => contradiction
  | row _ _ _ hr _ => contradiction
  | purge _ _ hpurge => contradiction

/-! ## The databases -/

/-- The dead letters that a row adds. -/
def addLetter (P : Poller) (calls : Calls) : Option String → DecisionDb → QueueRow → DecisionDb
  | none, db, _ => db
  | some exc, db, row =>
    if letterApplied P calls row then db.deadLetter (letterOf calls exc row) else db

theorem decision_rowFailure (exc? : Option String) (w : World) (row : QueueRow) :
    (rowFailure P calls exc? w row).decision = addLetter P calls exc? w.decision row := by
  cases exc? with
  | none => rfl
  | some exc =>
    simp only [rowFailure, Raising.writeLetter, addLetter]
    split <;> rfl

theorem decision_rowStep (exc? : Option String) (w : World) (row : QueueRow) :
    (rowStep P calls exc? w row).decision = addLetter P calls exc? w.decision row := by
  cases exc? with
  | none => rfl
  | some exc =>
    rcases handleFailure_cases P calls exc w row with ⟨-, ha, h⟩ | ⟨-, ha, h⟩ | ⟨-, ha, h⟩ <;>
      simp only [rowStep, addLetter, h, ha] <;> rfl

theorem decision_foldl_rowStep (exc? : Option String) (w : World) (rows : List QueueRow) :
    (rows.foldl (rowStep P calls exc?) w).decision =
      rows.foldl (addLetter P calls exc?) w.decision := by
  induction rows generalizing w with
  | nil => rfl
  | cons row rows ih => rw [List.foldl_cons, ih, decision_rowStep, List.foldl_cons]

theorem lastWaypointByAmr_rowStep (exc? : Option String) (w : World) (row : QueueRow) :
    (rowStep P calls exc? w row).poller.lastWaypointByAmr = w.poller.lastWaypointByAmr := by
  cases exc? with
  | none => rfl
  | some exc => exact lastWaypointByAmr_handleFailure P calls exc w row

theorem poller_rowFailure (exc? : Option String) (w : World) (row : QueueRow) :
    (rowFailure P calls exc? w row).poller = w.poller := by
  cases exc? with
  | none => rfl
  | some exc =>
    simp only [rowFailure, Raising.writeLetter]
    split <;> rfl

/-- Where no dead letter is applied, none is added. -/
theorem foldl_addLetter_of_forall {exc? : Option String}
    (h : ∀ r ∈ rows, letterApplied P calls r = false) (db : DecisionDb) :
    rows.foldl (addLetter P calls exc?) db = db := by
  induction rows with
  | nil => rfl
  | cons r rows ih =>
    obtain ⟨hr, hrows⟩ := List.forall_mem_cons.mp h
    have hself : addLetter P calls exc? db r = db := by
      cases exc? with
      | none => rfl
      | some exc => simp only [addLetter, hr, Bool.false_eq_true, if_false]
    rw [List.foldl_cons, hself, ih hrows]

/-- Calls with the same answers up to the loop, and the same dead letters. -/
theorem foldl_addLetter_congr {calls' : Calls} (hnow : calls'.now = calls.now)
    (h : ∀ r ∈ rows, calls'.deadLetter r.frameId = calls.deadLetter r.frameId)
    (exc? : Option String) (db : DecisionDb) :
    rows.foldl (addLetter P calls' exc?) db = rows.foldl (addLetter P calls exc?) db := by
  induction rows generalizing db with
  | nil => rfl
  | cons r rows ih =>
    obtain ⟨hr, hrows⟩ := List.forall_mem_cons.mp h
    have hself : addLetter P calls' exc? db r = addLetter P calls exc? db r := by
      cases exc? with
      | none => rfl
      | some exc =>
        simp only [addLetter, letterApplied, letterOf, hr, hnow]
        rfl
    rw [List.foldl_cons, hself, ih hrows, List.foldl_cons]

/-- A batch that ends early leaves decision_db like one that gets through and
whose commit fails. -/
theorem exists_calls_of_error {w₁ : World}
    (h : R.processWaypointBatch P calls amrId waypointId w = .error w₁) :
    ∃ calls' : Calls, calls'.commits = false ∧
      (afterBatch P calls' amrId waypointId w).decision = w₁.decision := by
  have hends := @Raising.ends_processWaypointBatch R P calls amrId waypointId w
  rw [h] at hends
  cases hends with
  | claim _ =>
    let unanswered : Calls :=
      { calls with
        sendBatch := fun _ _ _ => .error ""
        deadLetter := fun _ => .failed ""
        commits := false }
    have hnone : ∀ r ∈ claimedRows P amrId waypointId w, letterApplied P unanswered r = false :=
      fun r _ => Bool.and_false _
    refine ⟨unanswered, rfl, ?_⟩
    rw [decision_afterBatch, beforePurge_eq_foldl, decision_foldl_rowStep,
      foldl_addLetter_of_forall hnone]
    cases claimedRows P amrId waypointId w <;> rfl
  | purge _ _ _ =>
    refine ⟨{ calls with commits := false }, rfl, ?_⟩
    rw [decision_afterBatch]
    rfl
  | @row _ done rest r hclaimed _ _ start hstart =>
    -- the dead letters of the rows behind are not written
    let calls' : Calls :=
      { calls with
        deadLetter := fun k =>
          if k ∈ (done ++ [r]).map QueueRow.frameId then calls.deadLetter k else .failed ""
        commits := false }
    have hsplit : claimedRows P amrId waypointId w = (done ++ [r]) ++ rest := by
      rw [hclaimed, List.append_assoc, List.singleton_append]
    have hnodup := @nodup_claimedRows P amrId waypointId w
    rw [hsplit, List.map_append, List.nodup_append] at hnodup
    have hsame : ∀ x ∈ done ++ [r], calls'.deadLetter x.frameId = calls.deadLetter x.frameId :=
      fun x hx => if_pos (List.mem_map_of_mem hx)
    have hnone : ∀ x ∈ rest, letterApplied P calls' x = false := by
      intro x hx
      have hfresh : x.frameId ∉ (done ++ [r]).map QueueRow.frameId := fun hmem =>
        hnodup.2.2 _ hmem _ (List.mem_map_of_mem hx) rfl
      have hletter : calls'.deadLetter x.frameId = .failed "" := if_neg hfresh
      rw [letterApplied, hletter]
      exact Bool.and_false _
    have hloop : beforeLoop calls' amrId waypointId w (claimedRows P amrId waypointId w) =
        start := hstart.symm
    have hletters : ∀ db, (done ++ [r]).foldl (addLetter P calls' start.2) db =
        (done ++ [r]).foldl (addLetter P calls start.2) db := by
      intro db
      refine foldl_addLetter_congr ?_ hsame start.2 db
      rfl
    refine ⟨calls', rfl, ?_⟩
    rw [decision_afterBatch, beforePurge_eq_foldl, hloop, decision_foldl_rowStep, hsplit,
      List.foldl_append, foldl_addLetter_of_forall hnone, hletters, List.foldl_concat,
      decision_rowFailure, decision_foldl_rowStep]

/-- It leaves what is remembered of the waypoints. -/
theorem lastWaypointByAmr_of_error {w₁ : World}
    (h : R.processWaypointBatch P calls amrId waypointId w = .error w₁) :
    w₁.poller.lastWaypointByAmr = w.poller.lastWaypointByAmr := by
  have hends := @Raising.ends_processWaypointBatch R P calls amrId waypointId w
  have hloop : ∀ (exc? : Option String) (rows : List QueueRow) (w : World),
      (rows.foldl (rowStep P calls exc?) w).poller.lastWaypointByAmr =
        w.poller.lastWaypointByAmr := fun exc? rows w =>
    run_eq (rowStep P calls exc?) (fun w => w.poller.lastWaypointByAmr)
      (lastWaypointByAmr_rowStep exc?) w rows
  rw [h] at hends
  cases hends with
  | claim _ => rfl
  | purge _ _ _ => rw [beforePurge_eq_foldl, hloop, poller_beforeLoop]
  | @row _ done rest r _ _ _ start hstart =>
    rw [poller_rowFailure, hloop, hstart, poller_beforeLoop]

end Batch

/-! ## The poll -/

section Loop

variable {P : Poller} {calls : String → Calls} {raising : String → Raising} {amrId : String}
  {currentWp : Int} {rest : List (String × Int)} {w : World}

theorem transitionsRaising_of_eq (h : currentWp = prevWaypoint P w amrId) :
    transitionsRaising P calls raising ((amrId, currentWp) :: rest) w =
      transitionsRaising P calls raising rest (remember w amrId currentWp) := by
  rw [transitionsRaising]
  exact if_pos h

theorem transitionsRaising_of_error (h : currentWp ≠ prevWaypoint P w amrId) {w₁ : World}
    (hbatch : (raising amrId).processWaypointBatch P (calls amrId) amrId
      (prevWaypoint P w amrId) (countTransition w) = .error w₁) :
    transitionsRaising P calls raising ((amrId, currentWp) :: rest) w =
      { w₁ with gw := w.gw } := by
  rw [transitionsRaising]
  simp only [h, hbatch, if_false]

theorem transitionsRaising_of_ok (h : currentWp ≠ prevWaypoint P w amrId) {w₁ : World}
    (hbatch : (raising amrId).processWaypointBatch P (calls amrId) amrId
      (prevWaypoint P w amrId) (countTransition w) = .ok w₁) :
    transitionsRaising P calls raising ((amrId, currentWp) :: rest) w =
      if (calls amrId).commits then
        transitionsRaising P calls raising rest (remember w₁ amrId currentWp)
      else { w₁ with gw := w.gw } := by
  rw [transitionsRaising]
  simp only [h, hbatch, if_false]

/-- A batch that gets through is that of `Batch`. -/
theorem eq_afterBatch_of_ok {R : Raising} {calls : Calls} {waypointId : Int} {w₁ : World}
    (h : R.processWaypointBatch P calls amrId waypointId w = .ok w₁) :
    w₁ = afterBatch P calls amrId waypointId w := by
  have hends := @Raising.ends_processWaypointBatch R P calls amrId waypointId w
  rw [h] at hends
  cases hends
  rfl

/-- A poll in which nothing raises. -/
theorem transitions_quiet (P : Poller) (calls : String → Calls) (items : List (String × Int))
    (w : World) :
    transitionsRaising P calls (fun _ => {}) items w = (transitions P calls items w).1 := by
  induction items generalizing w with
  | nil => rfl
  | cons item rest ih =>
    obtain ⟨amrId, currentWp⟩ := item
    by_cases h : currentWp = prevWaypoint P w amrId
    · rw [transitionsRaising_of_eq h, transitions_of_eq h, ih]
    · rw [transitionsRaising_of_ok h processWaypointBatch_quiet]
      cases hc : (calls amrId).commits with
      | true =>
        rw [if_pos rfl, ih, transitions_of_commits h hc]
        rfl
      | false =>
        rw [if_neg Bool.false_ne_true, transitions_of_not_commits h hc]
        rfl

theorem transitions_congr {calls' : String → Calls} {items : List (String × Int)}
    (h : ∀ item ∈ items, calls' item.1 = calls item.1) (w : World) :
    transitions P calls' items w = transitions P calls items w := by
  induction items generalizing w with
  | nil => rfl
  | cons item rest ih =>
    obtain ⟨amrId, currentWp⟩ := item
    obtain ⟨hitem, hrest⟩ := List.forall_mem_cons.mp h
    simp only [transitions, hitem, ih hrest]

/-- The two databases and the remembered waypoints are the same. -/
structure SameDatabases (w w' : World) : Prop where
  gw : w.gw = w'.gw
  decision : w.decision = w'.decision
  lastWaypointByAmr : w.poller.lastWaypointByAmr = w'.poller.lastWaypointByAmr

/-- A poll in which statements raise leaves the databases, and what it remembers
of the waypoints, like a poll of `Poll` with other answers. -/
theorem exists_calls_transitions (raising : String → Raising) (calls : String → Calls)
    {items : List (String × Int)} (hnodup : (items.map Prod.fst).Nodup) (w : World) :
    ∃ calls', SameDatabases (transitionsRaising P calls raising items w)
      (transitions P calls' items w).1 := by
  induction items generalizing w with
  | nil => exact ⟨calls, rfl, rfl, rfl⟩
  | cons item rest ih =>
    obtain ⟨amrId, currentWp⟩ := item
    rw [List.map_cons, List.nodup_cons] at hnodup
    by_cases h : currentWp = prevWaypoint P w amrId
    · obtain ⟨calls', hsame⟩ := ih hnodup.2 (remember w amrId currentWp)
      refine ⟨calls', ?_⟩
      rw [transitionsRaising_of_eq h, transitions_of_eq h]
      exact hsame
    · cases hbatch : (raising amrId).processWaypointBatch P (calls amrId) amrId
        (prevWaypoint P w amrId) (countTransition w) with
      | error w₁ =>
        obtain ⟨answer, hcommits, hdecision⟩ := exists_calls_of_error hbatch
        have hpoll := @transitions_of_not_commits P (fun _ => answer) amrId currentWp rest w h
          hcommits
        have hlast : w₁.poller.lastWaypointByAmr =
            (countTransition w).poller.lastWaypointByAmr := lastWaypointByAmr_of_error hbatch
        have hlast' : (leaveWaypoint P answer amrId (prevWaypoint P w amrId)
            w).2.poller.lastWaypointByAmr = w.poller.lastWaypointByAmr :=
          lastWaypointByAmr_leaveWaypoint
        refine ⟨fun _ => answer, ?_⟩
        rw [transitionsRaising_of_error h hbatch, hpoll]
        exact ⟨rfl, hdecision.symm, hlast.trans hlast'.symm⟩
      | ok w₁ =>
        obtain rfl := eq_afterBatch_of_ok hbatch
        rw [transitionsRaising_of_ok h hbatch]
        cases hc : (calls amrId).commits with
        | false =>
          refine ⟨calls, ?_⟩
          rw [if_neg Bool.false_ne_true, transitions_of_not_commits h hc]
          exact ⟨rfl, rfl, rfl⟩
        | true =>
          obtain ⟨calls', hsame⟩ := ih hnodup.2 (remember
            (afterBatch P (calls amrId) amrId (prevWaypoint P w amrId) (countTransition w))
            amrId currentWp)
          have hself : Function.update calls' amrId (calls amrId) amrId = calls amrId :=
            Function.update_self _ _ _
          have hrest : ∀ item ∈ rest,
              Function.update calls' amrId (calls amrId) item.1 = calls' item.1 := by
            intro item hitem
            have hmem : item.1 ∈ rest.map Prod.fst := List.mem_map_of_mem hitem
            have hne : item.1 ≠ amrId := by
              rintro rfl
              exact hnodup.1 hmem
            exact Function.update_of_ne hne _ _
          have hpoll : (transitions P (Function.update calls' amrId (calls amrId))
              ((amrId, currentWp) :: rest) w).1 =
                (transitions P calls' rest (remember (afterBatch P (calls amrId) amrId
                  (prevWaypoint P w amrId) (countTransition w)) amrId currentWp)).1 := by
            rw [transitions_of_commits h (by rw [hself, hc]), hself]
            dsimp only
            rw [transitions_congr hrest]
            rfl
          refine ⟨Function.update calls' amrId (calls amrId), ?_⟩
          rw [if_pos rfl, hpoll]
          exact hsame

end Loop

end DustMonitoring.PoolerTran
