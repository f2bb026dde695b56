import Mathlib.Data.List.TakeWhile
import DustMonitoring.PoolerTran.Statements

/-!
# The counters

`/health` shows the counters of the poller and the depth of the queue.  The
counters live in memory and the queue in gateway_db: a transaction that is
rolled back, because its commit fails or one of its statements raises, brings
its rows back and leaves the counters where they are, and a process that starts
has none and may clear the queue.

`Booked` is what one batch does to both, as far as it gets.  Over a run the
queue and the counters are two sides of one account (`counters_run`): every row
that the correlator queued is in the queue, was swept or cleared, or was counted
by the process that deleted it; and what was rolled back was counted once too
often.

Main results:

* `booked_ended` -- a batch moves rows from the queue to the counters, up to the
  statement that raises;
* `counters_run` -- the account of a run, over any number of processes.
-/

namespace DustMonitoring.PoolerTran

open DustMonitoring.Lib DustMonitoring.Schema

/-- `_DEPTH`. -/
def depth (gw : GatewayDb) : Nat := gw.cctvTransferQueue.rows.length

/-- `_CLEAR_ALL`.  It returns the number of deleted rows. -/
def clear (gw : GatewayDb) : GatewayDb × Nat :=
  ({ gw with cctvTransferQueue := Table.empty }, depth gw)

/-- The rows that left the queue, by the counters. -/
def removed (w : World) : Nat := cleared w + w.poller.stats.discardedOverBatch

/-- The rows that were claimed, by the counters. -/
def handled (w : World) : Nat := cleared w + w.poller.stats.failed

/-! ## The length of the queue -/

theorem length_dequeue (gw : GatewayDb) (k : Nat) :
    depth (gw.dequeue k) +
      (gw.cctvTransferQueue.rows.filter fun q => decide (q.frameId = k)).length =
        depth gw :=
  gw.cctvTransferQueue.length_deleteWhere _

theorem length_dequeue_of_queued {w : World} {k : Nat} (h : Queued w k) :
    depth (w.gw.dequeue k) + 1 = depth w.gw := by
  have hone : (w.gw.cctvTransferQueue.rows.filter fun q => decide (q.frameId = k)).length = 1 :=
    Table.length_filter_key h
  have hlength := length_dequeue w.gw k
  omega

@[simp] theorem length_bumpAttempts (gw : GatewayDb) (k : Nat) :
    depth (bumpAttempts gw k) = depth gw := by
  unfold depth bumpAttempts
  rw [Table.length_updateWhere]

theorem length_sweepStale (gw : GatewayDb) (before : Timestamp) :
    depth (sweepStale gw before).1 + (sweepStale gw before).2 = depth gw :=
  gw.cctvTransferQueue.length_deleteWhere _

theorem length_purgeWaypointRemainder (gw : GatewayDb) (amrId : String) (waypointId : Int) :
    depth (purgeWaypointRemainder gw amrId waypointId).1 +
      (purgeWaypointRemainder gw amrId waypointId).2 = depth gw :=
  gw.cctvTransferQueue.length_deleteWhere _

/-- A pass of the correlator only adds to the queue. -/
theorem length_tick (c : Correlator.FrameCorrelator) (p : Correlator.Pass) (gw : GatewayDb) :
    depth (c.tick p gw).1 =
      depth gw + (Correlator.enqueued gw (c.tick p gw).1).length := by
  apply Table.length_eq_add_new
  rintro k ⟨q, hq, rfl⟩
  exact ⟨q, c.mem_cctvTransferQueue_pairSql.mpr (Or.inl hq), rfl⟩

/-! ## One row -/

/-- From `w` to `w'` the poller handles `n` claimed rows, and counts every row
that it takes off the queue. -/
structure Booked (n : Nat) (w w' : World) : Prop where
  shorter : depth w'.gw ≤ depth w.gw
  queue : depth w'.gw + removed w' = depth w.gw + removed w
  handled : handled w' = handled w + n
  orphansPurged : w'.poller.stats.orphansPurged = w.poller.stats.orphansPurged
  transitions :
    w'.poller.stats.waypointTransitions = w.poller.stats.waypointTransitions

theorem Booked.trans {m n : Nat} {w₁ w₂ w₃ : World} (h : Booked m w₁ w₂)
    (h' : Booked n w₂ w₃) : Booked (m + n) w₁ w₃ where
  shorter := h'.shorter.trans h.shorter
  queue := h'.queue.trans h.queue
  handled := by
    rw [h'.handled, h.handled]
    omega
  orphansPurged := h'.orphansPurged.trans h.orphansPurged
  transitions := h'.transitions.trans h.transitions

theorem booked_finishRow {w : World} {r : QueueRow} (h : Queued w r.frameId) :
    Booked 1 w (finishRow w r) := by
  have hlength := length_dequeue_of_queued h
  refine ⟨?_, ?_, ?_, rfl, rfl⟩
  · simp only [finishRow, deleteRow]
    omega
  · simp only [removed, cleared, finishRow, deleteRow]
    omega
  · simp only [PoolerTran.handled, cleared, finishRow, deleteRow]
    omega

theorem booked_bumpRow (w : World) (r : QueueRow) : Booked 1 w (bumpRow w r) := by
  refine ⟨?_, ?_, ?_, rfl, rfl⟩
  · simp only [bumpRow, length_bumpAttempts, le_refl]
  · simp only [removed, cleared, bumpRow, length_bumpAttempts]
  · simp only [PoolerTran.handled, cleared, bumpRow]
    omega

theorem booked_handleFailure (P : Poller) (calls : Calls) (exc : String) {w : World}
    {r : QueueRow} (h : Queued w r.frameId) : Booked 1 w (handleFailure P calls exc w r) := by
  rcases handleFailure_cases P calls exc w r with ⟨-, -, heq⟩ | ⟨-, -, heq⟩ | ⟨-, -, heq⟩
  · have hlength := length_dequeue_of_queued h
    rw [heq]
    refine ⟨?_, ?_, ?_, rfl, rfl⟩
    · simp only [deleteRow]
      omega
    · simp only [removed, cleared, deleteRow]
      omega
    · simp only [PoolerTran.handled, cleared, deleteRow]
      omega
  · have hbump := booked_bumpRow
      { w with decision := w.decision.deadLetter (letterOf calls exc r) } r
    rw [heq]
    exact ⟨hbump.shorter, hbump.queue, hbump.handled, rfl, rfl⟩
  · rw [heq]
    exact booked_bumpRow w r

/-- The other rows stay where they are. -/
theorem queued_finishRow {w : World} {r : QueueRow} {k : Nat} (hne : k ≠ r.frameId)
    (h : Queued w k) : Queued (finishRow w r) k := by
  obtain ⟨q, hq, rfl⟩ := h
  exact ⟨q, mem_queue_dequeue.mpr ⟨hq, hne⟩, rfl⟩

theorem queued_handleFailure (P : Poller) (calls : Calls) (exc : String) {w : World}
    {r : QueueRow} {k : Nat} (hne : k ≠ r.frameId) (h : Queued w k) :
    Queued (handleFailure P calls exc w r) k := by
  obtain ⟨q, hq, rfl⟩ := h
  refine ⟨q, ?_, rfl⟩
  rw [gw_handleFailure]
  exact mem_queue_failQueue.mpr ⟨q, hq, Or.inl ⟨rfl, hne.symm⟩⟩

/-- Rows of distinct frames of the queue, one after the other. -/
theorem booked_foldl {step : World → QueueRow → World}
    (hstep : ∀ w r, Queued w r.frameId → Booked 1 w (step w r))
    (hothers : ∀ w r k, k ≠ r.frameId → Queued w k → Queued (step w r) k)
    {rows : List QueueRow} (hnodup : (rows.map QueueRow.frameId).Nodup) {w : World}
    (h : ∀ r ∈ rows, Queued w r.frameId) : Booked rows.length w (rows.foldl step w) := by
  induction rows generalizing w with
  | nil => exact ⟨le_refl _, rfl, rfl, rfl, rfl⟩
  | cons r rs ih =>
    rw [List.map_cons, List.nodup_cons] at hnodup
    obtain ⟨hr, hrs⟩ := List.forall_mem_cons.mp h
    have hrest : ∀ x ∈ rs, Queued (step w r) x.frameId := by
      intro x hx
      refine hothers w r x.frameId (fun heq => hnodup.1 ?_) (hrs x hx)
      rw [← heq]
      exact List.mem_map_of_mem hx
    have hbooked := (hstep w r hr).trans (ih hnodup.2 hrest)
    rw [Nat.add_comm 1 rs.length] at hbooked
    exact hbooked

/-! ## One batch -/

section Batch

variable {P : Poller} {calls : Calls} {amrId : String} {waypointId : Int} {w : World}

theorem queued_of_claimed {r : QueueRow} (hr : r ∈ claimedRows P amrId waypointId w) :
    Queued w r.frameId := by
  obtain ⟨q, hq, rfl, -⟩ := of_mem_fetchBatch hr
  exact ⟨q, hq, rfl⟩

theorem booked_rowStep (exc? : Option String) {w : World} {r : QueueRow}
    (h : Queued w r.frameId) : Booked 1 w (rowStep P calls exc? w r) := by
  cases exc? with
  | none => exact booked_finishRow h
  | some exc => exact booked_handleFailure P calls exc h

theorem queued_rowStep (exc? : Option String) {w : World} {r : QueueRow} {k : Nat}
    (hne : k ≠ r.frameId) (h : Queued w k) : Queued (rowStep P calls exc? w r) k := by
  cases exc? with
  | none => exact queued_finishRow hne h
  | some exc => exact queued_handleFailure P calls exc hne h

/-- What stands before the loop is not the business of the counters. -/
theorem booked_beforeLoop (rows : List QueueRow) :
    Booked 0 w (beforeLoop calls amrId waypointId w rows).1 where
  shorter := by rw [gw_beforeLoop]
  queue := by simp only [removed, cleared, gw_beforeLoop, poller_beforeLoop]
  handled := by simp only [PoolerTran.handled, cleared, poller_beforeLoop, Nat.add_zero]
  orphansPurged := by rw [poller_beforeLoop]
  transitions := by rw [poller_beforeLoop]

/-- The loop over the first of the claimed rows. -/
theorem booked_loop {done rest : List QueueRow}
    (hclaimed : claimedRows P amrId waypointId w = done ++ rest) :
    Booked done.length w
      (done.foldl
        (rowStep P calls
          (beforeLoop calls amrId waypointId w (claimedRows P amrId waypointId w)).2)
        (beforeLoop calls amrId waypointId w (claimedRows P amrId waypointId w)).1) := by
  have hqueued : ∀ r ∈ done, Queued
      (beforeLoop calls amrId waypointId w (claimedRows P amrId waypointId w)).1 r.frameId := by
    intro r hr
    have hmem : r ∈ claimedRows P amrId waypointId w := by
      rw [hclaimed]
      exact List.mem_append_left rest hr
    rw [Queued, gw_beforeLoop]
    exact queued_of_claimed hmem
  have hnodup : (done.map QueueRow.frameId).Nodup := by
    have hall := @nodup_claimedRows P amrId waypointId w
    rw [hclaimed, List.map_append] at hall
    exact hall.of_append_left
  have hstart := @booked_beforeLoop calls amrId waypointId w (claimedRows P amrId waypointId w)
  generalize beforeLoop calls amrId waypointId w (claimedRows P amrId waypointId w) = start
    at hqueued hstart ⊢
  have hloop : Booked done.length start.1 (done.foldl (rowStep P calls start.2) start.1) :=
    booked_foldl (fun _ _ => booked_rowStep start.2) (fun _ _ _ => queued_rowStep start.2) hnodup
      hqueued
  have hbooked := hstart.trans hloop
  rw [Nat.zero_add] at hbooked
  exact hbooked

theorem booked_beforePurge :
    Booked (claimedRows P amrId waypointId w).length w
      (beforePurge P calls amrId waypointId w) := by
  rw [beforePurge_eq_foldl]
  exact booked_loop (List.append_nil _).symm

theorem booked_purgeRemainder (w : World) :
    Booked 0 w (purgeRemainder amrId waypointId w) := by
  have hlength := length_purgeWaypointRemainder w.gw amrId waypointId
  refine ⟨?_, ?_, rfl, rfl, rfl⟩
  · simp only [purgeRemainder]
    omega
  · simp only [removed, cleared, purgeRemainder]
    omega

/-- A batch moves rows from the queue to the counters. -/
theorem booked_afterBatch :
    Booked (claimedRows P amrId waypointId w).length w
      (afterBatch P calls amrId waypointId w) := by
  by_cases hp : purges P calls amrId waypointId w
  · rw [afterBatch_of_purges hp]
    exact booked_beforePurge.trans (booked_purgeRemainder _)
  · rw [afterBatch_of_not_purges hp]
    exact booked_beforePurge

/-- A row whose statement raises is counted by nobody. -/
theorem booked_rowFailure (exc? : Option String) (w : World) (row : QueueRow) :
    Booked 0 w (rowFailure P calls exc? w row) := by
  have hgw : (rowFailure P calls exc? w row).gw = w.gw := by
    cases exc? with
    | none => rfl
    | some exc =>
      simp only [rowFailure, Raising.writeLetter]
      split <;> rfl
  refine ⟨?_, ?_, ?_, ?_, ?_⟩
  · rw [hgw]
  · simp only [removed, cleared, hgw, poller_rowFailure]
  · simp only [PoolerTran.handled, cleared, poller_rowFailure, Nat.add_zero]
  · rw [poller_rowFailure]
  · rw [poller_rowFailure]

end Batch

/-! ## One poll -/

/-- A batch, with the statements of its transaction that raise. -/
structure Attempt extends Delivery where
  raising : Raising

namespace Attempt

variable (P : Poller) (a : Attempt)

/-- How the batch ends. -/
def outcome : Except World World :=
  a.raising.processWaypointBatch P a.calls a.amrId a.waypointId a.before

/-- The world when the transaction ends. -/
def ended : World := reached (a.outcome P)

/-- No statement raises, and the transaction commits. -/
def commits : Bool := (a.outcome P).toBool && a.calls.commits

/-- The claimed rows before the first whose statement raises. -/
def handledRows : List QueueRow :=
  if a.raising.claim then [] else (a.rows P).takeWhile fun r => !a.raising.fails r

/-- The rows that the batch takes off the queue, if its transaction commits. -/
def taken : Nat := depth a.before.gw - depth (a.ended P).gw

variable {P a}

/-- Where no statement raises, all claimed rows are handled. -/
theorem handledRows_of_forall (hclaim : a.raising.claim = false)
    (hrows : ∀ r ∈ a.rows P, a.raising.fails r = false) : a.handledRows P = a.rows P := by
  rw [handledRows, hclaim, if_neg Bool.false_ne_true, List.takeWhile_eq_self_iff]
  intro r hr
  rw [hrows r hr]
  rfl

/-- A batch moves rows from the queue to the counters, up to the statement that
raises. -/
theorem booked_ended : Booked (a.handledRows P).length a.before (a.ended P) := by
  have hends := @Raising.ends_processWaypointBatch a.raising P a.calls a.amrId a.waypointId
    a.before
  rw [ended, outcome]
  generalize a.raising.processWaypointBatch P a.calls a.amrId a.waypointId a.before = b at hends ⊢
  cases hends with
  | through hclaim hrows =>
    rw [handledRows_of_forall hclaim hrows]
    exact booked_afterBatch
  | purge hclaim hrows _ =>
    rw [handledRows_of_forall hclaim hrows]
    exact booked_beforePurge
  | claim hclaim =>
    rw [handledRows, if_pos hclaim]
    exact ⟨le_refl _, rfl, rfl, rfl, rfl⟩
  | @row hclaim done rest r hclaimed hdone hr start hstart =>
    have hhandled : a.handledRows P = done := by
      rw [handledRows, hclaim, Delivery.rows, hclaimed, if_neg Bool.false_ne_true,
        List.takeWhile_append_of_pos fun x hx => by rw [hdone x hx]; rfl,
        List.takeWhile_cons_of_neg (by rw [hr]; decide), List.append_nil]
    rw [hhandled, hstart]
    exact (booked_loop hclaimed).trans (booked_rowFailure _ _ _)

end Attempt

/-- The batch of a transition. -/
def attempt (P : Poller) (calls : Calls) (raising : Raising) (amrId : String) (w : World) :
    Attempt :=
  ⟨leaving P calls amrId w, raising⟩

/-- The batches of a poll, each with the world that it finds. -/
def attempts (P : Poller) (calls : String → Calls) (raising : String → Raising) :
    List (String × Int) → World → List Attempt
  | [], _ => []
  | (amrId, currentWp) :: rest, w =>
    if currentWp = prevWaypoint P w amrId then
      attempts P calls raising rest (remember w amrId currentWp)
    else
      let a := attempt P (calls amrId) (raising amrId) amrId w
      if a.commits P then
        a :: attempts P calls raising rest (remember (a.ended P) amrId currentWp)
      else [a]

/-- The rows that the rolled back transactions bring back. -/
def broughtBack (P : Poller) (as : List Attempt) : Nat :=
  sumOver (fun a => if a.commits P then 0 else a.taken P) as

/-- The rows that the batches get through. -/
def gotThrough (P : Poller) (as : List Attempt) : Nat :=
  sumOver (fun a => (a.handledRows P).length) as

/-- From `w` to `w'` the poller processes the batches. -/
structure Posted (P : Poller) (as : List Attempt) (w w' : World) : Prop where
  queue : depth w'.gw + removed w' = depth w.gw + removed w + broughtBack P as
  handled : handled w' = handled w + gotThrough P as
  orphansPurged : w'.poller.stats.orphansPurged = w.poller.stats.orphansPurged
  transitions : w'.poller.stats.waypointTransitions =
    w.poller.stats.waypointTransitions + as.length

theorem Posted.append {P : Poller} {as as' : List Attempt} {w₁ w₂ w₃ : World}
    (h : Posted P as w₁ w₂) (h' : Posted P as' w₂ w₃) : Posted P (as ++ as') w₁ w₃ where
  queue := by
    rw [h'.queue, h.queue, broughtBack, broughtBack, broughtBack, sumOver_append]
    omega
  handled := by
    rw [h'.handled, h.handled, gotThrough, gotThrough, gotThrough, sumOver_append]
    omega
  orphansPurged := h'.orphansPurged.trans h.orphansPurged
  transitions := by
    rw [h'.transitions, h.transitions, List.length_append]
    omega

section Loop

variable {P : Poller} {raising : Raising} {amrId : String} {w : World}

theorem before_attempt (calls : Calls) :
    (attempt P calls raising amrId w).before = countTransition w := rfl

theorem broughtBack_singleton (a : Attempt) :
    broughtBack P [a] = if a.commits P then 0 else a.taken P :=
  Nat.add_zero _

theorem gotThrough_singleton (a : Attempt) : gotThrough P [a] = (a.handledRows P).length :=
  Nat.add_zero _

theorem posted_of_commits {calls : Calls}
    (hc : (attempt P calls raising amrId w).commits P = true) :
    Posted P [attempt P calls raising amrId w] w ((attempt P calls raising amrId w).ended P) := by
  have hbooked := @Attempt.booked_ended P (attempt P calls raising amrId w)
  refine ⟨?_, ?_, hbooked.orphansPurged, hbooked.transitions⟩
  · rw [hbooked.queue, broughtBack_singleton, if_pos hc, before_attempt]
    rfl
  · rw [hbooked.handled, gotThrough_singleton, before_attempt]
    rfl

/-- The counters keep what the rollback takes back. -/
theorem posted_of_not_commits {calls : Calls}
    (hc : (attempt P calls raising amrId w).commits P = false) :
    Posted P [attempt P calls raising amrId w] w
      { (attempt P calls raising amrId w).ended P with gw := w.gw } := by
  have hbooked := @Attempt.booked_ended P (attempt P calls raising amrId w)
  have hshorter := hbooked.shorter
  have hqueue := hbooked.queue
  have hhandled := hbooked.handled
  refine ⟨?_, ?_, hbooked.orphansPurged, hbooked.transitions⟩
  · rw [broughtBack_singleton, hc, if_neg Bool.false_ne_true, Attempt.taken, before_attempt]
    simp only [before_attempt, removed, cleared, countTransition] at hshorter hqueue ⊢
    omega
  · rw [gotThrough_singleton]
    simp only [before_attempt, PoolerTran.handled, cleared, countTransition] at hhandled ⊢
    exact hhandled

theorem posted_nil (w : World) : Posted P [] w w := ⟨rfl, rfl, rfl, rfl⟩

/-- What a poll remembers is not the business of the counters. -/
theorem Posted.of_remember {as : List Attempt} {w' : World} {currentWp : Int}
    (h : Posted P as (remember w amrId currentWp) w') : Posted P as w w' :=
  ⟨h.queue, h.handled, h.orphansPurged, h.transitions⟩

/-- A batch and what the poll does then. -/
theorem transitionsRaising_of_ne {calls : String → Calls} {raising : String → Raising}
    {currentWp : Int} {rest : List (String × Int)} (h : currentWp ≠ prevWaypoint P w amrId) :
    transitionsRaising P calls raising ((amrId, currentWp) :: rest) w =
      if (attempt P (calls amrId) (raising amrId) amrId w).commits P then
        transitionsRaising P calls raising rest
          (remember ((attempt P (calls amrId) (raising amrId) amrId w).ended P) amrId currentWp)
      else { (attempt P (calls amrId) (raising amrId) amrId w).ended P with gw := w.gw } := by
  cases hbatch : (raising amrId).processWaypointBatch P (calls amrId) amrId
    (prevWaypoint P w amrId) (countTransition w) with
  | error w₁ =>
    have houtcome : (attempt P (calls amrId) (raising amrId) amrId w).outcome P = .error w₁ :=
      hbatch
    rw [transitionsRaising_of_error h hbatch, Attempt.commits, Attempt.ended, houtcome]
    rfl
  | ok w₁ =>
    have houtcome : (attempt P (calls amrId) (raising amrId) amrId w).outcome P = .ok w₁ :=
      hbatch
    rw [transitionsRaising_of_ok h hbatch, Attempt.commits, Attempt.ended, houtcome]
    rfl

theorem posted_transitionsRaising (calls : String → Calls) (raising : String → Raising)
    (items : List (String × Int)) (w : World) :
    Posted P (attempts P calls raising items w) w
      (transitionsRaising P calls raising items w) := by
  induction items generalizing w with
  | nil => exact posted_nil w
  | cons item rest ih =>
    obtain ⟨amrId, currentWp⟩ := item
    unfold attempts
    by_cases h : currentWp = prevWaypoint P w amrId
    · rw [transitionsRaising_of_eq h, if_pos h]
      exact (ih _).of_remember
    · rw [transitionsRaising_of_ne h, if_neg h]
      dsimp only
      cases hc : (attempt P (calls amrId) (raising amrId) amrId w).commits P with
      | true =>
        rw [if_pos rfl, if_pos rfl, ← List.singleton_append]
        exact (posted_of_commits hc).append (ih _).of_remember
      | false =>
        rw [if_neg Bool.false_ne_true, if_neg Bool.false_ne_true]
        exact posted_of_not_commits hc

theorem posted_transitions (calls : String → Calls) (items : List (String × Int)) (w : World) :
    Posted P (attempts P calls (fun _ => {}) items w) w (transitions P calls items w).1 := by
  rw [← transitions_quiet]
  exact posted_transitionsRaising calls (fun _ => {}) items w

end Loop

/-! ## A run -/

namespace Processes

/-- What happens to the poller and to its databases. -/
inductive Event where
  | world (e : PoolerTran.Event)
  /-- A poll, some of whose statements may raise. -/
  | poll (calls : String → Calls) (raising : String → Raising)
  /-- A process starts, after the one before it has ended or died. -/
  | start (clearQueueOnStart : Bool)

/-- The world after the event. -/
def step (P : Poller) (w : World) : Event → World
  | .world e => PoolerTran.step P w e
  | .poll calls raising =>
    transitionsRaising P calls raising (fetchCurrentWaypoints w.gw) w
  | .start clearQueueOnStart =>
    { w with
      gw := if clearQueueOnStart then (clear w.gw).1 else w.gw
      poller := {} }

/-- The batches of the event. -/
def eventAttempts (P : Poller) (w : World) : Event → List Attempt
  | .world (.poll calls) => attempts P calls (fun _ => {}) (fetchCurrentWaypoints w.gw) w
  | .poll calls raising => attempts P calls raising (fetchCurrentWaypoints w.gw) w
  | _ => []

/-- The batches of a run, in order. -/
def attempted (P : Poller) (es : List Event) : List Attempt :=
  outputs (step P) (eventAttempts P) World.init es

/-- The rows that the event adds to the queue. -/
def queued (w : World) : Event → Nat
  | .world (.gateway c (.tick p)) => (Correlator.enqueued w.gw (c.tick p w.gw).1).length
  | _ => 0

/-- The rows that the event deletes, unless it is a poll. -/
def swept (w : World) : Event → Nat
  | .world (.sweep before) => (sweepStale w.gw before).2
  | .world (.gateway _ (.dequeue frameId)) =>
    (w.gw.cctvTransferQueue.rows.filter fun q => decide (q.frameId = frameId)).length
  | .start true => (clear w.gw).2
  | _ => 0

/-- What the process had counted, if the event is the start of another. -/
def forgotten (f : World → Nat) (w : World) : Event → Nat
  | .start _ => f w
  | .world _ | .poll _ _ => 0

/-- The rows of the queue and those of the counters change together. -/
theorem queue_step (P : Poller) (w : World) (e : Event) :
    depth (step P w e).gw + removed (step P w e) +
        (swept w e + forgotten removed w e) =
      depth w.gw + removed w +
        (queued w e + broughtBack P (eventAttempts P w e)) := by
  cases e with
  | start clearQueueOnStart =>
    cases clearQueueOnStart with
    | true =>
      show 0 + 0 + (depth w.gw + removed w) = depth w.gw + removed w + (0 + 0)
      omega
    | false =>
      show depth w.gw + 0 + (0 + removed w) = depth w.gw + removed w + (0 + 0)
      omega
  | world e =>
    cases e with
    | gateway c e =>
      cases e with
      | tick p =>
        have hlength := length_tick c p w.gw
        show depth (c.tick p w.gw).1 + removed w + (0 + 0) =
          depth w.gw + removed w +
            ((Correlator.enqueued w.gw (c.tick p w.gw).1).length + 0)
        omega
      | dequeue frameId =>
        have hlength := length_dequeue w.gw frameId
        show depth (w.gw.dequeue frameId) + removed w +
          ((w.gw.cctvTransferQueue.rows.filter fun q => decide (q.frameId = frameId)).length + 0) =
            depth w.gw + removed w + (0 + 0)
        omega
      | _ => rfl
    | sweep before =>
      have hlength := length_sweepStale w.gw before
      show depth (sweepStale w.gw before).1 + removed w +
        ((sweepStale w.gw before).2 + 0) = depth w.gw + removed w + (0 + 0)
      omega
    | poll calls =>
      have hposted := @posted_transitions P calls (fetchCurrentWaypoints w.gw) w
      show depth (transitions P calls (fetchCurrentWaypoints w.gw) w).1.gw +
          removed (transitions P calls (fetchCurrentWaypoints w.gw) w).1 + (0 + 0) =
        depth w.gw + removed w +
          (0 + broughtBack P (attempts P calls (fun _ => {}) (fetchCurrentWaypoints w.gw) w))
      rw [hposted.queue]
      omega
    | _ => rfl
  | poll calls raising =>
    have hposted := @posted_transitionsRaising P calls raising (fetchCurrentWaypoints w.gw) w
    show depth (transitionsRaising P calls raising (fetchCurrentWaypoints w.gw) w).gw +
        removed (transitionsRaising P calls raising (fetchCurrentWaypoints w.gw) w) + (0 + 0) =
      depth w.gw + removed w +
        (0 + broughtBack P (attempts P calls raising (fetchCurrentWaypoints w.gw) w))
    rw [hposted.queue]
    omega

theorem handled_step (P : Poller) (w : World) (e : Event) :
    handled (step P w e) + forgotten handled w e =
      handled w + gotThrough P (eventAttempts P w e) := by
  cases e with
  | start _ => exact Nat.add_comm _ _
  | world e =>
    cases e with
    | poll calls => exact (posted_transitions calls (fetchCurrentWaypoints w.gw) w).handled
    | _ => rfl
  | poll calls raising =>
    exact (posted_transitionsRaising calls raising (fetchCurrentWaypoints w.gw) w).handled

theorem transitions_step (P : Poller) (w : World) (e : Event) :
    (step P w e).poller.stats.waypointTransitions +
        forgotten (fun w => w.poller.stats.waypointTransitions) w e =
      w.poller.stats.waypointTransitions + (eventAttempts P w e).length := by
  cases e with
  | start _ => exact Nat.add_comm _ _
  | world e =>
    cases e with
    | poll calls => exact (posted_transitions calls (fetchCurrentWaypoints w.gw) w).transitions
    | _ => rfl
  | poll calls raising =>
    exact (posted_transitionsRaising calls raising (fetchCurrentWaypoints w.gw) w).transitions

theorem orphansPurged_step (P : Poller) (w : World) (e : Event)
    (h : w.poller.stats.orphansPurged = 0) :
    (step P w e).poller.stats.orphansPurged = 0 := by
  cases e with
  | start _ => rfl
  | world e =>
    cases e with
    | poll calls =>
      exact (posted_transitions calls (fetchCurrentWaypoints w.gw) w).orphansPurged.trans h
    | _ => exact h
  | poll calls raising =>
    have hposted := @posted_transitionsRaising P calls raising (fetchCurrentWaypoints w.gw) w
    exact hposted.orphansPurged.trans h

/-- The account of a run, over all the processes of the poller.  The rows of
the queue, the rows that the counters have removed and the swept rows are those
that the correlator queued, and those that a rollback brought back.  The
counters have handled what the batches claimed, up to the row whose statement
raised, they count every batch, and no process has ever purged an orphan. -/
theorem counters_run (P : Poller) (es : List Event) :
    (depth (run (step P) World.init es).gw +
          (removed (run (step P) World.init es) +
            total (step P) (forgotten removed) World.init es) +
          total (step P) swept World.init es =
        total (step P) queued World.init es + broughtBack P (attempted P es)) ∧
      handled (run (step P) World.init es) +
          total (step P) (forgotten handled) World.init es =
        gotThrough P (attempted P es) ∧
      (run (step P) World.init es).poller.stats.waypointTransitions +
          total (step P) (forgotten fun w => w.poller.stats.waypointTransitions) World.init es =
        (attempted P es).length ∧
      (run (step P) World.init es).poller.stats.orphansPurged = 0 := by
  refine ⟨?_, ?_, ?_, run_invariant (orphansPurged_step P) rfl es⟩
  · have hrun := run_balance (fun w => depth w.gw + removed w) (queue_step P)
      World.init es
    have hback : total (step P) (fun w e => broughtBack P (eventAttempts P w e))
        World.init es = broughtBack P (attempted P es) :=
      total_sumOver _ _ _ _ _
    have hstart : depth World.init.gw + removed World.init = 0 := rfl
    rw [total_add, total_add, hback] at hrun
    omega
  · have hrun := run_balance handled (handled_step P) World.init es
    have hthrough : total (step P) (fun w e => gotThrough P (eventAttempts P w e))
        World.init es = gotThrough P (attempted P es) :=
      total_sumOver _ _ _ _ _
    have hstart : handled World.init = 0 := rfl
    rw [hthrough] at hrun
    omega
  · have hrun := run_balance (fun w => w.poller.stats.waypointTransitions) (transitions_step P)
      World.init es
    have hlength : total (step P) (fun w e => (eventAttempts P w e).length) World.init es =
        (attempted P es).length :=
      total_length_outputs _ _ _ _
    have hstart : World.init.poller.stats.waypointTransitions = 0 := rfl
    rw [hlength] at hrun
    omega

end Processes

end DustMonitoring.PoolerTran
