import DustMonitoring.PoolerTran.Poll

/-!
# A row left for retry is not retried by the next poll

When a batch fails its rows stay in the queue, but the poll remembers the
current waypoint of the AMR all the same.  The next poll therefore claims
rows of that waypoint, if any, and not of the one whose batch failed.
Nothing that happens between the two polls changes this: the frame and the
measurement of a queue row keep their AMR and their waypoint for as long as
they are there (`SourcesKept`), and only polls write what is remembered.
-/

namespace DustMonitoring.PoolerTran

open DustMonitoring.Lib DustMonitoring.Schema

/-! ## The sources of a row do not change -/

/-- `gw'` is `gw` at a later time: no frame under an old id is of another
AMR, and no measurement under an old id is another one. -/
structure SourcesKept (gw gw' : GatewayDb) : Prop where
  frame : ∀ g ∈ gw'.cctvFrame.rows, g.id < gw.cctvFrame.next →
    ∃ f ∈ gw.cctvFrame.rows, f.id = g.id ∧ f.amrId = g.amrId
  frameNext : gw.cctvFrame.next ≤ gw'.cctvFrame.next
  dust : ∀ d ∈ gw'.dustInspection.rows, d.id < gw.dustInspection.next →
    d ∈ gw.dustInspection.rows
  dustNext : gw.dustInspection.next ≤ gw'.dustInspection.next

theorem SourcesKept.of_sources_eq {gw gw' : GatewayDb}
    (h : sources gw' = sources gw) : SourcesKept gw gw' := by
  obtain ⟨hcf, hdi⟩ := Prod.mk.inj h
  refine ⟨fun g hg _ => ⟨g, ?_, rfl, rfl⟩, ?_, fun d hd _ => ?_, ?_⟩
  · rw [← hcf]
    exact hg
  · rw [hcf]
  · rw [← hdi]
    exact hd
  · rw [hdi]

theorem SourcesKept.refl (gw : GatewayDb) : SourcesKept gw gw := .of_sources_eq rfl

theorem SourcesKept.trans (gw₁ gw₂ gw₃ : GatewayDb) (h : SourcesKept gw₁ gw₂)
    (h' : SourcesKept gw₂ gw₃) : SourcesKept gw₁ gw₃ where
  frame := by
    intro g hg hlt
    have hle := h.frameNext
    obtain ⟨f, hf, hid, hamr⟩ := h'.frame g hg (by omega)
    obtain ⟨f', hf', hid', hamr'⟩ := h.frame f hf (by omega)
    exact ⟨f', hf', hid'.trans hid, hamr'.trans hamr⟩
  frameNext := h.frameNext.trans h'.frameNext
  dust := by
    intro d hd hlt
    have hle := h.dustNext
    exact h.dust d (h'.dust d hd (by omega)) hlt
  dustNext := h.dustNext.trans h'.dustNext

/-- A row that is at a waypoint then and later is at the same one. -/
theorem SourcesKept.atWaypoint {gw gw' : GatewayDb} (h : SourcesKept gw gw')
    {a a' : String} {wp wp' : Int} {q q' : TransferRow}
    (hat : AtWaypoint gw a wp q) (hat' : AtWaypoint gw' a' wp' q')
    (hframe : q'.frameId = q.frameId) (hdust : q'.dustId = q.dustId) :
    a' = a ∧ wp' = wp := by
  obtain ⟨⟨f, hf, hfid, rfl⟩, d, hd, hdid, hw⟩ := atWaypoint_iff.mp hat
  obtain ⟨⟨g, hg, hgid, rfl⟩, d', hd', hdid', hw'⟩ := atWaypoint_iff.mp hat'
  constructor
  · have hlt : f.id < gw.cctvFrame.next := gw.cctvFrame.lt_next f hf
    obtain ⟨f', hf', hf'id, hamr⟩ := h.frame g hg (by omega)
    have heq : f' = f := gw.cctvFrame.eq_of_key_eq hf' hf (by omega)
    rw [← hamr, heq]
  · have hid : d'.id = d.id := by
      rw [hdid', hdid] at hdust
      exact Option.some.inj hdust
    have hlt : d.id < gw.dustInspection.next := gw.dustInspection.lt_next d hd
    have hmem := h.dust d' hd' (by omega)
    have heq : d' = d := gw.dustInspection.eq_of_key_eq hmem hd hid
    rw [heq, hw] at hw'
    exact (Option.some.inj hw').symm

theorem sourcesKept_correlator (c : Correlator.FrameCorrelator) (gw : GatewayDb)
    (e : Correlator.Event) : SourcesKept gw (c.step gw e) := by
  cases e with
  | insertDust row =>
    refine ⟨fun g hg _ => ⟨g, hg, rfl, rfl⟩, le_refl _, fun d hd hlt => ?_, ?_⟩
    · rcases SerialTable.mem_append.mp hd with hd | rfl
      · exact hd
      · exact absurd hlt (lt_irrefl _)
    · exact Nat.le_succ _
  | insertFrame row =>
    refine ⟨fun g hg hlt => ?_, Nat.le_succ _, fun d hd _ => hd, le_refl _⟩
    rcases SerialTable.mem_append.mp hg with hg | rfl
    · exact ⟨g, hg, rfl, rfl⟩
    · exact absurd hlt (lt_irrefl _)
  | tick p =>
    have hnext : (c.pairSql p gw).cctvFrame.next = gw.cctvFrame.next := by
      rw [Correlator.FrameCorrelator.pairSql, GatewayDb.foldl_enqueueCctvTransfer]
      rfl
    have hdust := c.dustInspection_pairSql p gw
    refine ⟨fun g hg _ => ?_, le_of_eq hnext.symm, fun d hd _ => ?_, ?_⟩
    · obtain ⟨f, hf, rfl⟩ := c.mem_cctvFrame_pairSql.mp hg
      have hev : Correlator.Evolves f (c.pairFrame p gw f) :=
        Correlator.FrameCorrelator.evolves_pairFrame p f
      exact ⟨f, hf, hev.id.symm, hev.amrId.symm⟩
    · rw [← hdust]
      exact hd
    · exact le_of_eq (congrArg SerialTable.next hdust.symm)
  | dequeue k => exact .of_sources_eq rfl

theorem sourcesKept_step (P : Poller) (w : World) (e : Event) :
    SourcesKept w.gw (step P w e).gw := by
  cases e with
  | gateway c e => exact sourcesKept_correlator c w.gw e
  | deleteFrames p =>
    refine ⟨fun g hg _ => ⟨g, ?_, rfl, rfl⟩, le_refl _, fun d hd _ => hd, le_refl _⟩
    exact (Table.mem_deleteWhere.mp hg).1
  | deleteDusts p =>
    refine ⟨fun g hg _ => ?_, le_refl _, fun d hd _ => ?_, le_refl _⟩
    · exact GatewayDb.exists_frame_of_deleteDusts hg
    · exact (Table.mem_deleteWhere.mp hd).1
  | sweep before => exact .of_sources_eq rfl
  | poll calls => exact .of_sources_eq sources_transitions

theorem sourcesKept_run (P : Poller) (w : World) (es : List Event) :
    SourcesKept w.gw (run (step P) w es).gw :=
  run_rel (R := fun w w' : World => SourcesKept w.gw w'.gw)
    (fun w => .refl w.gw) (fun w₁ w₂ w₃ => .trans w₁.gw w₂.gw w₃.gw)
    (sourcesKept_step P) w es

/-! ## What is remembered -/

theorem lastWaypointByAmr_step {P : Poller} {w : World} {e : Event}
    (he : e.isPoll = false) :
    (step P w e).poller.lastWaypointByAmr = w.poller.lastWaypointByAmr := by
  cases e with
  | poll calls => contradiction
  | gateway c e => rfl
  | deleteFrames p => rfl
  | deleteDusts p => rfl
  | sweep before => rfl

theorem lastWaypointByAmr_run {P : Poller} (w : World) {es : List Event}
    (hes : ∀ e ∈ es, e.isPoll = false) :
    (run (step P) w es).poller.lastWaypointByAmr = w.poller.lastWaypointByAmr := by
  induction es generalizing w with
  | nil => rfl
  | cons e es ih =>
    rw [run_cons, ih _ (fun x hx => hes x (List.mem_cons_of_mem e hx)),
      lastWaypointByAmr_step (hes e List.mem_cons_self)]

/-! ## Two polls in a row -/

/-- The poll leaves the row for retry: it claimed the row in a batch that
failed in a handled way and committed, and the row is in the queue with one
more attempt. -/
def LeftForRetry (P : Poller) (w : World) (calls : String → Calls) (b : Batch)
    (r : QueueRow) : Prop :=
  b ∈ (checkWaypointTransition P calls w).2 ∧ b.committed = true ∧
    succeeds (calls b.amrId) b.amrId b.waypointId b.rows = false ∧
    r ∈ b.rows ∧
    ∃ q ∈ (step P w (.poll calls)).gw.cctvTransferQueue.rows,
      q.frameId = r.frameId ∧ q.dustId = r.dustId ∧ q.attempts = r.attempts + 1

/-- The queue holds the row. -/
def StillQueued (w : World) (r : QueueRow) : Prop :=
  ∃ q ∈ w.gw.cctvTransferQueue.rows, q.frameId = r.frameId ∧ q.dustId = r.dustId

/-- The poll claims the row. -/
def Claims (P : Poller) (w : World) (calls : String → Calls) (r : QueueRow) :
    Prop :=
  ∃ b ∈ (checkWaypointTransition P calls w).2, ∃ x ∈ b.rows, x.frameId = r.frameId

/-- In every run, a row that a poll leaves for retry and that is still
queued at the next poll is not claimed by the next poll. -/
theorem leftForRetry_not_claimed (P : Poller) (w : World)
    (calls calls' : String → Calls) (between : List Event) (b : Batch)
    (r : QueueRow) (hbetween : ∀ e ∈ between, e.isPoll = false)
    (hleft : LeftForRetry P w calls b r)
    (hqueued : StillQueued (run (step P) w (.poll calls :: between)) r) :
    ¬ Claims P (run (step P) w (.poll calls :: between)) calls' r := by
  obtain ⟨hb, hcommitted, -, hr, -⟩ := hleft
  intro hclaims
  obtain ⟨b', hb', x, hx, hxr⟩ := hclaims
  have hbatch := isBatchOf_of_mem nodup_fetchCurrentWaypoints hb
  have hbatch' := isBatchOf_of_mem nodup_fetchCurrentWaypoints hb'
  obtain ⟨q, -, hframe, hdust, hat⟩ := hbatch.rows r hr
  obtain ⟨q', hq', hframe', -, hat'⟩ := hbatch'.rows x hx
  -- the claimed queue row is the one that was left for retry
  obtain ⟨q₁, hq₁, hframe₁, hdust₁⟩ := hqueued
  have heq : q' = q₁ :=
    (run (step P) w (.poll calls :: between)).gw.cctvTransferQueue.eq_of_key_eq hq' hq₁
      (by rw [hframe', hxr, hframe₁])
  have hkept := sourcesKept_run P w (.poll calls :: between)
  obtain ⟨hamr, hwp⟩ := hkept.atWaypoint hat hat'
    (by rw [heq, hframe₁, hframe]) (by rw [heq, hdust₁, hdust])
  -- but the poll remembers another waypoint of the AMR
  obtain ⟨current, -, hne, hlast⟩ := hbatch.current
  have hremembered : prevWaypoint P (run (step P) w (.poll calls :: between)) b.amrId =
      current := by
    rw [prevWaypoint, run_cons, lastWaypointByAmr_run _ hbetween]
    show ((checkWaypointTransition P calls w).1.poller.lastWaypointByAmr
      b.amrId).getD P.initWaypointId = current
    rw [checkWaypointTransition, hlast hcommitted]
    rfl
  have hprev := hbatch'.waypointId
  rw [hamr, hwp, hremembered] at hprev
  exact hne hprev.symm

/-! ## A failure at waypoint 7 -/

/-- A correlator with windows of a microsecond. -/
def tightWindow : Correlator.FrameCorrelator where
  before := 1
  after := 1
  lookback := 60000000
  before_nonneg := by decide
  after_nonneg := by decide
  lookback_pos := by decide

/-- A frame of the AMR is taken at the waypoint at the time, and queued. -/
def arrives (amrId : String) (waypointId : Int) (now : Timestamp) : List Event :=
  [.gateway tightWindow (.insertDust
      { id := 0, receivedAt := now, waypointId := some waypointId }),
    .gateway tightWindow (.insertFrame
      { id := 0, receivedAt := now, amrId := amrId, filePath := "" }),
    .gateway tightWindow (.tick ⟨fun _ => now, fun _ _ => 0⟩)]

/-- The default settings. -/
def defaultPoller : Poller := { batchSize := 100, maxAttempts := 10 }

/-- A frame at waypoint 7, a poll, and a frame at waypoint 8. -/
def movesOn : World :=
  run (step defaultPoller) World.init
    (arrives "amr-01" 7 10 ++ .poll (fun _ => restDown) :: arrives "amr-01" 8 20)

/-- The row of the frame at waypoint 7. -/
def rowAt7 : QueueRow :=
  movesOn.gw.joinRow { frameId := 1, dustId := some 1, enqueuedAt := 10 }

/-- The batch of waypoint 7, which the poll after `movesOn` claims. -/
def batchAt7 : Batch := ⟨"amr-01", 7, [rowAt7], true⟩

instance (w : World) (r : QueueRow) : Decidable (StillQueued w r) :=
  inferInstanceAs (Decidable (∃ q ∈ w.gw.cctvTransferQueue.rows, _))

instance (P : Poller) (w : World) (calls : String → Calls) (r : QueueRow) :
    Decidable (Claims P w calls r) :=
  inferInstanceAs (Decidable (∃ b ∈ (checkWaypointTransition P calls w).2, _))

theorem leftForRetry_rowAt7 :
    LeftForRetry defaultPoller movesOn (fun _ => restDown) batchAt7 rowAt7 :=
  ⟨by decide, rfl, rfl, List.mem_cons_self, by decide⟩

/-- The server is down at one poll, and the next poll, with nothing in
between, does not claim the row of waypoint 7. -/
theorem not_claims_rowAt7 :
    LeftForRetry defaultPoller movesOn (fun _ => restDown) batchAt7 rowAt7 ∧
    StillQueued (run (step defaultPoller) movesOn [.poll fun _ => restDown]) rowAt7 ∧
    ¬ Claims defaultPoller
      (run (step defaultPoller) movesOn [.poll fun _ => restDown])
      (fun _ => restDown) rowAt7 :=
  ⟨leftForRetry_rowAt7, by decide, by decide⟩

/-- The same if the AMR moves on to waypoint 9 between the two polls. -/
theorem leftForRetry_not_claimed_rowAt7 :
    ¬ Claims defaultPoller
      (run (step defaultPoller) movesOn
        (.poll (fun _ => restDown) :: arrives "amr-01" 9 30))
      (fun _ => restDown) rowAt7 :=
  leftForRetry_not_claimed defaultPoller movesOn (fun _ => restDown)
    (fun _ => restDown) (arrives "amr-01" 9 30) batchAt7 rowAt7 (by decide)
    leftForRetry_rowAt7 (by decide)

end DustMonitoring.PoolerTran
