import DustMonitoring.PoolerTran.Delivery

/-!
# What the gateway holds of one AMR

`SameFor a w w'` says that two worlds are the same as far as the AMR `a` is
concerned: the measurements, the frames of `a`, the queue rows of these
frames and the waypoint that the poller remembers for `a`.  The frames and
queue rows of every other AMR may be anything.

Two such worlds stay the same when both make the same step, and a world
stays the same to itself when another AMR makes a step: the queries claim
the same rows of `a`, find it at the same waypoint, and no batch of another
AMR deletes a row of `a`.  decision_db is not part of the relation, since
`dust_id` is unique across the AMRs.
-/

namespace DustMonitoring.PoolerTran

open DustMonitoring.Lib DustMonitoring.Schema DustMonitoring.Correlator

/-- The frame of the queue row is of the AMR. -/
def IsOf (gw : GatewayDb) (amrId : String) (q : TransferRow) : Prop :=
  ∃ f ∈ gw.cctvFrame.rows, f.id = q.frameId ∧ f.amrId = amrId

/-- The two gateway databases hold the same of the AMR. -/
structure SameGateway (amrId : String) (gw gw' : GatewayDb) : Prop where
  dusts : gw'.dustInspection = gw.dustInspection
  frames : ∀ f : CctvFrame, f.amrId = amrId →
    (f ∈ gw'.cctvFrame.rows ↔ f ∈ gw.cctvFrame.rows)
  queue : ∀ q : TransferRow, IsOf gw amrId q →
    (q ∈ gw'.cctvTransferQueue.rows ↔ q ∈ gw.cctvTransferQueue.rows)

/-- The two worlds are the same for the AMR. -/
structure SameFor (amrId : String) (w w' : World) : Prop where
  gw : SameGateway amrId w.gw w'.gw
  last : w'.poller.lastWaypointByAmr amrId = w.poller.lastWaypointByAmr amrId

section Gateway

variable {amrId : String} {gw gw' : GatewayDb}

theorem SameGateway.isOf_iff (h : SameGateway amrId gw gw') {q : TransferRow} :
    IsOf gw' amrId q ↔ IsOf gw amrId q := by
  constructor
  · intro hq
    obtain ⟨f, hf, hid, hamr⟩ := hq
    exact ⟨f, (h.frames f hamr).mp hf, hid, hamr⟩
  · intro hq
    obtain ⟨f, hf, hid, hamr⟩ := hq
    exact ⟨f, (h.frames f hamr).mpr hf, hid, hamr⟩

theorem SameGateway.refl (amrId : String) (gw : GatewayDb) : SameGateway amrId gw gw :=
  ⟨rfl, fun _ _ => Iff.rfl, fun _ _ => Iff.rfl⟩

theorem SameGateway.symm (h : SameGateway amrId gw gw') : SameGateway amrId gw' gw :=
  ⟨h.dusts.symm, fun f hf => (h.frames f hf).symm,
    fun q hq => (h.queue q (h.isOf_iff.mp hq)).symm⟩

theorem SameGateway.trans {gw'' : GatewayDb} (h : SameGateway amrId gw gw')
    (h' : SameGateway amrId gw' gw'') : SameGateway amrId gw gw'' :=
  ⟨h'.dusts.trans h.dusts, fun f hf => (h'.frames f hf).trans (h.frames f hf),
    fun q hq => (h'.queue q (h.isOf_iff.mpr hq)).trans (h.queue q hq)⟩

/-- The frame of a row of the AMR, looked up in either database. -/
theorem SameGateway.find?_frame (h : SameGateway amrId gw gw') {q : TransferRow}
    (hq : IsOf gw amrId q) :
    gw'.cctvFrame.find? q.frameId = gw.cctvFrame.find? q.frameId := by
  obtain ⟨f, hf, hid, hamr⟩ := hq
  have hfind : gw.cctvFrame.find? q.frameId = some f :=
    Table.find?_eq_some_iff.mpr ⟨hf, hid⟩
  rw [hfind]
  exact Table.find?_eq_some_iff.mpr ⟨(h.frames f hamr).mpr hf, hid⟩

/-- A row of the AMR is joined with the same columns. -/
theorem SameGateway.joinRow (h : SameGateway amrId gw gw') {q : TransferRow}
    (hq : IsOf gw amrId q) : gw'.joinRow q = gw.joinRow q := by
  simp only [GatewayDb.joinRow, h.find?_frame hq, h.dusts]

theorem isOf_of_atWaypoint {waypointId : Int} {q : TransferRow}
    (h : AtWaypoint gw amrId waypointId q) : IsOf gw amrId q :=
  (atWaypoint_iff.mp h).1

theorem SameGateway.atWaypoint (h : SameGateway amrId gw gw') {waypointId : Int}
    {q : TransferRow} (hat : AtWaypoint gw amrId waypointId q) :
    AtWaypoint gw' amrId waypointId q := by
  rw [AtWaypoint, h.joinRow (isOf_of_atWaypoint hat)]
  exact hat

/-- A frame is of one AMR. -/
theorem IsOf.unique {b : String} {q : TransferRow} (h : IsOf gw amrId q)
    (h' : IsOf gw b q) : amrId = b := by
  obtain ⟨f, hf, hid, rfl⟩ := h
  obtain ⟨g, hg, hid', rfl⟩ := h'
  rw [gw.cctvFrame.eq_of_key_eq hf hg (hid.trans hid'.symm)]

/-! ## The queries -/

/-- The poller claims the same rows of the AMR. -/
theorem SameGateway.fetchBatch (h : SameGateway amrId gw gw') (waypointId : Int)
    (limit : Nat) :
    fetchBatchForWaypoint gw' amrId waypointId limit =
      fetchBatchForWaypoint gw amrId waypointId limit := by
  have hmem : ∀ {gw gw' : GatewayDb}, SameGateway amrId gw gw' → ∀ r,
      r ∈ (gw.cctvTransferQueue.rows.map gw.joinRow).filter (isAtWaypoint amrId waypointId) →
      r ∈ (gw'.cctvTransferQueue.rows.map gw'.joinRow).filter
        (isAtWaypoint amrId waypointId) := by
    intro gw gw' h r hr
    obtain ⟨hmap, hat⟩ := List.mem_filter.mp hr
    obtain ⟨q, hq, rfl⟩ := List.mem_map.mp hmap
    have hof := isOf_of_atWaypoint (isAtWaypoint_joinRow.mp hat)
    refine List.mem_filter.mpr ⟨List.mem_map.mpr ⟨q, (h.queue q hof).mpr hq, ?_⟩, hat⟩
    exact h.joinRow hof
  have hnodup : ∀ gw : GatewayDb, ((gw.cctvTransferQueue.rows.map gw.joinRow).filter
      (isAtWaypoint amrId waypointId)).Nodup := by
    intro gw
    have hjoined : ((gw.cctvTransferQueue.rows.map gw.joinRow).map
        QueueRow.frameId).Nodup := by
      rw [List.map_map]
      exact gw.cctvTransferQueue.nodup
    exact hjoined.of_map.filter _
  have hperm := (List.perm_ext_iff_of_nodup (hnodup gw') (hnodup gw)).mpr
    fun r => ⟨hmem h.symm r, hmem h r⟩
  rw [fetchBatchForWaypoint, fetchBatchForWaypoint, orderBy_eq_of_perm hperm ?_]
  -- two rows of the queue with the same key are of one frame
  intro r hr r' hr' hkey
  obtain ⟨q, hq, rfl⟩ := List.mem_map.mp (List.mem_of_mem_filter hr)
  obtain ⟨q', hq', rfl⟩ := List.mem_map.mp (List.mem_of_mem_filter hr')
  have hframe : q.frameId = q'.frameId := (Prod.mk.inj (toLex.injective hkey)).2
  rw [gw'.cctvTransferQueue.eq_of_key_eq hq hq' hframe]

/-- The poller finds the AMR at the same waypoint. -/
theorem SameGateway.mem_fetchCurrentWaypoints (h : SameGateway amrId gw gw')
    {current : Int} (hcur : (amrId, current) ∈ fetchCurrentWaypoints gw) :
    (amrId, current) ∈ fetchCurrentWaypoints gw' := by
  obtain ⟨q, hq, hat, hnewest⟩ := of_mem_fetchCurrentWaypoints hcur
  have hof := isOf_of_atWaypoint hat
  have hq' : q ∈ gw'.cctvTransferQueue.rows := (h.queue q hof).mpr hq
  obtain ⟨current', hcur'⟩ := exists_mem_fetchCurrentWaypoints hq' (h.atWaypoint hat)
  obtain ⟨x, hx, hatx, hnewest'⟩ := of_mem_fetchCurrentWaypoints hcur'
  have hatx₀ := h.symm.atWaypoint hatx
  have hofx := isOf_of_atWaypoint hatx₀
  have hx₀ : x ∈ gw.cctvTransferQueue.rows := (h.queue x hofx).mp hx
  -- both are the newest row of the AMR
  have hle : oldestFirst (gw.joinRow x) ≤ oldestFirst (gw.joinRow q) :=
    hnewest x hx₀ current' hatx₀
  have hge : oldestFirst (gw.joinRow q) ≤ oldestFirst (gw.joinRow x) := by
    have hle' := hnewest' q hq' current (h.atWaypoint hat)
    rw [h.joinRow hof, h.joinRow hofx] at hle'
    exact hle'
  have hframe : q.frameId = x.frameId :=
    (Prod.mk.inj (toLex.injective (le_antisymm hge hle))).2
  obtain rfl := gw.cctvTransferQueue.eq_of_key_eq hq hx₀ hframe
  rw [(hat.unique hatx₀).2]
  exact hcur'

/-! ## The listeners -/

/-- A measurement that both databases insert. -/
theorem SameGateway.insertDust (h : SameGateway amrId gw gw') (row : DustInspection) :
    SameGateway amrId (gw.insertDust row) (gw'.insertDust row) := by
  refine ⟨?_, h.frames, h.queue⟩
  rw [GatewayDb.insertDust, GatewayDb.insertDust, h.dusts]

/-- A frame of another AMR. -/
theorem SameGateway.insertFrame_other {row : CctvFrame} (hrow : row.amrId ≠ amrId) :
    SameGateway amrId gw (gw.insertFrame row) := by
  refine ⟨rfl, fun f hf => ?_, fun _ _ => Iff.rfl⟩
  refine SerialTable.mem_append.trans (or_iff_left ?_)
  intro hnew
  rw [hnew] at hf
  exact hrow hf

/-- A frame of the AMR that both databases insert under the same id. -/
theorem SameGateway.insertFrame (h : SameGateway amrId gw gw')
    (hqueue : FrameCorrelator.QueuePaired gw)
    (hqueue' : FrameCorrelator.QueuePaired gw') (row : CctvFrame)
    (hnext : gw'.cctvFrame.next = gw.cctvFrame.next) :
    SameGateway amrId (gw.insertFrame row) (gw'.insertFrame row) := by
  refine ⟨h.dusts, fun f hf => ?_, fun q hq => ?_⟩
  · refine SerialTable.mem_append.trans (Iff.trans ?_ SerialTable.mem_append.symm)
    rw [hnext]
    exact or_congr_left (h.frames f hf)
  · obtain ⟨f, hf, hid, hamr⟩ := hq
    rcases SerialTable.mem_append.mp hf with hf | rfl
    · exact h.queue q ⟨f, hf, hid, hamr⟩
    · -- no queue row has the id that the new frame gets
      have hfree : ∀ {gw : GatewayDb}, FrameCorrelator.QueuePaired gw →
          q ∈ gw.cctvTransferQueue.rows → gw.cctvFrame.next ≠ q.frameId := by
        intro gw hqueue hmem heq
        obtain ⟨i, hi⟩ := hqueue q hmem
        rw [pairedTo, ← heq, gw.cctvFrame.find?_next] at hi
        contradiction
      exact ⟨fun hmem => absurd (hnext.trans hid) (hfree hqueue' hmem),
        fun hmem => absurd hid (hfree hqueue hmem)⟩

/-- An insert of a frame that is rolled back. -/
def skipFrame (gw : GatewayDb) : GatewayDb :=
  { gw with
    cctvFrame := gw.cctvFrame.skip }

theorem SameGateway.skipFrame : SameGateway amrId gw (skipFrame gw) :=
  ⟨rfl, fun _ _ => Iff.rfl, fun _ _ => Iff.rfl⟩

/-! ## The correlator -/

/-- Two passes that read the same clock for the frames of the AMR, and put
equally near measurements in the same order for them. -/
structure SamePass (amrId : String) (gw : GatewayDb) (p p' : Pass) : Prop where
  clock : ∀ f ∈ gw.cctvFrame.rows, f.amrId = amrId → p'.clock f.id = p.clock f.id
  tie : ∀ f ∈ gw.cctvFrame.rows, f.amrId = amrId → p'.tie f = p.tie f

theorem SamePass.symm {p p' : Pass} (hp : SamePass amrId gw p p')
    (h : SameGateway amrId gw gw') : SamePass amrId gw' p' p :=
  ⟨fun f hf hamr => (hp.clock f ((h.frames f hamr).mp hf) hamr).symm,
    fun f hf hamr => (hp.tie f ((h.frames f hamr).mp hf) hamr).symm⟩

section Tick

variable (c : FrameCorrelator) {p p' : Pass}

theorem SameGateway.selection (h : SameGateway amrId gw gw')
    (hp : SamePass amrId gw p p') {f : CctvFrame} (hf : f ∈ gw.cctvFrame.rows)
    (hamr : f.amrId = amrId) : c.selection p' gw' f = c.selection p gw f := by
  simp only [FrameCorrelator.selection, FrameCorrelator.inLookback,
    FrameCorrelator.nearest, hp.clock f hf hamr, hp.tie f hf hamr, h.dusts]
  rfl

theorem id_pairFrame (f : CctvFrame) : (c.pairFrame p gw f).id = f.id :=
  (FrameCorrelator.evolves_pairFrame p f).id

theorem amrId_pairFrame (f : CctvFrame) : (c.pairFrame p gw f).amrId = f.amrId :=
  (FrameCorrelator.evolves_pairFrame p f).amrId

theorem isOf_pairSql {q : TransferRow} :
    IsOf (c.pairSql p gw) amrId q ↔ IsOf gw amrId q := by
  constructor
  · intro hq
    obtain ⟨g, hg, hid, hamr⟩ := hq
    obtain ⟨f, hf, rfl⟩ := c.mem_cctvFrame_pairSql.mp hg
    exact ⟨f, hf, (id_pairFrame c f).symm.trans hid, (amrId_pairFrame c f).symm.trans hamr⟩
  · intro hq
    obtain ⟨f, hf, hid, hamr⟩ := hq
    exact ⟨c.pairFrame p gw f, c.mem_cctvFrame_pairSql.mpr ⟨f, hf, rfl⟩,
      (id_pairFrame c f).trans hid, (amrId_pairFrame c f).trans hamr⟩

/-- A frame of the AMR after the pass is there in the other database. -/
private theorem mem_frames_tick (h : SameGateway amrId gw gw')
    (hp : SamePass amrId gw p p') {g : CctvFrame} (hamr : g.amrId = amrId)
    (hg : g ∈ (c.pairSql p gw).cctvFrame.rows) :
    g ∈ (c.pairSql p' gw').cctvFrame.rows := by
  obtain ⟨f, hf, rfl⟩ := c.mem_cctvFrame_pairSql.mp hg
  have hf' : f.amrId = amrId := (amrId_pairFrame c f).symm.trans hamr
  refine c.mem_cctvFrame_pairSql.mpr ⟨f, (h.frames f hf').mpr hf, ?_⟩
  rw [FrameCorrelator.pairFrame, FrameCorrelator.pairFrame, h.selection c hp hf hf',
    hp.clock f hf hf']

/-- A queue row of the AMR after the pass is there in the other
database. -/
private theorem mem_queue_tick (h : SameGateway amrId gw gw')
    (hp : SamePass amrId gw p p') {q : TransferRow} (hof : IsOf gw amrId q)
    (hq : q ∈ (c.pairSql p gw).cctvTransferQueue.rows) :
    q ∈ (c.pairSql p' gw').cctvTransferQueue.rows := by
  refine c.mem_cctvTransferQueue_pairSql.mpr ?_
  rcases c.mem_cctvTransferQueue_pairSql.mp hq with hq | ⟨⟨f, hf, d, hd, hsel, hwp, rfl⟩, hfree⟩
  · exact Or.inl ((h.queue q hof).mpr hq)
  · obtain ⟨g, hg, hid, hamr⟩ := hof
    have hf' : f.amrId = amrId := by
      rw [gw.cctvFrame.eq_of_key_eq hf hg hid.symm]
      exact hamr
    refine Or.inr ⟨⟨f, (h.frames f hf').mpr hf, d, ?_, ?_, hwp, ?_⟩, fun r hr heq => ?_⟩
    · rw [h.dusts]
      exact hd
    · rw [h.selection c hp hf hf']
      exact hsel
    · rw [FrameCorrelator.queueRow, FrameCorrelator.queueRow, hp.clock f hf hf']
    · have hofr : IsOf gw amrId r := ⟨f, hf, heq.symm, hf'⟩
      exact hfree r ((h.queue r hofr).mp hr) heq

/-- A pass of the correlator in both databases. -/
theorem SameGateway.tick (h : SameGateway amrId gw gw') (hp : SamePass amrId gw p p') :
    SameGateway amrId (c.pairSql p gw) (c.pairSql p' gw') := by
  refine ⟨?_, fun f hf => ⟨?_, ?_⟩, fun q hq => ⟨fun hmem => ?_, fun hmem => ?_⟩⟩
  · rw [c.dustInspection_pairSql, c.dustInspection_pairSql, h.dusts]
  · exact mem_frames_tick c h.symm (hp.symm h) hf
  · exact mem_frames_tick c h hp hf
  · have hof := (isOf_pairSql c).mp hq
    exact mem_queue_tick c h.symm (hp.symm h) (h.isOf_iff.mpr hof) hmem
  · exact mem_queue_tick c h hp ((isOf_pairSql c).mp hq) hmem

end Tick

end Gateway

/-! ## The poller -/

section Poller

variable {P : Poller} {amrId : String} {w w' w'' : World}

theorem SameFor.refl (amrId : String) (w : World) : SameFor amrId w w :=
  ⟨.refl amrId w.gw, rfl⟩

theorem SameFor.symm (h : SameFor amrId w w') : SameFor amrId w' w :=
  ⟨h.gw.symm, h.last.symm⟩

theorem SameFor.trans (h : SameFor amrId w w') (h' : SameFor amrId w' w'') :
    SameFor amrId w w'' :=
  ⟨h.gw.trans h'.gw, h'.last.trans h.last⟩

theorem SameFor.prevWaypoint (h : SameFor amrId w w') :
    prevWaypoint P w' amrId = prevWaypoint P w amrId :=
  prevWaypoint_congr h.last

theorem SameFor.remember (h : SameFor amrId w w') (current : Int) :
    SameFor amrId (remember w amrId current) (remember w' amrId current) := by
  refine ⟨h.gw, ?_⟩
  show Function.update _ amrId _ amrId = Function.update _ amrId _ amrId
  rw [Function.update_self, Function.update_self]

theorem sameFor_remember {b : String} (hb : b ≠ amrId) (w : World) (current : Int) :
    SameFor amrId w (remember w b current) :=
  ⟨.refl amrId w.gw, Function.update_of_ne hb.symm _ _⟩

theorem frames_leaving (calls : Calls) (b : String) (w : World) :
    ((leaving P calls b w).after P).gw.cctvFrame = w.gw.cctvFrame :=
  (Prod.mk.inj sources_leaveWaypoint).1

theorem dusts_leaving (calls : Calls) (b : String) (w : World) :
    ((leaving P calls b w).after P).gw.dustInspection = w.gw.dustInspection :=
  (Prod.mk.inj sources_leaveWaypoint).2

theorem last_leaving (calls : Calls) (b : String) (w : World) :
    ((leaving P calls b w).after P).poller.lastWaypointByAmr =
      w.poller.lastWaypointByAmr :=
  lastWaypointByAmr_leaveWaypoint

theorem mem_queue_leaving {calls : String → Calls} (hcalls : NoFailure calls)
    (b : String) (w : World) {q : TransferRow} :
    q ∈ ((leaving P (calls b) b w).after P).gw.cctvTransferQueue.rows ↔
      q ∈ w.gw.cctvTransferQueue.rows ∧
        ¬ (0 < P.batchSize ∧ AtWaypoint w.gw b (prevWaypoint P w b) q) :=
  mem_queue_leaveWaypoint hcalls

/-- The batch of another AMR. -/
theorem sameFor_leaving {calls : String → Calls} (hcalls : NoFailure calls) {b : String}
    (hb : b ≠ amrId) (w : World) :
    SameFor amrId w ((leaving P (calls b) b w).after P) := by
  refine ⟨⟨dusts_leaving _ b w, fun f _ => ?_, fun q hq => ?_⟩, ?_⟩
  · rw [frames_leaving]
  · refine (mem_queue_leaving hcalls b w).trans (and_iff_left ?_)
    intro h
    exact hb ((isOf_of_atWaypoint h.2).unique hq)
  · rw [last_leaving]

/-- The batch of the AMR claims the same rows. -/
theorem SameFor.rows_leaving (h : SameFor amrId w w') (calls : Calls) :
    (leaving P calls amrId w').rows P = (leaving P calls amrId w).rows P := by
  show fetchBatchForWaypoint w'.gw amrId (PoolerTran.prevWaypoint P w' amrId) _ = _
  rw [h.prevWaypoint]
  exact h.gw.fetchBatch _ _

/-- The batch of the AMR deletes the same rows. -/
theorem SameFor.leaving {calls calls' : String → Calls} (h : SameFor amrId w w')
    (hcalls : NoFailure calls) (hcalls' : NoFailure calls') :
    SameFor amrId ((leaving P (calls amrId) amrId w).after P)
      ((leaving P (calls' amrId) amrId w').after P) := by
  refine ⟨⟨?_, fun f hf => ?_, fun q hq => ?_⟩, ?_⟩
  · rw [dusts_leaving, dusts_leaving, h.gw.dusts]
  · rw [frames_leaving, frames_leaving]
    exact h.gw.frames f hf
  · have hof : IsOf w.gw amrId q := by
      rw [IsOf, frames_leaving] at hq
      exact hq
    rw [mem_queue_leaving hcalls, mem_queue_leaving hcalls', h.gw.queue q hof,
      h.prevWaypoint]
    refine and_congr_right fun _ => not_congr (and_congr_right fun _ => ?_)
    exact ⟨h.gw.symm.atWaypoint, h.gw.atWaypoint⟩
  · rw [last_leaving, last_leaving]
    exact h.last

/-! ## The loop of a poll -/

/-- The deliveries of the AMR. -/
def deliveriesOf (amrId : String) (ds : List Delivery) : List Delivery :=
  ds.filter fun d => decide (d.amrId = amrId)

section Loop

variable {calls : String → Calls} {items : List (String × Int)}

theorem deliveriesOf_cons_of_ne {b : String} (hb : b ≠ amrId) (calls : Calls)
    (w : World) (ds : List Delivery) :
    deliveriesOf amrId (leaving P calls b w :: ds) = deliveriesOf amrId ds :=
  List.filter_cons_of_neg (fun h => hb (of_decide_eq_true h))

theorem deliveriesOf_cons_self (calls : Calls) (w : World) (ds : List Delivery) :
    deliveriesOf amrId (leaving P calls amrId w :: ds) =
      leaving P calls amrId w :: deliveriesOf amrId ds :=
  List.filter_cons_of_pos (decide_eq_true rfl)

/-- The loop over other AMRs. -/
theorem transitions_other (hcalls : NoFailure calls) (ha : amrId ∉ items.map Prod.fst)
    (w : World) :
    SameFor amrId w (transitions P calls items w).1 ∧
      deliveriesOf amrId (deliveries P calls items w) = [] := by
  induction items generalizing w with
  | nil => exact ⟨.refl amrId w, rfl⟩
  | cons item rest ih =>
    obtain ⟨b, current⟩ := item
    rw [List.map_cons, List.mem_cons, not_or] at ha
    have hb : b ≠ amrId := fun heq => ha.1 heq.symm
    by_cases h : current = prevWaypoint P w b
    · rw [transitions_of_eq h, deliveries_of_eq h]
      obtain ⟨hrest, hnone⟩ := ih ha.2 (remember w b current)
      exact ⟨(sameFor_remember hb w current).trans hrest, hnone⟩
    · rw [transitions_of_commits h (hcalls b).1, deliveries_of_commits h (hcalls b).1]
      obtain ⟨hrest, hnone⟩ := ih ha.2
        (remember ((leaving P (calls b) b w).after P) b current)
      refine ⟨((sameFor_leaving hcalls hb w).trans
        (sameFor_remember hb _ current)).trans hrest, ?_⟩
      rw [deliveriesOf_cons_of_ne hb]
      exact hnone

/-- The loop over the AMR and others: the AMR has its turn in a world that
is the same for it, and which has all the records of the world before the
loop. -/
theorem transitions_own (hcalls : NoFailure calls) (hnodup : (items.map Prod.fst).Nodup)
    {current : Int} (ha : (amrId, current) ∈ items) (w : World) :
    ∃ turn, SameFor amrId w turn ∧
      (∀ x ∈ w.decision.decisionRecord.rows, x ∈ turn.decision.decisionRecord.rows) ∧
      ((current = prevWaypoint P w amrId ∧
          deliveriesOf amrId (deliveries P calls items w) = [] ∧
          SameFor amrId (remember turn amrId current) (transitions P calls items w).1) ∨
        (current ≠ prevWaypoint P w amrId ∧
          deliveriesOf amrId (deliveries P calls items w) =
            [leaving P (calls amrId) amrId turn] ∧
          SameFor amrId
            (remember ((leaving P (calls amrId) amrId turn).after P) amrId current)
            (transitions P calls items w).1)) := by
  induction items generalizing w with
  | nil => exact absurd ha List.not_mem_nil
  | cons item rest ih =>
    obtain ⟨b, currentWp⟩ := item
    rw [List.map_cons, List.nodup_cons] at hnodup
    rcases List.mem_cons.mp ha with heq | ha
    · -- the turn of the AMR
      obtain ⟨rfl, rfl⟩ := Prod.mk.inj heq
      refine ⟨w, .refl _ w, fun _ hx => hx, ?_⟩
      by_cases h : current = prevWaypoint P w amrId
      · rw [transitions_of_eq h, deliveries_of_eq h]
        obtain ⟨hrest, hnone⟩ := transitions_other (P := P) hcalls hnodup.1
          (remember w amrId current)
        exact Or.inl ⟨h, hnone, hrest⟩
      · rw [transitions_of_commits h (hcalls amrId).1,
          deliveries_of_commits h (hcalls amrId).1]
        obtain ⟨hrest, hnone⟩ := transitions_other (P := P) hcalls hnodup.1
          (remember ((leaving P (calls amrId) amrId w).after P) amrId current)
        refine Or.inr ⟨h, ?_, hrest⟩
        rw [deliveriesOf_cons_self, hnone]
    · -- the turn of another AMR
      have hb : b ≠ amrId := by
        rintro rfl
        exact hnodup.1 (List.mem_map.mpr ⟨_, ha, rfl⟩)
      by_cases h : currentWp = prevWaypoint P w b
      · rw [transitions_of_eq h, deliveries_of_eq h]
        have hsame := sameFor_remember hb w currentWp
        obtain ⟨turn, hturn, hrecords, hcases⟩ := ih hnodup.2 ha (remember w b currentWp)
        rw [hsame.prevWaypoint] at hcases
        exact ⟨turn, hsame.trans hturn, hrecords, hcases⟩
      · rw [transitions_of_commits h (hcalls b).1, deliveries_of_commits h (hcalls b).1]
        have hsame := (sameFor_leaving hcalls hb w).trans
          (sameFor_remember hb ((leaving P (calls b) b w).after P) currentWp)
        obtain ⟨turn, hturn, hrecords, hcases⟩ := ih hnodup.2 ha
          (remember ((leaving P (calls b) b w).after P) b currentWp)
        rw [hsame.prevWaypoint] at hcases
        rw [deliveriesOf_cons_of_ne hb]
        refine ⟨turn, hsame.trans hturn, fun x hx => hrecords x ?_, hcases⟩
        exact (Delivery.rows_after P (leaving P (calls b) b w)) ▸
          List.mem_append_left _ hx

end Loop

end Poller

end DustMonitoring.PoolerTran
