import DustMonitoring.Correlator.Pairing

/-!
# Runs of the correlator

A run interleaves the inserts of the two listeners, the ticks of the
correlator and the deletions that PoolerTran makes in the queue, in any
order.  A pairing is never revisited (`pairedTo_step`), it is made by a
tick that saw the measurement (`step_pairs`), and a frame enters the queue
only at that tick (`mem_enqueued_iff`).  Since the queue holds paired
frames only (`QueuePaired`), the conflict clause of the trigger never
meets a row of the frame, and a frame that PoolerTran has deleted does not
come back.
-/

namespace DustMonitoring.Correlator

open DustMonitoring.Lib DustMonitoring.Schema

/-- What happens to gateway_db. -/
inductive Event where
  | insertDust (row : DustInspection)
  | insertFrame (row : CctvFrame)
  | tick (p : Pass)
  | dequeue (frameId : Nat)

namespace FrameCorrelator

variable (c : FrameCorrelator)

/-- gateway_db after the event. -/
def step (gw : GatewayDb) : Event → GatewayDb
  | .insertDust row => gw.insertDust row
  | .insertFrame row => gw.insertFrame row
  | .tick p => (c.tick p gw).1
  | .dequeue frameId => gw.dequeue frameId

end FrameCorrelator

/-- The measurement that the frame is paired with. -/
def pairedTo (gw : GatewayDb) (frameId : Nat) : Option Nat :=
  (gw.cctvFrame.find? frameId).bind CctvFrame.dustInspectionId

/-- The frames that have a queue row in `after` and had none in `before`. -/
def enqueued (before after : GatewayDb) : List Nat :=
  (after.cctvTransferQueue.rows.map TransferRow.frameId).filter
    (fun k => decide (k ∉ before.cctvTransferQueue.rows.map TransferRow.frameId))

theorem pairedTo_eq_some_iff {gw : GatewayDb} {k i : Nat} :
    pairedTo gw k = some i ↔
      ∃ f ∈ gw.cctvFrame.rows, f.id = k ∧ f.dustInspectionId = some i := by
  rw [pairedTo, Option.bind_eq_some_iff]
  constructor
  · intro h
    obtain ⟨f, hf, hi⟩ := h
    obtain ⟨hmem, hid⟩ := Table.find?_eq_some_iff.mp hf
    exact ⟨f, hmem, hid, hi⟩
  · intro h
    obtain ⟨f, hmem, hid, hi⟩ := h
    exact ⟨f, Table.find?_eq_some_iff.mpr ⟨hmem, hid⟩, hi⟩

theorem pairedTo_of_mem {gw : GatewayDb} {f : CctvFrame}
    (hf : f ∈ gw.cctvFrame.rows) : pairedTo gw f.id = f.dustInspectionId := by
  rw [pairedTo, Table.find?_eq_some_iff.mpr ⟨hf, rfl⟩, Option.bind_some]

theorem mem_enqueued {before after : GatewayDb} {k : Nat} :
    k ∈ enqueued before after ↔
      (∃ q ∈ after.cctvTransferQueue.rows, q.frameId = k) ∧
        ∀ q ∈ before.cctvTransferQueue.rows, q.frameId ≠ k := by
  simp [enqueued]

theorem nodup_enqueued (before after : GatewayDb) :
    (enqueued before after).Nodup :=
  after.cctvTransferQueue.nodup.filter _

/-! ## What one step does to a frame -/

/-- `g` is the frame `f` at a later time: it is the same image, and it
keeps a pairing once it has one. -/
structure Evolves (f g : CctvFrame) : Prop where
  id : g.id = f.id
  receivedAt : g.receivedAt = f.receivedAt
  amrId : g.amrId = f.amrId
  paired : ∀ i, f.dustInspectionId = some i → g.dustInspectionId = some i

theorem Evolves.refl (f : CctvFrame) : Evolves f f :=
  ⟨rfl, rfl, rfl, fun _ h => h⟩

theorem Evolves.trans {f g h : CctvFrame} (hfg : Evolves f g)
    (hgh : Evolves g h) : Evolves f h where
  id := hgh.id.trans hfg.id
  receivedAt := hgh.receivedAt.trans hfg.receivedAt
  amrId := hgh.amrId.trans hfg.amrId
  paired := fun i hi => hgh.paired i (hfg.paired i hi)

namespace FrameCorrelator

variable {c : FrameCorrelator} {gw : GatewayDb}

theorem evolves_pairFrame (p : Pass) (f : CctvFrame) :
    Evolves f (c.pairFrame p gw f) := by
  unfold pairFrame
  cases h : c.selection p gw f with
  | none => exact Evolves.refl f
  | some i =>
    refine ⟨rfl, rfl, rfl, fun j hj => ?_⟩
    rw [(c.selection_eq_some h).1] at hj
    contradiction

/-- A frame that a pass leaves unpaired was unpaired and not selected. -/
theorem selection_eq_none_of_pairFrame {p : Pass} {f : CctvFrame}
    (h : (c.pairFrame p gw f).dustInspectionId = none) :
    f.dustInspectionId = none ∧ c.selection p gw f = none := by
  unfold pairFrame at h
  cases hsel : c.selection p gw f with
  | none =>
    rw [hsel] at h
    exact ⟨h, rfl⟩
  | some i =>
    rw [hsel] at h
    contradiction

/-- A frame stays, and keeps its pairing. -/
theorem step_evolves (e : Event) {f : CctvFrame}
    (hf : f ∈ gw.cctvFrame.rows) :
    ∃ g ∈ (c.step gw e).cctvFrame.rows, Evolves f g := by
  cases e with
  | insertDust row => exact ⟨f, hf, Evolves.refl f⟩
  | insertFrame row =>
    exact ⟨f, SerialTable.mem_append.mpr (Or.inl hf), Evolves.refl f⟩
  | tick p =>
    exact ⟨c.pairFrame p gw f, c.mem_cctvFrame_pairSql.mpr ⟨f, hf, rfl⟩,
      evolves_pairFrame p f⟩
  | dequeue k => exact ⟨f, hf, Evolves.refl f⟩

theorem pairedTo_step (e : Event) {k i : Nat} (h : pairedTo gw k = some i) :
    pairedTo (c.step gw e) k = some i := by
  obtain ⟨f, hf, rfl, hi⟩ := pairedTo_eq_some_iff.mp h
  obtain ⟨g, hg, hev⟩ := step_evolves (c := c) e hf
  exact pairedTo_eq_some_iff.mpr ⟨g, hg, hev.id, hev.paired i hi⟩

/-- A step that pairs a frame is a tick that selects it. -/
theorem step_pairs {e : Event} {k i : Nat} (hnone : pairedTo gw k = none)
    (h : pairedTo (c.step gw e) k = some i) :
    ∃ p, e = .tick p ∧
      ∃ f ∈ gw.cctvFrame.rows, f.id = k ∧ c.selection p gw f = some i := by
  have hunpaired : ∀ f ∈ gw.cctvFrame.rows, f.id = k →
      f.dustInspectionId = none := by
    intro f hf hid
    rw [← pairedTo_of_mem hf, hid, hnone]
  obtain ⟨g, hg, hid, hi⟩ := pairedTo_eq_some_iff.mp h
  cases e with
  | insertDust row =>
    rw [hunpaired g hg hid] at hi
    contradiction
  | insertFrame row =>
    rcases SerialTable.mem_append.mp hg with hg | rfl
    · rw [hunpaired g hg hid] at hi
      contradiction
    · contradiction
  | tick p =>
    obtain ⟨f, hf, rfl⟩ := c.mem_cctvFrame_pairSql.mp hg
    rw [(evolves_pairFrame p f).id] at hid
    refine ⟨p, rfl, f, hf, hid, ?_⟩
    unfold pairFrame at hi
    cases hsel : c.selection p gw f with
    | none =>
      rw [hsel] at hi
      rw [hunpaired f hf hid] at hi
      contradiction
    | some j =>
      rw [hsel] at hi
      exact hi
  | dequeue k' =>
    rw [hunpaired g hg hid] at hi
    contradiction

/-- A frame that a tick selects is paired by it. -/
theorem pairedTo_tick_of_selection {p : Pass} {f : CctvFrame} {i : Nat}
    (hf : f ∈ gw.cctvFrame.rows) (h : c.selection p gw f = some i) :
    pairedTo (c.step gw (.tick p)) f.id = some i := by
  have hpair : c.pairFrame p gw f =
      { f with
        dustInspectionId := some i
        pairedAt := some (p.clock f.id) } := by
    unfold pairFrame
    rw [h]
  refine pairedTo_eq_some_iff.mpr ⟨c.pairFrame p gw f, ?_, ?_, ?_⟩
  · exact c.mem_cctvFrame_pairSql.mpr ⟨f, hf, rfl⟩
  · rw [hpair]
  · rw [hpair]

/-! ## The queue holds paired frames only -/

/-- Every queue row belongs to a paired frame. -/
def QueuePaired (gw : GatewayDb) : Prop :=
  ∀ q ∈ gw.cctvTransferQueue.rows, ∃ i, pairedTo gw q.frameId = some i

theorem queuePaired_step (e : Event) (h : QueuePaired gw) :
    QueuePaired (c.step gw e) := by
  intro q hq
  have hold : q ∈ gw.cctvTransferQueue.rows →
      ∃ i, pairedTo (c.step gw e) q.frameId = some i := by
    intro hmem
    obtain ⟨i, hi⟩ := h q hmem
    exact ⟨i, pairedTo_step e hi⟩
  cases e with
  | insertDust row => exact hold hq
  | insertFrame row => exact hold hq
  | tick p =>
    rcases c.mem_cctvTransferQueue_pairSql.mp hq with hmem | hnew
    · exact hold hmem
    · obtain ⟨⟨f, hf, d, -, hsel, -, rfl⟩, -⟩ := hnew
      exact ⟨d.id, pairedTo_tick_of_selection hf hsel⟩
  | dequeue k => exact hold (Table.mem_deleteWhere.mp hq).1

theorem queuePaired_empty : QueuePaired GatewayDb.empty := by
  intro q hq
  exact absurd hq List.not_mem_nil

/-- A step puts a frame in the queue exactly if it is a tick that pairs the
frame with a measurement that names a waypoint. -/
theorem mem_enqueued_iff (hinv : QueuePaired gw) {e : Event} {k : Nat} :
    k ∈ enqueued gw (c.step gw e) ↔
      ∃ p, e = .tick p ∧ pairedTo gw k = none ∧
        ∃ d ∈ gw.dustInspection.rows,
          pairedTo (c.step gw e) k = some d.id ∧ d.waypointId ≠ none := by
  rw [mem_enqueued]
  constructor
  · intro h
    obtain ⟨⟨q, hq, rfl⟩, hfree⟩ := h
    cases e with
    | insertDust row => exact absurd rfl (hfree q hq)
    | insertFrame row => exact absurd rfl (hfree q hq)
    | tick p =>
      rcases c.mem_cctvTransferQueue_pairSql.mp hq with hmem | hnew
      · exact absurd rfl (hfree q hmem)
      · obtain ⟨⟨f, hf, d, hd, hsel, hw, rfl⟩, -⟩ := hnew
        refine ⟨p, rfl, ?_, d, hd, pairedTo_tick_of_selection hf hsel, hw⟩
        show pairedTo gw f.id = none
        rw [pairedTo_of_mem hf]
        exact (c.selection_eq_some hsel).1
    | dequeue k => exact absurd rfl (hfree q (Table.mem_deleteWhere.mp hq).1)
  · intro h
    obtain ⟨p, rfl, hnone, d, hd, hpaired, hw⟩ := h
    obtain ⟨p', hp, f, hf, rfl, hsel⟩ := step_pairs hnone hpaired
    obtain rfl := Event.tick.inj hp
    have hfree : ∀ q ∈ gw.cctvTransferQueue.rows, q.frameId ≠ f.id := by
      intro q hq hqf
      obtain ⟨i, hi⟩ := hinv q hq
      rw [hqf, hnone] at hi
      contradiction
    have hmem := c.mem_cctvTransferQueue_pairSql.mpr
      (Or.inr ⟨⟨f, hf, d, hd, hsel, hw, rfl⟩, hfree⟩)
    exact ⟨⟨queueRow p f d, hmem, rfl⟩, hfree⟩

/-! ## Runs -/

/-- gateway_db after the events, from the empty database. -/
def gatewayAfter (c : FrameCorrelator) (es : List Event) : GatewayDb :=
  run c.step GatewayDb.empty es

/-- The frames that were put in the queue, step after step. -/
def enqueueLog (c : FrameCorrelator) (es : List Event) : List Nat :=
  outputs c.step (fun gw e => enqueued gw (c.step gw e)) GatewayDb.empty es

theorem gatewayAfter_concat (es : List Event) (e : Event) :
    c.gatewayAfter (es ++ [e]) = c.step (c.gatewayAfter es) e :=
  run_concat c.step GatewayDb.empty es e

theorem queuePaired_gatewayAfter (es : List Event) :
    QueuePaired (c.gatewayAfter es) :=
  run_invariant (fun _ e h => queuePaired_step e h) queuePaired_empty es

theorem pairedTo_gatewayAfter_append {pre : List Event} (post : List Event)
    {k i : Nat} (h : pairedTo (c.gatewayAfter pre) k = some i) :
    pairedTo (c.gatewayAfter (pre ++ post)) k = some i := by
  have hstep : ∀ gw e, pairedTo gw k = some i →
      pairedTo (c.step gw e) k = some i := fun _ e hs => pairedTo_step e hs
  rw [gatewayAfter, run_append]
  exact run_invariant hstep h post

theorem nodup_enqueueLog (es : List Event) : (c.enqueueLog es).Nodup := by
  refine nodup_outputs QueuePaired (fun gw k => ∃ i, pairedTo gw k = some i)
    (fun _ e h => queuePaired_step e h) (fun _ _ _ => nodup_enqueued _ _)
    ?_ ?_ ?_ queuePaired_empty es
  · intro gw e k hinv hk hdone
    obtain ⟨p, -, hnone, -⟩ := (mem_enqueued_iff hinv).mp hk
    obtain ⟨i, hi⟩ := hdone
    rw [hnone] at hi
    contradiction
  · intro gw e k hinv hk
    obtain ⟨p, -, -, d, -, hpaired, -⟩ := (mem_enqueued_iff hinv).mp hk
    exact ⟨d.id, hpaired⟩
  · intro gw e k _ hdone
    obtain ⟨i, hi⟩ := hdone
    exact ⟨i, pairedTo_step e hi⟩

/-- In every run a pairing is never changed, it is made by a tick that saw
the measurement and saw none nearer, and every frame is put in the queue
at most once, exactly at the tick that pairs it with a measurement that
names a waypoint. -/
theorem pairing_safety (c : FrameCorrelator) :
    (∀ pre post k i, pairedTo (c.gatewayAfter pre) k = some i →
      pairedTo (c.gatewayAfter (pre ++ post)) k = some i) ∧
    (∀ pre e k i, pairedTo (c.gatewayAfter pre) k = none →
      pairedTo (c.gatewayAfter (pre ++ [e])) k = some i →
      ∃ p, e = .tick p ∧
        ∃ f ∈ (c.gatewayAfter pre).cctvFrame.rows, f.id = k ∧
          ∃ d, d.id = i ∧
            c.IsNearest (c.gatewayAfter pre).dustInspection.rows f d) ∧
    (∀ es, (c.enqueueLog es).Nodup) ∧
    (∀ pre e k,
      k ∈ enqueued (c.gatewayAfter pre) (c.gatewayAfter (pre ++ [e])) ↔
        ∃ p, e = .tick p ∧ pairedTo (c.gatewayAfter pre) k = none ∧
          ∃ d ∈ (c.gatewayAfter pre).dustInspection.rows,
            pairedTo (c.gatewayAfter (pre ++ [e])) k = some d.id ∧
              d.waypointId ≠ none) := by
  refine ⟨?_, ?_, nodup_enqueueLog, ?_⟩
  · intro pre post k i h
    exact pairedTo_gatewayAfter_append post h
  · intro pre e k i hnone h
    rw [gatewayAfter_concat] at h
    obtain ⟨p, he, f, hf, hid, hsel⟩ := step_pairs hnone h
    exact ⟨p, he, f, hf, hid, (c.selection_eq_some hsel).2.2⟩
  · intro pre e k
    rw [gatewayAfter_concat]
    exact mem_enqueued_iff (queuePaired_gatewayAfter pre)

end FrameCorrelator

end DustMonitoring.Correlator
