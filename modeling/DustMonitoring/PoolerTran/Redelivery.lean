import DustMonitoring.PoolerTran.Delivery

/-!
# Redelivered frames

The insert of the decision commits before the transaction that deletes the
queue rows.  When that transaction is rolled back, or the process ends in
between, the frames stay in the queue and a later batch claims them again,
together with the frames of the waypoint that were queued meanwhile.  The
docstring of the poller relies on `ON CONFLICT (dust_id) DO NOTHING` to
absorb the second insert.

It is absorbed exactly if the measurement of the new representative has a
record.  `contributesOnce_iff` says so of whole runs: no frame contributes
to two records if and only if every batch that claims a frame again and
inserts finds a record of the measurement of its representative.  Frames
that come late with a larger dust value bring a representative of their
own, and then the first frames are recorded twice; where no late frame has one,
they are not (`contributesOnce_of_repeats`).
-/

namespace DustMonitoring.PoolerTran.Redelivery

open DustMonitoring.Lib DustMonitoring.Schema

/-- What happens to the poller and to its databases. -/
inductive Event where
  | world (e : PoolerTran.Event)
  /-- The process ends, and a new one starts. -/
  | restart

/-- The world after the event. -/
def step (P : Poller) (w : World) : Event → World
  | .world e => PoolerTran.step P w e
  | .restart => { w with poller := {} }

/-- The deliveries of the event. -/
def eventDeliveries (P : Poller) (w : World) : Event → List Delivery
  | .world (.poll calls) => deliveries P calls (fetchCurrentWaypoints w.gw) w
  | _ => []

/-- The deliveries of a run, in order. -/
def delivered (P : Poller) (w : World) (es : List Event) : List Delivery :=
  outputs (step P) (eventDeliveries P) w es

/-- A frame was in the batch that added the record. -/
structure Contribution where
  frameId : Nat
  recordId : Nat
deriving DecidableEq, Repr

/-- What the claimed frames contribute to. -/
def contributions (P : Poller) (d : Delivery) : List Contribution :=
  (d.newRecords P).flatMap fun x => (d.rows P).map fun r => ⟨r.frameId, x.id⟩

/-- What the frames contributed to in a run from empty databases. -/
def ledger (P : Poller) (es : List Event) : List Contribution :=
  (delivered P World.init es).flatMap (contributions P)

/-- No frame contributes to two records. -/
def ContributesOnce (L : List Contribution) : Prop :=
  ∀ x ∈ L, ∀ y ∈ L, x.frameId = y.frameId → x.recordId = y.recordId

instance : DecidablePred ContributesOnce :=
  fun L => inferInstanceAs (Decidable (∀ x ∈ L, _))

/-- The ledger after one more delivery. -/
def noteDelivery (P : Poller) (L : List Contribution) (d : Delivery) :
    List Contribution :=
  L ++ contributions P d

/-- The delivery claims a frame that has contributed to a record. -/
def ClaimsAgain (P : Poller) (L : List Contribution) (d : Delivery) : Prop :=
  ∃ x ∈ L, ∃ r ∈ d.rows P, r.frameId = x.frameId

/-- If the delivery claims a frame again and inserts, the measurement of
its representative has a record. -/
def Absorbed (P : Poller) (L : List Contribution) (d : Delivery) : Prop :=
  ClaimsAgain P L d → d.Inserts P → d.Decided P

/-! ## The ledger accounts for every record -/

theorem decisionRecord_step (P : Poller) (w : World) (e : Event) :
    (step P w e).decision.decisionRecord.rows =
      w.decision.decisionRecord.rows ++
        (eventDeliveries P w e).flatMap (·.newRecords P) := by
  cases e with
  | restart => exact (List.append_nil _).symm
  | world e =>
    cases e with
    | poll calls => exact decisionRecord_transitions
    | _ => exact (List.append_nil _).symm

/-- Each delivery finds the records that the ones before it left. -/
def RecordsInOrder (P : Poller) (rows : List DecisionRecord) (ds : List Delivery) : Prop :=
  AllSteps (fun rows d => rows ++ d.newRecords P)
    (fun rows d => d.before.decision.decisionRecord.rows = rows) rows ds

theorem run_newRecords (P : Poller) (rows : List DecisionRecord) (ds : List Delivery) :
    run (fun rows d => rows ++ d.newRecords P) rows ds = rows ++ ds.flatMap (·.newRecords P) := by
  induction ds generalizing rows with
  | nil => exact (List.append_nil rows).symm
  | cons d ds ih => rw [run_cons, ih, List.flatMap_cons, List.append_assoc]

theorem recordsInOrder_deliveries (P : Poller) (calls : String → Calls)
    (items : List (String × Int)) (w : World) :
    RecordsInOrder P w.decision.decisionRecord.rows (deliveries P calls items w) := by
  induction items generalizing w with
  | nil => trivial
  | cons item rest ih =>
    obtain ⟨amrId, currentWp⟩ := item
    by_cases h : currentWp = prevWaypoint P w amrId
    · rw [deliveries_of_eq h]
      exact ih (remember w amrId currentWp)
    · cases hc : (calls amrId).commits with
      | true =>
        have hrest := ih (remember ((leaving P (calls amrId) amrId w).after P) amrId currentWp)
        have hafter := Delivery.rows_after P (leaving P (calls amrId) amrId w)
        rw [deliveries_of_commits h hc]
        refine ⟨rfl, ?_⟩
        show RecordsInOrder P ((leaving P (calls amrId) amrId w).before.decision.decisionRecord.rows
          ++ (leaving P (calls amrId) amrId w).newRecords P) _
        rw [← hafter]
        exact hrest
      | false =>
        rw [deliveries_of_not_commits h hc]
        exact ⟨rfl, trivial⟩

/-- In a run every delivery finds the records that the ones before it added. -/
theorem recordsInOrder_delivered (P : Poller) (w : World) (es : List Event) :
    RecordsInOrder P w.decision.decisionRecord.rows (delivered P w es) := by
  induction es generalizing w with
  | nil => trivial
  | cons e es ih =>
    have hevent : RecordsInOrder P w.decision.decisionRecord.rows (eventDeliveries P w e) := by
      cases e with
      | restart => trivial
      | world e =>
        cases e with
        | poll calls => exact recordsInOrder_deliveries P calls _ w
        | _ => trivial
    refine allSteps_append.mpr ⟨hevent, ?_⟩
    rw [run_newRecords, ← decisionRecord_step]
    exact ih (step P w e)

/-! ## Later deliveries draw later ids -/

/-- The next id of the records. -/
def nextRecord (w : World) : Nat := w.decision.decisionRecord.next

/-- Each delivery finds the ids that the ones before it left, the first of
them at least `n`. -/
def InOrder (P : Poller) (n : Nat) (ds : List Delivery) : Prop :=
  AllSteps (fun _ d => nextRecord (d.after P)) (fun n d => n ≤ nextRecord d.before) n ds

/-- The next id after the deliveries. -/
def lastRecord (P : Poller) (n : Nat) (ds : List Delivery) : Nat :=
  run (fun _ d => nextRecord (d.after P)) n ds

section Order

variable {P : Poller} {n : Nat} {ds : List Delivery}

theorem InOrder.mono {m : Nat} (h : InOrder P n ds) (hle : m ≤ n) : InOrder P m ds := by
  cases ds with
  | nil => trivial
  | cons d ds => exact ⟨hle.trans h.1, h.2⟩

theorem inOrder_deliveries (calls : String → Calls) (items : List (String × Int))
    (w : World) :
    InOrder P (nextRecord w) (deliveries P calls items w) ∧
      lastRecord P (nextRecord w) (deliveries P calls items w) ≤
        nextRecord (transitions P calls items w).1 := by
  induction items generalizing w with
  | nil => exact ⟨trivial, le_refl _⟩
  | cons item rest ih =>
    obtain ⟨amrId, currentWp⟩ := item
    by_cases h : currentWp = prevWaypoint P w amrId
    · rw [transitions_of_eq h, deliveries_of_eq h]
      exact ih (remember w amrId currentWp)
    · cases hc : (calls amrId).commits with
      | true =>
        rw [transitions_of_commits h hc, deliveries_of_commits h hc]
        have hrest := ih (remember ((leaving P (calls amrId) amrId w).after P) amrId
          currentWp)
        exact ⟨⟨le_refl _, hrest.1⟩, hrest.2⟩
      | false =>
        rw [transitions_of_not_commits h hc, deliveries_of_not_commits h hc]
        exact ⟨⟨le_refl _, trivial⟩, le_refl _⟩

theorem inOrder_eventDeliveries (w : World) (e : Event) :
    InOrder P (nextRecord w) (eventDeliveries P w e) ∧
      lastRecord P (nextRecord w) (eventDeliveries P w e) ≤
        nextRecord (step P w e) := by
  cases e with
  | restart => exact ⟨trivial, le_refl _⟩
  | world e =>
    cases e with
    | poll calls => exact inOrder_deliveries calls _ w
    | _ => exact ⟨trivial, le_refl _⟩

theorem inOrder_delivered (w : World) (es : List Event) :
    InOrder P (nextRecord w) (delivered P w es) := by
  induction es generalizing w with
  | nil => trivial
  | cons e es ih =>
    have hevent := inOrder_eventDeliveries (P := P) w e
    exact allSteps_append.mpr ⟨hevent.1, (ih (step P w e)).mono hevent.2⟩

end Order

/-! ## One delivery -/

section Delivery

variable {P : Poller} {L : List Contribution} {d : Delivery}

/-- A delivery that adds a record adds it under the next id, and every
claimed frame contributes to it. -/
theorem mem_contributions {x : Contribution} :
    x ∈ contributions P d ↔
      d.Inserts P ∧ ¬ d.Decided P ∧ x.recordId = nextRecord d.before ∧
        ∃ r ∈ d.rows P, r.frameId = x.frameId := by
  obtain ⟨hdec, h⟩ | ⟨hins, hdec, row, -, h⟩ := d.newRecords_cases P
  · rw [contributions, h]
    refine ⟨fun hx => by simp at hx, fun hx => ?_⟩
    exact absurd (hdec hx.1) hx.2.1
  · rw [contributions, h, List.flatMap_singleton, List.mem_map]
    constructor
    · intro hx
      obtain ⟨r, hr, rfl⟩ := hx
      exact ⟨hins, hdec, rfl, r, hr, rfl⟩
    · intro hx
      obtain ⟨-, -, hid, r, hr, hframe⟩ := hx
      refine ⟨r, hr, ?_⟩
      rw [hframe]
      exact congrArg (Contribution.mk x.frameId) hid.symm

theorem recordId_lt_after {x : Contribution} (hx : x ∈ contributions P d) :
    x.recordId < nextRecord (d.after P) := by
  obtain ⟨hins, hdec, hid, -⟩ := mem_contributions.mp hx
  obtain ⟨h, -⟩ | ⟨-, -, row, -, h⟩ := d.decisionRecord_after P
  · exact absurd (h hins) hdec
  · rw [hid, nextRecord, nextRecord, h]
    exact Nat.lt_succ_self _

/-- One more delivery keeps every frame at one record exactly if it is
absorbed. -/
theorem contributesOnce_noteDelivery (hL : ∀ x ∈ L, x.recordId < nextRecord d.before) :
    ContributesOnce (noteDelivery P L d) ↔ ContributesOnce L ∧ Absorbed P L d := by
  constructor
  · intro honce
    refine ⟨fun x hx y hy => honce x (List.mem_append_left _ hx) y
      (List.mem_append_left _ hy), fun hagain hins => ?_⟩
    by_contra hdec
    obtain ⟨x, hx, r, hr, hframe⟩ := hagain
    -- the frame contributes to the new record as well
    have hnew : ⟨r.frameId, nextRecord d.before⟩ ∈ contributions P d :=
      mem_contributions.mpr ⟨hins, hdec, rfl, r, hr, rfl⟩
    have heq := honce x (List.mem_append_left _ hx) _ (List.mem_append_right _ hnew)
      hframe.symm
    exact absurd heq (Nat.ne_of_lt (hL x hx))
  · intro h
    obtain ⟨honce, habsorbed⟩ := h
    -- a frame of the ledger and a frame of the delivery are different
    have hcross : ∀ x ∈ L, ∀ y ∈ contributions P d, x.frameId ≠ y.frameId := by
      intro x hx y hy hframe
      obtain ⟨hins, hdec, -, r, hr, hry⟩ := mem_contributions.mp hy
      exact hdec (habsorbed ⟨x, hx, r, hr, hry.trans hframe.symm⟩ hins)
    intro x hx y hy hframe
    rcases List.mem_append.mp hx with hx | hx
    · rcases List.mem_append.mp hy with hy | hy
      · exact honce x hx y hy hframe
      · exact absurd hframe (hcross x hx y hy)
    · rcases List.mem_append.mp hy with hy | hy
      · exact absurd hframe.symm (hcross y hy x hx)
      · exact (mem_contributions.mp hx).2.2.1.trans (mem_contributions.mp hy).2.2.1.symm

end Delivery

/-! ## Frames that come late -/

/-- Frames that come after the others and have no larger dust value leave
the representative as it is. -/
theorem representativeRow_append (first : QueueRow) (rest late : List QueueRow)
    (h : ∀ r ∈ late, (dustKey r).gt (dustKey (representativeRow first rest)) = false) :
    representativeRow first (rest ++ late) = representativeRow first rest := by
  induction late with
  | nil => rw [List.append_nil]
  | cons r rs ih =>
    have hr := h r List.mem_cons_self
    have hrs := ih fun x hx => h x (List.mem_cons_of_mem r hx)
    rw [representativeRow, List.foldl_append] at hrs ⊢
    rw [List.foldl_cons]
    show rs.foldl _ (if (dustKey r).gt (dustKey (representativeRow first rest)) then r
      else representativeRow first rest) = _
    rw [hr]
    exact hrs

/-- What a row says of its measurement. -/
def measurement (r : QueueRow) : Option Nat × Option Double := (r.dustId, r.dustValue)

/-- The measurement of the representative is known from those of the rows. -/
theorem measurement_representativeRow {first first' : QueueRow} {rest rest' : List QueueRow}
    (hfirst : measurement first = measurement first')
    (hrest : rest.map measurement = rest'.map measurement) :
    measurement (representativeRow first rest) = measurement (representativeRow first' rest') := by
  induction rest generalizing first first' rest' with
  | nil =>
    rw [List.map_nil, eq_comm, List.map_eq_nil_iff] at hrest
    rw [hrest]
    exact hfirst
  | cons r rest ih =>
    cases rest' with
    | nil => contradiction
    | cons r' rest' =>
      obtain ⟨hr, hrest⟩ := List.cons.inj hrest
      have hkey : ∀ {x x' : QueueRow}, measurement x = measurement x' → dustKey x = dustKey x' := by
        intro x x' hx
        rw [dustKey, dustKey, (Prod.mk.inj hx).2]
      show measurement (representativeRow
          (if (dustKey r).gt (dustKey first) then r else first) rest) =
        measurement (representativeRow
          (if (dustKey r').gt (dustKey first') then r' else first') rest')
      refine ih ?_ hrest
      rw [hkey hr, hkey hfirst]
      split
      · exact hr
      · exact hfirst

/-- The delivery claims rows with the measurements of the earlier one, and
behind them rows that are not above its representative. -/
def Repeats (P : Poller) (d' d : Delivery) : Prop :=
  ∃ again late, d.rows P = again ++ late ∧
    again.map measurement = (d'.rows P).map measurement ∧
    ∀ r ∈ late, ∀ rep ∈ representative (d'.rows P), (dustKey r).gt (dustKey rep) = false

/-- It has the measurement of the representative of the earlier one. -/
theorem Repeats.representative_eq {P : Poller} {d' d : Delivery} (h : Repeats P d' d)
    {rep : QueueRow} (hrep : representative (d'.rows P) = some rep) :
    (representative (d.rows P)).bind QueueRow.dustId = rep.dustId := by
  obtain ⟨again, late, hrows, hagain, hlate⟩ := h
  cases hrows' : d'.rows P with
  | nil =>
    rw [hrows'] at hrep
    contradiction
  | cons first' rest' =>
    rw [hrows'] at hrep hagain hlate
    obtain rfl := Option.some.inj hrep
    cases again with
    | nil => contradiction
    | cons first rest =>
      obtain ⟨hfirst, hrest⟩ := List.cons.inj hagain
      obtain ⟨hdust, hvalue⟩ := Prod.mk.inj (measurement_representativeRow hfirst hrest)
      have hkey : dustKey (representativeRow first rest) =
          dustKey (representativeRow first' rest') := by
        rw [dustKey, dustKey, hvalue]
      have happend : representativeRow first (rest ++ late) = representativeRow first rest :=
        representativeRow_append first rest late fun r hr => by
          rw [hkey]
          exact hlate r hr _ rfl
      rw [hrows, List.cons_append, representative, happend]
      exact hdust

/-! ## Runs -/

theorem run_noteDelivery (P : Poller) (L : List Contribution) (ds : List Delivery) :
    run (noteDelivery P) L ds = L ++ ds.flatMap (contributions P) := by
  induction ds generalizing L with
  | nil => exact (List.append_nil L).symm
  | cons d ds ih => rw [run_cons, ih, noteDelivery, List.flatMap_cons, List.append_assoc]

theorem contributesOnce_run {P : Poller} {n : Nat} {ds : List Delivery}
    (hds : InOrder P n ds) {L : List Contribution} (hL : ∀ x ∈ L, x.recordId < n) :
    ContributesOnce (run (noteDelivery P) L ds) ↔
      ContributesOnce L ∧ AllSteps (noteDelivery P) (Absorbed P) L ds := by
  induction ds generalizing n L with
  | nil => exact (and_iff_left trivial).symm
  | cons d ds ih =>
    have hbefore : ∀ x ∈ L, x.recordId < nextRecord d.before :=
      fun x hx => lt_of_lt_of_le (hL x hx) hds.1
    have hafter : ∀ x ∈ noteDelivery P L d, x.recordId < nextRecord (d.after P) := by
      intro x hx
      rcases List.mem_append.mp hx with hx | hx
      · exact lt_of_lt_of_le (hbefore x hx) (d.next_le_after P)
      · exact recordId_lt_after hx
    rw [run_cons, ih hds.2 hafter, contributesOnce_noteDelivery hbefore, allSteps_cons,
      and_assoc]

theorem ledger_eq (P : Poller) (es : List Event) :
    ledger P es = run (noteDelivery P) [] (delivered P World.init es) := by
  rw [run_noteDelivery, List.nil_append, ledger]

theorem contributesOnce_delivered (P : Poller) (es : List Event) :
    ContributesOnce (run (noteDelivery P) [] (delivered P World.init es)) ↔
      AllSteps (noteDelivery P) (Absorbed P) [] (delivered P World.init es) := by
  have hnone : ContributesOnce [] := fun x hx => absurd hx List.not_mem_nil
  have hrun := contributesOnce_run (inOrder_delivered (P := P) World.init es)
    (L := []) (fun x hx => absurd hx List.not_mem_nil)
  exact hrun.trans (and_iff_right hnone)

/-- In a run no frame contributes to two records if and only if every
delivery of the run that claims a frame again is absorbed. -/
theorem contributesOnce_iff (P : Poller) (es : List Event) :
    ContributesOnce (ledger P es) ↔
      AllSteps (noteDelivery P) (Absorbed P) [] (delivered P World.init es) := by
  rw [ledger_eq]
  exact contributesOnce_delivered P es

/-- A delivery that inserts leaves a record of its representative's measurement. -/
theorem exists_record_after {P : Poller} {d : Delivery} (hins : d.Inserts P) :
    ∃ k, (representative (d.rows P)).bind QueueRow.dustId = some k ∧
      ∃ r ∈ (d.after P).decision.decisionRecord.rows, r.dustId = some k := by
  rw [Delivery.rows_after]
  obtain ⟨hdec, -⟩ | ⟨-, -, row, hrow, hnew⟩ := d.newRecords_cases P
  · have hdecided := hdec hins
    rw [Delivery.Decided, Option.any_eq_true] at hdecided
    obtain ⟨k, hk, hrecord⟩ := hdecided
    obtain ⟨r, hr, hrk⟩ := DecisionDb.hasDecision_iff.mp hrecord
    exact ⟨k, hk, r, List.mem_append_left _ hr, hrk⟩
  · have hne : d.rows P ≠ [] := by
      intro hnil
      rw [hnil] at hrow
      contradiction
    obtain ⟨x, hx⟩ := List.exists_mem_of_ne_nil _ hne
    obtain ⟨k, hk⟩ := exists_representative_dustId hx
    refine ⟨k, hk, d.recordOf row, ?_, (dustId_of_decisionOf hrow).trans hk⟩
    rw [hnew]
    exact List.mem_append_right _ List.mem_cons_self

/-- The deliveries behind one that inserts find a record of its measurement. -/
theorem decided_of_inserts {P : Poller} {es : List Event} {pre post : List Delivery}
    {d' d : Delivery} (hds : delivered P World.init es = pre ++ d :: post) (hd' : d' ∈ pre)
    (hins : d'.Inserts P) :
    ∃ rep k, representative (d'.rows P) = some rep ∧ rep.dustId = some k ∧
      d.before.decision.hasDecision k = true := by
  have horder := allSteps_iff.mp (recordsInOrder_delivered P World.init es)
  have hbefore := horder pre d post hds
  obtain ⟨pre₁, pre₂, rfl⟩ := List.append_of_mem hd'
  have hbefore' := horder pre₁ d' (pre₂ ++ d :: post) (by rw [hds]; simp)
  rw [run_newRecords] at hbefore hbefore'
  -- what is there after `d'` is there before `d`
  have hkeep : ∀ r ∈ (d'.after P).decision.decisionRecord.rows,
      r ∈ d.before.decision.decisionRecord.rows := by
    intro r hr
    rw [Delivery.rows_after, hbefore'] at hr
    rw [hbefore, List.flatMap_append, List.flatMap_cons, ← List.append_assoc, ← List.append_assoc]
    exact List.mem_append_left _ hr
  obtain ⟨k, hk, r, hr, hrk⟩ := exists_record_after hins
  obtain ⟨rep, hrep, hdust⟩ := Option.bind_eq_some_iff.mp hk
  exact ⟨rep, k, hrep, hdust, DecisionDb.hasDecision_iff.mpr ⟨r, hkeep r hr, hrk⟩⟩

/-- If every delivery that claims a frame again repeats one that has inserted,
with late frames that are not above its representative, then no frame
contributes to two records. -/
theorem contributesOnce_of_repeats (P : Poller) (es : List Event)
    (h : ∀ pre d post, delivered P World.init es = pre ++ d :: post →
      ClaimsAgain P (pre.flatMap (contributions P)) d →
      ∃ d' ∈ pre, d'.Inserts P ∧ Repeats P d' d) :
    ContributesOnce (ledger P es) := by
  rw [ledger_eq, contributesOnce_delivered, allSteps_iff]
  intro pre d post hds hagain _
  rw [run_noteDelivery, List.nil_append] at hagain
  obtain ⟨d', hd', hins, hrepeats⟩ := h pre d post hds hagain
  obtain ⟨rep, k, hrep, hk, hdecided⟩ := decided_of_inserts hds hd' hins
  rw [Delivery.Decided, hrepeats.representative_eq hrep, hk]
  exact hdecided

/-! ## A late frame with a larger dust value -/

/-- A frame of `amr-01` is taken at the waypoint at the time, and queued. -/
def measures (waypointId : Int) (dustValue : Rat) (now : Timestamp) : List Event :=
  [.insertDust
      { id := 0
        receivedAt := now
        dustValue := some (.finite dustValue)
        waypointId := some waypointId },
    .insertFrame { id := 0, receivedAt := now, amrId := "amr-01", filePath := "" },
    .tick ⟨fun _ => now, fun _ _ => 0⟩].map
    fun e => .world (.gateway tightWindow e)

/-- A poll whose inserts are applied, and whose transactions commit or
not. -/
def polls (commits : Bool) : Event :=
  .world (.poll fun _ => { answering with commits := commits })

/-- The transaction of the batch of waypoint 1 is rolled back after the
insert.  One more frame of waypoint 1 is queued before the batch is claimed
again. -/
def lateFrame : List Event :=
  measures 1 1 10 ++ polls true :: measures 2 1 20 ++ polls false ::
    measures 1 5 30 ++ measures 2 1 40 ++ [polls true]

/-- The first frame contributes to the record of its own measurement, and
to that of the late frame. -/
theorem not_contributesOnce_lateFrame :
    ¬ ContributesOnce (ledger defaultPoller lateFrame) := by
  decide

end DustMonitoring.PoolerTran.Redelivery
