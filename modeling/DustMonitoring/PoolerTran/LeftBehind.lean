import DustMonitoring.PoolerTran.Retry

/-!
# Waypoints that a poll leaves behind

A poll without failures deletes the queue rows of an AMR at the waypoint
that it remembers for the AMR, and no others.  An AMR that was at two
waypoints between two polls leaves the rows of the first one behind, and no
later poll comes back for them.  `clean_poll_iff` says exactly when a
poll leaves nothing behind, and `leavesNoWaypoint_iff` lifts it to runs.
-/

namespace DustMonitoring.PoolerTran

open DustMonitoring.Lib DustMonitoring.Schema

/-- No call of the poll fails. -/
def NoFailure (calls : String → Calls) : Prop :=
  ∀ amrId, (calls amrId).commits = true ∧
    ∀ waypointId rows, rows ≠ [] → succeeds (calls amrId) amrId waypointId rows = true

/-! ## A batch without failures -/

section Batch

variable {P : Poller} {calls : Calls} {amrId : String} {waypointId : Int} {w : World}

theorem afterBatch_of_claimedRows_eq_nil
    (h : claimedRows P amrId waypointId w = []) :
    afterBatch P calls amrId waypointId w = w := by
  have hbefore : beforePurge P calls amrId waypointId w = w := by
    rw [beforePurge_eq, h]
  have hnot : ¬ purges P calls amrId waypointId w := by
    intro hp
    have hlt := hp.2
    rw [hbefore] at hlt
    exact absurd hlt (lt_irrefl _)
  rw [afterBatch_of_not_purges hnot, hbefore]

theorem mem_queue_beforePurge_of_succeeds
    (h : succeeds calls amrId waypointId (claimedRows P amrId waypointId w) = true)
    {q : TransferRow} :
    q ∈ (beforePurge P calls amrId waypointId w).gw.cctvTransferQueue.rows ↔
      q ∈ w.gw.cctvTransferQueue.rows ∧
        ∀ r ∈ claimedRows P amrId waypointId w, r.frameId ≠ q.frameId := by
  obtain ⟨w₀, hins, ⟨-, -, hfold⟩ | ⟨hfail, -⟩⟩ :=
    beforePurge_cases P calls amrId waypointId w
  · rw [hfold, mem_queue_foldl_finishRow, hins.gw]
  · rw [h] at hfail
    contradiction

/-- A batch that succeeds purges if it is full. -/
theorem purges_of_succeeds
    (h : succeeds calls amrId waypointId (claimedRows P amrId waypointId w) = true)
    (hne : claimedRows P amrId waypointId w ≠ [])
    (hfull : (claimedRows P amrId waypointId w).length = P.batchSize) :
    purges P calls amrId waypointId w := by
  refine ⟨hfull, ?_⟩
  obtain ⟨w₀, hins, ⟨-, -, hfold⟩ | ⟨hfail, -⟩⟩ :=
    beforePurge_cases P calls amrId waypointId w
  · have hcleared : cleared w = cleared w₀ := by rw [cleared, cleared, hins.poller]
    have hpos := List.length_pos_iff.mpr hne
    rw [hfold, cleared_foldl_finishRow, hcleared]
    omega
  · rw [h] at hfail
    contradiction

/-- A row that is not at the waypoint is not claimed. -/
theorem frameId_ne_of_not_atWaypoint {q : TransferRow}
    (hq : q ∈ w.gw.cctvTransferQueue.rows)
    (hat : ¬ AtWaypoint w.gw amrId waypointId q) {r : QueueRow}
    (hr : r ∈ claimedRows P amrId waypointId w) : r.frameId ≠ q.frameId := by
  obtain ⟨q₀, hq₀, rfl, hat₀⟩ := of_mem_fetchBatch hr
  intro hframe
  have heq : q₀ = q := w.gw.cctvTransferQueue.eq_of_key_eq hq₀ hq hframe
  exact hat (heq ▸ hat₀)

/-- A batch that succeeds deletes the rows of the AMR at the waypoint and
nothing else. -/
theorem mem_queue_afterBatch_of_succeeds (hpos : 0 < P.batchSize)
    (h : claimedRows P amrId waypointId w ≠ [] →
      succeeds calls amrId waypointId (claimedRows P amrId waypointId w) = true)
    {q : TransferRow} :
    q ∈ (afterBatch P calls amrId waypointId w).gw.cctvTransferQueue.rows ↔
      q ∈ w.gw.cctvTransferQueue.rows ∧ ¬ AtWaypoint w.gw amrId waypointId q := by
  -- a batch that is not full claims every row at the waypoint
  have hclaimed : (claimedRows P amrId waypointId w).length < P.batchSize →
      q ∈ w.gw.cctvTransferQueue.rows → AtWaypoint w.gw amrId waypointId q →
      w.gw.joinRow q ∈ claimedRows P amrId waypointId w :=
    fun hlt hq hat => mem_fetchBatch_of_lt hlt hq hat
  by_cases hnil : claimedRows P amrId waypointId w = []
  · rw [afterBatch_of_claimedRows_eq_nil hnil]
    refine ⟨fun hq => ⟨hq, fun hat => ?_⟩, And.left⟩
    have hmem := hclaimed (by rw [hnil]; exact hpos) hq hat
    rw [hnil] at hmem
    exact List.not_mem_nil hmem
  have hsucceeds := h hnil
  have hkeep : q ∈ w.gw.cctvTransferQueue.rows →
      ¬ AtWaypoint w.gw amrId waypointId q →
      q ∈ (beforePurge P calls amrId waypointId w).gw.cctvTransferQueue.rows :=
    fun hq hat => (mem_queue_beforePurge_of_succeeds hsucceeds).mpr
      ⟨hq, fun r hr => frameId_ne_of_not_atWaypoint hq hat hr⟩
  by_cases hfull : (claimedRows P amrId waypointId w).length = P.batchSize
  · rw [mem_queue_afterBatch_of_purges (purges_of_succeeds hsucceeds hnil hfull)]
    constructor
    · intro hq
      obtain ⟨hbefore, hnot⟩ := hq
      refine ⟨((mem_queue_beforePurge_of_succeeds hsucceeds).mp hbefore).1, fun hat => ?_⟩
      exact hnot (hat.congr sources_beforePurge rfl rfl)
    · intro hq
      obtain ⟨hq, hnot⟩ := hq
      refine ⟨hkeep hq hnot, fun hat => ?_⟩
      exact hnot (hat.congr sources_beforePurge.symm rfl rfl)
  · have hlt : (claimedRows P amrId waypointId w).length < P.batchSize :=
      lt_of_le_of_ne length_fetchBatch_le hfull
    rw [afterBatch_of_not_purges (fun hp => hfull hp.1)]
    constructor
    · intro hbefore
      obtain ⟨hq, hnot⟩ := (mem_queue_beforePurge_of_succeeds hsucceeds).mp hbefore
      exact ⟨hq, fun hat => hnot _ (hclaimed hlt hq hat) rfl⟩
    · intro hq
      exact hkeep hq.1 hq.2

/-- A row that a batch deletes is claimed, or the batch is full. -/
theorem claimed_or_full {q : TransferRow} (hq : q ∈ w.gw.cctvTransferQueue.rows)
    (hat : AtWaypoint w.gw amrId waypointId q) :
    (∃ r ∈ claimedRows P amrId waypointId w, r.frameId = q.frameId) ∨
      (claimedRows P amrId waypointId w).length = P.batchSize := by
  by_cases hfull : (claimedRows P amrId waypointId w).length = P.batchSize
  · exact Or.inr hfull
  · have hlt : (claimedRows P amrId waypointId w).length < P.batchSize :=
      lt_of_le_of_ne length_fetchBatch_le hfull
    exact Or.inl ⟨w.gw.joinRow q, mem_fetchBatch_of_lt hlt hq hat, rfl⟩

/-- After a batch that succeeds there is a decision of its
representative. -/
theorem hasDecision_afterBatch_of_succeeds {d : Nat}
    (h : succeeds calls amrId waypointId (claimedRows P amrId waypointId w) = true)
    (hd : (representative (claimedRows P amrId waypointId w)).bind
      QueueRow.dustId = some d) :
    (afterBatch P calls amrId waypointId w).decision.hasDecision d = true := by
  obtain ⟨w₀, hins, ⟨-, happ, hfold⟩ | ⟨hfail, -⟩⟩ :=
    beforePurge_cases P calls amrId waypointId w
  · rw [decision_afterBatch, hfold, decision_foldl_finishRow]
    exact (hins.hasDecision d hd).mpr (Or.inr happ)
  · rw [h] at hfail
    contradiction

/-- A batch deletes no decision. -/
theorem hasDecision_afterBatch {d : Nat} (h : w.decision.hasDecision d = true) :
    (afterBatch P calls amrId waypointId w).decision.hasDecision d = true := by
  obtain ⟨w₀, hins, ⟨-, -, hfold⟩ | ⟨-, exc, hfold⟩⟩ :=
    beforePurge_cases P calls amrId waypointId w
  · rw [decision_afterBatch, hfold, decision_foldl_finishRow]
    exact hins.mono d h
  · rw [decision_afterBatch, hfold, DecisionDb.hasDecision_iff,
      decisionRecord_foldl_handleFailure, ← DecisionDb.hasDecision_iff]
    exact hins.mono d h

end Batch

/-! ## A poll without failures -/

/-- A batch over the current waypoints takes the row: it is where the
poller remembers its AMR, and the AMR is elsewhere now. -/
def Taken (P : Poller) (w : World) (items : List (String × Int))
    (q : TransferRow) : Prop :=
  0 < P.batchSize ∧ ∃ item ∈ items, item.2 ≠ prevWaypoint P w item.1 ∧
    AtWaypoint w.gw item.1 (prevWaypoint P w item.1) q

section Loop

variable {P : Poller} {calls : String → Calls} {w : World} {q : TransferRow}

theorem taken_cons {item : String × Int} {rest : List (String × Int)} :
    Taken P w (item :: rest) q ↔
      (0 < P.batchSize ∧ item.2 ≠ prevWaypoint P w item.1 ∧
        AtWaypoint w.gw item.1 (prevWaypoint P w item.1) q) ∨
      Taken P w rest q := by
  simp only [Taken, List.exists_mem_cons_iff]
  exact and_or_left

/-- What is taken depends on the sources and on what is remembered of the
items. -/
theorem taken_congr {w' : World} {items : List (String × Int)}
    (hsources : sources w'.gw = sources w.gw)
    (hlast : ∀ item ∈ items, prevWaypoint P w' item.1 = prevWaypoint P w item.1) :
    Taken P w' items q ↔ Taken P w items q := by
  refine and_congr_right fun _ => exists_congr fun item => and_congr_right fun hitem => ?_
  rw [hlast item hitem]
  refine and_congr_right fun _ => ⟨fun hat => ?_, fun hat => ?_⟩
  · exact hat.congr hsources.symm rfl rfl
  · exact hat.congr hsources rfl rfl

theorem prevWaypoint_remember_of_mem {w' : World} {amrId : String} {currentWp : Int}
    {rest : List (String × Int)} (hfresh : amrId ∉ rest.map Prod.fst)
    {item : String × Int} (hitem : item ∈ rest) :
    prevWaypoint P (remember w' amrId currentWp) item.1 =
      prevWaypoint P w' item.1 := by
  refine prevWaypoint_congr (Function.update_of_ne ?_ _ _)
  intro heq
  exact hfresh (heq ▸ List.mem_map_of_mem hitem)

/-- The batch of an AMR in a poll without failures. -/
theorem mem_queue_leaveWaypoint (hcalls : NoFailure calls) {amrId : String}
    {prevWp : Int} :
    q ∈ (leaveWaypoint P (calls amrId) amrId prevWp w).2.gw.cctvTransferQueue.rows ↔
      q ∈ w.gw.cctvTransferQueue.rows ∧
        ¬ (0 < P.batchSize ∧ AtWaypoint w.gw amrId prevWp q) := by
  have hsucceeds := fun hne => (hcalls amrId).2 prevWp
    (claimedRows P amrId prevWp (countTransition w)) hne
  by_cases hpos : 0 < P.batchSize
  · refine (mem_queue_afterBatch_of_succeeds hpos hsucceeds).trans ?_
    refine and_congr_right fun _ => not_congr ?_
    exact (and_iff_right hpos).symm
  · have hnil : claimedRows P amrId prevWp (countTransition w) = [] := by
      have hle : (claimedRows P amrId prevWp (countTransition w)).length ≤ P.batchSize :=
        length_fetchBatch_le
      exact List.length_eq_zero_iff.mp (by omega)
    have hsame : (leaveWaypoint P (calls amrId) amrId prevWp w).2 = countTransition w :=
      afterBatch_of_claimedRows_eq_nil hnil
    rw [hsame]
    exact (and_iff_left (fun h => hpos h.1)).symm

/-- A poll without failures deletes the rows that its batches take. -/
theorem mem_queue_transitions (hcalls : NoFailure calls)
    {items : List (String × Int)} (hnodup : (items.map Prod.fst).Nodup) :
    q ∈ (transitions P calls items w).1.gw.cctvTransferQueue.rows ↔
      q ∈ w.gw.cctvTransferQueue.rows ∧ ¬ Taken P w items q := by
  induction items generalizing w with
  | nil =>
    refine (and_iff_left ?_).symm
    intro h
    obtain ⟨-, item, hitem, -⟩ := h
    exact List.not_mem_nil hitem
  | cons item rest ih =>
    obtain ⟨amrId, currentWp⟩ := item
    rw [List.map_cons, List.nodup_cons] at hnodup
    rw [taken_cons]
    by_cases h : currentWp = prevWaypoint P w amrId
    · have hrest : Taken P (remember w amrId currentWp) rest q ↔ Taken P w rest q :=
        taken_congr rfl fun item hitem => prevWaypoint_remember_of_mem hnodup.1 hitem
      rw [transitions_of_eq h, ih hnodup.2, hrest]
      refine and_congr_right fun _ => not_congr (or_iff_right ?_).symm
      exact fun hne => hne.2.1 h
    · have hrest : Taken P (remember (leaveWaypoint P (calls amrId) amrId
          (prevWaypoint P w amrId) w).2 amrId currentWp) rest q ↔ Taken P w rest q := by
        refine taken_congr sources_leaveWaypoint fun item hitem => ?_
        refine (prevWaypoint_remember_of_mem hnodup.1 hitem).trans ?_
        exact prevWaypoint_congr (congrFun lastWaypointByAmr_leaveWaypoint _)
      rw [transitions_of_commits h (hcalls amrId).1]
      refine (ih hnodup.2).trans ?_
      rw [hrest, not_or, ← and_assoc]
      refine and_congr_left fun _ => ?_
      refine (mem_queue_leaveWaypoint hcalls).trans ?_
      refine and_congr_right fun _ => not_congr (and_congr_right fun _ => ?_)
      exact (and_iff_right h).symm

/-- A poll deletes no decision. -/
theorem hasDecision_transitions {items : List (String × Int)} {d : Nat}
    (h : w.decision.hasDecision d = true) :
    (transitions P calls items w).1.decision.hasDecision d = true := by
  induction items generalizing w with
  | nil => exact h
  | cons item rest ih =>
    obtain ⟨amrId, currentWp⟩ := item
    by_cases heq : currentWp = prevWaypoint P w amrId
    · rw [transitions_of_eq heq]
      exact ih (w := remember w amrId currentWp) h
    · have hbatch : (leaveWaypoint P (calls amrId) amrId
          (prevWaypoint P w amrId) w).2.decision.hasDecision d = true :=
        hasDecision_afterBatch (w := countTransition w) h
      cases hc : (calls amrId).commits with
      | true =>
        rw [transitions_of_commits heq hc]
        exact ih (w := remember _ amrId currentWp) hbatch
      | false =>
        rw [transitions_of_not_commits heq hc]
        exact hbatch

/-- The deleted row is accounted for by a batch of its AMR at its waypoint:
there is a decision of the batch, and the row was claimed for it or is in
excess of a full batch. -/
def Accounted (P : Poller) (gw : GatewayDb) (after : World) (log : List Batch)
    (q : TransferRow) : Prop :=
  ∃ b ∈ log, AtWaypoint gw b.amrId b.waypointId q ∧
    (∃ d, (representative b.rows).bind QueueRow.dustId = some d ∧
      after.decision.hasDecision d = true) ∧
    ((∃ r ∈ b.rows, r.frameId = q.frameId) ∨ b.rows.length = P.batchSize)

theorem accounted_transitions (hcalls : NoFailure calls)
    {items : List (String × Int)} (hq : q ∈ w.gw.cctvTransferQueue.rows)
    (hgone : q ∉ (transitions P calls items w).1.gw.cctvTransferQueue.rows) :
    Accounted P w.gw (transitions P calls items w).1
      (transitions P calls items w).2 q := by
  induction items generalizing w with
  | nil => exact absurd hq hgone
  | cons item rest ih =>
    obtain ⟨amrId, currentWp⟩ := item
    by_cases heq : currentWp = prevWaypoint P w amrId
    · rw [transitions_of_eq heq] at hgone ⊢
      exact ih (w := remember w amrId currentWp) hq hgone
    rw [transitions_of_commits heq (hcalls amrId).1] at hgone ⊢
    by_cases hleft : q ∈ (leaveWaypoint P (calls amrId) amrId
        (prevWaypoint P w amrId) w).2.gw.cctvTransferQueue.rows
    · obtain ⟨b, hb, hat, hrest⟩ := ih (w := remember _ amrId currentWp) hleft hgone
      exact ⟨b, List.mem_cons_of_mem _ hb,
        hat.congr sources_leaveWaypoint.symm rfl rfl, hrest⟩
    · -- the batch of this AMR deleted the row
      have htaken : 0 < P.batchSize ∧ AtWaypoint w.gw amrId (prevWaypoint P w amrId) q := by
        by_contra hnot
        exact hleft ((mem_queue_leaveWaypoint hcalls).mpr ⟨hq, hnot⟩)
      have hclaimed := claimed_or_full (P := P) (w := countTransition w) hq htaken.2
      have hne : claimedRows P amrId (prevWaypoint P w amrId) (countTransition w) ≠ [] := by
        rcases hclaimed with ⟨r, hr, -⟩ | hfull
        · exact List.ne_nil_of_mem hr
        · intro hnil
          rw [hnil] at hfull
          exact absurd hfull.symm (Nat.ne_of_gt htaken.1)
      obtain ⟨r, hr⟩ := List.exists_mem_of_ne_nil _ hne
      obtain ⟨d, hd⟩ := exists_representative_dustId hr
      have hdecision := hasDecision_afterBatch_of_succeeds
        ((hcalls amrId).2 _ _ hne) hd
      refine ⟨_, List.mem_cons_self, htaken.2, ⟨d, hd, ?_⟩, hclaimed⟩
      exact hasDecision_transitions (w := remember _ amrId currentWp) hdecision

end Loop

/-! ## What a poll leaves behind -/

/-- The queue holds no row of an AMR at a waypoint other than its current
one. -/
def Clean (w : World) : Prop :=
  ∀ item ∈ fetchCurrentWaypoints w.gw, ∀ q ∈ w.gw.cctvTransferQueue.rows,
    ∀ waypointId, AtWaypoint w.gw item.1 waypointId q → waypointId = item.2

/-- Every queue row is where its AMR is, or where the poller remembers the
AMR (which a poll clears only if its batches hold a row). -/
def NothingSkipped (P : Poller) (w : World) : Prop :=
  ∀ item ∈ fetchCurrentWaypoints w.gw, ∀ q ∈ w.gw.cctvTransferQueue.rows,
    ∀ waypointId, AtWaypoint w.gw item.1 waypointId q →
      waypointId = item.2 ∨ (0 < P.batchSize ∧ waypointId = prevWaypoint P w item.1)

section Poll

variable {P : Poller} {calls : String → Calls} {w : World}

theorem mem_queue_poll (hcalls : NoFailure calls) {q : TransferRow} :
    q ∈ (step P w (.poll calls)).gw.cctvTransferQueue.rows ↔
      q ∈ w.gw.cctvTransferQueue.rows ∧ ¬ Taken P w (fetchCurrentWaypoints w.gw) q :=
  mem_queue_transitions hcalls nodup_fetchCurrentWaypoints

theorem atWaypoint_poll {q : TransferRow} {amrId : String} {waypointId : Int} :
    AtWaypoint (step P w (.poll calls)).gw amrId waypointId q ↔
      AtWaypoint w.gw amrId waypointId q :=
  ⟨fun h => h.congr sources_transitions.symm rfl rfl,
    fun h => h.congr sources_transitions rfl rfl⟩

/-- The key of a list with distinct keys has one value. -/
private theorem eq_of_mem_of_nodup_keys {items : List (String × Int)}
    (h : (items.map Prod.fst).Nodup) {a : String} {x y : Int}
    (hx : (a, x) ∈ items) (hy : (a, y) ∈ items) : x = y :=
  (Prod.mk.inj (List.inj_on_of_nodup_map h hx hy rfl)).2

/-- Two queue rows with the same place in the queue are one row. -/
private theorem eq_of_oldestFirst_eq {gw gw' gw'' : GatewayDb} {q q' : TransferRow}
    (hq : q ∈ gw.cctvTransferQueue.rows) (hq' : q' ∈ gw.cctvTransferQueue.rows)
    (h : oldestFirst (gw'.joinRow q) = oldestFirst (gw''.joinRow q')) : q = q' :=
  gw.cctvTransferQueue.eq_of_key_eq hq hq' (Prod.mk.inj (toLex.injective h)).2

/-- A poll without failures does not change where an AMR is. -/
theorem mem_fetchCurrentWaypoints_poll (hcalls : NoFailure calls) {item : String × Int} :
    item ∈ fetchCurrentWaypoints (step P w (.poll calls)).gw ↔
      item ∈ fetchCurrentWaypoints w.gw := by
  obtain ⟨amrId, waypointId⟩ := item
  have hforward : ∀ current, (amrId, current) ∈ fetchCurrentWaypoints w.gw →
      (amrId, current) ∈ fetchCurrentWaypoints (step P w (.poll calls)).gw := by
    intro current hcurrent
    obtain ⟨q, hq, hat, hnewest⟩ := of_mem_fetchCurrentWaypoints hcurrent
    -- the newest row of the AMR stays: it is not where the AMR was before
    have hstays : q ∈ (step P w (.poll calls)).gw.cctvTransferQueue.rows := by
      refine (mem_queue_poll hcalls).mpr ⟨hq, fun htaken => ?_⟩
      obtain ⟨-, ⟨a, c⟩, hmem, hne, hat'⟩ := htaken
      obtain ⟨hamr, hwp⟩ := hat.unique hat'
      have hmem' : (amrId, c) ∈ fetchCurrentWaypoints w.gw := by
        rw [hamr]
        exact hmem
      have hcur := eq_of_mem_of_nodup_keys nodup_fetchCurrentWaypoints hcurrent hmem'
      exact hne (hcur.symm.trans hwp)
    obtain ⟨current', hcurrent'⟩ :=
      exists_mem_fetchCurrentWaypoints hstays (atWaypoint_poll.mpr hat)
    obtain ⟨q', hq', hat', hnewest'⟩ := of_mem_fetchCurrentWaypoints hcurrent'
    have hq'before := ((mem_queue_poll hcalls).mp hq').1
    have hle := hnewest q' hq'before current' (atWaypoint_poll.mp hat')
    have hge := hnewest' q hstays current (atWaypoint_poll.mpr hat)
    have heq : q' = q := eq_of_oldestFirst_eq hq'before hq (le_antisymm hle hge)
    rw [heq] at hat'
    have hsame := (atWaypoint_poll.mp hat').unique hat
    rw [← hsame.2]
    exact hcurrent'
  refine ⟨fun h => ?_, hforward waypointId⟩
  obtain ⟨q, hq, hat, -⟩ := of_mem_fetchCurrentWaypoints h
  obtain ⟨current, hcurrent⟩ := exists_mem_fetchCurrentWaypoints
    ((mem_queue_poll hcalls).mp hq).1 (atWaypoint_poll.mp hat)
  have heq := eq_of_mem_of_nodup_keys nodup_fetchCurrentWaypoints h (hforward _ hcurrent)
  rw [heq]
  exact hcurrent

/-- A poll without failures leaves nothing behind exactly if it finds every
row where its AMR is or where the AMR is remembered. -/
theorem clean_poll_iff (hcalls : NoFailure calls) :
    Clean (step P w (.poll calls)) ↔ NothingSkipped P w := by
  constructor
  · intro hclean item hitem q hq waypointId hat
    by_cases htaken : Taken P w (fetchCurrentWaypoints w.gw) q
    · obtain ⟨hpos, item', hitem', -, hat'⟩ := htaken
      obtain ⟨hamr, hwp⟩ := hat.unique hat'
      exact Or.inr ⟨hpos, by rw [hwp, hamr]⟩
    · exact Or.inl (hclean item ((mem_fetchCurrentWaypoints_poll hcalls).mpr hitem) q
        ((mem_queue_poll hcalls).mpr ⟨hq, htaken⟩) waypointId (atWaypoint_poll.mpr hat))
  · intro hnothing item hitem q hq waypointId hat
    have hitem' := (mem_fetchCurrentWaypoints_poll hcalls).mp hitem
    obtain ⟨hqbefore, hnot⟩ := (mem_queue_poll hcalls).mp hq
    have hatbefore := atWaypoint_poll.mp hat
    rcases hnothing item hitem' q hqbefore waypointId hatbefore with h | ⟨hpos, hprev⟩
    · exact h
    · by_contra hne
      refine hnot ⟨hpos, item, hitem', ?_, ?_⟩
      · rw [← hprev]
        exact Ne.symm hne
      · rw [← hprev]
        exact hatbefore

/-- The poll leaves no waypoint behind: the queue is clean after it, and
every row that it deleted is accounted for. -/
def LeavesNoWaypoint (P : Poller) (w : World) (calls : String → Calls) : Prop :=
  Clean (step P w (.poll calls)) ∧
    ∀ q ∈ w.gw.cctvTransferQueue.rows,
      q ∉ (step P w (.poll calls)).gw.cctvTransferQueue.rows →
      Accounted P w.gw (step P w (.poll calls))
        (checkWaypointTransition P calls w).2 q

theorem leavesNoWaypoint_poll_iff (hcalls : NoFailure calls) :
    LeavesNoWaypoint P w calls ↔ NothingSkipped P w := by
  rw [← clean_poll_iff hcalls]
  refine and_iff_left ?_
  intro q hq hgone
  exact accounted_transitions hcalls hq hgone

end Poll

/-- In a run without failures every poll leaves no waypoint behind exactly
if every poll finds each queue row where its AMR is or where the poller
remembers the AMR. -/
theorem leavesNoWaypoint_iff (P : Poller) (w : World) (es : List Event)
    (hes : ∀ e ∈ es, ∀ calls, e = .poll calls → NoFailure calls) :
    AllSteps (step P) (fun w e => ∀ calls, e = .poll calls →
        LeavesNoWaypoint P w calls) w es ↔
      AllSteps (step P) (fun w e => ∀ calls, e = .poll calls →
        NothingSkipped P w) w es := by
  induction es generalizing w with
  | nil => exact Iff.rfl
  | cons e es ih =>
    rw [allSteps_cons, allSteps_cons, ih _ (fun x hx => hes x (List.mem_cons_of_mem e hx))]
    refine and_congr_left fun _ => forall_congr' fun calls => ?_
    refine forall_congr' fun he => ?_
    exact leavesNoWaypoint_poll_iff (hes e List.mem_cons_self calls he)

/-! ## Two waypoints between two polls -/

/-- Every call succeeds; the REST server answers with `null`. -/
def answering : Calls where
  sendBatch := fun _ _ _ => .ok (200, .null)
  fetchThresholds := .ok fun _ => none
  floatOfStr := fun _ => none
  readBytes := fun _ => .error .osError
  insertDecision := .ok
  deadLetter := fun _ => .ok
  now := 0

theorem classify_none (value : Json) : classify value none = .ok .normal := by
  cases value <;> rfl

theorem noFailure_answering : NoFailure fun _ => answering := by
  intro amrId
  refine ⟨rfl, fun waypointId rows hne => ?_⟩
  cases rows with
  | nil => exact absurd rfl hne
  | cons first rest =>
    have hrow : (decisionRow answering amrId waypointId first rest .null).toBool = true := by
      show (classify (ofScore (representativeRow first rest).dustValue) none >>= _).toBool =
        true
      rw [classify_none]
      rfl
    show (decisionRow answering amrId waypointId first rest .null).toBool && true = true
    rw [hrow]
    rfl

/-- An AMR visits waypoint 1 and waypoint 2 before the first poll. -/
def twoVisits : List Event :=
  arrives "amr-01" 1 10 ++ arrives "amr-01" 2 20 ++ [.poll fun _ => answering]

theorem noFailure_twoVisits :
    ∀ e ∈ twoVisits, ∀ calls, e = .poll calls → NoFailure calls := by
  intro e he calls hpoll
  subst hpoll
  have hcalls : calls = fun _ => answering := by simpa [twoVisits, arrives] using he
  rw [hcalls]
  exact noFailure_answering

/-- The row at waypoint 1 is still there after the poll. -/
theorem not_leavesNoWaypoint_twoVisits :
    ¬ AllSteps (step defaultPoller) (fun w e => ∀ calls, e = .poll calls →
      LeavesNoWaypoint defaultPoller w calls) World.init twoVisits := by
  intro h
  have hpoll := allSteps_iff.mp h (arrives "amr-01" 1 10 ++ arrives "amr-01" 2 20)
    (.poll fun _ => answering) [] rfl _ rfl
  have heq := hpoll.1 ("amr-01", 2) (by decide)
    { frameId := 1, dustId := some 1, enqueuedAt := 10 } (by decide) 1 (by decide)
  exact absurd heq (by decide)

theorem leavesNoWaypoint_iff_twoVisits :
    AllSteps (step defaultPoller) (fun w e => ∀ calls, e = .poll calls →
        LeavesNoWaypoint defaultPoller w calls) World.init twoVisits ↔
      AllSteps (step defaultPoller) (fun w e => ∀ calls, e = .poll calls →
        NothingSkipped defaultPoller w) World.init twoVisits :=
  leavesNoWaypoint_iff defaultPoller World.init twoVisits noFailure_twoVisits

end DustMonitoring.PoolerTran
