import Mathlib.Data.Finset.Card
import DustMonitoring.Egress.History

/-!
# The egress gateway gets on

What the other modules say of a run is about safety: nothing is sent that was
not decided, nothing is sent too often.  Here the process keeps running and
what it awaits returns (`Event.isCalm`), while all the other writers go on as
they like.

Main results:

* `length_returns_le` -- the process cannot go on for long without a new tick;
* `sent_of_ticks` -- a decided record is sent after enough ticks, whatever the
  agents decide in between;
* `sent_of_returns` -- and so it is after enough operations.
-/

namespace DustMonitoring.Egress

open DustMonitoring.Lib DustMonitoring.Schema DustMonitoring.DecisionAgent

/-- The event is no fault, no refused write and no end of the process. -/
def Event.isCalm : Event → Bool
  | .egress .boot | .egress .poll | .egress (.reply .ok _) => true
  | .egress _ => false
  | _ => true

variable (S : Sender)

/-- What a tick that begins with the event has fetched. -/
def fetches (w : World) (e : Event) : List (List Decision) :=
  match e, w.pc with
  | .egress (.reply .ok _), .fetchPending => [fetchPending w.stores.db S.batchSize]
  | _, _ => []

/-- The process awaits an operation, and the event returns it. -/
def returns (w : World) (e : Event) : List Unit :=
  match e, w.pc with
  | .egress (.reply .ok _), .down | .egress (.reply .ok _), .idle => []
  | .egress (.reply .ok _), _ => [()]
  | _, _ => []

/-! ## A loop is over -/

/-- The number of operations in the rest of a loop, at most. -/
def Cont.operations : Cont → Nat
  | .drain rows => 3 * rows.length
  | .tick records => 5 * records.length

/-- The number of operations until the next tick begins, at most. -/
def Pc.operations (s : Stores) : Pc → Nat
  | .down | .idle | .fetchPending => 0
  | .listOutbox => 1 + 3 * s.outbox.rows.length
  | .fetchDust _ _ rest => 5 + 5 * rest.length
  | .skip _ _ rest => 1 + 5 * rest.length
  | .add _ _ rest => 4 + 5 * rest.length
  | .write _ _ k => 3 + k.operations
  | .bump _ _ => 1
  | .remove _ k => 2 + k.operations
  | .mark _ k => 1 + k.operations

variable {S}

theorem operations_next_le (k : Cont) (s : Stores) :
    k.next.operations s ≤ k.operations := by
  cases k with
  | drain rows =>
    cases rows with
    | nil => simp [Cont.next, Pc.operations]
    | cons row rows =>
      simp only [Cont.next, Pc.operations, Cont.operations, List.length_cons]
      omega
  | tick records =>
    cases records with
    | nil => simp [Cont.next, Pc.operations]
    | cons rec rest =>
      simp only [Cont.next, Cont.operations, List.length_cons]
      split
      · simp only [Pc.operations]
        omega
      · simp only [Pc.operations]
        omega

theorem length_fetchPending_le (db : DecisionDb) (limit : Nat) :
    (fetchPending db limit).length ≤ limit := by
  rw [fetchPending, List.length_map]
  exact List.length_take_le limit _

/-- An operation that returns brings the process nearer to the end. -/
theorem operations_resume_lt {s : Stores} {pc : Pc} (s' : Stores) (h : pc.operations s ≠ 0) :
    (pc.resume S s).operations s' < pc.operations s := by
  cases pc with
  | down => exact absurd rfl h
  | idle => exact absurd rfl h
  | fetchPending => exact absurd rfl h
  | listOutbox =>
    refine lt_of_le_of_lt (operations_next_le _ s') ?_
    simp only [Pc.operations, Cont.operations]
    omega
  | fetchDust dustId rec rest =>
    simp only [Pc.resume, sendRecord]
    split
    · simp only [Pc.operations]
      omega
    · split <;>
      · simp only [Pc.operations]
        omega
  | skip why rec rest =>
    refine lt_of_le_of_lt (operations_next_le _ s') ?_
    simp only [Pc.operations, Cont.operations]
    omega
  | add rec values rest =>
    simp only [Pc.resume, Pc.operations, Cont.operations]
    omega
  | write decisionId values k =>
    simp only [Pc.resume, Pc.operations]
    omega
  | bump decisionId k => exact Nat.zero_lt_one
  | remove decisionId k =>
    simp only [Pc.resume, Pc.operations]
    omega
  | mark decisionId k =>
    refine lt_of_le_of_lt (operations_next_le _ s') ?_
    simp only [Pc.operations]
    omega

theorem next_ne_down (k : Cont) : k.next ≠ .down := by
  rcases k.next_cases with h | ⟨row, rows, -, h⟩ | ⟨rec, rest, h⟩ | ⟨dustId, rec, rest, h⟩ <;>
    simp [h]

theorem resume_ne_down {s : Stores} {pc : Pc} (h : pc ≠ .down) : pc.resume S s ≠ .down := by
  cases pc with
  | down => exact absurd rfl h
  | listOutbox => exact next_ne_down _
  | fetchPending => exact next_ne_down _
  | fetchDust dustId rec rest =>
    simp only [Pc.resume, sendRecord]
    split
    · simp
    · split <;> simp
  | skip why rec rest => exact next_ne_down _
  | mark decisionId k => exact next_ne_down k
  | _ => simp [Pc.resume]

/-- What the process does in a calm step: it stays, it begins a tick, or the
operation that it awaits returns. -/
theorem stays_or_returns {w : World} {e : Event} (hcalm : e.isCalm = true) (hup : w.pc ≠ .down) :
    ((step S w e).pc = w.pc ∧ (step S w e).stores.outbox = w.stores.outbox ∧
        returns w e = []) ∨
      ((step S w e).pc = .fetchPending ∧ returns w e = []) ∨
      ((step S w e).pc = w.pc.resume S w.stores ∧ w.pc ≠ .idle ∧ returns w e = [()] ∧
        ∃ now, e = .egress (.reply .ok now)) := by
  cases e with
  | egress pe =>
    cases pe with
    | reply o now =>
      cases o with
      | ok =>
        by_cases hidle : w.pc = .idle
        · left
          simp [step, processStep, returns, hidle, Pc.resume, Outcome.exc?, Pc.effect]
        · right; right
          refine ⟨rfl, hidle, ?_, now, rfl⟩
          cases hpc : w.pc <;> simp_all [returns]
      | _ => contradiction
    | boot =>
      left
      cases hpc : w.pc <;> simp_all [step, processStep, returns]
    | poll =>
      cases hpc : w.pc <;> simp_all [step, processStep, returns]
    | _ => contradiction
  | _ => exact Or.inl ⟨rfl, rfl, rfl⟩

theorem operations_congr {s s' : Stores} (h : s'.outbox = s.outbox) (pc : Pc) :
    pc.operations s' = pc.operations s := by
  cases pc with
  | listOutbox => simp only [Pc.operations, h]
  | _ => rfl

theorem fetches_of_fetchPending {w : World} (hpc : w.pc = .fetchPending) (now : Timestamp) :
    fetches S w (.egress (.reply .ok now)) = [fetchPending w.stores.db S.batchSize] := by
  simp only [fetches, hpc]

/-- An operation that returns is one fewer until the next tick, or it begins
one. -/
theorem returns_step {w : World} {e : Event} (hcalm : e.isCalm = true) (hup : w.pc ≠ .down) :
    (returns w e).length + (step S w e).pc.operations (step S w e).stores ≤
      w.pc.operations w.stores + (1 + 5 * S.batchSize) * (fetches S w e).length := by
  rcases stays_or_returns (S := S) hcalm hup with ⟨hpc, hout, hnone⟩ | ⟨hpc, hnone⟩ |
    ⟨hpc, hidle, hone, now, rfl⟩
  · rw [hnone, hpc, operations_congr hout, List.length_nil, Nat.zero_add]
    exact Nat.le_add_right _ _
  · rw [hnone, hpc]
    exact Nat.zero_le _
  · rw [hone, hpc, List.length_singleton]
    by_cases hfetch : w.pc = .fetchPending
    · have hnext := operations_next_le (.tick (fetchPending w.stores.db S.batchSize))
        (step S w (.egress (.reply .ok now))).stores
      have hle := length_fetchPending_le w.stores.db S.batchSize
      rw [fetches_of_fetchPending hfetch, List.length_singleton, hfetch]
      simp only [Pc.resume, Cont.operations] at hnext ⊢
      omega
    · have hsome : w.pc.operations w.stores ≠ 0 := by
        cases hcase : w.pc <;> simp_all [Pc.operations]
      have hlt := operations_resume_lt (S := S)
        (step S w (.egress (.reply .ok now))).stores hsome
      omega

/-- A tick has so many operations at most, and then the next one begins. -/
theorem length_returns_le {w : World} {fs : List Event} (hup : w.pc ≠ .down)
    (hcalm : ∀ e ∈ fs, e.isCalm = true) :
    (outputs (step S) returns w fs).length ≤ w.pc.operations w.stores +
      (1 + 5 * S.batchSize) * (outputs (step S) (fetches S) w fs).length := by
  induction fs generalizing w with
  | nil => exact Nat.zero_le _
  | cons e fs ih =>
    obtain ⟨he, hfs⟩ := List.forall_mem_cons.mp hcalm
    have hstep := returns_step (S := S) he hup
    have hup' : (step S w e).pc ≠ .down := by
      rcases stays_or_returns (S := S) he hup with ⟨hpc, -⟩ | ⟨hpc, -⟩ | ⟨hpc, -⟩
      · rw [hpc]
        exact hup
      · simp [hpc]
      · rw [hpc]
        exact resume_ne_down hup
    have hrest := ih hup' hfs
    rw [outputs, outputs, List.length_append, List.length_append, Nat.mul_add]
    omega

/-! ## Every record has its turn -/

/-- The record is sent, or the loop at hand will send it. -/
def isCovered (w : World) (d : Nat) : Bool :=
  w.stores.db.isSent d || decide (d ∈ w.pc.ids)

theorem isCovered_iff {w : World} {d : Nat} :
    isCovered w d = true ↔ w.stores.db.isSent d = true ∨ d ∈ w.pc.ids := by
  simp [isCovered]

/-- What the process does with the decisions at hand, while nothing fails. -/
theorem isCovered_step {w : World} (hw : w.Orderly S) {e : Event}
    (hcalm : e.isCalm = true) {d : Nat} (h : isCovered w d = true) :
    isCovered (step S w e) d = true := by
  rw [isCovered_iff] at h ⊢
  rcases h with hsent | hmem
  · exact Or.inl ((isSent_step hw.faithful e).mpr (Or.inl hsent))
  · cases e with
    | egress pe =>
      cases pe with
      | reply o now =>
        cases o with
        | ok =>
          rcases w.pc.ids_resume S w.stores with
            ⟨hpc, -⟩ | ⟨hpc, -⟩ | ⟨hids, -⟩ | ⟨d', hids, hmarks⟩
          · rw [hpc] at hmem
            exact absurd hmem List.not_mem_nil
          · rw [hpc] at hmem
            exact absurd hmem List.not_mem_nil
          · right
            show d ∈ (w.pc.resume S w.stores).ids
            rw [hids]
            exact hmem
          · rw [hids, List.mem_cons] at hmem
            rcases hmem with rfl | hmem
            · exact Or.inl ((isSent_step hw.faithful _).mpr (Or.inr hmarks))
            · exact Or.inr hmem
        | _ => contradiction
      | boot =>
        right
        cases hpc : w.pc <;> simp_all [step, processStep, Pc.ids]
      | poll =>
        right
        cases hpc : w.pc <;> simp_all [step, processStep, Pc.ids]
      | _ => contradiction
    | _ => exact Or.inr hmem

/-- A decided record that is not sent is in the next tick, or the tick is
full. -/
theorem mem_or_full_fetchPending {db : DecisionDb} {d : Nat} {x : DecisionResult}
    (hx : db.decisionOf d = some x) (hne : x ≠ .pending) (hsent : db.isSent d = false)
    (limit : Nat) :
    d ∈ (fetchPending db limit).map Decision.id ∨ (fetchPending db limit).length = limit := by
  obtain ⟨r, hr, rfl⟩ := Option.map_eq_some_iff.mp hx
  have hmem : r ∈ db.decisionRecord.rows.filter toSend := by
    refine List.mem_filter.mpr ⟨(Table.find?_eq_some_iff.mp hr).1, ?_⟩
    rw [DecisionDb.isSent, hr] at hsent
    simpa [toSend, hne] using hsent
  have hmem' : r ∈ orderBy decidedKey (db.decisionRecord.rows.filter toSend) :=
    mem_orderBy.mpr hmem
  rw [fetchPending, List.length_map, List.length_take, List.map_map]
  by_cases hle : (orderBy decidedKey (db.decisionRecord.rows.filter toSend)).length ≤ limit
  · left
    rw [List.take_of_length_le hle]
    exact List.mem_map.mpr ⟨r, hmem', DecisionDb.id_of_record hr⟩
  · right
    omega

theorem fetches_cases (w : World) (e : Event) :
    fetches S w e = [] ∨ ∃ now, e = .egress (.reply .ok now) ∧ w.pc = .fetchPending ∧
      fetches S w e = [fetchPending w.stores.db S.batchSize] := by
  unfold fetches
  split
  · next now hpc => exact Or.inr ⟨now, rfl, hpc, rfl⟩
  · exact Or.inl rfl

/-- The decided records of the ids that are covered, and a full tick for `d`
if it is one of them. -/
def weight (S : Sender) (ids : Finset Nat) (d : Nat) (w : World) : Nat :=
  (ids.filter fun c => isCovered w c = true).card +
    if isCovered w d = true then S.batchSize else 0

theorem weight_le (ids : Finset Nat) (d : Nat) (w : World) :
    weight S ids d w ≤ ids.card + S.batchSize := by
  have hcard := Finset.card_filter_le ids fun c => isCovered w c = true
  unfold weight
  split <;> omega

/-- What a step of the run may assume while `d` waits: all that is decided is
among the ids. -/
structure Waits (ids : Finset Nat) (d : Nat) (w : World) (e : Event) : Prop where
  calm : e.isCalm = true
  unsent : w.stores.db.isSent d = false
  decided : ∃ x, w.stores.db.decisionOf d = some x ∧ x ≠ .pending
  among : ∀ c x, w.stores.db.decisionOf c = some x → x ≠ .pending → c ∈ ids

theorem weight_step {ids : Finset Nat} {d : Nat} {w : World} {e : Event}
    (hw : w.Orderly S) (h : Waits ids d w e) :
    weight S ids d w + S.batchSize * (fetches S w e).length ≤ weight S ids d (step S w e) := by
  have hsub : (ids.filter fun c => isCovered w c = true) ⊆
      ids.filter fun c => isCovered (step S w e) c = true := by
    intro c hc
    obtain ⟨hmem, hcov⟩ := Finset.mem_filter.mp hc
    exact Finset.mem_filter.mpr ⟨hmem, isCovered_step hw h.calm hcov⟩
  have hmono := Finset.card_le_card hsub
  have hself : isCovered w d = true → isCovered (step S w e) d = true :=
    isCovered_step hw h.calm
  rcases fetches_cases (S := S) w e with hnone | ⟨now, rfl, hpc, hfetch⟩
  · rw [hnone, List.length_nil, Nat.mul_zero, Nat.add_zero]
    unfold weight
    split
    · next hcov =>
      rw [if_pos (hself hcov)]
      omega
    · omega
  · -- a tick begins with nothing at hand
    have hids : (step S w (.egress (.reply .ok now))).pc.ids =
        (fetchPending w.stores.db S.batchSize).map Decision.id := by
      show (w.pc.resume S w.stores).ids = _
      rw [hpc]
      exact Cont.ids_next _
    have hnew : ∀ c ∈ (fetchPending w.stores.db S.batchSize).map Decision.id,
        isCovered w c = false ∧
          isCovered (step S w (.egress (.reply .ok now))) c = true ∧ c ∈ ids := by
      intro c hc
      obtain ⟨rec, hrec, rfl⟩ := List.mem_map.mp hc
      obtain ⟨hdecided, hne, hunsent⟩ := mem_fetchPending hrec
      refine ⟨?_, isCovered_iff.mpr (Or.inr (hids ▸ hc)), h.among _ _ hdecided hne⟩
      rw [isCovered, hunsent, hpc]
      rfl
    have hd : isCovered w d = false := by
      rw [isCovered, h.unsent, hpc]
      rfl
    obtain ⟨x, hx, hne⟩ := h.decided
    rw [hfetch, List.length_singleton, Nat.mul_one]
    unfold weight
    rw [hd]
    rcases mem_or_full_fetchPending hx hne h.unsent S.batchSize with hmem | hfull
    · rw [(hnew d hmem).2.1]
      simp only [Bool.false_eq_true, if_false, if_true]
      omega
    · have hdisjoint : Disjoint (ids.filter fun c => isCovered w c = true)
          ((fetchPending w.stores.db S.batchSize).map Decision.id).toFinset := by
        rw [Finset.disjoint_left]
        intro c hc hmem
        have hcov := (Finset.mem_filter.mp hc).2
        rw [(hnew c (List.mem_toFinset.mp hmem)).1] at hcov
        contradiction
      have hunion := Finset.card_le_card (Finset.union_subset hsub fun c hc => by
        obtain ⟨-, hcov, hc'⟩ := hnew c (List.mem_toFinset.mp hc)
        exact Finset.mem_filter.mpr ⟨hc', hcov⟩)
      rw [Finset.card_union_of_disjoint hdisjoint,
        List.toFinset_card_of_nodup (nodup_fetchPending _ _), List.length_map, hfull] at hunion
      simp only [Bool.false_eq_true, if_false]
      split <;> omega

/-- Over a run in which `d` waits all along. -/
theorem ticks_le_of_waits {ids : Finset Nat} {d : Nat} {w : World} {fs : List Event}
    (hw : w.Orderly S) (hall : AllSteps (step S) (Waits ids d) w fs) :
    S.batchSize * (outputs (step S) (fetches S) w fs).length ≤ ids.card + S.batchSize := by
  have hbound := add_length_outputs_le (weight S ids d) S.batchSize
    (fun w e (hw : w.Orderly S) _ => hw.step e) (fun w e hw h => weight_step hw h) hw hall
  exact (Nat.le_add_left _ _).trans (hbound.trans (weight_le ids d _))

/-- The ids of the records. -/
def recordIds (w : World) : Finset Nat :=
  (w.stores.db.decisionRecord.rows.map DecisionRecord.id).toFinset

theorem mem_recordIds {w : World} {d : Nat} {x : DecisionResult}
    (hx : w.stores.db.decisionOf d = some x) : d ∈ recordIds w := by
  obtain ⟨r, hr, -⟩ := Option.map_eq_some_iff.mp hx
  refine List.mem_toFinset.mpr (List.mem_map.mpr ⟨r, ?_, DecisionDb.id_of_record hr⟩)
  exact (Table.find?_eq_some_iff.mp hr).1

theorem isSent_run {w : World} (hw : w.Orderly S) {d : Nat}
    (h : w.stores.db.isSent d = true) (es : List Event) :
    (run (step S) w es).stores.db.isSent d = true := by
  have hinv : ∀ w e, w.Orderly S ∧ w.stores.db.isSent d = true →
      (step S w e).Orderly S ∧ (step S w e).stores.db.isSent d = true :=
    fun w e h => ⟨h.1.step e, (isSent_step h.1.faithful e).mpr (Or.inl h.2)⟩
  exact (run_invariant hinv ⟨hw, h⟩ es).2

/-- A decided record is sent in a calm run with enough ticks. -/
theorem isSent_of_fetches {w : World} (hw : w.Orderly S) {fs : List Event}
    (hcalm : ∀ e ∈ fs, e.isCalm = true) {d : Nat} {x : DecisionResult}
    (hx : w.stores.db.decisionOf d = some x) (hne : x ≠ .pending)
    (hticks : (run (step S) w fs).stores.db.decisionRecord.rows.length + S.batchSize <
      S.batchSize * (outputs (step S) (fetches S) w fs).length) :
    (run (step S) w fs).stores.db.isSent d = true := by
  by_contra hunsent
  have hall : AllSteps (step S) (Waits (recordIds (run (step S) w fs)) d) w fs := by
    rw [allSteps_iff]
    intro pre e post hfs
    have hrun : run (step S) w fs = run (step S) (run (step S) w pre) (e :: post) := by
      rw [hfs, run_append]
    constructor
    · exact hcalm e (by rw [hfs]; simp)
    · by_contra hsent
      rw [hrun] at hunsent
      exact hunsent (isSent_run (orderly_run hw pre) (by simpa using hsent) _)
    · exact ⟨x, decisionOf_run w pre hx hne, hne⟩
    · intro c y hy hy'
      rw [hrun]
      exact mem_recordIds (decisionOf_run _ _ hy hy')
  have hcard : (recordIds (run (step S) w fs)).card ≤
      (run (step S) w fs).stores.db.decisionRecord.rows.length :=
    (List.toFinset_card_le _).trans (by rw [List.length_map])
  have htotal := ticks_le_of_waits hw hall
  exact absurd hticks (not_lt.mpr (htotal.trans (Nat.add_le_add_right hcard _)))

/-- While the process runs without faults, a record that is decided is sent
after enough ticks.  The agents may decide other records all the while, and
those may come before it in the ticks; what counts is how many records there
are at the end. -/
theorem sent_of_ticks (S : Sender) (alarmMapping : Table AlarmMapping.id)
    (roleMapping : Table RoleMapping.detectionRole) (es fs : List Event)
    (hcalm : ∀ e ∈ fs, e.isCalm = true) {d : Nat} {x : DecisionResult}
    (hx : (run (step S) (World.init alarmMapping roleMapping) es).stores.db.decisionOf d =
      some x)
    (hne : x ≠ .pending)
    (hticks : (run (step S) (World.init alarmMapping roleMapping)
          (es ++ fs)).stores.db.decisionRecord.rows.length + S.batchSize <
      S.batchSize * (outputs (step S) (fetches S)
        (run (step S) (World.init alarmMapping roleMapping) es) fs).length) :
    (run (step S) (World.init alarmMapping roleMapping) (es ++ fs)).stores.db.isSent d =
      true := by
  have hw := orderly_run (orderly_init (S := S) alarmMapping roleMapping) es
  rw [run_append] at hticks ⊢
  exact isSent_of_fetches hw hcalm hx hne hticks

/-- A sender that takes two records in a tick. -/
def pairSender : Sender where
  batchSize := 2
  strFloat := fun _ => ""
  strDatetime := fun _ => ""

/-- Two records, of which the second is decided while the first waits. -/
def twoRecords : List Event :=
  [.insertDust { id := 0, receivedAt := 0 },
    .insertRecord
      { id := 0, stationId := "amr-01", observationTimestamp := 0, dustId := some 1 },
    .insertRecord { id := 0, stationId := "amr-01", observationTimestamp := 1 },
    .agent 0 (.forceDecide 1 .caution none .ok 5)]

/-- Three ticks, with a verdict between their operations. -/
def threeTicks : List Event :=
  .egress .boot :: .egress (.reply .ok 6) ::
    .agent 0 (.forceDecide 2 .normal none .ok 7) ::
    (List.replicate 3 (.egress .poll ::
      List.replicate 8 (.egress (.reply .ok 20)))).flatten

theorem sent_of_ticks_threeTicks :
    (run (step pairSender) (World.init Table.empty Table.empty)
      (twoRecords ++ threeTicks)).stores.db.isSent 1 = true :=
  sent_of_ticks pairSender Table.empty Table.empty twoRecords threeTicks (by decide)
    (x := .caution) (by decide +kernel) (by decide) (by decide +kernel)

/-- With a tick's operations bounded, enough operations that return are enough
ticks. -/
theorem sent_of_returns (S : Sender) (alarmMapping : Table AlarmMapping.id)
    (roleMapping : Table RoleMapping.detectionRole) (es fs : List Event)
    (hup : (run (step S) (World.init alarmMapping roleMapping) es).pc ≠ .down)
    (hcalm : ∀ e ∈ fs, e.isCalm = true) {d : Nat} {x : DecisionResult}
    (hx : (run (step S) (World.init alarmMapping roleMapping) es).stores.db.decisionOf d =
      some x)
    (hne : x ≠ .pending)
    (hreturns : S.batchSize *
          (run (step S) (World.init alarmMapping roleMapping) es).pc.operations
            (run (step S) (World.init alarmMapping roleMapping) es).stores +
        (1 + 5 * S.batchSize) * ((run (step S) (World.init alarmMapping roleMapping)
          (es ++ fs)).stores.db.decisionRecord.rows.length + S.batchSize) <
      S.batchSize * (outputs (step S) returns
        (run (step S) (World.init alarmMapping roleMapping) es) fs).length) :
    (run (step S) (World.init alarmMapping roleMapping) (es ++ fs)).stores.db.isSent d =
      true := by
  have hw := orderly_run (orderly_init (S := S) alarmMapping roleMapping) es
  rw [run_append] at hreturns ⊢
  generalize run (step S) (World.init alarmMapping roleMapping) es = w at *
  refine isSent_of_fetches hw hcalm hx hne ?_
  by_contra hfew
  have hreturned := Nat.mul_le_mul_left S.batchSize (length_returns_le (S := S) hup hcalm)
  have hfetched := Nat.mul_le_mul_left (1 + 5 * S.batchSize) (not_lt.mp hfew)
  rw [Nat.mul_add, Nat.mul_left_comm] at hreturned
  omega

end DustMonitoring.Egress
