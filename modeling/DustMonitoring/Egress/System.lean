import DustMonitoring.DecisionAgent.Poller
import DustMonitoring.Egress.Operations
import DustMonitoring.Lib.Run

/-!
# The egress gateway among the writers of its stores

A `World` is the four stores, the egress process, and the decision agents,
as many as there are.  An `Event` is a step of one of the parties: the
process, an agent, the producer that inserts records, a channel that
reports, the DUST handler, or the retention that deletes measurements.

`step_cases` is all that the invariants need to know of a step.
-/

namespace DustMonitoring.Egress

open DustMonitoring.Lib DustMonitoring.Schema DustMonitoring.DecisionAgent

structure World where
  stores : Stores
  pc : Pc
  agents : Nat → Agent

/-- What happens next. -/
inductive Event where
  | egress (e : ProcessEvent)
  | agent (a : Nat) (e : AgentEvent)
  /-- The producer inserts a record.  The verdict columns and `sent_at` are
  not among the columns of its `INSERT`. -/
  | insertRecord (row : DecisionRecord)
  | reportChannel (decisionId : Nat) (col : Column) (result : ChannelResult)
  | insertDust (row : DustInspection)
  | deleteDusts (p : DustInspection → Bool)

/-- The world after the event. -/
def step (S : Sender) (w : World) : Event → World
  | .egress e =>
    let (pc, stores) := processStep S w.pc w.stores e
    { w with
      pc := pc
      stores := stores }
  | .agent a e =>
    let (agent, db) := agentStep (w.agents a) w.stores.db e
    { w with
      agents := Function.update w.agents a agent
      stores.db := db }
  | .insertRecord row =>
    { w with
      stores.db := (w.stores.db.insertDecision
        { row with
          finalDecision := .pending
          decidedAt := none
          mappingId := none
          sentAt := none }).1 }
  | .reportChannel decisionId col result =>
    { w with
      stores.db := DecisionAgent.reportChannel w.stores.db decisionId col result }
  | .insertDust row =>
    { w with
      stores.gw := w.stores.gw.insertDust row }
  | .deleteDusts p =>
    { w with
      stores.gw := w.stores.gw.deleteDusts p }

/-- The world before the first record, with any rules. -/
def World.init (alarmMapping : Table AlarmMapping.id)
    (roleMapping : Table RoleMapping.detectionRole) : World where
  stores :=
    { db :=
        { DecisionDb.empty with
          alarmMapping := alarmMapping
          roleMapping := roleMapping }
      gw := GatewayDb.empty
      outbox := Table.empty
      loas := [] }
  pc := .down
  agents := fun _ => {}

/-! ## Faults -/

/-- The event applies the operation that the process awaits. -/
def ProcessEvent.applied : ProcessEvent → Bool
  | .reply o _ => o.applied
  | .crash applied _ => applied
  | _ => false

/-- The process awaits an operation. -/
def Pc.awaits : Pc → Bool
  | .down | .idle => false
  | _ => true

/-- The event is an exception that the process gets, or its crash. -/
def ProcessEvent.isFault (pc : Pc) : ProcessEvent → Bool
  | .reply o _ => pc.awaits && o.exc?.isSome
  | .crash _ _ =>
    match pc with
    | .down => false
    | _ => true
  | _ => false

/-- The event is a fault of the egress process. -/
def Event.isFault (w : World) : Event → Bool
  | .egress e => e.isFault w.pc
  | _ => false

/-- The decision whose `mark_sent` the event applies. -/
def Event.marks (w : World) : Event → Option Nat
  | .egress e => if e.applied then w.pc.marks else none
  | _ => none

/-- The decision for which `sink.write` returns success. -/
def Event.acks (w : World) : Event → Option Nat
  | .egress (.reply .ok _) => w.pc.writes
  | _ => none

/-! ## One step -/

/-- The process has nothing in hand. -/
def Pc.Quiet : Pc → Prop
  | .down | .listOutbox | .idle | .fetchPending | .bump _ _ => True
  | _ => False

theorem Pc.Quiet.ids {pc : Pc} (h : pc.Quiet) : pc.ids = [] := by
  cases pc <;> first | rfl | exact h.elim

theorem Pc.Quiet.critical {pc : Pc} (h : pc.Quiet) : pc.critical = none := by
  cases pc <;> first | rfl | exact h.elim

theorem Pc.quiet_raised (pc : Pc) : pc.raised.Quiet := by
  have habort : ∀ k : Cont, k.abort.Quiet := by
    intro k
    cases k <;> trivial
  cases pc with
  | bump _ k => exact habort k
  | remove _ k => exact habort k
  | mark _ k => exact habort k
  | _ => trivial

/-- What a step does to the parts of the world that the egress gateway
shares with nobody, and to the records. -/
inductive StepKind (S : Sender) (w w' : World) (e : Event) : Prop
  /-- The step is not one of the process, or the process ignores it. -/
  | others (pc : w'.pc = w.pc) (outbox : w'.stores.outbox = w.stores.outbox)
      (loas : w'.stores.loas = w.stores.loas)
      (db : w.stores.db.Keeps w'.stores.db) (marks : e.marks w = none)
      (acks : e.acks w = none) (fault : e.isFault w = false)
  /-- The process begins or ends a loop, or its send is refused. -/
  | quiet (pc : w'.pc.Quiet) (critical : w.pc.critical = none)
      (stores : w'.stores = w.stores) (marks : e.marks w = none)
      (acks : e.acks w = none) (fault : e.isFault w = false)
  /-- The process loses what it has in hand; its operation was applied or
  not. -/
  | fault (pe : ProcessEvent) (now : Timestamp) (pc : w'.pc.Quiet)
      (stores : w'.stores =
        if pe.applied then w.pc.effect S now w.stores else w.stores)
      (marks : e.marks w = if pe.applied then w.pc.marks else none)
      (acks : e.acks w = none) (fault : e.isFault w = true)
  /-- The operation returns. -/
  | reply (now : Timestamp) (pc : w'.pc = w.pc.resume S w.stores)
      (stores : w'.stores = w.pc.effect S now w.stores)
      (marks : e.marks w = w.pc.marks) (acks : e.acks w = w.pc.writes)
      (fault : e.isFault w = false)

variable {S : Sender}

/-- An exception or a crash.  It is no fault while nothing is awaited, and
then it changes nothing. -/
theorem stepKind_of_broken {w w' : World} {e : Event} (pe : ProcessEvent)
    (now : Timestamp) (hpc : w'.pc.Quiet)
    (hstores : w'.stores =
      if pe.applied then w.pc.effect S now w.stores else w.stores)
    (hmarks : e.marks w = if pe.applied then w.pc.marks else none)
    (hacks : e.acks w = none)
    (hfault : e.isFault w = false → w.pc.awaits = false) :
    StepKind S w w' e := by
  cases hf : e.isFault w with
  | true => exact .fault pe now hpc hstores hmarks hacks hf
  | false =>
    have hawaits := hfault hf
    have heffect : w.pc.effect S now w.stores = w.stores := by
      cases hw : w.pc <;> first | rfl | (rw [hw] at hawaits; contradiction)
    have hnone : w.pc.marks = none ∧ w.pc.critical = none := by
      cases hw : w.pc <;>
        first | exact ⟨rfl, rfl⟩ | (rw [hw] at hawaits; contradiction)
    rw [heffect, ite_self] at hstores
    rw [hnone.1, ite_self] at hmarks
    exact .quiet hpc hnone.2 hstores hmarks hacks hf

theorem stepKind_reply (w : World) (o : Outcome) (now : Timestamp) :
    StepKind S w (step S w (.egress (.reply o now)))
      (.egress (.reply o now)) := by
  cases o with
  | ok => exact .reply now rfl rfl rfl rfl (Bool.and_false _)
  | failed exc =>
    refine stepKind_of_broken (.reply (.failed exc) now) now
      w.pc.quiet_raised rfl rfl rfl fun h => ?_
    exact (Bool.and_true _).symm.trans h
  | lost exc =>
    refine stepKind_of_broken (.reply (.lost exc) now) now
      w.pc.quiet_raised rfl rfl rfl fun h => ?_
    exact (Bool.and_true _).symm.trans h

theorem stepKind_crash (w : World) (applied : Bool) (now : Timestamp) :
    StepKind S w (step S w (.egress (.crash applied now)))
      (.egress (.crash applied now)) := by
  refine stepKind_of_broken (.crash applied now) now trivial rfl rfl rfl
    fun h => ?_
  cases hw : w.pc <;>
    first | rfl | (simp [Event.isFault, ProcessEvent.isFault, hw] at h)

/-- An event that only moves the process between its loops. -/
theorem stepKind_of_control {w : World} {pe : ProcessEvent}
    (happlied : pe.applied = false)
    (hacks : Event.acks w (.egress pe) = none)
    (hfault : pe.isFault w.pc = false)
    (hstep : processStep S w.pc w.stores pe = (w.pc, w.stores) ∨
      ∃ pc, pc.Quiet ∧ w.pc.critical = none ∧
        processStep S w.pc w.stores pe = (pc, w.stores)) :
    StepKind S w (step S w (.egress pe)) (.egress pe) := by
  have hmarks : Event.marks w (.egress pe) = none := by
    rw [Event.marks, happlied]
    rfl
  rcases hstep with h | ⟨pc, hquiet, hcritical, h⟩
  · refine .others ?_ ?_ ?_ ?_ hmarks hacks hfault
    · exact congrArg Prod.fst h
    · exact congrArg (fun p => p.2.outbox) h
    · exact congrArg (fun p => p.2.loas) h
    · rw [step, h]
      exact .refl _
  · refine .quiet ?_ hcritical ?_ hmarks hacks hfault
    · rw [step, h]
      exact hquiet
    · exact congrArg Prod.snd h

/-- What any step does. -/
theorem step_cases (w : World) (e : Event) :
    StepKind S w (step S w e) e := by
  cases e with
  | egress pe =>
    cases pe with
    | reply o now => exact stepKind_reply w o now
    | crash applied now => exact stepKind_crash w applied now
    | boot =>
      refine stepKind_of_control rfl rfl rfl ?_
      cases w.pc with
      | down => exact Or.inr ⟨.listOutbox, trivial, rfl, rfl⟩
      | _ => exact Or.inl rfl
    | poll =>
      refine stepKind_of_control rfl rfl rfl ?_
      cases w.pc with
      | idle => exact Or.inr ⟨.fetchPending, trivial, rfl, rfl⟩
      | _ => exact Or.inl rfl
    | stop =>
      refine stepKind_of_control rfl rfl rfl ?_
      cases w.pc with
      | idle => exact Or.inr ⟨.down, trivial, rfl, rfl⟩
      | _ => exact Or.inl rfl
    | refuse =>
      refine stepKind_of_control rfl rfl rfl ?_
      cases w.pc with
      | write decisionId _ k =>
        exact Or.inr ⟨.bump decisionId k, trivial, rfl, rfl⟩
      | _ => exact Or.inl rfl
  | agent a e =>
    exact .others rfl rfl rfl (keeps_agentStep _ _ e) rfl rfl rfl
  | insertRecord row =>
    exact .others rfl rfl rfl (DecisionDb.keeps_insertDecision _ rfl) rfl rfl rfl
  | reportChannel decisionId col result =>
    exact .others rfl rfl rfl (keeps_reportChannel _ _ _ _) rfl rfl rfl
  | insertDust row => exact .others rfl rfl rfl (.refl _) rfl rfl rfl
  | deleteDusts p => exact .others rfl rfl rfl (.refl _) rfl rfl rfl

end DustMonitoring.Egress
