import DustMonitoring.DecisionAgent.Repository

/-!
# A decision agent

`poller.py` with the admin endpoints that share its caches.  A tick takes
the pending records and a snapshot of the role columns, and then decides
one record after the other; every `mark_decided` is an await, so other
agents and the admin run between two of them.  The caches are as old as
the last `loadJudge` and `refreshRoles` of this agent.

* `keeps_agentStep`: whatever an agent does, a verdict that is there
  stays.
-/

namespace DustMonitoring.DecisionAgent

open DustMonitoring.Lib DustMonitoring.Schema

/-- Where the loop of the poller stands. -/
inductive AgentPc where
  /-- Between two ticks. -/
  | idle
  /-- The rest of the loop over the records in `_tick`. -/
  | deciding (records : List PendingRecord) (roleColumns : List (String × Column))

/-- An agent: its caches and its poller. -/
structure Agent where
  judge : Judge := {}
  roles : RoleResolver := {}
  pc : AgentPc := .idle

/-- What an agent does next. -/
inductive AgentEvent where
  /-- `Judge.load`, at the start and from the admin page. -/
  | loadJudge
  /-- `RoleResolver.refresh`, at the start, periodically and from the admin
  page. -/
  | refreshRoles
  /-- A tick begins. -/
  | tick (limit : Nat)
  /-- `_decide` of the next record. -/
  | decide (o : Outcome) (now : Timestamp)
  | forceDecide (decisionId : Nat) (finalDecision : DecisionResult)
      (mappingId : Option Nat) (o : Outcome) (now : Timestamp)
  | updateFinal (mappingId : Nat) (level : FinalLevel) (o : Outcome)
  | updateComponent (detectionRole componentName : String) (o : Outcome)
  /-- The process ends, and its caches with it. -/
  | crash

/-- The start of `_tick`. -/
def Agent.tick (a : Agent) (db : DecisionDb) (limit : Nat) : Agent :=
  match a.pc with
  | .deciding _ _ => a
  | .idle =>
    match fetchPending db limit with
    | [] => a
    | records =>
      match a.roles.roleColumns with
      | none => a
      | some roleColumns => { a with pc := .deciding records roleColumns }

/-- `_decide` of the next record.  An exception ends the tick. -/
def Agent.decide (a : Agent) (db : DecisionDb) (o : Outcome)
    (now : Timestamp) : Agent × DecisionDb :=
  match a.pc with
  | .idle => (a, db)
  | .deciding [] _ => ({ a with pc := .idle }, db)
  | .deciding (rec :: rest) roleColumns =>
    match verdict a.judge roleColumns rec with
    | none => ({ a with pc := .deciding rest roleColumns }, db)
    | some (level, mappingId) =>
      let db' := o.settle db (markDecided db rec.id level mappingId now).1
      match o.exc? with
      | none => ({ a with pc := .deciding rest roleColumns }, db')
      | some _ => ({ a with pc := .idle }, db')

/-- The agent and decision_db after the event. -/
def agentStep (a : Agent) (db : DecisionDb) : AgentEvent → Agent × DecisionDb
  | .loadJudge => ({ a with judge := .load db }, db)
  | .refreshRoles => ({ a with roles := .refresh db }, db)
  | .tick limit => (a.tick db limit, db)
  | .decide o now => a.decide db o now
  | .forceDecide decisionId finalDecision mappingId o now =>
    match forceDecide db decisionId finalDecision mappingId now with
    | none => (a, db)
    | some (db', _) => (a, o.settle db db')
  | .updateFinal mappingId level o =>
    let (db', updated) := updateFinal db mappingId level
    if updated && o.exc?.isNone then ({ a with judge := .load db' }, db')
    else (a, o.settle db db')
  | .updateComponent detectionRole componentName o =>
    match updateComponent db detectionRole componentName with
    | none => (a, db)
    | some (db', updated) =>
      if updated && o.exc?.isNone then ({ a with roles := .refresh db' }, db')
      else (a, o.settle db db')
  | .crash => ({}, db)

/-! ## What an agent keeps -/

theorem keeps_settle {db db' : DecisionDb} (h : db.Keeps db') (o : Outcome) :
    db.Keeps (o.settle db db') := by
  unfold Outcome.settle
  split
  · exact h
  · exact .refl db

theorem keeps_decide (a : Agent) (db : DecisionDb) (o : Outcome)
    (now : Timestamp) : db.Keeps (a.decide db o now).2 := by
  unfold Agent.decide
  split
  · exact .refl db
  · exact .refl db
  · next rec rest roleColumns _ =>
    split
    · exact .refl db
    · next level mappingId _ =>
      have h : db.Keeps (markDecided db rec.id level mappingId now).1 :=
        keeps_setVerdict db rec.id (levelDecision level) (some mappingId) now
      split
      · exact keeps_settle h o
      · exact keeps_settle h o

/-- An agent changes no verdict that is there, and marks nothing as
sent. -/
theorem keeps_agentStep (a : Agent) (db : DecisionDb) (e : AgentEvent) :
    db.Keeps (agentStep a db e).2 := by
  cases e with
  | loadJudge => exact .refl db
  | refreshRoles => exact .refl db
  | tick limit => exact .refl db
  | decide o now => exact keeps_decide a db o now
  | forceDecide decisionId finalDecision mappingId o now =>
    unfold agentStep
    dsimp only
    split
    · exact .refl db
    · next db' _ h => exact keeps_settle (keeps_forceDecide h) o
  | updateFinal mappingId level o =>
    have h := keeps_updateFinal db mappingId level
    unfold agentStep
    dsimp only
    split
    · exact h
    · exact keeps_settle h o
  | updateComponent detectionRole componentName o =>
    unfold agentStep
    dsimp only
    split
    · exact .refl db
    · next db' updated h =>
      split
      · exact keeps_updateComponent h
      · exact keeps_settle (keeps_updateComponent h) o
  | crash => exact .refl db

end DustMonitoring.DecisionAgent
