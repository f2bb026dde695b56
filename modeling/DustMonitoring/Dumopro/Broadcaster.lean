import Mathlib.Data.Finset.Basic
import DustMonitoring.Lib.BoundedQueue
import DustMonitoring.Lib.Run

/-!
# The SSE broadcaster

`services/sse_broadcaster.py`: the queues of the subscribers of each station,
the queues of those who subscribe to all stations, and for each of the two the
pump, a task that puts what it receives from Redis into the queues.  The body
of every `async with self._lock` runs without an await, and so does the fan-out
of a message, so each of them is one step.

A pump that ends with an exception stays where it was registered.

* `livePumps_iff`: in every state of a run there is one running pump for the
  subscribers of each channel, and none without subscribers, exactly when no
  running pump ends with an exception.
* `not_livePumps_crashed`: who subscribes after that receives nothing.
-/

namespace DustMonitoring.Dumopro

open DustMonitoring.Lib

/-! ## State -/

/-- What can be subscribed to: a station, or all of them. -/
inductive Channel where
  | station (name : String)
  | all
deriving DecidableEq, Repr

/-- The pump of the channel hears the station. -/
def Channel.Hears : Channel → String → Prop
  | .station name, heard => name = heard
  | .all, _ => True

instance : ∀ (c : Channel) (heard : String), Decidable (c.Hears heard)
  | .station name, heard => inferInstanceAs (Decidable (name = heard))
  | .all, _ => isTrue trivial

/-- A pump runs, was cancelled and cleans up, or is over. -/
inductive PumpStatus where
  | running | cancelled | over
deriving DecidableEq, Repr

/-- A task of `_pump` or `_pump_all`. -/
structure Pump where
  channel : Channel
  status : PumpStatus := .running
deriving DecidableEq, Repr

/-- `Broadcaster`: `_queues` and `_all_queues`, `_pumps` and `_all_pump`, with
the tasks and the queues themselves. -/
structure Broadcaster where
  subs : Channel → Finset Nat := fun _ => ∅
  pumps : Channel → Option Nat := fun _ => none
  tasks : Nat → Option Pump := fun _ => none
  queues : Nat → Option (BoundedQueue String) := fun _ => none

namespace Broadcaster

/-- The bound of the queues of a channel. -/
def queueSize : Channel → Nat
  | .station _ => 256
  | .all => 512

/-! ## Subscriptions -/

/-- `create_task` of the pump of a channel, if none is registered. -/
def startPump (b : Broadcaster) (c : Channel) (task : Nat) : Broadcaster :=
  match b.pumps c with
  | some _ => b
  | none =>
    { b with
      pumps := Function.update b.pumps c (some task)
      tasks := Function.update b.tasks task (some { channel := c }) }

/-- `Task.cancel`. -/
def cancel (b : Broadcaster) (task : Nat) : Broadcaster :=
  match b.tasks task with
  | some ⟨c, .running⟩ =>
    { b with tasks := Function.update b.tasks task (some ⟨c, .cancelled⟩) }
  | _ => b

/-- The pump of a channel is cancelled, if one is registered. -/
def stopPump (b : Broadcaster) (c : Channel) : Broadcaster :=
  match b.pumps c with
  | none => b
  | some task => { b with pumps := Function.update b.pumps c none }.cancel task

/-- A new queue among those of the channel. -/
def join (size : Channel → Nat) (b : Broadcaster) (c : Channel) (queue task : Nat) : Broadcaster :=
  { b with
    subs := Function.update b.subs c (insert queue (b.subs c))
    queues := Function.update b.queues queue (some (.empty (size c))) }.startPump c task

/-- A queue less among those of the channel, and no pump if it was the last. -/
def leave (b : Broadcaster) (c : Channel) (queue : Nat) : Broadcaster :=
  let b := { b with subs := Function.update b.subs c ((b.subs c).erase queue) }
  if b.subs c = ∅ then b.stopPump c else b

/-- `subscribe`. -/
def subscribe (size : Channel → Nat) (b : Broadcaster) (station : String) (queue task : Nat) :
    Broadcaster :=
  b.join size (.station station) queue task

/-- `subscribe_all`. -/
def subscribeAll (size : Channel → Nat) (b : Broadcaster) (queue task : Nat) : Broadcaster :=
  b.join size .all queue task

/-- `unsubscribe`: `if subs:` is false for a station without queues. -/
def unsubscribe (b : Broadcaster) (station : String) (queue : Nat) : Broadcaster :=
  if b.subs (.station station) = ∅ then b else b.leave (.station station) queue

/-- `unsubscribe_all`. -/
def unsubscribeAll (b : Broadcaster) (queue : Nat) : Broadcaster := b.leave .all queue

/-! ## Messages -/

/-- `_fan_out` and `_fan_out_all`. -/
def fanOut (b : Broadcaster) (c : Channel) (payload : String) : Broadcaster :=
  { b with
    queues := fun queue =>
      if queue ∈ b.subs c then (b.queues queue).map fun q => q.offer payload
      else b.queues queue }

/-- What the pump of a channel makes of a message. -/
def payload (injectStation : String → String → String) (c : Channel) (station data : String) :
    String :=
  match c with
  | .station _ => data
  | .all => injectStation data station

/-- What happens next.  A subscription comes with the queue and the task that
it creates; `crash` is the exit of a pump through an exception, `stopped` the
end of a cancelled one. -/
inductive Event where
  | subscribe (station : String) (queue task : Nat)
  | unsubscribe (station : String) (queue : Nat)
  | subscribeAll (queue task : Nat)
  | unsubscribeAll (queue : Nat)
  | crash (task : Nat)
  | stopped (task : Nat)
  | receive (task : Nat) (station data : String)
  | pop (queue : Nat)

/-- Neither the queue nor the task exists. -/
def Fresh (b : Broadcaster) (queue task : Nat) : Prop :=
  b.queues queue = none ∧ b.tasks task = none

instance (b : Broadcaster) (queue task : Nat) : Decidable (b.Fresh queue task) :=
  inferInstanceAs (Decidable (_ ∧ _))

/-- The broadcaster after an event. -/
def step (size : Channel → Nat) (injectStation : String → String → String) (b : Broadcaster) :
    Event → Broadcaster
  | .subscribe station queue task =>
    if b.Fresh queue task then b.subscribe size station queue task else b
  | .unsubscribe station queue => b.unsubscribe station queue
  | .subscribeAll queue task => if b.Fresh queue task then b.subscribeAll size queue task else b
  | .unsubscribeAll queue => b.unsubscribeAll queue
  | .crash task =>
    match b.tasks task with
    | some ⟨c, .running⟩ => { b with tasks := Function.update b.tasks task (some ⟨c, .over⟩) }
    | _ => b
  | .stopped task =>
    match b.tasks task with
    | some ⟨c, .cancelled⟩ => { b with tasks := Function.update b.tasks task (some ⟨c, .over⟩) }
    | _ => b
  | .receive task station data =>
    match b.tasks task with
    | some ⟨c, .running⟩ =>
      if c.Hears station then b.fanOut c (payload injectStation c station data) else b
    | _ => b
  | .pop queue =>
    match (b.queues queue).bind BoundedQueue.getNowait with
    | none => b
    | some (_, rest) => { b with queues := Function.update b.queues queue (some rest) }

/-! ## Pumps -/

/-- The task is a running pump of the channel. -/
def Runs (b : Broadcaster) (c : Channel) (task : Nat) : Prop := b.tasks task = some ⟨c, .running⟩

/-- The event is about subscriptions and tasks, not about a message. -/
def Event.Control : Event → Prop
  | .receive _ _ _ => False
  | .pop _ => False
  | _ => True

/-- What can happen at an event. -/
inductive Moves (size : Channel → Nat) (injectStation : String → String → String)
    (b : Broadcaster) : Event → Broadcaster → Prop
  | stay {e : Event} (he : e.Control) : Moves size injectStation b e b
  | join {e : Event} (he : e.Control) (c : Channel) (queue task : Nat)
      (hfresh : b.Fresh queue task) : Moves size injectStation b e (b.join size c queue task)
  | leave {e : Event} (he : e.Control) (c : Channel) (queue : Nat) :
      Moves size injectStation b e (b.leave c queue)
  | crash (c : Channel) (task : Nat) (hruns : b.Runs c task) :
      Moves size injectStation b (.crash task)
        { b with tasks := Function.update b.tasks task (some ⟨c, .over⟩) }
  | ended (c : Channel) (task : Nat) (htask : b.tasks task = some ⟨c, .cancelled⟩) :
      Moves size injectStation b (.stopped task)
        { b with tasks := Function.update b.tasks task (some ⟨c, .over⟩) }
  | unheard (task : Nat) (station data : String)
      (hunheard : ∀ c, b.Runs c task → ¬ c.Hears station) :
      Moves size injectStation b (.receive task station data) b
  | heard (c : Channel) (task : Nat) (station data : String) (hruns : b.Runs c task)
      (hhears : c.Hears station) :
      Moves size injectStation b (.receive task station data)
        (b.fanOut c (payload injectStation c station data))
  | nothing (queue : Nat) (hget : (b.queues queue).bind BoundedQueue.getNowait = none) :
      Moves size injectStation b (.pop queue) b
  | took (queue : Nat) (oldest : String) (rest : BoundedQueue String)
      (hget : (b.queues queue).bind BoundedQueue.getNowait = some (oldest, rest)) :
      Moves size injectStation b (.pop queue)
        { b with queues := Function.update b.queues queue (some rest) }

theorem moves_step (size : Channel → Nat) (injectStation : String → String → String)
    (b : Broadcaster) (e : Event) :
    Moves size injectStation b e (step size injectStation b e) := by
  cases e with
  | subscribe station queue task =>
    rw [step]
    split
    · next hfresh => exact .join (by trivial) (.station station) queue task hfresh
    · exact .stay trivial
  | unsubscribe station queue =>
    rw [step, unsubscribe]
    split
    · exact .stay trivial
    · exact .leave (by trivial) (.station station) queue
  | subscribeAll queue task =>
    rw [step]
    split
    · next hfresh => exact .join (by trivial) .all queue task hfresh
    · exact .stay trivial
  | unsubscribeAll queue => exact .leave (by trivial) .all queue
  | crash task =>
    rw [step]
    split
    · next c hruns => exact .crash c task hruns
    · exact .stay trivial
  | stopped task =>
    rw [step]
    split
    · next c htask => exact .ended c task htask
    · exact .stay trivial
  | receive task station data =>
    rw [step]
    split
    · next c hruns =>
      split
      · next hhears => exact .heard c task station data hruns hhears
      · next hunheard =>
        refine .unheard task station data fun c' hruns' => ?_
        obtain rfl : c' = c := congrArg Pump.channel (Option.some.inj (hruns'.symm.trans hruns))
        exact hunheard
    · next hnone => exact .unheard task station data fun c hruns => absurd hruns (hnone c)
  | pop queue =>
    rw [step]
    split
    · next hget => exact .nothing queue hget
    · next oldest rest hget => exact .took queue oldest rest hget

/-- A channel with subscribers has one running pump, one without has none, and
whatever the pump hears comes to the end of every queue. -/
structure LivePumps (size : Channel → Nat) (injectStation : String → String → String)
    (b : Broadcaster) : Prop where
  one : ∀ c, b.subs c ≠ ∅ → ∃! task, b.Runs c task
  none : ∀ c, b.subs c = ∅ → b.pumps c = none ∧ ∀ task, ¬ b.Runs c task
  served : ∀ c, ∀ queue ∈ b.subs c, ∃ task, b.Runs c task ∧
    ∀ station data, c.Hears station →
      ∃ q, (step size injectStation b (.receive task station data)).queues queue = some q ∧
        q.items.getLast? = some (payload injectStation c station data)

/-- The subscribers have their queues. -/
def Queued (b : Broadcaster) : Prop := ∀ c, ∀ queue ∈ b.subs c, b.queues queue ≠ none

/-- The pumps that are registered are those that run, and there is one for each
channel with subscribers. -/
structure Registered (b : Broadcaster) : Prop where
  runs : ∀ c task, b.Runs c task ↔ b.pumps c = some task
  pumps : ∀ c, b.pumps c = none ↔ b.subs c = ∅

/-- The event is not the end of a running pump through an exception. -/
def NoCrash (b : Broadcaster) (e : Event) : Prop :=
  ∀ task, e = .crash task → ∀ c, ¬ b.Runs c task

variable {size : Channel → Nat} {injectStation : String → String → String} {b : Broadcaster}

theorem Registered.live (h : b.Registered) (hqueued : b.Queued) : LivePumps size injectStation b := by
  have hone : ∀ c, b.subs c ≠ ∅ → ∃ task, b.Runs c task := fun c hsubs => by
    obtain ⟨task, htask⟩ := Option.ne_none_iff_exists'.mp (mt (h.pumps c).mp hsubs)
    exact ⟨task, (h.runs c task).mpr htask⟩
  refine ⟨fun c hsubs => ?_, fun c hsubs => ?_, fun c queue hqueue => ?_⟩
  · obtain ⟨task, htask⟩ := hone c hsubs
    refine ⟨task, htask, fun task' htask' => ?_⟩
    exact Option.some.inj (((h.runs c task').mp htask').symm.trans ((h.runs c task).mp htask))
  · have hnone := (h.pumps c).mpr hsubs
    refine ⟨hnone, fun task htask => ?_⟩
    rw [h.runs, hnone] at htask
    contradiction
  · obtain ⟨task, htask⟩ := hone c (Finset.ne_empty_of_mem hqueue)
    obtain ⟨q, hq⟩ := Option.ne_none_iff_exists'.mp (hqueued c queue hqueue)
    refine ⟨task, htask, fun station data hhears => ?_⟩
    refine ⟨q.offer (payload injectStation c station data), ?_, q.getLast?_offer _⟩
    rw [Runs] at htask
    simp [step, htask, hhears, fanOut, hqueue, hq]

/-! ## What an event keeps -/

theorem subs_stopPump (b : Broadcaster) (c : Channel) : (b.stopPump c).subs = b.subs := by
  unfold stopPump cancel
  split
  · rfl
  · split <;> rfl

theorem queues_stopPump (b : Broadcaster) (c : Channel) : (b.stopPump c).queues = b.queues := by
  unfold stopPump cancel
  split
  · rfl
  · split <;> rfl

theorem queues_leave (b : Broadcaster) (c : Channel) (queue : Nat) :
    (b.leave c queue).queues = b.queues := by
  unfold leave
  dsimp only
  split
  · exact queues_stopPump _ c
  · rfl

theorem subs_leave_subset (b : Broadcaster) (c : Channel) (queue : Nat) (c' : Channel) :
    (b.leave c queue).subs c' ⊆ b.subs c' := by
  have hsubs : (b.leave c queue).subs = Function.update b.subs c ((b.subs c).erase queue) := by
    unfold leave
    dsimp only
    split
    · exact subs_stopPump _ c
    · rfl
  rw [hsubs]
  by_cases hc : c' = c
  · rw [hc, Function.update_self]
    exact Finset.erase_subset queue _
  · rw [Function.update_of_ne hc]

theorem subs_join (size : Channel → Nat) (b : Broadcaster) (c : Channel) (queue task : Nat) :
    (b.join size c queue task).subs = Function.update b.subs c (insert queue (b.subs c)) := by
  unfold join startPump
  split <;> rfl

theorem queues_join (size : Channel → Nat) (b : Broadcaster) (c : Channel) (queue task : Nat) :
    (b.join size c queue task).queues =
      Function.update b.queues queue (some (.empty (size c))) := by
  unfold join startPump
  split <;> rfl

theorem queued_join {c : Channel} {queue task : Nat} (h : b.Queued) :
    (b.join size c queue task).Queued := by
  intro c' q hq
  rw [subs_join] at hq
  rw [queues_join]
  by_cases hnew : q = queue
  · rw [hnew, Function.update_self]
    exact Option.some_ne_none _
  · rw [Function.update_of_ne hnew]
    by_cases hc : c' = c
    · rw [hc, Function.update_self, Finset.mem_insert] at hq
      exact h c q (hq.resolve_left hnew)
    · rw [Function.update_of_ne hc] at hq
      exact h c' q hq

theorem queued_leave {c : Channel} {queue : Nat} (h : b.Queued) : (b.leave c queue).Queued := by
  intro c' q hq
  rw [queues_leave]
  exact h c' q (subs_leave_subset b c queue c' hq)

theorem Moves.queued {e : Event} {b' : Broadcaster} (hmove : Moves size injectStation b e b')
    (h : b.Queued) : b'.Queued := by
  cases hmove with
  | stay _ => exact h
  | join _ c queue task _ => exact queued_join h
  | leave _ c queue => exact queued_leave h
  | crash c task _ => exact h
  | ended c task _ => exact h
  | unheard task station data _ => exact h
  | heard c task station data _ _ =>
    intro c' q hq
    have hold := h c' q hq
    unfold fanOut
    dsimp only
    split
    · rwa [Ne, Option.map_eq_none_iff]
    · exact hold
  | nothing queue _ => exact h
  | took queue oldest rest _ =>
    intro c' q hq
    show Function.update b.queues queue (some rest) q ≠ none
    by_cases hqueue : q = queue
    · rw [hqueue, Function.update_self]
      exact Option.some_ne_none rest
    · rw [Function.update_of_ne hqueue]
      exact h c' q hq

/-- What leaves the subscribers and the pumps alone keeps them registered. -/
theorem Registered.congr {b' : Broadcaster} (h : b.Registered) (hsubs : b'.subs = b.subs)
    (hpumps : b'.pumps = b.pumps) (hruns : ∀ c task, b'.Runs c task ↔ b.Runs c task) :
    b'.Registered := by
  refine ⟨fun c task => ?_, fun c => ?_⟩
  · rw [hruns, hpumps]
    exact h.runs c task
  · rw [hpumps, hsubs]
    exact h.pumps c

/-- What happens to one channel leaves the others registered. -/
theorem Registered.of_channel {b' : Broadcaster} (h : b.Registered) (c : Channel)
    (hothers : ∀ c', c' ≠ c → b'.subs c' = b.subs c' ∧ b'.pumps c' = b.pumps c' ∧
      ∀ task, b'.Runs c' task ↔ b.Runs c' task)
    (hruns : ∀ task, b'.Runs c task ↔ b'.pumps c = some task)
    (hpumps : b'.pumps c = none ↔ b'.subs c = ∅) : b'.Registered := by
  refine ⟨fun c' task => ?_, fun c' => ?_⟩
  · by_cases hc : c' = c
    · rw [hc]
      exact hruns task
    · obtain ⟨-, hpump, hsame⟩ := hothers c' hc
      rw [hsame, hpump]
      exact h.runs c' task
  · by_cases hc : c' = c
    · rw [hc]
      exact hpumps
    · obtain ⟨hsubs, hpump, -⟩ := hothers c' hc
      rw [hsubs, hpump]
      exact h.pumps c'

/-- A task that is no running pump of the channel, now or before, does not
show there. -/
theorem runs_update_iff {c : Channel} {task : Nat} {p : Pump} (hp : p ≠ ⟨c, .running⟩)
    (hbefore : ¬ b.Runs c task) (task' : Nat) :
    Runs { b with tasks := Function.update b.tasks task (some p) } c task' ↔ b.Runs c task' := by
  unfold Runs
  dsimp only
  by_cases htask : task' = task
  · subst htask
    refine iff_of_false ?_ hbefore
    rw [Function.update_self]
    exact fun h => hp (Option.some.inj h)
  · rw [Function.update_of_ne htask]

theorem registered_join {c : Channel} {queue task : Nat} (h : b.Registered)
    (hfresh : b.Fresh queue task) : (b.join size c queue task).Registered := by
  have hinsert : Function.update b.subs c (insert queue (b.subs c)) c ≠ ∅ := by
    rw [Function.update_self]
    exact Finset.insert_ne_empty queue _
  unfold join startPump
  cases hpump : b.pumps c with
  | some task' =>
    refine h.of_channel c (fun c' hc => ?_) (h.runs c) ?_
    · exact ⟨Function.update_of_ne hc _ _, rfl, fun _ => Iff.rfl⟩
    · exact iff_of_false (by simp [hpump]) hinsert
  | none =>
    have hbefore : ∀ c', ¬ b.Runs c' task := fun c' hruns => by
      rw [Runs, hfresh.2] at hruns
      contradiction
    refine h.of_channel c (fun c' hc => ?_) (fun task' => ?_) ?_
    · exact ⟨Function.update_of_ne hc _ _, Function.update_of_ne hc _ _,
        runs_update_iff (by simp [Ne.symm hc]) (hbefore c')⟩
    · show Function.update b.tasks task (some ⟨c, .running⟩) task' = some ⟨c, .running⟩ ↔
        Function.update b.pumps c (some task) c = some task'
      rw [Function.update_self]
      by_cases htask : task' = task
      · rw [htask, Function.update_self]
        exact iff_of_true rfl rfl
      · rw [Function.update_of_ne htask]
        refine (h.runs c task').trans ?_
        rw [hpump]
        exact iff_of_false (by simp) (by simp [Ne.symm htask])
    · exact iff_of_false (by simp) hinsert

theorem registered_stopPump {c : Channel} {queue : Nat} (h : b.Registered)
    (hlast : (b.subs c).erase queue = ∅) :
    (stopPump { b with subs := Function.update b.subs c ((b.subs c).erase queue) } c).Registered := by
  have hempty : Function.update b.subs c ((b.subs c).erase queue) c = ∅ := by
    rw [Function.update_self]
    exact hlast
  unfold stopPump
  dsimp only
  cases hpump : b.pumps c with
  | none =>
    refine h.of_channel c (fun c' hc => ?_) (h.runs c) (iff_of_true hpump hempty)
    exact ⟨Function.update_of_ne hc _ _, rfl, fun _ => Iff.rfl⟩
  | some task =>
    have hruns : b.tasks task = some ⟨c, .running⟩ := (h.runs c task).mpr hpump
    simp only [cancel, hruns]
    refine h.of_channel c (fun c' hc => ?_) (fun task' => ?_) ?_
    · have hbefore : ¬ b.Runs c' task := by
        rw [Runs, hruns]
        simp [Ne.symm hc]
      exact ⟨Function.update_of_ne hc _ _, Function.update_of_ne hc _ _,
        runs_update_iff (by simp) hbefore⟩
    · show Function.update b.tasks task (some ⟨c, .cancelled⟩) task' = some ⟨c, .running⟩ ↔
        Function.update b.pumps c none c = some task'
      rw [Function.update_self]
      refine iff_of_false (fun htask' => ?_) (by simp)
      by_cases htask : task' = task
      · simp [htask] at htask'
      · rw [Function.update_of_ne htask] at htask'
        have hsame := ((h.runs c task').mp htask').symm.trans hpump
        exact htask (Option.some.inj hsame)
    · exact iff_of_true (Function.update_self _ _ _) hempty

theorem registered_leave {c : Channel} {queue : Nat} (h : b.Registered) :
    (b.leave c queue).Registered := by
  unfold leave
  dsimp only
  split
  · next hlast =>
    rw [Function.update_self] at hlast
    exact registered_stopPump h hlast
  · next hleft =>
    refine h.of_channel c (fun c' hc => ?_) (h.runs c) ?_
    · exact ⟨Function.update_of_ne hc _ _, rfl, fun _ => Iff.rfl⟩
    · refine (h.pumps c).trans (iff_of_false (fun hnone => hleft ?_) hleft)
      rw [Function.update_self, hnone]
      exact Finset.erase_empty queue

theorem Moves.registered {e : Event} {b' : Broadcaster}
    (hmove : Moves size injectStation b e b') (h : b.Registered) (hcrash : b.NoCrash e) :
    b'.Registered := by
  cases hmove with
  | stay _ => exact h
  | join _ c queue task hfresh => exact registered_join h hfresh
  | leave _ c queue => exact registered_leave h
  | crash c task hruns => exact absurd hruns (hcrash task rfl c)
  | ended c task htask =>
    have hbefore : ∀ c', ¬ b.Runs c' task := fun c' hruns => by
      rw [Runs, htask] at hruns
      simp at hruns
    exact h.congr rfl rfl fun c' => runs_update_iff (by simp) (hbefore c')
  | unheard task station data _ => exact h
  | heard c task station data _ _ => exact h.congr rfl rfl fun _ _ => Iff.rfl
  | nothing queue _ => exact h
  | took queue oldest rest _ => exact h.congr rfl rfl fun _ _ => Iff.rfl

/-- The end of a running pump through an exception leaves its subscribers
without one. -/
theorem noCrash_of_live {e : Event} (h : b.Registered)
    (hlive : LivePumps size injectStation (step size injectStation b e)) : b.NoCrash e := by
  rintro task rfl c hruns
  have hsubs : b.subs c ≠ ∅ := by
    rw [Ne, ← h.pumps c, (h.runs c task).mp hruns]
    exact Option.some_ne_none task
  have hcrash : step size injectStation b (.crash task) =
      { b with tasks := Function.update b.tasks task (some ⟨c, .over⟩) } := by
    rw [Runs] at hruns
    simp [step, hruns]
  rw [hcrash] at hlive
  obtain ⟨task', htask', -⟩ := hlive.one c hsubs
  have hne : task' ≠ task := by
    rintro rfl
    simp [Runs] at htask'
  have hold : b.Runs c task' := by
    rw [Runs] at htask'
    dsimp only at htask'
    rwa [Function.update_of_ne hne] at htask'
  rw [h.runs] at hruns hold
  exact hne (Option.some.inj (hold.symm.trans hruns))

theorem registered_empty : ({} : Broadcaster).Registered :=
  ⟨by simp [Runs], by simp⟩

theorem queued_empty : ({} : Broadcaster).Queued := by
  simp [Queued]

/-- The pumps are live in every state of a run exactly when no running pump ends
with an exception in it. -/
theorem livePumps_iff (size : Channel → Nat) (injectStation : String → String → String)
    (events : List Event) :
    (∀ pre, pre <+: events →
        LivePumps size injectStation (run (step size injectStation) {} pre)) ↔
      AllSteps (step size injectStation) NoCrash {} events := by
  have hgood : ∀ b : Broadcaster, b.Registered ∧ b.Queued → LivePumps size injectStation b :=
    fun _ h => h.1.live h.2
  exact forall_prefix_good_iff hgood
    (fun b e h hcrash => ⟨(moves_step size injectStation b e).registered h.1 hcrash,
      (moves_step size injectStation b e).queued h.2⟩)
    (fun _ _ h => noCrash_of_live h.1) ⟨registered_empty, queued_empty⟩ events

/-- The pump of a station crashes, and somebody else subscribes. -/
def crashed : List Event := [.subscribe "s1" 0 0, .crash 0, .subscribe "s1" 1 1]

/-- There is no pump for the two of them, and no message for the second. -/
theorem not_livePumps_crashed :
    ¬ LivePumps queueSize (fun data _ => data)
        (run (step queueSize fun data _ => data) {} crashed) ∧
      ∀ task station data,
        ((run (step queueSize fun data _ => data) {}
          (crashed ++ [.receive task station data])).queues 1).map BoundedQueue.items =
            some [] := by
  have htasks : ∀ task, (run (step queueSize fun data _ => data) {} crashed).tasks task =
      if task = 0 then some ⟨.station "s1", .over⟩ else none := by
    intro task
    simp [crashed, step, Fresh, subscribe, join, startPump, Function.update_apply]
  have hruns : ∀ c task, ¬ (run (step queueSize fun data _ => data) {} crashed).Runs c task := by
    intro c task
    rw [Runs, htasks]
    split <;> simp
  refine ⟨fun h => ?_, fun task station data => ?_⟩
  · obtain ⟨task, htask, -⟩ := h.one (.station "s1") (by decide +kernel)
    exact hruns _ task htask
  · rw [run_concat, step]
    split
    · next c htask => exact absurd htask (hruns c task)
    · rfl

end Broadcaster

end DustMonitoring.Dumopro
