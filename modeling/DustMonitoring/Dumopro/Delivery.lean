import DustMonitoring.Dumopro.Broadcaster

/-!
# What comes through the queue of a subscriber

What is fanned out to a queue, what its subscriber takes out of it, and what is
dropped from it, in any run of the broadcaster.

* `drops_oldest`: a queue holds the last messages that were fanned out to it,
  its subscriber takes them in order, and the only one that is ever dropped is
  the oldest one of a full queue, for the message that takes its place.
-/

namespace DustMonitoring.Dumopro.Broadcaster

open DustMonitoring.Lib

/-! ## What an event does to a queue -/

/-- The message that the event fans out to the queue. -/
def sent (injectStation : String → String → String) (queue : Nat) (b : Broadcaster) :
    Event → List String
  | .receive task station data =>
    match b.tasks task with
    | some ⟨c, .running⟩ =>
      if c.Hears station ∧ queue ∈ b.subs c then [payload injectStation c station data] else []
    | _ => []
  | _ => []

/-- The message that the subscriber takes out of the queue. -/
def popped (queue : Nat) (b : Broadcaster) : Event → List String
  | .pop queue' =>
    if queue' = queue then
      (((b.queues queue).bind BoundedQueue.getNowait).map Prod.fst).toList
    else []
  | _ => []

/-- The message that the event drops from the queue. -/
def dropped (injectStation : String → String → String) (queue : Nat) (b : Broadcaster)
    (e : Event) : List String :=
  match sent injectStation queue b e, b.queues queue with
  | _ :: _, some q => q.overflow
  | _, _ => []

/-- A queue before and after an event, with what was sent to it, popped from it
and dropped. -/
inductive Turn (q : BoundedQueue String) :
    BoundedQueue String → List String → List String → List String → Prop
  | idle : Turn q q [] [] []
  | room (message : String) {q' : BoundedQueue String} (hfull : ¬ q.Full)
      (hitems : q'.items = q.items ++ [message]) (hsize : q'.maxsize = q.maxsize) :
      Turn q q' [message] [] []
  | full (message oldest : String) (rest : List String) {q' : BoundedQueue String}
      (hfull : q.Full) (hold : q.items = oldest :: rest) (hitems : q'.items = rest ++ [message])
      (hsize : q'.maxsize = q.maxsize) : Turn q q' [message] [] [oldest]
  | pop (oldest : String) {q' : BoundedQueue String} (hold : q.items = oldest :: q'.items)
      (hsize : q'.maxsize = q.maxsize) : Turn q q' [] [oldest] []

variable {size : Channel → Nat} {injectStation : String → String → String} {b : Broadcaster}
  {queue : Nat} {q : BoundedQueue String}

theorem Turn.maxsize_eq {q' : BoundedQueue String} {s p d : List String} (h : Turn q q' s p d) :
    q'.maxsize = q.maxsize := by
  cases h with
  | idle => rfl
  | room _ _ _ hsize => exact hsize
  | full _ _ _ _ _ _ hsize => exact hsize
  | pop _ _ hsize => exact hsize

/-- A turn keeps the account of a queue. -/
theorem Turn.passed {q' : BoundedQueue String} {s p d sent popped dropped : List String}
    (h : Turn q q' s p d) (hpassed : Passed sent popped dropped q.items) :
    Passed (sent ++ s) (popped ++ p) (dropped ++ d) q'.items := by
  cases h with
  | idle => simpa using hpassed
  | room message _ hitems _ =>
    rw [hitems]
    simpa using hpassed.send message
  | full message oldest rest _ hold hitems _ =>
    rw [hold] at hpassed
    rw [hitems]
    simpa using hpassed.drop.send message
  | pop oldest hold _ =>
    rw [hold] at hpassed
    simpa using hpassed.pop

/-- A message that is offered to a queue. -/
theorem turn_offer (message : String) : Turn q (q.offer message) [message] [] q.overflow := by
  obtain ⟨hsize, ⟨hfull, hitems⟩ | ⟨hfull, oldest, rest, hold, hitems⟩⟩ := q.offer_cases message
  · rw [BoundedQueue.overflow, if_neg hfull]
    exact .room message hfull hitems hsize
  · rw [BoundedQueue.overflow, if_pos hfull, hold]
    exact .full message oldest rest hfull hold hitems hsize

/-- Nothing happens to a queue before it exists. -/
theorem quiet_of_none (injectStation : String → String → String) (hqueued : b.Queued)
    (h : b.queues queue = none) (e : Event) :
    sent injectStation queue b e = [] ∧ popped queue b e = [] ∧
      dropped injectStation queue b e = [] := by
  have hsent : sent injectStation queue b e = [] := by
    unfold sent
    split
    · split
      · exact if_neg fun hsub => hqueued _ queue hsub.2 h
      · rfl
    · rfl
  refine ⟨hsent, ?_, ?_⟩
  · unfold popped
    split
    · rw [h]
      simp
    · rfl
  · rw [dropped, hsent]

theorem queues_fanOut (b : Broadcaster) (c : Channel) (message : String) (queue : Nat) :
    (b.fanOut c message).queues queue =
      if queue ∈ b.subs c then (b.queues queue).map fun q => q.offer message
      else b.queues queue :=
  rfl

/-- An event makes a queue or leaves it to be made. -/
theorem Moves.created_cases {e : Event} {b' : Broadcaster}
    (hmove : Moves size injectStation b e b') (h : b.queues queue = none) :
    b'.queues queue = none ∨ ∃ c, b'.queues queue = some (.empty (size c)) := by
  cases hmove with
  | stay _ => exact Or.inl h
  | join _ c queue' task _ =>
    rw [queues_join]
    by_cases hqueue : queue = queue'
    · rw [hqueue, Function.update_self]
      exact Or.inr ⟨c, rfl⟩
    · rw [Function.update_of_ne hqueue]
      exact Or.inl h
  | leave _ c queue' =>
    rw [queues_leave]
    exact Or.inl h
  | crash c task _ => exact Or.inl h
  | ended c task _ => exact Or.inl h
  | unheard task station data _ => exact Or.inl h
  | heard c task station data _ _ =>
    rw [queues_fanOut, h, Option.map_none, ite_self]
    exact Or.inl rfl
  | nothing queue' _ => exact Or.inl h
  | took queue' oldest rest hget =>
    show Function.update b.queues queue' (some rest) queue = none ∨ _
    have hqueue : queue ≠ queue' := by
      rintro rfl
      rw [h] at hget
      contradiction
    rw [Function.update_of_ne hqueue]
    exact Or.inl h

theorem sent_of_control {e : Event} (he : e.Control) : sent injectStation queue b e = [] := by
  cases e <;> first | rfl | exact he.elim

theorem popped_of_control {e : Event} (he : e.Control) : popped queue b e = [] := by
  cases e <;> first | rfl | exact he.elim

/-- What an event does to a queue. -/
theorem Moves.exists_turn {e : Event} {b' : Broadcaster}
    (hmove : Moves size injectStation b e b') (hq : b.queues queue = some q) :
    ∃ q', b'.queues queue = some q' ∧
      Turn q q' (sent injectStation queue b e) (popped queue b e)
        (dropped injectStation queue b e) := by
  have hidle : ∀ b' : Broadcaster, sent injectStation queue b e = [] → popped queue b e = [] →
      b'.queues queue = b.queues queue →
      ∃ q', b'.queues queue = some q' ∧
        Turn q q' (sent injectStation queue b e) (popped queue b e)
          (dropped injectStation queue b e) := by
    intro b' hsent hpopped hqueues
    rw [dropped, hsent, hpopped]
    exact ⟨q, hqueues.trans hq, .idle⟩
  cases hmove with
  | stay he => exact hidle _ (sent_of_control he) (popped_of_control he) rfl
  | join he c queue' task hfresh =>
    have hne : queue ≠ queue' := by
      rintro rfl
      rw [hfresh.1] at hq
      contradiction
    refine hidle _ (sent_of_control he) (popped_of_control he) ?_
    rw [queues_join, Function.update_of_ne hne]
  | leave he c queue' =>
    refine hidle _ (sent_of_control he) (popped_of_control he) ?_
    rw [queues_leave]
  | crash c task _ => exact hidle _ rfl rfl rfl
  | ended c task _ => exact hidle _ rfl rfl rfl
  | unheard task station data hunheard =>
    refine hidle _ ?_ rfl rfl
    dsimp only [sent]
    split
    · next c hruns => exact if_neg fun h => hunheard c hruns h.1
    · rfl
  | heard c task station data hruns hhears =>
    rw [Runs] at hruns
    by_cases hsub : queue ∈ b.subs c
    · have hsent : sent injectStation queue b (.receive task station data) =
          [payload injectStation c station data] := by
        simp [sent, hruns, hhears, hsub]
      refine ⟨q.offer (payload injectStation c station data), ?_, ?_⟩
      · rw [queues_fanOut, if_pos hsub, hq, Option.map_some]
      · rw [dropped, hsent, hq]
        exact turn_offer _
    · refine hidle _ ?_ rfl ?_
      · simp [sent, hruns, hsub]
      · rw [queues_fanOut, if_neg hsub]
  | nothing queue' hget =>
    refine hidle _ rfl ?_ rfl
    by_cases hqueue : queue' = queue
    · subst hqueue
      simp [popped, hget]
    · exact if_neg hqueue
  | took queue' oldest rest hget =>
    by_cases hqueue : queue' = queue
    · subst hqueue
      have hpopped : popped queue' b (.pop queue') = [oldest] := by
        simp [popped, hget]
      rw [hq] at hget
      obtain ⟨hold, hsize⟩ := BoundedQueue.getNowait_eq_some hget
      refine ⟨rest, Function.update_self _ _ _, ?_⟩
      rw [hpopped]
      exact .pop oldest hold hsize
    · exact hidle _ rfl (if_neg hqueue) (Function.update_of_ne (Ne.symm hqueue) _ _)

/-! ## Runs -/

/-- A queue with all that was fanned out to it, popped from it and dropped
from it. -/
structure DropsOldest (sent popped dropped : List String) (q : BoundedQueue String) : Prop where
  suffix : q.items <:+ sent
  bounded : q.items.length ≤ q.maxsize
  inOrder : popped.Sublist sent
  once : sent.Nodup → popped.Nodup
  account : Passed sent popped dropped q.items

/-- Before a queue is made nothing has happened to it. -/
def Accounted (size : Channel → Nat) (sent popped dropped : List String) :
    Option (BoundedQueue String) → Prop
  | none => sent = [] ∧ popped = [] ∧ dropped = []
  | some q => (∃ c, q.maxsize = size c) ∧ Passed sent popped dropped q.items

theorem queued_run (size : Channel → Nat) (injectStation : String → String → String)
    (events : List Event) : (run (step size injectStation) {} events).Queued :=
  run_invariant (fun b e => (moves_step size injectStation b e).queued) queued_empty events

theorem accounted_run (size : Channel → Nat) (injectStation : String → String → String)
    (queue : Nat) (events : List Event) :
    Accounted size (outputs (step size injectStation) (sent injectStation queue) {} events)
      (outputs (step size injectStation) (popped queue) {} events)
      (outputs (step size injectStation) (dropped injectStation queue) {} events)
      ((run (step size injectStation) {} events).queues queue) := by
  induction events using List.reverseRecOn with
  | nil => exact ⟨rfl, rfl, rfl⟩
  | append_singleton events e ih =>
    have hqueued := queued_run size injectStation events
    simp only [outputs_append, run_concat, outputs, List.append_nil]
    generalize run (step size injectStation) {} events = b at ih hqueued ⊢
    cases hq : b.queues queue with
    | none =>
      obtain ⟨hsent, hpopped, hdropped⟩ := quiet_of_none injectStation hqueued hq e
      rw [hq] at ih
      obtain ⟨hs, hp, hd⟩ := ih
      rw [hsent, hpopped, hdropped, hs, hp, hd]
      rcases (moves_step size injectStation b e).created_cases hq with hnone | ⟨c, hnew⟩
      · rw [hnone]
        exact ⟨rfl, rfl, rfl⟩
      · rw [hnew]
        exact ⟨⟨c, rfl⟩, .nil⟩
    | some q =>
      obtain ⟨q', hq', hturn⟩ := (moves_step size injectStation b e).exists_turn hq
      rw [hq] at ih
      obtain ⟨⟨c, hsize⟩, hpassed⟩ := ih
      rw [hq']
      exact ⟨⟨c, hturn.maxsize_eq.trans hsize⟩, hturn.passed hpassed⟩

/-- At any time of any run, a queue with a bound holds the last messages that
were fanned out to it since it was made, its subscriber has taken messages of
them in order, and what happens to it next drops nothing but the oldest message
of a full queue, for the one that is fanned out to it. -/
theorem drops_oldest (size : Channel → Nat) (hsize : ∀ c, 0 < size c)
    (injectStation : String → String → String) (events : List Event) (queue : Nat)
    (q : BoundedQueue String)
    (hq : (run (step size injectStation) {} events).queues queue = some q) :
    DropsOldest (outputs (step size injectStation) (sent injectStation queue) {} events)
        (outputs (step size injectStation) (popped queue) {} events)
        (outputs (step size injectStation) (dropped injectStation queue) {} events) q ∧
      ∀ e, ∃ q', (run (step size injectStation) {} (events ++ [e])).queues queue = some q' ∧
        Turn q q' (sent injectStation queue (run (step size injectStation) {} events) e)
          (popped queue (run (step size injectStation) {} events) e)
          (dropped injectStation queue (run (step size injectStation) {} events) e) := by
  have haccounted := accounted_run size injectStation queue events
  rw [hq] at haccounted
  obtain ⟨⟨c, hmaxsize⟩, hpassed⟩ := haccounted
  have horder : (outputs (step size injectStation) (popped queue) {} events).Sublist
      (outputs (step size injectStation) (sent injectStation queue) {} events) := by
    obtain ⟨gone, hsent, hpopped, -⟩ := hpassed
    rw [hsent]
    exact hpopped.trans (List.sublist_append_left gone _)
  refine ⟨⟨?_, ?_, horder, fun hsent => hsent.sublist horder, hpassed⟩, fun e => ?_⟩
  · obtain ⟨gone, hsent, -⟩ := hpassed
    exact ⟨gone, hsent.symm⟩
  · exact q.length_le (hmaxsize ▸ hsize c)
  · rw [run_concat]
    exact (moves_step size injectStation _ e).exists_turn hq

/-- Two subscribers of a station, of whom one takes a message after the third
was fanned out to a queue for two. -/
def threeMessages : List Event :=
  [.subscribe "s1" 0 0, .receive 0 "s1" "a", .subscribe "s1" 1 1, .receive 0 "s1" "b",
    .receive 0 "s1" "c", .pop 0]

def queueForTwo : BoundedQueue String := ⟨2, ["c"], by decide⟩

theorem drops_oldest_threeMessages :
    DropsOldest ["a", "b", "c"] ["b"] ["a"] queueForTwo := by
  have hqueue : (run (step (fun _ => 2) fun data _ => data) {} threeMessages).queues 0 =
      some queueForTwo := by
    rfl
  exact (drops_oldest (fun _ => 2) (fun _ => Nat.succ_pos 1) (fun data _ => data) threeMessages 0
    queueForTwo hqueue).1

end DustMonitoring.Dumopro.Broadcaster
