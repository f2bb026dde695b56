import Mathlib.Data.List.Basic
import Mathlib.Data.List.Perm.Basic

/-!
# Bounded queues

A queue that holds so many items at most, and any number of them if its size
is 0.  `putNowait` refuses an item when the queue is full; `offer` makes room
for it by dropping the oldest one.

`Passed` says what became of the items that were sent to a queue: it holds the
last ones, and of those before them each one was popped or dropped.

* `items_offer`: what an offer leaves in the queue.
* `Passed.offer`, `Passed.pop`: an offer and a pop keep the account.
-/

namespace DustMonitoring.Lib

variable {α : Type*}

/-- A bounded queue, the oldest item first. -/
structure BoundedQueue (α : Type*) where
  maxsize : Nat
  items : List α
  length_le : 0 < maxsize → items.length ≤ maxsize

namespace BoundedQueue

/-- A queue without items. -/
def empty (maxsize : Nat) : BoundedQueue α := ⟨maxsize, [], fun _ => Nat.zero_le _⟩

/-- There is no room in the queue. -/
def Full (q : BoundedQueue α) : Prop := 0 < q.maxsize ∧ q.maxsize ≤ q.items.length

instance (q : BoundedQueue α) : Decidable q.Full := inferInstanceAs (Decidable (_ ∧ _))

/-- The item goes to the end of the queue, if there is room. -/
def putNowait (q : BoundedQueue α) (a : α) : Option (BoundedQueue α) :=
  if h : q.Full then none
  else
    some
      { maxsize := q.maxsize
        items := q.items ++ [a]
        length_le := fun hpos => by
          rw [List.length_append, List.length_singleton]
          unfold Full at h
          omega }

/-- The oldest item, and the queue without it. -/
def getNowait (q : BoundedQueue α) : Option (α × BoundedQueue α) :=
  q.items.head?.map fun a =>
    (a,
      { maxsize := q.maxsize
        items := q.items.tail
        length_le := fun hpos => by
          rw [List.length_tail]
          have := q.length_le hpos
          omega })

/-- The item is put into the queue, in the place of the oldest one if there is
no room. -/
def offer (q : BoundedQueue α) (a : α) : BoundedQueue α :=
  match q.putNowait a with
  | some q' => q'
  | none =>
    match q.getNowait with
    | none => q
    | some (_, rest) => (rest.putNowait a).getD rest

/-- What an offer drops. -/
def overflow (q : BoundedQueue α) : List α := if q.Full then q.items.take 1 else []

theorem putNowait_of_full {q : BoundedQueue α} (h : q.Full) (a : α) : q.putNowait a = none :=
  dif_pos h

theorem exists_putNowait {q : BoundedQueue α} (h : ¬ q.Full) (a : α) :
    ∃ q', q.putNowait a = some q' ∧ q'.items = q.items ++ [a] ∧ q'.maxsize = q.maxsize :=
  ⟨_, dif_neg h, rfl, rfl⟩

theorem getNowait_eq_none_iff {q : BoundedQueue α} : q.getNowait = none ↔ q.items = [] := by
  simp [getNowait]

theorem getNowait_eq_some {q rest : BoundedQueue α} {a : α} (h : q.getNowait = some (a, rest)) :
    q.items = a :: rest.items ∧ rest.maxsize = q.maxsize := by
  unfold getNowait at h
  cases hitems : q.items with
  | nil => simp [hitems] at h
  | cons b items =>
    simp only [hitems, List.head?_cons, Option.map_some, Option.some.injEq, Prod.mk.injEq] at h
    obtain ⟨rfl, rfl⟩ := h
    exact ⟨by simp, rfl⟩

/-- A full queue loses its oldest item, any other one nothing. -/
theorem offer_cases (q : BoundedQueue α) (a : α) :
    (q.offer a).maxsize = q.maxsize ∧
      (¬ q.Full ∧ (q.offer a).items = q.items ++ [a] ∨
        q.Full ∧ ∃ oldest rest, q.items = oldest :: rest ∧ (q.offer a).items = rest ++ [a]) := by
  unfold offer
  by_cases hfull : q.Full
  · rw [putNowait_of_full hfull]
    cases hget : q.getNowait with
    | none =>
      rw [getNowait_eq_none_iff] at hget
      rw [Full, hget, List.length_nil] at hfull
      omega
    | some p =>
      obtain ⟨oldest, rest⟩ := p
      obtain ⟨hitems, hsize⟩ := getNowait_eq_some hget
      have hroom : ¬ rest.Full := by
        have hle := q.length_le hfull.1
        rw [hitems, List.length_cons] at hle
        rw [Full, hsize]
        omega
      obtain ⟨q', hput, hitems', hsize'⟩ := exists_putNowait hroom a
      simp only [hput, Option.getD_some]
      exact ⟨hsize'.trans hsize, Or.inr ⟨hfull, oldest, rest.items, hitems, hitems'⟩⟩
  · obtain ⟨q', hput, hitems, hsize⟩ := exists_putNowait hfull a
    simp only [hput]
    exact ⟨hsize, Or.inl ⟨hfull, hitems⟩⟩

theorem getLast?_offer (q : BoundedQueue α) (a : α) :
    (q.offer a).items.getLast? = some a := by
  obtain ⟨-, ⟨-, h⟩ | ⟨-, _, _, -, h⟩⟩ := offer_cases q a
  · rw [h, List.getLast?_concat]
  · rw [h, List.getLast?_concat]

end BoundedQueue

/-! ## What has passed through a queue -/

/-- The items that were sent are those that are gone and then those in the
queue; of the ones that are gone, in their order, each was popped or
dropped. -/
def Passed (sent popped dropped items : List α) : Prop :=
  ∃ gone, sent = gone ++ items ∧ popped.Sublist gone ∧ dropped.Sublist gone ∧
    (popped ++ dropped).Perm gone

namespace Passed

variable {sent popped dropped items : List α} {a : α}

theorem nil : Passed ([] : List α) [] [] [] :=
  ⟨[], rfl, List.Sublist.refl _, List.Sublist.refl _, List.Perm.refl _⟩

theorem send (h : Passed sent popped dropped items) (a : α) :
    Passed (sent ++ [a]) popped dropped (items ++ [a]) := by
  obtain ⟨gone, rfl, hrest⟩ := h
  exact ⟨gone, List.append_assoc _ _ _, hrest⟩

theorem pop (h : Passed sent popped dropped (a :: items)) :
    Passed sent (popped ++ [a]) dropped items := by
  obtain ⟨gone, rfl, hpopped, hdropped, hperm⟩ := h
  refine ⟨gone ++ [a], by simp, hpopped.append_right [a], hdropped.trans ?_, ?_⟩
  · exact List.sublist_append_left gone [a]
  · have hmove : (popped ++ [a] ++ dropped).Perm (popped ++ dropped ++ [a]) := by
      rw [List.append_assoc, List.append_assoc]
      exact List.Perm.append_left popped List.perm_append_comm
    exact hmove.trans (hperm.append_right [a])

theorem drop (h : Passed sent popped dropped (a :: items)) :
    Passed sent popped (dropped ++ [a]) items := by
  obtain ⟨gone, rfl, hpopped, hdropped, hperm⟩ := h
  refine ⟨gone ++ [a], by simp, hpopped.trans ?_, hdropped.append_right [a], ?_⟩
  · exact List.sublist_append_left gone [a]
  · rw [← List.append_assoc]
    exact hperm.append_right [a]

theorem offer {q : BoundedQueue α} (h : Passed sent popped dropped q.items) (a : α) :
    Passed (sent ++ [a]) popped (dropped ++ q.overflow) (q.offer a).items := by
  obtain ⟨-, ⟨hfull, hitems⟩ | ⟨hfull, oldest, rest, hold, hitems⟩⟩ := q.offer_cases a
  · rw [hitems, BoundedQueue.overflow, if_neg hfull, List.append_nil]
    exact h.send a
  · rw [hold] at h
    rw [hitems, BoundedQueue.overflow, if_pos hfull, hold]
    exact h.drop.send a

end Passed

end DustMonitoring.Lib
