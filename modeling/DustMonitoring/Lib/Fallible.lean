import Mathlib.Data.List.Basic

/-!
# Steps that may fail

A step `σ → α → Except σ σ` that fails leaves the state that it has reached,
and the steps after it are not made (`List.foldlM`).

* `bind_eq_ok`: two steps in a row succeed exactly when each of them does.
* `exists_foldlM_ok_iff`: when it only depends on the item whether a step
  fails, all steps are made exactly when none of the items makes one fail.
* `reached_foldlM_eq`: what no step changes is as it was, also after a failure.
* `foldlM_failAt_cases`: all steps are made, or those before the first item that
  makes one fail.
-/

namespace DustMonitoring.Lib

variable {σ α β : Type}

/-- The state that was reached. -/
def reached : Except σ σ → σ
  | .ok s => s
  | .error s => s

@[simp] theorem reached_ok (s : σ) : reached (.ok s : Except σ σ) = s := rfl

theorem bind_eq_ok {ε α β : Type} {m : Except ε α} {f : α → Except ε β} {b : β} :
    (m >>= f) = .ok b ↔ ∃ a, m = .ok a ∧ f a = .ok b := by
  cases m with
  | error e =>
    constructor
    · intro h
      cases h
    · rintro ⟨_, h, -⟩
      cases h
  | ok a =>
    refine ⟨fun h => ⟨a, rfl, h⟩, ?_⟩
    rintro ⟨_, ha, h⟩
    exact Except.ok.inj ha ▸ h

section Fold

variable {step : σ → α → Except σ σ} {Fails : α → Prop}

theorem exists_foldlM_ok_iff
    (hstep : ∀ s a, (∃ s', step s a = .ok s') ↔ ¬ Fails a) (items : List α) (s : σ) :
    (∃ s', items.foldlM step s = .ok s') ↔ ∀ a ∈ items, ¬ Fails a := by
  induction items generalizing s with
  | nil => exact iff_of_true ⟨s, rfl⟩ (by simp)
  | cons a items ih =>
    rw [List.foldlM_cons, List.forall_mem_cons, ← hstep s a]
    cases hs : step s a with
    | error s' =>
      refine iff_of_false ?_ ?_
      · rintro ⟨_, h⟩
        cases h
      · rintro ⟨⟨_, h⟩, -⟩
        cases h
    | ok s' =>
      show (∃ r, items.foldlM step s' = .ok r) ↔ _
      rw [ih s']
      exact (and_iff_right ⟨s', rfl⟩).symm

theorem reached_foldlM_eq (f : σ → β) (hstep : ∀ s a, f (reached (step s a)) = f s)
    (items : List α) (s : σ) : f (reached (items.foldlM step s)) = f s := by
  induction items generalizing s with
  | nil => rfl
  | cons a items ih =>
    rw [List.foldlM_cons, ← hstep s a]
    cases step s a with
    | error s' => rfl
    | ok s' => exact ih s'

end Fold

section FailAt

variable (fails : α → Bool) (fail step : σ → α → σ)

/-- The step, unless the item makes it fail. -/
def failAt (s : σ) (a : α) : Except σ σ :=
  if fails a then .error (fail s a) else .ok (step s a)

variable {fails fail step}

theorem foldlM_failAt_of_forall {items : List α} (h : ∀ a ∈ items, fails a = false) (s : σ) :
    items.foldlM (failAt fails fail step) s = .ok (items.foldl step s) := by
  induction items generalizing s with
  | nil => rfl
  | cons a items ih =>
    obtain ⟨ha, hitems⟩ := List.forall_mem_cons.mp h
    rw [List.foldlM_cons, failAt, ha]
    exact ih hitems (step s a)

theorem foldlM_failAt_of_fails {done rest : List α} {a : α} (h : ∀ b ∈ done, fails b = false)
    (ha : fails a = true) (s : σ) :
    (done ++ a :: rest).foldlM (failAt fails fail step) s =
      .error (fail (done.foldl step s) a) := by
  rw [List.foldlM_append, foldlM_failAt_of_forall h]
  show (a :: rest).foldlM (failAt fails fail step) (done.foldl step s) = _
  rw [List.foldlM_cons, failAt, ha]
  rfl

theorem foldlM_failAt_cases (items : List α) (s : σ) :
    ((∀ a ∈ items, fails a = false) ∧
      items.foldlM (failAt fails fail step) s = .ok (items.foldl step s)) ∨
    ∃ done a rest, items = done ++ a :: rest ∧ (∀ b ∈ done, fails b = false) ∧ fails a = true ∧
      items.foldlM (failAt fails fail step) s = .error (fail (done.foldl step s) a) := by
  cases hfind : items.find? fails with
  | none =>
    have hnone : ∀ a ∈ items, fails a = false := fun a ha =>
      Bool.eq_false_iff.mpr (List.find?_eq_none.mp hfind a ha)
    exact Or.inl ⟨hnone, foldlM_failAt_of_forall hnone s⟩
  | some a =>
    obtain ⟨ha, done, rest, rfl, hdone⟩ := List.find?_eq_some_iff_append.mp hfind
    have hdone : ∀ b ∈ done, fails b = false := fun b hb => by simpa using hdone b hb
    exact Or.inr ⟨done, a, rest, rfl, hdone, ha, foldlM_failAt_of_fails hdone ha s⟩

end FailAt

end DustMonitoring.Lib
