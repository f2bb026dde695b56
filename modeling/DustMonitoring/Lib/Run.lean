import Mathlib.Data.List.Basic
import Mathlib.Data.List.Induction
import Mathlib.Data.List.TakeDrop

/-!
# Runs of a deterministic transition system

A system is a total step function `step : σ → ε → σ`.  An event that is
not enabled in a state leaves the state as it is, so every list of events
is a run, and "every reachable state" is "the state after any list of
events".

Two things are packaged once, so that no proof about a particular system
repeats the induction on the run:

* `run_invariant` lifts a step lemma to runs.  `run_invariant_of_allSteps`
  does the same when the step lemma needs a condition that every step of
  the run meets.
* `AllSteps` says a property of every step of a run, and `allSteps_iff`
  reads it as a statement about the prefixes of the run.

`withHistory` records beside the state what a run has done so far, and
`outputs` collects what the steps of a run put out.
-/

namespace DustMonitoring.Lib

variable {σ ε α : Type*}

/-- The state after the events. -/
def run (step : σ → ε → σ) (s : σ) (es : List ε) : σ := es.foldl step s

@[simp] theorem run_nil (step : σ → ε → σ) (s : σ) : run step s [] = s := rfl

@[simp] theorem run_cons (step : σ → ε → σ) (s : σ) (e : ε) (es : List ε) :
    run step s (e :: es) = run step (step s e) es := rfl

theorem run_append (step : σ → ε → σ) (s : σ) (es fs : List ε) :
    run step s (es ++ fs) = run step (run step s es) fs := by
  simp [run, List.foldl_append]

theorem run_concat (step : σ → ε → σ) (s : σ) (es : List ε) (e : ε) :
    run step s (es ++ [e]) = step (run step s es) e := by
  simp [run_append]

/-- A run over blocks of events, one block after the other. -/
theorem run_flatMap {ι : Type*} (step : σ → ε → σ) (f : ι → List ε) (s : σ)
    (is : List ι) :
    run step s (is.flatMap f) = is.foldl (fun t i => run step t (f i)) s := by
  induction is generalizing s with
  | nil => rfl
  | cons i is ih => rw [List.flatMap_cons, run_append, ih, List.foldl_cons]

/-- An element of two lists put together is in the first or in the second. -/
theorem append_eq_append_cons {xs ys pre post : List α} {c : α}
    (h : xs ++ ys = pre ++ c :: post) :
    (∃ as, xs = pre ++ c :: as ∧ post = as ++ ys) ∨
      ∃ as, pre = xs ++ as ∧ ys = as ++ c :: post := by
  rcases List.append_eq_append_iff.mp h with ⟨as, hpre, hys⟩ | ⟨as, hxs, hpost⟩
  · exact Or.inr ⟨as, hpre, hys⟩
  · cases as with
    | nil => exact Or.inr ⟨[], by simpa using hxs.symm, hpost.symm⟩
    | cons a as =>
      obtain ⟨rfl, hrest⟩ := List.cons.inj hpost
      exact Or.inl ⟨as, hxs, hrest⟩

/-! ## Invariants -/

/-- What every step keeps holds of every reachable state. -/
theorem run_invariant {step : σ → ε → σ} {Inv : σ → Prop}
    (hstep : ∀ s e, Inv s → Inv (step s e)) {s : σ} (h : Inv s)
    (es : List ε) : Inv (run step s es) := by
  induction es generalizing s with
  | nil => exact h
  | cons e es ih => exact ih (hstep s e h)

/-- `run_invariant` for what the events of the run keep. -/
theorem run_invariant_of_mem {step : σ → ε → σ} {Inv : σ → Prop} {es : List ε}
    (hstep : ∀ s, ∀ e ∈ es, Inv s → Inv (step s e)) {s : σ} (h : Inv s) :
    Inv (run step s es) := by
  induction es generalizing s with
  | nil => exact h
  | cons e es ih =>
    exact ih (fun s x hx => hstep s x (List.mem_cons_of_mem e hx))
      (hstep s e List.mem_cons_self h)

/-- What one event of a run brings about and none undoes holds after the
run. -/
theorem run_of_mem {step : σ → ε → σ} {D : σ → Prop} {e : ε} {es : List ε}
    (hdo : ∀ s, D (step s e)) (hkeep : ∀ s, ∀ x ∈ es, D s → D (step s x))
    (he : e ∈ es) (s : σ) : D (run step s es) := by
  obtain ⟨pre, post, rfl⟩ := List.append_of_mem he
  rw [run_append, run_cons]
  refine run_invariant_of_mem (fun t x hx => hkeep t x ?_) (hdo _)
  exact List.mem_append_right pre (List.mem_cons_of_mem e hx)

/-- What no step changes is the same at both ends of a run. -/
theorem run_eq (step : σ → ε → σ) (f : σ → α)
    (hstep : ∀ s e, f (step s e) = f s) (s : σ) (es : List ε) :
    f (run step s es) = f s := by
  have hkeeps : ∀ t e, f t = f s → f (step t e) = f s :=
    fun t e h => (hstep t e).trans h
  exact run_invariant hkeeps rfl es

/-- A reflexive and transitive relation that every step is in relates the
two ends of a run. -/
theorem run_rel {step : σ → ε → σ} {R : σ → σ → Prop}
    (hrefl : ∀ s, R s s) (htrans : ∀ s t u, R s t → R t u → R s u)
    (hstep : ∀ s e, R s (step s e)) (s : σ) (es : List ε) :
    R s (run step s es) := by
  induction es generalizing s with
  | nil => exact hrefl s
  | cons e es ih => exact htrans _ _ _ (hstep s e) (ih (step s e))

/-- A measure that goes down with every step of a system that has not
finished bounds the length of its runs. -/
theorem run_finishes {step : σ → ε → σ} {Done : σ → Prop} (μ : σ → Nat)
    (hkeep : ∀ s e, Done s → Done (step s e))
    (hdown : ∀ s e, ¬ Done s → μ (step s e) < μ s) {s : σ} {es : List ε}
    (hlen : μ s < es.length) : Done (run step s es) := by
  induction es generalizing s with
  | nil => exact absurd hlen (Nat.not_lt_zero _)
  | cons e es ih =>
    by_cases hs : Done s
    · exact run_invariant hkeep (hkeep s e hs) es
    · have hlt := hdown s e hs
      rw [List.length_cons] at hlen
      exact ih (by omega)

/-! ## Conditions on the steps of a run -/

/-- `P` holds of every step of the run: of the state before it and its
event. -/
def AllSteps (step : σ → ε → σ) (P : σ → ε → Prop) : σ → List ε → Prop
  | _, [] => True
  | s, e :: es => P s e ∧ AllSteps step P (step s e) es

@[simp] theorem allSteps_cons (step : σ → ε → σ) (P : σ → ε → Prop) (s : σ)
    (e : ε) (es : List ε) :
    AllSteps step P s (e :: es) ↔ P s e ∧ AllSteps step P (step s e) es :=
  Iff.rfl

instance decidableAllSteps {step : σ → ε → σ} {P : σ → ε → Prop}
    [∀ s e, Decidable (P s e)] :
    ∀ s es, Decidable (AllSteps step P s es)
  | _, [] => isTrue trivial
  | s, e :: es =>
    have := @decidableAllSteps step P _ (step s e) es
    inferInstanceAs (Decidable (P s e ∧ AllSteps step P (step s e) es))

/-- A condition on every step is a condition on the state after every
prefix and the event that follows it. -/
theorem allSteps_iff {step : σ → ε → σ} {P : σ → ε → Prop} {s : σ}
    {es : List ε} :
    AllSteps step P s es ↔
      ∀ pre e post, es = pre ++ e :: post → P (run step s pre) e := by
  induction es generalizing s with
  | nil =>
    refine ⟨fun _ pre e post h => ?_, fun _ => trivial⟩
    exact absurd h.symm (by simp)
  | cons x xs ih =>
    rw [allSteps_cons, ih]
    constructor
    · rintro ⟨hx, hxs⟩ pre e post h
      cases pre with
      | nil =>
        obtain ⟨rfl, -⟩ := List.cons.inj h
        exact hx
      | cons y ys =>
        obtain ⟨rfl, h'⟩ := List.cons.inj h
        exact hxs ys e post h'
    · intro h
      refine ⟨h [] x xs rfl, fun pre e post hxs => ?_⟩
      exact h (x :: pre) e post (by rw [hxs, List.cons_append])

/-- A condition on the events alone. -/
theorem allSteps_const_iff {step : σ → ε → σ} {Q : ε → Prop} {s : σ} {es : List ε} :
    AllSteps step (fun _ e => Q e) s es ↔ ∀ e ∈ es, Q e := by
  induction es generalizing s with
  | nil => exact iff_of_true trivial (by simp)
  | cons e es ih => rw [allSteps_cons, ih, List.forall_mem_cons]

theorem allSteps_append {step : σ → ε → σ} {P : σ → ε → Prop} {s : σ}
    {es fs : List ε} :
    AllSteps step P s (es ++ fs) ↔
      AllSteps step P s es ∧ AllSteps step P (run step s es) fs := by
  induction es generalizing s with
  | nil => exact (and_iff_right trivial).symm
  | cons e es ih =>
    rw [List.cons_append, allSteps_cons, allSteps_cons, ih, and_assoc]
    exact Iff.rfl

/-- What every step that meets the condition keeps holds after every run
whose steps all meet it. -/
theorem run_invariant_of_allSteps {step : σ → ε → σ} {P : σ → ε → Prop}
    {Inv : σ → Prop} (hstep : ∀ s e, Inv s → P s e → Inv (step s e)) {s : σ}
    (h : Inv s) {es : List ε} (hall : AllSteps step P s es) :
    Inv (run step s es) := by
  induction es generalizing s with
  | nil => exact h
  | cons e es ih => exact ih (hstep s e h hall.1) hall.2

/-- What a condition gives at every step that keeps an invariant holds of
every step of a run whose steps meet the condition. -/
theorem AllSteps.imp {step : σ → ε → σ} {P Q : σ → ε → Prop} (Inv : σ → Prop)
    (hstep : ∀ s e, Inv s → P s e → Inv (step s e))
    (himp : ∀ s e, Inv s → P s e → Q s e) {s : σ} (h : Inv s) {es : List ε}
    (hall : AllSteps step P s es) : AllSteps step Q s es := by
  induction es generalizing s with
  | nil => trivial
  | cons e es ih =>
    exact ⟨himp s e h hall.1, ih (hstep s e h hall.1) hall.2⟩

/-- Where the steps that meet the condition keep an invariant, and the others
end in a state that is not good, a run is good in every state exactly when all
its steps meet the condition. -/
theorem forall_prefix_good_iff {step : σ → ε → σ} {P : σ → ε → Prop} {Inv Good : σ → Prop}
    (hgood : ∀ s, Inv s → Good s) (hkeep : ∀ s e, Inv s → P s e → Inv (step s e))
    (hfail : ∀ s e, Inv s → Good (step s e) → P s e) {s : σ} (h : Inv s) (es : List ε) :
    (∀ pre, pre <+: es → Good (run step s pre)) ↔ AllSteps step P s es := by
  induction es generalizing s with
  | nil =>
    refine ⟨fun _ => trivial, fun _ pre hpre => ?_⟩
    rw [List.prefix_nil.mp hpre]
    exact hgood s h
  | cons e es ih =>
    rw [allSteps_cons]
    constructor
    · intro hall
      have hnext : Good (step s e) := hall [e] ((List.prefix_cons_inj e).mpr es.nil_prefix)
      have he := hfail s e h hnext
      refine ⟨he, (ih (hkeep s e h he)).mp fun pre hpre => ?_⟩
      exact hall (e :: pre) ((List.prefix_cons_inj e).mpr hpre)
    · rintro ⟨he, hes⟩ pre hpre
      cases pre with
      | nil => exact hgood s h
      | cons x pre =>
        obtain ⟨rfl, hpre'⟩ := List.cons_prefix_cons.mp hpre
        exact (ih (hkeep s x h he)).mpr hes pre hpre'

/-- `forall_prefix_good_iff` for the invariant itself. -/
theorem forall_prefix_iff_allSteps {step : σ → ε → σ} {P : σ → ε → Prop}
    {Inv : σ → Prop} (hstep : ∀ s e, Inv s → (Inv (step s e) ↔ P s e)) {s : σ}
    (h : Inv s) (es : List ε) :
    (∀ pre, pre <+: es → Inv (run step s pre)) ↔ AllSteps step P s es :=
  forall_prefix_good_iff (fun _ hs => hs) (fun s e hs => (hstep s e hs).mpr)
    (fun s e hs => (hstep s e hs).mp) h es

/-- The events of a run are its own. -/
theorem AllSteps.and_mem {step : σ → ε → σ} {P : σ → ε → Prop} {s : σ}
    {es : List ε} (h : AllSteps step P s es) :
    AllSteps step (fun s e => P s e ∧ e ∈ es) s es := by
  rw [allSteps_iff] at h ⊢
  intro pre e post hes
  refine ⟨h pre e post hes, ?_⟩
  rw [hes]
  exact List.mem_append_right pre List.mem_cons_self

/-! ## History -/

/-- A step beside which a history is kept.  `note` reads the state before
the step and its event. -/
def withHistory {η : Type*} (step : σ → ε → σ) (note : σ → ε → η → η)
    (p : σ × η) (e : ε) : σ × η :=
  (step p.1 e, note p.1 e p.2)

/-- The history does not change the run. -/
@[simp] theorem fst_run_withHistory {η : Type*} (step : σ → ε → σ)
    (note : σ → ε → η → η) (p : σ × η) (es : List ε) :
    (run (withHistory step note) p es).1 = run step p.1 es := by
  induction es generalizing p with
  | nil => rfl
  | cons e es ih => exact ih (withHistory step note p e)

/-- A condition on the steps of the run, whatever the history. -/
theorem allSteps_withHistory {η : Type*} {step : σ → ε → σ}
    {P : σ → ε → Prop} (note : σ → ε → η → η) (p : σ × η) {es : List ε}
    (h : AllSteps step P p.1 es) :
    AllSteps (withHistory step note) (fun q e => P q.1 e) p es := by
  induction es generalizing p with
  | nil => trivial
  | cons e es ih => exact ⟨h.1, ih (withHistory step note p e) h.2⟩

/-- What every event keeps of a run and of the events that led to it. -/
theorem run_history {step : σ → ε → σ} {s : σ} {Inv : List ε → σ → Prop} (h : Inv [] s)
    (hstep : ∀ es e, Inv es (run step s es) → Inv (es ++ [e]) (step (run step s es) e))
    (es : List ε) : Inv es (run step s es) := by
  induction es using List.reverseRecOn with
  | nil => exact h
  | append_singleton es e ih =>
    rw [run_concat]
    exact hstep es e ih

/-- At some moment of the run the state satisfies `P`. -/
def Sometime (step : σ → ε → σ) (P : σ → Prop) (s : σ) (es : List ε) : Prop :=
  ∃ pre post, es = pre ++ post ∧ P (run step s pre)

/-- What held once has held, however the run goes on. -/
theorem Sometime.append {step : σ → ε → σ} {P : σ → Prop} {s : σ} {es : List ε}
    (h : Sometime step P s es) (fs : List ε) : Sometime step P s (es ++ fs) := by
  obtain ⟨pre, post, rfl, hP⟩ := h
  exact ⟨pre, post ++ fs, List.append_assoc pre post fs, hP⟩

theorem Sometime.mono {step : σ → ε → σ} {P Q : σ → Prop} (hPQ : ∀ s, P s → Q s) {s : σ}
    {es : List ε} (h : Sometime step P s es) : Sometime step Q s es := by
  obtain ⟨pre, post, hes, hP⟩ := h
  exact ⟨pre, post, hes, hPQ _ hP⟩

/-! ## Outputs -/

/-- What the steps of a run put out, in order. -/
def outputs (step : σ → ε → σ) (out : σ → ε → List α) : σ → List ε → List α
  | _, [] => []
  | s, e :: es => out s e ++ outputs step out (step s e) es

theorem outputs_append (step : σ → ε → σ) (out : σ → ε → List α) (s : σ)
    (es fs : List ε) :
    outputs step out s (es ++ fs) =
      outputs step out s es ++ outputs step out (run step s es) fs := by
  induction es generalizing s with
  | nil => rfl
  | cons e es ih =>
    rw [List.cons_append, outputs, ih, outputs, List.append_assoc]
    rfl

/-- What a step of a run puts out is in what the run puts out. -/
theorem allSteps_mem_outputs (step : σ → ε → σ) (out : σ → ε → List α) (s : σ) (es : List ε) :
    AllSteps step (fun t e => ∀ a ∈ out t e, a ∈ outputs step out s es) s es := by
  rw [allSteps_iff]
  intro pre e post hes a ha
  rw [hes, outputs_append]
  exact List.mem_append_right _ (List.mem_append_left _ ha)

/-- Where every step changes a part of the state by what it puts out, a run
changes it by what it has put out. -/
theorem run_outputs {τ : Type*} {step : σ → ε → σ} {out : σ → ε → List α} {apply : τ → α → τ}
    {part : σ → τ} (h : ∀ s e, part (step s e) = run apply (part s) (out s e)) (s : σ)
    (es : List ε) : part (run step s es) = run apply (part s) (outputs step out s es) := by
  induction es generalizing s with
  | nil => rfl
  | cons e es ih => rw [run_cons, ih, h, outputs, run_append]

/-- What a part of the state puts out on what it is given. -/
theorem outputs_outputs {τ β : Type*} {step : σ → ε → σ} {out : σ → ε → List α}
    {apply : τ → α → τ} (part : σ → τ) (h : ∀ s e, part (step s e) = run apply (part s) (out s e))
    (put : τ → α → List β) (s : σ) (es : List ε) :
    outputs apply put (part s) (outputs step out s es) =
      outputs step (fun s e => outputs apply put (part s) (out s e)) s es := by
  induction es generalizing s with
  | nil => rfl
  | cons e es ih => rw [outputs, outputs_append, ← h, ih, outputs]

/-- What every step keeps, of the state and of what was put out so far, holds of
a run and all that it puts out. -/
theorem outputs_invariant {step : σ → ε → σ} {out : σ → ε → List α} (Inv : σ → List α → Prop)
    (hstep : ∀ s as e, Inv s as → Inv (step s e) (as ++ out s e)) {s : σ} (h : Inv s [])
    (es : List ε) : Inv (run step s es) (outputs step out s es) := by
  have hgeneral : ∀ es s as, Inv s as → Inv (run step s es) (as ++ outputs step out s es) := by
    intro es
    induction es with
    | nil =>
      intro s as has
      rw [outputs, List.append_nil]
      exact has
    | cons e es ih =>
      intro s as has
      rw [run_cons, outputs, ← List.append_assoc]
      exact ih _ _ (hstep s as e has)
  exact hgeneral es s [] h

/-- A measure that every step lets go up by what it puts out bounds what a run
puts out. -/
theorem add_length_outputs_le {step : σ → ε → σ} {out : σ → ε → List α} {P : σ → ε → Prop}
    {Inv : σ → Prop} (μ : σ → Nat) (b : Nat)
    (hinv : ∀ s e, Inv s → P s e → Inv (step s e))
    (hup : ∀ s e, Inv s → P s e → μ s + b * (out s e).length ≤ μ (step s e)) {s : σ}
    (h : Inv s) {es : List ε} (hall : AllSteps step P s es) :
    μ s + b * (outputs step out s es).length ≤ μ (run step s es) := by
  induction es generalizing s with
  | nil => simp [outputs]
  | cons e es ih =>
    have hstep := hup s e h hall.1
    have hrest := ih (hinv s e h hall.1) hall.2
    rw [outputs, List.length_append, Nat.mul_add, run_cons]
    omega

/-! ## Balances -/

/-- The sum of an amount over the steps of a run. -/
def total (step : σ → ε → σ) (f : σ → ε → Nat) : σ → List ε → Nat
  | _, [] => 0
  | s, e :: es => f s e + total step f (step s e) es

/-- A balance of every step is a balance of every run. -/
theorem run_balance {step : σ → ε → σ} (μ : σ → Nat) {gain loss : σ → ε → Nat}
    (h : ∀ s e, μ (step s e) + loss s e = μ s + gain s e) (s : σ) (es : List ε) :
    μ (run step s es) + total step loss s es = μ s + total step gain s es := by
  induction es generalizing s with
  | nil => rfl
  | cons e es ih =>
    have hstep := h s e
    have hrest := ih (step s e)
    rw [run_cons, total, total]
    omega

/-- Amounts that are the same at every step that keeps an invariant have the same
sum. -/
theorem total_congr {step : σ → ε → σ} {f g : σ → ε → Nat} (Inv : σ → Prop)
    (hstep : ∀ s e, Inv s → Inv (step s e)) (heq : ∀ s e, Inv s → f s e = g s e) {s : σ}
    (h : Inv s) (es : List ε) : total step f s es = total step g s es := by
  induction es generalizing s with
  | nil => rfl
  | cons e es ih => rw [total, total, heq s e h, ih (hstep s e h)]

theorem total_add (step : σ → ε → σ) (f g : σ → ε → Nat) (s : σ) (es : List ε) :
    total step (fun t e => f t e + g t e) s es = total step f s es + total step g s es := by
  induction es generalizing s with
  | nil => rfl
  | cons e es ih =>
    rw [total, total, total, ih]
    omega

/-- The sum of an amount over a list. -/
def sumOver (f : α → Nat) : List α → Nat
  | [] => 0
  | a :: as => f a + sumOver f as

theorem sumOver_append (f : α → Nat) (as bs : List α) :
    sumOver f (as ++ bs) = sumOver f as + sumOver f bs := by
  induction as with
  | nil => exact (Nat.zero_add _).symm
  | cons a as ih =>
    rw [List.cons_append, sumOver, sumOver, ih]
    omega

theorem sumOver_ite (p : α → Bool) (as : List α) :
    sumOver (fun a => if p a then 1 else 0) as = (as.filter p).length := by
  induction as with
  | nil => rfl
  | cons a as ih =>
    rw [sumOver, ih, List.filter_cons]
    split
    · rw [List.length_cons, Nat.add_comm]
    · exact Nat.zero_add _

/-- The sum over what a run puts out, step by step. -/
theorem total_sumOver (step : σ → ε → σ) (out : σ → ε → List α) (f : α → Nat) (s : σ)
    (es : List ε) :
    total step (fun t e => sumOver f (out t e)) s es = sumOver f (outputs step out s es) := by
  induction es generalizing s with
  | nil => rfl
  | cons e es ih => rw [total, outputs, sumOver_append, ih]

theorem total_length_outputs (step : σ → ε → σ) (out : σ → ε → List α) (s : σ) (es : List ε) :
    total step (fun t e => (out t e).length) s es = (outputs step out s es).length := by
  induction es generalizing s with
  | nil => rfl
  | cons e es ih => rw [total, outputs, List.length_append, ih]

section Once

variable {step : σ → ε → σ} {out : σ → ε → List α} {Inv : σ → Prop}
  {done : σ → α → Prop}

/-- What a run puts out was not done before the run. -/
theorem not_done_of_mem_outputs (hinv : ∀ s e, Inv s → Inv (step s e))
    (hfresh : ∀ s e a, Inv s → a ∈ out s e → ¬ done s a)
    (hmono : ∀ s e a, Inv s → done s a → done (step s e) a) {s : σ}
    (h : Inv s) {es : List ε} {a : α} (ha : a ∈ outputs step out s es) :
    ¬ done s a := by
  induction es generalizing s with
  | nil => exact absurd ha List.not_mem_nil
  | cons e es ih =>
    rcases List.mem_append.mp ha with ha | ha
    · exact hfresh s e a h ha
    · intro hdone
      exact ih (hinv s e h) ha (hmono s e a h hdone)

/-- If a step puts out only what is not done yet, and what it puts out is
done from then on, a run puts nothing out twice. -/
theorem nodup_outputs (Inv : σ → Prop) (done : σ → α → Prop)
    (hinv : ∀ s e, Inv s → Inv (step s e))
    (hnodup : ∀ s e, Inv s → (out s e).Nodup)
    (hfresh : ∀ s e a, Inv s → a ∈ out s e → ¬ done s a)
    (hdone : ∀ s e a, Inv s → a ∈ out s e → done (step s e) a)
    (hmono : ∀ s e a, Inv s → done s a → done (step s e) a) {s : σ}
    (h : Inv s) (es : List ε) : (outputs step out s es).Nodup := by
  induction es generalizing s with
  | nil => exact List.nodup_nil
  | cons e es ih =>
    have htail := ih (hinv s e h)
    refine List.nodup_append.mpr ⟨hnodup s e h, htail, ?_⟩
    intro a ha b hb hab
    have hnot := not_done_of_mem_outputs hinv hfresh hmono (hinv s e h) hb
    exact hnot (hab ▸ hdone s e a h ha)

end Once

end DustMonitoring.Lib
