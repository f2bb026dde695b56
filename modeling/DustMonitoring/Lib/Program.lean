import Mathlib.Data.List.Basic

/-!
# Programs that call

A program that asks something outside of it, waits for the answer and goes on,
as the tree of its calls.  An `Exchange` is a call with its answer, and what a
program does is a list of them with the result at the end.

`Meets P Q` is the logic of such programs: whatever the answers are, every call
satisfies `P`, which is told what was exchanged before it, and the result
satisfies `Q`.  `meets_bind` takes a program apart at a bind, and
`Meets.of_follows` reads the logic along one path.

A `Handler` is a program with a state of its own that can raise; its rules are
those of a `do` block with `try` and `catch`.
-/

namespace DustMonitoring.Lib

/-- A program has a result, or it calls and goes on with the answer. -/
inductive Program (κ : Type) (ρ : κ → Type) (α : Type) where
  | done (a : α)
  | call (k : κ) (next : ρ k → Program κ ρ α)

/-- A call with its answer. -/
abbrev Exchange (κ : Type) (ρ : κ → Type) := Σ k, ρ k

namespace Program

variable {κ : Type} {ρ : κ → Type} {α β : Type}

def bind : Program κ ρ α → (α → Program κ ρ β) → Program κ ρ β
  | done a, f => f a
  | call k next, f => call k fun r => (next r).bind f

instance : Monad (Program κ ρ) where
  pure := done
  bind := bind

@[simp] theorem call_bind (k : κ) (next : ρ k → Program κ ρ α) (f : α → Program κ ρ β) :
    (call k next).bind f = call k fun r => (next r).bind f := rfl

/-! ## Paths -/

/-- With these exchanges the first program comes to the second. -/
inductive Follows : Program κ ρ α → List (Exchange κ ρ) → Program κ ρ α → Prop
  | nil (p : Program κ ρ α) : Follows p [] p
  | cons {k : κ} {next : ρ k → Program κ ρ α} (r : ρ k) {t : List (Exchange κ ρ)}
      {q : Program κ ρ α} : Follows (next r) t q → Follows (call k next) (⟨k, r⟩ :: t) q

theorem Follows.append {p q q' : Program κ ρ α} {t t' : List (Exchange κ ρ)}
    (h : Follows p t q) (h' : Follows q t' q') : Follows p (t ++ t') q' := by
  induction h with
  | nil p => exact h'
  | cons r _ ih => exact .cons r (ih h')

/-- One exchange more. -/
theorem Follows.concat {p : Program κ ρ α} {t : List (Exchange κ ρ)} {k : κ}
    {next : ρ k → Program κ ρ α} (h : Follows p t (call k next)) (r : ρ k) :
    Follows p (t ++ [⟨k, r⟩]) (next r) :=
  h.append (.cons r (.nil _))

/-! ## The logic -/

section Meets

variable {P P' : List (Exchange κ ρ) → κ → Prop} {Q Q' : List (Exchange κ ρ) → α → Prop}

/-- After the exchanges `t`, every call of the program satisfies `P` and its
result satisfies `Q`, whatever the answers are. -/
def Meets (P : List (Exchange κ ρ) → κ → Prop) (Q : List (Exchange κ ρ) → α → Prop) :
    List (Exchange κ ρ) → Program κ ρ α → Prop
  | t, done a => Q t a
  | t, call k next => P t k ∧ ∀ r, Meets P Q (t ++ [⟨k, r⟩]) (next r)

@[simp] theorem meets_done {t : List (Exchange κ ρ)} {a : α} :
    Meets P Q t (done a) ↔ Q t a := Iff.rfl

@[simp] theorem meets_call {t : List (Exchange κ ρ)} {k : κ} {next : ρ k → Program κ ρ α} :
    Meets P Q t (call k next) ↔ P t k ∧ ∀ r, Meets P Q (t ++ [⟨k, r⟩]) (next r) := Iff.rfl

/-- A bind meets what its first part meets with what the rest meets as the
condition on the result. -/
theorem meets_bind {Q : List (Exchange κ ρ) → β → Prop} {p : Program κ ρ α}
    {f : α → Program κ ρ β} {t : List (Exchange κ ρ)} :
    Meets P Q t (p.bind f) ↔ Meets P (fun t' a => Meets P Q t' (f a)) t p := by
  induction p generalizing t with
  | done a => exact Iff.rfl
  | call k next ih =>
    rw [call_bind, meets_call, meets_call]
    exact and_congr_right fun _ => forall_congr' fun r => ih r

theorem Meets.mono (hP : ∀ t k, P t k → P' t k) (hQ : ∀ t a, Q t a → Q' t a)
    {p : Program κ ρ α} {t : List (Exchange κ ρ)} (h : Meets P Q t p) : Meets P' Q' t p := by
  induction p generalizing t with
  | done a => exact hQ t a h
  | call k next ih => exact ⟨hP t k h.1, fun r => ih r (h.2 r)⟩

/-- What a program meets, it meets wherever it has come to. -/
theorem Meets.of_follows {p q : Program κ ρ α} {t' : List (Exchange κ ρ)}
    (hpath : Follows p t' q) {t : List (Exchange κ ρ)} (h : Meets P Q t p) :
    Meets P Q (t ++ t') q := by
  induction hpath generalizing t with
  | nil p =>
    rw [List.append_nil]
    exact h
  | @cons k next r t' q _ ih =>
    have hrest := ih (h.2 r)
    rw [List.append_assoc] at hrest
    exact hrest

end Meets

end Program

/-! ## Handlers -/

/-- A program that has a state of the type `σ` and can raise an `ε`.  The state
stays as it is when the program raises. -/
def Handler (κ : Type) (ρ : κ → Type) (ε σ α : Type) : Type :=
  σ → Program κ ρ (Except ε α × σ)

namespace Handler

variable {κ : Type} {ρ : κ → Type} {ε σ α β : Type}

/-- What follows an end: the rest, unless it has raised. -/
def resume (f : α → Handler κ ρ ε σ β) : Except ε α × σ → Program κ ρ (Except ε β × σ)
  | (.ok a, s) => f a s
  | (.error e, s) => .done (.error e, s)

/-- What follows the end of a `try`. -/
def recover (f : ε → Handler κ ρ ε σ α) : Except ε α × σ → Program κ ρ (Except ε α × σ)
  | (.ok a, s) => .done (.ok a, s)
  | (.error e, s) => f e s

instance : Monad (Handler κ ρ ε σ) where
  pure a := fun s => .done (.ok a, s)
  bind h f := fun s => (h s).bind (resume f)

instance : MonadExceptOf ε (Handler κ ρ ε σ) where
  throw e := fun s => .done (.error e, s)
  tryCatch h f := fun s => (h s).bind (recover f)

instance : MonadStateOf σ (Handler κ ρ ε σ) where
  get := fun s => .done (.ok s, s)
  set s := fun _ => .done (.ok (), s)
  modifyGet f := fun s => .done (.ok (f s).1, (f s).2)

/-- What is known without a call. -/
def ofExcept : Except ε α → Handler κ ρ ε σ α
  | .ok a => pure a
  | .error e => throw e

/-- A condition on an end: one on results, and one on exceptions. -/
def Ended {τ : Type} (ok : τ → α → σ → Prop) (error : τ → ε → σ → Prop) :
    τ → Except ε α → σ → Prop
  | t, .ok a, s => ok t a s
  | t, .error e, s => error t e s

/-- Whatever the answers are, from the state `s` the calls satisfy `P` and the
end satisfies `Q`. -/
def Meets (P : List (Exchange κ ρ) → κ → Prop)
    (Q : List (Exchange κ ρ) → Except ε α → σ → Prop) (t : List (Exchange κ ρ))
    (h : Handler κ ρ ε σ α) (s : σ) : Prop :=
  Program.Meets P (fun t' (ending : Except ε α × σ) => Q t' ending.1 ending.2) t (h s)

section Rules

variable {P : List (Exchange κ ρ) → κ → Prop} {Q : List (Exchange κ ρ) → Except ε α → σ → Prop}
  {t : List (Exchange κ ρ)} {s : σ}

@[simp] theorem ended_ok {τ : Type} {t : τ} {ok : τ → α → σ → Prop}
    {error : τ → ε → σ → Prop} {a : α} : Ended ok error t (.ok a) s ↔ ok t a s := Iff.rfl

@[simp] theorem ended_error {τ : Type} {t : τ} {ok : τ → α → σ → Prop}
    {error : τ → ε → σ → Prop} {e : ε} : Ended ok error t (.error e) s ↔ error t e s := Iff.rfl

@[simp] theorem meets_pure {a : α} :
    Meets P Q t (pure a : Handler κ ρ ε σ α) s ↔ Q t (.ok a) s := Iff.rfl

@[simp] theorem meets_throw {e : ε} :
    Meets P Q t (throw e : Handler κ ρ ε σ α) s ↔ Q t (.error e) s := Iff.rfl

@[simp] theorem meets_ofExcept {x : Except ε α} :
    Meets P Q t (ofExcept x : Handler κ ρ ε σ α) s ↔ Q t x s := by
  cases x <;> exact Iff.rfl

@[simp] theorem meets_get {Q : List (Exchange κ ρ) → Except ε σ → σ → Prop} :
    Meets P Q t (get : Handler κ ρ ε σ σ) s ↔ Q t (.ok s) s := Iff.rfl

@[simp] theorem meets_modify {Q : List (Exchange κ ρ) → Except ε Unit → σ → Prop} {f : σ → σ} :
    Meets P Q t (modify f : Handler κ ρ ε σ Unit) s ↔ Q t (.ok ()) (f s) := Iff.rfl

@[simp] theorem meets_bind {Q : List (Exchange κ ρ) → Except ε β → σ → Prop}
    {h : Handler κ ρ ε σ α} {f : α → Handler κ ρ ε σ β} :
    Meets P Q t (h >>= f) s ↔
      Meets P (Ended (fun t' a s' => Meets P Q t' (f a) s') fun t' e s' => Q t' (.error e) s')
        t h s := by
  refine Program.meets_bind.trans (iff_of_eq (congrArg (fun R => Program.Meets P R t (h s)) ?_))
  funext t' ending
  rcases ending with ⟨e | a, s'⟩ <;> rfl

@[simp] theorem meets_tryCatch {h : Handler κ ρ ε σ α} {f : ε → Handler κ ρ ε σ α} :
    Meets P Q t (tryCatch h f) s ↔
      Meets P (Ended (fun t' a s' => Q t' (.ok a) s') fun t' e s' => Meets P Q t' (f e) s')
        t h s := by
  refine Program.meets_bind.trans (iff_of_eq (congrArg (fun R => Program.Meets P R t (h s)) ?_))
  funext t' ending
  rcases ending with ⟨e | a, s'⟩ <;> rfl

theorem Meets.mono {P' : List (Exchange κ ρ) → κ → Prop}
    {Q' : List (Exchange κ ρ) → Except ε α → σ → Prop} (hP : ∀ t k, P t k → P' t k)
    (hQ : ∀ t ending s, Q t ending s → Q' t ending s) {h : Handler κ ρ ε σ α}
    (hmeets : Meets P Q t h s) : Meets P' Q' t h s :=
  Program.Meets.mono hP (fun t' (ending : Except ε α × σ) => hQ t' ending.1 ending.2) hmeets

end Rules

end Handler

end DustMonitoring.Lib
