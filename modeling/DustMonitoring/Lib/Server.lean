import DustMonitoring.Lib.Program
import DustMonitoring.Lib.Run
import DustMonitoring.Lib.Table

/-!
# Workers that handle messages side by side

A service has a worker for each connection.  A worker handles one message at a
time, with a `Handler` that starts from what the worker remembers, and the
answers to the calls of all workers come in any order.  An exception ends a
worker, and it can be closed at any time, also in the middle of a message; its
last call may have been carried out then.

What a worker has handled is a list of `Receipt`s.

Main results:

* `sequential_run` -- the receipts of one worker, in order, are what its handlers
  do one after the other, whatever the other workers do;
* `receipt_meets` -- so what a handler meets holds of every receipt;
* `Serial.refines` -- and where every receipt is a step of a sequential system, the
  worker has run that system.
-/

namespace DustMonitoring.Lib

open Program

/-- What is done with a message, and what a worker starts with. -/
structure Service (μ κ : Type) (ρ : κ → Type) (ε σ α : Type) where
  handle : μ → Handler κ ρ ε σ α
  initial : σ

/-- What a worker is doing. -/
inductive Activity (μ κ : Type) (ρ : κ → Type) (ε σ α : Type) where
  | idle
  /-- It waits for the answer to a call of its handler. -/
  | busy (msg : μ) (past : List (Exchange κ ρ)) (k : κ)
      (next : ρ k → Program κ ρ (Except ε α × σ))
  | gone

/-- The worker goes on. -/
def Activity.isOpen {μ κ : Type} {ρ : κ → Type} {ε σ α : Type} : Activity μ κ ρ ε σ α → Bool
  | .idle | .busy _ _ _ _ => true
  | .gone => false

theorem Activity.isOpen_iff {μ κ : Type} {ρ : κ → Type} {ε σ α : Type}
    {activity : Activity μ κ ρ ε σ α} : activity.isOpen = true ↔ activity ≠ .gone := by
  cases activity <;> simp [isOpen]

structure Worker (ι μ κ : Type) (ρ : κ → Type) (ε σ α : Type) where
  id : ι
  memory : σ
  activity : Activity μ κ ρ ε σ α := .idle

/-- A message that was handled, with what the worker remembered before and
after it. -/
structure Receipt (ι μ κ : Type) (ρ : κ → Type) (ε σ α : Type) where
  worker : ι
  msg : μ
  before : σ
  past : List (Exchange κ ρ)
  result : Except ε α
  after : σ

/-- What happens to a worker.  An answer is given for every call, and the one
that is pending counts. -/
inductive Move (μ κ : Type) (ρ : κ → Type) where
  | receive (msg : μ)
  | answer (f : ∀ k, ρ k)
  | close (last : Option (∀ k, ρ k))

/-- What happens to the workers. -/
inductive ServerEvent (ι μ κ : Type) (ρ : κ → Type) where
  | open (id : ι)
  | move (id : ι) (m : Move μ κ ρ)

/-- The workers by their ids. -/
abbrev Workers (ι μ κ : Type) (ρ : κ → Type) (ε σ α : Type) :=
  Table (Worker.id : Worker ι μ κ ρ ε σ α → ι)

variable {ι μ κ : Type} {ρ : κ → Type} {ε σ α : Type}

namespace Worker

/-- The worker when its handler has come so far. -/
def goOn (w : Worker ι μ κ ρ ε σ α) (msg : μ) (past : List (Exchange κ ρ)) :
    Program κ ρ (Except ε α × σ) → Worker ι μ κ ρ ε σ α
  | .done (.ok _, memory) => { w with memory := memory, activity := .idle }
  | .done (.error _, memory) => { w with memory := memory, activity := .gone }
  | .call k next => { w with activity := .busy msg past k next }

/-- What it has handled when its handler has come so far. -/
def receipts (w : Worker ι μ κ ρ ε σ α) (msg : μ) (past : List (Exchange κ ρ)) :
    Program κ ρ (Except ε α × σ) → List (Receipt ι μ κ ρ ε σ α)
  | .done (result, memory) => [⟨w.id, msg, w.memory, past, result, memory⟩]
  | .call _ _ => []

@[simp] theorem id_goOn (w : Worker ι μ κ ρ ε σ α) (msg : μ) (past : List (Exchange κ ρ))
    (p : Program κ ρ (Except ε α × σ)) : (w.goOn msg past p).id = w.id := by
  rcases p with ⟨⟨_ | _, _⟩⟩ | _ <;> rfl

end Worker

namespace Service

variable (S : Service μ κ ρ ε σ α)

/-- The worker after the move. -/
def moved (w : Worker ι μ κ ρ ε σ α) : Move μ κ ρ → Worker ι μ κ ρ ε σ α
  | .receive msg =>
    match w.activity with
    | .idle => w.goOn msg [] (S.handle msg w.memory)
    | .busy _ _ _ _ | .gone => w
  | .answer f =>
    match w.activity with
    | .busy msg past k next => w.goOn msg (past ++ [⟨k, f k⟩]) (next (f k))
    | .idle | .gone => w
  | .close _ => { w with activity := .gone }

/-- What the worker has handled with the move. -/
def handled (w : Worker ι μ κ ρ ε σ α) : Move μ κ ρ → List (Receipt ι μ κ ρ ε σ α)
  | .receive msg =>
    match w.activity with
    | .idle => w.receipts msg [] (S.handle msg w.memory)
    | .busy _ _ _ _ | .gone => []
  | .answer f =>
    match w.activity with
    | .busy msg past k next => w.receipts msg (past ++ [⟨k, f k⟩]) (next (f k))
    | .idle | .gone => []
  | .close _ => []

/-- What is exchanged with the move. -/
def exchanged (w : Worker ι μ κ ρ ε σ α) : Move μ κ ρ → List (Exchange κ ρ)
  | .receive _ => []
  | .answer f | .close (some f) =>
    match w.activity with
    | .busy _ _ k _ => [⟨k, f k⟩]
    | .idle | .gone => []
  | .close none => []

/-! ## One worker after the other -/

/-- From the first memory to the second the receipts are those of one handler
after the other. -/
def Serial : σ → List (Receipt ι μ κ ρ ε σ α) → σ → Prop
  | s, [], s' => s = s'
  | s, r :: rs, s' =>
    r.before = s ∧ Follows (S.handle r.msg s) r.past (.done (r.result, r.after)) ∧
      Serial r.after rs s'

theorem Serial.concat {s s' : σ} {rs : List (Receipt ι μ κ ρ ε σ α)} (h : S.Serial s rs s')
    {r : Receipt ι μ κ ρ ε σ α} (hbefore : r.before = s')
    (hpath : Follows (S.handle r.msg s') r.past (.done (r.result, r.after))) :
    S.Serial s (rs ++ [r]) r.after := by
  induction rs generalizing s with
  | nil =>
    obtain rfl : s = s' := h
    exact ⟨hbefore, hpath, rfl⟩
  | cons x xs ih =>
    obtain ⟨hx, hxpath, hxs⟩ := h
    exact ⟨hx, hxpath, ih hxs⟩

/-- Where every receipt is one step of a sequential system, on an input that
goes with it, serial receipts are a run of that system. -/
theorem Serial.refines {β γ : Type} {f : σ → β → σ × γ} {R : β → Receipt ι μ κ ρ ε σ α → Prop}
    {told : Receipt ι μ κ ρ ε σ α → γ} {s s' : σ} {rs : List (Receipt ι μ κ ρ ε σ α)}
    (h : S.Serial s rs s') (hsteps : ∀ r ∈ rs, ∃ b, R b r ∧ f r.before b = (r.after, told r)) :
    ∃ bs, List.Forall₂ R bs rs ∧ run (fun s b => (f s b).1) s bs = s' ∧
      outputs (fun s b => (f s b).1) (fun s b => [(f s b).2]) s bs = rs.map told := by
  induction rs generalizing s with
  | nil =>
    obtain rfl : s = s' := h
    exact ⟨[], .nil, rfl, rfl⟩
  | cons r rs ih =>
    obtain ⟨rfl, -, hrest⟩ := h
    obtain ⟨b, hb, hf⟩ := hsteps r List.mem_cons_self
    obtain ⟨bs, hbs, hrun, htold⟩ := ih hrest fun x hx => hsteps x (List.mem_cons_of_mem r hx)
    refine ⟨b :: bs, .cons hb hbs, ?_, ?_⟩
    · rw [run_cons, hf]
      exact hrun
    · rw [outputs, hf, htold]
      rfl

/-- A serial receipt is what its handler did. -/
theorem Serial.follows {s s' : σ} {rs : List (Receipt ι μ κ ρ ε σ α)} (h : S.Serial s rs s')
    {r : Receipt ι μ κ ρ ε σ α} (hr : r ∈ rs) :
    Follows (S.handle r.msg r.before) r.past (.done (r.result, r.after)) := by
  induction rs generalizing s with
  | nil => exact absurd hr List.not_mem_nil
  | cons x xs ih =>
    obtain ⟨hx, hxpath, hxs⟩ := h
    rcases List.mem_cons.mp hr with rfl | hr
    · rw [hx]
      exact hxpath
    · exact ih hxs hr

/-- The message that the worker is busy with has come to where it is. -/
def OnPath (w : Worker ι μ κ ρ ε σ α) : Prop :=
  ∀ msg past k next, w.activity = .busy msg past k next →
    Follows (S.handle msg w.memory) past (.call k next)

/-- The receipts are those of the worker, one after the other, and as long as it
is open none of them is an exception. -/
structure InOrder (w : Worker ι μ κ ρ ε σ α) (rs : List (Receipt ι μ κ ρ ε σ α)) : Prop where
  serial : S.Serial S.initial rs w.memory
  answered : w.activity ≠ .gone → ∀ r ∈ rs, ∃ a, r.result = .ok a

variable {S}

theorem onPath_goOn {w : Worker ι μ κ ρ ε σ α} {msg : μ} {past : List (Exchange κ ρ)}
    {p : Program κ ρ (Except ε α × σ)} (hpath : Follows (S.handle msg w.memory) past p) :
    S.OnPath (w.goOn msg past p) := by
  intro msg' past' k' next' hbusy
  rcases p with ⟨⟨e | a, memory⟩⟩ | ⟨k, next⟩
  · cases hbusy
  · cases hbusy
  · cases hbusy
    exact hpath

/-- A handler that has come so far keeps the receipts in order. -/
theorem InOrder.goOn {w : Worker ι μ κ ρ ε σ α} {rs : List (Receipt ι μ κ ρ ε σ α)}
    (h : S.InOrder w rs) (hopen : w.activity ≠ .gone) {msg : μ} {past : List (Exchange κ ρ)}
    {p : Program κ ρ (Except ε α × σ)} (hpath : Follows (S.handle msg w.memory) past p) :
    S.InOrder (w.goOn msg past p) (rs ++ w.receipts msg past p) := by
  rcases p with ⟨⟨e | a, memory⟩⟩ | ⟨k, next⟩
  · exact ⟨h.serial.concat S rfl hpath, fun hne => absurd rfl hne⟩
  · refine ⟨h.serial.concat S rfl hpath, fun _ r hr => ?_⟩
    rcases List.mem_append.mp hr with hr | hr
    · exact h.answered hopen r hr
    · rw [List.mem_singleton.mp hr]
      exact ⟨a, rfl⟩
  · rw [Worker.receipts, List.append_nil]
    exact ⟨h.serial, fun _ => h.answered hopen⟩

theorem id_moved (w : Worker ι μ κ ρ ε σ α) (m : Move μ κ ρ) : (S.moved w m).id = w.id := by
  cases m with
  | receive msg =>
    dsimp only [moved]
    split <;> simp
  | answer f =>
    dsimp only [moved]
    split <;> simp
  | close last => rfl

theorem worker_of_mem_handled {w : Worker ι μ κ ρ ε σ α} {m : Move μ κ ρ}
    {r : Receipt ι μ κ ρ ε σ α} (hr : r ∈ S.handled w m) : r.worker = w.id := by
  have hreceipts : ∀ msg past p, r ∈ w.receipts msg past p → r.worker = w.id := by
    intro msg past p hmem
    cases p with
    | done ending => rw [List.mem_singleton.mp hmem]
    | call k next => exact absurd hmem List.not_mem_nil
  cases m with
  | receive msg =>
    dsimp only [handled] at hr
    split at hr
    · exact hreceipts _ _ _ hr
    all_goals exact absurd hr List.not_mem_nil
  | answer f =>
    dsimp only [handled] at hr
    split at hr
    · exact hreceipts _ _ _ hr
    all_goals exact absurd hr List.not_mem_nil
  | close last => exact absurd hr List.not_mem_nil

/-- A move keeps the worker on its way. -/
theorem onPath_moved {w : Worker ι μ κ ρ ε σ α} (h : S.OnPath w) (m : Move μ κ ρ) :
    S.OnPath (S.moved w m) := by
  cases m with
  | receive msg =>
    dsimp only [moved]
    split
    · exact onPath_goOn (.nil _)
    · exact h
    · exact h
  | answer f =>
    dsimp only [moved]
    split
    · next msg past k next hbusy => exact onPath_goOn ((h msg past k next hbusy).concat (f k))
    · exact h
    · exact h
  | close last =>
    intro _ _ _ _ hbusy
    cases hbusy

/-- A move of a worker on its way keeps its receipts in order. -/
theorem InOrder.moved {w : Worker ι μ κ ρ ε σ α} {rs : List (Receipt ι μ κ ρ ε σ α)}
    (h : S.InOrder w rs) (hpath : S.OnPath w) (m : Move μ κ ρ) :
    S.InOrder (S.moved w m) (rs ++ S.handled w m) := by
  have hstays : S.InOrder w (rs ++ []) := by
    rw [List.append_nil]
    exact h
  cases m with
  | receive msg =>
    dsimp only [handled, Service.moved]
    split
    · next hidle => exact h.goOn (by simp [hidle]) (.nil _)
    · exact hstays
    · exact hstays
  | answer f =>
    dsimp only [handled, Service.moved]
    split
    · next msg past k next hbusy =>
      exact h.goOn (by simp [hbusy]) ((hpath msg past k next hbusy).concat (f k))
    · exact hstays
    · exact hstays
  | close last =>
    refine ⟨hstays.serial, fun hne => absurd rfl hne⟩

/-! ## All workers -/

variable [DecidableEq ι]

variable (S) in
/-- The workers after the event.  An id is given to one worker only. -/
def step (ws : Workers ι μ κ ρ ε σ α) : ServerEvent ι μ κ ρ → Workers ι μ κ ρ ε σ α
  | .open id => ws.insert ⟨id, S.initial, .idle⟩
  | .move id m =>
    match ws.find? id with
    | some w => ws.upsert (S.moved w m)
    | none => ws

/-- What an event puts out, by what a move does. -/
def ofMove {β : Type} (f : Worker ι μ κ ρ ε σ α → Move μ κ ρ → List β)
    (ws : Workers ι μ κ ρ ε σ α) : ServerEvent ι μ κ ρ → List β
  | .open _ => []
  | .move id m =>
    match ws.find? id with
    | some w => f w m
    | none => []

/-- The receipts of one worker. -/
def of (id : ι) (rs : List (Receipt ι μ κ ρ ε σ α)) : List (Receipt ι μ κ ρ ε σ α) :=
  rs.filter fun r => decide (r.worker = id)

variable (S) in
/-- The workers have come to where they are, one message after the other. -/
structure Sequential (ws : Workers ι μ κ ρ ε σ α) (rs : List (Receipt ι μ κ ρ ε σ α)) :
    Prop where
  inOrder : ∀ w ∈ ws.rows, S.InOrder w (of w.id rs)
  known : ∀ r ∈ rs, ws.Has r.worker

/-- A move of one worker: what the workers had, and what the move brings about. -/
theorem forall_workers_move {I I' : Worker ι μ κ ρ ε σ α → Prop} (hkeep : ∀ w, I w → I' w)
    {id : ι} {m : Move μ κ ρ} {ws : Workers ι μ κ ρ ε σ α} (h : ∀ w ∈ ws.rows, I w)
    (hmove : ∀ w, ws.find? id = some w → I' (S.moved w m)) :
    ∀ w ∈ (S.step ws (.move id m)).rows, I' w := by
  intro w hw
  dsimp only [step] at hw
  split at hw
  · next w' hfind =>
    rcases Table.mem_upsert.mp hw with rfl | ⟨hw, -⟩
    · exact hmove w' hfind
    · exact hkeep w (h w hw)
  · exact hkeep w (h w hw)

/-- What a new worker has and every move keeps, all workers have. -/
theorem forall_workers_step {I : Worker ι μ κ ρ ε σ α → Prop}
    (hnew : ∀ id, I ⟨id, S.initial, .idle⟩) (hmove : ∀ w m, I w → I (S.moved w m))
    {ws : Workers ι μ κ ρ ε σ α} (h : ∀ w ∈ ws.rows, I w) (e : ServerEvent ι μ κ ρ) :
    ∀ w ∈ (S.step ws e).rows, I w := by
  intro w hw
  cases e with
  | «open» id =>
    rcases Table.mem_insert.mp hw with hw | ⟨rfl, -⟩
    · exact h w hw
    · exact hnew id
  | move id m =>
    exact forall_workers_move (fun _ hI => hI) h
      (fun w' hfind => hmove w' m (h w' (Table.find?_eq_some_iff.mp hfind).1)) w hw

/-- The workers are on their way after every event. -/
theorem onPath_step {ws : Workers ι μ κ ρ ε σ α} (h : ∀ w ∈ ws.rows, S.OnPath w)
    (e : ServerEvent ι μ κ ρ) : ∀ w ∈ (S.step ws e).rows, S.OnPath w := by
  have hnew : ∀ id : ι, S.OnPath ⟨id, S.initial, .idle⟩ := by
    intro _ _ _ _ _ hbusy
    cases hbusy
  exact forall_workers_step hnew (fun w m hw => onPath_moved hw m) h e

theorem of_append (id : ι) (rs rs' : List (Receipt ι μ κ ρ ε σ α)) :
    of id (rs ++ rs') = of id rs ++ of id rs' := List.filter_append ..

theorem of_eq_nil {id : ι} {rs : List (Receipt ι μ κ ρ ε σ α)}
    (h : ∀ r ∈ rs, r.worker ≠ id) : of id rs = [] := by
  rw [of, List.filter_eq_nil_iff]
  intro r hr
  simpa using h r hr

theorem of_eq_self {id : ι} {rs : List (Receipt ι μ κ ρ ε σ α)}
    (h : ∀ r ∈ rs, r.worker = id) : of id rs = rs := by
  rw [of, List.filter_eq_self]
  intro r hr
  simpa using h r hr

theorem sequential_step {ws : Workers ι μ κ ρ ε σ α} {rs : List (Receipt ι μ κ ρ ε σ α)}
    (hpath : ∀ w ∈ ws.rows, S.OnPath w) (h : S.Sequential ws rs) (e : ServerEvent ι μ κ ρ) :
    S.Sequential (S.step ws e) (rs ++ ofMove S.handled ws e) := by
  cases e with
  | «open» id =>
    have hnil : rs ++ ofMove S.handled ws (.open id) = rs := List.append_nil rs
    rw [hnil]
    refine ⟨fun w hw => ?_, fun r hr => Table.has_insert.mpr (Or.inl (h.known r hr))⟩
    rcases Table.mem_insert.mp hw with hw | ⟨rfl, hfree⟩
    · exact h.inOrder w hw
    · -- nothing was handled under an id that is new
      rw [of_eq_nil]
      · exact ⟨rfl, fun _ r hr => absurd hr List.not_mem_nil⟩
      · intro r hr heq
        obtain ⟨w, hw, hid⟩ := h.known r hr
        exact hfree w hw (hid.trans heq)
  | move id m =>
    dsimp only [step, ofMove]
    cases hfind : ws.find? id with
    | none =>
      dsimp only
      rw [List.append_nil]
      exact h
    | some w =>
      obtain ⟨hw, hid⟩ := Table.find?_eq_some_iff.mp hfind
      dsimp only
      refine ⟨fun w' hw' => ?_, fun r hr => ?_⟩
      · rcases Table.mem_upsert.mp hw' with rfl | ⟨hw', hne⟩
        · have hall : of w.id (S.handled w m) = S.handled w m :=
            of_eq_self fun r hr => worker_of_mem_handled hr
          rw [id_moved, of_append, hall]
          exact (h.inOrder w hw).moved (hpath w hw) m
        · rw [id_moved] at hne
          have hnone : of w'.id (S.handled w m) = [] :=
            of_eq_nil fun r hr heq => hne (heq.symm.trans (worker_of_mem_handled hr))
          rw [of_append, hnone, List.append_nil]
          exact h.inOrder w' hw'
      · rw [Table.has_upsert, id_moved]
        rcases List.mem_append.mp hr with hr | hr
        · exact Or.inl (h.known r hr)
        · exact Or.inr (worker_of_mem_handled hr)

/-- Whatever the order of the answers is, every worker handles its messages one
after the other. -/
theorem sequential_run (S : Service μ κ ρ ε σ α) (es : List (ServerEvent ι μ κ ρ)) :
    S.Sequential (run S.step Table.empty es)
      (outputs S.step (ofMove S.handled) Table.empty es) := by
  have hstep : ∀ (ws : Workers ι μ κ ρ ε σ α) rs e,
      (∀ w ∈ ws.rows, S.OnPath w) ∧ S.Sequential ws rs →
      (∀ w ∈ (S.step ws e).rows, S.OnPath w) ∧
        S.Sequential (S.step ws e) (rs ++ ofMove S.handled ws e) :=
    fun ws rs e h => ⟨onPath_step h.1 e, sequential_step h.1 h.2 e⟩
  refine (outputs_invariant (fun ws rs => (∀ w ∈ ws.rows, S.OnPath w) ∧ S.Sequential ws rs)
    hstep ?_ es).2
  exact ⟨fun w hw => absurd hw List.not_mem_nil, fun w hw => absurd hw List.not_mem_nil,
    fun r hr => absurd hr List.not_mem_nil⟩

section Meets

variable {P : μ → σ → List (Exchange κ ρ) → κ → Prop}
  {Q : μ → σ → List (Exchange κ ρ) → Except ε α → σ → Prop}

omit [DecidableEq ι] in
/-- What the handlers meet, a worker on its way meets where it is. -/
theorem OnPath.meets (h : ∀ msg s, Handler.Meets (P msg s) (Q msg s) [] (S.handle msg) s)
    {w : Worker ι μ κ ρ ε σ α} (hw : S.OnPath w) {msg : μ} {past : List (Exchange κ ρ)} {k : κ}
    {next : ρ k → Program κ ρ (Except ε α × σ)} (hbusy : w.activity = .busy msg past k next) :
    P msg w.memory past k ∧ ∀ r, Program.Meets (P msg w.memory)
      (fun t (ending : Except ε α × σ) => Q msg w.memory t ending.1 ending.2)
      (past ++ [⟨k, r⟩]) (next r) :=
  (h msg w.memory).of_follows (hw msg past k next hbusy)

/-- What the handlers meet, whatever their worker has handled before, holds of
every receipt. -/
theorem receipt_meets (h : ∀ msg s, Handler.Meets (P msg s) (Q msg s) [] (S.handle msg) s)
    (es : List (ServerEvent ι μ κ ρ)) :
    ∀ r ∈ outputs S.step (ofMove S.handled) Table.empty es,
      Q r.msg r.before r.past r.result r.after := by
  intro r hr
  obtain ⟨w, hw, hid⟩ := (sequential_run S es).known r hr
  have hserial := ((sequential_run S es).inOrder w hw).serial
  have hmem : r ∈ of w.id (outputs S.step (ofMove S.handled) Table.empty es) :=
    List.mem_filter.mpr ⟨hr, decide_eq_true hid.symm⟩
  have hpath := hserial.follows S hmem
  have hend := (h r.msg r.before).of_follows hpath
  exact hend

end Meets

end Service

end DustMonitoring.Lib
