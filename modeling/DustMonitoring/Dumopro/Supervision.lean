import DustMonitoring.Dumopro.Rounds

/-!
# The poller looks after its tasks

After a reconcile every station of the database has its task, and the dict
`running` has every task.  The reconciler looks at the dict only, and a task
that has ended by itself stays there.  The fan-out at boot starts a task for
every row of the list, and the dict keeps the last one of a name.

A task that was started at boot sets its signal when its cold start is
over, and the poller is ready when all signals are set.  A cold start that
raises leaves its task without the signal.

* `supervised_of_tended`: in a run in which no reconcile finds an ended task
  in the dict, no name is started twice at boot and no cold start is cut
  short, every reconcile leaves one task for each station, and the poller
  can become ready.
-/

namespace DustMonitoring.Dumopro

open DustMonitoring.Lib

namespace Supervision

/-! ## The signals of the cold starts -/

/-- How far a station task that was started at boot is with its cold start.
Its signal is set when the cold start has returned. -/
inductive ColdStart where
  | pending
  | returned
  | raised
deriving DecidableEq, Repr

/-- The system, with the cold starts of the fan-out. -/
structure System where
  world : World := {}
  signals : List (StationInfo × ColdStart) := []

/-- What happens next. -/
inductive Happening where
  | event (e : Event)
  /-- The cold start of the task is over. -/
  | coldReturns (st : StationInfo)

/-- The cold start of the task ends so, unless it is over already. -/
def settle (st : StationInfo) (c : ColdStart) (signals : List (StationInfo × ColdStart)) :
    List (StationInfo × ColdStart) :=
  signals.map fun p => if p.1 = st ∧ p.2 = .pending then (st, c) else p

/-- The task that is over with the event: it ends by itself, or the wait for
a stopped task ends. -/
def ends (w : World) : Event → Option StationInfo
  | .taskEnds st => if st ∈ w.poller.tasks then some st else none
  | .reply _ =>
    match w.poller.pc with
    | .stopping st _ => some st
    | _ => none
  | _ => none

/-- The task that the event starts with a signal. -/
def signalled (w : World) (e : Event) : Option StationInfo :=
  match w.poller.pc with
  | .bootConflict _ _ => e.starts w
  | _ => none

/-- The cold starts after the event.  A new process has none, and a task
that ends before its cold start is over does not set its signal. -/
def signalsAfter (w : World) (e : Event) (signals : List (StationInfo × ColdStart)) :
    List (StationInfo × ColdStart) :=
  match e, w.poller.pc with
  | .boot, .down => []
  | _, _ =>
    let signals := match signalled w e with
      | some st => signals ++ [(st, .pending)]
      | none => signals
    match ends w e with
    | some st => settle st .raised signals
    | none => signals

/-- The system after what happens. -/
def step (glob : String → String → Bool) (s : System) : Happening → System
  | .event e =>
    { world := Dumopro.step glob s.world e
      signals := signalsAfter s.world e s.signals }
  | .coldReturns st =>
    if st ∈ s.world.poller.tasks then
      { s with signals := settle st .returned s.signals }
    else s

/-! ## The property -/

/-- A reconcile comes to its end. -/
def Reconciled (glob : String → String → Bool) (s : System) (a : Happening) : Prop :=
  s.world.poller.pc.reconciling = true ∧ (step glob s a).world.poller.pc = .idle

instance (glob : String → String → Bool) (s : System) (a : Happening) :
    Decidable (Reconciled glob s a) :=
  inferInstanceAs (Decidable (_ ∧ _))

/-- Each station of the list of the reconcile, which is in Redis, has one task
that has not ended, unless a conflict is pending. -/
def OneTaskEach (w : World) : Prop :=
  ∀ st ∈ w.redis.stations, w.redis.hasPendingConflict st.stationName = false →
    (w.poller.tasks.filter fun t => t.stationName == st.stationName).length = 1

instance (w : World) : Decidable (OneTaskEach w) :=
  inferInstanceAs (Decidable (∀ st ∈ w.redis.stations, _))

/-- The dict has every task that has not ended. -/
def Recorded (w : World) : Prop :=
  ∀ t ∈ w.poller.tasks, w.poller.running.find? t.stationName = some t

/-- When all cold starts are over, all signals are set. -/
def CanBeReady (s : System) : Prop :=
  (∀ p ∈ s.signals, p.2 ≠ .pending) → ∀ p ∈ s.signals, p.2 = .returned

instance (s : System) : Decidable (CanBeReady s) :=
  inferInstanceAs (Decidable ((∀ q ∈ s.signals, _) → _))

/-- Every reconcile of the run leaves its tasks in order, and at every point
the poller can become ready. -/
def Supervised (glob : String → String → Bool) (happenings : List Happening) : Prop :=
  (∀ pre a, pre ++ [a] <+: happenings → Reconciled glob (run (step glob) {} pre) a →
    OneTaskEach (run (step glob) {} (pre ++ [a])).world ∧
      Recorded (run (step glob) {} (pre ++ [a])).world) ∧
  ∀ pre, pre <+: happenings → CanBeReady (run (step glob) {} pre)

/-! ## The condition -/

/-- The fan-out starts no name that has a task already. -/
def BootDistinct (w : World) (e : Event) : Prop :=
  ∀ st ∈ signalled w e, ∀ t ∈ w.poller.tasks, t.stationName ≠ st.stationName

/-- The station for which the reconciler has asked whether a conflict is
pending, and gets the answer. -/
def asked? (w : World) : Event → Option StationInfo
  | .reply .ok =>
    match w.poller.pc with
    | .hasConflict st _ => some st
    | _ => none
  | _ => none

/-- A task that the reconciler finds in the dict under the id of the station
has not ended. -/
def FindsUnfinished (w : World) (e : Event) : Prop :=
  ∀ st ∈ asked? w e, w.redis.hasPendingConflict st.stationName = false →
    ∀ old ∈ w.poller.running.find? st.stationName,
      old.stationId = st.stationId → old ∈ w.poller.tasks

/-- A task that the round has dealt with does not end by itself before the
round is over. -/
def StaysUp (w : World) (e : Event) : Prop :=
  match e with
  | .taskEnds t =>
    ∀ round ∈ w.poller.pc.round?, t ∈ w.poller.tasks → t ∈ w.poller.running.rows →
      t.stationName ∈ w.poller.pc.ahead ∨
        t.stationName ∉ round.curr.map StationInfo.stationName
  | _ => True

/-- A conflict that the round has seen is not resolved before the round is
over. -/
def StaysPending (glob : String → String → Bool) (w : World) (e : Event) : Prop :=
  match e with
  | .serve _ _ =>
    ∀ round ∈ w.poller.pc.round?, ∀ st ∈ round.curr,
      w.redis.hasPendingConflict st.stationName = true →
        st.stationName ∈ w.poller.pc.ahead ∨
          (Dumopro.step glob w e).redis.hasPendingConflict st.stationName = true
  | _ => True

/-- No task ends before its cold start is over. -/
def ColdStartKept (s : System) (e : Event) : Prop :=
  ∀ st ∈ ends s.world e, (st, ColdStart.pending) ∉ s.signals

/-- The condition on what happens. -/
def Tended (glob : String → String → Bool) (s : System) : Happening → Prop
  | .event e =>
    BootDistinct s.world e ∧ FindsUnfinished s.world e ∧ StaysUp s.world e ∧
      StaysPending glob s.world e ∧ ColdStartKept s e
  | .coldReturns _ => True

instance (w : World) (e : Event) : Decidable (BootDistinct w e) :=
  inferInstanceAs (Decidable (∀ st ∈ signalled w e, ∀ t ∈ w.poller.tasks, _))

instance (w : World) (e : Event) : Decidable (FindsUnfinished w e) :=
  inferInstanceAs (Decidable (∀ st ∈ asked? w e, _ = false → ∀ old ∈ w.poller.running.find? _, _))

instance (w : World) (e : Event) : Decidable (StaysUp w e) := by
  unfold StaysUp
  split <;> infer_instance

instance (glob : String → String → Bool) (w : World) (e : Event) :
    Decidable (StaysPending glob w e) := by
  unfold StaysPending
  split <;> infer_instance

instance (s : System) (e : Event) : Decidable (ColdStartKept s e) :=
  inferInstanceAs (Decidable (∀ st ∈ ends s.world e, _))

instance (glob : String → String → Bool) (s : System) :
    ∀ a, Decidable (Tended glob s a)
  | .event _ => inferInstanceAs (Decidable (_ ∧ _))
  | .coldReturns _ => isTrue trivial

/-! ## One step -/

variable {glob : String → String → Bool} {w : World} {s : System} {a : Happening}

theorem tidy_step (e : Event) (h : Tidy w.poller) (hboot : BootDistinct w e) :
    Tidy (Dumopro.step glob w e).poller := by
  cases e with
  | setDb stations => exact h
  | boot =>
    dsimp only [Dumopro.step]
    split
    · exact ⟨⟨fun t ht => absurd ht List.not_mem_nil, fun _ h => by contradiction⟩,
        List.nodup_nil⟩
    · exact h
  | interval =>
    dsimp only [Dumopro.step]
    split
    · next hpc =>
      have hrunning := h.orderly.running (by rw [hpc]; exact ⟨rfl, rfl⟩)
      exact ⟨⟨fun t ht => Or.inl (hrunning t ht), fun _ h => by contradiction⟩, h.nodup⟩
    · exact h
  | reply o =>
    cases o with
    | ok =>
      refine tidy_resume w.db h fun st rest hpc hst => hboot st ?_
      simp only [signalled, hpc, Event.starts, Option.mem_def]
      rw [← hpc]
      exact hst
    | failed exc => exact tidy_of_moves h (Poller.moves_raised _) (sublist_raised _)
    | lost exc => exact tidy_of_moves h (Poller.moves_raised _) (sublist_raised _)
  | interrupt => exact tidy_of_moves h (Poller.moves_interrupted _) (sublist_interrupted _)
  | crash applied => exact tidy_empty
  | write st op =>
    dsimp only [Dumopro.step]
    split <;> exact h
  | taskEnds st => exact tidy_taskEnds st h
  | request i name action =>
    dsimp only [Dumopro.step]
    split
    · split <;> exact h
    · exact h
  | serve i o => exact h

theorem tends_interrupted (h : Covered r p) : Tends p r p.interrupted := by
  unfold Poller.interrupted
  split
  all_goals first
    | exact tends_of_round?_none rfl rfl nofun
    | exact tends_of_pc_eq h rfl
    | exact tends_shutdown

/-- A task that ends by itself during the round. -/
theorem covered_taskEnds {t : StationInfo} (h : Covered w.redis w.poller)
    (hup : StaysUp w (.taskEnds t)) :
    Covered w.redis { w.poller with tasks := w.poller.tasks.filter fun x => x != t } where
  round := fun round hround => by
    obtain ⟨hstations, hhandled⟩ := h.round round hround
    refine ⟨hstations, fun st hst => ?_⟩
    rcases hhandled st hst with hmem | hconflict | ⟨x, hx, hrunning, hname⟩
    · exact Or.inl hmem
    · exact Or.inr (Or.inl hconflict)
    · by_cases heq : x = t
      · subst heq
        refine Or.inl ?_
        rw [← hname]
        refine (hup round hround hx hrunning).resolve_right fun hnot => hnot ?_
        exact hname ▸ List.mem_map_of_mem hst
      · refine Or.inr (Or.inr ⟨x, List.mem_filter.mpr ⟨hx, ?_⟩, hrunning, hname⟩)
        simpa using heq
  stops := h.stops

@[simp] theorem stations_serveRequest (r : Registry) (o : Outcome) (request : Request) :
    (serveRequest glob r o request).2.stations = r.stations := by
  unfold serveRequest
  split
  · rfl
  · split <;> rfl
  · rfl
  · next name op ops => cases o <;> cases op <;> rfl

theorem tends_step (e : Event) (h : Covered w.redis w.poller) (hfinds : FindsUnfinished w e)
    (hup : StaysUp w e) (hpending : StaysPending glob w e) :
    Tends w.poller (Dumopro.step glob w e).redis (Dumopro.step glob w e).poller := by
  cases e with
  | setDb stations => exact tends_of_pc_eq h rfl
  | boot =>
    dsimp only [Dumopro.step]
    split
    · exact tends_of_round?_none rfl rfl nofun
    · exact tends_of_pc_eq h rfl
  | interval =>
    dsimp only [Dumopro.step]
    split
    · exact tends_of_round?_none rfl rfl nofun
    · exact tends_of_pc_eq h rfl
  | reply o =>
    cases o with
    | ok =>
      refine tends_resume w.db h fun st round hpc hfree old hold hid => ?_
      have hasked : asked? w (.reply .ok) = some st := by simp only [asked?, hpc]
      exact hfinds st hasked hfree old hold hid
    | failed exc => exact tends_raised h (Or.inl ⟨rfl, fun _ h => h⟩)
    | lost exc => exact tends_raised h (Or.inr rfl)
  | interrupt => exact tends_interrupted h
  | crash applied => exact tends_of_round?_none rfl rfl nofun
  | write st op =>
    dsimp only [Dumopro.step]
    split
    · refine tends_of_pc_eq (h.keeps ⟨?_, fun name hname => ?_⟩) rfl
      · cases op <;> rfl
      · simpa [Registry.hasPendingConflict] using hname
    · exact tends_of_pc_eq h rfl
  | taskEnds t => exact tends_of_pc_eq (covered_taskEnds h hup) rfl
  | request i name action =>
    dsimp only [Dumopro.step]
    split
    · split <;> exact tends_of_pc_eq h rfl
    · exact tends_of_pc_eq h rfl
  | serve i o =>
    refine tends_of_pc_eq ⟨fun round hround => ?_, h.stops⟩ rfl
    obtain ⟨hstations, hhandled⟩ := h.round round hround
    refine ⟨(stations_serveRequest _ _ _).trans hstations, fun st hst => ?_⟩
    rcases hhandled st hst with hmem | hconflict | htask
    · exact Or.inl hmem
    · exact (hpending round hround st hst hconflict).imp id Or.inl
    · exact Or.inr (Or.inr htask)

/-! ## The signals -/

theorem mem_settle {st : StationInfo} {c : ColdStart} {signals : List (StationInfo × ColdStart)}
    {q : StationInfo × ColdStart} (h : q ∈ settle st c signals) :
    q ∈ signals ∨ q.2 = c := by
  obtain ⟨x, hx, heq⟩ := List.mem_map.mp h
  split at heq
  · exact Or.inr (heq ▸ rfl)
  · exact Or.inl (heq ▸ hx)

theorem settle_raised_of_not_mem {st : StationInfo} {signals : List (StationInfo × ColdStart)}
    (h : (st, ColdStart.pending) ∉ signals) : settle st .raised signals = signals := by
  refine (List.map_congr_left fun q hq => if_neg ?_).trans (List.map_id' signals)
  rintro ⟨hname, hpending⟩
  refine h ?_
  rw [← hname, ← hpending]
  exact hq

/-- No task is over with the event that starts one with a signal. -/
theorem ends_eq_none_of_signalled {e : Event} {st : StationInfo}
    (h : signalled w e = some st) : ends w e = none := by
  unfold signalled at h
  split at h
  · next s rest hpc =>
    cases e with
    | reply o => simp only [ends, hpc]
    | _ => contradiction
  · contradiction

theorem no_raised_signalsAfter {e : Event} {signals : List (StationInfo × ColdStart)}
    (h : ∀ q ∈ signals, q.2 ≠ .raised)
    (hkept : ∀ st ∈ ends w e, (st, ColdStart.pending) ∉ signals) :
    ∀ q ∈ signalsAfter w e signals, q.2 ≠ .raised := by
  cases hsignalled : signalled w e with
  | some st =>
    have hends := ends_eq_none_of_signalled hsignalled
    unfold signalsAfter
    split
    · exact fun q hq => absurd hq List.not_mem_nil
    · rw [hsignalled, hends]
      intro q hq
      rcases List.mem_append.mp hq with hq | hq
      · exact h q hq
      · rw [List.mem_singleton.mp hq]
        nofun
  | none =>
    unfold signalsAfter
    split
    · exact fun q hq => absurd hq List.not_mem_nil
    · rw [hsignalled]
      dsimp only
      split
      · next st hst =>
        rw [settle_raised_of_not_mem (hkept st hst)]
        exact h
      · exact h

/-! ## Runs -/

/-- What holds in every state of a run that meets the condition. -/
structure Supervising (s : System) : Prop where
  tidy : Tidy s.world.poller
  covered : Covered s.world.redis s.world.poller
  signals : ∀ q ∈ s.signals, q.2 ≠ .raised

theorem supervising_empty : Supervising {} where
  tidy := tidy_empty
  covered := covered_of_round?_none rfl rfl
  signals := fun _ hq => absurd hq List.not_mem_nil

theorem supervising_step (h : Supervising s) (ha : Tended glob s a) :
    Supervising (step glob s a) := by
  cases a with
  | event e =>
    obtain ⟨hboot, hfinds, hup, hpending, hkept⟩ := ha
    exact ⟨tidy_step e h.tidy hboot, (tends_step e h.covered hfinds hup hpending).covered,
      no_raised_signalsAfter h.signals hkept⟩
  | coldReturns st =>
    dsimp only [step]
    split
    · refine ⟨h.tidy, h.covered, fun q hq => ?_⟩
      rcases mem_settle hq with hq | hreturned
      · exact h.signals q hq
      · rw [hreturned]
        nofun
    · exact h

theorem canBeReady_of_supervising (h : Supervising s) : CanBeReady s := by
  intro hover q hq
  have hraised := h.signals q hq
  have hpending := hover q hq
  cases hc : q.2 with
  | pending => exact absurd hc hpending
  | returned => rfl
  | raised => exact absurd hc hraised

/-- The dict has every task while the process is idle. -/
theorem recorded_of_idle (h : Tidy w.poller) (hpc : w.poller.pc = .idle) : Recorded w := by
  intro t ht
  have hcalm : w.poller.pc.Calm := by
    rw [hpc]
    exact ⟨rfl, rfl⟩
  exact Table.find?_eq_some_iff.mpr ⟨h.orderly.running hcalm t ht, rfl⟩

theorem oneTaskEach_of_idle (h : Tidy w.poller) (hpc : w.poller.pc = .idle)
    (hall : AllHandled w.redis w.poller) : OneTaskEach w := by
  intro st hst hfree
  have hrecorded := recorded_of_idle h hpc
  rcases hall hpc st hst with hconflict | ⟨t, ht, -, hname⟩
  · rw [hfree] at hconflict
    contradiction
  · have honly : ∀ x ∈ w.poller.tasks.filter (fun t => t.stationName == st.stationName),
        x = t := by
      intro x hx
      obtain ⟨hx, hxname⟩ := List.mem_filter.mp hx
      have hsame : x.stationName = t.stationName := (beq_iff_eq.mp hxname).trans hname.symm
      have hfind := hrecorded x hx
      rw [hsame, hrecorded t ht] at hfind
      exact (Option.some.inj hfind).symm
    have hmem : t ∈ w.poller.tasks.filter (fun t => t.stationName == st.stationName) :=
      List.mem_filter.mpr ⟨ht, beq_iff_eq.mpr hname⟩
    have hperm : (w.poller.tasks.filter fun t => t.stationName == st.stationName).Perm [t] := by
      refine (List.perm_ext_iff_of_nodup (h.nodup.filter _) (List.nodup_singleton t)).mpr ?_
      intro x
      rw [List.mem_singleton]
      exact ⟨honly x, fun heq => heq ▸ hmem⟩
    rw [hperm.eq_singleton]
    rfl

/-- In every run whose steps meet the condition, every reconcile leaves one
task for each station and the dict has them, and the poller can become
ready. -/
theorem supervised_of_tended (glob : String → String → Bool) (happenings : List Happening)
    (h : AllSteps (step glob) (Tended glob) {} happenings) : Supervised glob happenings := by
  have hinv : ∀ pre, pre <+: happenings → Supervising (run (step glob) {} pre) := by
    rintro pre ⟨post, rfl⟩
    exact run_invariant_of_allSteps (fun s a hs ha => supervising_step hs ha) supervising_empty
      (allSteps_append.mp h).1
  refine ⟨fun pre a hpre hreconciled => ?_, fun pre hpre => ?_⟩
  · have hbefore := hinv pre ((List.prefix_append pre [a]).trans hpre)
    have hafter := hinv (pre ++ [a]) hpre
    obtain ⟨post, rfl⟩ := hpre
    obtain ⟨hrec, hidle⟩ := hreconciled
    rw [run_concat] at hafter ⊢
    have ha : Tended glob (run (step glob) {} pre) a := by
      refine allSteps_iff.mp h pre a post ?_
      rw [List.append_assoc]
      rfl
    refine ⟨oneTaskEach_of_idle hafter.tidy hidle ?_, recorded_of_idle hafter.tidy hidle⟩
    cases a with
    | event e =>
      obtain ⟨-, hfinds, hup, hpending, -⟩ := ha
      exact (tends_step e hbefore.covered hfinds hup hpending).handled hrec
    | coldReturns st =>
      have hworld : (step glob (run (step glob) {} pre) (.coldReturns st)).world =
          (run (step glob) {} pre).world := by
        dsimp only [step]
        split <;> rfl
      rw [hworld] at hidle
      rw [hidle] at hrec
      contradiction
  · exact canBeReady_of_supervising (hinv pre hpre)

/-! ## Runs that meet the condition and runs that do not -/

def station (stationId stationName : String) : StationInfo where
  stationId := stationId
  stationName := stationName

/-- The process boots on the stations, and `answers` operations return. -/
def bootOn (stations : List StationInfo) (answers : Nat) : List Happening :=
  ([Event.setDb stations, Event.boot] ++ List.replicate answers (Event.reply .ok)).map .event

/-- The interval has passed, and `answers` operations return. -/
def reconcile (answers : Nat) : List Happening :=
  ([Event.interval] ++ List.replicate answers (Event.reply .ok)).map .event

/-- The matching of patterns without wildcards. -/
def plain (pattern key : String) : Bool := pattern == key

/-- A second station is registered while the poller runs. -/
def newStation : List Happening :=
  bootOn [station "1" "A"] 4 ++ [.coldReturns (station "1" "A")] ++
    [.event (.setDb [station "1" "A", station "2" "B"])] ++ reconcile 8

theorem supervised_newStation : Supervised plain newStation :=
  supervised_of_tended plain newStation (by decide +kernel)

example : (run (step plain) {} newStation).world.poller.tasks =
    [station "2" "B", station "1" "A"] := by
  decide +kernel

/-- A task ends by itself, and the next reconcile finds it in the dict. -/
def taskGaveUp : List Happening :=
  bootOn [station "1" "A"] 4 ++
    [.coldReturns (station "1" "A"), .event (.taskEnds (station "1" "A"))] ++ reconcile 3

/-- Two stations have one name. -/
def nameTwice : List Happening :=
  bootOn [station "1" "A", station "2" "A"] 6 ++
    [.coldReturns (station "1" "A"), .coldReturns (station "2" "A")] ++ reconcile 3

/-- A cold start raises. -/
def coldStartFailed : List Happening :=
  bootOn [station "1" "A"] 4 ++ [.event (.taskEnds (station "1" "A"))]

/-- The station of a task that gave up stays without a task, a name that is
there twice has two tasks, and after a failed cold start the poller does not
become ready. -/
theorem not_supervised_taskGaveUp :
    ¬ Supervised plain (taskGaveUp ++ [.event (.reply .ok)]) ∧
      ¬ Supervised plain (nameTwice ++ [.event (.reply .ok)]) ∧
      ¬ Supervised plain coldStartFailed := by
  refine ⟨fun h => ?_, fun h => ?_, fun h => ?_⟩
  · have hafter := h.1 taskGaveUp _ List.prefix_rfl (by decide +kernel)
    exact absurd hafter.1 (by decide +kernel)
  · have hafter := h.1 nameTwice _ List.prefix_rfl (by decide +kernel)
    exact absurd hafter.1 (by decide +kernel)
  · exact absurd (h.2 coldStartFailed List.prefix_rfl) (by decide +kernel)

end Supervision

end DustMonitoring.Dumopro
