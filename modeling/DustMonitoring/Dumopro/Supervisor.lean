import Mathlib.Data.String.Basic
import DustMonitoring.Dumopro.Registry
import DustMonitoring.Lib.Run

/-!
# The poller process and its station tasks

`main.py` of the poller: the fan-out at boot, `_reconcile_once`, which
starts and stops station tasks as the list of stations changes, and the
shutdown.

The process is a program counter that names the operation it awaits, as
in the egress gateway.  Between any two operations the list of stations in
the database can change, a station task can write to Redis, a request to
the API can go on, and the process can crash.

`Poller.tasks` are the station tasks that have not ended; `running` is the
dict of the same name.  A task that has ended by itself stays in
`running`.

Two background tasks reconcile, one at a time under a lock.  When one of them
raises, `run` begins its shutdown, and the other could still come to a
reconcile before the shutdown is over.  This overlap is left out: the process
makes no reconcile once it is in its shutdown.
-/

namespace DustMonitoring.Dumopro

open DustMonitoring.Lib

/-! ## The process -/

/-- What is left of a call of `_reconcile_once`. -/
structure Round where
  curr : List StationInfo
  prev : List StationInfo
  names : List String

/-- What the process does after a task was started or stopped. -/
inductive Resume where
  | boot (rest : List StationInfo)
  | round (r : Round)
  /-- Set the conflict of the station, whose task had the old id. -/
  | flag (st : StationInfo) (oldId : String) (r : Round)
  | shutdown (names : List String)

/-- The operation that the process awaits. -/
inductive PollerPc where
  | down
  | bootFetch
  | bootSync (stations : List StationInfo)
  | bootConflict (st : StationInfo) (rest : List StationInfo)
  /-- `clear_removed_station_id` of `_start_task`. -/
  | started (st : StationInfo) (k : Resume)
  /-- Between two reconciles. -/
  | idle
  | fetch
  | getStations (curr : List StationInfo)
  | sync (curr prev : List StationInfo)
  | hasConflict (st : StationInfo) (r : Round)
  | getRemoved (st : StationInfo) (r : Round)
  | remnant (st : StationInfo) (r : Round)
  | setConflict (st : StationInfo) (oldId : String) (r : Round)
  /-- `set_removed_station_id` of `_stop_task`. -/
  | remember (st : StationInfo) (k : Resume)
  /-- `wait_for(rec.task)` of `_stop_task`. -/
  | stopping (st : StationInfo) (k : Resume)

structure Poller where
  pc : PollerPc := .down
  running : Table StationInfo.stationName := Table.empty
  tasks : List StationInfo := []

/-- `{s.station_name: s for s in stations}.get(name)`: the last one wins. -/
def byName (stations : List StationInfo) (name : String) : Option StationInfo :=
  stations.reverse.find? fun s => s.stationName == name

/-- `sorted(set(prev) | set(curr) | set(running))`. -/
def roundNames (curr prev running : List StationInfo) : List String :=
  orderBy id ((prev ++ curr ++ running).map StationInfo.stationName).dedup

namespace Poller

/-- `_stop_task` up to its first await, once the task was found. -/
def stop (p : Poller) (st : StationInfo) (k : Resume) : Poller :=
  { p with
    pc := .remember st k
    running := p.running.deleteWhere fun s =>
      decide (s.stationName = st.stationName) }

/-- `_start_task` up to its first await. -/
def start (p : Poller) (st : StationInfo) (k : Resume) : Poller :=
  { pc := .started st k
    running := p.running.upsert st
    tasks := st :: p.tasks }

/-- The loop of `_reconcile_once` over the names that are left, up to the
first await. -/
def nextName (p : Poller) (curr prev : List StationInfo) :
    List String → Poller
  | [] => { p with pc := .idle }
  | name :: names =>
    match byName curr name with
    | some st => { p with pc := .hasConflict st ⟨curr, prev, names⟩ }
    | none =>
      match byName prev name, p.running.find? name with
      | some _, some st => p.stop st (.round ⟨curr, prev, names⟩)
      | _, _ => nextName p curr prev names

/-- The loop of the shutdown over the names that are left. -/
def nextShutdown (p : Poller) : List String → Poller
  | [] => {}
  | name :: names =>
    match p.running.find? name with
    | some st => p.stop st (.shutdown names)
    | none => nextShutdown p names

/-- The loop at hand, up to its next await. -/
def goOn (p : Poller) : Resume → Poller
  | .boot [] => { p with pc := .idle }
  | .boot (st :: rest) => { p with pc := .bootConflict st rest }
  | .round r => p.nextName r.curr r.prev r.names
  | .flag st oldId r => { p with pc := .setConflict st oldId r }
  | .shutdown names => p.nextShutdown names

/-- The `finally` of `run`. -/
def shutdown (p : Poller) : Poller :=
  p.nextShutdown (p.running.rows.map StationInfo.stationName)

/-- The task that is started when the awaited operation returns. -/
def starts (r : Registry) : PollerPc → Option StationInfo
  | .bootConflict st _ =>
    if r.hasPendingConflict st.stationName then none else some st
  | .getRemoved st _ =>
    if r.getRemovedStationId st.stationName = some st.stationId then some st
    else none
  | .remnant st _ =>
    if r.hasStationRemnantData st.stationName then none else some st
  | _ => none

/-- Where the process goes on when the operation returns. -/
def resume (db : List StationInfo) (r : Registry) (p : Poller) : Poller :=
  match p.pc with
  | .down | .idle => p
  | .bootFetch => { p with pc := .bootSync db }
  | .bootSync stations => p.goOn (.boot stations)
  | .bootConflict st rest =>
    if r.hasPendingConflict st.stationName then p.goOn (.boot rest)
    else p.start st (.boot rest)
  | .started _ k => p.goOn k
  | .fetch => { p with pc := .getStations db }
  | .getStations curr => { p with pc := .sync curr r.stations }
  | .sync curr prev =>
    p.goOn (.round ⟨curr, prev, roundNames curr prev p.running.rows⟩)
  | .hasConflict st round =>
    match p.running.find? st.stationName with
    | none =>
      if r.hasPendingConflict st.stationName then p.goOn (.round round)
      else { p with pc := .getRemoved st round }
    | some old =>
      if r.hasPendingConflict st.stationName then p.stop old (.round round)
      else if old.stationId = st.stationId then p.goOn (.round round)
      else p.stop old (.flag st old.stationId round)
  | .getRemoved st round =>
    match r.getRemovedStationId st.stationName with
    | some removedId =>
      if removedId = st.stationId then p.start st (.round round)
      else { p with pc := .setConflict st removedId round }
    | none => { p with pc := .remnant st round }
  | .remnant st round =>
    if r.hasStationRemnantData st.stationName then
      { p with pc := .setConflict st "unknown" round }
    else p.start st (.round round)
  | .setConflict _ _ round => p.goOn (.round round)
  | .remember st k => { p with pc := .stopping st k }
  | .stopping st k =>
    { p with tasks := p.tasks.filter fun t => t != st }.goOn k

/-- Where the process goes on when the operation raises.  `run` has no
`finally` before the fan-out is done. -/
def raised (p : Poller) : Poller :=
  match p.pc with
  | .down | .idle => p
  | .bootFetch | .bootSync _ | .bootConflict _ _ => {}
  | .fetch => { p with pc := .idle }
  | .started _ k => p.goOn k
  | .remember st k => { p with pc := .stopping st k }
  | .stopping st k =>
    { p with tasks := p.tasks.filter fun t => t != st }.goOn k
  | .getStations _ | .sync _ _ | .hasConflict _ _ | .getRemoved _ _
  | .remnant _ _ | .setConflict _ _ _ => p.shutdown

/-- `run` is interrupted. -/
def interrupted (p : Poller) : Poller :=
  match p.pc with
  | .down | .bootFetch | .bootSync _ | .bootConflict _ _
  | .started _ (.boot _) => {}
  | .started _ (.shutdown _) | .remember _ (.shutdown _)
  | .stopping _ (.shutdown _) => p
  | _ => p.shutdown

end Poller

/-- What the awaited operation does to Redis. -/
def PollerPc.effect (r : Registry) : PollerPc → Registry
  | .bootSync stations => r.setStations stations
  | .sync curr _ => r.setStations curr
  | .started st _ => r.clearRemovedStationId st.stationName
  | .setConflict st oldId _ =>
    r.setPendingConflict st.stationName oldId st.stationId
  | .remember st _ => r.setRemovedStationId st.stationName st.stationId
  | _ => r

/-! ## The system -/

/-- A request to `/api/stations/conflicts/resolve`. -/
inductive Request where
  | idle
  /-- `get_pending_conflicts`. -/
  | lookup (name : String) (action : ResolveAction)
  | serving (name : String) (ops : List ResolveOp)

structure World where
  /-- The stations that `fetch_stations` returns. -/
  db : List StationInfo := []
  redis : Registry := {}
  poller : Poller := {}
  requests : Nat → Request := fun _ => .idle

/-- What happens next. -/
inductive Event where
  /-- Stations are registered, removed or registered anew. -/
  | setDb (stations : List StationInfo)
  | boot
  /-- The interval of the sync loop has passed, or a trigger came in. -/
  | interval
  /-- The operation that the poller awaits ends. -/
  | reply (o : Outcome)
  | interrupt
  /-- The poller is killed.  The operation in flight is applied or not. -/
  | crash (applied : Bool)
  /-- A station task writes. -/
  | write (st : StationInfo) (op : TaskWrite)
  /-- A station task ends by itself. -/
  | taskEnds (st : StationInfo)
  /-- A request comes in, and finds a conflict or not. -/
  | request (i : Nat) (name : String) (action : ResolveAction)
  /-- The operation that a request awaits ends. -/
  | serve (i : Nat) (o : Outcome)

variable (glob : String → String → Bool)

/-- One operation of a request: what it leaves of the request, and what it
does to Redis. -/
def serveRequest (r : Registry) (o : Outcome) : Request → Request × Registry
  | .idle => (.idle, r)
  | .lookup name action =>
    if o.exc?.isSome then (.idle, r)
    else
      let newId := (r.conflict name).map Conflict.newId
      (.serving name (resolveOps name newId action), r)
  | .serving _ [] => (.idle, r)
  | .serving name (op :: ops) =>
    (if o.exc?.isSome then .idle else .serving name ops,
      o.settle r (op.effect glob name r))

/-- The world after the event. -/
def step (w : World) : Event → World
  | .setDb stations => { w with db := stations }
  | .boot =>
    match w.poller.pc with
    | .down => { w with poller := { pc := .bootFetch } }
    | _ => w
  | .interval =>
    match w.poller.pc with
    | .idle => { w with poller := { w.poller with pc := .fetch } }
    | _ => w
  | .reply o =>
    { w with
      redis := o.settle w.redis (w.poller.pc.effect w.redis)
      poller :=
        if o.exc?.isSome then w.poller.raised
        else w.poller.resume w.db w.redis }
  | .interrupt => { w with poller := w.poller.interrupted }
  | .crash applied =>
    { w with
      redis := if applied then w.poller.pc.effect w.redis else w.redis
      poller := {} }
  | .write st op =>
    if st ∈ w.poller.tasks then { w with redis := w.redis.write st op } else w
  | .taskEnds st =>
    { w with
      poller :=
        { w.poller with
          tasks := w.poller.tasks.filter fun t => t != st } }
  | .request i name action =>
    match w.requests i with
    | .idle =>
      if w.redis.hasPendingConflict name then
        { w with requests := Function.update w.requests i (.lookup name action) }
      else w
    | _ => w
  | .serve i o =>
    let (request, redis) := serveRequest glob w.redis o (w.requests i)
    { w with
      redis := redis
      requests := Function.update w.requests i request }

/-- The station whose task the event starts. -/
def Event.starts (w : World) : Event → Option StationInfo
  | .reply .ok => Poller.starts w.redis w.poller.pc
  | _ => none

/-! ## What a move of the poller does -/

/-- The loop at hand is the one of the shutdown. -/
def Resume.ending : Resume → Bool
  | .shutdown _ => true
  | _ => false

namespace PollerPc

/-- The task that is being stopped. -/
def stops : PollerPc → Option StationInfo
  | .remember st _ | .stopping st _ => some st
  | _ => none

/-- The process is in its shutdown. -/
def ending : PollerPc → Bool
  | .remember _ k | .stopping _ k => k.ending
  | _ => false

/-- No task is being stopped. -/
def Calm (pc : PollerPc) : Prop := pc.stops = none ∧ pc.ending = false

/-- The station whose removed marker or data are looked up. -/
def probes : PollerPc → Option StationInfo
  | .getRemoved st _ | .remnant st _ => some st
  | _ => none

end PollerPc

theorem PollerPc.calm_or (pc : PollerPc) :
    pc.Calm ∨ (∃ st k, pc = .remember st k) ∨ ∃ st k, pc = .stopping st k := by
  cases pc with
  | remember st k => exact Or.inr (Or.inl ⟨st, k, rfl⟩)
  | stopping st k => exact Or.inr (Or.inr ⟨st, k, rfl⟩)
  | _ => exact Or.inl ⟨rfl, rfl⟩

namespace Poller

/-- The tasks that the process has in hand: those that have not ended,
those of the dict, and the one that is being stopped. -/
def owned (p : Poller) : List StationInfo :=
  p.tasks ++ p.running.rows ++ p.pc.stops.toList

/-- `p'` comes from `p` by going on with a loop. -/
structure GoesOn (p p' : Poller) : Prop where
  tasks : ∀ t ∈ p'.tasks, t ∈ p.tasks
  running : ∀ t ∈ p'.running.rows, t ∈ p.running.rows
  stops : ∀ t, p'.pc.stops = some t → t ∈ p.running.rows
  held : ∀ t ∈ p.running.rows, t ∈ p'.tasks →
    t ∈ p'.running.rows ∨ p'.pc.stops = some t
  probes : p'.pc.probes = none

theorem goesOn_stop {p : Poller} {st : StationInfo} (k : Resume)
    (h : st ∈ p.running.rows) : p.GoesOn (p.stop st k) where
  tasks := fun t ht => ht
  running := fun t ht => (Table.mem_deleteWhere.mp ht).1
  stops := fun t ht => by
    obtain rfl := Option.some.inj ht
    exact h
  held := fun t ht _ => by
    by_cases hname : t.stationName = st.stationName
    · rw [p.running.eq_of_key_eq ht h hname]
      exact Or.inr rfl
    · exact Or.inl (Table.mem_deleteWhere.mpr ⟨ht, decide_eq_false hname⟩)
  probes := rfl

/-- The process goes on without stopping a task. -/
theorem goesOn_pc {p : Poller} {pc : PollerPc} (hstops : pc.stops = none)
    (hprobes : pc.probes = none) : p.GoesOn { p with pc := pc } where
  tasks := fun t ht => ht
  running := fun t ht => ht
  stops := fun t ht => by
    rw [show pc.stops = some t from ht] at hstops
    contradiction
  held := fun t ht _ => Or.inl ht
  probes := hprobes

theorem goesOn_nextName (p : Poller) (curr prev : List StationInfo)
    (names : List String) : p.GoesOn (p.nextName curr prev names) := by
  induction names with
  | nil => exact goesOn_pc rfl rfl
  | cons name names ih =>
    rw [nextName]
    split
    · exact goesOn_pc rfl rfl
    · split
      · next old hold =>
        exact goesOn_stop (.round ⟨curr, prev, names⟩)
          (Table.find?_eq_some_iff.mp hold).1
      · exact ih

theorem goesOn_nextShutdown (p : Poller) (names : List String) :
    p.GoesOn (p.nextShutdown names) := by
  induction names with
  | nil =>
    exact ⟨fun t ht => absurd ht List.not_mem_nil,
      fun t ht => absurd ht List.not_mem_nil, fun t ht => by contradiction,
      fun t _ ht => absurd ht List.not_mem_nil, rfl⟩
  | cons name names ih =>
    rw [nextShutdown]
    split
    · next old hold =>
      exact goesOn_stop (.shutdown names) (Table.find?_eq_some_iff.mp hold).1
    · exact ih

theorem goesOn_goOn (p : Poller) (k : Resume) : p.GoesOn (p.goOn k) := by
  cases k with
  | boot rest => cases rest <;> exact goesOn_pc rfl rfl
  | round r => exact goesOn_nextName p r.curr r.prev r.names
  | flag st oldId r => exact goesOn_pc rfl rfl
  | shutdown names => exact goesOn_nextShutdown p names

/-- The shutdown goes on until no task is left. -/
theorem ending_nextShutdown (p : Poller) (names : List String) :
    (p.nextShutdown names).pc.ending = true ∨
      (p.nextShutdown names).tasks = [] := by
  induction names with
  | nil => exact Or.inr rfl
  | cons name names ih =>
    rw [nextShutdown]
    split
    · exact Or.inl rfl
    · exact ih

/-- A task that has not ended is in the dict or is being stopped, unless
the process is in its shutdown.  A name is looked up while the dict does
not have it. -/
structure Orderly (p : Poller) : Prop where
  held : ∀ t ∈ p.tasks,
    t ∈ p.running.rows ∨ p.pc.stops = some t ∨ p.pc.ending = true
  probes : ∀ st, p.pc.probes = some st →
    ∀ t ∈ p.running.rows, t.stationName ≠ st.stationName

theorem orderly_empty : Orderly {} :=
  ⟨fun t ht => absurd ht List.not_mem_nil, fun st h => by contradiction⟩

theorem GoesOn.orderly {p p' : Poller} (h : p.GoesOn p')
    (hp : ∀ t ∈ p.tasks, t ∈ p.running.rows ∨ p'.pc.ending = true ∨ p'.tasks = []) :
    p'.Orderly where
  held := fun t ht => by
    rcases hp t (h.tasks t ht) with hrunning | hending | hnone
    · rcases h.held t hrunning ht with hr | hs
      · exact Or.inl hr
      · exact Or.inr (Or.inl hs)
    · exact Or.inr (Or.inr hending)
    · rw [hnone] at ht
      exact absurd ht List.not_mem_nil
  probes := fun st hst => by
    rw [h.probes] at hst
    contradiction

theorem GoesOn.owned {p p' : Poller} (h : p.GoesOn p') :
    ∀ t ∈ p'.owned, t ∈ p.owned := by
  intro t ht
  simp only [Poller.owned, List.mem_append, Option.mem_toList] at ht ⊢
  rcases ht with (ht | ht) | ht
  · exact Or.inl (Or.inl (h.tasks t ht))
  · exact Or.inl (Or.inr (h.running t ht))
  · exact Or.inl (Or.inr (h.stops t ht))

theorem orderly_goOn {p : Poller} {k : Resume}
    (hp : ∀ t ∈ p.tasks, t ∈ p.running.rows ∨ k.ending = true) :
    (p.goOn k).Orderly := by
  refine (goesOn_goOn p k).orderly fun t ht => ?_
  rcases hp t ht with hrunning | hending
  · exact Or.inl hrunning
  · cases k with
    | shutdown names => exact Or.inr (ending_nextShutdown p names)
    | _ => contradiction

/-- What a move of the poller does: it comes to have no task in hand but
the one it starts, and it stays orderly if it starts no task over another. -/
structure Moves (p : Poller) (start : Option StationInfo) (p' : Poller) :
    Prop where
  owned : ∀ t ∈ p'.owned, t ∈ p.owned ∨ start = some t
  orderly : p.Orderly →
    (∀ st, start = some st → ∀ t ∈ p.running.rows,
      t.stationName ≠ st.stationName) →
    p'.Orderly

variable {p : Poller}

theorem moves_self (start : Option StationInfo) : p.Moves start p :=
  ⟨fun _ ht => Or.inl ht, fun h _ => h⟩

theorem moves_empty : p.Moves none {} :=
  ⟨fun _ ht => absurd ht List.not_mem_nil, fun _ _ => orderly_empty⟩

/-- A task that has not ended is in the dict, unless one is being stopped. -/
theorem Orderly.running (h : p.Orderly) (hcalm : p.pc.Calm) :
    ∀ t ∈ p.tasks, t ∈ p.running.rows := by
  intro t ht
  rcases h.held t ht with hr | hs | he
  · exact hr
  · rw [hcalm.1] at hs
    contradiction
  · rw [hcalm.2] at he
    contradiction

theorem moves_pc {pc : PollerPc} (hcalm : p.pc.Calm) (hstops : pc.stops = none)
    (hprobes : p.Orderly → ∀ st, pc.probes = some st → ∀ t ∈ p.running.rows,
      t.stationName ≠ st.stationName) :
    p.Moves none { p with pc := pc } where
  owned := fun t ht => by
    simp only [owned, hstops, hcalm.1, List.mem_append] at ht ⊢
    exact Or.inl ht
  orderly := fun h _ => ⟨fun t ht => Or.inl (h.running hcalm t ht), hprobes h⟩

theorem moves_goOn (k : Resume) (hcalm : p.pc.Calm) :
    p.Moves none (p.goOn k) where
  owned := fun t ht => Or.inl ((goesOn_goOn p k).owned t ht)
  orderly := fun h _ => orderly_goOn fun t ht => Or.inl (h.running hcalm t ht)

theorem moves_stop {old : StationInfo} (k : Resume) (hcalm : p.pc.Calm)
    (hold : old ∈ p.running.rows) : p.Moves none (p.stop old k) where
  owned := fun t ht => Or.inl ((goesOn_stop k hold).owned t ht)
  orderly := fun h _ => (goesOn_stop k hold).orderly fun t ht =>
    Or.inl (h.running hcalm t ht)

theorem moves_start (st : StationInfo) (k : Resume) (hcalm : p.pc.Calm) :
    p.Moves (some st) (p.start st k) where
  owned := fun t ht => by
    simp only [owned, start, PollerPc.stops, List.mem_append, List.mem_cons,
      Table.mem_upsert, Option.toList_none, List.not_mem_nil, or_false] at ht
    simp only [owned, List.mem_append]
    rcases ht with (rfl | ht) | (rfl | ⟨ht, -⟩)
    · exact Or.inr rfl
    · exact Or.inl (Or.inl (Or.inl ht))
    · exact Or.inr rfl
    · exact Or.inl (Or.inl (Or.inr ht))
  orderly := fun h hfresh => by
    refine ⟨fun t ht => Or.inl (Table.mem_upsert.mpr ?_), fun _ h => by contradiction⟩
    rcases List.mem_cons.mp ht with rfl | ht
    · exact Or.inl rfl
    · have hrunning := h.running hcalm t ht
      exact Or.inr ⟨hrunning, hfresh st rfl t hrunning⟩

theorem moves_shutdown : p.Moves none p.shutdown := by
  have hgoes := goesOn_nextShutdown p (p.running.rows.map StationInfo.stationName)
  refine ⟨fun t ht => Or.inl (hgoes.owned t ht), fun _ _ => ?_⟩
  exact hgoes.orderly fun _ _ => Or.inr (ending_nextShutdown p _)

/-- The task that was being stopped has ended. -/
theorem moves_stopped {st : StationInfo} {k : Resume}
    (hpc : p.pc = .stopping st k) :
    p.Moves none ({ p with tasks := p.tasks.filter fun t => t != st }.goOn k) := by
  have hgoes := goesOn_goOn { p with tasks := p.tasks.filter fun t => t != st } k
  refine ⟨fun t ht => Or.inl ?_, fun h _ => orderly_goOn fun t ht => ?_⟩
  · have hmem := hgoes.owned t ht
    simp only [owned, List.mem_append, List.mem_filter] at hmem ⊢
    exact hmem.imp_left (Or.imp_left And.left)
  · obtain ⟨ht, hne⟩ := List.mem_filter.mp ht
    rcases h.held t ht with hr | hs | he
    · exact Or.inl hr
    · rw [hpc] at hs
      obtain rfl := Option.some.inj hs
      simp at hne
    · rw [hpc] at he
      exact Or.inr he

theorem moves_remembered {st : StationInfo} {k : Resume}
    (hpc : p.pc = .remember st k) :
    p.Moves none { p with pc := .stopping st k } where
  owned := fun t ht => by
    simp only [owned, hpc] at ht ⊢
    exact Or.inl ht
  orderly := fun h _ => by
    refine ⟨fun t ht => ?_, fun _ h => by contradiction⟩
    have hheld := h.held t ht
    rw [hpc] at hheld
    exact hheld

/-- The move after an answer, when no task is being stopped. -/
theorem moves_resume_of_calm (db : List StationInfo) (r : Registry)
    (hcalm : p.pc.Calm) : p.Moves (starts r p.pc) (p.resume db r) := by
  have hnone : ∀ {pc : PollerPc}, pc.probes = none → p.Orderly →
      ∀ st, pc.probes = some st → ∀ t ∈ p.running.rows,
        t.stationName ≠ st.stationName := by
    intro pc hnone _ st hst
    rw [hnone] at hst
    contradiction
  unfold resume
  cases hpc : p.pc with
  | down => exact moves_self none
  | idle => exact moves_self none
  | bootFetch => exact moves_pc hcalm rfl (hnone rfl)
  | bootSync stations => exact moves_goOn _ hcalm
  | bootConflict st rest =>
    simp only [starts]
    split
    · exact moves_goOn _ hcalm
    · exact moves_start st _ hcalm
  | started st k => exact moves_goOn k hcalm
  | fetch => exact moves_pc hcalm rfl (hnone rfl)
  | getStations curr => exact moves_pc hcalm rfl (hnone rfl)
  | sync curr prev => exact moves_goOn _ hcalm
  | hasConflict st round =>
    dsimp only [starts]
    split
    · next hfree =>
      split
      · exact moves_goOn _ hcalm
      · refine moves_pc hcalm rfl fun _ s hs => ?_
        obtain rfl := Option.some.inj hs
        exact Table.find?_eq_none_iff.mp hfree
    · next old hold =>
      have hrunning := (Table.find?_eq_some_iff.mp hold).1
      split
      · exact moves_stop _ hcalm hrunning
      · split
        · exact moves_goOn _ hcalm
        · exact moves_stop _ hcalm hrunning
  | getRemoved st round =>
    dsimp only [starts]
    cases hremoved : r.getRemovedStationId st.stationName with
    | some removedId =>
      dsimp only
      by_cases heq : removedId = st.stationId
      · rw [if_pos heq, if_pos (congrArg some heq)]
        exact moves_start st _ hcalm
      · rw [if_neg heq, if_neg fun h => heq (Option.some.inj h)]
        exact moves_pc hcalm rfl (hnone rfl)
    | none =>
      rw [if_neg (by simp)]
      refine moves_pc hcalm rfl fun h => ?_
      have hprobes := h.probes
      rw [hpc] at hprobes
      exact hprobes
  | remnant st round =>
    dsimp only [starts]
    split
    · exact moves_pc hcalm rfl (hnone rfl)
    · exact moves_start st _ hcalm
  | setConflict st oldId round => exact moves_goOn _ hcalm
  | remember st k => rw [hpc] at hcalm; cases hcalm.1
  | stopping st k => rw [hpc] at hcalm; cases hcalm.1

/-- An answer. -/
theorem moves_resume (db : List StationInfo) (r : Registry) (p : Poller) :
    p.Moves (starts r p.pc) (p.resume db r) := by
  rcases p.pc.calm_or with hcalm | ⟨st, k, hpc⟩ | ⟨st, k, hpc⟩
  · exact moves_resume_of_calm db r hcalm
  · have hremembered := moves_remembered hpc
    rw [resume, hpc]
    exact hremembered
  · have hstopped := moves_stopped hpc
    rw [hpc] at hstopped
    rw [resume, hpc]
    exact hstopped

/-- An exception. -/
theorem moves_raised (p : Poller) : p.Moves none p.raised := by
  rcases p.pc.calm_or with hcalm | ⟨st, k, hpc⟩ | ⟨st, k, hpc⟩
  · unfold raised
    cases hpc : p.pc with
    | down => exact moves_self none
    | idle => exact moves_self none
    | bootFetch => exact moves_empty
    | bootSync stations => exact moves_empty
    | bootConflict st rest => exact moves_empty
    | fetch => exact moves_pc hcalm rfl fun _ st hst => by contradiction
    | started st k => exact moves_goOn k hcalm
    | remember st k => rw [hpc] at hcalm; cases hcalm.1
    | stopping st k => rw [hpc] at hcalm; cases hcalm.1
    | _ => exact moves_shutdown
  · have hremembered := moves_remembered hpc
    rw [raised, hpc]
    exact hremembered
  · have hstopped := moves_stopped hpc
    rw [hpc] at hstopped
    rw [raised, hpc]
    exact hstopped

theorem moves_interrupted (p : Poller) : p.Moves none p.interrupted := by
  unfold interrupted
  split
  all_goals first
    | exact moves_empty
    | exact moves_self none
    | exact moves_shutdown

end Poller

end DustMonitoring.Dumopro
